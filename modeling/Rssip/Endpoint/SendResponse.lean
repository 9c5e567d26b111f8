import Rssip.Endpoint.CreateResponse
import Rssip.Transaction.ServerStates

namespace Rssip

open Lib

/-!
# Sending responses

A response goes over its direct target, if it has one that takes it, or else to the addresses
that its host resolves to.

* `Endpoint.getResponseDestination` — where the response to a request goes;
* `ServerTransaction.createResponse` — a response after the first one goes where that one went;
* `Endpoint.sendResponse` — what is tried, in order;
* `data_sendOutgoingResponse` — a response is encoded at its first transmission only;
* `OutgoingResponse.StaysWith` — a response goes to a target, and nowhere else;
* `createResponse_staysWith_iff` — when the responses of a transaction do.
-/

/-! ### Destinations -/

/-- The port of a transport if none is given. -/
def TransportProtocol.defaultPort : TransportProtocol → UInt16
  | udp | tcp | sctp => 5060
  | tls => 5061
  | ws | wss => 80

namespace Endpoint

/-- Where the response to a request goes. -/
def getResponseDestination (request : IncomingRequest) : OutgoingDestInfo :=
  let incomingInfo := request.incomingInfo
  let topmostVia := incomingInfo.mandatoryHeaders.via
  let viaSentBy := topmostVia.sentBy
  let sourceTransport := incomingInfo.transportMsg.transport
  if topmostVia.transport.isReliable then
    let host :=
      match topmostVia.received with
      | some ipAddr =>
        ⟨.ipAddr ipAddr, some (viaSentBy.port.getD sourceTransport.protocol.defaultPort)⟩
      | none => viaSentBy
    { hostPort := (host, sourceTransport.protocol)
      transport := some ⟨incomingInfo.transportMsg.packet.source, sourceTransport⟩ }
  else
    match topmostVia.maddr with
    | some maddr =>
      { hostPort := (⟨maddr, some (viaSentBy.port.getD 5060)⟩, topmostVia.transport)
        transport := none }
    | none =>
      match topmostVia.received with
      | some ipAddr =>
        let socketAddr : SocketAddr := ⟨ipAddr, viaSentBy.port.getD 5060⟩
        { hostPort := (socketAddr.hostPort, sourceTransport.protocol)
          transport := some ⟨socketAddr, sourceTransport⟩ }
      | none => { hostPort := (viaSentBy, topmostVia.transport), transport := none }

/-- A response to a request, with where it is to go. -/
def createOutgoingResponse (request : IncomingRequest) (code : StatusCode)
    (reason : Option String) : OutgoingResponse where
  response := createResponse request code reason
  destInfo := getResponseDestination request

end Endpoint

/-- A response of the transaction.  Its host is the address of the transport at this end. -/
def ServerTransaction.createResponse (code : StatusCode) (reason : Option String)
    (s : ServerTransaction) : OutgoingResponse :=
  match s.targetInfo with
  | some target =>
    let sourceAddr := target.transport.localAddr
    { response := Endpoint.createResponse s.request code reason
      destInfo :=
        { hostPort := (sourceAddr.hostPort, target.transport.protocol)
          transport := some target } }
  | none => Endpoint.createOutgoingResponse s.request code reason

/-! ### Transmission -/

/-- A host that is to be looked up, with the transport if it is known. -/
structure SipHost where
  hostPort : HostPort
  protocol : Option TransportProtocol
deriving DecidableEq

/-- An address that a look-up has given. -/
structure LookupAddress where
  socketAddr : SocketAddr
  protocol : TransportProtocol
deriving DecidableEq

/-- A message that was handed to a transport. -/
structure Attempt where
  transport : TransportHandle
  data : Bytes
  socketAddr : SocketAddr
deriving DecidableEq

/-- What the answers of the world are: the lookup of a host and port, the choice of a transport,
    and what becomes of a message after others were tried. -/
structure Network where
  lookupHost : String → Except Error (List SocketAddr)
  selectTransport : SocketAddr → TransportProtocol → Except Error TransportHandle
  sendMsg : List Attempt → Attempt → Except Error Nat

/-- `DefaultResolver`: an address is taken as it is, a name is looked up. -/
def Network.resolve (target : SipHost) (net : Network) : Except Error (List LookupAddress) :=
  let protocol := target.protocol.getD .udp
  let port := target.hostPort.port.getD protocol.defaultPort
  match target.hostPort.host with
  | .hostName hostName =>
    match net.lookupHost (hostName ++ ":" ++ decimal port.toNat) with
    | .ok (addr :: _) => .ok [⟨addr, protocol⟩]
    | .ok [] => .error (.io ("No address found for '" ++ hostName ++ "'"))
    | .error e => .error e
  | .ipAddr ipAddr => .ok [⟨⟨ipAddr, port⟩, protocol⟩]

namespace Endpoint

/-- The addresses are tried in order, after what was tried before: the target that took the
    message, if one did, and all that was tried. -/
def tryAddresses (net : Network) (data : Bytes) :
    List LookupAddress → List Attempt → Option TargetTransportInfo × List Attempt
  | [], tried => (none, tried)
  | addr :: addresses, tried =>
    match net.selectTransport addr.socketAddr addr.protocol with
    | .error _ => tryAddresses net data addresses tried
    | .ok transport =>
      let attempt : Attempt := ⟨transport, data, addr.socketAddr⟩
      match net.sendMsg tried attempt with
      | .ok _ => (some ⟨addr.socketAddr, transport⟩, tried ++ [attempt])
      | .error _ => tryAddresses net data addresses (tried ++ [attempt])

/-- The second half of `send_response`. -/
def sendToHost (net : Network) (data : Bytes) (hostPort : HostPort × TransportProtocol)
    (tried : List Attempt) : Except Error TargetTransportInfo × List Attempt :=
  match net.resolve ⟨hostPort.1, some hostPort.2⟩ with
  | .error e => (.error e, tried)
  | .ok addresses =>
    match tryAddresses net data addresses tried with
    | (some target, tried) => (.ok target, tried)
    | (none, tried) => (.error (.transport "Failed to send response!"), tried)

/-- `send_response` of the endpoint: the target that took the response, which is noted in its
    destination, or the error; and all that was tried. -/
def sendResponse (net : Network) (data : Bytes) (destInfo : OutgoingDestInfo) :
    Except Error TargetTransportInfo × List Attempt :=
  match destInfo.transport with
  | some target =>
    let attempt : Attempt := ⟨target.transport, data, target.socketAddr⟩
    match net.sendMsg [] attempt with
    | .ok _ => (.ok target, [attempt])
    | .error _ => sendToHost net data destInfo.hostPort [attempt]
  | none => sendToHost net data destInfo.hostPort []

/-- The host of a socket address resolves to it. -/
theorem resolve_hostPort (socketAddr : SocketAddr) (protocol : TransportProtocol)
    (net : Network) :
    net.resolve ⟨socketAddr.hostPort, some protocol⟩ = .ok [⟨socketAddr, protocol⟩] := rfl

/-- **What is tried for the host of a socket address**: it is, once, if there is a transport. -/
theorem sendToHost_hostPort (net : Network) (data : Bytes) (socketAddr : SocketAddr)
    (protocol : TransportProtocol) (tried : List Attempt) :
    (sendToHost net data (socketAddr.hostPort, protocol) tried).2 =
      tried ++
        match net.selectTransport socketAddr protocol with
        | .ok transport => [⟨transport, data, socketAddr⟩]
        | .error _ => [] := by
  unfold sendToHost
  rw [resolve_hostPort]
  simp only [tryAddresses]
  cases net.selectTransport socketAddr protocol with
  | error e => exact (List.append_nil _).symm
  | ok transport =>
    simp only []
    cases net.sendMsg tried ⟨transport, data, socketAddr⟩ with
    | ok _ => rfl
    | error _ => rfl

end Endpoint

/-! ### The encoding -/

/-- A response on its way, with its encoding, which is empty before the first transmission. -/
structure EncodedResponse where
  outgoing : OutgoingResponse
  encoded : Bytes := []
deriving DecidableEq

namespace Endpoint

/-- What `send_outgoing_response` does before it sends: the plugins get the decoded response, and
    it is encoded if it was not before.  `none` where the printer of a header panics. -/
def encodeResponse (plugins : List (Response → Response)) (r : EncodedResponse) :
    Option EncodedResponse :=
  let response := plugins.foldl (fun response onOutgoing => onOutgoing response)
    r.outgoing.response
  let outgoing := { r.outgoing with response := response }
  if r.encoded.isEmpty then outgoing.encode.map fun encoded => ⟨outgoing, encoded⟩
  else some ⟨outgoing, r.encoded⟩

/-- `send_outgoing_response`: the response as it is left, the outcome, and what was tried. -/
def sendOutgoingResponse (plugins : List (Response → Response)) (net : Network)
    (r : EncodedResponse) :
    Option (EncodedResponse × Except Error TargetTransportInfo × List Attempt) :=
  (encodeResponse plugins r).map fun r =>
    let sent := sendResponse net r.encoded r.outgoing.destInfo
    ({ r with outgoing := r.outgoing.after sent.1 }, sent.1, sent.2)

/-- What is put on the wire for a message is never empty. -/
theorem encode_ne_nil {m : SipMessage} {bs : Bytes} (h : encode m = some bs) : bs ≠ [] := by
  obtain ⟨headers, -, rfl⟩ := encode_eq_some_iff.mp h
  rw [writeBody_eq]
  intro hnil
  -- the empty line is there in any case
  have hbody := (List.append_eq_nil_iff.mp hnil).2
  have hline := (List.append_eq_nil_iff.mp (List.append_eq_nil_iff.mp hbody).1).2
  exact absurd hline (by decide)

theorem encoded_encodeResponse {plugins : List (Response → Response)} {r r' : EncodedResponse}
    (h : encodeResponse plugins r = some r') :
    r'.encoded ≠ [] ∧ (r.encoded ≠ [] → r'.encoded = r.encoded) := by
  unfold encodeResponse at h
  simp only [] at h
  split at h
  · next hempty =>
    obtain ⟨encoded, hencode, rfl⟩ := Option.map_eq_some_iff.mp h
    refine ⟨encode_ne_nil hencode, fun hne => absurd ?_ hne⟩
    exact List.isEmpty_iff.mp hempty
  · next hempty =>
    obtain rfl := Option.some.inj h
    exact ⟨fun hnil => hempty (List.isEmpty_iff.mpr hnil), fun _ => rfl⟩

/-- What is tried is tried with the same bytes. -/
theorem data_tryAddresses (net : Network) (data : Bytes) (addresses : List LookupAddress)
    {tried : List Attempt} (h : ∀ attempt ∈ tried, attempt.data = data) :
    ∀ attempt ∈ (tryAddresses net data addresses tried).2, attempt.data = data := by
  induction addresses generalizing tried with
  | nil => exact h
  | cons addr addresses ih =>
    unfold tryAddresses
    split
    · exact ih h
    · next transport _ =>
      have happend : ∀ attempt ∈ tried ++ [⟨transport, data, addr.socketAddr⟩],
          attempt.data = data := by
        intro attempt hattempt
        rcases List.mem_append.mp hattempt with hold | hnew
        · exact h attempt hold
        · rw [List.mem_singleton.mp hnew]
      simp only []
      split
      · exact happend
      · exact ih happend

theorem data_sendToHost (net : Network) (data : Bytes) (hostPort : HostPort × TransportProtocol)
    {tried : List Attempt} (h : ∀ attempt ∈ tried, attempt.data = data) :
    ∀ attempt ∈ (sendToHost net data hostPort tried).2, attempt.data = data := by
  unfold sendToHost
  split
  · exact h
  · next addresses _ =>
    have hall := data_tryAddresses net data addresses h
    split
    · next heq => rwa [heq] at hall
    · next heq => rwa [heq] at hall

theorem data_sendResponse (net : Network) (data : Bytes) (destInfo : OutgoingDestInfo) :
    ∀ attempt ∈ (sendResponse net data destInfo).2, attempt.data = data := by
  unfold sendResponse
  split
  · next target _ =>
    have hone : ∀ attempt ∈ [(⟨target.transport, data, target.socketAddr⟩ : Attempt)],
        attempt.data = data := by
      intro attempt hattempt
      rw [List.mem_singleton.mp hattempt]
    simp only []
    split
    · exact hone
    · exact data_sendToHost net data _ hone
  · exact data_sendToHost net data _ fun _ h => nomatch h

/-- **A response is encoded once.** Whatever the plugins do to it later on, what is tried is the
    encoding of the first time. -/
theorem data_sendOutgoingResponse {plugins : List (Response → Response)} {net : Network}
    {r r' : EncodedResponse} {res : Except Error TargetTransportInfo} {tried : List Attempt}
    (h : sendOutgoingResponse plugins net r = some (r', res, tried)) :
    r'.encoded ≠ [] ∧ (r.encoded ≠ [] → r'.encoded = r.encoded) ∧
      ∀ attempt ∈ tried, attempt.data = r'.encoded := by
  obtain ⟨r₁, hencode, heq⟩ := Option.map_eq_some_iff.mp h
  obtain ⟨hne, hkeep⟩ := encoded_encodeResponse hencode
  simp only [Prod.mk.injEq] at heq
  obtain ⟨rfl, -, rfl⟩ := heq
  exact ⟨hne, hkeep, data_sendResponse net r₁.encoded r₁.outgoing.destInfo⟩

end Endpoint

/-! ### Staying with a target -/

/-- The response goes to the target directly, and if this fails it is tried again at the address
    of the target, and nowhere else. -/
def OutgoingResponse.StaysWith (target : TargetTransportInfo) (r : OutgoingResponse) : Prop :=
  r.destInfo.transport = some target ∧
    ∀ (net : Network) data e,
      net.sendMsg [] ⟨target.transport, data, target.socketAddr⟩ = .error e →
      ∃ retries, (Endpoint.sendResponse net data r.destInfo).2 =
          ⟨target.transport, data, target.socketAddr⟩ :: retries ∧
        (∀ attempt ∈ retries, attempt.socketAddr = target.socketAddr) ∧
        (retries = [] → ∃ e', net.selectTransport target.socketAddr target.transport.protocol =
          .error e')

namespace ServerTransaction

/-! ### The target of a transaction -/

theorem targetInfo_keepTarget {s : ServerTransaction} {target : TargetTransportInfo}
    (h : s.targetInfo = some target) (res : Except Error TargetTransportInfo) :
    s.keepTarget res = s := by
  unfold keepTarget
  cases res with
  | error _ => rfl
  | ok _ => simp [h]

/-- **The target of the first response is kept.** -/
theorem targetInfo_step {s : ServerTransaction} {target : TargetTransportInfo}
    (h : s.targetInfo = some target) (e : ServerEvent) : (s.step e).targetInfo = some target := by
  by_cases hsent : ∃ res, e = .sent res
  · obtain ⟨res, rfl⟩ := hsent
    rcases frame_sent res s with hframe | hframe
    · exact hframe.targetInfo.trans h
    · rw [targetInfo_keepTarget h res] at hframe
      exact hframe.targetInfo.trans h
  · by_cases helapse : ∃ ms, e = .elapse ms
    · obtain ⟨ms, rfl⟩ := helapse
      exact h
    · exact (frame_step s (fun ms heq => helapse ⟨ms, heq⟩)
        fun res heq => hsent ⟨res, heq⟩).targetInfo.trans h

/-- The target that takes the first response is noted, whatever comes after. -/
theorem run_targetInfo {s : ServerTransaction} {response : OutgoingResponse}
    (hsending : s.activity = .sendingProvisional response ∨ s.activity = .sendingFinal response)
    (hfirst : s.targetInfo = none) (target : TargetTransportInfo) (es : List ServerEvent) :
    (run (s.step (.sent (.ok target))) es).targetInfo = some target := by
  have hkeep : (s.keepTarget (.ok target)).targetInfo = some target := by
    unfold keepTarget
    simp [hfirst]
  have hstep : ∀ (s : ServerTransaction) e, s.targetInfo = some target →
      (s.step e).targetInfo = some target := fun _ e h => targetInfo_step h e
  refine exec_invariant hstep ?_ es
  show (s.sent (.ok target)).targetInfo = some target
  unfold sent
  rcases hsending with hactivity | hactivity
  · simp only [hactivity]
    rw [(frame_finishProvisional _ _).targetInfo]
    exact hkeep
  · simp only [hactivity]
    rw [(frame_finishFinal _ _).targetInfo]
    exact hkeep

/-- A world in which nothing is taken: every message is tried, over the given transport. -/
def unreachable (transport : TransportHandle) : Network where
  lookupHost _ := .ok []
  selectTransport _ _ := .ok transport
  sendMsg _ _ := .error (.transport "")

theorem staysWith_iff {target : TargetTransportInfo} {response : Response}
    {socketAddr : SocketAddr} :
    OutgoingResponse.StaysWith target
        ⟨response, (socketAddr.hostPort, target.transport.protocol), some target⟩ ↔
      socketAddr = target.socketAddr := by
  have htried : ∀ (net : Network) data e,
      net.sendMsg [] ⟨target.transport, data, target.socketAddr⟩ = .error e →
      (Endpoint.sendResponse net data
          ⟨(socketAddr.hostPort, target.transport.protocol), some target⟩).2 =
        ⟨target.transport, data, target.socketAddr⟩ ::
          match net.selectTransport socketAddr target.transport.protocol with
          | .ok transport => [⟨transport, data, socketAddr⟩]
          | .error _ => [] := by
    intro net data e he
    unfold Endpoint.sendResponse
    simp only [he]
    exact Endpoint.sendToHost_hostPort _ _ _ _ _
  constructor
  · rintro ⟨-, hretried⟩
    -- the retry in a world that takes nothing shows where it goes
    obtain ⟨retries, htrace, hall, -⟩ := hretried (unreachable target.transport) [] _ rfl
    rw [htried (unreachable target.transport) [] _ rfl] at htrace
    obtain ⟨-, rfl⟩ := List.cons.inj htrace
    exact hall _ List.mem_cons_self
  · rintro rfl
    refine ⟨rfl, fun net data e he => ⟨_, htried net data e he, ?_, ?_⟩⟩
    · split
      · intro attempt hattempt
        rw [List.mem_singleton.mp hattempt]
      · exact fun _ h => nomatch h
    · split
      · exact fun h => nomatch h
      · next e' he' => exact fun _ => ⟨e', he'⟩

/-- **When later responses keep their destination.** After a first response was taken by a
    target, those of the transaction stay with this target exactly when the transport has the
    same address at both ends. -/
theorem createResponse_staysWith_iff {s : ServerTransaction} {response : OutgoingResponse}
    (hsending : s.activity = .sendingProvisional response ∨ s.activity = .sendingFinal response)
    (hfirst : s.targetInfo = none) (target : TargetTransportInfo) (es : List ServerEvent) :
    (∀ code reason, OutgoingResponse.StaysWith target
        ((run (s.step (.sent (.ok target))) es).createResponse code reason)) ↔
      target.transport.localAddr = target.socketAddr := by
  have htarget := run_targetInfo hsending hfirst target es
  have hcreate : ∀ code reason,
      OutgoingResponse.StaysWith target
          ((run (s.step (.sent (.ok target))) es).createResponse code reason) ↔
        target.transport.localAddr = target.socketAddr := by
    intro code reason
    unfold createResponse
    rw [htarget]
    exact staysWith_iff
  constructor
  · intro h
    exact (hcreate .ok none).mp (h .ok none)
  · intro h code reason
    exact (hcreate code reason).mpr h

/-- The transaction of an `OPTIONS` request, with a provisional response on its way. -/
def sendingTrying : ServerTransaction :=
  (new (.newKey3261 .uas .options "z9hG4bK1") (.fromLocalhost .options none false) 0).step
    (.sendProvisionalResponse (.ofCode .trying))

/-- A server that talks to itself stays with its address. -/
theorem createResponse_staysWith_iff_localhost :
    OutgoingResponse.StaysWith ⟨SocketAddr.localhost, .localhost false⟩
      ((run (sendingTrying.step (.sent (.ok ⟨SocketAddr.localhost, .localhost false⟩)))
        []).createResponse .ok none) :=
  (createResponse_staysWith_iff (.inl rfl) rfl ⟨SocketAddr.localhost, .localhost false⟩ []).mpr rfl
    .ok none

/-- A client on another port of the host. -/
def client : TargetTransportInfo := ⟨⟨.v4 ⟨127, 0, 0, 1⟩, 5070⟩, .localhost false⟩

/-- The final response to it would be tried at the server's own port next. -/
theorem not_createResponse_staysWith_client :
    ¬ OutgoingResponse.StaysWith client
      ((sendingTrying.step (.sent (.ok client))).createResponse .ok none) := by
  intro h
  have heq : SocketAddr.localhost = client.socketAddr := staysWith_iff.mp h
  exact absurd heq (by decide)

end ServerTransaction

end Rssip
