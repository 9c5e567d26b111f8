import Rssip.Endpoint.RouteSet
import Rssip.Endpoint.SendResponse
import Rssip.Transaction.Histories
import Rssip.Transport.Reuse

namespace Rssip

open Lib

/-!
# Where a request goes

A request that is sent without a fixed target goes to the address of its next hop, over a transport
of the crate.

* `TransportMap` — the transports of an endpoint, and the choice of one of them;
* `Network.resolveUri` — the address of a URI;
* `Endpoint.createOutgoingRequest` — the request with its target;
* `ReachedBy` — what a target has to do with the URI it was found for;
* `run_target` — every transmission of a transaction goes to the target of its request.
-/

/-! ### The transports of the crate -/

namespace TransportHandle

/-- A `UdpTransport`. -/
def ofUdp (addr : SocketAddr) : TransportHandle where
  protocol := .udp
  localAddr := addr
  isReliable := false
  isSecure := false

/-- A `TcpTransport`. -/
def ofTcp (bindAddr : SocketAddr) : TransportHandle where
  protocol := .tcp
  localAddr := bindAddr
  isReliable := true
  isSecure := false

/-- A `WebSocketTransport`, over TLS or not. -/
def ofWs (localAddr : SocketAddr) : TransportHandle where
  protocol := .ws
  localAddr := localAddr
  isReliable := true
  isSecure := false

end TransportHandle

/-- The key under which a transport is entered: where it is bound, and its protocol. -/
def TransportKey.ofTransport (transport : TransportHandle) : TransportKey where
  socketAddr := transport.localAddr
  protocol := transport.protocol

/-- Both are IPv4 addresses, or both are IPv6 addresses. -/
def SocketAddr.sameFamily (addr addr' : SocketAddr) : Bool :=
  match addr.ip, addr'.ip with
  | .v4 _, .v4 _ | .v6 _, .v6 _ => true
  | .v4 _, .v6 _ | .v6 _, .v4 _ => false

/-- An address is of its own family. -/
theorem SocketAddr.sameFamily_self (addr : SocketAddr) : addr.sameFamily addr = true := by
  unfold sameFamily
  cases addr.ip <;> rfl

/-- The map of the transports, in the order in which its values are gone through. -/
structure TransportMap where
  entries : List (TransportKey × TransportHandle) := []

/-- What happens to the map: a UDP socket is bound, a connection is made or accepted, and one is
    over.  A new entry takes the place `i` of the order. -/
inductive TransportMapEvent where
  | bound (addr : SocketAddr) (i : Nat)
  | connected (bindAddr : SocketAddr) (i : Nat)
  | upgraded (localAddr : SocketAddr) (i : Nat)
  | ended (transport : TransportHandle)

namespace TransportMap

/-- The transport with the key is taken out, whichever it is. -/
def removeTransport (key : TransportKey) (m : TransportMap) : TransportMap where
  entries := m.entries.filter fun entry => entry.1 ≠ key

/-- A transport is entered at a place of the table; what had its key before is lost. -/
def registerTransport (key : TransportKey) (value : TransportHandle) (i : Nat) (m : TransportMap) :
    TransportMap where
  entries := (m.removeTransport key).entries.insertIdx
    (min i (m.removeTransport key).entries.length) (key, value)

/-- A transport is entered under its own key. -/
def register (transport : TransportHandle) (i : Nat) (m : TransportMap) : TransportMap :=
  m.registerTransport (.ofTransport transport) transport i

/-- What the endpoint's tasks do to the table of transports. -/
def step (m : TransportMap) : TransportMapEvent → TransportMap
  | .bound addr i => m.register (.ofUdp addr) i
  | .connected bindAddr i => m.register (.ofTcp bindAddr) i
  | .upgraded localAddr i => m.register (.ofWs localAddr) i
  | .ended transport => m.removeTransport (.ofTransport transport)

/-- The transport of the key, or else any of an unreliable protocol that has an address of the same
    family. -/
def getTransport (key : TransportKey) (m : TransportMap) : Option TransportHandle :=
  match m.entries.find? fun entry => entry.1 = key with
  | some entry => some entry.2
  | none =>
    if key.protocol.isReliable then none
    else (m.entries.map Prod.snd).find? fun transport =>
      transport.protocol = key.protocol && transport.localAddr.sameFamily key.socketAddr

/-- `select_transport`.  What comes of opening a connection is the address at this end of it. -/
def selectTransport (connect : SocketAddr → TransportProtocol → Except Error SocketAddr)
    (socketAddr : SocketAddr) (protocol : TransportProtocol) (m : TransportMap) :
    Except Error TransportHandle :=
  match m.getTransport ⟨socketAddr, protocol⟩ with
  | some transport => .ok transport
  | none =>
    match protocol with
    | .tcp => (connect socketAddr protocol).map .ofTcp
    | .ws | .wss => (connect socketAddr protocol).map .ofWs
    | .udp | .tls | .sctp => .error .unsupportedTransport

end TransportMap

/-! ### Targets -/

/-- The transport for a scheme if the URI names none: also `sips` gets one that is not secure. -/
def TransportProtocol.fromScheme : Scheme → TransportProtocol
  | .sip => .udp
  | .sips => .tcp

/-- The protocol for the requests to a URI. -/
def Uri.protocol (uri : Uri) : TransportProtocol :=
  uri.transportParam.getD (.fromScheme uri.scheme)

/-- `resolve_uri`. -/
def Network.resolveUri (uri : Uri) (net : Network) : Except Error (List LookupAddress) :=
  let host := uri.maddrParam.getD uri.hostPort.host
  net.resolve ⟨⟨host, uri.hostPort.port⟩, some uri.protocol⟩

/-- The first address that there is a transport for. -/
def Network.firstSelected (addrs : List LookupAddress) (net : Network) :
    Option TargetTransportInfo :=
  addrs.findSome? fun addr =>
    match net.selectTransport addr.socketAddr addr.protocol with
    | .ok selected => some ⟨addr.socketAddr, selected⟩
    | .error _ => none

/-- `none` where `process_route_set` panics. -/
def Endpoint.createOutgoingRequest (net : Network) (request : Request)
    (target : Option (TransportHandle × SocketAddr)) : Option (Except Error OutgoingRequest) :=
  match target with
  | some (transport, socketAddr) => some (.ok ⟨request, ⟨socketAddr, transport⟩⟩)
  | none =>
    (processRouteSet request).map fun (newRequestUri, request) =>
      match net.resolveUri newRequestUri with
      | .error e => .error e
      | .ok addrs =>
        match net.firstSelected addrs with
        | some targetInfo => .ok ⟨request, targetInfo⟩
        | none =>
          .error (.transport ("No transport found for : " ++ newRequestUri.toText))

/-- The whole of `send`; `none` where it panics. -/
def ClientTransaction.sendWithTarget (net : Network) (request : Request)
    (target : Option (TransportHandle × SocketAddr)) (generated : String) (now : Nat) :
    Option (Except Error ClientTransaction) :=
  if request.reqLine.method = .ack then none
  else
    match Endpoint.createOutgoingRequest net request target with
    | none => none
    | some (.error e) => some (.error e)
    | some (.ok outgoing) => (send generated outgoing now).map .ok

namespace TransportMap

/-- The network of an endpoint with these transports. -/
def network (lookupHost : String → Except Error (List SocketAddr))
    (connect : SocketAddr → TransportProtocol → Except Error SocketAddr)
    (sendMsg : List Attempt → Attempt → Except Error Nat) (m : TransportMap) : Network where
  lookupHost := lookupHost
  selectTransport socketAddr protocol := m.selectTransport connect socketAddr protocol
  sendMsg := sendMsg

/-! ### The choice of a transport -/

/-- A transport of the crate. -/
def OfCrate (transport : TransportHandle) : Prop :=
  ∃ addr, transport = .ofUdp addr ∨ transport = .ofTcp addr ∨ transport = .ofWs addr

/-- Every transport is one of the crate, under its own key. -/
def Own (m : TransportMap) : Prop :=
  ∀ entry ∈ m.entries, entry.1 = .ofTransport entry.2 ∧ OfCrate entry.2

variable {m : TransportMap}

/-- To take a transport out leaves the others under their keys. -/
theorem Own.removeTransport (h : m.Own) (key : TransportKey) : (m.removeTransport key).Own :=
  fun entry hentry => h entry (List.mem_filter.mp hentry).1

/-- To enter a transport of the crate under its key keeps the others under theirs. -/
theorem Own.register (h : m.Own) {transport : TransportHandle} (htransport : OfCrate transport)
    (i : Nat) : (m.register transport i).Own := by
  intro entry hentry
  have hmem : entry = (.ofTransport transport, transport) ∨
      entry ∈ (m.removeTransport (.ofTransport transport)).entries :=
    (List.mem_insertIdx (Nat.min_le_right _ _)).mp hentry
  rcases hmem with rfl | hold
  · exact ⟨rfl, htransport⟩
  · exact h.removeTransport _ entry hold

/-- Whatever happens to the map, every transport is one of the crate, under its key. -/
theorem Own.step (h : m.Own) (e : TransportMapEvent) : (m.step e).Own := by
  cases e with
  | bound addr i => exact h.register ⟨addr, .inl rfl⟩ i
  | connected bindAddr i => exact h.register ⟨bindAddr, .inr (.inl rfl)⟩ i
  | upgraded localAddr i => exact h.register ⟨localAddr, .inr (.inr rfl)⟩ i
  | ended transport => exact h.removeTransport _

/-- The same after every history of the map. -/
theorem own_run (events : List TransportMapEvent) : (exec step {} events).Own := by
  have hstep : ∀ (m : TransportMap) e, m.Own → (m.step e).Own := fun _ e h => h.step e
  have hstart : Own {} := by simp [Own]
  exact exec_invariant hstep hstart events

end TransportMap

/-- The transport carries what is sent with the protocol to the address.  There is none for TLS and
    SCTP. -/
def TransportProtocol.Carries (protocol : TransportProtocol) (target : TargetTransportInfo) :
    Prop :=
  match protocol with
  | udp => ∃ addr, target.transport = .ofUdp addr ∧ addr.sameFamily target.socketAddr = true
  | tcp => ∃ addr, target.transport = .ofTcp addr
  | ws | wss => ∃ addr, target.transport = .ofWs addr
  | tls | sctp => False

/-- No protocol is carried by a secure transport. -/
theorem TransportProtocol.Carries.not_isSecure {protocol : TransportProtocol}
    {target : TargetTransportInfo} (h : protocol.Carries target) :
    target.transport.isSecure = false := by
  cases protocol with
  | udp =>
    obtain ⟨addr, htransport, -⟩ := h
    rw [htransport]
    rfl
  | tcp | ws | wss =>
    obtain ⟨addr, htransport⟩ := h
    rw [htransport]
    rfl
  | tls | sctp => cases h

namespace TransportMap

variable {m : TransportMap}

/-- **What is found for a key** has its protocol, and an address of the same family if there are
    no connections. -/
theorem Own.getTransport (h : m.Own) {key : TransportKey} {transport : TransportHandle}
    (hget : m.getTransport key = some transport) :
    OfCrate transport ∧ transport.protocol = key.protocol ∧ (key.protocol.isReliable = false →
      transport.localAddr.sameFamily key.socketAddr = true) := by
  unfold TransportMap.getTransport at hget
  split at hget
  · next entry hfind =>
    obtain rfl := Option.some.inj hget
    obtain ⟨hown, hcrate⟩ := h entry (List.mem_of_find?_eq_some hfind)
    have hkey : entry.1 = key := by simpa using List.find?_some hfind
    rw [← hkey, hown]
    exact ⟨hcrate, rfl, fun _ => SocketAddr.sameFamily_self _⟩
  · split at hget
    · cases hget
    · obtain ⟨entry, hmem, rfl⟩ := List.mem_map.mp (List.mem_of_find?_eq_some hget)
      obtain ⟨hprotocol, hfamily⟩ : entry.2.protocol = key.protocol ∧
          entry.2.localAddr.sameFamily key.socketAddr = true := by
        simpa using List.find?_some hget
      exact ⟨(h entry hmem).2, hprotocol, fun _ => hfamily⟩

/-- A transport of the crate carries its own protocol. -/
theorem carries_of_protocol {transport : TransportHandle} (h : OfCrate transport)
    {protocol : TransportProtocol} (hprotocol : transport.protocol = protocol)
    {socketAddr : SocketAddr} (hfamily : protocol.isReliable = false →
      transport.localAddr.sameFamily socketAddr = true) :
    protocol.Carries ⟨socketAddr, transport⟩ := by
  obtain ⟨addr, rfl | rfl | rfl⟩ := h
  · obtain rfl : TransportProtocol.udp = protocol := hprotocol
    exact ⟨addr, rfl, hfamily rfl⟩
  · obtain rfl : TransportProtocol.tcp = protocol := hprotocol
    exact ⟨addr, rfl⟩
  · obtain rfl : TransportProtocol.ws = protocol := hprotocol
    exact ⟨addr, rfl⟩

/-- **What is selected carries the protocol that was asked for.** -/
theorem Own.selectTransport (h : m.Own)
    {connect : SocketAddr → TransportProtocol → Except Error SocketAddr} {socketAddr : SocketAddr}
    {protocol : TransportProtocol} {transport : TransportHandle}
    (hselect : m.selectTransport connect socketAddr protocol = .ok transport) :
    protocol.Carries ⟨socketAddr, transport⟩ := by
  unfold TransportMap.selectTransport at hselect
  split at hselect
  · next found hget =>
    obtain rfl := Except.ok.inj hselect
    obtain ⟨hcrate, hprotocol, hfamily⟩ := h.getTransport hget
    exact carries_of_protocol hcrate hprotocol hfamily
  · -- a connection is opened
    cases protocol with
    | udp | tls | sctp => cases hselect
    | tcp | ws | wss =>
      simp only [] at hselect
      cases hconnect : connect socketAddr _ with
      | error e =>
        rw [hconnect] at hselect
        cases hselect
      | ok addr =>
        rw [hconnect] at hselect
        exact ⟨addr, (Except.ok.inj hselect).symm⟩

end TransportMap

/-! ### The next hop -/

/-- The target was found for the URI: it has an address that the URI leads to, and a transport for
    the protocol that the URI asks for. -/
structure ReachedBy (net : Network) (uri : Uri) (target : TargetTransportInfo) : Prop where
  address : net.resolveUri uri = .ok [⟨target.socketAddr, uri.protocol⟩]
  transport : uri.protocol.Carries target

/-- A URI leads to one address. -/
theorem resolveUri_singleton {net : Network} {uri : Uri} {addrs : List LookupAddress}
    (h : net.resolveUri uri = .ok addrs) :
    ∃ socketAddr, addrs = [⟨socketAddr, uri.protocol⟩] := by
  unfold Network.resolveUri Network.resolve at h
  simp only [Option.getD_some] at h
  split at h
  · split at h
    · next addr _ _ => exact ⟨addr, (Except.ok.inj h).symm⟩
    · cases h
    · cases h
  · exact ⟨_, (Except.ok.inj h).symm⟩

namespace Endpoint

/-- The URI of the first strict route, or the Request-URI. -/
def hop (request : Request) : Uri :=
  match request.headers.find? Header.isStrictRoute with
  | some (.route route) => route.nameAddr.uri
  | _ => request.reqLine.uri

/-- A request that has kept its start line, its body and its headers other than `Route` and
    `Via`. -/
structure Kept (request sent : Request) : Prop where
  reqLine : sent.reqLine = request.reqLine
  body : sent.body = request.body
  headers : sent.headers.filter (fun h => !h.isRoute && !h.isVia) =
    request.headers.filter fun h => !h.isRoute && !h.isVia

/-- What is kept twice is kept. -/
theorem Kept.trans {request sent sent' : Request} (h : Kept request sent) (h' : Kept sent sent') :
    Kept request sent' where
  reqLine := h'.reqLine.trans h.reqLine
  body := h'.body.trans h.body
  headers := h'.headers.trans h.headers

/-- Headers that are the same but for the routes are the same but for the routes and `Via`s. -/
theorem filter_of_routes {hs hs' : Headers}
    (h : hs.filter (fun h => !h.isRoute) = hs'.filter fun h => !h.isRoute) :
    hs.filter (fun h => !h.isRoute && !h.isVia) =
      hs'.filter fun h => !h.isRoute && !h.isVia := by
  have hand : ∀ hs : Headers, hs.filter (fun h => !h.isRoute && !h.isVia) =
      (hs.filter fun h => !h.isRoute).filter fun h => !h.isVia := by
    intro hs
    rw [List.filter_filter]
    refine List.filter_congr fun h _ => ?_
    rw [Bool.and_comm]
  rw [hand, hand, h]

/-- **What `process_route_set` returns** is the hop, and the request keeps all but its routes. -/
theorem processRouteSet_hop (request : Request) :
    ∃ sent, processRouteSet request = some (hop request, sent) ∧ Kept request sent := by
  rcases processRouteSet_cases request with
    ⟨hloose, hprocess⟩ | ⟨before, route, after, hheaders, hstrict, hbefore, hprocess⟩
  · have hnone : request.headers.find? Header.isStrictRoute = none :=
      List.find?_eq_none.mpr fun h hmem => by simp [hloose h hmem]
    have hhop : hop request = request.reqLine.uri := by rw [hop, hnone]
    rw [hhop]
    exact ⟨request, hprocess, rfl, rfl, rfl⟩
  · have hnone : before.find? Header.isStrictRoute = none :=
      List.find?_eq_none.mpr fun h hmem => by simp [hbefore h hmem]
    have hfind : request.headers.find? Header.isStrictRoute = some (.route route) := by
      rw [hheaders, List.find?_append, hnone, Option.none_or, List.find?_cons_of_pos]
      simp [Header.isStrictRoute, hstrict]
    have hhop : hop request = route.nameAddr.uri := by rw [hop, hfind]
    rw [hhop]
    refine ⟨_, hprocess, rfl, rfl, filter_of_routes ?_⟩
    -- only the routes change
    rw [Headers.filter_insertRoute, hheaders, List.filter_append, List.filter_append]
    rfl

/-- **Where a request without a fixed target goes.** -/
theorem createOutgoingRequest_ok {m : TransportMap} (hm : m.Own)
    {lookupHost : String → Except Error (List SocketAddr)}
    {connect : SocketAddr → TransportProtocol → Except Error SocketAddr}
    {sendMsg : List Attempt → Attempt → Except Error Nat} {request : Request}
    {outgoing : OutgoingRequest}
    (h : createOutgoingRequest (m.network lookupHost connect sendMsg) request none =
      some (.ok outgoing)) :
    ReachedBy (m.network lookupHost connect sendMsg) (hop request) outgoing.targetInfo ∧
      Kept request outgoing.request := by
  obtain ⟨sent, hprocess, hkept⟩ := processRouteSet_hop request
  unfold createOutgoingRequest at h
  simp only [hprocess, Option.map_some, Option.some.injEq] at h
  split at h
  · cases h
  · next addrs hresolve =>
    split at h
    · next target hfirst =>
      obtain rfl := Except.ok.inj h
      refine ⟨?_, hkept⟩
      obtain ⟨addr, hmem, hselected⟩ := List.exists_of_findSome?_eq_some hfirst
      obtain ⟨socketAddr, hone⟩ := resolveUri_singleton hresolve
      rw [hone, List.mem_singleton] at hmem
      subst hmem
      split at hselected
      · next transport hselect =>
        obtain rfl := Option.some.inj hselected
        exact ⟨by rw [hresolve, hone], hm.selectTransport hselect⟩
      · cases hselected
    · cases h

end Endpoint

/-! ### The transmissions of a transaction -/

namespace ClientTransaction

/-- The branch goes into a `Via`. -/
theorem filter_of_viaBranch {generated branch : String} {hs hs' : Headers}
    (h : Headers.viaBranch generated hs = some (branch, hs')) :
    hs'.filter (fun h => !h.isRoute && !h.isVia) =
      hs.filter fun h => !h.isRoute && !h.isVia := by
  induction hs generalizing branch hs' with
  | nil => cases h
  | cons header hs ih =>
    cases header with
    | via via =>
      rw [Headers.viaBranch] at h
      split at h <;>
      · obtain ⟨-, rfl⟩ := Prod.mk.inj (Option.some.inj h)
        simp [Header.isRoute, Header.intoRoute, Header.isVia]
    | _ =>
      obtain ⟨⟨branch', found⟩, hfound, heq⟩ := Option.map_eq_some_iff.mp h
      obtain ⟨-, rfl⟩ := Prod.mk.inj heq
      rw [List.filter_cons, List.filter_cons, ih hfound]

/-- A branch that is added keeps a request but for its `Via`. -/
theorem kept_withBranch (generated : String) (outgoing : OutgoingRequest) :
    Endpoint.Kept outgoing.request (outgoing.withBranch generated).2.request := by
  unfold OutgoingRequest.withBranch
  simp only []
  split
  · next hvia => exact ⟨rfl, rfl, filter_of_viaBranch hvia⟩
  · refine ⟨rfl, rfl, ?_⟩
    simp [Header.isVia]

/-- A branch that is added does not change where the request goes. -/
theorem targetInfo_withBranch (generated : String) (outgoing : OutgoingRequest) :
    (outgoing.withBranch generated).2.targetInfo = outgoing.targetInfo := by
  unfold OutgoingRequest.withBranch
  simp only []
  split <;> rfl

/-- An `ACK` goes to the target of the request, and has its Request-URI. -/
theorem Acks.target {c : ClientTransaction} {ack : OutgoingRequest} (h : c.Acks ack) :
    ack.targetInfo = c.request.targetInfo ∧
      ack.request.reqLine = ⟨.ack, c.request.request.reqLine.uri⟩ := by
  obtain ⟨-, response, -, hack⟩ := h
  unfold createAckRequest at hack
  split at hack
  · rw [← Option.some.inj hack]
    exact ⟨rfl, rfl⟩
  · cases hack

/-- **Where a transaction sends its request.** Whatever transports were opened and closed, and in
    every run of a transaction whose request has no fixed target: all that it sends goes to one
    target, which was found for the URI of the first strict route or else for the Request-URI.
    Its transport is not secure, not even for a `sips:` URI.  What is sent is the request, with all
    but its `Route` and `Via` headers as they were, or an `ACK` to the same Request-URI. -/
theorem run_target (events : List TransportMapEvent)
    (lookupHost : String → Except Error (List SocketAddr))
    (connect : SocketAddr → TransportProtocol → Except Error SocketAddr)
    (sendMsg : List Attempt → Attempt → Except Error Nat) {request : Request} {generated : String}
    {now : Nat} {c : ClientTransaction}
    (hsend : sendWithTarget
      ((exec TransportMap.step {} events).network lookupHost connect sendMsg) request none
      generated now = some (.ok c)) (es : List ClientEvent) :
    ∃ target, ReachedBy ((exec TransportMap.step {} events).network lookupHost connect sendMsg)
        (Endpoint.hop request) target ∧ target.transport.isSecure = false ∧
      ∀ o, .sent o ∈ (c.run es).trace → o.targetInfo = target ∧
        (Endpoint.Kept request o.request ∨
          o.request.reqLine = ⟨.ack, request.reqLine.uri⟩) := by
  unfold sendWithTarget at hsend
  split at hsend
  · cases hsend
  · split at hsend
    · cases hsend
    · cases hsend
    · next outgoing hcreate =>
      obtain ⟨c', hc', heq⟩ := Option.map_eq_some_iff.mp hsend
      obtain rfl := Except.ok.inj heq
      obtain ⟨hreached, hkept⟩ :=
        Endpoint.createOutgoingRequest_ok (TransportMap.own_run events) hcreate
      -- the request of the transaction is the one with the target, with a branch
      have hrequest : c'.request = (outgoing.withBranch generated).2 := by
        unfold send at hc'
        split at hc'
        · cases hc'
        · rw [← Option.some.inj hc']
          rfl
      have htarget : c'.request.targetInfo = outgoing.targetInfo := by
        rw [hrequest, targetInfo_withBranch]
      have hkept' : Endpoint.Kept request c'.request.request := by
        rw [hrequest]
        exact hkept.trans (kept_withBranch generated outgoing)
      have hstep : ∀ (c : ClientTransaction) e, c.Honest → (c.step e).Honest :=
        fun _ e h => h.step e
      have hhonest : (c'.run es).Honest := exec_invariant hstep (honest_send hc') es
      refine ⟨outgoing.targetInfo, hreached, hreached.transport.not_isSecure, fun o ho => ?_⟩
      rcases hhonest.trace _ ho with rfl | hacks
      · rw [request_run]
        exact ⟨htarget, .inl hkept'⟩
      · obtain ⟨hsame, hline⟩ := hacks.target
        rw [request_run] at hsame hline
        exact ⟨hsame.trans htarget, .inr (by rw [hline, hkept'.reqLine])⟩

/-- `INVITE sips:127.0.0.1`. -/
def sipsCall : Request where
  reqLine := ⟨.invite, { Uri.localhost with
    scheme := .sips
    hostPort := ⟨.ipAddr SocketAddr.localhost.ip, none⟩ }⟩

/-- An endpoint with a UDP socket, which can open connections. -/
def onUdp : Network :=
  (exec TransportMap.step {} [.bound .localhost 0]).network (fun _ => .ok [])
    (fun _ _ => .ok .localhost) fun _ _ => .ok 0

/-- The call goes over plain TCP. -/
theorem run_target_sips : ∃ c, sendWithTarget onUdp sipsCall none "" 0 = some (.ok c) ∧
    ∃ target, ReachedBy onUdp (Endpoint.hop sipsCall) target ∧ target.transport.isSecure = false ∧
      ∀ o, .sent o ∈ (c.run [.receiveFinalResponse, .poll]).trace → o.targetInfo = target ∧
        (Endpoint.Kept sipsCall o.request ∨
          o.request.reqLine = ⟨.ack, sipsCall.reqLine.uri⟩) :=
  ⟨_, rfl, run_target [.bound .localhost 0] (fun _ => .ok []) (fun _ _ => .ok .localhost)
    (fun _ _ => .ok 0) rfl [.receiveFinalResponse, .poll]⟩

/-- There is no transport for TLS. -/
example : Endpoint.createOutgoingRequest onUdp
      { reqLine := ⟨.invite, { sipsCall.reqLine.uri with transportParam := some .tls }⟩ } none =
    some (.error (.transport "No transport found for : sips:127.0.0.1;transport=tls")) := by
  rfl

end ClientTransaction

end Rssip
