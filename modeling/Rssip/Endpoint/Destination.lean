import Rssip.Endpoint.SendResponse

namespace Rssip

open Lib

/-!
# Where the response to a packet goes

The sender of a request writes its `Via`, and with it most of what the destination of the response
is made of.  What it cannot write is the address that the packet came from.

* `TransportLayer.incomingRequest` — the request that a packet is, if it is one;
* `getResponseDestination_of_received` — the destination, once `received` is known;
* `getResponseDestination_source` — without a `maddr`, the response goes back to the source of
  the packet, whatever else the `Via` says.
-/

/-- The first `Via`. -/
def Headers.topmostVia (hs : Headers) : Option Via :=
  hs.findSome? fun h => match h with | .via v => some v | _ => none

namespace TransportLayer

/-- The request that `process_message` gives to the endpoint, if the packet is one. -/
def incomingRequest (message : TransportMessage) : Option IncomingRequest :=
  match SipParser.parse message.packet.data with
  | .error _ => none
  | .ok (.response _) => none
  | .ok (.request request) =>
    match MandatoryHeaders.tryFrom request.headers with
    | .error _ => none
    | .ok mandatoryHeaders => some ⟨request, .ofMessage mandatoryHeaders message⟩

theorem incomingRequest_eq_some_iff {message : TransportMessage} {r : IncomingRequest} :
    incomingRequest message = some r ↔ ∃ mandatoryHeaders,
      SipParser.parse message.packet.data = .ok (.request r.request) ∧
        MandatoryHeaders.tryFrom r.request.headers = .ok mandatoryHeaders ∧
          r.incomingInfo = .ofMessage mandatoryHeaders message := by
  unfold incomingRequest
  constructor
  · intro h
    split at h
    · cases h
    · cases h
    · next request hparse =>
      split at h
      · cases h
      · next mandatoryHeaders hheaders =>
        obtain rfl := Option.some.inj h
        exact ⟨mandatoryHeaders, hparse, hheaders, rfl⟩
  · rintro ⟨mandatoryHeaders, hparse, hheaders, hinfo⟩
    rw [hparse]
    simp only [hheaders]
    rw [← hinfo]

/-- The `Via` of a request is its topmost one, with the address the packet came from. -/
theorem via_incomingRequest {message : TransportMessage} {r : IncomingRequest} {via : Via}
    (h : incomingRequest message = some r) (hvia : r.request.headers.topmostVia = some via) :
    r.incomingInfo.mandatoryHeaders.via =
      { via with received := some message.packet.source.ip } := by
  obtain ⟨mandatoryHeaders, -, hheaders, hinfo⟩ := incomingRequest_eq_some_iff.mp h
  have hfound := tryFrom_via hheaders
  rw [foldl_add_via, Option.none_or] at hfound
  have htop : some via = some mandatoryHeaders.via := hvia.symm.trans hfound
  rw [hinfo, Option.some.inj htop]
  rfl

end TransportLayer

namespace Endpoint

open TransportLayer

/-- **The destination of a response**, when the address of the sender is known and there is no
    `maddr`: the packet's source for a reliable transport in the `Via`, and otherwise its address
    with the port of the `Via`. -/
theorem getResponseDestination_of_received {r : IncomingRequest} {ip : IpAddr}
    (hreceived : r.incomingInfo.mandatoryHeaders.via.received = some ip)
    (hmaddr : r.incomingInfo.mandatoryHeaders.via.maddr = none) :
    getResponseDestination r =
      let via := r.incomingInfo.mandatoryHeaders.via
      let transport := r.incomingInfo.transportMsg.transport
      let defaultPort := if via.transport.isReliable then transport.protocol.defaultPort else 5060
      let port := via.sentBy.port.getD defaultPort
      { hostPort := (⟨.ipAddr ip, some port⟩, transport.protocol)
        transport := some
          ⟨if via.transport.isReliable then r.incomingInfo.transportMsg.packet.source
            else ⟨ip, port⟩, transport⟩ } := by
  unfold getResponseDestination
  simp only [hreceived, hmaddr]
  cases r.incomingInfo.mandatoryHeaders.via.transport.isReliable with
  | true => rfl
  | false => rfl

/-- Every address of the destination is that of the packet's source, and the direct one is reached
    over the transport that the packet came over. -/
structure GoesBack (message : TransportMessage) (destInfo : OutgoingDestInfo) : Prop where
  host : destInfo.hostPort.1.host = .ipAddr message.packet.source.ip
  target : ∃ target, destInfo.transport = some target ∧
    target.socketAddr.ip = message.packet.source.ip ∧ target.transport = message.transport

/-- The two packets came from one source over one transport, with topmost `Via` headers that are
    the same but for `received`. -/
structure SameButReceived (message message' : TransportMessage) (via via' : Via) : Prop where
  source : message'.packet.source = message.packet.source
  transport : message'.transport = message.transport
  via : { via' with received := none } = { via with received := none }

/-- **A response goes back to where its request came from.** For every packet that is a request
    whose topmost `Via` has no `maddr`, whatever else is in it; and what it says of `received`
    makes no difference. -/
theorem getResponseDestination_source {message : TransportMessage} {r : IncomingRequest} {via : Via}
    (h : incomingRequest message = some r) (hvia : r.request.headers.topmostVia = some via)
    (hmaddr : via.maddr = none) :
    GoesBack message (getResponseDestination r) ∧
      ∀ message' r' via', incomingRequest message' = some r' →
        r'.request.headers.topmostVia = some via' → SameButReceived message message' via via' →
          getResponseDestination r' = getResponseDestination r := by
  have htop := via_incomingRequest h hvia
  have hmessage : r.incomingInfo.transportMsg = message := by
    obtain ⟨_, -, -, hinfo⟩ := incomingRequest_eq_some_iff.mp h
    rw [hinfo]
    rfl
  have hdest := getResponseDestination_of_received (r := r) (by rw [htop]) (by rw [htop]; exact hmaddr)
  constructor
  · rw [hdest, hmessage]
    refine ⟨rfl, _, rfl, ?_, rfl⟩
    -- the source itself, or its address with a port of the `Via`
    split
    · rfl
    · rfl
  · intro message' r' via' h' hvia' hsame
    have htop' := via_incomingRequest h' hvia'
    have hmessage' : r'.incomingInfo.transportMsg = message' := by
      obtain ⟨_, -, -, hinfo⟩ := incomingRequest_eq_some_iff.mp h'
      rw [hinfo]
      rfl
    have hover : r'.incomingInfo.mandatoryHeaders.via = r.incomingInfo.mandatoryHeaders.via := by
      have hvias := congrArg (fun v : Via => { v with received := some message.packet.source.ip })
        hsame.via
      rw [htop', htop, hsame.source]
      exact hvias
    have hdest' := getResponseDestination_of_received (r := r') (by rw [hover, htop])
      (by rw [hover, htop]; exact hmaddr)
    rw [hdest', hdest, hover, hmessage', hmessage, hsame.transport, hsame.source]

/-- A request from `localhost` that says it was received from elsewhere. -/
def optionsFrom (received : String) : TransportMessage :=
  .fromLocalhost (asBytes ("OPTIONS sip:localhost SIP/2.0\r\nVia: SIP/2.0/TCP a;received=" ++
    received ++ ";branch=z9hG4bK1\r\nFrom: sip:b\r\nTo: sip:c\r\nCall-ID: 1\r\n" ++
    "CSeq: 1 OPTIONS\r\n\r\n"))

/-- What the endpoint makes of it. -/
def optionsFromRequest (received : IpAddr) : IncomingRequest :=
  let headers := optionsOkHeaders (some "z9hG4bK1")
  let headers := { headers with
    via := { headers.via with transport := .tcp, received := some received } }
  { request :=
      { reqLine :=
          { method := .options
            uri := { scheme := .sip, user := none, hostPort := ⟨.hostName "localhost", none⟩ } }
        headers := headers.intoHeaders }
    incomingInfo := .ofMessage headers (optionsFrom received.toText) }

/-- An address from the block that is kept for documentation. -/
def documentation (n : UInt8) : IpAddr := .v4 ⟨192, 0, 2, n⟩

theorem getResponseDestination_source_options :
    GoesBack (optionsFrom "192.0.2.1")
        (getResponseDestination (optionsFromRequest (documentation 1))) ∧
      getResponseDestination (optionsFromRequest (documentation 2)) =
        getResponseDestination (optionsFromRequest (documentation 1)) := by
  have hfirst : incomingRequest (optionsFrom "192.0.2.1") =
      some (optionsFromRequest (documentation 1)) := by decide +kernel
  have hsecond : incomingRequest (optionsFrom "192.0.2.2") =
      some (optionsFromRequest (documentation 2)) := by decide +kernel
  obtain ⟨hback, hsame⟩ := getResponseDestination_source hfirst rfl rfl
  exact ⟨hback, hsame _ _ _ hsecond rfl ⟨rfl, rfl, rfl⟩⟩

end Endpoint

end Rssip
