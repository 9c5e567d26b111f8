import Rssip.Endpoint.CreateResponse
import Rssip.Endpoint.RouteSet

namespace Rssip

open Lib

/-!
# The `ACK` for a response other than a 2xx

What a client transaction sends for a final response that is no success, next to what it is to
send.

* `AckShape` — what the `ACK` is to take from the `INVITE` and from the response;
* `createAckRequest_received` — what it does take: everything from the response;
* `createAckRequest_echo` — which parts are right if the response repeats the request's headers;
* `not_ackShape` — all of them never are.
-/

/-- What is found in a list of headers: the topmost `Via`, and the others a message has once. -/
def Headers.found (hs : Headers) : FoundHeaders := hs.foldl FoundHeaders.add {}

/-- The shape of the `ACK` for a final response other than a 2xx. -/
structure AckShape (invite : OutgoingRequest) (response : IncomingResponse)
    (ack : OutgoingRequest) : Prop where
  reqLine : ack.request.reqLine = ⟨.ack, invite.request.reqLine.uri⟩
  via : ∃ via, invite.request.headers.found.via = some via ∧
    ack.request.headers.filter Header.isVia = [.via via]
  fromHdr : ack.request.headers.found.fromHdr = invite.request.headers.found.fromHdr
  toHdr : ack.request.headers.found.toHdr = some response.incomingInfo.mandatoryHeaders.toHdr
  callId : ack.request.headers.found.callId = invite.request.headers.found.callId
  cseq : ∃ cseq, invite.request.headers.found.cseq = some cseq ∧
    ack.request.headers.found.cseq = some ⟨cseq.cseq, .ack⟩
  routes : ack.request.headers.routes = invite.request.headers.routes
  maxForwards : ∃ h, .maxForwards h ∈ ack.request.headers

namespace ClientTransaction

/-- The headers of an `ACK` are those of the response, whatever the `INVITE` was. -/
theorem createAckRequest_eq {invite ack : OutgoingRequest} {response : IncomingResponse}
    (h : createAckRequest invite response = some ack) :
    let mandatoryHeaders := response.incomingInfo.mandatoryHeaders
    ack.request = { reqLine := ⟨.ack, invite.request.reqLine.uri⟩
                    headers := [.via mandatoryHeaders.via, .fromHdr mandatoryHeaders.fromHdr,
                      .toHdr mandatoryHeaders.toHdr, .callId mandatoryHeaders.callId,
                      .cSeq ⟨mandatoryHeaders.cseq.cseq, .ack⟩] } := by
  unfold createAckRequest at h
  split at h
  · rw [← Option.some.inj h]
    rfl
  · cases h

/-- **The `ACK` for a received response** has the `Via` as it came in, with the address of the
    sender. -/
theorem createAckRequest_received {invite ack : OutgoingRequest} {response : IncomingResponse}
    (hreceived : response.Received) (h : createAckRequest invite response = some ack) :
    ∃ mandatoryHeaders,
      MandatoryHeaders.tryFrom response.response.headers = .ok mandatoryHeaders ∧
        ack.request.headers = [.via { mandatoryHeaders.via with
              received := some response.incomingInfo.transportMsg.packet.source.ip },
            .fromHdr mandatoryHeaders.fromHdr, .toHdr mandatoryHeaders.toHdr,
            .callId mandatoryHeaders.callId, .cSeq ⟨mandatoryHeaders.cseq.cseq, .ack⟩] := by
  obtain ⟨mandatoryHeaders, htryFrom, hinfo⟩ := hreceived
  refine ⟨mandatoryHeaders, htryFrom, ?_⟩
  rw [createAckRequest_eq h, hinfo]
  rfl

theorem tryFrom_found {hs : Headers} {mandatoryHeaders : MandatoryHeaders}
    (h : MandatoryHeaders.tryFrom hs = .ok mandatoryHeaders) :
    hs.found = { via := some mandatoryHeaders.via
                 fromHdr := some mandatoryHeaders.fromHdr
                 toHdr := some mandatoryHeaders.toHdr
                 callId := some mandatoryHeaders.callId
                 cseq := some mandatoryHeaders.cseq } := by
  obtain ⟨via, hvia, h⟩ := except_bind_eq_ok_iff.mp h
  obtain ⟨fromHdr, hfrom, h⟩ := except_bind_eq_ok_iff.mp h
  obtain ⟨toHdr, hto, h⟩ := except_bind_eq_ok_iff.mp h
  obtain ⟨callId, hcallId, h⟩ := except_bind_eq_ok_iff.mp h
  obtain ⟨cseq, hcseq, h⟩ := except_bind_eq_ok_iff.mp h
  injection h with h
  rw [required_eq_ok_iff] at hvia hfrom hto hcallId hcseq
  rw [← h, Headers.found, FoundHeaders.mk.injEq]
  exact ⟨hvia, hfrom, hto, hcallId, hcseq⟩

/-- **The `ACK` for a response that repeats the headers of the `INVITE`.** The Request-URI, the
    `From`, the `To`, the `Call-ID` and the `CSeq` are right.  The `Via` is right only if the
    `INVITE` named the sender of the response in it, the routes only if there were none, and
    `Max-Forwards` is missing. -/
theorem createAckRequest_echo {invite ack : OutgoingRequest} {response : IncomingResponse}
    {sent : MandatoryHeaders} (hsent : MandatoryHeaders.tryFrom invite.request.headers = .ok sent)
    {toHdr : To} (hecho : MandatoryHeaders.tryFrom response.response.headers =
      .ok { sent with toHdr := toHdr })
    (hreceived : response.Received) (h : createAckRequest invite response = some ack) :
    ack.request.reqLine = ⟨.ack, invite.request.reqLine.uri⟩ ∧
      ack.request.headers.found.fromHdr = invite.request.headers.found.fromHdr ∧
      ack.request.headers.found.toHdr = some toHdr ∧
      ack.request.headers.found.callId = invite.request.headers.found.callId ∧
      ack.request.headers.found.cseq = some ⟨sent.cseq.cseq, .ack⟩ ∧
      (ack.request.headers.filter Header.isVia = [.via sent.via] ↔
        sent.via.received = some response.incomingInfo.transportMsg.packet.source.ip) ∧
      (ack.request.headers.routes = invite.request.headers.routes ↔
        invite.request.headers.routes = []) ∧
      ∀ h, .maxForwards h ∉ ack.request.headers := by
  have hreqLine := congrArg Request.reqLine (createAckRequest_eq h)
  obtain ⟨mandatoryHeaders, htryFrom, hheaders⟩ := createAckRequest_received hreceived h
  rw [hecho, Except.ok.injEq] at htryFrom
  rw [← htryFrom] at hheaders
  rw [tryFrom_found hsent, hheaders]
  refine ⟨hreqLine, rfl, rfl, rfl, rfl, ?_, ?_, by simp⟩
  · -- the address of the sender is the one field of the `Via` that was set
    show [Header.via _] = [.via sent.via] ↔ _
    rw [List.singleton_inj, Header.via.injEq]
    constructor
    · intro hvia
      exact (congrArg Via.received hvia).symm
    · intro hreceived
      rw [← hreceived]
  · -- no `Route` is copied
    show ([] : List Route) = _ ↔ _
    exact eq_comm

/-- **The `ACK` never has the shape it is to have**: it lacks `Max-Forwards`. -/
theorem not_ackShape (invite : OutgoingRequest) (response : IncomingResponse) :
    ¬ ∃ ack, createAckRequest invite response = some ack ∧ AckShape invite response ack := by
  rintro ⟨ack, hack, hshape⟩
  obtain ⟨h, hmem⟩ := hshape.maxForwards
  rw [createAckRequest_eq hack] at hmem
  simp at hmem

/-- An `INVITE` with the headers of every request, and one hop left to go. -/
def inviteToLocalhost : OutgoingRequest where
  request := { reqLine := ⟨.invite, Uri.localhost⟩
               headers := (IncomingInfo.localhost .invite none false).mandatoryHeaders.intoHeaders ++
                 [.maxForwards ⟨70⟩] }
  targetInfo := ⟨SocketAddr.localhost, TransportHandle.localhost false⟩

/-- The same `INVITE` as it is received. -/
def inviteFromLocalhost : IncomingRequest :=
  ⟨inviteToLocalhost.request,
    .ofMessage (IncomingInfo.localhost .invite none false).mandatoryHeaders (.fromLocalhost [])⟩

/-- Its callee is busy. -/
def busyFromLocalhost : IncomingResponse where
  response := Endpoint.createResponse inviteFromLocalhost .busyHere none
  incomingInfo :=
    let mandatoryHeaders := inviteFromLocalhost.incomingInfo.mandatoryHeaders
    .ofMessage { mandatoryHeaders with
        toHdr := mandatoryHeaders.toHdr.forResponse .busyHere mandatoryHeaders.via.branch }
      (.fromLocalhost [])

/-- A busy callee is acknowledged without the `Max-Forwards` of the request. -/
theorem not_forall_ackShape :
    ¬ ∀ generated outgoing now c, send generated outgoing now = some c → c.isInvite = true →
      ∀ response : IncomingResponse, response.Received →
        TransactionKey.fromResponse response = some c.key →
          300 ≤ response.code.asU16 → response.code.asU16 ≤ 699 →
            ∃ ack, createAckRequest c.request response = some ack ∧
              AckShape c.request response ack := by
  intro hall
  have hreceived : busyFromLocalhost.Received :=
    ⟨_, tryFrom_createResponse inviteFromLocalhost .busyHere none, rfl⟩
  obtain ⟨ack, hack, hshape⟩ := hall "" inviteToLocalhost 0 _ rfl rfl busyFromLocalhost hreceived
    (by decide) (by decide) (by decide)
  obtain ⟨h, hmem⟩ := hshape.maxForwards
  cases hack
  simp [MandatoryHeaders.intoHeaders] at hmem

end ClientTransaction

end Rssip
