import Rssip.Error
import Rssip.Message.Message

namespace Rssip

open Lib

/-!
# Transports and received messages

What the upper layers see of a transport and of a message that came in over one.

* `TransportHandle` — the answers a transport gives about itself;
* `MandatoryHeaders` — the headers taken out of every received message;
* `IncomingRequest`, `IncomingResponse`, `IncomingMessage`.
-/

/-- An IP address with a port. -/
structure SocketAddr where
  ip : IpAddr
  port : UInt16
deriving DecidableEq

/-- A transport, by what its methods return. -/
structure TransportHandle where
  protocol : TransportProtocol
  localAddr : SocketAddr
  isReliable : Bool
  isSecure : Bool
deriving DecidableEq

/-- A received packet. -/
structure Packet where
  data : Bytes
  source : SocketAddr
deriving DecidableEq

/-- A packet and the transport it came over. -/
structure TransportMessage where
  transport : TransportHandle
  packet : Packet
deriving DecidableEq

/-- Where a message is sent, and over what. -/
structure TargetTransportInfo where
  socketAddr : SocketAddr
  transport : TransportHandle
deriving DecidableEq

/-! ### Received messages -/

/-- The headers every message must have. -/
structure MandatoryHeaders where
  via : Via
  fromHdr : From
  toHdr : To
  callId : CallId
  cseq : CSeq
deriving DecidableEq

/-- The headers found so far by the scan of `MandatoryHeaders.tryFrom`. -/
structure FoundHeaders where
  via : Option Via := none
  fromHdr : Option From := none
  toHdr : Option To := none
  callId : Option CallId := none
  cseq : Option CSeq := none
deriving DecidableEq

/-- The first `Via` counts, and the last of the others. -/
def FoundHeaders.add (found : FoundHeaders) : Header → FoundHeaders
  | .via v => if found.via.isNone then { found with via := some v } else found
  | .fromHdr f => { found with fromHdr := some f }
  | .toHdr t => { found with toHdr := some t }
  | .callId c => { found with callId := some c }
  | .cSeq c => { found with cseq := some c }
  | _ => found

namespace MandatoryHeaders

/-- A header that has to be there, or an error with its name. -/
def required {α : Type} (header : Option α) (name : String) : Except Error α :=
  match header with
  | some h => .ok h
  | none => .error (.missingHeader name)

/-- The mandatory headers, or an error for the first one that is missing. -/
def tryFrom (headers : Headers) : Except Error MandatoryHeaders := do
  let found := headers.foldl FoundHeaders.add {}
  let via ← required found.via Via.name
  let fromHdr ← required found.fromHdr From.name
  let toHdr ← required found.toHdr To.name
  let callId ← required found.callId CallId.name
  let cseq ← required found.cseq CSeq.name
  return ⟨via, fromHdr, toHdr, callId, cseq⟩

/-- The mandatory headers as a list, in the order in which they are printed. -/
def intoHeaders (h : MandatoryHeaders) : Headers :=
  [.via h.via, .fromHdr h.fromHdr, .toHdr h.toHdr, .callId h.callId, .cSeq h.cseq]

end MandatoryHeaders

/-- What is kept of a message that came in: its mandatory headers, and its packet. -/
structure IncomingInfo where
  mandatoryHeaders : MandatoryHeaders
  transportMsg : TransportMessage
deriving DecidableEq

/-- A request that came in. -/
structure IncomingRequest where
  request : Request
  incomingInfo : IncomingInfo
deriving DecidableEq

/-- A response that came in. -/
structure IncomingResponse where
  response : Response
  incomingInfo : IncomingInfo
deriving DecidableEq

/-- A message that came in. -/
inductive IncomingMessage where
  | request (r : IncomingRequest)
  | response (r : IncomingResponse)
deriving DecidableEq

/-- The status code of a received response. -/
def IncomingResponse.code (r : IncomingResponse) : StatusCode := r.response.statusLine.code

/-- The method of a received request. -/
def IncomingRequest.method (r : IncomingRequest) : SipMethod := r.request.reqLine.method

end Rssip
