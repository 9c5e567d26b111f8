import Rssip.Transport.Transport

namespace Rssip

open Lib

/-!
# Encoding messages

What is put on the wire for a message: its start line, its headers, a `Content-Length`
header with the length of the body, an empty line and the body.

* `OutgoingRequest`, `OutgoingResponse` — messages on their way out;
* `encode` — `none` where the printer of a header panics;
* `encode_eq_some_iff` — the layout in one equation.
-/

/-- A request and where it goes. -/
structure OutgoingRequest where
  request : Request
  targetInfo : TargetTransportInfo
deriving DecidableEq

/-- Where a response goes: a direct target, or a host to resolve. -/
structure OutgoingDestInfo where
  hostPort : HostPort × TransportProtocol
  transport : Option TargetTransportInfo
deriving DecidableEq

/-- A response and where it goes. -/
structure OutgoingResponse where
  response : Response
  destInfo : OutgoingDestInfo
deriving DecidableEq

/-- The `Content-Length` line, the empty line and the body. -/
def writeBody : Option Bytes → Bytes
  | some body =>
    asBytes (ContentLength.name ++ ": " ++ decimal body.length ++ "\r\n") ++
      asBytes "\r\n" ++ body
  | none => asBytes (ContentLength.name ++ ": 0\r\n") ++ asBytes "\r\n"

/-- A message as it is put on the wire. -/
def encode : SipMessage → Option Bytes
  | .request r => do
    let headers ← Headers.toText r.headers
    return asBytes r.reqLine.toText ++ asBytes headers ++ writeBody r.body
  | .response r => do
    let headers ← Headers.toText r.headers
    return asBytes r.statusLine.toText ++ asBytes headers ++ writeBody r.body

/-- The bytes that are sent for a request, with the `Content-Length` added. -/
def OutgoingRequest.encode (o : OutgoingRequest) : Option Bytes :=
  Rssip.encode (.request o.request)

/-- The bytes that are sent for a response, with the `Content-Length` added. -/
def OutgoingResponse.encode (o : OutgoingResponse) : Option Bytes :=
  Rssip.encode (.response o.response)

/-- **The layout of an encoded message.** -/
theorem encode_eq_some_iff {m : SipMessage} {bs : Bytes} :
    encode m = some bs ↔
      ∃ headers, Headers.toText m.headers = some headers ∧
        bs = asBytes (m.startLine ++ "\r\n") ++ asBytes headers ++ writeBody m.body := by
  cases m <;>
  · simp only [encode, SipMessage.startLine, RequestLine.toText, StatusLine.toText,
      SipMessage.headers, SipMessage.body, Option.bind_eq_bind, Option.bind_eq_some_iff,
      Option.pure_def, Option.some.injEq]
    exact exists_congr fun headers => and_congr_right fun _ => eq_comm

/-- The body is written with its length, an absent one as an empty one. -/
theorem writeBody_eq (body : Option Bytes) :
    writeBody body =
      asBytes (ContentLength.name ++ ": " ++ decimal (body.getD []).length ++ "\r\n") ++
        asBytes "\r\n" ++ body.getD [] := by
  cases body with
  | some body => rfl
  | none =>
    rw [writeBody, Option.getD_none, List.append_nil,
      show ContentLength.name ++ ": 0\r\n" =
        ContentLength.name ++ ": " ++ decimal ([] : Bytes).length ++ "\r\n" by decide]

/-! ### Messages to run with -/

/-- `sip:localhost`. -/
def Uri.localhost : Uri :=
  { scheme := .sip, user := none, hostPort := ⟨.hostName "localhost", none⟩ }

/-- `127.0.0.1:5060`. -/
def SocketAddr.localhost : SocketAddr := ⟨.v4 ⟨127, 0, 0, 1⟩, 5060⟩

/-- A transport of `localhost`, by TCP or by UDP. -/
def TransportHandle.localhost (isReliable : Bool) : TransportHandle :=
  { protocol := if isReliable then .tcp else .udp
    localAddr := SocketAddr.localhost
    isReliable := isReliable
    isSecure := false }

/-- What is known of a message from `localhost`. -/
def IncomingInfo.localhost (method : SipMethod) (toTag : Option String) (isReliable : Bool) :
    IncomingInfo where
  mandatoryHeaders :=
    { via := { (default : Via) with branch := some "z9hG4bK1" }
      fromHdr := ⟨.uri Uri.localhost, some "from", {}⟩
      toHdr := ⟨.uri Uri.localhost, toTag, {}⟩
      callId := ⟨"1"⟩
      cseq := ⟨1, method⟩ }
  transportMsg := ⟨TransportHandle.localhost isReliable, ⟨[], SocketAddr.localhost⟩⟩

/-- A request without headers to `localhost`. -/
def OutgoingRequest.toLocalhost (method : SipMethod) (isReliable : Bool) : OutgoingRequest where
  request := { reqLine := ⟨method, Uri.localhost⟩ }
  targetInfo := ⟨SocketAddr.localhost, TransportHandle.localhost isReliable⟩

/-- A request from `localhost` with its mandatory headers. -/
def IncomingRequest.fromLocalhost (method : SipMethod) (toTag : Option String)
    (isReliable : Bool) : IncomingRequest where
  request := { reqLine := ⟨method, Uri.localhost⟩ }
  incomingInfo := IncomingInfo.localhost method toTag isReliable

/-- A response to an `INVITE`. -/
def IncomingResponse.ofCode (code : StatusCode) : IncomingResponse where
  response := { statusLine := ⟨code, ""⟩ }
  incomingInfo := IncomingInfo.localhost .invite none false

/-- A response without headers to `localhost`. -/
def OutgoingResponse.ofCode (code : StatusCode) : OutgoingResponse where
  response := { statusLine := ⟨code, ""⟩ }
  destInfo := ⟨(⟨.hostName "localhost", none⟩, .udp), none⟩

end Rssip
