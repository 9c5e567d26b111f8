import Rssip.Message.Headers

namespace Rssip

open Lib

/-!
# Messages

Requests and responses, and the first line of each.
-/

/-- The first line of a request; the version is not kept. -/
structure RequestLine where
  method : SipMethod
  uri : Uri
deriving DecidableEq

/-- The first line of a response; the version is not kept. -/
structure StatusLine where
  code : StatusCode
  reason : String
deriving DecidableEq

/-- A request. -/
structure Request where
  reqLine : RequestLine
  headers : Headers := []
  body : Option Bytes := none
deriving DecidableEq

/-- A response. -/
structure Response where
  statusLine : StatusLine
  headers : Headers := []
  body : Option Bytes := none
deriving DecidableEq

/-- A message. -/
inductive SipMessage where
  | request (r : Request)
  | response (r : Response)
deriving DecidableEq

namespace SipMessage

/-- The headers of a message, in order. -/
def headers : SipMessage → Headers
  | request r => r.headers
  | response r => r.headers

/-- The headers of a message take the place of those it had. -/
def setHeaders (hs : Headers) : SipMessage → SipMessage
  | request r => request { r with headers := hs }
  | response r => response { r with headers := hs }

/-- The body of a message; one that is empty is not the same as none. -/
def body : SipMessage → Option Bytes
  | request r => r.body
  | response r => r.body

/-- The body of a message takes the place of the one it had. -/
def setBody (b : Option Bytes) : SipMessage → SipMessage
  | request r => request { r with body := b }
  | response r => response { r with body := b }

end SipMessage

/-- The start line of a request. -/
def RequestLine.line (l : RequestLine) : String :=
  l.method.asStr ++ " " ++ l.uri.toText ++ " SIP/2.0"

/-- The start line of a response. -/
def StatusLine.line (l : StatusLine) : String :=
  "SIP/2.0 " ++ decimal l.code.asU16 ++ " " ++ l.reason

/-- The first line of a request as it is printed. -/
def RequestLine.toText (l : RequestLine) : String := l.line ++ "\r\n"

/-- The first line of a response as it is printed. -/
def StatusLine.toText (l : StatusLine) : String := l.line ++ "\r\n"

/-- The start line of a message. -/
def SipMessage.startLine : SipMessage → String
  | request r => r.reqLine.line
  | response r => r.statusLine.line

end Rssip
