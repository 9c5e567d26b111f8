import Rssip.Message.Message
import Rssip.Parser.Headers

namespace Rssip

open Lib

/-!
# The SIP parser: messages

A start line, header lines, and a body if one of them is a `Content-Type`.

* `headerParsers` — which names are parsed into which header; `parseHeaderValue` takes every
  other name for that of a `RawHeader`;
* `parseHeaders` — the loop over the header lines;
* `SipParser.parse` — the parser of the crate.
-/

namespace SipParser

/-! ### Start lines -/

/-- Three digits that make up a code, with blanks around them; other numbers are errors. -/
def parseStatusCode : Parse StatusCode := do
  skipWs
  let digits ← consumeWhile isAsciiDigit
  skipWs
  ofOption .statusCode (StatusCode.tryFrom digits)

/-- The rest of the status line, which may be empty. -/
def parseReasonPhrase : Parse String := readLine

/-- The first line of a response, with all line ends that come behind it. -/
def parseStatusLine : Parse StatusLine := do
  parseSipVersion
  let code ← parseStatusCode
  let reason ← parseReasonPhrase
  skipNewline
  return ⟨code, reason⟩

/-- The first line of a request, with all line ends that come behind it.  A method that is not known
    is taken. -/
def parseRequestLine : Parse RequestLine := do
  let token ← consumeWhile isToken
  let method := SipMethod.fromBytes token
  skipWs
  let uri ← parseUri true
  skipWs
  parseSipVersion
  skipNewline
  return ⟨method, uri⟩

/-! ### Headers -/

/-- The name of a header and the colon, with the blanks around it. -/
def headerName : Parse String := do
  let headerName ← readToken
  skipWs
  mustRead 58
  skipWs
  return headerName

/-- The value of a line is one header. -/
def one {α : Type} (toHeader : α → Header) (parse : Parse α) : Parse Headers := do
  return [toHeader (← parse)]

/-- The value of a line is as many headers as commas separate. -/
def many {α : Type} (toHeader : α → Header) (parse : Parse α) : Parse Headers := do
  return (← collectSep 44 parse).map toHeader

/-- The names with a header type of their own, and how the line behind them is read. -/
def headerParsers : List (List String × Parse Headers) :=
  [([ErrorInfo.name], one .errorInfo ErrorInfo.parse),
   ([Route.name], many .route Route.parse),
   ([Via.name, Via.shortName], many .via Via.parse),
   ([MaxForwards.name], one .maxForwards MaxForwards.parse),
   ([From.name, From.shortName], one .fromHdr From.parse),
   ([To.name, To.shortName], one .toHdr To.parse),
   ([CallId.name, CallId.shortName], one .callId CallId.parse),
   ([CSeq.name], one .cSeq CSeq.parse),
   ([Authorization.name], one .authorization Authorization.parse),
   ([Contact.name, Contact.shortName], many .contact Contact.parse),
   ([Expires.name], one .expires Expires.parse),
   ([InReplyTo.name], one .inReplyTo InReplyTo.parse),
   ([MimeVersion.name], one .mimeVersion MimeVersion.parse),
   ([MinExpires.name], one .minExpires MinExpires.parse),
   ([UserAgent.name], one .userAgent UserAgent.parse),
   ([Date.name], one .date Date.parse),
   ([Server.name], one .server Server.parse),
   ([Subject.name, Subject.shortName], one .subject Subject.parse),
   ([Priority.name], one .priority Priority.parse),
   ([ProxyAuthenticate.name], one .proxyAuthenticate ProxyAuthenticate.parse),
   ([ProxyAuthorization.name], one .proxyAuthorization ProxyAuthorization.parse),
   ([ProxyRequire.name], one .proxyRequire ProxyRequire.parse),
   ([ReplyTo.name], one .replyTo ReplyTo.parse),
   ([ContentLength.name, ContentLength.shortName], one .contentLength ContentLength.parse),
   ([ContentEncoding.name, ContentEncoding.shortName],
     one .contentEncoding ContentEncoding.parse),
   ([ContentType.name, ContentType.shortName], one .contentType ContentType.parse),
   ([ContentDisposition.name], one .contentDisposition ContentDisposition.parse),
   ([RecordRoute.name], many .recordRoute RecordRoute.parse),
   ([Require.name], one .require Require.parse),
   ([RetryAfter.name], one .retryAfter RetryAfter.parse),
   ([Organization.name], one .organization Organization.parse),
   ([AcceptEncoding.name], one .acceptEncoding AcceptEncoding.parse),
   ([Accept.name], one .accept Accept.parse),
   ([AcceptLanguage.name], one .acceptLanguage AcceptLanguage.parse),
   ([AlertInfo.name], one .alertInfo AlertInfo.parse),
   ([Allow.name], one .allow Allow.parse),
   ([AuthenticationInfo.name], one .authenticationInfo AuthenticationInfo.parse),
   ([Supported.name, Supported.shortName], one .supported Supported.parse),
   ([Timestamp.name], one .timestamp Timestamp.parse),
   ([Unsupported.name], one .unsupported Unsupported.parse),
   ([WWWAuthenticate.name], one .wwwAuthenticate WWWAuthenticate.parse),
   ([Warning.name], one .warning Warning.parse)]

/-- The parser of a header by its name, which has to be spelt as it is printed; for other names the
    value is a text. -/
def parseHeaderValue (name : String) : Parse Headers :=
  match headerParsers.find? fun entry => entry.1.contains name with
  | some entry => entry.2
  | none => do return [.rawHeader ⟨name, ← readLine⟩]

/-- The header is one after which a body is read. -/
def isContentTypeName (name : String) : Bool :=
  name == ContentType.name || name == ContentType.shortName

/-- One header line, with its end: its headers, and whether it is a `Content-Type`. -/
def parseHeaderLine : Parse (Headers × Bool) := do
  let name ← headerName
  let headers ← parseHeaderValue name
  scanNewline
  return (headers, isContentTypeName name)

/-- The loop over the header lines, up to an empty line or the end. -/
def parseHeaders : Parse (Headers × Bool) :=
  loop .stuck (fun (headers, foundContentTypeHdr) => do
    let (line, isContentType) ← parseHeaderLine
    let result := (headers ++ line, foundContentTypeHdr || isContentType)
    let next ← peek
    if next = some 13 ∨ next = some 10 ∨ next = none then return .inr result
    return .inl result) ([], false)

/-! ### Messages -/

/-- A message without headers and body. -/
def parseStartLine : Parse SipMessage := do
  let isSipV2 := (← get).peekN (asBytes sipV2).length = some (asBytes sipV2)
  if isSipV2 then return .response { statusLine := ← parseStatusLine }
  else return .request { reqLine := ← parseRequestLine }

/-- The body of a message: what remains after the empty line. -/
def parseBody : Parse Bytes := do
  skipNewline
  return (← get).remaining

/-- A message: its first line, its headers and, if one of them is a `Content-Type`, all that is left
    as its body. -/
def parseSipMsg : Parse SipMessage := do
  let sipMessage ← parseStartLine
  let (headers, foundContentTypeHdr) ← parseHeaders
  let sipMessage := sipMessage.setHeaders headers
  if foundContentTypeHdr then return sipMessage.setBody (some (← parseBody))
  return sipMessage

/-- Parses `buf` into a message. -/
def parse (buf : Bytes) : Except Failure SipMessage :=
  match parseSipMsg (Scanner.new buf) with
  | .ok sipMessage _ => .ok sipMessage
  | .error failure _ => .error failure

theorem parse_eq_ok_iff {buf : Bytes} {m : SipMessage} :
    parse buf = .ok m ↔ ∃ c, parseSipMsg (Scanner.new buf) = .ok m c := by
  rw [parse]
  cases parseSipMsg (Scanner.new buf) with
  | ok m' c => simp
  | error e c => simp

theorem parse_eq_error_iff {buf : Bytes} {e : Failure} :
    parse buf = .error e ↔ ∃ c, parseSipMsg (Scanner.new buf) = .error e c := by
  rw [parse]
  cases parseSipMsg (Scanner.new buf) with
  | ok m c => simp
  | error e' c => simp

end SipParser

end Rssip
