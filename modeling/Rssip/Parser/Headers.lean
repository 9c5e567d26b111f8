import Rssip.Parser.Uri

namespace Rssip

open Lib SipParser

/-!
# The SIP parser: headers

One `parse` for each header type, which reads the value of the header, from behind its name and
the colon.

* headers of one shape share the definition of that shape;
* the block of a parameter loop, which keeps some parameters in fields of the header, is a
  `store…` function of its own.
-/

/-! ### Routing and addressing -/

namespace SipParser

/-- A comment in parentheses, if there is one. -/
def parseComment : Parse (Option String) := do
  if (← takeIfEq 40).isSome then
    let comment ← takeUntil 41
    let _ ← advance
    return some (← utf8 comment)
  return none

/-- The value of `rport`: nothing, an empty text or a port. -/
def parseRport (value : Option String) : Parse Rport := do
  match ← parseValue .port u16FromStr (value.filter (· ≠ "")) with
  | some port => if isValidPort port then return ⟨some port⟩ else error .port
  | none => return ⟨none⟩

/-- The parameters of a `Via` that have a field of their own; the others are given back. -/
def storeViaParam (via : Via) (p : Param) : Parse (Via × Option Param) := do
  if p.name = Params.branch then
    return ({ via with branch := p.value }, none)
  else if p.name = Params.ttl then
    let ttl ← parseValue .param u8FromStr p.value
    return ({ via with ttl := ttl }, none)
  else if p.name = Params.maddr then
    return ({ via with maddr := p.value.map Host.fromStr }, none)
  else if p.name = Params.received then
    let received ← parseValue .param IpAddr.parse p.value
    return ({ via with received := received }, none)
  else if p.name = Params.rport then
    let rport ← parseRport p.value
    return ({ via with rport := some rport }, none)
  else
    return (via, some p)

/-- The `tag` of a `From` or a `To`. -/
def storeTag (tag : Option String) (p : Param) : Parse (Option String × Option Param) :=
  if p.name = Params.tag then return (p.value, none)
  else return (tag, some p)

/-- `Q::from_str` and what its error is turned into. -/
def parseQ : Option String → Parse (Option Q)
  | none => return none
  | some v =>
    match Q.fromStr v with
    | some q => return some q
    | none => throw (.error (.custom "ParseQError"))

/-- The quality value of a coding or a language. -/
def storeQ (q : Option Q) (p : Param) : Parse (Option Q × Option Param) := do
  if p.name = Params.q then return (← parseQ p.value, none)
  else return (q, some p)

/-- The preference and the lifetime of a contact; other parameters are given back. -/
def storeContactParam (h : Contact) (p : Param) : Parse (Contact × Option Param) := do
  if p.name = Params.q then
    let q ← parseQ p.value
    return ({ h with q := q }, none)
  else if p.name = Params.expires then
    let expires ← parseValue .param u32FromStr p.value
    return ({ h with expires := expires }, none)
  else
    return (h, some p)

/-- An address with a tag and generic parameters. -/
def parseTagged : Parse (SipUri × Option String × Params) := do
  let uri ← parseSipUri false
  let (tag, params) ← parseParamsWith paramRef storeTag none
  return (uri, tag, params)

/-- A name-addr with generic parameters. -/
def parseRouteParam : Parse (NameAddr × Params) := do
  let addr ← parseNameAddr
  let params ← parseParams
  return (addr, params)

end SipParser

/-- The version, a byte that is not looked at, the transport, the sender, the parameters and the
    comment.  A byte is skipped where the `/` should be. -/
def Via.parse : Parse Via := do
  parseSipVersion
  let _ ← advance
  let transport ← ofOption .transport (TransportProtocol.fromStr (← readToken))
  skipWs
  let sentBy ← parseHostPort
  let via : Via := { transport := transport, sentBy := sentBy }
  let (via, params) ← parseParamsWith viaParam storeViaParam via
  let comment ← parseComment
  return { via with params := params, comment := comment }

/-- The value of `From`: an address with a tag and other parameters. -/
def From.parse : Parse From := do
  let (uri, tag, params) ← parseTagged
  return ⟨uri, tag, params⟩

/-- The value of `To`: an address with a tag and other parameters. -/
def To.parse : Parse To := do
  let (uri, tag, params) ← parseTagged
  return ⟨uri, tag, params⟩

/-- An address with its preference, its lifetime and other parameters.  The parameters of a bare URI
    stay with the contact. -/
def Contact.parse : Parse Contact := do
  let uri ← parseSipUri false
  let (h, param) ← parseParamsWith paramRef storeContactParam ⟨uri, none, none, {}⟩
  return { h with param := param }

/-- The value of `Reply-To`: an address with parameters. -/
def ReplyTo.parse : Parse ReplyTo := do
  let uri ← parseSipUri false
  let param ← parseParams
  return ⟨uri, param⟩

/-- The value of `Route`: an address in angle brackets, with the parameters behind it. -/
def Route.parse : Parse Route := do
  let (nameAddr, params) ← parseRouteParam
  return ⟨nameAddr, params⟩

/-- The value of `Record-Route`: an address in angle brackets, with the parameters behind it. -/
def RecordRoute.parse : Parse RecordRoute := do
  let (addr, params) ← parseRouteParam
  return ⟨addr, params⟩

/-! ### Identification and sequencing -/

/-- The identifier is the rest of the line, whatever it consists of. -/
def CallId.parse : Parse CallId := do return ⟨← readLine⟩

/-- A number and a method, which is any text of letters. -/
def CSeq.parse : Parse CSeq := do
  let cseq ← parseU32
  skipWs
  let method ← takeAlphabetic
  return ⟨cseq, SipMethod.fromBytes method⟩

/-- Identifiers up to the next comma or the end of the line. -/
def InReplyTo.parse : Parse InReplyTo := do
  return ⟨← collectElemsSeparatedByComma do
    let id ← consumeWhile fun b => !isNewline b && b != 44
    return ⟨← utf8 id⟩⟩

/-! ### Headers that are one number -/

/-- The four headers of a number read 32 bits, and leave what is behind them; here the hops. -/
def MaxForwards.parse : Parse MaxForwards := do return ⟨← parseU32⟩

/-- The seconds after which something is over. -/
def Expires.parse : Parse Expires := do return ⟨← parseU32⟩

/-- The seconds that a registration has to last. -/
def MinExpires.parse : Parse MinExpires := do return ⟨← parseU32⟩

/-- A number of bytes, which nothing compares with the body. -/
def ContentLength.parse : Parse ContentLength := do return ⟨← parseU32⟩

/-! ### Headers that are one line of text -/

/-- The five headers of a text take the rest of the line, the date too, which is not looked into. -/
def Date.parse : Parse Date := do return ⟨← readLine⟩

/-- The rest of the line is the organization. -/
def Organization.parse : Parse Organization := do return ⟨← readLine⟩

/-- The rest of the line is what the server says of itself. -/
def Server.parse : Parse Server := do return ⟨← readLine⟩

/-- The rest of the line is the subject. -/
def Subject.parse : Parse Subject := do return ⟨← readLine⟩

/-- The rest of the line is what the user agent says of itself. -/
def UserAgent.parse : Parse UserAgent := do return ⟨← readLine⟩

/-- The value of `Priority` is one token, what is behind it is left. -/
def Priority.parse : Parse Priority := do return ⟨← token⟩

/-! ### Headers that are lists of tokens -/

namespace SipParser

/-- Tokens with commas between them, for the headers that list extensions or encodings. -/
def parseTokens : Parse (List String) := collectElemsSeparatedByComma token

/-- A byte of a language tag. -/
def isLang (b : UInt8) : Bool := isAsciiAlphabetic b || b == 42 || b == 45

end SipParser

/-- Methods with commas between them; each is any text of letters. -/
def Allow.parse : Parse Allow := do
  return ⟨← collectElemsSeparatedByComma do return SipMethod.fromBytes (← takeAlphabetic)⟩

/-- The headers that list extensions and encodings differ in their names only. -/
def Supported.parse : Parse Supported := do return ⟨← parseTokens⟩

/-- Option tags with commas between them. -/
def Require.parse : Parse Require := do return ⟨← parseTokens⟩

/-- Option tags with commas between them. -/
def ProxyRequire.parse : Parse ProxyRequire := do return ⟨← parseTokens⟩

/-- Option tags with commas between them. -/
def Unsupported.parse : Parse Unsupported := do return ⟨← parseTokens⟩

/-- Codings with commas between them. -/
def ContentEncoding.parse : Parse ContentEncoding := do return ⟨← parseTokens⟩

/-- A tag may be empty: it is as long as there are letters, `*` and `-`. -/
def LanguageTag.parse : Parse LanguageTag := do return ⟨← readWhileAsStrUnchecked isLang⟩

/-- Language tags with commas between them. -/
def ContentLanguage.parse : Parse ContentLanguage := do
  return ⟨← collectElemsSeparatedByComma LanguageTag.parse⟩

/-! ### Media types and negotiation -/

/-- The type, a byte that is not looked at, the subtype and the parameters. -/
def MediaType.parse : Parse MediaType := do
  let mtype ← token
  let _ ← advance
  let subtype ← token
  let params ← parseParams
  return ⟨⟨mtype, subtype⟩, params⟩

/-- The value of `Content-Type` is one type of content. -/
def ContentType.parse : Parse ContentType := do return ⟨← MediaType.parse⟩

/-- Types of content with commas between them. -/
def Accept.parse : Parse Accept := do return ⟨← collectElemsSeparatedByComma MediaType.parse⟩

/-- An encoding with its preference and other parameters. -/
def Coding.parse : Parse Coding := do
  let coding ← token
  let (q, params) ← parseParamsWith paramRef storeQ none
  return ⟨coding, q, params⟩

/-- Encodings with commas between them. -/
def AcceptEncoding.parse : Parse AcceptEncoding := do
  return ⟨← collectElemsSeparatedByComma Coding.parse⟩

/-- A language tag with its preference and other parameters. -/
def Language.parse : Parse Language := do
  let language ← LanguageTag.parse
  let (q, params) ← parseParamsWith paramRef storeQ none
  return ⟨language, q, params⟩

/-- Languages with commas between them. -/
def AcceptLanguage.parse : Parse AcceptLanguage := do
  return ⟨← collectElemsSeparatedByComma Language.parse⟩

/-- How to interpret the body, with parameters. -/
def ContentDisposition.parse : Parse ContentDisposition := do
  let type ← token
  let params ← parseParams
  return ⟨type, params⟩

namespace SipParser

/-- `b - b'0'` on unsigned bytes: a panic below zero. -/
def minusZero (b : UInt8) : Parse UInt8 :=
  if b < 48 then throw .panic else return b - 48

end SipParser

/-- Two bytes with a point between them, each taken for a digit. -/
def MimeVersion.parse : Parse MimeVersion := do
  let major ← minusZero (← advance)
  mustRead 46
  let minor ← minusZero (← advance)
  return ⟨major, minor⟩

/-! ### Pointers to other resources -/

namespace SipParser

/-- A URL between angle brackets. -/
def parseUrl : Parse String := do
  mustRead 60
  let url ← takeUntil 62
  let _ ← advance
  utf8 url

/-- The parameter of `Call-Info` that has a field of its own. -/
def purpose : String := "purpose"

/-- The `purpose` of a `Call-Info`. -/
def storePurpose (value : Option String) (p : Param) : Parse (Option String × Option Param) :=
  if p.name = purpose then return (p.value, none)
  else return (value, some p)

end SipParser

/-- A URL in angle brackets with parameters; blanks may come before it. -/
def AlertInfo.parse : Parse AlertInfo := do
  skipWs
  let url ← parseUrl
  let params ← parseParams
  return ⟨url, params⟩

/-- A URL in angle brackets with its purpose and other parameters. -/
def CallInfo.parse : Parse CallInfo := do
  let url ← parseUrl
  let (purpose, params) ← parseParamsWith paramRef storePurpose none
  return ⟨url, purpose, params⟩

/-- A URL in angle brackets with parameters. -/
def ErrorInfoUri.parse : Parse ErrorInfoUri := do
  let url ← parseUrl
  let params ← parseParams
  return ⟨url, params⟩

/-- URLs with commas between them. -/
def ErrorInfo.parse : Parse ErrorInfo := do
  return ⟨← collectElemsSeparatedByComma ErrorInfoUri.parse⟩

/-! ### Retry, time and warnings -/

/-- A number of seconds, a comment in parentheses and parameters. -/
def RetryAfter.parse : Parse RetryAfter := do
  let seconds ← parseU32
  skipWs
  let comment ← parseComment
  let param ← parseParams
  return ⟨seconds, param, comment⟩

/-- The number that the next digits and points make up, an error if they make up none. -/
def Scan.scanF32 : Scan F32 := do
  let number ← modifyGet (Scanner.scanNumberStr true)
  match F32.fromStr number with
  | some n => return n
  | none => scanError .invalidNumber

/-- The scan of a number, with its error as one of the parser. -/
def SipParser.parseF32 : Parse F32 := ofScan Scan.scanF32

/-- A number, and a second one if a digit follows behind blanks. -/
def Timestamp.parse : Parse Timestamp := do
  let time ← parseF32
  skipWs
  if (← peek).any isAsciiDigit then return ⟨time, some (← parseF32)⟩
  return ⟨time, none⟩

/-- A code, a host and a text in quotes. -/
def Warning.parse : Parse Warning := do
  let code ← parseU32
  skipWs
  let host ← readHost
  skipWs
  mustRead 34
  let text ← takeUntil 34
  let _ ← advance
  return ⟨code, host, ← utf8 text⟩

/-! ### Authentication -/

/-- A parameter of a `Digest` challenge; unknown ones are dropped. -/
def DigestChallenge.store (c : DigestChallenge) (p : Param) : DigestChallenge :=
  if p.name = "realm" then { c with realm := p.value }
  else if p.name = "nonce" then { c with nonce := p.value }
  else if p.name = "domain" then { c with domain := p.value }
  else if p.name = "algorithm" then { c with algorithm := p.value }
  else if p.name = "opaque" then { c with opaqueParam := p.value }
  else if p.name = "qop" then { c with qop := p.value }
  else if p.name = "stale" then { c with stale := p.value }
  else c

/-- A parameter of a `Digest` answer; unknown ones are dropped. -/
def DigestCredential.store (c : DigestCredential) (p : Param) : DigestCredential :=
  if p.name = "realm" then { c with realm := p.value }
  else if p.name = "username" then { c with username := p.value }
  else if p.name = "nonce" then { c with nonce := p.value }
  else if p.name = "uri" then { c with uri := p.value }
  else if p.name = "response" then { c with response := p.value }
  else if p.name = "algorithm" then { c with algorithm := p.value }
  else if p.name = "cnonce" then { c with cnonce := p.value }
  else if p.name = "opaque" then { c with opaqueParam := p.value }
  else if p.name = "qop" then { c with qop := p.value }
  else if p.name = "nc" then { c with nc := p.value }
  else c

/-- A parameter of `Authentication-Info`; unknown ones are dropped. -/
def AuthenticationInfo.store (h : AuthenticationInfo) (p : Param) : AuthenticationInfo :=
  if p.name = "nextnonce" then { h with nextnonce := p.value }
  else if p.name = "qop" then { h with qop := p.value }
  else if p.name = "rspauth" then { h with rspauth := p.value }
  else if p.name = "cnonce" then { h with cnonce := p.value }
  else if p.name = "nc" then { h with nc := p.value }
  else h

namespace SipParser

/-- The loop over the parameters of an authentication header, which are kept by `store`. -/
def parseAuthParams {α : Type} (store : α → Param → α) (a : α) : Parse α :=
  foldSep 44 (fun a => do
    skipWs
    return store a (← paramRef)) a

/-- The scheme whose parameters have fields of their own. -/
def digest : String := "Digest"

/-- A challenge: the `Digest` scheme has its fields, another one keeps its parameters. -/
def parseAuthChallenge : Parse Challenge := do
  let scheme ← token
  if scheme = digest then return .digest (← parseAuthParams DigestChallenge.store {})
  return .other scheme (← parseParams)

/-- An answer to a challenge: the `Digest` scheme has its fields, another one keeps its parameters.
    -/
def parseAuthCredential : Parse Credential := do
  let scheme ← token
  if scheme = digest then return .digest (← parseAuthParams DigestCredential.store {})
  return .other scheme (← parseParams)

end SipParser

/-- The headers of servers and of proxies have one value each, an answer or a challenge. -/
def Authorization.parse : Parse Authorization := do return ⟨← parseAuthCredential⟩

/-- The credentials for a proxy, read like those for a server. -/
def ProxyAuthorization.parse : Parse ProxyAuthorization := do return ⟨← parseAuthCredential⟩

/-- The challenge of a proxy, read like that of a server. -/
def ProxyAuthenticate.parse : Parse ProxyAuthenticate := do return ⟨← parseAuthChallenge⟩

/-- The challenge of a server. -/
def WWWAuthenticate.parse : Parse WWWAuthenticate := do return ⟨← parseAuthChallenge⟩

/-- The value of `Authentication-Info`: parameters with commas between them. -/
def AuthenticationInfo.parse : Parse AuthenticationInfo :=
  parseAuthParams AuthenticationInfo.store {}

end Rssip
