import Rssip.Parser.Basic

namespace Rssip

open Lib

/-!
# The SIP parser: URIs

Hosts, URIs, name-addrs and what is either of the two.

* `parseUri` — its argument says whether parameters and headers belong to the URI;
* `storeUriParam` — the parameters that have a field of their own;
* `parseSipUri` — looks ahead for a scheme to tell a bare URI from a display name.
-/

namespace SipParser

/-- The port of a host, out of range for no value of its type. -/
def isValidPort (v : UInt16) : Bool := v.toNat ≤ 65535

/-- A value that may be absent, converted; `transpose().or_else(..)` of the source. -/
def parseValue {α : Type} (kind : ParseErrorKind) (fromStr : String → Option α) :
    Option String → Parse (Option α)
  | none => return none
  | some v => some <$> ofOption kind (fromStr v)

/-! ### Scheme, user and host -/

/-- The plain scheme, in small letters only. -/
def sip : Bytes := asBytes "sip"

/-- The scheme of a URI that asks for security. -/
def sips : Bytes := asBytes "sips"

/-- The scheme by its name. -/
def schemeOf (token : Bytes) : Parse Scheme :=
  if token = sip then return .sip
  else if token = sips then return .sips
  else error .scheme

/-- A scheme and the colon behind it. -/
def parseScheme : Parse Scheme := do
  let token := (← get).peekWhile isToken
  let scheme ← schemeOf token
  modify (Scanner.advanceN token.length)
  mustRead 58
  return scheme

/-- A byte that does not end a URI. -/
def inUri (b : UInt8) : Bool := !isSpace b && !isNewline b && b != 62

/-- Whether an at sign comes before the end of what remains of the URI. -/
def existsUserPartInUri : Parse Bool := do
  return ((← get).remaining.takeWhile inUri).any (· == 64)

/-- The password behind a colon, if there is one. -/
def parsePass : Parse (Option String) := do
  if (← takeIfEq 58).isSome then return some (← readPass)
  return none

/-- The user, if a look ahead finds an `@`, and the password. -/
def parseUserInfo : Parse (Option UserInfo) := do
  if ← existsUserPartInUri then
    let user ← readUser
    let pass ← parsePass
    orError (mustRead 64) .uri
    return some ⟨user, pass⟩
  return none

/-- The port behind a colon, if there is one. -/
def parsePort : Parse (Option UInt16) := do
  if (← takeIfEq 58).isSome then
    let port ← orError (ofScan Scan.scanU16) .host
    if isValidPort port then return some port
    else error .host
  return none

/-- An address between brackets, a domain name or an IPv4 address. -/
def parseHost : Parse Host := do
  if (← peek) = some 91 then
    let _ ← advance
    let host ← orError (ofScan (Scan.scanWhileAsStr (· != 93))) .host
    let _ ← advance
    match IpAddr.parse host with
    | some ip => return .ipAddr ip
    | none => error .host
  else
    let host ← readHost
    if host = "" then error .host
    else return Host.fromStr host

/-- A host and its port. -/
def parseHostPort : Parse HostPort := do
  let host ← parseHost
  let port ← parsePort
  return ⟨host, port⟩

/-! ### URIs -/

/-- The block of the parameter loop of `parse_uri`. -/
def storeUriParam (uri : Uri) (p : Param) : Parse (Uri × Option Param) := do
  if p.name = Params.user then
    return ({ uri with userParam := p.value }, none)
  else if p.name = Params.method then
    return ({ uri with methodParam := p.value.map fun v => SipMethod.fromBytes (asBytes v) }, none)
  else if p.name = Params.transport then
    let transport ← parseValue .transport TransportProtocol.fromStr p.value
    return ({ uri with transportParam := transport }, none)
  else if p.name = Params.ttl then
    let ttl ← parseValue .param u8FromStr p.value
    return ({ uri with ttlParam := ttl }, none)
  else if p.name = Params.lr then
    return ({ uri with lrParam := true }, none)
  else if p.name = Params.maddr then
    return ({ uri with maddrParam := p.value.map Host.fromStr }, none)
  else
    return (uri, some p)

/-- Headers with `&` between them. -/
def parseUriHeaders : Parse UriHeaders := do
  return ⟨⟨← collectSep 38 parseUriHeader⟩⟩

/-- The headers of a URI, after a question mark. -/
def parseUriHeaderPart : Parse (Option UriHeaders) := do
  if (← takeIfEq 63).isSome then return some (← parseUriHeaders)
  return none

/-- A URI.  Without `parseParams` it ends behind the port, and what comes is left to the caller. -/
def parseUri (parseParams : Bool) : Parse Uri := do
  let scheme ← parseScheme
  let user ← parseUserInfo
  let hostPort ← parseHostPort
  let uri : Uri := { scheme := scheme, user := user, hostPort := hostPort }
  if !parseParams then return uri
  let (uri, params) ← parseParamsWith parseUriParam storeUriParam uri
  let headers ← parseUriHeaderPart
  return { uri with params := params, headers := headers }

/-! ### Addresses -/

/-- The name in quotes, no name in front of an angle bracket, or one token. -/
def parseDisplayName : Parse (Option String) := do
  if (← peek) = some 34 then
    let _ ← advance
    return some (← quoted)
  else if (← peek) = some 60 then return none
  else
    let name ← readToken
    skipWs
    return some name

/-- A display name and a URI in angle brackets. -/
def parseNameAddr : Parse NameAddr := do
  skipWs
  let display ← parseDisplayName
  skipWs
  mustRead 60
  let uri ← parseUri true
  mustRead 62
  return ⟨display, uri⟩

/-- Neither the colon after a scheme nor the end of a display name. -/
def inSchemeOrDisplay (b : UInt8) : Bool := !(b == 58 || isNewline b || b == 60)

/-- An address.  What is neither in quotes nor in brackets is a bare URI if it starts with a scheme.
    -/
def parseSipUri (params : Bool) : Parse SipUri := do
  skipWs
  let next ← peek
  if next = some 34 ∨ next = some 60 then return .nameAddr (← parseNameAddr)
  let schemeOrDisplay := (← get).peekWhile inSchemeOrDisplay
  if schemeOrDisplay = sip ∨ schemeOrDisplay = sips then return .uri (← parseUri params)
  else return .nameAddr (← parseNameAddr)

end SipParser

end Rssip
