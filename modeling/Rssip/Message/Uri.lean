import Rssip.Lib.IpAddr
import Rssip.Message.Basic

namespace Rssip

open Lib

/-!
# URIs

SIP URIs, hosts and name-addrs, and the text each is printed as.

* `Uri` — the parameters the parser knows have fields of their own, every other one is in
  `params`;
* `SipUri` — a plain URI or a `NameAddr`, a URI in angle brackets with a display name.
-/

/-- A domain name or an IP address. -/
inductive Host where
  | hostName (name : String)
  | ipAddr (ip : IpAddr)
deriving DecidableEq

instance : Inhabited Host := ⟨.hostName "localhost"⟩

/-- A host with a port, which may be missing. -/
structure HostPort where
  host : Host
  port : Option UInt16
deriving DecidableEq, Inhabited

/-- The scheme of a URI. -/
inductive Scheme where
  | sip
  | sips
deriving DecidableEq

/-- The user of a URI with a password. -/
structure UserInfo where
  user : String
  pass : Option String
deriving DecidableEq

/-- The header parameters of a URI. -/
structure UriHeaders where
  params : Params
deriving DecidableEq

/-- A SIP URI: who is meant, where, the parameters that have a field of their own, the other ones,
    and the headers. -/
structure Uri where
  scheme : Scheme
  user : Option UserInfo
  hostPort : HostPort
  userParam : Option String := none
  methodParam : Option SipMethod := none
  transportParam : Option TransportProtocol := none
  ttlParam : Option UInt8 := none
  lrParam : Bool := false
  maddrParam : Option Host := none
  params : Params := {}
  headers : Option UriHeaders := none
deriving DecidableEq

/-- A URI in angle brackets with a display name. -/
structure NameAddr where
  display : Option String
  uri : Uri
deriving DecidableEq

/-- An address: a bare URI, or one in angle brackets. -/
inductive SipUri where
  | uri (uri : Uri)
  | nameAddr (addr : NameAddr)
deriving DecidableEq

/-! ### Hosts -/

/-- An IP address if the text is one, a name otherwise. -/
def Host.fromStr (s : String) : Host :=
  match IpAddr.parse s with
  | some ip => .ipAddr ip
  | none => .hostName s

/-- The name of a host, or its address; an IPv6 address is printed without brackets. -/
def Host.toText : Host → String
  | .hostName name => name
  | .ipAddr ip => ip.toText

/-- A host and, behind a colon, its port. -/
def HostPort.toText (h : HostPort) : String :=
  h.host.toText ++ h.port.elim "" fun port => ":" ++ decimal port.toNat

/-! ### Printing -/

/-- The scheme in small letters, without the colon. -/
def Scheme.toText : Scheme → String
  | .sip => "sip"
  | .sips => "sips"

/-- The user and the password, with the `@` behind them. -/
def UserInfo.toText (u : UserInfo) : String :=
  u.user ++ (u.pass.elim "" fun pass => ":" ++ pass) ++ "@"

/-- Texts with a separator between them. -/
def formatSep (sep : String) : List String → String
  | [] => ""
  | [s] => s
  | s :: rest => s ++ sep ++ formatSep sep rest

/-- One `name=value`; an absent value prints as an empty one. -/
def uriHeaderText (p : Param) : String := p.name ++ "=" ++ p.value.getD ""

/-- The headers of a URI with `&` between them. -/
def UriHeaders.toText (h : UriHeaders) : String :=
  formatSep "&" (h.params.inner.map uriHeaderText)

/-- The parameters of a URI that have a field of their own, in the order they are printed. -/
def Uri.paramsText (u : Uri) : String :=
  (u.userParam.elim "" fun user => ";user=" ++ user) ++
  (u.methodParam.elim "" fun method => ";method=" ++ method.asStr) ++
  (u.maddrParam.elim "" fun maddr => ";maddr=" ++ maddr.toText) ++
  (u.transportParam.elim "" fun transport => ";transport=" ++ transport.asLowerCase) ++
  (u.ttlParam.elim "" fun ttl => ";ttl=" ++ decimal ttl.toNat) ++
  (if u.lrParam then ";lr" else "")

/-- The parts of a URI in order; the parameters with a field of their own come first. -/
def Uri.toText (u : Uri) : String :=
  u.scheme.toText ++ ":" ++ (u.user.elim "" UserInfo.toText) ++ u.hostPort.toText ++
    u.paramsText ++ u.params.toText ++ u.headers.elim "" fun headers => "?" ++ headers.toText

/-- The display name in quotes, whatever it consists of, and the URI in angle brackets. -/
def NameAddr.toText (a : NameAddr) : String :=
  (a.display.elim "" fun display => "\"" ++ display ++ "\" ") ++ "<" ++ a.uri.toText ++ ">"

/-- An address as it is printed in a header. -/
def SipUri.toText : SipUri → String
  | .uri u => u.toText
  | .nameAddr a => a.toText

end Rssip
