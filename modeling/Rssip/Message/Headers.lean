import Rssip.Lib.F32
import Rssip.Message.Uri

namespace Rssip

open Lib

/-!
# Headers

The header types of a SIP message and the line each is printed as.

* every header has a `name`, some a `shortName`;
* `toText` prints the whole line, without its end;
* `Header` — any header, and `Header.toText`, which has no value where the printer of an
  authentication scheme other than `Digest` is a `todo!()`.
-/

/-- The line of a header. -/
def headerLine (name value : String) : String := name ++ ": " ++ value

/-- The line of a header that is a comma-separated list. -/
def listLine (name : String) (values : List String) : String :=
  headerLine name (formatSep ", " values)

/-! ### Routing and addressing -/

/-- The `rport` parameter, with or without a port. -/
structure Rport where
  port : Option UInt16
deriving DecidableEq

/-- One hop that a request has taken: the transport, the sender, and the parameters that its
    transactions and the receiver of the message have set. -/
structure Via where
  transport : TransportProtocol
  sentBy : HostPort
  ttl : Option UInt8 := none
  maddr : Option Host := none
  received : Option IpAddr := none
  branch : Option String := none
  rport : Option Rport := none
  comment : Option String := none
  params : Params := {}
deriving DecidableEq, Inhabited

/-- The protocol name and version of requests, responses and `Via` headers. -/
def sipV2 : String := "SIP/2.0"

namespace Via

def name : String := "Via"
def shortName : String := "v"

/-- The parameters with a field of their own, in the order they are printed. -/
def paramsText (v : Via) : String :=
  (v.rport.elim "" fun rport => ";rport" ++ rport.port.elim "" fun p => "=" ++ decimal p.toNat) ++
  (v.received.elim "" fun received => ";received=" ++ received.toText) ++
  (v.ttl.elim "" fun ttl => ";ttl=" ++ decimal ttl.toNat) ++
  (v.maddr.elim "" fun maddr => ";maddr=" ++ maddr.toText) ++
  (v.branch.elim "" fun branch => ";branch=" ++ branch)

/-- The line of the header: the fields that have a parameter of their own come before the other
    parameters, and the comment comes last. -/
def toText (v : Via) : String :=
  headerLine name (sipV2 ++ "/" ++ v.transport.asUpperCase ++ " " ++ v.sentBy.toText ++
    v.paramsText ++ v.params.toText ++ v.comment.elim "" fun comment => " (" ++ comment ++ ")")

end Via

/-- The originator of a request, with the tag of its side of the dialog. -/
structure From where
  uri : SipUri
  tag : Option String
  params : Params
deriving DecidableEq

/-- The recipient of a request, with the tag of its side of the dialog once there is one. -/
structure To where
  uri : SipUri
  tag : Option String
  params : Params
deriving DecidableEq

/-- An address with a tag and generic parameters. -/
def taggedLine (name : String) (uri : SipUri) (tag : Option String) (params : Params) : String :=
  headerLine name (uri.toText ++ (tag.elim "" fun tag => ";tag=" ++ tag) ++ params.toText)

def From.name : String := "From"
def From.shortName : String := "f"

/-- The line of the header, the tag in front of the other parameters. -/
def From.toText (h : From) : String := taggedLine From.name h.uri h.tag h.params

def To.name : String := "To"
def To.shortName : String := "t"

/-- The line of the header, the tag in front of the other parameters. -/
def To.toText (h : To) : String := taggedLine To.name h.uri h.tag h.params

/-- Where the sender can be reached directly, with the preference and the lifetime of the address.
    -/
structure Contact where
  uri : SipUri
  q : Option Q
  expires : Option UInt32
  param : Params
deriving DecidableEq

def Contact.name : String := "Contact"
def Contact.shortName : String := "m"

/-- The value of `expires` is printed without a parameter name. -/
def Contact.toText (h : Contact) : String :=
  headerLine Contact.name (h.uri.toText ++ (h.q.elim "" Q.toText) ++
    (h.expires.elim "" fun expires => decimal expires.toNat) ++ h.param.toText)

/-- An address for answers, which may differ from that in `From`. -/
structure ReplyTo where
  uri : SipUri
  param : Params
deriving DecidableEq

def ReplyTo.name : String := "Reply-To"

/-- Where a reply is to go, and the parameters behind it. -/
def ReplyTo.toText (h : ReplyTo) : String :=
  headerLine ReplyTo.name (h.uri.toText ++ h.param.toText)

/-- A hop that the request has still to take. -/
structure Route where
  nameAddr : NameAddr
  params : Params
deriving DecidableEq

/-- A hop that wants to be on the way of later requests. -/
structure RecordRoute where
  addr : NameAddr
  params : Params
deriving DecidableEq

def Route.name : String := "Route"

/-- The line of the header: the address comes with its own parameters, then those of the header. -/
def Route.toText (h : Route) : String :=
  headerLine Route.name (h.nameAddr.toText ++ h.params.toText)

def RecordRoute.name : String := "Record-Route"

/-- The line of the header: the address comes with its own parameters, then those of the header. -/
def RecordRoute.toText (h : RecordRoute) : String :=
  headerLine RecordRoute.name (h.addr.toText ++ h.params.toText)

/-! ### Identification and sequencing -/

/-- The identifier that all messages of a call share. -/
structure CallId where
  id : String
deriving DecidableEq

def CallId.name : String := "Call-ID"
def CallId.shortName : String := "i"

/-- The Call-ID as it was read or made. -/
def CallId.toText (h : CallId) : String := headerLine CallId.name h.id

/-- The number of a request in its dialog, with its method. -/
structure CSeq where
  cseq : UInt32
  method : SipMethod
deriving DecidableEq

def CSeq.name : String := "CSeq"

/-- The line of the header: the number, then the method. -/
def CSeq.toText (h : CSeq) : String :=
  headerLine CSeq.name (decimal h.cseq.toNat ++ " " ++ h.method.asStr)

/-- The calls that this one refers to or returns. -/
structure InReplyTo where
  ids : List CallId
deriving DecidableEq

def InReplyTo.name : String := "In-Reply-To"

/-- Each identifier is printed as a whole `Call-ID` line. -/
def InReplyTo.toText (h : InReplyTo) : String := listLine InReplyTo.name (h.ids.map CallId.toText)

/-! ### Headers that are one number -/

/-- How many hops the request may still take. -/
structure MaxForwards where
  fowards : UInt32
deriving DecidableEq

/-- After how many seconds the message or its content is no longer valid. -/
structure Expires where
  seconds : UInt32
deriving DecidableEq

/-- The shortest lifetime of a registration that a registrar takes. -/
structure MinExpires where
  seconds : UInt32
deriving DecidableEq

/-- The number of bytes of the body. -/
structure ContentLength where
  len : UInt32
deriving DecidableEq

/-- The line of a header that is a number. -/
def numberLine (name : String) (n : UInt32) : String := headerLine name (decimal n.toNat)

def MaxForwards.name : String := "Max-Forwards"

/-- The hops that are left, in digits. -/
def MaxForwards.toText (h : MaxForwards) : String := numberLine MaxForwards.name h.fowards

def Expires.name : String := "Expires"

/-- The seconds after which something is over, in digits. -/
def Expires.toText (h : Expires) : String := numberLine Expires.name h.seconds

def MinExpires.name : String := "Min-Expires"

/-- The seconds that a registration has to last, in digits. -/
def MinExpires.toText (h : MinExpires) : String := numberLine MinExpires.name h.seconds

def ContentLength.name : String := "Content-Length"
def ContentLength.shortName : String := "l"

/-- The length of the body in bytes, in digits. -/
def ContentLength.toText (h : ContentLength) : String := numberLine ContentLength.name h.len

/-! ### Headers that are one line of text -/

/-- When the message was first sent; the text is not interpreted. -/
structure Date where
  date : String
deriving DecidableEq

/-- The organisation of the sender. -/
structure Organization where
  organization : String
deriving DecidableEq

/-- The software of the user agent server. -/
structure Server where
  server : String
deriving DecidableEq

/-- What the call is about. -/
structure Subject where
  subject : String
deriving DecidableEq

/-- The software of the user agent client. -/
structure UserAgent where
  agent : String
deriving DecidableEq

/-- How urgent the request is for its recipient. -/
structure Priority where
  priority : String
deriving DecidableEq

def Date.name : String := "Date"

/-- The date as it was read, which is not looked into. -/
def Date.toText (h : Date) : String := headerLine Date.name h.date

def Organization.name : String := "Organization"

/-- The organization as it was read. -/
def Organization.toText (h : Organization) : String := headerLine Organization.name h.organization

def Server.name : String := "Server"

/-- What the server says of itself, as it was read. -/
def Server.toText (h : Server) : String := headerLine Server.name h.server

def Subject.name : String := "Subject"
def Subject.shortName : String := "s"

/-- The subject as it was read. -/
def Subject.toText (h : Subject) : String := headerLine Subject.name h.subject

def UserAgent.name : String := "User-Agent"

/-- What the user agent says of itself, as it was read. -/
def UserAgent.toText (h : UserAgent) : String := headerLine UserAgent.name h.agent

def Priority.name : String := "Priority"

/-- The priority, one token. -/
def Priority.toText (h : Priority) : String := headerLine Priority.name h.priority

/-! ### Headers that are lists of tokens -/

/-- The methods that the sender takes. -/
structure Allow where
  methods : List SipMethod
deriving DecidableEq

/-- The extensions that the sender supports. -/
structure Supported where
  tags : List String
deriving DecidableEq

/-- The extensions that the recipient has to support. -/
structure Require where
  tags : List String
deriving DecidableEq

/-- The extensions that proxies on the way have to support. -/
structure ProxyRequire where
  tags : List String
deriving DecidableEq

/-- The extensions that the recipient does not support. -/
structure Unsupported where
  tags : List String
deriving DecidableEq

/-- The encodings that were applied to the body. -/
structure ContentEncoding where
  codings : List String
deriving DecidableEq

/-- A language tag or `*`. -/
structure LanguageTag where
  tag : String
deriving DecidableEq

/-- The languages of the body. -/
structure ContentLanguage where
  languages : List LanguageTag
deriving DecidableEq

def Allow.name : String := "Allow"

/-- The line of the header, one method after the other. -/
def Allow.toText (h : Allow) : String := listLine Allow.name (h.methods.map SipMethod.asStr)

def Supported.name : String := "Supported"
def Supported.shortName : String := "k"

/-- The line of the header, one tag after the other. -/
def Supported.toText (h : Supported) : String := listLine Supported.name h.tags

def Require.name : String := "Require"

/-- The line of the header, one tag after the other. -/
def Require.toText (h : Require) : String := listLine Require.name h.tags

def ProxyRequire.name : String := "Proxy-Require"

/-- The line of the header, one tag after the other. -/
def ProxyRequire.toText (h : ProxyRequire) : String := listLine ProxyRequire.name h.tags

def Unsupported.name : String := "Unsupported"

/-- The line of the header, one tag after the other. -/
def Unsupported.toText (h : Unsupported) : String := listLine Unsupported.name h.tags

def ContentEncoding.name : String := "Content-Encoding"
def ContentEncoding.shortName : String := "e"

/-- The line of the header, one encoding after the other. -/
def ContentEncoding.toText (h : ContentEncoding) : String := listLine ContentEncoding.name h.codings

def ContentLanguage.name : String := "Content-Language"

/-- The line of the header, one language after the other. -/
def ContentLanguage.toText (h : ContentLanguage) : String :=
  listLine ContentLanguage.name (h.languages.map LanguageTag.tag)

/-! ### Media types and negotiation -/

/-- A type of content, with its subtype. -/
structure MimeType where
  mtype : String
  subtype : String
deriving DecidableEq

/-- A type of content with its parameters. -/
structure MediaType where
  mimetype : MimeType
  params : Params
deriving DecidableEq

/-- The text of a type of content, as it stands in `Content-Type` and `Accept`. -/
def MediaType.toText (m : MediaType) : String :=
  m.mimetype.mtype ++ "/" ++ m.mimetype.subtype ++ m.params.toText

/-- The type of the body. -/
structure ContentType where
  mediaType : MediaType
deriving DecidableEq

def ContentType.name : String := "Content-Type"
def ContentType.shortName : String := "c"

/-- The media type of the body with its parameters. -/
def ContentType.toText (h : ContentType) : String := headerLine ContentType.name h.mediaType.toText

/-- The types of content that the sender takes. -/
structure Accept where
  mtypes : List MediaType
deriving DecidableEq

def Accept.name : String := "Accept"

/-- The line of the header, one type after the other. -/
def Accept.toText (h : Accept) : String := listLine Accept.name (h.mtypes.map MediaType.toText)

/-- An encoding of content with the preference for it. -/
structure Coding where
  coding : String
  qParam : Option Q
  params : Params
deriving DecidableEq

/-- The encodings of content that the sender takes. -/
structure AcceptEncoding where
  codings : List Coding
deriving DecidableEq

/-- The text of an encoding. -/
def Coding.toText (c : Coding) : String := c.coding ++ (c.qParam.elim "" Q.toText) ++ c.params.toText

def AcceptEncoding.name : String := "Accept-Encoding"

/-- The line of the header, one encoding after the other. -/
def AcceptEncoding.toText (h : AcceptEncoding) : String :=
  listLine AcceptEncoding.name (h.codings.map Coding.toText)

/-- A language with the preference for it. -/
structure Language where
  language : LanguageTag
  qParam : Option Q
  params : Params
deriving DecidableEq

/-- The languages that the sender prefers for texts. -/
structure AcceptLanguage where
  languages : List Language
deriving DecidableEq

/-- The text of a language. -/
def Language.toText (l : Language) : String :=
  l.language.tag ++ (l.qParam.elim "" Q.toText) ++ l.params.toText

def AcceptLanguage.name : String := "Accept-Language"

/-- The line of the header, one language after the other. -/
def AcceptLanguage.toText (h : AcceptLanguage) : String :=
  listLine AcceptLanguage.name (h.languages.map Language.toText)

/-- How the recipient is to interpret the body. -/
structure ContentDisposition where
  type : String
  params : Params
deriving DecidableEq

def ContentDisposition.name : String := "Content-Disposition"

/-- A semicolon comes before the parameters, which print one of their own. -/
def ContentDisposition.toText (h : ContentDisposition) : String :=
  headerLine ContentDisposition.name (h.type ++ ";" ++ h.params.toText)

/-- The version of the format of the body. -/
structure MimeVersion where
  major : UInt8
  minor : UInt8
deriving DecidableEq

def MimeVersion.name : String := "MIME-Version"

/-- The line of the header: the two numbers, with a point between them. -/
def MimeVersion.toText (h : MimeVersion) : String :=
  headerLine MimeVersion.name (decimal h.major.toNat ++ "." ++ decimal h.minor.toNat)

/-! ### Pointers to other resources -/

/-- Another ring tone, or ring-back tone. -/
structure AlertInfo where
  url : String
  params : Params
deriving DecidableEq

def AlertInfo.name : String := "Alert-Info"

/-- The URL in angle brackets, and the parameters behind it. -/
def AlertInfo.toText (h : AlertInfo) : String :=
  headerLine AlertInfo.name ("<" ++ h.url ++ ">" ++ h.params.toText)

/-- More about the caller or the callee, with the purpose of the address. -/
structure CallInfo where
  url : String
  purpose : Option String
  params : Params
deriving DecidableEq

def CallInfo.name : String := "Call-Info"

/-- The line of the header, the purpose in front of the other parameters. -/
def CallInfo.toText (h : CallInfo) : String :=
  headerLine CallInfo.name ("<" ++ h.url ++ ">" ++
    (h.purpose.elim "" fun purpose => ";" ++ purpose) ++ h.params.toText)

/-- An address with more about an error. -/
structure ErrorInfoUri where
  url : String
  params : Params
deriving DecidableEq

/-- More about the error of a response. -/
structure ErrorInfo where
  infos : List ErrorInfoUri
deriving DecidableEq

/-- The text of an address; the `;` is printed even if there are no parameters. -/
def ErrorInfoUri.toText (e : ErrorInfoUri) : String := e.url ++ ";" ++ e.params.toText

def ErrorInfo.name : String := "Error-Info"

/-- The one header whose printer leaves out its name. -/
def ErrorInfo.toText (h : ErrorInfo) : String := formatSep ", " (h.infos.map ErrorInfoUri.toText)

/-! ### Retry, time and warnings -/

/-- When the service is expected to be back, with a comment on it. -/
structure RetryAfter where
  seconds : UInt32
  param : Params
  comment : Option String
deriving DecidableEq

def RetryAfter.name : String := "Retry-After"

/-- The line of the header.  The comment is printed behind the parameters, without parentheses. -/
def RetryAfter.toText (h : RetryAfter) : String :=
  headerLine RetryAfter.name (decimal h.seconds.toNat ++ h.param.toText ++ h.comment.getD "")

/-- When the request was sent, and how long its recipient waited before it answered. -/
structure Timestamp where
  time : F32
  delay : Option F32
deriving DecidableEq

def Timestamp.name : String := "Timestamp"

/-- The line of the header; nothing stands between the two numbers. -/
def Timestamp.toText (h : Timestamp) : String :=
  headerLine Timestamp.name (h.time.toText ++ h.delay.elim "" F32.toText)

/-- More about the status of a response: a code, the host that adds it, and a text. -/
structure Warning where
  code : UInt32
  host : String
  text : String
deriving DecidableEq

def Warning.name : String := "Warning"

/-- The line of the header; the text is printed without quotes. -/
def Warning.toText (h : Warning) : String :=
  headerLine Warning.name (decimal h.code.toNat ++ " " ++ h.host ++ " " ++ h.text)

/-! ### Authentication -/

/-- What a server asks of a client that is to authenticate itself by a digest. -/
structure DigestChallenge where
  realm : Option String := none
  domain : Option String := none
  nonce : Option String := none
  opaqueParam : Option String := none
  stale : Option String := none
  algorithm : Option String := none
  qop : Option String := none
deriving DecidableEq

/-- What a server asks of a client that is to authenticate itself. -/
inductive Challenge where
  | digest (challenge : DigestChallenge)
  | other (scheme : String) (params : Params)
deriving DecidableEq

/-- The `Digest` challenge; the other schemes are a `todo!()`. -/
def Challenge.toText : Challenge → Option String
  | .digest c => some ("Digest " ++
      (c.realm.elim "" fun realm => "realm=" ++ realm ++ ", ") ++
      (c.domain.elim "" fun domain => "domain=" ++ domain ++ ", ") ++
      (c.nonce.elim "" fun nonce => "nonce=" ++ nonce ++ ", ") ++
      (c.opaqueParam.elim "" fun value => "opaque=" ++ value ++ ", ") ++
      (c.stale.elim "" fun stale => "stale=" ++ stale ++ ", ") ++
      (c.algorithm.elim "" fun algorithm => "algorithm=" ++ algorithm ++ ", ") ++
      c.qop.elim "" fun qop => "qop=" ++ qop)
  | .other _ _ => none

/-- The answer to a `Digest` challenge. -/
structure DigestCredential where
  realm : Option String := none
  username : Option String := none
  nonce : Option String := none
  uri : Option String := none
  response : Option String := none
  algorithm : Option String := none
  cnonce : Option String := none
  opaqueParam : Option String := none
  qop : Option String := none
  nc : Option String := none
deriving DecidableEq

/-- The answer to a challenge. -/
inductive Credential where
  | digest (credential : DigestCredential)
  | other (scheme : String) (param : Params)
deriving DecidableEq

/-- The `Digest` credential; the other schemes are a `todo!()`. -/
def Credential.toText : Credential → Option String
  | .digest c => some ("Digest " ++
      (c.username.elim "" fun username => "username=" ++ username) ++
      (c.realm.elim "" fun realm => ", realm=" ++ realm) ++
      (c.nonce.elim "" fun nonce => ", nonce=" ++ nonce) ++
      (c.uri.elim "" fun uri => ", uri=" ++ uri) ++
      (c.response.elim "" fun response => ", response=" ++ response) ++
      (c.algorithm.elim "" fun algorithm => ", algorithm=" ++ algorithm) ++
      (c.cnonce.elim "" fun cnonce => ", cnonce=" ++ cnonce) ++
      (c.qop.elim "" fun qop => ", qop=" ++ qop) ++
      (c.nc.elim "" fun nc => ", nc=" ++ nc) ++
      c.opaqueParam.elim "" fun value => ", opaque=" ++ value)
  | .other _ _ => none

/-- The answer to the challenge of a server. -/
structure Authorization where
  credential : Credential
deriving DecidableEq

/-- The answer to the challenge of a proxy. -/
structure ProxyAuthorization where
  credential : Credential
deriving DecidableEq

/-- The challenge of a proxy. -/
structure ProxyAuthenticate where
  challenge : Challenge
deriving DecidableEq

/-- The challenge of a server. -/
structure WWWAuthenticate where
  challenge : Challenge
deriving DecidableEq

def Authorization.name : String := "Authorization"

/-- The line of the header, none where the code has a `todo!()`. -/
def Authorization.toText (h : Authorization) : Option String :=
  h.credential.toText.map (headerLine Authorization.name)

def ProxyAuthorization.name : String := "Proxy-Authorization"

/-- The line of the header, none where the code has a `todo!()`. -/
def ProxyAuthorization.toText (h : ProxyAuthorization) : Option String :=
  h.credential.toText.map (headerLine ProxyAuthorization.name)

def ProxyAuthenticate.name : String := "Proxy-Authenticate"

/-- The line of the header, none where the code has a `todo!()`. -/
def ProxyAuthenticate.toText (h : ProxyAuthenticate) : Option String :=
  h.challenge.toText.map (headerLine ProxyAuthenticate.name)

def WWWAuthenticate.name : String := "WWW-Authenticate"

/-- The line of the header, none where the code has a `todo!()`. -/
def WWWAuthenticate.toText (h : WWWAuthenticate) : Option String :=
  h.challenge.toText.map (headerLine WWWAuthenticate.name)

/-- What the server adds once a client has authenticated itself. -/
structure AuthenticationInfo where
  nextnonce : Option String := none
  qop : Option String := none
  rspauth : Option String := none
  cnonce : Option String := none
  nc : Option String := none
deriving DecidableEq

def AuthenticationInfo.name : String := "Authentication-Info"

/-- The line of the header, one field after the other. -/
def AuthenticationInfo.toText (h : AuthenticationInfo) : String :=
  headerLine AuthenticationInfo.name (
    (h.nextnonce.elim "" fun nextnonce => "nextnonce=" ++ nextnonce) ++
    (h.qop.elim "" fun qop => ", qop=" ++ qop) ++
    (h.rspauth.elim "" fun rspauth => ", rspauth=" ++ rspauth) ++
    (h.cnonce.elim "" fun cnonce => ", cnonce=" ++ cnonce) ++
    h.nc.elim "" fun nc => ", nc=" ++ nc)

/-! ### Any header -/

/-- A header with a name that has no type of its own. -/
structure RawHeader where
  name : String
  data : String
deriving DecidableEq

/-- The line of the header, with the name and the value as they were read. -/
def RawHeader.toText (h : RawHeader) : String := headerLine h.name h.data

/-- A header. -/
inductive Header where
  | accept (h : Accept)
  | acceptEncoding (h : AcceptEncoding)
  | acceptLanguage (h : AcceptLanguage)
  | alertInfo (h : AlertInfo)
  | allow (h : Allow)
  | authenticationInfo (h : AuthenticationInfo)
  | authorization (h : Authorization)
  | callId (h : CallId)
  | callInfo (h : CallInfo)
  | contact (h : Contact)
  | contentDisposition (h : ContentDisposition)
  | contentEncoding (h : ContentEncoding)
  | contentLanguage (h : ContentLanguage)
  | contentLength (h : ContentLength)
  | contentType (h : ContentType)
  | cSeq (h : CSeq)
  | date (h : Date)
  | errorInfo (h : ErrorInfo)
  | expires (h : Expires)
  | fromHdr (h : From)
  | inReplyTo (h : InReplyTo)
  | maxForwards (h : MaxForwards)
  | minExpires (h : MinExpires)
  | mimeVersion (h : MimeVersion)
  | organization (h : Organization)
  | priority (h : Priority)
  | proxyAuthenticate (h : ProxyAuthenticate)
  | proxyAuthorization (h : ProxyAuthorization)
  | proxyRequire (h : ProxyRequire)
  | retryAfter (h : RetryAfter)
  | route (h : Route)
  | recordRoute (h : RecordRoute)
  | replyTo (h : ReplyTo)
  | require (h : Require)
  | server (h : Server)
  | subject (h : Subject)
  | supported (h : Supported)
  | timestamp (h : Timestamp)
  | toHdr (h : To)
  | unsupported (h : Unsupported)
  | userAgent (h : UserAgent)
  | via (h : Via)
  | warning (h : Warning)
  | wwwAuthenticate (h : WWWAuthenticate)
  | rawHeader (h : RawHeader)
deriving DecidableEq

/-- The line of a header, `none` where its printer panics. -/
def Header.toText : Header → Option String
  | accept h => some h.toText
  | acceptEncoding h => some h.toText
  | acceptLanguage h => some h.toText
  | alertInfo h => some h.toText
  | allow h => some h.toText
  | authenticationInfo h => some h.toText
  | authorization h => h.toText
  | callId h => some h.toText
  | callInfo h => some h.toText
  | contact h => some h.toText
  | contentDisposition h => some h.toText
  | contentEncoding h => some h.toText
  | contentLanguage h => some h.toText
  | contentLength h => some h.toText
  | contentType h => some h.toText
  | cSeq h => some h.toText
  | date h => some h.toText
  | errorInfo h => some h.toText
  | expires h => some h.toText
  | fromHdr h => some h.toText
  | inReplyTo h => some h.toText
  | maxForwards h => some h.toText
  | minExpires h => some h.toText
  | mimeVersion h => some h.toText
  | organization h => some h.toText
  | priority h => some h.toText
  | proxyAuthenticate h => h.toText
  | proxyAuthorization h => h.toText
  | proxyRequire h => some h.toText
  | retryAfter h => some h.toText
  | route h => some h.toText
  | recordRoute h => some h.toText
  | replyTo h => some h.toText
  | require h => some h.toText
  | server h => some h.toText
  | subject h => some h.toText
  | supported h => some h.toText
  | timestamp h => some h.toText
  | toHdr h => some h.toText
  | unsupported h => some h.toText
  | userAgent h => some h.toText
  | via h => some h.toText
  | warning h => some h.toText
  | wwwAuthenticate h => h.toText
  | rawHeader h => some h.toText

/-- A collection of headers. -/
abbrev Headers := List Header

/-- The headers, each line with its end; `none` where a printer panics. -/
def Headers.toText : Headers → Option String
  | [] => some ""
  | h :: hs => do
    let line ← h.toText
    let rest ← Headers.toText hs
    return line ++ "\r\n" ++ rest

end Rssip
