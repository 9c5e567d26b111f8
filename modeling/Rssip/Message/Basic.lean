import Rssip.Lib.Utf8
import Rssip.Lib.Numeral

namespace Rssip

open Lib

/-!
# Methods, status codes, transports and parameters

The small types a SIP message is made of, with the text each is printed as and the
conversions back from text.

* `SipMethod`, `StatusCode`, `TransportProtocol` — enumerations with their tables;
* `Param`, `Params` — generic `;name=value` parameters;
* `Q` — quality values.
-/

/-! ### Methods -/

/-- A SIP method. -/
inductive SipMethod where
  | invite
  | ack
  | bye
  | cancel
  | register
  | options
  | info
  | notify
  | subscribe
  | update
  | refer
  | prack
  | message
  | publish
  | unknown
deriving DecidableEq

namespace SipMethod

/-- The methods for whose requests `create_uas` makes a dialog; `UPDATE` is among them. -/
def canEstablishDialog : SipMethod → Bool
  | invite | subscribe | refer | notify | update => true
  | _ => false

/-- The name of a method as it is printed; all methods that are not known have one name. -/
def asStr : SipMethod → String
  | invite => "INVITE"
  | ack => "ACK"
  | bye => "BYE"
  | cancel => "CANCEL"
  | register => "REGISTER"
  | options => "OPTIONS"
  | info => "INFO"
  | notify => "NOTIFY"
  | subscribe => "SUBSCRIBE"
  | update => "UPDATE"
  | refer => "REFER"
  | prack => "PRACK"
  | message => "MESSAGE"
  | publish => "PUBLISH"
  | unknown => "UNKNOWN-SipMethod"

/-- The methods by name. -/
def table : List (String × SipMethod) :=
  [("INVITE", invite), ("CANCEL", cancel), ("ACK", ack), ("BYE", bye), ("REGISTER", register),
   ("OPTIONS", options), ("INFO", info), ("NOTIFY", notify), ("SUBSCRIBE", subscribe),
   ("UPDATE", update), ("REFER", refer), ("PRACK", prack), ("MESSAGE", message),
   ("PUBLISH", publish)]

/-- The method with the given name; every other name is `unknown`. -/
def fromBytes (value : Bytes) : SipMethod :=
  ((table.find? fun entry => asBytes entry.1 == value).map Prod.snd).getD unknown

theorem fromBytes_asStr (m : SipMethod) : fromBytes (asBytes m.asStr) = m := by
  cases m <;> decide

end SipMethod

/-! ### Status codes -/

/-- A status code. -/
inductive StatusCode where
  | trying
  | ringing
  | callIsBeingForwarded
  | queued
  | sessionProgress
  | earlyDialogTerminated
  | ok
  | accepted
  | noNotification
  | multipleChoices
  | movedPermanently
  | movedTemporarily
  | useProxy
  | alternativeService
  | badRequest
  | unauthorized
  | paymentRequired
  | forbidden
  | notFound
  | methodNotAllowed
  | notAcceptable
  | proxyAuthenticationRequired
  | requestTimeout
  | conflict
  | gone
  | lengthRequired
  | conditionalRequestFailed
  | requestEntityTooLarge
  | requestUriTooLong
  | unsupportedMediaType
  | unsupportedUriScheme
  | unknownResourcePriority
  | badExtension
  | extensionRequired
  | sessionIntervalTooSmall
  | intervalTooBrief
  | badLocationInformation
  | useIdentityHeader
  | provideReferrerIdentity
  | flowFailed
  | anonymityDisallowed
  | badIdentityInfo
  | unsupportedCertificate
  | invalidIdentityHeader
  | firstHopLacksOutboundSupport
  | maxBreadthExceeded
  | badInfoPackage
  | consentNeeded
  | temporarilyUnavailable
  | callOrTransactionDoesNotExist
  | loopDetected
  | tooManyHops
  | addressIncomplete
  | ambiguous
  | busyHere
  | requestTerminated
  | notAcceptableHere
  | badEvent
  | requestUpdated
  | requestPending
  | undecipherable
  | securityAgreementRequired
  | serverInternalError
  | notImplemented
  | badGateway
  | serviceUnavailable
  | serverTimeout
  | versionNotSupported
  | messageTooLarge
  | pushNotificationServiceNotSupported
  | preconditionFailure
  | busyEverywhere
  | decline
  | doesNotExistAnywhere
  | notAcceptableAnywhere
  | unwanted
  | rejected
deriving DecidableEq

namespace StatusCode

/-- The number of a status code. -/
def asU16 : StatusCode → Nat
  | .trying => 100
  | .ringing => 180
  | .callIsBeingForwarded => 181
  | .queued => 182
  | .sessionProgress => 183
  | .earlyDialogTerminated => 199
  | .ok => 200
  | .accepted => 202
  | .noNotification => 204
  | .multipleChoices => 300
  | .movedPermanently => 301
  | .movedTemporarily => 302
  | .useProxy => 305
  | .alternativeService => 380
  | .badRequest => 400
  | .unauthorized => 401
  | .paymentRequired => 402
  | .forbidden => 403
  | .notFound => 404
  | .methodNotAllowed => 405
  | .notAcceptable => 406
  | .proxyAuthenticationRequired => 407
  | .requestTimeout => 408
  | .conflict => 409
  | .gone => 410
  | .lengthRequired => 411
  | .conditionalRequestFailed => 412
  | .requestEntityTooLarge => 413
  | .requestUriTooLong => 414
  | .unsupportedMediaType => 415
  | .unsupportedUriScheme => 416
  | .unknownResourcePriority => 417
  | .badExtension => 420
  | .extensionRequired => 421
  | .sessionIntervalTooSmall => 422
  | .intervalTooBrief => 423
  | .badLocationInformation => 424
  | .useIdentityHeader => 428
  | .provideReferrerIdentity => 429
  | .flowFailed => 430
  | .anonymityDisallowed => 433
  | .badIdentityInfo => 436
  | .unsupportedCertificate => 437
  | .invalidIdentityHeader => 438
  | .firstHopLacksOutboundSupport => 439
  | .maxBreadthExceeded => 440
  | .badInfoPackage => 469
  | .consentNeeded => 470
  | .temporarilyUnavailable => 480
  | .callOrTransactionDoesNotExist => 481
  | .loopDetected => 482
  | .tooManyHops => 483
  | .addressIncomplete => 484
  | .ambiguous => 485
  | .busyHere => 486
  | .requestTerminated => 487
  | .notAcceptableHere => 488
  | .badEvent => 489
  | .requestUpdated => 490
  | .requestPending => 491
  | .undecipherable => 493
  | .securityAgreementRequired => 494
  | .serverInternalError => 500
  | .notImplemented => 501
  | .badGateway => 502
  | .serviceUnavailable => 503
  | .serverTimeout => 504
  | .versionNotSupported => 505
  | .messageTooLarge => 513
  | .pushNotificationServiceNotSupported => 555
  | .preconditionFailure => 580
  | .busyEverywhere => 600
  | .decline => 603
  | .doesNotExistAnywhere => 604
  | .notAcceptableAnywhere => 606
  | .unwanted => 607
  | .rejected => 608

/-- The codes by their three digits. -/
def table : List (String × StatusCode) :=
  [("100", .trying), ("180", .ringing), ("181", .callIsBeingForwarded), ("182", .queued),
   ("183", .sessionProgress), ("199", .earlyDialogTerminated), ("200", .ok), ("202", .accepted),
   ("204", .noNotification), ("300", .multipleChoices), ("301", .movedPermanently),
   ("302", .movedTemporarily), ("305", .useProxy), ("380", .alternativeService),
   ("400", .badRequest), ("401", .unauthorized), ("402", .paymentRequired), ("403", .forbidden),
   ("404", .notFound), ("405", .methodNotAllowed), ("406", .notAcceptable),
   ("407", .proxyAuthenticationRequired), ("408", .requestTimeout), ("409", .conflict),
   ("410", .gone), ("411", .lengthRequired), ("412", .conditionalRequestFailed),
   ("413", .requestEntityTooLarge), ("414", .requestUriTooLong), ("415", .unsupportedMediaType),
   ("416", .unsupportedUriScheme), ("417", .unknownResourcePriority), ("420", .badExtension),
   ("421", .extensionRequired), ("422", .sessionIntervalTooSmall), ("423", .intervalTooBrief),
   ("424", .badLocationInformation), ("428", .useIdentityHeader),
   ("429", .provideReferrerIdentity), ("430", .flowFailed), ("433", .anonymityDisallowed),
   ("436", .badIdentityInfo), ("437", .unsupportedCertificate), ("438", .invalidIdentityHeader),
   ("439", .firstHopLacksOutboundSupport), ("440", .maxBreadthExceeded),
   ("469", .badInfoPackage), ("470", .consentNeeded), ("480", .temporarilyUnavailable),
   ("481", .callOrTransactionDoesNotExist), ("482", .loopDetected), ("483", .tooManyHops),
   ("484", .addressIncomplete), ("485", .ambiguous), ("486", .busyHere),
   ("487", .requestTerminated), ("488", .notAcceptableHere), ("489", .badEvent),
   ("490", .requestUpdated), ("491", .requestPending), ("493", .undecipherable),
   ("494", .securityAgreementRequired), ("500", .serverInternalError), ("501", .notImplemented),
   ("502", .badGateway), ("503", .serviceUnavailable), ("504", .serverTimeout),
   ("505", .versionNotSupported), ("513", .messageTooLarge),
   ("555", .pushNotificationServiceNotSupported), ("580", .preconditionFailure),
   ("600", .busyEverywhere), ("603", .decline), ("604", .doesNotExistAnywhere),
   ("606", .notAcceptableAnywhere), ("607", .unwanted), ("608", .rejected)]

/-- The status code with the given digits. -/
def tryFrom (code : Bytes) : Option StatusCode :=
  (table.find? fun entry => asBytes entry.1 == code).map Prod.snd

theorem tryFrom_asU16 (c : StatusCode) : tryFrom (asBytes (decimal c.asU16)) = some c := by
  cases c <;> decide

/-- The debug text of a status code. -/
def debug : StatusCode → String
  | .trying => "Trying"
  | .ringing => "Ringing"
  | .callIsBeingForwarded => "CallIsBeingForwarded"
  | .queued => "Queued"
  | .sessionProgress => "SessionProgress"
  | .earlyDialogTerminated => "EarlyDialogTerminated"
  | .ok => "Ok"
  | .accepted => "Accepted"
  | .noNotification => "NoNotification"
  | .multipleChoices => "MultipleChoices"
  | .movedPermanently => "MovedPermanently"
  | .movedTemporarily => "MovedTemporarily"
  | .useProxy => "UseProxy"
  | .alternativeService => "AlternativeService"
  | .badRequest => "BadRequest"
  | .unauthorized => "Unauthorized"
  | .paymentRequired => "PaymentRequired"
  | .forbidden => "Forbidden"
  | .notFound => "NotFound"
  | .methodNotAllowed => "MethodNotAllowed"
  | .notAcceptable => "NotAcceptable"
  | .proxyAuthenticationRequired => "ProxyAuthenticationRequired"
  | .requestTimeout => "RequestTimeout"
  | .conflict => "Conflict"
  | .gone => "Gone"
  | .lengthRequired => "LengthRequired"
  | .conditionalRequestFailed => "ConditionalRequestFailed"
  | .requestEntityTooLarge => "RequestEntityTooLarge"
  | .requestUriTooLong => "RequestUriTooLong"
  | .unsupportedMediaType => "UnsupportedMediaType"
  | .unsupportedUriScheme => "UnsupportedUriScheme"
  | .unknownResourcePriority => "UnknownResourcePriority"
  | .badExtension => "BadExtension"
  | .extensionRequired => "ExtensionRequired"
  | .sessionIntervalTooSmall => "SessionIntervalTooSmall"
  | .intervalTooBrief => "IntervalTooBrief"
  | .badLocationInformation => "BadLocationInformation"
  | .useIdentityHeader => "UseIdentityHeader"
  | .provideReferrerIdentity => "ProvideReferrerIdentity"
  | .flowFailed => "FlowFailed"
  | .anonymityDisallowed => "AnonymityDisallowed"
  | .badIdentityInfo => "BadIdentityInfo"
  | .unsupportedCertificate => "UnsupportedCertificate"
  | .invalidIdentityHeader => "InvalidIdentityHeader"
  | .firstHopLacksOutboundSupport => "FirstHopLacksOutboundSupport"
  | .maxBreadthExceeded => "MaxBreadthExceeded"
  | .badInfoPackage => "BadInfoPackage"
  | .consentNeeded => "ConsentNeeded"
  | .temporarilyUnavailable => "TemporarilyUnavailable"
  | .callOrTransactionDoesNotExist => "CallOrTransactionDoesNotExist"
  | .loopDetected => "LoopDetected"
  | .tooManyHops => "TooManyHops"
  | .addressIncomplete => "AddressIncomplete"
  | .ambiguous => "Ambiguous"
  | .busyHere => "BusyHere"
  | .requestTerminated => "RequestTerminated"
  | .notAcceptableHere => "NotAcceptableHere"
  | .badEvent => "BadEvent"
  | .requestUpdated => "RequestUpdated"
  | .requestPending => "RequestPending"
  | .undecipherable => "Undecipherable"
  | .securityAgreementRequired => "SecurityAgreementRequired"
  | .serverInternalError => "ServerInternalError"
  | .notImplemented => "NotImplemented"
  | .badGateway => "BadGateway"
  | .serviceUnavailable => "ServiceUnavailable"
  | .serverTimeout => "ServerTimeout"
  | .versionNotSupported => "VersionNotSupported"
  | .messageTooLarge => "MessageTooLarge"
  | .pushNotificationServiceNotSupported => "PushNotificationServiceNotSupported"
  | .preconditionFailure => "PreconditionFailure"
  | .busyEverywhere => "BusyEverywhere"
  | .decline => "Decline"
  | .doesNotExistAnywhere => "DoesNotExistAnywhere"
  | .notAcceptableAnywhere => "NotAcceptableAnywhere"
  | .unwanted => "Unwanted"
  | .rejected => "Rejected"

/-- The reason phrase that goes with a status code. -/
def reason : StatusCode → String
  | .trying => "Trying"
  | .ringing => "Ringing"
  | .callIsBeingForwarded => "Call Is Being Forwarded"
  | .queued => "Queued"
  | .sessionProgress => "InviteSession Progress"
  | .earlyDialogTerminated => "Early Dialog Terminated"
  | .ok => "OK"
  | .accepted => "Accepted"
  | .noNotification => "No Notification"
  | .multipleChoices => "Multiple Choices"
  | .movedPermanently => "Moved Permanently"
  | .movedTemporarily => "Moved Temporarily"
  | .useProxy => "Use Proxy"
  | .alternativeService => "Alternative Service"
  | .badRequest => "Bad Request"
  | .unauthorized => "Unauthorized"
  | .paymentRequired => "Payment Required"
  | .forbidden => "Forbidden"
  | .notFound => "Not Found"
  | .methodNotAllowed => "Method Not Allowed"
  | .notAcceptable => "Not Acceptable"
  | .proxyAuthenticationRequired => "Proxy Authentication Required"
  | .requestTimeout => "Request Timeout"
  | .conflict => "Conflict"
  | .gone => "Gone"
  | .lengthRequired => "Length Required"
  | .conditionalRequestFailed => "Conditional Request Failed"
  | .requestEntityTooLarge => "Request Entity Too Large"
  | .requestUriTooLong => "Request URI Too Long"
  | .unsupportedMediaType => "Unsupported Media Type"
  | .unsupportedUriScheme => "Unsupported URI Scheme"
  | .unknownResourcePriority => "Unknown Resource Priority"
  | .badExtension => "Bad Extension"
  | .extensionRequired => "Extension Required"
  | .sessionIntervalTooSmall => "InviteSession Interval Too Small"
  | .intervalTooBrief => "Interval Too Brief"
  | .badLocationInformation => "Bad Location Information"
  | .useIdentityHeader => "Use Identity Header"
  | .provideReferrerIdentity => "Provide Referrer Identity"
  | .flowFailed => "Flow Failed"
  | .anonymityDisallowed => "Anonymity Disallowed"
  | .badIdentityInfo => "Bad Identity Info"
  | .unsupportedCertificate => "Unsupported Certificate"
  | .invalidIdentityHeader => "Invalid Identity Header"
  | .firstHopLacksOutboundSupport => "First Hop Lacks Outbound Support"
  | .maxBreadthExceeded => "Max Breadth Exceeded"
  | .badInfoPackage => "Bad Info Package"
  | .consentNeeded => "Consent Needed"
  | .temporarilyUnavailable => "Temporarily Unavailable"
  | .callOrTransactionDoesNotExist => "Call or Transaction Does Not Exist"
  | .loopDetected => "Loop Detected"
  | .tooManyHops => "Too Many Hops"
  | .addressIncomplete => "Address Incomplete"
  | .ambiguous => "Ambiguous"
  | .busyHere => "Busy Here"
  | .requestTerminated => "Request Terminated"
  | .notAcceptableHere => "Not Acceptable Here"
  | .badEvent => "Bad Event"
  | .requestUpdated => "Request Updated"
  | .requestPending => "Request Pending"
  | .undecipherable => "Undecipherable"
  | .securityAgreementRequired => "Security Agreement Required"
  | .serverInternalError => "Server Internal Error"
  | .notImplemented => "Not Implemented"
  | .badGateway => "Bad Gateway"
  | .serviceUnavailable => "Service Unavailable"
  | .serverTimeout => "Server Timeout"
  | .versionNotSupported => "Version Not Supported"
  | .messageTooLarge => "Message Too Large"
  | .pushNotificationServiceNotSupported => "Push Notification Service Not Supported"
  | .preconditionFailure => "Precondition Failure"
  | .busyEverywhere => "Busy Everywhere"
  | .decline => "Decline"
  | .doesNotExistAnywhere => "Does Not Exist Anywhere"
  | .notAcceptableAnywhere => "Not Acceptable Anywhere"
  | .unwanted => "Unwanted"
  | .rejected => "Rejected"

/-- The codes from 100 to 199. -/
def isProvisional (c : StatusCode) : Bool := 100 ≤ c.asU16 && c.asU16 ≤ 199

/-- All other codes, also those below 100 if there were any. -/
def isFinal (c : StatusCode) : Bool := !c.isProvisional

end StatusCode

/-! ### Transports -/

/-- The transports that a `Via` and a URI can name. -/
inductive TransportProtocol where
  | udp
  | tcp
  | ws
  | wss
  | tls
  | sctp
deriving DecidableEq

instance : Inhabited TransportProtocol := ⟨.udp⟩

namespace TransportProtocol

/-- All transports but UDP keep what is sent, and its order. -/
def isReliable : TransportProtocol → Bool
  | tcp | tls | sctp | wss | ws => true
  | udp => false

/-- The name of a transport, as it is printed in URIs. -/
def asLowerCase : TransportProtocol → String
  | udp => "udp"
  | tcp => "tcp"
  | ws => "ws"
  | wss => "wss"
  | tls => "tls"
  | sctp => "sctp"

/-- The name of a transport, as it is printed in `Via` headers. -/
def asUpperCase : TransportProtocol → String
  | udp => "UDP"
  | tcp => "TCP"
  | tls => "TLS"
  | sctp => "SCTP"
  | ws => "WS"
  | wss => "WSS"

/-- The transports by name, in the order they are compared. -/
def table : List (String × TransportProtocol) :=
  [("udp", udp), ("tcp", tcp), ("ws", ws), ("wss", wss), ("tls", tls), ("sctp", sctp)]

/-- The transport with the given name, in either case. -/
def fromStr (s : String) : Option TransportProtocol :=
  (table.find? fun entry => eqIgnoreAsciiCase (asBytes s) (asBytes entry.1)).map Prod.snd

theorem fromStr_asLowerCase (t : TransportProtocol) : fromStr t.asLowerCase = some t := by
  cases t <;> decide

theorem fromStr_asUpperCase (t : TransportProtocol) : fromStr t.asUpperCase = some t := by
  cases t <;> decide

end TransportProtocol

/-! ### Parameters -/

/-- A generic parameter. -/
structure Param where
  name : String
  value : Option String
deriving DecidableEq

/-- A list of parameters. -/
structure Params where
  inner : List Param := []
deriving DecidableEq, Inhabited

/-- A parameter with the semicolon in front of it. -/
def Param.toText (p : Param) : String :=
  ";" ++ p.name ++ p.value.elim "" fun v => "=" ++ v

/-- All parameters, in order. -/
def Params.toText (ps : Params) : String :=
  ps.inner.foldr (fun p rest => p.toText ++ rest) ""

namespace Params

/-- The names of the parameters that have a field of their own. -/
def tag : String := "tag"
def q : String := "q"
def expires : String := "expires"
def user : String := "user"
def method : String := "method"
def transport : String := "transport"
def ttl : String := "ttl"
def lr : String := "lr"
def maddr : String := "maddr"
def branch : String := "branch"
def rport : String := "rport"
def received : String := "received"

end Params

/-! ### Quality values -/

/-- A quality value, by the numbers before and after the point. -/
structure Q where
  a : UInt8
  b : UInt8
deriving DecidableEq

/-- `str::parse` for an unsigned 8-bit integer. -/
def u8FromStr (s : String) : Option UInt8 := UInt8.ofNat <$> parseUnsigned (2 ^ 8) (asBytes s)

/-- `str::parse` for an unsigned 16-bit integer. -/
def u16FromStr (s : String) : Option UInt16 := UInt16.ofNat <$> parseUnsigned (2 ^ 16) (asBytes s)

/-- `str::parse` for an unsigned 32-bit integer. -/
def u32FromStr (s : String) : Option UInt32 := UInt32.ofNat <$> parseUnsigned (2 ^ 32) (asBytes s)

theorem u8FromStr_decimal (n : UInt8) : u8FromStr (decimal n.toNat) = some n := by
  simp [u8FromStr, parseUnsigned_decimal n.toNat_lt]

theorem u16FromStr_decimal (n : UInt16) : u16FromStr (decimal n.toNat) = some n := by
  simp [u16FromStr, parseUnsigned_decimal n.toNat_lt]

/-- The parts before and after the last `sep`. -/
def rsplitOnce (sep : UInt8) : Bytes → Option (Bytes × Bytes)
  | [] => none
  | b :: bs =>
    match rsplitOnce sep bs with
    | some (before, after) => some (b :: before, after)
    | none => if b = sep then some ([], bs) else none

theorem rsplitOnce_of_not_mem {sep : UInt8} {bs : Bytes} (h : sep ∉ bs) :
    rsplitOnce sep bs = none := by
  induction bs with
  | nil => rfl
  | cons b bs ih =>
    rw [List.mem_cons, not_or] at h
    rw [rsplitOnce, ih h.2]
    exact if_neg fun heq => h.1 heq.symm

theorem rsplitOnce_append {sep : UInt8} (xs : Bytes) {ys : Bytes} (h : sep ∉ ys) :
    rsplitOnce sep (xs ++ sep :: ys) = some (xs, ys) := by
  induction xs with
  | nil =>
    rw [List.nil_append, rsplitOnce, rsplitOnce_of_not_mem h]
    exact if_pos rfl
  | cons x xs ih => rw [List.cons_append, rsplitOnce, ih]

/-- The number in front of the last point and the one behind it, each below 256. -/
def Q.fromStr (s : String) : Option Q :=
  match rsplitOnce 46 (asBytes s) with
  | some (a, b) => do
    let a ← u8FromStr (fromUtf8Unchecked a)
    let b ← u8FromStr (fromUtf8Unchecked b)
    return ⟨a, b⟩
  | none => (u8FromStr s).map fun n => ⟨n, 0⟩

/-- The parameter of a quality value; zeros in front of its fraction are lost. -/
def Q.toText (q : Q) : String := ";q=" ++ decimal q.a.toNat ++ "." ++ decimal q.b.toNat

end Rssip
