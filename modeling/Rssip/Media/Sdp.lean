import Rssip.Lib.IpAddr
import Rssip.Utils.Scanner

namespace Rssip.Media

open Lib

/-!
# Session descriptions

The data model of SDP, how a description is printed, and the setters that the parser builds one
with.

* `Error` — the errors of the media crate;
* `SessionDescription`, `MediaDescription` and their fields;
* `SessionDescription.encode` — a description as text;
* `setAttr`, `setConnection`, … — a line goes to the last media section, if there is one.
-/

/-! ### Errors -/

/-- Why a text is no integer. -/
inductive IntErrorKind where
  | empty
  | invalidDigit
  | posOverflow
deriving DecidableEq

/-- Why a text is no session description. -/
inductive ParseSdpError where
  | sdpInvalidProtocolVersion
  | sdpUnknowMediaType
  | sdpUnknowAddrType
  | sdpUnknowTransport
  | scannerError (e : ScannerError)
  | syntaxError (s : String)
deriving DecidableEq

/-- The errors of the parser and of the negotiator. -/
inductive Error where
  | parseSdpError (e : ParseSdpError)
  | sdpTimeDescriptionNotFound
  | errNegotiationIsDone
  | errInvalidNegoState
  | parseInt (e : IntErrorKind)
deriving DecidableEq

/-! ### Fields -/

/-- The version of an IP address, as it is written in front of it. -/
inductive AddrType where
  | ip4
  | ip6
deriving DecidableEq

/-- The kind of network of an address. -/
inductive NetType where
  /-- `IN`. -/
  | internet
  | other (name : String)
deriving DecidableEq

/-- Where media is received: the value of a `c` line. -/
structure ConnectionInformation where
  nettype : NetType
  addrtype : AddrType
  conectionAddress : IpAddr
deriving DecidableEq

/-- When a session starts and when it ends: the value of a `t` line. -/
structure TimeActive where
  startTime : UInt64
  stopTime : UInt64
deriving DecidableEq

/-- How a session is repeated: the interval, the duration and the offsets of an `r` line. -/
structure RepeatTimes where
  repeatInterval : Int64
  activeDuration : Int64
  offsets : List Int64 := []
deriving DecidableEq

/-- A time of the session with its repetitions. -/
structure TimeDescription where
  timeActive : TimeActive
  repeatTimes : List RepeatTimes := []
deriving DecidableEq

/-- What a bandwidth is about, as it is written in front of the number. -/
inductive Bwtype where
  | ct
  | as
  | rr
  | rs
  | tias
  | other (name : String)
deriving DecidableEq

/-- A bandwidth: the value of a `b` line. -/
structure BandwidthInformation where
  bwtype : Bwtype
  bandwidth : UInt64
deriving DecidableEq

/-- The value of an `a` line, a flag or a name with a value. -/
structure Attribute where
  name : String
  value : Option String := none
deriving DecidableEq

/-- Who has made the session, with its identifier and version: the value of the `o` line. -/
structure Origin where
  user : String := ""
  sessionId : UInt64 := 0
  sessionVersion : UInt64 := 0
  nettype : NetType := .internet
  addrtype : AddrType := .ip4
  unicastAddress : IpAddr
deriving DecidableEq

/-- The kinds of media of a section. -/
inductive MediaType where
  | audio
  | video
  | text
  | application
  | message
deriving DecidableEq

/-- The protocols over which the media of a section are sent. -/
inductive SdpTransport where
  | udp
  | rtpAvp
  | rtpAvpf
  | rtpSavp
  | rtpSavpf
deriving DecidableEq

/-- A media section: its `m` line, and the lines behind it. -/
structure MediaDescription where
  mediaType : MediaType
  proto : SdpTransport
  port : UInt16
  /-- The count behind the port, a `usize`. -/
  numberOfPorts : Option Nat := none
  mediaFormats : List String := []
  title : Option String := none
  connectionInformation : Option ConnectionInformation := none
  bandwidthInformation : List BandwidthInformation := []
  attributes : List Attribute := []
deriving DecidableEq

/-- A description: the lines of the session, its times, and its media sections in order. -/
structure SessionDescription where
  origin : Origin
  sessionName : String := ""
  sessionInformation : Option String := none
  uri : Option String := none
  emailAddress : Option String := none
  phoneNumber : Option String := none
  connectionInformation : Option ConnectionInformation := none
  bandwidthInformation : List BandwidthInformation := []
  attributes : List Attribute := []
  time : List TimeDescription := []
  media : List MediaDescription := []
deriving DecidableEq

/-- The default description; `localIp` is the address of the system. -/
def SessionDescription.default (localIp : IpAddr) : SessionDescription :=
  { origin := { unicastAddress := localIp } }

/-! ### Printing -/

/-- The name of the address type on a line. -/
def AddrType.toText : AddrType → String
  | ip4 => "IP4"
  | ip6 => "IP6"

/-- The name of the network type on a line. -/
def NetType.toText : NetType → String
  | internet => "IN"
  | other name => name

/-- The name of the bandwidth type on a line. -/
def Bwtype.toText : Bwtype → String
  | ct => "CT"
  | as => "AS"
  | rr => "RR"
  | rs => "RS"
  | tias => "TIAS"
  | other name => name

/-- The name of the media type on a line. -/
def MediaType.toText : MediaType → String
  | audio => "audio"
  | video => "video"
  | text => "text"
  | application => "application"
  | message => "message"

/-- The name of the transport on a line; plain UDP is written in small letters. -/
def SdpTransport.toText : SdpTransport → String
  | udp => "udp"
  | rtpAvp => "RTP/AVP"
  | rtpAvpf => "RTP/AVPF"
  | rtpSavp => "RTP/SAVP"
  | rtpSavpf => "RTP/SAVPF"

/-- A signed integer. -/
def signed (n : Int64) : String :=
  if n < 0 then "-" ++ decimal n.toInt.natAbs else decimal n.toNatClampNeg

/-- The texts of all elements, one after the other. -/
def texts {α : Type} (toText : α → String) (as : List α) : String :=
  as.foldr (fun a rest => toText a ++ rest) ""

/-- The fields of the `o` line, with blanks between them. -/
def Origin.toText (o : Origin) : String :=
  o.user ++ " " ++ decimal o.sessionId.toNat ++ " " ++ decimal o.sessionVersion.toNat ++ " " ++
    o.nettype.toText ++ " " ++ o.addrtype.toText ++ " " ++ o.unicastAddress.toText

/-- The fields of a `c` line, with blanks between them. -/
def ConnectionInformation.toText (c : ConnectionInformation) : String :=
  c.nettype.toText ++ " " ++ c.addrtype.toText ++ " " ++ c.conectionAddress.toText

/-- The type and the number of a `b` line, with a colon between them. -/
def BandwidthInformation.toText (b : BandwidthInformation) : String :=
  b.bwtype.toText ++ ":" ++ decimal b.bandwidth.toNat

/-- The interval, the duration and the offsets of an `r` line, all in seconds. -/
def RepeatTimes.toText (r : RepeatTimes) : String :=
  signed r.repeatInterval ++ " " ++ signed r.activeDuration ++
    texts (fun offset => " " ++ signed offset) r.offsets

/-- The start and the end of a `t` line. -/
def TimeActive.toText (t : TimeActive) : String :=
  decimal t.startTime.toNat ++ " " ++ decimal t.stopTime.toNat

/-- A flag is its name alone; a value comes behind a colon. -/
def Attribute.toText (a : Attribute) : String :=
  a.name ++ a.value.elim "" fun v => ":" ++ v

/-- A line: its field, and what it says. -/
def line (field text : String) : String := field ++ "=" ++ text ++ "\r\n"

/-- The line of a field that may be missing. -/
def lineOf {α : Type} (field : String) (toText : α → String) (value : Option α) : String :=
  value.elim "" fun v => line field (toText v)

/-- A time and its repetitions. -/
def TimeDescription.toText (t : TimeDescription) : String :=
  line "t" t.timeActive.toText ++ texts (fun r => line "r" r.toText) t.repeatTimes

/-- What stands in the line of a media description. -/
def MediaDescription.head (m : MediaDescription) : String :=
  m.mediaType.toText ++ " " ++ decimal m.port.toNat ++
    (m.numberOfPorts.elim "" fun n => "/" ++ decimal n) ++ " " ++ m.proto.toText ++
    texts (fun fmt => " " ++ fmt) m.mediaFormats

/-- A media section.  The title is printed as a line of type `t`. -/
def MediaDescription.toText (m : MediaDescription) : String :=
  line "m" m.head ++ lineOf "t" id m.title ++
    lineOf "c" ConnectionInformation.toText m.connectionInformation ++
    texts (fun b => line "b" b.toText) m.bandwidthInformation ++
    texts (fun a => line "a" a.toText) m.attributes

/-- All lines of a description: the session's own, its times, its attributes, and the media sections
    in order. -/
def SessionDescription.toText (s : SessionDescription) : String :=
  line "v" "0" ++ line "o" s.origin.toText ++ line "s" s.sessionName ++
    lineOf "i" id s.sessionInformation ++ lineOf "u" id s.uri ++ lineOf "e" id s.emailAddress ++
    lineOf "p" id s.phoneNumber ++
    lineOf "c" ConnectionInformation.toText s.connectionInformation ++
    texts (fun b => line "b" b.toText) s.bandwidthInformation ++
    texts TimeDescription.toText s.time ++ texts (fun a => line "a" a.toText) s.attributes ++
    texts MediaDescription.toText s.media

/-- `encode`, as bytes. -/
def SessionDescription.encode (s : SessionDescription) : Bytes := asBytes s.toText

/-! ### Setters -/

/-- The last element is changed. -/
def modifyLast {α : Type} (f : α → α) : List α → List α
  | [] => []
  | [a] => [f a]
  | a :: as => a :: modifyLast f as

/-- The last element is the one that was added at the end. -/
theorem modifyLast_concat {α : Type} (f : α → α) (as : List α) (a : α) :
    modifyLast f (as ++ [a]) = as ++ [f a] := by
  induction as with
  | nil => rfl
  | cons b as ih =>
    cases as with
    | nil => rfl
    | cons c as => exact congrArg (b :: ·) ih

/-- To leave the last element as it is changes nothing. -/
theorem modifyLast_id {α : Type} (as : List α) : modifyLast (fun a => a) as = as := by
  induction as with
  | nil => rfl
  | cons a as ih =>
    cases as with
    | nil => rfl
    | cons b as => exact congrArg (a :: ·) ih

/-- Two changes of the last element are one. -/
theorem modifyLast_modifyLast {α : Type} (f g : α → α) (as : List α) :
    modifyLast g (modifyLast f as) = modifyLast (fun a => g (f a)) as := by
  induction as with
  | nil => rfl
  | cons a as ih =>
    cases as with
    | nil => rfl
    | cons b as =>
      cases as with
      | nil => rfl
      | cons c as => exact congrArg (a :: ·) ih

/-- Each element is one from before, or the changed one. -/
theorem mem_modifyLast {α : Type} {f : α → α} {as : List α} {a : α} (h : a ∈ modifyLast f as) :
    a ∈ as ∨ ∃ b ∈ as, a = f b := by
  induction as with
  | nil => exact absurd h List.not_mem_nil
  | cons b as ih =>
    cases as with
    | nil => exact .inr ⟨b, List.mem_singleton_self b, List.mem_singleton.mp h⟩
    | cons c as =>
      rcases List.mem_cons.mp h with rfl | h
      · exact .inl List.mem_cons_self
      · refine (ih h).imp (List.mem_cons_of_mem _) fun ⟨d, hd, hf⟩ => ⟨d, List.mem_cons_of_mem _ hd, hf⟩

namespace SessionDescription

/-- The `o` line of the session; a later one takes the place of an earlier one. -/
def setOrigin (origin : Origin) (s : SessionDescription) : SessionDescription :=
  { s with origin := origin }

/-- The `s` line of the session; a later one takes the place of an earlier one. -/
def setName (sessionName : String) (s : SessionDescription) : SessionDescription :=
  { s with sessionName := sessionName }

/-- The last media description is changed, or the session if there is none. -/
def onLastMedia (media : MediaDescription → MediaDescription)
    (session : SessionDescription → SessionDescription) (s : SessionDescription) :
    SessionDescription :=
  if s.media.isEmpty then session s else { s with media := modifyLast media s.media }

/-- With a media section it is the last one that changes. -/
theorem onLastMedia_concat (media : MediaDescription → MediaDescription)
    (session : SessionDescription → SessionDescription) (s : SessionDescription)
    (ms : List MediaDescription) (m : MediaDescription) :
    onLastMedia media session { s with media := ms ++ [m] } =
      { s with media := ms ++ [media m] } := by
  have hempty : (ms ++ [m]).isEmpty = false := by simp
  rw [onLastMedia, hempty]
  dsimp only
  rw [if_neg Bool.false_ne_true, modifyLast_concat]

/-- An `i` line is the title of the last media section, or information on the session. -/
def setInformation (info : String) : SessionDescription → SessionDescription :=
  onLastMedia (fun m => { m with title := some info })
    fun s => { s with sessionInformation := some info }

/-- The `e` line of the session, in front of the media sections or behind them. -/
def setEmailAddr (email : String) (s : SessionDescription) : SessionDescription :=
  { s with emailAddress := some email }

/-- The `u` line of the session, in front of the media sections or behind them. -/
def setUri (uri : String) (s : SessionDescription) : SessionDescription :=
  { s with uri := some uri }

/-- An `a` line goes to the last media section, or to the session. -/
def setAttr (attr : Attribute) : SessionDescription → SessionDescription :=
  onLastMedia (fun m => { m with attributes := m.attributes ++ [attr] })
    fun s => { s with attributes := s.attributes ++ [attr] }

/-- A `b` line goes to the session, also behind a media section. -/
def setBandwidthInformation (bandwidth : BandwidthInformation) (s : SessionDescription) :
    SessionDescription :=
  { s with bandwidthInformation := s.bandwidthInformation ++ [bandwidth] }

/-- An `m` line starts a media section. -/
def setMediaDescription (media : MediaDescription) (s : SessionDescription) :
    SessionDescription :=
  { s with media := s.media ++ [media] }

/-- A `t` line starts a time description. -/
def setTimeDesc (time : TimeDescription) (s : SessionDescription) : SessionDescription :=
  { s with time := s.time ++ [time] }

/-- A repetition goes to the last time description. -/
def setRepeatTimes (time : RepeatTimes) (s : SessionDescription) :
    Except Error SessionDescription :=
  if s.time.isEmpty then .error .sdpTimeDescriptionNotFound
  else
    .ok { s with
      time := modifyLast (fun t => { t with repeatTimes := t.repeatTimes ++ [time] }) s.time }

/-- With a time description it is the last one that gets the repetition. -/
theorem setRepeatTimes_concat (time : RepeatTimes) (s : SessionDescription)
    (ts : List TimeDescription) (t : TimeDescription) :
    setRepeatTimes time { s with time := ts ++ [t] } =
      .ok { s with time := ts ++ [{ t with repeatTimes := t.repeatTimes ++ [time] }] } := by
  have hempty : (ts ++ [t]).isEmpty = false := by simp
  rw [setRepeatTimes, hempty]
  dsimp only
  rw [if_neg Bool.false_ne_true, modifyLast_concat]

/-- The `p` line of the session, in front of the media sections or behind them. -/
def setPhone (phone : String) (s : SessionDescription) : SessionDescription :=
  { s with phoneNumber := some phone }

/-- A `c` line goes to the last media section, or to the session. -/
def setConnection (conn : ConnectionInformation) : SessionDescription → SessionDescription :=
  onLastMedia (fun m => { m with connectionInformation := some conn })
    fun s => { s with connectionInformation := some conn }

end SessionDescription

end Rssip.Media
