import Rssip.Lib.Reader
import Rssip.Media.Sdp

namespace Rssip.Media

open Lib

/-!
# The SDP parser

A loop over the lines.  The byte in front of the equals sign says which field a line is, and
lines are stored in the section that was seen last.

* `parseOrigin`, `parseMediaDescription`, … — what stands behind the equals sign;
* `parseField` — a line is stored in the description;
* `SdpParser.parse` — the parser of the crate.
-/

/-- How a parse ends when it gives no value: with an error or, for the model only, in a loop that
    outran its bound. -/
inductive Failure where
  | error (e : Error)
  | stuck
deriving DecidableEq

/-- A computation on the scanner of an `SdpParser`. -/
abbrev Parse := EStateM Failure Scanner

/-- The byte in front of the equals sign. -/
abbrev SdpField := UInt8

namespace SdpField

/-- `v=`: the version of the format, which every description starts with. -/
def protocolVersion : SdpField := 118

/-- `o=`: who has made the session. -/
def origin : SdpField := 111

/-- `s=`: the name of the session. -/
def sessionName : SdpField := 115

/-- `i=`: a text on the session. -/
def sessionInformation : SdpField := 105

/-- `u=`: where there is more on it. -/
def uri : SdpField := 117

/-- `e=`: whom to write to. -/
def emailAddress : SdpField := 101

/-- `p=`: whom to call. -/
def phoneNumber : SdpField := 112

/-- `c=`: the address of the session, or of its last stream. -/
def connectionInformation : SdpField := 99

/-- `b=`: a bandwidth. -/
def bandwidthInformation : SdpField := 98

/-- `t=`: a time of the session. -/
def timeActive : SdpField := 116

/-- `r=`: when the last time comes again. -/
def repeatTime : SdpField := 114

/-- `z=`: changes of the time zone, which are not interpreted. -/
def timeZoneOffset : SdpField := 122

/-- `m=`: the start of a stream. -/
def mediaDescription : SdpField := 109

/-- `a=`: an attribute of the session, or of its last stream. -/
def attributeLine : SdpField := 97

end SdpField

namespace SdpParser

/-- What may stand in a token besides letters and digits. -/
def token : String := "!#$%&'*+-.^_\x60\x7b|\x7d~"

/-- Letters and digits. -/
def alphanumeric : String := "abcdefghijklmnopqrstuvwxyzABCDEFGHIJKLMNOPQRSTUVWXYZ0123456789"

/-- A byte of a token: the name of an attribute or of a media type. -/
def isToken : LookupTable := lookupTable [alphanumeric, token]

/-- What ends the name of the user on the `o` line. -/
def isAsciiWhitespace (b : UInt8) : Bool := b == 32 || b == 9 || b == 10 || b == 12 || b == 13

/-! ### Scans -/

/-- A parse that fails, whatever comes. -/
def fail {α : Type} (e : Error) : Parse α := throw (.error e)

/-- A scan as a parse, `From<ScannerError>`. -/
def ofScan {α : Type} (scan : Scan α) : Parse α := fun s =>
  match scan s with
  | .ok a s => .ok a s
  | .error e s => .error (.error (.parseSdpError (.scannerError e))) s

/-- The next byte, which stays. -/
def peek : Parse (Option UInt8) := do
  return (← get).peek

/-- All line ends that come, also those of empty lines, are passed over. -/
def handleNewLine : Parse Unit := do
  let _ ← modifyGet (Scanner.scanWhile isNewline)

/-- All blanks that come are passed over. -/
def handleWs : Parse Unit := do
  let _ ← modifyGet (Scanner.scanWhile isSpace)

/-- The bytes of a token; there may be none. -/
def readToken : Parse String := modifyGet (Scanner.scanWhileAsStrUnchecked isToken)

/-- The rest of a line as text, an error if it is no UTF-8. -/
def readLine : Parse String := ofScan Scan.scanLine

/-- The letter of a line, and the equals sign behind it. -/
def readField : Parse SdpField := do
  let field ← ofScan Scan.nextByte
  ofScan (Scan.mustRead 61)
  return field

/-- An IP address, or a syntax error that starts with `context`. -/
def ipAddr (context text : String) : Parse IpAddr :=
  match IpAddr.parse text with
  | some ip => return ip
  | none => fail (.parseSdpError (.syntaxError (context ++ "AddrParseError(Ip)")))

/-! ### What the lines say -/

/-- The version has to be 0; what stands behind the digit is left. -/
def parseVersion : Parse Unit :=
  tryCatch (ofScan (Scan.mustRead 48)) fun _ =>
    fail (.parseSdpError .sdpInvalidProtocolVersion)

/-- The type of network by its name; one that is not known keeps its name. -/
def netType (name : String) : NetType := if name = "IN" then .internet else .other name

/-- The fields of the `o` line.  The address has to be an IP address. -/
def parseOrigin : Parse Origin := do
  let user ← ofScan (Scan.scanWhileAsStr fun b => !isAsciiWhitespace b)
  handleWs
  let sessionId ← ofScan Scan.scanU64
  handleWs
  let sessionVersion ← ofScan Scan.scanU64
  handleWs
  let nettype ← netType <$> ofScan (Scan.scanUntilAsStr 32)
  handleWs
  let addrtype ←
    match ← ofScan (Scan.scanUntilAsStr 32) with
    | "IP4" => pure AddrType.ip4
    | "IP6" => pure AddrType.ip6
    | _ => fail (.parseSdpError .sdpUnknowAddrType)
  handleWs
  let unicastAddress ← ipAddr "" (← ofScan (Scan.scanUntilAnyAsStr (asBytes " \t\r\n")))
  handleWs
  return ⟨user, sessionId, sessionVersion, nettype, addrtype, unicastAddress⟩

/-- The network type in front of an address; `IN` needs no blank behind it. -/
def connectionNetType : Parse NetType := do
  if (← get).matchesPrefix (asBytes "IN") then
    modify (Scanner.advanceN 2)
    return .internet
  else return .other (← ofScan (Scan.scanWhileAsStr fun b => !isSpace b))

/-- The type of an address by its three bytes. -/
def addrType (bytes : Option Bytes) : Option AddrType :=
  if bytes = some (asBytes "IP4") then some .ip4
  else if bytes = some (asBytes "IP6") then some .ip6
  else none

/-- The fields of a `c` line.  The address has to be an IP address. -/
def parseConnectionInfo : Parse ConnectionInformation := do
  let nettype ← connectionNetType
  handleWs
  let addrtype ←
    match addrType ((← get).peekN 3) with
    | some addrtype => pure addrtype
    | none => fail (.parseSdpError (.syntaxError "Invalid Addr Type"))
  modify (Scanner.advanceN 3)
  handleWs
  let conectionAddress ← ipAddr "Invalid Connection Address: " (← readLine)
  handleWs
  return ⟨nettype, addrtype, conectionAddress⟩

/-- A loop over elements, each behind a blank.  It ends where there is none, or where a line
    ends. -/
def parseElements {α : Type} (elem : Parse α) : Parse (List α) :=
  loop .stuck (fun elems => do
    if (← modifyGet (Scanner.scanIf isSpace)).isNone then return .inr elems
    let elems := elems ++ [← elem]
    let next ← peek
    if next = some 13 ∨ next = some 10 ∨ next = none then return .inr elems
    return .inl elems) []

/-- The media type by its name; `application`, which is printed, is not among them. -/
def mediaType (name : String) : Option MediaType :=
  match name with
  | "audio" => some .audio
  | "video" => some .video
  | "text" => some .text
  | "message" => some .message
  | _ => none

/-- The protocol by its name, plain UDP in either case. -/
def sdpTransport (bytes : Bytes) : Option SdpTransport :=
  if bytes = asBytes "UDP" ∨ bytes = asBytes "udp" then some .udp
  else if bytes = asBytes "RTP/AVP" then some .rtpAvp
  else if bytes = asBytes "RTP/AVPF" then some .rtpAvpf
  else if bytes = asBytes "RTP/SAVP" then some .rtpSavp
  else if bytes = asBytes "RTP/SAVPF" then some .rtpSavpf
  else none

/-- The fields of an `m` line: media type, port, number of ports, protocol and formats. -/
def parseMediaDescription : Parse MediaDescription := do
  let mediaType ←
    match mediaType (← readToken) with
    | some mediaType => pure mediaType
    | none => fail (.parseSdpError .sdpUnknowMediaType)
  handleWs
  let port ← ofScan Scan.scanU16
  handleWs
  let proto ←
    match sdpTransport (← modifyGet (Scanner.scanWhile fun b => !isSpace b)) with
    | some proto => pure proto
    | none => fail (.parseSdpError .sdpUnknowTransport)
  let mediaFormats ← parseElements readToken
  return { mediaType := mediaType, port := port, proto := proto, mediaFormats := mediaFormats }

/-- The fields of a `t` line, with one blank between them. -/
def parseTime : Parse TimeDescription := do
  let startTime ← ofScan Scan.scanU64
  ofScan (Scan.mustRead 32)
  let stopTime ← ofScan Scan.scanU64
  return { timeActive := ⟨startTime, stopTime⟩ }

/-- The fields of an `r` line, numbers without units. -/
def parseRepeatTimes : Parse RepeatTimes := do
  let repeatInterval ← ofScan Scan.scanI64
  handleWs
  let activeDuration ← ofScan Scan.scanI64
  let offsets ← parseElements (ofScan Scan.scanI64)
  return ⟨repeatInterval, activeDuration, offsets⟩

/-- What a bandwidth is about by its name; one that is not known keeps its name. -/
def bwtype (name : String) : Bwtype :=
  match name with
  | "CT" => .ct
  | "AS" => .as
  | "RR" => .rr
  | "RS" => .rs
  | "TIAS" => .tias
  | other => .other other

/-- The colon behind the type is not read. -/
def parseBandwidth : Parse BandwidthInformation := do
  let bwtype ← bwtype <$> ofScan (Scan.scanUntilAsStr 58)
  let bandwidth ← ofScan Scan.scanU64
  return ⟨bwtype, bandwidth⟩

/-- A name, and what comes behind a colon as its value. -/
def parseAttribute : Parse Attribute := do
  let name ← readToken
  if (← modifyGet (Scanner.scanIfEq 58)).isSome then return ⟨name, some (← readLine)⟩
  else return ⟨name, none⟩

/-- What the value of an `rtpmap` attribute says. -/
structure RtpMap where
  payloadType : String
  encName : String
  clockRate : UInt32
  param : Option String
deriving DecidableEq

/-- The text behind a slash, if there is one. -/
def rtpmapParam : Parse (Option String) := do
  if (← modifyGet (Scanner.scanIfEq 47)).isSome then return some (← readToken)
  else return none

/-- The value of an `rtpmap` attribute: payload type, encoding, clock rate and parameter. -/
def parseRtpmap : Parse RtpMap := do
  let payloadType ← readToken
  handleWs
  let encName ← readToken
  ofScan (Scan.mustRead 47)
  let clockRate ← ofScan Scan.scanU32
  let param ← rtpmapParam
  handleNewLine
  return ⟨payloadType, encName, clockRate, param⟩

/-! ### The loop over the lines -/

/-- What stands behind the equals sign is stored in the description.  Other lines are left as
    they are. -/
def parseField (field : SdpField) (sdp : SessionDescription) : Parse SessionDescription := do
  if field = SdpField.attributeLine then return sdp.setAttr (← parseAttribute)
  else if field = SdpField.protocolVersion then
    parseVersion
    return sdp
  else if field = SdpField.origin then return sdp.setOrigin (← parseOrigin)
  else if field = SdpField.sessionName then return sdp.setName (← readLine)
  else if field = SdpField.connectionInformation then
    return sdp.setConnection (← parseConnectionInfo)
  else if field = SdpField.sessionInformation then return sdp.setInformation (← readLine)
  else if field = SdpField.uri then return sdp.setUri (← readLine)
  else if field = SdpField.emailAddress then return sdp.setEmailAddr (← readLine)
  else if field = SdpField.phoneNumber then return sdp.setPhone (← readLine)
  else if field = SdpField.bandwidthInformation then
    return sdp.setBandwidthInformation (← parseBandwidth)
  else if field = SdpField.timeActive then return sdp.setTimeDesc (← parseTime)
  else if field = SdpField.repeatTime then
    match sdp.setRepeatTimes (← parseRepeatTimes) with
    | .ok sdp => return sdp
    | .error e => fail e
  else if field = SdpField.timeZoneOffset then return sdp
  else if field = SdpField.mediaDescription then
    return sdp.setMediaDescription (← parseMediaDescription)
  else return sdp

/-- One line, if there is one. -/
def parseLine (sdp : SessionDescription) : Parse (SessionDescription ⊕ SessionDescription) := do
  if (← get).isEof then return .inr sdp
  let field ← readField
  let sdp ← parseField field sdp
  handleNewLine
  return .inl sdp

/-- `parse_sdp`; `localIp` is the address of the system, for a description without origin. -/
def parseSdp (localIp : IpAddr) : Parse SessionDescription :=
  loop .stuck parseLine (SessionDescription.default localIp)

/-- Parses `buf` into a description. -/
def parse (localIp : IpAddr) (buf : Bytes) : Except Failure SessionDescription :=
  match parseSdp localIp (Scanner.new buf) with
  | .ok sdp _ => .ok sdp
  | .error failure _ => .error failure

end SdpParser

end Rssip.Media
