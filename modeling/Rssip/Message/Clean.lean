import Rssip.Message.Message
import Rssip.Utils.Scanner

namespace Rssip

open Lib

/-!
# Headers without line ends

A header whose strings have no line ends is printed as one line.

* `Texts` — the string fields of a value, those of its parts included;
* `Clean` — none of them has a line end;
* `Header.clean_toText` — a clean header is printed without line ends.
-/

variable {α β : Type}

/-! ### The strings of a value -/

/-- The types that have texts in them. -/
class Texts (α : Type) where
  texts : α → List String

export Texts (texts)

instance : Texts String := ⟨fun s => [s]⟩
instance [Texts α] : Texts (Option α) := ⟨fun o => o.toList.flatMap texts⟩
instance [Texts α] : Texts (List α) := ⟨fun as => as.flatMap texts⟩
instance [Texts α] [Texts β] : Texts (α × β) := ⟨fun p => texts p.1 ++ texts p.2⟩

instance : Texts Param := ⟨fun p => texts p.name ++ texts p.value⟩
instance : Texts Params := ⟨fun ps => texts ps.inner⟩

instance : Texts Host := ⟨fun
  | .hostName name => texts name
  | .ipAddr _ => []⟩

instance : Texts HostPort := ⟨fun h => texts h.host⟩
instance : Texts UserInfo := ⟨fun u => texts u.user ++ texts u.pass⟩
instance : Texts UriHeaders := ⟨fun h => texts h.params⟩

instance : Texts Uri := ⟨fun u => texts u.user ++ texts u.hostPort ++ texts u.userParam ++
  texts u.maddrParam ++ texts u.params ++ texts u.headers⟩

instance : Texts NameAddr := ⟨fun a => texts a.display ++ texts a.uri⟩

instance : Texts SipUri := ⟨fun
  | .uri u => texts u
  | .nameAddr a => texts a⟩

instance : Texts Via := ⟨fun v => texts v.sentBy ++ texts v.maddr ++ texts v.branch ++
  texts v.comment ++ texts v.params⟩

instance : Texts From := ⟨fun h => texts h.uri ++ texts h.tag ++ texts h.params⟩
instance : Texts To := ⟨fun h => texts h.uri ++ texts h.tag ++ texts h.params⟩
instance : Texts Contact := ⟨fun h => texts h.uri ++ texts h.param⟩
instance : Texts ReplyTo := ⟨fun h => texts h.uri ++ texts h.param⟩
instance : Texts Route := ⟨fun h => texts h.nameAddr ++ texts h.params⟩
instance : Texts RecordRoute := ⟨fun h => texts h.addr ++ texts h.params⟩
instance : Texts CallId := ⟨fun h => texts h.id⟩
instance : Texts InReplyTo := ⟨fun h => texts h.ids⟩
instance : Texts LanguageTag := ⟨fun t => texts t.tag⟩
instance : Texts MediaType := ⟨fun m => texts m.mimetype.mtype ++ texts m.mimetype.subtype ++
  texts m.params⟩
instance : Texts Coding := ⟨fun c => texts c.coding ++ texts c.params⟩
instance : Texts Language := ⟨fun l => texts l.language ++ texts l.params⟩
instance : Texts ContentDisposition := ⟨fun h => texts h.type ++ texts h.params⟩
instance : Texts AlertInfo := ⟨fun h => texts h.url ++ texts h.params⟩
instance : Texts CallInfo := ⟨fun h => texts h.url ++ texts h.purpose ++ texts h.params⟩
instance : Texts ErrorInfoUri := ⟨fun e => texts e.url ++ texts e.params⟩
instance : Texts RetryAfter := ⟨fun h => texts h.param ++ texts h.comment⟩
instance : Texts F32 := ⟨fun _ => []⟩
instance : Texts Timestamp := ⟨fun h => texts h.time ++ texts h.delay⟩
instance : Texts Warning := ⟨fun h => texts h.host ++ texts h.text⟩

instance : Texts DigestChallenge := ⟨fun c => texts [c.realm, c.domain, c.nonce, c.opaqueParam,
  c.stale, c.algorithm, c.qop]⟩

instance : Texts DigestCredential := ⟨fun c => texts [c.realm, c.username, c.nonce, c.uri,
  c.response, c.algorithm, c.cnonce, c.opaqueParam, c.qop, c.nc]⟩

instance : Texts AuthenticationInfo := ⟨fun h => texts [h.nextnonce, h.qop, h.rspauth, h.cnonce,
  h.nc]⟩

instance : Texts Challenge := ⟨fun
  | .digest c => texts c
  | .other scheme params => texts scheme ++ texts params⟩

instance : Texts Credential := ⟨fun
  | .digest c => texts c
  | .other scheme param => texts scheme ++ texts param⟩

instance : Texts RawHeader := ⟨fun h => texts h.name ++ texts h.data⟩

instance : Texts Header := ⟨fun
  | .accept h => texts h.mtypes
  | .acceptEncoding h => texts h.codings
  | .acceptLanguage h => texts h.languages
  | .alertInfo h => texts h
  | .allow _ => []
  | .authenticationInfo h => texts h
  | .authorization h => texts h.credential
  | .callId h => texts h
  | .callInfo h => texts h
  | .contact h => texts h
  | .contentDisposition h => texts h
  | .contentEncoding h => texts h.codings
  | .contentLanguage h => texts h.languages
  | .contentLength _ => []
  | .contentType h => texts h.mediaType
  | .cSeq _ => []
  | .date h => texts h.date
  | .errorInfo h => texts h.infos
  | .expires _ => []
  | .fromHdr h => texts h
  | .inReplyTo h => texts h
  | .maxForwards _ => []
  | .minExpires _ => []
  | .mimeVersion _ => []
  | .organization h => texts h.organization
  | .priority h => texts h.priority
  | .proxyAuthenticate h => texts h.challenge
  | .proxyAuthorization h => texts h.credential
  | .proxyRequire h => texts h.tags
  | .retryAfter h => texts h
  | .route h => texts h
  | .recordRoute h => texts h
  | .replyTo h => texts h
  | .require h => texts h.tags
  | .server h => texts h.server
  | .subject h => texts h.subject
  | .supported h => texts h.tags
  | .timestamp h => texts h
  | .toHdr h => texts h
  | .unsupported h => texts h.tags
  | .userAgent h => texts h.agent
  | .via h => texts h
  | .warning h => texts h
  | .wwwAuthenticate h => texts h.challenge
  | .rawHeader h => texts h⟩

/-! ### Clean values -/

/-- No byte of a line end. -/
def CleanBytes (bs : Bytes) : Prop := ∀ b ∈ bs, isNewline b = false

instance (bs : Bytes) : Decidable (CleanBytes bs) :=
  inferInstanceAs (Decidable (∀ b ∈ bs, isNewline b = false))

/-- What is left of a clean buffer is clean: a suffix has no byte that the buffer does not have. -/
theorem CleanBytes.suffix {bs cs : Bytes} (h : CleanBytes bs) (hsuffix : cs <:+ bs) :
    CleanBytes cs := fun b hb => h b (hsuffix.subset hb)

/-- No string of the value has a line end. -/
def Clean [Texts α] (a : α) : Prop := ∀ s ∈ texts a, CleanBytes (asBytes s)

instance [Texts α] (a : α) : Decidable (Clean a) :=
  inferInstanceAs (Decidable (∀ s ∈ texts a, CleanBytes (asBytes s)))

/-- For a text, being clean is being clean byte by byte, as the parser will read it. -/
theorem clean_string {s : String} : Clean s ↔ CleanBytes (asBytes s) := by
  simp [Clean, texts]

/-- A concatenation is clean exactly when both of its parts are, so a printed line is judged part by
    part. -/
@[simp] theorem clean_append {s t : String} : Clean (s ++ t) ↔ Clean s ∧ Clean t := by
  simp [clean_string, CleanBytes, or_imp, forall_and]

/-- A field that is absent holds no text, so nothing in it could break a line. -/
@[simp] theorem clean_none [Texts α] : Clean (none : Option α) := by simp [Clean, texts]

/-- A field that is present is judged by the text it holds. -/
@[simp] theorem clean_some [Texts α] {a : α} : Clean (some a) ↔ Clean a := by
  simp [Clean, texts]

/-- The empty list holds no text: the end of the induction over the values of a header. -/
@[simp] theorem clean_nil [Texts α] : Clean ([] : List α) := by simp [Clean, texts]

/-- A list is clean when its first value and the remaining ones are, the shape in which `simp` walks
    through a header's values. -/
@[simp] theorem clean_cons [Texts α] {a : α} {as : List α} :
    Clean (a :: as) ↔ Clean a ∧ Clean as := by
  simp [Clean, texts, or_imp, forall_and]

/-- The same for a list as a whole: every value of it is clean. -/
theorem clean_list [Texts α] {as : List α} : Clean as ↔ ∀ a ∈ as, Clean a := by
  simp only [Clean, texts, List.mem_flatMap]
  exact ⟨fun h a ha s hs => h s ⟨a, ha, hs⟩, fun h s ⟨a, ha, hs⟩ => h a ha s hs⟩

/-! ### Clean parts -/

section Parts

/-- A pair is clean when both of its components are. -/
@[simp] theorem clean_prod [Texts α] [Texts β] {p : α × β} : Clean p ↔ Clean p.1 ∧ Clean p.2 := by
  simp only [Clean, texts, List.mem_append, or_imp, forall_and]

/-- A parameter holds two texts, its name and its value; the value may be absent. -/
@[simp] theorem clean_param {p : Param} : Clean p ↔ Clean p.name ∧ Clean p.value := by
  simp only [Clean, texts, List.mem_append, or_imp, forall_and]

/-- A parameter list is judged by the parameters it wraps. -/
@[simp] theorem clean_params {ps : Params} : Clean ps ↔ Clean ps.inner := Iff.rfl

/-- Only the host of a `host:port` is text: the port is a number and prints as digits. -/
@[simp] theorem clean_hostPort {h : HostPort} : Clean h ↔ Clean h.host := Iff.rfl

/-- The user part of a URI holds the user and, where there is one, the password. -/
@[simp] theorem clean_userInfo {u : UserInfo} : Clean u ↔ Clean u.user ∧ Clean u.pass := by
  simp only [Clean, texts, List.mem_append, or_imp, forall_and]

/-- The headers of a URI are judged as the parameters they are kept as. -/
@[simp] theorem clean_uriHeaders {h : UriHeaders} : Clean h ↔ Clean h.params := Iff.rfl

/-- The texts of a URI: user part, host, the parameters with fields of their own that hold text, and
    the two lists. The scheme and the numbers print from fixed alphabets. -/
@[simp] theorem clean_uri {u : Uri} : Clean u ↔ Clean u.user ∧ Clean u.hostPort ∧
    Clean u.userParam ∧ Clean u.maddrParam ∧ Clean u.params ∧ Clean u.headers := by
  simp only [Clean, texts, List.mem_append, or_imp, forall_and, and_assoc]

/-- A name-addr holds the display name and the URI between the angle brackets. -/
@[simp] theorem clean_nameAddr {a : NameAddr} : Clean a ↔ Clean a.display ∧ Clean a.uri := by
  simp only [Clean, texts, List.mem_append, or_imp, forall_and]

/-- The texts of a Via: where the sender listens, the parameters `maddr`, `branch` and comment, and
    the rest. An address in `received` and the numbers print clean by themselves. -/
@[simp] theorem clean_via {v : Via} : Clean v ↔ Clean v.sentBy ∧ Clean v.maddr ∧
    Clean v.branch ∧ Clean v.comment ∧ Clean v.params := by
  simp only [Clean, texts, List.mem_append, or_imp, forall_and, and_assoc]

/-- A From holds its URI, the tag that the parser moved to a field of its own, and the other
    parameters. -/
@[simp] theorem clean_from {h : From} : Clean h ↔ Clean h.uri ∧ Clean h.tag ∧ Clean h.params := by
  simp only [Clean, texts, List.mem_append, or_imp, forall_and, and_assoc]

/-- A To holds the same three fields as a From. -/
@[simp] theorem clean_to {h : To} : Clean h ↔ Clean h.uri ∧ Clean h.tag ∧ Clean h.params := by
  simp only [Clean, texts, List.mem_append, or_imp, forall_and, and_assoc]

/-- A Contact holds its URI and the parameters left over after `q` and `expires`, which are numbers.
    -/
@[simp] theorem clean_contact {h : Contact} : Clean h ↔ Clean h.uri ∧ Clean h.param := by
  simp only [Clean, texts, List.mem_append, or_imp, forall_and]

/-- A Reply-To holds its URI and the parameters after it. -/
@[simp] theorem clean_replyTo {h : ReplyTo} : Clean h ↔ Clean h.uri ∧ Clean h.param := by
  simp only [Clean, texts, List.mem_append, or_imp, forall_and]

/-- A Route holds a name-addr and the parameters behind the angle bracket. -/
@[simp] theorem clean_route {h : Route} : Clean h ↔ Clean h.nameAddr ∧ Clean h.params := by
  simp only [Clean, texts, List.mem_append, or_imp, forall_and]

/-- A Record-Route holds the same two fields as a Route, under other names. -/
@[simp] theorem clean_recordRoute {h : RecordRoute} : Clean h ↔ Clean h.addr ∧ Clean h.params := by
  simp only [Clean, texts, List.mem_append, or_imp, forall_and]

/-- A Call-ID is one opaque text. -/
@[simp] theorem clean_callId {h : CallId} : Clean h ↔ Clean h.id := Iff.rfl

/-- An In-Reply-To is a list of Call-IDs. -/
@[simp] theorem clean_inReplyTo {h : InReplyTo} : Clean h ↔ Clean h.ids := Iff.rfl

/-- A language tag is the text that the header lists. -/
@[simp] theorem clean_languageTag {t : LanguageTag} : Clean t ↔ Clean t.tag := Iff.rfl

/-- The media type of a body: the two halves of the MIME type and the parameters. -/
@[simp] theorem clean_mediaType {m : MediaType} : Clean m ↔ Clean m.mimetype.mtype ∧
    Clean m.mimetype.subtype ∧ Clean m.params := by
  simp only [Clean, texts, List.mem_append, or_imp, forall_and, and_assoc]

/-- A coding of Accept-Encoding with its parameters; its quality value is a number. -/
@[simp] theorem clean_coding {c : Coding} : Clean c ↔ Clean c.coding ∧ Clean c.params := by
  simp only [Clean, texts, List.mem_append, or_imp, forall_and]

/-- A language of Accept-Language with its parameters; its quality value is a number. -/
@[simp] theorem clean_language {l : Language} : Clean l ↔ Clean l.language ∧ Clean l.params := by
  simp only [Clean, texts, List.mem_append, or_imp, forall_and]

/-- A Content-Disposition holds its type and the parameters. -/
@[simp] theorem clean_contentDisposition {h : ContentDisposition} :
    Clean h ↔ Clean h.type ∧ Clean h.params := by
  simp only [Clean, texts, List.mem_append, or_imp, forall_and]

/-- An Alert-Info holds the URL between the angle brackets and the parameters. -/
@[simp] theorem clean_alertInfo {h : AlertInfo} : Clean h ↔ Clean h.url ∧ Clean h.params := by
  simp only [Clean, texts, List.mem_append, or_imp, forall_and]

/-- A Call-Info holds the URL, the purpose that the parser moved to a field of its own, and the
    other parameters. -/
@[simp] theorem clean_callInfo {h : CallInfo} :
    Clean h ↔ Clean h.url ∧ Clean h.purpose ∧ Clean h.params := by
  simp only [Clean, texts, List.mem_append, or_imp, forall_and, and_assoc]

/-- One URI of an Error-Info and its parameters. -/
@[simp] theorem clean_errorInfoUri {e : ErrorInfoUri} : Clean e ↔ Clean e.url ∧ Clean e.params := by
  simp only [Clean, texts, List.mem_append, or_imp, forall_and]

/-- A Retry-After is a number of seconds with parameters and a comment: the last two are text. -/
@[simp] theorem clean_retryAfter {h : RetryAfter} :
    Clean h ↔ Clean h.param ∧ Clean h.comment := by
  simp only [Clean, texts, List.mem_append, or_imp, forall_and]

/-- A number is printed without line ends, whatever it is. -/
@[simp] theorem clean_f32 (n : F32) : Clean n := fun _ hs => absurd hs List.not_mem_nil

/-- Both fields of a Timestamp are numbers, and their printed form is what has to be clean. -/
@[simp] theorem clean_timestamp {h : Timestamp} : Clean h ↔ Clean h.time ∧ Clean h.delay := by
  simp only [Clean, texts, List.mem_append, or_imp, forall_and]

/-- A Warning holds the host that warns and the quoted text; its code is a number. -/
@[simp] theorem clean_warning {h : Warning} : Clean h ↔ Clean h.host ∧ Clean h.text := by
  simp only [Clean, texts, List.mem_append, or_imp, forall_and]

/-- A header the parser does not know is kept as its name and its value, both as read. -/
@[simp] theorem clean_rawHeader {h : RawHeader} : Clean h ↔ Clean h.name ∧ Clean h.data := by
  simp only [Clean, texts, List.mem_append, or_imp, forall_and]

/-- The texts of a digest challenge, all optional: a list of them serves as the record. -/
theorem clean_digestChallenge {c : DigestChallenge} : Clean c ↔
    Clean [c.realm, c.domain, c.nonce, c.opaqueParam, c.stale, c.algorithm, c.qop] := Iff.rfl

/-- The texts of digest credentials, all optional: a list of them serves as the record. -/
theorem clean_digestCredential {c : DigestCredential} : Clean c ↔
    Clean [c.realm, c.username, c.nonce, c.uri, c.response, c.algorithm, c.cnonce,
      c.opaqueParam, c.qop, c.nc] := Iff.rfl

/-- The texts of an Authentication-Info, all optional. -/
theorem clean_authenticationInfo {h : AuthenticationInfo} : Clean h ↔
    Clean [h.nextnonce, h.qop, h.rspauth, h.cnonce, h.nc] := Iff.rfl

end Parts

/-! ### Clean texts -/

/-- The empty text has no byte at all, which settles every optional field that is absent. -/
theorem clean_empty : Clean "" := by decide

/-- An optional field prints clean when what it prints of a clean value is clean: absent, it prints
    nothing. -/
theorem clean_elim [Texts α] {o : Option α} {f : α → String} (ho : Clean o)
    (hf : ∀ a, Clean a → Clean (f a)) : Clean (o.elim "" f) := by
  cases o with
  | none => exact clean_empty
  | some a => exact hf a (clean_some.mp ho)

/-- A field without strings. -/
theorem clean_elim_of_forall {o : Option α} {f : α → String} (hf : ∀ a, Clean (f a)) :
    Clean (o.elim "" f) := by
  cases o with
  | none => exact clean_empty
  | some a => exact hf a

/-- A list of values with a separator prints clean when the separator and every value are clean. -/
theorem clean_formatSep {sep : String} {ss : List String} (hsep : Clean sep) (hss : Clean ss) :
    Clean (formatSep sep ss) := by
  induction ss with
  | nil => exact clean_empty
  | cons s ss ih =>
    obtain ⟨hs, hss⟩ := clean_cons.mp hss
    cases ss with
    | nil => exact hs
    | cons t ss => exact clean_append.mpr ⟨clean_append.mpr ⟨hs, hsep⟩, ih hss⟩

/-- To print the values of a list one by one keeps the list clean when printing one of them does. -/
theorem clean_map [Texts α] {as : List α} {f : α → String} (has : Clean as)
    (hf : ∀ a, Clean a → Clean (f a)) : Clean (as.map f) := by
  rw [clean_list] at has ⊢
  intro s hs
  obtain ⟨a, ha, rfl⟩ := List.mem_map.mp hs
  exact hf a (has a ha)

/-- A digit ends no line. -/
theorem isNewline_of_isAsciiDigit {b : UInt8} (h : isAsciiDigit b = true) :
    isNewline b = false := by
  by_cases hnl : isNewline b
  · rcases (by simpa [isNewline] using hnl : b = 13 ∨ b = 10) with rfl | rfl <;>
      exact absurd h (by decide)
  · simpa using hnl

/-- A number prints as decimal digits, none of which ends a line. -/
@[simp] theorem clean_decimal (n : Nat) : Clean (decimal n) := by
  rw [clean_string]
  exact fun b hb => isNewline_of_isAsciiDigit (isAsciiDigit_of_mem_decimal hb)

/-- An IP address of either family prints as digits, dots, hex letters and colons. -/
@[simp] theorem clean_ipAddr (ip : IpAddr) : Clean ip.toText := by
  rw [clean_string]
  intro b hb
  have hmem := IpAddr.mem_toText hb
  by_cases hnl : isNewline b
  · rcases (by simpa [isNewline] using hnl : b = 13 ∨ b = 10) with rfl | rfl <;>
      exact absurd hmem (by decide)
  · simpa using hnl

/-- Every method name, the unknown one included, prints as letters only. -/
@[simp] theorem clean_method (m : SipMethod) : Clean m.asStr := by cases m <;> decide

/-- A transport name as a Via prints it: letters, none of which ends a line. -/
@[simp] theorem clean_transportUpper (t : TransportProtocol) : Clean t.asUpperCase := by
  cases t <;> decide

/-- A transport name as a URI parameter prints it: letters, none of which ends a line. -/
@[simp] theorem clean_transportLower (t : TransportProtocol) : Clean t.asLowerCase := by
  cases t <;> decide

/-- A URI scheme prints as `sip` or `sips`. -/
@[simp] theorem clean_scheme (s : Scheme) : Clean s.toText := by cases s <;> decide

/-- A line with a clean name is clean when its value is. -/
theorem clean_headerLine {name value : String} (hname : Clean name) (hvalue : Clean value) :
    Clean (headerLine name value) := by
  simp [headerLine, hname, hvalue, show Clean ": " by decide]

/-- A header of listed values prints clean when its name and every printed value are. -/
theorem clean_listLine {name : String} {values : List String} (hname : Clean name)
    (hvalues : Clean values) : Clean (listLine name values) :=
  clean_headerLine hname (clean_formatSep (by decide) hvalues)

/-- A clean parameter prints clean: its name, and `=` with its value where it has one. -/
theorem Param.clean_toText {p : Param} (h : Clean p) : Clean p.toText := by
  obtain ⟨hname, hvalue⟩ := clean_param.mp h
  refine clean_append.mpr ⟨clean_append.mpr ⟨by decide, hname⟩, clean_elim hvalue ?_⟩
  exact fun v hv => clean_append.mpr ⟨by decide, hv⟩

/-- A clean parameter list prints clean: every parameter behind its semicolon. -/
theorem Params.clean_toText {ps : Params} (h : Clean ps) : Clean ps.toText := by
  obtain ⟨ps⟩ := ps
  induction ps with
  | nil => exact clean_empty
  | cons p ps ih =>
    obtain ⟨hp, hps⟩ := clean_cons.mp (clean_params.mp h)
    exact clean_append.mpr ⟨Param.clean_toText hp, ih (clean_params.mpr hps)⟩

/-- A clean host prints clean: a domain name as it stands, an address by its text. -/
theorem Host.clean_toText {h : Host} (hclean : Clean h) : Clean h.toText := by
  cases h with
  | hostName name => exact hclean
  | ipAddr ip => exact clean_ipAddr ip

/-- A clean `host:port` prints clean: the port adds a colon and digits. -/
theorem HostPort.clean_toText {h : HostPort} (hclean : Clean h) : Clean h.toText := by
  refine clean_append.mpr ⟨Host.clean_toText hclean, clean_elim_of_forall fun port => ?_⟩
  exact clean_append.mpr ⟨by decide, clean_decimal _⟩

/-- A clean user part prints clean: the password adds a colon. -/
theorem UserInfo.clean_toText {u : UserInfo} (h : Clean u) : Clean u.toText := by
  obtain ⟨huser, hpass⟩ := clean_userInfo.mp h
  refine clean_append.mpr ⟨clean_append.mpr ⟨huser, clean_elim hpass ?_⟩, by decide⟩
  exact fun pass hpass => clean_append.mpr ⟨by decide, hpass⟩

/-- Clean URI headers print clean, behind `?` and with `&` between them. -/
theorem UriHeaders.clean_toText {h : UriHeaders} (hclean : Clean h) : Clean h.toText := by
  apply clean_formatSep (by decide)
  apply clean_map (show Clean h.params.inner from hclean)
  intro p hp
  obtain ⟨hname, hvalue⟩ := clean_param.mp hp
  refine clean_append.mpr ⟨clean_append.mpr ⟨hname, by decide⟩, ?_⟩
  cases hv : p.value with
  | none => decide
  | some v => exact clean_some.mp (hv ▸ hvalue)

/-- A text in front of a field that may be missing. -/
theorem clean_field [Texts α] {o : Option α} {start : String} {toText : α → String}
    (hstart : Clean start) (ho : Clean o) (htext : ∀ a, Clean a → Clean (toText a)) :
    Clean (o.elim "" fun a => start ++ toText a) :=
  clean_elim ho fun a ha => clean_append.mpr ⟨hstart, htext a ha⟩

/-- An optional field whose printed value is clean whatever it holds, a number for example, prints
    clean behind its label. -/
theorem clean_field_of_forall {o : Option α} {start : String} {toText : α → String}
    (hstart : Clean start) (htext : ∀ a, Clean (toText a)) :
    Clean (o.elim "" fun a => start ++ toText a) :=
  clean_elim_of_forall fun a => clean_append.mpr ⟨hstart, htext a⟩

/-- A clean URI prints clean: every part is behind a label of the printer that has no line end in
    it. -/
theorem Uri.clean_toText {u : Uri} (h : Clean u) : Clean u.toText := by
  obtain ⟨huser, hhostPort, huserParam, hmaddr, hparams, hheaders⟩ := clean_uri.mp h
  have hlr : Clean (if u.lrParam then ";lr" else "") := by split <;> decide
  have hfields : Clean u.paramsText := by
    simp only [Uri.paramsText, clean_append]
    exact ⟨⟨⟨⟨⟨clean_field (by decide) huserParam fun _ hv => hv,
      clean_field_of_forall (by decide) clean_method⟩,
      clean_field (by decide) hmaddr fun _ => Host.clean_toText⟩,
      clean_field_of_forall (by decide) clean_transportLower⟩,
      clean_field_of_forall (by decide) fun ttl => clean_decimal _⟩, hlr⟩
  simp only [Uri.toText, clean_append]
  exact ⟨⟨⟨⟨⟨⟨clean_scheme _, by decide⟩, clean_elim huser fun _ => UserInfo.clean_toText⟩,
    HostPort.clean_toText hhostPort⟩, hfields⟩, Params.clean_toText hparams⟩,
    clean_field (by decide) hheaders fun _ => UriHeaders.clean_toText⟩

/-- A clean name-addr prints clean: the quotes and angle brackets around its parts end no line. -/
theorem NameAddr.clean_toText {a : NameAddr} (h : Clean a) : Clean a.toText := by
  obtain ⟨hdisplay, huri⟩ := clean_nameAddr.mp h
  simp only [NameAddr.toText, clean_append]
  refine ⟨⟨⟨clean_elim hdisplay fun d hd => ?_, by decide⟩, Uri.clean_toText huri⟩, by decide⟩
  exact clean_append.mpr ⟨clean_append.mpr ⟨by decide, hd⟩, by decide⟩

/-- Whichever of the two forms a header holds, a clean address prints clean. -/
theorem SipUri.clean_toText {u : SipUri} (h : Clean u) : Clean u.toText := by
  cases u with
  | uri u => exact Uri.clean_toText h
  | nameAddr a => exact NameAddr.clean_toText h

/-! ### Clean headers -/

/-- A clean Via prints clean, with its protocol, its sent-by and each parameter that is present. -/
theorem Via.clean_toText {v : Via} (h : Clean v) : Clean v.toText := by
  obtain ⟨hsentBy, hmaddr, hbranch, hcomment, hparams⟩ := clean_via.mp h
  have hrport : ∀ rport : Rport, Clean (";rport" ++ rport.port.elim "" fun p =>
      "=" ++ decimal p.toNat) := by
    intro rport
    exact clean_append.mpr ⟨by decide, clean_field_of_forall (by decide) fun p => clean_decimal _⟩
  have hfields : Clean v.paramsText := by
    simp only [Via.paramsText, clean_append]
    exact ⟨⟨⟨⟨clean_elim_of_forall hrport,
      clean_field_of_forall (by decide) clean_ipAddr⟩,
      clean_field_of_forall (by decide) fun ttl => clean_decimal _⟩,
      clean_field (by decide) hmaddr fun _ => Host.clean_toText⟩,
      clean_field (by decide) hbranch fun _ hb => hb⟩
  apply clean_headerLine (by decide)
  simp only [clean_append]
  refine ⟨⟨⟨⟨⟨⟨⟨by decide, by decide⟩, clean_transportUpper _⟩, by decide⟩,
    HostPort.clean_toText hsentBy⟩, hfields⟩, Params.clean_toText hparams⟩, ?_⟩
  exact clean_elim hcomment fun c hc => clean_append.mpr ⟨clean_append.mpr ⟨by decide, hc⟩,
    by decide⟩

/-- From and To print alike: the name, the URI, the tag where there is one and the parameters. -/
theorem clean_taggedLine {name : String} {uri : SipUri} {tag : Option String} {params : Params}
    (hname : Clean name) (huri : Clean uri) (htag : Clean tag) (hparams : Clean params) :
    Clean (taggedLine name uri tag params) := by
  apply clean_headerLine hname
  simp only [clean_append]
  exact ⟨⟨SipUri.clean_toText huri, clean_field (by decide) htag fun _ ht => ht⟩,
    Params.clean_toText hparams⟩

/-- A quality value prints as digits and a point. -/
theorem Q.clean_toText (q : Q) : Clean q.toText := by
  simp [Q.toText, show Clean ";q=" by decide, show Clean "." by decide]

/-- A clean Contact prints clean: the quality and the expiry it may carry are numbers. -/
theorem Contact.clean_toText {h : Contact} (hclean : Clean h) : Clean h.toText := by
  obtain ⟨huri, hparam⟩ := clean_contact.mp hclean
  apply clean_headerLine (by decide)
  simp only [clean_append]
  exact ⟨⟨⟨SipUri.clean_toText huri, clean_elim_of_forall Q.clean_toText⟩,
    clean_elim_of_forall fun expires => clean_decimal _⟩, Params.clean_toText hparam⟩

/-- A clean text and parameters after it. -/
theorem clean_withParams {s : String} {params : Params} (hs : Clean s) (hparams : Clean params) :
    Clean (s ++ params.toText) := clean_append.mpr ⟨hs, Params.clean_toText hparams⟩

/-- A clean Call-ID prints clean, behind the name of its header. -/
theorem CallId.clean_toText {h : CallId} (hclean : Clean h) : Clean h.toText :=
  clean_headerLine (by decide) hclean

/-- A clean media type prints clean: the halves around the slash and the parameters. -/
theorem MediaType.clean_toText {m : MediaType} (h : Clean m) : Clean m.toText := by
  obtain ⟨htype, hsubtype, hparams⟩ := clean_mediaType.mp h
  exact clean_withParams (clean_append.mpr ⟨clean_append.mpr ⟨htype, by decide⟩, hsubtype⟩) hparams

/-- A clean coding prints clean, with its quality value where it has one. -/
theorem Coding.clean_toText {c : Coding} (h : Clean c) : Clean c.toText := by
  obtain ⟨hcoding, hparams⟩ := clean_coding.mp h
  exact clean_withParams (clean_append.mpr ⟨hcoding, clean_elim_of_forall Q.clean_toText⟩) hparams

/-- A clean language prints clean, with its quality value where it has one. -/
theorem Language.clean_toText {l : Language} (h : Clean l) : Clean l.toText := by
  obtain ⟨hlanguage, hparams⟩ := clean_language.mp h
  exact clean_withParams (clean_append.mpr ⟨hlanguage, clean_elim_of_forall Q.clean_toText⟩)
    hparams

/-- A clean Error-Info value prints clean, between its angle brackets. -/
theorem ErrorInfoUri.clean_toText {e : ErrorInfoUri} (h : Clean e) : Clean e.toText := by
  obtain ⟨hurl, hparams⟩ := clean_errorInfoUri.mp h
  exact clean_withParams (clean_append.mpr ⟨hurl, by decide⟩) hparams

/-- A clean Call-Info prints clean, with its purpose where it has one. -/
theorem CallInfo.clean_toText {h : CallInfo} (hclean : Clean h) : Clean h.toText := by
  obtain ⟨hurl, hpurpose, hparams⟩ := clean_callInfo.mp hclean
  apply clean_headerLine (by decide)
  simp only [clean_append]
  exact ⟨⟨⟨⟨by decide, hurl⟩, by decide⟩, clean_field (by decide) hpurpose fun _ hp => hp⟩,
    Params.clean_toText hparams⟩

/-- A clean Retry-After prints clean, with the comment in parentheses where it has one. -/
theorem RetryAfter.clean_toText {h : RetryAfter} (hclean : Clean h) : Clean h.toText := by
  obtain ⟨hparam, hcomment⟩ := clean_retryAfter.mp hclean
  apply clean_headerLine (by decide)
  refine clean_append.mpr ⟨clean_withParams (clean_decimal _) hparam, ?_⟩
  cases hc : h.comment with
  | none => exact clean_empty
  | some c => exact clean_some.mp (hc ▸ hcomment)

/-- A 32-bit float prints as digits with at most one point among them, or as `inf`. -/
theorem clean_f32_toText (n : F32) : Clean n.toText := by
  have hletters : ∀ b ∈ asBytes ".inf", isNewline b = false := by decide
  rw [clean_string]
  intro b hb
  rcases F32.mem_toText hb with hdigit | hletter
  · exact isNewline_of_isAsciiDigit hdigit
  · exact hletters b hletter

/-- A clean Timestamp prints clean: two numbers with a blank between them. -/
theorem Timestamp.clean_toText {h : Timestamp} (hclean : Clean h) : Clean h.toText := by
  obtain ⟨-, hdelay⟩ := clean_timestamp.mp hclean
  exact clean_headerLine (by decide) (clean_append.mpr
    ⟨clean_f32_toText h.time, clean_elim hdelay fun n _ => clean_f32_toText n⟩)

/-- A clean Warning prints clean: code, host and the quoted text. -/
theorem Warning.clean_toText {h : Warning} (hclean : Clean h) : Clean h.toText := by
  obtain ⟨hhost, htext⟩ := clean_warning.mp hclean
  apply clean_headerLine (by decide)
  simp only [clean_append]
  exact ⟨⟨⟨⟨clean_decimal _, by decide⟩, hhost⟩, by decide⟩, htext⟩

/-- A text in front of an optional string, and one behind it. -/
theorem clean_between {o : Option String} {start stop : String} (hstart : Clean start)
    (hstop : Clean stop) (ho : Clean o) : Clean (o.elim "" fun s => start ++ s ++ stop) :=
  clean_elim ho fun _ hs => clean_append.mpr ⟨clean_append.mpr ⟨hstart, hs⟩, hstop⟩

/-- A clean challenge prints clean whenever it prints at all: a scheme other than Digest reaches the
    `todo!()`. -/
theorem Challenge.clean_toText {c : Challenge} (h : Clean c) {s : String}
    (hs : c.toText = some s) : Clean s := by
  cases c with
  | other scheme params => simp [Challenge.toText] at hs
  | digest c =>
    have h : Clean [c.realm, c.domain, c.nonce, c.opaqueParam, c.stale, c.algorithm, c.qop] := h
    simp only [clean_cons, clean_nil, and_true] at h
    obtain ⟨hrealm, hdomain, hnonce, hopaque, hstale, halgorithm, hqop⟩ := h
    rw [Challenge.toText, Option.some.injEq] at hs
    rw [← hs]
    simp only [clean_append]
    exact ⟨⟨⟨⟨⟨⟨⟨by decide, clean_between (by decide) (by decide) hrealm⟩,
      clean_between (by decide) (by decide) hdomain⟩,
      clean_between (by decide) (by decide) hnonce⟩,
      clean_between (by decide) (by decide) hopaque⟩,
      clean_between (by decide) (by decide) hstale⟩,
      clean_between (by decide) (by decide) halgorithm⟩,
      clean_field (by decide) hqop fun _ hs => hs⟩

/-- Clean credentials print clean whenever they print at all: a scheme other than Digest reaches the
    `todo!()`. -/
theorem Credential.clean_toText {c : Credential} (h : Clean c) {s : String}
    (hs : c.toText = some s) : Clean s := by
  cases c with
  | other scheme params => simp [Credential.toText] at hs
  | digest c =>
    have h : Clean [c.realm, c.username, c.nonce, c.uri, c.response, c.algorithm, c.cnonce,
      c.opaqueParam, c.qop, c.nc] := h
    simp only [clean_cons, clean_nil, and_true] at h
    obtain ⟨hrealm, husername, hnonce, huri, hresponse, halgorithm, hcnonce, hopaque, hqop, hnc⟩ := h
    have hfield : ∀ {o : Option String} {start : String}, Clean start → Clean o →
        Clean (o.elim "" fun s => start ++ s) :=
      fun hstart ho => clean_field hstart ho fun _ hs => hs
    rw [Credential.toText, Option.some.injEq] at hs
    rw [← hs]
    simp only [clean_append]
    exact ⟨⟨⟨⟨⟨⟨⟨⟨⟨⟨by decide, hfield (by decide) husername⟩, hfield (by decide) hrealm⟩,
      hfield (by decide) hnonce⟩, hfield (by decide) huri⟩, hfield (by decide) hresponse⟩,
      hfield (by decide) halgorithm⟩, hfield (by decide) hcnonce⟩, hfield (by decide) hqop⟩,
      hfield (by decide) hnc⟩, hfield (by decide) hopaque⟩

/-- A clean Authentication-Info prints clean, each field behind its label. -/
theorem AuthenticationInfo.clean_toText {h : AuthenticationInfo} (hclean : Clean h) :
    Clean h.toText := by
  have hclean : Clean [h.nextnonce, h.qop, h.rspauth, h.cnonce, h.nc] := hclean
  simp only [clean_cons, clean_nil, and_true] at hclean
  obtain ⟨hnextnonce, hqop, hrspauth, hcnonce, hnc⟩ := hclean
  have hfield : ∀ {o : Option String} {start : String}, Clean start → Clean o →
      Clean (o.elim "" fun s => start ++ s) :=
    fun hstart ho => clean_field hstart ho fun _ hs => hs
  apply clean_headerLine (by decide)
  simp only [clean_append]
  exact ⟨⟨⟨⟨hfield (by decide) hnextnonce, hfield (by decide) hqop⟩, hfield (by decide) hrspauth⟩,
    hfield (by decide) hcnonce⟩, hfield (by decide) hnc⟩

/-- **A clean header is printed as one line.** -/
theorem Header.clean_toText {h : Header} (hclean : Clean h) {line : String}
    (hline : h.toText = some line) : Clean line := by
  have hnumber : ∀ {name : String} (n : UInt32), Clean name → Clean (numberLine name n) :=
    fun n hname => clean_headerLine hname (clean_decimal _)
  have hself : ∀ s : String, Clean s → Clean s := fun _ hs => hs
  cases h <;> simp only [Header.toText, Option.some.injEq] at hline
  -- the headers that may have no text
  case authorization h =>
    obtain ⟨s, hs, rfl⟩ := Option.map_eq_some_iff.mp hline
    exact clean_headerLine (by decide) (Credential.clean_toText hclean hs)
  case proxyAuthorization h =>
    obtain ⟨s, hs, rfl⟩ := Option.map_eq_some_iff.mp hline
    exact clean_headerLine (by decide) (Credential.clean_toText hclean hs)
  case proxyAuthenticate h =>
    obtain ⟨s, hs, rfl⟩ := Option.map_eq_some_iff.mp hline
    exact clean_headerLine (by decide) (Challenge.clean_toText hclean hs)
  case wwwAuthenticate h =>
    obtain ⟨s, hs, rfl⟩ := Option.map_eq_some_iff.mp hline
    exact clean_headerLine (by decide) (Challenge.clean_toText hclean hs)
  all_goals subst hline
  case accept h => exact clean_listLine (by decide) (clean_map hclean fun _ => MediaType.clean_toText)
  case acceptEncoding h =>
    exact clean_listLine (by decide) (clean_map hclean fun _ => Coding.clean_toText)
  case acceptLanguage h =>
    exact clean_listLine (by decide) (clean_map hclean fun _ => Language.clean_toText)
  case alertInfo h =>
    obtain ⟨hurl, hparams⟩ := clean_alertInfo.mp hclean
    refine clean_headerLine (by decide) (clean_withParams ?_ hparams)
    exact clean_append.mpr ⟨clean_append.mpr ⟨by decide, hurl⟩, by decide⟩
  case allow h =>
    apply clean_listLine (by decide)
    rw [clean_list]
    intro s hs
    obtain ⟨m, -, rfl⟩ := List.mem_map.mp hs
    exact clean_method m
  case authenticationInfo h => exact AuthenticationInfo.clean_toText hclean
  case callId h => exact CallId.clean_toText hclean
  case callInfo h => exact CallInfo.clean_toText hclean
  case contact h => exact Contact.clean_toText hclean
  case contentDisposition h =>
    obtain ⟨htype, hparams⟩ := clean_contentDisposition.mp hclean
    exact clean_headerLine (by decide)
      (clean_withParams (clean_append.mpr ⟨htype, by decide⟩) hparams)
  case contentEncoding h => exact clean_listLine (by decide) hclean
  case contentLanguage h => exact clean_listLine (by decide) (clean_map hclean fun _ ht => ht)
  case contentLength h => exact hnumber _ (by decide)
  case contentType h => exact clean_headerLine (by decide) (MediaType.clean_toText hclean)
  case cSeq h =>
    refine clean_headerLine (by decide) (clean_append.mpr ⟨?_, clean_method _⟩)
    exact clean_append.mpr ⟨clean_decimal _, by decide⟩
  case date h => exact clean_headerLine (by decide) hclean
  case errorInfo h =>
    exact clean_formatSep (by decide) (clean_map hclean fun _ => ErrorInfoUri.clean_toText)
  case expires h => exact hnumber _ (by decide)
  case fromHdr h =>
    obtain ⟨huri, htag, hparams⟩ := clean_from.mp hclean
    exact clean_taggedLine (by decide) huri htag hparams
  case inReplyTo h => exact clean_listLine (by decide) (clean_map hclean fun _ => CallId.clean_toText)
  case maxForwards h => exact hnumber _ (by decide)
  case minExpires h => exact hnumber _ (by decide)
  case mimeVersion h =>
    refine clean_headerLine (by decide) (clean_append.mpr ⟨?_, clean_decimal _⟩)
    exact clean_append.mpr ⟨clean_decimal _, by decide⟩
  case organization h => exact clean_headerLine (by decide) hclean
  case priority h => exact clean_headerLine (by decide) hclean
  case proxyRequire h => exact clean_listLine (by decide) hclean
  case retryAfter h => exact RetryAfter.clean_toText hclean
  case route h =>
    obtain ⟨haddr, hparams⟩ := clean_route.mp hclean
    exact clean_headerLine (by decide) (clean_withParams (NameAddr.clean_toText haddr) hparams)
  case recordRoute h =>
    obtain ⟨haddr, hparams⟩ := clean_recordRoute.mp hclean
    exact clean_headerLine (by decide) (clean_withParams (NameAddr.clean_toText haddr) hparams)
  case replyTo h =>
    obtain ⟨huri, hparam⟩ := clean_replyTo.mp hclean
    exact clean_headerLine (by decide) (clean_withParams (SipUri.clean_toText huri) hparam)
  case require h => exact clean_listLine (by decide) hclean
  case server h => exact clean_headerLine (by decide) hclean
  case subject h => exact clean_headerLine (by decide) hclean
  case supported h => exact clean_listLine (by decide) hclean
  case timestamp h => exact Timestamp.clean_toText hclean
  case toHdr h =>
    obtain ⟨huri, htag, hparams⟩ := clean_to.mp hclean
    exact clean_taggedLine (by decide) huri htag hparams
  case unsupported h => exact clean_listLine (by decide) hclean
  case userAgent h => exact clean_headerLine (by decide) hclean
  case via h => exact Via.clean_toText hclean
  case warning h => exact Warning.clean_toText hclean
  case rawHeader h =>
    obtain ⟨hname, hdata⟩ := clean_rawHeader.mp hclean
    exact clean_headerLine hname hdata

end Rssip
