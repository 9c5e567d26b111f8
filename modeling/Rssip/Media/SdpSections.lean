import Mathlib.Data.List.Forall2
import Rssip.Media.SdpLineEnds
import Rssip.Media.SdpText

namespace Rssip.Media

open Lib

/-!
# Media sections

A line behind a media line belongs to its section.

* `sections` — the media lines of a text, each with the lines up to the next one;
* `media_storeLines` — a media description holds what the lines of its section say;
* `InSections` — every line is kept in its section, printed there, and read back;
* `inSections_iff` — this holds of the descriptions without titles in their sections, with one
  connection at most and with a format for each transport.
-/

/-! ### The lines of a section -/

/-- The letter of a line. -/
def letterIs (field : SdpField) (line : Bytes × SdpLine) : Bool := line.1.head? == some field

/-- The line starts a media section. -/
def isMediaLine : Bytes × SdpLine → Bool := letterIs SdpField.mediaDescription

/-- The media lines, each with the lines behind it up to the next one. -/
def sections : List (Bytes × SdpLine) → List ((Bytes × SdpLine) × List (Bytes × SdpLine))
  | [] => []
  | line :: lines =>
    if isMediaLine line then (line, lines.takeWhile (! isMediaLine ·)) :: sections lines
    else sections lines

/-- What a line does to the last media description. -/
def SdpLine.storeMedia : SdpLine → MediaDescription → MediaDescription
  | .attr a, m => { m with attributes := m.attributes ++ [a] }
  | .information s, m => { m with title := some s }
  | .connection c, m => { m with connectionInformation := some c }
  | _, m => m

/-- What some lines do to it. -/
def storeSection (lines : List (Bytes × SdpLine)) (m : MediaDescription) : MediaDescription :=
  lines.foldl (fun m line => line.2.storeMedia m) m

/-- To change the last media description, or the session if there is none, changes the last of the
    media. -/
theorem media_onLastMedia (media : MediaDescription → MediaDescription)
    {session : SessionDescription → SessionDescription} {sdp : SessionDescription}
    (hsession : (session sdp).media = sdp.media) :
    (sdp.onLastMedia media session).media = modifyLast media sdp.media := by
  unfold SessionDescription.onLastMedia
  split
  · rename_i hempty
    rw [hsession, List.isEmpty_iff.mp hempty]
    rfl
  · rfl

/-- **A line** adds a media description, or changes the last one. -/
theorem media_store {line : SdpLine} {sdp sdp' : SessionDescription}
    (h : line.store sdp = .ok sdp') :
    (∃ m, line = .media m ∧ sdp'.media = sdp.media ++ [m]) ∨
      (∀ m, line ≠ .media m) ∧ sdp'.media = modifyLast line.storeMedia sdp.media := by
  cases line with
  | media m =>
    obtain rfl := Except.ok.inj h
    exact .inl ⟨m, rfl, rfl⟩
  | attr a =>
    have hmedia : (sdp.setAttr a).media = modifyLast (SdpLine.attr a).storeMedia sdp.media :=
      media_onLastMedia _ rfl
    exact .inr ⟨fun _ => SdpLine.noConfusion, Except.ok.inj h ▸ hmedia⟩
  | connection c =>
    have hmedia : (sdp.setConnection c).media =
        modifyLast (SdpLine.connection c).storeMedia sdp.media := media_onLastMedia _ rfl
    exact .inr ⟨fun _ => SdpLine.noConfusion, Except.ok.inj h ▸ hmedia⟩
  | information s =>
    have hmedia : (sdp.setInformation s).media =
        modifyLast (SdpLine.information s).storeMedia sdp.media := media_onLastMedia _ rfl
    exact .inr ⟨fun _ => SdpLine.noConfusion, Except.ok.inj h ▸ hmedia⟩
  | repeatTimes r =>
    have h : sdp.setRepeatTimes r = .ok sdp' := h
    unfold SessionDescription.setRepeatTimes at h
    split at h
    · cases h
    · have hmedia : sdp'.media = sdp.media := by rw [← Except.ok.inj h]
      exact .inr ⟨fun _ => SdpLine.noConfusion, hmedia.trans (modifyLast_id _).symm⟩
  | version | origin _ | sessionName _ | uri _ | emailAddress _ | phoneNumber _ | bandwidth _
  | time _ | skipped =>
    have heq := congrArg SessionDescription.media (Except.ok.inj h)
    have hmedia : sdp'.media = sdp.media := heq.symm
    exact .inr ⟨fun _ => SdpLine.noConfusion, hmedia.trans (modifyLast_id _).symm⟩

/-- **The lines of the sections** are stored in their media descriptions. -/
theorem media_storeLines {lines : List (Bytes × SdpLine)} {sdp sdp' : SessionDescription}
    (hletters : ∀ line ∈ lines, isMediaLine line ↔ ∃ m, line.2 = .media m)
    (h : storeLines (lines.map Prod.snd) sdp = .ok sdp') :
    ∃ added, List.Forall₂ (fun sec m => ∃ m₀, sec.1.2 = .media m₀ ∧ m = storeSection sec.2 m₀)
        (sections lines) added ∧
      sdp'.media =
        modifyLast (storeSection (lines.takeWhile (! isMediaLine ·))) sdp.media ++ added := by
  induction lines generalizing sdp with
  | nil =>
    obtain rfl := Except.ok.inj h
    exact ⟨[], .nil, by rw [List.append_nil]; exact (modifyLast_id _).symm⟩
  | cons line lines ih =>
    obtain ⟨hline, hletters⟩ := List.forall_mem_cons.mp hletters
    obtain ⟨sdp₁, hstore, hrest⟩ := except_bind_eq_ok_iff.mp ((List.foldlM_cons ..).symm.trans h)
    obtain ⟨added, hadded, hmedia⟩ := ih hletters hrest
    rcases media_store hstore with ⟨m, hm, hmedia₁⟩ | ⟨hm, hmedia₁⟩
    · have hyes : isMediaLine line := hline.mpr ⟨m, hm⟩
      refine ⟨storeSection (lines.takeWhile (! isMediaLine ·)) m :: added, ?_, ?_⟩
      · rw [sections, if_pos hyes]
        exact .cons ⟨m, hm, rfl⟩ hadded
      · rw [hmedia, hmedia₁, modifyLast_concat, List.takeWhile_cons_of_neg (by simp [hyes]),
          List.append_assoc]
        exact congrArg (· ++ _) (modifyLast_id _).symm
    · have hno : isMediaLine line = false := by
        by_contra hyes
        obtain ⟨m, hmedia⟩ := hline.mp (by simpa using hyes)
        exact hm m hmedia
      refine ⟨added, ?_, ?_⟩
      · rw [sections, if_neg (by simp [hno])]
        exact hadded
      · rw [hmedia, hmedia₁, modifyLast_modifyLast, List.takeWhile_cons_of_pos (by simp [hno])]
        rfl

/-! ### What a media description holds -/

namespace SdpLine

/-- The attribute, if the line is one. -/
def attribute? : SdpLine → Option Attribute
  | .attr a => some a
  | _ => none

/-- The text, if the line is an `i` line. -/
def information? : SdpLine → Option String
  | .information s => some s
  | _ => none

/-- The address, if the line is a `c` line. -/
def connection? : SdpLine → Option ConnectionInformation
  | .connection c => some c
  | _ => none

/-- The bandwidth, if the line is a `b` line. -/
def bandwidth? : SdpLine → Option BandwidthInformation
  | .bandwidth b => some b
  | _ => none

end SdpLine

/-- A line is a title exactly if its letter is `i`. -/
theorem SdpLine.isSome_information?_iff (line : SdpLine) :
    line.information?.isSome ↔ line.letter = some SdpField.sessionInformation := by
  cases line with
  | information s => exact iff_of_true rfl rfl
  | skipped => exact iff_of_false Bool.false_ne_true (Option.some_ne_none _).symm
  | _ => exact iff_of_false Bool.false_ne_true fun h => absurd (Option.some.inj h) (by decide)

/-- A line is an address exactly if its letter is `c`. -/
theorem SdpLine.isSome_connection?_iff (line : SdpLine) :
    line.connection?.isSome ↔ line.letter = some SdpField.connectionInformation := by
  cases line with
  | connection c => exact iff_of_true rfl rfl
  | skipped => exact iff_of_false Bool.false_ne_true (Option.some_ne_none _).symm
  | _ => exact iff_of_false Bool.false_ne_true fun h => absurd (Option.some.inj h) (by decide)

/-- What the lines of a kind say. -/
def said {α : Type} (kind : SdpLine → Option α) (lines : List (Bytes × SdpLine)) : List α :=
  lines.filterMap fun line => kind line.2

/-- Attributes are added, and the last title and the last connection stay. -/
theorem storeSection_eq (lines : List (Bytes × SdpLine)) (m : MediaDescription) :
    storeSection lines m = { m with
      attributes := m.attributes ++ said SdpLine.attribute? lines,
      title := (said SdpLine.information? lines).getLast?.or m.title,
      connectionInformation :=
        (said SdpLine.connection? lines).getLast?.or m.connectionInformation } := by
  induction lines generalizing m with
  | nil => simp [storeSection, said]
  | cons line lines ih =>
    have hstep : storeSection (line :: lines) m = storeSection lines (line.2.storeMedia m) := rfl
    rw [hstep, ih]
    obtain ⟨bytes, line⟩ := line
    cases line <;> simp [said, SdpLine.storeMedia, SdpLine.attribute?, SdpLine.information?,
      SdpLine.connection?, List.getLast?_cons]

/-- The lines of a section are kept by the media description, and printed behind its line with their
    letters. -/
structure SectionHolds (sec : (Bytes × SdpLine) × List (Bytes × SdpLine)) (m : MediaDescription) :
    Prop where
  media : sec.1.2 = .media
    { mediaType := m.mediaType, proto := m.proto, port := m.port, mediaFormats := m.mediaFormats }
  title : m.title.toList = said SdpLine.information? sec.2
  connectionInformation : m.connectionInformation.toList = said SdpLine.connection? sec.2
  bandwidthInformation : m.bandwidthInformation = said SdpLine.bandwidth? sec.2
  attributes : m.attributes = said SdpLine.attribute? sec.2
  printed : m.toText = line "m" m.head ++
    (texts (fun s => line "i" s) (said SdpLine.information? sec.2) ++
      (texts (fun c => line "c" c.toText) (said SdpLine.connection? sec.2) ++
        (texts (fun b => line "b" b.toText) (said SdpLine.bandwidth? sec.2) ++
          texts (fun a => line "a" a.toText) (said SdpLine.attribute? sec.2))))

/-- An optional line is the text of a list of one line at most. -/
theorem lineOf_eq {α : Type} (field : String) (toText : α → String) (value : Option α) :
    lineOf field toText value = texts (fun v => line field (toText v)) value.toList := by
  cases value with
  | none => rfl
  | some v => simp [lineOf, texts]

/-- A title is printed as a time. -/
theorem toText_ne_of_title {m : MediaDescription} {title : String} (htitle : m.title = some title)
    (more : String) : m.toText ≠ line "m" m.head ++ (line "i" title ++ more) := by
  intro h
  rw [MediaDescription.toText, htitle] at h
  simp only [String.append_assoc] at h
  have hbytes := congrArg asBytes h
  rw [asBytes_append, asBytes_append (line "m" m.head)] at hbytes
  have hhead := congrArg List.head? (List.append_cancel_left hbytes)
  have hline : ∀ field text more : String,
      asBytes (line field text ++ more) = asBytes field ++ asBytes ("=" ++ text ++ "\r\n" ++ more) := by
    intro field text more
    simp [line]
  rw [lineOf, Option.elim_some, hline, hline, show asBytes "t" = [116] by decide,
    show asBytes "i" = [105] by decide] at hhead
  exact absurd hhead (by simp)

/-- The last element is the whole list exactly if there is no other one. -/
theorem toList_getLast?_iff {α : Type} (as : List α) :
    as.getLast?.toList = as ↔ as.length ≤ 1 := by
  match as with
  | [] => simp
  | [a] => simp
  | a :: b :: as =>
    refine iff_of_false (fun h => ?_) (by simp)
    have hlength := congrArg List.length h
    rw [List.getLast?_eq_some_getLast (List.cons_ne_nil _ _)] at hlength
    simp at hlength

/-- **A section is held** without titles and with one connection at most. -/
theorem sectionHolds_iff {head : Bytes × SdpLine} {lines : List (Bytes × SdpLine)}
    {m : MediaDescription} (hm : m.Scanned) (hhead : head.2 = .media m)
    (hbandwidth : said SdpLine.bandwidth? lines = []) :
    SectionHolds (head, lines) (storeSection lines m) ↔
      said SdpLine.information? lines = [] ∧ (said SdpLine.connection? lines).length ≤ 1 := by
  have hsection := storeSection_eq lines m
  rw [hm.others] at hsection
  simp only [List.nil_append, Option.or_none] at hsection
  rw [hm.others, hsection]
  constructor
  · rintro ⟨-, htitle, hconn, -, -, hprinted⟩
    refine ⟨?_, (toList_getLast?_iff _).mp hconn⟩
    -- the last title is the only one, and it is printed as a time
    cases hinfo : said SdpLine.information? lines with
    | nil => rfl
    | cons title titles =>
      rw [hinfo] at htitle
      obtain ⟨last, hlast⟩ : ∃ last, (title :: titles).getLast? = some last :=
        ⟨_, List.getLast?_eq_some_getLast (List.cons_ne_nil _ _)⟩
      simp only [hinfo, hlast, Option.toList_some] at htitle hprinted
      obtain ⟨rfl, rfl⟩ := List.cons.inj htitle
      have hline : texts (fun s => line "i" s) [last] = line "i" last := by simp [texts]
      rw [hline] at hprinted
      exact absurd hprinted (toText_ne_of_title rfl _)
  · rintro ⟨htitle, hconn⟩
    have hconn' := (toList_getLast?_iff _).mpr hconn
    exact {
      media := by rw [hhead, hm.others]
      title := by rw [htitle]; rfl
      connectionInformation := hconn'
      bandwidthInformation := hbandwidth.symm
      attributes := rfl
      printed := by
        rw [MediaDescription.toText, hbandwidth, htitle]
        simp only [lineOf_eq, hconn']
        simp [texts, String.append_assoc] }

namespace SdpParser

/-! ### Letters and formats -/

/-- A line of a text is read from its bytes, by its letter. -/
theorem gives_of_mem_lines {text : Bytes} {lines : List (Bytes × SdpLine)} (h : Lines text lines) :
    ∀ line ∈ lines, ∃ field value rest, line.1 = field :: 61 :: value ∧
      Gives (parseValue field) (Scanner.new (value ++ rest)) line.2 rest := by
  induction h with
  | nil => exact List.forall_mem_nil _
  | @cons field value rest line lines hvalue _ ih =>
    exact List.forall_mem_cons.mpr ⟨⟨field, value, rest, rfl, hvalue⟩, ih⟩

/-- The kind of a line is told by its letter. -/
theorem letterIs_iff {text : Bytes} {lines : List (Bytes × SdpLine)} (h : Lines text lines)
    {line : Bytes × SdpLine} (hmem : line ∈ lines) {field : SdpField}
    (hfield : uninterpreted field = false) : letterIs field line ↔ line.2.letter = some field := by
  obtain ⟨field', value, rest, hbytes, hgives⟩ := gives_of_mem_lines h line hmem
  rw [letterIs, hbytes, List.head?_cons, beq_iff_eq, letter_of_gives hgives, Option.some_inj]
  constructor
  · rintro rfl
    rw [if_neg (by simp [hfield])]
  · intro hletter
    split at hletter
    · cases hletter
    · exact Option.some.inj hletter

/-- A line of the parser starts a section exactly if it says a media description. -/
theorem isMediaLine_iff {text : Bytes} {lines : List (Bytes × SdpLine)} (h : Lines text lines) :
    ∀ line ∈ lines, isMediaLine line ↔ ∃ m, line.2 = .media m := by
  intro line hmem
  rw [isMediaLine, letterIs_iff h hmem (by decide)]
  cases line.2 <;> simp [SdpLine.letter] <;> decide

/-- The scans up to the formats of a media line. -/
def upToTransport : List (UInt8 → Bool) :=
  [isToken, isSpace, isAsciiDigit, isSpace, fun b => !isSpace b]

/-- Something stands behind the transport of a media line. -/
def hasFormat (bytes : Bytes) : Bool := !(dropAll upToTransport (bytes.drop 2)).isEmpty

/-- The formats are read where the transport ends. -/
theorem exists_formats {c : Scanner} {m : MediaDescription} {left : Bytes}
    (h : Gives parseMediaDescription c m left) : ∃ c' : Scanner,
      c'.remaining = dropAll upToTransport c.remaining ∧
        Gives (parseElements readToken) c' m.mediaFormats left := by
  rw [parseMediaDescription_eq] at h
  obtain ⟨name, c₁, hname, h⟩ := gives_bind.mp h
  have h₁ : c₁.remaining = _ := leaves_readToken c _ _ ⟨c₁, hname, rfl⟩
  split at h
  · obtain ⟨_, c₂, hws, h⟩ := gives_bind.mp h
    have h₂ : c₂.remaining = _ := leaves_handleWs c₁ _ _ ⟨c₂, hws, rfl⟩
    obtain ⟨port, c₃, hport, h⟩ := gives_bind.mp h
    have h₃ : c₃.remaining = _ := leaves_scanU16 c₂ _ _ ⟨c₃, hport, rfl⟩
    obtain ⟨_, c₄, hws', h⟩ := gives_bind.mp h
    have h₄ : c₄.remaining = _ := leaves_handleWs c₃ _ _ ⟨c₄, hws', rfl⟩
    obtain ⟨bytes, c₅, hscan, h⟩ := gives_bind.mp h
    have h₅ : c₅.remaining = _ := leaves_scanWhile _ c₄ _ _ ⟨c₅, hscan, rfl⟩
    split at h
    · obtain ⟨formats, c₆, hformats, h⟩ := gives_bind.mp h
      obtain ⟨rfl, rfl⟩ := gives_pure.mp h
      refine ⟨c₅, ?_, c₆, hformats, rfl⟩
      rw [h₅, h₄, h₃, h₂, h₁]
      rfl
    · obtain ⟨c₆, h, -⟩ := h
      cases h
  · obtain ⟨c₂, h, -⟩ := h
    cases h

/-- A media line has something behind its transport exactly if its description has formats. -/
theorem hasFormat_iff {value rest : Bytes} {m : MediaDescription} {field : SdpField}
    (h : Gives parseMediaDescription (Scanner.new (value ++ rest)) m rest) :
    hasFormat (field :: 61 :: value) ↔ m.mediaFormats ≠ [] := by
  obtain ⟨c', hrem, hformats⟩ := exists_formats h
  replace hrem : c'.remaining = dropAll upToTransport (value ++ rest) := hrem
  show !(dropAll upToTransport value).isEmpty ↔ _
  rw [Bool.not_eq_true', List.isEmpty_eq_false_iff]
  by_cases hne : m.mediaFormats = []
  · refine iff_of_false (fun hvalue => ?_) (fun h => h hne)
    -- nothing stands behind the transport, since a blank would be followed by a format
    obtain rfl : rest = [] := by
      by_contra hrest
      exact mediaFormats_ne_nil h hrest hne
    rw [List.append_nil] at hrem
    have hstops := (parseElements_eq_nil_iff hformats).mp hne
    have htransport : Stops (fun b => !isSpace b) c'.remaining := by
      rw [hrem]
      exact stops_dropWhile _ _
    obtain ⟨b, bs, hb⟩ := List.exists_cons_of_ne_nil hvalue
    rw [hrem, hb, stops_cons] at hstops htransport
    rw [hstops] at htransport
    cases htransport
  · refine iff_of_true ?_ hne
    have hlength := length_parseElements staysInLine_readToken hformats hne
    rw [hrem] at hlength
    rw [dropAll_append hlength, List.length_append] at hlength
    exact List.ne_nil_of_length_pos (by omega)

/-! ### What a parsed description is like -/

end SdpParser

/-- A media description as the parser leaves it. -/
structure MediaDescription.Kept (m : MediaDescription) : Prop where
  mediaType : m.mediaType ≠ .application
  numberOfPorts : m.numberOfPorts = none
  formats : ∀ fmt ∈ m.mediaFormats, Token fmt
  connectionInformation : ∀ c ∈ m.connectionInformation, c.Readable
  bandwidthInformation : m.bandwidthInformation = []
  attributes : ∀ a ∈ m.attributes, a.WellFormed

/-- A description as the parser leaves it. -/
structure SessionDescription.Kept (s : SessionDescription) : Prop where
  origin : s.origin.Readable
  sessionName : OneLine s.sessionName
  sessionInformation : ∀ v ∈ s.sessionInformation, OneLine v
  uri : ∀ v ∈ s.uri, OneLine v
  emailAddress : ∀ v ∈ s.emailAddress, OneLine v
  phoneNumber : ∀ v ∈ s.phoneNumber, OneLine v
  connectionInformation : ∀ c ∈ s.connectionInformation, c.Readable
  bandwidthInformation : s.bandwidthInformation = []
  time : ∀ t ∈ s.time, ∀ r ∈ t.repeatTimes, r.WellFormed
  attributes : ∀ a ∈ s.attributes, a.WellFormed
  media : ∀ m ∈ s.media, m.Kept

namespace SdpParser

/-- Any byte. -/
abbrev AnyByte (_ : UInt8) : Prop := True

/-- An origin of the parser is read back from its line. -/
theorem readable_of_scannedOrigin {o : Origin} (h : o.Scanned AnyByte) : o.Readable := by
  intro rest
  obtain ⟨user, sessionId, sessionVersion, nettype, addrtype, unicastAddress⟩ := o
  cases nettype with
  | internet => exact reads_parseOrigin ⟨h.user, trivial⟩
  | other name =>
    obtain ⟨hin, hne, hblank, hstops, -⟩ := h.nettype
    exact reads_parseOrigin_of h.user (if_neg hin) hblank fun rest =>
      stops_append (fun _ => hstops) fun hnil => absurd hnil hne

/-- A connection of the parser is read back from its line. -/
theorem readable_of_scannedConnection {c : ConnectionInformation}
    (h : c.nettype.Scanned AnyByte) : c.Readable := by
  intro rest
  obtain ⟨nettype, addrtype, conectionAddress⟩ := c
  apply reads_parseConnectionInfo_of
  intro rest
  cases nettype with
  | internet => exact reads_connectionNetType
  | other name =>
    obtain ⟨hin, hname⟩ := h
    apply Reads.get_bind
    intro s hs
    -- a blank is no part of `IN`
    have hpre : ¬ s.matchesPrefix (asBytes "IN") := by
      rw [Scanner.matchesPrefix, show s.remaining = asBytes name ++ 32 :: rest from hs,
        List.isPrefixOf_iff_prefix]
      intro hpre
      rcases List.prefix_or_prefix_of_prefix hpre (List.prefix_append _ _) with h | h
      · exact hin h
      · obtain ⟨more, hmore⟩ := h
        rw [← hmore, List.prefix_append_right_inj] at hpre
        cases more with
        | nil =>
          rw [List.append_nil] at hmore
          exact hin (hmore ▸ List.prefix_rfl)
        | cons b more =>
          obtain ⟨more', hmore'⟩ := hpre
          obtain rfl : b = 32 := (List.cons.inj hmore').1
          have hmem : (32 : UInt8) ∈ asBytes "IN" := by
            rw [← hmore]
            exact List.mem_append_right _ List.mem_cons_self
          exact absurd hmem (by decide)
    rw [if_neg hpre]
    apply Reads.bind_nil (reads_ofScan (Scan.reads_scanWhileAsStr
      (fun b hb => by simpa using (hname b hb).1) (stops_cons.mpr (by decide))))
    exact Reads.pure _ _

/-- The description that the parser starts with is one as it leaves it. -/
theorem kept_default (localIp : IpAddr) : (SessionDescription.default localIp).Kept where
  origin _ := reads_parseOrigin ⟨by simp [SessionDescription.default], trivial⟩
  sessionName := show OneLine "" by decide
  sessionInformation := by simp [SessionDescription.default]
  uri := by simp [SessionDescription.default]
  emailAddress := by simp [SessionDescription.default]
  phoneNumber := by simp [SessionDescription.default]
  connectionInformation := by simp [SessionDescription.default]
  bandwidthInformation := rfl
  time := List.forall_mem_nil _
  attributes := List.forall_mem_nil _
  media := List.forall_mem_nil _

/-- A line for the last media, or for the session without one, keeps the description as the parser
    leaves it. -/
theorem kept_onLastMedia {sdp : SessionDescription} (h : sdp.Kept)
    {media : MediaDescription → MediaDescription} {session : SessionDescription → SessionDescription}
    (hmedia : ∀ m : MediaDescription, m.Kept → (media m).Kept) (hsession : (session sdp).Kept) :
    (sdp.onLastMedia media session).Kept := by
  unfold SessionDescription.onLastMedia
  split
  · exact hsession
  · refine { h with media := fun m hm => ?_ }
    rcases mem_modifyLast hm with hm | ⟨m₀, hm₀, rfl⟩
    · exact h.media m hm
    · exact hmedia m₀ (h.media m₀ hm₀)

/-- To add repeat times to the last time keeps all of them readable. -/
theorem kept_time {ts : List TimeDescription} {r : RepeatTimes} (hr : r.WellFormed)
    (h : ∀ t ∈ ts, ∀ r ∈ t.repeatTimes, r.WellFormed) :
    ∀ t ∈ modifyLast (fun t => { t with repeatTimes := t.repeatTimes ++ [r] }) ts,
      ∀ r ∈ t.repeatTimes, r.WellFormed := by
  intro t ht
  rcases mem_modifyLast ht with ht | ⟨t₀, ht₀, rfl⟩
  · exact h t ht
  · exact forall_mem_concat (h t₀ ht₀) hr

/-- **A line** that has been read is kept. -/
theorem kept_store {line : SdpLine} {sdp sdp' : SessionDescription} (hline : line.Scanned AnyByte)
    (h : sdp.Kept) (hstore : line.store sdp = .ok sdp') : sdp'.Kept := by
  cases line with
  | attr a =>
    rw [← Except.ok.inj hstore]
    exact kept_onLastMedia h (fun m hm => { hm with attributes := forall_mem_concat hm.attributes hline })
      { h with attributes := forall_mem_concat h.attributes hline }
  | connection c =>
    rw [← Except.ok.inj hstore]
    have hc : c.Readable := readable_of_scannedConnection hline
    exact kept_onLastMedia h (fun m hm => { hm with connectionInformation := forall_mem_some hc })
      { h with connectionInformation := forall_mem_some hc }
  | information s =>
    rw [← Except.ok.inj hstore]
    exact kept_onLastMedia h (fun m hm => { hm with }) { h with sessionInformation := forall_mem_some hline }
  | repeatTimes r =>
    have hstore : sdp.setRepeatTimes r = .ok sdp' := hstore
    unfold SessionDescription.setRepeatTimes at hstore
    split at hstore
    · cases hstore
    · rw [← Except.ok.inj hstore]
      exact { h with time := kept_time hline h.time }
  | origin o =>
    rw [← Except.ok.inj hstore]
    exact { h with origin := readable_of_scannedOrigin hline }
  | sessionName s =>
    rw [← Except.ok.inj hstore]
    exact { h with sessionName := hline }
  | uri s =>
    rw [← Except.ok.inj hstore]
    exact { h with uri := forall_mem_some hline }
  | emailAddress s =>
    rw [← Except.ok.inj hstore]
    exact { h with emailAddress := forall_mem_some hline }
  | phoneNumber s =>
    rw [← Except.ok.inj hstore]
    exact { h with phoneNumber := forall_mem_some hline }
  | bandwidth b => exact absurd hline id
  | time t =>
    rw [← Except.ok.inj hstore]
    have ht : t.repeatTimes = [] := hline
    exact { h with time := forall_mem_concat h.time (by rw [ht]; exact List.forall_mem_nil _) }
  | media m =>
    rw [← Except.ok.inj hstore]
    have hm : m.Scanned := hline
    refine { h with media := forall_mem_concat h.media ?_ }
    rw [hm.others]
    exact ⟨hm.mediaType, rfl, hm.formats, by simp, rfl, List.forall_mem_nil _⟩
  | version | skipped => exact Except.ok.inj hstore ▸ h

/-- What the lines of any text say has been read. -/
theorem scanned_of_mem_lines {text : Bytes} {lines : List (Bytes × SdpLine)} (h : Lines text lines) :
    ∀ line ∈ lines, line.2.Scanned AnyByte := by
  intro line hmem
  obtain ⟨field, value, rest, -, c', hrun, -⟩ := gives_of_mem_lines h line hmem
  exact (scans_parseValue field _ _ _ (InBuffer.new fun _ _ => trivial) hrun).1

/-- All lines of a text keep the description as the parser leaves it. -/
theorem kept_storeLines {lines : List SdpLine} {sdp sdp' : SessionDescription}
    (hlines : ∀ line ∈ lines, line.Scanned AnyByte) (h : sdp.Kept)
    (hstore : storeLines lines sdp = .ok sdp') : sdp'.Kept := by
  induction lines generalizing sdp with
  | nil => exact Except.ok.inj hstore ▸ h
  | cons line lines ih =>
    obtain ⟨sdp₁, hline, hrest⟩ :=
      except_bind_eq_ok_iff.mp ((List.foldlM_cons ..).symm.trans hstore)
    obtain ⟨hscanned, hlines⟩ := List.forall_mem_cons.mp hlines
    exact ih hlines (kept_store hscanned h hline) hrest

/-- **A parsed description** is readable if no section has a title and every transport a format. -/
theorem readable_of_kept {sdp : SessionDescription} (h : sdp.Kept)
    (hmedia : ∀ m ∈ sdp.media, m.title = none ∧ m.mediaFormats ≠ []) : sdp.Readable := by
  refine { h with media := fun m hm => ?_ }
  obtain ⟨htitle, hformats⟩ := hmedia m hm
  have hkept := h.media m hm
  let bare : MediaDescription :=
    { mediaType := m.mediaType, proto := m.proto, port := m.port, mediaFormats := m.mediaFormats }
  have hbare : bare.WellFormed :=
    ⟨hkept.mediaType, rfl, hformats, hkept.formats, rfl, by simp [bare], rfl, List.forall_mem_nil _⟩
  have hhead : m.head = bare.head := by
    rw [MediaDescription.head, hkept.numberOfPorts]
    rfl
  refine { hkept with line := fun rest => ?_, title := htitle }
  rw [hhead]
  exact reads_parseMediaDescription hbare

/-! ### Texts that end with a line end -/

/-- A text that is over or ends with a line end. -/
def EndsLine (text : Bytes) : Prop := ∀ b ∈ text.getLast?, isNewline b

/-- A text is closed by a line end if both of its parts are. -/
theorem EndsLine.append {xs ys : Bytes} (hxs : EndsLine xs) (hys : EndsLine ys) :
    EndsLine (xs ++ ys) := by
  intro b hb
  rw [List.getLast?_append] at hb
  cases hlast : ys.getLast? with
  | some d =>
    rw [hlast] at hb
    exact hys b (hlast ▸ hb)
  | none =>
    rw [hlast] at hb
    exact hxs b hb

/-- A printed line ends with its line end. -/
theorem endsLine_line (field text : String) : EndsLine (asBytes (line field text)) := by
  intro b hb
  have hends : asBytes "\r\n" = [13, 10] := by decide
  rw [line, asBytes_append, hends, List.getLast?_append_of_ne_nil _ (List.cons_ne_nil _ _)] at hb
  obtain rfl : (10 : UInt8) = b := Option.some.inj hb
  rfl

/-- The printed lines of a list end with a line end, or there are none. -/
theorem endsLine_texts {α : Type} {toText : α → String} (h : ∀ a, EndsLine (asBytes (toText a)))
    (as : List α) : EndsLine (asBytes (texts toText as)) := by
  induction as with
  | nil => exact fun b hb => absurd hb (by simp [texts])
  | cons a as ih =>
    rw [show texts toText (a :: as) = toText a ++ texts toText as from rfl, asBytes_append]
    exact (h a).append ih

/-- An optional line ends with a line end, or is not there. -/
theorem endsLine_lineOf {α : Type} (field : String) (toText : α → String) (value : Option α) :
    EndsLine (asBytes (lineOf field toText value)) := by
  rw [lineOf_eq]
  exact endsLine_texts (fun _ => endsLine_line _ _) _

/-- A printed media section ends with a line end. -/
theorem endsLine_media (m : MediaDescription) : EndsLine (asBytes m.toText) := by
  rw [MediaDescription.toText]
  simp only [asBytes_append]
  exact (endsLine_line _ _).append (endsLine_lineOf _ _ _) |>.append (endsLine_lineOf _ _ _)
    |>.append (endsLine_texts (fun _ => endsLine_line _ _) _)
    |>.append (endsLine_texts (fun _ => endsLine_line _ _) _)

/-- A printed time ends with a line end. -/
theorem endsLine_time (t : TimeDescription) : EndsLine (asBytes t.toText) := by
  rw [TimeDescription.toText, asBytes_append]
  exact (endsLine_line _ _).append (endsLine_texts (fun _ => endsLine_line _ _) _)

/-- A printed description ends with a line end. -/
theorem endsLine_encode (sdp : SessionDescription) : EndsLine sdp.encode := by
  rw [SessionDescription.encode, SessionDescription.toText]
  simp only [asBytes_append]
  exact (endsLine_line _ _).append (endsLine_line _ _) |>.append (endsLine_line _ _)
    |>.append (endsLine_lineOf _ _ _) |>.append (endsLine_lineOf _ _ _)
    |>.append (endsLine_lineOf _ _ _) |>.append (endsLine_lineOf _ _ _)
    |>.append (endsLine_lineOf _ _ _)
    |>.append (endsLine_texts (fun _ => endsLine_line _ _) _)
    |>.append (endsLine_texts endsLine_time _)
    |>.append (endsLine_texts (fun _ => endsLine_line _ _) _)
    |>.append (endsLine_texts endsLine_media _)

/-- In a text that ends with a line end every transport has a format. -/
theorem formats_of_endsLine {text : Bytes} {lines : List (Bytes × SdpLine)} (h : Lines text lines)
    (hends : EndsLine text) : ∀ line ∈ lines, ∀ m, line.2 = .media m → m.mediaFormats ≠ [] := by
  induction h with
  | nil => exact List.forall_mem_nil _
  | @cons field value rest line lines hvalue _ ih =>
    obtain ⟨hrest, hlast⟩ := getLast?_rest hvalue hends
    refine List.forall_mem_cons.mpr ⟨fun m hm => ?_, ih fun b hb => ?_⟩
    · obtain rfl : line = .media m := hm
      have hletter := letter_of_gives hvalue
      have hfield : field = SdpField.mediaDescription := by
        split at hletter
        · cases hletter
        · exact (Option.some.inj hletter).symm
      subst hfield
      obtain ⟨m', hm', hgives⟩ :=
        gives_map.mp (show Gives (SdpLine.media <$> parseMediaDescription) _ _ rest from hvalue)
      exact SdpLine.media.inj hm' ▸ mediaFormats_ne_nil hgives hrest
    · by_cases hdrop : rest.dropWhile isNewline = []
      · rw [hdrop] at hb
        cases hb
      · rw [← List.takeWhile_append_dropWhile (p := isNewline) (l := rest),
          List.getLast?_append_of_ne_nil _ hdrop] at hlast
        exact hlast b hb

/-! ### Sections of a parsed text -/

/-- The media description is what the lines of the section make of the one in its first line. -/
def StoredFrom (sec : (Bytes × SdpLine) × List (Bytes × SdpLine)) (m : MediaDescription) : Prop :=
  ∃ m₀, sec.1.2 = .media m₀ ∧ m = storeSection sec.2 m₀

/-- The lines of a section, its media line included, are lines of the text. -/
theorem mem_sections {lines : List (Bytes × SdpLine)}
    {sec : (Bytes × SdpLine) × List (Bytes × SdpLine)} (h : sec ∈ sections lines) :
    sec.1 ∈ lines ∧ ∀ line ∈ sec.2, line ∈ lines := by
  induction lines with
  | nil => exact absurd h List.not_mem_nil
  | cons line lines ih =>
    have hlater : sec ∈ sections lines → sec.1 ∈ line :: lines ∧ ∀ l ∈ sec.2, l ∈ line :: lines :=
      fun h => ⟨List.mem_cons_of_mem _ (ih h).1, fun l hl => List.mem_cons_of_mem _ ((ih h).2 l hl)⟩
    rw [sections] at h
    split at h
    · rcases List.mem_cons.mp h with rfl | h
      · refine ⟨List.mem_cons_self, fun l hl => List.mem_cons_of_mem _ ?_⟩
        exact (List.takeWhile_sublist _).subset hl
      · exact hlater h
    · exact hlater h

/-- Of two lists that match, each element of the first has a partner. -/
theorem exists_of_mem_left {α β : Type} {R : α → β → Prop} {as : List α} {bs : List β}
    (h : List.Forall₂ R as bs) : ∀ a ∈ as, ∃ b ∈ bs, R a b := by
  induction h with
  | nil => exact List.forall_mem_nil _
  | @cons a b as bs hab _ ih =>
    refine List.forall_mem_cons.mpr ⟨⟨b, List.mem_cons_self, hab⟩, fun a' ha' => ?_⟩
    obtain ⟨b', hb', hab'⟩ := ih a' ha'
    exact ⟨b', List.mem_cons_of_mem _ hb', hab'⟩

/-- Of two lists that match, each element of the second has a partner. -/
theorem exists_of_mem_right {α β : Type} {R : α → β → Prop} {as : List α} {bs : List β}
    (h : List.Forall₂ R as bs) : ∀ b ∈ bs, ∃ a ∈ as, R a b :=
  exists_of_mem_left (R := fun b a => R a b) h.flip

/-- The media of a parsed description are made of its sections, one by one and in their order. -/
theorem storedFrom_of_parse {localIp : IpAddr} {text : Bytes} {sdp : SessionDescription}
    {lines : List (Bytes × SdpLine)} (hlines : Lines text lines)
    (hstore : storeLines (lines.map Prod.snd) (SessionDescription.default localIp) = .ok sdp) :
    List.Forall₂ StoredFrom (sections lines) sdp.media := by
  obtain ⟨added, hadded, hmedia⟩ := media_storeLines (isMediaLine_iff hlines) hstore
  obtain rfl : sdp.media = added := hmedia
  exact hadded

variable {text : Bytes} {lines : List (Bytes × SdpLine)}

/-- No bandwidth is ever read. -/
theorem said_bandwidth (hlines : Lines text lines) {some : List (Bytes × SdpLine)}
    (h : ∀ line ∈ some, line ∈ lines) : said SdpLine.bandwidth? some = [] := by
  refine List.filterMap_eq_nil_iff.mpr fun line hline => ?_
  have hscanned := scanned_of_mem_lines hlines line (h line hline)
  obtain ⟨bytes, line⟩ := line
  cases line with
  | bandwidth b => exact absurd hscanned id
  | _ => rfl

/-- The lines of a kind are counted by their letter. -/
theorem length_said {α : Type} {kind : SdpLine → Option α} {field : SdpField}
    (hlines : Lines text lines) (hfield : uninterpreted field = false)
    (hkind : ∀ line : SdpLine, (kind line).isSome ↔ line.letter = some field)
    {some : List (Bytes × SdpLine)} (h : ∀ line ∈ some, line ∈ lines) :
    (said kind some).length = some.countP (letterIs field) := by
  rw [said, List.length_filterMap_eq_countP]
  refine List.countP_congr fun line hline => ?_
  rw [hkind, letterIs_iff hlines (h line hline) hfield]

/-- A media line with formats, no titles behind it, and one connection at most. -/
def plainSection (sec : (Bytes × SdpLine) × List (Bytes × SdpLine)) : Bool :=
  hasFormat sec.1.1 && sec.2.countP (letterIs SdpField.sessionInformation) == 0 &&
    decide (sec.2.countP (letterIs SdpField.connectionInformation) ≤ 1)

/-- All sections of the text are plain. -/
def plainSections (text : Bytes) : Bool :=
  (readLines text).any fun lines => (sections lines).all plainSection

/-- A section is plain in the text exactly if its description has formats, and its lines no title
    and one address at most. -/
theorem plainSection_iff (hlines : Lines text lines)
    {sec : (Bytes × SdpLine) × List (Bytes × SdpLine)} (hsec : sec ∈ sections lines)
    {m : MediaDescription} (hm : sec.1.2 = .media m) : plainSection sec ↔
      m.mediaFormats ≠ [] ∧ said SdpLine.information? sec.2 = [] ∧
        (said SdpLine.connection? sec.2).length ≤ 1 := by
  obtain ⟨hhead, hrest⟩ := mem_sections hsec
  have hinfo := length_said hlines (by decide) SdpLine.isSome_information?_iff hrest
  have hconn := length_said hlines (by decide) SdpLine.isSome_connection?_iff hrest
  obtain ⟨field, value, rest, hbytes, hgives⟩ := gives_of_mem_lines hlines _ hhead
  have hformat : hasFormat sec.1.1 ↔ m.mediaFormats ≠ [] := by
    rw [hm] at hgives
    have hfield : field = SdpField.mediaDescription := by
      have hletter := letter_of_gives hgives
      split at hletter
      · cases hletter
      · exact (Option.some.inj hletter).symm
    subst hfield
    obtain ⟨m', hm', hread⟩ :=
      gives_map.mp (show Gives (SdpLine.media <$> parseMediaDescription) _ _ rest from hgives)
    rw [hbytes, hasFormat_iff hread, SdpLine.media.inj hm']
  rw [plainSection, Bool.and_eq_true, Bool.and_eq_true, hformat, beq_iff_eq, decide_eq_true_eq,
    ← hinfo, ← hconn, List.length_eq_zero_iff, and_assoc]

/-- **Sections are held** by what they are stored in if they are plain, up to the formats. -/
theorem forall₂_sectionHolds_iff (hlines : Lines text lines)
    {secs : List ((Bytes × SdpLine) × List (Bytes × SdpLine))} {media : List MediaDescription}
    (h : List.Forall₂ StoredFrom secs media) (hsecs : ∀ sec ∈ secs, sec ∈ sections lines) :
    List.Forall₂ SectionHolds secs media ↔ ∀ sec ∈ secs,
      said SdpLine.information? sec.2 = [] ∧ (said SdpLine.connection? sec.2).length ≤ 1 := by
  induction h with
  | nil => simp
  | @cons sec m secs media hm _ ih =>
    obtain ⟨hsec, hsecs⟩ := List.forall_mem_cons.mp hsecs
    obtain ⟨m₀, hm₀, rfl⟩ := hm
    obtain ⟨hhead, hrest⟩ := mem_sections hsec
    have hscanned : SdpLine.Scanned AnyByte (.media m₀) :=
      hm₀ ▸ scanned_of_mem_lines hlines _ hhead
    rw [List.forall₂_cons, ih hsecs, List.forall_mem_cons]
    exact and_congr_left' (sectionHolds_iff hscanned hm₀ (said_bandwidth hlines hrest))

/-- The lines of each section belong to their media description: they are held by it, in their
    order, and the printed description is parsed as the same again. -/
structure InSections (text : Bytes) (sdp : SessionDescription) : Prop where
  held : ∃ lines, Lines text lines ∧ List.Forall₂ SectionHolds (sections lines) sdp.media
  reparsed : ∀ localIp, parse localIp sdp.encode = .ok sdp

/-- A description that its own text is parsed as has formats for every transport. -/
theorem formats_of_reparsed {localIp : IpAddr} {sdp : SessionDescription}
    (h : parse localIp sdp.encode = .ok sdp) : ∀ m ∈ sdp.media, m.mediaFormats ≠ [] := by
  obtain ⟨lines, hlines, hstore⟩ := parse_eq_ok_iff.mp h
  intro m hm
  obtain ⟨sec, hsec, m₀, hm₀, rfl⟩ := exists_of_mem_right (storedFrom_of_parse hlines hstore) m hm
  rw [storeSection_eq]
  exact formats_of_endsLine hlines (endsLine_encode sdp) _ (mem_sections hsec).1 m₀ hm₀

/-- **Media lines belong to their section** if and only if the sections are plain. -/
theorem inSections_iff {localIp : IpAddr} {text : Bytes} {sdp : SessionDescription}
    (h : parse localIp text = .ok sdp) : InSections text sdp ↔ plainSections text := by
  obtain ⟨lines, hlines, hstore⟩ := parse_eq_ok_iff.mp h
  have hstored := storedFrom_of_parse hlines hstore
  have hheld_iff := forall₂_sectionHolds_iff hlines hstored fun _ => id
  rw [plainSections, readLines_eq_some_iff.mpr hlines, Option.any_some, List.all_eq_true]
  constructor
  · rintro ⟨⟨lines', hlines', hheld⟩, hparse⟩ sec hsec
    obtain rfl : lines = lines' := by
      have hread := readLines_eq_some_iff.mpr hlines
      rw [readLines_eq_some_iff.mpr hlines'] at hread
      exact (Option.some.inj hread).symm
    obtain ⟨m, hm, m₀, hm₀, rfl⟩ := exists_of_mem_left hstored sec hsec
    have hformats := formats_of_reparsed (hparse localIp) _ hm
    rw [storeSection_eq] at hformats
    exact (plainSection_iff hlines hsec hm₀).mpr ⟨hformats, hheld_iff.mp hheld sec hsec⟩
  · intro hplain
    have hsections : ∀ sec ∈ sections lines, ∀ m₀, sec.1.2 = .media m₀ → m₀.mediaFormats ≠ [] ∧
        said SdpLine.information? sec.2 = [] ∧ (said SdpLine.connection? sec.2).length ≤ 1 :=
      fun sec hsec m₀ hm₀ => (plainSection_iff hlines hsec hm₀).mp (hplain sec hsec)
    have hkept : sdp.Kept := by
      refine kept_storeLines (fun line hline => ?_) (kept_default localIp) hstore
      obtain ⟨read, hread, rfl⟩ := List.mem_map.mp hline
      exact scanned_of_mem_lines hlines read hread
    have hreadable : sdp.Readable := by
      refine readable_of_kept hkept fun m hm => ?_
      obtain ⟨sec, hsec, m₀, hm₀, rfl⟩ := exists_of_mem_right hstored m hm
      obtain ⟨hformats, hinfo, -⟩ := hsections sec hsec m₀ hm₀
      have hscanned : m₀.Scanned :=
        show SdpLine.Scanned AnyByte (.media m₀) from
          hm₀ ▸ scanned_of_mem_lines hlines _ (mem_sections hsec).1
      rw [storeSection_eq, hinfo, hscanned.others]
      exact ⟨rfl, hformats⟩
    refine ⟨⟨lines, hlines, hheld_iff.mpr fun sec hsec => ?_⟩, fun ip =>
      parse_encode_of_readable hreadable ip hkept.bandwidthInformation⟩
    obtain ⟨m, -, m₀, hm₀, -⟩ := exists_of_mem_left hstored sec hsec
    exact (hsections sec hsec m₀ hm₀).2

/-- A session with a connection and an attribute for its stream. -/
def connectedStream : Bytes :=
  asBytes "s=-\r\nm=audio 5000 RTP/AVP 0\r\nc=IN IP4 10.0.0.2\r\na=recvonly\r\n"

/-- A description with one media section that has an address of its own. -/
def connected : SessionDescription :=
  { origin := { unicastAddress := .v4 ⟨10, 0, 0, 1⟩ }
    sessionName := "-"
    media := [
      { mediaType := .audio
        proto := .rtpAvp
        port := 5000
        mediaFormats := ["0"]
        connectionInformation := some ⟨.internet, .ip4, .v4 ⟨10, 0, 0, 2⟩⟩
        attributes := [⟨"recvonly", none⟩] }] }

/-- The text can be parsed, and its lines belong to the stream. -/
theorem inSections_iff_connected : parse (.v4 ⟨10, 0, 0, 1⟩) connectedStream = .ok connected ∧
    (InSections connectedStream connected ↔ plainSections connectedStream) := by
  have hparse : parse (.v4 ⟨10, 0, 0, 1⟩) connectedStream = .ok connected := by decide +kernel
  exact ⟨hparse, inSections_iff hparse⟩

/-- A stream with a title. -/
def titledStream : Bytes := asBytes "s=-\r\nm=audio 5000 RTP/AVP 0\r\ni=talk\r\n"

/-- A description with one media section that has a title. -/
def titled : SessionDescription :=
  { origin := { unicastAddress := .v4 ⟨10, 0, 0, 1⟩ }
    sessionName := "-"
    media := [
      { mediaType := .audio
        proto := .rtpAvp
        port := 5000
        mediaFormats := ["0"]
        title := some "talk" }] }

/-- The title of a stream is printed as a time, with the letter `t`, and the printed text is not
    parsed. -/
theorem not_inSections : ¬ ∀ (localIp : IpAddr) (text : Bytes) (sdp : SessionDescription),
    parse localIp text = .ok sdp → InSections text sdp := by
  intro h
  have hparse : parse (.v4 ⟨10, 0, 0, 1⟩) titledStream = .ok titled := by decide +kernel
  have hreparsed := (h _ _ _ hparse).reparsed (.v4 ⟨10, 0, 0, 1⟩)
  have hfails : parse (.v4 ⟨10, 0, 0, 1⟩) titled.encode ≠ .ok titled := by decide +kernel
  exact hfails hreparsed

end SdpParser

end Rssip.Media
