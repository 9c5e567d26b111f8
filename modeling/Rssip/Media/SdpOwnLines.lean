import Mathlib.Data.List.Forall2
import Rssip.Media.SdpLineEnds
import Rssip.Media.SdpText

namespace Rssip.Media

open Lib

/-!
# Lines of their own

What a line says is said by the bytes between two line ends, unless a network type has no blank
behind it.

* `textLines` — the lines of a text, found by their ends alone;
* `ReadApart` — what is read of a text is read of these lines, one by one;
* `OwnLines` — moreover, no string of the description has a line end;
* `sdpLines_apart_iff` — the lines of a text are independent if and only if they are closed.
-/

/-! ### The strings of a description -/

/-- The texts of an attribute. -/
def Attribute.texts (a : Attribute) : List String := a.name :: a.value.toList

/-- The texts of a `c` line, numbers left out. -/
def ConnectionInformation.texts (c : ConnectionInformation) : List String := [c.nettype.toText]

/-- The texts of a `b` line, numbers left out. -/
def BandwidthInformation.texts (b : BandwidthInformation) : List String := [b.bwtype.toText]

/-- The texts of the `o` line, numbers and addresses left out. -/
def Origin.texts (o : Origin) : List String := [o.user, o.nettype.toText]

/-- The texts of a media section, numbers left out. -/
def MediaDescription.texts (m : MediaDescription) : List String :=
  m.mediaFormats ++ m.title.toList ++
    m.connectionInformation.toList.flatMap ConnectionInformation.texts ++
    m.bandwidthInformation.flatMap BandwidthInformation.texts ++
    m.attributes.flatMap Attribute.texts

/-- All texts of a description, numbers left out. -/
def SessionDescription.texts (s : SessionDescription) : List String :=
  s.origin.texts ++ [s.sessionName] ++ s.sessionInformation.toList ++ s.uri.toList ++
    s.emailAddress.toList ++ s.phoneNumber.toList ++
    s.connectionInformation.toList.flatMap ConnectionInformation.texts ++
    s.bandwidthInformation.flatMap BandwidthInformation.texts ++
    s.attributes.flatMap Attribute.texts ++ s.media.flatMap MediaDescription.texts

/-- The texts of a line that was read. -/
def SdpLine.texts : SdpLine → List String
  | .attr a => a.texts
  | .origin o => o.texts
  | .sessionName s | .information s | .uri s | .emailAddress s | .phoneNumber s => [s]
  | .connection c => c.texts
  | .bandwidth b => b.texts
  | .media m => m.texts
  | .version | .time _ | .repeatTimes _ | .skipped => []

section

variable {P : String → Prop} {sdp sdp' : SessionDescription}

/-- A property of all texts of a media section, field by field. -/
theorem MediaDescription.forall_texts {m : MediaDescription} : (∀ s ∈ m.texts, P s) ↔
    (∀ s ∈ m.mediaFormats, P s) ∧ (∀ s ∈ m.title, P s) ∧
      (∀ c ∈ m.connectionInformation, ∀ s ∈ c.texts, P s) ∧
        (∀ b ∈ m.bandwidthInformation, ∀ s ∈ b.texts, P s) ∧
          ∀ a ∈ m.attributes, ∀ s ∈ a.texts, P s := by
  simp only [texts, List.forall_mem_append, List.forall_mem_flatMap, Option.mem_toList, and_assoc]
  exact Iff.rfl

/-- A property of all texts of a description, field by field. -/
theorem SessionDescription.forall_texts : (∀ s ∈ sdp.texts, P s) ↔
    (∀ s ∈ sdp.origin.texts, P s) ∧ P sdp.sessionName ∧ (∀ s ∈ sdp.sessionInformation, P s) ∧
      (∀ s ∈ sdp.uri, P s) ∧ (∀ s ∈ sdp.emailAddress, P s) ∧ (∀ s ∈ sdp.phoneNumber, P s) ∧
        (∀ c ∈ sdp.connectionInformation, ∀ s ∈ c.texts, P s) ∧
          (∀ b ∈ sdp.bandwidthInformation, ∀ s ∈ b.texts, P s) ∧
            (∀ a ∈ sdp.attributes, ∀ s ∈ a.texts, P s) ∧ ∀ m ∈ sdp.media, ∀ s ∈ m.texts, P s := by
  simp only [texts, List.forall_mem_append, List.forall_mem_flatMap, Option.mem_toList, and_assoc,
    List.forall_mem_singleton]
  exact Iff.rfl

/-- A line that goes to the last media section brings its strings there. -/
theorem forall_texts_onLastMedia {media : MediaDescription → MediaDescription}
    {session : SessionDescription → SessionDescription}
    (hmedia : ∀ m, (∀ s ∈ m.texts, P s) → ∀ s ∈ (media m).texts, P s)
    (hsession : (∀ s ∈ sdp.texts, P s) → ∀ s ∈ (session sdp).texts, P s)
    (hsdp : ∀ s ∈ sdp.texts, P s) : ∀ s ∈ (sdp.onLastMedia media session).texts, P s := by
  unfold SessionDescription.onLastMedia
  split
  · exact hsession hsdp
  · rw [SessionDescription.forall_texts] at hsdp ⊢
    obtain ⟨horigin, hname, hinfo, huri, hemail, hphone, hconn, hbandwidth, hattrs, hold⟩ := hsdp
    refine ⟨horigin, hname, hinfo, huri, hemail, hphone, hconn, hbandwidth, hattrs, ?_⟩
    intro m hm
    rcases mem_modifyLast hm with hm | ⟨m₀, hm₀, rfl⟩
    · exact hold m hm
    · exact hmedia m₀ (hold m₀ hm₀)

/-- **A line** adds its strings to those of the description. -/
theorem SdpLine.forall_texts_store {line : SdpLine} (h : line.store sdp = .ok sdp')
    (hline : ∀ s ∈ line.texts, P s) (hsdp : ∀ s ∈ sdp.texts, P s) : ∀ s ∈ sdp'.texts, P s := by
  have hparts := SessionDescription.forall_texts.mp hsdp
  obtain ⟨horigin, hname, hinfo, huri, hemail, hphone, hconn, hbandwidth, hattrs, hmedia⟩ := hparts
  cases line with
  | attr a =>
    obtain rfl := Except.ok.inj h
    refine forall_texts_onLastMedia (fun m hm => ?_) (fun _ => ?_) hsdp
    · obtain ⟨hformats, htitle, hconn, hbandwidth, hattrs⟩ := MediaDescription.forall_texts.mp hm
      exact MediaDescription.forall_texts.mpr
        ⟨hformats, htitle, hconn, hbandwidth, forall_mem_concat hattrs hline⟩
    · exact SessionDescription.forall_texts.mpr ⟨horigin, hname, hinfo, huri, hemail, hphone, hconn,
        hbandwidth, forall_mem_concat hattrs hline, hmedia⟩
  | origin o =>
    obtain rfl := Except.ok.inj h
    exact SessionDescription.forall_texts.mpr ⟨hline, hname, hinfo, huri, hemail, hphone, hconn,
      hbandwidth, hattrs, hmedia⟩
  | sessionName name =>
    obtain rfl := Except.ok.inj h
    exact SessionDescription.forall_texts.mpr ⟨horigin, hline name (List.mem_singleton_self name),
      hinfo, huri, hemail, hphone, hconn, hbandwidth, hattrs, hmedia⟩
  | connection c =>
    obtain rfl := Except.ok.inj h
    refine forall_texts_onLastMedia (fun m hm => ?_) (fun _ => ?_) hsdp
    · obtain ⟨hformats, htitle, -, hbandwidth, hattrs⟩ := MediaDescription.forall_texts.mp hm
      exact MediaDescription.forall_texts.mpr
        ⟨hformats, htitle, forall_mem_some hline, hbandwidth, hattrs⟩
    · exact SessionDescription.forall_texts.mpr ⟨horigin, hname, hinfo, huri, hemail, hphone,
        forall_mem_some hline, hbandwidth, hattrs, hmedia⟩
  | information info =>
    obtain rfl := Except.ok.inj h
    have hinfo' : P info := hline info (List.mem_singleton_self info)
    refine forall_texts_onLastMedia (fun m hm => ?_) (fun _ => ?_) hsdp
    · obtain ⟨hformats, -, hconn, hbandwidth, hattrs⟩ := MediaDescription.forall_texts.mp hm
      exact MediaDescription.forall_texts.mpr
        ⟨hformats, forall_mem_some hinfo', hconn, hbandwidth, hattrs⟩
    · exact SessionDescription.forall_texts.mpr ⟨horigin, hname, forall_mem_some hinfo', huri, hemail,
        hphone, hconn, hbandwidth, hattrs, hmedia⟩
  | uri uri =>
    obtain rfl := Except.ok.inj h
    have huri' : P uri := hline uri (List.mem_singleton_self uri)
    exact SessionDescription.forall_texts.mpr ⟨horigin, hname, hinfo, forall_mem_some huri', hemail,
      hphone, hconn, hbandwidth, hattrs, hmedia⟩
  | emailAddress email =>
    obtain rfl := Except.ok.inj h
    have hemail' : P email := hline email (List.mem_singleton_self email)
    exact SessionDescription.forall_texts.mpr ⟨horigin, hname, hinfo, huri, forall_mem_some hemail',
      hphone, hconn, hbandwidth, hattrs, hmedia⟩
  | phoneNumber phone =>
    obtain rfl := Except.ok.inj h
    have hphone' : P phone := hline phone (List.mem_singleton_self phone)
    exact SessionDescription.forall_texts.mpr ⟨horigin, hname, hinfo, huri, hemail,
      forall_mem_some hphone', hconn, hbandwidth, hattrs, hmedia⟩
  | bandwidth b =>
    obtain rfl := Except.ok.inj h
    exact SessionDescription.forall_texts.mpr ⟨horigin, hname, hinfo, huri, hemail, hphone, hconn,
      forall_mem_concat hbandwidth hline, hattrs, hmedia⟩
  | time t =>
    obtain rfl := Except.ok.inj h
    exact hsdp
  | repeatTimes r =>
    have h : sdp.setRepeatTimes r = .ok sdp' := h
    unfold SessionDescription.setRepeatTimes at h
    split at h
    · cases h
    · obtain rfl := Except.ok.inj h
      exact hsdp
  | media m =>
    obtain rfl := Except.ok.inj h
    exact SessionDescription.forall_texts.mpr ⟨horigin, hname, hinfo, huri, hemail, hphone, hconn,
      hbandwidth, hattrs, forall_mem_concat hmedia hline⟩
  | version | skipped =>
    obtain rfl := Except.ok.inj h
    exact hsdp

/-- If the texts of the lines and of the description have a property, then so have those of the
    description after them. -/
theorem forall_texts_storeLines {lines : List SdpLine} (h : storeLines lines sdp = .ok sdp')
    (hlines : ∀ line ∈ lines, ∀ s ∈ line.texts, P s) (hsdp : ∀ s ∈ sdp.texts, P s) :
    ∀ s ∈ sdp'.texts, P s := by
  induction lines generalizing sdp with
  | nil => exact Except.ok.inj h ▸ hsdp
  | cons line lines ih =>
    obtain ⟨sdp₁, hstore, hrest⟩ := except_bind_eq_ok_iff.mp ((List.foldlM_cons ..).symm.trans h)
    obtain ⟨hline, hlines⟩ := List.forall_mem_cons.mp hlines
    exact ih hrest hlines (line.forall_texts_store hstore hline hsdp)

end

namespace SdpParser

/-! ### Lines and their ends -/

/-- The lines of a text, found by their ends alone. -/
def textLines (text : Bytes) : List Bytes := (text.splitOnP isNewline).filter (! ·.isEmpty)

/-- A line end in front of a text makes no further line. -/
theorem textLines_newline {b : UInt8} (hb : isNewline b) (text : Bytes) :
    textLines (b :: text) = textLines text := by
  have hsplit : ([] ++ b :: text).splitOnP isNewline = [] :: text.splitOnP isNewline :=
    List.splitOnP_append_cons_of_forall_mem (List.forall_mem_nil _) b hb text
  rw [textLines, show b :: text = [] ++ b :: text from rfl, hsplit]
  rfl

/-- Nor do some line ends. -/
theorem textLines_dropWhile (text : Bytes) :
    textLines (text.dropWhile isNewline) = textLines text := by
  induction text with
  | nil => rfl
  | cons b text ih =>
    by_cases hb : isNewline b
    · rw [List.dropWhile_cons_of_pos hb, ih, textLines_newline hb]
    · rw [List.dropWhile_cons_of_neg hb]

/-- A line, and the lines behind it. -/
theorem textLines_line {line rest : Bytes} (hne : line ≠ [])
    (hline : ∀ b ∈ line, isNewline b = false) (hrest : ∀ b ∈ rest.head?, isNewline b) :
    textLines (line ++ rest) = line :: textLines rest := by
  have hfilter : ∀ lines : List Bytes,
      (line :: lines).filter (! ·.isEmpty) = line :: lines.filter (! ·.isEmpty) := by
    intro lines
    exact List.filter_cons_of_pos (by simpa using hne)
  cases rest with
  | nil =>
    rw [List.append_nil, textLines, List.splitOnP_eq_singleton hline, hfilter]
    rfl
  | cons b rest =>
    have hb : isNewline b := hrest b rfl
    rw [textLines_newline hb, textLines,
      List.splitOnP_append_cons_of_forall_mem hline b hb rest, hfilter]
    rfl

example : textLines (asBytes "v=0\r\ns=-\r\n") = [asBytes "v=0", asBytes "s=-"] := by decide

/-- The lines that a text is read as are read from the lines between its line ends, from each of
    them on its own. -/
def ReadApart (text : Bytes) (lines : List (Bytes × SdpLine)) : Prop :=
  ∃ parts, List.Forall₂ Lines (textLines text) parts ∧ lines = parts.flatten

section

variable {field : SdpField} {value rest : Bytes} {line : SdpLine}

/-- A value without line ends is read from its line alone. -/
theorem gives_leftInLine (h : Gives (parseValue field) (Scanner.new (value ++ rest)) line rest)
    (hvalue : ∀ b ∈ value, isNewline b = false) :
    Gives (parseValue field) (Scanner.new (value ++ leftInLine rest)) line (leftInLine rest) := by
  obtain ⟨behind, hrest, hbehind⟩ := exists_leftInLine rest
  have hline : InLine isNewline (Scanner.new (value ++ rest)) (Scanner.new (value ++ leftInLine rest))
      behind := by
    refine ⟨?_, hbehind⟩
    show value ++ rest = value ++ leftInLine rest ++ behind
    rw [List.append_assoc, ← hrest]
  refine gives_parseValue ?_ (((staysInLine_valueInLine field).inLine hline line _).mpr ?_)
  · exact List.forall_mem_append.mpr ⟨hvalue, not_isNewline_leftInLine rest⟩
  · rw [← hrest]
    exact gives_valueInLine h

end

/-- Lines without line ends are read apart. -/
theorem readApart_of_lines {text : Bytes} {lines : List (Bytes × SdpLine)} (h : Lines text lines)
    (hlines : ∀ line ∈ lines, ∀ b ∈ line.1, isNewline b = false) : ReadApart text lines := by
  induction h with
  | nil => exact ⟨[], .nil, rfl⟩
  | @cons field value rest line lines hvalue _ ih =>
    obtain ⟨hline, hlines⟩ := List.forall_mem_cons.mp hlines
    obtain ⟨parts, hparts, hflatten⟩ := ih hlines
    have hread := gives_leftInLine hvalue fun b hb =>
      hline b (List.mem_cons_of_mem _ (List.mem_cons_of_mem _ hb))
    obtain ⟨behind, hrest, hbehind⟩ := exists_leftInLine rest
    -- the line, with what is left of it
    have htext : textLines (field :: 61 :: (value ++ rest)) =
        (field :: 61 :: (value ++ leftInLine rest)) :: textLines behind := by
      have hsplit : field :: 61 :: (value ++ rest) =
          field :: 61 :: (value ++ leftInLine rest) ++ behind := by
        rw [List.cons_append, List.cons_append, List.append_assoc, ← hrest]
      rw [hsplit]
      refine textLines_line (List.cons_ne_nil _ _) ?_ hbehind
      rw [← List.cons_append, ← List.cons_append, List.forall_mem_append]
      exact ⟨hline, not_isNewline_leftInLine rest⟩
    rw [ReadApart, htext]
    by_cases hleft : leftInLine rest = []
    · -- the next line is the next one of the text
      rw [hleft, List.nil_append] at hrest
      rw [textLines_dropWhile, hrest] at hparts
      refine ⟨[(field :: 61 :: value, line)] :: parts, .cons ?_ hparts, by rw [hflatten]; rfl⟩
      exact .cons hread (by rw [hleft]; exact .nil)
    · -- the next line starts in what is left
      have hdrop : ∀ xs : Bytes, Stops isNewline (leftInLine rest ++ xs) := by
        intro xs b hb
        rw [List.head?_append_of_ne_nil _ hleft] at hb
        exact not_isNewline_leftInLine rest b (List.mem_of_mem_head? hb)
      rw [textLines_dropWhile, hrest,
        textLines_line hleft (not_isNewline_leftInLine rest) hbehind] at hparts
      cases hparts with
      | @cons _ part _ parts hpart hparts =>
        refine ⟨((field :: 61 :: value, line) :: part) :: parts, .cons ?_ hparts,
          by rw [hflatten]; rfl⟩
        refine .cons hread ?_
        have hstops := hdrop []
        rw [List.append_nil] at hstops
        rwa [hstops.dropWhile_eq]

/-- What lines without line ends say has none either. -/
theorem scanned_of_lines {text : Bytes} {lines : List (Bytes × SdpLine)} (h : Lines text lines)
    (hlines : ∀ line ∈ lines, ∀ b ∈ line.1, isNewline b = false) :
    ∀ line ∈ lines, line.2.Scanned (isNewline · = false) := by
  induction h with
  | nil => exact List.forall_mem_nil _
  | @cons field value rest line lines hvalue _ ih =>
    obtain ⟨hline, hlines⟩ := List.forall_mem_cons.mp hlines
    refine List.forall_mem_cons.mpr ⟨?_, ih hlines⟩
    have hvalue' : ∀ b ∈ value, isNewline b = false := fun b hb =>
      hline b (List.mem_cons_of_mem _ (List.mem_cons_of_mem _ hb))
    obtain ⟨c', hrun, -⟩ := gives_leftInLine hvalue hvalue'
    have hnew : ∀ b ∈ value ++ leftInLine rest, isNewline b = false :=
      List.forall_mem_append.mpr ⟨hvalue', not_isNewline_leftInLine rest⟩
    exact (scans_parseValue field _ _ _ (InBuffer.new hnew) hrun).1

/-! ### Clean strings -/

/-- No line ends in a token. -/
theorem oneLine_token {s : String} (h : Token s) : OneLine s :=
  fun b hb => not_isNewline (excludes_isNewline (by decide)) (h b hb)

/-- The texts of a line that was scanned without line ends have none in them. -/
theorem oneLine_texts {line : SdpLine} (h : line.Scanned (isNewline · = false)) :
    ∀ s ∈ line.texts, OneLine s := by
  cases line with
  | attr a =>
    refine List.forall_mem_cons.mpr ⟨oneLine_token h.name, fun s hs => ?_⟩
    exact h.value s (Option.mem_toList.mp hs)
  | origin o =>
    refine List.forall_mem_cons.mpr ⟨fun b hb => ?_, List.forall_mem_singleton.mpr ?_⟩
    · have hexcludes : Excludes isNewline fun b => !isAsciiWhitespace b :=
        excludes_isNewline (by decide)
      exact not_isNewline hexcludes (by simp [h.user b hb])
    · cases hnettype : o.nettype with
      | internet => decide
      | other name =>
        have hname := h.nettype
        rw [hnettype] at hname
        exact hname.2.2.2.2
  | connection c =>
    refine List.forall_mem_singleton.mpr ?_
    cases hnettype : c.nettype with
    | internet => decide
    | other name =>
      have hname : c.nettype.Scanned _ := h
      rw [hnettype] at hname
      exact fun b hb => (hname.2 b hb).2
  | sessionName s | information s | uri s | emailAddress s | phoneNumber s =>
    exact List.forall_mem_singleton.mpr h
  | bandwidth b => exact absurd h id
  | media m =>
    have hscanned : m.Scanned := h
    rw [hscanned.others]
    refine MediaDescription.forall_texts.mpr ⟨fun s hs => oneLine_token (hscanned.formats s hs), ?_⟩
    simp
  | version | time t | repeatTimes r | skipped => exact List.forall_mem_nil _

/-- The description that the parser starts with has no line end in it. -/
theorem oneLine_default (localIp : IpAddr) :
    ∀ s ∈ (SessionDescription.default localIp).texts, OneLine s := by
  rw [SessionDescription.forall_texts]
  simp [SessionDescription.default, Origin.texts, NetType.toText]
  decide

/-! ### The description of a text -/

/-- The lines of a text are read independently: no string of the description has a line end, no
    line is read across one, and each is read from its own part of the text. -/
structure OwnLines (text : Bytes) (sdp : SessionDescription) : Prop where
  strings : ∀ s ∈ sdp.texts, OneLine s
  lines : ∃ lines, Lines text lines ∧ (∀ line ∈ lines, ∀ b ∈ line.1, isNewline b = false) ∧
    ReadApart text lines

/-- The line has a letter, and a blank ends its network type. -/
def closedLine : Bytes → Bool
  | field :: _ :: value => !isNewline field && closedValue field value
  | _ => true

/-- All lines of the text are closed; each starts where the one in front of it has been read. -/
def closedLines (text : Bytes) : Bool := (readLines text).any (·.all fun line => closedLine line.1)

/-- A line of the parser is closed exactly if it was read from one line. -/
theorem closedLine_iff {text : Bytes} {lines : List (Bytes × SdpLine)} (h : Lines text lines) :
    ∀ line ∈ lines, (closedLine line.1 ↔ ∀ b ∈ line.1, isNewline b = false) := by
  induction h with
  | nil => exact List.forall_mem_nil _
  | @cons field value rest line lines hvalue _ ih =>
    refine List.forall_mem_cons.mpr ⟨?_, ih⟩
    rw [closedLine, Bool.and_eq_true, closedValue_iff rfl hvalue, List.forall_mem_cons,
      List.forall_mem_cons, Bool.not_eq_true']
    exact and_congr_right' (and_iff_right (by decide)).symm

/-- All lines of a text are closed exactly if each of them was read from one line. -/
theorem closedLines_iff {text : Bytes} {lines : List (Bytes × SdpLine)} (h : Lines text lines) :
    closedLines text ↔ ∀ line ∈ lines, ∀ b ∈ line.1, isNewline b = false := by
  rw [closedLines, readLines_eq_some_iff.mpr h, Option.any_some, List.all_eq_true]
  exact forall₂_congr fun line hline => closedLine_iff h line hline

/-- **The lines of a parsed text are read independently** if and only if a blank ends the network
    type of each origin and connection in front of its line end. -/
theorem sdpLines_apart_iff {localIp : IpAddr} {text : Bytes} {sdp : SessionDescription}
    (h : parse localIp text = .ok sdp) : OwnLines text sdp ↔ closedLines text := by
  obtain ⟨lines, hlines, hstore⟩ := parse_eq_ok_iff.mp h
  rw [closedLines_iff hlines]
  constructor
  · rintro ⟨-, lines', hlines', hline, -⟩
    have heq : lines = lines' := by
      have hread := readLines_eq_some_iff.mpr hlines
      rw [readLines_eq_some_iff.mpr hlines'] at hread
      exact (Option.some.inj hread).symm
    exact heq ▸ hline
  · intro hline
    refine ⟨?_, lines, hlines, hline, readApart_of_lines hlines hline⟩
    refine forall_texts_storeLines hstore ?_ (oneLine_default localIp)
    intro line hmem
    obtain ⟨read, hread, rfl⟩ := List.mem_map.mp hmem
    exact oneLine_texts (scanned_of_lines hlines hline read hread)

/-- The origin of this text has a network type that goes on in the next line. -/
def brokenOrigin : Bytes := asBytes "o=- 1 2 X\r\nY IP4 10.0.0.1\r\n"

/-- A description whose network type goes on in a line of its own. -/
def splitOrigin : SessionDescription :=
  { origin := { user := "-", sessionId := 1, sessionVersion := 2, nettype := .other "X\r\nY",
                unicastAddress := .v4 ⟨10, 0, 0, 1⟩ } }

/-- What the text with the broken origin is parsed as. -/
theorem parse_brokenOrigin : parse (.v4 ⟨0, 0, 0, 0⟩) brokenOrigin = .ok splitOrigin := by
  decide +kernel

/-- A session with one stream. -/
def oneStream : Bytes :=
  asBytes "v=0\r\no=- 1 2 IN IP4 10.0.0.1\r\ns=-\r\nt=0 0\r\nm=audio 5000 RTP/AVP 0\r\n"

/-- A description with one stream. -/
def streamed : SessionDescription :=
  { origin := { user := "-", sessionId := 1, sessionVersion := 2, unicastAddress := .v4 ⟨10, 0, 0, 1⟩ },
    sessionName := "-",
    time := [{ timeActive := ⟨0, 0⟩ }],
    media := [{ mediaType := .audio, proto := .rtpAvp, port := 5000, mediaFormats := ["0"] }] }

/-- The text can be parsed, and its lines are independent. -/
theorem sdpLines_apart_iff_oneStream :
    parse (.v4 ⟨0, 0, 0, 0⟩) oneStream = .ok streamed ∧
      (OwnLines oneStream streamed ↔ closedLines oneStream) := by
  have hparse : parse (.v4 ⟨0, 0, 0, 0⟩) oneStream = .ok streamed := by decide +kernel
  exact ⟨hparse, sdpLines_apart_iff hparse⟩

/-- Lines are not always read apart: the broken origin goes on in the next one. -/
theorem not_sdpLines_apart : ¬ ∀ (localIp : IpAddr) (text : Bytes) (sdp : SessionDescription),
    parse localIp text = .ok sdp → OwnLines text sdp := by
  intro h
  have hown := h _ _ _ parse_brokenOrigin
  exact absurd (hown.strings "X\r\nY" (by decide)) (by decide)

end SdpParser

end Rssip.Media
