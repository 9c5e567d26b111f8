import Mathlib.Data.List.Nodup
import Rssip.Parser.Lines
import Rssip.Transport.Decode

namespace Rssip

open Lib

/-!
# The spelling of header names

The parser finds the type of a header by the exact spelling of its name, the stream decoder
looks for its `Content-Length` without regard to case.

* `MessageText` — a message in the pieces the parser reads it in; `Respelled` changes the case
  of letters in the names of its headers and nothing else;
* `messageText` — these pieces of a buffer;
* `lines_eq_of_headers` — two messages that differ in the case of their names do not give the
  same headers;
* `spelling_iff` — a respelled message gives the same result if and only if no name is changed.
-/

/-! ### Messages in pieces -/

/-- A header line in its pieces: the name, what stands between it and the end of the line, with
    the colon, and that end. -/
structure HeaderLine where
  name : Bytes
  value : Bytes
  newline : Bytes
deriving DecidableEq

namespace HeaderLine

/-- The line without its end. -/
def text (l : HeaderLine) : Bytes := l.name ++ l.value

/-- The line with its end. -/
def bytes (l : HeaderLine) : Bytes := l.text ++ l.newline

/-- The same line, but for the case of letters in its name. -/
structure Respelled (l l' : HeaderLine) : Prop where
  name : eqIgnoreAsciiCase l.name l'.name
  value : l'.value = l.value
  newline : l'.newline = l.newline

end HeaderLine

/-- A message in its pieces: the start line with its end, the header lines, and what follows
    them. -/
structure MessageText where
  startLine : Bytes
  lines : List HeaderLine
  rest : Bytes
deriving DecidableEq

namespace MessageText

/-- The whole message. -/
def bytes (t : MessageText) : Bytes :=
  t.startLine ++ (t.lines.flatMap HeaderLine.bytes ++ t.rest)

/-- The same message, but for the case of letters in the names of its headers. -/
structure Respelled (t t' : MessageText) : Prop where
  startLine : t'.startLine = t.startLine
  lines : List.Forall₂ HeaderLine.Respelled t.lines t'.lines
  rest : t'.rest = t.rest

end MessageText

namespace SipParser

/-- What is read from one position to a later one. -/
def between (before behind : Scanner) : Bytes :=
  before.remaining.take (before.remaining.length - behind.remaining.length)

/-- One header line in its pieces, and its headers. -/
def readHeaderLine : Parse (HeaderLine × Headers) := do
  let before ← get
  let headers ← header
  let behind ← get
  scanNewline
  let next ← get
  let text := between before behind
  return (⟨text.takeWhile isToken, text.dropWhile isToken, between behind next⟩, headers)

/-- The pieces the parser reads `buf` in, if its start line has an end. -/
def messageText (buf : Bytes) : Option MessageText :=
  let pieces : Parse MessageText := do
    let before ← get
    let _ ← parseStartLine
    let behind ← get
    let lines ← repeatUntil .stuck atHeadersEnd readHeaderLine
    let next ← get
    return ⟨between before behind, lines.map Prod.fst, next.remaining⟩
  match pieces (Scanner.new buf) with
  | .ok text _ => if text.startLine.getLast?.any isNewline then some text else none
  | .error _ _ => none

end SipParser

/-! ### Letters -/

/-- Two texts are equal but for the case of letters if they are the same in lower case. -/
theorem eqIgnoreAsciiCase_iff {xs ys : Bytes} :
    eqIgnoreAsciiCase xs ys ↔ xs.map toAsciiLower = ys.map toAsciiLower := beq_iff_eq

/-- Every text is spelled like itself. -/
theorem eqIgnoreAsciiCase_refl (xs : Bytes) : eqIgnoreAsciiCase xs xs := eqIgnoreAsciiCase_iff.mpr rfl

/-- Texts that are respelled part by part are respelled as a whole. -/
theorem eqIgnoreAsciiCase_append {xs xs' ys ys' : Bytes} (hxs : eqIgnoreAsciiCase xs xs')
    (hys : eqIgnoreAsciiCase ys ys') : eqIgnoreAsciiCase (xs ++ ys) (xs' ++ ys') := by
  rw [eqIgnoreAsciiCase_iff] at hxs hys ⊢
  rw [List.map_append, List.map_append, hxs, hys]

/-- Only letters are changed, into letters. -/
theorem toAsciiLower_cases (b : UInt8) : toAsciiLower b = b ∨
    isAsciiAlphabetic b ∧ isAsciiAlphabetic (toAsciiLower b) :=
  forall_byte_of_lt (p := fun b => toAsciiLower b = b ∨
    isAsciiAlphabetic b ∧ isAsciiAlphabetic (toAsciiLower b)) (by decide +kernel) b

/-- The letters and digits of the table as ranges of bytes. -/
theorem alphanumeric_eq : asBytes Tables.alphanumeric =
    ((List.range' 97 26 ++ List.range' 65 26) ++ List.range' 48 10).map UInt8.ofNat := by
  decide +kernel

/-- Letters may stand in a token. -/
theorem isToken_of_isAsciiAlphabetic {b : UInt8} (h : isAsciiAlphabetic b) : isToken b := by
  have hletter : (65 ≤ b.toNat ∧ b.toNat ≤ 90) ∨ 97 ≤ b.toNat ∧ b.toNat ≤ 122 := by
    simpa [isAsciiAlphabetic, UInt8.le_iff_toNat_le] using h
  have hmem : b ∈ asBytes Tables.alphanumeric := by
    rw [alphanumeric_eq]
    refine List.mem_map.mpr ⟨b.toNat, ?_, UInt8.ofNat_toNat⟩
    simp only [List.mem_append, List.mem_range'_1]
    omega
  simp [isToken, lookupTable, hmem]

/-- Whether a byte may stand in a token does not depend on its case. -/
theorem isToken_toAsciiLower (b : UInt8) : isToken (toAsciiLower b) = isToken b := by
  rcases toAsciiLower_cases b with hsame | ⟨hb, hlower⟩
  · rw [hsame]
  · rw [isToken_of_isAsciiAlphabetic hb, isToken_of_isAsciiAlphabetic hlower]

/-- Whether a byte ends a line does not depend on its case. -/
theorem isNewline_toAsciiLower (b : UInt8) : isNewline (toAsciiLower b) = isNewline b :=
  forall_byte_of_lt (p := fun b => isNewline (toAsciiLower b) = isNewline b) (by decide +kernel) b

/-- Only a line feed becomes one in lower case. -/
theorem toAsciiLower_eq_ten {b : UInt8} (h : toAsciiLower b = 10) : b = 10 :=
  forall_byte_of_lt (p := fun b => toAsciiLower b = 10 → b = 10) (by decide +kernel) b h

/-- The bytes of a token are ASCII, so that they decode one by one. -/
theorem isToken_ascii {b : UInt8} (h : isToken b) : b < 0x80 := by
  have hascii : ∀ b ∈ asBytes Tables.alphanumeric ++ asBytes Tables.token, b < 0x80 := by
    decide +kernel
  apply hascii
  rw [List.mem_append]
  simpa [isToken, lookupTable] using h

/-- Texts that differ in the case of letters have heads that do. -/
theorem head?_of_eqIgnoreAsciiCase {xs ys : Bytes} (h : eqIgnoreAsciiCase xs ys) :
    xs.head?.map toAsciiLower = ys.head?.map toAsciiLower := by
  have hmap := congrArg List.head? (eqIgnoreAsciiCase_iff.mp h)
  rwa [List.head?_map, List.head?_map] at hmap

/-- A text starts with a line feed if it does in another spelling. -/
theorem head?_eq_ten {xs ys : Bytes} (h : eqIgnoreAsciiCase xs ys) (hys : ys.head? = some 10) :
    xs.head? = some 10 := by
  have hhead := head?_of_eqIgnoreAsciiCase h
  rw [hys, Option.map_some, Option.map_eq_some_iff] at hhead
  obtain ⟨b, hb, hlower⟩ := hhead
  rw [hb, toAsciiLower_eq_ten hlower]

/-- A text starts with no line end if it does not in another spelling. -/
theorem stops_isNewline {xs ys : Bytes} (h : eqIgnoreAsciiCase xs ys) (hxs : Stops isNewline xs) :
    Stops isNewline ys := by
  intro b hb
  have hhead := head?_of_eqIgnoreAsciiCase h
  rw [Option.mem_def.mp hb, Option.map_some, Option.map_eq_some_iff] at hhead
  obtain ⟨d, hd, hlower⟩ := hhead
  rw [← isNewline_toAsciiLower, ← hlower, isNewline_toAsciiLower]
  exact hxs d hd

/-- A name is a token if it is one in another spelling. -/
theorem forall_isToken {xs ys : Bytes} (h : eqIgnoreAsciiCase xs ys) (hxs : ∀ b ∈ xs, isToken b) :
    ∀ b ∈ ys, isToken b := by
  intro b hb
  have hlower : toAsciiLower b ∈ xs.map toAsciiLower := by
    rw [eqIgnoreAsciiCase_iff.mp h]
    exact List.mem_map_of_mem hb
  obtain ⟨d, hd, hlower⟩ := List.mem_map.mp hlower
  rw [← isToken_toAsciiLower, ← hlower, isToken_toAsciiLower]
  exact hxs d hd

/-- Tokens are ASCII text. -/
theorem asBytes_fromUtf8Unchecked {name : Bytes} (h : ∀ b ∈ name, isToken b) :
    asBytes (fromUtf8Unchecked name) = name := by
  obtain ⟨s, hs⟩ := exists_asBytes_of_ascii fun b hb => isToken_ascii (h b hb)
  rw [← hs, fromUtf8Unchecked_asBytes]

/-! ### Names and headers -/

/-- The name that a header keeps because no type stands for it. -/
def Header.rawName : Header → Option String
  | .rawHeader h => some h.name
  | _ => none

namespace SipParser

/-- The names with a header type of their own. -/
def headerNames : List String := headerParsers.flatMap Prod.fst

/-- What `Header.rawName` gives for the headers with this name. -/
def rawNameOf (name : String) : Option String :=
  if name ∈ headerNames then none else some name

/-- No two of the names differ only in the case of letters. -/
theorem headerNames_inj {a b : String} (ha : a ∈ headerNames) (hb : b ∈ headerNames)
    (h : eqIgnoreAsciiCase (asBytes a) (asBytes b)) : a = b := by
  have hnodup : (headerNames.map fun n => (asBytes n).map toAsciiLower).Nodup := by decide +kernel
  exact List.inj_on_of_nodup_map hnodup ha hb (eqIgnoreAsciiCase_iff.mp h)

/-- **The headers of a line tell the spelling of its name**, up to that of a name with a type. -/
theorem rawNameOf_inj {a b : String} (h : eqIgnoreAsciiCase (asBytes a) (asBytes b))
    (hraw : rawNameOf a = rawNameOf b) : a = b := by
  unfold rawNameOf at hraw
  by_cases ha : a ∈ headerNames
  · by_cases hb : b ∈ headerNames
    · exact headerNames_inj ha hb h
    · rw [if_pos ha, if_neg hb] at hraw
      exact absurd hraw (by simp)
  · by_cases hb : b ∈ headerNames
    · rw [if_neg ha, if_pos hb] at hraw
      exact absurd hraw (by simp)
    · rw [if_neg ha, if_neg hb] at hraw
      exact Option.some.inj hraw

/-- There are headers, and they have this raw name. -/
def Named (raw : Option String) (headers : Headers) : Prop :=
  headers ≠ [] ∧ ∀ h ∈ headers, h.rawName = raw

/-- A parser of one header gives a header, with the raw name that its type has. -/
theorem named_one {α : Type} {toHeader : α → Header} {parse : Parse α} {raw : Option String}
    {c c' : Scanner} {headers : Headers} (h : one toHeader parse c = .ok headers c')
    (hraw : ∀ a, (toHeader a).rawName = raw) : Named raw headers := by
  refine ⟨?_, forall_mem_one hraw h⟩
  obtain ⟨a, c₁, -, h⟩ := bind_eq_ok_iff.mp h
  injection h with hheaders
  rw [← hheaders]
  exact List.cons_ne_nil _ _

/-- A list has an element. -/
theorem collectSep_ne_nil {α : Type} {sep : UInt8} {elem : Parse α} {c c' : Scanner}
    {elems : List α} (h : collectSep sep elem c = .ok elems c') : elems ≠ [] := by
  have hbody : ∀ {acc : List α} {c next c'},
      foldSepBody sep (fun elems => (elems ++ [·]) <$> elem) acc c = .ok (.inr next) c' →
        next ≠ [] := by
    intro acc c next c' h
    obtain ⟨acc', c₁, helem, h⟩ := bind_eq_ok_iff.mp h
    dsimp only at helem
    rw [map_eq_pure_bind] at helem
    obtain ⟨a, c₂, -, hpure⟩ := bind_eq_ok_iff.mp helem
    injection hpure with hacc
    obtain ⟨o, c₃, -, h⟩ := bind_eq_ok_iff.mp h
    split at h
    · injection h with hnext
      rw [← Sum.inr.inj hnext, ← hacc]
      simp
    · injection h with hnext
      exact absurd hnext (by simp)
  exact loop_ok (P := fun _ _ elems _ => elems ≠ []) hbody (fun _ hrest => hrest) h

/-- A parser of a list header gives at least one header, and none of them has a raw name. -/
theorem named_many {α : Type} {toHeader : α → Header} {parse : Parse α}
    {c c' : Scanner} {headers : Headers} (h : many toHeader parse c = .ok headers c')
    (htyped : ∀ a, (toHeader a).rawName = none) : Named none headers := by
  refine ⟨?_, forall_mem_many htyped h⟩
  obtain ⟨elems, c₁, hcollect, h⟩ := bind_eq_ok_iff.mp h
  injection h with hheaders
  rw [← hheaders]
  simpa using collectSep_ne_nil hcollect

/-- The parsers of the table give typed headers. -/
theorem named_headerParsers : ∀ entry ∈ headerParsers, ∀ {c c' : Scanner} {headers : Headers},
    entry.2 c = .ok headers c' → Named none headers := by
  simp only [headerParsers, List.forall_mem_cons, List.not_mem_nil, false_implies, implies_true,
    and_true]
  refine ⟨?_, ?_, ?_, ?_, ?_, ?_, ?_, ?_, ?_, ?_, ?_, ?_, ?_, ?_, ?_, ?_, ?_, ?_, ?_, ?_, ?_, ?_,
    ?_, ?_, ?_, ?_, ?_, ?_, ?_, ?_, ?_, ?_, ?_, ?_, ?_, ?_, ?_, ?_, ?_, ?_, ?_, ?_⟩ <;>
  · intro c c' headers h
    first
    | exact named_one h fun _ => rfl
    | exact named_many h fun _ => rfl

/-- The headers of a line keep its name exactly if no type stands for it. -/
theorem named_parseHeaderValue {name : String} {c c' : Scanner} {headers : Headers}
    (h : parseHeaderValue name c = .ok headers c') : Named (rawNameOf name) headers := by
  rcases parseHeaderValue_cases name with ⟨entry, hmem, hentry, heq⟩ | ⟨hnone, heq⟩
  · rw [heq] at h
    have hname : name ∈ headerNames := List.mem_flatMap.mpr ⟨entry, hmem, hentry⟩
    rw [rawNameOf, if_pos hname]
    exact named_headerParsers entry hmem h
  · rw [heq] at h
    have hname : name ∉ headerNames := by
      intro hname
      obtain ⟨entry, hmem, hentry⟩ := List.mem_flatMap.mp hname
      exact hnone entry hmem hentry
    rw [rawNameOf, if_neg hname]
    exact named_one h fun _ => rfl

/-- The headers of a line are those of the value behind its name. -/
theorem header_eq_ok {d d' : Scanner} {name behind : Bytes} {headers : Headers}
    (hrem : d.remaining = name ++ behind) (hname : ∀ b ∈ name, isToken b)
    (hbehind : Stops isToken behind) (h : header d = .ok headers d') :
    ∃ d₁, parseHeaderValue (fromUtf8Unchecked name) d₁ = .ok headers d' := by
  obtain ⟨found, d₂, hfound, hvalue⟩ := bind_eq_ok_iff.mp h
  obtain ⟨token, d₃, htoken, hfound⟩ := bind_eq_ok_iff.mp hfound
  obtain ⟨_, d₄, -, hfound⟩ := bind_eq_ok_iff.mp hfound
  obtain ⟨_, d₅, -, hfound⟩ := bind_eq_ok_iff.mp hfound
  obtain ⟨_, d₆, -, hfound⟩ := bind_eq_ok_iff.mp hfound
  injection hfound with hfound
  have hover : Over isToken (fromUtf8Unchecked name) := by
    rw [Over, asBytes_fromUtf8Unchecked hname]
    exact hname
  have hreads := reads_readWhile hover hbehind
  rw [asBytes_fromUtf8Unchecked hname] at hreads
  have htoken' : readToken d = _ := hreads d hrem
  rw [htoken] at htoken'
  injection htoken' with htoken'
  exact ⟨d₂, by rw [← htoken', hfound, hvalue]⟩

/-- The headers of a line that starts with a name. -/
theorem named_headerText {d d' : Scanner} {text name behind : Bytes} {headers : Headers}
    (hrem : d.remaining = name ++ behind) (hname : ∀ b ∈ name, isToken b)
    (hbehind : Stops isToken behind) (h : headerText d = .ok (text, headers) d') :
    Named (rawNameOf (fromUtf8Unchecked name)) headers := by
  obtain ⟨c₁, hheader, -, -⟩ := headerText_eq_ok_iff.mp h
  obtain ⟨d₁, hvalue⟩ := header_eq_ok hrem hname hbehind hheader
  exact named_parseHeaderValue hvalue

/-! ### Lines in pieces -/

/-- Between `c` and `c'` the parser reads the line `l`, of these headers. -/
structure ReadsLine (l : HeaderLine) (headers : Headers) (c c' : Scanner) : Prop where
  headerText : headerText c = .ok (l.text, headers) c'
  whole : c.remaining = l.bytes ++ c'.remaining
  name : l.text.takeWhile isToken = l.name

/-- What is read between two positions is the text by which they differ. -/
theorem between_eq {before behind : Scanner} {text : Bytes}
    (h : before.remaining = text ++ behind.remaining) : between before behind = text := by
  rw [between, h, List.length_append, Nat.add_sub_cancel, List.take_left']
  rfl

/-- A header line that was read in pieces gives its pieces, its headers and both positions. -/
theorem readHeaderLine_eq_ok {c c' : Scanner} {l : HeaderLine} {headers : Headers}
    (h : readHeaderLine c = .ok (l, headers) c') : ReadsLine l headers c c' := by
  obtain ⟨hs, c₁, hheader, h⟩ := bind_eq_ok_iff.mp (get_bind_eq_ok_iff.mp h)
  obtain ⟨_, c₂, hnewline, h⟩ := bind_eq_ok_iff.mp (get_bind_eq_ok_iff.mp h)
  injection get_bind_eq_ok_iff.mp h with hpair hc'
  rw [hc', Prod.mk.injEq] at hpair
  rw [hc'] at hnewline
  obtain ⟨hline, hhs⟩ := hpair
  obtain ⟨text, htext⟩ := staysInLine_header.suffix hheader
  obtain ⟨newline, hend⟩ := ends_scanNewline.suffix hnewline
  have hrem : c.remaining = text ++ c₁.remaining := htext.symm
  have hrem₁ : c₁.remaining = newline ++ c'.remaining := hend.symm
  have hl : l.text = text := by
    rw [← hline, HeaderLine.text, between_eq hrem, List.takeWhile_append_dropWhile]
  have hnl : l.newline = newline := by
    rw [← hline]
    exact between_eq hrem₁
  refine ⟨?_, ?_, ?_⟩
  · rw [hl]
    exact headerText_eq_ok_iff.mpr ⟨c₁, hhs ▸ hheader, hnewline, hrem⟩
  · rw [HeaderLine.bytes, hl, hnl, List.append_assoc, ← hrem₁]
    exact hrem
  · rw [hl, ← hline, between_eq hrem]

variable {l : HeaderLine} {headers : Headers} {c c' d : Scanner}

namespace ReadsLine

/-- The name of a line that was read consists of token bytes. -/
theorem tokens_name (h : ReadsLine l headers c c') : ∀ b ∈ l.name, isToken b := by
  intro b hb
  rw [← h.name] at hb
  exact of_mem_takeWhile hb

/-- A line has an end. -/
theorem newline_cases (h : ReadsLine l headers c c') :
    ∃ c₁, header c = .ok headers c₁ ∧ c₁.remaining = l.newline ++ c'.remaining ∧
      (l.newline = [13, 10] ∨ (l.newline = [13] ∧ c'.remaining.head? ≠ some 10) ∨
        l.newline = [10]) := by
  obtain ⟨c₁, hheader, hnewline, hrem⟩ := headerText_eq_ok_iff.mp h.headerText
  have hrem₁ : c₁.remaining = l.newline ++ c'.remaining := by
    have hwhole := h.whole
    rw [hrem, HeaderLine.bytes, List.append_assoc] at hwhole
    exact List.append_cancel_left hwhole
  refine ⟨c₁, hheader, hrem₁, ?_⟩
  rcases gives_scanNewline.mp ⟨c', hnewline, rfl⟩ with hend | ⟨hend, hne⟩ | hend
  · have hcancel : l.newline ++ c'.remaining = [13, 10] ++ c'.remaining := hrem₁.symm.trans hend
    exact Or.inl (List.append_cancel_right hcancel)
  · have hcancel : l.newline ++ c'.remaining = [13] ++ c'.remaining := hrem₁.symm.trans hend
    exact Or.inr (Or.inl ⟨List.append_cancel_right hcancel, hne⟩)
  · have hcancel : l.newline ++ c'.remaining = [10] ++ c'.remaining := hrem₁.symm.trans hend
    exact Or.inr (Or.inr (List.append_cancel_right hcancel))

/-- Behind the text of a line that was read stands a line end, or nothing. -/
theorem newline_head (h : ReadsLine l headers c c') (rest : Bytes) :
    ∀ b ∈ (l.newline ++ rest).head?, isNewline b := by
  obtain ⟨-, -, -, hend | ⟨hend, -⟩ | hend⟩ := h.newline_cases <;>
  · rw [hend]
    rintro b ⟨⟩
    decide

/-- The name ends where the token does. -/
theorem stops_value (h : ReadsLine l headers c c') (rest : Bytes) :
    Stops isToken (l.value ++ (l.newline ++ rest)) := by
  have hvalue : l.value = l.text.dropWhile isToken := by
    have hsplit := List.takeWhile_append_dropWhile (p := isToken) (l := l.text)
    rw [h.name] at hsplit
    exact (List.append_cancel_left hsplit).symm
  apply stops_append
  · intro _
    rw [hvalue]
    exact stops_dropWhile _ _
  · intro _ b hb
    exact noDelimiter_isToken.excludes b (h.newline_head rest b hb)

/-- **The same line in front of something else.** -/
theorem transfer (h : ReadsLine l headers c c') {rest : Bytes}
    (hd : d.remaining = l.bytes ++ rest)
    (hhead : rest.head? = some 10 → c'.remaining.head? = some 10) :
    ∃ d', SipParser.headerText d = .ok (l.text, headers) d' ∧ d'.remaining = rest := by
  obtain ⟨c₁, hheader, hrem₁, hcases⟩ := h.newline_cases
  have hc : c.remaining = l.text ++ (l.newline ++ c'.remaining) := by
    rw [h.whole, HeaderLine.bytes, List.append_assoc]
  have hd' : d.remaining = l.text ++ (l.newline ++ rest) := by
    rw [hd, HeaderLine.bytes, List.append_assoc]
  obtain ⟨d₁, hheader', hremd⟩ := staysInLine_header.transfer (Scanner.new l.text) []
    rfl hheader hc hrem₁ (h.newline_head _) hd' (h.newline_head _)
  have hgives : Gives scanNewline d₁ () rest := by
    apply gives_scanNewline.mpr
    rw [show d₁.remaining = l.newline ++ rest from hremd]
    rcases hcases with hend | ⟨hend, hne⟩ | hend
    · exact Or.inl (by rw [hend]; rfl)
    · exact Or.inr (Or.inl ⟨by rw [hend]; rfl, fun hten => hne (hhead hten)⟩)
    · exact Or.inr (Or.inr (by rw [hend]; rfl))
  obtain ⟨d', hnewline, hrem⟩ := hgives
  refine ⟨d', headerText_eq_ok_iff.mpr ⟨d₁, hheader', hnewline, ?_⟩, hrem⟩
  rw [show d₁.remaining = l.newline ++ rest from hremd]
  exact hd'

/-- The headers of a line that was read have the raw name of the line. -/
theorem named (h : ReadsLine l headers c c') :
    Named (rawNameOf (fromUtf8Unchecked l.name)) headers := by
  have hrem : c.remaining = l.name ++ (l.value ++ (l.newline ++ c'.remaining)) := by
    rw [h.whole]
    simp [HeaderLine.bytes, HeaderLine.text]
  exact named_headerText hrem h.tokens_name (h.stops_value _) h.headerText

end ReadsLine

/-! ### Start lines -/

/-- A request line up to its version. -/
def requestLineStart : Parse RequestLine := do
  let token ← consumeWhile isToken
  let method := SipMethod.fromBytes token
  skipWs
  let uri ← parseUri true
  skipWs
  return ⟨method, uri⟩

/-- A status line behind its version. -/
def statusLineEnd : Parse StatusLine := do
  let code ← parseStatusCode
  let reason ← parseReasonPhrase
  return ⟨code, reason⟩

/-- A request line up to its version does not depend on what follows the line. -/
theorem staysInLine_requestLineStart : StaysInLine requestLineStart := by
  apply Confined.bind (staysIn_consumeWhile noDelimiter_isToken.excludes)
  intro token
  apply Confined.bind staysIn_skipWs
  intro _
  apply Confined.bind (staysIn_parseUri rfl true)
  intro uri
  exact staysIn_skipWs.bind fun _ => Confined.pure _

/-- A status line behind its version does not depend on what follows the line. -/
theorem staysInLine_statusLineEnd : StaysInLine statusLineEnd := by
  apply Confined.bind
  · apply Confined.bind staysIn_skipWs
    intro _
    apply Confined.bind (staysIn_consumeWhile noDelimiter_isAsciiDigit.excludes)
    intro digits
    apply Confined.bind staysIn_skipWs
    intro _
    exact staysIn_ofOption _ _
  · intro code
    exact staysInLine_readLine.bind fun _ => Confined.pure _

/-- A request line is its start, the version and the line ends. -/
theorem parseRequestLine_eq : parseRequestLine = (do
    let line ← requestLineStart
    parseSipVersion
    skipNewline
    return line) := by
  simp only [parseRequestLine, requestLineStart, bind_assoc, pure_bind]

/-- A status line is the version, its end and the line ends. -/
theorem parseStatusLine_eq : parseStatusLine = (do
    parseSipVersion
    let line ← statusLineEnd
    skipNewline
    return line) := by
  simp only [parseStatusLine, statusLineEnd, bind_assoc, pure_bind]

/-- To pass over line ends leaves what comes behind all of them. -/
theorem gives_skipNewline {left : Bytes} :
    Gives skipNewline c () left ↔ left = c.remaining.dropWhile isNewline := by
  have hrem := remaining_scanWhile isNewline c
  rw [Gives, skipNewline_eq, ← hrem]
  constructor
  · rintro ⟨c', h, rfl⟩
    injection h with _ hc
    rw [hc]
  · rintro rfl
    exact ⟨_, rfl, rfl⟩

/-- All line ends are skipped. -/
theorem skipNewline_text (h : skipNewline c = .ok () c') : ∃ newline,
    c.remaining = newline ++ c'.remaining ∧ (∀ b ∈ newline, isNewline b) ∧
      Stops isNewline c'.remaining := by
  have hrem : c'.remaining = c.remaining.dropWhile isNewline := gives_skipNewline.mp ⟨c', h, rfl⟩
  refine ⟨c.remaining.takeWhile isNewline, ?_, fun _ => of_mem_takeWhile, ?_⟩
  · rw [hrem, List.takeWhile_append_dropWhile]
  · rw [hrem]
    exact stops_dropWhile _ _

/-- A version in front of something. -/
theorem gives_parseSipVersion {left : Bytes} (hleft : left ≠ []) :
    Gives parseSipVersion c () left ↔ c.remaining = asBytes sipV2 ++ left := by
  constructor
  · rintro ⟨c', h, rfl⟩
    exact (remaining_parseSipVersion h).resolve_right hleft
  · intro hrem
    exact ⟨_, reads_parseSipVersion c hrem, remaining_advance (σ := Scanner) hrem⟩

/-- A line that has been read stops at a line end. -/
theorem readLine_stops {s : String} (h : readLine c = .ok s c') :
    Stops (fun b => !isNewline b) c'.remaining := by
  obtain ⟨htext, hc⟩ := scanWhileAsStr_eq_ok_iff.mp (ofScan_eq_ok_iff.mp h)
  rw [htext] at hc
  rw [← hc, show Scanner.remaining _ = _ from remaining_scanWhile _ c]
  exact stops_dropWhile _ _

/-- `r` reads `line` and the line ends behind it, whatever comes after them. -/
structure ReadsToEnd {α : Type} (r : Parse α) (a : α) (line newline : Bytes) : Prop where
  length : (asBytes sipV2).length ≤ line.length
  run : newline ≠ [] → ∀ {d : Scanner} {rest : Bytes}, d.remaining = line ++ (newline ++ rest) →
    Stops isNewline rest → ∃ d', r d = .ok a d' ∧ d'.remaining = rest

/-- A text that starts with line ends starts with one. -/
theorem head?_newline {newline : Bytes} (hne : newline ≠ []) (h : ∀ b ∈ newline, isNewline b)
    (rest : Bytes) : ∀ b ∈ (newline ++ rest).head?, isNewline b := by
  intro b hb
  rw [List.head?_append_of_ne_nil _ hne] at hb
  exact h b (List.mem_of_mem_head? hb)

/-- Line ends in front of a byte that is none are passed over, and that byte is left. -/
theorem gives_skipNewline_append {newline rest : Bytes} (hc : c.remaining = newline ++ rest)
    (hnewline : ∀ b ∈ newline, isNewline b) (hrest : Stops isNewline rest) :
    Gives skipNewline c () rest := by
  rw [gives_skipNewline, hc, dropWhile_append_of_stops hrest,
    List.dropWhile_eq_nil_iff.mpr hnewline, List.nil_append]

/-- A status line with something behind it ends in line ends, and is read alike whatever comes
    behind these. -/
theorem parseStatusLine_eq_ok {l : StatusLine} (h : parseStatusLine c = .ok l c')
    (hne : c'.remaining ≠ []) : ∃ line newline, newline ≠ [] ∧
      c.remaining = line ++ (newline ++ c'.remaining) ∧
        ReadsToEnd parseStatusLine l line newline := by
  rw [parseStatusLine_eq] at h ⊢
  obtain ⟨_, c₁, hversion, h⟩ := bind_eq_ok_iff.mp h
  obtain ⟨l', c₂, hend, h⟩ := bind_eq_ok_iff.mp h
  obtain ⟨_, c₃, hnewline, h⟩ := bind_eq_ok_iff.mp h
  injection h with hl hc'
  rw [hl] at hend
  rw [hc'] at hnewline
  -- what remains behind the line starts with a line end
  have hstops : Stops (fun b => !isNewline b) c₂.remaining := by
    obtain ⟨code, c₄, -, hreason⟩ := bind_eq_ok_iff.mp hend
    obtain ⟨reason, c₅, hline, hreason⟩ := bind_eq_ok_iff.mp hreason
    injection hreason with _ hc₅
    rw [← hc₅]
    exact readLine_stops hline
  obtain ⟨newline, hsplit, hall, hrem⟩ := skipNewline_text hnewline
  have hnonempty : newline ≠ [] := by
    rintro rfl
    rw [List.nil_append] at hsplit
    cases hrest : c'.remaining with
    | nil => exact hne hrest
    | cons b bs =>
      rw [hsplit, hrest, stops_cons] at hstops
      rw [hrest, stops_cons] at hrem
      rw [hrem] at hstops
      exact absurd hstops (by decide)
  obtain ⟨text, htext⟩ := staysInLine_statusLineEnd.suffix hend
  have hrem₁ : c₁.remaining = text ++ c₂.remaining := htext.symm
  have hrem : c.remaining = asBytes sipV2 ++ c₁.remaining := by
    refine (gives_parseSipVersion ?_).mp ⟨c₁, hversion, rfl⟩
    rw [hrem₁, hsplit]
    simp [hne]
  refine ⟨asBytes sipV2 ++ text, newline, hnonempty, ?_, ?_, ?_⟩
  · rw [hrem, hrem₁, ← hsplit, List.append_assoc]
  · rw [List.length_append]
    omega
  · intro _ d rest hd hrest
    rw [List.append_assoc] at hd
    obtain ⟨d₁, hversion', hd₁⟩ := (gives_parseSipVersion (by simp [hnonempty])).mpr hd
    rw [hsplit] at hrem₁
    obtain ⟨d₂, hend', hd₂⟩ := staysInLine_statusLineEnd.transfer (Scanner.new text) [] rfl hend
      hrem₁ hsplit (head?_newline hnonempty hall _) hd₁ (head?_newline hnonempty hall _)
    have hd₂ : d₂.remaining = newline ++ rest := hd₂
    obtain ⟨d₃, hnewline', hd₃⟩ := gives_skipNewline_append hd₂ hall hrest
    exact ⟨d₃, bind_eq_ok_iff.mpr ⟨(), d₁, hversion', bind_eq_ok_iff.mpr ⟨l, d₂, hend',
      bind_eq_ok_iff.mpr ⟨(), d₃, hnewline', rfl⟩⟩⟩, hd₃⟩

/-- A request line with something behind it ends in its version and line ends, and is read alike
    whatever comes behind these. -/
theorem parseRequestLine_eq_ok {l : RequestLine} (h : parseRequestLine c = .ok l c')
    (hne : c'.remaining ≠ []) : ∃ text newline,
      c.remaining = (text ++ asBytes sipV2) ++ (newline ++ c'.remaining) ∧
        ReadsToEnd parseRequestLine l (text ++ asBytes sipV2) newline := by
  rw [parseRequestLine_eq] at h ⊢
  obtain ⟨l', c₁, hstart, h⟩ := bind_eq_ok_iff.mp h
  obtain ⟨_, c₂, hversion, h⟩ := bind_eq_ok_iff.mp h
  obtain ⟨_, c₃, hnewline, h⟩ := bind_eq_ok_iff.mp h
  injection h with hl hc'
  rw [hl] at hstart
  rw [hc'] at hnewline
  -- what is left tells that the version and the line end were really there
  obtain ⟨newline, hsplit, hall, -⟩ := skipNewline_text hnewline
  obtain ⟨text, htext⟩ := staysInLine_requestLineStart.suffix hstart
  have hrem : c.remaining = text ++ c₁.remaining := htext.symm
  have hrem₁ : c₁.remaining = asBytes sipV2 ++ c₂.remaining := by
    refine (gives_parseSipVersion ?_).mp ⟨c₂, hversion, rfl⟩
    rw [hsplit]
    simp [hne]
  rw [hsplit] at hrem₁
  rw [hrem₁, ← List.append_assoc] at hrem
  refine ⟨text, newline, hrem, ?_, ?_⟩
  · rw [List.length_append]
    omega
  · intro hnonempty d rest hd hrest
    obtain ⟨d₁, hstart', hd₁⟩ := staysInLine_requestLineStart.transfer
      (Scanner.new (text ++ asBytes sipV2)) (asBytes sipV2) rfl hstart hrem hrem₁
      (head?_newline hnonempty hall _) hd (head?_newline hnonempty hall _)
    obtain ⟨d₂, hversion', hd₂⟩ := (gives_parseSipVersion (by simp [hnonempty])).mpr hd₁
    obtain ⟨d₃, hnewline', hd₃⟩ := gives_skipNewline_append hd₂ hall hrest
    exact ⟨d₃, bind_eq_ok_iff.mpr ⟨l, d₁, hstart', bind_eq_ok_iff.mpr ⟨(), d₂, hversion',
      bind_eq_ok_iff.mpr ⟨(), d₃, hnewline', rfl⟩⟩⟩, hd₃⟩

/-- In a line that is long enough, the bytes looked at for the version are bytes of the line. -/
theorem peekN_version {line rest : Bytes} (hc : c.remaining = line ++ rest)
    (hlen : (asBytes sipV2).length ≤ line.length) :
    c.peekN (asBytes sipV2).length = some (line.take (asBytes sipV2).length) := by
  rw [Scanner.peekN, hc, if_pos (by rw [List.length_append]; omega),
    List.take_append_of_le_length hlen]

/-- The line ends behind a start line are all skipped. -/
theorem parseStartLine_stops {bare : SipMessage} (h : parseStartLine c = .ok bare c') :
    Stops isNewline c'.remaining := by
  have hskip : ∀ {c c' : Scanner}, skipNewline c = .ok () c' → Stops isNewline c'.remaining :=
    fun h => (skipNewline_text h).choose_spec.2.2
  obtain ⟨c₀, c₁, -, h⟩ := bind_eq_ok_iff.mp h
  split at h
  · obtain ⟨l, c₂, hline, h⟩ := bind_eq_ok_iff.mp h
    injection h with _ hc'
    rw [parseStatusLine_eq] at hline
    obtain ⟨_, c₃, -, hline⟩ := bind_eq_ok_iff.mp hline
    obtain ⟨l', c₄, -, hline⟩ := bind_eq_ok_iff.mp hline
    obtain ⟨_, c₅, hnewline, hline⟩ := bind_eq_ok_iff.mp hline
    injection hline with _ hc₅
    rw [← hc', ← hc₅]
    exact hskip hnewline
  · obtain ⟨l, c₂, hline, h⟩ := bind_eq_ok_iff.mp h
    injection h with _ hc'
    rw [parseRequestLine_eq] at hline
    obtain ⟨l', c₃, -, hline⟩ := bind_eq_ok_iff.mp hline
    obtain ⟨_, c₄, -, hline⟩ := bind_eq_ok_iff.mp hline
    obtain ⟨_, c₅, hnewline, hline⟩ := bind_eq_ok_iff.mp hline
    injection hline with _ hc₅
    rw [← hc', ← hc₅]
    exact hskip hnewline

/-- **A start line with its end**, in front of something else. -/
theorem parseStartLine_transfer {bare : SipMessage} {start rest : Bytes}
    (h : parseStartLine c = .ok bare c') (hc : c.remaining = start ++ c'.remaining)
    (hend : start.getLast?.any isNewline) (hne : c'.remaining ≠ [])
    (hd : d.remaining = start ++ rest) (hrest : Stops isNewline rest) :
    ∃ d', parseStartLine d = .ok bare d' ∧ d'.remaining = rest := by
  have hstart : ∀ {line newline : Bytes}, c.remaining = line ++ (newline ++ c'.remaining) →
      start = line ++ newline := by
    intro line newline hrem
    rw [hc, ← List.append_assoc] at hrem
    exact List.append_cancel_right hrem
  have h := get_bind_eq_ok_iff.mp h
  by_cases hversion : c.peekN (asBytes sipV2).length = some (asBytes sipV2)
  · rw [if_pos hversion] at h
    obtain ⟨l, c₂, hline, h⟩ := bind_eq_ok_iff.mp h
    injection h with hbare hc'
    rw [hc'] at hline
    obtain ⟨line, newline, hnonempty, hrem, hreads⟩ := parseStatusLine_eq_ok hline hne
    rw [hstart hrem, List.append_assoc] at hd
    rw [peekN_version hrem hreads.length] at hversion
    obtain ⟨d', hrun, hleft⟩ := hreads.run hnonempty hd hrest
    refine ⟨d', bind_eq_ok_iff.mpr ⟨d, d, rfl, ?_⟩, hleft⟩
    rw [peekN_version hd hreads.length, if_pos hversion, ← hbare]
    exact bind_eq_ok_iff.mpr ⟨l, d', hrun, rfl⟩
  · rw [if_neg hversion] at h
    obtain ⟨l, c₂, hline, h⟩ := bind_eq_ok_iff.mp h
    injection h with hbare hc'
    rw [hc'] at hline
    obtain ⟨text, newline, hrem, hreads⟩ := parseRequestLine_eq_ok hline hne
    -- a version is not a line end, so that one follows it
    have hnonempty : newline ≠ [] := by
      rintro rfl
      rw [hstart hrem, List.append_nil, List.getLast?_append_of_ne_nil _ (by decide)] at hend
      exact absurd hend (by decide)
    rw [hstart hrem, List.append_assoc] at hd
    rw [peekN_version hrem hreads.length] at hversion
    obtain ⟨d', hrun, hleft⟩ := hreads.run hnonempty hd hrest
    refine ⟨d', bind_eq_ok_iff.mpr ⟨d, d, rfl, ?_⟩, hleft⟩
    rw [peekN_version hd hreads.length, if_neg hversion, ← hbare]
    exact bind_eq_ok_iff.mpr ⟨l, d', hrun, rfl⟩

/-! ### Header sections -/

/-- The lines that are read in pieces are the ones that the parser reads as texts. -/
theorem runs_headerText_of_lines {lines : List (HeaderLine × Headers)}
    (h : Runs atHeadersEnd readHeaderLine c lines c') :
    Runs atHeadersEnd headerText c (lines.map fun l => (l.1.text, l.2)) c' := by
  induction h with
  | last h hstop => exact Runs.last (readHeaderLine_eq_ok h).headerText hstop
  | cons h hstop _ ih => exact Runs.cons (readHeaderLine_eq_ok h).headerText hstop ih

/-- The lines that were read, one after the other, are the text by which the scanner has moved. -/
theorem remaining_lines {lines : List (HeaderLine × Headers)}
    (h : Runs atHeadersEnd readHeaderLine c lines c') :
    c.remaining = (lines.map Prod.fst).flatMap HeaderLine.bytes ++ c'.remaining := by
  induction h with
  | last h => simpa using (readHeaderLine_eq_ok h).whole
  | cons h _ _ ih =>
    rw [(readHeaderLine_eq_ok h).whole, ih]
    simp

/-- Header lines that are respelled one by one are respelled as a text. -/
theorem eqIgnoreAsciiCase_lines {lines lines' : List HeaderLine}
    (h : List.Forall₂ HeaderLine.Respelled lines lines') (rest : Bytes) :
    eqIgnoreAsciiCase (lines.flatMap HeaderLine.bytes ++ rest)
      (lines'.flatMap HeaderLine.bytes ++ rest) := by
  apply eqIgnoreAsciiCase_append _ (eqIgnoreAsciiCase_refl rest)
  induction h with
  | nil => exact eqIgnoreAsciiCase_refl _
  | cons hline _ ih =>
    rw [List.flatMap_cons, List.flatMap_cons]
    apply eqIgnoreAsciiCase_append _ ih
    rw [HeaderLine.bytes, HeaderLine.bytes, HeaderLine.text, HeaderLine.text, hline.value,
      hline.newline]
    exact eqIgnoreAsciiCase_append (eqIgnoreAsciiCase_append hline.name
      (eqIgnoreAsciiCase_refl _)) (eqIgnoreAsciiCase_refl _)

/-- **The first line whose name is changed gives other headers.** -/
theorem line_eq_of_headers (hl : ReadsLine l headers c c') {l' : HeaderLine}
    (hresp : l.Respelled l') {rest text : Bytes} {headers' tl tl' : Headers} {d' : Scanner}
    (hd : d.remaining = l'.bytes ++ rest)
    (hhead : rest.head? = some 10 → c'.remaining.head? = some 10)
    (hrun : headerText d = .ok (text, headers') d') (heq : headers' ++ tl' = headers ++ tl) :
    l' = l ∧ headers' = headers ∧ d'.remaining = rest := by
  have htokens : ∀ b ∈ l'.name, isToken b := forall_isToken hresp.name hl.tokens_name
  by_cases hname : l'.name = l.name
  · have hline : l' = l := by
      cases l
      cases l'
      simp only [HeaderLine.mk.injEq]
      exact ⟨hname, hresp.value, hresp.newline⟩
    rw [hline] at hd
    obtain ⟨d₁, hrun₁, hrem⟩ := hl.transfer hd hhead
    rw [hrun] at hrun₁
    injection hrun₁ with hpair hd'
    exact ⟨hline, (Prod.mk.inj hpair).2, by rw [hd', hrem]⟩
  · -- a name spelt another way would be kept as it is spelt, or read as the same header
    exfalso
    obtain ⟨hne, hraw⟩ := hl.named
    have hrem : d.remaining = l'.name ++ (l.value ++ (l.newline ++ rest)) := by
      rw [hd, HeaderLine.bytes, HeaderLine.text, hresp.value, hresp.newline]
      simp
    obtain ⟨hne', hraw'⟩ := named_headerText hrem htokens (hl.stops_value rest) hrun
    obtain ⟨h, hs, rfl⟩ := List.exists_cons_of_ne_nil hne
    obtain ⟨h', hs', rfl⟩ := List.exists_cons_of_ne_nil hne'
    have hsame : h' = h := (List.cons.inj heq).1
    have hstring : fromUtf8Unchecked l.name = fromUtf8Unchecked l'.name := by
      apply rawNameOf_inj
      · rw [asBytes_fromUtf8Unchecked hl.tokens_name, asBytes_fromUtf8Unchecked htokens]
        exact hresp.name
      · rw [← hraw h List.mem_cons_self, ← hraw' h' List.mem_cons_self, hsame]
    apply hname
    rw [← asBytes_fromUtf8Unchecked hl.tokens_name, hstring, asBytes_fromUtf8Unchecked htokens]

/-- **Header sections that differ in the case of their names do not give the same headers.** -/
theorem lines_eq_of_headers {lines : List (HeaderLine × Headers)}
    (h : Runs atHeadersEnd readHeaderLine c lines c') {lines' : List HeaderLine}
    (hresp : List.Forall₂ HeaderLine.Respelled (lines.map Prod.fst) lines')
    (hd : d.remaining = lines'.flatMap HeaderLine.bytes ++ c'.remaining)
    {texts : List (Bytes × Headers)} {d' : Scanner} (hruns : Runs atHeadersEnd headerText d texts d')
    (hheaders : texts.flatMap Prod.snd = lines.flatMap Prod.snd) :
    lines' = lines.map Prod.fst := by
  induction h generalizing lines' d texts with
  | @last c p c' hline hstop =>
    obtain ⟨l, headers⟩ := p
    have hl := readHeaderLine_eq_ok hline
    obtain ⟨l', ls', hfirst, hnil, rfl⟩ := List.forall₂_cons_left_iff.mp hresp
    rw [List.map_nil, List.forall₂_nil_left_iff] at hnil
    rw [hnil, List.flatMap_singleton] at hd
    obtain ⟨⟨text, headers'⟩, d₁, hrun, tl', htl'⟩ : ∃ t d₁, headerText d = .ok t d₁ ∧
        ∃ tl', texts.flatMap Prod.snd = t.2 ++ tl' := by
      cases hruns with
      | last hrun => exact ⟨_, _, hrun, [], by simp⟩
      | cons hrun => exact ⟨_, _, hrun, _, by rw [List.flatMap_cons]⟩
    rw [htl', List.flatMap_singleton] at hheaders
    have heq : headers' ++ tl' = headers ++ [] := by simpa using hheaders
    obtain ⟨hsame, -⟩ := line_eq_of_headers hl hfirst hd id hrun heq
    rw [hsame, hnil]
    rfl
  | @cons c p c₁ ps c' hline hstop htl ih =>
    obtain ⟨l, headers⟩ := p
    have hl := readHeaderLine_eq_ok hline
    obtain ⟨l', ls', hfirst, hrest, rfl⟩ := List.forall₂_cons_left_iff.mp hresp
    rw [List.flatMap_cons, List.append_assoc] at hd
    have hhead : (ls'.flatMap HeaderLine.bytes ++ c'.remaining).head? = some 10 →
        c₁.remaining.head? = some 10 := by
      rw [remaining_lines htl]
      exact head?_eq_ten (eqIgnoreAsciiCase_lines hrest _)
    rw [List.flatMap_cons] at hheaders
    cases hruns with
    | @last _ t _ hrun =>
      -- the other lines have headers, too
      obtain ⟨text, headers'⟩ := t
      have heq : headers' ++ [] = headers ++ ps.flatMap Prod.snd := by simpa using hheaders
      obtain ⟨-, hsame, -⟩ := line_eq_of_headers hl hfirst hd hhead hrun heq
      rw [hsame] at heq
      have hnil : ps.flatMap Prod.snd = [] := (List.append_cancel_left heq).symm
      cases htl with
      | last hline₁ =>
        have hne := (readHeaderLine_eq_ok hline₁).named.1
        exact absurd (List.flatMap_eq_nil_iff.mp hnil _ List.mem_cons_self) hne
      | cons hline₁ =>
        have hne := (readHeaderLine_eq_ok hline₁).named.1
        exact absurd (List.flatMap_eq_nil_iff.mp hnil _ List.mem_cons_self) hne
    | @cons _ t d₁ ts _ hrun hgo hruns =>
      obtain ⟨text, headers'⟩ := t
      rw [List.flatMap_cons] at hheaders
      obtain ⟨hsame, hequal, hrem⟩ := line_eq_of_headers hl hfirst hd hhead hrun hheaders
      dsimp only at hheaders
      rw [hequal] at hheaders
      rw [hsame, ih hrest hrem hruns (List.append_cancel_left hheaders)]
      rfl

/-- The pieces of a message come from a start line that was read and a run over the header lines. -/
theorem messageText_eq_some {buf : Bytes} {t : MessageText} (h : messageText buf = some t) :
    ∃ bare c lines c', parseStartLine (Scanner.new buf) = .ok bare c ∧
      Runs atHeadersEnd readHeaderLine c lines c' ∧ buf = t.startLine ++ c.remaining ∧
        t.lines = lines.map Prod.fst ∧ t.rest = c'.remaining ∧
          t.startLine.getLast?.any isNewline := by
  unfold messageText at h
  dsimp only at h
  split at h
  · rename_i t' c₀ hrun
    obtain ⟨bare, c, hstart, hrun⟩ := bind_eq_ok_iff.mp (get_bind_eq_ok_iff.mp hrun)
    obtain ⟨lines, c', hlines, hrun⟩ := bind_eq_ok_iff.mp (get_bind_eq_ok_iff.mp hrun)
    injection get_bind_eq_ok_iff.mp hrun with ht'
    split at h
    · rename_i hend
      rw [← Option.some.inj h]
      refine ⟨bare, c, lines, c', hstart, runs_of_repeatUntil hlines, ?_, ?_, ?_, hend⟩
      · obtain ⟨start, hsuffix⟩ := ends_parseStartLine.suffix hstart
        have hbuf : (Scanner.new buf).remaining = start ++ c.remaining := hsuffix.symm
        rw [← ht', between_eq hbuf]
        exact hbuf
      · rw [← ht']
      · rw [← ht']
    · exact absurd h (by simp)
  · exact absurd h (by simp)

/-- The headers of a message are those of its lines. -/
theorem parse_eq_ok {buf : Bytes} {m : SipMessage} (h : parse buf = .ok m) :
    ∃ bare c texts c', parseStartLine (Scanner.new buf) = .ok bare c ∧
      Runs atHeadersEnd headerText c texts c' ∧ m.headers = texts.flatMap Prod.snd := by
  obtain ⟨c, hrun⟩ := parse_eq_ok_iff.mp h
  obtain ⟨bare, c₁, headers, found, c₂, hstart, hheaders, hread⟩ := parseSipMsg_eq_ok hrun
  obtain ⟨texts, hruns, htexts⟩ := runs_of_parseHeaders hheaders
  exact ⟨bare, c₁, texts, c₂, hstart, hruns, by rw [hread, readMessage_headers, htexts]⟩

/-- Headers are parsed from something. -/
theorem remaining_ne_nil {texts : List (Bytes × Headers)}
    (h : Runs atHeadersEnd headerText c texts c') : c.remaining ≠ [] := by
  intro hnil
  obtain ⟨t, c₁, hfirst⟩ := h.exists_first
  have hlt := length_headerText hfirst
  rw [show Cursor.remaining c = c.remaining from rfl, hnil] at hlt
  exact absurd hlt (by simp)

/-- The pieces of a message, put together, are the message. -/
theorem bytes_messageText {buf : Bytes} {t : MessageText} (h : messageText buf = some t) :
    t.bytes = buf := by
  obtain ⟨bare, c, lines, c', -, hruns, hbuf, hlines, hrest, -⟩ := messageText_eq_some h
  rw [hbuf, remaining_lines hruns, MessageText.bytes, hlines, hrest]

/-- **A respelled message gives the same result only if it is the same.** -/
theorem respelled_iff {buf : Bytes} {m : SipMessage} (h : parse buf = .ok m) {t : MessageText}
    (ht : messageText buf = some t) {t' : MessageText} (hresp : t.Respelled t') :
    parse t'.bytes = parse buf ↔ t' = t := by
  constructor
  · intro hsame
    rw [h] at hsame
    obtain ⟨bare, c, lines, c', hstart, hruns, hbuf, hlines, hrest, hend⟩ := messageText_eq_some ht
    obtain ⟨bare₁, c₁, texts, c₂, hstart₁, hruns₁, hheaders⟩ := parse_eq_ok h
    obtain ⟨bare', d, texts', d', hstart', hruns', hheaders'⟩ := parse_eq_ok hsame
    rw [hstart] at hstart₁
    injection hstart₁ with _ hc₁
    rw [← hc₁] at hruns₁
    obtain ⟨htexts, -⟩ := (runs_headerText_of_lines hruns).unique hruns₁
    have hresp_lines : List.Forall₂ HeaderLine.Respelled (lines.map Prod.fst) t'.lines :=
      hlines ▸ hresp.lines
    -- the start line is read as before, so that the header section is read from where it starts
    have hd : d.remaining = t'.lines.flatMap HeaderLine.bytes ++ c'.remaining := by
      have hcase := eqIgnoreAsciiCase_lines hresp_lines c'.remaining
      have hne : c.remaining ≠ [] := remaining_ne_nil hruns₁
      have hbytes : (Scanner.new t'.bytes).remaining =
          t.startLine ++ (t'.lines.flatMap HeaderLine.bytes ++ c'.remaining) := by
        rw [← hrest, ← hresp.rest, ← hresp.startLine]
        rfl
      rw [← remaining_lines hruns] at hcase
      obtain ⟨d₁, hstart₂, hrem⟩ := parseStartLine_transfer hstart hbuf hend hne hbytes
        (stops_isNewline hcase (parseStartLine_stops hstart))
      rw [hstart'] at hstart₂
      injection hstart₂ with _ hd₁
      rw [hd₁, hrem]
    have hequal : texts'.flatMap Prod.snd = lines.flatMap Prod.snd := by
      rw [← hheaders', hheaders, ← htexts, List.flatMap_map]
    have hsame_lines : t'.lines = t.lines := by
      rw [lines_eq_of_headers hruns hresp_lines hd hruns' hequal, hlines]
    cases t
    cases t'
    simp only [MessageText.mk.injEq]
    exact ⟨hresp.startLine, hsame_lines, hresp.rest⟩
  · rintro rfl
    rw [bytes_messageText ht]

/-! ### The length of the body -/

/-- Some line with this name announces a length to the stream decoder. -/
def TakenByDecoder (name : Bytes) : Prop :=
  ∃ value n, lineLength (name ++ 58 :: value) = .ok (some n)

/-- Some line with this name is a `Content-Length` for the parser. -/
def TakenByParser (name : Bytes) : Prop :=
  ∃ value n left, Gives header (Scanner.new (name ++ 58 :: value)) [.contentLength n] left

/-- Only the parser of this one type gives a `Content-Length`. -/
theorem headerParsers_contentLength : ∀ entry ∈ headerParsers,
    entry.1 = [ContentLength.name, ContentLength.shortName] ∨
      ∀ {c c' : Scanner} {n : ContentLength}, entry.2 c ≠ .ok [.contentLength n] c' := by
  have hone : ∀ {α : Type} {toHeader : α → Header} {parse : Parse α} {c c' : Scanner}
      {n : ContentLength}, (∀ a, toHeader a ≠ .contentLength n) →
        one toHeader parse c ≠ .ok [.contentLength n] c' := by
    intro α toHeader parse c c' n hne h
    have hall := forall_mem_one (P := fun x => x ≠ .contentLength n) hne h
    exact hall _ (List.mem_singleton_self _) rfl
  have hmany : ∀ {α : Type} {toHeader : α → Header} {parse : Parse α} {c c' : Scanner}
      {n : ContentLength}, (∀ a, toHeader a ≠ .contentLength n) →
        many toHeader parse c ≠ .ok [.contentLength n] c' := by
    intro α toHeader parse c c' n hne h
    have hall := forall_mem_many (P := fun x => x ≠ .contentLength n) hne h
    exact hall _ (List.mem_singleton_self _) rfl
  simp only [headerParsers, List.forall_mem_cons, List.not_mem_nil, false_implies, implies_true,
    and_true]
  refine ⟨?_, ?_, ?_, ?_, ?_, ?_, ?_, ?_, ?_, ?_, ?_, ?_, ?_, ?_, ?_, ?_, ?_, ?_, ?_, ?_, ?_, ?_,
    ?_, ?_, ?_, ?_, ?_, ?_, ?_, ?_, ?_, ?_, ?_, ?_, ?_, ?_, ?_, ?_, ?_, ?_, ?_, ?_⟩ <;>
    first
    | exact Or.inl trivial
    | exact Or.inr (hone fun _ h => by injection h)
    | exact Or.inr (hmany fun _ h => by injection h)

/-- Under both names `0` is read as a length. -/
theorem header_zero : ∀ name ∈ [ContentLength.name, ContentLength.shortName],
    (match header (Scanner.new (asBytes name ++ [58, 48])) with
      | .ok headers c => decide (headers = [.contentLength ⟨0⟩]) && c.remaining.isEmpty
      | .error _ _ => false) = true := by decide +kernel

/-- A name is a `Content-Length` for the parser only as it stands in the table, long or short. -/
theorem takenByParser_iff {name : Bytes} (hname : ∀ b ∈ name, isToken b) :
    TakenByParser name ↔
      name = asBytes ContentLength.name ∨ name = asBytes ContentLength.shortName := by
  constructor
  · rintro ⟨value, n, left, c', hheader, -⟩
    have hcolon : Stops isToken (58 :: value) := by
      rw [stops_cons]
      decide
    obtain ⟨d, hvalue⟩ := header_eq_ok rfl hname hcolon hheader
    -- a header of its own type comes from the table, and from the one entry for it
    rcases parseHeaderValue_cases (fromUtf8Unchecked name) with ⟨entry, hentry, hmem, heq⟩ | ⟨-, heq⟩
    · rw [heq] at hvalue
      rcases headerParsers_contentLength entry hentry with hnames | hne
      · rw [hnames, List.mem_pair] at hmem
        rw [← asBytes_fromUtf8Unchecked hname, asBytes_inj, asBytes_inj]
        exact hmem
      · exact absurd hvalue hne
    · rw [heq] at hvalue
      have hraw := forall_mem_one (P := fun h : Header => h.rawName.isSome) (fun _ => rfl) hvalue
      exact absurd (hraw _ (List.mem_singleton_self _)) (by simp [Header.rawName])
  -- for the two names a value of `0` will do
  · have htaken : ∀ name ∈ [ContentLength.name, ContentLength.shortName],
        TakenByParser (asBytes name) := by
      intro name hmem
      have hrun := header_zero name hmem
      split at hrun
      · rename_i headers c hheader
        rw [Bool.and_eq_true, decide_eq_true_eq] at hrun
        exact ⟨[48], ⟨0⟩, [], c, hrun.1 ▸ hheader, List.isEmpty_iff.mp hrun.2⟩
      · exact absurd hrun (by decide)
    rintro (rfl | rfl)
    · exact htaken _ (by simp)
    · exact htaken _ (by simp)

/-- A name is a `Content-Length` for the stream decoder in any case of its letters. -/
theorem takenByDecoder_iff {name : Bytes} (hname : ∀ b ∈ name, isToken b) :
    TakenByDecoder name ↔ eqIgnoreAsciiCase name (asBytes ContentLength.name) ∨
      eqIgnoreAsciiCase name (asBytes ContentLength.shortName) := by
  have hne : ∀ b ∈ name, (b != 58) = true := by
    intro b hb
    have hcolon : isToken 58 = false := by decide
    have hneq : b ≠ 58 := by
      rintro rfl
      rw [hname _ hb] at hcolon
      exact absurd hcolon (by decide)
    simpa using hneq
  have htake : ∀ value : Bytes, (name ++ 58 :: value).takeWhile (· != 58) = name :=
    fun value => takeWhile_append_stops hne (by simp)
  have hdrop : ∀ value : Bytes, (name ++ 58 :: value).dropWhile (· != 58) = 58 :: value := by
    intro value
    rw [dropWhile_append_of_stops (by simp), List.dropWhile_eq_nil_iff.mpr hne, List.nil_append]
  rw [← Bool.or_eq_true]
  constructor
  · rintro ⟨value, n, h⟩
    by_contra hcond
    simp only [lineLength, htake, if_neg hcond] at h
    exact absurd h (by simp)
  · intro hcond
    refine ⟨[48], 0, ?_⟩
    have htext : fromUtf8 [48] = some "0" := by decide +kernel
    have hnumber : parseUnsigned (2 ^ 64) (asBytes (trim "0")) = some 0 := by decide +kernel
    simp only [lineLength, htake, hdrop, if_pos hcond, htext, hnumber]

end SipParser

/-! ### The spelling of a message -/

/-- **When the spelling of header names does not matter.** An accepted message in its pieces is the
    same to the parser in another case of its header names only if nothing was changed, and of the
    names that announce a length to the stream decoder the parser takes those spelled as in its
    table. -/
theorem spelling_iff {buf : Bytes} {m : SipMessage} (h : SipParser.parse buf = .ok m)
    {t : MessageText} (ht : SipParser.messageText buf = some t) :
    t.bytes = buf ∧
      (∀ t', t.Respelled t' → (SipParser.parse t'.bytes = SipParser.parse buf ↔ t' = t)) ∧
        ∀ name, (∀ b ∈ name, isToken b) → SipParser.TakenByDecoder name →
          (SipParser.TakenByParser name ↔
            name = asBytes ContentLength.name ∨ name = asBytes ContentLength.shortName) :=
  ⟨SipParser.bytes_messageText ht, fun _ hresp => SipParser.respelled_iff h ht hresp,
    fun _ hname _ => SipParser.takenByParser_iff hname⟩

/-- A response with one header line, of this name. -/
def MessageText.okWith (name : String) : MessageText where
  startLine := asBytes "SIP/2.0 200 OK\r\n"
  lines := [⟨asBytes name, asBytes ": 7 OPTIONS", [13, 10]⟩]
  rest := [13, 10]

/-- The conditions at a response with a `CSeq`, and at the short name of `Content-Length`. -/
theorem spelling_cSeq :
    (∀ t', (MessageText.okWith "CSeq").Respelled t' →
      (SipParser.parse t'.bytes = SipParser.parse (MessageText.okWith "CSeq").bytes ↔
        t' = MessageText.okWith "CSeq")) ∧
      (SipParser.TakenByParser (asBytes "l") ↔
        asBytes "l" = asBytes ContentLength.name ∨ asBytes "l" = asBytes ContentLength.shortName) := by
  have hparse : SipParser.parse (MessageText.okWith "CSeq").bytes =
      .ok (.response { statusLine := ⟨.ok, "OK"⟩, headers := [.cSeq ⟨7, .options⟩] }) := by
    decide +kernel
  have htext : SipParser.messageText (MessageText.okWith "CSeq").bytes =
      some (MessageText.okWith "CSeq") := by decide +kernel
  have hname : ∀ b ∈ asBytes "l", isToken b := by decide +kernel
  have htaken : SipParser.TakenByDecoder (asBytes "l") :=
    (SipParser.takenByDecoder_iff hname).mpr (Or.inr (eqIgnoreAsciiCase_refl _))
  obtain ⟨-, hresp, hlength⟩ := spelling_iff hparse htext
  exact ⟨hresp, hlength _ hname htaken⟩

/-- In small letters the `CSeq` of a response is a header that the parser does not know, and a
    `Content-Length` the decoder goes by is none for the parser. -/
theorem not_spelling :
    (¬ ∀ buf m t t', SipParser.parse buf = .ok m → SipParser.messageText buf = some t →
      t.Respelled t' → SipParser.parse t'.bytes = SipParser.parse buf) ∧
    ¬ ∀ name, (∀ b ∈ name, isToken b) → SipParser.TakenByDecoder name →
      SipParser.TakenByParser name := by
  constructor
  · intro h
    have hparse : SipParser.parse (MessageText.okWith "CSeq").bytes =
        .ok (.response { statusLine := ⟨.ok, "OK"⟩, headers := [.cSeq ⟨7, .options⟩] }) := by
      decide +kernel
    have hsmall : SipParser.parse (MessageText.okWith "cseq").bytes =
        .ok (.response { statusLine := ⟨.ok, "OK"⟩
                         headers := [.rawHeader ⟨"cseq", "7 OPTIONS"⟩] }) := by
      decide +kernel
    have htext : SipParser.messageText (MessageText.okWith "CSeq").bytes =
        some (MessageText.okWith "CSeq") := by decide +kernel
    have hresp : (MessageText.okWith "CSeq").Respelled (MessageText.okWith "cseq") :=
      ⟨rfl, .cons ⟨by decide +kernel, rfl, rfl⟩ .nil, rfl⟩
    have hsame := h _ _ _ _ hparse htext hresp
    rw [hsmall, hparse] at hsame
    exact absurd hsame (by decide +kernel)
  · intro h
    have hname : ∀ b ∈ asBytes "content-length", isToken b := by decide +kernel
    have htaken : SipParser.TakenByDecoder (asBytes "content-length") :=
      (SipParser.takenByDecoder_iff hname).mpr (Or.inl (by decide +kernel))
    rcases (SipParser.takenByParser_iff hname).mp (h _ hname htaken) with hlong | hshort
    · exact absurd hlong (by decide +kernel)
    · exact absurd hshort (by decide +kernel)

end Rssip
