import Rssip.Lib.Repeat
import Rssip.Parser.Clean
import Rssip.Parser.Termination
import Rssip.Transport.Outgoing

namespace Rssip

open Lib

/-!
# Headers and their lines

A header parser looks for the end of its value, and a line end need not stop it.

* `headerTexts` — the bytes that each header of a message is parsed from;
* `headerLines` — the lines of the header section, found by their ends alone;
* `completeLines` — each of these lines is a header on its own;
* `ownLines_iff` — the headers are parsed from lines of their own, have no line ends in their
  strings and are printed as one line each if and only if the lines are complete.
-/

namespace SipParser

/-- At the empty line behind the headers, or at the end. -/
def atHeadersEnd (c : Scanner) : Bool := c.peek = some 13 ∨ c.peek = some 10 ∨ c.peek = none

/-- The name and the value of a header. -/
def header : Parse Headers := do parseHeaderValue (← headerName)

/-! ### What a header is parsed from -/

/-- One header line with its end: the bytes in front of the end, and their headers. -/
def headerText : Parse (Bytes × Headers) := do
  let before ← get
  let headers ← header
  let behind ← get
  scanNewline
  return (before.remaining.take (before.remaining.length - behind.remaining.length), headers)

/-- The bytes that the headers of `buf` are parsed from, line by line. -/
def headerTexts (buf : Bytes) : Option (List (Bytes × Headers)) :=
  let texts : Parse (List (Bytes × Headers)) := do
    let _ ← parseStartLine
    repeatUntil .stuck atHeadersEnd headerText
  match texts (Scanner.new buf) with
  | .ok texts _ => some texts
  | .error _ _ => none

/-! ### The lines of a header section -/

/-- The bytes in front of a line end, and that end. -/
def headerLine : Parse Bytes := do
  let line ← consumeWhile fun b => !isNewline b
  scanNewline
  return line

/-- The lines behind the start line of `buf`, up to an empty one. -/
def headerLines (buf : Bytes) : Option (List Bytes) :=
  let lines : Parse (List Bytes) := do
    let _ ← parseStartLine
    repeatUntil .stuck atHeadersEnd headerLine
  match lines (Scanner.new buf) with
  | .ok lines _ => some lines
  | .error _ _ => none

/-- A line that is a header without what follows it. -/
def isHeader (line : Bytes) : Bool :=
  match header (Scanner.new line) with
  | .ok _ c => c.remaining.isEmpty
  | .error _ _ => false

/-- Each line of the header section is a header on its own. -/
def completeLines (buf : Bytes) : Bool := (headerLines buf).any fun lines => lines.all isHeader

/-! ### Line ends -/

/-- A line end is a carriage return with a line feed, or one of the two alone. -/
theorem gives_scanNewline {c : Scanner} {left : Bytes} :
    Gives scanNewline c () left ↔ c.remaining = 13 :: 10 :: left ∨
      (c.remaining = 13 :: left ∧ left.head? ≠ some 10) ∨ c.remaining = 10 :: left := by
  have hscan : Gives scanNewline c () left ↔ Gives Scan.scanNewline c () left :=
    exists_congr fun c' => and_congr_left' ofScan_eq_ok_iff
  -- the check behind the two optional bytes
  have hend : ∀ {o o' : Option UInt8} {c' : Scanner},
      Gives (if o.isNone ∧ o'.isNone then Scan.scanError .nonNewLine else pure ()) c' () left ↔
        ¬ (o.isNone ∧ o'.isNone) ∧ left = c'.remaining := by
    intro o o' c'
    split
    · rename_i hnone
      refine iff_of_false ?_ fun h => h.1 hnone
      rintro ⟨c'', h, -⟩
      injection h
    · rename_i hsome
      rw [gives_pure]
      exact ⟨fun h => ⟨hsome, h.2⟩, fun h => ⟨rfl, h.2⟩⟩
  rw [hscan, Scan.scanNewline, gives_bind]
  constructor
  · rintro ⟨o, c₁, h₁, h⟩
    obtain ⟨o', c₂, h₂, h⟩ := gives_bind.mp h
    obtain ⟨hsome, hleft⟩ := hend.mp h
    -- whether there is a carriage return, and whether there is a line feed
    rcases gives_scanIfEq.mp ⟨c₁, h₁, rfl⟩ with ⟨ho, hrem⟩ | ⟨ho, hne, hrem⟩
    · rcases gives_scanIfEq.mp ⟨c₂, h₂, rfl⟩ with ⟨ho', hrem'⟩ | ⟨ho', hne', hrem'⟩
      · left
        rw [hrem, show Cursor.remaining c₁ = c₁.remaining from rfl, hrem', hleft]
        rfl
      · right
        left
        rw [hrem, hleft, show c₂.remaining = Cursor.remaining c₂ from rfl, hrem']
        exact ⟨rfl, hne'⟩
    · rcases gives_scanIfEq.mp ⟨c₂, h₂, rfl⟩ with ⟨ho', hrem'⟩ | ⟨ho', hne', hrem'⟩
      · right
        right
        rw [← hrem, show Cursor.remaining c₁ = c₁.remaining from rfl, hrem', hleft]
        rfl
      · exact absurd ⟨by rw [ho]; rfl, by rw [ho']; rfl⟩ hsome
  · intro h
    have hcr : ∀ {bs}, c.remaining = 13 :: bs →
        ∃ c₁, (modifyGet (Scanner.scanIfEq 13) : Scan (Option UInt8)) c = .ok (some 13) c₁ ∧
          c₁.remaining = bs :=
      fun hrem => gives_scanIfEq.mpr (Or.inl ⟨rfl, hrem⟩)
    rcases h with hrem | ⟨hrem, hne⟩ | hrem
    · obtain ⟨c₁, h₁, hrem₁⟩ := hcr hrem
      obtain ⟨c₂, h₂, hrem₂⟩ := gives_scanIfEq.mpr (Or.inl ⟨rfl, hrem₁⟩)
      exact ⟨_, c₁, h₁, gives_bind.mpr ⟨_, c₂, h₂, hend.mpr ⟨by simp, hrem₂.symm⟩⟩⟩
    · obtain ⟨c₁, h₁, hrem₁⟩ := hcr hrem
      obtain ⟨c₂, h₂, hrem₂⟩ := gives_scanIfEq.mpr
        (Or.inr ⟨rfl, by rw [hrem₁]; exact hne, rfl⟩)
      refine ⟨_, c₁, h₁, gives_bind.mpr ⟨_, c₂, h₂, hend.mpr ⟨by simp, ?_⟩⟩⟩
      exact hrem₁.symm.trans hrem₂.symm
    · have hne : c.remaining.head? ≠ some 13 := by simp [hrem]
      obtain ⟨c₁, h₁, hrem₁⟩ := gives_scanIfEq.mpr (Or.inr ⟨rfl, hne, rfl⟩)
      obtain ⟨c₂, h₂, hrem₂⟩ := gives_scanIfEq.mpr (Or.inl ⟨rfl, hrem₁.trans hrem⟩)
      exact ⟨_, c₁, h₁, gives_bind.mpr ⟨_, c₂, h₂, hend.mpr ⟨by simp, hrem₂.symm⟩⟩⟩

/-- Where a line end is read there is one. -/
theorem scanNewline_eq_ok {c c' : Scanner} (h : scanNewline c = .ok () c') :
    ∀ b ∈ c.remaining.head?, isNewline b := by
  rcases gives_scanNewline.mp ⟨c', h, rfl⟩ with hrem | ⟨hrem, -⟩ | hrem <;>
  · rw [hrem, List.head?_cons]
    rintro b ⟨⟩
    decide

/-- A line end is read the same way wherever it is. -/
theorem scanNewline_congr {c c' d : Scanner} (hcd : c.remaining = d.remaining)
    (h : scanNewline c = .ok () c') :
    ∃ d', scanNewline d = .ok () d' ∧ c'.remaining = d'.remaining := by
  have hgives := gives_scanNewline.mp ⟨c', h, rfl⟩
  rw [hcd] at hgives
  obtain ⟨d', hd, hrem⟩ := gives_scanNewline.mpr hgives
  exact ⟨d', hd, hrem.symm⟩

/-- A line end is not empty. -/
theorem length_scanNewline {c c' : Scanner} (h : scanNewline c = .ok () c') :
    c'.remaining.length < c.remaining.length := by
  have hrem' : Cursor.remaining c' = c'.remaining := rfl
  rcases gives_scanNewline.mp ⟨c', h, rfl⟩ with hrem | ⟨hrem, -⟩ | hrem <;>
  · rw [hrem, hrem']
    simp only [List.length_cons]
    omega

/-- Whether the headers are over depends on what remains only. -/
theorem atHeadersEnd_congr {c d : Scanner} (h : c.remaining = d.remaining) :
    atHeadersEnd c = atHeadersEnd d := by
  rw [atHeadersEnd, atHeadersEnd, Scanner.peek_eq_head?, Scanner.peek_eq_head?, h]

/-! ### One line -/

/-- The name of a header does not depend on what follows its line. -/
theorem staysInLine_headerName : StaysInLine headerName := by
  apply Confined.bind staysIn_readToken
  intro name
  apply Confined.bind staysIn_skipWs
  intro _
  apply Confined.bind (staysIn_mustRead 58)
  intro _
  exact staysIn_skipWs.bind fun _ => Confined.pure _

/-- A header does not depend on what follows its line unless its value reads on there. -/
theorem staysInLine_header : Confined isNewline (Failure.IsErrorOr True) header :=
  (staysInLine_headerName.mono (Failure.IsErrorOr.mono False.elim)).bind fun name =>
    (valueParser_parseHeaderValue name).inLine.mono (Failure.IsErrorOr.mono fun _ => trivial)

/-- From a text without line ends, the headers of a line are clean. -/
theorem yieldsClean_header : YieldsClean header :=
  yieldsClean_headerName.bind fun _ hname => yieldsClean_parseHeaderValue hname

/-- A header line with its text is a header, the end behind it, and what was read in between. -/
theorem headerText_eq_ok_iff {c c' : Scanner} {text : Bytes} {headers : Headers} :
    headerText c = .ok (text, headers) c' ↔ ∃ c₁, header c = .ok headers c₁ ∧
      scanNewline c₁ = .ok () c' ∧ c.remaining = text ++ c₁.remaining := by
  have htake : ∀ {c₁ : Scanner} {text : Bytes}, c.remaining = text ++ c₁.remaining →
      c.remaining.take (c.remaining.length - c₁.remaining.length) = text := by
    intro c₁ text h
    rw [h, List.length_append, Nat.add_sub_cancel, List.take_left']
    rfl
  constructor
  · intro h
    obtain ⟨hs, c₁, hheader, h⟩ := bind_eq_ok_iff.mp (get_bind_eq_ok_iff.mp h)
    obtain ⟨_, c₃, hnewline, h⟩ := bind_eq_ok_iff.mp (get_bind_eq_ok_iff.mp h)
    injection h with hpair hc₃
    obtain ⟨htext, hhs⟩ := Prod.mk.inj hpair
    obtain ⟨text', htext'⟩ := staysInLine_header.suffix hheader
    have hrem : c.remaining = text' ++ c₁.remaining := htext'.symm
    rw [← htext, htake hrem]
    exact ⟨c₁, hhs ▸ hheader, hc₃ ▸ hnewline, hrem⟩
  · rintro ⟨c₁, hheader, hnewline, hrem⟩
    refine bind_eq_ok_iff.mpr ⟨c, c, rfl, bind_eq_ok_iff.mpr ⟨headers, c₁, hheader, ?_⟩⟩
    refine bind_eq_ok_iff.mpr ⟨c₁, c₁, rfl, bind_eq_ok_iff.mpr ⟨(), c', hnewline, ?_⟩⟩
    rw [htake hrem]
    rfl

/-- A plain line is what comes in front of the first line end, and that end. -/
theorem headerLine_eq_ok_iff {c c' : Scanner} {line : Bytes} :
    headerLine c = .ok line c' ↔ line = c.remaining.takeWhile (fun b => !isNewline b) ∧
      scanNewline (Lib.advance c line) = .ok () c' := by
  constructor
  · intro h
    obtain ⟨text, c₁, hscan, h⟩ := bind_eq_ok_iff.mp h
    obtain ⟨htext, hc₁⟩ := scanWhile_eq_ok_iff.mp hscan
    obtain ⟨_, c₂, hnewline, h⟩ := bind_eq_ok_iff.mp h
    injection h with hline hc₂
    rw [htext] at hc₁
    rw [← hline, hc₁, ← hc₂]
    exact ⟨htext.symm, hnewline⟩
  · rintro ⟨hline, hnewline⟩
    refine bind_eq_ok_iff.mpr ⟨line, _, scanWhile_eq_ok_iff.mpr ⟨hline.symm, rfl⟩, ?_⟩
    rw [← hline]
    exact bind_eq_ok_iff.mpr ⟨(), c', hnewline, rfl⟩

/-- A plain line has no line end in it. -/
theorem cleanBytes_headerLine {c c' : Scanner} {line : Bytes} (h : headerLine c = .ok line c') :
    CleanBytes line := by
  intro b hb
  rw [(headerLine_eq_ok_iff.mp h).1] at hb
  simpa using List.mem_takeWhile_imp hb

/-- A line is a header on its own if the whole of it is read. -/
theorem isHeader_iff {line : Bytes} :
    isHeader line ↔ ∃ headers, Gives header (Scanner.new line) headers [] := by
  unfold isHeader
  cases hrun : header (Scanner.new line) with
  | ok headers c =>
    constructor
    · exact fun h => ⟨headers, c, hrun, List.isEmpty_iff.mp h⟩
    · rintro ⟨headers', c', h, hleft⟩
      rw [hrun] at h
      injection h with _ hc
      rw [hc]
      exact List.isEmpty_iff.mpr hleft
  | error e c =>
    refine iff_of_false (by simp) ?_
    rintro ⟨headers, c', h, -⟩
    rw [hrun] at h
    injection h

/-- In front of a line end, what comes before it. -/
theorem inLine_new {c c₁ c' : Scanner} {line : Bytes}
    (hrem : c.remaining = line ++ c₁.remaining) (hnewline : scanNewline c₁ = .ok () c') :
    InLine isNewline c (Scanner.new line) c₁.remaining where
  whole := hrem
  rest := scanNewline_eq_ok hnewline

/-- What comes in front of a line end is the line. -/
theorem takeWhile_line {line rest : Bytes} (hline : CleanBytes line)
    (hrest : ∀ b ∈ rest.head?, isNewline b) :
    (line ++ rest).takeWhile (fun b => !isNewline b) = line := by
  have hstops : Stops (fun b => !isNewline b) rest := fun b hb => by simp [hrest b hb]
  rw [takeWhile_append_of_stops hstops, List.takeWhile_eq_self_iff]
  intro b hb
  simp [hline b hb]

/-- A header that is parsed from bytes without line ends is parsed from a line. -/
theorem headerLine_of_headerText {c c' d : Scanner} {text : Bytes} {headers : Headers}
    (hcd : c.remaining = d.remaining) (hclean : CleanBytes text)
    (h : headerText c = .ok (text, headers) c') :
    ∃ d', headerLine d = .ok text d' ∧ c'.remaining = d'.remaining ∧
      Gives header (Scanner.new text) headers [] := by
  obtain ⟨c₁, hheader, hnewline, hrem⟩ := headerText_eq_ok_iff.mp h
  have hadvance : c₁.remaining = (Lib.advance d text).remaining :=
    (remaining_advance (σ := Scanner) (hcd.symm.trans hrem)).symm
  obtain ⟨d', hnewline', hrem'⟩ := scanNewline_congr hadvance hnewline
  refine ⟨d', headerLine_eq_ok_iff.mpr ⟨?_, hnewline'⟩, hrem', ?_⟩
  · rw [← hcd, hrem, takeWhile_line hclean (scanNewline_eq_ok hnewline)]
  · exact (staysInLine_header.inLine (inLine_new hrem hnewline) headers []).mpr
      ⟨c₁, hheader, rfl⟩

/-- A line that is a header is what that header is parsed from. -/
theorem headerText_of_headerLine {c d d' : Scanner} {line : Bytes}
    (hcd : d.remaining = c.remaining) (hline : isHeader line) (h : headerLine d = .ok line d') :
    ∃ headers c', headerText c = .ok (line, headers) c' ∧ d'.remaining = c'.remaining := by
  obtain ⟨htext, hnewline⟩ := headerLine_eq_ok_iff.mp h
  obtain ⟨headers, hgives⟩ := isHeader_iff.mp hline
  have hrem : c.remaining = line ++ (Lib.advance d line).remaining := by
    have hsplit : d.remaining = line ++ d.remaining.dropWhile (fun b => !isNewline b) := by
      rw [htext]
      exact List.takeWhile_append_dropWhile.symm
    have hadvance : (Lib.advance d line).remaining =
        d.remaining.dropWhile (fun b => !isNewline b) := remaining_advance (σ := Scanner) hsplit
    rw [← hcd, hadvance]
    exact hsplit
  have hinLine := inLine_new hrem hnewline
  obtain ⟨c₁, hheader, hrem₁⟩ := (staysInLine_header.inLine hinLine headers []).mp hgives
  have hrem₁ : (Lib.advance d line).remaining = c₁.remaining := hrem₁.symm
  obtain ⟨c', hnewline', hrem'⟩ := scanNewline_congr hrem₁ hnewline
  refine ⟨headers, c', headerText_eq_ok_iff.mpr ⟨c₁, hheader, hnewline', ?_⟩, hrem'⟩
  rw [← hrem₁]
  exact hrem

/-- The strings of a header that is parsed from bytes without line ends have none. -/
theorem clean_headerText {c c' : Scanner} {text : Bytes} {headers : Headers}
    (hclean : CleanBytes text) (h : headerText c = .ok (text, headers) c') : Clean headers := by
  obtain ⟨-, -, -, c₁, hheader, -⟩ := headerLine_of_headerText rfl hclean h
  have hin : InClean (Scanner.new text) := hclean
  exact (yieldsClean_header _ _ _ hin hheader).1

/-! ### The header section -/

/-- A header line consumes something, its end at least. -/
theorem length_headerText {c c' : Scanner} {t : Bytes × Headers} (h : headerText c = .ok t c') :
    (Cursor.remaining c').length < (Cursor.remaining c).length := by
  obtain ⟨c₁, hheader, hnewline, -⟩ := headerText_eq_ok_iff.mp h
  have hheader_le := staysInLine_header.length_le hheader
  have hnewline_lt := length_scanNewline hnewline
  exact lt_of_lt_of_le hnewline_lt hheader_le

/-- A plain line consumes something, its end at least. -/
theorem length_headerLine {c c' : Scanner} {line : Bytes} (h : headerLine c = .ok line c') :
    (Cursor.remaining c').length < (Cursor.remaining c).length := by
  obtain ⟨text, c₁, hscan, h⟩ := bind_eq_ok_iff.mp h
  obtain ⟨_, c₂, hnewline, h⟩ := bind_eq_ok_iff.mp h
  injection h with _ hc
  have hscan_le := (ends_consumeWhile _).length_le hscan
  have hnewline_lt := length_scanNewline hnewline
  rw [← hc]
  exact lt_of_lt_of_le hnewline_lt hscan_le

/-- A header line of the parser is one with its text. -/
theorem parseHeaderLine_eq_ok {c c' : Scanner} {line : Headers × Bool}
    (h : parseHeaderLine c = .ok line c') : ∃ text, headerText c = .ok (text, line.1) c' := by
  obtain ⟨name, c₁, hname, h⟩ := bind_eq_ok_iff.mp h
  obtain ⟨headers, c₂, hvalue, h⟩ := bind_eq_ok_iff.mp h
  obtain ⟨_, c₃, hnewline, h⟩ := bind_eq_ok_iff.mp h
  injection h with hline hc'
  have hheader : header c = .ok headers c₂ := bind_eq_ok_iff.mpr ⟨name, c₁, hname, hvalue⟩
  obtain ⟨text, htext⟩ := staysInLine_header.suffix hheader
  rw [← hline, ← hc']
  exact ⟨text, headerText_eq_ok_iff.mpr ⟨c₂, hheader, hnewline, htext.symm⟩⟩

/-- **The header loop**, line by line. -/
theorem runs_of_parseHeaders {c c' : Scanner} {headers : Headers} {found : Bool}
    (h : parseHeaders c = .ok (headers, found) c') :
    ∃ texts, Runs atHeadersEnd headerText c texts c' ∧ headers = texts.flatMap Prod.snd := by
  have hloop : ∃ texts, Runs atHeadersEnd headerText c texts c' ∧
      headers = [] ++ texts.flatMap Prod.snd := by
    apply loop_ok (P := fun acc c result c' => ∃ texts, Runs atHeadersEnd headerText c texts c' ∧
      result.1 = acc.1 ++ texts.flatMap Prod.snd) _ _ h
    · -- the headers end here
      rintro ⟨acc, accFound⟩ c ⟨headers, found⟩ c' hbody
      obtain ⟨line, hline, hresult, hend⟩ := headersBody_eq_ok hbody
      obtain ⟨text, htext⟩ := parseHeaderLine_eq_ok hline
      have hheaders : headers = acc ++ line.1 := congrArg Prod.fst hresult
      refine ⟨[(text, line.1)], Runs.last htext (decide_eq_true (hend.mp rfl)), ?_⟩
      rw [hheaders, List.flatMap_singleton]
    · -- one more line follows
      rintro ⟨acc, accFound⟩ c ⟨acc', accFound'⟩ c₁ ⟨headers, found⟩ c' hbody ⟨texts, hruns, hrest⟩
      obtain ⟨line, hline, hresult, hend⟩ := headersBody_eq_ok hbody
      obtain ⟨text, htext⟩ := parseHeaderLine_eq_ok hline
      have hacc : acc' = acc ++ line.1 := congrArg Prod.fst hresult
      have hgo : atHeadersEnd c₁ = false := decide_eq_false fun h => absurd (hend.mpr h) nofun
      refine ⟨(text, line.1) :: texts, Runs.cons htext hgo hruns, ?_⟩
      rw [hrest, hacc, List.flatMap_cons, List.append_assoc]
  obtain ⟨texts, hruns, hheaders⟩ := hloop
  exact ⟨texts, hruns, hheaders⟩

section Start

variable {buf : Bytes} {bare : SipMessage} {c c' : Scanner}

/-- The header texts of a buffer are those of the run that reads them. -/
theorem headerTexts_eq (hstart : parseStartLine (Scanner.new buf) = .ok bare c)
    {texts : List (Bytes × Headers)} (h : Runs atHeadersEnd headerText c texts c') :
    headerTexts buf = some texts := by
  have htexts := h.repeatUntil_eq Failure.stuck length_headerText
  have hrun := (bind_eq_ok_iff (f := fun _ => repeatUntil .stuck atHeadersEnd headerText)).mpr
    ⟨bare, c, hstart, htexts⟩
  simp only [headerTexts, hrun]

/-- A buffer has header lines exactly if they can be read up to an empty one. -/
theorem headerLines_eq_some_iff (hstart : parseStartLine (Scanner.new buf) = .ok bare c)
    {lines : List Bytes} :
    headerLines buf = some lines ↔ ∃ c', Runs atHeadersEnd headerLine c lines c' := by
  constructor
  · intro h
    unfold headerLines at h
    dsimp only at h
    split at h
    · rename_i lines' c' hrun
      obtain ⟨bare', c₁, hstart', hrun⟩ := bind_eq_ok_iff.mp hrun
      rw [hstart] at hstart'
      injection hstart' with _ hc
      rw [← hc] at hrun
      exact ⟨c', Option.some.inj h ▸ runs_of_repeatUntil hrun⟩
    · exact absurd h (by simp)
  · rintro ⟨c', h⟩
    have hlines := h.repeatUntil_eq Failure.stuck length_headerLine
    have hrun := (bind_eq_ok_iff (f := fun _ => repeatUntil .stuck atHeadersEnd headerLine)).mpr
      ⟨bare, c, hstart, hlines⟩
    simp only [headerLines, hrun]

/-- The scan for line ends follows the parser, as long as that stays in its lines. -/
theorem runs_headerLine {texts : List (Bytes × Headers)}
    (h : Runs atHeadersEnd headerText c texts c') (hclean : ∀ t ∈ texts, CleanBytes t.1) :
    ∃ lines d', (∀ line ∈ lines, isHeader line) ∧ Runs atHeadersEnd headerLine c lines d' ∧
      c'.remaining = d'.remaining := by
  refine h.sim (S := fun c d : Scanner => c.remaining = d.remaining) ?_ atHeadersEnd_congr hclean rfl
  rintro c d ⟨text, headers⟩ c' hcd hclean hrun
  obtain ⟨d', hline, hrem, hgives⟩ := headerLine_of_headerText hcd hclean hrun
  exact ⟨text, d', isHeader_iff.mpr ⟨headers, hgives⟩, hline, hrem⟩

/-- The parser follows the scan for line ends, when each line is a header. -/
theorem runs_headerText {lines : List Bytes} (h : Runs atHeadersEnd headerLine c lines c')
    (hcomplete : ∀ line ∈ lines, isHeader line) :
    ∃ texts d', (∀ t ∈ texts, CleanBytes t.1) ∧ Runs atHeadersEnd headerText c texts d' ∧
      c'.remaining = d'.remaining := by
  refine h.sim (Q := fun t : Bytes × Headers => CleanBytes t.1)
    (S := fun c d : Scanner => c.remaining = d.remaining) ?_ atHeadersEnd_congr hcomplete rfl
  intro c d line c' hcd hline hrun
  obtain ⟨headers, d', htext, hrem⟩ := headerText_of_headerLine hcd hline hrun
  exact ⟨(line, headers), d', cleanBytes_headerLine hrun, htext, hrem⟩

/-- **Lines and headers.** Every header is parsed from bytes without line ends if and only if
    every line is a header on its own. -/
theorem clean_texts_iff (hstart : parseStartLine (Scanner.new buf) = .ok bare c)
    {texts : List (Bytes × Headers)} (h : Runs atHeadersEnd headerText c texts c') :
    (∀ t ∈ texts, CleanBytes t.1) ↔ completeLines buf := by
  rw [completeLines, Option.any_eq_true]
  constructor
  · intro hclean
    obtain ⟨lines, d', hlines, hruns, -⟩ := runs_headerLine h hclean
    exact ⟨lines, (headerLines_eq_some_iff hstart).mpr ⟨d', hruns⟩, List.all_eq_true.mpr hlines⟩
  · rintro ⟨lines, hlines, hcomplete⟩
    obtain ⟨d', hruns⟩ := (headerLines_eq_some_iff hstart).mp hlines
    obtain ⟨texts', c'', htexts, hruns', -⟩ := runs_headerText hruns (List.all_eq_true.mp hcomplete)
    rw [(h.unique hruns').1]
    exact htexts

/-- Headers that keep to their lines are clean. -/
theorem clean_headers {texts : List (Bytes × Headers)}
    (h : Runs atHeadersEnd headerText c texts c') (hclean : ∀ t ∈ texts, CleanBytes t.1) :
    Clean (texts.flatMap Prod.snd) := by
  rw [clean_list]
  intro header hheader
  obtain ⟨⟨text, headers⟩, ht, hheader⟩ := List.mem_flatMap.mp hheader
  obtain ⟨c₁, c₂, hrun⟩ := h.exists_of_mem ht
  exact clean_list.mp (clean_headerText (hclean _ ht) hrun) header hheader

end Start

end SipParser

/-! ### Copies of headers -/

/-- Headers without line ends are printed as one line each. -/
theorem Headers.clean_toText {headers : Headers} (hclean : Clean headers) {text : String}
    (h : headers.toText = some text) : ∃ lines : List String, lines.length = headers.length ∧
      (∀ line ∈ lines, Clean line) ∧
        asBytes text = lines.flatMap fun line => asBytes (line ++ "\r\n") := by
  induction headers generalizing text with
  | nil =>
    refine ⟨[], rfl, by simp, ?_⟩
    rw [← Option.some.inj h]
    rfl
  | cons header headers ih =>
    obtain ⟨hheader, hheaders⟩ := clean_cons.mp hclean
    obtain ⟨line, hline, h⟩ := Option.bind_eq_some_iff.mp h
    obtain ⟨rest, hrest, h⟩ := Option.bind_eq_some_iff.mp h
    obtain ⟨lines, hlen, hlines, hbytes⟩ := ih hheaders hrest
    refine ⟨line :: lines, by simp [hlen], ?_, ?_⟩
    · exact List.forall_mem_cons.mpr ⟨header.clean_toText hheader hline, hlines⟩
    · rw [← Option.some.inj h, asBytes_append, hbytes, List.flatMap_cons]

/-- The headers of `m`, parsed from `buf`, keep to their lines: those they are parsed from, and
    those a copy is printed to. -/
structure OwnLines (buf : Bytes) (m : SipMessage) : Prop where
  texts : ∃ texts, SipParser.headerTexts buf = some texts ∧
    m.headers = texts.flatMap Prod.snd ∧ ∀ t ∈ texts, CleanBytes t.1
  fields : ∀ h ∈ m.headers, Clean h
  copies : ∀ copy : SipMessage, (∀ h ∈ copy.headers, h ∈ m.headers) →
    ∀ bytes, encode copy = some bytes → ∃ lines : List String,
      lines.length = copy.headers.length ∧ (∀ line ∈ lines, Clean line) ∧
        bytes = asBytes (copy.startLine ++ "\r\n") ++
          (lines.flatMap fun line => asBytes (line ++ "\r\n")) ++ writeBody copy.body

/-- **When headers keep to their lines.** No header of an accepted message goes over a line end, in
    the text that was parsed and in that of every copy, exactly if each line of the header section
    is a header without what follows it. -/
theorem ownLines_iff {buf : Bytes} {m : SipMessage} (h : SipParser.parse buf = .ok m) :
    OwnLines buf m ↔ SipParser.completeLines buf := by
  obtain ⟨c, hrun⟩ := SipParser.parse_eq_ok_iff.mp h
  obtain ⟨bare, c₁, headers, found, c₂, hstart, hheaders, hread⟩ :=
    SipParser.parseSipMsg_eq_ok hrun
  obtain ⟨texts, hruns, htexts⟩ := SipParser.runs_of_parseHeaders hheaders
  have hmheaders : m.headers = texts.flatMap Prod.snd := by
    rw [hread, SipParser.readMessage_headers, htexts]
  rw [← SipParser.clean_texts_iff hstart hruns]
  -- the lines that are looked at are those that the loop of headers went through
  constructor
  · intro hown
    obtain ⟨texts', htexts', -, hclean⟩ := hown.texts
    rw [SipParser.headerTexts_eq hstart hruns] at htexts'
    rw [Option.some.inj htexts']
    exact hclean
  · intro hclean
    have hfields : Clean m.headers := by
      rw [hmheaders]
      exact SipParser.clean_headers hruns hclean
    refine ⟨⟨texts, SipParser.headerTexts_eq hstart hruns, hmheaders, hclean⟩,
      clean_list.mp hfields, ?_⟩
    intro copy hcopy bytes hbytes
    obtain ⟨text, htext, hlayout⟩ := encode_eq_some_iff.mp hbytes
    have hclean : Clean copy.headers :=
      clean_list.mpr fun h hh => clean_list.mp hfields h (hcopy h hh)
    obtain ⟨lines, hlen, hlines, htext⟩ := Headers.clean_toText hclean htext
    exact ⟨lines, hlen, hlines, by rw [hlayout, htext]⟩

/-- The property at a response with one header. -/
theorem ownLines_options :
    OwnLines (asBytes "SIP/2.0 200 OK\r\nCSeq: 7 OPTIONS\r\n\r\n")
      (.response { statusLine := ⟨.ok, "OK"⟩, headers := [.cSeq ⟨7, .options⟩] }) := by
  have hparse : SipParser.parse (asBytes "SIP/2.0 200 OK\r\nCSeq: 7 OPTIONS\r\n\r\n") =
      .ok (.response { statusLine := ⟨.ok, "OK"⟩, headers := [.cSeq ⟨7, .options⟩] }) := by
    decide +kernel
  exact (ownLines_iff hparse).mpr (by decide +kernel)

/-- A display name in quotes goes on behind the end of its line, and a copy of it is printed as
    two lines. -/
theorem not_ownLines_display : ¬ ∀ buf m, SipParser.parse buf = .ok m → OwnLines buf m := by
  intro h
  have hparse : SipParser.parse (asBytes
      "SIP/2.0 200 OK\r\nFrom: \"a\r\nTo: b\" <sip:c>\r\n\r\n") =
      .ok (.response { statusLine := ⟨.ok, "OK"⟩, headers := [.fromHdr ⟨.nameAddr
        ⟨some "a\r\nTo: b", { scheme := .sip, user := none, hostPort := ⟨.hostName "c", none⟩ }⟩,
        none, {}⟩] }) := by
    decide +kernel
  have hfields := (h _ _ hparse).fields
  exact absurd hfields (by decide +kernel)

end Rssip
