import Rssip.Parser.Lines

namespace Rssip

open Lib

/-!
# The parser and its panics

No parser of a header value indexes into the buffer, and one of them subtracts: that of a
`MIME-Version`, which takes `0` from two bytes that need not be digits.

* `underflows` — the values for which that goes below zero;
* `Panics` — the judgment, by the parts of a parser;
* `HeaderAt` — where the headers are that the parser comes to;
* `safe_iff` — apart from such a value in one of these headers, the parser returns a message or an
  error, and does not leave its buffer.
-/

namespace SipParser

/-! ### Parsers that panic -/

/-- The parser panics at `c`. -/
def Panics {α : Type} (r : Parse α) (c : Scanner) : Prop := ∃ c', r c = .error .panic c'

theorem Panics.not_of_ends {α : Type} {r : Parse α} (h : Ends r) {c : Scanner} : ¬ Panics r c := by
  rintro ⟨c', hrun⟩
  exact h.error hrun

/-- Behind a parser that does not panic. -/
theorem panics_bind_iff {α β : Type} {r : Parse α} {f : α → Parse β} (h : Ends r) {c : Scanner} :
    Panics (r >>= f) c ↔ ∃ a c', r c = .ok a c' ∧ Panics (f a) c' := by
  constructor
  · rintro ⟨c'', hrun⟩
    rcases bind_eq_error_iff.mp hrun with hr | ⟨a, c', hr, hf⟩
    · exact absurd ⟨c'', hr⟩ (Panics.not_of_ends h)
    · exact ⟨a, c', hr, c'', hf⟩
  · rintro ⟨a, c', hr, c'', hf⟩
    exact ⟨c'', bind_eq_error_iff.mpr (.inr ⟨a, c', hr, hf⟩)⟩

/-- In front of parsers that do not panic. -/
theorem panics_bind_iff_left {α β : Type} {r : Parse α} {f : α → Parse β} (h : ∀ a, Ends (f a))
    {c : Scanner} : Panics (r >>= f) c ↔ Panics r c := by
  constructor
  · rintro ⟨c'', hrun⟩
    rcases bind_eq_error_iff.mp hrun with hr | ⟨a, c', hr, hf⟩
    · exact ⟨c'', hr⟩
    · exact absurd ⟨c'', hf⟩ (Panics.not_of_ends (h a))
  · rintro ⟨c', hr⟩
    exact ⟨c', bind_eq_error_iff.mpr (.inl hr)⟩

/-! ### Versions -/

/-- A byte below `0` stands for the first number of a version, or for the one behind the point. -/
def underflows : Bytes → Bool
  | b :: 46 :: d :: _ => b < 48 || d < 48
  | b :: _ => b < 48
  | [] => false

theorem underflows_iff {value : Bytes} : underflows value ↔ ∃ b rest, value = b :: rest ∧
    (b < 48 ∨ ∃ d rest', rest = 46 :: d :: rest' ∧ d < 48) := by
  unfold underflows
  split
  · rename_i b d rest
    simp
  · rename_i b rest hrest
    constructor
    · exact fun h => ⟨b, rest, rfl, .inl (by simpa using h)⟩
    · rintro ⟨_, _, ⟨rfl, rfl⟩, h | ⟨d, rest', rfl, -⟩⟩
      · simpa using h
      · exact absurd rfl (hrest d rest')
  · simp

/-- The subtraction, in front of the rest of a parser. -/
theorem panics_minusZero_bind_iff {β : Type} {b : UInt8} {f : UInt8 → Parse β} {c : Scanner} :
    Panics (minusZero b >>= f) c ↔ b < 48 ∨ ¬ b < 48 ∧ Panics (f (b - 48)) c := by
  unfold minusZero
  split
  · rename_i hb
    exact iff_of_true ⟨c, rfl⟩ (.inl hb)
  · rename_i hb
    rw [pure_bind]
    simp [hb]

theorem gives_advance {c c' : Scanner} {b : UInt8} (h : advance c = .ok b c') :
    c.remaining = b :: c'.remaining := gives_nextByte.mp ⟨c', ofScan_eq_ok_iff.mp h, rfl⟩

theorem exists_advance {c : Scanner} {b : UInt8} {bs : Bytes} (h : c.remaining = b :: bs) :
    ∃ c', advance c = .ok b c' ∧ c'.remaining = bs := by
  obtain ⟨c', hrun, hrem⟩ := gives_nextByte.mpr h
  exact ⟨c', ofScan_eq_ok_iff.mpr hrun, hrem⟩

/-- **When the parser of a version panics.** -/
theorem panics_mimeVersion_iff {c : Scanner} :
    Panics MimeVersion.parse c ↔ underflows c.remaining := by
  have hminor : ∀ {c : Scanner} {major : UInt8}, Panics (do
      mustRead 46
      let minor ← minusZero (← advance)
      return MimeVersion.mk major minor) c ↔
        ∃ d rest, c.remaining = 46 :: d :: rest ∧ d < 48 := by
    intro c major
    rw [panics_bind_iff (ends_mustRead 46)]
    constructor
    · rintro ⟨_, c₁, hpoint, hpanics⟩
      obtain ⟨d, c₂, hadvance, hpanics⟩ := (panics_bind_iff ends_advance).mp hpanics
      have hc := gives_mustRead.mp ⟨c₁, ofScan_eq_ok_iff.mp hpoint, rfl⟩
      refine ⟨d, c₂.remaining, ?_, ?_⟩
      · rw [hc, ← gives_advance hadvance]
        rfl
      · rcases panics_minusZero_bind_iff.mp hpanics with hd | ⟨-, hpure⟩
        · exact hd
        · exact absurd hpure (Panics.not_of_ends (Bounded.pure _))
    · rintro ⟨d, rest, hc, hd⟩
      obtain ⟨c₁, hpoint, hrem₁⟩ := gives_mustRead.mpr hc
      obtain ⟨c₂, hadvance, -⟩ := exists_advance hrem₁
      refine ⟨(), c₁, ofScan_eq_ok_iff.mpr hpoint, ?_⟩
      exact (panics_bind_iff ends_advance).mpr
        ⟨d, c₂, hadvance, panics_minusZero_bind_iff.mpr (.inl hd)⟩
  rw [underflows_iff, MimeVersion.parse, panics_bind_iff ends_advance]
  constructor
  · rintro ⟨b, c₁, hadvance, hpanics⟩
    refine ⟨b, c₁.remaining, gives_advance hadvance, ?_⟩
    rcases panics_minusZero_bind_iff.mp hpanics with hb | ⟨-, hrest⟩
    · exact .inl hb
    · exact .inr (hminor.mp hrest)
  · rintro ⟨b, rest, hc, hbad⟩
    obtain ⟨c₁, hadvance, rfl⟩ := exists_advance hc
    refine ⟨b, c₁, hadvance, panics_minusZero_bind_iff.mpr ?_⟩
    by_cases hb : b < 48
    · exact .inl hb
    · exact .inr ⟨hb, hminor.mpr (hbad.resolve_left hb)⟩

/-! ### Header lines -/

/-- The name of a version and its colon are in front of `value`. -/
def VersionIn (c : Scanner) (value : Bytes) : Prop := Gives headerName c MimeVersion.name value

theorem panics_parseHeaderValue_iff {name : String} {c : Scanner} :
    Panics (parseHeaderValue name) c ↔ name = MimeVersion.name ∧ underflows c.remaining := by
  by_cases hname : name = MimeVersion.name
  · have hparse : parseHeaderValue MimeVersion.name = one .mimeVersion MimeVersion.parse := rfl
    rw [hname, hparse, one, panics_bind_iff_left fun _ => Bounded.pure _, panics_mimeVersion_iff]
    simp
  · refine iff_of_false ?_ fun h => hname h.1
    rintro ⟨c', hrun⟩
    exact hname ((valueParser_parseHeaderValue name).inLine.error hrun)

/-- **When a header line panics.** -/
theorem panics_parseHeaderLine_iff {c : Scanner} :
    Panics parseHeaderLine c ↔ ∃ value, VersionIn c value ∧ underflows value := by
  have hend : ∀ name (headers : Headers), Ends (do
      scanNewline
      return (headers, isContentTypeName name)) :=
    fun _ _ => ends_scanNewline.bind fun _ => Bounded.pure _
  rw [parseHeaderLine, panics_bind_iff ends_headerName]
  constructor
  · rintro ⟨name, c₁, hname, hpanics⟩
    obtain ⟨rfl, hvalue⟩ :=
      panics_parseHeaderValue_iff.mp ((panics_bind_iff_left (hend name)).mp hpanics)
    exact ⟨c₁.remaining, ⟨c₁, hname, rfl⟩, hvalue⟩
  · rintro ⟨_, ⟨c₁, hname, rfl⟩, hvalue⟩
    refine ⟨_, c₁, hname, (panics_bind_iff_left (hend _)).mpr ?_⟩
    exact panics_parseHeaderValue_iff.mpr ⟨rfl, hvalue⟩

theorem panics_headersBody_iff {a : Headers × Bool} {c : Scanner} :
    Panics (headersBody a) c ↔ Panics parseHeaderLine c := by
  obtain ⟨headers, found⟩ := a
  apply panics_bind_iff_left
  rintro ⟨line, isContentType⟩
  apply Bounded.bind ends_peek
  intro next
  split <;> exact Bounded.pure _

/-! ### The header section -/

/-- A header starts at the cursor: behind the start line of `buf`, or behind the line of another
    header that is not the last. -/
inductive HeaderAt (buf : Bytes) : Scanner → Prop
  | first {bare c} (h : parseStartLine (Scanner.new buf) = .ok bare c) : HeaderAt buf c
  | next {c line c'} (hc : HeaderAt buf c) (h : parseHeaderLine c = .ok line c')
      (hgo : atHeadersEnd c' = false) : HeaderAt buf c'

theorem HeaderAt.start {buf : Bytes} {c : Scanner} (h : HeaderAt buf c) :
    ∃ bare c₀, parseStartLine (Scanner.new buf) = .ok bare c₀ := by
  induction h with
  | first h => exact ⟨_, _, h⟩
  | next _ _ _ ih => exact ih

theorem headersBody_of_line {a : Headers × Bool} {c c' : Scanner} {line : Headers × Bool}
    (h : parseHeaderLine c = .ok line c') (hgo : atHeadersEnd c' = false) :
    ∃ a', headersBody a c = .ok (.inl a') c' := by
  obtain ⟨headers, found⟩ := a
  have hnext : ¬ (c'.peek = some 13 ∨ c'.peek = some 10 ∨ c'.peek = none) := by
    simpa [atHeadersEnd] using hgo
  refine ⟨(headers ++ line.1, found || line.2), bind_eq_ok_iff.mpr ⟨line, c', h, ?_⟩⟩
  refine bind_eq_ok_iff.mpr ⟨c'.peek, c', rfl, ?_⟩
  rw [if_neg hnext]
  rfl

/-- The iterations of the loop over the headers start where headers do. -/
theorem headerAt_iff_reaches {buf : Bytes} {bare : SipMessage} {c₀ c : Scanner}
    (hstart : parseStartLine (Scanner.new buf) = .ok bare c₀) :
    HeaderAt buf c ↔ ∃ a, Reaches headersBody ([], false) c₀ a c := by
  constructor
  · intro h
    induction h with
    | first h =>
      rw [hstart] at h
      injection h with _ hc
      rw [← hc]
      exact ⟨_, Reaches.refl _ _⟩
    | next _ hline hgo ih =>
      obtain ⟨a, hreaches⟩ := ih
      obtain ⟨a', hbody⟩ := headersBody_of_line (a := a) hline hgo
      exact ⟨a', hreaches.concat hbody⟩
  · rintro ⟨a, hreaches⟩
    have hfirst : HeaderAt buf c₀ := HeaderAt.first hstart
    clear hstart
    generalize (([], false) : Headers × Bool) = a₀ at hreaches
    induction hreaches with
    | refl a c => exact hfirst
    | @step a c a₁ c₁ a' c' hbody _ ih =>
      obtain ⟨headers, found⟩ := a
      obtain ⟨line, hline, -, hend⟩ := headersBody_eq_ok hbody
      exact ih (HeaderAt.next hfirst hline (decide_eq_false fun h => absurd (hend.mpr h) nofun))

/-- **When the parser panics.** -/
theorem panics_parseSipMsg_iff {buf : Bytes} : Panics parseSipMsg (Scanner.new buf) ↔
    ∃ c value, HeaderAt buf c ∧ VersionIn c value ∧ underflows value := by
  have hbody : ∀ (bare : SipMessage) (p : Headers × Bool), Ends (do
      let sipMessage := bare.setHeaders p.1
      if p.2 then return sipMessage.setBody (some (← parseBody))
      return sipMessage : Parse SipMessage) := by
    intro bare p
    dsimp only
    split
    · exact ends_parseBody.bind fun _ => Bounded.pure _
    · exact Bounded.pure _
  rw [parseSipMsg, panics_bind_iff ends_parseStartLine]
  constructor
  · rintro ⟨bare, c₀, hstart, hpanics⟩
    obtain ⟨c', hloop⟩ := (panics_bind_iff_left (hbody bare)).mp hpanics
    obtain ⟨a, c, hreaches, herror⟩ := (loop_eq_error_iff consumes_headersBody).mp hloop
    obtain ⟨value, hversion, hvalue⟩ :=
      panics_parseHeaderLine_iff.mp (panics_headersBody_iff.mp ⟨c', herror⟩)
    exact ⟨c, value, (headerAt_iff_reaches hstart).mpr ⟨a, hreaches⟩, hversion, hvalue⟩
  · rintro ⟨c, value, hc, hversion, hvalue⟩
    obtain ⟨bare, c₀, hstart⟩ := hc.start
    obtain ⟨a, hreaches⟩ := (headerAt_iff_reaches hstart).mp hc
    obtain ⟨c', herror⟩ := panics_headersBody_iff.mpr
      (panics_parseHeaderLine_iff.mpr ⟨value, hversion, hvalue⟩)
    refine ⟨bare, c₀, hstart, (panics_bind_iff_left (hbody bare)).mpr ?_⟩
    exact ⟨c', (loop_eq_error_iff consumes_headersBody).mpr ⟨a, c, hreaches, herror⟩⟩

/-! ### The buffer -/

/-- Going over a text does not leave the buffer. -/
theorem index_le_of_advances {c c' : Scanner} (h : Advances c c')
    (hc : c.index ≤ c.buffer.length) : c'.index ≤ c'.buffer.length := by
  obtain ⟨text, htext, rfl⟩ := h
  have hlength := congrArg List.length htext
  rw [List.length_append, show (Cursor.remaining c).length = c.buffer.length - c.index from
    List.length_drop] at hlength
  rw [Scanner.index_advance, Scanner.buffer_advance]
  omega

/-- A message or an error, and a scanner that has not left its buffer.  Its index never decreases,
    so that nothing has been taken from behind the end of the buffer either. -/
def SafeEnd : EStateM.Result Failure Scanner SipMessage → Prop
  | .ok _ c | .error (.error _) c => c.index ≤ c.buffer.length
  | .error .panic _ | .error .stuck _ => False

instance : DecidablePred SafeEnd
  | .ok _ c | .error (.error _) c => inferInstanceAs (Decidable (c.index ≤ c.buffer.length))
  | .error .panic _ | .error .stuck _ => isFalse id

/-- The parser returns. -/
def Safe (buf : Bytes) : Prop := SafeEnd (parseSipMsg (Scanner.new buf))

instance (buf : Bytes) : Decidable (Safe buf) :=
  inferInstanceAs (Decidable (SafeEnd (parseSipMsg (Scanner.new buf))))

/-- **When the parser is safe.** For every byte string: unless one of the headers that the parser
    comes to is a `MIME-Version` with a byte below `0` in the place of a number. -/
theorem safe_iff (buf : Bytes) : Safe buf ↔
    ∀ c value, HeaderAt buf c → VersionIn c value → ¬ underflows value := by
  have hpanics : Panics parseSipMsg (Scanner.new buf) ↔
      ¬ ∀ c value, HeaderAt buf c → VersionIn c value → ¬ underflows value := by
    rw [panics_parseSipMsg_iff]
    simp only [not_forall, not_not, exists_prop]
  rw [← not_not (a := ∀ c value, _), ← hpanics]
  unfold Safe
  cases hrun : parseSipMsg (Scanner.new buf) with
  | ok m c =>
    refine iff_of_true ?_ ?_
    · exact index_le_of_advances (ends_parseSipMsg.advances hrun) (Nat.zero_le _)
    · rintro ⟨c', h⟩
      rw [hrun] at h
      cases h
  | error e c =>
    obtain ⟨he, hadvances⟩ := ends_parseSipMsg.fails hrun
    cases e with
    | error e =>
      refine iff_of_true (index_le_of_advances hadvances (Nat.zero_le _)) ?_
      rintro ⟨c', h⟩
      rw [hrun] at h
      cases h
    | panic => exact iff_of_false id fun h => h ⟨c, hrun⟩
    | stuck => exact he.elim

/-- A version without any number: the line end behind the name is below `0`, and the subtraction
    underflows. -/
theorem not_safe_emptyVersion : ¬ ∀ buf, Safe buf := by
  intro h
  have hempty := h (asBytes "OPTIONS sip:localhost SIP/2.0\r\nMIME-Version:\r\n\r\n")
  exact absurd hempty (by decide +kernel)

end SipParser

end Rssip
