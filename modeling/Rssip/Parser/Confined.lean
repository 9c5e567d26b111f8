import Rssip.Parser.Message
import Rssip.Parser.UriRoundTrip
import Rssip.Utils.Scans

namespace Rssip

open Lib

/-!
# Parsers and the lines they read

Every parser of a header value ends, with what it leaves a suffix of what remained, and as long
as it stays in its own line it does the same as on this line alone.

* `StaysInLine` — the judgment, with one lemma for each parser;
* `Ends` — the part of it that also holds of the parsers of whole messages.
-/

namespace SipParser

/-- The parser ends with a value or an error, and goes over a text. -/
abbrev Ends {α : Type} (r : Parse α) : Prop := Bounded Failure.IsError r

/-- The same for a parser that may panic. -/
abbrev EndsOrPanics {α : Type} (r : Parse α) : Prop := Bounded (Failure.IsErrorOr True) r

/-- The parser ends, and does not look behind a byte of `stop` unless it reads on there. -/
abbrev StaysIn {α : Type} (stop : UInt8 → Bool) (r : Parse α) : Prop :=
  Confined stop Failure.IsError r

/-- The parser ends, and does not look behind the end of a line unless it reads on there. -/
abbrev StaysInLine {α : Type} (r : Parse α) : Prop := StaysIn isNewline r

/-- A parser that stays in its line ends. -/
theorem ends_of_line {α : Type} {r : Parse α} (h : StaysInLine r) : Ends r := h.toBounded

/-! ### Ends -/

/-- The bytes at which a line, an element of a list or an address in brackets ends. -/
def lineDelimiters : Bytes := [13, 10, 44, 62]

/-- Stops that are line delimiters. -/
class Delimits (stop : UInt8 → Bool) : Prop where
  mem : ∀ b, stop b → b ∈ lineDelimiters

/-- A table without line delimiters. -/
def NoDelimiter (predicate : UInt8 → Bool) : Prop := ∀ b ∈ lineDelimiters, predicate b = false

instance (predicate : UInt8 → Bool) : Decidable (NoDelimiter predicate) :=
  inferInstanceAs (Decidable (∀ b ∈ lineDelimiters, predicate b = false))

/-- A table without line ends. -/
def NoNewline (predicate : UInt8 → Bool) : Prop := predicate 13 = false ∧ predicate 10 = false

instance (predicate : UInt8 → Bool) : Decidable (NoNewline predicate) :=
  inferInstanceAs (Decidable (predicate 13 = false ∧ predicate 10 = false))

/-- A table without line ends stops at the end of the line. -/
theorem NoNewline.excludes {predicate : UInt8 → Bool} (h : NoNewline predicate) :
    Excludes isNewline predicate := by
  intro b hb
  rcases isNewline_iff.mp hb with rfl | rfl
  · exact h.1
  · exact h.2

/-- The end of an address in brackets. -/
def isBracketEnd (b : UInt8) : Bool := b == 62

/-- The end of an element of a list, or of a line. -/
def isElementEnd (b : UInt8) : Bool := isNewline b || b == 44

instance : Delimits isNewline where
  mem b hb := by
    rcases isNewline_iff.mp hb with rfl | rfl <;> decide

instance : Delimits isBracketEnd where
  mem b hb := by
    rw [beq_iff_eq.mp hb]
    decide

instance : Delimits isElementEnd where
  mem b hb := by
    rcases Bool.or_eq_true_iff.mp hb with hb | hb
    · exact Delimits.mem b hb
    · rw [beq_iff_eq.mp hb]
      decide

variable {stop : UInt8 → Bool}

/-- A table without line delimiters stops wherever a line, an element or an address ends. -/
theorem NoDelimiter.excludes [Delimits stop] {predicate : UInt8 → Bool}
    (h : NoDelimiter predicate) : Excludes stop predicate :=
  fun b hb => h b (Delimits.mem b hb)

/-- A byte that ends nothing. -/
theorem not_stop [Delimits stop] {b : UInt8} (hb : b ∉ lineDelimiters) : stop b = false := by
  by_contra h
  exact hb (Delimits.mem b (by simpa using h))

/-- The tables of parameters have no line delimiters. -/
theorem ParamTable.noDelimiter {tab : LookupTable} (htab : ParamTable tab) : NoDelimiter tab := by
  intro b hb
  apply htab
  have hsub : ∀ b ∈ lineDelimiters, b ∈ delimiters := by decide
  exact hsub b hb

theorem noDelimiter_isSpace : NoDelimiter isSpace := by decide
theorem noDelimiter_isHost : NoDelimiter isHost := by decide
theorem noDelimiter_isToken : NoDelimiter isToken := by decide
theorem noDelimiter_isAsciiDigit : NoDelimiter isAsciiDigit := by decide

/-- A table whose only line delimiter is the comma. -/
theorem excludes_of_comma [Delimits stop] (hcomma : stop 44 = false) {predicate : UInt8 → Bool}
    (h : ∀ b ∈ lineDelimiters, b = 44 ∨ predicate b = false) : Excludes stop predicate := by
  intro b hb
  refine (h b (Delimits.mem b hb)).resolve_left ?_
  rintro rfl
  rw [hcomma] at hb
  exact Bool.noConfusion hb

/-! ### Errors -/

/-- An error is one at any place, and nothing is read for it. -/
theorem error_run {α : Type} (kind : ParseErrorKind) (c : Scanner) :
    ∃ e, (error kind : Parse α) c = .error e c ∧ e.IsError :=
  ⟨_, rfl, trivial⟩

/-- What fails at once reads nothing. -/
theorem staysIn_error {α : Type} (kind : ParseErrorKind) :
    StaysIn stop (error kind : Parse α) where
  advances h := by injection h
  fails {c e c'} h := by
    obtain ⟨e₁, herror, he₁⟩ := error_run (α := α) kind c
    rw [h] at herror
    injection herror with he hc
    exact ⟨he ▸ he₁, hc ▸ Advances.refl c⟩
  inLine _ _ _ := by
    constructor <;>
    · rintro ⟨c', h, -⟩
      injection h

/-- What fails at once ends. -/
theorem ends_error {α : Type} (kind : ParseErrorKind) : Ends (error kind : Parse α) :=
  ends_of_line (staysIn_error kind)

/-- To change the error of a parser does not change when it succeeds. -/
theorem orError_eq_ok_iff {α : Type} {parse : Parse α} {kind : ParseErrorKind} {c c' : Scanner}
    {a : α} : orError parse kind c = .ok a c' ↔ parse c = .ok a c' :=
  tryCatch_eq_ok_iff fun _ c => error_run kind c

/-- A parser with another error ends as the parser does. -/
theorem ends_orError {α : Type} {parse : Parse α} (h : Ends parse) (kind : ParseErrorKind) :
    Ends (orError parse kind) := h.tryCatch fun _ c => error_run kind c

/-- A parser with another error reads what the parser reads. -/
theorem staysIn_orError {α : Type} {parse : Parse α} (h : StaysIn stop parse)
    (kind : ParseErrorKind) : StaysIn stop (orError parse kind) :=
  h.tryCatch fun _ c => error_run kind c

/-- A value that may be missing is taken or fails, and nothing is read for it. -/
theorem staysIn_ofOption {α : Type} (kind : ParseErrorKind) (o : Option α) :
    StaysIn stop (ofOption kind o) := by
  cases o with
  | none => exact staysIn_error kind
  | some a => exact Confined.pure a

theorem ends_ofOption {α : Type} (kind : ParseErrorKind) (o : Option α) : Ends (ofOption kind o) :=
  ends_of_line (staysIn_ofOption kind o)

/-- To take bytes for a text reads nothing. -/
theorem staysIn_utf8 (bytes : Bytes) : StaysIn stop (utf8 bytes) := by
  unfold utf8
  split
  · exact Confined.pure _
  · exact Confined.throw trivial

/-- A text is taken exactly when its bytes are these. -/
theorem utf8_eq_ok_iff {bytes : Bytes} {c c' : Scanner} {s : String} :
    utf8 bytes c = .ok s c' ↔ asBytes s = bytes ∧ c = c' := by
  rw [← fromUtf8_eq_some_iff, utf8]
  cases fromUtf8 bytes with
  | none =>
    refine iff_of_false (fun h => ?_) (by simp)
    injection h
  | some t =>
    show EStateM.Result.ok t c = .ok s c' ↔ _
    simp

/-! ### Scans that can fail -/

/-- As a parser a scan succeeds exactly when it does as a scan. -/
theorem ofScan_eq_ok_iff {α : Type} {scan : Scan α} {c c' : Scanner} {a : α} :
    ofScan scan c = .ok a c' ↔ scan c = .ok a c' := by
  rw [ofScan]
  cases scan c <;> simp

/-- As a parser a scan ends, with its error as one of the parser. -/
theorem ends_ofScan {α : Type} {scan : Scan α} (h : Bounded (fun _ => True) scan) :
    Ends (ofScan scan) where
  advances hr := h.advances (ofScan_eq_ok_iff.mp hr)
  fails {c e c'} hr := by
    rw [ofScan] at hr
    cases hscan : scan c with
    | ok a c₁ => simp [hscan] at hr
    | error e₁ c₁ =>
      rw [hscan] at hr
      injection hr with he hc
      exact ⟨he ▸ trivial, hc ▸ (h.fails hscan).2⟩

/-- As a parser a scan reads what it does as a scan. -/
theorem staysIn_ofScan {α : Type} {scan : Scan α} (h : ScansIn stop scan) :
    StaysIn stop (ofScan scan) where
  toBounded := ends_ofScan h.toBounded
  inLine hline a left := by
    have hgives : ∀ c left, Gives (ofScan scan) c a left ↔ Gives scan c a left :=
      fun c left => exists_congr fun c' => and_congr_left' ofScan_eq_ok_iff
    rw [hgives, hgives]
    exact h.inLine hline a left

/-- The rest of a line ends in front of the line end. -/
theorem staysInLine_readLine : StaysInLine readLine :=
  staysIn_ofScan (scansIn_scanWhileAsStr (NoNewline.excludes (by decide)))

/-- A number ends in front of any delimiter, which is no digit. -/
theorem scansIn_scanUnsigned [Delimits stop] (bound : Nat) : ScansIn stop (Scan.scanUnsigned bound) :=
  confined_scanUnsigned noDelimiter_isAsciiDigit.excludes bound

theorem staysIn_parseU32 [Delimits stop] : StaysIn stop parseU32 :=
  staysIn_ofScan (scansIn_scanUnsigned _).map

/-- A number with points ends in front of the line end. -/
theorem staysInLine_parseF32 : StaysInLine parseF32 := by
  apply staysIn_ofScan
  apply Confined.bind (confined_scanWhileAsStrUnchecked (NoNewline.excludes (by decide)))
  intro number
  split
  · exact Confined.pure _
  · exact scansIn_scanError _

theorem staysIn_advance : StaysIn stop advance := staysIn_ofScan scansIn_nextByte

theorem ends_advance : Ends advance :=
  ends_of_line staysIn_advance

theorem staysIn_mustRead (b : UInt8) : StaysIn stop (mustRead b) :=
  staysIn_ofScan (scansIn_mustRead b)

theorem ends_mustRead (b : UInt8) : Ends (mustRead b) :=
  ends_of_line (staysIn_mustRead b)

/-! ### The primitives of the parser -/

/-- A scan by a condition that no stop meets ends in front of it. -/
theorem staysIn_consumeWhile {predicate : UInt8 → Bool} (h : Excludes stop predicate) :
    StaysIn stop (consumeWhile predicate) := confined_scanWhile h

theorem ends_consumeWhile (predicate : UInt8 → Bool) : Ends (consumeWhile predicate) :=
  bounded_scanWhile predicate

/-- The same for the text of a scan. -/
theorem staysIn_readWhile {tab : LookupTable} (h : Excludes stop tab) :
    StaysIn stop (readWhileAsStrUnchecked tab) := confined_scanWhileAsStrUnchecked h

/-- Blanks are no delimiters. -/
theorem staysIn_skipWs [Delimits stop] : StaysIn stop skipWs :=
  (staysIn_consumeWhile noDelimiter_isSpace.excludes).bind fun _ => Confined.pure _

theorem ends_skipWs : Ends skipWs :=
  (ends_consumeWhile isSpace).bind fun _ => Bounded.pure _

theorem ends_skipNewline : Ends skipNewline :=
  (ends_consumeWhile isNewline).bind fun _ => Bounded.pure _

theorem staysInLine_takeAlphabetic : StaysInLine takeAlphabetic :=
  staysIn_consumeWhile (NoNewline.excludes (by decide))

/-- To take a byte that is no stop passes no stop. -/
theorem staysIn_takeIfEq {b : UInt8} (hb : stop b = false) :
    StaysIn stop (takeIfEq b) := confined_scanIfEq hb

theorem ends_takeIfEq (b : UInt8) : Ends (takeIfEq b) := bounded_scanIfEq b

theorem ends_peek : Ends peek := Bounded.get_bind fun _ => Bounded.pure _

/-- Looking at the next byte does not tell a stop from the end of the input. -/
theorem staysIn_peek {α : Type} {k : Option UInt8 → Parse α} (hk : ∀ o, StaysIn stop (k o))
    (hstop : ∀ b, stop b → k (some b) = k none) : StaysIn stop (peek >>= k) where
  toBounded := ends_peek.bind fun o => (hk o).toBounded
  inLine {c c₁ rest} hline a left := by
    have hrem : c.remaining = c₁.remaining ++ rest := hline.whole
    have hgives : ∀ (c : Scanner) left,
        Gives (peek >>= k) c a left ↔ Gives (k c.remaining.head?) c a left := by
      intro c left
      rw [← Scanner.peek_eq_head?]
      exact Iff.rfl
    have hnext : k c.remaining.head? = k c₁.remaining.head? := by
      rw [hrem]
      cases c₁.remaining with
      | cons b bs => rfl
      | nil =>
        cases hrest : rest with
        | nil => rfl
        | cons b bs => exact hstop b (hline.rest b (by rw [hrest]; rfl))
    rw [hgives, hgives, hnext]
    exact (hk _).inLine hline a left

/-- Looking at the next byte for one that is no stop. -/
theorem staysIn_peekEq {α : Type} {b : UInt8} {r r' : Parse α} (hb : stop b = false)
    (hr : StaysIn stop r) (hr' : StaysIn stop r') :
    StaysIn stop (do if (← peek) = some b then r else r') := by
  apply staysIn_peek
  · exact fun o => hr.ite hr'
  · intro d hd
    have hne : d ≠ b := by
      rintro rfl
      rw [hb] at hd
      exact absurd hd (by decide)
    rw [if_neg (by simpa using hne), if_neg (by simp)]

/-- The text up to `b`, which has to come. -/
def upTo (b : UInt8) : Parse Bytes := do
  let text ← takeUntil b
  let _ ← advance
  return text

/-- The text up to a byte is what comes in front of the first one, which is read with it. -/
theorem gives_upTo {b : UInt8} {c : Scanner} {text left : Bytes} :
    Gives (upTo b) c text left ↔ b ∉ text ∧ c.remaining = (text ++ [b]) ++ left := by
  constructor
  · rintro ⟨c', h, rfl⟩
    obtain ⟨taken, c₁, hscan, h⟩ := bind_eq_ok_iff.mp h
    obtain ⟨d, c₂, hadvance, h⟩ := bind_eq_ok_iff.mp h
    injection h with htext hc'
    obtain ⟨htaken, hdrop⟩ := gives_scanWhile.mp ⟨c₁, hscan, rfl⟩
    have hnext := gives_nextByte.mp ⟨c₂, ofScan_eq_ok_iff.mp hadvance, rfl⟩
    have hrem : c₁.remaining = c.remaining.dropWhile (· != b) := hdrop
    have hd : d = b := by
      have hstop : Stops (· != b) c₁.remaining := hrem ▸ stops_dropWhile _ _
      rw [hnext] at hstop
      simpa using hstop
    rw [hd, hrem] at hnext
    rw [← htext, ← hc', htaken]
    refine ⟨fun hmem => absurd (of_mem_takeWhile hmem) (by simp), ?_⟩
    rw [List.append_assoc, List.singleton_append, ← hnext, List.takeWhile_append_dropWhile]
  · rintro ⟨hpre, hc⟩
    have hall : ∀ d ∈ text, (d != b) = true := by
      intro d hd
      simpa using ne_of_mem_of_not_mem hd hpre
    have hread : Reads (upTo b) (text ++ [b]) left text := by
      apply Reads.bind (reads_scanWhile hall (by simp))
      apply Reads.bind_nil reads_advance
      exact Reads.pure _ _
    exact ⟨_, hread c hc, remaining_advance (σ := Scanner) hc⟩

/-- A scan for a byte may pass a stop: then its value has the stop in it. -/
theorem staysIn_upTo (b : UInt8) : StaysIn stop (upTo b) := by
  have hends : Ends (upTo b) := (ends_consumeWhile (· != b)).bind fun _ =>
    ends_advance.bind fun _ => Bounded.pure _
  apply Confined.of_text (T := fun pre text => b ∉ pre ∧ text = pre ++ [b]) hends
  intro c text left
  rw [gives_upTo]
  simp only [and_assoc, exists_and_left, exists_eq_left]
  rfl

/-- **A scan up to a delimiter** passes the end of the line when there is none before it. -/
theorem staysIn_takeUntil {α : Type} {b : UInt8} {k : Bytes → Parse α}
    (hk : ∀ text, StaysIn stop (k text)) :
    StaysIn stop (do
      let text ← takeUntil b
      let _ ← advance
      k text) := by
  have h := (staysIn_upTo b).bind hk
  simp only [upTo, bind_assoc, pure_bind] at h
  exact h

/-- A text in quotes is one up to the second quote. -/
theorem staysIn_quoted : StaysIn stop quoted := staysIn_takeUntil staysIn_utf8

/-! ### Loops -/

/-- A byte that is taken makes what remains shorter. -/
theorem takeIfEq_eq_ok {b : UInt8} {c c' : Scanner} {o : Option UInt8}
    (h : takeIfEq b c = .ok o c') (ho : ¬ o.isNone) :
    (Cursor.remaining c').length < (Cursor.remaining c).length := by
  rcases gives_scanIfEq.mp ⟨c', h, rfl⟩ with ⟨-, hrem⟩ | ⟨rfl, -, -⟩
  · rw [show Cursor.remaining c = c.remaining from rfl, hrem, List.length_cons]
    omega
  · exact absurd rfl ho

/-- The body of `foldSep`. -/
def foldSepBody {α : Type} (sep : UInt8) (elem : α → Parse α) (a : α) : Parse (α ⊕ α) := do
  let a ← elem a
  if (← takeIfEq sep).isNone then return .inr a
  return .inl a

/-- The loop over elements, with its body by name. -/
theorem foldSep_eq {α : Type} (sep : UInt8) (elem : α → Parse α) :
    foldSep sep elem = loop .stuck (foldSepBody sep elem) := rfl

/-- **Each iteration but the last consumes a separator**, whatever its element does. -/
theorem consumes_foldSepBody {α : Type} {sep : UInt8} {elem : α → Parse α}
    (h : ∀ a, Ends (elem a)) : Consumes (foldSepBody sep elem) := by
  intro a c a' c' hrun
  obtain ⟨a₁, c₁, helem, hrun⟩ := bind_eq_ok_iff.mp hrun
  obtain ⟨o, c₂, hsep, hrun⟩ := bind_eq_ok_iff.mp hrun
  have hle := (h a).length_le helem
  split at hrun
  · injection hrun with hinr
    exact absurd hinr (by simp)
  · rename_i ho
    injection hrun with _ hc
    have hlt := takeIfEq_eq_ok hsep ho
    rw [← hc]
    omega

/-- A loop over elements passes no stop if its separator is none and its elements pass none. -/
theorem staysIn_foldSep {α : Type} {sep : UInt8} {elem : α → Parse α}
    (hsep : stop sep = false) (h : ∀ a, StaysIn stop (elem a)) (a : α) :
    StaysIn stop (foldSep sep elem a) := by
  rw [foldSep_eq]
  apply Confined.loop _ (consumes_foldSepBody fun a => (h a).toBounded)
  intro a
  apply Confined.bind (h a)
  intro a
  apply Confined.bind (staysIn_takeIfEq hsep)
  intro o
  exact (Confined.pure _).ite (Confined.pure _)

/-- The same for a list of elements. -/
theorem staysIn_collectSep {α : Type} {sep : UInt8} {elem : Parse α}
    (hsep : stop sep = false) (h : StaysIn stop elem) : StaysIn stop (collectSep sep elem) :=
  staysIn_foldSep hsep (fun _ => h.map) []

/-- A list with commas stays in its line if its elements do. -/
theorem staysInLine_collectElems {α : Type} {elem : Parse α} (h : StaysInLine elem) :
    StaysInLine (collectElemsSeparatedByComma elem) :=
  staysIn_collectSep (by decide) (staysIn_skipWs.bind fun _ => h)

/-- The body of `parseParamsWith`. -/
def paramsBody {α : Type} (ref : Parse Param) (store : α → Param → Parse (α × Option Param)) :
    α × List Param → Parse ((α × List Param) ⊕ (α × Params)) := fun (a, params) => do
  if (← takeIfEq 59).isNone then return .inr (a, ⟨params⟩)
  let (a, param) ← store a (← ref)
  skipWs
  return .inl (a, params ++ param.toList)

/-- The loop over parameters, with its body by name. -/
theorem parseParamsWith_eq {α : Type} (ref : Parse Param)
    (store : α → Param → Parse (α × Option Param)) (a : α) :
    parseParamsWith ref store a = (do skipWs; loop .stuck (paramsBody ref store) (a, [])) := rfl

/-- **Each iteration but the last consumes a semicolon**, whatever its parameter is. -/
theorem consumes_paramsBody {α : Type} {ref : Parse Param}
    {store : α → Param → Parse (α × Option Param)} (href : Ends ref)
    (hstore : ∀ a p, Ends (store a p)) : Consumes (paramsBody ref store) := by
  rintro ⟨a, params⟩ c a' c' hrun
  obtain ⟨o, c₁, hsemi, hrun⟩ := bind_eq_ok_iff.mp hrun
  split at hrun
  · injection hrun with hinr
    exact absurd hinr (by simp)
  · rename_i ho
    have hlt := takeIfEq_eq_ok hsemi ho
    obtain ⟨p, c₂, hparam, hrun⟩ := bind_eq_ok_iff.mp hrun
    obtain ⟨q, c₃, hkeep, hrun⟩ := bind_eq_ok_iff.mp hrun
    obtain ⟨u, c₄, hws, hrun⟩ := bind_eq_ok_iff.mp hrun
    injection hrun with _ hc
    have h₂ := href.length_le hparam
    have h₃ := (hstore a p).length_le hkeep
    have h₄ := ends_skipWs.length_le hws
    rw [← hc]
    omega

/-- Parameters pass no stop if one parameter does not, read and stored. -/
theorem staysIn_parseParamsWith [Delimits stop] {α : Type} {ref : Parse Param}
    {store : α → Param → Parse (α × Option Param)} (href : StaysIn stop ref)
    (hstore : ∀ a p, StaysIn stop (store a p)) (a : α) :
    StaysIn stop (parseParamsWith ref store a) := by
  rw [parseParamsWith_eq]
  apply Confined.bind staysIn_skipWs
  intro _
  apply Confined.loop _ (consumes_paramsBody href.toBounded fun a p => (hstore a p).toBounded)
  rintro ⟨a, params⟩
  apply Confined.bind (staysIn_takeIfEq (not_stop (by decide)))
  intro o
  apply Confined.ite (Confined.pure _)
  apply Confined.bind href
  intro p
  apply Confined.bind (hstore a p)
  intro q
  apply Confined.bind staysIn_skipWs
  intro _
  exact Confined.pure _

/-! ### Tokens and parameters -/

theorem staysIn_readToken [Delimits stop] : StaysIn stop readToken :=
  staysIn_readWhile noDelimiter_isToken.excludes

theorem ends_readToken : Ends readToken :=
  ends_of_line staysIn_readToken

/-- A token that must not be empty ends like one that may. -/
theorem staysIn_token [Delimits stop] : StaysIn stop token := by
  apply Confined.bind (staysIn_takeIfEq (not_stop (by decide)))
  intro quote
  exact staysIn_quoted.ite staysIn_readToken

/-- A parameter passes no delimiter: a value in quotes has it in its text. -/
theorem staysIn_paramRefUnchecked [Delimits stop] {tab : LookupTable} (htab : ParamTable tab) :
    StaysIn stop (paramRefUnchecked tab) := by
  apply Confined.bind staysIn_skipWs
  intro _
  apply Confined.bind (staysIn_readWhile htab.noDelimiter.excludes)
  intro name
  apply Confined.bind (staysIn_takeIfEq (not_stop (by decide)))
  intro eq
  apply Confined.ite (Confined.pure _)
  apply Confined.bind (staysIn_takeIfEq (not_stop (by decide)))
  intro quote
  apply Confined.ite
  · exact staysIn_quoted.bind fun _ => Confined.pure _
  · exact (staysIn_readWhile htab.noDelimiter.excludes).bind fun _ => Confined.pure _

theorem staysIn_paramRef [Delimits stop] : StaysIn stop paramRef :=
  staysIn_paramRefUnchecked isToken_table

/-- A parameter ends, whatever comes. -/
theorem ends_paramRefUnchecked {tab : LookupTable} (htab : ParamTable tab) :
    Ends (paramRefUnchecked tab) :=
  ends_of_line (staysIn_paramRefUnchecked htab)

theorem staysIn_parseParams [Delimits stop] : StaysIn stop parseParams :=
  (staysIn_parseParamsWith staysIn_paramRef (fun _ _ => Confined.pure _) ()).map

/-! ### URIs -/

/-- To make a value of a text reads nothing. -/
theorem staysIn_parseValue {α : Type} (kind : ParseErrorKind) (fromStr : String → Option α)
    (v : Option String) : StaysIn stop (parseValue kind fromStr v) := by
  cases v with
  | none => exact Confined.pure _
  | some v => exact (staysIn_ofOption kind _).map

/-- A scheme is one of the two, or there is an error. -/
theorem schemeOf_cases (token : Bytes) :
    (∃ scheme : Scheme, token = asBytes scheme.toText ∧ schemeOf token = pure scheme) ∨
      schemeOf token = error .scheme := by
  unfold schemeOf
  by_cases hsip : token = sip
  · exact Or.inl ⟨.sip, hsip, by rw [if_pos hsip]⟩
  · by_cases hsips : token = sips
    · exact Or.inl ⟨.sips, hsips, by rw [if_neg hsip, if_pos hsips]⟩
    · exact Or.inr (by rw [if_neg hsip, if_neg hsips])

/-- A scheme is read with the colon after it. -/
theorem gives_parseScheme {c : Scanner} {scheme : Scheme} {left : Bytes} :
    Gives parseScheme c scheme left ↔
      c.remaining = (asBytes scheme.toText ++ [58]) ++ left := by
  constructor
  · rintro ⟨c', h, rfl⟩
    have hpeek := Scanner.peekWhile_eq isToken c
    have hsplit : c.remaining = c.peekWhile isToken ++ c.remaining.dropWhile isToken := by
      rw [hpeek, List.takeWhile_append_dropWhile]
    obtain ⟨scheme', c₂, hscheme, h⟩ := bind_eq_ok_iff.mp (get_bind_eq_ok_iff.mp h)
    -- the token in sight is the name of a scheme, or the parser fails
    rcases schemeOf_cases (c.peekWhile isToken) with ⟨scheme₀, htoken, hpure⟩ | hfail
    · rw [hpure] at hscheme
      injection hscheme with hscheme hc₂
      obtain ⟨u, c₃, hmodify, h⟩ := bind_eq_ok_iff.mp h
      obtain ⟨v, c₄, hcolon, h⟩ := bind_eq_ok_iff.mp h
      injection h with hs hc'
      injection hmodify with _ hc₃
      rw [← hc₂, advanceN_eq hsplit] at hc₃
      have hrem : c₃.remaining = c.remaining.dropWhile isToken := by
        rw [← hc₃]
        exact remaining_advance (σ := Scanner) hsplit
      have hcolon' := gives_mustRead.mp ⟨c₄, ofScan_eq_ok_iff.mp hcolon, rfl⟩
      rw [← hs, ← hscheme, ← htoken, ← hc', List.append_assoc]
      rw [hrem] at hcolon'
      rw [← show c.remaining.dropWhile isToken = [58] ++ Cursor.remaining c₄ from hcolon']
      exact hsplit
    · rw [hfail] at hscheme
      injection hscheme
  · intro h
    exact ⟨_, reads_parseScheme scheme c h, remaining_advance (σ := Scanner) h⟩

/-- A scheme ends, though the parser looks ahead for it. -/
theorem ends_parseScheme : Ends parseScheme := by
  apply Bounded.get_bind
  intro c
  apply Bounded.bind
  · unfold schemeOf
    split
    · exact Bounded.pure _
    · split
      · exact Bounded.pure _
      · exact ends_error _
  · intro scheme
    apply Bounded.bind (bounded_advanceN _)
    intro _
    exact (ends_mustRead 58).bind fun _ => Bounded.pure _

/-- The look ahead for a scheme ends in front of the colon, which is no part of a scheme. -/
theorem staysIn_parseScheme : StaysIn stop parseScheme := by
  apply Confined.of_text (T := fun scheme text => text = asBytes scheme.toText ++ [58])
    ends_parseScheme
  intro c scheme left
  rw [gives_parseScheme]
  simp only [exists_eq_left]
  rfl

/-- The look ahead for an `@` ends where the authority does. -/
theorem staysIn_existsUserPartInUri (h : Excludes stop inUri) :
    StaysIn stop existsUserPartInUri := by
  apply Confined.get_bind (f := fun c : Scanner => (c.remaining.takeWhile inUri).any (· == 64))
  · intro c c₁ rest hline
    have hrem : c.remaining = c₁.remaining ++ rest := hline.whole
    rw [hrem, takeWhile_append_of_stops (h.stops hline)]
  · exact fun _ => Confined.pure _

/-- A password ends in front of a delimiter other than the comma, which may stand in it. -/
theorem staysIn_parsePass [Delimits stop] (hcomma : stop 44 = false) :
    StaysIn stop parsePass := by
  apply Confined.bind (staysIn_takeIfEq (not_stop (by decide)))
  intro colon
  apply Confined.ite _ (Confined.pure _)
  exact (staysIn_readWhile (excludes_of_comma hcomma (by decide))).bind fun _ => Confined.pure _

/-- So does the user with the password. -/
theorem staysIn_parseUserInfo [Delimits stop] (hcomma : stop 44 = false) :
    StaysIn stop parseUserInfo := by
  apply Confined.bind (staysIn_existsUserPartInUri (excludes_of_comma hcomma (by decide)))
  intro hasUser
  apply Confined.ite _ (Confined.pure _)
  apply Confined.bind (staysIn_readWhile (excludes_of_comma hcomma (by decide)))
  intro user
  apply Confined.bind (staysIn_parsePass hcomma)
  intro pass
  apply Confined.bind (staysIn_orError (staysIn_mustRead 64) _)
  intro _
  exact Confined.pure _

/-- What ends a line, an element of a list or an address in brackets ends a host. -/
theorem excludes_inAuthority [Delimits stop] : Excludes stop inAuthority :=
  NoDelimiter.excludes (by decide)

section Authority

variable (h : Excludes stop inAuthority)
include h

/-- A condition for bytes of the authority stops where the authority does. -/
theorem excludes_of_inAuthority {predicate : UInt8 → Bool}
    (hsub : ∀ b, predicate b → inAuthority b) : Excludes stop predicate := by
  intro b hb
  by_contra htrue
  rw [Bool.not_eq_false] at htrue
  exact absurd (h b hb) (by simp [hsub b htrue])

/-- No byte of the authority is a stop. -/
theorem not_stop_of_inAuthority {b : UInt8} (hb : inAuthority b) : stop b = false := by
  by_contra hstop
  exact absurd (h b (by simpa using hstop)) (by simp [hb])

/-- A port ends with its digits. -/
theorem staysIn_parsePort_of : StaysIn stop parsePort := by
  apply Confined.bind (staysIn_takeIfEq (not_stop_of_inAuthority h (by decide)))
  intro colon
  apply Confined.ite _ (Confined.pure _)
  have hdigit : Excludes stop isAsciiDigit := excludes_of_inAuthority h fun b hb => by
    simp [inAuthority, inHostPort, isHost_alphanumeric b (mem_alphanumeric (Or.inr hb))]
  have hport : StaysIn stop (ofScan Scan.scanU16) :=
    staysIn_ofScan (confined_scanUnsigned hdigit _).map
  apply Confined.bind (staysIn_orError hport _)
  intro port
  exact (Confined.pure _).ite (staysIn_error _)

end Authority

theorem staysIn_parsePort [Delimits stop] : StaysIn stop parsePort :=
  staysIn_parsePort_of excludes_inAuthority

/-- The text up to a bracket, which has to come. -/
def bracketed : Parse String := do
  let host ← orError (ofScan (Scan.scanWhileAsStr (· != 93))) .host
  let _ ← advance
  return host

/-- A host in brackets is what comes in front of the closing one. -/
theorem gives_bracketed {c : Scanner} {host : String} {left : Bytes} :
    Gives bracketed c host left ↔
      93 ∉ asBytes host ∧ c.remaining = (asBytes host ++ [93]) ++ left := by
  rw [← gives_upTo]
  constructor
  · rintro ⟨c', h, rfl⟩
    obtain ⟨str, c₁, hstr, h⟩ := bind_eq_ok_iff.mp h
    obtain ⟨d, c₂, hadvance, h⟩ := bind_eq_ok_iff.mp h
    injection h with hhost hc'
    obtain ⟨htext, hc₁⟩ :=
      scanWhileAsStr_eq_ok_iff.mp (ofScan_eq_ok_iff.mp (orError_eq_ok_iff.mp hstr))
    have htake : takeUntil 93 c = .ok (asBytes str) c₁ :=
      scanWhile_eq_ok_iff.mpr ⟨htext.symm, htext ▸ hc₁⟩
    rw [← hhost, ← hc']
    exact ⟨c₂, bind_eq_ok_iff.mpr ⟨_, c₁, htake, bind_eq_ok_iff.mpr ⟨d, c₂, hadvance, rfl⟩⟩, rfl⟩
  · rintro ⟨c', h, rfl⟩
    obtain ⟨bytes, c₁, hbytes, h⟩ := bind_eq_ok_iff.mp h
    obtain ⟨d, c₂, hadvance, h⟩ := bind_eq_ok_iff.mp h
    injection h with htext hc'
    obtain ⟨hbytes, hc₁⟩ := scanWhile_eq_ok_iff.mp hbytes
    have hscan : Scan.scanWhileAsStr (· != 93) c = .ok host c₁ :=
      scanWhileAsStr_eq_ok_iff.mpr ⟨(hbytes.trans htext).symm, by rw [← htext, ← hbytes, hc₁]⟩
    rw [← hc']
    exact ⟨c₂, bind_eq_ok_iff.mpr ⟨host, c₁, orError_eq_ok_iff.mpr (ofScan_eq_ok_iff.mpr hscan),
      bind_eq_ok_iff.mpr ⟨d, c₂, hadvance, rfl⟩⟩, rfl⟩

/-- The text of a host in brackets says how far it goes. -/
theorem staysIn_bracketed : StaysIn stop bracketed := by
  have hends : Ends bracketed :=
    (ends_orError (ends_ofScan (bounded_scanWhileAsStr _)) _).bind fun _ =>
      ends_advance.bind fun _ => Bounded.pure _
  apply Confined.of_text (T := fun host text => 93 ∉ asBytes host ∧ text = asBytes host ++ [93])
    hends
  intro c host left
  rw [gives_bracketed]
  simp only [and_assoc, exists_and_left, exists_eq_left]
  rfl

/-- Whether a host is an address is not read from the input. -/
theorem staysIn_ipAddr (host : String) : StaysIn stop (match IpAddr.parse host with
    | some ip => return .ipAddr ip
    | none => error .host : Parse Host) := by
  split
  · exact Confined.pure _
  · exact staysIn_error _

section Authority

variable (h : Excludes stop inAuthority)
include h

/-- A host ends with its bytes, or with its bracket. -/
theorem staysIn_parseHost_of : StaysIn stop parseHost := by
  apply staysIn_peekEq (not_stop_of_inAuthority h (by decide))
  · apply Confined.bind staysIn_advance
    intro _
    have hbracketed := staysIn_bracketed.bind (@staysIn_ipAddr stop)
    simp only [bracketed, bind_assoc, pure_bind] at hbracketed
    exact hbracketed
  · have hhost : Excludes stop isHost :=
      excludes_of_inAuthority h fun b hb => by simp [inAuthority, inHostPort, hb]
    apply Confined.bind (staysIn_readWhile hhost)
    intro host
    exact (staysIn_error _).ite (Confined.pure _)

/-- A host with a port ends where the authority does. -/
theorem staysIn_parseHostPort_of : StaysIn stop parseHostPort := by
  apply Confined.bind (staysIn_parseHost_of h)
  intro host
  exact (staysIn_parsePort_of h).bind fun _ => Confined.pure _

end Authority

theorem staysIn_parseHostPort [Delimits stop] : StaysIn stop parseHostPort :=
  staysIn_parseHostPort_of excludes_inAuthority

/-- To store a parameter reads nothing. -/
theorem staysIn_storeUriParam (uri : Uri) (p : Param) : StaysIn stop (storeUriParam uri p) := by
  unfold storeUriParam
  apply Confined.ite (Confined.pure _)
  apply Confined.ite (Confined.pure _)
  apply Confined.ite ((staysIn_parseValue _ _ _).bind fun _ => Confined.pure _)
  apply Confined.ite ((staysIn_parseValue _ _ _).bind fun _ => Confined.pure _)
  apply Confined.ite (Confined.pure _)
  exact (Confined.pure _).ite (Confined.pure _)

theorem staysIn_parseUriHeader [Delimits stop] : StaysIn stop parseUriHeader :=
  staysIn_paramRefUnchecked isHdrUri_table

/-- The headers of a URI end in front of a delimiter. -/
theorem staysIn_parseUriHeaderPart [Delimits stop] : StaysIn stop parseUriHeaderPart := by
  apply Confined.bind (staysIn_takeIfEq (not_stop (by decide)))
  intro question
  apply Confined.ite _ (Confined.pure _)
  have hheaders : StaysIn stop parseUriHeaders :=
    (staysIn_collectSep (not_stop (by decide)) staysIn_parseUriHeader).bind fun _ => Confined.pure _
  exact hheaders.bind fun _ => Confined.pure _

/-- A URI passes no delimiter other than the comma. -/
theorem staysIn_parseUri [Delimits stop] (hcomma : stop 44 = false) (parseParams : Bool) :
    StaysIn stop (parseUri parseParams) := by
  apply Confined.bind staysIn_parseScheme
  intro scheme
  apply Confined.bind (staysIn_parseUserInfo hcomma)
  intro user
  apply Confined.bind staysIn_parseHostPort
  intro hostPort
  apply Confined.ite (Confined.pure _)
  apply Confined.bind
  · exact staysIn_parseParamsWith (staysIn_paramRefUnchecked isParam_table)
      staysIn_storeUriParam _
  · rintro ⟨uri, params⟩
    exact staysIn_parseUriHeaderPart.bind fun _ => Confined.pure _

/-- A URI ends, with or without its parameters. -/
theorem ends_parseUri (parseParams : Bool) : Ends (parseUri parseParams) :=
  ends_of_line (staysIn_parseUri rfl parseParams)

/-! ### Addresses -/

/-- A display name passes a delimiter only between quotes. -/
theorem staysIn_parseDisplayName [Delimits stop] : StaysIn stop parseDisplayName := by
  apply staysIn_peekEq (not_stop (by decide))
  · apply Confined.bind staysIn_advance
    intro _
    exact staysIn_quoted.bind fun _ => Confined.pure _
  · apply staysIn_peekEq (not_stop (by decide)) (Confined.pure _)
    apply Confined.bind staysIn_readToken
    intro name
    exact staysIn_skipWs.bind fun _ => Confined.pure _

/-- An address up to the bracket behind it. -/
def uriInBrackets : Parse Uri := do
  let uri ← parseUri true
  mustRead 62
  return uri

/-- **A delimiter that a reader does not pass** ends all that it reads. -/
theorem staysIn_delimited {α : Type} {b : UInt8} {r : Parse α} {close : Parse Unit}
    (h : StaysIn (· == b) r) (hends : Ends close)
    (hclose : ∀ {c left}, Gives close c () left ↔ c.remaining = b :: left) :
    StaysIn stop (do
      let a ← r
      close
      return a) := by
  have hinLine : ∀ {c : Scanner} {text left : Bytes}, c.remaining = (text ++ [b]) ++ left →
      InLine (· == b) c (Scanner.new text) (b :: left) := by
    intro c text left htext
    refine ⟨htext.trans (List.append_assoc _ _ _), ?_⟩
    rintro d ⟨⟩
    exact beq_self_eq_true b
  apply Confined.of_text (T := fun a text => ∃ inner,
    Gives r (Scanner.new inner) a [] ∧ text = inner ++ [b])
  · exact h.toBounded.bind fun _ => hends.bind fun _ => Bounded.pure _
  · -- what is read is some inner text and the byte that ends it
    intro c a left
    constructor
    · rintro ⟨c', hrun, rfl⟩
      obtain ⟨a', c₁, hr, hrun⟩ := bind_eq_ok_iff.mp hrun
      obtain ⟨_, c₂, hend, hrun⟩ := bind_eq_ok_iff.mp hrun
      injection hrun with ha hc'
      have hnext : c₁.remaining = b :: Cursor.remaining c' := hc' ▸ hclose.mp ⟨c₂, hend, rfl⟩
      obtain ⟨inner, hinner⟩ := h.suffix hr
      have hwhole : c.remaining = (inner ++ [b]) ++ Cursor.remaining c' := by
        rw [List.append_assoc, List.singleton_append, ← hnext]
        exact hinner.symm
      refine ⟨inner ++ [b], ⟨inner, ?_, rfl⟩, hwhole⟩
      exact (h.inLine (hinLine hwhole) a []).mpr ⟨c₁, ha ▸ hr, hnext⟩
    · rintro ⟨_, ⟨inner, hgives, rfl⟩, hrem⟩
      obtain ⟨c₁, hr, hrem₁⟩ := (h.inLine (hinLine hrem) a []).mp hgives
      obtain ⟨c₂, hend, hrem₂⟩ := hclose.mpr hrem₁
      exact ⟨c₂, bind_eq_ok_iff.mpr ⟨a, c₁, hr, bind_eq_ok_iff.mpr ⟨(), c₂, hend, rfl⟩⟩, hrem₂⟩

/-- A URI in brackets ends with the closing one, so that it may pass a comma. -/
theorem staysIn_uriInBrackets : StaysIn stop uriInBrackets := by
  have huri : StaysIn isBracketEnd (parseUri true) := staysIn_parseUri rfl true
  refine staysIn_delimited huri (ends_mustRead 62) fun {c left} => ?_
  rw [← gives_mustRead]
  exact exists_congr fun c' => and_congr_left' ofScan_eq_ok_iff

/-- An address in brackets passes a delimiter only between quotes or brackets. -/
theorem staysIn_parseNameAddr [Delimits stop] : StaysIn stop parseNameAddr := by
  apply Confined.bind staysIn_skipWs
  intro _
  apply Confined.bind staysIn_parseDisplayName
  intro display
  apply Confined.bind staysIn_skipWs
  intro _
  apply Confined.bind (staysIn_mustRead 60)
  intro _
  have h : StaysIn stop (do return NameAddr.mk display (← uriInBrackets)) :=
    staysIn_uriInBrackets.bind fun _ => Confined.pure _
  simp only [uriInBrackets, bind_assoc, pure_bind] at h
  exact h

/-- An address behind blanks. -/
def addressBehindBlanks (params : Bool) : Parse SipUri := do
  let next ← peek
  if next = some 34 ∨ next = some 60 then return .nameAddr (← parseNameAddr)
  let schemeOrDisplay := (← get).peekWhile inSchemeOrDisplay
  if schemeOrDisplay = sip ∨ schemeOrDisplay = sips then return .uri (← parseUri params)
  else return .nameAddr (← parseNameAddr)

/-- An address, with what comes behind the blanks by name. -/
theorem parseSipUri_eq (params : Bool) :
    parseSipUri params = (skipWs >>= fun _ => addressBehindBlanks params) := rfl

/-- The look ahead that tells a URI from a display name does not go past the line. -/
theorem staysInLine_addressBehindBlanks (params : Bool) :
    StaysInLine (addressBehindBlanks params) := by
  have hnameAddr : StaysInLine (do return SipUri.nameAddr (← parseNameAddr)) :=
    staysIn_parseNameAddr.bind fun _ => Confined.pure _
  apply staysIn_peek
  · intro next
    apply Confined.ite hnameAddr
    refine Confined.get_bind (f := fun c : Scanner => c.peekWhile inSchemeOrDisplay)
      (k := fun schemeOrDisplay => if schemeOrDisplay = sip ∨ schemeOrDisplay = sips then
        (do return SipUri.uri (← parseUri params))
        else (do return SipUri.nameAddr (← parseNameAddr))) ?_ ?_
    · intro c c₁ rest hline
      have hstop : NoNewline inSchemeOrDisplay := by decide
      have hrem : c.remaining = c₁.remaining ++ rest := hline.whole
      rw [Scanner.peekWhile_eq, Scanner.peekWhile_eq, hrem,
        takeWhile_append_of_stops (hstop.excludes.stops hline)]
    · intro schemeOrDisplay
      exact Confined.ite ((staysIn_parseUri rfl params).bind fun _ => Confined.pure _) hnameAddr
  · intro b hb
    rcases isNewline_iff.mp hb with rfl | rfl <;> rfl

/-- An address ends in front of the line end, with or without brackets. -/
theorem staysInLine_parseSipUri (params : Bool) : StaysInLine (parseSipUri params) := by
  rw [parseSipUri_eq]
  exact staysIn_skipWs.bind fun _ => staysInLine_addressBehindBlanks params

/-! ### Versions -/

/-- The version is read as far as the input goes: a buffer that ends in it is taken. -/
theorem parseSipVersion_eq_ok_iff {c c' : Scanner} :
    parseSipVersion c = .ok () c' ↔
      (asBytes sipV2 <+: c.remaining ∧ c' = Lib.advance c (asBytes sipV2)) ∨
        (c.remaining <+: asBytes sipV2 ∧ c' = Lib.advance c c.remaining) :=
  (orError_eq_ok_iff.trans ofScan_eq_ok_iff).trans mustScanSlice_eq_ok_iff

/-- A version that is scanned is there, or the input ends in it. -/
theorem remaining_parseSipVersion {c c' : Scanner} (h : parseSipVersion c = .ok () c') :
    c.remaining = asBytes sipV2 ++ c'.remaining ∨ c'.remaining = [] := by
  rcases parseSipVersion_eq_ok_iff.mp h with ⟨⟨rest, hrest⟩, rfl⟩ | ⟨-, rfl⟩
  · left
    rw [← hrest, show Scanner.remaining _ = rest from remaining_advance (σ := Scanner) hrest.symm]
  · exact .inr (remaining_advance (σ := Scanner) (List.append_nil _).symm)

/-- The version ends, whether it is there or not. -/
theorem ends_parseSipVersion : Ends parseSipVersion :=
  ends_orError (ends_ofScan (bounded_mustScanSlice _)) _

/-- The version and the byte after it. -/
theorem gives_version {c : Scanner} {b : UInt8} {left : Bytes} :
    Gives (parseSipVersion >>= fun _ => advance) c b left ↔
      c.remaining = (asBytes sipV2 ++ [b]) ++ left := by
  constructor
  · rintro ⟨c', h, rfl⟩
    obtain ⟨u, c₁, hversion, h⟩ := bind_eq_ok_iff.mp h
    have hnext := gives_nextByte.mp ⟨c', ofScan_eq_ok_iff.mp h, rfl⟩
    rcases remaining_parseSipVersion hversion with hrem | hnil
    · rw [hrem, hnext]
      simp
    · exact absurd (hnext.symm.trans hnil) (by simp)
  · intro hc
    have hread : Reads (parseSipVersion >>= fun _ => advance) (asBytes sipV2 ++ [b]) left b :=
      Reads.bind reads_parseSipVersion reads_advance
    exact ⟨_, hread c hc, remaining_advance (σ := Scanner) hc⟩

/-- With the byte behind it the version has to be whole. -/
theorem staysIn_version : StaysIn stop (parseSipVersion >>= fun _ => advance) := by
  have hends : Ends (parseSipVersion >>= fun _ => advance) :=
    ends_parseSipVersion.bind fun _ => ends_advance
  apply Confined.of_text (T := fun b text => text = asBytes sipV2 ++ [b]) hends
  intro c b left
  rw [gives_version]
  simp only [exists_eq_left]
  rfl

/-! ### Parameters of headers -/

/-- A comment says how far it goes. -/
theorem staysIn_parseComment [Delimits stop] : StaysIn stop parseComment := by
  apply Confined.bind (staysIn_takeIfEq (not_stop (by decide)))
  intro paren
  apply Confined.ite _ (Confined.pure _)
  apply staysIn_takeUntil
  intro comment
  exact (staysIn_utf8 _).bind fun _ => Confined.pure _

/-- To read the value of `rport` reads no input. -/
theorem staysIn_parseRport (value : Option String) : StaysIn stop (parseRport value) := by
  apply Confined.bind (staysIn_parseValue _ _ _)
  intro port
  cases port with
  | none => exact Confined.pure _
  | some port => exact (Confined.pure _).ite (staysIn_error _)

/-- To store a parameter of `Via` reads no input. -/
theorem staysIn_storeViaParam (via : Via) (p : Param) : StaysIn stop (storeViaParam via p) := by
  unfold storeViaParam
  apply Confined.ite (Confined.pure _)
  apply Confined.ite ((staysIn_parseValue _ _ _).bind fun _ => Confined.pure _)
  apply Confined.ite (Confined.pure _)
  apply Confined.ite ((staysIn_parseValue _ _ _).bind fun _ => Confined.pure _)
  apply Confined.ite ((staysIn_parseRport _).bind fun _ => Confined.pure _)
  exact Confined.pure _

theorem staysIn_storeTag (tag : Option String) (p : Param) : StaysIn stop (storeTag tag p) :=
  (Confined.pure _).ite (Confined.pure _)

theorem staysIn_parseQ (v : Option String) : StaysIn stop (parseQ v) := by
  unfold parseQ
  split
  · exact Confined.pure _
  · split
    · exact Confined.pure _
    · exact Confined.throw trivial

theorem staysIn_storeQ (q : Option Q) (p : Param) : StaysIn stop (storeQ q p) :=
  ((staysIn_parseQ _).bind fun _ => Confined.pure _).ite (Confined.pure _)

theorem staysIn_storeContactParam (h : Contact) (p : Param) :
    StaysIn stop (storeContactParam h p) := by
  unfold storeContactParam
  apply Confined.ite ((staysIn_parseQ _).bind fun _ => Confined.pure _)
  apply Confined.ite ((staysIn_parseValue _ _ _).bind fun _ => Confined.pure _)
  exact Confined.pure _

theorem staysInLine_storePurpose (value : Option String) (p : Param) :
    StaysInLine (storePurpose value p) :=
  (Confined.pure _).ite (Confined.pure _)

/-- Parameters with `paramRef`. -/
theorem staysIn_params [Delimits stop] {α : Type} {store : α → Param → Parse (α × Option Param)}
    (h : ∀ a p, StaysIn stop (store a p)) (a : α) : StaysIn stop (parseParamsWith paramRef store a) :=
  staysIn_parseParamsWith staysIn_paramRef h a

/-! ### Header values -/

/-- An address with a tag ends in front of the line end. -/
theorem staysInLine_parseTagged : StaysInLine parseTagged := by
  apply Confined.bind (staysInLine_parseSipUri false)
  intro uri
  exact (staysIn_params staysIn_storeTag none).bind fun _ => Confined.pure _

/-- A hop of a route passes a delimiter only between quotes or brackets. -/
theorem staysIn_parseRouteParam [Delimits stop] : StaysIn stop parseRouteParam := by
  apply Confined.bind staysIn_parseNameAddr
  intro addr
  exact staysIn_parseParams.bind fun _ => Confined.pure _

/-- A `Via` ends in front of the comma or the line end behind it. -/
theorem staysIn_via [Delimits stop] : StaysIn stop Via.parse := by
  apply Confined.bind_assoc staysIn_version
  intro _
  apply Confined.bind staysIn_readToken
  intro token
  apply Confined.bind (staysIn_ofOption _ _)
  intro transport
  apply Confined.bind staysIn_skipWs
  intro _
  apply Confined.bind staysIn_parseHostPort
  intro sentBy
  apply Confined.bind
  · exact staysIn_parseParamsWith (staysIn_paramRefUnchecked isViaParam_table)
      staysIn_storeViaParam _
  · rintro ⟨via, params⟩
    exact staysIn_parseComment.bind fun _ => Confined.pure _

theorem staysInLine_from : StaysInLine From.parse :=
  staysInLine_parseTagged.bind fun _ => Confined.pure _

theorem staysInLine_to : StaysInLine To.parse :=
  staysInLine_parseTagged.bind fun _ => Confined.pure _

/-- A contact ends in front of the line end; a bare URI may pass a comma. -/
theorem staysInLine_contact : StaysInLine Contact.parse := by
  apply Confined.bind (staysInLine_parseSipUri false)
  intro uri
  exact (staysIn_params staysIn_storeContactParam _).bind fun _ => Confined.pure _

theorem staysInLine_replyTo : StaysInLine ReplyTo.parse := by
  apply Confined.bind (staysInLine_parseSipUri false)
  intro uri
  exact staysIn_parseParams.bind fun _ => Confined.pure _

/-- A `Route` ends in front of the comma or the line end behind it. -/
theorem staysIn_route [Delimits stop] : StaysIn stop Route.parse :=
  staysIn_parseRouteParam.bind fun _ => Confined.pure _

/-- A `Record-Route` ends in front of the comma or the line end behind it. -/
theorem staysIn_recordRoute [Delimits stop] : StaysIn stop RecordRoute.parse :=
  staysIn_parseRouteParam.bind fun _ => Confined.pure _

/-- A number and a method end in front of the line end. -/
theorem staysInLine_cSeq : StaysInLine CSeq.parse := by
  apply Confined.bind staysIn_parseU32
  intro cseq
  apply Confined.bind staysIn_skipWs
  intro _
  exact staysInLine_takeAlphabetic.bind fun _ => Confined.pure _

theorem staysInLine_inReplyTo : StaysInLine InReplyTo.parse := by
  apply Confined.bind
  · apply staysInLine_collectElems
    apply Confined.bind (staysIn_consumeWhile (NoNewline.excludes (by decide)))
    intro id
    exact (staysIn_utf8 _).bind fun _ => Confined.pure _
  · exact fun _ => Confined.pure _

/-- A header that is made of one value. -/
theorem staysInLine_field {α β : Type} {r : Parse α} (h : StaysInLine r) (f : α → β) :
    StaysInLine (do return f (← r)) := h.bind fun _ => Confined.pure _

theorem staysInLine_parseTokens : StaysInLine parseTokens :=
  staysInLine_collectElems staysIn_token

theorem staysInLine_allow : StaysInLine Allow.parse :=
  staysInLine_field (staysInLine_collectElems (staysInLine_field staysInLine_takeAlphabetic _)) _

theorem staysInLine_languageTag : StaysInLine LanguageTag.parse :=
  staysInLine_field (staysIn_readWhile (NoNewline.excludes (by decide))) _

/-- A type of content: the byte between its halves is not looked at, but it is read. -/
theorem staysInLine_mediaType : StaysInLine MediaType.parse := by
  apply Confined.bind staysIn_token
  intro mtype
  apply Confined.bind staysIn_advance
  intro _
  apply Confined.bind staysIn_token
  intro subtype
  exact staysIn_parseParams.bind fun _ => Confined.pure _

theorem staysInLine_coding : StaysInLine Coding.parse := by
  apply Confined.bind staysIn_token
  intro coding
  exact (staysIn_params staysIn_storeQ none).bind fun _ => Confined.pure _

theorem staysInLine_language : StaysInLine Language.parse := by
  apply Confined.bind staysInLine_languageTag
  intro language
  exact (staysIn_params staysIn_storeQ none).bind fun _ => Confined.pure _

theorem staysInLine_contentDisposition : StaysInLine ContentDisposition.parse := by
  apply Confined.bind staysIn_token
  intro type
  exact staysIn_parseParams.bind fun _ => Confined.pure _

/-- The only parser with a subtraction. -/
theorem confined_mimeVersion : Confined isNewline (Failure.IsErrorOr True) MimeVersion.parse := by
  have hadvance : Confined isNewline (Failure.IsErrorOr True) advance :=
    staysIn_advance.mono (Failure.IsErrorOr.mono False.elim)
  have hminus : ∀ b, Confined isNewline (Failure.IsErrorOr True) (minusZero b) := by
    intro b
    unfold minusZero
    split
    · exact Confined.throw trivial
    · exact Confined.pure _
  apply Confined.bind hadvance
  intro b
  apply Confined.bind (hminus b)
  intro major
  apply Confined.bind ((staysIn_mustRead 46).mono (Failure.IsErrorOr.mono False.elim))
  intro _
  apply Confined.bind hadvance
  intro d
  exact (hminus d).bind fun _ => Confined.pure _

/-- A URL in brackets says how far it goes. -/
theorem staysInLine_parseUrl : StaysInLine parseUrl := by
  apply Confined.bind (staysIn_mustRead 60)
  intro _
  exact staysIn_takeUntil staysIn_utf8

theorem staysInLine_alertInfo : StaysInLine AlertInfo.parse := by
  apply Confined.bind staysIn_skipWs
  intro _
  apply Confined.bind staysInLine_parseUrl
  intro url
  exact staysIn_parseParams.bind fun _ => Confined.pure _

theorem staysInLine_errorInfoUri : StaysInLine ErrorInfoUri.parse := by
  apply Confined.bind staysInLine_parseUrl
  intro url
  exact staysIn_parseParams.bind fun _ => Confined.pure _

theorem staysInLine_retryAfter : StaysInLine RetryAfter.parse := by
  apply Confined.bind staysIn_parseU32
  intro seconds
  apply Confined.bind staysIn_skipWs
  intro _
  apply Confined.bind staysIn_parseComment
  intro comment
  exact staysIn_parseParams.bind fun _ => Confined.pure _

theorem staysInLine_timestamp : StaysInLine Timestamp.parse := by
  apply Confined.bind staysInLine_parseF32
  intro time
  apply Confined.bind staysIn_skipWs
  intro _
  apply staysIn_peek
  · intro next
    exact (staysInLine_field staysInLine_parseF32 _).ite (Confined.pure _)
  · intro b hb
    rcases isNewline_iff.mp hb with rfl | rfl <;> rfl

/-- The text of a warning says how far it goes. -/
theorem staysInLine_warning : StaysInLine Warning.parse := by
  apply Confined.bind staysIn_parseU32
  intro code
  apply Confined.bind staysIn_skipWs
  intro _
  apply Confined.bind (staysIn_readWhile noDelimiter_isHost.excludes)
  intro host
  apply Confined.bind staysIn_skipWs
  intro _
  apply Confined.bind (staysIn_mustRead 34)
  intro _
  apply staysIn_takeUntil
  intro text
  exact (staysIn_utf8 _).bind fun _ => Confined.pure _

/-- The parameters of an authentication header end in front of the line end. -/
theorem staysInLine_parseAuthParams {α : Type} (store : α → Param → α) (a : α) :
    StaysInLine (parseAuthParams store a) := by
  apply staysIn_foldSep (by decide)
  intro a
  apply Confined.bind staysIn_skipWs
  intro _
  exact staysInLine_field staysIn_paramRef _

theorem staysInLine_parseAuthChallenge : StaysInLine parseAuthChallenge := by
  apply Confined.bind staysIn_token
  intro scheme
  apply Confined.ite
  · exact staysInLine_field (staysInLine_parseAuthParams _ _) _
  · exact staysInLine_field staysIn_parseParams _

theorem staysInLine_parseAuthCredential : StaysInLine parseAuthCredential := by
  apply Confined.bind staysIn_token
  intro scheme
  apply Confined.ite
  · exact staysInLine_field (staysInLine_parseAuthParams _ _) _
  · exact staysInLine_field staysIn_parseParams _

/-! ### Header lines -/

/-- A parser of a header value: it stays in its line, panics only where it may, and takes one byte
    of separators for each header but the first. -/
structure ValueParser (mayPanic : Prop) (r : Parse Headers) : Prop where
  inLine : Confined isNewline (Failure.IsErrorOr mayPanic) r
  length_le : ∀ {c hs c'}, r c = .ok hs c' →
    hs.length + (Cursor.remaining c').length ≤ (Cursor.remaining c).length + 1

/-- What may panic under a condition may panic under a weaker one. -/
theorem ValueParser.mono {P Q : Prop} (hPQ : P → Q) {r : Parse Headers} (h : ValueParser P r) :
    ValueParser Q r where
  inLine := h.inLine.mono (Failure.IsErrorOr.mono hPQ)
  length_le := h.length_le

/-- A header with one value reads what its value does, also if that may panic. -/
theorem valueParser_one_of {P : Prop} {α : Type} {toHeader : α → Header} {parse : Parse α}
    (h : Confined isNewline (Failure.IsErrorOr P) parse) : ValueParser P (one toHeader parse) where
  inLine := h.bind fun _ => Confined.pure _
  length_le {c hs c'} hr := by
    obtain ⟨a, c₁, hparse, hr⟩ := bind_eq_ok_iff.mp hr
    injection hr with hhs hc'
    have hle := h.length_le hparse
    rw [← hhs, ← hc', List.length_singleton]
    omega

/-- A header with one value reads what its value does. -/
theorem valueParser_one {P : Prop} {α : Type} {toHeader : α → Header} {parse : Parse α}
    (h : StaysInLine parse) : ValueParser P (one toHeader parse) :=
  (valueParser_one_of h).mono False.elim

/-- A list has at most one element more than separators. -/
theorem length_collectSep {α : Type} {sep : UInt8} {elem : Parse α} (h : Ends elem)
    {c c' : Scanner} {elems : List α} (hr : collectSep sep elem c = .ok elems c') :
    elems.length + (Cursor.remaining c').length ≤ (Cursor.remaining c).length + 1 := by
  -- every element but the last is paid for by the separator behind it
  have hstep : ∀ {elems : List α} {c next c'},
      foldSepBody sep (fun elems => (elems ++ [·]) <$> elem) elems c = .ok next c' →
      match next with
      | .inl elems' => elems'.length + (Cursor.remaining c').length ≤
          elems.length + (Cursor.remaining c).length
      | .inr elems' => elems'.length + (Cursor.remaining c').length ≤
          elems.length + (Cursor.remaining c).length + 1 := by
    intro elems c next c' hr
    obtain ⟨elems', c₁, helem, hr⟩ := bind_eq_ok_iff.mp hr
    obtain ⟨o, c₂, hsep, hr⟩ := bind_eq_ok_iff.mp hr
    dsimp only at helem
    rw [map_eq_pure_bind] at helem
    obtain ⟨a, c₃, helem, hpure⟩ := bind_eq_ok_iff.mp helem
    injection hpure with helems' hc₁
    have hle := h.length_le helem
    have hsep_le := (ends_takeIfEq sep).length_le hsep
    rw [← helems'] at hr
    rw [← hc₁] at hsep hsep_le
    split at hr
    · injection hr with hnext hc'
      rw [← hnext, ← hc']
      dsimp only
      rw [List.length_append, List.length_singleton]
      omega
    · rename_i ho
      have hlt := takeIfEq_eq_ok hsep ho
      injection hr with hnext hc'
      rw [← hnext, ← hc']
      dsimp only
      rw [List.length_append, List.length_singleton]
      omega
  have hsize := size_loop List.length List.length 1 (fun hinl => hstep hinl)
    (fun hinr => hstep hinr) hr
  simpa using hsize

/-- A header with a list reads what its elements do. -/
theorem valueParser_many {P : Prop} {α : Type} {toHeader : α → Header} {parse : Parse α}
    (h : StaysInLine parse) : ValueParser P (many toHeader parse) where
  inLine := by
    have hmany : StaysInLine (many toHeader parse) :=
      (staysIn_collectSep (by decide) h).bind fun _ => Confined.pure _
    exact hmany.mono (Failure.IsErrorOr.mono False.elim)
  length_le {c hs c'} hr := by
    obtain ⟨elems, c₁, hcollect, hr⟩ := bind_eq_ok_iff.mp hr
    injection hr with hhs hc'
    have hle := length_collectSep h.toBounded hcollect
    rw [← hhs, ← hc', List.length_map]
    exact hle

/-- **Every header parser stays in its line**, and only that of `MIME-Version` may panic. -/
theorem valueParser_headerParsers :
    ∀ entry ∈ headerParsers, ValueParser (MimeVersion.name ∈ entry.1) entry.2 := by
  simp only [headerParsers, List.forall_mem_cons, List.not_mem_nil, false_implies, implies_true,
    and_true]
  -- in the order of the table
  exact ⟨valueParser_one (staysInLine_field (staysInLine_collectElems staysInLine_errorInfoUri) _),
    valueParser_many staysIn_route,
    valueParser_many staysIn_via,
    valueParser_one (staysInLine_field staysIn_parseU32 _),
    valueParser_one staysInLine_from,
    valueParser_one staysInLine_to,
    valueParser_one (staysInLine_field staysInLine_readLine _),
    valueParser_one staysInLine_cSeq,
    valueParser_one (staysInLine_field staysInLine_parseAuthCredential _),
    valueParser_many staysInLine_contact,
    valueParser_one (staysInLine_field staysIn_parseU32 _),
    valueParser_one staysInLine_inReplyTo,
    (valueParser_one_of confined_mimeVersion).mono fun _ => List.mem_cons_self,
    valueParser_one (staysInLine_field staysIn_parseU32 _),
    valueParser_one (staysInLine_field staysInLine_readLine _),
    valueParser_one (staysInLine_field staysInLine_readLine _),
    valueParser_one (staysInLine_field staysInLine_readLine _),
    valueParser_one (staysInLine_field staysInLine_readLine _),
    valueParser_one (staysInLine_field staysIn_token _),
    valueParser_one (staysInLine_field staysInLine_parseAuthChallenge _),
    valueParser_one (staysInLine_field staysInLine_parseAuthCredential _),
    valueParser_one (staysInLine_field staysInLine_parseTokens _),
    valueParser_one staysInLine_replyTo,
    valueParser_one (staysInLine_field staysIn_parseU32 _),
    valueParser_one (staysInLine_field staysInLine_parseTokens _),
    valueParser_one (staysInLine_field staysInLine_mediaType _),
    valueParser_one staysInLine_contentDisposition,
    valueParser_many staysIn_recordRoute,
    valueParser_one (staysInLine_field staysInLine_parseTokens _),
    valueParser_one staysInLine_retryAfter,
    valueParser_one (staysInLine_field staysInLine_readLine _),
    valueParser_one (staysInLine_field (staysInLine_collectElems staysInLine_coding) _),
    valueParser_one (staysInLine_field (staysInLine_collectElems staysInLine_mediaType) _),
    valueParser_one (staysInLine_field (staysInLine_collectElems staysInLine_language) _),
    valueParser_one staysInLine_alertInfo,
    valueParser_one staysInLine_allow,
    valueParser_one (staysInLine_parseAuthParams _ _),
    valueParser_one (staysInLine_field staysInLine_parseTokens _),
    valueParser_one staysInLine_timestamp,
    valueParser_one (staysInLine_field staysInLine_parseTokens _),
    valueParser_one (staysInLine_field staysInLine_parseAuthChallenge _),
    valueParser_one staysInLine_warning⟩

/-- The headers of a line are made by the constructor of their type. -/
theorem forall_mem_one {α : Type} {P : Header → Prop} {toHeader : α → Header} {parse : Parse α}
    (hP : ∀ a, P (toHeader a)) {c c' : Scanner} {headers : Headers}
    (h : one toHeader parse c = .ok headers c') : ∀ h ∈ headers, P h := by
  obtain ⟨a, c₁, -, h⟩ := bind_eq_ok_iff.mp h
  injection h with hheaders
  rw [← hheaders]
  exact List.forall_mem_singleton.mpr (hP a)

/-- What holds of each header that the elements make holds of all that were read. -/
theorem forall_mem_many {α : Type} {P : Header → Prop} {toHeader : α → Header} {parse : Parse α}
    (hP : ∀ a, P (toHeader a)) {c c' : Scanner} {headers : Headers}
    (h : many toHeader parse c = .ok headers c') : ∀ h ∈ headers, P h := by
  obtain ⟨elems, c₁, -, h⟩ := bind_eq_ok_iff.mp h
  injection h with hheaders
  rw [← hheaders]
  exact List.forall_mem_map.mpr fun a _ => hP a

/-- **How a value is read**: by the parser its name is listed with, or as a line of text where it is
    listed with none. -/
theorem parseHeaderValue_cases (name : String) :
    (∃ entry ∈ headerParsers, name ∈ entry.1 ∧ parseHeaderValue name = entry.2) ∨
      (∀ entry ∈ headerParsers, name ∉ entry.1) ∧
        parseHeaderValue name = one (fun data => .rawHeader ⟨name, data⟩) readLine := by
  unfold parseHeaderValue
  cases hfind : headerParsers.find? fun entry => entry.1.contains name with
  | some entry =>
    have hname := List.find?_some hfind
    exact Or.inl ⟨entry, List.mem_of_find?_eq_some hfind, List.contains_iff_mem.mp hname, rfl⟩
  | none =>
    refine Or.inr ⟨fun entry hentry hname => ?_, rfl⟩
    exact List.find?_eq_none.mp hfind entry hentry (List.contains_iff_mem.mpr hname)

/-- **The value of a header is parsed from its own line**, or from more than that. -/
theorem valueParser_parseHeaderValue (name : String) :
    ValueParser (name = MimeVersion.name) (parseHeaderValue name) := by
  rcases parseHeaderValue_cases name with ⟨entry, hentry, hname, heq⟩ | ⟨-, heq⟩
  · rw [heq]
    apply (valueParser_headerParsers entry hentry).mono
    -- no other name is listed with that of the version
    have hlisted : ∀ entry ∈ headerParsers, MimeVersion.name ∈ entry.1 →
        entry.1 = [MimeVersion.name] := by decide +kernel
    intro hmime
    rw [hlisted entry hentry hmime] at hname
    exact List.mem_singleton.mp hname
  · rw [heq]
    exact valueParser_one staysInLine_readLine

end SipParser

end Rssip
