import Rssip.Lib.Confined
import Rssip.Utils.Scanner

namespace Rssip

open Lib

/-!
# Scans and the lines they read

What each scan of the scanner takes and leaves, and which of them stay in their line.

* `gives_scanWhile`, `gives_nextByte`, … — one scan, by what remains;
* `ScansIn` — the judgment that a scan does not look behind a byte of `stop`.
-/

/-- A line ends with a carriage return or with a line feed. -/
theorem isNewline_iff {b : UInt8} : isNewline b ↔ b = 13 ∨ b = 10 := by simp [isNewline]

/-- The same for a scan, which has no loop that could get stuck. -/
abbrev ScansIn {α : Type} (stop : UInt8 → Bool) (scan : Scan α) : Prop :=
  Confined stop (fun _ => True) scan

/-- The scan does not go past the end of the line. -/
abbrev ScansInLine {α : Type} (scan : Scan α) : Prop := ScansIn isNewline scan

variable {stop : UInt8 → Bool}

/-! ### Scans that never fail -/

section Scan

variable {ε : Type} {E : ε → Prop} {predicate : UInt8 → Bool} {b : UInt8}

/-- A scan gives the longest stretch that meets the condition, goes over it, and never fails. -/
theorem scanWhile_run (predicate : UInt8 → Bool) (c : Scanner) :
    (modifyGet (Scanner.scanWhile predicate) : EStateM ε Scanner Bytes) c =
      .ok (c.remaining.takeWhile predicate) (Lib.advance c (c.remaining.takeWhile predicate)) := by
  have hscan := Scanner.scanWhile_eq predicate c
  show EStateM.Result.ok (c.scanWhile predicate).1 (c.scanWhile predicate).2 = _
  rw [hscan]

/-- The same, for what a scan has given and where it has gone. -/
theorem scanWhile_eq_ok_iff {c c' : Scanner} {text : Bytes} :
    (modifyGet (Scanner.scanWhile predicate) : EStateM ε Scanner Bytes) c = .ok text c' ↔
      c.remaining.takeWhile predicate = text ∧
        Lib.advance c (c.remaining.takeWhile predicate) = c' := by
  rw [scanWhile_run, EStateM.Result.ok.injEq]

/-- Behind a scan remains what comes after its stretch. -/
theorem remaining_scanWhile (predicate : UInt8 → Bool) (c : Scanner) :
    Cursor.remaining (Lib.advance c (c.remaining.takeWhile predicate)) =
      c.remaining.dropWhile predicate :=
  remaining_advance (σ := Scanner) List.takeWhile_append_dropWhile.symm

/-- A scan only goes forward, and has no failure. -/
theorem bounded_scanWhile (predicate : UInt8 → Bool) :
    Bounded E (modifyGet (Scanner.scanWhile predicate) : EStateM ε Scanner Bytes) where
  advances {c text c'} h := by
    rw [scanWhile_run] at h
    injection h with _ hc
    rw [← hc]
    exact Advances.of_remaining (σ := Scanner) List.takeWhile_append_dropWhile.symm
  fails h := by
    rw [scanWhile_run] at h
    injection h

/-- What a scan gives and leaves, from what remains. -/
theorem gives_scanWhile {c : Scanner} {text left : Bytes} :
    Gives (modifyGet (Scanner.scanWhile predicate) : EStateM ε Scanner Bytes) c text left ↔
      text = c.remaining.takeWhile predicate ∧ left = c.remaining.dropWhile predicate := by
  rw [Gives, scanWhile_run, ← remaining_scanWhile]
  constructor
  · rintro ⟨c', h, rfl⟩
    injection h with htext hc
    exact ⟨htext.symm, by rw [hc]⟩
  · rintro ⟨rfl, rfl⟩
    exact ⟨_, rfl, rfl⟩

/-- A greedy scan stops at the end of the line. -/
theorem confined_scanWhile (h : Excludes stop predicate) :
    Confined stop E (modifyGet (Scanner.scanWhile predicate) : EStateM ε Scanner Bytes) where
  toBounded := bounded_scanWhile predicate
  inLine {c c₁ rest} hline text left := by
    have hrem : c.remaining = c₁.remaining ++ rest := hline.whole
    rw [gives_scanWhile, gives_scanWhile, hrem, takeWhile_append_of_stops (h.stops hline),
      dropWhile_append_of_stops (h.stops hline), List.append_cancel_right_eq]

/-- A scan that takes line ends passes the end of its line. -/
theorem passing_scanWhile (h : ∀ b, stop b → predicate b) :
    Passing stop E (modifyGet (Scanner.scanWhile predicate) : EStateM ε Scanner Bytes) where
  toBounded := bounded_scanWhile predicate
  inLine {c c₁ rest} hline text left := by
    have hrem : c.remaining = c₁.remaining ++ rest := hline.whole
    rw [gives_scanWhile, gives_scanWhile, hrem]
    by_cases hall : ∀ b ∈ c₁.remaining, predicate b
    · -- the whole line is taken, and its end if there is one
      rw [List.takeWhile_append_of_pos hall, List.dropWhile_append_of_pos hall,
        List.takeWhile_eq_self_iff.mpr hall, List.dropWhile_eq_nil_iff.mpr hall]
      cases rest with
      | nil => simp
      | cons b bs =>
        have hb : predicate b := h b (hline.rest b rfl)
        constructor
        · rintro ⟨-, hleft⟩
          have hlength := (List.dropWhile_suffix predicate (l := bs)).length_le
          rw [List.dropWhile_cons_of_pos hb] at hleft
          have heq := congrArg List.length hleft
          rw [List.length_append, List.length_cons] at heq
          omega
        · rintro ⟨⟨-, rfl⟩, hnil⟩
          exact absurd (hnil rfl) (List.cons_ne_nil b bs)
    · -- the scan ends before the line does
      have hstops : Stops predicate (c₁.remaining.dropWhile predicate) := stops_dropWhile _ _
      obtain ⟨b, bs, hdrop⟩ : ∃ b bs, c₁.remaining.dropWhile predicate = b :: bs := by
        apply List.exists_cons_of_ne_nil
        rw [ne_eq, List.dropWhile_eq_nil_iff]
        exact hall
      have hsplit : c₁.remaining ++ rest =
          c₁.remaining.takeWhile predicate ++ (c₁.remaining.dropWhile predicate ++ rest) := by
        rw [← List.append_assoc, List.takeWhile_append_dropWhile]
      have hstops' : Stops predicate (c₁.remaining.dropWhile predicate ++ rest) := by
        rw [hdrop] at hstops ⊢
        exact hstops
      rw [hsplit, takeWhile_append_stops (fun _ => of_mem_takeWhile) hstops',
        List.dropWhile_append_of_pos (fun _ => of_mem_takeWhile), hstops'.dropWhile_eq,
        List.append_cancel_right_eq, hdrop]
      constructor
      · rintro ⟨htext, rfl⟩
        exact ⟨⟨htext, rfl⟩, nofun⟩
      · exact And.left

/-- The unchecked text of a scan is decoded from its bytes. -/
theorem scanWhileAsStrUnchecked_eq (predicate : UInt8 → Bool) :
    (modifyGet (Scanner.scanWhileAsStrUnchecked predicate) : EStateM ε Scanner String) =
      fromUtf8Unchecked <$> (modifyGet (Scanner.scanWhile predicate) : EStateM ε Scanner Bytes) :=
  rfl

/-- A scan that admits no end of line gives the same text on the line alone. -/
theorem confined_scanWhileAsStrUnchecked (h : Excludes stop predicate) :
    Confined stop E
      (modifyGet (Scanner.scanWhileAsStrUnchecked predicate) : EStateM ε Scanner String) := by
  rw [scanWhileAsStrUnchecked_eq]
  exact (confined_scanWhile h).map

/-- A scan of one byte takes it if it meets the condition, and gives nothing at the end. -/
theorem scanIf_run (predicate : UInt8 → Bool) (c : Scanner) :
    (modifyGet (Scanner.scanIf predicate) : EStateM ε Scanner (Option UInt8)) c =
      match c.remaining with
      | [] => .ok none c
      | b :: _ => if predicate b then .ok (some b) (c.bump b) else .ok none c := by
  show EStateM.Result.ok (c.scanIf predicate).1 (c.scanIf predicate).2 = _
  rw [Scanner.scanIf, Scanner.peek_eq_head?]
  cases c.remaining with
  | nil => rfl
  | cons b bs =>
    rw [List.head?_cons]
    dsimp only
    split <;> rfl

/-- A byte of the table is read. -/
theorem gives_scanIf {c : Scanner} {o : Option UInt8} {left : Bytes} :
    Gives (modifyGet (Scanner.scanIf predicate) : EStateM ε Scanner (Option UInt8)) c o left ↔
      (∃ b, o = some b ∧ predicate b ∧ c.remaining = b :: left) ∨
        (o = none ∧ Stops predicate c.remaining ∧ left = c.remaining) := by
  rw [Gives, scanIf_run]
  cases hrem : c.remaining with
  | nil =>
    constructor
    · rintro ⟨c', h, rfl⟩
      injection h with ho hc
      exact .inr ⟨ho.symm, stops_nil _, hc ▸ hrem⟩
    · rintro (⟨b, -, -, h⟩ | ⟨rfl, -, rfl⟩)
      · cases h
      · exact ⟨c, rfl, hrem⟩
  | cons b bs =>
    have hbump : Cursor.remaining (c.bump b) = bs := Scanner.remaining_bump hrem
    by_cases hb : predicate b
    · simp only [if_pos hb]
      constructor
      · rintro ⟨c', h, rfl⟩
        injection h with ho hc
        exact .inl ⟨b, ho.symm, hb, by rw [← hc, hbump]⟩
      · rintro (⟨d, rfl, -, h⟩ | ⟨-, hstops, -⟩)
        · obtain ⟨rfl, rfl⟩ := List.cons.inj h
          exact ⟨_, rfl, hbump⟩
        · rw [stops_cons.mp hstops] at hb
          cases hb
    · simp only [if_neg hb]
      constructor
      · rintro ⟨c', h, rfl⟩
        injection h with ho hc
        exact .inr ⟨ho.symm, stops_cons.mpr (by simpa using hb), hc ▸ hrem⟩
      · rintro (⟨d, -, hd, h⟩ | ⟨rfl, -, rfl⟩)
        · rw [(List.cons.inj h).1] at hb
          exact absurd hd hb
        · exact ⟨c, rfl, hrem⟩

/-- A scan of one byte goes over it at most. -/
theorem bounded_scanIf (predicate : UInt8 → Bool) :
    Bounded E (modifyGet (Scanner.scanIf predicate) : EStateM ε Scanner (Option UInt8)) where
  advances {c o c'} hr := by
    rw [scanIf_run] at hr
    split at hr
    · injection hr with _ hc
      exact hc ▸ Advances.refl c
    · rename_i b bs hrem
      split at hr
      · injection hr with _ hc
        exact hc ▸ Advances.bump (σ := Scanner) hrem
      · injection hr with _ hc
        exact hc ▸ Advances.refl c
  fails {c e c'} hr := by
    rw [scanIf_run] at hr
    split at hr
    · cases hr
    · split at hr <;> cases hr

/-- A scan of one byte that admits no end of line does the same on the line alone. -/
theorem confined_scanIf (h : Excludes stop predicate) :
    Confined stop E (modifyGet (Scanner.scanIf predicate) : EStateM ε Scanner (Option UInt8)) where
  toBounded := bounded_scanIf predicate
  inLine {c c₁ rest} hline o left := by
    have hrem : c.remaining = c₁.remaining ++ rest := hline.whole
    rw [gives_scanIf, gives_scanIf, hrem]
    cases hline₁ : c₁.remaining with
    | nil =>
      -- the end of the line is not read
      have hstops : Stops predicate rest := h.stops hline
      constructor
      · rintro (⟨b, -, -, hb⟩ | ⟨ho, -, rfl⟩)
        · cases hb
        · exact .inr ⟨ho, hstops, rfl⟩
      · rintro (⟨b, -, hb, hcons⟩ | ⟨ho, -, hleft⟩)
        · rw [show rest = b :: (left ++ rest) from hcons, stops_cons, hb] at hstops
          cases hstops
        · exact .inr ⟨ho, stops_nil _, by simpa using hleft⟩
    | cons d bs =>
      simp only [List.cons_append, stops_cons, List.cons.injEq, List.append_cancel_right_eq]
      rw [← List.cons_append, List.append_cancel_right_eq]

/-- A byte is read if it is the expected one. -/
theorem scanIfEq_run (b : UInt8) (c : Scanner) :
    (modifyGet (Scanner.scanIfEq b) : EStateM ε Scanner (Option UInt8)) c =
      if c.remaining.head? = some b then .ok (some b) (c.bump b) else .ok none c := by
  show EStateM.Result.ok (c.scanIfEq b).1 (c.scanIfEq b).2 = _
  have hscan : c.scanIfEq b = if c.remaining.head? = some b then (some b, c.bump b)
      else (none, c) := by
    rw [Scanner.scanIfEq, Scanner.scanIf, Scanner.peek_eq_head?]
    cases c.remaining.head? with
    | none => rfl
    | some d => by_cases hd : d = b <;> simp [hd]
  rw [hscan]
  split <;> rfl

/-- A byte that may come is taken if it comes, and leaves everything otherwise. -/
theorem gives_scanIfEq {c : Scanner} {o : Option UInt8} {left : Bytes} :
    Gives (modifyGet (Scanner.scanIfEq b) : EStateM ε Scanner (Option UInt8)) c o left ↔
      (o = some b ∧ c.remaining = b :: left) ∨
      (o = none ∧ c.remaining.head? ≠ some b ∧ left = c.remaining) := by
  rw [Gives, scanIfEq_run]
  -- the byte under the cursor is taken if it is the one asked for
  by_cases hb : c.remaining.head? = some b
  · obtain ⟨bs, hbs⟩ : ∃ bs, c.remaining = b :: bs := by
      cases hrem : c.remaining with
      | nil => simp [hrem] at hb
      | cons d bs => exact ⟨bs, by rw [hrem] at hb; rw [Option.some.inj hb]⟩
    have hbump : Cursor.remaining (c.bump b) = bs := Scanner.remaining_bump hbs
    rw [if_pos hb]
    constructor
    · rintro ⟨c', h, rfl⟩
      injection h with ho hc
      exact Or.inl ⟨ho.symm, by rw [← hc, hbump, hbs]⟩
    · rintro (⟨rfl, hleft⟩ | ⟨-, hne, -⟩)
      · rw [hbs] at hleft
        exact ⟨_, rfl, by rw [hbump]; exact (List.cons.inj hleft).2⟩
      · exact absurd hb hne
  · rw [if_neg hb]
    constructor
    · rintro ⟨c', h, rfl⟩
      injection h with ho hc
      exact Or.inr ⟨ho.symm, hb, by rw [← hc]; rfl⟩
    · rintro (⟨-, hrem⟩ | ⟨rfl, -, rfl⟩)
      · exact absurd (by rw [hrem]; rfl) hb
      · exact ⟨c, rfl, rfl⟩

/-- The scan for one byte goes over it at most. -/
theorem bounded_scanIfEq (b : UInt8) :
    Bounded E (modifyGet (Scanner.scanIfEq b) : EStateM ε Scanner (Option UInt8)) :=
  bounded_scanIf (· == b)

/-- The scan for a byte that ends no line does the same on the line alone. -/
theorem confined_scanIfEq (hb : stop b = false) :
    Confined stop E (modifyGet (Scanner.scanIfEq b) : EStateM ε Scanner (Option UInt8)) where
  toBounded := bounded_scanIfEq b
  inLine {c c₁ rest} hline o left := by
    have hrem : c.remaining = c₁.remaining ++ rest := hline.whole
    have hrest : rest.head? ≠ some b := by
      intro hhead
      have hend := hline.rest b hhead
      rw [hb] at hend
      exact absurd hend (by decide)
    rw [gives_scanIfEq, gives_scanIfEq, hrem]
    cases hline₁ : c₁.remaining with
    | nil =>
      simp only [List.nil_append, List.head?_nil]
      constructor
      · rintro (⟨-, h⟩ | ⟨ho, -, rfl⟩)
        · exact absurd h (by simp)
        · exact Or.inr ⟨ho, hrest, rfl⟩
      · rintro (⟨-, h⟩ | ⟨ho, -, h⟩)
        · exact absurd (by rw [h]; rfl) hrest
        · exact Or.inr ⟨ho, by simp, by simpa using h⟩
    | cons d bs =>
      simp only [List.cons_append, List.head?_cons, List.cons.injEq,
        List.append_cancel_right_eq]
      rw [← List.cons_append, List.append_cancel_right_eq]

/-- To go over some bytes goes over a text, a shorter one at the end. -/
theorem advances_advanceN (n : Nat) (c : Scanner) : Advances c (Scanner.advanceN n c) := by
  induction n generalizing c with
  | zero => exact Advances.refl c
  | succ n ih =>
    rw [Scanner.advanceN, Scanner.scan, Scanner.peek_eq_head?]
    cases hrem : c.remaining with
    | nil => exact Advances.refl c
    | cons b bs => exact (Advances.bump (σ := Scanner) hrem).trans (ih (c.bump b))

/-- To go over some bytes only goes forward. -/
theorem bounded_advanceN (n : Nat) :
    Bounded E (modify (Scanner.advanceN n) : EStateM ε Scanner Unit) where
  advances {c _ c'} h := by
    injection h with _ hc
    exact hc ▸ advances_advanceN n c
  fails h := by injection h

end Scan

/-! ### Scans that can fail -/

/-- A scan that fails stays in its line. -/
theorem scansIn_scanError {α : Type} (kind : ScannerErrorKind) :
    ScansIn stop (Scan.scanError kind : Scan α) where
  advances h := by injection h
  fails h := by
    injection h with _ hc
    exact ⟨trivial, hc ▸ Advances.refl _⟩
  inLine _ _ _ := by
    constructor <;>
    · rintro ⟨c', h, -⟩
      injection h

/-- A scan that fails goes nowhere. -/
theorem bounded_scanError {α : Type} (kind : ScannerErrorKind) :
    Bounded (fun _ => True) (Scan.scanError kind : Scan α) :=
  have h : ScansInLine (Scan.scanError kind : Scan α) := scansIn_scanError kind
  h.toBounded

/-- The checked text of a scan goes over its bytes, or fails where it was. -/
theorem bounded_scanWhileAsStr (predicate : UInt8 → Bool) :
    Bounded (fun _ => True) (Scan.scanWhileAsStr predicate) := by
  apply Bounded.bind (bounded_scanWhile predicate)
  intro bytes
  split
  · exact Bounded.pure _
  · exact bounded_scanError _

/-- The checked text of a scan that admits no end of line stays in the line. -/
theorem scansIn_scanWhileAsStr {predicate : UInt8 → Bool} (h : Excludes stop predicate) :
    ScansIn stop (Scan.scanWhileAsStr predicate) := by
  apply Confined.bind (confined_scanWhile h)
  intro bytes
  split
  · exact Confined.pure _
  · exact scansIn_scanError _

/-- A greedy scan for a text, which has to be UTF-8. -/
theorem scanWhileAsStr_eq_ok_iff {predicate : UInt8 → Bool} {c c' : Scanner} {s : String} :
    Scan.scanWhileAsStr predicate c = .ok s c' ↔
      asBytes s = c.remaining.takeWhile predicate ∧ Lib.advance c (asBytes s) = c' := by
  rw [← fromUtf8_eq_some_iff, Scan.scanWhileAsStr, bind_eq_ok_iff]
  simp only [scanWhile_eq_ok_iff]
  constructor
  · rintro ⟨bytes, c₁, ⟨rfl, rfl⟩, h⟩
    cases hutf8 : fromUtf8 (c.remaining.takeWhile predicate) with
    | none =>
      rw [hutf8] at h
      injection h
    | some t =>
      rw [hutf8] at h
      injection h with ht hc
      rw [← ht, fromUtf8_eq_some_iff.mp hutf8]
      exact ⟨rfl, hc⟩
  · rintro ⟨hutf8, rfl⟩
    refine ⟨_, _, ⟨rfl, rfl⟩, ?_⟩
    rw [hutf8, fromUtf8_eq_some_iff.mp hutf8]
    rfl

/-- A scan for a text gives what the scan for its bytes does. -/
theorem gives_scanWhileAsStr {predicate : UInt8 → Bool} {c : Scanner} {s : String} {left : Bytes} :
    Gives (Scan.scanWhileAsStr predicate) c s left ↔
      Gives (modifyGet (Scanner.scanWhile predicate) : Scan Bytes) c (asBytes s) left := by
  rw [gives_scanWhile, ← remaining_scanWhile, Gives]
  simp only [scanWhileAsStr_eq_ok_iff]
  constructor
  · rintro ⟨c', ⟨htake, rfl⟩, rfl⟩
    exact ⟨htake, by rw [htake]⟩
  · rintro ⟨htake, rfl⟩
    exact ⟨_, ⟨htake, rfl⟩, by rw [htake]⟩

/-- A scan that admits every end of line may go on behind it. -/
theorem passing_scanWhileAsStr {predicate : UInt8 → Bool} (h : ∀ b, stop b → predicate b) :
    Passing stop (fun _ => True) (Scan.scanWhileAsStr predicate) where
  toBounded := bounded_scanWhileAsStr predicate
  inLine hline s left := by
    rw [gives_scanWhileAsStr, gives_scanWhileAsStr]
    exact (passing_scanWhile (E := fun _ => True) h).inLine hline (asBytes s) left

/-- A number ends with its digits. -/
theorem confined_scanUnsigned (h : Excludes stop isAsciiDigit) (bound : Nat) :
    ScansIn stop (Scan.scanUnsigned bound) := by
  apply Confined.bind (confined_scanWhileAsStrUnchecked fun b hb => by simp [h b hb])
  intro digits
  split
  · exact Confined.pure _
  · exact scansIn_scanError _

/-- A number is all the digits there are. -/
theorem gives_scanUnsigned {bound n : Nat} {c : Scanner} {left : Bytes} :
    Gives (Scan.scanUnsigned bound) c n left ↔
      parseUnsigned bound (c.remaining.takeWhile isAsciiDigit) = some n ∧
        left = c.remaining.dropWhile isAsciiDigit := by
  have hdigits : ∀ b ∈ c.remaining.takeWhile isAsciiDigit, b < 0x80 := by
    intro b hb
    have hdigit := of_mem_takeWhile hb
    rw [isAsciiDigit, Bool.and_eq_true, decide_eq_true_eq, decide_eq_true_eq] at hdigit
    exact UInt8.lt_of_le_of_lt hdigit.2 (by decide)
  obtain ⟨s, hs⟩ := exists_asBytes_of_ascii hdigits
  have hscan : (modifyGet (Scanner.scanNumberStr false) : Scan String) c =
      .ok s (Lib.advance c (asBytes s)) := by
    have hpredicate : (fun b => isAsciiDigit b || (false && b == 46)) = isAsciiDigit := by
      funext b
      simp
    show EStateM.Result.ok (c.scanNumberStr false).1 (c.scanNumberStr false).2 = _
    rw [Scanner.scanNumberStr, hpredicate, Scanner.scanWhileAsStrUnchecked, Scanner.scanWhile_eq]
    dsimp only
    rw [← hs, fromUtf8Unchecked_asBytes]
  have hrem : Cursor.remaining (Lib.advance c (asBytes s)) = c.remaining.dropWhile isAsciiDigit := by
    rw [hs]
    exact remaining_scanWhile isAsciiDigit c
  rw [Scan.scanUnsigned, gives_bind, ← hs]
  constructor
  · rintro ⟨digits, c', hrun, h⟩
    rw [hscan] at hrun
    injection hrun with hdigits hc'
    subst hdigits hc'
    cases hparse : parseUnsigned bound (asBytes s) with
    | none =>
      rw [hparse] at h
      obtain ⟨c'', h, -⟩ := h
      cases h
    | some m =>
      rw [hparse] at h
      obtain ⟨rfl, rfl⟩ := gives_pure.mp h
      exact ⟨rfl, hrem⟩
  · rintro ⟨hparse, rfl⟩
    refine ⟨s, _, hscan, ?_⟩
    rw [hparse]
    exact gives_pure.mpr ⟨rfl, hrem.symm⟩

/-- The next byte is taken, and there has to be one. -/
theorem nextByte_run (c : Scanner) :
    Scan.nextByte c = match c.remaining with
      | b :: _ => .ok b (c.bump b)
      | [] => .error ⟨.eof, c.position⟩ c := by
  have hrun : (modifyGet Scanner.scan : Scan (Option UInt8)) c = .ok c.scan.1 c.scan.2 := rfl
  cases hrem : c.remaining with
  | nil =>
    have hscan : c.scan = (none, c) := by
      rw [Scanner.scan, Scanner.peek_eq_head?, hrem]
      rfl
    rw [hscan] at hrun
    simp only [Scan.nextByte, bind, EStateM.bind, hrun]
    rfl
  | cons b bs =>
    have hscan : c.scan = (some b, c.bump b) := by rw [Scanner.scan, Scanner.peek_eq hrem]
    rw [hscan] at hrun
    simp only [Scan.nextByte, bind, EStateM.bind, hrun]
    rfl

/-- The next byte is the first of what remains, and leaves the rest. -/
theorem gives_nextByte {c : Scanner} {b : UInt8} {left : Bytes} :
    Gives Scan.nextByte c b left ↔ c.remaining = b :: left := by
  rw [Gives, nextByte_run]
  cases hrem : c.remaining with
  | nil => simp
  | cons d bs =>
    have hbump : Cursor.remaining (c.bump d) = bs := Scanner.remaining_bump hrem
    constructor
    · rintro ⟨c', h, rfl⟩
      injection h with hb hc
      rw [← hb, ← hc, hbump]
    · intro h
      obtain ⟨rfl, rfl⟩ := List.cons.inj h
      exact ⟨_, rfl, hbump⟩

/-- To take the next byte goes over it. -/
theorem bounded_nextByte : Bounded (fun _ => True) Scan.nextByte where
  advances {c b c'} h := by
    rw [nextByte_run] at h
    split at h
    · rename_i d bs hrem
      injection h with _ hc
      exact hc ▸ Advances.bump (σ := Scanner) hrem
    · cases h
  fails {c e c'} h := by
    rw [nextByte_run] at h
    split at h
    · cases h
    · injection h with _ hc
      exact ⟨trivial, hc ▸ Advances.refl c⟩

/-- To take the next byte in a line does the same on the line alone. -/
theorem scansIn_nextByte : ScansIn stop Scan.nextByte := by
  apply Confined.of_text (T := fun b text => text = [b]) bounded_nextByte
  intro c b left
  rw [gives_nextByte]
  simp only [exists_eq_left]
  rfl

/-- A byte that has to come is taken where it comes; another byte, or the end, is a failure. -/
theorem mustRead_run (b : UInt8) (c : Scanner) :
    Scan.mustRead b c = match c.remaining with
      | d :: _ =>
        if b = d then .ok () (c.bump d) else .error ⟨.unexpectedByte b d, c.position⟩ c
      | [] => .error ⟨.eof, c.position⟩ c := by
  have hget : (get : Scan Scanner) c = .ok c c := rfl
  -- by the byte under the cursor
  cases hrem : c.remaining with
  | nil =>
    have hpeek : c.peek = none := by rw [Scanner.peek_eq_head?, hrem]; rfl
    simp only [Scan.mustRead, bind, EStateM.bind, hget, hpeek]
    rfl
  | cons d bs =>
    have hpeek : c.peek = some d := Scanner.peek_eq hrem
    simp only [Scan.mustRead, bind, EStateM.bind, hget, hpeek]
    split <;> rfl

/-- A byte that has to come is gone over, or nothing is. -/
theorem bounded_mustRead (b : UInt8) : Bounded (fun _ => True) (Scan.mustRead b) where
  advances {c _ c'} h := by
    rw [mustRead_run] at h
    split at h
    · rename_i d bs hrem
      split at h
      · injection h with _ hc
        exact hc ▸ Advances.bump (σ := Scanner) hrem
      · cases h
    · cases h
  fails {c e c'} h := by
    rw [mustRead_run] at h
    split at h
    · split at h
      · cases h
      · injection h with _ hc
        exact ⟨trivial, hc ▸ Advances.refl c⟩
    · injection h with _ hc
      exact ⟨trivial, hc ▸ Advances.refl c⟩

/-- A byte that has to come is the first of what remains. -/
theorem gives_mustRead {b : UInt8} {c : Scanner} {left : Bytes} :
    Gives (Scan.mustRead b) c () left ↔ c.remaining = b :: left := by
  rw [Gives, mustRead_run]
  cases hrem : c.remaining with
  | nil => simp
  | cons d bs =>
    have hbump : Cursor.remaining (c.bump d) = bs := Scanner.remaining_bump hrem
    by_cases hb : b = d
    · simp [hb, hbump]
    · simp [hb, Ne.symm hb]

/-- A byte that has to come in a line does the same on the line alone. -/
theorem scansIn_mustRead (b : UInt8) : ScansIn stop (Scan.mustRead b) := by
  apply Confined.of_text (T := fun _ text => text = [b]) (bounded_mustRead b)
  intro c _ left
  rw [gives_mustRead]
  simp only [exists_eq_left]
  rfl

/-- A text that has to come is gone over as far as it comes. The induction is on that text. -/
theorem bounded_mustScanSlice (expected : Bytes) :
    Bounded (fun _ => True) (Scan.mustScanSlice expected) := by
  have hpairs : ∀ c, Advances c (match Scan.mustScanPairs (c.remaining.zip expected) c with
      | .ok _ c' | .error _ c' => c') := by
    induction expected with
    | nil =>
      intro c
      rw [List.zip_nil_right]
      exact Advances.refl c
    | cons b expected ih =>
      intro c
      cases hrem : c.remaining with
      | nil => exact Advances.refl c
      | cons d bs =>
        have hbump : (c.bump d).remaining = bs := Scanner.remaining_bump hrem
        rw [List.zip_cons_cons, Scan.mustScanPairs]
        by_cases hd : d = b
        · -- the byte is read, and then the rest of the word
          rw [if_neg (not_not_intro hd), ← hbump]
          exact (Advances.bump (σ := Scanner) hrem).trans (ih (c.bump d))
        · rw [if_pos hd]
          exact Advances.refl c
  constructor
  · intro c u c' h
    have hstep := hpairs c
    rw [show Scan.mustScanPairs (c.remaining.zip expected) c = .ok u c' from h] at hstep
    exact hstep
  · intro c e c' h
    have hstep := hpairs c
    rw [show Scan.mustScanPairs (c.remaining.zip expected) c = .error e c' from h] at hstep
    exact ⟨trivial, hstep⟩

/-- The loop over pairs ends with the shorter of the two texts. -/
theorem mustScanPairs_eq_ok_iff {expected : Bytes} {c c' : Scanner} :
    Scan.mustScanPairs (c.remaining.zip expected) c = .ok () c' ↔
      (expected <+: c.remaining ∧ c' = Lib.advance c expected) ∨
        (c.remaining <+: expected ∧ c' = Lib.advance c c.remaining) := by
  induction expected generalizing c with
  | nil =>
    rw [List.zip_nil_right]
    constructor
    · intro h
      injection h with _ hc
      exact .inl ⟨List.nil_prefix, hc.symm⟩
    · rintro (⟨-, rfl⟩ | ⟨hnil, rfl⟩)
      · rfl
      · rw [List.prefix_nil.mp hnil]
        rfl
  | cons b expected ih =>
    cases hrem : c.remaining with
    | nil =>
      -- the input is over, and nothing more is compared
      constructor
      · intro h
        injection h with _ hc
        exact .inr ⟨List.nil_prefix, hc.symm⟩
      · rintro (⟨hpre, -⟩ | ⟨-, rfl⟩)
        · exact absurd (List.prefix_nil.mp hpre) (List.cons_ne_nil _ _)
        · rfl
    | cons d bs =>
      have hbump : (c.bump d).remaining = bs := Scanner.remaining_bump hrem
      rw [List.zip_cons_cons, Scan.mustScanPairs]
      by_cases hd : d = b
      · have hnext := ih (c := c.bump d)
        rw [hbump] at hnext
        subst hd
        rw [if_neg (not_not_intro rfl), List.prefix_cons_inj, List.prefix_cons_inj]
        exact hnext
      · rw [if_pos hd]
        constructor
        · intro h
          injection h
        · rintro (⟨hpre, -⟩ | ⟨hpre, -⟩)
          · exact absurd (List.cons_prefix_cons.mp hpre).1.symm hd
          · exact absurd (List.cons_prefix_cons.mp hpre).1 hd

/-- **A slice is matched as far as the input goes.** -/
theorem mustScanSlice_eq_ok_iff {expected : Bytes} {c c' : Scanner} :
    Scan.mustScanSlice expected c = .ok () c' ↔
      (expected <+: c.remaining ∧ c' = Lib.advance c expected) ∨
        (c.remaining <+: expected ∧ c' = Lib.advance c c.remaining) :=
  get_bind_eq_ok_iff.trans mustScanPairs_eq_ok_iff

end Rssip
