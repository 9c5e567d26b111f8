import Rssip.Lib.Position
import Rssip.Utils.Consumption

namespace Rssip

open Lib

/-!
# Lines and columns

The scanner keeps its position by line and column, and the errors of its operations carry it.  A new
scanner is at column 0, but the column behind a line feed is 1.

* `position_advance` — the position behind a text, from the bytes of the text;
* `run_behind_iff` — the lines and columns are numbered from one, as documented, exactly where a
  line feed has been consumed;
* `error_behind_iff` — the same for the errors, which `reports_reader` says are made at the place
  that an operation has reached.
-/

/-- `p` is the place behind `text`: its column is given by the bytes since the last line feed. -/
structure Position.Behind (column : Nat → Nat) (text : Bytes) (p : Position) : Prop where
  line : p.line = 1 + text.count 10
  column : p.column = column (sinceLast (· == 10) text)

/-- Column 1 is that of the first byte of a line. -/
def oneBased (n : Nat) : Nat := n + 1

namespace Scanner

/-- The bytes in front of the index. -/
def consumed (s : Scanner) : Bytes := s.buffer.take s.index

/-! ### The position behind a text -/

/-- To go over a text and one byte more is to take that byte behind the text. -/
theorem advance_concat (s : Scanner) (text : Bytes) (b : UInt8) :
    Lib.advance s (text ++ [b]) = (Lib.advance s text).bump b := by
  rw [advance_append]
  rfl

/-- **The position behind a text.** The columns of the first line start with 0, those of the others
    with 1. -/
theorem position_advance (buf text : Bytes) :
    (Lib.advance (new buf) text).position =
      ⟨1 + text.count 10, sinceLast (· == 10) text + if 10 ∈ text then 1 else 0⟩ := by
  -- on the text from its end, since each byte changes the position behind it
  induction text using List.reverseRecOn with
  | nil => rfl
  | append_singleton text b ih =>
    rw [advance_concat, bump, ih]
    dsimp only
    rw [List.count_append, List.count_singleton]
    by_cases hb : b = 10
    · have hfeed : (b == 10) = true := beq_iff_eq.mpr hb
      rw [if_pos hb, if_pos hfeed, sinceLast_concat_pos (p := (· == 10)) hfeed,
        if_pos (by simp [hb])]
      rfl
    · have hother : (b == 10) = false := beq_eq_false_iff_ne.mpr hb
      have hmem : 10 ∈ text ++ [b] ↔ 10 ∈ text := by simp [Ne.symm hb]
      rw [if_neg hb, if_neg (Bool.eq_false_iff.mp hother),
        sinceLast_concat_neg (p := (· == 10)) hother]
      simp only [hmem]
      rw [Nat.add_right_comm]
      rfl

/-- What has been consumed is what the scanner has gone over. -/
theorem consumed_advance {buf text : Bytes} (h : text <+: buf) :
    (Lib.advance (new buf) text).consumed = text := by
  rw [consumed, buffer_advance, index_advance]
  show buf.take (0 + text.length) = text
  rw [Nat.zero_add]
  exact (List.prefix_iff_eq_take.mp h).symm

/-- Columns are counted from one exactly behind a line feed; on the first line they are counted from
    zero. -/
theorem behind_of_advances {buf : Bytes} {s : Scanner} (h : Advances (new buf) s) :
    s.position.Behind oneBased s.consumed ↔ 10 ∈ s.consumed := by
  obtain ⟨text, htext, rfl⟩ := h
  have hpre : text <+: buf := ⟨_, htext.symm⟩
  rw [consumed_advance hpre, position_advance]
  constructor
  · rintro ⟨-, hcolumn⟩
    by_contra hnone
    have hzero : sinceLast (· == 10) text + 0 = oneBased (sinceLast (· == 10) text) := by
      rwa [if_neg hnone] at hcolumn
    exact absurd hzero (Nat.ne_of_lt (Nat.lt_succ_self _))
  · intro hmem
    rw [if_pos hmem]
    exact ⟨rfl, rfl⟩

/-! ### The position of a scanner -/

/-- **Where positions are numbered from one.** After any operations, failing ones included, the
    position is the documented one if and only if a line feed has been consumed. -/
theorem run_behind_iff (buf : Bytes) (ops : List ScanOp) :
    ((new buf).run ops).position.Behind oneBased ((new buf).run ops).consumed ↔
      10 ∈ ((new buf).run ops).consumed :=
  behind_of_advances (advances_run (new buf) ops)

/-- No function gives the columns of all lines: in front of the first byte of a line, the column is 0
    in the first line and 1 in the second. -/
theorem not_behind_new : ¬ ∃ column : Nat → Nat, ∀ buf ops,
    ((new buf).run ops).position.Behind column ((new buf).run ops).consumed := by
  rintro ⟨column, h⟩
  have hfirst : 0 = column 0 := (h [] []).column
  have hsecond : 1 = column 0 := (h [10] [.scan]).column
  rw [← hfirst] at hsecond
  cases hsecond

/-- A whole buffer can be consumed. -/
theorem run_whole (buf : Bytes) :
    (new buf).run [.scanWhile fun _ => true] = Lib.advance (new buf) buf := by
  show ((new buf).scanWhile fun _ => true).2 = _
  rw [scanWhile_eq, List.takeWhile_eq_self_iff.mpr fun _ _ => rfl]
  rfl

/-- Behind a line feed the bytes since the last one are those that follow. -/
theorem sinceLast_lineFeed (n : Nat) :
    sinceLast (· == 10) (10 :: List.replicate n (0 : UInt8)) = n := by
  induction n with
  | zero => rfl
  | succ n ih =>
    rw [List.replicate_succ', ← List.cons_append, sinceLast_concat_neg (p := (· == 10)) (by decide),
      ih]

/-- No other function gives the columns of the lines behind the first. -/
theorem behind_later_iff (column : Nat → Nat) :
    (∀ buf ops, 10 ∈ ((new buf).run ops).consumed →
      ((new buf).run ops).position.Behind column ((new buf).run ops).consumed) ↔
      column = oneBased := by
  constructor
  · intro h
    funext n
    -- behind a line feed and `n` other bytes
    have hbehind := h (10 :: List.replicate n 0) [.scanWhile fun _ => true]
    rw [run_whole, consumed_advance (List.prefix_refl _)] at hbehind
    have hcolumn := (hbehind List.mem_cons_self).column
    rw [position_advance, if_pos List.mem_cons_self, sinceLast_lineFeed] at hcolumn
    exact hcolumn.symm
  · rintro rfl buf ops hmem
    exact (run_behind_iff buf ops).mpr hmem

end Scanner

/-! ### Errors -/

/-- An error is made at the place that the scan has reached. -/
def Reports {α : Type} (scan : Scan α) : Prop :=
  ∀ s e s', scan s = .error e s' → e.position = s'.position

namespace Reports

variable {α β : Type}

/-- An error that is made is made at the place reached. -/
theorem scanError (kind : ScannerErrorKind) : Reports (Scan.scanError kind : Scan α) := by
  intro s e s' h
  injection h with he hs
  rw [← he, ← hs]

/-- To return a value makes no error. -/
theorem pure (a : α) : Reports (Pure.pure a : Scan α) := by
  intro s e s' h
  injection h

/-- To read from the scanner makes no error. -/
theorem modifyGet (f : Scanner → α × Scanner) :
    Reports (MonadState.modifyGet f : Scan α) := by
  intro s e s' h
  injection h

/-- Two scans in a row report their errors where each of them makes it. -/
theorem bind {scan : Scan α} {next : α → Scan β} (h : Reports scan)
    (hnext : ∀ a, Reports (next a)) : Reports (scan >>= next) := by
  intro s e s' hrun
  rcases bind_eq_error_iff.mp hrun with hrun | ⟨a, s₁, -, hrun⟩
  · exact h s e s' hrun
  · exact hnext a s₁ e s' hrun

/-- To throw a value away does not matter. -/
theorem discard {scan : Scan α} (h : Reports scan) : Reports (do let _ ← scan : Scan Unit) :=
  h.bind fun _ => pure ()

/-- To map a value does not matter. -/
theorem map {scan : Scan α} (h : Reports scan) {f : α → β} : Reports (f <$> scan) := by
  rw [map_eq_pure_bind]
  exact h.bind fun a => pure (f a)

/-- The end of the buffer is reported where it is. -/
theorem nextByte : Reports Scan.nextByte := by
  apply bind (modifyGet _)
  intro byte
  split
  · exact pure _
  · exact scanError _

/-- A byte that does not come is reported in front of the one that does. -/
theorem mustRead (expected : UInt8) : Reports (Scan.mustRead expected) := by
  intro s e s' h
  rw [mustRead_run] at h
  split at h
  · split at h
    · cases h
    · injection h with he hs
      rw [← he, ← hs]
  · injection h with he hs
    rw [← he, ← hs]

/-- A text that does not come is reported at its first wrong byte. The induction is on the text. -/
theorem mustScanPairs (pairs : List (UInt8 × UInt8)) : Reports (Scan.mustScanPairs pairs) := by
  induction pairs with
  | nil => exact pure ()
  | cons pair pairs ih =>
    rw [Scan.mustScanPairs]
    split
    · exact (scanError _).bind fun _ => (modifyGet _).bind fun _ => ih
    · exact (modifyGet _).bind fun _ => ih

/-- A line end that does not come is reported in front of what does. -/
theorem scanNewline : Reports Scan.scanNewline := by
  apply bind (modifyGet _)
  intro carriageReturn
  apply bind (modifyGet _)
  intro lineFeed
  split
  · exact scanError _
  · exact pure _

/-- A text that is not UTF-8 is reported behind its bytes. -/
theorem scanWhileAsStr (predicate : UInt8 → Bool) : Reports (Scan.scanWhileAsStr predicate) := by
  apply bind (modifyGet _)
  intro bytes
  split
  · exact pure _
  · exact scanError _

/-- A number that is missing or too large is reported where the digits end. -/
theorem scanUnsigned (bound : Nat) : Reports (Scan.scanUnsigned bound) := by
  apply bind (modifyGet _)
  intro digits
  split
  · exact pure _
  · exact scanError _

end Reports

/-- Every operation of the scanner reports its errors at the place reached. -/
theorem reports_reader (op : ScanOp) : Reports op.reader := by
  cases op with
  | nextByte => exact Reports.nextByte.discard
  | scan => exact (Reports.modifyGet _).discard
  | advanceN n => exact Reports.modifyGet _
  | scanWhile predicate => exact (Reports.modifyGet _).discard
  | scanWhileAsStr predicate => exact (Reports.scanWhileAsStr predicate).discard
  | scanWhileAsStrUnchecked predicate => exact (Reports.modifyGet _).discard
  | scanUntil byte => exact (Reports.modifyGet _).discard
  | scanUntilAsStr byte => exact (Reports.scanWhileAsStr _).discard
  | scanUntilAnyAsStr slice => exact (Reports.scanWhileAsStr _).discard
  | scanLine => exact (Reports.scanWhileAsStr _).discard
  | scanNewline => exact Reports.scanNewline
  | scanIf predicate => exact (Reports.modifyGet _).discard
  | scanIfEq expected => exact (Reports.modifyGet _).discard
  | mustRead expected => exact Reports.mustRead expected
  | mustScanSlice expected =>
    intro s e s' h
    exact Reports.mustScanPairs (s.remaining.zip expected) s e s' h
  | scanU16 => exact (Reports.scanUnsigned _).map.discard
  | scanU32 => exact (Reports.scanUnsigned _).map.discard
  | scanU64 => exact (Reports.scanUnsigned _).map.discard
  | scanI64 => exact (Reports.scanUnsigned _).map.discard
  | scanF32 parses =>
    apply Reports.bind (Reports.modifyGet _)
    intro digits
    split
    · exact Reports.scanError _
    · exact Reports.pure _

/-- **Where the errors are numbered from one.** The error of an operation, after any others, has the
    documented position if and only if a line feed has been consumed. -/
theorem error_behind_iff {buf : Bytes} {ops : List ScanOp} {op : ScanOp} {e : ScannerError}
    {s : Scanner} (h : op.reader ((Scanner.new buf).run ops) = .error e s) :
    e.position.Behind oneBased s.consumed ↔ 10 ∈ s.consumed := by
  rw [reports_reader op _ e s h]
  apply Scanner.behind_of_advances
  exact (Scanner.advances_run _ ops).trans (op.bounded_reader.fails h).2

end Rssip
