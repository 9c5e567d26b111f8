import Rssip.Lib.Machine
import Rssip.Utils.Scans

namespace Rssip

open Lib

/-!
# What a scanner has consumed

The scanner takes slices of its buffer without a check of their bounds.  That is sound because no
operation moves the index behind the end of the buffer.

* `ScanOp` — the operations that move the index;
* `bounded_reader` — each of them goes over a text that remains, failures included;
* `run_sound` — after any operations the slices are in range, what was consumed stands in front of
  what remains, and `scan_while` takes the longest prefix it can.
-/

/-- An operation of the scanner.  The last one is left with what `str::parse` makes of a text. -/
inductive ScanOp where
  | nextByte
  | scan
  | advanceN (n : Nat)
  | scanWhile (predicate : UInt8 → Bool)
  | scanWhileAsStr (predicate : UInt8 → Bool)
  | scanWhileAsStrUnchecked (predicate : UInt8 → Bool)
  | scanUntil (byte : UInt8)
  | scanUntilAsStr (byte : UInt8)
  | scanUntilAnyAsStr (slice : Bytes)
  | scanLine
  | scanNewline
  | scanIf (predicate : UInt8 → Bool)
  | scanIfEq (expected : UInt8)
  | mustRead (expected : UInt8)
  | mustScanSlice (expected : Bytes)
  | scanU16
  | scanU32
  | scanU64
  | scanI64
  | scanF32 (parses : String → Bool)

namespace ScanOp

/-- The operation, without its value. -/
def reader : ScanOp → Scan Unit
  | nextByte => do let _ ← Scan.nextByte
  | scan => do let _ ← modifyGet Scanner.scan
  | advanceN n => modify (Scanner.advanceN n)
  | scanWhile predicate => do let _ ← modifyGet (Scanner.scanWhile predicate)
  | scanWhileAsStr predicate => do let _ ← Scan.scanWhileAsStr predicate
  | scanWhileAsStrUnchecked predicate => do
    let _ ← modifyGet (Scanner.scanWhileAsStrUnchecked predicate)
  | scanUntil byte => do let _ ← modifyGet (Scanner.scanUntil byte)
  | scanUntilAsStr byte => do let _ ← Scan.scanUntilAsStr byte
  | scanUntilAnyAsStr slice => do let _ ← Scan.scanUntilAnyAsStr slice
  | scanLine => do let _ ← Scan.scanLine
  | scanNewline => Scan.scanNewline
  | scanIf predicate => do let _ ← modifyGet (Scanner.scanIf predicate)
  | scanIfEq expected => do let _ ← modifyGet (Scanner.scanIfEq expected)
  | mustRead expected => Scan.mustRead expected
  | mustScanSlice expected => Scan.mustScanSlice expected
  | scanU16 => do let _ ← Scan.scanU16
  | scanU32 => do let _ ← Scan.scanU32
  | scanU64 => do let _ ← Scan.scanU64
  | scanI64 => do let _ ← Scan.scanI64
  | scanF32 parses => do
    if !parses (← modifyGet (Scanner.scanNumberStr true)) then Scan.scanError .invalidNumber

end ScanOp

namespace Scanner

/-- The scanner after an operation, whether it fails or not. -/
def step (s : Scanner) (op : ScanOp) : Scanner :=
  match op.reader s with
  | .ok _ s' | .error _ s' => s'

/-- The scanner after a list of operations. -/
def run (s : Scanner) (ops : List ScanOp) : Scanner := exec step s ops

end Scanner

/-! ### Every operation goes over a text -/

namespace ScanOp

theorem bounded_scan : Bounded (fun _ => True) (modifyGet Scanner.scan : Scan (Option UInt8)) := by
  have hscan : (modifyGet Scanner.scan : Scan (Option UInt8)) =
      modifyGet (Scanner.scanIf fun _ => true) := by
    refine congrArg modifyGet (funext fun s => ?_)
    rw [Scanner.scan, Scanner.scanIf]
    cases s.peek <;> rfl
  rw [hscan]
  exact bounded_scanIf _

theorem bounded_scanWhileAsStrUnchecked (predicate : UInt8 → Bool) :
    Bounded (fun _ => True)
      (modifyGet (Scanner.scanWhileAsStrUnchecked predicate) : Scan String) := by
  rw [scanWhileAsStrUnchecked_eq]
  exact (bounded_scanWhile predicate).map

theorem bounded_scanUnsigned (bound : Nat) :
    Bounded (fun _ => True) (Scan.scanUnsigned bound) := by
  apply Bounded.bind (bounded_scanWhileAsStrUnchecked _)
  intro digits
  split
  · exact Bounded.pure _
  · exact bounded_scanError _

theorem bounded_scanNewline : Bounded (fun _ => True) Scan.scanNewline := by
  apply Bounded.bind (bounded_scanIfEq 13)
  intro carriageReturn
  apply Bounded.bind (bounded_scanIfEq 10)
  intro lineFeed
  split
  · exact bounded_scanError _
  · exact Bounded.pure _

/-- A value is passed over. -/
theorem bounded_discard {α : Type} {r : Scan α} (h : Bounded (fun _ => True) r) :
    Bounded (fun _ => True) (do let _ ← r : Scan Unit) :=
  h.bind fun _ => Bounded.pure ()

theorem bounded_reader (op : ScanOp) : Bounded (fun _ => True) op.reader := by
  cases op with
  | nextByte => exact bounded_discard bounded_nextByte
  | scan => exact bounded_discard bounded_scan
  | advanceN n => exact bounded_advanceN n
  | scanWhile predicate => exact bounded_discard (bounded_scanWhile predicate)
  | scanWhileAsStr predicate => exact bounded_discard (bounded_scanWhileAsStr predicate)
  | scanWhileAsStrUnchecked predicate =>
    exact bounded_discard (bounded_scanWhileAsStrUnchecked predicate)
  | scanUntil byte => exact bounded_discard (bounded_scanWhile _)
  | scanUntilAsStr byte => exact bounded_discard (bounded_scanWhileAsStr _)
  | scanUntilAnyAsStr slice => exact bounded_discard (bounded_scanWhileAsStr _)
  | scanLine => exact bounded_discard (bounded_scanWhileAsStr _)
  | scanNewline => exact bounded_scanNewline
  | scanIf predicate => exact bounded_discard (bounded_scanIf predicate)
  | scanIfEq expected => exact bounded_discard (bounded_scanIfEq expected)
  | mustRead expected => exact bounded_mustRead expected
  | mustScanSlice expected => exact bounded_mustScanSlice expected
  | scanU16 => exact bounded_discard (bounded_scanUnsigned _).map
  | scanU32 => exact bounded_discard (bounded_scanUnsigned _).map
  | scanU64 => exact bounded_discard (bounded_scanUnsigned _).map
  | scanI64 => exact bounded_discard (bounded_scanUnsigned _).map
  | scanF32 parses =>
    apply Bounded.bind (bounded_scanWhileAsStrUnchecked _)
    intro digits
    split
    · exact bounded_scanError _
    · exact Bounded.pure _

end ScanOp

namespace Scanner

theorem advances_step (s : Scanner) (op : ScanOp) : Advances s (s.step op) := by
  rw [step]
  cases hrun : op.reader s with
  | ok u s' => exact op.bounded_reader.advances hrun
  | error e s' => exact (op.bounded_reader.fails hrun).2

/-- **Any operations go over a text.** -/
theorem advances_run (s : Scanner) (ops : List ScanOp) : Advances s (s.run ops) :=
  exec_invariant (fun _ op h => h.trans (advances_step _ op)) (Advances.refl s) ops

/-- The scanner has consumed a prefix of `buf`, and its unchecked slices are in range. -/
structure Sound (buf : Bytes) (s : Scanner) : Prop where
  buffer : s.buffer = buf
  /-- The slice of `as_ref` goes from the index to the end. -/
  index_le : s.index ≤ buf.length
  consumed : ∃ consumed, consumed ++ s.remaining = buf ∧ consumed.length = s.index
  scanWhile : ∀ predicate, LongestPrefix predicate s.remaining (s.scanWhile predicate).1
  rest : ∀ predicate, (s.scanWhile predicate).1 ++ (s.scanWhile predicate).2.remaining = s.remaining
  /-- The slice of `scan_while` goes from the index before it to the one after it. -/
  scanned : ∀ predicate, s.index ≤ (s.scanWhile predicate).2.index ∧
    (s.scanWhile predicate).2.index ≤ buf.length
  peekWhile : ∀ predicate, s.peekWhile predicate = (s.scanWhile predicate).1
  /-- The slice of `peek_while` ends at the first byte that does not satisfy `predicate`. -/
  peeked : ∀ predicate : UInt8 → Bool,
    (s.remaining.findIdx? fun b => !predicate b).getD s.remaining.length ≤ s.remaining.length

theorem sound_of_advances {buf : Bytes} {s : Scanner} (h : Advances (new buf) s) : Sound buf s := by
  obtain ⟨consumed, hconsumed, hs⟩ := h
  have hbuf : buf = consumed ++ s.remaining := hconsumed
  have hindex : s.index = consumed.length := by
    rw [hs, index_advance]
    exact Nat.zero_add _
  have hlength : buf.length = consumed.length + s.remaining.length := by
    rw [← List.length_append, ← hbuf]
  have htaken : ∀ predicate : UInt8 → Bool,
      s.remaining = s.remaining.takeWhile predicate ++ s.remaining.dropWhile predicate :=
    fun predicate => List.takeWhile_append_dropWhile.symm
  refine
    { buffer := ?_
      index_le := by omega
      consumed := ⟨consumed, hbuf.symm, hindex.symm⟩
      scanWhile := fun predicate => ?_
      rest := fun predicate => ?_
      scanned := fun predicate => ?_
      peekWhile := fun predicate => ?_
      peeked := fun predicate => ?_ }
  · rw [hs, buffer_advance]
    rfl
  · rw [scanWhile_eq]
    exact longestPrefix_takeWhile predicate _
  · rw [scanWhile_eq]
    have hrest : (Lib.advance s (s.remaining.takeWhile predicate)).remaining = _ :=
      remaining_advance (σ := Scanner) (htaken predicate)
    rw [hrest]
    exact (htaken predicate).symm
  · rw [scanWhile_eq, index_advance]
    have hpre := (List.takeWhile_prefix predicate (l := s.remaining)).length_le
    omega
  · rw [peekWhile_eq, scanWhile_eq]
  · cases hfind : s.remaining.findIdx? fun b => !predicate b with
    | none => exact Nat.le_refl _
    | some n =>
      obtain ⟨hn, -⟩ := List.findIdx?_eq_some_iff_getElem.mp hfind
      exact Nat.le_of_lt hn

/-- **What a scanner has consumed.** After any operations, failing ones included, the index is in
    the buffer, what was consumed stands in front of what remains, and `scan_while` takes the
    longest prefix that satisfies its predicate, the one that `peek_while` looks at. -/
theorem run_sound (buf : Bytes) (ops : List ScanOp) : Sound buf ((new buf).run ops) :=
  sound_of_advances (advances_run (new buf) ops)

end Scanner

end Rssip
