import Rssip.Lib.Numeral
import Rssip.Lib.Reader

namespace Rssip

open Lib

/-!
# The byte scanner

The scanner of `rssip-utils`: a buffer, an index into it and the position of that index by
line and column.

* `Scanner.scanWhile` and its variants — greedy scans, which never fail;
* `Scanner.mustRead`, `scanNewline`, `scanU32`, … — scans that fail with a `ScannerError`
  at the position reached;
* `lookupTable` — the byte sets the parsers scan with;
* the `Cursor` instance, and one `…_reads` lemma for each scan.
-/

/-! ### Lookup tables -/

/-- A set of bytes. -/
abbrev LookupTable := UInt8 → Bool

/-- The bytes of some strings. -/
def lookupTable (slices : List String) : LookupTable := fun b =>
  slices.any fun slice => (asBytes slice).contains b

/-! ### The scanner -/

/-- A blank or a tab. -/
def isSpace (b : UInt8) : Bool := b == 32 || b == 9

/-- A carriage return or a line feed. -/
def isNewline (b : UInt8) : Bool := b == 13 || b == 10

/-- A place in the input, by line and column. -/
structure Position where
  line : Nat
  column : Nat
deriving DecidableEq

/-- The position of a new scanner. -/
def Position.new : Position := ⟨1, 0⟩

/-- What a scan did not find. -/
inductive ScannerErrorKind where
  | eof
  | nonNewLine
  | unexpectedByte (expected found : UInt8)
  | invalidNumber
  | invalidUtf8
deriving DecidableEq

/-- What a scan did not find, and where. -/
structure ScannerError where
  kind : ScannerErrorKind
  position : Position
deriving DecidableEq

/-- A buffer, and how far it was read; the position counts lines and columns. -/
structure Scanner where
  buffer : Bytes
  position : Position
  index : Nat
deriving DecidableEq

/-- A scan that can fail. -/
abbrev Scan := EStateM ScannerError Scanner

namespace Scanner

/-- A scanner in front of a buffer. -/
def new (buffer : Bytes) : Scanner := ⟨buffer, Position.new, 0⟩

/-- The length of the buffer, whatever was read of it. -/
def len (s : Scanner) : Nat := s.buffer.length

/-- All bytes were read. -/
def isEof (s : Scanner) : Bool := s.index == s.len

/-- The bytes that were not read. -/
def remaining (s : Scanner) : Bytes := s.buffer.drop s.index

/-- The next byte, which stays. -/
def peek (s : Scanner) : Option UInt8 := s.buffer[s.index]?

/-- A byte was read: the index goes on, and a line feed starts a new line. -/
def bump (s : Scanner) (byte : UInt8) : Scanner :=
  { s with
    index := s.index + 1
    position :=
      if byte = 10 then ⟨s.position.line + 1, 1⟩
      else { s.position with column := s.position.column + 1 } }

/-- The first `n` bytes that remain, if there are so many. -/
def peekN (s : Scanner) (n : Nat) : Option Bytes :=
  if n ≤ s.remaining.length then some (s.remaining.take n) else none

/-- Reads the next byte, if there is one. -/
def scan (s : Scanner) : Option UInt8 × Scanner :=
  match s.peek with
  | some c => (some c, s.bump c)
  | none => (none, s)

/-- What remains starts with `text`. -/
def matchesPrefix (text : Bytes) (s : Scanner) : Bool := text.isPrefixOf s.remaining

/-- Advances by `n` bytes, less at the end of the buffer. -/
def advanceN : Nat → Scanner → Scanner
  | 0, s => s
  | n + 1, s =>
    match s.scan with
    | (some _, s) => advanceN n s
    | (none, s) => s

/-- The loop of `scanWhile` over what remains. -/
def bumpWhile (predicate : UInt8 → Bool) : Bytes → Scanner → Scanner
  | [], s => s
  | c :: cs, s => if predicate c then bumpWhile predicate cs (s.bump c) else s

/-- Reads bytes while they satisfy `predicate`. -/
def scanWhile (predicate : UInt8 → Bool) (s : Scanner) : Bytes × Scanner :=
  let s' := bumpWhile predicate s.remaining s
  ((s.buffer.take s'.index).drop s.index, s')

/-- The bytes that satisfy `predicate`, without reading them. -/
def peekWhile (predicate : UInt8 → Bool) (s : Scanner) : Bytes :=
  match s.remaining.findIdx? (fun b => !predicate b) with
  | some n => s.remaining.take n
  | none => s.remaining

/-- Reads the next byte if it satisfies `predicate`. -/
def scanIf (predicate : UInt8 → Bool) (s : Scanner) : Option UInt8 × Scanner :=
  match s.peek with
  | some byte => if predicate byte then (some byte, s.bump byte) else (none, s)
  | none => (none, s)

/-- The byte, if it comes next. -/
def scanIfEq (expected : UInt8) : Scanner → Option UInt8 × Scanner := scanIf (· == expected)

/-- The bytes in front of the next one that is equal, or all that are left. -/
def scanUntil (byte : UInt8) : Scanner → Bytes × Scanner := scanWhile (· != byte)

/-- `scanWhile` as a string, for predicates that only match valid UTF-8. -/
def scanWhileAsStrUnchecked (predicate : UInt8 → Bool) (s : Scanner) : String × Scanner :=
  let (bytes, s) := s.scanWhile predicate
  (fromUtf8Unchecked bytes, s)

/-- Digits, and decimal points if wanted. -/
def scanNumberStr (decimalPoint : Bool) : Scanner → String × Scanner :=
  scanWhileAsStrUnchecked fun b => isAsciiDigit b || (decimalPoint && b == 46)

end Scanner

/-! ### Scans that can fail -/

namespace Scan

/-- An error at the position reached. -/
def scanError {α : Type} (kind : ScannerErrorKind) : Scan α := do
  let s ← get
  throw ⟨kind, s.position⟩

/-- Reads the next byte. -/
def nextByte : Scan UInt8 := do
  match ← modifyGet Scanner.scan with
  | some byte => return byte
  | none => scanError .eof

/-- Reads the next byte, which has to be `expected`. -/
def mustRead (expected : UInt8) : Scan Unit := do
  match (← get).peek with
  | some found =>
    if expected = found then modify (Scanner.bump · found)
    else scanError (.unexpectedByte expected found)
  | none => scanError .eof

/-- The loop of `mustScanSlice`, over the zip of what remains with what is expected. -/
def mustScanPairs : List (UInt8 × UInt8) → Scan Unit
  | [] => return ()
  | (found, expected) :: pairs => do
    if found ≠ expected then scanError (.unexpectedByte expected found)
    modify (Scanner.bump · found)
    mustScanPairs pairs

/-- Reads the bytes of `expected`, as far as the input goes. -/
def mustScanSlice (expected : Bytes) : Scan Unit := do
  mustScanPairs ((← get).remaining.zip expected)

/-- One line end: a carriage return, a line feed or both. -/
def scanNewline : Scan Unit := do
  let carriageReturn ← modifyGet (Scanner.scanIfEq 13)
  let lineFeed ← modifyGet (Scanner.scanIfEq 10)
  if carriageReturn.isNone ∧ lineFeed.isNone then scanError .nonNewLine

/-- The bytes as long as the condition holds, as text.  What was read stays read if it is no UTF-8.
    -/
def scanWhileAsStr (predicate : UInt8 → Bool) : Scan String := do
  let bytes ← modifyGet (Scanner.scanWhile predicate)
  match fromUtf8 bytes with
  | some str => return str
  | none => scanError .invalidUtf8

/-- The rest of the line as text, without its end. -/
def scanLine : Scan String := scanWhileAsStr fun b => !isNewline b

/-- The text in front of the next such byte, or all that is left. -/
def scanUntilAsStr (byte : UInt8) : Scan String := scanWhileAsStr (· != byte)

/-- The text in front of the next byte of the list, or all that is left. -/
def scanUntilAnyAsStr (slice : Bytes) : Scan String := scanWhileAsStr fun b => !slice.contains b

/-- Digits that form an unsigned integer below `bound`. -/
def scanUnsigned (bound : Nat) : Scan Nat := do
  let digits ← modifyGet (Scanner.scanNumberStr false)
  match parseUnsigned bound (asBytes digits) with
  | some n => return n
  | none => scanError .invalidNumber

/-- A number of the width that the name says, an error if the digits make up a larger one. -/
def scanU16 : Scan UInt16 := UInt16.ofNat <$> scanUnsigned (2 ^ 16)

/-- A number of 32 bits. -/
def scanU32 : Scan UInt32 := UInt32.ofNat <$> scanUnsigned (2 ^ 32)

/-- A number of 64 bits. -/
def scanU64 : Scan UInt64 := UInt64.ofNat <$> scanUnsigned (2 ^ 64)

/-- Digits alone: a negative number is none. -/
def scanI64 : Scan Int64 := Int64.ofNat <$> scanUnsigned (2 ^ 63)

end Scan

/-! ### What the scans read -/

/-- Behind a byte remains what came after it. -/
theorem Scanner.remaining_bump {s : Scanner} {b : UInt8} {bs : Bytes}
    (h : s.remaining = b :: bs) : (s.bump b).remaining = bs := by
  have hdrop : s.buffer.drop (s.index + 1) = (s.buffer.drop s.index).drop 1 := by
    rw [List.drop_drop]
  show s.buffer.drop (s.index + 1) = bs
  rw [hdrop, show s.buffer.drop s.index = b :: bs from h]
  rfl

instance : Cursor Scanner UInt8 where
  remaining := Scanner.remaining
  bump := Scanner.bump
  remaining_bump := Scanner.remaining_bump

namespace Scanner

/-- To look at the next byte shows the first of what remains. -/
theorem peek_eq_head? (s : Scanner) : s.peek = s.remaining.head? := by
  simp [peek, remaining, List.head?_drop]

/-- In front of a byte, to look shows this byte. -/
theorem peek_eq {s : Scanner} {b : UInt8} {bs : Bytes} (h : s.remaining = b :: bs) :
    s.peek = some b := by
  rw [peek_eq_head?, h]
  rfl

/-- To go over a text does not change the buffer. -/
@[simp] theorem buffer_advance (s : Scanner) (bs : Bytes) :
    (Lib.advance s bs).buffer = s.buffer := by
  induction bs generalizing s with
  | nil => rfl
  | cons b bs ih => exact ih (s.bump b)

/-- To go over a text moves the index by its length. -/
@[simp] theorem index_advance (s : Scanner) (bs : Bytes) :
    (Lib.advance s bs).index = s.index + bs.length := by
  induction bs generalizing s with
  | nil => rfl
  | cons b bs ih =>
    show (Lib.advance (s.bump b) bs).index = _
    rw [ih, List.length_cons]
    show s.index + 1 + bs.length = s.index + (bs.length + 1)
    omega

/-- The position behind a text depends on that in front of it only. -/
theorem position_advance_congr {s t : Scanner} (h : s.position = t.position) (bs : Bytes) :
    (Lib.advance s bs).position = (Lib.advance t bs).position := by
  induction bs generalizing s t with
  | nil => exact h
  | cons b bs ih =>
    apply ih
    show (s.bump b).position = (t.bump b).position
    rw [bump, bump, h]

/-- Byte by byte as long as the condition holds is the longest stretch at once. The induction is on
    the bytes. -/
theorem bumpWhile_eq (predicate : UInt8 → Bool) (bs : Bytes) (s : Scanner) :
    bumpWhile predicate bs s = Lib.advance s (bs.takeWhile predicate) := by
  induction bs generalizing s with
  | nil => rfl
  | cons b bs ih =>
    by_cases hb : predicate b
    · rw [bumpWhile, if_pos hb, ih, List.takeWhile_cons_of_pos hb]
      rfl
    · rw [bumpWhile, if_neg hb, List.takeWhile_cons_of_neg hb]
      rfl

/-- **`scanWhile` takes the longest prefix that matches.** -/
theorem scanWhile_eq (predicate : UInt8 → Bool) (s : Scanner) :
    s.scanWhile predicate =
      (s.remaining.takeWhile predicate, Lib.advance s (s.remaining.takeWhile predicate)) := by
  unfold scanWhile
  simp only [bumpWhile_eq, index_advance, Prod.mk.injEq, and_true]
  rw [List.drop_take]
  show s.remaining.take _ = _
  rw [Nat.add_sub_cancel_left]
  exact (List.prefix_iff_eq_take.mp (List.takeWhile_prefix predicate)).symm

/-- To look ahead shows the longest stretch that meets the condition. -/
theorem peekWhile_eq (predicate : UInt8 → Bool) (s : Scanner) :
    s.peekWhile predicate = s.remaining.takeWhile predicate := by
  unfold peekWhile
  induction s.remaining with
  | nil => rfl
  | cons b bs ih =>
    by_cases hb : predicate b
    · rw [List.takeWhile_cons_of_pos hb, List.findIdx?_cons]
      rw [← ih]
      cases bs.findIdx? fun b => !predicate b <;> simp [hb]
    · rw [List.takeWhile_cons_of_neg hb, List.findIdx?_cons]
      simp [hb]

end Scanner

section

variable {ε : Type} {predicate : UInt8 → Bool} {rest text : Bytes} {b : UInt8} {s : String}

/-- A stretch under the condition is scanned up to a byte that does not meet it. -/
theorem reads_scanWhile (htext : ∀ b ∈ text, predicate b) (hrest : Stops predicate rest) :
    Reads (modifyGet (Scanner.scanWhile predicate) : EStateM ε Scanner Bytes) text rest text := by
  intro c hc
  have htake := takeWhile_append_stops htext hrest
  have hscan := Scanner.scanWhile_eq predicate c
  rw [show c.remaining = text ++ rest from hc, htake] at hscan
  show EStateM.Result.ok (c.scanWhile predicate).1 (c.scanWhile predicate).2 = _
  rw [hscan]

/-- A text under the condition is scanned, as a text, in the same way. -/
theorem reads_scanWhileAsStrUnchecked (hs : ∀ b ∈ asBytes s, predicate b)
    (hrest : Stops predicate rest) :
    Reads (modifyGet (Scanner.scanWhileAsStrUnchecked predicate) : EStateM ε Scanner String)
      (asBytes s) rest s := by
  intro c hc
  have h : EStateM.Result.ok (ε := ε) (c.scanWhile predicate).1 (c.scanWhile predicate).2 = _ :=
    reads_scanWhile hs hrest c hc
  injection h with htaken hleft
  show EStateM.Result.ok (fromUtf8Unchecked (c.scanWhile predicate).1)
    (c.scanWhile predicate).2 = _
  rw [htaken, hleft, fromUtf8Unchecked_asBytes]

/-- A byte that meets the condition is taken. -/
theorem reads_scanIf_some (hb : predicate b) :
    Reads (modifyGet (Scanner.scanIf predicate) : EStateM ε Scanner _) [b] rest (some b) := by
  intro c hc
  have hpeek : c.peek = some b := Scanner.peek_eq hc
  have hscan : c.scanIf predicate = (some b, c.bump b) := by
    simp [Scanner.scanIf, hpeek, hb]
  show EStateM.Result.ok (c.scanIf predicate).1 (c.scanIf predicate).2 = _
  rw [hscan]
  rfl

/-- A byte that does not meet the condition is left, and so is the end. -/
theorem reads_scanIf_none (hrest : Stops predicate rest) :
    Reads (modifyGet (Scanner.scanIf predicate) : EStateM ε Scanner _) [] rest none := by
  intro c hc
  have hpeek : c.peek = rest.head? := by
    rw [Scanner.peek_eq_head?, show c.remaining = rest from hc]
  have hscan : c.scanIf predicate = (none, c) := by
    simp only [Scanner.scanIf, hpeek]
    cases rest with
    | nil => rfl
    | cons d rest => simp [stops_cons.mp hrest]
  show EStateM.Result.ok (c.scanIf predicate).1 (c.scanIf predicate).2 = _
  rw [hscan]
  rfl

/-- The byte that is asked for is taken. -/
theorem reads_scanIfEq_some :
    Reads (modifyGet (Scanner.scanIfEq b) : EStateM ε Scanner _) [b] rest (some b) :=
  reads_scanIf_some (beq_self_eq_true b)

/-- Another byte than the one that is asked for is left. -/
theorem reads_scanIfEq_none (hrest : Stops (· == b) rest) :
    Reads (modifyGet (Scanner.scanIfEq b) : EStateM ε Scanner _) [] rest none :=
  reads_scanIf_none hrest

/-- To go over as many bytes as a text in front has is to go over the text. -/
theorem advanceN_eq {c : Scanner} (h : c.remaining = text ++ rest) :
    Scanner.advanceN text.length c = Lib.advance c text := by
  induction text generalizing c with
  | nil => rfl
  | cons b text ih =>
    have hscan : c.scan = (some b, c.bump b) := by
      rw [Scanner.scan, Scanner.peek_eq h]
    rw [List.length_cons, Scanner.advanceN, hscan]
    exact ih (Scanner.remaining_bump h)

/-- To go over as many bytes as a text has reads the text. -/
theorem reads_advanceN (text : Bytes) :
    Reads (modify (Scanner.advanceN text.length) : EStateM ε Scanner Unit) text rest () := by
  intro c hc
  show EStateM.Result.ok () (Scanner.advanceN text.length c) = _
  rw [advanceN_eq hc]

namespace Scan

/-- The next byte is read, whatever it is. -/
theorem reads_nextByte : Reads nextByte [b] rest b := by
  have hscan : Reads (modifyGet Scanner.scan : Scan (Option UInt8)) [b] rest (some b) := by
    intro c hc
    show EStateM.Result.ok c.scan.1 c.scan.2 = _
    have hpeek : c.peek = some b := Scanner.peek_eq hc
    rw [Scanner.scan, hpeek]
    rfl
  apply Reads.bind_nil hscan
  exact Reads.pure _ _

/-- A byte that has to come is read where it comes. -/
theorem reads_mustRead : Reads (mustRead b) [b] rest () := by
  apply Reads.get_bind
  intro c hc
  have hpeek : c.peek = some b := Scanner.peek_eq hc
  rw [hpeek]
  dsimp only
  rw [if_pos rfl]
  intro d _
  rfl

/-- A text is UTF-8, so that its scan with the check succeeds. -/
theorem reads_scanWhileAsStr (hs : ∀ b ∈ asBytes s, predicate b) (hrest : Stops predicate rest) :
    Reads (scanWhileAsStr predicate) (asBytes s) rest s := by
  apply Reads.bind_nil (reads_scanWhile hs hrest)
  rw [fromUtf8_asBytes]
  exact Reads.pure _ _

/-- A line is read up to its end. -/
theorem reads_scanLine (hs : ∀ b ∈ asBytes s, isNewline b = false) :
    Reads scanLine (asBytes s) (13 :: rest) s :=
  reads_scanWhileAsStr (by simpa using hs) (by simp [isNewline])

/-- Digits are read if they make a number below the bound. -/
theorem reads_scanUnsigned_of {n bound : Nat} (hs : ∀ b ∈ asBytes s, isAsciiDigit b)
    (hn : parseUnsigned bound (asBytes s) = some n) (hrest : Stops isAsciiDigit rest) :
    Reads (scanUnsigned bound) (asBytes s) rest n := by
  have hscan : Reads (modifyGet (Scanner.scanNumberStr false) : Scan String) (asBytes s) rest s :=
    reads_scanWhileAsStrUnchecked (fun b hb => by simp [hs b hb]) (by simpa using hrest)
  apply Reads.bind_nil hscan
  rw [hn]
  exact Reads.pure _ _

/-- A number below the bound is read back from its digits. -/
theorem reads_scanUnsigned {n bound : Nat} (hn : n < bound) (hrest : Stops isAsciiDigit rest) :
    Reads (scanUnsigned bound) (asBytes (decimal n)) rest n :=
  reads_scanUnsigned_of (fun _ hb => isAsciiDigit_of_mem_decimal hb) (parseUnsigned_decimal hn) hrest

/-- The same for 16 bits. -/
theorem reads_scanU16 {n : UInt16} (hrest : Stops isAsciiDigit rest) :
    Reads scanU16 (asBytes (decimal n.toNat)) rest n := by
  have h := (reads_scanUnsigned n.toNat_lt hrest).map (f := UInt16.ofNat)
  rwa [UInt16.ofNat_toNat] at h

/-- The same for 32 bits. -/
theorem reads_scanU32 {n : UInt32} (hrest : Stops isAsciiDigit rest) :
    Reads scanU32 (asBytes (decimal n.toNat)) rest n := by
  have h := (reads_scanUnsigned n.toNat_lt hrest).map (f := UInt32.ofNat)
  rwa [UInt32.ofNat_toNat] at h

/-- The same for 64 bits. -/
theorem reads_scanU64 {n : UInt64} (hrest : Stops isAsciiDigit rest) :
    Reads scanU64 (asBytes (decimal n.toNat)) rest n := by
  have h := (reads_scanUnsigned n.toNat_lt hrest).map (f := UInt64.ofNat)
  rwa [UInt64.ofNat_toNat] at h

/-- A number that is not negative is read back. -/
theorem reads_scanI64 {n : Int64} (hn : 0 ≤ n) (hrest : Stops isAsciiDigit rest) :
    Reads scanI64 (asBytes (decimal n.toNatClampNeg)) rest n := by
  have h := (reads_scanUnsigned n.toNatClampNeg_lt hrest).map (f := Int64.ofNat)
  rwa [Int64.ofNat_toNatClampNeg n hn] at h

end Scan

end

end Rssip
