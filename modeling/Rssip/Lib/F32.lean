import Rssip.Lib.Numeral

namespace Lib

/-!
# 32-bit floating point numbers

The numbers from zero to infinity in the binary format with 24 bits of precision, read from decimal
texts and printed as the shortest ones.

* `F32` — a number by its bits, the sign left out;
* `F32.ofRatio` — the nearest number to a ratio, the even one of two that are as near;
* `F32.fromStr`, `F32.toText` — reading and printing, without signs and exponents;
* `F32.mem_toText` — what a printed number consists of.
-/

/-- A 32-bit floating point number without a sign: the exponent is above the 23 bits of the
    fraction, and infinity comes behind the largest number. -/
structure F32 where
  bits : Nat
  le_infinity : bits ≤ 255 * 2 ^ 23
deriving DecidableEq

namespace F32

/-- The bits of infinity. -/
def infinity : Nat := 255 * 2 ^ 23

/-- The exponent of the last place, in units of `2 ^ -149`; the subnormal numbers have that of the
    smallest normal ones. -/
def exponent (x : F32) : Nat := x.bits / 2 ^ 23 - 1

/-- The significand, below `2 ^ 24`. -/
def significand (x : F32) : Nat := x.bits - x.exponent * 2 ^ 23

/-- The value in units of `2 ^ -149`. -/
def units (x : F32) : Nat := x.significand * 2 ^ x.exponent

/-! ### Reading -/

/-- The nearest integer to a ratio, the even one of two that are as near. -/
def roundDiv (n d : Nat) : Nat :=
  let q := n / d
  let twice := 2 * (n % d)
  if d < twice ∨ d = twice ∧ q % 2 = 1 then q + 1 else q

/-- The nearest number to a ratio; a significand that is rounded up to `2 ^ 24` carries over into the
    exponent. -/
def ofRatio (n d : Nat) : F32 :=
  let units := n * 2 ^ 149
  let exponent := Nat.log2 (units / d) - 23
  let bits := exponent * 2 ^ 23 + roundDiv units (d * 2 ^ exponent)
  ⟨min bits infinity, Nat.min_le_right _ _⟩

/-- The number that digits with a decimal point stand for: at least one digit, at most one point. -/
def fromStr (s : String) : Option F32 :=
  let bs := asBytes s
  let places := (bs.dropWhile (· ≠ 46)).length - 1
  let digits := bs.filter (· ≠ 46)
  if digits ≠ [] ∧ bs.count 46 ≤ 1 then
    (readDigits 10 0 digits).map fun n => ofRatio n (10 ^ places)
  else none

/-! ### Printing -/

/-- The multiples of `10 ^ j / 10 ^ 46` around a number that are read back as it, the nearer one
    first, and the upper one if both are as near. -/
def candidates (x : F32) (j : Nat) : List Nat :=
  let step := 2 ^ 149 * 10 ^ j
  let below := x.units * 10 ^ 46 / step
  let twice := 2 * (x.units * 10 ^ 46 % step)
  let around := if twice < step then [below, below + 1] else [below + 1, below]
  around.filter fun c => ofRatio (c * 10 ^ j) (10 ^ 46) = x

/-- The shortest decimal that is read back, as a multiple of `10 ^ j / 10 ^ 46`: the powers of ten are
    tried from the largest one on. -/
def shortest (x : F32) : Nat × Nat :=
  ((List.range 86).reverse.findSome? fun j => (x.candidates j).head?.map fun c => (c, j)).getD (0, 0)

/-- Digits with zeros in front of them. -/
def padded (places n : Nat) : String :=
  String.ofList (List.replicate (places - (decimal n).length) '0') ++ decimal n

/-- The text of a multiple of `10 ^ j / 10 ^ 46`, with a point only before digits. -/
def fixed (c j : Nat) : String :=
  if 46 ≤ j then decimal (c * 10 ^ (j - 46))
  else
    let places := 46 - j
    decimal (c / 10 ^ places) ++ "." ++ padded places (c % 10 ^ places)

/-- The text of a number, without an exponent. -/
def toText (x : F32) : String :=
  if x.bits = 0 then "0"
  else if x.bits = infinity then "inf"
  else fixed x.shortest.1 x.shortest.2

theorem mem_padded {places n : Nat} {b : UInt8} (h : b ∈ asBytes (padded places n)) :
    isAsciiDigit b = true := by
  unfold padded at h
  rw [asBytes_append, List.mem_append] at h
  rcases h with hzero | hdigit
  · rw [asBytes_ofList, List.mem_flatMap] at hzero
    obtain ⟨c, hc, hb⟩ := hzero
    rw [List.eq_of_mem_replicate hc] at hb
    revert b
    decide
  · exact isAsciiDigit_of_mem_decimal hdigit

theorem mem_fixed {c j : Nat} {b : UInt8} (h : b ∈ asBytes (fixed c j)) :
    isAsciiDigit b = true ∨ b ∈ asBytes ".inf" := by
  have hpoint : asBytes "." ⊆ asBytes ".inf" := by decide
  unfold fixed at h
  split at h
  · exact .inl (isAsciiDigit_of_mem_decimal h)
  · simp only [asBytes_append, List.mem_append] at h
    rcases h with (hinteger | hmem) | hfraction
    · exact .inl (isAsciiDigit_of_mem_decimal hinteger)
    · exact .inr (hpoint hmem)
    · exact .inl (mem_padded hfraction)

/-- **What a printed number consists of**: digits, a point, or the letters of infinity. -/
theorem mem_toText {x : F32} {b : UInt8} (h : b ∈ asBytes x.toText) :
    isAsciiDigit b = true ∨ b ∈ asBytes ".inf" := by
  have hinf : asBytes "inf" ⊆ asBytes ".inf" := by decide
  have hzero : ∀ b ∈ asBytes "0", isAsciiDigit b = true := by decide
  unfold toText at h
  split at h
  · exact .inl (hzero b h)
  · split at h
    · exact .inr (hinf h)
    · exact mem_fixed h

example : (fromStr "54.20").map toText = some "54.2" := by decide +kernel

example : (fromStr "16777217").map toText = some "16777216" := by decide +kernel

end F32

end Lib
