import Rssip.Lib.Utf8
import Mathlib.Tactic.IntervalCases

namespace Lib

/-!
# Numerals

Printing a natural number in a base up to 16 and reading it back.

* `numeral base n` — the digits of `n`, most significant first, no leading zero;
* `readDigits base acc bs` — the digits `bs` read on top of the value `acc`;
* `readDigits_numeral` — reading what was printed gives the number back;
* `parseUnsigned bound bs` — an optional `+`, then a decimal numeral below `bound`.
-/

/-! ### Reading -/

/-- An ASCII decimal digit. -/
def isAsciiDigit (b : UInt8) : Bool := 48 ≤ b && b ≤ 57

/-- The value of the digit `b` in base `base`, at most 16; letters in either case. -/
def digitVal (base : Nat) (b : UInt8) : Option Nat :=
  let c := b.toNat
  let d :=
    if 48 ≤ c ∧ c ≤ 57 then c - 48
    else if 97 ≤ c ∧ c ≤ 102 then c - 87
    else if 65 ≤ c ∧ c ≤ 70 then c - 55
    else base
  if d < base then some d else none

/-- Reads the digits `bs`, most significant first, on top of the value `acc`. -/
def readDigits (base : Nat) : Nat → Bytes → Option Nat
  | acc, [] => some acc
  | acc, b :: bs => (digitVal base b).bind fun d => readDigits base (acc * base + d) bs

/-- An unsigned decimal integer below `bound`, with an optional leading `+`. -/
def parseUnsigned (bound : Nat) (bs : Bytes) : Option Nat :=
  let digits := match bs with
    | 43 :: ds => ds
    | ds => ds
  if digits.isEmpty then none
  else (readDigits 10 0 digits).filter (· < bound)

theorem readDigits_append (base acc : Nat) (xs ys : Bytes) :
    readDigits base acc (xs ++ ys) =
      (readDigits base acc xs).bind fun a => readDigits base a ys := by
  induction xs generalizing acc with
  | nil => rfl
  | cons b bs ih =>
    simp only [List.cons_append, readDigits]
    cases digitVal base b with
    | none => rfl
    | some d => simp only [Option.bind_some, ih]

/-! ### Printing -/

/-- The numeral of `n` in base `base`. -/
def numeral (base n : Nat) : String := String.ofList (Nat.toDigits base n)

/-- The decimal numeral of `n`. -/
def decimal (n : Nat) : String := toString n

theorem decimal_eq_numeral (n : Nat) : decimal n = numeral 10 n :=
  Nat.toString_eq_ofList_toDigits

/-- A digit character is one byte, and that byte has the digit's value. -/
theorem digitChar_spec {d : Nat} (hd : d < 16) :
    ∃ b, String.utf8EncodeChar (Nat.digitChar d) = [b] ∧ b < 0x80 ∧
      ∀ base ≤ 16, d < base → digitVal base b = some d := by
  interval_cases d <;>
    refine ⟨_, rfl, by decide, ?_⟩ <;>
    · intro base _ hd
      simp [digitVal, Nat.digitChar, hd]

/-- The bytes of a numeral are its digits' bytes. -/
theorem asBytes_numeral (base n : Nat) :
    asBytes (numeral base n) = (Nat.toDigits base n).flatMap String.utf8EncodeChar :=
  asBytes_ofList _

theorem asBytes_numeral_ne_nil (base n : Nat) : asBytes (numeral base n) ≠ [] := by
  rw [asBytes_numeral]
  intro h
  rw [List.flatMap_eq_nil_iff] at h
  obtain ⟨c, hc⟩ := List.exists_mem_of_ne_nil _ (Nat.toDigits_ne_nil (n := n) (b := base))
  exact String.utf8EncodeChar_ne_nil (h c hc)

section Base

variable {base : Nat} (hlo : 1 < base) (hhi : base ≤ 16)
include hlo hhi

/-- **Reading a printed numeral gives the number back.** -/
theorem readDigits_numeral (n : Nat) : readDigits base 0 (asBytes (numeral base n)) = some n := by
  rw [asBytes_numeral]
  induction n using Nat.strongRecOn with
  | ind n ih =>
    by_cases hn : n < base
    · obtain ⟨b, hb, -, hval⟩ := digitChar_spec (d := n) (by omega)
      rw [Nat.toDigits_of_lt_base hn, List.flatMap_singleton, hb]
      simp [readDigits, hval base hhi hn]
    · -- one digit after the numeral of the quotient
      have hle : base ≤ n := by omega
      have hmod : n % base < base := Nat.mod_lt _ (by omega)
      obtain ⟨b, hb, -, hval⟩ := digitChar_spec (d := n % base) (by omega)
      rw [Nat.toDigits_of_base_le hlo hle, List.flatMap_append, readDigits_append,
        ih (n / base) (Nat.div_lt_self (by omega) hlo), Option.bind_some,
        List.flatMap_singleton, hb]
      simp only [readDigits, hval base hhi hmod, Option.bind_some, Option.some.injEq]
      rw [Nat.mul_comm]
      exact Nat.div_add_mod n base

/-- Every byte of a numeral is an ASCII digit of the base. -/
theorem digit_of_mem_numeral {n : Nat} {b : UInt8} (hb : b ∈ asBytes (numeral base n)) :
    b < 0x80 ∧ (digitVal base b).isSome := by
  rw [asBytes_numeral] at hb
  induction n using Nat.strongRecOn with
  | ind n ih =>
    by_cases hn : n < base
    · obtain ⟨c, hc, hlt, hval⟩ := digitChar_spec (d := n) (by omega)
      rw [Nat.toDigits_of_lt_base hn, List.flatMap_singleton, hc, List.mem_singleton] at hb
      subst hb
      exact ⟨hlt, by rw [hval base hhi hn]; rfl⟩
    · have hmod : n % base < base := Nat.mod_lt _ (by omega)
      obtain ⟨c, hc, hlt, hval⟩ := digitChar_spec (d := n % base) (by omega)
      rw [Nat.toDigits_of_base_le hlo (by omega), List.flatMap_append, List.mem_append,
        List.flatMap_singleton, hc, List.mem_singleton] at hb
      rcases hb with hb | rfl
      · exact ih (n / base) (Nat.div_lt_self (by omega) hlo) hb
      · exact ⟨hlt, by rw [hval base hhi hmod]; rfl⟩

/-- A numeral starts with `0` only when it is `0`. -/
theorem numeral_head_ne_zero {n : Nat} (hn : n ≠ 0) :
    (asBytes (numeral base n)).head? ≠ some 48 := by
  rw [asBytes_numeral]
  induction n using Nat.strongRecOn with
  | ind n ih =>
    by_cases hlt : n < base
    · obtain ⟨c, hc, -, hval⟩ := digitChar_spec (d := n) (by omega)
      rw [Nat.toDigits_of_lt_base hlt, List.flatMap_singleton, hc]
      intro h
      rw [List.head?_cons, Option.some.injEq] at h
      have h0 := hval base hhi hlt
      rw [h, show digitVal base 48 = some 0 by simp [digitVal]; omega] at h0
      exact hn (Option.some.inj h0).symm
    · have hq : n / base ≠ 0 := by
        have := Nat.div_pos (by omega : base ≤ n) (by omega)
        omega
      have hne : (Nat.toDigits base (n / base)).flatMap String.utf8EncodeChar ≠ [] := by
        rw [← asBytes_numeral]
        exact asBytes_numeral_ne_nil _ _
      rw [Nat.toDigits_of_base_le hlo (by omega), List.flatMap_append,
        List.head?_append_of_ne_nil _ hne]
      exact ih (n / base) (Nat.div_lt_self (by omega) hlo) hq

/-- A number below `base ^ k` has at most `k` digits. -/
theorem length_numeral_le {n k : Nat} (hk : 0 < k) (hn : n < base ^ k) :
    (asBytes (numeral base n)).length ≤ k := by
  have hlen : (asBytes (numeral base n)).length = (Nat.toDigits base n).length := by
    rw [asBytes_numeral]
    clear hn
    induction n using Nat.strongRecOn with
    | ind n ih =>
      by_cases hn : n < base
      · obtain ⟨c, hc, -⟩ := digitChar_spec (d := n) (by omega)
        rw [Nat.toDigits_of_lt_base hn, List.flatMap_singleton, hc]
        rfl
      · have hmod : n % base < base := Nat.mod_lt _ (by omega)
        obtain ⟨c, hc, -⟩ := digitChar_spec (d := n % base) (by omega)
        rw [Nat.toDigits_of_base_le hlo (by omega), List.flatMap_append, List.length_append,
          ih (n / base) (Nat.div_lt_self (by omega) hlo), List.flatMap_singleton, hc,
          List.length_append]
        rfl
  rw [hlen]
  exact (Nat.length_toDigits_le_iff hlo hk).mpr hn

end Base

/-! ### Decimal -/

theorem isAsciiDigit_of_digitVal {b : UInt8} (h : (digitVal 10 b).isSome) : isAsciiDigit b := by
  unfold digitVal at h
  dsimp only at h
  simp only [isAsciiDigit, Bool.and_eq_true, decide_eq_true_eq, UInt8.le_iff_toNat_le]
  have h48 : (48 : UInt8).toNat = 48 := rfl
  have h57 : (57 : UInt8).toNat = 57 := rfl
  split_ifs at h <;> first | omega | simp at h

theorem isAsciiDigit_of_mem_decimal {n : Nat} {b : UInt8} (hb : b ∈ asBytes (decimal n)) :
    isAsciiDigit b := by
  rw [decimal_eq_numeral] at hb
  exact isAsciiDigit_of_digitVal (digit_of_mem_numeral (by decide) (by decide) hb).2

theorem asBytes_decimal_ne_nil (n : Nat) : asBytes (decimal n) ≠ [] := by
  rw [decimal_eq_numeral]
  exact asBytes_numeral_ne_nil 10 n

/-- A printed number is parsed when it is in range. -/
theorem parseUnsigned_decimal_eq (n bound : Nat) :
    parseUnsigned bound (asBytes (decimal n)) = if n < bound then some n else none := by
  have hread := readDigits_numeral (by decide : 1 < 10) (by decide) n
  rw [← decimal_eq_numeral] at hread
  have hplus : 43 ∉ asBytes (decimal n) := fun hmem =>
    absurd (isAsciiDigit_of_mem_decimal hmem) (by decide)
  have hne := asBytes_decimal_ne_nil n
  unfold parseUnsigned
  generalize asBytes (decimal n) = bs at hread hplus hne
  match bs, hne with
  | b :: bs, _ =>
    have hb : b ≠ 43 := fun hb => hplus (hb ▸ List.mem_cons_self)
    split
    · rename_i ds heq
      exact absurd (List.cons.inj heq).1 hb
    · simp [hread, Option.filter]

/-- **Parsing a printed number gives it back**, when it is in range. -/
theorem parseUnsigned_decimal {n bound : Nat} (h : n < bound) :
    parseUnsigned bound (asBytes (decimal n)) = some n := by
  rw [parseUnsigned_decimal_eq, if_pos h]

theorem decimal_injective : Function.Injective decimal := fun m n h => by
  have hm : m < max m n + 1 := by omega
  have hn : n < max m n + 1 := by omega
  have hparse := parseUnsigned_decimal hm
  rw [h, parseUnsigned_decimal hn] at hparse
  exact (Option.some.inj hparse).symm

theorem parseUnsigned_lt {bs : Bytes} {n bound : Nat} (h : parseUnsigned bound bs = some n) :
    n < bound := by
  unfold parseUnsigned at h
  dsimp only at h
  rw [Option.ite_none_left_eq_some] at h
  simpa using (Option.filter_eq_some_iff.mp h.2).2

example : parseUnsigned 256 (asBytes "+255") = some 255 := by decide
example : parseUnsigned 256 (asBytes "256") = none := by decide

end Lib
