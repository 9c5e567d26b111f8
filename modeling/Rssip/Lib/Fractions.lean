import Rssip.Lib.Numeral
import Mathlib.Data.Nat.Digits.Defs
import Mathlib.Tactic.Ring

namespace Lib

/-!
# Digits before and behind a point

The number and the fraction that digits stand for, most significant first.

* `number` — the number; behind a point, digits `f` stand for `number f / 10 ^ f.length`;
* `PadsFront`, `PadsBack` — digits with more zeros in front of them, or behind them;
* `number_eq_iff` — digits of one number differ in the zeros in front of them;
* `fraction_eq_iff` — digits of one fraction differ in the zeros behind them.
-/

/-- Nothing but digits. -/
def Digits (bs : Bytes) : Prop := ∀ b ∈ bs, isAsciiDigit b

instance (bs : Bytes) : Decidable (Digits bs) := inferInstanceAs (Decidable (∀ b ∈ bs, _))

/-- The values of digits, the last one first. -/
def digitValues (bs : Bytes) : List Nat := bs.reverse.map fun b => b.toNat - 48

/-- The number that digits stand for. -/
def number (bs : Bytes) : Nat := Nat.ofDigits 10 (digitValues bs)

/-- The second text is the first with zeros in front of it. -/
def PadsFront (f g : Bytes) : Prop := ∃ k, g = List.replicate k 48 ++ f

/-- The second text is the first with zeros behind it. -/
def PadsBack (f g : Bytes) : Prop := ∃ k, g = f ++ List.replicate k 48

variable {f g xs ys : Bytes} {b : UInt8}

/-- The digits by their codes. -/
theorem isAsciiDigit_iff : isAsciiDigit b ↔ 48 ≤ b.toNat ∧ b.toNat ≤ 57 := by
  simp only [isAsciiDigit, Bool.and_eq_true, decide_eq_true_eq, UInt8.le_iff_toNat_le]
  exact Iff.rfl

/-- Two texts of digits make one. -/
theorem Digits.append (hxs : Digits xs) (hys : Digits ys) : Digits (xs ++ ys) :=
  List.forall_mem_append.mpr ⟨hxs, hys⟩

/-- A printed number has nothing but digits. -/
theorem digits_decimal (n : Nat) : Digits (asBytes (decimal n)) := fun _ => isAsciiDigit_of_mem_decimal

/-- There are as many values as digits. -/
@[simp] theorem length_digitValues (bs : Bytes) : (digitValues bs).length = bs.length := by
  simp [digitValues]

/-- The value of a digit is below ten. -/
theorem digitValues_lt (h : Digits f) : ∀ d ∈ digitValues f, d < 10 := by
  intro d hd
  obtain ⟨b, hb, rfl⟩ := List.mem_map.mp hd
  have hdigit := isAsciiDigit_iff.mp (h b (List.mem_reverse.mp hb))
  omega

/-- Digits are told apart by their values. -/
theorem digitValues_inj (hf : Digits f) (hg : Digits g) (h : digitValues f = digitValues g) : f = g := by
  have hinj : ∀ b ∈ f.reverse, ∀ c ∈ g.reverse, b.toNat - 48 = c.toNat - 48 → b = c := by
    intro b hb c hc hbc
    have hb := isAsciiDigit_iff.mp (hf b (List.mem_reverse.mp hb))
    have hc := isAsciiDigit_iff.mp (hg c (List.mem_reverse.mp hc))
    exact UInt8.toNat_inj.mp (by omega)
  have hrev : f.reverse = g.reverse := by
    unfold digitValues at h
    revert h hinj
    generalize f.reverse = xs
    generalize g.reverse = ys
    intro h hinj
    induction xs generalizing ys with
    | nil => simpa using h
    | cons x xs ih =>
      cases ys with
      | nil => simp at h
      | cons y ys =>
        obtain ⟨hhead, htail⟩ := List.cons.inj h
        rw [hinj x (by simp) y (by simp) hhead, ih ys htail fun b hb c hc =>
          hinj b (List.mem_cons_of_mem _ hb) c (List.mem_cons_of_mem _ hc)]
  exact List.reverse_injective hrev

/-! ### Numbers -/

/-- No digits stand for zero. -/
@[simp] theorem number_nil : number [] = 0 := rfl

/-- Digits in front count by the length of what follows them. -/
theorem number_append (xs ys : Bytes) :
    number (xs ++ ys) = number xs * 10 ^ ys.length + number ys := by
  rw [number, digitValues, List.reverse_append, List.map_append, Nat.ofDigits_append]
  simp only [List.length_map, List.length_reverse, number, digitValues]
  ring

/-- Zeros stand for zero. -/
theorem number_replicate (k : Nat) : number (List.replicate k 48) = 0 := by
  rw [number, digitValues, List.reverse_replicate, List.map_replicate]
  exact Nat.ofDigits_replicate_zero

/-- A number is below the power of ten of its length. -/
theorem number_lt (h : Digits f) : number f < 10 ^ f.length := by
  rw [← length_digitValues]
  exact Nat.ofDigits_lt_base_pow_length (by decide) (digitValues_lt h)

/-- Digits of one length stand for different numbers. -/
theorem number_inj (hf : Digits f) (hg : Digits g) (hlen : f.length = g.length)
    (h : number f = number g) : f = g :=
  digitValues_inj hf hg (Nat.ofDigits_inj_of_len_eq (by decide) (by simpa using hlen)
    (digitValues_lt hf) (digitValues_lt hg) h)

/-- Zeros are digits. -/
theorem digits_replicate (k : Nat) : Digits (List.replicate k 48) := by
  intro b hb
  rw [List.eq_of_mem_replicate hb]
  decide

/-- A number is zero only if all of its digits are. -/
theorem number_eq_zero_iff (h : Digits f) : number f = 0 ↔ ∀ b ∈ f, b = 48 := by
  constructor
  · intro hzero
    have hzeros : f = List.replicate f.length 48 := by
      apply number_inj h (digits_replicate _) (by simp)
      rw [hzero, number_replicate]
    exact fun b hb => List.eq_of_mem_replicate (hzeros ▸ hb)
  · intro hzeros
    rw [List.eq_replicate_of_mem hzeros, number_replicate]

/-- The shorter digits are the end of the longer ones, behind zeros. -/
theorem padsFront_of_number_eq (hf : Digits f) (hg : Digits g) (hlen : f.length ≤ g.length)
    (h : number f = number g) : PadsFront f g := by
  refine ⟨g.length - f.length, (number_inj hg ((digits_replicate _).append hf) ?_ ?_)⟩
  · simp
    omega
  · rw [number_append, number_replicate, Nat.zero_mul, Nat.zero_add, h]

/-- **One number**: the digits differ in the zeros in front of them. -/
theorem number_eq_iff (hf : Digits f) (hg : Digits g) :
    number f = number g ↔ PadsFront f g ∨ PadsFront g f := by
  have hpads : ∀ {f g}, PadsFront f g → number f = number g := by
    rintro f g ⟨k, rfl⟩
    rw [number_append, number_replicate, Nat.zero_mul, Nat.zero_add]
  constructor
  · intro h
    rcases Nat.le_total f.length g.length with hlen | hlen
    · exact .inl (padsFront_of_number_eq hf hg hlen h)
    · exact .inr (padsFront_of_number_eq hg hf hlen h.symm)
  · rintro (h | h)
    · exact hpads h
    · exact (hpads h).symm

/-! ### Fractions -/

/-- Two equal fractions differ by zeros behind them. -/
theorem padsBack_of_fraction_eq (hf : Digits f) (hg : Digits g) (hlen : f.length ≤ g.length)
    (h : number f * 10 ^ g.length = number g * 10 ^ f.length) : PadsBack f g := by
  refine ⟨g.length - f.length, (number_inj hg (hf.append (digits_replicate _)) ?_ ?_)⟩
  · simp
    omega
  · rw [number_append, number_replicate, List.length_replicate, Nat.add_zero]
    have hsplit : 10 ^ g.length = 10 ^ (g.length - f.length) * 10 ^ f.length := by
      rw [← pow_add, Nat.sub_add_cancel hlen]
    rw [hsplit, ← Nat.mul_assoc] at h
    exact (Nat.eq_of_mul_eq_mul_right (by positivity) h).symm

/-- **One fraction**: the digits differ in the zeros behind them. -/
theorem fraction_eq_iff (hf : Digits f) (hg : Digits g) :
    number f * 10 ^ g.length = number g * 10 ^ f.length ↔ PadsBack f g ∨ PadsBack g f := by
  have hpads : ∀ {f g}, PadsBack f g →
      number f * 10 ^ g.length = number g * 10 ^ f.length := by
    rintro f g ⟨k, rfl⟩
    rw [number_append, number_replicate, List.length_append, List.length_replicate, pow_add]
    ring
  constructor
  · intro h
    rcases Nat.le_total f.length g.length with hlen | hlen
    · exact .inl (padsBack_of_fraction_eq hf hg hlen h)
    · exact .inr (padsBack_of_fraction_eq hg hf hlen h.symm)
  · rintro (h | h)
    · exact hpads h
    · exact (hpads h).symm

/-! ### Numerals -/

/-- Digits are read as the number that they stand for, behind what was read before. -/
theorem readDigits_of_digits (h : Digits f) (acc : Nat) :
    readDigits 10 acc f = some (acc * 10 ^ f.length + number f) := by
  induction f generalizing acc with
  | nil => simp [readDigits]
  | cons b f ih =>
    obtain ⟨hlo, hhi⟩ := isAsciiDigit_iff.mp (h b List.mem_cons_self)
    have hval : digitVal 10 b = some (b.toNat - 48) := by
      simp only [digitVal, hlo, hhi, and_self, if_true]
      exact if_pos (by omega)
    have hhead : number (b :: f) = (b.toNat - 48) * 10 ^ f.length + number f := by
      have happend := number_append [b] f
      rwa [show number [b] = b.toNat - 48 from Nat.ofDigits_singleton] at happend
    rw [readDigits, hval, Option.bind_some, ih fun x hx => h x (List.mem_cons_of_mem _ hx), hhead,
      List.length_cons, pow_succ]
    congr 1
    ring

/-- Digits are parsed if their number is in range. -/
theorem parseUnsigned_of_digits (hne : f ≠ []) (h : Digits f) (bound : Nat) :
    parseUnsigned bound f = if number f < bound then some (number f) else none := by
  obtain ⟨b, bs, rfl⟩ := List.exists_cons_of_ne_nil hne
  have hplus : b ≠ 43 := by
    rintro rfl
    exact absurd (h 43 List.mem_cons_self) (by decide)
  have hread := readDigits_of_digits h 0
  rw [Nat.zero_mul, Nat.zero_add] at hread
  unfold parseUnsigned
  split
  · rename_i ds heq
    exact absurd (List.cons.inj heq).1 hplus
  · dsimp only
    rw [hread]
    simp [Option.filter]

/-- A printed number stands for itself. -/
@[simp] theorem number_decimal (n : Nat) : number (asBytes (decimal n)) = n := by
  have hparse := parseUnsigned_decimal (Nat.lt_succ_self n)
  rw [parseUnsigned_of_digits (asBytes_decimal_ne_nil n) (digits_decimal n)] at hparse
  split at hparse
  · exact Option.some.inj hparse
  · cases hparse

/-- A printed number starts with a zero only if it is zero. -/
theorem head?_decimal_ne {n : Nat} (hn : n ≠ 0) : (asBytes (decimal n)).head? ≠ some 48 := by
  rw [decimal_eq_numeral]
  exact numeral_head_ne_zero (by decide) (by decide) hn

/-- The zeros in front of a fraction are lost when it is printed as a number. -/
theorem printed_fraction_iff (hf : Digits f) :
    number f * 10 ^ f.length = number f * 10 ^ (asBytes (decimal (number f))).length ↔
      (∀ b ∈ f, b = 48) ∨ f.head? ≠ some 48 := by
  rw [← number_eq_zero_iff hf]
  by_cases hzero : number f = 0
  · simp [hzero]
  have hnumber := number_decimal (number f)
  have hhead := head?_decimal_ne hzero
  have hdigits := digits_decimal (number f)
  generalize asBytes (decimal (number f)) = g at hnumber hhead hdigits
  rw [Nat.mul_right_inj hzero, (Nat.pow_right_injective (by decide : 2 ≤ 10)).eq_iff,
    or_iff_right hzero]
  constructor
  · intro hlen hf48
    rw [number_inj hf hdigits hlen hnumber.symm] at hf48
    exact hhead hf48
  · intro hf48
    have hunpadded : ∀ {f g : Bytes}, PadsFront f g → g.head? ≠ some 48 → g.length = f.length := by
      rintro f g ⟨k, rfl⟩ h48
      cases k with
      | zero => rfl
      | succ k => exact absurd rfl h48
    rcases (number_eq_iff hf hdigits).mp hnumber.symm with hpads | hpads
    · exact (hunpadded hpads hhead).symm
    · exact hunpadded hpads hf48

/-- One of two fractions is the other one with more zeros. -/
def Padded (f g : Bytes) : Prop := (PadsFront f g ∨ PadsFront g f) ∨ PadsBack f g ∨ PadsBack g f

/-- **Numbers in place of fractions** tell the same of digits that do not differ in zeros alone. -/
theorem number_alike_iff (hf : Digits f) (hg : Digits g) :
    (number f = number g ↔ number f * 10 ^ g.length = number g * 10 ^ f.length) ↔
      f = g ∨ (∀ b ∈ f ++ g, b = 48) ∨ ¬ Padded f g := by
  have hzeros : (∀ b ∈ f ++ g, b = 48) ↔ number f = 0 ∧ number g = 0 := by
    rw [List.forall_mem_append, number_eq_zero_iff hf, number_eq_zero_iff hg]
  rw [hzeros, Padded, ← number_eq_iff hf hg, ← fraction_eq_iff hf hg]
  constructor
  · intro h
    by_cases hnumber : number f = number g
    · have hfraction := h.mp hnumber
      by_cases hzero : number f = 0
      · exact .inr (.inl ⟨hzero, hnumber ▸ hzero⟩)
      · rw [← hnumber, Nat.mul_right_inj hzero] at hfraction
        exact .inl (number_inj hf hg (Nat.pow_right_injective (by decide) hfraction).symm hnumber)
    · exact .inr (.inr (not_or.mpr ⟨hnumber, fun hfraction => hnumber (h.mpr hfraction)⟩))
  · rintro (rfl | ⟨hf0, hg0⟩ | hnot)
    · exact iff_of_true rfl rfl
    · exact iff_of_true (hf0.trans hg0.symm) (by rw [hf0, hg0, Nat.zero_mul, Nat.zero_mul])
    · rw [not_or] at hnot
      exact iff_of_false hnot.1 hnot.2

end Lib
