import Rssip.Lib.Fractions
import Rssip.Message.Basic
import Mathlib.Algebra.Order.Field.Basic
import Mathlib.Tactic.Positivity
import Mathlib.Tactic.Linarith

namespace Rssip

open Lib

/-!
# The magnitude of quality values

A quality value is kept as two bytes, the numbers before and behind its point.

* `DecimalText` — a decimal number as it is written, with its `value`;
* `KeepsMagnitude` — what two such texts are read as tells their values;
* `keepsMagnitude_iff` — when it does: zeros in front of and behind the digits of a fraction matter
  in the other way than for its value, and three digits do not fit into a byte.
-/

/-- A decimal number as it is written. -/
structure DecimalText where
  whole : String
  fraction : Option String
  whole_ne : asBytes whole ≠ []
  digits_whole : Digits (asBytes whole)
  digits_fraction : ∀ f ∈ fraction, Digits (asBytes f)

namespace DecimalText

/-- The text of a number, with a point in front of its fraction if it has one. -/
def text (x : DecimalText) : String := x.whole ++ x.fraction.elim "" ("." ++ ·)

/-- The digits behind the point. -/
def decimals (x : DecimalText) : Bytes := asBytes (x.fraction.getD "")

/-- The number that is written. -/
def value (x : DecimalText) : ℚ :=
  number (asBytes x.whole) + number x.decimals / 10 ^ x.decimals.length

/-- `qvalue`: at most one, with at most three digits behind the point. -/
def IsQvalue (x : DecimalText) : Prop :=
  (x.whole = "0" ∧ ∀ f ∈ x.fraction, (asBytes f).length ≤ 3) ∨
    (x.whole = "1" ∧ ∀ f ∈ x.fraction, (asBytes f).length ≤ 3 ∧ ∀ b ∈ asBytes f, b = 48)

/-- There are digits behind the point, and their number is a byte. -/
def FractionFits (x : DecimalText) : Prop :=
  ∀ f ∈ x.fraction, asBytes f ≠ [] ∧ number (asBytes f) < 256

/-- Both numbers are bytes. -/
def Fits (x : DecimalText) : Prop := number (asBytes x.whole) < 256 ∧ x.FractionFits

instance (x : DecimalText) : Decidable x.FractionFits :=
  inferInstanceAs (Decidable (∀ f ∈ x.fraction, _))

instance (x : DecimalText) : Decidable x.Fits := inferInstanceAs (Decidable (_ ∧ _))

theorem digits_decimals (x : DecimalText) : Digits x.decimals := by
  cases h : x.fraction with
  | none => simp [decimals, h, Digits]
  | some f => simpa [decimals, h] using x.digits_fraction f h

end DecimalText

/-- What is printed behind `;q=`. -/
def Q.printed (q : Q) : DecimalText where
  whole := decimal q.a.toNat
  fraction := some (decimal q.b.toNat)
  whole_ne := asBytes_decimal_ne_nil _
  digits_whole := digits_decimal _
  digits_fraction := by
    rintro f ⟨⟩
    exact digits_decimal _

theorem Q.toText_eq (q : Q) : q.toText = ";q=" ++ q.printed.text := by
  simp [Q.toText, Q.printed, DecimalText.text, String.append_assoc]

/-! ### What is read -/

theorem u8FromStr_of_digits {f : Bytes} (hne : f ≠ []) (h : Digits f) :
    u8FromStr (fromUtf8Unchecked f) =
      if number f < 256 then some (UInt8.ofNat (number f)) else none := by
  have hbytes : asBytes (fromUtf8Unchecked f) = f := by
    obtain ⟨s, rfl⟩ : ∃ s, asBytes s = f := exists_asBytes_of_ascii fun b hb =>
      UInt8.lt_iff_toNat_lt.mpr (Nat.lt_of_le_of_lt (isAsciiDigit_iff.mp (h b hb)).2 (by decide))
    rw [fromUtf8Unchecked_asBytes]
  rw [u8FromStr, hbytes, parseUnsigned_of_digits hne h]
  exact apply_ite (UInt8.ofNat <$> ·) _ _ _

/-- **A decimal number is read** as its two numbers, if they are bytes. -/
theorem Q.fromStr_text (x : DecimalText) : Q.fromStr x.text =
    if x.Fits then some ⟨.ofNat (number (asBytes x.whole)), .ofNat (number x.decimals)⟩ else none := by
  have hdot : ∀ {f : Bytes}, Digits f → 46 ∉ f := fun h hmem => absurd (h 46 hmem) (by decide)
  have hwhole := u8FromStr_of_digits x.whole_ne x.digits_whole
  cases hfraction : x.fraction with
  | none =>
    have htext : x.text = x.whole := by simp [DecimalText.text, hfraction]
    have hfits : x.Fits ↔ number (asBytes x.whole) < 256 := by
      simp [DecimalText.Fits, DecimalText.FractionFits, hfraction]
    rw [fromUtf8Unchecked_asBytes] at hwhole
    rw [Q.fromStr, htext, rsplitOnce_of_not_mem (hdot x.digits_whole), hwhole]
    simp only [hfits]
    split <;> simp [DecimalText.decimals, hfraction]
  | some f =>
    have hf := x.digits_fraction f hfraction
    have htext : asBytes x.text = asBytes x.whole ++ 46 :: asBytes f := by
      simp [DecimalText.text, hfraction, show asBytes "." = [46] by decide]
    have hfits : x.Fits ↔ number (asBytes x.whole) < 256 ∧ asBytes f ≠ [] ∧ number (asBytes f) < 256 := by
      simp [DecimalText.Fits, DecimalText.FractionFits, hfraction]
    have hdecimals : x.decimals = asBytes f := by simp [DecimalText.decimals, hfraction]
    rw [Q.fromStr, htext, rsplitOnce_append _ (hdot hf)]
    dsimp only
    rw [hwhole]
    simp only [hfits, hdecimals]
    by_cases hne : asBytes f = []
    · simp [hne, show u8FromStr (fromUtf8Unchecked []) = none by decide]
    · rw [u8FromStr_of_digits hne hf]
      by_cases hlow : number (asBytes x.whole) < 256 <;> by_cases hlow' : number (asBytes f) < 256 <;>
        simp [hne, hlow, hlow']

/-! ### Values -/

namespace DecimalText

/-- Both parts tell: the digits behind the point are less than one. -/
theorem value_eq_iff {x y : DecimalText} : x.value = y.value ↔
    number (asBytes x.whole) = number (asBytes y.whole) ∧
      number x.decimals * 10 ^ y.decimals.length = number y.decimals * 10 ^ x.decimals.length := by
  have hfraction : ∀ z : DecimalText, (0 : ℚ) ≤ number z.decimals / 10 ^ z.decimals.length ∧
      (number z.decimals / 10 ^ z.decimals.length : ℚ) < 1 := by
    intro z
    refine ⟨by positivity, (div_lt_one (by positivity)).mpr ?_⟩
    exact_mod_cast number_lt z.digits_decimals
  have hx := hfraction x
  have hy := hfraction y
  have hcross : (number x.decimals / 10 ^ x.decimals.length : ℚ) =
      number y.decimals / 10 ^ y.decimals.length ↔
        number x.decimals * 10 ^ y.decimals.length = number y.decimals * 10 ^ x.decimals.length := by
    rw [div_eq_div_iff (by positivity) (by positivity)]
    exact_mod_cast Iff.rfl
  rw [← hcross, value, value]
  constructor
  · intro h
    have hwhole : number (asBytes x.whole) = number (asBytes y.whole) := by
      have hlt : (number (asBytes x.whole) : ℚ) < number (asBytes y.whole) + 1 := by linarith
      have hgt : (number (asBytes y.whole) : ℚ) < number (asBytes x.whole) + 1 := by linarith
      have hlt : number (asBytes x.whole) < number (asBytes y.whole) + 1 := by exact_mod_cast hlt
      have hgt : number (asBytes y.whole) < number (asBytes x.whole) + 1 := by exact_mod_cast hgt
      omega
    refine ⟨hwhole, ?_⟩
    rw [hwhole] at h
    linarith
  · rintro ⟨hwhole, hdecimals⟩
    rw [hwhole, hdecimals]

end DecimalText

/-- What two decimal numbers are read as tells their values, and quality values are read. -/
structure KeepsMagnitude (x y : DecimalText) : Prop where
  printed : ∀ q, Q.fromStr x.text = some q → q.printed.value = x.value
  apart : ∀ q r, Q.fromStr x.text = some q → Q.fromStr y.text = some r →
    (q = r ↔ x.value = y.value)
  accepted : x.IsQvalue → (Q.fromStr x.text).isSome

/-- Zeros do not matter, and the digits behind the point fit into a byte. -/
structure PlainDecimals (x y : DecimalText) : Prop where
  front : x.Fits → (∀ b ∈ x.decimals, b = 48) ∨ x.decimals.head? ≠ some 48
  unpadded : x.Fits → y.Fits → number (asBytes x.whole) = number (asBytes y.whole) →
    x.decimals = y.decimals ∨ (∀ b ∈ x.decimals ++ y.decimals, b = 48) ∨
      ¬ Padded x.decimals y.decimals
  fits : x.IsQvalue → x.FractionFits

namespace DecimalText

variable {x y : DecimalText}

/-- What is read of a number whose parts are bytes. -/
def read (x : DecimalText) : Q := ⟨.ofNat (number (asBytes x.whole)), .ofNat (number x.decimals)⟩

theorem fromStr_eq_some_iff {q : Q} : Q.fromStr x.text = some q ↔ x.Fits ∧ q = x.read := by
  rw [Q.fromStr_text, Option.ite_none_right_eq_some, Option.some.injEq, eq_comm (a := q), read]

theorem toNat_decimals (h : x.Fits) : x.read.b.toNat = number x.decimals := by
  refine UInt8.toNat_ofNat_of_lt' ?_
  cases hfraction : x.fraction with
  | none => simp [decimals, hfraction]
  | some f => simpa [decimals, hfraction] using (h.2 f hfraction).2

theorem toNat_whole (h : x.Fits) : x.read.a.toNat = number (asBytes x.whole) :=
  UInt8.toNat_ofNat_of_lt' h.1

theorem read_inj (hx : x.Fits) (hy : y.Fits) : x.read = y.read ↔
    number (asBytes x.whole) = number (asBytes y.whole) ∧ number x.decimals = number y.decimals := by
  rw [← toNat_whole hx, ← toNat_whole hy, ← toNat_decimals hx, ← toNat_decimals hy,
    UInt8.toNat_inj, UInt8.toNat_inj]
  exact iff_of_eq (Q.mk.injEq ..)

/-- The printed value is that of the text unless zeros are lost. -/
theorem value_printed_iff (h : x.Fits) : x.read.printed.value = x.value ↔
    (∀ b ∈ x.decimals, b = 48) ∨ x.decimals.head? ≠ some 48 := by
  have hdecimals : x.read.printed.decimals = asBytes (decimal (number x.decimals)) := by
    rw [← toNat_decimals h]
    rfl
  have hwhole : number (asBytes x.read.printed.whole) = number (asBytes x.whole) := by
    rw [← toNat_whole h]
    exact number_decimal _
  rw [value_eq_iff, and_iff_right hwhole, hdecimals, number_decimal, printed_fraction_iff x.digits_decimals]

/-- A quality value has a whole part that fits. -/
theorem fits_iff_of_isQvalue (h : x.IsQvalue) : x.Fits ↔ x.FractionFits := by
  refine and_iff_right ?_
  rcases h with ⟨hwhole, -⟩ | ⟨hwhole, -⟩ <;>
  · rw [hwhole]
    decide

end DecimalText

open DecimalText in
/-- **When the magnitude is kept.** Decimal texts are read and printed by their magnitude exactly if
    zeros do not matter, those in front of the decimals or behind them, and the decimals of a
    quality value fit into a byte: the digits behind the point are read as a number of their own. -/
theorem keepsMagnitude_iff (x y : DecimalText) : KeepsMagnitude x y ↔ PlainDecimals x y := by
  have hapart : x.Fits → y.Fits → ((x.read = y.read ↔ x.value = y.value) ↔
      (number (asBytes x.whole) = number (asBytes y.whole) →
        x.decimals = y.decimals ∨ (∀ b ∈ x.decimals ++ y.decimals, b = 48) ∨
          ¬ Padded x.decimals y.decimals)) := by
    intro hx hy
    rw [read_inj hx hy, value_eq_iff, ← number_alike_iff x.digits_decimals y.digits_decimals]
    exact and_congr_right_iff
  constructor
  · intro h
    refine ⟨fun hx => ?_, fun hx hy => ?_, fun hq => ?_⟩
    · exact (value_printed_iff hx).mp (h.printed _ (fromStr_eq_some_iff.mpr ⟨hx, rfl⟩))
    · exact (hapart hx hy).mp (h.apart _ _ (fromStr_eq_some_iff.mpr ⟨hx, rfl⟩)
        (fromStr_eq_some_iff.mpr ⟨hy, rfl⟩))
    · obtain ⟨q, hread⟩ := Option.isSome_iff_exists.mp (h.accepted hq)
      exact (fits_iff_of_isQvalue hq).mp (fromStr_eq_some_iff.mp hread).1
  · intro h
    refine ⟨fun q hread => ?_, fun q r hread hread' => ?_, fun hq => ?_⟩
    · obtain ⟨hx, rfl⟩ := fromStr_eq_some_iff.mp hread
      exact (value_printed_iff hx).mpr (h.front hx)
    · obtain ⟨hx, rfl⟩ := fromStr_eq_some_iff.mp hread
      obtain ⟨hy, rfl⟩ := fromStr_eq_some_iff.mp hread'
      exact (hapart hx hy).mpr (h.unpadded hx hy)
    · exact Option.isSome_iff_exists.mpr
        ⟨_, fromStr_eq_some_iff.mpr ⟨(fits_iff_of_isQvalue hq).mpr (h.fits hq), rfl⟩⟩

/-- `0.` and the given digits. -/
def DecimalText.below (digits : String) (h : Digits (asBytes digits)) : DecimalText where
  whole := "0"
  fraction := some digits
  whole_ne := by decide
  digits_whole := by decide
  digits_fraction := by
    rintro f ⟨⟩
    exact h

/-- `0.05` is printed as `0.5`, `0.5` and `0.50` are not equal, and `0.300` is not read. -/
theorem not_keepsMagnitude : ∃ three five five' fifty threeHundred : DecimalText,
    five'.text = "0.05" ∧ ¬ KeepsMagnitude five' five ∧ fifty.text = "0.50" ∧
      ¬ KeepsMagnitude five fifty ∧ threeHundred.text = "0.300" ∧ ¬ KeepsMagnitude threeHundred three := by
  refine ⟨.below "3" (by decide), .below "5" (by decide), .below "05" (by decide),
    .below "50" (by decide), .below "300" (by decide), by decide, fun h => ?_, by decide, fun h => ?_,
    by decide, fun h => ?_⟩
  · have hprinted := h.printed ⟨0, 5⟩ (by decide)
    exact absurd hprinted (by decide +kernel)
  · have hapart := h.apart ⟨0, 5⟩ ⟨0, 50⟩ (by decide) (by decide)
    exact absurd (hapart.mpr (by decide +kernel)) (by decide)
  · exact absurd (h.accepted (.inl ⟨rfl, by decide⟩)) (by decide)

end Rssip
