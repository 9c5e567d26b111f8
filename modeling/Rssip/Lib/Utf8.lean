import Mathlib.Data.List.Basic

namespace Lib

/-!
# Strings and their UTF-8 bytes

A text is a `String`; what travels and what is scanned is a list of bytes.  This file
holds the two directions:

* `asBytes` — the UTF-8 bytes of a string, a homomorphism for `++` and injective;
* `fromUtf8` — the string with given bytes, if they are valid UTF-8.  It inverts
  `asBytes` (`fromUtf8_asBytes`) and accepts every ASCII text (`exists_asBytes_of_ascii`);
* `fromUtf8_split` — an ASCII byte never lies inside a multi-byte character, so
  both sides of it are valid UTF-8 when the whole is.
-/

/-- A sequence of bytes. -/
abbrev Bytes := List UInt8

/-- What holds of all bytes of a sequence is decided along the sequence, not over all bytes. -/
instance decidableForallMemBytes {p : UInt8 → Prop} [DecidablePred p] (bs : Bytes) :
    Decidable (∀ b ∈ bs, p b) :=
  List.decidableBAll p bs

instance decidableForallMemByte {p : UInt8 → Prop} [DecidablePred p] (o : Option UInt8) :
    Decidable (∀ b ∈ o, p b) :=
  Option.decidableForallMem o

/-- The UTF-8 bytes of a string. -/
def asBytes (s : String) : Bytes := s.toByteArray.data.toList

/-- The string whose UTF-8 bytes are `bs`, or `none` when they are not valid UTF-8. -/
def fromUtf8 (bs : Bytes) : Option String := String.fromUTF8? ⟨bs.toArray⟩

/-- `fromUtf8` for bytes the caller knows to be valid (the empty string otherwise). -/
def fromUtf8Unchecked (bs : Bytes) : String := (fromUtf8 bs).getD ""

@[simp] theorem asBytes_empty : asBytes "" = [] := by decide

@[simp] theorem asBytes_append (s t : String) : asBytes (s ++ t) = asBytes s ++ asBytes t := by
  simp [asBytes, String.toByteArray_append]

theorem asBytes_injective : Function.Injective asBytes := by
  intro s t h
  have hdata : s.toByteArray.data = t.toByteArray.data := Array.toList_inj.mp h
  exact String.toByteArray_inj.mp (ByteArray.ext hdata)

theorem asBytes_inj {s t : String} : asBytes s = asBytes t ↔ s = t :=
  asBytes_injective.eq_iff

/-- `fromUtf8` succeeds exactly on the bytes of a string, and gives that string. -/
theorem fromUtf8_eq_some_iff {bs : Bytes} {s : String} :
    fromUtf8 bs = some s ↔ asBytes s = bs := by
  unfold fromUtf8 String.fromUTF8?
  by_cases hv : (ByteArray.mk bs.toArray).IsValidUTF8
  · rw [dif_pos hv, Option.some.injEq]
    constructor
    · rintro rfl
      simp [asBytes, String.fromUTF8]
    · intro h
      apply asBytes_injective
      simp [asBytes, String.fromUTF8, ← h]
  · rw [dif_neg hv]
    constructor
    · intro h; simp at h
    · rintro rfl
      exact absurd s.isValidUTF8 hv

@[simp] theorem fromUtf8_asBytes (s : String) : fromUtf8 (asBytes s) = some s :=
  fromUtf8_eq_some_iff.mpr rfl

@[simp] theorem fromUtf8Unchecked_asBytes (s : String) : fromUtf8Unchecked (asBytes s) = s := by
  simp [fromUtf8Unchecked]

/-! ### ASCII letters -/

/-- An ASCII letter in lower case; every other byte itself. -/
def toAsciiLower (b : UInt8) : UInt8 := if 65 ≤ b ∧ b ≤ 90 then b + 32 else b

/-- Equality up to the case of ASCII letters. -/
def eqIgnoreAsciiCase (xs ys : Bytes) : Bool := xs.map toAsciiLower == ys.map toAsciiLower

/-- An ASCII letter. -/
def isAsciiAlphabetic (b : UInt8) : Bool := (65 ≤ b && b ≤ 90) || (97 ≤ b && b ≤ 122)

/-- What is checked for each of the 256 bytes. -/
theorem forall_byte_of_lt {p : UInt8 → Prop} (h : ∀ n < 256, p (UInt8.ofNat n)) (b : UInt8) : p b := by
  have hb := h b.toNat b.toNat_lt
  rwa [UInt8.ofNat_toNat] at hb

/-! ### Characters and their bytes -/

theorem asBytes_ofList (cs : List Char) :
    asBytes (String.ofList cs) = cs.flatMap String.utf8EncodeChar := by
  simp [asBytes, String.ofList, List.utf8Encode]

theorem exists_chars (s : String) : ∃ cs : List Char, s = String.ofList cs :=
  ⟨s.toList, by simp⟩

/-- A byte below `0x80` in the encoding of a character is the whole encoding. -/
theorem utf8EncodeChar_of_mem_ascii {c : Char} {b : UInt8} (hb : b < 0x80)
    (h : b ∈ String.utf8EncodeChar c) : String.utf8EncodeChar c = [b] := by
  have hb' : b.toNat < 128 := hb
  unfold String.utf8EncodeChar at h ⊢
  dsimp only at h ⊢
  split_ifs at h ⊢ with h1 h2 h3
  · simp only [List.mem_singleton] at h
    rw [h]
  all_goals
    exfalso
    simp only [List.mem_cons, List.not_mem_nil, or_false, ← UInt8.toNat_inj,
      UInt8.toNat_ofNat'] at h
    omega

/-- Splitting the bytes of a text at an ASCII byte splits the text. -/
theorem flatMap_utf8EncodeChar_split {b : UInt8} (hb : b < 0x80) :
    ∀ (cs : List Char) (p q : Bytes), cs.flatMap String.utf8EncodeChar = p ++ b :: q →
      ∃ cs₁ cs₂ : List Char, cs₁.flatMap String.utf8EncodeChar = p ∧
        cs₂.flatMap String.utf8EncodeChar = q
  | [], p, q, h => by simp at h
  | c :: cs, p, q, h => by
    rw [List.flatMap_cons, List.append_eq_append_iff] at h
    rcases h with ⟨p', rfl, hrest⟩ | ⟨q', henc, hrest⟩
    · -- the byte comes after `c`
      obtain ⟨cs₁, cs₂, h₁, h₂⟩ := flatMap_utf8EncodeChar_split hb cs p' q hrest
      exact ⟨c :: cs₁, cs₂, by rw [List.flatMap_cons, h₁], h₂⟩
    · cases q' with
      | nil =>
        -- the byte is the first of what follows `c`
        simp only [List.append_nil, List.nil_append] at henc hrest
        obtain ⟨cs₁, cs₂, h₁, h₂⟩ := flatMap_utf8EncodeChar_split hb cs [] q hrest.symm
        exact ⟨c :: cs₁, cs₂, by rw [List.flatMap_cons, h₁, henc, List.append_nil], h₂⟩
      | cons d q' =>
        -- the byte is one of `c`'s, hence `c` is that byte
        simp only [List.cons_append, List.cons.injEq] at hrest
        obtain ⟨rfl, rfl⟩ := hrest
        have hone := utf8EncodeChar_of_mem_ascii hb (c := c) (by simp [henc])
        rw [hone] at henc
        have hlen := congrArg List.length henc
        simp only [List.length_append, List.length_cons, List.length_nil] at hlen
        have hp : p = [] := List.eq_nil_of_length_eq_zero (by omega)
        have hq : q' = [] := List.eq_nil_of_length_eq_zero (by omega)
        exact ⟨[], cs, by simp [hp], by simp [hq]⟩

/-- **Both sides of an ASCII byte are valid UTF-8.** -/
theorem fromUtf8_split {s : String} {b : UInt8} (hb : b < 0x80) {p q : Bytes}
    (h : asBytes s = p ++ b :: q) :
    ∃ s₁ s₂ : String, asBytes s₁ = p ∧ asBytes s₂ = q := by
  obtain ⟨cs, rfl⟩ := exists_chars s
  rw [asBytes_ofList] at h
  obtain ⟨cs₁, cs₂, h₁, h₂⟩ := flatMap_utf8EncodeChar_split hb cs p q h
  exact ⟨String.ofList cs₁, String.ofList cs₂, by rw [asBytes_ofList, h₁],
    by rw [asBytes_ofList, h₂]⟩

/-- **Every ASCII text is valid UTF-8.** -/
theorem exists_asBytes_of_ascii {bs : Bytes} (h : ∀ b ∈ bs, b < 0x80) :
    ∃ s : String, asBytes s = bs := by
  induction bs with
  | nil => exact ⟨"", asBytes_empty⟩
  | cons b bs ih =>
    obtain ⟨s, hs⟩ := ih (fun x hx => h x (List.mem_cons_of_mem _ hx))
    have hb : b.toNat < 128 := h b List.mem_cons_self
    refine ⟨String.ofList [Char.ofNat b.toNat] ++ s, ?_⟩
    have hvalid : b.toNat.isValidChar := Or.inl (by omega)
    have hc : (Char.ofNat b.toNat).toNat = b.toNat := by
      rw [Char.ofNat, dif_pos hvalid]
      rfl
    have henc : String.utf8EncodeChar (Char.ofNat b.toNat) = [b] := by
      unfold String.utf8EncodeChar
      have hv : (Char.ofNat b.toNat).val.toNat = b.toNat := hc
      simp only [hv]
      rw [if_pos (by omega)]
      simp
    rw [asBytes_append, asBytes_ofList, hs]
    simp [henc]

end Lib
