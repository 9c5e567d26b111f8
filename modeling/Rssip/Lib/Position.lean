import Mathlib.Data.List.Basic
import Mathlib.Data.List.DropRight

namespace Lib

/-!
# Positions in a list

The first and the last element that satisfy a condition, as the point where a list is split.

* `rposition` — the place of the last such element, `sinceLast` — how many there are behind it;
* `findIdx?_cases`, `rposition_cases` — the two halves of the list around it;
* `insertIdx_append_length`, `eraseIdx_append_length` — changes at the point of the split;
* `cons_eq_append_singleton_iff` — when a list is the same after its first element has moved to
  the end.
-/

variable {α : Type}

/-! ### The first and the last element -/

/-- The place of the last element that satisfies `p`. -/
def rposition (p : α → Bool) : List α → Option Nat
  | [] => none
  | a :: l =>
    match rposition p l with
    | some i => some (i + 1)
    | none => if p a then some 0 else none

/-- **The first element that satisfies `p`**, and what stands around it. -/
theorem findIdx?_cases (p : α → Bool) (l : List α) :
    ((∀ a ∈ l, p a = false) ∧ l.findIdx? p = none) ∨
      ∃ before a after, l = before ++ a :: after ∧ p a = true ∧ (∀ b ∈ before, p b = false) ∧
        l.findIdx? p = some before.length := by
  induction l with
  | nil => exact .inl ⟨by simp, rfl⟩
  | cons b l ih =>
    by_cases hb : p b = true
    · refine .inr ⟨[], b, l, rfl, hb, by simp, ?_⟩
      rw [List.findIdx?_cons, if_pos hb]
      rfl
    · have hb : p b = false := Bool.not_eq_true _ ▸ hb
      rw [List.findIdx?_cons, hb]
      rcases ih with ⟨hnone, hidx⟩ | ⟨before, a, after, rfl, ha, hbefore, hidx⟩
      · refine .inl ⟨List.forall_mem_cons.mpr ⟨hb, hnone⟩, ?_⟩
        rw [hidx]
        rfl
      · refine .inr ⟨b :: before, a, after, rfl, ha, List.forall_mem_cons.mpr ⟨hb, hbefore⟩, ?_⟩
        rw [hidx]
        rfl

/-- A list is split at its first element that satisfies `p` in one way only. -/
theorem append_cons_inj_of_first {p : α → Bool} {before before' : List α} {a a' : α}
    {after after' : List α} (hbefore : ∀ b ∈ before, p b = false)
    (hbefore' : ∀ b ∈ before', p b = false) (ha : p a = true) (ha' : p a' = true)
    (h : before ++ a :: after = before' ++ a' :: after') :
    before = before' ∧ a = a' ∧ after = after' := by
  induction before generalizing before' with
  | nil =>
    cases before' with
    | nil => exact ⟨rfl, List.cons.inj h⟩
    | cons b before' =>
      obtain ⟨rfl, -⟩ := List.cons.inj h
      rw [hbefore' a List.mem_cons_self] at ha
      cases ha
  | cons b before ih =>
    obtain ⟨hb, hbefore⟩ := List.forall_mem_cons.mp hbefore
    cases before' with
    | nil =>
      obtain ⟨rfl, -⟩ := List.cons.inj h
      rw [hb] at ha'
      cases ha'
    | cons b' before' =>
      obtain ⟨rfl, htail⟩ := List.cons.inj h
      obtain ⟨hsame, hrest⟩ := ih hbefore (List.forall_mem_cons.mp hbefore').2 htail
      exact ⟨congrArg _ hsame, hrest⟩

/-- Behind the last element that satisfies `p` there is no other. -/
theorem rposition_append {p : α → Bool} {a : α} (ha : p a = true) {after : List α}
    (hafter : ∀ b ∈ after, p b = false) (before : List α) :
    rposition p (before ++ a :: after) = some before.length := by
  have hnone : rposition p after = none := by
    induction after with
    | nil => rfl
    | cons b after ih =>
      obtain ⟨hb, hafter⟩ := List.forall_mem_cons.mp hafter
      rw [rposition, ih hafter]
      exact if_neg (by rw [hb]; decide)
  induction before with
  | nil =>
    rw [List.nil_append, rposition, hnone]
    exact if_pos ha
  | cons b before ih =>
    rw [List.cons_append, rposition, ih]
    rfl

/-- **The last element that satisfies `p`**, and what stands around it. -/
theorem rposition_cases (p : α → Bool) (l : List α) :
    ((∀ a ∈ l, p a = false) ∧ rposition p l = none) ∨
      ∃ before a after, l = before ++ a :: after ∧ p a = true ∧ (∀ b ∈ after, p b = false) ∧
        rposition p l = some before.length := by
  induction l with
  | nil => exact .inl ⟨by simp, rfl⟩
  | cons b l ih =>
    rw [rposition]
    rcases ih with ⟨hnone, hidx⟩ | ⟨before, a, after, rfl, ha, hafter, hidx⟩
    · rw [hidx]
      -- no later element satisfies `p`, so the first one decides
      by_cases hb : p b = true
      · exact .inr ⟨[], b, l, rfl, hb, hnone, if_pos hb⟩
      · exact .inl ⟨List.forall_mem_cons.mpr ⟨Bool.not_eq_true _ ▸ hb, hnone⟩, if_neg hb⟩
    · rw [hidx]
      exact .inr ⟨b :: before, a, after, rfl, ha, hafter, rfl⟩

/-! ### Behind the last element -/

/-- How many elements stand behind the last one that satisfies `p`, or in the list if none does. -/
def sinceLast (p : α → Bool) (l : List α) : Nat := (l.rtakeWhile fun a => !p a).length

@[simp] theorem sinceLast_nil (p : α → Bool) : sinceLast p [] = 0 := rfl

theorem sinceLast_concat_pos {p : α → Bool} {a : α} (ha : p a) (l : List α) :
    sinceLast p (l ++ [a]) = 0 := by
  rw [sinceLast, List.rtakeWhile_concat_neg _ _ _ (by simp [ha]), List.length_nil]

theorem sinceLast_concat_neg {p : α → Bool} {a : α} (ha : p a = false) (l : List α) :
    sinceLast p (l ++ [a]) = sinceLast p l + 1 := by
  rw [sinceLast, List.rtakeWhile_concat_pos _ _ _ (by simp [ha]), List.length_append,
    List.length_singleton]
  rfl

/-! ### Changes at the point of a split -/

theorem getElem?_append_length (before : List α) (a : α) (after : List α) :
    (before ++ a :: after)[before.length]? = some a := by
  rw [List.getElem?_append_right (Nat.le_refl _), Nat.sub_self]
  rfl

theorem eraseIdx_append_length (before : List α) (a : α) (after : List α) :
    (before ++ a :: after).eraseIdx before.length = before ++ after := by
  rw [List.eraseIdx_append_of_length_le (Nat.le_refl _), Nat.sub_self]
  rfl

theorem insertIdx_append_length (before after : List α) (a : α) :
    (before ++ after).insertIdx before.length a = before ++ a :: after := by
  induction before with
  | nil => rfl
  | cons b before ih => exact congrArg (b :: ·) ih

/-- The first element can be moved to the end only if every element is the same. -/
theorem cons_eq_append_singleton_iff {a b : α} {l : List α} :
    a :: l = l ++ [b] ↔ a = b ∧ l = List.replicate l.length a := by
  induction l with
  | nil => simp
  | cons c l ih =>
    rw [List.cons_append, List.cons.injEq, List.length_cons, List.replicate_succ, List.cons.injEq]
    constructor
    · rintro ⟨rfl, hrest⟩
      obtain ⟨hb, hl⟩ := ih.mp hrest
      exact ⟨hb, rfl, hl⟩
    · rintro ⟨hb, rfl, hl⟩
      exact ⟨rfl, ih.mpr ⟨hb, hl⟩⟩

end Lib
