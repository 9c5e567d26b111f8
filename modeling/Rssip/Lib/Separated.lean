import Mathlib.Data.List.Basic

namespace Lib

/-!
# Separated elements

A text that is read as elements with a separator between them, by a reader of one element that
finds the end of its element by itself.

* `Elements reads sep text as` — `text` is read as the elements `as`, with nothing left;
* `StartsIn` — where in the text the elements start;
* `Extends` — what a reader makes of an element when the text goes on behind its end;
* `elements_append_iff` — when two texts with a separator between them are read as the elements
  of both.
-/

variable {α β : Type}

/-- `reads s a left`: in front of `s` the element `a` is read, and `left` remains. -/
inductive Elements (reads : List β → α → List β → Prop) (sep : β) : List β → List α → Prop
  | last {s a} (h : reads s a []) : Elements reads sep s [a]
  | cons {s a rest as} (h : reads s a (sep :: rest)) (htl : Elements reads sep rest as) :
    Elements reads sep s (a :: as)

/-- An element of the text starts in front of `s`. -/
inductive StartsIn (reads : List β → α → List β → Prop) (sep : β) : List β → List β → Prop
  | here (s) : StartsIn reads sep s s
  | next {s a rest t} (h : reads s a (sep :: rest)) (htl : StartsIn reads sep rest t) :
    StartsIn reads sep s t

/-- Where a separator stands in two texts put together. -/
theorem append_eq_append_cons_iff {sep : β} {xs ys p q : List β} :
    xs ++ ys = p ++ sep :: q ↔
      (∃ xs', xs = p ++ sep :: xs' ∧ q = xs' ++ ys) ∨ ∃ ys', p = xs ++ ys' ∧ ys = ys' ++ sep :: q := by
  rw [List.append_eq_append_iff]
  constructor
  · rintro (⟨as, hp, hys⟩ | ⟨bs, hxs, hq⟩)
    · exact Or.inr ⟨as, hp, hys⟩
    · cases bs with
      | nil => exact Or.inr ⟨[], by simpa using hxs.symm, hq.symm⟩
      | cons b bs =>
        obtain ⟨hb, htl⟩ := List.cons.inj hq
        exact Or.inl ⟨bs, by rw [hb, hxs], htl⟩
  · rintro (⟨xs', hxs, hq⟩ | ⟨ys', hp, hys⟩)
    · exact Or.inr ⟨sep :: xs', hxs, by rw [hq]; rfl⟩
    · exact Or.inl ⟨ys', hp, hys⟩

/-- A text is read in one way. -/
def Functional (reads : List β → α → List β → Prop) : Prop :=
  ∀ ⦃s a b left left'⦄, reads s a left → reads s b left' → a = b ∧ left = left'

/-- Behind the end of the text, or in front of a separator in it. -/
def AtSeparator (sep : β) (left : List β) : Prop := left = [] ∨ ∃ rest, left = sep :: rest

/-- Where a separator and something else follow the text, an element is read as before, or not as
    this element at all.  `ok` tells which. -/
structure Extends (reads : List β → α → List β → Prop) (sep : β)
    (ok : List β → List β → Prop) : Prop where
  functional : Functional reads
  same : ∀ {s a left t}, reads s a left → AtSeparator sep left → ok s (sep :: t) →
    reads (s ++ sep :: t) a (left ++ sep :: t)
  other : ∀ {s a left left' t}, reads s a left → AtSeparator sep left → ¬ ok s (sep :: t) →
    ¬ reads (s ++ sep :: t) a left'

variable {reads : List β → α → List β → Prop} {sep : β} {ok : List β → List β → Prop}
  {s t : List β} {as bs : List α}

theorem Elements.ne_nil (h : Elements reads sep s as) : as ≠ [] := by
  cases h <;> simp

/-- The first of the elements. -/
theorem Elements.exists_reads {a : α} (h : Elements reads sep s (a :: as)) :
    ∃ left, reads s a left := by
  cases h with
  | last h => exact ⟨_, h⟩
  | cons h _ => exact ⟨_, h⟩

/-- The elements behind the first one. -/
theorem Elements.tail (hfun : Functional reads) {a b : α} {rest : List β}
    (h : Elements reads sep s (a :: as)) (hreads : reads s b (sep :: rest)) :
    Elements reads sep rest as := by
  cases h with
  | last h => exact absurd (hfun h hreads).2 (by simp)
  | cons h htl =>
    rw [← (List.cons.inj (hfun h hreads).2).2]
    exact htl

/-- The elements from a later start on. -/
theorem StartsIn.exists_elements (hfun : Functional reads) (h : StartsIn reads sep s t)
    (has : Elements reads sep s as) : ∃ bs, Elements reads sep t bs := by
  induction h generalizing as with
  | here => exact ⟨as, has⟩
  | next h _ ih =>
    cases has with
    | last h₁ => exact absurd (hfun h₁ h).2 (by simp)
    | cons h₁ htl =>
      rw [(List.cons.inj (hfun h₁ h).2).2] at htl
      exact ih htl

/-- A start is at the front, or behind a separator. -/
theorem StartsIn.eq_or_append (hsuffix : ∀ {s a left}, reads s a left → left <:+ s)
    (h : StartsIn reads sep s t) : t = s ∨ ∃ p, s = p ++ sep :: t := by
  induction h with
  | here => exact Or.inl rfl
  | next h _ ih =>
    obtain ⟨text, htext⟩ := hsuffix h
    rcases ih with rfl | ⟨p, hp⟩
    · exact Or.inr ⟨text, htext.symm⟩
    · exact Or.inr ⟨text ++ sep :: p, by rw [← htext, hp]; simp⟩

/-- **Two texts with a separator between them** are read as the elements of both, if and only if
    what follows the first text is `ok` for each element of it. -/
theorem elements_append_iff (hext : Extends reads sep ok) (h : Elements reads sep s as) :
    Elements reads sep (s ++ sep :: t) (as ++ bs) ↔
      (∀ u, StartsIn reads sep s u → ok u (sep :: t)) ∧ Elements reads sep t bs := by
  have hfun : Functional reads := hext.functional
  -- the induction follows the elements of the first text
  induction h with
  | @last s a h =>
    have hstarts : (∀ u, StartsIn reads sep s u → ok u (sep :: t)) ↔ ok s (sep :: t) := by
      constructor
      · exact fun hok => hok s (.here s)
      · rintro hok u (_ | ⟨h₁, -⟩)
        · exact hok
        · exact absurd (hfun h h₁).2 (by simp)
    rw [hstarts]
    rw [List.singleton_append]
    by_cases hok : ok s (sep :: t)
    · have hsame := hext.same h (Or.inl rfl) hok
      exact ⟨fun hall => ⟨hok, hall.tail hfun hsame⟩, fun hboth => .cons hsame hboth.2⟩
    · refine iff_of_false (fun hall => ?_) (fun hboth => hok hboth.1)
      obtain ⟨left, hreads⟩ := hall.exists_reads
      exact hext.other h (Or.inl rfl) hok hreads
  | @cons s a rest as h htl ih =>
    have hstarts : (∀ u, StartsIn reads sep s u → ok u (sep :: t)) ↔
        ok s (sep :: t) ∧ ∀ u, StartsIn reads sep rest u → ok u (sep :: t) := by
      constructor
      · exact fun hok => ⟨hok s (.here s), fun u hu => hok u (.next h hu)⟩
      · rintro ⟨hok, hrest⟩ u (_ | ⟨h₁, hu⟩)
        · exact hok
        · rw [← (List.cons.inj (hfun h h₁).2).2] at hu
          exact hrest u hu
    have hrest : Elements reads sep (rest ++ sep :: t) (as ++ bs) ↔
        (∀ u, StartsIn reads sep rest u → ok u (sep :: t)) ∧ Elements reads sep t bs := ih
    rw [hstarts, and_assoc, ← hrest, List.cons_append]
    by_cases hok : ok s (sep :: t)
    · have hsame := hext.same h (Or.inr ⟨rest, rfl⟩) hok
      exact ⟨fun hall => ⟨hok, hall.tail hfun hsame⟩, fun hboth => .cons hsame hboth.2⟩
    · refine iff_of_false (fun hall => ?_) (fun hboth => hok hboth.1)
      obtain ⟨left, hreads⟩ := hall.exists_reads
      exact hext.other h (Or.inr ⟨rest, rfl⟩) hok hreads

end Lib
