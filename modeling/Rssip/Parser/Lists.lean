import Rssip.Lib.Separated
import Rssip.Parser.Confined

namespace Rssip

open Lib

/-!
# Lists of header values

The values of some headers are read as lists, one element after the other with commas between
them.

* `ReadsElement` — what a parser makes of a text, and what it leaves of it;
* `gives_collectSep` — a list is its elements;
* `extends_of_staysIn` — elements that are read up to a comma, whatever follows it.
-/

namespace SipParser

/-- In front of `s` alone, the parser gives `a` and leaves `left`. -/
def ReadsElement {α : Type} (p : Parse α) (s : Bytes) (a : α) (left : Bytes) : Prop :=
  Gives p (Scanner.new s) a left

/-- What a parser does depends on what remains, not on what has been read. -/
theorem gives_congr {α : Type} {p : Parse α} (h : StaysInLine p) {c d : Scanner}
    (hcd : c.remaining = d.remaining) {a : α} {left : Bytes} : Gives p c a left ↔ Gives p d a left := by
  have hline : InLine isNewline c d [] := ⟨hcd.trans (List.append_nil _).symm, by simp⟩
  rw [h.inLine hline, List.append_nil]

theorem readsElement_iff {α : Type} {p : Parse α} (h : StaysInLine p) {c : Scanner} {a : α}
    {left : Bytes} : ReadsElement p c.remaining a left ↔ Gives p c a left := by
  have hnew : (Scanner.new c.remaining).remaining = c.remaining := rfl
  exact gives_congr h hnew

theorem functional_readsElement {α : Type} (p : Parse α) : Functional (ReadsElement p) := by
  rintro s a b left left' ⟨c, hc, rfl⟩ ⟨c', hc', rfl⟩
  rw [hc] at hc'
  injection hc' with ha hc
  exact ⟨ha, by rw [hc]⟩

section Collect

variable {α : Type} {p : Parse α}

/-- One round of the loop that collects elements. -/
theorem collectBody_eq_ok {acc : List α} {c c' : Scanner} {next : List α ⊕ List α}
    (h : foldSepBody 44 (fun elems => (elems ++ [·]) <$> p) acc c = .ok next c') :
    ∃ a c₁, p c = .ok a c₁ ∧
      ((next = .inl (acc ++ [a]) ∧ c₁.remaining = 44 :: c'.remaining) ∨
        (next = .inr (acc ++ [a]) ∧ c₁.remaining = c'.remaining)) := by
  obtain ⟨elems, c₁, helem, h⟩ := bind_eq_ok_iff.mp h
  dsimp only at helem
  rw [map_eq_pure_bind] at helem
  obtain ⟨a, c₂, helem, hpure⟩ := bind_eq_ok_iff.mp helem
  injection hpure with helems hc₁
  rw [hc₁] at helem
  obtain ⟨o, c₃, hsep, h⟩ := bind_eq_ok_iff.mp h
  refine ⟨a, c₁, helem, ?_⟩
  rcases gives_scanIfEq.mp ⟨c₃, hsep, rfl⟩ with ⟨rfl, hrem⟩ | ⟨rfl, -, hrem⟩
  · injection h with hnext hc₃
    exact Or.inl ⟨by rw [← hnext, ← helems], by rw [hrem, hc₃]; rfl⟩
  · injection h with hnext hc₃
    exact Or.inr ⟨by rw [← hnext, ← helems], by rw [← hrem, hc₃]; rfl⟩

theorem collectBody_comma {acc : List α} {c c₁ : Scanner} {a : α} {rest : Bytes}
    (h : p c = .ok a c₁) (hrem : c₁.remaining = 44 :: rest) :
    ∃ c', foldSepBody 44 (fun elems => (elems ++ [·]) <$> p) acc c = .ok (.inl (acc ++ [a])) c' ∧
      c'.remaining = rest := by
  obtain ⟨c', hsep, hrest⟩ := gives_scanIfEq.mpr (Or.inl ⟨rfl, hrem⟩)
  refine ⟨c', bind_eq_ok_iff.mpr ⟨acc ++ [a], c₁, ?_, bind_eq_ok_iff.mpr ⟨some 44, c', hsep, rfl⟩⟩,
    hrest⟩
  dsimp only
  rw [map_eq_pure_bind]
  exact bind_eq_ok_iff.mpr ⟨a, c₁, h, rfl⟩

theorem collectBody_end {acc : List α} {c c₁ : Scanner} {a : α} (h : p c = .ok a c₁)
    (hrem : c₁.remaining = []) :
    ∃ c', foldSepBody 44 (fun elems => (elems ++ [·]) <$> p) acc c = .ok (.inr (acc ++ [a])) c' ∧
      c'.remaining = [] := by
  obtain ⟨c', hsep, hrest⟩ := gives_scanIfEq.mpr
    (Or.inr ⟨rfl, by rw [hrem]; simp, rfl⟩ : _ ∨ (_ ∧ c₁.remaining.head? ≠ some 44 ∧ _))
  refine ⟨c', bind_eq_ok_iff.mpr ⟨acc ++ [a], c₁, ?_, bind_eq_ok_iff.mpr ⟨none, c', hsep, rfl⟩⟩,
    hrest.trans hrem⟩
  dsimp only
  rw [map_eq_pure_bind]
  exact bind_eq_ok_iff.mpr ⟨a, c₁, h, rfl⟩

/-- The loop, behind the elements `acc`. -/
abbrev collectN (p : Parse α) (fuel : Nat) (acc : List α) : Parse (List α) :=
  loopN .stuck (foldSepBody 44 (fun elems => (elems ++ [·]) <$> p)) fuel acc

/-- What the loop collects are elements. -/
theorem elements_of_collectSep (h : StaysInLine p) {elems : List α} {c c' : Scanner}
    (hrun : collectSep 44 p c = .ok elems c') (hend : c'.remaining = []) :
    Elements (ReadsElement p) 44 c.remaining elems := by
  -- the elements in `acc` were read before `c`, so that they vary along the loop
  have hloop : ∃ as, elems = [] ++ as ∧ Elements (ReadsElement p) 44 c.remaining as := by
    apply loop_ok (P := fun acc c elems c' => c'.remaining = [] →
      ∃ as, elems = acc ++ as ∧ Elements (ReadsElement p) 44 c.remaining as) _ _ hrun hend
    · intro acc c elems c' hbody hend
      obtain ⟨a, c₁, helem, ⟨hnext, -⟩ | ⟨hnext, hrem⟩⟩ := collectBody_eq_ok hbody
      · cases hnext
      · refine ⟨[a], Sum.inr.inj hnext, .last ((readsElement_iff h).mpr ⟨c₁, helem, ?_⟩)⟩
        exact hrem.trans hend
    · intro acc c acc' c₂ elems c' hbody hrest hend
      obtain ⟨a, c₁, helem, ⟨hnext, hrem⟩ | ⟨hnext, -⟩⟩ := collectBody_eq_ok hbody
      · obtain ⟨as, helems, htl⟩ := hrest hend
        refine ⟨a :: as, ?_, .cons ((readsElement_iff h).mpr ⟨c₁, helem, hrem⟩) htl⟩
        rw [helems, Sum.inl.inj hnext, List.append_assoc]
        rfl
      · cases hnext
  obtain ⟨as, rfl, helements⟩ := hloop
  exact helements

/-- Elements are collected, if the loop may take as many rounds as there are bytes. -/
theorem collectN_of_elements (h : StaysInLine p) {s : Bytes} {as : List α}
    (helements : Elements (ReadsElement p) 44 s as) {fuel : Nat} (hfuel : s.length < fuel)
    (acc : List α) {c : Scanner} (hc : c.remaining = s) :
    ∃ c', collectN p fuel acc c = .ok (acc ++ as) c' ∧ Cursor.remaining c' = [] := by
  induction helements generalizing fuel acc c with
  | last hread =>
    obtain ⟨fuel, rfl⟩ : ∃ n, fuel = n + 1 := ⟨fuel - 1, by omega⟩
    rw [← hc, readsElement_iff h] at hread
    obtain ⟨c₁, helem, hrem⟩ := hread
    obtain ⟨c', hbody, hend⟩ := collectBody_end helem hrem
    exact ⟨c', bind_eq_ok_iff.mpr ⟨_, c', hbody, rfl⟩, hend⟩
  | @cons s a rest as hread htl ih =>
    obtain ⟨fuel, rfl⟩ : ∃ n, fuel = n + 1 := ⟨fuel - 1, by omega⟩
    rw [← hc, readsElement_iff h] at hread
    obtain ⟨c₁, helem, hrem⟩ := hread
    obtain ⟨c₂, hbody, hrest⟩ := collectBody_comma helem hrem
    -- the comma is read, so that the rest is shorter
    have hlt : rest.length < s.length := by
      have hle := h.length_le helem
      rw [show Cursor.remaining c = c.remaining from rfl, hc, hrem, List.length_cons] at hle
      omega
    obtain ⟨c', hrun, hend⟩ := ih (Nat.lt_of_lt_of_le hlt (Nat.le_of_lt_succ hfuel)) (acc ++ [a]) hrest
    refine ⟨c', bind_eq_ok_iff.mpr ⟨_, c₂, hbody, ?_⟩, hend⟩
    rw [List.append_assoc] at hrun
    exact hrun

/-- **A list is its elements**, with commas between them. -/
theorem gives_collectSep (h : StaysInLine p) {c : Scanner} {as : List α} :
    Gives (collectSep 44 p) c as [] ↔ Elements (ReadsElement p) 44 c.remaining as := by
  constructor
  · rintro ⟨c', hrun, hend⟩
    exact elements_of_collectSep h hrun hend
  · exact fun helements => collectN_of_elements h helements (Nat.lt_succ_self _) [] rfl

theorem gives_many {toHeader : α → Header} {c : Scanner} {headers : Headers} {left : Bytes} :
    Gives (many toHeader p) c headers left ↔
      ∃ as, headers = as.map toHeader ∧ Gives (collectSep 44 p) c as left := by
  rw [many, gives_bind]
  constructor
  · rintro ⟨as, c₁, hcollect, hgives⟩
    obtain ⟨hheaders, hleft⟩ := gives_pure.mp hgives
    exact ⟨as, hheaders, c₁, hcollect, hleft.symm⟩
  · rintro ⟨as, hheaders, c₁, hcollect, hleft⟩
    exact ⟨as, c₁, hcollect, gives_pure.mpr ⟨hheaders, hleft.symm⟩⟩

end Collect

/-! ### Elements that end at a comma -/

/-- An element parser that stops in front of a comma does not depend on what follows it. -/
theorem readsElement_append {α : Type} {p : Parse α} (h : StaysIn isElementEnd p) {s : Bytes}
    {a : α} {left : Bytes} (hread : ReadsElement p s a left) (t : Bytes) :
    ReadsElement p (s ++ 44 :: t) a (left ++ 44 :: t) := by
  have hline : InLine isElementEnd (Scanner.new (s ++ 44 :: t)) (Scanner.new s) (44 :: t) := by
    refine ⟨rfl, ?_⟩
    rintro b ⟨⟩
    rfl
  exact (h.inLine hline a left).mp hread

theorem extends_of_staysIn {α : Type} {p : Parse α} (h : StaysIn isElementEnd p) :
    Extends (ReadsElement p) 44 (fun _ _ => True) where
  functional := functional_readsElement p
  same hread _ _ := readsElement_append h hread _
  other _ _ hok := absurd trivial hok

end SipParser

end Rssip
