import Rssip.Lib.Reader

namespace Lib

/-!
# Repeating a reader

A reader that runs again and again, until the cursor is at a stop.

* `repeatUntil` — the loop, which collects what the reader returns;
* `Runs` — its runs, one by one, and `repeatUntil_eq_ok_iff`, that they are those of the loop;
* `Runs.sim` — a reader that follows another one step by step follows its runs.
-/

open Cursor

variable {ε σ α α' β : Type} [Cursor σ β]

/-! ### The loop -/

/-- One iteration, behind the values `as`. -/
def repeatBody (stop : σ → Bool) (r : EStateM ε σ α) (as : List α) :
    EStateM ε σ (List α ⊕ List α) := do
  let a ← r
  let s ← get
  if stop s then return .inr (as ++ [a])
  return .inl (as ++ [a])

/-- Runs `r` at least once, and again until the cursor is at a stop. -/
def repeatUntil (stuck : ε) (stop : σ → Bool) (r : EStateM ε σ α) : EStateM ε σ (List α) :=
  loop stuck (repeatBody stop r) []

/-- From the first cursor to the last one, the runs of `r` return the values of the list. -/
inductive Runs (stop : σ → Bool) (r : EStateM ε σ α) : σ → List α → σ → Prop
  | last {s a s'} (h : r s = .ok a s') (hstop : stop s') : Runs stop r s [a] s'
  | cons {s a s' as s''} (h : r s = .ok a s') (hstop : stop s' = false)
      (htl : Runs stop r s' as s'') : Runs stop r s (a :: as) s''

variable {stop : σ → Bool} {r : EStateM ε σ α} {s s' : σ} {as : List α} {stuck : ε}

theorem repeatBody_eq_ok (stop : σ → Bool) {a : α} (h : r s = .ok a s') (acc : List α) :
    repeatBody stop r acc s =
      .ok (if stop s' then .inr (acc ++ [a]) else .inl (acc ++ [a])) s' := by
  refine bind_eq_ok_iff.mpr ⟨a, s', h, bind_eq_ok_iff.mpr ⟨s', s', rfl, ?_⟩⟩
  cases hstop : stop s' <;> rfl

theorem eq_ok_of_repeatBody {acc : List α} {next : List α ⊕ List α}
    (h : repeatBody stop r acc s = .ok next s') :
    ∃ a, r s = .ok a s' ∧
      (stop s' ∧ next = .inr (acc ++ [a]) ∨ stop s' = false ∧ next = .inl (acc ++ [a])) := by
  obtain ⟨a, s₁, hr, -⟩ := bind_eq_ok_iff.mp h
  rw [repeatBody_eq_ok stop hr] at h
  injection h with hnext hs
  subst hs
  refine ⟨a, hr, ?_⟩
  cases hstop : stop s₁ with
  | true => exact .inl ⟨rfl, hnext.symm.trans (if_pos hstop)⟩
  | false => exact .inr ⟨rfl, hnext.symm.trans (if_neg (by simp [hstop]))⟩

/-! ### Runs -/

/-- **Where the reader always makes progress, the loop collects its runs.** -/
theorem Runs.repeatUntil_eq (stuck : ε)
    (hr : ∀ {s a s'}, r s = .ok a s' → (remaining s').length < (remaining s).length)
    (h : Runs stop r s as s') : repeatUntil stuck stop r s = .ok as s' := by
  have hloopN : ∀ fuel acc, (remaining s).length < fuel →
      loopN stuck (repeatBody stop r) fuel acc s = .ok (acc ++ as) s' := by
    induction h with
    | @last s a s' h hstop =>
      intro fuel acc hfuel
      obtain ⟨fuel, rfl⟩ : ∃ n, fuel = n + 1 := ⟨fuel - 1, by omega⟩
      have hbody := repeatBody_eq_ok stop h acc
      rw [if_pos hstop] at hbody
      exact bind_eq_ok_iff.mpr ⟨_, _, hbody, rfl⟩
    | @cons s a s' as s'' h hstop htl ih =>
      intro fuel acc hfuel
      obtain ⟨fuel, rfl⟩ : ∃ n, fuel = n + 1 := ⟨fuel - 1, by omega⟩
      have hbody := repeatBody_eq_ok stop h acc
      rw [if_neg (by simp [hstop])] at hbody
      have hlt := hr h
      have hrest := ih fuel (acc ++ [a]) (by omega)
      rw [List.append_assoc] at hrest
      exact bind_eq_ok_iff.mpr ⟨_, _, hbody, hrest⟩
  exact hloopN _ [] (Nat.lt_succ_self _)

theorem runs_of_repeatUntil (h : repeatUntil stuck stop r s = .ok as s') :
    Runs stop r s as s' := by
  have hruns : ∃ bs, as = [] ++ bs ∧ Runs stop r s bs s' := by
    apply loop_ok (P := fun acc s as s' => ∃ bs, as = acc ++ bs ∧ Runs stop r s bs s') _ _ h
    · intro acc s as s' hbody
      obtain ⟨a, hr, ⟨hstop, hnext⟩ | ⟨-, hnext⟩⟩ := eq_ok_of_repeatBody hbody
      · exact ⟨[a], Sum.inr.inj hnext, Runs.last hr hstop⟩
      · cases hnext
    · rintro acc s acc' s₁ as s' hbody ⟨bs, rfl, hruns⟩
      obtain ⟨a, hr, ⟨-, hnext⟩ | ⟨hstop, hnext⟩⟩ := eq_ok_of_repeatBody hbody
      · cases hnext
      · refine ⟨a :: bs, ?_, Runs.cons hr hstop hruns⟩
        rw [Sum.inl.inj hnext, List.append_assoc]
        rfl
  obtain ⟨bs, rfl, hruns⟩ := hruns
  exact hruns

theorem Runs.exists_of_mem (h : Runs stop r s as s') {a : α} (ha : a ∈ as) :
    ∃ s₁ s₂, r s₁ = .ok a s₂ := by
  induction h with
  | last h =>
    rw [List.mem_singleton.mp ha]
    exact ⟨_, _, h⟩
  | cons h _ _ ih =>
    rcases List.mem_cons.mp ha with rfl | ha
    · exact ⟨_, _, h⟩
    · exact ih ha

theorem Runs.exists_first (h : Runs stop r s as s') : ∃ a s₁, r s = .ok a s₁ := by
  cases h with
  | last h => exact ⟨_, _, h⟩
  | cons h => exact ⟨_, _, h⟩

/-- The runs of a reader are determined by where they start. -/
theorem Runs.unique (h : Runs stop r s as s') {bs : List α} {t' : σ} (h' : Runs stop r s bs t') :
    as = bs ∧ s' = t' := by
  -- both runs read the same item, and agree on whether it is the last
  induction h generalizing bs with
  | last h hstop =>
    cases h' with
    | last h₁ hstop₁ =>
      rw [h] at h₁
      injection h₁ with ha hs
      exact ⟨by rw [ha], hs⟩
    | cons h₁ hstop₁ htl =>
      rw [h] at h₁
      injection h₁ with ha hs
      rw [hs, hstop₁] at hstop
      exact absurd hstop (by simp)
  | cons h hstop htl ih =>
    cases h' with
    | last h₁ hstop₁ =>
      rw [h] at h₁
      injection h₁ with ha hs
      rw [← hs, hstop] at hstop₁
      exact absurd hstop₁ (by simp)
    | cons h₁ hstop₁ htl₁ =>
      rw [h] at h₁
      injection h₁ with ha hs
      rw [← hs] at htl₁
      obtain ⟨has, ht⟩ := ih htl₁
      exact ⟨by rw [ha, has], ht⟩

/-- **Simulation.** Where the steps of `r` that return a `P` can be followed by `r'`, which returns
    a `Q`, so can its runs.  `S` relates the cursors, which stop together. -/
theorem Runs.sim {r' : EStateM ε σ α'} {P : α → Prop} {Q : α' → Prop} {S : σ → σ → Prop}
    (hstep : ∀ {s t a s'}, S s t → P a → r s = .ok a s' →
      ∃ b t', Q b ∧ r' t = .ok b t' ∧ S s' t')
    (hstop : ∀ {s t}, S s t → stop s = stop t) (h : Runs stop r s as s') (hP : ∀ a ∈ as, P a)
    {t : σ} (hst : S s t) :
    ∃ bs t', (∀ b ∈ bs, Q b) ∧ Runs stop r' t bs t' ∧ S s' t' := by
  induction h generalizing t with
  | last h hend =>
    obtain ⟨b, t', hQ, hr', hS⟩ := hstep hst (hP _ List.mem_cons_self) h
    refine ⟨[b], t', ?_, Runs.last hr' (by rw [← hstop hS, hend]), hS⟩
    exact List.forall_mem_singleton.mpr hQ
  | cons h hgo htl ih =>
    obtain ⟨b, t', hQ, hr', hS⟩ := hstep hst (hP _ List.mem_cons_self) h
    obtain ⟨bs, t'', hQs, hruns, hS'⟩ := ih (fun a ha => hP a (List.mem_cons_of_mem _ ha)) hS
    refine ⟨b :: bs, t'', ?_, Runs.cons hr' (by rw [← hstop hS, hgo]) hruns, hS'⟩
    exact List.forall_mem_cons.mpr ⟨hQ, hQs⟩

end Lib
