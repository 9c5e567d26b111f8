import Mathlib.Data.List.Basic
import Mathlib.Order.Defs.PartialOrder

namespace Lib

/-!
# State machines

A machine is a step function on states and events; a run of it is a list of events.

* `exec` — the state after a run;
* `Meets` — every step of a run meets a condition on the state before it and its event;
* `exec_invariant` — what every step preserves holds after every run;
* `always_of_meets` — what follows from such an invariant holds all along such a run;
* `always_iff_meets`, `always_iff_meets_of_meets` — a property that a step keeps exactly when it
  meets a condition holds all along a run exactly when all its steps meet the condition;
* `climbs_iff_meets` — a run never goes back exactly when none of its steps does.
-/

variable {σ ε : Type} {step : σ → ε → σ}

/-- The state after the events `es`. -/
def exec (step : σ → ε → σ) (s : σ) (es : List ε) : σ := es.foldl step s

/-- A run without events stays where it is. -/
@[simp] theorem exec_nil (s : σ) : exec step s [] = s := rfl

/-- A run makes its first step and goes on from there. -/
@[simp] theorem exec_cons (s : σ) (e : ε) (es : List ε) :
    exec step s (e :: es) = exec step (step s e) es := rfl

/-- Two runs in a row are one. -/
theorem exec_append (s : σ) (es₁ es₂ : List ε) :
    exec step s (es₁ ++ es₂) = exec step (exec step s es₁) es₂ := List.foldl_append

/-- Every step of the run meets `cond`. -/
def Meets (step : σ → ε → σ) (cond : σ → ε → Prop) : σ → List ε → Prop
  | _, [] => True
  | s, e :: es => cond s e ∧ Meets step cond (step s e) es

/-- A run without events meets every condition. -/
@[simp] theorem meets_nil (cond : σ → ε → Prop) (s : σ) : Meets step cond s [] := trivial

/-- A run meets a condition if its first step does, and the others from there on. -/
@[simp] theorem meets_cons {cond : σ → ε → Prop} {s : σ} {e : ε} {es : List ε} :
    Meets step cond s (e :: es) ↔ cond s e ∧ Meets step cond (step s e) es := Iff.rfl

/-- Two runs in a row meet a condition if each of them does. -/
theorem meets_append {cond : σ → ε → Prop} {s : σ} {es₁ es₂ : List ε} :
    Meets step cond s (es₁ ++ es₂) ↔
      Meets step cond s es₁ ∧ Meets step cond (exec step s es₁) es₂ := by
  induction es₁ generalizing s with
  | nil => exact (and_iff_right trivial).symm
  | cons e es₁ ih => rw [List.cons_append, meets_cons, meets_cons, exec_cons, ih, and_assoc]

/-- What every event meets in every state, a run of such events meets. -/
theorem meets_of_forall_mem {cond : σ → ε → Prop} {es : List ε}
    (h : ∀ e ∈ es, ∀ s, cond s e) (s : σ) : Meets step cond s es := by
  induction es generalizing s with
  | nil => trivial
  | cons e es ih =>
    exact ⟨h e List.mem_cons_self s, ih (fun e' he' => h e' (List.mem_cons_of_mem e he')) _⟩

/-- The condition may be replaced by an equivalent one. -/
theorem meets_congr {cond cond' : σ → ε → Prop} (h : ∀ s e, cond s e ↔ cond' s e) {s : σ}
    {es : List ε} : Meets step cond s es ↔ Meets step cond' s es := by
  induction es generalizing s with
  | nil => rfl
  | cons e es ih => rw [meets_cons, meets_cons, h, ih]

/-- **What every step preserves, every run preserves.** -/
theorem exec_invariant {inv : σ → Prop} (hstep : ∀ s e, inv s → inv (step s e)) {s : σ}
    (h : inv s) (es : List ε) : inv (exec step s es) := by
  induction es generalizing s with
  | nil => exact h
  | cons e es ih => exact ih (hstep s e h)

/-- The property holds in every state of the run. -/
def Always (step : σ → ε → σ) (p : σ → Prop) (s : σ) (es : List ε) : Prop :=
  ∀ es', es' <+: es → p (exec step s es')

/-- A property holds all along a run if it holds at its start and all along the rest. -/
theorem always_cons {p : σ → Prop} {s : σ} {e : ε} {es : List ε} :
    Always step p s (e :: es) ↔ p s ∧ Always step p (step s e) es := by
  constructor
  · intro h
    refine ⟨h [] List.nil_prefix, fun es' hes' => ?_⟩
    exact h (e :: es') (List.cons_prefix_cons.mpr ⟨rfl, hes'⟩)
  · rintro ⟨hs, h⟩ es' hes'
    cases es' with
    | nil => exact hs
    | cons e' es' =>
      obtain ⟨rfl, htail⟩ := List.cons_prefix_cons.mp hes'
      exact h es' htail

/-- **What an invariant of the steps that meet `cond` implies holds all along a run of such
    steps.** -/
theorem always_of_meets {inv p : σ → Prop} {cond : σ → ε → Prop}
    (hstep : ∀ s e, inv s → cond s e → inv (step s e)) (hp : ∀ s, inv s → p s) {s : σ}
    (h : inv s) {es : List ε} (hes : Meets step cond s es) : Always step p s es := by
  induction es generalizing s with
  | nil =>
    intro es' hes'
    rw [List.prefix_nil.mp hes']
    exact hp s h
  | cons e es ih => exact always_cons.mpr ⟨hp s h, ih (hstep s e h hes.1) hes.2⟩

/-- **A property that a step keeps exactly when it meets `cond` holds all along a run exactly
    when every step meets `cond`**, for runs whose steps all meet `req`. -/
theorem always_iff_meets_of_meets {inv p : σ → Prop} {req cond : σ → ε → Prop}
    (hinv : ∀ s e, inv s → req s e → inv (step s e))
    (hstep : ∀ s e, inv s → p s → req s e → (p (step s e) ↔ cond s e)) {s : σ} (hs : inv s)
    (hp : p s) {es : List ε} (hes : Meets step req s es) :
    Always step p s es ↔ Meets step cond s es := by
  induction es generalizing s with
  | nil =>
    refine iff_of_true (fun es' hes' => ?_) (meets_nil _ _)
    rw [List.prefix_nil.mp hes']
    exact hp
  | cons e es ih =>
    rw [always_cons, meets_cons, ← hstep s e hs hp hes.1]
    constructor
    · rintro ⟨-, h⟩
      have hnext : p (step s e) := h [] List.nil_prefix
      exact ⟨hnext, (ih (hinv s e hs hes.1) hnext hes.2).mp h⟩
    · rintro ⟨hnext, h⟩
      exact ⟨hp, (ih (hinv s e hs hes.1) hnext hes.2).mpr h⟩

/-- The same for all runs. -/
theorem always_iff_meets {inv p : σ → Prop} {cond : σ → ε → Prop}
    (hinv : ∀ s e, inv s → inv (step s e))
    (hstep : ∀ s e, inv s → p s → (p (step s e) ↔ cond s e)) {s : σ} (hs : inv s) (hp : p s)
    (es : List ε) : Always step p s es ↔ Meets step cond s es :=
  always_iff_meets_of_meets (fun s e h _ => hinv s e h) (fun s e h h' _ => hstep s e h h') hs hp
    (meets_of_forall_mem (fun _ _ _ => trivial) s)

/-- In the order of a run the states climb: none is below an earlier one. -/
def Climbs {α : Type} [Preorder α] (step : σ → ε → σ) (rank : σ → α) (s : σ) (es : List ε) : Prop :=
  ∀ es₁ es₂, es₁ ++ es₂ <+: es → rank (exec step s es₁) ≤ rank (exec step s (es₁ ++ es₂))

/-- **A run climbs** exactly when each of its steps does. -/
theorem climbs_iff_meets {α : Type} [Preorder α] {rank : σ → α} {s : σ} {es : List ε} :
    Climbs step rank s es ↔ Meets step (fun s e => rank s ≤ rank (step s e)) s es := by
  induction es generalizing s with
  | nil =>
    refine iff_of_true (fun es₁ es₂ hpre => ?_) (meets_nil _ _)
    obtain ⟨rfl, rfl⟩ := List.append_eq_nil_iff.mp (List.prefix_nil.mp hpre)
    exact le_refl _
  | cons e es ih =>
    rw [meets_cons, ← ih]
    constructor
    · intro h
      refine ⟨h [] [e] (List.prefix_append [e] es), fun es₁ es₂ hpre => ?_⟩
      exact h (e :: es₁) es₂ ((List.prefix_cons_inj e).mpr hpre)
    · rintro ⟨hfirst, hrest⟩ es₁ es₂ hpre
      cases es₁ with
      | cons e₁ es₁ =>
        obtain ⟨rfl, hlater⟩ := List.cons_prefix_cons.mp hpre
        exact hrest es₁ es₂ hlater
      | nil =>
        cases es₂ with
        | nil => exact le_refl _
        | cons e₂ es₂ =>
          obtain ⟨rfl, hlater⟩ := List.cons_prefix_cons.mp hpre
          exact le_trans hfirst (hrest [] es₂ hlater)

end Lib
