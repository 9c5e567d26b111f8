import Mathlib.Logic.Function.Iterate
import Rssip.Lib.Machine

namespace Lib

/-!
# Runs on a clock

A machine some of whose steps let time pass.  In a prompt run time passes only while there is
nothing to do, so that what is due is done before the clock goes on.

* `Clock` — how time passes in a machine;
* `Clock.PromptStep` — a step that lets no time pass while there is something to do;
* `Clock.le_of_prompt` — time does not pass an instant at which there is something to do;
* `Clock.after` — what the states have that have nothing to do at an instant, a prompt run has
  after this instant;
* `Clock.after_of_allowed` — the same of the runs that take only some of the steps;
* `length_le_of_meets`, `exists_fixed` — work that gets less each time it is done comes to an end.
-/

variable {σ ε : Type} {step : σ → ε → σ}

/-- A machine with a clock: `elapse ms` lets time pass, and the other steps do not. -/
structure Clock (step : σ → ε → σ) where
  now : σ → Nat
  elapse : Nat → ε
  now_elapse : ∀ s ms, now (step s (elapse ms)) = now s + ms
  elapse_add : ∀ s ms ms', step (step s (elapse ms)) (elapse ms') = step s (elapse (ms + ms'))
  now_step : ∀ s e, (∀ ms, e ≠ elapse ms) → now (step s e) = now s

namespace Clock

variable (c : Clock step)

/-- The clock does not go back. -/
theorem now_le_step (s : σ) (e : ε) : c.now s ≤ c.now (step s e) := by
  by_cases he : ∀ ms, e ≠ c.elapse ms
  · exact Nat.le_of_eq (c.now_step s e he).symm
  · obtain ⟨ms, rfl⟩ := not_forall_not.mp he
    rw [c.now_elapse]
    exact Nat.le_add_right _ ms

/-- Time passes only as long as there is nothing to do. -/
def PromptStep (quiet : σ → Prop) (s : σ) (e : ε) : Prop :=
  ∀ ms, e = c.elapse ms → ∀ d < ms, quiet (step s (c.elapse d))

/-- **Time does not pass an instant** before which alone there is nothing to do. -/
theorem le_of_prompt {quiet : σ → Prop} {s : σ} {ms T : Nat}
    (hprompt : c.PromptStep quiet s (c.elapse ms))
    (hquiet : ∀ d, quiet (step s (c.elapse d)) → c.now s + d < T) (h : c.now s ≤ T) :
    c.now (step s (c.elapse ms)) ≤ T := by
  rw [c.now_elapse]
  cases ms with
  | zero => exact h
  | succ d => exact hquiet d (hprompt _ rfl d (Nat.lt_succ_self d))

/-- What holds of the states with nothing to do at `T`, and is kept, holds after `T`. -/
theorem after_step {quiet inv p : σ → Prop} {T : Nat}
    (hinv : ∀ s e, inv s → inv (step s e)) (hp : ∀ s e, inv s → p s → p (step s e))
    (hquiet : ∀ s, inv s → quiet s → T ≤ c.now s → p s) {s : σ} {e : ε} (hs : inv s)
    (h : T < c.now s → p s) (hprompt : c.PromptStep quiet s e) :
    T < c.now (step s e) → p (step s e) := by
  intro hafter
  by_cases hold : T < c.now s
  · exact hp s e hs (h hold)
  by_cases he : ∀ ms, e ≠ c.elapse ms
  · rw [c.now_step s e he] at hafter
    exact absurd hafter hold
  · -- the clock passes `T`, where there was nothing to do
    obtain ⟨ms, rfl⟩ := not_forall_not.mp he
    rw [c.now_elapse] at hafter
    have hstop : quiet (step s (c.elapse (T - c.now s))) := hprompt ms rfl _ (by omega)
    have hthere : T ≤ c.now (step s (c.elapse (T - c.now s))) := by
      rw [c.now_elapse]
      omega
    have hthen := hquiet _ (hinv _ _ hs) hstop hthere
    have hrest : step s (c.elapse ms) =
        step (step s (c.elapse (T - c.now s))) (c.elapse (ms - (T - c.now s))) := by
      rw [c.elapse_add]
      congr 2
      omega
    rw [hrest]
    exact hp _ _ (hinv _ _ hs) hthen

/-- **What holds of every state with nothing to do at `T`, and is kept, holds after `T`** in a
    prompt run. -/
theorem after {quiet inv p : σ → Prop} {T : Nat} (hinv : ∀ s e, inv s → inv (step s e))
    (hp : ∀ s e, inv s → p s → p (step s e))
    (hquiet : ∀ s, inv s → quiet s → T ≤ c.now s → p s) {s : σ} (hs : inv s)
    (h : T < c.now s → p s) {es : List ε} (hes : Meets step (c.PromptStep quiet) s es) :
    T < c.now (exec step s es) → p (exec step s es) := by
  induction es generalizing s with
  | nil => exact h
  | cons e es ih =>
    exact ih (hinv s e hs) (c.after_step hinv hp hquiet hs h hes.1) hes.2

/-- The clock of the machine that takes only some of the steps. -/
def restrict (allowed : ε → Prop) (h : ∀ ms, allowed (c.elapse ms)) :
    Clock fun s (e : {e // allowed e}) => step s e.1 where
  now := c.now
  elapse ms := ⟨c.elapse ms, h ms⟩
  now_elapse := c.now_elapse
  elapse_add := c.elapse_add
  now_step s e he := c.now_step s e.1 fun ms heq => he ms (Subtype.ext heq)

/-- What the allowed steps keep, and every state with nothing to do at `T` has, the prompt runs of
    allowed steps have after `T`. -/
theorem after_of_allowed {quiet inv p : σ → Prop} {T : Nat} {allowed : ε → Prop}
    (hallowed : ∀ ms, allowed (c.elapse ms))
    (hinv : ∀ s e, allowed e → inv s → inv (step s e))
    (hp : ∀ s e, allowed e → inv s → p s → p (step s e))
    (hquiet : ∀ s, inv s → quiet s → T ≤ c.now s → p s) {s : σ} (hs : inv s)
    (h : T < c.now s → p s) {es : List ε} (hmem : ∀ e ∈ es, allowed e)
    (hes : Meets step (c.PromptStep quiet) s es) :
    T < c.now (exec step s es) → p (exec step s es) := by
  induction es generalizing s with
  | nil => exact h
  | cons e es ih =>
    have he := hmem e List.mem_cons_self
    have hprompt : (c.restrict allowed hallowed).PromptStep quiet s ⟨e, he⟩ :=
      fun ms heq => hes.1 ms (Subtype.ext_iff.mp heq)
    have hnext := (c.restrict allowed hallowed).after_step (fun s e => hinv s e.1 e.2)
      (fun s e => hp s e.1 e.2) hquiet hs h hprompt
    exact ih (hinv s e he hs) hnext (fun e' he' => hmem e' (List.mem_cons_of_mem e he')) hes.2

end Clock

/-- **Work comes to an end**: a run whose steps all leave less of it is no longer than there is of
    it. -/
theorem length_le_of_meets {inv : σ → Prop} {cond : σ → ε → Prop} {size : σ → Nat}
    (hinv : ∀ s e, inv s → cond s e → inv (step s e))
    (hless : ∀ s e, inv s → cond s e → size (step s e) < size s) {s : σ} (hs : inv s)
    {es : List ε} (hes : Meets step cond s es) : es.length ≤ size s := by
  induction es generalizing s with
  | nil => exact Nat.zero_le _
  | cons e es ih =>
    have hlt := hless s e hs hes.1
    have hrest := ih (hinv s e hs hes.1) hes.2
    rw [List.length_cons]
    omega

/-- Work comes to an end: a function that makes less of whatever it changes gets to a state that
    it leaves alone, in as many calls as there is to make less of. -/
theorem exists_fixed {f : σ → σ} {inv : σ → Prop} {size : σ → Nat} (hinv : ∀ s, inv s → inv (f s))
    (hless : ∀ s, inv s → f s ≠ s → size (f s) < size s) {s : σ} (hs : inv s) :
    ∃ k ≤ size s, f (f^[k] s) = f^[k] s := by
  generalize hn : size s = n
  induction n using Nat.strongRecOn generalizing s with
  | ind n ih =>
    by_cases hfixed : f s = s
    · exact ⟨0, Nat.zero_le n, hfixed⟩
    · have hlt := hless s hs hfixed
      obtain ⟨k, hk, hthen⟩ := ih (size (f s)) (by omega) (hinv s hs) rfl
      exact ⟨k + 1, by omega, hthen⟩

end Lib
