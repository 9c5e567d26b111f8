import Mathlib.Data.List.Basic
import Mathlib.Data.List.TakeWhile

namespace Lib

/-!
# Readers over a cursor

A reader is a computation on a cursor, a state from which a list of symbols remains to be
read, that fails with an exception and leaves the cursor where it was at the failure.

* `Stops p rest` — a greedy scan by `p` ends where `rest` starts;
* `Reads r text rest v` — in front of `text ++ rest`, the reader `r` consumes exactly `text`
  and returns `v`.  The rules compose such facts along the reader's own structure;
* `loop` — a loop whose iterations are bounded by what remains, and `Iterates`, the
  shape of a run of it;
* `Steps` — a part of the iterations of a loop; such parts are put together by `Steps.trans`.
-/

variable {ε σ α β γ : Type}

/-! ### Greedy scans -/

/-- The first of `rest`, if there is one, is not a `p`. -/
def Stops (p : β → Bool) (rest : List β) : Prop := ∀ b ∈ rest.head?, p b = false

/-- At the end every run of symbols stops. -/
@[simp] theorem stops_nil (p : β → Bool) : Stops p [] := by simp [Stops]

/-- A run of symbols stops in front of one that is none of them. -/
@[simp] theorem stops_cons {p : β → Bool} {b : β} {rest : List β} :
    Stops p (b :: rest) ↔ p b = false := by
  simp [Stops]

/-- A run stops in front of two texts if it does in front of the first, or that is empty and it does
    in front of the second. -/
theorem stops_append {p : β → Bool} {xs ys : List β} (hxs : xs ≠ [] → Stops p xs)
    (hys : xs = [] → Stops p ys) : Stops p (xs ++ ys) := by
  cases xs with
  | nil => simpa using hys rfl
  | cons x xs => simpa using hxs (by simp)

/-- A greedy scan stops where `ys` starts, if not before. -/
theorem takeWhile_append_of_stops {p : β → Bool} {ys : List β} (hstop : Stops p ys) (xs : List β) :
    (xs ++ ys).takeWhile p = xs.takeWhile p := by
  induction xs with
  | nil =>
    cases ys with
    | nil => rfl
    | cons b ys => simp [stops_cons.mp hstop]
  | cons x xs ih =>
    by_cases hx : p x
    · rw [List.cons_append, List.takeWhile_cons_of_pos hx, List.takeWhile_cons_of_pos hx, ih]
    · rw [List.cons_append, List.takeWhile_cons_of_neg hx, List.takeWhile_cons_of_neg hx]

/-- What stops a run is dropped by it only if nothing is left in front. -/
theorem dropWhile_append_of_stops {p : β → Bool} {ys : List β} (hstop : Stops p ys) (xs : List β) :
    (xs ++ ys).dropWhile p = xs.dropWhile p ++ ys := by
  have happend : (xs ++ ys).takeWhile p ++ (xs ++ ys).dropWhile p =
      xs.takeWhile p ++ (xs.dropWhile p ++ ys) := by
    rw [List.takeWhile_append_dropWhile, ← List.append_assoc, List.takeWhile_append_dropWhile]
  rw [takeWhile_append_of_stops hstop] at happend
  exact List.append_cancel_left happend

/-- **A greedy scan takes `xs`** when all of it matches and what follows does not. -/
theorem takeWhile_append_stops {p : β → Bool} {xs rest : List β} (hall : ∀ x ∈ xs, p x)
    (hstop : Stops p rest) : (xs ++ rest).takeWhile p = xs := by
  rw [takeWhile_append_of_stops hstop, List.takeWhile_eq_self_iff.mpr hall]

/-- What is left of a greedy scan stops it. -/
theorem stops_dropWhile (p : β → Bool) (xs : List β) : Stops p (xs.dropWhile p) := by
  induction xs with
  | nil => exact stops_nil p
  | cons x xs ih =>
    by_cases hx : p x
    · rwa [List.dropWhile_cons_of_pos hx]
    · rw [List.dropWhile_cons_of_neg hx]
      exact stops_cons.mpr (by simpa using hx)

/-- `pre` is the longest prefix of `xs` that matches. -/
structure LongestPrefix (p : β → Bool) (xs pre : List β) : Prop where
  isPrefix : pre <+: xs
  all : ∀ b ∈ pre, p b
  longest : ∀ pre', pre' <+: xs → (∀ b ∈ pre', p b) → pre' <+: pre

/-- The run of symbols at the start is the longest prefix of them. -/
theorem longestPrefix_takeWhile (p : β → Bool) (xs : List β) :
    LongestPrefix p xs (xs.takeWhile p) where
  isPrefix := List.takeWhile_prefix p
  all _ h := List.all_eq_true.mp List.all_takeWhile _ h
  longest := by
    rintro pre' ⟨rest, rfl⟩ hall
    rw [List.takeWhile_append_of_pos hall]
    exact List.prefix_append pre' _

/-- Each symbol of a run is one of those. -/
theorem of_mem_takeWhile {p : β → Bool} {x : β} {xs : List β} (h : x ∈ xs.takeWhile p) : p x :=
  List.all_eq_true.mp List.all_takeWhile x h

/-- Where a run stops at once nothing is dropped. -/
theorem Stops.dropWhile_eq {p : β → Bool} {xs : List β} (h : Stops p xs) : xs.dropWhile p = xs := by
  cases xs with
  | nil => rfl
  | cons x xs => exact List.dropWhile_cons_of_neg (by simp [stops_cons.mp h])

/-! ### Cursors -/

/-- A state from which symbols of type `β` remain to be read, one after the other. -/
class Cursor (σ : Type) (β : outParam Type) where
  remaining : σ → List β
  bump : σ → β → σ
  remaining_bump : ∀ {s b bs}, remaining s = b :: bs → remaining (bump s b) = bs

open Cursor

section

variable [Cursor σ β]

/-- The cursor after `bs`. -/
def advance (s : σ) (bs : List β) : σ := bs.foldl bump s

/-- To go over nothing does not move the cursor. -/
@[simp] theorem advance_nil (s : σ) : advance s ([] : List β) = s := rfl

/-- To go over two texts is to go over one after the other. -/
theorem advance_append (s : σ) (xs ys : List β) :
    advance s (xs ++ ys) = advance (advance s xs) ys := List.foldl_append

/-- Behind a text in front remains what comes after it. -/
theorem remaining_advance {s : σ} {xs ys : List β} (h : remaining s = xs ++ ys) :
    remaining (advance s xs) = ys := by
  induction xs generalizing s with
  | nil => exact h
  | cons x xs ih => exact ih (remaining_bump h)

/-- What a sequence of two fallible steps succeeds with. -/
theorem except_bind_eq_ok_iff {x : Except ε α} {f : α → Except ε γ} {c : γ} :
    x >>= f = .ok c ↔ ∃ a, x = .ok a ∧ f a = .ok c := by
  cases x with
  | error e => exact iff_of_false (fun h => nomatch h) (fun ⟨_, h, _⟩ => nomatch h)
  | ok a =>
    constructor
    · exact fun h => ⟨a, rfl, h⟩
    · rintro ⟨a', ha, h⟩
      rw [Except.ok.inj ha]
      exact h

/-- A sequence succeeds when both of its parts do. -/
theorem bind_eq_ok_iff {r : EStateM ε σ α} {f : α → EStateM ε σ γ} {s s'' : σ} {c : γ} :
    (r >>= f) s = .ok c s'' ↔ ∃ a s', r s = .ok a s' ∧ f a s' = .ok c s'' := by
  show EStateM.bind r f s = _ ↔ _
  rw [EStateM.bind]
  cases r s with
  | ok a s' => simp
  | error e s' => simp

/-- A sequence fails where its first part does, or the second one behind it. -/
theorem bind_eq_error_iff {r : EStateM ε σ α} {f : α → EStateM ε σ γ} {s s'' : σ} {e : ε} :
    (r >>= f) s = .error e s'' ↔
      r s = .error e s'' ∨ ∃ a s', r s = .ok a s' ∧ f a s' = .error e s'' := by
  show EStateM.bind r f s = _ ↔ _
  rw [EStateM.bind]
  cases r s with
  | ok a s' => simp
  | error e s' => simp

/-- Looking at the state first. -/
theorem get_bind_eq_ok_iff {f : σ → EStateM ε σ α} {s s' : σ} {a : α} :
    (get >>= f : EStateM ε σ α) s = .ok a s' ↔ f s s = .ok a s' := Iff.rfl

/-! ### Reading a given text -/

/-- In front of `text ++ rest`, the reader `r` consumes `text` and returns `v`. -/
def Reads (r : EStateM ε σ α) (text rest : List β) (v : α) : Prop :=
  ∀ s, remaining s = text ++ rest → r s = .ok v (advance s text)

namespace Reads

variable {r : EStateM ε σ α} {text t₁ t₂ rest : List β} {a : α} {c : γ}

/-- To return a value reads nothing. -/
theorem pure (a : α) (rest : List β) : Reads (ε := ε) (σ := σ) (Pure.pure a) [] rest a :=
  fun _ _ => rfl

/-- What comes next starts where the reader ends. -/
theorem bind_run {f : α → EStateM ε σ γ} (h : Reads r text rest a) {s : σ}
    (hs : remaining s = text ++ rest) : (r >>= f) s = f a (advance s text) := by
  show EStateM.bind r f s = _
  rw [EStateM.bind, h s hs]

/-- Sequencing: the second reader starts where the first one ends. -/
theorem bind {f : α → EStateM ε σ γ} (h₁ : Reads r t₁ (t₂ ++ rest) a)
    (h₂ : Reads (f a) t₂ rest c) : Reads (r >>= f) (t₁ ++ t₂) rest c := by
  intro s hs
  rw [List.append_assoc] at hs
  rw [h₁.bind_run hs, h₂ _ (remaining_advance hs), advance_append]

/-- Sequencing with a second reader that consumes nothing. -/
theorem bind_nil {f : α → EStateM ε σ γ} (h₁ : Reads r text rest a)
    (h₂ : Reads (f a) [] rest c) : Reads (r >>= f) text rest c := by
  have h : Reads (r >>= f) (text ++ []) rest c := bind h₁ h₂
  rwa [List.append_nil] at h

/-- Sequencing with a first reader that consumes nothing. -/
theorem nil_bind {f : α → EStateM ε σ γ} (h₁ : Reads r [] (text ++ rest) a)
    (h₂ : Reads (f a) text rest c) : Reads (r >>= f) text rest c :=
  (bind h₁ h₂ : Reads (r >>= f) ([] ++ text) rest c)

/-- To map a value reads the same text. -/
theorem map {f : α → γ} (h : Reads r text rest a) : Reads (f <$> r) text rest (f a) := by
  intro s hs
  show EStateM.map f r s = _
  rw [EStateM.map, h s hs]

/-- A handler is not run when the reader succeeds. -/
theorem tryCatch {handle : ε → EStateM ε σ α} (h : Reads r text rest a) :
    Reads (MonadExcept.tryCatch r handle) text rest a := by
  intro s hs
  show EStateM.tryCatch r handle s = _
  rw [EStateM.tryCatch, h s hs]

/-- Looking at the cursor consumes nothing. -/
theorem get_bind {f : σ → EStateM ε σ γ}
    (h : ∀ s, remaining s = text ++ rest → Reads (f s) text rest c) :
    Reads (MonadState.get >>= f) text rest c := fun s hs => h s hs s hs

end Reads

/-! ### Failing on a given text -/

/-- In front of `text`, the reader `r` fails. -/
def Fails (r : EStateM ε σ α) (text : List β) : Prop :=
  ∀ s, remaining s = text → ∃ e s', r s = .error e s'

namespace Fails

variable {r : EStateM ε σ α} {text t₁ t₂ : List β} {a : α}

/-- Two readers in a row fail where the first does. -/
theorem bind {f : α → EStateM ε σ γ} (h : Fails r text) : Fails (r >>= f) text := by
  intro s hs
  obtain ⟨e, s', he⟩ := h s hs
  refine ⟨e, s', ?_⟩
  show EStateM.bind r f s = _
  rw [EStateM.bind, he]

/-- Sequencing: what fails is the second reader, where the first one ends. -/
theorem reads_bind {f : α → EStateM ε σ γ} (h₁ : Reads r t₁ t₂ a) (h₂ : Fails (f a) t₂) :
    Fails (r >>= f) (t₁ ++ t₂) := by
  intro s hs
  obtain ⟨e, s', he⟩ := h₂ _ (remaining_advance hs)
  exact ⟨e, s', (h₁.bind_run hs).trans he⟩

/-- The first reader consumes nothing. -/
theorem nil_bind {f : α → EStateM ε σ γ} (h₁ : Reads r [] text a) (h₂ : Fails (f a) text) :
    Fails (r >>= f) text :=
  reads_bind h₁ h₂

/-- Looking at the cursor consumes nothing. -/
theorem get_bind {f : σ → EStateM ε σ γ} (h : ∀ s, remaining s = text → Fails (f s) text) :
    Fails (MonadState.get >>= f) text := fun s hs => h s hs s hs

/-- To map a value does not prevent a failure. -/
theorem map {f : α → γ} (h : Fails r text) : Fails (f <$> r) text := by
  intro s hs
  obtain ⟨e, s', he⟩ := h s hs
  refine ⟨e, s', ?_⟩
  show EStateM.map f r s = _
  rw [EStateM.map, he]

end Fails

/-! ### Bounded loops -/

/-- Runs `body` until it returns a result, at most `fuel` times. -/
def loopN (stuck : ε) (body : α → EStateM ε σ (α ⊕ γ)) : Nat → α → EStateM ε σ γ
  | 0, _ => throw stuck
  | fuel + 1, a => do
    match ← body a with
    | .inl a => loopN stuck body fuel a
    | .inr c => return c

/-- Runs `body` until it returns a result.  Every iteration but the last is expected to
    consume a symbol, so what remains bounds their number. -/
def loop (stuck : ε) (body : α → EStateM ε σ (α ⊕ γ)) (a : α) : EStateM ε σ γ := do
  let s ← get
  loopN stuck body ((remaining s).length + 1) a

/-- From `a`, the iterations of `body` consume `text` in front of `rest` and end in `c`;
    each but the last consumes something. -/
inductive Iterates (body : α → EStateM ε σ (α ⊕ γ)) (rest : List β) :
    α → List β → γ → Prop
  | done {a t c} (h : Reads (body a) t rest (.inr c)) : Iterates body rest a t c
  | step {a a' t₁ t₂ c} (h : Reads (body a) t₁ (t₂ ++ rest) (.inl a')) (hne : t₁ ≠ [])
      (htl : Iterates body rest a' t₂ c) : Iterates body rest a (t₁ ++ t₂) c

/-- Iterations that consume a text are a loop that reads it, with more fuel than symbols. The
    induction is on the iterations. -/
theorem Iterates.reads_loopN {stuck : ε} {body : α → EStateM ε σ (α ⊕ γ)} {rest text : List β}
    {a : α} {c : γ} (h : Iterates body rest a text c) :
    ∀ fuel, text.length < fuel → Reads (loopN stuck body fuel a) text rest c := by
  induction h with
  | done h =>
    intro fuel hfuel
    obtain ⟨fuel, rfl⟩ : ∃ n, fuel = n + 1 := ⟨fuel - 1, by omega⟩
    exact Reads.bind_nil h (Reads.pure _ _)
  | @step a a' t₁ t₂ c h hne htl ih =>
    intro fuel hfuel
    obtain ⟨fuel, rfl⟩ : ∃ n, fuel = n + 1 := ⟨fuel - 1, by omega⟩
    have hpos : 0 < t₁.length := List.length_pos_iff.mpr hne
    rw [List.length_append] at hfuel
    exact Reads.bind h (ih fuel (by omega))

/-- **A loop reads what its iterations read.** -/
theorem Reads.loop {stuck : ε} {body : α → EStateM ε σ (α ⊕ γ)} {rest text : List β}
    {a : α} {c : γ} (h : Iterates body rest a text c) :
    Reads (loop stuck body a) text rest c := by
  apply Reads.get_bind
  intro s hs
  apply h.reads_loopN
  rw [hs, List.length_append]
  omega

/-- A loop fails when one of its iterations does: the first one … -/
theorem Fails.loopN {stuck : ε} {body : α → EStateM ε σ (α ⊕ γ)} {a : α} {text : List β}
    (h : Fails (body a) text) (fuel : Nat) : Fails (loopN stuck body fuel a) text := by
  cases fuel with
  | zero => exact fun s _ => ⟨stuck, s, rfl⟩
  | succ fuel => exact Fails.bind h

/-- … or a later one. -/
theorem Fails.loopN_step {stuck : ε} {body : α → EStateM ε σ (α ⊕ γ)} {a a' : α}
    {t₁ t₂ : List β} (h₁ : Reads (body a) t₁ t₂ (.inl a'))
    (h₂ : ∀ fuel, Fails (Lib.loopN stuck body fuel a') t₂) (fuel : Nat) :
    Fails (Lib.loopN stuck body fuel a) (t₁ ++ t₂) := by
  cases fuel with
  | zero => exact fun s _ => ⟨stuck, s, rfl⟩
  | succ fuel => exact Fails.reads_bind h₁ (h₂ fuel)

/-- A loop fails if it does with every amount of fuel. -/
theorem Fails.loop {stuck : ε} {body : α → EStateM ε σ (α ⊕ γ)} {a : α} {text : List β}
    (h : ∀ fuel, Fails (Lib.loopN stuck body fuel a) text) : Fails (loop stuck body a) text :=
  fun s hs => h _ s hs

/-! ### A part of the iterations -/

/-- From `a`, some iterations of `body` consume `text` in front of `rest` and reach `a'`. -/
inductive Steps (body : α → EStateM ε σ (α ⊕ γ)) (rest : List β) : α → List β → α → Prop
  | refl {a} : Steps body rest a [] a
  | step {a a' a'' t₁ t₂} (h : Reads (body a) t₁ (t₂ ++ rest) (.inl a')) (hne : t₁ ≠ [])
      (htl : Steps body rest a' t₂ a'') : Steps body rest a (t₁ ++ t₂) a''

namespace Steps

variable {body : α → EStateM ε σ (α ⊕ γ)} {rest text t₁ t₂ : List β} {a a' a'' : α}

/-- One iteration that consumes something is a run of iterations. -/
theorem single (h : Reads (body a) text rest (.inl a')) (hne : text ≠ []) :
    Steps body rest a text a' := by
  have hstep : Steps body rest a (text ++ []) a' := step h hne refl
  rwa [List.append_nil] at hstep

/-- Two runs of iterations, one after the other, make one. -/
theorem trans (h₁ : Steps body (t₂ ++ rest) a t₁ a') (h₂ : Steps body rest a' t₂ a'') :
    Steps body rest a (t₁ ++ t₂) a'' := by
  induction h₁ with
  | refl => exact h₂
  | step h hne _ ih =>
    rw [← List.append_assoc] at h
    rw [List.append_assoc]
    exact step h hne (ih h₂)

/-- The loop goes on where the iterations end. -/
theorem run_loopN (stuck : ε) (h : Steps body rest a text a') {s : σ} (hs : remaining s = text ++ rest)
    {fuel : Nat} (hfuel : text.length < fuel) :
    ∃ fuel', loopN stuck body fuel a s = loopN stuck body (fuel' + 1) a' (advance s text) := by
  induction h generalizing s fuel with
  | refl => exact ⟨fuel - 1, by rw [Nat.sub_add_cancel (by omega)]; rfl⟩
  | @step a a₁ a₂ t₁ t₂ h hne _ ih =>
    obtain ⟨fuel, rfl⟩ : ∃ n, fuel = n + 1 := ⟨fuel - 1, by omega⟩
    have hpos : 0 < t₁.length := List.length_pos_iff.mpr hne
    rw [List.length_append] at hfuel
    rw [List.append_assoc] at hs
    have hlt : t₂.length < fuel := by omega
    obtain ⟨fuel', hrun⟩ := ih (remaining_advance hs) hlt
    refine ⟨fuel', ?_⟩
    rw [advance_append, ← hrun]
    exact h.bind_run hs

/-- **Iterations of a loop are a part of its run.** -/
theorem run_loop (stuck : ε) (h : Steps body rest a text a') {s : σ} (hs : remaining s = text ++ rest) :
    ∃ fuel, loop stuck body a s = loopN stuck body (fuel + 1) a' (advance s text) := by
  apply h.run_loopN stuck hs
  rw [hs, List.length_append]
  omega

end Steps

/-- **The induction rule of a loop.** What holds from the last iteration to its end, and from
    every other one if it holds from the next, holds from the start of the loop to its end. -/
theorem loop_ok {stuck : ε} {body : α → EStateM ε σ (α ⊕ γ)} {P : α → σ → γ → σ → Prop}
    (hinr : ∀ {a s c s'}, body a s = .ok (.inr c) s' → P a s c s')
    (hinl : ∀ {a s a' s₁ c s'}, body a s = .ok (.inl a') s₁ → P a' s₁ c s' → P a s c s')
    {a : α} {s s' : σ} {c : γ} (h : loop stuck body a s = .ok c s') : P a s c s' := by
  have hloopN : ∀ fuel a s, loopN stuck body fuel a s = .ok c s' → P a s c s' := by
    intro fuel
    induction fuel with
    | zero =>
      intro a s h
      injection h
    | succ fuel ih =>
      intro a s h
      obtain ⟨next, s₁, hbody, h⟩ := bind_eq_ok_iff.mp h
      cases next with
      | inl a' => exact hinl hbody (ih a' s₁ h)
      | inr c' =>
        injection h with hc hs
        rw [← hc, ← hs]
        exact hinr hbody
  exact hloopN _ a s h

/-- The last iteration gives the result of the loop. -/
theorem loopN_of_inr {stuck : ε} {body : α → EStateM ε σ (α ⊕ γ)} {a : α} {c : γ} {s s' : σ}
    (h : body a s = .ok (.inr c) s') (fuel : Nat) :
    loopN stuck body (fuel + 1) a s = .ok c s' := by
  show EStateM.bind (body a) _ s = _
  rw [EStateM.bind, h]
  rfl

end

end Lib
