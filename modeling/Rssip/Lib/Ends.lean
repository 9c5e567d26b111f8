namespace Lib

/-!
# How a computation ends

A computation that may fail gives a value with one property, or fails with another one.

* `Ends` — the judgement;
* `ends_bind`, `ends_map`, `Ends.mono` — its rules.
-/

variable {ε α β : Type}

/-- A value has the property `P`, a failure the property `E`. -/
def Ends (E : ε → Prop) (P : α → Prop) : Except ε α → Prop
  | .ok a => P a
  | .error e => E e

variable {E : ε → Prop} {P : α → Prop} {Q : β → Prop}

@[simp] theorem ends_ok {a : α} : Ends E P (.ok a) ↔ P a := Iff.rfl

@[simp] theorem ends_error {e : ε} : Ends E P (.error e : Except ε α) ↔ E e := Iff.rfl

/-- **One computation after another.** -/
theorem ends_bind {x : Except ε α} {f : α → Except ε β} (hx : Ends E P x)
    (hf : ∀ a, P a → Ends E Q (f a)) : Ends E Q (x >>= f) := by
  cases x with
  | ok a => exact hf a hx
  | error e => exact hx

theorem ends_map {x : Except ε α} {f : α → β} (hx : Ends E (fun a => Q (f a)) x) :
    Ends E Q (x.map f) := by
  cases x with
  | ok a => exact hx
  | error e => exact hx

theorem Ends.mono {x : Except ε α} {P' : α → Prop} (hx : Ends E P x) (h : ∀ a, P a → P' a) :
    Ends E P' x := by
  cases x with
  | ok a => exact h a hx
  | error e => exact hx

/-- The property of a value. -/
theorem Ends.of_eq_ok {x : Except ε α} {a : α} (hx : Ends E P x) (h : x = .ok a) : P a := by
  rw [h] at hx
  exact hx

end Lib
