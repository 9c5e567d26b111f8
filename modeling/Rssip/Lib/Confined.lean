import Rssip.Lib.Reader

namespace Lib

/-!
# Readers that stay in a line

A reader that runs into the end of a line need not notice that the input goes on behind it.

* `Bounded E r` — the reader goes over a text, and its failures are in `E`;
* `Confined stop E r` — moreover, up to the end of a line, a symbol of `stop`, the reader does
  the same as on the line alone.

Both are kept by sequences, choices and loops.  `Confined.of_text` covers the readers whose
value determines the text they read, among them the scans for a delimiter, which may pass the
end of the line on their way to it; `Passing.bind` covers a scan for something that the next
reader asks for.
-/

open Cursor

variable {ε σ α β γ : Type} [Cursor σ β]

/-! ### What a run leaves -/

/-- From `s`, the reader returns `a` and leaves `left`. -/
def Gives (r : EStateM ε σ α) (s : σ) (a : α) (left : List β) : Prop :=
  ∃ s', r s = .ok a s' ∧ remaining s' = left

instance [DecidableEq α] [DecidableEq β] (r : EStateM ε σ α) (s : σ) (a : α) (left : List β) :
    Decidable (Gives r s a left) :=
  match h : r s with
  | .ok b s' => decidable_of_iff (b = a ∧ remaining s' = left) <| by
      constructor
      · rintro ⟨rfl, hleft⟩
        exact ⟨s', h, hleft⟩
      · rintro ⟨s'', h', hleft⟩
        rw [h] at h'
        injection h' with hb hs
        exact ⟨hb, hs ▸ hleft⟩
  | .error e s' => isFalse <| by
      rintro ⟨s'', h', -⟩
      rw [h] at h'
      cases h'

/-- What two readers in a row give: the second starts where the first has stopped. -/
theorem gives_bind {r : EStateM ε σ α} {f : α → EStateM ε σ γ} {s : σ} {c : γ} {left : List β} :
    Gives (r >>= f) s c left ↔ ∃ a s', r s = .ok a s' ∧ Gives (f a) s' c left := by
  constructor
  · rintro ⟨s'', h, hleft⟩
    obtain ⟨a, s', hr, hf⟩ := bind_eq_ok_iff.mp h
    exact ⟨a, s', hr, s'', hf, hleft⟩
  · rintro ⟨a, s', hr, s'', hf, hleft⟩
    exact ⟨s'', bind_eq_ok_iff.mpr ⟨a, s', hr, hf⟩, hleft⟩

/-- To return a value gives it and leaves everything. -/
theorem gives_pure {a b : α} {s : σ} {left : List β} :
    Gives (pure a : EStateM ε σ α) s b left ↔ b = a ∧ left = remaining s := by
  constructor
  · rintro ⟨s', h, hleft⟩
    injection h with hb hs
    rw [hb, hs]
    exact ⟨rfl, hleft.symm⟩
  · rintro ⟨rfl, rfl⟩
    exact ⟨s, rfl, rfl⟩

/-- To map a value changes what is given and not what is left. -/
theorem gives_map {r : EStateM ε σ α} {f : α → γ} {s : σ} {c : γ} {left : List β} :
    Gives (f <$> r) s c left ↔ ∃ a, f a = c ∧ Gives r s a left := by
  rw [map_eq_pure_bind, gives_bind]
  constructor
  · rintro ⟨a, s', hr, hpure⟩
    obtain ⟨rfl, hleft⟩ := gives_pure.mp hpure
    exact ⟨a, rfl, s', hr, hleft.symm⟩
  · rintro ⟨a, rfl, s', hr, hleft⟩
    exact ⟨a, s', hr, gives_pure.mpr ⟨rfl, hleft.symm⟩⟩

/-- What comes next may be replaced, where it is reached. -/
theorem Gives.bind_mono {r : EStateM ε σ α} {f f' : α → EStateM ε σ γ} {s : σ} {c : γ}
    {left : List β} (h : Gives (r >>= f) s c left)
    (hf : ∀ a s', r s = .ok a s' → Gives (f a) s' c left → Gives (f' a) s' c left) :
    Gives (r >>= f') s c left := by
  obtain ⟨a, s', hr, hgives⟩ := gives_bind.mp h
  exact gives_bind.mpr ⟨a, s', hr, hf a s' hr hgives⟩

/-- A reader gives one value. -/
theorem Gives.unique {r : EStateM ε σ α} {s : σ} {a a' : α} {left left' : List β}
    (h : Gives r s a left) (h' : Gives r s a' left') : a = a' ∧ left = left' := by
  obtain ⟨s₁, hr, hleft⟩ := h
  obtain ⟨s₂, hr', hleft'⟩ := h'
  rw [hr] at hr'
  injection hr' with ha hs
  exact ⟨ha, by rw [← hleft, ← hleft', hs]⟩

/-- A handler that fails does not change what a reader succeeds with. -/
theorem tryCatch_eq_ok_iff {E : ε → Prop} {r : EStateM ε σ α} {handle : ε → EStateM ε σ α}
    (hhandle : ∀ e s, ∃ e', handle e s = .error e' s ∧ E e') {s s' : σ} {a : α} :
    (MonadExcept.tryCatch r handle : EStateM ε σ α) s = .ok a s' ↔ r s = .ok a s' := by
  show EStateM.tryCatch r handle s = _ ↔ _
  rw [EStateM.tryCatch]
  cases hr : r s with
  | ok b s₁ => rfl
  | error e s₁ =>
    obtain ⟨e', he, -⟩ := hhandle e (EStateM.Backtrackable.restore s₁
      (EStateM.Backtrackable.save s))
    simp [he]

/-! ### Bounded readers -/

/-- The cursor has gone over a text. -/
def Advances (s s' : σ) : Prop :=
  ∃ text, remaining s = text ++ remaining s' ∧ s' = advance s text

namespace Advances

variable {s s' s'' : σ}

/-- A cursor that has not moved has gone over the empty text. -/
@[simp] protected theorem refl (s : σ) : Advances s s := ⟨[], rfl, rfl⟩

/-- A cursor that moves twice has gone over both texts. -/
protected theorem trans (h : Advances s s') (h' : Advances s' s'') : Advances s s'' := by
  obtain ⟨text, htext, hs'⟩ := h
  obtain ⟨text', htext', hs''⟩ := h'
  refine ⟨text ++ text', ?_, ?_⟩
  · rw [htext, htext', List.append_assoc]
  · rw [advance_append, ← hs', hs'']

/-- To go over a text in front is to go over a text. -/
theorem of_remaining {text rest : List β} (h : remaining s = text ++ rest) :
    Advances s (advance s text) :=
  ⟨text, by rw [h, remaining_advance h], rfl⟩

/-- To go over one symbol is to go over a text. -/
theorem bump {b : β} {bs : List β} (h : remaining s = b :: bs) : Advances s (bump s b) :=
  of_remaining (show remaining s = [b] ++ bs from h)

/-- What a cursor has left is a suffix of what it had. -/
theorem suffix (h : Advances s s') : remaining s' <:+ remaining s := by
  obtain ⟨text, htext, -⟩ := h
  exact ⟨text, htext.symm⟩

end Advances

/-- A reader goes over a text, and every failure is in `E`. -/
structure Bounded (E : ε → Prop) (r : EStateM ε σ α) : Prop where
  advances : ∀ {s a s'}, r s = .ok a s' → Advances s s'
  fails : ∀ {s e s'}, r s = .error e s' → E e ∧ Advances s s'

namespace Bounded

variable {E E' : ε → Prop} {r : EStateM ε σ α} {s s' : σ}

/-- On success what remains is a suffix of what did. -/
theorem suffix (h : Bounded E r) {a : α} (hr : r s = .ok a s') : remaining s' <:+ remaining s :=
  (h.advances hr).suffix

/-- A failure is one of those allowed. -/
theorem error (h : Bounded E r) {e : ε} (hr : r s = .error e s') : E e := (h.fails hr).1

/-- A reader leaves no more than there was. -/
theorem length_le (h : Bounded E r) {a : α} (hr : r s = .ok a s') :
    (remaining s').length ≤ (remaining s).length := (h.suffix hr).length_le

/-- More failures may be allowed. -/
theorem mono (hE : ∀ e, E e → E' e) (h : Bounded E r) : Bounded E' r where
  advances := h.advances
  fails hr := (h.fails hr).imp_left (hE _)

/-- To return a value goes nowhere and does not fail. -/
protected theorem pure (a : α) : Bounded E (pure a : EStateM ε σ α) where
  advances h := by
    injection h with _ hs
    exact hs ▸ Advances.refl _
  fails h := by injection h

/-- To fail goes nowhere; the failure has to be one of those allowed. -/
protected theorem throw {e : ε} (he : E e) : Bounded E (throw e : EStateM ε σ α) where
  advances h := by injection h
  fails h := by
    injection h with h hs
    exact ⟨h ▸ he, hs ▸ Advances.refl _⟩

/-- Two readers in a row go over the text of the first and then that of the second. -/
protected theorem bind {f : α → EStateM ε σ γ} (h₁ : Bounded E r) (h₂ : ∀ a, Bounded E (f a)) :
    Bounded E (r >>= f) where
  advances h := by
    obtain ⟨a, s', hr, hf⟩ := bind_eq_ok_iff.mp h
    exact (h₁.advances hr).trans ((h₂ a).advances hf)
  fails h := by
    rcases bind_eq_error_iff.mp h with hr | ⟨a, s', hr, hf⟩
    · exact h₁.fails hr
    · obtain ⟨he, hs⟩ := (h₂ a).fails hf
      exact ⟨he, (h₁.advances hr).trans hs⟩

/-- To map a value does not matter. -/
protected theorem map {f : α → γ} (h : Bounded E r) : Bounded E (f <$> r) := by
  rw [map_eq_pure_bind]
  exact h.bind fun a => Bounded.pure (f a)

/-- Looking at the cursor. -/
protected theorem get_bind {f : σ → EStateM ε σ γ} (h : ∀ s, Bounded E (f s)) :
    Bounded E (MonadState.get >>= f) where
  advances {s _ _} hr := (h s).advances hr
  fails {s _ _} hr := (h s).fails hr

/-- A handler that only replaces the failure. -/
protected theorem tryCatch {handle : ε → EStateM ε σ α} (h : Bounded E r)
    (hhandle : ∀ e s, ∃ e', handle e s = .error e' s ∧ E e') :
    Bounded E (MonadExcept.tryCatch r handle) where
  advances hr := h.advances ((tryCatch_eq_ok_iff hhandle).mp hr)
  fails {s e s'} hr := by
    have hr : EStateM.tryCatch r handle s = .error e s' := hr
    rw [EStateM.tryCatch] at hr
    cases hs : r s with
    | ok b s₁ =>
      rw [hs] at hr
      injection hr
    | error e₁ s₁ =>
      obtain ⟨e', he, hE⟩ := hhandle e₁ s₁
      rw [hs] at hr
      have hr : handle e₁ s₁ = .error e s' := hr
      rw [he] at hr
      injection hr with hr hs'
      rw [← hr, ← hs']
      exact ⟨hE, (h.fails hs).2⟩

end Bounded

/-! ### Confined readers -/

/-- `s` is in front of what `s₁` has left, the end of a line, and of `rest`, which is over or
    starts with the end of that line. -/
structure InLine (stop : β → Bool) (s s₁ : σ) (rest : List β) : Prop where
  whole : remaining s = remaining s₁ ++ rest
  rest : ∀ b ∈ rest.head?, stop b = true

/-- No symbol of `p` ends a line. -/
def Excludes (stop p : β → Bool) : Prop := ∀ b, stop b → p b = false

/-- A reader that, as long as it stays in its line, does the same as on the line alone. -/
structure Confined (stop : β → Bool) (E : ε → Prop) (r : EStateM ε σ α) : Prop
    extends Bounded E r where
  inLine : ∀ {s s₁ rest}, InLine stop s s₁ rest →
    ∀ a left, Gives r s₁ a left ↔ Gives r s a (left ++ rest)

variable {stop : β → Bool} {E : ε → Prop}

/-- What a reader leaves of the line is the end of a line again. -/
theorem InLine.of_left {s s₁ s' s₁' : σ} {rest : List β} (h : InLine stop s s₁ rest)
    (hs : remaining s' = remaining s₁' ++ rest) : InLine stop s' s₁' rest where
  whole := hs
  rest := h.rest

/-- The end of a line ends a scan without such symbols. -/
theorem Excludes.stops {p : β → Bool} (h : Excludes stop p) {s s₁ : σ} {rest : List β}
    (hline : InLine stop s s₁ rest) : Stops p rest :=
  fun b hb => h b (hline.rest b hb)

namespace Confined

variable {r : EStateM ε σ α} {s s₁ : σ} {rest : List β}

/-- To return a value does not look at the line. -/
protected theorem pure (a : α) : Confined stop E (pure a : EStateM ε σ α) where
  toBounded := Bounded.pure a
  inLine h b left := by
    rw [gives_pure, gives_pure, h.whole]
    simp

/-- To fail does not look at the line. -/
protected theorem throw {e : ε} (he : E e) : Confined stop E (throw e : EStateM ε σ α) where
  toBounded := Bounded.throw he
  inLine _ _ _ := by
    constructor <;>
    · rintro ⟨s', h, -⟩
      injection h

/-- Two readers in a row stay in the line if both do, and the second starts in the line where the
    first has stopped. -/
protected theorem bind {f : α → EStateM ε σ γ} (h₁ : Confined stop E r)
    (h₂ : ∀ a, Confined stop E (f a)) : Confined stop E (r >>= f) where
  toBounded := h₁.toBounded.bind fun a => (h₂ a).toBounded
  inLine {s s₁ rest} h c left := by
    rw [gives_bind, gives_bind]
    constructor
    · rintro ⟨a, s₁', hr, hf⟩
      obtain ⟨s', hr', hleft⟩ := (h₁.inLine h a _).mp ⟨s₁', hr, rfl⟩
      have hnext := h.of_left hleft
      exact ⟨a, s', hr', ((h₂ a).inLine hnext c left).mp hf⟩
    · rintro ⟨a, s', hr, hf⟩
      -- the second reader leaves all of `rest`, so that the first one has not reached it
      obtain ⟨s'', hf', hleft⟩ := hf
      obtain ⟨text, htext⟩ := (h₂ a).suffix hf'
      rw [hleft, ← List.append_assoc] at htext
      obtain ⟨s₁', hr', hleft'⟩ := (h₁.inLine h a (text ++ left)).mpr ⟨s', hr, htext.symm⟩
      have hnext : InLine stop s' s₁' rest :=
        h.of_left (by rw [hleft', htext])
      exact ⟨a, s₁', hr', ((h₂ a).inLine hnext c left).mpr ⟨s'', hf', hleft⟩⟩

/-- To map a value does not change where a reader stays. -/
protected theorem map {f : α → γ} (h : Confined stop E r) : Confined stop E (f <$> r) := by
  rw [map_eq_pure_bind]
  exact h.bind fun a => Confined.pure (f a)

/-- A reader that chooses stays in its line if both branches do. -/
protected theorem ite {c : Prop} [Decidable c] {r' : EStateM ε σ α} (h : Confined stop E r)
    (h' : Confined stop E r') : Confined stop E (if c then r else r') := by
  split <;> assumption

/-- More failures may be allowed to a confined reader too. -/
theorem mono {E' : ε → Prop} (hE : ∀ e, E e → E' e) (h : Confined stop E r) :
    Confined stop E' r where
  toBounded := h.toBounded.mono hE
  inLine := h.inLine

/-- Looking at what remains of the line. -/
protected theorem get_bind {ξ : Type} {f : σ → ξ} {k : ξ → EStateM ε σ γ}
    (hf : ∀ {s s₁ rest}, InLine stop s s₁ rest → f s = f s₁) (hk : ∀ x, Confined stop E (k x)) :
    Confined stop E (MonadState.get >>= fun s => k (f s)) where
  toBounded := Bounded.get_bind fun s => (hk (f s)).toBounded
  inLine {s s₁ rest} h c left := by
    have hstep : Gives (k (f s₁)) s₁ c left ↔ Gives (k (f s)) s c (left ++ rest) := by
      rw [hf h]
      exact (hk (f s₁)).inLine h c left
    exact hstep

/-- **What follows the line does not matter**: in front of `line`, however the input goes on
    behind it, the reader does the same.  `u` is a cursor with the line alone. -/
theorem transfer {s s' t : σ} {line rest rest' : List β} {a : α} (h : Confined stop E r)
    (u : σ) (left : List β) (hu : remaining u = line) (hrun : r s = .ok a s') (hs : remaining s = line ++ rest)
    (hs' : remaining s' = left ++ rest) (hrest : ∀ b ∈ rest.head?, stop b)
    (ht : remaining t = line ++ rest') (hrest' : ∀ b ∈ rest'.head?, stop b) :
    ∃ t', r t = .ok a t' ∧ remaining t' = left ++ rest' := by
  have hline : InLine stop s u rest := ⟨by rw [hu, hs], hrest⟩
  have hline' : InLine stop t u rest' := ⟨by rw [hu, ht], hrest'⟩
  exact (h.inLine hline' a left).mp ((h.inLine hline a left).mpr ⟨s', hrun, hs'⟩)

/-- Regrouping the first two readers of three. -/
protected theorem bind_assoc {δ : Type} {f : α → EStateM ε σ δ} {g : δ → EStateM ε σ γ}
    (h₁ : Confined stop E (r >>= f)) (h₂ : ∀ b, Confined stop E (g b)) :
    Confined stop E (r >>= fun a => f a >>= g) := by
  rw [← LawfulMonad.bind_assoc]
  exact h₁.bind h₂

/-- A reader whose value only depends on the text it reads, and the other way round. -/
theorem of_text {T : α → List β → Prop} (hbounded : Bounded E r)
    (h : ∀ s a left, Gives r s a left ↔ ∃ text, T a text ∧ remaining s = text ++ left) :
    Confined stop E r where
  toBounded := hbounded
  inLine {s s₁ rest} hline a left := by
    rw [h, h]
    refine exists_congr fun text => and_congr_right' ?_
    rw [hline.whole, ← List.append_assoc, List.append_cancel_right_eq]

/-- A handler that only replaces the failure. -/
protected theorem tryCatch {handle : ε → EStateM ε σ α} (h : Confined stop E r)
    (hhandle : ∀ e s, ∃ e', handle e s = .error e' s ∧ E e') :
    Confined stop E (MonadExcept.tryCatch r handle) where
  toBounded := h.toBounded.tryCatch hhandle
  inLine hline a left := by
    have hgives : ∀ s left, Gives (MonadExcept.tryCatch r handle : EStateM ε σ α) s a left ↔
        Gives r s a left :=
      fun s left => exists_congr fun s' => and_congr_left' (tryCatch_eq_ok_iff hhandle)
    rw [hgives, hgives]
    exact h.inLine hline a left

end Confined

/-! ### Readers that pass the end of a line -/

/-- A reader that goes on behind the end of a line, unless it has stopped before. -/
structure Passing (stop : β → Bool) (E : ε → Prop) (r : EStateM ε σ α) : Prop
    extends Bounded E r where
  inLine : ∀ {s s₁ rest}, InLine stop s s₁ rest → ∀ a left,
    Gives r s a (left ++ rest) ↔ Gives r s₁ a left ∧ (left = [] → rest = [])

/-- To map a value does not change whether a reader goes on behind its line. -/
protected theorem Passing.map {r : EStateM ε σ α} {f : α → γ} (h : Passing stop E r) :
    Passing stop E (f <$> r) where
  toBounded := h.toBounded.map
  inLine hline c left := by
    simp only [gives_map, h.inLine hline, ← and_assoc, exists_and_right]

/-- **A reader that passes the end of a line** stays in its line together with one that needs
    something behind it. -/
theorem Passing.bind {r : EStateM ε σ α} {f : α → EStateM ε σ γ} (h₁ : Passing stop E r)
    (h₂ : ∀ a, Confined stop E (f a)) (hend : ∀ a, Fails (f a) []) :
    Confined stop E (r >>= f) where
  toBounded := h₁.toBounded.bind fun a => (h₂ a).toBounded
  inLine {s s₁ rest} h c left := by
    rw [gives_bind, gives_bind]
    constructor
    · rintro ⟨a, s₁', hr, hf⟩
      -- something is left of the line, for the second reader
      have hleft : remaining s₁' ≠ [] := by
        intro hnil
        obtain ⟨s₁'', hf', -⟩ := hf
        obtain ⟨e, t, he⟩ := hend a s₁' hnil
        rw [he] at hf'
        cases hf'
      obtain ⟨s', hr', hrem⟩ := (h₁.inLine h a _).mpr ⟨⟨s₁', hr, rfl⟩, fun hnil => absurd hnil hleft⟩
      exact ⟨a, s', hr', ((h₂ a).inLine (h.of_left hrem) c left).mp hf⟩
    · rintro ⟨a, s', hr, hf⟩
      obtain ⟨s'', hf', hleft⟩ := hf
      obtain ⟨text, htext⟩ := (h₂ a).suffix hf'
      rw [hleft, ← List.append_assoc] at htext
      obtain ⟨⟨s₁', hr', hleft'⟩, -⟩ := (h₁.inLine h a (text ++ left)).mp ⟨s', hr, htext.symm⟩
      have hnext : InLine stop s' s₁' rest := h.of_left (by rw [hleft', htext])
      exact ⟨a, s₁', hr', ((h₂ a).inLine hnext c left).mpr ⟨s'', hf', hleft⟩⟩

/-! ### Where a reader stands -/

/-- What remains is all that a reader depends on. -/
def Placeless (r : EStateM ε σ α) : Prop :=
  ∀ s t : σ, remaining s = remaining t → ∀ a left, Gives r s a left → Gives r t a left

/-- A reader that does the same on the line alone depends on nothing but what remains. -/
theorem Confined.placeless {r : EStateM ε σ α} (h : Confined stop E r) : Placeless r := by
  intro s t hst a left hgives
  have hline : InLine stop s t [] := ⟨by rw [hst, List.append_nil], by simp⟩
  rw [h.inLine hline, List.append_nil]
  exact hgives

/-- Two readers in a row depend on what remains only if both do. -/
theorem Placeless.bind {r : EStateM ε σ α} {f : α → EStateM ε σ γ} (h₁ : Placeless r)
    (h₂ : ∀ a, Placeless (f a)) : Placeless (r >>= f) := by
  intro s t hst c left hgives
  obtain ⟨a, s', hr, hf⟩ := gives_bind.mp hgives
  obtain ⟨t', hr', hrem⟩ := h₁ s t hst a _ ⟨s', hr, rfl⟩
  exact gives_bind.mpr ⟨a, t', hr', h₂ a s' t' hrem.symm c left hf⟩

/-! ### Loops -/

/-- Every iteration that is followed by another one consumes something. -/
def Consumes (body : α → EStateM ε σ (α ⊕ γ)) : Prop :=
  ∀ {a s a' s'}, body a s = .ok (.inl a') s' → (remaining s').length < (remaining s).length

section Loop

variable {body : α → EStateM ε σ (α ⊕ γ)} {stuck : ε}

/-- With fuel left, a loop runs its body once and then goes on or stops. -/
theorem loopN_succ (fuel : Nat) (a : α) : loopN stuck body (fuel + 1) a = (do
    match ← body a with
    | .inl a => loopN stuck body fuel a
    | .inr c => return c) := rfl

/-- With more fuel than symbols, the amount of it does not matter. -/
theorem loopN_eq (hconsumes : Consumes body) {fuel fuel' : Nat} {a : α} {s : σ}
    (h : (remaining s).length < fuel) (h' : (remaining s).length < fuel') :
    loopN stuck body fuel a s = loopN stuck body fuel' a s := by
  induction fuel generalizing fuel' a s with
  | zero => omega
  | succ fuel ih =>
    obtain ⟨fuel', rfl⟩ : ∃ n, fuel' = n + 1 := ⟨fuel' - 1, by omega⟩
    rw [loopN_succ, loopN_succ]
    show EStateM.bind (body a) _ s = EStateM.bind (body a) _ s
    rw [EStateM.bind, EStateM.bind]
    cases hbody : body a s with
    | error e s' => rfl
    | ok next s' =>
      cases next with
      | inr c => rfl
      | inl a' =>
        have hlt := hconsumes hbody
        exact ih (by omega) (by omega)

/-- A loop goes forward if its body does. The induction is on the fuel. -/
theorem bounded_loopN (h : ∀ a, Bounded E (body a)) (fuel : Nat) (a : α) :
    Bounded (fun _ => True) (loopN stuck body fuel a) := by
  induction fuel generalizing a with
  | zero => exact Bounded.throw trivial
  | succ fuel ih =>
    have hbody : Bounded (fun _ => True) (body a) := (h a).mono fun _ _ => trivial
    refine hbody.bind fun next => ?_
    cases next with
    | inl a' => exact ih a'
    | inr c => exact Bounded.pure c

/-- A loop is confined to its line if its body is. The induction is on the fuel. -/
theorem confined_loopN (h : ∀ a, Confined stop E (body a)) (fuel : Nat) (a : α) :
    Confined stop (fun _ => True) (loopN stuck body fuel a) := by
  induction fuel generalizing a with
  | zero => exact Confined.throw trivial
  | succ fuel ih =>
    have hbody : Confined stop (fun _ => True) (body a) := (h a).mono fun _ _ => trivial
    refine hbody.bind fun next => ?_
    cases next with
    | inl a' => exact ih a'
    | inr c => exact Confined.pure c

/-- From `a` and `s`, some iterations that are followed by another one. -/
inductive Reaches (body : α → EStateM ε σ (α ⊕ γ)) : α → σ → α → σ → Prop
  | refl (a : α) (s : σ) : Reaches body a s a s
  | step {a s a₁ s₁ a' s'} (h : body a s = .ok (.inl a₁) s₁) (htl : Reaches body a₁ s₁ a' s') :
      Reaches body a s a' s'

/-- Iterations that were reached are followed by one more. -/
theorem Reaches.concat {a : α} {s : σ} {a₁ : α} {s₁ : σ} {a' : α} {s' : σ}
    (h : Reaches body a s a₁ s₁) (hbody : body a₁ s₁ = .ok (.inl a') s') :
    Reaches body a s a' s' := by
  induction h with
  | refl a s => exact Reaches.step hbody (Reaches.refl _ _)
  | step h _ ih => exact Reaches.step h (ih hbody)

/-- With enough fuel, a loop fails exactly where an iteration that it reaches fails. -/
theorem loopN_eq_error_iff (hconsumes : Consumes body) {fuel : Nat} {a : α} {s : σ}
    (hfuel : (remaining s).length < fuel) {e : ε} {s' : σ} :
    loopN stuck body fuel a s = .error e s' ↔
      ∃ a₁ s₁, Reaches body a s a₁ s₁ ∧ body a₁ s₁ = .error e s' := by
  constructor
  · intro h
    induction fuel generalizing a s with
    | zero => omega
    | succ fuel ih =>
      rw [loopN_succ] at h
      rcases bind_eq_error_iff.mp h with hbody | ⟨next, s₁, hbody, h⟩
      · exact ⟨a, s, Reaches.refl a s, hbody⟩
      · cases next with
        | inr c => injection h
        | inl a₁ =>
          have hlt := hconsumes hbody
          obtain ⟨a₂, s₂, hreaches, herror⟩ := ih (by omega) h
          exact ⟨a₂, s₂, Reaches.step hbody hreaches, herror⟩
  · rintro ⟨a₁, s₁, hreaches, herror⟩
    induction hreaches generalizing fuel with
    | refl a s =>
      obtain ⟨fuel, rfl⟩ : ∃ n, fuel = n + 1 := ⟨fuel - 1, by omega⟩
      exact bind_eq_error_iff.mpr (Or.inl herror)
    | step hbody _ ih =>
      obtain ⟨fuel, rfl⟩ : ∃ n, fuel = n + 1 := ⟨fuel - 1, by omega⟩
      have hlt := hconsumes hbody
      exact bind_eq_error_iff.mpr (Or.inr ⟨_, _, hbody, ih (by omega) herror⟩)

/-- **How a loop fails**: in an iteration that it reaches. -/
theorem loop_eq_error_iff (hconsumes : Consumes body) {a : α} {s s' : σ} {e : ε} :
    loop stuck body a s = .error e s' ↔
      ∃ a₁ s₁, Reaches body a s a₁ s₁ ∧ body a₁ s₁ = .error e s' := by
  rw [loop]
  exact loopN_eq_error_iff @hconsumes (Nat.lt_succ_self (remaining s).length)

/-- What a loop collects is paid for by what its iterations consume, up to `k` for the last. -/
theorem size_loop (size : α → Nat) (size' : γ → Nat) (k : Nat)
    (hinl : ∀ {a s a' s'}, body a s = .ok (.inl a') s' →
      size a' + (remaining s').length ≤ size a + (remaining s).length)
    (hinr : ∀ {a s c s'}, body a s = .ok (.inr c) s' →
      size' c + (remaining s').length ≤ size a + (remaining s).length + k)
    {a : α} {s s' : σ} {c : γ} (h : loop stuck body a s = .ok c s') :
    size' c + (remaining s').length ≤ size a + (remaining s).length + k := by
  apply loop_ok (P := fun a s c s' =>
    size' c + (remaining s').length ≤ size a + (remaining s).length + k) hinr _ h
  intro a s a' s₁ c s' hbody hrest
  have hstep := hinl hbody
  omega

/-- **A loop that makes progress never gets stuck.** -/
theorem Bounded.loop (h : ∀ a, Bounded E (body a)) (hconsumes : Consumes body) (a : α) :
    Bounded E (loop stuck body a) where
  advances {s _ _} hr := (bounded_loopN h ((remaining s).length + 1) a).advances hr
  fails {s _ _} hr := by
    obtain ⟨a₁, s₁, -, herror⟩ := (loop_eq_error_iff hconsumes).mp hr
    exact ⟨(h a₁).error herror, ((bounded_loopN h ((remaining s).length + 1) a).fails hr).2⟩

/-- **A loop stays in its line** when its iterations do. -/
theorem Confined.loop (h : ∀ a, Confined stop E (body a)) (hconsumes : Consumes body) (a : α) :
    Confined stop E (loop stuck body a) where
  toBounded := Bounded.loop (fun a => (h a).toBounded) hconsumes a
  inLine {s s₁ rest} hline c left := by
    have hlen : (remaining s₁).length ≤ (remaining s).length := by
      rw [hline.whole, List.length_append]
      omega
    have hfuel : Lib.loop stuck body a s₁ = loopN stuck body ((remaining s).length + 1) a s₁ :=
      loopN_eq hconsumes (Nat.lt_succ_self _) (by omega)
    have hstep : Gives (loopN stuck body ((remaining s).length + 1) a) s₁ c left ↔
        Gives (loopN stuck body ((remaining s).length + 1) a) s c (left ++ rest) :=
      (confined_loopN h _ a).inLine hline c left
    rw [Gives, hfuel]
    exact hstep

end Loop

end Lib
