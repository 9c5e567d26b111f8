import Rssip.Lib.Reader

namespace Lib

/-!
# What a computation yields

Partial correctness of a computation that may fail: whenever it succeeds from a state with the
invariant `S`, its value has the property `P` and the invariant still holds.  `ReadsOver` is the
case where the invariant is about the text that has been read.
-/

variable {ε σ α γ : Type}

/-- From a state with `S`, every value of `r` has `P`, and leaves a state with `S`. -/
def Yields (S : σ → Prop) (P : α → Prop) (r : EStateM ε σ α) : Prop :=
  ∀ s a s', S s → r s = .ok a s' → P a ∧ S s'

namespace Yields

variable {S : σ → Prop} {P P' : α → Prop} {Q : γ → Prop} {r r' : EStateM ε σ α}

/-- A weaker property holds as well. -/
theorem imp (h : Yields S P r) (hP : ∀ a, P a → P' a) : Yields S P' r :=
  fun s a s' hs hr => ⟨hP a (h s a s' hs hr).1, (h s a s' hs hr).2⟩

/-- A value that is returned has to have the property. -/
protected theorem pure {a : α} (ha : P a) : Yields (ε := ε) S P (pure a : EStateM ε σ α) := by
  intro s b s' hs h
  injection h with hb hs'
  rw [← hb, ← hs']
  exact ⟨ha, hs⟩

/-- A failure gives no value, so everything holds of it. -/
protected theorem throw (e : ε) : Yields S P (throw e : EStateM ε σ α) := by
  intro s b s' hs h
  injection h

/-- The second of two readers may use what the first one's value has. -/
protected theorem bind {f : α → EStateM ε σ γ} (h₁ : Yields S P r)
    (h₂ : ∀ a, P a → Yields S Q (f a)) : Yields S Q (r >>= f) := by
  intro s c s'' hs h
  obtain ⟨a, s', hr, hf⟩ := bind_eq_ok_iff.mp h
  obtain ⟨ha, hs'⟩ := h₁ s a s' hs hr
  exact h₂ a ha s' c s'' hs' hf

/-- A value that is mapped has to have the property then. -/
protected theorem map {f : α → γ} (h : Yields S P r) (hf : ∀ a, P a → Q (f a)) :
    Yields S Q (f <$> r) := by
  rw [map_eq_pure_bind]
  exact h.bind fun a ha => Yields.pure (hf a ha)

/-- Both branches of a choice have to give the property. -/
protected theorem ite {c : Prop} [Decidable c] (h : Yields S P r) (h' : Yields S P r') :
    Yields S P (if c then r else r') := by
  split <;> assumption

/-- Looking at the state. -/
protected theorem get_bind {f : σ → EStateM ε σ γ} (h : ∀ s, Yields S Q (f s)) :
    Yields S Q (MonadState.get >>= f) := fun s a s' hs hr => h s s a s' hs hr

/-- **A loop** whose iterations keep `P`, and end with `Q`. -/
protected theorem loop {β : Type} [Cursor σ β] {stuck : ε} {body : α → EStateM ε σ (α ⊕ γ)}
    (h : ∀ a, P a → Yields S (Sum.elim P Q) (body a)) {a : α} (ha : P a) :
    Yields S Q (loop stuck body a) := by
  intro s c s' hs hr
  apply loop_ok (P := fun a s c s' => P a → S s → Q c ∧ S s') _ _ hr ha hs
  · intro a s c s' hbody ha hs
    exact h a ha s _ s' hs hbody
  · intro a s a' s₁ c s' hbody hrest ha hs
    obtain ⟨ha', hs₁⟩ := h a ha s _ s₁ hs hbody
    exact hrest ha' hs₁

end Yields

/-! ### The text that is read -/

section Text

variable {β : Type} [Cursor σ β] {T : List β → Prop}

/-- What has been read of `s` has `T`. -/
def ReadFrom (T : List β → Prop) (s : List β) (c : σ) : Prop :=
  ∃ text, s = text ++ Cursor.remaining c ∧ T text

/-- Whatever `r` reads is added to a text with `T`, and the text has it still. -/
def ReadsOver (T : List β → Prop) (r : EStateM ε σ α) : Prop :=
  ∀ s, Yields (ReadFrom T s) (fun _ => True) r

variable {r r' : EStateM ε σ α}

/-- A computation that reads texts with `T`, where these may be put together. -/
theorem ReadsOver.of_text (happend : ∀ {xs ys}, T xs → T ys → T (xs ++ ys))
    (h : ∀ {c a c'}, r c = .ok a c' →
      ∃ text, Cursor.remaining c = text ++ Cursor.remaining c' ∧ T text) : ReadsOver T r := by
  rintro s c a c' ⟨before, hs, hbefore⟩ hr
  obtain ⟨text, hc, htext⟩ := h hr
  refine ⟨trivial, before ++ text, ?_, happend hbefore htext⟩
  rw [hs, hc, List.append_assoc]

/-- What a reader over texts has consumed is such a text. -/
theorem ReadsOver.exists_text (hnil : T []) (h : ReadsOver T r) {c c' : σ} {a : α}
    (hr : r c = .ok a c') : ∃ text, Cursor.remaining c = text ++ Cursor.remaining c' ∧ T text :=
  (h _ c a c' ⟨[], rfl, hnil⟩ hr).2

/-- To return a value reads nothing. -/
theorem ReadsOver.pure (a : α) : ReadsOver T (pure a : EStateM ε σ α) :=
  fun _ => Yields.pure trivial

/-- To fail reads nothing that counts. -/
theorem ReadsOver.throw (e : ε) : ReadsOver T (throw e : EStateM ε σ α) := fun _ => Yields.throw e

/-- Two readers in a row add one text after the other. -/
theorem ReadsOver.bind {f : α → EStateM ε σ γ} (h : ReadsOver T r) (hf : ∀ a, ReadsOver T (f a)) :
    ReadsOver T (r >>= f) := fun s => (h s).bind fun a _ => hf a s

/-- To map a value reads the same text. -/
theorem ReadsOver.map {f : α → γ} (h : ReadsOver T r) : ReadsOver T (f <$> r) :=
  fun s => (h s).map fun _ _ => trivial

/-- Both branches of a choice have to read such texts. -/
theorem ReadsOver.ite {c : Prop} [Decidable c] (h : ReadsOver T r) (h' : ReadsOver T r') :
    ReadsOver T (if c then r else r') := fun s => (h s).ite (h' s)

/-- A loop adds the texts of its iterations. The induction is on the fuel. -/
theorem ReadsOver.loop {stuck : ε} {body : α → EStateM ε σ (α ⊕ γ)}
    (h : ∀ a, ReadsOver T (body a)) (a : α) : ReadsOver T (Lib.loop stuck body a) := by
  have hnext : ∀ next : α ⊕ γ, Sum.elim (fun _ => True) (fun _ => True) next := by
    rintro (a | c) <;> trivial
  exact fun s => Yields.loop (P := fun _ => True) (fun a _ => (h a s).imp fun _ _ => hnext _) trivial

end Text

end Lib
