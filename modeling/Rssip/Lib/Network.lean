import Mathlib.Logic.Function.Basic
import Rssip.Lib.Machine

namespace Lib

/-!
# Networks

Parties that take steps of their own, and packets between them.  A packet that was sent may be
lost, may arrive any number of times and in any order, and at any party.

* `Party` — the steps of a party, what a packet does to it, and the packets it has sent so far;
* `Party.netStep` — a step of one party, or the arrival of a packet that was sent;
* `Party.Relies.exec` — what a party keeps as long as it takes in packets that were sent.
-/

/-- The steps `ε` of a party with the states `σ`, and what it does with a packet `π` that arrives
    in the manner `κ`. -/
structure Party (σ ε κ π : Type) where
  step : σ → ε → σ
  receive : κ → π → σ → σ
  sent : σ → List π

/-- The party `i` makes a step, or the packet `n` of the party `j` arrives at it. -/
inductive NetworkEvent (ι ε κ : Type) where
  | acts (i : ι) (e : ε)
  | arrives (i j : ι) (n : Nat) (how : κ)

namespace Party

variable {ι σ ε κ π : Type} [DecidableEq ι] (p : Party σ ε κ π)

/-- A step of the network: a party acts, or a packet that was sent arrives somewhere. -/
def netStep (w : ι → σ) : NetworkEvent ι ε κ → ι → σ
  | .acts i e => Function.update w i (p.step (w i) e)
  | .arrives i j n how =>
    match (p.sent (w j))[n]? with
    | some packet => Function.update w i (p.receive how packet (w i))
    | none => w

/-- A party has sent the packet. -/
def Sent (w : ι → σ) (packet : π) : Prop := ∃ i, packet ∈ p.sent (w i)

/-- A party keeps `inv Genuine` whatever it does, and whatever genuine packets it takes in, and
    what it has sent stays sent. -/
structure Relies (inv : (π → Prop) → σ → Prop) : Prop where
  mono : ∀ {Genuine Genuine' : π → Prop} {s : σ}, (∀ packet, Genuine packet → Genuine' packet) →
    inv Genuine s → inv Genuine' s
  step : ∀ {Genuine : π → Prop} {s : σ} (e : ε), inv Genuine s →
    inv Genuine (p.step s e) ∧ p.sent s ⊆ p.sent (p.step s e)
  receive : ∀ {Genuine : π → Prop} {s : σ} (how : κ) {packet : π}, Genuine packet →
    inv Genuine s →
      inv Genuine (p.receive how packet s) ∧ p.sent s ⊆ p.sent (p.receive how packet s)

variable {p} {inv : (π → Prop) → σ → Prop}

/-- **What a step of a network does**: one party changes, by a step of its own or by taking in a
    packet that was sent, or nothing does. -/
theorem netStep_cases (w : ι → σ) (e : NetworkEvent ι ε κ) :
    (∃ i e', p.netStep w e = Function.update w i (p.step (w i) e')) ∨
      (∃ i how packet, p.Sent w packet ∧
        p.netStep w e = Function.update w i (p.receive how packet (w i))) ∨
      p.netStep w e = w := by
  cases e with
  | acts i e => exact .inl ⟨i, e, rfl⟩
  | arrives i j n how =>
    cases hpacket : (p.sent (w j))[n]? with
    | some packet =>
      have hsent : p.Sent w packet := ⟨j, List.mem_of_getElem? hpacket⟩
      exact .inr (.inl ⟨i, how, packet, hsent, by simp only [netStep, hpacket]⟩)
    | none => exact .inr (.inr (by simp only [netStep, hpacket]))

/-- What holds of every party still does when one of them changes. -/
theorem forall_update {q : σ → Prop} {w : ι → σ} (h : ∀ i, q (w i)) {i : ι} {s : σ} (hs : q s)
    (j : ι) : q (Function.update w i s j) := by
  by_cases hj : j = i
  · rw [hj, Function.update_self]
    exact hs
  · rw [Function.update_of_ne hj]
    exact h j

theorem sent_update {w : ι → σ} {i : ι} {s : σ} (hsub : p.sent (w i) ⊆ p.sent s) {packet : π}
    (h : p.Sent w packet) : p.Sent (Function.update w i s) packet := by
  obtain ⟨j, hmem⟩ := h
  refine ⟨j, ?_⟩
  by_cases hj : j = i
  · subst hj
    rw [Function.update_self]
    exact hsub hmem
  · rw [Function.update_of_ne hj]
    exact hmem

/-- **What a party keeps as long as it takes in genuine packets, it keeps in a network** whose
    genuine packets are those that were sent. -/
theorem Relies.netStep (h : p.Relies inv) {w : ι → σ} (hinv : ∀ i, inv (p.Sent w) (w i))
    (e : NetworkEvent ι ε κ) : ∀ i, inv (p.Sent (p.netStep w e)) (p.netStep w e i) := by
  -- the party that changes keeps its invariant, and all that was sent
  have hupdate : ∀ i s, inv (p.Sent w) s ∧ p.sent (w i) ⊆ p.sent s →
      ∀ j, inv (p.Sent (Function.update w i s)) (Function.update w i s j) := by
    rintro i s ⟨hs, hsub⟩ j
    refine h.mono (fun packet hpacket => sent_update hsub hpacket) ?_
    exact forall_update hinv hs j
  rcases netStep_cases w e with ⟨i, e', hstep⟩ | ⟨i, how, packet, hpacket, hstep⟩ | hstep <;>
    rw [hstep]
  · exact hupdate i _ (h.step e' (hinv i))
  · exact hupdate i _ (h.receive how hpacket (hinv i))
  · exact hinv

theorem Relies.exec (h : p.Relies inv) {w : ι → σ} (hinv : ∀ i, inv (p.Sent w) (w i))
    (es : List (NetworkEvent ι ε κ)) :
    ∀ i, inv (p.Sent (Lib.exec p.netStep w es)) (Lib.exec p.netStep w es i) := by
  have hstep : ∀ (w : ι → σ) e, (∀ i, inv (p.Sent w) (w i)) →
      ∀ i, inv (p.Sent (p.netStep w e)) (p.netStep w e i) := fun _ e hw => h.netStep hw e
  exact exec_invariant hstep hinv es

end Party

end Lib
