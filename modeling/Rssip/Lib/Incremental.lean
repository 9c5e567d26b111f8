import Mathlib.Data.List.Basic

namespace Lib

/-!
# Incremental decoding

A decoder looks at a buffer and either takes an item off its front, asks for more input or
fails.  A stream arrives in chunks; after each chunk the decoder is called until it asks for
more.

* `drain` — the items at the front of a buffer, and how the decoding of it ends;
* `run` — the same for a stream that arrives in chunks;
* `Steady` — more input does not change what the decoder said about a prefix of the stream;
* `run_eq_drain` — on a steady stream the chunks do not matter.
-/

/-- What a decoder says about a buffer. -/
inductive Step (β ι ε : Type) where
  /-- An item, and the buffer without it. -/
  | item (i : ι) (rest : List β)
  /-- Not enough input; `reserve` more symbols are expected, if that is known. -/
  | pending (reserve : Nat)
  | fail (e : ε)
deriving DecidableEq

/-- How the decoding of some input ends: for want of more, with what is left, or in failure. -/
inductive Ending (β ε : Type) where
  | more (rest : List β)
  | failed (e : ε)
deriving DecidableEq

/-- The failure in an ending. -/
def Ending.failure {β ε : Type} : Ending β ε → Option ε
  | .more _ => none
  | .failed e => some e

variable {β ι ε : Type} (dec : List β → Step β ι ε)

/-- Calls the decoder until it gives no item, at most `fuel` times. -/
def drainN : Nat → List β → List ι × Ending β ε
  | 0, bs => ([], .more bs)
  | fuel + 1, bs =>
    match dec bs with
    | .item i rest => let (is, e) := drainN fuel rest; (i :: is, e)
    | .pending _ => ([], .more bs)
    | .fail e => ([], .failed e)

/-- Calls the decoder until it gives no item. -/
def drain (bs : List β) : List ι × Ending β ε := drainN dec (bs.length + 1) bs

/-- Appends the chunks to the buffer one by one and drains it after each, up to a failure. -/
def run : List β → List (List β) → List ι × Ending β ε
  | buffer, [] => ([], .more buffer)
  | buffer, chunk :: chunks =>
    match drain dec (buffer ++ chunk) with
    | (is, .more rest) => let (js, e) := run rest chunks; (is ++ js, e)
    | (is, .failed e) => (is, .failed e)

/-- An item is never empty. -/
def Progress : Prop := ∀ bs i rest, dec bs = .item i rest → rest.length < bs.length

variable {dec}

/-! ### Draining -/

section

variable (hprog : Progress dec)
include hprog

theorem drainN_congr {bs : List β} {n m : Nat} (hn : bs.length < n) (hm : bs.length < m) :
    drainN dec n bs = drainN dec m bs := by
  induction n generalizing bs m with
  | zero => omega
  | succ n ih =>
    obtain ⟨m, rfl⟩ : ∃ k, m = k + 1 := ⟨m - 1, by omega⟩
    unfold drainN
    cases hdec : dec bs with
    | item i rest =>
      have hlt := hprog bs i rest hdec
      simp only [ih (m := m) (show rest.length < n by omega) (by omega)]
    | pending reserve => rfl
    | fail e => rfl

theorem drain_item {bs rest : List β} {i : ι} (h : dec bs = .item i rest) :
    drain dec bs = (i :: (drain dec rest).1, (drain dec rest).2) := by
  have hlt := hprog bs i rest h
  unfold drain
  rw [drainN, h]
  dsimp only
  rw [drainN_congr hprog (n := bs.length) (m := rest.length + 1) (by omega) (by omega)]

end

theorem drain_pending {bs : List β} {reserve : Nat} (h : dec bs = .pending reserve) :
    drain dec bs = ([], .more bs) := by
  rw [drain, drainN, h]

theorem drain_fail {bs : List β} {e : ε} (h : dec bs = .fail e) :
    drain dec bs = ([], .failed e) := by
  rw [drain, drainN, h]

/-! ### Steady streams -/

/-- What the decoder says about a prefix of `s` that is enough for it, it says about `s`. -/
def SteadyAt (dec : List β → Step β ι ε) (s : List β) : Prop :=
  ∀ p q, p ++ q = s →
    (∀ i rest, dec p = .item i rest → dec s = .item i (rest ++ q)) ∧
    (∀ e, dec p = .fail e → dec s = .fail e)

/-- The stream is steady, here and after each of its items. -/
inductive Steady (dec : List β → Step β ι ε) : List β → Prop where
  | intro {s : List β} (here : SteadyAt dec s)
      (later : ∀ i rest, dec s = .item i rest → Steady dec rest) : Steady dec s

/-- **Draining a prefix of a steady stream first changes nothing.** -/
theorem drain_append (hprog : Progress dec) {a b : List β} (h : Steady dec (a ++ b)) :
    match drain dec a with
    | (is, .more rest) => drain dec (a ++ b) =
        (is ++ (drain dec (rest ++ b)).1, (drain dec (rest ++ b)).2) ∧ Steady dec (rest ++ b)
    | (is, .failed e) => drain dec (a ++ b) = (is, .failed e) := by
  generalize hs : a ++ b = s at h
  -- on the input that is steady, of which `a` is a part that has come
  induction h generalizing a with
  | @intro s here later ih =>
    obtain ⟨hitem, hfail⟩ := here a b hs
    cases hdec : dec a with
    | item i rest =>
      have hwhole := hitem i rest hdec
      have htail := ih i (rest ++ b) hwhole rfl
      rw [drain_item hprog hdec, drain_item hprog hwhole]
      cases hd : (drain dec rest).2 with
      | more r =>
        rw [show drain dec rest = ((drain dec rest).1, .more r) by rw [← hd]] at htail
        dsimp only at htail ⊢
        rw [htail.1]
        exact ⟨rfl, htail.2⟩
      | failed e =>
        rw [show drain dec rest = ((drain dec rest).1, .failed e) by rw [← hd]] at htail
        dsimp only at htail ⊢
        rw [htail]
    | pending reserve =>
      rw [drain_pending hdec]
      dsimp only
      rw [hs]
      exact ⟨rfl, .intro here later⟩
    | fail e =>
      rw [drain_fail hdec, drain_fail (hfail e hdec)]

/-- What is left after draining cannot be drained further. -/
theorem drain_rest (hprog : Progress dec) {bs : List β} {is : List ι} {rest : List β}
    (h : drain dec bs = (is, .more rest)) : drain dec rest = ([], .more rest) := by
  generalize hn : bs.length = n
  induction n using Nat.strongRecOn generalizing bs is with
  | ind n ih =>
    cases hdec : dec bs with
    | item i r =>
      have hlt := hprog bs i r hdec
      rw [drain_item hprog hdec, Prod.mk.injEq] at h
      exact ih r.length (by omega) (Prod.ext rfl h.2) rfl
    | pending reserve =>
      rw [drain_pending hdec, Prod.mk.injEq, Ending.more.injEq] at h
      rw [← h.2, drain_pending hdec]
    | fail e =>
      rw [drain_fail hdec, Prod.mk.injEq] at h
      exact absurd h.2 (by simp)

/-- **On a steady stream, the chunks in which it arrives do not matter.** -/
theorem run_eq_drain (hprog : Progress dec) {buffer : List β} {chunks : List (List β)}
    (hbuffer : drain dec buffer = ([], .more buffer)) (h : Steady dec (buffer ++ chunks.flatten)) :
    run dec buffer chunks = drain dec (buffer ++ chunks.flatten) := by
  induction chunks generalizing buffer with
  | nil => rw [run, List.flatten_nil, List.append_nil, hbuffer]
  | cons chunk chunks ih =>
    rw [List.flatten_cons, ← List.append_assoc] at h ⊢
    have happ := drain_append hprog h
    rw [run]
    cases hd : drain dec (buffer ++ chunk) with
    | mk is ending =>
      rw [hd] at happ
      cases ending with
      | more rest =>
        have hrest : drain dec rest = ([], .more rest) := drain_rest hprog hd
        dsimp only at happ ⊢
        rw [happ.1, ih hrest happ.2]
      | failed e => exact happ.symm

end Lib
