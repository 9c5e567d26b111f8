import Rssip.Lib.Incremental

namespace Lib

/-!
# What is seen of a decoded stream

An observer sees some of the items that a decoder takes off a stream.  The chunks in which the
stream arrives may change the items, and not what is seen of them.

* `seen` — what an observer sees of the decoding of some input;
* `SteadySeen` — more input does not change what is seen of an item and the rest;
* `seen_drain_append` — a beginning of the input can be decoded first.
-/

variable {β ι ε ο : Type}

/-- The items that the observer sees, and how the decoding ends. -/
def seen (view : ι → Option ο) (decoded : List ι × Ending β ε) : List ο × Ending β ε :=
  (decoded.1.filterMap view, decoded.2)

/-- Something is seen before. -/
def behind (before : List ο) (after : List ο × Ending β ε) : List ο × Ending β ε :=
  (before ++ after.1, after.2)

@[simp] theorem behind_nil (after : List ο × Ending β ε) : behind [] after = after := rfl

theorem seen_cons (view : ι → Option ο) (i : ι) (decoded : List ι × Ending β ε) :
    seen view (i :: decoded.1, decoded.2) = behind (view i).toList (seen view decoded) := by
  cases hview : view i <;> simp [seen, behind, hview]

variable {view : ι → Option ο} {dec : List β → Step β ι ε}

/-- Where a beginning `p` of the input gives an item, what is seen of the whole input is what is
    seen of the item and then of the rest; where it fails, the whole input does. -/
structure SteadySeen (view : ι → Option ο) (dec : List β → Step β ι ε) : Prop where
  progress : Progress dec
  item : ∀ p q i rest, dec p = .item i rest →
    seen view (drain dec (p ++ q)) = behind (view i).toList (seen view (drain dec (rest ++ q)))
  fail : ∀ p q e, dec p = .fail e → dec (p ++ q) = .fail e

/-- **To the observer, a beginning of the input can be decoded first.** -/
theorem seen_drain_append (h : SteadySeen view dec) (a b : List β) :
    seen view (drain dec (a ++ b)) =
      match drain dec a with
      | (is, .more rest) => behind (is.filterMap view) (seen view (drain dec (rest ++ b)))
      | (is, .failed e) => (is.filterMap view, .failed e) := by
  generalize hn : a.length = n
  induction n using Nat.strongRecOn generalizing a with
  | ind n ih =>
    cases hdec : dec a with
    | item i rest =>
      have hlt := h.progress a i rest hdec
      rw [h.item a b i rest hdec, ih rest.length (by omega) rest rfl,
        drain_item h.progress hdec]
      cases hd : drain dec rest with
      | mk is ending =>
        cases hview : view i <;> cases ending <;> simp [behind, hview]
    | pending reserve =>
      rw [drain_pending hdec]
      simp
    | fail e =>
      rw [drain_fail hdec, drain_fail (h.fail a b e hdec)]
      rfl

/-- What has been decoded stays decoded. -/
theorem seen_prefix (h : SteadySeen view dec) (a b : List β) :
    (seen view (drain dec a)).1 <+: (seen view (drain dec (a ++ b))).1 := by
  rw [seen_drain_append h a b]
  cases hd : drain dec a with
  | mk is ending =>
    cases ending with
    | more rest => exact List.prefix_append _ _
    | failed e => exact List.prefix_rfl

/-- Input that decodes to its end has no beginning that fails. -/
theorem exists_more (h : SteadySeen view dec) {a b rest : List β}
    (hab : (drain dec (a ++ b)).2 = .more rest) : ∃ rest', (drain dec a).2 = .more rest' := by
  have hseen := congrArg Prod.snd (seen_drain_append h a b)
  cases hd : drain dec a with
  | mk is ending =>
    cases ending with
    | more rest' => exact ⟨rest', rfl⟩
    | failed e =>
      rw [hd] at hseen
      simp [seen, hab] at hseen

end Lib
