import Mathlib.Data.List.Basic
import Mathlib.Logic.Function.Basic

namespace Lib

/-!
# Registries

A table by which objects are found under their keys, next to all objects that are alive.

* `Registry.insert`, `Registry.remove` — an object comes, in the place of another one if it has
  the same key, or goes;
* `Backed` — the table has live objects only;
* `Listed` — every live object is found under its key;
* `listed_insert_iff` — an object may come exactly when its key is free.
-/

/-- A table from keys to objects, and the live objects with their keys. -/
structure Registry (κ ι : Type) where
  table : κ → Option ι
  live : List (ι × κ)

namespace Registry

variable {κ ι : Type} [DecidableEq κ]

/-- A new object takes the place of its key. -/
def insert (i : ι) (k : κ) (r : Registry κ ι) : Registry κ ι where
  table := Function.update r.table k (some i)
  live := (i, k) :: r.live

/-- An object goes, and the entry of its key with it. -/
def remove [DecidableEq ι] (i : ι) (k : κ) (r : Registry κ ι) : Registry κ ι where
  table := Function.update r.table k none
  live := r.live.filter fun t => t.1 ≠ i

/-- The object that was inserted last is found under its key. -/
@[simp] theorem table_insert_self (i : ι) (k : κ) (r : Registry κ ι) :
    (r.insert i k).table k = some i := Function.update_self _ _ _

/-- To insert an object does not change what is found under other keys. -/
theorem table_insert_of_ne {k k' : κ} (h : k' ≠ k) (i : ι) (r : Registry κ ι) :
    (r.insert i k).table k' = r.table k' := Function.update_of_ne h _ _

/-- Nothing is found under a key that was removed. -/
@[simp] theorem table_remove_self [DecidableEq ι] (i : ι) (k : κ) (r : Registry κ ι) :
    (r.remove i k).table k = none := Function.update_self _ _ _

/-- To remove an object does not change what is found under other keys. -/
theorem table_remove_of_ne [DecidableEq ι] {k k' : κ} (h : k' ≠ k) (i : ι) (r : Registry κ ι) :
    (r.remove i k).table k' = r.table k' := Function.update_of_ne h _ _

/-- The objects that live on are all but the one that goes. -/
theorem mem_live_remove [DecidableEq ι] {r : Registry κ ι} {i : ι} {k : κ} {t : ι × κ} :
    t ∈ (r.remove i k).live ↔ t ∈ r.live ∧ t.1 ≠ i := by
  rw [remove, List.mem_filter, decide_eq_true_eq]

/-- An object is alive once. -/
def Unique (r : Registry κ ι) : Prop := ∀ t ∈ r.live, ∀ t' ∈ r.live, t.1 = t'.1 → t = t'

/-- Every entry is that of a live object. -/
def Backed (r : Registry κ ι) : Prop := ∀ k i, r.table k = some i → (i, k) ∈ r.live

/-- Every live object has its entry. -/
def Listed (r : Registry κ ι) : Prop := ∀ t ∈ r.live, r.table t.2 = some t.1

/-- A new object is alive once, if it was not alive before. -/
theorem Unique.insert {r : Registry κ ι} (h : r.Unique) {i : ι} (k : κ)
    (hi : ∀ t ∈ r.live, t.1 ≠ i) : (r.insert i k).Unique := by
  intro t ht t' ht' heq
  rcases List.mem_cons.mp ht with rfl | hold
  · rcases List.mem_cons.mp ht' with rfl | hold'
    · rfl
    · exact absurd heq.symm (hi t' hold')
  · rcases List.mem_cons.mp ht' with rfl | hold'
    · exact absurd heq (hi t hold)
    · exact h t hold t' hold' heq

/-- The objects that live on are alive once. -/
theorem Unique.remove [DecidableEq ι] {r : Registry κ ι} (h : r.Unique) (i : ι) (k : κ) :
    (r.remove i k).Unique :=
  fun t ht t' ht' => h t (mem_live_remove.mp ht).1 t' (mem_live_remove.mp ht').1

/-- The entries are those of live objects, the new one included. -/
theorem Backed.insert {r : Registry κ ι} (h : r.Backed) (i : ι) (k : κ) :
    (r.insert i k).Backed := by
  intro k' i' hentry
  by_cases hk : k' = k
  · subst hk
    rw [table_insert_self, Option.some.injEq] at hentry
    rw [← hentry]
    exact List.mem_cons_self
  · rw [table_insert_of_ne hk] at hentry
    exact List.mem_cons_of_mem _ (h k' i' hentry)

/-- With an object goes the entry of its key, so that none is left without a live object. -/
theorem Backed.remove [DecidableEq ι] {r : Registry κ ι} (hunique : r.Unique) (h : r.Backed) {i : ι} {k : κ}
    (hi : (i, k) ∈ r.live) : (r.remove i k).Backed := by
  intro k' i' hentry
  by_cases hk : k' = k
  · subst hk
    rw [table_remove_self] at hentry
    cases hentry
  · rw [table_remove_of_ne hk] at hentry
    refine mem_live_remove.mpr ⟨h k' i' hentry, fun heq => hk ?_⟩
    -- an object has one key
    exact congrArg Prod.snd (hunique _ (h k' i' hentry) _ hi heq)

/-- **An object may come** exactly when its key is free. -/
theorem listed_insert_iff {r : Registry κ ι} (hbacked : r.Backed) (h : r.Listed) {i : ι} {k : κ}
    (hi : ∀ t ∈ r.live, t.1 ≠ i) : (r.insert i k).Listed ↔ r.table k = none := by
  constructor
  · intro hlisted
    by_contra hne
    obtain ⟨i', hentry⟩ := Option.ne_none_iff_exists'.mp hne
    have hmem := hbacked k i' hentry
    -- the object that was found under the key is not found any more
    have hold := hlisted (i', k) (List.mem_cons_of_mem _ hmem)
    rw [table_insert_self, Option.some.injEq] at hold
    exact hi _ hmem hold.symm
  · intro hfree t ht
    rcases List.mem_cons.mp ht with rfl | hold
    · exact table_insert_self _ _ _
    · have hentry := h t hold
      have hk : t.2 ≠ k := by
        intro heq
        rw [heq, hfree] at hentry
        cases hentry
      rw [table_insert_of_ne hk]
      exact hentry

/-- **An object may always go.** -/
theorem Listed.remove [DecidableEq ι] {r : Registry κ ι} (h : r.Listed) {i : ι} {k : κ} (hi : (i, k) ∈ r.live) :
    (r.remove i k).Listed := by
  intro t ht
  obtain ⟨hmem, hne⟩ := mem_live_remove.mp ht
  have hk : t.2 ≠ k := by
    intro heq
    have hentry := h t hmem
    rw [heq, h _ hi, Option.some.injEq] at hentry
    exact hne hentry.symm
  rw [table_remove_of_ne hk]
  exact h t hmem

end Registry

end Lib
