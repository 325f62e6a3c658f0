import Mathlib.Data.List.AList
import Mathlib.Logic.Function.Basic

/-!
# Indexes of a store

A store holds records at addresses, and a table leads from the keys of the records to their addresses. A
record may have one key or none.
-/

open Function (update_of_ne update_self)

variable {κ ν ρ : Type*} [DecidableEq κ] {s : AList fun _ : κ => ν} {k : κ} {v : ν}

namespace AList

theorem lookup_insert_eq (s : AList fun _ : κ => ν) (k : κ) (v : ν) (j : κ) :
    (s.insert k v).lookup j = if j = k then some v else s.lookup j := by
  split
  next h => rw [h, lookup_insert]
  next h => exact lookup_insert_ne h

theorem lookup_erase_eq (s : AList fun _ : κ => ν) (k j : κ) :
    (s.erase k).lookup j = if j = k then none else s.lookup j := by
  split
  next h => rw [h, lookup_erase]
  next h => exact lookup_erase_ne h

theorem length_insert (h : s.lookup k = none) (v : ν) : (s.insert k v).entries.length = s.entries.length + 1 := by
  rw [entries_insert_of_notMem (lookup_eq_none.mp h), List.length_cons]

theorem length_erase (h : s.lookup k = some v) : (s.erase k).entries.length + 1 = s.entries.length := by
  have hmem : k ∈ s.keys := mem_keys.mp (lookup_isSome.mp (by rw [h]; rfl))
  have hkeys : (s.erase k).keys.length + 1 = s.keys.length := by
    rw [keys_erase, List.length_erase_of_mem hmem]
    exact Nat.succ_pred_eq_of_pos (List.length_pos_of_mem hmem)
  simpa [keys, List.keys] using hkeys

/-- A new entry that is taken out again. -/
theorem erase_insert (h : s.lookup k = none) (v : ν) : (s.insert k v).erase k = s := by
  refine ext ?_
  rw [insert_of_notMem (lookup_eq_none.mp h)]
  exact List.kerase_cons_eq rfl

end AList

/-- Every key leads to the address of the record that has it, and no other key leads anywhere. -/
def Indexes (s : AList fun _ : κ => ν) (store : ν → Option ρ) (has : ρ → κ → Prop) : Prop :=
  ∀ k a, s.lookup k = some a ↔ ∃ x, store a = some x ∧ has x k

namespace Indexes

variable [DecidableEq ν] {t : AList fun _ : κ => ν} {store : ν → Option ρ} {has : ρ → κ → Prop} {a : ν} {x : ρ}
  {r : Option ρ}

/-- One address is written, and the table changes for that address only. -/
theorem update (h : Indexes s store has) (hself : ∀ k, t.lookup k = some a ↔ ∃ x, r = some x ∧ has x k)
    (hother : ∀ k b, b ≠ a → (t.lookup k = some b ↔ s.lookup k = some b)) : Indexes t (Function.update store a r) has := by
  intro k b
  by_cases hb : b = a
  · subst hb
    rw [update_self]
    exact hself k
  · rw [update_of_ne hb, hother k b hb]
    exact h k b

/-- What is written has the keys that were there before. -/
theorem write (h : Indexes s store has)
    (hkeys : ∀ k, (∃ x, r = some x ∧ has x k) ↔ ∃ x, store a = some x ∧ has x k) :
    Indexes s (Function.update store a r) has :=
  h.update (fun k => (h k a).trans (hkeys k).symm) fun _ _ _ => Iff.rfl

theorem insert (h : Indexes s store has) (ha : store a = none) (hk : ∀ j, has x j ↔ j = k) (hfree : s.lookup k = none) :
    Indexes (s.insert k a) (Function.update store a (some x)) has := by
  refine h.update (fun j => ?_) fun j b hb => ?_
  · rw [AList.lookup_insert_eq]
    split
    next hj => simp [hk, hj]
    next hj =>
      rw [h]
      simp [ha, hk, hj]
  · rw [AList.lookup_insert_eq]
    split
    next hj =>
      subst hj
      simp [hfree, Ne.symm hb]
    · exact Iff.rfl

theorem erase (h : Indexes s store has) (ha : store a = some x) (hk : ∀ j, has x j ↔ j = k) :
    Indexes (s.erase k) (Function.update store a none) has := by
  have hlookup : s.lookup k = some a := (h k a).mpr ⟨x, ha, (hk k).mpr rfl⟩
  refine h.update (fun j => ?_) fun j b hb => ?_
  · rw [AList.lookup_erase_eq]
    split
    next => simp
    next hj =>
      rw [h]
      simp [ha, hk, hj]
  · rw [AList.lookup_erase_eq]
    split
    next hj =>
      subst hj
      simp [hlookup, Ne.symm hb]
    · exact Iff.rfl

end Indexes
