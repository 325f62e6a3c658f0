import Mathlib.Logic.Function.Iterate

/-!
# Searching along a cursor

A bounded search that tries the values `a`, `next a`, `next (next a)`, … and stops at the first one that
is free. It is complete for a set of values as soon as the cursor visits all of them within its bound.
-/

universe u

variable {α : Type u} (next : α → α) (free : α → Bool)

def searchFrom : Nat → α → Option α
  | 0, _ => none
  | n + 1, a => if free a then some a else searchFrom n (next a)

variable {next free}

theorem searchFrom_some {n : Nat} {a b : α} (h : searchFrom next free n a = some b) :
    free b = true ∧ ∃ i < n, b = next^[i] a := by
  induction n generalizing a with
  | zero => contradiction
  | succ n ih =>
    rw [searchFrom] at h
    split at h
    next hfree =>
      obtain rfl := Option.some.inj h
      exact ⟨hfree, 0, Nat.succ_pos n, rfl⟩
    next =>
      obtain ⟨hfree, i, hi, heq⟩ := ih h
      exact ⟨hfree, i + 1, Nat.succ_lt_succ hi, heq⟩

theorem searchFrom_eq_none_iff {n : Nat} {a : α} :
    searchFrom next free n a = none ↔ ∀ i < n, free (next^[i] a) = false := by
  induction n generalizing a with
  | zero => simp [searchFrom]
  | succ n ih =>
    rw [searchFrom]
    constructor
    · intro h i hi
      split at h
      · contradiction
      next hfree =>
        cases i with
        | zero => simpa using hfree
        | succ i => exact ih.mp h i (Nat.lt_of_succ_lt_succ hi)
    · intro h
      have hhere : free a = false := h 0 (Nat.succ_pos n)
      rw [if_neg (by simp [hhere])]
      exact ih.mpr fun i hi => h (i + 1) (Nat.succ_lt_succ hi)

section Visits

variable {n : Nat} {a : α} {p : α → Prop} (hin : ∀ i < n, free (next^[i] a) = true → p (next^[i] a))

include hin

theorem searchFrom_mem {b : α} (h : searchFrom next free n a = some b) : p b ∧ free b = true := by
  obtain ⟨hfree, i, hi, rfl⟩ := searchFrom_some h
  exact ⟨hin i hi hfree, hfree⟩

/-- A cursor that visits every value of a set within the bound finds a free one if there is any. -/
theorem searchFrom_eq_none_of_visits (hvisits : ∀ b, p b → ∃ i < n, next^[i] a = b) :
    searchFrom next free n a = none ↔ ∀ b, p b → free b = false := by
  rw [searchFrom_eq_none_iff]
  constructor
  · intro h b hb
    obtain ⟨i, hi, rfl⟩ := hvisits b hb
    exact h i hi
  · intro h i hi
    by_contra hne
    rw [Bool.not_eq_false] at hne
    rw [h _ (hin i hi hne)] at hne
    contradiction

end Visits
