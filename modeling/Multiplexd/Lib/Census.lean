import Mathlib.Algebra.Order.Ring.Nat
import Mathlib.Algebra.BigOperators.Group.Finset.Basic
import Mathlib.Algebra.BigOperators.Group.List.Basic

/-!
# Counting over a family

A family gives each of the first `n` numbers, or each item of a list, a member, and a weight gives each member
a count. The total is what an argument by counting works with: when one member is replaced, the total changes
by the difference of the two weights.
-/

open Function (update update_of_ne update_self)

variable {α : Type*}

def census (weight : α → Nat) (n : Nat) (f : Nat → α) : Nat := ∑ i ∈ Finset.range n, weight (f i)

theorem census_update (weight : α → Nat) {n i : Nat} (hi : i < n) (f : Nat → α) (x : α) :
    census weight n (update f i x) + weight (f i) = census weight n f + weight x := by
  have hmem : i ∈ Finset.range n := Finset.mem_range.mpr hi
  have hrest : ∑ j ∈ (Finset.range n).erase i, weight (update f i x j)
      = ∑ j ∈ (Finset.range n).erase i, weight (f j) :=
    Finset.sum_congr rfl fun j hj => by rw [update_of_ne (Finset.ne_of_mem_erase hj)]
  have hnew := Finset.add_sum_erase (Finset.range n) (fun j => weight (update f i x j)) hmem
  have hold := Finset.add_sum_erase (Finset.range n) (fun j => weight (f j)) hmem
  simp only [update_self, hrest] at hnew
  rw [census, census, ← hnew, ← hold]
  omega

theorem census_succ_update (weight : α → Nat) (n : Nat) (f : Nat → α) (x : α) :
    census weight (n + 1) (update f n x) = census weight n f + weight x := by
  rw [census, census, Finset.sum_range_succ, update_self]
  congr 1
  refine Finset.sum_congr rfl fun j hj => ?_
  rw [update_of_ne (Nat.ne_of_lt (Finset.mem_range.mp hj))]

theorem census_eq_zero {weight : α → Nat} {n : Nat} {f : Nat → α} (h : ∀ i, weight (f i) = 0) :
    census weight n f = 0 :=
  Finset.sum_eq_zero fun i _ => h i

section

variable {ι : Type*} {weight : α → Nat} {xs ys : List ι} {f g : ι → α} {i : ι}

def censusOn (weight : α → Nat) (xs : List ι) (f : ι → α) : Nat := (xs.map fun i => weight (f i)).sum

@[simp] theorem censusOn_nil : censusOn weight [] f = 0 := rfl

theorem censusOn_cons : censusOn weight (i :: xs) f = weight (f i) + censusOn weight xs f := List.sum_cons

theorem censusOn_congr (h : ∀ i ∈ xs, weight (f i) = weight (g i)) : censusOn weight xs f = censusOn weight xs g :=
  congrArg List.sum (List.map_congr_left h)

theorem censusOn_perm (h : xs.Perm ys) : censusOn weight xs f = censusOn weight ys f := (h.map _).sum_eq

theorem censusOn_append_singleton : censusOn weight (xs ++ [i]) f = censusOn weight xs f + weight (f i) := by
  rw [censusOn_perm (List.perm_append_singleton i xs), censusOn_cons, Nat.add_comm]

/-- Members that count once are counted. -/
theorem censusOn_toNat (p : α → Bool) (xs : List ι) (f : ι → α) :
    censusOn (fun x => (p x).toNat) xs f = xs.countP fun i => p (f i) := by
  induction xs with
  | nil => rfl
  | cons i xs ih =>
    rw [censusOn_cons, ih, List.countP_cons, Nat.add_comm]
    cases p (f i) <;> rfl

variable [DecidableEq ι]

theorem censusOn_update_of_notMem (hi : i ∉ xs) (x : α) :
    censusOn weight xs (update f i x) = censusOn weight xs f := by
  refine censusOn_congr fun j hj => ?_
  rw [update_of_ne]
  exact fun heq => hi (heq ▸ hj)

theorem censusOn_update (hnodup : xs.Nodup) (hi : i ∈ xs) (x : α) :
    censusOn weight xs (update f i x) + weight (f i) = censusOn weight xs f + weight x := by
  have hperm : xs.Perm (i :: xs.erase i) := List.perm_cons_erase hi
  have hnot : i ∉ xs.erase i := fun hmem => (List.Nodup.not_mem_erase hnodup) hmem
  rw [censusOn_perm hperm, censusOn_perm hperm, censusOn_cons, censusOn_cons, censusOn_update_of_notMem hnot,
    update_self]
  omega

end
