import Mathlib.Data.List.GetD
import Mathlib.Data.List.Range
import Mathlib.Data.Nat.ModEq

/-!
# Circular buffers

A list read as a circle: from position `head`, `count` elements, going on at the front when the end is
reached. Writing behind the last element extends the view, stepping the head over the first shortens it,
and a list that begins with the view is a circle with the same view from position 0.
-/

namespace Circular

variable {β : Type*} [Inhabited β]

def view (xs : List β) (head count : Nat) : List β :=
  (List.range count).map fun k => xs.getD ((head + k) % xs.length) default

@[simp] theorem view_length (xs : List β) (head count : Nat) : (view xs head count).length = count := by
  simp [view]

@[simp] theorem view_zero (xs : List β) (head : Nat) : view xs head 0 = [] := rfl

variable {count head : Nat} {xs : List β}

theorem view_getElem? (xs : List β) (head : Nat) {k : Nat} (hk : k < count) :
    (view xs head count)[k]? = some (xs.getD ((head + k) % xs.length) default) := by
  simp [view, hk]

theorem mod_ne {n i j : Nat} (head : Nat) (hi : i < n) (hj : j < n) (hij : i ≠ j) : (head + i) % n ≠ (head + j) % n := by
  intro heq
  have hmod : i ≡ j [MOD n] := Nat.ModEq.add_left_cancel' head heq
  exact hij (Nat.ModEq.eq_of_lt_of_lt hmod hi hj)

theorem view_set_outside {pos : Nat} (b : β)
    (hpos : ∀ k < count, pos ≠ (head + k) % xs.length) : view (xs.set pos b) head count = view xs head count := by
  apply List.map_congr_left
  intro k hk
  rw [List.mem_range] at hk
  rw [List.length_set, List.getD_eq_getElem?_getD, List.getD_eq_getElem?_getD, List.getElem?_set_ne (hpos k hk)]

/-- A write behind the last element. -/
theorem view_push (head : Nat) (hcount : count < xs.length) (b : β) :
    view (xs.set ((head + count) % xs.length) b) head (count + 1) = view xs head count ++ [b] := by
  have hfront : view (xs.set ((head + count) % xs.length) b) head count = view xs head count :=
    view_set_outside b fun k hk => mod_ne head hcount (by omega) (by omega)
  have hlast : (xs.set ((head + count) % xs.length) b).getD ((head + count) % xs.length) default = b := by
    rw [List.getD_eq_getElem?_getD, List.getElem?_set_self (Nat.mod_lt _ (by omega))]
    rfl
  rw [view, List.range_succ, List.map_append, List.map_singleton, List.length_set, hlast]
  rw [view, List.length_set] at hfront
  rw [hfront]

/-- The head steps over the first element. -/
theorem view_succ (xs : List β) (hhead : head < xs.length) (count : Nat) :
    view xs head (count + 1) = xs.getD head default :: view xs ((head + 1) % xs.length) count := by
  rw [view, List.range_succ_eq_map, List.map_cons, List.map_map, Nat.add_zero, Nat.mod_eq_of_lt hhead]
  congr 1
  apply List.map_congr_left
  intro k _
  rw [Function.comp_apply, Nat.mod_add_mod, Nat.succ_eq_add_one, Nat.add_assoc, Nat.add_comm 1 k]

theorem view_set_head (hhead : head < xs.length) (hcount : count < xs.length) (b : β) :
    view (xs.set head b) ((head + 1) % xs.length) count = view xs ((head + 1) % xs.length) count := by
  refine view_set_outside b fun k hk heq => ?_
  have hne := mod_ne head (show 0 < xs.length by omega) (show 1 + k < xs.length by omega) (by omega)
  rw [Nat.add_zero, Nat.mod_eq_of_lt hhead] at hne
  rw [Nat.mod_add_mod, Nat.add_assoc] at heq
  exact hne heq

theorem view_append (ys zs : List β) : view (ys ++ zs) 0 ys.length = ys := by
  apply List.ext_getElem?
  intro k
  by_cases hk : k < ys.length
  · have hlength : k < (ys ++ zs).length := by
      rw [List.length_append]
      omega
    rw [view_getElem? _ _ hk, Nat.zero_add, Nat.mod_eq_of_lt hlength, List.getD_eq_getElem?_getD,
      List.getElem?_append_left hk, List.getElem?_eq_getElem hk]
    rfl
  · rw [List.getElem?_eq_none (by rw [view_length]; omega), List.getElem?_eq_none (by omega)]

end Circular
