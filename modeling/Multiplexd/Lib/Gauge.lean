import Multiplexd.Lib.Census
import Mathlib.Algebra.Order.Ring.Int

/-!
# Gauges

A gauge is a counter that is kept up to date by additions and subtractions. It remembers whether it was ever
below zero, so that one subtraction too many shows even when an addition makes up for it later.
-/

structure Gauge where
  value : Int
  below : Bool
deriving Repr, DecidableEq

namespace Gauge

variable {g : Gauge} {k n : Nat}

def zero : Gauge := ⟨0, false⟩

def add (g : Gauge) (n : Nat) : Gauge := { g with value := g.value + n }

def sub (g : Gauge) (n : Nat) : Gauge := ⟨g.value - n, g.below || decide (g.value - n < 0)⟩

structure Reads (g : Gauge) (k : Nat) : Prop where
  value : g.value = k
  below : g.below = false

theorem zero_reads : zero.Reads 0 := ⟨rfl, rfl⟩

theorem Reads.add (h : g.Reads k) (n : Nat) : (g.add n).Reads (k + n) := by
  refine ⟨?_, h.below⟩
  change g.value + n = _
  rw [h.value, Nat.cast_add]

/-- What is taken off was counted before. -/
theorem Reads.sub (h : g.Reads (k + n)) : (g.sub n).Reads k := by
  have hvalue : g.value - n = k := by
    rw [h.value, Nat.cast_add, Int.add_sub_cancel]
  refine ⟨hvalue, ?_⟩
  change (g.below || decide (g.value - n < 0)) = false
  rw [h.below, hvalue, Bool.false_or, decide_eq_false_iff_not]
  exact Int.not_lt.mpr (Int.natCast_nonneg k)

theorem Reads.congr (h : g.Reads k) (heq : k = n) : g.Reads n := heq ▸ h

def follow (g : Gauge) (old new : Bool) : Gauge :=
  if !old && new then g.add 1 else if old && !new then g.sub 1 else g

theorem Reads.follow {old : Bool} (h : g.Reads (k + old.toNat)) (new : Bool) : (g.follow old new).Reads (k + new.toNat) := by
  cases old <;> cases new
  · exact h
  · exact h.add 1
  · exact h.sub
  · exact h

/-- One member of a family is replaced, and the gauge follows it. -/
theorem Reads.census_update {ι α : Type*} [DecidableEq ι] {w : α → Nat} {xs : List ι} {f : ι → α} {i : ι} {x : α}
    {g' : Gauge} (h : g.Reads (censusOn w xs f)) (hnodup : xs.Nodup) (hi : i ∈ xs)
    (hstep : ∀ k, g.Reads (k + w (f i)) → g'.Reads (k + w x)) : g'.Reads (censusOn w xs (Function.update f i x)) := by
  -- `k` is what all the others add
  obtain ⟨k, hk⟩ : ∃ k, censusOn w xs f = k + w (f i) := by
    refine ⟨censusOn w (xs.erase i) f, ?_⟩
    rw [censusOn_perm (List.perm_cons_erase hi), censusOn_cons, Nat.add_comm]
  have hupdate : censusOn w xs (Function.update f i x) + w (f i) = censusOn w xs f + w x := censusOn_update hnodup hi x
  rw [hk] at h hupdate
  exact (hstep k h).congr (by omega)

end Gauge
