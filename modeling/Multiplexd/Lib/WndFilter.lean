import Mathlib.Algebra.Order.Ring.Nat
import Mathlib.Order.Basic

/-!
# A windowed filter of three samples

The windowed minimum or maximum filter keeps the best three samples of a time window. Times are compared
as unsigned differences of 64 bits. Whatever the window and the times, a slot holds a value that was put
in, or the value it started with; so what bounds every sample bounds the filter.
-/

structure WndSample where
  t : Int
  v : Int
deriving Repr, DecidableEq

structure WndFilter where
  s0 : WndSample
  s1 : WndSample
  s2 : WndSample
  ready : Bool
deriving Repr, DecidableEq

namespace WndFilter

def zero : WndFilter := ⟨⟨0, 0⟩, ⟨0, 0⟩, ⟨0, 0⟩, false⟩

def get (w : WndFilter) : Int := w.s0.v

/-- All slots take one sample. -/
def reset (x : WndSample) : WndFilter := ⟨x, x, x, true⟩

def timeDelta (now before : Int) : Int := (now - before) % 2 ^ 64

def subwinUpdate (w : WndFilter) (wnd : Int) (x : WndSample) : WndFilter :=
  let dt := timeDelta x.t w.s0.t
  if dt > wnd then
    let w := { w with s0 := w.s1, s1 := w.s2, s2 := x }
    if timeDelta x.t w.s0.t > wnd then { w with s0 := w.s1, s1 := w.s2, s2 := x } else w
  else if w.s1.t = w.s0.t ∧ dt > wnd / 4 then { w with s1 := x, s2 := x }
  else if w.s2.t = w.s1.t ∧ dt > wnd / 2 then { w with s2 := x }
  else w

def update (better : Int → Int → Bool) (w : WndFilter) (wnd t v : Int) : WndFilter :=
  let x : WndSample := ⟨t, v⟩
  if !w.ready then reset x
  else if better v w.s0.v || decide (timeDelta t w.s2.t > wnd) then reset x
  else
    let w :=
      if better v w.s1.v then { w with s1 := x, s2 := x }
      else if better v w.s2.v then { w with s2 := x }
      else w
    w.subwinUpdate wnd x

def updateMin (w : WndFilter) (wnd t v : Int) : WndFilter := w.update (fun a b => decide (a ≤ b)) wnd t v

def updateMax (w : WndFilter) (wnd t v : Int) : WndFilter := w.update (fun a b => decide (a ≥ b)) wnd t v

/-- Every slot holds a value between the bounds. -/
structure Within (lo hi : Int) (w : WndFilter) : Prop where
  first : lo ≤ w.s0.v ∧ w.s0.v ≤ hi
  second : lo ≤ w.s1.v ∧ w.s1.v ≤ hi
  third : lo ≤ w.s2.v ∧ w.s2.v ≤ hi

variable {lo hi : Int} {w : WndFilter} {x : WndSample}

theorem zero_within (hlo : lo ≤ 0) (hhi : 0 ≤ hi) : zero.Within lo hi := ⟨⟨hlo, hhi⟩, ⟨hlo, hhi⟩, ⟨hlo, hhi⟩⟩

theorem Within.reset (hx : lo ≤ x.v ∧ x.v ≤ hi) : Within lo hi (reset x) := ⟨hx, hx, hx⟩

theorem Within.subwinUpdate (h : w.Within lo hi) (wnd : Int) (hx : lo ≤ x.v ∧ x.v ≤ hi) :
    Within lo hi (w.subwinUpdate wnd x) := by
  unfold WndFilter.subwinUpdate
  dsimp only
  split
  · split
    · exact ⟨h.third, hx, hx⟩
    · exact ⟨h.second, h.third, hx⟩
  split
  · exact ⟨h.first, hx, hx⟩
  split
  · exact ⟨h.first, h.second, hx⟩
  · exact h

theorem Within.update (h : w.Within lo hi) (better : Int → Int → Bool) (wnd t : Int) {v : Int}
    (hv : lo ≤ v ∧ v ≤ hi) : Within lo hi (w.update better wnd t v) := by
  unfold WndFilter.update
  dsimp only
  split
  · exact Within.reset hv
  split
  · exact Within.reset hv
  refine Within.subwinUpdate ?_ wnd hv
  split
  · exact ⟨h.first, hv, hv⟩
  split
  · exact ⟨h.first, h.second, hv⟩
  · exact h

theorem Within.updateMax (h : w.Within lo hi) (wnd t : Int) {v : Int} (hv : lo ≤ v ∧ v ≤ hi) :
    Within lo hi (w.updateMax wnd t v) :=
  h.update _ wnd t hv

end WndFilter
