import Multiplexd.Lib.Fallible

/-!
# Machines that answer, and may fault

An operation of a machine gives an answer and a next state, or it faults and ends the run. A machine
refines a specification when every answer it gives, seen through an abstraction of its state, is one that
the specification allows; what holds of each operation then holds of whole runs.
-/

universe u

variable {σ ε ρ φ : Type u} {τ : Type*}

/-- The answers of a run and the state after it, or the first fault. -/
def runOps (step : σ → ε → Except φ (ρ × σ)) : σ → List ε → Except φ (List ρ × σ)
  | s, [] => .ok ([], s)
  | s, e :: es => do
    let (r, s) ← step s e
    let (rs, s) ← runOps step s es
    .ok (r :: rs, s)

inductive Allowed (spec : τ → ε → ρ → τ → Prop) : τ → List ε → List ρ → τ → Prop
  | nil (t : τ) : Allowed spec t [] [] t
  | cons {t t₁ t₂ : τ} {e : ε} {r : ρ} {es : List ε} {rs : List ρ} (hstep : spec t e r t₁)
      (hrest : Allowed spec t₁ es rs t₂) : Allowed spec t (e :: es) (r :: rs) t₂

/-- Where the specification says what the state becomes, a run is a fold. -/
theorem Allowed.eq_foldl {f : τ → ε → τ} {t t' : τ} {es : List ε} {rs : List ρ}
    (h : Allowed (fun t e _ t' => t' = f t e) t es rs t') : t' = es.foldl f t := by
  induction h with
  | nil t => rfl
  | cons hstep _ ih => rw [ih, hstep, List.foldl_cons]

structure Refines (step : σ → ε → Except φ (ρ × σ)) (inv : σ → Prop) (abs : σ → τ) (spec : τ → ε → ρ → τ → Prop)
    (excused : σ → ε → φ → Prop) : Prop where
  fault : ∀ s e f, inv s → step s e = .error f → excused s e f
  answer : ∀ s e r s', inv s → step s e = .ok (r, s') → inv s' ∧ spec (abs s) e r (abs s')

namespace Refines

variable {step : σ → ε → Except φ (ρ × σ)} {inv : σ → Prop} {abs : σ → τ} {spec : τ → ε → ρ → τ → Prop}
  {excused : σ → ε → φ → Prop}

theorem run_answer (h : Refines step inv abs spec excused) {es : List ε} {s s' : σ} {rs : List ρ} (hs : inv s)
    (hrun : runOps step s es = .ok (rs, s')) : inv s' ∧ Allowed spec (abs s) es rs (abs s') := by
  induction es generalizing s rs with
  | nil =>
    cases hrun
    exact ⟨hs, .nil _⟩
  | cons e es ih =>
    obtain ⟨⟨r, s₁⟩, hstep, hrest⟩ := Except.bind_eq_ok.1 hrun
    obtain ⟨⟨rs', s₂⟩, hrun', heq⟩ := Except.bind_eq_ok.1 hrest
    cases heq
    obtain ⟨hs₁, hspec⟩ := h.answer s e r s₁ hs hstep
    obtain ⟨hs', hallowed⟩ := ih hs₁ hrun'
    exact ⟨hs', .cons hspec hallowed⟩

/-- A run that faults does so at an operation, in a state that it reaches. -/
theorem run_fault (h : Refines step inv abs spec excused) {es : List ε} {s : σ} {f : φ} (hs : inv s)
    (hrun : runOps step s es = .error f) :
    ∃ front e back rs s', es = front ++ e :: back ∧ runOps step s front = .ok (rs, s') ∧ excused s' e f := by
  induction es generalizing s with
  | nil => cases hrun
  | cons e es ih =>
    rw [runOps] at hrun
    cases hstep : step s e with
    | error f' =>
      rw [hstep] at hrun
      cases hrun
      exact ⟨[], e, es, [], s, rfl, rfl, h.fault s e f hs hstep⟩
    | ok answer =>
      obtain ⟨r, s₁⟩ := answer
      rw [hstep, Except.ok_bind] at hrun
      dsimp only at hrun
      cases hrest : runOps step s₁ es with
      | error f' =>
        rw [hrest] at hrun
        cases hrun
        obtain ⟨front, e', back, rs, s', rfl, hfront, hexcused⟩ := ih (h.answer s e r s₁ hs hstep).1 hrest
        refine ⟨e :: front, e', back, r :: rs, s', rfl, ?_, hexcused⟩
        rw [runOps, hstep, Except.ok_bind]
        dsimp only
        rw [hfront]
        rfl
      | ok answers =>
        rw [hrest] at hrun
        cases hrun

end Refines
