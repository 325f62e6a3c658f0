import Mathlib.Logic.Relation

/-!
# Runs of a deterministic machine

A machine is a step function; a run is a list of inputs taken in order. A condition on steps is a
predicate of the state before the step and of its input, and what every step that meets it preserves,
every run whose steps all meet it preserves.
-/

variable {σ ε : Type*} (step : σ → ε → σ)

/-- The state after the inputs `es`. -/
def runFrom (s : σ) (es : List ε) : σ := es.foldl step s

/-- Every step of the run meets the condition. -/
def Along (cond : σ → ε → Prop) : σ → List ε → Prop
  | _, [] => True
  | s, e :: es => cond s e ∧ Along cond (step s e) es

instance Along.instDecidable (cond : σ → ε → Prop) [∀ s e, Decidable (cond s e)] :
    ∀ s es, Decidable (Along step cond s es)
  | _, [] => isTrue trivial
  | s, e :: es =>
    have := Along.instDecidable cond (step s e) es
    inferInstanceAs (Decidable (cond s e ∧ Along step cond (step s e) es))

@[simp] theorem runFrom_nil (s : σ) : runFrom step s [] = s := rfl

@[simp] theorem runFrom_cons (s : σ) (e : ε) (es : List ε) :
    runFrom step s (e :: es) = runFrom step (step s e) es := rfl

theorem runFrom_append (s : σ) (es fs : List ε) :
    runFrom step s (es ++ fs) = runFrom step (runFrom step s es) fs := by
  simp [runFrom]

variable {step}

/-- What one step preserves, a run preserves. -/
theorem runFrom_invariant (inv : σ → Prop) {cond : σ → ε → Prop}
    (hstep : ∀ s e, inv s → cond s e → inv (step s e)) {s : σ} {es : List ε} (hs : inv s)
    (hcond : Along step cond s es) : inv (runFrom step s es) := by
  induction es generalizing s with
  | nil => exact hs
  | cons e es ih => exact ih (hstep s e hs hcond.1) hcond.2

theorem along_of_forall {cond : σ → ε → Prop} (h : ∀ s e, cond s e) (s : σ) (es : List ε) :
    Along step cond s es := by
  induction es generalizing s with
  | nil => trivial
  | cons e es ih => exact ⟨h s e, ih _⟩

theorem runFrom_invariant_always (inv : σ → Prop) (hstep : ∀ s e, inv s → inv (step s e)) {s : σ}
    (hs : inv s) (es : List ε) : inv (runFrom step s es) :=
  runFrom_invariant inv (fun s e h _ => hstep s e h) hs (along_of_forall (fun _ _ => trivial) s es)

theorem Along.imp {cond cond' : σ → ε → Prop} (h : ∀ s e, cond s e → cond' s e) {s : σ} {es : List ε}
    (hes : Along step cond s es) : Along step cond' s es := by
  induction es generalizing s with
  | nil => trivial
  | cons e es ih => exact ⟨h s e hes.1, ih hes.2⟩

/-- What one step of a relation preserves, its reflexive transitive closure preserves. -/
theorem reflTransGen_invariant (inv : σ → Prop) {r : σ → σ → Prop}
    (hstep : ∀ s t, r s t → inv s → inv t) {s t : σ} (h : Relation.ReflTransGen r s t) (hs : inv s) :
    inv t := by
  induction h with
  | refl => exact hs
  | tail _ hst ih => exact hstep _ _ hst ih
