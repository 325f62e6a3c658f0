import Mathlib.Data.List.Basic

/-!
# Computations that may fail

What a sequence, a loop or a map of computations in `Except` has returned, when it has returned.
-/

namespace Except

universe u v

variable {ε : Type u} {α β : Type v}

variable {f : α → Except ε β} {l : List α} {l' : List β}

theorem bind_eq_ok {x : Except ε α} {b : β} : (x >>= f) = .ok b ↔ ∃ a, x = .ok a ∧ f a = .ok b := by
  cases x with
  | error e => simp [bind, Except.bind]
  | ok a => simp [bind, Except.bind]

@[simp] theorem ok_bind (a : α) (f : α → Except ε β) : ((Except.ok a : Except ε α) >>= f) = f a := rfl

/-- What every step of a loop preserves, the loop preserves. -/
theorem foldlM_invariant {f : β → α → Except ε β} (inv : β → Prop)
    (hstep : ∀ b a b', inv b → f b a = .ok b' → inv b') {b b' : β} (hb : inv b)
    (h : l.foldlM f b = .ok b') : inv b' := by
  induction l generalizing b with
  | nil =>
    cases h
    exact hb
  | cons a l ih =>
    rw [List.foldlM_cons, bind_eq_ok] at h
    obtain ⟨b₁, hb₁, hrest⟩ := h
    exact ih (hstep b a b₁ hb hb₁) hrest

theorem mapM_forall₂ (h : l.mapM f = .ok l') : List.Forall₂ (fun a b => f a = .ok b) l l' := by
  induction l generalizing l' with
  | nil =>
    cases h
    exact .nil
  | cons a l ih =>
    rw [List.mapM_cons, bind_eq_ok] at h
    obtain ⟨b, hb, h⟩ := h
    rw [bind_eq_ok] at h
    obtain ⟨bs, hbs, h⟩ := h
    cases h
    exact .cons hb (ih hbs)

/-- What a map returns comes from an element. -/
theorem exists_of_mem_mapM (h : l.mapM f = .ok l') {b : β} (hb : b ∈ l') : ∃ a ∈ l, f a = .ok b := by
  have hall := mapM_forall₂ h
  clear h
  induction hall with
  | nil => cases hb
  | @cons a b' l l' hab hrest ih =>
    cases hb with
    | head => exact ⟨a, List.mem_cons_self, hab⟩
    | tail _ hb =>
      obtain ⟨a', ha', hab'⟩ := ih hb
      exact ⟨a', List.mem_cons_of_mem _ ha', hab'⟩

theorem map_eq_of_mapM {γ : Type*} {g : α → γ} {g' : β → γ}
    (h : l.mapM f = .ok l') (hfg : ∀ a b, f a = .ok b → g' b = g a) : l'.map g' = l.map g := by
  have hall := mapM_forall₂ h
  clear h
  induction hall with
  | nil => rfl
  | cons hab hrest ih => rw [List.map_cons, List.map_cons, hfg _ _ hab, ih]

theorem option_mapM_spec {o : Option α} {o' : Option β} (h : o.mapM f = .ok o') :
    o'.isSome = o.isSome ∧ ∀ b ∈ o', ∃ a ∈ o, f a = .ok b := by
  cases o with
  | none =>
    cases h
    simp
  | some a =>
    cases hfa : f a with
    | error e =>
      change some <$> f a = .ok o' at h
      rw [hfa] at h
      cases h
    | ok b =>
      change some <$> f a = .ok o' at h
      rw [hfa] at h
      cases h
      simp [hfa]

theorem mapM_eq_map {g : α → β} (h : ∀ a ∈ l, f a = .ok (g a)) : l.mapM f = .ok (l.map g) := by
  induction l with
  | nil => rfl
  | cons a l ih =>
    rw [List.mapM_cons, h a List.mem_cons_self, ih fun b hb => h b (List.mem_cons_of_mem _ hb)]
    rfl

theorem mapM_self {f : α → Except ε α} (h : ∀ a ∈ l, f a = .ok a) : l.mapM f = .ok l := by
  rw [mapM_eq_map h, List.map_id'']
  exact fun _ => rfl

end Except
