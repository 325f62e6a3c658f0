import Mathlib.Data.List.Rotate

/-!
# Taking turns

A selector walks round its members with a cursor. The members in the order in which the cursor meets them
form a queue, and a pick moves a front part of the queue, up to the member it returns, to the end. A
selector that prefers live members returns the first live one; seen on the live members alone, every pick
then serves the head of a queue, and as many picks as there are live members serve each of them once.
-/

universe u v

variable {σ : Type u} {α : Type v}

/-- What `k` picks in a row return. -/
def picks (pick : σ → Option α × σ) : Nat → σ → List (Option α)
  | 0, _ => []
  | k + 1, s => (pick s).1 :: picks pick k (pick s).2

/-- Every pick serves the head of a queue, which then goes to the end. -/
def ServesHead (queue : σ → List α) (pick : σ → Option α × σ) : Prop :=
  ∀ s a rest, queue s = a :: rest → (pick s).1 = some a ∧ queue (pick s).2 = rest ++ [a]

theorem ServesHead.picks_take {queue : σ → List α} {pick : σ → Option α × σ} (h : ServesHead queue pick)
    {front back : List α} {s : σ} (hs : queue s = front ++ back) :
    picks pick front.length s = front.map some := by
  induction front generalizing s back with
  | nil => rfl
  | cons a front ih =>
    obtain ⟨hpick, hqueue⟩ := h s a (front ++ back) hs
    rw [List.append_assoc] at hqueue
    rw [List.length_cons, picks, hpick, ih hqueue, List.map_cons]

/-- As many picks as the queue is long serve the whole queue. -/
theorem ServesHead.picks_all {queue : σ → List α} {pick : σ → Option α × σ} (h : ServesHead queue pick) (s : σ) :
    picks pick (queue s).length s = (queue s).map some :=
  h.picks_take (List.append_nil (queue s)).symm

/-- How a selector that prefers live members moves its queue. -/
structure PrefersLive (live : α → Bool) (order : σ → List α) (pick : σ → Option α × σ) : Prop where
  none : ∀ s, order s = [] → (pick s).1 = none ∧ order (pick s).2 = []
  first : ∀ s front a back, order s = front ++ a :: back → (∀ b ∈ front, live b = false) → live a = true →
    (pick s).1 = some a ∧ order (pick s).2 = back ++ (front ++ [a])
  plain : ∀ s a rest, order s = a :: rest → (∀ b ∈ order s, live b = false) →
    (pick s).1 = some a ∧ order (pick s).2 = rest ++ [a]

/-- Live members first, and each of them in its turn. -/
structure LiveFirst (live : α → Bool) (members order : σ → List α) (pick : σ → Option α × σ) : Prop where
  /-- The queue holds the members. -/
  ordered : ∀ s, (order s).Perm (members s)
  kept : ∀ s, (members (pick s).2).Perm (members s)
  none_iff : ∀ s, (pick s).1 = none ↔ members s = []
  live_of_exists : ∀ s, (∃ a ∈ members s, live a = true) → ∃ a ∈ members s, (pick s).1 = some a ∧ live a = true
  /-- With no live member the head of the queue is returned and goes to the end. -/
  successor : ∀ s a rest, order s = a :: rest → (∀ b ∈ members s, live b = false) →
    (pick s).1 = some a ∧ order (pick s).2 = rest ++ [a]
  /-- As many picks as there are live members return each of them once. -/
  fair : ∀ s, (picks pick ((members s).filter live).length s).Perm (((members s).filter live).map some)

/-- The first live member of a queue. -/
theorem exists_first_live (live : α → Bool) {xs : List α} (h : ∃ a ∈ xs, live a = true) :
    ∃ front a back, xs = front ++ a :: back ∧ (∀ b ∈ front, live b = false) ∧ live a = true := by
  induction xs with
  | nil =>
    obtain ⟨a, hmem, -⟩ := h
    cases hmem
  | cons x xs ih =>
    cases hx : live x with
    | true => exact ⟨[], x, xs, rfl, nofun, hx⟩
    | false =>
      obtain ⟨a, hmem, ha⟩ := h
      have hrest : ∃ a ∈ xs, live a = true := by
        rcases List.mem_cons.mp hmem with rfl | hmem
        · rw [hx] at ha
          cases ha
        · exact ⟨a, hmem, ha⟩
      obtain ⟨front, a, back, rfl, hdead, hlive⟩ := ih hrest
      refine ⟨x :: front, a, back, rfl, fun b hb => ?_, hlive⟩
      rcases List.mem_cons.mp hb with rfl | hb
      · exact hx
      · exact hdead b hb

section

variable {live : α → Bool} {members order : σ → List α} {pick : σ → Option α × σ}

/-- Seen on the live members, the selector serves the head of a queue. -/
theorem PrefersLive.servesHead (h : PrefersLive live order pick) :
    ServesHead (fun s => (order s).filter live) pick := by
  intro s a rest (hs : (order s).filter live = a :: rest)
  have hmem : a ∈ (order s).filter live := by
    rw [hs]
    exact List.mem_cons_self
  obtain ⟨front, b, back, heq, hdead, hlive⟩ :=
    exists_first_live live ⟨a, (List.mem_filter.mp hmem).1, (List.mem_filter.mp hmem).2⟩
  have hfront : front.filter live = [] := List.filter_eq_nil_iff.mpr fun c hc => by simp [hdead c hc]
  rw [heq, List.filter_append, hfront, List.nil_append, List.filter_cons_of_pos hlive] at hs
  obtain ⟨rfl, rfl⟩ := List.cons.inj hs
  obtain ⟨hpick, horder⟩ := h.first s front b back heq hdead hlive
  refine ⟨hpick, ?_⟩
  change (order (pick s).2).filter live = _
  rw [horder, List.filter_append, List.filter_append, hfront, List.nil_append, List.filter_cons_of_pos hlive,
    List.filter_nil]

theorem PrefersLive.pick_isSome (h : PrefersLive live order pick) {s : σ} (hne : order s ≠ []) :
    ∃ a ∈ order s, (pick s).1 = some a ∧ ((∃ b ∈ order s, live b = true) → live a = true) ∧
      (order (pick s).2).Perm (order s) := by
  by_cases hlive : ∃ b ∈ order s, live b = true
  · obtain ⟨front, a, back, heq, hdead, ha⟩ := exists_first_live live hlive
    obtain ⟨hpick, horder⟩ := h.first s front a back heq hdead ha
    refine ⟨a, by simp [heq], hpick, fun _ => ha, ?_⟩
    rw [horder, heq]
    calc (back ++ (front ++ [a])).Perm (front ++ [a] ++ back) := List.perm_append_comm
      _ = front ++ a :: back := by simp
  · have hdead : ∀ b ∈ order s, live b = false := by
      intro b hb
      by_contra hb'
      exact hlive ⟨b, hb, by simpa using hb'⟩
    cases heq : order s with
    | nil => exact absurd heq hne
    | cons a rest =>
      obtain ⟨hpick, horder⟩ := h.plain s a rest heq hdead
      refine ⟨a, List.mem_cons_self, hpick, fun hsome => absurd (heq ▸ hsome) hlive, ?_⟩
      rw [horder]
      exact List.perm_append_comm

theorem PrefersLive.liveFirst (h : PrefersLive live order pick) (hordered : ∀ s, (order s).Perm (members s)) :
    LiveFirst live members order pick := by
  have hnil : ∀ s, order s = [] ↔ members s = [] := by
    intro s
    constructor
    · intro hs
      exact (hs ▸ hordered s).nil_eq.symm
    · intro hs
      exact (hs ▸ hordered s).eq_nil
  refine ⟨hordered, fun s => ?_, fun s => ?_, fun s hsome => ?_, fun s a rest hs hdead => ?_, fun s => ?_⟩
  · refine ((hordered _).symm.trans ?_).trans (hordered s)
    by_cases hs : order s = []
    · rw [(h.none s hs).2, hs]
    · obtain ⟨_, _, _, _, hperm⟩ := h.pick_isSome hs
      exact hperm
  · rw [← hnil]
    constructor
    · intro hnone
      by_contra hne
      obtain ⟨a, _, hpick, _⟩ := h.pick_isSome hne
      rw [hnone] at hpick
      cases hpick
    · exact fun hs => (h.none s hs).1
  · obtain ⟨b, hb, hlive⟩ := hsome
    have hb' : b ∈ order s := (hordered s).mem_iff.mpr hb
    obtain ⟨a, hmem, hpick, ha, _⟩ := h.pick_isSome (List.ne_nil_of_mem hb')
    exact ⟨a, (hordered s).mem_iff.mp hmem, hpick, ha ⟨b, hb', hlive⟩⟩
  · exact h.plain s a rest hs fun b hb => hdead b ((hordered s).mem_iff.mp hb)
  · have hfilter : ((order s).filter live).Perm ((members s).filter live) := (hordered s).filter live
    have hall := h.servesHead.picks_all s
    simp only [hfilter.length_eq] at hall
    rw [hall]
    exact hfilter.map some

end
