import Mathlib.Data.List.Nodup
import Mathlib.Logic.Function.Basic

/-!
# Lists threaded through a store

A list whose members lie anywhere in a store and carry the link to their successor themselves. One field
for the link may serve several lists at once, as long as no member is on two of them. `Spans` says that
the two ends of a list and the links between them thread the members `xs` in order; an operation on the
ends and links is right when it keeps `Spans` for the list it should leave, and for every other list that
it does not touch.
-/

open Function (update_of_ne update_self)

universe u

variable {α : Type u} [DecidableEq α]

def Linked (next : α → Option α) : List α → Prop
  | [] => True
  | a :: xs => next a = xs.head? ∧ Linked next xs

/-- Where a list begins and ends. -/
structure Ends (α : Type u) where
  head : Option α
  tail : Option α
deriving Repr, DecidableEq

namespace Linked

variable {next : α → Option α} {xs ys : List α} {a : α}

omit [DecidableEq α] in
theorem congr {next' : α → Option α} (h : Linked next xs) (heq : ∀ a ∈ xs, next' a = next a) :
    Linked next' xs := by
  induction xs with
  | nil => trivial
  | cons b xs ih =>
    refine ⟨(heq b (by simp)).trans h.1, ih h.2 fun a ha => heq a (by simp [ha])⟩

theorem update_of_notMem (h : Linked next xs) (ha : a ∉ xs) (v : Option α) :
    Linked (Function.update next a v) xs :=
  h.congr fun b hb => update_of_ne (fun heq : b = a => ha (heq ▸ hb)) ..

theorem redirect {zs : List α} (h : Linked next (xs ++ a :: zs)) (ys : List α) (hys : Linked next ys) (hxs : a ∉ xs)
    (hdisj : a ∉ ys) : Linked (Function.update next a ys.head?) (xs ++ a :: ys) := by
  induction xs with
  | nil => exact ⟨update_self .., hys.update_of_notMem hdisj _⟩
  | cons b xs ih =>
    rw [List.mem_cons, not_or] at hxs
    refine ⟨?_, ih h.2 hxs.2⟩
    rw [update_of_ne (Ne.symm hxs.1)]
    have hhead := h.1
    cases xs with
    | nil => simpa using hhead
    | cons c xs => simpa using hhead

omit [DecidableEq α] in
theorem right (h : Linked next (xs ++ ys)) : Linked next ys := by
  induction xs with
  | nil => exact h
  | cons b xs ih => exact ih h.2

omit [DecidableEq α] in
theorem head_eq (h : Linked next (xs ++ a :: ys)) : next a = ys.head? := h.right.1

end Linked

namespace Ends

variable {next : α → Option α} {e : Ends α} {xs ys pre post : List α} {a : α}

/-- The list is threaded from its head to its tail. -/
structure Spans (next : α → Option α) (e : Ends α) (xs : List α) : Prop where
  nodup : xs.Nodup
  head : e.head = xs.head?
  tail : e.tail = xs.getLast?
  linked : Linked next xs

def empty : Ends α := ⟨none, none⟩

omit [DecidableEq α] in
theorem Spans.empty (next : α → Option α) : Spans next Ends.empty [] := ⟨.nil, rfl, rfl, trivial⟩

omit [DecidableEq α] in
theorem Spans.congr {next' : α → Option α} (h : Spans next e xs) (heq : ∀ a ∈ xs, next' a = next a) :
    Spans next' e xs :=
  { h with linked := h.linked.congr heq }

theorem Spans.update (h : Spans next e xs) (ha : a ∉ xs) (v : Option α) :
    Spans (Function.update next a v) e xs :=
  { h with linked := h.linked.update_of_notMem ha v }

def pushNext (next : α → Option α) (e : Ends α) (a : α) : α → Option α :=
  match e.tail with
  | some t => Function.update (Function.update next a none) t (some a)
  | none => Function.update next a none

def push (e : Ends α) (a : α) : Ends α where
  head := if e.tail.isSome then e.head else some a
  tail := some a

theorem Spans.push (h : Spans next e xs) (ha : a ∉ xs) : Spans (pushNext next e a) (e.push a) (xs ++ [a]) := by
  have hnodup : (xs ++ [a]).Nodup := by
    rw [List.nodup_append]
    exact ⟨h.nodup, List.nodup_singleton a, fun b hb c hc => by
      rw [List.mem_singleton] at hc
      exact fun heq => ha (hc ▸ heq ▸ hb)⟩
  rcases List.eq_nil_or_concat xs with rfl | ⟨init, t, rfl⟩
  · have htail : e.tail = none := h.tail
    refine ⟨hnodup, ?_, rfl, ?_⟩
    · simp [Ends.push, htail]
    · unfold pushNext
      rw [htail]
      exact ⟨update_self .., trivial⟩
  · rw [List.concat_eq_append] at *
    have htail : e.tail = some t := by simpa using h.tail
    have hta : t ≠ a := fun heq => ha (by simp [heq])
    have hinit : t ∉ init := (List.nodup_middle.mp h.nodup |> List.nodup_cons.mp).1 ∘ by simp
    refine ⟨hnodup, ?_, by simp [Ends.push], ?_⟩
    · simp only [Ends.push, htail, Option.isSome_some, if_true, h.head]
      cases init <;> rfl
    · unfold pushNext
      rw [htail]
      have hlinked := (h.linked.update_of_notMem ha none).redirect [a]
        ⟨update_self .., trivial⟩ hinit (by simpa using hta)
      simpa using hlinked

theorem Spans.pushNext_other {e' : Ends α} (h : Spans next e xs) (hother : Spans next e' ys) (ha : a ∉ ys)
    (hdisj : ∀ b ∈ xs, b ∉ ys) : Spans (pushNext next e a) e' ys := by
  unfold pushNext
  split
  next t ht =>
    have hmem : t ∈ xs := List.mem_of_getLast? (h.tail ▸ ht)
    exact (hother.update ha none).update (hdisj t hmem) _
  next => exact hother.update ha none

def popEnds (next : α → Option α) (e : Ends α) (a : α) : Ends α where
  head := next a
  tail := if (next a).isNone then none else e.tail

theorem Spans.pop (h : Spans next e (a :: xs)) : Spans (Function.update next a none) (popEnds next e a) xs := by
  have hnodup := List.nodup_cons.mp h.nodup
  have hnext : next a = xs.head? := h.linked.1
  refine ⟨hnodup.2, hnext, ?_, h.linked.2.update_of_notMem hnodup.1 none⟩
  unfold popEnds
  rw [hnext]
  cases xs with
  | nil => rfl
  | cons b xs => simp [h.tail]

def removeNext (next : α → Option α) (prev : Option α) (a : α) : α → Option α :=
  match prev with
  | some p => Function.update (Function.update next p (next a)) a none
  | none => Function.update next a none

def remove (next : α → Option α) (e : Ends α) (prev : Option α) (a : α) : Ends α where
  head := if prev.isSome then e.head else next a
  tail := if e.tail = some a then prev else e.tail

/-- Only the nodes on the list are written. -/
theorem removeNext_of_notMem {b : α} (hb : b ∉ pre ++ a :: post) :
    removeNext next pre.getLast? a b = next b := by
  have hba : b ≠ a := fun heq => hb (by simp [heq])
  unfold removeNext
  cases hp : pre.getLast? with
  | some p =>
    have hbp : b ≠ p := fun heq => hb (by simp [heq, List.mem_of_getLast? hp])
    exact (update_of_ne hba ..).trans (update_of_ne hbp ..)
  | none => exact update_of_ne hba ..

theorem Spans.remove (h : Spans next e (pre ++ a :: post)) :
    Spans (removeNext next pre.getLast? a) (e.remove next pre.getLast? a) (pre ++ post) := by
  have hnext : next a = post.head? := h.linked.head_eq
  have hmid := List.nodup_middle.mp h.nodup
  have hnotin : a ∉ pre ++ post := (List.nodup_cons.mp hmid).1
  have hnodup : (pre ++ post).Nodup := (List.nodup_cons.mp hmid).2
  have htail : e.tail = (pre ++ a :: post).getLast? := h.tail
  have hend : (e.remove next pre.getLast? a).tail = (pre ++ post).getLast? := by
    unfold Ends.remove
    cases hpost : post.getLast? with
    | none =>
      rw [List.getLast?_eq_none_iff] at hpost
      simp [htail, hpost]
    | some b =>
      have hb : b ∈ post := List.mem_of_getLast? hpost
      have hba : b ≠ a := fun heq => hnotin (by simp [← heq, hb])
      have hlast : (pre ++ a :: post).getLast? = some b := by
        rw [List.getLast?_append, List.getLast?_cons, hpost]
        rfl
      simp [htail, hlast, hba, List.getLast?_append, hpost]
  rcases List.eq_nil_or_concat pre with rfl | ⟨init, p, rfl⟩
  · refine ⟨hnodup, ?_, hend, ?_⟩
    · simp [Ends.remove, hnext]
    · exact h.linked.2.update_of_notMem (by simpa using hnotin) none
  · rw [List.concat_eq_append] at *
    have hlast : (init ++ [p]).getLast? = some p := by simp
    have hpa : p ≠ a := fun heq => hnotin (by simp [heq])
    refine ⟨hnodup, ?_, hend, ?_⟩
    · simp only [Ends.remove, hlast, Option.isSome_some, if_true, h.head]
      cases init <;> rfl
    · rw [hlast, removeNext]
      have hp : p ∉ init ++ post := by
        rw [List.append_assoc] at hnodup
        exact (List.nodup_cons.mp (List.nodup_middle.mp hnodup)).1
      rw [List.mem_append, not_or] at hp
      have hlinked : Linked next (init ++ p :: a :: post) := by simpa using h.linked
      refine Linked.update_of_notMem ?_ hnotin none
      rw [List.append_assoc, List.singleton_append, hnext]
      exact hlinked.redirect post hlinked.right.2.2 hp.1 hp.2

end Ends

def BackLinked (prev : α → Option α) : Option α → List α → Prop
  | _, [] => True
  | p, a :: xs => prev a = p ∧ BackLinked prev (some a) xs

namespace BackLinked

variable {prev : α → Option α} {p : Option α} {xs pre post : List α} {a : α}

omit [DecidableEq α] in
theorem congr {prev' : α → Option α} (h : BackLinked prev p xs) (heq : ∀ a ∈ xs, prev' a = prev a) :
    BackLinked prev' p xs := by
  induction xs generalizing p with
  | nil => trivial
  | cons b xs ih => exact ⟨(heq b (by simp)).trans h.1, ih h.2 fun a ha => heq a (by simp [ha])⟩

theorem update_of_notMem (h : BackLinked prev p xs) (ha : a ∉ xs) (v : Option α) :
    BackLinked (Function.update prev a v) p xs :=
  h.congr fun b hb => update_of_ne (fun heq : b = a => ha (heq ▸ hb)) ..

omit [DecidableEq α] in
theorem eq_getLast? (h : BackLinked prev p (pre ++ a :: post)) : prev a = pre.getLast?.or p := by
  induction pre generalizing p with
  | nil => exact h.1
  | cons b pre ih =>
    rw [ih h.2, List.getLast?_cons]
    cases pre.getLast? <;> rfl

theorem redirect (h : BackLinked prev p xs) (hnodup : xs.Nodup) (q : Option α) :
    BackLinked (match xs.head? with | some b => Function.update prev b q | none => prev) q xs := by
  cases xs with
  | nil => trivial
  | cons b xs => exact ⟨update_self .., h.2.update_of_notMem (List.nodup_cons.mp hnodup).1 q⟩

omit [DecidableEq α] in
theorem append {xs ys : List α} (h : BackLinked prev p xs) (h' : BackLinked prev (xs.getLast?.or p) ys) :
    BackLinked prev p (xs ++ ys) := by
  induction xs generalizing p with
  | nil => exact h'
  | cons b xs ih =>
    refine ⟨h.1, ih h.2 ?_⟩
    rw [List.getLast?_cons] at h'
    cases hlast : xs.getLast? <;> simpa [hlast] using h'

omit [DecidableEq α] in
theorem of_append {xs ys : List α} (h : BackLinked prev p (xs ++ ys)) :
    BackLinked prev p xs ∧ BackLinked prev (xs.getLast?.or p) ys := by
  induction xs generalizing p with
  | nil => exact ⟨trivial, h⟩
  | cons b xs ih =>
    obtain ⟨hxs, hys⟩ := ih h.2
    refine ⟨⟨h.1, hxs⟩, ?_⟩
    rw [List.getLast?_cons]
    cases hlast : xs.getLast? <;> simpa [hlast] using hys

end BackLinked

/-- A list linked both ways, of which only the head is kept. -/
structure Doubly (prev next : α → Option α) (head : Option α) (xs : List α) : Prop where
  nodup : xs.Nodup
  head : head = xs.head?
  linked : Linked next xs
  back : BackLinked prev none xs

namespace Doubly

variable {prev next : α → Option α} {head : Option α} {xs ys pre post : List α} {a : α}

omit [DecidableEq α] in
theorem empty (prev next : α → Option α) : Doubly prev next none [] := ⟨.nil, rfl, trivial, trivial⟩

omit [DecidableEq α] in
theorem congr {prev' next' : α → Option α} (h : Doubly prev next head xs) (hprev : ∀ a ∈ xs, prev' a = prev a)
    (hnext : ∀ a ∈ xs, next' a = next a) : Doubly prev' next' head xs :=
  ⟨h.nodup, h.head, h.linked.congr hnext, h.back.congr hprev⟩

def pushPrev (prev : α → Option α) (head : Option α) (a : α) : α → Option α :=
  match head with
  | some b => Function.update (Function.update prev a none) b (some a)
  | none => Function.update prev a none

theorem push (h : Doubly prev next head xs) (ha : a ∉ xs) :
    Doubly (pushPrev prev head a) (Function.update next a head) (some a) (a :: xs) := by
  refine ⟨List.nodup_cons.mpr ⟨ha, h.nodup⟩, rfl, ⟨?_, h.linked.update_of_notMem ha _⟩, ?_⟩
  · rw [update_self, h.head]
  · have hback := (h.back.update_of_notMem ha none).redirect h.nodup (some a)
    unfold pushPrev
    rw [h.head]
    cases xs with
    | nil => exact ⟨update_self .., trivial⟩
    | cons b xs =>
      have hab : a ≠ b := fun heq => ha (by simp [heq])
      exact ⟨(update_of_ne hab ..).trans (update_self ..), hback⟩

theorem pushPrev_of_notMem {b : α} (h : head = xs.head?) (hb : b ∉ a :: xs) : pushPrev prev head a b = prev b := by
  have hba : b ≠ a := fun heq => hb (by simp [heq])
  unfold pushPrev
  cases xs with
  | nil =>
    rw [h]
    exact update_of_ne hba ..
  | cons c xs =>
    have hbc : b ≠ c := fun heq => hb (by simp [heq])
    rw [h]
    exact (update_of_ne hbc ..).trans (update_of_ne hba ..)

def unlinkNext (prev next : α → Option α) (a : α) : α → Option α := Ends.removeNext next (prev a) a

def unlinkPrev (prev next : α → Option α) (a : α) : α → Option α :=
  match next a with
  | some n => Function.update (Function.update prev n (prev a)) a none
  | none => Function.update prev a none

def unlinkHead (prev next : α → Option α) (head : Option α) (a : α) : Option α :=
  if (prev a).isSome then head else next a

omit [DecidableEq α] in
theorem prev_eq (h : Doubly prev next head (pre ++ a :: post)) : prev a = pre.getLast? := by
  rw [h.back.eq_getLast?, Option.or_none]

theorem unlink (h : Doubly prev next head (pre ++ a :: post)) :
    Doubly (unlinkPrev prev next a) (unlinkNext prev next a) (unlinkHead prev next head a) (pre ++ post) := by
  have hspans : Ends.Spans next ⟨head, (pre ++ a :: post).getLast?⟩ (pre ++ a :: post) :=
    { h with tail := rfl }
  have hremove := hspans.remove
  have hnotin : a ∉ pre ++ post := (List.nodup_cons.mp (List.nodup_middle.mp h.nodup)).1
  have hnext : next a = post.head? := h.linked.head_eq
  refine ⟨hremove.nodup, ?_, ?_, ?_⟩
  · rw [unlinkHead, h.prev_eq]
    exact hremove.head
  · rw [unlinkNext, h.prev_eq]
    exact hremove.linked
  · obtain ⟨hpre, hrest⟩ := h.back.of_append
    have hpost : BackLinked (match post.head? with
        | some n => Function.update prev n pre.getLast?
        | none => prev) pre.getLast? post :=
      hrest.2.redirect ((List.nodup_append.mp hremove.nodup).2.1) _
    unfold unlinkPrev
    rw [hnext, h.prev_eq]
    cases post with
    | nil =>
      rw [List.append_nil]
      exact hpre.update_of_notMem (by simpa using hnotin) none
    | cons n post =>
      have hn : n ∉ pre := fun hmem =>
        (List.nodup_append.mp hremove.nodup).2.2 n hmem n (by simp) rfl
      refine BackLinked.update_of_notMem ?_ hnotin none
      refine (hpre.update_of_notMem hn _).append ?_
      rw [Option.or_none]
      exact hpost

theorem unlinkPrev_of_notMem (h : Doubly prev next head (pre ++ a :: post)) {b : α} (hb : b ∉ pre ++ a :: post) :
    unlinkPrev prev next a b = prev b := by
  have hba : b ≠ a := fun heq => hb (by simp [heq])
  unfold unlinkPrev
  rw [show next a = post.head? from h.linked.head_eq]
  cases post with
  | nil => exact update_of_ne hba ..
  | cons n post =>
    have hbn : b ≠ n := fun heq => hb (by simp [heq])
    exact (update_of_ne hba ..).trans (update_of_ne hbn ..)

theorem unlinkNext_of_notMem (h : Doubly prev next head (pre ++ a :: post)) {b : α} (hb : b ∉ pre ++ a :: post) :
    unlinkNext prev next a b = next b := by
  rw [unlinkNext, h.prev_eq]
  exact Ends.removeNext_of_notMem hb

end Doubly
