import Multiplexd.Mux.Deficit

/-!
# Fairness of the data scheduler

Two streams that always have a frame to send take turns at the FIFO. A turn opens with one quantum, so
the quanta the two have been given differ by one at most, and what a stream has sent differs from its
quanta by the deficits it holds at the two ends of the run.
-/

namespace Multiplexd

namespace Sched

variable {M : Nat} {s s' : Sched} {P : Nat → Prop} {A B i payload : Nat}

theorem Sendable.opened (h : s.Sendable i) : (s.streams i).state.Opened := by
  obtain ⟨hinit, hsome⟩ := h
  unfold SchedStream.dequeueSend at hsome
  split at hsome
  case isFalse => cases hsome
  case isTrue hcan =>
  refine ⟨hinit, fun hc => ?_, fun hc => ?_⟩ <;>
  · rw [hc] at hcan
    cases hcan

theorem Sendable.dequeue (h : s.Sendable i) : ∃ payload rest, (s.streams i).sendQueue = payload :: rest ∧
      (s.streams i).dequeueSend s.nodelay s.maxPayload =
        (some payload, { s.streams i with nagleFlush := false, sendQueue := rest }) := by
  obtain ⟨payload, hpayload⟩ := Option.isSome_iff_exists.1 h.2
  have hdeq : (s.streams i).dequeueSend s.nodelay s.maxPayload =
      (some payload, ((s.streams i).dequeueSend s.nodelay s.maxPayload).2) := by
    rw [← hpayload]
  obtain ⟨rest, hqueue, ht⟩ := SchedStream.dequeueSend_some hdeq
  rw [ht] at hdeq
  exact ⟨payload, rest, hqueue, hdeq⟩

theorem not_sendable_of_blank (h : s.streams i = {}) : ¬s.Sendable i := by
  intro hs
  have := hs.opened.2.2
  rw [h] at this
  exact this rfl

theorem not_sendable_of_closed (h : (s.streams i).state = .closed) : ¬s.Sendable i :=
  fun hs => hs.opened.2.2 h

/-! ### Steps of another stream -/

/-- The streams of `P` are as they were, in the same order. -/
structure Untouched (P : Nat → Prop) (s s' : Sched) : Prop where
  nodelay : s'.nodelay = s.nodelay
  maxPayload : s'.maxPayload = s.maxPayload
  streams : ∀ x, P x → s'.streams x = s.streams x
  ready : ∀ l : List Nat, (∀ x ∈ l, P x) → l.Sublist s.ready → l.Sublist s'.ready
  active : ∀ x, P x → (s'.drrActive = some x ↔ s.drrActive = some x)

variable {x : Nat} {s'' s₀ : Sched} {t : SchedStream} {e : SchedEvent} {o fresh c : Bool} {fin : FinEffect}
  {fins : List FinEffect} {r : Option Staged}

theorem Untouched.sendable (h : Untouched P s s') (hx : P x) (hs : s.Sendable x) : s'.Sendable x := by
  unfold Sendable
  rw [h.streams x hx, h.nodelay, h.maxPayload]
  exact hs

theorem Untouched.refl : Untouched P s s := ⟨rfl, rfl, fun _ _ => rfl, fun _ _ h => h, fun _ _ => Iff.rfl⟩

theorem Untouched.trans (h : Untouched P s s') (h' : Untouched P s' s'') :
    Untouched P s s'' where
  nodelay := h'.nodelay.trans h.nodelay
  maxPayload := h'.maxPayload.trans h.maxPayload
  streams x hx := (h'.streams x hx).trans (h.streams x hx)
  ready l hl hsub := h'.ready l hl (h.ready l hl hsub)
  active x hx := (h'.active x hx).trans (h.active x hx)

theorem clearActive_untouched (hactive : ∀ x, P x → s.drrActive ≠ some x) :
    Untouched P s { s with drrActive := none } :=
  ⟨rfl, rfl, fun _ _ => rfl, fun _ _ h => h, fun x hx => ⟨nofun, fun hc => absurd hc (hactive x hx)⟩⟩

def Blank (s : Sched) : Prop := (∀ x, s.streams x = {}) ∧ s.ready = [] ∧ s.drrActive = none

section Other

variable (hi : ¬P i)

include hi

theorem Untouched.set (t : SchedStream) : Untouched P s (s.set i t) := by
  refine ⟨rfl, rfl, fun x hx => set_streams_of_ne ?_ t, fun _ _ h => h, fun _ _ => Iff.rfl⟩
  rintro rfl
  exact hi hx

theorem enqueue_untouched : Untouched P s (s.enqueue i) := by
  unfold Sched.enqueue
  split
  · have hset := Untouched.set (s := s) hi { s.streams i with schedQueue := .drr }
    exact ⟨rfl, rfl, hset.streams, fun l _ hsub => hsub.trans (List.sublist_append_left _ _), hset.active⟩
  · exact Untouched.refl

theorem lpEnqueue_untouched : Untouched P s (s.lpEnqueue i) := by
  unfold Sched.lpEnqueue
  split
  · exact Untouched.refl
  split
  · exact Untouched.refl
  split
  · have hset := Untouched.set (s := s) hi { s.streams i with schedQueue := .lp }
    exact ⟨rfl, rfl, hset.streams, hset.ready, hset.active⟩
  · exact Untouched.refl

theorem wake_untouched : Untouched P s (s.wake i) := by
  unfold Sched.wake
  split
  · exact enqueue_untouched hi
  split
  · exact lpEnqueue_untouched hi
  · exact enqueue_untouched hi

theorem markClosed_untouched : Untouched P s (s.markClosed i) := by
  have hset : Untouched P s
      ({ s with drrActive := if s.drrActive = some i then none else s.drrActive }.set i
        { s.streams i with
          state := .closed, sendQueue := []
          tombstone := !((s.streams i).state == StreamState.init) }) := by
    have hactive : Untouched P s
        { s with drrActive := if s.drrActive = some i then none else s.drrActive } := by
      refine ⟨rfl, rfl, fun _ _ => rfl, fun _ _ h => h, fun x hx => ?_⟩
      dsimp only
      split
      next hc =>
        rw [hc]
        refine ⟨nofun, fun hix => ?_⟩
        cases hix
        exact absurd hx hi
      · exact Iff.rfl
    exact hactive.trans (Untouched.set hi _)
  unfold Sched.markClosed
  dsimp only
  split
  · exact hset.trans (wake_untouched hi)
  · exact hset

theorem markFinSent_untouched (fin : FinEffect) :
    Blank (s.markFinSent i fin) ∧ (s.markFinSent i fin).established = false ∨
      Untouched P s (s.markFinSent i fin) := by
  unfold markFinSent
  cases fin with
  | none => exact .inr Untouched.refl
  | halfClosed =>
    right
    dsimp only
    split
    · exact Untouched.set hi _
    · exact Untouched.set hi _
    · exact Untouched.refl
  | closed => exact .inr (markClosed_untouched hi)
  | drained => exact .inl ⟨⟨fun _ => rfl, rfl, rfl⟩, rfl⟩

theorem drrContinue_untouched (hactive : ∀ x, P x → s.drrActive ≠ some x) :
    Untouched P s (s.drrContinue i) := by
  have hnone : Untouched P s { s with drrActive := none } := clearActive_untouched hactive
  have hsome : Untouched P s { s with drrActive := some i } := by
    refine ⟨rfl, rfl, fun _ _ => rfl, fun _ _ h => h, fun x hx => ⟨fun hc => ?_, fun hc => ?_⟩⟩
    · cases hc
      exact absurd hx hi
    · exact absurd hc (hactive x hx)
  unfold drrContinue
  split
  · exact hnone.trans (Untouched.set hi _)
  split
  · exact hsome
  split
  · exact hsome
  · exact hnone.trans (wake_untouched hi)

theorem topUp_untouched (payload : Nat) (fresh : Bool) : Untouched P s (s.topUp i payload fresh) := by
  unfold topUp
  split
  · exact Untouched.set hi _
  · exact Untouched.refl

theorem stage_untouched (hactive : ∀ x, P x → s.drrActive ≠ some x) (payload : Nat) (fresh : Bool)
    (fin : FinEffect) :
    Blank (s.stage i payload fresh fin).2 ∨ Untouched P s (s.stage i payload fresh fin).2 := by
  have htop := topUp_untouched (s := s) hi payload fresh
  unfold stage
  dsimp only
  generalize s.topUp i payload fresh = s1 at htop ⊢
  have hpush : Blank (s1.sendPush i payload fin) ∧ (s1.sendPush i payload fin).established = false ∨
      Untouched P s (s1.sendPush i payload fin) := by
    rcases markFinSent_untouched hi fin with hblank | hfin
    · exact .inl hblank
    · exact .inr ((htop.trans (Untouched.set hi _)).trans hfin)
  rcases hpush with ⟨hblank, hest⟩ | hpush
  · left
    rw [hest, if_neg (by decide)]
    exact hblank
  · right
    split
    · refine (hpush.trans (Untouched.set hi _)).trans (drrContinue_untouched hi fun x hx => ?_)
      rw [set_drrActive]
      exact fun hc => hactive x hx ((hpush.active x hx).1 hc)
    · exact hpush

/-- A turn given to another stream. -/
theorem serve_untouched (hactive : ∀ x, P x → s.drrActive ≠ some x) {fresh : Bool} {fin : FinEffect} :
    (∀ frame, s.serve i fresh fin = .staged frame s' → Blank s' ∨ Untouched P s s') ∧
      (s.serve i fresh fin = .again s' → Blank s' ∨ Untouched P s s') := by
  have hnone : Untouched P s { s with drrActive := none } := clearActive_untouched hactive
  refine ⟨fun frame hserve => ?_, fun hserve => ?_⟩
  · obtain ⟨payload, rest, -, -, hstage⟩ := serve_staged hserve
    have hset := Untouched.set (s := s) hi { s.streams i with nagleFlush := false, sendQueue := rest }
    have h := stage_untouched (s := s.set i { s.streams i with nagleFlush := false, sendQueue := rest }) hi
      hactive payload fresh fin
    rw [hstage] at h
    exact h.imp_right hset.trans
  · unfold serve at hserve
    split at hserve
    · cases hserve
      right
      dsimp only
      split
      · exact hnone
      · exact hnone.trans (lpEnqueue_untouched hi)
    · cases hserve
      exact .inr (hnone.trans (lpEnqueue_untouched hi))
    · cases hserve
      exact .inr hnone
    · split at hserve
      · cases hserve
      next t _ =>
        cases hserve
        have hclear : Untouched P s ({ s.set i t with drrActive := none }.clearDeficit i) := by
          refine ((Untouched.set hi t).trans (clearActive_untouched hactive)).trans (Untouched.set hi _)
        exact (markFinSent_untouched hi fin).imp And.left hclear.trans

theorem pick_untouched (hpick : s.pick = some (i, s')) :
    Untouched P s s' ∧ ∀ x, P x → s'.drrActive ≠ some x := by
  unfold pick at hpick
  split at hpick
  next hactive =>
    cases hpick
    refine ⟨Untouched.refl, fun x hx hc => ?_⟩
    cases hactive.symm.trans hc
    exact hi hx
  next => cases hpick
  next head rest hactive hready =>
    cases hpick
    have hset := Untouched.set (s := s) hi { s.streams i with schedQueue := .none }
    refine ⟨⟨rfl, rfl, hset.streams, fun l hl hsub => ?_, hset.active⟩, fun x hx => ?_⟩
    · rw [hready] at hsub
      cases hsub with
      | cons _ hrest => exact hrest
      | cons_cons _ _ => exact absurd (hl i List.mem_cons_self) hi
    · rw [set_drrActive, hactive]
      nofun

end Other

/-! ### The rest of the program -/

structure Undisturbed (P : Nat → Prop) (s s' : Sched) : Prop where
  deficit : ∀ x, P x → (s'.streams x).deficit = (s.streams x).deficit
  bytesSent : ∀ x, P x → (s'.streams x).bytesSent = (s.streams x).bytesSent
  queue : ∀ x, P x → (s.streams x).sendQueue <+: (s'.streams x).sendQueue
  ready : ∀ l : List Nat, (∀ x ∈ l, P x) → l.Sublist s.ready → l.Sublist s'.ready
  active : ∀ x, P x → s.drrActive = some x → s'.drrActive = some x

theorem Untouched.undisturbed (h : Untouched P s s') : Undisturbed P s s' :=
  ⟨fun x hx => by rw [h.streams x hx], fun x hx => by rw [h.streams x hx],
    fun x hx => by simp only [h.streams x hx, List.prefix_rfl], h.ready,
    fun x hx => (h.active x hx).2⟩

theorem Undisturbed.refl : Undisturbed P s s :=
  ⟨fun _ _ => rfl, fun _ _ => rfl, fun _ _ => List.prefix_rfl, fun _ _ h => h, fun _ _ h => h⟩

theorem Undisturbed.trans (h : Undisturbed P s s') (h' : Undisturbed P s' s'') :
    Undisturbed P s s'' where
  deficit x hx := (h'.deficit x hx).trans (h.deficit x hx)
  bytesSent x hx := (h'.bytesSent x hx).trans (h.bytesSent x hx)
  queue x hx := (h.queue x hx).trans (h'.queue x hx)
  ready l hl hsub := h'.ready l hl (h.ready l hl hsub)
  active x hx hactive := h'.active x hx (h.active x hx hactive)

theorem Undisturbed.set (h : P i → t.deficit = (s.streams i).deficit ∧ t.bytesSent = (s.streams i).bytesSent ∧
      (s.streams i).sendQueue <+: t.sendQueue) : Undisturbed P s (s.set i t) := by
  refine ⟨fun x hx => ?_, fun x hx => ?_, fun x hx => ?_, fun _ _ hsub => hsub, fun _ _ hc => hc⟩ <;>
    by_cases hxi : x = i
  · subst hxi
    rw [set_streams_self]
    exact (h hx).1
  · rw [set_streams_of_ne hxi]
  · subst hxi
    rw [set_streams_self]
    exact (h hx).2.1
  · rw [set_streams_of_ne hxi]
  · subst hxi
    rw [set_streams_self]
    exact (h hx).2.2
  · simp only [set_streams_of_ne hxi, List.prefix_rfl]

theorem Undisturbed.append {e q : List Nat}
    (h : P i → t.deficit = (s.streams i).deficit ∧ t.bytesSent = (s.streams i).bytesSent ∧
      (s.streams i).sendQueue <+: t.sendQueue) :
    Undisturbed P s { s.set i t with ready := s.ready ++ e, lp := q } := by
  have hset := Undisturbed.set (s := s) h
  exact { hset with ready := fun l _ hsub => hsub.trans (List.sublist_append_left _ _) }

theorem enqueue_undisturbed : Undisturbed P s (s.enqueue i) := by
  unfold Sched.enqueue
  split
  · exact Undisturbed.append (q := s.lp) fun _ => ⟨rfl, rfl, List.prefix_rfl⟩
  · exact Undisturbed.refl

theorem lpEnqueue_undisturbed : Undisturbed P s (s.lpEnqueue i) := by
  unfold Sched.lpEnqueue
  split
  · exact Undisturbed.refl
  split
  · exact Undisturbed.refl
  split
  · have h := Undisturbed.append (s := s) (P := P) (i := i) (t := { s.streams i with schedQueue := .lp })
      (e := []) (q := s.lp ++ [i]) fun _ => ⟨rfl, rfl, List.prefix_rfl⟩
    rw [List.append_nil] at h
    exact h
  · exact Undisturbed.refl

theorem wake_undisturbed : Undisturbed P s (s.wake i) := by
  unfold Sched.wake
  split
  · exact enqueue_undisturbed
  split
  · exact lpEnqueue_undisturbed
  · exact enqueue_undisturbed

theorem drainLp_undisturbed (hsend : ∀ x, P x → s.Sendable x) (held sent : Bool) :
    Undisturbed P s (s.drainLp held sent) := by
  unfold drainLp
  split
  · exact Undisturbed.refl
  next i rest hlp =>
  have hpop : Undisturbed P s { s.set i { s.streams i with schedQueue := .none } with lp := rest } := by
    have hset := Undisturbed.set (s := s) (P := P) (i := i) (t := { s.streams i with schedQueue := .none })
      fun _ => ⟨rfl, rfl, List.prefix_rfl⟩
    exact { hset with }
  dsimp only
  rw [set_streams_self]
  split
  next hstate =>
    split
    · exact hpop
    · exact hpop.trans (Undisturbed.set fun hi => absurd (hsend i hi) (not_sendable_of_closed hstate))
  next hstate =>
    have hi : ¬P i := fun hi => (hsend i hi).1 hstate
    split
    · exact hpop.trans (Undisturbed.set fun hc => absurd hc hi)
    split
    · exact hpop.trans (Undisturbed.set fun hc => absurd hc hi)
    · exact (hpop.trans (Undisturbed.set fun hc => absurd hc hi)).trans (markClosed_untouched hi).undisturbed
  next => exact hpop

/-- Between two calls, streams that can send before and after are left alone. -/
theorem act_undisturbed {a : SchedAct} (hsend : ∀ x, P x → s.Sendable x)
    (hsend' : ∀ x, P x → (s.act a).Sendable x) : Undisturbed P s (s.act a) := by
  cases a with
  | opened i credit active =>
    revert hsend'
    unfold act
    dsimp only
    split <;> intro hsend'
    · exact Undisturbed.refl
    next =>
      refine Undisturbed.set fun hi => ?_
      obtain ⟨_, _, hqueue, -⟩ := (hsend' i hi).dequeue
      rw [set_streams_self] at hqueue
      cases hqueue
  | queueSend i payload =>
    unfold act
    dsimp only
    split
    · exact Undisturbed.set fun _ => ⟨rfl, rfl, List.prefix_append _ _⟩
    · exact Undisturbed.refl
  | wake i =>
    unfold act
    dsimp only
    split
    · exact wake_undisturbed
    · exact Undisturbed.refl
  | credited i credit unackedBytes => exact Undisturbed.set fun _ => ⟨rfl, rfl, List.prefix_rfl⟩
  | released i => exact Undisturbed.set fun _ => ⟨rfl, rfl, List.prefix_rfl⟩
  | advanced i st =>
    unfold act
    dsimp only
    split
    · exact Undisturbed.set fun _ => ⟨rfl, rfl, List.prefix_rfl⟩
    · exact Undisturbed.refl
  | closed i =>
    revert hsend'
    unfold act
    dsimp only
    split <;> intro hsend'
    next =>
      refine (markClosed_untouched fun hi => ?_).undisturbed
      have hopen := (hsend i hi).opened
      have hclosed := hsend' i hi
      rw [markClosed_of_opened hopen.1] at hclosed
      refine not_sendable_of_closed ?_ hclosed
      rw [set_streams_self]
    · exact Undisturbed.refl
  | tombstoneExpired i =>
    unfold act
    dsimp only
    split
    · refine Undisturbed.trans ?_ wake_undisturbed
      exact Undisturbed.set fun _ => ⟨rfl, rfl, List.prefix_rfl⟩
    · exact Undisturbed.refl
  | drainLp held sent =>
    unfold act
    dsimp only
    split
    · exact drainLp_undisturbed hsend held sent
    · exact Undisturbed.refl
  | freeStreams =>
    have hnone : ∀ x, ¬P x := fun x hx => not_sendable_of_blank rfl (hsend' x hx)
    exact ⟨fun x hx => absurd hx (hnone x), fun x hx => absurd hx (hnone x),
      fun x hx => absurd hx (hnone x), fun l hl _ => by
        cases l with
        | nil => exact List.nil_sublist _
        | cons x l => exact absurd (hl x List.mem_cons_self) (hnone x),
      fun x hx => absurd hx (hnone x)⟩
  | sessionState established => exact { Undisturbed.refl with }
  | setConfig nodelay => exact { Undisturbed.refl with }

/-! ### Two streams that take turns -/

/-- Between `A` and `B`, the next turn is `A`'s, and whether it has had its quantum: `A` is ahead of `B` in
the FIFO; `A` holds the budget, short of its next frame or not. -/
inductive Lead (A B : Nat) (s : Sched) : Bool → Prop
  | queued : [A, B].Sublist s.ready → Lead A B s false
  | short (payload : Nat) : s.drrActive = some A → B ∈ s.ready →
      (s.streams A).sendQueue.head? = some payload → (s.streams A).deficit < payload → Lead A B s false
  | covered (payload : Nat) : s.drrActive = some A → B ∈ s.ready →
      (s.streams A).sendQueue.head? = some payload → payload ≤ (s.streams A).deficit → Lead A B s true

theorem head?_of_shorter {l l' : List Nat} (h : l <+: l') (hx : l.head? = some x) : l'.head? = some x := by
  obtain ⟨r, rfl⟩ := h
  rw [List.head?_append, hx]
  rfl

theorem Lead.undisturbed (h : Lead A B s o) (hs : Undisturbed (fun x => x = A ∨ x = B) s s') :
    Lead A B s' o := by
  have hmem : B ∈ s.ready → B ∈ s'.ready := fun hB =>
    List.singleton_sublist.1 (hs.ready [B] (by simp) (List.singleton_sublist.2 hB))
  cases h with
  | queued hsub => exact .queued (hs.ready _ (by simp) hsub)
  | short payload hactive hB hhead hlt =>
    exact .short payload (hs.active A (.inl rfl) hactive) (hmem hB)
      (head?_of_shorter (hs.queue A (.inl rfl)) hhead) (by rw [hs.deficit A (.inl rfl)]; exact hlt)
  | covered payload hactive hB hhead hle =>
    exact .covered payload (hs.active A (.inl rfl) hactive) (hmem hB)
      (head?_of_shorter (hs.queue A (.inl rfl)) hhead) (by rw [hs.deficit A (.inl rfl)]; exact hle)

def account (s : Sched) (x : Nat) : Nat := (s.streams x).bytesSent + (s.streams x).deficit

theorem wake_of_opened (hest : s.established = true) (hopen : (s.streams i).state.Opened)
    (hoff : (s.streams i).schedQueue = .none) (htomb : (s.streams i).tombstone = false)
    (hactive : s.drrActive = none) :
    s.wake i = { s.set i { s.streams i with schedQueue := .drr } with ready := s.ready ++ [i] } := by
  have hlp : ¬((s.streams i).state = .init ∨ (s.streams i).state = .closed) := fun hc =>
    hc.elim hopen.1 hopen.2.2
  unfold Sched.wake Sched.enqueue
  rw [hest, if_neg (by decide), if_neg hlp, if_pos ⟨hoff, by rw [hactive]; nofun, htomb⟩]

/-- After a frame the stream keeps the budget, or yields to the other one. -/
theorem drrContinue_lead (h : s.Inv M (some A)) (hest : s.established = true) (hAB : A ≠ B)
    (hB : B ∈ s.ready) (hopen : (s.streams A).sendQueue ≠ [] → (s.streams A).state.Opened)
    (hsend : (s.drrContinue A).Sendable A) :
    account (s.drrContinue A) A = account s A ∧ (s.drrContinue A).streams B = s.streams B ∧
      (Lead A B (s.drrContinue A) true ∨ Lead B A (s.drrContinue A) false) := by
  have hid := h.stream A
  revert hsend
  unfold drrContinue
  split
  next hnil =>
    intro hsend
    obtain ⟨_, _, hqueue, -⟩ := hsend.dequeue
    rw [clearDeficit, set_streams_self] at hqueue
    cases hnil.symm.trans hqueue
  next next rest hqueue =>
    have hst := hopen (by rw [hqueue]; exact List.cons_ne_nil _ _)
    have hhead : (s.streams A).sendQueue.head? = some next := by rw [hqueue]; rfl
    rw [if_neg (List.ne_nil_of_mem hB)]
    split <;> intro hsend
    next hcover => exact ⟨rfl, rfl, .inl (.covered next rfl hB hhead hcover.2)⟩
    next =>
      have htomb : (s.streams A).tombstone = false := by
        by_contra hc
        exact hst.2.2 (hid.tomb (by simpa using hc))
      rw [wake_of_opened (s := { s with drrActive := none }) hest hst (hid.off_of_busy rfl) htomb rfl]
      refine ⟨?_, set_streams_of_ne hAB.symm _, .inr (.queued ?_)⟩
      · simp [account]
      · exact List.Sublist.append (List.singleton_sublist.2 hB) (List.Sublist.refl [A])

theorem stage_lead (hM : 0 < M) (hmax : M ≤ 65535) (h : s.Inv M (some A)) (hest : s.established = true)
    (hAB : A ≠ B) (hB : B ∈ s.ready) (hopen : (s.streams A).state.Opened)
    (hfresh : fresh = true → (s.streams A).deficit < M) (hpayload : payload ≤ M)
    (hsend : (s.stage A payload fresh fin).2.Sendable A) : account (s.stage A payload fresh fin).2 A =
        account s A + (if fresh = true ∨ (s.streams A).deficit < payload then M else 0) ∧
      (s.stage A payload fresh fin).2.streams B = s.streams B ∧
      (Lead A B (s.stage A payload fresh fin).2 true ∨ Lead B A (s.stage A payload fresh fin).2 false) := by
  obtain ⟨d, htop, hle, hlt, hd⟩ := topUp_spec hmax h hfresh hpayload
  have hset : (s.set A { s.streams A with deficit := d }).Inv M (some A) := h.setDeficit hlt
  have hpush := sendPush_spec hM hset (by rw [set_streams_self]; exact hopen) payload fin
  revert hsend
  unfold stage
  rw [htop]
  dsimp only
  generalize (s.set A { s.streams A with deficit := d }).sendPush A payload fin = s2 at hpush ⊢
  rcases hpush with ⟨hest2, -, -, hblank⟩ | ⟨hsent, hinv⟩
  · rw [hest2, if_neg (by decide)]
    exact fun hsend => absurd hsend (not_sendable_of_blank (hblank A))
  · have hest2 : s2.established = true := hsent.established.trans hest
    have hdef : (s2.streams A).deficit = d := by rw [hsent.deficit, set_streams_self]
    have hbytes : (s2.streams A).bytesSent = (s.streams A).bytesSent + payload := by
      rw [hsent.bytesSent, set_streams_self]
    rw [hest2, if_pos rfl, deduct_eq hdef hle (by omega)]
    intro hsend
    obtain ⟨haccount, hother, hlead⟩ := drrContinue_lead (hinv.setDeficit (by omega)) hest2 hAB
      (show B ∈ s2.ready by rw [hsent.ready]; exact hB)
      (by rw [set_streams_self]; exact fun hne => (hsent.open_of_queued hne).2) hsend
    refine ⟨?_, ?_, hlead⟩
    · rw [haccount]
      simp only [account, set_streams_self]
      omega
    · rw [hother, set_streams_of_ne hAB.symm, hsent.others B hAB.symm, set_streams_of_ne hAB.symm]

theorem Inv.ready_off (h : s.Inv M s.drrActive) (hi : i ∈ s.ready) : s.drrActive ≠ some i := by
  intro hc
  have hdrr := (h.stream i).ready.1 hi
  rw [(h.stream i).off_of_busy hc] at hdrr
  cases hdrr

theorem Lead.mem (h : Lead A B s o) : B ∈ s.ready := by
  cases h with
  | queued hsub => exact hsub.subset (by simp)
  | short _ _ hB => exact hB
  | covered _ _ hB => exact hB

theorem Lead.pick_ne (h : s.Inv M s.drrActive) (hAB : A ≠ B) (hlead : Lead A B s o)
    (hpick : s.pick = some (i, s')) : i ≠ B := by
  rintro rfl
  have hoff := h.ready_off hlead.mem
  unfold pick at hpick
  split at hpick
  next hactive =>
    cases hpick
    exact hoff hactive
  next => cases hpick
  next head rest hactive hready =>
    cases hpick
    have hnodup := h.readyNodup
    rw [hready, List.nodup_cons] at hnodup
    cases hlead with
    | queued hsub =>
      rw [hready] at hsub
      cases hsub with
      | cons _ hrest => exact hnodup.1 (hrest.subset (by simp))
      | cons_cons _ _ => exact hAB rfl
    | short _ hA => cases hactive.symm.trans hA
    | covered _ hA => cases hactive.symm.trans hA

theorem Lead.turn (hM : 0 < M) (hmax : M ≤ 65535) (h : s.Inv M s.drrActive)
    (hest : s.established = true) (hAB : A ≠ B) (hlead : Lead A B s o) (hpick : s.pick = some (A, s')) {frame : Staged}
    (hserve : s'.serve A s.drrActive.isNone fin = .staged frame s'') (hsend : s''.Sendable A) :
    account s'' A = account s A + (if o then 0 else M) ∧ account s'' B = account s B ∧
      (Lead A B s'' true ∨ Lead B A s'' false) := by
  obtain ⟨hinv, hest', hfresh, -⟩ := pick_inv h hpick
  obtain ⟨payload, rest, hopen, hqueue, hstage⟩ := serve_staged hserve
  have hid := hinv.stream A
  have hset := hinv.edit (t := { s'.streams A with nagleFlush := false, sendQueue := rest })
    rfl rfl rfl rfl (fun p hp => hid.frames p (by rw [hqueue]; exact List.mem_cons_of_mem _ hp))
    (fun hc => hc) hid.open_of_active
  have hpayload := hid.frames payload (by rw [hqueue]; exact List.mem_cons_self)
  -- what the pick says about the leader, the quantum it is due and the other stream
  have hturn : B ∈ s'.ready ∧ account s' A = account s A ∧ account s' B = account s B ∧
      (if s.drrActive.isNone = true ∨ (s'.streams A).deficit < payload then M else 0) =
        if o then 0 else M := by
    unfold pick at hpick
    split at hpick
    next hactive =>
      cases hpick
      refine ⟨hlead.mem, rfl, rfl, ?_⟩
      rw [hactive]
      cases hlead with
      | queued hsub => exact absurd hactive (h.ready_off (hsub.subset (by simp)))
      | short p _ _ hhead hlt =>
        rw [hqueue] at hhead
        cases hhead
        simp [hlt]
      | covered p _ _ hhead hle =>
        rw [hqueue] at hhead
        cases hhead
        simp [Nat.not_lt.2 hle]
    next => cases hpick
    next head rest' hactive hready =>
      cases hpick
      refine ⟨?_, by simp [account], ?_, ?_⟩
      · have hB := hlead.mem
        rw [hready] at hB
        exact (List.mem_cons.1 hB).resolve_left hAB.symm
      · simp only [account]
        rw [set_streams_of_ne hAB.symm]
      · cases hlead with
        | queued hsub => simp [hactive]
        | short _ hA => cases hactive.symm.trans hA
        | covered _ hA => cases hactive.symm.trans hA
  obtain ⟨hB, hA', hB', hquantum⟩ := hturn
  have hresult : (s'.set A { s'.streams A with nagleFlush := false, sendQueue := rest }).stage A payload
      s.drrActive.isNone fin = (frame, s'') := hstage
  have hstep := stage_lead (s := s'.set A { s'.streams A with nagleFlush := false, sendQueue := rest })
    hM hmax hset (hest'.trans hest) hAB hB (by rw [set_streams_self]; exact hopen)
    (by rw [set_streams_self]; exact fun hf => hfresh hf hopen.2.2) hpayload.2
    (by rw [hresult]; exact hsend)
  rw [hresult, set_streams_self, set_streams_of_ne hAB.symm] at hstep
  obtain ⟨haccount, hother, hnext⟩ := hstep
  refine ⟨?_, ?_, hnext⟩
  · rw [haccount, hquantum, ← hA']
    simp [account]
  · rw [← hB']
    simp only [account]
    rw [hother]

/-- A stream that can send is not passed over. -/
theorem serve_of_sendable (h : s.Sendable i) (fresh : Bool) (fin : FinEffect) :
    ∃ frame s', s.serve i fresh fin = .staged frame s' := by
  obtain ⟨payload, rest, -, hdeq⟩ := h.dequeue
  rw [serve_of_opened h.opened, hdeq]
  exact ⟨_, _, rfl⟩

theorem dequeueSend_schedQueue (t : SchedStream) (q : SchedQueue) (nodelay : Bool) (M : Nat) :
    ({ t with schedQueue := q }.dequeueSend nodelay M).1 = (t.dequeueSend nodelay M).1 := by
  unfold SchedStream.dequeueSend
  dsimp only
  repeat' split
  all_goals rfl

theorem pick_sendable (hpick : s.pick = some (i, s')) (h : s.Sendable i) : s'.Sendable i := by
  unfold pick at hpick
  split at hpick
  · cases hpick
    exact h
  · cases hpick
  · cases hpick
    refine ⟨?_, ?_⟩
    · dsimp only
      rw [set_streams_self]
      exact h.1
    · dsimp only
      rw [set_streams_self, dequeueSend_schedQueue]
      exact h.2

theorem nextData_blank (h : Blank s) (hnext : s.nextData fins = some (r, s')) : s' = s := by
  obtain ⟨-, hready, hactive⟩ := h
  cases fins with
  | nil => cases hnext
  | cons fin fins =>
    unfold Sched.nextData at hnext
    rw [pick, hready, hactive] at hnext
    cases hnext
    rfl

theorem Undisturbed.account (h : Undisturbed P s s') (hx : P x) : account s' x = Sched.account s x := by
  unfold Sched.account
  rw [h.bytesSent x hx, h.deficit x hx]

/-- A call serves the stream that leads, or neither of the two. -/
theorem Lead.nextData (hM : 0 < M) (hmax : M ≤ 65535) (h : s.Inv M s.drrActive)
    (hest : s.established = true) (hAB : A ≠ B) (hlead : Lead A B s o) (hA : s.Sendable A) (hnext : s.nextData fins = some (r, s'))
    (hA' : s'.Sendable A) : (account s' A = account s A ∧ account s' B = account s B ∧ Lead A B s' o) ∨
      account s' A = account s A + (if o then 0 else M) ∧ account s' B = account s B ∧
        (Lead A B s' true ∨ Lead B A s' false) := by
  induction fins generalizing s with
  | nil => cases hnext
  | cons fin fins ih =>
    unfold Sched.nextData at hnext
    split at hnext
    next =>
      cases hnext
      exact .inl ⟨rfl, rfl, hlead⟩
    next i s1 hpick =>
      have hiB := hlead.pick_ne h hAB hpick
      by_cases hiA : i = A
      · subst hiA
        -- the leader can send, so the loop does not go past it
        obtain ⟨frame, s2, hserve⟩ := serve_of_sendable (pick_sendable hpick hA) s.drrActive.isNone fin
        rw [hserve] at hnext
        cases hnext
        exact .inr (hlead.turn hM hmax h hest hAB hpick hserve hA')
      · have hi : ¬(i = A ∨ i = B) := fun hc => hc.elim hiA hiB
        obtain ⟨hpicked, hactive⟩ := pick_untouched (P := fun x => x = A ∨ x = B) hi hpick
        obtain ⟨hinv, hest1, hfresh, hheld⟩ := pick_inv h hpick
        split at hnext
        next frame s2 hserve =>
          cases hnext
          rcases (serve_untouched hi hactive).1 frame hserve with hblank | hserved
          · exact absurd hA' (not_sendable_of_blank (hblank.1 A))
          · have hs := (hpicked.trans hserved).undisturbed
            exact .inl ⟨hs.account (.inl rfl), hs.account (.inr rfl), hlead.undisturbed hs⟩
        next s2 hserve =>
          rcases (serve_untouched hi hactive).2 hserve with hblank | hserved
          · rw [nextData_blank hblank hnext] at hA'
            exact absurd hA' (not_sendable_of_blank (hblank.1 A))
          · have hs := hpicked.trans hserved
            have hlead2 := hlead.undisturbed hs.undisturbed
            have hturned := serve_again_inv hM hinv (hest1.trans hest) hfresh hheld hserve
            have hest2 : s2.established = true := by
              refine hturned.established.resolve_right fun hc => ?_
              have hB := hlead2.mem
              rw [hc.1] at hB
              cases hB
            have hrest := ih hturned.inv hest2 hlead2 (hs.sendable (.inl rfl) hA) hnext
            rw [hs.undisturbed.account (.inl rfl), hs.undisturbed.account (.inr rfl)] at hrest
            exact hrest

/-! ### Runs -/

/-- The quanta `A` and `B` have been given since `s₀`, where the next turn was `A`'s and `c` says whether
it had its quantum already: `A` is one ahead from its turn to the turn of `B`. -/
def Balanced (M : Nat) (A B : Nat) (c : Bool) (s₀ s : Sched) : Prop :=
  (∃ o, Lead A B s o ∧
    account s A + account s₀ B + (if c then M else 0) =
      account s B + account s₀ A + if o then M else 0) ∨
  ∃ o, Lead B A s o ∧
    account s A + account s₀ B + (if c then M else 0) + (if o then M else 0) =
      account s B + account s₀ A + M

theorem Balanced.undisturbed (h : Balanced M A B c s₀ s)
    (hs : Undisturbed (fun x => x = A ∨ x = B) s s') : Balanced M A B c s₀ s' := by
  have hs' : Undisturbed (fun x => x = B ∨ x = A) s s' := by
    simpa only [or_comm] using hs
  unfold Balanced
  rw [hs.account (.inl rfl), hs.account (.inr rfl)]
  rcases h with ⟨o, hlead, hacc⟩ | ⟨o, hlead, hacc⟩
  · exact .inl ⟨o, hlead.undisturbed hs, hacc⟩
  · exact .inr ⟨o, hlead.undisturbed hs', hacc⟩

theorem Balanced.nextData (hM : 0 < M) (hmax : M ≤ 65535)
    (h : s.Inv M s.drrActive) (hest : s.established = true) (hAB : A ≠ B) (hbal : Balanced M A B c s₀ s)
    (hA : s.Sendable A) (hB : s.Sendable B)
    (hnext : s.nextData fins = some (r, s')) (hA' : s'.Sendable A) (hB' : s'.Sendable B) :
    Balanced M A B c s₀ s' := by
  rcases hbal with ⟨o, hlead, hacc⟩ | ⟨o, hlead, hacc⟩
  · rcases hlead.nextData hM hmax h hest hAB hA hnext hA' with ⟨ha, hb, hl⟩ | ⟨ha, hb, hl⟩
    · exact .inl ⟨o, hl, by rw [ha, hb]; exact hacc⟩
    · have hnow : account s' A + account s₀ B + (if c then M else 0) =
          account s' B + account s₀ A + M := by
        rw [ha, hb]
        cases o <;> simp at hacc ⊢ <;> omega
      rcases hl with hl | hl
      · exact .inl ⟨true, hl, hnow⟩
      · exact .inr ⟨false, hl, hnow⟩
  · rcases hlead.nextData hM hmax h hest hAB.symm hB hnext hB' with ⟨hb, ha, hl⟩ | ⟨hb, ha, hl⟩
    · exact .inr ⟨o, hl, by rw [ha, hb]; exact hacc⟩
    · have hnow : account s' A + account s₀ B + (if c then M else 0) =
          account s' B + account s₀ A := by
        rw [ha, hb]
        cases o <;> simp at hacc ⊢ <;> omega
      rcases hl with hl | hl
      · refine .inr ⟨true, hl, ?_⟩
        rw [hnow]
        rfl
      · exact .inl ⟨false, hl, hnow⟩

def Backlogged (A B : Nat) (s : Sched) (e : SchedEvent) : Prop :=
  (s.Sendable A ∧ s.Sendable B) ∧ (s.step e).Sendable A ∧ (s.step e).Sendable B

instance (A B : Nat) (s : Sched) (e : SchedEvent) : Decidable (Backlogged A B s e) :=
  inferInstanceAs (Decidable (_ ∧ _))

theorem Balanced.step (hM : 0 < M) (hmax : M ≤ 65535)
    (h : s.Inv M s.drrActive) (hAB : A ≠ B) (hbal : Balanced M A B c s₀ s)
    (he : Backlogged A B s e) : Balanced M A B c s₀ (s.step e) := by
  obtain ⟨⟨hA, hB⟩, hA', hB'⟩ := he
  cases e with
  | next fins =>
    revert hA' hB'
    unfold Sched.step
    dsimp only
    split
    next hest =>
      split
      next r s' hnext =>
        intro hA' hB'
        exact hbal.nextData hM hmax h hest hAB hA hB hnext hA' hB'
      next => exact fun _ _ => hbal
    · exact fun _ _ => hbal
  | act a =>
    refine hbal.undisturbed (act_undisturbed ?_ ?_)
    · rintro x (rfl | rfl)
      exacts [hA, hB]
    · rintro x (rfl | rfl)
      exacts [hA', hB']

theorem pair_sublist {l : List Nat} (hA : A ∈ l) (hB : B ∈ l) (hAB : A ≠ B) :
    [A, B].Sublist l ∨ [B, A].Sublist l := by
  induction l with
  | nil => cases hA
  | cons x l ih =>
    rcases List.mem_cons.1 hA with rfl | hA'
    · have hB' := (List.mem_cons.1 hB).resolve_left hAB.symm
      exact .inl ((List.singleton_sublist.2 hB').cons_cons _)
    · rcases List.mem_cons.1 hB with rfl | hB'
      · exact .inr ((List.singleton_sublist.2 hA').cons_cons _)
      · exact (ih hA' hB').imp (·.cons x) (·.cons x)

theorem lead_of_active (hA : s.Sendable A) (hactive : s.drrActive = some A) (hB : B ∈ s.ready) :
    ∃ o, Lead A B s o := by
  obtain ⟨payload, rest, hqueue, -⟩ := hA.dequeue
  have hhead : (s.streams A).sendQueue.head? = some payload := by rw [hqueue]; rfl
  rcases Nat.lt_or_ge (s.streams A).deficit payload with hlt | hge
  · exact ⟨_, .short payload hactive hB hhead hlt⟩
  · exact ⟨_, .covered payload hactive hB hhead hge⟩

/-- Of two streams that are ready, one leads. -/
theorem lead_of_ready (hAB : A ≠ B) (hA : s.Sendable A) (hB : s.Sendable B) (hAr : s.Ready A)
    (hBr : s.Ready B) : (∃ o, Lead A B s o) ∨ ∃ o, Lead B A s o := by
  rcases hAr with hAr | hAr <;> rcases hBr with hBr | hBr
  · exact (pair_sublist hAr hBr hAB).imp (⟨_, .queued ·⟩) (⟨_, .queued ·⟩)
  · exact .inr (lead_of_active hB hBr hAr)
  · exact .inl (lead_of_active hA hAr hBr)
  · exact absurd (Option.some.inj (hAr.symm.trans hBr)) hAB

theorem Lead.deficits (h : s.Inv M s.drrActive) (hA : s.Sendable A) (hB : s.Sendable B) (hlead : Lead A B s o) :
    (s.streams B).deficit < M ∧ (s.streams A).deficit < M + if o then M else 0 := by
  refine ⟨(h.stream B).idle (h.ready_off hlead.mem) hB.opened.2.2, ?_⟩
  cases hlead with
  | queued hsub => exact (h.stream A).idle (h.ready_off (hsub.subset (by simp))) hA.opened.2.2
  | short payload _ _ hhead hlt =>
    have := ((h.stream A).frames payload (List.mem_of_head? hhead)).2
    exact Nat.lt_of_lt_of_le hlt this
  | covered payload =>
    have := (h.stream A).below
    simp only [if_true]
    omega

def sentSince (s₀ s : Sched) (x : Nat) : Int := (s.streams x).bytesSent - (s₀.streams x).bytesSent

theorem Balanced.sentSince_lt (h₀ : s₀.Inv M s₀.drrActive)
    (h : s.Inv M s.drrActive) (hA₀ : s₀.Sendable A) (hB₀ : s₀.Sendable B) (hA : s.Sendable A)
    (hB : s.Sendable B) (hlead : Lead A B s₀ c) (hbal : Balanced M A B c s₀ s) :
    sentSince s₀ s A < sentSince s₀ s B + 3 * M ∧ sentSince s₀ s B < sentSince s₀ s A + 3 * M := by
  have hd₀ := hlead.deficits h₀ hA₀ hB₀
  unfold sentSince
  rcases hbal with ⟨o, hl, hacc⟩ | ⟨o, hl, hacc⟩
  · have hd := hl.deficits h hA hB
    unfold account at hacc
    cases c <;> cases o <;> simp at hd₀ hd hacc <;> constructor <;> omega
  · have hd := hl.deficits h hB hA
    unfold account at hacc
    cases c <;> cases o <;> simp at hd₀ hd hacc <;> constructor <;> omega

theorem Lead.sentSince_lt (hM : 0 < M) (hmax : M ≤ 65535) (h : s.Inv M s.drrActive)
    (hAB : A ≠ B) (hlead : Lead A B s c) (hA : s.Sendable A) (hB : s.Sendable B) {es : List SchedEvent}
    (hrun : Along Sched.step (Backlogged A B) s es) :
    sentSince s (s.run es) A < sentSince s (s.run es) B + 3 * M ∧
      sentSince s (s.run es) B < sentSince s (s.run es) A + 3 * M := by
  have hstart : Balanced M A B c s s := .inl ⟨c, hlead, by omega⟩
  obtain ⟨hinv, hbal, hA', hB'⟩ := runFrom_invariant (s := s)
    (fun t => t.Inv M t.drrActive ∧ Balanced M A B c s t ∧ t.Sendable A ∧ t.Sendable B)
    (fun t e ht he => ⟨step_inv hM hmax ht.1 e, ht.2.1.step hM hmax ht.1 hAB he, he.2⟩)
    ⟨h, hstart, hA, hB⟩ hrun
  exact hbal.sentSince_lt h hinv hA hB hA' hB' hlead

theorem markFinSent_shrinks (hopen : (s.streams i).state.Opened) (hactive : s.drrActive = none)
    (fin : FinEffect) : (s.markFinSent i fin).drrActive = none ∧
      (s.markFinSent i fin).ready.length ≤ s.ready.length := by
  unfold markFinSent
  cases fin with
  | none => exact ⟨hactive, Nat.le_refl _⟩
  | halfClosed =>
    dsimp only
    split <;> exact ⟨hactive, Nat.le_refl _⟩
  | closed =>
    dsimp only
    rw [markClosed_of_opened hopen.1, hactive]
    exact ⟨rfl, Nat.le_refl _⟩
  | drained => exact ⟨rfl, Nat.zero_le _⟩

theorem lpEnqueue_ready : (s.lpEnqueue i).ready = s.ready := by
  unfold Sched.lpEnqueue
  split
  · rfl
  split
  · rfl
  split <;> rfl

theorem serve_again_shrinks (h : s.serve i fresh fin = .again s') :
    s'.drrActive = none ∧ s'.ready.length ≤ s.ready.length := by
  have hlp : ({ s with drrActive := none }.lpEnqueue i).drrActive = none ∧
      ({ s with drrActive := none }.lpEnqueue i).ready.length ≤ s.ready.length := by
    rw [lpEnqueue_drrActive, lpEnqueue_ready]
    exact ⟨rfl, Nat.le_refl _⟩
  by_cases hopen : (s.streams i).state.Opened
  · rw [serve_of_opened hopen] at h
    split at h
    · cases h
    next t hdeq =>
      cases h
      obtain ⟨b, rfl⟩ := SchedStream.dequeueSend_none hdeq
      exact markFinSent_shrinks (by simpa [clearDeficit] using hopen) rfl fin
  · unfold serve at h
    split at h
    · cases h
      dsimp only
      split
      · exact ⟨rfl, Nat.le_refl _⟩
      · exact hlp
    · cases h
      exact hlp
    · cases h
      exact ⟨rfl, Nat.le_refl _⟩
    · exact absurd ⟨‹_›, ‹_›, ‹_›⟩ hopen

/-- `mux_sched_next_data` returns: one turn for the active stream, one for each stream of the FIFO, and
one that finds it empty. -/
theorem nextData_returns (fins : List FinEffect)
    (h : s.ready.length + (if s.drrActive.isSome then 1 else 0) < fins.length) :
    (s.nextData fins).isSome = true := by
  induction fins generalizing s with
  | nil => cases h
  | cons fin fins ih =>
    unfold Sched.nextData
    split
    next => rfl
    next i s1 hpick =>
      have hless : s1.ready.length < s.ready.length + if s.drrActive.isSome then 1 else 0 := by
        unfold pick at hpick
        split at hpick
        next hactive =>
          cases hpick
          simp [hactive]
        next => cases hpick
        next hready =>
          cases hpick
          rw [hready, List.length_cons]
          exact Nat.lt_of_lt_of_le (Nat.lt_succ_self _) (Nat.le_add_right _ _)
      split
      next => rfl
      next s2 hserve =>
        obtain ⟨hactive, hready⟩ := serve_again_shrinks hserve
        refine ih ?_
        rw [hactive]
        rw [List.length_cons] at h
        simp only [Option.isSome_none, Bool.false_eq_true, if_false]
        omega

theorem Backlogged.symm (h : Backlogged A B s e) : Backlogged B A s e :=
  ⟨h.1.symm, h.2.symm⟩

/-- Deficit round robin over a session with quantum `M`. In every state that is reached a deficit is below
two quanta, and a call charges its frame to a deficit that covers it. Over every run in which two ready
streams always have a frame to send, what is sent for the one and for the other differs by less than
three quanta. -/
theorem drr_fairness (M : Nat) (hM : 0 < M) (hmax : M ≤ 65535) (nodelay : Bool) (pre : List SchedEvent) :
    (∀ x, (((new M nodelay).run pre).streams x).deficit < 2 * M) ∧
    (∀ fins frame s', ((new M nodelay).run pre).established = true →
      ((new M nodelay).run pre).nextData fins = some (some frame, s') →
      frame.payload ≤ frame.budget ∧ frame.budget < 2 * M) ∧
    ∀ A B es, A ≠ B → ((new M nodelay).run pre).Ready A → ((new M nodelay).run pre).Ready B →
      Along step (Backlogged A B) ((new M nodelay).run pre) es →
      sentSince ((new M nodelay).run pre) (((new M nodelay).run pre).run es) A <
          sentSince ((new M nodelay).run pre) (((new M nodelay).run pre).run es) B + 3 * M ∧
        sentSince ((new M nodelay).run pre) (((new M nodelay).run pre).run es) B <
          sentSince ((new M nodelay).run pre) (((new M nodelay).run pre).run es) A + 3 * M := by
  have hinv := run_inv hM hmax (new_inv hM nodelay) pre
  generalize (new M nodelay).run pre = s at hinv ⊢
  refine ⟨fun x => (hinv.stream x).below, fun fins frame s' hest hnext => ?_, ?_⟩
  · exact (nextData_inv hM hmax ⟨hinv, .inl hest⟩ hnext).2 frame rfl
  · intro A B es hAB hAr hBr hrun
    cases es with
    | nil =>
      simp only [run, runFrom_nil, sentSince]
      omega
    | cons e es =>
      obtain ⟨hA, hB⟩ := hrun.1.1
      rcases lead_of_ready hAB hA hB hAr hBr with ⟨c, hlead⟩ | ⟨c, hlead⟩
      · exact hlead.sentSince_lt hM hmax hinv hAB hA hB hrun
      · exact (hlead.sentSince_lt hM hmax hinv hAB.symm hB hA (hrun.imp fun _ _ h => h.symm)).symm

def twoSenders : List SchedEvent :=
  [.act (.sessionState true), .act (.opened 1 64 false), .act (.advanced 1 .established),
    .act (.opened 3 64 false), .act (.advanced 3 .established)] ++
  (List.replicate 4 [.act (.queueSend 1 3), .act (.queueSend 3 3)]).flatten ++
  [.act (.wake 1), .act (.wake 3)]

/-- Five calls of the scheduler. -/
def fiveCalls : List SchedEvent := List.replicate 5 (.next [.none])

theorem drr_fairness_twoSenders :
    Along step (Backlogged 1 3) ((new 4 true).run twoSenders) fiveCalls ∧
      sentSince ((new 4 true).run twoSenders) (((new 4 true).run twoSenders).run fiveCalls) 1 <
        sentSince ((new 4 true).run twoSenders) (((new 4 true).run twoSenders).run fiveCalls) 3 + 3 * 4 := by
  have hrun : Along step (Backlogged 1 3) ((new 4 true).run twoSenders) fiveCalls := by decide
  exact ⟨hrun, ((drr_fairness 4 (by decide) (by decide) true twoSenders).2.2 1 3 fiveCalls (by decide)
    (by decide) (by decide) hrun).1⟩

theorem nextData_returns_twoSenders :
    (((new 4 true).run twoSenders).nextData [.none, .none, .none]).isSome = true :=
  nextData_returns _ (by decide)

end Sched

end Multiplexd
