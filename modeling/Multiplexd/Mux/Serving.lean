import Multiplexd.Mux.Teardown

/-!
# Serving the streams

The loops of the scheduler: a turn for the stream that spends its budget or heads the ready queue, the walk
over the ready queue that sends control flags, and the walk over the delay list. Each keeps its place by a
pointer that it reads before it handles the stream, so the stream it points at must still be on the list
after the handling.

The callbacks are gone through once, for `Sound` together with any property that survives the few changes
they are made of (`Carried`).
-/

namespace Multiplexd

namespace Roster

variable {m m' : Roster} {i j : StreamAddr}

/-- What a property must survive to hold, beside `Sound`, whatever the application does. -/
structure Holding (P : Roster → Prop) : Prop where
  level {m m' : Roster} {i : StreamAddr} : Level i m m' → P m → P m'
  advances {m : Roster} {i : StreamAddr} {st : StreamState} : m.Sound none → i ∈ m.table →
    (m.members i).state ≠ .closed → st ≠ .init ∧ st ≠ .closed → P m → P (m.setState i st)
  closes {m : Roster} {i : StreamAddr} : m.Sound (some i) → i ∈ m.table → (m.members i).state ≠ .closed → P m →
    P (m.markClosed i)
  frees {m : Roster} {i : StreamAddr} : m.Sound none → (m.members i).orphaned = true → P m → P (m.freeOrphan i)
  adds {m : Roster} {i : StreamAddr} (id : UInt16) (active : Bool) (recvWindow : Nat) (grown : Bool) : m.Sound none →
    (m.members i).live = false → P m → P ((m.create i id active recvWindow).addStream i grown).2
  consumes {m : Roster} {i : StreamAddr} {n : Nat} : m.Sound none → i ∈ m.table → (m.members i).state ≠ .closed →
    n ≤ (m.members i).recvLen → P m → P (m.consumed i n)

/-- What a property must survive to hold, beside `Sound`, in every run. -/
structure Carried (P : Roster → Prop) : Prop extends Holding P where
  spends {m : Roster} (active : Option StreamAddr) : P m → P (m.setActive active)
  expires {m : Roster} {i : StreamAddr} : m.Sound none → i ∈ m.table → P m →
    P (m.edit i fun t => { t with tombstone := false })
  receives {m : Roster} {i : StreamAddr} (n : Nat) : m.Sound none → i ∈ m.table → (m.members i).state ≠ .closed → P m →
    P { m.edit i fun t => { t with recvLen := t.recvLen + n, bufferedBytes := t.bufferedBytes + n } with
      recvBufferedBytes := m.recvBufferedBytes.add n }
  flags {m : Roster} (established tableLost : Bool) : P m → P { m with established := established, tableLost := tableLost }
  falls {m : Roster} : m.table.Nodup → P m → P m.shutdown
  resets {m : Roster} (accepted : Bool) : m.table.Nodup → P m → P (m.reset accepted)
  removes {m : Roster} {i : StreamAddr} (drained : Bool) : m.Sound (some i) → i ∈ m.table →
    (m.members i).state = .closed → P m → P ((m.removeStream i drained).free i)

structure Kept (P : Roster → Prop) (m : Roster) : Prop where
  sound : m.Sound none
  kept : P m

theorem carried_trivial : Carried fun _ => True := by
  constructor
  · constructor <;> intros <;> trivial
  all_goals intros; trivial

variable {P Q : Roster → Prop}

theorem Holding.and (k : Holding P) (k' : Holding Q) : Holding fun m => P m ∧ Q m where
  level hl h := ⟨k.level hl h.1, k'.level hl h.2⟩
  advances hs hin hopen hst h := ⟨k.advances hs hin hopen hst h.1, k'.advances hs hin hopen hst h.2⟩
  closes hs hin hopen h := ⟨k.closes hs hin hopen h.1, k'.closes hs hin hopen h.2⟩
  frees hs ho h := ⟨k.frees hs ho h.1, k'.frees hs ho h.2⟩
  adds id active recvWindow grown hs hfree h :=
    ⟨k.adds id active recvWindow grown hs hfree h.1, k'.adds id active recvWindow grown hs hfree h.2⟩
  consumes hs hin hopen hn h := ⟨k.consumes hs hin hopen hn h.1, k'.consumes hs hin hopen hn h.2⟩

namespace Holding

variable (k : Holding P)
include k

theorem wake (h : m.Kept P) (hin : i ∈ m.table) : (m.wake i).Kept P :=
  ⟨h.sound.wake hin, k.level (wake_level m i) h.kept⟩

theorem delay (h : m.Kept P) (hin : i ∈ m.table) (ticks : Nat) : (m.delay i ticks).Kept P :=
  ⟨h.sound.delay hin ticks, k.level (delay_level m i ticks) h.kept⟩

/-- The guard of every caller. -/
theorem undelay (h : m.Kept P) : (m.undelay i).Kept P := ⟨h.sound.undelay, k.level (undelay_level m i) h.kept⟩

theorem advance {st : StreamState} (h : m.Kept P) (hin : i ∈ m.table) (hopen : (m.members i).state ≠ .closed)
    (hst : st ≠ .init ∧ st ≠ .closed) : (m.setState i st).Kept P :=
  ⟨h.sound.advance hin hopen hst.2, k.advances h.sound hin hopen hst h.kept⟩

theorem markClosed (h : m.Kept P) (hin : i ∈ m.table) (hopen : (m.members i).state ≠ .closed) :
    (m.markClosed i).Kept P :=
  ⟨(h.sound.exempted i).markClosed hin, k.closes (h.sound.exempted i) hin hopen h.kept⟩

theorem freeOrphans (fuel : Nat) (h : m.Kept P) : (freeOrphans fuel m).Kept P := by
  induction fuel generalizing m with
  | zero => exact h
  | succ fuel ih =>
    unfold Roster.freeOrphans
    split
    · exact h
    next i hhead =>
      obtain ⟨ready, lp, ds, os, hthreads, htags⟩ := h.sound.lists
      have horphan : (m.members i).orphaned = true := by
        refine (htags.inOrphans i).mp (List.mem_of_mem_head? ?_)
        rw [← hthreads.orphans.head, hhead]
        rfl
      exact ih ⟨h.sound.freeOrphan horphan, k.frees h.sound horphan h.kept⟩

end Holding

/-- What sending for a stream leaves of it while the session stays ESTABLISHED: it is not moved, and if it is
closed then its timer runs. -/
structure Sent (i : StreamAddr) (m m' : Roster) : Prop where
  only : Only i m m'
  queue : (m'.members i).schedQueue = (m.members i).schedQueue
  active : m'.drrActive = m.drrActive ∨ m'.drrActive = none ∧ m.drrActive = some i
  closed : (m'.members i).state = .closed → (m'.members i).tombstone = true

theorem Sent.refl (hopen : (m.members i).state ≠ .closed) : Sent i m m :=
  ⟨.refl i m, rfl, .inl rfl, fun hclosed => absurd hclosed hopen⟩

/-- No stream is moved. -/
theorem Sent.schedQueue (h : Sent i m m') (j : StreamAddr) : (m'.members j).schedQueue = (m.members j).schedQueue := by
  by_cases hj : j = i
  · subst hj
    exact h.queue
  · rw [h.only.members j hj]

theorem undelay_sent (hopen : (m.members i).state ≠ .closed) : Sent i m (m.undelay i) := by
  refine ⟨(undelay_level m i).toOnly, ?_, .inl (undelay_level m i).drrActive, fun hclosed => absurd ?_ hopen⟩
  · rw [undelay_self]
  · rwa [undelay_self] at hclosed

theorem delay_sent (hopen : (m.members i).state ≠ .closed) (ticks : Nat) : Sent i m (m.delay i ticks) := by
  have hlevel := delay_level m i ticks
  refine ⟨hlevel.toOnly, ?_, .inl hlevel.drrActive, fun hclosed => absurd (hlevel.state.symm.trans hclosed) hopen⟩
  unfold delay
  split
  · split
    · rw [edit_self]
    · rfl
  · simp [edit]

theorem setState_sent {st : StreamState} (hst : st ≠ .closed) : Sent i m (m.setState i st) := by
  refine ⟨setState_only m i st, ?_, .inl ?_, fun hclosed => absurd ?_ hst⟩
  all_goals rw [setState_eq] at *
  · simp [edit]
  · rfl
  · simpa [edit] using hclosed

theorem markClosed_sent (hinit : (m.members i).state ≠ .init) : Sent i m (m.markClosed i) := by
  refine ⟨markClosed_only m i, ?_, ?_, fun _ => ?_⟩
  · rw [markClosed_self m i hinit]
    rfl
  · rw [markClosed_drrActive]
    split
    next ha => exact .inr ⟨rfl, ha⟩
    · exact .inl rfl
  · rw [markClosed_self m i hinit]

theorem Sent.trans {m'' : Roster} (h : Sent i m m') (h' : Sent i m' m'') : Sent i m m'' := by
  refine ⟨h.only.trans h'.only, h'.queue.trans h.queue, ?_, h'.closed⟩
  rcases h.active with ha | ⟨hnone, ha⟩
  · rw [← ha]
    exact h'.active
  · rcases h'.active with ha' | ⟨-, ha'⟩
    · exact .inr ⟨ha'.trans hnone, ha⟩
    · rw [hnone] at ha'
      cases ha'

theorem setState_state (m : Roster) (i : StreamAddr) (st : StreamState) : ((m.setState i st).members i).state = st := by
  rw [setState_eq]
  simp

theorem markFinSent_sent (hopen : (m.members i).state ≠ .closed) (e : FinEffect) :
    (m.markFinSent i e).established = false ∨ Sent i m (m.markFinSent i e) := by
  have hclosing : ((m.setState i .closing).members i).state ≠ .init := by
    rw [setState_state]
    nofun
  unfold markFinSent
  split
  · exact .inr (.refl hopen)
  split
  · exact .inr (setState_sent (by nofun))
  · split
    · exact .inr ((setState_sent (by nofun)).trans (markClosed_sent hclosing))
    · exact .inl rfl
    · exact .inr (setState_sent (by nofun))
  · exact .inr (.refl hopen)

theorem Carried.markFinSent (k : Carried P) (h : m.Kept P) (hin : i ∈ m.table) (e : FinEffect) :
    (m.markFinSent i e).Kept P := by
  unfold Roster.markFinSent
  split
  · exact h
  split
  next hest => exact k.advance h hin (by rw [hest]; nofun) (by simp)
  next hwait =>
    have hset : (m.setState i .closing).Kept P := k.advance h hin (by rw [hwait]; nofun) (by simp)
    have hclosed : ((m.setState i .closing).markClosed i).Kept P := by
      refine k.markClosed hset ((setState_only m i .closing).table ▸ hin) ?_
      rw [setState_state]
      nofun
    dsimp only
    split
    · exact hclosed
    · exact ⟨hclosed.sound.shutdown, k.falls hclosed.sound.nodup hclosed.kept⟩
    · exact hset
  · exact h

theorem Carried.sendPush (k : Carried P) (h : m.Kept P) (hin : i ∈ m.table) (e : FinEffect) : (m.sendPush i e).Kept P :=
  k.markFinSent (k.undelay h) ((undelay_level m i).table ▸ hin) e

theorem sendPush_sent (hopen : (m.members i).state ≠ .closed) (e : FinEffect) :
    (m.sendPush i e).established = false ∨ Sent i m (m.sendPush i e) := by
  have hopen' : ((m.undelay i).members i).state ≠ .closed := by rwa [undelay_self]
  exact (markFinSent_sent hopen' e).imp_right (undelay_sent hopen).trans

theorem Carried.sendCtrlFlags (k : Carried P) (h : m.Kept P) (hin : i ∈ m.table) (e : CtrlEffect) :
    (m.sendCtrlFlags i e).Kept P := by
  cases e with
  | skip => exact h
  | retry => exact k.delay h hin 1
  | sent undelayed fin =>
    rw [Roster.sendCtrlFlags]
    split
    · exact k.sendPush h hin fin
    · exact k.markFinSent h hin fin

theorem sendCtrlFlags_sent (hopen : (m.members i).state ≠ .closed) (e : CtrlEffect) :
    (m.sendCtrlFlags i e).established = false ∨ Sent i m (m.sendCtrlFlags i e) := by
  cases e with
  | skip => exact .inr (.refl hopen)
  | retry => exact .inr (delay_sent hopen 1)
  | sent undelayed fin =>
    rw [Roster.sendCtrlFlags]
    split
    · exact sendPush_sent hopen fin
    · exact markFinSent_sent hopen fin

/-! ### A turn -/

/-- The stream that was picked for a turn. -/
structure Picked (P : Roster → Prop) (m : Roster) (i : StreamAddr) : Prop where
  sound : m.Sound (some i)
  table : i ∈ m.table
  active : m.drrActive = none ∨ m.drrActive = some i
  queue : (m.members i).schedQueue = .none
  kept : P m

/-- The stream of the turn gives up the budget. -/
theorem Picked.released (h : m.Picked P i) : (m.setActive none).Sound (some i) := h.sound.setActive h.active (.inl rfl)

theorem Picked.settled (h : m.Picked P i) (hclosed : (m.members i).state = .closed → (m.members i).tombstone = true) :
    m.Kept P :=
  ⟨h.sound.settled h.table fun hc => .inl (hclosed hc), h.kept⟩

theorem Sent.picked (hsent : Sent i m m') (h : m.Picked P i) (hkept : m'.Kept P) : m'.Picked P i := by
  refine ⟨hkept.sound.exempted i, hsent.only.table ▸ h.table, ?_, hsent.queue.trans h.queue, hkept.kept⟩
  rcases hsent.active with ha | ⟨ha, -⟩
  · rw [ha]
    exact h.active
  · exact .inl ha

theorem Kept.picked_active (h : m.Kept P) (hactive : m.drrActive = some i) : m.Picked P i :=
  ⟨h.sound.exempted i, ((h.sound.member i).spending hactive).2, .inr hactive,
    ((h.sound.member i).spending hactive).1, h.kept⟩

namespace Carried

variable (k : Carried P)
include k

theorem release (h : m.Picked P i) (hclosed : (m.members i).state = .closed → (m.members i).tombstone = true) :
    (m.setActive none).Kept P :=
  ⟨h.released.settled h.table fun hc => .inl (hclosed hc), k.spends none h.kept⟩

theorem drrContinue (h : m.Picked P i) (hclosed : (m.members i).state = .closed → (m.members i).tombstone = true)
    (c : Continue) : (m.drrContinue i c).Kept P ∧ (m.drrContinue i c).table = m.table := by
  cases c with
  | idle => exact ⟨k.release h hclosed, rfl⟩
  | keep =>
    have hset : (m.setActive (some i)).Sound (some i) := h.sound.setActive h.active (.inr ⟨rfl, h.queue, h.table⟩)
    exact ⟨⟨hset.settled h.table fun _ => .inr (.inr (.inl rfl)), k.spends (some i) h.kept⟩, rfl⟩
  | requeue =>
    have hlevel := wake_level (m.setActive none) i
    exact ⟨⟨h.released.woken h.table, k.level hlevel (k.spends none h.kept)⟩, hlevel.table⟩

theorem framed (h : m.Picked P i) (hopen : (m.members i).state ≠ .closed) (fin : FinEffect) (cont : Continue)
    (ctrl : CtrlEffect) (hest : (m.sendPush i fin).established = true) :
    (((m.sendPush i fin).drrContinue i cont).sendCtrlFlags i ctrl).Kept P := by
  have hpush : (m.sendPush i fin).Kept P := k.sendPush (h.settled fun hc => absurd hc hopen) h.table fin
  have hsent := (sendPush_sent hopen fin).resolve_left (by rw [hest]; nofun)
  have hpicked := hsent.picked h hpush
  obtain ⟨hcont, htable⟩ := k.drrContinue hpicked hsent.closed cont
  exact k.sendCtrlFlags hcont (htable ▸ hpicked.table) ctrl

theorem frameless (h : m.Picked P i) (hopen : (m.members i).state ≠ .closed) (hold : Bool) (ctrl : CtrlEffect) :
    (((if hold then m.delay i nagleTicks else m).setActive none).sendCtrlFlags i ctrl).Kept P := by
  have hkept : m.Kept P := h.settled fun hc => absurd hc hopen
  have hrelease : ∀ {m' : Roster}, Sent i m m' → m'.Kept P → ((m'.setActive none).sendCtrlFlags i ctrl).Kept P := by
    intro m' hsent hkept'
    have hpicked := hsent.picked h hkept'
    exact k.sendCtrlFlags (k.release hpicked hsent.closed) hpicked.table ctrl
  split
  · exact hrelease (delay_sent hopen nagleTicks) (k.delay hkept h.table nagleTicks)
  · exact hrelease (.refl hopen) hkept

theorem serve (h : m.Picked P i) (t : NextTurn) : (m.serve i t).2.Kept P := by
  have hqueued := k.level (lpEnqueue_level (m.setActive none) i) (k.spends none h.kept)
  unfold Roster.serve
  split
  next hclosed =>
    dsimp only
    split
    next htomb => exact k.release h fun _ => htomb
    next htomb =>
      refine ⟨(h.released.lpEnqueue h.table).settled ((lpEnqueue_level (m.setActive none) i).table ▸ h.table)
        fun _ => .inr (.inl ?_), hqueued⟩
      exact lpEnqueue_queued (by nofun) (Bool.eq_false_iff.mpr htomb)
  next hinit =>
    refine ⟨(k.release h fun hc => ?_).sound.lpEnqueue h.table, hqueued⟩
    exact absurd (hinit.symm.trans hc) nofun
  next hsyn => exact k.release h fun hc => absurd (hsyn.symm.trans hc) nofun
  next hclosed _ _ =>
    split
    next fin cont _ =>
      dsimp only
      split
      next hest => exact k.framed h hclosed fin cont t.ctrl hest
      · exact k.sendPush (h.settled fun hc => absurd hc hclosed) h.table fin
    · exact k.frameless h hclosed t.hold t.ctrl

theorem picked_head (h : m.Kept P) (hactive : m.drrActive = none) (hhead : m.links.sched.head = some i) :
    (m.dequeue i).Picked P i := by
  obtain ⟨hsound, hin, -⟩ := h.sound.dequeue hhead
  exact ⟨hsound, hin, .inl hactive, by simp [Roster.dequeue], k.level (dequeue_level m i) h.kept⟩

theorem nextData (h : m.Kept P) (ts : List NextTurn) : (nextData ts m).Kept P := by
  induction ts generalizing m with
  | nil => exact h
  | cons t ts ih =>
    unfold Roster.nextData
    split
    next i _ hactive =>
      have hserved := k.serve (h.picked_active hactive) t
      split
      · exact hserved
      · exact ih hserved
    next i hactive hhead =>
      have hserved := k.serve (k.picked_head h hactive hhead) t
      split
      · exact hserved
      · exact ih hserved
    · exact h

end Carried

theorem Sound.next_ready {exempt : Option StreamAddr} (h : m.Sound exempt) (hdrr : (m.members i).schedQueue = .drr)
    (hnext : m.links.next i = some j) : (m.members j).schedQueue = .drr := by
  obtain ⟨ready, lp, ds, os, hthreads, htags⟩ := h.lists
  obtain ⟨pre, post, rfl⟩ := List.append_of_mem ((htags.inReady i).mpr hdrr)
  rw [hthreads.spansReady.linked.head_eq] at hnext
  refine (htags.inReady j).mp ?_
  simp [List.mem_of_mem_head? hnext]

theorem Carried.flushWalk (k : Carried P) (h : m.Kept P) (es : List CtrlEffect) (p : Option StreamAddr)
    (hp : ∀ i, p = some i → (m.members i).schedQueue = .drr) : (flushWalk es p m).Kept P := by
  induction es generalizing m p with
  | nil =>
    unfold Roster.flushWalk
    exact h
  | cons e es ih =>
    cases p with
    | none =>
      unfold Roster.flushWalk
      exact h
    | some i =>
      have hdrr := hp i rfl
      have hin : i ∈ m.table := (h.sound.member i).queued (by rw [hdrr]; nofun)
      have hnext : ∀ j, m.links.next i = some j → (m.members j).schedQueue = .drr := fun j => h.sound.next_ready hdrr
      rw [Roster.flushWalk]
      by_cases hopen : (m.members i).state ≠ .closed
      · simp only [if_pos hopen]
        split
        next hest =>
          have hsent := (sendCtrlFlags_sent hopen e).resolve_left (by rw [hest]; nofun)
          exact ih (k.sendCtrlFlags h hin e) _ fun j hj => (hsent.schedQueue j).trans (hnext j hj)
        · exact k.sendCtrlFlags h hin e
      · simp only [if_neg hopen]
        split
        · exact ih h _ hnext
        · exact h

theorem Carried.flushCtrl (k : Carried P) (h : m.Kept P) (e : CtrlEffect) (es : List CtrlEffect) :
    (flushCtrl e es m).Kept P := by
  have hwalk : ∀ {m' : Roster}, m'.Kept P → (Roster.flushWalk es m'.links.sched.head m').Kept P := by
    intro m' h'
    refine k.flushWalk h' es _ fun i hhead => ?_
    obtain ⟨ready, lp, ds, os, hthreads, htags⟩ := h'.sound.lists
    rw [hthreads.spansReady.head] at hhead
    exact (htags.inReady i).mp (List.mem_of_mem_head? hhead)
  unfold Roster.flushCtrl
  dsimp only
  split
  next i hactive =>
    split
    · exact hwalk (k.sendCtrlFlags h ((h.sound.member i).spending hactive).2 e)
    · exact hwalk h
  · exact hwalk h

theorem Sound.next_delayed (h : m.Sound none) (hpending : (m.members i).delayPending = true)
    (hnext : m.links.delayNext i = some j) : j ≠ i ∧ (m.members j).delayPending = true := by
  obtain ⟨ready, lp, ds, os, hthreads, htags⟩ := h.lists
  obtain ⟨pre, post, rfl⟩ := List.append_of_mem ((htags.inDelay i).mpr hpending)
  have hnotin : i ∉ pre ++ post := (List.nodup_cons.mp (List.nodup_middle.mp hthreads.delayed.nodup)).1
  rw [hthreads.delayed.linked.head_eq] at hnext
  have hpost := List.mem_of_mem_head? hnext
  exact ⟨fun heq => hnotin (by simp [← heq, hpost]), (htags.inDelay j).mp (by simp [hpost])⟩

theorem Holding.coalesceWalk (k : Holding P) (h : m.Kept P) (fuel : Nat) (p : Option StreamAddr)
    (hp : ∀ i, p = some i → (m.members i).delayPending = true) : (coalesceWalk fuel p m).Kept P := by
  induction fuel generalizing m p with
  | zero =>
    unfold Roster.coalesceWalk
    exact h
  | succ fuel ih =>
    cases p with
    | none =>
      unfold Roster.coalesceWalk
      exact h
    | some i =>
      have hpending := hp i rfl
      have hin : i ∈ m.table := ((h.sound.member i).delayed hpending).resolve_right nofun
      have hnext {j : StreamAddr} (hj : m.links.delayNext i = some j) := h.sound.next_delayed hpending hj
      rw [Roster.coalesceWalk]
      split
      · have hticked : (m.edit i fun t => { t with delayTicks := t.delayTicks - 1 }).Kept P :=
          ⟨h.sound.touch rfl, k.level (.update rfl) h.kept⟩
        refine ih hticked _ fun j hj => ?_
        rw [edit_of_ne (hnext hj).1]
        exact (hnext hj).2
      · have hremoved : (m.delayRemove i).Kept P :=
          ⟨h.sound.delayRemove hpending, k.level (delayRemove_level m i) h.kept⟩
        refine ih (k.wake hremoved hin) _ fun j hj => ?_
        rw [(wake_level _ i).members j (hnext hj).1, (delayRemove_level m i).members j (hnext hj).1]
        exact (hnext hj).2

theorem Holding.coalesceCb (k : Holding P) (h : m.Kept P) : m.coalesceCb.Kept P := by
  refine k.coalesceWalk h _ _ fun i hhead => ?_
  obtain ⟨ready, lp, ds, os, hthreads, htags⟩ := h.sound.lists
  rw [hthreads.delayed.head] at hhead
  exact (htags.inDelay i).mp (List.mem_of_mem_head? hhead)

end Roster

end Multiplexd
