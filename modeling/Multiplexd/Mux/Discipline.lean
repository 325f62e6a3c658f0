import Multiplexd.Mux.RosterOps
import Multiplexd.Mux.Threads

/-!
# No stream is lost

A stream is on one queue, or spends its budget off both, or is on none; the delay list and the queues hold
streams of the table only; and a closed stream that is still in the table has something that will bring it
to its end: its tombstone timer, a queue, the budget, or an application that still holds it.
-/

namespace Multiplexd

open StreamLinks (Threads)

/-- A stream against the table, the budget (`active`) and what is being done to it (`exempt`). -/
structure MemberOk (t : Member) (inTable active exempt : Prop) : Prop where
  queued : t.schedQueue ≠ .none → inTable
  delayed : t.delayPending = true → inTable ∨ exempt
  spending : active → t.schedQueue = .none ∧ inTable
  tomb : t.tombstone = true → (inTable ∨ exempt) ∧ t.state = .closed
  orphan : t.orphaned = true → ¬inTable ∧ t.state = .closed
  alive : inTable ∨ t.orphaned = true → t.live = true
  kept : ¬exempt → inTable → t.state = .closed →
    t.tombstone = true ∨ t.schedQueue ≠ .none ∨ active ∨ t.appHeld = true

variable {t : Member} {inTable active exempt : Prop}

theorem MemberOk.pushed (h : MemberOk t inTable active exempt) (hin : inTable)
    (hactive : ¬active) {q : SchedQueue} (hq : q ≠ .none) : MemberOk { t with schedQueue := q } inTable active exempt :=
  ⟨fun _ => hin, h.delayed, fun ha => absurd ha hactive, h.tomb, h.orphan, h.alive, fun _ _ _ => .inr (.inl hq)⟩

/-- A stream that has left its queue. -/
theorem MemberOk.popped (h : MemberOk t inTable active exempt)
    (hexempt : exempt) : MemberOk { t with schedQueue := .none } inTable active exempt :=
  ⟨nofun, h.delayed, fun ha => ⟨rfl, (h.spending ha).2⟩, h.tomb, h.orphan, h.alive, fun hc => absurd hexempt hc⟩

theorem MemberOk.weaken {exempt' : Prop} (h : MemberOk t inTable active exempt)
    (himp : exempt → exempt') : MemberOk t inTable active exempt' where
  __ := h
  delayed hd := (h.delayed hd).imp_right himp
  tomb ht := ⟨(h.tomb ht).1.imp_right himp, (h.tomb ht).2⟩
  kept hexempt := h.kept fun he => hexempt (himp he)

structure Tagged (members : StreamAddr → Member) (ready lp ds os : List StreamAddr) : Prop where
  inReady : ∀ i, i ∈ ready ↔ (members i).schedQueue = .drr
  inLp : ∀ i, i ∈ lp ↔ (members i).schedQueue = .lp
  inDelay : ∀ i, i ∈ ds ↔ (members i).delayPending = true
  inOrphans : ∀ i, i ∈ os ↔ (members i).orphaned = true

structure SoundIn (links : StreamLinks) (members : StreamAddr → Member) (table : List StreamAddr)
    (active exempt : Option StreamAddr) : Prop where
  lists : ∃ ready lp ds os, links.Threads ready lp ds os ∧ Tagged members ready lp ds os
  member : ∀ i, MemberOk (members i) (i ∈ table) (active = some i) (exempt = some i)
  nodup : table.Nodup
  ids : ∀ i ∈ table, ∀ j ∈ table, (members i).id = (members j).id → i = j

section

variable {members : StreamAddr → Member} {ready lp ds os ready' lp' ds' os' table : List StreamAddr}
  {links links' : StreamLinks} {active exempt : Option StreamAddr} {i : StreamAddr} {t : Member}

/-- One stream changes its place. -/
theorem Tagged.update (h : Tagged members ready lp ds os) (hready : ∀ j, j ≠ i → (j ∈ ready' ↔ j ∈ ready))
    (hlp : ∀ j, j ≠ i → (j ∈ lp' ↔ j ∈ lp)) (hds : ∀ j, j ≠ i → (j ∈ ds' ↔ j ∈ ds))
    (hos : ∀ j, j ≠ i → (j ∈ os' ↔ j ∈ os)) (hi : (i ∈ ready' ↔ t.schedQueue = .drr) ∧ (i ∈ lp' ↔ t.schedQueue = .lp)
      ∧ (i ∈ ds' ↔ t.delayPending = true) ∧ (i ∈ os' ↔ t.orphaned = true)) :
    Tagged (Function.update members i t) ready' lp' ds' os' := by
  refine ⟨fun j => ?_, fun j => ?_, fun j => ?_, fun j => ?_⟩
  all_goals
    by_cases hj : j = i
    · subst hj
      rw [Function.update_self]
      first | exact hi.1 | exact hi.2.1 | exact hi.2.2.1 | exact hi.2.2.2
    · rw [Function.update_of_ne hj]
      first
        | exact (hready j hj).trans (h.inReady j)
        | exact (hlp j hj).trans (h.inLp j)
        | exact (hds j hj).trans (h.inDelay j)
        | exact (hos j hj).trans (h.inOrphans j)

/-- One stream is written, and it may change its place. -/
theorem SoundIn.update (h : SoundIn links members table active exempt)
    (hlists : ∃ ready lp ds os, links'.Threads ready lp ds os ∧ Tagged (Function.update members i t) ready lp ds os)
    (hok : MemberOk t (i ∈ table) (active = some i) (exempt = some i)) (hid : i ∈ table → t.id = (members i).id) :
    SoundIn links' (Function.update members i t) table active exempt := by
  have hids : ∀ j ∈ table, (Function.update members i t j).id = (members j).id := by
    intro j hin
    by_cases hj : j = i
    · subst hj
      rw [Function.update_self, hid hin]
    · rw [Function.update_of_ne hj]
  refine ⟨hlists, fun j => ?_, h.nodup, fun j hj k hk heq => h.ids j hj k hk ?_⟩
  · by_cases hj : j = i
    · subst hj
      rw [Function.update_self]
      exact hok
    · rw [Function.update_of_ne hj]
      exact h.member j
  · rwa [hids j hj, hids k hk] at heq

end

namespace Roster

variable {m m' : Roster} {exempt : Option StreamAddr} {i : StreamAddr}

/-- The invariant of the lists and the streams. -/
def Sound (m : Roster) (exempt : Option StreamAddr) : Prop := SoundIn m.links m.members m.table m.drrActive exempt

theorem new_sound : new.Sound none := by
  refine ⟨⟨[], [], [], [], StreamLinks.threads_empty, ?_⟩, fun i => ?_, List.nodup_nil, nofun⟩
  · refine ⟨?_, ?_, ?_, ?_⟩ <;> intro i <;> simp [new]
  · refine ⟨?_, ?_, ?_, ?_, ?_, ?_, ?_⟩ <;> simp [new]

/-- The fields that the lists go by are the same. -/
def SamePlace (t t' : Member) : Prop :=
  t' = { t' with schedQueue := t.schedQueue, delayPending := t.delayPending, orphaned := t.orphaned, id := t.id }

variable {f : Member → Member} {st : StreamState}

/-- A stream is written and stays where it is. -/
theorem Sound.edit (h : m.Sound exempt) (hplace : SamePlace (m.members i) (f (m.members i)))
    (hok : MemberOk (f (m.members i)) (i ∈ m.table) (m.drrActive = some i) (exempt = some i)) :
    (m.edit i f).Sound exempt := by
  obtain ⟨ready, lp, ds, os, hthreads, htags⟩ := h.lists
  refine SoundIn.update h ⟨ready, lp, ds, os, hthreads, ?_⟩ hok fun _ => (congrArg Member.id hplace :)
  refine htags.update (fun _ _ => Iff.rfl) (fun _ _ => Iff.rfl) (fun _ _ => Iff.rfl) (fun _ _ => Iff.rfl) ?_
  rw [hplace]
  exact ⟨htags.inReady i, htags.inLp i, htags.inDelay i, htags.inOrphans i⟩

/-- Something is being done to a stream. -/
theorem Sound.exempted (h : m.Sound none) (i : StreamAddr) : m.Sound (some i) :=
  { h with member := fun j => (h.member j).weaken nofun }

/-- What was being done to a stream of the table is finished. -/
theorem Sound.settled (h : m.Sound (some i)) (hin : i ∈ m.table)
    (hkept : (m.members i).state = .closed → (m.members i).tombstone = true ∨
      (m.members i).schedQueue ≠ .none ∨ m.drrActive = some i ∨ (m.members i).appHeld = true) : m.Sound none := by
  refine { h with member := fun j => ?_ }
  by_cases hj : i = j
  · subst hj
    have hi := h.member i
    exact
      { hi with
        delayed := fun _ => .inl hin
        tomb := fun ht => ⟨.inl hin, (hi.tomb ht).2⟩
        kept := fun _ _ => hkept }
  · exact (h.member j).weaken fun heq => absurd (Option.some.inj heq) hj

/-! ### The queues -/

theorem Sound.enqueue (h : m.Sound exempt) (hin : i ∈ m.table) : (m.enqueue i).Sound exempt := by
  unfold Roster.enqueue
  split
  next hoff =>
    obtain ⟨ready, lp, ds, os, hthreads, htags⟩ := h.lists
    have hready : i ∉ ready := by rw [htags.inReady, hoff.1]; nofun
    have hlp : i ∉ lp := by rw [htags.inLp, hoff.1]; nofun
    refine SoundIn.update h ⟨ready ++ [i], lp, ds, os, hthreads.pushSched hready hlp, ?_⟩
      ((h.member i).pushed hin hoff.2.1 (by nofun)) fun _ => rfl
    refine htags.update (fun j hj => by simp [hj]) (fun _ _ => Iff.rfl) (fun _ _ => Iff.rfl) (fun _ _ => Iff.rfl) ?_
    exact ⟨by simp, by simp [hlp], htags.inDelay i, htags.inOrphans i⟩
  · exact h

theorem Sound.lpEnqueue (h : m.Sound exempt) (hin : i ∈ m.table) : (m.lpEnqueue i).Sound exempt := by
  unfold Roster.lpEnqueue
  split
  · exact h
  next hout =>
  split
  · exact h
  split
  next hoff =>
    obtain ⟨ready, lp, ds, os, hthreads, htags⟩ := h.lists
    have hready : i ∉ ready := by rw [htags.inReady, hoff]; nofun
    have hlp : i ∉ lp := by rw [htags.inLp, hoff]; nofun
    refine SoundIn.update h ⟨ready, lp ++ [i], ds, os, hthreads.pushLp hready hlp, ?_⟩
      ((h.member i).pushed hin (fun ha => hout (.inr ha)) (by nofun)) fun _ => rfl
    refine htags.update (fun _ _ => Iff.rfl) (fun j hj => by simp [hj]) (fun _ _ => Iff.rfl) (fun _ _ => Iff.rfl) ?_
    exact ⟨by simp [hready], by simp, htags.inDelay i, htags.inOrphans i⟩
  · exact h

theorem Sound.wake (h : m.Sound exempt) (hin : i ∈ m.table) : (m.wake i).Sound exempt := by
  unfold Roster.wake
  split
  · exact h.enqueue hin
  split
  · exact h.lpEnqueue hin
  · exact h.enqueue hin

theorem enqueue_queued (hactive : m.drrActive ≠ some i) (htomb : (m.members i).tombstone = false) :
    ((m.enqueue i).members i).schedQueue ≠ .none := by
  unfold Roster.enqueue
  split
  · simp [edit]
  next hoff => exact fun hnone => hoff ⟨hnone, hactive, htomb⟩

theorem lpEnqueue_queued (hactive : m.drrActive ≠ some i) (htomb : (m.members i).tombstone = false) :
    ((m.lpEnqueue i).members i).schedQueue ≠ .none := by
  unfold Roster.lpEnqueue
  split
  next hout =>
    rcases hout with hdrr | ha
    · rw [hdrr]
      nofun
    · exact absurd ha hactive
  split
  next ht =>
    rw [htomb] at ht
    cases ht
  split
  · simp [edit]
  · assumption

theorem wake_queued (hactive : m.drrActive ≠ some i) (htomb : (m.members i).tombstone = false) :
    ((m.wake i).members i).schedQueue ≠ .none := by
  unfold Roster.wake
  split
  · exact enqueue_queued hactive htomb
  split
  · exact lpEnqueue_queued hactive htomb
  · exact enqueue_queued hactive htomb

/-- A stream that is woken is not forgotten. -/
theorem Sound.woken (h : m.Sound (some i)) (hin : i ∈ m.table) : (m.wake i).Sound none := by
  have hwake := h.wake hin
  refine hwake.settled ((wake_level m i).table ▸ hin) fun _ => ?_
  by_cases htomb : (m.members i).tombstone = true
  · left
    rw [(wake_level m i).tombstone]
    exact htomb
  · by_cases hactive : m.drrActive = some i
    · exact .inr (.inr (.inl ((wake_level m i).drrActive.trans hactive)))
    · exact .inr (.inl (wake_queued hactive (Bool.eq_false_iff.mpr htomb)))

theorem Sound.dequeue (h : m.Sound none) (hhead : m.links.sched.head = some i) :
    (m.dequeue i).Sound (some i) ∧ i ∈ m.table ∧ m.drrActive ≠ some i := by
  obtain ⟨ready, lp, ds, os, hthreads, htags⟩ := h.lists
  obtain ⟨rest, rfl⟩ : ∃ rest, ready = i :: rest := by
    have hready := hthreads.spansReady.head
    rw [hhead] at hready
    cases ready with
    | nil => cases hready
    | cons j rest => exact ⟨rest, by cases hready; rfl⟩
  have hdrr : (m.members i).schedQueue = .drr := (htags.inReady i).mp (by simp)
  have hmember := h.member i
  have hnodup := List.nodup_cons.mp hthreads.spansReady.nodup
  refine ⟨?_, hmember.queued (by rw [hdrr]; nofun), fun ha => ?_⟩
  · refine SoundIn.update (h.exempted i) ⟨rest, lp, ds, os, hthreads.popSched, ?_⟩
      (((h.exempted i).member i).popped rfl) fun _ => rfl
    refine htags.update (fun j hj => by simp [hj]) (fun _ _ => Iff.rfl) (fun _ _ => Iff.rfl) (fun _ _ => Iff.rfl) ?_
    refine ⟨by simp [hnodup.1], ?_, htags.inDelay i, htags.inOrphans i⟩
    rw [htags.inLp, hdrr]
    simp
  · rw [(hmember.spending ha).1] at hdrr
    cases hdrr

theorem Sound.lpPop (h : m.Sound none) (hhead : m.links.lp.head = some i) :
    (m.lpPop i).Sound (some i) ∧ i ∈ m.table ∧ m.drrActive ≠ some i := by
  obtain ⟨ready, lp, ds, os, hthreads, htags⟩ := h.lists
  obtain ⟨rest, rfl⟩ : ∃ rest, lp = i :: rest := by
    have hlp := hthreads.spansLp.head
    rw [hhead] at hlp
    cases lp with
    | nil => cases hlp
    | cons j rest => exact ⟨rest, by cases hlp; rfl⟩
  have hlp : (m.members i).schedQueue = .lp := (htags.inLp i).mp (by simp)
  have hmember := h.member i
  have hnodup := List.nodup_cons.mp hthreads.spansLp.nodup
  refine ⟨?_, hmember.queued (by rw [hlp]; nofun), fun ha => ?_⟩
  · refine SoundIn.update (h.exempted i) ⟨ready, rest, ds, os, hthreads.popLp, ?_⟩
      (((h.exempted i).member i).popped rfl) fun _ => rfl
    refine htags.update (fun _ _ => Iff.rfl) (fun j hj => by simp [hj]) (fun _ _ => Iff.rfl) (fun _ _ => Iff.rfl) ?_
    refine ⟨?_, by simp [hnodup.1], htags.inDelay i, htags.inOrphans i⟩
    rw [htags.inReady, hlp]
    simp
  · rw [(hmember.spending ha).1] at hlp
    cases hlp

theorem Sound.delay (h : m.Sound exempt) (hin : i ∈ m.table) (ticks : Nat) : (m.delay i ticks).Sound exempt := by
  have hi := h.member i
  unfold Roster.delay
  split
  · split
    · exact h.edit rfl { hi with }
    · exact h
  next hoff =>
    obtain ⟨ready, lp, ds, os, hthreads, htags⟩ := h.lists
    have hds : i ∉ ds := by rwa [htags.inDelay]
    have hos : i ∉ os := fun hmem => (hi.orphan ((htags.inOrphans i).mp hmem)).1 hin
    refine SoundIn.update h ⟨ready, lp, i :: ds, os, hthreads.pushDelay hds hos, ?_⟩
      { hi with delayed := fun _ => .inl hin } fun _ => rfl
    refine htags.update (fun _ _ => Iff.rfl) (fun _ _ => Iff.rfl) (fun j hj => by simp [hj]) (fun _ _ => Iff.rfl) ?_
    exact ⟨htags.inReady i, htags.inLp i, by simp, htags.inOrphans i⟩

theorem Sound.delayRemove (h : m.Sound exempt) (hpending : (m.members i).delayPending = true) :
    (m.delayRemove i).Sound exempt := by
  have hi := h.member i
  obtain ⟨ready, lp, ds, os, hthreads, htags⟩ := h.lists
  obtain ⟨pre, post, rfl⟩ := List.append_of_mem ((htags.inDelay i).mpr hpending)
  have hnotin : i ∉ pre ++ post := (List.nodup_cons.mp (List.nodup_middle.mp hthreads.delayed.nodup)).1
  refine SoundIn.update h ⟨ready, lp, pre ++ post, os, hthreads.unlinkDelay, ?_⟩
    { hi with delayed := nofun } fun _ => rfl
  refine htags.update (fun _ _ => Iff.rfl) (fun _ _ => Iff.rfl) (fun j hj => by simp [hj]) (fun _ _ => Iff.rfl) ?_
  exact ⟨htags.inReady i, htags.inLp i, by simp [hnotin], htags.inOrphans i⟩

theorem Sound.undelay (h : m.Sound exempt) : (m.undelay i).Sound exempt := by
  unfold Roster.undelay
  split
  next hpending => exact h.delayRemove hpending
  · exact h

/-! ### The life of a stream -/

/-- Only the buffer and the ticks differ. -/
def SameRole (t t' : Member) : Prop :=
  t' = { t with
    delayTicks := t'.delayTicks, recvLen := t'.recvLen, bufferedBytes := t'.bufferedBytes, recvWindow := t'.recvWindow }

theorem Sound.touch (h : m.Sound exempt) (hsame : SameRole (m.members i) (f (m.members i))) :
    (m.edit i f).Sound exempt := by
  have hi := h.member i
  rw [SameRole] at hsame
  refine h.edit ?_ ?_ <;> rw [hsame]
  · rfl
  · exact { hi with }

theorem Sound.setActive (h : m.Sound (some i)) (hactive : m.drrActive = none ∨ m.drrActive = some i)
    {active : Option StreamAddr}
    (hnew : active = none ∨ active = some i ∧ (m.members i).schedQueue = .none ∧ i ∈ m.table) :
    (m.setActive active).Sound (some i) := by
  refine { h with member := fun j => ?_ }
  have hj := h.member j
  have hspending : active = some j → (m.members j).schedQueue = .none ∧ j ∈ m.table := by
    rcases hnew with rfl | ⟨rfl, hoff⟩
    · nofun
    · intro heq
      exact Option.some.inj heq ▸ hoff
  refine { hj with spending := hspending, kept := fun hexempt hin hclosed => ?_ }
  rcases hj.kept hexempt hin hclosed with ht | hq | ha | hheld
  · exact .inl ht
  · exact .inr (.inl hq)
  · rcases hactive with hnone | hsome
    · rw [hnone] at ha
      cases ha
    · rw [hsome] at ha
      exact absurd ha hexempt
  · exact .inr (.inr (.inr hheld))

theorem Sound.stop (h : m.Sound (some i)) : (m.stop i).Sound (some i) := by
  have hi := h.member i
  have hquiet : (m.edit i fun t => { t with tombstone := false }).Sound (some i) :=
    h.edit rfl
      { hi with tomb := nofun, kept := fun hc => absurd rfl hc }
  have hundelayed := hquiet.undelay (i := i)
  refine { hundelayed with member := fun j => ?_ }
  have hj := hundelayed.member j
  have hactive : (m.stop i).drrActive = some j → (m.drrActive = some j) := by
    rw [stop_drrActive]
    split
    · nofun
    · exact id
  rw [(undelay_level _ i).drrActive] at hj
  refine { hj with spending := fun ha => hj.spending (hactive ha), kept := fun hexempt hin hclosed => ?_ }
  rcases hj.kept hexempt hin hclosed with ht | hq | ha | hheld
  · exact .inl ht
  · exact .inr (.inl hq)
  · refine .inr (.inr (.inl ?_))
    rw [stop_drrActive, if_neg]
    · exact ha
    · intro heq
      exact hexempt (heq.symm.trans ha)
  · exact .inr (.inr (.inr hheld))

theorem Sound.setState (h : m.Sound (some i))
    (hst : st = .closed ∨ (m.members i).tombstone = false ∧ (m.members i).orphaned = false) :
    (m.setState i st).Sound (some i) := by
  have hi := h.member i
  rw [setState_eq]
  have hkeeps : (m.edit i fun t => { t with state := st, halfopenCounted := st.halfopen }).Sound (some i) := by
    refine h.edit rfl { hi with tomb := fun ht => ?_, orphan := fun ho => ?_, kept := fun hc => absurd rfl hc }
    · rcases hst with rfl | ⟨hfalse, -⟩
      · exact ⟨(hi.tomb ht).1, rfl⟩
      · exact absurd (hfalse.symm.trans ht) nofun
    · rcases hst with rfl | ⟨-, hfalse⟩
      · exact ⟨(hi.orphan ho).1, rfl⟩
      · exact absurd (hfalse.symm.trans ho) nofun
  exact hkeeps

theorem Sound.open_clean (h : m.Sound exempt) (hin : i ∈ m.table) (hopen : (m.members i).state ≠ .closed) :
    (m.members i).tombstone = false ∧ (m.members i).orphaned = false := by
  have hi := h.member i
  refine ⟨Bool.eq_false_iff.mpr fun ht => hopen (hi.tomb ht).2, Bool.eq_false_iff.mpr fun ho => (hi.orphan ho).1 hin⟩

/-- A stream of the table advances to a state other than CLOSED. -/
theorem Sound.advance (h : m.Sound none) (hin : i ∈ m.table) (hopen : (m.members i).state ≠ .closed)
    (hst : st ≠ .closed) : (m.setState i st).Sound none := by
  have hset : (m.setState i st).Sound (some i) := (h.exempted i).setState (.inr (h.open_clean hin hopen))
  refine hset.settled ((setState_only m i st).table ▸ hin) fun hclosed => ?_
  rw [setState_eq] at hclosed
  simp at hclosed
  exact absurd hclosed hst

theorem Sound.shut (h : m.Sound (some i)) : (m.shut i).Sound (some i) := by
  have hstop := h.stop
  have hi := hstop.member i
  have hedit : ((m.stop i).edit i Member.shut).Sound (some i) := by
    refine hstop.edit ?_ ⟨hi.queued, nofun, hi.spending, nofun, fun ho => ⟨(hi.orphan ho).1, rfl⟩, hi.alive,
      fun hc => absurd rfl hc⟩
    rw [stop_self]
    rfl
  have hshut : (m.stop i).edit i Member.shut = { m.shut i with
      numClosed := m.numClosed, numHalfopen := m.numHalfopen, recvBufferedBytes := m.recvBufferedBytes } := by
    rw [stop_eq]
    simp [Roster.edit, Roster.shut, Member.shut]
  rw [hshut] at hedit
  exact hedit

theorem Sound.markClosed (h : m.Sound (some i)) (hin : i ∈ m.table) : (m.markClosed i).Sound none := by
  have hshut := h.shut
  have hin' : i ∈ (m.shut i).table := hin
  rw [markClosed_eq]
  split
  · exact hshut.woken hin'
  · have hi := hshut.member i
    have htomb : ((m.shut i).edit i fun t => { t with tombstone := true }).Sound (some i) := by
      refine hshut.edit rfl { hi with tomb := fun _ => ⟨.inr rfl, ?_⟩, kept := fun hc => absurd rfl hc }
      rw [shut_self]
      rfl
    refine htomb.settled hin' fun _ => .inl ?_
    rw [edit_self]

theorem Sound.gone (h : m.Sound (some i)) (hout : i ∉ m.table) (hpending : (m.members i).delayPending = false)
    (htomb : (m.members i).tombstone = false) : m.Sound none := by
  refine { h with member := fun j => ?_ }
  by_cases hj : i = j
  · subst hj
    have hi := h.member i
    exact
      { hi with
        delayed := fun hd => absurd (hpending.symm.trans hd) nofun
        tomb := fun ht => absurd (htomb.symm.trans ht) nofun
        kept := fun _ hin => absurd hin hout }
  · exact (h.member j).weaken fun heq => absurd (Option.some.inj heq) hj

theorem Sound.free (h : m.Sound (some i)) (hout : i ∉ m.table) (horphan : (m.members i).orphaned = false) :
    (m.free i).Sound none := by
  have hstop := h.stop
  have htable : i ∉ (m.stop i).table := (stop_only m i).table ▸ hout
  have hi := hstop.member i
  have hqueue : ((m.stop i).members i).schedQueue = .none := by
    by_contra hq
    exact htable (hi.queued hq)
  have horphan' : ((m.stop i).members i).orphaned = false := by rw [stop_self, horphan]
  have hpending : ((m.stop i).members i).delayPending = false := by rw [stop_self]
  have hclear : ((m.stop i).edit i fun _ => {}).Sound (some i) := by
    obtain ⟨ready, lp, ds, os, hthreads, htags⟩ := hstop.lists
    refine SoundIn.update hstop ⟨ready, lp, ds, os, hthreads, ?_⟩ ?_ fun hin => absurd hin htable
    · refine htags.update (fun _ _ => Iff.rfl) (fun _ _ => Iff.rfl) (fun _ _ => Iff.rfl) (fun _ _ => Iff.rfl) ?_
      rw [htags.inReady, htags.inLp, htags.inDelay, htags.inOrphans, hqueue, horphan', hpending]
      exact ⟨Iff.rfl, Iff.rfl, Iff.rfl, Iff.rfl⟩
    · exact ⟨nofun, nofun, fun ha => absurd (hi.spending ha).2 htable, nofun, nofun,
        fun hin => hin.elim (absurd · htable) nofun, fun hc => absurd rfl hc⟩
  have hgone := hclear.gone htable (by rw [edit_self]) (by rw [edit_self])
  have hfree : (m.stop i).edit i (fun _ => {}) = { m.free i with
      numHalfopen := m.numHalfopen, recvBufferedBytes := m.recvBufferedBytes } := by
    rw [stop_eq, free_eq]
    simp [Roster.edit]
  rw [hfree] at hgone
  exact hgone

end Roster

end Multiplexd
