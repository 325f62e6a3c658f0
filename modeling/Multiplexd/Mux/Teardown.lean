import Multiplexd.Mux.Discipline
import Mathlib.Data.List.Perm.Subperm

/-!
# The end of a table of streams

When a session leaves ESTABLISHED every stream of the table is released at once, or handed to the application
as an orphan. The queues are dropped whole, so in between the tags of the streams that are still to be
handled name queues that are gone.
-/

namespace Multiplexd

namespace Roster

variable {m m' : Roster} {exempt : Option StreamAddr} {i j : StreamAddr} {rest : List StreamAddr}

def Member.orphan (t : Member) : Member :=
  { t with
    schedQueue := .none
    tombstone := false
    delayPending := false
    delayTicks := if t.delayPending then 0 else t.delayTicks
    recvLen := 0
    bufferedBytes := 0
    state := .closed
    halfopenCounted := t.halfopenCounted && decide (t.state = .closed)
    orphaned := true }

/-- `mux_stream_orphan`, put together. -/
theorem orphan_eq (m : Roster) (i : StreamAddr) :
    m.orphan i = { m with
      members := Function.update m.members i (Member.orphan (m.members i))
      links := { m.linksWithout i with next := Function.update (m.linksWithout i).next i none }
      drrActive := if m.drrActive = some i then none else m.drrActive
      numHalfopen := if (m.members i).state = .closed then m.numHalfopen
        else m.numHalfopen.follow (m.members i).halfopenCounted false
      recvBufferedBytes := m.recvBufferedBytes.sub (m.members i).recvLen } := by
  have hopen : StreamState.closed.halfopen = false := rfl
  unfold orphan
  rw [stop_eq]
  by_cases hclosed : (m.members i).state = .closed
  · simp [releaseBuffers, edit, Member.orphan, hclosed]
  · simp [releaseBuffers, edit, Member.orphan, hclosed, setState_eq, hopen]

/-- The walk over the delay list, when it is long enough. -/
theorem clearDelays_eq {fuel : Nat} {ds : List StreamAddr} (hlinked : Linked m.links.delayNext ds)
    (hfuel : ds.length ≤ fuel) :
    clearDelays fuel ds.head? m = { m with
      members := fun j => if j ∈ ds then { m.members j with delayPending := false } else m.members j } := by
  induction ds generalizing m fuel with
  | nil => simp [clearDelays]
  | cons i ds ih =>
    obtain ⟨hnext, hlinked⟩ := hlinked
    cases fuel with
    | zero => simp at hfuel
    | succ fuel =>
      have hrest := ih (m := m.edit i fun t => { t with delayPending := false }) hlinked (by simpa using hfuel)
      simp only [List.head?_cons, clearDelays]
      rw [hnext, hrest]
      simp only [Roster.edit, Roster.mk.injEq, true_and, and_true]
      funext j
      by_cases hj : j = i
      · subst hj
        simp
      · simp [hj]

/-! ### The table falls -/

/-- A stream while the table is being emptied; `waiting` says that it is still to be handled. -/
structure FallingOk (t : Member) (waiting exempt : Prop) : Prop where
  delay : t.delayPending = false
  unhandled : waiting → t.live = true ∧ t.orphaned = false
  queue : ¬waiting → t.schedQueue = .none
  tomb : ¬waiting → t.tombstone = true → exempt ∧ t.state = .closed
  orphan : t.orphaned = true → t.state = .closed ∧ t.live = true

def OrphansIn (links : StreamLinks) (members : StreamAddr → Member) : Prop :=
  ∃ os, Doubly links.delayPrev links.delayNext links.orphans os ∧ ∀ j, j ∈ os ↔ (members j).orphaned = true

structure Falling (m : Roster) (rest : List StreamAddr) (exempt : Option StreamAddr) : Prop where
  ends : m.links.sched = Ends.empty ∧ m.links.lp = Ends.empty ∧ m.links.delayHead = none
  orphans : OrphansIn m.links m.members
  active : m.drrActive = none
  nodup : rest.Nodup
  member : ∀ j, FallingOk (m.members j) (j ∈ rest) (exempt = some j)

theorem Falling.linksWithout (h : m.Falling rest exempt) (i : StreamAddr) : m.linksWithout i = m.links := by
  unfold Roster.linksWithout
  rw [(h.member i).delay]
  rfl

section

variable (h : m.Falling (i :: rest) exempt)
include h

/-- The first stream is handled. -/
theorem Falling.next {t : Member} (hmembers : m'.members = Function.update m.members i t)
    (hends : m'.links.sched = m.links.sched ∧ m'.links.lp = m.links.lp ∧ m'.links.delayHead = m.links.delayHead)
    (hactive : m'.drrActive = none) (horphans : OrphansIn m'.links m'.members)
    (hok : FallingOk t False (exempt = some i)) : m'.Falling rest exempt := by
  have hnodup := List.nodup_cons.mp h.nodup
  refine ⟨?_, horphans, hactive, hnodup.2, fun j => ?_⟩
  · rw [hends.1, hends.2.1, hends.2.2]
    exact h.ends
  · rw [hmembers]
    by_cases hj : j = i
    · subst hj
      rw [Function.update_self]
      exact ⟨hok.delay, fun hin => absurd hin hnodup.1, fun _ => hok.queue id, fun _ => hok.tomb id, hok.orphan⟩
    · rw [Function.update_of_ne hj]
      have hmem := h.member j
      rw [List.mem_cons, or_iff_right hj] at hmem
      exact hmem

theorem Falling.free : (m.free i).Falling rest exempt := by
  have hnot := ((h.member i).unhandled (by simp)).2
  rw [free_eq, h.linksWithout, h.active]
  refine h.next rfl ⟨rfl, rfl, rfl⟩ (by simp) ?_ ⟨rfl, nofun, fun _ => rfl, nofun, nofun⟩
  obtain ⟨os, hdoubly, hos⟩ := h.orphans
  refine ⟨os, hdoubly, fun j => ?_⟩
  by_cases hj : j = i
  · subst hj
    simp [hos, hnot]
  · simp [hos, hj]

theorem Falling.orphaned :
    { m.orphan i with links := (m.orphan i).links.pushOrphan i }.Falling rest exempt := by
  have hi := (h.member i).unhandled (by simp)
  rw [orphan_eq, h.linksWithout, h.active]
  refine h.next rfl ⟨rfl, rfl, rfl⟩ (by simp) ?_ ⟨rfl, nofun, fun _ => rfl, nofun, fun _ => ⟨rfl, hi.1⟩⟩
  obtain ⟨os, hdoubly, hos⟩ := h.orphans
  have hnew : i ∉ os := by rw [hos, hi.2]; nofun
  refine ⟨i :: os, hdoubly.push hnew, fun j => ?_⟩
  by_cases hj : j = i
  · subst hj
    simp [Member.orphan]
  · simp [hos, hj]

theorem Falling.failAndFree : (m.failAndFree i).Falling rest exempt := by
  unfold Roster.failAndFree
  split
  · exact h.orphaned
  · exact h.free

end

theorem Falling.foldl (h : m.Falling rest exempt) : (rest.foldl Roster.failAndFree m).Falling [] exempt := by
  induction rest generalizing m with
  | nil => exact h
  | cons i rest ih => exact ih h.failAndFree

/-- The table is empty. -/
theorem Falling.sound (h : m.Falling [] exempt) : { m with table := [], tableLost := true }.Sound exempt := by
  obtain ⟨os, hdoubly, hos⟩ := h.orphans
  refine ⟨⟨[], [], [], os, ⟨?_, ?_, ?_, hdoubly, nofun, nofun⟩, ⟨fun j => ?_, fun j => ?_, fun j => ?_, hos⟩⟩,
    fun j => ?_, List.nodup_nil, nofun⟩
  · simpa only [h.ends.1] using Ends.Spans.empty _
  · simpa only [h.ends.2.1] using Ends.Spans.empty _
  · simpa only [h.ends.2.2] using Doubly.empty _ _
  · simp [(h.member j).queue]
  · simp [(h.member j).queue]
  · simp [(h.member j).delay]
  · have hj := h.member j
    have hnot : j ∉ ([] : List StreamAddr) := List.not_mem_nil
    refine ⟨fun hq => absurd (hj.queue hnot) hq, fun hd => absurd (hj.delay.symm.trans hd) nofun, fun ha => ?_,
      fun ht => ⟨.inr (hj.tomb hnot ht).1, (hj.tomb hnot ht).2⟩, fun ho => ⟨hnot, (hj.orphan ho).1⟩,
      fun hin => (hj.orphan (hin.resolve_left hnot)).2, fun _ hin => absurd hin hnot⟩
    rw [h.active] at ha
    cases ha

theorem Sound.delayed_length (h : m.Sound exempt) {ds : List StreamAddr} (hnodup : ds.Nodup)
    (hds : ∀ j, j ∈ ds ↔ (m.members j).delayPending = true) : ds.length ≤ m.table.length + 1 := by
  have hsub : ds ⊆ exempt.toList ++ m.table := by
    intro j hj
    rcases (h.member j).delayed ((hds j).mp hj) with hin | rfl
    · simp [hin]
    · simp
  have hlen := (hnodup.subperm hsub).length_le
  have hone : exempt.toList.length ≤ 1 := by cases exempt <;> simp
  rw [List.length_append] at hlen
  omega

/-- A stream whose queue is dropped. -/
theorem FallingOk.of_memberOk {t : Member} {inTable active exempt : Prop} (h : MemberOk t inTable active exempt) :
    FallingOk { t with delayPending := false } inTable exempt where
  delay := rfl
  unhandled hin := ⟨h.alive (.inl hin), Bool.eq_false_iff.mpr fun ho => (h.orphan ho).1 hin⟩
  queue hout := by_contra fun hq => hout (h.queued hq)
  tomb hout ht := ⟨(h.tomb ht).1.resolve_left hout, (h.tomb ht).2⟩
  orphan ho := ⟨(h.orphan ho).2, h.alive (.inr ho)⟩

theorem Sound.freeStreams (h : m.Sound exempt) : m.freeStreams.Sound exempt := by
  obtain ⟨ready, lp, ds, os, hthreads, htags⟩ := h.lists
  have hclear := clearDelays_eq (m := m) hthreads.delayed.linked
    (h.delayed_length hthreads.delayed.nodup htags.inDelay)
  have hmembers : (fun j => if j ∈ ds then { m.members j with delayPending := false } else m.members j) =
      fun j => { m.members j with delayPending := false } := by
    funext j
    split
    · rfl
    next hout =>
      rw [htags.inDelay, Bool.not_eq_true] at hout
      rw [← hout]
  rw [← hthreads.delayed.head, hmembers] at hclear
  unfold Roster.freeStreams
  rw [hclear]
  exact Falling.sound (Falling.foldl
    ⟨⟨rfl, rfl, rfl⟩, ⟨os, hthreads.orphans, htags.inOrphans⟩, rfl, h.nodup, fun j => .of_memberOk (h.member j)⟩)

theorem Sound.shutdown (h : m.Sound exempt) : m.shutdown.Sound exempt := h.freeStreams

theorem failAndFree_only (m : Roster) (i : StreamAddr) : Only i m (m.failAndFree i) := by
  unfold failAndFree
  split
  · rw [orphan_eq]
    exact ⟨rfl, rfl, rfl, fun _ hj => Function.update_of_ne hj ..⟩
  · rw [free_eq]
    exact ⟨rfl, rfl, rfl, fun _ hj => Function.update_of_ne hj ..⟩

theorem foldl_failAndFree_of_notMem {xs : List StreamAddr} (hout : j ∉ xs) :
    (xs.foldl failAndFree m).members j = m.members j := by
  induction xs generalizing m with
  | nil => rfl
  | cons i xs ih =>
    rw [List.mem_cons, not_or] at hout
    exact (ih hout.2).trans ((failAndFree_only m i).members j hout.1)

theorem clearDelays_keeps (fuel : Nat) (head : Option StreamAddr) (m : Roster) :
    (clearDelays fuel head m).table = m.table ∧
      ∀ j, ((clearDelays fuel head m).members j).orphaned = (m.members j).orphaned := by
  induction fuel generalizing head m with
  | zero => exact ⟨rfl, fun _ => rfl⟩
  | succ fuel ih =>
    cases head with
    | none => exact ⟨rfl, fun _ => rfl⟩
    | some i =>
      obtain ⟨htable, horphaned⟩ := ih (m.links.delayNext i) (m.edit i fun t => { t with delayPending := false })
      refine ⟨htable, fun j => (horphaned j).trans ?_⟩
      by_cases hj : j = i
      · subst hj
        rw [edit_self]
      · rw [edit_of_ne hj]

theorem shutdown_orphaned (hout : j ∉ m.table) : (m.shutdown.members j).orphaned = (m.members j).orphaned := by
  obtain ⟨htable, horphaned⟩ := clearDelays_keeps (m.table.length + 1) m.links.delayHead m
  have hfold := foldl_failAndFree_of_notMem (m := { clearDelays (m.table.length + 1) m.links.delayHead m with
    links := m.links.dropQueues, drrActive := none, numClosed := { m.numClosed with value := 0 } }) (htable ▸ hout)
  exact (congrArg Member.orphaned hfold).trans (horphaned j)

@[simp] theorem shutdown_table : m.shutdown.table = [] := rfl

theorem Sound.freeOrphan (h : m.Sound none) (horphan : (m.members i).orphaned = true) : (m.freeOrphan i).Sound none := by
  have hi := h.member i
  have hout := (hi.orphan horphan).1
  have hpending : (m.members i).delayPending = false := Bool.eq_false_iff.mpr fun hd => hout ((hi.delayed hd).resolve_right (by simp))
  have hqueue : (m.members i).schedQueue = .none := by_contra fun hq => hout (hi.queued hq)
  have hactive : m.drrActive ≠ some i := fun ha => hout (hi.spending ha).2
  obtain ⟨ready, lp, ds, os, hthreads, htags⟩ := h.lists
  obtain ⟨pre, post, rfl⟩ := List.append_of_mem ((htags.inOrphans i).mpr horphan)
  have hnotin : i ∉ pre ++ post := (List.nodup_cons.mp (List.nodup_middle.mp hthreads.orphans.nodup)).1
  unfold Roster.freeOrphan
  rw [free_eq]
  simp only [Roster.linksWithout, hpending, if_neg hactive]
  refine SoundIn.update h ⟨ready, lp, ds, pre ++ post, hthreads.unlinkOrphan, ?_⟩
    ⟨by simp, by simp, fun ha => absurd ha hactive, by simp, by simp, fun hin => hin.elim (absurd · hout) (by simp),
      fun _ hin => absurd hin hout⟩
    fun hin => absurd hin hout
  refine htags.update (fun _ _ => Iff.rfl) (fun _ _ => Iff.rfl) (fun _ _ => Iff.rfl) (fun j hj => by simp [hj]) ?_
  rw [htags.inReady, htags.inLp, htags.inDelay, hqueue, hpending]
  exact ⟨Iff.rfl, Iff.rfl, Iff.rfl, by simp [hnotin]⟩

/-- The table without `i`. -/
def without (m : Roster) (i : StreamAddr) : Roster :=
  { m with table := m.table.filter fun j => (m.members j).id != (m.members i).id }

theorem find_of_mem (hin : i ∈ m.table) : ¬(m.find (m.members i).id).isNone := by
  unfold find
  rw [Option.isNone_iff_eq_none, List.find?_eq_none]
  exact fun hnone => hnone i hin (beq_self_eq_true _)

theorem Sound.mem_without (h : m.Sound exempt) (hin : i ∈ m.table) :
    j ∈ (m.without i).table ↔ j ∈ m.table ∧ j ≠ i := by
  unfold without
  rw [List.mem_filter]
  refine and_congr_right fun hj => ?_
  rw [bne_iff_ne, not_iff_not]
  exact ⟨h.ids j hj i hin, fun heq => heq ▸ rfl⟩

theorem Sound.without (h : m.Sound (some i)) (hin : i ∈ m.table) (hqueue : (m.members i).schedQueue = .none)
    (hactive : m.drrActive ≠ some i) : (m.without i).Sound (some i) := by
  have hmem : ∀ j, j ∈ (m.without i).table ↔ j ∈ m.table ∧ j ≠ i := fun j => h.mem_without hin
  refine ⟨h.lists, fun j => ?_, h.nodup.filter _, fun j hj k hk => h.ids j ((hmem j).mp hj).1 k ((hmem k).mp hk).1⟩
  have hj := h.member j
  by_cases heq : j = i
  · subst heq
    have hout : j ∉ (m.without j).table := fun hj => ((hmem j).mp hj).2 rfl
    exact ⟨fun hq => absurd hqueue hq, fun _ => .inr rfl, fun ha => absurd ha hactive, fun ht => ⟨.inr rfl, (hj.tomb ht).2⟩,
      fun ho => ⟨hout, (hj.orphan ho).2⟩, fun _ => hj.alive (.inl hin), fun hc => absurd rfl hc⟩
  · rw [hmem, and_iff_left heq]
    exact hj

theorem Sound.drained (h : m.Sound (some i)) (hout : i ∉ m.table) (horphan : (m.members i).orphaned = false)
    (drained : Bool) : ((if drained then m.shutdown else m).free i).Sound none := by
  split
  · exact h.shutdown.free List.not_mem_nil ((shutdown_orphaned hout).trans horphan)
  · exact h.free hout horphan

theorem Sound.removed (h : m.Sound (some i)) (hin : i ∈ m.table) (drained : Bool)
    (hqueue : (m.members i).schedQueue = .none) (hactive : m.drrActive ≠ some i) :
    ((m.removeStream i drained).free i).Sound none := by
  have hwithout := h.without hin hqueue hactive
  have hout : i ∉ (m.without i).table := fun hmem => ((h.mem_without hin).mp hmem).2 rfl
  have horphan : (m.members i).orphaned = false := Bool.eq_false_iff.mpr fun ho => ((h.member i).orphan ho).1 hin
  unfold removeStream
  rw [if_neg (find_of_mem hin)]
  dsimp only
  by_cases hopen : (m.members i).state ≠ .closed
  · rw [if_pos hopen]
    exact hwithout.drained hout horphan drained
  · rw [if_neg hopen]
    have hcounted : { m.without i with numClosed := m.numClosed.sub 1 }.Sound (some i) := hwithout
    exact hcounted.drained hout horphan drained

end Roster

end Multiplexd
