import Multiplexd.Mux.Roster

/-!
# Threading the streams

What the links of the streams spell: the ready queue, the lifecycle queue, the delay list and the list of
orphans. The queues share their links, and so do the delay list and the orphans; every operation moves one
stream and leaves the other lists as they were.
-/

namespace Multiplexd

namespace StreamLinks

variable {l : StreamLinks} {ready lp ds os pre post : List StreamAddr} {i : StreamAddr}

/-- The four lists the links thread. -/
structure Threads (l : StreamLinks) (ready lp ds os : List StreamAddr) : Prop where
  spansReady : Ends.Spans l.next l.sched ready
  spansLp : Ends.Spans l.next l.lp lp
  delayed : Doubly l.delayPrev l.delayNext l.delayHead ds
  orphans : Doubly l.delayPrev l.delayNext l.orphans os
  queuesApart : ∀ i ∈ ready, i ∉ lp
  delaysApart : ∀ i ∈ ds, i ∉ os

theorem threads_empty : Threads empty [] [] [] [] :=
  ⟨.empty _, .empty _, .empty _ _, .empty _ _, nofun, nofun⟩

namespace Threads

theorem pushSched (h : Threads l ready lp ds os) (hready : i ∉ ready) (hlp : i ∉ lp) :
    Threads (l.pushSched i) (ready ++ [i]) lp ds os := by
  refine ⟨h.spansReady.push hready, h.spansReady.pushNext_other h.spansLp hlp h.queuesApart, h.delayed, h.orphans, fun j hj => ?_,
    h.delaysApart⟩
  rcases List.mem_append.mp hj with hj | hj
  · exact h.queuesApart j hj
  · exact List.mem_singleton.mp hj ▸ hlp

theorem pushLp (h : Threads l ready lp ds os) (hready : i ∉ ready) (hlp : i ∉ lp) :
    Threads (l.pushLp i) ready (lp ++ [i]) ds os := by
  have hapart : ∀ j ∈ lp, j ∉ ready := fun j hj hmem => h.queuesApart j hmem hj
  refine ⟨h.spansLp.pushNext_other h.spansReady hready hapart, h.spansLp.push hlp, h.delayed, h.orphans, fun j hj hmem => ?_,
    h.delaysApart⟩
  rcases List.mem_append.mp hmem with hmem | hmem
  · exact h.queuesApart j hj hmem
  · exact hready (List.mem_singleton.mp hmem ▸ hj)

theorem popSched (h : Threads l (i :: ready) lp ds os) : Threads (l.popSched i) ready lp ds os :=
  ⟨h.spansReady.pop, h.spansLp.update (h.queuesApart i (by simp)) none, h.delayed, h.orphans,
    fun j hj => h.queuesApart j (by simp [hj]), h.delaysApart⟩

theorem popLp (h : Threads l ready (i :: lp) ds os) : Threads (l.popLp i) ready lp ds os := by
  have hready : i ∉ ready := fun hmem => h.queuesApart i hmem (by simp)
  exact ⟨h.spansReady.update hready none, h.spansLp.pop, h.delayed, h.orphans,
    fun j hj hmem => h.queuesApart j hj (by simp [hmem]), h.delaysApart⟩

theorem pushDelay (h : Threads l ready lp ds os) (hds : i ∉ ds) (hos : i ∉ os) :
    Threads (l.pushDelay i) ready lp (i :: ds) os := by
  have hother : ∀ j ∈ os, j ∉ i :: ds := by
    intro j hj hmem
    rcases List.mem_cons.mp hmem with rfl | hmem
    · exact hos hj
    · exact h.delaysApart j hmem hj
  refine ⟨h.spansReady, h.spansLp, h.delayed.push hds, h.orphans.congr ?_ ?_, h.queuesApart, fun j hj hmem => hother j hmem hj⟩
  · exact fun j hj => Doubly.pushPrev_of_notMem h.delayed.head (hother j hj)
  · exact fun j hj => Function.update_of_ne (fun heq => hother j hj (by simp [heq])) ..

theorem unlinkDelay (h : Threads l ready lp (pre ++ i :: post) os) :
    Threads (l.unlinkDelay i) ready lp (pre ++ post) os := by
  have hother : ∀ j ∈ os, j ∉ pre ++ i :: post := fun j hj hmem => h.delaysApart j hmem hj
  refine ⟨h.spansReady, h.spansLp, h.delayed.unlink, h.orphans.congr ?_ ?_, h.queuesApart, fun j hj => h.delaysApart j ?_⟩
  · exact fun j hj => h.delayed.unlinkPrev_of_notMem (hother j hj)
  · exact fun j hj => h.delayed.unlinkNext_of_notMem (hother j hj)
  · rcases List.mem_append.mp hj with hj | hj <;> simp [hj]

theorem unlinkOrphan (h : Threads l ready lp ds (pre ++ i :: post)) :
    Threads (l.unlinkOrphan i) ready lp ds (pre ++ post) := by
  refine ⟨h.spansReady, h.spansLp, h.delayed.congr ?_ ?_, h.orphans.unlink, h.queuesApart, fun j hj hmem => h.delaysApart j hj ?_⟩
  · exact fun j hj => h.orphans.unlinkPrev_of_notMem (h.delaysApart j hj)
  · exact fun j hj => h.orphans.unlinkNext_of_notMem (h.delaysApart j hj)
  · rcases List.mem_append.mp hmem with hmem | hmem <;> simp [hmem]

theorem clear (h : Threads l ready lp ds os) (hready : i ∉ ready) (hlp : i ∉ lp) (hds : i ∉ ds) (hos : i ∉ os) :
    Threads (l.clear i) ready lp ds os := by
  have hupdate : ∀ {xs : List StreamAddr} (g : StreamAddr → Option StreamAddr), i ∉ xs → ∀ j ∈ xs,
      Function.update g i none j = g j :=
    fun g hxs j hj => Function.update_of_ne (fun heq : j = i => hxs (heq ▸ hj)) ..
  exact ⟨h.spansReady.update hready none, h.spansLp.update hlp none, h.delayed.congr (hupdate _ hds) (hupdate _ hds),
    h.orphans.congr (hupdate _ hos) (hupdate _ hos), h.queuesApart, h.delaysApart⟩

end Threads

end StreamLinks

end Multiplexd
