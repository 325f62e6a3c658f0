import Multiplexd.Mux.Roster

/-!
# What the operations on streams write

Most of the operations write the record of one stream, and say nothing about the table. The closing of a
stream and its release, which go through several of them, are put together into one write.
-/

namespace Multiplexd

open Function (update_of_ne update_self)

/-- The fields that the timers and the gauges go by are the same. -/
def Member.Alike (t t' : Member) : Prop :=
  t' = { t' with
    state := t.state, tombstone := t.tombstone, halfopenCounted := t.halfopenCounted
    recvLen := t.recvLen, bufferedBytes := t.bufferedBytes }

namespace Roster

variable {m m' m'' : Roster} {i j : StreamAddr}

structure Only (i : StreamAddr) (m m' : Roster) : Prop where
  table : m'.table = m.table
  established : m'.established = m.established
  tableLost : m'.tableLost = m.tableLost
  members : ∀ j, j ≠ i → m'.members j = m.members j

theorem Only.refl (i : StreamAddr) (m : Roster) : Only i m m := ⟨rfl, rfl, rfl, fun _ _ => rfl⟩

theorem Only.trans (h : Only i m m') (h' : Only i m' m'') : Only i m m'' where
  table := h'.table.trans h.table
  established := h'.established.trans h.established
  tableLost := h'.tableLost.trans h.tableLost
  members j hj := (h'.members j hj).trans (h.members j hj)

@[simp] theorem edit_self (f : Member → Member) : (m.edit i f).members i = f (m.members i) := update_self ..

theorem edit_of_ne (h : j ≠ i) (f : Member → Member) : (m.edit i f).members j = m.members j :=
  update_of_ne h ..

@[simp] theorem edit_table (f : Member → Member) : (m.edit i f).table = m.table := rfl

@[simp] theorem edit_drrActive (f : Member → Member) : (m.edit i f).drrActive = m.drrActive := rfl

theorem edit_only (m : Roster) (i : StreamAddr) (f : Member → Member) : Only i m (m.edit i f) :=
  ⟨rfl, rfl, rfl, fun _ hj => edit_of_ne hj f⟩

/-- A stream is moved between the lists, or given to another holder; no timer and no gauge notices. -/
structure Level (i : StreamAddr) (m m' : Roster) : Prop extends Only i m m' where
  drrActive : m'.drrActive = m.drrActive
  numHalfopen : m'.numHalfopen = m.numHalfopen
  numClosed : m'.numClosed = m.numClosed
  recvBufferedBytes : m'.recvBufferedBytes = m.recvBufferedBytes
  alike : (m.members i).Alike (m'.members i)

namespace Level

theorem refl (i : StreamAddr) (m : Roster) : Level i m m := ⟨.refl i m, rfl, rfl, rfl, rfl, rfl⟩

theorem state (h : Level i m m') : (m'.members i).state = (m.members i).state := (congrArg Member.state h.alike :)

theorem tombstone (h : Level i m m') : (m'.members i).tombstone = (m.members i).tombstone :=
  (congrArg Member.tombstone h.alike :)

theorem update {t : Member} {links : StreamLinks} (hsame : (m.members i).Alike t) :
    Level i m { m with members := Function.update m.members i t, links := links } := by
  refine ⟨⟨rfl, rfl, rfl, fun _ hj => update_of_ne hj ..⟩, rfl, rfl, rfl, rfl, ?_⟩
  show (m.members i).Alike (Function.update m.members i t i)
  rwa [update_self]

end Level

variable (m i)

theorem enqueue_level : Level i m (m.enqueue i) := by
  unfold enqueue
  split
  · exact .update rfl
  · exact .refl i m

theorem lpEnqueue_level : Level i m (m.lpEnqueue i) := by
  unfold lpEnqueue
  split
  · exact .refl i m
  split
  · exact .refl i m
  split
  · exact .update rfl
  · exact .refl i m

theorem wake_level : Level i m (m.wake i) := by
  unfold wake
  split
  · exact enqueue_level m i
  split
  · exact lpEnqueue_level m i
  · exact enqueue_level m i

theorem delay_level (ticks : Nat) : Level i m (m.delay i ticks) := by
  unfold delay
  split
  · split
    · exact .update rfl
    · exact .refl i m
  · exact .update rfl

theorem delayRemove_level : Level i m (m.delayRemove i) := .update rfl

theorem undelay_level : Level i m (m.undelay i) := by
  unfold undelay
  split
  · exact delayRemove_level m i
  · exact .refl i m

theorem dequeue_level : Level i m (m.dequeue i) := .update rfl

theorem lpPop_level : Level i m (m.lpPop i) := .update rfl

theorem undelay_self : (m.undelay i).members i = { m.members i with
    delayPending := false
    delayTicks := if (m.members i).delayPending then 0 else (m.members i).delayTicks } := by
  unfold undelay
  split
  · simp [delayRemove]
  next hoff =>
    have hoff : (m.members i).delayPending = false := Bool.eq_false_iff.mpr hoff
    revert hoff
    cases m.members i
    rintro rfl
    rfl

/-- `stream_set_state`, put together. -/
theorem setState_eq (st : StreamState) :
    m.setState i st = { m.edit i fun t => { t with state := st, halfopenCounted := st.halfopen } with
      numHalfopen := m.numHalfopen.follow (m.members i).halfopenCounted st.halfopen } := by
  unfold setState
  cases hcounted : (m.members i).halfopenCounted <;> cases hnew : st.halfopen <;>
    simp [edit, hcounted, Gauge.follow]

theorem setState_only (st : StreamState) : Only i m (m.setState i st) := by
  rw [setState_eq]
  exact ⟨rfl, rfl, rfl, fun _ hj => update_of_ne hj ..⟩

def linksWithout (m : Roster) (i : StreamAddr) : StreamLinks :=
  if (m.members i).delayPending then m.links.unlinkDelay i else m.links

def Member.shut (t : Member) : Member :=
  { t with
    tombstone := false
    delayPending := false
    delayTicks := if t.delayPending then 0 else t.delayTicks
    recvLen := 0
    bufferedBytes := 0
    attached := false
    state := .closed
    halfopenCounted := false }

/-- `stream_mark_closed`, up to what brings the stream to its end. -/
def shut (m : Roster) (i : StreamAddr) : Roster :=
  { m with
    members := Function.update m.members i (Member.shut (m.members i))
    links := m.linksWithout i
    drrActive := if m.drrActive = some i then none else m.drrActive
    numClosed := m.numClosed.add 1
    numHalfopen := m.numHalfopen.follow (m.members i).halfopenCounted false
    recvBufferedBytes := m.recvBufferedBytes.sub (m.members i).recvLen }

theorem stop_eq :
    m.stop i = { m with
      members := Function.update m.members i { m.members i with
        tombstone := false
        delayPending := false
        delayTicks := if (m.members i).delayPending then 0 else (m.members i).delayTicks }
      links := m.linksWithout i
      drrActive := if m.drrActive = some i then none else m.drrActive } := by
  cases hpending : (m.members i).delayPending with
  | false => simp [stop, undelay, edit, setActive, linksWithout, hpending]
  | true => simp [stop, undelay, delayRemove, edit, setActive, linksWithout, hpending]

theorem stop_only : Only i m (m.stop i) := by
  rw [stop_eq]
  exact ⟨rfl, rfl, rfl, fun _ hj => update_of_ne hj ..⟩

theorem stop_self : (m.stop i).members i = { m.members i with
    tombstone := false
    delayPending := false
    delayTicks := if (m.members i).delayPending then 0 else (m.members i).delayTicks } := by
  rw [stop_eq]
  exact update_self ..

theorem stop_drrActive : (m.stop i).drrActive = if m.drrActive = some i then none else m.drrActive := by
  rw [stop_eq]

theorem markClosed_eq : m.markClosed i =
      if (m.members i).state = .init then (m.shut i).wake i
      else (m.shut i).edit i fun t => { t with tombstone := true } := by
  have hopen : StreamState.closed.halfopen = false := rfl
  have hshut : { (((m.stop i).releaseBuffers i).edit i fun t => { t with attached := false }).setState i .closed with
      numClosed := ((((m.stop i).releaseBuffers i).edit i fun t =>
        { t with attached := false }).setState i .closed).numClosed.add 1 } = m.shut i := by
    rw [setState_eq, stop_eq]
    simp [releaseBuffers, edit, shut, Member.shut, hopen]
  unfold markClosed
  dsimp only at hshut ⊢
  rw [hshut]
  by_cases hinit : (m.members i).state = .init
  · rw [if_pos hinit, if_pos (by rw [hinit]; rfl)]
  · rw [if_neg hinit, if_neg (by simpa using hinit)]

/-- `mux_stream_free`, put together. -/
theorem free_eq :
    m.free i = { m with
      members := Function.update m.members i {}
      links := m.linksWithout i
      drrActive := if m.drrActive = some i then none else m.drrActive
      numHalfopen := m.numHalfopen.follow (m.members i).halfopenCounted false
      recvBufferedBytes := m.recvBufferedBytes.sub (m.members i).recvLen } := by
  unfold free
  dsimp only
  cases hcounted : (m.members i).halfopenCounted with
  | false => simp [stop_eq, edit, linksWithout, Gauge.follow]
  | true => simp [stop_eq, edit, linksWithout, Gauge.follow]

theorem shut_only : Only i m (m.shut i) :=
  ⟨rfl, rfl, rfl, fun _ hj => update_of_ne hj ..⟩

@[simp] theorem shut_self : (m.shut i).members i = Member.shut (m.members i) :=
  update_self ..

theorem markClosed_only : Only i m (m.markClosed i) := by
  rw [markClosed_eq]
  split
  · exact (shut_only m i).trans (wake_level _ i).toOnly
  · exact (shut_only m i).trans (edit_only _ i _)

theorem markClosed_drrActive :
    (m.markClosed i).drrActive = if m.drrActive = some i then none else m.drrActive := by
  rw [markClosed_eq]
  split
  · exact (wake_level _ i).drrActive
  · rfl

theorem markClosed_self (hinit : (m.members i).state ≠ .init) :
    (m.markClosed i).members i = { Member.shut (m.members i) with tombstone := true } := by
  rw [markClosed_eq, if_neg hinit, edit_self, shut_self]

end Roster

end Multiplexd
