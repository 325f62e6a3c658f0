import Multiplexd.Mux.Holders

/-!
# The gauges of a session

A session counts its half-open streams, its closed streams and the bytes in its receive buffers as it goes.
The counts are those of the streams in its table at every point, and no gauge is ever taken below zero.
-/

namespace Multiplexd

open Function (update_idem update_of_ne update_self)

/-- A stream against the gauges of its session. -/
structure MemberMetered (t : Member) (inTable : Prop) : Prop where
  counted : t.halfopenCounted = t.state.halfopen
  buffered : t.bufferedBytes = t.recvLen
  drained : t.state = .closed → t.recvLen = 0
  outside : ¬inTable → t.state = .closed

namespace Member

def halfopenWeight (t : Member) : Nat := t.halfopenCounted.toNat

def closedWeight (t : Member) : Nat := (decide (t.state = .closed)).toNat

end Member

theorem MemberMetered.alike {t t' : Member} {inTable : Prop} (h : MemberMetered t inTable) (hsame : t.Alike t') :
    MemberMetered t' inTable := by
  rw [Member.Alike] at hsame
  rw [hsame]
  exact { h with }

/-- A closed stream adds to one gauge only. -/
theorem MemberMetered.closed_weights {t : Member} {inTable : Prop} (h : MemberMetered t inTable)
    (hclosed : t.state = .closed) : t.halfopenWeight = 0 ∧ t.recvLen = 0 ∧ t.closedWeight = 1 := by
  refine ⟨?_, h.drained hclosed, ?_⟩
  · rw [Member.halfopenWeight, h.counted, hclosed]
    rfl
  · rw [Member.closedWeight, hclosed]
    rfl

namespace Roster

variable {m m' : Roster} {i j : StreamAddr} {rest : List StreamAddr}

/-- The gauges of the streams that `rest` names. -/
structure MeteredOn (m : Roster) (rest : List StreamAddr) : Prop where
  halfopen : m.numHalfopen.Reads (censusOn Member.halfopenWeight rest m.members)
  buffered : m.recvBufferedBytes.Reads (censusOn Member.recvLen rest m.members)
  member : ∀ i, MemberMetered (m.members i) (i ∈ rest)

/-- The gauges equal what they count. -/
structure Metered (m : Roster) : Prop extends MeteredOn m m.table where
  closed : m.numClosed.Reads (censusOn Member.closedWeight m.table m.members)

theorem new_metered : new.Metered :=
  ⟨⟨Gauge.zero_reads, Gauge.zero_reads, fun _ => ⟨rfl, rfl, fun _ => rfl, fun _ => rfl⟩⟩, Gauge.zero_reads⟩

/-! ### What moves a gauge -/

theorem Metered.level (h : m.Metered) (hlevel : Level i m m') : m'.Metered := by
  have halike : ∀ j, (m.members j).Alike (m'.members j) := by
    intro j
    by_cases hj : j = i
    · exact hj ▸ hlevel.alike
    · rw [hlevel.members j hj]
      rfl
  have hcensus : ∀ {w : Member → Nat}, (∀ j, w (m'.members j) = w (m.members j)) →
      censusOn w m'.table m'.members = censusOn w m.table m.members := by
    intro w hw
    rw [hlevel.table]
    exact censusOn_congr fun j _ => hw j
  refine ⟨⟨?_, ?_, fun j => ?_⟩, ?_⟩
  · rw [hlevel.numHalfopen, hcensus fun j => (congrArg Member.halfopenWeight (halike j) :)]
    exact h.halfopen
  · rw [hlevel.recvBufferedBytes, hcensus fun j => (congrArg Member.recvLen (halike j) :)]
    exact h.buffered
  · rw [hlevel.table]
    exact (h.member j).alike (halike j)
  · rw [hlevel.numClosed, hcensus fun j => (congrArg Member.closedWeight (halike j) :)]
    exact h.closed

/-- One stream of the table is written, and the gauges follow it. -/
theorem Metered.update (h : m.Metered) (hnodup : m.table.Nodup) (hin : i ∈ m.table) {t : Member}
    (hmembers : m'.members = Function.update m.members i t) (htable : m'.table = m.table)
    (hok : MemberMetered t (i ∈ m.table))
    (hhalfopen : ∀ k, m.numHalfopen.Reads (k + (m.members i).halfopenWeight) → m'.numHalfopen.Reads (k + t.halfopenWeight))
    (hbuffered : ∀ k, m.recvBufferedBytes.Reads (k + (m.members i).recvLen) → m'.recvBufferedBytes.Reads (k + t.recvLen))
    (hclosed : ∀ k, m.numClosed.Reads (k + (m.members i).closedWeight) → m'.numClosed.Reads (k + t.closedWeight)) :
    m'.Metered := by
  have hmembers' : ∀ {w : Member → Nat}, censusOn w m'.table m'.members =
      censusOn w m.table (Function.update m.members i t) := by
    intro w
    rw [hmembers, htable]
  refine ⟨⟨?_, ?_, fun j => ?_⟩, ?_⟩
  · rw [hmembers']
    exact h.halfopen.census_update hnodup hin hhalfopen
  · rw [hmembers']
    exact h.buffered.census_update hnodup hin hbuffered
  · rw [hmembers, htable]
    by_cases hj : j = i
    · subst hj
      rwa [update_self]
    · rw [update_of_ne hj]
      exact h.member j
  · rw [hmembers']
    exact h.closed.census_update hnodup hin hclosed

theorem Member.closedWeight_open {t : Member} (hopen : t.state ≠ .closed) : t.closedWeight = 0 := by
  simp [Member.closedWeight, hopen]

theorem Metered.setState (h : m.Metered) (hnodup : m.table.Nodup) (hin : i ∈ m.table)
    (hopen : (m.members i).state ≠ .closed) {st : StreamState} (hst : st ≠ .closed) : (m.setState i st).Metered := by
  have hi := h.member i
  rw [setState_eq]
  refine h.update hnodup hin rfl rfl ⟨rfl, hi.buffered, fun hc => absurd hc hst, fun hout => absurd hin hout⟩
    (fun k hread => hread.follow st.halfopen) (fun k hread => hread) (fun k hread => ?_)
  rw [Member.closedWeight_open hopen] at hread
  rwa [Member.closedWeight_open hst]

theorem Metered.shut (h : m.Metered) (hnodup : m.table.Nodup) (hin : i ∈ m.table)
    (hopen : (m.members i).state ≠ .closed) : (m.shut i).Metered := by
  refine h.update hnodup hin rfl rfl ⟨rfl, rfl, fun _ => rfl, fun _ => rfl⟩
    (fun k hread => hread.follow false) (fun k hread => hread.sub) (fun k hread => ?_)
  rw [Member.closedWeight_open hopen] at hread
  exact hread.add 1

theorem Metered.setTombstone (h : m.Metered) (hnodup : m.table.Nodup) (hin : i ∈ m.table) (b : Bool) :
    (m.edit i fun t => { t with tombstone := b }).Metered :=
  have hi := h.member i
  h.update hnodup hin rfl rfl { hi with } (fun _ hread => hread)
    (fun _ hread => hread) (fun _ hread => hread)

theorem Metered.markClosed (h : m.Metered) (hnodup : m.table.Nodup) (hin : i ∈ m.table)
    (hopen : (m.members i).state ≠ .closed) : (m.markClosed i).Metered := by
  have hshut := h.shut hnodup hin hopen
  rw [markClosed_eq]
  split
  · exact hshut.level (wake_level _ i)
  · exact hshut.setTombstone hnodup hin true

/-- A stream outside the table is released. -/
theorem Metered.free (h : m.Metered) (hout : i ∉ m.table) : (m.free i).Metered := by
  have hi := h.member i
  obtain ⟨hhalf, hlen, -⟩ := hi.closed_weights (hi.outside hout)
  have hcounted : (m.members i).halfopenCounted = false := by simpa [Member.halfopenWeight] using hhalf
  rw [free_eq, hcounted, hlen]
  refine ⟨⟨?_, ?_, fun j => ?_⟩, ?_⟩
  · exact h.halfopen.congr (censusOn_update_of_notMem hout _).symm
  · exact (Gauge.Reads.sub (n := 0) h.buffered).congr (censusOn_update_of_notMem hout _).symm
  · by_cases hj : j = i
    · subst hj
      simp only [update_self]
      exact ⟨rfl, rfl, fun _ => rfl, fun _ => rfl⟩
    · simp only [update_of_ne hj]
      exact h.member j
  · exact h.closed.congr (censusOn_update_of_notMem hout _).symm

/-- `mux_stream_new`, put together. -/
theorem create_eq (m : Roster) (i : StreamAddr) (id : UInt16) (active : Bool) (recvWindow : Nat) :
    m.create i id active recvWindow = { m with
      members := Function.update m.members i {
        live := true
        id := id
        state := if active then .init else .synReceived
        halfopenCounted := true
        recvWindow := recvWindow }
      links := m.links.clear i
      numHalfopen := m.numHalfopen.add 1 } := by
  unfold create
  rw [setState_eq]
  cases active <;> simp [edit, StreamState.halfopen, Gauge.follow]

theorem Metered.add (h : m.Metered) (hout : i ∉ m.table) (id : UInt16) (active : Bool) (recvWindow : Nat) (grown : Bool) :
    ((m.create i id active recvWindow).addStream i grown).2.Metered := by
  have hfresh : ∀ t : Member, ∀ {w : Member → Nat},
      censusOn w m.table (Function.update m.members i t) = censusOn w m.table m.members :=
    fun t _ => censusOn_update_of_notMem hout t
  unfold addStream
  split
  · rw [create_eq, free_eq]
    simp only [update_self, update_idem]
    refine ⟨⟨?_, ?_, fun j => ?_⟩, h.closed.congr (hfresh _).symm⟩
    · exact (Gauge.Reads.sub (n := 1) (h.halfopen.add 1)).congr (hfresh _).symm
    · exact (Gauge.Reads.sub (n := 0) h.buffered).congr (hfresh _).symm
    · by_cases hj : j = i
      · subst hj
        simp only [update_self]
        exact ⟨rfl, rfl, fun _ => rfl, fun _ => rfl⟩
      · simp only [update_of_ne hj]
        exact h.member j
  · rw [create_eq]
    refine ⟨⟨?_, ?_, fun j => ?_⟩, ?_⟩
    · refine (h.halfopen.add 1).congr ?_
      simp only [censusOn_append_singleton, hfresh, update_self]
      rfl
    · refine h.buffered.congr ?_
      simp only [censusOn_append_singleton, hfresh, update_self]
      rfl
    · by_cases hj : j = i
      · subst hj
        simp only [update_self]
        refine ⟨?_, rfl, fun _ => rfl, fun hnot => absurd (by simp) hnot⟩
        cases active <;> rfl
      · simp only [update_of_ne hj]
        have hmem : j ∈ m.table ++ [i] ↔ j ∈ m.table := by simp [hj]
        rw [hmem]
        exact h.member j
    · refine h.closed.congr ?_
      simp only [censusOn_append_singleton, hfresh, update_self]
      cases active <;> rfl

/-! ### The table falls -/

theorem MeteredOn.failAndFree (h : m.MeteredOn (i :: rest)) (hnodup : (i :: rest).Nodup) :
    (m.failAndFree i).MeteredOn rest := by
  have hnot : i ∉ rest := (List.nodup_cons.mp hnodup).1
  have hi := h.member i
  have hcensus : ∀ t : Member, ∀ {w : Member → Nat},
      censusOn w rest (Function.update m.members i t) = censusOn w rest m.members :=
    fun t _ => censusOn_update_of_notMem hnot t
  have hhalfopen := h.halfopen
  have hbuffered := h.buffered
  rw [censusOn_cons, Nat.add_comm] at hhalfopen hbuffered
  -- whatever is left of `i` is closed and empty
  have hothers : ∀ t : Member, t.state = .closed → t.halfopenCounted = false → t.bufferedBytes = 0 → t.recvLen = 0 →
      ∀ j, MemberMetered (Function.update m.members i t j) (j ∈ rest) := by
    intro t hclosed hcounted hbytes hlen j
    by_cases hj : j = i
    · subst hj
      rw [update_self]
      exact ⟨by rw [hcounted, hclosed]; rfl, by rw [hbytes, hlen], fun _ => hlen, fun _ => hclosed⟩
    · rw [update_of_ne hj]
      have hmem := h.member j
      rwa [List.mem_cons, or_iff_right hj] at hmem
  unfold Roster.failAndFree
  split
  · rw [orphan_eq]
    refine ⟨Gauge.Reads.congr ?_ (hcensus _).symm, hbuffered.sub.congr (hcensus _).symm, hothers _ rfl ?_ rfl rfl⟩
    · dsimp only
      split
      next hclosed =>
        rw [(hi.closed_weights hclosed).1] at hhalfopen
        exact hhalfopen
      · exact hhalfopen.follow false
    · change ((m.members i).halfopenCounted && decide ((m.members i).state = .closed)) = false
      rw [hi.counted]
      cases (m.members i).state <;> rfl
  · rw [free_eq]
    exact ⟨(hhalfopen.follow false).congr (hcensus _).symm, hbuffered.sub.congr (hcensus _).symm,
      hothers _ rfl rfl rfl rfl⟩

theorem MeteredOn.foldl (h : m.MeteredOn rest) (hnodup : rest.Nodup) :
    (rest.foldl Roster.failAndFree m).MeteredOn [] := by
  induction rest generalizing m with
  | nil => exact h
  | cons i rest ih => exact ih (h.failAndFree hnodup) (List.nodup_cons.mp hnodup).2

theorem foldl_failAndFree_numClosed (xs : List StreamAddr) (m : Roster) :
    (xs.foldl failAndFree m).numClosed = m.numClosed := by
  induction xs generalizing m with
  | nil => rfl
  | cons i xs ih =>
    refine (ih _).trans ?_
    unfold failAndFree
    split
    · rw [orphan_eq]
    · rw [free_eq]

section

variable (h : m.Metered)
include h

theorem Metered.undelayed (fuel : Nat) (head : Option StreamAddr) :
    (clearDelays fuel head m).Metered := by
  induction fuel generalizing head m with
  | zero =>
    unfold Roster.clearDelays
    exact h
  | succ fuel ih =>
    cases head with
    | none =>
      unfold Roster.clearDelays
      exact h
    | some i =>
      have hedit : Level i m (m.edit i fun t => { t with delayPending := false }) := .update rfl
      rw [Roster.clearDelays]
      exact ih (h.level hedit) _

theorem Metered.freeStreams (hnodup : m.table.Nodup) : m.freeStreams.Metered := by
  have htable := (clearDelays_keeps (m.table.length + 1) m.links.delayHead m).1
  have hclear := h.undelayed (m.table.length + 1) m.links.delayHead
  have hstart : { clearDelays (m.table.length + 1) m.links.delayHead m with
      links := m.links.dropQueues
      drrActive := none
      numClosed := { m.numClosed with value := 0 } }.MeteredOn (clearDelays (m.table.length + 1) m.links.delayHead m).table :=
    { hclear with }
  have hfold := hstart.foldl (by rw [htable]; exact hnodup)
  refine ⟨{ hfold with }, ?_⟩
  unfold Roster.freeStreams
  dsimp only
  rw [foldl_failAndFree_numClosed]
  exact ⟨rfl, h.closed.below⟩

theorem Metered.shutdown (hnodup : m.table.Nodup) : m.shutdown.Metered :=
  have hfree := h.freeStreams hnodup
  ⟨{ hfree with }, hfree.closed⟩

theorem Metered.reset (hnodup : m.table.Nodup) (accepted : Bool) : (m.reset accepted).Metered := by
  have hshutdown := h.shutdown hnodup
  unfold Roster.reset
  split
  · exact hshutdown
  · exact ⟨{ hshutdown with halfopen := ⟨rfl, hshutdown.halfopen.below⟩ }, hshutdown.closed⟩

theorem Metered.freeOrphan (hout : i ∉ m.table) : (m.freeOrphan i).Metered := by
  have hunlinked : { m with links := m.links.unlinkOrphan i }.Metered :=
    ⟨{ h with }, h.closed⟩
  exact hunlinked.free hout

/-- A closed stream leaves the table. -/
theorem Metered.without {exempt : Option StreamAddr} (hsound : m.Sound exempt) (hin : i ∈ m.table)
    (hclosed : (m.members i).state = .closed) : { m.without i with numClosed := m.numClosed.sub 1 }.Metered := by
  have hmem : ∀ j, j ∈ (m.without i).table ↔ j ∈ m.table ∧ j ≠ i := fun j => hsound.mem_without hin
  have hperm : m.table.Perm (i :: (m.without i).table) := by
    refine (List.perm_ext_iff_of_nodup hsound.nodup ?_).mpr fun j => ?_
    · exact List.nodup_cons.mpr ⟨fun hi => ((hmem i).mp hi).2 rfl, hsound.nodup.filter _⟩
    · rw [List.mem_cons, hmem]
      by_cases hj : j = i
      · subst hj
        simp [hin]
      · simp [hj]
  obtain ⟨hhalf, hlen, hone⟩ := (h.member i).closed_weights hclosed
  have hhalfopen := h.halfopen
  have hbuffered := h.buffered
  have hcl := h.closed
  rw [censusOn_perm hperm, censusOn_cons] at hhalfopen hbuffered hcl
  rw [hhalf, Nat.zero_add] at hhalfopen
  rw [hlen, Nat.zero_add] at hbuffered
  rw [hone, Nat.add_comm] at hcl
  refine ⟨⟨hhalfopen, hbuffered, fun j => ?_⟩, hcl.sub⟩
  have hj := h.member j
  by_cases heq : j = i
  · subst heq
    exact { hj with outside := fun _ => hclosed }
  · change MemberMetered (m.members j) (j ∈ (m.without i).table)
    rw [hmem, and_iff_left heq]
    exact hj

theorem Metered.removed (hsound : m.Sound (some i)) (hin : i ∈ m.table)
    (hclosed : (m.members i).state = .closed) (drained : Bool) : ((m.removeStream i drained).free i).Metered := by
  have hwithout := h.without hsound hin hclosed
  have hout : i ∉ (m.without i).table := fun hmem => ((hsound.mem_without hin).mp hmem).2 rfl
  unfold removeStream
  rw [if_neg (find_of_mem hin)]
  dsimp only
  rw [if_neg (not_not_intro hclosed)]
  split
  · exact (hwithout.shutdown (hsound.nodup.filter _)).free List.not_mem_nil
  · exact hwithout.free hout

theorem Metered.consumed (hnodup : m.table.Nodup) (hin : i ∈ m.table)
    (hopen : (m.members i).state ≠ .closed) {n : Nat} (hn : n ≤ (m.members i).recvLen) : (m.consumed i n).Metered := by
  have hi := h.member i
  refine h.update hnodup hin rfl rfl ⟨hi.counted, congrArg (· - n) hi.buffered, fun hc => absurd hc hopen,
    fun hout => absurd hin hout⟩ (fun k hread => hread) (fun k hread => ?_) (fun k hread => hread)
  exact Gauge.Reads.sub (hread.congr (by dsimp only; omega))

theorem Metered.received (hnodup : m.table.Nodup) (hin : i ∈ m.table)
    (hopen : (m.members i).state ≠ .closed) (n : Nat) :
    { m.edit i fun t => { t with recvLen := t.recvLen + n, bufferedBytes := t.bufferedBytes + n } with
      recvBufferedBytes := m.recvBufferedBytes.add n }.Metered := by
  have hi := h.member i
  refine h.update hnodup hin rfl rfl ⟨hi.counted, congrArg (· + n) hi.buffered, fun hc => absurd hc hopen,
    fun hout => absurd hin hout⟩ (fun k hread => hread) (fun k hread => ?_) (fun k hread => hread)
  exact (hread.add n).congr (by dsimp only; omega)

end

theorem metered_carried : Carried Metered where
  level hl h := h.level hl
  advances hs hin hopen hst h := h.setState hs.nodup hin hopen hst.2
  closes hs hin hopen h := h.markClosed hs.nodup hin hopen
  frees {_ i} hs ho h := h.freeOrphan ((hs.member i).orphan ho).1
  adds id active recvWindow grown hs hfree h := h.add (hs.unallocated hfree).1 id active recvWindow grown
  consumes hs hin hopen hn h := h.consumed hs.nodup hin hopen hn
  spends _ h := ⟨{ h with }, h.closed⟩
  expires hs hin h := h.setTombstone hs.nodup hin false
  receives n hs hin hopen h := h.received hs.nodup hin hopen n
  flags _ _ h := ⟨{ h with }, h.closed⟩
  falls hnodup h := h.shutdown hnodup
  resets accepted hnodup h := h.reset hnodup accepted
  removes drained hs hin hclosed h := h.removed hs hin hclosed drained

end Roster

end Multiplexd
