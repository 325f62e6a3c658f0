import Multiplexd.Mux.Serving

/-!
# Streams and the application that holds them

What the application does to a stream, on its own or from a callback, and what the peer and the timers do:
a stream is opened, given a mode, closed, turned down, released. From there to every callback of the event
loop, and to every run.
-/

namespace Multiplexd

namespace Roster

variable {m m' : Roster} {i j : StreamAddr}

/-! ### A new stream -/

theorem Sound.unallocated (h : m.Sound none) (hfree : (m.members i).live = false) :
    i ∉ m.table ∧ (m.members i).orphaned = false := by
  have hi := h.member i
  have hdead : ¬(m.members i).live = true := by simp [hfree]
  exact ⟨fun hin => hdead (hi.alive (.inl hin)), Bool.eq_false_iff.mpr fun ho => hdead (hi.alive (.inr ho))⟩

theorem Sound.create (h : m.Sound none) (hfree : (m.members i).live = false) (id : UInt16) (active : Bool)
    (recvWindow : Nat) : (m.create i id active recvWindow).Sound (some i) := by
  obtain ⟨hout, horphan⟩ := h.unallocated hfree
  have hi := h.member i
  have hqueue : (m.members i).schedQueue = .none := by_contra fun hq => hout (hi.queued hq)
  have hpending : (m.members i).delayPending = false :=
    Bool.eq_false_iff.mpr fun hd => hout ((hi.delayed hd).resolve_right nofun)
  obtain ⟨ready, lp, ds, os, hthreads, htags⟩ := h.lists
  have hready : i ∉ ready := by rw [htags.inReady, hqueue]; nofun
  have hlp : i ∉ lp := by rw [htags.inLp, hqueue]; nofun
  have hds : i ∉ ds := by rw [htags.inDelay, hpending]; nofun
  have hos : i ∉ os := by rw [htags.inOrphans, horphan]; nofun
  have hfresh : { m.edit i fun _ => { live := true, id := id, state := .init, recvWindow := recvWindow } with
      links := m.links.clear i }.Sound (some i) := by
    refine SoundIn.update (h.exempted i) ⟨ready, lp, ds, os, hthreads.clear hready hlp hds hos, ?_⟩ ?_
      fun hin => absurd hin hout
    · refine htags.update (fun _ _ => Iff.rfl) (fun _ _ => Iff.rfl) (fun _ _ => Iff.rfl) (fun _ _ => Iff.rfl) ?_
      simp [hready, hlp, hds, hos]
    · exact ⟨nofun, nofun, fun ha => absurd (hi.spending ha).2 hout, nofun, nofun, fun _ => rfl, fun hc => absurd rfl hc⟩
  refine hfresh.setState (.inr ?_)
  simp

/-- The record of a new stream. -/
theorem create_self (m : Roster) (i : StreamAddr) (id : UInt16) (active : Bool) (recvWindow : Nat) :
    (m.create i id active recvWindow).members i = {
      live := true
      id := id
      state := if active then .init else .synReceived
      halfopenCounted := true
      recvWindow := recvWindow } := by
  unfold create
  rw [setState_eq]
  cases active <;> simp [edit, StreamState.halfopen]

theorem create_table (m : Roster) (i : StreamAddr) (id : UInt16) (active : Bool) (recvWindow : Nat) :
    (m.create i id active recvWindow).table = m.table := by
  unfold create
  rw [setState_eq]
  rfl

/-- A stream enters the table. -/
theorem Sound.enter (h : m.Sound (some i)) (hout : i ∉ m.table) (horphan : (m.members i).orphaned = false)
    (hlive : (m.members i).live = true) (hopen : (m.members i).state ≠ .closed)
    (hnew : ∀ j ∈ m.table, (m.members j).id ≠ (m.members i).id) : { m with table := m.table ++ [i] }.Sound none := by
  have hids : ∀ j ∈ m.table ++ [i], ∀ k ∈ m.table ++ [i], (m.members j).id = (m.members k).id → j = k := by
    intro j hj k hk heq
    rcases List.mem_append.mp hj with hj | hj <;> rcases List.mem_append.mp hk with hk | hk
    · exact h.ids j hj k hk heq
    · rw [List.mem_singleton.mp hk] at heq
      exact absurd heq (hnew j hj)
    · rw [List.mem_singleton.mp hj] at heq
      exact absurd heq.symm (hnew k hk)
    · rw [List.mem_singleton.mp hj, List.mem_singleton.mp hk]
  refine ⟨h.lists, fun j => ?_, ?_, hids⟩
  · have hj := h.member j
    by_cases heq : j = i
    · subst heq
      have hin : j ∈ m.table ++ [j] := by simp
      exact ⟨fun _ => hin, fun _ => .inl hin, fun ha => absurd (hj.spending ha).2 hout,
        fun ht => ⟨.inl hin, (hj.tomb ht).2⟩, fun ho => absurd (horphan.symm.trans ho) nofun, fun _ => hlive,
        fun _ _ hclosed => absurd hclosed hopen⟩
    · have hmem : j ∈ m.table ++ [i] ↔ j ∈ m.table := by simp [heq]
      change MemberOk (m.members j) (j ∈ m.table ++ [i]) _ _
      rw [hmem]
      exact hj.weaken fun he => absurd (Option.some.inj he).symm heq
  · refine List.nodup_append.mpr ⟨h.nodup, List.nodup_singleton i, fun j hj k hk heq => hout ?_⟩
    rwa [← List.mem_singleton.mp hk, ← heq]

theorem Sound.add (h : m.Sound none) (hfree : (m.members i).live = false) (id : UInt16) (active : Bool)
    (recvWindow : Nat) (grown : Bool) : ((m.create i id active recvWindow).addStream i grown).2.Sound none ∧
      (((m.create i id active recvWindow).addStream i grown).1 = true →
        i ∈ ((m.create i id active recvWindow).addStream i grown).2.table ∧
        ((m.create i id active recvWindow).addStream i grown).2.members i =
          (m.create i id active recvWindow).members i) := by
  have hcreate := h.create hfree id active recvWindow
  have hout : i ∉ (m.create i id active recvWindow).table := by
    rw [create_table]
    exact (h.unallocated hfree).1
  have hself := create_self m i id active recvWindow
  unfold addStream
  split
  · exact ⟨hcreate.free hout (by rw [hself]), nofun⟩
  next hroom =>
    rw [not_or, not_or, Option.not_isSome_iff_eq_none, find, List.find?_eq_none] at hroom
    refine ⟨hcreate.enter hout (by rw [hself]) (by rw [hself]) ?_ fun j hj => by simpa using hroom.2.1 j hj,
      fun _ => ⟨by simp, rfl⟩⟩
    rw [hself]
    cases active <;> nofun

/-- Only those who hold the stream differ. -/
def Reheld (t t' : Member) : Prop :=
  t' = { t with
    pendingAttach := t'.pendingAttach, isDirect := t'.isDirect, userClosed := t'.userClosed, attached := t'.attached }

variable {f : Member → Member}

theorem Reheld.alike {t t' : Member} (h : Reheld t t') : t.Alike t' := by
  rw [Reheld] at h
  rw [h]
  rfl

theorem Sound.rehold (h : m.Sound none) (hsame : Reheld (m.members i) (f (m.members i))) :
    (m.edit i f).Sound (some i) := by
  have hi := (h.exempted i).member i
  rw [Reheld] at hsame
  refine (h.exempted i).edit ?_ ?_ <;> rw [hsame]
  · rfl
  · exact { hi with kept := fun hc => absurd rfl hc }

/-- The holds of an open stream are written. -/
theorem Sound.rehold_open (h : m.Sound none) (hin : i ∈ m.table) (hopen : (m.members i).state ≠ .closed)
    (hsame : Reheld (m.members i) (f (m.members i))) : (m.edit i f).Sound none := by
  refine (h.rehold hsame).settled hin fun hclosed => absurd ?_ hopen
  rwa [edit_self, hsame] at hclosed

/-- The holds of an orphan are written. -/
theorem Sound.rehold_orphan (h : m.Sound none) (horphan : (m.members i).orphaned = true)
    (hsame : Reheld (m.members i) (f (m.members i))) : (m.edit i f).Sound none := by
  have hi := h.member i
  have hout := (hi.orphan horphan).1
  refine (h.rehold hsame).gone hout ?_ ?_ <;> rw [edit_self, hsame]
  · exact Bool.eq_false_iff.mpr fun hd => hout ((hi.delayed hd).resolve_right nofun)
  · exact Bool.eq_false_iff.mpr fun ht => hout ((hi.tomb ht).1.resolve_right nofun)

/-- A stream the application names is in the table or an orphan. -/
theorem isKnown_cases (h : m.isKnown i = true) : i ∈ m.table ∨ (m.members i).orphaned = true := by
  simpa [isKnown] using h

theorem Sound.known_open (h : m.Sound none) (hknown : m.isKnown i = true) (hopen : (m.members i).state ≠ .closed) :
    i ∈ m.table :=
  (isKnown_cases hknown).resolve_right fun ho => hopen ((h.member i).orphan ho).2

theorem isOpen_cases (h : m.isOpen i = true) : i ∈ m.table ∧ (m.members i).state ≠ .closed := by
  simpa [isOpen] using h

theorem Member.attachable_open {t : Member} (h : t.attachable = true) : t.state ≠ .closed := by
  intro hclosed
  rw [Member.attachable, hclosed] at h
  cases h

/-! ### What the application does -/

theorem answerSyn_only (m : Roster) (i : StreamAddr) (ok : Bool) : Only i m (m.answerSyn i ok) := by
  unfold Roster.answerSyn
  split
  · split
    · exact setState_only m i .established
    · exact markClosed_only m i
  · exact .refl i m

variable {P : Roster → Prop}

namespace Holding

variable (k : Holding P) (h : m.Kept P)
include k h

theorem rehold_open (hin : i ∈ m.table) (hopen : (m.members i).state ≠ .closed)
    (hsame : Reheld (m.members i) (f (m.members i))) : (m.edit i f).Kept P :=
  ⟨h.sound.rehold_open hin hopen hsame, k.level (.update hsame.alike) h.kept⟩

theorem rehold_orphan (horphan : (m.members i).orphaned = true)
    (hsame : Reheld (m.members i) (f (m.members i))) : (m.edit i f).Kept P :=
  ⟨h.sound.rehold_orphan horphan hsame, k.level (.update hsame.alike) h.kept⟩

theorem rehold_woken (hin : i ∈ m.table) (hsame : Reheld (m.members i) (f (m.members i))) :
    ((m.edit i f).wake i).Kept P :=
  ⟨(h.sound.rehold hsame).woken hin, k.level (wake_level _ i) (k.level (.update hsame.alike) h.kept)⟩

theorem added (hfree : (m.members i).live = false) (id : UInt16) (active : Bool) (recvWindow : Nat)
    (grown : Bool) : ((m.create i id active recvWindow).addStream i grown).2.Kept P :=
  ⟨(h.sound.add hfree id active recvWindow grown).1, k.adds id active recvWindow grown h.sound hfree h.kept⟩

/-- A stream is opened here and woken. -/
theorem opened (hfree : (m.members i).live = false) (id : UInt16) (held : Bool) (recvWindow : Nat)
    (grown : Bool) : (m.opened i id held recvWindow grown).Kept P := by
  have hadd := k.added h hfree id true recvWindow grown
  have hentered := (h.sound.add hfree id true recvWindow grown).2
  unfold Roster.opened
  split
  next hadded =>
    rw [hadded] at hadd
    exact hadd
  next m' hadded =>
    rw [hadded] at hadd hentered
    obtain ⟨hin, hself⟩ := hentered rfl
    have hlevel := wake_level m' i
    refine k.rehold_open (k.wake hadd hin) (hlevel.table ▸ hin) ?_ rfl
    change m'.members i = _ at hself
    rw [hlevel.state, hself, create_self]
    nofun

/-- `stream_hand_over_rejected`. -/
theorem handOverRejected (hknown : m.isKnown i = true) : (m.handOverRejected i).Kept P := by
  unfold Roster.handOverRejected
  split
  · exact h
  dsimp only
  split
  next hstays =>
    simp only [edit_self] at hstays
    rcases hstays with hopen | horphan
    · exact k.rehold_open h (h.sound.known_open hknown hopen) hopen rfl
    · exact k.rehold_orphan h horphan rfl
  next hgoes =>
    simp only [edit_self, not_or] at hgoes
    exact k.rehold_woken h ((isKnown_cases hknown).resolve_right hgoes.2) rfl

theorem answerSyn (hin : i ∈ m.table) (ok : Bool) : (m.answerSyn i ok).Kept P := by
  unfold Roster.answerSyn
  split
  next hsyn =>
    have hopen : (m.members i).state ≠ .closed := by
      rw [hsyn]
      nofun
    split
    · exact k.advance h hin hopen (by simp)
    · exact k.markClosed h hin hopen
  · exact h

theorem attachFd (hknown : m.isKnown i = true) (ok : Bool) : (m.attachFd i ok).Kept P := by
  unfold Roster.attachFd
  split
  · exact k.handOverRejected h hknown
  next hattach =>
    have hopen := Member.attachable_open (by simpa using hattach)
    have hin := h.sound.known_open hknown hopen
    have hattached : (m.edit i fun t => { t with pendingAttach := false, attached := true }).Kept P :=
      k.rehold_open h hin hopen rfl
    have hanswer := k.answerSyn hattached hin ok
    dsimp only
    split
    next hclosing =>
      refine k.markClosed hanswer ?_ ?_
      · rw [(answerSyn_only _ i ok).table]
        exact hin
      · rw [hclosing.1]
        nofun
    · exact hanswer

theorem ioStart (hknown : m.isKnown i = true) (ok : Bool) : (m.ioStart i ok).Kept P := by
  unfold Roster.ioStart
  split
  · exact k.handOverRejected h hknown
  next hattach =>
    have hopen := Member.attachable_open (by simpa using hattach)
    have hin := h.sound.known_open hknown hopen
    have hdirect : (m.edit i fun t => { t with pendingAttach := false, isDirect := true }).Kept P :=
      k.rehold_open h hin hopen rfl
    dsimp only
    split
    · exact k.advance hdirect hin (by rwa [edit_self]) (by simp)
    · exact hdirect

/-- `mux_stream_do_release`. -/
theorem doRelease (hknown : m.isKnown i = true) : (m.doRelease i).Kept P := by
  unfold Roster.doRelease
  split
  · exact h
  dsimp only
  split
  next horphan =>
    simp only [edit_self] at horphan
    have hreleased : (m.edit i fun t =>
        { t with userClosed := t.userClosed || t.isDirect, pendingAttach := false }).Kept P := k.rehold_orphan h horphan rfl
    exact ⟨hreleased.sound.freeOrphan (by rwa [edit_self]), k.frees hreleased.sound (by rwa [edit_self]) hreleased.kept⟩
  next hnot =>
    simp only [edit_self] at hnot
    have hin : i ∈ m.table := (isKnown_cases hknown).resolve_right hnot
    have hrehold : (m.edit i fun t => { t with userClosed := t.userClosed || t.isDirect, pendingAttach := false }).Sound
        (some i) := h.sound.rehold rfl
    split
    next htomb => exact ⟨hrehold.settled hin fun _ => .inl htomb, k.level (.update rfl) h.kept⟩
    · exact k.rehold_woken h hin rfl

theorem doShutdown (hin : i ∈ m.table) : (m.doShutdown i).Kept P := by
  unfold Roster.doShutdown
  split
  next hclosing =>
    refine k.markClosed h hin ?_
    rw [hclosing.2.2.1]
    nofun
  · exact k.wake h hin

/-- `mux_stream_close`. -/
theorem closeStream (hknown : m.isKnown i = true) : (m.closeStream i).Kept P := by
  unfold Roster.closeStream
  split
  · exact k.doRelease h hknown
  next hopen =>
    have hin := h.sound.known_open hknown hopen
    have hdetached : (m.edit i fun t => { t with pendingAttach := false }).Kept P := k.rehold_open h hin hopen rfl
    dsimp only
    split
    · exact k.markClosed hdetached hin (by rwa [edit_self])
    · have hclosed : ((m.edit i fun t => { t with pendingAttach := false }).edit i fun t =>
          { t with
            isDirect := t.isDirect || !t.hasMode
            userClosed := t.userClosed || (t.isDirect || !t.hasMode) }).Kept P :=
        k.rehold_open hdetached hin (by rwa [edit_self]) rfl
      split
      · exact k.doShutdown hclosed hin
      · exact k.markClosed hclosed hin (by rwa [edit_self, edit_self])

theorem appAct (a : AppAct) : (m.appAct a).Kept P := by
  cases a with
  | opened i id recvWindow grown =>
    rw [Roster.appAct]
    split
    · exact h
    next hfree => exact k.opened h (Bool.eq_false_iff.mpr hfree) id true recvWindow grown
  | attachFd i ok =>
    rw [Roster.appAct]
    split
    next hknown => exact k.attachFd h hknown ok
    · exact h
  | ioStart i ok =>
    rw [Roster.appAct]
    split
    next hknown => exact k.ioStart h hknown ok
    · exact h
  | consumed i n =>
    rw [Roster.appAct]
    split
    next hmay =>
      obtain ⟨hin, hopen⟩ := isOpen_cases hmay.1
      have htouch : (m.edit i fun t =>
          { t with recvLen := t.recvLen - n, bufferedBytes := t.bufferedBytes - n }).Sound none := h.sound.touch rfl
      exact ⟨htouch, k.consumes h.sound hin hopen hmay.2 h.kept⟩
    · exact h
  | recvEof i =>
    rw [Roster.appAct]
    split
    next hmay =>
      obtain ⟨hin, hopen⟩ := isOpen_cases hmay.1
      have hread : (m.edit i fun t => { t with userClosed := true }).Kept P := k.rehold_open h hin hopen rfl
      exact k.markClosed hread hin (by rwa [edit_self])
    · exact h
  | shutdownStream i =>
    rw [Roster.appAct]
    split
    next hopen => exact k.doShutdown h (isOpen_cases hopen).1
    · exact h
  | closeStream i =>
    rw [Roster.appAct]
    split
    next hknown => exact k.closeStream h hknown
    · exact h
  | aborted i =>
    rw [Roster.appAct]
    split
    next hopen => exact k.markClosed h (isOpen_cases hopen).1 (isOpen_cases hopen).2
    · exact h

theorem told (as : List AppAct) : (runFrom Roster.appAct m as).Kept P :=
  runFrom_invariant_always (Kept P) (fun _ a hm => k.appAct hm a) h as

end Holding

/-! ### A stream that is turned down -/

structure Lasting (m : Roster) (i : StreamAddr) : Prop where
  table : i ∈ m.table
  left : (m.members i).state ≠ .init
  closed : (m.members i).state = .closed → (m.members i).tombstone = true

theorem Lasting.only (h : m.Lasting i) (honly : Only j m m') (hself : j = i →
    (m'.members i).state = (m.members i).state ∧ (m'.members i).tombstone = (m.members i).tombstone) : m'.Lasting i := by
  have hboth : (m'.members i).state = (m.members i).state ∧ (m'.members i).tombstone = (m.members i).tombstone := by
    by_cases hj : j = i
    · exact hself hj
    · rw [honly.members i (Ne.symm hj)]
      exact ⟨rfl, rfl⟩
  refine ⟨honly.table ▸ h.table, ?_, ?_⟩
  · rw [hboth.1]
    exact h.left
  · rw [hboth.1, hboth.2]
    exact h.closed

theorem Lasting.setState (h : m.Lasting i) (j : StreamAddr) {st : StreamState} (hst : st ≠ .init ∧ st ≠ .closed) :
    (m.setState j st).Lasting i := by
  by_cases hj : j = i
  · subst hj
    refine ⟨(setState_only m j st).table ▸ h.table, ?_, fun hclosed => ?_⟩
    · rw [setState_state]
      exact hst.1
    · rw [setState_state] at hclosed
      exact absurd hclosed hst.2
  · exact h.only (setState_only m j st) fun heq => absurd heq hj

theorem Lasting.markClosed (h : m.Lasting i) (j : StreamAddr) : (m.markClosed j).Lasting i := by
  by_cases hj : j = i
  · subst hj
    refine ⟨(markClosed_only m j).table ▸ h.table, ?_, fun _ => ?_⟩ <;> rw [markClosed_self m j h.left]
    nofun
  · exact h.only (markClosed_only m j) fun heq => absurd heq hj

theorem free_only (m : Roster) (i : StreamAddr) : Only i m (m.free i) := by
  rw [free_eq]
  exact ⟨rfl, rfl, rfl, fun _ hj => Function.update_of_ne hj ..⟩

theorem Lasting.add (h : m.Lasting i) (hj : j ≠ i) (id : UInt16) (active : Bool) (recvWindow : Nat) (grown : Bool) :
    ((m.create j id active recvWindow).addStream j grown).2.Lasting i := by
  have hcreate : Only j m (m.create j id active recvWindow) := by
    unfold Roster.create
    rw [setState_eq]
    exact ⟨rfl, rfl, rfl, fun k hk => by simp [Roster.edit, hk]⟩
  have hlast : (m.create j id active recvWindow).Lasting i := h.only hcreate fun heq => absurd heq hj
  unfold addStream
  split
  · exact hlast.only (free_only _ j) fun heq => absurd heq hj
  · exact ⟨List.mem_append_left _ hlast.table, hlast.left, hlast.closed⟩

theorem lasting_holding (i : StreamAddr) : Holding (·.Lasting i) where
  level hl h := h.only hl.toOnly fun heq => heq ▸ ⟨hl.state, hl.tombstone⟩
  advances {_ j _} _ _ _ hst h := h.setState j hst
  closes {_ j} _ _ _ h := h.markClosed j
  frees {m j} hsound horphan h := by
    have hunlinked : { m with links := m.links.unlinkOrphan j }.Lasting i := { h with }
    refine hunlinked.only (free_only _ j) ?_
    rintro rfl
    exact absurd h.table ((hsound.member j).orphan horphan).1
  adds {m j} id active recvWindow grown hsound hfree h := by
    refine h.add ?_ id active recvWindow grown
    rintro rfl
    rw [(hsound.member j).alive (.inl h.table)] at hfree
    cases hfree
  consumes {m j n} _ _ _ _ h := by
    have hedit : (m.edit j fun t =>
        { t with recvLen := t.recvLen - n, bufferedBytes := t.bufferedBytes - n }).Lasting i := by
      refine h.only (edit_only m j _) ?_
      rintro rfl
      rw [edit_self]
      exact ⟨rfl, rfl⟩
    exact { hedit with }

theorem Holding.refuse (k : Holding P) (h : m.Kept P) (hlast : m.Lasting i) : (m.refuse i).Kept P := by
  have hrehold : (m.edit i fun t => { t with userClosed := t.userClosed || t.isDirect }).Sound (some i) :=
    h.sound.rehold rfl
  have hkept : P (m.edit i fun t => { t with userClosed := t.userClosed || t.isDirect }) := k.level (.update rfl) h.kept
  unfold Roster.refuse
  dsimp only
  split
  next hclosed =>
    rw [edit_self] at hclosed
    refine ⟨hrehold.settled hlast.table fun _ => .inl ?_, hkept⟩
    rw [edit_self]
    exact hlast.closed hclosed
  next hopen => exact ⟨hrehold.markClosed hlast.table, k.closes hrehold hlast.table hopen hkept⟩

theorem Holding.accepted (k : Holding P) (h : m.Kept P) (hfree : (m.members i).live = false) (id : UInt16)
    (recvWindow : Nat) (grown : Bool) (told : List AppAct) (refused : Bool) :
    (m.accepted i id recvWindow grown told refused).Kept P := by
  have hadd := k.added h hfree id false recvWindow grown
  have hentered := (h.sound.add hfree id false recvWindow grown).2
  unfold Roster.accepted
  split
  next hadded =>
    rw [hadded] at hadd
    exact hadd
  next m' hadded =>
    rw [hadded] at hadd hentered
    obtain ⟨hin, hself⟩ := hentered rfl
    change m'.members i = _ at hself
    have hlast : m'.Lasting i := by
      refine ⟨hin, ?_, fun hclosed => ?_⟩
      · rw [hself, create_self]
        nofun
      · rw [hself, create_self] at hclosed
        cases hclosed
    obtain ⟨hsound, hkept, hlast⟩ := (k.and (lasting_holding i)).told ⟨hadd.sound, hadd.kept, hlast⟩ told
    split
    · exact k.refuse ⟨hsound, hkept⟩ hlast
    · exact ⟨hsound, hkept⟩

theorem advances_ne {st st' : StreamState} (h : st.advances st' = true) : st' ≠ .init ∧ st' ≠ .closed := by
  constructor <;> rintro rfl <;> cases st <;> cases h

namespace Carried

variable (k : Carried P) (h : m.Kept P)
include k h

theorem shutdown : m.shutdown.Kept P := ⟨h.sound.shutdown, k.falls h.sound.nodup h.kept⟩

theorem reset (accepted : Bool) : (m.reset accepted).Kept P := by
  refine ⟨?_, k.resets accepted h.sound.nodup h.kept⟩
  unfold Roster.reset
  split
  · exact h.sound.shutdown
  · exact h.sound.shutdown

theorem recvCopy (hopen : m.isOpen i = true) (n : Nat) : (m.recvCopy i n).Kept P := by
  obtain ⟨hin, hopen⟩ := isOpen_cases hopen
  unfold Roster.recvCopy
  split
  · exact k.markClosed h hin hopen
  · have htouch : (m.edit i fun t =>
        { t with recvLen := t.recvLen + n, bufferedBytes := t.bufferedBytes + n }).Sound none := h.sound.touch rfl
    exact ⟨htouch, k.receives n h.sound hin hopen h.kept⟩

theorem tombstoneCb (htomb : (m.members i).tombstone = true) :
    ((m.edit i fun t => { t with tombstone := false }).wake i).Kept P := by
  have hi := (h.sound.exempted i).member i
  have hin : i ∈ m.table := ((h.sound.member i).tomb htomb).1.resolve_right nofun
  have hoff : (m.edit i fun t => { t with tombstone := false }).Sound (some i) :=
    (h.sound.exempted i).edit rfl
      { hi with tomb := nofun, kept := fun hc => absurd rfl hc }
  exact ⟨hoff.woken hin, k.level (wake_level _ i) (k.expires h.sound hin h.kept)⟩

theorem act (a : RosterAct) : (m.act a).Kept P := by
  cases a with
  | app a => exact k.appAct h a
  | accepted i id recvWindow grown told refused =>
    rw [Roster.act]
    split
    · exact h
    next hfree => exact k.accepted h (Bool.eq_false_iff.mpr hfree) id recvWindow grown told refused
  | opened i id recvWindow grown =>
    rw [Roster.act]
    split
    · exact h
    next hfree => exact k.opened h (Bool.eq_false_iff.mpr hfree) id false recvWindow grown
  | wake i =>
    rw [Roster.act]
    split
    next hin => exact k.wake h (by simpa using hin)
    · exact h
  | advanced i st =>
    rw [Roster.act]
    split
    next hopen => exact k.advance h (isOpen_cases hopen.1).1 (isOpen_cases hopen.1).2 (advances_ne hopen.2)
    · exact h
  | closed i =>
    rw [Roster.act]
    split
    next hopen => exact k.markClosed h (isOpen_cases hopen).1 (isOpen_cases hopen).2
    · exact h
  | tombstoneCb i =>
    rw [Roster.act]
    split
    next htomb => exact k.tombstoneCb h htomb
    · exact h
  | delay i ticks =>
    rw [Roster.act]
    split
    next hin => exact k.delay h (by simpa using hin) ticks
    · exact h
  | recvCopy i n =>
    rw [Roster.act]
    split
    next hopen => exact k.recvCopy h hopen n
    · exact h
  | windowed i recvWindow =>
    rw [Roster.act]
    split
    · exact ⟨h.sound.touch rfl, k.level (.update rfl) h.kept⟩
    · exact h
  | sessionState established => exact ⟨h.sound, k.flags established m.tableLost h.kept⟩
  | shutdown => exact k.shutdown h
  | reset accepted => exact k.reset h accepted
  | newTable => exact ⟨h.sound, k.flags m.established false h.kept⟩
  | freeOrphans fuel => exact k.freeOrphans fuel h

theorem abortUnopened (hin : i ∈ m.table) (hopen : (m.members i).state ≠ .closed) (told : List AppAct)
    (drained : Bool) : (m.abortUnopened i told drained).Kept P := by
  have hclose : ∀ m' : Roster, m'.Kept P → (if m'.isOpen i then m'.markClosed i else m').Kept P := by
    intro m' h'
    split
    next hopen => exact k.markClosed h' (isOpen_cases hopen).1 (isOpen_cases hopen).2
    · exact h'
  unfold Roster.abortUnopened
  split
  · refine hclose _ ?_
    split
    · exact k.shutdown (k.told h told)
    · exact k.told h told
  · exact k.markClosed h hin hopen

theorem openStream (hin : i ∈ m.table) (hopen : (m.members i).state ≠ .closed) (t : DrainTurn) :
    (m.openStream i t).Kept P := by
  unfold Roster.openStream
  split
  · exact k.abortUnopened h hin hopen t.told t.drained
  · exact k.advance h hin hopen (by simp)
  · exact k.advance (k.undelay h) ((undelay_level m i).table ▸ hin) (by rwa [(undelay_level m i).state]) (by simp)

theorem drainWalk (ts : List DrainTurn) : (drainWalk ts m).Kept P := by
  induction ts generalizing m with
  | nil => exact h
  | cons t ts ih =>
    unfold Roster.drainWalk
    split
    · exact h
    next i hhead =>
      obtain ⟨hpop, hin, hactive⟩ := h.sound.lpPop hhead
      have hself : (m.lpPop i).members i = { m.members i with schedQueue := .none } := by simp [Roster.lpPop]
      have hkept : P (m.lpPop i) := k.level (lpPop_level m i) h.kept
      split
      next hclosed =>
        dsimp only
        split
        next hheld => exact ih ⟨hpop.settled hin fun _ => .inr (.inr (.inr hheld)), hkept⟩
        · exact ih ⟨hpop.removed hin t.drained (by rw [hself]) hactive,
            k.removes t.drained hpop hin (by rw [hself]; exact hclosed) hkept⟩
      next hinit =>
        have hopen : ((m.lpPop i).members i).state ≠ .closed := by
          rw [hself]
          exact fun hc => absurd (hinit.symm.trans hc) nofun
        have hopened := k.openStream ⟨hpop.settled hin fun hc => absurd hc hopen, hkept⟩ hin hopen t
        split
        · exact h
        dsimp only
        split
        · exact hopened
        · exact ih hopened
      next hclosed _ =>
        refine ih ⟨hpop.settled hin fun hc => absurd ?_ hclosed, hkept⟩
        rwa [hself] at hc

theorem step (e : RosterEvent) : (m.step e).Kept P := by
  cases e with
  | act a => exact k.act h a
  | next ts =>
    rw [Roster.step]
    split
    · exact k.nextData h ts
    · exact h
  | flushCtrl e es =>
    rw [Roster.step]
    split
    · exact k.flushCtrl h e es
    · exact h
  | drainLp ts =>
    rw [Roster.step, drainLp]
    split
    · exact k.drainWalk h ts
    · exact h
  | coalesceCb => exact k.coalesceCb h

end Carried

theorem run_sound (es : List RosterEvent) : (run new es).Sound none :=
  (runFrom_invariant_always (Kept fun _ => True) (fun _ e hm => carried_trivial.step hm e) ⟨new_sound, trivial⟩ es).sound

/-- The lists of a session as they should be: `ready`, `lp` and `ds` are what the links thread, and the tags,
the table and the budget agree with them. -/
structure Disciplined (m : Roster) (ready lp ds : List StreamAddr) : Prop where
  spansReady : Ends.Spans m.links.next m.links.sched ready
  spansLp : Ends.Spans m.links.next m.links.lp lp
  delayed : Doubly m.links.delayPrev m.links.delayNext m.links.delayHead ds
  inReady : ∀ i, i ∈ ready ↔ (m.members i).schedQueue = .drr
  inLp : ∀ i, i ∈ lp ↔ (m.members i).schedQueue = .lp
  inDelay : ∀ i, i ∈ ds ↔ (m.members i).delayPending = true
  apart : ∀ i ∈ ready, i ∉ lp
  spending : ∀ i, m.drrActive = some i → i ∉ ready ∧ i ∉ lp
  inTable : ∀ i, i ∈ ready ∨ i ∈ lp ∨ i ∈ ds → i ∈ m.table

/-- In every run the lists are as they should be, and a closed stream of the table is not forgotten: its timer
runs, it is on a queue, it spends its budget, or the application holds it. -/
theorem run_disciplined (es : List RosterEvent) :
    ∃ ready lp ds, (run new es).Disciplined ready lp ds ∧
      ∀ i ∈ (run new es).table, ((run new es).members i).state = .closed →
        ((run new es).members i).tombstone = true ∨ i ∈ ready ∨ i ∈ lp ∨ (run new es).drrActive = some i ∨
          ((run new es).members i).appHeld = true := by
  have h := run_sound es
  obtain ⟨ready, lp, ds, os, hthreads, htags⟩ := h.lists
  refine ⟨ready, lp, ds, ?_, fun i hin hclosed => ?_⟩
  · refine ⟨hthreads.spansReady, hthreads.spansLp, hthreads.delayed, htags.inReady, htags.inLp, htags.inDelay,
      hthreads.queuesApart, fun i ha => ?_, fun i hi => ?_⟩
    · have hqueue := ((h.member i).spending ha).1
      rw [htags.inReady, htags.inLp, hqueue]
      exact ⟨nofun, nofun⟩
    · rcases hi with hi | hi | hi
      · exact (h.member i).queued (by rw [(htags.inReady i).mp hi]; nofun)
      · exact (h.member i).queued (by rw [(htags.inLp i).mp hi]; nofun)
      · exact ((h.member i).delayed ((htags.inDelay i).mp hi)).resolve_right nofun
  · rw [htags.inReady, htags.inLp]
    rcases (h.member i).kept nofun hin hclosed with ht | hq | ha | hheld
    · exact .inl ht
    · revert hq
      cases ((run new es).members i).schedQueue <;> simp
    · exact .inr (.inr (.inr (.inl ha)))
    · exact .inr (.inr (.inr (.inr hheld)))

/-- In every run a stream that is on a list or in the table, has a timer or spends the budget is allocated. -/
theorem run_no_dangling (es : List RosterEvent) :
    let m := run new es
    ∃ ready lp ds os, m.links.Threads ready lp ds os ∧
      ∀ i, i ∈ ready ∨ i ∈ lp ∨ i ∈ ds ∨ i ∈ os ∨ i ∈ m.table ∨ (m.members i).tombstone = true ∨ m.drrActive = some i →
        (m.members i).live = true := by
  intro m
  have h : m.Sound none := run_sound es
  obtain ⟨ready, lp, ds, os, hthreads, htags⟩ := h.lists
  refine ⟨ready, lp, ds, os, hthreads, fun i hi => (h.member i).alive ?_⟩
  rw [htags.inReady, htags.inLp, htags.inDelay, htags.inOrphans] at hi
  rcases hi with hq | hq | hd | ho | hin | ht | ha
  · exact .inl ((h.member i).queued (by simp [hq]))
  · exact .inl ((h.member i).queued (by simp [hq]))
  · exact .inl (((h.member i).delayed hd).resolve_right nofun)
  · exact .inr ho
  · exact .inl hin
  · exact .inl (((h.member i).tomb ht).1.resolve_right nofun)
  · exact .inl ((h.member i).spending ha).2

end Roster

end Multiplexd
