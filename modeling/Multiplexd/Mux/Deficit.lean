import Multiplexd.Mux.Sched
import Mathlib.Data.List.Nodup

/-!
# The deficits of the data scheduler

A stream off the round's budget keeps less than one quantum, the stream on it less than two, and a frame
is charged only to a deficit that covers it.
-/

namespace Multiplexd

def StreamState.Opened (st : StreamState) : Prop := st ≠ .init ∧ st ≠ .synSent ∧ st ≠ .closed

instance (st : StreamState) : Decidable st.Opened := inferInstanceAs (Decidable (_ ∧ _))

namespace SchedStream

variable {t t' : SchedStream} {nodelay : Bool} {M payload : Nat}

theorem dequeueSend_some (h : t.dequeueSend nodelay M = (some payload, t')) :
    ∃ rest, t.sendQueue = payload :: rest ∧ t' = { t with nagleFlush := false, sendQueue := rest } := by
  unfold dequeueSend at h
  split at h
  case isFalse => cases h
  case isTrue =>
  split at h
  · cases h
  next p rest hqueue =>
    split at h
    · cases h
    split at h
    · cases h
    split at h
    · cases h
    cases h
    exact ⟨rest, hqueue, rfl⟩

theorem dequeueSend_none (h : t.dequeueSend nodelay M = (none, t')) : ∃ b, t' = { t with nagleFlush := b } := by
  unfold dequeueSend at h
  split at h
  case isFalse =>
    cases h
    exact ⟨_, rfl⟩
  case isTrue =>
  split at h
  · cases h
    exact ⟨_, rfl⟩
  next =>
    split at h
    · cases h
      exact ⟨_, rfl⟩
    split at h
    · cases h
      exact ⟨_, rfl⟩
    split at h
    · cases h
      exact ⟨_, rfl⟩
    cases h

end SchedStream

/-! ### The queues and the deficits -/

/-- A stream against its place in the scheduler: in the FIFO, in the low-priority queue, being served,
and named by `drr_active`. -/
structure StreamOk (M : Nat) (t : SchedStream) (inReady inLp busy active : Prop) : Prop where
  ready : inReady ↔ t.schedQueue = .drr
  lp : inLp ↔ t.schedQueue = .lp
  busy_of_active : active → busy
  off_of_busy : busy → t.schedQueue = .none
  open_of_active : active → t.state.Opened
  frames : ∀ p ∈ t.sendQueue, 0 < p ∧ p ≤ M
  below : t.deficit < 2 * M
  idle : ¬busy → t.state ≠ .closed → t.deficit < M
  tomb : t.tombstone = true → t.state = .closed
  dead : t.live = false → t.schedQueue = .none ∧ t.tombstone = false ∧ ¬busy

namespace Sched

/-- The scheduler with the stream `busy` off its queues. -/
structure Inv (M : Nat) (s : Sched) (busy : Option Nat) : Prop where
  maxPayload : s.maxPayload = M
  readyNodup : s.ready.Nodup
  lpNodup : s.lp.Nodup
  stream : ∀ i, StreamOk M (s.streams i) (i ∈ s.ready) (i ∈ s.lp) (busy = some i)
    (s.drrActive = some i)

variable {M : Nat} {s s' : Sched} {busy : Option Nat} {i payload : Nat}

@[simp] theorem set_streams_self (t : SchedStream) : (s.set i t).streams i = t := by
  simp [set]

theorem set_streams_of_ne {x : Nat} (h : x ≠ i) (t : SchedStream) : (s.set i t).streams x = s.streams x := by
  simp [set, h]

@[simp] theorem set_ready (t : SchedStream) : (s.set i t).ready = s.ready := rfl

@[simp] theorem set_lp (t : SchedStream) : (s.set i t).lp = s.lp := rfl

@[simp] theorem set_drrActive (t : SchedStream) : (s.set i t).drrActive = s.drrActive := rfl

@[simp] theorem set_maxPayload (t : SchedStream) : (s.set i t).maxPayload = s.maxPayload := rfl

@[simp] theorem set_established (t : SchedStream) : (s.set i t).established = s.established := rfl

@[simp] theorem set_nodelay (t : SchedStream) : (s.set i t).nodelay = s.nodelay := rfl

theorem set_set (t t' : SchedStream) : (s.set i t).set i t' = s.set i t' := by
  simp [set]

theorem set_active_set (t t' : SchedStream) (active : Option Nat) :
    { s.set i t with drrActive := active }.set i t' = { s with drrActive := active }.set i t' := by
  simp [set]

variable {t : SchedStream} {active : Option Nat} {fresh : Bool} {fin : FinEffect} {frame : Staged}
  {rest : List Nat} {st st' : StreamState}

/-- A write to the record of one stream. -/
theorem Inv.set (h : s.Inv M busy)
    (ht : StreamOk M t (i ∈ s.ready) (i ∈ s.lp) (busy = some i) (s.drrActive = some i)) :
    (s.set i t).Inv M busy where
  __ := h
  stream x := by
    by_cases hx : x = i
    · subst hx
      rw [set_streams_self]
      exact ht
    · rw [set_streams_of_ne hx]
      exact h.stream x

/-- A write that moves the stream nowhere: its queue, its deficit and its frames stay, and its state does
not go back. -/
theorem Inv.edit (h : s.Inv M busy) (hlive : t.live = (s.streams i).live)
    (hqueue : t.schedQueue = (s.streams i).schedQueue) (htomb : t.tombstone = (s.streams i).tombstone)
    (hdeficit : t.deficit = (s.streams i).deficit) (hframes : ∀ p ∈ t.sendQueue, 0 < p ∧ p ≤ M)
    (hclosed : (s.streams i).state = .closed → t.state = .closed)
    (hopen : s.drrActive = some i → t.state.Opened) : (s.set i t).Inv M busy := by
  have hid := h.stream i
  refine h.set ⟨?_, ?_, hid.busy_of_active, ?_, hopen, hframes, ?_, ?_, ?_, ?_⟩
  · rw [hqueue]
    exact hid.ready
  · rw [hqueue]
    exact hid.lp
  · rw [hqueue]
    exact hid.off_of_busy
  · rw [hdeficit]
    exact hid.below
  · intro hbusy hstate
    rw [hdeficit]
    exact hid.idle hbusy fun hc => hstate (hclosed hc)
  · rw [htomb]
    exact fun hc => hclosed (hid.tomb hc)
  · rw [hlive, hqueue, htomb]
    exact hid.dead

theorem Inv.park (h : s.Inv M (some i)) (hactive : s.drrActive = none)
    (hdeficit : (s.streams i).state ≠ .closed → (s.streams i).deficit < M) : s.Inv M none where
  __ := h
  stream x := by
    have hx := h.stream x
    refine { hx with busy_of_active := ?_, off_of_busy := nofun, idle := ?_, dead := ?_ }
    · rw [hactive]
      nofun
    · intro _ hstate
      by_cases hid : i = x
      · subst hid
        exact hdeficit hstate
      · exact hx.idle (fun hc => hid (Option.some.inj hc)) hstate
    · intro hlive
      exact ⟨(hx.dead hlive).1, (hx.dead hlive).2.1, nofun⟩

theorem Inv.setActive (h : s.Inv M (some i))
    (hactive : active = none ∨ active = some i ∧ (s.streams i).state.Opened) :
    { s with drrActive := active }.Inv M (some i) where
  __ := h
  stream x := by
    have hx := h.stream x
    refine { hx with busy_of_active := ?_, open_of_active := ?_ }
    · rcases hactive with rfl | ⟨rfl, -⟩
      · nofun
      · exact fun hc => hc
    · rcases hactive with rfl | ⟨rfl, hopen⟩
      · nofun
      · intro hc
        cases hc
        exact hopen

/-- A stream moves from one queue to another; the others stay where they are. -/
theorem Inv.relist (h : s.Inv M busy) {q : SchedQueue} {ready lp : List Nat} (hready : ready.Nodup) (hlp : lp.Nodup)
    (hothers : ∀ x, x ≠ i → (x ∈ ready ↔ x ∈ s.ready) ∧ (x ∈ lp ↔ x ∈ s.lp))
    (hself : (i ∈ ready ↔ q = .drr) ∧ (i ∈ lp ↔ q = .lp)) (hbusy : busy = some i → q = .none)
    (hdead : (s.streams i).live = false → q = .none) :
    { s.set i { s.streams i with schedQueue := q } with ready := ready, lp := lp }.Inv M busy where
  maxPayload := h.maxPayload
  readyNodup := hready
  lpNodup := hlp
  stream x := by
    have hxs := h.stream x
    dsimp only
    by_cases hx : x = i
    · subst hx
      rw [set_streams_self]
      exact { hxs with
        ready := hself.1, lp := hself.2, off_of_busy := hbusy
        dead := fun hd => ⟨hdead hd, (hxs.dead hd).2⟩ }
    · rw [set_streams_of_ne hx]
      exact { hxs with ready := (hothers x hx).1.trans hxs.ready, lp := (hothers x hx).2.trans hxs.lp }

theorem Inv.enqueue (h : s.Inv M busy) (hlive : (s.streams i).live = true) (hbusy : busy ≠ some i) :
    (s.enqueue i).Inv M busy := by
  unfold Sched.enqueue
  split
  case isFalse => exact h
  case isTrue hoff =>
  have hid := h.stream i
  have hnotin : i ∉ s.ready := by simp [hid.ready, hoff.1]
  refine h.relist ?_ h.lpNodup (fun x hx => ⟨by simp [hx], .rfl⟩) ⟨by simp, ?_⟩ (fun hc => absurd hc hbusy)
    fun hdead => by simp [hlive] at hdead
  · simpa [List.nodup_append] using ⟨h.readyNodup, fun a ha hc => hnotin (hc ▸ ha)⟩
  · simp [hid.lp, hoff.1]

theorem Inv.lpEnqueue (h : s.Inv M busy) (hlive : (s.streams i).live = true) (hbusy : busy ≠ some i) :
    (s.lpEnqueue i).Inv M busy := by
  unfold Sched.lpEnqueue
  split
  case isTrue => exact h
  case isFalse =>
  split
  case isTrue => exact h
  case isFalse =>
  split
  case isFalse => exact h
  case isTrue hoff =>
  have hid := h.stream i
  have hnotin : i ∉ s.lp := by simp [hid.lp, hoff]
  refine h.relist h.readyNodup ?_ (fun x hx => ⟨.rfl, by simp [hx]⟩) ⟨?_, by simp⟩ (fun hc => absurd hc hbusy)
    fun hdead => by simp [hlive] at hdead
  · simpa [List.nodup_append] using ⟨h.lpNodup, fun a ha hc => hnotin (hc ▸ ha)⟩
  · simp [hid.ready, hoff]

theorem Inv.wake (h : s.Inv M busy) (hlive : (s.streams i).live = true) (hbusy : busy ≠ some i) :
    (s.wake i).Inv M busy := by
  unfold Sched.wake
  split
  · exact h.enqueue hlive hbusy
  split
  · exact h.lpEnqueue hlive hbusy
  · exact h.enqueue hlive hbusy

theorem Inv.detach (h : s.Inv M busy) :
    { s with drrActive := if s.drrActive = some i then none else s.drrActive }.Inv M busy where
  __ := h
  stream x := by
    have hx := h.stream x
    have hsub : (if s.drrActive = some i then none else s.drrActive) = some x →
        s.drrActive = some x := by
      split
      · nofun
      · exact fun hc => hc
    exact { hx with
      busy_of_active := fun hc => hx.busy_of_active (hsub hc)
      open_of_active := fun hc => hx.open_of_active (hsub hc) }

theorem Inv.markClosed (h : s.Inv M busy) (hlive : (s.streams i).live = true)
    (hinit : (s.streams i).state = .init → busy ≠ some i) : (s.markClosed i).Inv M busy := by
  unfold Sched.markClosed
  dsimp only
  have hd := h.detach (i := i)
  have hid := hd.stream i
  have hset : ({ s with drrActive := if s.drrActive = some i then none else s.drrActive }.set i
      { s.streams i with
        state := .closed, sendQueue := []
        tombstone := !((s.streams i).state == StreamState.init) }).Inv M busy := by
    refine hd.set { hid with
      open_of_active := ?_, frames := nofun, idle := fun _ hc => absurd rfl hc, tomb := fun _ => rfl, dead := ?_ }
    · dsimp only
      intro hc
      split at hc
      · cases hc
      · exact absurd hc ‹_›
    · intro hdead
      rw [show (s.streams i).live = true from hlive] at hdead
      cases hdead
  split
  case isTrue hwas =>
    refine hset.wake ?_ (hinit (beq_iff_eq.mp hwas))
    rw [set_streams_self]
    exact hlive
  case isFalse => exact hset

theorem markClosed_of_opened (h : (s.streams i).state ≠ .init) :
    s.markClosed i =
      { s with drrActive := if s.drrActive = some i then none else s.drrActive }.set i
        { s.streams i with state := .closed, sendQueue := [], tombstone := true } := by
  have hbeq : ((s.streams i).state == StreamState.init) = false := beq_eq_false_iff_ne.mpr h
  simp [Sched.markClosed, hbeq]

/-- A scheduler without streams. -/
theorem blank_inv (hM : 0 < M) (hmax : s.maxPayload = M) (hstreams : ∀ x, s.streams x = {})
    (hready : s.ready = []) (hlp : s.lp = []) (hactive : s.drrActive = none) : s.Inv M none where
  maxPayload := hmax
  readyNodup := hready ▸ List.nodup_nil
  lpNodup := hlp ▸ List.nodup_nil
  stream x := by
    rw [hstreams, hready, hlp, hactive]
    exact ⟨by simp, by simp, nofun, nofun, nofun, nofun, Nat.mul_pos (by decide) hM, fun _ _ => hM,
      nofun, fun _ => ⟨rfl, rfl, nofun⟩⟩

/-! ### A call of the scheduler -/

/-- `s'` differs from `s` in the record of one stream, in what a frame of `payload` bytes changes, and in
that the stream may have lost the budget. -/
structure Sent (s s' : Sched) (i payload : Nat) : Prop where
  established : s'.established = s.established
  nodelay : s'.nodelay = s.nodelay
  maxPayload : s'.maxPayload = s.maxPayload
  ready : s'.ready = s.ready
  others : ∀ x, x ≠ i → s'.streams x = s.streams x
  live : (s'.streams i).live = (s.streams i).live
  deficit : (s'.streams i).deficit = (s.streams i).deficit
  bytesSent : (s'.streams i).bytesSent = (s.streams i).bytesSent + payload
  open_of_queued : (s'.streams i).sendQueue ≠ [] →
    (s'.streams i).sendQueue = (s.streams i).sendQueue ∧ (s'.streams i).state.Opened

theorem Sent.of_set (hlive : t.live = (s.streams i).live) (hdeficit : t.deficit = (s.streams i).deficit)
    (hbytes : t.bytesSent = (s.streams i).bytesSent + payload)
    (hopen : t.sendQueue ≠ [] → t.sendQueue = (s.streams i).sendQueue ∧ t.state.Opened) :
    Sent s ({ s with drrActive := active }.set i t) i payload := by
  refine ⟨rfl, rfl, rfl, rfl, fun x hx => set_streams_of_ne hx t, ?_, ?_, ?_, ?_⟩ <;>
    rw [set_streams_self]
  · exact hlive
  · exact hdeficit
  · exact hbytes
  · exact hopen

theorem sendPush_spec (hM : 0 < M) (h : s.Inv M (some i)) (hopen : (s.streams i).state.Opened)
    (payload : Nat) (fin : FinEffect) :
    ((s.sendPush i payload fin).established = false ∧ (s.sendPush i payload fin).Inv M none ∧
        (s.sendPush i payload fin).drrActive = none ∧
        ∀ x, (s.sendPush i payload fin).streams x = {}) ∨
      Sent s (s.sendPush i payload fin) i payload ∧
        (s.sendPush i payload fin).Inv M (some i) := by
  have hid := h.stream i
  have hedit : ∀ st : StreamState, st.Opened →
      (s.set i { s.streams i with
        state := st
        credit := (s.streams i).credit - payload
        bytesSent := (s.streams i).bytesSent + payload
        unackedBytes := (s.streams i).unackedBytes + payload }).Inv M (some i) := by
    intro st hst
    exact h.edit rfl rfl rfl rfl hid.frames (fun hc => absurd hc hopen.2.2) fun _ => hst
  have hlive : (s.streams i).live = true := by
    by_contra hdead
    exact (hid.dead (Bool.not_eq_true _ ▸ hdead)).2.2 rfl
  unfold sendPush
  cases fin with
  | none =>
    right
    exact ⟨Sent.of_set rfl rfl rfl fun _ => ⟨rfl, hopen⟩, hedit _ hopen⟩
  | halfClosed =>
    right
    have hfinWait : StreamState.finWait.Opened := by decide
    have hclosing : StreamState.closing.Opened := by decide
    unfold markFinSent
    rw [set_streams_self]
    dsimp only
    split
    · rw [set_set]
      exact ⟨Sent.of_set rfl rfl rfl fun _ => ⟨rfl, hfinWait⟩, hedit .finWait hfinWait⟩
    · rw [set_set]
      exact ⟨Sent.of_set rfl rfl rfl fun _ => ⟨rfl, hclosing⟩, hedit .closing hclosing⟩
    · exact ⟨Sent.of_set rfl rfl rfl fun _ => ⟨rfl, hopen⟩, hedit _ hopen⟩
  | closed =>
    right
    have hinv := (hedit _ hopen).markClosed (i := i) (by rw [set_streams_self]; exact hlive) (by
      rw [set_streams_self]
      exact fun hc => absurd hc hopen.1)
    refine ⟨?_, hinv⟩
    show Sent s (Sched.markClosed _ i) i payload
    rw [markClosed_of_opened (by rw [set_streams_self]; exact hopen.1), set_streams_self]
    rw [set_active_set]
    apply Sent.of_set
    · rfl
    · rfl
    · rfl
    · exact fun hc => absurd rfl hc
  | drained =>
    left
    exact ⟨rfl, blank_inv hM h.maxPayload (fun _ => rfl) rfl rfl rfl, rfl, fun _ => rfl⟩

@[simp] theorem enqueue_drrActive : (s.enqueue i).drrActive = s.drrActive := by
  unfold Sched.enqueue
  split <;> rfl

@[simp] theorem lpEnqueue_drrActive : (s.lpEnqueue i).drrActive = s.drrActive := by
  unfold Sched.lpEnqueue
  split
  · rfl
  split
  · rfl
  split <;> rfl

@[simp] theorem lpEnqueue_established : (s.lpEnqueue i).established = s.established := by
  unfold Sched.lpEnqueue
  split
  · rfl
  split
  · rfl
  split <;> rfl

@[simp] theorem wake_drrActive : (s.wake i).drrActive = s.drrActive := by
  unfold Sched.wake
  split
  · exact enqueue_drrActive
  split
  · exact lpEnqueue_drrActive
  · exact enqueue_drrActive

theorem Inv.live (h : s.Inv M (some i)) : (s.streams i).live = true := by
  by_contra hdead
  exact ((h.stream i).dead (Bool.not_eq_true _ ▸ hdead)).2.2 rfl

theorem Inv.setDeficit (h : s.Inv M (some i)) {d : Nat} (hd : d < 2 * M) :
    (s.set i { s.streams i with deficit := d }).Inv M (some i) := by
  have hid := h.stream i
  exact h.set { hid with below := hd, idle := fun hc => absurd rfl hc }

theorem drrContinue_inv (hM : 0 < M) (h : s.Inv M (some i))
    (hopen : (s.streams i).sendQueue ≠ [] → (s.streams i).state.Opened) :
    (s.drrContinue i).Inv M (s.drrContinue i).drrActive := by
  unfold drrContinue
  have hnone : { s with drrActive := none }.Inv M (some i) := h.setActive (.inl rfl)
  split
  next =>
    have hclear := hnone.setDeficit (d := 0) (Nat.mul_pos (by decide) hM)
    refine hclear.park rfl fun _ => ?_
    rw [set_streams_self]
    exact hM
  next next rest hqueue =>
    have hst := hopen (by rw [hqueue]; exact List.cons_ne_nil _ _)
    split
    · exact h.setActive (.inr ⟨rfl, hst⟩)
    split
    · exact h.setActive (.inr ⟨rfl, hst⟩)
    next hshort =>
      have hnext := (h.stream i).frames next (by rw [hqueue]; exact List.mem_cons_self)
      rw [wake_drrActive]
      refine (hnone.park rfl fun _ => ?_).wake h.live nofun
      show (s.streams i).deficit < M
      omega

/-- The deficit after the top-up covers the frame. -/
theorem topUp_spec (hmax : M ≤ 65535) (h : s.Inv M (some i))
    (hfresh : fresh = true → (s.streams i).deficit < M) (hpayload : payload ≤ M) :
    ∃ d, s.topUp i payload fresh = s.set i { s.streams i with deficit := d } ∧ payload ≤ d ∧
      d < 2 * M ∧
      d = (s.streams i).deficit +
        if fresh = true ∨ (s.streams i).deficit < payload then M else 0 := by
  have hbelow := (h.stream i).below
  unfold topUp
  split
  next hshort =>
    have hd : (s.streams i).deficit < M := by
      rcases hshort with hf | hlt
      · exact hfresh hf
      · omega
    refine ⟨(s.streams i).deficit + M, ?_, by omega, by omega, rfl⟩
    rw [addQuantum, h.maxPayload, Nat.mod_eq_of_lt (by omega)]
  next hlong =>
    refine ⟨(s.streams i).deficit, ?_, by omega, hbelow, rfl⟩
    simp [set]

theorem deduct_eq {d : Nat} (hd : (s.streams i).deficit = d) (hle : payload ≤ d) (hlt : d < 2 ^ 32) :
    s.deduct i payload = s.set i { s.streams i with deficit := d - payload } := by
  have hmod : (d + 2 ^ 32 - payload) % 2 ^ 32 = d - payload := by omega
  rw [deduct, hd, hmod]

theorem stage_inv (hM : 0 < M) (hmax : M ≤ 65535) (h : s.Inv M (some i)) (hopen : (s.streams i).state.Opened)
    (hfresh : fresh = true → (s.streams i).deficit < M) (hpayload : payload ≤ M) (fin : FinEffect) :
    payload ≤ (s.stage i payload fresh fin).1.budget ∧
      (s.stage i payload fresh fin).1.budget < 2 * M ∧
      (s.established = true →
        (s.stage i payload fresh fin).2.Inv M (s.stage i payload fresh fin).2.drrActive) := by
  obtain ⟨d, htop, hle, hlt, -⟩ := topUp_spec hmax h hfresh hpayload
  have hset : (s.set i { s.streams i with deficit := d }).Inv M (some i) := h.setDeficit hlt
  have hpush := sendPush_spec hM hset (by rw [set_streams_self]; exact hopen) payload fin
  unfold stage
  rw [htop]
  dsimp only
  generalize hs' : (s.set i { s.streams i with deficit := d }).sendPush i payload fin = s' at hpush ⊢
  rw [set_streams_self]
  rcases hpush with ⟨hest', hinv, hactive, -⟩ | ⟨hsent, hinv⟩
  · rw [hest']
    refine ⟨hle, hlt, fun _ => ?_⟩
    rw [if_neg (by decide), hactive]
    exact hinv
  · split
    next =>
      refine ⟨hle, hlt, fun _ => ?_⟩
      have hd : (s'.streams i).deficit = d := by rw [hsent.deficit, set_streams_self]
      rw [deduct_eq hd hle (by omega)]
      refine drrContinue_inv hM (hinv.setDeficit (by omega)) ?_
      rw [set_streams_self]
      exact fun hne => (hsent.open_of_queued hne).2
    next hest' =>
      refine ⟨hle, hlt, fun hest => absurd ?_ hest'⟩
      rw [hsent.established]
      exact hest

theorem serve_of_opened (h : (s.streams i).state.Opened) (fresh : Bool) (fin : FinEffect) :
    s.serve i fresh fin =
      match (s.streams i).dequeueSend s.nodelay s.maxPayload with
      | (some payload, t) =>
        .staged ((s.set i t).stage i payload fresh fin).1 ((s.set i t).stage i payload fresh fin).2
      | (none, t) =>
        .again (({ s.set i t with drrActive := none }.clearDeficit i).markFinSent i fin) := by
  obtain ⟨hinit, hsyn, hclosed⟩ := h
  unfold serve
  split
  · exact absurd ‹_› hclosed
  · exact absurd ‹_› hinit
  · exact absurd ‹_› hsyn
  · rfl

/-- What one turn of the loop leaves behind. -/
structure Turned (M : Nat) (s : Sched) : Prop where
  inv : s.Inv M s.drrActive
  established : s.established = true ∨ s.ready = [] ∧ s.drrActive = none

theorem markFinSent_turned (hM : 0 < M) (h : s.Inv M none) (hactive : s.drrActive = none)
    (hest : s.established = true) (hlive : (s.streams i).live = true)
    (hopen : (s.streams i).state.Opened) (fin : FinEffect) : Turned M (s.markFinSent i fin) := by
  have hid := h.stream i
  have hedit : ∀ st : StreamState, Turned M (s.set i { s.streams i with state := st }) := by
    intro st
    refine ⟨?_, .inl hest⟩
    rw [set_drrActive, hactive]
    refine h.edit rfl rfl rfl rfl hid.frames (fun hc => absurd hc hopen.2.2) ?_
    rw [hactive]
    nofun
  unfold markFinSent
  cases fin with
  | none => exact ⟨hactive ▸ h, .inl hest⟩
  | halfClosed =>
    dsimp only
    split
    · exact hedit .finWait
    · exact hedit .closing
    · exact ⟨hactive ▸ h, .inl hest⟩
  | closed =>
    have hinv := h.markClosed (i := i) hlive nofun
    rw [markClosed_of_opened hopen.1, hactive] at hinv
    dsimp only
    rw [markClosed_of_opened hopen.1, hactive]
    exact ⟨hinv, .inl hest⟩
  | drained => exact ⟨blank_inv hM h.maxPayload (fun _ => rfl) rfl rfl rfl, .inr ⟨rfl, rfl⟩⟩

theorem stage_frame (s : Sched) (i payload : Nat) (fresh : Bool) (fin : FinEffect) :
    (s.stage i payload fresh fin).1.id = i ∧ (s.stage i payload fresh fin).1.payload = payload := by
  unfold stage
  dsimp only
  split <;> exact ⟨rfl, rfl⟩

theorem serve_staged
    (h : s.serve i fresh fin = .staged frame s') :
    ∃ payload rest, (s.streams i).state.Opened ∧ (s.streams i).sendQueue = payload :: rest ∧
      ((s.set i { s.streams i with nagleFlush := false, sendQueue := rest }).stage i payload fresh
        fin) = (frame, s') := by
  by_cases hopen : (s.streams i).state.Opened
  · rw [serve_of_opened hopen] at h
    split at h
    next payload t hdeq =>
      obtain ⟨rest, hqueue, rfl⟩ := SchedStream.dequeueSend_some hdeq
      cases h
      exact ⟨payload, rest, hopen, hqueue, rfl⟩
    next => cases h
  · exfalso
    unfold serve at h
    split at h
    · cases h
    · cases h
    · cases h
    · exact hopen ⟨‹_›, ‹_›, ‹_›⟩

theorem serve_staged_inv (hM : 0 < M) (hmax : M ≤ 65535) (h : s.Inv M (some i))
    (hest : s.established = true) (hfresh : fresh = true →
      (s.streams i).state ≠ .closed → (s.streams i).deficit < M)
    (hserve : s.serve i fresh fin = .staged frame s') :
    frame.payload ≤ frame.budget ∧ frame.budget < 2 * M ∧ s'.Inv M s'.drrActive := by
  obtain ⟨payload, rest, hopen, hqueue, hstage⟩ := serve_staged hserve
  have hid := h.stream i
  have hframes : ∀ p ∈ rest, 0 < p ∧ p ≤ M := fun p hp =>
    hid.frames p (by rw [hqueue]; exact List.mem_cons_of_mem _ hp)
  have hset := h.edit (t := { s.streams i with nagleFlush := false, sendQueue := rest })
    rfl rfl rfl rfl hframes (fun hc => hc) hid.open_of_active
  have hpayload := hid.frames payload (by rw [hqueue]; exact List.mem_cons_self)
  have hinv := stage_inv hM hmax hset (by rw [set_streams_self]; exact hopen) (by
    rw [set_streams_self]
    exact fun hf => hfresh hf hopen.2.2) hpayload.2 fin
  have hframe := (stage_frame (s.set i { s.streams i with nagleFlush := false, sendQueue := rest }) i
    payload fresh fin).2
  rw [hstage] at hinv hframe
  exact ⟨hframe ▸ hinv.1, hinv.2.1, hinv.2.2 hest⟩

theorem serve_again_inv (hM : 0 < M) (h : s.Inv M (some i)) (hest : s.established = true)
    (hfresh : fresh = true → (s.streams i).state ≠ .closed → (s.streams i).deficit < M)
    (hheld : fresh = false → s.drrActive = some i)
    (hserve : s.serve i fresh fin = .again s') : Turned M s' := by
  have hid := h.stream i
  have hlive := h.live
  have hnone : { s with drrActive := none }.Inv M (some i) := h.setActive (.inl rfl)
  -- a stream that is not open for data came from the FIFO or is closed
  have hpark : ¬(s.streams i).state.Opened → { s with drrActive := none }.Inv M none := by
    intro hopen
    refine hnone.park rfl fun hstate => ?_
    cases fresh with
    | true => exact hfresh rfl hstate
    | false => exact absurd (hid.open_of_active (hheld rfl)) hopen
  have hlp : ¬(s.streams i).state.Opened → Turned M ({ s with drrActive := none }.lpEnqueue i) := by
    intro hopen
    refine ⟨?_, .inl ?_⟩
    · rw [lpEnqueue_drrActive]
      exact (hpark hopen).lpEnqueue hlive nofun
    · rw [lpEnqueue_established]
      exact hest
  by_cases hopen : (s.streams i).state.Opened
  · rw [serve_of_opened hopen] at hserve
    split at hserve
    next => cases hserve
    next t hdeq =>
      cases hserve
      obtain ⟨b, rfl⟩ := SchedStream.dequeueSend_none hdeq
      have hset : (s.set i { s.streams i with nagleFlush := b }).Inv M (some i) :=
        h.edit rfl rfl rfl rfl hid.frames (fun hc => hc) hid.open_of_active
      have hclear := (hset.setActive (.inl rfl)).setDeficit (d := 0) (Nat.mul_pos (by decide) hM)
      refine markFinSent_turned hM (hclear.park rfl fun _ => ?_) rfl hest ?_ ?_ fin
      · rw [set_streams_self]
        exact hM
      · exact hclear.live
      · simpa [clearDeficit] using hopen
  · unfold serve at hserve
    split at hserve
    · cases hserve
      dsimp only
      split
      · exact ⟨hpark hopen, .inl hest⟩
      · exact hlp hopen
    · cases hserve
      exact hlp hopen
    · cases hserve
      exact ⟨hpark hopen, .inl hest⟩
    · exact absurd ⟨‹_›, ‹_›, ‹_›⟩ hopen

theorem Inv.take (h : s.Inv M none) (hactive : s.drrActive = none) (hqueue : (s.streams i).schedQueue = .none)
    (hlive : (s.streams i).live = true) : s.Inv M (some i) where
  __ := h
  stream x := by
    have hx := h.stream x
    rw [hactive]
    refine ⟨hx.ready, hx.lp, nofun, fun hc => ?_, nofun, hx.frames, hx.below, fun _ => hx.idle nofun, hx.tomb,
      fun hdead => ⟨(hx.dead hdead).1, (hx.dead hdead).2.1, fun hc => ?_⟩⟩ <;> cases hc
    · exact hqueue
    · simp [hlive] at hdead

theorem Inv.dequeue (h : s.Inv M none) (hready : s.ready = i :: rest) (hactive : s.drrActive = none) :
    { s.set i { s.streams i with schedQueue := .none } with ready := rest }.Inv M (some i) := by
  have hnodup := h.readyNodup
  rw [hready, List.nodup_cons] at hnodup
  have hid := h.stream i
  have hdrr : (s.streams i).schedQueue = .drr := hid.ready.1 (by rw [hready]; exact List.mem_cons_self)
  have hlisted : { s.set i { s.streams i with schedQueue := .none } with ready := rest }.Inv M none :=
    h.relist hnodup.2 h.lpNodup (fun x hx => ⟨by simp [hready, hx], .rfl⟩) ⟨by simp [hnodup.1], by simp [hid.lp, hdrr]⟩
      nofun fun _ => rfl
  refine hlisted.take hactive (by simp) ?_
  cases hlive : (s.streams i).live with
  | true => simp [hlive]
  | false => simp [(hid.dead hlive).1] at hdrr

theorem pick_inv (h : s.Inv M s.drrActive) (hpick : s.pick = some (i, s')) :
    s'.Inv M (some i) ∧ s'.established = s.established ∧
      (s.drrActive.isNone = true → (s'.streams i).state ≠ .closed → (s'.streams i).deficit < M) ∧
      (s.drrActive.isNone = false → s'.drrActive = some i) := by
  unfold pick at hpick
  split at hpick
  next hactive =>
    cases hpick
    rw [hactive] at h
    refine ⟨h, rfl, ?_, fun _ => hactive⟩
    rw [hactive]
    nofun
  next => cases hpick
  next head rest hactive hready =>
    cases hpick
    rw [hactive] at h
    refine ⟨h.dequeue hready hactive, rfl, fun _ => ?_, ?_⟩
    · dsimp only
      rw [set_streams_self]
      exact (h.stream i).idle nofun
    · rw [hactive]
      nofun

/-- Every call keeps the queues and the deficits, and charges a frame to a deficit that covers it. -/
theorem nextData_inv (hM : 0 < M) (hmax : M ≤ 65535) {fins : List FinEffect} {r : Option Staged}
    (h : Turned M s) (hnext : s.nextData fins = some (r, s')) :
    s'.Inv M s'.drrActive ∧ ∀ frame, r = some frame →
      frame.payload ≤ frame.budget ∧ frame.budget < 2 * M := by
  induction fins generalizing s with
  | nil => cases hnext
  | cons fin fins ih =>
    unfold nextData at hnext
    split at hnext
    next =>
      cases hnext
      exact ⟨h.inv, nofun⟩
    next i t hpick =>
      obtain ⟨hinv, hest, hfresh, hheld⟩ := pick_inv h.inv hpick
      have hs : s.established = true := by
        rcases h.established with hs | ⟨hready, hactive⟩
        · exact hs
        · rw [pick, hready, hactive] at hpick
          cases hpick
      split at hnext
      next frame s'' hserve =>
        cases hnext
        obtain ⟨hle, hlt, hs''⟩ := serve_staged_inv hM hmax hinv (hest.trans hs) hfresh hserve
        refine ⟨hs'', fun f hf => ?_⟩
        cases hf
        exact ⟨hle, hlt⟩
      next s'' hserve =>
        exact ih (serve_again_inv hM hinv (hest.trans hs) hfresh hheld hserve) hnext

/-! ### The rest of the program -/

theorem wake_of_active (h : s.drrActive = some i) : s.wake i = s := by
  have henqueue : s.enqueue i = s := if_neg fun hc => hc.2.1 h
  have hlp : s.lpEnqueue i = s := if_pos (.inr h)
  unfold Sched.wake
  rw [henqueue, hlp, ite_self, ite_self]

theorem act_wake_inv (h : s.Inv M s.drrActive) (hlive : (s.streams i).live = true) :
    (s.wake i).Inv M (s.wake i).drrActive := by
  rw [wake_drrActive]
  by_cases hactive : s.drrActive = some i
  · rw [wake_of_active hactive]
    exact h
  · exact h.wake hlive hactive

theorem markClosed_inv (h : s.Inv M s.drrActive) (hlive : (s.streams i).live = true) :
    (s.markClosed i).Inv M (s.markClosed i).drrActive := by
  have hinit : (s.streams i).state = .init → s.drrActive ≠ some i := fun hst hactive =>
    ((h.stream i).open_of_active hactive).1 hst
  have hclosed := h.markClosed hlive hinit
  by_cases hactive : s.drrActive = some i
  · have hopen := (h.stream i).open_of_active hactive
    rw [hactive] at hclosed
    have heq := markClosed_of_opened hopen.1
    rw [if_pos hactive] at heq
    rw [heq] at hclosed ⊢
    refine hclosed.park rfl fun hc => ?_
    rw [set_streams_self] at hc
    exact absurd rfl hc
  · have hsame : (s.markClosed i).drrActive = s.drrActive := by
      unfold Sched.markClosed
      rw [if_neg hactive]
      dsimp only
      split
      · rw [wake_drrActive, set_drrActive]
      · rfl
    rw [hsame]
    exact hclosed

theorem advances_opened (h : st.advances st' = true) (hst : st.Opened) : st'.Opened := by
  cases st <;> cases st' <;> revert h hst <;> decide

theorem not_closed_of_advances (h : st.advances st' = true) : st ≠ .closed := by
  rintro rfl
  cases h

theorem Inv.lpDequeue (h : s.Inv M busy) (hlp : s.lp = i :: rest) :
    { s.set i { s.streams i with schedQueue := .none } with lp := rest }.Inv M busy := by
  have hnodup := h.lpNodup
  rw [hlp, List.nodup_cons] at hnodup
  have hid := h.stream i
  have hqueue : (s.streams i).schedQueue = .lp := hid.lp.1 (by rw [hlp]; exact List.mem_cons_self)
  exact h.relist h.readyNodup hnodup.2 (fun x hx => ⟨.rfl, by simp [hlp, hx]⟩)
    ⟨by simp [hid.ready, hqueue], by simp [hnodup.1]⟩ (fun _ => rfl) fun _ => rfl

theorem drainLp_inv (hM : 0 < M) (h : s.Inv M s.drrActive) (held sent : Bool) :
    (s.drainLp held sent).Inv M (s.drainLp held sent).drrActive := by
  unfold drainLp
  split
  · exact h
  next i rest hlp =>
  have hid := h.stream i
  have hqueue : (s.streams i).schedQueue = .lp := hid.lp.1 (by rw [hlp]; exact List.mem_cons_self)
  have hbusy : s.drrActive ≠ some i := fun hc => by
    rw [hid.off_of_busy hc] at hqueue
    cases hqueue
  have hlive : (s.streams i).live = true := by
    by_contra hdead
    rw [(hid.dead (by simpa using hdead)).1] at hqueue
    cases hqueue
  have hpop := h.lpDequeue hlp
  have hnodup := h.lpNodup
  rw [hlp, List.nodup_cons] at hnodup
  have hout : i ∉ s.ready := fun hmem => by
    rw [hid.ready.1 hmem] at hqueue
    cases hqueue
  dsimp only
  rw [set_streams_self]
  generalize hs1 : { s.set i { s.streams i with schedQueue := .none } with lp := rest } = s1 at hpop ⊢
  have hactive : s1.drrActive = s.drrActive := by rw [← hs1, set_drrActive]
  have hstream : s1.streams i = { s.streams i with schedQueue := .none } := by
    rw [← hs1]
    exact set_streams_self _
  have hset : ∀ t : SchedStream, t.live = (s.streams i).live → t.schedQueue = .none →
      t.tombstone = (s.streams i).tombstone → t.deficit = (s.streams i).deficit →
      (∀ p ∈ t.sendQueue, 0 < p ∧ p ≤ M) → ((s.streams i).state = .closed → t.state = .closed) →
      (s1.set i t).Inv M (s1.set i t).drrActive := by
    intro t h1 h2 h3 h4 h5 h6
    rw [set_drrActive, hactive]
    refine hpop.edit ?_ ?_ ?_ ?_ h5 ?_ fun hc => absurd (hactive ▸ hc) hbusy <;> rw [hstream]
    exacts [h1, h2, h3, h4, h6]
  split
  next =>
    split
    · exact hactive ▸ hpop
    · rw [set_drrActive, hactive]
      refine hpop.set ⟨?_, ?_, ?_, fun _ => rfl, ?_, nofun, Nat.mul_pos (by decide) hM, fun _ _ => hM, nofun,
        fun _ => ⟨rfl, rfl, hbusy⟩⟩
      · rw [← hs1]
        simp [hout]
      · rw [← hs1]
        simp [hnodup.1]
      · rw [hactive]
        exact fun hc => hc
      · rw [hactive]
        exact fun hc => absurd hc hbusy
  next hinit =>
    split
    next payload t hdeq =>
      obtain ⟨rest', hq, rfl⟩ := SchedStream.dequeueSend_some hdeq
      refine hset _ rfl rfl rfl rfl (fun p hp => hid.frames p ?_) fun hc => ?_
      · rw [show (s.streams i).sendQueue = payload :: rest' from hq]
        exact List.mem_cons_of_mem _ hp
      · cases hc.symm.trans hinit
    next t hdeq =>
      obtain ⟨b, rfl⟩ := SchedStream.dequeueSend_none hdeq
      split
      · exact hset _ rfl rfl rfl rfl hid.frames fun hc => nomatch hc.symm.trans hinit
      · refine markClosed_inv (hset _ rfl rfl rfl rfl hid.frames fun hc => hc) ?_
        rw [set_streams_self]
        exact hlive
  next => exact hactive ▸ hpop

theorem act_inv (hM : 0 < M) (h : s.Inv M s.drrActive) (a : SchedAct) :
    (s.act a).Inv M (s.act a).drrActive := by
  cases a with
  | opened i credit active =>
    unfold act
    dsimp only
    split
    · exact h
    next hnew =>
      have hid := h.stream i
      have hdead := hid.dead (by simpa using hnew)
      refine h.set ⟨?_, ?_, hid.busy_of_active, fun _ => rfl, fun hc => ?_, nofun,
        Nat.mul_pos (by decide) hM, fun _ _ => hM, nofun, nofun⟩
      · rw [hid.ready, hdead.1]
      · rw [hid.lp, hdead.1]
      · exact absurd hc hdead.2.2
  | queueSend i payload =>
    unfold act
    dsimp only
    split
    next hok =>
      have hid := h.stream i
      refine h.edit rfl rfl rfl rfl ?_ (fun hc => hc) hid.open_of_active
      intro p hp
      rcases List.mem_append.1 hp with hp | hp
      · exact hid.frames p hp
      · cases List.mem_singleton.1 hp
        exact ⟨hok.2.1, h.maxPayload ▸ hok.2.2.1⟩
    · exact h
  | wake i =>
    unfold act
    dsimp only
    split
    next hlive => exact act_wake_inv h hlive
    · exact h
  | credited i credit unackedBytes =>
    exact h.edit rfl rfl rfl rfl (h.stream i).frames (fun hc => hc) (h.stream i).open_of_active
  | released i =>
    exact h.edit rfl rfl rfl rfl (h.stream i).frames (fun hc => hc) (h.stream i).open_of_active
  | advanced i st =>
    unfold act
    dsimp only
    split
    next hadv =>
      exact h.edit rfl rfl rfl rfl (h.stream i).frames
        (fun hc => absurd hc (not_closed_of_advances hadv))
        fun hc => advances_opened hadv ((h.stream i).open_of_active hc)
    · exact h
  | closed i =>
    unfold act
    dsimp only
    split
    next hlive => exact markClosed_inv h hlive.1
    · exact h
  | tombstoneExpired i =>
    unfold act
    dsimp only
    split
    next htomb =>
      have hid := h.stream i
      have hset : (s.set i { s.streams i with tombstone := false }).Inv M s.drrActive :=
        h.set { hid with tomb := nofun, dead := fun hdead => ⟨(hid.dead hdead).1, rfl, (hid.dead hdead).2.2⟩ }
      refine act_wake_inv hset ?_
      rw [set_streams_self]
      by_contra hdead
      have := (hid.dead (by simpa using hdead)).2.1
      rw [htomb] at this
      cases this
    · exact h
  | drainLp held sent =>
    unfold act
    dsimp only
    split
    · exact drainLp_inv hM h held sent
    · exact h
  | freeStreams => exact blank_inv hM h.maxPayload (fun _ => rfl) rfl rfl rfl
  | sessionState established => exact { h with }
  | setConfig nodelay => exact { h with }

theorem step_inv (hM : 0 < M) (hmax : M ≤ 65535) (h : s.Inv M s.drrActive) (e : SchedEvent) :
    (s.step e).Inv M (s.step e).drrActive := by
  cases e with
  | next fins =>
    unfold step
    dsimp only
    split
    next hest =>
      split
      next r s' hnext => exact (nextData_inv hM hmax ⟨h, .inl hest⟩ hnext).1
      next => exact h
    · exact h
  | act a => exact act_inv hM h a

/-- The queues and the deficits are in order in every state that is reached. -/
theorem run_inv (hM : 0 < M) (hmax : M ≤ 65535) (h : s.Inv M s.drrActive) (es : List SchedEvent) :
    (s.run es).Inv M (s.run es).drrActive :=
  runFrom_invariant_always (fun s : Sched => s.Inv M s.drrActive) (fun _ e hs => step_inv hM hmax hs e) h es

theorem new_inv (hM : 0 < M) (nodelay : Bool) : (new M nodelay).Inv M (new M nodelay).drrActive :=
  blank_inv hM rfl (fun _ => rfl) rfl rfl rfl

end Sched

end Multiplexd
