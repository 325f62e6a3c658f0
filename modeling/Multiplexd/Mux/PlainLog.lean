import Multiplexd.Mux.Subframes
import Multiplexd.Mux.Transport

/-!
# The log as a plain list

What the ring is for: a list of frames, to which a written entry appends its frames and from which a
confirmation drops frames at the front. The ring with its counters refines that list, however the
entries were packed, written in parts and trimmed.
-/

namespace Multiplexd

/-- The log without its ring: the unconfirmed frames, and the serial of the last confirmation. -/
structure PlainLog where
  frames : List Item
  serial : Nat

namespace PlainLog

def track (l : PlainLog) : List Item → PlainLog
  | [] => l
  | first :: rest =>
    if first.isHello then l else { l with frames := l.frames ++ (first :: rest).filter Item.tracked }

/-- `n` frames have been confirmed. -/
def trim (l : PlainLog) (n : Nat) : PlainLog := ⟨l.frames.drop n, serialAdd32 l.serial n⟩

theorem track_eq (l : PlainLog) (f : MuxFrame) : l.track f.items = { l with frames := l.frames ++ f.kept } := by
  unfold track MuxFrame.kept MuxFrame.startsHello
  split
  next h => simp [h]
  next first rest h => by_cases hhello : first.isHello = true <;> simp [h, hhello]

theorem trim_trim (l : PlainLog) (m n : Nat) : (l.trim m).trim n = l.trim (m + n) := by
  simp [trim, serialAdd32, Nat.add_assoc]

end PlainLog

namespace Session

def unackedList (ss : Session) : List Item :=
  match ss.ring with
  | [] => []
  | f :: fs => itemsFrom f.items ss.partialOffset ++ fs.flatMap MuxFrame.items

/-- What the ring stands for. -/
def plainLog (ss : Session) : PlainLog := ⟨ss.unackedList, ss.lastAckRecv % 2 ^ 32⟩

/-- The ring stands for `l`, and its totals are those of `l`. -/
structure Refines (ss : Session) (l : PlainLog) : Prop where
  plainLog_eq : ss.plainLog = l
  frames_eq : ss.frames = l.frames.length
  bytes_eq : ss.bytes = itemsPayload l.frames

variable {ss ss' s : Session}

theorem unackedList_eq (h : ss.LogInv) : ss.unackedList = ringLive ss.ring := by
  have hoffset := h.offset_eq
  have htail := h.tail
  unfold unackedList
  split
  next hring => rw [hring, ringLive_nil]
  next f fs hring =>
    rw [hring] at hoffset htail
    rw [hoffset, hring, ringLive_cons]
    have hrest : fs.flatMap MuxFrame.items = ringLive fs :=
      List.flatMap_congr fun g hg => (MuxFrame.live_of_count_eq (htail g hg)).symm
    rw [hrest]
    exact congrArg (· ++ ringLive fs) (itemsFrom_confirmedLen f)

theorem unackedList_eq_drop (h : ss.LogInv) : ss.unackedList = ss.logged.drop ss.acked := by
  rw [unackedList_eq h, ← h.live_eq]

theorem LogInv.refines (h : ss.LogInv) : ss.Refines ss.plainLog where
  plainLog_eq := rfl
  frames_eq := by
    show ss.frames = ss.unackedList.length
    rw [unackedList_eq h, h.ringLive_length, h.frames_eq]
  bytes_eq := by
    show ss.bytes = itemsPayload ss.unackedList
    rw [unackedList_eq h, h.bytes_eq]

theorem Refines.of_eq {l : PlainLog} (h : ss.LogInv) (hl : ss.plainLog = l) : ss.Refines l :=
  hl ▸ h.refines

theorem ackedSerial_mod (l n : Nat) : ackedSerial l n % 2 ^ 32 = serialAdd32 (l % 2 ^ 32) n := by
  unfold ackedSerial serialAdd32
  by_cases hn : n = 0 <;> simp [hn]

theorem Acks.plainLog {count : Nat} (hlog : ss.LogInv) (h : ss.Acks count ss') :
    ss'.plainLog = ss.plainLog.trim count := by
  have hserial := h.lastAckRecv_eq
  obtain ⟨⟨_, _, _, _, _, _, _, _, _, heq⟩, hlog'⟩ := h
  have hlogged : ss'.logged = ss.logged := by rw [heq]
  have hacked : ss'.acked = ss.acked + count := by rw [heq]
  unfold Session.plainLog PlainLog.trim
  rw [hserial, ackedSerial_mod, unackedList_eq_drop hlog', unackedList_eq_drop hlog, hlogged, hacked,
    List.drop_drop]

/-- `mux_unacked_ack_trim` drops the confirmed frames from the list. -/
theorem ackTrim_refines {n : Nat} (hlog : ss.LogInv) (hn : n ≤ ss.frames) :
    (ss.ackTrim n).1 = true ∧ (ss.ackTrim n).2.2.LogInv ∧ (ss.ackTrim n).2.2.Refines (ss.plainLog.trim n) := by
  obtain ⟨_, ss', heq, hacks⟩ := ackTrim_acks hlog hn
  rw [heq]
  exact ⟨rfl, hacks.2, .of_eq hacks.2 (hacks.plainLog hlog)⟩

/-! ### Tracking -/

/-- Every allocation succeeds. -/
def AllocsOk (ss : Session) : Prop := ∀ ok ∈ ss.allocs, ok = true

theorem Logs.plainLog {items : List Item} (hlog : s.LogInv) (h : s.Logs items ss') :
    ss'.plainLog = { s.plainLog with frames := s.plainLog.frames ++ items } := by
  have hlog' := h.logInv hlog
  obtain ⟨_, _, _, _, _, heq⟩ := h
  have hlogged : ss'.logged = s.logged ++ items := by rw [heq]
  have hacked : ss'.acked = s.acked := by rw [heq]
  have hserial : ss'.lastAckRecv = s.lastAckRecv := by rw [heq]
  unfold Session.plainLog
  rw [unackedList_eq_drop hlog', unackedList_eq_drop hlog, hlogged, hacked, hserial,
    List.drop_append_of_le_length hlog.acked_le]

/-- The frames of the head of the send buffer are tracked as it is written: in parts of the given
lengths, and then the remainder. -/
def trackInParts : List Nat → Session → Session
  | [], ss =>
    match ss.sendbuf with
    | [] => ss
    | frame :: rest => { ss with sendbuf := rest }.trackSent frame
  | n :: ns, ss =>
    match ss.sendbuf with
    | [] => ss
    | frame :: rest =>
      trackInParts ns
        ({ ss with sendbuf := frame.moved n :: rest }.trackPartial (frame.moved n) rest)

theorem frameGet_of_allocsOk (h : ss.AllocsOk) :
    ∃ allocs, ss.frameGet = (true, ss.withAllocs allocs) ∧ (ss.withAllocs allocs).AllocsOk := by
  unfold frameGet
  split
  next hnil => exact ⟨ss.allocs, rfl, h⟩
  next ok rest hcons =>
    obtain rfl : ok = true := h ok (by simp [hcons])
    exact ⟨rest, rfl, fun b hb => h b (by rw [hcons]; exact List.mem_cons_of_mem _ hb)⟩

theorem unackedPush_state (h : ss.AllocsOk) (f : MuxFrame) (count : Nat) :
    (ss.unackedPush f count).state = ss.state ∧ (ss.unackedPush f count).AllocsOk := by
  obtain ⟨allocs, hget, hok⟩ := frameGet_of_allocsOk h
  rw [unackedPush, hget]
  simp only [Bool.not_true, Bool.false_eq_true, if_false]
  split <;> exact ⟨rfl, hok⟩

theorem trackSent_state (h : s.AllocsOk) (f : MuxFrame) :
    (s.trackSent f).state = s.state ∧ (s.trackSent f).AllocsOk := by
  unfold trackSent
  split
  · exact ⟨rfl, h⟩
  split
  · exact ⟨rfl, h⟩
  split
  · exact ⟨rfl, h⟩
  dsimp only
  split
  · exact ⟨rfl, h⟩
  · exact unackedPush_state h _ _

theorem trackPartial_state (h : s.AllocsOk) (f : MuxFrame) (rest : List MuxFrame) :
    (s.trackPartial f rest).state = s.state ∧ (s.trackPartial f rest).AllocsOk := by
  unfold trackPartial
  split
  · exact ⟨rfl, h⟩
  split
  · exact ⟨rfl, h⟩
  dsimp only
  split
  · exact ⟨rfl, h⟩
  split
  · exact ⟨rfl, h⟩
  obtain ⟨allocs, hget, hok⟩ := frameGet_of_allocsOk h
  rw [hget]
  exact trackSent_state (s := { s.withAllocs allocs with sendbuf := f.cut :: rest }) hok _

theorem trackInParts_state (ns : List Nat) (h : ss.AllocsOk) : (trackInParts ns ss).state = ss.state := by
  induction ns generalizing ss with
  | nil =>
    unfold trackInParts
    split
    · rfl
    next frame rest _ => exact (trackSent_state (s := { ss with sendbuf := rest }) h frame).1
  | cons n ns ih =>
    unfold trackInParts
    split
    · rfl
    next frame rest _ =>
      obtain ⟨hst, hok⟩ :=
        trackPartial_state (s := { ss with sendbuf := frame.moved n :: rest }) h (frame.moved n) rest
      rw [ih hok, hst]

theorem trackInParts_of_nil (ns : List Nat) (h : ss.sendbuf = []) : trackInParts ns ss = ss := by
  cases ns <;> simp [trackInParts, h]

theorem ClosedTo.sendbuf (h : ss.ClosedTo ss') : ss'.sendbuf = [] := by
  obtain ⟨_, _, _, rfl⟩ := h
  rfl

end Session

def MuxFrame.HelloLeads (f : MuxFrame) : Prop := ∀ i ∈ f.items.tail, i.isHello = false

namespace MuxFrame

variable {f : MuxFrame}

theorem HelloLeads.all (h : f.HelloLeads) (hstart : f.startsHello = false) :
    ∀ i ∈ f.items, i.isHello = false := by
  intro i hi
  unfold HelloLeads startsHello at *
  cases hitems : f.items with
  | nil => simp [hitems] at hi
  | cons first rest =>
    rw [hitems] at h hi hstart
    rcases List.mem_cons.mp hi with rfl | hi
    · exact hstart
    · exact h i hi

theorem startsHello_of_all (h : ∀ i ∈ f.items, i.isHello = false) : f.startsHello = false := by
  unfold startsHello
  split
  · rfl
  next first rest hitems => exact h first (by simp [hitems])

theorem kept_cut (hlead : f.HelloLeads) (hstart : f.startsHello = false) :
    f.complete.filter Item.tracked ++ f.cut.kept = f.kept := by
  have hcut : f.cut.startsHello = false :=
    startsHello_of_all fun i hi => hlead.all hstart i (List.mem_of_mem_drop hi)
  simp only [kept, hcut, hstart, Bool.false_eq_true, if_false]
  rw [← List.filter_append, complete_append_cut]

theorem HelloLeads.cut (h : f.HelloLeads) : f.cut.HelloLeads := by
  intro i hi
  refine h i ?_
  rw [← List.drop_one] at hi ⊢
  rw [MuxFrame.cut, List.drop_drop, Nat.add_comm, ← List.drop_drop] at hi
  exact List.mem_of_mem_drop hi

end MuxFrame

namespace Session

/-- The head of the send buffer is logged the same, however many writes it takes. -/
theorem trackInParts_logs (ns : List Nat) {s : Session} {f : MuxFrame} {rest : List MuxFrame}
    (hopen : s.state ≠ .closed) (hbuf : s.sendbuf = f :: rest) (hlead : f.HelloLeads)
    (hcopy : (s.retransmitCopy && f.isCopy) = false) :
    { s with sendbuf := rest }.Logs f.kept (trackInParts ns s) ∨ s.ClosedTo (trackInParts ns s) := by
  induction ns generalizing s f with
  | nil =>
    rw [trackInParts, hbuf]
    rcases trackSent_spec { s with sendbuf := rest } f hopen hcopy with hlogs | hclosed
    · exact .inl hlogs
    · exact .inr hclosed
  | cons n ns ih =>
    rw [trackInParts, hbuf]
    dsimp only
    rcases trackPartial_spec { s with sendbuf := f.moved n :: rest } (f.moved n) rest hopen with
      ⟨heq, -⟩ | ⟨-, htrue, -⟩ | ⟨hstart, -, hlogs⟩ | hclosed
    · rw [heq]
      exact ih (s := { s with sendbuf := f.moved n :: rest }) (f := f.moved n) hopen rfl hlead hcopy
    · exact absurd (htrue.symm.trans hcopy) (by simp)
    · -- the frames written as a whole are logged, and the rest of the entry follows
      have hfields := hlogs.fields
      have hkept : (f.moved n).complete.filter Item.tracked ++ (f.moved n).cut.kept = f.kept :=
        MuxFrame.kept_cut (f := f.moved n) hlead hstart
      generalize Session.trackPartial _ (f.moved n) rest = s1 at hlogs hfields ⊢
      obtain ⟨hst1, -, -, hbuf1, -, -, hcopy1⟩ := hfields
      rcases ih (s := s1) (f := (f.moved n).cut) (by rw [hst1]; exact hopen) hbuf1
          (MuxFrame.HelloLeads.cut (f := f.moved n) hlead) (by rw [hcopy1]; exact hcopy) with hrest | hclosed
      · refine .inl (hkept ▸ Logs.trans ?_ hrest)
        obtain ⟨entries, stalled, allocs, hentries, hitems, rfl⟩ := hlogs
        exact ⟨entries, stalled, allocs, hentries, hitems, rfl⟩
      · exact .inr (hlogs.closedTo hclosed)
    · rw [trackInParts_of_nil ns hclosed.sendbuf]
      exact .inr hclosed

end Session

/-! ### Hellos lead their entries -/

def Leads (l : List Item) : Prop :=
  (∀ i ∈ l.tail, i.isHello = false) ∧ ∀ i ∈ l, i.tracked = true → i.isHello = false

instance : Queueing Leads (fun i => i.isHello = false) where
  all h := ⟨fun i hi => h i (List.mem_of_mem_tail hi), fun i hi _ => h i hi⟩
  pack {l l'} h h' := by
    refine ⟨fun i hi => ?_, fun i hi ht => (List.mem_append.mp hi).elim (h.2 i · ht) (h' i)⟩
    cases l with
    | nil => exact h' i (List.mem_of_mem_tail hi)
    | cons first rest => exact (List.mem_append.mp hi).elim (h.1 i) (h' i)
  sub h hsub := ⟨fun i hi => h.1 i (hsub.tail.subset hi), fun i hi => h.2 i (hsub.subset hi)⟩
  tracked h hi := h.2 _ hi

section Reach

variable [HelloCodec]

theorem leads_of_reachable {ss : Session} (h : ss.Reachable) : Lined Leads (fun i => i.isHello = false) ss := by
  refine h.invariant (P := Lined Leads _) (fun _ _ _ _ _ => ⟨.nil, .nil, .nil, by simp [Session.new]⟩)
    (fun s e hs => ?_) (fun _ s _ hm hb hs => hm.lined hb.log hb.copy hb.buf (fun hello => ?_) (fun f _ hv => ?_) hs)
  · unfold Session.feed
    split
    · split
      · exact { hs with }
      · exact hs
    · exact hs
  · refine ⟨by simp, fun i hi ht => ?_⟩
    rw [List.mem_singleton.mp hi] at ht ⊢
    exact Item.isHello_of_tracked (.inl ⟨hello, rfl⟩) ht
  · simp [Item.isHello, hv, protocolVersion]

namespace Session

variable {ss : Session}

def TrackedAs (ss : Session) (items : List Item) (ss' : Session) : Prop :=
  ss'.Refines (ss.plainLog.track items) ∨ ss'.state = .closed ∧ ¬ ss.AllocsOk

omit [HelloCodec] in
theorem Logs.trackedAs {s ss' : Session} {f : MuxFrame} (hlog : s.LogInv) (h : s.Logs f.kept ss')
    (heq : s.plainLog = ss.plainLog) : ss.TrackedAs f.items ss' :=
  .inl (.of_eq (h.logInv hlog) (by rw [h.plainLog hlog, heq, PlainLog.track_eq]))

/-- The ring refines the plain list: the totals are those of the list, a written entry appends its
frames to the list whether it was written at once or in parts, a replay copy appends nothing, and
confirmations drop frames at its front. -/
theorem unacked_refines_list (h : ss.Reachable) :
    ss.Refines ss.plainLog ∧
    (ss.state ≠ .closed → ∀ f, (ss.retransmitCopy && f.isCopy) = false →
      ss.TrackedAs f.items (ss.trackSent f)) ∧
    (ss.state ≠ .closed → ∀ f rest, ss.sendbuf = f :: rest → (ss.retransmitCopy && f.isCopy) = false →
      ∀ ns, ss.TrackedAs f.items (trackInParts ns ss)) ∧
    (∀ f, f ∈ ss.sendbuf.head? → (ss.retransmitCopy && f.isCopy) = true →
      (ss.trackSent f).Refines ss.plainLog) ∧
    (∀ n ≤ ss.plainLog.frames.length,
      (ss.ackTrim n).1 = true ∧ (ss.ackTrim n).2.2.Refines (ss.plainLog.trim n)) ∧
    (∀ m n, m + n ≤ ss.plainLog.frames.length →
      ((ss.ackTrim m).2.2.ackTrim n).2.2.plainLog = (ss.ackTrim (m + n)).2.2.plainLog) ∧
    ∀ n, ss.plainLog.frames.length < n → ss.ackTrim n = (false, false, ss) := by
  have hb := h.base
  have hlen : ss.frames = ss.plainLog.frames.length := hb.log.refines.frames_eq
  refine ⟨hb.log.refines, fun hopen f hcopy => ?_, fun hopen f rest hbuf hcopy ns => ?_, fun f hf hcopy => ?_,
    fun n hn => ?_, fun m n hmn => ?_, fun n hn => ?_⟩
  · rcases trackSent_spec ss f hopen hcopy with hlogs | hclosed
    · exact hlogs.trackedAs hb.log rfl
    · refine .inr ⟨hclosed.state, fun hok => hopen ?_⟩
      rw [← (trackSent_state hok f).1, hclosed.state]
  · have hlead := ((leads_of_reachable h).send f (by simp [hbuf])).1
    rcases trackInParts_logs ns hopen hbuf hlead hcopy with hlogs | hclosed
    · exact hlogs.trackedAs (s := { ss with sendbuf := rest }) hb.log rfl
    · refine .inr ⟨hclosed.state, fun hok => hopen ?_⟩
      rw [← trackInParts_state ns hok, hclosed.state]
  · have hbuf := List.eq_cons_of_mem_head? hf
    have htrue : ss.retransmitCopy = true := (Bool.and_eq_true _ _ ▸ hcopy).1
    obtain ⟨_, _, _, _, _, _, _, _, -, hhello⟩ := hb.copy_head hbuf htrue
    rw [trackSent_copy (hb.buf.nonempty f (List.mem_of_mem_head? hf)) hhello hcopy]
    exact { hb.log.refines with plainLog_eq := rfl }
  · obtain ⟨hok, -, href⟩ := ackTrim_refines hb.log (hlen ▸ hn)
    exact ⟨hok, href⟩
  · obtain ⟨-, hlog1, href1⟩ := ackTrim_refines hb.log (n := m) (by omega)
    have hframes1 : (ss.ackTrim m).2.2.frames = ss.plainLog.frames.length - m := by
      rw [href1.frames_eq]
      exact List.length_drop
    obtain ⟨-, -, href2⟩ := ackTrim_refines hlog1 (n := n) (by omega)
    obtain ⟨-, -, href⟩ := ackTrim_refines hb.log (n := m + n) (by omega)
    rw [href2.plainLog_eq, href1.plainLog_eq, href.plainLog_eq, PlainLog.trim_trim]
  · rw [ackTrim, if_pos (by omega)]

end Session

end Reach

section Scenario

attribute [local instance] plainHelloCodec

theorem unacked_refines_list_abortInSuspended :
    let ss := dialedSession.run abortInSuspended
    ss.plainLog.frames.length = 1 ∧ (ss.ackTrim 1).2.2.Refines (ss.plainLog.trim 1) ∧
      ss.ackTrim 2 = (false, false, ss) := by
  intro ss
  have hreach : ss.Reachable := ⟨false, false, 0, 1016, 16, abortInSuspended, .writable, .refl ss⟩
  obtain ⟨-, -, -, -, htrim, -, hover⟩ := Session.unacked_refines_list hreach
  have hlen : ss.plainLog.frames.length = 1 := by decide
  exact ⟨hlen, (htrim 1 (by omega)).2, hover 2 (by omega)⟩

end Scenario

namespace Session

variable {ss : Session} {last peerAck : Nat}

/-- The loop does not depend on its fuel, whatever the session is like: each turn but the last takes a
frame off the log. -/
theorem resumeTrimLoop_fuel (peerAck : Nat) {fuel k : Nat} (hfuel : ss.frames ≤ fuel)
    (hk : ss.frames ≤ k) : resumeTrimLoop peerAck fuel ss = resumeTrimLoop peerAck k ss := by
  have hzero (m : Nat) (h : ss.frames = 0) :
      resumeTrimLoop peerAck m ss = (decide (ss.lastAckRecv = peerAck), ss) := by
    cases m with
    | zero => rw [resumeTrimLoop]
    | succ m => by_cases heq : ss.lastAckRecv = peerAck <;> simp [resumeTrimLoop, heq, h]
  induction fuel generalizing k ss with
  | zero => rw [hzero 0 (by omega), hzero k (by omega)]
  | succ fuel ih =>
    cases k with
    | zero => rw [hzero _ (by omega), hzero 0 (by omega)]
    | succ k =>
      rw [resumeTrimLoop, resumeTrimLoop]
      split
      · rfl
      split
      · rfl
      dsimp only
      split
      · rfl
      next hlt =>
        refine ih (by omega) (by omega) fun m h => ?_
        cases m with
        | zero => rw [resumeTrimLoop]
        | succ m => by_cases heq : (ss.ackTrim 1).2.2.lastAckRecv = peerAck <;> simp [resumeTrimLoop, heq, h]

theorem LogInv.withLastAckRecv (h : ss.LogInv) (n : Nat) : { ss with lastAckRecv := n }.LogInv := h

theorem ring_eq_nil_iff (h : ss.LogInv) : ss.ring = [] ↔ ss.unackedList = [] := by
  rw [unackedList_eq h, ← List.length_eq_zero_iff (l := ringLive ss.ring), h.ringLive_length]
  constructor
  · intro hnil
    simp [hnil]
  · intro hzero
    cases hring : ss.ring with
    | nil => rfl
    | cons f fs =>
      have := h.pos f (by simp [hring])
      rw [hring, ringCount_cons] at hzero
      omega

def serialDistance (last peerAck : Nat) : Nat := (peerAck + 2 ^ 32 - last) % 2 ^ 32

theorem eq_of_ackedSerial {count : Nat} (hlast : last < 2 ^ 32) (hcount : count < 2 ^ 31)
    (h : ackedSerial last count = peerAck) : count = serialDistance last peerAck := by
  unfold ackedSerial serialAdd32 at h
  unfold serialDistance
  split at h <;> omega

theorem ackedSerial_distance (hlast : last < 2 ^ 32) (hpeer : peerAck < 2 ^ 32) :
    ackedSerial last (serialDistance last peerAck) = peerAck := by
  unfold ackedSerial serialAdd32 serialDistance
  split <;> omega

theorem serialLt32_false_of_distance (hlast : last < 2 ^ 32) (hpeer : peerAck < 2 ^ 32)
    (h : serialDistance last peerAck < 2 ^ 31) : serialLt32 peerAck last = false := by
  unfold serialDistance at h
  simp only [serialLt32, Bool.and_eq_false_iff, bne_eq_false_iff_eq, decide_eq_false_iff_not]
  omega

theorem resumeAckRecv_true {ss' : Session} (hlog : ss.LogInv)
    (hlast : ss.lastAckRecv < 2 ^ 32) (hframes : ss.frames < 2 ^ 31)
    (hpair : ss.resumeAckRecv peerAck = (true, ss')) : serialDistance ss.lastAckRecv peerAck ≤ ss.frames ∧
      ss'.unackedList = ss.unackedList.drop (serialDistance ss.lastAckRecv peerAck) ∧
      ss'.lastAckRecv = peerAck ∧ ss'.retransmitOff = if ss'.unackedList = [] then none else some 0 := by
  obtain ⟨count, ss1, hcount, hacks, hserial, rfl⟩ := resumeAckRecv_spec hlog hpair
  have hn : count = serialDistance ss.lastAckRecv peerAck :=
    eq_of_ackedSerial hlast (Nat.lt_of_le_of_lt hcount hframes) (hacks.lastAckRecv_eq.symm.trans hserial)
  have hlist : ss1.unackedList = ss.unackedList.drop count := congrArg PlainLog.frames (hacks.plainLog hlog)
  have hrewind : ss1.rewindReplay.unackedList = ss1.unackedList := rfl
  refine ⟨Nat.le_trans (Nat.le_of_eq hn.symm) hcount, by rw [hrewind, hlist, hn], hserial, ?_⟩
  rw [hrewind]
  simp only [rewindReplay, setReplayOff, List.isEmpty_iff, ring_eq_nil_iff hacks.2]

/-- `mux_unacked_resume_ack_recv` accepts a count exactly when the log has that many frames past the last
confirmation; then it drops them and rewinds the replay, and its loop never runs out of fuel. -/
theorem resumeAckRecv_accepts_iff {ss ss' : Session} {ok : Bool} (hlog : ss.LogInv) (peerAck : Nat)
    (hpeer : peerAck < 2 ^ 32) (hlast : ss.lastAckRecv < 2 ^ 32) (hframes : ss.unackedList.length < 2 ^ 31)
    (hack : ss.resumeAckRecv peerAck = (ok, ss')) :
    let n := serialDistance ss.lastAckRecv peerAck
    (ok = true ↔ n ≤ ss.unackedList.length) ∧
    (ok = true →
      ss'.unackedList = ss.unackedList.drop n ∧ ss'.lastAckRecv = peerAck ∧
        ss'.retransmitOff = if ss'.unackedList = [] then none else some 0) ∧
    ∀ (s : Session) (fuel : Nat), s.frames ≤ fuel →
      resumeTrimLoop peerAck fuel s = resumeTrimLoop peerAck s.frames s := by
  intro n
  have hlen : ss.frames = ss.unackedList.length := hlog.refines.frames_eq
  rw [← hlen] at hframes ⊢
  refine ⟨⟨fun hok => ?_, fun hn => ?_⟩, fun hok => ?_,
    fun s fuel hfuel => resumeTrimLoop_fuel peerAck hfuel (Nat.le_refl _)⟩
  · subst hok
    exact (resumeAckRecv_true hlog hlast hframes hack).1
  · have hserial : ackedSerial ss.lastAckRecv n = peerAck := ackedSerial_distance hlast hpeer
    have haccept := resumeAckRecv_accepts (m := n) hlog hn
      (by rw [hserial]; exact serialLt32_false_of_distance hlast hpeer (Nat.lt_of_le_of_lt hn hframes))
    rw [hserial, hack] at haccept
    exact haccept
  · subst hok
    exact (resumeAckRecv_true hlog hlast hframes hack).2

end Session

section Scenario

attribute [local instance] plainHelloCodec

def aboutToWrap : Session := { dialedSession.run abortInSuspended with lastAckRecv := 2 ^ 32 - 1 }

theorem resumeAckRecv_accepts_iff_aboutToWrap :
    (aboutToWrap.resumeAckRecv 0).1 = true ∧ (aboutToWrap.resumeAckRecv 1).1 = false ∧
      (aboutToWrap.resumeAckRecv 0).2.lastAckRecv = 0 := by
  have hlog : aboutToWrap.LogInv :=
    ((Base.new false false 0 1016 16).run abortInSuspended).log.withLastAckRecv (2 ^ 32 - 1)
  have hlen : aboutToWrap.unackedList.length = 1 := by decide
  have haccept (peerAck : Nat) (hpeer : peerAck < 2 ^ 32) :=
    Session.resumeAckRecv_accepts_iff hlog peerAck hpeer (by decide) (by omega) (Prod.eta _).symm
  have hzero := (haccept 0 (by decide)).1.mpr (by rw [hlen]; decide)
  have hone := mt (haccept 1 (by decide)).1.mp (by rw [hlen]; decide)
  exact ⟨hzero, by simpa using hone, ((haccept 0 (by decide)).2.1 hzero).2.1⟩

end Scenario

end Multiplexd
