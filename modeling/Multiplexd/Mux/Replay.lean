import Multiplexd.Mux.Fresh
import Multiplexd.Mux.PlainLog

/-!
# The replay

Once a resume is confirmed, the log as it stands is written again from its start. The cursor, the
counters and the copy in flight say how far that has come, and a session ACK is accepted only for
frames the transport has. This holds as long as no stream has put a frame on the send buffer while the
transport was dialed and its handshake ran.
-/

namespace Multiplexd

open Session

section Runs

/-- What the session `ss0` was when it was established, seen from `ss` on the same transport: the frames
of streams written since are counted from the first one that was unconfirmed then, and the log does
not change before it has been replayed. -/
structure Replays (ss0 ss : Session) : Prop where
  acked_le : ss0.acked ≤ ss.acked
  count : ss.acked + ss.resent = ss0.acked + (ss.sent.filter Item.tracked).length
  logged : ss0.logged <+: ss.logged
  frozen : ss.retransmitOff.isSome → ss.logged = ss0.logged

namespace Replays

variable {ss0 ss ss' : Session}

theorem of_eq (h : Replays ss0 ss) (hacked : ss'.acked = ss.acked) (hresent : ss'.resent = ss.resent)
    (hsent : ss'.sent = ss.sent) (hlogged : ss'.logged = ss.logged)
    (hoff : ss'.retransmitOff.isSome → ss.retransmitOff.isSome) : Replays ss0 ss' where
  acked_le := by rw [hacked]; exact h.acked_le
  count := by rw [hacked, hresent, hsent]; exact h.count
  logged := by rw [hlogged]; exact h.logged
  frozen hsome := by rw [hlogged]; exact h.frozen (hoff hsome)

theorem sendbufPush {s : Session} (h : Replays ss0 s) (f : MuxFrame) : Replays ss0 (s.sendbufPush f) := by
  obtain ⟨_, _, -, heq⟩ := s.sendbufPush_spec f
  rw [heq]
  exact h.of_eq rfl rfl rfl rfl id

theorem ackEmitted (h : Replays ss0 ss) (n : Nat) : Replays ss0 (ss.ackEmitted n) :=
  h.of_eq rfl rfl rfl rfl id

theorem discard (h : Replays ss0 ss) (hbuf : BufOk ss.sendbuf ss.oobbuf ss.dgrambuf ss.sendbufStaging)
    (id : UInt16) : Replays ss0 (ss.discardStreamFrames id) := by
  obtain ⟨_, _, -, -, -, heq⟩ := ss.discardSendbuf_spec id hbuf
  unfold discardStreamFrames
  rw [heq]
  exact h.of_eq rfl rfl rfl rfl fun hsome => hsome

theorem acks {s : Session} {count : Nat} (h : Replays ss0 s) (hacks : s.Acks count ss')
    (hresent : ss'.resent + count = s.resent)
    (hoff : s.retransmitOff = none → ss'.retransmitOff = none) : Replays ss0 ss' := by
  obtain ⟨⟨_, _, _, _, _, _, _, _, _, heq⟩, -⟩ := hacks
  have hacked : ss'.acked = s.acked + count := by rw [heq]
  have hsent : ss'.sent = s.sent := by rw [heq]
  have hlogged : ss'.logged = s.logged := by rw [heq]
  have hle := h.acked_le
  have hcount := h.count
  refine ⟨by omega, by rw [hsent]; omega, by rw [hlogged]; exact h.logged, fun hsome => ?_⟩
  rw [hlogged]
  refine h.frozen ?_
  by_contra hnone
  rw [hoff (by simpa using hnone)] at hsome
  cases hsome

theorem queueCopy (h : Replays ss0 ss) {off : Nat} (orig : MuxFrame) (hoff : ss.retransmitOff = some off)
    (hcopy : ss.retransmitCopy = false) : Replays ss0 (ss.queueCopy off orig) := by
  refine h.of_eq rfl ?_ rfl rfl fun hsome => hsome
  have hoff' : (ss.queueCopy off orig).retransmitOff = some off := hoff
  rw [resent, resent, hoff', hoff]
  simp [replayBound, Session.queueCopy, hcopy]

variable [HelloCodec]

variable {frame : MuxFrame} {rest : List MuxFrame} (h : Replays ss0 ss) (hb : Base ss) (ho : Order ss)
  (hbuf : ss.sendbuf = frame :: rest)
include h hb ho hbuf

theorem copied (hcopy : ss.retransmitCopy = true) {n : Nat} (hsent : ss'.sent = ss.sent ++ frame.completed n)
    (hresent : ss'.resent = ss.resent + (frame.completed n).length) (hacked : ss'.acked = ss.acked)
    (hlogged : ss'.logged = ss.logged) : Replays ss0 ss' := by
  obtain ⟨-, htracked, -⟩ := ho.copy_completed hb hbuf hcopy n
  obtain ⟨k, orig, hoff, -⟩ := hb.copy_head hbuf hcopy
  have hcount := h.count
  refine ⟨by rw [hacked]; exact h.acked_le, ?_, by rw [hlogged]; exact h.logged, fun _ => ?_⟩
  · rw [hacked, hresent, hsent, List.filter_append, htracked, List.length_append]
    omega
  · rw [hlogged]
    exact h.frozen (by simp [hoff])

theorem written (hcopy : ss.retransmitCopy = false) {n : Nat} {s : Session}
    (hsent : s.sent = ss.sent ++ frame.completed n) (hacked : s.acked = ss.acked)
    (hlogged : s.logged = ss.logged) (hoff : s.retransmitOff = ss.retransmitOff)
    (hframes : s.frames = ss.frames) (hbound : s.replayBound = ss.replayBound)
    (hlogs : s.Logs ((frame.completed n).filter Item.tracked) ss') : Replays ss0 ss' := by
  have hnil : ss.retransmitOff.isSome → (frame.completed n).filter Item.tracked = [] := by
    intro hsome
    rw [List.filter_eq_nil_iff]
    intro i hi
    simp [ho.aside hsome frame (by simp [hbuf]) (Order.head_not_copy hb hbuf hcopy) i
      (frame.completed_subset n i hi)]
  obtain ⟨_, _, _, -, -, heq⟩ := hlogs
  have hsent' : ss'.sent = ss.sent ++ frame.completed n := by rw [heq, ← hsent]
  have hlogged' : ss'.logged = ss.logged ++ (frame.completed n).filter Item.tracked := by rw [heq, ← hlogged]
  have hacked' : ss'.acked = ss.acked := by rw [heq, ← hacked]
  have hoff' : ss'.retransmitOff = ss.retransmitOff := by rw [heq, ← hoff]
  have hframes' : ss'.frames = ss.frames + ((frame.completed n).filter Item.tracked).length := by
    rw [heq, ← hframes]
  have hbound' : ss'.replayBound = ss.replayBound := by
    rw [heq, ← hbound]
    rfl
  have hresent : ss'.resent = ss.resent + ((frame.completed n).filter Item.tracked).length := by
    rw [resent, resent, hoff']
    cases hcur : ss.retransmitOff with
    | none => exact hframes'
    | some k =>
      simp only [hbound', hnil (by simp [hcur]), List.length_nil, Nat.add_zero]
  have hcount := h.count
  refine ⟨by rw [hacked']; exact h.acked_le, ?_, ?_, fun hsome => ?_⟩
  · rw [hacked', hresent, hsent', List.filter_append, List.length_append]
    omega
  · rw [hlogged']
    exact h.logged.trans (List.prefix_append _ _)
  · rw [hoff'] at hsome
    rw [hlogged', hnil hsome, List.append_nil]
    exact h.frozen hsome

theorem flushFull (hst : ss.state = .established) {n : Nat} (hlen : frame.pos + n = frame.len)
    (hst' : (ss.flushFull frame rest n).state = .established) : Replays ss0 (ss.flushFull frame rest n) := by
  obtain ⟨staging, -, ⟨hcopy, heq⟩ | ⟨hcopy, hlogs⟩ | hclosed⟩ := hb.flushFull_spec (.inr hst) hbuf n
  · rw [heq]
    exact h.copied hb ho hbuf hcopy rfl (ho.retireCopy_resent hb hbuf hcopy hlen staging) rfl rfl
  · rw [ho.kept_eq (.inr hst) hbuf hlen] at hlogs
    exact h.written hb ho hbuf hcopy (s := ss.wrote frame n rest staging) rfl rfl rfl rfl rfl rfl hlogs
  · rw [hclosed.state] at hst'
    cases hst'

theorem flushPart (hst : ss.state = .established) {n : Nat}
    (hst' : (ss.flushPart frame rest n).state = .established) : Replays ss0 (ss.flushPart frame rest n) := by
  obtain ⟨staging, -, ⟨heq, hcomplete⟩ | ⟨hcopy, heq⟩ | ⟨hcopy, hlogs⟩ | hclosed⟩ :=
    hb.flushPart_spec (.inr hst) hbuf n
  · -- no frame of a stream was completed
    have hnil : (frame.completed n).filter Item.tracked = [] := by
      rw [← ho.tracked_complete hbuf n, List.filter_eq_nil_iff]
      intro i hi
      rcases hcomplete with hstart | hcomplete
      · obtain ⟨hello, hown, hitems⟩ := ho.items_of_startsHello (.inr hst) hbuf hstart
        have hmem : i ∈ frame.items := List.mem_of_mem_take hi
        rw [hitems, List.mem_singleton] at hmem
        simp [hmem, hown.tracked]
      · simp [hcomplete i hi]
    have hsent : (ss.wrote frame n (frame.moved n :: rest) staging).sent = ss.sent ++ frame.completed n := rfl
    rw [heq]
    refine { h with count := ?_ }
    rw [hsent, List.filter_append, hnil, List.append_nil]
    exact h.count
  · rw [heq]
    exact h.copied hb ho hbuf hcopy rfl (ho.copySent_resent hb hbuf hcopy n staging) rfl rfl
  · rw [ho.tracked_complete hbuf n] at hlogs
    exact h.written hb ho hbuf hcopy (s := ss.wrote frame n ((frame.moved n).cut :: rest) staging) rfl rfl rfl
      rfl rfl rfl hlogs
  · rw [hclosed.state] at hst'
    cases hst'

end Replays

variable [HelloCodec]

/-- Steps of an established session on its transport. -/
theorem Micro.replays {e : Event} {ss0 ss ss' : Session} (hm : Micro true e ss ss') (hb : Base ss)
    (ho : Order ss) (hst : ss.state = .established) (hst' : ss'.state = .established) (h : Replays ss0 ss) :
    Replays ss0 ss' := by
  cases hm with
  | aux | table | recvOther | recvStream | oob | dgram => exact h.of_eq rfl rfl rfl rfl id
  | closed | closing | closeWait | failClosed | ackReject | helloReject | resumeReject => cases hst'
  | suspend => exact absurd hst' (suspend_not_established ss)
  | fail frame rest n => exact absurd hst' (suspend_not_established (ss.handOver frame n))
  | install _ _ hne => rcases hne with hne | hne <;> simp [hst] at hne
  | forget _ _ hne | attach _ _ hne | dialed _ _ hne | accepted _ _ hne | helloServer _ _ _ _ hne
  | helloResume _ _ _ _ _ _ hne | helloFresh _ _ _ _ _ _ hne | resumeTrim _ _ _ hne
  | resumeInstall _ _ _ hne =>
    rw [hst] at hne
    cases hne
  | push f | stageOob | stageDgram =>
    refine Replays.sendbufPush ?_ _
    exact h.of_eq rfl rfl rfl rfl id
  | park f => exact h.of_eq rfl rfl rfl rfl id
  | ack =>
    have hpush : Replays ss0 ({ ss with births := ss.births + 1 }.sendbufPush
        (ss.newFrame (ctrlFrame streamIdCtrl flagAck (min ss.unreported 65535)))) :=
      Replays.sendbufPush (s := { ss with births := ss.births + 1 }) (h.of_eq rfl rfl rfl rfl id) _
    rw [pushAck]
    exact hpush.ackEmitted _
  | discard id => exact h.discard hb.buf id
  | freeze frame rest =>
    unfold freezeHead
    split <;> exact h.of_eq rfl rfl rfl rfl id
  | flushPart frame rest n _ hbuf => exact h.flushPart hb ho hbuf hst hst'
  | flushFull frame rest n _ hbuf hlen => exact h.flushFull hb ho hbuf hst hlen hst'
  | copy off orig _ hoff _ hcopy => exact h.queueCopy orig hoff hcopy
  | replayed off _ hoff hlen =>
    exact h.of_eq rfl (Order.resent_of_end hb hoff hlen).symm rfl rfl fun hsome => by cases hsome
  | recvAck _ f rest unstalled _ _ _ _ _ hack =>
    obtain ⟨-, hacks, -, hresent, hoff⟩ :=
      ackRecv_spec (s := { ss with recvbuf := rest }) hb.log hb.copy hack
    exact Replays.acks (s := { ss with recvbuf := rest }) (h.of_eq rfl rfl rfl rfl id) hacks hresent hoff

/-! ### The start of a replay -/

namespace Session

omit [HelloCodec] in
theorem startReplay_start (ss : Session) : (ss.startReplay.ring = [] ∨ ss.startReplay.retransmitOff = some 0) ∧
      ss.startReplay.retransmitCopy = ss.retransmitCopy ∧ ss.startReplay.sent = ss.sent := by
  unfold startReplay
  split
  next h => exact ⟨.inl (List.isEmpty_iff.mp h), rfl, rfl⟩
  · exact ⟨.inr rfl, rfl, rfl⟩

theorem resent_of_start {ss : Session} (hb : Base ss) (hcopy : ss.retransmitCopy = false)
    (h : ss.ring = [] ∨ ss.retransmitOff = some 0) : ss.resent = 0 := by
  have hlog := hb.log
  unfold resent
  split
  next hoff =>
    rcases h with h | h
    · simp [hlog.frames_eq, h]
    · simp [h] at hoff
  next k hoff =>
    have hret := (hlog.replay k hoff).2
    rcases h with h | h
    · simp [replayBound, hcopy, hret, h]
    · obtain rfl : 0 = k := by simpa [h] using hoff
      simp [replayBound, hcopy, hret]

end Session

/-- When a session is established, none of its log has been written to the transport. -/
theorem Micro.establishes {e : Event} {ss ss' : Session} (hm : Micro true e ss ss') (hb : Base ss)
    (ho : Order ss) (hne : ss.state ≠ .established) (hst' : ss'.state = .established) :
    ss'.resent = 0 ∧ ss'.sent.filter Item.tracked = [] := by
  have hb' := hm.base hb
  have hcopy := hb.copy_false hne
  have hstart (s : Session) (heq : ss' = s.startReplay) (hc : s.retransmitCopy = false)
      (hsent : s.sent.filter Item.tracked = []) : ss'.resent = 0 ∧ ss'.sent.filter Item.tracked = [] := by
    obtain ⟨hring, hc', hsent'⟩ := s.startReplay_start
    rw [heq] at hb' ⊢
    exact ⟨resent_of_start hb' (hc'.trans hc) hring, by rw [hsent']; exact hsent⟩
  cases hm with
  | aux | table | forget | park => exact absurd hst' hne
  | recvOther _ _ h | recvStream _ _ h | oob _ _ _ _ h | dgram _ _ _ _ h | ack h | copy _ _ h | replayed _ h
  | stageOob _ _ h | stageDgram _ _ h | recvAck _ _ _ _ h => exact absurd h hne
  | push f =>
    rw [(sendbufPush_keeps _ _).1] at hst'
    exact absurd hst' hne
  | freeze frame rest =>
    unfold freezeHead at hst'
    split at hst' <;> exact absurd hst' hne
  | discard id => exact absurd hst' hne
  | suspend => exact absurd hst' (suspend_not_established ss)
  | fail frame rest n => exact absurd hst' (suspend_not_established (ss.handOver frame n))
  | flushPart frame rest n hst hbuf =>
    rcases hb.flushPart_shell hst hbuf n with h | h
    · exact absurd ((state_of_shell h).symm.trans hst') hne
    · cases (state_of_shell h).symm.trans hst'
  | flushFull frame rest n hst hbuf =>
    rcases hb.flushFull_shell hst hbuf n with h | h
    · exact absurd ((state_of_shell h).symm.trans hst') hne
    · cases (state_of_shell h).symm.trans hst'
  | resumeTrim _ _ _ hst hack =>
    obtain ⟨_, _, -, hacks, -, rfl⟩ := resumeAckRecv_spec hb.log hack
    have : ss.state = .established := hacks.fields.1.symm.trans hst'
    exact absurd this hne
  | closed | closing | closeWait | failClosed | ackReject | helloReject | resumeReject | install | attach
  | dialed | accepted => cases hst'
  | helloServer f rest _ _ hst => exact hstart _ rfl hcopy (ho.hello_only hst).2
  | helloResume ss1 f rest hello _ _ hst _ _ _ _ hack =>
    obtain ⟨count, ss2, -, hacks, -, rfl⟩ :=
      resumeAckRecv_spec (s := { ss with recvbuf := rest }) hb.log hack
    obtain ⟨-, hc, -, hsent⟩ := hacks.fields
    refine hstart _ rfl (hc.trans hcopy) ?_
    show ss2.sent.filter Item.tracked = []
    rw [hsent]
    exact (ho.hello_only hst).2
  | helloFresh f rest hello id _ _ hst =>
    exact ⟨resent_of_start hb' rfl (.inl rfl), (ho.hello_only hst).2⟩
  | resumeInstall n _ _ hst hopen =>
    have hc := captureAndDiscard_open (by simp [hst]) hopen
    exact hstart _ rfl (hc.retransmitCopy.trans hcopy) rfl

/-- `ss0` has just been established, and `ss` is that session later, on the same transport. -/
inductive Since : Session → Session → Prop
  | established {e : Event} {ss ss0 : Session} (hm : Micro true e ss ss0) (hne : ss.state ≠ .established)
      (hest : ss0.state = .established) : Since ss0 ss0
  | step {e : Event} {ss0 ss ss' : Session} (h : Since ss0 ss) (hm : Micro true e ss ss')
      (hest : ss'.state = .established) : Since ss0 ss'
  | feed {ss0 ss : Session} (h : Since ss0 ss) (e : Event) : Since ss0 (ss.feed e)

def Session.QuietReachable (ss : Session) : Prop :=
  ∃ (accepted tls : Bool) (sessionId : BitVec 128) (maxPayload sessionWindow : Nat)
    (es : List (Event × Inputs)) (e : Event),
    (Session.new accepted tls sessionId maxPayload sessionWindow).QuietRun es ∧
      Steps true e (((Session.new accepted tls sessionId maxPayload sessionWindow).run es).feed e) ss

/-- What is known of a session in a quiet run. -/
structure QuietInv (ss : Session) : Prop where
  base : Base ss
  order : Order ss
  since : ss.state = .established →
    ∃ ss0, Since ss0 ss ∧ ss0.LogInv ∧ ss0.sent.filter Item.tracked = [] ∧ Replays ss0 ss

namespace QuietInv

variable {ss ss' : Session}

theorem feed (h : QuietInv ss) (e : Event) : QuietInv (ss.feed e) where
  base := Base.feed h.base e
  order := h.order.feed e
  since hst := by
    obtain ⟨recvbuf, heq⟩ := ss.feed_eq e
    obtain ⟨ss0, hsince, hlog, hsent, hrep⟩ := h.since (by rw [heq] at hst; exact hst)
    refine ⟨ss0, hsince.feed e, hlog, hsent, ?_⟩
    rw [heq]
    exact hrep.of_eq rfl rfl rfl rfl id

theorem micro {e : Event} (h : QuietInv ss) (hm : Micro true e ss ss') : QuietInv ss' where
  base := hm.base h.base
  order := hm.order h.base h.order
  since hst' := by
    by_cases hst : ss.state = .established
    · obtain ⟨ss0, hsince, hlog, hsent, hrep⟩ := h.since hst
      exact ⟨ss0, hsince.step hm hst', hlog, hsent, hm.replays h.base h.order hst hst' hrep⟩
    · obtain ⟨hresent, hsent⟩ := hm.establishes h.base h.order hst hst'
      refine ⟨ss', .established hm hst hst', (hm.base h.base).log, hsent, ?_⟩
      exact ⟨Nat.le_refl _, by simp [hresent, hsent], List.prefix_rfl, fun _ => rfl⟩

theorem steps {e : Event} (h : QuietInv ss) (hs : Steps true e ss ss') : QuietInv ss' :=
  reflTransGen_invariant QuietInv (fun _ _ hm h => h.micro hm) hs h

theorem quietReachable (h : ss.QuietReachable) : QuietInv ss := by
  obtain ⟨accepted, tls, id, maxPayload, window, es, e, hquiet, hs⟩ := h
  have hnew : QuietInv (Session.new accepted tls id maxPayload window) :=
    ⟨.new accepted tls id maxPayload window, .new accepted tls id maxPayload window, by simp [Session.new]⟩
  have hrun : QuietInv ((Session.new accepted tls id maxPayload window).run es) :=
    runFrom_invariant QuietInv (fun s e h hq => (h.feed e.1).steps (step_steps h.base e fun _ => hq))
      hnew hquiet
  exact (hrun.feed e).steps hs

end QuietInv

/-! ### The bookkeeping of a replay -/

namespace Session

variable {ss : Session}

theorem resent_le_frames (hb : Base ss) : ss.resent ≤ ss.frames := by
  unfold resent
  split
  · exact Nat.le_refl _
  next k hoff =>
    obtain ⟨hk, hret⟩ := hb.log.replay k hoff
    have hsplit : ss.frames = ringCount (ss.ring.take k) + ringCount (ss.ring.drop k) := by
      rw [hb.log.frames_eq, ← ringCount_append, List.take_append_drop]
    cases hc : ss.retransmitCopy with
    | false =>
      simp only [replayBound, hc, Bool.false_eq_true, if_false]
      omega
    | true =>
      have hcopy := hb.copy
      rw [CopyInv, hc] at hcopy
      obtain ⟨j, orig, _, _, hj, horig, -, -, -, hcount, hlt, -⟩ := hcopy
      obtain rfl : k = j := Option.some.inj (hoff ▸ hj)
      obtain ⟨hlen, rfl⟩ := List.getElem?_eq_some_iff.mp horig
      rw [List.drop_eq_getElem_cons hlen, ringCount_cons] at hsplit
      simp only [replayBound, hc, if_true]
      omega

omit [HelloCodec] in
theorem ackRecv_rejected {count : Nat} (h : (ss.ackRecv count).1 = false) :
    ss.ackRecv count = (false, false, ss) := by
  unfold ackRecv at h ⊢
  split at h
  next hbound => rw [if_pos hbound]
  next hbound =>
    rw [if_neg hbound]
    unfold ackTrim at h ⊢
    split at h
    next hframes => rw [if_pos hframes]
    · split at h <;> cases h

/-- The frames of streams on the transport, as a part of the log. -/
theorem sent_eq {ss0 : Session} (hb : Base ss) (ho : Order ss) (hst : ss.state = .established)
    (hrep : Replays ss0 ss) :
    ss.sent.filter Item.tracked = (ss.logged.take (ss.acked + ss.resent)).drop ss0.acked := by
  obtain ⟨before, hbefore⟩ := ho.inOrder hst
  have hlen : (ss.logged.take (ss.acked + ss.resent)).length = ss.acked + ss.resent := by
    have := LogOk.length_eq hb.log
    have := resent_le_frames hb
    rw [List.length_take]
    omega
  have hcount := hrep.count
  have hstart : before.length = ss0.acked := by
    rw [← hbefore, List.length_append] at hlen
    omega
  rw [← hbefore, ← hstart, List.drop_left]

end Session

/-- In a quiet run, while the log is replayed, the cursor and its counter agree with the ring, the frames of
streams on the transport are the first part of the log as it stood when the session was established, and a
session ACK confirms only frames that are on the transport; one that is rejected changes nothing. -/
theorem replay_bookkeeping {ss : Session} (h : ss.QuietReachable) (hst : ss.state = .established) {k : Nat}
    (hoff : ss.retransmitOff = some k) :
    (k ≤ ss.ring.length ∧ ss.retransmittedFrames = ringCount (ss.ring.take k)) ∧
    (ss.retransmitCopy = true → ∃ orig head rest, ss.ring[k]? = some orig ∧ ss.sendbuf = head :: rest ∧
      head.items = orig.live.drop ss.retransmitCopySent ∧ ss.retransmitCopyCount = orig.unackedCount ∧
      ss.retransmitCopySent < ss.retransmitCopyCount) ∧
    (∃ ss0, Since ss0 ss ∧ ss0.sent.filter Item.tracked = [] ∧
      ss.sent.filter Item.tracked <+: ss0.unackedList ∧ ss.out = itemBytes ss.sent ++ tornPart ss.sendbuf) ∧
    ∀ count,
      ((ss.ackRecv count).1 = true → ss.unackedList.take count <:+: ss.sent.filter Item.tracked ∧
        (ss.ackRecv count).2.2.unackedList = ss.unackedList.drop count) ∧
      ((ss.ackRecv count).1 = false → ss.ackRecv count = (false, false, ss)) := by
  have hq := QuietInv.quietReachable h
  have hb := hq.base
  obtain ⟨ss0, hsince, hlog0, hsent0, hrep⟩ := hq.since hst
  have hsent := sent_eq hb hq.order hst hrep
  have hle := hrep.acked_le
  refine ⟨hb.log.replay k hoff, fun hcopy => ?_, ⟨ss0, hsince, hsent0, ?_, hb.aligned ?_⟩,
    fun count => ⟨fun hack => ?_, ackRecv_rejected⟩⟩
  · have hc := hb.copy
    rw [CopyInv, hcopy] at hc
    obtain ⟨j, orig, head, rest, hj, horig, hbuf, -, hitems, hcount, hlt, -⟩ := hc
    obtain rfl : k = j := Option.some.inj (hoff ▸ hj)
    exact ⟨orig, head, rest, horig, hbuf, hitems, hcount, hlt⟩
  · rw [hsent, unackedList_eq_drop hlog0, hrep.frozen (by simp [hoff]), List.drop_take]
    exact List.take_prefix _ _
  · simp [SessionState.attached, hst]
  · obtain ⟨u, ss', hpair⟩ : ∃ u ss', ss.ackRecv count = (true, u, ss') := ⟨_, _, Prod.ext hack rfl⟩
    obtain ⟨-, hacks, -, hresent, -⟩ := ackRecv_spec hb.log hb.copy hpair
    refine ⟨?_, ?_⟩
    · rw [hsent, unackedList_eq_drop hb.log]
      -- the confirmed frames follow those confirmed since the session was established
      refine ⟨(ss.logged.drop ss0.acked).take (ss.acked - ss0.acked),
        (ss.logged.drop (ss.acked + count)).take (ss.resent - count), ?_⟩
      have hsplit : ss.acked + ss.resent - ss0.acked =
          (ss.acked - ss0.acked) + (count + (ss.resent - count)) := by omega
      have hstart : ss0.acked + (ss.acked - ss0.acked) = ss.acked := by omega
      rw [List.drop_take, hsplit, List.take_add, List.drop_drop, hstart, List.take_add, List.drop_drop,
        List.append_assoc]
    · rw [hpair]
      exact congrArg PlainLog.frames (hacks.plainLog hb.log)

end Runs

section Scenario

attribute [local instance] plainHelloCodec

def openedTwoThenLost : List (Event × Inputs) :=
  [(.attachFd, {}), (.connected true, {}), (.writable, freely), (.readable (serverHello 7 0), {}),
    (.stream [.opened 1, .opened 2], {}), (.deadLink, {})]

/-- Both streams are aborted while there is no transport; the replay has come to the middle of the
second RST. -/
def replayBegun : List (Event × Inputs) :=
  openedTwoThenLost ++ aborted 1 ++ aborted 2 ++
    [(.attachFd, {}), (.connected true, {}), (.writable, freely), (.readable (serverHello 7 0), {}),
      (.writable, { writes := [.sent 12, .sent 0], fuel := 20 })]

theorem replay_bookkeeping_replayBegun :
    let ss := dialedSession.run replayBegun
    ss.state = .established ∧ ss.retransmitOff = some 0 ∧ ss.retransmitCopySent = 1 ∧
      ss.retransmittedFrames = ringCount (ss.ring.take 0) ∧ ss.ackRecv 2 = (false, false, ss) := by
  intro ss
  have hquiet : dialedSession.QuietRun replayBegun := by
    unfold QuietRun
    decide
  have hreach : ss.QuietReachable :=
    ⟨false, false, 0, 1016, 16, replayBegun, .writable, hquiet, .refl ss⟩
  have hst : ss.state = .established := by decide
  have hoff : ss.retransmitOff = some 0 := by decide
  have h := replay_bookkeeping hreach hst hoff
  exact ⟨hst, hoff, by decide, h.1.2, (h.2.2.2 2).2 (by decide)⟩

/-- One stream is aborted, and its RST written, while the session waits for the hello of the server; the
RST of the other is still queued when the hello arrives. -/
def abortTwiceInHandshake : List (Event × Inputs) :=
  openedTwoThenLost ++ [(.attachFd, {}), (.connected true, {}), (.writable, freely)] ++ aborted 1 ++
    [(.writable, freely)] ++ aborted 2 ++ [(.readable (serverHello 7 0), ({} : Inputs))]

/-- The second RST is written after the resume is confirmed and before the log, which does not have
it. -/
theorem abortTwiceInHandshake_writes_rst_before_log :
    let ss0 := dialedSession.run abortTwiceInHandshake
    let ss := ss0.run [(.writable, { writes := [.sent 1000, .sent 0], fuel := 20 })]
    ss0.state = .established ∧ ss0.retransmitOff = some 0 ∧ ss0.unackedList.map Item.birth = [2] ∧
      ss.state = .established ∧ ss.retransmitOff = some 0 ∧
      ss.sent.map Item.birth = ss0.sent.map Item.birth ++ [3] := by
  decide +kernel

end Scenario

end Multiplexd
