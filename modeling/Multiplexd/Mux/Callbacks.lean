import Multiplexd.Mux.Base

/-!
# The callbacks, step by step

Every event is handled by a sequence of elementary steps. This is the one place where the control flow
of the callbacks is followed.
-/

namespace Multiplexd

namespace Session

/-! ### What the functions leave alone -/

/-- The session without what no invariant speaks about: the inputs, the flags of the timers and the
watchers, and the events handed to the owner. -/
def bare (ss : Session) : Session :=
  { ss with
    peerKnown := false, rxOpen := false, txPending := false, sendBlocked := false, dgramTurn := false
    ackTicks := 0, events := [], allocs := [], owner := [], hints := [], writes := [], scheds := [], reacts := [] }

/-- Flags, inputs, watchers and events apart, the two are the same session. -/
def Aux (ss ss' : Session) : Prop := ss'.bare = ss.bare

namespace Aux

variable {ss ss' ss'' : Session}

theorem refl (ss : Session) : Aux ss ss := rfl

variable (h : Aux ss ss')
include h

theorem trans (h' : Aux ss' ss'') : Aux ss ss'' := Eq.trans h' h

theorem state : ss'.state = ss.state := (congrArg Session.state h :)

theorem accepted : ss'.accepted = ss.accepted := (congrArg Session.accepted h :)

theorem retransmitOff : ss'.retransmitOff = ss.retransmitOff :=
  (congrArg Session.retransmitOff h :)

theorem sendbuf : ss'.sendbuf = ss.sendbuf := (congrArg Session.sendbuf h :)

theorem recvbuf : ss'.recvbuf = ss.recvbuf := (congrArg Session.recvbuf h :)

theorem eq : ss' = { ss with
    peerKnown := ss'.peerKnown, rxOpen := ss'.rxOpen, txPending := ss'.txPending, sendBlocked := ss'.sendBlocked
    dgramTurn := ss'.dgramTurn, ackTicks := ss'.ackTicks, events := ss'.events, allocs := ss'.allocs
    owner := ss'.owner, hints := ss'.hints, writes := ss'.writes, scheds := ss'.scheds, reacts := ss'.reacts } :=
  congrArg (fun s : Session => { s with
    peerKnown := ss'.peerKnown, rxOpen := ss'.rxOpen, txPending := ss'.txPending, sendBlocked := ss'.sendBlocked
    dgramTurn := ss'.dgramTurn, ackTicks := ss'.ackTicks, events := ss'.events, allocs := ss'.allocs
    owner := ss'.owner, hints := ss'.hints, writes := ss'.writes, scheds := ss'.scheds, reacts := ss'.reacts }) h

theorem startReplay : Aux ss.startReplay ss'.startReplay := by
  rw [h.eq]
  unfold Session.startReplay
  dsimp only
  split <;> rfl

end Aux

variable {s ss' ss : Session} {rest fs : List MuxFrame} {inPump : Bool} {a : StreamAct} {f : MuxFrame}

theorem notify_aux (ss : Session) : Aux ss ss.notify := rfl

theorem emit_aux (ss : Session) (ev : MuxEvent) : Aux ss (ss.emit ev) :=
  rfl

theorem notifyWrite_aux (ss : Session) : Aux ss ss.notifyWrite := by
  unfold notifyWrite
  split
  · exact ss.notify_aux
  · exact .refl ss

theorem withAllocs_aux (ss : Session) (allocs : List Bool) : Aux ss (ss.withAllocs allocs) :=
  rfl

theorem setState_aux (ss : Session) (st : SessionState) : Aux { ss with state := st } (ss.setState st) := by
  obtain ⟨events, peerKnown, hset⟩ := ss.setState_eq st
  rw [hset]
  exact rfl

theorem ask_aux (ss : Session) (silent : Bool) : Aux ss (ss.ask silent).2 := by
  unfold ask
  split
  · exact .refl ss
  · exact rfl

theorem hint_aux (ss : Session) (silent : Bool) : Aux ss (ss.hint silent).2 := by
  unfold hint
  split
  · exact .refl ss
  · exact rfl

theorem wireSend_aux (ss : Session) : Aux ss ss.wireSend.2 := by
  unfold wireSend
  split
  · exact .refl ss
  · exact rfl

theorem handshakeDone_aux (ss : Session) : Aux { ss with state := .established } ss.handshakeDone := by
  unfold handshakeDone
  refine (ss.setState_aux .established).trans (((ss.setState .established).hint_aux false).trans ?_)
  dsimp only
  split
  · exact notify_aux _
  · exact .refl _

theorem reject_reset_aux (h : s.state ≠ .closed) :
    Aux { s with rejected := true }.closedForm s.reject.reset := by
  obtain ⟨_, _, _, heq⟩ := reset_closedTo (s := s.reject) h
  rw [heq]
  exact rfl

theorem startReplay_state (ss : Session) : ss.startReplay.state = ss.state := by
  unfold startReplay
  split <;> rfl

theorem helloDone_true_aux (ss : Session) :
    Aux { ss with state := .established }.startReplay (helloDone (true, ss)) := by
  have haux := ss.handshakeDone_aux
  simp only [helloDone, haux.state, ne_eq, not_true, if_false]
  exact haux.startReplay

/-- A handshake has come to its end. -/
def Decided (ss : Session) : Prop := ss.state = .closed ∨ ss.state = .established

private theorem helloDone_true_decided (ss : Session) : (helloDone (true, ss)).Decided :=
  .inr ((helloDone_true_aux ss).state.trans (startReplay_state _))

private theorem Aux.of_taken {rest : List UInt8} (h : Aux { ss with recvbuf := rest } s) :
    ∃ s0, Aux ss s0 ∧ s = { s0 with recvbuf := rest } := by
  obtain rfl : s.recvbuf = rest := h.recvbuf
  exact ⟨{ s with recvbuf := ss.recvbuf },
    congrArg (fun t : Session => ({ t with recvbuf := ss.recvbuf } : Session)) h, rfl⟩

theorem Aux.ackEmitted (h : Aux ss ss') (n : Nat) : Aux (ss.ackEmitted n) (ss'.ackEmitted n) := by
  rw [h.eq]
  exact rfl

theorem emitAck_cases (ss : Session) : ∃ allocs, ss.emitAck = ss.withAllocs allocs ∨
    Aux ((ss.withAllocs allocs).pushAck (min ss.unreported 65535)) ss.emitAck := by
  obtain ⟨ok, allocs, hget⟩ := ss.frameGet_eq
  refine ⟨allocs, ?_⟩
  unfold emitAck sendCtrl
  rw [hget]
  cases ok with
  | false => exact .inl rfl
  | true =>
    right
    simp only [Bool.not_true, Bool.false_eq_true, if_false, ne_eq, not_true, false_and]
    exact Aux.ackEmitted (notifyWrite_aux _) _

theorem sendbufPush_keeps (ss : Session) (frame : MuxFrame) :
    (ss.sendbufPush frame).state = ss.state ∧ (ss.sendbufPush frame).retransmitOff = ss.retransmitOff := by
  obtain ⟨_, _, -, heq⟩ := ss.sendbufPush_spec frame
  rw [heq]
  exact ⟨rfl, rfl⟩

/-- All but the end of the session leaves the state and the replay cursor alone. -/
theorem act_keeps (ss : Session) (hreset : a ≠ .reset) (hshutdown : a ≠ .shutdown) :
    (ss.act a).state = ss.state ∧ (ss.act a).retransmitOff = ss.retransmitOff := by
  cases a with
  | push f => exact sendbufPush_keeps _ _
  | ctrl id flags extra =>
    obtain ⟨ok, allocs, hget⟩ := ss.frameGet_eq
    rw [act, sendCtrl, hget]
    cases ok with
    | false => exact ⟨rfl, rfl⟩
    | true =>
      refine ⟨(notifyWrite_aux _).state.trans ?_, (notifyWrite_aux _).retransmitOff.trans ?_⟩ <;> split
      · rfl
      · exact (sendbufPush_keeps _ _).1
      · rfl
      · exact (sendbufPush_keeps _ _).2
  | discard | opened | removed => exact ⟨rfl, rfl⟩
  | reset => exact absurd rfl hreset
  | shutdown => exact absurd rfl hshutdown

/-- A session that ended while the scheduler ran: there is nothing left to send. -/
structure Gone (ss : Session) : Prop where
  state : ss.state = .closed ∨ ss.state = .closing
  sendbuf : ss.sendbuf = []
  oobbuf : ss.oobbuf = []
  dgrambuf : ss.dgrambuf = []
  streams : ss.streams.getD [] = []

theorem Gone.of_closedTo (h : ss.ClosedTo ss') : ss'.Gone := by
  obtain ⟨_, _, _, rfl⟩ := h
  exact ⟨.inl rfl, rfl, rfl, rfl, rfl⟩

/-- A session the pump may be working on. -/
def Pumped (ss : Session) : Prop := ss.state = .established ∨ ss.Gone

theorem Pumped.not_handshake (h : ss.Pumped) : ss.state ≠ .connect ∧ ss.state ≠ .handshake := by
  rcases h with h | ⟨h | h, -⟩ <;> simp [h]

theorem Pumped.act (h : ss.Pumped) (hmay : ss.mayAct inPump a = true) : (ss.act a).Pumped := by
  rcases h with hst | hgone
  · cases a with
    | reset => exact .inr (.of_closedTo (reset_closedTo (by simp [hst])))
    | shutdown =>
      obtain ⟨events, peerKnown, hset⟩ := ss.freeStreams.discardBuffers.unackedFreeAll.setState_eq .closing
      right
      rw [Session.act, initiateShutdown, if_neg (by simp [hst]), hset]
      exact ⟨.inr rfl, rfl, rfl, rfl, rfl⟩
    | push | ctrl | discard | opened | removed =>
      exact .inl ((ss.act_keeps (by simp) (by simp)).1.trans hst)
  · have hne : ss.state ≠ .established := by rcases hgone.state with h | h <;> simp [h]
    cases a with
    | push | opened | reset | shutdown => simp [mayAct, hne] at hmay
    | ctrl | discard => simp [mayAct, hne, hgone.streams] at hmay
    | removed id =>
      refine .inr { hgone with streams := ?_ }
      have := hgone.streams
      cases hs : ss.streams with
      | none => simp [Session.act, hs]
      | some ids =>
        rw [hs] at this
        simp [Session.act, hs, show ids = [] from this]

theorem Pumped.runActs (h : ss.Pumped) (inPump : Bool) (acts : List StreamAct) :
    (ss.runActs inPump acts).Pumped := by
  unfold Session.runActs
  induction acts generalizing ss with
  | nil => exact h
  | cons a acts ih =>
    rw [List.foldl_cons]
    split
    next hmay => exact ih (h.act hmay)
    · exact ih h

theorem Pumped.established_of_oobbuf (h : ss.Pumped)
    (hbuf : ss.oobbuf = f :: fs) : ss.state = .established := by
  rcases h with h | h
  · exact h
  · simp [h.oobbuf] at hbuf

theorem Pumped.established_of_dgrambuf (h : ss.Pumped)
    (hbuf : ss.dgrambuf = f :: fs) : ss.state = .established := by
  rcases h with h | h
  · exact h
  · simp [h.dgrambuf] at hbuf

theorem pushAck_state (ss : Session) (n : Nat) : (ss.pushAck n).state = ss.state :=
  (sendbufPush_keeps { ss with births := ss.births + 1 } _).1

theorem emitAck_state (ss : Session) : ss.emitAck.state = ss.state := by
  obtain ⟨allocs, heq | haux⟩ := ss.emitAck_cases
  · rw [heq]
    rfl
  · exact haux.state.trans (pushAck_state _ _)

theorem ackIfDue_state (ss : Session) : ss.ackIfDue.state = ss.state := by
  unfold ackIfDue
  split
  · exact ss.emitAck_state
  · rfl

end Session

variable [HelloCodec] {q : Bool} {e : Event}

namespace Steps

variable {ss ss' ss'' : Session}

theorem refl (ss : Session) : Steps q e ss ss := Relation.ReflTransGen.refl

theorem single (h : Micro q e ss ss') : Steps q e ss ss' := Relation.ReflTransGen.single h

theorem trans (h : Steps q e ss ss') (h' : Steps q e ss' ss'') : Steps q e ss ss'' :=
  Relation.ReflTransGen.trans h h'

theorem base (h : Steps q e ss ss') (hb : Base ss) : Base ss' :=
  reflTransGen_invariant Base (fun _ _ hm => hm.base) h hb

end Steps

namespace Session

variable {s ss' ss : Session} {rest fs : List MuxFrame} {n : Nat} {inPump : Bool} {a : StreamAct}
  {frame f : MuxFrame}

theorem Aux.steps (h : Aux ss ss') : Steps q e ss ss' := by
  rw [h.eq]
  exact .single (.aux ss _ _ _ _ _ _ _ _ _ _ _ _ _)

theorem closedTo_steps (h : s.ClosedTo ss') : Steps q e s ss' := by
  obtain ⟨events, peerKnown, allocs, rfl⟩ := h
  exact (Steps.single (.closed s)).trans (Aux.steps rfl)

section

variable (ss)

theorem reset_steps : Steps q e ss ss.reset := by
  by_cases h : ss.state = .closed
  · rw [reset, if_pos h]
    exact .refl ss
  · exact closedTo_steps (reset_closedTo h)

theorem notifyClosed_steps (expired : Bool) : Steps q e ss (ss.notifyClosed expired) := by
  unfold notifyClosed
  split
  · exact .refl ss
  · exact ss.reset_steps.trans (emit_aux _ _).steps

theorem emitIfClosed_steps : Steps q e ss ss.emitIfClosed := by
  unfold emitIfClosed
  split
  · exact (ss.emit_aux _).steps
  · exact .refl ss

theorem suspendOrReset_steps : Steps q e ss ss.suspendOrReset := by
  unfold suspendOrReset
  split
  next h => exact .single (.suspend ss (h.2.imp_right fun h => h.2) (.inl h.1))
  · exact ss.reset_steps

theorem closing_steps (known : Bool) (h : ss.state = .established ∨ ss.state = .handshake) :
    Steps q e ss
      ({ ss.discardBuffers.unackedFreeAll with hasSessionId := known }.setState .closing).notify := by
  let cleared := { ss.discardBuffers.unackedFreeAll with hasSessionId := known }
  exact (Steps.single (.closing ss known h)).trans
    ((cleared.setState_aux .closing).trans (notify_aux _)).steps

theorem initiateShutdown_steps : Steps q e ss ss.initiateShutdown := by
  unfold initiateShutdown
  split
  · exact ss.notifyClosed_steps _
  next h =>
    have hst : ss.state = .established ∨ ss.state = .handshake := by
      by_contra hne
      exact h (by simpa using hne)
    exact (Steps.single (.table ss none (.inr (by simp)))).trans
      (ss.freeStreams.closing_steps ss.hasSessionId hst)

variable {ss} in
/-- A session that was captured and then closed might as well have been closed at once. -/
theorem captured_closedTo_steps {ss'' : Session} (h : Captured ss ss') (hclosed : ss'.ClosedTo ss'') :
    Steps q e ss ss'' := by
  obtain ⟨allocs, heq⟩ := h.closedForm
  obtain ⟨_, _, _, rfl⟩ := hclosed
  rw [heq]
  exact (Steps.single (.closed ss)).trans (Aux.steps rfl)

variable {ss} in
private theorem attachInstall_steps {form : Session}
    (hstep : Micro q e ss { form with out := [], sent := [], sendBlocked := false, state := .connect })
    (hfail : ∀ allocs, Steps q e ss ((form.withAllocs allocs).notifyClosed false)) :
    Steps q e ss form.attachInstall := by
  unfold attachInstall
  split
  · refine (Steps.single hstep).trans (Aux.trans ?_ ((setState_aux _ _).trans (notify_aux _))).steps
    exact rfl
  · obtain ⟨ok, allocs, hget⟩ := form.frameGet_eq
    rw [hget]
    cases ok with
    | false => exact hfail allocs
    | true =>
      refine (Steps.single hstep).trans ((Steps.single (.table _ (some []) (.inr (by simp)))).trans ?_)
      refine (Aux.trans ?_ ((setState_aux _ _).trans (notify_aux _))).steps
      exact rfl

theorem attachFd_steps (he : e = .attachFd) (ha : ss.accepted = false)
    (hst : ss.state = .init ∨ ss.state = .suspended ∨ ss.state = .closed) : Steps q e ss ss.attachFd := by
  unfold attachFd
  by_cases hsusp : ss.state = .suspended
  · have hne : ss.state ≠ .closed := by simp [hsusp]
    rw [if_pos hsusp]
    dsimp only
    split
    next hclosed =>
      rcases ss.captureAndDiscard_spec hne with ⟨_, _, _, _, _, heq⟩ | hto
      · rw [heq] at hclosed
        exact absurd hclosed hne
      · exact (closedTo_steps hto).trans (emit_aux _ _).steps
    next hopen =>
      have hc := captureAndDiscard_open hne hopen
      refine attachInstall_steps (.attach ss he ha hsusp hopen) fun allocs => ?_
      rw [notifyClosed, if_neg (by exact hopen)]
      exact (captured_closedTo_steps hc (reset_closedTo (s := ss.captureAndDiscard.withAllocs allocs)
        hopen)).trans (emit_aux _ _).steps
  · rw [if_neg hsusp]
    have hst : ss.state = .init ∨ ss.state = .closed := by
      rcases hst with h | h | h
      · exact .inl h
      · exact absurd h hsusp
      · exact .inr h
    exact attachInstall_steps (.install ss he ha hst) fun allocs =>
      (ss.withAllocs_aux allocs).steps.trans (notifyClosed_steps _ _)

/-- `mux_handshake_enqueue_hello`. -/
theorem enqueueHello_cases (server incl : Bool) (hst : ss.state ≠ .closed) :
    (∃ ss', ss.enqueueHello server incl = (false, ss') ∧ ss.ClosedTo ss') ∨
      ∃ allocs, ss.enqueueHello server incl =
        (true, { ss.pushHello server incl with txPending := true, allocs := allocs }) := by
  obtain ⟨ok, allocs, hget⟩ := ss.frameGet_eq
  rw [enqueueHello, hget]
  cases ok with
  | false => exact .inl ⟨_, rfl, reset_closedTo (s := ss.withAllocs allocs) hst⟩
  | true => exact .inr ⟨allocs, rfl⟩

theorem handshakeStart_steps (he : e = .connected true) (ha : ss.accepted = false)
    (hst : ss.state = .connect) : Steps q e ss ss.handshakeStart := by
  obtain ⟨events, peerKnown, hset⟩ := ss.setState_eq .handshake
  have hacc : (ss.withState .handshake events peerKnown).accepted = false := ha
  unfold handshakeStart
  rw [hset]
  simp only [hacc, Bool.false_eq_true, if_false]
  rcases (ss.withState .handshake events peerKnown).enqueueHello_cases false
      (ss.withState .handshake events peerKnown).hasSessionId (by simp [withState]) with
    ⟨ss', heq, hclosed⟩ | ⟨allocs, heq⟩
  · rw [heq]
    exact closedTo_steps (s := ss) hclosed
  · rw [heq]
    exact (Steps.single (.dialed ss he ha hst)).trans (Aux.steps rfl)

theorem start_steps (he : e = .start) (ha : ss.accepted = true) (hst : ss.state = .init) :
    Steps q e ss ss.installTransport.handshakeStart.notify := by
  obtain ⟨events, peerKnown, hset⟩ := ss.installTransport.setState_eq .handshake
  have hacc : (ss.installTransport.withState .handshake events peerKnown).accepted = true := ha
  unfold handshakeStart
  rw [hset]
  simp only [hacc, if_true]
  exact (Steps.single (.accepted ss he ha hst)).trans (Aux.steps rfl)

/-! ### The peer's hello -/

theorem processHelloServer_cases (hello : Hello) (hst : ss.state ≠ .closed) : ∃ s, Aux ss s ∧
      ((∃ ss', ss.processHelloServer hello = (false, ss') ∧ s.ClosedTo ss') ∨
        ∃ allocs, ss.processHelloServer hello =
          (true, { s.pushHello true false with txPending := true, allocs := allocs })) := by
  unfold processHelloServer
  dsimp only
  have haux : Aux ss (if hello.sessionId.isSome then ss.ask false else (false, ss)).2 := by
    split
    · exact ss.ask_aux false
    · exact .refl ss
  generalize (if hello.sessionId.isSome then ss.ask false else (false, ss)) = answer at *
  obtain ⟨handed, s⟩ := answer
  cases handed with
  | true => exact ⟨s, haux, .inl ⟨_, rfl, reset_closedTo (haux.state ▸ hst)⟩⟩
  | false =>
    replace haux := haux.trans (s.ask_aux true)
    simp only [Bool.false_eq_true, if_false]
    generalize s.ask true = answer at *
    obtain ⟨admitted, s'⟩ := answer
    have hst' : s'.state ≠ .closed := haux.state ▸ hst
    refine ⟨s', haux, ?_⟩
    cases admitted with
    | false => exact .inl ⟨_, rfl, reset_closedTo hst'⟩
    | true => exact s'.enqueueHello_cases true false hst'

omit [HelloCodec] in
theorem handshakeClientFresh_cases (id : BitVec 128) (hst : ss.state ≠ .closed) :
    (∃ ss', ss.handshakeClientFresh id = (false, ss') ∧ ss.ClosedTo ss') ∨
      ∃ ss', ss.handshakeClientFresh id = (true, ss') ∧
        Aux { ss.freshForm id with streams := some [] } { ss' with state := .established } := by
  obtain ⟨ok, allocs, hget⟩ := ss.freeStreams.frameGet_eq
  unfold handshakeClientFresh
  rw [hget]
  cases ok with
  | false => exact .inl ⟨_, rfl, reset_closedTo (s := ss.freeStreams.withAllocs allocs) hst⟩
  | true => exact .inr ⟨_, rfl, rfl⟩

end

section Hello

variable {ss : Session} {f : Frame} {rest : List UInt8} {hello : Hello}

private theorem helloServer_steps (hello : Hello) (he : e.reads = true) (ha : ss.accepted = true) (hst : ss.state = .handshake)
    (hdec : Frame.decode ss.recvbuf = some (f, rest)) (hversion : f.version = 0) :
    Steps q e ss (helloDone ({ ss with recvbuf := rest }.processHelloServer hello)) ∧
      (helloDone ({ ss with recvbuf := rest }.processHelloServer hello)).Decided := by
  obtain ⟨s, haux, hcases⟩ := processHelloServer_cases { ss with recvbuf := rest } hello (by simp [hst])
  obtain ⟨s0, haux0, rfl⟩ := haux.of_taken
  rcases hcases with ⟨ss', heq, hclosed⟩ | ⟨allocs, heq⟩
  · rw [heq]
    exact ⟨haux0.steps.trans (closedTo_steps (s := s0) hclosed), .inl hclosed.state⟩
  · rw [heq]
    refine ⟨haux0.steps.trans ?_, helloDone_true_decided _⟩
    refine (Steps.single (.helloServer s0 f rest he (haux0.accepted.trans ha) (haux0.state.trans hst)
      (haux0.recvbuf ▸ hdec) hversion)).trans ?_
    refine (Aux.trans (Aux.startReplay ?_) (helloDone_true_aux _)).steps
    exact rfl

private theorem helloClient_steps (hbase : Base ss) (he : e.reads = true) (ha : ss.accepted = false) (hst : ss.state = .handshake)
    (hdec : Frame.decode ss.recvbuf = some (f, rest)) (hversion : f.version = 0)
    (hparse : HelloCodec.parse f.payload = some hello) :
    Steps q e ss (helloDone ({ ss with recvbuf := rest }.processHelloClient hello)) ∧
      (helloDone ({ ss with recvbuf := rest }.processHelloClient hello)).Decided := by
  have hopen : { ss with recvbuf := rest }.state ≠ .closed := by simp [hst]
  have hlog : { ss with recvbuf := rest }.LogInv := hbase.log
  unfold processHelloClient
  split
  · have hclosed := reset_closedTo hopen
    exact ⟨closedTo_steps (s := ss) hclosed, .inl hclosed.state⟩
  next id hid =>
  split
  next hconfirm =>
    cases hack : { ss with recvbuf := rest }.resumeAckRecv hello.resumeSeq.toNat with
    | mk ok ss' =>
      cases ok with
      | true =>
        exact ⟨(Steps.single
          (.helloResume ss ss' f rest hello he ha hst hdec hversion hparse hconfirm hack)).trans
          (helloDone_true_aux ss').steps, helloDone_true_decided ss'⟩
      | false =>
        obtain ⟨count, hacks⟩ := resumeAckRecv_false hlog hack
        have haux := reject_reset_aux (s := ss') (hacks.fields.1 ▸ hopen)
        exact ⟨(Steps.single
          (.helloReject ss ss' f rest hello he ha hst hdec hversion hparse hconfirm hack)).trans haux.steps,
          .inl haux.state⟩
  next hconfirm =>
    rcases handshakeClientFresh_cases { ss with recvbuf := rest } id hopen with
      ⟨ss', heq, hclosed⟩ | ⟨ss', heq, haux⟩
    · rw [heq]
      exact ⟨closedTo_steps (s := ss) hclosed, .inl hclosed.state⟩
    · rw [heq]
      refine ⟨?_, helloDone_true_decided ss'⟩
      refine (Steps.single (.helloFresh ss f rest hello id he ha hst hdec hversion hparse hid
        (by rw [← Bool.not_eq_true]; exact hconfirm))).trans ?_
      refine (Steps.single (.table _ (some []) (.inr (by simp)))).trans ?_
      exact (Aux.trans haux.startReplay (helloDone_true_aux ss')).steps

theorem processHello_steps (hbase : Base ss) (hst : ss.state = .handshake ∨ ss.state = .established)
    (he : ss.state = .handshake → e.reads = true)
    (hdec : Frame.decode ss.recvbuf = some (f, rest)) (hversion : f.version = 0) :
    Steps q e ss ({ ss with recvbuf := rest }.processHello f) ∧
      ({ ss with recvbuf := rest }.processHello f).Decided := by
  have hopen : { ss with recvbuf := rest }.state ≠ .closed := by
    rcases hst with h | h <;> simp [h]
  have hclosed := reset_closedTo hopen
  have hreset : Steps q e ss { ss with recvbuf := rest }.reset ∧
      { ss with recvbuf := rest }.reset.Decided :=
    ⟨closedTo_steps (s := ss) hclosed, .inl hclosed.state⟩
  unfold processHello
  split
  · exact hreset
  next hhand =>
  replace he := he (by simpa using hhand)
  split
  · exact hreset
  split
  · exact hreset
  next hello hparse =>
  split
  · exact hreset
  have haux := { ss with recvbuf := rest }.ask_aux true
  generalize { ss with recvbuf := rest }.ask true = answer at *
  obtain ⟨verified, s⟩ := answer
  obtain ⟨s0, haux0, rfl⟩ := haux.of_taken
  have hhand0 : s0.state = .handshake := haux0.state.trans (by simpa using hhand)
  cases verified with
  | false =>
    have hclosed0 := reset_closedTo (s := { s0 with recvbuf := rest }) (by simp [hhand0])
    exact ⟨haux0.steps.trans (closedTo_steps (s := s0) hclosed0), .inl hclosed0.state⟩
  | true =>
    have hdec0 : Frame.decode s0.recvbuf = some (f, rest) := haux0.recvbuf ▸ hdec
    have hbase0 : Base s0 := haux0.steps.base (q := q) (e := e) hbase
    simp only [Bool.not_true, Bool.false_eq_true, if_false]
    by_cases ha : s0.accepted = true
    · rw [if_pos ha]
      have := helloServer_steps (q := q) (e := e) hello he ha hhand0 hdec0 hversion
      exact ⟨haux0.steps.trans this.1, this.2⟩
    · rw [if_neg ha]
      have := helloClient_steps (q := q) (e := e) hbase0 he (by simpa using ha) hhand0 hdec0 hversion
        hparse
      exact ⟨haux0.steps.trans this.1, this.2⟩

end Hello

private theorem resumeInstall_steps (he : e = .resume n)
    (ha : ss.accepted = true) (hst : ss.state = .suspended) : Steps q e ss ss.resumeInstall := by
  have hne : ss.state ≠ .closed := by simp [hst]
  unfold resumeInstall
  dsimp only
  split
  next hclosed =>
    rcases ss.captureAndDiscard_spec hne with ⟨_, _, _, _, _, heq⟩ | hto
    · rw [heq] at hclosed
      exact absurd hclosed hne
    · exact (closedTo_steps hto).trans (emit_aux _ _).steps
  next hopen =>
  have hc := captureAndDiscard_open hne hopen
  have hstep : Micro q e ss _ := .resumeInstall ss n he ha hst hopen
  generalize ss.captureAndDiscard = s at *
  obtain ⟨events, peerKnown, hset⟩ := s.installTransport.setState_eq .handshake
  rw [hset]
  rcases (s.installTransport.withState .handshake events peerKnown).enqueueHello_cases true true
      (by simp [withState]) with ⟨ss', heq, hclosed⟩ | ⟨allocs, heq⟩
  · rw [heq]
    dsimp only
    rw [if_pos hclosed.state]
    obtain ⟨_, _, _, rfl⟩ := hclosed
    obtain ⟨_, hform⟩ := hc.closedForm
    refine (Steps.single (.closed ss)).trans ((Steps.single (.forget _ n he rfl)).trans (Aux.steps ?_))
    refine Aux.trans ?_ (emit_aux _ _)
    have hcf : (s.installTransport.withState .handshake events peerKnown).closedForm =
        { s.closedForm with out := [], sent := [], rxOpen := true, txPending := false, sendBlocked := false
                            events := events, peerKnown := peerKnown } := rfl
    rw [hcf, hform]
    exact rfl
  · rw [heq]
    refine (Steps.single hstep).trans ?_
    have haux := handshakeDone_aux { (s.installTransport.withState .handshake events peerKnown).pushHello
      true true with txPending := true, allocs := allocs }
    dsimp only
    rw [if_neg (by simp [haux.state])]
    refine (Aux.trans (Aux.startReplay (Aux.trans ?_ haux)) (notify_aux _)).steps
    exact rfl

theorem resumeAttach_steps (hbase : Base ss) (he : e = .resume n)
    (ha : ss.accepted = true) : Steps q e ss (ss.resumeAttach n) := by
  unfold resumeAttach
  split
  · exact .refl ss
  next hst =>
  have hsusp : Steps q e ss (if ss.state = .established then ss.suspend else ss) := by
    split
    next h => exact .single (.suspend ss (.inl h) (.inr ha))
    · exact .refl ss
  have hacc : (if ss.state = .established then ss.suspend else ss).accepted = true := by
    split
    · exact ss.suspend_accepted.trans ha
    · exact ha
  refine hsusp.trans ?_
  have hbase' := hsusp.base hbase
  dsimp only
  generalize (if ss.state = .established then ss.suspend else ss) = s at *
  split
  · exact (emit_aux _ _).steps
  next hstate =>
  have hstate : s.state = .suspended := by simpa using hstate
  cases hack : s.resumeAckRecv n with
  | mk ok ss' =>
    cases ok with
    | false =>
      obtain ⟨count, hacks⟩ := resumeAckRecv_false hbase'.log hack
      exact (Steps.single (.resumeReject s ss' n he hstate hack)).trans
        ((reject_reset_aux (by simp [hacks.fields.1, hstate])).trans (emit_aux _ _)).steps
    | true =>
      obtain ⟨count, ss1, -, hacks, -, rfl⟩ := resumeAckRecv_spec hbase'.log hack
      exact (Steps.single (.resumeTrim s _ n he hstate hack)).trans
        (resumeInstall_steps he (hacks.accepted.trans hacc) (hacks.fields.1.trans hstate))

/-- Frames for the send buffer are refused while a transport is dialed and its handshake runs. -/
def Hushed (q : Bool) (e : Event) (ss : Session) : Prop :=
  q = true ∧ ss.retransmitOff = none ∨ e.isStream = false → ss.state ≠ .connect ∧ ss.state ≠ .handshake

theorem sendCtrl_steps {id : UInt16} (flags : UInt8) (extra : Nat) (hid : id ≠ streamIdCtrl)
    (hst : ss.state = .established ∨ id ∈ ss.streams.getD []) (hquiet : ss.Hushed q e) :
    Steps q e ss (ss.sendCtrl id flags extra).2 := by
  obtain ⟨ok, allocs, hget⟩ := ss.frameGet_eq
  unfold sendCtrl
  rw [hget]
  refine (ss.withAllocs_aux allocs).steps.trans ?_
  cases ok with
  | false => exact .refl _
  | true =>
    refine Steps.trans ?_ (notifyWrite_aux _).steps
    dsimp only
    by_cases hoff : ss.retransmitOff.isSome = true
    · rw [if_pos ⟨hid, hoff⟩]
      exact .single (.park (ss.withAllocs allocs) (ctrlFrame id flags extra) rfl hid hoff hst
        fun he => hquiet (.inr he))
    · rw [if_neg fun h => hoff h.2]
      have hoff : ss.retransmitOff = none := by simpa using hoff
      exact .single (.push (ss.withAllocs allocs) (ctrlFrame id flags extra) rfl hid hoff hst
        fun hq => hquiet (hq.imp_left fun hq => ⟨hq, hoff⟩))

theorem emitAck_steps (hst : ss.state = .established) : Steps q e ss ss.emitAck := by
  obtain ⟨allocs, heq | haux⟩ := ss.emitAck_cases
  · rw [heq]
    exact (ss.withAllocs_aux allocs).steps
  · exact (ss.withAllocs_aux allocs).steps.trans
      ((Steps.single (.ack (ss.withAllocs allocs) hst)).trans haux.steps)

theorem sendOob_steps (extra : UInt16) (payload : List UInt8) (h : payload.length < 65536)
    (hst : ss.state = .established) : Steps q e ss (ss.sendOob extra payload h).2 := by
  obtain ⟨ok, allocs, hget⟩ := ss.frameGet_eq
  unfold sendOob
  rw [hget]
  refine (ss.withAllocs_aux allocs).steps.trans ?_
  cases ok with
  | false => exact .refl _
  | true =>
    exact (Steps.single (.oob (ss.withAllocs allocs) (oobFrame extra payload h) rfl rfl rfl hst)).trans
      (notifyWrite_aux _).steps

theorem sendDgram_steps (ss : Session) (fin : Bool) (flow : UInt16) (payload : List UInt8)
    (h : payload.length < 65536) : Steps q e ss (ss.sendDgram fin flow payload h).2 := by
  unfold sendDgram
  split
  next hst =>
    obtain ⟨ok, allocs, hget⟩ := ss.frameGet_eq
    rw [hget]
    refine (ss.withAllocs_aux allocs).steps.trans ?_
    cases ok with
    | false => exact .refl _
    | true =>
      exact (Steps.single (.dgram (ss.withAllocs allocs) (dgramFrame fin flow payload h) rfl rfl
        (by cases fin <;> decide : hasFlag (if fin then flagFin else flagPush) flagAck = false) hst.1)).trans (notifyWrite_aux _).steps
  · exact .refl ss

theorem act_steps (hmay : ss.mayAct inPump a = true)
    (hquiet : (∃ id flags extra, a = .ctrl id flags extra) → ss.Hushed q e) : Steps q e ss (ss.act a) := by
  cases a with
  | push f =>
    simp only [mayAct, Bool.and_eq_true, beq_iff_eq, Option.isNone_iff_eq_none] at hmay
    exact .single (.push ss f.frame f.version_eq f.streamId_ne hmay.2 (.inl hmay.1.2) (by simp [hmay.1.2]))
  | ctrl id flags extra =>
    simp only [mayAct, Bool.and_eq_true, bne_iff_ne, Bool.or_eq_true, beq_iff_eq, List.contains_iff_mem] at hmay
    exact sendCtrl_steps flags extra hmay.1 hmay.2 (hquiet ⟨id, flags, extra, rfl⟩)
  | discard id =>
    simp only [mayAct, Bool.and_eq_true, bne_iff_ne] at hmay
    exact .single (.discard ss id hmay.1)
  | opened id =>
    exact .single (.table ss _ (.inl (by simpa [mayAct] using hmay)))
  | removed id =>
    refine .single (.table ss _ (.inr ?_))
    cases ss.streams with
    | none => simp
    | some ids => simpa using fun id hid _ => hid
  | reset => exact ss.reset_steps
  | shutdown => exact ss.initiateShutdown_steps

theorem Gone.of_closed (h : Base ss) (hst : ss.state = .closed) : ss.Gone := by
  obtain ⟨hsend, hoob, hdgram, hstreams, -⟩ := h.st.idle (.inr hst)
  exact ⟨.inl hst, hsend, hoob, hdgram, hstreams⟩

theorem runActs_steps (inPump : Bool) (acts : List StreamAct)
    (hquiet : (∃ a ∈ acts, ∃ id flags extra, a = .ctrl id flags extra) → ss.Hushed q e) :
    Steps q e ss (ss.runActs inPump acts) := by
  unfold runActs
  induction acts generalizing ss with
  | nil => exact .refl ss
  | cons a acts ih =>
    rw [List.foldl_cons]
    by_cases hmay : ss.mayAct inPump a = true
    · rw [if_pos hmay]
      refine (act_steps hmay fun h => hquiet ⟨a, List.mem_cons_self, h⟩).trans (ih ?_)
      rintro ⟨b, hb, h⟩
      by_cases hend : a = .reset ∨ a = .shutdown
      · have hst : ss.state = .established := by rcases hend with rfl | rfl <;> simpa [mayAct] using hmay
        exact fun _ => (Pumped.act (.inl hst) hmay).not_handshake
      · obtain ⟨hstate, hoff⟩ := ss.act_keeps (fun h => hend (.inl h)) (fun h => hend (.inr h))
        rw [Hushed, hstate, hoff]
        exact hquiet ⟨b, List.mem_cons_of_mem a hb, h⟩
    · rw [if_neg hmay]
      exact ih fun ⟨b, hb, h⟩ => hquiet ⟨b, List.mem_cons_of_mem a hb, h⟩

theorem callSched_steps (h : s.Pumped) : Steps q e s s.callSched.2 ∧ s.callSched.2.Pumped := by
  unfold callSched
  split
  · exact ⟨.refl s, h⟩
  next acts staged rest heq =>
    have haux : Aux s { s with scheds := rest } := rfl
    have h' : Pumped { s with scheds := rest } := by
      rcases h with h | h
      · exact .inl h
      · exact .inr { h with }
    exact ⟨haux.steps.trans (runActs_steps true acts fun _ _ => h'.not_handshake), h'.runActs true acts⟩

/-! ### The pump -/

omit [HelloCodec] in
/-- A write that reaches the end of the head completes at least one frame. -/
theorem handOver_sent_ne_nil (hpos : frame.pos < frame.len)
    (hlen : frame.pos + n = frame.len) : (s.handOver frame n).sent ≠ [] := by
  have hbefore : wholeItems frame.items frame.pos < frame.items.length := by
    have := frameCode.whole_lt_length hpos
    simpa [wholeItems] using this
  have hafter : wholeItems frame.items (frame.pos + n) = frame.items.length := by
    have := frameCode.whole_eq_length (Nat.le_of_eq hlen.symm)
    simpa [wholeItems] using this
  have hlast : ((frame.items.take (wholeItems frame.items (frame.pos + n))).drop
      (wholeItems frame.items frame.pos)).length ≠ 0 := by
    rw [hafter, List.take_length, List.length_drop]
    omega
  intro hnil
  exact hlast (by rw [(List.append_eq_nil_iff.mp hnil).2]; rfl)

/-- Nothing of the send buffer is being written. -/
def Flushed (ss : Session) : Prop :=
  ss.retransmitCopy = false ∧ (∀ f ∈ ss.sendbuf, f.pos = 0) ∧ (ss.sent ≠ [] ∨ ss.sendbuf = [])

theorem flushFull_flushed (h : Base ss)
    (hst : ss.state = .handshake ∨ ss.state = .established) (hbuf : ss.sendbuf = frame :: rest)
    (hlen : frame.pos + n = frame.len) : (ss.flushFull frame rest n).state = .closed ∨
      ((ss.flushFull frame rest n).state = ss.state ∧ (ss.flushFull frame rest n).Flushed) := by
  have hsent := handOver_sent_ne_nil (s := ss) (h.buf.head frame (by simp [hbuf])) hlen
  have hpos := h.buf.rest
  rw [hbuf] at hpos
  obtain ⟨staging, -, ⟨-, heq⟩ | ⟨hcopy, hlogs⟩ | hclosed⟩ := h.flushFull_spec hst hbuf n
  · rw [heq]
    exact .inr ⟨rfl, rfl, hpos, .inl hsent⟩
  · generalize ss.flushFull frame rest n = s at *
    obtain ⟨_, _, _, -, -, rfl⟩ := hlogs
    exact .inr ⟨rfl, hcopy, hpos, .inl hsent⟩
  · exact .inl hclosed.state

theorem flushResult_steps (h : Base ss)
    (hst : ss.state = .handshake ∨ ss.state = .established) (hbuf : ss.sendbuf = frame :: rest)
    (r : WireResult) : Steps q e ss (ss.flushResult frame rest r).2 ∧
      ((ss.flushResult frame rest r).1 = false → (ss.flushResult frame rest r).2.state = .closed ∨
        ((ss.flushResult frame rest r).2.state = ss.state ∧ (ss.flushResult frame rest r).2.Flushed)) := by
  cases r with
  | fail n =>
    refine ⟨?_, by simp [flushResult]⟩
    unfold flushResult suspendOrReset
    dsimp only
    split
    next hid => exact .single (.fail ss frame rest n hst hbuf (.inl hid.1))
    · refine (Steps.single (.failClosed ss frame rest n hst hbuf)).trans ?_
      obtain ⟨_, _, _, heq⟩ := reset_closedTo (s := ss.handOver frame n)
        (by show ss.state ≠ .closed; rcases hst with h | h <;> simp [h])
      rw [heq]
      exact Aux.steps rfl
  | sent n =>
    cases n with
    | zero => exact ⟨.single (.freeze ss frame rest hbuf), by simp [flushResult]⟩
    | succ k =>
      have hpos := h.buf.head frame (by simp [hbuf])
      unfold flushResult
      dsimp only
      split
      next hlt => exact ⟨.single (.flushPart ss frame rest _ hst hbuf hlt), by simp⟩
      next hlt =>
        have hlen : frame.pos + min (k + 1) (frame.len - frame.pos) = frame.len := by omega
        exact ⟨.single (.flushFull ss frame rest _ hst hbuf hlen),
          fun _ => flushFull_flushed h hst hbuf hlen⟩

theorem flushSendbufHead_steps (h : Base ss) (hst : ss.state = .handshake ∨ ss.state = .established) :
    Steps q e ss ss.flushSendbufHead.2 ∧
      (ss.flushSendbufHead.1 = false → ss.flushSendbufHead.2.state = .closed ∨
        (ss.flushSendbufHead.2.state = ss.state ∧ ss.flushSendbufHead.2.Flushed)) := by
  unfold flushSendbufHead
  split
  next hbuf =>
    exact ⟨.refl ss, fun _ => .inr ⟨rfl, h.copy_of_nil hbuf, by simp [hbuf], .inr hbuf⟩⟩
  next frame rest hbuf =>
    have haux := ss.wireSend_aux
    have hsteps := haux.steps (q := q) (e := e)
    obtain ⟨hflush, hflushed⟩ := flushResult_steps (q := q) (e := e) (hsteps.base h)
      (haux.state ▸ hst) (haux.sendbuf.trans hbuf) ss.wireSend.1
    exact ⟨hsteps.trans hflush, haux.state ▸ hflushed⟩

theorem sendStageIdleDgram_steps (h : ss.Pumped) :
    Steps q e ss ss.sendStageIdleDgram.2 ∧ ss.sendStageIdleDgram.2.Pumped := by
  unfold sendStageIdleDgram
  split
  · exact ⟨.refl ss, h⟩
  next frame rest hbuf =>
    have hst := h.established_of_dgrambuf hbuf
    have haux : Aux ss { ss with dgramTurn := false } := rfl
    exact ⟨haux.steps.trans (.single (.stageDgram _ frame rest hst hbuf)),
      .inl ((sendbufPush_keeps _ _).1.trans hst)⟩

theorem sendStageNew_steps (h : ss.Pumped) (hoff : ss.retransmitOff = none) :
    Steps q e ss ss.sendStageNew.2 ∧ ss.sendStageNew.2.Pumped := by
  have hsched := callSched_steps (q := q) (e := e) h
  unfold sendStageNew
  split
  next frame rest hbuf =>
    have hst := h.established_of_oobbuf hbuf
    exact ⟨.single (.stageOob ss frame rest hst hoff hbuf), .inl ((sendbufPush_keeps _ _).1.trans hst)⟩
  · split
    · exact sendStageIdleDgram_steps h
    split
    · have := sendStageIdleDgram_steps (q := q) (e := e) hsched.2
      exact ⟨hsched.1.trans this.1, this.2⟩
    generalize ss.callSched = answer at *
    obtain ⟨staged, s⟩ := answer
    cases staged with
    | true =>
      have haux : Aux s { s with dgramTurn := true } := rfl
      refine ⟨hsched.1.trans haux.steps, ?_⟩
      rcases hsched.2 with h | h
      · exact .inl h
      · exact .inr { h with }
    | false =>
      have hsched' := callSched_steps (q := q) (e := e) hsched.2
      have := sendStageIdleDgram_steps (q := q) (e := e) hsched'.2
      exact ⟨hsched.1.trans (hsched'.1.trans this.1), this.2⟩

theorem sendQueueRetransmit_steps {off : Nat} (hst : ss.state = .established)
    (hoff : ss.retransmitOff = some off) (hflushed : ss.Flushed) : Steps q e ss (ss.sendQueueRetransmit off).2 ∧
      (ss.sendQueueRetransmit off).2.state = .established := by
  unfold sendQueueRetransmit
  split
  · exact ⟨.refl ss, hst⟩
  next orig horig =>
    obtain ⟨ok, allocs, hget⟩ := ss.frameGet_eq
    have haux := ss.withAllocs_aux allocs
    rw [hget]
    cases ok with
    | false => exact ⟨haux.steps, hst⟩
    | true =>
      exact ⟨haux.steps.trans (.single (.copy (ss.withAllocs allocs) off orig hst hoff horig
        hflushed.1 hflushed.2.1 hflushed.2.2)), hst⟩

theorem sendStageReplay_steps (h : Base ss)
    (hst : ss.state = .closed ∨ (ss.state = .established ∧ ss.Flushed)) :
    Steps q e ss ss.sendStageReplay.2 ∧ ss.sendStageReplay.2.Pumped := by
  have hpumped : ss.Pumped := by
    rcases hst with hst | hst
    · exact .inr (.of_closed h hst)
    · exact .inl hst.1
  unfold sendStageReplay
  split
  next hoff => exact sendStageNew_steps hpumped hoff
  next off hoff =>
    have hest : ss.state = .established ∧ ss.Flushed := by
      rcases hst with hst | hst
      · obtain ⟨_, _, _, _, _, hnone⟩ := h.st.idle (.inr hst)
        simp [hnone] at hoff
      · exact hst
    split
    next hlen =>
      have hstep : Steps q e ss (ss.setReplayOff none) := .single (.replayed ss off hest.1 hoff hlen)
      have hpumped' : (ss.setReplayOff none).Pumped := by
        rcases hpumped with h | h
        · exact .inl h
        · exact .inr { h with }
      have := sendStageNew_steps (q := q) (e := e) hpumped' rfl
      exact ⟨hstep.trans this.1, this.2⟩
    · obtain ⟨hsteps, hst'⟩ := sendQueueRetransmit_steps (q := q) (e := e) hest.1 hoff hest.2
      generalize ss.sendQueueRetransmit off = answer at *
      obtain ⟨queued, s⟩ := answer
      cases queued <;> exact ⟨hsteps, .inl hst'⟩

theorem sendStageNext_steps (h : Base ss) (hst : ss.state = .established) : Steps q e ss ss.sendStageNext.2 ∧
      (ss.sendStageNext.1 ≠ .blocked → ss.sendStageNext.2.Pumped) := by
  unfold sendStageNext
  split
  · obtain ⟨hflush, hflushed⟩ := flushSendbufHead_steps (q := q) (e := e) h (.inr hst)
    have hbase := hflush.base h
    generalize ss.flushSendbufHead = answer at *
    obtain ⟨stop, s⟩ := answer
    cases stop with
    | true => exact ⟨hflush, by simp⟩
    | false =>
      have := sendStageReplay_steps (q := q) (e := e) hbase (by
        rcases hflushed rfl with h | ⟨h, hf⟩
        · exact .inl h
        · exact .inr ⟨h.trans hst, hf⟩)
      exact ⟨hflush.trans this.1, fun _ => this.2⟩
  next hoff =>
    have := sendStageNew_steps (q := q) (e := e) (.inl hst) (by simpa using hoff)
    exact ⟨this.1, fun _ => this.2⟩

/-- The last flush of the pump. -/
private theorem lastFlush_steps (h : Base ss) (hst : ss.state = .handshake ∨ ss.Pumped) :
    Steps q e ss ss.flushSendbufHead.2 := by
  rcases hst with hst | hst | hgone
  · exact (flushSendbufHead_steps h (.inl hst)).1
  · exact (flushSendbufHead_steps h (.inr hst)).1
  · rw [flushSendbufHead, hgone.sendbuf]
    exact .refl ss

/-- The pump is a sequence of elementary steps, however often it turns. -/
theorem sendPump_steps (fuel : Nat) (h : Base ss) (hst : ss.state = .handshake ∨ ss.Pumped) :
    Steps q e ss (sendPump fuel ss) := by
  induction fuel generalizing ss with
  | zero => exact .refl ss
  | succ fuel ih =>
    unfold sendPump
    split
    next hmust =>
      have hst : ss.state = .handshake ∨ ss.state = .established := by
        rcases hst with hst | hst | hgone
        · exact .inl hst
        · exact .inr hst
        · simp [sendHeadMustFlush, hgone.sendbuf] at hmust
      obtain ⟨hflush, hflushed⟩ := flushSendbufHead_steps (q := q) (e := e) h hst
      have hbase := hflush.base h
      generalize ss.flushSendbufHead = answer at *
      obtain ⟨stop, s⟩ := answer
      cases stop with
      | true => exact hflush
      | false =>
        refine hflush.trans (ih hbase ?_)
        rcases hflushed rfl with hclosed | ⟨hsame, -⟩
        · exact .inr (.inr (.of_closed hbase hclosed))
        · rw [hsame, Pumped, hsame]
          exact hst.imp_right .inl
    split
    · exact lastFlush_steps h hst
    next hest =>
      obtain ⟨hstage, hpumped⟩ := sendStageNext_steps (q := q) (e := e) h (by simpa using hest)
      have hbase := hstage.base h
      generalize ss.sendStageNext = answer at *
      obtain ⟨stage, s⟩ := answer
      cases stage with
      | blocked => exact hstage
      | done => exact hstage.trans (lastFlush_steps hbase (.inr (hpumped (by simp))))
      | produced => exact hstage.trans (ih hbase (.inr (hpumped (by simp))))

omit [HelloCodec] in
theorem ackRecv_false {count : Nat} {unstalled : Bool}
    (h : ss.ackRecv count = (false, unstalled, ss')) : ss' = ss := by
  unfold ackRecv ackTrim at h
  split at h
  · exact (Prod.mk.inj (Prod.mk.inj h).2).2.symm
  split at h
  · exact (Prod.mk.inj (Prod.mk.inj h).2).2.symm
  split at h
  · exact absurd (congrArg Prod.fst h : true = false) (by simp)
  · exact absurd (congrArg Prod.fst h : true = false) (by simp)

theorem recvPing_steps (f : Frame) (hst : ss.state = .established) : Steps q e ss (ss.recvPing f) := by
  unfold recvPing
  split
  · exact ss.reset_steps
  have haux := ss.hint_aux true
  generalize ss.hint true = answer at *
  obtain ⟨answered, s⟩ := answer
  refine haux.steps.trans ?_
  cases answered with
  | false => exact .refl s
  | true => exact (sendOob_steps _ _ f.payload_lt (haux.state.trans hst)).trans (notify_aux _).steps

theorem ackIfDue_steps (hst : ss.state = .established) : Steps q e ss ss.ackIfDue := by
  unfold ackIfDue
  split
  · exact emitAck_steps hst
  · exact .refl ss

theorem react_steps (hst : ss.state = .established) : Steps q e ss ss.react := by
  unfold react
  split
  · exact .refl ss
  next acts rest _ =>
    have haux : Aux ss { ss with reacts := rest } := rfl
    exact haux.steps.trans (runActs_steps false acts fun _ _ => by simp [hst])

section Dispatch

variable {ss : Session} {f : Frame} {rest : List UInt8}

theorem dispatchCtrlFrame_steps (hst : ss.state = .established)
    (hdec : Frame.decode ss.recvbuf = some (f, rest)) (hversion : f.version = protocolVersion)
    (hid : f.streamId = streamIdCtrl) : Steps q e ss ({ ss with recvbuf := rest }.dispatchCtrlFrame f) := by
  have hopen : { ss with recvbuf := rest }.state ≠ .closed := by simp [hst]
  unfold dispatchCtrlFrame
  split
  next hack =>
    split
    next hbad =>
      exact (Steps.single (.ackReject ss f rest hst hdec hversion hid hack (by tauto))).trans
        (reject_reset_aux hopen).steps
    next hgood =>
      have hflags : f.flags = flagAck := by
        by_contra h
        exact hgood (.inl h)
      cases hrecv : { ss with recvbuf := rest }.ackRecv f.extra.toNat with
      | mk ok r =>
        obtain ⟨unstalled, ss'⟩ := r
        cases ok with
        | false =>
          rw [ackRecv_false hrecv]
          exact (Steps.single (.ackReject ss f rest hst hdec hversion hid hack
            (.inr (.inr (by rw [hrecv]))))).trans (reject_reset_aux hopen).steps
        | true =>
          refine (Steps.single (.recvAck ss ss' f rest unstalled hst hdec hversion hid hflags hrecv)).trans ?_
          dsimp only
          split
          · exact (notifyWrite_aux _).steps
          · exact .refl _
  next hack =>
    refine (Steps.single (.recvOther ss f rest hst hdec hversion hid (by simpa using hack))).trans ?_
    split
    · exact recvPing_steps f hst
    · exact .refl _

theorem dispatchStreamFrame_steps (hst : ss.state = .established)
    (hdec : Frame.decode ss.recvbuf = some (f, rest)) (hversion : f.version = protocolVersion)
    (hid : f.streamId ≠ streamIdCtrl) : Steps q e ss ({ ss with recvbuf := rest }.dispatchStreamFrame f) := by
  have hst' : ({ ss with recvbuf := rest }.countRecv f).state = .established := hst
  exact (Steps.single (.recvStream ss f rest hst hdec hversion hid)).trans
    ((ackIfDue_steps hst').trans (react_steps ((ackIfDue_state _).trans hst')))

end Dispatch

/-- Every frame in the receive buffer is taken and dispatched in elementary steps. -/
theorem dispatchFrame_steps (fuel : Nat) (h : Base ss)
    (hst : ss.state = .handshake ∨ ss.state = .established) (he : ss.state = .handshake → e.reads = true) :
    Steps q e ss (dispatchFrame fuel ss) := by
  induction fuel generalizing ss with
  | zero => exact .refl ss
  | succ fuel ih =>
    unfold dispatchFrame
    split
    · exact .refl ss
    next f rest hdec =>
    have hopen : { ss with recvbuf := rest }.state ≠ .closed := by
      rcases hst with h | h <;> simp [h]
    have hreset : Steps q e ss { ss with recvbuf := rest }.reset :=
      closedTo_steps (s := ss) (reset_closedTo hopen)
    dsimp only
    split
    next hversion =>
      obtain ⟨hsteps, hdecided⟩ := processHello_steps (q := q) (e := e) h hst he hdec hversion
      have hbase := hsteps.base h
      generalize { ss with recvbuf := rest }.processHello f = s at *
      refine hsteps.trans ?_
      split
      · exact .refl s
      next hgo =>
        rcases hdecided with hclosed | hest
        · exact absurd (.inl hclosed) hgo
        · exact ih hbase (.inr hest) (by simp [hest])
    split
    · exact hreset
    next hest =>
    have hest : ss.state = .established := by simpa using hest
    split
    · exact hreset
    next hversion =>
    have hversion : f.version = protocolVersion := by simpa using hversion
    split
    · exact hreset
    have hsteps : Steps q e ss (if f.streamId = streamIdCtrl
        then { ss with recvbuf := rest }.dispatchCtrlFrame f
        else { ss with recvbuf := rest }.dispatchStreamFrame f) := by
      split
      next hid => exact dispatchCtrlFrame_steps hest hdec hversion hid
      next hid => exact dispatchStreamFrame_steps hest hdec hversion hid
    have hbase := hsteps.base h
    generalize (if f.streamId = streamIdCtrl
        then { ss with recvbuf := rest }.dispatchCtrlFrame f
        else { ss with recvbuf := rest }.dispatchStreamFrame f) = s at *
    refine hsteps.trans ?_
    split
    next hs => exact ih hbase (.inr hs) (by simp [hs])
    · exact .refl s

/-! ### The callbacks -/

theorem sendHandleRxClosed_steps (ss : Session) :
    Steps q e ss ss.sendHandleRxClosed.2 ∧ (ss.sendHandleRxClosed.1 = false → ss.sendHandleRxClosed.2 = ss) := by
  unfold sendHandleRxClosed
  split
  · exact ⟨.refl ss, fun _ => rfl⟩
  next hst =>
  have hst : ss.state = .established := by
    by_contra hne
    exact hst (.inr hne)
  split
  next hid => exact ⟨.single (.suspend ss (.inl hst) (.inl hid.1)), by simp⟩
  · refine ⟨?_, by simp⟩
    have hform : (if ss.discardBuffers.unackedFreeAll.accepted = true then ss.discardBuffers.unackedFreeAll
        else { ss.discardBuffers.unackedFreeAll with hasSessionId := false }) =
        { ss.discardBuffers.unackedFreeAll with hasSessionId := ss.accepted && ss.hasSessionId } := by
      have hacc : ss.discardBuffers.unackedFreeAll.accepted = ss.accepted := rfl
      rw [hacc]
      cases ss.accepted <;> rfl
    dsimp only
    rw [hform]
    exact ss.closing_steps (ss.accepted && ss.hasSessionId) (.inl hst)

theorem drainLp_steps (hst : s.state = .handshake ∨ s.state = .established) :
    Steps q e s s.drainLp ∧ (s.drainLp.state = .handshake ∨ s.drainLp.Pumped) := by
  unfold drainLp
  have haux := s.hint_aux false
  generalize s.hint false = answer at *
  obtain ⟨lpPending, s1⟩ := answer
  dsimp only
  split
  next hlp =>
    have := callSched_steps (q := q) (e := e) (s := s1) (.inl hlp.2.1)
    exact ⟨haux.steps.trans this.1, .inr this.2⟩
  · refine ⟨haux.steps, ?_⟩
    rw [Pumped, haux.state]
    exact hst.imp_right .inl

theorem pumped_steps (h : Base ss) : Steps q e ss ss.pumped := by
  have haux : Aux ss ss.settle := by
    unfold settle
    split
    · exact rfl
    · exact (ss.hint_aux false).trans rfl
  unfold pumped
  refine haux.steps.trans ?_
  dsimp only
  split
  next hgo =>
    exact dispatchFrame_steps _ (haux.steps.base (q := q) (e := e) h) (.inr hgo.2) (by simp [hgo.2])
  · exact .refl _

theorem onSend_steps (fuel : Nat) (h : Base ss)
    (hst : ss.state = .handshake ∨ ss.state = .established) : Steps q e ss (onSend fuel ss) := by
  unfold onSend
  have haux : Aux ss { ss with txPending := false } := rfl
  obtain ⟨hrx, hsame⟩ := sendHandleRxClosed_steps (q := q) (e := e) { ss with txPending := false }
  replace hrx := haux.steps.trans hrx
  generalize { ss with txPending := false }.sendHandleRxClosed = answer at *
  obtain ⟨ended, s⟩ := answer
  cases ended with
  | true => exact hrx
  | false =>
    have hs : s = { ss with txPending := false } := hsame rfl
    obtain ⟨hdrain, hst'⟩ := drainLp_steps (q := q) (e := e) (s := s) (hs ▸ hst)
    have hpump := sendPump_steps (q := q) (e := e) fuel (hdrain.base (hrx.base h)) hst'
    have hsteps := hrx.trans (hdrain.trans hpump)
    exact hsteps.trans (pumped_steps (hsteps.base h))

/-- The session with the bytes of a read in its receive buffer. -/
def fed (ss : Session) (bytes : List UInt8) : Session := { ss with recvbuf := ss.recvbuf ++ bytes }

theorem onRecv_steps (fuel : Nat) (bytes : List UInt8) (h : Base (ss.fed bytes))
    (hst : ss.state = .handshake ∨ ss.state = .established) (he : e.reads = true) :
    Steps q e (ss.fed bytes) (onRecv fuel ss bytes) := by
  unfold onRecv
  have hdispatch := dispatchFrame_steps (q := q) (e := e) (ss.fed bytes).recvbuf.length h hst fun _ => he
  refine hdispatch.trans ?_
  replace h := hdispatch.base h
  show Steps q e ((ss.fed bytes).dispatchFrame (ss.fed bytes).recvbuf.length) _
  dsimp only
  split
  next hgo => exact onSend_steps fuel h (.inr hgo.1)
  · exact .refl _

theorem recvEof_steps (ss : Session) : Steps q e ss ss.recvEof := by
  unfold recvEof
  have haux : Aux ss { ss with rxOpen := false } := rfl
  refine haux.steps.trans ?_
  dsimp only
  split
  next hst =>
    split
    next hid => exact .single (.suspend _ (.inr (.inr hst)) (.inl hid.1))
    · exact reset_steps _
  · exact .refl _

theorem coalesceCb_steps (ss : Session) : Steps q e ss ss.coalesceCb := by
  unfold coalesceCb
  split
  next hst =>
    have haux : Aux ss { ss with ackTicks := ss.ackTicks + 1 } :=
      rfl
    refine haux.steps.trans ?_
    dsimp only
    split
    · exact emitAck_steps hst.1
    · exact .refl _
  · exact Aux.steps rfl

theorem suspend_emitIfClosed_steps (h : ss.state = .established ∨ ss.state = .connect ∨ ss.state = .handshake)
    (hid : ss.hasSessionId = true) : Steps q e ss ss.suspend.emitIfClosed :=
  (Steps.single (.suspend ss h (.inl hid))).trans (emitIfClosed_steps _)

theorem onDeadLink_steps (h : ss.state = .established) : Steps q e ss ss.onDeadLink := by
  unfold onDeadLink
  split
  next hid => exact suspend_emitIfClosed_steps (.inl h) hid
  · exact ss.notifyClosed_steps _

theorem connectTimeoutCb_steps (ss : Session) : Steps q e ss ss.connectTimeoutCb := by
  unfold connectTimeoutCb
  split
  next h =>
    split
    next hid => exact suspend_emitIfClosed_steps (.inr (.inl h)) hid.2
    · exact ss.notifyClosed_steps _
  next h =>
    split
    next hid => exact suspend_emitIfClosed_steps (.inr (.inr h)) hid.2
    · exact ss.notifyClosed_steps _
  · exact ss.notifyClosed_steps _
  · exact ss.notifyClosed_steps _
  · exact ss.notifyClosed_steps _
  · exact .refl ss

/-- The bytes an event brings are in the receive buffer before anything else happens. -/
def feed (ss : Session) : Event → Session
  | .readable bytes => if ss.state = .handshake ∨ ss.state = .established then ss.fed bytes else ss
  | _ => ss

omit [HelloCodec] in
theorem feed_aux (h : Aux ss ss') (e : Event) : Aux (ss.feed e) (ss'.feed e) := by
  rw [h.eq]
  cases e with
  | readable bytes =>
    unfold feed
    dsimp only
    split <;> exact rfl
  | _ => exact rfl

theorem flush_steps (fuel : Nat) (h : Base ss) : Steps q e ss (ss.flush fuel) := by
  unfold flush
  split
  · exact ss.notify_aux.steps
  next hst =>
    have hhint := ss.hint_aux true
    have hsteps : Steps q e ss (ss.hint true).2 := hhint.steps
    dsimp only
    split
    · have hest : (ss.hint true).2.state = .established := hhint.state.trans (not_not.1 hst)
      exact hsteps.trans ((onSend_steps fuel (hsteps.base h) (.inr hest)).trans (emitIfClosed_steps _))
    · exact hsteps.trans (notify_aux _).steps

/-- No stream produces a frame for the send buffer before the handshake is done: control frames are put
there when the session has no replay to wait for. -/
def quietEvent (ss : Session) : Event → Bool
  | .stream acts =>
    ss.retransmitOff.isSome || !(ss.state == .connect || ss.state == .handshake) ||
      acts.all fun a => match a with
        | .ctrl _ _ _ => false
        | _ => true
  | _ => true

omit [HelloCodec] in
theorem hushed_of_quietEvent {acts : List StreamAct} (hquiet : q = true → ss.quietEvent (.stream acts) = true)
    (h : ∃ a ∈ acts, ∃ id flags extra, a = .ctrl id flags extra) : ss.Hushed q (.stream acts) := by
  obtain ⟨_, ha, id, flags, extra, rfl⟩ := h
  rintro (⟨hq, hoff⟩ | he)
  swap
  · cases he
  have := hquiet hq
  simp only [quietEvent, hoff, Option.isSome_none, Bool.false_or, Bool.or_eq_true, Bool.not_eq_true',
    Bool.or_eq_false_iff, beq_eq_false_iff_ne, List.all_eq_true] at this
  rcases this with h | h
  · exact h
  · exact absurd (h _ ha) (by simp)

/-- A callback is a sequence of elementary steps, in a quiet run of quiet ones. -/
theorem handle_steps (fuel : Nat) (e : Event) (h : Base (ss.feed e))
    (hquiet : q = true → ss.quietEvent e = true) : Steps q e (ss.feed e) (ss.handle fuel e) := by
  cases e with
  | attachFd =>
    unfold handle
    dsimp only
    split
    next hst => exact attachFd_steps ss rfl (by simpa using hst.1) hst.2
    · exact .refl ss
  | connected ok =>
    unfold handle
    dsimp only
    split
    next hst =>
      refine Steps.trans ?_ (emitIfClosed_steps _)
      cases ok with
      | true => exact handshakeStart_steps ss rfl (by simpa using hst.1) hst.2
      | false => exact suspendOrReset_steps ss
    · exact .refl ss
  | start =>
    unfold handle
    dsimp only
    split
    next hst => exact start_steps ss rfl hst.1 hst.2
    · exact .refl ss
  | writable =>
    have hpolled : Steps q .writable ss ss.writeArmed.2 := (ss.hint_aux false).steps
    unfold handle
    dsimp only
    split
    next hst => exact hpolled.trans ((onSend_steps fuel (hpolled.base h) hst.2).trans (emitIfClosed_steps _))
    · exact hpolled
  | readable bytes =>
    unfold handle feed at *
    dsimp only at *
    split
    next hst =>
      rw [if_pos hst] at h
      exact (onRecv_steps fuel bytes h hst rfl).trans (emitIfClosed_steps _)
    · exact .refl ss
  | readEof =>
    unfold handle
    dsimp only
    split
    · exact ss.recvEof_steps.trans (emitIfClosed_steps _)
    · exact .refl ss
  | readError =>
    unfold handle
    dsimp only
    split
    · exact ss.suspendOrReset_steps.trans (emitIfClosed_steps _)
    · exact .refl ss
  | stream acts =>
    refine runActs_steps false _ fun ⟨a, ha, hctrl⟩ => ?_
    exact hushed_of_quietEvent hquiet ⟨a, (List.mem_filter.mp ha).1, hctrl⟩
  | flush => exact flush_steps fuel h
  | coalesceTick => exact ss.coalesceCb_steps
  | probe extra payload hlt =>
    unfold handle
    dsimp only
    split
    next hst => exact sendOob_steps extra payload hlt hst
    · exact .refl ss
  | dgram fin flow payload hlt => exact ss.sendDgram_steps fin flow payload hlt
  | resume n =>
    unfold handle
    dsimp only
    split
    next ha => exact resumeAttach_steps h rfl ha
    · exact .refl ss
  | deadLink =>
    unfold handle
    dsimp only
    split
    next hst => exact onDeadLink_steps hst
    · exact .refl ss
  | connectTimeout => exact ss.connectTimeoutCb_steps
  | shutdown => exact ss.initiateShutdown_steps
  | closeStep ok =>
    unfold handle
    dsimp only
    split
    next hst =>
      split
      · exact (Steps.single (.closeWait ss hst)).trans (ss.setState_aux .closeWait).steps
      · exact ss.reset_steps.trans (emitIfClosed_steps _)
    split
    · exact ss.reset_steps.trans (emitIfClosed_steps _)
    · exact .refl ss

omit [HelloCodec] in
theorem load_aux (ss : Session) (i : Inputs) : Aux ss (ss.load i) :=
  rfl

theorem Base.feed (h : Base ss) (e : Event) : Base (ss.feed e) := by
  unfold Session.feed
  split
  · split
    · exact ⟨{ h with },
        { h.pool with }⟩
    · exact h
  · exact h

/-- One event is a sequence of elementary steps. -/
theorem step_steps (h : Base ss) (e : Event × Inputs)
    (hquiet : q = true → ss.quietEvent e.1 = true) : Steps q e.1 (ss.feed e.1) (ss.step e) := by
  have haux := feed_aux (ss.load_aux e.2) e.1
  have hbase := haux.steps.base (q := q) (e := e.1) (Base.feed h e.1)
  refine haux.steps.trans (handle_steps e.2.fuel e.1 hbase fun hq => ?_)
  have := hquiet hq
  cases he : e.1 <;> simp_all [quietEvent, load]

end Session

theorem Base.new (accepted tls : Bool) (sessionId : BitVec 128) (maxPayload sessionWindow : Nat) :
    Base (Session.new accepted tls sessionId maxPayload sessionWindow) where
  log := .nil
  copy := CopyOk.of_false rfl (by simp [Session.new])
  buf := .empty
  st := ⟨fun _ => ⟨rfl, rfl, rfl, rfl, rfl, rfl⟩, fun _ => rfl, by simp [Session.new], by simp [Session.new]⟩
  framed := .nil
  aligned := by simp [Session.new, SessionState.attached]
  pool := ⟨.nil, .nil, .nil, by simp [Session.new]⟩

variable {ss : Session}

theorem Base.step (h : Base ss) (e : Event × Inputs) : Base (ss.step e) :=
  (Session.step_steps (q := false) h e (by simp)).base (Session.Base.feed h e.1)

/-- What holds of every session holds along every run of callbacks. -/
theorem Base.run (h : Base ss) (es : List (Event × Inputs)) : Base (ss.run es) :=
  runFrom_invariant_always Base (fun _ e h => Base.step h e) h es

omit [HelloCodec] in
theorem Session.feed_eq (ss : Session) (e : Event) : ∃ recvbuf, ss.feed e = { ss with recvbuf := recvbuf } := by
  unfold Session.feed
  split
  · split
    · exact ⟨_, rfl⟩
    · exact ⟨ss.recvbuf, rfl⟩
  · exact ⟨ss.recvbuf, rfl⟩

/-- A session that some run of events leads to, or the part of a callback done so far. -/
def Session.Reachable (ss : Session) : Prop :=
  ∃ (accepted tls : Bool) (sessionId : BitVec 128) (maxPayload sessionWindow : Nat)
    (es : List (Event × Inputs)) (e : Event),
    Steps false e (((Session.new accepted tls sessionId maxPayload sessionWindow).run es).feed e) ss

namespace Session.Reachable

variable {ss : Session} (h : ss.Reachable)
include h

theorem base : Base ss := by
  obtain ⟨accepted, tls, sessionId, maxPayload, sessionWindow, es, e, hsteps⟩ := h
  exact hsteps.base (Session.Base.feed ((Base.new accepted tls sessionId maxPayload sessionWindow).run es) e)

/-- What holds at the start and is kept by input and by every elementary step. -/
theorem invariant {P : Session → Prop} (hnew : ∀ accepted tls sessionId maxPayload sessionWindow,
      P (Session.new accepted tls sessionId maxPayload sessionWindow)) (hfeed : ∀ s e, P s → P (s.feed e))
    (hmicro : ∀ e s s', Micro false e s s' → Base s → P s → P s') : P ss := by
  have hsteps {e : Event} {s s' : Session} (hs : Steps false e (s.feed e) s') (hb : Base s) (hp : P s) : P s' :=
    (reflTransGen_invariant (fun s => Base s ∧ P s) (fun s s' hm hs => ⟨hm.base hs.1, hmicro e s s' hm hs.1 hs.2⟩)
      hs ⟨Session.Base.feed hb e, hfeed s e hp⟩).2
  obtain ⟨accepted, tls, sessionId, maxPayload, sessionWindow, es, e, hlast⟩ := h
  have hb := Base.new accepted tls sessionId maxPayload sessionWindow
  have hrun : Base ((Session.new accepted tls sessionId maxPayload sessionWindow).run es) ∧
      P ((Session.new accepted tls sessionId maxPayload sessionWindow).run es) :=
    runFrom_invariant_always (fun s => Base s ∧ P s)
      (fun s e hs => ⟨hs.1.step e, hsteps (Session.step_steps hs.1 e (by simp)) hs.1 hs.2⟩)
      ⟨hb, hnew accepted tls sessionId maxPayload sessionWindow⟩ es
  exact hsteps hlast hrun.1 hrun.2

end Session.Reachable

end Multiplexd
