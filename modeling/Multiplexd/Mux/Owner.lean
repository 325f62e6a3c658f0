import Multiplexd.Mux.Buffers

/-!
# What the owner of a session is told

`mux_session_reset` closes a session deep inside a callback and tells nobody; the end of the callback
that is running tells the owner. The owner may act on an event inside the callback: the tunnel of a
dialed session dials again when it hears that the session is suspended, so that the rest of the callback
finds a session that is connecting.

The callbacks here are those of `Endpoint.lean` with that reaction where the source makes it. An event
told at the end of a callback needs no reaction of its own: what the owner does then is the next event.
-/

namespace Multiplexd

/-- Reads the notes of a session in order. The state says whether the session has closed and its owner
has not been told yet; it is lost when a close is told twice, never happened, or is followed by another
one before it was told. -/
def Note.next : Option Bool → Note → Option Bool
  | some false, .moved _ .closed => some true
  | some true, .moved _ .closed => none
  | some true, .told (.closed _) => some false
  | some false, .told (.closed _) => none
  | owed, _ => owed

def owed (notes : List Note) : Option Bool := notes.foldl Note.next (some false)

/-- Every close has been told, once, and nothing else was told as a close. -/
def Reported (notes : List Note) : Prop := owed notes = some false

namespace Session

/-- `tunnel_on_event` for MUX_EVENT_SUSPENDED (`handle_transport_lost`): the owner of a dialed session may
dial again at once. A transport that was still being dialed (`attempt`) is lost with a
MUX_EVENT_CONNECT_FAILED, which only arms a timer. -/
def ownerReacts (ss : Session) (attempt : Bool) : Session :=
  if ss.state = .suspended ∧ ¬ attempt ∧ ¬ ss.accepted then
    let (redial, ss) := ss.hint false
    if redial then ss.attachFd else ss
  else ss

variable [HelloCodec]

/-- `mux_session_on_send`. -/
def onSendOwned (fuel : Nat) (ss : Session) : Session :=
  match { ss with txPending := false }.sendHandleRxClosed with
  | (true, ss) => ss.ownerReacts false
  | (false, ss) => ((sendPump fuel ss.drainLp).ownerReacts (ss.state = .handshake)).pumped

def onRecvOwned (fuel : Nat) (ss : Session) (bytes : List UInt8) : Session :=
  let ss : Session := { ss with recvbuf := ss.recvbuf ++ bytes }
  let ss := ss.dispatchFrame ss.recvbuf.length
  if ss.state = .established ∧ ss.txPending ∧ ss.sendbuf.isEmpty then onSendOwned fuel ss else ss

def flushOwned (fuel : Nat) (ss : Session) : Session :=
  if ss.state ≠ .established then ss.notify
  else
    let (clear, ss) := ss.hint true
    if clear ∧ ss.sendbuf.isEmpty then (onSendOwned fuel ss).emitIfClosed else ss.notify

/-- One callback of the event loop. A session in the other callbacks is suspended only from a transport
that was still being dialed, which the owner answers with a timer, or is an accepted one. -/
def handleOwned (ss : Session) (fuel : Nat) : Event → Session
  | .writable =>
    let (armed, ss) := ss.writeArmed
    if armed ∧ (ss.state = .handshake ∨ ss.state = .established) then (onSendOwned fuel ss).emitIfClosed else ss
  | .readable bytes =>
    if ss.state = .handshake ∨ ss.state = .established then (onRecvOwned fuel ss bytes).emitIfClosed
    else ss
  | .readError =>
    if ss.state = .handshake ∨ ss.state = .established then (ss.suspendOrReset.ownerReacts (ss.state = .handshake)).emitIfClosed
    else ss
  | .deadLink =>
    if ss.state = .established then
      if ss.hasSessionId then (ss.suspend.ownerReacts false).emitIfClosed else ss.notifyClosed false
    else ss
  | .flush => flushOwned fuel ss
  | e => ss.handle fuel e

def stepOwned (ss : Session) (e : Event × Inputs) : Session := (ss.load e.2).handleOwned e.2.fuel e.1

def runOwned (ss : Session) (es : List (Event × Inputs)) : Session := runFrom stepOwned ss es

end Session

/-! ### Between the callbacks' ends -/

/-- Inside a callback the owner is owed a word exactly when the session is closed. A session without a
stream table is on its way out. -/
structure OwedIn (st : SessionState) (streams : Option (List UInt16)) (events : List Note) : Prop where
  owed : Multiplexd.owed events = some (decide (st = .closed))
  table : streams = none → st = .closing ∨ st = .closeWait ∨ st = .closed

namespace Session

def Owed (s : Session) : Prop := OwedIn s.state s.streams s.events

variable {s s' : Session}

theorem owed_append (events : List Note) (n : Note) : owed (events ++ [n]) = Note.next (owed events) n := by
  simp [owed]

variable {e : MuxEvent} {n : SessionState} {s'' : Session} {a : StreamAct} {inPump : Bool}

theorem next_told (o : Option Bool) (he : ∀ b, e ≠ .closed b) : Note.next o (.told e) = o := by
  cases e with
  | closed b => exact absurd rfl (he b)
  | _ => rcases o with - | - | - <;> rfl

theorem next_moved (o : Option Bool) {old : SessionState} (hst : n ≠ .closed) :
    Note.next o (.moved old n) = o := by
  cases n with
  | closed => exact absurd rfl hst
  | _ => rcases o with - | - | - <;> rfl

theorem owed_emit (s : Session) (he : ∀ b, e ≠ .closed b) : owed (s.emit e).events = owed s.events := by
  show owed (s.events ++ [.told e]) = _
  rw [owed_append, next_told _ he]

theorem Owed.emit (h : s.Owed) (he : ∀ b, e ≠ .closed b) : (s.emit e).Owed := by
  refine ⟨?_, h.table⟩
  show owed (s.emit e).events = _
  rw [owed_emit s he]
  exact h.owed

theorem setState_state (s : Session) (n : SessionState) : (s.setState n).state = n := by
  obtain ⟨_, _, heq⟩ := s.setState_eq n
  rw [heq]
  rfl

theorem owed_setState (hne : s.state ≠ n) :
    owed (s.setState n).events = Note.next (owed s.events) (.moved s.state n) := by
  have hmoved : owed { s with state := n, events := s.events ++ [Note.moved s.state n] }.events =
      Note.next (owed s.events) (.moved s.state n) := owed_append _ _
  unfold Session.setState
  dsimp only
  rw [if_neg hne]
  split
  · refine (owed_emit _ ?_).trans hmoved
    exact fun _ => nofun
  split
  · split
    · exact hmoved
    · refine (owed_emit _ ?_).trans hmoved
      exact fun _ => nofun
  split
  · refine (owed_emit _ ?_).trans hmoved
    exact fun _ => nofun
  split
  · exact (owed_emit _ (by intro b; split <;> nofun)).trans hmoved
  · exact hmoved

theorem setState_streams (s : Session) (n : SessionState) : (s.setState n).streams = s.streams := by
  obtain ⟨_, _, heq⟩ := s.setState_eq n
  rw [heq]
  rfl

theorem setState_owed (h : owed s.events = some (decide (s.state = .closed)))
    (hst : s.state = .closed → n = .closed)
    (htable : s.streams = none → n = .closing ∨ n = .closeWait ∨ n = .closed) : (s.setState n).Owed := by
  refine ⟨?_, ?_⟩
  · rw [setState_state]
    by_cases heq : s.state = n
    · rw [Session.setState, if_pos heq, h, heq]
    have hopen : s.state ≠ .closed := fun hc => heq (hc.trans (hst hc).symm)
    rw [owed_setState heq, h, decide_eq_false hopen]
    by_cases hclosed : n = .closed
    · rw [hclosed]
      rfl
    · rw [next_moved _ hclosed, decide_eq_false hclosed]
  · rw [setState_state, setState_streams]
    exact htable

theorem Owed.setState (h : s.Owed) (hst : s.state = .closed → n = .closed)
    (htable : s.streams = none → n = .closing ∨ n = .closeWait ∨ n = .closed) : (s.setState n).Owed :=
  setState_owed h.owed hst htable

/-- The stream table may be gone already. -/
theorem reset_owed (h : owed s.events = some (decide (s.state = .closed))) : s.reset.Owed := by
  unfold Session.reset
  split
  next hclosed => exact ⟨h, fun _ => .inr (.inr hclosed)⟩
  · have hset := setState_owed (n := .closed) h (fun _ => rfl) fun _ => .inr (.inr rfl)
    have hclean : (s.setState .closed).cleanup.Owed :=
      ⟨hset.owed, fun _ => .inr (.inr (s.setState_state .closed))⟩
    dsimp only
    split
    · exact hclean
    · exact hclean

theorem reset_state (s : Session) : s.reset.state = .closed := by
  by_cases hst : s.state = .closed
  · rw [Session.reset, if_pos hst, hst]
  · exact (reset_closedTo hst).state

theorem Owed.reset (h : s.Owed) : s.reset.Owed := reset_owed h.owed

/-- The state and what the owner was told are as they were, and so is the presence of the stream table. -/
structure Same (s s' : Session) : Prop where
  state : s'.state = s.state
  streams : s'.streams = none → s.streams = none
  events : s'.events = s.events

theorem Owed.of_same (h : s.Owed) (hs : Same s s') : s'.Owed := by
  refine ⟨?_, fun hnone => ?_⟩
  · rw [hs.state, hs.events]
    exact h.owed
  · rw [hs.state]
    exact h.table (hs.streams hnone)

theorem Same.trans (h : Same s s') (h' : Same s' s'') : Same s s'' :=
  ⟨h'.state.trans h.state, fun hnone => h.streams (h'.streams hnone), h'.events.trans h.events⟩

structure Going (s : Session) : Prop where
  owed : s.Owed
  awake : s.state ≠ .suspended

theorem Going.of_same (h : Going s) (hs : Same s s') : Going s' :=
  ⟨h.owed.of_same hs, hs.state ▸ h.awake⟩

theorem Going.reset (h : Going s) : Going s.reset :=
  ⟨h.owed.reset, by rw [reset_state]; nofun⟩

def Strains (s s' : Session) : Prop := Same s s' ∨ ∃ t, Same s t ∧ s' = t.reset

theorem Owed.of_strains (h : s.Owed) (hs : Strains s s') : s'.Owed := by
  rcases hs with hs | ⟨t, hs, rfl⟩
  · exact h.of_same hs
  · exact (h.of_same hs).reset

theorem Same.strains (h : Same s s') (h' : Strains s' s'') : Strains s s'' := by
  rcases h' with h' | ⟨t, h', rfl⟩
  · exact .inl (h.trans h')
  · exact .inr ⟨t, h.trans h', rfl⟩

theorem unackedPush_strains (s : Session) (f : MuxFrame) (count : Nat) : Strains s (s.unackedPush f count) := by
  obtain ⟨ok, allocs, hget⟩ := s.frameGet_eq
  rw [unackedPush, hget]
  cases ok with
  | false => exact .inr ⟨s.withAllocs allocs, ⟨rfl, id, rfl⟩, rfl⟩
  | true =>
    dsimp only
    split
    · contradiction
    split <;> exact .inl ⟨rfl, id, rfl⟩

theorem trackSent_strains (s : Session) (f : MuxFrame) : Strains s (s.trackSent f) := by
  unfold trackSent
  split
  · exact .inl ⟨rfl, id, rfl⟩
  split
  · exact .inl ⟨rfl, id, rfl⟩
  split
  · exact .inl ⟨rfl, id, rfl⟩
  dsimp only
  split
  · exact .inl ⟨rfl, id, rfl⟩
  · exact unackedPush_strains s _ _

theorem trackPartial_strains (s : Session) (f : MuxFrame) (rest : List MuxFrame) :
    Strains s (s.trackPartial f rest) := by
  unfold trackPartial
  split
  · exact .inl ⟨rfl, id, rfl⟩
  split
  · exact .inl ⟨rfl, id, rfl⟩
  dsimp only
  split
  · exact .inl ⟨rfl, id, rfl⟩
  split
  · exact .inl ⟨rfl, id, rfl⟩
  obtain ⟨ok, allocs, hget⟩ := s.frameGet_eq
  rw [hget]
  cases ok with
  | false => exact .inr ⟨s.withAllocs allocs, ⟨rfl, id, rfl⟩, rfl⟩
  | true =>
    have hcut : Same s { s.withAllocs allocs with sendbuf := f.cut :: rest } := ⟨rfl, id, rfl⟩
    exact hcut.strains (trackSent_strains _ _)

theorem captureFrameList_owed (fs : List MuxFrame) (h : s.Owed) : (s.captureFrameList fs).Owed := by
  unfold captureFrameList
  induction fs generalizing s with
  | nil => exact h
  | cons f fs ih =>
    rw [List.foldl_cons]
    refine ih ?_
    split
    · exact h
    · exact h.of_strains (trackSent_strains s f)

theorem captureAndDiscard_owed (h : s.Owed) : s.captureAndDiscard.Owed :=
  captureFrameList_owed s.captureSendbuf.oobbuf (s := s.captureSendbuf.clearOobbuf)
    (captureFrameList_owed s.sendbuf (s := s.clearSendbuf) h)

theorem suspendDetach_owed (h : s.Owed) (attempt : Bool) : (s.suspendDetach attempt).Owed := by
  have hsend : s.captureSendbuf.dropStaging.Owed := captureFrameList_owed s.sendbuf (s := s.clearSendbuf) h
  have hoob : s.captureSendbuf.dropStaging.captureOobbuf.dropDgrams.Owed :=
    captureFrameList_owed _ (s := s.captureSendbuf.dropStaging.clearOobbuf) hsend
  unfold suspendDetach
  generalize s.captureSendbuf.dropStaging.captureOobbuf.dropDgrams = t at hoob
  dsimp only
  split
  · exact hoob
  · exact Owed.emit (s := t.rewindReplay.stopIo) hoob (by intro b; split <;> nofun)

theorem suspend_owed (h : s.Owed) (hopen : s.state ≠ .closed) (htable : s.streams ≠ none) : s.suspend.Owed :=
  suspendDetach_owed (h.setState (fun hc => absurd hc hopen) fun hc => absurd hc htable) _

theorem Owed.streams_ne (h : s.Owed) (hst : s.state = .established ∨ s.state = .connect ∨
    s.state = .handshake ∨ s.state = .suspended) : s.streams ≠ none := by
  intro hc
  have hend := h.table hc
  rcases hst with hst | hst | hst | hst <;> rw [hst] at hend <;> simp at hend

theorem suspendOrReset_owed (h : s.Owed) : s.suspendOrReset.Owed := by
  unfold suspendOrReset
  split
  next hst =>
    obtain ⟨-, hst⟩ := hst
    refine suspend_owed h ?_ (h.streams_ne ?_)
    · rcases hst with hst | ⟨-, hst | hst⟩ <;> simp [hst]
    · rcases hst with hst | ⟨-, hst | hst⟩ <;> simp [hst]
  · exact h.reset

theorem ackTrimLoop_same (off0 fuel : Nat) (s : Session) (t : Trim) : Same s (ackTrimLoop off0 fuel s t).1 := by
  induction fuel generalizing s t with
  | zero => exact ⟨rfl, id, rfl⟩
  | succ fuel ih =>
    rw [ackTrimLoop]
    split
    · exact ⟨rfl, id, rfl⟩
    split
    · exact ⟨rfl, id, rfl⟩
    split
    · dsimp only
      split
      · exact ⟨rfl, id, rfl⟩
      split <;> exact ⟨rfl, id, rfl⟩
    next f ring hring hlen =>
      have hpop (bytes : Nat) :
          Same s { s with ring := ring, bytes := s.bytes - bytes, partialOffset := 0 } := ⟨rfl, id, rfl⟩
      exact (hpop _).trans (ih _ _)

theorem trimReplayOff_same (s : Session) (t : Trim) : Same s (s.trimReplayOff t) := by
  unfold trimReplayOff
  split
  · exact ⟨rfl, id, rfl⟩
  · dsimp only
    split <;> split <;> exact ⟨rfl, id, rfl⟩

theorem ackTrim_same (s : Session) (count : Nat) : Same s (s.ackTrim count).2.2 := by
  unfold ackTrim
  split
  · exact ⟨rfl, id, rfl⟩
  split
  · exact ⟨rfl, id, rfl⟩
  have hcount : Same s (s.countAcked count) := ⟨rfl, id, rfl⟩
  have htrim : Same (s.countAcked count) ((s.countAcked count).trimRingOf count) := by
    have hloop := ackTrimLoop_same ((s.countAcked count).retransmitOff.getD 0)
      ((s.countAcked count).ring.length + 1) (s.countAcked count) ⟨count, 0, 0, 0⟩
    unfold trimRingOf
    split
    next heq =>
      rw [heq] at hloop
      exact hloop.trans (trimReplayOff_same _ _)
  refine (hcount.trans htrim).trans ?_
  dsimp only
  unfold unstall
  split <;> exact ⟨rfl, id, rfl⟩

theorem ackRecv_same (s : Session) (count : Nat) : Same s (s.ackRecv count).2.2 := by
  unfold ackRecv
  split
  · exact ⟨rfl, id, rfl⟩
  · exact ackTrim_same s count

theorem resumeTrimLoop_same (peerAck fuel : Nat) (s : Session) : Same s (resumeTrimLoop peerAck fuel s).2 := by
  induction fuel generalizing s with
  | zero => exact ⟨rfl, id, rfl⟩
  | succ fuel ih =>
    rw [resumeTrimLoop]
    split
    · exact ⟨rfl, id, rfl⟩
    split
    · exact ⟨rfl, id, rfl⟩
    dsimp only
    split
    · exact ackTrim_same s 1
    · exact (ackTrim_same s 1).trans (ih _)

theorem resumeAckRecv_same {peerAck : Nat} {ok : Bool} (h : s.resumeAckRecv peerAck = (ok, s')) :
    Same s s' := by
  unfold resumeAckRecv at h
  split at h
  · cases h
    exact ⟨rfl, id, rfl⟩
  · have hloop := resumeTrimLoop_same peerAck s.frames s
    generalize resumeTrimLoop peerAck s.frames s = r at h hloop
    obtain ⟨ok', t⟩ := r
    cases ok' <;> cases h
    · exact hloop
    · exact hloop.trans ⟨rfl, id, rfl⟩

section

variable (s)

theorem notifyWrite_same : Same s s.notifyWrite := by
  unfold notifyWrite
  split <;> exact ⟨rfl, id, rfl⟩

theorem sendbufPush_same (f : MuxFrame) : Same s (s.sendbufPush f) := by
  obtain ⟨sendbuf, staging, -, heq⟩ := s.sendbufPush_spec f
  rw [heq]
  exact ⟨rfl, id, rfl⟩

theorem hint_same (silent : Bool) : Same s (s.hint silent).2 := by
  unfold hint
  split <;> exact ⟨rfl, id, rfl⟩

theorem ask_same (silent : Bool) : Same s (s.ask silent).2 := by
  unfold ask
  split <;> exact ⟨rfl, id, rfl⟩

theorem settle_same : Same s s.settle := by
  unfold settle
  split
  · exact ⟨rfl, id, rfl⟩
  · exact (hint_same s false).trans ⟨rfl, id, rfl⟩

theorem frameGet_same : Same s s.frameGet.2 := by
  obtain ⟨ok, allocs, hget⟩ := s.frameGet_eq
  rw [hget]
  exact ⟨rfl, id, rfl⟩

theorem sendCtrl_same (id : UInt16) (flags : UInt8) (extra : Nat) :
    Same s (s.sendCtrl id flags extra).2 := by
  have hget := frameGet_same s
  unfold sendCtrl
  generalize s.frameGet = r at hget
  obtain ⟨ok, t⟩ := r
  cases ok with
  | false => exact hget
  | true =>
    have hborn : Same t { t with births := t.births + 1 } := ⟨rfl, fun h => h, rfl⟩
    have hout (oobbuf : List MuxFrame) : Same t { t with births := t.births + 1, oobbuf := oobbuf } :=
      ⟨rfl, fun h => h, rfl⟩
    simp only [Bool.not_true, Bool.false_eq_true, if_false]
    refine (hget.trans ?_).trans (notifyWrite_same _)
    split
    · exact hout _
    · exact hborn.trans (sendbufPush_same _ _)

theorem sendOob_same (extra : UInt16) (payload : List UInt8) (h : payload.length < 65536) :
    Same s (s.sendOob extra payload h).2 := by
  have hget := frameGet_same s
  unfold sendOob
  generalize s.frameGet = r at hget
  obtain ⟨ok, t⟩ := r
  cases ok with
  | false => exact hget
  | true =>
    have hadd (births : Nat) (oobbuf : List MuxFrame) : Same t { t with births := births, oobbuf := oobbuf } :=
      ⟨rfl, id, rfl⟩
    exact (hget.trans (hadd _ _)).trans (notifyWrite_same _)

theorem sendDgram_same (fin : Bool) (flow : UInt16) (payload : List UInt8)
    (h : payload.length < 65536) : Same s (s.sendDgram fin flow payload h).2 := by
  have hget := frameGet_same s
  unfold sendDgram
  generalize s.frameGet = r at hget
  obtain ⟨ok, t⟩ := r
  split
  · cases ok with
    | false => exact hget
    | true =>
      have hadd (births : Nat) (dgrambuf : List MuxFrame) :
          Same t { t with births := births, dgrambuf := dgrambuf } := ⟨rfl, id, rfl⟩
      exact (hget.trans (hadd _ _)).trans (notifyWrite_same _)
  · exact ⟨rfl, id, rfl⟩

theorem emitAck_same : Same s s.emitAck := by
  have hctrl := sendCtrl_same s streamIdCtrl flagAck (min s.unreported 65535)
  unfold emitAck
  dsimp only
  generalize s.sendCtrl streamIdCtrl flagAck (min s.unreported 65535) = r at hctrl
  obtain ⟨ok, t⟩ := r
  cases ok with
  | false => exact hctrl
  | true => exact hctrl.trans ⟨rfl, id, rfl⟩

theorem coalesceCb_same : Same s s.coalesceCb := by
  unfold coalesceCb
  split
  · dsimp only
    split
    · have htick : Same s { s with ackTicks := s.ackTicks + 1 } := ⟨rfl, id, rfl⟩
      exact htick.trans (emitAck_same _)
    · exact ⟨rfl, id, rfl⟩
  · exact ⟨rfl, id, rfl⟩

variable {s} in
/-- What a stream does to its session other than ending it. -/
theorem act_same (hreset : a ≠ .reset) (hshutdown : a ≠ .shutdown) : Same s (s.act a) := by
  cases a with
  | push f =>
    have hborn : Same s { s with births := s.births + 1 } := ⟨rfl, id, rfl⟩
    exact hborn.trans (sendbufPush_same _ _)
  | ctrl id flags extra => exact sendCtrl_same s id flags extra
  | discard id => exact ⟨rfl, fun h => h, rfl⟩
  | opened id => exact ⟨rfl, fun h => by simpa [act] using h, rfl⟩
  | removed id => exact ⟨rfl, fun h => by simpa [act] using h, rfl⟩
  | reset => exact absurd rfl hreset
  | shutdown => exact absurd rfl hshutdown

variable {s} in
theorem initiateShutdown_owed (h : s.Owed) (hst : s.state = .established ∨ s.state = .handshake) :
    s.initiateShutdown.Owed ∧ s.initiateShutdown.state = .closing := by
  unfold initiateShutdown
  split
  next hc => tauto
  · have hopen : s.freeStreams.discardBuffers.unackedFreeAll.state ≠ .closed := by
      show s.state ≠ .closed
      rcases hst with hst | hst <;> simp [hst]
    have hset := setState_owed (s := s.freeStreams.discardBuffers.unackedFreeAll) (n := .closing) h.owed
      (fun hc => absurd hc hopen) fun _ => .inl rfl
    exact ⟨hset, setState_state _ _⟩

/-! ### The pump -/

/-- `P` is kept by what the pump and the scheduler it calls do to a session, and `Q` holds of what they
leave, where the transport fails too. -/
structure Pumping (P Q : Session → Prop) : Prop where
  same : ∀ {s s' : Session}, P s → Same s s' → P s'
  reset : ∀ {s : Session}, P s → P s.reset
  shutdown : ∀ {s : Session}, P s → s.state = .established → P s.initiateShutdown
  stopped : ∀ {s : Session}, P s → Q s
  failed : ∀ {s : Session}, P s → Q s.suspendOrReset

theorem handOver_same (f : MuxFrame) (n : Nat) : Same s (s.handOver f n) := ⟨rfl, id, rfl⟩

theorem freezeHead_same (rest : List MuxFrame) : Same s (s.freezeHead rest) := by
  unfold freezeHead
  split <;> exact ⟨rfl, id, rfl⟩

theorem written_same (f : MuxFrame) (rest : List MuxFrame) (n : Nat) (sendbuf : List MuxFrame) :
    Same s (s.written f rest n sendbuf) :=
  ((handOver_same s f n).trans (freezeHead_same _ rest)).trans ⟨rfl, id, rfl⟩

theorem sendQueueRetransmit_same (off : Nat) : Same s (s.sendQueueRetransmit off).2 := by
  have hget := frameGet_same s
  unfold sendQueueRetransmit
  split
  · exact ⟨rfl, id, rfl⟩
  generalize s.frameGet = r at hget
  obtain ⟨ok, t⟩ := r
  cases ok with
  | false => exact hget
  | true => exact hget.trans ⟨rfl, id, rfl⟩

theorem sendStageIdleDgram_same : Same s s.sendStageIdleDgram.2 := by
  unfold sendStageIdleDgram
  split
  · exact ⟨rfl, id, rfl⟩
  next rest _ =>
    have htake : Same s { s with dgrambuf := rest, dgramTurn := false } := ⟨rfl, id, rfl⟩
    exact htake.trans (sendbufPush_same _ _)

end

namespace Pumping

variable {P Q : Session → Prop} (hp : Pumping P Q)
include hp

theorem strains (h : P s) (hs : Strains s s') : P s' := by
  rcases hs with hs | ⟨t, hs, rfl⟩
  · exact hp.same h hs
  · exact hp.reset (hp.same h hs)

theorem act (h : P s) (hmay : s.mayAct inPump a) : P (s.act a) := by
  cases a with
  | reset => exact hp.reset h
  | shutdown => exact hp.shutdown h (by simpa [mayAct] using hmay)
  | _ => exact hp.same h (act_same nofun nofun)

theorem runActs (acts : List StreamAct) (h : P s) : P (s.runActs inPump acts) := by
  unfold Session.runActs
  induction acts generalizing s with
  | nil => exact h
  | cons a acts ih =>
    rw [List.foldl_cons]
    refine ih ?_
    split
    next hmay => exact hp.act h hmay
    · exact h

theorem callSched (h : P s) : P s.callSched.2 := by
  unfold Session.callSched
  split
  · exact h
  next acts staged rest _ => exact hp.runActs acts (hp.same h ⟨rfl, id, rfl⟩)

theorem drainLp (h : P s) : P s.drainLp := by
  have hhint := hp.same h (hint_same s false)
  unfold Session.drainLp
  dsimp only
  split
  · exact hp.callSched hhint
  · exact hhint

theorem flushResult (h : P s) (f : MuxFrame) (rest : List MuxFrame) (r : WireResult) :
    Q (s.flushResult f rest r).2 ∧ ((s.flushResult f rest r).1 = false → P (s.flushResult f rest r).2) := by
  match r with
  | .fail n => exact ⟨hp.failed (hp.same h (handOver_same s f n)), nofun⟩
  | .sent 0 => exact ⟨hp.stopped (hp.same h (freezeHead_same s rest)), nofun⟩
  | .sent (n + 1) =>
    unfold Session.flushResult
    dsimp only
    split
    · exact ⟨hp.stopped (hp.strains (hp.same h (written_same _ _ _ _ _)) (trackPartial_strains _ _ _)), nofun⟩
    · have hfull (k : Nat) : P (s.flushFull f rest k) :=
        hp.strains (hp.same h (written_same s f rest k rest)) (trackSent_strains _ _)
      exact ⟨hp.stopped (hfull _), fun _ => hfull _⟩

/-- `flush_sendbuf_head`. -/
theorem flushSendbufHead (h : P s) :
    Q s.flushSendbufHead.2 ∧ (s.flushSendbufHead.1 = false → P s.flushSendbufHead.2) := by
  unfold Session.flushSendbufHead
  split
  · exact ⟨hp.stopped h, fun _ => h⟩
  · have hwire : Same s s.wireSend.2 := by
      unfold wireSend
      split <;> exact ⟨rfl, id, rfl⟩
    exact hp.flushResult (hp.same h hwire) _ _ _

theorem sendStageNew (h : P s) : P s.sendStageNew.2 := by
  unfold Session.sendStageNew
  split
  next rest _ =>
    have htake : Same s { s with oobbuf := rest } := ⟨rfl, id, rfl⟩
    exact hp.same h (htake.trans (sendbufPush_same _ _))
  split
  · exact hp.same h (sendStageIdleDgram_same s)
  have hsched := hp.callSched h
  split
  · exact hp.same hsched (sendStageIdleDgram_same _)
  generalize s.callSched = r at hsched
  obtain ⟨staged, t⟩ := r
  cases staged with
  | true => exact hp.same hsched ⟨rfl, id, rfl⟩
  | false => exact hp.same (hp.callSched hsched) (sendStageIdleDgram_same _)

theorem sendStageReplay (h : P s) : P s.sendStageReplay.2 := by
  unfold Session.sendStageReplay
  split
  · exact hp.sendStageNew h
  next off _ =>
  split
  · exact hp.sendStageNew (s := s.setReplayOff none) (hp.same h ⟨rfl, id, rfl⟩)
  have hcopy := sendQueueRetransmit_same s off
  generalize s.sendQueueRetransmit off = r at hcopy
  obtain ⟨ok, t⟩ := r
  cases ok with
  | true => exact hp.same h hcopy
  | false => exact hp.same h hcopy

/-- `send_stage_next`. -/
theorem sendStageNext (h : P s) :
    Q s.sendStageNext.2 ∧ (s.sendStageNext.1 ≠ .blocked → P s.sendStageNext.2) := by
  unfold Session.sendStageNext
  split
  · have hflush := hp.flushSendbufHead h
    generalize s.flushSendbufHead = r at hflush
    obtain ⟨stop, t⟩ := r
    cases stop with
    | true => exact ⟨hflush.1, fun hne => absurd rfl hne⟩
    | false =>
      have hnew := hp.sendStageReplay (hflush.2 rfl)
      exact ⟨hp.stopped hnew, fun _ => hnew⟩
  · exact ⟨hp.stopped (hp.sendStageNew h), fun _ => hp.sendStageNew h⟩

theorem sendPump (fuel : Nat) (h : P s) : Q (Session.sendPump fuel s) := by
  induction fuel generalizing s with
  | zero => exact hp.stopped h
  | succ fuel ih =>
    rw [Session.sendPump]
    split
    · have hflush := hp.flushSendbufHead h
      generalize s.flushSendbufHead = r at hflush
      obtain ⟨stop, t⟩ := r
      cases stop with
      | true => exact hflush.1
      | false => exact ih (hflush.2 rfl)
    split
    · exact (hp.flushSendbufHead h).1
    have hstage := hp.sendStageNext h
    generalize s.sendStageNext = r at hstage
    obtain ⟨stage, t⟩ := r
    cases stage with
    | blocked => exact hstage.1
    | done => exact (hp.flushSendbufHead (hstage.2 nofun)).1
    | produced => exact ih (hstage.2 nofun)

end Pumping

structure Stopped (s : Session) : Prop where
  owed : s.Owed
  empty : s.state = .suspended → s.sendbuf = [] ∧ s.oobbuf = []

theorem Going.stopped (h : Going s) : Stopped s := ⟨h.owed, fun hst => absurd hst h.awake⟩

theorem suspend_empty (hst : s.suspend.state = .suspended) : s.suspend.sendbuf = [] ∧ s.suspend.oobbuf = [] := by
  rcases s.suspend_spec with ⟨_, _, _, ⟨_, _, _, -, -, rfl⟩, heq⟩ | hclosed
  · rw [heq]
    exact ⟨rfl, rfl⟩
  · simp [hclosed.state] at hst

theorem suspend_state (s : Session) (hne : s.suspend.state ≠ .suspended) : s.suspend.state = .closed := by
  rcases s.suspend_spec with ⟨_, _, _, ⟨_, _, _, -, -, rfl⟩, heq⟩ | hclosed
  · rw [heq] at hne
    exact absurd rfl hne
  · exact hclosed.state

theorem suspendOrReset_stopped (h : s.Owed) : Stopped s.suspendOrReset := by
  refine ⟨suspendOrReset_owed h, ?_⟩
  unfold suspendOrReset
  split
  · exact suspend_empty
  · intro hst
    simp [reset_state] at hst

theorem going_pumping : Pumping Going Stopped where
  same h hs := h.of_same hs
  reset h := h.reset
  shutdown h hst := by
    obtain ⟨howed, hclosing⟩ := initiateShutdown_owed h.owed (.inl hst)
    exact ⟨howed, by simp [hclosing]⟩
  stopped h := h.stopped
  failed h := suspendOrReset_stopped h.owed

theorem handshakeDone_owed (h : s.Owed) (hst : s.state = .handshake) : s.handshakeDone.Owed := by
  have hset := h.setState (n := .established) (by simp [hst])
    fun hc => absurd hc (h.streams_ne (by simp [hst]))
  have hhint := hset.of_same (hint_same (s.setState .established) false)
  unfold handshakeDone
  dsimp only
  split <;> exact hhint

theorem handshakeDone_state (s : Session) : s.handshakeDone.state = .established := by
  have hset := (hint_same (s.setState .established) false).state.trans (setState_state s .established)
  unfold handshakeDone
  dsimp only
  split <;> exact hset

theorem startReplay_owed (h : s.Owed) : s.startReplay.Owed := by
  unfold startReplay
  split <;> exact h

theorem handshakeClientFresh_owed (h : s.Owed) (id : BitVec 128) : (s.handshakeClientFresh id).2.Owed ∧
      ((s.handshakeClientFresh id).1 = true → (s.handshakeClientFresh id).2.state = s.state) := by
  obtain ⟨ok, allocs, hget⟩ := s.freeStreams.frameGet_eq
  rw [handshakeClientFresh, hget]
  cases ok with
  | false =>
    exact ⟨reset_owed (s := s.freeStreams.withAllocs allocs) h.owed, nofun⟩
  | true => exact ⟨⟨h.owed, nofun⟩, fun _ => rfl⟩

theorem processHelloClient_owed (h : s.Owed) (hello : Hello) : (s.processHelloClient hello).2.Owed ∧
      ((s.processHelloClient hello).1 = true → (s.processHelloClient hello).2.state = s.state) := by
  unfold processHelloClient
  split
  · exact ⟨h.reset, nofun⟩
  split
  · split
    next t hack =>
      have ht : t.Owed := h.of_same (resumeAckRecv_same hack)
      exact ⟨Owed.reset (s := t.reject) ht, nofun⟩
    next hack => exact ⟨h.of_same (resumeAckRecv_same hack), fun _ => (resumeAckRecv_same hack).state⟩
  · exact handshakeClientFresh_owed h _

variable [HelloCodec]

theorem enqueueHello_owed (h : s.Owed) (server resume : Bool) : (s.enqueueHello server resume).2.Owed ∧
      ((s.enqueueHello server resume).1 = true → (s.enqueueHello server resume).2.state = s.state) := by
  obtain ⟨ok, allocs, hget⟩ := s.frameGet_eq
  rw [enqueueHello, hget]
  cases ok with
  | false => exact ⟨Owed.reset (s := s.withAllocs allocs) h, nofun⟩
  | true => exact ⟨h, fun _ => rfl⟩

theorem handshakeStart_owed (h : s.Owed) (hopen : s.state ≠ .closed) (htable : s.streams ≠ none) :
    s.handshakeStart.Owed := by
  have hset := h.setState (n := .handshake) (fun hc => absurd hc hopen) fun hc => absurd hc htable
  unfold handshakeStart
  dsimp only
  split
  · exact hset
  · exact (enqueueHello_owed hset _ _).1

theorem connectCb_owed (h : s.Owed) (hst : s.state = .connect) (ok : Bool) : (s.connectCb ok).Owed := by
  unfold connectCb
  split
  · exact handshakeStart_owed h (by simp [hst]) (h.streams_ne (by simp [hst]))
  · exact suspendOrReset_owed h

theorem processHelloServer_owed (h : s.Owed) (hello : Hello) : (s.processHelloServer hello).2.Owed ∧
      ((s.processHelloServer hello).1 = true → (s.processHelloServer hello).2.state = s.state) := by
  have hasked : Same s (if hello.sessionId.isSome then s.ask false else (false, s)).2 := by
    split
    · exact ask_same s false
    · exact ⟨rfl, id, rfl⟩
  unfold processHelloServer
  generalize (if hello.sessionId.isSome then s.ask false else (false, s)) = r at hasked
  obtain ⟨handed, t⟩ := r
  dsimp only
  split
  · exact ⟨(h.of_same hasked).reset, nofun⟩
  have hadmitted := hasked.trans (ask_same t true)
  split
  · exact ⟨(h.of_same hadmitted).reset, nofun⟩
  · obtain ⟨hhello, hstate⟩ := enqueueHello_owed (h.of_same hadmitted) true false
    exact ⟨hhello, fun hok => (hstate hok).trans hadmitted.state⟩

theorem processHello_owed (h : s.Owed) (f : Frame) : (s.processHello f).Owed := by
  unfold processHello
  split
  · exact h.reset
  next hst =>
  split
  · exact h.reset
  split
  · exact h.reset
  next hello _ =>
  split
  · exact h.reset
  have hasked := ask_same s true
  dsimp only
  split
  · exact (h.of_same hasked).reset
  have hverdict : ∀ r : Bool × Session, r.2.Owed → (r.1 = true → r.2.state = .handshake) →
      (helloDone r).Owed := by
    rintro ⟨ok, t⟩ ht hstate
    cases ok with
    | false => exact ht
    | true =>
      have hdone := handshakeDone_owed ht (hstate rfl)
      unfold helloDone
      dsimp only
      split
      · exact hdone
      · exact startReplay_owed hdone
  have hsame : (s.ask true).2.state = .handshake := hasked.state.trans (Classical.not_not.mp hst)
  split
  · obtain ⟨hr, hstate⟩ := processHelloServer_owed (h.of_same hasked) hello
    exact hverdict _ hr fun hok => (hstate hok).trans hsame
  · obtain ⟨hr, hstate⟩ := processHelloClient_owed (h.of_same hasked) hello
    exact hverdict _ hr fun hok => (hstate hok).trans hsame

end Session

end Multiplexd
