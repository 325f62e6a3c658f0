import Multiplexd.Mux.Transport

/-!
# The send-stall gate

`stalled` caches the comparison of the log with the session window: the log grows past the window when
frames are tracked and falls below it when they are confirmed, and the window follows the estimator, the
peer and the configuration. Every writer but one keeps the flag in step.
-/

namespace Multiplexd

open Session

def GateOk (stalled : Bool) (sessionWindow bytes : Nat) : Prop :=
  stalled = true → sessionWindow * windowUnit ≤ bytes

namespace Session

def Gate (s : Session) : Prop := GateOk s.stalled s.sessionWindow s.bytes

variable {s s' : Session}

theorem gate_of_open (h : s.stalled = false) : s.Gate := fun hs => by
  rw [h] at hs
  cases hs

theorem setState_gate (h : s.Gate) (st : SessionState) : (s.setState st).Gate := by
  obtain ⟨_, _, heq⟩ := s.setState_eq st
  rw [heq]
  exact h

theorem reset_gate (h : s.Gate) : s.reset.Gate := by
  unfold reset
  split
  · exact h
  · dsimp only
    split <;> exact gate_of_open rfl

theorem unackedPush_gate (h : s.Gate) (f : MuxFrame) (count : Nat) : (s.unackedPush f count).Gate := by
  obtain ⟨ok, allocs, hget⟩ := s.frameGet_eq
  rw [unackedPush, hget]
  cases ok with
  | false => exact reset_gate (s := s.withAllocs allocs) h
  | true =>
    simp only [Bool.not_true, Bool.false_eq_true, if_false]
    split
    next hover =>
      intro _
      exact of_decide_eq_true (Bool.and_eq_true _ _ ▸ hover).2
    next => exact fun hs => Nat.le_trans (h hs) (Nat.le_add_right _ _)

theorem trackSent_gate (h : s.Gate) (f : MuxFrame) : (s.trackSent f).Gate := by
  unfold trackSent
  split
  · exact h
  split
  · exact h
  split
  · exact h
  dsimp only
  split
  · exact h
  · exact unackedPush_gate h _ _

theorem trackPartial_gate (h : s.Gate) (f : MuxFrame) (rest : List MuxFrame) : (s.trackPartial f rest).Gate := by
  unfold trackPartial
  split
  · exact h
  split
  · exact h
  dsimp only
  split
  · exact h
  split
  · exact h
  obtain ⟨ok, allocs, hget⟩ := s.frameGet_eq
  rw [hget]
  cases ok with
  | false => exact reset_gate (s := s.withAllocs allocs) h
  | true => exact trackSent_gate (s := { s.withAllocs allocs with sendbuf := f.cut :: rest }) h _

theorem captureFrameList_gate (fs : List MuxFrame) (h : s.Gate) : (s.captureFrameList fs).Gate := by
  unfold captureFrameList
  induction fs generalizing s with
  | nil => exact h
  | cons f fs ih =>
    rw [List.foldl_cons]
    refine ih ?_
    split
    · exact h
    · exact trackSent_gate h f

section

variable (h : s.Gate)
include h

theorem captureSendbuf_gate : s.captureSendbuf.Gate :=
  captureFrameList_gate s.sendbuf (s := s.clearSendbuf) h

theorem captureOobbuf_gate : s.captureOobbuf.Gate :=
  captureFrameList_gate s.oobbuf (s := s.clearOobbuf) h

theorem discardBuffers_gate : s.discardBuffers.Gate := h

theorem dropStaging_gate : s.dropStaging.Gate := h

theorem dropDgrams_gate : s.dropDgrams.Gate := h

theorem detach_gate (e : MuxEvent) : (s.rewindReplay.stopIo.emit e).Gate := h

theorem captureAndDiscard_gate : s.captureAndDiscard.Gate :=
  discardBuffers_gate (captureOobbuf_gate (captureSendbuf_gate h))

theorem suspend_gate : s.suspend.Gate := by
  have hcaptured := dropDgrams_gate (captureOobbuf_gate (dropStaging_gate
    (captureSendbuf_gate (setState_gate h .suspended))))
  unfold suspend suspendDetach
  dsimp only
  split
  · exact hcaptured
  · exact detach_gate hcaptured _

theorem ackTrim_gate (count : Nat) : (s.ackTrim count).2.2.Gate := by
  unfold ackTrim
  split
  · exact h
  split
  · exact h
  generalize (s.countAcked count).trimRingOf count = t
  show t.unstall.2.Gate
  unfold unstall
  split
  · exact gate_of_open rfl
  next hnot =>
    intro hs
    have hs : t.stalled = true := hs
    simp only [hs, Bool.true_and, decide_eq_true_eq] at hnot
    exact Nat.le_of_not_lt hnot

theorem ackRecv_gate (count : Nat) : (s.ackRecv count).2.2.Gate := by
  unfold ackRecv
  split
  · exact h
  · exact ackTrim_gate h count

end

theorem resumeTrimLoop_gate (peerAck fuel : Nat) (h : s.Gate) : (resumeTrimLoop peerAck fuel s).2.Gate := by
  induction fuel generalizing s with
  | zero => exact h
  | succ fuel ih =>
    rw [resumeTrimLoop]
    split
    · exact h
    split
    · exact h
    dsimp only
    split
    · exact ackTrim_gate h 1
    · exact ih (ackTrim_gate h 1)

theorem resumeAckRecv_gate {peerAck : Nat} {ok : Bool} (h : s.Gate) (hack : s.resumeAckRecv peerAck = (ok, s')) :
    s'.Gate := by
  unfold resumeAckRecv at hack
  split at hack
  · obtain rfl := (Prod.mk.inj hack).2
    exact h
  have hloop := resumeTrimLoop_gate peerAck s.frames h
  split at hack
  next t heq =>
    rw [heq] at hloop
    obtain rfl := (Prod.mk.inj hack).2
    exact hloop
  next t heq =>
    rw [heq] at hloop
    obtain rfl := (Prod.mk.inj hack).2
    exact hloop

theorem sendbufPush_gate (h : s.Gate) (f : MuxFrame) : (s.sendbufPush f).Gate := by
  obtain ⟨_, _, -, heq⟩ := s.sendbufPush_spec f
  rw [heq]
  exact h

theorem ackEmitted_gate (h : s.Gate) (n : Nat) : (s.ackEmitted n).Gate := h

theorem notifyWrite_gate (h : s.Gate) : s.notifyWrite.Gate := by
  unfold notifyWrite
  split <;> exact h

theorem startReplay_gate (h : s.Gate) : s.startReplay.Gate := by
  unfold startReplay
  split <;> exact h

theorem written_gate (h : s.Gate) (frame : MuxFrame) (rest : List MuxFrame) (n : Nat)
    (sendbuf : List MuxFrame) : (s.written frame rest n sendbuf).Gate := by
  unfold written freezeHead
  split <;> exact h

theorem discard_gate (h : s.Gate) (id : UInt16) : (s.discardStreamFrames id).Gate := h

end Session

section Runs

variable [HelloCodec]

/-- Every elementary step keeps the gate in step with the log. -/
theorem Micro.gate {quiet : Bool} {e : Event} {ss ss' : Session} (hm : Micro quiet e ss ss') (h : ss.Gate) :
    ss'.Gate := by
  cases hm with
  | aux | table | forget | closeWait | install | dialed | accepted | park | oob | dgram | copy | replayed
  | recvOther | recvStream => exact h
  | closed | closing | failClosed | ackReject | helloReject | resumeReject | helloFresh =>
    exact gate_of_open rfl
  | suspend => exact suspend_gate h
  | fail frame rest n => exact suspend_gate (s := ss.handOver frame n) h
  | attach => exact captureAndDiscard_gate h
  | resumeInstall =>
    refine startReplay_gate ?_
    exact captureAndDiscard_gate h
  | helloServer => exact startReplay_gate (by exact h)
  | helloResume ss1 f rest hello _ _ _ _ _ _ _ hack =>
    have := resumeAckRecv_gate (s := { ss with recvbuf := rest }) h hack
    refine startReplay_gate ?_
    exact this
  | resumeTrim _ _ _ _ hack => exact resumeAckRecv_gate h hack
  | push f => exact sendbufPush_gate (s := { ss with births := ss.births + 1 }) h _
  | ack =>
    rw [pushAck]
    exact ackEmitted_gate (sendbufPush_gate (s := { ss with births := ss.births + 1 }) h _) _
  | stageOob frame rest => exact sendbufPush_gate (s := { ss with oobbuf := rest }) h _
  | stageDgram frame rest => exact sendbufPush_gate (s := { ss with dgrambuf := rest }) h _
  | discard id => exact discard_gate h id
  | freeze frame rest =>
    unfold freezeHead
    split <;> exact h
  | flushPart frame rest n => exact trackPartial_gate (written_gate h _ _ _ _) _ _
  | flushFull frame rest n => exact trackSent_gate (written_gate h _ _ _ _) _
  | recvAck _ f rest unstalled _ _ _ _ _ hack =>
    have := ackRecv_gate (s := { ss with recvbuf := rest }) h f.extra.toNat
    rw [hack] at this
    exact this

end Runs

/-! ### The window -/

def initialFrames : Nat := 65536 / windowUnit

def windowFramesFloor (windowBytes : Nat) : Nat :=
  max ((windowBytes + windowUnit - 1) % 2 ^ 64 / windowUnit) initialFrames % 2 ^ 32

structure Windowed where
  session : Session
  autoSessionWindow : Bool
  peerStreamWindow : Nat

namespace Windowed

def updateSessionWindow (w : Windowed) (windowBytes : Nat) : Windowed :=
  let newWindow : Nat := max w.peerStreamWindow (windowFramesFloor windowBytes)
  if w.session.sessionWindow = newWindow then w
  else
    let ss : Session := { w.session with sessionWindow := newWindow }
    if w.session.sessionWindow < newWindow ∧ ss.stalled = true ∧ ss.bytes < ss.sessionWindow * windowUnit then
      { w with session := { ss with stalled := false }.notifyWrite }
    else { w with session := ss }

def recvPong (w : Windowed) (windowBytes : Nat) : Windowed :=
  if w.autoSessionWindow then w.updateSessionWindow windowBytes else w

def recvPeerWindow (w : Windowed) (frames windowBytes : Nat) : Windowed :=
  { w with peerStreamWindow := frames }.recvPong windowBytes

/-- The session window of `mux_session_set_config`; a value of 0 or less asks for the automatic window. -/
def setConfig (w : Windowed) (sessionWindow : Int) : Windowed :=
  if sessionWindow ≤ 0 then
    { w with
      autoSessionWindow := true
      session :=
        if ¬ w.autoSessionWindow ∨ w.session.sessionWindow < initialFrames then
          { w.session with sessionWindow := initialFrames }
        else w.session }
  else
    { w with
      autoSessionWindow := false
      session := { w.session with sessionWindow := sessionWindow.toNat % 2 ^ 32 } }

/-- While the gate is closed, a reload to a manual window asks for no more than the log holds, and one to
the automatic window finds it in force, at its floor or above, or finds the floor filled. -/
def KeepsGate (w : Windowed) (sessionWindow : Int) : Prop :=
  w.session.stalled = true →
    (0 < sessionWindow ∧ sessionWindow.toNat * windowUnit ≤ w.session.bytes) ∨
      sessionWindow ≤ 0 ∧ ((w.autoSessionWindow = true ∧ initialFrames ≤ w.session.sessionWindow) ∨
        initialFrames * windowUnit ≤ w.session.bytes)

/-- The elementary steps of a session whose window moves; `reload` says which reloads are made. -/
inductive Step [HelloCodec] (reload : Windowed → Int → Prop) : Windowed → Windowed → Prop
  | micro (w : Windowed) {e : Event} {ss' : Session} (hm : Micro false e w.session ss') :
      Step reload w { w with session := ss' }
  | feed (w : Windowed) (e : Event) : Step reload w { w with session := w.session.feed e }
  | pong (w : Windowed) (windowBytes : Nat) : Step reload w (w.recvPong windowBytes)
  | peerWindow (w : Windowed) (frames windowBytes : Nat) :
      Step reload w (w.recvPeerWindow frames windowBytes)
  | setConfig (w : Windowed) (sessionWindow : Int) (h : reload w sessionWindow) :
      Step reload w (w.setConfig sessionWindow)

variable {w : Windowed} {reload : Windowed → Int → Prop}

theorem updateSessionWindow_gate (h : w.session.Gate) (windowBytes : Nat) :
    (w.updateSessionWindow windowBytes).session.Gate := by
  unfold updateSessionWindow
  dsimp only
  split
  · exact h
  split
  · exact notifyWrite_gate (gate_of_open rfl)
  next hnot =>
    intro hs
    have hs : w.session.stalled = true := hs
    have hbytes := h hs
    show max w.peerStreamWindow (windowFramesFloor windowBytes) * windowUnit ≤ w.session.bytes
    -- the window has shrunk, or the log is at it
    by_cases hgrew : w.session.sessionWindow < max w.peerStreamWindow (windowFramesFloor windowBytes)
    · exact Nat.le_of_not_lt fun hlt => hnot ⟨hgrew, hs, hlt⟩
    · exact Nat.le_trans (Nat.mul_le_mul_right _ (Nat.le_of_not_lt hgrew)) hbytes

theorem recvPong_gate (h : w.session.Gate) (windowBytes : Nat) : (w.recvPong windowBytes).session.Gate := by
  unfold recvPong
  split
  · exact updateSessionWindow_gate h windowBytes
  · exact h

theorem setConfig_gate (h : w.session.Gate) {sessionWindow : Int} (hkeep : w.KeepsGate sessionWindow) :
    (w.setConfig sessionWindow).session.Gate := by
  unfold setConfig
  split
  next hauto =>
    dsimp only
    split
    next hfloor =>
      intro hstalled
      rcases hkeep hstalled with ⟨hpos, -⟩ | ⟨-, ⟨hwas, hle⟩ | hle⟩
      · omega
      · exact absurd hfloor (by simp [hwas, hle])
      · exact hle
    next => exact h
  next hmanual =>
    intro hstalled
    rcases hkeep hstalled with ⟨-, hle⟩ | ⟨hauto, -⟩
    · exact Nat.le_trans (Nat.mul_le_mul_right _ (Nat.mod_le _ _)) hle
    · exact absurd hauto hmanual

variable [HelloCodec]

theorem Step.gate {w' : Windowed} (hstep : Step KeepsGate w w') (h : w.session.Gate) : w'.session.Gate := by
  cases hstep with
  | micro hm => exact hm.gate h
  | feed e =>
    obtain ⟨recvbuf, heq⟩ := w.session.feed_eq e
    show (w.session.feed e).Gate
    rw [heq]
    exact h
  | pong windowBytes => exact recvPong_gate h windowBytes
  | peerWindow frames windowBytes => exact recvPong_gate (w := { w with peerStreamWindow := frames }) h windowBytes
  | setConfig sessionWindow hkeep => exact setConfig_gate h hkeep

theorem steps_of_session {e : Event} {ss' : Session} (h : Steps false e w.session ss') :
    Relation.ReflTransGen (Step reload) w { w with session := ss' } := by
  induction h with
  | refl => exact .refl
  | tail _ hm ih => exact ih.tail (.micro _ hm)

/-- Every run of callbacks is a run of elementary steps. -/
theorem reaches_run (hb : Base w.session) (es : List (Event × Inputs)) :
    Relation.ReflTransGen (Step reload) w { w with session := w.session.run es } := by
  induction es generalizing w with
  | nil => exact .refl
  | cons e es ih =>
    have hsteps := step_steps (q := false) hb e (by simp)
    have hfirst : Relation.ReflTransGen (Step reload) w { w with session := w.session.step e } :=
      .head (.feed w e.1) (steps_of_session (w := { w with session := w.session.feed e.1 }) hsteps)
    exact hfirst.trans (ih (w := { w with session := w.session.step e }) (hb.step e))

/-- The gate is closed only while the log is at the session window, on every run in which no reload
raises the window past the log while the gate is closed. -/
theorem stalled_le_bytes (accepted tls : Bool) (id : BitVec 128) (maxPayload sessionWindow peerStreamWindow : Nat)
    (auto : Bool) {w : Windowed}
    (h : Relation.ReflTransGen (Step KeepsGate)
      ⟨Session.new accepted tls id maxPayload sessionWindow, auto, peerStreamWindow⟩ w) :
    w.session.stalled = true → w.session.sessionWindow * windowUnit ≤ w.session.bytes :=
  reflTransGen_invariant (fun w => w.session.Gate) (fun _ _ hs => hs.gate) h (gate_of_open rfl)

end Windowed

section Scenario

attribute [local instance] plainHelloCodec

/-- A frame of 32768 bytes. -/
def bigFrame : Frame where
  version := protocolVersion
  flags := flagPush
  streamId := 1
  extra := 0
  payload := List.replicate 32768 0
  payload_lt := by
    rw [List.length_replicate]
    decide

/-- A session that is ready to write. -/
structure Idle (ss : Session) : Prop where
  state : ss.state = .established
  sendbuf : ss.sendbuf = []
  retransmitOff : ss.retransmitOff = none
  retransmitCopy : ss.retransmitCopy = false
  allocs : ss.allocs = []

namespace Idle

variable {ss : Session} (h : Idle ss) {f : Frame}
include h

theorem sendbufPush_eq (births : Nat) (frame : MuxFrame) :
    { ss with births := births }.sendbufPush frame =
      { ss with births := births, sendbuf := [{ frame with pos := 0 }], sendbufStaging := true } := by
  simp [sendbufPush, h.sendbuf]

theorem unackedPush_stalled (frame : MuxFrame) (count : Nat) :
    Idle (ss.unackedPush frame count) ∧ (ss.unackedPush frame count).sessionWindow = ss.sessionWindow ∧
      (ss.unackedPush frame count).bytes = ss.bytes + frame.payloadBytes ∧
      (ss.sessionWindow * windowUnit ≤ ss.bytes + frame.payloadBytes →
        (ss.unackedPush frame count).stalled = true) := by
  have hget : ss.frameGet = (true, ss) := by
    unfold frameGet
    rw [h.allocs]
  unfold unackedPush
  rw [hget]
  simp only [Bool.not_true, Bool.false_eq_true, if_false]
  split
  next => exact ⟨{ h with }, rfl, rfl, fun _ => rfl⟩
  next hnot =>
    refine ⟨{ h with }, rfl, rfl, fun hle => ?_⟩
    by_contra hs
    have hs : ss.stalled = false := by simpa using hs
    exact hnot (by simpa [hs] using hle)

/-- A frame is produced and written at once. -/
theorem write (hv : f.version = protocolVersion) (hid : f.streamId ≠ streamIdCtrl) :
    ∃ ss', Steps false .writable ss ss' ∧ Idle ss' ∧ ss'.sessionWindow = ss.sessionWindow ∧
      ss'.bytes = ss.bytes + f.payload.length ∧
      (ss.sessionWindow * windowUnit ≤ ss.bytes + f.payload.length → ss'.stalled = true) := by
  have hpush : Micro false .writable ss _ := Micro.push ss f hv hid h.retransmitOff (.inl h.state)
    (fun _ => by simp [h.state])
  rw [h.sendbufPush_eq] at hpush
  let s1 : Session :=
    { ss with births := ss.births + 1, sendbuf := [ss.newFrame f], sendbufStaging := true }
  let n := (ss.newFrame f).len
  have hflush : Micro false .writable s1 _ :=
    Micro.flushFull s1 (ss.newFrame f) [] n (.inr h.state) rfl (Nat.zero_add n)
  let s2 := s1.written (ss.newFrame f) [] n []
  have hidle : Idle s2 := { h with sendbuf := rfl }
  have htrack : s2.trackSent ((ss.newFrame f).moved n) = s2.unackedPush ((ss.newFrame f).moved n) 1 := by
    have hhello : Item.isHello ⟨f, ss.births⟩ = false := by simp [Item.isHello, hv, protocolVersion]
    have htracked : Item.tracked ⟨f, ss.births⟩ = true := by simpa [Item.tracked] using hid
    simp [trackSent, newFrame, MuxFrame.moved, hhello, htracked]
  obtain ⟨hidle', hwindow, hbytes, hstalled⟩ := hidle.unackedPush_stalled ((ss.newFrame f).moved n) 1
  have hpay : ((ss.newFrame f).moved n).payloadBytes = f.payload.length := by
    simp [MuxFrame.payloadBytes, MuxFrame.moved, newFrame]
  rw [hpay] at hbytes hstalled
  refine ⟨s2.unackedPush ((ss.newFrame f).moved n) 1, .trans (.single hpush) (.single ?_), hidle', hwindow, hbytes,
    hstalled⟩
  rw [← htrack]
  exact hflush

end Idle

def narrowSession : Session := Session.new false false 0 65535 4

def establishedNarrow : Session := narrowSession.run (openedThenLost.take 4)

theorem establishedNarrow_idle : Idle establishedNarrow :=
  ⟨by decide, by decide, by decide, by decide, by decide⟩

theorem establishedNarrow_window : establishedNarrow.sessionWindow = 4 ∧ establishedNarrow.bytes = 0 := by decide

theorem narrow_reaches (reload : Windowed → Int → Prop) :
    Relation.ReflTransGen (Windowed.Step reload) ⟨narrowSession, false, 1⟩ ⟨establishedNarrow, false, 1⟩ := by
  have hb : Base (Windowed.mk narrowSession false 1).session := Base.new false false 0 65535 4
  exact Windowed.reaches_run hb (openedThenLost.take 4)

/-- Two large frames close the gate. -/
theorem stalls_after_two (reload : Windowed → Int → Prop) :
    ∃ ss : Session, Relation.ReflTransGen (Windowed.Step reload) ⟨narrowSession, false, 1⟩ ⟨ss, false, 1⟩ ∧
      ss.bytes = 65536 ∧ ss.sessionWindow = 4 ∧ ss.stalled = true := by
  have hrun := narrow_reaches reload
  have hidle := establishedNarrow_idle
  obtain ⟨hwindow, hzero⟩ := establishedNarrow_window
  generalize establishedNarrow = s at hrun hidle hwindow hzero
  have hlen : bigFrame.payload.length = 32768 := List.length_replicate
  have hv : bigFrame.version = protocolVersion := rfl
  have hid : bigFrame.streamId ≠ streamIdCtrl := by decide
  generalize bigFrame = f at hlen hv hid
  obtain ⟨s1, hs1, hidle1, hwindow1, hbytes1, -⟩ := hidle.write hv hid
  obtain ⟨s2, hs2, -, hwindow2, hbytes2, hstalled2⟩ := hidle1.write hv hid
  have hstalled := hstalled2 (by rw [hwindow1, hwindow, hbytes1, hzero, hlen]; decide)
  refine ⟨s2, ?_, by omega, by omega, hstalled⟩
  exact (hrun.trans (Windowed.steps_of_session hs1)).trans (Windowed.steps_of_session hs2)

/-- The gate has closed at a window of 4 units; reloads to 3 units, and from there to the automatic window,
leave it closed, and with reason. -/
theorem stalled_le_bytes_reloaded :
    ∃ w : Windowed, w.session.stalled = true ∧ w.KeepsGate 3 ∧ (w.setConfig 3).KeepsGate 0 ∧
      Relation.ReflTransGen (Windowed.Step Windowed.KeepsGate) ⟨narrowSession, false, 1⟩ ((w.setConfig 3).setConfig 0) ∧
      ((w.setConfig 3).setConfig 0).session.sessionWindow = 4 ∧
      ((w.setConfig 3).setConfig 0).session.stalled = true ∧
      ((w.setConfig 3).setConfig 0).session.sessionWindow * windowUnit ≤
        ((w.setConfig 3).setConfig 0).session.bytes := by
  obtain ⟨ss, hrun, hbytes, -, hstalled⟩ := stalls_after_two Windowed.KeepsGate
  have hmanual : (Windowed.mk ss false 1).KeepsGate 3 := fun _ => .inl ⟨by decide, by rw [hbytes]; decide⟩
  have hauto : ((Windowed.mk ss false 1).setConfig 3).KeepsGate 0 :=
    fun _ => .inr ⟨by decide, .inr (show 65536 ≤ ss.bytes from hbytes.ge)⟩
  have hreloaded := (hrun.tail (.setConfig _ 3 hmanual)).tail (.setConfig _ 0 hauto)
  exact ⟨⟨ss, false, 1⟩, hstalled, hmanual, hauto, hreloaded, rfl, hstalled,
    Windowed.stalled_le_bytes false false 0 65535 4 1 false hreloaded hstalled⟩

/-- A reload then raises the window from 4 to 5 units: the gate stays closed although the window has
room. -/
theorem reload_leaves_stalled :
    ∃ w : Windowed,
      Relation.ReflTransGen (Windowed.Step fun _ _ => True) ⟨narrowSession, false, 1⟩ (w.setConfig 5) ∧
      w.session.bytes = 65536 ∧ (w.setConfig 5).session.stalled = true ∧
      (w.setConfig 5).session.bytes < (w.setConfig 5).session.sessionWindow * windowUnit := by
  obtain ⟨ss, hrun, hbytes, -, hstalled⟩ := stalls_after_two fun _ _ => True
  refine ⟨⟨ss, false, 1⟩, hrun.tail (.setConfig _ 5 trivial), hbytes, hstalled, ?_⟩
  show ss.bytes < 5 % 2 ^ 32 * windowUnit
  rw [hbytes]
  decide

end Scenario

end Multiplexd
