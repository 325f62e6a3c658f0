import Multiplexd.Mux.Owner

/-!
# Every close is told once

The callbacks of a session under its owner. Inside a callback the owner is owed a word exactly when the
session is closed (`Session.Owed`), and every callback ends by paying that debt (`Session.Told`).
-/

namespace Multiplexd

namespace Session

variable {s s' : Session}

theorem dispatchCtrlFrame_owed (h : s.Owed) (f : Frame) : (s.dispatchCtrlFrame f).Owed := by
  unfold dispatchCtrlFrame
  split
  · split
    · exact Owed.reset (s := s.reject) h
    have hack := ackRecv_same s f.extra.toNat
    generalize s.ackRecv f.extra.toNat = r at hack
    obtain ⟨ok, unstalled, t⟩ := r
    have ht : t.Owed := h.of_same hack
    cases ok with
    | false => exact Owed.reset (s := t.reject) ht
    | true =>
      dsimp only
      split
      · exact ht.of_same (notifyWrite_same t)
      · exact ht
  split
  · unfold recvPing
    split
    · exact h.reset
    dsimp only
    split
    · exact (h.of_same (hint_same s true)).of_same ((sendOob_same _ _ _ _).trans ⟨rfl, id, rfl⟩)
    · exact h.of_same (hint_same s true)
  · exact h

theorem dispatchStreamFrame_going (h : Going s) (f : Frame) : Going (s.dispatchStreamFrame f) := by
  have hcount : Same s (s.countRecv f) := ⟨rfl, id, rfl⟩
  have hack : Same (s.countRecv f) (s.countRecv f).ackIfDue := by
    unfold ackIfDue
    split
    · exact emitAck_same _
    · exact ⟨rfl, id, rfl⟩
  have hgoing := h.of_same (hcount.trans hack)
  unfold dispatchStreamFrame react
  split
  · exact hgoing
  next acts rest _ =>
    have hnext : Same (s.countRecv f).ackIfDue { (s.countRecv f).ackIfDue with reacts := rest } := ⟨rfl, id, rfl⟩
    exact going_pumping.runActs acts (hgoing.of_same hnext)

theorem sendHandleRxClosed_stopped (h : Going s) :
    Stopped s.sendHandleRxClosed.2 ∧ (s.sendHandleRxClosed.1 = false → s.sendHandleRxClosed.2 = s) := by
  unfold sendHandleRxClosed
  split
  · exact ⟨h.stopped, fun _ => rfl⟩
  next hst =>
  have hest : s.state = .established := by
    by_contra hne
    exact hst (.inr hne)
  split
  · exact ⟨⟨suspend_owed h.owed (by simp [hest]) (h.owed.streams_ne (.inl hest)), suspend_empty⟩, nofun⟩
  · have hset (t : Session) (hs : Same s t) : Stopped { t.setState .closing with txPending := true } := by
      have hclosing := (h.owed.of_same hs).setState (n := .closing) (by simp [hs.state, hest]) fun _ => .inl rfl
      refine ⟨hclosing, fun hc => ?_⟩
      rw [show _ = SessionState.closing from t.setState_state .closing] at hc
      contradiction
    dsimp only
    refine ⟨hset _ ?_, nofun⟩
    split <;> exact ⟨rfl, id, rfl⟩

theorem ownerReacts_owed (h : Stopped s) (attempt : Bool) : (s.ownerReacts attempt).Owed := by
  unfold ownerReacts
  split
  next hst =>
    obtain ⟨hst, -⟩ := hst
    have hhint := hint_same s false
    have hempty : (s.hint false).2.sendbuf = [] ∧ (s.hint false).2.oobbuf = [] := by
      rw [hint]
      split <;> exact h.empty hst
    have howed := h.owed.of_same hhint
    have hst' := hhint.state.trans hst
    dsimp only
    split
    · generalize (s.hint false).2 = t at *
      have hcapture : t.captureAndDiscard = t.discardBuffers := by
        unfold captureAndDiscard captureSendbuf
        rw [hempty.1]
        show (t.clearSendbuf.clearOobbuf.captureFrameList t.oobbuf).discardBuffers = _
        rw [hempty.2]
        rfl
      have htable := howed.streams_ne (.inr (.inr (.inr hst')))
      unfold attachFd
      rw [if_pos hst', hcapture]
      dsimp only
      rw [if_neg (by show t.state ≠ _; simp [hst'])]
      unfold attachInstall
      split
      · have hinstall : t.discardBuffers.installTransport.Owed := howed.of_same ⟨rfl, id, rfl⟩
        have hopen : t.discardBuffers.installTransport.state ≠ .closed := by
          show t.state ≠ .closed
          simp [hst']
        exact hinstall.setState (n := .connect) (fun hc => absurd hc hopen) fun hc => absurd hc htable
      next hnone => exact absurd hnone htable
    · exact howed
  · exact h.owed

/-- Between callbacks every close has been told. -/
structure Told (s : Session) : Prop where
  reported : Reported s.events
  table : s.streams = none → s.state = .closing ∨ s.state = .closeWait ∨ s.state = .closed

theorem Told.of_same (h : Told s) (hs : Same s s') : Told s' := by
  refine ⟨?_, fun hnone => ?_⟩
  · rw [hs.events]
    exact h.reported
  · rw [hs.state]
    exact h.table (hs.streams hnone)

theorem Told.owed (h : Told s) (hopen : s.state ≠ .closed) : s.Owed :=
  ⟨by rw [decide_eq_false hopen]; exact h.reported, h.table⟩

theorem Owed.told (h : s.Owed) (hopen : s.state ≠ .closed) : Told s :=
  ⟨by have := h.owed; rwa [decide_eq_false hopen] at this, h.table⟩

theorem Owed.emit_closed (h : s.Owed) (hst : s.state = .closed) (expired : Bool) :
    Told (s.emit (.closed expired)) := by
  refine ⟨?_, h.table⟩
  show Multiplexd.owed (s.events ++ [.told (.closed expired)]) = _
  rw [owed_append, h.owed, decide_eq_true hst]
  rfl

theorem emitIfClosed_told (h : s.Owed) : Told s.emitIfClosed := by
  unfold emitIfClosed
  split
  next hst => exact h.emit_closed hst false
  next hst => exact h.told hst

theorem notifyClosed_told (h : Told s) (expired : Bool) : Told (s.notifyClosed expired) := by
  unfold notifyClosed
  split
  · exact h
  next hopen => exact (h.owed hopen).reset.emit_closed (reset_state s) expired

theorem initiateShutdown_told (h : Told s) : Told s.initiateShutdown := by
  by_cases hst : s.state = .established ∨ s.state = .handshake
  · have hopen : s.state ≠ .closed := by rcases hst with hst | hst <;> simp [hst]
    obtain ⟨howed, hclosing⟩ := initiateShutdown_owed (h.owed hopen) hst
    exact howed.told (by simp [hclosing])
  · unfold initiateShutdown
    rw [if_pos (not_or.mp hst)]
    exact notifyClosed_told h false

theorem runActs_told (acts : List StreamAct) (h : Told s) :
    Told (s.runActs false (acts.filter (· != .reset))) := by
  unfold runActs
  induction acts generalizing s with
  | nil => exact h
  | cons a acts ih =>
    rw [List.filter_cons]
    split
    next hne =>
      rw [List.foldl_cons]
      refine ih ?_
      split
      next hmay =>
        cases a with
        | reset => simp at hne
        | shutdown => exact initiateShutdown_told h
        | _ => exact h.of_same (act_same nofun nofun)
      · exact h
    · exact ih h

theorem setState_connect_told (hev : Reported s.events) (htable : s.streams ≠ none) :
    Told (s.setState .connect).notify := by
  refine ⟨?_, fun hnone => absurd ((setState_streams s .connect).symm.trans hnone) htable⟩
  show Multiplexd.owed (s.setState .connect).events = _
  by_cases heq : s.state = .connect
  · rw [setState, if_pos heq]
    exact hev
  · rw [owed_setState heq, next_moved _ (n := .connect) (by simp)]
    exact hev

theorem attachInstall_told (h : Told s) : Told s.attachInstall := by
  unfold attachInstall
  split
  next hsome =>
    exact setState_connect_told (s := s.installTransport) h.reported (by show s.streams ≠ none; simp [hsome])
  next hnone =>
  obtain ⟨ok, allocs, hget⟩ := s.frameGet_eq
  rw [hget]
  cases ok with
  | false => exact notifyClosed_told (s := s.withAllocs allocs) (h.of_same ⟨rfl, id, rfl⟩) false
  | true =>
    exact setState_connect_told (s := { (s.withAllocs allocs).installTransport with streams := some [] })
      h.reported nofun

theorem attachFd_told (h : Told s) : Told s.attachFd := by
  unfold attachFd
  split
  next hst =>
    have hcapture := captureAndDiscard_owed (h.owed (by simp [hst]))
    dsimp only
    split
    next hclosed => exact hcapture.emit_closed hclosed false
    next hopen => exact attachInstall_told (hcapture.told hopen)
  · exact attachInstall_told h

theorem connectTimeoutCb_told (h : Told s) : Told s.connectTimeoutCb := by
  have hdialed (hst : s.state = .connect ∨ s.state = .handshake) :
      Told (if ¬ s.accepted ∧ s.hasSessionId then s.suspend.emitIfClosed else s.notifyClosed false) := by
    split
    · have hopen : s.state ≠ .closed := by rcases hst with hst | hst <;> simp [hst]
      have howed := h.owed hopen
      exact emitIfClosed_told (suspend_owed howed hopen (howed.streams_ne (.inr (by tauto))))
    · exact notifyClosed_told h false
  unfold connectTimeoutCb
  split
  next hst => exact hdialed (.inl hst)
  next hst => exact hdialed (.inr hst)
  · exact notifyClosed_told h true
  · exact notifyClosed_told h false
  · exact notifyClosed_told h false
  · exact h

theorem recvEof_owed (h : s.Owed) : s.recvEof.Owed := by
  have hshut : { s with rxOpen := false }.Owed := h.of_same ⟨rfl, id, rfl⟩
  unfold recvEof
  generalize { s with rxOpen := false } = t at hshut
  dsimp only
  split
  next hst =>
    split
    · exact suspend_owed hshut (by simp [hst]) (hshut.streams_ne (by simp [hst]))
    · exact hshut.reset
  · exact hshut

theorem Told.going (h : Told s) (hst : s.state = .handshake ∨ s.state = .established) : Going s := by
  refine ⟨h.owed ?_, ?_⟩ <;> rcases hst with hst | hst <;> simp [hst]

variable [HelloCodec]

theorem dispatchFrame_owed (fuel : Nat) (h : s.Owed) : (dispatchFrame fuel s).Owed := by
  induction fuel generalizing s with
  | zero => exact h
  | succ fuel ih =>
    rw [dispatchFrame]
    split
    · exact h
    next f rest _ =>
    have htake : { s with recvbuf := rest }.Owed := h.of_same ⟨rfl, id, rfl⟩
    generalize { s with recvbuf := rest } = t at htake
    dsimp only
    split
    · have hhello := processHello_owed htake f
      split
      · exact hhello
      · exact ih hhello
    split
    · exact htake.reset
    next hst =>
    split
    · exact htake.reset
    split
    · exact htake.reset
    have hframe : (if f.streamId = streamIdCtrl then t.dispatchCtrlFrame f else t.dispatchStreamFrame f).Owed := by
      split
      · exact dispatchCtrlFrame_owed htake f
      · have hest : t.state = .established := Classical.not_not.mp hst
        exact (dispatchStreamFrame_going ⟨htake, by simp [hest]⟩ f).owed
    generalize (if f.streamId = streamIdCtrl then t.dispatchCtrlFrame f else t.dispatchStreamFrame f) = t' at hframe
    split
    · exact ih hframe
    · exact hframe

theorem pumped_owed (h : s.Owed) : s.pumped.Owed := by
  have hsettled := h.of_same s.settle_same
  unfold pumped
  dsimp only
  split
  · exact dispatchFrame_owed _ hsettled
  · exact hsettled

theorem onSendOwned_owed (fuel : Nat) (h : Going s) : (onSendOwned fuel s).Owed := by
  have hclosed := sendHandleRxClosed_stopped (s := { s with txPending := false }) (h.of_same ⟨rfl, id, rfl⟩)
  unfold onSendOwned
  split
  next t heq =>
    rw [heq] at hclosed
    exact ownerReacts_owed hclosed.1 false
  next t heq =>
    rw [heq] at hclosed
    have heq : t = { s with txPending := false } := hclosed.2 rfl
    have ht : Going t := by
      rw [heq]
      exact h.of_same ⟨rfl, id, rfl⟩
    exact pumped_owed (ownerReacts_owed (going_pumping.sendPump fuel (going_pumping.drainLp ht)) _)

theorem onRecvOwned_owed (fuel : Nat) (h : s.Owed) (bytes : List UInt8) : (onRecvOwned fuel s bytes).Owed := by
  have hframes (n : Nat) : (dispatchFrame n { s with recvbuf := s.recvbuf ++ bytes }).Owed :=
    dispatchFrame_owed n (h.of_same ⟨rfl, id, rfl⟩)
  unfold onRecvOwned
  dsimp only
  split
  next hst => exact onSendOwned_owed fuel ⟨hframes _, by rw [hst.1]; nofun⟩
  · exact hframes _

/-! ### Between callbacks -/

theorem resumeInstall_told (h : s.Owed) (hst : s.state = .suspended) : Told s.resumeInstall := by
  have hcapture := captureAndDiscard_owed h
  unfold resumeInstall
  dsimp only
  split
  next hclosed => exact hcapture.emit_closed hclosed false
  next hopen =>
  have hcaptured : s.captureAndDiscard.state = .suspended :=
    (captureAndDiscard_open (by simp [hst]) hopen).state.trans hst
  have hset : (s.captureAndDiscard.installTransport.setState .handshake).Owed :=
    Owed.setState (s := s.captureAndDiscard.installTransport) hcapture (fun hc => absurd hc hopen)
      fun hc => absurd hc (hcapture.streams_ne (by simp [hcaptured]))
  obtain ⟨hhello, hstate⟩ := enqueueHello_owed hset true true
  generalize (s.captureAndDiscard.installTransport.setState .handshake).enqueueHello true true = r at hhello hstate
  obtain ⟨ok, t⟩ := r
  cases ok with
  | false =>
    dsimp only
    split
    next hclosed => exact hhello.emit_closed hclosed false
    next hopen => exact hhello.told hopen
  | true =>
    have hhs : t.state = .handshake := (hstate rfl).trans (setState_state _ _)
    have hdone := handshakeDone_owed hhello hhs
    have hest : t.handshakeDone.state = .established := handshakeDone_state t
    dsimp only
    rw [if_neg (not_not.mpr hest)]
    have hreplay : t.handshakeDone.startReplay.state = .established := by
      unfold startReplay
      split
      · exact hest
      · exact hest
    exact Owed.told (s := t.handshakeDone.startReplay.notify) (startReplay_owed hdone) (by
      show t.handshakeDone.startReplay.state ≠ _
      simp [hreplay])

theorem resumeAttach_told (h : Told s) (resumeSeq : Nat) : Told (s.resumeAttach resumeSeq) := by
  unfold resumeAttach
  split
  · exact h
  next hst =>
  have hst' : s.state = .established ∨ s.state = .suspended := by tauto
  have howed : s.Owed := h.owed (by rcases hst' with hst | hst <;> simp [hst])
  have hsuspend : (if s.state = .established then s.suspend else s).Owed ∧
      ((if s.state = .established then s.suspend else s).state ≠ .suspended →
        (if s.state = .established then s.suspend else s).state = .closed) := by
    split
    next hest =>
      exact ⟨suspend_owed howed (by simp [hest]) (howed.streams_ne (.inl hest)), suspend_state s⟩
    next hne => exact ⟨howed, fun hc => absurd (hst'.resolve_left hne) hc⟩
  generalize (if s.state = .established then s.suspend else s) = t at hsuspend
  dsimp only
  split
  next hne => exact hsuspend.1.emit_closed (hsuspend.2 hne) false
  next hsusp =>
  split
  next t' hack =>
    have hsame : t'.Owed := hsuspend.1.of_same (resumeAckRecv_same hack)
    exact (Owed.reset (s := t'.reject) hsame).emit_closed (reset_state _) false
  next t' hack =>
    have hsame := resumeAckRecv_same hack
    exact resumeInstall_told (hsuspend.1.of_same hsame) (hsame.state.trans (Classical.not_not.mp hsusp))

theorem start_told (h : Told s) (haccepted : s.accepted) (hst : s.state = .init) :
    Told s.installTransport.handshakeStart.notify := by
  have hset : (s.installTransport.setState .handshake).Owed := by
    have hinstall : s.installTransport.Owed := (h.owed (by simp [hst])).of_same ⟨rfl, id, rfl⟩
    refine hinstall.setState (fun hc => ?_) fun hc => ?_
    · have hopen : s.state = .closed := hc
      simp [hst] at hopen
    · have hend := h.table hc
      simp [hst] at hend
  have haccepted' : (s.installTransport.setState .handshake).accepted = true := by
    obtain ⟨_, _, heq⟩ := s.installTransport.setState_eq .handshake
    rw [heq]
    exact haccepted
  unfold handshakeStart
  dsimp only
  rw [if_pos haccepted']
  refine Owed.told (s := (s.installTransport.setState .handshake).notify) hset ?_
  show (s.installTransport.setState .handshake).state ≠ _
  rw [setState_state]
  nofun

theorem closeStep_told (h : Told s) (ok : Bool) (fuel : Nat) : Told (s.handleOwned fuel (.closeStep ok)) := by
  show Told (if _ then _ else _)
  split
  next hst =>
    have howed := h.owed (by simp [hst])
    split
    · exact (howed.setState (n := .closeWait) (by simp [hst]) fun _ => .inr (.inl rfl)).told
        (by simp [setState_state])
    · exact emitIfClosed_told howed.reset
  split
  next hst => exact emitIfClosed_told (h.owed (by simp [hst])).reset
  · exact h

theorem flushOwned_told (h : Told s) (fuel : Nat) : Told (s.flushOwned fuel) := by
  unfold flushOwned
  split
  · exact h.of_same ⟨rfl, id, rfl⟩
  next hst =>
    have hhint := hint_same s true
    have htold := h.of_same hhint
    dsimp only
    split
    · have hest : (s.hint true).2.state = .established := hhint.state.trans (not_not.1 hst)
      exact emitIfClosed_told (onSendOwned_owed fuel (htold.going (.inr hest)))
    · exact htold.of_same ⟨rfl, id, rfl⟩

/-- Every callback ends with its close told. -/
theorem handleOwned_told (h : Told s) (fuel : Nat) (e : Event) : Told (s.handleOwned fuel e) := by
  cases e with
  | attachFd =>
    show Told (if _ then _ else _)
    split
    · exact attachFd_told h
    · exact h
  | connected ok =>
    show Told (if _ then _ else _)
    split
    next hst => exact emitIfClosed_told (connectCb_owed (h.owed (by simp [hst.2])) hst.2 ok)
    · exact h
  | start =>
    show Told (if _ then _ else _)
    split
    next hst => exact start_told h hst.1 hst.2
    · exact h
  | writable =>
    have hpolled : Same s s.writeArmed.2 := hint_same s false
    rw [handleOwned]
    dsimp only
    split
    next hst => exact emitIfClosed_told (onSendOwned_owed fuel ((h.of_same hpolled).going hst.2))
    · exact h.of_same hpolled
  | readable bytes =>
    show Told (if _ then _ else _)
    split
    next hst => exact emitIfClosed_told (onRecvOwned_owed fuel (h.going hst).owed bytes)
    · exact h
  | readEof =>
    show Told (if _ then _ else _)
    split
    next hst => exact emitIfClosed_told (recvEof_owed (h.going hst).owed)
    · exact h
  | readError =>
    show Told (if _ then _ else _)
    split
    next hst => exact emitIfClosed_told (ownerReacts_owed (suspendOrReset_stopped (h.going hst).owed) _)
    · exact h
  | stream acts => exact runActs_told acts h
  | flush => exact flushOwned_told h fuel
  | coalesceTick => exact h.of_same (coalesceCb_same s)
  | probe extra payload hlen =>
    show Told (if _ then _ else _)
    split
    · exact h.of_same (sendOob_same s extra payload hlen)
    · exact h
  | dgram fin flow payload hlen => exact h.of_same (sendDgram_same s fin flow payload hlen)
  | resume resumeSeq =>
    show Told (if _ then _ else _)
    split
    · exact resumeAttach_told h resumeSeq
    · exact h
  | deadLink =>
    show Told (if _ then _ else _)
    split
    next hst =>
      split
      · have howed := (h.going (.inr hst)).owed
        exact emitIfClosed_told (ownerReacts_owed
          ⟨suspend_owed howed (by simp [hst]) (howed.streams_ne (.inl hst)), suspend_empty⟩ _)
      · exact notifyClosed_told h false
    · exact h
  | connectTimeout => exact connectTimeoutCb_told h
  | shutdown => exact initiateShutdown_told h
  | closeStep ok => exact closeStep_told h ok fuel

/-- In every run of a session under its owner, every close has been told to the owner, once and before the
session could close again, and nothing else was told to it as a close. -/
theorem runOwned_reported (accepted tls : Bool) (sessionId : BitVec 128) (maxPayload sessionWindow : Nat)
    (es : List (Event × Inputs)) :
    Reported ((new accepted tls sessionId maxPayload sessionWindow).runOwned es).events := by
  have hnew : Told (new accepted tls sessionId maxPayload sessionWindow) := ⟨rfl, nofun⟩
  refine (runFrom_invariant_always Told ?_ hnew es).reported
  intro s e h
  exact handleOwned_told (s := s.load e.2) (h.of_same ⟨rfl, id, rfl⟩) e.2.fuel e.1

end Session

end Multiplexd
