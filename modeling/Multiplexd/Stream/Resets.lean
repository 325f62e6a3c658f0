import Multiplexd.Stream.Moves

/-!
# How a stream comes to its end

A stream is closed when both sides have sent all and the local side has read all, or by a reset. The
functions of `stream.c` that close a stream call each other in many orders (an application that is told
of a reset may close the stream at once), and each of these orders is one move.
-/

namespace Multiplexd

namespace Stream

open StreamCore

variable {s s' s'' : Stream}

def Mute (s : Stream) : Prop := s.fd = true → s.isDirect = false → s.linger = true

theorem rstNotifySocket_mute (s : Stream) : s.rstNotifySocket.Mute := by
  unfold rstNotifySocket
  split
  · exact fun _ _ => rfl
  next hfd => exact fun h => absurd h hfd

theorem markClosed_core (s : Stream) : s.markClosed.core =
    { s.core with
      state := .closed, sendQueue := [], queuedSendBytes := 0, recvbuf := [], bufferedBytes := 0
      eofSeen := s.eofSeen || (s.fd && !s.isDirect && !s.linger) } := by
  have hstop : s.stop.releaseBuffers.closeFd.core =
      { s.core with
        sendQueue := [], queuedSendBytes := 0, recvbuf := [], bufferedBytes := 0
        eofSeen := s.eofSeen || (s.fd && !s.isDirect && !s.linger) } := by
    have hkeep : s.stop.releaseBuffers.fd = s.fd ∧ s.stop.releaseBuffers.isDirect = s.isDirect ∧
        s.stop.releaseBuffers.linger = s.linger ∧ s.stop.releaseBuffers.core =
          { s.core with sendQueue := [], queuedSendBytes := 0, recvbuf := [], bufferedBytes := 0 } := by
      unfold stop
      split <;> exact ⟨rfl, rfl, rfl, rfl⟩
    obtain ⟨hfd, hdirect, hlinger, hcore⟩ := hkeep
    unfold closeFd
    rw [hfd, hdirect]
    split
    next h =>
      obtain ⟨h1, h2⟩ := h
      rw [h1, Bool.eq_false_iff.mpr h2]
      have heof : s.stop.releaseBuffers.eofSeen = s.eofSeen := congrArg StreamCore.eofSeen hcore
      show { s.stop.releaseBuffers.core with
        eofSeen := s.stop.releaseBuffers.eofSeen || !s.stop.releaseBuffers.linger } = _
      rw [hcore, hlinger, heof]
      simp
    next h =>
      rw [hcore]
      have hfalse : (s.fd && !s.isDirect && !s.linger) = false := by
        rw [not_and_or, Bool.not_eq_true, Classical.not_not] at h
        rcases h with h | h <;> simp [h]
      rw [hfalse, Bool.or_false]
      rfl
  unfold markClosed
  dsimp only
  split
  · rw [wake_core]
    show { s.stop.releaseBuffers.closeFd.core with state := StreamState.closed } = _
    rw [hstop]
  · show { s.stop.releaseBuffers.closeFd.core with state := StreamState.closed } = _
    rw [hstop]

theorem markClosed_isDirect (s : Stream) : s.markClosed.isDirect = s.isDirect := by
  have hclose : s.stop.releaseBuffers.closeFd.isDirect = s.isDirect := by
    have hstop : s.stop.releaseBuffers.isDirect = s.isDirect := by
      unfold stop
      split <;> rfl
    unfold closeFd
    split <;> exact hstop
  unfold markClosed
  dsimp only
  split
  · exact (wake_isDirect _).trans hclose
  · exact hclose

theorem markClosed_own (hst : s.state = .closing) (hbuf : s.recvbuf = []) : Own s s.markClosed := by
  by_cases hfd : (s.fd && !s.isDirect && !s.linger) = true
  · refine Own.trans (t := { s with eofSeen := true }) (.step (.eofSeen (.inr hst) hbuf)) ?_
    refine .of_step (.close hst hbuf) ?_
    rw [markClosed_core, hfd, Bool.or_true]
    rfl
  · refine .of_step (.close hst hbuf) ?_
    rw [markClosed_core, Bool.eq_false_iff.mpr hfd, Bool.or_false]
    rfl

theorem finishDrainedWrite_own (hst : s.state = .closeWait ∨ s.state = .closing) (hbuf : s.recvbuf = []) :
    Own s s.finishDrainedWrite.2 := by
  have hshut : Own s s.shutdownLocalWrite := by
    unfold shutdownLocalWrite
    split
    · exact .refl s
    · cases hd : s.isDirect with
      | true => exact .of_core (by simp [core])
      | false => exact .of_step (.eofSeen hst hbuf) (by simp [core])
  have hkeep : s.shutdownLocalWrite.state = s.state ∧ s.shutdownLocalWrite.recvbuf = s.recvbuf := by
    unfold shutdownLocalWrite
    split <;> exact ⟨rfl, rfl⟩
  unfold finishDrainedWrite
  split
  · exact .refl s
  dsimp only
  split
  next hclosing => exact hshut.trans (markClosed_own hclosing (hkeep.2.trans hbuf))
  · exact hshut

theorem finishDrainedWrite_over (s : Stream) : s.finishDrainedWrite.2.core.Over = s.core.Over := by
  have hshut : s.shutdownLocalWrite.core.Over = s.core.Over := by
    unfold shutdownLocalWrite
    split <;> rfl
  unfold finishDrainedWrite
  split
  · rfl
  dsimp only
  split
  · rw [markClosed_core, ← hshut]
    rfl
  · exact hshut

/-! ### Resets -/

variable {peer : Bool} {c : StreamCore}

theorem isRst_ctrlFrame (id : UInt16) (code : MuxStatus) :
    hasFlag (Session.ctrlFrame id flagRst code.code.toNat).flags flagRst = true := by
  show hasFlag flagRst flagRst = true
  decide

theorem discardStreamFrames_egress (s : Stream) :
    s.discardStreamFrames.discardStreamFrames.egress = s.discardStreamFrames.egress := by
  simp [discardStreamFrames]

theorem discardStreamFrames_falling (h : Falling peer c s.core) :
    Falling peer c s.discardStreamFrames.core := by
  refine { h with frames := ?_ }
  show (s.core.rstSent = c.rstSent ∧ (s.core.egress.filter _ = _ ∨ _ ∧ s.core.egress.filter _ = _)) ∨
    (_ ∧ _ ∧ s.core.rstSent = true ∧ ∃ code : MuxStatus, s.core.egress.filter _ = _)
  rcases h.frames with ⟨hrst, heg | ⟨hpeer, heg⟩⟩ | ⟨hpeer, hrst, hrst', code, heg⟩
  · exact .inl ⟨hrst, .inl (by rw [heg, List.filter_filter]; simp)⟩
  · exact .inl ⟨hrst, .inl (by rw [heg])⟩
  · refine .inr ⟨hpeer, hrst, hrst', code, ?_⟩
    rw [heg, List.filter_append, List.filter_filter]
    simp [isRst_ctrlFrame]

theorem sendRst_falling (h : Falling false c s.core) (hegress : s.discardStreamFrames.egress = s.egress)
    (code : MuxStatus) : Falling false c (s.sendRst code).core := by
  unfold sendRst
  split
  · exact h
  next hrst =>
  obtain ⟨ok, allocs, hget⟩ := s.frameGet_eq
  have hfilter : c.rstSent = false ∧ s.egress = c.egress.filter fun f => hasFlag f.flags flagRst := by
    rcases h.frames with ⟨hsent, heg | ⟨-, heg⟩⟩ | ⟨-, -, hsent, -⟩
    · exact ⟨hsent ▸ Bool.eq_false_iff.mpr hrst, heg⟩
    · exact ⟨hsent ▸ Bool.eq_false_iff.mpr hrst, hegress.symm.trans (congrArg _ heg)⟩
    · exact absurd hsent hrst
  rw [sendCtrl, hget]
  cases ok with
  | false => exact { h with frames := .inl ⟨hfilter.1.symm, .inl hfilter.2⟩ }
  | true =>
    refine { h with frames := .inr ⟨rfl, hfilter.1, rfl, code, ?_⟩ }
    show s.egress ++ [Session.ctrlFrame s.core.id flagRst code.code.toNat] = _
    rw [hfilter.2, h.id]

theorem sendRst_keeps (s : Stream) (code : MuxStatus) :
    (s.sendRst code).isDirect = s.isDirect ∧ (s.sendRst code).state = s.state := by
  unfold sendRst
  split
  · exact ⟨rfl, rfl⟩
  obtain ⟨ok, allocs, hget⟩ := s.frameGet_eq
  rw [sendCtrl, hget]
  cases ok <;> exact ⟨rfl, rfl⟩

theorem resetUnread_isDirect (s : Stream) : s.resetUnread.isDirect = s.isDirect := by
  unfold resetUnread
  dsimp only
  split
  · rfl
  · exact (sendRst_keeps _ _).1

theorem resetUnread_falling (h : Falling peer c s.core) : Falling peer c s.resetUnread.core := by
  have hdiscard : Falling peer c { s with recvbuf := [], bufferedBytes := 0 }.discardStreamFrames.core :=
    discardStreamFrames_falling (s := { s with recvbuf := [], bufferedBytes := 0 }) { h with }
  unfold resetUnread
  dsimp only
  split
  · exact hdiscard
  next hrst =>
  cases peer with
  | true =>
    have hreceived : s.rstReceived = true := h.cause.1
    simp [discardStreamFrames, hreceived] at hrst
  | false =>
    have hsend := sendRst_falling hdiscard (discardStreamFrames_egress _) .cancel
    generalize ({ s with recvbuf := [], bufferedBytes := 0 } : Stream).discardStreamFrames.sendRst .cancel = t at *
    exact { hsend with cause := ⟨rfl, hsend.cause.2⟩ }

theorem markClosed_fallen (h : Falling peer c s.core) (hm : s.Mute) : Fallen peer c s.markClosed.core := by
  have hfalse : (s.fd && !s.isDirect && !s.linger) = false := by
    by_contra hne
    rw [Bool.not_eq_false, Bool.and_eq_true, Bool.and_eq_true, Bool.not_eq_true', Bool.not_eq_true'] at hne
    rw [hm hne.1.1 hne.1.2] at hne
    exact absurd hne.2 (by decide)
  rw [markClosed_core, hfalse, Bool.or_false]
  exact { h with state := rfl, sendQueue := rfl, queuedSendBytes := rfl, recvbuf := rfl, bufferedBytes := rfl }

theorem mute_of_isDirect (h : s.isDirect = true) : s.Mute :=
  fun _ hfalse => absurd (h.symm.trans hfalse) (by decide)

theorem resetUnread_markClosed_fallen (h : Falling peer c s.resetUnread.core) :
    Fallen peer c (if s.resetUnread.isDirect then s.resetUnread else s.resetUnread.rstNotifySocket).markClosed.core := by
  split
  next hdirect => exact markClosed_fallen h (mute_of_isDirect hdirect)
  next =>
    refine markClosed_fallen ?_ (rstNotifySocket_mute _)
    rw [rstNotifySocket_core]
    exact h

theorem rstNotifyDirect_falling (h : Falling peer c s.core) (hd : s.isDirect = true) (hst : s.state ≠ .closed) :
    Falling peer c s.rstNotifyDirect.core ∧ s.rstNotifyDirect.isDirect = true ∧
      (s.rstNotifyDirect.state = .closed → Fallen peer c s.rstNotifyDirect.core) := by
  unfold rstNotifyDirect
  split
  · unfold closeHeld
    rw [if_pos hd]
    dsimp only
    split
    · unfold doShutdown
      dsimp only
      split
      · have hfallen : Fallen peer c ({ s with userClosed := true, rxEof := true } : Stream).markClosed.core :=
          markClosed_fallen { h with } (mute_of_isDirect hd)
        exact ⟨hfallen.toFalling, (markClosed_isDirect _).trans hd, fun _ => hfallen⟩
      · refine ⟨?_, (wake_isDirect _).trans hd, fun hclosed => absurd hclosed ?_⟩
        · rw [wake_core]
          exact { h with }
        · have hwake := congrArg StreamCore.state (wake_core { s with userClosed := true, rxEof := true })
          exact fun h => hst (hwake.symm.trans h)
    · unfold doClose
      rw [if_neg hst, if_neg (by assumption)]
      have hreset : Falling peer c ({ s with userClosed := true } : Stream).resetUnread.core :=
        resetUnread_falling { h with }
      have hfallen := resetUnread_markClosed_fallen hreset
      refine ⟨hfallen.toFalling, ?_, fun _ => hfallen⟩
      rw [markClosed_isDirect]
      split
      · assumption
      next hne => exact absurd ((resetUnread_isDirect { s with userClosed := true }).trans hd) hne
  · exact ⟨h, hd, fun hclosed => absurd hclosed hst⟩

theorem abortNotifyClose_fallen (h : Falling false c s.core) (hst : s.state ≠ .closed) :
    Fallen false c s.abortNotifyClose.core := by
  unfold abortNotifyClose
  split
  next hd =>
    obtain ⟨hfalling, hdirect, hclosed⟩ := rstNotifyDirect_falling h hd hst
    dsimp only
    split
    next hc => exact hclosed hc
    next => exact markClosed_fallen hfalling (mute_of_isDirect hdirect)
  next =>
    refine markClosed_fallen ?_ (rstNotifySocket_mute _)
    rw [rstNotifySocket_core]
    exact h

/-- The start of a reset by this end. -/
theorem falling_aborted (s : Stream) (codes : List MuxStatus) :
    Falling false { s.core with abortCodes := codes }
      ({ s with aborted := true, abortCodes := codes } : Stream).discardStreamFrames.core where
  id := rfl
  bytesSent := rfl
  sendWindow := rfl
  bytesReceived := rfl
  recvWindow := rfl
  grantSent := rfl
  accepted := rfl
  delivered := rfl
  eofSeen := rfl
  abortCodes := rfl
  cause := ⟨rfl, rfl⟩
  frames := .inl ⟨rfl, .inl rfl⟩

theorem abort_fallen (code : MuxStatus) (hst : s.state ≠ .closed) :
    Fallen false { s.core with abortCodes := s.abortCodes ++ [code] } (s.abort code).core := by
  unfold abort
  rw [if_neg hst]
  refine abortNotifyClose_fallen (sendRst_falling (falling_aborted s _) (discardStreamFrames_egress _) code) ?_
  rw [(sendRst_keeps _ _).2]
  exact hst

theorem abort_own (s : Stream) {code : MuxStatus} (hcode : code ≠ .flowControlError) : Own s (s.abort code) := by
  by_cases hst : s.state = .closed
  · rw [abort, if_pos hst]
    exact .refl s
  · refine .step (.plainReset (s.abortCodes ++ [code]) hst ?_ (abort_fallen code hst))
    intro h
    rcases List.mem_append.mp h with h | h
    · exact h
    · exact absurd (List.mem_singleton.mp h).symm hcode

theorem abort_state (s : Stream) (code : MuxStatus) : (s.abort code).state = .closed := by
  by_cases hst : s.state = .closed
  · rw [abort, if_pos hst]
    exact hst
  · exact (abort_fallen code hst).state

theorem abortUnopened_own (hst : s.state = .init) : Own s s.abortUnopened := by
  have hne : s.state ≠ .closed := by simp [hst]
  refine .step (.plainReset s.abortCodes hne (fun h => h) ?_)
  have h : Falling false s.core ({ s with aborted := true } : Stream).core :=
    { id := rfl, bytesSent := rfl, sendWindow := rfl, bytesReceived := rfl, recvWindow := rfl, grantSent := rfl,
      accepted := rfl, delivered := rfl, eofSeen := rfl, abortCodes := rfl, cause := ⟨rfl, rfl⟩,
      frames := .inl ⟨rfl, .inr ⟨.inr hst, rfl⟩⟩ }
  exact abortNotifyClose_fallen h hne

def Intact (s : Stream) : Prop := s.core.Intact

theorem Own.intact (h : Own s s') (hs : s.Intact) : s'.Intact := Moves.intact h hs

theorem falling_resetUnread (hi : s.Intact) (hst : s.state ≠ .closed) : Falling false s.core s.resetUnread.core := by
  obtain ⟨-, hreceived, hsent⟩ := hi.unreset hst
  unfold resetUnread
  dsimp only
  generalize hu : ({ s with recvbuf := [], bufferedBytes := 0 } : Stream).discardStreamFrames = u
  have hsent' : u.rstSent = false := hu ▸ hsent
  have hreceived' : u.rstReceived = false := hu ▸ hreceived
  obtain ⟨ok, allocs, hget⟩ := frameGet_eq u
  rw [if_neg (by simp [hsent', hreceived']), sendRst, if_neg (by simp [hsent']), sendCtrl, hget]
  subst hu
  cases ok with
  | false => exact { falling_aborted s s.abortCodes with frames := .inl ⟨hsent.symm, .inl rfl⟩ }
  | true => exact { falling_aborted s s.abortCodes with frames := .inr ⟨rfl, hsent, rfl, .cancel, rfl⟩ }

theorem doClose_fallen (hi : s.Intact) (hst : s.state ≠ .closed) (hbuf : s.recvbuf.isEmpty = false) :
    Fallen false s.core s.doClose.core := by
  unfold doClose
  rw [if_neg hst, hbuf]
  exact resetUnread_markClosed_fallen (falling_resetUnread hi hst)

theorem doClose_own (hi : s.Intact) (h : s.recvbuf = [] → s.state = .closing ∨ s.state = .closed) :
    Own s s.doClose := by
  by_cases hst : s.state = .closed
  · rw [doClose, if_pos hst]
    exact .refl s
  cases hbuf : s.recvbuf.isEmpty with
  | true =>
    have hnil : s.recvbuf = [] := List.isEmpty_iff.mp hbuf
    rw [doClose, if_neg hst, if_pos hbuf]
    exact markClosed_own ((h hnil).resolve_right hst) hnil
  | false => exact .step (.plainReset s.abortCodes hst (fun h => h) (doClose_fallen hi hst hbuf))

theorem doShutdown_own (s : Stream) : Own s s.doShutdown := by
  have heof : Own s { s with rxEof := true } := .step (.eof _)
  unfold doShutdown
  dsimp only
  split
  next h => exact heof.trans (markClosed_own h.2.2.1 (List.isEmpty_iff.mp h.2.2.2))
  next => exact heof.trans (.of_core (wake_core _))

theorem closeHeld_own (hi : s.Intact) : Own s s.closeHeld := by
  have huser : (if s.isDirect then { s with userClosed := true } else s).core = s.core := by
    split <;> rfl
  unfold closeHeld
  dsimp only
  generalize (if s.isDirect then { s with userClosed := true } else s) = t at huser ⊢
  refine (Own.of_core huser).trans ?_
  split
  · exact doShutdown_own t
  next hbuf =>
    refine doClose_own (by unfold Intact; rw [huser]; exact hi) ?_
    intro hnil
    exact absurd (List.isEmpty_iff.mpr hnil) hbuf

end Stream

end Multiplexd
