import Multiplexd.Stream.Traversal

/-!
# The frames of the peer

A frame is taken piece by piece: its credit, its payload, its FIN. An end that is reset on the way takes
a part of the frame only (`Taken.Part`), any other end takes all of it (`Stream.Gets`).
-/

namespace Multiplexd

/-- What an end takes from a frame that is legal in its state. -/
def Frame.taken (f : Frame) : Taken :=
  if hasFlag f.flags flagRst then { rst := true }
  else
    { credit := if hasFlag f.flags flagAck || hasFlag f.flags flagSyn then f.extra.toNat * windowUnit else 0
      data := f.payload
      opened := hasFlag f.flags flagSyn
      fin := hasFlag f.flags flagFin }

def carryFlags (push ack fin : Bool) : UInt8 :=
  (if push then flagPush else 0) ||| (if ack then flagAck else 0) ||| (if fin then flagFin else 0)

/-- A frame of an open stream: payload, a grant, a FIN, or several of them. -/
def Frame.Carries (f : Frame) : Prop :=
  f.flags ≠ 0 ∧
    f.flags = carryFlags (hasFlag f.flags flagPush) (hasFlag f.flags flagAck) (hasFlag f.flags flagFin) ∧
    hasFlag f.flags flagPush = !f.payload.isEmpty

instance (f : Frame) : Decidable f.Carries := inferInstanceAs (Decidable (_ ∧ _ ∧ _))

/-- The frames that are legal for an end in the state `st`. -/
def Frame.Fits (st : StreamState) (f : Frame) : Prop :=
  hasFlag f.flags flagRst = true ∨
    match st with
    | .synSent => f.flags = flagSyn ||| flagAck ∧ f.payload = []
    | .established | .finWait => f.Carries
    | .closeWait | .closing | .closed => f.flags = flagAck ∧ f.payload = []
    | .init | .synReceived => False

/-- A frame or a beginning of it. -/
structure Taken.Part (t u : Taken) : Prop where
  credit : t.credit ≤ u.credit
  data : t.data <+: u.data
  opened : t.opened = true → u.opened = true
  fin : t.fin = true → u.fin = true
  rst : t.rst = true → u.rst = true
  bad : t.bad = true → u.bad = true

namespace Taken

variable {t u v : Taken}

theorem Part.refl (t : Taken) : t.Part t :=
  ⟨Nat.le_refl _, List.prefix_refl _, fun h => h, fun h => h, fun h => h, fun h => h⟩

theorem Part.nil (t : Taken) : Part {} t :=
  ⟨Nat.zero_le _, List.nil_prefix, nofun, nofun, nofun, nofun⟩

theorem Part.append_right (h : t.Part u) (v : Taken) : t.Part (u.append v) where
  credit := Nat.le_trans h.credit (Nat.le_add_right _ _)
  data := h.data.trans (List.prefix_append _ _)
  opened := fun ht => by simp [append, h.opened ht]
  fin := fun ht => by simp [append, h.fin ht]
  rst := fun ht => by simp [append, h.rst ht]
  bad := fun ht => by simp [append, h.bad ht]

theorem Part.append_left (u : Taken) (h : t.Part v) : (u.append t).Part (u.append v) where
  credit := Nat.add_le_add_left h.credit _
  data := (List.prefix_append_right_inj _).mpr h.data
  opened := fun ht => by
    rcases Bool.or_eq_true _ _ ▸ ht with ht | ht
    · simp [append, ht]
    · simp [append, h.opened ht]
  fin := fun ht => by
    rcases Bool.or_eq_true _ _ ▸ ht with ht | ht
    · simp [append, ht]
    · simp [append, h.fin ht]
  rst := fun ht => by
    rcases Bool.or_eq_true _ _ ▸ ht with ht | ht
    · simp [append, ht]
    · simp [append, h.rst ht]
  bad := fun ht => by
    rcases Bool.or_eq_true _ _ ▸ ht with ht | ht
    · simp [append, ht]
    · simp [append, h.bad ht]

end Taken

namespace Stream

open StreamCore

variable {s s' s'' : Stream} {u v : Taken}

/-- The end takes `u`, or is reset when it has taken a part of it. -/
def Gets (u : Taken) (s s' : Stream) : Prop :=
  ∃ t, Moves t s.core s'.core ∧ t.Part u ∧ (¬ s'.core.Over → t = u)

theorem Gets.of_own (h : Own s s') : Gets {} s s' := ⟨{}, h, .refl _, fun _ => rfl⟩

theorem Gets.of_over (h : Own s s') (hover : s'.core.Over) (u : Taken) : Gets u s s' :=
  ⟨{}, h, .nil u, fun hn => absurd hover hn⟩

theorem Gets.of_input (h : Input u s.core s'.core) : Gets u s s' := ⟨u, .take h, .refl u, fun _ => rfl⟩

/-- What is taken one after the other. Once reset, the end takes no more. -/
theorem Gets.append (h : Gets u s s') (hover : s'.core.Over → Own s' s'')
    (hopen : ¬ s'.core.Over → Gets v s' s'') : Gets (u.append v) s s'' := by
  obtain ⟨t, hsteps, hpart, hall⟩ := h
  by_cases ho : s'.core.Over
  · have hown := hover ho
    refine ⟨t, ?_, hpart.append_right v, fun hn => absurd (Moves.over hown ho) hn⟩
    have hboth := hsteps.trans hown
    rw [Taken.append_nil] at hboth
    exact hboth
  · obtain ⟨t', hsteps', hpart', hall'⟩ := hopen ho
    obtain rfl := hall ho
    exact ⟨t.append t', hsteps.trans hsteps', hpart'.append_left t, fun hn => by rw [hall' hn]⟩

theorem Gets.then_own (h : Gets u s s') (hown : Own s' s'') : Gets u s s'' := by
  have hboth := h.append (fun _ => hown) (fun _ => .of_own hown)
  rw [Taken.append_nil] at hboth
  exact hboth

theorem Own.then_gets (hown : Own s s') (h : Gets u s' s'') : Gets u s s'' := by
  obtain ⟨t, hsteps, hpart, hall⟩ := h
  refine ⟨t, ?_, hpart, hall⟩
  have hboth := Moves.trans hown hsteps
  rw [Taken.nil_append] at hboth
  exact hboth

theorem Gets.intact (h : Gets u s s') (hs : s.Intact) : s'.Intact := by
  obtain ⟨t, hsteps, -, -⟩ := h
  exact hsteps.intact hs

/-! ### Payload -/

/-- The state is kept, or the stream has been reset. -/
def Stays (s s' : Stream) : Prop := s'.state = s.state ∨ s'.state = .closed ∧ s'.core.Over

theorem abort_over (s : Stream) (code : MuxStatus) (hst : s.state ≠ .closed) : (s.abort code).core.Over :=
  (abort_fallen code hst).over

theorem abort_stays (s : Stream) (code : MuxStatus) : Stays s (s.abort code) := by
  by_cases hst : s.state = .closed
  · rw [abort, if_pos hst]
    exact .inl rfl
  · exact .inr ⟨abort_state s code, abort_over s code hst⟩

theorem checkAck_state (s : Stream) : s.checkAck.state = s.state := by
  have hshrink : s.tryShrinkRecvWindow.state = s.state := by
    unfold tryShrinkRecvWindow
    dsimp only
    split <;> rfl
  unfold checkAck
  split
  · rfl
  rw [← hshrink]
  dsimp only
  generalize s.tryShrinkRecvWindow = t
  split
  · rfl
  split
  · rfl
  split
  · exact congrArg StreamCore.state (delay_core t 1)
  split
  · exact congrArg StreamCore.state (wake_core _)
  · rfl

theorem localWrite_stays (s : Stream) (data : List UInt8) : Stays s (s.localWrite data).2 := by
  unfold localWrite
  split
  · exact .inl rfl
  · exact .inl rfl
  · exact abort_stays _ _

theorem localWrite_pos {data : List UInt8} {n : Nat} {t : Stream} (h : s.localWrite data = (n + 1, t)) :
    t.state = s.state := by
  unfold localWrite at h
  split at h <;> simp only [Prod.mk.injEq] at h
  · exact absurd h.1 (by omega)
  · exact h.2 ▸ rfl
  · exact absurd h.1 (by omega)

theorem flushLoop_stays (fuel : Nat) (s : Stream) : Stays s (flushLoop fuel s).2 := by
  induction fuel generalizing s with
  | zero => exact .inl rfl
  | succ fuel ih =>
    unfold flushLoop
    split
    · exact .inl rfl
    have hwrite := localWrite_stays s s.recvbuf
    split
    next heq =>
      rw [heq] at hwrite
      exact hwrite
    next n t heq =>
      have hstate := localWrite_pos heq
      rcases ih (checkAck { t with
          recvbuf := t.recvbuf.drop (n + 1)
          bufferedBytes := t.bufferedBytes - UInt32.ofNat (n + 1) }) with h | h
      · exact .inl (h.trans ((checkAck_state _).trans hstate))
      · exact .inr h

theorem flushLocal_stays (hst : s.state ≠ .closeWait ∧ s.state ≠ .closing) : Stays s s.flushLocal := by
  unfold flushLocal
  have hloop := flushLoop_stays (s.writes.length + 1) s
  split
  next t heq =>
    rw [heq] at hloop
    exact hloop
  next t heq =>
    rw [heq] at hloop
    split
    next h =>
      rcases hloop with hloop | ⟨hclosed, -⟩
      · rw [show t.state = s.state from hloop] at h
        exact absurd h.1 (by simp [hst])
      · rw [show t.state = .closed from hclosed] at h
        simp at h
    · exact hloop

theorem notifyReadable_own (hi : s.Intact) : Own s s.notifyReadable := by
  unfold notifyReadable
  split
  · exact flushLocal_own hi
  · exact .refl s

theorem notifyReadable_stays (hst : s.state ≠ .closeWait ∧ s.state ≠ .closing) : Stays s s.notifyReadable := by
  unfold notifyReadable
  split
  · exact flushLocal_stays hst
  · exact .inl rfl

/-- The states in which payload is taken. -/
def Receiving (s : Stream) : Prop := s.state = .synReceived ∨ s.state = .established ∨ s.state = .finWait

theorem Receiving.ne (h : s.Receiving) : s.state ≠ .closeWait ∧ s.state ≠ .closing ∧ s.state ≠ .closed := by
  rcases h with h | h | h <;> simp [h]

theorem recvBuffer_gets (hi : s.Intact) (hst : s.Receiving) (p : List UInt8) :
    Gets { data := p } s (s.recvBuffer p) ∧ Stays s (s.recvBuffer p) := by
  unfold recvBuffer
  split
  next hp =>
    rw [List.isEmpty_iff.mp hp]
    exact ⟨.of_own (.refl s), .inl rfl⟩
  obtain ⟨ok, allocs, hget⟩ := s.frameGet_eq
  rw [hget]
  have hbase : Own s { s with allocs := allocs } := .of_core rfl
  cases ok with
  | false =>
    exact ⟨.of_over (hbase.trans (abort_own _ (by decide))) (abort_over { s with allocs := allocs } _ hst.ne.2.2) _,
      abort_stays { s with allocs := allocs } _⟩
  | true =>
    have hdata : Gets { data := p } s { s with
        allocs := allocs
        recvbuf := s.recvbuf ++ p
        bytesReceived := s.bytesReceived + UInt32.ofNat p.length
        bufferedBytes := s.bufferedBytes + UInt32.ofNat p.length } := .of_input (.data p hst)
    exact ⟨hdata.then_own (notifyReadable_own (hdata.intact hi)), notifyReadable_stays ⟨hst.ne.1, hst.ne.2.1⟩⟩

theorem recvDirect_gets (hi : s.Intact) (hst : s.state = .established ∨ s.state = .finWait) (hbuf : s.recvbuf = [])
    (p : List UInt8) : Gets { data := p } s (s.recvDirect p) ∧ Stays s (s.recvDirect p) := by
  have hopen : s.state ≠ .closed := by rcases hst with h | h <;> simp [h]
  have hrecv : s.Receiving := .inr hst
  unfold recvDirect localWrite
  split
  next n t heq =>
  split at heq <;> simp only [Prod.mk.injEq] at heq <;> obtain ⟨rfl, rfl⟩ := heq
  · rw [if_neg hopen, if_pos rfl]
    exact recvBuffer_gets hi hrecv p
  next k rest _ =>
    rw [if_neg hopen]
    split
    next hzero =>
      have htake : p.take k = [] := List.length_eq_zero_iff.mp (by rw [List.length_take]; exact hzero)
      have hbase : Own s { s with writes := rest, delivered := s.delivered ++ p.take k } := .of_core (by simp [core, htake])
      obtain ⟨hgets, hstays⟩ := recvBuffer_gets (hbase.intact hi) hrecv p
      exact ⟨hbase.then_gets hgets, hstays⟩
    next hpos =>
      have htake : p.take k = p.take (min k p.length) := by
        rw [List.take_eq_take_iff]
        omega
      have hdirect : Gets { data := p.take (min k p.length) } s { s with
          writes := rest, delivered := s.delivered ++ p.take k
          bytesReceived := s.bytesReceived + UInt32.ofNat (min k p.length) } := by
        refine .of_input ?_
        have hin := Input.direct (c := s.core) (p.take (min k p.length)) hst hbuf
        rw [List.length_take, Nat.min_assoc, Nat.min_self, ← htake] at hin
        rw [← htake]
        exact hin
      have hacked := hdirect.then_own (checkAck_own _)
      have hstate := checkAck_state { s with
          writes := rest, delivered := s.delivered ++ p.take k
          bytesReceived := s.bytesReceived + UInt32.ofNat (min k p.length) }
      generalize checkAck { s with
          writes := rest, delivered := s.delivered ++ p.take k
          bytesReceived := s.bytesReceived + UInt32.ofNat (min k p.length) } = t at hacked hstate ⊢
      have htrecv : t.Receiving := by
        unfold Receiving
        rw [hstate]
        exact hrecv
      obtain ⟨hgets, hstays⟩ := recvBuffer_gets (hacked.intact hi) htrecv (p.drop (min k p.length))
      refine ⟨?_, hstays.imp (fun h => h.trans hstate) fun h => h⟩
      have hboth := hacked.append (fun ho => absurd ((hacked.intact hi).closed_of_over ho) htrecv.ne.2.2) fun _ => hgets
      simpa [Taken.append] using hboth
  next k rest _ =>
    generalize hw : ({ s with writes := rest, delivered := s.delivered ++ p.take k } : Stream) = w
    have hwopen : w.state ≠ .closed := hw ▸ hopen
    have hfall := abort_fallen .internalError hwopen
    rw [if_pos (abort_state w _)]
    refine ⟨⟨{ data := p.take k }, .take (.spill (p.take k) (w.abortCodes ++ [.internalError]) hst hbuf ?_ ?_), ?_, ?_⟩, ?_⟩
    · subst hw
      exact mem_codes_append (by decide)
    · subst hw
      exact hfall
    · exact { Taken.Part.nil _ with data := List.take_prefix k p }
    · exact fun hn => absurd (abort_over w _ hwopen) hn
    · subst hw
      exact abort_stays _ _

theorem recvCopy_gets (hi : s.Intact) (hst : s.Receiving) (p : List UInt8) :
    Gets { data := p } s (s.recvCopy p) ∧ Stays s (s.recvCopy p) := by
  have hopen := hst.ne.2.2
  unfold recvCopy
  rw [if_neg hopen]
  split
  next hlt => exact ⟨.of_input (.excess p _ hopen (.inl hlt) (abort_fallen _ hopen)), abort_stays _ _⟩
  split
  next hlt => exact ⟨.of_input (.excess p _ hopen (.inr hlt) (abort_fallen _ hopen)), abort_stays _ _⟩
  split
  next h =>
    have hfall : Fallen false s.core s.resetUnread.markClosed.core :=
      markClosed_fallen (falling_resetUnread hi hopen) (mute_of_isDirect ((resetUnread_isDirect s).trans h.1))
    exact ⟨.of_over (.step (.plainReset s.abortCodes hopen (fun h => h) hfall)) hfall.over _,
      .inr ⟨hfall.state, hfall.over⟩⟩
  split
  next h => exact recvDirect_gets hi h.2.2.2.2 (List.isEmpty_iff.mp h.2.1) p
  · exact recvBuffer_gets hi hst p

theorem processSynPayload_gets (hi : s.Intact) (hst : s.state = .established ∨ s.state = .synReceived)
    (hreceived : s.bytesReceived = 0) (f : Frame) :
    Gets { data := if hasFlag f.flags flagPush then f.payload else [] } s (s.processSynPayload f) := by
  have hrecv : s.Receiving := hst.elim (fun h => .inr (.inl h)) .inl
  unfold processSynPayload
  by_cases h : hasFlag f.flags flagPush ∧ f.payload ≠ [] ∧ (s.state = .established ∨ s.state = .synReceived)
  · rw [if_pos h, if_pos h.1]
    split
    next hlt =>
      refine .of_input (.excess f.payload _ hrecv.ne.2.2 (.inl ?_) (abort_fallen _ hrecv.ne.2.2))
      show (s.grantSent - s.bytesReceived).toNat < f.payload.length
      rw [hreceived, UInt32.sub_zero]
      exact hlt
    · exact (recvCopy_gets hi hrecv f.payload).1
  · have hnil : (if hasFlag f.flags flagPush then f.payload else []) = [] := by
      split
      next hpush =>
        by_contra hne
        exact h ⟨hpush, hne, hst⟩
      · rfl
    rw [hnil, if_neg h]
    exact .of_own (.refl s)

theorem recvWindowInc_gets (hst : s.state ≠ .init ∧ s.state ≠ .synSent ∧ s.state ≠ .closed) (inc : Nat) :
    Gets { credit := inc * windowUnit } s (s.recvWindowInc inc) ∧ Stays s (s.recvWindowInc inc) := by
  unfold recvWindowInc
  dsimp only
  split
  next h => exact ⟨.of_input (.overflow inc _ hst.2.2 h (abort_fallen _ hst.2.2)), abort_stays _ _⟩
  next h =>
    have hcredit : Gets { credit := inc * windowUnit } s { s with sendWindow := s.sendWindow + unitBytes inc } :=
      .of_input (.credit inc hst (Nat.le_of_not_lt h))
    split
    · exact ⟨hcredit, .inl rfl⟩
    split
    · exact ⟨hcredit, .inl rfl⟩
    · exact ⟨hcredit.then_own (.of_core (wake_core _)), .inl (congrArg StreamCore.state (wake_core _))⟩

theorem recvFin_gets (hi : s.Intact) (hst : s.state = .established ∨ s.state = .finWait) :
    Gets { fin := true } s s.recvFin := by
  have hfin : Gets { fin := true } s { s with state := finReceived s.state } := .of_input (.fin hst)
  have hstate : finReceived s.state = .closeWait ∨ finReceived s.state = .closing := by
    rcases hst with h | h <;> simp [h, finReceived]
  have heq : s.recvFin =
      (if s.isDirect ∧ s.userClosed ∧ finReceived s.state = .closing then
        doClose { s with state := finReceived s.state }
      else if ¬ s.isDirect ∧ s.recvbuf.isEmpty then
        (finishDrainedWrite { s with state := finReceived s.state }).2
      else { s with state := finReceived s.state }) := by
    unfold recvFin
    rcases hst with h | h <;> simp only [h, finReceived]
  rw [heq]
  split
  next h => exact hfin.then_own (doClose_own (hfin.intact hi) fun _ => .inl h.2.2)
  split
  next h => exact hfin.then_own (finishDrainedWrite_own hstate (List.isEmpty_iff.mp h.2))
  · exact hfin

theorem recvFin_closing (hst : s.state = .closed ∨ s.state = .closeWait ∨ s.state = .closing) : s.recvFin = s := by
  unfold recvFin
  rcases hst with h | h | h <;> rw [h]

theorem recvRst_fallen (hst : s.state ≠ .closed) : Fallen true s.core s.recvRst.core := by
  have hstart : Falling true s.core ({ s with rstReceived := true } : Stream).core :=
    { id := rfl, bytesSent := rfl, sendWindow := rfl, bytesReceived := rfl, recvWindow := rfl, grantSent := rfl,
      accepted := rfl, delivered := rfl, eofSeen := rfl, abortCodes := rfl, cause := ⟨rfl, rfl⟩,
      frames := .inl ⟨rfl, .inr ⟨.inl rfl, rfl⟩⟩ }
  have hclose : ∀ t : Stream, Falling true s.core t.core → t.Mute →
      Fallen true s.core ({ t.discardStreamFrames with recvbuf := [], bufferedBytes := 0 } : Stream).markClosed.core :=
    fun t ht hm => markClosed_fallen { discardStreamFrames_falling ht with } hm
  unfold recvRst
  dsimp only
  split
  next hd =>
    obtain ⟨hfalling, hdirect, hclosed⟩ := rstNotifyDirect_falling hstart hd hst
    split
    next hc => exact hclosed hc
    next => exact hclose _ hfalling (mute_of_isDirect hdirect)
  next =>
    have hcore := rstNotifySocket_core { s with rstReceived := true }
    rw [if_neg (by rw [show (rstNotifySocket { s with rstReceived := true }).state = s.state from
      congrArg StreamCore.state hcore]; exact hst)]
    refine hclose _ ?_ (rstNotifySocket_mute _)
    rw [hcore]
    exact hstart

/-! ### Frames -/

/-- Grant, payload and FIN of a frame are taken in this order. -/
theorem recvData_gets (hi : s.Intact)
    (hst : s.state = .established ∨ s.state = .finWait ∨ s.state = .closeWait ∨ s.state = .closing) (f : Frame)
    (hpush : hasFlag f.flags flagPush = true → s.state = .established ∨ s.state = .finWait) :
    Gets { credit := if hasFlag f.flags flagAck then f.extra.toNat * windowUnit else 0
           data := if hasFlag f.flags flagPush then f.payload else []
           fin := hasFlag f.flags flagFin && decide (s.state = .established ∨ s.state = .finWait) } s (s.recvData f) := by
  have hopen : s.state ≠ .init ∧ s.state ≠ .synSent ∧ s.state ≠ .closed := by
    rcases hst with h | h | h | h <;> simp [h]
  unfold recvData
  dsimp only
  have hcredit : Gets { credit := if hasFlag f.flags flagAck then f.extra.toNat * windowUnit else 0 } s
        (if hasFlag f.flags flagAck then { s with unackedBytes := 0 }.recvWindowInc f.extra.toNat else s) ∧
      Stays s (if hasFlag f.flags flagAck then { s with unackedBytes := 0 }.recvWindowInc f.extra.toNat else s) := by
    cases hasFlag f.flags flagAck with
    | true => exact recvWindowInc_gets (s := { s with unackedBytes := 0 }) hopen f.extra.toNat
    | false => exact ⟨.of_own (.refl s), .inl rfl⟩
  generalize (if hasFlag f.flags flagAck then { s with unackedBytes := 0 }.recvWindowInc f.extra.toNat else s) = a
    at hcredit ⊢
  obtain ⟨hcredit, ha⟩ := hcredit
  have hai := hcredit.intact hi
  have hkeep : ¬ a.core.Over → a.state = s.state := fun hn => ha.elim (fun h => h) fun h => absurd h.2 hn
  have hdata : Gets { credit := if hasFlag f.flags flagAck then f.extra.toNat * windowUnit else 0
                      data := if hasFlag f.flags flagPush then f.payload else [] } s
        (if hasFlag f.flags flagPush ∧ f.payload ≠ [] then a.recvCopy f.payload else a) ∧
      Stays s (if hasFlag f.flags flagPush ∧ f.payload ≠ [] then a.recvCopy f.payload else a) := by
    by_cases hp : hasFlag f.flags flagPush ∧ f.payload ≠ []
    · rw [if_pos hp, if_pos hp.1]
      have hrecv : ¬ a.core.Over → a.Receiving := fun hn => by
        unfold Receiving
        rw [hkeep hn]
        exact .inr (hpush hp.1)
      have hcopy : a.core.Over → a.recvCopy f.payload = a := fun ho => by
        rw [recvCopy, if_pos (show a.state = .closed from hai.closed_of_over ho)]
      refine ⟨?_, ?_⟩
      · have hboth := hcredit.append (fun ho => by rw [hcopy ho]; exact .refl a)
          fun hn => (recvCopy_gets hai (hrecv hn) f.payload).1
        simpa [Taken.append] using hboth
      · by_cases ho : a.core.Over
        · rw [hcopy ho]
          exact ha
        · exact (recvCopy_gets hai (hrecv ho) f.payload).2.imp (fun h => h.trans (hkeep ho)) fun h => h
    · have hnil : (if hasFlag f.flags flagPush then f.payload else []) = [] := by
        split
        next hpush =>
          by_contra hne
          exact hp ⟨hpush, hne⟩
        · rfl
      rw [if_neg hp, hnil]
      exact ⟨hcredit, ha⟩
  generalize (if hasFlag f.flags flagPush ∧ f.payload ≠ [] then a.recvCopy f.payload else a) = b at hdata ⊢
  obtain ⟨hdata, hb⟩ := hdata
  have hbi := hdata.intact hi
  cases hfin : hasFlag f.flags flagFin with
  | false => exact hdata
  | true =>
    have hclosed : b.core.Over → b.recvFin = b := fun ho => recvFin_closing (.inl (hbi.closed_of_over ho))
    have hbst : ¬ b.core.Over → b.state = s.state := fun hn => hb.elim (fun h => h) fun h => absurd h.2 hn
    by_cases hfirst : s.state = .established ∨ s.state = .finWait
    · have hboth := hdata.append (fun ho => by rw [hclosed ho]; exact .refl b)
        fun hn => recvFin_gets hbi (by rw [hbst hn]; exact hfirst)
      simpa [Taken.append, hfirst] using hboth
    · have hsame : b.recvFin = b := by
        by_cases ho : b.core.Over
        · exact hclosed ho
        · refine recvFin_closing (.inr ?_)
          rw [hbst ho]
          tauto
      simp only [hfirst, decide_false, Bool.and_false, if_true, hsame]
      exact hdata

/-- A SYN|ACK opens the stream, and its payload is taken as any other. -/
theorem recvSynAck_gets (hi : s.Intact) (ho : s.core.Opening) (hst : s.state = .synSent) (f : Frame) :
    Gets { credit := f.extra.toNat * windowUnit
           data := if hasFlag f.flags flagPush then f.payload else []
           opened := true } s (s.recvSynAck f) := by
  obtain ⟨hwindow, hreceived, hsent⟩ := ho.initial (.inr hst)
  have hextra : f.extra.toNat ≤ 65535 := Nat.le_of_lt_succ f.extra.toNat_lt
  have hcredit : s.creditAvail ≤ defaultSendWindow := by
    show (s.core.sendWindow - s.core.bytesSent).toNat ≤ defaultSendWindow
    rw [hwindow, UInt32.toNat_sub_of_le _ _ (UInt32.le_iff_toNat_le.mpr hsent)]
    exact Nat.sub_le _ _
  have hfits : s.creditAvail + f.extra.toNat * windowUnit ≤ maxCredit := by
    unfold defaultSendWindow at hcredit
    unfold windowUnit maxCredit
    omega
  -- the state moves on before the credit is counted, which makes no difference
  have hstart : Gets { opened := true } s { s with state := .established } := .of_input (.start hst)
  have hgrant : Gets { credit := f.extra.toNat * windowUnit } { s with state := .established }
      { s with state := .established, sendWindow := s.sendWindow + unitBytes f.extra.toNat } :=
    .of_input (.credit f.extra.toNat ⟨(fun h => by cases h), (fun h => by cases h), (fun h => by cases h)⟩ hfits)
  have hopen : ∀ t : Stream, t.core = { s.core with
      state := .established, sendWindow := s.sendWindow + unitBytes f.extra.toNat } →
      Gets { credit := f.extra.toNat * windowUnit, opened := true } s t := by
    intro t ht
    have hboth := (hstart.append (fun h => absurd ((hstart.intact hi).closed_of_over h) fun h => by cases h)
      fun _ => hgrant).then_own (.of_core ht)
    simpa [Taken.append] using hboth
  unfold recvSynAck
  rw [if_neg (show ¬ s.state ≠ .synSent from fun h => h hst)]
  have hcore : (start (recvWindowInc { s with unackedBytes := 0 } f.extra.toNat)).core = { s.core with
      state := .established, sendWindow := s.sendWindow + unitBytes f.extra.toNat } := by
    have hinc : (recvWindowInc { s with unackedBytes := 0 } f.extra.toNat).core =
        { s.core with sendWindow := s.sendWindow + unitBytes f.extra.toNat } := by
      unfold recvWindowInc
      dsimp only
      have hno : ¬ maxCredit < creditAvail { s with unackedBytes := 0 } + f.extra.toNat * windowUnit :=
        Nat.not_lt.mpr hfits
      rw [if_neg hno]
      split
      · rfl
      split
      · rfl
      · exact wake_core _
    generalize recvWindowInc { s with unackedBytes := 0 } f.extra.toNat = t at hinc ⊢
    have hstate : ({ t with state := .established } : Stream).core = { s.core with
        state := .established, sendWindow := s.sendWindow + unitBytes f.extra.toNat } :=
      congrArg (fun c : StreamCore => { c with state := .established }) hinc
    unfold start
    dsimp only
    split
    · exact (wake_core _).trans hstate
    · exact hstate
  generalize start (recvWindowInc { s with unackedBytes := 0 } f.extra.toNat) = t at hcore ⊢
  have hgot := hopen t hcore
  have hti := hgot.intact hi
  have htst : t.state = .established := congrArg StreamCore.state hcore
  have hreceived' : t.bytesReceived = 0 := (congrArg StreamCore.bytesReceived hcore).trans hreceived
  have hboth := hgot.append (fun h => absurd ((hti.closed_of_over h).symm.trans htst) fun h => by cases h)
    fun _ => processSynPayload_gets hti (.inl htst) hreceived' f
  simpa [Taken.append] using hboth

theorem sendRst_late (hst : s.state = .closed) :
    Own s (s.sendRst .protocolError) ∨ Input { bad := !s.aborted } s.core (s.sendRst .protocolError).core := by
  unfold sendRst
  split
  · exact .inl (.refl s)
  next hrst =>
  obtain ⟨ok, allocs, hget⟩ := s.frameGet_eq
  rw [sendCtrl, hget]
  cases ok with
  | false =>
    refine .inl (.of_core ?_)
    simp only [core, Bool.eq_false_iff.mpr hrst]
    rfl
  | true => exact .inr (Input.late (c := s.core) hst (Bool.eq_false_iff.mpr hrst))

theorem sendRst_recvRst (hi : s.Intact) (hst : s.state ≠ .closed) :
    Input { bad := true } s.core (s.sendRst .protocolError).recvRst.core := by
  have hrst : s.rstSent = false := (hi.unreset hst).2.2
  obtain ⟨ok, allocs, hget⟩ := s.frameGet_eq
  have hsent : (s.sendRst .protocolError).core = { s.core with
      rstSent := ok
      egress := s.egress ++
        if ok then [Session.ctrlFrame s.id flagRst MuxStatus.protocolError.code.toNat] else [] } := by
    rw [sendRst, if_neg (Bool.eq_false_iff.mp hrst), sendCtrl, hget]
    cases ok with
    | false => simp [core]
    | true => rfl
  have hfall := recvRst_fallen (s := s.sendRst .protocolError) (by rw [(sendRst_keeps s _).2]; exact hst)
  rw [hsent] at hfall
  exact .invalid ok hst hfall

/-- The flags `validate_flags_by_stream` looks at. -/
theorem masked_and (flags flag : UInt8) (h : flagMask &&& (~~~ flagRst &&& flag) = flag) :
    ((flags &&& flagMask) &&& ~~~ flagRst) &&& flag = flags &&& flag := by
  rw [UInt8.and_assoc, UInt8.and_assoc, h]

theorem validateFlags_noSyn {st : StreamState} {flags : UInt8} (h : validateFlagsByStream st (flags &&& flagMask) = true)
    (hsyn : hasFlag flags flagSyn = false) :
    (st = .established ∨ st = .finWait ∨ st = .closeWait ∨ st = .closing) ∧
      (hasFlag flags flagPush = true → st = .established ∨ st = .finWait) := by
  have hclear : flags &&& flagSyn = 0 := by simpa [hasFlag] using hsyn
  have hsynMask := masked_and flags flagSyn (by decide)
  have hpushMask := masked_and flags flagPush (by decide)
  unfold validateFlagsByStream at h
  dsimp only at h
  generalize (flags &&& flagMask) &&& ~~~ flagRst = y at h hsynMask hpushMask
  cases st with
  | synSent =>
    have hboth : y &&& (flagSyn ||| flagAck) = flagSyn ||| flagAck := eq_of_beq (Bool.and_eq_true_iff.mp h).1
    have hy : y &&& flagSyn = flagSyn := by
      calc y &&& flagSyn = y &&& ((flagSyn ||| flagAck) &&& flagSyn) := by rw [show (flagSyn ||| flagAck) &&& flagSyn = flagSyn by decide]
        _ = flagSyn := by
          rw [← UInt8.and_assoc, hboth]
          decide
    rw [hsynMask, hclear] at hy
    exact absurd hy (by decide)
  | established => exact ⟨.inl rfl, fun _ => .inl rfl⟩
  | finWait => exact ⟨.inr (.inl rfl), fun _ => .inr rfl⟩
  | closeWait | closing =>
    refine ⟨by simp, fun hpush => ?_⟩
    have hnosyn : hasFlag y flagSyn = false := by
      rw [hasFlag, hsynMask, hclear]
      decide
    dsimp only at h
    rw [hnosyn] at h
    have hrest : y &&& ~~~ (flagAck ||| flagFin) = 0 := by
      split at h
      · exact absurd h (by decide)
      · simpa only [Bool.false_eq_true, if_false, hasFlag, Bool.not_eq_true', bne_eq_false_iff_eq] using h
    have hy : y &&& flagPush = 0 := by
      calc y &&& flagPush = y &&& (~~~ (flagAck ||| flagFin) &&& flagPush) := by
            rw [show ~~~ (flagAck ||| flagFin) &&& flagPush = flagPush by decide]
        _ = 0 := by
          rw [← UInt8.and_assoc, hrest]
          decide
    rw [hasFlag, ← hpushMask, hy] at hpush
    exact absurd hpush (by decide)
  | init | synReceived | closed => exact absurd h Bool.false_ne_true

theorem dispatchByStream_closed (hst : s.state = .closed) (f : Frame) :
    Own s (s.dispatchByStream f) ∨ Input { bad := !s.aborted } s.core (s.dispatchByStream f).core := by
  unfold dispatchByStream
  rw [if_pos hst]
  split
  · exact .inl (.refl s)
  split
  · exact .inl (.refl s)
  · exact sendRst_late hst

/-- Any frame at all makes a sequence of moves. -/
theorem dispatchByStream_steps (hi : s.Intact) (ho : s.core.Opening) (f : Frame) :
    ∃ t, Moves t s.core (s.dispatchByStream f).core := by
  have hof : ∀ {u : Taken} {s' : Stream}, Gets u s s' → ∃ t, Moves t s.core s'.core :=
    fun ⟨t, h, _⟩ => ⟨t, h⟩
  by_cases hst : s.state = .closed
  · rcases dispatchByStream_closed hst f with h | h
    · exact ⟨_, h⟩
    · exact ⟨_, .take h⟩
  unfold dispatchByStream
  rw [if_neg hst]
  split
  · exact ⟨_, .take (.rst hst (recvRst_fallen hst))⟩
  split
  · exact ⟨_, .take (sendRst_recvRst hi hst)⟩
  next hvalid =>
  rw [Classical.not_not] at hvalid
  split
  · by_cases hsyn : s.state = .synSent
    · exact hof (recvSynAck_gets hi ho hsyn f)
    · rw [recvSynAck, if_pos hsyn]
      exact ⟨_, .refl _⟩
  next hnosyn =>
    obtain ⟨hopen, hpush⟩ := validateFlags_noSyn hvalid (Bool.eq_false_iff.mpr hnosyn)
    exact hof (recvData_gets hi hopen f hpush)

/-- A frame of an open stream has the flags its parts give it. -/
theorem carries_cases {f : Frame} (h : f.Carries) :
    f.flags ∈ [flagFin, flagAck, flagAck ||| flagFin] ∧ f.payload = [] ∨
      f.flags ∈ [flagPush, flagPush ||| flagFin, flagPush ||| flagAck, flagPush ||| flagAck ||| flagFin] ∧
        f.payload ≠ [] := by
  obtain ⟨hne, hflags, hpush⟩ := h
  cases hp : hasFlag f.flags flagPush with
  | false =>
    rw [hp] at hflags hpush
    refine .inl ⟨?_, by simpa using hpush.symm⟩
    cases ha : hasFlag f.flags flagAck <;> cases hf : hasFlag f.flags flagFin <;> rw [ha, hf] at hflags <;>
      rw [hflags] at hne ⊢
    · exact absurd rfl hne
    all_goals decide
  | true =>
    rw [hp] at hflags hpush
    refine .inr ⟨?_, by simpa using hpush.symm⟩
    cases ha : hasFlag f.flags flagAck <;> cases hf : hasFlag f.flags flagFin <;> rw [ha, hf] at hflags <;>
      rw [hflags] <;> decide

theorem carries_flags {f : Frame} (h : f.Carries) :
    hasFlag f.flags flagRst = false ∧ hasFlag f.flags flagSyn = false ∧
      validateFlagsByStream .established (f.flags &&& flagMask) = true := by
  rcases carries_cases h with ⟨hflags, -⟩ | ⟨hflags, -⟩ <;>
    simp only [List.mem_cons, List.not_mem_nil, or_false] at hflags
  · rcases hflags with hflags | hflags | hflags <;> rw [hflags] <;> decide
  · rcases hflags with hflags | hflags | hflags | hflags <;> rw [hflags] <;> decide

theorem dispatchByStream_data {f : Frame} (hst : s.state ≠ .closed) (hrst : hasFlag f.flags flagRst = false)
    (hvalid : validateFlagsByStream s.state (f.flags &&& flagMask) = true)
    (hsyn : hasFlag f.flags flagSyn = false) : s.dispatchByStream f = s.recvData f := by
  rw [dispatchByStream, if_neg hst, if_neg (Bool.eq_false_iff.mp hrst), if_neg (not_not_intro hvalid),
    if_neg (Bool.eq_false_iff.mp hsyn)]

theorem taken_data {f : Frame} (hrst : hasFlag f.flags flagRst = false) (hsyn : hasFlag f.flags flagSyn = false)
    (hpush : hasFlag f.flags flagPush = !f.payload.isEmpty) : f.taken =
      { credit := if hasFlag f.flags flagAck then f.extra.toNat * windowUnit else 0
        data := if hasFlag f.flags flagPush then f.payload else []
        fin := hasFlag f.flags flagFin } := by
  have hdata : (if hasFlag f.flags flagPush then f.payload else []) = f.payload := by
    cases hp : f.payload <;> simp [hpush, hp]
  rw [Frame.taken, if_neg (Bool.eq_false_iff.mp hrst), hdata, hsyn, Bool.or_false]

/-- A legal frame is taken as a whole, unless the end is reset on the way. -/
theorem dispatchByStream_fits (hi : s.Intact) (ho : s.core.Opening) (hst : s.state ≠ .closed) {f : Frame}
    (hfit : f.Fits s.state) : Gets f.taken s (s.dispatchByStream f) := by
  rcases hfit with hrst | hfit
  · rw [dispatchByStream, if_neg hst, if_pos hrst, Frame.taken, if_pos hrst]
    exact .of_input (.rst hst (recvRst_fallen hst))
  cases hs : s.state with
  | synSent =>
    rw [hs] at hfit
    obtain ⟨hflags, hpayload⟩ := hfit
    have hgets := recvSynAck_gets hi ho hs f
    have htaken : f.taken = { credit := f.extra.toNat * windowUnit, opened := true } := by
      rw [Frame.taken, hflags, hpayload]
      rfl
    rw [hflags, if_neg (by decide)] at hgets
    rw [htaken, dispatchByStream, if_neg hst, hflags, if_neg (by decide), hs, if_neg (by decide), if_pos (by decide)]
    exact hgets
  | established | finWait =>
    rw [hs] at hfit
    obtain ⟨hrst, hsyn, hvalid⟩ := carries_flags hfit
    have hgets := recvData_gets hi (by simp [hs]) f (fun _ => by simp [hs])
    rw [dispatchByStream_data hst hrst (by rw [hs]; exact hvalid) hsyn, taken_data hrst hsyn hfit.2.2]
    simpa [hs] using hgets
  | closeWait | closing =>
    rw [hs] at hfit
    obtain ⟨hflags, hpayload⟩ := hfit
    have hgets := recvData_gets hi (by simp [hs]) f (fun hpush => absurd hpush (by rw [hflags]; decide))
    rw [dispatchByStream_data hst (by rw [hflags]; decide) (by rw [hs, hflags]; decide) (by rw [hflags]; decide),
      taken_data (by rw [hflags]; decide) (by rw [hflags]; decide) (by rw [hflags, hpayload]; decide)]
    have hfin : hasFlag f.flags flagFin = false := by
      rw [hflags]
      decide
    rw [hfin] at hgets ⊢
    exact hgets
  | closed => exact absurd hs hst
  | init | synReceived =>
    rw [hs] at hfit
    exact hfit.elim

/-- A closed end ignores the frames that are legal for it. -/
theorem dispatchByStream_ignores (hst : s.state = .closed) {f : Frame} (hfit : f.Fits .closed) :
    s.dispatchByStream f = s := by
  rw [dispatchByStream, if_pos hst]
  rcases hfit with hrst | ⟨hflags, hpayload⟩
  · rw [if_pos hrst]
  · have hignore : isIgnorableTerminalFrame f = true := by
      unfold isIgnorableTerminalFrame
      rw [hflags, hpayload]
      decide
    rw [hflags, if_neg (by decide), if_pos hignore]

theorem newAccepted_intact (id : UInt16) (conf : StreamConf) (window : Nat) (auto : Bool) (i : StreamInputs)
    (f : Frame) : (newAccepted id conf window auto i f).Intact :=
  ⟨fun _ => ⟨rfl, rfl, rfl⟩, nofun⟩

theorem Own.bytesReceived (h : Own s s') : s'.bytesReceived = s.bytesReceived := by
  obtain ⟨n, hn, heq⟩ := Moves.bytesReceived h
  obtain rfl : n = 0 := Nat.le_zero.mp hn
  exact heq.trans (UInt32.add_zero _)

theorem Own.recvbuf_nil (h : Own s s') (hs : s.recvbuf = []) : s'.recvbuf = [] := by
  have hle := Moves.recvbuf_length h
  rw [show s.core.recvbuf = [] from hs] at hle
  exact List.length_eq_zero_iff.mp (Nat.le_zero.mp hle)

/-- `on_accept` rejects a stream, or one that has been reset under its hands. -/
theorem reject_cases (hbuf : s.recvbuf = []) :
    s.state ≠ .closed ∧ Own s s.reject ∨
      s.state = .closed ∧ ∃ sent : Bool, s.reject.core = { s.core with
        aborted := true
        rstSent := sent
        egress := s.egress ++
          if sent then [Session.ctrlFrame s.id flagRst MuxStatus.refusedStream.code.toNat] else [] } := by
  obtain ⟨ok, allocs, hget⟩ := s.frameGet_eq
  have heq : ∃ t : Stream, s.reject = t.doClose ∧ t.core = { s.core with
      aborted := true
      rstSent := ok
      egress := s.egress ++
        if ok then [Session.ctrlFrame s.id flagRst MuxStatus.refusedStream.code.toNat] else [] } := by
    unfold reject
    rw [sendCtrl, hget]
    cases ok with
    | true => exact ⟨_, rfl, rfl⟩
    | false => exact ⟨_, rfl, by simp [core]⟩
  obtain ⟨t, heq, ht⟩ := heq
  have htst : t.state = s.state := congrArg StreamCore.state ht
  have htbuf : t.recvbuf.isEmpty = true := List.isEmpty_iff.mpr ((congrArg StreamCore.recvbuf ht).trans hbuf)
  rw [heq, doClose, htst]
  by_cases hst : s.state = .closed
  · rw [if_pos hst]
    exact .inr ⟨hst, ok, ht⟩
  · rw [if_neg hst, if_pos htbuf]
    refine .inl ⟨hst, .of_step (.reject ok (t.eofSeen || (t.fd && !t.isDirect && !t.linger)) hst hbuf) ?_⟩
    rw [markClosed_core, ht]
    rfl

/-- Once created, a stream makes moves only, whatever `on_accept` does with it. -/
theorem processSynPayload_steps (hi : s.Intact) (hreceived : s.bytesReceived = 0) (f : Frame) :
    ∃ t, Moves t s.core (s.processSynPayload f).core := by
  by_cases hst : s.state = .established ∨ s.state = .synReceived
  · obtain ⟨t, h, -⟩ := processSynPayload_gets hi hst hreceived f
    exact ⟨t, h⟩
  · rw [processSynPayload, if_neg fun h => hst h.2.2]
    exact ⟨_, .refl _⟩

end Stream

end Multiplexd
