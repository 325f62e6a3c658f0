import Multiplexd.Mux.Log

/-!
# Logging what was written, and what is left over

The specifications of the functions that move frames into the log: `mux_unacked_track_sent` for a
written entry, and `session_capture_frame_list` for the entries a lost transport leaves behind. Either
the frames are logged, or memory runs out and the session is closed.
-/

namespace Multiplexd

namespace MuxFrame

def startsHello (f : MuxFrame) : Bool :=
  match f.items with
  | [] => false
  | first :: _ => first.isHello

def kept (f : MuxFrame) : List Item := if f.startsHello then [] else f.items.filter Item.tracked

theorem kept_tracked (f : MuxFrame) : ∀ i ∈ f.kept, i.tracked := by
  intro i hi
  unfold kept at hi
  split at hi
  · cases hi
  · exact (List.mem_filter.mp hi).2

theorem kept_subset (f : MuxFrame) : ∀ i ∈ f.kept, i ∈ f.items := by
  intro i hi
  unfold kept at hi
  split at hi
  · cases hi
  · exact (List.mem_filter.mp hi).1

end MuxFrame

/-- The frames of the entries of a list that are logged when the transport is lost; the replay copy is
in the log already. -/
def captureItems (copy : Bool) (fs : List MuxFrame) : List Item :=
  fs.flatMap fun f => if copy && f.isCopy then [] else f.kept

@[simp] theorem captureItems_nil (copy : Bool) : captureItems copy [] = [] := rfl

@[simp] theorem captureItems_cons (copy : Bool) (f : MuxFrame) (fs : List MuxFrame) :
    captureItems copy (f :: fs) = (if copy && f.isCopy then [] else f.kept) ++ captureItems copy fs := by
  simp [captureItems]

theorem captureItems_subset {copy : Bool} {fs : List MuxFrame} {i : Item} (hi : i ∈ captureItems copy fs) :
    ∃ f ∈ fs, i ∈ f.kept := by
  obtain ⟨f, hf, hif⟩ := List.mem_flatMap.mp hi
  split at hif
  · cases hif
  · exact ⟨f, hf, hif⟩

namespace Session

def withState (ss : Session) (st : SessionState) (events : List Note) (peerKnown : Bool) : Session :=
  { ss with state := st, events := events, peerKnown := peerKnown }

theorem setState_eq (ss : Session) (st : SessionState) :
    ∃ events peerKnown, ss.setState st = ss.withState st events peerKnown := by
  refine ⟨(ss.setState st).events, (ss.setState st).peerKnown, ?_⟩
  unfold setState withState
  dsimp only
  by_cases h : ss.state = st
  · subst h
    simp only [if_true]
  · simp only [h, if_false]
    split
    · rfl
    split
    · split <;> rfl
    split
    · rfl
    split <;> rfl

def withAllocs (ss : Session) (allocs : List Bool) : Session := { ss with allocs := allocs }

theorem frameGet_eq (ss : Session) : ∃ ok allocs, ss.frameGet = (ok, ss.withAllocs allocs) := by
  unfold frameGet
  split
  · exact ⟨true, ss.allocs, rfl⟩
  · exact ⟨_, _, rfl⟩

/-- `ss'` is `ss` closed. -/
def ClosedTo (ss ss' : Session) : Prop :=
  ∃ events peerKnown allocs,
    ss' = { ss.closedForm with events := events, peerKnown := peerKnown, allocs := allocs }

theorem reset_closedTo {s : Session} (h : s.state ≠ .closed) : s.ClosedTo s.reset := by
  refine ⟨s.reset.events, s.reset.peerKnown, s.allocs, ?_⟩
  obtain ⟨events, peerKnown, hset⟩ := s.setState_eq .closed
  unfold reset
  rw [if_neg h, hset]
  cases ha : s.accepted <;>
    simp [withState, cleanup, freeStreams, discardBuffers, unackedFreeAll, closedForm, ha]

variable {ss ss' ss'' : Session} {items : List Item}

theorem ClosedTo.state (h : ss.ClosedTo ss') : ss'.state = .closed := by
  obtain ⟨_, _, _, rfl⟩ := h
  rfl

/-- `ss'` is `ss` with `items` logged. -/
def Logs (ss : Session) (items : List Item) (ss' : Session) : Prop :=
  ∃ (entries : List MuxFrame) (stalled : Bool) (allocs : List Bool),
    (∀ f ∈ entries, f.items ≠ [] ∧ (∀ i ∈ f.items, i.tracked) ∧ f.unackedCount = f.items.length) ∧
    entries.flatMap MuxFrame.items = items ∧
    ss' = { ss with
      ring := ss.ring ++ entries, frames := ss.frames + items.length
      bytes := ss.bytes + itemsPayload items, logged := ss.logged ++ items
      stalled := stalled, allocs := allocs }

theorem Logs.refl (ss : Session) (allocs : List Bool) : ss.Logs [] { ss with allocs := allocs } :=
  ⟨[], ss.stalled, allocs, by simp, rfl, by simp⟩

theorem Logs.trans {items' : List Item} (h : ss.Logs items ss')
    (h' : ss'.Logs items' ss'') : ss.Logs (items ++ items') ss'' := by
  obtain ⟨entries, _, _, hentries, hitems, rfl⟩ := h
  obtain ⟨entries', stalled, allocs, hentries', hitems', rfl⟩ := h'
  refine ⟨entries ++ entries', stalled, allocs, ?_, by simp [hitems, hitems'], by simp [Nat.add_assoc]⟩
  intro f hf
  rcases List.mem_append.mp hf with hf | hf
  · exact hentries f hf
  · exact hentries' f hf

theorem Logs.closedTo (h : ss.Logs items ss') (h' : ss'.ClosedTo ss'') : ss.ClosedTo ss'' := by
  obtain ⟨_, _, _, _, _, rfl⟩ := h
  exact h'

theorem Logs.map (h : ss.Logs items ss') {u : Session → Session}
    (hu : ∀ ss ring frames bytes logged stalled allocs,
      u { ss with
          ring := ring, frames := frames, bytes := bytes, logged := logged, stalled := stalled
          allocs := allocs } =
        { u ss with
          ring := ring, frames := frames, bytes := bytes, logged := logged, stalled := stalled
          allocs := allocs })
    (hlog : ∀ ss, (u ss).ring = ss.ring ∧ (u ss).frames = ss.frames ∧ (u ss).bytes = ss.bytes ∧
      (u ss).logged = ss.logged) : (u ss).Logs items (u ss') := by
  obtain ⟨entries, stalled, allocs, hentries, hitems, rfl⟩ := h
  obtain ⟨hring, hframes, hbytes, hlogged⟩ := hlog ss
  exact ⟨entries, stalled, allocs, hentries, hitems, by rw [hu, hring, hframes, hbytes, hlogged]⟩

theorem Logs.discardBuffers (h : ss.Logs items ss') : ss.discardBuffers.Logs items ss'.discardBuffers :=
  h.map (fun _ _ _ _ _ _ _ => rfl) fun _ => ⟨rfl, rfl, rfl, rfl⟩

theorem Logs.fields (h : ss.Logs items ss') :
    ss'.state = ss.state ∧ ss'.events = ss.events ∧ ss'.peerKnown = ss.peerKnown ∧
      ss'.sendbuf = ss.sendbuf ∧ ss'.oobbuf = ss.oobbuf ∧ ss'.sendbufStaging = ss.sendbufStaging ∧
      ss'.retransmitCopy = ss.retransmitCopy := by
  obtain ⟨_, _, _, _, _, rfl⟩ := h
  exact ⟨rfl, rfl, rfl, rfl, rfl, rfl, rfl⟩

theorem unackedPush_spec (ss : Session) (f : MuxFrame) (hst : ss.state ≠ .closed) (hne : f.items ≠ [])
    (htracked : ∀ i ∈ f.items, i.tracked) : ss.Logs f.items (ss.unackedPush f f.items.length) ∨
      ss.ClosedTo (ss.unackedPush f f.items.length) := by
  have hpay : f.payloadBytes = itemsPayload f.items := rfl
  have hlogs (allocs : List Bool) (stalled : Bool) : ss.Logs f.items { ss with
      ring := ss.ring ++ [{ f with pos := 0, unackedCount := f.items.length, isCopy := false }]
      frames := ss.frames + f.items.length, bytes := ss.bytes + f.payloadBytes
      logged := ss.logged ++ f.items, stalled := stalled, allocs := allocs } :=
    ⟨[{ f with pos := 0, unackedCount := f.items.length, isCopy := false }], stalled, allocs,
      by simpa using ⟨hne, htracked⟩, by simp, by simp [hpay]⟩
  obtain ⟨ok, allocs, hget⟩ := ss.frameGet_eq
  rw [unackedPush, hget]
  cases ok with
  | false => exact .inr (reset_closedTo (s := ss.withAllocs allocs) hst)
  | true =>
    simp only [Bool.not_true, Bool.false_eq_true, if_false]
    split
    · exact .inl (hlogs allocs true)
    · exact .inl (hlogs allocs ss.stalled)

/-- `mux_unacked_track_sent` of anything but the replay copy. -/
theorem trackSent_spec (ss : Session) (f : MuxFrame) (hst : ss.state ≠ .closed)
    (hcopy : (ss.retransmitCopy && f.isCopy) = false) :
    ss.Logs f.kept (ss.trackSent f) ∨ ss.ClosedTo (ss.trackSent f) := by
  unfold trackSent
  split
  case h_1 hitems =>
    have : f.kept = [] := by simp [MuxFrame.kept, hitems]
    rw [this]
    exact .inl (.refl ss ss.allocs)
  case h_2 first rest hitems =>
    by_cases hhello : first.isHello = true
    · have : f.kept = [] := by simp [MuxFrame.kept, MuxFrame.startsHello, hitems, hhello]
      rw [if_pos hhello, this]
      exact .inl (.refl ss ss.allocs)
    · have hkept : f.kept = f.items.filter Item.tracked := by
        simp [MuxFrame.kept, MuxFrame.startsHello, hitems, hhello]
      rw [if_neg hhello, hcopy]
      simp only [Bool.false_eq_true, if_false]
      rw [← hkept]
      split
      case isTrue hempty =>
        rw [List.isEmpty_iff.mp hempty]
        exact .inl (.refl ss ss.allocs)
      case isFalse hne =>
        exact unackedPush_spec ss { f with items := f.kept } hst
          (fun h => hne (List.isEmpty_iff.mpr h)) f.kept_tracked

theorem captureFrameList_closed (ss : Session) (fs : List MuxFrame) (h : ss.state = .closed) :
    ss.captureFrameList fs = ss := by
  induction fs with
  | nil => rfl
  | cons f fs ih => simpa [captureFrameList, h] using ih

/-- `session_capture_frame_list`. -/
theorem captureFrameList_spec (ss : Session) (fs : List MuxFrame) (hst : ss.state ≠ .closed) :
    ss.Logs (captureItems ss.retransmitCopy fs) (ss.captureFrameList fs) ∨
      ss.ClosedTo (ss.captureFrameList fs) := by
  induction fs generalizing ss with
  | nil => exact .inl (.refl ss ss.allocs)
  | cons f fs ih =>
    by_cases hcopy : (ss.retransmitCopy && f.isCopy) = true
    · have hskip : ss.captureFrameList (f :: fs) = ss.captureFrameList fs := by
        simp only [captureFrameList, List.foldl_cons, hcopy, or_true, if_true]
      rw [hskip, captureItems_cons, if_pos hcopy, List.nil_append]
      exact ih ss hst
    · have hstep : ss.captureFrameList (f :: fs) = (ss.trackSent f).captureFrameList fs := by
        simp only [captureFrameList, List.foldl_cons, hst, hcopy, Bool.false_eq_true, or_self, if_false]
      rw [hstep, captureItems_cons, if_neg hcopy]
      rcases trackSent_spec ss f hst (by simpa using hcopy) with hlogs | hclosed
      · obtain ⟨hstate, hrc⟩ : (ss.trackSent f).state = ss.state ∧
            (ss.trackSent f).retransmitCopy = ss.retransmitCopy := by
          obtain ⟨_, _, _, _, _, heq⟩ := hlogs
          rw [heq]
          exact ⟨rfl, rfl⟩
        rcases ih (ss.trackSent f) (hstate ▸ hst) with hrest | hclosed
        · exact .inl (hlogs.trans (hrc ▸ hrest))
        · exact .inr (hlogs.closedTo hclosed)
      · rw [captureFrameList_closed _ _ hclosed.state]
        exact .inr hclosed

theorem captureSendbuf_spec (ss : Session) (hst : ss.state ≠ .closed) :
    ss.clearSendbuf.Logs (captureItems ss.retransmitCopy ss.sendbuf) ss.captureSendbuf ∨
      ss.ClosedTo ss.captureSendbuf :=
  captureFrameList_spec ss.clearSendbuf ss.sendbuf hst

theorem captureOobbuf_spec (ss : Session) (hst : ss.state ≠ .closed) :
    ss.clearOobbuf.Logs (captureItems ss.retransmitCopy ss.oobbuf) ss.captureOobbuf ∨
      ss.ClosedTo ss.captureOobbuf :=
  captureFrameList_spec ss.clearOobbuf ss.oobbuf hst

theorem ClosedTo.captureOobbuf (h : ss.ClosedTo ss') : ss'.captureOobbuf = ss' := by
  obtain ⟨_, _, _, rfl⟩ := h
  rfl

theorem ClosedTo.discardBuffers (h : ss.ClosedTo ss') : ss'.discardBuffers = ss' := by
  obtain ⟨_, _, _, rfl⟩ := h
  rfl

theorem ClosedTo.dropStaging (h : ss.ClosedTo ss') : ss'.dropStaging = ss' := by
  obtain ⟨_, _, _, rfl⟩ := h
  rfl

theorem ClosedTo.dropDgrams (h : ss.ClosedTo ss') : ss'.dropDgrams = ss' := by
  obtain ⟨_, _, _, rfl⟩ := h
  rfl

/-- `session_capture_and_discard`. -/
theorem captureAndDiscard_spec (ss : Session) (hst : ss.state ≠ .closed) : ss.discardBuffers.Logs
        (captureItems ss.retransmitCopy ss.sendbuf ++ captureItems ss.retransmitCopy ss.oobbuf)
        ss.captureAndDiscard ∨
      ss.ClosedTo ss.captureAndDiscard := by
  unfold captureAndDiscard
  rcases captureSendbuf_spec ss hst with hlogs | hclosed
  · obtain ⟨hstate, -, -, -, hbuf, -, hcopy⟩ := hlogs.fields
    rcases captureOobbuf_spec ss.captureSendbuf (hstate ▸ hst) with hoob | hclosed
    · have hitems : captureItems ss.captureSendbuf.retransmitCopy ss.captureSendbuf.oobbuf
          = captureItems ss.retransmitCopy ss.oobbuf := by
        rw [hcopy, hbuf]
        rfl
      rw [hitems] at hoob
      exact .inl (hlogs.discardBuffers.trans hoob.discardBuffers)
    · rw [hclosed.discardBuffers]
      exact .inr (hlogs.closedTo hclosed)
  · rw [hclosed.captureOobbuf, hclosed.discardBuffers]
    exact .inr hclosed

def detached (ss : Session) (st : SessionState) (events : List Note) (peerKnown : Bool) : Session :=
  { ss.discardBuffers with
    state := st, retransmitCopy := false, rxOpen := true, txPending := false
    events := events, peerKnown := peerKnown }

theorem Logs.detached (h : ss.Logs items ss') (st : SessionState) (events : List Note) (peerKnown : Bool) :
    (ss.detached st events peerKnown).Logs items (ss'.detached st events peerKnown) :=
  h.map (u := fun ss => ss.detached st events peerKnown) (fun _ _ _ _ _ _ _ => rfl)
    fun _ => ⟨rfl, rfl, rfl, rfl⟩

theorem detached_clearSendbuf (ss : Session) (st : SessionState) (events : List Note)
    (peerKnown : Bool) :
    ss.clearSendbuf.detached st events peerKnown = ss.detached st events peerKnown := rfl

theorem detached_dropStaging_clearOobbuf (ss : Session) (st : SessionState) (events : List Note)
    (peerKnown : Bool) :
    ss.dropStaging.clearOobbuf.detached st events peerKnown = ss.detached st events peerKnown := rfl

theorem detached_eq {e : MuxEvent} (hbuf : ss.sendbuf = []) (hoob : ss.oobbuf = [])
    (hstaging : ss.sendbufStaging = false) (hcopy : ss.retransmitCopy = false) :
    ss.dropDgrams.rewindReplay.stopIo.emit e =
      (ss.detached ss.state (ss.events ++ [.told e]) ss.peerKnown).rewindReplay := by
  cases ss
  simp only at hbuf hoob hstaging hcopy
  subst hbuf hoob hstaging hcopy
  rfl

theorem suspendDetach_spec (ss : Session) (attempt : Bool) (hst : ss.state ≠ .closed) :
    (∃ events ss1, (ss.detached ss.state events ss.peerKnown).Logs
        (captureItems ss.retransmitCopy ss.sendbuf ++ captureItems false ss.oobbuf) ss1 ∧
      ss.suspendDetach attempt = ss1.rewindReplay) ∨ ss.ClosedTo (ss.suspendDetach attempt) := by
  unfold suspendDetach
  generalize (if attempt = true then MuxEvent.connectFailed else MuxEvent.suspended) = e
  rcases captureSendbuf_spec ss hst with hlogs | hclosed
  · obtain ⟨hstate, hev, hpk, hsend, hbuf, -, -⟩ := hlogs.fields
    rcases captureOobbuf_spec ss.captureSendbuf.dropStaging (hstate ▸ hst) with hoob | hclosed
    · left
      have hopen : ss.captureSendbuf.dropStaging.captureOobbuf.dropDgrams.state ≠ .closed :=
        (hoob.fields.1.trans hstate) ▸ hst
      have hitems : captureItems ss.captureSendbuf.dropStaging.retransmitCopy
            ss.captureSendbuf.dropStaging.oobbuf = captureItems false ss.oobbuf :=
        congrArg (captureItems false) hbuf
      rw [if_neg hopen]
      rw [hitems] at hoob
      have hlogs' := hlogs.detached ss.state (ss.events ++ [.told e]) ss.peerKnown
      have hoob' := hoob.detached ss.state (ss.events ++ [.told e]) ss.peerKnown
      rw [detached_clearSendbuf] at hlogs'
      rw [detached_dropStaging_clearOobbuf] at hoob'
      refine ⟨ss.events ++ [.told e], _, hlogs'.trans hoob', ?_⟩
      obtain ⟨hstate', hev', hpk', hsend', hoob2, hstaging, hcopy⟩ := hoob.fields
      rw [← show _ = ss.state from hstate'.trans hstate, ← show _ = ss.events from hev'.trans hev,
        ← show _ = ss.peerKnown from hpk'.trans hpk]
      exact detached_eq (hsend'.trans hsend) hoob2 hstaging hcopy
    · right
      rw [hclosed.dropDgrams, if_pos hclosed.state]
      exact hlogs.closedTo hclosed
  · right
    rw [hclosed.dropStaging, hclosed.captureOobbuf, hclosed.dropDgrams, if_pos hclosed.state]
    exact hclosed

/-- `mux_session_suspend`. -/
theorem suspend_spec (ss : Session) : (∃ events peerKnown ss1, (ss.detached .suspended events peerKnown).Logs
        (captureItems ss.retransmitCopy ss.sendbuf ++ captureItems false ss.oobbuf) ss1 ∧
      ss.suspend = ss1.rewindReplay) ∨ ss.ClosedTo ss.suspend := by
  obtain ⟨ev, pk, hset⟩ := ss.setState_eq .suspended
  rw [suspend, hset]
  rcases suspendDetach_spec (ss.withState .suspended ev pk)
      (ss.state = .connect ∨ ss.state = .handshake) (by simp [withState]) with ⟨events, ss1, hlogs, heq⟩ | hclosed
  · exact .inl ⟨events, pk, ss1, hlogs, heq⟩
  · exact .inr hclosed

structure Captured (ss ss' : Session) : Prop where
  state : ss'.state = ss.state
  accepted : ss'.accepted = ss.accepted
  sendbuf : ss'.sendbuf = []
  oobbuf : ss'.oobbuf = []
  dgrambuf : ss'.dgrambuf = []
  sendbufStaging : ss'.sendbufStaging = false
  retransmitCopy : ss'.retransmitCopy = ss.retransmitCopy
  births : ss'.births = ss.births
  hasSessionId : ss'.hasSessionId = ss.hasSessionId
  closedForm : ∃ allocs, ss'.closedForm = ss.closedForm.withAllocs allocs

theorem captureAndDiscard_open (hst : ss.state ≠ .closed)
    (hopen : ss.captureAndDiscard.state ≠ .closed) : Captured ss ss.captureAndDiscard := by
  rcases ss.captureAndDiscard_spec hst with ⟨_, _, _, _, _, heq⟩ | hclosed
  · rw [heq]
    exact ⟨rfl, rfl, rfl, rfl, rfl, rfl, rfl, rfl, rfl, _, rfl⟩
  · exact absurd hclosed.state hopen

theorem suspend_not_established (ss : Session) : ss.suspend.state ≠ .established := by
  rcases ss.suspend_spec with ⟨_, _, ss1, hlogs, heq⟩ | hclosed
  · obtain ⟨_, _, _, _, _, rfl⟩ := hlogs
    rw [heq]
    simp [rewindReplay, setReplayOff, detached]
  · simp [hclosed.state]

theorem suspend_accepted (ss : Session) : ss.suspend.accepted = ss.accepted := by
  rcases ss.suspend_spec with ⟨_, _, _, ⟨_, _, _, -, -, rfl⟩, heq⟩ | ⟨_, _, _, heq⟩ <;> rw [heq] <;> rfl

end Session

end Multiplexd
