import Multiplexd.Mux.Capture

/-!
# Confirmations

The specifications of `mux_unacked_ack_recv` and `mux_unacked_resume_ack_recv`: a count that is accepted
confirms that many frames at the front of the log, and leaves the replay where it was.
-/

namespace Multiplexd

namespace Session

def LogInv (ss : Session) : Prop :=
  LogOk ss.logged ss.acked ss.ring ss.frames ss.bytes ss.partialOffset ss.retransmitOff
    ss.retransmittedFrames

def CopyInv (ss : Session) : Prop :=
  CopyOk ss.ring ss.retransmitOff ss.retransmitCopy ss.retransmitCopyCount ss.retransmitCopySent ss.sendbuf

def resent (ss : Session) : Nat :=
  match ss.retransmitOff with
  | none => ss.frames
  | some _ => ss.replayBound

def ackedSerial (lastAckRecv count : Nat) : Nat :=
  if count = 0 then lastAckRecv else serialAdd32 lastAckRecv count

def Acks (ss : Session) (count : Nat) (ss' : Session) : Prop :=
  (∃ ring frames bytes partialOffset off retransmitted copyCount copySent stalled,
    ss' = { ss with
      ring := ring, frames := frames, bytes := bytes, partialOffset := partialOffset
      acked := ss.acked + count, lastAckRecv := ackedSerial ss.lastAckRecv count
      retransmitOff := off, retransmittedFrames := retransmitted
      retransmitCopyCount := copyCount, retransmitCopySent := copySent, stalled := stalled }) ∧
  ss'.LogInv

variable {ss ss' s : Session} {m k count peerAck : Nat}

theorem Acks.refl (h : ss.LogInv) : ss.Acks 0 ss :=
  ⟨⟨ss.ring, ss.frames, ss.bytes, ss.partialOffset, ss.retransmitOff, ss.retransmittedFrames,
    ss.retransmitCopyCount, ss.retransmitCopySent, ss.stalled, rfl⟩, h⟩

theorem ackedSerial_add (l m n : Nat) : ackedSerial (ackedSerial l m) n = ackedSerial l (m + n) := by
  unfold ackedSerial serialAdd32
  by_cases hm : m = 0 <;> by_cases hn : n = 0 <;> simp [hm, hn, Nat.add_assoc]

theorem Acks.trans {ss'' : Session} {n : Nat} (h : ss.Acks m ss') (h' : ss'.Acks n ss'') :
    ss.Acks (m + n) ss'' := by
  obtain ⟨⟨_, _, _, _, _, _, _, _, _, rfl⟩, -⟩ := h
  obtain ⟨⟨ring, frames, bytes, partialOffset, off, retransmitted, copyCount, copySent, stalled, rfl⟩,
    hlog⟩ := h'
  refine ⟨⟨ring, frames, bytes, partialOffset, off, retransmitted, copyCount, copySent, stalled, ?_⟩, hlog⟩
  simp only [ackedSerial_add, Nat.add_assoc]

def trimmed (ss : Session) (count : Nat) : Session :=
  let inCopy := if trimPopped ss.ring count = ss.retransmitOff.getD 0 ∧ ss.retransmitCopy
    then trimLeft ss.ring count else 0
  { ss with
    ring := trimRing ss.ring count
    frames := ss.frames - count
    bytes := itemsPayload (ringLive (trimRing ss.ring count))
    partialOffset := ringOffset (trimRing ss.ring count)
    acked := ss.acked + count
    lastAckRecv := serialAdd32 ss.lastAckRecv count
    retransmitCopyCount := ss.retransmitCopyCount - inCopy
    retransmitCopySent := ss.retransmitCopySent - inCopy }

theorem trimReplayOff_none (t : Trim) (h : s.retransmitOff = none) : s.trimReplayOff t = s := by
  rw [trimReplayOff, h]

theorem trimReplayOff_some (t : Trim) (h : s.retransmitOff = some k) :
    s.trimReplayOff t =
      if s.ring.length ≤ k - t.popped then s.setReplayOff none
      else if t.popped ≤ k then
        { s with
          retransmitOff := some (k - t.popped)
          retransmittedFrames := s.retransmittedFrames - t.trimmedRetransmitted }
      else s.setReplayOff (some 0) := by
  rw [trimReplayOff, h]
  by_cases hp : t.popped ≤ k
  · simp only [hp, if_true]
    split <;> rfl
  · simp only [hp, if_false]
    by_cases hlen : s.ring.length ≤ k - t.popped
    · rw [if_pos hlen, if_pos (show (s.setReplayOff (some 0)).ring.length ≤ k - t.popped from hlen)]
      rfl
    · rw [if_neg hlen, if_neg (show ¬ (s.setReplayOff (some 0)).ring.length ≤ k - t.popped from hlen)]

def stalledAs (ss : Session) (stalled : Bool) : Session := { ss with stalled := stalled }

theorem unstall_eq (ss : Session) : ∃ unstalled stalled, ss.unstall = (unstalled, ss.stalledAs stalled) := by
  unfold unstall
  split
  · exact ⟨true, false, rfl⟩
  · exact ⟨false, ss.stalled, rfl⟩

theorem trimRingOf_eq (hlog : ss.LogInv) (hcount : count ≤ ss.frames) :
    ∃ t, (ss.countAcked count).trimRingOf count = (ss.trimmed count).trimReplayOff t ∧
      t.popped = trimPopped ss.ring count ∧
      t.trimmedRetransmitted = trimRetransmitted ss.ring count (ss.retransmitOff.getD 0) := by
  have hloop := ackTrimLoop_eq (ss.retransmitOff.getD 0) (ss.ring.length + 1) (ss.countAcked count)
    ⟨count, 0, 0, 0⟩ hlog.toRingWf hlog.offset_eq hlog.bytes_eq (hlog.frames_eq ▸ hcount)
    (Nat.lt_succ_self _)
  simp only [Nat.zero_add, Nat.sub_zero] at hloop
  exact ⟨_, congrArg (fun p : Session × Trim => p.1.trimReplayOff p.2) hloop, rfl, rfl⟩

theorem ackTrim_eq (hlog : ss.LogInv) (hcount : count ≤ ss.frames) (hpos : 0 < count) :
    ∃ unstalled stalled t, ss.ackTrim count =
        (true, unstalled, ((ss.trimmed count).trimReplayOff t).stalledAs stalled) ∧
      t.popped = trimPopped ss.ring count ∧
      t.trimmedRetransmitted = trimRetransmitted ss.ring count (ss.retransmitOff.getD 0) := by
  obtain ⟨t, htrim, hpopped, hret⟩ := trimRingOf_eq hlog hcount
  obtain ⟨unstalled, stalled, hunstall⟩ := ((ss.trimmed count).trimReplayOff t).unstall_eq
  refine ⟨unstalled, stalled, t, ?_, hpopped, hret⟩
  rw [ackTrim, if_neg (Nat.not_lt.mpr hcount), if_neg (Nat.pos_iff_ne_zero.mp hpos), htrim, hunstall]

theorem ackTrim_acks (hlog : ss.LogInv) (hcount : count ≤ ss.frames) :
    ∃ unstalled ss', ss.ackTrim count = (true, unstalled, ss') ∧ ss.Acks count ss' := by
  rcases Nat.eq_zero_or_pos count with rfl | hpos
  · exact ⟨false, ss, by simp [ackTrim], .refl hlog⟩
  obtain ⟨unstalled, stalled, t, heq, hpopped, hret⟩ := ackTrim_eq hlog hcount hpos
  refine ⟨unstalled, _, heq, ?_⟩
  have hform (off : Option Nat) (retransmitted : Nat)
      (hreplay : ∀ k, off = some k → k ≤ (trimRing ss.ring count).length ∧
        retransmitted = ringCount ((trimRing ss.ring count).take k)) :
      ss.Acks count { ss.trimmed count with
        retransmitOff := off, retransmittedFrames := retransmitted, stalled := stalled } := by
    refine ⟨⟨(ss.trimmed count).ring, (ss.trimmed count).frames, (ss.trimmed count).bytes,
      (ss.trimmed count).partialOffset, off, retransmitted, (ss.trimmed count).retransmitCopyCount,
      (ss.trimmed count).retransmitCopySent, stalled, ?_⟩, LogOk.trim hlog hcount hreplay⟩
    simp only [trimmed, ackedSerial, Nat.pos_iff_ne_zero.mp hpos, if_false]
  cases hoff : ss.retransmitOff with
  | none =>
    rw [trimReplayOff_none (s := ss.trimmed count) t hoff]
    exact hform ss.retransmitOff _ (by simp [hoff])
  | some k =>
    rw [trimReplayOff_some (s := ss.trimmed count) t hoff]
    split
    · exact hform none 0 (by simp)
    next hlen =>
    rw [hpopped] at hlen ⊢
    have hlen' : ¬ (trimRing ss.ring count).length ≤ k - trimPopped ss.ring count := hlen
    split
    next hp =>
      refine hform (some (k - trimPopped ss.ring count)) _ ?_
      intro j hj
      obtain rfl := Option.some.inj hj
      refine ⟨by omega, ?_⟩
      rw [ringCount_take_trimRing hp, hret, hoff]
      exact congrArg (· - _) (hlog.replay k hoff).2
    · exact hform (some 0) 0 (by simp)

theorem trimPopped_le_of_replayBound (hlog : ss.LogInv)
    (hcopy : ss.CopyInv) (hoff : ss.retransmitOff = some k) (hbound : count ≤ ss.replayBound) :
    trimPopped ss.ring count ≤ k := by
  have hret := (hlog.replay k hoff).2
  unfold replayBound at hbound
  cases hc : ss.retransmitCopy with
  | false =>
    rw [hc] at hbound
    exact trimPopped_le_of_le hlog.toRingWf (by simpa [hret] using hbound)
  | true =>
    rw [CopyInv, hc] at hcopy
    obtain ⟨j, orig, head, rest, hj, horig, -, -, -, hcount, hlt, -⟩ := hcopy
    obtain rfl : k = j := Option.some.inj (hoff ▸ hj)
    obtain ⟨hlen, rfl⟩ := List.getElem?_eq_some_iff.mp horig
    refine trimPopped_le_of_lt ?_
    rw [List.take_succ_eq_append_getElem hlen, ringCount_append, ringCount_cons, ringCount_nil]
    simp only [hc, if_true] at hbound
    omega

theorem replayBound_split (hlog : ss.LogInv) (hcount : count ≤ ss.frames) (hoff : ss.retransmitOff = some k)
    (hp : trimPopped ss.ring count ≤ k) : trimRetransmitted ss.ring count k ≤ ss.retransmittedFrames ∧
      (trimPopped ss.ring count = k → trimRetransmitted ss.ring count k = ss.retransmittedFrames ∧
        ss.retransmittedFrames + trimLeft ss.ring count = count) ∧
      (trimPopped ss.ring count ≠ k → trimRetransmitted ss.ring count k = count) := by
  have hret := (hlog.replay k hoff).2
  have hsplit := count_eq_of_trimPopped_le (hlog.frames_eq ▸ hcount) hp
  refine ⟨hret ▸ trimRetransmitted_le ss.ring count k, fun heq => ?_, fun hne => ?_⟩
  · have hall := trimRetransmitted_of_popped heq
    rw [if_pos heq] at hsplit
    exact ⟨hall.trans hret.symm, by omega⟩
  · rw [if_neg hne] at hsplit
    exact hsplit.symm

/-- `mux_unacked_ack_recv`, for a count it accepts. -/
theorem ackRecv_spec {unstalled : Bool} (hlog : s.LogInv)
    (hcopy : s.CopyInv) (hack : s.ackRecv count = (true, unstalled, ss')) :
    count ≤ s.frames ∧ s.Acks count ss' ∧ ss'.CopyInv ∧ ss'.resent + count = s.resent ∧
      (s.retransmitOff = none → ss'.retransmitOff = none) := by
  unfold ackRecv at hack
  split at hack
  · simp at hack
  next hreplay =>
  have hcount : count ≤ s.frames := by
    by_contra hgt
    rw [ackTrim, if_pos (Nat.lt_of_not_le hgt)] at hack
    simp at hack
  obtain ⟨u, s1, heq, hacks⟩ := ackTrim_acks hlog hcount
  obtain rfl : s1 = ss' := by simpa using (Prod.mk.inj (Prod.mk.inj (heq.symm.trans hack)).2).2
  refine ⟨hcount, hacks, ?_⟩
  rcases Nat.eq_zero_or_pos count with rfl | hpos
  · obtain rfl : s = s1 := by
      rw [ackTrim, if_neg (by omega), if_pos rfl] at heq
      exact (Prod.mk.inj (Prod.mk.inj heq).2).2
    exact ⟨hcopy, rfl, id⟩
  obtain ⟨u', stalled, t, heq', hpopped, hret⟩ := ackTrim_eq hlog hcount hpos
  obtain rfl := (Prod.mk.inj (Prod.mk.inj (heq.symm.trans heq')).2).2
  cases hoff : s.retransmitOff with
  | none =>
    rw [trimReplayOff_none (s := s.trimmed count) t hoff]
    have hc : s.retransmitCopy = false := by
      by_contra hc
      rw [CopyInv, eq_true_of_ne_false hc] at hcopy
      obtain ⟨_, _, _, _, hk, _⟩ := hcopy
      simp [hoff] at hk
    refine ⟨?_, ?_, fun _ => hoff⟩
    · exact .of_false hc (by rw [CopyInv, hc] at hcopy; exact hcopy)
    · simp only [resent, stalledAs, trimmed, hoff]
      omega
  | some k =>
    have hbound : count ≤ s.replayBound := by
      simpa [hoff] using hreplay
    have hp := trimPopped_le_of_replayBound hlog hcopy hoff hbound
    obtain ⟨hle, heqk, hnek⟩ := replayBound_split hlog hcount hoff hp
    obtain ⟨hk, hrf⟩ := hlog.replay k hoff
    have hlen : (s.trimmed count).ring.length = s.ring.length - trimPopped s.ring count :=
      trimRing_length s.ring count
    rw [trimReplayOff_some (s := s.trimmed count) t hoff, hpopped, if_pos hp]
    simp only [hoff, Option.getD_some] at hret
    cases hc : s.retransmitCopy with
    | false =>
      rw [CopyInv, hc] at hcopy
      have hbound' : s.replayBound = s.retransmittedFrames := by simp [replayBound, hc]
      refine ⟨?_, ?_, by simp⟩
      · split <;> exact .of_false hc hcopy
      · rw [show s.resent = s.retransmittedFrames by rw [resent, hoff, hbound']]
        split
        next hend =>
          -- every entry has been replayed
          have hall : k = s.ring.length := by omega
          rw [hall, List.take_length, ← hlog.frames_eq] at hrf
          exact (show s.frames - count + count = _ by omega)
        next =>
          refine Eq.trans (b := s.retransmittedFrames - t.trimmedRetransmitted + count) ?_ ?_
          · simp [resent, stalledAs, replayBound, trimmed, hc]
          · by_cases hpk : trimPopped s.ring count = k
            · have := heqk hpk
              omega
            · have := hnek hpk
              omega
    | true =>
      rw [CopyInv, hc] at hcopy
      obtain ⟨j, orig, head, rest, hj, horig, hbuf, hhead, hitems, hcc, hlt, hrest⟩ := hcopy
      obtain rfl : k = j := Option.some.inj (hoff ▸ hj)
      have hklt := (List.getElem?_eq_some_iff.mp horig).1
      rw [if_neg (by omega)]
      have hbound' : s.replayBound = s.retransmittedFrames + s.retransmitCopySent := by
        simp [replayBound, hc]
      have hget := trimRing_getElem? hp horig
      refine ⟨?_, ?_, by simp⟩
      · by_cases hpk : trimPopped s.ring count = k
        · obtain ⟨_, hleft⟩ := heqk hpk
          have hle' := hlog.le orig (List.mem_of_getElem? horig)
          rw [if_pos hpk] at hget
          refine .of_true hc rfl hget hbuf hhead ?_ ?_ ?_ hrest
          all_goals
            simp only [stalledAs, trimmed, hoff, Option.getD_some, hc, and_true, if_pos hpk, MuxFrame.confirm]
          · rw [MuxFrame.live_sub hle' (by omega), List.drop_drop, hitems]
            congr 1
            omega
          all_goals omega
        · rw [if_neg hpk] at hget
          refine .of_true hc rfl hget hbuf hhead ?_ ?_ ?_ hrest
          all_goals
            simp only [stalledAs, trimmed, hoff, Option.getD_some, hpk, false_and, if_false, Nat.sub_zero]
          · exact hitems
          all_goals omega
      · rw [show s.resent = _ by rw [resent, hoff, hbound']]
        simp only [resent, stalledAs, replayBound, trimmed, hoff, Option.getD_some, hc, and_true, if_true]
        by_cases hpk : trimPopped s.ring count = k
        · have := heqk hpk
          rw [if_pos hpk]
          omega
        · have := hnek hpk
          rw [if_neg hpk]
          omega

theorem Acks.frames_eq (hlog : ss.LogInv) (h : ss.Acks count ss') : ss'.frames = ss.frames - count := by
  obtain ⟨⟨_, _, _, _, _, _, _, _, _, rfl⟩, hlog'⟩ := h
  have hframes' := LogOk.frames_eq_sub hlog'
  have hframes := LogOk.frames_eq_sub hlog
  simp only at hframes' ⊢
  omega

theorem Acks.lastAckRecv_eq (h : ss.Acks count ss') : ss'.lastAckRecv = ackedSerial ss.lastAckRecv count := by
  obtain ⟨⟨_, _, _, _, _, _, _, _, _, rfl⟩, -⟩ := h
  rfl

/-- The loop confirms frames one by one until the serials agree or the log is empty. -/
theorem resumeTrimLoop_spec (peerAck : Nat) {fuel : Nat} (hlog : ss.LogInv) (hfuel : ss.frames ≤ fuel) :
    ∃ count ss', count ≤ ss.frames ∧ ss.Acks count ss' ∧
      (resumeTrimLoop peerAck fuel ss = (true, ss') ∧ ss'.lastAckRecv = peerAck ∨
        resumeTrimLoop peerAck fuel ss = (false, ss') ∧
          ∀ m ≤ ss.frames, ackedSerial ss.lastAckRecv m ≠ peerAck) := by
  induction fuel generalizing ss with
  | zero =>
    refine ⟨0, ss, Nat.zero_le _, .refl hlog, ?_⟩
    rw [resumeTrimLoop]
    by_cases heq : ss.lastAckRecv = peerAck
    · exact .inl ⟨by simp [heq], heq⟩
    · refine .inr ⟨by simp [heq], fun m hm => ?_⟩
      obtain rfl : m = 0 := by omega
      exact heq
  | succ fuel ih =>
    rw [resumeTrimLoop]
    by_cases heq : ss.lastAckRecv = peerAck
    · exact ⟨0, ss, Nat.zero_le _, .refl hlog, .inl ⟨by rw [if_pos heq], heq⟩⟩
    rw [if_neg heq]
    by_cases hzero : ss.frames = 0
    · refine ⟨0, ss, Nat.zero_le _, .refl hlog, .inr ⟨by rw [if_pos hzero], fun m hm => ?_⟩⟩
      obtain rfl : m = 0 := by omega
      exact heq
    rw [if_neg hzero]
    obtain ⟨u, s, htrim, hacks⟩ := ackTrim_acks hlog (show 1 ≤ ss.frames by omega)
    have hframes := hacks.frames_eq hlog
    obtain ⟨count, ss', hle, hrest, hres⟩ := ih hacks.2 (show s.frames ≤ fuel by omega)
    refine ⟨1 + count, ss', by omega, hacks.trans hrest, ?_⟩
    simp only [htrim, if_neg (show ¬ ss.frames ≤ s.frames by omega)]
    refine hres.imp_right fun ⟨hfalse, hnone⟩ => ⟨hfalse, fun m hm => ?_⟩
    -- one frame has been confirmed already
    cases m with
    | zero => exact heq
    | succ m =>
      have := hnone m (by omega)
      rwa [hacks.lastAckRecv_eq, ackedSerial_add, Nat.add_comm] at this

theorem rewindReplay_logInv (h : ss.LogInv) : ss.rewindReplay.LogInv := by
  unfold rewindReplay
  split
  · exact LogOk.unset h 0
  · exact LogOk.rewind h

/-- `mux_unacked_resume_ack_recv`, for a count it accepts. -/
theorem resumeAckRecv_spec (hlog : s.LogInv) (hack : s.resumeAckRecv peerAck = (true, ss')) :
    ∃ count ss1, count ≤ s.frames ∧ s.Acks count ss1 ∧ ss1.lastAckRecv = peerAck ∧
      ss' = ss1.rewindReplay := by
  unfold resumeAckRecv at hack
  split at hack
  · simp at hack
  obtain ⟨count, ss1, hle, hacks, ⟨htrue, hlast⟩ | ⟨hfalse, -⟩⟩ :=
    resumeTrimLoop_spec peerAck hlog (Nat.le_refl s.frames)
  · rw [htrue] at hack
    exact ⟨count, ss1, hle, hacks, hlast, (Prod.mk.inj hack).2.symm⟩
  · rw [hfalse] at hack
    simp at hack

/-- A confirmation changes nothing but the log. -/
theorem Acks.fields (h : ss.Acks count ss') :
    ss'.state = ss.state ∧ ss'.retransmitCopy = ss.retransmitCopy ∧ ss'.out = ss.out ∧ ss'.sent = ss.sent := by
  obtain ⟨⟨_, _, _, _, _, _, _, _, _, rfl⟩, -⟩ := h
  exact ⟨rfl, rfl, rfl, rfl⟩

theorem Acks.accepted (h : ss.Acks count ss') : ss'.accepted = ss.accepted := by
  obtain ⟨⟨_, _, _, _, _, _, _, _, _, rfl⟩, -⟩ := h
  rfl

theorem resumeAckRecv_false (hlog : s.LogInv)
    (hack : s.resumeAckRecv peerAck = (false, ss')) : ∃ count, s.Acks count ss' := by
  unfold resumeAckRecv at hack
  split at hack
  · obtain rfl := (Prod.mk.inj hack).2
    exact ⟨0, .refl hlog⟩
  obtain ⟨count, ss1, -, hacks, ⟨htrue, -⟩ | ⟨hfalse, -⟩⟩ :=
    resumeTrimLoop_spec peerAck hlog (Nat.le_refl s.frames)
  · rw [htrue] at hack
    simp at hack
  · rw [hfalse] at hack
    obtain rfl := (Prod.mk.inj hack).2
    exact ⟨count, hacks⟩

theorem resumeAckRecv_accepts (hlog : ss.LogInv) (hm : m ≤ ss.frames)
    (hserial : serialLt32 (ackedSerial ss.lastAckRecv m) ss.lastAckRecv = false) :
    (ss.resumeAckRecv (ackedSerial ss.lastAckRecv m)).1 = true := by
  unfold resumeAckRecv
  rw [hserial]
  obtain ⟨count, ss1, hle, hacks, ⟨htrue, hlast⟩ | ⟨hfalse, hnone⟩⟩ :=
    resumeTrimLoop_spec (ackedSerial ss.lastAckRecv m) hlog (Nat.le_refl ss.frames)
  · simp [htrue]
  · exact absurd rfl (hnone m hm)

end Session

end Multiplexd
