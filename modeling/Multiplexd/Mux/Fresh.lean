import Multiplexd.Mux.Transport

/-!
# A fresh session after a rejected resume

A dialed session that offers to resume may be answered by a server that knows nothing of it. The log,
the counters and the streams then start over. What is queued does not: a frame that a stream produced
since the transport was lost goes out on the new session, unless there is none when the hello arrives.
-/

namespace Multiplexd

open Session

namespace Session

structure HelloOnly (ss : Session) : Prop where
  send : AllItems (fun i => i.isHello = true) ss.sendbuf
  oob : AllItems (fun i => i.isHello = true) ss.oobbuf
  sent : ∀ i ∈ ss.sent, i.isHello = true

instance (ss : Session) : Decidable ss.HelloOnly :=
  decidable_of_iff ((∀ f ∈ ss.sendbuf, ∀ i ∈ f.items, i.isHello = true) ∧
      (∀ f ∈ ss.oobbuf, ∀ i ∈ f.items, i.isHello = true) ∧ ∀ i ∈ ss.sent, i.isHello = true)
    ⟨fun h => ⟨h.1, h.2.1, h.2.2⟩, fun h => ⟨h.send, h.oob, h.sent⟩⟩

variable {ss : Session} {frame : MuxFrame} {rest : List MuxFrame}

theorem HelloOnly.handOver (h : ss.HelloOnly)
    (hbuf : ss.sendbuf = frame :: rest) (n : Nat) : ∀ i ∈ (ss.handOver frame n).sent, i.isHello = true := by
  intro i hi
  rw [handOver_sent] at hi
  rcases List.mem_append.mp hi with hi | hi
  · exact h.sent i hi
  · exact h.send frame (by simp [hbuf]) i (frame.completed_subset n i hi)

variable [HelloCodec]

theorem flushFull_helloOnly (hb : Base ss) (hst : ss.state = .handshake ∨ ss.state = .established)
    (hbuf : ss.sendbuf = frame :: rest) (n : Nat) :
    (ss.flushFull frame rest n).state = .closed ∨
      (ss.flushFull frame rest n).shell = (ss.handOver frame n).shell ∧
        (ss.HelloOnly → (ss.flushFull frame rest n).HelloOnly) := by
  have hkept (h : ss.HelloOnly) := Entries.tail (hbuf ▸ h.send)
  obtain ⟨staging, -, ⟨-, heq⟩ | ⟨-, hlogs⟩ | hclosed⟩ := hb.flushFull_spec hst hbuf n
  · exact .inr (heq ▸ ⟨rfl, fun h => ⟨hkept h, h.oob, h.handOver hbuf n⟩⟩)
  · refine .inr ⟨hlogs.shell, fun h => ?_⟩
    obtain ⟨_, _, _, -, -, heq⟩ := hlogs
    exact heq ▸ ⟨hkept h, h.oob, h.handOver hbuf n⟩
  · exact .inl hclosed.state

theorem flushPart_helloOnly (hb : Base ss) (hst : ss.state = .handshake ∨ ss.state = .established)
    (hbuf : ss.sendbuf = frame :: rest) (n : Nat) :
    (ss.flushPart frame rest n).state = .closed ∨
      (ss.flushPart frame rest n).shell = (ss.handOver frame n).shell ∧
        (ss.HelloOnly → (ss.flushPart frame rest n).HelloOnly) := by
  have hsend (h : ss.HelloOnly) : AllItems (fun i => i.isHello = true) (frame :: rest) := hbuf ▸ h.send
  have hcut (h : ss.HelloOnly) : AllItems (fun i => i.isHello = true) ((frame.moved n).cut :: rest) :=
    (hsend h).tail.cons fun i hi => (hsend h).head i (List.mem_of_mem_drop hi)
  obtain ⟨staging, -, ⟨heq, -⟩ | ⟨-, heq⟩ | ⟨-, hlogs⟩ | hclosed⟩ := hb.flushPart_spec hst hbuf n
  · exact .inr (heq ▸ ⟨rfl, fun h => ⟨(hsend h).tail.cons (hsend h).head, h.oob, h.handOver hbuf n⟩⟩)
  · exact .inr (heq ▸ ⟨rfl, fun h => ⟨hcut h, h.oob, h.handOver hbuf n⟩⟩)
  · refine .inr ⟨hlogs.shell, fun h => ?_⟩
    obtain ⟨_, _, _, -, -, heq⟩ := hlogs
    exact heq ▸ ⟨hcut h, h.oob, h.handOver hbuf n⟩
  · exact .inl hclosed.state

theorem HelloOnly.discard (h : ss.HelloOnly) (hb : Base ss) (id : UInt16) :
    (ss.discardStreamFrames id).HelloOnly := by
  obtain ⟨sendbuf, staging, hthin, -, -, heq⟩ := ss.discardSendbuf_spec id hb.buf
  unfold discardStreamFrames
  rw [heq]
  exact ⟨h.send.thinned hthin, h.oob.filterMap, h.sent⟩

theorem HelloOnly.pushHello (h : ss.HelloOnly) (server incl : Bool) : (ss.pushHello server incl).HelloOnly := by
  refine ⟨h.send.append fun i hi => ?_, h.oob, h.sent⟩
  rw [List.mem_singleton.mp hi]
  simp [Item.isHello, helloItem, helloFrame]

end Session

/-! ### Who has a session id -/

structure Ident (ss : Session) : Prop where
  known : ss.accepted = false → ss.state = .established ∨ ss.state = .suspended → ss.hasSessionId = true
  blank : ss.accepted = false → ss.hasSessionId = false →
    ss.state = .init ∨ ss.state = .connect ∨ ss.state = .handshake →
      ss.streams.getD [] = [] ∧ ss.HelloOnly

namespace Ident

variable {ss ss' : Session}

theorem of_dead (hst : ss.state = .closed ∨ ss.state = .closing ∨ ss.state = .closeWait) : Ident ss := by
  constructor
  · intro _ h
    rcases hst with hst | hst | hst <;> simp [hst] at h
  · intro _ _ h
    rcases hst with hst | hst | hst <;> simp [hst] at h

theorem of_known (hid : ss.hasSessionId = true ∨ ss.accepted = true) : Ident ss := by
  constructor
  · intro ha _
    exact hid.resolve_right (by simp [ha])
  · intro ha hno
    rcases hid with h | h
    · simp [h] at hno
    · simp [h] at ha

theorem of_shell (hs : ss'.shell = ss.shell) (hid : ss.hasSessionId = true ∨ ss.accepted = true) : Ident ss' := by
  have hhas : ss'.hasSessionId = ss.hasSessionId := (congrArg Session.hasSessionId hs :)
  have hacc : ss'.accepted = ss.accepted := (congrArg Session.accepted hs :)
  exact .of_known (by rwa [hhas, hacc])

theorem suspend (hid : ss.hasSessionId = true ∨ ss.accepted = true) : Ident ss.suspend := by
  rcases ss.suspend_shell with hs | hs
  · exact .of_shell hs hid
  · exact .of_dead (.inl (state_of_shell hs))

theorem written {frame : MuxFrame} {n : Nat} (h : Ident ss) (hs : ss'.shell = (ss.handOver frame n).shell)
    (honly : ss.HelloOnly → ss'.HelloOnly) : Ident ss' := by
  have hst : ss'.state = ss.state := (state_of_shell hs :)
  have hacc : ss'.accepted = ss.accepted := (congrArg Session.accepted hs :)
  have hhas : ss'.hasSessionId = ss.hasSessionId := (congrArg Session.hasSessionId hs :)
  have hstreams : ss'.streams = ss.streams := (congrArg Session.streams hs :)
  constructor
  · rw [hacc, hst, hhas]
    exact h.known
  · rw [hacc, hst, hhas, hstreams]
    exact fun ha hid hst => ⟨(h.blank ha hid hst).1, honly (h.blank ha hid hst).2⟩

end Ident

section Runs

variable [HelloCodec]

variable {quiet : Bool} {e : Event} {ss ss' : Session} {hello : Hello}

/-- In the states where only the hello moves, a step leaves only the hello. -/
theorem Micro.ident (hm : Micro quiet e ss ss') (hb : Base ss) (h : Ident ss) : Ident ss' := by
  have hknown (hst : ss.state = .established ∨ ss.state = .suspended) :
      ss.hasSessionId = true ∨ ss.accepted = true := by
    cases ha : ss.accepted with
    | false => exact .inl (h.known ha hst)
    | true => exact .inr rfl
  cases hm with
  | aux => exact ⟨h.known, fun ha hid hst => ⟨(h.blank ha hid hst).1, ⟨(h.blank ha hid hst).2.send,
      (h.blank ha hid hst).2.oob, (h.blank ha hid hst).2.sent⟩⟩⟩
  | table streams htable =>
    refine ⟨h.known, fun ha hid hst => ?_⟩
    obtain ⟨hnil, honly⟩ := h.blank ha hid hst
    refine ⟨List.eq_nil_iff_forall_not_mem.mpr fun id hmem => ?_, { honly with }⟩
    rcases htable with hest | hsub
    · have hst : ss.state = .init ∨ ss.state = .connect ∨ ss.state = .handshake := hst
      simp [hest] at hst
    · simpa [hnil] using hsub id hmem
  | closed | failClosed | ackReject | helloReject | resumeReject => exact .of_dead (.inl rfl)
  | forget _ _ hst => exact .of_dead (.inl hst)
  | closing => exact .of_dead (.inr (.inl rfl))
  | closeWait => exact .of_dead (.inr (.inr rfl))
  | suspend _ hid => exact .suspend hid
  | fail frame rest n _ _ hid => exact .suspend hid
  | install he ha hst =>
    refine ⟨by simp, fun _ hid _ => ?_⟩
    rcases hst with hst | hst
    · obtain ⟨hnil, honly⟩ := h.blank ha hid (.inl hst)
      exact ⟨hnil, honly.send, honly.oob, by simp⟩
    · obtain ⟨hsend, hoob, -, hnil, -⟩ := hb.st.idle (.inr hst)
      exact ⟨hnil, by rw [hsend]; exact .nil, by rw [hoob]; exact .nil, by simp⟩
  | attach he ha hst hopen =>
    have hc := captureAndDiscard_open (by simp [hst]) hopen
    exact .of_known (.inl (hc.hasSessionId.trans (h.known ha (.inr hst))))
  | dialed he ha hst =>
    refine ⟨by simp [pushHello], fun _ hid _ => ?_⟩
    obtain ⟨hnil, honly⟩ := h.blank ha hid (.inr (.inl hst))
    have honly' : HelloOnly { ss with state := .handshake } := { honly with }
    exact ⟨hnil, honly'.pushHello _ _⟩
  | accepted he ha => exact .of_known (.inr ha)
  | helloServer f rest he ha => exact .of_shell (startReplay_shell _) (.inr ha)
  | resumeInstall n he ha hst hopen =>
    have hc := captureAndDiscard_open (by simp [hst]) hopen
    exact .of_shell (startReplay_shell _) (.inr (hc.accepted.trans ha))
  | helloResume ss1 f rest hello he ha hst _ _ _ hconfirm hack =>
    have hs := resumeAckRecv_shell (s := { ss with recvbuf := rest }) hb.log hack
    have hid : ss.hasSessionId = true := (Bool.and_eq_true _ _ ▸ hconfirm).1
    exact .of_shell (startReplay_shell _) (.inl ((congrArg Session.hasSessionId hs :).trans hid))
  | helloFresh => exact .of_known (.inl rfl)
  | resumeTrim _ n he hst hack => exact .of_shell (resumeAckRecv_shell hb.log hack) (hknown (.inr hst))
  | push f _ _ _ hst =>
    obtain ⟨_, _, -, heq⟩ := sendbufPush_spec { ss with births := ss.births + 1 } (ss.newFrame f)
    rw [heq]
    refine ⟨h.known, fun ha hid hblank => ?_⟩
    rcases hst with hest | hmem
    · have hblank : ss.state = .init ∨ ss.state = .connect ∨ ss.state = .handshake := hblank
      simp [hest] at hblank
    · simp [(h.blank ha hid hblank).1] at hmem
  | park f _ _ _ hst =>
    refine ⟨h.known, fun ha hid hblank => ?_⟩
    rcases hst with hest | hmem
    · have hblank : ss.state = .init ∨ ss.state = .connect ∨ ss.state = .handshake := hblank
      simp [hest] at hblank
    · simp [(h.blank ha hid hblank).1] at hmem
  | oob _ _ _ _ hst | dgram _ _ _ _ hst | recvOther _ _ hst | recvStream _ _ hst | copy _ _ hst
  | replayed _ hst => exact .of_known (hknown (.inl hst))
  | ack hst => exact .of_shell (ss.pushAck_shell _) (hknown (.inl hst))
  | stageOob frame rest hst | stageDgram frame rest hst =>
    exact .of_shell (sendbufPush_shell _ _) (hknown (.inl hst))
  | recvAck _ f rest unstalled hst _ _ _ _ hack => exact .of_shell (hb.ackRecv_shell hack) (hknown (.inl hst))
  | discard id =>
    refine ⟨h.known, fun ha hid hst => ⟨(h.blank ha hid hst).1, ?_⟩⟩
    exact (h.blank ha hid hst).2.discard hb id
  | freeze frame rest =>
    unfold freezeHead
    split
    · exact ⟨h.known, fun ha hid hst => ⟨(h.blank ha hid hst).1, ⟨(h.blank ha hid hst).2.send,
        (h.blank ha hid hst).2.oob, (h.blank ha hid hst).2.sent⟩⟩⟩
    · exact h
  | flushPart frame rest n hst hbuf =>
    rcases flushPart_helloOnly hb hst hbuf n with hclosed | ⟨hs, honly⟩
    · exact .of_dead (.inl hclosed)
    · exact h.written hs honly
  | flushFull frame rest n hst hbuf =>
    rcases flushFull_helloOnly hb hst hbuf n with hclosed | ⟨hs, honly⟩
    · exact .of_dead (.inl hclosed)
    · exact h.written hs honly

structure Awaiting (start ss : Session) : Prop where
  state : start.state = .handshake
  accepted : ss.accepted = start.accepted
  hasSessionId : ss.hasSessionId = start.hasSessionId
  sessionId : ss.sessionId = start.sessionId
  recvbuf : ss.recvbuf = start.recvbuf
  helloOnly : start.HelloOnly → ss.HelloOnly

omit [HelloCodec] in
theorem Awaiting.written {frame : MuxFrame} {n : Nat} (hs : ss'.shell = (ss.handOver frame n).shell)
    (honly : ss.HelloOnly → ss'.HelloOnly) (hst' : ss'.state = .handshake) : Awaiting ss ss' :=
  ⟨(state_of_shell hs).symm.trans hst', (congrArg Session.accepted hs :),
    (congrArg Session.hasSessionId hs :), (congrArg Session.sessionId hs :), (congrArg Session.recvbuf hs :), honly⟩

/-- While a session reads and still waits for the hello, only the hello moves. -/
theorem Micro.waits (hm : Micro quiet e ss ss') (hb : Base ss)
    (he : e.reads = true) (hst' : ss'.state = .handshake) : Awaiting ss ss' := by
  have hstream : e.isStream = false := by cases e <;> first | rfl | cases he
  cases hm with
  | aux | table => exact ⟨hst', rfl, rfl, rfl, rfl, fun h => { h with }⟩
  | closed | failClosed | ackReject | helloReject | resumeReject | closing | closeWait | helloFresh => cases hst'
  | forget _ h => subst h; cases he
  | install h | attach h | dialed h | accepted h => subst h; cases he
  | resumeTrim _ _ h | resumeInstall _ h => subst h; cases he
  | suspend => rcases ss.suspend_shell with hs | hs <;> cases (state_of_shell hs).symm.trans hst'
  | fail frame rest n =>
    rcases (ss.handOver frame n).suspend_shell with hs | hs <;> cases (state_of_shell hs).symm.trans hst'
  | helloServer | helloResume => cases (state_of_shell (startReplay_shell _)).symm.trans hst'
  | push f _ _ _ _ hquiet =>
    rw [(sendbufPush_keeps _ _).1] at hst'
    exact absurd hst' (hquiet (.inr hstream)).2
  | park f _ _ _ _ hquiet => exact absurd hst' (hquiet hstream).2
  | oob _ _ _ _ hst | dgram _ _ _ _ hst | recvOther _ _ hst | recvStream _ _ hst | copy _ _ hst
  | replayed _ hst => exact absurd (hst.symm.trans hst') (by simp)
  | ack hst =>
    have hs := ss.pushAck_shell (min ss.unreported 65535)
    exact absurd (hst.symm.trans ((state_of_shell hs).symm.trans hst')) (by simp)
  | stageOob frame rest hst | stageDgram frame rest hst =>
    rw [(sendbufPush_keeps _ _).1] at hst'
    exact absurd (hst.symm.trans hst') (by simp)
  | recvAck _ f rest unstalled hst _ _ _ _ hack =>
    have hs := hb.ackRecv_shell hack
    exact absurd (hst.symm.trans ((state_of_shell hs).symm.trans hst')) (by simp)
  | discard id => exact ⟨hst', rfl, rfl, rfl, rfl, fun h => h.discard hb id⟩
  | freeze frame rest =>
    unfold freezeHead at *
    split at hst'
    next hr =>
      rw [if_pos hr]
      exact ⟨hst', rfl, rfl, rfl, rfl, fun h => { h with }⟩
    next hr =>
      rw [if_neg hr]
      exact ⟨hst', rfl, rfl, rfl, rfl, id⟩
  | flushPart frame rest n hst hbuf =>
    rcases flushPart_helloOnly hb hst hbuf n with hclosed | ⟨hs, honly⟩
    · cases hclosed.symm.trans hst'
    · exact .written hs honly hst'
  | flushFull frame rest n hst hbuf =>
    rcases flushFull_helloOnly hb hst hbuf n with hclosed | ⟨hs, honly⟩
    · cases hclosed.symm.trans hst'
    · exact .written hs honly hst'

/-! ### Frames of the logical session -/

/-- What a step writes to the transport. -/
inductive Session.Writes (ss ss' : Session) : Prop
  | nothing (hstale : ss'.stale = ss.stale) (hsent : ss'.sent = ss.sent ∨ ss'.sent = [])
  | head (frame : MuxFrame) (rest : List MuxFrame) (n : Nat) (hbuf : ss.sendbuf = frame :: rest)
      (hstale : ss'.stale = (ss.handOver frame n).stale) (hsent : ss'.sent = (ss.handOver frame n).sent)

/-- The logical session goes on. -/
structure Session.Ages (ss ss' : Session) : Prop where
  freshFrom : ss'.freshFrom = ss.freshFrom
  births : ss.births ≤ ss'.births
  writes : ss.Writes ss'

omit [HelloCodec] in
theorem Session.Ages.of_eq (hfrom : ss'.freshFrom = ss.freshFrom)
    (hbirths : ss.births ≤ ss'.births) (hstale : ss'.stale = ss.stale)
    (hsent : ss'.sent = ss.sent ∨ ss'.sent = []) : ss.Ages ss' :=
  ⟨hfrom, hbirths, .nothing hstale hsent⟩

namespace Session

variable {ss ss' ss'' : Session}

omit [HelloCodec]

theorem Ages.congr (h : ss.Ages ss') (hfrom : ss''.freshFrom = ss'.freshFrom) (hbirths : ss''.births = ss'.births)
    (hstale : ss''.stale = ss'.stale) (hsent : ss''.sent = ss'.sent) : ss.Ages ss'' := by
  refine ⟨hfrom.trans h.freshFrom, hbirths ▸ h.births, ?_⟩
  cases h.writes with
  | nothing h h' => exact .nothing (hstale.trans h) (by rwa [hsent])
  | head frame rest n hbuf h h' => exact .head frame rest n hbuf (hstale.trans h) (hsent.trans h')

theorem Ages.of_shell (hs : ss''.shell = ss'.shell) (h : ss.Ages ss') : ss.Ages ss'' :=
  h.congr (congrArg Session.freshFrom hs :) (congrArg Session.births hs :) (congrArg Session.stale hs :)
    (congrArg Session.sent hs :)

theorem Ages.suspend (h : ss.Ages ss') : ss.Ages ss'.suspend := by
  rcases ss'.suspend_shell with hs | hs <;> exact .of_shell hs (h.congr rfl rfl rfl rfl)

theorem Ages.head {frame : MuxFrame} {rest : List MuxFrame} (hbuf : ss.sendbuf = frame :: rest) (n : Nat) :
    ss.Ages (ss.handOver frame n) :=
  ⟨rfl, Nat.le_refl _, .head frame rest n hbuf rfl rfl⟩

end Session

/-- Only a fresh hello begins another logical session. -/
theorem Micro.ages (hm : Micro quiet e ss ss') (hb : Base ss) :
    ss.Ages ss' ∨ ∃ f rest hello id, e.reads = true ∧ ss.accepted = false ∧ ss.state = .handshake ∧
      Frame.decode ss.recvbuf = some (f, rest) ∧ f.version = 0 ∧ HelloCodec.parse f.payload = some hello ∧
      hello.sessionId = some id ∧ ss.helloConfirmsResume hello = false ∧
      ss' = { ss with recvbuf := rest }.freshForm id := by
  cases hm with
  | helloFresh f rest hello id he ha hst hdec hversion hparse hid hconfirm =>
    exact .inr ⟨f, rest, hello, id, he, ha, hst, hdec, hversion, hparse, hid, hconfirm, rfl⟩
  | aux | table | closed | closing | closeWait | recvOther | recvStream | ackReject | discard | copy
  | replayed => exact .inl (.of_eq rfl (Nat.le_refl _) rfl (.inl rfl))
  | dialed | park | oob | dgram => exact .inl (.of_eq rfl (Nat.le_succ _) rfl (.inl rfl))
  | forget | install | accepted => exact .inl (.of_eq rfl (Nat.le_refl _) rfl (.inr rfl))
  | suspend => exact .inl (.suspend (.of_eq rfl (Nat.le_refl _) rfl (.inl rfl)))
  | attach he ha hst hopen =>
    have hs := captureAndDiscard_shell hst hopen
    exact .inl (.of_eq (congrArg Session.freshFrom hs :) (Nat.le_of_eq (congrArg Session.births hs :).symm)
      (congrArg Session.stale hs :) (.inr rfl))
  | resumeInstall n he ha hst hopen =>
    have hs := captureAndDiscard_shell hst hopen
    exact .inl (.of_shell (startReplay_shell _) (.of_eq (congrArg Session.freshFrom hs :)
      (Nat.le_succ_of_le (Nat.le_of_eq (congrArg Session.births hs :).symm)) (congrArg Session.stale hs :) (.inr rfl)))
  | helloServer => exact .inl (.of_shell (startReplay_shell _) (.of_eq rfl (Nat.le_succ _) rfl (.inl rfl)))
  | helloResume ss1 f rest hello _ _ _ _ _ _ _ hack =>
    have hs := resumeAckRecv_shell (s := { ss with recvbuf := rest }) hb.log hack
    have h : ss.Ages ss1 := .of_shell hs (.of_eq rfl (Nat.le_refl _) rfl (.inl rfl))
    exact .inl (.of_shell (startReplay_shell _) (h.congr rfl rfl rfl rfl))
  | helloReject ss1 f rest hello _ _ _ _ _ _ _ hack =>
    have hs := resumeAckRecv_shell (s := { ss with recvbuf := rest }) hb.log hack
    have h : ss.Ages ss1 := .of_shell hs (.of_eq rfl (Nat.le_refl _) rfl (.inl rfl))
    exact .inl (h.congr rfl rfl rfl rfl)
  | resumeTrim _ _ _ _ hack =>
    exact .inl (.of_shell (resumeAckRecv_shell hb.log hack) (.of_eq rfl (Nat.le_refl _) rfl (.inl rfl)))
  | resumeReject ss1 _ _ _ hack =>
    have h : ss.Ages ss1 := .of_shell (resumeAckRecv_shell hb.log hack)
      (.of_eq rfl (Nat.le_refl _) rfl (.inl rfl))
    exact .inl (h.congr rfl rfl rfl rfl)
  | push => exact .inl (.of_shell (sendbufPush_shell _ _) (.of_eq rfl (Nat.le_succ _) rfl (.inl rfl)))
  | ack => exact .inl (.of_shell (ss.pushAck_shell _) (.of_eq rfl (Nat.le_succ _) rfl (.inl rfl)))
  | stageOob | stageDgram =>
    exact .inl (.of_shell (sendbufPush_shell _ _) (.of_eq rfl (Nat.le_refl _) rfl (.inl rfl)))
  | recvAck _ f rest _ _ _ _ _ _ hack =>
    exact .inl (.of_shell (hb.ackRecv_shell hack) (.of_eq rfl (Nat.le_refl _) rfl (.inl rfl)))
  | freeze frame rest =>
    exact .inl (.of_shell (ss.freezeHead_shell rest) (.of_eq rfl (Nat.le_refl _) rfl (.inl rfl)))
  | fail frame rest n _ hbuf => exact .inl (.suspend (.head hbuf n))
  | failClosed frame rest n _ hbuf => exact .inl ((Ages.head hbuf n).congr rfl rfl rfl rfl)
  | flushPart frame rest n hst hbuf =>
    rcases hb.flushPart_shell hst hbuf n with hs | hs <;>
      exact .inl (.of_shell hs ((Ages.head hbuf n).congr rfl rfl rfl rfl))
  | flushFull frame rest n hst hbuf =>
    rcases hb.flushFull_shell hst hbuf n with hs | hs <;>
      exact .inl (.of_shell hs ((Ages.head hbuf n).congr rfl rfl rfl rfl))

def Item.Current (start : Nat) (i : Item) : Prop := i.isHello = true ∨ start ≤ i.birth

/-- Nothing of an older logical session is held, or was written to the current transport, or was ever
written in the current logical session. -/
structure Current (ss : Session) : Prop where
  pool : Pool (Item.Current ss.freshFrom) ss
  sent : ∀ i ∈ ss.sent, i.Current ss.freshFrom
  stale : ss.stale = []
  births : ss.freshFrom ≤ ss.births

omit [HelloCodec] in
theorem Current.handOver (h : Current ss) {frame : MuxFrame} {rest : List MuxFrame}
    (hbuf : ss.sendbuf = frame :: rest) (n : Nat) :
    (ss.handOver frame n).stale = [] ∧ ∀ i ∈ (ss.handOver frame n).sent, i.Current ss.freshFrom := by
  have hitems : ∀ i ∈ frame.items, i.Current ss.freshFrom := h.pool.send frame (by simp [hbuf])
  constructor
  · unfold Session.handOver
    simp only [h.stale, List.nil_append, List.filter_eq_nil_iff]
    intro i hi
    split at hi
    · cases hi
    · rcases hitems i (List.mem_of_mem_drop hi) with hhello | hle
      · simp [hhello]
      · simp [Nat.not_lt.mpr hle]
  · intro i hi
    rw [handOver_sent] at hi
    rcases List.mem_append.mp hi with hi | hi
    · exact h.sent i hi
    · exact hitems i (frame.completed_subset n i hi)

theorem Micro.current (hm : Micro quiet e ss ss') (hb : Base ss)
    (h : Current ss) (hages : ss.Ages ss') : Current ss' := by
  have hpool := hm.pool hb.log hb.copy hb.buf (P := Item.Current ss.freshFrom) (fun _ _ => .inr h.births) h.pool
  obtain ⟨hfrom, hbirths, hwrites⟩ := hages
  have hle : ss'.freshFrom ≤ ss'.births := hfrom ▸ Nat.le_trans h.births hbirths
  cases hwrites with
  | nothing hstale hsent =>
    refine ⟨hfrom ▸ hpool, ?_, hstale.trans h.stale, hle⟩
    rw [hfrom]
    rcases hsent with hsent | hsent <;> rw [hsent]
    · exact h.sent
    · simp
  | head frame rest n hbuf hstale hsent =>
    obtain ⟨hnone, hcurrent⟩ := h.handOver hbuf n
    exact ⟨hfrom ▸ hpool, by rw [hfrom, hsent]; exact hcurrent, hstale.trans hnone, hle⟩

theorem Current.freshForm (hb : Base ss) (hst : ss.state = .handshake) (honly : ss.HelloOnly)
    (rest : List UInt8) (id : BitVec 128) : Current ({ ss with recvbuf := rest }.freshForm id) where
  pool :=
    { send := fun f hf i hi => .inl (honly.send f hf i hi)
      oob := fun f hf i hi => .inl (honly.oob f hf i hi)
      dgram := by
        have : ss.dgrambuf = [] := hb.st.down (by simp [hst])
        show AllItems _ ss.dgrambuf
        rw [this]
        exact .nil
      logged := by simp [Session.freshForm, unackedFreeAll] }
  sent i hi := .inl (honly.sent i hi)
  stale := rfl
  births := Nat.le_refl _

def Session.rejectsResume (ss : Session) : Event → Bool
  | .readable bytes =>
    !ss.accepted && ss.state == .handshake && ss.hasSessionId &&
      match Frame.decode (ss.recvbuf ++ bytes) with
      | none => false
      | some (f, _) =>
        f.version == 0 &&
          match HelloCodec.parse f.payload with
          | none => false
          | some hello => hello.sessionId.isSome && !ss.helloConfirmsResume hello
  | _ => false

def Session.CleanRun (ss : Session) (es : List (Event × Inputs)) : Prop :=
  Along Session.step (fun ss e => ss.rejectsResume e.1 = true → ss.HelloOnly) ss es

omit [HelloCodec] in
theorem Ident.new (accepted tls : Bool) (id : BitVec 128) (maxPayload window : Nat) :
    Ident (Session.new accepted tls id maxPayload window) :=
  ⟨by simp [Session.new], fun _ _ _ => ⟨rfl, .nil, .nil, by simp [Session.new]⟩⟩

omit [HelloCodec] in
theorem Current.new (accepted tls : Bool) (id : BitVec 128) (maxPayload window : Nat) :
    Current (Session.new accepted tls id maxPayload window) :=
  ⟨⟨.nil, .nil, .nil, by simp [Session.new]⟩, by simp [Session.new], rfl, Nat.le_refl _⟩

theorem Micro.waiting {start : Session} (hm : Micro quiet e ss ss')
    (hb : Base ss) (he : e.reads = true) (h : ss.state = .handshake → Awaiting start ss)
    (hst' : ss'.state = .handshake) : Awaiting start ss' := by
  obtain ⟨hst, hacc, hid, hsid, hrecv, honly⟩ := hm.waits hb he hst'
  have h := h hst
  exact ⟨h.state, hacc.trans h.accepted, hid.trans h.hasSessionId, hsid.trans h.sessionId,
    hrecv.trans h.recvbuf, fun hs => honly (h.helloOnly hs)⟩

theorem Awaiting.rejectsResume {s : Session} {f : Frame} {rest : List UInt8}
    {id : BitVec 128} (h : Awaiting (ss.feed e) s) (he : e.reads = true) (ha : s.accepted = false)
    (hid : s.hasSessionId = true) (hdec : Frame.decode s.recvbuf = some (f, rest)) (hversion : f.version = 0)
    (hparse : HelloCodec.parse f.payload = some hello) (hsome : hello.sessionId = some id)
    (hconfirm : s.helloConfirmsResume hello = false) : ss.rejectsResume e = true := by
  cases e with
  | readable bytes =>
    obtain ⟨hstate, hacc, hhas, hsid, hrecv, -⟩ := h
    have hst : ss.state = .handshake := by
      unfold feed at hstate
      dsimp only at hstate
      split at hstate <;> exact hstate
    have hfeed : ss.feed (.readable bytes) = ss.fed bytes := if_pos (.inl hst)
    rw [hfeed] at hacc hhas hsid hrecv
    have hdec' : Frame.decode (ss.recvbuf ++ bytes) = some (f, rest) := by
      rw [← hdec, hrecv]
      rfl
    have hconfirm' : ss.helloConfirmsResume hello = false := by
      rw [helloConfirmsResume, hhas, hsid] at hconfirm
      exact hconfirm
    have hacc' : ss.accepted = false := hacc.symm.trans ha
    have hhas' : ss.hasSessionId = true := hhas.symm.trans hid
    simp [Session.rejectsResume, hacc', hst, hhas', hdec', hversion, hparse, hsome, hconfirm']
  | _ => cases he

theorem Current.step (hb : Base ss) (hi : Ident ss) (hc : Current ss) (e : Event × Inputs)
    (hclean : ss.rejectsResume e.1 = true → ss.HelloOnly) : Ident (ss.step e) ∧ Current (ss.step e) := by
  have hfeed : (ss.HelloOnly → (ss.feed e.1).HelloOnly) ∧ Ident (ss.feed e.1) ∧ Current (ss.feed e.1) := by
    unfold feed
    split
    · split
      · refine ⟨fun h => { h with }, ⟨hi.known, fun ha hid hst => ⟨(hi.blank ha hid hst).1, ?_⟩⟩,
          { hc with pool := { hc.pool with } }⟩
        have honly := (hi.blank ha hid hst).2
        exact { honly with }
      · exact ⟨id, hi, hc⟩
    · exact ⟨id, hi, hc⟩
  -- within one event, what is queued before the hello is read is what was queued when it arrived
  have hsteps := step_steps (q := false) hb e (by simp)
  refine (reflTransGen_invariant (fun s => Base s ∧ Ident s ∧ Current s ∧
    (e.1.reads = true → s.state = .handshake → Awaiting (ss.feed e.1) s)) ?_ hsteps ?_).2.imp_right And.left
  · intro s s' hm ⟨hbs, his, hcs, hws⟩
    refine ⟨hm.base hbs, hm.ident hbs his, ?_, fun he => hm.waiting hbs he (hws he)⟩
    rcases hm.ages hbs with hages | ⟨f, rest, hello, id, he, ha, hst, hdec, hversion, hparse, hid, hconfirm, rfl⟩
    · exact hm.current hbs hcs hages
    · refine .freshForm hbs hst ?_ rest id
      have hw := hws he hst
      cases hhas : s.hasSessionId with
      | false => exact (his.blank ha hhas (.inr (.inr hst))).2
      | true =>
        exact hw.helloOnly (hfeed.1 (hclean
          (hw.rejectsResume he ha hhas hdec hversion hparse hid hconfirm)))
  · exact ⟨Base.feed hb e.1, hfeed.2.1, hfeed.2.2,
      fun _ hst => ⟨hst, rfl, rfl, rfl, rfl, id⟩⟩

theorem Current.run {es : List (Event × Inputs)} (hb : Base ss) (hi : Ident ss)
    (hc : Current ss) (hclean : ss.CleanRun es) : Current (ss.run es) :=
  (runFrom_invariant (fun s => Base s ∧ Ident s ∧ Current s)
    (fun _ e h hclean => ⟨h.1.step e, Current.step h.1 h.2.1 h.2.2 e hclean⟩) ⟨hb, hi, hc⟩ hclean).2.2

structure Session.StartsEmpty (ss : Session) : Prop where
  ring : ss.ring = []
  logged : ss.logged = []
  frames : ss.frames = 0
  bytes : ss.bytes = 0
  partialOffset : ss.partialOffset = 0
  recvSeq : ss.recvSeq = 0
  unreported : ss.unreported = 0
  lastAckRecv : ss.lastAckRecv = 0
  stalled : ss.stalled = false
  retransmitOff : ss.retransmitOff = none
  retransmittedFrames : ss.retransmittedFrames = 0
  retransmitCopy : ss.retransmitCopy = false
  streams : ss.streams = some []
  processed : ss.processed = []
  freshFrom : ss.freshFrom = ss.births

theorem Session.processHello_startsEmpty {f : Frame} (ha : ss.accepted = false) (hst : ss.state = .handshake)
    (hparse : HelloCodec.parse f.payload = some hello) (hconfirm : ss.helloConfirmsResume hello = false)
    (hest : (ss.processHello f).state = .established) : (ss.processHello f).StartsEmpty := by
  have hreset (s : Session) (hs : s.state ≠ .closed) : s.reset.state ≠ .established := by
    rw [(reset_closedTo hs).state]
    simp
  have hopen : ss.state ≠ .closed := by simp [hst]
  unfold processHello at *
  rw [if_neg (by simp [hst])] at *
  split at hest
  · exact absurd hest (hreset ss hopen)
  next hflags =>
  rw [if_neg hflags]
  rw [hparse] at *
  dsimp only at *
  split at hest
  · exact absurd hest (hreset ss hopen)
  next hserver =>
  rw [if_neg hserver]
  have heq := (ss.ask_aux true).eq
  generalize ss.ask true = answer at *
  obtain ⟨verified, s⟩ := answer
  have hs : s.state ≠ .closed := by
    rw [show s = _ from heq]
    exact hopen
  have hacc : s.accepted = false := by
    rw [show s = _ from heq]
    exact ha
  have hconf : s.helloConfirmsResume hello = false := by
    rw [show s = _ from heq]
    exact hconfirm
  dsimp only at *
  cases verified with
  | false => exact absurd hest (hreset s hs)
  | true =>
    rw [if_neg (by simp), hacc, if_neg (by simp), processHelloClient] at *
    split at hest
    · exact absurd hest (hreset s hs)
    next id hid =>
    rw [hconf, if_neg (by simp)] at *
    rcases handshakeClientFresh_cases s id hs with ⟨ss', hfresh, hclosed⟩ | ⟨ss', hfresh, haux⟩
    · rw [hfresh] at hest
      exact absurd hest (by rw [helloDone, hclosed.state]; simp)
    · rw [hfresh]
      have hdone := (haux.startReplay.trans (helloDone_true_aux ss')).eq
      rw [hdone]
      exact ⟨rfl, rfl, rfl, rfl, rfl, rfl, rfl, rfl, rfl, rfl, rfl, rfl, rfl, rfl, rfl⟩

/-- When every hello that refuses a resume finds nothing but the hello of this side, nothing of an older
logical session is ever written in a later one; and a fresh session starts empty in any case. -/
theorem fresh_session_cleanRun (tls : Bool) (id : BitVec 128) (maxPayload window : Nat)
    (es : List (Event × Inputs)) (hclean : (Session.new false tls id maxPayload window).CleanRun es) :
    let ss := (Session.new false tls id maxPayload window).run es
    ss.stale = [] ∧ (∀ i ∈ ss.sent, i.isHello = true ∨ ss.freshFrom ≤ i.birth) ∧
      ∀ f hello, ss.accepted = false → ss.state = .handshake → HelloCodec.parse f.payload = some hello →
        ss.helloConfirmsResume hello = false → (ss.processHello f).state = .established →
          (ss.processHello f).StartsEmpty := by
  intro ss
  have hc : Current ss := .run (.new false tls id maxPayload window) (.new false tls id maxPayload window)
    (.new false tls id maxPayload window) hclean
  exact ⟨hc.stale, hc.sent, fun _ _ ha hst hparse hconfirm hest =>
    processHello_startsEmpty ha hst hparse hconfirm hest⟩

end Runs

section Scenario

attribute [local instance] plainHelloCodec

def abortThenReject : List (Event × Inputs) :=
  openedThenLost ++ [(.attachFd, {}), (.connected true, {}), (.writable, freely)] ++ aborted 1 ++
    [(.readable (serverHello 8 0), {}), (.writable, freely)]

def redialThenReject : List (Event × Inputs) :=
  openedThenLost ++
    [(.attachFd, {}), (.connected true, {}), (.writable, freely), (.readable (serverHello 8 0), {}),
      (.stream [.opened 1], {})] ++ aborted 1 ++ [(.writable, freely)]

theorem fresh_session_redialThenReject :
    dialedSession.CleanRun redialThenReject ∧ (dialedSession.run redialThenReject).stale = [] ∧
      (dialedSession.run redialThenReject).sent.length = 2 :=
  have hclean : dialedSession.CleanRun redialThenReject := by
    unfold CleanRun
    decide
  ⟨hclean, (fresh_session_cleanRun false 0 1016 16 redialThenReject hclean).1, by decide⟩

/-- The RST of a stream of the old session is written after the fresh one was established. -/
theorem abortThenReject_writes_old_rst :
    let ss := dialedSession.run abortThenReject
    ss.state = .established ∧ ss.sessionId = 8 ∧ ss.streams = some [] ∧
      ss.sent.map (fun i => (i.isHello, i.frame.flags, decide (i.birth < ss.freshFrom))) =
        [(true, 0, true), (false, flagRst, true)] := by
  decide

end Scenario

end Multiplexd
