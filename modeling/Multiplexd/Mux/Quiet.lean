import Multiplexd.Mux.Callbacks
import Multiplexd.Mux.Order

/-!
# Quiet runs

`Order` along whole runs: every elementary step of a quiet run keeps it.
-/

namespace Multiplexd

variable [HelloCodec]

namespace Order

variable {ss ss' : Session}

theorem staging_of_nil (hb : Base ss) (hbuf : ss.sendbuf = []) : ss.sendbufStaging = false := by
  by_contra hs
  obtain ⟨_, htail, -⟩ := hb.buf.staging (by simpa using hs)
  simp [hbuf] at htail

theorem out_of_nil (hb : Base ss) (hst : ss.state.attached) (hsent : ss.sent = []) (hbuf : ss.sendbuf = []) :
    ss.out = [] := by
  rw [hb.aligned hst, hsent, hbuf]
  rfl

theorem idle (h : Order ss) (hb : Base ss) (hst : ss.state = .init ∨ ss.state = .closed)
    {st : SessionState} (hlead : Lead st ss.accepted ss.ownHello [] [] false) (hest : st ≠ .established)
    (hsusp : st ≠ .suspended) : Order { ss with out := [], sent := [], sendBlocked := false, state := st } := by
  obtain ⟨hsend, -⟩ := hb.st.idle hst
  have hstaging := staging_of_nil hb hsend
  exact
    { past := h.past.fresh
      stock := fun b => by
        have := h.stock b
        simp only [Session.stock, List.filter_nil, tally_nil] at this ⊢
        omega
      oob := h.oob
      dgram := h.dgram
      lead := by
        rw [hsend, hstaging]
        exact hlead
      aside := h.aside
      rest := fun hs => absurd hs hsusp
      cut := h.cut
      inOrder := fun hs => absurd hs hest }

variable {off count : Nat} {frame : MuxFrame} {rest : List MuxFrame}

theorem resent_of_end (hb : Base ss) (hoff : ss.retransmitOff = some off)
    (hlen : ss.ring.length ≤ off) : ss.resent = ss.frames := by
  have hcopy : ss.retransmitCopy = false := by
    by_contra hc
    have hcopy := hb.copy
    rw [Session.CopyInv, show ss.retransmitCopy = true by simpa using hc] at hcopy
    obtain ⟨k, orig, _, _, hk, horig, -⟩ := hcopy
    obtain rfl : off = k := by simpa [hoff] using hk
    have := (List.getElem?_eq_some_iff.mp horig).1
    omega
  obtain ⟨-, hret⟩ := hb.log.replay off hoff
  rw [List.take_of_length_le hlen, ← hb.log.frames_eq] at hret
  simp [Session.resent, Session.replayBound, hoff, hcopy, hret]

theorem replayed (h : Order ss) (hb : Base ss) (hst : ss.state = .established)
    (hoff : ss.retransmitOff = some off) (hlen : ss.ring.length ≤ off) : Order (ss.setReplayOff none) := by
  refine h.setReplayOff none (by simp) (by simp [hst]) fun _ => ?_
  have := h.inOrder hst
  rw [resent_of_end hb hoff hlen] at this
  exact this

/-- The next entry of the log is replayed. -/
theorem queueCopy (h : Order ss) (hb : Base ss) {orig : MuxFrame} (hst : ss.state = .established)
    (hoff : ss.retransmitOff = some off) (horig : ss.ring[off]? = some orig)
    (hcopy : ss.retransmitCopy = false) (hsent : ss.sent ≠ [] ∨ ss.sendbuf = []) :
    Order (ss.queueCopy off orig) := by
  have hitems : ∀ i ∈ itemsFrom orig.items (if off = 0 then ss.partialOffset else 0), i.isHello = false := by
    rw [Session.copyItems_eq hb.log horig]
    intro i hi
    have hmem : i ∈ ringLive ss.ring :=
      List.mem_flatMap.mpr ⟨orig, List.mem_of_getElem? horig, hi⟩
    rw [← hb.log.live_eq] at hmem
    exact Item.isHello_of_tracked (hb.pool.logged i (List.mem_of_mem_drop hmem))
      (hb.log.tracked orig (List.mem_of_getElem? horig) i (List.mem_of_mem_drop hi))
  exact
    { past := h.past
      stock := h.stock
      oob := h.oob
      dgram := h.dgram
      lead := by
        have hlead := h.lead
        rw [hst] at hlead
        show Lead ss.state ss.accepted ss.ownHello ss.sent (_ :: ss.sendbuf) ss.sendbufStaging
        rw [hst]
        have hled : Led ss.ownHello ss.sent ss.sendbuf ss.sendbufStaging := hlead
        generalize ss.sent = sent at *
        generalize ss.sendbuf = sendbuf at *
        cases hled with
        | writing => simp at hsent
        | written hown hothers hbuf => exact .written hown hothers (.cons hitems hbuf)
      aside := fun hoff f hf hc => by
        rcases List.mem_cons.mp hf with rfl | hf
        · cases hc
        · exact h.aside hoff f hf hc
      rest := by simp [Session.queueCopy, hst]
      cut := fun f hf => by
        obtain rfl := Option.some.inj hf
        intro i hi
        simp [MuxFrame.complete, wholeItems] at hi
      inOrder := fun hest => by
        have hresent : (ss.queueCopy off orig).resent = ss.resent := by
          simp [Session.resent, Session.queueCopy, Session.replayBound, hoff, hcopy]
        have hin := h.inOrder hest
        rw [← hresent] at hin
        exact hin }

omit [HelloCodec] in
theorem acks_ring_nil (hlog : ss.LogInv) (hacks : ss.Acks count ss') (h : ss.ring = []) : ss'.ring = [] := by
  have hframes := hacks.frames_eq hlog
  have hlog' : LogOk _ _ _ _ _ _ _ _ := hacks.2
  have hempty : ss.frames = 0 := by rw [hlog.frames_eq, h, ringCount_nil]
  cases hring : ss'.ring with
  | nil => rfl
  | cons f fs =>
    have hpos := hlog'.pos f (by simp [hring])
    have hcount := hlog'.frames_eq
    rw [hring, ringCount_cons] at hcount
    omega

theorem acksRewind (h : Order ss) (hacks : ss.Acks count ss')
    (haside : ss'.ring ≠ [] → ∀ f ∈ ss.sendbuf, f.isCopy = false → ∀ i ∈ f.items, i.tracked = false)
    (hst : ss.state ≠ .established) : Order ss'.rewindReplay := by
  have hring (hsome : ss'.rewindReplay.retransmitOff.isSome) : ss'.ring ≠ [] := by
    rintro hnil
    simp [Session.rewindReplay, Session.setReplayOff, hnil] at hsome
  have hrest := rewindReplay_none (s := ss')
  obtain ⟨⟨_, _, _, _, _, _, _, _, _, rfl⟩, -⟩ := hacks
  exact { h with
    aside := fun hsome => haside (hring hsome), rest := fun _ => hrest, inOrder := fun hest => absurd hest hst }

theorem led_of_handshake (h : Order ss) (hst : ss.state = .handshake) (ha : ss.accepted = false) :
    Led ss.ownHello ss.sent ss.sendbuf ss.sendbufStaging := by
  have hlead := h.lead
  rw [hst] at hlead
  simp only [Lead, ha, Bool.false_eq_true, if_false] at hlead
  exact hlead.1

/-- The handshake of a dialed session is done. -/
theorem established (h : Order ss) (hst : ss.state = .handshake) (ha : ss.accepted = false) :
    Order { ss with state := .established } :=
  ⟨h.past, h.stock, h.oob, h.dgram, h.led_of_handshake hst ha, h.aside, by simp, h.cut, fun _ => by
    show ss.sent.filter Item.tracked <:+ _
    rw [(h.hello_only hst).2]
    exact List.nil_suffix⟩

theorem freshForm (h : Order ss) (hst : ss.state = .handshake) (ha : ss.accepted = false) (id : BitVec 128) :
    Order (ss.freshForm id) where
  __ := h
  stock b := by
    have := h.stock b
    show tally b (ss.sent.filter fun i => !i.tracked) + tally b [] + tally b (queued ss.sendbuf) +
      tally b (held ss.oobbuf) + tally b (held ss.dgrambuf) ≤ _
    simp only [Session.stock] at this
    rw [tally_nil]
    exact Nat.le_trans (by omega) this
  lead := h.led_of_handshake hst ha
  aside := by simp [Session.freshForm, Session.unackedFreeAll]
  rest := by simp [Session.freshForm]
  inOrder _ := by
    show ss.sent.filter Item.tracked <:+ _
    rw [(h.hello_only hst).2]
    exact List.nil_suffix

theorem forget (h : Order ss) (hst : ss.state = .closed) : Order { ss with out := [], sent := [] } where
  __ := h
  past := h.past.fresh
  stock b := by
    have := h.stock b
    simp only [Session.stock, List.filter_nil, tally_nil] at this ⊢
    omega
  lead := by
    have hlead := h.lead
    rw [hst] at hlead
    show Lead ss.state _ _ _ _ _
    rw [hst]
    exact hlead
  inOrder hest := absurd hest (by simp [hst])

theorem closing (h : Order ss) (known : Bool) :
    Order { ss.discardBuffers.unackedFreeAll with hasSessionId := known, state := .closing } where
  past := h.past
  stock := h.past.spent
  oob := .nil
  dgram := .nil
  lead := show AllItems _ [] from .nil
  aside := by simp [Session.unackedFreeAll]
  rest := by simp
  cut := by simp [Session.unackedFreeAll, Session.discardBuffers]
  inOrder := by simp

theorem pushHello_untracked {server incl : Bool} (hbuf : ss.sendbuf = []) :
    ∀ f ∈ (ss.pushHello server incl).sendbuf, ∀ i ∈ f.items, i.tracked = false := by
  intro f hf i hi
  rw [Session.pushHello, hbuf, List.nil_append, List.mem_singleton] at hf
  rw [hf, List.mem_singleton] at hi
  have hown : OwnHello (some (ss.hello server incl)) i := ⟨_, rfl, by rw [hi]; rfl⟩
  exact hown.tracked

/-- An accepted session answers a hello. -/
theorem answered (h : Order ss) (hout : ss.out = []) (hsent : ss.sent = []) (hbuf : ss.sendbuf = [])
    (hstaging : ss.sendbufStaging = false) (ha : ss.accepted = true) (incl : Bool) :
    Order ({ ss with state := .established }.pushHello true incl).startReplay := by
  refine (h.pushHello hout hsent hbuf hstaging ha.symm incl (.inr rfl)).startReplay rfl (pushHello_untracked hbuf) ?_
  show ss.sent.filter Item.tracked = []
  rw [hsent]
  rfl

/-- A frame goes onto the out-of-band list. -/
theorem oobPush (h : Order ss) {f : Frame} (hv : f.version = protocolVersion) :
    Order { ss with births := ss.births + 1, oobbuf := ss.oobbuf ++ [ss.newFrame f] } where
  __ := h
  past := h.past.mono
  stock b := by
    have := h.stock b
    have hnew := tally_newFrame ss f b
    simp only [Session.stock, held_append, held_cons, held_nil, List.append_nil, tally_append] at this ⊢
    rw [← births_succ, hnew]
    omega
  oob := h.oob.append fun i hi => by
    rw [List.mem_singleton.mp hi]
    simp [Item.isHello, hv, protocolVersion]

/-- A datagram is queued. -/
theorem dgramPush (h : Order ss) {f : Frame} (hv : f.version = protocolVersion)
    (hid : f.streamId = streamIdCtrl) :
    Order { ss with births := ss.births + 1, dgrambuf := ss.dgrambuf ++ [ss.newFrame f] } where
  __ := h
  past := h.past.mono
  stock b := by
    have := h.stock b
    have hnew := tally_newFrame ss f b
    simp only [Session.stock, held_append, held_cons, held_nil, List.append_nil, tally_append] at this ⊢
    rw [← births_succ, hnew]
    omega
  dgram := h.dgram.append fun i hi => by
    rw [List.mem_singleton.mp hi]
    simp [Item.isHello, Item.tracked, hv, hid, protocolVersion]

theorem ackEmitted (h : Order ss) (n : Nat) : Order (ss.ackEmitted n) :=
  { h with }

/-- The staging entry is closed. -/
theorem freezeHead (h : Order ss) (rest : List MuxFrame) : Order (ss.freezeHead rest) := by
  unfold Session.freezeHead
  split
  · refine { h with lead := ?_ }
    have hled (hl : Led ss.ownHello ss.sent ss.sendbuf ss.sendbufStaging) :
        Led ss.ownHello ss.sent ss.sendbuf false := by
      generalize ss.sent = sent at *
      generalize ss.sendbuf = sendbuf at *
      cases hl with
      | writing hown hitems hcopy _ hrest => exact .writing hown hitems hcopy (by simp) hrest
      | written hown hothers hbuf => exact .written hown hothers hbuf
    have hlead := h.lead
    show Lead ss.state ss.accepted ss.ownHello ss.sent ss.sendbuf false
    cases hst : ss.state with
    | connect =>
      rw [hst] at hlead
      exact hlead
    | handshake =>
      rw [hst] at hlead
      unfold Lead at hlead ⊢
      dsimp only at hlead ⊢
      split at hlead
      next ha => rwa [if_pos ha]
      next ha =>
        rw [if_neg ha]
        exact ⟨hled hlead.1, hlead.2⟩
    | established =>
      rw [hst] at hlead
      exact hled hlead
    | init | suspended | closing | closeWait | closed =>
      rw [hst] at hlead
      exact hlead
  · exact h

/-- An out-of-band frame is staged. -/
theorem stageOob (h : Order ss) (hb : Base ss)
    (hst : ss.state = .established) (hoff : ss.retransmitOff = none) (hbuf : ss.oobbuf = frame :: rest) :
    Order ({ ss with oobbuf := rest }.sendbufPush frame) := by
  have hoob := h.oob
  have hwait := hb.buf.oob
  rw [hbuf] at hoob hwait
  have hstock (b : Nat) : { ss with oobbuf := rest }.stock b + tally b frame.items = ss.stock b := by
    simp only [Session.stock, hbuf, held_cons, tally_append]
    omega
  have h' : Order { ss with oobbuf := rest } :=
    { h with
      stock := fun b => Nat.le_trans (Nat.le_of_add_right_le (Nat.le_of_eq (hstock b))) (h.stock b)
      oob := hoob.tail }
  refine h'.sendbufPush { hb.buf with oob := fun f hf => hwait f (List.mem_cons_of_mem _ hf) }
    (fun b => (hstock b).symm ▸ h.stock b) (by simp [hst]) (hwait frame List.mem_cons_self).isCopy_eq
    hoob.head (by simp [hoff])

/-- A datagram is staged. -/
theorem stageDgram (h : Order ss) (hb : Base ss)
    (hst : ss.state = .established) (hbuf : ss.dgrambuf = frame :: rest) :
    Order ({ ss with dgrambuf := rest }.sendbufPush frame) := by
  have hdgram := h.dgram
  have hwait := hb.buf.dgram
  rw [hbuf] at hdgram hwait
  have hstock (b : Nat) : { ss with dgrambuf := rest }.stock b + tally b frame.items = ss.stock b := by
    simp only [Session.stock, hbuf, held_cons, tally_append]
    omega
  have h' : Order { ss with dgrambuf := rest } :=
    { h with
      stock := fun b => Nat.le_trans (Nat.le_of_add_right_le (Nat.le_of_eq (hstock b))) (h.stock b)
      dgram := hdgram.tail }
  refine h'.sendbufPush { hb.buf with dgram := fun f hf => hwait f (List.mem_cons_of_mem _ hf) }
    (fun b => (hstock b).symm ▸ h.stock b) (by simp [hst]) (hwait frame List.mem_cons_self).isCopy_eq
    (fun i hi => (hdgram.head i hi).1) fun _ i hi => (hdgram.head i hi).2

end Order

/-- Every elementary step of a quiet run keeps the order. -/
theorem Micro.order {e : Event} {ss ss' : Session} (hm : Micro true e ss ss') (hb : Base ss) (h : Order ss) :
    Order ss' := by
  cases hm with
  | aux | table | recvOther | recvStream => exact { h with }
  | closed => exact .closedForm h.past
  | forget n he hst => exact h.forget hst
  | closing known hst => exact h.closing known
  | closeWait hst =>
    have hlead := h.lead
    rw [hst] at hlead
    exact { h with lead := hlead, rest := by simp, inOrder := by simp }
  | suspend hst =>
    refine .suspend h.past hb.copy hb.buf h.cut fun b => ?_
    have := h.stock b
    have hle := tally_filter_le b Item.tracked (queued ss.sendbuf)
    simp only [Session.stock] at this
    omega
  | install he ha hst => exact h.idle hb hst ⟨rfl, rfl⟩ (by simp) (by simp)
  | attach he ha hst hopen => exact h.attach hb hst hopen _ ⟨rfl, rfl⟩ (.inl rfl)
  | dialed he ha hst =>
    have hlead := h.lead
    rw [hst] at hlead
    have hout := Order.out_of_nil hb (by simp [hst, SessionState.attached]) hlead.1 hlead.2
    exact h.pushHello hout hlead.1 hlead.2 (Order.staging_of_nil hb hlead.2) ha.symm ss.hasSessionId (.inl ⟨rfl, ha⟩)
  | accepted he ha hst => exact h.idle hb (.inl hst) (by simp [Lead, ha]) (by simp) (by simp)
  | helloServer f rest _ ha hst =>
    have hlead := h.lead
    simp only [hst, Lead, ha, if_true] at hlead
    have h' : Order { ss with recvbuf := rest } := { h with }
    have hstaging := Order.staging_of_nil hb hlead.2
    have hout := Order.out_of_nil hb (by simp [hst, SessionState.attached]) hlead.1 hlead.2
    exact h'.answered hout hlead.1 hlead.2 hstaging ha false
  | helloResume ss1 f rest hello _ ha hst _ _ _ _ hack =>
    have h' : Order { ss with recvbuf := rest } := { h with }
    obtain ⟨count, ss2, -, hacks, -, rfl⟩ :=
      Session.resumeAckRecv_spec (s := { ss with recvbuf := rest }) hb.log hack
    have hr := h'.acksRewind hacks (fun _ f hf _ => (h'.hello_only hst).1 f hf) (by simp [hst])
    have hst2 : ss2.rewindReplay.state = .handshake := hacks.fields.1.trans hst
    have honly := hr.hello_only hst2
    exact (hr.established hst2 (hacks.accepted.trans ha)).startReplay rfl honly.1 honly.2
  | helloReject ss1 f rest hello _ ha hst _ _ _ _ hack =>
    obtain ⟨count, ⟨_, _, _, _, _, _, _, _, _, rfl⟩, -⟩ :=
      Session.resumeAckRecv_false (s := { ss with recvbuf := rest }) hb.log hack
    exact .closedForm h.past
  | helloFresh f rest hello id _ ha hst =>
    have h' : Order { ss with recvbuf := rest } := { h with }
    exact h'.freshForm hst ha id
  | resumeTrim _ n he hst hack =>
    obtain ⟨count, ss1, -, hacks, -, rfl⟩ := Session.resumeAckRecv_spec hb.log hack
    refine h.acksRewind hacks (fun hring => h.aside ?_) (by simp [hst])
    by_contra hnone
    exact hring (Order.acks_ring_nil hb.log hacks (h.rest hst (by simpa using hnone)))
  | resumeReject ss1 n he hst hack =>
    obtain ⟨count, ⟨_, _, _, _, _, _, _, _, _, rfl⟩, -⟩ := Session.resumeAckRecv_false hb.log hack
    exact .closedForm h.past
  | resumeInstall n he ha hst hopen =>
    have hc := Session.captureAndDiscard_open (by simp [hst]) hopen
    have h' := h.attach hb hst hopen .handshake (by simp [Lead, ha]) (.inr rfl)
    exact h'.answered rfl rfl hc.sendbuf hc.sendbufStaging (hc.accepted.trans ha) true
  | push f hv hid hoff hst hq => exact h.push hb.buf hv (hq (.inl rfl)) (by simp [hoff])
  | park f hv | oob f hv => exact h.oobPush hv
  | dgram f hv hid => exact h.dgramPush hv hid
  | ack hst => exact (h.push hb.buf rfl (by simp [hst]) fun _ => rfl).ackEmitted _
  | discard id hid => exact h.discard hb.buf hid
  | freeze frame rest hbuf => exact h.freezeHead rest
  | fail frame rest n hst hbuf =>
    refine Order.suspend (s := ss.handOver frame n) (h.handOver_past hb hst hbuf n) hb.copy hb.buf h.cut
      fun b => ?_
    have := (h.completed_le hb hst hbuf n b).2
    rw [Session.handOver_sent, List.filter_append, tally_append]
    show _ + tally b ss.logged + tally b ((queued ss.sendbuf).filter Item.tracked) +
      tally b (held ss.oobbuf) ≤ if b < ss.births then 1 else 0
    omega
  | failClosed frame rest n hst hbuf => exact .closedForm (h.handOver_past hb hst hbuf n)
  | flushPart frame rest n hst hbuf hlen => exact h.flushPart hb hst hbuf hlen
  | flushFull frame rest n hst hbuf hlen => exact h.flushFull hb hst hbuf hlen
  | copy off orig hst hoff horig hcopy hpos hsent => exact h.queueCopy hb hst hoff horig hcopy hsent
  | replayed off hst hoff hlen => exact h.replayed hb hst hoff hlen
  | stageOob frame rest hst hoff hbuf => exact h.stageOob hb hst hoff hbuf
  | stageDgram frame rest hst hbuf => exact h.stageDgram hb hst hbuf
  | recvAck _ f rest unstalled hst _ _ _ _ hack =>
    have h' : Order { ss with recvbuf := rest } := { h with }
    obtain ⟨-, hacks, -, hresent, hoff⟩ :=
      Session.ackRecv_spec (s := { ss with recvbuf := rest }) hb.log hb.copy hack
    refine h'.acks hacks (fun hsome => h.aside ?_) (by simp [hst]) fun _ => hresent
    by_contra hnone
    rw [hoff (by simpa using hnone)] at hsome
    cases hsome
  | ackReject => exact .closedForm h.past

end Multiplexd
