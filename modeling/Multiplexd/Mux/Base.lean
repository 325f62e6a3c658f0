import Multiplexd.Mux.Pool

/-!
# What holds of every session

`Base` holds in every state of every run, whatever the peer, the network and the streams do: the log
agrees with its history, the buffers are well formed, and the transport has been given whole frames and
the written part of the one at the head of the send buffer.
-/

namespace Multiplexd

open Session

/-- A transport is being dialed or used. -/
def SessionState.attached (st : SessionState) : Prop :=
  st = .connect ∨ st = .handshake ∨ st = .established

/-- Frames may be queued. -/
def SessionState.open (st : SessionState) : Prop := st ≠ .init ∧ st ≠ .closed

/-- What the state of a session says about its buffers. -/
structure StateOk (state : SessionState) (streams : Option (List UInt16))
    (sendbuf oobbuf dgrambuf ring : List MuxFrame) (off : Option Nat) (copy : Bool) : Prop where
  idle : state = .init ∨ state = .closed →
    sendbuf = [] ∧ oobbuf = [] ∧ dgrambuf = [] ∧ streams.getD [] = [] ∧ ring = [] ∧ off = none
  down : state = .connect ∨ state = .handshake ∨ state = .suspended → dgrambuf = []
  copy : copy = true → state = .established
  unwritten : state = .suspended ∨ state = .connect → ∀ f ∈ sendbuf, f.pos = 0

/-- What is logged, replayed or held back does not matter to a session that is not idle. -/
theorem StateOk.inert {state : SessionState} {streams : Option (List UInt16)}
    {sendbuf oobbuf oobbuf' dgrambuf ring ring' : List MuxFrame} {off off' : Option Nat} {copy : Bool}
    (h : StateOk state streams sendbuf oobbuf dgrambuf ring off copy) (hopen : state.open) :
    StateOk state streams sendbuf oobbuf' dgrambuf ring' off' copy :=
  { h with idle := fun hidle => absurd hidle (by simp [hopen.1, hopen.2]) }

/-- The bytes handed over are whole frames and a proper prefix of another. -/
def Framed (out : List UInt8) (sent : List Item) : Prop :=
  ∃ part, out = itemBytes sent ++ part ∧ (part = [] ∨ ∃ f : Frame, part <+: f.encode ∧ part ≠ f.encode)

variable {out : List UInt8} {sent : List Item}

theorem Framed.of_torn {items : List Item} {n : Nat}
    (h : out = itemBytes sent ++ frameCode.torn (items.map Item.frame) n) : Framed out sent :=
  ⟨_, h, frameCode.torn_prefix _ _⟩

theorem Framed.of_tornPart {sendbuf : List MuxFrame}
    (h : out = itemBytes sent ++ tornPart sendbuf) : Framed out sent := by
  cases sendbuf with
  | nil => exact ⟨[], h, .inl rfl⟩
  | cons f fs => exact .of_torn h

theorem Framed.nil : Framed [] [] := ⟨[], rfl, .inl rfl⟩

/-- Log, replay copy, buffers and transport agree with one another and with the state. -/
structure Layout (ss : Session) : Prop where
  log : ss.LogInv
  copy : ss.CopyInv
  buf : BufOk ss.sendbuf ss.oobbuf ss.dgrambuf ss.sendbufStaging
  st : StateOk ss.state ss.streams ss.sendbuf ss.oobbuf ss.dgrambuf ss.ring ss.retransmitOff
    ss.retransmitCopy
  framed : Framed ss.out ss.sent
  aligned : ss.state.attached → ss.out = itemBytes ss.sent ++ tornPart ss.sendbuf

namespace Session

variable {ring : List MuxFrame} {off : Option Nat} {ss' ss : Session} {items : List Item}

theorem logOk_entries {logged : List Item} {acked : Nat}
    {frames bytes partialOffset : Nat} {retransmitted : Nat} (entries : List MuxFrame)
    (h : LogOk logged acked ring frames bytes partialOffset off retransmitted) (hentries : ∀ f ∈ entries,
      f.items ≠ [] ∧ (∀ i ∈ f.items, i.tracked) ∧ f.unackedCount = f.items.length) :
    LogOk (logged ++ entries.flatMap MuxFrame.items) acked (ring ++ entries)
      (frames + (entries.flatMap MuxFrame.items).length)
      (bytes + itemsPayload (entries.flatMap MuxFrame.items)) partialOffset off retransmitted := by
  induction entries generalizing logged ring frames bytes with
  | nil => simpa using h
  | cons f fs ih =>
    obtain ⟨hne, htracked, hcount⟩ := hentries f List.mem_cons_self
    have := ih (h.push hne htracked hcount) fun g hg => hentries g (List.mem_cons_of_mem _ hg)
    simpa [List.append_assoc, Nat.add_assoc] using this

theorem Logs.logInv {s : Session} (h : s.Logs items ss') (hlog : s.LogInv) : ss'.LogInv := by
  obtain ⟨entries, stalled, allocs, hentries, rfl, rfl⟩ := h
  exact logOk_entries entries hlog hentries

theorem copyOk_entries {copy : Bool} {copyCount copySent : Nat}
    {sendbuf : List MuxFrame} (entries : List MuxFrame) (h : CopyOk ring off copy copyCount copySent sendbuf) :
    CopyOk (ring ++ entries) off copy copyCount copySent sendbuf := by
  induction entries generalizing ring with
  | nil => simpa using h
  | cons f fs ih =>
    have := ih (h.ring_append f)
    simpa [List.append_assoc] using this

theorem Logs.copyInv (h : ss.Logs items ss') (hcopy : ss.CopyInv) : ss'.CopyInv := by
  obtain ⟨entries, stalled, allocs, hentries, rfl, rfl⟩ := h
  exact copyOk_entries entries hcopy

theorem startReplay_logInv (h : ss.LogInv) : ss.startReplay.LogInv := by
  unfold startReplay
  split
  · exact h
  · exact LogOk.rewind h

end Session

namespace Layout

variable {ss ss' : Session}

theorem closedForm (hframed : Framed ss.out ss.sent) : Layout ss.closedForm where
  log := .nil
  copy := CopyOk.of_false rfl (by simp [Session.closedForm, cleanup, discardBuffers,
    unackedFreeAll])
  buf := .empty
  st :=
    { idle := fun _ => ⟨rfl, rfl, rfl, rfl, rfl, rfl⟩
      down := by simp [Session.closedForm]
      copy := by simp [Session.closedForm, cleanup, unackedFreeAll]
      unwritten := by simp [Session.closedForm] }
  framed := hframed
  aligned := by simp [Session.closedForm, SessionState.attached]

theorem closedTo (h : ss.ClosedTo ss') (hframed : Framed ss.out ss.sent) : Layout ss' := by
  obtain ⟨_, _, _, rfl⟩ := h
  have := closedForm hframed
  exact { this with }

/-- `mux_session_suspend`, after any write. -/
theorem suspend {s : Session} (hlog : s.LogInv) (hframed : Framed s.out s.sent) : Layout s.suspend := by
  rcases s.suspend_spec with ⟨events, peerKnown, ss1, hlogs, heq⟩ | hclosed
  · rw [heq]
    have hlog1 : ss1.LogInv := hlogs.logInv (s := s.detached .suspended events peerKnown) hlog
    obtain ⟨entries, stalled, allocs, hentries, hitems, rfl⟩ := hlogs
    exact
      { log := rewindReplay_logInv hlog1
        copy := CopyOk.of_false rfl (by simp [Session.rewindReplay, setReplayOff,
          detached, discardBuffers])
        buf := .empty
        st :=
          { idle := by simp [Session.rewindReplay, setReplayOff, detached]
            down := fun _ => rfl
            copy := by simp [Session.rewindReplay, setReplayOff, detached]
            unwritten := by simp [Session.rewindReplay, setReplayOff, detached,
              discardBuffers] }
        framed := hframed
        aligned := by simp [Session.rewindReplay, setReplayOff, detached,
          SessionState.attached] }
  · exact closedTo hclosed hframed

theorem copy_false (h : Layout ss) (hst : ss.state ≠ .established) : ss.retransmitCopy = false := by
  by_contra hcopy
  exact hst (h.st.copy (by simpa using hcopy))

/-- Without a copy in flight, no entry is one. -/
theorem no_copies (h : Layout ss) (hcopy : ss.retransmitCopy = false) : ∀ f ∈ ss.sendbuf, f.isCopy = false := by
  have := h.copy
  rwa [CopyInv, hcopy] at this

theorem capture (h : Layout ss) (hst : ss.state = .suspended) : Layout ss.captureAndDiscard := by
  have hcopy := h.copy_false (by simp [hst])
  rcases ss.captureAndDiscard_spec (by simp [hst]) with hlogs | hclosed
  · have hlog : ss.captureAndDiscard.LogInv := hlogs.logInv (s := ss.discardBuffers) h.log
    obtain ⟨entries, stalled, allocs, hentries, hitems, heq⟩ := hlogs
    rw [heq] at hlog ⊢
    exact
      { log := hlog
        copy := CopyOk.of_false hcopy (by simp [discardBuffers])
        buf := .empty
        st :=
          { idle := by simp [discardBuffers, hst]
            down := fun _ => rfl
            copy := h.st.copy
            unwritten := by simp [discardBuffers] }
        framed := h.framed
        aligned := by simp [discardBuffers, hst, SessionState.attached] }
  · exact closedTo hclosed h.framed

/-! ### Queueing -/

theorem sendbufPush {f : MuxFrame} (h : Layout ss) (hst : ss.state.open) (hne : f.items ≠ [])
    (hcopy : f.isCopy = false) : Layout (ss.sendbufPush f) := by
  obtain ⟨sendbuf, staging, hpushed, heq⟩ := ss.sendbufPush_spec f
  rw [heq]
  exact
    { log := h.log
      copy := hpushed.copyOk h.buf h.copy hcopy
      buf := hpushed.bufOk h.buf hne hcopy
      st :=
        { idle := fun hidle => absurd hidle (by simp [hst.1, hst.2])
          down := h.st.down
          copy := h.st.copy
          unwritten := fun hs => hpushed.pos_eq (h.st.unwritten hs) }
      framed := h.framed
      aligned := fun ha => by rw [hpushed.tornPart h.buf]; exact h.aligned ha }

theorem pushHello [HelloCodec] {server incl : Bool} (h : Layout ss) (hst : ss.state.open) :
    Layout (ss.pushHello server incl) where
  __ := h
  copy := CopyOk.append h.copy rfl
  buf := h.buf.append ⟨by simp, rfl, rfl⟩ ss.sendbufStaging
  st :=
    { idle := fun hidle => absurd hidle (by simp [Session.pushHello, hst.1, hst.2])
      down := h.st.down
      copy := h.st.copy
      unwritten := fun hs f hf => by
        rcases List.mem_append.mp hf with hf | hf
        · exact h.st.unwritten hs f hf
        · rw [List.mem_singleton.mp hf] }
  aligned ha := by
    show ss.out = itemBytes ss.sent ++ tornPart (ss.sendbuf ++ [_])
    rw [tornPart_append ss.sendbuf rfl]
    exact h.aligned ha

theorem startReplay (h : Layout ss) (hcopy : ss.retransmitCopy = false) (hst : ss.state.open) :
    Layout ss.startReplay := by
  have hlog := startReplay_logInv h.log
  unfold Session.startReplay at hlog ⊢
  by_cases hring : ss.ring.isEmpty = true
  · rw [if_pos hring]
    exact h
  · rw [if_neg hring] at hlog ⊢
    exact ⟨hlog, CopyOk.of_false hcopy (h.no_copies hcopy), h.buf, h.st.inert hst, h.framed, h.aligned⟩

variable {st : SessionState} {id : UInt16}

/-- A transport takes the place of the last one. -/
theorem attach (h : Layout ss) (hsend : ss.sendbuf = []) (hcopy : ss.retransmitCopy = false)
    (hdgram : ss.dgrambuf = []) (hst : st.attached) :
    Layout { ss with out := [], sent := [], sendBlocked := false, state := st } where
  __ := h
  st :=
    { idle := by rcases hst with rfl | rfl | rfl <;> simp
      down := fun _ => hdgram
      copy := by simp [hcopy]
      unwritten := by simp [hsend] }
  framed := .nil
  aligned _ := by simp [hsend, tornPart]

/-- The handshake moves on over the same transport. -/
theorem advance (h : Layout ss) (hst : ss.state = .connect ∨ ss.state = .handshake) (recvbuf : List UInt8) (hst' : st = .handshake ∨ st = .established) :
    Layout { ss with recvbuf := recvbuf, state := st } where
  __ := h
  st :=
    { idle := by rcases hst' with rfl | rfl <;> simp
      down := fun _ => h.st.down (by rcases hst with h | h <;> simp [h])
      copy := by
        rw [h.copy_false (by rcases hst with h | h <;> simp [h])]
        simp
      unwritten := by rcases hst' with rfl | rfl <;> simp }
  aligned _ := h.aligned (by rcases hst with h | h <;> simp [h, SessionState.attached])

theorem acks {count : Nat} (h : Layout ss) (hacks : ss.Acks count ss') (hcopy : ss'.CopyInv)
    (hoff : ss.state.open) : Layout ss' := by
  have hlog := hacks.2
  obtain ⟨⟨_, _, _, _, _, _, _, _, _, rfl⟩, -⟩ := hacks
  exact ⟨hlog, hcopy, h.buf, h.st.inert hoff, h.framed, h.aligned⟩

theorem rewindReplay (h : Layout ss) (hcopy : ss.retransmitCopy = false) (hst : ss.state.open) :
    Layout ss.rewindReplay :=
  ⟨rewindReplay_logInv h.log, CopyOk.of_false hcopy (h.no_copies hcopy), h.buf, h.st.inert hst, h.framed,
    h.aligned⟩

theorem resumeAckRecv {n : Nat} (h : Layout ss) (hcopy : ss.retransmitCopy = false) (hst : ss.state.open)
    (hack : ss.resumeAckRecv n = (true, ss')) : Layout ss' := by
  obtain ⟨count, ss1, -, hacks, -, rfl⟩ := resumeAckRecv_spec h.log hack
  have hfields : ss1.retransmitCopy = ss.retransmitCopy ∧ ss1.sendbuf = ss.sendbuf ∧ ss1.state = ss.state := by
    obtain ⟨⟨_, _, _, _, _, _, _, _, _, rfl⟩, -⟩ := hacks
    exact ⟨rfl, rfl, rfl⟩
  have hcopy1 : ss1.retransmitCopy = false := hfields.1.trans hcopy
  refine (h.acks hacks (CopyOk.of_false hcopy1 ?_) hst).rewindReplay hcopy1 (hfields.2.2 ▸ hst)
  rw [hfields.2.1]
  exact h.no_copies hcopy

theorem ackEmitted {n : Nat} (h : Layout ss) : Layout (ss.ackEmitted n) :=
  { h with }

theorem freezeHead (h : Layout ss) (rest : List MuxFrame) : Layout (ss.freezeHead rest) := by
  unfold Session.freezeHead
  split
  · exact { h with buf := h.buf.unstage }
  · exact h

/-- A stream that is known to the session has an open session. -/
theorem open_of_stream (h : Layout ss)
    (hst : ss.state = .established ∨ id ∈ ss.streams.getD []) : ss.state.open := by
  rcases hst with hst | hid
  · simp [hst, SessionState.open]
  · constructor <;> intro hidle
    · obtain ⟨-, -, -, htable, -⟩ := h.st.idle (.inl hidle)
      simp [htable] at hid
    · obtain ⟨-, -, -, htable, -⟩ := h.st.idle (.inr hidle)
      simp [htable] at hid

theorem discard (h : Layout ss) : Layout (ss.discardStreamFrames id) := by
  obtain ⟨sendbuf, staging, hthin, hbuf, -, heq⟩ := ss.discardSendbuf_spec id h.buf
  have hoob (f : MuxFrame)
      (hf : f ∈ ss.oobbuf.filterMap fun f => if f.pos == 0 then discardEntry id f else some f) :
      Waiting f := by
    obtain ⟨g, hg, heq⟩ := List.mem_filterMap.mp hf
    have hw := h.buf.oob g hg
    rw [if_pos (by simp [hw.pos_eq])] at heq
    simp only [discardEntry] at heq
    split at heq
    · cases heq
    next hne =>
      obtain rfl := Option.some.inj heq
      exact ⟨fun hnil => hne (by simpa using hnil), hw.pos_eq, hw.isCopy_eq⟩
  unfold discardStreamFrames
  rw [heq]
  exact
    { log := h.log
      copy := hthin.copyOk h.copy h.buf.rest
      buf := { hbuf with oob := hoob }
      st :=
        { idle := fun hidle => by
            obtain ⟨hs, ho, hd, ht, hr, hoff⟩ := h.st.idle hidle
            refine ⟨?_, by simp [ho], hd, ht, hr, hoff⟩
            rw [hs] at hthin
            cases hthin
            rfl
          down := h.st.down
          copy := h.st.copy
          unwritten := fun hs => hthin.pos_eq (h.st.unwritten hs) }
      framed := h.framed
      aligned := fun ha => by
        rw [hthin.tornPart h.buf.rest]
        exact h.aligned ha }

theorem queueCopy {off : Nat} {orig : MuxFrame} (h : Layout ss) (hst : ss.state = .established)
    (hoff : ss.retransmitOff = some off) (horig : ss.ring[off]? = some orig)
    (hcopy : ss.retransmitCopy = false) (hpos : ∀ f ∈ ss.sendbuf, f.pos = 0) :
    Layout (ss.queueCopy off orig) := by
  have hitems := copyItems_eq h.log horig
  have hmem := List.mem_of_getElem? horig
  have hlen := MuxFrame.live_length (h.log.le orig hmem)
  have hcount := h.log.pos orig hmem
  have hne : orig.live ≠ [] := fun hnil => by simp [hnil] at hlen; omega
  exact
    { log := h.log
      copy := CopyOk.of_true rfl hoff horig rfl rfl hitems rfl hcount (h.no_copies hcopy)
      buf :=
        { nonempty := fun f hf => by
            rcases List.mem_cons.mp hf with rfl | hf
            · simpa [hitems] using hne
            · exact h.buf.nonempty f hf
          head := fun f hf => by
            obtain rfl := Option.some.inj hf
            exact MuxFrame.len_pos (by simpa [hitems] using hne)
          rest := hpos
          staging := fun hs => by
            obtain ⟨tail, htail, hrest⟩ := h.buf.staging hs
            refine ⟨tail, ?_, hrest⟩
            obtain ⟨init, hinit⟩ := List.getLast?_eq_some_iff.mp htail
            simp [Session.queueCopy, hinit, List.getLast?_cons]
          oob := h.buf.oob
          dgram := h.buf.dgram }
      st :=
        { idle := by simp [Session.queueCopy, hst]
          down := h.st.down
          copy := fun _ => hst
          unwritten := by simp [Session.queueCopy, hst] }
      framed := h.framed
      aligned := fun ha => by
        have hout := h.aligned ha
        rw [tornPart_of_pos fun f hf => hpos f (List.mem_of_mem_head? hf)] at hout
        exact hout.trans (congrArg (itemBytes ss.sent ++ ·)
          (tornPart_of_pos (by simp [Session.queueCopy])).symm) }

theorem logs {items : List Item} (h : Layout ss) (hlogs : ss.Logs items ss') (hst : ss.state.open) : Layout ss' := by
  have hlog := hlogs.logInv h.log
  have hcopy := hlogs.copyInv h.copy
  obtain ⟨_, _, _, _, _, rfl⟩ := hlogs
  exact ⟨hlog, hcopy, h.buf, h.st.inert hst, h.framed, h.aligned⟩

end Layout

/-! ### Writing -/

/-- The session once the transport has taken `n` bytes of the head. -/
def Session.wrote (ss : Session) (frame : MuxFrame) (n : Nat) (sendbuf : List MuxFrame) (staging : Bool) :
    Session :=
  { ss.handOver frame n with sendbuf := sendbuf, sendbufStaging := staging }

theorem Session.written_eq (ss : Session) (frame : MuxFrame) (rest : List MuxFrame) (n : Nat)
    (sendbuf : List MuxFrame) : ∃ staging, (staging = true → rest ≠ [] ∧ ss.sendbufStaging = true) ∧
      ss.written frame rest n sendbuf = ss.wrote frame n sendbuf staging := by
  unfold written Session.freezeHead
  split
  · exact ⟨false, by simp, rfl⟩
  next hne => exact ⟨ss.sendbufStaging, fun hs => ⟨fun hnil => hne (by simp [hnil]), hs⟩, rfl⟩

variable [HelloCodec]

/-- What holds of every session. `pool`: it queues and logs no frame that it cannot produce. -/
structure Base (ss : Session) : Prop extends Layout ss where
  pool : Pool (fun i => i.frame.Produced) ss

namespace Base

variable {ss ss' : Session} {frame : MuxFrame} {rest : List MuxFrame}

/-- The head of the send buffer, when it is being replayed. -/
theorem copy_head (h : Base ss) (hbuf : ss.sendbuf = frame :: rest) (hcopy : ss.retransmitCopy = true) :
    ∃ k orig, ss.retransmitOff = some k ∧ ss.ring[k]? = some orig ∧ frame.isCopy = true ∧
      frame.items = orig.live.drop ss.retransmitCopySent ∧ ss.retransmitCopyCount = orig.unackedCount ∧
      ss.retransmitCopySent < ss.retransmitCopyCount ∧ (∀ i ∈ frame.items, i.tracked = true) ∧
      frame.startsHello = false := by
  have hc := h.copy
  rw [CopyInv, hcopy, hbuf] at hc
  obtain ⟨k, orig, head, tail, hoff, horig, hbuf', hhead, hitems, hcount, hlt, -⟩ := hc
  obtain ⟨rfl, rfl⟩ := List.cons.inj hbuf'
  have htracked : ∀ i ∈ frame.items, i.tracked = true := fun i hi =>
    h.log.tracked orig (List.mem_of_getElem? horig) i
      (List.mem_of_mem_drop (List.mem_of_mem_drop (hitems ▸ hi)))
  refine ⟨k, orig, hoff, horig, hhead, hitems, hcount, hlt, htracked, ?_⟩
  unfold MuxFrame.startsHello
  split
  · rfl
  next first tail' hfirst =>
    have hmem : first ∈ frame.items := by simp [hfirst]
    exact Item.isHello_of_tracked
      (h.pool.send frame (by simp [hbuf]) first hmem) (htracked first hmem)

theorem copy_of_nil (h : Base ss) (hbuf : ss.sendbuf = []) : ss.retransmitCopy = false := by
  by_contra hcopy
  have hc := h.copy
  rw [CopyInv, hbuf, show ss.retransmitCopy = true by simpa using hcopy] at hc
  obtain ⟨_, _, _, _, -, -, hcons, -⟩ := hc
  simp at hcons

theorem rest_no_copies (h : Base ss) (hbuf : ss.sendbuf = frame :: rest) : ∀ f ∈ rest, f.isCopy = false := by
  have hc := h.copy
  rw [CopyInv, hbuf] at hc
  exact hc.rest

theorem handOver_out (h : Base ss) (hst : ss.state.attached) (hbuf : ss.sendbuf = frame :: rest) (n : Nat) :
    (ss.handOver frame n).out = itemBytes (ss.handOver frame n).sent ++
      frameCode.torn (frame.items.map Item.frame) (frame.pos + n) := by
  have := h.aligned hst
  rw [hbuf] at this
  exact Session.handOver_out n this

theorem handOver_framed (h : Base ss) (hst : ss.state.attached) (hbuf : ss.sendbuf = frame :: rest) (n : Nat) :
    Framed (ss.handOver frame n).out (ss.handOver frame n).sent :=
  .of_torn (h.handOver_out hst hbuf n)

variable {staging : Bool} {head : MuxFrame} {n : Nat}

theorem written_bufOk (h : Base ss) (hbuf : ss.sendbuf = frame :: rest)
    (hstaging : staging = true → rest ≠ [] ∧ ss.sendbufStaging = true) :
    BufOk rest ss.oobbuf ss.dgrambuf staging := by
  have hb := h.buf
  rw [hbuf] at hb
  exact
    { nonempty := fun f hf => hb.nonempty f (List.mem_cons_of_mem _ hf)
      head := fun f hf => by
        have hmem := List.mem_of_mem_head? hf
        rw [hb.rest f hmem]
        exact MuxFrame.len_pos (hb.nonempty f (List.mem_cons_of_mem _ hmem))
      rest := fun f hf => hb.rest f (List.mem_of_mem_tail hf)
      staging := fun hs => by
        obtain ⟨hne, hs⟩ := hstaging hs
        obtain ⟨tail, htail, hrest⟩ := hb.staging hs
        refine ⟨tail, ?_, hrest⟩
        obtain ⟨g, gs, rfl⟩ := List.exists_cons_of_ne_nil hne
        simpa [List.getLast?_cons_cons] using htail
      oob := hb.oob
      dgram := hb.dgram }

/-- A partly written head, before or after its whole frames are cut off. -/
theorem written_cons_bufOk (h : Base ss) (hbuf : ss.sendbuf = frame :: rest)
    (hstaging : staging = true → rest ≠ [] ∧ ss.sendbufStaging = true)
    (hlt : head.pos < head.len) (hne : head.items ≠ []) :
    BufOk (head :: rest) ss.oobbuf ss.dgrambuf staging := by
  have hb := h.written_bufOk hbuf hstaging
  exact
    { nonempty := fun f hf => by
        rcases List.mem_cons.mp hf with rfl | hf
        · exact hne
        · exact hb.nonempty f hf
      head := fun f hf => Option.some.inj hf ▸ hlt
      rest := fun f hf => by
        have := h.buf.rest
        rw [hbuf] at this
        exact this f hf
      staging := fun hs => by
        obtain ⟨tail, htail, hrest⟩ := hb.staging hs
        refine ⟨tail, ?_, hrest⟩
        obtain ⟨g, gs, rfl⟩ := List.exists_cons_of_ne_nil (hstaging hs).1
        simpa [List.getLast?_cons_cons] using htail
      oob := hb.oob
      dgram := hb.dgram }

/-- A write that takes all of the head. -/
theorem flushFull_spec (h : Base ss) (hst : ss.state = .handshake ∨ ss.state = .established)
    (hbuf : ss.sendbuf = frame :: rest) (n : Nat) :
    ∃ staging, (staging = true → rest ≠ [] ∧ ss.sendbufStaging = true) ∧
      ((ss.retransmitCopy = true ∧
          ss.flushFull frame rest n = (ss.wrote frame n rest staging).retireCopy) ∨
        (ss.retransmitCopy = false ∧
          (ss.wrote frame n rest staging).Logs frame.kept (ss.flushFull frame rest n)) ∨
        (ss.wrote frame n rest staging).ClosedTo (ss.flushFull frame rest n)) := by
  have hne : ss.state ≠ .closed := by rcases hst with h | h <;> simp [h]
  obtain ⟨staging, hstaging, hw⟩ := ss.written_eq frame rest n rest
  refine ⟨staging, hstaging, ?_⟩
  unfold Session.flushFull
  rw [hw]
  rcases trackSent_cases (ss.wrote frame n rest staging) (frame.moved n) hne with
    ⟨-, -, hcopy, heq⟩ | ⟨hcopy, hlogs⟩ | hclosed
  · exact .inl ⟨(Bool.and_eq_true _ _ ▸ hcopy).1, heq⟩
  · refine .inr (.inl ⟨?_, hlogs⟩)
    by_contra htrue
    have htrue : ss.retransmitCopy = true := by simpa using htrue
    obtain ⟨_, _, _, _, hhead, _, _, _, _, hhello⟩ := h.copy_head hbuf htrue
    rcases hcopy (Bool.and_eq_true _ _ ▸ ⟨htrue, hhead⟩) with hnil | hstart
    · exact h.buf.nonempty frame (by simp [hbuf]) hnil
    · exact absurd (hstart.symm.trans hhello) (by simp)
  · exact .inr (.inr hclosed)

theorem flushFull (h : Base ss) (hst : ss.state = .handshake ∨ ss.state = .established)
    (hbuf : ss.sendbuf = frame :: rest) (hlen : frame.pos + n = frame.len) :
    Layout (ss.flushFull frame rest n) := by
  have hattached : ss.state.attached := by rcases hst with h | h <;> simp [h, SessionState.attached]
  have hrest := h.rest_no_copies hbuf
  have hpos : ∀ f ∈ rest, f.pos = 0 := by
    have := h.buf.rest
    rwa [hbuf] at this
  have hout : (ss.handOver frame n).out = itemBytes (ss.handOver frame n).sent ++ tornPart rest := by
    rw [h.handOver_out hattached hbuf n, frameCode.torn_of_length_le (Nat.le_of_eq hlen.symm),
      tornPart_of_pos fun f hf => hpos f (List.mem_of_mem_head? hf)]
  have hidle : ¬ (ss.state = .init ∨ ss.state = .closed) := by rcases hst with h | h <;> simp [h]
  have hsusp : ¬ (ss.state = .suspended ∨ ss.state = .connect) := by rcases hst with h | h <;> simp [h]
  obtain ⟨staging, hstaging, ⟨hcopy, heq⟩ | ⟨hcopy, hlogs⟩ | hclosed⟩ := h.flushFull_spec hst hbuf n
  · obtain ⟨k, orig, hoff, horig, -, -, hcount, -⟩ := h.copy_head hbuf hcopy
    rw [heq]
    exact
      { log := by
          have := LogOk.advance h.log hoff horig
          rw [← hcount, show some (k + 1) = ss.retransmitOff.map (· + 1) by rw [hoff]; rfl] at this
          exact this
        copy := CopyOk.of_false rfl hrest
        buf := h.written_bufOk hbuf hstaging
        st :=
          { idle := fun hi => absurd hi hidle
            down := h.st.down
            copy := by simp [retireCopy]
            unwritten := fun hs => absurd hs hsusp }
        framed := .of_tornPart hout
        aligned := fun _ => hout }
  · have hlog := hlogs.logInv h.log
    have hcopy' := hlogs.copyInv (CopyOk.of_false hcopy hrest)
    generalize ss.flushFull frame rest n = s at hlogs hlog hcopy' ⊢
    obtain ⟨_, _, _, _, _, rfl⟩ := hlogs
    exact
      { log := hlog
        copy := hcopy'
        buf := h.written_bufOk hbuf hstaging
        st :=
          { idle := fun hi => absurd hi hidle
            down := h.st.down
            copy := h.st.copy
            unwritten := fun hs => absurd hs hsusp }
        framed := .of_tornPart hout
        aligned := fun _ => hout }
  · exact .closedTo hclosed (.of_tornPart hout)

/-- A step of the write that leaves a partly written head behind. -/
theorem written_cons (h : Base ss) (hst : ss.state = .handshake ∨ ss.state = .established)
    (hbuf : ss.sendbuf = frame :: rest) (hstaging : staging = true → rest ≠ [] ∧ ss.sendbufStaging = true)
    (hlt : head.pos < head.len) (hne : head.items ≠ [])
    (htorn : frameCode.torn (head.items.map Item.frame) head.pos =
      frameCode.torn (frame.items.map Item.frame) (frame.pos + n)) (copySent : Nat)
    (hcopy : CopyOk ss.ring ss.retransmitOff ss.retransmitCopy ss.retransmitCopyCount copySent
      (head :: rest)) :
    Layout { ss.wrote frame n (head :: rest) staging with retransmitCopySent := copySent } := by
  have hattached : ss.state.attached := by rcases hst with h | h <;> simp [h, SessionState.attached]
  have hout : (ss.handOver frame n).out =
      itemBytes (ss.handOver frame n).sent ++ tornPart (head :: rest) :=
    (h.handOver_out hattached hbuf n).trans (congrArg _ htorn.symm)
  exact
    { log := h.log
      copy := hcopy
      buf := h.written_cons_bufOk hbuf hstaging hlt hne
      st :=
        { idle := by rcases hst with h | h <;> simp [wrote, handOver, h]
          down := h.st.down
          copy := h.st.copy
          unwritten := by rcases hst with h | h <;> simp [wrote, handOver, h] }
      framed := .of_tornPart hout
      aligned := fun _ => hout }

/-- A write that takes a part of the head. -/
theorem flushPart_spec (h : Base ss) (hst : ss.state = .handshake ∨ ss.state = .established)
    (hbuf : ss.sendbuf = frame :: rest) (n : Nat) :
    ∃ staging, (staging = true → rest ≠ [] ∧ ss.sendbufStaging = true) ∧
      ((ss.flushPart frame rest n = ss.wrote frame n (frame.moved n :: rest) staging ∧
          (frame.startsHello = true ∨ ∀ i ∈ (frame.moved n).complete, i.tracked = false)) ∨
        (ss.retransmitCopy = true ∧
          ss.flushPart frame rest n =
            { ss.wrote frame n ((frame.moved n).cut :: rest) staging with
              retransmitCopySent := ss.retransmitCopySent + (frame.moved n).complete.length }) ∨
        (ss.retransmitCopy = false ∧
          (ss.wrote frame n ((frame.moved n).cut :: rest) staging).Logs
            ((frame.moved n).complete.filter Item.tracked) (ss.flushPart frame rest n)) ∨
        (ss.wrote frame n (frame.moved n :: rest) staging).ClosedTo (ss.flushPart frame rest n)) := by
  have hne : ss.state ≠ .closed := by rcases hst with h | h <;> simp [h]
  obtain ⟨staging, hstaging, hw⟩ := ss.written_eq frame rest n (frame.moved n :: rest)
  refine ⟨staging, hstaging, ?_⟩
  unfold Session.flushPart
  rw [hw]
  rcases trackPartial_spec (ss.wrote frame n (frame.moved n :: rest) staging) (frame.moved n) rest
      hne with hsame | ⟨-, hcopy, heq⟩ | ⟨-, hcopy, hlogs⟩ | hclosed
  · exact .inl hsame
  · refine .inr (.inl ?_)
    have hcopy : ss.retransmitCopy = true := (Bool.and_eq_true _ _ ▸ hcopy).1
    obtain ⟨_, _, _, _, _, _, _, _, htracked, _⟩ := h.copy_head hbuf hcopy
    -- the whole frames of a copy are all counted
    have hall : (frame.moved n).complete.countP Item.tracked = (frame.moved n).complete.length :=
      List.countP_eq_length.mpr fun i hi => htracked i (List.mem_of_mem_take hi)
    rw [hall] at heq
    exact ⟨hcopy, heq⟩
  · refine .inr (.inr (.inl ⟨?_, hlogs⟩))
    by_contra htrue
    have htrue : ss.retransmitCopy = true := by simpa using htrue
    obtain ⟨_, _, _, _, hhead, _⟩ := h.copy_head hbuf htrue
    exact absurd hcopy (by rw [Bool.not_eq_false]; exact Bool.and_eq_true _ _ ▸ ⟨htrue, hhead⟩)
  · exact .inr (.inr (.inr hclosed))

theorem flushPart (h : Base ss) (hst : ss.state = .handshake ∨ ss.state = .established)
    (hbuf : ss.sendbuf = frame :: rest) (hlen : frame.pos + n < frame.len) :
    Layout (ss.flushPart frame rest n) := by
  have hopen : ss.state.open := by rcases hst with h | h <;> simp [h, SessionState.open]
  have hrest := h.rest_no_copies hbuf
  have hitems := h.buf.nonempty frame (by simp [hbuf])
  have hcopy := h.copy
  rw [CopyInv, hbuf] at hcopy
  obtain ⟨staging, hstaging, hcases⟩ := h.flushPart_spec hst hbuf n
  -- the head after the write, and the head once its whole frames are cut off
  have hsame : Layout (ss.wrote frame n (frame.moved n :: rest) staging) := by
    refine h.written_cons hst hbuf hstaging (show (frame.moved n).pos < (frame.moved n).len from hlen) hitems
      rfl ss.retransmitCopySent ?_
    cases hc : ss.retransmitCopy with
    | false =>
      rw [hc] at hcopy
      intro f hf
      rcases List.mem_cons.mp hf with rfl | hf
      · exact hcopy frame List.mem_cons_self
      · exact hrest f hf
    | true =>
      obtain ⟨k, orig, hoff, horig, hhead, hlive, hcount, hlt, -⟩ := h.copy_head hbuf hc
      exact .of_true rfl hoff horig rfl hhead hlive hcount hlt hrest
  have hcutlt := MuxFrame.cut_pos_lt (f := frame.moved n) hlen
  have hcutne := MuxFrame.cut_items_ne_nil (f := frame.moved n) hlen
  have hcuttorn := (frame.moved n).torn_cut
  rcases hcases with ⟨heq, -⟩ | ⟨hc, heq⟩ | ⟨hc, hlogs⟩ | hclosed
  · rw [heq]
    exact hsame
  · rw [heq]
    refine h.written_cons hst hbuf hstaging hcutlt hcutne hcuttorn _ ?_
    obtain ⟨k, orig, hoff, horig, hhead, hlive, hcount, hlt, -⟩ := h.copy_head hbuf hc
    have hsplit := congrArg List.length (frame.moved n).complete_append_cut
    have hlive' := MuxFrame.live_length (h.log.le orig (List.mem_of_getElem? horig))
    have hitemslen := congrArg List.length hlive
    rw [List.length_append] at hsplit
    rw [List.length_drop, hlive', ← hcount] at hitemslen
    have hcutlen := List.length_pos_iff.mpr hcutne
    have hmoved : (frame.moved n).items = frame.items := rfl
    rw [hmoved] at hsplit
    refine .of_true hc hoff horig rfl hhead ?_ hcount (by omega) hrest
    have hdrop : (frame.moved n).cut.items = frame.items.drop (frame.moved n).complete.length := by
      rw [← hmoved, ← (frame.moved n).complete_append_cut, List.drop_left]
    rw [hdrop, hlive, List.drop_drop]
  · have hcut : Layout (ss.wrote frame n ((frame.moved n).cut :: rest) staging) := by
      refine h.written_cons hst hbuf hstaging hcutlt hcutne hcuttorn ss.retransmitCopySent ?_
      rw [hc] at hcopy ⊢
      intro f hf
      rcases List.mem_cons.mp hf with rfl | hf
      · exact hcopy frame List.mem_cons_self
      · exact hrest f hf
    exact hcut.logs hlogs hopen
  · exact .closedTo hclosed hsame.framed

end Base

/-- Every elementary step keeps what holds of every session. -/
theorem Micro.base {quiet : Bool} {e : Event} {ss ss' : Session} (hm : Micro quiet e ss ss') (h : Base ss) :
    Base ss' := by
  refine ⟨?_, hm.pool h.log h.copy h.buf (fun _ hf => hf) h.pool⟩
  cases hm with
  | aux | recvOther | recvStream => exact { h with }
  | table streams hst =>
    refine { h with st := { h.st with idle := fun hidle => ?_ } }
    obtain ⟨hsend, hoob, hdgram, htable, hring, hoff⟩ := h.st.idle hidle
    rcases hst with hst | hsub
    · rcases hidle with hidle | hidle <;> simp [hst] at hidle
    · refine ⟨hsend, hoob, hdgram, List.eq_nil_iff_forall_not_mem.mpr fun id hid => ?_, hring, hoff⟩
      have := hsub id hid
      simp [htable] at this
  | closed => exact .closedForm h.framed
  | forget n he hst =>
    exact ⟨h.log, h.copy, h.buf, h.st, .nil, fun hatt => by simp [SessionState.attached, hst] at hatt⟩
  | closing known hst =>
    exact
      { log := .nil
        copy := CopyOk.of_false rfl (by simp [discardBuffers, unackedFreeAll])
        buf := .empty
        st := ⟨by simp, by simp, by simp [unackedFreeAll], by simp⟩
        framed := h.framed
        aligned := by simp [SessionState.attached] }
  | closeWait hst =>
    exact
      { log := h.log
        copy := h.copy
        buf := h.buf
        st := ⟨by simp, by simp, fun hc => absurd (h.st.copy hc) (by simp [hst]), by simp⟩
        framed := h.framed
        aligned := by simp [SessionState.attached] }
  | suspend => exact .suspend h.log h.framed
  | install he ha hst =>
    obtain ⟨hsend, -, hdgram, -⟩ := h.st.idle hst
    exact h.attach hsend (h.copy_false (by rcases hst with h | h <;> simp [h])) hdgram (.inl rfl)
  | attach he ha hst hopen =>
    have hc := captureAndDiscard_open (by simp [hst]) hopen
    exact (h.capture hst).attach hc.sendbuf (hc.retransmitCopy.trans (h.copy_false (by simp [hst])))
      hc.dgrambuf (.inl rfl)
  | dialed he ha hst =>
    exact (h.advance (.inl hst) ss.recvbuf (.inl rfl)).pushHello (by simp [SessionState.open])
  | accepted he ha hst =>
    obtain ⟨hsend, -, hdgram, -⟩ := h.st.idle (.inl hst)
    exact h.attach hsend (h.copy_false (by simp [hst])) hdgram (.inr (.inl rfl))
  | helloServer f rest _ ha hst =>
    exact ((h.advance (.inr hst) rest (.inr rfl)).pushHello (by simp [SessionState.open])).startReplay
      (h.copy_false (by simp [hst])) (by simp [Session.pushHello, SessionState.open])
  | helloResume ss1 f rest hello _ ha hst _ _ _ _ hack =>
    have hb : Layout { ss with recvbuf := rest } := { h with }
    have hcopy := h.copy_false (by simp [hst])
    have hb1 := hb.resumeAckRecv hcopy (by simp [hst, SessionState.open]) hack
    obtain ⟨count, ss2, -, hacks, -, rfl⟩ := resumeAckRecv_spec hb.log hack
    obtain ⟨hstate, hcopy2, -⟩ := hacks.fields
    exact (hb1.advance (.inr (hstate.trans hst)) ss2.recvbuf (.inr rfl)).startReplay (hcopy2.trans hcopy)
      (by simp [SessionState.open])
  | helloReject ss1 f rest hello _ ha hst _ _ _ _ hack =>
    obtain ⟨count, hacks⟩ := resumeAckRecv_false (s := { ss with recvbuf := rest }) h.log hack
    obtain ⟨-, -, hout, hsent⟩ := hacks.fields
    exact .closedForm (show Framed ss1.out ss1.sent by rw [hout, hsent]; exact h.framed)
  | helloFresh f rest hello id _ ha hst =>
    exact
      { log := .nil
        copy := CopyOk.of_false rfl (h.no_copies (h.copy_false (by simp [hst])))
        buf := h.buf
        st := ⟨by simp [freshForm], by simp [freshForm],
          by simp [freshForm, unackedFreeAll], by simp [freshForm]⟩
        framed := h.framed
        aligned := fun _ => h.aligned (by simp [hst, SessionState.attached]) }
  | resumeTrim _ n he hst hack =>
    exact h.resumeAckRecv (h.copy_false (by simp [hst])) (by simp [hst, SessionState.open]) hack
  | resumeReject ss1 n he hst hack =>
    obtain ⟨count, hacks⟩ := resumeAckRecv_false h.log hack
    obtain ⟨-, -, hout, hsent⟩ := hacks.fields
    exact .closedForm (show Framed ss1.out ss1.sent by rw [hout, hsent]; exact h.framed)
  | resumeInstall n he ha hst hopen =>
    have hc := captureAndDiscard_open (by simp [hst]) hopen
    have hcopy := hc.retransmitCopy.trans (h.copy_false (by simp [hst]))
    exact (((h.capture hst).attach hc.sendbuf hcopy hc.dgrambuf (.inr (.inr rfl))).pushHello
      (by simp [SessionState.open])).startReplay hcopy (by simp [Session.pushHello, SessionState.open])
  | push f hv hid hoff hst hq =>
    have hb : Layout { ss with births := ss.births + 1 } := { h with }
    exact hb.sendbufPush (h.open_of_stream hst) (by simp [newFrame]) rfl
  | park f hv hid hoff hst =>
    exact { h with buf := h.buf.oob_append ⟨by simp [newFrame], rfl, rfl⟩, st := h.st.inert (h.open_of_stream hst) }
  | oob f hv hid hflags hst =>
    exact { h with
      buf := h.buf.oob_append ⟨by simp [newFrame], rfl, rfl⟩
      st := h.st.inert (by simp [hst, SessionState.open]) }
  | dgram f hv hid hflags hst =>
    exact
      { log := h.log
        copy := h.copy
        buf := h.buf.dgram_append ⟨by simp [newFrame], rfl, rfl⟩
        st := ⟨by simp [hst], by simp [hst], h.st.copy, h.st.unwritten⟩
        framed := h.framed
        aligned := h.aligned }
  | ack hst =>
    have hb : Layout { ss with births := ss.births + 1 } := { h with }
    exact .ackEmitted (hb.sendbufPush (by simp [hst, SessionState.open]) (by simp [newFrame]) rfl)
  | discard id => exact h.discard
  | freeze frame rest hbuf => exact h.freezeHead rest
  | fail frame rest n hst hbuf =>
    have hattached : ss.state.attached := by rcases hst with h | h <;> simp [h, SessionState.attached]
    exact .suspend (s := ss.handOver frame n) h.log (h.handOver_framed hattached hbuf n)
  | failClosed frame rest n hst hbuf =>
    have hattached : ss.state.attached := by rcases hst with h | h <;> simp [h, SessionState.attached]
    exact .closedForm (h.handOver_framed hattached hbuf n)
  | flushPart frame rest n hst hbuf hlen => exact h.flushPart hst hbuf hlen
  | flushFull frame rest n hst hbuf hlen => exact h.flushFull hst hbuf hlen
  | copy off orig hst hoff horig hcopy hpos => exact h.queueCopy hst hoff horig hcopy hpos
  | replayed off hst hoff hlen =>
    have hcopy : ss.retransmitCopy = false := by
      by_contra hc
      have hcopy := h.copy
      rw [CopyInv, eq_true_of_ne_false hc] at hcopy
      obtain ⟨k, orig, _, _, hk, horig, _⟩ := hcopy
      obtain rfl := Option.some.inj (hoff.symm.trans hk)
      have := (List.getElem?_eq_some_iff.mp horig).1
      omega
    exact
      { log := LogOk.unset h.log 0
        copy := CopyOk.of_false hcopy (h.no_copies hcopy)
        buf := h.buf
        st := { h.st with idle := fun hidle => by simpa [hoff] using h.st.idle hidle }
        framed := h.framed
        aligned := h.aligned }
  | stageOob frame rest hst hoff hbuf =>
    have hw := h.buf.oob
    rw [hbuf] at hw
    have hb : Layout { ss with oobbuf := rest } :=
      { h with
        buf := { h.buf with oob := fun f hf => hw f (List.mem_cons_of_mem _ hf) }
        st := h.st.inert (by simp [hst, SessionState.open]) }
    exact hb.sendbufPush (by simp [hst, SessionState.open]) (hw frame List.mem_cons_self).nonempty
      (hw frame List.mem_cons_self).isCopy_eq
  | stageDgram frame rest hst hbuf =>
    have hw := h.buf.dgram
    rw [hbuf] at hw
    have hb : Layout { ss with dgrambuf := rest } :=
      { h with
        buf := { h.buf with dgram := fun f hf => hw f (List.mem_cons_of_mem _ hf) }
        st := ⟨by simp [hst], by simp [hst], h.st.copy, h.st.unwritten⟩ }
    exact hb.sendbufPush (by simp [hst, SessionState.open]) (hw frame List.mem_cons_self).nonempty
      (hw frame List.mem_cons_self).isCopy_eq
  | recvAck _ f rest unstalled hst _ _ _ _ hack =>
    obtain ⟨-, hacks, hcopy, -⟩ := ackRecv_spec (s := { ss with recvbuf := rest }) h.log h.copy hack
    have hb : Layout { ss with recvbuf := rest } := { h with }
    exact hb.acks hacks hcopy (by simp [hst, SessionState.open])
  | ackReject => exact .closedForm h.framed

end Multiplexd
