import Multiplexd.Lib.Drain
import Multiplexd.Mux.Owner
import Multiplexd.Mux.Receive

/-!
# The receive path does not see how bytes arrive

A dispatched frame takes its own bytes off the receive buffer and no others, or takes the session out of
ESTABLISHED. So what is done with a frame does not depend on the bytes behind it, and the receive path is
the drain of a self-delimiting code.
-/

namespace Multiplexd

open Session

universe u

variable {σ : Type u}

namespace Session

variable {s s' s'' : Session}

structure Keeps (s s' : Session) : Prop where
  state : s'.state = .established → s.state = .established
  streams : s'.state = .established → s'.streams = none → s.streams = none

theorem Keeps.refl (s : Session) : Keeps s s := ⟨id, fun _ => id⟩

theorem Keeps.trans (h : Keeps s s') (h' : Keeps s' s'') : Keeps s s'' :=
  ⟨fun hst => h.state (h'.state hst), fun hst hnone => h.streams (h'.state hst) (h'.streams hst hnone)⟩

theorem Same.keeps (h : Same s s') : Keeps s s' := ⟨fun hst => h.state ▸ hst, fun _ => h.streams⟩

theorem keeps_of_left (h : s'.state ≠ .established) : Keeps s s' :=
  ⟨fun hst => absurd hst h, fun hst => absurd hst h⟩

theorem reset_keeps (s : Session) : Keeps s s.reset :=
  keeps_of_left (by rw [reset_state]; nofun)

theorem initiateShutdown_keeps (s : Session) : Keeps s s.initiateShutdown := by
  refine keeps_of_left ?_
  unfold initiateShutdown
  split
  · unfold notifyClosed
    split
    next hst => rw [hst]; nofun
    · show s.reset.state ≠ _
      rw [reset_state]
      nofun
  · show (setState _ .closing).state ≠ _
    rw [setState_state]
    nofun

theorem streamAct_keeps (s : Session) (a : StreamAct) : Keeps s (s.act a) := by
  by_cases hreset : a = .reset
  · exact hreset ▸ s.reset_keeps
  · by_cases hshutdown : a = .shutdown
    · exact hshutdown ▸ s.initiateShutdown_keeps
    · exact (act_same hreset hshutdown).keeps

theorem updateSessionWindow_keeps (s : Session) (frames : Nat) : Keeps s (s.updateSessionWindow frames) := by
  unfold updateSessionWindow
  split
  · exact .refl s
  · dsimp only
    split
    · have hset : Same s { s with sessionWindow := frames, stalled := false } := ⟨rfl, id, rfl⟩
      exact (hset.trans (notifyWrite_same _)).keeps
    · exact ⟨id, fun _ => id⟩

theorem hostAct_keeps (s : Session) (a : HostAct) : Keeps s (s.hostAct a).2 := by
  cases a with
  | stream a =>
    unfold hostAct
    split
    next heq =>
      split
      · exact (sendCtrl_same s _ _ _).keeps
      · exact .refl s
    next heq =>
      cases heq
      dsimp only
      split
      · exact s.streamAct_keeps a
      · exact .refl s
    all_goals simp_all
  | probe extra payload h => exact (sendOob_same s extra payload h).keeps
  | dgram fin flow payload h => exact (sendDgram_same s fin flow payload h).keeps
  | window frames => exact s.updateSessionWindow_keeps frames
  | notify => exact ⟨id, fun _ => id⟩

theorem suspendOrReset_keeps (s : Session) : Keeps s s.suspendOrReset := by
  refine keeps_of_left ?_
  unfold suspendOrReset
  split
  · intro hst
    have hclosed := s.suspend_state (by rw [hst]; nofun)
    rw [hst] at hclosed
    cases hclosed
  · rw [reset_state]
    nofun

/-- The pump takes a session out of ESTABLISHED or leaves its table. -/
theorem keeps_pumping (s : Session) : Pumping (Keeps s) (Keeps s) where
  same h hs := h.trans hs.keeps
  reset h := h.trans (reset_keeps _)
  shutdown h _ := h.trans (initiateShutdown_keeps _)
  stopped h := h
  failed h := h.trans (suspendOrReset_keeps _)

theorem sendHandleRxClosed_keeps (s : Session) : Keeps s s.sendHandleRxClosed.2 := by
  unfold sendHandleRxClosed
  split
  · exact .refl s
  split
  · refine keeps_of_left fun hst => ?_
    have hclosed := s.suspend_state (by rw [hst]; nofun)
    rw [hst] at hclosed
    cases hclosed
  · refine keeps_of_left ?_
    show (setState _ .closing).state ≠ _
    rw [setState_state]
    nofun

end Session

open Session (Keeps)

theorem HostProg.run_keeps (p : HostProg σ) (ss : Session) : Keeps ss (p.run ss).2.2 := by
  induction p generalizing ss with
  | done host answer => exact .refl ss
  | act a next ih => exact (ss.hostAct_keeps a).trans (ih _ _ _)

namespace RecvCore

variable {H : Host σ} {k k' k'' : RecvCore σ}

structure Follows (k k' : RecvCore σ) : Prop where
  keeps : Keeps k.ss k'.ss
  dispatched : k'.dispatched = k.dispatched

theorem Follows.trans (h : Follows k k') (h' : Follows k' k'') : Follows k k'' :=
  ⟨h.keeps.trans h'.keeps, h'.dispatched.trans h.dispatched⟩

theorem onSession_follows {f : Session → Session} (h : Keeps k.ss (f k.ss)) : Follows k (k.onSession f) := ⟨h, rfl⟩

theorem callAnswer_follows (k : RecvCore σ) (c : HostCall) : Follows k (k.callAnswer H c).2 :=
  ⟨HostProg.run_keeps _ _, rfl⟩

theorem call_follows (k : RecvCore σ) (c : HostCall) : Follows k (k.call H c) := k.callAnswer_follows c

theorem sendRst_follows (k : RecvCore σ) (id : UInt16) (status : MuxStatus) : Follows k (k.sendRst H id status) := by
  have hsent : Follows k { k with ss := (k.ss.sendCtrl id flagRst status.code.toNat).2 } :=
    ⟨(sendCtrl_same _ _ _ _).keeps, rfl⟩
  exact hsent.trans (call_follows _ _)

theorem not_established_of_freed (h : k.established → k.ss.streams ≠ none) (hfreed : k.streamsFreed) :
    ¬k.established := by
  intro hst
  exact h hst (Option.isNone_iff_eq_none.mp hfreed)

end RecvCore

open RecvCore (Follows)

namespace Receiver

variable {H : Host σ} {r r' : Receiver σ} {x y rest : List UInt8} {d : List Frame} {f : Frame}

/-- Two receivers in the same state. As long as they are ESTABLISHED, one has the bytes `x` in its buffer
and the other has `rest` behind them; `d` is what they have dispatched. -/
structure Beside (x rest : List UInt8) (d : List Frame) (r r' : Receiver σ) : Prop where
  core : r'.core = r.core
  bytes : r.core.established → r.buf.readable = x ++ rest ∧ r'.buf.readable = x
  table : r.core.established → r.core.ss.streams ≠ none
  dispatched : r.core.dispatched = d

namespace Beside

theorem consume (h : Beside f.encode rest d r r') : Beside [] rest d (r.consume f.size) (r'.consume f.size) := by
  refine { h with bytes := fun hst => ?_ }
  obtain ⟨hmore, hexact⟩ := h.bytes hst
  have hlen : f.size ≤ r.buf.len := by
    rw [← r.buf.readable_length, hmore, List.length_append, f.encode_length]
    omega
  have hlen' : f.size ≤ r'.buf.len :=
    Nat.le_of_eq (by rw [← r'.buf.readable_length, hexact, f.encode_length])
  constructor
  · show (r.buf.consume f.size).readable = _
    rw [Bytebuf.readable_consume _ hlen, hmore, ← f.encode_length, List.drop_left, List.nil_append]
  · show (r'.buf.consume f.size).readable = _
    rw [Bytebuf.readable_consume _ hlen', hexact, ← f.encode_length, List.drop_length]

variable (h : Beside x rest d r r')
include h

theorem left (hdead : ¬r.core.established) : Beside y rest d r r' :=
  { h with bytes := fun hst => absurd hst hdead }

theorem freed (hfreed : r.core.streamsFreed) : Beside y rest d r r' :=
  h.left (RecvCore.not_established_of_freed h.table hfreed)

theorem update {g : RecvCore σ → RecvCore σ} (hg : Follows r.core (g r.core)) :
    Beside x rest d (r.update g) (r'.update g) := by
  have hback : (g r.core).established → r.core.established := by
    simpa [RecvCore.established] using hg.keeps.state
  refine ⟨congrArg g h.core, fun hst => ?_, fun hst hnone => ?_, hg.dispatched.trans h.dispatched⟩
  · have hst : (g r.core).established = true := hst
    simpa only [Receiver.update, h.core, hst, Bool.not_true, Bool.and_false, Bool.false_eq_true, if_false] using h.bytes (hback hst)
  · have hst : (g r.core).established = true := hst
    exact h.table (hback hst) (hg.keeps.streams (by simpa [RecvCore.established] using hst) hnone)

theorem record (f : Frame) : Beside x rest (d ++ [f]) (r.record f) (r'.record f) := by
  refine ⟨?_, h.bytes, h.table, ?_⟩
  · simp only [Receiver.record, h.core]
  · simp only [Receiver.record, h.dispatched]

theorem call (c : HostCall) : Beside x rest d (r.call H c) (r'.call H c) :=
  h.update (RecvCore.call_follows _ c)

theorem callIf (p : Prop) [Decidable p] (c : HostCall) :
    Beside x rest d (if p then r.call H c else r) (if p then r'.call H c else r') := by
  split
  · exact h.call c
  · exact h

theorem answer (c : HostCall) :
    Beside x rest d (r.update fun _ => (r.core.callAnswer H c).2) (r'.update fun _ => (r.core.callAnswer H c).2) :=
  h.update (RecvCore.callAnswer_follows _ c)

variable {g : Session → Session}

theorem onSession (hg : Keeps r.core.ss (g r.core.ss)) :
    Beside x rest d (r.update (RecvCore.onSession g)) (r'.update (RecvCore.onSession g)) :=
  h.update (RecvCore.onSession_follows hg)

theorem sendRst (id : UInt16) (status : MuxStatus) :
    Beside x rest d (r.update (RecvCore.sendRst H id status)) (r'.update (RecvCore.sendRst H id status)) :=
  h.update (RecvCore.sendRst_follows _ id status)

theorem refuse (id : UInt16) (status : MuxStatus) :
    Beside x rest d (r.refuse id status) (r'.refuse id status) :=
  h.onSession (sendCtrl_same _ _ _ _).keeps

theorem gone (hg : (g r.core.ss).state ≠ .established) :
    Beside y rest d (r.update (RecvCore.onSession g)) (r'.update (RecvCore.onSession g)) := by
  refine (h.onSession (keeps_of_left hg)).left fun hst => hg ?_
  exact eq_of_beq hst

theorem reset : Beside y rest d r.reset r'.reset :=
  h.gone (by rw [reset_state]; nofun)

end Beside

/-! ### The dispatch, branch by branch -/

theorem dispatchDgramFrame_beside (h : Beside x rest d r r') :
    Beside x rest d (r.dispatchDgramFrame H f) (r'.dispatchDgramFrame H f) := by
  unfold dispatchDgramFrame
  rw [h.core]
  split
  · exact h
  split
  · exact h.call _
  split
  · exact h.call _
  · exact h

section

variable (h : Beside f.encode rest d r r')
include h

theorem deliverPushPayload_beside :
    Beside [] rest d (r.deliverPushPayload H f) (r'.deliverPushPayload H f) := by
  have hcopy := h.call (H := H) (.recvCopy f.streamId f.payload)
  unfold deliverPushPayload
  dsimp only
  rw [hcopy.core]
  split
  next hfreed => exact hcopy.freed hfreed
  · exact hcopy.consume.call _

theorem processSynPayload_beside :
    Beside [] rest d (r.processSynPayload H f) (r'.processSynPayload H f) := by
  unfold processSynPayload
  rw [h.core]
  split
  · exact h.consume
  split
  · split
    · have habort := h.call (H := H) (.abort f.streamId .flowControlError)
      dsimp only
      rw [habort.core]
      split
      next hfreed => exact habort.freed hfreed
      · exact habort.consume
    · exact deliverPushPayload_beside h
  · exact h.consume

theorem dispatchSynAck_beside :
    Beside [] rest d (r.dispatchSynAck H f) (r'.dispatchSynAck H f) := by
  have hwindow := h.call (H := H) (.recvWindow f.streamId f.extra)
  unfold dispatchSynAck
  dsimp only
  rw [hwindow.core]
  split
  next hfreed => exact hwindow.freed hfreed
  · exact processSynPayload_beside (((hwindow.call _).call _).call _)

theorem dispatchData_beside :
    Beside [] rest d (r.dispatchData H f) (r'.dispatchData H f) := by
  unfold dispatchData
  dsimp only
  split
  · have hpush := deliverPushPayload_beside (H := H) h
    rw [hpush.core]
    split
    · exact hpush
    · exact hpush.callIf _ _
  · exact h.consume.callIf _ _

theorem dispatchClosed_beside (s : StreamView) :
    Beside [] rest d (r.dispatchClosed H s f) (r'.dispatchClosed H s f) := by
  unfold dispatchClosed
  split
  · exact h.consume
  split
  · exact h.consume
  split
  · exact (h.sendRst _ _).consume
  · exact h.consume

theorem dispatchByStream_beside (s : StreamView) :
    Beside [] rest d (r.dispatchByStream H s f) (r'.dispatchByStream H s f) := by
  unfold dispatchByStream
  split
  · exact dispatchClosed_beside h s
  split
  · exact h.consume.call _
  split
  · split
    · exact (h.sendRst _ _).consume.call _
    · exact h.consume.call _
  split
  · split
    · exact h.consume
    · exact dispatchSynAck_beside h
  split
  · have hwindow := h.call (H := H) (.recvWindow f.streamId f.extra)
    dsimp only
    rw [hwindow.core]
    split
    next hfreed => exact hwindow.freed hfreed
    · exact dispatchData_beside hwindow
  · exact dispatchData_beside h

theorem refused_beside (id : UInt16) : Beside [] rest d
      ((((r.update (RecvCore.sendRst H id .refusedStream)).call H (.refused id)).call H (.doClose id)).consume f.size)
      ((((r'.update (RecvCore.sendRst H id .refusedStream)).call H (.refused id)).call H (.doClose id)).consume f.size) :=
  (((h.sendRst _ _).call _).call _).consume

theorem dispatchAccept_beside :
    Beside [] rest d (r.dispatchAccept H f) (r'.dispatchAccept H f) := by
  have hopened := (h.call (H := H) (.sendWindow f.streamId (defaultSendWindow + f.extra.toNat * windowUnit))).call (H := H)
    (.peerStreamWindow (f.extra.toNat + 1))
  unfold dispatchAccept
  dsimp only
  rw [hopened.core]
  split
  · exact refused_beside hopened _
  · split
    · exact refused_beside (hopened.answer _) _
    · exact processSynPayload_beside (hopened.answer _)

theorem dispatchSyn_beside :
    Beside [] rest d (r.dispatchSyn H f) (r'.dispatchSyn H f) := by
  unfold dispatchSyn
  dsimp only
  rw [h.core]
  split
  · exact h.reset
  split
  · exact h.reset
  split
  · exact (h.refuse _ _).consume
  split
  · exact (h.refuse _ _).consume
  have hmade := h.answer (H := H) (.streamNew f.streamId)
  split
  · exact (hmade.refuse _ _).consume
  rw [hmade.core]
  have hadded := hmade.answer (H := H) (.addStream f.streamId)
  split
  · exact ((hadded.call _).refuse _ _).consume
  · exact dispatchAccept_beside hadded

theorem dispatchNoStream_beside :
    Beside [] rest d (r.dispatchNoStream H f) (r'.dispatchNoStream H f) := by
  have hvalid : r'.isValidPeerStreamId f.streamId = r.isValidPeerStreamId f.streamId := by
    rw [isValidPeerStreamId, h.core, isValidPeerStreamId]
  unfold dispatchNoStream
  rw [hvalid]
  split
  · exact h.reset
  split
  · exact h.consume
  split
  · exact dispatchSyn_beside h
  split
  · exact h.consume
  · exact (h.refuse _ _).consume

theorem dispatchStreamFrame_beside :
    Beside [] rest d (r.dispatchStreamFrame H f) (r'.dispatchStreamFrame H f) := by
  have hcount : Keeps r.core.ss (r.core.ss.countRecv f).ackIfDue := by
    have hseen : Same r.core.ss (r.core.ss.countRecv f) := ⟨rfl, id, rfl⟩
    unfold ackIfDue
    split
    · exact (hseen.trans (emitAck_same _)).keeps
    · exact hseen.keeps
  have hcounted := h.onSession (g := fun ss => (ss.countRecv f).ackIfDue) hcount
  unfold dispatchStreamFrame
  dsimp only
  rw [hcounted.core]
  generalize r.update _ = q at hcounted ⊢
  have harmed := hcounted.callIf (H := H) (0 < q.core.ss.unreported) .coalesceArm
  have hrst := harmed.callIf (H := H) (hasFlag f.flags flagRst) .countRst
  rw [hrst.core]
  split
  · exact dispatchByStream_beside hrst _
  · exact dispatchNoStream_beside hrst

theorem recvPing_beside :
    Beside [] rest d (r.recvPing H f) (r'.recvPing H f) := by
  unfold recvPing
  dsimp only
  rw [h.core]
  split
  · exact h.reset
  have hlimit := h.onSession (g := fun _ => (r.core.ss.hint true).2) (hint_same _ _).keeps
  split
  · exact hlimit.consume
  rw [hlimit.core]
  have hsent := (hlimit.onSession (g := fun _ => (((r.update (RecvCore.onSession fun _ =>
    (r.core.ss.hint true).2)).core.ss.sendOob ctrlPong f.payload f.payload_lt)).2) (sendOob_same _ _ _ _).keeps).consume
  split
  · exact hsent
  · exact ((hsent.call _).call _).onSession ⟨id, fun _ => id⟩

theorem recvPong_beside :
    Beside [] rest d (r.recvPong H f) (r'.recvPong H f) := by
  have hdefer := h.call (H := H) .deferKeepalive
  unfold recvPong
  dsimp only
  split
  · exact hdefer.consume
  · exact hdefer.consume.call _

theorem dispatchCtrlRest_beside :
    Beside [] rest d (r.dispatchCtrlRest H f) (r'.dispatchCtrlRest H f) := by
  unfold dispatchCtrlRest
  split
  · split
    · exact recvPing_beside h
    split
    · exact recvPong_beside h
    · exact h.consume
  · exact (dispatchDgramFrame_beside h).consume

theorem dispatchCtrlFrame_beside :
    Beside [] rest d (r.dispatchCtrlFrame H f) (r'.dispatchCtrlFrame H f) := by
  have hack := ackRecv_same r.core.ss f.extra.toNat
  unfold dispatchCtrlFrame
  rw [h.core]
  split
  · split
    · exact h.gone (by rw [reset_state]; nofun)
    split
    · exact h.gone (by rw [reset_state]; nofun)
    next unstalled ss heq =>
      rw [heq] at hack
      have htaken := h.onSession (g := fun _ => ss) hack.keeps
      have hfed := htaken.callIf (H := H) (0 < r.core.ss.bytes - ss.bytes) (.estimatorAddAcked (r.core.ss.bytes - ss.bytes))
      refine dispatchCtrlRest_beside ?_
      split
      · exact hfed.onSession (notifyWrite_same _).keeps
      · exact hfed
  · exact dispatchCtrlRest_beside h

end

variable [HelloCodec]

/-- Two receivers in the same state, one of which has more behind the frame at the front of its buffer, do
the same with the frame. Each takes it off its buffer, and nothing else. -/
theorem dispatchOne_beside (h : Beside f.encode rest d r r') (hst : r.core.established) :
    Beside [] rest (d ++ [f]) (r.dispatchOne H f) (r'.dispatchOne H f) := by
  have hlogged := h.record f
  have hstate : (r.record f).core.ss.state = .established := eq_of_beq hst
  have hstate' : (r'.record f).core.ss.state = .established := by rw [hlogged.core, hstate]
  unfold dispatchOne
  dsimp only
  simp only [hstate, hstate', reduceCtorEq, if_false, ne_eq, not_true]
  split
  · exact hlogged.reset
  split
  · exact hlogged.reset
  split
  · exact hlogged.reset
  split
  · exact dispatchCtrlFrame_beside hlogged
  · exact dispatchStreamFrame_beside hlogged

theorem dispatchOne_hello (hst : r.core.established) (hversion : f.version = 0) :
    (r.dispatchOne H f).core.ss.state = .closed := by
  have hstate : (r.record f).core.ss.state = .established := eq_of_beq hst
  unfold dispatchOne
  dsimp only
  rw [if_pos hversion, if_neg (by rw [hstate]; nofun)]
  exact reset_state _

def holding (k : RecvCore σ) (f : Frame) : Receiver σ where
  core := k
  buf := (Bytebuf.new f.size).produce f.encode

omit [HelloCodec] in
theorem holding_readable (k : RecvCore σ) (f : Frame) : (holding k f).buf.readable = f.encode := by
  have hroom : f.encode.length ≤ (Bytebuf.new f.size).writeSpace := by
    rw [f.encode_length]
    exact Nat.le_refl _
  exact (Bytebuf.readable_produce _ hroom).trans (List.nil_append _)

variable (H) in
def handle (k : RecvCore σ) (f : Frame) : RecvCore σ := ((holding k f).dispatchOne H f).core

def Ready (k : RecvCore σ) : Prop := k.established ∧ k.ss.streams ≠ none

theorem dispatchOne_spec (hready : Ready r.core) (hbuf : r.buf.readable = f.encode ++ rest) :
    (r.dispatchOne H f).core = handle H r.core f
    ∧ ((r.dispatchOne H f).core.established → (r.dispatchOne H f).buf.readable = rest ∧ Ready (r.dispatchOne H f).core)
    ∧ (r.dispatchOne H f).core.dispatched = r.core.dispatched ++ [f] := by
  have hbeside : Beside f.encode rest r.core.dispatched r (holding r.core f) :=
    ⟨rfl, fun _ => ⟨hbuf, holding_readable _ _⟩, fun _ => hready.2, rfl⟩
  have hdone := dispatchOne_beside (H := H) hbeside hready.1
  exact ⟨hdone.core.symm, fun hst => ⟨(hdone.bytes hst).1, hst, hdone.table hst⟩, hdone.dispatched⟩

variable (H) in
def drained (k : RecvCore σ) (bs : List UInt8) : RecvCore σ × List UInt8 :=
  frameCode.drain RecvCore.established (handle H) k bs

structure Agrees (p : RecvCore σ × List UInt8) (r : Receiver σ) : Prop where
  core : r.core = p.1
  rest : r.core.established → r.buf.readable = p.2
  ready : r.core.established → Ready r.core

variable {p : RecvCore σ × List UInt8}

theorem dispatchFrame_agrees (fuel : Nat) (hready : Ready r.core) (hfuel : r.buf.len ≤ fuel) :
    Agrees (drained H r.core r.buf.readable) (r.dispatchFrame H fuel) := by
  induction fuel generalizing r with
  | zero =>
    have hnil : r.buf.readable = [] := r.buf.readable_eq_nil (Nat.le_zero.mp hfuel)
    rw [drained, frameCode.drain_torn _ _ (by rw [hnil]; exact frameCode.decode_nil)]
    exact ⟨rfl, fun _ => rfl, fun _ => hready⟩
  | succ fuel ih =>
    unfold dispatchFrame
    cases hdecode : Frame.decode r.buf.readable with
    | none =>
      rw [drained, frameCode.drain_torn _ _ hdecode]
      exact ⟨rfl, fun _ => rfl, fun _ => hready⟩
    | some p =>
      obtain ⟨f, rest⟩ := p
      have hbuf := Frame.eq_of_decode hdecode
      obtain ⟨hcore, hleft, -⟩ := dispatchOne_spec (H := H) hready hbuf
      rw [drained, frameCode.drain_next _ hready.1 hdecode, ← hcore]
      dsimp only
      by_cases hst : (r.dispatchOne H f).core.established
      · obtain ⟨hrest, hready'⟩ := hleft hst
        have hversion : f.version ≠ 0 := by
          intro hversion
          have hclosed := dispatchOne_hello (H := H) hready.1 hversion
          rw [eq_of_beq hst] at hclosed
          cases hclosed
        have hlen : (r.dispatchOne H f).buf.len ≤ fuel := by
          have hlen := congrArg List.length hbuf
          rw [Bytebuf.readable_length, List.length_append, f.encode_length] at hlen
          have hpos := f.size_pos
          rw [← Bytebuf.readable_length, hrest]
          omega
        rw [if_neg (fun h => hversion h.1), if_neg (fun h => hversion h.1), if_pos hst, ← hrest]
        exact ih hready' hlen
      · have hdead : RecvCore.established (r.dispatchOne H f).core = false := by simpa using hst
        have hstate : (r.dispatchOne H f).core.ss.state ≠ .established := by
          simpa [RecvCore.established] using hst
        rw [frameCode.drain_dead _ hdead, if_neg (fun h => hstate h.2.1), if_neg, if_neg hst]
        · exact ⟨rfl, fun h => absurd h hst, fun h => absurd h hst⟩
        · intro h
          exact h.2 (dispatchOne_hello hready.1 h.1)

def Tabled (k : RecvCore σ) : Prop := k.established → k.ss.streams ≠ none

theorem handle_records (k : RecvCore σ) (f : Frame) (htabled : Tabled k) (hst : k.established) :
    (handle H k f).dispatched = k.dispatched ++ [f] ∧ Tabled (handle H k f) := by
  have hready : Ready (holding k f).core := ⟨hst, htabled hst⟩
  have hbuf : (holding k f).buf.readable = f.encode ++ [] := by rw [holding_readable, List.append_nil]
  obtain ⟨-, hleft, hdispatched⟩ := dispatchOne_spec (H := H) hready hbuf
  exact ⟨hdispatched, fun hst' => (hleft hst').2.2⟩

def account (p : RecvCore σ × List UInt8) : List UInt8 := frameCode.encodeAll p.1.dispatched ++ p.2

theorem drained_whole {k : RecvCore σ} (htabled : Tabled k) (bs : List UInt8) :
    account (drained H k bs) = account (k, bs)
    ∧ ((drained H k bs).1.established → Frame.decode (drained H k bs).2 = none) := by
  obtain ⟨hall, hrest, -⟩ := frameCode.drain_whole RecvCore.established (handle H) handle_records htabled bs
  exact ⟨hall, hrest⟩

variable (H) in
def fed (p : RecvCore σ × List UInt8) (bs : List UInt8) : RecvCore σ × List UInt8 :=
  if bs = [] then p else drained H p.1 (p.2 ++ bs)

@[simp] theorem fed_nil (p : RecvCore σ × List UInt8) : fed H p [] = p := if_pos rfl

theorem drained_append (k : RecvCore σ) (bs more : List UInt8) :
    (drained H k (bs ++ more)).1 = (fed H (drained H k bs) more).1
    ∧ ((drained H k bs).1.established → drained H k (bs ++ more) = fed H (drained H k bs) more) := by
  unfold fed
  split
  next hnil =>
    rw [hnil, List.append_nil]
    exact ⟨rfl, fun _ => rfl⟩
  · exact frameCode.drain_append _ _ k bs more

theorem fed_append (p : RecvCore σ × List UInt8) (bs more : List UInt8) :
    (fed H p (bs ++ more)).1 = (fed H (fed H p bs) more).1
    ∧ ((fed H p bs).1.established → fed H p (bs ++ more) = fed H (fed H p bs) more) := by
  by_cases hnil : bs = []
  · rw [hnil, List.nil_append, fed_nil]
    exact ⟨rfl, fun _ => rfl⟩
  · have hmore : bs ++ more ≠ [] := fun h => hnil (List.append_eq_nil_iff.mp h).1
    have happend := drained_append (H := H) p.1 (p.2 ++ bs) more
    rw [List.append_assoc] at happend
    rw [fed, if_neg hmore, show fed H p bs = drained H p.1 (p.2 ++ bs) from if_neg hnil]
    exact happend

theorem fed_dead (h : ¬p.1.established) (bs : List UInt8) : (fed H p bs).1 = p.1 := by
  unfold fed
  split
  · rfl
  · rw [drained, frameCode.drain_dead _ (by simpa using h)]

/-- What a live receiver does with more bytes. -/
theorem Agrees.append {bs more : List UInt8}
    (h : Agrees (fed H p bs) r) (hst : r.core.established) (h' : Agrees (fed H (r.core, r.buf.readable) more) r') :
    Agrees (fed H p (bs ++ more)) r' := by
  have hpair : (r.core, r.buf.readable) = fed H p bs := Prod.ext h.core (h.rest hst)
  rw [(fed_append p bs more).2 (h.core ▸ hst), ← hpair]
  exact h'

theorem Agrees.dead {bs : List UInt8} (h : Agrees (fed H p bs) r)
    (hst : ¬r.core.established) (more : List UInt8) : Agrees (fed H p (bs ++ more)) r := by
  refine ⟨?_, fun h => absurd h hst, fun h => absurd h hst⟩
  rw [(fed_append p bs more).1, fed_dead (h.core ▸ hst), h.core]

end Receiver

/-! ### Reads -/

namespace Reader

open Receiver (Ready Agrees fed drained)

variable {H : Host σ} [HelloCodec] {x x' : Reader σ} {bytes : List UInt8} {granted : Bool}

def held (x : Reader σ) : RecvCore σ × List UInt8 := (x.recv.core, x.recv.buf.readable)

/-- The reader has read `bs`, as far as it was still ESTABLISHED. -/
structure Took (H : Host σ) (x : Reader σ) (bs : List UInt8) (x' : Reader σ) : Prop where
  agrees : Agrees (fed H x.held bs) x'.recv
  count : x'.established → x'.bytesRecv = x.bytesRecv + bs.length
  starved : x'.starved = x.starved
  flushed : x'.flushed = x.flushed

theorem Took.refl (hready : Ready x.recv.core) : Took H x [] x := by
  refine ⟨?_, fun _ => rfl, rfl, rfl⟩
  rw [Receiver.fed_nil]
  exact ⟨rfl, fun _ => rfl, fun _ => hready⟩

variable {x'' : Reader σ} {bs more : List UInt8} {buf : Bytebuf}

theorem Took.append (h : Took H x bs x') (hst : x'.established)
    (h' : Took H x' more x'') : Took H x (bs ++ more) x'' := by
  refine ⟨h.agrees.append hst h'.agrees, fun hst' => ?_, h'.starved.trans h.starved, h'.flushed.trans h.flushed⟩
  rw [h'.count hst', h.count hst, List.length_append, Nat.add_assoc]

theorem Took.dead (h : Took H x bs x') (hst : ¬x'.established) (more : List UInt8) : Took H x (bs ++ more) x' :=
  ⟨h.agrees.dead hst more, fun h => absurd h hst, h.starved, h.flushed⟩

omit [HelloCodec] in
theorem recvWindow_pos (x : Reader σ) : 0 < x.recvWindow := by
  have hframe : 0 < x.frameWindow := Nat.add_pos_left (by decide) _
  unfold recvWindow
  split
  · exact hframe
  · split <;> omega

theorem produced_took (hready : Ready x.recv.core) (hbuf : buf.readable = x.recv.buf.readable)
    (hfits : bytes.length ≤ buf.writeSpace) (hsome : bytes ≠ []) : Took H x bytes (x.produced H buf bytes) := by
  have hread : (buf.produce bytes).readable = x.recv.buf.readable ++ bytes := by
    rw [Bytebuf.readable_produce _ hfits, hbuf]
  have hagrees := Receiver.dispatchFrame_agrees (H := H) _ (r := { x.recv with buf := buf.produce bytes }) hready (Nat.le_refl _)
  refine ⟨?_, fun _ => rfl, rfl, rfl⟩
  rw [Receiver.fed, if_neg hsome, held, ← hread]
  exact hagrees

/-- A read that finds memory takes some of the bytes, unless there are none. -/
theorem recvOne_took (bytes : List UInt8) (hready : Ready x.recv.core)
    (hbuf : x.recv.buf.reserve x.recvWindow granted = some buf) :
    ∃ n, (bytes ≠ [] → 0 < n) ∧ (x.recvOne H bytes granted).2 = bytes.drop n
      ∧ Took H x (bytes.take n) (x.recvOne H bytes granted).1 := by
  have hread := Bytebuf.readable_reserve hbuf
  have hroom : 0 < buf.writeSpace := Nat.lt_of_lt_of_le x.recvWindow_pos (Bytebuf.need_le_writeSpace hbuf)
  unfold recvOne
  rw [hbuf]
  dsimp only
  split
  next hzero =>
    have hnil : bytes = [] := List.eq_nil_of_length_eq_zero (by omega)
    subst hnil
    refine ⟨0, fun h => absurd rfl h, rfl, ?_, fun _ => rfl, rfl, rfl⟩
    rw [List.take_nil, Receiver.fed_nil]
    exact ⟨rfl, fun _ => hread, fun _ => hready⟩
  next hsome =>
    refine ⟨min bytes.length buf.writeSpace, fun _ => by omega, rfl, ?_⟩
    refine produced_took hready hread ?_ ?_
    · rw [List.length_take]
      omega
    · intro hnil
      have := congrArg List.length hnil
      rw [List.length_take, List.length_nil] at this
      omega

def Starved (x : Reader σ) : Prop := x.starved ∧ ¬x.established

theorem recvOne_starved (bytes : List UInt8) (hbuf : x.recv.buf.reserve x.recvWindow granted = none) :
    (x.recvOne H bytes granted).1.Starved := by
  unfold recvOne
  rw [hbuf]
  refine ⟨rfl, fun hst => ?_⟩
  have hstate : (Session.reset x.recv.core.ss).state = .established := eq_of_beq hst
  rw [reset_state] at hstate
  cases hstate

theorem recvLoop_took (x : Reader σ) (bytes : List UInt8) (granted : Bool) (hready : Ready x.recv.core) :
    Took H x bytes (x.recvLoop H bytes granted) ∨ (x.recvLoop H bytes granted).Starved := by
  induction hn : bytes.length using Nat.strongRecOn generalizing x bytes with
  | _ n ih =>
    rw [recvLoop]
    cases hbuf : x.recv.buf.reserve x.recvWindow granted with
    | none =>
      have hstarved := recvOne_starved (H := H) bytes hbuf
      rw [dif_neg (fun h => hstarved.2 h.2)]
      exact .inr hstarved
    | some buf =>
      obtain ⟨m, hpos, hrest, htook⟩ := recvOne_took (H := H) bytes hready hbuf
      have hsplit := List.take_append_drop m bytes
      split
      next hnext =>
        refine (ih _ (hn ▸ hnext.1) _ _ (htook.agrees.ready hnext.2) rfl).imp_left fun htail => ?_
        have hall : bytes.take m ++ (x.recvOne H bytes granted).2 = bytes := hrest ▸ hsplit
        have hboth := htook.append hnext.2 htail
        rwa [hall] at hboth
      next hlast =>
        refine .inl ?_
        by_cases hst : (x.recvOne H bytes granted).1.established
        · -- nothing was left: a read that leaves something has taken something
          have hall : bytes.take m = bytes := by
            by_cases hnil : bytes = []
            · rw [hnil, List.take_nil]
            · have hstuck : ¬(bytes.drop m).length < bytes.length := fun h => hlast ⟨hrest ▸ h, hst⟩
              have := hpos hnil
              have := List.length_pos_of_ne_nil hnil
              rw [List.length_drop] at hstuck
              omega
          rwa [hall] at htook
        · have hdead := htook.dead hst (bytes.drop m)
          rwa [hsplit] at hdead

/-- A read before its responses are flushed. -/
def received (H : Host σ) (x : Reader σ) (rd : Read) : Reader σ := (x.recvLoop H rd.bytes rd.granted).shrink rd.shrunk

theorem received_took (rd : Read) (hready : Ready x.recv.core) :
    Took H x rd.bytes (x.received H rd) ∨ (x.received H rd).Starved :=
  (recvLoop_took x rd.bytes rd.granted hready).imp_left fun h =>
    { h with agrees := { h.agrees with rest := fun hst => (Bytebuf.readable_shrink _ _ _).trans (h.agrees.rest hst) } }

theorem onRecv_of_unflushed {rd : Read} (h : (x.onRecv H rd).flushed = false) : x.onRecv H rd = x.received H rd := by
  unfold onRecv flushResp at h ⊢
  split at h
  · cases h
  next hclear => exact if_neg hclear

theorem recvOne_flushed (x : Reader σ) (bytes : List UInt8) (granted : Bool) :
    (x.recvOne H bytes granted).1.flushed = x.flushed := by
  unfold recvOne
  split
  · rfl
  · dsimp only
    split <;> rfl

theorem recvLoop_flushed (x : Reader σ) (bytes : List UInt8) (granted : Bool) :
    (x.recvLoop H bytes granted).flushed = x.flushed := by
  fun_induction recvLoop H x bytes granted with
  | case1 x bytes next hnext ih => exact ih.trans (recvOne_flushed x bytes granted)
  | case2 x bytes next hlast => exact recvOne_flushed x bytes granted

theorem onRecv_flushed (rd : Read) (h : x.flushed = true) : (x.onRecv H rd).flushed = true := by
  unfold onRecv flushResp
  split
  · rfl
  · exact (recvLoop_flushed x rd.bytes rd.granted).trans h

theorem reads_flushed (rds : List Read) (h : x.flushed = true) : (x.reads H rds).flushed = true := by
  refine List.foldlRecOn (motive := fun x : Reader σ => x.flushed = true) rds _ h fun x hx rd _ => ?_
  split
  · exact onRecv_flushed rd hx
  · exact hx

theorem turns_dead (ts : List (Turn σ)) (hst : ¬x.established) : x.turns H ts = x := by
  induction ts with
  | nil => rfl
  | cons t ts ih =>
    have hturn : x.turn H t = x := if_neg hst
    rw [turns, List.foldl_cons, hturn]
    exact ih

theorem reads_eq_turns (x : Reader σ) (rds : List Read) : x.reads H rds = x.turns H (rds.map .read) := by
  rw [turns, List.foldl_map]
  rfl

/-- The bytes of several reads. -/
def stream (rds : List Read) : List UInt8 := (rds.map Read.bytes).flatten

theorem reads_took (rds : List Read) (hready : Ready x.recv.core) (hflushed : (x.reads H rds).flushed = false) :
    Took H x (stream rds) (x.reads H rds) ∨ (x.reads H rds).Starved := by
  induction rds generalizing x with
  | nil => exact .inl (.refl hready)
  | cons rd rds ih =>
    have hlive : x.established = true := hready.1
    have hcons : x.reads H (rd :: rds) = (x.onRecv H rd).reads H rds := by
      rw [reads, List.foldl_cons, if_pos hlive, reads]
    have hstream : stream (rd :: rds) = rd.bytes ++ stream rds := rfl
    rw [hcons] at hflushed ⊢
    rw [hstream]
    have hunflushed : (x.onRecv H rd).flushed = false := by
      by_contra h
      simp [reads_flushed rds (Bool.eq_true_of_not_eq_false h)] at hflushed
    have hone := received_took (H := H) rd hready
    rw [← onRecv_of_unflushed hunflushed] at hone
    by_cases hst : (x.onRecv H rd).established
    · rcases hone with htook | hstarved
      · exact (ih (htook.agrees.ready hst) hflushed).imp_left (htook.append hst)
      · exact absurd hst hstarved.2
    · rw [reads_eq_turns, turns_dead _ hst]
      exact hone.imp_left fun htook => htook.dead hst _

/-! ### Reads among other callbacks -/

/-- The reader is at a frame boundary: what it has read and what it had are the frames it has dispatched
and the bytes in its buffer. Once it has read anything, or when none did before, no whole frame waits. -/
structure Framed (x : Reader σ) (bs : List UInt8) (x' : Reader σ) : Prop where
  ready : Ready x'.recv.core
  account : Receiver.account x'.held = Receiver.account x.held ++ bs
  torn : bs ≠ [] ∨ Frame.decode x.recv.buf.readable = none → Frame.decode x'.recv.buf.readable = none
  count : x'.bytesRecv = x.bytesRecv + bs.length

omit [HelloCodec] in
theorem Framed.account_append (h : Framed x bs x') (more : List UInt8) :
    Receiver.account (x'.recv.core, x'.recv.buf.readable ++ more) = Receiver.account x.held ++ (bs ++ more) := by
  rw [← List.append_assoc, ← h.account, Receiver.account, Receiver.account, ← List.append_assoc]
  rfl

theorem Framed.drain (h : Framed x bs x') (hst : x''.established)
    (hagrees : Agrees (drained H x'.recv.core (x'.recv.buf.readable ++ more)) x''.recv)
    (hcount : x''.bytesRecv = x'.bytesRecv + more.length) : Framed x (bs ++ more) x'' := by
  obtain ⟨haccount, htorn⟩ := Receiver.drained_whole (H := H) (fun _ => h.ready.2) (x'.recv.buf.readable ++ more)
  have hheld : x''.held = drained H x'.recv.core (x'.recv.buf.readable ++ more) :=
    Prod.ext hagrees.core (hagrees.rest hst)
  refine ⟨hagrees.ready hst, ?_, fun _ => ?_, ?_⟩
  · rw [hheld, haccount, h.account_append]
  · rw [hagrees.rest hst]
    exact htorn (hagrees.core ▸ hst)
  · rw [hcount, h.count, List.length_append, Nat.add_assoc]

theorem Framed.took (h : Framed x bs x') (hst : x''.established) (htook : Took H x' more x'') :
    Framed x (bs ++ more) x'' := by
  have hagrees := htook.agrees
  by_cases hnil : more = []
  · subst hnil
    rw [Receiver.fed_nil] at hagrees
    rw [List.append_nil]
    refine ⟨hagrees.ready hst, ?_, fun hsome => ?_, (htook.count hst).trans h.count⟩
    · rw [← h.account, held, hagrees.core, hagrees.rest hst]
    · rw [hagrees.rest hst]
      exact h.torn hsome
  · rw [Receiver.fed, if_neg hnil] at hagrees
    exact h.drain hst hagrees (htook.count hst)

theorem Framed.dispatchPending (h : Framed x bs x') (hst : (x'.dispatchPending H).established) :
    Framed x bs (x'.dispatchPending H) := by
  have hagrees := Receiver.dispatchFrame_agrees (H := H) _ h.ready (Nat.le_refl _)
  rw [← List.append_nil x'.recv.buf.readable] at hagrees
  simpa using h.drain hst hagrees rfl

/-- The session and its host go on without touching the buffer. -/
def moved (x : Reader σ) (ss : Session) (host : σ) : Reader σ :=
  { x with recv := x.recv.update fun k => { k with ss := ss, host := host } }

omit [HelloCodec] in
theorem Framed.moved {ss : Session} {w : σ} (h : Framed x bs x') (table : ss.state = .established → ss.streams ≠ none)
    (hst : (x'.moved ss w).established) : Framed x bs (x'.moved ss w) := by
  have hbuf : (x'.moved ss w).recv.buf = x'.recv.buf := by
    have hboth : (x'.recv.core.established && !(x'.moved ss w).established) = false := by
      rw [hst, Bool.not_true, Bool.and_false]
    exact if_neg (Bool.eq_false_iff.mp hboth)
  refine ⟨⟨hst, table (eq_of_beq hst)⟩, ?_, ?_, h.count⟩
  · rw [← h.account, held, held, hbuf]
    rfl
  · rw [hbuf]
    exact h.torn

theorem Framed.onSend (h : Framed x bs x') (fuel : Nat) (hst : (x'.onSend H fuel).established) :
    Framed x bs (x'.onSend H fuel) := by
  have hstart : Keeps x'.recv.core.ss { x'.recv.core.ss with txPending := false } := ⟨id, fun _ => id⟩
  have hclosed := hstart.trans (sendHandleRxClosed_keeps _)
  have htable {ss : Session} (hkeeps : Keeps x'.recv.core.ss ss) (hlive : ss.state = .established) :
      ss.streams ≠ none := fun hnone => h.ready.2 (hkeeps.streams hlive hnone)
  revert hst
  unfold Reader.onSend
  split
  next ss heq =>
    rw [heq] at hclosed
    exact fun hst => h.moved (w := x'.recv.core.host) (htable hclosed) hst
  next ss heq =>
    rw [heq] at hclosed
    have hpumping := keeps_pumping x'.recv.core.ss
    have hpump := hpumping.same (hpumping.sendPump fuel (hpumping.drainLp hclosed)) (settle_same _)
    have hmoved (hlive : (x'.moved (sendPump fuel ss.drainLp).settle (H.pumped x'.recv.core.host)).established) :=
      h.moved (htable hpump) hlive
    dsimp only
    split
    next hgo => exact fun hst => (hmoved hgo.2).dispatchPending hst
    · exact fun hst => hmoved hst

theorem Framed.onRecv (h : Framed x bs x') (rd : Read) (hst : (x'.onRecv H rd).established) :
    Framed x (bs ++ rd.bytes) (x'.onRecv H rd) := by
  have hreceived (hlive : (x'.received H rd).established) : Framed x (bs ++ rd.bytes) (x'.received H rd) := by
    rcases received_took (H := H) rd h.ready with htook | hstarved
    · exact h.took hlive htook
    · exact absurd hlive hstarved.2
  revert hst
  unfold Reader.onRecv flushResp
  split
  next hflush =>
    intro hst
    have hsent := (hreceived hflush.1).onSend rd.fuel hst
    exact { hsent with }
  · exact hreceived

theorem turn_framed (h : Framed x bs x') (t : Turn σ) (hst : (x'.turn H t).established) :
    Framed x (bs ++ t.bytes) (x'.turn H t) := by
  have hlive : x'.established = true := h.ready.1
  have hturn : x'.turn H t = x'.take H t := if_pos hlive
  rw [hturn] at hst ⊢
  cases t with
  | read rd => exact h.onRecv rd hst
  | pending => exact (List.append_nil bs).symm ▸ h.dispatchPending hst
  | other ss host table => exact (List.append_nil bs).symm ▸ h.moved table hst

theorem turns_framed (ts : List (Turn σ)) (h : Framed x bs x')
    (hst : (x'.turns H ts).established) : Framed x (bs ++ arrived ts) (x'.turns H ts) := by
  induction ts generalizing bs x' with
  | nil =>
    rw [arrived, List.map_nil, List.flatten_nil, List.append_nil]
    exact h
  | cons t ts ih =>
    have hcons : x'.turns H (t :: ts) = (x'.turn H t).turns H ts := rfl
    rw [hcons] at hst ⊢
    have hnext : (x'.turn H t).established := by
      by_contra hdead
      rw [turns_dead ts hdead] at hst
      exact hdead hst
    have hbytes : arrived (t :: ts) = t.bytes ++ arrived ts := rfl
    rw [hbytes, ← List.append_assoc]
    exact ih (turn_framed h t hnext) hst

omit [HelloCodec] in
theorem framed_refl (hready : Ready x.recv.core) : Framed x [] x :=
  ⟨hready, (List.append_nil _).symm, fun h => h.resolve_left fun hne => hne rfl, rfl⟩

theorem reads_framed (rds : List Read) (hready : Ready x.recv.core) (hst : (x.reads H rds).established) :
    Framed x (stream rds) (x.reads H rds) := by
  have harrived : arrived (rds.map (Turn.read (σ := σ))) = stream rds := by
    rw [arrived, List.map_map]
    rfl
  rw [reads_eq_turns] at hst ⊢
  rw [← harrived, ← List.nil_append (arrived _)]
  exact turns_framed _ (framed_refl hready) hst

/-- What is received does not depend on how the bytes of an ESTABLISHED session arrive. Two ways to cut the
same bytes into reads that both leave it ESTABLISHED dispatch the same frames and leave the same bytes in
the buffer. The session and its host are the same too unless a read flushes its responses at once, for how
much it then finds to send depends on the cut; a read that finds no memory ends the session. Whatever else
happens between the reads, the frames dispatched are those the bytes read consist of, and the buffer starts
at a frame boundary. -/
theorem reads_of_stream (H : Host σ) (x : Reader σ) (hready : Ready x.recv.core) :
    (∀ f rest, x.recv.buf.readable = f.encode ++ rest →
      (x.recv.dispatchOne H f).core.dispatched = x.recv.core.dispatched ++ [f]
      ∧ ((x.recv.dispatchOne H f).core.established →
        (x.recv.dispatchOne H f).buf.readable = rest
        ∧ x.recv.buf.len = 8 + f.payload.length + (x.recv.dispatchOne H f).buf.len))
    ∧ (∀ rds rds', stream rds = stream rds' → stream rds ≠ [] ∨ Frame.decode x.recv.buf.readable = none →
      (x.reads H rds).established → (x.reads H rds').established →
      (x.reads H rds).recv.core.dispatched = (x.reads H rds').recv.core.dispatched
      ∧ (x.reads H rds).recv.buf.readable = (x.reads H rds').recv.buf.readable
      ∧ (x.reads H rds).bytesRecv = (x.reads H rds').bytesRecv)
    ∧ (∀ rds rds', stream rds = stream rds' →
      (x.reads H rds).starved = false → (x.reads H rds').starved = false →
      (x.reads H rds).flushed = false → (x.reads H rds').flushed = false →
      (x.reads H rds).recv.core = (x.reads H rds').recv.core
      ∧ ((x.reads H rds).established →
        (x.reads H rds).recv.buf.readable = (x.reads H rds').recv.buf.readable
        ∧ (x.reads H rds).bytesRecv = (x.reads H rds').bytesRecv))
    ∧ (∀ ts, (x.turns H ts).established →
      frameCode.encodeAll (x.turns H ts).recv.core.dispatched ++ (x.turns H ts).recv.buf.readable =
        frameCode.encodeAll x.recv.core.dispatched ++ x.recv.buf.readable ++ arrived ts
      ∧ (arrived ts ≠ [] → Frame.decode (x.turns H ts).recv.buf.readable = none)) := by
  refine ⟨fun f rest hbuf => ?_, fun rds rds' hstream hsome hst hst' => ?_,
    fun rds rds' hstream hfed hfed' hflushed hflushed' => ?_, fun ts hst => ?_⟩
  · obtain ⟨-, hleft, hdispatched⟩ := Receiver.dispatchOne_spec (H := H) hready hbuf
    refine ⟨hdispatched, fun hst => ?_⟩
    obtain ⟨hrest, -⟩ := hleft hst
    refine ⟨hrest, ?_⟩
    rw [← Bytebuf.readable_length, ← Bytebuf.readable_length, hbuf, hrest, List.length_append, f.encode_length]
    rfl
  · have hframed := reads_framed (H := H) rds hready hst
    have hframed' := reads_framed (H := H) rds' hready hst'
    rw [← hstream] at hframed'
    obtain ⟨hdispatched, hrest⟩ := frameCode.encodeAll_torn_inj (hframed.account.trans hframed'.account.symm)
      (hframed.torn hsome) (hframed'.torn hsome)
    exact ⟨hdispatched, hrest, hframed.count.trans hframed'.count.symm⟩
  · have htook := (reads_took (H := H) rds hready hflushed).resolve_right fun h => by simp [h.1] at hfed
    have htook' := (reads_took (H := H) rds' hready hflushed').resolve_right fun h => by simp [h.1] at hfed'
    have hcore : (x.reads H rds).recv.core = (x.reads H rds').recv.core := by
      rw [htook.agrees.core, htook'.agrees.core, hstream]
    refine ⟨hcore, fun hst => ?_⟩
    have hst' : (x.reads H rds').established := by rw [established, ← hcore]; exact hst
    refine ⟨?_, ?_⟩
    · rw [htook.agrees.rest hst, htook'.agrees.rest hst', hstream]
    · rw [htook.count hst, htook'.count hst', hstream]
  · have hframed := turns_framed ts (framed_refl hready) hst
    rw [List.nil_append] at hframed
    exact ⟨hframed.account, fun hne => hframed.torn (.inl hne)⟩

end Reader

def idleHost : Host Unit where
  find _ _ := none
  ask _ _ := false
  call _ _ _ := .done () false
  pumped := id

def pingFrame : Frame := oobFrame ctrlPing [7, 8] (by decide)

/-- Data of a stream that is not there. -/
def strayFrame : Frame where
  version := protocolVersion
  flags := flagPush
  streamId := 1
  extra := 0
  payload := [9]
  payload_lt := by decide

/-- An ESTABLISHED session with an empty buffer. -/
def listening : Reader Unit where
  recv :=
    { core :=
        { ss := { Session.new true false 0 16 4 with state := .established, writes := List.replicate 4 (.sent 100) }
          host := ()
          dispatched := [] }
      buf := Bytebuf.new 64 }
  readahead := 0
  tlsOffload := false
  bytesRecv := 0
  starved := false
  flushed := false

def atOnce : List Read := [{ bytes := pingFrame.encode ++ strayFrame.encode, fuel := 8 }]

def inTwo : List Read := [{ bytes := pingFrame.encode, fuel := 8 }, { bytes := strayFrame.encode, fuel := 8 }]

section Scenario

attribute [local instance] plainHelloCodec

theorem reads_of_stream_inTwo :
    Receiver.Ready listening.recv.core ∧ (listening.reads idleHost atOnce).recv.core.dispatched = [pingFrame, strayFrame] ∧
      (listening.reads idleHost inTwo).recv.core.dispatched = [pingFrame, strayFrame] := by
  have hready : Receiver.Ready listening.recv.core := ⟨rfl, nofun⟩
  have hone : (listening.reads idleHost atOnce).recv.core.dispatched = [pingFrame, strayFrame] := by decide +kernel
  have hsame := (Reader.reads_of_stream idleHost listening hready).2.1 atOnce inTwo (by decide) (.inl (by decide))
    (by decide +kernel) (by decide +kernel)
  exact ⟨hready, hone, hsame.1.symm.trans hone⟩

/-- Read in one piece, the ping is answered while the RST for the stray frame already lies in the send
buffer, and nothing is flushed at once. Read in two, the answer to the ping is on the transport before the
stray frame arrives. -/
theorem cut_changes_session :
    Reader.stream atOnce = Reader.stream inTwo ∧
      (listening.reads idleHost atOnce).established ∧ (listening.reads idleHost inTwo).established ∧
      (listening.reads idleHost atOnce).recv.core.ss.oobbuf.length = 1 ∧
      (listening.reads idleHost inTwo).recv.core.ss.oobbuf.length = 0 ∧
      (listening.reads idleHost atOnce).recv.core.ss.out = [] ∧
      (listening.reads idleHost inTwo).recv.core.ss.out = (oobFrame ctrlPong [7, 8] (by decide)).encode := by
  decide +kernel

end Scenario

end Multiplexd
