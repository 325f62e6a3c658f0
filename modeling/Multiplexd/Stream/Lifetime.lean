import Multiplexd.Stream.Arrivals

/-!
# The life of one stream

A stream from its creation on, whatever its peer sends: it is opened by this end, or comes into being
with a SYN and goes through `on_accept`, and then sees events and frames in any order. Two results are
about every such life: what is queued for sending always fits the credit (`run_queueFits`), and a stream
sends at most one RST (`run_rsts`), provided that `on_accept` does not reject a stream it has already
caused to be reset.
-/

namespace Multiplexd

/-- How a stream comes into being. -/
inductive StreamOrigin where
  | opened (id : UInt16) (conf : StreamConf) (window : Nat) (auto : Bool)
  | accepted (id : UInt16) (conf : StreamConf) (window : Nat) (auto : Bool) (i : StreamInputs) (f : Frame)
      (calls : List StreamCall) (keeps : Bool)

def StreamOrigin.stream : StreamOrigin → Stream
  | .opened id conf window auto => (Stream.new id conf window auto true).wake
  | .accepted id conf window auto i f calls keeps => Stream.accept id conf window auto i f calls keeps

/-- `on_accept` does not reject a stream for which an RST has been queued under its hands. -/
def StreamOrigin.Clean : StreamOrigin → Prop
  | .opened .. => True
  | .accepted id conf window auto i f calls keeps =>
    keeps = false → (calls.foldl Stream.call (Stream.newAccepted id conf window auto i f)).rstSent = false

inductive StreamInput where
  | act (e : StreamEvent) (i : StreamInputs)
  | frame (f : Frame) (i : StreamInputs)

structure StreamLife where
  stream : Stream
  sent : List Frame

namespace StreamLife

def step (o : StreamLife) : StreamInput → StreamLife
  | .act (.transmit n) _ =>
    { stream := { o.stream with egress := o.stream.egress.drop n }, sent := o.sent ++ o.stream.egress.take n }
  | .act e i => { o with stream := (o.stream.load i).handle e }
  | .frame f i => { o with stream := (o.stream.load i).dispatchByStream f }

def run (origin : StreamOrigin) (es : List StreamInput) : StreamLife := runFrom step ⟨origin.stream, []⟩ es

def out (o : StreamLife) : List Frame := o.sent ++ o.stream.egress

structure Sound (s : Stream) : Prop where
  intact : s.Intact
  opening : s.core.Opening

theorem Sound.steps {s s' : Stream} {t : Taken} (hs : Sound s) (h : StreamCore.Moves t s.core s'.core) : Sound s' :=
  ⟨h.intact hs.intact, h.opening hs.opening⟩

theorem new_sound (id : UInt16) (conf : StreamConf) (window : Nat) (auto : Bool) :
    Sound (Stream.new id conf window auto true) :=
  ⟨⟨fun _ => ⟨rfl, rfl, rfl⟩, nofun⟩, ⟨fun _ => rfl, fun _ => ⟨rfl, rfl, Nat.zero_le _⟩⟩⟩

variable (id : UInt16) (conf : StreamConf) (window : Nat) (auto : Bool) (i : StreamInputs) (f : Frame) (calls : List StreamCall)

theorem asked_sound : Sound (calls.foldl Stream.call (Stream.newAccepted id conf window auto i f)) := by
  have hnew : Sound (Stream.newAccepted id conf window auto i f) :=
    ⟨Stream.newAccepted_intact id conf window auto i f, .of_answered nofun nofun⟩
  exact hnew.steps (Stream.calls_own hnew.intact calls)

theorem asked_recvbuf : (calls.foldl Stream.call (Stream.newAccepted id conf window auto i f)).recvbuf = [] :=
  (Stream.calls_own (Stream.newAccepted_intact id conf window auto i f) calls).recvbuf_nil rfl

theorem asked_bytesReceived :
    (calls.foldl Stream.call (Stream.newAccepted id conf window auto i f)).bytesReceived = 0 :=
  (Stream.calls_own (Stream.newAccepted_intact id conf window auto i f) calls).bytesReceived

theorem origin_sound (origin : StreamOrigin) : Sound origin.stream := by
  cases origin with
  | opened id conf window auto =>
    have hwake : Stream.Own (Stream.new id conf window auto true) (Stream.new id conf window auto true).wake :=
      .of_core (Stream.wake_core _)
    exact (new_sound id conf window auto).steps hwake
  | accepted id conf window auto i f calls keeps =>
    have hasked := asked_sound id conf window auto i f calls
    show Sound (if keeps then _ else _)
    cases keeps with
    | true =>
      obtain ⟨t, h⟩ := Stream.processSynPayload_steps hasked.intact (asked_bytesReceived id conf window auto i f calls) f
      exact hasked.steps h
    | false =>
      rcases Stream.reject_cases (asked_recvbuf id conf window auto i f calls) with ⟨-, hown⟩ | ⟨hst, sent, hcore⟩
      · exact hasked.steps hown
      · have hclosed := congrArg StreamCore.state hcore
        refine ⟨⟨fun h => absurd (hclosed.trans hst) h, fun _ => ?_⟩, .of_answered ?_ ?_⟩
        · exact (congrArg StreamCore.recvbuf hcore).trans (asked_recvbuf id conf window auto i f calls)
        · exact fun h => nomatch h.symm.trans (hclosed.trans hst)
        · exact fun h => nomatch h.symm.trans (hclosed.trans hst)

theorem step_act (o : StreamLife) (e : StreamEvent) (i : StreamInputs) (he : ¬ ∃ n, e = .transmit n) :
    o.step (.act e i) = { o with stream := (o.stream.load i).handle e } := by
  cases e with
  | transmit n => exact absurd ⟨n, rfl⟩ he
  | _ => rfl

/-- What the moves of a stream and the transmission of its frames keep, holds throughout its life. -/
theorem run_invariant (Q : StreamLife → Prop) {origin : StreamOrigin} (horigin : Q ⟨origin.stream, []⟩)
    (hmoves : ∀ {o : StreamLife} {s : Stream} {t : Taken}, Sound o.stream → StreamCore.Moves t o.stream.core s.core →
      Q o → Q { o with stream := s })
    (htransmit : ∀ {o : StreamLife} (n : Nat), Q o →
      Q ⟨{ o.stream with egress := o.stream.egress.drop n }, o.sent ++ o.stream.egress.take n⟩)
    (es : List StreamInput) : Q (run origin es) := by
  refine (runFrom_invariant_always (fun o : StreamLife => Sound o.stream ∧ Q o) ?_
    ⟨origin_sound origin, horigin⟩ es).2
  intro o e ⟨hs, hq⟩
  have hload : ∀ i : StreamInputs, Sound (o.stream.load i) := fun i => ⟨hs.intact, hs.opening⟩
  have hown : ∀ (i : StreamInputs) (e : StreamEvent),
      Sound ((o.stream.load i).handle e) ∧ Q { o with stream := (o.stream.load i).handle e } := by
    intro i e
    have h : StreamCore.Moves {} o.stream.core ((o.stream.load i).handle e).core :=
      Stream.handle_own (hload i).intact e
    exact ⟨hs.steps h, hmoves hs h hq⟩
  cases e with
  | act e i =>
    by_cases he : ∃ n, e = .transmit n
    · obtain ⟨n, rfl⟩ := he
      exact ⟨⟨⟨hs.intact.unreset, hs.intact.drained⟩, ⟨hs.opening.unsent, hs.opening.initial⟩⟩, htransmit n hq⟩
    · rw [step_act o e i he]
      exact hown i e
  | frame f i =>
    obtain ⟨t, h⟩ := Stream.dispatchByStream_steps (hload i).intact (hload i).opening f
    exact ⟨hs.steps h, hmoves hs h hq⟩

end StreamLife

/-! ### RST frames -/

/-- The number of RST frames. -/
def rsts (fs : List Frame) : Nat := fs.countP fun f => hasFlag f.flags flagRst

@[simp] theorem rsts_append (fs gs : List Frame) : rsts (fs ++ gs) = rsts fs + rsts gs := List.countP_append ..

theorem rsts_filter (fs : List Frame) : rsts (fs.filter fun f => hasFlag f.flags flagRst) = rsts fs := by
  simp [rsts, List.countP_filter]

theorem rsts_rst (id : UInt16) (code : MuxStatus) : rsts [Session.ctrlFrame id flagRst code.code.toNat] = 1 := by
  simp [rsts, Stream.isRst_ctrlFrame]

theorem rsts_ctrl {flags : UInt8} (h : hasFlag flags flagRst = false) (id : UInt16) (extra : Nat) :
    rsts [Session.ctrlFrame id flags extra] = 0 := by
  simp [rsts, Session.ctrlFrame, h]

theorem rsts_push {flags : UInt8} (h : hasFlag flags flagRst = false) (id : UInt16) (extra : Nat) (ch : Chunk) :
    rsts [Stream.pushFrame id flags extra ch] = 0 := by
  simp [rsts, Stream.pushFrame, h]

theorem hasFlag_withFlags_rst (inc : Nat) (fin : Bool) :
    hasFlag (StreamCore.withFlags 0 inc fin) flagRst = false ∧
      hasFlag (StreamCore.withFlags flagPush inc fin) flagRst = false := by
  unfold StreamCore.withFlags
  by_cases h : 0 < inc <;> cases fin <;> simp only [h, if_true, if_false] <;> decide

namespace StreamCore

variable {c c' : StreamCore} {peer : Bool}

theorem Falling.rsts_balance (h : Falling peer c c') : rsts c'.egress + c.rstSent.toNat = rsts c.egress + c'.rstSent.toNat := by
  rcases h.frames with ⟨hsent, heg | ⟨-, heg⟩⟩ | ⟨-, hsent, hsent', code, heg⟩
  · rw [hsent, heg, rsts_filter]
  · rw [hsent, heg]
  · rw [heg, hsent, hsent', rsts_append, rsts_filter, rsts_rst]
    rfl

theorem Step.rsts_balance (h : Step c c') (hc : c.Intact) :
    rsts c'.egress + c.rstSent.toNat = rsts c.egress + c'.rstSent.toNat := by
  cases h with
  | syn | ack | synAck => rw [rsts_append, rsts_ctrl (by decide), Nat.add_zero]
  | synPush => rw [rsts_append, rsts_push (by decide), Nat.add_zero]
  | push => rw [rsts_append, rsts_push (hasFlag_withFlags_rst _ _).2, Nat.add_zero]
  | fin => rw [rsts_append, rsts_ctrl (hasFlag_withFlags_rst _ _).1, Nat.add_zero]
  | reset _ _ _ _ hfall => exact hfall.rsts_balance
  | resetAck _ _ _ hfall =>
    rw [rsts_append, rsts_ctrl (by decide)]
    exact hfall.rsts_balance
  | reject sent _ hst =>
    rw [(hc.unreset hst).2.2]
    cases sent with
    | true => rw [rsts_append, if_pos rfl, rsts_rst]; rfl
    | false => simp
  | eof | queue | window | consume | eofSeen | close => rfl

theorem Input.rsts_balance {t : Taken} (h : Input t c c') (hc : c.Intact) :
    rsts c'.egress + c.rstSent.toNat = rsts c.egress + c'.rstSent.toNat := by
  cases h with
  | spill _ _ _ _ _ hfall | rst _ hfall | overflow _ _ _ _ hfall | excess _ _ _ _ hfall => exact hfall.rsts_balance
  | invalid sent hst hfall =>
    have hrsts := hfall.rsts_balance
    rw [(hc.unreset hst).2.2]
    cases sent with
    | true =>
      rw [rsts_append, if_pos rfl, rsts_rst, Bool.toNat_true] at hrsts
      rw [Bool.toNat_false]
      omega
    | false => simpa using hrsts
  | late _ hrst =>
    rw [rsts_append, rsts_rst, hrst]
    rfl
  | credit | start | data | direct | fin => rfl

theorem Moves.rsts_balance {t : Taken} (h : Moves t c c') (hc : c.Intact) :
    rsts c'.egress + c.rstSent.toNat = rsts c.egress + c'.rstSent.toNat := by
  induction h with
  | refl => rfl
  | own h _ ih =>
    have hfirst := h.rsts_balance hc
    have hrest := ih (h.intact hc)
    omega
  | input h _ ih =>
    have hfirst := h.rsts_balance hc
    have hrest := ih (h.intact hc)
    omega

end StreamCore

namespace StreamLife

def Latched (o : StreamLife) : Prop := rsts o.out = o.stream.rstSent.toNat

theorem Latched.moves {o : StreamLife} {s : Stream} {t : Taken} (hs : Sound o.stream)
    (h : StreamCore.Moves t o.stream.core s.core) (ho : o.Latched) : Latched { o with stream := s } := by
  have hbalance := h.rsts_balance hs.intact
  unfold Latched out at ho ⊢
  rw [rsts_append] at ho ⊢
  show rsts o.sent + rsts s.core.egress = s.core.rstSent.toNat
  have hsent : o.stream.core.rstSent = o.stream.rstSent := rfl
  have hegress : o.stream.core.egress = o.stream.egress := rfl
  rw [hsent, hegress] at hbalance
  omega

theorem origin_latched {origin : StreamOrigin} (h : origin.Clean) : Latched ⟨origin.stream, []⟩ := by
  cases origin with
  | opened id conf window auto =>
    have hwake : Stream.Own (Stream.new id conf window auto true) (Stream.new id conf window auto true).wake :=
      .of_core (Stream.wake_core _)
    exact Latched.moves (o := ⟨Stream.new id conf window auto true, []⟩) (new_sound id conf window auto) hwake rfl
  | accepted id conf window auto i f calls keeps =>
    have hnew := Stream.newAccepted_intact id conf window auto i f
    have hasked : Latched ⟨calls.foldl Stream.call (Stream.newAccepted id conf window auto i f), []⟩ :=
      Latched.moves (o := ⟨Stream.newAccepted id conf window auto i f, []⟩) ⟨hnew, .of_answered nofun nofun⟩
        (Stream.calls_own hnew calls) rfl
    have hsound := asked_sound id conf window auto i f calls
    show Latched ⟨if keeps then _ else _, []⟩
    cases keeps with
    | true =>
      obtain ⟨t, hsteps⟩ := Stream.processSynPayload_steps hsound.intact
        (asked_bytesReceived id conf window auto i f calls) f
      exact hasked.moves hsound hsteps
    | false =>
      rcases Stream.reject_cases (asked_recvbuf id conf window auto i f calls) with ⟨-, hown⟩ | ⟨-, sent, hcore⟩
      · exact Latched.moves (o := ⟨_, []⟩) hsound hown hasked
      · -- reset before, but without an RST: the rejection sends the first one
        have hrst := h rfl
        have hnone : rsts (calls.foldl Stream.call (Stream.newAccepted id conf window auto i f)).egress = 0 := by
          have hzero := hasked
          unfold Latched out at hzero
          rw [hrst] at hzero
          exact hzero
        show rsts (Stream.reject _).core.egress = (Stream.reject _).core.rstSent.toNat
        rw [hcore, rsts_append, hnone]
        cases sent <;> simp [rsts_rst]; rfl

theorem run_latched {origin : StreamOrigin} (h : origin.Clean) (es : List StreamInput) : (run origin es).Latched := by
  refine run_invariant Latched (origin_latched h) Latched.moves ?_ es
  intro o n ho
  unfold Latched out at ho ⊢
  show rsts ((o.sent ++ o.stream.egress.take n) ++ o.stream.egress.drop n) = _
  rw [List.append_assoc, List.take_append_drop]
  exact ho

/-- A stream queues at most one RST in its life, and `rst_sent` says whether it has. -/
theorem run_one_rst (origin : StreamOrigin) (h : origin.Clean) (es : List StreamInput) :
    rsts (run origin es).out ≤ 1 ∧ ((run origin es).stream.rstSent = true ↔ rsts (run origin es).out = 1) := by
  have hlatched : rsts (run origin es).out = (run origin es).stream.rstSent.toNat := run_latched h es
  rw [hlatched]
  exact ⟨Bool.toNat_le _, Bool.toNat_eq_one.symm⟩

def plainSyn : Frame := Session.ctrlFrame 2 flagSyn 0

def plainConf : StreamConf where
  maxPayload := 16384
  maxPayload_pos := by decide
  maxPayload_lt := by decide
  nodelay := true

/-- An application that rejects a stream it has not closed, after which the peer sends another frame. -/
theorem run_one_rst_rejected :
    (Stream.newAccepted 2 plainConf 4 false {} plainSyn).rstSent = false ∧
      rsts (run (.accepted 2 plainConf 4 false {} plainSyn [] false) [.frame plainSyn {}]).out ≤ 1 :=
  ⟨by decide, (run_one_rst (.accepted 2 plainConf 4 false {} plainSyn [] false) (fun _ => by decide) _).1⟩

/-- `on_accept` closes the stream, which resets it, and then rejects it: a second RST is queued. Where the
second one cannot be allocated, the latch forgets the first. -/
theorem reject_after_close_two_rsts :
    rsts (run (.accepted 2 plainConf 4 false {} plainSyn [.close] false) []).out = 2 ∧
      rsts (run (.accepted 2 plainConf 4 false { allocs := [true, false] } plainSyn [.close] false) []).out = 1 ∧
      (run (.accepted 2 plainConf 4 false { allocs := [true, false] } plainSyn [.close] false) []).stream.rstSent =
        false := by
  decide

end StreamLife

/-! ### The send queue and the credit -/

namespace StreamCore

variable {c c' : StreamCore} {peer : Bool}

/-- The payload on the send queue. -/
def queued (c : StreamCore) : Nat := (c.sendQueue.map Chunk.len).sum

structure QueueFits (c : StreamCore) : Prop where
  counted : c.queuedSendBytes.toNat = c.queued
  covered : c.queued ≤ c.creditAvail
  bounded : c.creditAvail ≤ maxCredit

theorem QueueFits.of_same (h : c.QueueFits) (hqueue : c'.sendQueue = c.sendQueue)
    (hcount : c'.queuedSendBytes = c.queuedSendBytes) (hcredit : c'.creditAvail = c.creditAvail) : c'.QueueFits := by
  have hqueued : c'.queued = c.queued := by rw [queued, hqueue, queued]
  exact ⟨by rw [hcount, hqueued, h.counted], by rw [hqueued, hcredit]; exact h.covered, by rw [hcredit]; exact h.bounded⟩

/-- An empty queue needs no credit. -/
theorem QueueFits.of_empty (h : c.QueueFits) (hqueue : c'.sendQueue = []) (hcount : c'.queuedSendBytes = 0)
    (hcredit : c'.creditAvail = c.creditAvail) : c'.QueueFits := by
  have hqueued : c'.queued = 0 := by rw [queued, hqueue]; rfl
  exact ⟨by rw [hcount, hqueued]; rfl, by rw [hqueued]; exact Nat.zero_le _, by rw [hcredit]; exact h.bounded⟩

theorem Fallen.queueFits (h : Fallen peer c c') (hc : c.QueueFits) : c'.QueueFits :=
  hc.of_empty h.sendQueue h.queuedSendBytes (by unfold creditAvail; rw [h.sendWindow, h.bytesSent])

theorem toNat_ofNat_len (ch : Chunk) : (UInt32.ofNat ch.len).toNat = ch.len := by
  have hlt : ch.len < 65536 := ch.lt
  rw [UInt32.toNat_ofNat', Nat.mod_eq_of_lt (by omega)]

/-- The head of the queue is sent. -/
theorem QueueFits.push (hc : c.QueueFits) {ch : Chunk} {rest : List Chunk} (hqueue : c.sendQueue = ch :: rest)
    (hrest : c'.sendQueue = rest) (hcount : c'.queuedSendBytes = c.queuedSendBytes - UInt32.ofNat ch.len)
    (hsent : c'.bytesSent = c.bytesSent + UInt32.ofNat ch.len) (hwindow : c'.sendWindow = c.sendWindow) :
    c'.QueueFits := by
  have hqueued : c.queued = ch.len + c'.queued := by
    rw [queued, queued, hqueue, hrest, List.map_cons, List.sum_cons]
  have hcovered := hc.covered
  have hlen := toNat_ofNat_len ch
  have hcount' : c'.queuedSendBytes.toNat = c.queuedSendBytes.toNat - ch.len := by
    rw [hcount, UInt32.toNat_sub_of_le _ _ (by rw [UInt32.le_iff_toNat_le, hlen, hc.counted]; omega), hlen]
  have hcredit : c'.creditAvail = c.creditAvail - ch.len := by
    unfold creditAvail
    have hsub : c'.sendWindow - c'.bytesSent = (c.sendWindow - c.bytesSent) - UInt32.ofNat ch.len := by
      rw [hsent, hwindow]
      grind
    have hle : UInt32.ofNat ch.len ≤ c.sendWindow - c.bytesSent := by
      rw [UInt32.le_iff_toNat_le, hlen]
      exact Nat.le_trans (by omega) hcovered
    rw [hsub, UInt32.toNat_sub_of_le _ _ hle, hlen]
  have hbounded := hc.bounded
  exact ⟨by rw [hcount', hc.counted]; omega, by omega, by omega⟩

theorem Step.queueFits (h : Step c c') (hc : c.QueueFits) : c'.QueueFits := by
  cases h with
  | queue ch _ _ hlen =>
    have hcovered := hc.covered
    have hbounded := hc.bounded
    have hcounted := hc.counted
    have hpos : 0 < ch.len := List.length_pos_iff.mpr ch.ne_nil
    have hqueued : queued { c with
        sendQueue := c.sendQueue ++ [ch]
        queuedSendBytes := c.queuedSendBytes + UInt32.ofNat ch.len
        accepted := c.accepted ++ ch.bytes } = c.queued + ch.len := by
      simp [queued]
    refine ⟨?_, ?_, hbounded⟩
    · rw [hqueued]
      show (c.queuedSendBytes + UInt32.ofNat ch.len).toNat = _
      unfold maxCredit at hbounded
      rw [UInt32.toNat_add, toNat_ofNat_len, Nat.mod_eq_of_lt (by omega), hcounted]
    · rw [hqueued]
      show c.queued + ch.len ≤ c.creditAvail
      omega
  | synPush ch rest inc _ hqueue => exact hc.push hqueue rfl rfl rfl rfl
  | push ch rest inc _ hqueue => exact hc.push hqueue rfl rfl rfl rfl
  | reset _ _ _ _ hfall => exact (hfall.queueFits (hc.of_same rfl rfl rfl))
  | resetAck _ _ _ hfall => exact (hfall.queueFits hc).of_same rfl rfl rfl
  | close | reject => exact hc.of_empty rfl rfl rfl
  | eof | syn | synAck | ack | fin | window | consume | eofSeen => exact hc.of_same rfl rfl rfl

theorem Input.queueFits {t : Taken} (h : Input t c c') (hc : c.QueueFits) : c'.QueueFits := by
  cases h with
  | credit inc _ hmax =>
    have hcovered := hc.covered
    have hcredit : (c.sendWindow + Stream.unitBytes inc - c.bytesSent).toNat = c.creditAvail + inc * windowUnit := by
      have hadd : c.sendWindow + Stream.unitBytes inc - c.bytesSent =
          (c.sendWindow - c.bytesSent) + Stream.unitBytes inc := by
        rw [UInt32.sub_eq_add_neg, UInt32.sub_eq_add_neg, UInt32.add_assoc, UInt32.add_comm (Stream.unitBytes inc),
          UInt32.add_assoc]
      unfold maxCredit at hmax
      unfold creditAvail at hmax ⊢
      rw [hadd, UInt32.toNat_add, Stream.unitBytes, UInt32.toNat_ofNat', Nat.mod_eq_of_lt (a := inc * windowUnit) (by omega),
        Nat.mod_eq_of_lt (by omega)]
    refine ⟨hc.counted, ?_, ?_⟩
    · show c.queued ≤ (c.sendWindow + Stream.unitBytes inc - c.bytesSent).toNat
      omega
    · show (c.sendWindow + Stream.unitBytes inc - c.bytesSent).toNat ≤ maxCredit
      omega
  | spill _ _ _ _ _ hfall | overflow _ _ _ _ hfall | excess _ _ _ _ hfall | invalid _ _ hfall =>
    exact hfall.queueFits (hc.of_same rfl rfl rfl)
  | rst _ hfall => exact hfall.queueFits hc
  | start | data | direct | fin | late => exact hc.of_same rfl rfl rfl

theorem Moves.queueFits {t : Taken} (h : Moves t c c') (hc : c.QueueFits) : c'.QueueFits := by
  induction h with
  | refl => exact hc
  | own h _ ih => exact ih (h.queueFits hc)
  | input h _ ih => exact ih (h.queueFits hc)

end StreamCore

namespace StreamLife

theorem newAccepted_queueFits (id : UInt16) (conf : StreamConf) (window : Nat) (auto : Bool) (i : StreamInputs)
    (f : Frame) : (Stream.newAccepted id conf window auto i f).core.QueueFits := by
  have hextra : f.extra.toNat < 65536 := f.extra.toNat_lt
  have hwindow : (UInt32.ofNat (defaultSendWindow + f.extra.toNat * windowUnit) - 0).toNat =
      defaultSendWindow + f.extra.toNat * windowUnit := by
    unfold defaultSendWindow windowUnit
    rw [UInt32.sub_zero, UInt32.toNat_ofNat', Nat.mod_eq_of_lt (by omega)]
  refine ⟨rfl, Nat.zero_le _, ?_⟩
  show (UInt32.ofNat (defaultSendWindow + f.extra.toNat * windowUnit) - 0).toNat ≤ maxCredit
  rw [hwindow]
  unfold defaultSendWindow windowUnit maxCredit
  omega

theorem origin_queueFits (origin : StreamOrigin) : origin.stream.core.QueueFits := by
  cases origin with
  | opened id conf window auto =>
    show (Stream.wake _).core.QueueFits
    rw [Stream.wake_core]
    refine ⟨rfl, Nat.zero_le _, ?_⟩
    show (UInt32.ofNat defaultSendWindow - 0).toNat ≤ maxCredit
    decide
  | accepted id conf window auto i f calls keeps =>
    have hsound := asked_sound id conf window auto i f calls
    have hasked := StreamCore.Moves.queueFits
      (Stream.calls_own (Stream.newAccepted_intact id conf window auto i f) calls)
      (newAccepted_queueFits id conf window auto i f)
    show (if keeps then _ else _ : Stream).core.QueueFits
    cases keeps with
    | true =>
      obtain ⟨t, hsteps⟩ := Stream.processSynPayload_steps hsound.intact
        (asked_bytesReceived id conf window auto i f calls) f
      exact hsteps.queueFits hasked
    | false =>
      rcases Stream.reject_cases (asked_recvbuf id conf window auto i f calls) with ⟨-, hown⟩ | ⟨-, sent, hcore⟩
      · exact StreamCore.Moves.queueFits hown hasked
      · show (Stream.reject _).core.QueueFits
        rw [hcore]
        exact hasked.of_same rfl rfl rfl

theorem run_queueFits (origin : StreamOrigin) (es : List StreamInput) : (run origin es).stream.core.QueueFits :=
  run_invariant (fun o => o.stream.core.QueueFits) (origin_queueFits origin) (fun _ h hq => h.queueFits hq)
    (fun _ hq => hq.of_same rfl rfl rfl) es

theorem dequeueSend_of_fits {s : Stream} (h : s.core.QueueFits) {ch : Chunk} {rest : List Chunk}
    (hqueue : s.sendQueue = ch :: rest) (hst : s.state.canSendData = true)
    (hnagle : s.conf.nodelay = true ∨ s.nagleFlush = true ∨ s.unackedBytes = 0 ∨ s.conf.maxPayload ≤ ch.len) :
    s.dequeueSend.1 = some ch := by
  have hlen : ch.len ≤ s.creditAvail := by
    have hcovered : s.core.queued ≤ s.creditAvail := h.covered
    have hqueued : s.core.queued = ch.len + (rest.map Chunk.len).sum := by
      rw [StreamCore.queued, show s.core.sendQueue = ch :: rest from hqueue, List.map_cons, List.sum_cons]
    omega
  have hpos : 0 < ch.len := List.length_pos_iff.mpr ch.ne_nil
  unfold Stream.dequeueSend
  rw [if_neg (not_not_intro hst), hqueue]
  dsimp only
  rw [if_neg (by omega), if_neg (Nat.not_lt.mpr hlen), if_neg]
  rintro ⟨h1, h2, h3, h4⟩
  rcases hnagle with h | h | h | h
  · exact h1 h
  · exact h2 h
  · exact h3 h
  · omega

/-- In every state of every stream the send queue is counted and fits the credit, which is the initial one
until the SYN is answered; and its head is never kept back for want of credit. -/
theorem run_queue_covered (origin : StreamOrigin) (es : List StreamInput) :
    let s := (run origin es).stream
    s.queuedSendBytes.toNat = (s.sendQueue.map Chunk.len).sum ∧
      s.queuedSendBytes.toNat ≤ s.creditAvail ∧
      (s.state = .init ∨ s.state = .synSent → s.sendWindow = UInt32.ofNat defaultSendWindow) ∧
      ∀ ch rest, s.sendQueue = ch :: rest → ch.len ≤ s.creditAvail ∧
        (s.state.canSendData = true →
          s.conf.nodelay = true ∨ s.nagleFlush = true ∨ s.unackedBytes = 0 ∨ s.conf.maxPayload ≤ ch.len →
          s.dequeueSend.1 = some ch) := by
  have hfits := run_queueFits origin es
  have hsound : Sound (run origin es).stream :=
    run_invariant (fun o => Sound o.stream) (origin_sound origin) (fun hs h _ => hs.steps h)
      (fun _ hs => ⟨⟨hs.intact.unreset, hs.intact.drained⟩, ⟨hs.opening.unsent, hs.opening.initial⟩⟩) es
  refine ⟨hfits.counted, ?_, fun hst => (hsound.opening.initial hst).1, fun ch rest hqueue => ⟨?_, ?_⟩⟩
  · have hcounted : (run origin es).stream.queuedSendBytes.toNat = (run origin es).stream.core.queued := hfits.counted
    rw [hcounted]
    exact hfits.covered
  · refine Nat.le_trans ?_ hfits.covered
    rw [StreamCore.queued, show (run origin es).stream.core.sendQueue = ch :: rest from hqueue, List.map_cons,
      List.sum_cons]
    exact Nat.le_add_right _ _
  · exact fun hst hnagle => dequeueSend_of_fits hfits hqueue hst hnagle

end StreamLife

end Multiplexd
