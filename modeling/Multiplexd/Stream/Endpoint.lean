import Multiplexd.Lib.Duplex
import Multiplexd.Stream.Transfer

/-!
# The two ends of a stream

What can happen to one end: the calls of the application (`mux.c`), the callbacks of a local socket, the
turns the scheduler gives the stream, the timers, the changes of the session's window, and the frames of
the peer. One end opens the stream; the other one comes into being when the SYN arrives
(`dispatch_no_stream`) and may be given a socket or a watcher at once or later.

The two ends are joined by two FIFO channels (`Lib/Duplex.lean`). A frame leaves for the channel when its
first byte is written (`StreamEvent.transmit`).
-/

namespace Multiplexd

namespace Stream

variable (s : Stream)

/-- The loop of `mux_stream_send`: the bytes are cut into frames until no more can be allocated. -/
def sendLoop : Nat → Stream → List UInt8 → Stream
  | 0, s, _ => s
  | fuel + 1, s, bytes =>
    match hb : bytes.take s.conf.maxPayload with
    | [] => s
    | b :: bs =>
      let (ok, s') := s.frameGet
      if !ok then s'
      else
        have hlt : (b :: bs).length < 65536 := by
          rw [← hb]
          exact Nat.lt_of_le_of_lt (List.length_take_le _ _) s.conf.maxPayload_lt
        sendLoop fuel (s'.queueSend ⟨b :: bs, List.cons_ne_nil b bs, hlt⟩) (bytes.drop s.conf.maxPayload)

def send (bytes : List UInt8) : Stream :=
  if ¬ s.mayOriginate then s
  else
    let s' := sendLoop bytes.length s (bytes.take s.readCreditAvail)
    if s.sendQueue.length < s'.sendQueue.length then s'.wake else s'

def recv (len : Nat) : Stream :=
  if s.rstReceived ∨ s.aborted then s
  else if s.recvbuf.isEmpty then
    match s.state with
    | .closing => { s with userClosed := true, eofSeen := true }.doClose
    | .closeWait => { s with eofSeen := true }
    | _ => s
  else
    let copied := min len s.recvbuf.length
    { s with
      recvbuf := s.recvbuf.drop copied
      bufferedBytes := s.bufferedBytes - UInt32.ofNat copied
      delivered := s.delivered ++ s.recvbuf.take copied }.checkAck

def shutdown : Stream := if s.state = .closed then s else s.doShutdown

/-- `mux_stream_close`. A stream without a mode is completed like a direct one. -/
def close : Stream :=
  if s.state = .closed then s
  else if s.hasMode then s.closeHeld
  else if s.state = .synReceived then s.abort .refusedStream
  else { s with isDirect := true }.closeHeld

/-- The SYN|ACK of `mux_stream_do_attach_fd` and `mux_stream_do_io_start`; the flag says whether it was
queued. -/
def sendSynAck : Bool × Stream :=
  let inc := s.grantInc
  match s.sendCtrl (flagSyn ||| flagAck) inc with
  | (false, s) => (false, s.abort .internalError)
  | (true, s) =>
    (true, { s with grantSent := s.grantSent + unitBytes inc, ackPending := false, state := .established })

/-- The end of `mux_stream_do_attach_fd`: a FIN that came before the socket is passed on. -/
def passFin : Stream :=
  if (s.state = .closeWait ∨ s.state = .closing) ∧ s.recvbuf.isEmpty then s.finishDrainedWrite.2 else s

def attachFd : Stream :=
  if s.hasMode ∨ s.state = .closed then s
  else
    let s : Stream := { s with fd := true }
    if s.state = .synReceived then
      match s.sendSynAck with
      | (false, s) => s
      | (true, s) => { s with connected := false }.passFin
    else { s with connected := true }.passFin

def ioStart : Stream :=
  if s.hasMode ∨ s.state = .closed then s
  else
    let s : Stream := { s with isDirect := true }
    if s.state = .synReceived then s.sendSynAck.2 else s

def localReadAllowed : Bool :=
  !s.rxEof && (if s.state = .init then s.sendQueue.isEmpty else s.state == .established || s.state == .closeWait)

/-- `stream_on_recv`, when the local socket has `bytes` to read; none means that its owner has sent
all. -/
def onRecv (bytes : List UInt8) : Stream :=
  if ¬ s.localReadAllowed ∨ s.readCreditAvail = 0 then s
  else
    let (ok, s') := s.frameGet
    if !ok then s'
    else
      match hb : bytes.take (min s.conf.maxPayload s.readCreditAvail) with
      | [] => { s' with rxEof := true }.wake
      | b :: bs =>
        have hlt : (b :: bs).length < 65536 := by
          rw [← hb]
          exact Nat.lt_of_le_of_lt (List.length_take_le _ _)
            (Nat.lt_of_le_of_lt (Nat.min_le_left _ _) s.conf.maxPayload_lt)
        (s'.queueSend ⟨b :: bs, List.cons_ne_nil b bs, hlt⟩).wake

/-- `stream_on_send`, with the outcome of a connect that was in progress. -/
def onSend (connectOk : Bool) : Stream :=
  if s.connected then s.flushLocal
  else if connectOk then { s with connected := true }.flushLocal
  else s.abort .internalError

/-- `sched_drr_continue`; `stays` says that the stream keeps the budget of the round. -/
def drrContinue (stays : Bool) : Stream :=
  if s.sendQueue.isEmpty then { s with drrActive := false }
  else if stays then { s with drrActive := true }
  else { s with drrActive := false }.wake

/-- One turn of the loop of `mux_sched_next_data` that falls to this stream. -/
def turn (stays : Bool) : Stream :=
  let s := if s.drrActive then s else { s with schedQueue := .none }
  match s.state with
  | .closed =>
    let s : Stream := { s with drrActive := false }
    if s.tombstone then s else s.lpEnqueue
  | .init => { s with drrActive := false }.lpEnqueue
  | .synSent => { s with drrActive := false }
  | _ =>
    match s.dequeueSend with
    | (some c, s) => ((s.sendPush c).drrContinue stays).sendCtrlFlags
    | (none, s) => { s with drrActive := false }.sendCtrlFlags

/-- The part of `mux_sched_drain_lp` for this stream. -/
def drainLp : Stream :=
  let s : Stream := { s with schedQueue := .none }
  if s.state = .init then
    let s := s.sendSyn
    if s.state = .init then s.abortUnopened else s
  else s

/-- `sched_coalesce_cb`: `othersLeft` and `backlog` say that other streams, or frames that no session ACK
has reported yet, still wait for the timer. -/
def coalesceCb (othersLeft backlog : Bool) : Stream :=
  let s : Stream := { s with othersDelayed := othersLeft }
  let s :=
    if s.delayPending then
      if 1 < s.delayTicks then { s with delayTicks := s.delayTicks - 1 }
      else
        let hasGrant : Bool := windowUnit ≤ s.grantableBytes
        let s := s.delayRemove
        { s with nagleFlush := true, ackPending := s.ackPending || hasGrant }.wake
    else s
  if ¬ s.delayPending ∧ ¬ s.othersDelayed ∧ (¬ s.established ∨ ¬ backlog) then { s with coalesceArmed := false }
  else s

/-- `session_update_stream_window`, with `update_stream_window_cb` for this stream. -/
def updateStreamWindow (frames : Nat) : Stream :=
  let old := s.streamWindow
  let s : Stream := { s with streamWindow := frames }
  if old < frames ∧ s.recvWindow < windowBytes frames then
    { s with recvWindow := windowBytes frames }.checkAck
  else s

end Stream

/-! ### Events -/

/-- The calls an application may make: `mux_stream_send`, `mux_stream_recv`, `mux_stream_shutdown`,
`mux_stream_close`, `mux_stream_attach_fd`, `mux_stream_io_start`. -/
inductive StreamCall where
  | send (bytes : List UInt8)
  | recv (len : Nat)
  | shutdown
  | close
  | attachFd
  | ioStart

inductive StreamEvent where
  | call (c : StreamCall)
  /-- `local_cb` and `timeout_cb` -/
  | readable (bytes : List UInt8)
  | readError
  | writable (connectOk : Bool)
  | timeout
  /-- the scheduler's turn, `mux_sched_flush_ctrl` and `mux_sched_drain_lp` -/
  | turn (stays : Bool)
  | flushCtrl
  | drainLp
  | coalesce (othersLeft backlog : Bool)
  /-- another stream joins the delay list, or a received frame arms the timer -/
  | othersDelay
  | arm
  /-- the estimator changes the window; a reload or a lost transport does, which leaves open streams alone -/
  | window (frames : Nat)
  | config (frames : Nat) (auto : Bool)
  /-- the session leaves ESTABLISHED, and reaches it again -/
  | lost
  | resumed (backlog : Bool)
  | tombstoneExpired
  /-- the first bytes of the next `n` frames are written -/
  | transmit (n : Nat)

/-- What becomes of the SYN of a new stream: the session refuses it (it drains, has too many streams or no
memory), or the stream is created and `on_accept` makes some calls on it before it keeps or rejects it. -/
inductive AcceptVerdict where
  | refuse (code : MuxStatus)
  | ask (calls : List StreamCall) (keeps : Bool)

/-- What the surroundings of a stream answer while it handles one event. -/
structure StreamInputs where
  allocs : List Bool := []
  pressure : Nat → Nat := fun grantable => grantable
  writes : List WireResult := []
  eager : Bool := true
  closesOnReset : Bool := false
  verdict : AcceptVerdict := .ask [] true

namespace Stream

variable (s : Stream)

def load (i : StreamInputs) : Stream :=
  { s with
    allocs := i.allocs, pressure := i.pressure, writes := i.writes, eager := i.eager
    closesOnReset := i.closesOnReset }

def held : Bool := !s.fd && !s.userClosed

def call (c : StreamCall) : Stream :=
  if ¬ s.held then s
  else
    match c with
    | .send bytes => s.send bytes
    | .recv len => s.recv len
    | .shutdown => s.shutdown
    | .close => s.close
    | .attachFd => s.attachFd
    | .ioStart => s.ioStart

def handle : StreamEvent → Stream
  | .call c => s.call c
  | .readable bytes => if s.fd ∧ s.connected then s.onRecv bytes else s
  | .readError => if s.fd ∧ s.connected ∧ s.localReadAllowed then s.abort .internalError else s
  | .writable connectOk => if s.fd then s.onSend connectOk else s
  | .timeout => if s.fd then s.abort .internalError else s
  | .turn stays => if s.established ∧ (s.drrActive ∨ s.schedQueue = .drr) then s.turn stays else s
  | .flushCtrl =>
    if s.established ∧ (s.drrActive ∨ s.schedQueue = .drr) ∧ s.state ≠ .closed then s.sendCtrlFlags else s
  | .drainLp => if s.established ∧ s.schedQueue = .lp then s.drainLp else s
  | .coalesce othersLeft backlog => if s.coalesceArmed then s.coalesceCb othersLeft backlog else s
  | .othersDelay =>
    { s with othersDelayed := true, coalesceArmed := s.coalesceArmed || (!s.delayPending && !s.othersDelayed) }
  | .arm => { s with coalesceArmed := true }
  | .window frames => s.updateStreamWindow frames
  | .config frames auto => { s with streamWindow := frames, autoStreamWindow := auto }
  | .lost => { s with established := false, coalesceArmed := false }
  | .resumed backlog =>
    { s with
      established := true
      coalesceArmed := s.coalesceArmed || s.delayPending || s.othersDelayed || backlog }
  | .tombstoneExpired => if s.tombstone then { s with tombstone := false }.wake else s
  | .transmit _ => s

/-- What `dispatch_no_stream` does when `on_accept` rejects the stream. -/
def reject : Stream :=
  let (ok, s) := s.sendCtrl flagRst MuxStatus.refusedStream.code.toNat
  { s with rstSent := ok, aborted := true, userClosed := s.userClosed || s.isDirect }.doClose

/-- The stream `dispatch_no_stream` makes for a SYN. -/
def newAccepted (id : UInt16) (conf : StreamConf) (streamWindow : Nat) (auto : Bool) (i : StreamInputs)
    (f : Frame) : Stream :=
  { (new id conf streamWindow auto false).load i with
    sendWindow := UInt32.ofNat (defaultSendWindow + f.extra.toNat * windowUnit) }

/-- `dispatch_no_stream` for a SYN, from the creation of the stream on. -/
def accept (id : UInt16) (conf : StreamConf) (streamWindow : Nat) (auto : Bool) (i : StreamInputs)
    (f : Frame) (calls : List StreamCall) (keeps : Bool) : Stream :=
  let s := calls.foldl call (newAccepted id conf streamWindow auto i f)
  if keeps then s.processSynPayload f else s.reject

end Stream

/-- One side: it does not know of the stream and may have an answer to the peer queued, it has an end of
it, or it has closed the session. -/
inductive StreamSide where
  | unknown (id : UInt16) (conf : StreamConf) (streamWindow : Nat) (auto : Bool) (egress : List Frame)
  | live (s : Stream)
  | sessionReset

namespace StreamSide

/-- A side acts on its own. Only `transmit` hands frames to the channel. -/
def act : StreamSide → StreamEvent × StreamInputs → StreamSide × List Frame
  | .unknown id conf window auto egress, (.transmit n, _) =>
    (.unknown id conf window auto (egress.drop n), egress.take n)
  | .unknown id conf window auto egress, _ => (.unknown id conf window auto egress, [])
  | .live s, (.transmit n, _) => (.live { s with egress := s.egress.drop n }, s.egress.take n)
  | .live s, (e, i) => (.live ((s.load i).handle e), [])
  | .sessionReset, _ => (.sessionReset, [])

/-- `dispatch_no_stream`, for a stream of the peer. The RST of a refusal needs a frame, and is dropped where
there is none. -/
def dispatchNoStream (id : UInt16) (conf : StreamConf) (window : Nat) (auto : Bool) (egress : List Frame)
    (i : StreamInputs) (f : Frame) : StreamSide :=
  let answer := fun code : MuxStatus =>
    StreamSide.unknown id conf window auto
      (if i.allocs.headD true then egress ++ [Session.ctrlFrame id flagRst code.code.toNat] else egress)
  if hasFlag f.flags flagRst then .unknown id conf window auto egress
  else if hasFlag f.flags flagSyn then
    if hasFlag f.flags (~~~ (flagSyn ||| flagPush)) then .sessionReset
    else if hasFlag f.flags flagPush ∧ defaultSendWindow < f.payload.length then .sessionReset
    else
      match i.verdict with
      | .refuse code => answer code
      | .ask calls keeps =>
        let s := Stream.accept id conf window auto i f calls keeps
        .live { s with egress := egress ++ s.egress }
  else if Stream.isIgnorableTerminalFrame f then .unknown id conf window auto egress
  else answer .protocolError

/-- A frame of the stream arrives. -/
def take : StreamSide → StreamInputs → Frame → StreamSide × List Frame
  | .unknown id conf window auto egress, i, f => (dispatchNoStream id conf window auto egress i f, [])
  | .live s, i, f => (.live ((s.load i).dispatchByStream f), [])
  | .sessionReset, _, _ => (.sessionReset, [])

/-- Both sides run the same code. -/
def machine : Machine StreamSide (StreamEvent × StreamInputs) StreamInputs Frame where
  act := act
  take := take

end StreamSide

/-- A stream that has just been opened by the side `true`. -/
def newPair (id : UInt16) (conf : Bool → StreamConf) (window : Bool → Nat) (auto : Bool → Bool) :
    Bool → StreamSide
  | true => .live (Stream.new id (conf true) (window true) (auto true) true).wake
  | false => .unknown id (conf false) (window false) (auto false) []

end Multiplexd
