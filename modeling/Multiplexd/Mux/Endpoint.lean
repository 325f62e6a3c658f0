import Multiplexd.Lib.Run
import Multiplexd.Mux.Send

/-!
# One endpoint

The receive path of `recv.c` down to the point where a frame is given to its stream, the callbacks of
the session's watchers, and a step function over the events an endpoint can see. A run of an endpoint
is any list of events with any inputs.
-/

namespace Multiplexd

namespace Session

variable [HelloCodec] (ss : Session)

/-- `mux_session_recv_ping`; the hint stands for the rate limit. -/
def recvPing (f : Frame) : Session :=
  if ss.maxPayload < f.payload.length then ss.reset
  else
    let (answered, ss) := ss.hint true
    if answered then (ss.sendOob ctrlPong f.payload f.payload_lt).2.notify else ss

def dispatchCtrlFrame (f : Frame) : Session :=
  if hasFlag f.flags flagAck then
    if f.flags ≠ flagAck ∨ f.payload ≠ [] then ss.reject.reset
    else
      match ss.ackRecv f.extra.toNat with
      | (false, _, ss) => ss.reject.reset
      | (true, unstalled, ss) => if unstalled then ss.notifyWrite else ss
  else if f.flags = 0 ∧ f.extra = ctrlPing then ss.recvPing f
  else ss

def ackThreshold : Nat := max 2 (min (ss.sessionWindow / 4) 8)

/-- A stream's frame is counted. -/
def countRecv (f : Frame) : Session :=
  { ss with
    recvSeq := serialAdd32 ss.recvSeq 1
    unreported := (ss.unreported + 1) % 2 ^ 32
    processed := ss.processed ++ [f] }

def ackIfDue : Session := if ss.ackThreshold ≤ ss.unreported then ss.emitAck else ss

def react : Session :=
  match ss.reacts with
  | [] => ss
  | acts :: rest => { ss with reacts := rest }.runActs false acts

def dispatchStreamFrame (f : Frame) : Session := (ss.countRecv f).ackIfDue.react

/-- `dispatch_frame`; every turn takes a frame off the receive buffer, and `fuel` bounds the turns. -/
def dispatchFrame : Nat → Session → Session
  | 0, ss => ss
  | fuel + 1, ss =>
    match Frame.decode ss.recvbuf with
    | none => ss
    | some (f, rest) =>
      let ss := { ss with recvbuf := rest }
      if f.version = 0 then
        let ss := ss.processHello f
        if ss.state = .closed ∨ (ss.state = .established ∧ ss.txPending) then ss
        else dispatchFrame fuel ss
      else if ss.state ≠ .established then ss.reset
      else if f.version ≠ protocolVersion then ss.reset
      else if hasFlag f.flags (~~~ flagMask) then ss.reset
      else
        let ss := if f.streamId = streamIdCtrl then ss.dispatchCtrlFrame f else ss.dispatchStreamFrame f
        if ss.state = .established then dispatchFrame fuel ss else ss

/-- `send_handle_rx_closed`; the flag says that the callback ends here. -/
def sendHandleRxClosed : Bool × Session :=
  if ss.rxOpen ∨ ss.state ≠ .established then (false, ss)
  else if ss.hasSessionId ∧ ¬ ss.tls then (true, ss.suspend)
  else
    let ss := ss.discardBuffers.unackedFreeAll
    let ss : Session := if ss.accepted then ss else { ss with hasSessionId := false }
    (true, { ss.setState .closing with txPending := true })

/-- `send_has_pending_work`, the scheduler's queue apart. -/
def sendHasPendingWork : Bool :=
  !ss.sendbuf.isEmpty || !ss.oobbuf.isEmpty || !ss.dgrambuf.isEmpty || ss.retransmitOff.isSome

/-- `mux_sched_drain_lp`, before the pump starts. -/
def drainLp : Session :=
  let (lpPending, ss) := ss.hint false
  if lpPending ∧ ss.state = .established ∧ ss.retransmitOff.isNone then ss.callSched.2 else ss

/-- What `mux_session_on_send` notes once the pump has stopped; the hint stands for work of the scheduler. -/
def settle : Session :=
  if ss.state = .suspended ∨ ss.state = .closed then ss
  else
    let (ready, ss) := ss.hint false
    { ss with
      txPending := ss.txPending || ss.sendHasPendingWork || ready
      sendBlocked := !ss.sendbuf.isEmpty }

/-- The end of `mux_session_on_send`: frames held back while there was something to send are
dispatched once all is sent. -/
def pumped : Session :=
  let ss := ss.settle
  if !ss.txPending ∧ ss.state = .established then ss.dispatchFrame ss.recvbuf.length else ss

def onSend (fuel : Nat) (ss : Session) : Session :=
  match { ss with txPending := false }.sendHandleRxClosed with
  | (true, ss) => ss
  | (false, ss) => (sendPump fuel ss.drainLp).pumped

/-- `mux_session_on_recv`, for the bytes one read returns. -/
def onRecv (fuel : Nat) (ss : Session) (bytes : List UInt8) : Session :=
  let ss : Session := { ss with recvbuf := ss.recvbuf ++ bytes }
  let ss := ss.dispatchFrame ss.recvbuf.length
  if ss.state = .established ∧ ss.txPending ∧ ss.sendbuf.isEmpty then onSend fuel ss else ss

def recvEof : Session :=
  let ss := { ss with rxOpen := false }
  if ss.state = .handshake then
    if ss.hasSessionId ∧ ¬ ss.accepted then ss.suspend else ss.reset
  else ss

/-- Whether EV_WRITE is delivered. The hint stands for a mask that was armed before: EV_WRITE comes with an
EV_READ whose callback has flushed since, or TLS has to write. -/
def writeArmed : Bool × Session :=
  let (polled, ss) := ss.hint false
  (polled || ss.txPending || !ss.rxOpen, ss)

/-- `mux_session_flush`, which ends the callbacks of a stream; the hint says that TLS waits for nothing. -/
def flush (fuel : Nat) (ss : Session) : Session :=
  if ss.state ≠ .established then ss.notify
  else
    let (clear, ss) := ss.hint true
    if clear ∧ ss.sendbuf.isEmpty then (onSend fuel ss).emitIfClosed else ss.notify

/-- The session's part of `sched_coalesce_cb`. -/
def coalesceCb : Session :=
  if ss.state = .established ∧ 0 < ss.unreported then
    let ss := { ss with ackTicks := ss.ackTicks + 1 }
    if 2 ≤ ss.ackTicks then ss.emitAck else ss
  else { ss with ackTicks := 0 }

end Session

/-- What the endpoint's event loop may see next. -/
inductive Event where
  | attachFd
  | connected (ok : Bool)
  | start
  | writable
  | readable (bytes : List UInt8)
  | readEof
  | readError
  /-- a stream's timer or the application acts on streams; only a frame of the peer can make a stream
  reset the session -/
  | stream (acts : List StreamAct)
  /-- the callback of a stream's socket or timer ends -/
  | flush
  | coalesceTick
  /-- a keepalive or an estimator probe -/
  | probe (extra : UInt16) (payload : List UInt8) (h : payload.length < 65536)
  /-- a datagram, or the close of its flow -/
  | dgram (fin : Bool) (flow : UInt16) (payload : List UInt8) (h : payload.length < 65536)
  /-- a resume hello for an accepted session arrived on another transport -/
  | resume (resumeSeq : Nat)
  | deadLink
  | connectTimeout
  | shutdown
  /-- the TLS or TCP close handshake moves on -/
  | closeStep (ok : Bool)

/-- What the session's surroundings answer while it handles one event. -/
structure Inputs where
  allocs : List Bool := []
  owner : List Bool := []
  hints : List Bool := []
  writes : List WireResult := []
  scheds : List (List StreamAct × Bool) := []
  reacts : List (List StreamAct) := []
  fuel : Nat := 0

namespace Session

variable [HelloCodec] (ss : Session)

def load (i : Inputs) : Session :=
  { ss with
    allocs := i.allocs, owner := i.owner, hints := i.hints
    writes := i.writes, scheds := i.scheds, reacts := i.reacts }

/-- One callback of the event loop. An event that cannot come in the session's state changes nothing. Reads
may come after the end of the peer's stream, as a TLS want for either direction makes them. -/
def handle (fuel : Nat) : Event → Session
  | .attachFd =>
    if ¬ ss.accepted ∧ (ss.state = .init ∨ ss.state = .suspended ∨ ss.state = .closed) then ss.attachFd
    else ss
  | .connected ok => if ¬ ss.accepted ∧ ss.state = .connect then (ss.connectCb ok).emitIfClosed else ss
  | .start => if ss.accepted ∧ ss.state = .init then ss.installTransport.handshakeStart.notify else ss
  | .writable =>
    let (armed, ss) := ss.writeArmed
    if armed ∧ (ss.state = .handshake ∨ ss.state = .established) then (onSend fuel ss).emitIfClosed else ss
  | .readable bytes =>
    if ss.state = .handshake ∨ ss.state = .established then (onRecv fuel ss bytes).emitIfClosed else ss
  | .readEof =>
    if ss.state = .handshake ∨ ss.state = .established then ss.recvEof.emitIfClosed else ss
  | .readError =>
    if ss.state = .handshake ∨ ss.state = .established then ss.suspendOrReset.emitIfClosed else ss
  | .stream acts => ss.runActs false (acts.filter (· != .reset))
  | .flush => flush fuel ss
  | .coalesceTick => ss.coalesceCb
  | .probe extra payload h =>
    if ss.state = .established then (ss.sendOob extra payload h).2 else ss
  | .dgram fin flow payload h => (ss.sendDgram fin flow payload h).2
  | .resume resumeSeq => if ss.accepted then ss.resumeAttach resumeSeq else ss
  | .deadLink => if ss.state = .established then ss.onDeadLink else ss
  | .connectTimeout => ss.connectTimeoutCb
  | .shutdown => ss.initiateShutdown
  | .closeStep ok =>
    if ss.state = .closing then (if ok then ss.setState .closeWait else ss.reset.emitIfClosed)
    else if ss.state = .closeWait then ss.reset.emitIfClosed
    else ss

def step (e : Event × Inputs) : Session := (ss.load e.2).handle e.2.fuel e.1

/-- A run: the events in order. -/
def run (es : List (Event × Inputs)) : Session := runFrom step ss es

end Session

end Multiplexd
