import Multiplexd.Mux.Sched
import Multiplexd.Mux.Send

/-!
# One end of a stream

`struct mux_stream` with what a stream reads of its session, and the parts of `stream.c` and `sched.c`
every other file calls into: the window arithmetic of `stream.h`, the queue a stream waits in, the frames
it queues for the wire, and the ways it closes.

The scheduler's queues are seen from one stream: `schedQueue` and `drrActive` say where it waits, and
`othersDelayed` that some other stream is on the delay list. `egress` holds the frames of the stream on
the session's send buffer and out-of-band list of which no byte has been written yet; those are the
frames a reset can still withdraw. Not modelled are the watchers (an application or a local socket may
act at any time), the log, the counters of the session, and the freeing of closed streams.
-/

namespace Multiplexd

/-- `MUX_DEFAULT_SEND_WINDOW`. -/
def defaultSendWindow : Nat := 16384

def maxCredit : Nat := 2147483647

/-- The payload of a frame on a send queue: not empty, and within the length field. -/
structure Chunk where
  bytes : List UInt8
  ne_nil : bytes ≠ []
  lt : bytes.length < 65536
deriving Repr

instance : DecidableEq Chunk := fun a b => decidable_of_iff (a.bytes = b.bytes)
  ⟨fun h => by cases a; cases b; cases h; rfl, congrArg Chunk.bytes⟩

def Chunk.len (c : Chunk) : Nat := c.bytes.length

/-- The session settings a stream reads. `maxPayload` is `max_frame_payload`. -/
structure StreamConf where
  maxPayload : Nat
  maxPayload_pos : 0 < maxPayload
  maxPayload_lt : maxPayload < 65536
  nodelay : Bool
deriving Repr, DecidableEq

structure Stream where
  id : UInt16
  conf : StreamConf
  state : StreamState
  schedQueue : SchedQueue := .none
  isDirect : Bool := false
  userClosed : Bool := false
  ackPending : Bool := false
  /-- the local side has sent all it will send -/
  rxEof : Bool := false
  txShutdown : Bool := false
  rstReceived : Bool := false
  rstSent : Bool := false
  aborted : Bool := false
  nagleFlush : Bool := false
  delayPending : Bool := false
  delayTicks : Nat := 0
  fd : Bool := false
  connected : Bool := false
  /-- the local socket is set to close with a reset -/
  linger : Bool := false
  sendQueue : List Chunk := []
  recvbuf : List UInt8 := []
  bytesSent : UInt32 := 0
  sendWindow : UInt32
  unackedBytes : UInt32 := 0
  queuedSendBytes : UInt32 := 0
  bytesReceived : UInt32 := 0
  bufferedBytes : UInt32 := 0
  recvWindow : UInt32
  grantSent : UInt32
  tombstone : Bool := false
  /-- The session, as this stream sees it: `streamWindow` is `stream_window`, in units. -/
  established : Bool := true
  streamWindow : Nat
  autoStreamWindow : Bool
  drrActive : Bool := false
  coalesceArmed : Bool := false
  othersDelayed : Bool := false
  egress : List Frame := []
  /-- Inputs: whether the next allocations succeed, the scaling of grants by memory pressure, what the
  local socket takes, whether payload is flushed to it at once, and whether the application closes the
  stream when it is told of a reset. -/
  allocs : List Bool := []
  pressure : Nat → Nat := fun grantable => grantable
  writes : List WireResult := []
  eager : Bool := true
  closesOnReset : Bool := false
  /-- History: the bytes taken from the local side, the bytes given to it, whether it has been told that
  there will be no more, the codes the stream was aborted with. -/
  accepted : List UInt8 := []
  delivered : List UInt8 := []
  eofSeen : Bool := false
  abortCodes : List MuxStatus := []

namespace Stream

variable (s : Stream)

/-- A window of `frames` units, in bytes. `stream_window` is between 4 and 65535. -/
def windowBytes (frames : Nat) : UInt32 := UInt32.ofNat (max 4 (min frames 65535) * windowUnit)

def new (id : UInt16) (conf : StreamConf) (streamWindow : Nat) (autoStreamWindow activeOpen : Bool) :
    Stream where
  id := id
  conf := conf
  state := if activeOpen then .init else .synReceived
  sendWindow := UInt32.ofNat defaultSendWindow
  recvWindow := windowBytes streamWindow
  grantSent := UInt32.ofNat defaultSendWindow
  streamWindow := streamWindow
  autoStreamWindow := autoStreamWindow

def creditAvail : Nat := (s.sendWindow - s.bytesSent).toNat

def readCreditAvail : Nat := s.creditAvail - s.queuedSendBytes.toNat

def availWindow : Nat := s.recvWindow.toNat - s.bufferedBytes.toNat

def outstanding : Nat := (s.grantSent - s.bytesReceived).toNat

def grantableBytes : Nat := s.availWindow - s.outstanding

/-- `mux_stream_grant_inc`. A scaled grant is never above the grantable amount, since the scale is at
most 1. -/
def grantInc : Nat :=
  if s.grantableBytes < windowUnit then 0
  else
    let scaled := min (s.pressure s.grantableBytes) s.grantableBytes
    min (max scaled windowUnit / windowUnit) 65535

def unitBytes (inc : Nat) : UInt32 := UInt32.ofNat (inc * windowUnit)

def finPending : Bool :=
  s.rxEof && s.sendQueue.isEmpty && (s.state == .established || s.state == .closeWait)

def hasMode : Bool := s.isDirect || s.fd

def mayOriginate : Bool := !s.rxEof && s.state.canSendData

def enqueue : Stream :=
  if s.schedQueue = .none ∧ ¬ s.drrActive ∧ ¬ s.tombstone then { s with schedQueue := .drr } else s

def lpEnqueue : Stream :=
  if s.schedQueue = .none ∧ ¬ s.drrActive ∧ ¬ s.tombstone then { s with schedQueue := .lp } else s

def wake : Stream :=
  if ¬ s.established then s.enqueue
  else if s.state = .init ∨ s.state = .closed then s.lpEnqueue
  else s.enqueue

def delayRemove : Stream := { s with delayPending := false, delayTicks := 0 }

/-- `mux_sched_delay`. The timer is armed by the first stream on the list. -/
def delay (ticks : Nat) : Stream :=
  if s.delayPending then { s with delayTicks := min ticks s.delayTicks }
  else
    { s with
      delayPending := true, delayTicks := ticks
      coalesceArmed := s.coalesceArmed || !s.othersDelayed }

/-- `mux_frame_get` and the other allocations that may fail. -/
def frameGet : Bool × Stream :=
  match s.allocs with
  | [] => (true, s)
  | ok :: rest => (ok, { s with allocs := rest })

def emit (f : Frame) : Stream := { s with egress := s.egress ++ [f] }

/-- `mux_session_send_ctrl`, for a frame of this stream. -/
def sendCtrl (flags : UInt8) (extra : Nat) : Bool × Stream :=
  let (ok, s) := s.frameGet
  if ok then (true, s.emit (Session.ctrlFrame s.id flags extra)) else (false, s)

def discardStreamFrames : Stream :=
  { s with egress := s.egress.filter fun f => hasFlag f.flags flagRst }

def sendRst (code : MuxStatus) : Stream :=
  if s.rstSent then s
  else
    let (ok, s) := s.sendCtrl flagRst code.code.toNat
    { s with rstSent := ok }

def stop : Stream :=
  let s := if s.delayPending then s.delayRemove else s
  { s with tombstone := false, drrActive := false }

def releaseBuffers : Stream :=
  { s with sendQueue := [], queuedSendBytes := 0, recvbuf := [], bufferedBytes := 0 }

def rstNotifySocket : Stream := if s.fd then { s with linger := true } else s

/-- `socket_close` of the local socket. Without the linger its owner reads an end of file. -/
def closeFd : Stream :=
  if s.fd ∧ ¬ s.isDirect then { s with fd := false, eofSeen := s.eofSeen || !s.linger } else s

def markClosed : Stream :=
  let wasInit := s.state = .init
  let s := { s.stop.releaseBuffers.closeFd with state := .closed }
  if wasInit then s.wake else { s with tombstone := true }

def shutdownLocalWrite : Stream :=
  if s.txShutdown then s else { s with txShutdown := true, eofSeen := s.eofSeen || !s.isDirect }

/-- `stream_finish_drained_write`; the flag says that the stream was closed. -/
def finishDrainedWrite : Bool × Stream :=
  if ¬ s.isDirect ∧ ¬ s.connected then (false, s)
  else
    let s := s.shutdownLocalWrite
    if s.state = .closing then (true, s.markClosed) else (false, s)

def resetUnread : Stream :=
  let s : Stream := { s with recvbuf := [], bufferedBytes := 0 }.discardStreamFrames
  if s.rstSent || s.rstReceived then s else { s.sendRst .cancel with aborted := true }

def doClose : Stream :=
  if s.state = .closed then s
  else if s.recvbuf.isEmpty then s.markClosed
  else
    let s := s.resetUnread
    (if s.isDirect then s else s.rstNotifySocket).markClosed

def doShutdown : Stream :=
  let s : Stream := { s with rxEof := true }
  if s.isDirect ∧ s.userClosed ∧ s.state = .closing ∧ s.recvbuf.isEmpty then s.markClosed else s.wake

/-- The part of `mux_stream_close` for a stream that has a mode. -/
def closeHeld : Stream :=
  let s := if s.isDirect then { s with userClosed := true } else s
  if s.recvbuf.isEmpty then s.doShutdown else s.doClose

/-- `stream_rst_notify_direct`: the application is told of the reset and may close the stream. -/
def rstNotifyDirect : Stream :=
  if s.closesOnReset ∧ ¬ s.userClosed then s.closeHeld else s

def abortNotifyClose : Stream :=
  if s.isDirect then
    let s := s.rstNotifyDirect
    if s.state = .closed then s else s.markClosed
  else s.rstNotifySocket.markClosed

def abort (code : MuxStatus) : Stream :=
  if s.state = .closed then s
  else
    let s : Stream := { s with aborted := true, abortCodes := s.abortCodes ++ [code] }
    (s.discardStreamFrames.sendRst code).abortNotifyClose

/-- `mux_stream_abort_unopened`: no SYN has left, so no RST does. -/
def abortUnopened : Stream := { s with aborted := true }.abortNotifyClose

end Stream

end Multiplexd
