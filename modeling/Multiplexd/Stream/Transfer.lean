import Multiplexd.Stream.Basic

/-!
# Data in both directions

The sending half of a stream (`mux_stream_queue_send` to `mux_session_send_push` and
`sched_send_ctrl_flags`), its receiving half (`mux_stream_recv_copy`, the local socket, the credit that
is granted back) and the frames of the peer (`dispatch_by_stream`).
-/

namespace Multiplexd

namespace Stream

variable (s : Stream)

def tryShrinkRecvWindow : Stream :=
  let target := windowBytes s.streamWindow
  if s.autoStreamWindow ∧ target < s.recvWindow ∧
      s.bufferedBytes.toNat + s.outstanding ≤ target.toNat then { s with recvWindow := target }
  else s

def checkAck : Stream :=
  if s.state = .closed then s
  else
    let s := s.tryShrinkRecvWindow
    if s.ackPending then s
    else if s.grantableBytes < windowUnit then s
    else if s.grantableBytes < 2 * s.conf.maxPayload then s.delay 1
    else
      let s : Stream := { s with ackPending := true }
      if s.schedQueue ≠ .drr ∧ ¬ s.drrActive then s.wake else s

/-- `mux_stream_recv_window`. -/
def recvWindowInc (windowInc : Nat) : Stream :=
  let outstanding := s.creditAvail
  if maxCredit < outstanding + windowInc * windowUnit then s.abort .flowControlError
  else
    let s : Stream := { s with sendWindow := s.sendWindow + unitBytes windowInc }
    if outstanding + windowInc * windowUnit = 0 then s
    else if s.sendQueue.isEmpty then s else s.wake

def queueSend (c : Chunk) : Stream :=
  { s with
    sendQueue := s.sendQueue ++ [c]
    queuedSendBytes := s.queuedSendBytes + UInt32.ofNat c.len
    accepted := s.accepted ++ c.bytes }

def dequeueSend : Option Chunk × Stream :=
  if ¬ s.state.canSendData then (none, s)
  else
    match s.sendQueue with
    | [] => (none, { s with nagleFlush := false })
    | c :: rest =>
      if s.creditAvail = 0 then (none, s)
      else if s.creditAvail < c.len then (none, s)
      else
        let nagleBypass := s.nagleFlush
        let s : Stream := { s with nagleFlush := false }
        if ¬ s.conf.nodelay ∧ ¬ nagleBypass ∧ s.unackedBytes ≠ 0 ∧ c.len < s.conf.maxPayload then
          (none, s.delay 1)
        else
          (some c, { s with
            sendQueue := rest, queuedSendBytes := s.queuedSendBytes - UInt32.ofNat c.len })

def markSynSent : Stream := { s with state := .synSent }

def markFinSent : Stream :=
  match s.state with
  | .established => { s with state := .finWait }
  | .closeWait =>
    let s : Stream := { s with state := .closing }
    if s.isDirect then (if s.userClosed then s.doClose else s)
    else if s.recvbuf.isEmpty then s.finishDrainedWrite.2
    else s
  | _ => s

/-- The frame `mux_session_send_push` builds. -/
def pushFrame (id : UInt16) (flags : UInt8) (extra : Nat) (c : Chunk) : Frame where
  version := protocolVersion
  flags := flags
  streamId := id
  extra := UInt16.ofNat extra
  payload := c.bytes
  payload_lt := c.lt

/-- The flags of a data frame: a SYN opens the stream, a grant goes along with other data, and the FIN
with the last of it. -/
def pushFlags (inc : Nat) : UInt8 :=
  flagPush |||
    (if s.state = .init then flagSyn
      else (if (s.state = .established ∨ s.state = .closeWait) ∧ 0 < inc then flagAck else 0) |||
        (if s.finPending then flagFin else 0))

def sendPush (c : Chunk) : Stream :=
  let sendSyn : Bool := s.state = .init
  let rawInc := s.grantInc
  let flags := s.pushFlags rawInc
  let wantFin := !sendSyn && s.finPending
  let s := s.emit (pushFrame s.id flags rawInc c)
  let s : Stream := { s with
    bytesSent := s.bytesSent + UInt32.ofNat c.len
    unackedBytes := s.unackedBytes + UInt32.ofNat c.len
    grantSent := s.grantSent + unitBytes rawInc
    ackPending := s.ackPending && !hasFlag flags flagAck }
  let s := if s.delayPending then s.delayRemove else s
  if wantFin then s.markFinSent else s

def sendSyn : Stream :=
  match s.dequeueSend with
  | (some c, s) => (s.sendPush c).markSynSent
  | (none, s) =>
    let inc := s.grantInc
    match s.sendCtrl flagSyn inc with
    | (false, s) => s
    | (true, s) => { s with grantSent := s.grantSent + unitBytes inc }.markSynSent

def sendCtrlFlags : Stream :=
  let hasAckPending : Bool :=
    s.state ≠ .init ∧ s.state ≠ .synSent ∧ s.state ≠ .synReceived ∧ s.ackPending
  let hasFinPending := s.finPending
  if !hasAckPending && !hasFinPending then s
  else
    let inc := if hasAckPending then s.grantInc else 0
    let flags := (if 0 < inc then flagAck else 0) ||| (if hasFinPending then flagFin else 0)
    if flags = 0 then { s with ackPending := false }
    else
      match s.sendCtrl flags inc with
      | (false, s) => s.delay 1
      | (true, s) =>
        let s :=
          if hasFlag flags flagAck then
            let s : Stream := { s with grantSent := s.grantSent + unitBytes inc, ackPending := false }
            if s.sendQueue.isEmpty ∧ s.delayPending then s.delayRemove else s
          else s
        if hasFlag flags flagFin then s.markFinSent else s

/-- `stream_local_write`: what the socket takes of `data`. After a hard error the stream is aborted and
nothing counts as written, although some bytes may have been. -/
def localWrite (data : List UInt8) : Nat × Stream :=
  match s.writes with
  | [] => (0, s)
  | .sent n :: rest =>
    (min n data.length, { s with writes := rest, delivered := s.delivered ++ data.take n })
  | .fail n :: rest =>
    (0, { s with writes := rest, delivered := s.delivered ++ data.take n }.abort .internalError)

/-- The loop of `stream_flush_local`; the flag says that the socket would block or has failed. -/
def flushLoop : Nat → Stream → Bool × Stream
  | 0, s => (true, s)
  | fuel + 1, s =>
    if s.recvbuf.isEmpty then (false, s)
    else
      match s.localWrite s.recvbuf with
      | (0, s) => (true, s)
      | (n + 1, s) =>
        flushLoop fuel { s with
          recvbuf := s.recvbuf.drop (n + 1)
          bufferedBytes := s.bufferedBytes - UInt32.ofNat (n + 1) }.checkAck

def flushLocal : Stream :=
  match flushLoop (s.writes.length + 1) s with
  | (true, s) => s
  | (false, s) =>
    if (s.state = .closeWait ∨ s.state = .closing) ∧ s.recvbuf.isEmpty then s.finishDrainedWrite.2 else s

def notifyReadable : Stream :=
  if ¬ s.isDirect ∧ s.connected ∧ s.eager then s.flushLocal else s

/-- The end of `mux_stream_recv_copy`: what no socket took is buffered. -/
def recvBuffer (payload : List UInt8) : Stream :=
  if payload.isEmpty then s
  else
    let (ok, s) := s.frameGet
    if !ok then s.abort .internalError
    else
      { s with
        recvbuf := s.recvbuf ++ payload
        bytesReceived := s.bytesReceived + UInt32.ofNat payload.length
        bufferedBytes := s.bufferedBytes + UInt32.ofNat payload.length }.notifyReadable

/-- The part of `mux_stream_recv_copy` that writes to a connected socket directly. -/
def recvDirect (payload : List UInt8) : Stream :=
  match s.localWrite payload with
  | (n, s) =>
    if s.state = .closed then s
    else if n = 0 then s.recvBuffer payload
    else
      ({ s with bytesReceived := s.bytesReceived + UInt32.ofNat n }.checkAck).recvBuffer (payload.drop n)

def recvCopy (payload : List UInt8) : Stream :=
  if s.state = .closed then s
  else if s.outstanding < payload.length then s.abort .flowControlError
  else if s.recvWindow.toNat < s.bufferedBytes.toNat + payload.length then s.abort .flowControlError
  else if s.isDirect ∧ s.userClosed ∧ payload ≠ [] then s.resetUnread.markClosed
  else if payload ≠ [] ∧ s.recvbuf.isEmpty ∧ ¬ s.isDirect ∧ s.connected ∧
      (s.state = .established ∨ s.state = .finWait) then s.recvDirect payload
  else s.recvBuffer payload

def recvFin : Stream :=
  match s.state with
  | .closed | .closeWait | .closing => s
  | st =>
    let s : Stream := { s with
      state := match st with
        | .established => .closeWait
        | .finWait => .closing
        | st => st }
    if s.isDirect ∧ s.userClosed ∧ s.state = .closing then s.doClose
    else if ¬ s.isDirect ∧ s.recvbuf.isEmpty then s.finishDrainedWrite.2
    else s

def recvRst : Stream :=
  let s : Stream := { s with rstReceived := true }
  let s := if s.isDirect then s.rstNotifyDirect else s.rstNotifySocket
  if s.state = .closed then s
  else { s.discardStreamFrames with recvbuf := [], bufferedBytes := 0 }.markClosed

def validateFlagsByStream (st : StreamState) (flags : UInt8) : Bool :=
  let nonRstFlags := flags &&& ~~~ flagRst
  match st with
  | .synSent =>
    nonRstFlags &&& (flagSyn ||| flagAck) == (flagSyn ||| flagAck) &&
      !hasFlag nonRstFlags (~~~ (flagSyn ||| flagAck ||| flagPush))
  | .established | .finWait =>
    if nonRstFlags = 0 then false
    else if hasFlag nonRstFlags flagSyn then hasFlag nonRstFlags flagAck
    else true
  | .closeWait | .closing =>
    if nonRstFlags = 0 then false
    else if hasFlag nonRstFlags flagSyn then hasFlag nonRstFlags flagAck
    else !hasFlag nonRstFlags (~~~ (flagAck ||| flagFin))
  | .synReceived | .init | .closed => false

/-- `is_ignorable_unknown_terminal_frame`. -/
def isIgnorableTerminalFrame (f : Frame) : Bool :=
  f.payload.isEmpty && hasFlag f.flags (flagAck ||| flagFin) && !hasFlag f.flags (~~~ (flagAck ||| flagFin))

def processSynPayload (f : Frame) : Stream :=
  if hasFlag f.flags flagPush ∧ f.payload ≠ [] ∧ (s.state = .established ∨ s.state = .synReceived) then
    if s.grantSent.toNat < f.payload.length then s.abort .flowControlError else s.recvCopy f.payload
  else s

def start : Stream :=
  let s : Stream := { s with state := .established }
  if s.rxEof ∧ s.sendQueue.isEmpty then s.wake else s

/-- The part of `dispatch_by_stream` for a SYN|ACK. -/
def recvSynAck (f : Frame) : Stream :=
  if s.state ≠ .synSent then s
  else (({ s with unackedBytes := 0 }.recvWindowInc f.extra.toNat).start).processSynPayload f

/-- The part of `dispatch_by_stream` for the credit, the payload and the FIN of a frame. -/
def recvData (f : Frame) : Stream :=
  let s := if hasFlag f.flags flagAck then { s with unackedBytes := 0 }.recvWindowInc f.extra.toNat else s
  let s := if hasFlag f.flags flagPush ∧ f.payload ≠ [] then s.recvCopy f.payload else s
  if hasFlag f.flags flagFin then s.recvFin else s

def dispatchByStream (f : Frame) : Stream :=
  if s.state = .closed then
    if hasFlag f.flags flagRst then s
    else if isIgnorableTerminalFrame f then s
    else s.sendRst .protocolError
  else if hasFlag f.flags flagRst then s.recvRst
  else if ¬ validateFlagsByStream s.state (f.flags &&& flagMask) then (s.sendRst .protocolError).recvRst
  else if hasFlag f.flags flagSyn then s.recvSynAck f
  else s.recvData f

end Stream

end Multiplexd
