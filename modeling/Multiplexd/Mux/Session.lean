import Multiplexd.Mux.Frame

/-!
# The session record

`struct mux_session` as far as the transport side reads it: the lifecycle state, the send and receive
buffers of `wire.h`, the reliability state of `unacked.h`, and the parts of `session.c` every other
file calls back into.

A buffer entry holds the list of frames packed into it instead of the bytes, and its write position
counts bytes. The bytes are `MuxFrame.bytes`; `Subframes.lean` shows that the loops of the source that
walk those bytes compute the list operations used here.

Three groups of fields are not in the source. The inputs (`allocs`, `owner`, `hints`, `writes`,
`scheds`, `reacts`) are what the allocator, the session's owner, the socket and the stream layer answer
while a callback runs. The history (from `births` on) records what has happened, and no branch of the
model reads it. `events` lists the changes of state and the events handed to the owner of the session.
-/

namespace Multiplexd

/-- `enum session_state`. -/
inductive SessionState where
  | init
  | connect
  | handshake
  | established
  | suspended
  | closing
  | closeWait
  | closed
deriving Repr, DecidableEq

def SessionState.halfopen (st : SessionState) : Bool := st = .connect || st = .handshake

theorem SessionState.halfopen_iff (st : SessionState) : st.halfopen ↔ st = .connect ∨ st = .handshake := by
  simp [SessionState.halfopen]

/-- `enum mux_event`, the events of a session's lifecycle. -/
inductive MuxEvent where
  | connect
  | connectFailed
  | established
  | resumed
  | lost
  | suspended
  | closed (expired : Bool)
deriving Repr, DecidableEq

/-- What is seen of a session from outside: it changes its state, or tells its owner of an event. -/
inductive Note where
  | moved (old new : SessionState)
  | told (e : MuxEvent)
deriving Repr, DecidableEq

/-- A frame with the number of its production: two frames with equal bytes are still two frames. -/
structure Item where
  frame : Frame
  birth : Nat
deriving Repr, DecidableEq

namespace Item

def tracked (i : Item) : Bool := i.frame.streamId != streamIdCtrl

/-- A hello frame has version 0. -/
def isHello (i : Item) : Bool := i.frame.version == 0

end Item

def itemBytes (is : List Item) : List UInt8 := frameCode.encodeAll (is.map Item.frame)

@[simp] theorem itemBytes_nil : itemBytes [] = [] := rfl

@[simp] theorem itemBytes_append (is js : List Item) : itemBytes (is ++ js) = itemBytes is ++ itemBytes js := by
  simp [itemBytes]

/-- How many leading frames lie entirely within the first `n` bytes. -/
def wholeItems (is : List Item) (n : Nat) : Nat := frameCode.whole (is.map Item.frame) n

/-- `struct mux_frame`. `isCopy` stands for the comparison of the buffer's address with
`unacked.retransmit_copy`. -/
structure MuxFrame where
  items : List Item
  cap : Nat
  pos : Nat := 0
  unackedCount : Nat := 0
  isCopy : Bool := false
deriving Repr, DecidableEq

namespace MuxFrame

/-- `data[0..len)`. -/
def bytes (f : MuxFrame) : List UInt8 := itemBytes f.items

def len (f : MuxFrame) : Nat := f.bytes.length

def payloadBytes (f : MuxFrame) : Nat := (f.items.map fun i => i.frame.payload.length).sum

end MuxFrame

/-- What `mux_wire_send` answers: the bytes it took, after which the transport may have failed. -/
inductive WireResult where
  | sent (n : Nat)
  | fail (n : Nat)
deriving Repr, DecidableEq

/-- A frame some stream hands to the session. -/
structure StreamFrame where
  frame : Frame
  version_eq : frame.version = protocolVersion
  streamId_ne : frame.streamId ≠ streamIdCtrl
deriving Repr, DecidableEq

inductive StreamAct where
  | push (f : StreamFrame)
  | ctrl (streamId : UInt16) (flags : UInt8) (extra : Nat)
  /-- `mux_session_discard_stream_frames` -/
  | discard (streamId : UInt16)
  | opened (streamId : UInt16)
  | removed (streamId : UInt16)
  /-- a protocol violation of the peer -/
  | reset
  /-- `mux_session_initiate_shutdown`, by the last stream of a draining session -/
  | shutdown
deriving Repr, DecidableEq

/-- `struct proto_hello`, without the fields no modelled function reads. `server` is the message id. -/
structure Hello where
  server : Bool
  sessionId : Option (BitVec 128)
  resumeSeq : UInt32
deriving Repr, DecidableEq

structure Session where
  state : SessionState
  accepted : Bool
  hasSessionId : Bool
  sessionId : BitVec 128
  /-- `peer_addr` is set: the next establishment is a resume. -/
  peerKnown : Bool
  maxPayload : Nat
  sessionWindow : Nat
  /-- `wire.tlsconn` is not NULL. -/
  tls : Bool
  /-- `session_dgram_negotiated` -/
  lossymux : Bool
  lossymuxQueue : Nat
  /-- The ids in the stream table; `none` when the table is NULL. -/
  streams : Option (List UInt16)
  /-- `struct wire_ctx` -/
  rxOpen : Bool
  txPending : Bool
  sendBlocked : Bool
  sendbufStaging : Bool
  dgramTurn : Bool
  sendbuf : List MuxFrame
  oobbuf : List MuxFrame
  dgrambuf : List MuxFrame
  recvbuf : List UInt8
  /-- `struct unacked_ctx`; `retransmitOff` is `none` for SIZE_MAX. -/
  ring : List MuxFrame
  frames : Nat
  bytes : Nat
  partialOffset : Nat
  recvSeq : Nat
  unreported : Nat
  lastAckRecv : Nat
  ackTicks : Nat
  stalled : Bool
  retransmitOff : Option Nat
  retransmittedFrames : Nat
  retransmitCopy : Bool
  retransmitCopyCount : Nat
  retransmitCopySent : Nat
  events : List Note
  /-- Inputs: whether the next allocations succeed, the owner's verdicts on hellos, what the scheduler
  has queued when it is asked, what the next writes do, what the scheduler stages, how streams react to
  the next frames. -/
  allocs : List Bool
  owner : List Bool
  hints : List Bool
  writes : List WireResult
  scheds : List (List StreamAct × Bool)
  reacts : List (List StreamAct)
  /-- History: frames produced so far, bytes and whole frames handed to the current transport, frames
  ever logged, how many of them the peer confirmed, frames of the peer processed. -/
  births : Nat
  out : List UInt8
  sent : List Item
  logged : List Item
  acked : Nat
  processed : List Frame
  /-- History: frames other than a hello whose transmission was begun before the session was
  established, the frames produced before the current logical session began, and those of them whose
  transmission was begun in it; whether a session ACK or a resume count of the peer was refused. -/
  early : List Item
  freshFrom : Nat
  stale : List Item
  rejected : Bool
  /-- History: the hello queued last. -/
  ownHello : Option Hello

def Session.new (accepted tls : Bool) (sessionId : BitVec 128) (maxPayload sessionWindow : Nat) :
    Session where
  state := .init
  accepted := accepted
  hasSessionId := accepted
  sessionId := sessionId
  peerKnown := false
  maxPayload := maxPayload
  sessionWindow := sessionWindow
  tls := tls
  lossymux := false
  lossymuxQueue := 0
  streams := some []
  rxOpen := true
  txPending := false
  sendBlocked := false
  sendbufStaging := false
  dgramTurn := false
  sendbuf := []
  oobbuf := []
  dgrambuf := []
  recvbuf := []
  ring := []
  frames := 0
  bytes := 0
  partialOffset := 0
  recvSeq := 0
  unreported := 0
  lastAckRecv := 0
  ackTicks := 0
  stalled := false
  retransmitOff := none
  retransmittedFrames := 0
  retransmitCopy := false
  retransmitCopyCount := 0
  retransmitCopySent := 0
  events := []
  allocs := []
  owner := []
  hints := []
  writes := []
  scheds := []
  reacts := []
  births := 0
  out := []
  sent := []
  logged := []
  acked := 0
  processed := []
  early := []
  freshFrom := 0
  stale := []
  rejected := false
  ownHello := none

namespace Session

variable (ss : Session)

/-- `mux_frame_get` and the other allocations that may fail. -/
def frameGet : Bool × Session :=
  match ss.allocs with
  | [] => (true, ss)
  | ok :: rest => (ok, { ss with allocs := rest })

def ask (silent : Bool) : Bool × Session :=
  match ss.owner with
  | [] => (silent, ss)
  | answer :: rest => (answer, { ss with owner := rest })

def hint (silent : Bool) : Bool × Session :=
  match ss.hints with
  | [] => (silent, ss)
  | answer :: rest => (answer, { ss with hints := rest })

/-- The peer's count was refused. -/
def reject : Session := { ss with rejected := true }

def emit (e : MuxEvent) : Session := { ss with events := ss.events ++ [.told e] }

def notify : Session := { ss with txPending := true }

def notifyWrite : Session :=
  if ss.state = .established then ss.notify else ss

def setState (newstate : SessionState) : Session :=
  let oldstate := ss.state
  let halfopen := fun st : SessionState => st = .connect ∨ st = .handshake
  if oldstate = newstate then ss
  else
    let ss := { ss with state := newstate, events := ss.events ++ [.moved oldstate newstate] }
    if oldstate = .established then ss.emit .lost
    else if halfopen oldstate ∧ ¬ halfopen newstate ∧ newstate ≠ .established then
      -- a failed resume attempt reports CONNECT_FAILED once its transport is torn down
      if newstate = .suspended then ss else ss.emit .connectFailed
    else if halfopen newstate ∧ ¬ halfopen oldstate then ss.emit .connect
    else if newstate = .established then
      { ss with peerKnown := true }.emit (if ss.peerKnown then .resumed else .established)
    else ss

def setReplayOff (off : Option Nat) : Session :=
  { ss with retransmitOff := off, retransmittedFrames := 0 }

def discardBuffers : Session :=
  { ss with sendbuf := [], oobbuf := [], dgrambuf := [], sendbufStaging := false, recvbuf := [] }

def unackedFreeAll : Session :=
  { ss with
    ring := [], frames := 0, bytes := 0, partialOffset := 0
    retransmitOff := none, retransmittedFrames := 0
    retransmitCopy := false, retransmitCopyCount := 0, retransmitCopySent := 0
    stalled := false
    logged := [], acked := 0 }

/-- `mux_sched_free_streams`, which leaves no table behind. -/
def freeStreams : Session := { ss with streams := none }

def cleanup : Session := ss.freeStreams.discardBuffers.unackedFreeAll

def reset : Session :=
  if ss.state = .closed then ss
  else
    let ss := (ss.setState .closed).cleanup
    if ss.accepted then ss else { ss with peerKnown := false, hasSessionId := false }

def notifyClosed (expired : Bool) : Session :=
  if ss.state = .closed then ss else ss.reset.emit (.closed expired)

def initiateShutdown : Session :=
  if ss.state ≠ .established ∧ ss.state ≠ .handshake then ss.notifyClosed false
  else
    let ss := ss.freeStreams.discardBuffers.unackedFreeAll.setState .closing
    { ss with txPending := true }

end Session

end Multiplexd
