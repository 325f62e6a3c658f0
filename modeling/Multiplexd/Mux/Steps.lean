import Multiplexd.Mux.Endpoint
import Multiplexd.Mux.Trim

/-!
# What a session can do

Every callback of an endpoint is a sequence of the elementary steps listed here, each with what is
known when the source takes it. The invariants of a session are proved step by step, and the control
flow of the callbacks is gone through once, in `Callbacks.lean`.

The steps leave out what none of the invariants speaks about: the inputs, the timers' and the watchers'
flags and the events handed to the owner change in a step of their own.
-/

namespace Multiplexd

namespace Session

def closedForm (ss : Session) : Session :=
  { ss.cleanup with state := .closed, hasSessionId := ss.accepted && ss.hasSessionId }

def queueCopy (ss : Session) (off : Nat) (orig : MuxFrame) : Session :=
  { ss with
    retransmitCopy := true
    retransmitCopyCount := orig.unackedCount
    retransmitCopySent := 0
    sendbuf :=
      { items := itemsFrom orig.items (if off = 0 then ss.partialOffset else 0)
        cap := ss.maxPayload, isCopy := true } :: ss.sendbuf }

def pushAck (ss : Session) (emit : Nat) : Session :=
  ({ ss with births := ss.births + 1 }.sendbufPush
    (ss.newFrame (ctrlFrame streamIdCtrl flagAck emit))).ackEmitted emit

variable [HelloCodec]

/-- The hello of this side. -/
def helloItem (ss : Session) (server includeResumeSeq : Bool) : Item where
  frame := helloFrame (ss.hello server includeResumeSeq)
  birth := ss.births

def pushHello (ss : Session) (server includeResumeSeq : Bool) : Session :=
  { ss with
    sendbuf := ss.sendbuf ++ [{ items := [ss.helloItem server includeResumeSeq], cap := ss.maxPayload }]
    births := ss.births + 1
    unreported := if includeResumeSeq then 0 else ss.unreported
    ownHello := some (ss.hello server includeResumeSeq) }

/-- A fresh logical session. -/
def freshForm (ss : Session) (id : BitVec 128) : Session :=
  { ss.unackedFreeAll with
    recvSeq := 0, unreported := 0, lastAckRecv := 0
    sessionId := id, hasSessionId := true
    processed := []
    freshFrom := ss.births, stale := []
    state := .established }

end Session

variable [HelloCodec]

/-- Only a read brings a hello. -/
def Event.reads : Event → Bool
  | .readable _ => true
  | _ => false

def Event.isStream : Event → Bool
  | .stream _ => true
  | _ => false

/-- The elementary steps a session may take while it handles `e`. With `quiet` set, no stream produces
a frame for the send buffer while a transport is dialed and its handshake runs. -/
inductive Micro (quiet : Bool) (e : Event) : Session → Session → Prop
  | aux (ss : Session) (peerKnown rxOpen txPending sendBlocked dgramTurn : Bool) (ackTicks : Nat)
      (events : List Note) (allocs owner hints : List Bool) (writes : List WireResult)
      (scheds : List (List StreamAct × Bool)) (reacts : List (List StreamAct)) :
      Micro quiet e ss { ss with
        peerKnown := peerKnown, rxOpen := rxOpen, txPending := txPending, sendBlocked := sendBlocked
        dgramTurn := dgramTurn, ackTicks := ackTicks, events := events, allocs := allocs
        owner := owner, hints := hints, writes := writes, scheds := scheds, reacts := reacts }
  /-- the stream table -/
  | table (ss : Session) (streams : Option (List UInt16))
      (h : ss.state = .established ∨ ∀ id ∈ streams.getD [], id ∈ ss.streams.getD []) :
      Micro quiet e ss { ss with streams := streams }
  | closed (ss : Session) : Micro quiet e ss ss.closedForm
  /-- a transport that was just installed goes with the session -/
  | forget (ss : Session) (resumeSeq : Nat) (he : e = .resume resumeSeq) (h : ss.state = .closed) :
      Micro quiet e ss { ss with out := [], sent := [] }
  | closing (ss : Session) (known : Bool) (h : ss.state = .established ∨ ss.state = .handshake) :
      Micro quiet e ss
        { ss.discardBuffers.unackedFreeAll with hasSessionId := known, state := .closing }
  | closeWait (ss : Session) (h : ss.state = .closing) :
      Micro quiet e ss { ss with state := .closeWait }
  | suspend (ss : Session)
      (h : ss.state = .established ∨ ss.state = .connect ∨ ss.state = .handshake)
      (hid : ss.hasSessionId = true ∨ ss.accepted = true) : Micro quiet e ss ss.suspend
  /-- a dialed session is given a socket -/
  | install (ss : Session) (he : e = .attachFd) (ha : ss.accepted = false)
      (h : ss.state = .init ∨ ss.state = .closed) :
      Micro quiet e ss { ss with out := [], sent := [], sendBlocked := false, state := .connect }
  | attach (ss : Session) (he : e = .attachFd) (ha : ss.accepted = false) (h : ss.state = .suspended)
      (hopen : ss.captureAndDiscard.state ≠ .closed) :
      Micro quiet e ss
        { ss.captureAndDiscard with out := [], sent := [], sendBlocked := false, state := .connect }
  | dialed (ss : Session) (he : e = .connected true) (ha : ss.accepted = false)
      (h : ss.state = .connect) :
      Micro quiet e ss ({ ss with state := .handshake }.pushHello false ss.hasSessionId)
  | accepted (ss : Session) (he : e = .start) (ha : ss.accepted = true) (h : ss.state = .init) :
      Micro quiet e ss { ss with out := [], sent := [], sendBlocked := false, state := .handshake }
  /-- an accepted session answers the hello of a fresh session -/
  | helloServer (ss : Session) (f : Frame) (rest : List UInt8) (he : e.reads = true) (ha : ss.accepted = true)
      (h : ss.state = .handshake) (hdec : Frame.decode ss.recvbuf = some (f, rest))
      (hversion : f.version = 0) :
      Micro quiet e ss
        ({ ss with recvbuf := rest, state := .established }.pushHello true false).startReplay
  | helloResume (ss ss' : Session) (f : Frame) (rest : List UInt8) (hello : Hello)
      (he : e.reads = true) (ha : ss.accepted = false) (h : ss.state = .handshake)
      (hdec : Frame.decode ss.recvbuf = some (f, rest)) (hversion : f.version = 0)
      (hparse : HelloCodec.parse f.payload = some hello) (hconfirm : ss.helloConfirmsResume hello = true)
      (hack : { ss with recvbuf := rest }.resumeAckRecv hello.resumeSeq.toNat = (true, ss')) :
      Micro quiet e ss { ss' with state := .established }.startReplay
  | helloReject (ss ss' : Session) (f : Frame) (rest : List UInt8) (hello : Hello)
      (he : e.reads = true) (ha : ss.accepted = false) (h : ss.state = .handshake)
      (hdec : Frame.decode ss.recvbuf = some (f, rest)) (hversion : f.version = 0)
      (hparse : HelloCodec.parse f.payload = some hello) (hconfirm : ss.helloConfirmsResume hello = true)
      (hack : { ss with recvbuf := rest }.resumeAckRecv hello.resumeSeq.toNat = (false, ss')) :
      Micro quiet e ss { ss' with rejected := true }.closedForm
  | helloFresh (ss : Session) (f : Frame) (rest : List UInt8) (hello : Hello) (id : BitVec 128)
      (he : e.reads = true) (ha : ss.accepted = false) (h : ss.state = .handshake)
      (hdec : Frame.decode ss.recvbuf = some (f, rest)) (hversion : f.version = 0)
      (hparse : HelloCodec.parse f.payload = some hello) (hid : hello.sessionId = some id)
      (hconfirm : ss.helloConfirmsResume hello = false) :
      Micro quiet e ss ({ ss with recvbuf := rest }.freshForm id)
  /-- a suspended session learns from a resume hello what the peer has received -/
  | resumeTrim (ss ss' : Session) (resumeSeq : Nat) (he : e = .resume resumeSeq)
      (h : ss.state = .suspended) (hack : ss.resumeAckRecv resumeSeq = (true, ss')) : Micro quiet e ss ss'
  | resumeReject (ss ss' : Session) (resumeSeq : Nat) (he : e = .resume resumeSeq)
      (h : ss.state = .suspended) (hack : ss.resumeAckRecv resumeSeq = (false, ss')) :
      Micro quiet e ss { ss' with rejected := true }.closedForm
  | resumeInstall (ss : Session) (resumeSeq : Nat) (he : e = .resume resumeSeq) (ha : ss.accepted = true)
      (h : ss.state = .suspended) (hopen : ss.captureAndDiscard.state ≠ .closed) :
      Micro quiet e ss
        ({ ss.captureAndDiscard with
          out := [], sent := [], sendBlocked := false, state := .established }.pushHello true true).startReplay
  /-- a frame of a stream -/
  | push (ss : Session) (f : Frame) (hv : f.version = protocolVersion) (hid : f.streamId ≠ streamIdCtrl)
      (hoff : ss.retransmitOff = none)
      (hst : ss.state = .established ∨ f.streamId ∈ ss.streams.getD [])
      (hquiet : quiet = true ∨ e.isStream = false → ss.state ≠ .connect ∧ ss.state ≠ .handshake) :
      Micro quiet e ss ({ ss with births := ss.births + 1 }.sendbufPush (ss.newFrame f))
  /-- a frame of a stream while a replay is due -/
  | park (ss : Session) (f : Frame) (hv : f.version = protocolVersion) (hid : f.streamId ≠ streamIdCtrl)
      (hoff : ss.retransmitOff.isSome) (hst : ss.state = .established ∨ f.streamId ∈ ss.streams.getD [])
      (hquiet : e.isStream = false → ss.state ≠ .connect ∧ ss.state ≠ .handshake) :
      Micro quiet e ss { ss with births := ss.births + 1, oobbuf := ss.oobbuf ++ [ss.newFrame f] }
  | oob (ss : Session) (f : Frame) (hv : f.version = protocolVersion) (hid : f.streamId = streamIdCtrl)
      (hflags : f.flags = 0) (hst : ss.state = .established) :
      Micro quiet e ss { ss with births := ss.births + 1, oobbuf := ss.oobbuf ++ [ss.newFrame f] }
  | dgram (ss : Session) (f : Frame) (hv : f.version = protocolVersion) (hid : f.streamId = streamIdCtrl)
      (hflags : hasFlag f.flags flagAck = false) (hst : ss.state = .established) :
      Micro quiet e ss { ss with births := ss.births + 1, dgrambuf := ss.dgrambuf ++ [ss.newFrame f] }
  | ack (ss : Session) (h : ss.state = .established) :
      Micro quiet e ss (ss.pushAck (min ss.unreported 65535))
  | discard (ss : Session) (id : UInt16) (h : id ≠ streamIdCtrl) :
      Micro quiet e ss (ss.discardStreamFrames id)
  | freeze (ss : Session) (frame : MuxFrame) (rest : List MuxFrame) (hbuf : ss.sendbuf = frame :: rest) :
      Micro quiet e ss (ss.freezeHead rest)
  | fail (ss : Session) (frame : MuxFrame) (rest : List MuxFrame) (n : Nat)
      (h : ss.state = .handshake ∨ ss.state = .established) (hbuf : ss.sendbuf = frame :: rest)
      (hid : ss.hasSessionId = true ∨ ss.accepted = true) :
      Micro quiet e ss (ss.handOver frame n).suspend
  | failClosed (ss : Session) (frame : MuxFrame) (rest : List MuxFrame) (n : Nat)
      (h : ss.state = .handshake ∨ ss.state = .established) (hbuf : ss.sendbuf = frame :: rest) :
      Micro quiet e ss (ss.handOver frame n).closedForm
  | flushPart (ss : Session) (frame : MuxFrame) (rest : List MuxFrame) (n : Nat)
      (h : ss.state = .handshake ∨ ss.state = .established) (hbuf : ss.sendbuf = frame :: rest)
      (hlen : frame.pos + n < frame.len) : Micro quiet e ss (ss.flushPart frame rest n)
  | flushFull (ss : Session) (frame : MuxFrame) (rest : List MuxFrame) (n : Nat)
      (h : ss.state = .handshake ∨ ss.state = .established) (hbuf : ss.sendbuf = frame :: rest)
      (hlen : frame.pos + n = frame.len) : Micro quiet e ss (ss.flushFull frame rest n)
  /-- the next entry of the ring is replayed, once the head of the send buffer was written -/
  | copy (ss : Session) (off : Nat) (orig : MuxFrame) (h : ss.state = .established)
      (hoff : ss.retransmitOff = some off) (horig : ss.ring[off]? = some orig)
      (hcopy : ss.retransmitCopy = false) (hpos : ∀ f ∈ ss.sendbuf, f.pos = 0)
      (hsent : ss.sent ≠ [] ∨ ss.sendbuf = []) : Micro quiet e ss (ss.queueCopy off orig)
  | replayed (ss : Session) (off : Nat) (h : ss.state = .established) (hoff : ss.retransmitOff = some off)
      (hlen : ss.ring.length ≤ off) : Micro quiet e ss (ss.setReplayOff none)
  | stageOob (ss : Session) (frame : MuxFrame) (rest : List MuxFrame) (h : ss.state = .established)
      (hoff : ss.retransmitOff = none) (hbuf : ss.oobbuf = frame :: rest) :
      Micro quiet e ss ({ ss with oobbuf := rest }.sendbufPush frame)
  | stageDgram (ss : Session) (frame : MuxFrame) (rest : List MuxFrame) (h : ss.state = .established)
      (hbuf : ss.dgrambuf = frame :: rest) :
      Micro quiet e ss ({ ss with dgrambuf := rest }.sendbufPush frame)
  | recvAck (ss ss' : Session) (f : Frame) (rest : List UInt8) (unstalled : Bool)
      (h : ss.state = .established) (hdec : Frame.decode ss.recvbuf = some (f, rest))
      (hversion : f.version = protocolVersion) (hid : f.streamId = streamIdCtrl)
      (hflags : f.flags = flagAck)
      (hack : { ss with recvbuf := rest }.ackRecv f.extra.toNat = (true, unstalled, ss')) :
      Micro quiet e ss ss'
  | ackReject (ss : Session) (f : Frame) (rest : List UInt8) (h : ss.state = .established)
      (hdec : Frame.decode ss.recvbuf = some (f, rest)) (hversion : f.version = protocolVersion)
      (hid : f.streamId = streamIdCtrl) (hflags : hasFlag f.flags flagAck = true)
      (hbad : f.flags ≠ flagAck ∨ f.payload ≠ [] ∨
        ({ ss with recvbuf := rest }.ackRecv f.extra.toNat).1 = false) :
      Micro quiet e ss { ss with rejected := true }.closedForm
  | recvOther (ss : Session) (f : Frame) (rest : List UInt8) (h : ss.state = .established)
      (hdec : Frame.decode ss.recvbuf = some (f, rest)) (hversion : f.version = protocolVersion)
      (hid : f.streamId = streamIdCtrl) (hflags : hasFlag f.flags flagAck = false) :
      Micro quiet e ss { ss with recvbuf := rest }
  | recvStream (ss : Session) (f : Frame) (rest : List UInt8) (h : ss.state = .established)
      (hdec : Frame.decode ss.recvbuf = some (f, rest)) (hversion : f.version = protocolVersion)
      (hid : f.streamId ≠ streamIdCtrl) :
      Micro quiet e ss ({ ss with recvbuf := rest }.countRecv f)

/-- Any number of elementary steps. -/
def Steps (quiet : Bool) (e : Event) : Session → Session → Prop := Relation.ReflTransGen (Micro quiet e)

end Multiplexd
