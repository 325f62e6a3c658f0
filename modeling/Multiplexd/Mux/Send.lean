import Multiplexd.Mux.Lifecycle

/-!
# Producing and transmitting frames

`send.c` and `mux_wire_sendbuf_push`: the producers append to the send buffer or to the out-of-band
list, and the pump hands the head of the send buffer to the transport, a part of it at a time, before
it stages the next frame.
-/

namespace Multiplexd

def MuxFrame.moved (f : MuxFrame) (n : Nat) : MuxFrame := { f with pos := f.pos + n }

namespace Session

variable (ss : Session)

def sendbufPush (frame : MuxFrame) : Session :=
  let append := { ss with sendbuf := ss.sendbuf ++ [{ frame with pos := 0 }], sendbufStaging := true }
  if frame.len ≤ maxRecord ∧ ss.sendbufStaging then
    match ss.sendbuf.getLast? with
    | none => append
    | some tail =>
      if tail.len + frame.len ≤ min (frameHeaderSize + tail.cap) maxRecord then
        { ss with sendbuf := ss.sendbuf.dropLast ++ [{ tail with items := tail.items ++ frame.items }] }
      else append
  else append

def newFrame (f : Frame) : MuxFrame := { items := [⟨f, ss.births⟩], cap := ss.maxPayload }

def ctrlFrame (streamId : UInt16) (flags : UInt8) (extra : Nat) : Frame where
  version := protocolVersion
  flags := flags
  streamId := streamId
  extra := UInt16.ofNat (min extra 65535)
  payload := []
  payload_lt := by decide

/-- `mux_session_send_ctrl`. Whether a frame waits on the out-of-band list depends on the replay
cursor, not on the state of the session. -/
def sendCtrl (streamId : UInt16) (flags : UInt8) (extra : Nat) : Bool × Session :=
  let (ok, ss) := ss.frameGet
  if !ok then (false, ss)
  else
    let frame := ss.newFrame (ctrlFrame streamId flags extra)
    let ss := { ss with births := ss.births + 1 }
    let ss :=
      if streamId ≠ streamIdCtrl ∧ ss.retransmitOff.isSome then
        { ss with oobbuf := ss.oobbuf ++ [frame] }
      else ss.sendbufPush frame
    (true, ss.notifyWrite)

/-- `mux_session_send_push`, on the session's side: the stream has filled in the frame. -/
def sendPush (f : StreamFrame) : Session :=
  { ss with births := ss.births + 1 }.sendbufPush (ss.newFrame f.frame)

/-- The frame of a keepalive. -/
def oobFrame (extra : UInt16) (payload : List UInt8) (h : payload.length < 65536) : Frame where
  version := protocolVersion
  flags := 0
  streamId := streamIdCtrl
  extra := extra
  payload := payload
  payload_lt := h

def sendOob (extra : UInt16) (payload : List UInt8) (h : payload.length < 65536) : Bool × Session :=
  let (ok, ss) := ss.frameGet
  if !ok then (false, ss)
  else
    (true, { ss with
      births := ss.births + 1
      oobbuf := ss.oobbuf ++ [ss.newFrame (oobFrame extra payload h)] }.notifyWrite)

def dgramFrame (fin : Bool) (flow : UInt16) (payload : List UInt8) (h : payload.length < 65536) :
    Frame where
  version := protocolVersion
  flags := if fin then flagFin else flagPush
  streamId := streamIdCtrl
  extra := flow
  payload := payload
  payload_lt := h

def sendDgram (fin : Bool) (flow : UInt16) (payload : List UInt8)
    (h : payload.length < 65536) : Bool × Session :=
  if ss.state = .established ∧ ss.lossymux ∧ payload.length ≤ ss.maxPayload ∧
      ss.dgrambuf.length < ss.lossymuxQueue then
    let (ok, ss) := ss.frameGet
    if !ok then (false, ss)
    else
      (true, { ss with
        births := ss.births + 1
        dgrambuf := ss.dgrambuf ++ [ss.newFrame (dgramFrame fin flow payload h)] }.notifyWrite)
  else (false, ss)

def emitAck : Session :=
  let emit := min ss.unreported 65535
  match ss.sendCtrl streamIdCtrl flagAck emit with
  | (true, ss) => ss.ackEmitted emit
  | (false, ss) => ss

def survives (streamId : UInt16) (i : Item) : Bool :=
  !(i.frame.streamId == streamId && !hasFlag i.frame.flags flagRst)

/-- Whether `discard_stream_frames_from` may rewrite an entry of the send buffer: not one that is
partly written, not the head a TLS library holds, not the replay copy. -/
def mayDiscard (isHead : Bool) (f : MuxFrame) : Bool :=
  f.pos == 0 && !(ss.sendBlocked && isHead && ss.tls) && !(ss.retransmitCopy && f.isCopy)

/-- What is left of an entry; `none` when no frame of it survives and the entry is dropped. -/
def discardEntry (streamId : UInt16) (f : MuxFrame) : Option MuxFrame :=
  let kept := f.items.filter (survives streamId)
  if kept.isEmpty then none else some { f with items := kept }

/-- What `discard_stream_frames_from` leaves of one entry of the send buffer. -/
def discardKeep (streamId : UInt16) (isHead : Bool) (f : MuxFrame) : Option MuxFrame :=
  if ss.mayDiscard isHead f then discardEntry streamId f else some f

/-- `discard_stream_frames_from` on the send buffer. -/
def discardSendbuf (streamId : UInt16) : Session :=
  let tailDropped : Bool :=
    match ss.sendbuf.getLast? with
    | none => false
    | some tail => (ss.discardKeep streamId (ss.sendbuf.length == 1) tail).isNone
  { ss with
    sendbuf :=
      match ss.sendbuf with
      | [] => []
      | head :: rest =>
        (ss.discardKeep streamId true head).toList ++ rest.filterMap (ss.discardKeep streamId false)
    sendbufStaging := ss.sendbufStaging && !tailDropped }

def discardStreamFrames (streamId : UInt16) : Session :=
  let ss := ss.discardSendbuf streamId
  { ss with
    oobbuf := ss.oobbuf.filterMap fun f => if f.pos == 0 then discardEntry streamId f else some f }

/-- When the stream layer gets to do something to its session. Streams live in the table, which is
empty before a session is first established and after it is closed; frames of unknown streams are
answered while ESTABLISHED; data is staged only by the pump (`inPump`). -/
def mayAct (inPump : Bool) : StreamAct → Bool
  | .push _ => inPump && ss.state == .established && ss.retransmitOff.isNone
  | .ctrl id _ _ | .discard id =>
    id != streamIdCtrl && (ss.state == .established || (ss.streams.getD []).contains id)
  | .opened _ | .reset | .shutdown => ss.state == .established
  | .removed _ => true

def act : StreamAct → Session
  | .push f => ss.sendPush f
  | .ctrl id flags extra => (ss.sendCtrl id flags extra).2
  | .discard id => ss.discardStreamFrames id
  | .opened id => { ss with streams := ss.streams.map (id :: ·) }
  | .removed id => { ss with streams := ss.streams.map (·.filter (· != id)) }
  | .reset => ss.reset
  | .shutdown => ss.initiateShutdown

def runActs (inPump : Bool) (acts : List StreamAct) : Session :=
  acts.foldl (fun ss a => if ss.mayAct inPump a then ss.act a else ss) ss

/-- A call into the scheduler (`mux_sched_next_data`, `mux_sched_flush_ctrl`, `mux_sched_drain_lp`):
what it does, and whether it reports a staged frame. -/
def callSched : Bool × Session :=
  match ss.scheds with
  | [] => (false, ss)
  | (acts, staged) :: rest => (staged, { ss with scheds := rest }.runActs true acts)

/-- `mux_wire_send`, before it is known how many of the bytes the head has. -/
def wireSend : WireResult × Session :=
  match ss.writes with
  | [] => (.sent 0, ss)
  | r :: rest => (r, { ss with writes := rest })

def handOver (frame : MuxFrame) (n : Nat) : Session :=
  let begun := if n = 0 then [] else frame.items.drop (wholeItems frame.items frame.pos)
  { ss with
    early := if ss.state = .established then ss.early else ss.early ++ begun.filter (!·.isHello)
    stale := ss.stale ++ begun.filter fun i => !i.isHello && decide (i.birth < ss.freshFrom)
    out := ss.out ++ (frame.bytes.drop frame.pos).take n
    sent := ss.sent ++
      (frame.items.take (wholeItems frame.items (frame.pos + n))).drop (wholeItems frame.items frame.pos) }

def freezeHead (rest : List MuxFrame) : Session :=
  if rest.isEmpty then { ss with sendbufStaging := false } else ss

def written (frame : MuxFrame) (rest : List MuxFrame) (n : Nat) (sendbuf : List MuxFrame) : Session :=
  { (ss.handOver frame n).freezeHead rest with sendbuf := sendbuf }

def flushPart (frame : MuxFrame) (rest : List MuxFrame) (n : Nat) : Session :=
  (ss.written frame rest n (frame.moved n :: rest)).trackPartial (frame.moved n) rest

def flushFull (frame : MuxFrame) (rest : List MuxFrame) (n : Nat) : Session :=
  (ss.written frame rest n rest).trackSent (frame.moved n)

/-- What follows the answer of `mux_wire_send`; the flag says that the caller must stop pumping. -/
def flushResult (frame : MuxFrame) (rest : List MuxFrame) : WireResult → Bool × Session
  | .fail n => (true, (ss.handOver frame n).suspendOrReset)
  | .sent 0 => (true, ss.freezeHead rest)
  | .sent (n + 1) =>
    let taken := min (n + 1) (frame.len - frame.pos)
    if frame.pos + taken < frame.len then (true, ss.flushPart frame rest taken)
    else (false, ss.flushFull frame rest taken)

def flushSendbufHead : Bool × Session :=
  match ss.sendbuf with
  | [] => (false, ss)
  | frame :: rest => ss.wireSend.2.flushResult frame rest ss.wireSend.1

def sendHeadMustFlush : Bool :=
  match ss.sendbuf with
  | [] => false
  | h :: rest => decide (0 < h.pos) || !(ss.sendbufStaging && rest.isEmpty)

def sendQueueRetransmit (off : Nat) : Bool × Session :=
  match ss.ring[off]? with
  | none => (false, ss)
  | some orig =>
    let skip := if off = 0 then ss.partialOffset else 0
    let (ok, ss) := ss.frameGet
    if !ok then (false, ss)
    else
      (true, { ss with
        retransmitCopy := true
        retransmitCopyCount := orig.unackedCount
        retransmitCopySent := 0
        sendbuf := { items := itemsFrom orig.items skip, cap := ss.maxPayload, isCopy := true } ::
          ss.sendbuf })

/-- `enum send_stage`. -/
inductive SendStage where
  | produced
  | done
  | blocked
deriving Repr, DecidableEq

/-- `send_stage_dgram`, and `send_stage_idle_dgram` when nothing else is left to stage. -/
def sendStageIdleDgram : SendStage × Session :=
  match ss.dgrambuf with
  | [] => (.done, ss)
  | frame :: rest => (.produced, { ss with dgrambuf := rest, dgramTurn := false }.sendbufPush frame)

/-- Steps 2 to 5 of `send_stage_next`: out-of-band frames, then datagrams in turn with the scheduler. -/
def sendStageNew : SendStage × Session :=
  match ss.oobbuf with
  | oob :: rest => (.produced, { ss with oobbuf := rest }.sendbufPush oob)
  | [] =>
    if ss.dgramTurn ∧ ¬ ss.dgrambuf.isEmpty then ss.sendStageIdleDgram
    else if ss.stalled then ss.callSched.2.sendStageIdleDgram
    else
      match ss.callSched with
      | (true, ss) => (.produced, { ss with dgramTurn := true })
      | (false, ss) => ss.callSched.2.sendStageIdleDgram

/-- Step 1 of `send_stage_next` once the head of the send buffer has been flushed. -/
def sendStageReplay : SendStage × Session :=
  match ss.retransmitOff with
  | none => ss.sendStageNew
  | some off =>
    if ss.ring.length ≤ off then (ss.setReplayOff none).sendStageNew
    else
      match ss.sendQueueRetransmit off with
      | (true, ss) => (.produced, ss)
      | (false, ss) => (.done, ss)

def sendStageNext : SendStage × Session :=
  if ss.retransmitOff.isSome then
    match ss.flushSendbufHead with
    | (true, ss) => (.blocked, ss)
    | (false, ss) => ss.sendStageReplay
  else ss.sendStageNew

/-- `send_pump`. Each turn flushes one head, stages one frame, or is the last; `fuel` bounds the
turns. -/
def sendPump : Nat → Session → Session
  | 0, ss => ss
  | fuel + 1, ss =>
    if ss.sendHeadMustFlush then
      match ss.flushSendbufHead with
      | (true, ss) => ss
      | (false, ss) => sendPump fuel ss
    else if ss.state ≠ .established then ss.flushSendbufHead.2
    else
      match ss.sendStageNext with
      | (.blocked, ss) => ss
      | (.done, ss) => ss.flushSendbufHead.2
      | (.produced, ss) => sendPump fuel ss

end Session

end Multiplexd
