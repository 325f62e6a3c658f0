import Multiplexd.Mux.Bytebuf
import Multiplexd.Mux.Endpoint
import Multiplexd.Stream.Transfer

/-!
# The receive path

`recv.c` over the byte buffer it parses: every branch of the dispatch takes its frame off the buffer
itself, some before and some after calls that may shut the session down and empty the buffer.

The streams, the estimator, the timers and the owner of the session are a host of any type. What
`recv.c` calls of them is listed in `HostCall`; a call may act on the session in any order and look at
the session after each act (`HostProg`), but only through the functions `HostAct` lists, none of which
is given the receive buffer.
-/

namespace Multiplexd

universe u

/-- `MUX_PING_PAYLOAD_SIZE`. -/
def pingPayloadSize : Nat := 8

/-- What `recv.c` reads of a stream. -/
structure StreamView where
  state : StreamState
  rstSent : Bool
  grantSent : Nat
  sendWindow : Nat

inductive HostAct where
  | stream (a : StreamAct)
  /-- `mux_session_send_oob` for a probe of the estimator -/
  | probe (extra : UInt16) (payload : List UInt8) (h : payload.length < 65536)
  | dgram (fin : Bool) (flow : UInt16) (payload : List UInt8) (h : payload.length < 65536)
  | window (frames : Nat)
  | notify

/-- A call into the host as it runs: it acts on the session and sees what came of it, and in the end
leaves a host and an answer. -/
inductive HostProg (σ : Type u) where
  | done (host : σ) (answer : Bool)
  | act (a : HostAct) (next : Bool → Session → HostProg σ)

/-- The calls of `recv.c`. -/
inductive HostCall where
  /-- `s->rst_sent = …` -/
  | rstSent (id : UInt16) (queued : Bool)
  | recvRst (id : UInt16) (status : UInt16)
  /-- `s->unacked_bytes = 0` and `mux_stream_recv_window` -/
  | recvWindow (id : UInt16) (extra : UInt16)
  /-- `session_set_peer_stream_window`, and the session window when it follows the estimator -/
  | peerStreamWindow (frames : Nat)
  | reportEstablished (id : UInt16)
  | streamStart (id : UInt16)
  | abort (id : UInt16) (status : MuxStatus)
  | recvCopy (id : UInt16) (payload : List UInt8)
  /-- `mux_estimator_add` and `mux_session_flush_oob`, when a window follows the estimator -/
  | estimatorAdd (n : Nat)
  | recvFin (id : UInt16)
  /-- `mux_stream_new`; answers whether there is a stream -/
  | streamNew (id : UInt16)
  | addStream (id : UInt16)
  | streamFree (id : UInt16)
  /-- `s->send_window = …` -/
  | sendWindow (id : UInt16) (bytes : Nat)
  | onAccept (id : UInt16)
  /-- `s->aborted = true`, and the stream is given up -/
  | refused (id : UInt16)
  | doClose (id : UInt16)
  | estimatorAddAcked (n : Nat)
  /-- the datagram counters, the idle timer, `on_dgram` -/
  | onDgram (flow : UInt16) (payload : List UInt8)
  | onDgramClose (flow : UInt16)
  /-- `ping_recv_last_ns = now` -/
  | pinged
  | deferKeepalive
  /-- `mux_estimator_calculate` and the windows that follow it -/
  | pong (payload : List UInt8)
  | coalesceArm
  | countRst

/-- What `recv.c` asks without a call. -/
inductive HostAsk where
  | draining
  | full
  | accepts

structure Host (σ : Type u) where
  find : σ → UInt16 → Option StreamView
  ask : σ → HostAsk → Bool
  call : σ → HostCall → Session → HostProg σ
  /-- what `mux_session_on_send` leaves of the streams and timers -/
  pumped : σ → σ

namespace Session

/-- `mux_session_update_session_window`, once the new window is known. -/
def updateSessionWindow (ss : Session) (frames : Nat) : Session :=
  if ss.sessionWindow = frames then ss
  else
    let grew := ss.sessionWindow < frames
    let ss := { ss with sessionWindow := frames }
    if grew ∧ ss.stalled ∧ ss.bytes < frames * windowUnit then { ss with stalled := false }.notifyWrite else ss

def hostAct (ss : Session) : HostAct → Bool × Session
  | .stream (.ctrl id flags extra) =>
    if ss.mayAct false (.ctrl id flags extra) then ss.sendCtrl id flags extra else (false, ss)
  | .stream a => (true, if ss.mayAct false a then ss.act a else ss)
  | .probe extra payload h => ss.sendOob extra payload h
  | .dgram fin flow payload h => ss.sendDgram fin flow payload h
  | .window frames => (true, ss.updateSessionWindow frames)
  | .notify => (true, ss.notify)

end Session

def HostProg.run {σ : Type u} : HostProg σ → Session → Bool × σ × Session
  | .done host answer, ss => (answer, host, ss)
  | .act a next, ss => (next (ss.hostAct a).1 (ss.hostAct a).2).run (ss.hostAct a).2

structure RecvCore (σ : Type u) where
  ss : Session
  host : σ
  dispatched : List Frame

/-- A session with its receive buffer. The buffer is held here, as the source lays it out, and the bytes
it holds stand for `Session.recvbuf`. -/
structure Receiver (σ : Type u) where
  core : RecvCore σ
  buf : Bytebuf

namespace RecvCore

variable {σ : Type u} (H : Host σ)

def established (k : RecvCore σ) : Bool := k.ss.state == .established

def streamsFreed (k : RecvCore σ) : Bool := k.ss.streams.isNone

/-- A function of the session. -/
def onSession (f : Session → Session) (k : RecvCore σ) : RecvCore σ := { k with ss := f k.ss }

def callAnswer (c : HostCall) (k : RecvCore σ) : Bool × RecvCore σ :=
  let (answer, host, ss) := (H.call k.host c k.ss).run k.ss
  (answer, { k with ss := ss, host := host })

def call (c : HostCall) (k : RecvCore σ) : RecvCore σ := (k.callAnswer H c).2

def sendRst (id : UInt16) (status : MuxStatus) (k : RecvCore σ) : RecvCore σ :=
  let (queued, ss) := k.ss.sendCtrl id flagRst status.code.toNat
  { k with ss := ss }.call H (.rstSent id queued)

end RecvCore

namespace Receiver

variable {σ : Type u} (H : Host σ) (r : Receiver σ)

/-- Something happens to the session and its host. Every way out of ESTABLISHED (`mux_session_reset`,
`mux_session_initiate_shutdown`) passes through `mux_wire_discard_buffers`, which empties the buffer. -/
def update (g : RecvCore σ → RecvCore σ) : Receiver σ :=
  { r with
    core := g r.core
    buf := if r.core.established && !(g r.core).established then r.buf.reset else r.buf }

def consume (frameSize : Nat) : Receiver σ := { r with buf := r.buf.consume frameSize }

def call (c : HostCall) : Receiver σ := r.update (RecvCore.call H c)

def reset : Receiver σ := r.update (RecvCore.onSession Session.reset)

/-- `mux_session_send_ctrl` with RST, for a stream that is not there. -/
def refuse (id : UInt16) (status : MuxStatus) : Receiver σ :=
  r.update (RecvCore.onSession fun ss => (ss.sendCtrl id flagRst status.code.toNat).2)

def isValidPeerStreamId (id : UInt16) : Bool :=
  if id = streamIdCtrl then false
  else if r.core.ss.accepted then id % 2 != 0
  else id % 2 == 0

/-! ### Frames of streams -/

def deliverPushPayload (f : Frame) : Receiver σ :=
  let r := r.call H (.recvCopy f.streamId f.payload)
  if r.core.streamsFreed then r
  else (r.consume f.size).call H (.estimatorAdd f.payload.length)

def processSynPayload (f : Frame) : Receiver σ :=
  match H.find r.core.host f.streamId with
  | none => r.consume f.size
  | some s =>
    if hasFlag f.flags flagPush ∧ f.payload ≠ [] ∧ (s.state = .established ∨ s.state = .synReceived) then
      if s.grantSent < f.payload.length then
        let r := r.call H (.abort f.streamId .flowControlError)
        if r.core.streamsFreed then r else r.consume f.size
      else r.deliverPushPayload H f
    else r.consume f.size

/-- The SYN|ACK branch of `dispatch_by_stream`. -/
def dispatchSynAck (f : Frame) : Receiver σ :=
  let r := r.call H (.recvWindow f.streamId f.extra)
  if r.core.streamsFreed then r
  else
    let window := ((H.find r.core.host f.streamId).map StreamView.sendWindow).getD 0
    let r := r.call H (.peerStreamWindow (window / windowUnit))
    let r := r.call H (.reportEstablished f.streamId)
    let r := r.call H (.streamStart f.streamId)
    r.processSynPayload H f

/-- The part of `dispatch_by_stream` for PUSH and FIN. -/
def dispatchData (f : Frame) : Receiver σ :=
  if hasFlag f.flags flagPush ∧ f.payload ≠ [] then
    let r := r.deliverPushPayload H f
    if r.core.streamsFreed then r
    else if hasFlag f.flags flagFin then r.call H (.recvFin f.streamId)
    else r
  else
    let r := r.consume f.size
    if hasFlag f.flags flagFin then r.call H (.recvFin f.streamId) else r

/-- `dispatch_by_stream` for a stream that is CLOSED. -/
def dispatchClosed (s : StreamView) (f : Frame) : Receiver σ :=
  if hasFlag f.flags flagRst then r.consume f.size
  else if Stream.isIgnorableTerminalFrame f then r.consume f.size
  else if !s.rstSent then (r.update (RecvCore.sendRst H f.streamId .protocolError)).consume f.size
  else r.consume f.size

def dispatchByStream (s : StreamView) (f : Frame) : Receiver σ :=
  if s.state = .closed then r.dispatchClosed H s f
  else if hasFlag f.flags flagRst then
    (r.consume f.size).call H (.recvRst f.streamId f.extra)
  else if !Stream.validateFlagsByStream s.state (f.flags &&& flagMask) then
    let r := if !s.rstSent then r.update (RecvCore.sendRst H f.streamId .protocolError) else r
    (r.consume f.size).call H (.recvRst f.streamId MuxStatus.protocolError.code)
  else if hasFlag f.flags flagSyn then
    -- a SYN|ACK a resume repeats is dropped whole
    if s.state ≠ .synSent then r.consume f.size else r.dispatchSynAck H f
  else if hasFlag f.flags flagAck then
    let r := r.call H (.recvWindow f.streamId f.extra)
    if r.core.streamsFreed then r else r.dispatchData H f
  else r.dispatchData H f

/-- A SYN for which there is a stream in the table: `on_accept` decides. -/
def dispatchAccept (f : Frame) : Receiver σ :=
  let r := r.call H (.sendWindow f.streamId (defaultSendWindow + f.extra.toNat * windowUnit))
  let r := r.call H (.peerStreamWindow (f.extra.toNat + 1))
  if !H.ask r.core.host .accepts then
    let r := r.update (RecvCore.sendRst H f.streamId .refusedStream)
    ((r.call H (.refused f.streamId)).call H (.doClose f.streamId)).consume f.size
  else
    let (accepted, k) := r.core.callAnswer H (.onAccept f.streamId)
    let r := r.update fun _ => k
    if !accepted then
      let r := r.update (RecvCore.sendRst H f.streamId .refusedStream)
      ((r.call H (.refused f.streamId)).call H (.doClose f.streamId)).consume f.size
    else r.processSynPayload H f

/-- The SYN branch of `dispatch_no_stream`. -/
def dispatchSyn (f : Frame) : Receiver σ :=
  if hasFlag f.flags (~~~ (flagSyn ||| flagPush)) then r.reset
  else if hasFlag f.flags flagPush ∧ defaultSendWindow < f.payload.length then r.reset
  else if H.ask r.core.host .draining then (r.refuse f.streamId .refusedStream).consume f.size
  else if H.ask r.core.host .full then (r.refuse f.streamId .refusedStream).consume f.size
  else
    let (made, k) := r.core.callAnswer H (.streamNew f.streamId)
    let r := r.update fun _ => k
    if !made then (r.refuse f.streamId .internalError).consume f.size
    else
      let (added, k) := r.core.callAnswer H (.addStream f.streamId)
      let r := r.update fun _ => k
      if !added then
        let r := r.call H (.streamFree f.streamId)
        (r.refuse f.streamId .internalError).consume f.size
      else r.dispatchAccept H f

def dispatchNoStream (f : Frame) : Receiver σ :=
  if f.streamId ≠ streamIdCtrl ∧ !r.isValidPeerStreamId f.streamId then r.reset
  else if hasFlag f.flags flagRst then r.consume f.size
  else if hasFlag f.flags flagSyn then r.dispatchSyn H f
  else if Stream.isIgnorableTerminalFrame f then r.consume f.size
  else (r.refuse f.streamId .protocolError).consume f.size

def dispatchStreamFrame (f : Frame) : Receiver σ :=
  let r := r.update (RecvCore.onSession fun ss => (ss.countRecv f).ackIfDue)
  let r := if 0 < r.core.ss.unreported then r.call H .coalesceArm else r
  let r := if hasFlag f.flags flagRst then r.call H .countRst else r
  match H.find r.core.host f.streamId with
  | some s => r.dispatchByStream H s f
  | none => r.dispatchNoStream H f

def dispatchDgramFrame (f : Frame) : Receiver σ :=
  if !r.core.ss.lossymux ∨ f.extra = 0 then r
  else if f.flags = flagPush then r.call H (.onDgram f.extra f.payload)
  else if f.flags = flagFin ∧ f.payload = [] then r.call H (.onDgramClose f.extra)
  else r

/-- `mux_session_recv_ping`; the hint stands for the rate limit. -/
def recvPing (f : Frame) : Receiver σ :=
  if r.core.ss.maxPayload < f.payload.length then r.reset
  else
    let (answered, ss) := r.core.ss.hint true
    let r := r.update (RecvCore.onSession fun _ => ss)
    if !answered then r.consume f.size
    else
      let (queued, ss) := r.core.ss.sendOob ctrlPong f.payload f.payload_lt
      let r := (r.update (RecvCore.onSession fun _ => ss)).consume f.size
      if !queued then r
      else ((r.call H .pinged).call H .deferKeepalive).update (RecvCore.onSession Session.notify)

def recvPong (f : Frame) : Receiver σ :=
  let r := r.call H .deferKeepalive
  if f.payload.length < pingPayloadSize then r.consume f.size
  else (r.consume f.size).call H (.pong f.payload)

def dispatchCtrlRest (f : Frame) : Receiver σ :=
  if f.flags = 0 then
    if f.extra = ctrlPing then r.recvPing H f
    else if f.extra = ctrlPong then r.recvPong H f
    else r.consume f.size
  else (r.dispatchDgramFrame H f).consume f.size

def dispatchCtrlFrame (f : Frame) : Receiver σ :=
  if hasFlag f.flags flagAck then
    if f.flags ≠ flagAck ∨ f.payload ≠ [] then r.update (RecvCore.onSession fun ss => ss.reject.reset)
    else
      match r.core.ss.ackRecv f.extra.toNat with
      | (false, _, ss) => r.update (RecvCore.onSession fun _ => ss.reject.reset)
      | (true, unstalled, ss) =>
        let trimmed := r.core.ss.bytes - ss.bytes
        let r := r.update (RecvCore.onSession fun _ => ss)
        let r := if 0 < trimmed then r.call H (.estimatorAddAcked trimmed) else r
        let r := if unstalled then r.update (RecvCore.onSession Session.notifyWrite) else r
        r.dispatchCtrlRest H f
  else r.dispatchCtrlRest H f

/-- A frame is dispatched. -/
def record (f : Frame) : Receiver σ :=
  { r with core := { r.core with dispatched := r.core.dispatched ++ [f] } }

variable [HelloCodec] (r : Receiver σ)

/-- One turn of `dispatch_frame`, for the whole frame at the front of the buffer. -/
def dispatchOne (f : Frame) : Receiver σ :=
  let r := r.record f
  if f.version = 0 then
    if r.core.ss.state = .handshake then
      (r.consume f.size).update (RecvCore.onSession fun ss => ss.processHello f)
    else r.reset
  else if r.core.ss.state ≠ .established then r.reset
  else if f.version ≠ protocolVersion then r.reset
  else if hasFlag f.flags (~~~ flagMask) then r.reset
  else if f.streamId = streamIdCtrl then r.dispatchCtrlFrame H f
  else r.dispatchStreamFrame H f

/-- `dispatch_frame`; every turn takes a frame off the receive buffer, and `fuel` bounds the turns. -/
def dispatchFrame : Nat → Receiver σ → Receiver σ
  | 0, r => r
  | fuel + 1, r =>
    match Frame.decode r.buf.readable with
    | none => r
    | some (f, _) =>
      let r := r.dispatchOne H f
      if f.version = 0 ∧ r.core.ss.state = .established ∧ r.core.ss.txPending then r
      else if f.version = 0 ∧ r.core.ss.state ≠ .closed then dispatchFrame fuel r
      else if r.core.established then dispatchFrame fuel r
      else r

end Receiver

/-- A receiver with what only its reads look at. -/
structure Reader (σ : Type u) where
  recv : Receiver σ
  readahead : Nat
  tlsOffload : Bool
  bytesRecv : Nat
  /-- History: a read found no memory for the buffer. -/
  starved : Bool
  /-- History: a read has flushed its responses at once. -/
  flushed : Bool

/-- What the transport has for one `mux_session_on_recv`, the answers of `realloc`, whether the TLS library
waits for the transport, and how far the pump gets. -/
structure Read where
  bytes : List UInt8
  granted : Bool := true
  shrunk : Bool := true
  tlsWant : Bool := false
  fuel : Nat := 0

namespace Reader

variable {σ : Type u} (H : Host σ) (x : Reader σ)

def established : Bool := x.recv.core.established

def frameWindow : Nat := frameHeaderSize + x.recv.core.ss.maxPayload

def recvWindow : Nat :=
  if x.recv.core.ss.tls ∧ x.tlsOffload then x.frameWindow
  else if x.frameWindow < x.readahead then x.readahead
  else x.frameWindow

/-- `mux_bytebuf_shrink` at the end of `mux_session_on_recv`. -/
def shrink (granted : Bool) : Reader σ :=
  { x with recv.buf := x.recv.buf.shrink (x.recvWindow + x.frameWindow) granted }

variable [HelloCodec] (x : Reader σ)

def produced (buf : Bytebuf) (bytes : List UInt8) : Reader σ :=
  let recv : Receiver σ := { x.recv with buf := buf.produce bytes }
  { x with recv := recv.dispatchFrame H recv.buf.len, bytesRecv := x.bytesRecv + bytes.length }

/-- `recv_one`, with the bytes that wait on the transport and whether the buffer is granted more memory;
also returns the bytes it has left there. -/
def recvOne (bytes : List UInt8) (granted : Bool) : Reader σ × List UInt8 :=
  match x.recv.buf.reserve x.recvWindow granted with
  | none => ({ x with recv := x.recv.reset, starved := true }, bytes)
  | some buf =>
    let nread := min bytes.length buf.writeSpace
    if nread = 0 then ({ x with recv.buf := buf }, bytes)
    else (x.produced H buf (bytes.take nread), bytes.drop nread)

def recvLoop (x : Reader σ) (bytes : List UInt8) (granted : Bool) : Reader σ :=
  let next := x.recvOne H bytes granted
  if _h : next.2.length < bytes.length ∧ next.1.established then recvLoop next.1 next.2 granted
  else next.1
termination_by bytes.length
decreasing_by exact _h.1

/-- `mux_session_dispatch_pending`. -/
def dispatchPending : Reader σ := { x with recv := x.recv.dispatchFrame H x.recv.buf.len }

/-- `mux_session_on_send`. -/
def onSend (fuel : Nat) : Reader σ :=
  match { x.recv.core.ss with txPending := false }.sendHandleRxClosed with
  | (true, ss) => { x with recv := x.recv.update fun k => { k with ss := ss } }
  | (false, ss) =>
    let x : Reader σ := { x with
      recv := x.recv.update fun k =>
        { k with ss := (Session.sendPump fuel ss.drainLp).settle, host := H.pumped k.host } }
    if !x.recv.core.ss.txPending ∧ x.established then x.dispatchPending H else x

/-- `mux_session_flush_resp`. -/
def flushResp (rd : Read) : Reader σ :=
  if x.established ∧ x.recv.core.ss.txPending ∧ x.recv.core.ss.sendbuf.isEmpty ∧ !rd.tlsWant then
    { x.onSend H rd.fuel with flushed := true }
  else x

/-- `mux_session_on_recv`. -/
def onRecv (rd : Read) : Reader σ :=
  ((x.recvLoop H rd.bytes rd.granted).shrink rd.shrunk).flushResp H rd

def reads (rds : List Read) : Reader σ :=
  rds.foldl (fun x rd => if x.established then x.onRecv H rd else x) x

end Reader

/-- What happens to a session on its way: it reads, it dispatches what waits in its buffer
(`mux_session_dispatch_pending`), or its other callbacks leave it and its host in some other state without
touching its buffer. -/
inductive Turn (σ : Type u) where
  | read (rd : Read)
  | pending
  | other (ss : Session) (host : σ) (table : ss.state = .established → ss.streams ≠ none)

/-- The bytes read in a turn. -/
def Turn.bytes {σ : Type u} : Turn σ → List UInt8
  | .read rd => rd.bytes
  | .pending => []
  | .other _ _ _ => []

/-- The bytes read in several turns. -/
def arrived {σ : Type u} (ts : List (Turn σ)) : List UInt8 := (ts.map Turn.bytes).flatten

namespace Reader

variable {σ : Type u} (H : Host σ) [HelloCodec] (x : Reader σ)

def take : Turn σ → Reader σ
  | .read rd => x.onRecv H rd
  | .pending => x.dispatchPending H
  | .other ss host _ => { x with recv := x.recv.update fun k => { k with ss := ss, host := host } }

def turn (t : Turn σ) : Reader σ := if x.established then x.take H t else x

def turns (ts : List (Turn σ)) : Reader σ := ts.foldl (turn H) x

end Reader

end Multiplexd
