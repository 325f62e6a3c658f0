import Multiplexd.Mux.Unacked

/-!
# Losing, dialing and resuming a transport

`session.c` and `handshake.c`: what happens to the queued frames when a transport is lost, when a new
one is dialed or handed over, and when the peer's hello decides between a resume and a fresh session.

The JSON text of a hello is left to a codec; all that is used of it is that a hello that was built is
read back as it was.
-/

namespace Multiplexd

/-- `proto_hello_build` and `proto_hello_parse`. -/
class HelloCodec where
  build : Hello → List UInt8
  build_lt : ∀ h, (build h).length < 65536
  parse : List UInt8 → Option Hello
  parse_build : ∀ h, parse (build h) = some h

/-! A plain codec: fixed width numbers, least significant byte first. -/

def toBytes : Nat → Nat → List UInt8
  | 0, _ => []
  | k + 1, n => UInt8.ofNat n :: toBytes k (n / 256)

def ofBytes : List UInt8 → Nat
  | [] => 0
  | b :: bs => b.toNat + 256 * ofBytes bs

@[simp] theorem toBytes_length (k n : Nat) : (toBytes k n).length = k := by
  induction k generalizing n with
  | zero => rfl
  | succ k ih => simp [toBytes, ih]

theorem ofBytes_toBytes (k n : Nat) : ofBytes (toBytes k n) = n % 256 ^ k := by
  induction k generalizing n with
  | zero => simp [toBytes, ofBytes, Nat.mod_one]
  | succ k ih =>
    have hsplit : n % 256 ^ (k + 1) = n % 256 + 256 * (n / 256 % 256 ^ k) := by
      rw [Nat.pow_succ', Nat.mod_mul]
    rw [toBytes, ofBytes, ih, UInt8.toNat_ofNat', hsplit]

@[reducible] def plainHelloCodec : HelloCodec where
  build h :=
    [if h.server then 1 else 0, if h.sessionId.isSome then 1 else 0] ++
      toBytes 16 (h.sessionId.getD 0).toNat ++ toBytes 4 h.resumeSeq.toNat
  build_lt h := by simp
  parse
    | server :: known :: rest => some
      { server := server == 1
        sessionId := if known = 1 then some (BitVec.ofNat 128 (ofBytes (rest.take 16))) else none
        resumeSeq := UInt32.ofNat (ofBytes (rest.drop 16)) }
    | _ => none
  parse_build := by
    rintro ⟨server, sessionId, resumeSeq⟩
    have hseq : UInt32.ofNat (ofBytes (toBytes 4 resumeSeq.toNat)) = resumeSeq := by
      rw [ofBytes_toBytes, Nat.mod_eq_of_lt (show resumeSeq.toNat < 256 ^ 4 from resumeSeq.toNat_lt), UInt32.ofNat_toNat]
    have hid (id : BitVec 128) : BitVec.ofNat 128 (ofBytes (toBytes 16 id.toNat)) = id := by
      rw [ofBytes_toBytes, Nat.mod_eq_of_lt (show id.toNat < 256 ^ 16 from id.isLt), BitVec.ofNat_toNat, BitVec.setWidth_eq]
    cases server <;> cases sessionId <;> simp [hseq, hid]

def helloFrame [HelloCodec] (h : Hello) : Frame where
  version := 0
  flags := 0
  streamId := 0
  extra := 0
  payload := HelloCodec.build h
  payload_lt := HelloCodec.build_lt h

namespace Session

variable (ss : Session)

/-- `session_capture_frame_list`, on frames already taken off their list. -/
def captureFrameList (captured : List MuxFrame) : Session :=
  captured.foldl (fun ss frame =>
    if ss.state = .closed ∨ (ss.retransmitCopy && frame.isCopy) = true then ss
    else ss.trackSent frame) ss

def clearSendbuf : Session := { ss with sendbuf := [] }

def clearOobbuf : Session := { ss with oobbuf := [] }

def captureSendbuf : Session := ss.clearSendbuf.captureFrameList ss.sendbuf

def captureOobbuf : Session := ss.clearOobbuf.captureFrameList ss.oobbuf

/-- `session_capture_and_discard`; the session is closed afterwards when a capture ran out of memory. -/
def captureAndDiscard : Session := ss.captureSendbuf.captureOobbuf.discardBuffers

def dropStaging : Session := { ss with sendbufStaging := false, retransmitCopy := false }

def dropDgrams : Session := { ss with dgrambuf := [] }

def stopIo : Session := { ss with recvbuf := [], rxOpen := true, txPending := false }

/-- The part of `mux_session_suspend` after the change of state; `attempt` says that the transport was
still being dialed. -/
def suspendDetach (attempt : Bool) : Session :=
  let ss := ss.captureSendbuf.dropStaging.captureOobbuf.dropDgrams
  if ss.state = .closed then ss
  else ss.rewindReplay.stopIo.emit (if attempt then .connectFailed else .suspended)

def suspend : Session :=
  (ss.setState .suspended).suspendDetach (ss.state = .connect ∨ ss.state = .handshake)

def suspendOrReset : Session :=
  if ss.hasSessionId ∧
      (ss.state = .established ∨ (¬ ss.accepted ∧ (ss.state = .connect ∨ ss.state = .handshake))) then
    ss.suspend
  else ss.reset

def installTransport : Session :=
  { ss with rxOpen := true, txPending := false, sendBlocked := false, out := [], sent := [] }

/-- The part of `mux_session_attach_fd` after a suspended session's frames have been captured. -/
def attachInstall : Session :=
  match ss.streams with
  | some _ => (ss.installTransport.setState .connect).notify
  | none =>
    let (ok, ss) := ss.frameGet
    if !ok then ss.notifyClosed false
    else ({ ss.installTransport with streams := some [] }.setState .connect).notify

/-- `mux_session_attach_fd`. The process aborts when the state is none of INIT, SUSPENDED and CLOSED. -/
def attachFd : Session :=
  if ss.state = .suspended then
    let ss := ss.captureAndDiscard
    if ss.state = .closed then ss.emit (.closed false) else ss.attachInstall
  else ss.attachInstall

variable [HelloCodec] (ss : Session)

def hello (server includeResumeSeq : Bool) : Hello where
  server := server
  sessionId := if ss.hasSessionId then some ss.sessionId else none
  resumeSeq := if includeResumeSeq then UInt32.ofNat ss.recvSeq else 0

/-- `mux_handshake_enqueue_hello`. The hello is put on the send buffer as an entry of its own, without
regard to `sendbuf_staging`. -/
def enqueueHello (server includeResumeSeq : Bool) : Bool × Session :=
  let (ok, ss) := ss.frameGet
  if !ok then (false, ss.reset)
  else
    let hello := ss.hello server includeResumeSeq
    (true, { ss with
      sendbuf := ss.sendbuf ++ [{ items := [⟨helloFrame hello, ss.births⟩], cap := ss.maxPayload }]
      births := ss.births + 1
      txPending := true
      unreported := if includeResumeSeq then 0 else ss.unreported
      ownHello := some hello })

def handshakeStart : Session :=
  let ss := ss.setState .handshake
  if ss.accepted then ss else (ss.enqueueHello false ss.hasSessionId).2

def connectCb (ok : Bool) : Session :=
  if ok then ss.handshakeStart else ss.suspendOrReset

/-- `mux_session_handshake_done`; the scheduler may have work queued from before. -/
def handshakeDone : Session :=
  let (backlog, ss) := (ss.setState .established).hint false
  if backlog then ss.notify else ss

def helloConfirmsResume (h : Hello) : Bool :=
  ss.hasSessionId && h.sessionId == some ss.sessionId

def handshakeClientFresh (sessionId : BitVec 128) : Bool × Session :=
  let (ok, ss) := ss.freeStreams.frameGet
  if !ok then (false, ss.reset)
  else
    (true, { ss.unackedFreeAll with
      streams := some []
      recvSeq := 0, unreported := 0, lastAckRecv := 0, ackTicks := 0
      peerKnown := false
      sessionId := sessionId, hasSessionId := true
      processed := []
      freshFrom := ss.births, stale := [] })

def processHelloClient (h : Hello) : Bool × Session :=
  match h.sessionId with
  | none => (false, ss.reset)
  | some id =>
    if ss.helloConfirmsResume h then
      match ss.resumeAckRecv h.resumeSeq.toNat with
      | (false, ss) => (false, ss.reject.reset)
      | (true, ss) => (true, ss)
    else ss.handshakeClientFresh id

/-- `process_hello_server`: the owner may move the transport to the session being resumed, and may
refuse a fresh one. -/
def processHelloServer (h : Hello) : Bool × Session :=
  let (handed, ss) := if h.sessionId.isSome then ss.ask false else (false, ss)
  if handed then (false, ss.reset)
  else
    let (admitted, ss) := ss.ask true
    if !admitted then (false, ss.reset) else ss.enqueueHello true false

def startReplay : Session :=
  if ss.ring.isEmpty then ss else (ss.setReplayOff (some 0)).notify

/-- The end of `mux_handshake_process_hello`, after the verdict on the hello. -/
def helloDone : Bool × Session → Session
  | (false, ss) => ss
  | (true, ss) =>
    let ss := ss.handshakeDone
    if ss.state ≠ .established then ss else ss.startReplay

/-- `mux_handshake_process_hello`, for a hello frame already taken off the receive buffer. -/
def processHello (f : Frame) : Session :=
  if ss.state ≠ .handshake then ss.reset
  else if f.flags ≠ 0 ∨ f.streamId ≠ 0 ∨ f.extra ≠ 0 then ss.reset
  else
    match HelloCodec.parse f.payload with
    | none => ss.reset
    | some h =>
      if h.server = ss.accepted then ss.reset
      else
        let (verified, ss) := ss.ask true
        if !verified then ss.reset
        else helloDone (if ss.accepted then ss.processHelloServer h else ss.processHelloClient h)

/-- The part of `session_resume_attach` after the peer's resume count was accepted. -/
def resumeInstall : Session :=
  let ss := ss.captureAndDiscard
  if ss.state = .closed then ss.emit (.closed false)
  else
    match (ss.installTransport.setState .handshake).enqueueHello true true with
    | (false, ss) => if ss.state = .closed then ss.emit (.closed false) else ss
    | (true, ss) =>
      let ss := ss.handshakeDone
      if ss.state ≠ .established then ss else ss.startReplay.notify

/-- `session_resume_attach`: an accepted session is given the transport a resume hello arrived on. -/
def resumeAttach (resumeSeq : Nat) : Session :=
  if ss.state ≠ .established ∧ ss.state ≠ .suspended then ss
  else
    let ss := if ss.state = .established then ss.suspend else ss
    if ss.state ≠ .suspended then ss.emit (.closed false)
    else
      match ss.resumeAckRecv resumeSeq with
      | (false, ss) => ss.reject.reset.emit (.closed false)
      | (true, ss) => ss.resumeInstall

/-- A session that left its callback closed tells its owner (the end of `socket_cb`). -/
def emitIfClosed : Session :=
  if ss.state = .closed then ss.emit (.closed false) else ss

def onDeadLink : Session :=
  if ss.hasSessionId then ss.suspend.emitIfClosed else ss.notifyClosed false

def connectTimeoutCb : Session :=
  match ss.state with
  | .connect | .handshake =>
    if ¬ ss.accepted ∧ ss.hasSessionId then ss.suspend.emitIfClosed else ss.notifyClosed false
  | .suspended => ss.notifyClosed true
  | .closing | .closeWait => ss.notifyClosed false
  | _ => ss

end Session

end Multiplexd
