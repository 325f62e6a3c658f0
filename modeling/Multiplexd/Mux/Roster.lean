import Multiplexd.Lib.Gauge
import Multiplexd.Lib.Links
import Multiplexd.Lib.Run
import Multiplexd.Mux.Sched

/-!
# The streams of a session in memory

The lists of `sched.c` as they lie in memory: two queues that share one link field, a delay list linked
both ways, the list of orphans that reuses the links of the delay list, and the one stream that is off its
queue while it spends its budget. With them goes everything that moves a stream between them: the
tombstone timer, the holds of the application, and the gauges that are adjusted on the way.

`Sched.lean` says which stream sends how much; here the outcome of a turn (a frame, a hold by Nagle's
rule, a FIN, a failed allocation) is an input, and so is what the application does when it is called back.
-/

namespace Multiplexd

/-- Where a `struct mux_stream` lies. -/
abbrev StreamAddr := Nat

/-- `struct mux_stream` without the links. `attached` says that a socket is attached, `recvLen` is the
readable length of `recvbuf`. An address that is not allocated has the record of a stream that is not
`live`. -/
structure Member where
  live : Bool := false
  id : UInt16 := 0
  state : StreamState := .closed
  schedQueue : SchedQueue := .none
  tombstone : Bool := false
  delayPending : Bool := false
  delayTicks : Nat := 0
  pendingAttach : Bool := false
  isDirect : Bool := false
  userClosed : Bool := false
  attached : Bool := false
  orphaned : Bool := false
  halfopenCounted : Bool := false
  recvLen : Nat := 0
  bufferedBytes : Nat := 0
  recvWindow : Nat := 0
deriving Repr, DecidableEq

namespace Member

def appHeld (t : Member) : Bool := t.pendingAttach || (t.isDirect && !t.userClosed)

def hasMode (t : Member) : Bool := t.isDirect || t.attached

def attachable (t : Member) : Bool :=
  match t.state with
  | .init | .synSent | .synReceived => true
  | .closed => false
  | _ => !t.hasMode

end Member

def StreamState.halfopen (st : StreamState) : Bool := st == .init || st == .synSent || st == .synReceived

/-- The links of the streams, and where the lists begin and end. -/
structure StreamLinks where
  next : StreamAddr → Option StreamAddr
  delayPrev : StreamAddr → Option StreamAddr
  delayNext : StreamAddr → Option StreamAddr
  sched : Ends StreamAddr
  lp : Ends StreamAddr
  delayHead : Option StreamAddr
  orphans : Option StreamAddr

namespace StreamLinks

variable (l : StreamLinks)

def empty : StreamLinks where
  next := fun _ => none
  delayPrev := fun _ => none
  delayNext := fun _ => none
  sched := Ends.empty
  lp := Ends.empty
  delayHead := none
  orphans := none

def pushSched (s : StreamAddr) : StreamLinks :=
  { l with next := Ends.pushNext l.next l.sched s, sched := l.sched.push s }

def pushLp (s : StreamAddr) : StreamLinks :=
  { l with next := Ends.pushNext l.next l.lp s, lp := l.lp.push s }

def popSched (s : StreamAddr) : StreamLinks :=
  { l with next := Function.update l.next s none, sched := Ends.popEnds l.next l.sched s }

def popLp (s : StreamAddr) : StreamLinks :=
  { l with next := Function.update l.next s none, lp := Ends.popEnds l.next l.lp s }

def pushDelay (s : StreamAddr) : StreamLinks :=
  { l with
    delayPrev := Doubly.pushPrev l.delayPrev l.delayHead s
    delayNext := Function.update l.delayNext s l.delayHead
    delayHead := some s }

/-- `s` leaves the delay list. -/
def unlinkDelay (s : StreamAddr) : StreamLinks :=
  { l with
    delayPrev := Doubly.unlinkPrev l.delayPrev l.delayNext s
    delayNext := Doubly.unlinkNext l.delayPrev l.delayNext s
    delayHead := Doubly.unlinkHead l.delayPrev l.delayNext l.delayHead s }

/-- `sched_orphan_push`. -/
def pushOrphan (s : StreamAddr) : StreamLinks :=
  { l with
    delayPrev := Doubly.pushPrev l.delayPrev l.orphans s
    delayNext := Function.update l.delayNext s l.orphans
    orphans := some s }

/-- `s` leaves the list of orphans. -/
def unlinkOrphan (s : StreamAddr) : StreamLinks :=
  { l with
    delayPrev := Doubly.unlinkPrev l.delayPrev l.delayNext s
    delayNext := Doubly.unlinkNext l.delayPrev l.delayNext s
    orphans := Doubly.unlinkHead l.delayPrev l.delayNext l.orphans s }

/-- The links of a new stream. -/
def clear (s : StreamAddr) : StreamLinks :=
  { l with
    next := Function.update l.next s none
    delayPrev := Function.update l.delayPrev s none
    delayNext := Function.update l.delayNext s none }

def dropQueues : StreamLinks := { l with sched := Ends.empty, lp := Ends.empty, delayHead := none }

end StreamLinks

/-- `struct mux_session` as far as its streams are concerned. -/
structure Roster where
  established : Bool
  members : StreamAddr → Member
  table : List StreamAddr
  /-- `sched.streams` is NULL. -/
  tableLost : Bool
  links : StreamLinks
  drrActive : Option StreamAddr
  numClosed : Gauge
  numHalfopen : Gauge
  recvBufferedBytes : Gauge

namespace Roster

variable (m : Roster)

def new : Roster where
  established := false
  members := fun _ => {}
  table := []
  tableLost := false
  links := StreamLinks.empty
  drrActive := none
  numClosed := Gauge.zero
  numHalfopen := Gauge.zero
  recvBufferedBytes := Gauge.zero

def edit (i : StreamAddr) (f : Member → Member) : Roster :=
  { m with members := Function.update m.members i (f (m.members i)) }

def setActive (active : Option StreamAddr) : Roster := { m with drrActive := active }

def enqueue (i : StreamAddr) : Roster :=
  if (m.members i).schedQueue = .none ∧ m.drrActive ≠ some i ∧ (m.members i).tombstone = false then
    { m.edit i fun t => { t with schedQueue := .drr } with links := m.links.pushSched i }
  else m

def lpEnqueue (i : StreamAddr) : Roster :=
  if (m.members i).schedQueue = .drr ∨ m.drrActive = some i then m
  else if (m.members i).tombstone then m
  else if (m.members i).schedQueue = .none then
    { m.edit i fun t => { t with schedQueue := .lp } with links := m.links.pushLp i }
  else m

/-- `mux_sched_wake`, without the notification of the session. -/
def wake (i : StreamAddr) : Roster :=
  if m.established = false then m.enqueue i
  else if (m.members i).state = .init ∨ (m.members i).state = .closed then m.lpEnqueue i
  else m.enqueue i

/-- `sched_dequeue`, for the head `i`. -/
def dequeue (i : StreamAddr) : Roster :=
  { m.edit i fun t => { t with schedQueue := .none } with links := m.links.popSched i }

/-- The head `i` leaves the lifecycle queue (`mux_sched_drain_lp`). -/
def lpPop (i : StreamAddr) : Roster :=
  { m.edit i fun t => { t with schedQueue := .none } with links := m.links.popLp i }

def delay (i : StreamAddr) (ticks : Nat) : Roster :=
  if (m.members i).delayPending then
    if ticks < (m.members i).delayTicks then m.edit i fun t => { t with delayTicks := ticks } else m
  else
    { m.edit i fun t => { t with delayPending := true, delayTicks := ticks } with
      links := m.links.pushDelay i }

def delayRemove (i : StreamAddr) : Roster :=
  { m.edit i fun t => { t with delayPending := false, delayTicks := 0 } with
    links := m.links.unlinkDelay i }

/-- The guard of every caller. -/
def undelay (i : StreamAddr) : Roster :=
  if (m.members i).delayPending then m.delayRemove i else m

def setState (i : StreamAddr) (newstate : StreamState) : Roster :=
  let m :=
    if !(m.members i).halfopenCounted && newstate.halfopen then
      { m.edit i fun t => { t with halfopenCounted := true } with numHalfopen := m.numHalfopen.add 1 }
    else if (m.members i).halfopenCounted && !newstate.halfopen then
      { m.edit i fun t => { t with halfopenCounted := false } with numHalfopen := m.numHalfopen.sub 1 }
    else m
  m.edit i fun t => { t with state := newstate }

def stop (i : StreamAddr) : Roster :=
  let m := (m.edit i fun t => { t with tombstone := false }).undelay i
  m.setActive (if m.drrActive = some i then none else m.drrActive)

/-- The receive buffer is emptied: `stream_release_buffers`, and the same lines of `stream_reset_unread` and
`mux_stream_recv_rst`. -/
def releaseBuffers (i : StreamAddr) : Roster :=
  { m.edit i fun t => { t with recvLen := 0, bufferedBytes := 0 } with
    recvBufferedBytes := m.recvBufferedBytes.sub (m.members i).recvLen }

/-- `stream_mark_closed` up to `mux_sched_check_no_active_streams`. -/
def markClosed (i : StreamAddr) : Roster :=
  let wasInit : Bool := (m.members i).state == .init
  let m := ((m.stop i).releaseBuffers i).edit i fun t => { t with attached := false }
  let m := m.setState i .closed
  let m := { m with numClosed := m.numClosed.add 1 }
  if wasInit then m.wake i else m.edit i fun t => { t with tombstone := true }

def free (i : StreamAddr) : Roster :=
  let m :=
    if (m.members i).halfopenCounted then
      { m.edit i fun t => { t with halfopenCounted := false } with numHalfopen := m.numHalfopen.sub 1 }
    else m
  let m := m.stop i
  { m.edit i fun _ => {} with recvBufferedBytes := m.recvBufferedBytes.sub (m.members i).recvLen }

def orphan (i : StreamAddr) : Roster :=
  let m := (m.stop i).releaseBuffers i
  let m := if (m.members i).state ≠ .closed then m.setState i .closed else m
  { m.edit i fun t => { t with schedQueue := .none, orphaned := true } with
    links.next := Function.update m.links.next i none }

def freeOrphan (i : StreamAddr) : Roster :=
  { m with links := m.links.unlinkOrphan i }.free i

/-- `mux_sched_free_orphans`; `fuel` bounds the turns. -/
def freeOrphans : Nat → Roster → Roster
  | 0, m => m
  | fuel + 1, m =>
    match m.links.orphans with
    | none => m
    | some i => freeOrphans fuel (m.freeOrphan i)

def failAndFree (i : StreamAddr) : Roster :=
  if (m.members i).appHeld then { m.orphan i with links := (m.orphan i).links.pushOrphan i } else m.free i

def clearDelays : Nat → Option StreamAddr → Roster → Roster
  | fuel + 1, some i, m => clearDelays fuel (m.links.delayNext i) (m.edit i fun t => { t with delayPending := false })
  | _, _, m => m

def freeStreams : Roster :=
  -- a stream that is being removed from the table may still be on the list
  let m := { clearDelays (m.table.length + 1) m.links.delayHead m with
    links := m.links.dropQueues, drrActive := none, numClosed := { m.numClosed with value := 0 } }
  { m.table.foldl failAndFree m with table := [], tableLost := true }

/-- `mux_session_initiate_shutdown`, and every other way out of ESTABLISHED that frees the streams. -/
def shutdown : Roster := { m.freeStreams with established := false }

def reset (accepted : Bool) : Roster :=
  if accepted then m.shutdown else { m.shutdown with numHalfopen := { m.shutdown.numHalfopen with value := 0 } }

def markFinSent (i : StreamAddr) (e : FinEffect) : Roster :=
  if e = .none then m
  else
    match (m.members i).state with
    | .established => m.setState i .finWait
    | .closeWait =>
      let m := m.setState i .closing
      match e with
      | .closed => m.markClosed i
      | .drained => (m.markClosed i).shutdown
      | _ => m
    | _ => m

def sendPush (i : StreamAddr) (fin : FinEffect) : Roster := (m.undelay i).markFinSent i fin

/-- What `sched_send_ctrl_flags` does: nothing to send; no memory for the frame; a frame that may cancel
the delay and may carry the FIN. -/
inductive CtrlEffect where
  | skip
  | retry
  | sent (undelayed : Bool) (fin : FinEffect)
deriving Repr, DecidableEq

def sendCtrlFlags (i : StreamAddr) : CtrlEffect → Roster
  | .skip => m
  | .retry => m.delay i 1
  | .sent undelayed fin => (if undelayed then m.undelay i else m).markFinSent i fin

/-- What `sched_drr_continue` decides. -/
inductive Continue where
  | idle
  | keep
  | requeue
deriving Repr, DecidableEq

def drrContinue (i : StreamAddr) : Continue → Roster
  | .idle => m.setActive none
  | .keep => m.setActive (some i)
  | .requeue => (m.setActive none).wake i

/-- `MUX_NAGLE_TICKS`. -/
def nagleTicks : Nat := 1

/-- What one turn of `mux_sched_next_data` finds: a frame, or none (which Nagle's rule may hold back), and
what the control flags do after it. -/
structure NextTurn where
  frame : Option (FinEffect × Continue)
  hold : Bool
  ctrl : CtrlEffect
deriving Repr, DecidableEq

def serve (i : StreamAddr) (t : NextTurn) : Bool × Roster :=
  match (m.members i).state with
  | .closed =>
    let m := m.setActive none
    (false, if (m.members i).tombstone then m else m.lpEnqueue i)
  | .init => (false, (m.setActive none).lpEnqueue i)
  | .synSent => (false, m.setActive none)
  | _ =>
    match t.frame with
    | some (fin, cont) =>
      let m := m.sendPush i fin
      if m.established then (true, (m.drrContinue i cont).sendCtrlFlags i t.ctrl) else (true, m)
    | none =>
      let m := if t.hold then m.delay i nagleTicks else m
      (false, (m.setActive none).sendCtrlFlags i t.ctrl)

def nextData : List NextTurn → Roster → Roster
  | [], m => m
  | t :: ts, m =>
    match m.drrActive, m.links.sched.head with
    | some i, _ => if (m.serve i t).1 then (m.serve i t).2 else nextData ts (m.serve i t).2
    | none, some i =>
      if ((m.dequeue i).serve i t).1 then ((m.dequeue i).serve i t).2
      else nextData ts ((m.dequeue i).serve i t).2
    | none, none => m

def flushWalk : List CtrlEffect → Option StreamAddr → Roster → Roster
  | e :: es, some i, m =>
    let next := m.links.next i
    let m := if (m.members i).state ≠ .closed then m.sendCtrlFlags i e else m
    if m.established then flushWalk es next m else m
  | _, _, m => m

def flushCtrl (e : CtrlEffect) (es : List CtrlEffect) (m : Roster) : Roster :=
  let m :=
    match m.drrActive with
    | some i => if (m.members i).state ≠ .closed then m.sendCtrlFlags i e else m
    | none => m
  flushWalk es m.links.sched.head m

/-- The loop of `sched_coalesce_cb`. -/
def coalesceWalk : Nat → Option StreamAddr → Roster → Roster
  | fuel + 1, some i, m =>
    let next := m.links.delayNext i
    if 1 < (m.members i).delayTicks then
      coalesceWalk fuel next (m.edit i fun t => { t with delayTicks := t.delayTicks - 1 })
    else coalesceWalk fuel next ((m.delayRemove i).wake i)
  | _, _, m => m

def coalesceCb : Roster := coalesceWalk m.table.length m.links.delayHead m

def handOverRejected (i : StreamAddr) : Roster :=
  if !(m.members i).pendingAttach then m
  else
    let m := m.edit i fun t => { t with pendingAttach := false }
    if (m.members i).state ≠ .closed ∨ (m.members i).orphaned then m else m.wake i

def answerSyn (i : StreamAddr) (ok : Bool) : Roster :=
  if (m.members i).state = .synReceived then
    if ok then m.setState i .established else m.markClosed i
  else m

/-- `mux_stream_do_attach_fd`. A stream whose two FINs were there before its socket is closed with nothing left
to deliver. -/
def attachFd (i : StreamAddr) (ok : Bool) : Roster :=
  if !(m.members i).attachable then m.handOverRejected i
  else
    let m := (m.edit i fun t => { t with pendingAttach := false, attached := true }).answerSyn i ok
    if (m.members i).state = .closing ∧ (m.members i).recvLen = 0 then m.markClosed i else m

/-- `mux_stream_do_io_start`. When the SYN|ACK cannot be sent (`ok`) the application is told before the stream
is aborted, so the abort is an act of its own. -/
def ioStart (i : StreamAddr) (ok : Bool) : Roster :=
  if !(m.members i).attachable then m.handOverRejected i
  else
    let m := m.edit i fun t => { t with pendingAttach := false, isDirect := true }
    if (m.members i).state = .synReceived ∧ ok then m.setState i .established else m

def doRelease (i : StreamAddr) : Roster :=
  if !(m.members i).appHeld then m
  else
    let m := m.edit i fun t => { t with userClosed := t.userClosed || t.isDirect, pendingAttach := false }
    if (m.members i).orphaned then m.freeOrphan i
    else if (m.members i).tombstone then m
    else m.wake i

/-- `mux_stream_do_shutdown`, for a stream the application may have closed. -/
def doShutdown (i : StreamAddr) : Roster :=
  if (m.members i).isDirect ∧ (m.members i).userClosed ∧ (m.members i).state = .closing ∧
      (m.members i).recvLen = 0 then m.markClosed i
  else m.wake i

/-- `mux_stream_close`. -/
def closeStream (i : StreamAddr) : Roster :=
  if (m.members i).state = .closed then m.doRelease i
  else
    let m := m.edit i fun t => { t with pendingAttach := false }
    if !(m.members i).hasMode ∧ (m.members i).state = .synReceived then m.markClosed i
    else
      let m := m.edit i fun t =>
        let direct := t.isDirect || !t.hasMode
        { t with isDirect := direct, userClosed := t.userClosed || direct }
      if (m.members i).recvLen = 0 then m.doShutdown i else m.markClosed i

end Roster

/-! ### What happens to the streams of a session -/

/-- What the application does, on its own or while it is being called back. -/
inductive AppAct where
  /-- `mux_stream_open`; the stream is held until it is given a mode. `grown` says that there is memory for its
  place in the table. -/
  | opened (i : StreamAddr) (id : UInt16) (recvWindow : Nat) (grown : Bool)
  | attachFd (i : StreamAddr) (ok : Bool)
  | ioStart (i : StreamAddr) (ok : Bool)
  /-- bytes of the receive buffer go to the application -/
  | consumed (i : StreamAddr) (n : Nat)
  /-- `mux_stream_recv` at the end of a stream that is CLOSING -/
  | recvEof (i : StreamAddr)
  | shutdownStream (i : StreamAddr)
  | closeStream (i : StreamAddr)
  /-- the abort of a stream whose application has been told -/
  | aborted (i : StreamAddr)
deriving Repr, DecidableEq

/-- What the peer, the timers and the application do, outside the loops of the scheduler. -/
inductive RosterAct where
  | app (a : AppAct)
  /-- A SYN of the peer makes a stream; `on_accept` does what it does, and may turn the stream down. -/
  | accepted (i : StreamAddr) (id : UInt16) (recvWindow : Nat) (grown : Bool) (told : List AppAct) (refused : Bool)
  /-- a stream that the library opens for itself -/
  | opened (i : StreamAddr) (id : UInt16) (recvWindow : Nat) (grown : Bool)
  | wake (i : StreamAddr)
  | advanced (i : StreamAddr) (st : StreamState)
  /-- an abort, a reset of the peer, a close that completes -/
  | closed (i : StreamAddr)
  | tombstoneCb (i : StreamAddr)
  | delay (i : StreamAddr) (ticks : Nat)
  /-- bytes of the peer go to the receive buffer -/
  | recvCopy (i : StreamAddr) (n : Nat)
  | windowed (i : StreamAddr) (recvWindow : Nat)
  | sessionState (established : Bool)
  | shutdown
  | reset (accepted : Bool)
  /-- a table for the next transport of a session that has none -/
  | newTable
  | freeOrphans (fuel : Nat)
deriving Repr, DecidableEq

namespace Roster

variable (m : Roster)

def find (id : UInt16) : Option StreamAddr := m.table.find? fun i => (m.members i).id == id

/-- `mux_stream_new`. -/
def create (i : StreamAddr) (id : UInt16) (active : Bool) (recvWindow : Nat) : Roster :=
  { m.edit i fun _ => { live := true, id := id, state := .init, recvWindow := recvWindow } with
    links := m.links.clear i }.setState i (if active then .init else .synReceived)

/-- `mux_sched_add_stream`, which its callers answer with `mux_stream_free` when it fails. -/
def addStream (i : StreamAddr) (grown : Bool) : Bool × Roster :=
  if m.tableLost ∨ (m.find (m.members i).id).isSome ∨ grown = false then (false, m.free i)
  else (true, { m with table := m.table ++ [i] })

def opened (i : StreamAddr) (id : UInt16) (held : Bool) (recvWindow : Nat) (grown : Bool) : Roster :=
  match (m.create i id true recvWindow).addStream i grown with
  | (false, m) => m
  | (true, m) => (m.wake i).edit i fun t => { t with pendingAttach := held }

/-- `mux_stream_recv_copy`, once the payload is to be kept. -/
def recvCopy (i : StreamAddr) (n : Nat) : Roster :=
  if (m.members i).recvWindow < (m.members i).bufferedBytes + n then m.markClosed i
  else
    { m.edit i fun t => { t with recvLen := t.recvLen + n, bufferedBytes := t.bufferedBytes + n } with
      recvBufferedBytes := m.recvBufferedBytes.add n }

def consumed (i : StreamAddr) (n : Nat) : Roster :=
  { m.edit i fun t => { t with recvLen := t.recvLen - n, bufferedBytes := t.bufferedBytes - n } with
    recvBufferedBytes := m.recvBufferedBytes.sub n }

def isOpen (i : StreamAddr) : Bool := m.table.contains i && (m.members i).state != .closed

def isKnown (i : StreamAddr) : Bool := m.table.contains i || (m.members i).orphaned

def appAct : AppAct → Roster
  | .opened i id recvWindow grown => if (m.members i).live then m else m.opened i id true recvWindow grown
  | .attachFd i ok => if m.isKnown i then m.attachFd i ok else m
  | .ioStart i ok => if m.isKnown i then m.ioStart i ok else m
  | .consumed i n => if m.isOpen i ∧ n ≤ (m.members i).recvLen then m.consumed i n else m
  | .recvEof i =>
    if m.isOpen i ∧ (m.members i).state = .closing ∧ (m.members i).recvLen = 0 then
      (m.edit i fun t => { t with userClosed := true }).markClosed i
    else m
  | .shutdownStream i => if m.isOpen i then m.doShutdown i else m
  | .closeStream i => if m.isKnown i then m.closeStream i else m
  | .aborted i => if m.isOpen i then m.markClosed i else m

/-- `on_accept` has turned a stream down: `mux_stream_do_close`. -/
def refuse (i : StreamAddr) : Roster :=
  let m := m.edit i fun t => { t with userClosed := t.userClosed || t.isDirect }
  if (m.members i).state = .closed then m else m.markClosed i

/-- The part of `dispatch_no_stream` that accepts a stream. -/
def accepted (i : StreamAddr) (id : UInt16) (recvWindow : Nat) (grown : Bool) (told : List AppAct)
    (refused : Bool) : Roster :=
  match (m.create i id false recvWindow).addStream i grown with
  | (false, m) => m
  | (true, m) => if refused then (runFrom appAct m told).refuse i else runFrom appAct m told

def act : RosterAct → Roster
  | .app a => m.appAct a
  | .accepted i id recvWindow grown told refused =>
    if (m.members i).live then m else m.accepted i id recvWindow grown told refused
  | .opened i id recvWindow grown => if (m.members i).live then m else m.opened i id false recvWindow grown
  | .wake i => if m.table.contains i then m.wake i else m
  | .advanced i st => if m.isOpen i ∧ (m.members i).state.advances st then m.setState i st else m
  | .closed i => if m.isOpen i then m.markClosed i else m
  | .tombstoneCb i =>
    if (m.members i).tombstone then (m.edit i fun t => { t with tombstone := false }).wake i else m
  | .delay i ticks => if m.table.contains i then m.delay i ticks else m
  | .recvCopy i n => if m.isOpen i then m.recvCopy i n else m
  | .windowed i recvWindow => if m.table.contains i then m.edit i fun t => { t with recvWindow := recvWindow } else m
  | .sessionState established => { m with established := established }
  | .shutdown => m.shutdown
  | .reset accepted => m.reset accepted
  | .newTable => { m with tableLost := false }
  | .freeOrphans fuel => freeOrphans fuel m

/-- How `sched_send_syn` ends: no memory for the frame, a SYN, a SYN that carries the first payload. -/
inductive SynEffect where
  | failed
  | syn
  | synPush
deriving Repr, DecidableEq

/-- What one turn of `mux_sched_drain_lp` finds: a partly written frame at the head of the send buffer; how
the SYN leaves, and if it does not, what the application does when it is told that its stream is aborted; a
send buffer that is closed for packing; a session that ends, with the stream that is removed or with one that
the application closes. -/
structure DrainTurn where
  blocked : Bool
  syn : SynEffect
  told : List AppAct
  frozen : Bool
  drained : Bool
deriving Repr, DecidableEq

def removeStream (i : StreamAddr) (drained : Bool) : Roster :=
  if (m.find (m.members i).id).isNone then m
  else
    let m := { m with table := m.table.filter fun j => (m.members j).id != (m.members i).id }
    let m := if (m.members i).state ≠ .closed then m else { m with numClosed := m.numClosed.sub 1 }
    if drained then m.shutdown else m

/-- `mux_stream_abort_unopened`: a direct stream tells the application first, which may close the last
stream of a session that is draining. -/
def abortUnopened (i : StreamAddr) (told : List AppAct) (drained : Bool) : Roster :=
  if (m.members i).isDirect then
    let m := runFrom appAct m told
    let m := if drained then m.shutdown else m
    if m.isOpen i then m.markClosed i else m
  else m.markClosed i

/-- `sched_send_syn`, and the abort when it fails. -/
def openStream (i : StreamAddr) (t : DrainTurn) : Roster :=
  match t.syn with
  | .failed => m.abortUnopened i t.told t.drained
  | .syn => m.setState i .synSent
  | .synPush => (m.undelay i).setState i .synSent

/-- The loop of `mux_sched_drain_lp`; every turn has its input. -/
def drainWalk : List DrainTurn → Roster → Roster
  | [], m => m
  | t :: ts, m =>
    match m.links.lp.head with
    | none => m
    | some i =>
      match (m.members i).state with
      | .closed =>
        let m := m.lpPop i
        if (m.members i).appHeld then drainWalk ts m else drainWalk ts ((m.removeStream i t.drained).free i)
      | .init =>
        if t.blocked then m
        else
          let m := (m.lpPop i).openStream i t
          if t.frozen then m else drainWalk ts m
      | _ => drainWalk ts (m.lpPop i)

def drainLp (ts : List DrainTurn) (m : Roster) : Roster := if m.established then drainWalk ts m else m

end Roster

/-- A callback of the event loop, as far as the streams are concerned. -/
inductive RosterEvent where
  | act (a : RosterAct)
  | next (ts : List Roster.NextTurn)
  | flushCtrl (e : Roster.CtrlEffect) (es : List Roster.CtrlEffect)
  | drainLp (ts : List Roster.DrainTurn)
  | coalesceCb

namespace Roster

/-- `send_pump` calls the scheduler in `SESSION_ESTABLISHED` only. -/
def step (m : Roster) : RosterEvent → Roster
  | .act a => m.act a
  | .next ts => if m.established then nextData ts m else m
  | .flushCtrl e es => if m.established then flushCtrl e es m else m
  | .drainLp ts => drainLp ts m
  | .coalesceCb => m.coalesceCb

def run (m : Roster) (es : List RosterEvent) : Roster := runFrom step m es

end Roster

end Multiplexd
