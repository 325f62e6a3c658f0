import Mathlib.Algebra.Order.Ring.Nat
import Mathlib.Logic.Function.Basic
import Multiplexd.Lib.Run

/-!
# The data scheduler

`sched.c` picks the stream whose frame is staged next: a FIFO of ready streams, one stream that holds
the budget of the current round off that FIFO, and a deficit per stream. `nextData` is
`mux_sched_next_data` with the functions it calls.

The rest of the program reaches the scheduler through the actions of `SchedAct`: streams that are
opened, fed, granted credit, advanced or closed, the low-priority queue that is drained, the whole table
that is torn down. They come in any order between two calls. What a FIN sent inside a call does to the
stream is the input `FinEffect` of one turn of the loop.
-/

namespace Multiplexd

/-- `enum stream_state`. -/
inductive StreamState where
  | init
  | synSent
  | synReceived
  | established
  | finWait
  | closeWait
  | closing
  | closed
deriving Repr, DecidableEq

namespace StreamState

def canSendData (st : StreamState) : Bool := st == init || st == established || st == closeWait

/-- The transitions of `stream_set_state` other than the one to `STREAM_CLOSED`. -/
def advances : StreamState → StreamState → Bool
  | init, synSent => true
  | synSent, established => true
  | synReceived, established => true
  | established, finWait => true
  | established, closeWait => true
  | finWait, closing => true
  | closeWait, closing => true
  | _, _ => false

end StreamState

/-- `enum sched_queue`. -/
inductive SchedQueue where
  | none
  | drr
  | lp
deriving Repr, DecidableEq

/-- `struct mux_stream` as far as the scheduler reads it. `sendQueue` lists the payload lengths of the
queued frames, `credit` is `stream_credit_avail` and `tombstone` is `ev_is_active(&s->w_tombstone)`.
`bytesSent` is not reduced modulo 2^32: the source reads it in `stream_credit_avail` alone. -/
structure SchedStream where
  live : Bool := false
  state : StreamState := .closed
  schedQueue : SchedQueue := .none
  tombstone : Bool := false
  sendQueue : List Nat := []
  credit : Nat := 0
  bytesSent : Nat := 0
  unackedBytes : Nat := 0
  nagleFlush : Bool := false
  deficit : Nat := 0
deriving Repr, DecidableEq

/-- The scheduler part of `struct mux_session`. -/
structure Sched where
  established : Bool
  maxPayload : Nat
  nodelay : Bool
  streams : Nat → SchedStream
  /-- From `sched_head` to `sched_tail`. -/
  ready : List Nat
  /-- From `lp_head` to `lp_tail`. -/
  lp : List Nat
  drrActive : Option Nat

/-- What a FIN that leaves with a frame does (`mux_stream_mark_fin_sent`): nothing when the frame
carried none; the stream half-closes; it closes; it closes as the last one of a draining session, which
frees every stream and leaves `SESSION_ESTABLISHED`. -/
inductive FinEffect where
  | none
  | halfClosed
  | closed
  | drained
deriving Repr, DecidableEq

/-- `mux_stream_dequeue_send`. A frame held back by Nagle's rule is released by a later tick. -/
def SchedStream.dequeueSend (nodelay : Bool) (maxPayload : Nat) (t : SchedStream) :
    Option Nat × SchedStream :=
  if t.state.canSendData then
    match t.sendQueue with
    | [] => (none, { t with nagleFlush := false })
    | payload :: rest =>
      if t.credit = 0 then (none, t)
      else if payload = 0 ∨ t.credit < payload then (none, t)
      else if nodelay = false ∧ t.nagleFlush = false ∧ 0 < t.unackedBytes ∧ payload < maxPayload then
        (none, { t with nagleFlush := false })
      else (some payload, { t with nagleFlush := false, sendQueue := rest })
  else (none, t)

namespace Sched

variable (s : Sched)

/-- The scheduler of `mux_session_new`. -/
def new (maxPayload : Nat) (nodelay : Bool) : Sched where
  established := false
  maxPayload := maxPayload
  nodelay := nodelay
  streams := fun _ => {}
  ready := []
  lp := []
  drrActive := none

def set (id : Nat) (t : SchedStream) : Sched :=
  { s with streams := Function.update s.streams id t }

def enqueue (id : Nat) : Sched :=
  if (s.streams id).schedQueue = .none ∧ s.drrActive ≠ some id ∧ (s.streams id).tombstone = false then
    { s.set id { s.streams id with schedQueue := .drr } with ready := s.ready ++ [id] }
  else s

def lpEnqueue (id : Nat) : Sched :=
  if (s.streams id).schedQueue = .drr ∨ s.drrActive = some id then s
  else if (s.streams id).tombstone then s
  else if (s.streams id).schedQueue = .none then
    { s.set id { s.streams id with schedQueue := .lp } with lp := s.lp ++ [id] }
  else s

/-- `mux_sched_wake`, without the notification of the session. -/
def wake (id : Nat) : Sched :=
  if s.established = false then s.enqueue id
  else if (s.streams id).state = .init ∨ (s.streams id).state = .closed then s.lpEnqueue id
  else s.enqueue id

/-- `mux_sched_free_streams`; a stream the application still holds becomes an orphan, which no queue
and no lookup reaches. -/
def freeStreams : Sched :=
  { s with streams := fun _ => {}, ready := [], lp := [], drrActive := none }

/-- `stream_mark_closed` with `stream_stop` and `stream_release_buffers`. -/
def markClosed (id : Nat) : Sched :=
  let wasInit : Bool := (s.streams id).state == .init
  let s : Sched := { s with drrActive := if s.drrActive = some id then none else s.drrActive }
  let s : Sched :=
    s.set id { s.streams id with state := .closed, sendQueue := [], tombstone := !wasInit }
  if wasInit then s.wake id else s

/-- `mux_stream_mark_fin_sent` in a state that can send a FIN. -/
def markFinSent (id : Nat) : FinEffect → Sched
  | .none => s
  | .halfClosed =>
    match (s.streams id).state with
    | .established => s.set id { s.streams id with state := .finWait }
    | .closeWait => s.set id { s.streams id with state := .closing }
    | _ => s
  | .closed => s.markClosed id
  | .drained => { s.freeStreams with established := false }

def sendPush (id payload : Nat) (fin : FinEffect) : Sched :=
  (s.set id { s.streams id with
    credit := (s.streams id).credit - payload
    bytesSent := (s.streams id).bytesSent + payload
    unackedBytes := (s.streams id).unackedBytes + payload }).markFinSent id fin

def addQuantum (id : Nat) : Sched :=
  s.set id { s.streams id with deficit := ((s.streams id).deficit + s.maxPayload) % 2 ^ 32 }

def deduct (id payload : Nat) : Sched :=
  s.set id { s.streams id with deficit := ((s.streams id).deficit + 2 ^ 32 - payload) % 2 ^ 32 }

def clearDeficit (id : Nat) : Sched := s.set id { s.streams id with deficit := 0 }

def drrContinue (id : Nat) : Sched :=
  match (s.streams id).sendQueue with
  | [] => { s with drrActive := none }.clearDeficit id
  | next :: _ =>
    if s.ready = [] then { s with drrActive := some id }
    else if 0 < next ∧ next ≤ (s.streams id).deficit then { s with drrActive := some id }
    else { s with drrActive := none }.wake id

/-- The stream of this turn: the one that holds the budget, or the head of the FIFO
(`sched_dequeue`). -/
def pick : Option (Nat × Sched) :=
  match s.drrActive, s.ready with
  | some id, _ => some (id, s)
  | none, [] => none
  | none, id :: rest =>
    some (id, { s.set id { s.streams id with schedQueue := .none } with ready := rest })

structure Staged where
  id : Nat
  payload : Nat
  budget : Nat
deriving Repr, DecidableEq

/-- The outcome of one turn of the loop of `mux_sched_next_data`. -/
inductive Turn where
  | staged (frame : Staged) (s : Sched)
  | again (s : Sched)

def topUp (id payload : Nat) (fresh : Bool) : Sched :=
  if fresh ∨ (s.streams id).deficit < payload then s.addQuantum id else s

def stage (id payload : Nat) (fresh : Bool) (fin : FinEffect) : Staged × Sched :=
  let s : Sched := s.topUp id payload fresh
  let frame : Staged := ⟨id, payload, (s.streams id).deficit⟩
  let s : Sched := s.sendPush id payload fin
  if s.established then (frame, (s.deduct id payload).drrContinue id) else (frame, s)

def serve (id : Nat) (fresh : Bool) (fin : FinEffect) : Turn :=
  match (s.streams id).state with
  | .closed =>
    let s : Sched := { s with drrActive := none }
    .again (if (s.streams id).tombstone then s else s.lpEnqueue id)
  | .init => .again ({ s with drrActive := none }.lpEnqueue id)
  | .synSent => .again { s with drrActive := none }
  | _ =>
    match (s.streams id).dequeueSend s.nodelay s.maxPayload with
    | (some payload, t) =>
      let r := (s.set id t).stage id payload fresh fin
      .staged r.1 r.2
    -- `sched_send_ctrl_flags` may send a FIN of its own
    | (none, t) => .again (({ s.set id t with drrActive := none }.clearDeficit id).markFinSent id fin)

/-- `mux_sched_next_data`. The list holds what the FIN of each turn does; `none` when the loop needs
more turns than the list has. -/
def nextData : List FinEffect → Sched → Option (Option Staged × Sched)
  | [], _ => none
  | fin :: fins, s =>
    match s.pick with
    | none => some (none, s)
    | some (id, s') =>
      match s'.serve id s.drrActive.isNone fin with
      | .staged frame s'' => some (some frame, s'')
      | .again s'' => nextData fins s''

/-- The loop of `mux_sched_drain_lp`, one stream: a stream that is still to be opened sends its SYN, with
its first frame where it has one, or is aborted when there is no memory for the SYN; a closed one is
freed unless the application holds it. -/
def drainLp (held sent : Bool) : Sched :=
  match s.lp with
  | [] => s
  | id :: rest =>
    let s : Sched := { s.set id { s.streams id with schedQueue := .none } with lp := rest }
    match (s.streams id).state with
    | .closed => if held then s else s.set id {}
    | .init =>
      match (s.streams id).dequeueSend s.nodelay s.maxPayload with
      | (some payload, t) =>
        s.set id { t with
          state := .synSent
          credit := t.credit - payload
          bytesSent := t.bytesSent + payload
          unackedBytes := t.unackedBytes + payload }
      | (none, t) =>
        if sent then s.set id { t with state := .synSent } else (s.set id t).markClosed id
    | _ => s

end Sched

/-- What the rest of the program does to the scheduler between two calls. -/
inductive SchedAct where
  /-- `mux_stream_new` and `mux_sched_add_stream`. -/
  | opened (id credit : Nat) (active : Bool)
  /-- `mux_stream_queue_send` of a frame that was filled up to its capacity at most. -/
  | queueSend (id payload : Nat)
  | wake (id : Nat)
  /-- A credit-bearing ACK, or bytes confirmed. -/
  | credited (id credit unackedBytes : Nat)
  /-- The coalescing timer sets `nagle_flush`. -/
  | released (id : Nat)
  | advanced (id : Nat) (st : StreamState)
  | closed (id : Nat)
  | tombstoneExpired (id : Nat)
  | drainLp (held sent : Bool)
  | freeStreams
  | sessionState (established : Bool)
  | setConfig (nodelay : Bool)
deriving Repr, DecidableEq

namespace Sched

def act (s : Sched) : SchedAct → Sched
  | .opened id credit active =>
    -- `mux_sched_add_stream` rejects an id that is in the table
    if (s.streams id).live then s
    else s.set id { live := true, state := if active then .init else .synReceived, credit := credit }
  | .queueSend id payload =>
    if (s.streams id).live ∧ 0 < payload ∧ payload ≤ s.maxPayload ∧ (s.streams id).state ≠ .closed then
      s.set id { s.streams id with sendQueue := (s.streams id).sendQueue ++ [payload] }
    else s
  | .wake id => if (s.streams id).live then s.wake id else s
  | .credited id credit unackedBytes =>
    s.set id { s.streams id with credit := credit, unackedBytes := unackedBytes }
  | .released id => s.set id { s.streams id with nagleFlush := true }
  | .advanced id st =>
    if (s.streams id).state.advances st then s.set id { s.streams id with state := st } else s
  | .closed id =>
    if (s.streams id).live ∧ (s.streams id).state ≠ .closed then s.markClosed id else s
  | .tombstoneExpired id =>
    if (s.streams id).tombstone then (s.set id { s.streams id with tombstone := false }).wake id else s
  | .drainLp held sent => if s.established then s.drainLp held sent else s
  | .freeStreams => s.freeStreams
  | .sessionState established => { s with established := established }
  | .setConfig nodelay => { s with nodelay := nodelay }

end Sched

inductive SchedEvent where
  | next (fins : List FinEffect)
  | act (a : SchedAct)
deriving Repr, DecidableEq

namespace Sched

/-- `send_pump` calls the scheduler in `SESSION_ESTABLISHED` only. -/
def step (s : Sched) : SchedEvent → Sched
  | .next fins =>
    if s.established then
      match s.nextData fins with
      | some (_, s') => s'
      | none => s
    else s
  | .act a => s.act a

def run (s : Sched) (es : List SchedEvent) : Sched := runFrom step s es

def Ready (s : Sched) (id : Nat) : Prop := id ∈ s.ready ∨ s.drrActive = some id

/-- The stream has a frame and may send it: it is open for data, has the credit, and Nagle's rule does
not hold the frame. -/
def Sendable (s : Sched) (id : Nat) : Prop :=
  (s.streams id).state ≠ .init ∧
    ((s.streams id).dequeueSend s.nodelay s.maxPayload).1.isSome = true

instance (s : Sched) (id : Nat) : Decidable (s.Ready id) := inferInstanceAs (Decidable (_ ∨ _))

instance (s : Sched) (id : Nat) : Decidable (s.Sendable id) := inferInstanceAs (Decidable (_ ∧ _))

end Sched

end Multiplexd
