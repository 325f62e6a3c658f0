import Multiplexd.Lib.Run
import Multiplexd.Mux.Session

/-!
# Parked connections

A local connection that an on-demand tunnel cannot open as a stream at once waits for the dial it has
caused (`tunnel.c`). Whether it is parked, who dials and when the parking list is settled is decided in
different callbacks: of the session, of its timers, of the tunnel's own timers and tasks. Here the
lifecycle of a dialed session (`session.c`) runs together with its tunnel, which is called back in the
middle of the session's transitions; what the network, the peer, the allocator and the stream layer do
are inputs. The tunnel has a thread of its own, so that nothing it relays comes back inside a callback.
-/

namespace Multiplexd

/-- Local connections, numbered as they are handed to the tunnel. -/
structure Conns where
  count : Nat
  parked : List Nat
  /-- History: those that have left the parking list, in order. -/
  served : List Nat
  attached : List Nat
  closed : List Nat
deriving Repr, DecidableEq

namespace Conns

def settle (conns : Conns) (c : Nat) (opened : Bool) : Conns :=
  if opened then { conns with attached := conns.attached ++ [c] } else { conns with closed := conns.closed ++ [c] }

def leave (conns : Conns) (c : Nat) (opened : Bool) : Conns :=
  { conns.settle c opened with served := conns.served ++ [c] }

def flush (conns : Conns) : Conns :=
  { conns with
    parked := [], served := conns.served ++ conns.parked, closed := conns.closed ++ conns.parked }

end Conns

structure ParkReload where
  updateConnectAddr : Bool
  connectAddr : Option String
  disableReconnect : Bool
  idleTimeout : Int
  drain : Bool
deriving Repr, DecidableEq

/-- A dialed session and its tunnel. -/
structure ParkingTunnel where
  /-- The session: its state, whether `w_socket.fd` is a socket, whether it can be resumed. -/
  state : SessionState
  fd : Bool
  hasSessionId : Bool
  /-- The tunnel; `reconnect` and `park` say that `w_reconnect` and `w_park` are active. -/
  connectAddr : Option String
  shuttingDown : Bool
  idleTimeout : Int
  reconnect : Bool
  park : Bool
  redialOnClosed : Bool
  /-- `tunnel_close_final` has run. -/
  gone : Bool
  conns : Conns
  /-- Inputs: how what may fail ends. -/
  inputs : List Bool

/-- The states that `mux_state` reports as MUX_STATE_CONNECT. -/
def SessionState.connecting (st : SessionState) : Bool := st = .init || st.halfopen

namespace ParkingTunnel

variable (t : ParkingTunnel)

def ask : Bool × ParkingTunnel :=
  match t.inputs with
  | [] => (false, t)
  | ok :: rest => (ok, { t with inputs := rest })

def reconnectOff : Bool := t.connectAddr.isNone || t.shuttingDown

def scheduleReconnect : ParkingTunnel :=
  if t.reconnectOff then t else { t with reconnect := true }

/-- The head of `tunnel_on_event`. It is all there is of MUX_EVENT_CONNECT, and of MUX_EVENT_LOST,
MUX_EVENT_ESTABLISHED and MUX_EVENT_RESUMED as far as the parking goes. -/
def armPark : ParkingTunnel := if t.conns.parked = [] then t else { t with park := true }

/-- `mux_session_attach_fd` once it has its memory. -/
def attachInstall : ParkingTunnel := { t with fd := true, state := .connect }.armPark

/-- `tunnel_redial_on_demand` of a session that is closed: there is nothing to capture, and a stream
table that cannot be allocated leaves the session as it is and is told to nobody. -/
def redialClosed : ParkingTunnel :=
  match t.ask with
  | (false, t) => t.scheduleReconnect
  | (true, t) =>
    match t.ask with
    | (false, t) => t
    | (true, t) => t.attachInstall

/-- `tunnel_on_event` for MUX_EVENT_CLOSED, with `handle_closed`. -/
def onClosed : ParkingTunnel :=
  let demanded := t.redialOnClosed
  let t : ParkingTunnel := { t.armPark with redialOnClosed := false }
  if t.reconnectOff then { t with reconnect := false }
  else if t.idleTimeout ≠ 0 then
    let t : ParkingTunnel := { t with reconnect := false }
    if demanded then t.redialClosed else t
  else t.scheduleReconnect

/-- `tunnel_on_event` for MUX_EVENT_CONNECT_FAILED, with `handle_connect_failed`. -/
def onConnectFailed : ParkingTunnel :=
  let t := t.armPark
  if t.state ≠ .suspended then t
  else if t.reconnectOff then { t with reconnect := true }
  else if t.idleTimeout ≠ 0 then t
  else t.scheduleReconnect

def setState (newstate : SessionState) : ParkingTunnel :=
  if t.state = newstate then t
  else
    let oldstate := t.state
    let t : ParkingTunnel := { t with state := newstate }
    if oldstate = .established then t.armPark
    else if oldstate.halfopen ∧ ¬ newstate.halfopen ∧ newstate ≠ .established then
      if newstate = .suspended then t else t.onConnectFailed
    else if newstate.halfopen ∧ ¬ oldstate.halfopen then t.armPark
    else if newstate = .established then t.armPark
    else t

def reset : ParkingTunnel :=
  if t.state = .closed then t else { t.setState .closed with fd := false, hasSessionId := false }

def notifyClosed : ParkingTunnel := if t.state = .closed then t else t.reset.onClosed

/-- The end of `mux_session_attach_fd`, from the allocation of the stream table on. -/
def attachTable : ParkingTunnel :=
  match t.ask with
  | (true, t) => t.attachInstall
  | (false, t) => t.notifyClosed

/-- `mux_session_attach_fd`. Frames of a suspended session may fail to be captured. -/
def attachFd : ParkingTunnel :=
  if t.state = .suspended then
    match t.ask with
    | (true, t) => t.attachTable
    | (false, t) => t.reset.onClosed
  else t.attachTable

/-- `tunnel_redial`, or `tunnel_schedule_reconnect` where it fails at once: `tunnel_redial_on_demand` -/
def redial : ParkingTunnel :=
  match t.ask with
  | (true, t) => t.attachFd
  | (false, t) => t.scheduleReconnect

/-- `tunnel_on_event` for MUX_EVENT_SUSPENDED, with `handle_transport_lost`. -/
def onSuspended : ParkingTunnel :=
  let t := t.armPark
  if t.reconnectOff then { t with reconnect := true }
  else if t.idleTimeout ≠ 0 then t
  else { t with reconnect := false }.redial

/-- `mux_session_suspend`. A frame that cannot be captured closes the session. -/
def suspend : ParkingTunnel :=
  let attempt := t.state.halfopen
  match (t.setState .suspended).ask with
  | (false, t) => t.reset
  | (true, t) =>
    let t : ParkingTunnel := { t with fd := false }
    if attempt then t.onConnectFailed else t.onSuspended

def suspendOrReset : ParkingTunnel :=
  if t.hasSessionId ∧ (t.state = .established ∨ t.state.halfopen) then t.suspend else t.reset

def initiateShutdown : ParkingTunnel :=
  if t.state ≠ .established ∧ t.state ≠ .handshake then t.notifyClosed else t.setState .closing

/-- `connect_cb`: a failed connect or TLS start, or `handshake_start`, whose hello may fail to be queued. -/
def connectCb (ok : Bool) : ParkingTunnel :=
  if ok then
    match (t.setState .handshake).ask with
    | (true, t) => t
    | (false, t) => t.reset
  else t.suspendOrReset

/-- What `mux_session_on_recv` and `mux_session_on_send` may do to the session. -/
inductive Io where
  /-- the peer's hello is accepted: `mux_session_handshake_done` -/
  | established
  /-- a violation of the protocol, or no memory -/
  | reset
  /-- a transport error, or its end inside the handshake -/
  | lost
  /-- `send_handle_rx_closed` -/
  | rxClosed
  /-- the last stream of a draining session is gone -/
  | drained
deriving Repr, DecidableEq

def io : Io → ParkingTunnel
  | .established => if t.state = .handshake then { t with hasSessionId := true }.setState .established else t
  | .reset => if t.state = .handshake ∨ t.state = .established then t.reset else t
  | .lost => if t.state = .handshake ∨ t.state = .established then t.suspendOrReset else t
  | .rxClosed =>
    if t.state = .established then
      match t.ask with
      | (plain, t) => if t.hasSessionId ∧ plain then t.suspend else { t with hasSessionId := false }.setState .closing
    else t
  | .drained => if t.state = .established then t.initiateShutdown else t

/-- The end of `socket_cb` and of `session_flush_inline`. -/
def emitIfClosed : ParkingTunnel := if t.state = .closed then t.onClosed else t

def connectTimeoutCb : ParkingTunnel :=
  match t.state with
  | .connect | .handshake => if t.hasSessionId then t.suspend.emitIfClosed else t.notifyClosed
  | .suspended | .closing | .closeWait => t.notifyClosed
  | _ => t

/-- `session_on_dead_link`, of `send_timeout_cb` and `timeout_cb` -/
def onDeadLink : ParkingTunnel :=
  if t.hasSessionId then t.suspend.emitIfClosed else t.notifyClosed

/-- `tunnel_attach_stream`: whether `mux_stream_open` finds room. -/
def attachStream : Bool × ParkingTunnel :=
  match t.ask with
  | (ok, t) => (ok && t.state = .established, t)

def demandRedial : ParkingTunnel :=
  if t.reconnectOff ∨ t.idleTimeout ≤ 0 ∨ t.reconnect then t
  else if t.state = .suspended ∨ t.state = .closed then t.redial
  else if t.state = .closing ∨ t.state = .closeWait then { t with redialOnClosed := true }
  else t

/-- The condition of `tunnel_open_fd` for parking a connection. -/
def mayPark : Bool :=
  !t.reconnectOff && 0 < t.idleTimeout && ((t.state.connecting && t.fd) || t.redialOnClosed)

/-- `tunnel_open_fd`; parking needs memory. -/
def openFd : ParkingTunnel :=
  let c := t.conns.count
  match { t with conns := { t.conns with count := c + 1 } }.attachStream with
  | (true, t) => { t with conns := t.conns.settle c true }
  | (false, t) =>
    match t.demandRedial.ask with
    | (memory, t) =>
      if t.mayPark && memory then { t with conns := { t.conns with parked := t.conns.parked ++ [c] } }
      else { t with conns := t.conns.settle c false }

/-- The loop of `tunnel_settle_parked`. -/
def serve : List Nat → ParkingTunnel → ParkingTunnel
  | [], t => t
  | c :: cs, t =>
    match t.attachStream with
    | (ok, t) => serve cs { t with conns := t.conns.leave c ok }

def settleParked : ParkingTunnel :=
  if t.state.connecting ∨ t.redialOnClosed then t
  else if t.state ≠ .established then { t with conns := t.conns.flush }
  else serve t.conns.parked { t with conns := { t.conns with parked := [] } }

def parkCb : ParkingTunnel := { t with park := false }.settleParked

/-- `tunnel_reconnect_cb`. A session that has a transport makes the process abort. -/
def reconnectCb : ParkingTunnel :=
  let t : ParkingTunnel := { t with reconnect := false }
  if t.reconnectOff then t.initiateShutdown
  else if t.state = .init ∨ t.state = .suspended ∨ t.state = .closed then t.redial
  else t

def endIdle : ParkingTunnel :=
  if t.state = .closed then t.onClosed
  else if t.state = .suspended ∨ (t.state.connecting ∧ ¬ t.fd) then t.initiateShutdown
  else t

/-- What `reload_task` changes before it touches the session. -/
def adoptReload (arg : ParkReload) : ParkingTunnel :=
  let t : ParkingTunnel :=
    if arg.updateConnectAddr then
      { t with connectAddr := arg.connectAddr, reconnect := t.reconnect && arg.connectAddr.isSome }
    else t
  let t : ParkingTunnel := if arg.disableReconnect then { t with shuttingDown := true, reconnect := false } else t
  { t with idleTimeout := arg.idleTimeout }

/-- `mux_drain`: a session without streams is shut down. -/
def drain : ParkingTunnel :=
  match t.ask with
  | (idle, t) => if idle ∧ t.state = .established then t.initiateShutdown else t

def reloadTask (arg : ParkReload) : ParkingTunnel :=
  let retired := arg.disableReconnect || (arg.updateConnectAddr && arg.connectAddr.isNone)
  let t := t.adoptReload arg
  let t := if arg.drain then t.drain else t
  if retired then t.endIdle else t

def taskShutdown : ParkingTunnel :=
  let t : ParkingTunnel := { t with shuttingDown := true, reconnect := false }
  if t.state ≠ .closed then t.initiateShutdown else t.onClosed

def close : ParkingTunnel :=
  { t with
    state := .closed, fd := false, hasSessionId := false, reconnect := false, park := false
    redialOnClosed := false, gone := true, conns := t.conns.flush }

/-- The callbacks of the tunnel's event loop. -/
inductive ParkEvent where
  | initialConnect
  /-- `socket_cb` while connecting -/
  | connected (ok : Bool)
  /-- `socket_cb`, or a flush from a stream or a timer, on a transport -/
  | transfer (outcomes : List Io)
  /-- `socket_cb` while closing -/
  | closeStep (ok : Bool)
  | connectTimeout
  | deadLink
  | idle
  | parkTimer
  | reconnectTimer
  /-- a local connection is handed over -/
  | handed
  /-- a local datagram that cannot be sent -/
  | dgram
  | reload (arg : ParkReload)
  | shutdown
  | close
deriving Repr, DecidableEq

def handle : ParkEvent → ParkingTunnel
  | .initialConnect => if t.state = .init then t.redial else t
  | .connected ok => if t.state = .connect then (t.connectCb ok).emitIfClosed else t
  | .transfer outcomes =>
    if t.state = .handshake ∨ t.state = .established then (outcomes.foldl io t).emitIfClosed else t
  | .closeStep ok =>
    if t.state = .closing then (if ok then t.setState .closeWait else t.reset.emitIfClosed)
    else if t.state = .closeWait then t.reset.emitIfClosed
    else t
  | .connectTimeout => t.connectTimeoutCb
  | .deadLink => if t.state = .established then t.onDeadLink else t
  | .idle => if t.state = .established then t.initiateShutdown else t
  | .parkTimer => if t.park then t.parkCb else t
  | .reconnectTimer => if t.reconnect then t.reconnectCb else t
  | .handed => t.openFd
  | .dgram => t.demandRedial
  | .reload arg => t.reloadTask arg
  | .shutdown => t.taskShutdown
  | .close => t.close

def refuse : ParkingTunnel :=
  { t with conns := { t.conns with count := t.conns.count + 1 }.settle t.conns.count false }

def step (e : ParkEvent × List Bool) : ParkingTunnel :=
  if t.gone then (if e.1 = .handed then t.refuse else t) else { t with inputs := e.2 }.handle e.1

def run (es : List (ParkEvent × List Bool)) : ParkingTunnel := runFrom step t es

/-- `tunnel_new` for a dialed tunnel. -/
def new (connectAddr : String) (idleTimeout : Int) : ParkingTunnel where
  state := .init
  fd := false
  hasSessionId := false
  connectAddr := some connectAddr
  shuttingDown := false
  idleTimeout := idleTimeout
  reconnect := false
  park := false
  redialOnClosed := false
  gone := false
  conns := { count := 0, parked := [], served := [], attached := [], closed := [] }
  inputs := []

theorem ask_eq : ∃ ok rest, t.ask = (ok, { t with inputs := rest }) := by
  unfold ask
  split
  · exact ⟨false, t.inputs, rfl⟩
  · exact ⟨_, _, rfl⟩

@[simp] theorem scheduleReconnect_conns : t.scheduleReconnect.conns = t.conns := by
  unfold scheduleReconnect
  split <;> rfl

@[simp] theorem armPark_conns : t.armPark.conns = t.conns := by
  unfold armPark
  split <;> rfl

@[simp] theorem attachInstall_conns : t.attachInstall.conns = t.conns := by
  simp [attachInstall]

@[simp] theorem redialClosed_conns : t.redialClosed.conns = t.conns := by
  obtain ⟨dialed, rest, hdial⟩ := t.ask_eq
  obtain ⟨table, rest', htable⟩ := ask_eq { t with inputs := rest }
  cases dialed <;> cases table <;> simp [redialClosed, hdial, htable]

@[simp] theorem onClosed_conns : t.onClosed.conns = t.conns := by
  unfold onClosed
  dsimp only
  split_ifs <;> simp

@[simp] theorem onConnectFailed_conns : t.onConnectFailed.conns = t.conns := by
  unfold onConnectFailed
  dsimp only
  split_ifs <;> simp

@[simp] theorem setState_conns (st : SessionState) : (t.setState st).conns = t.conns := by
  unfold setState
  dsimp only
  split_ifs <;> simp

@[simp] theorem reset_conns : t.reset.conns = t.conns := by
  unfold reset
  split <;> simp

@[simp] theorem notifyClosed_conns : t.notifyClosed.conns = t.conns := by
  unfold notifyClosed
  split <;> simp

@[simp] theorem attachTable_conns : t.attachTable.conns = t.conns := by
  obtain ⟨table, rest, htable⟩ := t.ask_eq
  cases table <;> simp [attachTable, htable]

@[simp] theorem attachFd_conns : t.attachFd.conns = t.conns := by
  obtain ⟨captured, rest, hcapture⟩ := t.ask_eq
  unfold attachFd
  split
  · cases captured <;> simp [hcapture]
  · simp

@[simp] theorem redial_conns : t.redial.conns = t.conns := by
  obtain ⟨dialed, rest, hdial⟩ := t.ask_eq
  cases dialed <;> simp [redial, hdial]

@[simp] theorem onSuspended_conns : t.onSuspended.conns = t.conns := by
  unfold onSuspended
  dsimp only
  split_ifs <;> simp

@[simp] theorem suspend_conns : t.suspend.conns = t.conns := by
  obtain ⟨captured, rest, hcapture⟩ := (t.setState .suspended).ask_eq
  cases captured <;> simp only [suspend, hcapture]
  · simp
  · split <;> simp

@[simp] theorem suspendOrReset_conns : t.suspendOrReset.conns = t.conns := by
  unfold suspendOrReset
  split <;> simp

@[simp] theorem initiateShutdown_conns : t.initiateShutdown.conns = t.conns := by
  unfold initiateShutdown
  split <;> simp

@[simp] theorem connectCb_conns (ok : Bool) : (t.connectCb ok).conns = t.conns := by
  obtain ⟨queued, rest, hqueue⟩ := (t.setState .handshake).ask_eq
  unfold connectCb
  split
  · cases queued <;> simp [hqueue]
  · simp

@[simp] theorem io_conns (outcome : Io) : (t.io outcome).conns = t.conns := by
  obtain ⟨plain, rest, hplain⟩ := t.ask_eq
  cases outcome <;> simp only [io, hplain] <;> split_ifs <;> simp

@[simp] theorem foldl_io_conns (outcomes : List Io) : (outcomes.foldl io t).conns = t.conns := by
  induction outcomes generalizing t with
  | nil => rfl
  | cons outcome outcomes ih => rw [List.foldl_cons, ih, io_conns]

@[simp] theorem emitIfClosed_conns : t.emitIfClosed.conns = t.conns := by
  unfold emitIfClosed
  split <;> simp

@[simp] theorem connectTimeoutCb_conns : t.connectTimeoutCb.conns = t.conns := by
  unfold connectTimeoutCb
  split <;> (try split) <;> simp

@[simp] theorem onDeadLink_conns : t.onDeadLink.conns = t.conns := by
  unfold onDeadLink
  split <;> simp

@[simp] theorem demandRedial_conns : t.demandRedial.conns = t.conns := by
  unfold demandRedial
  split_ifs <;> simp

@[simp] theorem reconnectCb_conns : t.reconnectCb.conns = t.conns := by
  unfold reconnectCb
  dsimp only
  split_ifs <;> simp

@[simp] theorem endIdle_conns : t.endIdle.conns = t.conns := by
  unfold endIdle
  split_ifs <;> simp

@[simp] theorem adoptReload_conns (arg : ParkReload) : (t.adoptReload arg).conns = t.conns := by
  unfold adoptReload
  dsimp only
  split_ifs <;> rfl

@[simp] theorem drain_conns : t.drain.conns = t.conns := by
  obtain ⟨idle, rest, hidle⟩ := t.ask_eq
  simp only [drain, hidle]
  split <;> simp

@[simp] theorem reloadTask_conns (arg : ParkReload) : (t.reloadTask arg).conns = t.conns := by
  unfold reloadTask
  dsimp only
  split_ifs <;> simp

@[simp] theorem taskShutdown_conns : t.taskShutdown.conns = t.conns := by
  unfold taskShutdown
  dsimp only
  split <;> simp

end ParkingTunnel

namespace Conns

theorem settle_parked (conns : Conns) (c : Nat) (opened : Bool) :
    (conns.settle c opened).parked = conns.parked := by
  unfold settle
  split <;> rfl

theorem settle_served (conns : Conns) (c : Nat) (opened : Bool) :
    (conns.settle c opened).served = conns.served := by
  unfold settle
  split <;> rfl

theorem settle_count (conns : Conns) (c : Nat) (opened : Bool) :
    (conns.settle c opened).count = conns.count := by
  unfold settle
  split <;> rfl

theorem leave_parked (conns : Conns) (c : Nat) (opened : Bool) :
    (conns.leave c opened).parked = conns.parked := by
  simp only [leave, settle_parked]

/-- All that happens to connections: one is handed over and settled at once or parked, or the first of
the parking list is settled. -/
inductive Move : Conns → Conns → Prop
  | settled (conns : Conns) (opened : Bool) :
    Move conns ({ conns with count := conns.count + 1 }.settle conns.count opened)
  | parked (conns : Conns) :
    Move conns { conns with count := conns.count + 1, parked := conns.parked ++ [conns.count] }
  | left (conns : Conns) {c : Nat} {cs : List Nat} (hparked : conns.parked = c :: cs) (opened : Bool) :
    Move conns ({ conns with parked := cs }.leave c opened)

/-- Every connection is parked, attached or closed, once; the parking list is first in, first out. -/
structure Ordered (conns : Conns) : Prop where
  once : (conns.parked ++ conns.attached ++ conns.closed).Perm (List.range conns.count)
  fifo : (conns.served ++ conns.parked).Pairwise (· < ·)
  handed : ∀ c ∈ conns.served ++ conns.parked, c < conns.count

variable {conns conns' : Conns}

theorem settle_once (c : Nat) (opened : Bool) :
    ((conns.settle c opened).parked ++ (conns.settle c opened).attached ++ (conns.settle c opened).closed).Perm
      (c :: (conns.parked ++ conns.attached ++ conns.closed)) := by
  cases opened with
  | true =>
    simp only [settle, if_true, List.append_assoc, List.singleton_append]
    exact (List.perm_middle.append_left _).trans List.perm_middle
  | false =>
    simp only [settle, Bool.false_eq_true, if_false, ← List.append_assoc]
    exact List.perm_append_singleton _ _

theorem Move.ordered (hmove : Move conns conns') (h : conns.Ordered) : conns'.Ordered := by
  have hnext : (conns.count :: (conns.parked ++ conns.attached ++ conns.closed)).Perm
      (List.range (conns.count + 1)) := by
    rw [List.range_succ]
    exact (h.once.cons _).trans (List.perm_append_singleton _ _).symm
  cases hmove with
  | settled opened =>
    constructor
    · rw [settle_count]
      exact (settle_once _ _).trans hnext
    · rw [settle_served, settle_parked]
      exact h.fifo
    · rw [settle_served, settle_parked, settle_count]
      exact fun c hc => Nat.lt_succ_of_lt (h.handed c hc)
  | parked =>
    constructor
    · simp only [List.append_assoc, List.singleton_append] at hnext ⊢
      exact List.perm_middle.trans hnext
    · rw [← List.append_assoc, List.pairwise_append]
      refine ⟨h.fifo, List.pairwise_singleton _ _, fun c hc d hd => ?_⟩
      rw [List.mem_singleton.1 hd]
      exact h.handed c hc
    · intro c hc
      rw [← List.append_assoc, List.mem_append, List.mem_singleton] at hc
      rcases hc with hc | rfl
      · exact Nat.lt_succ_of_lt (h.handed c hc)
      · exact Nat.lt_succ_self _
  | left hparked opened =>
    constructor
    · refine (settle_once _ _).trans ?_
      have honce := h.once
      rw [hparked] at honce
      simpa [leave, settle_count] using honce
    · rw [leave_parked, leave, List.append_assoc, List.singleton_append, ← hparked]
      exact h.fifo
    · rw [leave_parked, leave, List.append_assoc, List.singleton_append, ← hparked, settle_count]
      exact h.handed

/-- What has been settled stays settled. -/
structure Grows (conns conns' : Conns) : Prop where
  attached : conns.attached <+: conns'.attached
  closed : conns.closed <+: conns'.closed
  served : conns.served <+: conns'.served

theorem Grows.refl (conns : Conns) : conns.Grows conns := ⟨List.prefix_rfl, List.prefix_rfl, List.prefix_rfl⟩

theorem Grows.trans {conns'' : Conns} (h : conns.Grows conns') (h' : conns'.Grows conns'') :
    conns.Grows conns'' :=
  ⟨h.attached.trans h'.attached, h.closed.trans h'.closed, h.served.trans h'.served⟩

theorem settle_grows (conns : Conns) (c : Nat) (opened : Bool) : conns.Grows (conns.settle c opened) := by
  unfold settle
  split
  · exact ⟨List.prefix_append _ _, List.prefix_rfl, List.prefix_rfl⟩
  · exact ⟨List.prefix_rfl, List.prefix_append _ _, List.prefix_rfl⟩

theorem Move.grows (hmove : Move conns conns') : conns.Grows conns' := by
  cases hmove with
  | settled opened =>
    have hgrows := settle_grows { conns with count := conns.count + 1 } conns.count opened
    exact { hgrows with }
  | parked => exact ⟨List.prefix_rfl, List.prefix_rfl, List.prefix_rfl⟩
  | @left c cs hparked opened =>
    have hgrows := settle_grows { conns with parked := cs } c opened
    exact { hgrows with served := List.prefix_append _ _ }

open Relation (ReflTransGen)

theorem flush_moves (conns : Conns) : ReflTransGen Move conns conns.flush := by
  obtain ⟨count, parked, served, attached, closed⟩ := conns
  induction parked generalizing served closed with
  | nil =>
    simp only [flush, List.append_nil]
    exact .refl
  | cons c cs ih =>
    have hmoves := ih (served ++ [c]) (closed ++ [c])
    simp only [flush, List.append_assoc, List.singleton_append] at hmoves
    exact .head (.left _ rfl false) hmoves

theorem ordered_of_moves (hmoves : ReflTransGen Move conns conns') (h : conns.Ordered) : conns'.Ordered :=
  reflTransGen_invariant Ordered (fun _ _ hmove h => hmove.ordered h) hmoves h

theorem grows_of_moves (hmoves : ReflTransGen Move conns conns') : conns.Grows conns' :=
  reflTransGen_invariant (conns.Grows ·) (fun _ _ hmove h => h.trans hmove.grows) hmoves (.refl conns)

end Conns

end Multiplexd
