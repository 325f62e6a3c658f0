import Mathlib.Data.List.Nodup
import Mathlib.Logic.Function.Basic

/-!
# Configured dial-outs

The server keeps one slot for `mux_connect` and one for each entry of `identity.mux_connect`, and a
maintenance timer that refills slots. A reload tells every live tunnel what became of its target; with
threads the tunnel learns of it when its own thread comes to run the task, without them at once. Which
tunnels close, which creations fail and which dispatches get through are inputs.
-/

namespace Multiplexd

abbrev TunnelId := Nat

/-- What the configuration says about dialing out: `mux_connect` and `identity.mux_connect`. -/
structure DialConf where
  muxConnect : Option String
  identityConnect : List String
deriving Repr, DecidableEq

/-- What `tunnel_set_reload_connect` writes into `struct tunnel_reload_opts`. -/
structure ReloadOpts where
  updateConnectAddr : Bool := false
  connectAddr : Option String := none
  disableReconnect : Bool := false
deriving Repr, DecidableEq

/-- The tasks of a tunnel that concern dialing: `tunnel_initial_connect_task` and `reload_task`. -/
inductive TunnelTask where
  | connect
  | reload (opts : ReloadOpts)
deriving Repr, DecidableEq

/-- What `struct tunnel` has to do with dialing. -/
structure Tunnel where
  connectAddr : Option String
  shuttingDown : Bool
  queue : List TunnelTask
deriving Repr, DecidableEq

def Tunnel.reconnectOff (t : Tunnel) : Bool := t.connectAddr.isNone || t.shuttingDown

/-- The part of `reload_task` that concerns dialing. -/
def Tunnel.reload (tun : Tunnel) (opts : ReloadOpts) : Tunnel :=
  let tun : Tunnel := if opts.updateConnectAddr then { tun with connectAddr := opts.connectAddr } else tun
  if opts.disableReconnect then { tun with shuttingDown := true } else tun

def TunnelTask.disables : TunnelTask → Bool
  | .connect => false
  | .reload opts => opts.disableReconnect

/-- A call of `tunnel_do_connect`. -/
structure Dial where
  tunnel : TunnelId
  addr : Option String
deriving Repr, DecidableEq

/-- How creating and starting a tunnel ends: `tunnel_new` may refuse and `tunnel_start` may fail. -/
inductive StartOutcome where
  | started
  | refused
  | failed
deriving Repr, DecidableEq

structure Server where
  threads : Bool
  conf : DialConf
  muxTunnel : Option TunnelId
  identityTunnels : List (Option TunnelId)
  maintenance : Bool
  tunnels : TunnelId → Option Tunnel
  nextTunnel : TunnelId
  /-- Inputs: how the next tunnels start, whether the next reallocations succeed. -/
  starts : List StartOutcome
  growths : List Bool
  dials : List Dial

namespace Server

variable (s : Server)

/-- `server_maintenance_kick`, before shutdown. -/
def maintenanceKick : Server := { s with maintenance := true }

def setTunnel (t : TunnelId) (tun : Option Tunnel) : Server :=
  { s with tunnels := Function.update s.tunnels t tun }

def doConnect (t : TunnelId) (tun : Tunnel) : Server :=
  { s with dials := s.dials ++ [⟨t, tun.connectAddr⟩] }

def runTask (t : TunnelId) (tun : Tunnel) : TunnelTask → Server
  | .connect => (s.setTunnel t (some tun)).doConnect t tun
  | .reload opts => s.setTunnel t (some (tun.reload opts))

/-- `tunnel_post`, to a tunnel that is live. -/
def post (t : TunnelId) (task : TunnelTask) : Server :=
  match s.tunnels t with
  | none => s
  | some tun =>
    if s.threads then s.setTunnel t (some { tun with queue := tun.queue ++ [task] })
    else s.runTask t tun task

def runNext (t : TunnelId) : Server :=
  match s.tunnels t with
  | none => s
  | some tun =>
    match tun.queue with
    | [] => s
    | task :: queue => s.runTask t { tun with queue := queue } task

def redial (t : TunnelId) : Server :=
  match s.tunnels t with
  | none => s
  | some tun => if tun.reconnectOff then s else s.doConnect t tun

def clearSlot (t : TunnelId) : List (Option TunnelId) → List (Option TunnelId)
  | [] => []
  | slot :: slots => if slot = some t then none :: slots else slot :: clearSlot t slots

/-- `server_remove_and_close_tunnel`, up to the flush. A tunnel that is gone relays nothing. -/
def removeAndClose (t : TunnelId) : Server :=
  { s with
    muxTunnel := if s.muxTunnel = some t then none else s.muxTunnel
    identityTunnels := clearSlot t s.identityTunnels
    tunnels := Function.update s.tunnels t none }

/-- `handle_closed` for each of a run of relayed events. -/
def handleEachClosed (ts : List TunnelId) : Server :=
  ts.foldl (fun s t => (s.removeAndClose t).maintenanceKick) s

/-- `handle_closed`: closing the tunnel flushes the dispatcher, which runs the handlers of other tunnels
whose events were queued. -/
def handleClosed (t : TunnelId) (flushed : List TunnelId) : Server :=
  ((s.removeAndClose t).handleEachClosed flushed).maintenanceKick

/-- `identity_listener_discard` on one member of the pool; it does not arm the timer itself. -/
def discard (t : TunnelId) (flushed : List TunnelId) : Server :=
  if (s.tunnels t).isSome then (s.removeAndClose t).handleEachClosed flushed else s

/-- `server_new_client_tunnel` and `tunnel_start`, with what their callers do when one of them fails. -/
def startTunnel (addr : String) : Option TunnelId × Server :=
  let outcome := s.starts.headD .started
  let s := { s with starts := s.starts.tail }
  match outcome with
  | .refused => (none, s.maintenanceKick)
  | .failed => (none, { s with nextTunnel := s.nextTunnel + 1 }.maintenanceKick)
  | .started =>
    let t := s.nextTunnel
    (some t, ({ s with nextTunnel := t + 1 }.setTunnel t (some ⟨some addr, false, []⟩)).post t .connect)

def ensureMuxTunnel : Server :=
  match s.muxTunnel, s.conf.muxConnect with
  | none, some addr =>
    let (t, s) := s.startTunnel addr
    { s with muxTunnel := t }
  | _, _ => s

/-- `server_start_identity_tunnel`, on an empty slot. -/
def startIdentityTunnel (i : Nat) : Server :=
  match s.conf.identityConnect[i]? with
  | none => s
  | some addr =>
    let (t, s) := s.startTunnel addr
    { s with identityTunnels := s.identityTunnels.set i t }

/-- One turn of the first loop of `server_reload_identity_tunnels`. -/
def refillSlot (i : Nat) : Server :=
  if s.identityTunnels[i]? = some none then s.startIdentityTunnel i else s

def reloadIdentityTunnels : Server :=
  let oldNi := s.identityTunnels.length
  let newNi := s.conf.identityConnect.length
  let s := (List.range (min oldNi newNi)).foldl refillSlot s
  if newNi ≤ oldNi then s
  else
    let grown := s.growths.headD true
    let s := { s with growths := s.growths.tail }
    if grown then
      let s := { s with identityTunnels := s.identityTunnels ++ List.replicate (newNi - oldNi) none }
      (List.range' oldNi (newNi - oldNi)).foldl startIdentityTunnel s
    else s.maintenanceKick

def setReloadConnect (t : TunnelId) (old new : DialConf) : ReloadOpts :=
  if s.muxTunnel = some t then
    if old.muxConnect = new.muxConnect then {}
    else
      match old.muxConnect, new.muxConnect with
      | some _, some addr => { updateConnectAddr := true, connectAddr := some addr }
      -- removed now, or added back while a retired tunnel still drains
      | _, _ => { disableReconnect := true }
  else
    match s.identityTunnels.findIdx? (· == some t) with
    | none => {}
    | some i =>
      -- slots only grow in number, so one may have outlived the entry it was made for
      if new.identityConnect.length ≤ i ∨ old.identityConnect.length ≤ i then { disableReconnect := true }
      else if old.identityConnect[i]? ≠ new.identityConnect[i]? then
        { updateConnectAddr := true, connectAddr := new.identityConnect[i]? }
      else {}

/-- What a reload depends on: the members of discarded pools with what their closing flushed, the tunnels
the dispatch reaches in the order of the snapshot, and those whose session has nothing left to do. -/
structure ReloadInput where
  discards : List (TunnelId × List TunnelId) := []
  reached : List TunnelId := []
  idle : List TunnelId := []

/-- `drain_tunnel_cb`. Without threads `tunnel_end_idle` closes a retired tunnel that is idle inside. -/
def drainTunnel (old new : DialConf) (idle : List TunnelId) (s : Server) (t : TunnelId) : Server :=
  if (s.tunnels t).isNone then s
  else
    let opts := s.setReloadConnect t old new
    let s := s.post t (.reload opts)
    if !s.threads && opts.disableReconnect && idle.contains t then s.handleClosed t [] else s

/-- `server_apply_config`, of a configuration that is accepted. -/
def applyConfig (new : DialConf) (inp : ReloadInput) : Server :=
  let s := inp.discards.foldl (fun s d => s.discard d.1 d.2) s
  let s := inp.reached.foldl (drainTunnel s.conf new inp.idle) s
  let s := { s with conf := new }
  s.ensureMuxTunnel.reloadIdentityTunnels

/-- `maintenance_pass`: what is left to do. `pskLeft` says that a retired PSK table is. -/
def maintenancePass (pskLeft : Bool) : Bool × Server :=
  let s := s.ensureMuxTunnel
  let more := pskLeft || (s.muxTunnel.isNone && s.conf.muxConnect.isSome)
  let s := s.reloadIdentityTunnels
  let more := more || decide (s.identityTunnels.length < s.conf.identityConnect.length)
  let more := (List.range s.identityTunnels.length).foldl
    (fun more i => if i < s.conf.identityConnect.length then more || s.identityTunnels[i]? = some none else more) more
  (more, s)

/-- `maintenance_cb`, which runs while the timer is active. -/
def maintenanceCb (pskLeft : Bool) : Server :=
  if s.maintenance then
    let (more, s) := s.maintenancePass pskLeft
    if more then s else { s with maintenance := false }
  else s

inductive Event where
  | closed (t : TunnelId) (flushed : List TunnelId)
  | reload (new : DialConf) (inp : ReloadInput)
  | tick (pskLeft : Bool)
  /-- Another site arms the timer. -/
  | kick
  /-- Inputs for the operations to come. -/
  | supply (starts : List StartOutcome) (growths : List Bool)
  | runNext (t : TunnelId)
  | redial (t : TunnelId)

def step : Event → Server
  | .closed t flushed => s.handleClosed t flushed
  | .reload new inp => s.applyConfig new inp
  | .tick pskLeft => s.maintenanceCb pskLeft
  | .kick => s.maintenanceKick
  | .supply starts growths => { s with starts := starts, growths := growths }
  | .runNext t => s.runNext t
  | .redial t => s.redial t

def run (es : List Event) : Server := es.foldl step s

/-- One slot of `server_start_identity_tunnels`; a tunnel that cannot be started ends the program. -/
def bootIdentityTunnel (i : Nat) : Option Server :=
  if s.starts.headD .started = .failed then none else some (s.startIdentityTunnel i)

def new (threads : Bool) (conf : DialConf) (starts : List StartOutcome) : Server where
  threads := threads
  conf := conf
  muxTunnel := none
  identityTunnels := []
  maintenance := false
  tunnels := fun _ => none
  nextTunnel := 0
  starts := starts
  growths := []
  dials := []

/-- `server_start`: only a refused creation is put off. -/
def start (threads : Bool) (conf : DialConf) (starts : List StartOutcome) : Option Server :=
  let s := new threads conf starts
  if conf.muxConnect.isSome ∧ s.starts.headD .started = .failed then none
  else
    let s := s.ensureMuxTunnel
    let n := conf.identityConnect.length
    (List.range n).foldlM bootIdentityTunnel { s with identityTunnels := List.replicate n none }

end Server

end Multiplexd
