import Mathlib.Data.List.Count
import Multiplexd.Lib.Census
import Multiplexd.Mux.Session
import Multiplexd.Server.Dialing

/-!
# Handing a transport to the session it resumes

A resume hello arrives on a new transport, which its transient session owns: the descriptor, the TLS
connection and the identity the peer claims. The transient's thread looks the session id up, holding the
registry's lock shared until the hand-off is queued, takes the transport off its session and posts it to the
queue of the matched tunnel, whose thread installs it. The server's thread closes a tunnel by taking it out
of the registry under the exclusive lock, posting the teardown and waiting for the tunnel's thread.

A step of the model is what one thread does between two points where others can see its work. The
allocator, the peers and the checks of what they claim are inputs.
-/

namespace Multiplexd

inductive Resource where
  | fd (n : Nat)
  | tlsconn (n : Nat)
  | identity (n : Nat)
deriving Repr, DecidableEq

/-- `struct mux_transport`, and the fields of a session that own the same things. -/
structure MuxTransport where
  fd : Option Nat
  tlsconn : Option Nat
  peerIdentity : Option Nat
deriving Repr, DecidableEq

namespace MuxTransport

def empty : MuxTransport := ⟨none, none, none⟩

def parts (t : MuxTransport) : List Resource :=
  t.fd.toList.map .fd ++ (t.tlsconn.toList.map .tlsconn ++ t.peerIdentity.toList.map .identity)

end MuxTransport

structure Custodian where
  state : SessionState
  transport : MuxTransport
deriving Repr, DecidableEq

abbrev Disposal := Custodian × List Resource

namespace Custodian

variable (c : Custodian)

/-- `mux_wire_conn_free` and the closing of the descriptor. The identity stays with the session. -/
def dropTransport : Disposal :=
  ({ c with transport := { c.transport with fd := none, tlsconn := none } },
    { c.transport with peerIdentity := none }.parts)

def reset : Disposal :=
  if c.state = .closed then (c, []) else { c with state := .closed }.dropTransport

/-- `mux_session_suspend`; `oom` when the log cannot take the frames that are left. -/
def suspend (oom : Bool) : Disposal :=
  let c := { c with state := .suspended }
  if oom then c.reset else c.dropTransport

def initiateShutdown : Disposal :=
  if c.state = .established ∨ c.state = .handshake then ({ c with state := .closing }, []) else c.reset

def close : List Resource :=
  let (c, closed) := c.reset
  let (c, closed') := c.dropTransport
  closed ++ closed' ++ c.transport.parts

def detach : Custodian × MuxTransport := ({ c with transport := .empty }, c.transport)

def reattach (t : MuxTransport) : Custodian := { c with transport := t }

/-- What the owner does from inside the event that a session is established. -/
inductive OnEstablished where
  | stay
  | shutdown
  | reset
deriving Repr, DecidableEq

def handshakeDone (react : OnEstablished) : Disposal :=
  let c := { c with state := .established }
  match react with
  | .stay => (c, [])
  | .shutdown => c.initiateShutdown
  | .reset => c.reset

/-- What decides an attach: a log that cannot be extended, an acknowledgement that does not fit it, a
`ServerHello` that cannot be queued, and what the owner does when the session is up. -/
structure AttachInput where
  suspendOom : Bool
  ackRejected : Bool
  captureOom : Bool
  helloFails : Bool
  react : OnEstablished
deriving Repr, DecidableEq

/-- The end of `session_resume_attach`, once the transport is installed. -/
def resumeHello (inp : AttachInput) : Disposal :=
  let c := { c with state := .handshake }
  if inp.helloFails then c.reset else c.handshakeDone inp.react

/-- `session_resume_attach` from the adoption of the transport on. -/
def adopt (t : MuxTransport) (inp : AttachInput) : Disposal :=
  let identity : Option Nat × List Resource :=
    match t.peerIdentity with
    | none => (c.transport.peerIdentity, [])
    | some n => (some n, c.transport.peerIdentity.toList.map .identity)
  let freed := identity.2 ++ c.transport.tlsconn.toList.map .tlsconn
  let c : Custodian := { c with transport := ⟨c.transport.fd, t.tlsconn, identity.1⟩ }
  if inp.captureOom then
    -- the session has reset itself, and the descriptor is not installed yet
    let (c, closed) := c.reset
    (c, freed ++ closed ++ t.fd.toList.map .fd)
  else
    let (c, closed) := { c with transport := { c.transport with fd := t.fd } }.resumeHello inp
    (c, freed ++ closed)

/-- `mux_resume_attach`: what the attach has not consumed is closed. -/
def resumeAttach (t : MuxTransport) (inp : AttachInput) : Disposal :=
  if c.state ≠ .established ∧ c.state ≠ .suspended then (c, t.parts)
  else
    let (c, closed) := if c.state = .established then c.suspend inp.suspendOom else (c, [])
    if c.state ≠ .suspended then (c, closed ++ t.parts)
    else if inp.ackRejected then
      let (c, closed') := c.reset
      (c, closed ++ closed' ++ t.parts)
    else
      let (c, closed') := c.adopt t inp
      (c, closed ++ closed')

/-! ### What a session's functions do with what it owns -/

def Balanced (before : List Resource) (d : Disposal) : Prop :=
  ∀ r, before.count r = d.1.transport.parts.count r + d.2.count r

variable (c : Custodian)

theorem dropTransport_balanced : Balanced c.transport.parts c.dropTransport := fun r => by
  simp only [dropTransport, MuxTransport.parts, Option.toList_none, List.map_nil, List.nil_append, List.append_nil,
    List.count_append]
  omega

theorem balanced_refl : Balanced c.transport.parts (c, []) := fun r => by simp

theorem reset_balanced : Balanced c.transport.parts c.reset := by
  unfold reset
  split
  · exact balanced_refl c
  · exact dropTransport_balanced _

theorem suspend_balanced (oom : Bool) : Balanced c.transport.parts (c.suspend oom) := by
  cases oom
  · exact dropTransport_balanced { c with state := .suspended }
  · exact reset_balanced { c with state := .suspended }

theorem initiateShutdown_balanced : Balanced c.transport.parts c.initiateShutdown := by
  unfold initiateShutdown
  split
  · exact balanced_refl { c with state := .closing }
  · exact reset_balanced c

theorem handshakeDone_balanced (react : OnEstablished) :
    Balanced c.transport.parts (c.handshakeDone react) := by
  cases react
  · exact balanced_refl { c with state := .established }
  · exact initiateShutdown_balanced { c with state := .established }
  · exact reset_balanced { c with state := .established }

theorem resumeHello_balanced (inp : AttachInput) : Balanced c.transport.parts (c.resumeHello inp) := by
  unfold resumeHello
  split
  · exact reset_balanced { c with state := .handshake }
  · exact handshakeDone_balanced { c with state := .handshake } inp.react

theorem close_count (r : Resource) : c.close.count r = c.transport.parts.count r := by
  have hreset := reset_balanced c r
  have hdrop := dropTransport_balanced c.reset.1 r
  simp only [close, List.count_append]
  omega

theorem adopt_balanced (t : MuxTransport) (inp : AttachInput) (hfd : c.transport.fd = none) :
    Balanced (c.transport.parts ++ t.parts) (c.adopt t inp) := by
  intro r
  obtain ⟨state, fd, tlsconn, peerIdentity⟩ := c
  obtain ⟨fd', tlsconn', peerIdentity'⟩ := t
  obtain rfl : fd = none := hfd
  -- the session's identity gives way to the transport's, if that has one
  cases peerIdentity' with
  | none =>
    cases hoom : inp.captureOom with
    | true =>
      have h := reset_balanced ⟨state, none, tlsconn', peerIdentity⟩ r
      simp only [adopt, hoom, if_true, MuxTransport.parts, List.count_append, Option.toList_none, List.map_nil,
        List.count_nil] at h ⊢
      omega
    | false =>
      have h := resumeHello_balanced ⟨state, fd', tlsconn', peerIdentity⟩ inp r
      simp only [adopt, hoom, Bool.false_eq_true, if_false, MuxTransport.parts, List.count_append, Option.toList_none,
        List.map_nil, List.count_nil] at h ⊢
      omega
  | some n =>
    cases hoom : inp.captureOom with
    | true =>
      have h := reset_balanced ⟨state, none, tlsconn', some n⟩ r
      simp only [adopt, hoom, if_true, MuxTransport.parts, List.count_append, Option.toList_none, List.map_nil,
        List.count_nil] at h ⊢
      omega
    | false =>
      have h := resumeHello_balanced ⟨state, fd', tlsconn', some n⟩ inp r
      simp only [adopt, hoom, Bool.false_eq_true, if_false, MuxTransport.parts, List.count_append, Option.toList_none,
        List.map_nil, List.count_nil] at h ⊢
      omega

/-- A session without a transport where it must have none, and with one where it must have one. -/
structure Proper (c : Custodian) : Prop where
  vacant : c.state = .suspended ∨ c.state = .closed → c.transport.fd = none ∧ c.transport.tlsconn = none
  equipped : c.state = .init ∨ c.state = .handshake → c.transport.fd.isSome

theorem reset_proper {c : Custodian} (hc : c.state = .closed → c.Proper) : c.reset.1.Proper ∧ c.reset.1.state = .closed := by
  unfold reset
  split
  case isTrue h => exact ⟨hc h, h⟩
  case isFalse h => exact ⟨⟨fun _ => ⟨rfl, rfl⟩, fun h => by simp [dropTransport] at h⟩, rfl⟩

theorem suspend_proper (oom : Bool) : (c.suspend oom).1.Proper := by
  cases oom
  · exact ⟨fun _ => ⟨rfl, rfl⟩, fun h => by simp [suspend, dropTransport] at h⟩
  · exact (reset_proper (c := { c with state := .suspended }) fun h => by simp at h).1

theorem initiateShutdown_proper {c : Custodian} (hc : c.state = .closed → c.Proper) : c.initiateShutdown.1.Proper := by
  unfold initiateShutdown
  split
  · exact ⟨fun h => by simp at h, fun h => by simp at h⟩
  · exact (reset_proper hc).1

theorem handshakeDone_proper (react : OnEstablished) : (c.handshakeDone react).1.Proper := by
  cases react
  · exact ⟨fun h => by simp [handshakeDone] at h, fun h => by simp [handshakeDone] at h⟩
  · exact initiateShutdown_proper fun h => by simp at h
  · exact (reset_proper fun h => by simp at h).1

theorem resumeHello_proper (inp : AttachInput) : (c.resumeHello inp).1.Proper := by
  unfold resumeHello
  split
  · exact (reset_proper fun h => by simp at h).1
  · exact handshakeDone_proper _ _

theorem adopt_proper {c : Custodian} (t : MuxTransport) (inp : AttachInput) (hc : c.state = .suspended) :
    (c.adopt t inp).1.Proper := by
  unfold adopt
  dsimp only
  split
  · exact (reset_proper fun h => by simp [hc] at h).1
  · exact resumeHello_proper _ _

theorem resumeAttach_spec {c : Custodian} (hc : c.Proper) (t : MuxTransport) (inp : AttachInput) :
    Balanced (c.transport.parts ++ t.parts) (c.resumeAttach t inp) ∧ (c.resumeAttach t inp).1.Proper := by
  unfold resumeAttach
  split
  case isTrue => exact ⟨fun r => by simp [List.count_append], hc⟩
  case isFalse hstate =>
    have hready : Balanced c.transport.parts (if c.state = .established then c.suspend inp.suspendOom else (c, []))
        ∧ (if c.state = .established then c.suspend inp.suspendOom else (c, [])).1.Proper := by
      split
      · exact ⟨suspend_balanced c _, suspend_proper c _⟩
      · exact ⟨balanced_refl c, hc⟩
    generalize (if c.state = .established then c.suspend inp.suspendOom else (c, [])) = ready at hready
    obtain ⟨c', closed⟩ := ready
    obtain ⟨hbal, hproper⟩ := hready
    dsimp only [Balanced] at hbal hproper ⊢
    split
    case isTrue =>
      refine ⟨fun r => ?_, hproper⟩
      have h := hbal r
      simp only [List.count_append]
      omega
    case isFalse hsusp =>
      have hsusp : c'.state = .suspended := by simpa using hsusp
      split
      · refine ⟨fun r => ?_, (reset_proper fun _ => hproper).1⟩
        have h₁ := hbal r
        have h₂ := reset_balanced c' r
        simp only [List.count_append]
        omega
      · refine ⟨fun r => ?_, adopt_proper t inp hsusp⟩
        have h₁ := hbal r
        have h₂ := adopt_balanced c' t inp (hproper.vacant (.inl hsusp)).1 r
        simp only [List.count_append] at h₂ ⊢
        omega

end Custodian

/-! ### Tunnels and the registry -/

/-- A task in a tunnel's queue. -/
inductive TunnelWork where
  | attach (transport : MuxTransport)
  | teardown
  | other
deriving Repr, DecidableEq

/-- Where a tunnel's thread is with a resume hello (`tunnel_on_resume`). `own` is the transport the session
owned when the hello came; no branch reads it. -/
inductive ResumeStep where
  | none
  /-- The lookup has returned a match and holds the lock. -/
  | pinned (target : TunnelId) (own : MuxTransport)
  /-- The hand-off is over; the lock is still held. -/
  | handedOff (handled : Bool) (own : MuxTransport)
  | decided (handled : Bool) (own : MuxTransport)
deriving Repr, DecidableEq

/-- An accepted tunnel with a thread of its own. -/
structure AcceptedTunnel where
  /-- `none` once `mux_close` has freed the session. -/
  session : Option Custodian
  queue : List TunnelWork
  resume : ResumeStep
  registered : Bool
  exited : Bool
deriving Repr, DecidableEq

/-- Where the server's thread is in `tunnel_close_final`. -/
inductive Closing where
  | none
  | posting (t : TunnelId)
  | joining (t : TunnelId)
deriving Repr, DecidableEq

structure Handoff where
  /-- The number of slots of a tunnel's ring. -/
  capacity : Nat
  tunnels : TunnelId → Option AcceptedTunnel
  nextTunnel : TunnelId
  closing : Closing
  nextResource : Nat
  /-- A freed session or tunnel has been used. -/
  crashed : Bool
  /-- History: what has come to exist, and what has been closed. -/
  created : List Resource
  closed : List Resource

namespace Handoff

variable (s : Handoff)

/-- How an accepted connection fares. -/
inductive AcceptOutcome where
  | ok
  /-- `tunnel_new`, the registration or the start of the thread fails. -/
  | fails
deriving Repr, DecidableEq

inductive Act where
  /-- `mux_serve` -/
  | accept (tls : Bool) (outcome : AcceptOutcome)
  /-- A tunnel's thread starts its session. -/
  | start (t : TunnelId) (fails : Bool)
  /-- A hello arrives; `seen` is the state of the matched session as the lookup reads it. -/
  | hello (t : TunnelId) (claims verified : Bool) (sessionId : Option TunnelId) (seen : SessionState)
  | handoff (t : TunnelId) (identityOk oom : Bool)
  | unpin (t : TunnelId)
  | finish (t : TunnelId) (admitted helloFails : Bool) (react : Custodian.OnEstablished)
  /-- The transport of a session is lost, and the session suspends. -/
  | suspend (t : TunnelId) (oom : Bool)
  | shutdown (t : TunnelId)
  /-- The close handshake goes on. -/
  | closeWait (t : TunnelId)
  /-- A timeout, a protocol error or the end of the close handshake. -/
  | reset (t : TunnelId)
  | postOther (t : TunnelId)
  | runTask (t : TunnelId) (inp : Custodian.AttachInput)
  | exit (t : TunnelId)
  /-- The server's thread takes the tunnel out of the registry. -/
  | unregister (t : TunnelId)
  | postTeardown
  | join

def setTunnel (t : TunnelId) (tun : AcceptedTunnel) : Handoff :=
  { s with tunnels := Function.update s.tunnels t (some tun) }

def settle (t : TunnelId) (tun : AcceptedTunnel) (d : Disposal) : Handoff :=
  { s.setTunnel t { tun with session := some d.1 } with closed := s.closed ++ d.2 }

def post (t : TunnelId) (tun : AcceptedTunnel) (task : TunnelWork) : Handoff × Bool :=
  if tun.queue.length < s.capacity then (s.setTunnel t { tun with queue := tun.queue ++ [task] }, true)
  else (s, false)

def ResumeStep.holdsLock : ResumeStep → Bool
  | .pinned _ _ | .handedOff _ _ => true
  | .none | .decided _ _ => false

def locked : Bool :=
  (List.range s.nextTunnel).any fun t => (s.tunnels t).any fun tun => ResumeStep.holdsLock tun.resume

def lookup (sessionId : TunnelId) (seen : SessionState) : Bool :=
  (s.tunnels sessionId).any (·.registered) && (seen = .suspended || seen = .established)

/-- `mux_serve`. A connection that comes to nothing is closed again. -/
def accept (tls : Bool) (outcome : AcceptOutcome) : Handoff :=
  let transport : MuxTransport := ⟨some s.nextResource, if tls then some s.nextResource else none, none⟩
  let s := { s with nextResource := s.nextResource + 1, created := s.created ++ transport.parts }
  match outcome with
  | .fails => { s with closed := s.closed ++ transport.parts }
  | .ok =>
    { s with
      nextTunnel := s.nextTunnel + 1
      tunnels := Function.update s.tunnels s.nextTunnel (some ⟨some ⟨.init, transport⟩, [], .none, true, false⟩) }

def claimIdentity (t : TunnelId) (tun : AcceptedTunnel) (c : Custodian) : Handoff × Custodian :=
  let c' : Custodian := { c with transport := { c.transport with peerIdentity := some s.nextResource } }
  ({ s.setTunnel t { tun with session := some c' } with
      nextResource := s.nextResource + 1
      created := s.created ++ [.identity s.nextResource]
      closed := s.closed ++ c.transport.peerIdentity.toList.map .identity }, c')

def greet (t : TunnelId) (tun : AcceptedTunnel) (c : Custodian) (verified : Bool)
    (sessionId : Option TunnelId) (seen : SessionState) : Handoff :=
  if !verified then s.settle t tun c.reset
  else
    let resume : ResumeStep :=
      match sessionId with
      | some target => if s.lookup target seen then .pinned target c.transport else .decided false c.transport
      | none => .decided false c.transport
    s.setTunnel t { tun with resume := resume }

/-- `mux_handshake_process_hello` up to the hand-off in `process_hello_server`. -/
def hello (t : TunnelId) (tun : AcceptedTunnel) (c : Custodian) (claims verified : Bool)
    (sessionId : Option TunnelId) (seen : SessionState) : Handoff :=
  if claims then
    let (s, c) := s.claimIdentity t tun c
    s.greet t { tun with session := some c } c verified sessionId seen
  else s.greet t tun c verified sessionId seen

/-- `tunnel_handoff_resume`, after the check of the claimed identity. -/
def handoff (t : TunnelId) (tun : AcceptedTunnel) (c : Custodian) (target : TunnelId)
    (own : MuxTransport) (identityOk oom : Bool) : Handoff :=
  if !identityOk || oom then s.setTunnel t { tun with resume := .handedOff false own }
  else
    let (c, transport) := c.detach
    let s := s.setTunnel t { tun with session := some c, resume := .handedOff true own }
    match s.tunnels target with
    | none => { s with crashed := true }
    | some old =>
      let (s, queued) := s.post target old (.attach transport)
      if queued then s
      else s.setTunnel t { tun with session := some (c.reattach transport), resume := .handedOff false own }

/-- The end of `process_hello_server`: a session that was handed off is reset, another goes on as a fresh
one. -/
def finish (t : TunnelId) (tun : AcceptedTunnel) (c : Custodian) (handled admitted helloFails : Bool)
    (react : Custodian.OnEstablished) : Handoff :=
  s.settle t { tun with resume := .none }
    (if handled || !admitted || helloFails then c.reset else c.handshakeDone react)

def runTask (t : TunnelId) (tun : AcceptedTunnel) (inp : Custodian.AttachInput) : Handoff :=
  match tun.queue with
  | [] => s
  | .other :: queue => s.setTunnel t { tun with queue := queue }
  | .attach transport :: queue =>
    match tun.session with
    | none => { s with crashed := true }
    | some c => s.settle t { tun with queue := queue } (c.resumeAttach transport inp)
  | .teardown :: queue =>
    match tun.session with
    | none => { s with crashed := true }
    | some c =>
      { s.setTunnel t { tun with session := none, queue := queue } with closed := s.closed ++ c.close }

def onSession (t : TunnelId) (f : Custodian → Option Disposal) : Handoff :=
  match s.tunnels t with
  | some tun =>
    match tun.resume, tun.session with
    | .none, some c => (f c).elim s fun d => s.settle t tun d
    | _, _ => s
  | none => s

def step : Act → Handoff
  | .accept tls outcome => s.accept tls outcome
  | .start t fails => s.onSession t fun c =>
    if c.state = .init then some (if fails then c.reset else ({ c with state := .handshake }, [])) else none
  | .suspend t oom => s.onSession t fun c => if c.state = .established then some (c.suspend oom) else none
  | .shutdown t => s.onSession t fun c => some c.initiateShutdown
  | .closeWait t => s.onSession t fun c =>
    if c.state = .closing then some ({ c with state := .closeWait }, []) else none
  | .reset t => s.onSession t fun c => some c.reset
  | .hello t claims verified sessionId seen =>
    match s.tunnels t with
    | some tun =>
      match tun.resume, tun.session with
      | .none, some c =>
        if c.state = .handshake then s.hello t tun c claims verified sessionId seen else s
      | _, _ => s
    | none => s
  | .handoff t identityOk oom =>
    match s.tunnels t with
    | some tun =>
      match tun.resume, tun.session with
      | .pinned target own, some c => s.handoff t tun c target own identityOk oom
      | _, _ => s
    | none => s
  | .unpin t =>
    match s.tunnels t with
    | some tun =>
      match tun.resume with
      | .handedOff handled own => s.setTunnel t { tun with resume := .decided handled own }
      | _ => s
    | none => s
  | .finish t admitted helloFails react =>
    match s.tunnels t with
    | some tun =>
      match tun.resume, tun.session with
      | .decided handled _, some c => s.finish t tun c handled admitted helloFails react
      | _, _ => s
    | none => s
  | .postOther t =>
    match s.tunnels t with
    | some tun => (s.post t tun .other).1
    | none => s
  | .runTask t inp =>
    match s.tunnels t with
    | some tun => if tun.resume = .none then s.runTask t tun inp else s
    | none => s
  | .exit t =>
    match s.tunnels t with
    | some tun => if tun.session = none ∧ tun.queue = [] then s.setTunnel t { tun with exited := true } else s
    | none => s
  | .unregister t =>
    match s.closing, s.tunnels t with
    | .none, some tun =>
      if s.locked then s else { s.setTunnel t { tun with registered := false } with closing := .posting t }
    | _, _ => s
  | .postTeardown =>
    match s.closing with
    | .posting t =>
      match s.tunnels t with
      | some tun =>
        let (s, queued) := s.post t tun .teardown
        if queued then { s with closing := .joining t } else s
      | none => { s with crashed := true }
    | _ => s
  | .join =>
    match s.closing with
    | .joining t =>
      match s.tunnels t with
      | some tun =>
        if tun.exited then { s with tunnels := Function.update s.tunnels t none, closing := .none } else s
      | none => { s with crashed := true }
    | _ => s

def new (capacity : Nat) : Handoff :=
  { capacity, tunnels := fun _ => none, nextTunnel := 0, closing := .none, nextResource := 0, crashed := false
    created := [], closed := [] }

def run (capacity : Nat) (acts : List Act) : Handoff := acts.foldl step (new capacity)

end Handoff

end Multiplexd
