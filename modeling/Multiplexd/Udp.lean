import Multiplexd.Ids
import Multiplexd.Lib.Index
import Multiplexd.Lib.Run

/-!
# The UDP flows of a tunnel

`struct udp_flows` of `udp.c` keeps its flows in two tables: every flow under its id, and those that a
local client has opened under the listener socket and the address of the client as well. The flows lie in
memory, and the tables hold their addresses. What the allocator, the resolver and the sockets answer is an
input; a table that is NULL is an empty one here.
-/

namespace Multiplexd

open Function (update update_apply update_eq_self update_idem update_of_ne update_self)

/-- Where a `struct udp_flow` lies. -/
abbrev FlowAddr := Nat

/-- An active flow's key: the listener socket (a flow holds a reference to it) and the address of the
client, padded with zeros. -/
structure FlowKey where
  sock : Nat
  client : List UInt8
deriving Repr, DecidableEq

/-- Whom a flow serves: the client that opened it here, or the socket connected to the forward target. -/
inductive FlowEnd where
  | client (key : FlowKey)
  | target (fd : Nat)
deriving Repr, DecidableEq

/-- `struct udp_flow` -/
structure UdpFlow where
  id : UInt16
  lastSeen : Int
  peer : FlowEnd
deriving Repr, DecidableEq

/-- `struct udp_flows`, with the memory of the flows. -/
structure FlowTable where
  flows : FlowAddr → Option UdpFlow
  byId : AList fun _ : UInt16 => FlowAddr
  byClient : AList fun _ : FlowKey => FlowAddr
  sweepArmed : Bool
  nextId : UInt16
  parity : UInt16
  numFlows : Int

/-- What a call sends: a datagram to a client through a listener socket, to a target through the socket of
a flow, or to the peer on a flow; or the peer is told that a flow is closed. -/
inductive UdpOut where
  | toClient (key : FlowKey) (payload : List UInt8)
  | toTarget (fd : Nat) (payload : List UInt8)
  | toPeer (flow : UInt16) (payload : List UInt8)
  | close (flow : UInt16)
deriving Repr, DecidableEq

/-- What `flow_open_active` and `flow_open_passive` are given: whether the table of clients can be
created, the socket for the target, the memory for the flow, whether the tables take it. -/
structure FlowOpening where
  byClientNew : Bool
  fd : Option Nat
  mem : Option FlowAddr
  byClientSet : Bool
  byIdSet : Bool
deriving Repr, DecidableEq

inductive UdpEvent where
  /-- `udp_flows_input`: a datagram of a local client. -/
  | input (key : FlowKey) (payload : List UInt8) (ready : Bool) (now : Int) (o : FlowOpening)
  /-- `passive_read_cb`: datagrams from the target of the flow at `a`. -/
  | read (a : FlowAddr) (payloads : List (List UInt8)) (now : Int)
  /-- `udp_flows_recv`: a datagram of the peer; `forward` says whether there is a forward address. -/
  | recv (flow : UInt16) (payload : List UInt8) (forward : Bool) (now : Int) (o : FlowOpening)
  | recvClose (flow : UInt16)
  | sweep (now idleTimeout : Int)
  | reset
deriving Repr, DecidableEq

namespace FlowTable

variable (f : FlowTable)

def new (accepted : Bool) : FlowTable where
  flows := fun _ => none
  byId := ∅
  byClient := ∅
  sweepArmed := false
  nextId := 2 - idParity accepted
  parity := idParity accepted
  numFlows := 0

def fresh (mem : Option FlowAddr) : Option FlowAddr := mem.filter fun a => (f.flows a).isNone

/-- The flow at `a` is written. -/
def write (a : FlowAddr) (fl : UdpFlow) : FlowTable :=
  { f with flows := update f.flows a (some fl) }

def release (a : FlowAddr) : FlowTable := { f with flows := update f.flows a none }

def seen (a : FlowAddr) (now : Int) : FlowTable :=
  match f.flows a with
  | some fl => f.write a { fl with lastSeen := now }
  | none => f

def flowFree (a : FlowAddr) : FlowTable := { f.release a with numFlows := f.numFlows - 1 }

def unlinkClient (fl : UdpFlow) : FlowTable :=
  match fl.peer with
  | .client key => { f with byClient := f.byClient.erase key }
  | .target _ => f

def flowClose (a : FlowAddr) : FlowTable :=
  match f.flows a with
  | some fl => ({ f with byId := f.byId.erase fl.id }.unlinkClient fl).flowFree a
  | none => f

/-- `flow_expire_cb` for an entry of `by_id`, which goes if it returns false. -/
def flowExpire (now idleTimeout : Int) (p : FlowTable × List UdpOut) (entry : Sigma fun _ : UInt16 => FlowAddr) :
    FlowTable × List UdpOut :=
  match p.1.flows entry.2 with
  | some fl =>
    if now - fl.lastSeen < idleTimeout then p
    else
      let f := (p.1.unlinkClient fl).flowFree entry.2
      ({ f with byId := f.byId.erase entry.1 }, p.2 ++ [.close fl.id])
  | none => p

def sweepCb (now idleTimeout : Int) : FlowTable × List UdpOut :=
  let (f, out) := f.byId.entries.foldl (flowExpire now idleTimeout) (f, [])
  ({ f with sweepArmed := f.byId.entries.length != 0 }, out)

/-- `flows_add` for the flow at `a`; `ok` says whether `by_id` takes it. -/
def flowsAdd (a : FlowAddr) (fl : UdpFlow) (now : Int) (ok : Bool) : Option FlowTable :=
  if !ok then none
  else some { f.write a { fl with lastSeen := now } with
    byId := f.byId.insert fl.id a, numFlows := f.numFlows + 1, sweepArmed := true }

def allocId : UInt16 × FlowTable :=
  let r := UdpFlows.allocId ⟨fun id => (f.byId.lookup id).isSome, f.nextId, f.parity⟩
  (r.1, { f with nextId := r.2.nextId })

def openActive (key : FlowKey) (now : Int) (o : FlowOpening) : Option FlowAddr × FlowTable :=
  let (id, f) := f.allocId
  if id = 0 then (none, f)
  else if !o.byClientNew then (none, f)
  else
    match f.fresh o.mem with
    | none => (none, f)
    | some a =>
      let fl : UdpFlow := ⟨id, 0, .client key⟩
      let f := f.write a fl
      if !o.byClientSet then (none, f.release a)
      else
        let f := { f with byClient := f.byClient.insert key a }
        match f.flowsAdd a fl now o.byIdSet with
        | some f => (some a, f)
        | none => (none, { f with byClient := f.byClient.erase key }.release a)

/-- `flow_open_passive`, for a peer that has resolved the forward address or not. -/
def openPassive (id : UInt16) (now : Int) (o : FlowOpening) : Option FlowAddr × FlowTable :=
  match o.fd with
  | none => (none, f)
  | some fd =>
    match f.fresh o.mem with
    | none => (none, f)
    | some a =>
      let fl : UdpFlow := ⟨id, 0, .target fd⟩
      match (f.write a fl).flowsAdd a fl now o.byIdSet with
      | some f => (some a, f)
      | none => (none, (f.write a fl).release a)

def input (key : FlowKey) (payload : List UInt8) (ready : Bool) (now : Int) (o : FlowOpening) :
    FlowTable × List UdpOut :=
  if !ready then (f, [])
  else
    let (flow, f) :=
      match f.byClient.lookup key with
      | some a => (some a, f)
      | none => f.openActive key now o
    match flow with
    | none => (f, [])
    | some a =>
      match f.flows a with
      | some fl => (f.seen a now, [.toPeer fl.id payload])
      | none => (f, [])

/-- `passive_read_cb`, on the socket of the flow at `a`; `payloads` are the datagrams that were received. -/
def read (a : FlowAddr) (payloads : List (List UInt8)) (now : Int) : FlowTable × List UdpOut :=
  match f.flows a with
  | some ⟨id, _, .target _⟩ => (if payloads.isEmpty then f else f.seen a now, payloads.map (.toPeer id))
  | _ => (f, [])

def recv (flow : UInt16) (payload : List UInt8) (forward : Bool) (now : Int) (o : FlowOpening) :
    FlowTable × List UdpOut :=
  let (found, f) :=
    match f.byId.lookup flow with
    | some a => (some a, f)
    | none => if flow &&& 1 ≠ f.parity ∧ forward = true then f.openPassive flow now o else (none, f)
  match found with
  | none => (f, [.close flow])
  | some a =>
    match f.flows a with
    | some ⟨_, _, .client key⟩ => (f.seen a now, [.toClient key payload])
    | some ⟨_, _, .target fd⟩ => (f.seen a now, [.toTarget fd payload])
    | none => (f, [])

def recvClose (flow : UInt16) : FlowTable :=
  match f.byId.lookup flow with
  | none => f
  | some a =>
    let f := f.flowClose a
    if f.byId.entries.length = 0 then { f with sweepArmed := false } else f

def reset : FlowTable :=
  { f.byId.entries.foldl (fun f entry => f.flowFree entry.2) f with byId := ∅, byClient := ∅, sweepArmed := false }

def step : UdpEvent → FlowTable × List UdpOut
  | .input key payload ready now o => f.input key payload ready now o
  | .read a payloads now => f.read a payloads now
  | .recv flow payload forward now o => f.recv flow payload forward now o
  | .recvClose flow => (f.recvClose flow, [])
  | .sweep now idleTimeout => if f.sweepArmed then f.sweepCb now idleTimeout else (f, [])
  | .reset => (f.reset, [])

def run (es : List UdpEvent) : FlowTable := runFrom (fun f e => (f.step e).1) f es

/-! ### The tables agree -/

/-- What `by_id`, `by_client`, the ids, the gauge and the sweep timer owe to the flows. -/
structure Consistent (accepted : Bool) (f : FlowTable) : Prop where
  parity : f.parity = idParity accepted
  cursor : OwnId accepted f.nextId
  byId : Indexes f.byId f.flows (·.id = ·)
  byClient : Indexes f.byClient f.flows (·.peer = .client ·)
  ids : ∀ a fl, f.flows a = some fl → (fl.id &&& 1 = f.parity ↔ ∃ key, fl.peer = .client key)
  gauge : f.numFlows = f.byId.entries.length
  armed : f.byId.entries.length ≠ 0 → f.sweepArmed = true

variable {accepted : Bool} {f : FlowTable} {a : FlowAddr} {fl : UdpFlow} {now : Int}

theorem new_consistent (accepted : Bool) : (new accepted).Consistent accepted := by
  refine ⟨rfl, (UdpFlows.Aligned.new accepted).2, ?_, ?_, nofun, rfl, fun h => absurd rfl h⟩
  · intro id a
    simp [new]
  · intro key a
    simp [new]

/-- A flow is written that keeps its id and its end. -/
theorem Consistent.write (h : f.Consistent accepted) (ha : f.flows a = some fl) {fl' : UdpFlow} (hid : fl'.id = fl.id)
    (hpeer : fl'.peer = fl.peer) : (f.write a fl').Consistent accepted := by
  refine { h with
    byId := h.byId.write fun id => by simp [ha, hid]
    byClient := h.byClient.write fun key => by simp [ha, hpeer]
    ids := fun b x hx => ?_ }
  by_cases hb : b = a
  · subst hb
    obtain rfl : fl' = x := by simpa [FlowTable.write] using hx
    rw [hid, hpeer]
    exact h.ids b fl ha
  · refine h.ids b x ?_
    simpa [FlowTable.write, update_of_ne hb] using hx

theorem Consistent.seen (h : f.Consistent accepted) (a : FlowAddr) (now : Int) : (f.seen a now).Consistent accepted := by
  unfold FlowTable.seen
  split
  next fl hfl => exact h.write hfl rfl rfl
  · exact h

theorem seen_flows (hfl : f.flows a = some fl) : (f.seen a now).flows a = some { fl with lastSeen := now } := by
  simp [FlowTable.seen, hfl, FlowTable.write]

theorem flowClose_flows (hfl : f.flows a = some fl) : (f.flowClose a).flows = update f.flows a none := by
  rw [flowClose, hfl]
  cases hpeer : fl.peer <;> simp [unlinkClient, hpeer, flowFree, release]

theorem flowClose_byId (hfl : f.flows a = some fl) : (f.flowClose a).byId = f.byId.erase fl.id := by
  rw [flowClose, hfl]
  cases hpeer : fl.peer <;> simp [unlinkClient, hpeer, flowFree, release]

theorem flowClose_rest (hfl : f.flows a = some fl) : (f.flowClose a).parity = f.parity ∧
    (f.flowClose a).nextId = f.nextId ∧ (f.flowClose a).numFlows = f.numFlows - 1 ∧
    (f.flowClose a).sweepArmed = f.sweepArmed := by
  rw [flowClose, hfl]
  cases hpeer : fl.peer <;> simp [unlinkClient, hpeer, flowFree, release]

theorem Consistent.flowClose_byClient (h : f.Consistent accepted) (hfl : f.flows a = some fl) :
    Indexes (f.flowClose a).byClient (update f.flows a none) (·.peer = .client ·) := by
  rw [FlowTable.flowClose, hfl]
  cases hpeer : fl.peer with
  | target fd =>
    simp only [unlinkClient, hpeer, flowFree, release]
    exact h.byClient.write fun key => by simp [hfl, hpeer]
  | client key =>
    simp only [unlinkClient, hpeer, flowFree, release]
    exact h.byClient.erase hfl fun key' => by simp [hpeer, eq_comm]

/-- A flow leaves both tables and its memory. -/
theorem Consistent.flowClose (h : f.Consistent accepted) (hfl : f.flows a = some fl) :
    (f.flowClose a).Consistent accepted := by
  have hid : f.byId.lookup fl.id = some a := (h.byId fl.id a).mpr ⟨fl, hfl, rfl⟩
  have hlen := AList.length_erase hid
  obtain ⟨hparity, hnext, hgauge, harmed⟩ := flowClose_rest hfl
  refine ⟨hparity.trans h.parity, hnext ▸ h.cursor, ?_, ?_, fun b x hx => ?_, ?_, fun hne => ?_⟩
  · rw [flowClose_byId hfl, flowClose_flows hfl]
    exact h.byId.erase hfl fun _ => eq_comm
  · rw [flowClose_flows hfl]
    exact h.flowClose_byClient hfl
  · rw [flowClose_flows hfl, update_apply] at hx
    split at hx
    · cases hx
    · rw [hparity]
      exact h.ids b x hx
  · rw [hgauge, flowClose_byId hfl, h.gauge]
    omega
  · rw [harmed]
    rw [flowClose_byId hfl] at hne
    exact h.armed (by omega)

/-! ### Opening a flow -/

/-- A flow at a fresh address joins the tables. -/
theorem Consistent.added (h : f.Consistent accepted) (fl : UdpFlow) (hfresh : f.flows a = none) (hid : f.byId.lookup fl.id = none)
    (hparity : fl.id &&& 1 = f.parity ↔ ∃ key, fl.peer = .client key)
    {byClient : AList fun _ : FlowKey => FlowAddr}
    (hclient : Indexes byClient (update f.flows a (some fl)) (·.peer = .client ·)) :
    Consistent accepted { f with
      flows := update f.flows a (some fl), byId := f.byId.insert fl.id a, byClient
      numFlows := f.numFlows + 1, sweepArmed := true } := by
  refine ⟨h.parity, h.cursor, h.byId.insert hfresh (fun _ => eq_comm) hid, hclient, fun b x hx => ?_, ?_, fun _ => rfl⟩
  · dsimp only at hx
    by_cases hb : b = a
    · subst hb
      rw [update_self] at hx
      rw [← Option.some.inj hx]
      exact hparity
    · rw [update_of_ne hb] at hx
      exact h.ids b x hx
  · dsimp only
    rw [AList.length_insert hid, h.gauge]
    omega

theorem and_one_eq_iff (accepted : Bool) (id : UInt16) :
    id &&& 1 = idParity accepted ↔ id.toNat % 2 = (idParity accepted).toNat := by
  rw [← UInt16.toNat_inj, UInt16.toNat_and]
  exact Iff.of_eq (congrArg (· = _) (Nat.and_one_is_mod _))

theorem Consistent.allocId (h : f.Consistent accepted) : f.allocId.2.Consistent accepted ∧
    (f.allocId.1 ≠ 0 → f.allocId.1 &&& 1 = f.parity ∧ f.byId.lookup f.allocId.1 = none) := by
  have haligned : UdpFlows.Aligned accepted ⟨fun id => (f.byId.lookup id).isSome, f.nextId, f.parity⟩ :=
    ⟨h.parity, h.cursor⟩
  refine ⟨{ h with cursor := (haligned.allocLoop 32768).2 }, fun hne => ?_⟩
  obtain ⟨hown, hfree⟩ := (UdpFlows.allocId_freshOrExhausted haligned).1 hne
  refine ⟨?_, Option.not_isSome_iff_eq_none.mp (Bool.eq_false_iff.mp hfree)⟩
  rw [h.parity, and_one_eq_iff]
  exact hown.2

theorem fresh_eq_some {mem : Option FlowAddr} (h : f.fresh mem = some a) : f.flows a = none := by
  have hnone := (Option.filter_eq_some_iff.mp h).2
  simpa using hnone

/-- Memory that is written and goes back. -/
theorem release_write (h : f.flows a = none) (fl : UdpFlow) : (f.write a fl).release a = f := by
  have hflows : update (update f.flows a (some fl)) a none = f.flows := by
    rw [update_idem, ← h, update_eq_self]
  rw [FlowTable.release, FlowTable.write, hflows]

def Opened (accepted : Bool) (p : FlowEnd → Prop) (ids : UInt16 → Prop) (r : Option FlowAddr × FlowTable) : Prop :=
  r.2.Consistent accepted ∧ ∀ a, r.1 = some a → ∃ fl, r.2.flows a = some fl ∧ p fl.peer ∧ ids fl.id

section

variable (h : f.Consistent accepted)
include h

theorem Opened.failed (p : FlowEnd → Prop) (ids : UInt16 → Prop) :
    Opened accepted p ids (none, f) :=
  ⟨h, nofun⟩

theorem Consistent.openActive {key : FlowKey} (hkey : f.byClient.lookup key = none)
    (now : Int) (o : FlowOpening) :
    Opened accepted (· = .client key) (fun _ => True) (f.openActive key now o) := by
  obtain ⟨halloc, hid⟩ := h.allocId
  have hsame : f.allocId.2.byClient = f.byClient ∧ f.allocId.2.byId = f.byId ∧ f.allocId.2.parity = f.parity :=
    ⟨rfl, rfl, rfl⟩
  unfold FlowTable.openActive
  generalize f.allocId = r at *
  obtain ⟨id, f'⟩ := r
  dsimp only at *
  split
  · exact Opened.failed halloc _ _
  next hne =>
  obtain ⟨hparity, hfree⟩ := hid hne
  split
  · exact Opened.failed halloc _ _
  split
  · exact Opened.failed halloc _ _
  next a hfresh =>
  have hnone := fresh_eq_some hfresh
  have hkey' : f'.byClient.lookup key = none := by rw [hsame.1, hkey]
  split
  · rw [release_write hnone]
    exact Opened.failed halloc _ _
  cases o.byIdSet with
  | false =>
    have hback : (f'.byClient.insert key a).erase key = f'.byClient := AList.erase_insert hkey' a
    have hundo : FlowTable.release { f'.write a ⟨id, 0, .client key⟩ with
        byClient := (f'.byClient.insert key a).erase key } a = f' := by
      rw [hback]
      exact release_write hnone _
    change Opened accepted _ _ (none, FlowTable.release { f'.write a ⟨id, 0, .client key⟩ with
        byClient := (f'.byClient.insert key a).erase key } a)
    rw [hundo]
    exact Opened.failed halloc _ _
  | true =>
    have hadded := halloc.added ⟨id, now, .client key⟩ hnone (by rw [hsame.2.1, hfree])
      (by rw [hsame.2.2]; exact ⟨fun _ => ⟨key, rfl⟩, fun _ => hparity⟩)
      (halloc.byClient.insert hnone (fun key' => by simp [eq_comm]) hkey')
    have hflows : update (update f'.flows a (some ⟨id, 0, .client key⟩)) a
        (some ⟨id, now, .client key⟩) = update f'.flows a (some ⟨id, now, .client key⟩) :=
      update_idem ..
    simp only [flowsAdd, Bool.not_true, Bool.false_eq_true, ↓reduceIte, FlowTable.write, hflows]
    refine ⟨hadded, fun b hb => ?_⟩
    obtain rfl := Option.some.inj hb
    exact ⟨⟨id, now, .client key⟩, update_self .., rfl, trivial⟩

theorem Consistent.openPassive {id : UInt16} (hid : f.byId.lookup id = none)
    (hparity : id &&& 1 ≠ f.parity) (now : Int) (o : FlowOpening) :
    Opened accepted (fun p => ∃ fd, p = .target fd) (· = id) (f.openPassive id now o) := by
  unfold FlowTable.openPassive
  split
  · exact Opened.failed h _ _
  next fd _ =>
  split
  · exact Opened.failed h _ _
  next a hfresh =>
  have hnone := fresh_eq_some hfresh
  cases o.byIdSet with
  | false =>
    change Opened accepted _ _ (none, (f.write a ⟨id, 0, .target fd⟩).release a)
    rw [release_write hnone]
    exact Opened.failed h _ _
  | true =>
    have hadded := h.added ⟨id, now, .target fd⟩ hnone hid ⟨fun heq => absurd heq hparity, nofun⟩
      (h.byClient.write fun key => by simp [hnone])
    have hflows : update (update f.flows a (some ⟨id, 0, .target fd⟩)) a
        (some ⟨id, now, .target fd⟩) = update f.flows a (some ⟨id, now, .target fd⟩) :=
      update_idem ..
    simp only [flowsAdd, Bool.not_true, Bool.false_eq_true, ↓reduceIte, FlowTable.write, hflows]
    refine ⟨hadded, fun b hb => ?_⟩
    obtain rfl := Option.some.inj hb
    exact ⟨⟨id, now, .target fd⟩, update_self .., ⟨fd, rfl⟩, rfl⟩

/-- What a call sends goes out on the flow that it belongs to: a datagram of a client on the flow of that
client, one from a target on the flow of that target, one of the peer to the end of the flow it names. -/
def Proper (f : FlowTable) : UdpEvent → UdpOut → Prop
  | .input key payload _ _ _, o =>
    ∃ a fl, f.flows a = some fl ∧ fl.peer = .client key ∧ o = .toPeer fl.id payload
  | .read a payloads _, o => ∃ fl, f.flows a = some fl ∧ ∃ payload ∈ payloads, o = .toPeer fl.id payload
  | .recv flow payload _ _ _, o =>
    o = .close flow ∨ ∃ a fl, f.flows a = some fl ∧ fl.id = flow ∧
      match fl.peer with
      | .client key => o = .toClient key payload
      | .target fd => o = .toTarget fd payload
  | .recvClose _, _ => False
  | .sweep _ _, o => ∃ flow, o = .close flow
  | .reset, _ => False

/-- What a step owes. -/
def Keeps (accepted : Bool) (e : UdpEvent) (r : FlowTable × List UdpOut) : Prop :=
  r.1.Consistent accepted ∧ ∀ o ∈ r.2, r.1.Proper e o

theorem Consistent.input (key : FlowKey) (payload : List UInt8) (ready : Bool) (now : Int)
    (o : FlowOpening) : Keeps accepted (.input key payload ready now o) (f.input key payload ready now o) := by
  unfold FlowTable.input
  split
  · exact ⟨h, nofun⟩
  have hflow : Opened accepted (· = .client key) (fun _ => True)
      (match f.byClient.lookup key with
      | some a => (some a, f)
      | none => f.openActive key now o) := by
    split
    next a hlookup =>
      refine ⟨h, fun b hb => ?_⟩
      obtain rfl := Option.some.inj hb
      obtain ⟨fl, hfl, hpeer⟩ := (h.byClient key a).mp hlookup
      exact ⟨fl, hfl, hpeer, trivial⟩
    next hlookup => exact h.openActive hlookup now o
  revert hflow
  generalize (match f.byClient.lookup key with
      | some a => (some a, f)
      | none => f.openActive key now o) = r
  rintro ⟨hconsistent, hopened⟩
  obtain ⟨flow, f'⟩ := r
  cases flow with
  | none => exact ⟨hconsistent, nofun⟩
  | some a =>
    obtain ⟨fl, hfl, hpeer, -⟩ := hopened a rfl
    dsimp only at hfl hpeer ⊢
    rw [hfl]
    refine ⟨hconsistent.seen a now, fun out hout => ?_⟩
    obtain rfl := List.mem_singleton.mp hout
    exact ⟨a, _, seen_flows hfl, hpeer, rfl⟩

theorem Consistent.read (a : FlowAddr) (payloads : List (List UInt8)) (now : Int) :
    Keeps accepted (.read a payloads now) (f.read a payloads now) := by
  unfold FlowTable.read
  split
  next id _ fd hfl =>
    cases payloads with
    | nil => exact ⟨h, nofun⟩
    | cons p ps =>
      refine ⟨h.seen a now, fun out hout => ?_⟩
      obtain ⟨payload, hmem, rfl⟩ := List.mem_map.mp hout
      exact ⟨_, seen_flows hfl, payload, hmem, rfl⟩
  · exact ⟨h, nofun⟩

theorem Consistent.recv (flow : UInt16) (payload : List UInt8) (forward : Bool) (now : Int)
    (o : FlowOpening) : Keeps accepted (.recv flow payload forward now o) (f.recv flow payload forward now o) := by
  unfold FlowTable.recv
  have hflow : Opened accepted (fun _ => True) (· = flow)
      (match f.byId.lookup flow with
      | some a => (some a, f)
      | none => if flow &&& 1 ≠ f.parity ∧ forward = true then f.openPassive flow now o else (none, f)) := by
    split
    next a hlookup =>
      refine ⟨h, fun b hb => ?_⟩
      obtain rfl := Option.some.inj hb
      obtain ⟨fl, hfl, hid⟩ := (h.byId flow a).mp hlookup
      exact ⟨fl, hfl, trivial, hid⟩
    next hlookup =>
      split
      next hother =>
        obtain ⟨hconsistent, hopened⟩ := h.openPassive hlookup hother.1 now o
        refine ⟨hconsistent, fun a ha => ?_⟩
        obtain ⟨fl, hfl, -, hid⟩ := hopened a ha
        exact ⟨fl, hfl, trivial, hid⟩
      · exact Opened.failed h _ _
  revert hflow
  generalize (match f.byId.lookup flow with
      | some a => (some a, f)
      | none => if flow &&& 1 ≠ f.parity ∧ forward = true then f.openPassive flow now o else (none, f)) = r
  rintro ⟨hconsistent, hopened⟩
  obtain ⟨found, f'⟩ := r
  cases found with
  | none =>
    refine ⟨hconsistent, fun out hout => ?_⟩
    exact .inl (List.mem_singleton.mp hout)
  | some a =>
    obtain ⟨⟨id, lastSeen, peer⟩, hfl, -, hid⟩ := hopened a rfl
    dsimp only at hfl hid ⊢
    rw [hfl]
    cases peer with
    | client key =>
      refine ⟨hconsistent.seen a now, fun out hout => .inr ⟨a, _, seen_flows hfl, hid, ?_⟩⟩
      exact List.mem_singleton.mp hout
    | target fd =>
      refine ⟨hconsistent.seen a now, fun out hout => .inr ⟨a, _, seen_flows hfl, hid, ?_⟩⟩
      exact List.mem_singleton.mp hout

/-! ### Closing flows -/

theorem Consistent.recvClose (flow : UInt16) : (f.recvClose flow).Consistent accepted := by
  unfold FlowTable.recvClose
  split
  · exact h
  next a hlookup =>
    obtain ⟨fl, hfl, -⟩ := (h.byId flow a).mp hlookup
    have hclosed := h.flowClose hfl
    dsimp only
    split
    next hempty => exact { hclosed with armed := fun hne => absurd hempty hne }
    · exact hclosed

end

theorem flowExpire_eq (p : FlowTable × List UdpOut) (entry : Sigma fun _ : UInt16 => FlowAddr) {idleTimeout : Int}
    (hfl : p.1.flows entry.2 = some fl) (hid : fl.id = entry.1) :
    flowExpire now idleTimeout p entry =
      if now - fl.lastSeen < idleTimeout then p else (p.1.flowClose entry.2, p.2 ++ [.close fl.id]) := by
  unfold flowExpire FlowTable.flowClose
  rw [hfl, ← hid]
  dsimp only
  congr 1
  cases hpeer : fl.peer <;> simp [unlinkClient, hpeer, flowFree, release]

theorem Consistent.expireAll (now idleTimeout : Int) (entries : List (Sigma fun _ : UInt16 => FlowAddr))
    (p : FlowTable × List UdpOut) (h : p.1.Consistent accepted)
    (hids : ∀ entry ∈ entries, ∀ fl, p.1.flows entry.2 = some fl → fl.id = entry.1)
    (hout : ∀ o ∈ p.2, ∃ flow, o = UdpOut.close flow) :
    (entries.foldl (flowExpire now idleTimeout) p).1.Consistent accepted ∧
      ∀ o ∈ (entries.foldl (flowExpire now idleTimeout) p).2, ∃ flow, o = UdpOut.close flow := by
  induction entries generalizing p with
  | nil => exact ⟨h, hout⟩
  | cons entry entries ih =>
    rw [List.foldl_cons]
    have hrest : ∀ entry ∈ entries, ∀ fl, p.1.flows entry.2 = some fl → fl.id = entry.1 :=
      fun e he => hids e (List.mem_cons_of_mem entry he)
    cases hfl : p.1.flows entry.2 with
    | none =>
      have hkeep : flowExpire now idleTimeout p entry = p := by
        unfold flowExpire
        rw [hfl]
      rw [hkeep]
      exact ih p h hrest hout
    | some fl =>
      rw [flowExpire_eq p entry hfl (hids entry List.mem_cons_self fl hfl)]
      split
      · exact ih p h hrest hout
      · refine ih _ (h.flowClose hfl) (fun e he x hx => ?_) (fun o ho => ?_)
        · rw [flowClose_flows hfl, update_apply] at hx
          split at hx
          · cases hx
          · exact hrest e he x hx
        · rcases List.mem_append.mp ho with ho | ho
          · exact hout o ho
          · exact ⟨fl.id, List.mem_singleton.mp ho⟩

theorem mem_entries_iff {id : UInt16} : ⟨id, a⟩ ∈ f.byId.entries ↔ f.byId.lookup id = some a :=
  AList.mem_lookup_iff.symm

theorem Consistent.sweepCb (h : f.Consistent accepted) (now idleTimeout : Int) :
    Keeps accepted (.sweep now idleTimeout) (f.sweepCb now idleTimeout) := by
  have hids : ∀ entry ∈ f.byId.entries, ∀ fl, f.flows entry.2 = some fl → fl.id = entry.1 := by
    rintro ⟨id, a⟩ hentry fl hfl
    obtain ⟨x, hx, hxid⟩ := (h.byId id a).mp (mem_entries_iff.mp hentry)
    obtain rfl := Option.some.inj (hfl.symm.trans hx)
    exact hxid
  obtain ⟨hswept, hout⟩ := Consistent.expireAll now idleTimeout f.byId.entries (f, []) h hids nofun
  refine ⟨{ hswept with armed := fun hne => ?_ }, hout⟩
  exact bne_iff_ne.mpr hne

theorem flowFree_fold (entries : List (Sigma fun _ : UInt16 => FlowAddr)) (f : FlowTable) :
    entries.foldl (fun f entry => f.flowFree entry.2) f = { f with
      flows := fun a => if a ∈ entries.map (·.2) then none else f.flows a
      numFlows := f.numFlows - entries.length } := by
  induction entries generalizing f with
  | nil => simp
  | cons entry entries ih =>
    rw [List.foldl_cons, ih]
    simp only [flowFree, release, List.map_cons, List.mem_cons, List.length_cons]
    congr 1
    · funext a
      by_cases ha : a = entry.2
      · simp [ha]
      · simp only [update_of_ne ha, ha, false_or]
    · omega

theorem Consistent.flows_eq_none (h : f.Consistent accepted) (ha : a ∉ f.byId.entries.map (·.2)) : f.flows a = none := by
  cases hfl : f.flows a with
  | none => rfl
  | some fl =>
    have hentry := mem_entries_iff.mpr ((h.byId fl.id a).mpr ⟨fl, hfl, rfl⟩)
    exact absurd (List.mem_map_of_mem (f := (·.2)) hentry) ha

theorem Consistent.reset_flows (h : f.Consistent accepted) (a : FlowAddr) : f.reset.flows a = none := by
  rw [FlowTable.reset, flowFree_fold]
  dsimp only
  split
  · rfl
  next hout => exact h.flows_eq_none hout

theorem Consistent.reset (h : f.Consistent accepted) : f.reset.Consistent accepted := by
  have hnone := h.reset_flows
  have hgauge : f.reset.numFlows = 0 := by
    rw [FlowTable.reset, flowFree_fold]
    dsimp only
    rw [h.gauge]
    omega
  have hrest : f.reset.parity = f.parity ∧ f.reset.nextId = f.nextId := by
    rw [FlowTable.reset, flowFree_fold]
    exact ⟨rfl, rfl⟩
  refine ⟨hrest.1.trans h.parity, hrest.2 ▸ h.cursor, fun id a => ?_, fun key a => ?_, fun a fl hfl => ?_, hgauge,
    fun hne => absurd rfl hne⟩
  · have hempty : f.reset.byId = ∅ := rfl
    simp [hnone, hempty]
  · have hempty : f.reset.byClient = ∅ := rfl
    simp [hnone, hempty]
  · rw [hnone] at hfl
    cases hfl

theorem Consistent.step (h : f.Consistent accepted) (e : UdpEvent) : Keeps accepted e (f.step e) := by
  cases e with
  | input key payload ready now o => exact h.input key payload ready now o
  | read a payloads now => exact h.read a payloads now
  | recv flow payload forward now o => exact h.recv flow payload forward now o
  | recvClose flow => exact ⟨h.recvClose flow, nofun⟩
  | sweep now idleTimeout =>
    rw [FlowTable.step]
    split
    · exact h.sweepCb now idleTimeout
    · exact ⟨h, nofun⟩
  | reset => exact ⟨h.reset, nofun⟩

theorem run_consistent (accepted : Bool) (es : List UdpEvent) : ((new accepted).run es).Consistent accepted :=
  runFrom_invariant_always (Consistent accepted) (fun _ e h => (h.step e).1) (new_consistent accepted) es

/-- The flows, each listed once. -/
theorem Consistent.exists_flows (h : f.Consistent accepted) :
    ∃ as : List FlowAddr, as.Nodup ∧ (∀ a, a ∈ as ↔ (f.flows a).isSome) ∧ f.numFlows = as.length := by
  refine ⟨f.byId.entries.map (·.2), ?_, fun a => ?_, by rw [h.gauge, List.length_map]⟩
  · refine List.Nodup.map_on ?_ (List.NodupKeys.nodup f.byId.nodupKeys)
    rintro ⟨id, a⟩ hentry ⟨id', a'⟩ hentry' (rfl : a = a')
    obtain ⟨fl, hfl, rfl⟩ := (h.byId id a).mp (mem_entries_iff.mp hentry)
    obtain ⟨fl', hfl', rfl⟩ := (h.byId id' a).mp (mem_entries_iff.mp hentry')
    obtain rfl := Option.some.inj (hfl.symm.trans hfl')
    rfl
  · rw [List.mem_map, Option.isSome_iff_exists]
    constructor
    · rintro ⟨⟨id, b⟩, hentry, rfl⟩
      obtain ⟨fl, hfl, -⟩ := (h.byId id b).mp (mem_entries_iff.mp hentry)
      exact ⟨fl, hfl⟩
    · rintro ⟨fl, hfl⟩
      exact ⟨⟨fl.id, a⟩, mem_entries_iff.mpr ((h.byId fl.id a).mpr ⟨fl, hfl, rfl⟩), rfl⟩

/-- In every state that a run reaches the two tables agree with the flows, the ids have the parity of the
side that opened the flow, the gauge counts the flows and the sweep timer is armed while there is one; and
whatever the next call sends goes out on the flow it belongs to. -/
theorem run_flows (accepted : Bool) (es : List UdpEvent) :
    let f := (new accepted).run es
    (∀ id a, f.byId.lookup id = some a ↔ ∃ fl, f.flows a = some fl ∧ fl.id = id) ∧
    (∀ key a, f.byClient.lookup key = some a ↔ ∃ fl, f.flows a = some fl ∧ fl.peer = .client key) ∧
    (∀ key key' a, f.byClient.lookup key = some a → f.byClient.lookup key' = some a → key = key') ∧
    (∀ a fl, f.flows a = some fl → (fl.id &&& 1 = idParity accepted ↔ ∃ key, fl.peer = .client key)) ∧
    (∃ as : List FlowAddr, as.Nodup ∧ (∀ a, a ∈ as ↔ (f.flows a).isSome) ∧ f.numFlows = as.length) ∧
    ((∃ a, (f.flows a).isSome) → f.sweepArmed = true) ∧
    ∀ e, ∀ o ∈ (f.step e).2, (f.step e).1.Proper e o := by
  intro f
  have h : f.Consistent accepted := run_consistent accepted es
  refine ⟨h.byId, h.byClient, fun key key' a hkey hkey' => ?_, fun a fl hfl => h.parity ▸ h.ids a fl hfl, h.exists_flows,
    fun hsome => h.armed ?_, fun e => (h.step e).2⟩
  · obtain ⟨fl, hfl, hpeer⟩ := (h.byClient key a).mp hkey
    obtain ⟨fl', hfl', hpeer'⟩ := (h.byClient key' a).mp hkey'
    obtain rfl := Option.some.inj (hfl.symm.trans hfl')
    rw [hpeer] at hpeer'
    exact FlowEnd.client.inj hpeer'
  · obtain ⟨a, ha⟩ := hsome
    obtain ⟨fl, hfl⟩ := Option.isSome_iff_exists.mp ha
    have hentry := mem_entries_iff.mpr ((h.byId fl.id a).mpr ⟨fl, hfl, rfl⟩)
    exact Nat.pos_iff_ne_zero.mp (List.length_pos_of_mem hentry)

theorem flowExpire_flows (now idleTimeout : Int) (p : FlowTable × List UdpOut) (entry : Sigma fun _ : UInt16 => FlowAddr)
    (a : FlowAddr) : (flowExpire now idleTimeout p entry).1.flows a =
      if a = entry.2 then (p.1.flows a).filter (now - ·.lastSeen < idleTimeout) else p.1.flows a := by
  unfold flowExpire
  by_cases ha : a = entry.2 <;> cases hfl : p.1.flows entry.2 with
  | none => simp [ha, hfl]
  | some fl =>
    by_cases hkeep : now - fl.lastSeen < idleTimeout
    · simp [ha, hfl, hkeep, Option.filter_some]
    · cases hpeer : fl.peer <;> simp [ha, hfl, hkeep, Option.filter_some, unlinkClient, hpeer, flowFree, release]

theorem expireAll_flows (now idleTimeout : Int) (entries : List (Sigma fun _ : UInt16 => FlowAddr))
    (p : FlowTable × List UdpOut) (a : FlowAddr) : (entries.foldl (flowExpire now idleTimeout) p).1.flows a =
      if a ∈ entries.map (·.2) then (p.1.flows a).filter (now - ·.lastSeen < idleTimeout) else p.1.flows a := by
  induction entries generalizing p with
  | nil => rfl
  | cons entry entries ih =>
    rw [List.foldl_cons, ih, flowExpire_flows, List.map_cons]
    by_cases ha : a = entry.2 <;> simp only [List.mem_cons, ha, false_or, if_false]
    simp

/-- In every state that a run reaches, a sweep ends the flows that have been idle for too long and leaves
the others as they are; and a reset ends them all. -/
theorem run_expiry (accepted : Bool) (es : List UdpEvent) (now idleTimeout : Int) (a : FlowAddr) :
    let f := (new accepted).run es
    (f.step (.sweep now idleTimeout)).1.flows a = (f.flows a).filter (now - ·.lastSeen < idleTimeout) ∧
      (f.step .reset).1.flows a = none := by
  intro f
  have h : f.Consistent accepted := run_consistent accepted es
  refine ⟨?_, h.reset_flows a⟩
  by_cases ha : a ∈ f.byId.entries.map (·.2)
  · have harmed := h.armed (by simpa using List.ne_nil_of_mem ha)
    rw [FlowTable.step, if_pos harmed]
    exact (expireAll_flows now idleTimeout f.byId.entries (f, []) a).trans (if_pos ha)
  · have hnone := h.flows_eq_none ha
    rw [hnone, FlowTable.step]
    split
    · exact (expireAll_flows now idleTimeout f.byId.entries (f, []) a).trans ((if_neg ha).trans hnone)
    · exact hnone

end FlowTable

end Multiplexd
