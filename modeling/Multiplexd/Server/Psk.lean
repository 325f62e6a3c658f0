import Mathlib.Data.List.Count
import Mathlib.Data.List.Nodup
import Mathlib.Logic.Function.Basic
import Multiplexd.Server.Dialing

/-!
# PSK tables and their users

A reload replaces the table of pre-shared keys. The old table is retired and freed by a later sweep on the
server's thread, while tunnels, on threads of their own, go on resolving labels through it, tasks that
carry a table wait in the tunnels' queues, and TLS contexts made for it live on with their connections. A
step of the model is what one thread does between two points where others can see its work: the sweep reads
the hold counts one by one and then asks the tunnels one by one; a tunnel publishes the table a task
brought and gives the hold back afterwards.
-/

namespace Multiplexd

open Function (update update_of_ne update_self)

abbrev TableId := Nat

/-- A reload or repoint sent to a tunnel, with the table it carries (`none` for NULL). The number tells one
dispatch from another. -/
structure PskDispatch where
  id : Nat
  tunnel : TunnelId
  table : Option TableId
deriving Repr, DecidableEq

/-- What a tunnel has to do with PSK tables: `psk_ctx` as published, the tasks in its queue, and the task
that has published its table and not yet given its hold back. -/
structure PskTunnel where
  psk : Option TableId
  queue : List PskDispatch
  running : Option PskDispatch
deriving Repr, DecidableEq

/-- Where the server's thread is. -/
inductive PskPhase where
  | idle
  /-- `server_apply_config` has built the new table and its contexts. -/
  | prepared (new : Option TableId)
  /-- `server_drain_tunnels`, with the tunnels still to be told. -/
  | draining (new : Option TableId) (todo : List TunnelId)
  /-- The three loops of `server_psk_release_retired`. -/
  | readingHolds (todo : List TableId)
  | askingTunnels (todo : List TunnelId)
  | freeing (todo : List TableId)
deriving Repr, DecidableEq

structure PskState where
  current : Option TableId
  retired : List TableId
  holds : TableId → Nat
  retiredInUse : TableId → Bool
  freed : TableId → Bool
  nextTable : TableId
  tunnels : TunnelId → Option PskTunnel
  nextTunnel : TunnelId
  /-- The tables of the TLS contexts that are alive, and of those that are gone but have not given back
  their hold. -/
  contexts : List TableId
  dying : List TableId
  phase : PskPhase
  /-- History: dispatches whose hold is out, those whose hold has been given back. -/
  nextDispatch : Nat
  outstanding : List PskDispatch
  returned : List Nat

namespace PskState

variable (s : PskState)

def hold : Option TableId → PskState
  | none => s
  | some p => { s with holds := update s.holds p (s.holds p + 1) }

def release : Option TableId → PskState
  | none => s
  | some p => { s with holds := update s.holds p (s.holds p - 1) }

def live : List TunnelId := (List.range s.nextTunnel).filter fun t => (s.tunnels t).isSome

/-- A hold is taken and `tunnel_reload` or `tunnel_set_psk` called. `queued` says whether the task got into
the queue; otherwise the hold is given back at once. -/
def dispatch (t : TunnelId) (table : Option TableId) (queued : Bool) : PskState :=
  match s.tunnels t with
  | none => s
  | some tun =>
    let d : PskDispatch := ⟨s.nextDispatch, t, table⟩
    let s := { s with nextDispatch := s.nextDispatch + 1 }.hold table
    if queued then
      { s with
        tunnels := update s.tunnels t (some { tun with queue := tun.queue ++ [d] })
        outstanding := s.outstanding ++ [d] }
    else { s with returned := s.returned ++ [d.id] }.release table

def barrier (t : TunnelId) (queued : Bool) : PskState :=
  match s.tunnels t with
  | none => s
  | some tun =>
    if tun.psk = s.current then s
    else
      let s :=
        match tun.psk with
        | none => s
        | some p => if p ∈ s.retired then { s with retiredInUse := update s.retiredInUse p true } else s
      s.dispatch t s.current queued

/-- `TPSK_STORE` in `reload_task` and `set_psk_task`. -/
def publish (t : TunnelId) : PskState :=
  match s.tunnels t with
  | some ⟨_, d :: queue, none⟩ =>
    { s with tunnels := update s.tunnels t (some ⟨d.table, queue, some d⟩) }
  | _ => s

/-- `release_psk_ctx` -/
def giveBack (t : TunnelId) : PskState :=
  match s.tunnels t with
  | some ⟨psk, queue, some d⟩ =>
    { s with
      tunnels := update s.tunnels t (some ⟨psk, queue, none⟩)
      outstanding := s.outstanding.erase d
      returned := s.returned ++ [d.id] }.release d.table
  | _ => s

/-- What one of the threads does next. -/
inductive Act where
  /-- A reload builds a table, if the new configuration has keys, and contexts for it. -/
  | prepare (keys : Bool) (contexts : Nat)
  /-- The reload is rejected: contexts and table go, nobody has seen them. -/
  | reject
  /-- The reload goes on to the tunnels; without memory for the snapshot it tells none. -/
  | drain (oom : Bool)
  | tell (queued : Bool)
  /-- The new table takes the place of the old one, which is retired. -/
  | swap
  | newTunnel
  /-- The tunnel's thread has drained its queue and ended, and the tunnel is freed. -/
  | closeTunnel (t : TunnelId)
  | sweep
  | readHolds
  | snapshot (oom : Bool)
  | ask (queued : Bool)
  | asked
  | freeNext
  | swept
  | publish (t : TunnelId)
  | giveBack (t : TunnelId)
  /-- The last reference to a TLS context goes, and then its hold. -/
  | dropContext (p : TableId)
  | releaseContext (p : TableId)

/-- A new table with `contexts` TLS contexts, each of which holds it. -/
def newTable (contexts : Nat) : PskState :=
  { s with
    nextTable := s.nextTable + 1
    holds := update s.holds s.nextTable contexts
    contexts := s.contexts ++ List.replicate contexts s.nextTable }

/-- The table of a rejected reload. -/
def rejectTable : Option TableId → PskState
  | none => s
  | some p =>
    { s with
      contexts := s.contexts.filter (· != p)
      holds := update s.holds p (s.holds p - s.contexts.count p)
      freed := update s.freed p true }

def step : Act → PskState
  | .prepare keys contexts =>
    match s.phase with
    | .idle =>
      if keys then { s.newTable contexts with phase := .prepared (some s.nextTable) }
      else { s with phase := .prepared none }
    | _ => s
  | .reject =>
    match s.phase with
    | .prepared new => { s.rejectTable new with phase := .idle }
    | _ => s
  | .drain oom =>
    match s.phase with
    | .prepared new => { s with phase := .draining new (if oom then [] else s.live) }
    | _ => s
  | .tell queued =>
    match s.phase with
    | .draining new (t :: todo) => { s.dispatch t new queued with phase := .draining new todo }
    | _ => s
  | .swap =>
    match s.phase with
    | .draining new [] =>
      { s with current := new, retired := s.current.toList ++ s.retired, phase := .idle }
    | _ => s
  | .newTunnel =>
    match s.phase with
    | .idle =>
      { s with
        nextTunnel := s.nextTunnel + 1
        tunnels := update s.tunnels s.nextTunnel (some ⟨s.current, [], none⟩) }
    | _ => s
  | .closeTunnel t =>
    match s.phase, s.tunnels t with
    | .idle, some ⟨_, [], none⟩ | .prepared _, some ⟨_, [], none⟩ | .draining _ _, some ⟨_, [], none⟩ =>
      { s with tunnels := update s.tunnels t none }
    | _, _ => s
  | .sweep =>
    match s.phase, s.retired with
    | .idle, _ :: _ => { s with phase := .readingHolds s.retired }
    | _, _ => s
  | .readHolds =>
    match s.phase with
    | .readingHolds (p :: todo) =>
      { s with
        retiredInUse := update s.retiredInUse p (decide (0 < s.holds p))
        phase := .readingHolds todo }
    | _ => s
  | .snapshot oom =>
    match s.phase with
    | .readingHolds [] => { s with phase := if oom then .idle else .askingTunnels s.live }
    | _ => s
  | .ask queued =>
    match s.phase with
    | .askingTunnels (t :: todo) => { s.barrier t queued with phase := .askingTunnels todo }
    | _ => s
  | .asked =>
    match s.phase with
    | .askingTunnels [] => { s with phase := .freeing s.retired }
    | _ => s
  | .freeNext =>
    match s.phase with
    | .freeing (p :: todo) =>
      if s.retiredInUse p then { s with phase := .freeing todo }
      else
        { s with
          retired := s.retired.erase p
          freed := update s.freed p true
          phase := .freeing todo }
    | _ => s
  | .swept =>
    match s.phase with
    | .freeing [] => { s with phase := .idle }
    | _ => s
  | .publish t => s.publish t
  | .giveBack t => s.giveBack t
  | .dropContext p =>
    if p ∈ s.contexts then { s with contexts := s.contexts.erase p, dying := p :: s.dying } else s
  | .releaseContext p =>
    if p ∈ s.dying then { s with dying := s.dying.erase p }.release (some p) else s

/-- `server_new`: the first table, if there are keys, and its contexts. -/
def new (keys : Bool) (contexts : Nat) : PskState :=
  let s : PskState :=
    { current := none, retired := [], holds := fun _ => 0, retiredInUse := fun _ => false, freed := fun _ => false
      nextTable := 0, tunnels := fun _ => none, nextTunnel := 0, contexts := [], dying := [], phase := .idle
      nextDispatch := 0, outstanding := [], returned := [] }
  if keys then { s.newTable contexts with current := some 0 } else s

def run (keys : Bool) (contexts : Nat) (acts : List Act) : PskState := acts.foldl step (new keys contexts)

def Resolves (t : TunnelId) (p : TableId) : Prop :=
  ∃ tun, s.tunnels t = some tun ∧ tun.psk = some p

def Carried (p : TableId) : Prop := ∃ d ∈ s.outstanding, d.table = some p

def Named (p : TableId) : Prop := (∃ t, s.Resolves t p) ∨ s.Carried p ∨ p ∈ s.contexts

/-- Nothing holds the table. -/
def Unheld (p : TableId) : Prop := ¬ s.Carried p ∧ p ∉ s.contexts

def incoming : Option TableId :=
  match s.phase with
  | .prepared new | .draining new _ => new
  | _ => none

structure Booked (s : PskState) : Prop where
  holds : ∀ p, s.holds p
    = s.outstanding.countP (fun d => d.table = some p) + s.contexts.count p + s.dying.count p
  tasks : ∀ t, s.outstanding.filter (fun d => d.tunnel = t)
    = ((s.tunnels t).map fun tun => tun.running.toList ++ tun.queue).getD []
  once : (s.outstanding.map PskDispatch.id ++ s.returned).Nodup
  numbered : ∀ i ∈ s.outstanding.map PskDispatch.id ++ s.returned, i < s.nextDispatch
  tunnels : ∀ t, s.nextTunnel ≤ t → s.tunnels t = none

/-- A place where a table's number can stand. -/
inductive Known (s : PskState) (p : TableId) : Prop where
  | current (h : s.current = some p)
  | incoming (h : s.incoming = some p)
  | retired (h : p ∈ s.retired)
  | freed (h : s.freed p = true)
  | named (h : s.Named p)
  | dying (h : p ∈ s.dying)

/-- Every table is current, coming, retired or freed, and only the last has no user. -/
structure Placed (s : PskState) : Prop where
  below : ∀ p, s.Known p → p < s.nextTable
  nodup : s.retired.Nodup
  current : ∀ p, s.current = some p → p ∉ s.retired ∧ s.freed p = false
  incoming : ∀ p, s.incoming = some p → p ∉ s.retired ∧ s.freed p = false ∧ s.current ≠ some p
  retired : ∀ p ∈ s.retired, s.freed p = false
  named : ∀ p, s.Named p → s.freed p = false

/-- What the sweep knows of the tables it has not found in use: after the first loop that nothing holds
them, and after the second that no tunnel is on them either. Both stay true, since a tunnel can only move to
a table that a dispatch carries, and dispatches only carry tables that are not retired. -/
def Swept : Prop :=
  match s.phase with
  | .idle | .draining _ _ => True
  | .prepared new => ∀ p, new = some p → ¬ s.Carried p ∧ ∀ t, ¬ s.Resolves t p
  | .readingHolds todo => ∀ p ∈ s.retired, p ∉ todo → s.retiredInUse p = false → s.Unheld p
  | .askingTunnels todo => ∀ p ∈ s.retired, s.retiredInUse p = false → s.Unheld p ∧ ∀ t, s.Resolves t p → t ∈ todo
  | .freeing todo => todo.Nodup ∧ ∀ p ∈ todo, p ∈ s.retired
    ∧ (s.retiredInUse p = false → s.Unheld p ∧ ∀ t, ¬ s.Resolves t p)

structure Sound (s : PskState) : Prop where
  booked : s.Booked
  placed : s.Placed
  swept : s.Swept

/-- A step that leaves the tables where they are: dispatches may come in for tables that `brought` allows, and
a tunnel may move to a table that a dispatch carries. -/
structure Uses (brought : TableId → Prop) (s s' : PskState) : Prop where
  current : s'.current = s.current
  retired : s'.retired = s.retired
  freed : s'.freed = s.freed
  inUse : s'.retiredInUse = s.retiredInUse
  nextTable : s'.nextTable = s.nextTable
  phase : s'.phase = s.phase
  resolves : ∀ t p, s'.Resolves t p → s.Resolves t p ∨ s.Carried p
  carried : ∀ p, s'.Carried p → s.Carried p ∨ brought p
  contexts : ∀ p ∈ s'.contexts, p ∈ s.contexts
  dying : ∀ p ∈ s'.dying, p ∈ s.dying ∨ p ∈ s.contexts

variable {brought : TableId → Prop} {s s' : PskState}

theorem Uses.refl (brought : TableId → Prop) (s : PskState) : Uses brought s s :=
  ⟨rfl, rfl, rfl, rfl, rfl, rfl, fun _ _ => .inl, fun _ => .inl, fun _ => id, fun _ => .inl⟩

theorem Uses.unheld (h : Uses brought s s') {p : TableId} (hp : ¬ brought p) (hu : s.Unheld p) : s'.Unheld p :=
  ⟨fun hc => (h.carried p hc).elim hu.1 hp, fun hc => hu.2 (h.contexts p hc)⟩

theorem Uses.named (h : Uses brought s s') {p : TableId} (hn : s'.Named p) : s.Named p ∨ brought p := by
  rcases hn with ⟨t, ht⟩ | hc | hc
  · rcases h.resolves t p ht with hr | hc
    · exact .inl (.inl ⟨t, hr⟩)
    · exact .inl (.inr (.inl hc))
  · exact (h.carried p hc).imp_left fun hc => .inr (.inl hc)
  · exact .inl (.inr (.inr (h.contexts p hc)))

theorem Uses.incoming_eq (h : Uses brought s s') : s'.incoming = s.incoming := by
  rw [PskState.incoming, PskState.incoming, h.phase]

def Offered (s : PskState) (p : TableId) : Prop := p < s.nextTable ∧ p ∉ s.retired ∧ s.freed p = false

theorem Placed.uses (hs : s.Placed) (h : Uses brought s s') (hb : ∀ p, brought p → s.Offered p) : s'.Placed where
  below := by
    rw [h.nextTable]
    intro p hp
    cases hp with
    | current hp => exact hs.below p (.current (h.current ▸ hp))
    | incoming hp => exact hs.below p (.incoming (h.incoming_eq ▸ hp))
    | retired hp => exact hs.below p (.retired (h.retired ▸ hp))
    | freed hp => exact hs.below p (.freed (h.freed ▸ hp))
    | named hp => exact (h.named hp).elim (fun hn => hs.below p (.named hn)) fun hp => (hb p hp).1
    | dying hp => exact (h.dying p hp).elim (fun hd => hs.below p (.dying hd)) fun hc => hs.below p (.named (.inr (.inr hc)))
  nodup := h.retired ▸ hs.nodup
  current := by
    rw [h.current, h.retired, h.freed]
    exact hs.current
  incoming := by
    rw [h.incoming_eq, h.current, h.retired, h.freed]
    exact hs.incoming
  retired := by
    rw [h.retired, h.freed]
    exact hs.retired
  named p hp := by
    rw [h.freed]
    exact (h.named hp).elim (hs.named p) fun hp => (hb p hp).2.2

theorem Swept.uses (hs : s.Swept) (h : Uses brought s s') (hb : ∀ p, brought p → s.Offered p)
    (hprep : ∀ new, s.phase = .prepared new → ∀ p, ¬ brought p) : s'.Swept := by
  have hretired : ∀ p ∈ s.retired, ¬ brought p := fun p hp hbp => (hb p hbp).2.1 hp
  have hresolves : ∀ t p, s.Unheld p → s'.Resolves t p → s.Resolves t p := fun t p hu hr =>
    (h.resolves t p hr).elim id fun hc => absurd hc hu.1
  unfold Swept at hs ⊢
  rw [h.phase]
  cases hph : s.phase with
  | idle => trivial
  | draining new todo => trivial
  | prepared new =>
    rw [hph] at hs
    intro p hp
    obtain ⟨hc, hr⟩ := hs p hp
    refine ⟨fun hc' => (h.carried p hc').elim hc (hprep new hph p), fun t hr' => ?_⟩
    exact (h.resolves t p hr').elim (hr t) hc
  | readingHolds todo =>
    rw [hph] at hs
    simp only [h.retired, h.inUse]
    intro p hp htodo huse
    exact h.unheld (hretired p hp) (hs p hp htodo huse)
  | askingTunnels todo =>
    rw [hph] at hs
    simp only [h.retired, h.inUse]
    intro p hp huse
    obtain ⟨hu, ht⟩ := hs p hp huse
    exact ⟨h.unheld (hretired p hp) hu, fun t hr => ht t (hresolves t p hu hr)⟩
  | freeing todo =>
    rw [hph] at hs
    simp only [h.retired, h.inUse]
    refine ⟨hs.1, fun p hp => ⟨(hs.2 p hp).1, fun huse => ?_⟩⟩
    obtain ⟨hu, ht⟩ := (hs.2 p hp).2 huse
    exact ⟨h.unheld (hretired p (hs.2 p hp).1) hu, fun t hr => ht t (hresolves t p hu hr)⟩

theorem resolves_update {t u : TunnelId} {p : TableId} {tun : Option PskTunnel}
    (htun : s'.tunnels = update s.tunnels t tun) (h : s'.Resolves u p) :
    (u = t ∧ tun.bind (·.psk) = some p) ∨ s.Resolves u p := by
  obtain ⟨r, hr, hp⟩ := h
  rw [htun] at hr
  by_cases hu : u = t
  · rw [hu, update_self] at hr
    exact .inl ⟨hu, by simp [hr, hp]⟩
  · rw [update_of_ne hu] at hr
    exact .inr ⟨r, hr, hp⟩

theorem hold_eq (s : PskState) (table : Option TableId) :
    s.hold table = { s with holds := fun p => s.holds p + if table = some p then 1 else 0 } := by
  cases table with
  | none => simp [hold]
  | some q =>
    rw [hold]
    congr 1
    funext p
    by_cases hp : p = q
    · simp [hp]
    · simp [update_of_ne hp, Ne.symm hp]

theorem release_eq (s : PskState) (table : Option TableId) :
    s.release table = { s with holds := fun p => s.holds p - if table = some p then 1 else 0 } := by
  cases table with
  | none => simp [release]
  | some q =>
    rw [release]
    congr 1
    funext p
    by_cases hp : p = q
    · simp [hp]
    · simp [update_of_ne hp, Ne.symm hp]

theorem dispatch_uses (s : PskState) (t : TunnelId) (table : Option TableId) (queued : Bool) :
    Uses (fun p => table = some p) s (s.dispatch t table queued) := by
  unfold dispatch
  cases htun : s.tunnels t with
  | none => exact .refl _ s
  | some tun =>
    simp only [hold_eq, release_eq]
    cases queued with
    | false => exact { Uses.refl (fun p => table = some p) s with }
    | true =>
      refine { Uses.refl (fun p => table = some p) s with resolves := fun u p hr => .inl ?_, carried := fun p hc => ?_ }
      · rcases resolves_update (s := s) rfl hr with ⟨hu, hp⟩ | hr
        · exact ⟨tun, hu ▸ htun, hp⟩
        · exact hr
      · obtain ⟨d, hd, hp⟩ := hc
        rcases List.mem_append.mp hd with hd | hd
        · exact .inl ⟨d, hd, hp⟩
        · rw [List.mem_singleton.mp hd] at hp
          exact .inr hp

/-- The numbers given out, with one more. -/
theorem numbers_perm {l l' : List Nat} {n : Nat} (hl : l.Nodup) (hlt : ∀ i ∈ l, i < n) (hperm : l'.Perm (n :: l)) :
    l'.Nodup ∧ ∀ i ∈ l', i < n + 1 := by
  refine ⟨hperm.nodup_iff.mpr (List.nodup_cons.mpr ⟨fun h => Nat.lt_irrefl _ (hlt n h), hl⟩), fun i hi => ?_⟩
  rcases List.mem_cons.mp (hperm.mem_iff.mp hi) with hi | hi
  · exact hi ▸ Nat.lt_succ_self _
  · exact Nat.lt_succ_of_lt (hlt i hi)

theorem Booked.dispatch (hs : s.Booked) (t : TunnelId) (table : Option TableId) (queued : Bool) :
    (s.dispatch t table queued).Booked := by
  unfold PskState.dispatch
  cases htun : s.tunnels t with
  | none => exact hs
  | some tun =>
    simp only [hold_eq, release_eq]
    cases queued with
    | false =>
      have hperm : (s.outstanding.map PskDispatch.id ++ (s.returned ++ [s.nextDispatch])).Perm
          (s.nextDispatch :: (s.outstanding.map PskDispatch.id ++ s.returned)) := by
        rw [← List.append_assoc]
        exact List.perm_append_singleton _ _
      obtain ⟨honce, hlt⟩ := numbers_perm hs.once hs.numbered hperm
      refine ⟨fun p => ?_, hs.tasks, honce, hlt, hs.tunnels⟩
      simp only [Bool.false_eq_true, if_false, Nat.add_sub_cancel]
      exact hs.holds p
    | true =>
      let d : PskDispatch := ⟨s.nextDispatch, t, table⟩
      have hperm : ((s.outstanding ++ [d]).map PskDispatch.id ++ s.returned).Perm
          (s.nextDispatch :: (s.outstanding.map PskDispatch.id ++ s.returned)) := by
        rw [List.map_append, List.append_assoc]
        exact List.perm_middle
      obtain ⟨honce, hlt⟩ := numbers_perm hs.once hs.numbered hperm
      refine ⟨fun p => ?_, fun u => ?_, honce, hlt, fun u hu => ?_⟩
      · simp only [if_true, List.countP_append, List.countP_singleton, decide_eq_true_eq]
        rw [hs.holds p]
        omega
      · simp only [if_true, List.filter_append, hs.tasks u]
        by_cases hu : u = t
        · subst hu
          simp [htun]
        · simp [update_of_ne hu, Ne.symm hu]
      · have hne : u ≠ t := fun h => by simp [hs.tunnels t (h ▸ hu)] at htun
        simp only [if_true, update_of_ne hne]
        exact hs.tunnels u hu

/-! ### The tunnels' threads -/

theorem Booked.mem_outstanding (hs : s.Booked) {t : TunnelId} {tun : PskTunnel} {d : PskDispatch}
    (htun : s.tunnels t = some tun) (hd : d ∈ tun.running.toList ++ tun.queue) : d ∈ s.outstanding := by
  have htasks := hs.tasks t
  simp only [htun, Option.map_some, Option.getD_some] at htasks
  exact List.mem_of_mem_filter (htasks ▸ hd)

theorem Booked.update_tunnel (hs : s.Booked) {t : TunnelId} {tun tun' : PskTunnel} (htun : s.tunnels t = some tun)
    (hwork : tun'.running.toList ++ tun'.queue = tun.running.toList ++ tun.queue) :
    { s with tunnels := update s.tunnels t (some tun') }.Booked := by
  refine ⟨hs.holds, fun u => ?_, hs.once, hs.numbered, fun u hu => ?_⟩
  · by_cases h : u = t
    · subst h
      simp [hs.tasks u, htun, hwork]
    · simp [hs.tasks u, update_of_ne h]
  · have hne : u ≠ t := fun h => by simp [hs.tunnels t (h ▸ hu)] at htun
    simp only [update_of_ne hne]
    exact hs.tunnels u hu

theorem publish_uses (hs : s.Booked) (t : TunnelId) : Uses (fun _ => False) s (s.publish t) := by
  unfold publish
  split
  case h_2 => exact .refl _ s
  case h_1 psk d queue htun =>
    refine { Uses.refl (fun _ => False) s with resolves := fun u p hr => ?_ }
    rcases resolves_update (s := s) rfl hr with ⟨-, hp⟩ | hr
    · exact .inr ⟨d, hs.mem_outstanding htun (by simp), hp⟩
    · exact .inl hr

theorem Booked.publish (hs : s.Booked) (t : TunnelId) : (s.publish t).Booked := by
  unfold PskState.publish
  split
  case h_2 => exact hs
  case h_1 psk d queue htun => exact hs.update_tunnel htun rfl

theorem giveBack_uses (s : PskState) (t : TunnelId) : Uses (fun _ => False) s (s.giveBack t) := by
  unfold giveBack
  split
  case h_2 => exact .refl _ s
  case h_1 psk queue d htun =>
    rw [release_eq]
    refine { Uses.refl (fun _ => False) s with resolves := fun u p hr => .inl ?_, carried := fun p hc => .inl ?_ }
    · rcases resolves_update (s := s) rfl hr with ⟨hu, hp⟩ | hr
      · subst hu
        exact ⟨_, htun, hp⟩
      · exact hr
    · obtain ⟨e, he, hp⟩ := hc
      exact ⟨e, List.mem_of_mem_erase he, hp⟩

theorem filter_erase {α : Type*} [DecidableEq α] (l : List α) (q : α → Bool) (a : α) :
    (l.erase a).filter q = (l.filter q).erase a := by
  induction l with
  | nil => rfl
  | cons b l ih =>
    by_cases hb : b = a
    · subst hb
      cases hq : q b with
      | true => simp [hq]
      | false =>
        have hnot : b ∉ l.filter q := fun h => by simp [hq] at h
        simp [hq, List.erase_of_not_mem hnot]
    · cases hq : q b <;> simp [hq, hb, ih]

theorem Booked.giveBack (hs : s.Booked) (t : TunnelId) : (s.giveBack t).Booked := by
  unfold PskState.giveBack
  split
  case h_2 => exact hs
  case h_1 psk queue d htun =>
    have hd : d ∈ s.outstanding := hs.mem_outstanding htun (by simp)
    have htasks := hs.tasks t
    simp only [htun, Option.map_some, Option.getD_some, Option.toList_some, List.singleton_append] at htasks
    have hdt : d.tunnel = t := by
      have : d ∈ s.outstanding.filter (fun d => d.tunnel = t) := htasks ▸ List.mem_cons_self
      simpa using (List.mem_filter.mp this).2
    rw [release_eq]
    -- the hold moves from the dispatches that are out to those that are done
    have hperm : ((s.outstanding.erase d).map PskDispatch.id ++ (s.returned ++ [d.id])).Perm
        (s.outstanding.map PskDispatch.id ++ s.returned) := by
      have h := ((List.perm_cons_erase hd).map PskDispatch.id).append_right s.returned
      rw [← List.append_assoc]
      exact (List.perm_append_singleton _ _).trans h.symm
    refine ⟨fun p => ?_, fun u => ?_, hperm.nodup_iff.mpr hs.once, fun i hi => ?_, fun u hu => ?_⟩
    · have hcount := hs.holds p
      have herase := List.countP_erase (fun d : PskDispatch => decide (d.table = some p)) s.outstanding d
      dsimp only
      rw [herase, hcount]
      by_cases hp : d.table = some p
      · have hpos : 0 < s.outstanding.countP (fun d => d.table = some p) :=
          List.countP_pos_iff.mpr ⟨d, hd, by simpa using hp⟩
        simp only [hd, hp, decide_true, and_self, if_true]
        omega
      · simp [hp]
    · simp only [filter_erase, hs.tasks u]
      by_cases h : u = t
      · subst h
        simp [htun]
      · have hnot : d ∉ s.outstanding.filter (fun d => d.tunnel = u) := fun hm => by
          have := (List.mem_filter.mp hm).2
          exact h (by simpa [hdt, eq_comm] using this)
        rw [hs.tasks u] at hnot
        simp [update_of_ne h, List.erase_of_not_mem hnot]
    · exact hs.numbered i (hperm.mem_iff.mp hi)
    · have hne : u ≠ t := fun h => by simp [hs.tunnels t (h ▸ hu)] at htun
      simp only [update_of_ne hne]
      exact hs.tunnels u hu

section

variable (hs : s.Sound)
include hs

theorem Sound.uses (h : Uses brought s s') (hbooked : s'.Booked) (hb : ∀ p, brought p → s.Offered p)
    (hprep : ∀ new, s.phase = .prepared new → ∀ p, ¬ brought p) : s'.Sound :=
  ⟨hbooked, hs.placed.uses h hb, hs.swept.uses h hb hprep⟩

/-- A step that brings no dispatch. -/
theorem Sound.uses_none (h : Uses (fun _ => False) s s') (hbooked : s'.Booked) : s'.Sound :=
  hs.uses h hbooked (fun _ => False.elim) fun _ _ _ => id

theorem Sound.dropContext (p : TableId) (hp : p ∈ s.contexts) :
    { s with contexts := s.contexts.erase p, dying := p :: s.dying }.Sound := by
  refine hs.uses_none
    { Uses.refl _ s with contexts := fun q hq => List.mem_of_mem_erase hq, dying := fun q hq => ?_ }
    { hs.booked with holds := fun q => ?_ }
  · exact (List.mem_cons.mp hq).elim (fun h => .inr (h ▸ hp)) .inl
  · have hpos : 0 < s.contexts.count p := List.count_pos_iff.mpr hp
    have hcount := hs.booked.holds q
    simp only [List.count_erase, List.count_cons, beq_iff_eq]
    by_cases h : p = q
    · subst h
      simp only [if_true]
      omega
    · simp only [h, if_false]
      exact hcount

theorem Sound.releaseContext (p : TableId) (hp : p ∈ s.dying) :
    ({ s with dying := s.dying.erase p }.release (some p)).Sound := by
  rw [release_eq]
  refine hs.uses_none { Uses.refl _ s with dying := fun q hq => .inl (List.mem_of_mem_erase hq) }
    { hs.booked with holds := fun q => ?_ }
  have hpos : 0 < s.dying.count p := List.count_pos_iff.mpr hp
  have hcount := hs.booked.holds q
  simp only [List.count_erase, beq_iff_eq, Option.some.injEq]
  by_cases h : p = q
  · subst h
    simp only [if_true]
    omega
  · simp only [h, if_false]
    exact hcount

theorem Sound.closeTunnel {t : TunnelId} {psk : Option TableId} (htun : s.tunnels t = some ⟨psk, [], none⟩) :
    { s with tunnels := update s.tunnels t none }.Sound := by
  refine hs.uses_none { Uses.refl _ s with resolves := fun u p hr => .inl ?_ }
    { hs.booked with tasks := fun u => ?_, tunnels := fun u hu => ?_ }
  · rcases resolves_update (s := s) rfl hr with ⟨-, hp⟩ | hr
    · simp at hp
    · exact hr
  · by_cases h : u = t
    · subst h
      simp [hs.booked.tasks u, htun]
    · simp [hs.booked.tasks u, update_of_ne h]
  · by_cases h : u = t
    · simp [h]
    · simp only [update_of_ne h]
      exact hs.booked.tunnels u hu

/-! ### The server's thread -/

/-- The tables stay where they are and the sweep's knowledge is that of the new phase. -/
theorem Sound.setPhase {inUse : TableId → Bool} {phase : PskPhase}
    (hincoming : ∀ p, { s with phase := phase }.incoming = some p → s.incoming = some p)
    (hswept : { s with retiredInUse := inUse, phase := phase }.Swept) :
    { s with retiredInUse := inUse, phase := phase }.Sound where
  booked := { hs.booked with }
  placed :=
    { below := fun p hp => hs.placed.below p <| match hp with
        | .current h => .current h
        | .incoming h => .incoming (hincoming p h)
        | .retired h => .retired h
        | .freed h => .freed h
        | .named h => .named h
        | .dying h => .dying h
      nodup := hs.placed.nodup
      current := hs.placed.current
      incoming := fun p hp => hs.placed.incoming p (hincoming p hp)
      retired := hs.placed.retired
      named := hs.placed.named }
  swept := hswept

theorem Sound.offered_current {p : TableId} (hp : s.current = some p) : s.Offered p :=
  ⟨hs.placed.below p (.current hp), hs.placed.current p hp⟩

theorem Sound.offered_incoming {p : TableId} (hp : s.incoming = some p) : s.Offered p :=
  ⟨hs.placed.below p (.incoming hp), (hs.placed.incoming p hp).1, (hs.placed.incoming p hp).2.1⟩

theorem Sound.tell {new : Option TableId} {t : TunnelId} {todo : List TunnelId} (queued : Bool)
    (hph : s.phase = .draining new (t :: todo)) :
    { s.dispatch t new queued with phase := .draining new todo }.Sound := by
  have huses := dispatch_uses s t new queued
  have hsound : (s.dispatch t new queued).Sound :=
    hs.uses huses (hs.booked.dispatch t new queued)
      (fun p hp => hs.offered_incoming (by rw [incoming, hph]; exact hp)) fun n hn => by simp [hph] at hn
  exact hsound.setPhase (fun p hp => by rw [huses.incoming_eq, incoming, hph]; exact hp) trivial

theorem Sound.fresh : ¬ s.Named s.nextTable ∧ s.nextTable ∉ s.dying := by
  constructor <;> intro h
  · exact Nat.lt_irrefl _ (hs.placed.below _ (.named h))
  · exact Nat.lt_irrefl _ (hs.placed.below _ (.dying h))

theorem Booked.newTable (n : Nat) : (s.newTable n).Booked := by
  obtain ⟨hnamed, hdying⟩ := hs.fresh
  refine { hs.booked with holds := fun p => ?_ }
  simp only [PskState.newTable, List.count_append, List.count_replicate, beq_iff_eq]
  by_cases h : p = s.nextTable
  · subst h
    have hctx : s.nextTable ∉ s.contexts := fun hc => hnamed (.inr (.inr hc))
    have hcarried : s.outstanding.countP (fun d => d.table = some s.nextTable) = 0 := by
      refine List.countP_eq_zero.mpr fun d hd hp => hnamed (.inr (.inl ⟨d, hd, by simpa using hp⟩))
    simp [hcarried, List.count_eq_zero_of_not_mem hctx, List.count_eq_zero_of_not_mem hdying]
  · simp only [update_of_ne h, Ne.symm h, if_false, Nat.add_zero]
    exact hs.booked.holds p

end

theorem named_newTable {n : Nat} {p : TableId} (h : (s.newTable n).Named p) : s.Named p ∨ p = s.nextTable := by
  rcases h with h | h | h
  · exact .inl (.inl h)
  · exact .inl (.inr (.inl h))
  · rcases List.mem_append.mp h with h | h
    · exact .inl (.inr (.inr h))
    · exact .inr (List.eq_of_mem_replicate h)

theorem Sound.prepare (hs : s.Sound) (n : Nat) (hph : s.phase = .idle) :
    { s.newTable n with phase := .prepared (some s.nextTable) }.Sound := by
  have hinc : s.incoming = none := by rw [incoming, hph]
  have hlt : ∀ p, p < s.nextTable → p < s.nextTable + 1 := fun p => Nat.lt_succ_of_lt
  have hfreed : s.freed s.nextTable = false := by
    cases h : s.freed s.nextTable with
    | false => rfl
    | true => exact absurd (hs.placed.below _ (.freed h)) (Nat.lt_irrefl _)
  refine ⟨?_, { hs.placed with below := fun p hp => ?_, incoming := fun p hp => ?_, named := fun p hp => ?_ },
    fun p hp => ?_⟩
  · obtain ⟨h₁, h₂, h₃, h₄, h₅⟩ := Booked.newTable hs n
    exact ⟨h₁, h₂, h₃, h₄, h₅⟩
  · cases hp with
    | current hp => exact hlt p (hs.placed.below p (.current hp))
    | incoming hp =>
      obtain rfl : s.nextTable = p := Option.some.inj hp
      exact Nat.lt_succ_self _
    | retired hp => exact hlt p (hs.placed.below p (.retired hp))
    | freed hp => exact hlt p (hs.placed.below p (.freed hp))
    | named hp =>
      rcases named_newTable (s := s) (n := n) hp with hp | rfl
      · exact hlt p (hs.placed.below p (.named hp))
      · exact Nat.lt_succ_self _
    | dying hp => exact hlt p (hs.placed.below p (.dying hp))
  · obtain rfl : s.nextTable = p := Option.some.inj hp
    refine ⟨fun h => ?_, hfreed, fun h => ?_⟩
    · exact Nat.lt_irrefl _ (hs.placed.below _ (.retired h))
    · exact Nat.lt_irrefl _ (hs.placed.below _ (.current h))
  · rcases named_newTable (s := s) (n := n) hp with hp | hp
    · exact hs.placed.named p hp
    · exact hp ▸ hfreed
  · obtain rfl : s.nextTable = p := Option.some.inj hp
    exact ⟨fun h => hs.fresh.1 (.inr (.inl h)), fun t h => hs.fresh.1 (.inl ⟨t, h⟩)⟩

theorem Sound.reject (hs : s.Sound) {new : Option TableId} (hph : s.phase = .prepared new) :
    { s.rejectTable new with phase := .idle }.Sound := by
  cases new with
  | none => exact hs.setPhase (fun p hp => by simp [incoming] at hp) trivial
  | some q =>
    have hinc : s.incoming = some q := by rw [incoming, hph]
    obtain ⟨hretired, hfreed, hcurrent⟩ := hs.placed.incoming q hinc
    have hswept := hs.swept
    simp only [Swept, hph, Option.some.injEq] at hswept
    obtain ⟨hcarried, hresolves⟩ := hswept q rfl
    have hnamed : ∀ p, { s.rejectTable (some q) with phase := .idle }.Named p → s.Named p ∧ p ≠ q := by
      rintro p (⟨t, ht⟩ | hc | hc)
      · exact ⟨.inl ⟨t, ht⟩, fun h => hresolves t (h ▸ ht)⟩
      · exact ⟨.inr (.inl hc), fun h => hcarried (h ▸ hc)⟩
      · have := List.mem_filter.mp hc
        exact ⟨.inr (.inr this.1), by simpa using this.2⟩
    refine ⟨{ hs.booked with holds := fun p => ?_ },
      ⟨fun p hp => ?_, hs.placed.nodup, fun p hp => ?_, fun p hp => by simp [incoming] at hp, fun p hp => ?_,
        fun p hp => ?_⟩, trivial⟩
    · have hcount := hs.booked.holds p
      by_cases h : p = q
      · subst h
        have hnot : p ∉ s.contexts.filter (· != p) := by simp
        simp only [rejectTable, update_self, List.count_eq_zero_of_not_mem hnot]
        omega
      · have hfilter : (s.contexts.filter (· != q)).count p = s.contexts.count p :=
          List.count_filter (by simpa using h)
        simp only [rejectTable, update_of_ne h, hfilter]
        exact hcount
    · refine hs.placed.below p ?_
      by_cases h : p = q
      · exact .incoming (h ▸ hinc)
      · cases hp with
        | current hp => exact .current hp
        | incoming hp => simp [incoming] at hp
        | retired hp => exact .retired hp
        | freed hp => exact .freed (by simpa [rejectTable, update_of_ne h] using hp)
        | named hp => exact .named (hnamed p hp).1
        | dying hp => exact .dying hp
    · have hne : p ≠ q := fun h => hcurrent (h ▸ hp)
      simp only [rejectTable, update_of_ne hne]
      exact hs.placed.current p hp
    · have hne : p ≠ q := fun h => hretired (h ▸ hp)
      simp only [rejectTable, update_of_ne hne]
      exact hs.placed.retired p hp
    · obtain ⟨hp, hne⟩ := hnamed p hp
      simp only [rejectTable, update_of_ne hne]
      exact hs.placed.named p hp

theorem Sound.swap (hs : s.Sound) {new : Option TableId} (hph : s.phase = .draining new []) :
    { s with current := new, retired := s.current.toList ++ s.retired, phase := .idle }.Sound := by
  have hinc : s.incoming = new := by rw [incoming, hph]
  have hmem : ∀ p, p ∈ s.current.toList ++ s.retired → s.current = some p ∨ p ∈ s.retired := fun p hp => by
    simpa using hp
  refine ⟨{ hs.booked with },
    ⟨fun p hp => hs.placed.below p ?_, ?_, fun p hp => ?_, fun p hp => by simp [incoming] at hp, fun p hp => ?_,
      hs.placed.named⟩, trivial⟩
  · cases hp with
    | current hp => exact .incoming (hinc.trans hp)
    | incoming hp => simp [incoming] at hp
    | retired hp => exact (hmem p hp).elim .current .retired
    | freed hp => exact .freed hp
    | named hp => exact .named hp
    | dying hp => exact .dying hp
  · cases hc : s.current with
    | none => exact hs.placed.nodup
    | some q => exact List.nodup_cons.mpr ⟨(hs.placed.current q hc).1, hs.placed.nodup⟩
  · obtain ⟨hretired, hfreed, hcurrent⟩ := hs.placed.incoming p (hinc.trans hp)
    exact ⟨fun h => (hmem p h).elim hcurrent hretired, hfreed⟩
  · exact (hmem p hp).elim (fun h => (hs.placed.current p h).2) (hs.placed.retired p)

theorem Sound.newTunnel (hs : s.Sound) (hph : s.phase = .idle) :
    { s with
      nextTunnel := s.nextTunnel + 1
      tunnels := update s.tunnels s.nextTunnel (some ⟨s.current, [], none⟩) }.Sound := by
  have hfree : s.tunnels s.nextTunnel = none := hs.booked.tunnels _ (Nat.le_refl _)
  generalize hs' : { s with
    nextTunnel := s.nextTunnel + 1
    tunnels := update s.tunnels s.nextTunnel (some ⟨s.current, [], none⟩) } = s'
  have hnamed : ∀ p, s'.Named p → s.Named p ∨ s.current = some p := by
    subst hs'
    rintro p (⟨t, ht⟩ | hc | hc)
    · rcases resolves_update (s := s) rfl ht with ⟨-, hp⟩ | hr
      · exact .inr hp
      · exact .inl (.inl ⟨t, hr⟩)
    · exact .inl (.inr (.inl hc))
    · exact .inl (.inr (.inr hc))
  subst hs'
  refine ⟨{ hs.booked with tasks := fun u => ?_, tunnels := fun u hu => ?_ },
    { hs.placed with below := fun p hp => hs.placed.below p ?_, named := fun p hp => ?_ }, by simp only [Swept, hph]⟩
  · by_cases h : u = s.nextTunnel
    · subst h
      simp [hs.booked.tasks, hfree]
    · simp [hs.booked.tasks, update_of_ne h]
  · have hne : u ≠ s.nextTunnel := fun h => Nat.not_succ_le_self _ (h ▸ hu)
    simp only [update_of_ne hne]
    exact hs.booked.tunnels u (Nat.le_of_succ_le hu)
  · cases hp with
    | current hp => exact .current hp
    | incoming hp => exact .incoming hp
    | retired hp => exact .retired hp
    | freed hp => exact .freed hp
    | named hp => exact (hnamed p hp).elim .named .current
    | dying hp => exact .dying hp
  · exact (hnamed p hp).elim (hs.placed.named p) fun h => (hs.placed.current p h).2

/-! ### The sweep -/

/-- A table without holds is one that nothing holds. -/
theorem Booked.unheld (hs : s.Booked) {p : TableId} (h : ¬ 0 < s.holds p) : s.Unheld p := by
  have hcount := hs.holds p
  refine ⟨fun ⟨d, hd, hp⟩ => ?_, fun hc => ?_⟩
  · have : 0 < s.outstanding.countP (fun d => d.table = some p) :=
      List.countP_pos_iff.mpr ⟨d, hd, by simpa using hp⟩
    omega
  · have : 0 < s.contexts.count p := List.count_pos_iff.mpr hc
    omega

theorem Sound.readHolds (hs : s.Sound) {p : TableId} {todo : List TableId} (hph : s.phase = .readingHolds (p :: todo)) :
    { s with
      retiredInUse := update s.retiredInUse p (decide (0 < s.holds p))
      phase := .readingHolds todo }.Sound := by
  refine hs.setPhase (fun q hq => by simp [incoming] at hq) fun q hq hnot huse => ?_
  have hswept := hs.swept
  simp only [Swept, hph] at hswept
  by_cases h : q = p
  · subst h
    simp only [update_self, decide_eq_false_iff_not] at huse
    exact hs.booked.unheld huse
  · simp only [update_of_ne h] at huse
    exact hswept q hq (by simp [h, hnot]) huse

theorem Booked.mem_live (hs : s.Booked) {t : TunnelId} {p : TableId} (h : s.Resolves t p) : t ∈ s.live := by
  obtain ⟨tun, htun, -⟩ := h
  refine List.mem_filter.mpr ⟨List.mem_range.mpr (Nat.lt_of_not_le fun hle => ?_), by simp [htun]⟩
  simp [hs.tunnels t hle] at htun

theorem Sound.askTunnels (hs : s.Sound) (hph : s.phase = .readingHolds []) :
    { s with phase := .askingTunnels s.live }.Sound := by
  have hswept := hs.swept
  simp only [Swept, hph] at hswept
  refine hs.setPhase (fun q hq => by simp [incoming] at hq) fun p hp huse => ?_
  exact ⟨hswept p hp List.not_mem_nil huse, fun t ht => hs.booked.mem_live ht⟩

theorem Sound.askTunnel (hs : s.Sound) {t : TunnelId} {todo : List TunnelId} {inUse : TableId → Bool}
    (hph : s.phase = .askingTunnels (t :: todo)) (hmarks : ∀ p, inUse p = false → s.retiredInUse p = false)
    (hasked : ∀ p ∈ s.retired, inUse p = false → ¬ s.Resolves t p) :
    { s with retiredInUse := inUse, phase := .askingTunnels todo }.Sound := by
  have hswept := hs.swept
  simp only [Swept, hph] at hswept
  refine hs.setPhase (fun q hq => by simp [incoming] at hq) fun p hp huse => ?_
  obtain ⟨hu, ht⟩ := hswept p hp (hmarks p huse)
  refine ⟨hu, fun u hr => ?_⟩
  rcases List.mem_cons.mp (ht u hr) with rfl | hmem
  · exact absurd hr (hasked p hp huse)
  · exact hmem

theorem dispatch_setPhase (s : PskState) (t : TunnelId) (table : Option TableId) (queued : Bool) (phase : PskPhase) :
    { s.dispatch t table queued with phase := phase } = { s with phase := phase }.dispatch t table queued := by
  unfold dispatch
  cases s.tunnels t with
  | none => rfl
  | some tun => cases queued <;> simp only [hold_eq, release_eq] <;> rfl

theorem Sound.ask (hs : s.Sound) {t : TunnelId} {todo : List TunnelId} (queued : Bool)
    (hph : s.phase = .askingTunnels (t :: todo)) :
    { s.barrier t queued with phase := .askingTunnels todo }.Sound := by
  unfold barrier
  cases htun : s.tunnels t with
  | none =>
    refine hs.askTunnel hph (fun _ => id) fun p _ _ ⟨tun, h, _⟩ => ?_
    simp [htun] at h
  | some tun =>
    have hpsk : ∀ p, s.Resolves t p → tun.psk = some p := fun p ⟨tun', h, hp⟩ => by
      rwa [Option.some.inj (htun.symm.trans h)]
    dsimp only
    by_cases hcur : tun.psk = s.current
    · rw [if_pos hcur]
      refine hs.askTunnel hph (fun _ => id) fun p hp _ hr => ?_
      exact (hs.placed.current p (hcur ▸ hpsk p hr)).1 hp
    · rw [if_neg hcur, dispatch_setPhase]
      -- marked if it has to be, the tunnel is sent the current table
      have hdispatch : ∀ {s' : PskState}, s'.Sound → s'.current = s.current → s'.phase = .askingTunnels todo →
          (s'.dispatch t s'.current queued).Sound := fun {s'} hs' hc hp' =>
        hs'.uses (dispatch_uses s' t s'.current queued) (hs'.booked.dispatch t s'.current queued)
          (fun p hp => hs'.offered_current hp) fun n hn => by simp [hp'] at hn
      cases hq : tun.psk with
      | none =>
        refine hdispatch (hs.askTunnel hph (fun _ => id) fun p _ _ hr => ?_) rfl rfl
        simp [hq] at hpsk
        exact hpsk p hr
      | some q =>
        have hq' : ∀ p, s.Resolves t p → p = q := fun p hr => by
          have := (hpsk p hr).symm.trans hq
          exact Option.some.inj this
        dsimp only
        by_cases hmem : q ∈ s.retired
        · rw [if_pos hmem]
          refine hdispatch (hs.askTunnel hph (fun p hp => ?_) fun p _ huse hr => ?_) rfl rfl
          · by_cases h : p = q
            · simp [h] at hp
            · simpa only [update_of_ne h] using hp
          · simp [hq' p hr] at huse
        · rw [if_neg hmem]
          exact hdispatch (hs.askTunnel hph (fun _ => id) fun p hp _ hr => hmem (hq' p hr ▸ hp)) rfl rfl

theorem Sound.freeTables (hs : s.Sound) (hph : s.phase = .askingTunnels []) :
    { s with phase := .freeing s.retired }.Sound := by
  have hswept := hs.swept
  simp only [Swept, hph] at hswept
  refine hs.setPhase (fun q hq => by simp [incoming] at hq) ⟨hs.placed.nodup, fun p hp => ⟨hp, fun huse => ?_⟩⟩
  obtain ⟨hu, ht⟩ := hswept p hp huse
  exact ⟨hu, fun t hr => List.not_mem_nil (ht t hr)⟩

theorem Sound.freeNext (hs : s.Sound) {q : TableId} {todo : List TableId} (hph : s.phase = .freeing (q :: todo))
    (huse : s.retiredInUse q = false) :
    { s with
      retired := s.retired.erase q
      freed := update s.freed q true
      phase := .freeing todo }.Sound := by
  have hswept := hs.swept
  simp only [Swept, hph] at hswept
  obtain ⟨hnodup, htodo⟩ := hswept
  obtain ⟨hnot, hnodup⟩ := List.nodup_cons.mp hnodup
  obtain ⟨hq, hclear⟩ := htodo q List.mem_cons_self
  obtain ⟨⟨hcarried, hctx⟩, hresolves⟩ := hclear huse
  have hunnamed : ∀ p, s.Named p → p ≠ q := by
    rintro p (⟨t, ht⟩ | hc | hc) rfl
    · exact hresolves t ht
    · exact hcarried hc
    · exact hctx hc
  have herase : ∀ p ∈ s.retired.erase q, p ≠ q ∧ p ∈ s.retired := fun p hp =>
    (List.Nodup.mem_erase_iff hs.placed.nodup).mp hp
  refine ⟨{ hs.booked with },
    ⟨fun p hp => hs.placed.below p ?_, hs.placed.nodup.erase q, fun p hp => ?_, fun p hp => by simp [incoming] at hp,
      fun p hp => ?_, fun p hp => ?_⟩, hnodup, fun p hp => ?_⟩
  · by_cases h : p = q
    · exact .retired (h ▸ hq)
    · cases hp with
      | current hp => exact .current hp
      | incoming hp => simp [incoming] at hp
      | retired hp => exact .retired (herase p hp).2
      | freed hp => exact .freed (by simpa only [update_of_ne h] using hp)
      | named hp => exact .named hp
      | dying hp => exact .dying hp
  · obtain ⟨hretired, hfreed⟩ := hs.placed.current p hp
    have hne : p ≠ q := fun h => hretired (h ▸ hq)
    exact ⟨fun h => hretired (herase p h).2, by simpa only [update_of_ne hne] using hfreed⟩
  · obtain ⟨hne, hp⟩ := herase p hp
    simp only [update_of_ne hne]
    exact hs.placed.retired p hp
  · simp only [update_of_ne (hunnamed p hp)]
    exact hs.placed.named p hp
  · have hne : p ≠ q := fun h => hnot (h ▸ hp)
    obtain ⟨hretired, hclear⟩ := htodo p (List.mem_cons_of_mem _ hp)
    exact ⟨(List.Nodup.mem_erase_iff hs.placed.nodup).mpr ⟨hne, hretired⟩, hclear⟩

theorem Sound.closeTunnelStep (hs : s.Sound) (t : TunnelId) : (s.step (.closeTunnel t)).Sound := by
  simp only [step]
  split
  · exact hs.closeTunnel ‹_›
  · exact hs.closeTunnel ‹_›
  · exact hs.closeTunnel ‹_›
  · exact hs

theorem Sound.step (hs : s.Sound) (a : Act) : (s.step a).Sound := by
  cases a with
  | closeTunnel t => exact hs.closeTunnelStep t
  | publish t => exact hs.uses_none (publish_uses hs.booked t) (hs.booked.publish t)
  | giveBack t => exact hs.uses_none (giveBack_uses s t) (hs.booked.giveBack t)
  | dropContext p =>
    simp only [PskState.step]
    split
    case isTrue h => exact hs.dropContext p h
    case isFalse => exact hs
  | releaseContext p =>
    simp only [PskState.step]
    split
    case isTrue h => exact hs.releaseContext p h
    case isFalse => exact hs
  | prepare keys contexts =>
    simp only [PskState.step]
    split
    case h_2 => exact hs
    case h_1 hph =>
      cases keys with
      | true => exact hs.prepare contexts hph
      | false => exact hs.setPhase (fun p hp => by simp [incoming] at hp) fun p hp => by simp at hp
  | reject =>
    simp only [PskState.step]
    split
    case h_2 => exact hs
    case h_1 new hph => exact hs.reject hph
  | drain oom =>
    simp only [PskState.step]
    split
    case h_2 => exact hs
    case h_1 new hph => exact hs.setPhase (fun p hp => by rw [incoming, hph]; exact hp) trivial
  | tell queued =>
    simp only [PskState.step]
    split
    case h_2 => exact hs
    case h_1 new t todo hph => exact hs.tell queued hph
  | swap =>
    simp only [PskState.step]
    split
    case h_2 => exact hs
    case h_1 new hph => exact hs.swap hph
  | newTunnel =>
    simp only [PskState.step]
    split
    case h_2 => exact hs
    case h_1 hph => exact hs.newTunnel hph
  | sweep =>
    simp only [PskState.step]
    split
    case h_2 => exact hs
    case h_1 => exact hs.setPhase (fun p hp => by simp [incoming] at hp) fun p hp hnot => absurd hp hnot
  | readHolds =>
    simp only [PskState.step]
    split
    case h_2 => exact hs
    case h_1 p todo hph => exact hs.readHolds hph
  | snapshot oom =>
    simp only [PskState.step]
    split
    case h_2 => exact hs
    case h_1 hph =>
      cases oom with
      | true => exact hs.setPhase (fun p hp => by simp [incoming] at hp) trivial
      | false => exact hs.askTunnels hph
  | ask queued =>
    simp only [PskState.step]
    split
    case h_2 => exact hs
    case h_1 t todo hph => exact hs.ask queued hph
  | asked =>
    simp only [PskState.step]
    split
    case h_2 => exact hs
    case h_1 hph => exact hs.freeTables hph
  | freeNext =>
    simp only [PskState.step]
    split
    case h_2 => exact hs
    case h_1 p todo hph =>
      split
      case isTrue huse =>
        have hswept := hs.swept
        simp only [Swept, hph] at hswept
        exact hs.setPhase (fun p hp => by simp [incoming] at hp)
          ⟨(List.nodup_cons.mp hswept.1).2, fun q hq => hswept.2 q (List.mem_cons_of_mem _ hq)⟩
      case isFalse huse => exact hs.freeNext hph (by simpa using huse)
  | swept =>
    simp only [PskState.step]
    split
    case h_2 => exact hs
    case h_1 hph => exact hs.setPhase (fun p hp => by simp [incoming] at hp) trivial

theorem new_sound (keys : Bool) (contexts : Nat) : (new keys contexts).Sound := by
  have hempty : (new false 0).Sound := by
    refine ⟨⟨fun p => rfl, fun t => rfl, List.nodup_nil, fun i hi => absurd hi List.not_mem_nil, fun t _ => rfl⟩,
      ⟨fun p hp => ?_, List.nodup_nil, fun p hp => by simp [new] at hp, fun p hp => by simp [new, incoming] at hp,
        fun p hp => absurd hp List.not_mem_nil, fun p hp => rfl⟩, trivial⟩
    rcases hp with hp | hp | hp | hp | (⟨t, tun, htun, -⟩ | ⟨d, hd, -⟩ | hp) | hp
    · simp [new] at hp
    · simp [new, incoming] at hp
    · simp [new] at hp
    · simp [new] at hp
    · simp [new] at htun
    · simp [new] at hd
    · simp [new] at hp
    · simp [new] at hp
  cases keys with
  | false => exact hempty
  | true =>
    -- the first table is put in place as by a reload that reaches no tunnel
    have h : { (new false 0).newTable contexts with phase := .draining (some 0) [] }.Sound :=
      (hempty.prepare contexts rfl).setPhase (fun p hp => hp) trivial
    exact h.swap rfl

theorem run_sound (keys : Bool) (contexts : Nat) (acts : List Act) : (run keys contexts acts).Sound :=
  List.foldlRecOn acts step (new_sound keys contexts) fun _ hs a _ => hs.step a

/-- A table is only freed once no live tunnel resolves labels through it, no reload or repoint carries it
and no TLS context made for it is alive, and it never gets a user again. The hold of a dispatch is given
back once, and the count of a table is that of its holds that are out. -/
theorem freed_unused (keys : Bool) (contexts : Nat) (acts : List Act) :
    (∀ p, (run keys contexts acts).freed p = true →
      (∀ t tun, (run keys contexts acts).tunnels t = some tun →
        tun.psk ≠ some p ∧ ∀ d ∈ tun.running.toList ++ tun.queue, d.table ≠ some p)
      ∧ p ∉ (run keys contexts acts).contexts)
    ∧ ((run keys contexts acts).outstanding.map PskDispatch.id ++ (run keys contexts acts).returned).Nodup
    ∧ ∀ p, (run keys contexts acts).holds p
      = (run keys contexts acts).outstanding.countP (fun d => d.table = some p)
        + (run keys contexts acts).contexts.count p + (run keys contexts acts).dying.count p := by
  have hs := run_sound keys contexts acts
  generalize run keys contexts acts = s at hs
  refine ⟨fun p hp => ?_, hs.booked.once, hs.booked.holds⟩
  have hunnamed : ¬ s.Named p := fun h => by simp [hs.placed.named p h] at hp
  refine ⟨fun t tun htun => ⟨fun hpsk => ?_, fun d hd hpsk => ?_⟩, fun hc => hunnamed (.inr (.inr hc))⟩
  · exact hunnamed (.inl ⟨t, tun, htun, hpsk⟩)
  · exact hunnamed (.inr (.inl ⟨d, hs.booked.mem_outstanding htun hd, hpsk⟩))

/-- A reload whose dispatch a tunnel runs in the middle of the sweep: the table goes in the next one. -/
example : ((run true 0 [.newTunnel, .prepare true 0, .drain false, .tell true, .swap, .sweep, .readHolds,
    .snapshot false, .ask false, .publish 0, .giveBack 0, .asked, .freeNext, .swept]).freed 0,
    (run true 0 [.newTunnel, .prepare true 0, .drain false, .tell true, .swap, .sweep, .readHolds,
      .snapshot false, .ask false, .publish 0, .giveBack 0, .asked, .freeNext, .swept, .sweep, .readHolds,
      .snapshot false, .ask false, .asked, .freeNext]).freed 0) = (false, true) := by
  decide

end PskState

end Multiplexd
