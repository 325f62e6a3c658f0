import Mathlib.Algebra.BigOperators.Group.List.Basic
import Mathlib.Data.List.Dedup
import Mathlib.Data.List.Nodup
import Mathlib.Data.List.Pairwise
import Mathlib.Data.UInt
import Multiplexd.Lib.Run
import Multiplexd.Server.Selection

/-!
# The statistics of a server

`server_stats` takes one row for each tunnel it finds and sums them on top of what closed tunnels have
left behind. It walks four registries that overlap: a pooled tunnel is also the dialed tunnel, or in a
staging slot, or accepted. A tunnel publishes the identity of its peer on its own thread; the pool
follows when the server takes the relayed event from its queue. Counters and totals have 64 bits and wrap.
-/

namespace Multiplexd

open Server (clearSlot)

/-- The totals that only grow. -/
inductive Counter where
  | numStreamOpened
  | numStreamAccepted
  | numStreamFastopen
  | numStreamEstablished
  | numStreamSucceeded
  | numStreamFailed
  | numReconnects
  | numRstSent
  | numRstRecv
  | numStreamErrors
  | numStreamEstablishSamples
  | bytMuxRecv
  | bytMuxSent
  | bytPushRecv
  | bytPushSent
  | pktDgramSent
  | pktDgramRecv
  | pktDgramDropped
  | bytDgramSent
  | bytDgramRecv
deriving Repr, DecidableEq

abbrev Counters := Counter → UInt64

inductive Relayed where
  /-- MUX_EVENT_ESTABLISHED or MUX_EVENT_RESUMED -/
  | connected
  | closed
deriving Repr, DecidableEq

/-- One entry of `tunnels[]`. -/
structure TunnelRow where
  tunnel : TunnelId
  peerIdentity : Option String
  numTunnels : Nat
deriving Repr, DecidableEq

structure StatsServer where
  muxTunnel : Option TunnelId
  identityTunnels : List (Option TunnelId)
  /-- `accepted_tunnels`, in the order of its slots; session ids are taken to be distinct. -/
  accepted : List TunnelId
  identities : List (String × IdentityListener)
  closed : Counters
  numDgramUnrouted : UInt64
  /-- What the tunnels publish: `pub.peer_identity` and their counters. -/
  peerIdentity : TunnelId → Option String
  counters : TunnelId → Counters
  queue : List (TunnelId × Relayed)
  /-- The tunnels in `tunnel_close_final`, the innermost call first: its flush runs the queue. -/
  closing : List TunnelId
  /-- History: the final counters of the closed tunnels. -/
  finals : List Counters
  next : TunnelId

namespace StatsServer

variable (s : StatsServer)

/-- What becomes of one pool when a tunnel moves to the pool `keep`: `identity_pools_remove_except`, and
`identity_listener_add` unless it is there. -/
def repool (keep : Option String) (t : TunnelId) (e : String × IdentityListener) : String × IdentityListener :=
  if some e.1 = keep then (e.1, if e.2.contains t then e.2 else (e.2.add t true).2)
  else (e.1, (e.2.remove t).2)

def listenerOf (t : TunnelId) : Option String :=
  (s.peerIdentity t).filter fun id => (s.identities.lookup id).isSome

def updateIdentityPool (t : TunnelId) : StatsServer :=
  { s with identities := s.identities.map (repool (s.listenerOf t) t) }

/-- `server_remove_and_close_tunnel`, up to the join. An accepted tunnel is in its table from the
beginning. -/
def removeTunnel (t : TunnelId) : StatsServer :=
  let s : StatsServer :=
    if s.accepted.contains t then { s with accepted := s.accepted.erase t }
    else if s.muxTunnel = some t then { s with muxTunnel := none }
    else s
  { s with
    identities := s.identities.map (repool none t)
    identityTunnels := clearSlot t s.identityTunnels
    closing := t :: s.closing }

/-- The end of `server_close_and_fold`; `extra` is what the teardown has still counted. -/
def fold (extra : Counters) : StatsServer :=
  match s.closing with
  | [] => s
  | t :: rest =>
    let fin : Counters := fun c => s.counters t c + extra c
    { s with closing := rest, closed := fun c => s.closed c + fin c, finals := s.finals ++ [fin] }

/-- The tunnels that are registered. -/
def live : List TunnelId :=
  s.muxTunnel.toList ++ (s.identityTunnels.reduceOption ++ s.accepted)

def tick : StatsServer :=
  match s.queue with
  | [] => s
  | (t, event) :: rest =>
    let s : StatsServer := { s with queue := rest }
    if t ∈ s.live then
      match event with
      | .connected => s.updateIdentityPool t
      | .closed => s.removeTunnel t
    else s

def tunnelIsPooled (t : TunnelId) : Bool :=
  match s.peerIdentity t with
  | none => false
  | some id =>
    match s.identities.lookup id with
    | none => false
    | some sl => sl.contains t

/-- A tunnel that no pool stands for. -/
def singleRow (t : TunnelId) : TunnelRow := { tunnel := t, peerIdentity := none, numTunnels := 1 }

def poolRows (e : String × IdentityListener) : List TunnelRow :=
  (e.2.tunnels.filter fun t => some t ≠ s.muxTunnel).map fun t =>
    { tunnel := t, peerIdentity := some e.1, numTunnels := e.2.tunnels.length }

/-- `out->tunnels` of `server_stats` -/
def rows : List TunnelRow :=
  s.muxTunnel.toList.map singleRow ++ s.identities.flatMap s.poolRows ++
    (s.identityTunnels.reduceOption.filter fun t => !s.tunnelIsPooled t).map singleRow ++
    (s.accepted.filter fun t => !s.tunnelIsPooled t).map singleRow

/-- The space that `server_stats` allocates for rows. -/
def rowCap : Nat :=
  (if s.muxTunnel.isSome then 1 else 0) + s.identityTunnels.length +
    (s.identities.map fun e => e.2.tunnels.length).sum + s.accepted.length

/-- The totals of `server_stats`. -/
def total (c : Counter) : UInt64 :=
  s.closed c + (if c = .pktDgramDropped then s.numDgramUnrouted else 0) +
    (s.rows.map fun row => s.counters row.tunnel c).sum

inductive StatsEvent where
  | accept
  | dialMux
  | dialIdentity (i : Nat)
  /-- a tunnel that is there, or being closed, counts something -/
  | count (t : TunnelId) (delta : Counters)
  /-- `tunnel_publish_pub` of a tunnel that has connected -/
  | publish (t : TunnelId) (peerIdentity : Option String)
  /-- a tunnel hands an event to the dispatcher -/
  | relay (t : TunnelId) (event : Relayed)
  /-- the server takes one task -/
  | tick
  | joined (extra : Counters)
  /-- a datagram that no tunnel takes -/
  | unrouted

def step : StatsEvent → StatsServer
  | .accept => { s with accepted := s.accepted ++ [s.next], next := s.next + 1 }
  | .dialMux => if s.muxTunnel = none then { s with muxTunnel := some s.next, next := s.next + 1 } else s
  | .dialIdentity i =>
    if s.identityTunnels[i]? = some none then
      { s with identityTunnels := s.identityTunnels.set i (some s.next), next := s.next + 1 }
    else s
  | .count t delta =>
    if t ∈ s.live ++ s.closing then { s with counters := fun t' c => s.counters t' c + if t' = t then delta c else 0 }
    else s
  | .publish t peerIdentity => { s with peerIdentity := fun t' => if t' = t then peerIdentity else s.peerIdentity t' }
  | .relay t event => { s with queue := s.queue ++ [(t, event)] }
  | .tick => s.tick
  | .joined extra => s.fold extra
  | .unrouted => { s with numDgramUnrouted := s.numDgramUnrouted + 1 }

def run (es : List StatsEvent) : StatsServer := runFrom step s es

def new (identities : List String) (numIdentityTunnels : Nat) : StatsServer where
  muxTunnel := none
  identityTunnels := List.replicate numIdentityTunnels none
  accepted := []
  identities := identities.dedup.map fun id => (id, {})
  closed := fun _ => 0
  numDgramUnrouted := 0
  peerIdentity := fun _ => none
  counters := fun _ _ => 0
  queue := []
  closing := []
  finals := []
  next := 0

end StatsServer

namespace IdentityListener

theorem remove_perm (sl : IdentityListener) (t : TunnelId) : (sl.remove t).2.tunnels.Perm (sl.tunnels.erase t) := by
  rw [List.erase_eq_eraseIdx]
  unfold remove
  cases hidx : sl.tunnels.idxOf? t with
  | none => exact .refl _
  | some i =>
    obtain ⟨hi, -, -⟩ := List.idxOf?_eq_some_iff.1 hidx
    have hend : sl.tunnels.getLastD t = sl.tunnels[sl.tunnels.length - 1] := by
      rw [List.getLastD_eq_getLast?, List.getLast?_eq_getElem?, List.getElem?_eq_getElem (by omega)]
      rfl
    have hne : sl.tunnels.set i (sl.tunnels.getLastD t) ≠ [] := by
      rw [Ne, List.set_eq_nil_iff]
      exact List.ne_nil_of_length_pos (Nat.zero_lt_of_lt hi)
    have hlast : (sl.tunnels.set i (sl.tunnels.getLastD t)).getLast hne = sl.tunnels.getLastD t := by
      rw [List.getLast_eq_getElem]
      simp only [List.length_set, List.getElem_set]
      split
      · rfl
      · exact hend.symm
    have hperm := List.set_perm_cons_eraseIdx hi (sl.tunnels.getLastD t)
    rw [← List.dropLast_append_getLast hne, hlast] at hperm
    exact (List.perm_cons _).1 ((List.perm_append_singleton _ _).symm.trans hperm)

end IdentityListener

namespace StatsServer

theorem repool_key (keep : Option String) (t : TunnelId) (e : String × IdentityListener) :
    (repool keep t e).1 = e.1 := by
  unfold repool
  split <;> rfl

variable {keep : Option String} {t : TunnelId} {e : String × IdentityListener} {s' : StatsServer}

theorem repool_nodup (h : e.2.tunnels.Nodup) : (repool keep t e).2.tunnels.Nodup := by
  unfold repool
  split_ifs with hkeep hmem
  · exact h
  · refine List.nodup_append.2 ⟨h, List.nodup_singleton t, fun a ha b hb hab => hmem ?_⟩
    rw [List.mem_singleton.1 hb] at hab
    simpa [IdentityListener.contains, ← hab] using ha
  · exact (e.2.remove_perm t).nodup_iff.2 (h.erase t)

theorem mem_repool {u : TunnelId} (h : e.2.tunnels.Nodup) :
    u ∈ (repool keep t e).2.tunnels ↔ u ∈ e.2.tunnels ∧ u ≠ t ∨ u = t ∧ some e.1 = keep := by
  unfold repool
  split_ifs with hkeep hmem
  · have ht : t ∈ e.2.tunnels := by simpa [IdentityListener.contains] using hmem
    by_cases hu : u = t
    · simp [hu, ht, hkeep]
    · simp [hu]
  · by_cases hu : u = t
    · simp [IdentityListener.add, hu, hkeep]
    · simp [IdentityListener.add, hu]
  · rw [(e.2.remove_perm t).mem_iff, h.mem_erase_iff]
    simp [hkeep, and_comm]

/-- The tunnels in the pools. -/
def pooled (s : StatsServer) : List TunnelId := s.identities.flatMap fun e => e.2.tunnels

section Pools

variable {ids : List (String × IdentityListener)} (keep : Option String) (t : TunnelId)

theorem mem_repool_pools (hpool : ∀ e ∈ ids, e.2.tunnels.Nodup) {u : TunnelId}
    (hu : u ∈ (ids.map (repool keep t)).flatMap fun e => e.2.tunnels) :
    u ∈ (ids.flatMap fun e => e.2.tunnels) ∧ u ≠ t ∨ u = t ∧ keep ≠ none := by
  obtain ⟨_, hmap, hmem⟩ := List.mem_flatMap.1 hu
  obtain ⟨e, he, rfl⟩ := List.mem_map.1 hmap
  rcases (mem_repool (hpool e he)).1 hmem with ⟨hold, hne⟩ | ⟨heq, hkeep⟩
  · exact .inl ⟨List.mem_flatMap.2 ⟨e, he, hold⟩, hne⟩
  · exact .inr ⟨heq, hkeep ▸ Option.some_ne_none _⟩

theorem repool_pools_nodup (hkeys : (ids.map Prod.fst).Nodup)
    (hpool : (ids.flatMap fun e => e.2.tunnels).Nodup) :
    ((ids.map (repool keep t)).flatMap fun e => e.2.tunnels).Nodup := by
  rw [List.nodup_flatMap] at hpool ⊢
  refine ⟨fun e' hmap => ?_, ?_⟩
  · obtain ⟨e, he, rfl⟩ := List.mem_map.1 hmap
    exact repool_nodup (hpool.1 e he)
  · rw [List.pairwise_map]
    rw [List.Nodup, List.pairwise_map] at hkeys
    refine (hkeys.and hpool.2).imp_of_mem fun {a b} ha hb h u hua hub => ?_
    rcases (mem_repool (hpool.1 a ha)).1 hua with ⟨hua, hne⟩ | ⟨heq, hkeep⟩
    · rcases (mem_repool (hpool.1 b hb)).1 hub with ⟨hub, -⟩ | ⟨heq, -⟩
      · exact h.2 hua hub
      · exact hne heq
    · rcases (mem_repool (hpool.1 b hb)).1 hub with ⟨-, hne⟩ | ⟨-, hkeep'⟩
      · exact hne heq
      · exact h.1 (Option.some.inj (hkeep.trans hkeep'.symm))

theorem repool_keys : (ids.map (repool keep t)).map Prod.fst = ids.map Prod.fst := by
  rw [List.map_map]
  exact List.map_congr_left fun e _ => repool_key keep t e

end Pools

/-! ### Registration -/

theorem reduceOption_clearSlot (t : TunnelId) (slots : List (Option TunnelId)) :
    (clearSlot t slots).reduceOption = slots.reduceOption.erase t := by
  induction slots with
  | nil => rfl
  | cons p ps ih =>
    rw [clearSlot]
    cases p with
    | none => simpa using ih
    | some u =>
      by_cases hu : u = t
      · simp [hu]
      · simpa [hu] using ih

/-- A tunnel that is closed leaves the one registry it is in. -/
theorem live_perm_removeTunnel {s : StatsServer} (hnodup : s.live.Nodup) (ht : t ∈ s.live) :
    s.live.Perm (t :: (s.removeTunnel t).live) := by
  rw [live, List.nodup_append, List.nodup_append] at hnodup
  obtain ⟨-, ⟨-, -, hslots⟩, hmux⟩ := hnodup
  unfold removeTunnel
  dsimp only
  split_ifs with hacc hdialed
  · have hmem : t ∈ s.accepted := by simpa using hacc
    have hfree : t ∉ s.identityTunnels.reduceOption := fun h => hslots t h t hmem rfl
    simp only [live, reduceOption_clearSlot, List.erase_of_not_mem hfree]
    refine (List.Perm.append_left _ (List.Perm.append_left _ (List.perm_cons_erase hmem))).trans ?_
    exact (List.Perm.append_left _ List.perm_middle).trans List.perm_middle
  · have hfree : t ∉ s.identityTunnels.reduceOption := by
      intro h
      exact hmux t (by simp [hdialed]) t (List.mem_append_left _ h) rfl
    simp only [live, reduceOption_clearSlot, List.erase_of_not_mem hfree, hdialed]
    exact .refl _
  · have hmem : t ∈ s.identityTunnels.reduceOption := by
      simp only [live, List.mem_append, Option.mem_toList] at ht
      rcases ht with ht | ht | ht
      · exact absurd ht hdialed
      · exact ht
      · exact absurd (by simpa using ht) hacc
    simp only [live, reduceOption_clearSlot]
    refine (List.Perm.append_left _ ((List.perm_cons_erase hmem).append_right _)).trans ?_
    exact List.perm_middle

/-- Every tunnel is registered once, and pooled at most once and only while it is registered. -/
structure Registered (s : StatsServer) : Prop where
  keys : (s.identities.map Prod.fst).Nodup
  once : (s.live ++ s.closing).Nodup
  pool : s.pooled.Nodup
  known : ∀ t ∈ s.pooled, t ∈ s.live
  fresh : ∀ t ∈ s.live ++ s.closing, t < s.next
  idle : ∀ t c, s.next ≤ t → s.counters t c = 0
  folded : ∀ c, s.closed c = (s.finals.map fun fin => fin c).sum

/-- What has been counted so far: by closed tunnels, by the others, and of datagrams that no tunnel took. -/
def ledger (s : StatsServer) (c : Counter) : UInt64 :=
  s.closed c + (if c = .pktDgramDropped then s.numDgramUnrouted else 0) +
    ((s.live ++ s.closing).map fun t => s.counters t c).sum

/-- What a step keeps, and what it adds to the ledger. -/
structure Accounts (s s' : StatsServer) (gain : Counters) : Prop where
  registered : s'.Registered
  ledger : ∀ c, s'.ledger c = s.ledger c + gain c

variable {s : StatsServer}

theorem Registered.pools_nodup (h : s.Registered) : ∀ e ∈ s.identities, e.2.tunnels.Nodup :=
  (List.nodup_flatMap.1 h.pool).1

theorem Registered.accounts (h : s.Registered) : s.Accounts s fun _ => 0 := ⟨h, fun _ => (add_zero _).symm⟩

theorem Registered.updateIdentityPool (h : s.Registered) (ht : t ∈ s.live) :
    s.Accounts (s.updateIdentityPool t) fun _ => 0 := by
  refine ⟨{ h with keys := ?_, pool := repool_pools_nodup _ t h.keys h.pool, known := fun u hu => ?_ },
    fun _ => (add_zero _).symm⟩
  · rw [StatsServer.updateIdentityPool, repool_keys]
    exact h.keys
  · rcases mem_repool_pools _ t h.pools_nodup hu with ⟨hold, -⟩ | ⟨rfl, -⟩
    · exact h.known u hold
    · exact ht

theorem removeTunnel_eq (s : StatsServer) (t : TunnelId) : ∃ muxTunnel accepted,
    s.removeTunnel t =
      { s with
        muxTunnel := muxTunnel, accepted := accepted, identities := s.identities.map (repool none t)
        identityTunnels := clearSlot t s.identityTunnels, closing := t :: s.closing } := by
  unfold removeTunnel
  dsimp only
  split_ifs
  · exact ⟨_, _, rfl⟩
  · exact ⟨_, _, rfl⟩
  · exact ⟨_, _, rfl⟩

theorem Registered.removeTunnel (h : s.Registered) (ht : t ∈ s.live) : s.Accounts (s.removeTunnel t) fun _ => 0 := by
  have hlive := live_perm_removeTunnel (List.nodup_append.1 h.once).1 ht
  obtain ⟨muxTunnel, accepted, heq⟩ := s.removeTunnel_eq t
  rw [heq] at hlive ⊢
  have hall := (hlive.append_right s.closing).trans List.perm_middle.symm
  refine ⟨{ h with
    keys := ?_, once := hall.nodup_iff.1 h.once, pool := repool_pools_nodup none t h.keys h.pool
    known := fun u hu => ?_, fresh := fun u hu => h.fresh u (hall.mem_iff.2 hu) }, fun c => ?_⟩
  · rw [repool_keys]
    exact h.keys
  · rcases mem_repool_pools none t h.pools_nodup hu with ⟨hold, hne⟩ | ⟨-, hnone⟩
    · exact (List.mem_cons.1 (hlive.mem_iff.1 (h.known u hold))).resolve_left hne
    · exact absurd rfl hnone
  · rw [ledger, ledger, ← (hall.map _).sum_eq, add_zero]

theorem Registered.fold (h : s.Registered) (extra : Counters) :
    s.Accounts (s.fold extra) fun c => if s.closing = [] then 0 else extra c := by
  unfold StatsServer.fold
  split
  · rename_i hclosing
    simp only [hclosing, if_true]
    exact h.accounts
  · rename_i t rest hclosing
    have hall : (s.live ++ s.closing).Perm (t :: (s.live ++ rest)) := by
      rw [hclosing]
      exact List.perm_middle
    refine ⟨{ h with
      once := (List.nodup_cons.1 (hall.nodup_iff.1 h.once)).2
      fresh := fun u hu => h.fresh u (hall.mem_iff.2 (List.mem_cons_of_mem _ hu))
      folded := fun c => by simp [h.folded c] }, fun c => ?_⟩
    have hsum := (hall.map fun u => s.counters u c).sum_eq
    rw [List.map_cons, List.sum_cons] at hsum
    have hlive : ∀ closed finals, live { s with closing := rest, closed := closed, finals := finals } = s.live :=
      fun _ _ => rfl
    rw [if_neg (by rw [hclosing]; exact List.cons_ne_nil t rest)]
    simp only [ledger, hlive, hsum]
    ac_rfl

structure Adds (s s' : StatsServer) : Prop where
  live : s'.live.Perm (s.next :: s.live)
  same : s' =
    { s with
      muxTunnel := s'.muxTunnel, identityTunnels := s'.identityTunnels, accepted := s'.accepted
      next := s.next + 1 }

theorem Adds.accounts (hadds : s.Adds s') (h : s.Registered) : s.Accounts s' fun _ => 0 := by
  obtain ⟨hlive, heq⟩ := hadds
  generalize s'.muxTunnel = muxTunnel, s'.identityTunnels = identityTunnels, s'.accepted = accepted at heq
  subst heq
  have hall := hlive.append_right s.closing
  refine ⟨{ h with
    once := hall.nodup_iff.2 (List.nodup_cons.2 ⟨fun hmem => Nat.lt_irrefl _ (h.fresh _ hmem), h.once⟩)
    known := fun u hu => hlive.mem_iff.2 (List.mem_cons_of_mem _ (h.known u hu))
    fresh := fun u hu => ?_
    idle := fun u c hu => h.idle u c (Nat.le_of_succ_le hu) }, fun c => ?_⟩
  · rcases List.mem_cons.1 (hall.mem_iff.1 hu) with rfl | hu
    · exact Nat.lt_succ_self _
    · exact Nat.lt_succ_of_lt (h.fresh u hu)
  · have hsum := (hall.map fun u => s.counters u c).sum_eq
    rw [List.cons_append, List.map_cons, List.sum_cons, h.idle _ c (Nat.le_refl _), zero_add] at hsum
    rw [add_zero]
    exact congrArg _ hsum

theorem sum_map_counted {l : List TunnelId} (hnodup : l.Nodup) (ht : t ∈ l) (f : TunnelId → UInt64) (n : UInt64) :
    (l.map fun u => f u + if u = t then n else 0).sum = (l.map f).sum + n := by
  have hperm := List.perm_cons_erase ht
  have hrest : (l.erase t).map (fun u => f u + if u = t then n else 0) = (l.erase t).map f := by
    refine List.map_congr_left fun u hu => ?_
    rw [if_neg (hnodup.mem_erase_iff.1 hu).1, add_zero]
  rw [(hperm.map _).sum_eq, (hperm.map f).sum_eq, List.map_cons, List.map_cons, List.sum_cons, List.sum_cons, hrest,
    if_pos rfl, add_right_comm]

theorem Registered.count (h : s.Registered) (ht : t ∈ s.live ++ s.closing) (delta : Counters) :
    s.Accounts { s with counters := fun t' c => s.counters t' c + if t' = t then delta c else 0 } delta := by
  refine ⟨{ h with idle := fun u c hu => ?_ }, fun c => ?_⟩
  · have hne : u ≠ t := Nat.ne_of_gt (Nat.lt_of_lt_of_le (h.fresh t ht) hu)
    show s.counters u c + _ = 0
    rw [h.idle u c hu, if_neg hne, add_zero]
  · have hsum := sum_map_counted h.once ht (fun u => s.counters u c) (delta c)
    rw [ledger, ledger, add_assoc _ _ (delta c), ← hsum]
    rfl

theorem reduceOption_set {slots : List (Option TunnelId)} {i : Nat} (hi : slots[i]? = some none) (t : TunnelId) :
    (slots.set i (some t)).reduceOption.Perm (t :: slots.reduceOption) := by
  induction slots generalizing i with
  | nil => simp at hi
  | cons p ps ih =>
    cases i with
    | zero =>
      obtain rfl : p = none := by simpa using hi
      simp
    | succ i =>
      have hperm := ih (i := i) (by simpa using hi)
      cases p with
      | none => simpa using hperm
      | some u =>
        simp only [List.set_cons_succ, List.reduceOption_cons_of_some]
        exact (hperm.cons u).trans (.swap t u _)

theorem accept_adds (s : StatsServer) : s.Adds (s.step .accept) where
  live := by
    simp only [step, StatsServer.live, ← List.append_assoc]
    exact List.perm_append_singleton _ _
  same := rfl

theorem dialMux_adds (hnone : s.muxTunnel = none) : s.Adds (s.step .dialMux) := by
  rw [step, if_pos hnone]
  refine ⟨?_, rfl⟩
  simp only [live, hnone]
  exact .refl _

theorem dialIdentity_adds {i : Nat} (hslot : s.identityTunnels[i]? = some none) :
    s.Adds (s.step (.dialIdentity i)) := by
  rw [step, if_pos hslot]
  refine ⟨?_, rfl⟩
  refine (List.Perm.append_left _ ((reduceOption_set hslot s.next).append_right _)).trans ?_
  exact List.perm_middle

/-- What an event adds to the ledger. -/
def gain (s : StatsServer) (c : Counter) : StatsEvent → UInt64
  | .count t delta => if t ∈ s.live ++ s.closing then delta c else 0
  | .joined extra => if s.closing = [] then 0 else extra c
  | .unrouted => if c = .pktDgramDropped then 1 else 0
  | _ => 0

theorem step_accounts (h : s.Registered) (e : StatsEvent) : s.Accounts (s.step e) (s.gain · e) := by
  cases e with
  | accept => exact s.accept_adds.accounts h
  | dialMux =>
    by_cases hnone : s.muxTunnel = none
    · exact (dialMux_adds hnone).accounts h
    · rw [step, if_neg hnone]
      exact h.accounts
  | dialIdentity i =>
    by_cases hslot : s.identityTunnels[i]? = some none
    · exact (dialIdentity_adds hslot).accounts h
    · rw [step, if_neg hslot]
      exact h.accounts
  | count t delta =>
    by_cases ht : t ∈ s.live ++ s.closing
    · simp only [step, gain, if_pos ht]
      exact h.count ht delta
    · simp only [step, gain, if_neg ht]
      exact h.accounts
  | publish | relay => exact ⟨{ h with }, fun _ => (add_zero _).symm⟩
  | tick =>
    simp only [step, tick]
    split
    · exact h.accounts
    · rename_i t event rest hqueue
      have h' : ({ s with queue := rest } : StatsServer).Registered := { h with }
      split_ifs with ht
      · cases event with
        | connected => exact ⟨(h'.updateIdentityPool ht).registered, (h'.updateIdentityPool ht).ledger⟩
        | closed => exact ⟨(h'.removeTunnel ht).registered, (h'.removeTunnel ht).ledger⟩
      · exact ⟨h', h'.accounts.ledger⟩
  | joined extra => exact h.fold extra
  | unrouted =>
    refine ⟨{ h with }, fun c => ?_⟩
    by_cases hc : c = .pktDgramDropped
    · simp only [step, ledger, gain, if_pos hc]
      rw [← add_assoc, add_right_comm _ 1]
      rfl
    · simp only [step, ledger, gain, if_neg hc, add_zero]
      rfl

/-- What the events of a run add to the ledger, without the wrap. -/
def gained (s : StatsServer) (c : Counter) : List StatsEvent → Nat
  | [] => 0
  | e :: es => (s.gain c e).toNat + (s.step e).gained c es

theorem run_accounts (h : s.Registered) (es : List StatsEvent) :
    s.Accounts (s.run es) fun c => UInt64.ofNat (s.gained c es) := by
  induction es generalizing s with
  | nil => exact h.accounts
  | cons e es ih =>
    have hstep := step_accounts h e
    have hrun := ih hstep.registered
    refine ⟨hrun.registered, fun c => (hrun.ledger c).trans ?_⟩
    rw [hstep.ledger c, gained, UInt64.ofNat_add, UInt64.ofNat_toNat, add_assoc]

theorem new_registered (identities : List String) (n : Nat) : (new identities n).Registered := by
  have hkeys : ((new identities n).identities.map Prod.fst) = identities.dedup := by
    simp [new, Function.comp_def]
  have hlive : (new identities n).live ++ (new identities n).closing = [] := by
    simp [new, live]
  have hpooled : (new identities n).pooled = [] := by
    simp [new, pooled]
  constructor
  · rw [hkeys]
    exact identities.nodup_dedup
  · rw [hlive]
    exact List.nodup_nil
  · rw [hpooled]
    exact List.nodup_nil
  · simp [hpooled]
  · simp [hlive]
  · exact fun _ _ _ => rfl
  · exact fun _ => rfl

/-! ### Rows -/

/-- Every pooled tunnel but the dialed one publishes the identity of the pool it is in: no new identity
waits in the queue. -/
def Current (s : StatsServer) : Prop :=
  ∀ e ∈ s.identities, ∀ t ∈ e.2.tunnels, some t ≠ s.muxTunnel → s.peerIdentity t = some e.1

instance (s : StatsServer) : Decidable s.Current := by
  unfold Current
  infer_instance

theorem lookup_of_mem {ids : List (String × IdentityListener)} (hkeys : (ids.map Prod.fst).Nodup) (he : e ∈ ids) :
    ids.lookup e.1 = some e.2 := by
  obtain ⟨front, back, rfl⟩ := List.append_of_mem he
  refine List.lookup_eq_some_iff.2 ⟨front, back, rfl, fun q hq => ?_⟩
  rw [List.map_append, List.nodup_append] at hkeys
  have hne := hkeys.2.2 q.1 (List.mem_map_of_mem hq) e.1 (by simp)
  simpa using hne.symm

theorem tunnelIsPooled_iff (hkeys : (s.identities.map Prod.fst).Nodup) :
    s.tunnelIsPooled t ↔ ∃ e ∈ s.identities, t ∈ e.2.tunnels ∧ s.peerIdentity t = some e.1 := by
  unfold tunnelIsPooled
  constructor
  · intro h
    split at h
    · cases h
    · rename_i id hid
      split at h
      · cases h
      · rename_i sl hsl
        obtain ⟨front, back, hids, -⟩ := List.lookup_eq_some_iff.1 hsl
        exact ⟨(id, sl), by simp [hids], by simpa [IdentityListener.contains] using h, hid⟩
  · rintro ⟨e, he, ht, hid⟩
    simpa [hid, lookup_of_mem hkeys he, IdentityListener.contains] using ht

/-- A tunnel is in one pool only, so that the pool in which `tunnel_is_pooled` finds it is that one. -/
theorem Registered.current_iff (h : s.Registered) :
    s.Current ↔ ∀ t ∈ s.pooled, some t ≠ s.muxTunnel → s.tunnelIsPooled t := by
  constructor
  · intro hcurrent t ht hne
    obtain ⟨e, he, hmem⟩ := List.mem_flatMap.1 ht
    exact (tunnelIsPooled_iff h.keys).2 ⟨e, he, hmem, hcurrent e he t hmem hne⟩
  · intro hpooled e he t hmem hne
    obtain ⟨e', he', hmem', hid⟩ := (tunnelIsPooled_iff h.keys).1 (hpooled t (List.mem_flatMap.2 ⟨e, he, hmem⟩) hne)
    have hdisjoint := (List.nodup_flatMap.1 h.pool).2
    by_cases heq : e' = e
    · rw [hid, heq]
    · have hsymm : Std.Symm (Function.onFun List.Disjoint fun e : String × IdentityListener => e.2.tunnels) :=
        ⟨fun _ _ hd => hd.symm⟩
      exact absurd hmem (hdisjoint.forall he' he heq hmem')

theorem rows_tunnels (s : StatsServer) :
    s.rows.map (·.tunnel) = s.muxTunnel.toList ++ ((s.pooled.filter fun t => some t ≠ s.muxTunnel) ++
      (s.identityTunnels.reduceOption ++ s.accepted).filter fun t => !s.tunnelIsPooled t) := by
  have hpools : (s.identities.flatMap s.poolRows).map (·.tunnel) =
      s.pooled.filter fun t => some t ≠ s.muxTunnel := by
    rw [List.map_flatMap, pooled, List.filter_flatMap]
    refine List.flatMap_congr fun e _ => ?_
    simp [poolRows, Function.comp_def]
  have hsingle : ∀ l : List TunnelId, (l.map singleRow).map (·.tunnel) = l := by
    intro l
    simp [singleRow, Function.comp_def]
  simp only [rows, List.map_append, hpools, hsingle, List.filter_append, List.append_assoc]

theorem rows_length_le (s : StatsServer) : s.rows.length ≤ s.rowCap := by
  have hmux : s.muxTunnel.toList.length = if s.muxTunnel.isSome then 1 else 0 := by
    cases s.muxTunnel <;> rfl
  have hpools : (s.pooled.filter fun t => some t ≠ s.muxTunnel).length ≤
      (s.identities.map fun e => e.2.tunnels.length).sum := by
    rw [← List.length_flatMap]
    exact List.length_filter_le _ _
  have hslots := List.length_filter_le (fun t => !s.tunnelIsPooled t) s.identityTunnels.reduceOption
  have haccepted := List.length_filter_le (fun t => !s.tunnelIsPooled t) s.accepted
  have hreduce := List.reduceOption_length_le s.identityTunnels
  calc s.rows.length = (s.rows.map (·.tunnel)).length := (List.length_map _).symm
    _ ≤ s.rowCap := by
      rw [rows_tunnels, rowCap, ← hmux, List.filter_append]
      simp only [List.length_append]
      omega

/-- The rows are the registered tunnels, each once, exactly when no pooled tunnel has published another
identity than that of its pool. -/
theorem rows_perm_live_iff (h : s.Registered) : (s.rows.map (·.tunnel)).Perm s.live ↔ s.Current := by
  have hlive := (List.nodup_append.1 h.once).1
  rw [rows_tunnels, live, List.perm_append_left_iff, h.current_iff]
  rw [live] at hlive
  have hrest := (List.nodup_append.1 hlive).2.1
  have hmux := (List.nodup_append.1 hlive).2.2
  constructor
  · intro hperm t ht hne
    by_contra hpub
    have hmem : t ∈ s.identityTunnels.reduceOption ++ s.accepted := by
      refine (List.mem_append.1 (h.known t ht)).resolve_left fun hdialed => hne ?_
      exact (Option.mem_toList.1 hdialed).symm
    have hnodup := hperm.nodup_iff.2 hrest
    refine (List.nodup_append.1 hnodup).2.2 t ?_ t ?_ rfl
    · simpa using ⟨ht, hne⟩
    · exact List.mem_filter.2 ⟨hmem, by simpa using hpub⟩
  · intro hcurrent
    have hsplit := List.filter_append_perm s.tunnelIsPooled (s.identityTunnels.reduceOption ++ s.accepted)
    refine (List.Perm.append_right _ ?_).trans hsplit
    refine (List.perm_ext_iff_of_nodup (h.pool.filter _) (hrest.filter _)).2 fun t => ?_
    simp only [List.mem_filter, decide_eq_true_eq]
    constructor
    · rintro ⟨ht, hne⟩
      refine ⟨(List.mem_append.1 (h.known t ht)).resolve_left fun hdialed => hne ?_, hcurrent t ht hne⟩
      exact (Option.mem_toList.1 hdialed).symm
    · rintro ⟨ht, hpub⟩
      obtain ⟨e, he, hmem, -⟩ := (tunnelIsPooled_iff h.keys).1 hpub
      refine ⟨List.mem_flatMap.2 ⟨e, he, hmem⟩, fun hdialed => ?_⟩
      exact hmux t (Option.mem_toList.2 hdialed.symm) t ht rfl

theorem total_eq_ledger (h : s.Registered) (hcurrent : s.Current) (hclosing : s.closing = []) (c : Counter) :
    s.total c = s.ledger c := by
  have hperm := ((rows_perm_live_iff h).2 hcurrent).map fun t => s.counters t c
  rw [total, ledger, hclosing, List.append_nil, ← hperm.sum_eq, List.map_map]
  rfl

/-- In every state of a run the rows of `server_stats` are the registered tunnels, each once, exactly when
every pooled tunnel still publishes the identity of its pool. A call then reports what the closed and the
registered tunnels have counted. A later such call reports what has been counted in between on top, and so
no less unless the total wraps. -/
theorem run_stats (identities : List String) (numIdentityTunnels : Nat) (es : List StatsEvent) :
    let s := (new identities numIdentityTunnels).run es
    ((s.rows.map (·.tunnel)).Perm s.live ↔ s.Current) ∧
      (s.Current → s.closing = [] →
        (∀ c, s.total c = (s.finals.map fun fin => fin c).sum + (s.live.map fun t => s.counters t c).sum +
          if c = .pktDgramDropped then s.numDgramUnrouted else 0) ∧
        ∀ fs, (s.run fs).Current → (s.run fs).closing = [] → ∀ c,
          (s.run fs).total c = s.total c + UInt64.ofNat (s.gained c fs) ∧
            ((s.total c).toNat + s.gained c fs < 2 ^ 64 → s.total c ≤ (s.run fs).total c)) := by
  intro s
  have h : s.Registered := (run_accounts (new_registered identities numIdentityTunnels) es).registered
  refine ⟨rows_perm_live_iff h, fun hcurrent hclosing => ⟨fun c => ?_, fun fs hcurrent' hclosing' c => ?_⟩⟩
  · rw [total_eq_ledger h hcurrent hclosing, ledger, hclosing, List.append_nil, h.folded, add_right_comm]
  · have hrun := run_accounts h fs
    rw [total_eq_ledger h hcurrent hclosing, total_eq_ledger hrun.registered hcurrent' hclosing', hrun.ledger c]
    refine ⟨rfl, fun hlt => ?_⟩
    rw [UInt64.le_iff_toNat_le, UInt64.toNat_add, UInt64.toNat_ofNat', Nat.add_mod_mod, Nat.mod_eq_of_lt hlt]
    exact Nat.le_add_right _ _

/-- A dial-out that has been pooled counts once before a call and twice before the next one. -/
theorem run_stats_pooled :
    let s := (new ["a", "b"] 1).run
      [.dialIdentity 0, .count 0 (fun _ => 1), .publish 0 (some "a"), .relay 0 .connected, .tick]
    s.pooled = [0] ∧ s.Current ∧ s.total .numStreamOpened = 1 ∧
      (s.run [.count 0 fun _ => 2]).total .numStreamOpened = s.total .numStreamOpened + 2 ∧
      s.total .numStreamOpened ≤ (s.run [.count 0 fun _ => 2]).total .numStreamOpened := by
  intro s
  obtain ⟨-, hstats⟩ := run_stats ["a", "b"] 1
    [.dialIdentity 0, .count 0 (fun _ => 1), .publish 0 (some "a"), .relay 0 .connected, .tick]
  have hcurrent : s.Current := by decide
  obtain ⟨hmore, hle⟩ := (hstats hcurrent rfl).2 [.count 0 fun _ => 2] (by decide) rfl .numStreamOpened
  exact ⟨by decide, hcurrent, by decide, hmore, hle (by decide)⟩

/-- A dial-out that has been pooled connects again and its peer now claims another identity. Until the
relayed event is taken it has two rows, one of its old pool and one of its slot; then the totals fall. -/
theorem reidentified_counted_twice :
    let s := (new ["a", "b"] 1).run
      [.dialIdentity 0, .count 0 (fun _ => 1), .publish 0 (some "a"), .relay 0 .connected, .tick,
        .publish 0 (some "b")]
    s.closing = [] ∧ s.live = [0] ∧ s.rows.map (·.tunnel) = [0, 0] ∧ s.total .numStreamOpened = 2 ∧
      (s.run [.relay 0 .connected, .tick]).total .numStreamOpened = 1 := by
  decide

end StatsServer

end Multiplexd
