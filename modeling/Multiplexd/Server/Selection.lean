import Mathlib.Data.List.ReduceOption
import Multiplexd.Lib.Turns
import Multiplexd.Limits
import Multiplexd.Mux.Session
import Multiplexd.Server.Dialing

/-!
# Which tunnel carries the next connection

A local connection goes to the pool of an identity, or, at the top-level listen address, to the dialed
tunnel or else to one of the accepted ones. A pool is an array with an index that wraps; the accepted
tunnels are walked by a cursor over the slots of a hash table, valid or not. Both look for an established
tunnel for one lap and fall back to the next one in turn.
-/

namespace Multiplexd

variable (state : TunnelId → SessionState)

def isEstablished (t : TunnelId) : Bool := state t == .established

/-- `struct identity_listener` as far as its pool is concerned; `tunnels` has length `num_tunnels`. -/
structure IdentityListener where
  tunnels : List TunnelId := []
  rrNext : Nat := 0
deriving Repr, DecidableEq

namespace IdentityListener

def contains (sl : IdentityListener) (t : TunnelId) : Bool := sl.tunnels.contains t

def add (sl : IdentityListener) (t : TunnelId) (ok : Bool) : Bool × IdentityListener :=
  if ok then (true, { sl with tunnels := sl.tunnels ++ [t] }) else (false, sl)

def remove (sl : IdentityListener) (t : TunnelId) : Bool × IdentityListener :=
  match sl.tunnels.idxOf? t with
  | none => (false, sl)
  | some i =>
    -- the last tunnel takes the place of the one that goes
    let tunnels := (sl.tunnels.set i (sl.tunnels.getLastD t)).dropLast
    (true, { tunnels, rrNext := if sl.rrNext ≥ tunnels.length then 0 else sl.rrNext })

/-- `rr_next`, put back into the array. -/
def start (sl : IdentityListener) : Nat := if sl.rrNext ≥ sl.tunnels.length then 0 else sl.rrNext

def pick (sl : IdentityListener) : Option TunnelId × IdentityListener :=
  let n := sl.tunnels.length
  if n = 0 then (none, sl)
  else
    let pick :=
      match (List.range n).find? fun i => (sl.tunnels[(sl.start + i) % n]?).any (isEstablished state) with
      | some i => (sl.start + i) % n
      | none => sl.start
    (sl.tunnels[pick]?, { sl with rrNext := (pick + 1) % n })

def order (sl : IdentityListener) : List TunnelId := sl.tunnels.rotate sl.start

end IdentityListener

def tableScan : List (Option TunnelId) → Nat → Option (TunnelId × Nat)
  | [], _ => none
  | none :: ps, i => tableScan ps (i + 1)
  | some e :: _, i => some (e, i + 1)

/-- `table_next`: the element, if there is one, and the iterator. -/
def tableNext (slots : List (Option TunnelId)) (iter : Nat) : Option TunnelId × Nat :=
  match tableScan (slots.drop iter) iter with
  | some (e, i) => (some e, i)
  | none => (none, sizeMax)

/-- `accepted_tunnels` and `accepted_rr_cursor`; a slot that is not valid is `none`. -/
structure AcceptedTable where
  slots : List (Option TunnelId) := []
  rrCursor : Nat := 0
deriving Repr, DecidableEq

namespace AcceptedTable

def tunnels (s : AcceptedTable) : List TunnelId := s.slots.reduceOption

def next (s : AcceptedTable) : Option TunnelId × AcceptedTable :=
  match tableNext s.slots s.rrCursor with
  | (some e, i) => (some e, { s with rrCursor := i })
  | (none, _) =>
    let (e, i) := tableNext s.slots 0
    (e, { s with rrCursor := i })

/-- The loop of `accepted_tunnels_pick`. -/
def pickLoop : Nat → AcceptedTable → Option (TunnelId × AcceptedTable)
  | 0, _ => none
  | n + 1, s =>
    match s.next with
    | (some t, s) => if isEstablished state t then some (t, s) else pickLoop n s
    | (none, _) => none

def pick (s : AcceptedTable) : Option TunnelId × AcceptedTable :=
  match s.next with
  | (none, s) => (none, s)
  | (some first, s) =>
    if isEstablished state first then (some first, s)
    else
      match s.pickLoop state (s.tunnels.length - 1) with
      | some (t, s) => (some t, s)
      | none => (some first, s)

def order (s : AcceptedTable) : List TunnelId := (s.slots.drop s.rrCursor ++ s.slots.take s.rrCursor).reduceOption

end AcceptedTable

/-- What `server_pick_local` chooses from. -/
structure LocalChoice where
  muxTunnel : Option TunnelId := none
  accepted : AcceptedTable := {}
deriving Repr, DecidableEq

namespace LocalChoice

def pick (s : LocalChoice) : Option TunnelId × LocalChoice :=
  match s.muxTunnel with
  | some t => (some t, s)
  | none => ((s.accepted.pick state).1, { s with accepted := (s.accepted.pick state).2 })

def tunnels (s : LocalChoice) : List TunnelId :=
  match s.muxTunnel with
  | some t => [t]
  | none => s.accepted.tunnels

def order (s : LocalChoice) : List TunnelId :=
  match s.muxTunnel with
  | some t => [t]
  | none => s.accepted.order

end LocalChoice

namespace IdentityListener

variable {state} {sl : IdentityListener}

theorem length_order : sl.order.length = sl.tunnels.length := List.length_rotate ..

theorem getElem?_order {i : Nat} (hi : i < sl.tunnels.length) :
    sl.order[i]? = sl.tunnels[(sl.start + i) % sl.tunnels.length]? := by
  rw [order, List.getElem?_rotate hi, Nat.add_comm]

variable {a : TunnelId}

theorem order_past (front : List TunnelId) {back : List TunnelId} {i : Nat}
    (horder : sl.order = front ++ a :: back)
    (hi : i % sl.tunnels.length = (sl.start + front.length) % sl.tunnels.length) :
    sl.tunnels[i % sl.tunnels.length]? = some a ∧
      order { sl with rrNext := (i % sl.tunnels.length + 1) % sl.tunnels.length } = back ++ (front ++ [a]) := by
  have hlen : sl.tunnels.length = (front ++ a :: back).length := by rw [← horder, length_order]
  have hlt : front.length < sl.tunnels.length := by
    rw [hlen]
    simp
  have hpos : 0 < sl.tunnels.length := Nat.zero_lt_of_lt hlt
  refine ⟨?_, ?_⟩
  · rw [hi, ← getElem?_order hlt, horder]
    simp
  · have hstart : start { sl with rrNext := (i % sl.tunnels.length + 1) % sl.tunnels.length }
        = (i % sl.tunnels.length + 1) % sl.tunnels.length :=
      if_neg (Nat.not_le_of_lt (Nat.mod_lt _ hpos))
    calc order { sl with rrNext := (i % sl.tunnels.length + 1) % sl.tunnels.length }
        = sl.tunnels.rotate ((sl.start + front.length) % sl.tunnels.length + 1) := by
          rw [order, hstart, hi, List.rotate_mod]
      _ = sl.tunnels.rotate (sl.start + (front ++ [a]).length) := by
          rw [← List.rotate_mod, Nat.mod_add_mod, List.rotate_mod]
          simp [Nat.add_assoc]
      _ = (front ++ [a] ++ back).rotate (front ++ [a]).length := by
          rw [← List.rotate_rotate, List.append_assoc, List.singleton_append, ← horder]
          rfl
      _ = back ++ (front ++ [a]) := List.rotate_append_length_eq ..

theorem find?_established {front back : List TunnelId} (horder : sl.order = front ++ a :: back)
    (hdead : ∀ b ∈ front, isEstablished state b = false) (hlive : isEstablished state a = true) :
    ((List.range sl.tunnels.length).find? fun i =>
      (sl.tunnels[(sl.start + i) % sl.tunnels.length]?).any (isEstablished state)) = some front.length := by
  have hlt : front.length < sl.tunnels.length := by
    rw [← length_order, horder]
    simp
  rw [List.find?_range_eq_some]
  refine ⟨?_, List.mem_range.mpr hlt, fun j hj => ?_⟩
  · rw [← getElem?_order hlt, horder]
    simp [hlive]
  · rw [← getElem?_order (Nat.lt_trans hj hlt), horder, List.getElem?_append_left hj,
      List.getElem?_eq_getElem hj]
    simp [hdead _ (List.getElem_mem hj)]

theorem find?_none_established (hdead : ∀ b ∈ sl.order, isEstablished state b = false) :
    ((List.range sl.tunnels.length).find? fun i =>
      (sl.tunnels[(sl.start + i) % sl.tunnels.length]?).any (isEstablished state)) = none := by
  rw [List.find?_eq_none]
  intro i hi
  have hlt := List.mem_range.mp hi
  have hlt' : i < sl.order.length := by rwa [length_order]
  rw [← getElem?_order hlt, List.getElem?_eq_getElem hlt']
  simp [hdead _ (List.getElem_mem hlt')]

theorem pick_prefersLive : PrefersLive (isEstablished state) order (pick state) := by
  refine ⟨fun sl hnil => ?_, fun sl front a back horder hdead hlive => ?_, fun sl a rest horder hdead => ?_⟩
  · have hlen : sl.tunnels.length = 0 := by rw [← length_order, hnil, List.length_nil]
    rw [pick, if_pos hlen]
    exact ⟨rfl, hnil⟩
  · have hlen : sl.tunnels.length ≠ 0 := by
      rw [← length_order, horder]
      simp
    rw [pick, if_neg hlen, find?_established horder hdead hlive]
    exact order_past front horder rfl
  · have hlen : sl.tunnels.length ≠ 0 := by
      rw [← length_order, horder]
      simp
    have hstart : sl.start % sl.tunnels.length = sl.start := by
      refine Nat.mod_eq_of_lt ?_
      rw [start]
      split <;> omega
    rw [pick, if_neg hlen, find?_none_established hdead]
    have hpast := order_past (i := sl.start) [] horder rfl
    rw [hstart] at hpast
    exact hpast

end IdentityListener

/-! ### The accepted tunnels as a queue -/

variable {ps : List (Option TunnelId)}

theorem tableScan_eq_none {i : Nat} (h : ps.reduceOption = []) : tableScan ps i = none := by
  induction ps generalizing i with
  | nil => rfl
  | cons p ps ih =>
    cases p with
    | none => exact ih (by simpa using h)
    | some e => simp at h

theorem tableScan_eq_some {i : Nat} {a : TunnelId} {rest : List TunnelId} (h : ps.reduceOption = a :: rest) :
    ∃ k, tableScan ps i = some (a, i + k) ∧ k ≤ ps.length ∧ (ps.drop k).reduceOption = rest ∧
      (ps.take k).reduceOption = [a] := by
  induction ps generalizing i with
  | nil => simp at h
  | cons p ps ih =>
    cases p with
    | none =>
      obtain ⟨k, hscan, hk, hdrop, htake⟩ := ih (i := i + 1) (by simpa using h)
      refine ⟨k + 1, ?_, ?_, hdrop, ?_⟩
      · rw [tableScan, hscan, Nat.add_assoc, Nat.add_comm 1]
      · simpa using hk
      · simpa using htake
    | some e =>
      rw [List.reduceOption_cons_of_some] at h
      obtain ⟨rfl, rfl⟩ := List.cons.inj h
      exact ⟨1, rfl, by simp, rfl, rfl⟩

namespace AcceptedTable

variable {state} {s s' : AcceptedTable} {a : TunnelId} {front back rest : List TunnelId}

variable {slots : List (Option TunnelId)} {i n : Nat}

theorem tableNext_eq_some (h : (slots.drop i).reduceOption = a :: rest) :
    ∃ j, tableNext slots i = (some a, j) ∧ (slots.drop j).reduceOption = rest ∧
      (slots.take j).reduceOption = (slots.take i).reduceOption ++ [a] := by
  obtain ⟨k, hscan, -, hdrop, htake⟩ := tableScan_eq_some (i := i) h
  refine ⟨i + k, by rw [tableNext, hscan], ?_, ?_⟩
  · rw [← hdrop, List.drop_drop]
  · rw [List.take_add, List.reduceOption_append, htake]

theorem tableNext_eq_none (h : (slots.drop i).reduceOption = []) : (tableNext slots i).1 = none := by
  rw [tableNext, tableScan_eq_none h]

theorem order_eq : s.order = (s.slots.drop s.rrCursor).reduceOption ++ (s.slots.take s.rrCursor).reduceOption :=
  List.reduceOption_append ..

theorem tunnels_eq : s.tunnels = (s.slots.take s.rrCursor).reduceOption ++ (s.slots.drop s.rrCursor).reduceOption := by
  rw [← List.reduceOption_append, List.take_append_drop, tunnels]

theorem order_perm (s : AcceptedTable) : s.order.Perm s.tunnels := by
  rw [order_eq, tunnels_eq]
  exact List.perm_append_comm

@[simp] theorem next_slots : s.next.2.slots = s.slots := by
  rw [next]
  split <;> rfl

theorem next_none (h : s.order = []) : s.next.1 = none := by
  have hnil : s.slots.reduceOption = [] := (h ▸ order_perm s).nil_eq.symm
  have hdrop : (s.slots.drop s.rrCursor).reduceOption = [] := (List.append_eq_nil_iff.mp (order_eq ▸ h)).1
  have hagain : (tableNext s.slots 0).1 = none := tableNext_eq_none hnil
  rw [next, tableNext, tableScan_eq_none hdrop]
  exact hagain

theorem order_eq_nil_of_slots (h : s.order = []) (hslots : s'.slots = s.slots) : s'.order = [] := by
  have hnil : s.tunnels = [] := (h ▸ order_perm s).nil_eq.symm
  have hnil' : s'.tunnels = [] := by rw [tunnels, hslots, ← tunnels, hnil]
  exact (hnil' ▸ order_perm s').eq_nil

theorem next_servesHead : ServesHead order next := by
  intro s a rest h
  rw [order_eq] at h
  cases hdrop : (s.slots.drop s.rrCursor).reduceOption with
  | cons b rest' =>
    obtain ⟨j, hnext, hdrop', htake⟩ := tableNext_eq_some hdrop
    rw [hdrop, List.cons_append] at h
    obtain ⟨rfl, rfl⟩ := List.cons.inj h
    rw [next, hnext]
    refine ⟨rfl, ?_⟩
    rw [order_eq, hdrop', htake, List.append_assoc]
  | nil =>
    -- the cursor is past the last valid slot and starts again
    have hall : (s.slots.drop 0).reduceOption = a :: rest := by
      rw [hdrop, List.nil_append] at h
      rw [List.drop_zero, ← tunnels, tunnels_eq, hdrop, List.append_nil, h]
    obtain ⟨j, hnext, hdrop', htake⟩ := tableNext_eq_some hall
    rw [next, tableNext, tableScan_eq_none hdrop]
    simp only [hnext]
    refine ⟨trivial, ?_⟩
    rw [order_eq, hdrop', htake]
    rfl

/-- The lap finds the first established tunnel of the queue. -/
theorem pickLoop_eq_some (h : s.order = front ++ a :: back) (hn : front.length < n)
    (hdead : ∀ b ∈ front, isEstablished state b = false) (hlive : isEstablished state a = true) :
    ∃ s', s.pickLoop state n = some (a, s') ∧ s'.order = back ++ (front ++ [a]) := by
  induction n generalizing s front back with
  | zero => exact absurd hn (Nat.not_lt_zero _)
  | succ n ih =>
    cases front with
    | nil =>
      obtain ⟨hnext, horder⟩ := next_servesHead s a back h
      refine ⟨s.next.2, ?_, horder⟩
      rw [pickLoop, show s.next = (some a, s.next.2) from Prod.ext hnext rfl]
      simp [hlive]
    | cons b front =>
      obtain ⟨hnext, horder⟩ := next_servesHead s b (front ++ a :: back) h
      rw [List.append_assoc] at horder
      obtain ⟨s', hloop, horder'⟩ := ih horder (Nat.lt_of_succ_lt_succ hn) fun c hc => hdead c (List.mem_cons_of_mem b hc)
      refine ⟨s', ?_, by simp [horder']⟩
      rw [pickLoop, show s.next = (some b, s.next.2) from Prod.ext hnext rfl]
      simp [hdead b List.mem_cons_self, hloop]

theorem pickLoop_eq_none (hdead : ∀ b ∈ s.tunnels, isEstablished state b = false) :
    s.pickLoop state n = none := by
  induction n generalizing s with
  | zero => rfl
  | succ n ih =>
    rw [pickLoop]
    cases horder : s.order with
    | nil => rw [show s.next = (none, s.next.2) from Prod.ext (next_none horder) rfl]
    | cons b rest =>
      obtain ⟨hnext, -⟩ := next_servesHead s b rest horder
      have hb : b ∈ s.tunnels := (order_perm s).mem_iff.mp (by simp [horder])
      rw [show s.next = (some b, s.next.2) from Prod.ext hnext rfl]
      simp only [hdead b hb, Bool.false_eq_true, ↓reduceIte]
      exact ih (by rwa [tunnels, next_slots])

theorem pick_prefersLive : PrefersLive (isEstablished state) order (pick state) := by
  refine ⟨fun s hnil => ?_, fun s front a back horder hdead hlive => ?_, fun s a rest horder hdead => ?_⟩
  · rw [pick, show s.next = (none, s.next.2) from Prod.ext (next_none hnil) rfl]
    exact ⟨rfl, order_eq_nil_of_slots hnil next_slots⟩
  · cases front with
    | nil =>
      obtain ⟨hnext, horder'⟩ := next_servesHead s a back horder
      rw [pick, show s.next = (some a, s.next.2) from Prod.ext hnext rfl]
      simp only [hlive, ↓reduceIte]
      exact ⟨trivial, horder'⟩
    | cons b front =>
      obtain ⟨hnext, horder'⟩ := next_servesHead s b (front ++ a :: back) horder
      rw [List.append_assoc] at horder'
      have hlen : front.length < s.next.2.tunnels.length - 1 := by
        rw [← (order_perm s.next.2).length_eq, horder']
        simp
      obtain ⟨s', hloop, hlast⟩ :=
        pickLoop_eq_some horder' hlen (fun c hc => hdead c (List.mem_cons_of_mem b hc)) hlive
      rw [pick, show s.next = (some b, s.next.2) from Prod.ext hnext rfl]
      simp only [hdead b List.mem_cons_self, Bool.false_eq_true, ↓reduceIte, hloop]
      exact ⟨trivial, by simp [hlast]⟩
  · obtain ⟨hnext, horder'⟩ := next_servesHead s a rest horder
    have hdead' : ∀ b ∈ s.next.2.tunnels, isEstablished state b = false := by
      intro b hb
      rw [tunnels, next_slots, ← tunnels] at hb
      exact hdead b ((order_perm s).mem_iff.mpr hb)
    rw [pick, show s.next = (some a, s.next.2) from Prod.ext hnext rfl]
    simp only [hdead a (by simp [horder]), Bool.false_eq_true, ↓reduceIte, pickLoop_eq_none hdead']
    exact ⟨trivial, horder'⟩

end AcceptedTable

namespace LocalChoice

theorem order_perm (s : LocalChoice) : s.order.Perm s.tunnels := by
  rcases s with ⟨mux, accepted⟩
  cases mux with
  | none => exact accepted.order_perm
  | some t => exact List.Perm.refl [t]

theorem pick_prefersLive {state : TunnelId → SessionState} : PrefersLive (isEstablished state) order (pick state) := by
  have hpick : PrefersLive (isEstablished state) _ _ := AcceptedTable.pick_prefersLive
  refine ⟨?_, ?_, ?_⟩
  · rintro ⟨mux, accepted⟩ hnil
    cases mux with
    | none => exact hpick.none accepted hnil
    | some t => cases hnil
  · rintro ⟨mux, accepted⟩ front a back horder hdead hlive
    cases mux with
    | none => exact hpick.first accepted front a back horder hdead hlive
    | some t =>
      cases front with
      | nil =>
        cases horder
        exact ⟨rfl, rfl⟩
      | cons b front => simp [order] at horder
  · rintro ⟨mux, accepted⟩ a rest horder hdead
    cases mux with
    | none => exact hpick.plain accepted a rest horder hdead
    | some t =>
      cases horder
      exact ⟨rfl, rfl⟩

end LocalChoice

/-- Every way of choosing a tunnel prefers established ones and serves them in turn. -/
theorem pick_liveFirst (state : TunnelId → SessionState) :
    LiveFirst (isEstablished state) IdentityListener.tunnels IdentityListener.order (IdentityListener.pick state) ∧
    LiveFirst (isEstablished state) AcceptedTable.tunnels AcceptedTable.order (AcceptedTable.pick state) ∧
    LiveFirst (isEstablished state) LocalChoice.tunnels LocalChoice.order (LocalChoice.pick state) :=
  ⟨IdentityListener.pick_prefersLive.liveFirst fun _ => List.rotate_perm _ _,
    AcceptedTable.pick_prefersLive.liveFirst AcceptedTable.order_perm,
    LocalChoice.pick_prefersLive.liveFirst LocalChoice.order_perm⟩

end Multiplexd
