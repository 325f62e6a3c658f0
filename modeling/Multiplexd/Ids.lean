import Mathlib.Data.Nat.ModEq
import Multiplexd.Lib.Cursor

/-!
# Stream ids and flow ids

The dialing end of a session takes odd ids and the accepting end even ones, for streams as for UDP flows.
Each allocator walks a cursor of 16 bits in steps of two; they differ in where the walk restarts. The
stream allocator lets the cursor wrap and skips 0, the flow allocator restarts at its first id.
-/

namespace Multiplexd

/-- `accepted ? 0 : 1` -/
def idParity (accepted : Bool) : UInt16 := if accepted then 0 else 1

/-- The ids an end may take. -/
def OwnId (accepted : Bool) (id : UInt16) : Prop := id ≠ 0 ∧ id.toNat % 2 = (idParity accepted).toNat

/-- What `mux_sched_alloc_stream_id` reads of a session: `streams` says which ids are in the table. -/
structure StreamIds where
  accepted : Bool
  streams : UInt16 → Bool
  nextStreamId : UInt16

def StreamIds.free (s : StreamIds) (id : UInt16) : Bool := id != 0 && !s.streams id

/-- `mux_sched_alloc_stream_id`; 0 reports exhaustion. -/
def StreamIds.alloc (s : StreamIds) : UInt16 × StreamIds :=
  let parity := idParity s.accepted
  let id := if s.nextStreamId &&& 1 ≠ parity ∨ s.nextStreamId = 0 then (if parity = 1 then 1 else 2) else s.nextStreamId
  match searchFrom (· + 2) s.free 32768 id with
  | some id => (id, { s with nextStreamId := id + 2 })
  | none => (0, s)

/-- What `flows_alloc_id` reads of `struct udp_flows`: `byId` says which ids are in the table. -/
structure UdpFlows where
  byId : UInt16 → Bool
  nextId : UInt16
  parity : UInt16

namespace UdpFlows

def new (accepted : Bool) : UdpFlows := ⟨fun _ => false, 2 - idParity accepted, idParity accepted⟩

/-- Where the cursor goes from `id`. -/
def next (parity id : UInt16) : UInt16 := if id.toNat + 2 > 65535 then 2 - parity else id + 2

/-- The loop of `flows_alloc_id`. -/
def allocLoop : Nat → UdpFlows → UInt16 × UdpFlows
  | 0, f => (0, f)
  | n + 1, f =>
    let id := f.nextId
    let f := { f with nextId := next f.parity id }
    if f.byId id then allocLoop n f else (id, f)

def allocId (f : UdpFlows) : UInt16 × UdpFlows := f.allocLoop 32768

/-- What happens to the flows of a session: an id is allocated, or flows of either side come and go. -/
inductive Event where
  | alloc
  | table (byId : UInt16 → Bool)

def step (f : UdpFlows) : Event → UdpFlows
  | .alloc => f.allocId.2
  | .table byId => { f with byId := byId }

def run (accepted : Bool) (es : List Event) : UdpFlows := es.foldl step (new accepted)

end UdpFlows

theorem iterate_add_two (a : UInt16) (i : Nat) : ((· + 2)^[i] a).toNat = (a.toNat + 2 * i) % 65536 := by
  induction i with
  | zero => exact (Nat.mod_eq_of_lt a.toNat_lt).symm
  | succ i ih =>
    rw [Function.iterate_succ_apply', UInt16.toNat_add, ih]
    simp only [UInt16.toNat_ofNat]
    omega

theorem exists_iterate_add_two {a b : UInt16} (h : a.toNat % 2 = b.toNat % 2) :
    ∃ i < 32768, (· + 2)^[i] a = b := by
  have ha := a.toNat_lt
  have hb := b.toNat_lt
  refine ⟨(b.toNat + 65536 - a.toNat) % 65536 / 2, by omega, ?_⟩
  rw [← UInt16.toNat_inj, iterate_add_two]
  omega

def FreshOrExhausted (accepted : Bool) (inUse : UInt16 → Bool) (id : UInt16) : Prop :=
  (id ≠ 0 → OwnId accepted id ∧ inUse id = false) ∧ (id = 0 ↔ ∀ j, OwnId accepted j → inUse j = true)

/-- A bounded search that stays among an end's own ids and visits them all. -/
theorem freshOrExhausted_of_search {accepted : Bool} {inUse free : UInt16 → Bool} {next : UInt16 → UInt16}
    {n : Nat} {start : UInt16} (hin : ∀ i < n, free (next^[i] start) = true → OwnId accepted (next^[i] start))
    (hvisits : ∀ b, OwnId accepted b → ∃ i < n, next^[i] start = b)
    (hfree : ∀ b, OwnId accepted b → free b = !inUse b) :
    FreshOrExhausted accepted inUse ((searchFrom next free n start).getD 0) := by
  have hnone := searchFrom_eq_none_of_visits hin hvisits
  cases hsearch : searchFrom next free n start with
  | some id =>
    obtain ⟨hown, hid⟩ := searchFrom_mem hin hsearch
    rw [hfree id hown, Bool.not_eq_true'] at hid
    refine ⟨fun _ => ⟨hown, hid⟩, fun h => absurd h hown.1, fun h => ?_⟩
    rw [h id hown] at hid
    contradiction
  | none =>
    refine ⟨fun h => absurd rfl h, fun _ j hj => ?_, fun _ => rfl⟩
    have hused := hnone.mp hsearch j hj
    rwa [hfree j hj, Bool.not_eq_false'] at hused

theorem idParity_lt (accepted : Bool) : (idParity accepted).toNat < 2 := by cases accepted <;> decide

namespace StreamIds

/-- Where the search begins. -/
def start (s : StreamIds) : UInt16 :=
  if s.nextStreamId &&& 1 ≠ idParity s.accepted ∨ s.nextStreamId = 0 then
    (if idParity s.accepted = 1 then 1 else 2) else s.nextStreamId

theorem start_parity (s : StreamIds) : s.start.toNat % 2 = (idParity s.accepted).toNat := by
  unfold start
  by_cases h : s.nextStreamId &&& 1 ≠ idParity s.accepted ∨ s.nextStreamId = 0
  · rw [if_pos h]
    cases s.accepted <;> rfl
  · rw [if_neg h]
    rw [not_or, not_not] at h
    rw [← h.1, UInt16.toNat_and]
    exact (Nat.and_one_is_mod _).symm

theorem alloc_id (s : StreamIds) : s.alloc.1 = (searchFrom (· + 2) s.free 32768 s.start).getD 0 := by
  unfold alloc
  dsimp only
  rw [← start]
  cases searchFrom (· + 2) s.free 32768 s.start <;> rfl

theorem alloc_freshOrExhausted (s : StreamIds) : FreshOrExhausted s.accepted s.streams s.alloc.1 := by
  have hstart := s.start_parity
  have hparity := idParity_lt s.accepted
  rw [alloc_id]
  refine freshOrExhausted_of_search (fun i _ hfree => ?_) (fun b hb => ?_) (fun b hb => ?_)
  · rw [free, Bool.and_eq_true, bne_iff_ne] at hfree
    refine ⟨hfree.1, ?_⟩
    rw [iterate_add_two]
    omega
  · exact exists_iterate_add_two (by rw [hstart, hb.2])
  · simp [free, hb.1]

end StreamIds

namespace UdpFlows

variable {accepted : Bool} {id : UInt16}

theorem first_toNat (accepted : Bool) : (2 - idParity accepted).toNat = 2 - (idParity accepted).toNat := by
  cases accepted <;> rfl

/-- How many ids an end has. -/
def ownCount (accepted : Bool) : Nat := if accepted then 32767 else 32768

def index (accepted : Bool) (id : UInt16) : Nat := (id.toNat - (2 - (idParity accepted).toNat)) / 2

theorem toNat_eq_index (h : OwnId accepted id) :
    id.toNat = 2 - (idParity accepted).toNat + 2 * index accepted id ∧ index accepted id < ownCount accepted := by
  have hlt := id.toNat_lt
  have hne : id.toNat ≠ 0 := fun h0 => h.1 (UInt16.toNat_inj.mp h0)
  have hpar := h.2
  unfold index ownCount
  cases accepted
  · have : (idParity false).toNat = 1 := rfl
    simp only [Bool.false_eq_true, if_false]
    omega
  · have : (idParity true).toNat = 0 := rfl
    simp only [if_true]
    omega

theorem next_toNat (accepted : Bool) (id : UInt16) : (next (idParity accepted) id).toNat =
    if id.toNat + 2 > 65535 then 2 - (idParity accepted).toNat else id.toNat + 2 := by
  unfold next
  by_cases h : id.toNat + 2 > 65535
  · rw [if_pos h, if_pos h, first_toNat]
  · rw [if_neg h, if_neg h, UInt16.toNat_add]
    simp only [UInt16.toNat_ofNat]
    omega

theorem next_own (h : OwnId accepted id) : OwnId accepted (next (idParity accepted) id) ∧
    index accepted (next (idParity accepted) id) = (index accepted id + 1) % ownCount accepted := by
  obtain ⟨hid, hlt⟩ := toNat_eq_index h
  have hnext := next_toNat accepted id
  have hparity := idParity_lt accepted
  have hpar := h.2
  have hne : (next (idParity accepted) id).toNat ≠ 0 := by
    rw [hnext]
    split <;> omega
  refine ⟨⟨fun h0 => hne (by rw [h0]; rfl), ?_⟩, ?_⟩
  · rw [hnext]
    split <;> omega
  · rw [index, hnext]
    unfold ownCount at hlt ⊢
    cases accepted
    · have : (idParity false).toNat = 1 := rfl
      simp only [Bool.false_eq_true, if_false] at hlt ⊢
      split <;> omega
    · have : (idParity true).toNat = 0 := rfl
      simp only [if_true] at hlt ⊢
      split <;> omega

theorem iterate_next (h : OwnId accepted id) (i : Nat) : OwnId accepted ((next (idParity accepted))^[i] id) ∧
    index accepted ((next (idParity accepted))^[i] id) = (index accepted id + i) % ownCount accepted := by
  induction i with
  | zero => exact ⟨h, (Nat.mod_eq_of_lt (toNat_eq_index h).2).symm⟩
  | succ i ih =>
    rw [Function.iterate_succ_apply']
    obtain ⟨hown, hindex⟩ := next_own ih.1
    refine ⟨hown, ?_⟩
    rw [hindex, ih.2, Nat.mod_add_mod, Nat.add_assoc]

theorem exists_iterate_next {b : UInt16} (h : OwnId accepted id) (hb : OwnId accepted b) :
    ∃ i < 32768, (next (idParity accepted))^[i] id = b := by
  obtain ⟨-, hlt⟩ := toNat_eq_index h
  obtain ⟨hb', hblt⟩ := toNat_eq_index hb
  have hcount : ownCount accepted ≤ 32768 := by cases accepted <;> decide
  refine ⟨(index accepted b + (ownCount accepted - index accepted id)) % ownCount accepted,
    Nat.lt_of_lt_of_le (Nat.mod_lt _ (by omega)) hcount, ?_⟩
  obtain ⟨hown, hindex⟩ := iterate_next h ((index accepted b + (ownCount accepted - index accepted id)) % ownCount accepted)
  have hsame : index accepted id + (index accepted b + (ownCount accepted - index accepted id)) =
      index accepted b + ownCount accepted := by omega
  rw [Nat.add_mod_mod, hsame, Nat.add_mod_right, Nat.mod_eq_of_lt hblt] at hindex
  rw [← UInt16.toNat_inj, (toNat_eq_index hown).1, hindex, ← hb']

/-- The allocator is a search along its cursor. -/
theorem allocLoop_id (n : Nat) (f : UdpFlows) :
    (f.allocLoop n).1 = (searchFrom (next f.parity) (fun id => !f.byId id) n f.nextId).getD 0 := by
  induction n generalizing f with
  | zero => rfl
  | succ n ih =>
    rw [allocLoop, searchFrom]
    by_cases h : f.byId f.nextId = true
    · rw [if_pos h, if_neg (by simp [h]), ih]
    · rw [if_neg h, if_pos (by simpa using h)]
      rfl

/-- The cursor stands at an id of its end. -/
def Aligned (accepted : Bool) (f : UdpFlows) : Prop :=
  f.parity = idParity accepted ∧ OwnId accepted f.nextId

theorem Aligned.new (accepted : Bool) : Aligned accepted (new accepted) := by
  cases accepted <;> exact ⟨rfl, by decide, by decide⟩

theorem Aligned.allocLoop {f : UdpFlows} (h : Aligned accepted f) (n : Nat) : Aligned accepted (f.allocLoop n).2 := by
  induction n generalizing f with
  | zero => exact h
  | succ n ih =>
    have hnext : Aligned accepted { f with nextId := next f.parity f.nextId } := by
      refine ⟨h.1, ?_⟩
      rw [h.1]
      exact (next_own h.2).1
    rw [UdpFlows.allocLoop]
    dsimp only
    split
    · exact ih hnext
    · exact hnext

theorem Aligned.run (accepted : Bool) (es : List Event) : Aligned accepted (run accepted es) := by
  refine List.foldlRecOn es step (Aligned.new accepted) fun f hf e _ => ?_
  cases e with
  | alloc => exact hf.allocLoop 32768
  | table byId => exact hf

theorem allocId_freshOrExhausted {f : UdpFlows} (h : Aligned accepted f) :
    FreshOrExhausted accepted f.byId f.allocId.1 := by
  rw [allocId, allocLoop_id, h.1]
  exact freshOrExhausted_of_search (fun i _ _ => (iterate_next h.2 i).1) (fun b hb => exists_iterate_next h.2 hb)
    (fun b _ => rfl)

end UdpFlows

/-- Both allocators return an id of this end that is not in use, and report exhaustion exactly if there is
none: the stream allocator from any cursor, the flow allocator from every cursor it can have reached. -/
theorem alloc_fresh_and_complete (s : StreamIds) (accepted : Bool) (es : List UdpFlows.Event) :
    FreshOrExhausted s.accepted s.streams s.alloc.1 ∧
      FreshOrExhausted accepted (UdpFlows.run accepted es).byId (UdpFlows.run accepted es).allocId.1 :=
  ⟨s.alloc_freshOrExhausted, UdpFlows.allocId_freshOrExhausted (.run accepted es)⟩

end Multiplexd
