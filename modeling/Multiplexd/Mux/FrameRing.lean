import Mathlib.Data.Nat.Bitwise
import Multiplexd.Lib.Circular
import Multiplexd.Lib.Machine
import Multiplexd.Memory

/-!
# The frame ring

`struct mux_frame_ring` of `frame.h`: pointers to frames in a block whose capacity is a power of two, with
the index of the oldest and the number of entries. A push that finds it full moves the entries to a block
of twice the size, in order and from index 0; an allocation that fails leaves the ring as it was.

`α` is what the pointers point to; NULL is `none`. What `malloc` answers is an input of each push, and it
grants nothing larger than PTRDIFF_MAX.
-/

namespace Multiplexd

/-- `struct mux_frame_ring` -/
structure FrameRing (α : Type) where
  capacity : Nat
  head : Nat
  count : Nat
  entries : List (Option α)
deriving Repr, DecidableEq

namespace FrameRing

variable {α : Type}

/-- `MUX_FRAME_RING_MIN` -/
def ringMin : Nat := 16

/-- `sizeof(struct mux_frame_ring)` -/
def headerSize : Nat := 24

/-- `sizeof(struct mux_frame *)` -/
def pointerSize : Nat := 8

/-- The size of the block of a ring. -/
def blockSize (cap : Nat) : Except MemFault Nat := do
  let entries ← checkSize (cap * pointerSize)
  checkSize (headerSize + entries)

/-- The entries that `malloc` makes room for. -/
def malloc (size : Nat) (granted : Bool) : Option Nat :=
  if granted ∧ size ≤ ptrdiffMax then some ((size - headerSize) / pointerSize) else none

def new (cap : Nat) (granted : Bool) : Except MemFault (Option (FrameRing α)) := do
  check (cap != 0 && cap &&& (cap - 1) == 0)
  let block ← blockSize cap
  match malloc block granted with
  | none => .ok none
  | some room =>
    let entries ← blockWrite (List.replicate room none) 0 (List.replicate cap none)
    .ok (some { capacity := cap, head := 0, count := 0, entries })

/-- The entry at `(head + offset) & (capacity - 1)`. -/
def slot (r : FrameRing α) (offset : Nat) : Except MemFault (Option α) := do
  let i ← checkSize (r.head + offset)
  let mask ← checkDiff r.capacity 1
  blockRead r.entries (i &&& mask)

def linearise : Option (FrameRing α) → Except MemFault (List (Option α))
  | none => .ok []
  | some r => (List.range r.count).mapM r.slot

def size : Option (FrameRing α) → Nat
  | none => 0
  | some r => r.count

def grow (rp : Option (FrameRing α)) (granted : Bool) : Except MemFault (Option (FrameRing α)) := do
  let oldCap := rp.elim 0 capacity
  check (rp.isNone || oldCap &&& (oldCap - 1) == 0)
  let newCap ← if 0 < oldCap then checkSize (oldCap * 2) else .ok ringMin
  let block ← blockSize newCap
  match malloc block granted with
  | none => .ok none
  | some room =>
    let moved ← linearise rp
    let rest ← checkDiff newCap (size rp)
    let entries ← blockWrite (List.replicate room none) 0 (moved ++ List.replicate rest none)
    .ok (some { capacity := newCap, head := 0, count := size rp, entries })

def peek (rp : Option (FrameRing α)) (offset : Nat) : Except MemFault (Option α) :=
  match rp with
  | none => .ok none
  | some r =>
    if r.count = 0 then .ok none
    else do
      check (offset < r.count)
      r.slot offset

/-- The end of `mux_frame_ring_push`, on a ring with room. -/
def append (r : FrameRing α) (frame : Option α) : Except MemFault (FrameRing α) := do
  let i ← checkSize (r.head + r.count)
  let mask ← checkDiff r.capacity 1
  let entries ← blockWrite r.entries (i &&& mask) [frame]
  let count ← checkSize (r.count + 1)
  .ok { r with entries, count }

/-- `mux_frame_ring_push`: the answer, and what `*rp` is then. -/
def push (rp : Option (FrameRing α)) (frame : Option α) (granted : Bool) :
    Except MemFault (Bool × Option (FrameRing α)) := do
  let first ← match rp with
    | none => new ringMin granted
    | some r => .ok (some r)
  match first with
  | none => .ok (false, rp)
  | some r =>
    if r.capacity ≤ r.count then
      match ← grow (some r) granted with
      | none => .ok (false, some r)
      | some nr => .ok (true, some (← nr.append frame))
    else .ok (true, some (← r.append frame))

def pop (rp : Option (FrameRing α)) : Except MemFault (Option α × Option (FrameRing α)) :=
  match rp with
  | none => .ok (none, none)
  | some r =>
    if r.count = 0 then .ok (none, some r)
    else do
      let f ← blockRead r.entries r.head
      let entries ← blockWrite r.entries r.head [none]
      let i ← checkSize (r.head + 1)
      let mask ← checkDiff r.capacity 1
      let count ← checkDiff r.count 1
      .ok (f, some { r with entries, head := i &&& mask, count })

end FrameRing

inductive RingOp (α : Type) where
  | push (frame : Option α) (granted : Bool)
  | pop
  | peek (offset : Nat)
deriving Repr, DecidableEq

inductive RingAnswer (α : Type) where
  | pushed (ok : Bool)
  | frame (f : Option α)
deriving Repr, DecidableEq

namespace FrameRing

variable {α : Type}

def step (rp : Option (FrameRing α)) : RingOp α → Except MemFault (RingAnswer α × Option (FrameRing α))
  | .push frame granted => do
    let (ok, rp) ← push rp frame granted
    .ok (.pushed ok, rp)
  | .pop => do
    let (f, rp) ← pop rp
    .ok (.frame f, rp)
  | .peek offset => do
    let f ← peek rp offset
    .ok (.frame f, rp)

structure Wf (r : FrameRing α) : Prop where
  pow : ∃ k, r.capacity = 2 ^ k
  block : r.entries.length = r.capacity
  head_lt : r.head < r.capacity
  count_le : r.count ≤ r.capacity
  fits : headerSize + r.capacity * pointerSize ≤ ptrdiffMax

def contents (r : FrameRing α) : List (Option α) := Circular.view r.entries r.head r.count

variable {r : FrameRing α} {granted : Bool} {rp : Option (FrameRing α)}

theorem land_capacity (h : r.Wf) (i : Nat) : i &&& (r.capacity - 1) = i % r.entries.length := by
  obtain ⟨k, hk⟩ := h.pow
  rw [h.block, hk, Nat.and_two_pow_sub_one_eq_mod]

theorem capacity_le (h : r.Wf) : r.capacity ≤ ptrdiffMax / pointerSize := by
  have hfits := h.fits
  unfold pointerSize at *
  omega

theorem slot_eq (h : r.Wf) {offset : Nat} (hoffset : offset ≤ r.capacity) :
    r.slot offset = .ok (r.entries.getD ((r.head + offset) % r.entries.length) default) := by
  have hcap := capacity_le h
  have hhead := h.head_lt
  have hsum : r.head + offset ≤ sizeMax := by
    unfold ptrdiffMax pointerSize at hcap
    unfold sizeMax
    omega
  have hlt : (r.head + offset) % r.entries.length < r.entries.length := Nat.mod_lt _ (by rw [h.block]; omega)
  simp only [slot, checkSize_of_le hsum, checkDiff_of_le (show 1 ≤ r.capacity by omega), Except.ok_bind,
    land_capacity h, blockRead_of_lt hlt]

theorem linearise_eq (h : r.Wf) : linearise (some r) = .ok r.contents := by
  refine Except.mapM_eq_map fun k hk => slot_eq h ?_
  have hcount := h.count_le
  rw [List.mem_range] at hk
  omega

theorem blockSize_eq {cap : Nat} (h : headerSize + cap * pointerSize ≤ sizeMax) :
    blockSize cap = .ok (headerSize + cap * pointerSize) := by
  simp only [blockSize, checkSize_of_le (show cap * pointerSize ≤ sizeMax by omega), Except.ok_bind,
    checkSize_of_le h]

/-- There is memory for a block of `cap` entries. -/
def Granted (cap : Nat) (granted : Bool) : Prop := granted ∧ headerSize + cap * pointerSize ≤ ptrdiffMax

theorem malloc_eq_some {cap room : Nat} (h : malloc (headerSize + cap * pointerSize) granted = some room) :
    room = cap ∧ Granted cap granted := by
  unfold malloc at h
  split_ifs at h with hgranted
  cases h
  refine ⟨?_, hgranted⟩
  rw [Nat.add_sub_cancel_left]
  exact Nat.mul_div_cancel _ (by decide)

theorem malloc_eq_none {cap : Nat} (h : malloc (headerSize + cap * pointerSize) granted = none) :
    ¬ Granted cap granted := by
  intro hgranted
  unfold malloc at h
  split_ifs at h with hno
  exact hno hgranted

theorem blockWrite_whole {β : Type} {block xs : List β} (h : block.length = xs.length) : blockWrite block 0 xs = .ok xs := by
  rw [blockWrite, Nat.zero_add, if_pos (by omega), List.take_zero, List.nil_append,
    List.drop_eq_nil_of_le (by omega), List.append_nil]

/-- The first ring. -/
theorem new_spec (granted : Bool) :
    (new (α := α) ringMin granted = .ok none ∧ ¬ Granted ringMin granted) ∨
      ∃ r : FrameRing α, new ringMin granted = .ok (some r) ∧ r.Wf ∧ r.contents = [] ∧ r.count < r.capacity ∧
        Granted ringMin granted ∧ r.capacity = ringMin := by
  have hblock : blockSize ringMin = .ok (headerSize + ringMin * pointerSize) := blockSize_eq (by decide)
  have hcheck : check (ringMin != 0 && ringMin &&& (ringMin - 1) == 0) = .ok () := rfl
  have hpos : 0 < ringMin := by decide
  simp only [new, hcheck, hblock, Except.ok_bind]
  cases hmalloc : malloc (headerSize + ringMin * pointerSize) granted with
  | none => exact .inl ⟨rfl, malloc_eq_none hmalloc⟩
  | some room =>
    obtain ⟨rfl, hgranted⟩ := malloc_eq_some hmalloc
    refine .inr ⟨{ capacity := ringMin, head := 0, count := 0, entries := List.replicate ringMin none },
      ?_, ?_, rfl, hpos, hgranted, rfl⟩
    · dsimp only
      rw [blockWrite_whole (by simp), Except.ok_bind]
    · exact { pow := ⟨4, rfl⟩, block := by simp, head_lt := hpos, count_le := Nat.zero_le _, fits := hgranted.2 }

/-- Growth fails and leaves the ring, or moves the frames to twice the room. -/
theorem grow_spec (h : r.Wf) (granted : Bool) :
    (grow (some r) granted = .ok none ∧ ¬ Granted (r.capacity * 2) granted) ∨
      ∃ nr, grow (some r) granted = .ok (some nr) ∧ nr.Wf ∧ nr.contents = r.contents ∧ nr.count = r.count ∧
        Granted (r.capacity * 2) granted ∧ nr.capacity = r.capacity * 2 := by
  have hcap := capacity_le h
  have hhead := h.head_lt
  have hcount := h.count_le
  have hdouble : r.capacity * 2 ≤ sizeMax ∧ headerSize + r.capacity * 2 * pointerSize ≤ sizeMax := by
    have hfits := h.fits
    unfold ptrdiffMax headerSize pointerSize at hfits
    unfold sizeMax headerSize pointerSize
    omega
  have hpow : r.capacity &&& (r.capacity - 1) = 0 := by
    rw [land_capacity h, h.block, Nat.mod_self]
  have hcheck : check ((some r).isNone || r.capacity &&& (r.capacity - 1) == 0) = .ok () := by
    rw [hpow]
    rfl
  have hmoved : blockWrite (List.replicate (r.capacity * 2) none) 0
      (r.contents ++ List.replicate (r.capacity * 2 - r.count) none) =
        .ok (r.contents ++ List.replicate (r.capacity * 2 - r.count) none) := by
    apply blockWrite_whole
    rw [List.length_append, List.length_replicate, List.length_replicate, contents, Circular.view_length]
    omega
  have hdouble_pos : 0 < r.capacity := by omega
  simp only [grow, Option.elim_some, hcheck, if_pos hdouble_pos, checkSize_of_le hdouble.1, blockSize_eq hdouble.2,
    Except.ok_bind]
  cases hmalloc : malloc (headerSize + r.capacity * 2 * pointerSize) granted with
  | none => exact .inl ⟨rfl, malloc_eq_none hmalloc⟩
  | some room =>
    obtain ⟨rfl, hgranted⟩ := malloc_eq_some hmalloc
    refine .inr ⟨{ capacity := r.capacity * 2, head := 0, count := r.count
                   entries := r.contents ++ List.replicate (r.capacity * 2 - r.count) none },
      ?_, ?_, ?_, rfl, hgranted, rfl⟩
    · simp only [linearise_eq h, size, checkDiff_of_le (show r.count ≤ r.capacity * 2 by omega), hmoved, Except.ok_bind]
    · obtain ⟨k, hk⟩ := h.pow
      refine { pow := ⟨k + 1, by rw [hk, Nat.pow_succ]⟩, block := ?_, head_lt := ?_, count_le := ?_, fits := hgranted.2 }
      · rw [List.length_append, List.length_replicate, contents, Circular.view_length]
        dsimp only
        omega
      · dsimp only
        omega
      · dsimp only
        omega
    · have hview := Circular.view_append r.contents (List.replicate (r.capacity * 2 - r.count) none)
      rw [contents, Circular.view_length] at hview
      exact hview

theorem append_spec (h : r.Wf) (hroom : r.count < r.capacity) (frame : Option α) :
    ∃ r', r.append frame = .ok r' ∧ r'.Wf ∧ r'.contents = r.contents ++ [frame] ∧ r'.capacity = r.capacity := by
  have hcap := capacity_le h
  have hhead := h.head_lt
  have hsum : r.head + r.count ≤ sizeMax ∧ r.count + 1 ≤ sizeMax := by
    unfold ptrdiffMax pointerSize at hcap
    unfold sizeMax
    omega
  have hlt : (r.head + r.count) % r.entries.length < r.entries.length := Nat.mod_lt _ (by rw [h.block]; omega)
  refine ⟨{ r with entries := r.entries.set ((r.head + r.count) % r.entries.length) frame, count := r.count + 1 },
    ?_, ?_, Circular.view_push r.head (by rw [h.block]; exact hroom) frame, rfl⟩
  · simp only [append, checkSize_of_le hsum.1, checkSize_of_le hsum.2,
      checkDiff_of_le (show 1 ≤ r.capacity by omega), land_capacity h, blockWrite_singleton hlt, Except.ok_bind]
  · exact { h with block := by rw [List.length_set, h.block], count_le := hroom }

def held : Option (FrameRing α) → List (Option α)
  | none => []
  | some r => r.contents

/-- A ring that is there is in its block. -/
def Sound (rp : Option (FrameRing α)) : Prop := ∀ r ∈ rp, r.Wf

theorem held_length (rp : Option (FrameRing α)) : (held rp).length = size rp := by
  cases rp with
  | none => rfl
  | some r => exact Circular.view_length ..

/-- The entries a ring has room for, and those it has room for once it has grown. -/
def room (rp : Option (FrameRing α)) : Nat := rp.elim 0 capacity

def grownTo (cap : Nat) : Nat := if 0 < cap then cap * 2 else ringMin

/-- A push fails only where there is no room and no memory for more. -/
theorem push_spec (h : Sound rp) (frame : Option α) (granted : Bool) :
    (push rp frame granted = .ok (false, rp) ∧ room rp ≤ size rp ∧ ¬ Granted (grownTo (room rp)) granted) ∨
      ∃ r, push rp frame granted = .ok (true, some r) ∧ r.Wf ∧ r.contents = held rp ++ [frame] ∧
        (size rp < room rp ∧ r.capacity = room rp ∨
          room rp ≤ size rp ∧ Granted (grownTo (room rp)) granted ∧ r.capacity = grownTo (room rp)) := by
  cases rp with
  | none =>
    rcases new_spec (α := α) granted with ⟨hnone, hno⟩ | ⟨r, hnew, hwf, hempty, hroom, hgranted, hcap⟩
    · left
      simp only [push, hnone, Except.ok_bind]
      exact ⟨trivial, Nat.le_refl 0, hno⟩
    · right
      obtain ⟨r', happend, hwf', hcontents, hcap'⟩ := append_spec hwf hroom frame
      refine ⟨r', ?_, hwf', ?_, .inr ⟨Nat.le_refl 0, hgranted, hcap'.trans hcap⟩⟩
      · simp only [push, hnew, Except.ok_bind, if_neg (Nat.not_le_of_lt hroom), happend]
      · rw [hcontents, hempty]
        rfl
  | some r =>
    have hwf := h r rfl
    have hgrown : grownTo (room (some r)) = r.capacity * 2 := if_pos (Nat.zero_lt_of_lt hwf.head_lt)
    rw [hgrown]
    by_cases hfull : r.capacity ≤ r.count
    · rcases grow_spec hwf granted with ⟨hnone, hno⟩ | ⟨nr, hgrow, hnwf, hsame, hcount, hgranted, hcap⟩
      · left
        simp only [push, Except.ok_bind, if_pos hfull, hnone]
        exact ⟨trivial, hfull, hno⟩
      · right
        have hle := hwf.count_le
        have hhead := hwf.head_lt
        obtain ⟨r', happend, hwf', hcontents, hcap'⟩ := append_spec hnwf (by omega) frame
        refine ⟨r', ?_, hwf', ?_, .inr ⟨hfull, hgranted, hcap'.trans hcap⟩⟩
        · simp only [push, Except.ok_bind, if_pos hfull, hgrow, happend]
        · rw [hcontents, hsame]
          rfl
    · right
      obtain ⟨r', happend, hwf', hcontents, hcap'⟩ := append_spec hwf (by omega) frame
      refine ⟨r', ?_, hwf', hcontents, .inl ⟨Nat.lt_of_not_le hfull, hcap'⟩⟩
      simp only [push, Except.ok_bind, if_neg hfull, happend]

theorem pop_spec (h : Sound rp) :
    ∃ rp', pop rp = .ok ((held rp).head?.join, rp') ∧ Sound rp' ∧ held rp' = (held rp).tail ∧ room rp' = room rp := by
  cases rp with
  | none => exact ⟨none, rfl, nofun, rfl, rfl⟩
  | some r =>
    have hwf := h r rfl
    by_cases hempty : r.count = 0
    · have hheld : r.contents = [] := by
        rw [contents, hempty, Circular.view_zero]
      refine ⟨some r, ?_, h, ?_, rfl⟩
      · simp [pop, hempty, held, hheld]
      · simp [held, hheld]
    · obtain ⟨n, hn⟩ : ∃ n, r.count = n + 1 := ⟨r.count - 1, by omega⟩
      have hcap := capacity_le hwf
      have hhead : r.head < r.entries.length := hwf.block ▸ hwf.head_lt
      have hle := hwf.count_le
      have hsum : r.head + 1 ≤ sizeMax := by
        have hlt := hwf.head_lt
        unfold ptrdiffMax pointerSize at hcap
        unfold sizeMax
        omega
      have hheld : r.contents = r.entries.getD r.head default ::
          Circular.view r.entries ((r.head + 1) % r.entries.length) n := by
        rw [contents, hn, Circular.view_succ r.entries hhead]
      refine ⟨some { r with entries := r.entries.set r.head none, head := (r.head + 1) % r.entries.length, count := n },
        ?_, ?_, ?_, rfl⟩
      · simp only [pop, blockRead_of_lt hhead, blockWrite_singleton hhead, checkSize_of_le hsum,
          checkDiff_of_le (show 1 ≤ r.capacity by omega), Except.ok_bind, land_capacity hwf, held, hheld, hn]
        rfl
      · rintro _ ⟨⟩
        exact
          { hwf with
            block := by rw [List.length_set, hwf.block]
            head_lt := hwf.block ▸ Nat.mod_lt _ (by omega)
            count_le := by dsimp only; omega }
      · have hcleared := Circular.view_set_head hhead (show n < r.entries.length by rw [hwf.block]; omega) none
        rw [held, held, hheld]
        exact hcleared

theorem peek_spec (h : Sound rp) (offset : Nat) : peek rp offset =
      if held rp = [] ∨ offset < size rp then .ok (held rp)[offset]?.join else .error .assertion := by
  cases rp with
  | none => simp [peek, held]
  | some r =>
    have hwf := h r rfl
    have hle := hwf.count_le
    by_cases hempty : r.count = 0
    · have hheld : r.contents = [] := by
        rw [contents, hempty, Circular.view_zero]
      simp [peek, hempty, held, hheld]
    · have hheld : held (some r) ≠ [] := by
        intro hnil
        have hlength := congrArg List.length hnil
        rw [held, contents, Circular.view_length] at hlength
        exact hempty hlength
      by_cases hoffset : offset < r.count
      · rw [if_pos (.inr hoffset)]
        simp only [peek, if_neg hempty, decide_eq_true hoffset, check_true, Except.ok_bind,
          slot_eq hwf (show offset ≤ r.capacity by omega), held, contents,
          Circular.view_getElem? r.entries r.head hoffset]
        rfl
      · rw [if_neg (by simp [hheld, size, hoffset])]
        simp only [peek, if_neg hempty, decide_eq_false hoffset]
        rfl

/-- A queue with the entries its ring has room for. Without room a push needs memory for a larger block, and
fails where there is none. -/
def FifoStep : List (Option α) × Nat → RingOp α → RingAnswer α → List (Option α) × Nat → Prop
  | (q, cap), .push frame granted, .pushed true, (q', cap') =>
    q' = q ++ [frame] ∧
      (q.length < cap ∧ cap' = cap ∨ cap ≤ q.length ∧ Granted (grownTo cap) granted ∧ cap' = grownTo cap)
  | (q, cap), .push _ granted, .pushed false, (q', cap') =>
    q' = q ∧ cap' = cap ∧ cap ≤ q.length ∧ ¬ Granted (grownTo cap) granted
  | (q, cap), .pop, .frame f, (q', cap') => f = q.head?.join ∧ q' = q.tail ∧ cap' = cap
  | (q, cap), .peek k, .frame f, (q', cap') => f = q[k]?.join ∧ q' = q ∧ cap' = cap
  | _, _, _, _ => False

def queue (rp : Option (FrameRing α)) : List (Option α) × Nat := (held rp, room rp)

def BeyondLast (rp : Option (FrameRing α)) (op : RingOp α) (fault : MemFault) : Prop :=
  fault = .assertion ∧ ∃ k, op = .peek k ∧ held rp ≠ [] ∧ size rp ≤ k

theorem step_refines : Refines (step (α := α)) Sound queue FifoStep BeyondLast where
  fault := by
    intro rp op fault h hstep
    cases op with
    | push frame granted =>
      rcases push_spec h frame granted with ⟨hpush, _⟩ | ⟨r, hpush, _⟩ <;> simp [step, hpush] at hstep
    | pop =>
      obtain ⟨rp', hpop, _⟩ := pop_spec h
      simp [step, hpop] at hstep
    | peek k =>
      rw [step, peek_spec h] at hstep
      split_ifs at hstep with hwithin
      · cases hstep
      · cases hstep
        push Not at hwithin
        exact ⟨rfl, k, rfl, hwithin⟩
  answer := by
    intro rp op answer rp' h hstep
    cases op with
    | push frame granted =>
      rcases push_spec h frame granted with ⟨hpush, hno⟩ | ⟨r, hpush, hwf, hheld, hcap⟩
      · rw [step, hpush] at hstep
        cases hstep
        rw [← held_length rp] at hno
        exact ⟨h, rfl, rfl, hno⟩
      · rw [step, hpush] at hstep
        cases hstep
        rw [← held_length rp] at hcap
        refine ⟨?_, hheld, hcap⟩
        rintro _ ⟨⟩
        exact hwf
    | pop =>
      obtain ⟨rp', hpop, hsound, hheld, hcap⟩ := pop_spec h
      rw [step, hpop] at hstep
      cases hstep
      exact ⟨hsound, rfl, hheld, hcap⟩
    | peek k =>
      rw [step, peek_spec h] at hstep
      split_ifs at hstep with hwithin
      · cases hstep
        exact ⟨h, rfl, rfl, rfl⟩
      · cases hstep

/-- Growth keeps what every index peeks. -/
theorem peek_grow {nr : FrameRing α} (h : r.Wf) (hgrow : grow (some r) granted = .ok (some nr))
    (k : Nat) : peek (some nr) k = peek (some r) k := by
  have hr : Sound (some r) := by
    rintro _ ⟨⟩
    exact h
  rcases grow_spec h granted with ⟨hnone, _⟩ | ⟨nr', hsome, hwf, hcontents, hcount, _⟩
  · rw [hnone] at hgrow
    cases hgrow
  · rw [hsome] at hgrow
    cases hgrow
    have hnr : Sound (some nr) := by
      rintro _ ⟨⟩
      exact hwf
    rw [peek_spec hr, peek_spec hnr, held, held, hcontents, size, size, hcount]

/-- From any ring in its block, or none, and whatever the allocator answers: a run is stopped by nothing but
a peek beyond the last frame; its answers are those of a queue that refuses a frame only where it has no room
and no memory to grow; what `peek` reads is the queue; and growth changes what no index reads. -/
theorem run_fifo (rp : Option { r : FrameRing α // r.Wf }) (ops : List (RingOp α)) :
    match runOps step (rp.map Subtype.val) ops with
    | .error fault =>
      fault = .assertion ∧ ∃ front k back answers rp', ops = front ++ .peek k :: back ∧
        runOps step (rp.map Subtype.val) front = .ok (answers, rp') ∧ size rp' ≤ k
    | .ok (answers, rp') =>
      Allowed FifoStep (queue (rp.map Subtype.val)) ops answers (queue rp') ∧
        size rp' = (held rp').length ∧ (∀ k < size rp', peek rp' k = .ok (held rp')[k]?.join) ∧
        ∀ r granted nr, rp' = some r → grow (some r) granted = .ok (some nr) →
          ∀ k, peek (some nr) k = peek (some r) k := by
  have hsound : Sound (rp.map Subtype.val) := by
    intro r hr
    obtain ⟨r', _, rfl⟩ := Option.map_eq_some_iff.1 hr
    exact r'.2
  cases hrun : runOps step (rp.map Subtype.val) ops with
  | error fault =>
    obtain ⟨front, op, back, answers, rp', hops, hfront, hfault, k, rfl, _, hk⟩ := step_refines.run_fault hsound hrun
    exact ⟨hfault, front, k, back, answers, rp', hops, hfront, hk⟩
  | ok result =>
    obtain ⟨answers, rp'⟩ := result
    obtain ⟨hsound', hallowed⟩ := step_refines.run_answer hsound hrun
    refine ⟨hallowed, ?_, fun k hk => ?_, fun r granted nr hr hgrow => ?_⟩
    · exact (held_length rp').symm
    · rw [peek_spec hsound', if_pos (.inr hk)]
    · exact peek_grow (hsound' r hr) hgrow

/-- A full ring whose entries wrap is pushed to, and grows. -/
example :
    runOps step (some { capacity := 2, head := 1, count := 2, entries := [some 1, some 0] })
        [.push (some 2) true, .peek 0, .peek 2, .pop] =
      .ok ([.pushed true, .frame (some 0), .frame (some 2), .frame (some 0)],
        some { capacity := 4, head := 1, count := 2, entries := [none, some 1, some 2, none] }) := by
  decide

end FrameRing

end Multiplexd
