import Multiplexd.Lib.Machine
import Multiplexd.Memory
import Multiplexd.Mux.Bytebuf

/-!
# The byte buffer is a queue of bytes

The functions of `frame.h` and `frame.c` on a byte buffer as the machine computes them: sizes that may
wrap, a block that may be overrun, a loop that may not end. None of that happens; on a buffer that is
well formed they compute what `Bytebuf.lean` says of it, so the bytes that can be read are those that were
produced and not consumed, in order.

What `realloc` answers is an input of each call.
-/

namespace Multiplexd

/-- `struct bytebuf` and its block, whatever they hold. -/
structure RawBytebuf where
  off : Nat
  len : Nat
  cap : Nat
  data : List UInt8
deriving Repr, DecidableEq

namespace RawBytebuf

variable (rb : RawBytebuf)

def reset : RawBytebuf := { rb with off := 0, len := 0 }

def writeSpace : Except MemFault Nat := do
  let behind ← checkDiff rb.cap rb.off
  checkDiff behind rb.len

/-- The bytes are written at `bytebuf_write_ptr`, and `bytebuf_produce` counts them. -/
def produce (bytes : List UInt8) : Except MemFault RawBytebuf := do
  let space ← rb.writeSpace
  check (bytes.length ≤ space)
  let start ← checkSize (rb.off + rb.len)
  let data ← blockWrite rb.data start bytes
  let len ← checkSize (rb.len + bytes.length)
  .ok { rb with len, data }

def consume (n : Nat) : Except MemFault RawBytebuf := do
  check (n ≤ rb.len)
  let off ← checkSize (rb.off + n)
  let len ← checkDiff rb.len n
  .ok { rb with off := if len = 0 then 0 else off, len }

def compact : Except MemFault RawBytebuf :=
  if rb.off = 0 ∨ rb.len = 0 then .ok (if rb.len = 0 then { rb with off := 0 } else rb)
  else do
    let live ← blockSlice rb.data rb.off rb.len
    let data ← blockWrite rb.data 0 live
    .ok { rb with off := 0, data }

/-- The loop of `mux_bytebuf_reserve`; it is given up after `fuel` rounds. -/
def growLoop : Nat → Nat → Nat → Except MemFault Nat
  | 0, _, _ => .error .diverges
  | fuel + 1, newCap, minCap =>
    if newCap < minCap then
      if sizeMax / 2 < newCap then .ok minCap
      else do
        let newCap ← checkSize (newCap * 2)
        growLoop fuel newCap minCap
    else .ok newCap

/-- `realloc` of the block to `size` bytes; the bytes that both have are kept. -/
def realloc (size : Nat) : List UInt8 :=
  (rb.data ++ Bytebuf.unwritten (size - Bytebuf.headerSize - rb.data.length)).take (size - Bytebuf.headerSize)

/-- The part of `mux_bytebuf_reserve` that reallocates. -/
def grow (need : Nat) (granted : Bool) : Except MemFault (Bool × RawBytebuf) := do
  let room ← checkDiff sizeMax rb.len
  if room < need then .ok (false, rb)
  else do
    let minCap ← checkSize (rb.len + need)
    let newCap ← growLoop 65 (if 0 < rb.cap then rb.cap else 1) minCap
    if sizeMax - Bytebuf.headerSize < newCap then .ok (false, rb)
    else do
      let size ← checkSize (Bytebuf.headerSize + newCap)
      if granted then .ok (true, { rb with cap := newCap, data := rb.realloc size }) else .ok (false, rb)

def reserve (need : Nat) (canGrow granted : Bool) : Except MemFault (Bool × RawBytebuf) := do
  let space ← rb.writeSpace
  if need = 0 ∨ need ≤ space then .ok (true, rb)
  else do
    let rb ← rb.compact
    let space ← rb.writeSpace
    if need ≤ space then .ok (true, rb)
    else if canGrow then rb.grow need granted
    else .ok (false, rb)

def shrink (targetCap : Nat) (granted : Bool) : Except MemFault RawBytebuf :=
  let want := if targetCap < rb.len then rb.len else targetCap
  if rb.cap ≤ want then .ok rb
  else do
    let rb ← rb.compact
    let size ← checkSize (Bytebuf.headerSize + want)
    .ok (if granted then { rb with cap := want, data := rb.realloc size } else rb)

def readable : List UInt8 := (rb.data.drop rb.off).take rb.len

end RawBytebuf

inductive BytebufOp where
  | reserve (need : Nat) (canGrow granted : Bool)
  | produce (bytes : List UInt8)
  | consume (n : Nat)
  | reset
  | shrink (targetCap : Nat) (granted : Bool)
deriving Repr, DecidableEq

namespace RawBytebuf

/-- A call; `mux_bytebuf_reserve` tells whether it succeeded. -/
def step (rb : RawBytebuf) : BytebufOp → Except MemFault (Bool × RawBytebuf)
  | .reserve need canGrow granted => rb.reserve need canGrow granted
  | .produce bytes => do
    let rb ← rb.produce bytes
    .ok (true, rb)
  | .consume n => do
    let rb ← rb.consume n
    .ok (true, rb)
  | .reset => .ok (true, rb.reset)
  | .shrink targetCap granted => do
    let rb ← rb.shrink targetCap granted
    .ok (true, rb)

end RawBytebuf

namespace Bytebuf

def raw (b : Bytebuf) : RawBytebuf where
  off := b.off
  len := b.len
  cap := b.cap
  data := b.data

/-- The block is no larger than a size can say. -/
def Fits (b : Bytebuf) : Prop := headerSize + b.cap ≤ sizeMax

theorem writeSpace_raw (b : Bytebuf) : b.raw.writeSpace = .ok b.writeSpace := by
  have hlive := b.live_le
  simp only [RawBytebuf.writeSpace, raw, checkDiff_of_le (show b.off ≤ b.cap by omega), Except.ok_bind,
    checkDiff_of_le (show b.len ≤ b.cap - b.off by omega), writeSpace]

variable {b : Bytebuf} {newCap need : Nat}

theorem produce_raw (hfits : b.Fits) {bytes : List UInt8} (hroom : bytes.length ≤ b.writeSpace) :
    b.raw.produce bytes = .ok (b.produce bytes).raw := by
  have hlive := b.live_le
  have hdata := b.data_length
  have hsizes : b.off + b.len ≤ sizeMax ∧ b.len + bytes.length ≤ sizeMax ∧
      b.off + b.len + bytes.length ≤ b.data.length := by
    unfold Fits headerSize at hfits
    unfold writeSpace at hroom
    omega
  have hwrite : blockWrite b.data (b.off + b.len) bytes =
      .ok (b.data.take (b.off + b.len) ++ bytes ++ b.data.drop (b.off + b.len + bytes.length)) :=
    if_pos hsizes.2.2
  simp only [RawBytebuf.produce, writeSpace_raw, Except.ok_bind, decide_eq_true hroom, check_true]
  simp only [raw, checkSize_of_le hsizes.1, checkSize_of_le hsizes.2.1, hwrite, Except.ok_bind, produce, dif_pos hroom]

theorem consume_raw (hfits : b.Fits) {n : Nat} (hn : n ≤ b.len) : b.raw.consume n = .ok (b.consume n).raw := by
  have hlive := b.live_le
  have hsize : b.off + n ≤ sizeMax := by
    unfold Fits at hfits
    omega
  have hcheck : check (n ≤ b.raw.len) = .ok () := if_pos (decide_eq_true hn)
  simp only [RawBytebuf.consume, hcheck, Except.ok_bind]
  simp only [raw, checkSize_of_le hsize, checkDiff_of_le hn, Except.ok_bind, consume, dif_pos hn]

theorem compact_raw (b : Bytebuf) : b.raw.compact = .ok b.compact.raw := by
  have hlive := b.live_le
  have hdata := b.data_length
  by_cases hfront : b.off = 0 ∨ b.len = 0
  · have hfront' : b.raw.off = 0 ∨ b.raw.len = 0 := hfront
    rw [RawBytebuf.compact, compact, if_pos hfront, if_pos hfront']
    by_cases hzero : b.len = 0
    · have hzero' : b.raw.len = 0 := hzero
      rw [if_pos hzero, if_pos hzero']
      simp only [raw, reset, hzero]
    · have hzero' : ¬ b.raw.len = 0 := hzero
      rw [if_neg hzero, if_neg hzero']
  · have hslice : blockSlice b.data b.off b.len = .ok b.readable := if_pos (by omega)
    have hwrite : blockWrite b.data 0 b.readable = .ok (b.readable ++ b.data.drop b.len) := by
      rw [blockWrite, if_pos (by rw [readable_length]; omega), readable_length, Nat.zero_add]
      rfl
    simp only [RawBytebuf.compact, compact, raw, if_neg hfront, hslice, hwrite, Except.ok_bind]

@[simp] theorem compact_cap (b : Bytebuf) : b.compact.cap = b.cap := by
  unfold compact
  split
  · split <;> rfl
  · rfl

theorem compact_len (b : Bytebuf) : b.compact.len = b.len := by
  have hlive := b.compact_live
  have hoff := b.compact_off
  omega

/-! ### Growing and shrinking -/

theorem growLoop_eq {minCap fuel : Nat} (hpos : 0 < newCap) (hmin : minCap ≤ sizeMax)
    (hfuel : sizeMax < newCap * 2 ^ fuel) : RawBytebuf.growLoop (fuel + 1) newCap minCap = .ok (growCap newCap minCap) := by
  induction fuel generalizing newCap with
  | zero =>
    rw [RawBytebuf.growLoop, growCap, if_neg (by omega), dif_neg (by omega)]
  | succ fuel ih =>
    rw [RawBytebuf.growLoop, growCap]
    by_cases hless : newCap < minCap
    · rw [if_pos hless, dif_pos ⟨hpos, hless⟩]
      by_cases hlarge : sizeMax / 2 < newCap
      · rw [if_pos hlarge, if_pos hlarge]
      · rw [if_neg hlarge, if_neg hlarge, checkSize_of_le (by omega), Except.ok_bind]
        refine ih (by omega) ?_
        rw [Nat.mul_assoc, ← Nat.pow_succ']
        exact hfuel
    · rw [if_neg hless, dif_neg (by omega)]

theorem resize_raw (b : Bytebuf) (h : b.off + b.len ≤ newCap) :
    (b.resize newCap h).raw = { b.raw with cap := newCap, data := b.raw.realloc (headerSize + newCap) } := by
  simp only [raw, resize, RawBytebuf.realloc, Nat.add_sub_cancel_left, b.data_length]

/-- `mux_bytebuf_reserve`, with what is left of the buffer when it fails. -/
def reserveOr (b : Bytebuf) (need : Nat) (canGrow granted : Bool) : Bool × Bytebuf :=
  if need = 0 ∨ need ≤ b.writeSpace then (true, b)
  else if need ≤ b.compact.writeSpace then (true, b.compact)
  else if canGrow then
    match b.reserve need granted with
    | some b' => (true, b')
    | none => (false, b.compact)
  else (false, b.compact)

/-- `mux_bytebuf_reserve` succeeds: there is room once the bytes are moved to the front, or the buffer may
grow, to a size that can be asked for, and is given the memory. -/
def Reserves (b : Bytebuf) (need : Nat) (canGrow granted : Bool) : Prop :=
  need ≤ b.cap - b.len ∨ canGrow ∧ granted ∧ b.len + need ≤ sizeMax ∧
    headerSize + growCap (max b.cap 1) (b.len + need) ≤ sizeMax

section

variable (hfits : b.Fits)
include hfits

theorem grow?_isSome (hoff : b.off = 0) (need : Nat) (granted : Bool) :
    (b.grow? need granted).isSome ↔ granted ∧ b.len + need ≤ sizeMax ∧
      headerSize + growCap (max b.cap 1) (b.len + need) ≤ sizeMax := by
  have hlive := b.live_le
  have hgrown := @le_growCap (max b.cap 1) (b.len + need) (by omega)
  unfold Fits headerSize at hfits
  unfold grow? headerSize
  dsimp only
  split_ifs with hlarge hheader hfit <;> cases granted <;> simp_all <;> omega

theorem grow_raw (hoff : b.off = 0) (need : Nat) (granted : Bool) :
    b.raw.grow need granted =
      match b.grow? need granted with
      | some b' => .ok (true, b'.raw)
      | none => .ok (false, b.raw) := by
  have hlive := b.live_le
  have hlen : b.len ≤ sizeMax := by
    unfold Fits at hfits
    omega
  unfold RawBytebuf.grow grow?
  rw [show b.raw.len = b.len from rfl, show b.raw.cap = b.cap from rfl, checkDiff_of_le hlen, Except.ok_bind]
  by_cases hlarge : sizeMax - b.len < need
  · rw [if_pos hlarge, if_pos hlarge]
  have hcap : (if 0 < b.cap then b.cap else 1) = max b.cap 1 := by
    split <;> omega
  have hmin : b.len + need ≤ sizeMax := by omega
  have hloop : RawBytebuf.growLoop 65 (max b.cap 1) (b.len + need) = .ok (growCap (max b.cap 1) (b.len + need)) := by
    refine growLoop_eq (by omega) hmin ?_
    have hone : 1 ≤ max b.cap 1 := by omega
    calc sizeMax < 1 * 2 ^ 64 := by decide
      _ ≤ max b.cap 1 * 2 ^ 64 := Nat.mul_le_mul_right _ hone
  rw [if_neg hlarge, if_neg hlarge, checkSize_of_le hmin, Except.ok_bind, hcap, hloop, Except.ok_bind]
  generalize hnew : growCap (max b.cap 1) (b.len + need) = newCap
  have hgrown : b.len + need ≤ newCap := hnew ▸ le_growCap (by omega)
  by_cases hheader : sizeMax - headerSize < newCap
  · simp [hheader]
  have hmax : headerSize ≤ sizeMax := by decide
  rw [if_neg hheader, checkSize_of_le (show headerSize + newCap ≤ sizeMax by omega), Except.ok_bind]
  cases granted with
  | false => simp [hheader]
  | true =>
    have hfit : b.off + b.len ≤ newCap := by omega
    simp only [hheader, Bool.not_true, Bool.false_eq_true, or_self, if_false, if_true, dif_pos hfit, resize_raw]
    rfl

theorem reserve_raw (need : Nat) (canGrow granted : Bool) :
    b.raw.reserve need canGrow granted =
      .ok ((b.reserveOr need canGrow granted).1, (b.reserveOr need canGrow granted).2.raw) := by
  unfold RawBytebuf.reserve reserveOr
  rw [writeSpace_raw, Except.ok_bind]
  by_cases hroom : need = 0 ∨ need ≤ b.writeSpace
  · rw [if_pos hroom, if_pos hroom]
  rw [if_neg hroom, if_neg hroom, compact_raw, Except.ok_bind, writeSpace_raw, Except.ok_bind]
  by_cases hcompact : need ≤ b.compact.writeSpace
  · rw [if_pos hcompact, if_pos hcompact]
  rw [if_neg hcompact, if_neg hcompact]
  cases canGrow with
  | false => rfl
  | true =>
    have hfits' : b.compact.Fits := by rwa [Fits, compact_cap]
    have hoff : b.compact.off = 0 := compact_off b
    simp only [if_true, grow_raw hfits' hoff, reserve, if_neg hroom, if_neg hcompact]
    cases b.compact.grow? need granted <;> rfl

theorem shrink_raw (targetCap : Nat) (granted : Bool) :
    b.raw.shrink targetCap granted = .ok (b.shrink targetCap granted).raw := by
  have hwant : (if targetCap < b.raw.len then b.raw.len else targetCap) = max b.len targetCap := by
    change (if targetCap < b.len then b.len else targetCap) = _
    split <;> omega
  have hlive := b.compact_live
  unfold RawBytebuf.shrink shrink
  dsimp only
  rw [hwant, show b.raw.cap = b.cap from rfl]
  by_cases hsmall : b.cap ≤ max b.len targetCap
  · rw [if_pos hsmall, if_pos hsmall]
  have hsize : headerSize + max b.len targetCap ≤ sizeMax := by
    unfold Fits at hfits
    omega
  rw [if_neg hsmall, if_neg hsmall, compact_raw, Except.ok_bind, checkSize_of_le hsize, Except.ok_bind]
  cases granted with
  | false => simp
  | true =>
    have hfit : b.compact.off + b.compact.len ≤ max b.len targetCap := by omega
    simp only [if_true, true_and, dif_pos hfit, resize_raw]

theorem reserveOr_spec (need : Nat) (canGrow granted : Bool) :
    (b.reserveOr need canGrow granted).2.readable = b.readable ∧ (b.reserveOr need canGrow granted).2.Fits ∧
      ((b.reserveOr need canGrow granted).1 = true → need ≤ (b.reserveOr need canGrow granted).2.writeSpace) := by
  have hfits' : b.compact.Fits := by rwa [Fits, compact_cap]
  unfold reserveOr
  split_ifs with hroom hcompact hgrow
  · exact ⟨rfl, hfits, fun _ => show need ≤ b.writeSpace by omega⟩
  · exact ⟨b.readable_compact, hfits', fun _ => hcompact⟩
  · split
    · rename_i b' hreserve
      refine ⟨readable_reserve hreserve, ?_, fun _ => need_le_writeSpace hreserve⟩
      rw [reserve, if_neg hroom, if_neg hcompact] at hreserve
      obtain ⟨hfit, rfl, hsize⟩ := grow?_eq_some hreserve
      exact hsize
    · exact ⟨b.readable_compact, hfits', nofun⟩
  · exact ⟨b.readable_compact, hfits', nofun⟩

theorem reserveOr_iff (need : Nat) (canGrow granted : Bool) :
    (b.reserveOr need canGrow granted).1 = true ↔ b.Reserves need canGrow granted := by
  have hfits' : b.compact.Fits := by rwa [Fits, compact_cap]
  have hspace : b.compact.writeSpace = b.cap - b.len := by
    rw [writeSpace, compact_off, compact_cap, compact_len, Nat.sub_zero]
  have hgrown := grow?_isSome hfits' b.compact_off need granted
  rw [compact_cap, compact_len] at hgrown
  unfold reserveOr Reserves
  split_ifs with hroom hcompact hgrow
  · have hle : need ≤ b.cap - b.len := by
      unfold writeSpace at hroom
      omega
    exact iff_of_true rfl (.inl hle)
  · exact iff_of_true rfl (.inl (hspace ▸ hcompact))
  · rw [or_iff_right (hspace ▸ hcompact), reserve, if_neg hroom, if_neg hcompact, ← hgrown]
    cases b.compact.grow? need granted <;> simp [hgrow]
  · rw [or_iff_right (hspace ▸ hcompact)]
    simp [hgrow]

theorem shrink_fits (targetCap : Nat) (granted : Bool) :
    (b.shrink targetCap granted).Fits := by
  have hfits' : b.compact.Fits := by rwa [Fits, compact_cap]
  unfold shrink
  dsimp only
  split_ifs with hsmall hgranted
  · exact hfits
  · change headerSize + max b.len targetCap ≤ sizeMax
    unfold Fits at hfits
    omega
  · exact hfits'

end

end Bytebuf

namespace RawBytebuf

def queueStep (q : List UInt8) : BytebufOp → List UInt8
  | .produce bytes => q ++ bytes
  | .consume n => q.drop n
  | .reset => []
  | .reserve _ _ _ | .shrink _ _ => q

def Misused (rb : RawBytebuf) : BytebufOp → Prop
  | .produce bytes => rb.cap - rb.off - rb.len < bytes.length
  | .consume n => rb.len < n
  | _ => False

def Sound (rb : RawBytebuf) : Prop := ∃ b : Bytebuf, b.raw = rb ∧ b.Fits

/-- What one call does, on any buffer that is well formed. -/
theorem step_spec {b : Bytebuf} (hfits : b.Fits) (op : BytebufOp) :
    (b.raw.step op = .error .assertion ∧ Misused b.raw op) ∨
      ∃ ok b', b.raw.step op = .ok (ok, Bytebuf.raw b') ∧ b'.Fits ∧ b'.readable = queueStep b.readable op := by
  cases op with
  | reserve need canGrow granted =>
    obtain ⟨hreadable, hfits', _⟩ := Bytebuf.reserveOr_spec hfits need canGrow granted
    exact .inr ⟨_, _, Bytebuf.reserve_raw hfits need canGrow granted, hfits', hreadable⟩
  | produce bytes =>
    by_cases hroom : bytes.length ≤ b.writeSpace
    · refine .inr ⟨true, b.produce bytes, ?_, ?_, b.readable_produce hroom⟩
      · simp only [step, Bytebuf.produce_raw hfits hroom, Except.ok_bind]
      · rw [Bytebuf.produce, dif_pos hroom]
        exact hfits
    · refine .inl ⟨?_, Nat.lt_of_not_le hroom⟩
      simp only [step, produce, Bytebuf.writeSpace_raw, Except.ok_bind, decide_eq_false hroom]
      rfl
  | consume n =>
    by_cases hn : n ≤ b.len
    · refine .inr ⟨true, b.consume n, ?_, ?_, b.readable_consume hn⟩
      · simp only [step, Bytebuf.consume_raw hfits hn, Except.ok_bind]
      · rw [Bytebuf.consume, dif_pos hn]
        exact hfits
    · refine .inl ⟨?_, Nat.lt_of_not_le hn⟩
      have hbeyond : ¬ n ≤ b.raw.len := hn
      have hcheck : check (n ≤ b.raw.len) = .error .assertion := if_neg (by simpa using hbeyond)
      simp only [step, consume, hcheck]
      rfl
  | reset => exact .inr ⟨true, b.reset, rfl, hfits, rfl⟩
  | shrink targetCap granted =>
    refine .inr ⟨true, b.shrink targetCap granted, ?_, Bytebuf.shrink_fits hfits targetCap granted,
      b.readable_shrink targetCap granted⟩
    simp only [step, Bytebuf.shrink_raw hfits, Except.ok_bind]

theorem step_refines :
    Refines step Sound readable (fun q op _ q' => q' = queueStep q op) fun rb op fault =>
      fault = .assertion ∧ Misused rb op where
  fault := by
    rintro _ op fault ⟨b, rfl, hfits⟩ hstep
    rcases step_spec hfits op with ⟨herror, hmisused⟩ | ⟨ok, b', hok, _⟩
    · rw [herror] at hstep
      cases hstep
      exact ⟨rfl, hmisused⟩
    · rw [hok] at hstep
      cases hstep
  answer := by
    rintro _ op answer rb' ⟨b, rfl, hfits⟩ hstep
    rcases step_spec hfits op with ⟨herror, _⟩ | ⟨ok, b', hok, hfits', hreadable⟩
    · rw [herror] at hstep
      cases hstep
    · rw [hok] at hstep
      cases hstep
      exact ⟨⟨b', rfl, hfits'⟩, hreadable⟩

/-- Whatever the allocator answers, a run is stopped by nothing but a call outside its contract: no size
wraps, no access leaves the block and every loop ends. What can be read is what was produced and not
consumed, in order, and `reserve` and `shrink` keep it; `reserve` fails only where there is no room and
the buffer may not grow, or not to a size that it is given. -/
theorem run_bytes (b : { b : Bytebuf // b.Fits }) (ops : List BytebufOp) :
    match runOps step b.1.raw ops with
    | .error fault =>
      fault = .assertion ∧ ∃ front op back answers rb, ops = front ++ op :: back ∧
        runOps step b.1.raw front = .ok (answers, rb) ∧ Misused rb op
    | .ok (_, rb) =>
      rb.readable = ops.foldl queueStep b.1.readable ∧ rb.readable.length = rb.len ∧
        (∀ need canGrow granted, ∃ ok rb' space, rb.reserve need canGrow granted = .ok (ok, rb') ∧
          rb'.readable = rb.readable ∧ rb'.writeSpace = .ok space ∧ (ok = true → need ≤ space) ∧
          (ok = true ↔ need ≤ rb.cap - rb.len ∨ canGrow ∧ granted ∧ rb.len + need ≤ sizeMax ∧
            Bytebuf.headerSize + Bytebuf.growCap (max rb.cap 1) (rb.len + need) ≤ sizeMax)) ∧
        ∀ targetCap granted, ∃ rb', rb.shrink targetCap granted = .ok rb' ∧ rb'.readable = rb.readable := by
  have hsound : Sound b.1.raw := ⟨b.1, rfl, b.2⟩
  cases hrun : runOps step b.1.raw ops with
  | error fault =>
    obtain ⟨front, op, back, answers, rb, hops, hfront, hfault, hmisused⟩ := step_refines.run_fault hsound hrun
    exact ⟨hfault, front, op, back, answers, rb, hops, hfront, hmisused⟩
  | ok result =>
    obtain ⟨answers, rb⟩ := result
    obtain ⟨⟨b', rfl, hfits⟩, hallowed⟩ := step_refines.run_answer hsound hrun
    refine ⟨hallowed.eq_foldl, b'.readable_length, fun need canGrow granted => ?_, fun targetCap granted => ?_⟩
    · obtain ⟨hreadable, _, hspace⟩ := Bytebuf.reserveOr_spec hfits need canGrow granted
      exact ⟨_, _, _, Bytebuf.reserve_raw hfits need canGrow granted, hreadable, Bytebuf.writeSpace_raw _, hspace,
        Bytebuf.reserveOr_iff hfits need canGrow granted⟩
    · exact ⟨_, Bytebuf.shrink_raw hfits targetCap granted, b'.readable_shrink targetCap granted⟩

/-- A buffer of four bytes is compacted and grown for a frame that does not fit. -/
example :
    runOps step (Bytebuf.new 4).raw [.produce [1, 2, 3], .consume 2, .reserve 8 true true, .produce [4]] =
      .ok ([true, true, true, true], { off := 0, len := 2, cap := 16, data := [3, 4, 3] ++ List.replicate 13 0 }) := by
  decide

end RawBytebuf

end Multiplexd
