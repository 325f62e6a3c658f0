import Mathlib.Tactic.Common
import Multiplexd.Limits

/-!
# The byte buffer

`struct bytebuf` of `frame.h`: a linear buffer whose readable bytes lie at `[off, off + len)`. It is
compacted, grown and shrunk between reads; none of this is seen in the bytes that can be read, which a
read extends at the end and a dispatched frame shortens at the front.
-/

namespace Multiplexd

/-- `struct bytebuf`, with its memory. -/
structure Bytebuf where
  off : Nat
  len : Nat
  cap : Nat
  data : List UInt8
  data_length : data.length = cap
  live_le : off + len ≤ cap

namespace Bytebuf

variable (b : Bytebuf)

/-- What `malloc` and `realloc` return is not read before it is written. -/
def unwritten (n : Nat) : List UInt8 := List.replicate n 0

def new (cap : Nat) : Bytebuf where
  off := 0
  len := 0
  cap := cap
  data := unwritten cap
  data_length := List.length_replicate
  live_le := Nat.zero_le _

def readable : List UInt8 := (b.data.drop b.off).take b.len

def writeSpace : Nat := b.cap - b.off - b.len

def reset : Bytebuf :=
  { b with off := 0, len := 0, live_le := Nat.zero_le _ }

/-- Bytes are written at `bytebuf_write_ptr`, and `bytebuf_produce` makes them readable. The read that
calls it was given no more than the write space. -/
def produce (bytes : List UInt8) : Bytebuf :=
  if h : bytes.length ≤ b.writeSpace then
    { b with
      len := b.len + bytes.length
      data := b.data.take (b.off + b.len) ++ bytes ++ b.data.drop (b.off + b.len + bytes.length)
      data_length := by
        have := b.data_length
        have := b.live_le
        simp only [writeSpace] at h
        simp only [List.length_append, List.length_take, List.length_drop]
        omega
      live_le := by
        have := b.live_le
        simp only [writeSpace] at h
        omega }
  else b

/-- `bytebuf_consume`, which asserts that the bytes are there. -/
def consume (n : Nat) : Bytebuf :=
  if h : n ≤ b.len then
    { b with
      off := if b.len - n = 0 then 0 else b.off + n
      len := b.len - n
      live_le := by
        have := b.live_le
        split <;> omega }
  else b

def compact : Bytebuf :=
  if b.off = 0 ∨ b.len = 0 then
    if b.len = 0 then b.reset else b
  else
    { b with
      off := 0
      data := b.readable ++ b.data.drop b.len
      data_length := by
        have := b.data_length
        have := b.live_le
        simp only [readable, List.length_append, List.length_take, List.length_drop]
        omega
      live_le := by
        have := b.live_le
        omega }

/-- The loop of `mux_bytebuf_reserve` that doubles the capacity. -/
def growCap (newCap minCap : Nat) : Nat :=
  if h : 0 < newCap ∧ newCap < minCap then
    if sizeMax / 2 < newCap then minCap else growCap (newCap * 2) minCap
  else newCap
termination_by minCap - newCap
decreasing_by omega

def resize (newCap : Nat) (h : b.off + b.len ≤ newCap) : Bytebuf :=
  { b with
    cap := newCap
    data := (b.data ++ unwritten (newCap - b.cap)).take newCap
    data_length := by
      have := b.data_length
      simp only [unwritten, List.length_take, List.length_append, List.length_replicate]
      omega
    live_le := h }

/-- `sizeof(struct bytebuf)`, three words. -/
def headerSize : Nat := 24

/-- The part of `mux_bytebuf_reserve` that reallocates; `granted` is the answer of `realloc`. -/
def grow? (need : Nat) (granted : Bool) : Option Bytebuf :=
  if sizeMax - b.len < need then none
  else
    let newCap := growCap (max b.cap 1) (b.len + need)
    if sizeMax - headerSize < newCap ∨ !granted then none
    else if h : b.off + b.len ≤ newCap then some (b.resize newCap h)
    else none

/-- `mux_bytebuf_reserve` with `can_grow` set. -/
def reserve (need : Nat) (granted : Bool) : Option Bytebuf :=
  if need = 0 ∨ need ≤ b.writeSpace then some b
  else if need ≤ b.compact.writeSpace then some b.compact
  else b.compact.grow? need granted

def shrink (targetCap : Nat) (granted : Bool) : Bytebuf :=
  let want := max b.len targetCap
  if b.cap ≤ want then b
  else
    let b := b.compact
    if h : granted = true ∧ b.off + b.len ≤ want then b.resize want h.2 else b

variable (b : Bytebuf)

@[simp] theorem readable_length : b.readable.length = b.len := by
  have := b.data_length
  have := b.live_le
  simp only [readable, List.length_take, List.length_drop]
  omega

@[simp] theorem readable_new (cap : Nat) : (new cap).readable = [] := rfl

@[simp] theorem readable_reset : b.reset.readable = [] := rfl

theorem readable_eq_nil (h : b.len = 0) : b.readable = [] :=
  List.eq_nil_of_length_eq_zero (by rw [readable_length, h])

theorem readable_produce {bytes : List UInt8} (h : bytes.length ≤ b.writeSpace) :
    (b.produce bytes).readable = b.readable ++ bytes := by
  have hdata := b.data_length
  have hlive := b.live_le
  have hhead : (b.data.take (b.off + b.len)).length = b.off + b.len := by
    rw [List.length_take]
    omega
  simp only [produce, dif_pos h, readable]
  rw [List.append_assoc, List.drop_append_of_le_length (by omega), List.drop_take, Nat.add_sub_cancel_left,
    ← List.append_assoc, List.take_append_of_le_length, List.take_of_length_le]
  all_goals simp only [List.length_append, List.length_take, List.length_drop]; omega

theorem readable_consume {n : Nat} (h : n ≤ b.len) : (b.consume n).readable = b.readable.drop n := by
  by_cases hall : b.len - n = 0
  · rw [List.drop_eq_nil_of_le (by rw [readable_length]; omega)]
    apply readable_eq_nil
    simp only [consume, dif_pos h, hall]
  · simp only [consume, dif_pos h, readable, if_neg hall, List.drop_take, List.drop_drop]

@[simp] theorem readable_compact : b.compact.readable = b.readable := by
  unfold compact
  split
  · split
    · rw [readable_reset, readable_eq_nil b (by assumption)]
    · rfl
  · exact List.take_left' b.readable_length

theorem compact_live : b.compact.off + b.compact.len = b.len := by
  unfold compact
  split
  · split <;> simp_all [reset]
  · simp

theorem compact_off : b.compact.off = 0 := by
  have hlen := congrArg List.length b.readable_compact
  have hlive := b.compact_live
  rw [readable_length, readable_length] at hlen
  omega

theorem readable_resize {newCap : Nat} (h : b.off + b.len ≤ newCap) :
    (b.resize newCap h).readable = b.readable := by
  have hdata := b.data_length
  have hlive := b.live_le
  simp only [resize, readable]
  rw [List.drop_take, List.take_take, Nat.min_eq_left (by omega), List.drop_append_of_le_length (by omega),
    List.take_append_of_le_length (by rw [List.length_drop]; omega)]

theorem grow?_eq_some {b b' : Bytebuf} {need : Nat} {granted : Bool} (h : b.grow? need granted = some b') :
    ∃ hfit, b' = b.resize (growCap (max b.cap 1) (b.len + need)) hfit ∧
      headerSize + growCap (max b.cap 1) (b.len + need) ≤ sizeMax := by
  unfold grow? at h
  dsimp only at h
  split_ifs at h with hlarge hheader hfit
  cases h
  have hmax : headerSize ≤ sizeMax := by decide
  exact ⟨hfit, rfl, by omega⟩

theorem readable_reserve {b b' : Bytebuf} {need : Nat} {granted : Bool} (h : b.reserve need granted = some b') :
    b'.readable = b.readable := by
  unfold reserve at h
  split_ifs at h
  · cases h
    rfl
  · cases h
    exact b.readable_compact
  · obtain ⟨hfit, rfl, _⟩ := grow?_eq_some h
    rw [readable_resize, readable_compact]

theorem readable_shrink (targetCap : Nat) (granted : Bool) :
    (b.shrink targetCap granted).readable = b.readable := by
  unfold shrink
  dsimp only
  split
  · rfl
  · split
    · rw [readable_resize, readable_compact]
    · exact b.readable_compact

theorem le_growCap {newCap minCap : Nat} (h : 0 < newCap) : minCap ≤ growCap newCap minCap := by
  fun_induction growCap newCap minCap with
  | case1 => exact Nat.le_refl _
  | case2 newCap hloop _ ih => exact ih (by omega)
  | case3 newCap hdone => omega

theorem need_le_writeSpace {b b' : Bytebuf} {need : Nat} {granted : Bool} (h : b.reserve need granted = some b') :
    need ≤ b'.writeSpace := by
  unfold reserve at h
  split_ifs at h with hroom hcompact
  · cases h
    omega
  · cases h
    exact hcompact
  · obtain ⟨hfit, rfl, _⟩ := grow?_eq_some h
    have hoff := b.compact_off
    have hgrown := @le_growCap (max b.compact.cap 1) (b.compact.len + need) (by omega)
    simp only [writeSpace, resize]
    omega

end Bytebuf

end Multiplexd
