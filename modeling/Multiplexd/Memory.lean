import Multiplexd.Limits
import Multiplexd.Lib.Fallible

/-!
# Sizes and blocks of memory

A computation of `size_t` that would wrap, an access outside a block, a loop that does not come to its end
and an assertion that fails are faults here, so that a program which is shown to have none is shown to
avoid them.
-/

namespace Multiplexd

/-- What a program must not do. -/
inductive MemFault where
  | assertion
  | wraps
  | outOfBounds
  | diverges
deriving Repr, DecidableEq

/-- `PTRDIFF_MAX`, which no object is larger than. -/
def ptrdiffMax : Nat := 2 ^ 63 - 1

def checkSize (n : Nat) : Except MemFault Nat := if n ≤ sizeMax then .ok n else .error .wraps

/-- A difference of sizes. -/
def checkDiff (m n : Nat) : Except MemFault Nat := if n ≤ m then .ok (m - n) else .error .wraps

theorem checkSize_of_le {n : Nat} (h : n ≤ sizeMax) : checkSize n = .ok n := if_pos h

theorem checkDiff_of_le {m n : Nat} (h : n ≤ m) : checkDiff m n = .ok (m - n) := if_pos h

/-- `ASSERT` -/
def check (p : Bool) : Except MemFault Unit := if p then .ok () else .error .assertion

@[simp] theorem check_true : check true = .ok () := rfl

section Block

variable {β : Type}

def blockRead (block : List β) (i : Nat) : Except MemFault β :=
  match block[i]? with
  | some b => .ok b
  | none => .error .outOfBounds

/-- `n` entries from position `i` on. -/
def blockSlice (block : List β) (i n : Nat) : Except MemFault (List β) :=
  if i + n ≤ block.length then .ok ((block.drop i).take n) else .error .outOfBounds

def blockWrite (block : List β) (i : Nat) (xs : List β) : Except MemFault (List β) :=
  if i + xs.length ≤ block.length then .ok (block.take i ++ xs ++ block.drop (i + xs.length))
  else .error .outOfBounds

theorem blockRead_of_lt {block : List β} [Inhabited β] {i : Nat} (h : i < block.length) :
    blockRead block i = .ok (block.getD i default) := by
  rw [blockRead, List.getD_eq_getElem?_getD, List.getElem?_eq_getElem h]
  rfl

theorem blockWrite_singleton {block : List β} {i : Nat} (h : i < block.length) (b : β) :
    blockWrite block i [b] = .ok (block.set i b) := by
  have hset : block.take i ++ [b] ++ block.drop (i + 1) = block.set i b := by
    rw [List.append_assoc, List.set_eq_take_append_cons_drop, if_pos h]
    rfl
  rw [blockWrite, List.length_singleton, if_pos (Nat.succ_le_of_lt h), hset]

end Block

end Multiplexd
