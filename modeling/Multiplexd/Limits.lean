import Mathlib.Algebra.Order.Ring.Nat

/-!
# Limits

Sizes and counters are natural numbers or integers in this development; where the source depends on the
width of a type, its limit is named here. `size_t` and `int_fast64_t` have 64 bits. The limits of
`mux.h` and `frame.h` that the configuration checks and the session relies on follow.
-/

namespace Multiplexd

/-- `SIZE_MAX` -/
def sizeMax : Nat := 2 ^ 64 - 1

/-- `INT_FAST64_MAX` -/
def int64Max : Int := 2 ^ 63 - 1

/-- A value of `size_t`, if it fits. -/
def size? (n : Nat) : Option Nat := if n ≤ sizeMax then some n else none

def sizeSub? (m n : Nat) : Option Nat := if n ≤ m then some (m - n) else none

def int64? (x : Int) : Option Int := if 0 ≤ x ∧ x ≤ int64Max then some x else none

/-- `MUX_FRAME_HEADER_SIZE`. -/
def frameHeaderSize : Nat := 8
/-- `MUX_WINDOW_UNIT`. -/
def windowUnit : Nat := 16384
/-- `MUX_MAX_PAYLOAD_SIZE`. -/
def maxPayloadSize : Nat := 65535
/-- `MUX_MIN_FRAME_PAYLOAD`. -/
def minFramePayload : Nat := 1024 - frameHeaderSize
/-- `MUX_MAX_CLAIM_LEN`. -/
def maxClaimLen : Nat := 63

end Multiplexd
