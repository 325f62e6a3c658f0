import Mathlib.Algebra.Order.Ring.Nat
import Mathlib.Data.List.Basic
import Mathlib.Tactic.Common

/-!
# Base64

The padded encoding with the standard alphabet. Decoding reads groups of four; only the last may end in
padding.
-/

namespace Base64

def pad : UInt8 := 0x3d

def letter (n : Nat) : UInt8 :=
  UInt8.ofNat
    (if n < 26 then 0x41 + n else if n < 52 then 0x61 + (n - 26) else if n < 62 then 0x30 + (n - 52)
      else if n = 62 then 0x2b else 0x2f)

/-- The six bits an octet stands for; the padding stands for none. -/
def sextet (c : UInt8) : Option Nat :=
  if 0x41 ≤ c ∧ c ≤ 0x5a then some (c.toNat - 0x41)
  else if 0x61 ≤ c ∧ c ≤ 0x7a then some (c.toNat - 0x61 + 26)
  else if 0x30 ≤ c ∧ c ≤ 0x39 then some (c.toNat - 0x30 + 52)
  else if c = 0x2b then some 62
  else if c = 0x2f then some 63
  else none

def triple (a b c : UInt8) : Nat := a.toNat <<< 16 + b.toNat <<< 8 + c.toNat

def letters (n : Nat) : List UInt8 :=
  [letter ((n >>> 18) % 64), letter ((n >>> 12) % 64), letter ((n >>> 6) % 64), letter (n % 64)]

def encode : List UInt8 → List UInt8
  | [] => []
  | [a] => (letters (triple a 0 0)).take 2 ++ [pad, pad]
  | [a, b] => (letters (triple a b 0)).take 3 ++ [pad]
  | a :: b :: c :: rest => letters (triple a b c) ++ encode rest

def octets (n : Nat) : List UInt8 := [UInt8.ofNat (n >>> 16), UInt8.ofNat (n >>> 8), UInt8.ofNat n]

def group (a b c d : Option Nat) : Option Nat := do
  return (← a) <<< 18 + (← b) <<< 12 + (← c) <<< 6 + (← d)

/-- The last group: how much of it is padding is counted, not where the padding stands. -/
def decodeLast (a b c d : UInt8) : Option (List UInt8) :=
  let npad := (if d = pad then 1 else 0) + (if c = pad then 1 else 0)
  let third := if npad < 2 then sextet c else some 0
  let fourth := if npad < 1 then sextet d else some 0
  (group (sextet a) (sextet b) third fourth).map fun n => (octets n).take (3 - npad)

def decode : List UInt8 → Option (List UInt8)
  | [] => some []
  | [a, b, c, d] => decodeLast a b c d
  | a :: b :: c :: d :: rest => do
    let n ← group (sextet a) (sextet b) (sextet c) (sextet d)
    return octets n ++ (← decode rest)
  | _ => none

theorem sextet_letter : ∀ n < 64, sextet (letter n) = some n := by decide

theorem letter_ne_pad : ∀ n < 64, letter n ≠ pad := by decide

theorem group_letters {n : Nat} (hn : n < 2 ^ 24) :
    group (some ((n >>> 18) % 64)) (some ((n >>> 12) % 64)) (some ((n >>> 6) % 64)) (some (n % 64)) = some n := by
  simp only [group, bind, Option.bind, pure, Option.some.injEq, Nat.shiftRight_eq_div_pow, Nat.shiftLeft_eq]
  omega

theorem triple_lt (a b c : UInt8) : triple a b c < 2 ^ 24 := by
  have ha := a.toNat_lt
  have hb := b.toNat_lt
  have hc := c.toNat_lt
  simp only [triple, Nat.shiftLeft_eq]
  omega

theorem octets_triple (a b c : UInt8) : octets (triple a b c) = [a, b, c] := by
  have ha := a.toNat_lt
  have hb := b.toNat_lt
  have hc := c.toNat_lt
  simp only [octets, List.cons.injEq, and_true, ← UInt8.toNat_inj, UInt8.toNat_ofNat', Nat.shiftRight_eq_div_pow, triple,
    Nat.shiftLeft_eq]
  omega

theorem decode_full (a b c : UInt8) (rest : List UInt8) :
    decode (letters (triple a b c) ++ rest) = (decode rest).map fun t => a :: b :: c :: t := by
  have hgroup : group (sextet (letter ((triple a b c >>> 18) % 64))) (sextet (letter ((triple a b c >>> 12) % 64)))
      (sextet (letter ((triple a b c >>> 6) % 64))) (sextet (letter (triple a b c % 64))) = some (triple a b c) := by
    rw [sextet_letter _ (Nat.mod_lt _ (by decide)), sextet_letter _ (Nat.mod_lt _ (by decide)),
      sextet_letter _ (Nat.mod_lt _ (by decide)), sextet_letter _ (Nat.mod_lt _ (by decide)), group_letters (triple_lt a b c)]
  cases rest with
  | nil =>
    change decodeLast _ _ _ _ = _
    rw [decodeLast, if_neg (letter_ne_pad _ (Nat.mod_lt _ (by decide))), if_neg (letter_ne_pad _ (Nat.mod_lt _ (by decide))),
      if_pos (by decide), if_pos (by decide), hgroup]
    simp [octets_triple, decode]
  | cons d rest =>
    change decode (_ :: _ :: _ :: _ :: d :: rest) = _
    rw [decode, hgroup]
    · cases decode (d :: rest) <;> simp [octets_triple]
    · simp

theorem decode_encode (s : List UInt8) : decode (encode s) = some s := by
  fun_induction encode s with
  | case1 => rfl
  | case2 a =>
    have hn := triple_lt a 0 0
    have hlow : triple a 0 0 >>> 6 % 64 = 0 ∧ triple a 0 0 % 64 = 0 := by
      simp only [triple, Nat.shiftRight_eq_div_pow, Nat.shiftLeft_eq, UInt8.toNat_zero]
      omega
    have hgroup := group_letters hn
    rw [hlow.1, hlow.2] at hgroup
    change decodeLast _ _ pad pad = _
    simp [decodeLast, sextet_letter _ (Nat.mod_lt _ (show 0 < 64 by decide)), hgroup, octets_triple]
  | case3 a b =>
    have hn := triple_lt a b 0
    have hlow : triple a b 0 % 64 = 0 := by
      simp only [triple, Nat.shiftLeft_eq, UInt8.toNat_zero]
      omega
    have hgroup := group_letters hn
    rw [hlow] at hgroup
    change decodeLast _ _ _ pad = _
    simp [decodeLast, sextet_letter _ (Nat.mod_lt _ (show 0 < 64 by decide)), letter_ne_pad _ (Nat.mod_lt _ (show 0 < 64 by decide)),
      hgroup, octets_triple]
  | case4 a b c rest ih => rw [decode_full, ih]; rfl

theorem encode_length (s : List UInt8) : (encode s).length = 4 * ((s.length + 2) / 3) := by
  fun_induction encode s with
  | case1 => rfl
  | case2 a => simp [letters]
  | case3 a b => simp [letters]
  | case4 a b c rest ih =>
    simp only [List.length_append, ih, letters, List.length_cons, List.length_nil]
    omega

theorem mem_encode {s : List UInt8} {c : UInt8} (hc : c ∈ encode s) : c = pad ∨ ∃ n < 64, c = letter n := by
  have hletters {n : Nat} (h : c ∈ letters n) : ∃ n < 64, c = letter n := by
    simp only [letters, List.mem_cons, List.not_mem_nil, or_false] at h
    obtain rfl | rfl | rfl | rfl := h <;> exact ⟨_, Nat.mod_lt _ (by decide), rfl⟩
  fun_induction encode s with
  | case1 => cases hc
  | case2 a =>
    rcases List.mem_append.mp hc with h | h
    · exact .inr (hletters (List.mem_of_mem_take h))
    · exact .inl (by simpa using h)
  | case3 a b =>
    rcases List.mem_append.mp hc with h | h
    · exact .inr (hletters (List.mem_of_mem_take h))
    · exact .inl (by simpa using h)
  | case4 a b c' rest ih =>
    rcases List.mem_append.mp hc with h | h
    · exact .inr (hletters h)
    · exact ih h

end Base64
