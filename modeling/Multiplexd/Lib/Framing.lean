import Mathlib.Data.List.Basic

/-!
# Self-delimiting codes

A byte stream that carries records needs two facts about the way a record is written: a whole record
is recognised at the front of any longer stream, and nothing that is not a whole record is. Everything
a sender that cuts its buffers anywhere and a receiver that is handed arbitrary pieces rely on follows
from these two, for any kind of record and any alphabet.
-/

universe u v

/-- A code whose words mark their own end. -/
structure SelfDelimiting (α : Type u) (β : Type v) where
  encode : α → List β
  decode : List β → Option (α × List β)
  decode_append : ∀ a rest, decode (encode a ++ rest) = some (a, rest)
  eq_of_decode : ∀ {bs a rest}, decode bs = some (a, rest) → bs = encode a ++ rest
  encode_ne_nil : ∀ a, encode a ≠ []

namespace SelfDelimiting

variable {α : Type u} {β : Type v} (c : SelfDelimiting α β)

def encodeAll (xs : List α) : List β := xs.flatMap c.encode

@[simp] theorem encodeAll_nil : c.encodeAll [] = [] := rfl

@[simp] theorem encodeAll_cons (a : α) (xs : List α) :
    c.encodeAll (a :: xs) = c.encode a ++ c.encodeAll xs := rfl

@[simp] theorem encodeAll_append (xs ys : List α) :
    c.encodeAll (xs ++ ys) = c.encodeAll xs ++ c.encodeAll ys := by
  simp [encodeAll]

theorem encode_length_pos (a : α) : 0 < (c.encode a).length :=
  List.length_pos_of_ne_nil (c.encode_ne_nil a)

theorem length_le_encodeAll (xs : List α) : xs.length ≤ (c.encodeAll xs).length := by
  induction xs with
  | nil => simp
  | cons a xs ih =>
    have := c.encode_length_pos a
    simp only [List.length_cons, encodeAll_cons, List.length_append]
    omega

/-! ### Torn words

A sequence is torn when no whole record stands at its front. -/

theorem decode_nil : c.decode [] = none := by
  cases h : c.decode [] with
  | none => rfl
  | some p =>
    obtain ⟨a, rest⟩ := p
    have := c.eq_of_decode h
    simp only [List.nil_eq, List.append_eq_nil_iff] at this
    exact absurd this.1 (c.encode_ne_nil a)

/-- The number of leading records that lie entirely within the first `n` symbols. -/
def whole : List α → Nat → Nat
  | [], _ => 0
  | a :: xs, n => if (c.encode a).length ≤ n then whole xs (n - (c.encode a).length) + 1 else 0

@[simp] theorem whole_nil (n : Nat) : c.whole [] n = 0 := rfl

variable {xs : List α} {n : Nat}

theorem whole_cons_of_le {a : α} (h : (c.encode a).length ≤ n) :
    c.whole (a :: xs) n = c.whole xs (n - (c.encode a).length) + 1 := by
  simp [whole, h]

theorem whole_cons_of_lt {a : α} (h : n < (c.encode a).length) : c.whole (a :: xs) n = 0 := by
  simp [whole, Nat.not_le.mpr h]

@[simp] theorem whole_zero (xs : List α) : c.whole xs 0 = 0 := by
  cases xs with
  | nil => rfl
  | cons a xs => exact c.whole_cons_of_lt (c.encode_length_pos a)

theorem whole_le_length (xs : List α) (n : Nat) : c.whole xs n ≤ xs.length := by
  induction xs generalizing n with
  | nil => simp
  | cons a xs ih =>
    unfold whole
    split
    · have := ih (n - (c.encode a).length)
      simp only [List.length_cons]
      omega
    · exact Nat.zero_le _

theorem encodeAll_take_whole_le (xs : List α) (n : Nat) :
    (c.encodeAll (xs.take (c.whole xs n))).length ≤ n := by
  induction xs generalizing n with
  | nil => simp
  | cons a xs ih =>
    unfold whole
    split
    · have := ih (n - (c.encode a).length)
      simp only [List.take_succ_cons, encodeAll_cons, List.length_append]
      omega
    · simp

theorem whole_mono (xs : List α) {m : Nat} (h : m ≤ n) : c.whole xs m ≤ c.whole xs n := by
  induction xs generalizing m n with
  | nil => simp
  | cons a xs ih =>
    by_cases hm : (c.encode a).length ≤ m
    · rw [c.whole_cons_of_le hm, c.whole_cons_of_le (Nat.le_trans hm h)]
      have := ih (Nat.sub_le_sub_right h (c.encode a).length)
      omega
    · rw [c.whole_cons_of_lt (Nat.lt_of_not_le hm)]
      exact Nat.zero_le _

theorem whole_eq_length (h : (c.encodeAll xs).length ≤ n) : c.whole xs n = xs.length := by
  induction xs generalizing n with
  | nil => rfl
  | cons a xs ih =>
    simp only [encodeAll_cons, List.length_append] at h
    rw [c.whole_cons_of_le (by omega), ih (by omega), List.length_cons]

theorem whole_lt_length (h : n < (c.encodeAll xs).length) : c.whole xs n < xs.length := by
  refine Nat.lt_of_le_of_ne (c.whole_le_length xs n) fun heq => ?_
  have hle := c.encodeAll_take_whole_le xs n
  rw [heq, List.take_length] at hle
  omega

/-- Dropping the whole records leaves none whole. -/
theorem whole_drop_whole (xs : List α) (n : Nat) :
    c.whole (xs.drop (c.whole xs n)) (n - (c.encodeAll (xs.take (c.whole xs n))).length) = 0 := by
  induction xs generalizing n with
  | nil => simp
  | cons a xs ih =>
    by_cases hn : (c.encode a).length ≤ n
    · rw [c.whole_cons_of_le hn, List.drop_succ_cons, List.take_succ_cons, encodeAll_cons,
        List.length_append, Nat.sub_add_eq]
      exact ih _
    · rw [c.whole_cons_of_lt (Nat.lt_of_not_le hn)]
      simpa using c.whole_cons_of_lt (Nat.lt_of_not_le hn)

def torn (xs : List α) (n : Nat) : List β :=
  (c.encodeAll (xs.drop (c.whole xs n))).take (n - (c.encodeAll (xs.take (c.whole xs n))).length)

/-- The torn record is a proper prefix of a record. -/
theorem torn_prefix (xs : List α) (n : Nat) :
    c.torn xs n = [] ∨ ∃ a, c.torn xs n <+: c.encode a ∧ c.torn xs n ≠ c.encode a := by
  have hwhole := c.whole_drop_whole xs n
  unfold torn
  generalize n - (c.encodeAll (xs.take (c.whole xs n))).length = m at *
  cases hdrop : xs.drop (c.whole xs n) with
  | nil => simp
  | cons a ys =>
    have hlt : m < (c.encode a).length := by
      by_contra hle
      rw [hdrop, c.whole_cons_of_le (Nat.le_of_not_lt hle)] at hwhole
      omega
    rw [encodeAll_cons, List.take_append_of_le_length (Nat.le_of_lt hlt)]
    refine .inr ⟨a, List.take_prefix m _, fun heq => ?_⟩
    have := congrArg List.length heq
    rw [List.length_take] at this
    omega

/-- A cut of a concatenation is its whole records followed by a torn one. -/
theorem take_encodeAll (xs : List α) (n : Nat) :
    (c.encodeAll xs).take n = c.encodeAll (xs.take (c.whole xs n)) ++ c.torn xs n := by
  have hsplit : c.encodeAll xs =
      c.encodeAll (xs.take (c.whole xs n)) ++ c.encodeAll (xs.drop (c.whole xs n)) := by
    rw [← encodeAll_append, List.take_append_drop]
  conv_lhs => rw [hsplit]
  rw [List.take_append, List.take_of_length_le (c.encodeAll_take_whole_le xs n), torn]

@[simp] theorem torn_zero (xs : List α) : c.torn xs 0 = [] := by
  simp [torn]

theorem torn_of_length_le (h : (c.encodeAll xs).length ≤ n) : c.torn xs n = [] := by
  simp [torn, c.whole_eq_length h]

/-- The torn record stays as it is when the whole ones before it are cut off. -/
theorem torn_drop_whole (xs : List α) (n : Nat) :
    c.torn (xs.drop (c.whole xs n)) (n - (c.encodeAll (xs.take (c.whole xs n))).length) = c.torn xs n := by
  simp [torn, c.whole_drop_whole xs n]

/-- Going on from a cut at `m` for `n` symbols completes the torn record, adds the records that are now
whole, and tears another one. -/
theorem torn_append_take (xs : List α) (m n : Nat) : c.torn xs m ++ ((c.encodeAll xs).drop m).take n =
      c.encodeAll ((xs.take (c.whole xs (m + n))).drop (c.whole xs m)) ++ c.torn xs (m + n) := by
  have hle : c.whole xs m ≤ c.whole xs (m + n) := c.whole_mono xs (Nat.le_add_right m n)
  have hsplit : xs.take (c.whole xs (m + n))
      = xs.take (c.whole xs m) ++ (xs.take (c.whole xs (m + n))).drop (c.whole xs m) := by
    conv_lhs => rw [← List.take_append_drop (c.whole xs m) (xs.take (c.whole xs (m + n)))]
    rw [List.take_take, Nat.min_eq_left hle]
  have hcut : (c.encodeAll xs).take m ++ ((c.encodeAll xs).drop m).take n
      = (c.encodeAll xs).take (m + n) := List.take_add.symm
  rw [c.take_encodeAll, c.take_encodeAll, List.append_assoc] at hcut
  conv_rhs at hcut => rw [hsplit, encodeAll_append, List.append_assoc]
  exact List.append_cancel_left hcut

end SelfDelimiting
