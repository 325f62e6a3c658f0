import Mathlib.Data.List.Chain
import Mathlib.Data.List.Infix
import Mathlib.Tactic.Common

/-!
# Escaping identities

`escape_identity` of `shim/util.c` makes a name that a peer has chosen fit for a log line or a metric
label. The output is judged by a reader of its own: `unescape` accepts the escapes of the context and
refuses a quote that stands by itself and an escape that is cut. What it reads back is the input, up to
where the output ends; in a metric label a control character reads as the placeholder.
-/

namespace Multiplexd

/-- `enum escape_ctx` -/
inductive EscapeCtx where
  | plain
  | metric
deriving Repr, DecidableEq

namespace Escape

/-- The backslash. -/
def bs : UInt8 := 0x5c

/-- The double quote. -/
def dq : UInt8 := 0x22

def placeholder : UInt8 := 0x3f

/-- A digit of `tohexlower`. -/
def hexLower (n : UInt8) : UInt8 := if n < 10 then 0x30 + n else 0x61 + (n - 10)

def hexEscape (c : UInt8) : List UInt8 := [bs, 0x78, hexLower (c / 16), hexLower (c % 16)]

/-- The character behind the backslash, as the `switch` in `escape_identity` finds it. -/
def escChar (ctx : EscapeCtx) (c : UInt8) : Option UInt8 :=
  if c = bs ∨ c = dq then some c
  else if c = 0x0a then some 0x6e
  else if c = 0x09 then (if ctx = .plain then some 0x74 else none)
  else if c = 0x0d then (if ctx = .plain then some 0x72 else none)
  else none

/-- The second byte of a C1 control. -/
def isC1 (b : UInt8) : Bool := decide (0x80 ≤ b) && decide (b ≤ 0x9f)

/-- A C0 control or DEL. -/
def isC0 (b : UInt8) : Bool := decide (b < 0x20) || decide (b = 0x7f)

def controlLen (c next : UInt8) : Nat :=
  if isC0 c then 1 else if c = 0xc2 ∧ isC1 next then 2 else 0

structure Output where
  out : List UInt8
  whole : Bool
deriving Repr, DecidableEq

def Output.after (r : Output) (piece : List UInt8) : Output := { r with out := piece ++ r.out }

/-- The loop of `escape_identity` with `o` bytes written; it skips the bytes that a control of two bytes
has taken. The byte behind the last one is the terminator. -/
def loop (ctx : EscapeCtx) (outsize : Nat) : Nat → Nat → List UInt8 → Output
  | _, _, [] => ⟨[], true⟩
  | o, skip + 1, _ :: s => loop ctx outsize o skip s
  | o, 0, c :: s =>
    match escChar ctx c with
    | some esc => if o + 2 ≥ outsize then ⟨[], false⟩ else (loop ctx outsize (o + 2) 0 s).after [bs, esc]
    | none =>
      let n := controlLen c (s.headD 0)
      if n = 0 then
        if o + 1 ≥ outsize then ⟨[], false⟩ else (loop ctx outsize (o + 1) 0 s).after [c]
      else
        match ctx with
        | .plain =>
          if o + 4 * n ≥ outsize then ⟨[], false⟩
          else (loop .plain outsize (o + 4 * n) (n - 1) s).after (((c :: s).take n).flatMap hexEscape)
        | .metric =>
          if o + 1 ≥ outsize then ⟨[], false⟩ else (loop .metric outsize (o + 1) (n - 1) s).after [placeholder]

end Escape

def CStr := { s : List UInt8 // 0 ∉ s }

open Escape

/-- `escape_identity`; the terminator that follows the output is left out. -/
def escapeIdentity (ctx : EscapeCtx) (outsize : Nat) (s : CStr) : Output := loop ctx outsize 0 0 s.val

namespace Escape

def unhexLower (c : UInt8) : Option UInt8 :=
  if 0x30 ≤ c ∧ c ≤ 0x39 then some (c - 0x30) else if 0x61 ≤ c ∧ c ≤ 0x66 then some (c - 0x61 + 10) else none

def unescChar (ctx : EscapeCtx) (e : UInt8) : Option UInt8 :=
  if e = bs ∨ e = dq then some e
  else if e = 0x6e then some 0x0a
  else if ctx = .plain ∧ e = 0x74 then some 0x09
  else if ctx = .plain ∧ e = 0x72 then some 0x0d
  else none

/-- Where a reader of escaped text is. -/
inductive ReadState where
  | text
  | backslash
  | hexHigh
  | hexLow (high : UInt8)
deriving Repr, DecidableEq

/-- A reader of escaped text. A quote or a backslash that belongs to no escape is refused, and so is an
escape that is cut. -/
def read (ctx : EscapeCtx) : ReadState → List UInt8 → Option (List UInt8)
  | .text, [] => some []
  | .backslash, [] => none
  | .hexHigh, [] => none
  | .hexLow _, [] => none
  | .text, c :: s =>
    if c = bs then read ctx .backslash s else if c = dq then none else (read ctx .text s).map (c :: ·)
  | .backslash, e :: s =>
    if ctx = .plain ∧ e = 0x78 then read ctx .hexHigh s
    else (unescChar ctx e).bind fun c => (read ctx .text s).map (c :: ·)
  | .hexHigh, h :: s => (unhexLower h).bind fun high => read ctx (.hexLow high) s
  | .hexLow high, l :: s => (unhexLower l).bind fun low => (read ctx .text s).map ((high * 16 + low) :: ·)

/-- The whole text, read. -/
def unescape (ctx : EscapeCtx) (s : List UInt8) : Option (List UInt8) := read ctx .text s

def metricByte (c : UInt8) : UInt8 := if isC0 c ∧ c ≠ 0x0a then placeholder else c

def metricReading : List UInt8 → List UInt8
  | [] => []
  | [c] => [metricByte c]
  | c :: b :: s =>
    if c = 0xc2 ∧ isC1 b then placeholder :: metricReading s else metricByte c :: metricReading (b :: s)

def reading : EscapeCtx → List UInt8 → List UInt8
  | .plain, s => s
  | .metric, s => metricReading s

/-- The piece that is written for the byte `c` in front of `s`, and how many more bytes it covers. -/
inductive Piece (ctx : EscapeCtx) : UInt8 → List UInt8 → List UInt8 → Nat → Prop
  | esc {c : UInt8} {s : List UInt8} {e : UInt8} : escChar ctx c = some e → Piece ctx c s [bs, e] 0
  | raw {c : UInt8} {s : List UInt8} : c ≠ bs → c ≠ dq → isC0 c = false → ¬(c = 0xc2 ∧ isC1 (s.headD 0) = true) →
      Piece ctx c s [c] 0
  | hex {c : UInt8} {s : List UInt8} : ctx = .plain → isC0 c = true → Piece ctx c s (hexEscape c) 0
  | hexPair {b : UInt8} {s : List UInt8} : ctx = .plain → isC1 b = true →
      Piece ctx 0xc2 (b :: s) (hexEscape 0xc2 ++ hexEscape b) 1
  | mark {c : UInt8} {s : List UInt8} : ctx = .metric → isC0 c = true → c ≠ 0x0a → Piece ctx c s [placeholder] 0
  | markPair {b : UInt8} {s : List UInt8} : ctx = .metric → isC1 b = true → Piece ctx 0xc2 (b :: s) [placeholder] 1

variable {ctx : EscapeCtx} {outsize : Nat}

/-- A turn of the loop writes a whole piece or stops. -/
theorem loop_cons (ctx : EscapeCtx) (outsize o : Nat) (c : UInt8) (s : List UInt8) :
    ∃ piece k, Piece ctx c s piece k ∧ loop ctx outsize o 0 (c :: s) =
      if o + piece.length ≥ outsize then ⟨[], false⟩ else (loop ctx outsize (o + piece.length) k s).after piece := by
  rw [loop]
  split
  next e hesc => exact ⟨[bs, e], 0, .esc hesc, rfl⟩
  next hesc =>
    have hplain : c ≠ bs ∧ c ≠ dq ∧ c ≠ 0x0a := by
      refine ⟨?_, ?_, ?_⟩ <;> rintro rfl <;> simp [escChar, bs, dq] at hesc
    dsimp only
    cases hc0 : isC0 c with
    | true =>
      have hlen : controlLen c (s.headD 0) = 1 := by simp [controlLen, hc0]
      rw [hlen]
      cases ctx with
      | plain => exact ⟨hexEscape c, 0, .hex rfl hc0, by simp [hexEscape]⟩
      | metric => exact ⟨[placeholder], 0, .mark rfl hc0 hplain.2.2, by simp⟩
    | false =>
      by_cases hpair : c = 0xc2 ∧ isC1 (s.headD 0) = true
      · have hlen : controlLen c (s.headD 0) = 2 := by
          rw [controlLen, hc0, if_neg Bool.false_ne_true, if_pos hpair]
        rw [hlen]
        obtain ⟨rfl, hc1⟩ := hpair
        cases s with
        | nil => simp [isC1] at hc1
        | cons b s =>
          cases ctx with
          | plain => exact ⟨hexEscape 0xc2 ++ hexEscape b, 1, .hexPair rfl hc1, by simp [hexEscape]⟩
          | metric => exact ⟨[placeholder], 1, .markPair rfl hc1, by simp⟩
      · have hlen : controlLen c (s.headD 0) = 0 := by
          rw [controlLen, hc0, if_neg Bool.false_ne_true, if_neg hpair]
        rw [hlen]
        exact ⟨[c], 0, .raw hplain.1 hplain.2.1 hc0 hpair, rfl⟩

/-- The loop ends with the input, before a piece for which there is no room, or goes on behind a piece. -/
theorem loop_induction (ctx : EscapeCtx) (outsize : Nat) {P : Nat → List UInt8 → Output → Prop} (hend : ∀ o, P o [] ⟨[], true⟩)
    (hstop : ∀ o c s piece k, Piece ctx c s piece k → outsize ≤ o + piece.length → P o (c :: s) ⟨[], false⟩)
    (hpiece : ∀ o c s piece k r, Piece ctx c s piece k → o + piece.length < outsize →
      P (o + piece.length) (s.drop k) r → P o (c :: s) (r.after piece))
    (o skip : Nat) (s : List UInt8) : P o (s.drop skip) (loop ctx outsize o skip s) := by
  induction s generalizing o skip with
  | nil =>
    rw [List.drop_nil]
    cases skip <;> exact hend o
  | cons c s ih =>
    cases skip with
    | succ skip => exact ih o skip
    | zero =>
      obtain ⟨piece, k, hp, hloop⟩ := loop_cons ctx outsize o c s
      rw [hloop]
      split
      next hfull => exact hstop o c s piece k hp hfull
      next hroom => exact hpiece o c s piece k _ hp (Nat.lt_of_not_le hroom) (ih _ k)

theorem length_loop (ctx : EscapeCtx) {o : Nat} (ho : o < outsize) (s : List UInt8) :
    o + (loop ctx outsize o 0 s).out.length < outsize := by
  refine loop_induction ctx outsize (P := fun o _ r => o < outsize → o + r.out.length < outsize)
    (fun _ h => h) (fun _ _ _ _ _ _ _ h => h) ?_ o 0 s ho
  intro o c s piece k r _ hroom ih _
  have hlen := ih hroom
  simp only [Output.after, List.length_append]
  omega

variable {n c e b : UInt8} {s piece pre : List UInt8} {k : Nat}

theorem Piece.length_le (h : Piece ctx c s piece k) : piece.length ≤ 4 * (k + 1) ∧ k ≤ s.length := by
  cases h <;> simp [hexEscape]

/-- No byte takes more than four. -/
theorem loop_whole (ctx : EscapeCtx) {o : Nat} (s : List UInt8) (hroom : o + 4 * s.length < outsize) :
    (loop ctx outsize o 0 s).whole = true := by
  refine loop_induction ctx outsize (P := fun o s r => o + 4 * s.length < outsize → r.whole = true)
    (fun _ _ => rfl) ?_ ?_ o 0 s hroom
  · intro o c s piece k hp hfull hroom
    obtain ⟨hlen, hk⟩ := hp.length_le
    rw [List.length_cons] at hroom
    omega
  · intro o c s piece k r hp _ ih hroom
    obtain ⟨hlen, hk⟩ := hp.length_le
    rw [List.length_drop] at ih
    rw [List.length_cons] at hroom
    exact ih (by omega)

theorem hexLower_printable (hn : n < 16) : 0x20 ≤ hexLower n ∧ hexLower n < 0x7f := by
  unfold hexLower
  split <;> grind

theorem div_16_lt (c : UInt8) : c / 16 < 16 := by grind

theorem mod_16_lt (c : UInt8) : c % 16 < 16 := by grind

theorem placeholder_printable : ∀ b ∈ [placeholder], 0x20 ≤ b ∧ b < 0x7f := by
  intro b hb
  rw [List.mem_singleton.mp hb]
  decide

theorem hexEscape_printable (c : UInt8) : ∀ b ∈ hexEscape c, 0x20 ≤ b ∧ b < 0x7f := by
  intro b hb
  simp only [hexEscape, List.mem_cons, List.not_mem_nil, or_false] at hb
  rcases hb with rfl | rfl | rfl | rfl
  · decide
  · decide
  · exact hexLower_printable (div_16_lt c)
  · exact hexLower_printable (mod_16_lt c)

/-- The five escapes of one character. -/
theorem escChar_cases (h : escChar ctx c = some e) :
    (c = bs ∧ e = bs) ∨ (c = dq ∧ e = dq) ∨ (c = 0x0a ∧ e = 0x6e) ∨
      ctx = .plain ∧ (c = 0x09 ∧ e = 0x74 ∨ c = 0x0d ∧ e = 0x72) := by
  unfold escChar at h
  split at h
  next hc =>
    obtain rfl := Option.some.inj h
    exact hc.elim (fun hc => .inl ⟨hc, hc⟩) fun hc => .inr (.inl ⟨hc, hc⟩)
  split at h
  next hc => exact .inr (.inr (.inl ⟨hc, (Option.some.inj h).symm⟩))
  split at h
  next hc =>
    split at h
    next hplain => exact .inr (.inr (.inr ⟨hplain, .inl ⟨hc, (Option.some.inj h).symm⟩⟩))
    · cases h
  split at h
  next hc =>
    split at h
    next hplain => exact .inr (.inr (.inr ⟨hplain, .inr ⟨hc, (Option.some.inj h).symm⟩⟩))
    · cases h
  · cases h

theorem escChar_printable (h : escChar ctx c = some e) : 0x20 ≤ e ∧ e < 0x7f := by
  rcases escChar_cases h with ⟨-, rfl⟩ | ⟨-, rfl⟩ | ⟨-, rfl⟩ | ⟨-, ⟨-, rfl⟩ | ⟨-, rfl⟩⟩ <;> decide

theorem Piece.printable (h : Piece ctx c s piece k) : (∀ b ∈ piece, 0x20 ≤ b ∧ b < 0x7f) ∨
      piece = [c] ∧ k = 0 ∧ isC0 c = false ∧ ¬(c = 0xc2 ∧ isC1 (s.headD 0) = true) := by
  cases h with
  | esc hesc =>
    refine .inl fun b hb => ?_
    simp only [List.mem_cons, List.not_mem_nil, or_false] at hb
    rcases hb with rfl | rfl
    · decide
    · exact escChar_printable hesc
  | raw _ _ hc0 hpair => exact .inr ⟨rfl, rfl, hc0, hpair⟩
  | hex _ _ => exact .inl (hexEscape_printable _)
  | hexPair _ _ =>
    refine .inl fun b hb => ?_
    rcases List.mem_append.mp hb with hb | hb
    · exact hexEscape_printable _ b hb
    · exact hexEscape_printable _ b hb
  | mark _ _ _ => exact .inl placeholder_printable
  | markPair _ _ => exact .inl placeholder_printable

theorem Piece.ne_nil (h : Piece ctx c s piece k) : piece ≠ [] := by
  cases h <;> simp [hexEscape]

/-- Two neighbours that are not a C1 control. -/
def NotC1 (a b : UInt8) : Prop := ¬(a = 0xc2 ∧ isC1 b = true)

/-- Text with no control in it, that goes on from the input `s` if it starts with the second byte of a pair. -/
structure Clean (s out : List UInt8) : Prop where
  noC0 : ∀ b ∈ out, isC0 b = false
  noC1 : out.IsChain NotC1
  starts : ∀ b, out.head? = some b → isC1 b = true → s.head? = some b

theorem isC0_of_printable (h : 0x20 ≤ b ∧ b < 0x7f) : isC0 b = false := by
  simp only [isC0, Bool.or_eq_false_iff, decide_eq_false_iff_not]
  grind

theorem notC1_of_printable {a : UInt8} (h : 0x20 ≤ a ∧ a < 0x7f) (b : UInt8) : NotC1 a b := by
  rintro ⟨rfl, -⟩
  exact absurd h.2 (by decide)

theorem isC1_of_printable (h : 0x20 ≤ b ∧ b < 0x7f) : isC1 b = false := by
  simp only [isC1, Bool.and_eq_false_iff, decide_eq_false_iff_not]
  grind

theorem isChain_of_printable {l : List UInt8} (h : ∀ b ∈ l, 0x20 ≤ b ∧ b < 0x7f) : l.IsChain NotC1 := by
  induction l with
  | nil => exact .nil
  | cons a l ih =>
    refine List.isChain_cons.mpr ⟨fun b _ => notC1_of_printable (h a List.mem_cons_self) b, ?_⟩
    exact ih fun b hb => h b (List.mem_cons_of_mem a hb)

theorem Clean.after {out : List UInt8} (hp : Piece ctx c s piece k)
    (h : Clean (s.drop k) out) : Clean (c :: s) (piece ++ out) := by
  rcases hp.printable with hprintable | ⟨rfl, rfl, hc0, hpair⟩
  · refine ⟨fun b hb => ?_, ?_, fun b hhead hc1 => ?_⟩
    · rcases List.mem_append.mp hb with hb | hb
      · exact isC0_of_printable (hprintable b hb)
      · exact h.noC0 b hb
    · refine List.isChain_append.mpr ⟨isChain_of_printable hprintable, h.noC1, fun a ha b _ => ?_⟩
      exact notC1_of_printable (hprintable a (List.mem_of_getLast? ha)) b
    · cases piece with
      | nil => exact absurd rfl hp.ne_nil
      | cons a piece =>
        obtain rfl : a = b := by simpa using hhead
        rw [isC1_of_printable (hprintable a List.mem_cons_self)] at hc1
        cases hc1
  · refine ⟨fun b hb => ?_, ?_, fun b hhead _ => by simpa using hhead⟩
    · rcases List.mem_cons.mp hb with rfl | hb
      · exact hc0
      · exact h.noC0 b hb
    · refine List.isChain_cons.mpr ⟨fun b hb => ?_, h.noC1⟩
      rintro ⟨hc, hc1⟩
      have hnext : s.head? = some b := h.starts b hb hc1
      refine hpair ⟨hc, ?_⟩
      rw [List.headD_eq_head?_getD, hnext]
      exact hc1

theorem loop_clean (ctx : EscapeCtx) (outsize o : Nat) (s : List UInt8) : Clean s (loop ctx outsize o 0 s).out := by
  refine loop_induction ctx outsize (P := fun _ s r => Clean s r.out) ?_ ?_ ?_ o 0 s
  · exact fun _ => ⟨nofun, .nil, nofun⟩
  · exact fun _ _ _ _ _ _ _ => ⟨nofun, .nil, nofun⟩
  · exact fun _ _ _ _ _ _ hp _ ih => ih.after hp

/-! ### The output reads as the input -/

theorem unhexLower_hexLower (hn : n < 16) : unhexLower (hexLower n) = some n := by
  unfold unhexLower hexLower
  grind

theorem read_hexEscape (c : UInt8) (s : List UInt8) :
    read .plain .text (hexEscape c ++ s) = (read .plain .text s).map (c :: ·) := by
  have hc : c / 16 * 16 + c % 16 = c := by grind
  have hhigh := unhexLower_hexLower (div_16_lt c)
  have hlow := unhexLower_hexLower (mod_16_lt c)
  simp [hexEscape, read, hhigh, hlow, hc]

theorem unescChar_escChar (h : escChar ctx c = some e) :
    unescChar ctx e = some c ∧ ¬(ctx = .plain ∧ e = 0x78) := by
  rcases escChar_cases h with ⟨rfl, rfl⟩ | ⟨rfl, rfl⟩ | ⟨rfl, rfl⟩ | ⟨rfl, ⟨rfl, rfl⟩ | ⟨rfl, rfl⟩⟩
  all_goals first | decide | (cases ctx <;> decide)

theorem read_escChar (h : escChar ctx c = some e) (s : List UInt8) :
    read ctx .text (bs :: e :: s) = (read ctx .text s).map (c :: ·) := by
  obtain ⟨hunesc, hhex⟩ := unescChar_escChar h
  rw [read, if_pos rfl, read, if_neg hhex, hunesc, Option.bind_some]

theorem placeholder_ne : placeholder ≠ bs ∧ placeholder ≠ dq := by decide

theorem read_raw (ctx : EscapeCtx) (hbs : c ≠ bs) (hdq : c ≠ dq) (s : List UInt8) :
    read ctx .text (c :: s) = (read ctx .text s).map (c :: ·) := by
  rw [read, if_neg hbs, if_neg hdq]

/-- A byte that starts no pair reads by itself. -/
theorem reading_cons (h : ¬(c = 0xc2 ∧ isC1 (pre.headD 0) = true)) :
    reading ctx (c :: pre) = (if ctx = .metric then metricByte c else c) :: reading ctx pre := by
  cases ctx with
  | plain => rfl
  | metric =>
    cases pre with
    | nil => rfl
    | cons b pre => exact if_neg h

theorem reading_escChar (h : escChar ctx c = some e) (pre : List UInt8) :
    reading ctx (c :: pre) = c :: reading ctx pre := by
  have hc : c ≠ 0xc2 ∧ (ctx = .metric → metricByte c = c) := by
    rcases escChar_cases h with ⟨rfl, -⟩ | ⟨rfl, -⟩ | ⟨rfl, -⟩ | ⟨rfl, ⟨rfl, -⟩ | ⟨rfl, -⟩⟩
    all_goals first | decide | exact ⟨by decide, fun _ => by decide⟩
  rw [reading_cons fun hpair => hc.1 hpair.1]
  split
  next hmetric => rw [hc.2 hmetric]
  · rfl

theorem not_pair_of_part (hpre : pre <+: s)
    (h : ¬(c = 0xc2 ∧ isC1 (s.headD 0) = true)) : ¬(c = 0xc2 ∧ isC1 (pre.headD 0) = true) := by
  rintro ⟨hc, hc1⟩
  obtain ⟨rest, rfl⟩ := hpre
  cases pre with
  | nil => exact absurd hc1 (by decide)
  | cons b pre => exact h ⟨hc, hc1⟩

/-- What the reader has of an output: it reads as a first part of the input, and as all of it if the
output is whole. -/
structure Reads (ctx : EscapeCtx) (s : List UInt8) (r : Output) (pre : List UInt8) : Prop where
  isPrefix : pre <+: s
  reads : unescape ctx r.out = some (reading ctx pre)
  whole : r.whole = true → pre = s

theorem Reads.after {r : Output} (hp : Piece ctx c s piece k)
    (h : Reads ctx (s.drop k) r pre) : Reads ctx (c :: s) (r.after piece) (c :: s.take k ++ pre) := by
  refine ⟨?_, ?_, fun hwhole => ?_⟩
  · obtain ⟨rest, hrest⟩ := h.isPrefix
    refine ⟨rest, ?_⟩
    rw [List.cons_append, List.cons_append, List.append_assoc, hrest, List.take_append_drop]
  · have hread : read ctx .text r.out = some (reading ctx pre) := h.reads
    change read ctx .text (piece ++ r.out) = _
    cases hp with
    | esc hesc =>
      have hread' := read_escChar hesc r.out
      rw [hread] at hread'
      have hshown : reading ctx (c :: pre) = c :: reading ctx pre := reading_escChar hesc pre
      simpa [hshown] using hread'
    | raw hbs hdq hc0 hpair =>
      have hshown : reading ctx (c :: pre) = c :: reading ctx pre := by
        have hc : metricByte c = c := if_neg fun hmark => by simp [hc0] at hmark
        rw [reading_cons (not_pair_of_part h.isPrefix hpair), hc, ite_self]
      have hread' := read_raw ctx hbs hdq r.out
      simpa [hread, hshown] using hread'
    | hex hplain hc0 =>
      subst hplain
      rw [read_hexEscape, hread]
      rfl
    | hexPair hplain hc1 =>
      subst hplain
      rw [List.append_assoc, read_hexEscape, read_hexEscape, hread]
      rfl
    | mark hmetric hc0 hne =>
      subst hmetric
      have hshown : reading .metric (c :: pre) = placeholder :: reading .metric pre := by
        rw [reading_cons fun hpair => by simp [hpair.1, isC0] at hc0, if_pos rfl, metricByte, if_pos ⟨hc0, hne⟩]
      simpa [hread, hshown] using read_raw .metric placeholder_ne.1 placeholder_ne.2 r.out
    | markPair hmetric hc1 =>
      subst hmetric
      have hshown : reading .metric (0xc2 :: _ :: pre) = placeholder :: reading .metric pre := if_pos ⟨rfl, hc1⟩
      simpa [hread, hshown] using read_raw .metric placeholder_ne.1 placeholder_ne.2 r.out
  · rw [h.whole hwhole, List.cons_append, List.take_append_drop]

theorem loop_reads (ctx : EscapeCtx) (outsize o : Nat) (s : List UInt8) :
    ∃ pre, Reads ctx s (loop ctx outsize o 0 s) pre := by
  refine loop_induction ctx outsize (P := fun _ s r => ∃ pre, Reads ctx s r pre) ?_ ?_ ?_ o 0 s
  · exact fun _ => ⟨[], ⟨List.prefix_rfl, by cases ctx <;> rfl, fun _ => rfl⟩⟩
  · exact fun _ _ _ _ _ _ _ => ⟨[], ⟨List.nil_prefix, by cases ctx <;> rfl, nofun⟩⟩
  · rintro _ _ _ _ _ _ hp _ ⟨pre, ih⟩
    exact ⟨_, ih.after hp⟩

end Escape

/-- The output fits the buffer with its terminator and has no control in it; a reader that refuses stray
quotes and cut escapes reads it as a first part of the input, as the context shows it. A whole output is
read as all of the input, and a buffer of more than four times its length gets one; in the plain context
two inputs with the same whole output are the same. -/
theorem escapeIdentity_safe :
    (∀ (ctx : EscapeCtx) (outsize : Nat) (s : CStr), 1 ≤ outsize →
      let out := (escapeIdentity ctx outsize s).out
      out.length < outsize ∧ (∀ b ∈ out, 0x20 ≤ b ∧ b ≠ 0x7f) ∧
      (∀ pre b post, out = pre ++ 0xc2 :: b :: post → ¬(0x80 ≤ b ∧ b ≤ 0x9f)) ∧
      (∃ pre, pre <+: s.val ∧ unescape ctx out = some (reading ctx pre)) ∧
      ((escapeIdentity ctx outsize s).whole = true → unescape ctx out = some (reading ctx s.val)) ∧
      (4 * s.val.length < outsize → (escapeIdentity ctx outsize s).whole = true)) ∧
    ∀ (m n : Nat) (s t : CStr), (escapeIdentity .plain m s).whole = true → (escapeIdentity .plain n t).whole = true →
      (escapeIdentity .plain m s).out = (escapeIdentity .plain n t).out → s = t := by
  refine ⟨fun ctx outsize s hsize => ?_, fun m n s t hs ht heq => ?_⟩
  · have hclean := loop_clean ctx outsize 0 s.val
    obtain ⟨pre, hreads⟩ := loop_reads ctx outsize 0 s.val
    refine ⟨?_, fun b hb => ?_, fun front b post hout hb => ?_, ⟨pre, hreads.isPrefix, hreads.reads⟩,
      fun hwhole => hreads.whole hwhole ▸ hreads.reads, fun hroom => loop_whole ctx s.val (by omega)⟩
    · have hlen := length_loop ctx hsize s.val
      rwa [Nat.zero_add] at hlen
    · have hc0 := hclean.noC0 b hb
      simp only [isC0, Bool.or_eq_false_iff, decide_eq_false_iff_not, UInt8.not_lt] at hc0
      exact hc0
    · have hchain : (front ++ 0xc2 :: b :: post).IsChain NotC1 := hout ▸ hclean.noC1
      have hpair := (List.isChain_append_cons_cons.mp hchain).2.1
      exact hpair ⟨rfl, by simpa [isC1] using hb⟩
  · obtain ⟨pre, hpre⟩ := loop_reads .plain m 0 s.val
    obtain ⟨pre', hpre'⟩ := loop_reads .plain n 0 t.val
    have hread : unescape .plain (escapeIdentity .plain m s).out = some s.val := by
      have hreads := hpre.reads
      rwa [hpre.whole hs] at hreads
    have hread' : unescape .plain (escapeIdentity .plain n t).out = some t.val := by
      have hreads := hpre'.reads
      rwa [hpre'.whole ht] at hreads
    rw [heq, hread'] at hread
    exact Subtype.ext (Option.some.inj hread).symm

end Multiplexd
