import Mathlib.Data.List.Basic
import Mathlib.Tactic.Common

/-!
# JSON text

A writer of compact JSON over octets: strings are escaped and refused where they are not UTF-8, and
numbers are integers. What a program reads is left to a `JsonReader`, of which only one thing is
assumed: it reads back what the writer wrote. `Json.Compact` is such a reader.
-/

/-- The octets of an ASCII text. -/
def ascii (s : String) : List UInt8 := s.toList.map fun c => UInt8.ofNat c.toNat

namespace Utf8

def lead (c : UInt8) : Option (Nat × Nat × Nat) :=
  if c &&& 0xE0 = 0xC0 then some (2, (c &&& 0x1F).toNat, 0x80)
  else if c &&& 0xF0 = 0xE0 then some (3, (c &&& 0x0F).toNat, 0x800)
  else if c &&& 0xF8 = 0xF0 then some (4, (c &&& 0x07).toNat, 0x10000)
  else none

def continuation (v : Nat) (c : UInt8) : Option Nat :=
  if c &&& 0xC0 = 0x80 then some (v <<< 6 ||| (c &&& 0x3F).toNat) else none

def decode : List UInt8 → Nat
  | [] => 0
  | c :: rest =>
    if c < 0x80 then 1
    else
      match lead c with
      | none => 0
      | some (n, v, least) =>
        if rest.length + 1 < n then 0
        else
          match (rest.take (n - 1)).foldlM continuation v with
          | none => 0
          | some v => if v < least ∨ 0x10FFFF < v ∨ (0xD800 ≤ v ∧ v ≤ 0xDFFF) then 0 else n

/-- Every octet belongs to a character. The first argument counts the octets of the current one that
are still to come. -/
def wellFormed : Nat → List UInt8 → Bool
  | _, [] => true
  | k + 1, _ :: s => wellFormed k s
  | 0, c :: s =>
    if c < 0x80 then wellFormed 0 s
    else
      match decode (c :: s) with
      | 0 => false
      | n + 1 => wellFormed n s

theorem wellFormed_of_ascii {s : List UInt8} (hs : ∀ c ∈ s, c < 0x80) : wellFormed 0 s = true := by
  induction s with
  | nil => rfl
  | cons c s ih =>
    rw [wellFormed, if_pos (hs c List.mem_cons_self)]
    exact ih fun d hd => hs d (List.mem_cons_of_mem _ hd)

end Utf8

/-! ### Values and their text -/

/-- A JSON value. `other` is whatever is neither a string, an integer literal, a truth value nor an
object. -/
inductive Json where
  | str (s : List UInt8)
  | num (minus : Bool) (n : Nat)
  | bool (b : Bool)
  | obj (members : List (List UInt8 × Json))
  | other

namespace Json

def dquote : UInt8 := 0x22

def backslash : UInt8 := 0x5c

def lbrace : UInt8 := 0x7b

def rbrace : UInt8 := 0x7d

def colon : UInt8 := 0x3a

def comma : UInt8 := 0x2c

def hexDigit (n : Nat) : UInt8 := UInt8.ofNat (if n < 10 then 0x30 + n else 0x57 + n)

def escape (c : UInt8) : List UInt8 :=
  if c = dquote then [backslash, dquote]
  else if c = backslash then [backslash, backslash]
  else if c = 0x08 then [backslash, 0x62]
  else if c = 0x0c then [backslash, 0x66]
  else if c = 0x0a then [backslash, 0x6e]
  else if c = 0x0d then [backslash, 0x72]
  else if c = 0x09 then [backslash, 0x74]
  else if c < 0x20 then [backslash, 0x75, 0x30, 0x30, hexDigit (c.toNat / 16), hexDigit (c.toNat % 16)]
  else [c]

def quoted (s : List UInt8) : List UInt8 := dquote :: s.flatMap escape ++ [dquote]

/-- The largest length a text may have: lengths are returned as an `int`. -/
def intMax : Nat := 0x7fffffff

def marshalString (s : List UInt8) : Option (List UInt8) :=
  if Utf8.wellFormed 0 s ∧ (quoted s).length ≤ intMax then some (quoted s) else none

def decimal (n : Nat) : List UInt8 := (Nat.toDigits 10 n).map fun c => UInt8.ofNat c.toNat

mutual

def render : Json → Option (List UInt8)
  | .str s => marshalString s
  | .num minus n => some (if minus then 0x2d :: decimal n else decimal n)
  | .bool b => some (if b then ascii "true" else ascii "false")
  | .obj members => (renderMembers members).map fun t => lbrace :: t ++ [rbrace]
  | .other => none

def renderMembers : List (List UInt8 × Json) → Option (List UInt8)
  | [] => some []
  | [(k, v)] => do
    let k ← marshalString k
    let v ← v.render
    return k ++ colon :: v
  | (k, v) :: member :: rest => do
    let k ← marshalString k
    let v ← v.render
    let t ← renderMembers (member :: rest)
    return k ++ colon :: v ++ comma :: t

end

/-! A marshaller that follows every member with a comma and takes the last one back writes the same. -/

def emitMembers : List (List UInt8 × Json) → Option (List UInt8)
  | [] => some []
  | (k, v) :: rest => do
    let k ← marshalString k
    let v ← v.render
    let t ← emitMembers rest
    return k ++ colon :: v ++ [comma] ++ t

theorem emitMembers_nil : emitMembers [] = some [] := rfl

variable {members : List (List UInt8 × Json)} {t s : List UInt8}

theorem renderMembers_eq_dropLast (hne : members ≠ [])
    (h : emitMembers members = some t) : renderMembers members = some t.dropLast := by
  induction members generalizing t with
  | nil => exact absurd rfl hne
  | cons member rest ih =>
    obtain ⟨k, v⟩ := member
    simp only [emitMembers, bind, Option.bind_eq_some_iff] at h
    obtain ⟨kt, hk, vt, hv, u, hu, heq⟩ := h
    cases heq
    cases rest with
    | nil =>
      cases hu
      simp only [renderMembers, hk, hv, List.append_nil, List.dropLast_concat]
      rfl
    | cons next rest =>
      have hnil : u ≠ [] := by
        rintro rfl
        obtain ⟨k', v'⟩ := next
        simp only [emitMembers, bind, Option.bind_eq_some_iff] at hu
        obtain ⟨kt', -, vt', -, u', -, heq⟩ := hu
        simp at heq
      rw [renderMembers, hk, hv, ih (by simp) hu, List.dropLast_append_of_ne_nil hnil]
      simp

theorem emitMembers_append (a b : List (List UInt8 × Json)) :
    emitMembers (a ++ b) = (emitMembers a).bind fun s => (emitMembers b).map fun t => s ++ t := by
  induction a with
  | nil => cases h : emitMembers b <;> simp [emitMembers, h]
  | cons member rest ih =>
    obtain ⟨k, v⟩ := member
    rw [List.cons_append, emitMembers, emitMembers, ih]
    cases marshalString k <;> cases v.render <;> cases emitMembers rest <;> cases emitMembers b <;> simp

/-- The value a key has in the end, where a later member takes the place of an earlier one. -/
def last (key : List UInt8) : List (List UInt8 × Json) → Option Json
  | [] => none
  | (k, v) :: rest =>
    match last key rest with
    | some w => some w
    | none => if k = key then some v else none

/-- A loop over the members in which only the members of one key write a field leaves in it what the
last of them held. -/
theorem foldlM_last {σ α : Type} {step : σ → List UInt8 × Json → Option σ} (key : List UInt8) (read : Json → Option α)
    (get : σ → Option α) (hwrite : ∀ s v s', step s (key, v) = some s' → ∃ a, read v = some a ∧ get s' = some a)
    (hkeep : ∀ s k v s', step s (k, v) = some s' → k ≠ key → get s' = get s) {s s' : σ} (h : members.foldlM step s = some s') :
    (last key members = none ∧ get s' = get s) ∨ ∃ v a, last key members = some v ∧ read v = some a ∧ get s' = some a := by
  induction members generalizing s with
  | nil =>
    cases h
    exact .inl ⟨rfl, rfl⟩
  | cons member rest ih =>
    obtain ⟨k, v⟩ := member
    rw [List.foldlM_cons] at h
    obtain ⟨s₁, hs₁, hrest⟩ := Option.bind_eq_some_iff.mp h
    obtain ⟨hlast, hget⟩ | ⟨w, a, hlast, hread, hget⟩ := ih hrest
    · by_cases hk : k = key
      · subst hk
        obtain ⟨a, hread, ha⟩ := hwrite s v s₁ hs₁
        exact .inr ⟨v, a, by simp [last, hlast], hread, hget.trans ha⟩
      · exact .inl ⟨by simp [last, hlast, hk], hget.trans (hkeep s k v s₁ hs₁ hk)⟩
    · exact .inr ⟨w, a, by simp [last, hlast], hread, hget⟩

/-- An octet that is written as it is. -/
def Plain (c : UInt8) : Prop := 0x20 ≤ c ∧ c < 0x80 ∧ c ≠ dquote ∧ c ≠ backslash

instance : DecidablePred Plain := fun _ => inferInstanceAs (Decidable (_ ∧ _))

def plainText (s : List UInt8) : Bool := s.all fun c => decide (Plain c)

theorem plain_of_plainText (hs : plainText s = true) : ∀ c ∈ s, Plain c := by
  intro c hc
  exact of_decide_eq_true (List.all_eq_true.mp hs c hc)

theorem escape_of_plain {c : UInt8} (hc : Plain c) : escape c = [c] := by
  obtain ⟨hlow, -, hquote, hback⟩ := hc
  have hne {d : UInt8} (hd : d < 0x20) : c ≠ d := by
    intro heq
    exact absurd (heq ▸ hlow) (by grind)
  rw [escape, if_neg hquote, if_neg hback, if_neg (hne (by decide)), if_neg (hne (by decide)),
    if_neg (hne (by decide)), if_neg (hne (by decide)), if_neg (hne (by decide)), if_neg (by grind)]

theorem escape_length_le (c : UInt8) : (escape c).length ≤ 6 := by
  unfold escape
  repeat' split
  all_goals simp

theorem quoted_length_le (s : List UInt8) : (quoted s).length ≤ 6 * s.length + 2 := by
  have hbody : (s.flatMap escape).length ≤ 6 * s.length := by
    induction s with
    | nil => simp
    | cons c s ih =>
      have hc := escape_length_le c
      rw [List.flatMap_cons, List.length_append, List.length_cons]
      omega
  simp only [quoted, List.length_append, List.length_cons, List.length_nil]
  omega

theorem quoted_of_plain (hs : ∀ c ∈ s, Plain c) : quoted s = dquote :: s ++ [dquote] := by
  have hbody : s.flatMap escape = s := by
    induction s with
    | nil => rfl
    | cons c s ih =>
      rw [List.flatMap_cons, escape_of_plain (hs c List.mem_cons_self), ih fun d hd => hs d (List.mem_cons_of_mem _ hd)]
      rfl
  rw [quoted, hbody]

theorem marshalString_of_plain (hs : ∀ c ∈ s, Plain c) (hlen : s.length < 1000) :
    marshalString s = some (dquote :: s ++ [dquote]) := by
  have hsize := quoted_length_le s
  rw [marshalString, if_pos ⟨Utf8.wellFormed_of_ascii fun c hc => (hs c hc).2.1, by unfold intMax; omega⟩, quoted_of_plain hs]

theorem eq_quoted_of_marshalString (h : marshalString s = some t) : t = quoted s := by
  unfold marshalString at h
  split at h
  · exact (Option.some.inj h).symm
  · cases h

/-! ### A reader of compact text -/

namespace Compact

def hexValue (c : UInt8) : Nat := if c.toNat < 0x57 then c.toNat - 0x30 else c.toNat - 0x57

def unescape (c : UInt8) : UInt8 :=
  if c = 0x62 then 0x08
  else if c = 0x66 then 0x0c
  else if c = 0x6e then 0x0a
  else if c = 0x72 then 0x0d
  else if c = 0x74 then 0x09
  else c

def readString : List UInt8 → Option (List UInt8 × List UInt8)
  | [] => none
  | c :: rest =>
    if c = dquote then some ([], rest)
    else if c = backslash then
      match rest with
      | [] => none
      | 0x75 :: _ :: _ :: hi :: lo :: rest =>
        (readString rest).map fun r => (UInt8.ofNat (16 * hexValue hi + hexValue lo) :: r.1, r.2)
      | e :: rest => (readString rest).map fun r => (unescape e :: r.1, r.2)
    else (readString rest).map fun r => (c :: r.1, r.2)

def isDigit (c : UInt8) : Bool := 0x30 ≤ c && c ≤ 0x39

def readDecimal (text : List UInt8) : Nat × List UInt8 :=
  (Nat.ofDigitChars 10 ((text.takeWhile isDigit).map fun c => Char.ofNat c.toNat) 0, text.dropWhile isDigit)

mutual

def readValue : Nat → List UInt8 → Option (Json × List UInt8)
  | 0, _ => none
  | _ + 1, [] => none
  | fuel + 1, c :: rest =>
    if c = dquote then (readString rest).map fun r => (.str r.1, r.2)
    else if c = lbrace then (readMembers fuel rest).map fun r => (.obj r.1, r.2)
    else if c = 0x74 then some (.bool true, rest.drop 3)
    else if c = 0x66 then some (.bool false, rest.drop 4)
    else if c = 0x2d then some (.num true (readDecimal rest).1, (readDecimal rest).2)
    else some (.num false (readDecimal (c :: rest)).1, (readDecimal (c :: rest)).2)

def readMembers : Nat → List UInt8 → Option (List (List UInt8 × Json) × List UInt8)
  | 0, _ => none
  | _ + 1, [] => none
  | fuel + 1, c :: rest =>
    if c = rbrace then some ([], rest)
    else do
      let (k, rest) ← readString rest
      let (v, rest) ← readValue fuel (rest.drop 1)
      match rest with
      | [] => none
      | c :: rest =>
        if c = comma then
          let (members, rest) ← readMembers fuel rest
          return ((k, v) :: members, rest)
        else return ([(k, v)], rest)

end

theorem hexValue_hexDigit : ∀ n < 16, hexValue (hexDigit n) = n := by decide

theorem readString_escape (c : UInt8) (t : List UInt8) :
    readString (escape c ++ t) = (readString t).map fun r => (c :: r.1, r.2) := by
  by_cases hquote : c = dquote
  · subst hquote; rfl
  by_cases hback : c = backslash
  · subst hback; rfl
  by_cases hb : c = 0x08
  · subst hb; rfl
  by_cases hf : c = 0x0c
  · subst hf; rfl
  by_cases hn : c = 0x0a
  · subst hn; rfl
  by_cases hr : c = 0x0d
  · subst hr; rfl
  by_cases ht : c = 0x09
  · subst ht; rfl
  rw [escape, if_neg hquote, if_neg hback, if_neg hb, if_neg hf, if_neg hn, if_neg hr, if_neg ht]
  by_cases hlow : c < 0x20
  · have hvalue : 16 * (c.toNat / 16) + c.toNat % 16 = c.toNat := Nat.div_add_mod c.toNat 16
    have hsmall : c.toNat < 32 := hlow
    rw [if_pos hlow]
    change (readString t).map _ = _
    simp only [hexValue_hexDigit _ (show c.toNat / 16 < 16 by omega), hexValue_hexDigit _ (Nat.mod_lt c.toNat (by decide)),
      hvalue, UInt8.ofNat_toNat]
  · rw [if_neg hlow, List.singleton_append, readString.eq_def]
    exact (if_neg hquote).trans (if_neg hback)

theorem readString_quoted (s t : List UInt8) : readString (s.flatMap escape ++ dquote :: t) = some (s, t) := by
  induction s with
  | nil =>
    rw [List.flatMap_nil, List.nil_append, readString.eq_def]
    exact if_pos rfl
  | cons c s ih => rw [List.flatMap_cons, List.append_assoc, readString_escape, ih]; rfl

def Stops (rest : List UInt8) : Prop := ∀ c ∈ rest.head?, isDigit c = false

theorem isDigit_of_char {c : Char} (hc : c.isDigit = true) :
    isDigit (UInt8.ofNat c.toNat) = true ∧ Char.ofNat (UInt8.ofNat c.toNat).toNat = c := by
  have hrange : 48 ≤ c.toNat ∧ c.toNat ≤ 57 := by
    rw [Char.isDigit, Bool.and_eq_true, decide_eq_true_eq, decide_eq_true_eq] at hc
    exact ⟨UInt32.le_iff_toNat_le.mp hc.1, UInt32.le_iff_toNat_le.mp hc.2⟩
  have hbyte : (UInt8.ofNat c.toNat).toNat = c.toNat := by
    rw [UInt8.toNat_ofNat', Nat.mod_eq_of_lt (by omega)]
  refine ⟨?_, by rw [hbyte, Char.ofNat_toNat]⟩
  simp only [isDigit, Bool.and_eq_true, decide_eq_true_eq, UInt8.le_iff_toNat_le, hbyte]
  exact hrange

variable {rest : List UInt8}

theorem readDecimal_decimal (n : Nat) (hrest : Stops rest) : readDecimal (decimal n ++ rest) = (n, rest) := by
  have hchar {c : Char} (hc : c ∈ Nat.toDigits 10 n) := isDigit_of_char (Nat.isDigit_of_mem_toDigits (by decide) (by decide) hc)
  have hdigits : ∀ c ∈ decimal n, isDigit c = true := by
    intro c hc
    obtain ⟨d, hd, rfl⟩ := List.mem_map.mp hc
    exact (hchar hd).1
  have hback : (decimal n).map (fun c => Char.ofNat c.toNat) = Nat.toDigits 10 n := by
    rw [decimal, List.map_map]
    exact (List.map_congr_left fun c hc => (hchar hc).2).trans (List.map_id _)
  have hstop : rest.takeWhile isDigit = [] ∧ rest.dropWhile isDigit = rest := by
    cases rest with
    | nil => exact ⟨rfl, rfl⟩
    | cons c rest =>
      have hc : isDigit c = false := hrest c rfl
      simp [hc]
  rw [readDecimal, List.takeWhile_append_of_pos hdigits, List.dropWhile_append_of_pos hdigits, hstop.1, hstop.2,
    List.append_nil, hback, Nat.ofDigitChars_toDigits (by decide) (by decide)]

theorem decimal_eq_cons (n : Nat) : ∃ c cs, decimal n = c :: cs ∧ isDigit c = true := by
  have hne : decimal n ≠ [] := by
    simp [decimal]
  obtain ⟨c, cs, hcs⟩ := List.exists_cons_of_ne_nil hne
  obtain ⟨d, hd, rfl⟩ := List.mem_map.mp (hcs ▸ List.mem_cons_self : c ∈ decimal n)
  exact ⟨_, cs, hcs, (isDigit_of_char (Nat.isDigit_of_mem_toDigits (by decide) (by decide) hd)).1⟩

theorem readValue_num (minus : Bool) (n : Nat) (hrest : Stops rest) (fuel : Nat) :
    readValue (fuel + 1) ((if minus then 0x2d :: decimal n else decimal n) ++ rest) = some (.num minus n, rest) := by
  cases minus with
  | true =>
    change readValue (fuel + 1) (0x2d :: (decimal n ++ rest)) = _
    rw [readValue, if_neg (by decide), if_neg (by decide), if_neg (by decide), if_neg (by decide), if_pos rfl,
      readDecimal_decimal n hrest]
  | false =>
    obtain ⟨c, cs, hcs, hc⟩ := decimal_eq_cons n
    have hne {d : UInt8} (hd : isDigit d = false) : c ≠ d := by
      rintro rfl
      exact absurd (hc.symm.trans hd) (by decide)
    have hread := readDecimal_decimal n hrest
    rw [if_neg (by decide)]
    rw [hcs, List.cons_append] at hread ⊢
    rw [readValue, if_neg (hne (by decide)), if_neg (hne (by decide)), if_neg (hne (by decide)), if_neg (hne (by decide)),
      if_neg (hne (by decide)), hread]

theorem readValue_bool (b : Bool) (rest : List UInt8) (fuel : Nat) :
    readValue (fuel + 1) ((if b then ascii "true" else ascii "false") ++ rest) = some (.bool b, rest) := by
  cases b <;> rfl

/-- A member in front of `tail` is read, whatever is then made of what follows it. -/
theorem readMembers_member {k : List UInt8} {v : Json} {kt vt tail : List UInt8} {fuel : Nat} {c : UInt8}
    (hk : marshalString k = some kt) (hv : readValue fuel (vt ++ c :: tail) = some (v, c :: tail)) :
    readMembers (fuel + 1) (kt ++ colon :: vt ++ c :: tail)
      = if c = comma then (readMembers fuel tail).map fun r => ((k, v) :: r.1, r.2) else some ([(k, v)], tail) := by
  have hhead : kt ++ colon :: vt ++ c :: tail = dquote :: (k.flatMap escape ++ dquote :: colon :: (vt ++ c :: tail)) := by
    simp [eq_quoted_of_marshalString hk, quoted]
  rw [hhead, readMembers, if_neg (by decide), readString_quoted]
  change (readValue fuel (vt ++ c :: tail)).bind _ = _
  rw [hv]
  change (if c = comma then _ else _) = _
  by_cases hc : c = comma
  · rw [if_pos hc, if_pos hc]
    cases readMembers fuel tail <;> rfl
  · rw [if_neg hc, if_neg hc]
    rfl

mutual

theorem readValue_render : (j : Json) → ∀ {t : List UInt8}, j.render = some t → ∀ (rest : List UInt8), Stops rest →
    ∀ (fuel : Nat), t.length < fuel → readValue fuel (t ++ rest) = some (j, rest)
  | j, _, _, _, _, 0, hfuel => absurd hfuel (Nat.not_lt_zero _)
  | .str s, t, h, rest, _, fuel + 1, _ => by
    rw [render] at h
    rw [eq_quoted_of_marshalString h]
    change readValue (fuel + 1) (dquote :: (s.flatMap escape ++ [dquote] ++ rest)) = _
    rw [readValue, if_pos rfl, List.append_assoc, List.singleton_append, readString_quoted]
    rfl
  | .num minus n, t, h, rest, hrest, fuel + 1, _ => by
    rw [render] at h
    rw [← Option.some.inj h]
    exact readValue_num minus n hrest fuel
  | .bool b, t, h, rest, _, fuel + 1, _ => by
    rw [render] at h
    rw [← Option.some.inj h]
    exact readValue_bool b rest fuel
  | .obj members, t, h, rest, _, fuel + 1, hfuel => by
    rw [render] at h
    obtain ⟨u, hu, rfl⟩ := Option.map_eq_some_iff.mp h
    simp only [List.length_append, List.length_cons] at hfuel
    change readValue (fuel + 1) (lbrace :: (u ++ [rbrace] ++ rest)) = _
    rw [readValue, if_neg (by decide), if_pos rfl, List.append_assoc, List.singleton_append,
      readMembers_render members hu rest fuel (by omega)]
    rfl

theorem readMembers_render : (members : List (List UInt8 × Json)) → ∀ {t : List UInt8}, renderMembers members = some t →
    ∀ (rest : List UInt8) (fuel : Nat), t.length < fuel → readMembers fuel (t ++ rbrace :: rest) = some (members, rest)
  | _, _, _, _, 0, hfuel => absurd hfuel (Nat.not_lt_zero _)
  | [], t, h, rest, fuel + 1, _ => by
    rw [renderMembers] at h
    rw [← Option.some.inj h]
    rfl
  | [(k, v)], t, h, rest, fuel + 1, hfuel => by
    rw [renderMembers] at h
    simp only [bind, Option.bind_eq_some_iff] at h
    obtain ⟨kt, hk, vt, hv, heq⟩ := h
    cases heq
    simp only [List.length_append, List.length_cons] at hfuel
    have hread := readValue_render v hv (rbrace :: rest) (by intro c hc; cases hc; decide) fuel (by omega)
    exact readMembers_member hk hread
  | (k, v) :: member :: members, t, h, rest, fuel + 1, hfuel => by
    rw [renderMembers] at h
    simp only [bind, Option.bind_eq_some_iff] at h
    obtain ⟨kt, hk, vt, hv, u, hu, heq⟩ := h
    cases heq
    simp only [List.length_append, List.length_cons] at hfuel
    have hread := readValue_render v hv (comma :: (u ++ rbrace :: rest)) (by intro c hc; cases hc; decide) fuel (by omega)
    rw [List.append_assoc, List.cons_append, readMembers_member hk hread, if_pos rfl,
      readMembers_render (member :: members) hu rest fuel (by omega)]
    rfl

end

end Compact

end Json

/-- A reader that is inverse to the writer. -/
class JsonReader where
  parse : List UInt8 → Option Json
  parse_render : ∀ {j : Json} {t : List UInt8}, j.render = some t → parse t = some j

namespace Json.Compact

@[reducible] def reader : JsonReader where
  parse t :=
    match readValue (t.length + 1) t with
    | some (j, []) => some j
    | _ => none
  parse_render := by
    intro j t h
    have hread := readValue_render j h [] (by simp [Stops]) _ (Nat.lt_succ_self t.length)
    rw [List.append_nil] at hread
    rw [hread]

end Json.Compact
