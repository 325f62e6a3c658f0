import Multiplexd.Lib.Framing

/-!
# Handling records as they become whole

A receiver appends what each read returns to a buffer and handles the records at the front of the buffer
until none is whole, or until its state is no longer one in which it handles any. However the stream is
cut into reads, the same records are handled in the same order from the same states.
-/

namespace SelfDelimiting

variable {α β σ : Type*} (c : SelfDelimiting α β) (live : σ → Bool) (handle : σ → α → σ)

variable {bs rest : List β} {a : α} {s : σ}

theorem length_of_decode (h : c.decode bs = some (a, rest)) : rest.length < bs.length := by
  have hpos := c.encode_length_pos a
  have hlen := congrArg List.length (c.eq_of_decode h)
  rw [List.length_append] at hlen
  omega

/-- Two ways to split one sequence into records and a torn rest are the same. -/
theorem encodeAll_torn_inj {xs ys : List α} {r r' : List β} (h : c.encodeAll xs ++ r = c.encodeAll ys ++ r')
    (hr : c.decode r = none) (hr' : c.decode r' = none) : xs = ys ∧ r = r' := by
  induction xs generalizing ys with
  | nil =>
    cases ys with
    | nil => exact ⟨rfl, h⟩
    | cons y ys =>
      rw [encodeAll_nil, List.nil_append, encodeAll_cons, List.append_assoc] at h
      rw [h, c.decode_append] at hr
      cases hr
  | cons x xs ih =>
    rw [encodeAll_cons, List.append_assoc] at h
    have hx := congrArg c.decode h
    rw [c.decode_append] at hx
    cases ys with
    | nil =>
      rw [encodeAll_nil, List.nil_append, hr'] at hx
      cases hx
    | cons y ys =>
      rw [encodeAll_cons, List.append_assoc, c.decode_append] at hx
      obtain ⟨rfl, hrest⟩ := Prod.mk.inj (Option.some.inj hx)
      obtain ⟨rfl, rfl⟩ := ih hrest
      exact ⟨rfl, rfl⟩

theorem decode_append_of_some (h : c.decode bs = some (a, rest)) (more : List β) :
    c.decode (bs ++ more) = some (a, rest ++ more) := by
  rw [c.eq_of_decode h, List.append_assoc, c.decode_append]

/-- Handle what is whole. -/
def drain (s : σ) (bs : List β) : σ × List β :=
  if live s then
    match _h : c.decode bs with
    | none => (s, bs)
    | some (a, rest) => drain (handle s a) rest
  else (s, bs)
termination_by bs.length
decreasing_by exact c.length_of_decode _h

variable {live} in
theorem drain_dead (h : live s = false) (bs : List β) : c.drain live handle s bs = (s, bs) := by
  rw [drain]
  simp [h]

theorem drain_torn (h : c.decode bs = none) (s : σ) : c.drain live handle s bs = (s, bs) := by
  rw [drain]
  split
  · split
    · rfl
    · simp_all
  · rfl

variable {live} in
theorem drain_next (hlive : live s = true) (h : c.decode bs = some (a, rest)) :
    c.drain live handle s bs = c.drain live handle (handle s a) rest := by
  rw [drain, if_pos hlive]
  split
  · simp_all
  · simp_all

/-- One read. -/
def feed (p : σ × List β) (chunk : List β) : σ × List β := c.drain live handle p.1 (p.2 ++ chunk)

/-- A live receiver that has handled what it has can be given the rest later. -/
theorem drain_append (s : σ) (bs more : List β) :
    (c.drain live handle s (bs ++ more)).1 = (c.feed live handle (c.drain live handle s bs) more).1
    ∧ (live (c.drain live handle s bs).1 = true →
      c.drain live handle s (bs ++ more) = c.feed live handle (c.drain live handle s bs) more) := by
  induction hn : bs.length using Nat.strongRecOn generalizing s bs with
  | _ n ih =>
    cases hlive : live s with
    | false =>
      rw [feed, c.drain_dead handle hlive, c.drain_dead handle hlive bs, c.drain_dead handle hlive]
      exact ⟨rfl, fun _ => rfl⟩
    | true =>
      cases hdec : c.decode bs with
      | none =>
        rw [feed, c.drain_torn live handle hdec]
        exact ⟨rfl, fun _ => rfl⟩
      | some p =>
        obtain ⟨a, rest⟩ := p
        rw [c.drain_next handle hlive hdec, c.drain_next handle hlive (c.decode_append_of_some hdec more)]
        exact ih rest.length (hn ▸ c.length_of_decode hdec) (handle s a) rest rfl

/-- What was handled and what is left are what was there, and nothing whole is left with a live
receiver. -/
theorem drain_whole {P : σ → Prop} {out : σ → List α}
    (hstep : ∀ s a, P s → live s → out (handle s a) = out s ++ [a] ∧ P (handle s a)) (hs : P s) (bs : List β) :
    c.encodeAll (out (c.drain live handle s bs).1) ++ (c.drain live handle s bs).2 = c.encodeAll (out s) ++ bs
    ∧ (live (c.drain live handle s bs).1 = true → c.decode (c.drain live handle s bs).2 = none)
    ∧ P (c.drain live handle s bs).1 := by
  induction hn : bs.length using Nat.strongRecOn generalizing s bs with
  | _ n ih =>
    cases hlive : live s with
    | false =>
      rw [c.drain_dead handle hlive]
      exact ⟨rfl, fun h => absurd h (by simp [hlive]), hs⟩
    | true =>
      cases hdec : c.decode bs with
      | none =>
        rw [c.drain_torn live handle hdec]
        exact ⟨rfl, fun _ => hdec, hs⟩
      | some p =>
        obtain ⟨a, rest⟩ := p
        obtain ⟨hout, hnext⟩ := hstep s a hs hlive
        obtain ⟨hall, hrest, hend⟩ := ih rest.length (hn ▸ c.length_of_decode hdec) hnext rest rfl
        rw [c.drain_next handle hlive hdec, hall, hout, c.eq_of_decode hdec]
        exact ⟨by simp, hrest, hend⟩

end SelfDelimiting
