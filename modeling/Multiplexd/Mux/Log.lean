import Multiplexd.Mux.Steps

/-!
# The log

`LogOk` ties the ring and the replay cursor to the history: the frames ever logged, less those the peer
has confirmed, are the frames the ring stands for. `CopyOk` says which part of which entry is being
replayed. Both are statements about the fields they mention, so that a step which changes no such
field preserves them by definition.
-/

namespace Multiplexd

/-- The log, its ring and the replay cursor. -/
structure LogOk (logged : List Item) (acked : Nat) (ring : List MuxFrame)
    (frames bytes partialOffset : Nat) (off : Option Nat) (retransmitted : Nat) : Prop
    extends RingOk ring frames bytes partialOffset where
  acked_le : acked ≤ logged.length
  live_eq : logged.drop acked = ringLive ring
  replay : ∀ k, off = some k → k ≤ ring.length ∧ retransmitted = ringCount (ring.take k)

def CopyOk (ring : List MuxFrame) (off : Option Nat) (copy : Bool) (copyCount copySent : Nat)
    (sendbuf : List MuxFrame) : Prop :=
  match copy with
  | false => ∀ f ∈ sendbuf, f.isCopy = false
  | true => ∃ k orig head rest, off = some k ∧ ring[k]? = some orig ∧ sendbuf = head :: rest ∧
      head.isCopy = true ∧ head.items = orig.live.drop copySent ∧ copyCount = orig.unackedCount ∧
      copySent < copyCount ∧ ∀ f ∈ rest, f.isCopy = false

namespace LogOk

variable {logged : List Item} {acked : Nat} {ring : List MuxFrame} {frames bytes partialOffset : Nat}
  {off : Option Nat} {retransmitted : Nat}

theorem nil : LogOk [] 0 [] 0 0 0 none retransmitted where
  toRingOk := .nil
  acked_le := Nat.le_refl _
  live_eq := rfl
  replay k hk := by cases hk

section

variable (h : LogOk logged acked ring frames bytes partialOffset off retransmitted)
include h

theorem frames_eq_sub : frames = logged.length - acked := by
  rw [h.frames_eq, ← h.ringLive_length, ← h.live_eq, List.length_drop]

theorem length_eq : logged.length = acked + frames := by
  have := h.acked_le
  rw [h.frames_eq_sub]
  omega

/-- A new entry is logged. -/
theorem push {f : MuxFrame} (hitems : f.items ≠ []) (htracked : ∀ i ∈ f.items, i.tracked)
    (hcount : f.unackedCount = f.items.length) :
    LogOk (logged ++ f.items) acked (ring ++ [f]) (frames + f.items.length)
      (bytes + itemsPayload f.items) partialOffset off retransmitted where
  toRingOk := h.toRingOk.push hitems htracked hcount
  acked_le := by
    have := h.acked_le
    rw [List.length_append]
    omega
  live_eq := by
    rw [List.drop_append_of_le_length h.acked_le, h.live_eq]
    simp [MuxFrame.live_of_count_eq hcount]
  replay k hk := by
    obtain ⟨hle, hret⟩ := h.replay k hk
    refine ⟨by rw [List.length_append]; omega, ?_⟩
    rw [hret, List.take_append_of_le_length hle]

/-- The replay cursor is set to the start of the ring. -/
theorem rewind : LogOk logged acked ring frames bytes partialOffset (some 0) 0 where
  __ := h
  replay k hk := by
    obtain rfl : 0 = k := by simpa using hk
    simp

theorem unset (r : Nat) : LogOk logged acked ring frames bytes partialOffset none r where
  __ := h
  replay k hk := by cases hk

/-- The cursor moves past an entry that has been replayed. -/
theorem advance {k : Nat} {orig : MuxFrame} (hoff : off = some k) (horig : ring[k]? = some orig) :
    LogOk logged acked ring frames bytes partialOffset (some (k + 1))
      (retransmitted + orig.unackedCount) where
  __ := h
  replay j hj := by
    obtain rfl : k + 1 = j := by simpa using hj
    obtain ⟨hlt, rfl⟩ := List.getElem?_eq_some_iff.mp horig
    refine ⟨hlt, ?_⟩
    rw [(h.replay k hoff).2, List.take_succ_eq_append_getElem hlt, ringCount_append]
    simp

theorem take_replayed {k : Nat} {orig : MuxFrame} (hoff : off = some k) (horig : ring[k]? = some orig)
    {c m : Nat} (hm : c + m ≤ orig.unackedCount) : logged.take (acked + (retransmitted + c) + m) =
      logged.take (acked + (retransmitted + c)) ++ (orig.live.drop c).take m := by
  obtain ⟨hlt, rfl⟩ := List.getElem?_eq_some_iff.mp horig
  have hlive := MuxFrame.live_length (h.le ring[k] (List.getElem_mem hlt))
  have hpre : (ringLive (ring.take k)).length = retransmitted := by
    rw [(h.toRingWf.take k).ringLive_length, (h.replay k hoff).2]
  have hsplit : ringLive ring = ringLive (ring.take k) ++ (ring[k].live ++ ringLive (ring.drop (k + 1))) := by
    rw [← ringLive_cons, ← ringLive_append, ← List.drop_eq_getElem_cons hlt, List.take_append_drop]
  rw [List.take_add, ← Nat.add_assoc, ← List.drop_drop, ← List.drop_drop, h.live_eq, hsplit,
    List.drop_left' hpre, List.drop_append_of_le_length (by omega),
    List.take_append_of_le_length (by rw [List.length_drop]; omega)]

/-- A trim of the ring. -/
theorem trim {count : Nat} (hcount : count ≤ frames) {off' : Option Nat} {retransmitted' : Nat}
    (hreplay : ∀ k, off' = some k →
      k ≤ (trimRing ring count).length ∧ retransmitted' = ringCount ((trimRing ring count).take k)) :
    LogOk logged (acked + count) (trimRing ring count) (frames - count)
      (itemsPayload (ringLive (trimRing ring count))) (ringOffset (trimRing ring count)) off'
      retransmitted' where
  toRingWf := h.toRingWf.trimRing count
  frames_eq := by rw [h.toRingWf.ringCount_trimRing, h.frames_eq]
  bytes_eq := rfl
  offset_eq := rfl
  acked_le := by
    have := h.length_eq
    omega
  live_eq := by rw [h.toRingWf.ringLive_trimRing, ← h.live_eq, List.drop_drop]
  replay := hreplay

end

end LogOk

namespace CopyOk

variable {ring : List MuxFrame} {off : Option Nat} {copyCount copySent : Nat} {sendbuf : List MuxFrame}

theorem of_false {copy : Bool} (hcopy : copy = false) (h : ∀ f ∈ sendbuf, f.isCopy = false) :
    CopyOk ring off copy copyCount copySent sendbuf := by
  subst hcopy
  exact h

theorem of_true {copy : Bool} (hcopy : copy = true) {k : Nat} {orig head : MuxFrame}
    {rest : List MuxFrame} (hoff : off = some k) (horig : ring[k]? = some orig)
    (hbuf : sendbuf = head :: rest) (hhead : head.isCopy = true)
    (hitems : head.items = orig.live.drop copySent) (hcount : copyCount = orig.unackedCount)
    (hlt : copySent < copyCount) (hrest : ∀ f ∈ rest, f.isCopy = false) :
    CopyOk ring off copy copyCount copySent sendbuf := by
  subst hcopy
  exact ⟨k, orig, head, rest, hoff, horig, hbuf, hhead, hitems, hcount, hlt, hrest⟩

/-- An entry behind the head is no copy. -/
theorem rest {copy : Bool} {head : MuxFrame} {rest : List MuxFrame}
    (h : CopyOk ring off copy copyCount copySent (head :: rest)) : ∀ f ∈ rest, f.isCopy = false := by
  cases copy with
  | false => exact fun f hf => h f (List.mem_cons_of_mem _ hf)
  | true =>
    obtain ⟨_, _, _, _, _, _, hbuf, _, _, _, _, hrest⟩ := h
    obtain ⟨-, rfl⟩ := List.cons.inj hbuf
    exact hrest

theorem append {copy : Bool} (h : CopyOk ring off copy copyCount copySent sendbuf) {f : MuxFrame}
    (hf : f.isCopy = false) : CopyOk ring off copy copyCount copySent (sendbuf ++ [f]) := by
  cases copy with
  | false =>
    intro g hg
    rcases List.mem_append.mp hg with hg | hg
    · exact h g hg
    · exact List.mem_singleton.mp hg ▸ hf
  | true =>
    obtain ⟨k, orig, head, rest, hoff, horig, rfl, hhead, hitems, hcount, hlt, hrest⟩ := h
    refine ⟨k, orig, head, rest ++ [f], hoff, horig, rfl, hhead, hitems, hcount, hlt, ?_⟩
    intro g hg
    rcases List.mem_append.mp hg with hg | hg
    · exact hrest g hg
    · exact List.mem_singleton.mp hg ▸ hf

theorem ring_append {copy : Bool} (h : CopyOk ring off copy copyCount copySent sendbuf) (f : MuxFrame) :
    CopyOk (ring ++ [f]) off copy copyCount copySent sendbuf := by
  cases copy with
  | false => exact h
  | true =>
    obtain ⟨k, orig, head, rest, hoff, horig, hsplit⟩ := h
    refine ⟨k, orig, head, rest, hoff, ?_, hsplit⟩
    rw [List.getElem?_append_left (List.getElem?_eq_some_iff.mp horig).1, horig]

end CopyOk

end Multiplexd
