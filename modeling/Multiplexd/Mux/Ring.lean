import Multiplexd.Mux.Unacked

/-!
# What the ring holds

An entry of the ring packs several frames, of which the last `unackedCount` are still unconfirmed. The
frames the ring stands for are those, entry by entry. `RingOk` is the well-formedness of the ring with
its cached totals, and a trim drops exactly the confirmed frames from the front.
-/

namespace Multiplexd

namespace MuxFrame

def live (f : MuxFrame) : List Item := f.items.drop (f.items.length - f.unackedCount)

def confirmedLen (f : MuxFrame) : Nat :=
  (itemBytes (f.items.take (f.items.length - f.unackedCount))).length

variable {f : MuxFrame}

theorem live_length (h : f.unackedCount ≤ f.items.length) : f.live.length = f.unackedCount := by
  simp only [live, List.length_drop]
  omega

theorem live_of_count_eq (h : f.unackedCount = f.items.length) : f.live = f.items := by
  simp [live, h]

theorem confirmedLen_of_count_eq (h : f.unackedCount = f.items.length) : f.confirmedLen = 0 := by
  simp [confirmedLen, h]

/-- Confirming `n` more frames of an entry. -/
theorem live_sub {n : Nat} (h : f.unackedCount ≤ f.items.length) (hn : n ≤ f.unackedCount) :
    { f with unackedCount := f.unackedCount - n }.live = f.live.drop n := by
  simp only [live, List.drop_drop]
  congr 1
  omega

end MuxFrame

def itemsPayload (is : List Item) : Nat := (is.map fun i => i.frame.payload.length).sum

@[simp] theorem itemsPayload_nil : itemsPayload [] = 0 := rfl

@[simp] theorem itemsPayload_append (is js : List Item) :
    itemsPayload (is ++ js) = itemsPayload is + itemsPayload js := by
  simp [itemsPayload]

/-- The frames the ring stands for. -/
def ringLive (ring : List MuxFrame) : List Item := ring.flatMap MuxFrame.live

@[simp] theorem ringLive_nil : ringLive [] = [] := rfl

@[simp] theorem ringLive_cons (f : MuxFrame) (fs : List MuxFrame) :
    ringLive (f :: fs) = f.live ++ ringLive fs := by
  simp [ringLive]

@[simp] theorem ringLive_append (fs gs : List MuxFrame) : ringLive (fs ++ gs) = ringLive fs ++ ringLive gs := by
  simp [ringLive]

def ringCount (ring : List MuxFrame) : Nat := (ring.map MuxFrame.unackedCount).sum

@[simp] theorem ringCount_nil : ringCount [] = 0 := rfl

@[simp] theorem ringCount_cons (f : MuxFrame) (fs : List MuxFrame) :
    ringCount (f :: fs) = f.unackedCount + ringCount fs := by
  simp [ringCount]

@[simp] theorem ringCount_append (fs gs : List MuxFrame) :
    ringCount (fs ++ gs) = ringCount fs + ringCount gs := by
  simp [ringCount]

def ringOffset : List MuxFrame → Nat
  | [] => 0
  | f :: _ => f.confirmedLen

/-- The ring by itself: only frames of streams, no entry confirmed as a whole, and none but the first
in part. -/
structure RingWf (ring : List MuxFrame) : Prop where
  tracked : ∀ f ∈ ring, ∀ i ∈ f.items, i.tracked
  pos : ∀ f ∈ ring, 0 < f.unackedCount
  le : ∀ f ∈ ring, f.unackedCount ≤ f.items.length
  tail : ∀ f ∈ ring.tail, f.unackedCount = f.items.length

/-- The ring with the totals the session caches. -/
structure RingOk (ring : List MuxFrame) (frames bytes partialOffset : Nat) : Prop extends RingWf ring where
  frames_eq : frames = ringCount ring
  bytes_eq : bytes = itemsPayload (ringLive ring)
  offset_eq : partialOffset = ringOffset ring

theorem RingOk.nil : RingOk [] 0 0 0 where
  tracked := by simp
  pos := by simp
  le := by simp
  tail := by simp
  frames_eq := rfl
  bytes_eq := rfl
  offset_eq := rfl

variable {f : MuxFrame} {fs ring : List MuxFrame}

theorem RingWf.of_cons (h : RingWf (f :: fs)) : RingWf fs where
  tracked g hg := h.tracked g (List.mem_cons_of_mem _ hg)
  pos g hg := h.pos g (List.mem_cons_of_mem _ hg)
  le g hg := h.le g (List.mem_cons_of_mem _ hg)
  tail g hg := h.tail g (List.mem_of_mem_tail hg)

theorem RingWf.take (h : RingWf ring) (k : Nat) : RingWf (ring.take k) where
  tracked f hf := h.tracked f (List.mem_of_mem_take hf)
  pos f hf := h.pos f (List.mem_of_mem_take hf)
  le f hf := h.le f (List.mem_of_mem_take hf)
  tail f hf := h.tail f (by
    rw [← List.drop_one, List.drop_take, List.drop_one] at hf
    exact List.mem_of_mem_take hf)

theorem RingWf.ringLive_length (h : RingWf ring) : (ringLive ring).length = ringCount ring := by
  induction ring with
  | nil => rfl
  | cons f fs ih =>
    simp [MuxFrame.live_length (h.le f List.mem_cons_self), ih h.of_cons]

theorem RingWf.ringOffset_tail (h : RingWf (f :: fs)) : ringOffset fs = 0 := by
  cases fs with
  | nil => rfl
  | cons g gs => exact MuxFrame.confirmedLen_of_count_eq (h.tail g (by simp))

/-- A new entry, all of whose frames are unconfirmed. -/
theorem RingOk.push {frames bytes partialOffset : Nat}
    (h : RingOk ring frames bytes partialOffset) (hitems : f.items ≠ [])
    (htracked : ∀ i ∈ f.items, i.tracked) (hcount : f.unackedCount = f.items.length) :
    RingOk (ring ++ [f]) (frames + f.items.length) (bytes + itemsPayload f.items) partialOffset where
  tracked g hg := by
    rcases List.mem_append.mp hg with hg | hg
    · exact h.tracked g hg
    · exact List.mem_singleton.mp hg ▸ htracked
  pos g hg := by
    rcases List.mem_append.mp hg with hg | hg
    · exact h.pos g hg
    · rw [List.mem_singleton.mp hg, hcount]
      exact List.length_pos_iff.mpr hitems
  le g hg := by
    rcases List.mem_append.mp hg with hg | hg
    · exact h.le g hg
    · exact Nat.le_of_eq (List.mem_singleton.mp hg ▸ hcount)
  tail g hg := by
    cases ring with
    | nil => simp at hg
    | cons r rs =>
      rcases List.mem_append.mp (by simpa using hg : g ∈ rs ++ [f]) with hg | hg
      · exact h.tail g hg
      · rw [List.mem_singleton.mp hg, hcount]
  frames_eq := by simp [h.frames_eq, hcount]
  bytes_eq := by simp [h.bytes_eq, MuxFrame.live_of_count_eq hcount]
  offset_eq := by
    cases ring with
    | nil => simp [h.offset_eq, ringOffset, MuxFrame.confirmedLen_of_count_eq hcount]
    | cons r rs => simp [h.offset_eq, ringOffset]

theorem itemsFrom_length_take (is : List Item) (k : Nat) :
    itemsFrom is (itemBytes (is.take k)).length = is.drop k := by
  induction is generalizing k with
  | nil => simp [itemsFrom]
  | cons i is ih =>
    cases k with
    | zero => simp [itemsFrom]
    | succ k =>
      have hsize : (itemBytes ((i :: is).take (k + 1))).length
          = i.frame.size + (itemBytes (is.take k)).length := by
        simp [itemBytes, Frame.size, frameCode]
      have hpos := i.frame.size_pos
      rw [hsize, itemsFrom, if_neg (by omega), Nat.add_sub_cancel_left, ih, List.drop_succ_cons]

theorem itemsFrom_confirmedLen (f : MuxFrame) : itemsFrom f.items f.confirmedLen = f.live :=
  itemsFrom_length_take f.items _

theorem framePayloadBytesFrom_confirmedLen (n : Nat)
    (hle : f.unackedCount ≤ f.items.length) (hn : n ≤ f.unackedCount) : framePayloadBytesFrom f f.confirmedLen n
      = (itemsPayload (f.live.take n), { f with unackedCount := f.unackedCount - n }.confirmedLen) := by
  have hsplit : f.items.take (f.items.length - (f.unackedCount - n))
      = f.items.take (f.items.length - f.unackedCount) ++ f.live.take n := by
    rw [MuxFrame.live, ← List.take_add]
    congr 1
    omega
  rw [framePayloadBytesFrom, itemsFrom_confirmedLen]
  simp [itemsPayload, MuxFrame.confirmedLen, hsplit]

end Multiplexd
