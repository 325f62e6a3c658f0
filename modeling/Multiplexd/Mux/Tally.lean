import Mathlib.Data.List.Nodup
import Multiplexd.Mux.Base

/-!
# Where each frame is

A frame is known by the number of its production. `tally b` counts the frames with the number `b`, and
the lemmas say how the count of each buffer changes when frames are queued, packed, withdrawn, written
or captured, so that a frame that is in one place only stays in one place only.
-/

namespace Multiplexd

def tally (b : Nat) (is : List Item) : Nat := is.countP (·.birth == b)

@[simp] theorem tally_nil (b : Nat) : tally b [] = 0 := rfl

@[simp] theorem tally_append (b : Nat) (is js : List Item) : tally b (is ++ js) = tally b is + tally b js := by
  simp [tally]

theorem tally_singleton (b : Nat) (i : Item) : tally b [i] = if i.birth = b then 1 else 0 := by
  simp [tally, List.countP_cons]

theorem tally_sublist {is js : List Item} (h : is.Sublist js) (b : Nat) : tally b is ≤ tally b js :=
  h.countP_le

theorem tally_filter_le (b : Nat) (p : Item → Bool) (is : List Item) : tally b (is.filter p) ≤ tally b is :=
  tally_sublist List.filter_sublist b

theorem tally_filter_add (b : Nat) (p : Item → Bool) (is : List Item) :
    tally b (is.filter fun i => !p i) + tally b (is.filter p) = tally b is := by
  induction is with
  | nil => rfl
  | cons i is ih =>
    have hcons : ∀ js : List Item, tally b (i :: js) = tally b js + if i.birth == b then 1 else 0 :=
      fun js => List.countP_cons
    cases hp : p i <;> simp only [List.filter_cons, hp, Bool.not_true, Bool.not_false, if_true,
      Bool.false_eq_true, if_false, hcons] <;> omega

/-- No frame occurs twice. -/
theorem nodup_of_tally {is : List Item} (h : ∀ b, tally b is ≤ 1) : (is.map Item.birth).Nodup := by
  rw [List.nodup_iff_count_le_one]
  intro b
  rw [List.count, List.countP_map]
  exact h b

namespace MuxFrame

def unsent (f : MuxFrame) : List Item := f.items.drop (wholeItems f.items f.pos)

variable (f : MuxFrame)

theorem complete_append_unsent : f.complete ++ f.unsent = f.items :=
  List.take_append_drop _ _

theorem unsent_of_pos {f : MuxFrame} (h : f.pos = 0) : f.unsent = f.items := by
  simp [unsent, wholeItems, h]

theorem complete_of_pos {f : MuxFrame} (h : f.pos = 0) : f.complete = [] := by
  simp [complete, wholeItems, h]

theorem wholeItems_cut : wholeItems f.cut.items f.cut.pos = 0 := by
  have := frameCode.whole_drop_whole (f.items.map Item.frame) f.pos
  simpa [cut, complete, wholeItems, itemBytes, List.map_drop, List.map_take] using this

theorem unsent_cut : f.cut.unsent = f.unsent := by
  rw [unsent, wholeItems_cut, List.drop_zero]
  rfl

theorem complete_cut : f.cut.complete = [] := by
  rw [complete, wholeItems_cut, List.take_zero]

def completed (f : MuxFrame) (n : Nat) : List Item :=
  (f.items.take (wholeItems f.items (f.pos + n))).drop (wholeItems f.items f.pos)

theorem complete_append_completed (n : Nat) : f.complete ++ f.completed n = (f.moved n).complete := by
  have hle : wholeItems f.items f.pos ≤ wholeItems f.items (f.pos + n) :=
    frameCode.whole_mono _ (Nat.le_add_right _ _)
  have hsplit := List.take_append_drop (wholeItems f.items f.pos)
    (f.items.take (wholeItems f.items (f.pos + n)))
  rwa [List.take_take, Nat.min_eq_left hle] at hsplit

theorem completed_append_unsent (n : Nat) : f.completed n ++ (f.moved n).unsent = f.unsent := by
  have h := (f.moved n).complete_append_unsent
  rw [← complete_append_completed, List.append_assoc] at h
  exact List.append_cancel_left (h.trans f.complete_append_unsent.symm)

theorem completed_sublist (n : Nat) : (f.completed n).Sublist f.unsent := by
  rw [← f.completed_append_unsent n]
  exact List.sublist_append_left _ _

/-- A write that reaches the end of the entry completes all that was unsent. -/
theorem completed_of_full {f : MuxFrame} {n : Nat} (hlen : f.pos + n = f.len) : f.completed n = f.unsent := by
  have hwhole : wholeItems f.items (f.pos + n) = f.items.length := by
    have := frameCode.whole_eq_length (Nat.le_of_eq hlen.symm)
    simpa [wholeItems] using this
  rw [completed, hwhole, List.take_length]
  rfl

theorem completed_subset (n : Nat) : ∀ i ∈ f.completed n, i ∈ f.items :=
  fun _ hi => List.mem_of_mem_take (List.mem_of_mem_drop hi)

end MuxFrame

theorem Session.handOver_sent (ss : Session) (frame : MuxFrame) (n : Nat) :
    (ss.handOver frame n).sent = ss.sent ++ frame.completed n := rfl

def queued (fs : List MuxFrame) : List Item := fs.flatMap fun f => if f.isCopy then [] else f.unsent

/-- The frames of a list of entries. -/
def held (fs : List MuxFrame) : List Item := fs.flatMap MuxFrame.items

@[simp] theorem queued_nil : queued [] = [] := rfl

@[simp] theorem queued_cons (f : MuxFrame) (fs : List MuxFrame) :
    queued (f :: fs) = (if f.isCopy then [] else f.unsent) ++ queued fs := by
  simp [queued]

@[simp] theorem queued_append (fs gs : List MuxFrame) : queued (fs ++ gs) = queued fs ++ queued gs := by
  simp [queued]

@[simp] theorem held_nil : held [] = [] := rfl

@[simp] theorem held_cons (f : MuxFrame) (fs : List MuxFrame) : held (f :: fs) = f.items ++ held fs := by
  simp [held]

@[simp] theorem held_append (fs gs : List MuxFrame) : held (fs ++ gs) = held fs ++ held gs := by
  simp [held]

theorem Pushed.tally_queued {sendbuf sendbuf' oobbuf dgrambuf : List MuxFrame} {staging staging' : Bool}
    {f : MuxFrame} (hp : Pushed sendbuf staging f sendbuf' staging')
    (h : BufOk sendbuf oobbuf dgrambuf staging) (hcopy : f.isCopy = false) (b : Nat) :
    tally b (queued sendbuf') = tally b (queued sendbuf) + tally b f.items := by
  cases hp with
  | append =>
    have hunsent : { f with pos := 0 }.unsent = f.items := MuxFrame.unsent_of_pos (f := { f with pos := 0 }) rfl
    rw [queued_append, queued_cons, queued_nil, List.append_nil, hunsent, if_neg (by simp [hcopy]),
      tally_append]
  | pack tail hstaging htail =>
    obtain ⟨_, hmem, hpos, htc⟩ := h.staging hstaging
    obtain rfl := Option.some.inj (htail.symm.trans hmem)
    obtain ⟨init, rfl⟩ := List.getLast?_eq_some_iff.mp htail
    have hunsent : { tail with items := tail.items ++ f.items }.unsent = tail.items ++ f.items :=
      MuxFrame.unsent_of_pos (f := { tail with items := tail.items ++ f.items }) hpos
    rw [List.dropLast_concat, queued_append, queued_append, queued_cons, queued_cons, queued_nil, hunsent,
      MuxFrame.unsent_of_pos hpos, if_neg (by simp [htc]), if_neg (by simp [htc])]
    simp only [List.append_nil, tally_append]
    omega

theorem Thinned.tally_queued {p : Item → Bool} {copy : Bool} {fs gs : List MuxFrame}
    (h : Thinned p copy fs gs) (b : Nat) : tally b (queued gs) ≤ tally b (queued fs) := by
  induction h with
  | nil => exact Nat.le_refl _
  | keep f _ ih =>
    simp only [queued_cons, tally_append]
    omega
  | thin f hpos _ _ _ ih =>
    have hthin : { f with items := f.items.filter p }.unsent = f.items.filter p :=
      MuxFrame.unsent_of_pos (f := { f with items := f.items.filter p }) hpos
    have := tally_filter_le b p f.items
    rw [queued_cons, queued_cons, hthin, MuxFrame.unsent_of_pos hpos, tally_append, tally_append]
    cases f.isCopy
    · simp only [Bool.false_eq_true, if_false]
      omega
    · simp only [if_true, tally_nil]
      omega
  | drop f _ _ _ _ ih =>
    simp only [queued_cons, tally_append]
    omega

theorem tally_held_filterMap (id : UInt16) (fs : List MuxFrame) (b : Nat) :
    tally b (held (fs.filterMap fun f => if f.pos == 0 then Session.discardEntry id f else some f)) ≤
      tally b (held fs) := by
  induction fs with
  | nil => exact Nat.le_refl _
  | cons f fs ih =>
    have hle := tally_filter_le b (Session.survives id) f.items
    rw [List.filterMap_cons, held_cons, tally_append]
    split
    · omega
    next g heq =>
      have hg : tally b g.items ≤ tally b f.items := by
        split at heq
        · unfold Session.discardEntry at heq
          dsimp only at heq
          split at heq
          · cases heq
          · exact Option.some.inj heq ▸ hle
        · exact Nat.le_of_eq (by rw [Option.some.inj heq])
      rw [held_cons, tally_append]
      omega

theorem tally_captureItems {copy : Bool} {fs : List MuxFrame} (hcopy : copy = false → ∀ f ∈ fs, f.isCopy = false)
    (hcut : ∀ f ∈ fs, ∀ i ∈ f.complete, i.tracked = false) (b : Nat) :
    tally b (captureItems copy fs) ≤ tally b ((queued fs).filter Item.tracked) := by
  induction fs with
  | nil => exact Nat.le_refl _
  | cons f fs ih =>
    have ih := ih (fun h g hg => hcopy h g (List.mem_cons_of_mem _ hg))
      (fun g hg => hcut g (List.mem_cons_of_mem _ hg))
    simp only [captureItems_cons, queued_cons, List.filter_append, tally_append]
    have hkept : tally b f.kept ≤ tally b (f.unsent.filter Item.tracked) := by
      unfold MuxFrame.kept
      split
      · exact Nat.zero_le _
      · have hnone : f.complete.filter Item.tracked = [] :=
          List.filter_eq_nil_iff.mpr fun i hi => by simp [hcut f List.mem_cons_self i hi]
        exact Nat.le_of_eq (by rw [← f.complete_append_unsent, List.filter_append, hnone, List.nil_append])
    by_cases hc : f.isCopy = true
    · have : copy = true := by
        by_contra hne
        exact absurd (hcopy (by simpa using hne) f List.mem_cons_self) (by simp [hc])
      subst this
      simp only [hc, Bool.and_self, if_true, tally_nil, List.filter_nil]
      omega
    · simp only [hc, Bool.and_false, Bool.false_eq_true, if_false]
      omega

theorem tally_captureItems_held (copy : Bool) (fs : List MuxFrame) (b : Nat) :
    tally b (captureItems copy fs) ≤ tally b (held fs) := by
  induction fs with
  | nil => exact Nat.le_refl _
  | cons f fs ih =>
    have hkept : tally b f.kept ≤ tally b f.items := by
      unfold MuxFrame.kept
      split
      · exact Nat.zero_le _
      · exact tally_filter_le b _ _
    simp only [captureItems_cons, held_cons, tally_append]
    split
    · simp only [tally_nil]
      omega
    · omega

end Multiplexd
