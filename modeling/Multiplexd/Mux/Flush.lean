import Multiplexd.Mux.Buffers

/-!
# Writing the head of the send buffer

The specifications of a write that takes a part of the head entry and of one that takes all of it:
which frames are logged, and that the bytes handed over are whole frames followed by the written part of
the frame the head is now in the middle of.
-/

namespace Multiplexd

namespace MuxFrame

theorem complete_append_cut (f : MuxFrame) : f.complete ++ f.cut.items = f.items :=
  List.take_append_drop _ _

theorem torn_cut (f : MuxFrame) :
    frameCode.torn (f.cut.items.map Item.frame) f.cut.pos = frameCode.torn (f.items.map Item.frame) f.pos := by
  have := frameCode.torn_drop_whole (f.items.map Item.frame) f.pos
  simpa [cut, complete, wholeItems, itemBytes, List.map_drop, List.map_take] using this

theorem cut_pos_lt {f : MuxFrame} (h : f.pos < f.len) : f.cut.pos < f.cut.len := by
  have hle : (itemBytes f.complete).length ≤ f.pos := by
    have := frameCode.encodeAll_take_whole_le (f.items.map Item.frame) f.pos
    simpa [complete, wholeItems, itemBytes, List.map_take] using this
  have hlen : f.len = (itemBytes f.complete).length + f.cut.len := by
    rw [len, bytes, ← f.complete_append_cut, itemBytes_append, List.length_append]
    rfl
  have hpos : f.cut.pos = f.pos - (itemBytes f.complete).length := rfl
  omega

theorem cut_items_ne_nil {f : MuxFrame} (h : f.pos < f.len) : f.cut.items ≠ [] := by
  intro hnil
  have := cut_pos_lt h
  simp [len, bytes, hnil] at this

end MuxFrame

namespace Session

/-- `mux_unacked_track_sent` of the replay copy: its entry has been replayed. -/
def retireCopy (ss : Session) : Session :=
  { ss with
    retransmittedFrames := ss.retransmittedFrames + ss.retransmitCopyCount
    retransmitOff := ss.retransmitOff.map (· + 1)
    retransmitCopy := false, retransmitCopyCount := 0, retransmitCopySent := 0 }

theorem trackSent_copy {ss : Session} {f : MuxFrame} (hne : f.items ≠ []) (hhello : f.startsHello = false)
    (hcopy : (ss.retransmitCopy && f.isCopy) = true) : ss.trackSent f = ss.retireCopy := by
  obtain ⟨first, rest, hitems⟩ := List.exists_cons_of_ne_nil hne
  rw [MuxFrame.startsHello, hitems] at hhello
  rw [trackSent, hitems]
  simp only [hhello, Bool.false_eq_true, if_false, hcopy, if_true]
  rfl

theorem copyItems_eq {ss : Session} {off : Nat} {orig : MuxFrame} (hlog : ss.LogInv)
    (horig : ss.ring[off]? = some orig) :
    itemsFrom orig.items (if off = 0 then ss.partialOffset else 0) = orig.live := by
  cases off with
  | zero =>
    obtain ⟨rest, hring⟩ : ∃ rest, ss.ring = orig :: rest := by
      cases h : ss.ring with
      | nil => simp [h] at horig
      | cons f fs => exact ⟨fs, by simpa [h] using horig⟩
    have hoffset := hlog.offset_eq
    rw [hring] at hoffset
    rw [if_pos rfl, hoffset]
    exact itemsFrom_confirmedLen orig
  | succ k =>
    have hmem : orig ∈ ss.ring.tail := by
      refine List.mem_of_getElem? (i := k) ?_
      cases h : ss.ring with
      | nil => simp [h] at horig
      | cons f fs => simpa [h] using horig
    rw [if_neg (Nat.succ_ne_zero k), MuxFrame.live_of_count_eq (hlog.tail orig hmem)]
    cases orig.items <;> simp [itemsFrom]

/-- The outcomes of `mux_unacked_track_sent`. -/
theorem trackSent_cases (ss : Session) (f : MuxFrame) (hst : ss.state ≠ .closed) :
    (f.items ≠ [] ∧ f.startsHello = false ∧ (ss.retransmitCopy && f.isCopy) = true ∧
      ss.trackSent f = ss.retireCopy) ∨
    (((ss.retransmitCopy && f.isCopy) = true → f.items = [] ∨ f.startsHello = true) ∧
      ss.Logs f.kept (ss.trackSent f)) ∨ ss.ClosedTo (ss.trackSent f) := by
  by_cases hcopy : (ss.retransmitCopy && f.isCopy) = true
  · by_cases hne : f.items = []
    · refine .inr (.inl ⟨fun _ => .inl hne, ?_⟩)
      have htrack : ss.trackSent f = ss := by rw [trackSent, hne]
      have hkept : f.kept = [] := by simp [MuxFrame.kept, hne]
      rw [htrack, hkept]
      exact .refl ss ss.allocs
    cases hhello : f.startsHello with
    | false => exact .inl ⟨hne, rfl, hcopy, trackSent_copy hne hhello hcopy⟩
    | true =>
      refine .inr (.inl ⟨fun _ => .inr rfl, ?_⟩)
      obtain ⟨first, rest, hitems⟩ := List.exists_cons_of_ne_nil hne
      have htrack : ss.trackSent f = ss := by
        rw [MuxFrame.startsHello, hitems] at hhello
        rw [trackSent, hitems]
        simp [hhello]
      have hkept : f.kept = [] := by simp [MuxFrame.kept, hhello]
      rw [htrack, hkept]
      exact .refl ss ss.allocs
  · rcases trackSent_spec ss f hst (by simpa using hcopy) with hlogs | hclosed
    · exact .inr (.inl ⟨fun h => absurd h hcopy, hlogs⟩)
    · exact .inr (.inr hclosed)

/-- The outcomes of `mux_unacked_track_partial`. -/
theorem trackPartial_spec (ss : Session) (f : MuxFrame) (rest : List MuxFrame) (hst : ss.state ≠ .closed) :
    (ss.trackPartial f rest = ss ∧ (f.startsHello = true ∨ ∀ i ∈ f.complete, i.tracked = false)) ∨
    (f.startsHello = false ∧ (ss.retransmitCopy && f.isCopy) = true ∧
      ss.trackPartial f rest = { ss with
        retransmitCopySent := ss.retransmitCopySent + f.complete.countP Item.tracked
        sendbuf := f.cut :: rest }) ∨
    (f.startsHello = false ∧ (ss.retransmitCopy && f.isCopy) = false ∧
      { ss with sendbuf := f.cut :: rest }.Logs (f.complete.filter Item.tracked) (ss.trackPartial f rest)) ∨
    ss.ClosedTo (ss.trackPartial f rest) := by
  unfold trackPartial
  split
  case h_1 hitems =>
    exact .inl ⟨rfl, .inr (by simp [MuxFrame.complete, hitems])⟩
  case h_2 first tail hitems =>
    have hstart : f.startsHello = first.isHello := by rw [MuxFrame.startsHello, hitems]
    by_cases hhello : first.isHello = true
    · exact .inl ⟨if_pos hhello, .inl (hstart.trans hhello)⟩
    have hstart' : f.startsHello = false := by simpa [hstart] using hhello
    rw [if_neg hhello]
    by_cases hn : f.complete.countP Item.tracked = 0
    · refine .inl ⟨if_pos hn, .inr fun i hi => ?_⟩
      simpa using List.countP_eq_zero.mp hn i hi
    rw [if_neg hn]
    by_cases hcopy : (ss.retransmitCopy && f.isCopy) = true
    · exact .inr (.inl ⟨hstart', hcopy, if_pos hcopy⟩)
    rw [if_neg hcopy]
    obtain ⟨ok, allocs, hget⟩ := ss.frameGet_eq
    rw [hget]
    cases ok with
    | false => exact .inr (.inr (.inr (reset_closedTo (s := ss.withAllocs allocs) hst)))
    | true =>
      have hkept : MuxFrame.kept { items := f.complete, cap := ss.maxPayload }
          = f.complete.filter Item.tracked := by
        have : (MuxFrame.startsHello { items := f.complete, cap := ss.maxPayload }) = false := by
          unfold MuxFrame.startsHello MuxFrame.complete
          cases hk : wholeItems f.items f.pos <;> simp_all
        simp [MuxFrame.kept, this]
      simp only [Bool.not_true, Bool.false_eq_true, if_false]
      rcases trackSent_spec { ss with allocs := allocs, sendbuf := f.cut :: rest }
          { items := f.complete, cap := ss.maxPayload } hst (by simp) with hlogs | hclosed
      · rw [hkept] at hlogs
        obtain ⟨entries, stalled, allocs', hentries, hitems', heq⟩ := hlogs
        refine .inr (.inr (.inl ⟨hstart', by simpa using hcopy, entries, stalled, allocs', hentries, hitems', ?_⟩))
        exact heq
      · exact .inr (.inr (.inr hclosed))

theorem handOver_out {ss : Session} {f : MuxFrame} (n : Nat)
    (h : ss.out = itemBytes ss.sent ++ frameCode.torn (f.items.map Item.frame) f.pos) : (ss.handOver f n).out =
      itemBytes (ss.handOver f n).sent ++ frameCode.torn (f.items.map Item.frame) (f.pos + n) := by
  have := frameCode.torn_append_take (f.items.map Item.frame) f.pos n
  simp only [handOver, h, itemBytes_append, List.append_assoc]
  congr 1
  simpa [MuxFrame.bytes, itemBytes, wholeItems, List.map_take, List.map_drop] using this

end Session

end Multiplexd
