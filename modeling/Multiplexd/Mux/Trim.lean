import Multiplexd.Mux.Ring

/-!
# Trimming the ring

The loop of `mux_unacked_ack_trim` in closed form: how many entries it pops, how much of the next entry
it confirms, and how many of the confirmed frames had been replayed.
-/

namespace Multiplexd

def MuxFrame.confirm (n : Nat) (f : MuxFrame) : MuxFrame := { f with unackedCount := f.unackedCount - n }

/-- The entries confirmed as a whole by a count of `n` frames. -/
def trimPopped : List MuxFrame → Nat → Nat
  | [], _ => 0
  | f :: fs, n => if n < f.unackedCount then 0 else trimPopped fs (n - f.unackedCount) + 1

def trimLeft : List MuxFrame → Nat → Nat
  | [], n => n
  | f :: fs, n => if n < f.unackedCount then n else trimLeft fs (n - f.unackedCount)

/-- The ring after a trim. -/
def trimRing (ring : List MuxFrame) (n : Nat) : List MuxFrame :=
  (ring.drop (trimPopped ring n)).modifyHead (MuxFrame.confirm (trimLeft ring n))

/-- The confirmed frames of the first `off` entries. -/
def trimRetransmitted : List MuxFrame → Nat → Nat → Nat
  | [], _, _ => 0
  | f :: fs, n, off =>
    if n < f.unackedCount then (if 0 < off then n else 0)
    else (if 0 < off then f.unackedCount else 0) + trimRetransmitted fs (n - f.unackedCount) (off - 1)

@[simp] theorem MuxFrame.confirm_zero (f : MuxFrame) : f.confirm 0 = f := rfl

section cons

variable {f : MuxFrame} {fs : List MuxFrame} {n : Nat}

theorem trimRing_cons_of_lt (h : n < f.unackedCount) : trimRing (f :: fs) n = f.confirm n :: fs := by
  simp [trimRing, trimPopped, trimLeft, h]

theorem trimRing_cons_of_le (h : f.unackedCount ≤ n) :
    trimRing (f :: fs) n = trimRing fs (n - f.unackedCount) := by
  simp [trimRing, trimPopped, trimLeft, Nat.not_lt.mpr h]

end cons

variable {ring : List MuxFrame} {n off : Nat}

theorem RingWf.trimPopped_zero (h : RingWf ring) : trimPopped ring 0 = 0 := by
  cases ring with
  | nil => rfl
  | cons f fs => simp [trimPopped, h.pos f List.mem_cons_self]

theorem RingWf.trimLeft_zero (h : RingWf ring) : trimLeft ring 0 = 0 := by
  cases ring with
  | nil => rfl
  | cons f fs => simp [trimLeft, h.pos f List.mem_cons_self]

theorem RingWf.trimRing_zero (h : RingWf ring) : trimRing ring 0 = ring := by
  cases ring with
  | nil => rfl
  | cons f fs => rw [trimRing_cons_of_lt (h.pos f List.mem_cons_self), MuxFrame.confirm_zero]

theorem RingWf.trimRetransmitted_zero (h : RingWf ring) (off : Nat) : trimRetransmitted ring 0 off = 0 := by
  cases ring with
  | nil => rfl
  | cons f fs => simp [trimRetransmitted, h.pos f List.mem_cons_self]

theorem RingWf.confirm_cons {f : MuxFrame} {fs : List MuxFrame} (h : RingWf (f :: fs))
    (hn : n < f.unackedCount) : RingWf (f.confirm n :: fs) where
  tracked g hg := by
    rcases List.mem_cons.mp hg with rfl | hg
    · exact h.tracked f List.mem_cons_self
    · exact h.tracked g (List.mem_cons_of_mem _ hg)
  pos g hg := by
    rcases List.mem_cons.mp hg with rfl | hg
    · exact Nat.sub_pos_of_lt hn
    · exact h.pos g (List.mem_cons_of_mem _ hg)
  le g hg := by
    rcases List.mem_cons.mp hg with rfl | hg
    · exact Nat.le_trans (Nat.sub_le _ _) (h.le f List.mem_cons_self)
    · exact h.le g (List.mem_cons_of_mem _ hg)
  tail g hg := h.tail g hg

theorem RingWf.trimRing (h : RingWf ring) (n : Nat) : RingWf (trimRing ring n) := by
  induction ring generalizing n with
  | nil => exact h
  | cons f fs ih =>
    by_cases hn : n < f.unackedCount
    · rw [trimRing_cons_of_lt hn]
      exact h.confirm_cons hn
    · rw [trimRing_cons_of_le (Nat.not_lt.mp hn)]
      exact ih h.of_cons _

theorem RingWf.ringLive_trimRing (h : RingWf ring) (n : Nat) :
    ringLive (Multiplexd.trimRing ring n) = (ringLive ring).drop n := by
  induction ring generalizing n with
  | nil => simp [Multiplexd.trimRing]
  | cons f fs ih =>
    have hle := h.le f List.mem_cons_self
    have hlen := MuxFrame.live_length hle
    by_cases hn : n < f.unackedCount
    · rw [trimRing_cons_of_lt hn, ringLive_cons, ringLive_cons, MuxFrame.confirm,
        MuxFrame.live_sub hle (Nat.le_of_lt hn), List.drop_append_of_le_length (by omega)]
    · rw [trimRing_cons_of_le (Nat.not_lt.mp hn), ih h.of_cons, ringLive_cons,
        List.drop_append, List.drop_of_length_le (show f.live.length ≤ n by omega), hlen,
        List.nil_append]

theorem RingWf.ringCount_trimRing (h : RingWf ring) (n : Nat) :
    ringCount (Multiplexd.trimRing ring n) = ringCount ring - n := by
  rw [← (h.trimRing n).ringLive_length, h.ringLive_trimRing, List.length_drop, h.ringLive_length]

theorem trimPopped_le_length (ring : List MuxFrame) (n : Nat) : trimPopped ring n ≤ ring.length := by
  induction ring generalizing n with
  | nil => simp [trimPopped]
  | cons f fs ih =>
    simp only [trimPopped, List.length_cons]
    split
    · omega
    · exact Nat.succ_le_succ (ih _)

theorem trimRing_length (ring : List MuxFrame) (n : Nat) :
    (trimRing ring n).length = ring.length - trimPopped ring n := by
  simp [trimRing]

/-- A trim that leaves the entry at `off` in place confirms frames of the entries before it, and frames
of that entry itself. -/
theorem count_eq_of_trimPopped_le (hn : n ≤ ringCount ring) (hp : trimPopped ring n ≤ off) :
    n = trimRetransmitted ring n off + (if trimPopped ring n = off then trimLeft ring n else 0) := by
  induction ring generalizing n off with
  | nil =>
    have : n = 0 := by simpa using hn
    simp [trimRetransmitted, trimLeft, trimPopped, this]
  | cons f fs ih =>
    by_cases hlt : n < f.unackedCount
    · simp only [trimRetransmitted, trimPopped, trimLeft, hlt, if_true]
      cases off <;> simp
    · simp only [trimPopped, hlt, if_false] at hp
      have hn' : n - f.unackedCount ≤ ringCount fs := by
        rw [ringCount_cons] at hn
        omega
      have hrec := ih hn' (show trimPopped fs (n - f.unackedCount) ≤ off - 1 by omega)
      have heq : (trimPopped fs (n - f.unackedCount) + 1 = off)
          ↔ (trimPopped fs (n - f.unackedCount) = off - 1) := by omega
      simp only [trimRetransmitted, trimPopped, trimLeft, hlt, if_false, heq,
        show 0 < off by omega, if_true]
      omega

theorem ringCount_take_trimRing (hp : trimPopped ring n ≤ off) :
    ringCount ((trimRing ring n).take (off - trimPopped ring n)) =
      ringCount (ring.take off) - trimRetransmitted ring n off := by
  induction ring generalizing n off with
  | nil => simp [trimRing, trimRetransmitted]
  | cons f fs ih =>
    by_cases hlt : n < f.unackedCount
    · rw [trimRing_cons_of_lt hlt]
      cases off with
      | zero => simp
      | succ off =>
        simp only [trimPopped, trimRetransmitted, hlt, if_true, Nat.sub_zero, List.take_succ_cons,
          ringCount_cons, MuxFrame.confirm, Nat.succ_pos]
        omega
    · rw [trimRing_cons_of_le (Nat.not_lt.mp hlt)]
      simp only [trimPopped, hlt, if_false] at hp ⊢
      obtain ⟨off, rfl⟩ : ∃ k, off = k + 1 := ⟨off - 1, by omega⟩
      rw [Nat.add_sub_add_right, ih (Nat.le_of_succ_le_succ hp)]
      simp only [trimRetransmitted, hlt, if_false, List.take_succ_cons, ringCount_cons, Nat.succ_pos,
        if_true, Nat.add_sub_cancel]
      omega

theorem trimPopped_le_of_lt (hn : n < ringCount (ring.take (off + 1))) : trimPopped ring n ≤ off := by
  induction ring generalizing n off with
  | nil => simp at hn
  | cons f fs ih =>
    by_cases hlt : n < f.unackedCount
    · simp [trimPopped, hlt]
    · simp only [trimPopped, hlt, if_false]
      rw [List.take_succ_cons, ringCount_cons] at hn
      cases off with
      | zero => simp at hn; omega
      | succ off => exact Nat.succ_le_succ (ih (by omega))

theorem trimPopped_le_of_le
    (hwf : RingWf ring) (hn : n ≤ ringCount (ring.take off)) : trimPopped ring n ≤ off := by
  by_cases hlen : off < ring.length
  · refine trimPopped_le_of_lt (Nat.lt_of_le_of_lt hn ?_)
    rw [List.take_succ_eq_append_getElem hlen, ringCount_append]
    have := hwf.pos _ (List.getElem_mem hlen)
    simp only [ringCount_cons, ringCount_nil]
    omega
  · exact Nat.le_trans (trimPopped_le_length ring n) (by omega)

theorem trimRetransmitted_le (ring : List MuxFrame) (n off : Nat) :
    trimRetransmitted ring n off ≤ ringCount (ring.take off) := by
  induction ring generalizing n off with
  | nil => simp [trimRetransmitted]
  | cons f fs ih =>
    cases off with
    | zero =>
      unfold trimRetransmitted
      split
      · simp
      · simpa using ih (n - f.unackedCount) 0
    | succ off =>
      rw [List.take_succ_cons, ringCount_cons]
      simp only [trimRetransmitted, Nat.succ_pos, if_true, Nat.add_sub_cancel]
      split
      · omega
      · have := ih (n - f.unackedCount) off
        omega

theorem trimRetransmitted_of_popped (hp : trimPopped ring n = off) :
    trimRetransmitted ring n off = ringCount (ring.take off) := by
  have hzero := ringCount_take_trimRing (Nat.le_of_eq hp)
  rw [hp, Nat.sub_self, List.take_zero, ringCount_nil] at hzero
  exact Nat.le_antisymm (trimRetransmitted_le ring n off) (Nat.sub_eq_zero_iff_le.mp hzero.symm)

theorem trimRing_getElem? {orig : MuxFrame} (hp : trimPopped ring n ≤ off) (horig : ring[off]? = some orig) :
    (trimRing ring n)[off - trimPopped ring n]? =
      some (if trimPopped ring n = off then orig.confirm (trimLeft ring n) else orig) := by
  have hdrop : (ring.drop (trimPopped ring n))[off - trimPopped ring n]? = some orig := by
    rw [List.getElem?_drop, Nat.add_sub_cancel' hp, horig]
  rw [trimRing, List.getElem?_modifyHead]
  by_cases heq : trimPopped ring n = off
  · rw [if_pos (by omega), if_pos heq, hdrop]
    rfl
  · rw [if_neg (by omega), if_neg heq, hdrop]

/-- What the loop computes. -/
theorem ackTrimLoop_eq (off0 fuel : Nat) (ss : Session) (t : Session.Trim) (hwf : RingWf ss.ring)
    (hoffset : ss.partialOffset = ringOffset ss.ring)
    (hbytes : ss.bytes = itemsPayload (ringLive ss.ring))
    (hrem : t.remaining ≤ ringCount ss.ring) (hfuel : ss.ring.length < fuel) :
    Session.ackTrimLoop off0 fuel ss t =
      ({ ss with
          ring := trimRing ss.ring t.remaining
          bytes := itemsPayload (ringLive (trimRing ss.ring t.remaining))
          partialOffset := ringOffset (trimRing ss.ring t.remaining)
          retransmitCopyCount := ss.retransmitCopyCount -
            if t.popped + trimPopped ss.ring t.remaining = off0 ∧ ss.retransmitCopy
            then trimLeft ss.ring t.remaining else 0
          retransmitCopySent := ss.retransmitCopySent -
            if t.popped + trimPopped ss.ring t.remaining = off0 ∧ ss.retransmitCopy
            then trimLeft ss.ring t.remaining else 0 },
        { remaining := 0
          popped := t.popped + trimPopped ss.ring t.remaining
          trimmedBytes := t.trimmedBytes + itemsPayload ((ringLive ss.ring).take t.remaining)
          trimmedRetransmitted := t.trimmedRetransmitted +
            trimRetransmitted ss.ring t.remaining (off0 - t.popped) }) := by
  induction fuel generalizing ss t with
  | zero => omega
  | succ fuel ih =>
    obtain ⟨rem, popped, tbytes, tretrans⟩ := t
    rw [Session.ackTrimLoop]
    by_cases h0 : rem = 0
    · subst h0
      simp [hwf.trimRing_zero, hwf.trimPopped_zero, hwf.trimLeft_zero, hwf.trimRetransmitted_zero,
        ← hoffset, ← hbytes]
    simp only [h0, if_false]
    cases hring : ss.ring with
    | nil => simp [hring] at hrem; omega
    | cons f fs =>
      rw [hring] at hwf hoffset hbytes hrem
      have hle := hwf.le f List.mem_cons_self
      have hlive := MuxFrame.live_length hle
      simp only [ringOffset] at hoffset
      by_cases hlt : rem < f.unackedCount
      · -- the count ends inside this entry
        have hpay : itemsPayload f.live = itemsPayload (f.live.take rem) +
            itemsPayload (f.live.drop rem) := by
          rw [← itemsPayload_append, List.take_append_drop]
        have hcl : (f.confirm rem).live = f.live.drop rem := MuxFrame.live_sub hle (Nat.le_of_lt hlt)
        have hb : ss.bytes - itemsPayload (f.live.take rem)
            = itemsPayload (ringLive (f.confirm rem :: fs)) := by
          rw [hbytes, ringLive_cons, ringLive_cons, hcl, itemsPayload_append, itemsPayload_append, hpay]
          omega
        simp only [hlt, if_true, hoffset, framePayloadBytesFrom_confirmedLen rem hle (Nat.le_of_lt hlt), hb,
          trimRing_cons_of_lt hlt, trimPopped, trimLeft, trimRetransmitted, Nat.add_zero, ringLive_cons f,
          List.take_append_of_le_length (show rem ≤ f.live.length by omega), ringOffset, MuxFrame.confirm]
        by_cases hpo : popped < off0
        · simp [hpo, Nat.sub_pos_of_lt hpo, Nat.ne_of_lt hpo]
        · by_cases hcopy : popped = off0 ∧ ss.retransmitCopy = true
          · simp [hcopy]
          · simp [hpo, hcopy, Nat.sub_eq_zero_of_le (Nat.not_lt.mp hpo)]
      · have hge := Nat.not_lt.mp hlt
        have hb : ss.bytes - itemsPayload (f.live.take f.unackedCount) = itemsPayload (ringLive fs) := by
          rw [hbytes, ringLive_cons, itemsPayload_append, List.take_of_length_le (by omega)]
          omega
        rw [ringCount_cons] at hrem
        have hstep := ih
          { ss with ring := fs, bytes := itemsPayload (ringLive fs), partialOffset := 0 }
          { remaining := rem - f.unackedCount, popped := popped + 1
            trimmedBytes := tbytes + itemsPayload (f.live.take f.unackedCount)
            trimmedRetransmitted :=
              if popped < off0 then tretrans + f.unackedCount else tretrans }
          hwf.of_cons (hwf.ringOffset_tail).symm rfl
          (show rem - f.unackedCount ≤ ringCount fs from Nat.sub_le_iff_le_add'.mpr hrem)
          (by rw [hring] at hfuel; simpa using hfuel)
        simp only [hlt, if_false, hoffset, framePayloadBytesFrom_confirmedLen _ hle (Nat.le_refl _), hb,
          hstep, trimRing_cons_of_le hge, trimPopped, trimLeft, trimRetransmitted]
        have htake : itemsPayload ((ringLive (f :: fs)).take rem)
            = itemsPayload (f.live.take f.unackedCount)
              + itemsPayload ((ringLive fs).take (rem - f.unackedCount)) := by
          rw [ringLive_cons, List.take_append, List.take_of_length_le (show f.live.length ≤ rem by omega),
            hlive, itemsPayload_append,
            List.take_of_length_le (show f.live.length ≤ f.unackedCount by omega)]
        have hpop : popped + 1 + trimPopped fs (rem - f.unackedCount)
            = popped + (trimPopped fs (rem - f.unackedCount) + 1) := by omega
        have hret : (if popped < off0 then tretrans + f.unackedCount else tretrans)
              + trimRetransmitted fs (rem - f.unackedCount) (off0 - (popped + 1))
            = tretrans + ((if 0 < off0 - popped then f.unackedCount else 0)
              + trimRetransmitted fs (rem - f.unackedCount) (off0 - popped - 1)) := by
          rw [Nat.sub_sub]
          by_cases hpo : popped < off0
          · simp only [hpo, Nat.sub_pos_of_lt hpo, if_true]
            omega
          · simp only [hpo, Nat.sub_eq_zero_of_le (Nat.not_lt.mp hpo), if_false, Nat.lt_irrefl]
            omega
        rw [htake, hpop, hret, Nat.add_assoc tbytes]

end Multiplexd
