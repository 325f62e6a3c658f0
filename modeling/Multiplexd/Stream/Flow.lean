import Multiplexd.Stream.Dialogue

/-!
# The books of one end

What an end has sent, granted and received, in unbounded numbers: its 32-bit counters are these numbers
modulo `2 ^ 32`, the payload sent is covered by the credit taken, and what is buffered and what the peer
may still send fit the receive window. The bytes taken from the local side are those sent and those still
queued; the bytes given to it and those buffered are the ones that arrived.

A reset withdraws frames that were counted, so for an end that has been reset only inequalities remain.
-/

namespace Multiplexd

def maxWindow : Nat := 65535 * windowUnit

theorem toNat_ofNat_sub {a b : Nat} (h : b ≤ a) (hlt : a < b + 2 ^ 32) :
    (UInt32.ofNat a - UInt32.ofNat b).toNat = a - b := by
  rw [← UInt32.ofNat_sub h, UInt32.toNat_ofNat_of_lt']
  exact Nat.sub_lt_left_of_lt_add h hlt

theorem windowBytes_le (frames : Nat) : (Stream.windowBytes frames).toNat ≤ maxWindow := by
  unfold Stream.windowBytes maxWindow windowUnit
  rw [UInt32.toNat_ofNat_of_lt' (by rw [UInt32.size]; omega)]
  omega

theorem le_windowBytes (frames : Nat) : defaultSendWindow ≤ (Stream.windowBytes frames).toNat := by
  unfold Stream.windowBytes windowUnit defaultSendWindow
  rw [UInt32.toNat_ofNat_of_lt' (by rw [UInt32.size]; omega)]
  omega

variable {inc : Nat}

theorem Frame.brings {f : Frame} (hextra : f.extra.toNat = inc) (hrst : hasFlag f.flags flagRst = false)
    (hcredit : 0 < inc → (hasFlag f.flags flagAck || hasFlag f.flags flagSyn) = true) :
    f.taken.data = f.payload ∧ f.taken.credit = inc * windowUnit := by
  rw [Frame.taken, if_neg (Bool.eq_false_iff.mp hrst), hextra]
  refine ⟨rfl, ?_⟩
  by_cases hpos : 0 < inc
  · exact if_pos (hcredit hpos)
  · obtain rfl : inc = 0 := by omega
    simp

theorem extra_ctrlFrame (id : UInt16) (flags : UInt8) (h : inc ≤ 65535) :
    (Session.ctrlFrame id flags inc).extra.toNat = inc := by
  show (UInt16.ofNat (min inc 65535)).toNat = inc
  rw [Nat.min_eq_left h, UInt16.toNat_ofNat_of_lt' (Nat.lt_succ_of_le h)]

theorem extra_pushFrame (id : UInt16) (flags : UInt8) (ch : Chunk) (h : inc ≤ 65535) :
    (Stream.pushFrame id flags inc ch).extra.toNat = inc :=
  UInt16.toNat_ofNat_of_lt' (Nat.lt_succ_of_le h)

theorem withFlags_credit {base : UInt8} (hbase : base = 0 ∨ base = flagPush) (fin : Bool) (hpos : 0 < inc) :
    (hasFlag (StreamCore.withFlags base inc fin) flagAck || hasFlag (StreamCore.withFlags base inc fin) flagSyn) = true := by
  unfold StreamCore.withFlags
  rcases hbase with rfl | rfl <;> cases fin <;> simp only [hpos, if_true] <;> decide

/-- The bytes of a send queue. -/
def chunkBytes (q : List Chunk) : List UInt8 := q.flatMap Chunk.bytes

theorem chunkBytes_append (q r : List Chunk) : chunkBytes (q ++ r) = chunkBytes q ++ chunkBytes r := List.flatMap_append

namespace StreamCore

variable {peer : Bool} {sent : List Frame} {got : Taken} {c c' : StreamCore}

structure Sends (c c' : StreamCore) (f : Frame) (inc : Nat) (head : List Chunk) : Prop where
  same : c' = { c with
    state := c'.state, sendQueue := c'.sendQueue, queuedSendBytes := c'.queuedSendBytes, egress := c'.egress
    bytesSent := c'.bytesSent, grantSent := c'.grantSent }
  heard : c'.state.heard = c.state.heard
  egress : c'.egress = c.egress ++ [f]
  queue : c.sendQueue = head ++ c'.sendQueue
  bytesSent : c'.bytesSent = c.bytesSent + UInt32.ofNat (chunkBytes head).length
  room : (chunkBytes head).length ≤ c.creditAvail
  grants : c.Grants inc
  grantSent : c'.grantSent = c.grantSent + Stream.unitBytes inc
  data : f.taken.data = chunkBytes head
  credit : f.taken.credit = inc * windowUnit
  last : c'.state.said = .finished → c.state.said = .finished ∨ c.rxEof = true ∧ c'.sendQueue = []

variable {flags : UInt8} {inc : Nat} {st : StreamState}

/-- A control frame takes nothing off the queue. -/
theorem Sends.ctrl (hgrants : c.Grants inc)
    (hrst : hasFlag flags flagRst = false)
    (hcredit : 0 < inc → (hasFlag flags flagAck || hasFlag flags flagSyn) = true)
    (hheard : st.heard = c.state.heard)
    (hlast : st.said = .finished → c.state.said = .finished ∨ c.rxEof = true ∧ c.sendQueue = []) :
    Sends c { c with
      state := st, egress := c.egress ++ [Session.ctrlFrame c.id flags inc]
      grantSent := c.grantSent + Stream.unitBytes inc } (Session.ctrlFrame c.id flags inc) inc [] where
  same := rfl
  heard := hheard
  egress := rfl
  queue := rfl
  bytesSent := (UInt32.add_zero _).symm
  room := Nat.zero_le _
  grants := hgrants
  grantSent := rfl
  data := (Frame.brings (extra_ctrlFrame c.id flags hgrants.1) hrst hcredit).1
  credit := (Frame.brings (extra_ctrlFrame c.id flags hgrants.1) hrst hcredit).2
  last := hlast

theorem Sends.pushed {ch : Chunk} {rest : List Chunk} {queued : UInt32}
    (hgrants : c.Grants inc) (hqueue : c.sendQueue = ch :: rest) (hlen : ch.len ≤ c.creditAvail)
    (hrst : hasFlag flags flagRst = false)
    (hcredit : 0 < inc → (hasFlag flags flagAck || hasFlag flags flagSyn) = true)
    (hheard : st.heard = c.state.heard) (hlast : st.said = .finished → c.rxEof = true ∧ rest = []) :
    Sends c { c with
      state := st, sendQueue := rest, queuedSendBytes := queued
      egress := c.egress ++ [Stream.pushFrame c.id flags inc ch]
      bytesSent := c.bytesSent + UInt32.ofNat ch.len
      grantSent := c.grantSent + Stream.unitBytes inc } (Stream.pushFrame c.id flags inc ch) inc [ch] where
  same := rfl
  heard := hheard
  egress := rfl
  queue := hqueue
  bytesSent := by simp [chunkBytes, Chunk.len]
  room := by simpa [chunkBytes, Chunk.len] using hlen
  grants := hgrants
  grantSent := rfl
  data := (Frame.brings (extra_pushFrame c.id flags ch hgrants.1) hrst hcredit).1.trans (List.append_nil _).symm
  credit := (Frame.brings (extra_pushFrame c.id flags ch hgrants.1) hrst hcredit).2
  last := fun h => .inr (hlast h)

/-! ### The books -/

def out (sent : List Frame) (c : StreamCore) : Taken := total (sent ++ c.egress)

/-- The books of an end that has not been reset. -/
structure Live (out got : Taken) (c : StreamCore) : Prop where
  sendWindow : c.sendWindow = UInt32.ofNat (defaultSendWindow + got.credit)
  bytesSent : c.bytesSent = UInt32.ofNat out.data.length
  spent : out.data.length ≤ defaultSendWindow + got.credit
  bounded : defaultSendWindow + got.credit ≤ out.data.length + maxCredit
  grantSent : c.grantSent = UInt32.ofNat (defaultSendWindow + out.credit)
  bytesReceived : c.bytesReceived = UInt32.ofNat got.data.length
  received : got.data.length ≤ defaultSendWindow + out.credit
  fits : defaultSendWindow + out.credit + c.bufferedBytes.toNat ≤ got.data.length + c.recvWindow.toNat
  window : c.recvWindow.toNat ≤ maxWindow
  counted : c.bufferedBytes.toNat = c.recvbuf.length
  pending : out.data ++ chunkBytes c.sendQueue = c.accepted
  buffered : c.delivered ++ c.recvbuf = got.data
  drained : c.state.said = .finished → c.rxEof = true ∧ c.sendQueue = []
  eof : c.eofSeen = true → c.state.heard = .finished ∧ c.recvbuf = []

structure Books (sent : List Frame) (got : Taken) (c : StreamCore) : Prop where
  accepted : (c.out sent).data <+: c.accepted
  delivered : c.delivered <+: got.data
  spent : (c.out sent).data.length ≤ defaultSendWindow + got.credit
  granted : defaultSendWindow + (c.out sent).credit ≤ maxWindow + got.data.length
  codes : .flowControlError ∉ c.abortCodes
  live : ¬ c.Over → Live (c.out sent) got c

theorem Live.books (h : Live (c.out sent) got c) (hcodes : .flowControlError ∉ c.abortCodes) : Books sent got c where
  accepted := ⟨_, h.pending⟩
  delivered := ⟨_, h.buffered⟩
  spent := h.spent
  granted := by
    have hfits := h.fits
    have hwindow := h.window
    omega
  codes := hcodes
  live := fun _ => h

namespace Live

variable {out : Taken}

theorem creditAvail (h : Live out got c) : c.creditAvail = defaultSendWindow + got.credit - out.data.length := by
  have hbounded := h.bounded
  unfold maxCredit at hbounded
  rw [StreamCore.creditAvail, h.sendWindow, h.bytesSent, toNat_ofNat_sub h.spent (by omega)]

theorem outstanding (h : Live out got c) : c.outstanding = defaultSendWindow + out.credit - got.data.length := by
  have hfits := h.fits
  have hwindow := h.window
  unfold maxWindow windowUnit at hwindow
  rw [StreamCore.outstanding, h.grantSent, h.bytesReceived, toNat_ofNat_sub h.received (by omega)]

theorem sends {f : Frame} {inc : Nat} {head : List Chunk} (h : Live out got c) (hs : Sends c c' f inc head) :
    Live (out.append f.taken) got c' := by
  obtain ⟨hsame, hheard, -, hqueue, hsent, hroom, ⟨-, hgrants⟩, hgrant, hdata, hcredit, hlast⟩ := hs
  have hfits := h.fits
  have hbounded := h.bounded
  have hreceived := h.received
  have hspent := h.spent
  rw [h.outstanding] at hgrants
  rw [h.creditAvail] at hroom
  have hlen : (out.append f.taken).data.length = out.data.length + (chunkBytes head).length := by
    rw [Taken.append, List.length_append, hdata]
  have hsum : (out.append f.taken).credit = out.credit + inc * windowUnit := by rw [Taken.append, hcredit]
  have hfits' : defaultSendWindow + (out.credit + inc * windowUnit) + c.bufferedBytes.toNat ≤
      got.data.length + c.recvWindow.toNat := by
    by_cases hpos : 0 < inc
    · have := hgrants hpos
      omega
    · obtain rfl : inc = 0 := by omega
      simpa using hfits
  rw [hsame]
  refine ⟨h.sendWindow, ?_, by rw [hlen]; omega, by rw [hlen]; omega, ?_, h.bytesReceived, by rw [hsum]; omega,
    by rw [hsum]; exact hfits', h.window, h.counted, ?_, h.buffered, fun hsaid => ?_, fun heof => ?_⟩
  · rw [hlen, hsent, h.bytesSent, UInt32.ofNat_add]
  · rw [hsum, hgrant, h.grantSent, Stream.unitBytes, ← UInt32.ofNat_add, Nat.add_assoc]
  · show (out.append f.taken).data ++ chunkBytes c'.sendQueue = c.accepted
    rw [← h.pending, Taken.append, hdata, hqueue, chunkBytes_append, List.append_assoc]
  · rcases hlast hsaid with hold | hnew
    · obtain ⟨hrx, hnil⟩ := h.drained hold
      rw [hqueue] at hnil
      exact ⟨hrx, (List.append_eq_nil_iff.mp hnil).2⟩
    · exact hnew
  · exact ⟨hheard.trans (h.eof heof).1, (h.eof heof).2⟩

theorem queues (h : Live out got c) {ch : Chunk} {queued : UInt32} (hst : c.state.canSendData = true) :
    Live out got { c with
      sendQueue := c.sendQueue ++ [ch], queuedSendBytes := queued, accepted := c.accepted ++ ch.bytes } := by
  refine { h with pending := ?_, drained := fun hs => ?_ }
  · show out.data ++ chunkBytes (c.sendQueue ++ [ch]) = c.accepted ++ ch.bytes
    rw [← h.pending, chunkBytes_append, ← List.append_assoc]
    simp [chunkBytes]
  · unfold StreamState.canSendData at hst
    cases hc : c.state <;> simp_all [StreamState.said]

theorem moveWindow {frames : Nat} (h : Live out got c) (hok : c.recvWindow < Stream.windowBytes frames ∨
      c.bufferedBytes.toNat + c.outstanding ≤ (Stream.windowBytes frames).toNat) :
    Live out got { c with recvWindow := Stream.windowBytes frames } := by
  refine { h with fits := ?_, window := windowBytes_le frames }
  have hfits := h.fits
  have hreceived := h.received
  show defaultSendWindow + out.credit + c.bufferedBytes.toNat ≤ got.data.length + (Stream.windowBytes frames).toNat
  rcases hok with hgrow | hshrink
  · have hlt := UInt32.lt_iff_toNat_lt.mp hgrow
    omega
  · rw [h.outstanding] at hshrink
    omega

theorem consumes {n : Nat} (h : Live out got c) (hn : n ≤ c.recvbuf.length) :
    Live out got { c with
      recvbuf := c.recvbuf.drop n, bufferedBytes := c.bufferedBytes - UInt32.ofNat n
      delivered := c.delivered ++ c.recvbuf.take n } := by
  have hcounted := h.counted
  have hfits := h.fits
  have hlt : c.bufferedBytes.toNat < 2 ^ 32 := c.bufferedBytes.toNat_lt
  have hnat : (UInt32.ofNat n).toNat = n := UInt32.toNat_ofNat_of_lt' (by rw [UInt32.size]; omega)
  have hsub : (c.bufferedBytes - UInt32.ofNat n).toNat = c.bufferedBytes.toNat - n := by
    rw [UInt32.toNat_sub_of_le _ _ (by rw [UInt32.le_iff_toNat_le, hnat]; omega), hnat]
  refine { h with fits := ?_, counted := ?_, buffered := ?_, eof := fun heof => ⟨(h.eof heof).1, ?_⟩ }
  · show defaultSendWindow + out.credit + (c.bufferedBytes - UInt32.ofNat n).toNat ≤ got.data.length + c.recvWindow.toNat
    omega
  · show (c.bufferedBytes - UInt32.ofNat n).toNat = (c.recvbuf.drop n).length
    rw [hsub, List.length_drop, hcounted]
  · rw [List.append_assoc, List.take_append_drop]
    exact h.buffered
  · show c.recvbuf.drop n = []
    rw [(h.eof heof).2, List.drop_nil]

theorem closes (h : Live out got c) (hst : c.state = .closing) (hbuf : c.recvbuf = []) :
    Live out got { c with state := .closed, sendQueue := [], queuedSendBytes := 0, recvbuf := [], bufferedBytes := 0 } := by
  have hqueue := h.drained (by rw [hst]; rfl)
  have hfits := h.fits
  refine { h with fits := ?_, counted := rfl, pending := ?_, buffered := ?_, drained := ?_, eof := fun _ => ⟨rfl, rfl⟩ }
  · exact Nat.le_trans (Nat.le_add_right _ _) hfits
  · exact hqueue.2 ▸ h.pending
  · exact hbuf ▸ h.buffered
  · exact fun _ => ⟨hqueue.1, rfl⟩

end Live

/-! ### Resets -/

theorem total_append_rst {fs : List Frame} (h : ∀ f ∈ fs, hasFlag f.flags flagRst = true) (gs : List Frame) :
    (total (gs ++ fs)).data = (total gs).data ∧ (total (gs ++ fs)).credit = (total gs).credit := by
  obtain ⟨hdata, hcredit⟩ := total_of_rst h
  rw [total_append]
  exact ⟨by simp [Taken.append, hdata], by simp [Taken.append, hcredit]⟩

structure Lost (c c' : StreamCore) : Prop where
  ended : c'.Over
  accepted : c'.accepted = c.accepted
  said : ∀ sent, (c'.out sent).data <+: (c.out sent).data
  granted : ∀ sent, (c'.out sent).credit ≤ (c.out sent).credit

theorem Lost.of_append (fs : List Frame) (hover : c'.Over) (haccepted : c'.accepted = c.accepted)
    (hfs : ∀ f ∈ fs, hasFlag f.flags flagRst = true) (heg : c'.egress = c.egress ++ fs) : Lost c c' := by
  have hout : ∀ sent, (c'.out sent).data = (c.out sent).data ∧ (c'.out sent).credit = (c.out sent).credit := by
    intro sent
    rw [out, heg, ← List.append_assoc]
    exact total_append_rst hfs _
  exact ⟨hover, haccepted, fun sent => (hout sent).1 ▸ List.prefix_refl _, fun sent => Nat.le_of_eq (hout sent).2⟩

theorem Lost.of_rsts (hover : c'.Over) (haccepted : c'.accepted = c.accepted)
    (hfs : ∀ f ∈ c'.egress, hasFlag f.flags flagRst = true) : Lost c c' := by
  refine ⟨hover, haccepted, fun sent => ?_, fun sent => ?_⟩ <;> rw [out, out, total_append sent c.egress]
  · rw [(total_append_rst hfs sent).1]
    exact List.prefix_append _ _
  · rw [(total_append_rst hfs sent).2]
    exact Nat.le_add_right _ _

theorem Fallen.lost (h : Fallen peer c c') : Lost c c' := by
  have hfilter : ∀ f ∈ c.egress.filter (fun f => hasFlag f.flags flagRst), hasFlag f.flags flagRst = true :=
    fun f hf => (List.mem_filter.mp hf).2
  rcases h.frames with ⟨-, heg | ⟨-, heg⟩⟩ | ⟨-, -, -, code, heg⟩
  · exact .of_rsts h.over h.accepted (by rw [heg]; exact hfilter)
  · exact .of_append [] h.over h.accepted nofun (by rw [heg, List.append_nil])
  · refine .of_rsts h.over h.accepted fun f hf => ?_
    rw [heg] at hf
    rcases List.mem_append.mp hf with hf | hf
    · exact hfilter f hf
    · rw [List.mem_singleton.mp hf]
      exact Stream.isRst_ctrlFrame c.id code

/-- The reset of an end that has taken `t`. -/
theorem Books.lost (h : Books sent got c) (hl : Lost c c') (t : Taken) (hdelivered : c'.delivered <+: (got.append t).data)
    (hcodes : .flowControlError ∉ c'.abortCodes) : Books sent (got.append t) c' := by
  have hspent := h.spent
  have hgranted := h.granted
  have hsaid := (hl.said sent).length_le
  have hless := hl.granted sent
  have hcredit : (got.append t).credit = got.credit + t.credit := rfl
  have hdata : (got.append t).data.length = got.data.length + t.data.length := List.length_append
  exact ⟨hl.accepted ▸ (hl.said sent).trans h.accepted, hdelivered, by omega, by omega, hcodes, fun hn => absurd hl.ended hn⟩

/-- An end that has been reset says nothing of its own any more. -/
theorem Step.of_over (h : Step c c') (hi : c.Intact) (ho : c.Over) : c'.Over ∧ c'.egress = c.egress ∧
    c'.accepted = c.accepted ∧ c'.delivered = c.delivered ∧ c'.abortCodes = c.abortCodes := by
  have hst := hi.closed_of_over ho
  cases h with
  | consume n => exact ⟨ho, rfl, rfl, by simp [hi.drained hst], rfl⟩
  | eof | window => exact ⟨ho, rfl, rfl, rfl, rfl⟩
  | ack _ _ _ hover => exact absurd ho (hover hst)
  | queue _ _ hsend => simp [hst, StreamState.canSendData] at hsend
  | syn _ h | synPush _ _ _ h | synAck _ h | close h | resetAck _ _ h => simp [hst] at h
  | push _ _ _ h | fin _ h | eofSeen h => simp [hst] at h
  | reset _ _ h | reject _ _ h => exact absurd hst h

theorem Books.of_over (h : Books sent got c) (ho : c'.Over) (hegress : c'.egress = c.egress)
    (haccepted : c'.accepted = c.accepted) (hdelivered : c'.delivered = c.delivered)
    (hcodes : c'.abortCodes = c.abortCodes) : Books sent got c' := by
  have hout : c'.out sent = c.out sent := by rw [out, hegress, out]
  refine ⟨?_, ?_, ?_, ?_, ?_, fun hn => absurd ho hn⟩
  · rw [hout, haccepted]
    exact h.accepted
  · rw [hdelivered]
    exact h.delivered
  · rw [hout]
    exact h.spent
  · rw [hout]
    exact h.granted
  · rw [hcodes]
    exact h.codes

theorem Books.sends {f : Frame} {head : List Chunk} (h : Books sent got c) (hover : ¬ c.Over)
    (hs : Sends c c' f inc head) : Books sent got c' := by
  have hout : c'.out sent = (c.out sent).append f.taken := by
    rw [out, hs.egress, ← List.append_assoc, total_append, total_single, out]
  refine Live.books (hout ▸ (h.live hover).sends hs) ?_
  rw [hs.same]
  exact h.codes

theorem Books.resetAck {t : StreamCore} (h : Books sent got c) (hover : ¬ c.Over) (hfall : Fallen false c t)
    (hpos : 0 < inc) (hinc : t.Grants inc) : Books sent got { t with
      egress := t.egress ++ [Session.ctrlFrame t.id flagAck inc]
      grantSent := t.grantSent + Stream.unitBytes inc } := by
  have hlive := h.live hover
  have hbooks := h.lost hfall.lost {} (by rw [hfall.delivered]; simpa using h.delivered)
    (by rw [hfall.abortCodes]; exact h.codes)
  rw [Taken.append_nil] at hbooks
  have hsame : t.outstanding = c.outstanding := by rw [outstanding, hfall.grantSent, hfall.bytesReceived, outstanding]
  have hgrants := hinc.2 hpos
  rw [hsame, hlive.outstanding, hfall.recvWindow] at hgrants
  have hless := hfall.lost.granted sent
  have hreceived := hlive.received
  have hwindow := hlive.window
  have hack := Frame.brings (extra_ctrlFrame t.id flagAck hinc.1) (isAck_flags (isAck_ctrlFrame t.id inc)).1
    fun _ => by
      show (hasFlag flagAck flagAck || hasFlag flagAck flagSyn) = true
      decide
  have hout : total (sent ++ (t.egress ++ [Session.ctrlFrame t.id flagAck inc])) =
      (t.out sent).append (Session.ctrlFrame t.id flagAck inc).taken := by
    rw [← List.append_assoc, total_append, total_single, out]
  have hdata : (total (sent ++ (t.egress ++ [Session.ctrlFrame t.id flagAck inc]))).data = (t.out sent).data := by
    rw [hout, Taken.append, hack.1]
    exact List.append_nil _
  refine ⟨hdata ▸ hbooks.accepted, hbooks.delivered, hdata ▸ hbooks.spent, ?_, hbooks.codes, fun hn => absurd hfall.over hn⟩
  show defaultSendWindow + (total (sent ++ (t.egress ++ [Session.ctrlFrame t.id flagAck inc]))).credit ≤ _
  rw [hout, Taken.append, hack.2]
  dsimp only
  omega

theorem Live.taken_prefix (h : Live (c.out sent) got c) (n : Nat) : c.delivered ++ c.recvbuf.take n <+: got.data := by
  rw [← h.buffered]
  exact (List.prefix_append_right_inj _).mpr (List.take_prefix n _)

theorem Books.step (h : Books sent got c) (hi : c.Intact) (hstep : Step c c') : Books sent got c' := by
  by_cases ho : c.Over
  · obtain ⟨hover, hegress, haccepted, hdelivered, hcodes⟩ := hstep.of_over hi ho
    exact h.of_over hover hegress haccepted hdelivered hcodes
  have hlive := h.live ho
  have hcodes := h.codes
  cases hstep with
  | syn _ hst hinc => exact h.sends ho (.ctrl hinc (by decide) (fun _ => by decide) (by rw [hst]; rfl) nofun)
  | synAck _ hst hinc => exact h.sends ho (.ctrl hinc (by decide) (fun _ => by decide) (by rw [hst]; rfl) nofun)
  | ack _ _ _ _ hinc => exact h.sends ho (.ctrl hinc (by decide) (fun _ => by decide) rfl .inl)
  | fin inc hst heof hqueue hinc =>
    refine h.sends ho (.ctrl hinc (hasFlag_withFlags_rst inc true).1 (withFlags_credit (.inl rfl) true) ?_
      fun _ => .inr ⟨heof, hqueue⟩)
    rcases hst with hst | hst <;> rw [hst] <;> rfl
  | synPush _ _ _ hst hqueue hlen hinc =>
    exact h.sends ho (.pushed hinc hqueue hlen (by decide) (fun _ => by decide) (by rw [hst]; rfl) nofun)
  | push ch rest inc hst hqueue hlen hinc =>
    refine h.sends ho (.pushed hinc hqueue hlen (hasFlag_withFlags_rst inc _).2 (withFlags_credit (.inr rfl) _) ?_ fun hs => ?_)
    · rcases hst with hst | hst <;> cases c.rxEof && rest.isEmpty <;> simp [hst, finSent, StreamState.heard]
    · cases hlast : c.rxEof && rest.isEmpty with
      | true => simpa using hlast
      | false =>
        rw [hlast] at hs
        rcases hst with hst | hst <;> simp [hst, StreamState.said] at hs
  | eof => exact Live.books { hlive with drained := fun hs => ⟨rfl, (hlive.drained hs).2⟩ } hcodes
  | queue _ _ hst => exact (hlive.queues hst).books hcodes
  | window _ hok => exact (hlive.moveWindow hok).books hcodes
  | consume _ hn => exact (hlive.consumes hn).books hcodes
  | eofSeen hst hbuf =>
    refine Live.books { hlive with eof := fun _ => ⟨?_, hbuf⟩ } hcodes
    rcases hst with hst | hst <;> rw [hst] <;> rfl
  | close hst hbuf => exact (hlive.closes hst hbuf).books hcodes
  | reset n _ _ hnew hfall =>
    rw [← got.append_nil]
    refine h.lost { hfall.lost with } {} ?_ (by rw [hfall.abortCodes]; exact mt hnew hcodes)
    rw [hfall.delivered, Taken.append_nil]
    exact hlive.taken_prefix n
  | resetAck _ hpos _ hfall hinc => exact h.resetAck ho hfall hpos hinc
  | reject rst _ _ _ =>
    rw [← got.append_nil]
    refine h.lost ?_ {} (by simpa using h.delivered) hcodes
    exact .of_append _ (.inl rfl) rfl (isRst_of_mem c.id .refusedStream rst) rfl

/-! ### Taking frames -/

/-- What may arrive from a peer at an end that has said `said`. -/
structure Room (said got : Taken) : Prop where
  data : got.data.length ≤ defaultSendWindow + said.credit
  credit : defaultSendWindow + got.credit ≤ said.data.length + maxCredit

theorem Room.mono {said said' got' : Taken} (h : Room said got) (hdata : got'.data <+: got.data)
    (hcredit : got'.credit ≤ got.credit) (hsaid : said.credit ≤ said'.credit ∧ said.data.length ≤ said'.data.length) :
    Room said' got' := by
  have hlen := hdata.length_le
  have hd := h.data
  have hc := h.credit
  exact ⟨by omega, by omega⟩

theorem sent_le_out (sent : List Frame) (c : StreamCore) :
    (total sent).credit ≤ (c.out sent).credit ∧ (total sent).data.length ≤ (c.out sent).data.length := by
  rw [out, total_append]
  exact ⟨Nat.le_add_right _ _, by simp [Taken.append]⟩

namespace Live

variable {out : Taken}

theorem takes_credit {inc : Nat} (h : Live out got c) (hmax : c.creditAvail + inc * windowUnit ≤ maxCredit) :
    Live out (got.append { credit := inc * windowUnit })
      { c with sendWindow := c.sendWindow + Stream.unitBytes inc } := by
  have hspent := h.spent
  have hcredit : (got.append { credit := inc * windowUnit }).credit = got.credit + inc * windowUnit := rfl
  have hdata : (got.append { credit := inc * windowUnit }).data = got.data := List.append_nil _
  rw [h.creditAvail] at hmax
  refine { h with sendWindow := ?_, spent := by omega, bounded := by omega, bytesReceived := ?_, received := ?_,
                  fits := ?_, buffered := ?_ }
  · rw [hcredit, h.sendWindow, Stream.unitBytes, ← UInt32.ofNat_add, Nat.add_assoc]
  · rw [hdata]
    exact h.bytesReceived
  · rw [hdata]
    exact h.received
  · rw [hdata]
    exact h.fits
  · rw [hdata]
    exact h.buffered

theorem takes_data {p : List UInt8} (h : Live out got c) (hroom : got.data.length + p.length ≤ defaultSendWindow + out.credit)
    (hheard : c.state.heard ≠ .finished) {delivered recvbuf : List UInt8} {buffered : UInt32}
    (hbytes : delivered ++ recvbuf = c.delivered ++ c.recvbuf ++ p)
    (hbuffered : buffered = c.bufferedBytes + UInt32.ofNat p.length ∧ recvbuf.length = c.recvbuf.length + p.length ∨
      buffered = c.bufferedBytes ∧ recvbuf.length = c.recvbuf.length) :
    Live out (got.append { data := p }) { c with
      delivered := delivered, recvbuf := recvbuf, bufferedBytes := buffered
      bytesReceived := c.bytesReceived + UInt32.ofNat p.length } := by
  have hfits := h.fits
  have hwindow := h.window
  have hcounted := h.counted
  have hlen : (got.append { data := p }).data.length = got.data.length + p.length := List.length_append
  unfold maxWindow windowUnit at hwindow
  have hnew : buffered.toNat ≤ c.bufferedBytes.toNat + p.length ∧ buffered.toNat = recvbuf.length := by
    rcases hbuffered with ⟨rfl, hlen⟩ | ⟨rfl, hlen⟩
    · have hp : (UInt32.ofNat p.length).toNat = p.length := UInt32.toNat_ofNat_of_lt' (by rw [UInt32.size]; omega)
      rw [UInt32.toNat_add, hp, Nat.mod_eq_of_lt (by omega)]
      omega
    · omega
  refine { h with bytesReceived := ?_, received := by omega, fits := ?_, counted := hnew.2, buffered := ?_,
                  eof := fun heof => absurd (h.eof heof).1 hheard }
  · rw [hlen, h.bytesReceived, UInt32.ofNat_add]
  · rw [hlen]
    show defaultSendWindow + out.credit + buffered.toNat ≤ got.data.length + p.length + c.recvWindow.toNat
    omega
  · exact hbytes.trans (congrArg (· ++ p) h.buffered)

/-- A frame moves the state on. -/
theorem takes_flags {t : Taken} {st : StreamState} (h : Live out got c) (hdata : t.data = []) (hcredit : t.credit = 0)
    (hsaid : st.said = c.state.said) (hheard : c.state.heard ≠ .finished) :
    Live out (got.append t) { c with state := st } := by
  have hgot : (got.append t).data = got.data ∧ (got.append t).credit = got.credit := by
    simp [Taken.append, hdata, hcredit]
  obtain ⟨hd, hc⟩ := hgot
  exact ⟨hc ▸ h.sendWindow, h.bytesSent, hc ▸ h.spent, hc ▸ h.bounded, h.grantSent, hd ▸ h.bytesReceived,
    hd ▸ h.received, hd ▸ h.fits, h.window, h.counted, h.pending, hd ▸ h.buffered,
    fun hs => h.drained (hsaid ▸ hs), fun heof => absurd (h.eof heof).1 hheard⟩

end Live

namespace Books

theorem input {t : Taken} (h : Books sent got c) (hi : c.Intact) (hin : Input t c c')
    (hroom : ¬ c.Over → Room (c.out sent) (got.append t)) (hlate : c.state = .closed → t.bad = true → c.Over) : Books sent (got.append t) c' := by
  have hlive : c.state ≠ .closed → Live (c.out sent) got c := fun hst => h.live (hi.not_over hst)
  have hroom : c.state ≠ .closed → Room (c.out sent) (got.append t) := fun hst => hroom (hi.not_over hst)
  have hmore : got.data <+: (got.append t).data := List.prefix_append _ _
  cases hin with
  | credit inc hst hmax => exact ((hlive hst.2.2).takes_credit hmax).books h.codes
  | start hst =>
    have hlive := hlive (by rw [hst]; decide)
    exact Live.books (hlive.takes_flags rfl rfl (by rw [hst]; rfl) (by rw [hst]; decide)) h.codes
  | fin hst =>
    refine Live.books ((hlive ?_).takes_flags rfl rfl ?_ ?_) h.codes <;> rcases hst with hst | hst <;> rw [hst] <;> decide
  | data p hst =>
    have hopen : c.state ≠ .closed := by rcases hst with hst | hst | hst <;> rw [hst] <;> decide
    have hdata : got.data.length + p.length ≤ _ := List.length_append ▸ (hroom hopen).data
    refine Live.books ((hlive hopen).takes_data hdata ?_ ?_ (.inl ⟨rfl, by simp⟩)) h.codes
    · rcases hst with hst | hst | hst <;> rw [hst] <;> decide
    · exact (List.append_assoc _ _ _).symm
  | direct p hst hbuf =>
    have hopen : c.state ≠ .closed := by rcases hst with hst | hst <;> rw [hst] <;> decide
    have hdata : got.data.length + p.length ≤ _ := List.length_append ▸ (hroom hopen).data
    refine Live.books ((hlive hopen).takes_data hdata ?_ ?_ (.inr ⟨rfl, rfl⟩)) h.codes
    · rcases hst with hst | hst <;> rw [hst] <;> decide
    · simp [hbuf]
  | spill p codes hst hbuf hcodes hfall =>
    have hlive := hlive (by rcases hst with hst | hst <;> rw [hst] <;> decide)
    refine h.lost { hfall.lost with } _ ?_ (by rw [hfall.abortCodes]; exact mt hcodes h.codes)
    have hall : c.delivered = got.data := by simpa [hbuf] using hlive.buffered
    rw [hfall.delivered]
    exact hall ▸ List.prefix_refl _
  | rst hst hfall =>
    exact h.lost hfall.lost _ (by rw [hfall.delivered]; exact h.delivered.trans hmore) (by rw [hfall.abortCodes]; exact h.codes)
  | overflow inc codes hst hinc hfall =>
    have hcredit := (hroom hst).credit
    have hspent := (hlive hst).spent
    have hsum : (got.append { credit := inc * windowUnit }).credit = got.credit + inc * windowUnit := rfl
    rw [(hlive hst).creditAvail] at hinc
    omega
  | excess p codes hst hp hfall =>
    have hdata : got.data.length + p.length ≤ _ := List.length_append ▸ (hroom hst).data
    have hfits := (hlive hst).fits
    rw [(hlive hst).outstanding] at hp
    omega
  | invalid rst hst hfall =>
    have hrst := isRst_of_mem c.id .protocolError rst
    refine h.lost ⟨hfall.over, hfall.accepted, fun sent => ?_, fun sent => ?_⟩ _
      (by rw [hfall.delivered]; exact h.delivered.trans hmore) (by rw [hfall.abortCodes]; exact h.codes)
    · refine (hfall.lost.said sent).trans ?_
      rw [out, ← List.append_assoc, (total_append_rst hrst _).1]
      exact List.prefix_refl _
    · refine Nat.le_trans (hfall.lost.granted sent) ?_
      rw [out, ← List.append_assoc, (total_append_rst hrst _).2]
      exact Nat.le_refl _
  | late hst hrst =>
    have hover : c.Over := by
      by_contra hn
      have haborted : c.aborted = false := Bool.eq_false_iff.mpr fun h => hn (.inl h)
      exact hn (hlate hst (by simp [haborted]))
    refine h.lost ?_ _ (h.delivered.trans hmore) h.codes
    exact .of_append _ hover rfl (isRst_of_mem c.id .protocolError true) rfl

theorem moves {t : Taken} (h : Books sent got c) (hi : c.Intact) (hm : Moves t c c') (hbad : t.bad = false)
    (hroom : Room (total sent) (got.append t) ∨ t.data = [] ∧ t.credit = 0) : Books sent (got.append t) c' := by
  induction hm generalizing got with
  | refl => simpa using h
  | own hs _ ih => exact ih (h.step hi hs) (hs.intact hi) hbad hroom
  | @input t u c c' c'' hin _ ih =>
    obtain ⟨hfirst, hrest⟩ := Bool.or_eq_false_iff.mp hbad
    rw [← Taken.append_assoc] at hroom ⊢
    have hnow : ¬ c.Over → Room (c.out sent) (got.append t) := by
      intro hn
      rcases hroom with hroom | ⟨hdata, hcredit⟩
      · exact hroom.mono (List.prefix_append _ _) (Nat.le_add_right _ _) (sent_le_out sent c)
      · have hd : t.data = [] := (List.append_eq_nil_iff.mp hdata).1
        have hc : t.credit = 0 := Nat.eq_zero_of_add_eq_zero_right hcredit
        constructor
        · simpa [Taken.append, hd] using (h.live hn).received
        · simpa [Taken.append, hc] using (h.live hn).bounded
    refine ih (h.input hi hin hnow fun _ hb => absurd (hfirst.symm.trans hb) (by decide)) (hin.intact hi) hrest ?_
    exact hroom.imp_right fun h => ⟨(List.append_eq_nil_iff.mp h.1).2, Nat.eq_zero_of_add_eq_zero_left h.2⟩

theorem own {s s' : Stream} (h : Books sent got s.core) (hi : s.Intact) (hown : Stream.Own s s') : Books sent got s'.core := by
  simpa using h.moves hi hown rfl (.inr ⟨rfl, rfl⟩)

theorem transmit {s : Stream} (h : Books sent got s.core) (n : Nat) :
    Books (sent ++ s.egress.take n) got ({ s with egress := s.egress.drop n } : Stream).core := by
  have hout : out (sent ++ s.egress.take n) ({ s with egress := s.egress.drop n } : Stream).core = out sent s.core := by
    show total ((sent ++ s.egress.take n) ++ s.egress.drop n) = _
    rw [List.append_assoc, List.take_append_drop]
    rfl
  refine ⟨hout.symm ▸ h.accepted, h.delivered, hout.symm ▸ h.spent, hout.symm ▸ h.granted, h.codes, fun hn => ?_⟩
  rw [hout]
  exact { h.live hn with }

end Books

end StreamCore

end Multiplexd
