import Multiplexd.Stream.Resets

/-!
# Every event is a sequence of moves

The functions of the source are walked through once: what an end does of its own accord is made of its
own moves (`handle_own`), and a frame that is legal in the state of the end is taken piece by piece
(`dispatchByStream_steps`).
-/

namespace Multiplexd

namespace Stream

open StreamCore

variable {s s' s'' : Stream}

/-! ### Sending -/

theorem grantInc_grants (s : Stream) : s.core.Grants s.grantInc := by
  unfold grantInc
  split
  · exact ⟨by decide, fun h => absurd h (by decide)⟩
  next hunit =>
  refine ⟨Nat.min_le_right _ _, fun _ => ?_⟩
  have hscaled : max (min (s.pressure s.grantableBytes) s.grantableBytes) windowUnit ≤ s.grantableBytes :=
    Nat.max_le.mpr ⟨Nat.min_le_right _ _, Nat.le_of_not_lt hunit⟩
  have hinc := Nat.mul_le_mul_right windowUnit (Nat.min_le_left
    (max (min (s.pressure s.grantableBytes) s.grantableBytes) windowUnit / windowUnit) 65535)
  have hdiv := Nat.div_mul_le_self (max (min (s.pressure s.grantableBytes) s.grantableBytes) windowUnit) windowUnit
  have hpos : 0 < s.grantableBytes := Nat.lt_of_lt_of_le (by decide) (Nat.le_of_not_lt hunit)
  have hgrantable : s.grantableBytes + s.core.outstanding + s.core.bufferedBytes.toNat ≤ s.core.recvWindow.toNat := by
    have hle : s.grantableBytes = s.core.recvWindow.toNat - s.core.bufferedBytes.toNat - s.core.outstanding := rfl
    omega
  dsimp only
  omega

theorem dequeueSend_none {t : Stream} (h : s.dequeueSend = (none, t)) : t.core = s.core := by
  unfold dequeueSend at h
  split at h
  · exact (Prod.mk.inj h).2 ▸ rfl
  split at h
  · exact (Prod.mk.inj h).2 ▸ rfl
  split at h
  · exact (Prod.mk.inj h).2 ▸ rfl
  split at h
  · exact (Prod.mk.inj h).2 ▸ rfl
  dsimp only at h
  split at h
  · rw [← (Prod.mk.inj h).2]
    exact delay_core _ 1
  · exact absurd (Prod.mk.inj h).1 nofun

theorem dequeueSend_some {t : Stream} {ch : Chunk} (h : s.dequeueSend = (some ch, t)) :
    s.state.canSendData = true ∧ ch.len ≤ s.creditAvail ∧ ∃ rest, s.sendQueue = ch :: rest ∧
      t = { s with
        nagleFlush := false, sendQueue := rest
        queuedSendBytes := s.queuedSendBytes - UInt32.ofNat ch.len } := by
  unfold dequeueSend at h
  split at h
  · exact absurd (Prod.mk.inj h).1 nofun
  next hsend =>
  split at h
  · exact absurd (Prod.mk.inj h).1 nofun
  next c rest hqueue =>
  split at h
  · exact absurd (Prod.mk.inj h).1 nofun
  split at h
  · exact absurd (Prod.mk.inj h).1 nofun
  next hlen =>
  dsimp only at h
  split at h
  · exact absurd (Prod.mk.inj h).1 nofun
  · obtain ⟨hc, ht⟩ := Prod.mk.inj h
    obtain rfl := Option.some.inj hc
    exact ⟨Classical.not_not.mp hsend, Nat.le_of_not_lt hlen, rest, hqueue, ht.symm⟩

def finQueued (s : Stream) : Stream := { s with state := finSent s.state }

theorem markFinSent_cases (hst : s.state = .established ∨ s.state = .closeWait) :
    s.markFinSent = s.finQueued ∨ s.finQueued.state = .closing ∧
      (s.markFinSent = s.finQueued.doClose ∨
        s.recvbuf = [] ∧ s.markFinSent = s.finQueued.finishDrainedWrite.2) := by
  unfold markFinSent finQueued
  rcases hst with hst | hst <;> rw [hst]
  · exact .inl rfl
  · dsimp only [finSent]
    split
    · split
      · exact .inr ⟨rfl, .inl rfl⟩
      · exact .inl rfl
    · split
      next hbuf => exact .inr ⟨rfl, .inr ⟨List.isEmpty_iff.mp hbuf, rfl⟩⟩
      · exact .inl rfl

theorem markFinSent_own (hst : s.state = .established ∨ s.state = .closeWait) (hi : s.finQueued.Intact) :
    Own s.finQueued s.markFinSent := by
  rcases markFinSent_cases hst with h | ⟨hclosing, h | ⟨hbuf, h⟩⟩ <;> rw [h]
  · exact .refl _
  · exact doClose_own hi fun _ => .inl hclosing
  · exact finishDrainedWrite_own (.inr hclosing) hbuf

theorem grants_zero (c : StreamCore) : c.Grants 0 := ⟨by decide, fun h => absurd h (by decide)⟩

@[simp] theorem unitBytes_zero : unitBytes 0 = 0 := rfl

theorem ctrlFlags_eq (inc : Nat) (fin : Bool) :
    ((if 0 < inc then flagAck else 0) ||| if fin then flagFin else 0) = withFlags 0 inc fin := by
  unfold withFlags
  rw [UInt8.zero_or]

theorem hasFlag_withFlags_ack (inc : Nat) (fin : Bool) :
    hasFlag (withFlags 0 inc fin) flagAck = decide (0 < inc) := by
  unfold withFlags
  by_cases h : 0 < inc <;> cases fin <;> simp only [h, if_true, if_false] <;> decide

theorem hasFlag_withFlags_fin (inc : Nat) (fin : Bool) : hasFlag (withFlags 0 inc fin) flagFin = fin := by
  unfold withFlags
  by_cases h : 0 < inc <;> cases fin <;> simp only [h, if_true, if_false] <;> decide

theorem sendCtrlFlags_cases (s : Stream) :
    s.sendCtrlFlags.core = s.core ∨
    (s.state ≠ .init ∧ s.state ≠ .synSent ∧ s.state ≠ .synReceived ∧ ∃ inc, 0 < inc ∧ s.core.Grants inc ∧
      s.sendCtrlFlags.core = { s.core with
        egress := s.egress ++ [Session.ctrlFrame s.id flagAck inc]
        grantSent := s.grantSent + unitBytes inc }) ∨
    (s.finPending = true ∧ ∃ inc t, s.core.Grants inc ∧ s.sendCtrlFlags = markFinSent t ∧
      t.core = { s.core with
        egress := s.egress ++ [Session.ctrlFrame s.id (withFlags 0 inc true) inc]
        grantSent := s.grantSent + unitBytes inc }) := by
  unfold sendCtrlFlags
  dsimp only
  generalize hack : decide (s.state ≠ .init ∧ s.state ≠ .synSent ∧ s.state ≠ .synReceived ∧ s.ackPending = true) = ack
  split
  · exact .inl rfl
  have hgrants : s.core.Grants (if ack = true then s.grantInc else 0) := by
    cases ack with
    | true => exact grantInc_grants s
    | false => exact grants_zero _
  have hstate : 0 < (if ack = true then s.grantInc else 0) →
      s.state ≠ .init ∧ s.state ≠ .synSent ∧ s.state ≠ .synReceived := by
    intro hpos
    cases ack with
    | true =>
      obtain ⟨h1, h2, h3, -⟩ := of_decide_eq_true hack
      exact ⟨h1, h2, h3⟩
    | false => exact absurd hpos (Nat.lt_irrefl 0)
  generalize (if ack = true then s.grantInc else 0) = inc at hgrants hstate ⊢
  rw [ctrlFlags_eq]
  split
  · exact .inl rfl
  next hflags =>
  obtain ⟨ok, allocs, hget⟩ := s.frameGet_eq
  rw [sendCtrl, hget]
  cases ok with
  | false => exact .inl (delay_core _ 1)
  | true =>
    rw [hasFlag_withFlags_ack, hasFlag_withFlags_fin] at *
    cases hfin : s.finPending with
    | true =>
      refine .inr (.inr ⟨rfl, inc, _, hgrants, rfl, ?_⟩)
      by_cases hpos : 0 < inc
      · simp only [hpos, decide_true, if_true]
        split <;> simp [core, emit, delayRemove]
      · obtain rfl : inc = 0 := by omega
        simp [core, emit]
    | false =>
      have hpos : 0 < inc := by
        by_contra hzero
        obtain rfl : inc = 0 := by omega
        exact hflags (by rw [hfin]; rfl)
      obtain ⟨h1, h2, h3⟩ := hstate hpos
      refine .inr (.inl ⟨h1, h2, h3, inc, hpos, hgrants, ?_⟩)
      have hack : withFlags 0 inc false = flagAck := by
        simp only [withFlags, hpos, if_true]
        decide
      simp only [hpos, hack, decide_true, if_true, Bool.false_eq_true, if_false]
      split <;> rfl

theorem finPending_iff (s : Stream) :
    s.finPending = true ↔ s.rxEof = true ∧ s.sendQueue = [] ∧ (s.state = .established ∨ s.state = .closeWait) := by
  simp [finPending, and_assoc]

theorem sendCtrlFlags_own (hi : s.Intact) (hover : s.state = .closed → ¬ s.core.Over) : Own s s.sendCtrlFlags := by
  rcases s.sendCtrlFlags_cases with h | ⟨h1, h2, h3, inc, hpos, hgrants, h⟩ | ⟨hfin, inc, t, hgrants, h, ht⟩
  · exact .of_core h
  · exact .of_step (.ack inc hpos ⟨h1, h2, h3⟩ hover hgrants) h
  · obtain ⟨heof, hqueue, hst⟩ := s.finPending_iff.mp hfin
    have hstate : t.state = s.state := congrArg StreamCore.state ht
    have hown : Own s t.finQueued := by
      refine .of_step (.fin inc hst heof hqueue hgrants) ?_
      show { t.core with state := finSent t.core.state } = _
      rw [ht]
      rfl
    rw [h]
    exact hown.trans (markFinSent_own (hstate ▸ hst) (hown.intact hi))

theorem markFinSent_ctrl_own {u : Stream} (hst : s.state = .established ∨ s.state = .closeWait)
    (hi : s.finQueued.Intact) (hu : u.core = s.markFinSent.core) : Own s.finQueued u.sendCtrlFlags := by
  have hown : Own s.finQueued u := (markFinSent_own hst hi).trans (.of_core hu)
  have hopen : s.finQueued.state ≠ .closed := by
    rcases hst with h | h <;> simp [finQueued, h, finSent]
  have hover : ¬ s.finQueued.core.Over := by
    obtain ⟨h1, h2, -⟩ := hi.unreset hopen
    simp [Over, h1, h2]
  rcases markFinSent_cases hst with h | ⟨hclosing, h | ⟨hbuf, h⟩⟩
  · refine hown.trans (sendCtrlFlags_own (hown.intact hi) fun _ => ?_)
    rw [hu, h]
    exact hover
  · cases hbuf : s.finQueued.recvbuf.isEmpty with
    | true =>
      refine hown.trans (sendCtrlFlags_own (hown.intact hi) fun _ => ?_)
      rw [hu, h, doClose, if_neg hopen, if_pos hbuf, markClosed_core]
      exact hover
    | false =>
      have hfall : Fallen false s.finQueued.core u.core := by
        rw [hu, h]
        exact doClose_fallen hi hopen hbuf
      rcases u.sendCtrlFlags_cases with hc | ⟨-, -, -, inc, hpos, hgrants, hc⟩ | ⟨hfin, -⟩
      · exact hown.trans (.of_core hc)
      · exact .of_step (.resetAck inc hpos hclosing hfall hgrants) hc
      · obtain ⟨-, -, hsend⟩ := u.finPending_iff.mp hfin
        have hclosed : u.state = .closed := hfall.state
        simp [hclosed] at hsend
  · refine hown.trans (sendCtrlFlags_own (hown.intact hi) fun _ => ?_)
    rw [hu, h, finishDrainedWrite_over]
    exact hover

theorem sendPush_open (ch : Chunk) (hst : s.state = .established ∨ s.state = .closeWait) :
    ∃ t : Stream, t.core = { s.core with
        egress := s.egress ++ [pushFrame s.id (withFlags flagPush s.grantInc s.finPending) s.grantInc ch]
        bytesSent := s.bytesSent + UInt32.ofNat ch.len
        grantSent := s.grantSent + unitBytes s.grantInc } ∧
      s.sendPush ch = if s.finPending then t.markFinSent else t := by
  have hinit : s.state ≠ .init := by rcases hst with h | h <;> simp [h]
  have hflags : s.pushFlags s.grantInc = withFlags flagPush s.grantInc s.finPending := by
    unfold pushFlags withFlags
    rw [if_neg hinit, UInt8.or_assoc]
    simp only [hst, true_and]
  unfold sendPush
  dsimp only
  rw [hflags]
  simp only [hinit, decide_false, Bool.not_false, Bool.true_and]
  refine ⟨_, ?_, rfl⟩
  split <;> rfl

theorem drrContinue_core (s : Stream) (stays : Bool) : (s.drrContinue stays).core = s.core := by
  unfold drrContinue
  split
  · rfl
  split
  · rfl
  · exact wake_core _

theorem push_own {t u : Stream} {ch : Chunk} (h : s.dequeueSend = (some ch, t)) (hinit : s.state ≠ .init)
    (hi : s.Intact) (hu : u.core = (t.sendPush ch).core) : Own s u.sendCtrlFlags := by
  obtain ⟨hsend, hlen, rest, hqueue, rfl⟩ := dequeueSend_some h
  have hst : s.state = .established ∨ s.state = .closeWait := by
    unfold StreamState.canSendData at hsend
    simpa [hinit] using hsend
  generalize ht : ({ s with
        nagleFlush := false, sendQueue := rest
        queuedSendBytes := s.queuedSendBytes - UInt32.ofNat ch.len } : Stream) = t at hu
  have htst : t.state = s.state := ht ▸ rfl
  have hfin : t.finPending = (s.rxEof && rest.isEmpty) := by
    subst ht
    rcases hst with h | h <;> simp [finPending, h]
  have hgrant : t.grantInc = s.grantInc := ht ▸ rfl
  obtain ⟨v, hv, hpush⟩ := sendPush_open ch (htst.symm ▸ hst)
  rw [hfin, hgrant] at hv
  rw [hfin] at hpush
  have hstep := Step.push (c := s.core) ch rest s.grantInc hst hqueue hlen (grantInc_grants s)
  cases hlast : s.rxEof && rest.isEmpty with
  | true =>
    rw [hlast] at hv hpush
    have hvst : v.state = s.state := (congrArg StreamCore.state hv).trans htst
    have hown : Own s v.finQueued := by
      refine .of_step hstep ?_
      show { v.core with state := finSent v.core.state } = _
      rw [hv, show s.core.rxEof = s.rxEof from rfl, hlast]
      subst ht
      rfl
    exact hown.trans (markFinSent_ctrl_own (hvst.symm ▸ hst) (hown.intact hi) (hu.trans (by rw [hpush]; rfl)))
  | false =>
    rw [hlast] at hv hpush
    have hown : Own s u := by
      refine .of_step hstep ?_
      rw [hu, hpush, show s.core.rxEof = s.rxEof from rfl, hlast]
      subst ht
      exact hv
    refine hown.trans (sendCtrlFlags_own (hown.intact hi) fun hclosed => ?_)
    have hust : u.core.state = s.state := by
      rw [hu, hpush]
      exact (congrArg StreamCore.state hv).trans htst
    rw [show u.core.state = u.state from rfl, hclosed] at hust
    rcases hst with h | h <;> simp [h] at hust

theorem turn_own (hi : s.Intact) (stays : Bool) : Own s (s.turn stays) := by
  unfold turn
  dsimp only
  have hcore : (if s.drrActive then s else { s with schedQueue := .none } : Stream).core = s.core := by
    split <;> rfl
  generalize (if s.drrActive then s else { s with schedQueue := .none } : Stream) = t at hcore ⊢
  refine (Own.of_core hcore).trans ?_
  have hti : t.Intact := (Own.of_core hcore).intact hi
  split
  · refine .of_core ?_
    split
    · rfl
    · exact lpEnqueue_core _
  · exact .of_core (lpEnqueue_core _)
  · exact .of_core rfl
  next hclosed hinit _ =>
  split
  next ch u hdeq => exact push_own hdeq hinit hti (drrContinue_core _ stays)
  next u hdeq =>
    have hu : ({ u with drrActive := false } : Stream).core = t.core := (dequeueSend_none hdeq : u.core = t.core)
    have hown : Own t { u with drrActive := false } := .of_core hu
    refine hown.trans (sendCtrlFlags_own (hown.intact hti) fun h => absurd h ?_)
    rw [show ({ u with drrActive := false } : Stream).state = t.state from congrArg StreamCore.state hu]
    exact hclosed

theorem sendPush_init (ch : Chunk) (hst : s.state = .init) : (s.sendPush ch).core = { s.core with
    egress := s.egress ++ [pushFrame s.id (flagPush ||| flagSyn) s.grantInc ch]
    bytesSent := s.bytesSent + UInt32.ofNat ch.len
    grantSent := s.grantSent + unitBytes s.grantInc } := by
  have hflags : s.pushFlags s.grantInc = flagPush ||| flagSyn := by
    unfold pushFlags
    rw [if_pos hst]
  unfold sendPush
  dsimp only
  rw [hflags]
  simp only [hst, decide_true, Bool.not_true, Bool.false_and, Bool.false_eq_true, if_false]
  split <;> rfl

theorem sendSyn_own (hst : s.state = .init) : Own s s.sendSyn := by
  unfold sendSyn
  split
  next ch t hdeq =>
    obtain ⟨-, hlen, rest, hqueue, rfl⟩ := dequeueSend_some hdeq
    refine .of_step (.synPush ch rest s.grantInc hst hqueue hlen (grantInc_grants s)) ?_
    exact congrArg (fun c : StreamCore => { c with state := .synSent }) (sendPush_init (s := { s with
      nagleFlush := false, sendQueue := rest
      queuedSendBytes := s.queuedSendBytes - UInt32.ofNat ch.len }) ch hst)
  next t hdeq =>
    have ht := dequeueSend_none hdeq
    obtain ⟨ok, allocs, hget⟩ := t.frameGet_eq
    dsimp only
    rw [sendCtrl, hget]
    cases ok with
    | false => exact .of_core ht
    | true =>
      have hown : Own s t := .of_core ht
      have htst : t.state = .init := (congrArg StreamCore.state ht).trans hst
      exact hown.trans (.step (.syn t.grantInc htst (grantInc_grants t)))

theorem drainLp_own (s : Stream) : Own s s.drainLp := by
  unfold drainLp
  dsimp only
  split
  next hst =>
    have hsyn : Own s (sendSyn { s with schedQueue := .none }) :=
      Own.trans (t := { s with schedQueue := .none }) (.of_core rfl) (sendSyn_own hst)
    split
    next hinit => exact hsyn.trans (abortUnopened_own hinit)
    · exact hsyn
  · exact .of_core rfl

theorem tryShrinkRecvWindow_own (s : Stream) : Own s s.tryShrinkRecvWindow := by
  unfold tryShrinkRecvWindow
  dsimp only
  split
  next h => exact .step (.window s.streamWindow (.inr h.2.2))
  · exact .refl s

theorem checkAck_own (s : Stream) : Own s s.checkAck := by
  unfold checkAck
  split
  · exact .refl s
  refine (tryShrinkRecvWindow_own s).trans (.of_core ?_)
  dsimp only
  generalize s.tryShrinkRecvWindow = t
  split
  · rfl
  split
  · rfl
  split
  · exact delay_core t 1
  split
  · exact wake_core _
  · rfl

theorem updateStreamWindow_own (s : Stream) (frames : Nat) : Own s (s.updateStreamWindow frames) := by
  unfold updateStreamWindow
  dsimp only
  split
  next h =>
    refine Own.trans (t := { s with streamWindow := frames, recvWindow := windowBytes frames }) ?_ (checkAck_own _)
    exact .step (.window frames (.inl h.2))
  · exact .of_core rfl

theorem coalesceCb_core (s : Stream) (othersLeft backlog : Bool) : (s.coalesceCb othersLeft backlog).core = s.core := by
  unfold coalesceCb
  dsimp only
  have hcore : ∀ t : Stream, t.core = s.core →
      (if ¬ t.delayPending ∧ ¬ t.othersDelayed ∧ (¬ t.established ∨ ¬ backlog) then
        { t with coalesceArmed := false } else t : Stream).core = s.core := by
    intro t ht
    split <;> exact ht
  apply hcore
  split
  · split
    · rfl
    · exact wake_core _
  · rfl

/-! ### The local side -/

theorem sendLoop_own (fuel : Nat) (s : Stream) (bytes : List UInt8) (heof : s.rxEof = false)
    (hst : s.state.canSendData = true) (hlen : bytes.length ≤ s.readCreditAvail) :
    Own s (sendLoop fuel s bytes) := by
  induction fuel generalizing s bytes with
  | zero => exact .refl s
  | succ fuel ih =>
    unfold sendLoop
    split
    · exact .refl s
    next b bs hb =>
    obtain ⟨ok, allocs, hget⟩ := s.frameGet_eq
    rw [hget]
    cases ok with
    | false => exact .of_core rfl
    | true =>
      have htake : (b :: bs).length ≤ s.readCreditAvail := by
        rw [← hb]
        exact Nat.le_trans (List.length_take_le' _ _) hlen
      have hlt : (b :: bs).length < 65536 := by
        rw [← hb]
        exact Nat.lt_of_le_of_lt (List.length_take_le _ _) s.conf.maxPayload_lt
      refine Own.trans (t := queueSend { s with allocs := allocs } ⟨b :: bs, List.cons_ne_nil b bs, hlt⟩) ?_
        (ih _ _ heof hst ?_)
      · exact .step (.queue (c := s.core) ⟨b :: bs, List.cons_ne_nil b bs, hlt⟩ heof hst htake)
      · have hdrop : (bytes.drop s.conf.maxPayload).length + (b :: bs).length = bytes.length := by
          rw [← hb, List.length_drop, List.length_take]
          omega
        have hqueued : (s.queuedSendBytes + UInt32.ofNat (b :: bs).length).toNat =
            s.queuedSendBytes.toNat + (b :: bs).length := by
          have hcredit : s.creditAvail < 2 ^ 32 := UInt32.toNat_lt _
          have hread : s.readCreditAvail = s.creditAvail - s.queuedSendBytes.toNat := rfl
          have hpos : 0 < (b :: bs).length := Nat.succ_pos _
          rw [UInt32.toNat_add, UInt32.toNat_ofNat', Nat.mod_eq_of_lt (by omega : (b :: bs).length < 2 ^ 32),
            Nat.mod_eq_of_lt (by omega)]
        show (bytes.drop s.conf.maxPayload).length ≤
          s.creditAvail - (s.queuedSendBytes + UInt32.ofNat (b :: bs).length).toNat
        rw [hqueued]
        have hread : s.readCreditAvail = s.creditAvail - s.queuedSendBytes.toNat := rfl
        omega

theorem send_own (s : Stream) (bytes : List UInt8) : Own s (s.send bytes) := by
  unfold send
  split
  · exact .refl s
  next hmay =>
  have horiginate : s.rxEof = false ∧ s.state.canSendData = true := by
    simpa [mayOriginate] using hmay
  have hloop := sendLoop_own bytes.length s (bytes.take s.readCreditAvail) horiginate.1 horiginate.2
    (List.length_take_le _ _)
  dsimp only
  split
  · exact hloop.trans (.of_core (wake_core _))
  · exact hloop

theorem onRecv_own (s : Stream) (bytes : List UInt8) : Own s (s.onRecv bytes) := by
  unfold onRecv
  split
  · exact .refl s
  next hallowed =>
  obtain ⟨ok, allocs, hget⟩ := s.frameGet_eq
  rw [hget]
  cases ok with
  | false => exact .of_core rfl
  | true =>
    dsimp only
    simp only [Bool.not_true, Bool.false_eq_true, if_false]
    split
    · refine .of_step (.eof s.core) ?_
      rw [wake_core]
      rfl
    next b bs hb =>
    rw [not_or, Classical.not_not] at hallowed
    have hread : s.rxEof = false ∧ s.state.canSendData = true := by
      have hall := hallowed.1
      simp only [localReadAllowed, Bool.and_eq_true, Bool.not_eq_true'] at hall
      refine ⟨hall.1, ?_⟩
      unfold StreamState.canSendData
      have hst := hall.2
      split at hst
      next hinit => simp [hinit]
      · simp only [Bool.or_eq_true] at hst ⊢
        tauto
    refine .of_step (.queue (c := s.core) ⟨b :: bs, List.cons_ne_nil b bs, ?_⟩ hread.1 hread.2 ?_) ?_
    · rw [← hb]
      exact Nat.lt_of_le_of_lt (List.length_take_le _ _)
        (Nat.lt_of_le_of_lt (Nat.min_le_left _ _) s.conf.maxPayload_lt)
    · show (b :: bs).length ≤ s.readCreditAvail
      rw [← hb]
      exact Nat.le_trans (List.length_take_le _ _) (Nat.min_le_right _ _)
    · rw [wake_core]
      rfl

theorem mem_codes_append {codes : List MuxStatus} {code : MuxStatus} (hcode : code ≠ .flowControlError)
    (h : MuxStatus.flowControlError ∈ codes ++ [code]) : MuxStatus.flowControlError ∈ codes := by
  rcases List.mem_append.mp h with h | h
  · exact h
  · exact absurd (List.mem_singleton.mp h).symm hcode

theorem flushLoop_own (fuel : Nat) (s : Stream) (hi : s.Intact) : Own s (flushLoop fuel s).2 := by
  induction fuel generalizing s with
  | zero => exact .refl s
  | succ fuel ih =>
    unfold flushLoop
    split
    · exact .refl s
    next hbuf =>
    have hpos : 0 < s.recvbuf.length := List.length_pos_iff.mpr fun h => hbuf (List.isEmpty_iff.mpr h)
    unfold localWrite
    split
    next hwrite =>
      split at hwrite <;> simp only [Prod.mk.injEq] at hwrite
      · exact .of_core (by rw [← hwrite.2])
      next n rest _ =>
        obtain rfl : n = 0 := by omega
        refine .of_core ?_
        rw [← hwrite.2]
        simp [core]
      next n rest _ =>
        have hst : s.state ≠ .closed := by
          intro hclosed
          rw [show s.recvbuf = [] from hi.drained hclosed] at hpos
          exact absurd hpos (by decide)
        rw [← hwrite.2]
        exact .step (.reset n _ hst (mem_codes_append (by decide))
          (abort_fallen (s := { s with writes := rest, delivered := s.delivered ++ s.recvbuf.take n }) .internalError hst))
    next k u hwrite =>
      split at hwrite <;> simp only [Prod.mk.injEq] at hwrite
      · exact absurd hwrite.1 (by omega)
      next n rest _ =>
        have htake : s.recvbuf.take n = s.recvbuf.take (k + 1) := by
          rw [show k + 1 = min n s.recvbuf.length from hwrite.1.symm, List.take_eq_take_iff]
          omega
        have hown : Own s (checkAck { u with
            recvbuf := u.recvbuf.drop (k + 1)
            bufferedBytes := u.bufferedBytes - UInt32.ofNat (k + 1) }) := by
          rw [← hwrite.2]
          refine Own.trans (.of_step (.consume (k + 1) ?_) ?_) (checkAck_own _)
          · show k + 1 ≤ s.recvbuf.length
            omega
          · rw [htake]
            rfl
        exact hown.trans (ih _ (hown.intact hi))
      · exact absurd hwrite.1 (by omega)

theorem flushLocal_own (hi : s.Intact) : Own s s.flushLocal := by
  unfold flushLocal
  have hloop := flushLoop_own (s.writes.length + 1) s hi
  split
  next t heq =>
    rw [heq] at hloop
    exact hloop
  next t heq =>
    rw [heq] at hloop
    split
    next h => exact hloop.trans (finishDrainedWrite_own h.1 (List.isEmpty_iff.mp h.2))
    · exact hloop

theorem recv_own (hi : s.Intact) (len : Nat) : Own s (s.recv len) := by
  unfold recv
  split
  · exact .refl s
  split
  next hbuf =>
    have hnil := List.isEmpty_iff.mp hbuf
    split
    next hst =>
      have heof : Own s { s with userClosed := true, eofSeen := true } := .step (.eofSeen (.inr hst) hnil)
      exact heof.trans (doClose_own (heof.intact hi) fun _ => .inl hst)
    next hst => exact .step (.eofSeen (.inl hst) hnil)
    · exact .refl s
  · refine Own.trans (t := { s with
        recvbuf := s.recvbuf.drop (min len s.recvbuf.length)
        bufferedBytes := s.bufferedBytes - UInt32.ofNat (min len s.recvbuf.length)
        delivered := s.delivered ++ s.recvbuf.take (min len s.recvbuf.length) }) ?_ (checkAck_own _)
    exact .step (.consume _ (Nat.min_le_right _ _))

theorem shutdown_own (s : Stream) : Own s s.shutdown := by
  unfold shutdown
  split
  · exact .refl s
  · exact doShutdown_own s

theorem close_own (hi : s.Intact) : Own s s.close := by
  unfold close
  split
  · exact .refl s
  split
  · exact closeHeld_own hi
  split
  · exact abort_own s (by decide)
  · exact closeHeld_own (s := { s with isDirect := true }) hi

theorem sendSynAck_own (hst : s.state = .synReceived) : Own s s.sendSynAck.2 := by
  unfold sendSynAck
  obtain ⟨ok, allocs, hget⟩ := s.frameGet_eq
  dsimp only
  rw [sendCtrl, hget]
  cases ok with
  | false => exact Own.trans (t := { s with allocs := allocs }) (.of_core rfl) (abort_own _ (by decide))
  | true => exact .step (.synAck s.grantInc hst (grantInc_grants s))

theorem passFin_own (s : Stream) : Own s s.passFin := by
  unfold passFin
  split
  next h => exact finishDrainedWrite_own h.1 (List.isEmpty_iff.mp h.2)
  · exact .refl s

theorem attachFd_own (s : Stream) : Own s s.attachFd := by
  unfold attachFd
  split
  · exact .refl s
  dsimp only
  split
  next hst =>
    have hsyn := sendSynAck_own (s := { s with fd := true }) hst
    split
    next t heq =>
      rw [heq] at hsyn
      exact hsyn
    next t heq =>
      rw [heq] at hsyn
      exact Own.trans (t := { t with connected := false }) hsyn (passFin_own _)
  · exact Own.trans (t := { s with fd := true, connected := true }) (.of_core rfl) (passFin_own _)

theorem ioStart_own (s : Stream) : Own s s.ioStart := by
  unfold ioStart
  split
  · exact .refl s
  dsimp only
  split
  next hst => exact sendSynAck_own (s := { s with isDirect := true }) hst
  · exact .of_core rfl

theorem onSend_own (hi : s.Intact) (connectOk : Bool) : Own s (s.onSend connectOk) := by
  unfold onSend
  split
  · exact flushLocal_own hi
  split
  · exact flushLocal_own (s := { s with connected := true }) hi
  · exact abort_own s (by decide)

theorem call_own (hi : s.Intact) (c : StreamCall) : Own s (s.call c) := by
  unfold call
  split
  · exact .refl s
  cases c with
  | send bytes => exact send_own s bytes
  | recv len => exact recv_own hi len
  | shutdown => exact shutdown_own s
  | close => exact close_own hi
  | attachFd => exact attachFd_own s
  | ioStart => exact ioStart_own s

theorem calls_own (hi : s.Intact) (calls : List StreamCall) : Own s (calls.foldl call s) := by
  induction calls generalizing s with
  | nil => exact .refl s
  | cons c calls ih => exact (call_own hi c).trans (ih ((call_own hi c).intact hi))

/-- Every event of an end is made of its own moves. -/
theorem handle_own (hi : s.Intact) (e : StreamEvent) : Own s (s.handle e) := by
  have hite : ∀ (p : Prop) [Decidable p] (t : Stream), (p → Own s t) → Own s (if p then t else s) := by
    intro p _ t h
    split
    next hp => exact h hp
    · exact .refl s
  cases e with
  | call c => exact call_own hi c
  | readable bytes => exact hite _ _ fun _ => onRecv_own s bytes
  | readError => exact hite _ _ fun _ => abort_own s (by decide)
  | writable connectOk => exact hite _ _ fun _ => onSend_own hi connectOk
  | timeout => exact hite _ _ fun _ => abort_own s (by decide)
  | turn stays => exact hite _ _ fun _ => turn_own hi stays
  | flushCtrl => exact hite _ _ fun h => sendCtrlFlags_own hi fun hclosed => absurd hclosed h.2.2
  | drainLp => exact hite _ _ fun _ => drainLp_own s
  | coalesce othersLeft backlog => exact hite _ _ fun _ => .of_core (coalesceCb_core s othersLeft backlog)
  | window frames => exact updateStreamWindow_own s frames
  | tombstoneExpired => exact hite _ _ fun _ => .of_core (wake_core _)
  | othersDelay | arm | config | lost | resumed | transmit => exact .of_core rfl

end Stream

end Multiplexd
