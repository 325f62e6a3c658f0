import Multiplexd.Stream.Flow

/-!
# The two ends of a stream together

Two ends that run this code and are joined by FIFO channels, with events on either side in any order:
whatever each of them is given to send, to consume or to close, and whichever allocations fail, as long as
neither is removed from the table of its session. What one end guarantees about the frames it has handed
over (`Exports`) is what the other one needs to take the next of them (`Party.take`): a frame goes on with
the grammar, or comes from an end that has been reset, and its payload and credit keep to the windows.
-/

namespace Multiplexd

open StreamCore

variable {opener : Bool} {fs : List Frame} {c c' : StreamCore}

theorem phase_idle (h : phase opener fs = some .idle) : fs = [] := by
  rcases List.eq_nil_or_concat fs with rfl | ⟨gs, f, rfl⟩
  · rfl
  · rw [List.concat_eq_append, phase_snoc] at h
    obtain ⟨ph, -, hnext⟩ := Option.bind_eq_some_iff.mp h
    rcases next_cases hnext with ⟨-, -, hph⟩ | ⟨-, -, hph⟩ | ⟨-, -, hph⟩
    · exact absurd hph (by decide)
    · split at hph <;> exact absurd hph (by decide)
    · exact absurd hph (by decide)

theorem total_mono {gs : List Frame} (h : fs <+: gs) : (total fs).data <+: (total gs).data ∧
    (total fs).credit ≤ (total gs).credit := by
  obtain ⟨rest, rfl⟩ := h
  rw [total_append]
  exact ⟨List.prefix_append _ _, Nat.le_add_right _ _⟩

theorem StreamCore.Step.rstReceived {c c' : StreamCore} (h : Step c c') : c'.rstReceived = c.rstReceived := by
  cases h with
  | reset _ _ _ _ hfall | resetAck _ _ _ hfall => exact hfall.cause.2
  | _ => rfl

theorem StreamCore.Input.rstReceived {t : Taken} {c c' : StreamCore} (h : Input t c c')
    (ht : c.state = .closed ∨ t.rst = false ∧ t.bad = false) : c'.rstReceived = c.rstReceived := by
  cases h with
  | spill _ _ _ _ _ hfall | overflow _ _ _ _ hfall | excess _ _ _ _ hfall => exact hfall.cause.2
  | rst hst | invalid _ hst => simp [hst] at ht
  | _ => rfl

theorem StreamCore.Moves.rstReceived {t : Taken} {c c' : StreamCore} (h : Moves t c c')
    (ht : t.rst = false ∧ t.bad = false) : c'.rstReceived = c.rstReceived := by
  induction h with
  | refl => rfl
  | own h _ ih => exact (ih ht).trans h.rstReceived
  | input h _ ih =>
    obtain ⟨hr, hr'⟩ := Bool.or_eq_false_iff.mp ht.1
    obtain ⟨hb, hb'⟩ := Bool.or_eq_false_iff.mp ht.2
    exact (ih ⟨hr', hb'⟩).trans (h.rstReceived (.inr ⟨hr, hb⟩))

theorem Taken.Part.flags {t u : Taken} (h : t.Part u) (hu : u.rst = false ∧ u.bad = false) :
    t.rst = false ∧ t.bad = false :=
  ⟨Bool.eq_false_iff.mpr fun ht => absurd (hu.1.symm.trans (h.rst ht)) (by decide),
    Bool.eq_false_iff.mpr fun ht => absurd (hu.2.symm.trans (h.bad ht)) (by decide)⟩

structure Exports (p : Bool) (sent taken : List Frame) : Prop where
  speech : ∃ egress answered, Speech p sent egress answered ∧
    (answered = true → ∃ g ∈ taken, hasFlag g.flags flagRst = false)
  data : (total sent).data.length ≤ defaultSendWindow + (total taken).credit
  credit : defaultSendWindow + (total sent).credit ≤ maxWindow + (total taken).data.length

/-- An end that has handed over `sent` and taken `taken`; `got` is what it has made of the latter. -/
structure Party (p : Bool) (c : StreamCore) (sent taken : List Frame) (got : Taken) : Prop where
  talks : Talks p sent got c
  books : Books sent got c
  data : got.data <+: (total taken).data
  credit : got.credit ≤ (total taken).credit
  opened : got.opened = true → ∃ g ∈ taken, hasFlag g.flags flagRst = false
  exact : c.state ≠ .closed → got = total taken ∧ (phase (!p) taken).isSome
  whole : ¬ c.Over → got.data = (total taken).data ∧ ∀ ph, phase (!p) taken = some ph → ph = c.state.heard
  reset : c.rstReceived = true → phase (!p) taken = none

variable {p : Bool} {s s' : Stream} {sent taken sent' taken' rest : List Frame} {got t : Taken} {f : Frame}

theorem Party.exports (h : Party p c sent taken got) : Exports p sent taken := by
  have hle := sent_le_out sent c
  have hspent := h.books.spent
  have hgranted := h.books.granted
  have hdata := h.data.length_le
  have hcredit := h.credit
  exact ⟨⟨_, _, h.talks.speech, h.opened⟩, by omega, by omega⟩

/-- An end that has been reset. -/
theorem Party.of_over (htalks : Talks p sent got c) (hbooks : Books sent got c) (hover : c.Over)
    (hdata : got.data <+: (total taken).data) (hcredit : got.credit ≤ (total taken).credit)
    (hopened : got.opened = true → ∃ g ∈ taken, hasFlag g.flags flagRst = false)
    (hreset : c.rstReceived = true → phase (!p) taken = none) : Party p c sent taken got :=
  ⟨htalks, hbooks, hdata, hcredit, hopened, fun hst => absurd (htalks.intact.closed_of_over hover) hst,
    fun hn => absurd hover hn, hreset⟩

theorem Party.opened_snoc (h : Party p c sent taken got) (ho : got.opened = true) :
    ∃ g ∈ taken ++ [f], hasFlag g.flags flagRst = false := by
  obtain ⟨g, hg, hrst⟩ := h.opened ho
  exact ⟨g, List.mem_append_left _ hg, hrst⟩

/-- The other end has kept to the windows. -/
theorem Exports.room (h : Exports (!p) sent' taken') (hsent : sent' = taken ++ f :: rest) (htaken : taken' <+: sent) :
    Room (total sent) (total (taken ++ [f])) := by
  have hwindow : maxWindow ≤ maxCredit := by decide
  have hprefix : taken ++ [f] <+: sent' := ⟨rest, by simp [hsent]⟩
  have hmine := total_mono hprefix
  have hback := total_mono htaken
  have hdata := h.data
  have hcredit := h.credit
  have hlen := hmine.1.length_le
  have hlen' := hback.1.length_le
  exact ⟨by omega, by omega⟩

theorem Exports.opens (h : Exports true sent' taken') (hsent : sent' = taken ++ f :: rest)
    (hrst : hasFlag f.flags flagRst = false) (hsyn : hasFlag f.flags flagSyn = true) : taken = [] ∧ f.Opens true := by
  obtain ⟨egress, answered, hspeech, -⟩ := h.speech
  have hphase : (phase true (taken ++ [f])).isSome := by
    refine (hspeech.next hsent).resolve_right fun hbare => ?_
    have hack := hbare.resolve_left (Bool.eq_false_iff.mp hrst)
    exact absurd ((isAck_flags hack).2.1.symm.trans hsyn) (by decide)
  obtain ⟨ph', hph'⟩ := Option.isSome_iff_exists.mp hphase
  rw [phase_snoc] at hph'
  obtain ⟨ph, hph, hnext⟩ := Option.bind_eq_some_iff.mp hph'
  rcases next_cases hnext with ⟨rfl, hf, -⟩ | ⟨-, hf, -⟩ | ⟨-, hf, -⟩
  · exact ⟨phase_idle hph, hf⟩
  · exact absurd ((Stream.carries_flags hf).2.1.symm.trans hsyn) (by decide)
  · exact absurd ((isAck_flags hf).2.1.symm.trans hsyn) (by decide)

theorem total_snoc_le (taken : List Frame) (f : Frame) : (total taken).data <+: (total (taken ++ [f])).data ∧
    (total taken).credit ≤ (total (taken ++ [f])).credit :=
  total_mono (List.prefix_append _ _)

/-! ### Taking a frame -/

theorem Party.takes_reset (h : Party p s.core sent taken got) (hin : Input t s.core s'.core) (hover : s'.core.Over)
    (hlate : s.state = .closed → t.bad = true → s.core.Over)
    (ht : t.data = [] ∧ t.credit = 0 ∧ t.opened = false) (hroom : Room (total sent) (total (taken ++ [f])))
    (hreset : s'.rstReceived = true → phase (!p) (taken ++ [f]) = none) :
    Party p s'.core sent (taken ++ [f]) (got.append t) := by
  obtain ⟨hdata, hcredit, hopened⟩ := ht
  have hle := total_snoc_le taken f
  have hd : (got.append t).data <+: (total (taken ++ [f])).data := by
    rw [Taken.append, hdata, List.append_nil]
    exact h.data.trans hle.1
  have hc : (got.append t).credit ≤ (total (taken ++ [f])).credit := by
    rw [Taken.append, hcredit]
    exact Nat.le_trans h.credit hle.2
  have hbooks := h.books.input h.talks.intact hin (fun _ => hroom.mono hd hc (sent_le_out sent s.core)) hlate
  refine .of_over (h.talks.input hin hlate) hbooks hover hd hc (fun ho => h.opened_snoc ?_) hreset
  rwa [Taken.append, hopened, Bool.or_false] at ho

theorem Party.of_moves (htalks : Talks p sent got c) (hbooks : Books sent got c) (hmoves : Moves t c c')
    (ht : t.rst = false ∧ t.bad = false) (hdata : (got.append t).data <+: (total taken).data)
    (hcredit : (got.append t).credit ≤ (total taken).credit) (hopened : ∃ g ∈ taken, hasFlag g.flags flagRst = false)
    (hall : ¬ c'.Over → got.append t = total taken) (hphase : (phase (!p) taken).isSome)
    (hroom : Room (total sent) (total taken)) (hnot : c.rstReceived = false) : Party p c' sent taken (got.append t) := by
  have htalks' := htalks.moves hmoves ht.2
  refine ⟨htalks', hbooks.moves htalks.intact hmoves ht.2 (.inl (hroom.mono hdata hcredit ⟨Nat.le_refl _, Nat.le_refl _⟩)),
    hdata, hcredit, fun _ => hopened, fun hst => ⟨hall (htalks'.intact.not_over hst), hphase⟩,
    fun hn => ⟨by rw [hall hn], fun ph hph => ?_⟩, fun hr => ?_⟩
  · have hof := htalks'.heard hn
    rw [hall hn] at hof
    exact (total_of_phase hph).unique hof
  · rw [hmoves.rstReceived ht, hnot] at hr
    exact absurd hr (by decide)

/-- A frame that goes on with the grammar. -/
theorem Party.takes_frame (h : Party p s.core sent taken got) (hst : s.state ≠ .closed)
    (hgets : Stream.Gets f.taken s s') (hphase : (phase (!p) (taken ++ [f])).isSome)
    (hroom : Room (total sent) (total (taken ++ [f]))) : ∃ got', Party p s'.core sent (taken ++ [f]) got' := by
  obtain ⟨t, hmoves, hpart, hall⟩ := hgets
  obtain ⟨rfl, -⟩ := h.exact hst
  obtain ⟨ph, hph⟩ := Option.isSome_iff_exists.mp hphase
  rw [phase_snoc] at hph
  obtain ⟨ph₀, -, hnext⟩ := Option.bind_eq_some_iff.mp hph
  have hrst := next_rst hnext
  have hflags : f.taken.rst = false ∧ f.taken.bad = false := by
    rw [Frame.taken, if_neg (Bool.eq_false_iff.mp hrst)]
    exact ⟨rfl, rfl⟩
  have hsum : total (taken ++ [f]) = (total taken).append f.taken := by rw [total_append, total_single]
  have hmore := hpart.append_left (total taken)
  rw [← hsum] at hmore
  exact ⟨_, .of_moves h.talks h.books hmoves (hpart.flags hflags) hmore.data hmore.credit
    ⟨f, by simp, hrst⟩ (fun hn => by rw [hall hn, hsum]) hphase hroom (h.talks.intact.unreset hst).2.1⟩

theorem Party.not_answered (h : Party p s.core sent taken got) (he : Exports (!p) sent' taken')
    (hsent : sent' = taken ++ f :: rest) (htaken : taken' <+: sent) (hlater : f.Later (!p)) (hst : s.state ≠ .closed) :
    s.state.said ≠ .idle := by
  intro hsaid
  have hphase := h.talks.said (h.talks.intact.not_over hst)
  rw [show s.core.state = s.state from rfl, hsaid] at hphase
  obtain ⟨hnil, -⟩ := List.append_eq_nil_iff.mp (phase_idle hphase)
  obtain ⟨egress, answered, hspeech, hanswered⟩ := he.speech
  obtain ⟨g, hg, -⟩ := hanswered (hspeech.reply f (by simp [hsent]) hlater)
  rw [hnil] at htaken
  rw [List.prefix_nil.mp htaken] at hg
  exact absurd hg List.not_mem_nil

/-- A frame that goes on with the grammar is legal in the state of the end. -/
theorem Party.fits (h : Party p s.core sent taken got) (he : Exports (!p) sent' taken')
    (hsent : sent' = taken ++ f :: rest) (htaken : taken' <+: sent) (hst : s.state ≠ .closed)
    (hphase : (phase (!p) (taken ++ [f])).isSome) : f.Fits s.state := by
  have hn := h.talks.intact.not_over hst
  obtain ⟨ph', hph'⟩ := Option.isSome_iff_exists.mp hphase
  rw [phase_snoc] at hph'
  obtain ⟨ph, hph, hnext⟩ := Option.bind_eq_some_iff.mp hph'
  have hheard : ph = s.state.heard := (h.whole hn).2 ph hph
  have hrst := next_rst hnext
  have hnot := h.not_answered he hsent htaken
  refine .inr ?_
  rcases next_cases hnext with ⟨rfl, hf, -⟩ | ⟨rfl, hf, -⟩ | ⟨rfl, hf, -⟩
  · have hidle : s.state = .init ∨ s.state = .synSent := by
      cases hs : s.state <;> simp [hs, StreamState.heard] at hheard <;> simp
    obtain rfl := h.talks.opener_of_idle hidle
    have hsaid := hnot ⟨hrst, fun h => absurd h (by decide)⟩ hst
    rcases hidle with hs | hs <;> rw [hs] at hsaid ⊢
    · exact absurd rfl hsaid
    · exact hf
  · have hsaid := hnot ⟨hrst, fun _ => (Stream.carries_flags hf).2.1⟩ hst
    cases hs : s.state <;> simp [hs, StreamState.heard, StreamState.said] at hheard hsaid <;> exact hf
  · cases hs : s.state <;> simp [hs, StreamState.heard] at hheard <;> exact hf

theorem isAck_of_finished {ph : Phase} (h : phase opener (fs ++ [f]) = some ph)
    (hfs : ∀ ph, phase opener fs = some ph → ph = .finished) : f.IsAck ∧ ph = .finished := by
  rw [phase_snoc] at h
  obtain ⟨ph₀, hph₀, hnext⟩ := Option.bind_eq_some_iff.mp h
  obtain rfl := hfs ph₀ hph₀
  rcases next_cases hnext with ⟨hph, -⟩ | ⟨hph, -⟩ | ⟨-, hf, hph⟩
  · exact absurd hph (by decide)
  · exact absurd hph (by decide)
  · exact ⟨hf, hph⟩

/-- An end takes the next frame of the other one. -/
theorem Party.take (h : Party p s.core sent taken got) (he : Exports (!p) sent' taken')
    (hsent : sent' = taken ++ f :: rest) (htaken : taken' <+: sent) :
    ∃ got', Party p (s.dispatchByStream f).core sent (taken ++ [f]) got' := by
  have hi : s.Intact := h.talks.intact
  have hroom := he.room hsent htaken
  have hle := total_snoc_le taken f
  by_cases ho : s.core.Over
  · -- after its reset the end ignores the frame or answers with an RST
    have hst := hi.closed_of_over ho
    have hnone : s.rstReceived = true → phase (!p) (taken ++ [f]) = none := fun hr => by
      rw [phase_snoc, h.reset hr, Option.bind_none]
    rcases Stream.dispatchByStream_closed hst f with hown | hin
    · have hsame := StreamCore.Moves.rstReceived hown ⟨rfl, rfl⟩
      exact ⟨got, .of_over (h.talks.own hown) (h.books.own hi hown) (StreamCore.Moves.over hown ho) (h.data.trans hle.1)
        (Nat.le_trans h.credit hle.2) h.opened_snoc fun hr => hnone (hsame.symm.trans hr)⟩
    · exact ⟨_, h.takes_reset hin (hin.over ho) (fun _ _ => ho) ⟨rfl, rfl, rfl⟩ hroom
        fun hr => hnone ((hin.rstReceived (.inl hst)).symm.trans hr)⟩
  obtain ⟨egress, answered, hspeech, -⟩ := he.speech
  have hnext := hspeech.next hsent
  by_cases hst : s.state = .closed
  · -- closed by two FINs: only grants and an RST can come
    have hfinished : ∀ ph, phase (!p) taken = some ph → ph = .finished := fun ph hph => by
      rw [(h.whole ho).2 ph hph, show s.core.state = .closed from hst]
      rfl
    have hbare : f.Bare := hnext.elim (fun hsome => by
      obtain ⟨ph, hph⟩ := Option.isSome_iff_exists.mp hsome
      exact .inr (isAck_of_finished hph hfinished).1) fun hf => hf
    rw [Stream.dispatchByStream_ignores hst hbare]
    have hdata : f.taken.data = [] := by
      rcases hbare with hrst | hack
      · rw [Frame.taken, if_pos hrst]
      · rw [Frame.taken, if_neg (Bool.eq_false_iff.mp (isAck_flags hack).1)]
        exact hack.2
    refine ⟨got, h.talks, h.books, h.data.trans hle.1, Nat.le_trans h.credit hle.2, h.opened_snoc,
      fun hopen => absurd hst hopen, fun hn => ⟨?_, fun ph hph => ?_⟩, fun hr => absurd (.inr hr) ho⟩
    · rw [(h.whole hn).1, total_append, total_single, Taken.append, hdata, List.append_nil]
    · rw [(isAck_of_finished hph hfinished).2, show s.core.state = .closed from hst]
      rfl
  by_cases hrst : hasFlag f.flags flagRst = true
  · have hfall := Stream.recvRst_fallen hst
    have hdispatch : s.dispatchByStream f = s.recvRst := by rw [Stream.dispatchByStream, if_neg hst, if_pos hrst]
    rw [hdispatch]
    refine ⟨_, h.takes_reset (.rst hst hfall) hfall.over (fun hc => absurd hc hst) ⟨rfl, rfl, rfl⟩ hroom fun _ => ?_⟩
    rw [phase_snoc, Option.bind_eq_none_iff]
    exact fun ph _ => Option.eq_none_iff_forall_ne_some.mpr fun ph' hph' => absurd (hrst.symm.trans (next_rst hph')) (by decide)
  by_cases hphase : (phase (!p) (taken ++ [f])).isSome
  · exact h.takes_frame hst
      (Stream.dispatchByStream_fits hi h.talks.opening hst (h.fits he hsent htaken hst hphase)) hphase hroom
  · -- a grant of an end that has withdrawn its SYN|ACK
    have hack : f.IsAck := (hnext.resolve_left hphase).resolve_left hrst
    have hsyn : s.state = .synSent := by
      obtain ⟨ph, hph⟩ := Option.isSome_iff_exists.mp (h.exact hst).2
      have hidle : ph = .idle := by
        by_contra hne
        rw [phase_snoc, hph] at hphase
        cases ph with
        | idle => exact hne rfl
        | opened => exact hphase (by simp [Phase.next, isAck_carries hack])
        | finished => exact hphase (by simp [Phase.next, hack])
      have hheard := (h.whole ho).2 ph hph
      have hsaid := h.not_answered he hsent htaken ⟨(isAck_flags hack).1, fun _ => (isAck_flags hack).2.1⟩ hst
      rw [hidle] at hheard
      cases hs : s.state <;> simp [show s.core.state = s.state from rfl, hs, StreamState.heard, StreamState.said] at hheard hsaid ⊢
    have hdispatch : s.dispatchByStream f = (s.sendRst .protocolError).recvRst := by
      rw [Stream.dispatchByStream, if_neg hst, if_neg hrst, if_pos]
      rw [hsyn, hack.1]
      decide
    have hin := Stream.sendRst_recvRst hi hst
    rw [hdispatch]
    refine ⟨_, h.takes_reset hin ?_ (fun hc => absurd hc hst) ⟨rfl, rfl, rfl⟩ hroom fun _ => by simpa using hphase⟩
    exact (Stream.recvRst_fallen (by rw [(Stream.sendRst_keeps s _).2]; exact hst)).over

/-! ### The accepting end -/

namespace Stream

/-- What `on_accept` may leave: the stream has not moved beyond its SYN|ACK, or it has been reset. -/
def Fresh (s : Stream) : Prop :=
  s.core.Over ∨ (s.state = .synReceived ∨ s.state = .established) ∧ s.recvbuf = []

theorem sendLoop_state (fuel : Nat) (s : Stream) (bytes : List UInt8) : (sendLoop fuel s bytes).state = s.state := by
  induction fuel generalizing s bytes with
  | zero => rfl
  | succ fuel ih =>
    unfold sendLoop
    split
    · rfl
    obtain ⟨ok, allocs, hget⟩ := s.frameGet_eq
    rw [hget]
    cases ok with
    | false => rfl
    | true => exact ih _ _

theorem doShutdown_state (hst : s.state ≠ .closing) : s.doShutdown.state = s.state := by
  unfold doShutdown
  dsimp only
  rw [if_neg fun h => hst h.2.2.1]
  exact congrArg StreamCore.state (wake_core _)

theorem sendSynAck_state (hst : s.state = .synReceived) :
    s.sendSynAck.2.core.Over ∧ s.sendSynAck.1 = false ∨ s.sendSynAck.2.state = .established := by
  unfold sendSynAck
  obtain ⟨ok, allocs, hget⟩ := s.frameGet_eq
  dsimp only
  rw [sendCtrl, hget]
  cases ok with
  | false => exact .inl ⟨abort_over { s with allocs := allocs } _ (by rw [show _ = _ from hst]; decide), rfl⟩
  | true => exact .inr rfl

theorem passFin_state (hst : s.state = .established) : s.passFin = s := by
  unfold passFin
  rw [if_neg fun h => by simp [hst] at h]

theorem call_state (hst : s.state = .synReceived ∨ s.state = .established) (hbuf : s.recvbuf = []) (c : StreamCall) :
    (s.call c).core.Over ∨ (s.call c).state = s.state ∨ (s.call c).state = .established := by
  have hclosing : s.state ≠ .closing := by rcases hst with h | h <;> simp [h]
  have hclosed : s.state ≠ .closed := by rcases hst with h | h <;> simp [h]
  have hheld : ∀ t : Stream, t.state = s.state → t.recvbuf = [] → t.closeHeld.state = s.state := by
    intro t ht htbuf
    unfold closeHeld
    dsimp only
    cases t.isDirect <;> simp only [Bool.false_eq_true, if_true, if_false, htbuf, List.isEmpty_nil] <;>
      exact (doShutdown_state (by rw [show _ = _ from ht]; exact hclosing)).trans ht
  unfold call
  split
  · exact .inr (.inl rfl)
  cases c with
  | send bytes =>
    refine .inr (.inl ?_)
    dsimp only
    unfold send
    split
    · rfl
    dsimp only
    split
    · exact (congrArg StreamCore.state (wake_core _)).trans (sendLoop_state _ _ _)
    · exact sendLoop_state _ _ _
  | recv len =>
    refine .inr (.inl ?_)
    dsimp only
    unfold recv
    split
    · rfl
    rw [if_pos (List.isEmpty_iff.mpr hbuf)]
    rcases hst with h | h <;> rw [h] <;> exact h
  | shutdown =>
    refine .inr (.inl ?_)
    dsimp only
    rw [shutdown, if_neg hclosed, doShutdown_state hclosing]
  | close =>
    dsimp only
    rw [close, if_neg hclosed]
    split
    · exact .inr (.inl (hheld s rfl hbuf))
    split
    · exact .inl (abort_over s _ hclosed)
    · exact .inr (.inl (hheld { s with isDirect := true } rfl hbuf))
  | attachFd =>
    dsimp only
    unfold attachFd
    split
    · exact .inr (.inl rfl)
    dsimp only
    split
    next hsyn =>
      have hack := sendSynAck_state (s := { s with fd := true }) hsyn
      split
      next t heq =>
        rw [heq] at hack
        exact hack.elim (fun h => .inl h.1) fun h => .inr (.inr h)
      next t heq =>
        rw [heq] at hack
        have hest : t.state = .established := hack.resolve_left fun h => Bool.false_ne_true h.2.symm
        rw [passFin_state (s := { t with connected := false }) hest]
        exact .inr (.inr hest)
    next hsyn =>
      have hest := hst.resolve_left hsyn
      rw [passFin_state (s := { s with fd := true, connected := true }) hest]
      exact .inr (.inl rfl)
  | ioStart =>
    dsimp only
    unfold ioStart
    split
    · exact .inr (.inl rfl)
    dsimp only
    split
    next hsyn =>
      exact (sendSynAck_state (s := { s with isDirect := true }) hsyn).elim (fun h => .inl h.1) fun h => .inr (.inr h)
    · exact .inr (.inl rfl)

theorem calls_fresh (hi : s.Intact) (h : s.Fresh) (calls : List StreamCall) : (calls.foldl call s).Fresh := by
  induction calls generalizing s with
  | nil => exact h
  | cons c calls ih =>
    have hown := call_own hi c
    refine ih (hown.intact hi) ?_
    rcases h with ho | ⟨hst, hbuf⟩
    · exact .inl (StreamCore.Moves.over hown ho)
    rcases call_state hst hbuf c with ho | hsame | hest
    · exact .inl ho
    · exact .inr ⟨hsame.symm ▸ hst, hown.recvbuf_nil hbuf⟩
    · exact .inr ⟨.inr hest, hown.recvbuf_nil hbuf⟩

theorem doClose_over (h : s.aborted = true) (hbuf : s.recvbuf = []) : s.doClose.core.Over := by
  unfold doClose
  split
  · exact .inl h
  · rw [if_pos (List.isEmpty_iff.mpr hbuf), markClosed_core]
    exact .inl h

theorem reject_over (hbuf : s.recvbuf = []) : s.reject.core.Over := by
  obtain ⟨ok, allocs, hget⟩ := s.frameGet_eq
  unfold reject
  rw [sendCtrl, hget]
  cases ok <;> exact doClose_over rfl hbuf

end Stream

theorem taken_opens (h : f.Opens true) : f.taken =
    (Taken.append { credit := f.extra.toNat * windowUnit, opened := true }
      { data := if hasFlag f.flags flagPush then f.payload else [] }) := by
  obtain ⟨hrst, hsyn, hfin⟩ := opens_flags h
  have hdata : (if hasFlag f.flags flagPush then f.payload else []) = f.payload := by
    rcases h with ⟨hflags, hnil⟩ | ⟨hflags, -⟩
    · rw [hnil]
      exact ite_self _
    · rw [hflags, if_pos (by decide)]
  rw [Frame.taken, if_neg (Bool.eq_false_iff.mp hrst), hsyn, hfin, hdata]
  simp [Taken.append]

variable (id : UInt16) (conf : StreamConf) (window : Nat) (auto : Bool)

theorem newAccepted_books (i : StreamInputs) (f : Frame) :
    Books [] { credit := f.extra.toNat * windowUnit, opened := true } (Stream.newAccepted id conf window auto i f).core := by
  have hextra : f.extra.toNat < 65536 := f.extra.toNat_lt
  refine Live.books ⟨rfl, rfl, Nat.zero_le _, ?_, rfl, rfl, Nat.zero_le _, ?_, windowBytes_le window, rfl, rfl, rfl, nofun,
    nofun⟩ nofun
  · show defaultSendWindow + f.extra.toNat * windowUnit ≤ 0 + maxCredit
    unfold defaultSendWindow windowUnit maxCredit
    omega
  · have hle := le_windowBytes window
    show defaultSendWindow + 0 + 0 ≤ 0 + (Stream.windowBytes window).toNat
    omega

theorem newAccepted_talks (i : StreamInputs) (f : Frame) :
    Talks false [] { credit := f.extra.toNat * windowUnit, opened := true }
      (Stream.newAccepted id conf window auto i f).core where
  intact := Stream.newAccepted_intact id conf window auto i f
  opening := .of_answered nofun nofun
  speech := ⟨⟨[], [], rfl, rfl, nofun⟩, nofun⟩
  said := fun _ => rfl
  heard := fun _ => ⟨by simp [Stream.newAccepted, Stream.core, Stream.load, Stream.new, StreamState.heard],
    by simp [Stream.newAccepted, Stream.core, Stream.load, Stream.new, StreamState.heard]⟩
  role := rfl

/-- A stream that is accepted with its SYN. -/
theorem accept_party (i : StreamInputs)
    (calls : List StreamCall) (keeps : Bool) (hopens : f.Opens true) (hroom : Room (total []) (total [f])) :
    ∃ got, Party false (Stream.accept id conf window auto i f calls keeps).core [] [f] got := by
  have hnew := Stream.newAccepted_intact id conf window auto i f
  have hown := Stream.calls_own hnew calls
  have hi := hown.intact hnew
  have htalks := (newAccepted_talks id conf window auto i f).own hown
  have hbooks := (newAccepted_books id conf window auto i f).own hnew hown
  have hfresh := Stream.calls_fresh (s := Stream.newAccepted id conf window auto i f) hnew (.inr ⟨.inl rfl, rfl⟩) calls
  have hbuf := StreamLife.asked_recvbuf id conf window auto i f calls
  have hreceived := StreamLife.asked_bytesReceived id conf window auto i f calls
  have hreset : (calls.foldl Stream.call (Stream.newAccepted id conf window auto i f)).core.rstReceived = false :=
    StreamCore.Moves.rstReceived hown ⟨rfl, rfl⟩
  have htotal : total [f] = Taken.append { credit := f.extra.toNat * windowUnit, opened := true }
      { data := if hasFlag f.flags flagPush then f.payload else [] } := (total_single f).trans (taken_opens hopens)
  have hover : ∀ {c : StreamCore}, Talks false [] { credit := f.extra.toNat * windowUnit, opened := true } c →
      Books [] { credit := f.extra.toNat * windowUnit, opened := true } c → c.Over → c.rstReceived = false →
      ∃ got, Party false c [] [f] got :=
    fun ht hb ho hr => ⟨_, .of_over ht hb ho List.nil_prefix (by rw [htotal]; exact Nat.le_add_right _ _)
      (fun _ => ⟨f, List.mem_singleton.mpr rfl, (opens_flags hopens).1⟩) fun hr' => absurd (hr.symm.trans hr') (by decide)⟩
  unfold Stream.accept
  dsimp only
  generalize calls.foldl Stream.call (Stream.newAccepted id conf window auto i f) = s at *
  cases keeps with
  | true =>
    show ∃ got, Party false (s.processSynPayload f).core [] [f] got
    rcases hfresh with ho | ⟨hst, -⟩
    · have hclosed : s.state = .closed := hi.closed_of_over ho
      rw [Stream.processSynPayload, if_neg fun h => by simp [hclosed] at h]
      exact hover htalks hbooks ho hreset
    · obtain ⟨t, hmoves, hpart, hall⟩ := Stream.processSynPayload_gets hi hst.symm hreceived f
      have hmore := hpart.append_left { credit := f.extra.toNat * windowUnit, opened := true }
      rw [← htotal] at hmore
      refine ⟨_, .of_moves htalks hbooks hmoves (hpart.flags ⟨rfl, rfl⟩) hmore.data hmore.credit
        ⟨f, List.mem_singleton.mpr rfl, (opens_flags hopens).1⟩ (fun hn => by rw [hall hn, htotal]) ?_ hroom hreset⟩
      simp [phase, Phase.next, hopens]
  | false =>
    show ∃ got, Party false s.reject.core [] [f] got
    have ho := Stream.reject_over hbuf
    rcases Stream.reject_cases hbuf with ⟨-, hown'⟩ | ⟨hst, rst, hcore⟩
    · exact hover (htalks.own hown') (hbooks.own hi hown') ho ((StreamCore.Moves.rstReceived hown' ⟨rfl, rfl⟩).trans hreset)
    · have hrst := isRst_of_mem s.id .refusedStream rst
      have hlost := hbooks.lost (.of_append _ ho (by rw [hcore]) hrst (by rw [hcore]; rfl)) {}
        (by rw [hcore]; simpa using hbooks.delivered) (by rw [hcore]; exact hbooks.codes)
      rw [Taken.append_nil] at hlost
      refine hover ?_ hlost ho (by rw [hcore]; exact hreset)
      rw [hcore] at ho ⊢
      exact ⟨⟨fun h => absurd hst h, htalks.intact.drained⟩, .of_answered (by simp [hst, Stream.core]) (by simp [hst, Stream.core]),
        htalks.speech.append (Speech.rsts_later hrst), fun hn => absurd ho hn, fun hn => absurd ho hn, htalks.role⟩

/-! ### The system -/

theorem StreamCore.Moves.closed (h : Moves t c c') (hst : c.state = .closed) : c'.state = .closed := by
  induction h with
  | refl => exact hst
  | own h _ ih =>
    refine ih ?_
    cases h with
    | eof | window | consume | queue | ack | eofSeen => exact hst
    | close | reject => rfl
    | reset _ _ _ _ hfall | resetAck _ _ _ hfall => exact hfall.state
    | syn _ h | synPush _ _ _ h | synAck _ h | push _ _ _ h | fin _ h => simp [hst] at h
  | input h _ ih =>
    refine ih ?_
    cases h with
    | credit | data | direct | late => exact hst
    | start h | fin h => simp [hst] at h
    | spill _ _ _ _ _ hfall | rst _ hfall | overflow _ _ _ _ hfall | excess _ _ _ _ hfall | invalid _ _ hfall =>
      exact hfall.state

theorem Party.own (h : Party p s.core sent taken got) (hown : Stream.Own s s') : Party p s'.core sent taken got := by
  have htalks := h.talks.own hown
  refine ⟨htalks, h.books.own h.talks.intact hown, h.data, h.credit, h.opened, fun hst => h.exact ?_, fun hn => ?_,
    fun hr => h.reset ((StreamCore.Moves.rstReceived hown ⟨rfl, rfl⟩).symm.trans hr)⟩
  · exact fun hclosed => hst (StreamCore.Moves.closed hown hclosed)
  · have hn' : ¬ s.core.Over := fun ho => hn (StreamCore.Moves.over hown ho)
    exact ⟨(h.whole hn').1, fun ph hph => ((h.whole hn').2 ph hph).trans ((h.talks.heard hn').unique (htalks.heard hn))⟩

theorem Party.transmit (h : Party p s.core sent taken got) (n : Nat) :
    Party p ({ s with egress := s.egress.drop n } : Stream).core (sent ++ s.egress.take n) taken got :=
  { h with talks := h.talks.transmit n, books := h.books.transmit n }

theorem new_party :
    Party true (Stream.new id conf window auto true).core [] [] {} where
  talks := ⟨⟨fun _ => ⟨rfl, rfl, rfl⟩, fun h => by cases h⟩, (StreamLife.new_sound id conf window auto).opening,
    ⟨⟨[], [], rfl, rfl, by simp⟩, by simp [Stream.new, Stream.core]⟩, fun _ => rfl,
    fun _ => ⟨by simp [Stream.new, Stream.core, StreamState.heard], by simp [Stream.new, Stream.core, StreamState.heard]⟩,
    by simp [Stream.new, Stream.core]⟩
  books := by
    refine Live.books ⟨rfl, rfl, Nat.zero_le _, ?_, rfl, rfl, Nat.zero_le _, ?_, windowBytes_le window, rfl, rfl, rfl,
      (fun h => by cases h), (fun h => by cases h)⟩ List.not_mem_nil
    · show defaultSendWindow + 0 ≤ 0 + maxCredit
      decide
    · have hle := le_windowBytes window
      show defaultSendWindow + 0 + 0 ≤ 0 + (Stream.windowBytes window).toNat
      omega
  data := List.prefix_refl _
  credit := Nat.le_refl _
  opened := fun h => by cases h
  exact := fun _ => ⟨rfl, rfl⟩
  whole := fun _ => ⟨rfl, fun _ h => (Option.some.inj h).symm⟩
  reset := fun h => by cases h

namespace StreamSide

def Ok (p : Bool) (side : StreamSide) (sent taken : List Frame) : Prop :=
  match side with
  | .live s => ∃ got, Party p s.core sent taken got
  | .unknown _ _ _ _ egress =>
    p = false ∧ (∀ f ∈ sent ++ egress, hasFlag f.flags flagRst = true) ∧ (taken = [] → sent ++ egress = [])
  | .sessionReset => False

variable {side : StreamSide}

theorem Ok.exports (h : Ok p side sent taken) : Exports p sent taken := by
  cases side with
  | live s =>
    obtain ⟨got, hparty⟩ := h
    exact hparty.exports
  | unknown _ _ _ _ egress =>
    obtain ⟨-, hrst, -⟩ := h
    obtain ⟨hdata, hcredit⟩ := total_of_rst fun f hf => hrst f (List.mem_append_left egress hf)
    refine ⟨⟨egress, false, ⟨⟨[], _, rfl, rfl, fun f hf => .inl (hrst f hf)⟩, fun f hf hl => ?_⟩, nofun⟩, ?_, ?_⟩
    · exact absurd (hl.1.symm.trans (hrst f hf)) (by decide)
    · rw [hdata]
      exact Nat.zero_le _
    · rw [hcredit]
      exact Nat.le_trans (by decide) (Nat.le_add_right _ _)
  | sessionReset => exact h.elim

theorem Ok.act (h : Ok p side sent taken) (e : StreamEvent × StreamInputs) :
    Ok p (side.act e).1 (sent ++ (side.act e).2) taken := by
  obtain ⟨e, i⟩ := e
  cases side with
  | live s =>
    obtain ⟨got, hparty⟩ := h
    have hi : (s.load i).Intact := hparty.talks.intact
    have hown : Party p ((s.load i).handle e).core sent taken got :=
      Party.own (s := s.load i) hparty (Stream.handle_own hi e)
    cases e with
    | transmit n => exact ⟨got, hparty.transmit n⟩
    | _ => exact ⟨got, (List.append_nil sent).symm ▸ hown⟩
  | unknown id conf window auto egress =>
    cases e with
    | transmit n =>
      have hout : (sent ++ egress.take n) ++ egress.drop n = sent ++ egress := by
        rw [List.append_assoc, List.take_append_drop]
      exact ⟨h.1, hout.symm ▸ h.2.1, hout.symm ▸ h.2.2⟩
    | _ => exact (List.append_nil sent).symm ▸ h
  | sessionReset => exact h.elim

theorem Ok.dispatchNoStream {id : UInt16} {conf : StreamConf} {window : Nat} {auto : Bool} {egress : List Frame}
    (h : Ok p (.unknown id conf window auto egress) sent taken) (he : Exports (!p) sent' taken')
    (hsent : sent' = taken ++ f :: rest) (htaken : taken' <+: sent) (i : StreamInputs) :
    Ok p (StreamSide.dispatchNoStream id conf window auto egress i f) sent (taken ++ [f]) := by
  obtain ⟨rfl, hrsts, hnone⟩ := h
  have hsome : taken ++ [f] ≠ [] := by simp
  have hanswer : ∀ code : MuxStatus, Ok false (.unknown id conf window auto
      (if i.allocs.headD true then egress ++ [Session.ctrlFrame id flagRst code.code.toNat] else egress))
      sent (taken ++ [f]) := by
    intro code
    refine ⟨rfl, fun g hg => ?_, fun h => absurd h hsome⟩
    split at hg
    case isFalse => exact hrsts g hg
    rw [← List.append_assoc] at hg
    rcases List.mem_append.mp hg with hg | hg
    · exact hrsts g hg
    · rw [List.mem_singleton.mp hg]
      exact Stream.isRst_ctrlFrame id code
  unfold StreamSide.dispatchNoStream
  dsimp only
  split
  · exact ⟨rfl, hrsts, fun h => absurd h hsome⟩
  next hrst =>
  split
  next hsyn =>
    obtain ⟨rfl, hopens⟩ := he.opens hsent (Bool.eq_false_iff.mpr hrst) hsyn
    obtain ⟨rfl, rfl⟩ := List.append_eq_nil_iff.mp (hnone rfl)
    have hflags : hasFlag f.flags (~~~ (flagSyn ||| flagPush)) = false ∧
        ¬ (hasFlag f.flags flagPush = true ∧ defaultSendWindow < f.payload.length) := by
      rcases hopens with ⟨hflags, hnil⟩ | ⟨hflags, hlen⟩
      · rw [hflags, hnil]
        decide
      · rw [hflags]
        exact ⟨by decide, fun h => absurd h.2 (Nat.not_lt.mpr hlen)⟩
    rw [if_neg (Bool.eq_false_iff.mp hflags.1), if_neg hflags.2]
    split
    · exact hanswer _
    next calls keeps _ => exact accept_party id conf window auto i calls keeps hopens (he.room hsent htaken)
  split
  · exact ⟨rfl, hrsts, fun h => absurd h hsome⟩
  · exact hanswer _

theorem keeps : Duplex.Keeps machine Ok where
  act _ _ _ _ e h := h.act e
  take p side sent taken side' sent' taken' i f rest h h' hsent htaken := by
    have he := h'.exports
    show Ok p (side.take i f).1 (sent ++ (side.take i f).2) (taken ++ [f])
    cases side with
    | live s =>
      obtain ⟨got, hparty⟩ := h
      obtain ⟨got', htake⟩ := Party.take (s := s.load i) hparty he hsent htaken
      exact ⟨got', (List.append_nil sent).symm ▸ htake⟩
    | unknown id conf window auto egress =>
      exact (List.append_nil sent).symm ▸ h.dispatchNoStream he hsent htaken i
    | sessionReset => exact h.elim

end StreamSide

abbrev PairEvent : Type := DuplexEvent (StreamEvent × StreamInputs) StreamInputs

/-- The two sides of a stream that the side `true` opens, after the events `es`. -/
def runPair (id : UInt16) (conf : Bool → StreamConf) (window : Bool → Nat) (auto : Bool → Bool)
    (es : List PairEvent) : Duplex StreamSide Frame :=
  (Duplex.new (newPair id conf window auto)).run StreamSide.machine es

section Runs

variable (id : UInt16) (conf : Bool → StreamConf) (window : Bool → Nat) (auto : Bool → Bool)
  (es : List PairEvent)

theorem newPair_ok (p : Bool) : StreamSide.Ok p (newPair id conf window auto p) [] [] := by
  cases p with
  | true =>
    have hwake := Stream.Own.of_core (Stream.wake_core (Stream.new id (conf true) (window true) (auto true) true))
    exact ⟨{}, (new_party id (conf true) (window true) (auto true)).own hwake⟩
  | false => exact ⟨rfl, nofun, fun _ => rfl⟩

theorem runPair_ok (p : Bool) : StreamSide.Ok p ((runPair id conf window auto es).party p)
    ((runPair id conf window auto es).sent p) ((runPair id conf window auto es).taken p) :=
  Duplex.invariant StreamSide.keeps (newPair_ok id conf window auto) es p

theorem runPair_taken (p : Bool) :
    (runPair id conf window auto es).taken p <+: (runPair id conf window auto es).sent (!p) :=
  ⟨_, (Duplex.Fifo.run (Duplex.Fifo.new _) es p).symm⟩

end Runs

end Multiplexd
