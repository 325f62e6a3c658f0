import Multiplexd.Stream.Pair

/-!
# What a stream guarantees to its users

The two ends of a stream, joined by FIFO channels, in any run: the bytes given to one user are a prefix of
those taken from the other one, and end-of-file comes after all of them (`runPair_bytes`); neither end sends
more than it was granted, no counter wraps, and no end is reset for want of credit (`runPair_windows`); and
where no end resets the stream of its own accord, all that is said follows the grammar and none of it is
refused (`runPair_legal`).
-/

namespace Multiplexd

open StreamCore

variable {p : Bool} {s s' : Stream} {sent taken sent' taken' rest : List Frame} {got got' t : Taken} {f : Frame}

namespace StreamSide

def delivered : StreamSide → List UInt8
  | .live s => s.delivered
  | _ => []

def accepted : StreamSide → List UInt8
  | .live s => s.accepted
  | _ => []

theorem Ok.delivered {side : StreamSide} (h : Ok p side sent taken) : side.delivered <+: (total taken).data := by
  cases side with
  | live s =>
    obtain ⟨got, hparty⟩ := h
    exact hparty.books.delivered.trans hparty.data
  | unknown | sessionReset => exact List.nil_prefix

theorem Ok.accepted {side : StreamSide} (h : Ok p side sent taken) : (total sent).data <+: side.accepted := by
  cases side with
  | live s =>
    obtain ⟨got, hparty⟩ := h
    exact (total_mono (List.prefix_append sent s.egress)).1.trans hparty.books.accepted
  | unknown _ _ _ _ egress =>
    rw [(total_of_rst fun f hf => h.2.1 f (List.mem_append_left egress hf)).1]
    exact List.nil_prefix
  | sessionReset => exact h.elim

end StreamSide

/-- After the FIN come grants only. -/
theorem phase_after_fin {opener : Bool} {fs gs : List Frame} {ph : Phase} (hfs : phase opener fs = some .finished)
    (h : phase opener (fs ++ gs) = some ph) : ph = .finished ∧ (total gs).data = [] := by
  induction gs using List.reverseRecOn generalizing ph with
  | nil =>
    rw [List.append_nil, hfs] at h
    exact ⟨(Option.some.inj h).symm, rfl⟩
  | append_singleton gs f ih =>
    rw [← List.append_assoc] at h
    obtain ⟨hack, hph⟩ := isAck_of_finished h fun ph' hph' => (ih hph').1
    obtain ⟨ph', hph'⟩ := Option.isSome_iff_exists.mp (phase_isSome_of_append (Option.isSome_of_eq_some h))
    have hdata : f.taken.data = [] := by
      rw [Frame.taken, if_neg (Bool.eq_false_iff.mp (isAck_flags hack).1)]
      exact hack.2
    rw [total_append, total_single, Taken.append, hdata, (ih hph').2]
    exact ⟨hph, rfl⟩

theorem Party.eof (h : Party p s.core sent taken got) (h' : Party (!p) s'.core sent' taken' got')
    (htaken : taken <+: sent') (hn : ¬ s.core.Over) (hn' : ¬ s'.core.Over) (heof : s.eofSeen = true) :
    s.delivered = s'.accepted ∧ s'.rxEof = true := by
  obtain ⟨hheard, hbuf⟩ := (h.books.live hn).eof heof
  obtain ⟨rest, rfl⟩ := htaken
  have hsaid := h'.talks.said hn'
  rw [List.append_assoc] at hsaid
  obtain ⟨ph, hph⟩ := Option.isSome_iff_exists.mp (phase_isSome_of_append (Option.isSome_of_eq_some hsaid))
  obtain ⟨hwhole, hphase⟩ := h.whole hn
  rw [hphase ph hph, hheard] at hph
  obtain ⟨hfinished, hrest⟩ := phase_after_fin hph hsaid
  obtain ⟨hrx, hqueue⟩ := (h'.books.live hn').drained hfinished
  have hpending : _ = s'.accepted := (h'.books.live hn').pending
  have hbuffered := (h.books.live hn).buffered
  rw [hbuf, List.append_nil, hwhole] at hbuffered
  rw [hqueue, out, List.append_assoc, total_append, Taken.append, hrest] at hpending
  exact ⟨hbuffered.trans (by simpa [chunkBytes] using hpending), hrx⟩

def transfer : List PairEvent :=
  [.act true (.call .ioStart, {}), .act true (.call (.send [1, 2, 3]), {}), .act true (.call .shutdown, {}),
    .act true (.turn false, {}), .act true (.drainLp, {}), .act true (.transmit 1, {}),
    .deliver false { verdict := .ask [.ioStart] true }, .act false (.transmit 1, {}), .deliver true {},
    .act true (.turn false, {}), .act true (.transmit 2, {}), .deliver false {}, .deliver false {},
    .act false (.call (.recv 2), {}), .act false (.call (.recv 2), {}), .act false (.call (.recv 2), {})]

def plainPair (es : List PairEvent) : Duplex StreamSide Frame :=
  runPair 1 (fun _ => StreamLife.plainConf) (fun _ => 4) (fun _ => false) es

section Runs

variable (id : UInt16) (conf : Bool → StreamConf) (window : Bool → Nat) (auto : Bool → Bool)
  (es : List PairEvent)

/-- What the user of one side has been given is a prefix of what was taken from the user of the other one.
An end that was not reset shows end-of-file to its user when all of it has been given, and the other user
has said that there is no more. -/
theorem runPair_bytes (p : Bool) :
    ((runPair id conf window auto es).party p).delivered <+: ((runPair id conf window auto es).party (!p)).accepted ∧
      ∀ s s', (runPair id conf window auto es).party p = .live s → (runPair id conf window auto es).party (!p) = .live s' →
        ¬ s.core.Over → ¬ s'.core.Over → s.eofSeen = true → s.delivered = s'.accepted ∧ s'.rxEof = true := by
  have hok := runPair_ok id conf window auto es p
  have hok' := runPair_ok id conf window auto es (!p)
  have htaken := runPair_taken id conf window auto es p
  refine ⟨hok.delivered.trans ((total_mono htaken).1.trans hok'.accepted), fun s s' hs hs' hn hn' heof => ?_⟩
  rw [hs] at hok
  rw [hs'] at hok'
  obtain ⟨got, hparty⟩ := hok
  obtain ⟨got', hparty'⟩ := hok'
  exact hparty.eof hparty' htaken hn hn' heof

/-- No end is reset for want of credit, or sends more than it was granted. Until it is closed, the credit
that it has left and the credit that the peer has left are what the unbounded numbers say, and the latter
fits the receive window together with the bytes that wait for the user. -/
theorem runPair_windows (p : Bool) {s : Stream} (hs : (runPair id conf window auto es).party p = .live s) :
    let sent := (runPair id conf window auto es).sent p
    let taken := (runPair id conf window auto es).taken p
    .flowControlError ∉ s.abortCodes ∧
      (total sent).data.length ≤ defaultSendWindow + (total taken).credit ∧
      (s.state ≠ .closed →
        s.creditAvail + (total (sent ++ s.egress)).data.length = defaultSendWindow + (total taken).credit ∧
        s.core.outstanding + (total taken).data.length = defaultSendWindow + (total (sent ++ s.egress)).credit ∧
        s.bufferedBytes.toNat = s.recvbuf.length ∧
        s.bufferedBytes.toNat + s.core.outstanding ≤ s.recvWindow.toNat) := by
  have hok := runPair_ok id conf window auto es p
  rw [hs] at hok
  obtain ⟨got, hparty⟩ := hok
  refine ⟨hparty.books.codes, hparty.exports.data, fun hst => ?_⟩
  have hlive := hparty.books.live (hparty.talks.intact.not_over hst)
  have hcredit : s.creditAvail = _ := hlive.creditAvail
  have houtstanding := hlive.outstanding
  have hspent := hlive.spent
  have hreceived := hlive.received
  have hfits : _ + s.bufferedBytes.toNat ≤ _ + s.recvWindow.toNat := hlive.fits
  obtain ⟨rfl, -⟩ := hparty.exact hst
  rw [hcredit, houtstanding]
  refine ⟨Nat.sub_add_cancel hspent, Nat.sub_add_cancel hreceived, hlive.counted, ?_⟩
  omega

theorem plainPair_windows : ∃ s, (plainPair transfer).party true = .live s ∧ s.state ≠ .closed ∧
    s.creditAvail + (total ((plainPair transfer).sent true ++ s.egress)).data.length =
      defaultSendWindow + (total ((plainPair transfer).taken true)).credit :=
  have hlive := runPair_windows 1 (fun _ => StreamLife.plainConf) (fun _ => 4) (fun _ => false) transfer true rfl
  ⟨_, rfl, by decide, (hlive.2.2 (by decide)).1⟩

/-- As long as neither side has removed the stream from its table, no frame of it makes a side reset the
session: every SYN that an end sends is one that the other side accepts or refuses with an RST. -/
theorem runPair_session (p : Bool) : (runPair id conf window auto es).party p ≠ .sessionReset := by
  intro hreset
  have hok := runPair_ok id conf window auto es p
  rw [hreset] at hok
  exact hok

end Runs

namespace StreamSide

def Calm : StreamSide → List Frame → Prop
  | .live s, _ => s.aborted = false
  | .unknown .., taken => taken = []
  | .sessionReset, _ => True

instance (side : StreamSide) (taken : List Frame) : Decidable (side.Calm taken) :=
  match side with
  | .live s => inferInstanceAs (Decidable (s.aborted = false))
  | .unknown .. => inferInstanceAs (Decidable (taken = []))
  | .sessionReset => isTrue trivial

end StreamSide

theorem Party.not_over (h : Party p s.core sent taken got) (hcalm : s.aborted = false)
    (hlegal : (phase (!p) taken).isSome) : ¬ s.core.Over := by
  rintro (ha | hr)
  · exact absurd (hcalm.symm.trans ha) (by decide)
  · simp [h.reset hr] at hlegal

theorem StreamSide.Ok.legal {side : StreamSide} (h : Ok p side sent taken) (hcalm : side.Calm taken)
    (htaken : taken <+: sent') (hlegal : (phase (!p) sent').isSome) : (phase p sent).isSome := by
  obtain ⟨rest, rfl⟩ := htaken
  cases side with
  | live s =>
    obtain ⟨got, hparty⟩ := h
    have hsaid := hparty.talks.said (hparty.not_over hcalm (phase_isSome_of_append hlegal))
    exact phase_isSome_of_append (Option.isSome_of_eq_some hsaid)
  | unknown =>
    rw [(List.append_eq_nil_iff.mp (h.2.2 hcalm)).1]
    rfl
  | sessionReset => exact h.elim

/-- What the side `p` has said and heard is what its state says: a SYN or SYN|ACK, payload, grants and at
most one FIN, after which there are grants only. The states of the two ends match when nothing is under
way. -/
def Legal (d : Duplex StreamSide Frame) (p : Bool) : Prop :=
  match d.party p with
  | .live s =>
    s.rstReceived = false ∧ phase p (d.sent p ++ s.egress) = some s.state.said ∧
      phase (!p) (d.taken p) = some s.state.heard ∧
      ∀ s', d.party (!p) = .live s' → d.queue p = [] → s'.egress = [] → s.state.heard = s'.state.said
  | .unknown _ _ _ _ egress => d.sent p ++ egress = []
  | .sessionReset => False

/-- Where no side resets or refuses the stream, no frame is refused, and none but legal frames are sent. -/
theorem runPair_legal (id : UInt16) (conf : Bool → StreamConf) (window : Bool → Nat) (auto : Bool → Bool)
    (es : List PairEvent)
    (hcalm : ∀ es₀ ∈ es.inits, ∀ p,
      ((runPair id conf window auto es₀).party p).Calm ((runPair id conf window auto es₀).taken p)) (p : Bool) :
    Legal (runPair id conf window auto es) p := by
  have hok := runPair_ok id conf window auto es
  have hlegal : ∀ p, (phase p ((runPair id conf window auto es).sent p)).isSome :=
    Duplex.legal_run (fun p fs => (phase p fs).isSome) StreamSide.keeps (newPair_ok id conf window auto) (fun _ => rfl)
      (fun _ _ _ _ _ h hcalm htaken hlegal => h.legal hcalm htaken hlegal) es hcalm
  have hcalm := hcalm es ((List.mem_inits es es).mpr (List.prefix_refl es))
  have hfifo : Duplex.Fifo (runPair id conf window auto es) := Duplex.Fifo.run (Duplex.Fifo.new _) es
  generalize runPair id conf window auto es = d at *
  have hheard : ∀ p, (phase (!p) (d.taken p)).isSome := fun p => phase_isSome_of_append (hfifo p ▸ hlegal (!p))
  have hmine := hok p
  have hquiet := hcalm p
  unfold Legal
  cases hside : d.party p with
  | live s =>
    rw [hside] at hmine hquiet
    obtain ⟨got, hparty⟩ := hmine
    have hn := hparty.not_over hquiet (hheard p)
    obtain ⟨ph, hph⟩ := Option.isSome_iff_exists.mp (hheard p)
    have hph' : ph = s.state.heard := (hparty.whole hn).2 ph hph
    refine ⟨Bool.eq_false_iff.mpr fun hr => hn (.inr hr), hparty.talks.said hn, hph' ▸ hph,
      fun s' hs' hqueue hegress => ?_⟩
    have hpeer := hok (!p)
    have hquiet' := hcalm (!p)
    rw [hs'] at hpeer hquiet'
    obtain ⟨got', hparty'⟩ := hpeer
    have hsaid : phase (!p) (d.sent (!p) ++ s'.egress) = some s'.state.said :=
      hparty'.talks.said (hparty'.not_over hquiet' (hheard (!p)))
    rw [hfifo p, hqueue, hegress, List.append_nil, List.append_nil, hph, hph'] at hsaid
    exact Option.some.inj hsaid
  | unknown _ _ _ _ egress =>
    rw [hside] at hmine hquiet
    exact hmine.2.2 hquiet
  | sessionReset =>
    rw [hside] at hmine
    exact hmine

theorem plainPair_legal : (∀ es ∈ transfer.inits, ∀ p, ((plainPair es).party p).Calm ((plainPair es).taken p)) ∧
    Legal (plainPair transfer) false :=
  have hcalm : ∀ es ∈ transfer.inits, ∀ p, ((plainPair es).party p).Calm ((plainPair es).taken p) := by decide
  ⟨hcalm, runPair_legal 1 (fun _ => StreamLife.plainConf) (fun _ => 4) (fun _ => false) transfer hcalm false⟩

end Multiplexd
