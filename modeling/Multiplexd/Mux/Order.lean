import Multiplexd.Mux.Tally

/-!
# In which order frames are written

When no stream adds to the send buffer of a session that is still dialing or shaking hands, the first
frame on every transport is the hello of this side, it is the only hello, nothing else is written before
the session is established, and the frames of streams are written once, in the order of the log.

`Order` is the invariant of such runs. It is kept by every elementary step (`Micro.order`).
-/

namespace Multiplexd

open Session

variable [HelloCodec]

/-- A hello of this side. -/
def OwnHello (own : Option Hello) (i : Item) : Prop := ∃ h ∈ own, i.frame = helloFrame h

def Opening (own : Option Hello) (out : List UInt8) : List Item → Prop
  | [] => out = [] ∨ ∃ h ∈ own, out <+: (helloFrame h).encode
  | first :: others => OwnHello own first ∧ ∀ i ∈ others, i.isHello = false

inductive Led (own : Option Hello) : List Item → List MuxFrame → Bool → Prop
  | writing {f : MuxFrame} {rest : List MuxFrame} {staging : Bool} {hello : Item}
      (hown : OwnHello own hello) (hitems : f.items = [hello]) (hcopy : f.isCopy = false)
      (hstaging : staging = true → rest ≠ []) (hrest : AllItems (fun i => i.isHello = false) rest) :
      Led own [] (f :: rest) staging
  | written {hello : Item} {others : List Item} {sendbuf : List MuxFrame} {staging : Bool}
      (hown : OwnHello own hello) (hothers : ∀ i ∈ others, i.isHello = false)
      (hbuf : AllItems (fun i => i.isHello = false) sendbuf) : Led own (hello :: others) sendbuf staging

def Lead (state : SessionState) (accepted : Bool) (own : Option Hello) (sent : List Item) (sendbuf : List MuxFrame)
    (staging : Bool) : Prop :=
  match state with
  | .connect => sent = [] ∧ sendbuf = []
  | .handshake =>
    if accepted then sent = [] ∧ sendbuf = []
    else Led own sent sendbuf staging ∧ sent.length + sendbuf.length = 1
  | .established => Led own sent sendbuf staging
  | _ => AllItems (fun i => i.isHello = false) sendbuf

/-- What has been written so far. -/
structure Past (accepted : Bool) (own : Option Hello) (births : Nat) (early : List Item) (out : List UInt8)
    (sent : List Item) : Prop where
  server : ∀ h ∈ own, h.server = accepted
  early : early = []
  once : ∀ b, tally b sent ≤ 1
  spent : ∀ b, tally b (sent.filter fun i => !i.tracked) ≤ if b < births then 1 else 0
  opening : Opening own out sent

def Session.stock (ss : Session) (b : Nat) : Nat :=
  tally b (ss.sent.filter fun i => !i.tracked) + tally b ss.logged + tally b (queued ss.sendbuf) +
    tally b (held ss.oobbuf) + tally b (held ss.dgrambuf)

structure Order (ss : Session) : Prop where
  past : Past ss.accepted ss.ownHello ss.births ss.early ss.out ss.sent
  stock : ∀ b, ss.stock b ≤ if b < ss.births then 1 else 0
  oob : AllItems (fun i => i.isHello = false) ss.oobbuf
  dgram : AllItems (fun i => i.isHello = false ∧ i.tracked = false) ss.dgrambuf
  lead : Lead ss.state ss.accepted ss.ownHello ss.sent ss.sendbuf ss.sendbufStaging
  /-- nothing overtakes a replay -/
  aside : ss.retransmitOff.isSome → ∀ f ∈ ss.sendbuf, f.isCopy = false → ∀ i ∈ f.items, i.tracked = false
  rest : ss.state = .suspended → ss.retransmitOff = none → ss.ring = []
  /-- the frames of streams that were written are cut off the head -/
  cut : ∀ f ∈ ss.sendbuf.head?, ∀ i ∈ f.complete, i.tracked = false
  inOrder : ss.state = .established →
    ss.sent.filter Item.tracked <:+ ss.logged.take (ss.acked + ss.resent)

variable {accepted : Bool} {own : Option Hello}

theorem OwnHello.isHello {i : Item} (h : OwnHello own i) : i.isHello = true := by
  obtain ⟨hello, -, heq⟩ := h
  simp [Item.isHello, heq, helloFrame]

theorem OwnHello.tracked {i : Item} (h : OwnHello own i) : i.tracked = false := by
  obtain ⟨hello, -, heq⟩ := h
  simp [Item.tracked, heq, helloFrame, streamIdCtrl]

omit [HelloCodec] in
theorem births_succ {births b : Nat} :
    (if b < births then 1 else 0) + (if births = b then 1 else 0) = if b < births + 1 then 1 else 0 := by
  split <;> split <;> split <;> omega

namespace Past

variable {accepted : Bool} {births : Nat} {early : List Item} {out : List UInt8} {sent : List Item}

theorem mono (h : Past accepted own births early out sent) : Past accepted own (births + 1) early out sent :=
  { h with
    spent := fun b => by
      have := h.spent b
      rw [← births_succ]
      omega }

/-- A new transport. -/
theorem fresh (h : Past accepted own births early out sent) : Past accepted own births early [] [] where
  __ := h
  once _ := Nat.zero_le _
  spent _ := Nat.zero_le _
  opening := .inl rfl

end Past

namespace Order

variable {ss ss' : Session}

/-- A session without frames. -/
theorem closedForm (h : Past ss.accepted ss.ownHello ss.births ss.early ss.out ss.sent) : Order ss.closedForm where
  past := h
  stock := h.spent
  oob := .nil
  dgram := .nil
  lead := show AllItems _ [] from .nil
  aside := by simp [Session.closedForm, cleanup, unackedFreeAll]
  rest := by simp [Session.closedForm]
  cut := by simp [Session.closedForm, cleanup, discardBuffers, unackedFreeAll]
  inOrder := by simp [Session.closedForm]

theorem closedTo (h : ss.ClosedTo ss') (hpast : Past ss.accepted ss.ownHello ss.births ss.early ss.out ss.sent) :
    Order ss' := by
  obtain ⟨_, _, _, rfl⟩ := h
  have := closedForm hpast
  exact { this with }

end Order

section Pushed

variable {sendbuf sendbuf' oobbuf dgrambuf : List MuxFrame} {staging staging' : Bool} {f : MuxFrame}

variable {accepted : Bool} {sent : List Item}

theorem Led.pushed (h : Led own sent sendbuf staging)
    (hp : Pushed sendbuf staging f sendbuf' staging') (hf : ∀ i ∈ f.items, i.isHello = false) :
    Led own sent sendbuf' staging' := by
  cases h with
  | @writing head rest _ hello hown hitems hcopy hstaging hrest =>
    cases hp with
    | append => exact .writing hown hitems hcopy (by simp) (hrest.append (f := { f with pos := 0 }) hf)
    | pack tail hs htail =>
      obtain ⟨r, rs, rfl⟩ := List.exists_cons_of_ne_nil (hstaging hs)
      rw [List.getLast?_cons_cons] at htail
      have hpack : Pushed (r :: rs) staging f _ _ := .pack tail hs htail
      rw [List.dropLast_cons_cons, List.cons_append]
      exact .writing hown hitems hcopy (by simp) (hrest.pushed hpack hf)
  | written hown hothers hbuf => exact .written hown hothers (hbuf.pushed hp hf)

theorem Lead.pushed {state : SessionState}
    (h : Lead state accepted own sent sendbuf staging) (hst : state ≠ .connect ∧ state ≠ .handshake)
    (hp : Pushed sendbuf staging f sendbuf' staging') (hf : ∀ i ∈ f.items, i.isHello = false) :
    Lead state accepted own sent sendbuf' staging' := by
  cases state with
  | connect => exact absurd rfl hst.1
  | handshake => exact absurd rfl hst.2
  | established => exact Led.pushed h hp hf
  | init | suspended | closing | closeWait | closed => exact Entries.pushed (Q := fun l => ∀ i ∈ l, i.isHello = false) hp h hf

omit [HelloCodec] in
theorem Pushed.forall_entries {P : MuxFrame → Prop} (hp : Pushed sendbuf staging f sendbuf' staging')
    (h : ∀ g ∈ sendbuf, P g) (hnew : P { f with pos := 0 })
    (hpack : ∀ tail ∈ sendbuf, sendbuf.getLast? = some tail → staging = true → P tail →
      P { tail with items := tail.items ++ f.items }) : ∀ g ∈ sendbuf', P g := by
  intro g hg
  cases hp with
  | append =>
    rcases List.mem_append.mp hg with hg | hg
    · exact h g hg
    · exact List.mem_singleton.mp hg ▸ hnew
  | pack tail hs htail =>
    have hmem := List.mem_of_getLast? htail
    rcases List.mem_append.mp hg with hg | hg
    · exact h g ((List.dropLast_sublist sendbuf).subset hg)
    · rw [List.mem_singleton.mp hg]
      exact hpack tail hmem htail hs (h tail hmem)

omit [HelloCodec] in
theorem Pushed.head_complete (hp : Pushed sendbuf staging f sendbuf' staging')
    (h : BufOk sendbuf oobbuf dgrambuf staging)
    (hcut : ∀ g ∈ sendbuf.head?, ∀ i ∈ g.complete, i.tracked = false) :
    ∀ g ∈ sendbuf'.head?, ∀ i ∈ g.complete, i.tracked = false := by
  intro g hg
  cases hp with
  | append =>
    cases sendbuf with
    | nil =>
      obtain rfl := Option.some.inj hg
      simp [MuxFrame.complete_of_pos (f := { f with pos := 0 }) rfl]
    | cons head rest => exact hcut g hg
  | pack tail hs htail =>
    obtain ⟨_, hmem, hpos, -⟩ := h.staging hs
    obtain rfl := Option.some.inj (htail.symm.trans hmem)
    obtain ⟨init, rfl⟩ := List.getLast?_eq_some_iff.mp htail
    rw [List.dropLast_concat] at hg
    cases init with
    | nil =>
      obtain rfl := Option.some.inj hg
      simp [MuxFrame.complete_of_pos (f := { tail with items := tail.items ++ f.items }) hpos]
    | cons head rest => exact hcut g hg

end Pushed

namespace Order

variable {ss ss' : Session}

theorem sendbufPush {f : MuxFrame} (h : Order ss)
    (hbuf : BufOk ss.sendbuf ss.oobbuf ss.dgrambuf ss.sendbufStaging)
    (hstock : ∀ b, ss.stock b + tally b f.items ≤ if b < ss.births then 1 else 0)
    (hst : ss.state ≠ .connect ∧ ss.state ≠ .handshake) (hcopy : f.isCopy = false)
    (hf : ∀ i ∈ f.items, i.isHello = false)
    (haside : ss.retransmitOff.isSome → ∀ i ∈ f.items, i.tracked = false) : Order (ss.sendbufPush f) := by
  obtain ⟨sendbuf, staging, hp, heq⟩ := ss.sendbufPush_spec f
  rw [heq]
  exact
    { past := h.past
      stock := fun b => by
        have hqueued := hp.tally_queued hbuf hcopy b
        have := hstock b
        simp only [Session.stock] at this ⊢
        omega
      oob := h.oob
      dgram := h.dgram
      lead := h.lead.pushed hst hp hf
      aside := fun hoff => hp.forall_entries (h.aside hoff) (fun _ => haside hoff) fun tail _ _ _ htail hc i hi => by
        rcases List.mem_append.mp hi with hi | hi
        · exact htail hc i hi
        · exact haside hoff i hi
      rest := h.rest
      cut := hp.head_complete hbuf h.cut
      inOrder := h.inOrder }

/-- One more frame has been produced. -/
theorem born (h : Order ss) : Order { ss with births := ss.births + 1 } where
  __ := h
  past := h.past.mono
  stock b := by
    have := h.stock b
    rw [← births_succ]
    exact Nat.le_add_right_of_le this

omit [HelloCodec] in
theorem tally_newFrame (ss : Session) (f : Frame) (b : Nat) :
    tally b (ss.newFrame f).items = if ss.births = b then 1 else 0 := tally_singleton b _

/-- A frame is produced for the send buffer. -/
theorem push {f : Frame} (h : Order ss) (hbuf : BufOk ss.sendbuf ss.oobbuf ss.dgrambuf ss.sendbufStaging)
    (hv : f.version = protocolVersion) (hst : ss.state ≠ .connect ∧ ss.state ≠ .handshake)
    (haside : ss.retransmitOff.isSome → f.streamId = streamIdCtrl) :
    Order ({ ss with births := ss.births + 1 }.sendbufPush (ss.newFrame f)) := by
  refine h.born.sendbufPush hbuf (fun b => ?_) hst rfl (fun i hi => ?_) fun hoff i hi => ?_
  · have hstock := h.stock b
    have hnew := tally_newFrame ss f b
    show ss.stock b + _ ≤ if b < ss.births + 1 then 1 else 0
    rw [← births_succ, hnew]
    omega
  · rw [List.mem_singleton.mp hi]
    simp [Item.isHello, hv, protocolVersion]
  · rw [List.mem_singleton.mp hi]
    simp [Item.tracked, haside hoff]

end Order

section Thinned

variable {accepted copy : Bool} {sent : List Item} {id : UInt16} {fs gs : List MuxFrame}
  {staging staging' : Bool}

theorem Led.thinned (h : Led own sent fs staging) (ht : Thinned (survives id) copy fs gs)
    (hid : id ≠ streamIdCtrl)
    (hstaging : staging' = true → staging = true ∧ ∃ tail tail', fs.getLast? = some tail ∧
      gs.getLast? = some tail' ∧ ∀ i ∈ tail'.items, i ∈ tail.items) : Led own sent gs staging' := by
  cases h with
  | @writing f rest _ hello hown hitems hcopy hs hrest =>
    have hsurvives : survives id hello = true := by
      obtain ⟨h, -, heq⟩ := hown
      have : (0 : UInt16) ≠ id := fun h => hid h.symm
      simp [survives, heq, helloFrame, this]
    have hfilter : f.items.filter (survives id) = f.items := by
      rw [hitems]
      simp [hsurvives]
    -- an entry being staged is not the hello's
    have htail (gs' : List MuxFrame) (hgs : gs = f :: gs') (hs' : staging' = true) : gs' ≠ [] := by
      rintro rfl
      obtain ⟨hstag, tail, tail', htail, htail', hsub⟩ := hstaging hs'
      obtain ⟨r, rs, rfl⟩ := List.exists_cons_of_ne_nil (hs hstag)
      rw [hgs] at htail'
      obtain rfl := Option.some.inj htail'
      rw [List.getLast?_cons_cons] at htail
      have hmem := hsub hello (by simp [hitems])
      exact absurd (hown.isHello.symm.trans (hrest tail (List.mem_of_getLast? htail) hello hmem)) (by simp)
    cases ht with
    | keep _ ht' => exact .writing hown hitems hcopy (htail _ rfl) (hrest.thinned ht')
    | thin _ _ _ _ ht' =>
      have heq : { f with items := f.items.filter (survives id) } = f := by rw [hfilter]
      rw [heq] at htail ⊢
      exact .writing hown hitems hcopy (htail _ rfl) (hrest.thinned ht')
    | drop _ _ _ hnil =>
      rw [hfilter, hitems] at hnil
      cases hnil
  | written hown hothers hbuf => exact .written hown hothers (hbuf.thinned ht)

theorem Lead.thinned {state : SessionState} (h : Lead state accepted own sent fs staging)
    (ht : Thinned (survives id) copy fs gs) (hid : id ≠ streamIdCtrl)
    (hstaging : staging' = true → staging = true ∧ ∃ tail tail', fs.getLast? = some tail ∧
      gs.getLast? = some tail' ∧ ∀ i ∈ tail'.items, i ∈ tail.items) : Lead state accepted own sent gs staging' := by
  cases state with
  | connect =>
    obtain ⟨hsent, rfl⟩ := h
    cases ht
    exact ⟨hsent, rfl⟩
  | handshake =>
    unfold Lead at h ⊢
    dsimp only at h ⊢
    split at h
    next ha =>
      obtain ⟨hsent, rfl⟩ := h
      cases ht
      rw [if_pos ha]
      exact ⟨hsent, rfl⟩
    next ha =>
      rw [if_neg ha]
      obtain ⟨hled, hlen⟩ := h
      refine ⟨hled.thinned ht hid hstaging, ?_⟩
      cases hled with
      | writing hown hitems _ _ _ =>
        have hled' := Led.thinned (.writing hown hitems ‹_› ‹_› ‹_›) ht hid hstaging
        cases hled' with
        | @writing f' rest' =>
          have := ht.length_le
          simp only [List.length_cons, List.length_nil] at hlen this ⊢
          omega
      | written =>
        have := ht.length_le
        simp only [List.length_cons] at hlen ⊢
        omega
  | established => exact Led.thinned h ht hid hstaging
  | init | suspended | closing | closeWait | closed => exact Entries.thinned (Q := fun l => ∀ i ∈ l, i.isHello = false) ht h

end Thinned

namespace Order

variable {ss ss' : Session}

theorem discard {id : UInt16} (h : Order ss) (hbuf : BufOk ss.sendbuf ss.oobbuf ss.dgrambuf ss.sendbufStaging)
    (hid : id ≠ streamIdCtrl) : Order (ss.discardStreamFrames id) := by
  obtain ⟨sendbuf, staging, ht, -, hstaging, heq⟩ := ss.discardSendbuf_spec id hbuf
  unfold discardStreamFrames
  rw [heq]
  exact
    { past := h.past
      stock := fun b => by
        have hqueued := ht.tally_queued b
        have hheld := tally_held_filterMap id ss.oobbuf b
        have := h.stock b
        simp only [Session.stock] at this ⊢
        omega
      oob := h.oob.filterMap
      dgram := h.dgram
      lead := h.lead.thinned ht hid hstaging
      aside := fun hoff g hg hc i hi => by
        obtain ⟨f, hf, -, hcopy, rfl | ⟨-, hitems, -⟩⟩ := ht.mem hg
        · exact h.aside hoff g hf hc i hi
        · exact h.aside hoff f hf (hcopy.symm.trans hc) i (List.mem_filter.mp (hitems ▸ hi)).1
      rest := h.rest
      cut := fun g hg i hi => by
        rcases ht.head hbuf.rest with ⟨f, fs', gs', hfs, rfl, -⟩ | ⟨-, hpos⟩
        · exact h.cut g (by rw [hfs]; exact hg) i hi
        · rw [MuxFrame.complete_of_pos (hpos g (List.mem_of_mem_head? hg))] at hi
          cases hi
      inOrder := h.inOrder }

omit [HelloCodec] in
private theorem cut_all {sendbuf oobbuf dgrambuf : List MuxFrame} {staging : Bool}
    (hbuf : BufOk sendbuf oobbuf dgrambuf staging)
    (hcut : ∀ f ∈ sendbuf.head?, ∀ i ∈ f.complete, i.tracked = false) :
    ∀ f ∈ sendbuf, ∀ i ∈ f.complete, i.tracked = false := by
  intro f hf i hi
  cases sendbuf with
  | nil => cases hf
  | cons head rest =>
    rcases List.mem_cons.mp hf with rfl | hf
    · exact hcut f rfl i hi
    · rw [MuxFrame.complete_of_pos (hbuf.rest f hf)] at hi
      cases hi

variable {s : Session}

omit [HelloCodec] in
private theorem copy_none (h : ss.CopyInv) :
    ss.retransmitCopy = false → ∀ f ∈ ss.sendbuf, f.isCopy = false := by
  intro hc
  rwa [CopyInv, hc] at h

omit [HelloCodec] in
theorem rewindReplay_none (h : s.rewindReplay.retransmitOff = none) : s.rewindReplay.ring = [] := by
  have h : (if s.ring.isEmpty then none else some 0) = none := h
  show s.ring = []
  split at h
  next hempty => simpa using hempty
  · cases h

/-- `mux_session_suspend`, after any write. -/
theorem suspend (hpast : Past s.accepted s.ownHello s.births s.early s.out s.sent) (hcopy : s.CopyInv)
    (hbuf : BufOk s.sendbuf s.oobbuf s.dgrambuf s.sendbufStaging)
    (hcut : ∀ f ∈ s.sendbuf.head?, ∀ i ∈ f.complete, i.tracked = false)
    (hstock : ∀ b, tally b (s.sent.filter fun i => !i.tracked) + tally b s.logged +
      tally b ((queued s.sendbuf).filter Item.tracked) + tally b (held s.oobbuf) ≤
        if b < s.births then 1 else 0) : Order s.suspend := by
  rcases s.suspend_spec with ⟨events, peerKnown, ss1, ⟨entries, stalled, allocs, -, -, rfl⟩, heq⟩ | hclosed
  · rw [heq]
    exact
      { past := hpast
        stock := fun b => by
          have hsend := tally_captureItems (copy_none hcopy) (cut_all hbuf hcut) b
          have hoob := tally_captureItems_held false s.oobbuf b
          have := hstock b
          show tally b (s.sent.filter fun i => !i.tracked) + tally b (s.logged ++
            (captureItems s.retransmitCopy s.sendbuf ++ captureItems false s.oobbuf)) + 0 + 0 + 0 ≤
              if b < s.births then 1 else 0
          rw [tally_append, tally_append]
          omega
        oob := .nil
        dgram := .nil
        lead := show AllItems _ [] from .nil
        aside := fun _ f hf => absurd hf (by simp [rewindReplay, Session.setReplayOff,
          detached, discardBuffers])
        rest := fun _ => rewindReplay_none
        cut := by simp [rewindReplay, Session.setReplayOff, detached, discardBuffers]
        inOrder := fun hst => absurd hst (by simp [rewindReplay, Session.setReplayOff,
          detached]) }
  · exact closedTo hclosed hpast

/-- A suspended session is given a transport. -/
theorem attach (h : Order ss) (hb : Base ss) (hst : ss.state = .suspended)
    (hopen : ss.captureAndDiscard.state ≠ .closed) (st : SessionState)
    (hlead : Lead st ss.accepted ss.ownHello [] [] false) (hest : st = .connect ∨ st = .handshake) :
    Order { ss.captureAndDiscard with out := [], sent := [], sendBlocked := false, state := st } := by
  rcases ss.captureAndDiscard_spec (by simp [hst]) with ⟨entries, stalled, allocs, -, -, heq⟩ | hclosed
  · rw [heq]
    exact
      { past := h.past.fresh
        stock := fun b => by
          have hsend := tally_captureItems (copy_none hb.copy) (cut_all hb.buf h.cut) b
          have hle := tally_filter_le b Item.tracked (queued ss.sendbuf)
          have hoob := tally_captureItems_held ss.retransmitCopy ss.oobbuf b
          have := h.stock b
          show tally b [] + tally b (ss.logged ++ (captureItems ss.retransmitCopy ss.sendbuf ++
            captureItems ss.retransmitCopy ss.oobbuf)) + 0 + 0 + 0 ≤ if b < ss.births then 1 else 0
          simp only [Session.stock] at this
          rw [tally_append, tally_append, tally_nil]
          omega
        oob := .nil
        dgram := .nil
        lead := hlead
        aside := fun _ f hf => absurd hf (by simp [discardBuffers])
        rest := by rcases hest with rfl | rfl <;> simp
        cut := by simp [discardBuffers]
        inOrder := by rcases hest with rfl | rfl <;> simp }
  · exact absurd hclosed.state hopen

/-- While the handshake runs no frame of a stream is on the transport or queued for it. -/
theorem hello_only (h : Order ss) (hst : ss.state = .handshake) :
    (∀ f ∈ ss.sendbuf, ∀ i ∈ f.items, i.tracked = false) ∧ ss.sent.filter Item.tracked = [] := by
  have hlead := h.lead
  rw [hst] at hlead
  unfold Lead at hlead
  dsimp only at hlead
  split at hlead
  · obtain ⟨hsent, hbuf⟩ := hlead
    simp [hsent, hbuf]
  · obtain ⟨hled, hlen⟩ := hlead
    generalize ss.sent = sent at *
    generalize ss.sendbuf = sendbuf at *
    generalize ss.sendbufStaging = staging at *
    cases hled with
    | writing hown hitems =>
      simp only [List.length_nil, List.length_cons, Nat.zero_add, Nat.add_eq_right,
        List.length_eq_zero_iff] at hlen
      simp [hlen, hitems, hown.tracked]
    | @written hello others _ _ hown =>
      simp only [List.length_cons] at hlen
      have hothers : others = [] := List.length_eq_zero_iff.mp (by omega)
      have hbuf : sendbuf = [] := List.length_eq_zero_iff.mp (by omega)
      simp [hothers, hbuf, hown.tracked]

/-- The hello goes onto an empty send buffer. -/
theorem pushHello (h : Order ss) (hout : ss.out = []) (hsent : ss.sent = []) (hbuf : ss.sendbuf = [])
    (hstaging : ss.sendbufStaging = false) {server : Bool} (hserver : server = ss.accepted) (incl : Bool)
    {st : SessionState} (hst : (st = .handshake ∧ ss.accepted = false) ∨ st = .established) :
    Order ({ ss with state := st }.pushHello server incl) := by
  subst hserver
  obtain ⟨f, hitems, hpos, hcopy, hsb⟩ : ∃ f : MuxFrame, f.items = [ss.helloItem ss.accepted incl] ∧
      f.pos = 0 ∧ f.isCopy = false ∧ ({ ss with state := st }.pushHello ss.accepted incl).sendbuf = [f] := by
    refine ⟨{ items := [ss.helloItem ss.accepted incl], cap := ss.maxPayload }, rfl, rfl, rfl, ?_⟩
    rw [Session.pushHello, hbuf, List.nil_append]
    rfl
  let own := some (ss.hello ss.accepted incl)
  have hown : OwnHello own (ss.helloItem ss.accepted incl) := ⟨_, rfl, rfl⟩
  have hbirth : (ss.helloItem ss.accepted incl).birth = ss.births := rfl
  have hled : Led own [] [f] false := .writing hown hitems hcopy (by simp) .nil
  exact
    { past :=
        { h.past.mono with
          server := fun _ hown => Option.some.inj hown ▸ rfl
          opening := by
            show Opening own ss.out ss.sent
            rw [hout, hsent]
            exact .inl rfl }
      stock := fun b => by
        have := h.stock b
        rw [Session.stock, hsb]
        show tally b (ss.sent.filter fun i => !i.tracked) + tally b ss.logged + tally b (queued [f]) +
          tally b (held ss.oobbuf) + tally b (held ss.dgrambuf) ≤ if b < ss.births + 1 then 1 else 0
        simp only [Session.stock, hbuf, queued_nil, tally_nil] at this
        rw [← births_succ, queued_cons, hcopy, MuxFrame.unsent_of_pos hpos, hitems]
        simp only [Bool.false_eq_true, if_false, queued_nil, List.append_nil, tally_singleton, hbirth]
        omega
      oob := h.oob
      dgram := h.dgram
      lead := by
        rw [hsb]
        show Lead st ss.accepted own ss.sent [f] ss.sendbufStaging
        rw [hsent, hstaging]
        rcases hst with ⟨rfl, ha⟩ | rfl
        · simp only [Lead, ha, Bool.false_eq_true, if_false]
          exact ⟨hled, rfl⟩
        · exact hled
      aside := fun _ g hg _ i hi => by
        rw [hsb, List.mem_singleton] at hg
        rw [hg, hitems, List.mem_singleton] at hi
        rw [hi]
        exact hown.tracked
      rest := by
        show st = .suspended → _
        rcases hst with ⟨rfl, -⟩ | rfl <;> simp
      cut := fun g hg => by
        rw [hsb] at hg
        obtain rfl := Option.some.inj hg
        simp [MuxFrame.complete_of_pos hpos]
      inOrder := fun _ => by
        show ss.sent.filter Item.tracked <:+ _
        rw [hsent]
        exact List.nil_suffix }

/-- The replay cursor is moved. -/
theorem setReplayOff (h : Order ss) (off : Option Nat)
    (haside : off.isSome → ∀ f ∈ ss.sendbuf, f.isCopy = false → ∀ i ∈ f.items, i.tracked = false)
    (hrest : ss.state = .suspended → off = none → ss.ring = [])
    (horder : ss.state = .established → ss.sent.filter Item.tracked <:+
      ss.logged.take (ss.acked + (ss.setReplayOff off).resent)) : Order (ss.setReplayOff off) :=
  { h with aside := haside, rest := hrest, inOrder := horder }

theorem startReplay (h : Order ss) (hst : ss.state = .established)
    (hbuf : ∀ f ∈ ss.sendbuf, ∀ i ∈ f.items, i.tracked = false) (hsent : ss.sent.filter Item.tracked = []) :
    Order ss.startReplay := by
  unfold Session.startReplay
  split
  · exact h
  · have := h.setReplayOff (some 0) (fun _ f hf _ => hbuf f hf) (by simp [hst])
      (fun _ => hsent ▸ List.nil_suffix)
    exact { this with }

/-- The peer confirms frames. -/
theorem acks {count : Nat} (h : Order ss) (hacks : ss.Acks count ss')
    (haside : ss'.retransmitOff.isSome → ∀ f ∈ ss.sendbuf, f.isCopy = false → ∀ i ∈ f.items, i.tracked = false)
    (hrest : ss.state = .suspended → ss'.retransmitOff = none → ss'.ring = [])
    (horder : ss.state = .established → ss'.resent + count = ss.resent) : Order ss' := by
  obtain ⟨⟨ring, frames, bytes, partialOffset, off, retransmitted, copyCount, copySent, stalled, rfl⟩, -⟩ := hacks
  refine { h with aside := haside, rest := hrest, inOrder := fun hst => ?_ }
  have hin := h.inOrder hst
  rw [← horder hst, Nat.add_comm _ count, ← Nat.add_assoc] at hin
  exact hin

/-! ### Writing -/

section Write

variable {frame : MuxFrame} {rest : List MuxFrame} (h : Order ss) (hb : Base ss)
  (hst : ss.state = .handshake ∨ ss.state = .established) (hbuf : ss.sendbuf = frame :: rest)
include h hb hst hbuf

omit hb in
theorem led : Led ss.ownHello ss.sent (frame :: rest) ss.sendbufStaging := by
  have hlead := h.lead
  rw [hbuf] at hlead
  rcases hst with hst | hst
  · rw [hst] at hlead
    unfold Lead at hlead
    dsimp only at hlead
    split at hlead
    · simp at hlead
    · exact hlead.1
  · rw [hst] at hlead
    exact hlead

omit hb hbuf in
theorem tracked_sent_le (b : Nat) :
    tally b (ss.sent.filter Item.tracked) ≤ tally b (ss.logged.take (ss.acked + ss.resent)) := by
  rcases hst with hst | hst
  · rw [(h.hello_only hst).2]
    exact Nat.zero_le _
  · exact tally_sublist (h.inOrder hst).sublist b

omit h hst in
theorem head_not_copy (hcopy : ss.retransmitCopy = false) : frame.isCopy = false :=
  hb.no_copies hcopy frame (by simp [hbuf])

omit hst in
theorem copy_complete (hcopy : ss.retransmitCopy = true) : frame.complete = [] := by
  obtain ⟨_, _, _, _, _, _, _, _, htracked, _⟩ := hb.copy_head hbuf hcopy
  refine List.eq_nil_iff_forall_not_mem.mpr fun i hi => ?_
  have huntracked := h.cut frame (by simp [hbuf]) i hi
  rw [htracked i (List.mem_of_mem_take hi)] at huntracked
  cases huntracked

omit hst in
theorem copy_completed (hcopy : ss.retransmitCopy = true) (n : Nat) :
    ss.logged.take (ss.acked + ss.resent + (frame.completed n).length) =
      ss.logged.take (ss.acked + ss.resent) ++ frame.completed n ∧
    (frame.completed n).filter Item.tracked = frame.completed n ∧
    (frame.completed n).filter (fun i => !i.tracked) = [] := by
  obtain ⟨k, orig, hoff, horig, -, hitems, hcount, hlt, htracked, -⟩ := hb.copy_head hbuf hcopy
  have hall : ∀ i ∈ frame.completed n, i.tracked = true := fun i hi =>
    htracked i (frame.completed_subset n i hi)
  refine ⟨?_, List.filter_eq_self.mpr hall, List.filter_eq_nil_iff.mpr fun i hi => by simp [hall i hi]⟩
  have hstart : frame.completed n = frame.items.take (frame.completed n).length := by
    have hsplit := (frame.moved n).complete_append_unsent
    rw [← frame.complete_append_completed n, h.copy_complete hb hbuf hcopy, List.nil_append] at hsplit
    have hmoved : (frame.moved n).items = frame.items := rfl
    rw [← hmoved, ← hsplit, List.take_left]
  have hlen : ss.retransmitCopySent + (frame.completed n).length ≤ orig.unackedCount := by
    have hle : (frame.completed n).length ≤ frame.items.length := by
      rw [hstart, List.length_take]
      omega
    rw [hitems, List.length_drop,
      MuxFrame.live_length (hb.log.le orig (List.mem_of_getElem? horig))] at hle
    omega
  have hresent : ss.resent = ss.retransmittedFrames + ss.retransmitCopySent := by
    simp [resent, replayBound, hoff, hcopy]
  rw [hresent, LogOk.take_replayed hb.log hoff horig hlen, ← hitems, ← hstart]

/-- What a write completes was in one place only. -/
theorem completed_le (n b : Nat) :
    tally b ss.sent + tally b (frame.completed n) ≤ 1 ∧
    tally b (ss.sent.filter fun i => !i.tracked) + tally b ((frame.completed n).filter fun i => !i.tracked) +
      tally b ss.logged + tally b ((queued ss.sendbuf).filter Item.tracked) + tally b (held ss.oobbuf) ≤
        if b < ss.births then 1 else 0 := by
  have hstock := h.stock b
  have hone : (if b < ss.births then 1 else 0) ≤ 1 := by split <;> omega
  have htracked := h.tracked_sent_le hst b
  have hsent := tally_filter_add b Item.tracked ss.sent
  have hlogged := tally_sublist (List.take_sublist (ss.acked + ss.resent) ss.logged) b
  simp only [Session.stock, hbuf, queued_cons, tally_append, List.filter_append] at hstock ⊢
  have hrest := tally_filter_le b Item.tracked (queued rest)
  cases hcopy : ss.retransmitCopy with
  | false =>
    have hunsent := tally_sublist (frame.completed_sublist n) b
    have hsplit := tally_filter_add b Item.tracked frame.unsent
    have hun : tally b ((frame.completed n).filter fun i => !i.tracked) ≤
        tally b (frame.unsent.filter fun i => !i.tracked) :=
      tally_sublist ((frame.completed_sublist n).filter _) b
    simp only [head_not_copy hb hbuf hcopy, Bool.false_eq_true, if_false] at hstock ⊢
    omega
  | true =>
    obtain ⟨htake, -, hnil⟩ := h.copy_completed hb hbuf hcopy n
    obtain ⟨_, _, _, _, hc, _⟩ := hb.copy_head hbuf hcopy
    have hle := tally_sublist (List.take_sublist (ss.acked + ss.resent + (frame.completed n).length)
      ss.logged) b
    rw [htake, tally_append] at hle
    simp only [hc, if_true, tally_nil, List.filter_nil, hnil] at hstock ⊢
    omega

omit h in
theorem hello_completed {hello : Item} (hitems : frame.items = [hello]) (n : Nat) :
    (frame.completed n = [] ∧ (frame.moved n).unsent = [hello] ∧ (frame.moved n).complete = [] ∧
        (ss.handOver frame n).out <+: itemBytes ss.sent ++ hello.frame.encode) ∨
      (frame.completed n = [hello] ∧ frame.len ≤ frame.pos + n) := by
  have hpos := hb.buf.head frame (by simp [hbuf])
  have hsize : frame.len = (frameCode.encode hello.frame).length := by
    simp [MuxFrame.len, MuxFrame.bytes, hitems, itemBytes]
  have hbefore : wholeItems frame.items frame.pos = 0 := by
    rw [wholeItems, hitems]
    exact frameCode.whole_cons_of_lt (hsize ▸ hpos)
  by_cases hlen : frame.len ≤ frame.pos + n
  · refine .inr ⟨?_, hlen⟩
    have hafter : wholeItems frame.items (frame.pos + n) = 1 := by
      rw [wholeItems, hitems]
      exact frameCode.whole_cons_of_le (hsize ▸ hlen)
    rw [MuxFrame.completed, hbefore, hafter, hitems]
    rfl
  · have hafter : wholeItems frame.items (frame.pos + n) = 0 := by
      rw [wholeItems, hitems]
      exact frameCode.whole_cons_of_lt (hsize ▸ Nat.lt_of_not_le hlen)
    have hcompleted : frame.completed n = [] := by simp [MuxFrame.completed, hafter]
    have hmoved : wholeItems (frame.moved n).items (frame.moved n).pos = 0 := hafter
    refine .inl ⟨hcompleted, ?_, by simp [MuxFrame.complete, hmoved], ?_⟩
    · rw [MuxFrame.unsent, hmoved, List.drop_zero]
      exact hitems
    · have hattached : ss.state.attached := by rcases hst with h | h <;> simp [h, SessionState.attached]
      have hwhole : frameCode.whole [hello.frame] (frame.pos + n) = 0 := by
        simpa [wholeItems, hitems] using hafter
      rw [hb.handOver_out hattached hbuf n, handOver_sent, hcompleted, List.append_nil,
        List.prefix_append_right_inj, hitems]
      simp only [List.map_cons, List.map_nil, SelfDelimiting.torn, hwhole, List.drop_zero]
      simp only [SelfDelimiting.encodeAll_cons, SelfDelimiting.encodeAll_nil, List.append_nil,
        frameCode_encode]
      exact List.take_prefix _ _

omit hb in
theorem hello_head (hhand : ss.state = .handshake) :
    ss.sent = [] ∧ rest = [] ∧ ∃ hello, OwnHello ss.ownHello hello ∧ frame.items = [hello] := by
  have hlead := h.lead
  have hled := h.led hst hbuf
  rw [hhand, hbuf] at hlead
  unfold Lead at hlead
  dsimp only at hlead
  split at hlead
  · simp at hlead
  · have hlen := hlead.2
    simp only [List.length_cons] at hlen
    have hsent : ss.sent = [] := List.length_eq_zero_iff.mp (by omega)
    have hrest : rest = [] := List.length_eq_zero_iff.mp (by omega)
    rw [hsent] at hled
    cases hled with
    | writing hown hitems => exact ⟨hsent, hrest, _, hown, hitems⟩

theorem handOver_past (n : Nat) :
    Past ss.accepted ss.ownHello ss.births (ss.handOver frame n).early (ss.handOver frame n).out
      (ss.handOver frame n).sent where
  server := h.past.server
  early := by
    show (if ss.state = .established then ss.early else ss.early ++ _) = []
    rw [h.past.early]
    rcases hst with hst | hst
    · rw [if_neg (by simp [hst]), List.nil_append, List.filter_eq_nil_iff]
      intro i hi
      have hmem : i ∈ frame.items := by
        split at hi
        · cases hi
        · exact List.mem_of_mem_drop hi
      obtain ⟨-, -, hello, hown, hitems⟩ := h.hello_head (.inl hst) hbuf hst
      rw [hitems, List.mem_singleton] at hmem
      simp [hmem, hown.isHello]
    · rw [if_pos hst]
  once b := by
    rw [handOver_sent, tally_append]
    exact (h.completed_le hb hst hbuf n b).1
  spent b := by
    have := (h.completed_le hb hst hbuf n b).2
    rw [handOver_sent, List.filter_append, tally_append]
    omega
  opening := by
    have hled := h.led hst hbuf
    rw [handOver_sent]
    generalize hsent : ss.sent = sent at hled ⊢
    cases hled with
    | writing hown hitems =>
      rcases hello_completed hb hst hbuf hitems n with ⟨hnil, -, -, hstart⟩ | ⟨hcons, -⟩
      · rw [hnil]
        obtain ⟨hello, hserver, heq⟩ := hown
        rw [hsent, heq] at hstart
        exact .inr ⟨hello, hserver, hstart⟩
      · rw [hcons]
        exact ⟨hown, by simp⟩
    | written hown hothers hitems =>
      refine ⟨hown, fun i hi => ?_⟩
      rcases List.mem_append.mp hi with hi | hi
      · exact hothers i hi
      · exact hitems frame List.mem_cons_self i (frame.completed_subset n i hi)

omit hb in
theorem lead_of_led {sent' : List Item} {sendbuf' : List MuxFrame} {staging' : Bool}
    (hled : Led ss.ownHello sent' sendbuf' staging')
    (hlen : ss.state = .handshake → sent'.length + sendbuf'.length = 1) :
    Lead ss.state ss.accepted ss.ownHello sent' sendbuf' staging' := by
  rcases hst with hst | hst
  · have hlead := h.lead
    rw [hst, hbuf] at hlead
    rw [hst]
    unfold Lead at hlead ⊢
    dsimp only at hlead ⊢
    split at hlead
    · simp at hlead
    next ha =>
      rw [if_neg ha]
      exact ⟨hled, hlen hst⟩
  · rw [hst]
    exact hled

variable {n : Nat}

theorem lead_full (hlen : frame.pos + n = frame.len) (staging : Bool) :
    Lead ss.state ss.accepted ss.ownHello (ss.sent ++ frame.completed n) rest staging := by
  have hhello {hello : Item} (hitems : frame.items = [hello]) : frame.completed n = [hello] := by
    rcases hello_completed hb hst hbuf hitems n with ⟨hnil, hunsent, -, -⟩ | ⟨hcons, -⟩
    · have := frame.completed_append_unsent n
      rw [MuxFrame.completed_of_full hlen, hunsent] at this
      simp at this
    · exact hcons
  refine h.lead_of_led hst hbuf ?_ fun hhand => ?_
  · have hled := h.led hst hbuf
    generalize ss.sent = sent at hled
    cases hled with
    | writing hown hitems _ _ hrest =>
      rw [hhello hitems]
      exact .written hown (by simp) hrest
    | written hown hothers hitems =>
      refine .written hown (fun i hi => ?_) fun g hg => hitems g (List.mem_cons_of_mem _ hg)
      rcases List.mem_append.mp hi with hi | hi
      · exact hothers i hi
      · exact hitems frame List.mem_cons_self i (frame.completed_subset n i hi)
  · obtain ⟨hsent, hrest, hello, -, hitems⟩ := h.hello_head hst hbuf hhand
    simp [hsent, hrest, hhello hitems]

theorem lead_part (hlen : frame.pos + n < frame.len) {head : MuxFrame} {staging : Bool}
    (hstaging : staging = true → rest ≠ []) (hcopy : head.isCopy = frame.isCopy)
    (hhead : head.items = frame.items ∨ head.items = (frame.moved n).unsent) :
    Lead ss.state ss.accepted ss.ownHello (ss.sent ++ frame.completed n) (head :: rest) staging := by
  have hhello {hello : Item} (hitems : frame.items = [hello]) :
      frame.completed n = [] ∧ head.items = [hello] := by
    rcases hello_completed hb hst hbuf hitems n with ⟨hnil, hunsent, -, -⟩ | ⟨-, hle⟩
    · exact ⟨hnil, hhead.elim (fun h => h.trans hitems) (fun h => h.trans hunsent)⟩
    · omega
  have hsubset : ∀ i ∈ head.items, i ∈ frame.items := fun i hi => by
    rcases hhead with h | h <;> rw [h] at hi
    · exact hi
    · exact List.mem_of_mem_drop hi
  refine h.lead_of_led hst hbuf ?_ fun hhand => ?_
  · have hled := h.led hst hbuf
    generalize ss.sent = sent at hled
    cases hled with
    | writing hown hitems hc _ hrest =>
      rw [(hhello hitems).1]
      exact .writing hown (hhello hitems).2 (hcopy.trans hc) hstaging hrest
    | written hown hothers hitems =>
      refine .written hown (fun i hi => ?_) (.cons (fun i hi => ?_) fun g hg =>
        hitems g (List.mem_cons_of_mem _ hg))
      · rcases List.mem_append.mp hi with hi | hi
        · exact hothers i hi
        · exact hitems frame List.mem_cons_self i (frame.completed_subset n i hi)
      · exact hitems frame List.mem_cons_self i (hsubset i hi)
  · obtain ⟨hsent, hrest, hello, -, hitems⟩ := h.hello_head hst hbuf hhand
    simp [hsent, hrest, (hhello hitems).1]

omit hb hst in
theorem tracked_complete (n : Nat) :
    (frame.moved n).complete.filter Item.tracked = (frame.completed n).filter Item.tracked := by
  rw [← frame.complete_append_completed n, List.filter_append, List.filter_eq_nil_iff.mpr, List.nil_append]
  intro i hi
  simp [h.cut frame (by simp [hbuf]) i hi]

omit hb in
theorem items_of_startsHello (hstart : frame.startsHello = true) :
    ∃ hello, OwnHello ss.ownHello hello ∧ frame.items = [hello] := by
  have hled := h.led hst hbuf
  generalize ss.sent = sent at hled
  cases hled with
  | writing hown hitems => exact ⟨_, hown, hitems⟩
  | written _ _ hitems =>
    have hno := hitems frame List.mem_cons_self
    unfold MuxFrame.startsHello at hstart
    split at hstart
    · cases hstart
    next first tail hcons => exact absurd hstart (by simp [hno first (by simp [hcons])])

omit hb in
/-- What is logged of a written entry is what the last write completed. -/
theorem kept_eq (hlen : frame.pos + n = frame.len) : frame.kept = (frame.completed n).filter Item.tracked := by
  have hall : frame.items.filter Item.tracked = (frame.completed n).filter Item.tracked := by
    rw [MuxFrame.completed_of_full hlen, ← frame.complete_append_unsent, List.filter_append,
      List.filter_eq_nil_iff.mpr, List.nil_append]
    intro i hi
    simp [h.cut frame (by simp [hbuf]) i hi]
  unfold MuxFrame.kept
  split
  next hstart =>
    obtain ⟨hello, hown, hitems⟩ := h.items_of_startsHello hst hbuf hstart
    rw [← hall, hitems]
    simp [hown.tracked]
  · exact hall

omit hst in
/-- The log grows by what is written. -/
theorem inOrder_logged (hcopy : ss.retransmitCopy = false) (hest : ss.state = .established) (n : Nat) :
    (ss.sent ++ frame.completed n).filter Item.tracked <:+
      (ss.logged ++ (frame.completed n).filter Item.tracked).take
        (ss.acked + match ss.retransmitOff with
          | none => ss.frames + ((frame.completed n).filter Item.tracked).length
          | some _ => ss.replayBound) := by
  have hin := h.inOrder hest
  rw [List.filter_append]
  unfold resent at hin
  cases hoff : ss.retransmitOff with
  | none =>
    rw [hoff] at hin
    have hlen := LogOk.length_eq hb.log
    simp only at hin ⊢
    rw [List.take_of_length_le (by omega)] at hin
    rw [List.take_of_length_le (by rw [List.length_append]; omega)]
    obtain ⟨before, hbefore⟩ := hin
    exact ⟨before, by rw [← List.append_assoc, hbefore]⟩
  | some k =>
    have hnil : (frame.completed n).filter Item.tracked = [] := by
      rw [List.filter_eq_nil_iff]
      intro i hi
      simp [h.aside (by simp [hoff]) frame (by simp [hbuf]) (head_not_copy hb hbuf hcopy) i
        (frame.completed_subset n i hi)]
    rw [hoff] at hin
    simpa [hnil] using hin

omit hst in
/-- The last write of a replay copy. -/
theorem retireCopy_resent (hcopy : ss.retransmitCopy = true) (hlen : frame.pos + n = frame.len)
    (staging : Bool) :
    ((ss.wrote frame n rest staging).retireCopy).resent = ss.resent + (frame.completed n).length := by
  obtain ⟨k, orig, hoff, horig, -, hitems, hcount, hlt, -⟩ := hb.copy_head hbuf hcopy
  have hlength : (frame.completed n).length = ss.retransmitCopyCount - ss.retransmitCopySent := by
    have hsplit := frame.complete_append_unsent
    rw [h.copy_complete hb hbuf hcopy, List.nil_append] at hsplit
    rw [MuxFrame.completed_of_full hlen, hsplit, hitems, List.length_drop, hcount,
      MuxFrame.live_length (hb.log.le orig (List.mem_of_getElem? horig))]
  have hoff' : ((ss.wrote frame n rest staging).retireCopy).retransmitOff = some (k + 1) := by
    show ss.retransmitOff.map (· + 1) = some (k + 1)
    rw [hoff]
    rfl
  have hbound : ((ss.wrote frame n rest staging).retireCopy).replayBound =
      ss.retransmittedFrames + ss.retransmitCopyCount := rfl
  have hbefore : ss.replayBound = ss.retransmittedFrames + ss.retransmitCopySent := by
    simp [replayBound, hcopy]
  rw [resent, hoff', resent, hoff]
  dsimp only
  rw [hbound, hbefore]
  omega

omit hst in
theorem copySent_resent (hcopy : ss.retransmitCopy = true) (n : Nat) (staging : Bool) :
    { ss.wrote frame n ((frame.moved n).cut :: rest) staging with
      retransmitCopySent := ss.retransmitCopySent + (frame.moved n).complete.length }.resent =
        ss.resent + (frame.completed n).length := by
  obtain ⟨k, orig, hoff, -⟩ := hb.copy_head hbuf hcopy
  have hcompleted : (frame.moved n).complete = frame.completed n := by
    rw [← frame.complete_append_completed n, h.copy_complete hb hbuf hcopy, List.nil_append]
  show (match ss.retransmitOff with
    | none => ss.frames
    | some _ => ss.retransmittedFrames + if ss.retransmitCopy then
        ss.retransmitCopySent + (frame.moved n).complete.length else 0) = _
  rw [resent, hoff, hcompleted]
  simp only [replayBound, hcopy, if_true]
  omega

theorem flushFull (hlen : frame.pos + n = frame.len) : Order (ss.flushFull frame rest n) := by
  have hpast := h.handOver_past hb hst hbuf n
  have hrest0 : ∀ f ∈ rest, f.pos = 0 := by
    have := hb.buf.rest
    rwa [hbuf] at this
  have haside (off : Option Nat) (hoff : off.isSome → ss.retransmitOff.isSome) :
      off.isSome → ∀ f ∈ rest, f.isCopy = false → ∀ i ∈ f.items, i.tracked = false :=
    fun hsome f hf => h.aside (hoff hsome) f (by simp [hbuf, hf])
  have hcut : ∀ f ∈ rest.head?, ∀ i ∈ f.complete, i.tracked = false := fun f hf i hi => by
    rw [MuxFrame.complete_of_pos (hrest0 f (List.mem_of_mem_head? hf))] at hi
    cases hi
  have hnsusp : ss.state ≠ .suspended := by rcases hst with h | h <;> simp [h]
  have hcompleted := MuxFrame.completed_of_full hlen
  have hstock (b : Nat) : tally b ((ss.sent ++ frame.completed n).filter fun i => !i.tracked) +
      (tally b ss.logged + if ss.retransmitCopy then 0 else tally b ((frame.completed n).filter Item.tracked)) +
        tally b (queued rest) + tally b (held ss.oobbuf) + tally b (held ss.dgrambuf) ≤
          if b < ss.births then 1 else 0 := by
    have hstock := h.stock b
    have hsplit := tally_filter_add b Item.tracked (frame.completed n)
    simp only [Session.stock, hbuf, queued_cons, tally_append] at hstock
    rw [List.filter_append, tally_append]
    cases hcopy : ss.retransmitCopy with
    | false =>
      simp only [head_not_copy hb hbuf hcopy, Bool.false_eq_true, if_false, ← hcompleted] at hstock ⊢
      omega
    | true =>
      obtain ⟨-, -, hnil⟩ := h.copy_completed hb hbuf hcopy n
      simp only [hnil, tally_nil, if_true] at hstock ⊢
      omega
  obtain ⟨staging, hstaging, ⟨hcopy, heq⟩ | ⟨hcopy, hlogs⟩ | hclosed⟩ := hb.flushFull_spec hst hbuf n
  · rw [heq]
    obtain ⟨k, orig, hoff, -⟩ := hb.copy_head hbuf hcopy
    obtain ⟨htake, htr, -⟩ := h.copy_completed hb hbuf hcopy n
    exact
      { past := hpast
        stock := fun b => by
          have := hstock b
          rw [hcopy] at this
          exact this
        oob := h.oob
        dgram := h.dgram
        lead := h.lead_full hb hst hbuf hlen staging
        aside := haside (ss.retransmitOff.map (· + 1)) (by simp [hoff])
        rest := fun hs => absurd hs hnsusp
        cut := hcut
        inOrder := fun hest => by
          have hresent := h.retireCopy_resent hb hbuf hcopy hlen staging
          show (ss.sent ++ frame.completed n).filter Item.tracked <:+ ss.logged.take (ss.acked + _)
          rw [hresent, ← Nat.add_assoc, htake, List.filter_append, htr]
          obtain ⟨before, hbefore⟩ := h.inOrder hest
          exact ⟨before, by rw [← List.append_assoc, hbefore]⟩ }
  · generalize ss.flushFull frame rest n = s at *
    obtain ⟨_, _, _, -, -, rfl⟩ := hlogs
    rw [h.kept_eq hst hbuf hlen]
    exact
      { past := hpast
        stock := fun b => by
          have := hstock b
          rw [hcopy, if_neg (by simp), ← tally_append b ss.logged] at this
          exact this
        oob := h.oob
        dgram := h.dgram
        lead := h.lead_full hb hst hbuf hlen staging
        aside := haside ss.retransmitOff fun h => h
        rest := fun hs => absurd hs hnsusp
        cut := hcut
        inOrder := fun hest => h.inOrder_logged hb hbuf hcopy hest n }
  · exact closedTo hclosed hpast

theorem flushPart (hlen : frame.pos + n < frame.len) : Order (ss.flushPart frame rest n) := by
  have hpast := h.handOver_past hb hst hbuf n
  have hnsusp : ss.state ≠ .suspended := by rcases hst with h | h <;> simp [h]
  have hunsent := frame.completed_append_unsent n
  have hcutitems : (frame.moved n).cut.items = (frame.moved n).unsent := rfl
  have haside (head : MuxFrame) (hc : head.isCopy = frame.isCopy) (hsub : ∀ i ∈ head.items, i ∈ frame.items) :
      ss.retransmitOff.isSome → ∀ f ∈ head :: rest, f.isCopy = false → ∀ i ∈ f.items, i.tracked = false := by
    intro hoff f hf hcopy i hi
    rcases List.mem_cons.mp hf with rfl | hf
    · exact h.aside hoff frame (by simp [hbuf]) (hc.symm.trans hcopy) i (hsub i hi)
    · exact h.aside hoff f (by simp [hbuf, hf]) hcopy i hi
  have hcutsub : ∀ i ∈ (frame.moved n).cut.items, i ∈ frame.items := fun i hi => List.mem_of_mem_drop hi
  have hcut : ∀ f ∈ ((frame.moved n).cut :: rest).head?, ∀ i ∈ f.complete, i.tracked = false := by
    intro f hf
    obtain rfl := Option.some.inj hf
    simp [MuxFrame.complete_cut]
  have hstock (head : MuxFrame) (hc : head.isCopy = frame.isCopy)
      (hu : head.unsent = (frame.moved n).unsent) (b : Nat) :
      tally b ((ss.sent ++ frame.completed n).filter fun i => !i.tracked) +
        (tally b ss.logged + if ss.retransmitCopy then 0 else tally b ((frame.completed n).filter Item.tracked)) +
          tally b (queued (head :: rest)) + tally b (held ss.oobbuf) + tally b (held ss.dgrambuf) ≤
            if b < ss.births then 1 else 0 := by
    have hstock := h.stock b
    have hsplit := tally_filter_add b Item.tracked (frame.completed n)
    have hmoved : tally b (frame.completed n) + tally b (frame.moved n).unsent = tally b frame.unsent := by
      rw [← tally_append, hunsent]
    simp only [Session.stock, hbuf, queued_cons, tally_append] at hstock
    rw [List.filter_append, tally_append, queued_cons, tally_append, hc, hu]
    cases hcopy : ss.retransmitCopy with
    | false =>
      simp only [head_not_copy hb hbuf hcopy, Bool.false_eq_true, if_false] at hstock ⊢
      omega
    | true =>
      obtain ⟨-, -, hnil⟩ := h.copy_completed hb hbuf hcopy n
      obtain ⟨_, _, _, _, hc, _⟩ := hb.copy_head hbuf hcopy
      simp only [hnil, hc, tally_nil, if_true] at hstock ⊢
      omega
  obtain ⟨staging, hstaging, ⟨heq, hcomplete⟩ | ⟨hcopy, heq⟩ | ⟨hcopy, hlogs⟩ | hclosed⟩ :=
    hb.flushPart_spec hst hbuf n
  · -- no frame of a stream was completed
    have hcomplete : ∀ i ∈ (frame.moved n).complete, i.tracked = false := by
      rcases hcomplete with hstart | hcomplete
      · obtain ⟨hello, hown, hitems⟩ := h.items_of_startsHello hst hbuf hstart
        intro i hi
        have hmem : i ∈ frame.items := List.mem_of_mem_take hi
        rw [hitems, List.mem_singleton] at hmem
        exact hmem ▸ hown.tracked
      · exact hcomplete
    have hnil : (frame.completed n).filter Item.tracked = [] := by
      rw [← h.tracked_complete hbuf n, List.filter_eq_nil_iff]
      intro i hi
      simp [hcomplete i hi]
    rw [heq]
    exact
      { past := hpast
        stock := fun b => by
          have := hstock (frame.moved n) rfl rfl b
          rw [hnil, tally_nil, ite_self, Nat.add_zero] at this
          exact this
        oob := h.oob
        dgram := h.dgram
        lead := h.lead_part hb hst hbuf hlen (fun hs => (hstaging hs).1) rfl (.inl rfl)
        aside := haside _ rfl fun _ hi => hi
        rest := fun hs => absurd hs hnsusp
        cut := fun f hf => Option.some.inj hf ▸ hcomplete
        inOrder := fun hest => by
          show (ss.sent ++ frame.completed n).filter Item.tracked <:+ _
          rw [List.filter_append, hnil, List.append_nil]
          exact h.inOrder hest }
  · rw [heq]
    obtain ⟨htake, htr, -⟩ := h.copy_completed hb hbuf hcopy n
    exact
      { past := hpast
        stock := fun b => by
          have := hstock (frame.moved n).cut rfl (frame.moved n).unsent_cut b
          rw [hcopy] at this
          exact this
        oob := h.oob
        dgram := h.dgram
        lead := h.lead_part hb hst hbuf hlen (fun hs => (hstaging hs).1) rfl (.inr rfl)
        aside := haside _ rfl hcutsub
        rest := fun hs => absurd hs hnsusp
        cut := hcut
        inOrder := fun hest => by
          have hresent := h.copySent_resent hb hbuf hcopy n staging
          show (ss.sent ++ frame.completed n).filter Item.tracked <:+ ss.logged.take (ss.acked + _)
          rw [hresent, ← Nat.add_assoc, htake, List.filter_append, htr]
          obtain ⟨before, hbefore⟩ := h.inOrder hest
          exact ⟨before, by rw [← List.append_assoc, hbefore]⟩ }
  · generalize ss.flushPart frame rest n = s at *
    obtain ⟨_, _, _, -, -, rfl⟩ := hlogs
    rw [h.tracked_complete hbuf n]
    exact
      { past := hpast
        stock := fun b => by
          have := hstock (frame.moved n).cut rfl (frame.moved n).unsent_cut b
          rw [hcopy, if_neg (by simp), ← tally_append b ss.logged] at this
          exact this
        oob := h.oob
        dgram := h.dgram
        lead := h.lead_part hb hst hbuf hlen (fun hs => (hstaging hs).1) rfl (.inr rfl)
        aside := haside _ rfl hcutsub
        rest := fun hs => absurd hs hnsusp
        cut := hcut
        inOrder := fun hest => h.inOrder_logged hb hbuf hcopy hest n }
  · exact closedTo hclosed hpast

end Write

end Order

end Multiplexd
