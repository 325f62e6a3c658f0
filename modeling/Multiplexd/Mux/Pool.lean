import Multiplexd.Mux.Flush

/-!
# Where frames come from

A frame that is queued or logged was queued or logged before, or has just been produced. `Lined` says
what holds of every entry of the send buffer and of every other frame a session holds; where entries
are packed and cut as `Queueing` allows, every step keeps it that produces only such frames. `Pool` is
the case of one property of every frame.
-/

namespace Multiplexd

open Session

variable [HelloCodec]

/-- The frames this code produces. -/
def Frame.Produced (f : Frame) : Prop :=
  (∃ h, f = helloFrame h) ∨
    f.version = protocolVersion ∧
      (f.streamId = streamIdCtrl → hasFlag f.flags flagAck = true → f.flags = flagAck ∧ f.payload = [])

variable {f : Frame} {P : Item → Prop}

theorem Frame.Produced.hello (h : f.Produced) (hversion : f.version = 0) : ∃ hello, f = helloFrame hello := by
  rcases h with h | ⟨hv, -⟩
  · exact h
  · exact absurd (hversion.symm.trans hv) (by decide)

theorem Item.tracked_of_isHello {i : Item} (h : i.frame.Produced) (hhello : i.isHello = true) :
    i.tracked = false := by
  obtain ⟨hello, heq⟩ := h.hello (by simpa [Item.isHello] using hhello)
  simp [Item.tracked, heq, helloFrame, streamIdCtrl]

theorem Item.isHello_of_tracked {i : Item} (h : i.frame.Produced) (htracked : i.tracked = true) :
    i.isHello = false := by
  by_contra hhello
  rw [Item.tracked_of_isHello h (by simpa using hhello)] at htracked
  cases htracked

theorem Frame.Produced.of_stream (hv : f.version = protocolVersion)
    (hid : f.streamId ≠ streamIdCtrl) : f.Produced :=
  .inr ⟨hv, fun h => absurd h hid⟩

theorem Frame.Produced.of_noAck (hv : f.version = protocolVersion)
    (hflags : hasFlag f.flags flagAck = false) : f.Produced :=
  .inr ⟨hv, fun _ h => absurd h (by simp [hflags])⟩

theorem Frame.Produced.ack (emit : Nat) : (ctrlFrame streamIdCtrl flagAck emit).Produced :=
  .inr ⟨rfl, fun _ _ => ⟨rfl, rfl⟩⟩

/-- What packing, cutting and logging an entry keep: `Q` holds of the frames of an entry, `P` of a
frame that joins an entry or that the log keeps. -/
class Queueing (Q : List Item → Prop) (P : outParam (Item → Prop)) : Prop where
  all {l : List Item} : (∀ i ∈ l, P i) → Q l
  pack {l l' : List Item} : Q l → (∀ i ∈ l', P i) → Q (l ++ l')
  sub {l l' : List Item} : Q l → l'.Sublist l → Q l'
  tracked {l : List Item} {i : Item} : Q l → i ∈ l → i.tracked = true → P i

instance (P : Item → Prop) : Queueing (fun l => ∀ i ∈ l, P i) P where
  all h := h
  pack h h' i hi := (List.mem_append.mp hi).elim (h i) (h' i)
  sub h hsub i hi := h i (hsub.subset hi)
  tracked h hi _ := h _ hi

def Entries (Q : List Item → Prop) (fs : List MuxFrame) : Prop := ∀ f ∈ fs, Q f.items

/-- Every frame of every entry has the property. -/
abbrev AllItems (P : Item → Prop) : List MuxFrame → Prop := Entries fun l => ∀ i ∈ l, P i

namespace Entries

variable {Q : List Item → Prop} {P : Item → Prop} {fs gs : List MuxFrame}

omit [HelloCodec]

theorem nil : Entries Q [] := by simp [Entries]

variable {f : MuxFrame} {copy : Bool}

theorem cons (hf : Q f.items) (h : Entries Q fs) : Entries Q (f :: fs) := by
  intro g hg
  rcases List.mem_cons.mp hg with rfl | hg
  · exact hf
  · exact h g hg

theorem head (h : Entries Q (f :: fs)) : Q f.items := h f List.mem_cons_self

theorem tail (h : Entries Q (f :: fs)) : Entries Q fs :=
  fun g hg => h g (List.mem_cons_of_mem _ hg)

theorem append (h : Entries Q fs) (hf : Q f.items) : Entries Q (fs ++ [f]) := by
  intro g hg
  rcases List.mem_append.mp hg with hg | hg
  · exact h g hg
  · exact List.mem_singleton.mp hg ▸ hf

theorem filterMap {id : UInt16} (h : AllItems P fs) :
    AllItems P (fs.filterMap fun f => if f.pos == 0 then discardEntry id f else some f) := by
  intro g hg i hi
  obtain ⟨f, hf, heq⟩ := List.mem_filterMap.mp hg
  split at heq
  · simp only [discardEntry] at heq
    split at heq
    · cases heq
    · obtain rfl := Option.some.inj heq
      exact h f hf i (List.mem_filter.mp hi).1
  · obtain rfl := Option.some.inj heq
    exact h f hf i hi

theorem thinned [Queueing Q P] {p : Item → Bool} (ht : Thinned p copy fs gs) (h : Entries Q fs) : Entries Q gs := by
  intro g hg
  obtain ⟨f, hf, -, -, rfl | ⟨-, hitems, -⟩⟩ := ht.mem hg
  · exact h g hf
  · rw [hitems]
    exact Queueing.sub (h f hf) List.filter_sublist

variable [Queueing Q P]

theorem pushed {staging staging' : Bool} (hp : Pushed fs staging f gs staging')
    (h : Entries Q fs) (hf : ∀ i ∈ f.items, P i) : Entries Q gs := by
  cases hp with
  | append => exact h.append (f := { f with pos := 0 }) (Queueing.all hf)
  | pack tail _ htail =>
    refine Entries.append (fun g hg => h g ((List.dropLast_sublist fs).subset hg)) ?_
    exact Queueing.pack (h tail (List.mem_of_getLast? htail)) hf

theorem captureItems (h : Entries Q fs) : ∀ i ∈ captureItems copy fs, P i := by
  intro i hi
  obtain ⟨f, hf, hif⟩ := captureItems_subset hi
  exact Queueing.tracked (h f hf) (f.kept_subset i hif) (f.kept_tracked i hif)

end Entries

structure Lined (Q : List Item → Prop) (P : Item → Prop) (ss : Session) : Prop where
  send : Entries Q ss.sendbuf
  oob : AllItems P ss.oobbuf
  dgram : AllItems P ss.dgrambuf
  logged : ∀ i ∈ ss.logged, P i

abbrev Pool (P : Item → Prop) : Session → Prop := Lined (fun l => ∀ i ∈ l, P i) P

namespace Lined

variable {Q : List Item → Prop} {P : Item → Prop} {ss ss' : Session}

omit [HelloCodec]

theorem closedForm (ss : Session) : Lined Q P ss.closedForm :=
  ⟨.nil, .nil, .nil, by simp [Session.closedForm, cleanup, unackedFreeAll]⟩

theorem closedTo (h : ss.ClosedTo ss') : Lined Q P ss' := by
  obtain ⟨_, _, _, rfl⟩ := h
  exact ⟨.nil, .nil, .nil, (closedForm (Q := Q) ss).logged⟩

variable {s : Session} {n : Nat} {frame : MuxFrame} {rest : List MuxFrame}

theorem logs {items : List Item} (h : s.Logs items ss') (hp : Lined Q P s) (hitems : ∀ i ∈ items, P i) :
    Lined Q P ss' := by
  obtain ⟨_, _, _, _, _, rfl⟩ := h
  refine { hp with logged := fun i hi => ?_ }
  rcases List.mem_append.mp hi with hi | hi
  · exact hp.logged i hi
  · exact hitems i hi

theorem acks {count : Nat} (h : ss.Acks count ss') (hp : Lined Q P ss) : Lined Q P ss' := by
  obtain ⟨⟨_, _, _, _, _, _, _, _, _, rfl⟩, -⟩ := h
  exact { hp with }

theorem ackEmitted (hp : Lined Q P ss) : Lined Q P (ss.ackEmitted n) :=
  { hp with }

theorem startReplay (hp : Lined Q P ss) : Lined Q P ss.startReplay := by
  unfold Session.startReplay
  split
  · exact hp
  · exact { hp with }

theorem resumeAckRecv {b : Bool} (hlog : s.LogInv) (h : s.resumeAckRecv n = (b, ss'))
    (hp : Lined Q P s) : Lined Q P ss' := by
  cases b with
  | true =>
    obtain ⟨count, ss1, -, hacks, -, rfl⟩ := resumeAckRecv_spec hlog h
    have := hp.acks hacks
    exact { this with }
  | false =>
    obtain ⟨count, hacks⟩ := resumeAckRecv_false hlog h
    exact hp.acks hacks

variable [Queueing Q P]

theorem suspend (hp : Lined Q P s) : Lined Q P s.suspend := by
  rcases s.suspend_spec with ⟨events, peerKnown, ss1, hlogs, heq⟩ | hclosed
  · rw [heq]
    have hp' : Lined Q P (s.detached .suspended events peerKnown) := ⟨.nil, .nil, .nil, hp.logged⟩
    have := hp'.logs hlogs fun i hi => by
      rcases List.mem_append.mp hi with hi | hi
      · exact hp.send.captureItems i hi
      · exact hp.oob.captureItems i hi
    exact { this with }
  · exact closedTo hclosed

theorem capture (hst : ss.state ≠ .closed) (hp : Lined Q P ss) : Lined Q P ss.captureAndDiscard := by
  rcases ss.captureAndDiscard_spec hst with hlogs | hclosed
  · exact logs (s := ss.discardBuffers) hlogs ⟨.nil, .nil, .nil, hp.logged⟩ fun i hi => by
      rcases List.mem_append.mp hi with hi | hi
      · exact hp.send.captureItems i hi
      · exact hp.oob.captureItems i hi
  · exact closedTo hclosed

theorem sendbufPush {f : MuxFrame} (hp : Lined Q P ss) (hf : ∀ i ∈ f.items, P i) : Lined Q P (ss.sendbufPush f) := by
  obtain ⟨sendbuf, staging, hpushed, heq⟩ := ss.sendbufPush_spec f
  rw [heq]
  exact { hp with send := hp.send.pushed hpushed hf }

theorem flushFull (hst : ss.state ≠ .closed)
    (hbuf : ss.sendbuf = frame :: rest) (hp : Lined Q P ss) : Lined Q P (ss.flushFull frame rest n) := by
  have hsend := hp.send
  rw [hbuf] at hsend
  have hw : Lined Q P (ss.written frame rest n rest) := by
    unfold written freezeHead
    split <;> exact { hp with send := hsend.tail }
  have hst' : (ss.written frame rest n rest).state ≠ .closed := by
    unfold written freezeHead
    split <;> exact hst
  unfold Session.flushFull
  rcases trackSent_cases _ (frame.moved n) hst' with
    ⟨-, -, -, heq⟩ | ⟨-, hlogs⟩ | hclosed
  · rw [heq]
    exact { hw with }
  · exact hw.logs hlogs fun i hi =>
      Queueing.tracked hsend.head (MuxFrame.kept_subset _ i hi) (MuxFrame.kept_tracked _ i hi)
  · exact closedTo hclosed

theorem flushPart (hst : ss.state ≠ .closed)
    (hbuf : ss.sendbuf = frame :: rest) (hp : Lined Q P ss) : Lined Q P (ss.flushPart frame rest n) := by
  have hsend := hp.send
  rw [hbuf] at hsend
  have hw : Lined Q P (ss.written frame rest n (frame.moved n :: rest)) := by
    unfold written freezeHead
    split <;> exact { hp with send := hsend.tail.cons hsend.head }
  have hst' : (ss.written frame rest n (frame.moved n :: rest)).state ≠ .closed := by
    unfold written freezeHead
    split <;> exact hst
  have hcut : Entries Q ((frame.moved n).cut :: rest) :=
    hsend.tail.cons (Queueing.sub hsend.head (List.drop_sublist _ _))
  unfold Session.flushPart
  rcases trackPartial_spec _ (frame.moved n) rest hst' with
    ⟨heq, -⟩ | ⟨-, -, heq⟩ | ⟨-, -, hlogs⟩ | hclosed
  · rw [heq]
    exact hw
  · rw [heq]
    exact { hw with send := hcut }
  · refine Lined.logs hlogs { hw with send := hcut } fun i hi => ?_
    obtain ⟨hmem, htracked⟩ := List.mem_filter.mp hi
    exact Queueing.tracked hsend.head (List.mem_of_mem_take hmem) htracked
  · exact closedTo hclosed

theorem queueCopy {off : Nat} {orig : MuxFrame} (hlog : ss.LogInv) (horig : ss.ring[off]? = some orig)
    (hp : Lined Q P ss) : Lined Q P (ss.queueCopy off orig) := by
  refine { hp with send := hp.send.cons (Queueing.all fun i hi => ?_) }
  rw [copyItems_eq hlog horig] at hi
  have hmem : i ∈ ringLive ss.ring := List.mem_flatMap.mpr ⟨orig, List.mem_of_getElem? horig, hi⟩
  rw [← hlog.live_eq] at hmem
  exact hp.logged i (List.mem_of_mem_drop hmem)

theorem discard (id : UInt16) (hp : Lined Q P ss)
    (hbuf : BufOk ss.sendbuf ss.oobbuf ss.dgrambuf ss.sendbufStaging) : Lined Q P (ss.discardStreamFrames id) := by
  obtain ⟨sendbuf, staging, hthin, -, -, heq⟩ := ss.discardSendbuf_spec id hbuf
  unfold discardStreamFrames
  rw [heq]
  exact ⟨hp.send.thinned hthin, hp.oob.filterMap, hp.dgram, hp.logged⟩

end Lined

variable {Q : List Item → Prop}

theorem Lined.pushHello {ss : Session} {server incl : Bool} (hp : Lined Q P ss)
    (hnew : ∀ h : Hello, Q [⟨helloFrame h, ss.births⟩]) : Lined Q P (ss.pushHello server incl) :=
  { hp with send := hp.send.append (hnew _) }

theorem Micro.lined [Queueing Q P] {quiet : Bool} {e : Event} {ss ss' : Session}
    (hm : Micro quiet e ss ss') (hlog : ss.LogInv) (hcopy : ss.CopyInv)
    (hbuf : BufOk ss.sendbuf ss.oobbuf ss.dgrambuf ss.sendbufStaging)
    (hhello : ∀ h : Hello, Q [⟨helloFrame h, ss.births⟩])
    (hnew : ∀ f : Frame, f.Produced → f.version = protocolVersion → P ⟨f, ss.births⟩) (hp : Lined Q P ss) :
    Lined Q P ss' := by
  have hitem (f : Frame) (hv : f.version = protocolVersion) (hf : f.Produced) :
      ∀ i ∈ (ss.newFrame f).items, P i := by
    intro i hi
    rw [List.mem_singleton.mp hi]
    exact hnew f hf hv
  cases hm with
  | aux | table | forget | closeWait | install | accepted | replayed | recvOther | recvStream =>
    exact { hp with }
  | closed | failClosed | ackReject | helloReject | resumeReject => exact .closedForm _
  | closing => exact ⟨.nil, .nil, .nil, by simp [unackedFreeAll]⟩
  | suspend => exact hp.suspend
  | attach he ha h =>
    have := hp.capture (show ss.state ≠ .closed by simp [h])
    exact { this with }
  | dialed =>
    refine Lined.pushHello ?_ hhello
    exact { hp with }
  | helloServer =>
    refine Lined.startReplay (Lined.pushHello ?_ hhello)
    exact { hp with }
  | resumeInstall n he ha h hopen =>
    have := hp.capture (show ss.state ≠ .closed by simp [h])
    have hbirths := (ss.captureAndDiscard_open (by simp [h]) hopen).births
    refine Lined.startReplay (Lined.pushHello { this with } ?_)
    exact hbirths ▸ hhello
  | helloResume ss1 f rest hello _ _ _ _ _ _ _ hack =>
    have := Lined.resumeAckRecv (s := { ss with recvbuf := rest }) hlog hack
      { hp with }
    exact Lined.startReplay { this with }
  | helloFresh => exact { hp with logged := by simp [freshForm, unackedFreeAll] }
  | resumeTrim _ _ _ _ hack => exact hp.resumeAckRecv hlog hack
  | push f hv hid =>
    exact Lined.sendbufPush { hp with } (hitem f hv (.of_stream hv hid))
  | park f hv hid =>
    exact { hp with oob := hp.oob.append (hitem f hv (.of_stream hv hid)) }
  | oob f hv _ hflags =>
    have hf : hasFlag f.flags flagAck = false := by rw [hflags]; decide
    exact { hp with oob := hp.oob.append (hitem f hv (.of_noAck hv hf)) }
  | dgram f hv _ hflags =>
    exact { hp with dgram := hp.dgram.append (hitem f hv (.of_noAck hv hflags)) }
  | ack =>
    exact Lined.ackEmitted (Lined.sendbufPush { hp with }
      (hitem _ rfl (.ack (min ss.unreported 65535))))
  | discard id => exact hp.discard id hbuf
  | freeze frame rest =>
    unfold freezeHead
    split <;> exact { hp with }
  | fail frame rest n => exact Lined.suspend (s := ss.handOver frame n) { hp with }
  | flushPart frame rest n h hb => exact hp.flushPart (by rcases h with h | h <;> simp [h]) hb
  | flushFull frame rest n h hb => exact hp.flushFull (by rcases h with h | h <;> simp [h]) hb
  | copy off orig _ _ horig => exact hp.queueCopy hlog horig
  | stageOob frame rest _ _ hb =>
    have hoob := hp.oob
    rw [hb] at hoob
    exact Lined.sendbufPush { hp with oob := hoob.tail } hoob.head
  | stageDgram frame rest _ hb =>
    have hdgram := hp.dgram
    rw [hb] at hdgram
    exact Lined.sendbufPush { hp with dgram := hdgram.tail } hdgram.head
  | recvAck _ f rest unstalled _ _ _ _ _ hack =>
    obtain ⟨-, hacks, -⟩ := ackRecv_spec (s := { ss with recvbuf := rest }) hlog hcopy hack
    exact Lined.acks hacks { hp with }

/-- What holds of every frame a session holds, and of every frame it may produce, holds after a step. -/
theorem Micro.pool {quiet : Bool} {e : Event} {ss ss' : Session}
    (hm : Micro quiet e ss ss') (hlog : ss.LogInv) (hcopy : ss.CopyInv)
    (hbuf : BufOk ss.sendbuf ss.oobbuf ss.dgrambuf ss.sendbufStaging)
    (hnew : ∀ f : Frame, f.Produced → P ⟨f, ss.births⟩) (hp : Pool P ss) : Pool P ss' :=
  hm.lined hlog hcopy hbuf (fun h _ hi => List.mem_singleton.mp hi ▸ hnew _ (.inl ⟨h, rfl⟩))
    (fun f hf _ => hnew f hf) hp

end Multiplexd
