import Mathlib.Data.List.Induction
import Multiplexd.Stream.Lifetime

/-!
# What the two ends of a stream say to each other

The frames of an end follow a grammar. The opener begins with a SYN, which may carry payload, the other
end with a SYN|ACK; then come payload and grants, the last of them with a FIN, and after the FIN there are
grants only (`phase`). A reset takes back the frames that have not left, so that an end which has been
reset may break off anywhere; what it adds is an RST or a grant (`Frame.Bare`).

`Talks` ties the state of an end to what it has said and to what it has taken from the other end.
-/

namespace Multiplexd

/-- How far an end has come: it has said nothing, has opened its direction, has sent its FIN. -/
inductive Phase where
  | idle
  | opened
  | finished
deriving DecidableEq

/-- The frame an end begins with. -/
def Frame.Opens (opener : Bool) (f : Frame) : Prop :=
  if opener then
    f.flags = flagSyn ∧ f.payload = [] ∨ f.flags = flagPush ||| flagSyn ∧ f.payload.length ≤ defaultSendWindow
  else f.flags = flagSyn ||| flagAck ∧ f.payload = []

/-- A grant and nothing else. -/
def Frame.IsAck (f : Frame) : Prop := f.flags = flagAck ∧ f.payload = []

/-- A frame that needs no open stream. -/
def Frame.Bare (f : Frame) : Prop := hasFlag f.flags flagRst = true ∨ f.IsAck

instance (opener : Bool) (f : Frame) : Decidable (f.Opens opener) := by
  unfold Frame.Opens
  infer_instance

instance (f : Frame) : Decidable f.IsAck := inferInstanceAs (Decidable (_ ∧ _))

def Phase.next (opener : Bool) : Phase → Frame → Option Phase
  | .idle, f => if f.Opens opener then some .opened else none
  | .opened, f => if f.Carries then some (if hasFlag f.flags flagFin then .finished else .opened) else none
  | .finished, f => if f.IsAck then some .finished else none

/-- How far the frames `fs` go, if they follow the grammar. -/
def phase (opener : Bool) (fs : List Frame) : Option Phase := fs.foldlM (Phase.next opener) .idle

theorem phase_append (opener : Bool) (fs gs : List Frame) :
    phase opener (fs ++ gs) = (phase opener fs).bind fun ph => gs.foldlM (Phase.next opener) ph :=
  List.foldlM_append

theorem phase_snoc (opener : Bool) (fs : List Frame) (f : Frame) :
    phase opener (fs ++ [f]) = (phase opener fs).bind fun ph => ph.next opener f := by
  rw [phase_append]
  cases phase opener fs with
  | none => rfl
  | some ph => cases h : ph.next opener f <;> simp [h]

variable {opener : Bool} {fs : List Frame} {f : Frame} {ph ph' : Phase}

theorem phase_isSome_of_append {gs : List Frame} (h : (phase opener (fs ++ gs)).isSome) :
    (phase opener fs).isSome := by
  rw [phase_append] at h
  cases hfs : phase opener fs with
  | none => simp [hfs] at h
  | some ph => rfl

/-! ### The sum of the frames -/

/-- All that the frames `fs` bring to an end that takes each of them. -/
def total (fs : List Frame) : Taken := (fs.map Frame.taken).foldr Taken.append {}

@[simp] theorem total_nil : total [] = {} := rfl

theorem total_append (fs gs : List Frame) : total (fs ++ gs) = (total fs).append (total gs) := by
  induction fs with
  | nil => simp
  | cons f fs ih => simpa [total, Taken.append_assoc] using congrArg (Taken.append f.taken) ih

theorem total_single (f : Frame) : total [f] = f.taken := Taken.append_nil f.taken

theorem isRst_of_mem (id : UInt16) (code : MuxStatus) (queued : Bool) :
    ∀ f ∈ (if queued then [Session.ctrlFrame id flagRst code.code.toNat] else []), hasFlag f.flags flagRst = true := by
  cases queued with
  | true => simpa using Stream.isRst_ctrlFrame id code
  | false => simp

theorem total_of_rst (h : ∀ f ∈ fs, hasFlag f.flags flagRst = true) :
    (total fs).data = [] ∧ (total fs).credit = 0 := by
  induction fs with
  | nil => exact ⟨rfl, rfl⟩
  | cons f fs ih =>
    obtain ⟨hdata, hcredit⟩ := ih fun g hg => h g (List.mem_cons_of_mem f hg)
    have hf : f.taken = { rst := true } := by rw [Frame.taken, if_pos (h f List.mem_cons_self)]
    rw [show f :: fs = [f] ++ fs from rfl, total_append, total_single, hf]
    simp [Taken.append, hdata, hcredit]

/-- What frames bring that follow the grammar. -/
structure Taken.Of (ph : Phase) (t : Taken) : Prop where
  opened : t.opened = true ↔ ph ≠ .idle
  fin : t.fin = true ↔ ph = .finished

theorem opens_flags (h : f.Opens opener) : hasFlag f.flags flagRst = false ∧
    hasFlag f.flags flagSyn = true ∧ hasFlag f.flags flagFin = false := by
  unfold Frame.Opens at h
  split at h
  · rcases h with ⟨h, -⟩ | ⟨h, -⟩ <;> rw [h] <;> decide
  · rw [h.1]
    decide

theorem isAck_flags (h : f.IsAck) : hasFlag f.flags flagRst = false ∧
    hasFlag f.flags flagSyn = false ∧ hasFlag f.flags flagFin = false := by
  rw [h.1]
  decide

theorem isAck_carries (h : f.IsAck) : f.Carries := by
  unfold Frame.Carries
  rw [h.1, h.2]
  decide

theorem next_cases (h : ph.next opener f = some ph') : ph = .idle ∧ f.Opens opener ∧ ph' = .opened ∨
      ph = .opened ∧ f.Carries ∧ ph' = (if hasFlag f.flags flagFin then .finished else .opened) ∨
      ph = .finished ∧ f.IsAck ∧ ph' = .finished := by
  cases ph <;> simp only [Phase.next, Option.ite_none_right_eq_some, Option.some.injEq] at h
  · exact .inl ⟨rfl, h.1, h.2.symm⟩
  · exact .inr (.inl ⟨rfl, h.1, h.2.symm⟩)
  · exact .inr (.inr ⟨rfl, h.1, h.2.symm⟩)

theorem next_rst (h : ph.next opener f = some ph') : hasFlag f.flags flagRst = false := by
  rcases next_cases h with ⟨-, hf, -⟩ | ⟨-, hf, -⟩ | ⟨-, hf, -⟩
  · exact (opens_flags hf).1
  · exact (Stream.carries_flags hf).1
  · exact (isAck_flags hf).1

theorem total_of_phase (h : phase opener fs = some ph) : (total fs).Of ph := by
  induction fs using List.reverseRecOn generalizing ph with
  | nil =>
    obtain rfl : Phase.idle = ph := Option.some.inj h
    exact ⟨by simp, by simp⟩
  | append_singleton fs f ih =>
    rw [phase_snoc] at h
    obtain ⟨ph₀, hfs, hnext⟩ := Option.bind_eq_some_iff.mp h
    obtain ⟨hopened, hfin⟩ := ih hfs
    have hf : f.taken.opened = hasFlag f.flags flagSyn ∧ f.taken.fin = hasFlag f.flags flagFin := by
      rw [Frame.taken, if_neg (Bool.eq_false_iff.mp (next_rst hnext))]
      exact ⟨rfl, rfl⟩
    have happ : (total (fs ++ [f])).opened = ((total fs).opened || hasFlag f.flags flagSyn) ∧
        (total (fs ++ [f])).fin = ((total fs).fin || hasFlag f.flags flagFin) := by
      rw [total_append, total_single, ← hf.1, ← hf.2]
      exact ⟨rfl, rfl⟩
    rcases next_cases hnext with ⟨rfl, hf, rfl⟩ | ⟨rfl, hf, rfl⟩ | ⟨rfl, hf, rfl⟩
    · constructor
      · simp [happ.1, (opens_flags hf).2.1]
      · simp [happ.2, (opens_flags hf).2.2, hfin]
    · constructor
      · rw [happ.1, hopened.mpr (by decide)]
        split <;> simp
      · rw [happ.2, Bool.eq_false_iff.mpr fun h => Phase.noConfusion (hfin.mp h), Bool.false_or]
        split <;> simp_all
    · constructor
      · simp [happ.1, hopened.mpr (by decide)]
      · simp [happ.2, hfin.mpr rfl]

theorem Taken.Of.unique {t : Taken} (h : t.Of ph) (h' : t.Of ph') : ph = ph' := by
  have hidle : ph ≠ .idle ↔ ph' ≠ .idle := h.opened.symm.trans h'.opened
  have hfinished : ph = .finished ↔ ph' = .finished := h.fin.symm.trans h'.fin
  cases ph <;> cases ph' <;> simp_all

theorem Taken.Of.append {t u : Taken} (h : t.Of ph) (hopened : u.opened = false) (hfin : u.fin = false) :
    (t.append u).Of ph := by
  constructor
  · rw [Taken.append, hopened, Bool.or_false]
    exact h.opened
  · rw [Taken.append, hfin, Bool.or_false]
    exact h.fin

def Frame.Later (opener : Bool) (f : Frame) : Prop :=
  hasFlag f.flags flagRst = false ∧ (opener = true → hasFlag f.flags flagSyn = false)

/-- What an end has said follows the grammar up to a reset, and an opener has been answered before it says
more than its SYN. -/
structure Speech (opener : Bool) (sent egress : List Frame) (answered : Bool) : Prop where
  grammar : ∃ said tail, sent ++ egress = said ++ tail ∧ (phase opener said).isSome ∧ ∀ f ∈ tail, f.Bare
  reply : ∀ f ∈ sent ++ egress, f.Later opener → answered = true

namespace Speech

variable {opener : Bool} {sent egress : List Frame} {answered : Bool}

theorem mono {answered' : Bool} (h : Speech opener sent egress answered) (ha : answered = true → answered' = true) :
    Speech opener sent egress answered' :=
  ⟨h.grammar, fun f hf hl => ha (h.reply f hf hl)⟩

variable {fs : List Frame}

theorem append (h : Speech opener sent egress answered)
    (hfs : ∀ f ∈ fs, f.Bare ∧ (f.Later opener → answered = true)) : Speech opener sent (egress ++ fs) answered := by
  obtain ⟨said, tail, heq, hsaid, htail⟩ := h.grammar
  refine ⟨⟨said, tail ++ fs, by rw [← List.append_assoc, heq, List.append_assoc], hsaid, fun f hf => ?_⟩,
    fun f hf hl => ?_⟩
  · rcases List.mem_append.mp hf with hf | hf
    · exact htail f hf
    · exact (hfs f hf).1
  · rw [← List.append_assoc] at hf
    rcases List.mem_append.mp hf with hf | hf
    · exact h.reply f hf hl
    · exact (hfs f hf).2 hl

theorem rsts_later (h : ∀ f ∈ fs, hasFlag f.flags flagRst = true) :
    ∀ f ∈ fs, f.Bare ∧ (f.Later opener → answered = true) :=
  fun f hf => ⟨.inl (h f hf), fun hl => absurd (hl.1.symm.trans (h f hf)) (by decide)⟩

/-- The frames that have not left are withdrawn. -/
theorem withdraw (h : Speech opener sent egress answered) : Speech opener sent [] answered := by
  obtain ⟨said, tail, heq, hsaid, htail⟩ := h.grammar
  refine ⟨?_, fun f hf => h.reply f (List.mem_append_left egress (by simpa using hf))⟩
  rw [List.append_nil]
  rcases List.append_eq_append_iff.mp heq with ⟨more, rfl, -⟩ | ⟨more, rfl, rfl⟩
  · exact ⟨sent, [], (List.append_nil sent).symm, phase_isSome_of_append hsaid, nofun⟩
  · exact ⟨said, more, rfl, hsaid, fun f hf => htail f (List.mem_append_left egress hf)⟩

theorem withdraw_rsts (h : Speech opener sent egress answered)
    (hfs : ∀ f ∈ fs, hasFlag f.flags flagRst = true) : Speech opener sent fs answered :=
  h.withdraw.append (rsts_later hfs)

/-- The next frame goes on with the grammar, or it is bare. -/
theorem next (h : Speech opener sent egress answered) {taken rest : List Frame} {f : Frame}
    (hsent : sent = taken ++ f :: rest) : (phase opener (taken ++ [f])).isSome ∨ f.Bare := by
  obtain ⟨said, tail, heq, hsaid, htail⟩ := h.grammar
  have heq' : said ++ tail = (taken ++ [f]) ++ (rest ++ egress) := by simp [← heq, hsent]
  rcases List.append_eq_append_iff.mp heq' with ⟨more, hmore, rfl⟩ | ⟨more, rfl, -⟩
  · rcases List.eq_nil_or_concat more with rfl | ⟨init, last, rfl⟩
    · rw [hmore, List.append_nil]
      exact .inl hsaid
    · rw [List.concat_eq_append, ← List.append_assoc] at hmore
      obtain rfl : f = last := by simpa using (List.append_inj' hmore rfl).2
      exact .inr (htail f (by simp))
  · exact .inl (phase_isSome_of_append hsaid)

end Speech

def StreamState.said : StreamState → Phase
  | .init | .synReceived => .idle
  | .synSent | .established | .closeWait => .opened
  | .finWait | .closing | .closed => .finished

def StreamState.heard : StreamState → Phase
  | .init | .synSent => .idle
  | .synReceived | .established | .finWait => .opened
  | .closeWait | .closing | .closed => .finished

/-- An end has sent `sent`, has more frames queued, and has taken `got`. -/
structure Talks (opener : Bool) (sent : List Frame) (got : Taken) (c : StreamCore) : Prop where
  intact : c.Intact
  opening : c.Opening
  speech : Speech opener sent c.egress got.opened
  said : ¬ c.Over → phase opener (sent ++ c.egress) = some c.state.said
  heard : ¬ c.Over → got.Of c.state.heard
  role : if opener then c.state ≠ .synReceived else got.opened = true

namespace StreamCore

variable {opener peer : Bool} {sent : List Frame} {got : Taken} {c c' : StreamCore}

theorem Intact.not_over (h : c.Intact) (hst : c.state ≠ .closed) : ¬ c.Over := fun ho => hst (h.closed_of_over ho)

theorem Falling.speech {answered : Bool} (h : Falling peer c c') (hs : Speech opener sent c.egress answered) :
    Speech opener sent c'.egress answered := by
  have hfilter : ∀ f ∈ c.egress.filter (fun f => hasFlag f.flags flagRst), hasFlag f.flags flagRst = true :=
    fun f hf => (List.mem_filter.mp hf).2
  rcases h.frames with ⟨-, heg | ⟨-, heg⟩⟩ | ⟨-, -, -, code, heg⟩ <;> rw [heg]
  · exact hs.withdraw_rsts hfilter
  · exact hs
  · refine (hs.withdraw_rsts hfilter).append (Speech.rsts_later fun f hf => ?_)
    rw [List.mem_singleton.mp hf]
    exact Stream.isRst_ctrlFrame c.id code

theorem Fallen.talks {got' : Taken} {c₀ : StreamCore} (h : Fallen peer c₀ c')
    (hs : Speech opener sent c₀.egress got'.opened) (hrole : opener = false → got'.opened = true) :
    Talks opener sent got' c' where
  intact := h.intact
  opening := h.opening
  speech := h.speech hs
  said := fun ho => absurd h.over ho
  heard := fun ho => absurd h.over ho
  role := by
    cases opener with
    | true => simp [h.state]
    | false => exact hrole rfl

end StreamCore

namespace Talks

open StreamCore

variable {opener : Bool} {sent : List Frame} {got : Taken} {c c' : StreamCore}

theorem answered (h : Talks opener sent got c) (ho : opener = false) : got.opened = true := by
  subst ho
  exact h.role

/-- A frame is queued that goes on with the grammar. -/
theorem emit {f : Frame} (h : Talks opener sent got c) (hi : c'.Intact) (ho : c'.Opening)
    (hover : ¬ c.Over) (hegress : c'.egress = c.egress ++ [f]) (hnext : c.state.said.next opener f = some c'.state.said)
    (hlater : f.Later opener → got.opened = true) (hheard : c'.state.heard = c.state.heard) :
    Talks opener sent got c' := by
  have hphase : phase opener (sent ++ c'.egress) = some c'.state.said := by
    rw [hegress, ← List.append_assoc, phase_snoc, h.said hover]
    exact hnext
  refine ⟨hi, ho, ⟨⟨sent ++ c'.egress, [], (List.append_nil _).symm, by rw [hphase]; rfl, nofun⟩, ?_⟩,
    fun _ => hphase, fun _ => hheard ▸ h.heard hover, ?_⟩
  · rw [hegress, ← List.append_assoc]
    intro f' hf' hl
    rcases List.mem_append.mp hf' with hf' | hf'
    · exact h.speech.reply f' hf' hl
    · rw [List.mem_singleton.mp hf'] at hl
      exact hlater hl
  · cases opener with
    | true =>
      intro hst
      rw [hst] at hnext
      rcases next_cases hnext with ⟨-, -, hph⟩ | ⟨-, -, hph⟩ | ⟨-, -, hph⟩
      · exact absurd hph (by decide)
      · split at hph <;> exact absurd hph (by decide)
      · exact absurd hph (by decide)
    | false => exact h.role

theorem opener_of_idle (h : Talks opener sent got c) (hst : c.state = .init ∨ c.state = .synSent) : opener = true := by
  by_contra hne
  have hopen : c.state ≠ .closed := by rcases hst with h | h <;> simp [h]
  have hidle := (h.heard (h.intact.not_over hopen)).opened.mp (h.answered (Bool.eq_false_iff.mpr hne))
  rcases hst with hst | hst <;> simp [hst, StreamState.heard] at hidle

theorem opener_of_synReceived (h : Talks opener sent got c) (hst : c.state = .synReceived) : opener = false := by
  cases opener with
  | true => exact absurd hst h.role
  | false => rfl

theorem opened_of_heard (h : Talks opener sent got c) (hover : ¬ c.Over) (hst : c.state.heard ≠ .idle) :
    got.opened = true :=
  (h.heard hover).opened.mpr hst

end Talks

/-! ### The frames an end builds -/

theorem isAck_ctrlFrame (id : UInt16) (inc : Nat) : (Session.ctrlFrame id flagAck inc).IsAck := ⟨rfl, rfl⟩

theorem pushFrame_carries (id : UInt16) (inc : Nat) (fin : Bool) (ch : Chunk) :
    (Stream.pushFrame id (StreamCore.withFlags flagPush inc fin) inc ch).Carries ∧
      hasFlag (StreamCore.withFlags flagPush inc fin) flagFin = fin := by
  have hpayload : ch.bytes.isEmpty = false := by simp [ch.ne_nil]
  unfold Frame.Carries Stream.pushFrame StreamCore.withFlags
  simp only [hpayload]
  by_cases h : 0 < inc <;> cases fin <;> simp only [h, if_true, if_false] <;> decide

theorem finFrame_carries (id : UInt16) (inc : Nat) :
    (Session.ctrlFrame id (StreamCore.withFlags 0 inc true) inc).Carries := by
  unfold Frame.Carries Session.ctrlFrame StreamCore.withFlags
  by_cases h : 0 < inc <;> simp only [h, if_true, if_false] <;> decide

theorem next_push (hph : ph = .opened) (id : UInt16) (inc : Nat) (fin : Bool) (ch : Chunk) :
    ph.next opener (Stream.pushFrame id (StreamCore.withFlags flagPush inc fin) inc ch) =
      some (if fin then .finished else .opened) := by
  obtain ⟨hcarries, hfin⟩ := pushFrame_carries id inc fin ch
  rw [hph, Phase.next, if_pos hcarries]
  show some (if hasFlag (StreamCore.withFlags flagPush inc fin) flagFin = true then _ else _) = _
  rw [hfin]

theorem next_fin (hph : ph = .opened) (id : UInt16) (inc : Nat) :
    ph.next opener (Session.ctrlFrame id (StreamCore.withFlags 0 inc true) inc) = some .finished := by
  rw [hph, Phase.next, if_pos (finFrame_carries id inc)]
  show some (if hasFlag (StreamCore.withFlags 0 inc true) flagFin = true then _ else _) = _
  rw [Stream.hasFlag_withFlags_fin]
  rfl

theorem next_ack (hph : ph ≠ .idle) (id : UInt16) (inc : Nat) :
    ph.next opener (Session.ctrlFrame id flagAck inc) = some ph := by
  have hack := isAck_ctrlFrame id inc
  cases ph with
  | idle => exact absurd rfl hph
  | opened =>
    rw [Phase.next, if_pos (isAck_carries hack), (isAck_flags hack).2.2]
    rfl
  | finished => rw [Phase.next, if_pos hack]

namespace Talks

open StreamCore

variable {opener : Bool} {sent : List Frame} {got : Taken} {c c' : StreamCore}

theorem step (h : Talks opener sent got c) (hstep : Step c c') : Talks opener sent got c' := by
  have hi := hstep.intact h.intact
  have ho := hstep.opening h.opening
  have hnot : ∀ {st : StreamState}, c.state = st → st ≠ .closed → ¬ c.Over :=
    fun heq hne => h.intact.not_over (heq ▸ hne)
  have hanswered : opener = false → got.opened = true := h.answered
  cases hstep with
  | syn inc hst =>
    obtain rfl := h.opener_of_idle (.inl hst)
    refine h.emit hi ho (hnot hst (by decide)) rfl ?_ (fun hl => ?_) (by rw [hst]; rfl)
    · rw [hst, StreamState.said, Phase.next, if_pos (.inl ⟨rfl, rfl⟩)]
      rfl
    · exact absurd (hl.2 rfl) (by change ¬ hasFlag flagSyn flagSyn = false; decide)
  | synPush ch rest inc hst _ hlen =>
    obtain rfl := h.opener_of_idle (.inl hst)
    refine h.emit hi ho (hnot hst (by decide)) rfl ?_ (fun hl => ?_) (by rw [hst]; rfl)
    · have hcredit : ch.len ≤ defaultSendWindow := by
        rw [creditAvail, (h.opening.initial (.inl hst)).1, h.opening.unsent hst] at hlen
        exact hlen
      rw [hst, StreamState.said, Phase.next, if_pos (.inr ⟨rfl, hcredit⟩)]
      rfl
    · exact absurd (hl.2 rfl) (by change ¬ hasFlag (flagPush ||| flagSyn) flagSyn = false; decide)
  | synAck inc hst =>
    obtain rfl := h.opener_of_synReceived hst
    refine h.emit hi ho (hnot hst (by decide)) rfl ?_ (fun _ => h.role) (by rw [hst]; rfl)
    rw [hst, StreamState.said, Phase.next, if_pos ⟨rfl, rfl⟩]
    rfl
  | push ch rest inc hst =>
    have hopen : ¬ c.Over := by rcases hst with hst | hst <;> exact hnot hst (by decide)
    have hsaid : c.state.said = .opened := by rcases hst with hst | hst <;> rw [hst] <;> rfl
    have hheard : c.state.heard ≠ .idle := by rcases hst with hst | hst <;> rw [hst] <;> decide
    refine h.emit hi ho hopen rfl ?_ (fun _ => h.opened_of_heard hopen hheard) ?_
    · rw [next_push hsaid]
      rcases hst with hst | hst <;> cases c.rxEof && rest.isEmpty <;> simp [hst, finSent, StreamState.said]
    · rcases hst with hst | hst <;> cases c.rxEof && rest.isEmpty <;> simp [hst, finSent, StreamState.heard]
  | ack inc _ hst hclosed =>
    have hopen : ¬ c.Over := by
      by_cases hcl : c.state = .closed
      · exact hclosed hcl
      · exact h.intact.not_over hcl
    have hheard : c.state.heard ≠ .idle := by
      cases hs : c.state <;> simp_all [StreamState.heard]
    have hsaid : c.state.said ≠ .idle := by
      cases hs : c.state <;> simp_all [StreamState.said]
    exact h.emit hi ho hopen rfl (next_ack hsaid _ _) (fun _ => h.opened_of_heard hopen hheard) rfl
  | fin inc hst =>
    have hopen : ¬ c.Over := by rcases hst with hst | hst <;> exact hnot hst (by decide)
    have hsaid : c.state.said = .opened := by rcases hst with hst | hst <;> rw [hst] <;> rfl
    have hheard : c.state.heard ≠ .idle := by rcases hst with hst | hst <;> rw [hst] <;> decide
    refine h.emit hi ho hopen rfl ?_ (fun _ => h.opened_of_heard hopen hheard) ?_
    · rw [next_fin hsaid]
      rcases hst with hst | hst <;> simp [hst, finSent, StreamState.said]
    · rcases hst with hst | hst <;> simp [hst, finSent, StreamState.heard]
  | close hst =>
    refine ⟨hi, ho, h.speech, fun hn => (h.said hn).trans (by rw [hst]; rfl), fun hn => ?_, ?_⟩
    · have hheard := h.heard hn
      rw [hst] at hheard
      exact hheard
    · cases opener with
      | true => simp
      | false => exact h.role
  | reset _ _ _ _ hfall => exact hfall.talks h.speech hanswered
  | resetAck inc _ hst hfall =>
    have hopened := h.opened_of_heard (hnot hst (by decide)) (by rw [hst]; decide)
    have hfallen := hfall.talks h.speech hanswered
    refine { hfallen with
      intact := hi
      opening := ho
      speech := hfallen.speech.append fun f hf => ?_
      said := fun hn => absurd hfall.over hn }
    rw [List.mem_singleton.mp hf]
    exact ⟨.inr (isAck_ctrlFrame _ _), fun _ => hopened⟩
  | reject rst eof =>
    refine ⟨hi, ho, h.speech.append (Speech.rsts_later (isRst_of_mem c.id .refusedStream rst)),
      fun hn => absurd (.inl rfl) hn, fun hn => absurd (.inl rfl) hn, ?_⟩
    cases opener with
    | true => simp
    | false => exact h.role
  | eof | queue | window | consume | eofSeen => exact { h with intact := hi, opening := ho }

variable {t : Taken}

theorem append (h : Talks opener sent got c) (hi : c'.Intact) (ho : c'.Opening)
    (hegress : c'.egress = c.egress) (hover : c'.Over ↔ c.Over) (hsaid : c'.state.said = c.state.said)
    (hrole : c.state ≠ .synReceived → c'.state ≠ .synReceived)
    (hheard : ¬ c.Over → (got.append t).Of c'.state.heard) : Talks opener sent (got.append t) c' where
  intact := hi
  opening := ho
  speech := by
    rw [hegress]
    exact h.speech.mono fun h => by simp [Taken.append, h]
  said := fun hn => by
    rw [hegress, hsaid]
    exact h.said (mt hover.mpr hn)
  heard := fun hn => hheard (mt hover.mpr hn)
  role := by
    have hold := h.role
    cases opener with
    | true => exact hrole hold
    | false => simp [Taken.append, show got.opened = true from hold]

theorem input (h : Talks opener sent got c) (hin : Input t c c')
    (hlate : c.state = .closed → t.bad = true → c.Over) : Talks opener sent (got.append t) c' := by
  have hi := hin.intact h.intact
  have ho : c'.Opening := hin.opening
  have hopened : got.opened = true → (got.append t).opened = true := fun h => by simp [Taken.append, h]
  have hanswered : opener = false → (got.append t).opened = true := fun hop => hopened (h.answered hop)
  cases hin with
  | credit | data | direct => exact h.append hi ho rfl Iff.rfl rfl (fun h => h) fun hn => (h.heard hn).append rfl rfl
  | start hst =>
    refine h.append hi ho rfl Iff.rfl (by rw [hst]; rfl) (fun _ => by simp) fun hn => ?_
    have hheard := h.heard hn
    rw [hst] at hheard
    exact ⟨by simp [Taken.append, StreamState.heard], by simp [Taken.append, hheard.fin, StreamState.heard]⟩
  | fin hst =>
    have hheard := h.heard (h.intact.not_over (by rcases hst with h | h <;> simp [h]))
    refine h.append hi ho rfl Iff.rfl ?_ (fun _ => ?_) fun _ => ⟨?_, ?_⟩ <;> rcases hst with hst | hst <;>
      simp [hst, finReceived, StreamState.said, StreamState.heard, Taken.append, hheard.opened]
  | spill _ _ _ _ _ hfall | rst _ hfall | overflow _ _ _ _ hfall | excess _ _ _ _ hfall =>
    exact hfall.talks (h.speech.mono hopened) hanswered
  | invalid rst _ hfall =>
    exact hfall.talks ((h.speech.mono hopened).append (Speech.rsts_later (isRst_of_mem c.id .protocolError rst))) hanswered
  | late hst hrst =>
    have hover : c.Over := by
      by_contra hn
      have haborted : c.aborted = false := Bool.eq_false_iff.mpr fun h => hn (.inl h)
      exact hn (hlate hst (by simp [haborted]))
    refine ⟨hi, ho, (h.speech.mono hopened).append (Speech.rsts_later (isRst_of_mem c.id .protocolError true)),
      fun hn => absurd hover hn, fun hn => absurd hover hn, ?_⟩
    cases opener with
    | true => exact h.role
    | false => exact hanswered rfl

theorem moves (h : Talks opener sent got c) (hm : Moves t c c') (hbad : t.bad = false) :
    Talks opener sent (got.append t) c' := by
  induction hm generalizing got with
  | refl => simpa using h
  | own hs _ ih => exact ih (h.step hs) hbad
  | input hin _ ih =>
    obtain ⟨hfirst, hrest⟩ := Bool.or_eq_false_iff.mp hbad
    rw [← Taken.append_assoc]
    exact ih (h.input hin fun _ hb => absurd (hfirst.symm.trans hb) (by decide)) hrest

theorem own {s s' : Stream} (h : Talks opener sent got s.core) (hown : Stream.Own s s') :
    Talks opener sent got s'.core := by
  simpa using h.moves hown rfl

/-- The first bytes of some frames are written. -/
theorem transmit {s : Stream} (h : Talks opener sent got s.core) (n : Nat) :
    Talks opener (sent ++ s.egress.take n) got ({ s with egress := s.egress.drop n } : Stream).core := by
  have hout : (sent ++ s.egress.take n) ++ s.egress.drop n = sent ++ s.egress := by
    rw [List.append_assoc, List.take_append_drop]
  refine ⟨⟨h.intact.unreset, h.intact.drained⟩, ⟨h.opening.unsent, h.opening.initial⟩, ⟨?_, ?_⟩, fun hn => ?_, h.heard,
    h.role⟩
  · exact hout.symm ▸ h.speech.grammar
  · exact hout.symm ▸ h.speech.reply
  · exact (congrArg (phase opener) hout).trans (h.said hn)

end Talks

end Multiplexd
