import Multiplexd.Mux.Ack

/-!
# The send buffer

Only the head of the send buffer may be partly written, and only its tail may still take more frames.
The operations on the buffer keep it so, and keep what of the head has been written.
-/

namespace Multiplexd

structure Waiting (f : MuxFrame) : Prop where
  nonempty : f.items ≠ []
  pos_eq : f.pos = 0
  isCopy_eq : f.isCopy = false

structure BufOk (sendbuf oobbuf dgrambuf : List MuxFrame) (staging : Bool) : Prop where
  nonempty : ∀ f ∈ sendbuf, f.items ≠ []
  head : ∀ f ∈ sendbuf.head?, f.pos < f.len
  rest : ∀ f ∈ sendbuf.tail, f.pos = 0
  staging : staging = true → ∃ tail ∈ sendbuf.getLast?, tail.pos = 0 ∧ tail.isCopy = false
  oob : ∀ f ∈ oobbuf, Waiting f
  dgram : ∀ f ∈ dgrambuf, Waiting f

def tornPart : List MuxFrame → List UInt8
  | [] => []
  | f :: _ => frameCode.torn (f.items.map Item.frame) f.pos

variable {sendbuf : List MuxFrame} {f tail : MuxFrame}

theorem tornPart_of_pos (h : ∀ f ∈ sendbuf.head?, f.pos = 0) : tornPart sendbuf = [] := by
  cases sendbuf with
  | nil => rfl
  | cons f fs => rw [tornPart, h f rfl, frameCode.torn_zero]

theorem tornPart_append (sendbuf : List MuxFrame) (hf : f.pos = 0) :
    tornPart (sendbuf ++ [f]) = tornPart sendbuf := by
  cases sendbuf with
  | nil => exact tornPart_of_pos (by simpa using hf)
  | cons g gs => rfl

theorem MuxFrame.len_pos (h : f.items ≠ []) : 0 < f.len := by
  obtain ⟨i, is, hi⟩ := List.exists_cons_of_ne_nil h
  have := frameCode.encode_length_pos i.frame
  simp only [MuxFrame.len, MuxFrame.bytes, itemBytes, hi, List.map_cons, SelfDelimiting.encodeAll_cons,
    List.length_append]
  omega

theorem Waiting.pos_lt (h : Waiting f) : f.pos < f.len :=
  h.pos_eq ▸ MuxFrame.len_pos h.nonempty

theorem BufOk.empty : BufOk [] [] [] false where
  nonempty := by simp
  head := by simp
  rest := by simp
  staging := by simp
  oob := by simp
  dgram := by simp

namespace BufOk

variable {sendbuf oobbuf dgrambuf : List MuxFrame} {staging : Bool}

section

variable (h : BufOk sendbuf oobbuf dgrambuf staging)
include h

variable {f : MuxFrame}

/-- A waiting entry is put behind the others. -/
theorem append (hf : Waiting f) (staging' : Bool) :
    BufOk (sendbuf ++ [f]) oobbuf dgrambuf staging' where
  __ := h
  nonempty g hg := by
    rcases List.mem_append.mp hg with hg | hg
    · exact h.nonempty g hg
    · exact List.mem_singleton.mp hg ▸ hf.nonempty
  head g hg := by
    cases sendbuf with
    | nil =>
      obtain rfl : f = g := by simpa using hg
      exact hf.pos_lt
    | cons k ks => exact h.head g hg
  rest g hg := by
    cases sendbuf with
    | nil => simp at hg
    | cons k ks =>
      rcases List.mem_append.mp (show g ∈ ks ++ [f] by simpa using hg) with hg | hg
      · exact h.rest g hg
      · exact List.mem_singleton.mp hg ▸ hf.pos_eq
  staging _ := ⟨f, by simp, hf.pos_eq, hf.isCopy_eq⟩

theorem unstage : BufOk sendbuf oobbuf dgrambuf false :=
  { h with staging := by simp }

theorem oob_append (hf : Waiting f) : BufOk sendbuf (oobbuf ++ [f]) dgrambuf staging :=
  { h with
    oob := fun g hg => by
      rcases List.mem_append.mp hg with hg | hg
      · exact h.oob g hg
      · exact List.mem_singleton.mp hg ▸ hf }

theorem dgram_append (hf : Waiting f) : BufOk sendbuf oobbuf (dgrambuf ++ [f]) staging :=
  { h with
    dgram := fun g hg => by
      rcases List.mem_append.mp hg with hg | hg
      · exact h.dgram g hg
      · exact List.mem_singleton.mp hg ▸ hf }

/-- The staging entry takes more frames. -/
theorem pack {tail : MuxFrame} (hstaging : staging = true) (htail : sendbuf.getLast? = some tail)
    (items : List Item) :
    BufOk (sendbuf.dropLast ++ [{ tail with items := tail.items ++ items }]) oobbuf dgrambuf staging := by
  obtain ⟨init, rfl⟩ := List.getLast?_eq_some_iff.mp htail
  obtain ⟨_, hmem, hpos, hcopy⟩ := h.staging hstaging
  obtain rfl : tail = _ := Option.some.inj (htail.symm.trans hmem)
  rw [List.dropLast_concat]
  have hne : tail.items ≠ [] := h.nonempty tail (by simp)
  have hinit : BufOk init oobbuf dgrambuf false :=
    { nonempty := fun g hg => h.nonempty g (List.mem_append_left _ hg)
      head := fun g hg => h.head g (by cases init <;> simp_all)
      rest := fun g hg => h.rest g (by
        cases init with
        | nil => cases hg
        | cons k ks => exact List.mem_append_left _ hg)
      staging := by simp
      oob := h.oob
      dgram := h.dgram }
  exact hinit.append (f := { tail with items := tail.items ++ items }) ⟨by simp [hne], hpos, hcopy⟩ staging

end

end BufOk

theorem tornPart_pack (htail : sendbuf.getLast? = some tail) (hpos : tail.pos = 0) (items : List Item) :
    tornPart (sendbuf.dropLast ++ [{ tail with items := tail.items ++ items }]) = tornPart sendbuf := by
  obtain ⟨init, rfl⟩ := List.getLast?_eq_some_iff.mp htail
  rw [List.dropLast_concat, tornPart_append init hpos,
    tornPart_append init (f := { tail with items := tail.items ++ items }) hpos]

theorem CopyOk.pack {ring : List MuxFrame} {off : Option Nat} {copy : Bool} {copyCount copySent : Nat}
    (h : CopyOk ring off copy copyCount copySent sendbuf) (htail : sendbuf.getLast? = some tail)
    (hcopy : tail.isCopy = false) (items : List Item) : CopyOk ring off copy copyCount copySent
      (sendbuf.dropLast ++ [{ tail with items := tail.items ++ items }]) := by
  obtain ⟨init, rfl⟩ := List.getLast?_eq_some_iff.mp htail
  rw [List.dropLast_concat]
  cases copy with
  | false =>
    intro f hf
    rcases List.mem_append.mp hf with hf | hf
    · exact h f (List.mem_append_left _ hf)
    · exact List.mem_singleton.mp hf ▸ hcopy
  | true =>
    obtain ⟨k, orig, head, rest, hoff, horig, hbuf, hhead, hitems, hcount, hlt, hrest⟩ := h
    cases init with
    | nil =>
      -- the tail is no copy, so it is not the head
      obtain rfl : tail = head := (List.cons.inj hbuf).1
      simp [hcopy] at hhead
    | cons g gs =>
      obtain ⟨rfl, rfl⟩ := List.cons.inj hbuf
      refine ⟨k, orig, g, gs ++ [_], hoff, horig, rfl, hhead, hitems, hcount, hlt, ?_⟩
      intro f hf
      rcases List.mem_append.mp hf with hf | hf
      · exact hrest f (List.mem_append_left _ hf)
      · exact List.mem_singleton.mp hf ▸ hcopy

inductive Pushed (sendbuf : List MuxFrame) (staging : Bool) (f : MuxFrame) :
    List MuxFrame → Bool → Prop
  | append : Pushed sendbuf staging f (sendbuf ++ [{ f with pos := 0 }]) true
  | pack (tail : MuxFrame) (hstaging : staging = true) (htail : sendbuf.getLast? = some tail) :
      Pushed sendbuf staging f
        (sendbuf.dropLast ++ [{ tail with items := tail.items ++ f.items }]) staging

theorem Session.sendbufPush_spec (ss : Session) (f : MuxFrame) :
    ∃ sendbuf staging, Pushed ss.sendbuf ss.sendbufStaging f sendbuf staging ∧
      ss.sendbufPush f = { ss with sendbuf := sendbuf, sendbufStaging := staging } := by
  unfold Session.sendbufPush
  dsimp only
  split
  next hpack =>
    split
    · exact ⟨_, _, .append, rfl⟩
    next tail htail =>
      split
      · exact ⟨_, _, .pack tail hpack.2 htail, rfl⟩
      · exact ⟨_, _, .append, rfl⟩
  · exact ⟨_, _, .append, rfl⟩

section

variable {sendbuf sendbuf' oobbuf dgrambuf : List MuxFrame} {staging staging' : Bool} {f : MuxFrame}
  (hp : Pushed sendbuf staging f sendbuf' staging')
include hp

theorem Pushed.bufOk (h : BufOk sendbuf oobbuf dgrambuf staging) (hne : f.items ≠ [])
    (hcopy : f.isCopy = false) : BufOk sendbuf' oobbuf dgrambuf staging' := by
  cases hp with
  | append => exact h.append (f := { f with pos := 0 }) ⟨hne, rfl, hcopy⟩ true
  | pack tail hstaging htail => exact h.pack hstaging htail f.items

theorem Pushed.tornPart (h : BufOk sendbuf oobbuf dgrambuf staging) : tornPart sendbuf' = tornPart sendbuf := by
  cases hp with
  | append => exact tornPart_append sendbuf rfl
  | pack tail hstaging htail =>
    obtain ⟨_, hmem, hpos, -⟩ := h.staging hstaging
    obtain rfl := Option.some.inj (htail.symm.trans hmem)
    exact tornPart_pack htail hpos f.items

theorem Pushed.copyOk {ring : List MuxFrame} {off : Option Nat} {copy : Bool} {copyCount copySent : Nat}
    (h : BufOk sendbuf oobbuf dgrambuf staging)
    (hc : CopyOk ring off copy copyCount copySent sendbuf) (hcopy : f.isCopy = false) :
    CopyOk ring off copy copyCount copySent sendbuf' := by
  cases hp with
  | append => exact hc.append (f := { f with pos := 0 }) hcopy
  | pack tail hstaging htail =>
    obtain ⟨_, hmem, -, hcopy'⟩ := h.staging hstaging
    obtain rfl := Option.some.inj (htail.symm.trans hmem)
    exact hc.pack htail hcopy' f.items

theorem Pushed.pos_eq (h : ∀ g ∈ sendbuf, g.pos = 0) : ∀ g ∈ sendbuf', g.pos = 0 := by
  intro g hg
  cases hp with
  | append =>
    rcases List.mem_append.mp hg with hg | hg
    · exact h g hg
    · rw [List.mem_singleton.mp hg]
  | pack tail hstaging htail =>
    rcases List.mem_append.mp hg with hg | hg
    · exact h g ((List.dropLast_sublist sendbuf).subset hg)
    · rw [List.mem_singleton.mp hg]
      exact h tail (List.mem_of_getLast? htail)

end

/-! ### Withdrawing frames -/

/-- `sendbuf'` is `sendbuf` without frames that fail `p`, in entries that may be touched. -/
inductive Thinned (p : Item → Bool) (copy : Bool) : List MuxFrame → List MuxFrame → Prop
  | nil : Thinned p copy [] []
  | keep (f : MuxFrame) {fs gs : List MuxFrame} (h : Thinned p copy fs gs) :
      Thinned p copy (f :: fs) (f :: gs)
  | thin (f : MuxFrame) {fs gs : List MuxFrame} (hpos : f.pos = 0)
      (hcopy : (copy && f.isCopy) = false) (hne : f.items.filter p ≠ []) (h : Thinned p copy fs gs) :
      Thinned p copy (f :: fs) ({ f with items := f.items.filter p } :: gs)
  | drop (f : MuxFrame) {fs gs : List MuxFrame} (hpos : f.pos = 0)
      (hcopy : (copy && f.isCopy) = false) (hnil : f.items.filter p = []) (h : Thinned p copy fs gs) :
      Thinned p copy (f :: fs) gs

namespace Thinned

variable {p : Item → Bool} {copy : Bool} {fs gs : List MuxFrame}

section

variable (h : Thinned p copy fs gs)
include h

theorem mem {g : MuxFrame} (hg : g ∈ gs) :
    ∃ f ∈ fs, g.pos = f.pos ∧ g.isCopy = f.isCopy ∧
      (g = f ∨ f.pos = 0 ∧ g.items = f.items.filter p ∧ g.items ≠ []) := by
  induction h with
  | nil => cases hg
  | keep f _ ih =>
    rcases List.mem_cons.mp hg with rfl | hg
    · exact ⟨g, List.mem_cons_self, rfl, rfl, .inl rfl⟩
    · obtain ⟨k, hk, hrest⟩ := ih hg
      exact ⟨k, List.mem_cons_of_mem _ hk, hrest⟩
  | thin f hpos _ hne _ ih =>
    rcases List.mem_cons.mp hg with rfl | hg
    · exact ⟨f, List.mem_cons_self, rfl, rfl, .inr ⟨hpos, rfl, hne⟩⟩
    · obtain ⟨k, hk, hrest⟩ := ih hg
      exact ⟨k, List.mem_cons_of_mem _ hk, hrest⟩
  | drop f _ _ _ _ ih =>
    obtain ⟨k, hk, hrest⟩ := ih hg
    exact ⟨k, List.mem_cons_of_mem _ hk, hrest⟩

theorem length_le : gs.length ≤ fs.length := by
  induction h with
  | nil => exact Nat.le_refl _
  | keep _ _ ih => exact Nat.succ_le_succ ih
  | thin _ _ _ _ _ ih => exact Nat.succ_le_succ ih
  | drop _ _ _ _ _ ih => exact Nat.le_succ_of_le ih

theorem pos_eq (hpos : ∀ f ∈ fs, f.pos = 0) : ∀ g ∈ gs, g.pos = 0 := by
  intro g hg
  obtain ⟨f, hf, heq, -⟩ := h.mem hg
  rw [heq, hpos f hf]

theorem head (hrest : ∀ f ∈ fs.tail, f.pos = 0) :
    (∃ f fs' gs', fs = f :: fs' ∧ gs = f :: gs' ∧ Thinned p copy fs' gs') ∨
      ((∀ f ∈ fs.head?, f.pos = 0 ∧ (copy && f.isCopy) = false) ∧ ∀ g ∈ gs, g.pos = 0) := by
  cases h with
  | nil => exact .inr ⟨by simp, by simp⟩
  | keep f h => exact .inl ⟨f, _, _, rfl, rfl, h⟩
  | thin f hpos hcopy hne h =>
    refine .inr ⟨fun k hk => Option.some.inj hk ▸ ⟨hpos, hcopy⟩, ?_⟩
    intro g hg
    rcases List.mem_cons.mp hg with rfl | hg
    · exact hpos
    · exact h.pos_eq hrest g hg
  | drop f hpos hcopy _ h =>
    exact .inr ⟨fun k hk => Option.some.inj hk ▸ ⟨hpos, hcopy⟩, h.pos_eq hrest⟩

theorem nonempty (hne : ∀ f ∈ fs, f.items ≠ []) : ∀ g ∈ gs, g.items ≠ [] := by
  intro g hg
  obtain ⟨f, hf, -, -, rfl | ⟨-, -, hg'⟩⟩ := h.mem hg
  · exact hne g hf
  · exact hg'

theorem tornPart (hrest : ∀ f ∈ fs.tail, f.pos = 0) : tornPart gs = tornPart fs := by
  rcases h.head hrest with ⟨f, fs', gs', rfl, rfl, -⟩ | ⟨hhead, hpos⟩
  · rfl
  · rw [tornPart_of_pos fun g hg => hpos g (List.mem_of_mem_head? hg),
      tornPart_of_pos fun f hf => (hhead f hf).1]

end

theorem copyOk {ring : List MuxFrame} {off : Option Nat} {copyCount copySent : Nat}
    (h : Thinned p copy fs gs) (hc : CopyOk ring off copy copyCount copySent fs)
    (hrest : ∀ f ∈ fs.tail, f.pos = 0) : CopyOk ring off copy copyCount copySent gs := by
  cases copy with
  | false =>
    intro g hg
    obtain ⟨f, hf, -, heq, -⟩ := h.mem hg
    rw [heq, hc f hf]
  | true =>
    obtain ⟨k, orig, head, rest, hoff, horig, rfl, hhead, hitems, hcount, hlt, hnocopy⟩ := hc
    rcases h.head hrest with ⟨f, fs', gs', hfs, rfl, h'⟩ | ⟨hno, -⟩
    · obtain ⟨rfl, rfl⟩ := List.cons.inj hfs
      refine ⟨k, orig, head, gs', hoff, horig, rfl, hhead, hitems, hcount, hlt, fun g hg => ?_⟩
      obtain ⟨f, hf, -, heq, -⟩ := h'.mem hg
      rw [heq, hnocopy f hf]
    · simpa [hhead] using hno head rfl

theorem bufOk {oobbuf dgrambuf : List MuxFrame} {staging staging' : Bool} (h : Thinned p copy fs gs)
    (hb : BufOk fs oobbuf dgrambuf staging)
    (hstaging : staging' = true → ∃ tail ∈ gs.getLast?, tail.pos = 0 ∧ tail.isCopy = false) :
    BufOk gs oobbuf dgrambuf staging' where
  __ := hb
  nonempty := h.nonempty hb.nonempty
  head g hg := by
    rcases h.head hb.rest with ⟨f, fs', gs', rfl, rfl, -⟩ | ⟨-, hpos⟩
    · exact hb.head g hg
    · have hmem := List.mem_of_mem_head? hg
      rw [hpos g hmem]
      exact MuxFrame.len_pos (h.nonempty hb.nonempty g hmem)
  rest g hg := by
    rcases h.head hb.rest with ⟨f, fs', gs', rfl, rfl, h'⟩ | ⟨-, hpos⟩
    · exact h'.pos_eq hb.rest g hg
    · exact hpos g (List.mem_of_mem_tail hg)
  staging := hstaging

end Thinned

namespace Session

theorem discardKeep_cases (ss : Session) (id : UInt16) (isHead : Bool) (f : MuxFrame) :
    ss.discardKeep id isHead f = some f ∨
      f.pos = 0 ∧ (ss.retransmitCopy && f.isCopy) = false ∧
        (f.items.filter (survives id) = [] ∧ ss.discardKeep id isHead f = none ∨
          f.items.filter (survives id) ≠ [] ∧
            ss.discardKeep id isHead f = some { f with items := f.items.filter (survives id) }) := by
  unfold discardKeep
  by_cases hmay : ss.mayDiscard isHead f = true
  · right
    have hmay' := hmay
    simp only [mayDiscard, Bool.and_eq_true, Bool.not_eq_true', beq_iff_eq] at hmay'
    refine ⟨hmay'.1.1, hmay'.2, ?_⟩
    rw [if_pos hmay, discardEntry]
    split
    next hnil => exact .inl ⟨by simpa using hnil, rfl⟩
    next hne => exact .inr ⟨fun h => hne (by simp [h]), rfl⟩
  · exact .inl (if_neg hmay)

variable {ss : Session} {id : UInt16}

theorem thinned_cons (isHead : Bool) (f : MuxFrame) {fs gs : List MuxFrame}
    (h : Thinned (survives id) ss.retransmitCopy fs gs) :
    Thinned (survives id) ss.retransmitCopy (f :: fs) ((ss.discardKeep id isHead f).toList ++ gs) := by
  rcases ss.discardKeep_cases id isHead f with heq | ⟨hpos, hcopy, ⟨hnil, heq⟩ | ⟨hne, heq⟩⟩
  · rw [heq]
    exact .keep f h
  · rw [heq]
    exact .drop f hpos hcopy hnil h
  · rw [heq]
    exact .thin f hpos hcopy hne h

theorem thinned_filterMap (ss : Session) (id : UInt16) (fs : List MuxFrame) :
    Thinned (survives id) ss.retransmitCopy fs (fs.filterMap (ss.discardKeep id false)) := by
  induction fs with
  | nil => exact .nil
  | cons f fs ih =>
    have := thinned_cons false f ih
    cases hk : ss.discardKeep id false f <;> simpa [List.filterMap_cons, hk] using this

theorem discardKeep_some {isHead : Bool} {f g : MuxFrame} (h : ss.discardKeep id isHead f = some g) :
    g.pos = f.pos ∧ g.isCopy = f.isCopy ∧ ∀ i ∈ g.items, i ∈ f.items := by
  rcases ss.discardKeep_cases id isHead f with heq | ⟨-, -, ⟨-, heq⟩ | ⟨-, heq⟩⟩
  · obtain rfl := Option.some.inj (heq.symm.trans h)
    exact ⟨rfl, rfl, fun _ hi => hi⟩
  · simp [heq] at h
  · obtain rfl := Option.some.inj (heq.symm.trans h)
    exact ⟨rfl, rfl, fun _ hi => (List.mem_filter.mp hi).1⟩

theorem discardSendbuf_tail (hstaging : (ss.discardSendbuf id).sendbufStaging = true) {tail : MuxFrame}
    (htail : ss.sendbuf.getLast? = some tail) :
    ∃ tail', (ss.discardSendbuf id).sendbuf.getLast? = some tail' ∧ tail'.pos = tail.pos ∧
      tail'.isCopy = tail.isCopy ∧ ∀ i ∈ tail'.items, i ∈ tail.items := by
  simp only [discardSendbuf, Bool.and_eq_true, Bool.not_eq_true'] at hstaging
  have hkept := hstaging.2
  rw [htail] at hkept
  obtain ⟨g, hg⟩ : ∃ g, ss.discardKeep id (ss.sendbuf.length == 1) tail = some g :=
    Option.isSome_iff_exists.mp (by simpa using hkept)
  refine ⟨g, ?_, discardKeep_some hg⟩
  obtain ⟨init, hinit⟩ := List.getLast?_eq_some_iff.mp htail
  unfold discardSendbuf
  rw [hinit] at hg ⊢
  cases init with
  | nil =>
    have hg' : ss.discardKeep id true tail = some g := by simpa using hg
    show List.getLast? ((ss.discardKeep id true tail).toList ++ []) = some g
    rw [hg']
    rfl
  | cons head rest =>
    have hg' : ss.discardKeep id false tail = some g := by simpa using hg
    have hlast : (rest ++ [tail]).filterMap (ss.discardKeep id false)
        = rest.filterMap (ss.discardKeep id false) ++ [g] := by
      simp [List.filterMap_append, hg']
    show List.getLast? (_ ++ (rest ++ [tail]).filterMap (ss.discardKeep id false)) = some g
    rw [hlast]
    simp

/-- `discard_stream_frames_from` on the send buffer. -/
theorem discardSendbuf_spec (ss : Session) (id : UInt16)
    (h : BufOk ss.sendbuf ss.oobbuf ss.dgrambuf ss.sendbufStaging) :
    ∃ sendbuf staging, Thinned (survives id) ss.retransmitCopy ss.sendbuf sendbuf ∧
      BufOk sendbuf ss.oobbuf ss.dgrambuf staging ∧
      (staging = true → ss.sendbufStaging = true ∧ ∃ tail tail', ss.sendbuf.getLast? = some tail ∧
        sendbuf.getLast? = some tail' ∧ ∀ i ∈ tail'.items, i ∈ tail.items) ∧
      ss.discardSendbuf id = { ss with sendbuf := sendbuf, sendbufStaging := staging } := by
  have hthin : Thinned (survives id) ss.retransmitCopy ss.sendbuf (ss.discardSendbuf id).sendbuf := by
    unfold discardSendbuf
    cases ss.sendbuf with
    | nil => exact .nil
    | cons head rest => exact thinned_cons true head (ss.thinned_filterMap id rest)
  have hkeep (hs : (ss.discardSendbuf id).sendbufStaging = true) : ss.sendbufStaging = true := by
    simp only [discardSendbuf, Bool.and_eq_true] at hs
    exact hs.1
  refine ⟨_, _, hthin, hthin.bufOk h fun (hs : (ss.discardSendbuf id).sendbufStaging = true) => ?_,
    fun hs => ⟨hkeep hs, ?_⟩, rfl⟩
  · obtain ⟨tail, htail, hpos, hcopy⟩ := h.staging (hkeep hs)
    obtain ⟨tail', htail', hpos', hcopy', -⟩ := discardSendbuf_tail hs htail
    exact ⟨tail', htail', hpos'.trans hpos, hcopy'.trans hcopy⟩
  · obtain ⟨tail, htail, -⟩ := h.staging (hkeep hs)
    obtain ⟨tail', htail', -, -, hitems⟩ := discardSendbuf_tail hs htail
    exact ⟨tail, tail', htail, htail', hitems⟩

end Session

end Multiplexd
