import Mathlib.Data.List.Induction
import Multiplexd.Lib.Links
import Multiplexd.Mux.Subframes

/-!
# Withdrawing the frames of a reset stream

`discard_stream_frames_from` walks a list of packed entries with two pointers, measures each entry, moves
the frames that stay down over those that go, and takes an entry out of the list when nothing of it stays.
The walk is written here over the nodes of the list, their links and their bytes. On lists that hold the
send buffer and the out-of-band buffer of a session it leaves lists that hold what
`Session.discardStreamFrames` computes on the frames.
-/

namespace Multiplexd

open Session

/-- Where a `struct mux_frame` lies. -/
abbrev FrameAddr := Nat

/-- The fields of the nodes: `data[0..len)`, `pos` and `next`. -/
structure FrameHeap where
  data : FrameAddr → List UInt8
  pos : FrameAddr → Nat
  next : FrameAddr → Option FrameAddr

/-- `struct mux_frame_list`. -/
structure FrameList where
  ends : Ends FrameAddr
  count : Nat

def FrameList.removeAfter (heap : FrameHeap) (list : FrameList) (prev : Option FrameAddr) :
    FrameHeap × FrameList :=
  let target :=
    match prev with
    | some p => heap.next p
    | none => list.ends.head
  match target with
  | none => (heap, list)
  | some frame =>
    ({ heap with next := Ends.removeNext heap.next prev frame },
      ⟨list.ends.remove heap.next prev frame, list.count - 1⟩)

/-- A frame that `discard_stream_frames_from` leaves in place. -/
def headerSurvives (streamId : UInt16) (hdr : Header) : Bool :=
  !(hdr.streamId == streamId && !hasFlag hdr.flags flagRst)

/-- The first pass: the bytes that stay, or `none` for a layout that does not add up. -/
def measureLoop (streamId : UInt16) : Nat → List UInt8 → Nat → Option Nat
  | 0, _, kept => some kept
  | fuel + 1, src, kept =>
    match readHeader src with
    | none => some kept
    | some hdr =>
      if src.length < frameHeaderSize + hdr.length then none
      else
        measureLoop streamId fuel (src.drop (frameHeaderSize + hdr.length))
          (if headerSurvives streamId hdr then kept + (frameHeaderSize + hdr.length) else kept)

/-- `memmove` inside one buffer. -/
def memmove (buf : List UInt8) (dst src n : Nat) : List UInt8 :=
  buf.take dst ++ ((buf.drop src).take n ++ buf.drop (dst + n))

def moveLoop (streamId : UInt16) : Nat → List UInt8 → Nat → Nat → List UInt8 × Nat
  | 0, buf, _, dst => (buf, dst)
  | fuel + 1, buf, src, dst =>
    match readHeader (buf.drop src) with
    | none => (buf, dst)
    | some hdr =>
      let n := frameHeaderSize + hdr.length
      if headerSurvives streamId hdr then
        moveLoop streamId fuel (if dst ≠ src then memmove buf dst src n else buf) (src + n) (dst + n)
      else moveLoop streamId fuel buf (src + n) dst

/-- What the walk reads besides the list. -/
structure DiscardCtx where
  isSendbuf : Bool
  sendBlocked : Bool
  tls : Bool
  retransmitCopy : Option FrameAddr

/-- What the walk changes. `pool` collects the nodes given back. -/
structure Walk where
  heap : FrameHeap
  list : FrameList
  staging : Bool
  pool : List FrameAddr

namespace Walk

/-- One turn of `discard_stream_frames_from`, and the node it leaves as `prev`. -/
def discardOne (c : DiscardCtx) (streamId : UInt16) (w : Walk) (prev : Option FrameAddr) (frame : FrameAddr) :
    Walk × Option FrameAddr :=
  let data := w.heap.data frame
  if w.heap.pos frame ≠ 0 ∨ data.length < frameHeaderSize then (w, some frame)
  -- the TLS library may hold the head and must be offered the same bytes again
  else if c.isSendbuf && c.sendBlocked && (w.list.ends.head == some frame) && c.tls then (w, some frame)
  else if c.isSendbuf && (c.retransmitCopy == some frame) then (w, some frame)
  else
    match measureLoop streamId data.length data 0 with
    | none => (w, some frame)
    | some kept =>
      if kept = data.length then (w, some frame)
      else if 0 < kept then
        let (buf, dst) := moveLoop streamId data.length data 0 0
        ({ w with heap := { w.heap with data := Function.update w.heap.data frame (buf.take dst) } },
          some frame)
      else
        let openTail := c.isSendbuf && w.staging && (w.list.ends.tail == some frame)
        let (heap, list) := w.list.removeAfter w.heap prev
        (⟨heap, list, if openTail then false else w.staging, w.pool ++ [frame]⟩, prev)

def discardLoop (c : DiscardCtx) (streamId : UInt16) : Nat → Walk → Option FrameAddr → Option FrameAddr → Walk
  | fuel + 1, w, prev, some frame =>
    let next := w.heap.next frame
    let (w, prev) := w.discardOne c streamId prev frame
    discardLoop c streamId fuel w prev next
  | _, w, _, _ => w

def discardStreamFramesFrom (c : DiscardCtx) (streamId : UInt16) (w : Walk) : Walk :=
  discardLoop c streamId w.list.count w none w.list.ends.head

end Walk

structure Egress where
  heap : FrameHeap
  sendbuf : FrameList
  oobbuf : FrameList
  sendbufStaging : Bool
  sendBlocked : Bool
  tls : Bool
  retransmitCopy : Option FrameAddr
  pool : List FrameAddr

namespace Egress

def ctx (m : Egress) (isSendbuf : Bool) : DiscardCtx := ⟨isSendbuf, m.sendBlocked, m.tls, m.retransmitCopy⟩

/-- `discard_stream_frames_from` on the send buffer. -/
def discardSendbuf (m : Egress) (streamId : UInt16) : Egress :=
  let w := (⟨m.heap, m.sendbuf, m.sendbufStaging, m.pool⟩ : Walk).discardStreamFramesFrom (m.ctx true) streamId
  { m with heap := w.heap, sendbuf := w.list, sendbufStaging := w.staging, pool := w.pool }

/-- `discard_stream_frames_from` on the out-of-band buffer. -/
def discardOobbuf (m : Egress) (streamId : UInt16) : Egress :=
  let w := (⟨m.heap, m.oobbuf, m.sendbufStaging, m.pool⟩ : Walk).discardStreamFramesFrom (m.ctx false) streamId
  { m with heap := w.heap, oobbuf := w.list, sendbufStaging := w.staging, pool := w.pool }

def discardStreamFrames (m : Egress) (streamId : UInt16) : Egress :=
  (m.discardSendbuf streamId).discardOobbuf streamId

end Egress

theorem headerSurvives_header (streamId : UInt16) (i : Item) :
    headerSurvives streamId i.frame.header = survives streamId i := rfl

theorem frameHeaderSize_add_length (f : Frame) : frameHeaderSize + f.header.length = f.encode.length := by
  rw [Frame.encode_length]
  rfl

variable {fuel dst src n : Nat} {buf : List UInt8}

theorem measureLoop_itemBytes (streamId : UInt16) (is : List Item) (hfuel : is.length ≤ fuel) (kept : Nat) :
    measureLoop streamId fuel (itemBytes is) kept =
      some (kept + (itemBytes (is.filter (survives streamId))).length) := by
  induction is generalizing fuel kept with
  | nil => cases fuel <;> simp [measureLoop, readHeader_nil]
  | cons i is ih =>
    obtain ⟨fuel, rfl⟩ : ∃ k, fuel = k + 1 := ⟨fuel - 1, by simp only [List.length_cons] at hfuel; omega⟩
    rw [measureLoop, itemBytes_cons, readHeader_encode_append]
    dsimp only
    rw [frameHeaderSize_add_length, if_neg (by simp), List.drop_left, ih (by simpa using hfuel),
      headerSurvives_header, List.filter_cons]
    split
    · rw [itemBytes_cons, List.length_append, Nat.add_assoc]
    · rfl

theorem itemBytes_length_le (is : List Item) : is.length ≤ (itemBytes is).length := by
  rw [itemBytes]
  exact Nat.le_trans (Nat.le_of_eq (List.length_map _).symm) (frameCode.length_le_encodeAll _)

theorem itemBytes_length_pos {is : List Item} (h : is ≠ []) : frameHeaderSize ≤ (itemBytes is).length := by
  cases is with
  | nil => exact absurd rfl h
  | cons i is =>
    rw [itemBytes_cons, List.length_append, ← frameHeaderSize_add_length]
    omega

theorem itemBytes_filter_le (p : Item → Bool) (is : List Item) :
    (itemBytes (is.filter p)).length ≤ (itemBytes is).length := by
  induction is with
  | nil => exact Nat.le_refl _
  | cons i is ih =>
    rw [List.filter_cons]
    split <;> simp only [itemBytes_cons, List.length_append] <;> omega

theorem itemBytes_filter_eq_iff (p : Item → Bool) (is : List Item) :
    (itemBytes (is.filter p)).length = (itemBytes is).length ↔ is.filter p = is := by
  refine ⟨fun h => ?_, fun h => by rw [h]⟩
  induction is with
  | nil => rfl
  | cons i is ih =>
    have hpos := List.length_pos_of_ne_nil i.frame.encode_ne_nil
    have hle := itemBytes_filter_le p is
    rw [List.filter_cons] at h ⊢
    split at h
    next hp =>
      rw [if_pos hp, ih (by simpa using h)]
    next =>
      rw [itemBytes_cons, List.length_append] at h
      omega

theorem memmove_drop (hle : dst ≤ src) (hlen : src + n ≤ buf.length) :
    (memmove buf dst src n).drop (src + n) = buf.drop (src + n) := by
  have hhead : (buf.take dst).length = dst := by
    rw [List.length_take]
    omega
  have hmoved : ((buf.drop src).take n).length = n := by
    rw [List.length_take, List.length_drop]
    omega
  rw [memmove, ← List.append_assoc, List.drop_append, List.length_append, hhead, hmoved,
    List.drop_eq_nil_of_le (by rw [List.length_append, hhead, hmoved]; omega), List.nil_append, List.drop_drop]
  congr 1
  omega

theorem memmove_take (hle : dst ≤ src) (hlen : src + n ≤ buf.length) :
    (memmove buf dst src n).take (dst + n) = buf.take dst ++ (buf.drop src).take n := by
  have hlength : (buf.take dst ++ (buf.drop src).take n).length = dst + n := by
    rw [List.length_append, List.length_take, List.length_take, List.length_drop]
    omega
  rw [memmove, ← List.append_assoc, List.take_append_of_le_length (by omega), ← hlength, List.take_length]

theorem moveLoop_take (streamId : UInt16) (is : List Item) (hfuel : is.length ≤ fuel) (hle : dst ≤ src) (hrest : buf.drop src = itemBytes is) :
    (moveLoop streamId fuel buf src dst).1.take (moveLoop streamId fuel buf src dst).2 =
      buf.take dst ++ itemBytes (is.filter (survives streamId)) := by
  induction is generalizing fuel buf src dst with
  | nil =>
    rw [itemBytes_nil] at hrest
    cases fuel <;> simp [moveLoop, hrest, readHeader_nil]
  | cons i is ih =>
    obtain ⟨fuel, rfl⟩ : ∃ k, fuel = k + 1 := ⟨fuel - 1, by simp only [List.length_cons] at hfuel; omega⟩
    have hfuel' : is.length ≤ fuel := by simpa using hfuel
    have hend : src + i.frame.encode.length ≤ buf.length := by
      have hlen := congrArg List.length hrest
      rw [List.length_drop, itemBytes_cons, List.length_append] at hlen
      have hpos := List.length_pos_of_ne_nil i.frame.encode_ne_nil
      omega
    have hnext : buf.drop (src + i.frame.encode.length) = itemBytes is := by
      rw [← List.drop_drop, hrest, itemBytes_cons, List.drop_left]
    have hread : readHeader (buf.drop src) = some i.frame.header := by
      rw [hrest, itemBytes_cons, readHeader_encode_append]
    have hfront : (buf.drop src).take i.frame.encode.length = i.frame.encode := by
      rw [hrest, itemBytes_cons, List.take_left]
    rw [moveLoop, hread]
    dsimp only
    rw [frameHeaderSize_add_length, headerSurvives_header, List.filter_cons]
    by_cases hkeep : survives streamId i = true
    · rw [if_pos hkeep, if_pos hkeep]
      by_cases hmove : dst ≠ src
      · rw [if_pos hmove, ih hfuel' (by omega) (by rw [memmove_drop hle hend, hnext]), memmove_take hle hend,
          hfront, itemBytes_cons, List.append_assoc]
      · have heq : dst = src := by omega
        subst heq
        rw [if_neg hmove, ih hfuel' (Nat.le_refl _) hnext, List.take_add, hfront, itemBytes_cons,
          List.append_assoc]
    · rw [if_neg hkeep, if_neg hkeep, ih hfuel' (by omega) hnext]

/-! ### Lists that hold entries -/

/-- An entry and the node it lies in. -/
structure FrameNode where
  addr : FrameAddr
  frame : MuxFrame

structure FrameList.Holds (heap : FrameHeap) (list : FrameList) (ns : List FrameNode) : Prop where
  spans : list.ends.Spans heap.next (ns.map FrameNode.addr)
  count : list.count = ns.length
  data : ∀ n ∈ ns, heap.data n.addr = n.frame.bytes
  pos : ∀ n ∈ ns, heap.pos n.addr = n.frame.pos
  nonempty : ∀ n ∈ ns, n.frame.items ≠ []

/-- Two heaps agree about a node. -/
def FrameHeap.SameAt (heap heap' : FrameHeap) (a : FrameAddr) : Prop :=
  heap'.data a = heap.data a ∧ heap'.pos a = heap.pos a ∧ heap'.next a = heap.next a

/-- The last node of a run. -/
def lastAddr (ns : List FrameNode) : Option FrameAddr := (ns.map FrameNode.addr).getLast?

namespace FrameList.Holds

variable {heap heap' : FrameHeap} {list : FrameList} {ns done rest : List FrameNode} {n : FrameNode}

/-- A list no node of which has been written. -/
theorem congr (h : list.Holds heap ns) (heq : ∀ n ∈ ns, heap.SameAt heap' n.addr) : list.Holds heap' ns where
  __ := h
  spans := h.spans.congr fun a ha => by
    obtain ⟨n, hn, rfl⟩ := List.mem_map.mp ha
    exact (heq n hn).2.2
  data n hn := (heq n hn).1.trans (h.data n hn)
  pos n hn := (heq n hn).2.1.trans (h.pos n hn)

section

variable (h : list.Holds heap (done ++ n :: rest))
include h

theorem addr_notMem {m : FrameNode} (hm : m ∈ done ++ rest) :
    m.addr ≠ n.addr := by
  have hnodup := h.spans.nodup
  rw [List.map_append, List.map_cons, List.nodup_middle, ← List.map_append, List.nodup_cons] at hnodup
  exact fun heq => hnodup.1 (heq ▸ List.mem_map_of_mem hm)

/-- The first node is the head. -/
theorem head_beq :
    (list.ends.head == some n.addr) = done.isEmpty := by
  rw [h.spans.head]
  cases done with
  | nil => simp
  | cons m done => simpa using h.addr_notMem (m := m) (by simp)

theorem tail_beq :
    (list.ends.tail == some n.addr) = rest.isEmpty := by
  rw [h.spans.tail]
  rcases List.eq_nil_or_concat rest with rfl | ⟨init, m, rfl⟩
  · simp
  · have hne := h.addr_notMem (m := m) (by simp)
    have hlast : ((done ++ n :: init.concat m).map FrameNode.addr).getLast? = some m.addr := by
      have hsplit : done ++ n :: init.concat m = (done ++ n :: init) ++ [m] := by simp
      rw [hsplit, List.map_append, List.map_singleton, List.getLast?_concat]
    have hother : (some m.addr == some n.addr) = false := by simpa using hne
    rw [hlast, hother]
    cases init <;> rfl

theorem next_eq : heap.next n.addr = rest.head?.map FrameNode.addr := by
  have hlinked := h.spans.linked
  rw [List.map_append, List.map_cons] at hlinked
  rw [hlinked.head_eq, List.head?_map]

/-- The frames of one entry change in place. -/
theorem rewrite {items : List Item} (hne : items ≠ []) :
    list.Holds { heap with data := Function.update heap.data n.addr (itemBytes items) }
      (done ++ ⟨n.addr, { n.frame with items := items }⟩ :: rest) := by
  have hmem {m : FrameNode} (hm : m ∈ done ++ ⟨n.addr, { n.frame with items := items }⟩ :: rest) :
      m = ⟨n.addr, { n.frame with items := items }⟩ ∨ m ∈ done ++ rest := by
    simp only [List.mem_append, List.mem_cons] at hm ⊢
    tauto
  have hold {m : FrameNode} (hm : m ∈ done ++ rest) : m ∈ done ++ n :: rest := by
    simp only [List.mem_append, List.mem_cons] at hm ⊢
    tauto
  refine ⟨by simpa using h.spans, by simpa using h.count, fun m hm => ?_, fun m hm => ?_, fun m hm => ?_⟩
  · rcases hmem hm with rfl | hm
    · exact Function.update_self ..
    · exact (Function.update_of_ne (h.addr_notMem hm) ..).trans (h.data m (hold hm))
  · rcases hmem hm with rfl | hm
    · exact h.pos n (by simp)
    · exact h.pos m (hold hm)
  · rcases hmem hm with rfl | hm
    · exact hne
    · exact h.nonempty m (hold hm)

theorem removeAfter :
    let r := list.removeAfter heap (lastAddr done)
    r.2.Holds r.1 (done ++ rest) ∧
      ∀ a ∉ (done ++ n :: rest).map FrameNode.addr, heap.SameAt r.1 a := by
  have hold {m : FrameNode} (hm : m ∈ done ++ rest) : m ∈ done ++ n :: rest := by
    simp only [List.mem_append, List.mem_cons] at hm ⊢
    tauto
  have hremove : list.removeAfter heap (lastAddr done) =
      ({ heap with next := Ends.removeNext heap.next (lastAddr done) n.addr },
        ⟨list.ends.remove heap.next (lastAddr done) n.addr, list.count - 1⟩) := by
    unfold FrameList.removeAfter lastAddr
    rcases List.eq_nil_or_concat done with rfl | ⟨init, p, rfl⟩
    · simp [h.spans.head]
    · have hlinked := h.spans.linked
      simp only [List.concat_eq_append, List.map_append, List.map_cons, List.append_assoc,
        List.singleton_append] at hlinked
      simp [hlinked.head_eq]
  have hspans := h.spans
  rw [List.map_append, List.map_cons] at hspans
  rw [hremove]
  refine ⟨⟨?_, ?_, fun m hm => h.data m (hold hm), fun m hm => h.pos m (hold hm),
    fun m hm => h.nonempty m (hold hm)⟩, fun a ha => ⟨rfl, rfl, ?_⟩⟩
  · rw [List.map_append]
    exact hspans.remove
  · have hcount := h.count
    simp only [List.length_append, List.length_cons] at hcount ⊢
    omega
  · rw [List.map_append, List.map_cons] at ha
    exact Ends.removeNext_of_notMem ha

end

end FrameList.Holds

namespace DiscardCtx

variable (c : DiscardCtx) (streamId : UInt16)

def may (isHead : Bool) (n : FrameNode) : Bool :=
  n.frame.pos == 0 && !(c.isSendbuf && c.sendBlocked && isHead && c.tls) &&
    !(c.isSendbuf && (c.retransmitCopy == some n.addr))

/-- What is left of an entry. -/
def keep (isHead : Bool) (n : FrameNode) : Option FrameNode :=
  if c.may isHead n then (discardEntry streamId n.frame).map (FrameNode.mk n.addr) else some n

/-- What is left of a list. -/
def filter : List FrameNode → List FrameNode
  | [] => []
  | n :: ns => (c.keep streamId true n).toList ++ ns.filterMap (c.keep streamId false)

/-- What is left of a list, as the walk goes: an entry is the head as long as nothing in front of it is
left. -/
def walk : List FrameNode → List FrameNode → List FrameNode
  | done, [] => done
  | done, n :: rest => walk (done ++ (c.keep streamId done.isEmpty n).toList) rest

/-- A list of which nothing is taken. -/
def Fixed (ns : List FrameNode) : Prop :=
  (∀ n ∈ ns.head?, c.keep streamId true n = some n) ∧ ∀ n ∈ ns.tail, c.keep streamId false n = some n

variable {c streamId} {n m : FrameNode} {ns : List FrameNode}

variable (c streamId) in
theorem keep_true (n : FrameNode) :
    c.keep streamId true n = some n ∨ ∀ m, c.keep streamId true m = c.keep streamId false m := by
  by_cases hguard : (c.isSendbuf && c.sendBlocked && c.tls) = true
  · left
    simp only [Bool.and_eq_true] at hguard
    simp [keep, may, hguard]
  · right
    intro m
    have hmay : c.may true m = c.may false m := by
      rw [Bool.not_eq_true] at hguard
      simp only [may, Bool.and_true, Bool.and_false, Bool.false_and, hguard]
    rw [keep, keep, hmay]

theorem walk_cons (n : FrameNode) (done rest : List FrameNode) :
    c.walk streamId (n :: done) rest = n :: done ++ rest.filterMap (c.keep streamId false) := by
  induction rest generalizing done with
  | nil => simp [walk]
  | cons m rest ih =>
    rw [walk, List.isEmpty_cons, List.cons_append, ih, List.filterMap_cons]
    cases c.keep streamId false m <;> simp

theorem walk_nil (ns : List FrameNode) : c.walk streamId [] ns = c.filter streamId ns := by
  cases ns with
  | nil => rfl
  | cons n rest =>
    rw [walk, filter, List.isEmpty_nil, List.nil_append]
    cases hkeep : c.keep streamId true n with
    | some n' => exact walk_cons n' [] rest
    | none =>
      rcases keep_true c streamId n with hstay | heq
      · rw [hstay] at hkeep
        contradiction
      · simp only [Option.toList_none, List.nil_append]
        induction rest with
        | nil => rfl
        | cons m rest ih =>
          rw [walk, List.isEmpty_nil, heq, List.nil_append, List.filterMap_cons]
          cases c.keep streamId false m with
          | none => exact ih
          | some m' => exact walk_cons m' [] rest

variable {b : Bool}

theorem keep_addr (h : c.keep streamId b n = some m) : m.addr = n.addr := by
  unfold keep at h
  split at h
  · obtain ⟨f, -, rfl⟩ := Option.map_eq_some_iff.mp h
    rfl
  · rw [Option.some.inj h]

theorem keep_isCopy (h : c.keep streamId b n = some m) : m.frame.isCopy = n.frame.isCopy := by
  unfold keep discardEntry at h
  grind

theorem exists_of_mem_filter (h : m ∈ c.filter streamId ns) : ∃ n ∈ ns, ∃ b, c.keep streamId b n = some m := by
  cases ns with
  | nil => contradiction
  | cons n ns =>
    rw [filter, List.mem_append, Option.mem_toList, List.mem_filterMap] at h
    rcases h with h | ⟨n', hn', h⟩
    · exact ⟨n, by simp, true, h⟩
    · exact ⟨n', by simp [hn'], false, h⟩

/-- What is left of an entry is left alone. -/
theorem keep_keep (h : c.keep streamId b n = some m) : c.keep streamId b m = some m := by
  by_cases hmay : c.may b n = true
  · rw [keep, if_pos hmay, discardEntry] at h
    split at h
    · contradiction
    next hkept =>
      obtain rfl := Option.some.inj h
      have hmay' : c.may b ⟨n.addr, { n.frame with items := n.frame.items.filter (survives streamId) }⟩
          = true := hmay
      rw [keep, if_pos hmay', discardEntry]
      simp only [List.filter_filter, Bool.and_self]
      rw [if_neg hkept]
      rfl
  · rw [keep, if_neg hmay] at h
    obtain rfl := Option.some.inj h
    rw [keep, if_neg hmay]

theorem filter_fixed (ns : List FrameNode) : c.Fixed streamId (c.filter streamId ns) := by
  have hrest (ns : List FrameNode) : ∀ m ∈ ns.filterMap (c.keep streamId false), c.keep streamId false m = some m := by
    intro m hm
    obtain ⟨n, -, hkeep⟩ := List.mem_filterMap.mp hm
    exact keep_keep hkeep
  cases ns with
  | nil => exact ⟨by simp [filter], by simp [filter]⟩
  | cons n rest =>
    rw [filter]
    cases hkeep : c.keep streamId true n with
    | some n' => exact ⟨by simpa using keep_keep hkeep, by simpa using hrest rest⟩
    | none =>
      rcases keep_true c streamId n with hstay | heq
      · rw [hstay] at hkeep
        contradiction
      · simp only [Option.toList_none, List.nil_append]
        exact ⟨fun m hm => (heq m).trans (hrest rest m (List.mem_of_mem_head? hm)),
          fun m hm => hrest rest m (List.mem_of_mem_tail hm)⟩

variable (c streamId) in
theorem filter_concat (ns : List FrameNode) (n : FrameNode) :
    c.filter streamId (ns ++ [n]) = c.filter streamId ns ++ (c.keep streamId ns.isEmpty n).toList := by
  cases ns with
  | nil => simp [filter]
  | cons m ns =>
    rw [List.cons_append, filter, filter, List.filterMap_append, List.isEmpty_cons, List.append_assoc]
    cases h : c.keep streamId false n <;> simp [h]

variable (c streamId) in
theorem filter_addr (ns : List FrameNode) :
    ((c.filter streamId ns).map FrameNode.addr).Sublist (ns.map FrameNode.addr) := by
  induction ns using List.reverseRecOn with
  | nil => exact List.Sublist.slnil
  | append_singleton ns n ih =>
    rw [filter_concat, List.map_append, List.map_append]
    refine ih.append ?_
    cases hkeep : c.keep streamId ns.isEmpty n with
    | none => exact List.nil_sublist _
    | some m =>
      rw [Option.toList_some, List.map_singleton, keep_addr hkeep]
      exact List.Sublist.refl _

variable (c streamId) in
def surviving (isHead : Bool) (n : FrameNode) : List Item :=
  if c.may isHead n then n.frame.items.filter (survives streamId) else n.frame.items

theorem keep_items (b : Bool) (n : FrameNode) :
    ((c.keep streamId b n).toList.flatMap fun m => m.frame.items) = c.surviving streamId b n := by
  unfold keep surviving
  split
  · unfold discardEntry
    dsimp only
    split
    next hkept => simp [List.isEmpty_iff.mp hkept]
    next => simp
  · simp

variable (c streamId) in
/-- Nothing but the frames withdrawn is lost, and the order stays. -/
theorem filter_items (ns : List FrameNode) :
    ((c.filter streamId ns).flatMap fun n => n.frame.items) =
      (ns.head?.toList.flatMap (c.surviving streamId true)) ++ ns.tail.flatMap (c.surviving streamId false) := by
  cases ns with
  | nil => rfl
  | cons n ns =>
    rw [filter, List.flatMap_append, keep_items]
    congr 1
    · simp
    · induction ns with
      | nil => rfl
      | cons m ns ih =>
        rw [List.tail_cons] at ih ⊢
        rw [List.flatMap_cons, ← ih, ← keep_items, List.filterMap_cons]
        cases c.keep streamId false m <;> simp

end DiscardCtx

namespace Walk

variable {c : DiscardCtx} {streamId : UInt16} {w : Walk} {ns done rest : List FrameNode} {n : FrameNode}

variable (c streamId) in
/-- The guards of a turn in terms of the entry. -/
theorem discardOne_of_not_may (h : w.list.Holds w.heap ns) (hn : n ∈ ns) (prev : Option FrameAddr)
    (hmay : c.may (w.list.ends.head == some n.addr) n = false) :
    w.discardOne c streamId prev n.addr = (w, some n.addr) := by
  unfold discardOne
  dsimp only
  by_cases hpos : w.heap.pos n.addr ≠ 0 ∨ (w.heap.data n.addr).length < frameHeaderSize
  · rw [if_pos hpos]
  rw [if_neg hpos]
  rw [not_or, not_not, h.pos n hn] at hpos
  by_cases hblocked : (c.isSendbuf && c.sendBlocked && (w.list.ends.head == some n.addr) && c.tls) = true
  · rw [if_pos hblocked]
  rw [if_neg hblocked]
  have hcopy : (c.isSendbuf && (c.retransmitCopy == some n.addr)) = true := by
    simpa [DiscardCtx.may, hpos.1, hblocked] using hmay
  rw [if_pos hcopy]

variable (c streamId) in
/-- A turn at an entry that may be rewritten. -/
theorem discardOne_of_may (h : w.list.Holds w.heap ns) (hn : n ∈ ns) (prev : Option FrameAddr)
    (hmay : c.may (w.list.ends.head == some n.addr) n = true) :
    w.discardOne c streamId prev n.addr =
      let kept := n.frame.items.filter (survives streamId)
      if kept = n.frame.items then (w, some n.addr)
      else if kept ≠ [] then
        ({ w with heap := { w.heap with data := Function.update w.heap.data n.addr (itemBytes kept) } },
          some n.addr)
      else
        let (heap, list) := w.list.removeAfter w.heap prev
        (⟨heap, list, if c.isSendbuf && w.staging && (w.list.ends.tail == some n.addr) then false else w.staging,
          w.pool ++ [n.addr]⟩, prev) := by
  have hbytes : w.heap.data n.addr = itemBytes n.frame.items := h.data n hn
  have hsize := itemBytes_length_pos (h.nonempty n hn)
  have hfuel := itemBytes_length_le n.frame.items
  simp only [DiscardCtx.may, Bool.and_eq_true, beq_iff_eq, Bool.not_eq_true'] at hmay
  obtain ⟨⟨hpos, hblocked⟩, hcopy⟩ := hmay
  have hguard : ¬ (w.heap.pos n.addr ≠ 0 ∨ (w.heap.data n.addr).length < frameHeaderSize) := by
    rw [h.pos n hn, hbytes]
    omega
  unfold discardOne
  dsimp only
  rw [if_neg hguard, if_neg (by simp [hblocked]), if_neg (by simp [hcopy]), hbytes,
    measureLoop_itemBytes streamId _ hfuel]
  dsimp only
  rw [Nat.zero_add, moveLoop_take streamId _ hfuel (Nat.le_refl 0) (List.drop_zero ..), List.take_zero,
    List.nil_append]
  have hall := itemBytes_filter_eq_iff (survives streamId) n.frame.items
  have hnone : 0 < (itemBytes (n.frame.items.filter (survives streamId))).length ↔
      n.frame.items.filter (survives streamId) ≠ [] :=
    ⟨fun hpos hnil => by simp [hnil] at hpos, fun hne =>
      Nat.lt_of_lt_of_le (by decide) (itemBytes_length_pos hne)⟩
  simp only [hall, hnone]

variable (c streamId) in
/-- One turn: the entry is replaced by what is left of it. -/
theorem discardOne_holds (h : w.list.Holds w.heap (done ++ n :: rest)) :
    let left := c.keep streamId done.isEmpty n
    let r := w.discardOne c streamId (lastAddr done) n.addr
    r.1.list.Holds r.1.heap (done ++ left.toList ++ rest) ∧ r.2 = lastAddr (done ++ left.toList) ∧
      r.1.staging = (w.staging && !(c.isSendbuf && rest.isEmpty && left.isNone)) ∧
      r.1.pool = w.pool ++ (if left.isNone then [n.addr] else []) ∧
      ∀ a ∉ (done ++ n :: rest).map FrameNode.addr, w.heap.SameAt r.1.heap a := by
  have hmem : n ∈ done ++ n :: rest := by simp
  have hhead := h.head_beq
  have hlast (f : MuxFrame) : some n.addr = lastAddr (done ++ [⟨n.addr, f⟩]) := by simp [lastAddr]
  have hsame (a : FrameAddr) : w.heap.SameAt w.heap a := ⟨rfl, rfl, rfl⟩
  dsimp only
  by_cases hmay : c.may done.isEmpty n = true
  · have hturn := discardOne_of_may c streamId h hmem (lastAddr done) (by rwa [hhead])
    generalize hkept : n.frame.items.filter (survives streamId) = kept at hturn
    have hleft : c.keep streamId done.isEmpty n =
        if kept.isEmpty then none else some ⟨n.addr, { n.frame with items := kept }⟩ := by
      rw [DiscardCtx.keep, if_pos hmay, discardEntry, hkept]
      dsimp only
      split <;> rfl
    dsimp only at hturn
    by_cases hall : kept = n.frame.items
    · subst hall
      rw [if_pos rfl] at hturn
      rw [hleft, if_neg (by simpa using h.nonempty n hmem), hturn]
      exact ⟨by simpa using h, hlast _, by simp, by simp, fun a _ => hsame a⟩
    · by_cases hnil : kept = []
      · subst hnil
        rw [if_neg hall, if_neg (by simp)] at hturn
        obtain ⟨hholds, hframe⟩ := h.removeAfter
        rw [hleft, hturn, h.tail_beq]
        refine ⟨by simpa using hholds, by simp, ?_, by simp, hframe⟩
        simp only [List.isEmpty_nil, if_true, Option.isNone_none, Bool.and_true]
        cases c.isSendbuf <;> cases w.staging <;> cases rest.isEmpty <;> rfl
      · rw [if_neg hall, if_pos hnil] at hturn
        rw [hleft, if_neg (by simpa using hnil), hturn]
        refine ⟨by simpa using h.rewrite hnil, hlast _, by simp, by simp, fun a ha => ⟨?_, rfl, rfl⟩⟩
        exact Function.update_of_ne (fun heq => ha (by simp [heq])) ..
  · rw [Bool.not_eq_true] at hmay
    have hturn := discardOne_of_not_may c streamId h hmem (lastAddr done) (by rwa [hhead])
    have hleft : c.keep streamId done.isEmpty n = some n := by
      rw [DiscardCtx.keep, if_neg (by simp [hmay])]
    rw [hleft, hturn]
    exact ⟨by simpa using h, hlast n.frame, by simp, by simp, fun a _ => hsame a⟩

variable (c streamId) in
theorem keep_toList_addr (b : Bool) (n : FrameNode) : ∀ a ∈ (c.keep streamId b n).toList.map FrameNode.addr, a = n.addr := by
  intro a ha
  cases hkeep : c.keep streamId b n with
  | none => simp [hkeep] at ha
  | some m =>
    rw [hkeep] at ha
    rw [List.mem_singleton.mp ha]
    exact DiscardCtx.keep_addr hkeep

theorem staging_step {heap : FrameHeap} {list : FrameList} (h : list.Holds heap (done ++ n :: rest)) (isSendbuf : Bool) :
    let left := c.keep streamId done.isEmpty n
    (!(isSendbuf && rest.isEmpty && left.isNone) &&
        (!isSendbuf || lastAddr (c.walk streamId (done ++ left.toList) rest) == lastAddr (done ++ left.toList ++ rest))) =
      (!isSendbuf || lastAddr (c.walk streamId (done ++ left.toList) rest) == lastAddr (done ++ n :: rest)) := by
  dsimp only
  cases hkeep : c.keep streamId done.isEmpty n with
  | some m =>
    have hlast : lastAddr (done ++ [m] ++ rest) = lastAddr (done ++ n :: rest) := by
      simp [lastAddr, DiscardCtx.keep_addr hkeep]
    rw [Option.toList_some, hlast]
    simp
  | none =>
    cases rest with
    | nil =>
      have hlast : (lastAddr done == lastAddr (done ++ [n])) = false := by
        have hne : lastAddr done ≠ some n.addr := fun heq => by
          obtain ⟨m, hm, haddr⟩ := List.mem_map.mp (List.mem_of_getLast? heq)
          exact h.addr_notMem (by simpa using hm) haddr
        have hnew : lastAddr (done ++ [n]) = some n.addr := by simp [lastAddr]
        rw [hnew]
        exact beq_eq_false_iff_ne.mpr hne
      cases isSendbuf <;> simp [DiscardCtx.walk, hlast]
    | cons m rest =>
      have hlast : lastAddr (done ++ m :: rest) = lastAddr (done ++ n :: m :: rest) := by
        simp only [lastAddr, List.map_append, List.map_cons, List.getLast?_append, List.getLast?_cons_cons]
      simp [hlast]

variable (c streamId) in
/-- The whole walk. -/
theorem discardLoop_holds (done : List FrameNode) {fuel : Nat} (hfuel : rest.length ≤ fuel) (h : w.list.Holds w.heap (done ++ rest)) :
    let r := discardLoop c streamId fuel w (lastAddr done) (rest.head?.map FrameNode.addr)
    let left := c.walk streamId done rest
    r.list.Holds r.heap left ∧
      r.staging = (w.staging && (!c.isSendbuf || lastAddr left == lastAddr (done ++ rest))) ∧
      ∀ a ∉ (done ++ rest).map FrameNode.addr, w.heap.SameAt r.heap a := by
  induction rest generalizing fuel w done with
  | nil =>
    have hstop : discardLoop c streamId fuel w (lastAddr done) none = w := by cases fuel <;> rfl
    simp only [List.head?_nil, Option.map_none, hstop, DiscardCtx.walk, List.append_nil] at h ⊢
    exact ⟨h, by simp, fun a _ => ⟨rfl, rfl, rfl⟩⟩
  | cons n rest ih =>
    obtain ⟨fuel, rfl⟩ : ∃ k, fuel = k + 1 := ⟨fuel - 1, by simp only [List.length_cons] at hfuel; omega⟩
    have hnext : w.heap.next n.addr = rest.head?.map FrameNode.addr := h.next_eq
    obtain ⟨hholds, hprev, hstaging, -, hframe⟩ := discardOne_holds c streamId h
    dsimp only
    rw [List.head?_cons, Option.map_some, discardLoop, DiscardCtx.walk]
    dsimp only
    rw [hnext, hprev]
    obtain ⟨hleft, hstaged, hsame⟩ := ih _ (by simpa using hfuel) hholds
    refine ⟨hleft, ?_, fun a ha => ?_⟩
    · rw [hstaged, hstaging, Bool.and_assoc]
      congr 1
      exact staging_step h _
    · have hnew : a ∉ (done ++ (c.keep streamId done.isEmpty n).toList ++ rest).map FrameNode.addr := by
        have haddr := keep_toList_addr c streamId done.isEmpty n
        intro hmem
        apply ha
        simp only [List.map_append, List.mem_append, List.map_cons, List.mem_cons] at hmem ⊢
        rcases hmem with (hmem | hmem) | hmem
        · exact .inl hmem
        · exact .inr (.inl (haddr a hmem))
        · exact .inr (.inr hmem)
      obtain ⟨hd, hp, hn⟩ := hframe a ha
      obtain ⟨hd', hp', hn'⟩ := hsame a hnew
      exact ⟨hd'.trans hd, hp'.trans hp, hn'.trans hn⟩

theorem discardOne_of_keep (h : w.list.Holds w.heap (done ++ n :: rest))
    (hkeep : c.keep streamId done.isEmpty n = some n) (prev : Option FrameAddr) :
    w.discardOne c streamId prev n.addr = (w, some n.addr) := by
  have hmem : n ∈ done ++ n :: rest := by simp
  by_cases hmay : c.may done.isEmpty n = true
  · have hall : n.frame.items.filter (survives streamId) = n.frame.items := by
      rw [DiscardCtx.keep, if_pos hmay, discardEntry] at hkeep
      split at hkeep
      · contradiction
      · have heq := congrArg (fun n : FrameNode => n.frame.items) (Option.some.inj hkeep)
        exact heq
    rw [discardOne_of_may c streamId h hmem prev (by rwa [h.head_beq])]
    dsimp only
    rw [if_pos hall]
  · exact discardOne_of_not_may c streamId h hmem prev (by rw [h.head_beq]; simpa using hmay)

theorem discardLoop_fixed (done : List FrameNode) (fuel : Nat) (h : w.list.Holds w.heap (done ++ rest))
    (hhead : ∀ n ∈ rest.head?, c.keep streamId done.isEmpty n = some n)
    (htail : ∀ n ∈ rest.tail, c.keep streamId false n = some n) (prev : Option FrameAddr) :
    discardLoop c streamId fuel w prev (rest.head?.map FrameNode.addr) = w := by
  induction rest generalizing fuel done prev with
  | nil => cases fuel <;> rfl
  | cons n rest ih =>
    cases fuel with
    | zero => rfl
    | succ fuel =>
      have hnext : w.heap.next n.addr = rest.head?.map FrameNode.addr := h.next_eq
      rw [List.head?_cons, Option.map_some, discardLoop]
      dsimp only
      rw [discardOne_of_keep h (hhead n (by simp)), hnext]
      refine ih (done ++ [n]) fuel (by simpa using h) (fun m hm => ?_) (fun m hm => ?_) _
      · rw [show (done ++ [n]).isEmpty = false by simp]
        exact htail m (List.mem_of_mem_head? hm)
      · exact htail m (List.mem_of_mem_tail hm)

variable (c streamId) in
theorem discardStreamFramesFrom_spec (h : w.list.Holds w.heap ns) :
    let r := w.discardStreamFramesFrom c streamId
    r.list.Holds r.heap (c.filter streamId ns) ∧
      r.staging = (w.staging && (!c.isSendbuf || lastAddr (c.filter streamId ns) == lastAddr ns)) ∧
      (∀ a ∉ ns.map FrameNode.addr, w.heap.SameAt r.heap a) := by
  have hhead : w.list.ends.head = ns.head?.map FrameNode.addr := by
    rw [h.spans.head, List.head?_map]
  have hloop := discardLoop_holds c streamId [] (Nat.le_of_eq h.count.symm) h
  rw [← hhead, DiscardCtx.walk_nil] at hloop
  exact hloop

theorem discardStreamFramesFrom_fixed (h : w.list.Holds w.heap ns) (hfix : c.Fixed streamId ns) :
    w.discardStreamFramesFrom c streamId = w := by
  have hhead : w.list.ends.head = ns.head?.map FrameNode.addr := by
    rw [h.spans.head, List.head?_map]
  unfold discardStreamFramesFrom
  rw [hhead]
  exact discardLoop_fixed [] _ h hfix.1 hfix.2 none

end Walk

/-! ### Both buffers -/

namespace Egress

variable {m : Egress} {ss : Session} {ns os : List FrameNode} {streamId : UInt16}

structure Holds (m : Egress) (ss : Session) (ns os : List FrameNode) : Prop where
  sendbuf : m.sendbuf.Holds m.heap ns
  oobbuf : m.oobbuf.Holds m.heap os
  apart : ∀ a ∈ ns.map FrameNode.addr, a ∉ os.map FrameNode.addr
  sendbuf_frames : ns.map FrameNode.frame = ss.sendbuf
  oobbuf_frames : os.map FrameNode.frame = ss.oobbuf
  staging : m.sendbufStaging = ss.sendbufStaging
  sendBlocked : m.sendBlocked = ss.sendBlocked
  tls : m.tls = ss.tls
  retransmitCopy : ∀ n ∈ ns, (m.retransmitCopy == some n.addr) = (ss.retransmitCopy && n.frame.isCopy)

theorem Holds.keep_frame (h : m.Holds ss ns os) (streamId : UInt16) (isHead : Bool) {n : FrameNode} (hn : n ∈ ns) :
    ((m.ctx true).keep streamId isHead n).map FrameNode.frame = ss.discardKeep streamId isHead n.frame := by
  have hmay : (m.ctx true).may isHead n = ss.mayDiscard isHead n.frame := by
    simp only [DiscardCtx.may, ctx, mayDiscard, Bool.true_and, h.sendBlocked, h.tls,
      h.retransmitCopy n hn]
  rw [DiscardCtx.keep, discardKeep, hmay]
  split
  · rw [Option.map_map]
    exact Option.map_id' ..
  · rfl

theorem filterMap_frame {keep : FrameNode → Option FrameNode} (keepFrame : MuxFrame → Option MuxFrame) (h : ∀ n ∈ ns, (keep n).map FrameNode.frame = keepFrame n.frame) :
    (ns.filterMap keep).map FrameNode.frame = (ns.map FrameNode.frame).filterMap keepFrame := by
  rw [List.map_filterMap, List.filterMap_map]
  exact List.filterMap_congr h

/-- The frames left in the send buffer. -/
theorem Holds.sendbuf_filter (h : m.Holds ss ns os) :
    ((m.ctx true).filter streamId ns).map FrameNode.frame = (ss.discardSendbuf streamId).sendbuf := by
  have hkeep := h.keep_frame streamId
  unfold Session.discardSendbuf
  dsimp only
  rw [← h.sendbuf_frames]
  cases ns with
  | nil => rfl
  | cons n ns =>
    rw [DiscardCtx.filter, List.map_append, filterMap_frame (ss.discardKeep streamId false) fun m hm => hkeep false (by simp [hm]),
      List.map_cons]
    dsimp only
    rw [← hkeep true (by simp)]
    cases (m.ctx true).keep streamId true n <;> rfl

/-- The staging flag goes with the last node. -/
theorem Holds.staging_filter (h : m.Holds ss ns os) :
    (m.sendbufStaging && (lastAddr ((m.ctx true).filter streamId ns) == lastAddr ns)) =
      (ss.discardSendbuf streamId).sendbufStaging := by
  unfold Session.discardSendbuf
  dsimp only
  rw [h.staging, ← h.sendbuf_frames]
  congr 1
  rcases List.eq_nil_or_concat ns with rfl | ⟨init, n, rfl⟩
  · rfl
  · rw [List.concat_eq_append] at *
    have hlast : lastAddr (init ++ [n]) = some n.addr := by simp [lastAddr]
    have hhead : (((init ++ [n]).map FrameNode.frame).length == 1) = init.isEmpty := by
      cases init <;> simp
    have htail : ((init ++ [n]).map FrameNode.frame).getLast? = some n.frame := by simp
    rw [DiscardCtx.filter_concat, hlast, htail, hhead]
    dsimp only
    rw [← h.keep_frame streamId _ (by simp), Option.isNone_map]
    cases hkeep : (m.ctx true).keep streamId init.isEmpty n with
    | some n' => simp [lastAddr, DiscardCtx.keep_addr hkeep]
    | none =>
      have hne : lastAddr ((m.ctx true).filter streamId init) ≠ some n.addr := fun heq => by
        have hmem := ((m.ctx true).filter_addr streamId init).subset (List.mem_of_getLast? heq)
        obtain ⟨n', hn', haddr⟩ := List.mem_map.mp hmem
        exact h.sendbuf.addr_notMem (m := n') (by simpa using hn') haddr
      simpa using hne

theorem Holds.oobbuf_filter (h : m.Holds ss ns os) :
    ((m.ctx false).filter streamId os).map FrameNode.frame = (ss.discardStreamFrames streamId).oobbuf := by
  have hkeep (b : Bool) (n : FrameNode) : ((m.ctx false).keep streamId b n).map FrameNode.frame =
      if n.frame.pos == 0 then discardEntry streamId n.frame else some n.frame := by
    have hmay : (m.ctx false).may b n = (n.frame.pos == 0) := by simp [DiscardCtx.may, ctx]
    rw [DiscardCtx.keep, hmay]
    split
    · rw [Option.map_map]
      exact Option.map_id' ..
    · rfl
  have hob : (ss.discardSendbuf streamId).oobbuf = ss.oobbuf := rfl
  unfold Session.discardStreamFrames
  dsimp only
  rw [hob, ← h.oobbuf_frames]
  cases os with
  | nil => rfl
  | cons n os =>
    rw [DiscardCtx.filter, List.map_append, filterMap_frame (fun f => if f.pos == 0 then discardEntry streamId f else some f)
        fun m _ => hkeep false m, List.map_cons,
      List.filterMap_cons, ← hkeep true n]
    cases (m.ctx false).keep streamId true n <;> rfl

theorem Holds.discardSendbuf (h : m.Holds ss ns os) (streamId : UInt16) :
    (m.discardSendbuf streamId).Holds (ss.discardSendbuf streamId) ((m.ctx true).filter streamId ns) os := by
  obtain ⟨hholds, hstaging, hframe⟩ :=
    Walk.discardStreamFramesFrom_spec (w := ⟨m.heap, m.sendbuf, m.sendbufStaging, m.pool⟩) (m.ctx true)
      streamId h.sendbuf
  have hsub := (m.ctx true).filter_addr streamId ns
  refine ⟨hholds, h.oobbuf.congr fun n hn => hframe n.addr fun hmem => ?_, fun a ha => h.apart a (hsub.subset ha),
    h.sendbuf_filter, h.oobbuf_frames, ?_, h.sendBlocked, h.tls, fun n hn => ?_⟩
  · exact h.apart _ hmem (List.mem_map_of_mem hn)
  · exact hstaging.trans h.staging_filter
  · obtain ⟨n', hn', b, hkeep⟩ := DiscardCtx.exists_of_mem_filter hn
    rw [DiscardCtx.keep_addr hkeep, DiscardCtx.keep_isCopy hkeep]
    exact h.retransmitCopy n' hn'

theorem Holds.discardOobbuf (h : m.Holds (ss.discardSendbuf streamId) ns os) :
    (m.discardOobbuf streamId).Holds (ss.discardStreamFrames streamId) ns ((m.ctx false).filter streamId os) := by
  obtain ⟨hholds, hstaging, hframe⟩ :=
    Walk.discardStreamFramesFrom_spec (w := ⟨m.heap, m.oobbuf, m.sendbufStaging, m.pool⟩) (m.ctx false)
      streamId h.oobbuf
  have hsub := (m.ctx false).filter_addr streamId os
  refine ⟨h.sendbuf.congr fun n hn => hframe n.addr (h.apart _ (List.mem_map_of_mem hn)), hholds,
    fun a ha hmem => h.apart a ha (hsub.subset hmem), h.sendbuf_frames, h.oobbuf_filter, ?_, h.sendBlocked, h.tls,
    h.retransmitCopy⟩
  exact hstaging.trans ((Bool.and_true _).trans h.staging)

theorem Holds.discardStreamFrames (h : m.Holds ss ns os) (streamId : UInt16) :
    (m.discardStreamFrames streamId).Holds (ss.discardStreamFrames streamId) ((m.ctx true).filter streamId ns)
      ((m.ctx false).filter streamId os) :=
  (h.discardSendbuf streamId).discardOobbuf

theorem Holds.discardStreamFrames_fixed (h : m.Holds ss ns os) (hns : (m.ctx true).Fixed streamId ns)
    (hos : (m.ctx false).Fixed streamId os) : m.discardStreamFrames streamId = m := by
  have hsend : m.discardSendbuf streamId = m := by
    unfold Egress.discardSendbuf
    rw [Walk.discardStreamFramesFrom_fixed h.sendbuf hns]
  have hoob : m.discardOobbuf streamId = m := by
    unfold Egress.discardOobbuf
    rw [Walk.discardStreamFramesFrom_fixed h.oobbuf hos]
  rw [Egress.discardStreamFrames, hsend, hoob]

/-- Withdrawing the frames of a stream filters both buffers: of the entries that may be touched the frames
of other streams and the resets stay, in order, in the nodes they were in, and an entry nothing of which
stays leaves its list. This is what the session's model computes, and withdrawing again writes nothing. -/
theorem discardStreamFrames_filter (m : Egress) (ss : Session) (ns os : List FrameNode) (h : m.Holds ss ns os)
    (streamId : UInt16) :
    let m' := m.discardStreamFrames streamId
    let ns' := (m.ctx true).filter streamId ns
    let os' := (m.ctx false).filter streamId os
    m'.Holds (ss.discardStreamFrames streamId) ns' os' ∧
      ((ns'.map FrameNode.addr).Sublist (ns.map FrameNode.addr) ∧
        (os'.map FrameNode.addr).Sublist (os.map FrameNode.addr)) ∧
      ((ns'.flatMap fun n => n.frame.items) = ns.head?.toList.flatMap ((m.ctx true).surviving streamId true) ++
          ns.tail.flatMap ((m.ctx true).surviving streamId false) ∧
        (os'.flatMap fun n => n.frame.items) = os.head?.toList.flatMap ((m.ctx false).surviving streamId true) ++
          os.tail.flatMap ((m.ctx false).surviving streamId false)) ∧
      m'.sendbufStaging = (m.sendbufStaging && (lastAddr ns' == lastAddr ns)) ∧
      m'.discardStreamFrames streamId = m' := by
  have hholds := h.discardStreamFrames streamId
  refine ⟨hholds, ⟨DiscardCtx.filter_addr .., DiscardCtx.filter_addr ..⟩,
    ⟨DiscardCtx.filter_items .., DiscardCtx.filter_items ..⟩, ?_, ?_⟩
  · exact hholds.staging.trans h.staging_filter.symm
  · exact hholds.discardStreamFrames_fixed (DiscardCtx.filter_fixed ns) (DiscardCtx.filter_fixed os)

/-- Two entries in the send buffer, the first with frames of two streams, and a reset waiting out of band. -/
def coalesced : List FrameNode × List FrameNode :=
  let ack (id : UInt16) : Item := ⟨ctrlFrame id flagAck 1, 0⟩
  ([⟨7, ⟨[ack 2, ack 4], 0, 0, 0, false⟩⟩, ⟨3, ⟨[ack 2], 0, 0, 0, false⟩⟩],
    [⟨5, ⟨[⟨ctrlFrame 2 flagRst 0, 1⟩], 0, 0, 0, false⟩⟩])

def coalescedSession : Session :=
  { Session.new false false 0 0 0 with
    sendbuf := coalesced.1.map FrameNode.frame
    oobbuf := coalesced.2.map FrameNode.frame
    sendbufStaging := true }

def coalescedEgress : Egress where
  heap := {
    data := fun a => ((coalesced.1 ++ coalesced.2).find? fun n => n.addr == a).elim [] fun n => n.frame.bytes
    pos := fun _ => 0
    next := fun a => if a = 7 then some 3 else none }
  sendbuf := ⟨⟨some 7, some 3⟩, 2⟩
  oobbuf := ⟨⟨some 5, some 5⟩, 1⟩
  sendbufStaging := true
  sendBlocked := false
  tls := false
  retransmitCopy := none
  pool := []

theorem coalescedEgress_holds : coalescedEgress.Holds coalescedSession coalesced.1 coalesced.2 where
  sendbuf := ⟨⟨by decide, by decide, by decide, rfl, rfl, trivial⟩, by decide, by decide, by decide, by decide⟩
  oobbuf := ⟨⟨by decide, by decide, by decide, rfl, trivial⟩, by decide, by decide, by decide, by decide⟩
  apart := by decide
  sendbuf_frames := rfl
  oobbuf_frames := rfl
  staging := rfl
  sendBlocked := rfl
  tls := rfl
  retransmitCopy := by decide

theorem discardStreamFrames_filter_coalesced :
    coalescedEgress.Holds coalescedSession coalesced.1 coalesced.2 ∧
      (coalescedEgress.discardStreamFrames 2).sendbufStaging = false := by
  obtain ⟨-, -, -, hstaging, -⟩ := discardStreamFrames_filter _ _ _ _ coalescedEgress_holds 2
  exact ⟨coalescedEgress_holds, hstaging.trans (by decide)⟩

end Egress

end Multiplexd
