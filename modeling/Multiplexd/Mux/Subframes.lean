import Multiplexd.Mux.Ring
import Multiplexd.Mux.Send

/-!
# The bytes of packed frames

A buffer entry of the source is a run of bytes, and the frames packed into it are found by walking the
headers. The loops that do so are written out here over the bytes, and each computes, on the bytes of
an entry, the operation on the list of its frames that the rest of the model uses.
-/

namespace Multiplexd

/-- `struct mux_header`. -/
structure Header where
  version : UInt8
  flags : UInt8
  length : Nat
  streamId : UInt16
  extra : UInt16
deriving Repr, DecidableEq

/-- `mux_read_header`; `none` when fewer bytes are left than a header has. -/
def readHeader : List UInt8 → Option Header
  | version :: flags :: l1 :: l0 :: s1 :: s0 :: e1 :: e0 :: _ =>
    some ⟨version, flags, readUint16 l1 l0, UInt16.ofNat (readUint16 s1 s0),
      UInt16.ofNat (readUint16 e1 e0)⟩
  | _ => none

/-- The header of a frame. -/
def Frame.header (f : Frame) : Header := ⟨f.version, f.flags, f.payload.length, f.streamId, f.extra⟩

theorem readHeader_encode_append (f : Frame) (rest : List UInt8) :
    readHeader (f.encode ++ rest) = some f.header := by
  have hid := readUint16_writeUint16 f.streamId.toNat_lt
  have hextra := readUint16_writeUint16 f.extra.toNat_lt
  have hlen := readUint16_writeUint16 f.payload_lt
  simp only [Frame.encode, writeUint16, List.cons_append, List.nil_append, readHeader, hid, hextra, hlen]
  simp [Frame.header]

theorem readHeader_nil : readHeader [] = none := rfl

@[simp] theorem itemBytes_cons (i : Item) (is : List Item) :
    itemBytes (i :: is) = i.frame.encode ++ itemBytes is := rfl

/-- The walk of `mux_unacked_track_sent`: entries that are kept move down over those that are not. `none`
stands for a layout the source refuses; the count is that of the kept entries. -/
def compactLoop (keep : Header → Bool) : Nat → List UInt8 → List UInt8 → Nat → Option (List UInt8 × Nat)
  | 0, src, dst, n => if src.isEmpty then some (dst, n) else none
  | fuel + 1, src, dst, n =>
    if src.isEmpty then some (dst, n)
    else
      match readHeader src with
      | none => none
      | some hdr =>
        if src.length < frameHeaderSize + hdr.length then none
        else if keep hdr then
          compactLoop keep fuel (src.drop (frameHeaderSize + hdr.length))
            (dst ++ src.take (frameHeaderSize + hdr.length)) (n + 1)
        else compactLoop keep fuel (src.drop (frameHeaderSize + hdr.length)) dst n

theorem compactLoop_itemBytes (keep : Header → Bool) (is : List Item) {fuel : Nat} (hfuel : is.length ≤ fuel)
    (dst : List UInt8) (n : Nat) :
    compactLoop keep fuel (itemBytes is) dst n =
      some (dst ++ itemBytes (is.filter fun i => keep i.frame.header),
        n + (is.filter fun i => keep i.frame.header).length) := by
  induction is generalizing fuel dst n with
  | nil => cases fuel <;> simp [compactLoop]
  | cons i is ih =>
    obtain ⟨fuel, rfl⟩ : ∃ k, fuel = k + 1 := ⟨fuel - 1, by simp only [List.length_cons] at hfuel; omega⟩
    have hne : (itemBytes (i :: is)).isEmpty = false := by
      simp [i.frame.encode_ne_nil]
    have hsize : frameHeaderSize + i.frame.header.length = i.frame.encode.length := by
      rw [Frame.encode_length]
      rfl
    rw [compactLoop, hne, if_neg (by simp), itemBytes_cons, readHeader_encode_append]
    dsimp only
    rw [hsize, if_neg (by simp), List.drop_left, List.take_left]
    cases hkeep : keep i.frame.header with
    | true =>
      rw [if_pos rfl, ih (by simpa using hfuel)]
      simp [hkeep, Nat.add_assoc, Nat.add_comm 1]
    | false =>
      rw [if_neg (by simp), ih (by simpa using hfuel)]
      simp [hkeep]

theorem compact_tracked (f : MuxFrame) :
    compactLoop (fun hdr => hdr.streamId != streamIdCtrl) f.items.length f.bytes [] 0 =
      some (itemBytes (f.items.filter Item.tracked), (f.items.filter Item.tracked).length) := by
  rw [MuxFrame.bytes, compactLoop_itemBytes _ _ (Nat.le_refl _)]
  simp only [List.nil_append, Nat.zero_add]
  rfl

/-- The loop of `mux_unacked_track_partial`: the bytes of the leading frames that lie within the first
`left` bytes, and how many of them belong to streams. -/
def completeLoop : Nat → List UInt8 → Nat → Nat → Nat → Nat × Nat
  | 0, _, _, done, n => (done, n)
  | fuel + 1, src, left, done, n =>
    if left < frameHeaderSize then (done, n)
    else
      match readHeader src with
      | none => (done, n)
      | some hdr =>
        if left < frameHeaderSize + hdr.length then (done, n)
        else
          completeLoop fuel (src.drop (frameHeaderSize + hdr.length)) (left - (frameHeaderSize + hdr.length))
            (done + (frameHeaderSize + hdr.length)) (if hdr.streamId != streamIdCtrl then n + 1 else n)

theorem completeLoop_itemBytes (is : List Item) {fuel : Nat} (hfuel : is.length ≤ fuel) (left done n : Nat) :
    completeLoop fuel (itemBytes is) left done n =
      (done + (itemBytes (is.take (wholeItems is left))).length,
        n + (is.take (wholeItems is left)).countP Item.tracked) := by
  induction is generalizing fuel left done n with
  | nil =>
    have hnil : itemBytes [] = [] := rfl
    cases fuel with
    | zero => simp [completeLoop]
    | succ fuel =>
      rw [completeLoop, hnil, readHeader_nil]
      split <;> simp
  | cons i is ih =>
    obtain ⟨fuel, rfl⟩ : ∃ k, fuel = k + 1 := ⟨fuel - 1, by simp only [List.length_cons] at hfuel; omega⟩
    have hsize : frameHeaderSize + i.frame.header.length = i.frame.encode.length := by
      rw [Frame.encode_length]
      rfl
    rw [completeLoop, itemBytes_cons, readHeader_encode_append]
    dsimp only
    rw [hsize]
    by_cases hle : i.frame.encode.length ≤ left
    · have hwhole : wholeItems (i :: is) left = wholeItems is (left - i.frame.encode.length) + 1 :=
        frameCode.whole_cons_of_le hle
      have hhdr : ¬ left < frameHeaderSize := by omega
      rw [if_neg hhdr, if_neg (by omega), List.drop_left, ih (by simpa using hfuel), hwhole,
        List.take_succ_cons, itemBytes_cons, List.countP_cons, List.length_append]
      have htracked : (i.frame.header.streamId != streamIdCtrl) = i.tracked := rfl
      rw [htracked]
      cases i.tracked <;> simp <;> omega
    · have hwhole : wholeItems (i :: is) left = 0 := frameCode.whole_cons_of_lt (Nat.lt_of_not_le hle)
      rw [hwhole, if_pos (Nat.lt_of_not_le hle)]
      simp

theorem complete_measure (f : MuxFrame) : completeLoop f.items.length f.bytes f.pos 0 0 =
      ((itemBytes f.complete).length, f.complete.countP Item.tracked) := by
  rw [MuxFrame.bytes, completeLoop_itemBytes _ (Nat.le_refl _)]
  simp [MuxFrame.complete]

def payloadLoop : Nat → List UInt8 → Nat → Nat → Nat × Nat
  | 0, _, total, offset => (total, offset)
  | count + 1, src, total, offset =>
    match readHeader src with
    | none => (total, offset)
    | some hdr =>
      payloadLoop count (src.drop (frameHeaderSize + hdr.length)) (total + hdr.length)
        (offset + (frameHeaderSize + hdr.length))

theorem payloadLoop_itemBytes (is : List Item) (count total offset : Nat) :
    payloadLoop count (itemBytes is) total offset =
      (total + itemsPayload (is.take count), offset + (itemBytes (is.take count)).length) := by
  induction is generalizing count total offset with
  | nil =>
    have hnil : itemBytes [] = [] := rfl
    cases count with
    | zero => simp [payloadLoop]
    | succ count => simp [payloadLoop, hnil, readHeader_nil]
  | cons i is ih =>
    cases count with
    | zero => simp [payloadLoop]
    | succ count =>
      have hsize : frameHeaderSize + i.frame.header.length = i.frame.encode.length := by
        rw [Frame.encode_length]
        rfl
      have hpay : i.frame.header.length = i.frame.payload.length := rfl
      rw [payloadLoop, itemBytes_cons, readHeader_encode_append]
      dsimp only
      rw [hsize, List.drop_left, ih, hpay]
      simp [itemsPayload, Nat.add_assoc]

theorem payload_measure (f : MuxFrame) (k count : Nat) :
    let offset := (itemBytes (f.items.take k)).length
    payloadLoop count (f.bytes.drop offset) 0 offset = framePayloadBytesFrom f offset count := by
  intro offset
  have hdrop : f.bytes.drop offset = itemBytes (f.items.drop k) := by
    rw [MuxFrame.bytes, ← List.take_append_drop k f.items, itemBytes_append]
    simp only [List.take_append_drop, offset]
    exact List.drop_left
  rw [hdrop, payloadLoop_itemBytes, framePayloadBytesFrom, itemsFrom_length_take]
  simp [itemsPayload]

end Multiplexd
