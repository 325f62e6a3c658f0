import Mathlib.Tactic.Common
import Multiplexd.Lib.Framing
import Multiplexd.Limits

/-!
# Frames on the wire

The frame layout of `frame.h`: an eight byte header, big endian, whose length field counts the payload
bytes that follow it. A frame carries the bound on its payload, so a header whose length field does not
match its payload cannot be written down, and the layout is a self-delimiting code (`frameCode`).
-/

namespace Multiplexd

/-- `STREAMID_CTRL`. -/
def streamIdCtrl : UInt16 := 0

/-- `MUX_PROTOCOL_VERSION`. -/
def protocolVersion : UInt8 := 1

/-- `MUX_MAX_RECORD`. -/
def maxRecord : Nat := 16384

/-! `enum mux_flags` -/

def flagFin : UInt8 := 0x01
def flagSyn : UInt8 := 0x02
def flagRst : UInt8 := 0x04
def flagPush : UInt8 := 0x08
def flagAck : UInt8 := 0x10
def flagMask : UInt8 := 0x1f

def ctrlPing : UInt16 := 1
def ctrlPong : UInt16 := 2

/-- Whether a flag is set. -/
def hasFlag (flags flag : UInt8) : Bool := flags &&& flag != 0

/-- `enum mux_status`, carried in the Extra field of a frame with RST set. -/
inductive MuxStatus where
  | noError
  | protocolError
  | flowControlError
  | internalError
  | refusedStream
  | cancel
deriving Repr, DecidableEq

def MuxStatus.code : MuxStatus → UInt16
  | .noError => 0
  | .protocolError => 1
  | .flowControlError => 2
  | .internalError => 3
  | .refusedStream => 4
  | .cancel => 5

/-- A frame: `struct mux_header` without its length field, and the payload that field counts. -/
structure Frame where
  version : UInt8
  flags : UInt8
  streamId : UInt16
  extra : UInt16
  payload : List UInt8
  payload_lt : payload.length < 65536
deriving Repr, DecidableEq

def writeUint16 (n : Nat) : List UInt8 := [UInt8.ofNat (n / 256), UInt8.ofNat n]

def readUint16 (hi lo : UInt8) : Nat := hi.toNat * 256 + lo.toNat

theorem readUint16_lt (hi lo : UInt8) : readUint16 hi lo < 65536 := by
  have := hi.toNat_lt
  have := lo.toNat_lt
  unfold readUint16
  omega

theorem readUint16_writeUint16 {n : Nat} (h : n < 65536) :
    readUint16 (UInt8.ofNat (n / 256)) (UInt8.ofNat n) = n := by
  simp only [readUint16, UInt8.toNat_ofNat']
  omega

theorem writeUint16_readUint16 (hi lo : UInt8) : writeUint16 (readUint16 hi lo) = [hi, lo] := by
  have hhi := hi.toNat_lt
  have hlo := lo.toNat_lt
  simp only [writeUint16, List.cons.injEq, and_true]
  constructor <;> apply UInt8.toNat_inj.mp <;> simp only [readUint16, UInt8.toNat_ofNat'] <;> omega

namespace Frame

/-- `mux_write_header` followed by the payload. -/
def encode (f : Frame) : List UInt8 :=
  [f.version, f.flags] ++ writeUint16 f.payload.length ++ writeUint16 f.streamId.toNat ++
    writeUint16 f.extra.toNat ++ f.payload

/-- `mux_read_header` and the check that the whole payload is there. -/
def decode : List UInt8 → Option (Frame × List UInt8)
  | version :: flags :: l1 :: l0 :: s1 :: s0 :: e1 :: e0 :: rest =>
    if readUint16 l1 l0 ≤ rest.length then
      some (⟨version, flags, UInt16.ofNat (readUint16 s1 s0), UInt16.ofNat (readUint16 e1 e0),
        rest.take (readUint16 l1 l0),
        Nat.lt_of_le_of_lt (List.length_take_le _ _) (readUint16_lt l1 l0)⟩,
        rest.drop (readUint16 l1 l0))
    else none
  | _ => none

def size (f : Frame) : Nat := frameHeaderSize + f.payload.length

@[simp] theorem encode_length (f : Frame) : f.encode.length = f.size := by
  simp only [encode, writeUint16, size, frameHeaderSize, List.length_append, List.length_cons,
    List.length_nil]

theorem size_pos (f : Frame) : 0 < f.size := by
  simp only [size, frameHeaderSize]
  omega

theorem decode_encode_append (f : Frame) (rest : List UInt8) : decode (f.encode ++ rest) = some (f, rest) := by
  obtain ⟨version, flags, streamId, extra, payload, hpayload⟩ := f
  have hid := readUint16_writeUint16 streamId.toNat_lt
  have hextra := readUint16_writeUint16 extra.toNat_lt
  have hlen := readUint16_writeUint16 hpayload
  simp only [encode, writeUint16, List.cons_append, List.nil_append, decode, hid, hextra, hlen]
  simp

theorem eq_of_decode {bs rest : List UInt8} {f : Frame} (h : decode bs = some (f, rest)) :
    bs = f.encode ++ rest := by
  unfold decode at h
  split at h
  · rename_i version flags l1 l0 s1 s0 e1 e0 body
    split at h
    · rename_i hle
      simp only [Option.some.injEq, Prod.mk.injEq] at h
      obtain ⟨rfl, rfl⟩ := h
      have hs : (UInt16.ofNat (readUint16 s1 s0)).toNat = readUint16 s1 s0 := by
        have := readUint16_lt s1 s0
        simp only [UInt16.toNat_ofNat']
        omega
      have he : (UInt16.ofNat (readUint16 e1 e0)).toNat = readUint16 e1 e0 := by
        have := readUint16_lt e1 e0
        simp only [UInt16.toNat_ofNat']
        omega
      simp only [encode, hs, he, List.length_take, Nat.min_eq_left hle, writeUint16_readUint16]
      simp
    · simp at h
  · simp at h

/-- The length field of a header. -/
def lengthField : List UInt8 → Option Nat
  | _ :: _ :: l1 :: l0 :: _ => some (readUint16 l1 l0)
  | _ => none

theorem lengthField_encode (f : Frame) : lengthField f.encode = some f.payload.length := by
  simp [encode, writeUint16, lengthField, readUint16_writeUint16 f.payload_lt]

theorem drop_encode (f : Frame) : f.encode.drop frameHeaderSize = f.payload := by
  simp [encode, writeUint16, frameHeaderSize]

theorem encode_ne_nil (f : Frame) : f.encode ≠ [] :=
  List.ne_nil_of_length_pos (by rw [encode_length]; exact f.size_pos)

end Frame

def frameCode : SelfDelimiting Frame UInt8 where
  encode := Frame.encode
  decode := Frame.decode
  decode_append := Frame.decode_encode_append
  eq_of_decode := Frame.eq_of_decode
  encode_ne_nil := Frame.encode_ne_nil

@[simp] theorem frameCode_encode (f : Frame) : frameCode.encode f = f.encode := rfl

@[simp] theorem frameCode_decode (bs : List UInt8) : frameCode.decode bs = Frame.decode bs := rfl

end Multiplexd
