import Multiplexd.Mux.Session

/-!
# The resume log

`unacked.c`: frames that reached the transport are kept in a ring until the peer confirms them, by a
session ACK or by the count in its resume hello, and the ring is replayed from its head after a resume.
-/

namespace Multiplexd

def serialAdd32 (s n : Nat) : Nat := (s + n) % 2 ^ 32

def serialLt32 (i1 i2 : Nat) : Bool :=
  let d := (i2 + 2 ^ 32 - i1) % 2 ^ 32
  d != 0 && d < 2 ^ 31

def itemsFrom : List Item → Nat → List Item
  | [], _ => []
  | i :: is, offset => if offset = 0 then i :: is else itemsFrom is (offset - i.frame.size)

/-- `frame_payload_bytes_from`: the payload bytes of `count` frames, and the offset past them. -/
def framePayloadBytesFrom (f : MuxFrame) (offset count : Nat) : Nat × Nat :=
  let walked := (itemsFrom f.items offset).take count
  ((walked.map fun i => i.frame.payload.length).sum, offset + (itemBytes walked).length)

namespace MuxFrame

def complete (f : MuxFrame) : List Item := f.items.take (wholeItems f.items f.pos)

def cut (f : MuxFrame) : MuxFrame :=
  { f with
    items := f.items.drop (wholeItems f.items f.pos)
    pos := f.pos - (itemBytes f.complete).length }

end MuxFrame

namespace Session

variable (ss : Session)

/-- `unacked_push`, with `ring_push`. -/
def unackedPush (frame : MuxFrame) (count : Nat) : Session :=
  let (ok, ss) := ss.frameGet
  if !ok then ss.reset
  else
    let ss := { ss with
      ring := ss.ring ++ [{ frame with pos := 0, unackedCount := count, isCopy := false }]
      frames := ss.frames + count
      bytes := ss.bytes + frame.payloadBytes
      logged := ss.logged ++ frame.items }
    if !ss.stalled && ss.sessionWindow * windowUnit ≤ ss.bytes then { ss with stalled := true } else ss

/-- `mux_unacked_track_sent`. The fast path of the source for an entry with a single header computes
the same as the walk, and is not repeated here. -/
def trackSent (frame : MuxFrame) : Session :=
  match frame.items with
  | [] => ss
  | first :: _ =>
    if first.isHello then ss
    else if ss.retransmitCopy && frame.isCopy then
      { ss with
        retransmittedFrames := ss.retransmittedFrames + ss.retransmitCopyCount
        retransmitOff := ss.retransmitOff.map (· + 1)
        retransmitCopy := false, retransmitCopyCount := 0, retransmitCopySent := 0 }
    else
      let kept := frame.items.filter Item.tracked
      if kept.isEmpty then ss else ss.unackedPush { frame with items := kept } kept.length

/-- `mux_unacked_track_partial`, for the entry at the head of the send buffer. -/
def trackPartial (frame : MuxFrame) (rest : List MuxFrame) : Session :=
  match frame.items with
  | [] => ss
  | first :: _ =>
    if first.isHello then ss
    else
      let n := frame.complete.countP Item.tracked
      if n = 0 then ss
      else if ss.retransmitCopy && frame.isCopy then
        { ss with retransmitCopySent := ss.retransmitCopySent + n, sendbuf := frame.cut :: rest }
      else
        let (ok, ss) := ss.frameGet
        if !ok then ss.reset
        else
          { ss with sendbuf := frame.cut :: rest }.trackSent { items := frame.complete, cap := ss.maxPayload }

/-- The running totals of the walk in `mux_unacked_ack_trim`. -/
structure Trim where
  remaining : Nat
  popped : Nat
  trimmedBytes : Nat
  trimmedRetransmitted : Nat

/-- The loop of `mux_unacked_ack_trim`; `fuel` is one more than the number of entries. -/
def ackTrimLoop (off0 : Nat) : Nat → Session → Trim → Session × Trim
  | 0, ss, t => (ss, t)
  | fuel + 1, ss, t =>
    if t.remaining = 0 then (ss, t)
    else
      match ss.ring with
      | [] =>
        ({ ss with frames := ss.frames + t.remaining, bytes := 0, partialOffset := 0 }, t)
      | f :: ring =>
        if t.remaining < f.unackedCount then
          let (bytes, offset) := framePayloadBytesFrom f ss.partialOffset t.remaining
          let ss := { ss with
            ring := { f with unackedCount := f.unackedCount - t.remaining } :: ring
            bytes := ss.bytes - bytes, partialOffset := offset }
          let t' := { t with remaining := 0, trimmedBytes := t.trimmedBytes + bytes }
          if t.popped < off0 then
            (ss, { t' with trimmedRetransmitted := t.trimmedRetransmitted + t.remaining })
          else if t.popped = off0 ∧ ss.retransmitCopy then
            -- the entry whose replay copy is in flight
            ({ ss with
              retransmitCopyCount := ss.retransmitCopyCount - t.remaining
              retransmitCopySent := ss.retransmitCopySent - t.remaining }, t')
          else (ss, t')
        else
          let (bytes, _) := framePayloadBytesFrom f ss.partialOffset f.unackedCount
          ackTrimLoop off0 fuel { ss with ring := ring, bytes := ss.bytes - bytes, partialOffset := 0 }
            { remaining := t.remaining - f.unackedCount
              popped := t.popped + 1
              trimmedBytes := t.trimmedBytes + bytes
              trimmedRetransmitted :=
                if t.popped < off0 then t.trimmedRetransmitted + f.unackedCount
                else t.trimmedRetransmitted }

def trimReplayOff (t : Trim) : Session :=
  match ss.retransmitOff with
  | none => ss
  | some off =>
    let ss :=
      if t.popped ≤ off then
        { ss with
          retransmitOff := some (off - t.popped)
          retransmittedFrames := ss.retransmittedFrames - t.trimmedRetransmitted }
      else ss.setReplayOff (some 0)
    if ss.ring.length ≤ off - t.popped then ss.setReplayOff none else ss

/-- The counters of a confirmation. -/
def countAcked (count : Nat) : Session :=
  { ss with
    frames := ss.frames - count, lastAckRecv := serialAdd32 ss.lastAckRecv count
    acked := ss.acked + count }

def trimRingOf (count : Nat) : Session :=
  let (ss, t) := ackTrimLoop (ss.retransmitOff.getD 0) (ss.ring.length + 1) ss ⟨count, 0, 0, 0⟩
  ss.trimReplayOff t

def unstall : Bool × Session :=
  if ss.stalled && ss.bytes < ss.sessionWindow * windowUnit then (true, { ss with stalled := false })
  else (false, ss)

/-- `mux_unacked_ack_trim`: whether the count was accepted, and whether a stall was cleared. -/
def ackTrim (count : Nat) : Bool × Bool × Session :=
  if ss.frames < count then (false, false, ss)
  else if count = 0 then (true, false, ss)
  else (true, ((ss.countAcked count).trimRingOf count).unstall)

def replayBound : Nat :=
  ss.retransmittedFrames + (if ss.retransmitCopy then ss.retransmitCopySent else 0)

def ackRecv (count : Nat) : Bool × Bool × Session :=
  if ss.retransmitOff.isSome && ss.replayBound < count then (false, false, ss) else ss.ackTrim count

/-- The loop of `mux_unacked_resume_ack_recv`; each turn trims one frame, so `frames` turns suffice. -/
def resumeTrimLoop (peerAck : Nat) : Nat → Session → Bool × Session
  | 0, ss => (decide (ss.lastAckRecv = peerAck), ss)
  | fuel + 1, ss =>
    if ss.lastAckRecv = peerAck then (true, ss)
    else if ss.frames = 0 then (false, ss)
    else
      let (_, _, ss') := ss.ackTrim 1
      if ss.frames ≤ ss'.frames then (false, ss') else resumeTrimLoop peerAck fuel ss'

def rewindReplay : Session :=
  ss.setReplayOff (if ss.ring.isEmpty then none else some 0)

def resumeAckRecv (peerAck : Nat) : Bool × Session :=
  if serialLt32 peerAck ss.lastAckRecv then (false, ss)
  else
    match resumeTrimLoop peerAck ss.frames ss with
    | (false, ss) => (false, ss)
    | (true, ss) => (true, ss.rewindReplay)

def ackEmitted (emit : Nat) : Session :=
  { ss with unreported := ss.unreported - emit, ackTicks := 0 }

end Session

end Multiplexd
