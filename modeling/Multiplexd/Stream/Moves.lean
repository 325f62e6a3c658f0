import Multiplexd.Stream.Endpoint

/-!
# What one end of a stream can do

Every event of an end is a sequence of a few elementary moves: it takes bytes from the local side,
queues a frame, moves its receive window, gives bytes to the local side, ends; or it takes a part of a
frame of the peer, which is a grant of credit, a piece of payload, the answer to its SYN or a FIN. The
moves are stated on the part of a stream that no watcher and no queue of the scheduler belongs to
(`Stream.core`), and they say when they are made, so that an invariant is checked once for each of them.
-/

namespace Multiplexd

/-- A stream without its place in the scheduler, its local socket and its inputs. -/
structure StreamCore where
  id : UInt16
  state : StreamState
  aborted : Bool
  rstReceived : Bool
  rstSent : Bool
  rxEof : Bool
  egress : List Frame
  sendQueue : List Chunk
  recvbuf : List UInt8
  bytesSent : UInt32
  sendWindow : UInt32
  queuedSendBytes : UInt32
  bytesReceived : UInt32
  bufferedBytes : UInt32
  recvWindow : UInt32
  grantSent : UInt32
  accepted : List UInt8
  delivered : List UInt8
  eofSeen : Bool
  abortCodes : List MuxStatus

def Stream.core (s : Stream) : StreamCore := { s with }

namespace StreamCore

def Over (c : StreamCore) : Prop := c.aborted = true ∨ c.rstReceived = true

instance (c : StreamCore) : Decidable c.Over := inferInstanceAs (Decidable (_ ∨ _))

def creditAvail (c : StreamCore) : Nat := (c.sendWindow - c.bytesSent).toNat

def outstanding (c : StreamCore) : Nat := (c.grantSent - c.bytesReceived).toNat

def Grants (c : StreamCore) (inc : Nat) : Prop :=
  inc ≤ 65535 ∧
    (0 < inc → inc * windowUnit + c.outstanding + c.bufferedBytes.toNat ≤ c.recvWindow.toNat)

/-- The state after a FIN has left. -/
def finSent : StreamState → StreamState
  | .established => .finWait
  | .closeWait => .closing
  | st => st

def finReceived : StreamState → StreamState
  | .established => .closeWait
  | .finWait => .closing
  | st => st

/-- The flags of a frame that carries a grant, a FIN, both or neither on top of `base`. -/
def withFlags (base : UInt8) (inc : Nat) (fin : Bool) : UInt8 :=
  base ||| (if 0 < inc then flagAck else 0) ||| (if fin then flagFin else 0)

/-- What a reset does to an end on the way to closing it: frames that have not left are withdrawn, and an
RST may be queued. `peer` says that the reset came from the other end, which is sent none. An end that has
not opened the stream has no frames to withdraw. -/
structure Falling (peer : Bool) (c t : StreamCore) : Prop where
  id : t.id = c.id
  bytesSent : t.bytesSent = c.bytesSent
  sendWindow : t.sendWindow = c.sendWindow
  bytesReceived : t.bytesReceived = c.bytesReceived
  recvWindow : t.recvWindow = c.recvWindow
  grantSent : t.grantSent = c.grantSent
  accepted : t.accepted = c.accepted
  delivered : t.delivered = c.delivered
  eofSeen : t.eofSeen = c.eofSeen
  abortCodes : t.abortCodes = c.abortCodes
  cause : if peer then t.rstReceived = true ∧ t.aborted = c.aborted
    else t.aborted = true ∧ t.rstReceived = c.rstReceived
  frames : (t.rstSent = c.rstSent ∧
      (t.egress = c.egress.filter (fun f => hasFlag f.flags flagRst) ∨
        (peer = true ∨ c.state = .init) ∧ t.egress = c.egress)) ∨
    (peer = false ∧ c.rstSent = false ∧ t.rstSent = true ∧ ∃ code : MuxStatus, t.egress =
      c.egress.filter (fun f => hasFlag f.flags flagRst) ++ [Session.ctrlFrame c.id flagRst code.code.toNat])

/-- The end has been closed by a reset. -/
structure Fallen (peer : Bool) (c t : StreamCore) : Prop extends Falling peer c t where
  state : t.state = .closed
  sendQueue : t.sendQueue = []
  queuedSendBytes : t.queuedSendBytes = 0
  recvbuf : t.recvbuf = []
  bufferedBytes : t.bufferedBytes = 0

/-- The moves of an end of its own accord. -/
inductive Step : StreamCore → StreamCore → Prop
  | eof (c : StreamCore) : Step c { c with rxEof := true }
  | queue {c : StreamCore} (ch : Chunk) (heof : c.rxEof = false) (hst : c.state.canSendData = true)
      (hlen : ch.len ≤ c.creditAvail - c.queuedSendBytes.toNat) :
      Step c { c with
        sendQueue := c.sendQueue ++ [ch]
        queuedSendBytes := c.queuedSendBytes + UInt32.ofNat ch.len
        accepted := c.accepted ++ ch.bytes }
  | syn {c : StreamCore} (inc : Nat) (hst : c.state = .init) (hinc : c.Grants inc) :
      Step c { c with
        state := .synSent
        egress := c.egress ++ [Session.ctrlFrame c.id flagSyn inc]
        grantSent := c.grantSent + Stream.unitBytes inc }
  | synPush {c : StreamCore} (ch : Chunk) (rest : List Chunk) (inc : Nat) (hst : c.state = .init)
      (hqueue : c.sendQueue = ch :: rest) (hlen : ch.len ≤ c.creditAvail) (hinc : c.Grants inc) :
      Step c { c with
        state := .synSent
        sendQueue := rest
        queuedSendBytes := c.queuedSendBytes - UInt32.ofNat ch.len
        egress := c.egress ++ [Stream.pushFrame c.id (flagPush ||| flagSyn) inc ch]
        bytesSent := c.bytesSent + UInt32.ofNat ch.len
        grantSent := c.grantSent + Stream.unitBytes inc }
  | synAck {c : StreamCore} (inc : Nat) (hst : c.state = .synReceived) (hinc : c.Grants inc) :
      Step c { c with
        state := .established
        egress := c.egress ++ [Session.ctrlFrame c.id (flagSyn ||| flagAck) inc]
        grantSent := c.grantSent + Stream.unitBytes inc }
  | push {c : StreamCore} (ch : Chunk) (rest : List Chunk) (inc : Nat)
      (hst : c.state = .established ∨ c.state = .closeWait) (hqueue : c.sendQueue = ch :: rest)
      (hlen : ch.len ≤ c.creditAvail) (hinc : c.Grants inc) :
      Step c { c with
        state := if c.rxEof && rest.isEmpty then finSent c.state else c.state
        sendQueue := rest
        queuedSendBytes := c.queuedSendBytes - UInt32.ofNat ch.len
        egress := c.egress ++ [Stream.pushFrame c.id (withFlags flagPush inc (c.rxEof && rest.isEmpty)) inc ch]
        bytesSent := c.bytesSent + UInt32.ofNat ch.len
        grantSent := c.grantSent + Stream.unitBytes inc }
  | ack {c : StreamCore} (inc : Nat) (hpos : 0 < inc)
      (hst : c.state ≠ .init ∧ c.state ≠ .synSent ∧ c.state ≠ .synReceived)
      (hover : c.state = .closed → ¬ c.Over) (hinc : c.Grants inc) :
      Step c { c with
        egress := c.egress ++ [Session.ctrlFrame c.id flagAck inc]
        grantSent := c.grantSent + Stream.unitBytes inc }
  | fin {c : StreamCore} (inc : Nat) (hst : c.state = .established ∨ c.state = .closeWait)
      (heof : c.rxEof = true) (hqueue : c.sendQueue = []) (hinc : c.Grants inc) :
      Step c { c with
        state := finSent c.state
        egress := c.egress ++ [Session.ctrlFrame c.id (withFlags 0 inc true) inc]
        grantSent := c.grantSent + Stream.unitBytes inc }
  | window {c : StreamCore} (frames : Nat) (h : c.recvWindow < Stream.windowBytes frames ∨
      c.bufferedBytes.toNat + c.outstanding ≤ (Stream.windowBytes frames).toNat) :
      Step c { c with recvWindow := Stream.windowBytes frames }
  | consume {c : StreamCore} (n : Nat) (hn : n ≤ c.recvbuf.length) :
      Step c { c with
        recvbuf := c.recvbuf.drop n
        bufferedBytes := c.bufferedBytes - UInt32.ofNat n
        delivered := c.delivered ++ c.recvbuf.take n }
  | eofSeen {c : StreamCore} (hst : c.state = .closeWait ∨ c.state = .closing) (hbuf : c.recvbuf = []) :
      Step c { c with eofSeen := true }
  | close {c : StreamCore} (hst : c.state = .closing) (hbuf : c.recvbuf = []) :
      Step c { c with state := .closed, sendQueue := [], queuedSendBytes := 0, recvbuf := [], bufferedBytes := 0 }
  | reset {c t : StreamCore} (n : Nat) (codes : List MuxStatus) (hst : c.state ≠ .closed)
      (hcodes : .flowControlError ∈ codes → .flowControlError ∈ c.abortCodes)
      (h : Fallen false { c with delivered := c.delivered ++ c.recvbuf.take n, abortCodes := codes } t) : Step c t
  -- the turn of the scheduler in which the FIN leaves goes on with a grant
  | resetAck {c t : StreamCore} (inc : Nat) (hpos : 0 < inc) (hst : c.state = .closing)
      (h : Fallen false c t) (hinc : t.Grants inc) :
      Step c { t with
        egress := t.egress ++ [Session.ctrlFrame t.id flagAck inc]
        grantSent := t.grantSent + Stream.unitBytes inc }
  -- `on_accept` rejects the stream
  | reject {c : StreamCore} (sent eof : Bool) (hst : c.state ≠ .closed) (hbuf : c.recvbuf = []) :
      Step c { c with
        state := .closed, sendQueue := [], queuedSendBytes := 0, recvbuf := [], bufferedBytes := 0
        aborted := true
        rstSent := sent
        egress := c.egress ++
          if sent then [Session.ctrlFrame c.id flagRst MuxStatus.refusedStream.code.toNat] else []
        eofSeen := eof }

theorem Step.plainReset {c t : StreamCore} (codes : List MuxStatus) (hst : c.state ≠ .closed)
    (hcodes : .flowControlError ∈ codes → .flowControlError ∈ c.abortCodes)
    (h : Fallen false { c with abortCodes := codes } t) : Step c t :=
  .reset 0 codes hst hcodes (by simpa using h)

end StreamCore

/-- What has been taken from the peer's frames: credit, payload, the answer to the SYN, the FIN, an RST, a
frame for which this end resets a stream it had not reset before. -/
structure Taken where
  credit : Nat := 0
  data : List UInt8 := []
  opened : Bool := false
  fin : Bool := false
  rst : Bool := false
  bad : Bool := false

namespace Taken

def append (t u : Taken) : Taken :=
  ⟨t.credit + u.credit, t.data ++ u.data, t.opened || u.opened, t.fin || u.fin, t.rst || u.rst, t.bad || u.bad⟩

@[simp] theorem nil_append (t : Taken) : append {} t = t := by
  simp [append]

@[simp] theorem append_nil (t : Taken) : t.append {} = t := by
  simp [append]

theorem append_assoc (t u v : Taken) : (t.append u).append v = t.append (u.append v) := by
  simp [append, Nat.add_assoc, Bool.or_assoc]

end Taken

namespace StreamCore

/-- The moves of an end that takes a part of a frame. A piece of payload is buffered, given to a connected
socket, or lost with a socket that fails; credit and payload beyond the limits reset the stream, as frames
do that the state does not allow. -/
inductive Input : Taken → StreamCore → StreamCore → Prop
  | credit {c : StreamCore} (inc : Nat) (hst : c.state ≠ .init ∧ c.state ≠ .synSent ∧ c.state ≠ .closed)
      (h : c.creditAvail + inc * windowUnit ≤ maxCredit) :
      Input { credit := inc * windowUnit } c { c with sendWindow := c.sendWindow + Stream.unitBytes inc }
  | start {c : StreamCore} (hst : c.state = .synSent) : Input { opened := true } c { c with state := .established }
  | data {c : StreamCore} (p : List UInt8)
      (hst : c.state = .synReceived ∨ c.state = .established ∨ c.state = .finWait) :
      Input { data := p } c { c with
        recvbuf := c.recvbuf ++ p
        bytesReceived := c.bytesReceived + UInt32.ofNat p.length
        bufferedBytes := c.bufferedBytes + UInt32.ofNat p.length }
  | direct {c : StreamCore} (p : List UInt8) (hst : c.state = .established ∨ c.state = .finWait)
      (hbuf : c.recvbuf = []) :
      Input { data := p } c { c with
        delivered := c.delivered ++ p
        bytesReceived := c.bytesReceived + UInt32.ofNat p.length }
  | spill {c t : StreamCore} (p : List UInt8) (codes : List MuxStatus)
      (hst : c.state = .established ∨ c.state = .finWait) (hbuf : c.recvbuf = [])
      (hcodes : .flowControlError ∈ codes → .flowControlError ∈ c.abortCodes)
      (h : Fallen false { c with delivered := c.delivered ++ p, abortCodes := codes } t) :
      Input { data := p } c t
  | fin {c : StreamCore} (hst : c.state = .established ∨ c.state = .finWait) :
      Input { fin := true } c { c with state := finReceived c.state }
  | rst {c t : StreamCore} (hst : c.state ≠ .closed) (h : Fallen true c t) : Input { rst := true } c t
  | overflow {c t : StreamCore} (inc : Nat) (codes : List MuxStatus) (hst : c.state ≠ .closed)
      (hinc : maxCredit < c.creditAvail + inc * windowUnit)
      (h : Fallen false { c with abortCodes := codes } t) : Input { credit := inc * windowUnit } c t
  | excess {c t : StreamCore} (p : List UInt8) (codes : List MuxStatus) (hst : c.state ≠ .closed)
      (hp : c.outstanding < p.length ∨ c.recvWindow.toNat < c.bufferedBytes.toNat + p.length)
      (h : Fallen false { c with abortCodes := codes } t) : Input { data := p } c t
  | invalid {c t : StreamCore} (sent : Bool) (hst : c.state ≠ .closed)
      (h : Fallen true { c with
        rstSent := sent
        egress := c.egress ++
          if sent then [Session.ctrlFrame c.id flagRst MuxStatus.protocolError.code.toNat] else [] } t) :
      Input { bad := true } c t
  | late {c : StreamCore} (hst : c.state = .closed) (hrst : c.rstSent = false) :
      Input { bad := !c.aborted } c { c with
        egress := c.egress ++ [Session.ctrlFrame c.id flagRst MuxStatus.protocolError.code.toNat]
        rstSent := true }

/-- A sequence of moves in which `t` is taken. -/
inductive Moves : Taken → StreamCore → StreamCore → Prop
  | refl (c : StreamCore) : Moves {} c c
  | own {t : Taken} {c c' c'' : StreamCore} (h : Step c c') (hs : Moves t c' c'') : Moves t c c''
  | input {t u : Taken} {c c' c'' : StreamCore} (h : Input t c c') (hs : Moves u c' c'') :
      Moves (t.append u) c c''

namespace Moves

variable {t u : Taken} {c c' c'' : StreamCore}

theorem trans (h : Moves t c c') (h' : Moves u c' c'') : Moves (t.append u) c c'' := by
  induction h with
  | refl => simpa using h'
  | own h _ ih => exact .own h (ih h')
  | input h _ ih =>
    rw [Taken.append_assoc]
    exact .input h (ih h')

theorem single (h : Step c c') : Moves {} c c' := .own h (.refl c')

theorem take (h : Input t c c') : Moves t c c' := by
  simpa using Moves.input h (.refl c')

end Moves

/-- A stream that is not closed has not been reset, and a closed one holds no data. -/
structure Intact (c : StreamCore) : Prop where
  unreset : c.state ≠ .closed → c.aborted = false ∧ c.rstReceived = false ∧ c.rstSent = false
  drained : c.state = .closed → c.recvbuf = []

variable {peer : Bool} {c c' : StreamCore}

theorem Intact.closed_of_over (hc : c.Intact) (h : c.Over) : c.state = .closed := by
  by_contra hst
  obtain ⟨haborted, hreceived, -⟩ := hc.unreset hst
  rcases h with h | h
  · exact absurd (haborted.symm.trans h) (by decide)
  · exact absurd (hreceived.symm.trans h) (by decide)

theorem Falling.over (h : Falling peer c c') : c'.Over := by
  cases peer with
  | true => exact .inr h.cause.1
  | false => exact .inl h.cause.1

theorem Fallen.intact (h : Fallen peer c c') : c'.Intact := ⟨fun hst => absurd h.state hst, fun _ => h.recvbuf⟩

theorem Step.intact (h : Step c c') (hc : c.Intact) : c'.Intact := by
  cases h with
  | reset _ _ _ _ hfall => exact hfall.intact
  | resetAck _ _ _ hfall => exact ⟨hfall.intact.unreset, hfall.intact.drained⟩
  | close => exact ⟨fun hst => absurd rfl hst, fun _ => rfl⟩
  | reject => exact ⟨fun hst => absurd rfl hst, fun _ => rfl⟩
  | syn _ hinit | synPush _ _ _ hinit => exact ⟨fun _ => hc.unreset (by simp [hinit]), nofun⟩
  | synAck _ hinit => exact ⟨fun _ => hc.unreset (by simp [hinit]), nofun⟩
  | push _ _ _ hsend | fin _ hsend =>
    refine ⟨fun _ => hc.unreset (by rcases hsend with h | h <;> simp [h]), fun hst => ?_⟩
    rcases hsend with h | h <;> simp [h, finSent] at hst <;> split at hst <;> simp at hst
  | consume n => exact ⟨hc.unreset, fun hst => by simp [hc.drained hst]⟩
  | eof | queue | ack | window | eofSeen => exact ⟨hc.unreset, hc.drained⟩

variable {t : Taken}

theorem Input.intact (h : Input t c c') (hc : c.Intact) : c'.Intact := by
  cases h with
  | spill _ _ _ _ _ hfall | rst _ hfall | overflow _ _ _ _ hfall | excess _ _ _ _ hfall | invalid _ _ hfall =>
    exact hfall.intact
  | late hclosed => exact ⟨fun hst => absurd hclosed hst, hc.drained⟩
  | start hsyn => exact ⟨fun _ => hc.unreset (by simp [hsyn]), nofun⟩
  | fin hopen =>
    refine ⟨fun _ => hc.unreset (by rcases hopen with h | h <;> simp [h]), fun hst => ?_⟩
    rcases hopen with h | h <;> simp [h, finReceived] at hst
  | data p hopen =>
    refine ⟨hc.unreset, fun hst => ?_⟩
    rcases hopen with h | h | h <;> simp [h] at hst
  | credit | direct => exact ⟨hc.unreset, hc.drained⟩

theorem Step.over (h : Step c c') (hc : c.Over) : c'.Over := by
  cases h with
  | reset _ _ _ _ hfall | resetAck _ _ _ hfall => exact hfall.over
  | reject => exact .inl rfl
  | eof | queue | syn | synPush | synAck | push | ack | fin | window | consume | eofSeen | close => exact hc

theorem Input.over (h : Input t c c') (hc : c.Over) : c'.Over := by
  cases h with
  | spill _ _ _ _ _ hfall | rst _ hfall | overflow _ _ _ _ hfall | excess _ _ _ _ hfall | invalid _ _ hfall =>
    exact hfall.over
  | credit | start | data | direct | fin | late => exact hc

/-- A reset is for good. -/
theorem Moves.over (h : Moves t c c') (hc : c.Over) : c'.Over := by
  induction h with
  | refl => exact hc
  | own h _ ih => exact ih (h.over hc)
  | input h _ ih => exact ih (h.over hc)

theorem Moves.bytesReceived (h : Moves t c c') :
    ∃ n, n ≤ t.data.length ∧ c'.bytesReceived = c.bytesReceived + UInt32.ofNat n := by
  induction h with
  | refl => exact ⟨0, Nat.le_refl 0, by simp⟩
  | @own t c c₁ c₂ h _ ih =>
    have hsame : c₁.bytesReceived = c.bytesReceived := by
      cases h with
      | reset _ _ _ _ hfall | resetAck _ _ _ hfall => exact hfall.bytesReceived
      | _ => rfl
    rw [hsame] at ih
    exact ih
  | @input t u c c₁ c₂ h _ ih =>
    obtain ⟨n, hn, heq⟩ := ih
    have hfirst : ∃ m, m ≤ t.data.length ∧ c₁.bytesReceived = c.bytesReceived + UInt32.ofNat m := by
      cases h with
      | data p | direct p => exact ⟨p.length, Nat.le_refl _, rfl⟩
      | spill _ _ _ _ _ hfall | rst _ hfall | overflow _ _ _ _ hfall | excess _ _ _ _ hfall | invalid _ _ hfall =>
        exact ⟨0, Nat.zero_le _, by simpa using hfall.bytesReceived⟩
      | _ => exact ⟨0, Nat.zero_le _, by simp⟩
    obtain ⟨m, hm, heq'⟩ := hfirst
    refine ⟨m + n, ?_, ?_⟩
    · rw [Taken.append, List.length_append]
      omega
    · rw [heq, heq', UInt32.add_assoc, UInt32.ofNat_add]

theorem Moves.recvbuf_length (h : Moves t c c') : c'.recvbuf.length ≤ c.recvbuf.length + t.data.length := by
  induction h with
  | refl => exact Nat.le_add_right _ _
  | @own t c c₁ c₂ h _ ih =>
    have hle : c₁.recvbuf.length ≤ c.recvbuf.length := by
      cases h with
      | reset _ _ _ _ hfall | resetAck _ _ _ hfall => simp [hfall.recvbuf]
      | consume => simp
      | close | reject => exact Nat.zero_le _
      | _ => exact Nat.le_refl _
    omega
  | @input t u c c₁ c₂ h _ ih =>
    have hle : c₁.recvbuf.length ≤ c.recvbuf.length + t.data.length := by
      cases h with
      | data p => simp
      | spill _ _ _ _ _ hfall | rst _ hfall | overflow _ _ _ _ hfall | excess _ _ _ _ hfall | invalid _ _ hfall =>
        simp [hfall.recvbuf]
      | _ => exact Nat.le_add_right _ _
    rw [Taken.append, List.length_append]
    omega

structure Opening (c : StreamCore) : Prop where
  unsent : c.state = .init → c.bytesSent = 0
  initial : c.state = .init ∨ c.state = .synSent →
    c.sendWindow = UInt32.ofNat defaultSendWindow ∧ c.bytesReceived = 0 ∧ c.bytesSent.toNat ≤ defaultSendWindow

theorem Opening.of_answered (h : c.state ≠ .init) (h' : c.state ≠ .synSent) : c.Opening :=
  ⟨fun hst => absurd hst h, fun hst => hst.elim (absurd · h) (absurd · h')⟩

theorem Fallen.opening (h : Fallen peer c c') : c'.Opening :=
  .of_answered (by simp [h.state]) (by simp [h.state])

theorem Step.opening (h : Step c c') (hc : c.Opening) : c'.Opening := by
  cases h with
  | reset _ _ _ _ hfall => exact hfall.opening
  | resetAck _ _ _ hfall => exact ⟨hfall.opening.unsent, hfall.opening.initial⟩
  | close | reject | synAck => exact .of_answered nofun nofun
  | syn _ hinit => exact ⟨nofun, fun _ => hc.initial (.inl hinit)⟩
  | synPush ch rest inc hinit _ hlen =>
    refine ⟨nofun, fun _ => ?_⟩
    obtain ⟨hwindow, hreceived, -⟩ := hc.initial (.inl hinit)
    refine ⟨hwindow, hreceived, ?_⟩
    have hch := ch.lt
    show (c.bytesSent + UInt32.ofNat ch.bytes.length).toNat ≤ defaultSendWindow
    rw [creditAvail, hwindow, hc.unsent hinit] at hlen
    rw [hc.unsent hinit, UInt32.zero_add, UInt32.toNat_ofNat', Nat.mod_eq_of_lt (by omega)]
    exact hlen
  | push _ rest _ hsend =>
    refine .of_answered ?_ ?_ <;> rcases hsend with h | h <;> simp only [h, finSent] <;> split <;> nofun
  | fin _ hsend => refine .of_answered ?_ ?_ <;> rcases hsend with h | h <;> simp [h, finSent]
  | ack _ _ hst => exact .of_answered hst.1 hst.2.1
  | eof | queue | window | consume | eofSeen => exact ⟨hc.unsent, hc.initial⟩

theorem Input.opening (h : Input t c c') : c'.Opening := by
  cases h with
  | spill _ _ _ _ _ hfall | rst _ hfall | overflow _ _ _ _ hfall | excess _ _ _ _ hfall | invalid _ _ hfall =>
    exact hfall.opening
  | late hclosed => exact .of_answered (by simp [hclosed]) (by simp [hclosed])
  | credit _ hst => exact .of_answered hst.1 hst.2.1
  | start => exact .of_answered nofun nofun
  | fin hopen | data _ hopen | direct _ hopen =>
    refine .of_answered ?_ ?_ <;> rcases hopen with h | h <;> (try rcases h with h | h) <;> simp [h, finReceived]

theorem Moves.opening (h : Moves t c c') (hc : c.Opening) : c'.Opening := by
  induction h with
  | refl => exact hc
  | own h _ ih => exact ih (h.opening hc)
  | input h _ ih => exact ih h.opening

theorem Moves.intact (h : Moves t c c') (hc : c.Intact) : c'.Intact := by
  induction h with
  | refl => exact hc
  | own h _ ih => exact ih (h.intact hc)
  | input h _ ih => exact ih (h.intact hc)

end StreamCore

namespace Stream

open StreamCore

variable {s s' s'' : Stream}

def Own (s s' : Stream) : Prop := Moves {} s.core s'.core

theorem Own.of_core (h : s'.core = s.core) : Own s s' := by
  unfold Own
  rw [h]
  exact .refl _

theorem Own.refl (s : Stream) : Own s s := .of_core rfl

theorem Own.trans {t : Stream} (h : Own s t) (h' : Own t s') : Own s s' := by
  have hboth := Moves.trans h h'
  rw [Taken.nil_append] at hboth
  exact hboth

theorem Own.step (h : Step s.core s'.core) : Own s s' := .single h

theorem Own.of_step {c : StreamCore} (h : Step s.core c) (hc : s'.core = c) : Own s s' := by
  subst hc
  exact .single h

@[simp] theorem lpEnqueue_core (s : Stream) : s.lpEnqueue.core = s.core := by
  unfold lpEnqueue
  split <;> rfl

@[simp] theorem wake_core (s : Stream) : s.wake.core = s.core := by
  unfold wake enqueue lpEnqueue
  split <;> (try split) <;> (try split) <;> rfl

@[simp] theorem delay_core (s : Stream) (ticks : Nat) : (s.delay ticks).core = s.core := by
  unfold delay
  split <;> rfl

@[simp] theorem delayRemove_core (s : Stream) : s.delayRemove.core = s.core := rfl

@[simp] theorem rstNotifySocket_core (s : Stream) : s.rstNotifySocket.core = s.core := by
  unfold rstNotifySocket
  split <;> rfl

@[simp] theorem wake_isDirect (s : Stream) : s.wake.isDirect = s.isDirect := by
  unfold wake enqueue lpEnqueue
  split <;> (try split) <;> (try split) <;> rfl

theorem frameGet_eq (s : Stream) : ∃ ok allocs, s.frameGet = (ok, { s with allocs := allocs }) := by
  unfold frameGet
  split
  · exact ⟨true, s.allocs, rfl⟩
  · exact ⟨_, _, rfl⟩

end Stream

end Multiplexd
