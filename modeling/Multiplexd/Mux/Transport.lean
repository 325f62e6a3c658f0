import Multiplexd.Mux.Quiet

/-!
# What a transport carries

The results about the bytes a session hands to its transports, over whole runs: they are whole frames
and a proper prefix of another, whatever happens, and in quiet runs the hello comes first and no frame
is written twice.
-/

namespace Multiplexd

/-! ### What a step leaves of the session -/

namespace Session

/-- The session without its buffers and its log: what it is, and the history of its transport. -/
def shell (ss : Session) : Session :=
  { ss.bare with
    sendbufStaging := false, sendbuf := [], oobbuf := [], dgrambuf := []
    ring := [], frames := 0, bytes := 0, partialOffset := 0, recvSeq := 0, unreported := 0, lastAckRecv := 0
    stalled := false, retransmitOff := none, retransmittedFrames := 0, retransmitCopy := false
    retransmitCopyCount := 0, retransmitCopySent := 0, logged := [], acked := 0 }

variable {ss ss' : Session}

theorem state_of_shell (h : ss'.shell = ss.shell) : ss'.state = ss.state := (congrArg Session.state h :)

theorem sendbufPush_shell (ss : Session) (f : MuxFrame) : (ss.sendbufPush f).shell = ss.shell := by
  obtain ⟨_, _, -, heq⟩ := ss.sendbufPush_spec f
  rw [heq]
  rfl

theorem pushAck_shell (ss : Session) (emit : Nat) :
    (ss.pushAck emit).shell = { ss with births := ss.births + 1 }.shell := by
  obtain ⟨_, _, -, heq⟩ := { ss with births := ss.births + 1 }.sendbufPush_spec (ss.newFrame (ctrlFrame streamIdCtrl flagAck emit))
  rw [pushAck, heq]
  rfl

theorem freezeHead_shell (ss : Session) (rest : List MuxFrame) : (ss.freezeHead rest).shell = ss.shell := by
  unfold freezeHead
  split <;> rfl

theorem startReplay_shell (ss : Session) : ss.startReplay.shell = ss.shell := by
  unfold startReplay
  split <;> rfl

theorem ClosedTo.shell (h : ss.ClosedTo ss') : ss'.shell = ss.closedForm.shell := by
  obtain ⟨_, _, _, rfl⟩ := h
  rfl

theorem Logs.shell {items : List Item} (h : ss.Logs items ss') : ss'.shell = ss.shell := by
  obtain ⟨_, _, _, -, -, rfl⟩ := h
  rfl

theorem suspend_shell (ss : Session) : ss.suspend.shell = { ss with state := .suspended, recvbuf := [] }.shell ∨
    ss.suspend.shell = ss.closedForm.shell := by
  rcases ss.suspend_spec with ⟨_, _, ss1, hlogs, heq⟩ | hclosed
  · rw [heq]
    exact .inl hlogs.shell
  · exact .inr hclosed.shell

theorem captureAndDiscard_shell (hst : ss.state = .suspended) (hopen : ss.captureAndDiscard.state ≠ .closed) :
    ss.captureAndDiscard.shell = { ss with recvbuf := [] }.shell := by
  rcases ss.captureAndDiscard_spec (by simp [hst]) with hlogs | hclosed
  · exact hlogs.shell
  · exact absurd hclosed.state hopen

theorem Acks.shell {count : Nat} (h : ss.Acks count ss') : ss'.shell = ss.shell := by
  obtain ⟨⟨_, _, _, _, _, _, _, _, _, rfl⟩, -⟩ := h
  rfl

theorem resumeAckRecv_shell {s : Session} {ok : Bool} {n : Nat} (hlog : s.LogInv) (hack : s.resumeAckRecv n = (ok, ss')) :
    ss'.shell = s.shell := by
  cases ok with
  | false =>
    obtain ⟨_, hacks⟩ := resumeAckRecv_false hlog hack
    exact hacks.shell
  | true =>
    obtain ⟨_, ss1, -, hacks, -, rfl⟩ := resumeAckRecv_spec hlog hack
    exact hacks.shell

end Session

namespace Base

variable [HelloCodec] {ss : Session} {frame : MuxFrame} {rest : List MuxFrame}

theorem ackRecv_shell {ss' : Session} {n : Nat} {unstalled : Bool} {bytes : List UInt8} (hb : Base ss)
    (hack : { ss with recvbuf := bytes }.ackRecv n = (true, unstalled, ss')) :
    ss'.shell = { ss with recvbuf := bytes }.shell := by
  obtain ⟨-, hacks, -⟩ := Session.ackRecv_spec (s := { ss with recvbuf := bytes }) hb.log hb.copy hack
  exact hacks.shell

theorem flushFull_shell (hb : Base ss) (hst : ss.state = .handshake ∨ ss.state = .established)
    (hbuf : ss.sendbuf = frame :: rest) (n : Nat) :
    (ss.flushFull frame rest n).shell = (ss.handOver frame n).shell ∨
      (ss.flushFull frame rest n).shell = (ss.handOver frame n).closedForm.shell := by
  obtain ⟨staging, -, ⟨-, heq⟩ | ⟨-, hlogs⟩ | hclosed⟩ := hb.flushFull_spec hst hbuf n
  · exact .inl (heq ▸ rfl)
  · exact .inl hlogs.shell
  · exact .inr hclosed.shell

theorem flushPart_shell (hb : Base ss) (hst : ss.state = .handshake ∨ ss.state = .established)
    (hbuf : ss.sendbuf = frame :: rest) (n : Nat) :
    (ss.flushPart frame rest n).shell = (ss.handOver frame n).shell ∨
      (ss.flushPart frame rest n).shell = (ss.handOver frame n).closedForm.shell := by
  obtain ⟨staging, -, ⟨heq, -⟩ | ⟨-, heq⟩ | ⟨-, hlogs⟩ | hclosed⟩ := hb.flushPart_spec hst hbuf n
  · exact .inl (heq ▸ rfl)
  · exact .inl (heq ▸ rfl)
  · exact .inl hlogs.shell
  · exact .inr hclosed.shell

end Base

/-! ### What a transport is given -/

def Event.installs : Event → Bool
  | .attachFd | .start | .resume _ => true
  | _ => false

/-- The transport of `ss` has been written to. -/
def Session.Extends (ss ss' : Session) : Prop :=
  ∃ bytes items, ss'.out = ss.out ++ bytes ∧ ss'.sent = ss.sent ++ items

namespace Session

variable {ss ss' ss'' : Session}

theorem Extends.of_eq (hout : ss'.out = ss.out) (hsent : ss'.sent = ss.sent) : ss.Extends ss' :=
  ⟨[], [], by simp [hout], by simp [hsent]⟩

theorem Extends.trans (h : ss.Extends ss') (h' : ss'.Extends ss'') : ss.Extends ss'' := by
  obtain ⟨bytes, items, hout, hsent⟩ := h
  obtain ⟨bytes', items', hout', hsent'⟩ := h'
  exact ⟨bytes ++ bytes', items ++ items', by rw [hout', hout, List.append_assoc],
    by rw [hsent', hsent, List.append_assoc]⟩

theorem Extends.handOver (ss : Session) (frame : MuxFrame) (n : Nat) : ss.Extends (ss.handOver frame n) :=
  ⟨_, _, rfl, rfl⟩

theorem Extends.of_shell (hs : ss''.shell = ss'.shell) (h : ss.Extends ss') : ss.Extends ss'' :=
  h.trans (.of_eq (congrArg Session.out hs :) (congrArg Session.sent hs :))

theorem Extends.suspend (h : ss.Extends ss') : ss.Extends ss'.suspend := by
  rcases ss'.suspend_shell with hs | hs <;> exact .of_shell hs h

end Session

section Runs

variable [HelloCodec]

open Session in
/-- Nothing is taken back from a transport. -/
theorem Micro.extends {quiet : Bool} {e : Event} {ss ss' : Session} (hm : Micro quiet e ss ss') (hb : Base ss)
    (he : e.installs = false) : ss.Extends ss' := by
  cases hm with
  | aux | table | closed | closing | closeWait | recvOther | recvStream | ackReject | dialed | park | oob
  | dgram | discard | copy | replayed | helloFresh =>
    exact .of_eq rfl rfl
  | forget _ h | install h | attach h | accepted h | resumeInstall _ h | resumeTrim _ _ h
  | resumeReject _ _ h => subst h; cases he
  | suspend => exact .suspend (.of_eq rfl rfl)
  | helloServer => exact .of_shell (startReplay_shell _) (.of_eq rfl rfl)
  | helloResume ss1 f rest hello _ _ _ _ _ _ _ hack =>
    have hs := resumeAckRecv_shell (s := { ss with recvbuf := rest }) hb.log hack
    have h : ss.Extends ss1 := .of_shell hs (.of_eq rfl rfl)
    exact .of_shell (startReplay_shell _) h
  | helloReject ss1 f rest hello _ _ _ _ _ _ _ hack =>
    have hs := resumeAckRecv_shell (s := { ss with recvbuf := rest }) hb.log hack
    have h : ss.Extends ss1 := .of_shell hs (.of_eq rfl rfl)
    exact h
  | push | stageOob | stageDgram => exact .of_shell (sendbufPush_shell _ _) (.of_eq rfl rfl)
  | ack => exact .of_shell (ss.pushAck_shell _) (.of_eq rfl rfl)
  | freeze frame rest => exact .of_shell (ss.freezeHead_shell rest) (.of_eq rfl rfl)
  | fail frame rest n => exact .suspend (.handOver ss frame n)
  | failClosed frame rest n => exact .handOver ss frame n
  | flushPart frame rest n hst hbuf =>
    rcases hb.flushPart_shell hst hbuf n with h | h <;> exact .of_shell h (.handOver ss frame n)
  | flushFull frame rest n hst hbuf =>
    rcases hb.flushFull_shell hst hbuf n with h | h <;> exact .of_shell h (.handOver ss frame n)
  | recvAck _ f rest _ _ _ _ _ _ hack => exact .of_shell (hb.ackRecv_shell hack) (.of_eq rfl rfl)

theorem Order.new (accepted tls : Bool) (id : BitVec 128) (maxPayload window : Nat) :
    Order (Session.new accepted tls id maxPayload window) where
  past := ⟨nofun, rfl, by simp [Session.new], by simp [Session.new], .inl rfl⟩
  stock b := by simp [Session.stock, Session.new, queued, held]
  oob := .nil
  dgram := .nil
  lead := show AllItems _ [] from .nil
  aside := by simp [Session.new]
  rest := by simp [Session.new]
  cut := by simp [Session.new]
  inOrder := by simp [Session.new]

variable {ss : Session} {own : Option Hello} {accepted staging : Bool} {sent : List Item} {sendbuf : List MuxFrame}

theorem Order.feed (h : Order ss) (e : Event) : Order (ss.feed e) := by
  unfold Session.feed
  split
  · split
    · exact { h with }
    · exact h
  · exact h

def Session.QuietRun (ss : Session) (es : List (Event × Inputs)) : Prop :=
  Along Session.step (fun ss e => ss.quietEvent e.1 = true) ss es

theorem Order.steps {e : Event} {ss' : Session} (hs : Steps true e ss ss') (hb : Base ss)
    (ho : Order ss) : Order ss' :=
  (reflTransGen_invariant (fun s => Base s ∧ Order s)
    (fun _ _ hm h => ⟨hm.base h.1, hm.order h.1 h.2⟩) hs ⟨hb, ho⟩).2

theorem Order.run {es : List (Event × Inputs)} (hb : Base ss) (ho : Order ss)
    (hquiet : ss.QuietRun es) : Order (ss.run es) := by
  refine (runFrom_invariant (fun s => Base s ∧ Order s) (fun s e h hq => ⟨h.1.step e, ?_⟩)
    ⟨hb, ho⟩ hquiet).2
  exact .steps (Session.step_steps h.1 e fun _ => hq) (Session.Base.feed h.1 e.1) (h.2.feed e.1)

theorem Session.Extends.step (hb : Base ss) (e : Event × Inputs)
    (he : e.1.installs = false) : ss.Extends (ss.step e) := by
  have hfeed : ss.Extends (ss.feed e.1) := by
    unfold Session.feed
    split
    · split <;> exact .of_eq rfl rfl
    · exact .of_eq rfl rfl
  refine hfeed.trans (reflTransGen_invariant (fun s => Base s ∧ (ss.feed e.1).Extends s)
    (fun _ _ hm h => ⟨hm.base h.1, h.2.trans (hm.extends h.1 he)⟩)
    (Session.step_steps (q := false) hb e (by simp)) ⟨Session.Base.feed hb e.1, .of_eq rfl rfl⟩).2

theorem Session.Extends.run (hb : Base ss) (es : List (Event × Inputs))
    (hes : ∀ e ∈ es, e.1.installs = false) : ss.Extends (ss.run es) := by
  induction es generalizing ss with
  | nil => exact .of_eq rfl rfl
  | cons e es ih =>
    exact (Session.Extends.step hb e (hes e (by simp))).trans
      (ih (hb.step e) fun e' he' => hes e' (by simp [he']))

/-! ### The hello -/

/-- What was written begins with this side's hello, as `enqueueHello` built it for the transport. -/
def OpensWithHello (ss : Session) : Prop :=
  ss.out = [] ∨ ∃ hello ∈ ss.ownHello, hello.server = ss.accepted ∧
    (ss.out <+: (helloFrame hello).encode ∨ (helloFrame hello).encode <+: ss.out)

theorem Past.opensWithHello (h : Past ss.accepted ss.ownHello ss.births ss.early ss.out ss.sent)
    (hf : Framed ss.out ss.sent) : OpensWithHello ss := by
  have hopening := h.opening
  cases hsent : ss.sent with
  | nil =>
    rw [hsent] at hopening
    exact hopening.imp_right fun ⟨hello, hown, hout⟩ => ⟨hello, hown, h.server hello hown, .inl hout⟩
  | cons first others =>
    rw [hsent] at hopening
    obtain ⟨⟨hello, hown, heq⟩, -⟩ := hopening
    obtain ⟨part, hout, -⟩ := hf
    refine .inr ⟨hello, hown, h.server hello hown, .inr ⟨itemBytes others ++ part, ?_⟩⟩
    rw [hout, ← heq, hsent]
    simp [itemBytes]

def HelloAlone (sendbuf : List MuxFrame) : Prop :=
  ∀ f ∈ sendbuf, (∃ i ∈ f.items, i.isHello = true) → f.items.length = 1

omit [HelloCodec] in
theorem helloAlone_of_none (h : AllItems (fun i => i.isHello = false) sendbuf) : HelloAlone sendbuf := by
  rintro f hf ⟨i, hi, hhello⟩
  simp [h f hf i hi] at hhello

theorem Led.helloAlone (h : Led own sent sendbuf staging) : HelloAlone sendbuf := by
  cases h with
  | writing _ hitems _ _ hrest =>
    intro f hf hhello
    rcases List.mem_cons.mp hf with rfl | hf
    · simp [hitems]
    · exact helloAlone_of_none hrest f hf hhello
  | written _ _ hbuf => exact helloAlone_of_none hbuf

theorem Lead.helloAlone {state : SessionState} (h : Lead state accepted own sent sendbuf staging) :
    HelloAlone sendbuf := by
  have hnil : HelloAlone [] := by simp [HelloAlone]
  cases state with
  | connect => exact h.2 ▸ hnil
  | handshake =>
    cases accepted with
    | true => exact h.2 ▸ hnil
    | false => exact h.1.helloAlone
  | established => exact Led.helloAlone h
  | init | suspended | closing | closeWait | closed => exact helloAlone_of_none h

/-- In a quiet run every transport is opened by the hello and nothing else is written before the
session is established; then frames of streams are written once each, in the order of the log. -/
theorem hello_leads_quietRun (accepted tls : Bool) (id : BitVec 128) (maxPayload window : Nat)
    (es : List (Event × Inputs)) (hquiet : (Session.new accepted tls id maxPayload window).QuietRun es) :
    let ss := (Session.new accepted tls id maxPayload window).run es
    OpensWithHello ss ∧ ss.early = [] ∧ (ss.sent.map Item.birth).Nodup ∧
      (ss.state = .established →
        ss.sent.filter Item.tracked <:+ ss.logged.take (ss.acked + ss.resent)) ∧
      HelloAlone ss.sendbuf := by
  intro ss
  have hnew := Base.new accepted tls id maxPayload window
  have hb : Base ss := hnew.run es
  have ho : Order ss := .run hnew (.new accepted tls id maxPayload window) hquiet
  exact ⟨ho.past.opensWithHello hb.framed, ho.past.early, nodup_of_tally ho.past.once, ho.inOrder,
    ho.lead.helloAlone⟩

end Runs

/-! A dialed session with an open stream, whose transport is then lost. -/

section Scenario

attribute [local instance] plainHelloCodec

/-- The hello a server answers with. -/
def serverHello (id : BitVec 128) (resumeSeq : UInt32) : List UInt8 :=
  (helloFrame { server := true, sessionId := some id, resumeSeq := resumeSeq }).encode

def freely : Inputs := { writes := List.replicate 4 (.sent 1000), fuel := 20 }

def dialedSession : Session := Session.new false false 0 1016 16

def openedThenLost : List (Event × Inputs) :=
  [(.attachFd, {}), (.connected true, {}), (.writable, freely), (.readable (serverHello 7 0), {}),
    (.stream [.opened 1], {}), (.deadLink, {})]

/-- `timeout_cb` of a stream. -/
def aborted (id : UInt16) : List (Event × Inputs) := [(.stream [.ctrl id flagRst 5], {}), (.flush, {})]

def abortInConnect : List (Event × Inputs) :=
  openedThenLost ++ (.attachFd, {}) :: aborted 1 ++ [(.connected true, {}), (.writable, freely)]

def abortInHandshake : List (Event × Inputs) :=
  openedThenLost ++ [(.attachFd, {}), (.connected true, {}), (.writable, freely)] ++ aborted 1 ++
    [(.writable, freely), (.readable (serverHello 7 0), {}), (.writable, freely)]

def abortInSuspended : List (Event × Inputs) :=
  openedThenLost ++ aborted 1 ++
    [(.attachFd, {}), (.connected true, {}), (.writable, freely), (.readable (serverHello 7 0), {}),
      (.writable, freely)]

theorem hello_leads_abortInSuspended :
    dialedSession.QuietRun abortInSuspended ∧ (dialedSession.run abortInSuspended).early = [] ∧
      (dialedSession.run abortInSuspended).sent.length = 2 :=
  have hquiet : dialedSession.QuietRun abortInSuspended := by
    unfold Session.QuietRun
    decide
  ⟨hquiet, (hello_leads_quietRun false false 0 1016 16 abortInSuspended hquiet).2.1, by decide⟩

/-- The RST of an abort in CONNECT is written ahead of the hello, in HANDSHAKE. -/
theorem abortInConnect_writes_rst_first :
    let ss := dialedSession.run abortInConnect
    ss.state = .handshake ∧ ss.early ≠ [] ∧
      ss.sent.map (fun i => (i.isHello, i.frame.flags)) = [(false, flagRst), (true, 0)] := by
  decide

end Scenario

/-- The bytes on a transport are whole frames and a proper prefix of another, nothing is taken back,
and in a quiet run no frame is written twice. -/
theorem transport_framed [HelloCodec] (accepted tls : Bool) (id : BitVec 128) (maxPayload window : Nat)
    (es es' : List (Event × Inputs)) (hes' : ∀ e ∈ es', e.1.installs = false) :
    let ss := (Session.new accepted tls id maxPayload window).run es
    let ss' := ss.run es'
    Framed ss'.out ss'.sent ∧ ss.Extends ss' ∧
      (∀ i ∈ ss'.sent, Frame.lengthField i.frame.encode = some i.frame.payload.length ∧
        i.frame.encode.drop frameHeaderSize = i.frame.payload) ∧
      ((Session.new accepted tls id maxPayload window).QuietRun (es ++ es') →
        (ss'.sent.map Item.birth).Nodup) := by
  intro ss ss'
  have hnew := Base.new accepted tls id maxPayload window
  have hb : Base ss := hnew.run es
  refine ⟨(hb.run es').framed, .run hb es' hes', fun i _ => ⟨i.frame.lengthField_encode, i.frame.drop_encode⟩,
    fun hquiet => ?_⟩
  have ho := Order.run hnew (.new accepted tls id maxPayload window) hquiet
  rw [Session.run, runFrom_append] at ho
  exact nodup_of_tally ho.past.once

section Scenario

attribute [local instance] plainHelloCodec

theorem transport_framed_abortInSuspended :
    (∀ e ∈ [(Event.writable, freely)], e.1.installs = false) ∧
      Framed ((dialedSession.run abortInSuspended).run [(.writable, freely)]).out
        ((dialedSession.run abortInSuspended).run [(.writable, freely)]).sent :=
  have hes : ∀ e ∈ [(Event.writable, freely)], e.1.installs = false := by simp [Event.installs]
  ⟨hes, (transport_framed false false 0 1016 16 abortInSuspended [(.writable, freely)] hes).1⟩

/-- The RST of an abort in HANDSHAKE is written at once, logged, and replayed on the same transport. -/
theorem abortInHandshake_writes_rst_twice :
    let ss := dialedSession.run abortInHandshake
    ss.state = .established ∧
      ss.sent.map (fun i => (i.isHello, i.frame.flags, i.birth)) =
        [(true, 0, 1), (false, flagRst, 2), (false, flagRst, 2)] := by
  decide

end Scenario

end Multiplexd
