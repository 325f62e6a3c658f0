import Multiplexd.Mux.Meters
import Multiplexd.Mux.Session

/-!
# The gauges that sessions share

All sessions of a process count their unconfirmed frames, their established and their half-open transports in
the same counters. A session is seen here as its streams, its state and its log, of which only the numbers of
frames in the entries matter; the operations are those of `session.c` and `unacked.c` that move a counter, with
the states in which the source calls them.
-/

namespace Multiplexd

/-- Where a `struct mux_session` lies. -/
abbrev SessionAddr := Nat

/-- `struct mux_session`: its streams, its state, the `unacked_count` of the entries of its ring, and
`unacked.frames`. -/
structure FleetSession where
  roster : Roster := Roster.new
  state : SessionState := .init
  ring : List Nat := []
  frames : Nat := 0

structure Fleet where
  sessions : SessionAddr → FleetSession
  known : List SessionAddr
  unackedFrames : Gauge
  numSessions : Gauge
  numSessionHalfopen : Gauge

namespace Fleet

variable (f : Fleet)

def new : Fleet where
  sessions := fun _ => {}
  known := []
  unackedFrames := Gauge.zero
  numSessions := Gauge.zero
  numSessionHalfopen := Gauge.zero

def write (i : SessionAddr) (s : FleetSession) : Fleet :=
  { f with sessions := Function.update f.sessions i s }

/-- `mux_session_set_state`, as far as the counters are concerned. -/
def setState (i : SessionAddr) (newstate : SessionState) : Fleet :=
  let oldstate := (f.sessions i).state
  if oldstate = newstate then f
  else
    let f := f.write i { f.sessions i with state := newstate }
    if oldstate = .established then { f with numSessions := f.numSessions.sub 1 }
    else if oldstate.halfopen ∧ ¬newstate.halfopen ∧ newstate ≠ .established then
      { f with numSessionHalfopen := f.numSessionHalfopen.sub 1 }
    else if newstate.halfopen ∧ ¬oldstate.halfopen then
      { f with numSessionHalfopen := f.numSessionHalfopen.add 1 }
    else if newstate = .established then
      { f with numSessionHalfopen := f.numSessionHalfopen.sub 1, numSessions := f.numSessions.add 1 }
    else f

def onRoster (i : SessionAddr) (act : Roster → Roster) : Fleet :=
  f.write i { f.sessions i with roster := act (f.sessions i).roster }

/-- The loop of `mux_unacked_ack_trim`: the ring, and what is left to trim when it is empty. -/
def trimRing : Nat → List Nat → Nat × List Nat
  | 0, ring => (0, ring)
  | remaining + 1, [] => (remaining + 1, [])
  | remaining + 1, count :: ring =>
    if remaining + 1 < count then (0, (count - (remaining + 1)) :: ring) else trimRing (remaining + 1 - count) ring

def freeAll (i : SessionAddr) : Fleet :=
  { f.write i { f.sessions i with ring := [], frames := 0 } with
    unackedFrames := f.unackedFrames.sub (f.sessions i).frames }

def cleanup (i : SessionAddr) : Fleet := (f.onRoster i Roster.shutdown).freeAll i

def reset (i : SessionAddr) (accepted : Bool) : Fleet :=
  if (f.sessions i).state = .closed then f
  else ((f.setState i .closed).onRoster i (Roster.reset · accepted)).freeAll i

/-- `unacked_push`, with or without memory for the entry. -/
def push (i : SessionAddr) (count : Nat) (grown accepted : Bool) : Fleet :=
  if !grown then f.reset i accepted
  else
    { f.write i { f.sessions i with ring := (f.sessions i).ring ++ [count], frames := (f.sessions i).frames + count } with
      unackedFrames := f.unackedFrames.add count }

def ackTrim (i : SessionAddr) (count : Nat) : Fleet :=
  if (f.sessions i).frames < count then f
  else
    let (remaining, ring) := trimRing count (f.sessions i).ring
    { f.write i { f.sessions i with ring := ring, frames := (f.sessions i).frames - count + remaining } with
      -- the ring is empty before the counter says so: what is left is added back
      unackedFrames := (f.unackedFrames.sub count).add remaining }

def initiateShutdown (i : SessionAddr) (accepted : Bool) : Fleet :=
  if (f.sessions i).state ≠ .established ∧ (f.sessions i).state ≠ .handshake then f.reset i accepted
  else (f.cleanup i).setState i .closing

/-- `mux_session_close`; the session is released. -/
def close (i : SessionAddr) (accepted : Bool) (orphans : Nat) : Fleet :=
  let f := ((f.reset i accepted).cleanup i).onRoster i (Roster.freeOrphans orphans)
  { f.write i {} with known := f.known.erase i }

end Fleet

inductive FleetEvent where
  | created (i : SessionAddr)
  | streams (i : SessionAddr) (e : RosterEvent)
  | push (i : SessionAddr) (count : Nat) (grown accepted : Bool)
  | ackTrim (i : SessionAddr) (count : Nat)
  | attachFd (i : SessionAddr)
  /-- `handshake_start`, from `mux_session_start` or when the transport is connected -/
  | handshakeStart (i : SessionAddr)
  | handshakeDone (i : SessionAddr)
  /-- `handshake_client_fresh`, with or without memory for the new table -/
  | clientFresh (i : SessionAddr) (grown : Bool)
  | suspend (i : SessionAddr)
  | resumeAttach (i : SessionAddr)
  | initiateShutdown (i : SessionAddr) (accepted : Bool)
  /-- `send_handle_rx_closed`, for a transport that was closed for good -/
  | rxClosed (i : SessionAddr)
  | shutdownDone (i : SessionAddr)
  | reset (i : SessionAddr) (accepted : Bool)
  | close (i : SessionAddr) (accepted : Bool) (orphans : Nat)

namespace Fleet

/-- A session that is not there, or in a state in which the source does not make the call, changes nothing. -/
def step (f : Fleet) : FleetEvent → Fleet
  | .created i => if f.known.contains i then f else { f.write i {} with known := i :: f.known }
  | .streams i e => if f.known.contains i then f.onRoster i (Roster.step · e) else f
  | .push i count grown accepted => if f.known.contains i then f.push i count grown accepted else f
  | .ackTrim i count => if f.known.contains i then f.ackTrim i count else f
  | .attachFd i =>
    if f.known.contains i ∧ ((f.sessions i).state = .init ∨ (f.sessions i).state = .suspended ∨
        (f.sessions i).state = .closed) then f.setState i .connect else f
  | .handshakeStart i =>
    if f.known.contains i ∧ ((f.sessions i).state = .init ∨ (f.sessions i).state = .connect) then
      f.setState i .handshake else f
  | .handshakeDone i =>
    if f.known.contains i ∧ (f.sessions i).state = .handshake then f.setState i .established else f
  | .clientFresh i grown =>
    if f.known.contains i ∧ (f.sessions i).state = .handshake then
      let f := f.onRoster i Roster.shutdown
      if grown then (f.onRoster i fun m => { m with tableLost := false }).freeAll i else f.reset i false
    else f
  | .suspend i =>
    if f.known.contains i ∧ ((f.sessions i).state = .established ∨ (f.sessions i).state.halfopen) then
      f.setState i .suspended else f
  | .resumeAttach i =>
    if f.known.contains i ∧ (f.sessions i).state = .suspended then f.setState i .handshake else f
  | .initiateShutdown i accepted => if f.known.contains i then f.initiateShutdown i accepted else f
  | .rxClosed i =>
    if f.known.contains i ∧ (f.sessions i).state = .established then (f.freeAll i).setState i .closing else f
  | .shutdownDone i =>
    if f.known.contains i ∧ (f.sessions i).state = .closing then f.setState i .closeWait else f
  | .reset i accepted => if f.known.contains i then f.reset i accepted else f
  | .close i accepted orphans => if f.known.contains i then f.close i accepted orphans else f

def run (f : Fleet) (es : List FleetEvent) : Fleet := runFrom step f es

/-! ### The gauges follow -/

end Fleet

namespace FleetSession

structure Metered (s : FleetSession) : Prop where
  kept : s.roster.Kept Roster.Metered
  frames : s.frames = s.ring.sum

def logWeight (s : FleetSession) : Nat := s.ring.sum

def establishedWeight (s : FleetSession) : Nat := (decide (s.state = .established)).toNat

def halfopenWeight (s : FleetSession) : Nat := s.state.halfopen.toNat

theorem metered_new : Metered {} := ⟨⟨Roster.new_sound, Roster.new_metered⟩, rfl⟩

end FleetSession

namespace Fleet

open FleetSession (logWeight establishedWeight halfopenWeight)
open Roster (metered_carried)

variable {f f' : Fleet} {i : SessionAddr}

structure Metered (f : Fleet) : Prop where
  nodup : f.known.Nodup
  session : ∀ i ∈ f.known, (f.sessions i).Metered
  unackedFrames : f.unackedFrames.Reads (censusOn logWeight f.known f.sessions)
  numSessions : f.numSessions.Reads (censusOn establishedWeight f.known f.sessions)
  numSessionHalfopen : f.numSessionHalfopen.Reads (censusOn halfopenWeight f.known f.sessions)

theorem new_metered : new.Metered := ⟨List.nodup_nil, nofun, Gauge.zero_reads, Gauge.zero_reads, Gauge.zero_reads⟩

/-- One session is written, and the counters follow it. -/
theorem Metered.update (h : f.Metered) (hi : i ∈ f.known) {s : FleetSession}
    (hsessions : f'.sessions = Function.update f.sessions i s) (hknown : f'.known = f.known) (hok : s.Metered)
    (hunacked : ∀ k, f.unackedFrames.Reads (k + logWeight (f.sessions i)) → f'.unackedFrames.Reads (k + logWeight s))
    (hestablished : ∀ k, f.numSessions.Reads (k + establishedWeight (f.sessions i)) →
      f'.numSessions.Reads (k + establishedWeight s))
    (hhalfopen : ∀ k, f.numSessionHalfopen.Reads (k + halfopenWeight (f.sessions i)) →
      f'.numSessionHalfopen.Reads (k + halfopenWeight s)) : f'.Metered := by
  refine ⟨hknown ▸ h.nodup, fun j hj => ?_, ?_, ?_, ?_⟩
  · rw [hsessions]
    by_cases heq : j = i
    · subst heq
      rwa [Function.update_self]
    · rw [Function.update_of_ne heq]
      exact h.session j (hknown ▸ hj)
  · rw [hsessions, hknown]
    exact h.unackedFrames.census_update h.nodup hi hunacked
  · rw [hsessions, hknown]
    exact h.numSessions.census_update h.nodup hi hestablished
  · rw [hsessions, hknown]
    exact h.numSessionHalfopen.census_update h.nodup hi hhalfopen

theorem Metered.onRoster (h : f.Metered) (hi : i ∈ f.known) {act : Roster → Roster}
    (hact : ∀ m : Roster, m.Kept Roster.Metered → (act m).Kept Roster.Metered) : (f.onRoster i act).Metered := by
  have hs := h.session i hi
  exact h.update hi rfl rfl ⟨hact _ hs.kept, hs.frames⟩ (fun _ hr => hr) (fun _ hr => hr) (fun _ hr => hr)

theorem Metered.freeAll (h : f.Metered) (hi : i ∈ f.known) : (f.freeAll i).Metered := by
  have hs := h.session i hi
  refine h.update hi rfl rfl ⟨hs.kept, rfl⟩ (fun k hr => ?_) (fun _ hr => hr) (fun _ hr => hr)
  rw [logWeight, ← hs.frames] at hr
  exact hr.sub

/-- `mux_session_set_state` for the transitions it is made for: a session leaves ESTABLISHED for a state without
a transport that is being set up, and reaches it from one with such a transport. -/
theorem setState_eq (f : Fleet) (i : SessionAddr) {newstate : SessionState}
    (hleaves : (f.sessions i).state = .established → newstate.halfopen = false)
    (henters : newstate = .established → (f.sessions i).state = .established ∨ (f.sessions i).state.halfopen = true) :
    f.setState i newstate = { f.write i { f.sessions i with state := newstate } with
      numSessions :=
        f.numSessions.follow (decide ((f.sessions i).state = .established)) (decide (newstate = .established))
      numSessionHalfopen := f.numSessionHalfopen.follow (f.sessions i).state.halfopen newstate.halfopen } := by
  unfold setState
  by_cases hsame : (f.sessions i).state = newstate
  · subst hsame
    simp [write, Gauge.follow]
  · simp only [if_neg hsame]
    revert hleaves henters hsame
    generalize (f.sessions i).state = oldstate
    intro hsame hleaves henters
    cases oldstate <;> cases newstate <;> simp_all [SessionState.halfopen, Gauge.follow, write]

theorem Metered.setState (h : f.Metered) (hi : i ∈ f.known) {newstate : SessionState}
    (hleaves : (f.sessions i).state = .established → newstate.halfopen = false)
    (henters : newstate = .established → (f.sessions i).state = .established ∨ (f.sessions i).state.halfopen = true) :
    (f.setState i newstate).Metered := by
  have hs := h.session i hi
  rw [setState_eq f i hleaves henters]
  exact h.update hi rfl rfl ⟨hs.kept, hs.frames⟩ (fun _ hr => hr) (fun _ hr => hr.follow _)
    (fun _ hr => hr.follow _)

/-- A state that is reached from every state. -/
theorem Metered.setState_down (h : f.Metered) (hi : i ∈ f.known) {newstate : SessionState}
    (hdown : newstate.halfopen = false ∧ newstate ≠ .established) : (f.setState i newstate).Metered :=
  h.setState hi (fun _ => hdown.1) fun heq => absurd heq hdown.2

theorem setState_known (f : Fleet) (i : SessionAddr) (newstate : SessionState) : (f.setState i newstate).known = f.known := by
  unfold setState
  dsimp only
  repeat' split
  all_goals rfl

theorem Metered.shutdownStreams (h : f.Metered) (hi : i ∈ f.known) : (f.onRoster i Roster.shutdown).Metered :=
  h.onRoster hi fun _ hm => metered_carried.shutdown hm

theorem Metered.cleanup (h : f.Metered) (hi : i ∈ f.known) : (f.cleanup i).Metered := (h.shutdownStreams hi).freeAll hi

theorem Metered.reset (h : f.Metered) (hi : i ∈ f.known) (accepted : Bool) :
    (f.reset i accepted).Metered ∧ (f.reset i accepted).known = f.known := by
  unfold Fleet.reset
  split
  · exact ⟨h, rfl⟩
  · have hknown := setState_known f i .closed
    have hclosed : (f.setState i .closed).Metered := h.setState_down hi ⟨rfl, nofun⟩
    have hreset : ((f.setState i .closed).onRoster i (Roster.reset · accepted)).Metered :=
      hclosed.onRoster (hknown ▸ hi) fun _ hm => metered_carried.reset hm accepted
    exact ⟨hreset.freeAll (hknown ▸ hi), hknown⟩

/-- What is in the ring is enough. -/
theorem trimRing_spec (count : Nat) (ring : List Nat) (hcount : count ≤ ring.sum) :
    (trimRing count ring).1 = 0 ∧ (trimRing count ring).2.sum + count = ring.sum := by
  induction ring generalizing count with
  | nil =>
    obtain rfl : count = 0 := by simpa using hcount
    exact ⟨rfl, rfl⟩
  | cons c ring ih =>
    cases count with
    | zero => exact ⟨rfl, rfl⟩
    | succ count =>
      rw [List.sum_cons] at hcount ⊢
      unfold trimRing
      split
      · refine ⟨rfl, ?_⟩
        rw [List.sum_cons]
        omega
      · obtain ⟨hnone, hsum⟩ := ih (count + 1 - c) (by omega)
        exact ⟨hnone, by omega⟩

theorem Metered.push (h : f.Metered) (hi : i ∈ f.known) (count : Nat) (grown accepted : Bool) :
    (f.push i count grown accepted).Metered := by
  have hs := h.session i hi
  unfold Fleet.push
  split
  · exact (h.reset hi accepted).1
  · refine h.update hi rfl rfl ⟨hs.kept, ?_⟩ (fun k hr => ?_) (fun _ hr => hr) (fun _ hr => hr)
    · simp [hs.frames]
    · refine (hr.add count).congr ?_
      simp [logWeight, Nat.add_assoc]

theorem Metered.ackTrim (h : f.Metered) (hi : i ∈ f.known) (count : Nat) : (f.ackTrim i count).Metered := by
  have hs := h.session i hi
  unfold Fleet.ackTrim
  split
  · exact h
  next hcount =>
    obtain ⟨hnone, hsum⟩ := trimRing_spec count (f.sessions i).ring (by rw [← hs.frames]; omega)
    generalize trimRing count (f.sessions i).ring = r at hnone hsum
    obtain ⟨remaining, ring⟩ := r
    obtain rfl : remaining = 0 := hnone
    refine h.update hi rfl rfl ⟨hs.kept, ?_⟩ (fun k hr => ?_) (fun _ hr => hr) (fun _ hr => hr)
    · have hframes := hs.frames
      dsimp only at hsum ⊢
      omega
    · refine (Gauge.Reads.sub (n := count) (hr.congr ?_)).add 0
      change k + (f.sessions i).ring.sum = k + ring.sum + count
      dsimp only at hsum
      omega

theorem Metered.initiateShutdown (h : f.Metered) (hi : i ∈ f.known) (accepted : Bool) :
    (f.initiateShutdown i accepted).Metered := by
  unfold Fleet.initiateShutdown
  split
  · exact (h.reset hi accepted).1
  · exact (h.cleanup hi).setState_down hi ⟨rfl, nofun⟩

theorem Metered.forget (h : f.Metered) (hi : i ∈ f.known) (hstate : (f.sessions i).state = .closed)
    (hring : (f.sessions i).ring = []) : { f.write i {} with known := f.known.erase i }.Metered := by
  have hnot : i ∉ f.known.erase i := h.nodup.not_mem_erase
  have hcensus : ∀ {w : FleetSession → Nat}, w (f.sessions i) = 0 →
      censusOn w f.known f.sessions = censusOn w (f.known.erase i) (Function.update f.sessions i {}) := by
    intro w hw
    rw [censusOn_update_of_notMem hnot, censusOn_perm (List.perm_cons_erase hi), censusOn_cons, hw, Nat.zero_add]
  refine ⟨h.nodup.erase i, fun j hj => ?_, h.unackedFrames.congr (hcensus ?_), h.numSessions.congr (hcensus ?_),
    h.numSessionHalfopen.congr (hcensus ?_)⟩
  · have hne : j ≠ i := fun heq => hnot (heq ▸ hj)
    have hsession := h.session j (List.mem_of_mem_erase hj)
    simpa [write, Function.update_of_ne hne] using hsession
  · rw [logWeight, hring]
    rfl
  · rw [establishedWeight, hstate]
    rfl
  · rw [halfopenWeight, hstate]
    rfl

theorem setState_state (f : Fleet) (i : SessionAddr) (newstate : SessionState) :
    ((f.setState i newstate).sessions i).state = newstate := by
  unfold setState
  dsimp only
  split
  · assumption
  repeat' split
  all_goals simp [write]

theorem reset_state (f : Fleet) (i : SessionAddr) (accepted : Bool) : ((f.reset i accepted).sessions i).state = .closed := by
  unfold reset
  split
  · assumption
  · simp [freeAll, onRoster, write, setState_state]

theorem Metered.close (h : f.Metered) (hi : i ∈ f.known) (accepted : Bool) (orphans : Nat) :
    (f.close i accepted orphans).Metered := by
  obtain ⟨hreset, hknown⟩ := h.reset hi accepted
  have hi' : i ∈ (f.reset i accepted).known := hknown ▸ hi
  have horphans : (((f.reset i accepted).cleanup i).onRoster i (Roster.freeOrphans orphans)).Metered :=
    (hreset.cleanup hi').onRoster hi' fun _ hm => metered_carried.freeOrphans orphans hm
  refine horphans.forget hi' ?_ ?_
  · simp [Fleet.onRoster, Fleet.cleanup, Fleet.freeAll, write, reset_state]
  · simp [Fleet.onRoster, Fleet.cleanup, Fleet.freeAll, write]

theorem Metered.created (h : f.Metered) (hi : i ∉ f.known) : { f.write i {} with known := i :: f.known }.Metered := by
  have hcensus : ∀ {w : FleetSession → Nat}, w {} = 0 →
      censusOn w f.known f.sessions = censusOn w (i :: f.known) (Function.update f.sessions i {}) := by
    intro w hw
    rw [censusOn_cons, Function.update_self, hw, Nat.zero_add, censusOn_update_of_notMem hi]
  refine ⟨List.nodup_cons.mpr ⟨hi, h.nodup⟩, fun j hj => ?_, h.unackedFrames.congr (hcensus rfl),
    h.numSessions.congr (hcensus rfl), h.numSessionHalfopen.congr (hcensus rfl)⟩
  by_cases heq : j = i
  · subst heq
    simpa [write] using FleetSession.metered_new
  · simpa [write, Function.update_of_ne heq] using h.session j ((List.mem_cons.mp hj).resolve_left heq)

theorem Metered.step (h : f.Metered) (e : FleetEvent) : (f.step e).Metered := by
  cases e with
  | created i =>
    rw [Fleet.step]
    split
    · exact h
    next hnew => exact h.created (by simpa using hnew)
  | streams i e =>
    rw [Fleet.step]
    split
    next hi => exact h.onRoster (by simpa using hi) fun _ hm => metered_carried.step hm e
    · exact h
  | push i count grown accepted =>
    rw [Fleet.step]
    split
    next hi => exact h.push (by simpa using hi) count grown accepted
    · exact h
  | ackTrim i count =>
    rw [Fleet.step]
    split
    next hi => exact h.ackTrim (by simpa using hi) count
    · exact h
  | attachFd i =>
    rw [Fleet.step]
    split
    next hi =>
      refine h.setState (by simpa using hi.1) (fun hest => ?_) nofun
      rw [hest] at hi
      simp at hi
    · exact h
  | handshakeStart i =>
    rw [Fleet.step]
    split
    next hi =>
      refine h.setState (by simpa using hi.1) (fun hest => ?_) nofun
      rw [hest] at hi
      simp at hi
    · exact h
  | handshakeDone i =>
    rw [Fleet.step]
    split
    next hi => exact h.setState (by simpa using hi.1) (fun _ => rfl) fun _ => .inr (by rw [hi.2]; rfl)
    · exact h
  | clientFresh i grown =>
    rw [Fleet.step]
    split
    next hi =>
      have hi' : i ∈ f.known := by simpa using hi.1
      have hshutdown := h.shutdownStreams hi'
      dsimp only
      split
      · exact (hshutdown.onRoster hi' fun _ hm => metered_carried.act hm .newTable).freeAll hi'
      · exact (hshutdown.reset hi' false).1
    · exact h
  | suspend i =>
    rw [Fleet.step]
    split
    next hi => exact h.setState_down (by simpa using hi.1) ⟨rfl, nofun⟩
    · exact h
  | resumeAttach i =>
    rw [Fleet.step]
    split
    next hi =>
      refine h.setState (by simpa using hi.1) (fun hest => ?_) nofun
      rw [hest] at hi
      simp at hi
    · exact h
  | initiateShutdown i accepted =>
    rw [Fleet.step]
    split
    next hi => exact h.initiateShutdown (by simpa using hi) accepted
    · exact h
  | rxClosed i =>
    rw [Fleet.step]
    split
    next hi =>
      have hi' : i ∈ f.known := by simpa using hi.1
      exact (h.freeAll hi').setState_down hi' ⟨rfl, nofun⟩
    · exact h
  | shutdownDone i =>
    rw [Fleet.step]
    split
    next hi => exact h.setState_down (by simpa using hi.1) ⟨rfl, nofun⟩
    · exact h
  | reset i accepted =>
    rw [Fleet.step]
    split
    next hi => exact (h.reset (by simpa using hi) accepted).1
    · exact h
  | close i accepted orphans =>
    rw [Fleet.step]
    split
    next hi => exact h.close (by simpa using hi) accepted orphans
    · exact h

theorem run_metered (es : List FleetEvent) : (run new es).Metered :=
  runFrom_invariant_always Metered (fun _ e hm => hm.step e) new_metered es

/-- In every run of any number of sessions each gauge equals what it counts, and was never below zero. -/
theorem run_gauges (es : List FleetEvent) :
    let f := run new es
    (∀ i ∈ f.known, let m := (f.sessions i).roster
      m.numHalfopen.Reads (m.table.countP fun j => (m.members j).state.halfopen) ∧
      m.numClosed.Reads (m.table.countP fun j => (m.members j).state = .closed) ∧
      m.recvBufferedBytes.Reads (m.table.map fun j => (m.members j).bufferedBytes).sum ∧
      ∀ j, (m.members j).bufferedBytes = (m.members j).recvLen ∧ (j ∉ m.table → (m.members j).state = .closed)) ∧
    f.unackedFrames.Reads (f.known.map fun i => (f.sessions i).ring.sum).sum ∧
    f.numSessions.Reads (f.known.countP fun i => (f.sessions i).state = .established) ∧
    f.numSessionHalfopen.Reads (f.known.countP fun i => (f.sessions i).state.halfopen) := by
  have h := run_metered es
  refine ⟨fun i hi => ?_, h.unackedFrames, ?_, ?_⟩
  · have hm := (h.session i hi).kept.kept
    refine ⟨?_, ?_, ?_, fun j => ⟨(hm.member j).buffered, (hm.member j).outside⟩⟩
    · refine hm.halfopen.congr (Eq.trans ?_ (censusOn_toNat (fun t : Member => t.state.halfopen) _ _))
      refine congrArg List.sum (List.map_congr_left fun j _ => ?_)
      rw [Member.halfopenWeight, (hm.member j).counted]
    · exact hm.closed.congr (censusOn_toNat (fun t : Member => decide (t.state = .closed)) _ _)
    · refine hm.buffered.congr (congrArg List.sum (List.map_congr_left fun j _ => ?_))
      exact (hm.member j).buffered.symm
  · exact h.numSessions.congr (censusOn_toNat (fun s : FleetSession => decide (s.state = .established)) _ _)
  · exact h.numSessionHalfopen.congr (censusOn_toNat (fun s : FleetSession => s.state.halfopen) _ _)

end Fleet

end Multiplexd
