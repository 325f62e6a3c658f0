import Multiplexd.Server.Parking

/-!
# What parked connections wait for

Nothing looks at the parking list but the settle timer, and only the session's events start it. So a
connection is stranded by a state change that ends its dial without an event, or by an event that comes
before the change. The session tells a failed attempt after it has let go of the transport and a close
after its reset; in between it has already left the state that the connections wait in. The invariant
is therefore kept in three strengths: where the tunnel is called back, where a session operation
returns, and between the callbacks of the event loop.
-/

namespace Multiplexd

/-- The part of a tunnel that decides whether its parked connections will be looked at again. -/
structure Vigil where
  state : SessionState
  fd : Bool
  redialOnClosed : Bool
  park : Bool
  parked : List Nat

namespace Vigil

/-- What holds wherever the tunnel is called back. A redial is owed by a close only. -/
structure Steady (v : Vigil) : Prop where
  dialing : v.state.halfopen → v.fd
  fresh : v.state = .init → v.fd = false ∧ v.parked = []
  owed : v.redialOnClosed → v.state = .closing ∨ v.state = .closeWait ∨ v.state = .closed

/-- What holds when a session operation has returned: a session that has closed may not have told so. -/
structure Coherent (v : Vigil) : Prop extends Steady v where
  waited : v.parked ≠ [] → v.state.halfopen ∨ v.redialOnClosed ∨ v.park ∨ v.state = .closed

/-- What holds between callbacks. -/
structure Watched (v : Vigil) : Prop extends Coherent v where
  told : v.state = .closed → v.redialOnClosed = false ∧ (v.parked ≠ [] → v.park)

variable {v : Vigil}

/-- The head of `tunnel_on_event`. -/
def arm (v : Vigil) : Vigil := { v with park := v.park || v.parked ≠ [] }

theorem Steady.arm (h : v.Steady) : v.arm.Coherent where
  __ := h
  waited hparked := .inr (.inr (.inl (by
    change (v.park || v.parked ≠ []) = true
    simpa using .inr hparked)))

theorem coherent_of_closed (hclosed : v.state = .closed) : v.Coherent where
  dialing := by simp [hclosed, SessionState.halfopen]
  fresh := by simp [hclosed]
  owed _ := .inr (.inr hclosed)
  waited _ := .inr (.inr (.inr hclosed))

theorem Coherent.watched_of_ne (h : v.Coherent) (hne : v.state ≠ .closed) : v.Watched where
  toCoherent := h
  told hclosed := absurd hclosed hne

theorem Steady.not_owed (h : v.Steady) (hclosing : v.state ≠ .closing) (hwait : v.state ≠ .closeWait)
    (hclosed : v.state ≠ .closed) : v.redialOnClosed = false := by
  cases howed : v.redialOnClosed with
  | false => rfl
  | true => exact absurd (h.owed howed) (by simp [hclosing, hwait, hclosed])

theorem Watched.waiting (h : v.Watched) (hwait : v.state.halfopen ∨ v.redialOnClosed) (parked : List Nat) :
    ({ v with parked := parked } : Vigil).Watched where
  __ := h
  fresh hinit := by
    rcases hwait with hhalf | howed
    · simp_all [SessionState.halfopen]
    · simpa [show v.state = .init from hinit] using h.owed howed
  waited _ := hwait.elim .inl (fun howed => .inr (.inl howed))
  told hclosed := by
    rcases hwait with hhalf | howed
    · simp_all [SessionState.halfopen]
    · simpa [howed] using (h.told hclosed).1

/-- An empty parking list needs no timer. -/
theorem Watched.emptied (h : v.Watched) (park : Bool) : ({ v with parked := [], park := park } : Vigil).Watched where
  __ := h
  fresh hinit := ⟨(h.fresh hinit).1, rfl⟩
  waited hparked := absurd rfl hparked
  told hclosed := ⟨(h.told hclosed).1, fun hparked => absurd rfl hparked⟩

end Vigil

namespace ParkingTunnel

def vigil (t : ParkingTunnel) : Vigil where
  state := t.state
  fd := t.fd
  redialOnClosed := t.redialOnClosed
  park := t.park
  parked := t.conns.parked

theorem scheduleReconnect_vigil (t : ParkingTunnel) : t.scheduleReconnect.vigil = t.vigil := by
  unfold scheduleReconnect
  split <;> rfl

theorem armPark_vigil (t : ParkingTunnel) : t.armPark.vigil = t.vigil.arm := by
  unfold armPark
  split <;> simp_all [vigil, Vigil.arm]

variable {t : ParkingTunnel}

theorem attachInstall_watched (howed : t.redialOnClosed = false) : t.attachInstall.vigil.Watched := by
  have hsteady : ({ t with fd := true, state := .connect } : ParkingTunnel).vigil.Steady := by
    constructor <;> simp [vigil, howed]
  rw [attachInstall, armPark_vigil]
  exact hsteady.arm.watched_of_ne (by simp [vigil, Vigil.arm])

theorem redialClosed_watched (h : t.vigil.Watched) (howed : t.redialOnClosed = false) :
    t.redialClosed.vigil.Watched := by
  obtain ⟨dialed, rest, hdial⟩ := t.ask_eq
  obtain ⟨table, rest', htable⟩ := ask_eq { t with inputs := rest }
  cases dialed with
  | false =>
    simp only [redialClosed, hdial, scheduleReconnect_vigil]
    exact h
  | true =>
    cases table with
    | false =>
      simp only [redialClosed, hdial, htable]
      exact h
    | true =>
      simp only [redialClosed, hdial, htable]
      exact attachInstall_watched howed

/-- The event that a session has closed settles what its closing owed. -/
theorem onClosed_watched (hclosed : t.state = .closed) : t.onClosed.vigil.Watched := by
  have htold : ({ t.armPark with redialOnClosed := false } : ParkingTunnel).vigil.Watched := by
    have hvigil : ({ t.armPark with redialOnClosed := false } : ParkingTunnel).vigil =
        { t.vigil.arm with redialOnClosed := false } :=
      congrArg (fun v : Vigil => { v with redialOnClosed := false }) t.armPark_vigil
    rw [hvigil]
    exact { toCoherent := Vigil.coherent_of_closed hclosed, told := fun _ => ⟨rfl, by simp_all [Vigil.arm]⟩ }
  unfold onClosed
  dsimp only
  split_ifs
  · exact htold
  · exact redialClosed_watched htold rfl
  · exact htold
  · rw [scheduleReconnect_vigil]
    exact htold

theorem onConnectFailed_vigil (t : ParkingTunnel) : t.onConnectFailed.vigil = t.vigil.arm := by
  have harm := t.armPark_vigil
  unfold onConnectFailed
  dsimp only
  split_ifs
  · exact harm
  · exact harm
  · exact harm
  · rw [scheduleReconnect_vigil, harm]

/-- A state change other than a suspension. -/
theorem setState_coherent {st : SessionState} (h : t.vigil.Coherent)
    (hlive : t.state ≠ .closed) (hsuspended : st ≠ .suspended) (hinit : st ≠ .init)
    (hdial : st.halfopen → t.state.halfopen)
    (howed : t.redialOnClosed → st = .closing ∨ st = .closeWait ∨ st = .closed) :
    (t.setState st).vigil.Coherent := by
  have hsteady : ({ t with state := st } : ParkingTunnel).vigil.Steady :=
    { dialing := fun hst => h.dialing (hdial hst)
      fresh := fun hst => absurd hst hinit
      owed := howed }
  unfold setState
  dsimp only
  split_ifs with hsame hest hfailed hconnect hup
  · exact h
  · rw [armPark_vigil]
    exact hsteady.arm
  · rw [onConnectFailed_vigil]
    exact hsteady.arm
  · rw [armPark_vigil]
    exact hsteady.arm
  · rw [armPark_vigil]
    exact hsteady.arm
  · refine { toSteady := hsteady, waited := fun hparked => ?_ }
    rcases h.waited hparked with hold | hold | hold | hold
    · have hhalf : st.halfopen := by
        by_contra hst
        exact hfailed ⟨hold, hst, hup⟩
      exact .inl hhalf
    · exact .inr (.inl hold)
    · exact .inr (.inr (.inl hold))
    · exact absurd hold hlive

theorem setState_vigil (t : ParkingTunnel) (st : SessionState) :
    (t.setState st).vigil = { t.vigil with state := st } ∨
      (t.setState st).vigil = ({ t.vigil with state := st } : Vigil).arm := by
  unfold setState
  dsimp only
  split_ifs with hsame
  · subst hsame
    exact .inl rfl
  · exact .inr (armPark_vigil _)
  · exact .inl rfl
  · exact .inr (onConnectFailed_vigil _)
  · exact .inr (armPark_vigil _)
  · exact .inr (armPark_vigil _)
  · exact .inl rfl

theorem setState_state (t : ParkingTunnel) (st : SessionState) : (t.setState st).state = st := by
  rcases t.setState_vigil st with h | h <;> exact congrArg Vigil.state h

theorem reset_state (t : ParkingTunnel) : t.reset.state = .closed := by
  unfold reset
  split
  · assumption
  · exact t.setState_state .closed

theorem reset_coherent (t : ParkingTunnel) : t.reset.vigil.Coherent := Vigil.coherent_of_closed t.reset_state

theorem notifyClosed_watched (h : t.vigil.Watched) : t.notifyClosed.vigil.Watched := by
  unfold notifyClosed
  split
  · exact h
  · exact onClosed_watched t.reset_state

theorem attachTable_watched (h : t.vigil.Watched) (howed : t.redialOnClosed = false) :
    t.attachTable.vigil.Watched := by
  obtain ⟨table, rest, htable⟩ := t.ask_eq
  cases table with
  | false =>
    simp only [attachTable, htable]
    exact notifyClosed_watched h
  | true =>
    simp only [attachTable, htable]
    exact attachInstall_watched howed

theorem attachFd_watched (h : t.vigil.Watched) (howed : t.redialOnClosed = false) :
    t.attachFd.vigil.Watched := by
  obtain ⟨captured, rest, hcapture⟩ := t.ask_eq
  unfold attachFd
  split
  · cases captured with
    | false =>
      simp only [hcapture]
      exact onClosed_watched (reset_state _)
    | true =>
      simp only [hcapture]
      exact attachTable_watched h howed
  · exact attachTable_watched h howed

theorem redial_watched (h : t.vigil.Watched) (howed : t.redialOnClosed = false) : t.redial.vigil.Watched := by
  obtain ⟨dialed, rest, hdial⟩ := t.ask_eq
  cases dialed with
  | false =>
    simp only [redial, hdial, scheduleReconnect_vigil]
    exact h
  | true =>
    simp only [redial, hdial]
    exact attachFd_watched h howed

theorem onSuspended_watched (h : t.vigil.Steady) (hstate : t.state = .suspended) :
    t.onSuspended.vigil.Watched := by
  have harm : t.armPark.vigil.Watched := by
    rw [armPark_vigil]
    exact h.arm.watched_of_ne (by simp [Vigil.arm, vigil, hstate])
  have howed : t.armPark.redialOnClosed = false := by
    have hstate' : t.armPark.vigil.state = .suspended := by
      rw [armPark_vigil]
      exact hstate
    exact harm.not_owed (by simp [hstate']) (by simp [hstate']) (by simp [hstate'])
  unfold onSuspended
  dsimp only
  split_ifs
  · exact harm
  · exact harm
  · exact redial_watched harm howed

theorem suspend_coherent (h : t.vigil.Steady)
    (hstate : t.state = .established ∨ t.state.halfopen) : t.suspend.vigil.Coherent := by
  have howed : t.redialOnClosed = false :=
    h.not_owed (by rintro hst; simp_all [vigil, SessionState.halfopen])
      (by rintro hst; simp_all [vigil, SessionState.halfopen])
      (by rintro hst; simp_all [vigil, SessionState.halfopen])
  have hsteady : (t.setState .suspended).vigil.Steady := by
    have hplain : ({ t.vigil with state := .suspended } : Vigil).Steady := by
      constructor <;> simp [vigil, howed, SessionState.halfopen]
    rcases t.setState_vigil .suspended with hv | hv
    · rw [hv]
      exact hplain
    · rw [hv]
      exact hplain.arm.toSteady
  have hsuspended := t.setState_state .suspended
  obtain ⟨captured, rest, hcapture⟩ := (t.setState .suspended).ask_eq
  cases captured with
  | false =>
    simp only [suspend, hcapture]
    exact reset_coherent _
  | true =>
    have hsteady' : ({ t.setState .suspended with inputs := rest, fd := false } : ParkingTunnel).vigil.Steady :=
      { dialing := by simp [vigil, hsuspended, SessionState.halfopen]
        fresh := by simp [vigil, hsuspended]
        owed := hsteady.owed }
    simp only [suspend, hcapture]
    split
    · rw [onConnectFailed_vigil]
      exact hsteady'.arm
    · exact (onSuspended_watched hsteady' hsuspended).toCoherent

theorem suspendOrReset_coherent (h : t.vigil.Steady) : t.suspendOrReset.vigil.Coherent := by
  unfold suspendOrReset
  split
  · rename_i hresume
    exact suspend_coherent h hresume.2
  · exact t.reset_coherent

/-- A live transport is closed from this end. -/
theorem setState_closing_watched (h : t.vigil.Coherent)
    (hstate : t.state = .established ∨ t.state = .handshake) : (t.setState .closing).vigil.Watched := by
  have hlive : t.state ≠ .closed := by
    rcases hstate with hstate | hstate <;> simp [hstate]
  refine (setState_coherent h hlive ?_ ?_ ?_ ?_).watched_of_ne ?_
  · simp
  · simp
  · simp [SessionState.halfopen]
  · exact fun _ => .inl rfl
  · simp [vigil, setState_state]

theorem initiateShutdown_watched (h : t.vigil.Watched) : t.initiateShutdown.vigil.Watched := by
  unfold initiateShutdown
  split
  · exact notifyClosed_watched h
  · rename_i hstate
    exact setState_closing_watched h.toCoherent (by tauto)

theorem connectCb_coherent (h : t.vigil.Coherent) (hstate : t.state = .connect) (ok : Bool) :
    (t.connectCb ok).vigil.Coherent := by
  have hhandshake : (t.setState .handshake).vigil.Coherent := by
    refine setState_coherent h (by simp [hstate]) (by simp) (by simp) ?_ ?_
    · exact fun _ => by simp [hstate, SessionState.halfopen]
    · intro howed
      have := h.owed howed
      simp_all [vigil]
  obtain ⟨queued, rest, hqueue⟩ := (t.setState .handshake).ask_eq
  unfold connectCb
  split
  · cases queued with
    | false =>
      simp only [hqueue]
      exact reset_coherent _
    | true =>
      simp only [hqueue]
      exact hhandshake
  · exact suspendOrReset_coherent h.toSteady

theorem io_coherent (h : t.vigil.Coherent) (outcome : Io) : (t.io outcome).vigil.Coherent := by
  cases outcome with
  | established =>
    rw [io]
    split
    · rename_i hstate
      refine setState_coherent (show ({ t with hasSessionId := true } : ParkingTunnel).vigil.Coherent from h)
        (by simp [hstate]) (by simp) (by simp) (by simp [SessionState.halfopen]) ?_
      intro howed
      have := h.owed howed
      simp_all [vigil]
    · exact h
  | reset =>
    rw [io]
    split
    · exact t.reset_coherent
    · exact h
  | lost =>
    rw [io]
    split
    · exact suspendOrReset_coherent h.toSteady
    · exact h
  | rxClosed =>
    obtain ⟨plain, rest, hplain⟩ := t.ask_eq
    simp only [io, hplain]
    split
    · rename_i hstate
      split
      · exact suspend_coherent (t := { t with inputs := rest }) h.toSteady (.inl hstate)
      · exact (setState_closing_watched (t := { t with inputs := rest, hasSessionId := false }) h (.inl hstate)).toCoherent
    · exact h
  | drained =>
    rw [io]
    split
    · rename_i hstate
      exact (initiateShutdown_watched (h.watched_of_ne (by simp [vigil, hstate]))).toCoherent
    · exact h

theorem foldl_io_coherent (h : t.vigil.Coherent) (outcomes : List Io) :
    (outcomes.foldl io t).vigil.Coherent := by
  induction outcomes generalizing t with
  | nil => exact h
  | cons outcome outcomes ih => exact ih (io_coherent h outcome)

theorem emitIfClosed_watched (h : t.vigil.Coherent) : t.emitIfClosed.vigil.Watched := by
  unfold emitIfClosed
  split
  · rename_i hclosed
    exact onClosed_watched hclosed
  · rename_i hlive
    exact h.watched_of_ne hlive

section

variable (h : t.vigil.Watched)
include h

theorem connectTimeoutCb_watched : t.connectTimeoutCb.vigil.Watched := by
  unfold connectTimeoutCb
  split
  · rename_i hstate
    split
    · exact emitIfClosed_watched (suspend_coherent h.toSteady (.inr (by simp [hstate, SessionState.halfopen])))
    · exact notifyClosed_watched h
  · rename_i hstate
    split
    · exact emitIfClosed_watched (suspend_coherent h.toSteady (.inr (by simp [hstate, SessionState.halfopen])))
    · exact notifyClosed_watched h
  · exact notifyClosed_watched h
  · exact notifyClosed_watched h
  · exact notifyClosed_watched h
  · exact h

theorem onDeadLink_watched (hstate : t.state = .established) :
    t.onDeadLink.vigil.Watched := by
  unfold onDeadLink
  split
  · exact emitIfClosed_watched (suspend_coherent h.toSteady (.inl hstate))
  · exact notifyClosed_watched h

/-! ### The tunnel's own callbacks -/

/-- A session that can be dialed owes nothing. -/
theorem not_owed_of_attachable
    (hstate : t.state = .init ∨ t.state = .suspended ∨ t.state = .closed) : t.redialOnClosed = false := by
  rcases hstate with hstate | hstate | hstate
  · exact h.not_owed (by simp [vigil, hstate]) (by simp [vigil, hstate]) (by simp [vigil, hstate])
  · exact h.not_owed (by simp [vigil, hstate]) (by simp [vigil, hstate]) (by simp [vigil, hstate])
  · exact (h.told hstate).1

theorem demandRedial_watched : t.demandRedial.vigil.Watched := by
  unfold demandRedial
  split_ifs with hoff hdial hclosing
  · exact h
  · exact redial_watched h (not_owed_of_attachable h (.inr hdial))
  · refine Vigil.Coherent.watched_of_ne ?_ (by rcases hclosing with hst | hst <;> simp [vigil, hst])
    exact
      { dialing := h.dialing
        fresh := h.fresh
        owed := fun _ => hclosing.elim .inl (fun hst => .inr (.inl hst))
        waited := fun _ => .inr (.inl rfl) }
  · exact h

theorem reconnectCb_watched : t.reconnectCb.vigil.Watched := by
  have h' : ({ t with reconnect := false } : ParkingTunnel).vigil.Watched := h
  unfold reconnectCb
  dsimp only
  split_ifs with hoff hstate
  · exact initiateShutdown_watched h'
  · exact redial_watched h' (not_owed_of_attachable h' hstate)
  · exact h'

theorem endIdle_watched : t.endIdle.vigil.Watched := by
  unfold endIdle
  split_ifs with hclosed
  · exact onClosed_watched hclosed
  · exact initiateShutdown_watched h
  · exact h

theorem taskShutdown_watched : t.taskShutdown.vigil.Watched := by
  have h' : ({ t with shuttingDown := true, reconnect := false } : ParkingTunnel).vigil.Watched := h
  unfold taskShutdown
  dsimp only
  split_ifs with hclosed
  · exact initiateShutdown_watched h'
  · exact onClosed_watched (by simpa using hclosed)

end

theorem adoptReload_vigil (t : ParkingTunnel) (arg : ParkReload) : (t.adoptReload arg).vigil = t.vigil := by
  unfold adoptReload
  dsimp only
  split_ifs <;> rfl

theorem drain_watched (h : t.vigil.Watched) : t.drain.vigil.Watched := by
  obtain ⟨idle, rest, hidle⟩ := t.ask_eq
  have h' : ({ t with inputs := rest } : ParkingTunnel).vigil.Watched := h
  simp only [drain, hidle]
  split
  · exact initiateShutdown_watched h'
  · exact h'

theorem reloadTask_watched (h : t.vigil.Watched) (arg : ParkReload) : (t.reloadTask arg).vigil.Watched := by
  have hadopt : (t.adoptReload arg).vigil.Watched := by
    rw [adoptReload_vigil]
    exact h
  unfold reloadTask
  dsimp only
  split_ifs
  · exact endIdle_watched (drain_watched hadopt)
  · exact endIdle_watched hadopt
  · exact drain_watched hadopt
  · exact hadopt

theorem attachStream_eq (t : ParkingTunnel) : ∃ ok rest, t.attachStream = (ok, { t with inputs := rest }) := by
  obtain ⟨ok, rest, hok⟩ := t.ask_eq
  exact ⟨ok && t.state = .established, rest, by simp only [attachStream, hok]⟩

theorem openFd_watched (h : t.vigil.Watched) : t.openFd.vigil.Watched := by
  -- what becomes of a connection that is not parked leaves the vigil as it is
  have hsettle : ∀ (t' : ParkingTunnel) (c : Nat) (opened : Bool), t'.vigil.Watched →
      ({ t' with conns := t'.conns.settle c opened } : ParkingTunnel).vigil.Watched := by
    intro t' c opened h'
    have hvigil : ({ t' with conns := t'.conns.settle c opened } : ParkingTunnel).vigil = t'.vigil := by
      simp only [vigil, Conns.settle_parked]
    rw [hvigil]
    exact h'
  obtain ⟨opened, rest, hattach⟩ :=
    attachStream_eq { t with conns := { t.conns with count := t.conns.count + 1 } }
  cases opened with
  | true =>
    simp only [openFd, hattach]
    exact hsettle { t with conns := { t.conns with count := t.conns.count + 1 }, inputs := rest } _ _ h
  | false =>
    have hdemand := demandRedial_watched
      (t := { t with conns := { t.conns with count := t.conns.count + 1 }, inputs := rest }) h
    simp only [openFd, hattach]
    generalize demandRedial _ = t' at hdemand
    obtain ⟨memory, rest', hmemory⟩ := t'.ask_eq
    simp only [hmemory]
    split
    · rename_i hpark
      have hwait : t'.state.halfopen ∨ t'.redialOnClosed := by
        have hfresh : ¬ (t'.state = .init ∧ t'.fd) := by
          rintro ⟨hinit, hfd⟩
          exact absurd (hdemand.fresh hinit).1 (by simp [vigil, hfd])
        simp only [mayPark, SessionState.connecting, Bool.and_eq_true, Bool.or_eq_true, decide_eq_true_eq] at hpark
        tauto
      exact Vigil.Watched.waiting hdemand hwait _
    · exact hsettle { t' with inputs := rest' } _ _ hdemand

theorem serve_vigil (cs : List Nat) (t : ParkingTunnel) : (serve cs t).vigil = t.vigil := by
  induction cs generalizing t with
  | nil => rfl
  | cons c cs ih =>
    obtain ⟨ok, rest, hattach⟩ := t.attachStream_eq
    rw [serve, hattach]
    dsimp only
    rw [ih]
    simp only [vigil, Conns.leave_parked]

theorem parkCb_watched (h : t.vigil.Watched) : t.parkCb.vigil.Watched := by
  unfold parkCb settleParked
  dsimp only
  split_ifs with hwait hest
  · rcases t.conns.parked.eq_nil_or_concat with hnil | ⟨_, _, hcons⟩
    · have hvigil : ({ t with park := false } : ParkingTunnel).vigil = { t.vigil with parked := [], park := false } := by
        simp only [vigil, hnil]
      rw [hvigil]
      exact h.emptied false
    · have hwait' : t.state.halfopen ∨ t.redialOnClosed := by
        have hfresh : t.state ≠ .init := fun hinit => by simpa [vigil, hcons] using (h.fresh hinit).2
        simp only [SessionState.connecting, Bool.or_eq_true, decide_eq_true_eq] at hwait
        tauto
      exact (h.emptied false).waiting hwait' t.conns.parked
  · exact h.emptied false
  · rw [serve_vigil]
    exact h.emptied false

theorem close_watched (t : ParkingTunnel) : t.close.vigil.Watched where
  toCoherent := Vigil.coherent_of_closed rfl
  told _ := ⟨rfl, fun hparked => absurd rfl hparked⟩

theorem handle_watched (h : t.vigil.Watched) (e : ParkEvent) : (t.handle e).vigil.Watched := by
  cases e with
  | initialConnect =>
    rw [handle]
    split
    · rename_i hstate
      exact redial_watched h (not_owed_of_attachable h (.inl hstate))
    · exact h
  | connected ok =>
    rw [handle]
    split
    · rename_i hstate
      exact emitIfClosed_watched (connectCb_coherent h.toCoherent hstate ok)
    · exact h
  | transfer outcomes =>
    rw [handle]
    split
    · exact emitIfClosed_watched (foldl_io_coherent h.toCoherent outcomes)
    · exact h
  | closeStep ok =>
    rw [handle]
    split_ifs with hclosing hok
    · refine (setState_coherent h.toCoherent (by simp [hclosing]) (by simp) (by simp) ?_ ?_).watched_of_ne ?_
      · simp [SessionState.halfopen]
      · exact fun _ => .inr (.inl rfl)
      · simp [vigil, setState_state]
    · exact emitIfClosed_watched t.reset_coherent
    · exact emitIfClosed_watched t.reset_coherent
    · exact h
  | connectTimeout => exact connectTimeoutCb_watched h
  | deadLink =>
    rw [handle]
    split
    · rename_i hstate
      exact onDeadLink_watched h hstate
    · exact h
  | idle =>
    rw [handle]
    split
    · exact initiateShutdown_watched h
    · exact h
  | parkTimer =>
    rw [handle]
    split
    · exact parkCb_watched h
    · exact h
  | reconnectTimer =>
    rw [handle]
    split
    · exact reconnectCb_watched h
    · exact h
  | handed => exact openFd_watched h
  | dgram => exact demandRedial_watched h
  | reload arg => exact reloadTask_watched h arg
  | shutdown => exact taskShutdown_watched h
  | close => exact t.close_watched

theorem step_watched (h : t.vigil.Watched) (e : ParkEvent × List Bool) : (t.step e).vigil.Watched := by
  unfold step
  split_ifs
  · have hvigil : t.refuse.vigil = t.vigil := by
      simp only [refuse, vigil, Conns.settle_parked]
    rw [hvigil]
    exact h
  · exact h
  · exact handle_watched (t := { t with inputs := e.2 }) h e.1

theorem new_watched (connectAddr : String) (idleTimeout : Int) : (new connectAddr idleTimeout).vigil.Watched := by
  refine Vigil.Coherent.watched_of_ne ?_ (by simp [new, vigil])
  constructor
  · constructor <;> simp [new, vigil, SessionState.halfopen]
  · simp [new, vigil]

open Relation (ReflTransGen)

theorem openFd_move (t : ParkingTunnel) :
    Conns.Move t.conns t.openFd.conns ∧ t.openFd.conns.count = t.conns.count + 1 := by
  obtain ⟨opened, rest, hattach⟩ :=
    attachStream_eq { t with conns := { t.conns with count := t.conns.count + 1 } }
  cases opened with
  | true =>
    simp only [openFd, hattach]
    exact ⟨.settled t.conns true, Conns.settle_count ..⟩
  | false =>
    obtain ⟨memory, rest', hmemory⟩ := ask_eq
      (demandRedial { t with conns := { t.conns with count := t.conns.count + 1 }, inputs := rest })
    simp only [openFd, hattach, hmemory, demandRedial_conns]
    split
    · exact ⟨.parked t.conns, rfl⟩
    · exact ⟨.settled t.conns false, Conns.settle_count ..⟩

theorem serve_moves (cs : List Nat) (t : ParkingTunnel) (hempty : t.conns.parked = []) :
    ReflTransGen Conns.Move { t.conns with parked := cs } (serve cs t).conns := by
  induction cs generalizing t with
  | nil =>
    have hconns : ({ t.conns with parked := [] } : Conns) = t.conns := by rw [← hempty]
    rw [hconns]
    exact .refl
  | cons c cs ih =>
    obtain ⟨ok, rest, hattach⟩ := t.attachStream_eq
    have hmoves := ih { t with conns := t.conns.leave c ok, inputs := rest } (by
      rw [Conns.leave_parked]
      exact hempty)
    rw [serve, hattach]
    refine .head (.left _ rfl ok) ?_
    have hleave : ({ { t.conns with parked := c :: cs } with parked := cs } : Conns).leave c ok =
        { t.conns.leave c ok with parked := cs } := by
      cases ok <;> rfl
    rw [hleave]
    exact hmoves

theorem serve_count (cs : List Nat) (t : ParkingTunnel) : (serve cs t).conns.count = t.conns.count := by
  induction cs generalizing t with
  | nil => rfl
  | cons c cs ih =>
    obtain ⟨ok, rest, hattach⟩ := t.attachStream_eq
    rw [serve, hattach]
    dsimp only
    rw [ih]
    exact Conns.settle_count ..

theorem parkCb_count (t : ParkingTunnel) : t.parkCb.conns.count = t.conns.count := by
  unfold parkCb settleParked
  dsimp only
  split_ifs
  · rfl
  · rfl
  · exact serve_count t.conns.parked { t with park := false, conns := { t.conns with parked := [] } }

theorem parkCb_moves (t : ParkingTunnel) : ReflTransGen Conns.Move t.conns t.parkCb.conns := by
  unfold parkCb settleParked
  dsimp only
  split_ifs
  · exact .refl
  · exact t.conns.flush_moves
  · exact serve_moves t.conns.parked { t with park := false, conns := { t.conns with parked := [] } } rfl

theorem handle_conns (t : ParkingTunnel) {e : ParkEvent} (hhanded : e ≠ .handed) (hpark : e ≠ .parkTimer)
    (hclose : e ≠ .close) : (t.handle e).conns = t.conns := by
  cases e with
  | handed => exact absurd rfl hhanded
  | parkTimer => exact absurd rfl hpark
  | close => exact absurd rfl hclose
  | _ =>
    simp only [handle]
    try split_ifs
    all_goals simp

theorem step_moves (t : ParkingTunnel) (e : ParkEvent × List Bool) :
    ReflTransGen Conns.Move t.conns (t.step e).conns := by
  unfold step
  split_ifs
  · exact .single (.settled t.conns false)
  · exact .refl
  · obtain ⟨e, rest⟩ := e
    cases e with
    | handed => exact .single (openFd_move { t with inputs := rest }).1
    | parkTimer =>
      simp only [handle]
      split
      · exact parkCb_moves { t with inputs := rest }
      · exact .refl
    | close => exact t.conns.flush_moves
    | _ =>
      rw [handle_conns _ (by simp) (by simp) (by simp)]

/-- Connections are numbered as they are handed over. -/
theorem step_count (t : ParkingTunnel) (e : ParkEvent × List Bool) :
    (t.step e).conns.count = t.conns.count + if e.1 = .handed then 1 else 0 := by
  unfold step
  split_ifs with hgone hhanded hhanded
  · exact Conns.settle_count ..
  · rfl
  · rw [hhanded]
    exact (openFd_move { t with inputs := e.2 }).2
  · by_cases hpark : e.1 = .parkTimer
    · rw [hpark, handle]
      split
      · exact parkCb_count { t with inputs := e.2 }
      · rfl
    · by_cases hclose : e.1 = .close
      · rw [hclose]
        rfl
      · rw [handle_conns _ hhanded hpark hclose]
        rfl

theorem run_count (t : ParkingTunnel) (es : List (ParkEvent × List Bool)) :
    (t.run es).conns.count = t.conns.count + es.countP (·.1 = .handed) := by
  induction es generalizing t with
  | nil => rfl
  | cons e es ih =>
    have hrest : ((t.step e).run es).conns.count = _ := ih (t.step e)
    rw [run, runFrom_cons, ← run, hrest, step_count, List.countP_cons]
    simp only [decide_eq_true_eq]
    omega

theorem run_moves (t : ParkingTunnel) (es : List (ParkEvent × List Bool)) :
    ReflTransGen Conns.Move t.conns (t.run es).conns :=
  runFrom_invariant_always (fun t' : ParkingTunnel => ReflTransGen Conns.Move t.conns t'.conns)
    (fun t' e h => h.trans (t'.step_moves e)) .refl es

/-- In every run each connection that was handed over, numbered in order, is parked, attached to one
stream or closed, once and for good; connections leave the parking list in the order of their arrival; and
between callbacks a connection waits only for a dial with a transport, for a redial that the close of the
session owes, or for the settle timer. -/
theorem run_parked (connectAddr : String) (idleTimeout : Int) (es : List (ParkEvent × List Bool)) :
    let t := (new connectAddr idleTimeout).run es
    (t.conns.parked ++ t.conns.attached ++ t.conns.closed).Perm (List.range (es.countP (·.1 = .handed))) ∧
      (∀ fs, t.conns.attached <+: (t.run fs).conns.attached ∧ t.conns.closed <+: (t.run fs).conns.closed ∧
        ∀ c, c ∈ t.conns.attached ∨ c ∈ t.conns.closed → c ∉ (t.run fs).conns.parked) ∧
      (∀ fs, t.conns.served <+: (t.run fs).conns.served) ∧
      (t.conns.served ++ t.conns.parked).Pairwise (· < ·) ∧
      (t.conns.parked ≠ [] →
        (t.state = .connect ∨ t.state = .handshake) ∧ t.fd ∨
          t.redialOnClosed ∧ (t.state = .closing ∨ t.state = .closeWait) ∨ t.park) := by
  intro t
  have hordered : ∀ fs, (t.run fs).conns.Ordered := by
    intro fs
    refine Conns.ordered_of_moves ((run_moves _ es).trans (run_moves t fs)) ?_
    constructor <;> simp [new]
  have hwatched : t.vigil.Watched :=
    runFrom_invariant_always (fun t' : ParkingTunnel => t'.vigil.Watched) (fun t' e h => step_watched h e)
      (new_watched connectAddr idleTimeout) es
  have hcount : t.conns.count = es.countP (·.1 = .handed) := (run_count _ es).trans (Nat.zero_add _)
  refine ⟨hcount ▸ (hordered []).once, fun fs => ?_, fun fs => (Conns.grows_of_moves (run_moves t fs)).served,
    (hordered []).fifo, fun hparked => ?_⟩
  · have hgrows := Conns.grows_of_moves (run_moves t fs)
    refine ⟨hgrows.attached, hgrows.closed, fun c hc hparked => ?_⟩
    have hnodup := (hordered fs).once.nodup_iff.2 List.nodup_range
    rw [List.append_assoc, List.nodup_append] at hnodup
    refine hnodup.2.2 c hparked c (List.mem_append.2 ?_) rfl
    exact hc.imp (fun h => hgrows.attached.subset h) (fun h => hgrows.closed.subset h)
  · rcases hwatched.waited hparked with hhalf | howed | hpark | hclosed
    · exact .inl ⟨(SessionState.halfopen_iff _).1 hhalf, hwatched.dialing hhalf⟩
    · refine .inr (.inl ⟨howed, ?_⟩)
      rcases hwatched.owed howed with h | h | h
      · exact .inl h
      · exact .inr h
      · exact absurd howed (by simp [(hwatched.told h).1])
    · exact .inr (.inr hpark)
    · exact .inr (.inr ((hwatched.told hclosed).2 hparked))

-- two connections arrive during the first dial and are served, in order, when it has come up
example :
    let t := (new "host:1" 30).run
      [(.initialConnect, [true, true]), (.handed, [false, true]), (.handed, [false, true]), (.connected true, [true]),
        (.transfer [.established], []), (.parkTimer, [true, true])]
    t.conns.served = [0, 1] ∧ t.conns.attached = [0, 1] ∧ t.conns.parked = [] := by
  decide

end ParkingTunnel

end Multiplexd
