import Multiplexd.Lib.Run
import Multiplexd.Lib.WndFilter
import Multiplexd.Limits
import Multiplexd.Mux.Frame

/-!
# The window estimator

`estimator.c`: a probe of the round trip at a time, the bytes of each direction that fall into its cycle,
filters for the bandwidth and the round trip, and for each direction a window that grows fast in STARTUP
and follows the measured product in TRACK. Every operation whose result might not fit its type answers
`none` when it does not; the products of floating-point numbers are inputs, as the values of `size_t` that
`bdp_to_size` may return.
-/

namespace Multiplexd

/-- `WNDSIZE_MAX` -/
def wndsizeMax : Nat := 65535 * windowUnit

/-- `WNDSIZE_MIN` -/
def wndsizeMin : Nat := 65536

/-- `WND_FEEDBACK_FLOOR_NS` -/
def wndFeedbackFloorNs : Int := 600000

/-- `WND_RTT_MIN_NS` -/
def wndRttMinNs : Int := 600 * 1000000000

/-- `WND_BW_MAX_NS` -/
def wndBwMaxNs : Int := 86400 * 1000000000

/-- `STARTUP_STABLE_ROUNDS` -/
def startupStableRounds : Nat := 16

/-- `STARTUP_GROWTH_FACTOR` -/
def startupGrowthFactor : Nat := 3

/-- `MUX_PING_PROBE_TIMEOUT_NS` -/
def pingProbeTimeoutNs : Int := 5000000000

/-- `MUX_PING_STARTUP_INTERVAL_NS` -/
def pingStartupIntervalNs : Int := 100000000

/-- `MUX_PING_RATE_LIMIT_NS` -/
def pingRateLimitNs : Int := 1000000000

/-- `enum estimator_phase` -/
inductive EstimatorPhase where
  | startup
  | track
deriving Repr, DecidableEq

/-- `struct estimator_dir_ctx` -/
structure EstimatorDir where
  sample : Nat
  bwWnd : WndFilter
  bdp : Nat
  effectiveBdp : Nat
  phase : EstimatorPhase
  stableRounds : Nat
deriving Repr, DecidableEq

/-- `struct estimator_ctx`. The last field is history: what the PING in flight carries. -/
structure Estimator where
  lastProbeNs : Int
  rttWnd : WndFilter
  rtt : Int
  rx : EstimatorDir
  tx : EstimatorDir
  pingInFlight : Bool
  probe : Option Int
deriving Repr, DecidableEq

/-- What `bdp_to_size` returns in one call of `calc_dir`. -/
structure BdpSizes where
  bdp : UInt64
  demand : UInt64
deriving Repr, DecidableEq

inductive EstimatorEvent where
  | init (bdp : UInt64)
  /-- `mux_estimator_add` (`rx`) and `mux_estimator_add_acked`; `sent` says whether the PING could be sent. -/
  | add (rx : Bool) (bytes : UInt64) (nowNs : Int) (sent : Bool)
  | suspend
  | pong (sentNs nowNs : Int) (rx tx : BdpSizes)
deriving Repr, DecidableEq

namespace EstimatorDir

/-- The test of `phase_startup`. -/
def outgrows (demand effectiveBdp : Nat) : Option Bool :=
  let demandHalf := demand / 2
  if demandHalf > effectiveBdp then some true
  else (sizeSub? effectiveBdp demandHalf).map fun rest => decide (demand > rest)

/-- The growth of `phase_startup`. -/
def grown (effectiveBdp : Nat) : Option Nat :=
  if effectiveBdp > wndsizeMax / startupGrowthFactor then some wndsizeMax
  else size? (effectiveBdp * startupGrowthFactor)

def phaseStartup (d : EstimatorDir) (demand : Nat) : Option EstimatorDir :=
  if d.bwWnd.get = 0 then some d
  else do
    if ← outgrows demand d.effectiveBdp then
      let effectiveBdp ← grown d.effectiveBdp
      return { d with effectiveBdp, stableRounds := 0 }
    else
      let d := { d with stableRounds := d.stableRounds + 1 }
      if d.stableRounds < startupStableRounds then return d else return { d with phase := .track }

def tracked (bdp : Nat) : Option Nat :=
  let headroom := bdp / 4
  if bdp > sizeMax - headroom then some sizeMax else size? (bdp + headroom)

def phaseTrack (d : EstimatorDir) : Option EstimatorDir :=
  if d.effectiveBdp ≠ 0 ∧ d.bdp > d.effectiveBdp then some { d with phase := .startup, stableRounds := 0 }
  else (tracked d.bdp).map fun effectiveBdp => { d with effectiveBdp }

def bwSample (sample : Nat) (rttNs : Int) : Option Int :=
  let clampMax := (int64Max / 1000000000).toNat
  let sampleClamped := if sample < clampMax then sample else clampMax
  (int64? (sampleClamped * 1000000000)).map fun product =>
    let raw := product.tdiv rttNs
    let bound := int64Max / wndFeedbackFloorNs
    if raw < bound then raw else bound

def calcDir (d : EstimatorDir) (rttNs nowNs : Int) (x : BdpSizes) : Option EstimatorDir := do
  let bw ← bwSample d.sample rttNs
  let d := { d with bwWnd := d.bwWnd.updateMax wndBwMaxNs nowNs bw, bdp := x.bdp.toNat }
  match d.phase with
  | .startup => d.phaseStartup x.demand.toNat
  | .track => d.phaseTrack

/-- The floor that `window_size` raises. -/
def windowFloor (bwMax : Int) : Option Nat :=
  if bwMax > 0 then
    (int64? (bwMax * wndFeedbackFloorNs)).map fun product =>
      let bwFloor : Int := product.tdiv 1000000000
      if bwFloor > (wndsizeMin : Int) then (if bwFloor > (wndsizeMax : Int) then wndsizeMax else bwFloor.toNat)
      else wndsizeMin
  else some wndsizeMin

def windowSize (d : EstimatorDir) : Option Nat :=
  (windowFloor d.bwWnd.get).map fun floor =>
    if d.effectiveBdp < floor then floor else if wndsizeMax < d.effectiveBdp then wndsizeMax else d.effectiveBdp

/-- A direction as `mux_estimator_init` leaves it. -/
def new (seed : Nat) : EstimatorDir where
  sample := 0
  bwWnd := WndFilter.zero
  bdp := 0
  effectiveBdp := seed
  phase := .startup
  stableRounds := 0

end EstimatorDir

namespace Estimator

variable (est : Estimator)

def init (bdp : Nat) : Estimator :=
  let seed := if bdp < wndsizeMin then wndsizeMin else bdp
  { lastProbeNs := 0
    rttWnd := WndFilter.zero
    rtt := 0
    rx := EstimatorDir.new seed
    tx := EstimatorDir.new seed
    pingInFlight := false
    probe := none }

def resetSamples : Estimator :=
  { est with rx := { est.rx with sample := 0 }, tx := { est.tx with sample := 0 } }

def endProbe : Estimator := { est with pingInFlight := false, probe := none }.resetSamples

def suspend : Estimator := est.endProbe

def setSample (rx : Bool) (n : Nat) : Estimator :=
  if rx then { est with rx := { est.rx with sample := n } } else { est with tx := { est.tx with sample := n } }

/-- `send_ping`, once the frame is on its way. -/
def sendPing (nowNs : Int) : Estimator :=
  { est with lastProbeNs := nowNs, pingInFlight := true, probe := some nowNs }

/-- `run_probe_cycle`, once no probe is in flight. -/
def startProbe (rx : Bool) (bytes : UInt64) (nowNs : Int) (sent : Bool) : Estimator :=
  let minInterval :=
    if est.rx.phase = .startup ∨ est.tx.phase = .startup then pingStartupIntervalNs else pingRateLimitNs
  if est.lastProbeNs ≠ 0 ∧ nowNs - est.lastProbeNs < minInterval then est
  else if !sent then est
  else (est.sendPing nowNs).setSample rx bytes.toNat

def runProbeCycle (rx : Bool) (bytes : UInt64) (nowNs : Int) (sent : Bool) : Estimator :=
  if est.pingInFlight then
    if nowNs - est.lastProbeNs < pingProbeTimeoutNs then
      est.setSample rx (((if rx then est.rx else est.tx).sample + bytes.toNat) % 2 ^ 64)
    else est.endProbe.startProbe rx bytes nowNs sent
  else est.startProbe rx bytes nowNs sent

def calculate (sentNs nowNs : Int) (x y : BdpSizes) : Option Estimator :=
  if !est.pingInFlight ∨ sentNs ≠ est.lastProbeNs then some est
  else
    let rttNs := nowNs - sentNs
    if rttNs ≤ 0 then some { est.endProbe with lastProbeNs := nowNs }
    else do
      let rttWnd := est.rttWnd.updateMin wndRttMinNs nowNs rttNs
      let rx ← est.rx.calcDir rttNs nowNs x
      let tx ← est.tx.calcDir rttNs nowNs y
      return { endProbe { est with rttWnd, rtt := rttNs, rx, tx } with lastProbeNs := nowNs }

def step : EstimatorEvent → Option Estimator
  | .init bdp => some (init bdp.toNat)
  | .add rx bytes nowNs sent => some (est.runProbeCycle rx bytes nowNs sent)
  | .suspend => some est.suspend
  | .pong sentNs nowNs rx tx => est.calculate sentNs nowNs rx tx

def run (es : List EstimatorEvent) : Option Estimator := es.foldlM step est

end Estimator

/-! ### Nothing overflows -/

namespace EstimatorDir

theorem outgrows_eq (demand effectiveBdp : Nat) :
    outgrows demand effectiveBdp = some (decide (demand + demand / 2 > effectiveBdp)) := by
  unfold outgrows sizeSub?
  dsimp only
  split
  next h => simp only [Option.some.injEq, Bool.true_eq, decide_eq_true_eq]; omega
  next h =>
    rw [if_pos (Nat.le_of_not_lt h)]
    simp only [Option.map_some, Option.some.injEq, decide_eq_decide]
    omega

theorem grown_eq_some {n : Nat} (hn : n ≠ 0) : ∃ k, grown n = some k ∧ k ≠ 0 := by
  unfold grown
  split
  · exact ⟨wndsizeMax, rfl, by decide⟩
  next h =>
    have hle : n * startupGrowthFactor ≤ sizeMax := by
      simp only [startupGrowthFactor, wndsizeMax, windowUnit, sizeMax] at *
      omega
    refine ⟨n * startupGrowthFactor, if_pos hle, ?_⟩
    simp only [startupGrowthFactor]
    omega

theorem tracked_eq_some (bdp : Nat) : ∃ k, tracked bdp = some k := by
  unfold tracked
  dsimp only
  split
  · exact ⟨sizeMax, rfl⟩
  next h => exact ⟨bdp + bdp / 4, if_pos (by omega)⟩

def bwBound : Int := int64Max / wndFeedbackFloorNs

variable {rttNs : Int} {d : EstimatorDir}

theorem bwSample_eq_some (sample : Nat) (hrtt : 0 < rttNs) :
    ∃ bw, bwSample sample rttNs = some bw ∧ 0 ≤ bw ∧ bw ≤ bwBound := by
  obtain ⟨clamped, hclamped⟩ : ∃ k : Nat, k = if sample < (int64Max / 1000000000).toNat then sample
      else (int64Max / 1000000000).toNat := ⟨_, rfl⟩
  have hle : (clamped : Int) * 1000000000 ≤ int64Max := by
    have hbound : clamped ≤ (int64Max / 1000000000).toNat := by
      rw [hclamped]
      split <;> omega
    simp only [int64Max] at *
    omega
  have hraw : 0 ≤ ((clamped : Int) * 1000000000).tdiv rttNs := Int.tdiv_nonneg (by omega) (Int.le_of_lt hrtt)
  unfold bwSample
  dsimp only
  rw [← hclamped, int64?, if_pos ⟨by omega, hle⟩]
  refine ⟨_, rfl, ?_⟩
  dsimp only
  split
  next h => exact ⟨hraw, Int.le_of_lt h⟩
  · exact ⟨by decide, Int.le_refl _⟩

structure InRange (d : EstimatorDir) : Prop where
  bandwidth : d.bwWnd.Within 0 bwBound
  growing : d.phase = .startup → d.effectiveBdp ≠ 0

theorem InRange.phaseStartup (h : d.InRange) (hphase : d.phase = .startup) (demand : Nat) :
    ∃ d', d.phaseStartup demand = some d' ∧ d'.InRange := by
  unfold EstimatorDir.phaseStartup
  split
  · exact ⟨d, rfl, h⟩
  rw [outgrows_eq]
  simp only [Option.bind_eq_bind, Option.bind_some, decide_eq_true_eq]
  split
  · obtain ⟨k, hgrown, hk⟩ := grown_eq_some (h.growing hphase)
    rw [hgrown]
    exact ⟨_, rfl, h.bandwidth, fun _ => hk⟩
  split
  · exact ⟨_, rfl, h.bandwidth, h.growing⟩
  · exact ⟨_, rfl, h.bandwidth, nofun⟩

theorem InRange.phaseTrack (h : d.InRange) (hphase : d.phase = .track) :
    ∃ d', d.phaseTrack = some d' ∧ d'.InRange := by
  unfold EstimatorDir.phaseTrack
  split
  next hgrows => exact ⟨_, rfl, h.bandwidth, fun _ => hgrows.1⟩
  · obtain ⟨k, htracked⟩ := tracked_eq_some d.bdp
    rw [htracked]
    refine ⟨_, rfl, h.bandwidth, fun hstartup => ?_⟩
    rw [show d.phase = .startup from hstartup] at hphase
    cases hphase

theorem InRange.calcDir (h : d.InRange) (hrtt : 0 < rttNs) (nowNs : Int) (x : BdpSizes) :
    ∃ d', d.calcDir rttNs nowNs x = some d' ∧ d'.InRange := by
  obtain ⟨bw, hbw, hrange⟩ := bwSample_eq_some d.sample hrtt
  have hd : InRange { d with bwWnd := d.bwWnd.updateMax wndBwMaxNs nowNs bw, bdp := x.bdp.toNat } :=
    ⟨h.bandwidth.updateMax wndBwMaxNs nowNs hrange, h.growing⟩
  unfold EstimatorDir.calcDir
  rw [hbw]
  simp only [Option.bind_eq_bind, Option.bind_some]
  split
  next hphase => exact hd.phaseStartup hphase _
  next hphase => exact hd.phaseTrack hphase

theorem windowFloor_eq_some {bwMax : Int} (hle : bwMax ≤ bwBound) :
    ∃ floor, windowFloor bwMax = some floor ∧ wndsizeMin ≤ floor ∧ floor ≤ wndsizeMax := by
  unfold windowFloor
  split
  next hpos =>
    have hfits : 0 ≤ bwMax * wndFeedbackFloorNs ∧ bwMax * wndFeedbackFloorNs ≤ int64Max := by
      simp only [bwBound, wndFeedbackFloorNs, int64Max] at *
      omega
    rw [int64?, if_pos hfits]
    refine ⟨_, rfl, ?_⟩
    dsimp only
    split
    · split
      · exact ⟨by decide, Nat.le_refl _⟩
      · omega
    · exact ⟨Nat.le_refl _, by decide⟩
  · exact ⟨wndsizeMin, rfl, Nat.le_refl _, by decide⟩

theorem InRange.windowSize (h : d.InRange) : ∃ w, d.windowSize = some w ∧ wndsizeMin ≤ w ∧ w ≤ wndsizeMax := by
  obtain ⟨floor, hfloor, hmin, hmax⟩ := windowFloor_eq_some h.bandwidth.first.2
  unfold EstimatorDir.windowSize
  rw [WndFilter.get, hfloor]
  refine ⟨_, rfl, ?_⟩
  dsimp only
  split
  · exact ⟨hmin, hmax⟩
  split
  · exact ⟨by decide, Nat.le_refl _⟩
  · omega

theorem new_inRange {seed : Nat} (h : seed ≠ 0) : (new seed).InRange :=
  ⟨WndFilter.zero_within (by decide) (by decide), fun _ => h⟩

end EstimatorDir

namespace Estimator

structure InRange (est : Estimator) : Prop where
  rx : est.rx.InRange
  tx : est.tx.InRange
  probing : est.probe = if est.pingInFlight then some est.lastProbeNs else none

variable {est : Estimator}

theorem init_inRange (bdp : Nat) : (init bdp).InRange := by
  have hseed : (if bdp < wndsizeMin then wndsizeMin else bdp) ≠ 0 := by
    intro hzero
    split at hzero <;> simp only [wndsizeMin] at * <;> omega
  exact ⟨EstimatorDir.new_inRange hseed, EstimatorDir.new_inRange hseed, rfl⟩

theorem InRange.endProbe (hrx : est.rx.InRange) (htx : est.tx.InRange) : est.endProbe.InRange :=
  ⟨⟨hrx.bandwidth, hrx.growing⟩, ⟨htx.bandwidth, htx.growing⟩, rfl⟩

section

variable (h : est.InRange)
include h

theorem InRange.setSample (rx : Bool) (n : Nat) : (est.setSample rx n).InRange := by
  unfold Estimator.setSample
  split
  · exact ⟨⟨h.rx.bandwidth, h.rx.growing⟩, h.tx, h.probing⟩
  · exact ⟨h.rx, ⟨h.tx.bandwidth, h.tx.growing⟩, h.probing⟩

theorem InRange.startProbe (rx : Bool) (bytes : UInt64) (nowNs : Int) (sent : Bool) :
    (est.startProbe rx bytes nowNs sent).InRange := by
  unfold Estimator.startProbe
  dsimp only
  generalize (if est.rx.phase = .startup ∨ est.tx.phase = .startup then pingStartupIntervalNs
    else pingRateLimitNs) = minInterval
  split
  · exact h
  split
  · exact h
  · have hsent : (est.sendPing nowNs).InRange := ⟨h.rx, h.tx, rfl⟩
    exact hsent.setSample rx _

theorem InRange.runProbeCycle (rx : Bool) (bytes : UInt64) (nowNs : Int) (sent : Bool) :
    (est.runProbeCycle rx bytes nowNs sent).InRange := by
  unfold Estimator.runProbeCycle
  split
  · split
    · exact h.setSample rx _
    · exact (InRange.endProbe h.rx h.tx).startProbe rx bytes nowNs sent
  · exact h.startProbe rx bytes nowNs sent

theorem InRange.calculate (sentNs nowNs : Int) (x y : BdpSizes) :
    ∃ est', est.calculate sentNs nowNs x y = some est' ∧ est'.InRange := by
  unfold Estimator.calculate
  split
  · exact ⟨est, rfl, h⟩
  dsimp only
  split
  · exact ⟨_, rfl, ⟨h.rx.bandwidth, h.rx.growing⟩, ⟨h.tx.bandwidth, h.tx.growing⟩, rfl⟩
  next hrtt =>
    obtain ⟨rx, hrx, hrx'⟩ := h.rx.calcDir (Int.not_le.mp hrtt) nowNs x
    obtain ⟨tx, htx, htx'⟩ := h.tx.calcDir (Int.not_le.mp hrtt) nowNs y
    rw [hrx, htx]
    exact ⟨_, rfl, ⟨hrx'.bandwidth, hrx'.growing⟩, ⟨htx'.bandwidth, htx'.growing⟩, rfl⟩

theorem InRange.step (e : EstimatorEvent) : ∃ est', est.step e = some est' ∧ est'.InRange := by
  cases e with
  | init bdp => exact ⟨_, rfl, init_inRange _⟩
  | add rx bytes nowNs sent => exact ⟨_, rfl, h.runProbeCycle rx bytes nowNs sent⟩
  | suspend => exact ⟨_, rfl, InRange.endProbe h.rx h.tx⟩
  | pong sentNs nowNs x y => exact h.calculate sentNs nowNs x y

theorem InRange.run (es : List EstimatorEvent) : ∃ est', est.run es = some est' ∧ est'.InRange := by
  induction es generalizing est with
  | nil => exact ⟨est, rfl, h⟩
  | cons e es ih =>
    obtain ⟨est', hstep, h'⟩ := h.step e
    obtain ⟨est'', hrun, h''⟩ := ih h'
    refine ⟨est'', ?_, h''⟩
    rw [Estimator.run, List.foldlM_cons, hstep]
    exact hrun

/-- A PONG for anything but the probe in flight. -/
theorem InRange.pong_ignored {sentNs : Int} (hprobe : est.probe ≠ some sentNs) (nowNs : Int)
    (x y : BdpSizes) : est.step (.pong sentNs nowNs x y) = some est := by
  have hother : (!est.pingInFlight) = true ∨ sentNs ≠ est.lastProbeNs := by
    rw [h.probing] at hprobe
    cases hflight : est.pingInFlight with
    | false => exact .inl rfl
    | true =>
      refine .inr fun heq => hprobe ?_
      rw [if_pos hflight, heq]
  exact if_pos hother

end

/-- No run overflows; the windows stay in range, a direction in STARTUP has something to multiply, the test
for growth is the one over unbounded integers, and a PONG that answers no probe changes nothing. -/
theorem run_inRange (bdp : UInt64) (es : List EstimatorEvent) :
    ∃ est, (init bdp.toNat).run es = some est ∧
      (∀ d ∈ [est.rx, est.tx],
        (∃ w, d.windowSize = some w ∧ 65536 ≤ w ∧ w ≤ 65535 * 16384) ∧ (d.phase = .startup → d.effectiveBdp ≠ 0)) ∧
      (∀ sentNs nowNs x y, est.probe ≠ some sentNs → est.step (.pong sentNs nowNs x y) = some est) ∧
      ∀ demand effectiveBdp,
        EstimatorDir.outgrows demand effectiveBdp = some (decide (demand + demand / 2 > effectiveBdp)) := by
  obtain ⟨est, hrun, h⟩ := (init_inRange bdp.toNat).run es
  refine ⟨est, hrun, fun d hd => ?_, fun sentNs nowNs x y hprobe => h.pong_ignored hprobe nowNs x y,
    EstimatorDir.outgrows_eq⟩
  have hrange : d.InRange := by
    rcases List.mem_cons.mp hd with rfl | hd
    · exact h.rx
    · exact List.mem_singleton.mp hd ▸ h.tx
  exact ⟨hrange.windowSize, hrange.growing⟩

end Estimator

end Multiplexd
