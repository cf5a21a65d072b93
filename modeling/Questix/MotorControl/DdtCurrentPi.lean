/-
Questix.MotorControl.DdtCurrentPi — the current-mode controller and its
runaway guard: `ddt_current_pi.cpp`.

Gains, currents and times are finite doubles and are modelled as exact
rationals; the parameters are checked to be finite before they reach this
code (`DriveComponent::checkCurrentParam`), so the one check of a value that
is not finite (in `ampToRaw`) is gone. The raw current is an `Int16`, RPM are
integers.

A function that changes its state argument gives the state first.
-/
import Questix.Lib.Round

namespace Questix.MotorControl

open Questix.Lib

/-- `ddt_current_pi::GuardTrip` -/
inductive GuardTrip where
  | kNone
  | kAccelAgainstCurrent
  | kOverspeed
  | kOscillation
  | kModeMismatch
  deriving DecidableEq, Repr

namespace DdtCurrentPi

/-! ## The controller -/

def kAmpPerRaw : ℚ := 8 / 32767
def kFrictionFfFullRpm : ℚ := 10

structure Params where
  kp : ℚ
  ki : ℚ
  maxCurrentAmp : ℚ
  integralLimitAmp : ℚ
  invertMeasured : Bool
  ffStaticAmp : ℚ := 0
  ffViscousAmpPerRpm : ℚ := 0

/-- `ddt_current_pi::State` -/
structure State where
  integralAmp : ℚ := 0
  deriving DecidableEq

/-- `std::clamp` -/
def clamp {α : Type} [LT α] [DecidableLT α] (v lo hi : α) : α :=
  if v < lo then lo else if hi < v then hi else v

def sanitizeDt (dtSeconds : ℚ) : ℚ :=
  if 0 < dtSeconds ∧ dtSeconds ≤ 2 / 10 then dtSeconds else 1 / 100

def inZeroDeadband (rpmRef measuredRpm deadbandRpm : ℤ) : Bool :=
  decide (rpmRef = 0) && decide (|measuredRpm| ≤ deadbandRpm)

def frictionFeedforwardAmp (rpmRef : ℤ) (params : Params) : ℚ :=
  if rpmRef = 0 then 0
  else
    params.ffStaticAmp * clamp (rpmRef / kFrictionFfFullRpm) (-1) 1 +
      params.ffViscousAmpPerRpm * rpmRef

def ampToRaw (amp : ℚ) : Int16 := Int16.ofInt (lround (clamp (amp / kAmpPerRaw) (-32767) 32767))

def rawToAmp (raw : Int16) : ℚ := raw.toInt * kAmpPerRaw

/-- What `stepToRaw` computes: the raw current it returns, and its two out
parameters. -/
structure StepOutput where
  raw : Int16
  iCmdAmp : ℚ
  saturated : Bool

def stepToRaw (state : State) (params : Params) (rpmRef measuredRpm : ℤ) (dt : ℚ) :
    State × StepOutput :=
  let measured := if params.invertMeasured then -measuredRpm else measuredRpm
  let error : ℚ := rpmRef - measured
  let integralCandidate :=
    if params.ki > 1 / 10 ^ 9 then
      clamp (state.integralAmp + params.ki * error * dt) (-params.integralLimitAmp)
        params.integralLimitAmp
    else 0
  let unclamped := frictionFeedforwardAmp rpmRef params + params.kp * error + integralCandidate
  let iCmdAmp := clamp unclamped (-params.maxCurrentAmp) params.maxCurrentAmp
  -- saturated, and the error pushes further into the limit
  let pushingIntoLimit := (unclamped > params.maxCurrentAmp ∧ error > 0) ∨
    (unclamped < -params.maxCurrentAmp ∧ error < 0)
  let state : State :=
    if params.ki ≤ 1 / 10 ^ 9 then { integralAmp := 0 }
    else if ¬ pushingIntoLimit then { integralAmp := integralCandidate }
    else state
  (state, { raw := ampToRaw iCmdAmp, iCmdAmp := iCmdAmp, saturated := decide (iCmdAmp ≠ unclamped) })

/-! ## The guard -/

def kAgainstMinCurrentAmp : ℚ := 5 / 100
def kAgainstMinSpeedRpm : ℤ := 5
def kAgainstGrowthRpm : ℚ := 30
def kOverspeedSlowdownTolRpm : ℚ := 3
def kSaturationFraction : ℚ := 95 / 100
def kOscillationWindowSec : ℚ := 1 / 2
def kOscillationSwitches : ℕ := 4

structure GuardParams where
  overspeedMarginRpm : ℚ := 50
  overspeedTimeSec : ℚ := 3 / 10
  deriving DecidableEq

/-- `GuardState`. The two arrays have `kOscillationSwitches` entries, of which
the first `saturationCount` are in use, oldest first. -/
structure GuardState where
  overspeedActive : Bool := false
  overspeedSinceSec : ℚ := 0
  overspeedStartAbsRpm : ℚ := 0
  againstGrowthRpm : ℚ := 0
  saturationTimes : Vector ℚ 4 := .replicate 4 0
  saturationSigns : Vector ℤ 4 := .replicate 4 0
  saturationCount : ℕ := 0
  deriving DecidableEq

structure GuardSample where
  nowSec : ℚ
  rpmRef : ℤ
  measuredPrevRpm : ℤ
  measuredNewRpm : ℤ
  appliedAmp : ℚ
  commandedAmp : ℚ
  maxCurrentAmp : ℚ

def signOf (v : ℚ) : ℤ := if 0 < v then 1 else if v < 0 then -1 else 0

/-- Faster and faster under a current that brakes. -/
def updateAgainst (state : GuardState) (sample : GuardSample) : GuardState × Bool :=
  let prevAbs : ℚ := |(sample.measuredPrevRpm : ℚ)|
  let newAbs : ℚ := |(sample.measuredNewRpm : ℚ)|
  let againstMinAmp := min kAgainstMinCurrentAmp (1 / 2 * max 0 sample.maxCurrentAmp)
  let prevSign := signOf sample.measuredPrevRpm
  let braking := 0 < againstMinAmp ∧ againstMinAmp ≤ |sample.appliedAmp| ∧
    kAgainstMinSpeedRpm ≤ |sample.measuredPrevRpm| ∧ signOf sample.measuredNewRpm = prevSign ∧
    signOf sample.appliedAmp = -prevSign
  if braking then
    let growth := max 0 (state.againstGrowthRpm + newAbs - prevAbs)
    ({ state with againstGrowthRpm := growth }, decide (kAgainstGrowthRpm ≤ growth))
  else ({ state with againstGrowthRpm := 0 }, false)

/-- Faster than the reference for too long, without slowing down. -/
def updateOverspeed (state : GuardState) (params : GuardParams) (sample : GuardSample) :
    GuardState × Bool :=
  let newAbs : ℚ := |(sample.measuredNewRpm : ℚ)|
  if |(sample.rpmRef : ℚ)| + params.overspeedMarginRpm < newAbs then
    if !state.overspeedActive then
      ({ state with overspeedActive := true, overspeedSinceSec := sample.nowSec,
                    overspeedStartAbsRpm := newAbs }, false)
    else
      (state, decide (params.overspeedTimeSec ≤ sample.nowSec - state.overspeedSinceSec ∧
        state.overspeedStartAbsRpm - kOverspeedSlowdownTolRpm ≤ newAbs))
  else ({ state with overspeedActive := false }, false)

/-- How many of the records from `i` on are older than the window; `fuel` is
the number of records left. -/
def keepFrom (state : GuardState) (nowSec : ℚ) : ℕ → ℕ → ℕ
  | 0, i => i
  | fuel + 1, i =>
    if kOscillationWindowSec < nowSec - state.saturationTimes[i]?.getD 0 then
      keepFrom state nowSec fuel (i + 1)
    else i

/-- Drop the `n` oldest records by moving the others down. -/
def dropOldest (state : GuardState) (n : ℕ) : GuardState :=
  let move := fun (s : GuardState) i =>
    { s with
      saturationTimes := s.saturationTimes.setIfInBounds (i - n) (s.saturationTimes[i]?.getD 0)
      saturationSigns := s.saturationSigns.setIfInBounds (i - n) (s.saturationSigns[i]?.getD 0) }
  let moved := (List.range' n (state.saturationCount - n)).foldl move state
  { moved with saturationCount := state.saturationCount - n }

/-- Record a command at the limit when its sign differs from the last one
recorded; four within the window are an oscillation. -/
def updateOscillation (state : GuardState) (sample : GuardSample) : GuardState × Bool :=
  let keep := keepFrom state sample.nowSec state.saturationCount 0
  let state := if 0 < keep then dropOldest state keep else state
  if 0 < sample.maxCurrentAmp ∧
      kSaturationFraction * sample.maxCurrentAmp ≤ |sample.commandedAmp| then
    let sign := signOf sample.commandedAmp
    if state.saturationCount = 0 ∨
        state.saturationSigns[state.saturationCount - 1]?.getD 0 ≠ sign then
      -- full: drop the oldest (not expected to happen)
      let state := if state.saturationCount = kOscillationSwitches then dropOldest state 1 else state
      let n := state.saturationCount
      let state :=
        { state with
          saturationTimes := state.saturationTimes.setIfInBounds n sample.nowSec
          saturationSigns := state.saturationSigns.setIfInBounds n sign
          saturationCount := n + 1 }
      (state, decide (kOscillationSwitches ≤ n + 1))
    else (state, false)
  else (state, false)

def updateGuard (state : GuardState) (params : GuardParams) (sample : GuardSample) :
    GuardState × GuardTrip :=
  let against := updateAgainst state sample
  if against.2 then (against.1, .kAccelAgainstCurrent)
  else
    let overspeed := updateOverspeed against.1 params sample
    if overspeed.2 then (overspeed.1, .kOverspeed)
    else
      let oscillation := updateOscillation overspeed.1 sample
      if oscillation.2 then (oscillation.1, .kOscillation) else (oscillation.1, .kNone)

/-! ## Bounds -/

theorem abs_clamp_le {v m : ℚ} (hm : 0 ≤ m) : |clamp v (-m) m| ≤ m := by
  unfold clamp
  split
  · rw [abs_neg, abs_of_nonneg hm]
  · split
    · rw [abs_of_nonneg hm]
    · rename_i hlo hhi
      exact abs_le.2 ⟨not_lt.1 hlo, not_lt.1 hhi⟩

theorem clamp_mono {v w lo hi : ℚ} (hb : lo ≤ hi) (h : v ≤ w) : clamp v lo hi ≤ clamp w lo hi := by
  unfold clamp
  split_ifs <;> linarith

theorem clamp_neg {v m : ℚ} (hm : 0 ≤ m) : clamp (-v) (-m) m = -clamp v (-m) m := by
  unfold clamp
  split_ifs <;> linarith

theorem toInt_ampToRaw (amp : ℚ) :
    (ampToRaw amp).toInt = lround (clamp (amp / kAmpPerRaw) (-32767) 32767) := by
  have hbound : |lround (clamp (amp / kAmpPerRaw) (-32767) 32767)| ≤ lround (32767 : ℤ) :=
    abs_lround_le (abs_clamp_le (by norm_num))
  rw [lround_intCast, abs_le] at hbound
  refine Int16.toInt_ofInt_of_le ?_ ?_
  · show (-2 ^ 15 : ℤ) ≤ _
    omega
  · show _ < (2 ^ 15 : ℤ)
    omega

theorem abs_ampToRaw_le {amp limit : ℚ} (h : |amp| ≤ limit) :
    |(ampToRaw amp).toInt| ≤ (ampToRaw limit).toInt := by
  rw [toInt_ampToRaw, toInt_ampToRaw]
  refine abs_lround_le (abs_le.2 ?_)
  obtain ⟨hlo, hhi⟩ := abs_le.1 h
  have hscale : ∀ {a b : ℚ}, a ≤ b → a / kAmpPerRaw ≤ b / kAmpPerRaw := by
    intro a b hab
    exact div_le_div_of_nonneg_right hab (by norm_num [kAmpPerRaw])
  constructor
  · rw [← clamp_neg (by norm_num : (0 : ℚ) ≤ 32767), ← neg_div]
    exact clamp_mono (by norm_num) (hscale hlo)
  · exact clamp_mono (by norm_num) (hscale hhi)

theorem abs_stepToRaw_le (state : State) {params : Params} (h : 0 ≤ params.maxCurrentAmp)
    (rpmRef measuredRpm : ℤ) (dt : ℚ) :
    |(stepToRaw state params rpmRef measuredRpm dt).2.raw.toInt| ≤
      (ampToRaw params.maxCurrentAmp).toInt :=
  abs_ampToRaw_le (abs_clamp_le h)

end DdtCurrentPi

end Questix.MotorControl
