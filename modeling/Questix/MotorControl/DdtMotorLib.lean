/-
Questix.MotorControl.DdtMotorLib — the member functions of `DdtMotorLib`
that its users call: `ddt_motor_lib.cpp`.

`Op` lists the calls that change the state or the bus, with their arguments,
and `step` runs one of them. The numbers that `tripCurrentGuard` only logs
are not passed to it. `setModeVelocity`, which nothing calls, is left out.
-/
import Questix.MotorControl.DdtTransport

namespace Questix.MotorControl.DdtMotorLib

open Questix.Lib

/-! ## The current controller -/

def resetCurrentPiStateForStop (s : DdtMotorLib) (motorId : Int) : DdtMotorLib :=
  s.updatePi motorId fun st =>
    { st with pi := {}, hasLastT := false, refRpmFiltered := 0, lastRefT := 0,
              hasLastRefT := false, guard := {} }

/-- Zero current, with the controller reset. -/
def sendZeroCurrent (motorId : Int) : Ddt Bool := do
  modify fun s => s.resetCurrentPiStateForStop motorId
  sendMotorCurrentRaw motorId 0

/-- Latch a trip and send zero current. -/
def tripCurrentGuard (motorId : Int) (trip : GuardTrip) : Ddt Bool := do
  modify fun s => s.setGuardTrip motorId trip
  Act.emit (.tripped motorId trip)
  sendZeroCurrent motorId

def clearCurrentGuardTrips : Ddt Unit := do
  if !(← get).currentGuardTrips.isEmpty then
    Act.emit .tripsCleared
    modify fun s => { s with currentGuardTrips := ∅ }

/-- The measured speed with the sign the controller uses. -/
def measuredRpm (s : DdtMotorLib) (fb : MotorFeedback) : ℤ :=
  if s.currentInvertMeasured then -fb.speed.toInt else fb.speed.toInt

/-- The reference after the limit on its rate, at a time: the state of the
limiter and the reference to use. -/
def slewReference (s : DdtMotorLib) (fb : MotorFeedback) (rpmRefRaw : ℤ) (now : ℚ) (st : PiState) :
    PiState × ℤ :=
  let elapsed := now - st.lastRefT
  let dt := if st.hasLastRefT ∧ 0 < elapsed ∧ elapsed ≤ 2 / 10 then elapsed else 1 / 100
  let start : ℚ :=
    if st.hasLastRefT then st.refRpmFiltered
    else s.clampRpm (s.measuredRpm fb)
  let maxStep := s.currentMaxAccelRpmPerSec * dt
  let delta := (rpmRefRaw : ℚ) - start
  let delta := if delta > maxStep then maxStep else delta
  let delta := if delta < -maxStep then -maxStep else delta
  ({ st with lastRefT := now, hasLastRefT := true, refRpmFiltered := start + delta },
    lround (start + delta))

/-- `commandCurrentMode`'s limit on the rate of the reference, off by default. -/
def limitReference (motorId : Int) (rpmRefRaw : ℤ) (fb : MotorFeedback) : Ddt ℤ := do
  let s ← get
  if 0 < s.currentMaxAccelRpmPerSec then
    let now ← steadyNow
    let slewed := s.slewReference fb rpmRefRaw now (s.piStates.getD motorId {})
    modify fun s => s.updatePi motorId fun _ => slewed.1
    return slewed.2
  else return rpmRefRaw

def params (s : DdtMotorLib) : DdtCurrentPi.Params where
  kp := s.currentKp
  ki := s.currentKi
  maxCurrentAmp := s.maxCurrentAmp.val
  integralLimitAmp := s.integralLimitAmp.val
  invertMeasured := s.currentInvertMeasured
  ffStaticAmp := s.currentFfStaticAmp
  ffViscousAmpPerRpm := s.currentFfViscousAmpPerRpm

def runCurrentLoopStep (motorId : Int) (rpmRef : ℤ) : Ddt DdtCurrentPi.StepOutput := do
  let now ← steadyNow
  let s ← get
  let st := s.piStates.getD motorId {}
  let dt := DdtCurrentPi.sanitizeDt (if st.hasLastT then now - st.lastT else 1 / 100)
  let measured : ℤ := (s.motorFeedbacks[motorId]?).elim 0 fun fb => fb.speed.toInt
  let stepped := DdtCurrentPi.stepToRaw st.pi s.params rpmRef measured dt
  modify fun s => s.updatePi motorId fun st =>
    { st with pi := stepped.1, lastT := now, hasLastT := true }
  return stepped.2

/-- `commandCurrentMode` after the current was sent: judge the response, if
there is a new one. `appliedAmp` is the current that was flowing before. -/
def judgeResponse (motorId : Int) (rpmRef measuredPrev : ℤ) (appliedAmp iCmdAmp : ℚ)
    (feedbackCountBefore : ℕ) : Ddt Bool := do
  let s ← get
  if (s.transactionStats.getD motorId {}).feedbackCount = feedbackCountBefore then return true
  let fbNew := s.motorFeedbacks.getD motorId {}
  if fbNew.mode ≠ 0x01 then return ← tripCurrentGuard motorId .kModeMismatch
  let now ← steadyNow
  let sample : DdtCurrentPi.GuardSample :=
    { nowSec := now, rpmRef := rpmRef, measuredPrevRpm := measuredPrev,
      measuredNewRpm := s.measuredRpm fbNew, appliedAmp := appliedAmp, commandedAmp := iCmdAmp,
      maxCurrentAmp := s.maxCurrentAmp.val }
  let guarded :=
    DdtCurrentPi.updateGuard (s.piStates.getD motorId {}).guard s.currentGuardParams sample
  modify fun s => s.updatePi motorId fun st => { st with guard := guarded.1 }
  if guarded.2 = .kNone then return true
  tripCurrentGuard motorId guarded.2

/-- `commandCurrentMode` with a response to go by. -/
def runCurrentMode (motorId : Int) (rpmRefRaw : ℤ) (fb : MotorFeedback) : Ddt Bool := do
  let rpmRef ← limitReference motorId rpmRefRaw fb
  let s ← get
  if DdtCurrentPi.inZeroDeadband rpmRef fb.speed.toInt s.currentZeroDeadbandRpm then
    modify fun s => s.updatePi motorId fun st => { st with pi := {}, hasLastT := false, guard := {} }
    return ← sendMotorCurrentRaw motorId 0
  modify fun s => s.updateStats motorId id
  let before := s.transactionStats.getD motorId {}
  let stepped ← runCurrentLoopStep motorId rpmRef
  let sent ← sendMotorCurrentRaw motorId stepped.raw
  if !sent then return false
  judgeResponse motorId rpmRef (s.measuredRpm fb) (DdtCurrentPi.rawToAmp before.lastCurrentRawSent)
    stepped.iCmdAmp before.feedbackCount

/-- The last response of a motor, if the controller may go by it: there is
one, and not too many exchanges since then were without one. -/
def usableFeedback (s : DdtMotorLib) (motorId : Int) : Option MotorFeedback :=
  (s.motorFeedbacks[motorId]?).filter fun fb =>
    fb.hasFeedback && decide (fb.consecutiveTimeouts < kCurrentMaxConsecutiveTimeouts)

def commandCurrentMode (motorId : Int) (rpmRefRaw : ℤ) : Ddt Bool := do
  let s ← get
  if s.currentGuardTrips.contains motorId then return ← sendZeroCurrent motorId
  match s.usableFeedback motorId with
  | none => sendZeroCurrent motorId
  | some fb =>
    if fb.mode ≠ 0x01 then tripCurrentGuard motorId .kModeMismatch
    else runCurrentMode motorId rpmRefRaw fb

/-! ## Setting up a motor -/

def modeValue : ControlMode → UInt8
  | .current => 0x01
  | .velocity => 0x02

def setControlMode (motorId : Int) (mode : ControlMode) : Ddt Bool :=
  sendCommand (DdtProtocol.packModeFrame (wireId motorId) (modeValue mode))

/-- A zero command, for the response it brings. -/
def prime (motorId : Int) (mode : ControlMode) : Ddt Bool := do
  match mode with
  | .current => sendMotorCurrentRaw motorId 0
  | .velocity => sendMotorVelocity motorId 0 (← get).brakeOnStop

/-- The mode a motor reported, if it did. -/
def reported (s : DdtMotorLib) (motorId : Int) : Option UInt8 :=
  ((s.motorFeedbacks[motorId]?).filter MotorFeedback.hasFeedback).map MotorFeedback.mode

/-- The entries of a motor whose mode was just set. -/
def register (s : DdtMotorLib) (motorId : Int) (mode : ControlMode) : DdtMotorLib :=
  { s with
    motorModes := s.motorModes.insert motorId mode
    motorVelocities := s.motorVelocities.insert motorId 0
    motorFeedbacks := s.motorFeedbacks.insert motorId {}
    piStates := s.piStates.insert motorId {}
    currentGuardTrips := s.currentGuardTrips.erase motorId }

def forgetMode (s : DdtMotorLib) (motorId : Int) : DdtMotorLib :=
  { s with motorModes := s.motorModes.erase motorId }

/-- Where a primed motor reports another mode, try the older mode frame. -/
def retryLegacyMode (motorId : Int) (mode : ControlMode) (primed : Bool) : Ddt Unit := do
  let answered := (← get).reported motorId
  if primed ∧ answered.isSome ∧ answered ≠ some (modeValue mode) then
    let sent ← sendCommand (DdtProtocol.packModeFrameLegacy (wireId motorId) (modeValue mode))
    if sent then
      modify fun s => s.resetFeedback motorId
      let _ ← prime motorId mode

def initializeMotor (motorId : Int) (mode : ControlMode) : Ddt Bool := do
  let set ← setControlMode motorId mode
  if !set then return false
  modify fun s => s.register motorId mode
  let primed ← prime motorId mode
  retryLegacyMode motorId mode primed
  let s ← get
  if mode = .current ∧ s.reported motorId ≠ some (modeValue mode) then
    modify fun s => s.forgetMode motorId
    return false
  Act.emit (.initialized motorId mode)
  return true

/-! ## Commands -/

/-- `setMotorVelocity`'s first part: a motor without a mode gets velocity mode. -/
def ensureMode (motorId : Int) : Ddt Bool := do
  if (← get).motorModes.contains motorId then return true
  initializeMotor motorId .velocity

def setMotorVelocity (motorId : Int) (velocityRpm : ℤ) : Ddt Bool := do
  if !(← get).initialized then return false
  let ready ← ensureMode motorId
  if !ready then return false
  let s ← get
  let rpmRefRaw := s.clampRpm velocityRpm
  modify fun s => s.setVelocityEntry motorId rpmRefRaw
  if s.inCurrentMode motorId then commandCurrentMode motorId rpmRefRaw
  else sendMotorVelocity motorId rpmRefRaw false

/-- Zero velocity with the brake, and when it was sent. -/
def sendStop (motorId : Int) : Ddt Bool := do
  let success ← sendMotorVelocity motorId 0 (← get).brakeOnStop
  if success then
    let now ← steadyNow
    modify fun s => s.setLastStop motorId now
    return true
  else return false

/-- A stop frame was the last one to leave, and is too recent to be sent
again. -/
def stopThrottled (motorId : Int) : Ddt Bool := do
  let s ← get
  if s.lastSentFrameIsZero motorId && decide (0 < s.stopResendIntervalMs) then
    let now ← steadyNow
    return (s.lastStopSendTime[motorId]?).any fun last =>
      decide (toMilliseconds (now - last) < s.stopResendIntervalMs)
  else return false

def stopMotor (motorId : Int) : Ddt Bool := do
  if (← get).inCurrentMode motorId then
    modify fun s => s.setVelocityEntry motorId 0
    return ← sendZeroCurrent motorId
  modify fun s => s.setVelocityEntry motorId 0
  let throttled ← stopThrottled motorId
  if throttled then return true
  sendStop motorId

def stopMotorNow (motorId : Int) : Ddt Bool := do
  if !(← get).initialized then return false
  modify fun s => s.setVelocityEntry motorId 0
  if (← get).inCurrentMode motorId then return ← sendZeroCurrent motorId
  sendStop motorId

def stopAllMotors : Ddt Bool := do
  Act.each stopMotor (← get).motorVelocities.keys

def stopInEmergency (motorId : Int) : Ddt Bool := do
  let s ← get
  if s.inCurrentMode motorId then sendZeroCurrent motorId
  else sendMotorVelocity motorId 0 s.brakeOnStop

def emergencyStop : Ddt Unit := do
  let _ ← Act.each stopInEmergency (← get).motorVelocities.keys

/-! ## Feedback while idle -/

def feedbackFresh (motorId : Int) (maxAgeSec : ℚ) : Ddt Bool := do
  match ((← get).motorFeedbacks[motorId]?).filter MotorFeedback.hasFeedback with
  | none => return false
  | some fb =>
    let now ← steadyNow
    return decide (now - fb.lastFeedbackTime ≤ maxAgeSec)

def refreshMotorFeedback (motorId : Int) (maxAgeSec : ℚ) : Ddt Bool := do
  if !(← get).initialized then return false
  let fresh ← feedbackFresh motorId maxAgeSec
  if fresh then return true
  let s ← get
  let throttled ← stopThrottled motorId
  match s.lastSentFrames[motorId]? with
  | none => return false
  | some frame =>
    match DdtProtocol.decideIdleRefresh false true (DdtProtocol.isZeroCommandFrame frame) throttled with
    | .kNone => return false
    | .kResendZero =>
      let _ ← sendFrameWithFeedback motorId frame
      let now ← steadyNow
      modify fun s => s.setLastStop motorId now
      feedbackFresh motorId maxAgeSec

/-! ## Opening and closing -/

/-- `initialize` -/
def initializeLibrary : Ddt Bool := do
  if (← get).initialized then return true
  let opened ← answer Port.nextOpen
  if !opened then return false
  modify fun s => { s with initialized := true, serialOpen := true }
  return true

/-- What `shutdown` does after the emergency stop. -/
def closed (s : DdtMotorLib) : DdtMotorLib :=
  { s with
    serialOpen := false
    motorVelocities := ∅
    motorFeedbacks := ∅
    motorModes := ∅
    piStates := ∅
    currentGuardTrips := ∅
    lastSentFrames := ∅
    transactionStats := ∅
    initialized := false }

def shutdown : Ddt Unit := do
  if (← get).initialized then
    emergencyStop
    modify closed

/-! ## Settings -/

theorem clamp_byte (v : ℤ) : 1 ≤ DdtCurrentPi.clamp v 1 255 ∧ DdtCurrentPi.clamp v 1 255 ≤ 255 := by
  unfold DdtCurrentPi.clamp
  split_ifs <;> omega

def setMaxRpm (maxRpm : ℕ) : Ddt Unit :=
  modify fun s =>
    { s with maxMotorRpm := if maxRpm > kSpecVelocityMaxRpm then kSpecVelocityMaxRpm else maxRpm }

def setCurrentControlParams (kp ki maxCurrentAmp integralLimitAmp : ℚ) : Ddt Unit := do
  modify fun s =>
    { s with currentKp := kp, currentKi := ki, maxCurrentAmp := ⟨max 0 maxCurrentAmp, le_max_left ..⟩,
             integralLimitAmp := ⟨max 0 integralLimitAmp, le_max_left ..⟩ }
  clearCurrentGuardTrips

def setCurrentFeedforward (staticAmp viscousAmpPerRpm : ℚ) : Ddt Unit := do
  modify fun s =>
    { s with currentFfStaticAmp := max 0 staticAmp,
             currentFfViscousAmpPerRpm := max 0 viscousAmpPerRpm }
  clearCurrentGuardTrips

def setCurrentGuardParams (overspeedMarginRpm overspeedTimeSec : ℚ) : Ddt Unit := do
  let defaults : DdtCurrentPi.GuardParams := {}
  modify fun s =>
    { s with
      currentGuardParams :=
        { overspeedMarginRpm :=
            if 0 < overspeedMarginRpm then overspeedMarginRpm else defaults.overspeedMarginRpm
          overspeedTimeSec :=
            if 0 < overspeedTimeSec then overspeedTimeSec else defaults.overspeedTimeSec } }
  clearCurrentGuardTrips

def setCurrentZeroDeadbandRpm (deadbandRpm : ℤ) : Ddt Unit :=
  modify fun s => { s with currentZeroDeadbandRpm := max 0 deadbandRpm }

def setCurrentInvertMeasured (invert : Bool) : Ddt Unit := do
  modify fun s => { s with currentInvertMeasured := invert }
  clearCurrentGuardTrips

def setCurrentMaxAccelRpmPerSec (rpmPerSec : ℚ) : Ddt Unit :=
  modify fun s => { s with currentMaxAccelRpmPerSec := rpmPerSec }

def setBrakeOnStop (enable : Bool) : Ddt Unit :=
  modify fun s => { s with brakeOnStop := enable }

def setAccelTime (accelTime : ℤ) : Ddt Unit :=
  modify fun s =>
    { s with accelTime := ⟨DdtCurrentPi.clamp accelTime 1 255, clamp_byte accelTime⟩ }

def setStopResendIntervalMs (intervalMs : ℤ) : Ddt Unit :=
  modify fun s => { s with stopResendIntervalMs := max 0 intervalMs }

def setMeasuredLowpassTau (tauSec : ℚ) : Ddt Unit :=
  modify fun s => { s with measuredLpfTauSec := if 0 < tauSec then tauSec else 0 }

/-! ## Runs -/

/-- A call of the library. -/
inductive Op where
  | initializeLibrary
  | shutdown
  | emergencyStop
  | initializeMotor (motorId : Int) (mode : ControlMode)
  | setControlMode (motorId : Int) (mode : ControlMode)
  | setMotorVelocity (motorId : Int) (velocityRpm : ℤ)
  | stopMotor (motorId : Int)
  | stopMotorNow (motorId : Int)
  | stopAllMotors
  | refreshMotorFeedback (motorId : Int) (maxAgeSec : ℚ)
  | setMaxRpm (maxRpm : ℕ)
  | setCurrentControlParams (kp ki maxCurrentAmp integralLimitAmp : ℚ)
  | setCurrentFeedforward (staticAmp viscousAmpPerRpm : ℚ)
  | setCurrentGuardParams (overspeedMarginRpm overspeedTimeSec : ℚ)
  | setCurrentZeroDeadbandRpm (deadbandRpm : ℤ)
  | setCurrentInvertMeasured (invert : Bool)
  | setCurrentMaxAccelRpmPerSec (rpmPerSec : ℚ)
  | setBrakeOnStop (enable : Bool)
  | setAccelTime (accelTime : ℤ)
  | setStopResendIntervalMs (intervalMs : ℤ)
  | setMeasuredLowpassTau (tauSec : ℚ)

def ignore {α : Type} (call : Ddt α) : Ddt Unit := do
  let _ ← call

def Op.run : Op → Ddt Unit
  | .initializeLibrary => ignore DdtMotorLib.initializeLibrary
  | .shutdown => DdtMotorLib.shutdown
  | .emergencyStop => DdtMotorLib.emergencyStop
  | .initializeMotor motorId mode => ignore (DdtMotorLib.initializeMotor motorId mode)
  | .setControlMode motorId mode => ignore (DdtMotorLib.setControlMode motorId mode)
  | .setMotorVelocity motorId velocityRpm => ignore (DdtMotorLib.setMotorVelocity motorId velocityRpm)
  | .stopMotor motorId => ignore (DdtMotorLib.stopMotor motorId)
  | .stopMotorNow motorId => ignore (DdtMotorLib.stopMotorNow motorId)
  | .stopAllMotors => ignore DdtMotorLib.stopAllMotors
  | .refreshMotorFeedback motorId maxAgeSec =>
    ignore (DdtMotorLib.refreshMotorFeedback motorId maxAgeSec)
  | .setMaxRpm maxRpm => DdtMotorLib.setMaxRpm maxRpm
  | .setCurrentControlParams kp ki maxCurrentAmp integralLimitAmp =>
    DdtMotorLib.setCurrentControlParams kp ki maxCurrentAmp integralLimitAmp
  | .setCurrentFeedforward staticAmp viscousAmpPerRpm =>
    DdtMotorLib.setCurrentFeedforward staticAmp viscousAmpPerRpm
  | .setCurrentGuardParams margin time => DdtMotorLib.setCurrentGuardParams margin time
  | .setCurrentZeroDeadbandRpm deadbandRpm => DdtMotorLib.setCurrentZeroDeadbandRpm deadbandRpm
  | .setCurrentInvertMeasured invert => DdtMotorLib.setCurrentInvertMeasured invert
  | .setCurrentMaxAccelRpmPerSec rpmPerSec => DdtMotorLib.setCurrentMaxAccelRpmPerSec rpmPerSec
  | .setBrakeOnStop enable => DdtMotorLib.setBrakeOnStop enable
  | .setAccelTime accelTime => DdtMotorLib.setAccelTime accelTime
  | .setStopResendIntervalMs intervalMs => DdtMotorLib.setStopResendIntervalMs intervalMs
  | .setMeasuredLowpassTau tauSec => DdtMotorLib.setMeasuredLowpassTau tauSec

/-- One call, and what it lets out. -/
def step : DdtMotorLib → Op → DdtMotorLib × List BusEffect := Act.machine Op.run

/-- Everything a run of calls lets out, in order. -/
def effects (s : DdtMotorLib) (ops : List Op) : List BusEffect :=
  (trace step s ops).flatMap Step.out

theorem effects_append (s : DdtMotorLib) (ops₁ ops₂ : List Op) :
    effects s (ops₁ ++ ops₂) = effects s ops₁ ++ effects (final step s ops₁) ops₂ := by
  simp only [effects, trace_append, List.flatMap_append]

theorem effects_append_one (s : DdtMotorLib) (ops : List Op) (op : Op) :
    effects s (ops ++ [op]) = effects s ops ++ (step (final step s ops) op).2 := by
  rw [effects_append]
  simp [effects, stepOf]

end Questix.MotorControl.DdtMotorLib
