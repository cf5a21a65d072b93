/-
Questix.MotorControl.DriveParams — parameters of the drive changed while it
runs: `DriveComponent::onParameterChange` in `drive_component_params.cpp`,
with the setters of `DdtMotorLib` it calls.

The members that belong to a parameter are given by the parameter's name, one
function for each type, so that a branch of the source is a line in the tables
below: its name (`name`), its check (`check`), its flag (`dirty`) and what its
commit does at once (`commit`). Members no branch writes are left out, but for
those the control core's configuration and the warnings are made of.

The setters take any double here; on finite ones they are those of
`DdtMotorLib`. A value of a type no branch asks for is told by its type's name
alone. What `rclcpp` says of a value of the wrong type is a parameter.
-/
import Questix.Lib.DblArith
import Questix.MotorControl.DdtMotorLib
import Questix.MotorControl.VelocityDrive

namespace Questix.MotorControl.DriveParams

open Questix.Lib

/-! ## Parameters -/

/-- The value of an `rclcpp::Parameter`. -/
inductive ParameterValue where
  | bool (value : Bool)
  | integer (value : ℤ)
  | double (value : Dbl)
  | string (value : String)
  | other (type : String)
  deriving DecidableEq

/-- `rclcpp::Parameter` -/
structure Parameter where
  name : String
  value : ParameterValue

/-- The parameters of type double that can be changed at runtime. -/
inductive DoubleParam where
  | maxLinearAccel
  | maxAngularAccel
  | slewTaperBandLinear
  | slewTaperBandAngular
  | velocityRunModelTauSec
  | velocityRunQ
  | velocityRunR
  | velocityRunLeadGain
  | velocityRunDisturbanceGain
  | velocityRunObserverLX
  | velocityRunObserverLD
  | velocityRunMaxCorrectionRpm
  | velocityRunFeedbackMaxAgeSec
  | cmdTimeoutSec
  | measuredLpfTauSec
  | currentKp
  | currentKi
  | maxCurrentAmp
  | integralLimitAmp
  | currentFfStaticAmp
  | currentFfViscousAmpPerRpm
  | currentGuardOverspeedMarginRpm
  | currentGuardOverspeedTimeSec
  deriving DecidableEq

inductive IntParam where
  | minCommandRpm
  | driveFsmRunEnterRpm
  | driveFsmRunExitRpm
  | velocityRunModelDelayTicks
  | stopResendIntervalMs
  | commandWaitMs
  | currentZeroDeadbandRpm
  deriving DecidableEq

inductive BoolParam where
  | velocityRunLqrEnabled
  | velocityRunInvertMeasured
  | brakeOnStop
  | currentInvertMeasured
  deriving DecidableEq

/-- A parameter that can be changed at runtime. -/
inductive RuntimeParam where
  | double (p : DoubleParam)
  | int (p : IntParam)
  | bool (p : BoolParam)
  deriving DecidableEq

def DoubleParam.name : DoubleParam → String
  | .maxLinearAccel => "max_linear_accel"
  | .maxAngularAccel => "max_angular_accel"
  | .slewTaperBandLinear => "slew_taper_band_linear"
  | .slewTaperBandAngular => "slew_taper_band_angular"
  | .velocityRunModelTauSec => "velocity_run_model_tau_sec"
  | .velocityRunQ => "velocity_run_q"
  | .velocityRunR => "velocity_run_r"
  | .velocityRunLeadGain => "velocity_run_lead_gain"
  | .velocityRunDisturbanceGain => "velocity_run_disturbance_gain"
  | .velocityRunObserverLX => "velocity_run_observer_l_x"
  | .velocityRunObserverLD => "velocity_run_observer_l_d"
  | .velocityRunMaxCorrectionRpm => "velocity_run_max_correction_rpm"
  | .velocityRunFeedbackMaxAgeSec => "velocity_run_feedback_max_age_sec"
  | .cmdTimeoutSec => "cmd_timeout_sec"
  | .measuredLpfTauSec => "measured_lpf_tau_sec"
  | .currentKp => "current_kp"
  | .currentKi => "current_ki"
  | .maxCurrentAmp => "max_current_amp"
  | .integralLimitAmp => "integral_limit_amp"
  | .currentFfStaticAmp => "current_ff_static_amp"
  | .currentFfViscousAmpPerRpm => "current_ff_viscous_amp_per_rpm"
  | .currentGuardOverspeedMarginRpm => "current_guard_overspeed_margin_rpm"
  | .currentGuardOverspeedTimeSec => "current_guard_overspeed_time_sec"

def IntParam.name : IntParam → String
  | .minCommandRpm => "min_command_rpm"
  | .driveFsmRunEnterRpm => "drive_fsm_run_enter_rpm"
  | .driveFsmRunExitRpm => "drive_fsm_run_exit_rpm"
  | .velocityRunModelDelayTicks => "velocity_run_model_delay_ticks"
  | .stopResendIntervalMs => "stop_resend_interval_ms"
  | .commandWaitMs => "command_wait_ms"
  | .currentZeroDeadbandRpm => "current_zero_deadband_rpm"

def BoolParam.name : BoolParam → String
  | .velocityRunLqrEnabled => "velocity_run_lqr_enabled"
  | .velocityRunInvertMeasured => "velocity_run_invert_measured"
  | .brakeOnStop => "brake_on_stop"
  | .currentInvertMeasured => "current_invert_measured"

def RuntimeParam.name : RuntimeParam → String
  | .double p => p.name
  | .int p => p.name
  | .bool p => p.name

/-- The branches of `onParameterChange`, in their order. -/
def branches : List RuntimeParam :=
  [.double .maxLinearAccel, .double .maxAngularAccel, .double .slewTaperBandLinear,
    .double .slewTaperBandAngular, .int .minCommandRpm, .int .driveFsmRunEnterRpm,
    .int .driveFsmRunExitRpm, .bool .velocityRunLqrEnabled, .double .velocityRunModelTauSec,
    .int .velocityRunModelDelayTicks, .double .velocityRunQ, .double .velocityRunR,
    .double .velocityRunLeadGain, .double .velocityRunDisturbanceGain,
    .double .velocityRunObserverLX, .double .velocityRunObserverLD,
    .double .velocityRunMaxCorrectionRpm, .bool .velocityRunInvertMeasured,
    .double .velocityRunFeedbackMaxAgeSec, .double .cmdTimeoutSec, .bool .brakeOnStop,
    .int .stopResendIntervalMs, .double .measuredLpfTauSec, .int .commandWaitMs,
    .double .currentKp, .double .currentKi, .double .maxCurrentAmp, .double .integralLimitAmp,
    .double .currentFfStaticAmp, .double .currentFfViscousAmpPerRpm,
    .double .currentGuardOverspeedMarginRpm, .double .currentGuardOverspeedTimeSec,
    .int .currentZeroDeadbandRpm, .bool .currentInvertMeasured]

/-- The branch a name takes. -/
def branch (name : String) : Option RuntimeParam := branches.find? fun p => p.name = name

def kRequiresReconfigure : List String :=
  ["serial_port", "rearm_neutral_linear", "rearm_neutral_angular", "baud_rate", "left_motor_id",
    "right_motor_id", "max_motor_rpm", "control_mode", "control_rate",
    "serial_response_timeout_ms", "status_publish_rate", "wheel_radius", "wheel_separation",
    "typed_status_topic", "publish_control_sample", "control_sample_topic", "odom_topic",
    "odom_frame_id", "base_frame_id", "publish_tf", "auto_start", "connect_retry_period_sec",
    "emergency_stop_topic", "require_emergency_stop", "emergency_stop_timeout_sec",
    "motion_permission_topic", "require_motion_permission", "motion_permission_timeout_sec"]

/-! ## Checks -/

def kMaxCurrentLimitAmp : ℚ := 4
def INT_MIN : ℤ := -2 ^ 31
def INT_MAX : ℤ := 2 ^ 31 - 1

/-- The message of a value out of its bounds, if it is. -/
def require (ok : Prop) [Decidable ok] (error : String) : Except String Unit :=
  if ok then .ok () else .error error

def checkCurrentParam (p : DoubleParam) (value : Dbl) : Except String Unit :=
  if ¬ value.isfinite then .error (p.name ++ " requires a finite value")
  else if p = .currentGuardOverspeedMarginRpm ∨ p = .currentGuardOverspeedTimeSec then
    require (0 < value) (p.name ++ " requires a positive value (the guard cannot be disabled)")
  else if value < 0 then .error (p.name ++ " requires a nonnegative value")
  else if p = .maxCurrentAmp ∧ .fin kMaxCurrentLimitAmp < value then
    .error (p.name ++ " must be at most 4.000000 A (below the M0602C phase-current protection)")
  else .ok ()

/-- The check of a branch that takes a double. -/
def DoubleParam.check (p : DoubleParam) (value : Dbl) : Except String Unit :=
  match p with
  | .maxLinearAccel | .maxAngularAccel | .slewTaperBandLinear | .slewTaperBandAngular
  | .cmdTimeoutSec | .measuredLpfTauSec => .ok ()
  | .velocityRunModelTauSec | .velocityRunR | .velocityRunFeedbackMaxAgeSec =>
    require (¬ (¬ value.isfinite ∨ value ≤ 0)) (p.name ++ " requires a finite positive value")
  | .velocityRunQ | .velocityRunObserverLD | .velocityRunMaxCorrectionRpm =>
    require (¬ (¬ value.isfinite ∨ value < 0)) (p.name ++ " requires a finite nonnegative value")
  | .velocityRunLeadGain | .velocityRunDisturbanceGain | .velocityRunObserverLX =>
    require (¬ (¬ value.isfinite ∨ value < 0 ∨ 1 < value))
      (p.name ++ " requires a finite value in [0, 1]")
  | .currentKp | .currentKi | .maxCurrentAmp | .integralLimitAmp | .currentFfStaticAmp
  | .currentFfViscousAmpPerRpm | .currentGuardOverspeedMarginRpm
  | .currentGuardOverspeedTimeSec => checkCurrentParam p value

/-- The check of a branch that takes an integer. -/
def IntParam.check (p : IntParam) (raw : ℤ) : Except String Unit :=
  match p with
  | .minCommandRpm | .stopResendIntervalMs | .commandWaitMs =>
    require (¬ (raw < INT_MIN ∨ INT_MAX < raw)) (p.name ++ " is outside the supported int range")
  | .driveFsmRunEnterRpm | .driveFsmRunExitRpm =>
    require (¬ (raw < 0 ∨ INT_MAX < raw)) (p.name ++ " requires 0..INT_MAX (0 = disabled)")
  | .velocityRunModelDelayTicks =>
    require (¬ (raw < 0 ∨ WheelObserver.kMaxDelayTicks < raw))
      (p.name ++ " requires 0.." ++ toString WheelObserver.kMaxDelayTicks)
  | .currentZeroDeadbandRpm =>
    require (¬ (raw < 0 ∨ INT_MAX < raw)) (p.name ++ " is outside the supported int range")

/-! ## The component -/

/-- The members of `DriveComponent` that the parameters are kept in. -/
structure Members where
  double : DoubleParam → Dbl
  int : IntParam → ℤ
  bool : BoolParam → Bool
  wheelRadius : Dbl
  wheelSeparation : Dbl
  controlMode : String
  controlRate : Dbl

/-- A value staged for a parameter, of the parameter's type. -/
inductive Assignment where
  | double (p : DoubleParam) (value : Dbl)
  | int (p : IntParam) (value : ℤ)
  | bool (p : BoolParam) (value : Bool)

def Members.assign (m : Members) : Assignment → Members
  | .double p value => { m with double := Function.update m.double p value }
  | .int p value => { m with int := Function.update m.int p value }
  | .bool p value => { m with bool := Function.update m.bool p value }

/-- The settings of `DdtMotorLib` that parameters reach, and the latched trips
of its guard. -/
structure MotorSettings where
  currentKp : Dbl
  currentKi : Dbl
  maxCurrentAmp : Dbl
  integralLimitAmp : Dbl
  currentFfStaticAmp : Dbl
  currentFfViscousAmpPerRpm : Dbl
  overspeedMarginRpm : Dbl
  overspeedTimeSec : Dbl
  currentZeroDeadbandRpm : ℤ
  currentInvertMeasured : Bool
  brakeOnStop : Bool
  stopResendIntervalMs : ℤ
  measuredLpfTauSec : Dbl
  commandWaitMs : ℤ
  currentGuardTrips : IntMap GuardTrip

namespace MotorSettings

variable (lib : MotorSettings)

def clearCurrentGuardTrips : MotorSettings := { lib with currentGuardTrips := ∅ }

def setCurrentControlParams (kp ki maxCurrentAmp integralLimitAmp : Dbl) : MotorSettings :=
  { lib with
    currentKp := kp, currentKi := ki, maxCurrentAmp := Dbl.max 0 maxCurrentAmp,
    integralLimitAmp := Dbl.max 0 integralLimitAmp }.clearCurrentGuardTrips

def setCurrentFeedforward (staticAmp viscousAmpPerRpm : Dbl) : MotorSettings :=
  { lib with
    currentFfStaticAmp := if staticAmp.isfinite then Dbl.max 0 staticAmp else 0
    currentFfViscousAmpPerRpm :=
      if viscousAmpPerRpm.isfinite then Dbl.max 0 viscousAmpPerRpm else 0 }.clearCurrentGuardTrips

def setCurrentGuardParams (overspeedMarginRpm overspeedTimeSec : Dbl) : MotorSettings :=
  let defaults : DdtCurrentPi.GuardParams := {}
  { lib with
    overspeedMarginRpm :=
      if overspeedMarginRpm.isfinite ∧ 0 < overspeedMarginRpm then overspeedMarginRpm
      else .fin defaults.overspeedMarginRpm
    overspeedTimeSec :=
      if overspeedTimeSec.isfinite ∧ 0 < overspeedTimeSec then overspeedTimeSec
      else .fin defaults.overspeedTimeSec }.clearCurrentGuardTrips

def setCurrentZeroDeadbandRpm (deadbandRpm : ℤ) : MotorSettings :=
  { lib with currentZeroDeadbandRpm := max 0 deadbandRpm }

def setCurrentInvertMeasured (invert : Bool) : MotorSettings :=
  { lib with currentInvertMeasured := invert }.clearCurrentGuardTrips

def setBrakeOnStop (enable : Bool) : MotorSettings := { lib with brakeOnStop := enable }

def setStopResendIntervalMs (intervalMs : ℤ) : MotorSettings :=
  { lib with stopResendIntervalMs := max 0 intervalMs }

def setMeasuredLowpassTau (tauSec : Dbl) : MotorSettings :=
  { lib with measuredLpfTauSec := if 0 < tauSec then tauSec else 0 }

def setCommandWaitMs (waitMs : ℤ) : MotorSettings := { lib with commandWaitMs := max 0 waitMs }

end MotorSettings

/-- `DriveComponent`: its members and the three subsystems, which are there
once the motors are initialized. -/
structure Component (M : Type) where
  members : Members
  motorLib : Option MotorSettings := none
  diffDrive : Option (VelocityDrive M) := none
  controlCore : Option ControlCore := none

def Members.makeControlCoreConfig (m : Members) : ControlCore.Config where
  maxLinearAccel := m.double .maxLinearAccel
  maxAngularAccel := m.double .maxAngularAccel
  slewTaperBandLinear := m.double .slewTaperBandLinear
  slewTaperBandAngular := m.double .slewTaperBandAngular
  wheelRadius := m.wheelRadius
  wheelSeparation := m.wheelSeparation
  minCommandRpm := m.int .minCommandRpm
  runEnterRpm := m.int .driveFsmRunEnterRpm
  runExitRpm := m.int .driveFsmRunExitRpm
  velocityRun :=
    { enabled := m.bool .velocityRunLqrEnabled && m.controlMode == "velocity"
      modelTauSec := m.double .velocityRunModelTauSec
      modelDelayTicks := m.int .velocityRunModelDelayTicks
      q := m.double .velocityRunQ
      r := m.double .velocityRunR
      leadGain := m.double .velocityRunLeadGain
      disturbanceGain := m.double .velocityRunDisturbanceGain
      observerLX := m.double .velocityRunObserverLX
      observerLD := m.double .velocityRunObserverLD
      maxCorrectionRpm := m.double .velocityRunMaxCorrectionRpm
      invertMeasured := m.bool .velocityRunInvertMeasured }

/-! ## Warnings -/

/-- What is logged about the correction by the LQR. -/
inductive Warning where
  | lqrTicksAssumeAnotherRate
  | lqrLacksRunThreshold
  | lqrIgnored
  deriving DecidableEq

def kLqrTickRateHz : Dbl := 50

def Members.velocityRunLqrLacksRunThreshold (m : Members) : Bool :=
  m.bool .velocityRunLqrEnabled && m.controlMode == "velocity" &&
    decide (m.int .driveFsmRunEnterRpm ≤ 0) && decide (m.int .driveFsmRunExitRpm ≤ 0)

def Members.warnIfLqrTicksAssumeAnotherRate (m : Members) : List Warning :=
  let lqrEffective := m.bool .velocityRunLqrEnabled && m.controlMode == "velocity" &&
    !m.velocityRunLqrLacksRunThreshold
  if ¬ lqrEffective ∨ (m.controlRate - kLqrTickRateHz).abs < .fin (1 / 10 ^ 9) then []
  else [.lqrTicksAssumeAnotherRate]

/-! ## Phase 1: validate and stage -/

/-- The flag a branch sets for what is to be set up again after the commits. -/
inductive Dirty where
  | controlCore
  | currentPi
  | currentFf
  | currentGuard
  deriving DecidableEq

def RuntimeParam.dirty : RuntimeParam → Option Dirty
  | .double .maxLinearAccel | .double .maxAngularAccel | .double .slewTaperBandLinear
  | .double .slewTaperBandAngular | .double .velocityRunModelTauSec | .double .velocityRunQ
  | .double .velocityRunR | .double .velocityRunLeadGain | .double .velocityRunDisturbanceGain
  | .double .velocityRunObserverLX | .double .velocityRunObserverLD
  | .double .velocityRunMaxCorrectionRpm | .int .minCommandRpm | .int .driveFsmRunEnterRpm
  | .int .driveFsmRunExitRpm | .int .velocityRunModelDelayTicks | .bool .velocityRunLqrEnabled
  | .bool .velocityRunInvertMeasured => some .controlCore
  | .double .currentKp | .double .currentKi | .double .maxCurrentAmp
  | .double .integralLimitAmp => some .currentPi
  | .double .currentFfStaticAmp | .double .currentFfViscousAmpPerRpm => some .currentFf
  | .double .currentGuardOverspeedMarginRpm
  | .double .currentGuardOverspeedTimeSec => some .currentGuard
  | _ => none

def RuntimeParam.changesLqrOrRunThreshold : RuntimeParam → Bool
  | .int .driveFsmRunEnterRpm | .int .driveFsmRunExitRpm | .bool .velocityRunLqrEnabled => true
  | _ => false

/-- The locals of `onParameterChange`; `dirty` holds the flags that are set. -/
structure Staging where
  staged : List Assignment := []
  dirty : Dirty → Bool := fun _ => false
  warnLqrIgnored : Bool := false
  lqrOrRunThresholdChanged : Bool := false

section Rclcpp

-- what the exception of `get_value` says of a parameter that is not of the type asked for
variable (typeError : Parameter → String)

/-- The typed value of a parameter that takes a branch, checked. -/
def read (p : RuntimeParam) (param : Parameter) : Except String Assignment :=
  match p, param.value with
  | .double p, .double value => (p.check value).map fun _ => .double p value
  | .int p, .integer raw => (p.check raw).map fun _ => .int p raw
  | .bool p, .bool value => .ok (.bool p value)
  | _, _ => .error (typeError param)

/-- One branch: its value is staged and its flags are set. -/
def Staging.add (s : Staging) (controlMode : String) (p : RuntimeParam) (a : Assignment) :
    Staging where
  staged := s.staged ++ [a]
  dirty := fun flag => s.dirty flag || decide (p.dirty = some flag)
  warnLqrIgnored :=
    match a with
    | .bool .velocityRunLqrEnabled value => value && controlMode != "velocity"
    | _ => s.warnLqrIgnored
  lqrOrRunThresholdChanged := s.lqrOrRunThresholdChanged || p.changesLqrOrRunThreshold

def stage (controlMode : String) (s : Staging) (param : Parameter) : Except String Staging :=
  match branch param.name with
  | some p => (read typeError p param).map (s.add controlMode p)
  | none =>
    if kRequiresReconfigure.contains param.name then
      .error ("parameter '" ++ param.name ++
        "' cannot be applied at runtime; edit YAML and restart the node")
    else .ok s

end Rclcpp

/-! ## Phase 2: commit -/

section Commit

variable {M : Type} (c : Component M)

/-- A staged closure: the member, and what is told the new value at once. -/
def Component.commit (a : Assignment) : Component M :=
  let c := { c with members := c.members.assign a }
  match a with
  | .int .minCommandRpm value =>
    { c with diffDrive := c.diffDrive.map (·.setMinCommandRpm value) }
  | .bool .brakeOnStop value => { c with motorLib := c.motorLib.map (·.setBrakeOnStop value) }
  | .int .stopResendIntervalMs value =>
    { c with motorLib := c.motorLib.map (·.setStopResendIntervalMs value) }
  | .double .measuredLpfTauSec value =>
    { c with motorLib := c.motorLib.map (·.setMeasuredLowpassTau value) }
  | .int .commandWaitMs value => { c with motorLib := c.motorLib.map (·.setCommandWaitMs value) }
  | .int .currentZeroDeadbandRpm value =>
    { c with motorLib := c.motorLib.map (·.setCurrentZeroDeadbandRpm value) }
  | .bool .currentInvertMeasured value =>
    { c with motorLib := c.motorLib.map (·.setCurrentInvertMeasured value) }
  | _ => c

/-- What a flag has set up again, from the members. -/
def Component.setUp (flag : Dirty) : Component M :=
  let m := c.members
  match flag with
  | .currentPi =>
    { c with
      motorLib := c.motorLib.map fun lib =>
        lib.setCurrentControlParams (m.double .currentKp) (m.double .currentKi)
          (m.double .maxCurrentAmp) (m.double .integralLimitAmp) }
  | .currentFf =>
    { c with
      motorLib := c.motorLib.map fun lib =>
        lib.setCurrentFeedforward (m.double .currentFfStaticAmp)
          (m.double .currentFfViscousAmpPerRpm) }
  | .currentGuard =>
    { c with
      motorLib := c.motorLib.map fun lib =>
        lib.setCurrentGuardParams (m.double .currentGuardOverspeedMarginRpm)
          (m.double .currentGuardOverspeedTimeSec) }
  | .controlCore =>
    { c with controlCore := c.controlCore.map (·.setConfig m.makeControlCoreConfig) }

def Component.setUpIf (dirty : Dirty → Bool) (flag : Dirty) : Component M :=
  if dirty flag then c.setUp flag else c

def Component.phase2 (s : Staging) : Component M :=
  let c := s.staged.foldl Component.commit c
  [Dirty.currentPi, .currentFf, .currentGuard, .controlCore].foldl
    (fun c flag => c.setUpIf s.dirty flag) c

/-- `rcl_interfaces::msg::SetParametersResult` -/
structure SetParametersResult where
  successful : Bool := true
  reason : String

/-- The component after the call, its result, and what it logged. -/
def onParameterChange (typeError : Parameter → String) (params : List Parameter) :
    Component M × SetParametersResult × List Warning :=
  match params.foldlM (stage typeError c.members.controlMode) {} with
  | .error what =>
    (c, { successful := false, reason := "Failed to update parameters: " ++ what }, [])
  | .ok s =>
    let c := c.phase2 s
    let warnings :=
      (if s.lqrOrRunThresholdChanged then c.members.warnIfLqrTicksAssumeAnotherRate else []) ++
      (if s.lqrOrRunThresholdChanged && c.members.velocityRunLqrLacksRunThreshold
        then [.lqrLacksRunThreshold] else []) ++
      (if s.warnLqrIgnored then [.lqrIgnored] else [])
    (c, { reason := "Parameters updated successfully" }, warnings)

end Commit

end Questix.MotorControl.DriveParams
