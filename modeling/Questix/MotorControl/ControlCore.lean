/-
Questix.MotorControl.ControlCore — the host's drive control: `control_core.hpp`,
with `drive_slew.hpp` and `differential_kinematics.hpp`.

Settings, targets and the tick's length may be any double. A speed that is not
finite has no nearest integer; what the conversion makes of it is left open
(`LroundInvalid`), and integers are not bounded. The wheel controllers compute
exactly, from measured speeds that are integers.

`Call` lists what the drive does with the core, and `call` runs one of them.
-/
import Questix.Lib.Trace
import Questix.MotorControl.DriveModeFsm
import Questix.MotorControl.WheelControllers

namespace Questix.MotorControl

open Questix.Lib

/-! ## Shaping and kinematics -/

def kTaperSnapRatio : Dbl := .fin (1 / 1000)

def clampRateTapered (target last maxAccel dtSec taperBand : Dbl) : Dbl :=
  if maxAccel ≤ 0 then target
  else
    let delta := target - last
    let residual := delta.abs
    if 0 < taperBand ∧ residual < taperBand ∧ residual ≤ taperBand * kTaperSnapRatio then target
    else
      let maxDelta :=
        if 0 < taperBand ∧ residual < taperBand then maxAccel * dtSec * (residual / taperBand)
        else maxAccel * dtSec
      if maxDelta < delta then last + maxDelta
      else if delta < -maxDelta then last - maxDelta
      else target

/-- The double `2.0 * M_PI`. -/
def kTwoPi : Dbl := .fin (884279719003555 / 140737488355328)

/-- The speeds of the left and the right wheel; the right motor is mounted the
other way round. -/
def twistToWheelRpm (linearX angularZ wheelRadius wheelSeparation : Dbl) : Dbl × Dbl :=
  let circumference := kTwoPi * wheelRadius
  if ¬ 0 < circumference then (0, 0)
  else
    let vLeft := linearX - angularZ * wheelSeparation / 2
    let vRight := linearX + angularZ * wheelSeparation / 2
    (vLeft / circumference * 60, -1 * (vRight / circumference) * 60)

/-- What `static_cast<int>(std::lround(x))` makes of a double that is not
finite. -/
class LroundInvalid where
  value : Dbl → ℤ

/-- `static_cast<int>(std::lround(x))` -/
def lroundInt [LroundInvalid] : Dbl → ℤ
  | .fin q => lround q
  | x => LroundInvalid.value x

/-! ## The core -/

namespace ControlCore

structure VelocityRunLqrConfig where
  enabled : Bool := false
  modelTauSec : Dbl := .fin (1 / 10)
  modelDelayTicks : ℤ := 1
  q : Dbl := 0
  r : Dbl := 1
  leadGain : Dbl := 0
  disturbanceGain : Dbl := 0
  observerLX : Dbl := .fin (3 / 10)
  observerLD : Dbl := 0
  maxCorrectionRpm : Dbl := 20
  invertMeasured : Bool := false

structure Config where
  maxLinearAccel : Dbl := 0
  maxAngularAccel : Dbl := 0
  slewTaperBandLinear : Dbl := 0
  slewTaperBandAngular : Dbl := 0
  wheelRadius : Dbl := 0
  wheelSeparation : Dbl := 0
  minCommandRpm : ℤ := 0
  runEnterRpm : ℤ := 0
  runExitRpm : ℤ := 0
  velocityRun : VelocityRunLqrConfig := {}

structure WheelFeedback where
  valid : Bool := false
  leftRpm : ℤ := 0
  rightRpm : ℤ := 0

structure Output where
  stop : Bool := true
  mode : DriveMode := .kStop
  leftRpm : ℤ := 0
  rightRpm : ℤ := 0
  leftRefRpm : ℤ := 0
  rightRefRpm : ℤ := 0
  linear : Dbl := 0
  angular : Dbl := 0
  lqrActive : Bool := false
  leftLqrActive : Bool := false
  rightLqrActive : Bool := false
  deriving DecidableEq

/-- `WheelState`; `refSign` is 0 where the wheel is not being corrected. -/
structure WheelState where
  observer : WheelObserver.State := {}
  lqr : WheelVelocityLqr.State := {}
  refSign : ℤ := 0

end ControlCore

open ControlCore in
structure ControlCore where
  config : Config
  lastLinear : Dbl := 0
  lastAngular : Dbl := 0
  mode : DriveMode := .kStop
  left : WheelState := {}
  right : WheelState := {}
  lqrParams : WheelVelocityLqr.SafeParams := WheelVelocityLqr.sanitize {}
  observerParams : WheelObserver.SafeParams := WheelObserver.sanitize {}
  lqrGains : Option WheelVelocityLqr.Gains := none
  lqrGainsDt : Dbl := 0

namespace ControlCore

variable (s : ControlCore)

def Config.fsmConfig (c : Config) : DriveModeFsm.Config where
  minCommandRpm := c.minCommandRpm
  runEnterRpm := c.runEnterRpm
  runExitRpm := c.runExitRpm

/-- `velocityRunLqrApplicable` -/
def Config.lqrApplicable (c : Config) : Bool :=
  c.velocityRun.enabled && DriveModeFsm.runThresholdEnabled c.fsmConfig

/-- `wheelInRunRange` -/
def Config.wheelInRunRange (c : Config) (refRpm : ℤ) (engaged : Bool) : Bool :=
  if refRpm = 0 || !DriveModeFsm.runThresholdEnabled c.fsmConfig then false
  else decide ((if engaged then c.fsmConfig.exit else c.fsmConfig.enter) ≤ |refRpm|)

def resetWheelControllers : ControlCore := { s with left := {}, right := {} }

def ensureLqrGains [Libm] (dtSec : Dbl) : ControlCore :=
  if s.lqrGains.isSome && Dbl.eq s.lqrGainsDt dtSec then s
  else
    let vr := s.config.velocityRun
    let tau := if vr.modelTauSec.isfinite ∧ 0 < vr.modelTauSec then vr.modelTauSec
      else .fin (1 / 10 ^ 6)
    let a := if 0 < dtSec then Dbl.lift Libm.exp (-dtSec / tau) else 0
    let lqrParams := WheelVelocityLqr.sanitize
      { a := a, b := 0, q := vr.q, r := vr.r, leadGain := vr.leadGain,
        disturbanceGain := vr.disturbanceGain, maxCorrectionRpm := vr.maxCorrectionRpm }
    let observerParams := WheelObserver.sanitize
      { a := .fin lqrParams.a, b := .fin lqrParams.b, lX := vr.observerLX, lD := vr.observerLD,
        delayTicks := vr.modelDelayTicks }
    { s with
      lqrParams := lqrParams
      observerParams := observerParams
      lqrGains := WheelVelocityLqr.computeGains lqrParams
      lqrGainsDt := dtSec }

/-- The command may not go against the reference. -/
def keepSign (refRpm cmd : ℤ) : ℤ :=
  if 0 < refRpm then max cmd 0 else if refRpm < 0 then min cmd 0 else cmd

def runWheel (w : WheelState) (refRpm : ℤ) (measuredRpm : ℚ) : WheelState × ℤ :=
  match s.lqrGains with
  | none => (w, refRpm)
  | some gains =>
    let os := if w.observer.initialized then w.observer else WheelObserver.reset measuredRpm
    let innovation := measuredRpm - os.xPrior
    let xHat := os.xPrior + s.observerParams.lX * innovation
    let dHat := os.dHat + s.observerParams.lD * innovation
    let (lqr, u) := WheelVelocityLqr.step w.lqr s.lqrParams gains refRpm xHat dHat
    let cmd := keepSign refRpm (lround u)
    ({ w with observer := WheelObserver.step os s.observerParams measuredRpm cmd, lqr := lqr }, cmd)

def signOf (refRpm : ℤ) : ℤ := if 0 < refRpm then 1 else if refRpm < 0 then -1 else 0

/-- The wheel, its command, and whether it was corrected. -/
def applyWheel (w : WheelState) (refRpm : ℤ) (measuredRpm : ℚ) : WheelState × ℤ × Bool :=
  let refSign := signOf refRpm
  let engaged := refSign ≠ 0 && w.refSign = refSign
  if !s.config.wheelInRunRange refRpm engaged || s.lqrGains.isNone then ({}, refRpm, false)
  else
    let w : WheelState := if w.refSign ≠ refSign then { refSign := refSign } else w
    let (w, cmd) := s.runWheel w refRpm measuredRpm
    (w, cmd, true)

/-- The shaped twist of a step. -/
def shape (targetLinear targetAngular dtSec : Dbl) : ControlCore :=
  { s with
    lastLinear := clampRateTapered targetLinear s.lastLinear s.config.maxLinearAccel dtSec
      s.config.slewTaperBandLinear
    lastAngular := clampRateTapered targetAngular s.lastAngular s.config.maxAngularAccel dtSec
      s.config.slewTaperBandAngular }

/-- The references of the left and the right wheel for the shaped twist. -/
def references [LroundInvalid] : ℤ × ℤ :=
  let rpm := twistToWheelRpm s.lastLinear s.lastAngular s.config.wheelRadius
    s.config.wheelSeparation
  (lroundInt rpm.1, lroundInt rpm.2)

/-- The drive mode for the references; a change of it clears the wheels. -/
def changeMode (refs : ℤ × ℤ) : ControlCore :=
  let mode := DriveModeFsm.update s.mode (DriveModeFsm.maxAbs refs) s.config.fsmConfig
  if mode ≠ s.mode then { s with mode := mode }.resetWheelControllers else s

/-- The correction of the wheels in RUN. -/
def correctWheels [Libm] (out : Output) (dtSec : Dbl) (feedback : WheelFeedback) :
    ControlCore × Output :=
  if s.mode = .kRun ∧ s.config.lqrApplicable = true then
    if feedback.valid then
      let s := s.ensureLqrGains dtSec
      let sign : ℚ := if s.config.velocityRun.invertMeasured then -1 else 1
      let (left, leftRpm, leftActive) :=
        s.applyWheel s.left out.leftRefRpm (sign * feedback.leftRpm)
      let (right, rightRpm, rightActive) :=
        s.applyWheel s.right out.rightRefRpm (sign * feedback.rightRpm)
      ({ s with left := left, right := right },
        { out with
          leftRpm := leftRpm, rightRpm := rightRpm, leftLqrActive := leftActive,
          rightLqrActive := rightActive, lqrActive := leftActive || rightActive })
    else (s.resetWheelControllers, out)
  else (s, out)

def step [Libm] [LroundInvalid] (targetLinear targetAngular dtSec : Dbl)
    (feedback : WheelFeedback) : ControlCore × Output :=
  let s := s.shape targetLinear targetAngular dtSec
  let refs := s.references
  let s := s.changeMode refs
  let out : Output :=
    { stop := decide (s.mode = .kStop), mode := s.mode, leftRpm := refs.1, rightRpm := refs.2,
      leftRefRpm := refs.1, rightRefRpm := refs.2, linear := s.lastLinear,
      angular := s.lastAngular }
  s.correctWheels out dtSec feedback

def reset : ControlCore :=
  { s with lastLinear := 0, lastAngular := 0, mode := .kStop }.resetWheelControllers

/-- `!=` of two doubles: `nan` differs from itself. -/
def differs (x y : Dbl) : Bool := !Dbl.eq x y

def velocityRunChanged (before after : VelocityRunLqrConfig) : Bool :=
  before.enabled != after.enabled || differs before.modelTauSec after.modelTauSec ||
    before.modelDelayTicks != after.modelDelayTicks || differs before.q after.q ||
    differs before.r after.r || differs before.leadGain after.leadGain ||
    differs before.disturbanceGain after.disturbanceGain ||
    differs before.observerLX after.observerLX || differs before.observerLD after.observerLD ||
    differs before.maxCorrectionRpm after.maxCorrectionRpm ||
    before.invertMeasured != after.invertMeasured

def setConfig (config : Config) : ControlCore :=
  let changed := velocityRunChanged s.config.velocityRun config.velocityRun
  let wasApplicable := s.config.lqrApplicable
  let s := { s with config := config, lqrGains := none, lqrGainsDt := 0 }
  if changed || wasApplicable != config.lqrApplicable then s.resetWheelControllers else s

/-! ## Runs -/

/-- A call of the core. -/
inductive Call where
  | step (targetLinear targetAngular dtSec : Dbl) (feedback : WheelFeedback)
  | reset
  | setConfig (config : Config)

/-- One call, and the output of a step. -/
def call [Libm] [LroundInvalid] : ControlCore → Call → ControlCore × Option Output
  | s, .step targetLinear targetAngular dtSec feedback =>
    let (s, out) := s.step targetLinear targetAngular dtSec feedback
    (s, some out)
  | s, .reset => (s.reset, none)
  | s, .setConfig config => (s.setConfig config, none)

/-- `ControlCore(config)` -/
def new (config : Config) : ControlCore := { config := config }

abbrev CoreStep := Step ControlCore Call (Option Output)

end ControlCore

end Questix.MotorControl
