/-
Questix.MotorControl.ShotAutoStart — the decisions of the shot node that need
no ROS: `shot_auto_start.hpp` and `shot_angle.hpp`.

The decisions are made in one of the primary lifecycle states: a transition
runs to its end within the callback that asks for it, so the `default`
branches of the source, for a node found in the middle of one, have nothing
to decide here.
-/
import Questix.Lib.Dbl
import Mathlib.Data.Rat.Floor

namespace Questix.MotorControl

open Questix.Lib

/-- The primary states of `lifecycle_msgs/State`. -/
inductive LifecycleState where
  | unconfigured
  | inactive
  | active
  | finalized
  deriving DecidableEq, Repr

namespace ShotAutoStart

/-! ## What a timer does next -/

inductive AutoStartAction where
  | kConfigure
  | kActivate
  | kWaitEstopRelease
  | kStopTimer
  deriving DecidableEq, Repr

inductive SafetyTeardownAction where
  | kResetRetry
  | kRetryDeactivate
  | kRetryCleanup
  | kStopTimers
  deriving DecidableEq, Repr

def decideAutoStartAction (state : LifecycleState) (haveControllable controllable : Bool) :
    AutoStartAction :=
  let estopActive := haveControllable && !controllable
  match state with
  | .unconfigured => if estopActive then .kWaitEstopRelease else .kConfigure
  | .inactive => if estopActive then .kWaitEstopRelease else .kActivate
  | .active => .kStopTimer
  | .finalized => .kStopTimer

section DecideAutoStartAction

variable {state : LifecycleState} {controllable : Bool}

theorem state_of_kConfigure
    (h : decideAutoStartAction state true controllable = .kConfigure) :
    state = .unconfigured := by
  revert h
  cases state <;> cases controllable <;> simp [decideAutoStartAction]

theorem state_of_kActivate (h : decideAutoStartAction state true controllable = .kActivate) :
    state = .inactive := by
  revert h
  cases state <;> cases controllable <;> simp [decideAutoStartAction]

theorem state_of_kStopTimer (h : decideAutoStartAction state true controllable = .kStopTimer) :
    state = .active ∨ state = .finalized := by
  revert h
  cases state <;> cases controllable <;> simp [decideAutoStartAction]

end DecideAutoStartAction

def decideSafetyTeardownAction : LifecycleState → SafetyTeardownAction
  | .unconfigured => .kResetRetry
  | .active => .kRetryDeactivate
  | .inactive => .kRetryCleanup
  | .finalized => .kStopTimers

/-- A cancelled auto-start timer in a state an operator brought the node to
before ACTIVE is an operator's hold. -/
def shouldHoldManualLifecycle (state : LifecycleState) (autoStartTimerCanceled : Bool) : Bool :=
  if !autoStartTimerCanceled then false
  else decide (state = .inactive) || decide (state = .unconfigured)

/-- Only a signal that last said "may be operated" goes stale. -/
def isControllableSignalStale (timeoutSec : Dbl) (controllable : Bool) (elapsedSec : Dbl) : Bool :=
  timeoutSec.isfinite && decide (0 < timeoutSec) && controllable &&
    decide (timeoutSec < elapsedSec)

def isValidPositivePeriod (value : Dbl) : Bool := value.isfinite && decide (0 < value)

def normalizePositivePeriod (value fallback : Dbl) : Dbl :=
  if isValidPositivePeriod value then value else fallback

/-! ## The startup window -/

/-- The short time, after a release or a grant, in which configure and
activate are tried again quickly. -/
structure StartupEpisode where
  active : Bool := false
  deadlineSec : Dbl := 0
  attempts : Nat := 0
  deriving DecidableEq

inductive StartupStep where
  | kIdle
  | kAttempt
  | kExpired
  deriving DecidableEq, Repr

def beginStartupEpisode (nowSec : ℚ) (windowSec : Dbl) : StartupEpisode where
  active := true
  deadlineSec := .fin nowSec + windowSec
  attempts := 0

def decideStartupStep (episode : StartupEpisode) (nowSec : ℚ) : StartupStep :=
  if !episode.active then .kIdle
  else if .fin nowSec < episode.deadlineSec then .kAttempt
  else .kExpired

end ShotAutoStart

/-! ## Angles -/

namespace ShotAngle

def clampAngle (angleDeg minDeg maxDeg : Dbl) : Dbl :=
  Dbl.max minDeg (Dbl.min maxDeg angleDeg)

/-- Towards zero, as `static_cast<int>` and the quotient of `std::fmod`. -/
def truncate (q : ℚ) : ℤ := if 0 ≤ q then ⌊q⌋ else ⌈q⌉

/-- An angle as one of the 4096 positions of a servo's turn. -/
def angleToServoPosition : Dbl → ℤ
  | .fin angleDeg =>
    let rest := angleDeg - 360 * truncate (angleDeg / 360)
    let rest := if rest < 0 then rest + 360 else rest
    max 0 (min 4095 (truncate (rest / 360 * 4096)))
  | _ => 0

def servoPositionToAngle (position : ℤ) : Dbl :=
  .fin ((max 0 (min 4095 position) : ℤ) / 4096 * 360)

example : angleToServoPosition 130 = 1479 := by decide +kernel
example : angleToServoPosition (.fin (-90)) = 3072 := by decide +kernel

end ShotAngle

end Questix.MotorControl
