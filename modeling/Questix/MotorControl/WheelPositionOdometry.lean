/-
Questix.MotorControl.WheelPositionOdometry — the pose from the positions of the
wheels: `wheel_position_odometry.hpp` and what it uses of
`odometry_integrator.hpp`.

Samples, limits and times may be any double; the integrator refuses those that
are not finite. `odometryStep` is what `integrateOdometry` does with them: an
update and the pose it gives, or a reset of the anchors.

Proofs live in `WheelOdometryTheorems`.
-/
import Questix.Lib.DblArith
import Questix.Lib.Trace

namespace Questix.MotorControl

open Questix.Lib

namespace WheelPosition

/-- `kPositionRawPerTurn` of `ddt_protocol.hpp` -/
def kPositionRawPerTurn : UInt16 := 32767

def kTwoPi : Dbl := .fin (884279719003555 / 140737488355328)

def kMaxPredictionErrorTurns : Dbl := .fin (1 / 4)
def kMaxAssistedGapSec : Dbl := .fin (1 / 5)

/-- `odometry::kMaxFeedbackAgeSec` -/
def kMaxFeedbackAgeSec : Dbl := .fin (1 / 2)

structure Limits where
  radius : Dbl := .fin (1 / 20)
  separation : Dbl := .fin (1 / 2)
  maxRpm : Dbl := 475
  linearAccel : Dbl := .fin (3 / 2)
  angularAccel : Dbl := .fin (3 / 2)
  deriving DecidableEq

def assistedGapLimit [Libm] (limits : Limits) : Dbl :=
  if ¬ 0 < limits.linearAccel ∨ ¬ 0 < limits.angularAccel then 0
  else
    let acceleration :=
      (limits.linearAccel + limits.separation * limits.angularAccel / 2) / (limits.radius * kTwoPi)
    if ¬ acceleration.isfinite ∨ ¬ 0 < acceleration then 0
    else
      Dbl.min kMaxAssistedGapSec
        (.fin (1 / 2) * Dbl.lift Libm.sqrt (4 * kMaxPredictionErrorTurns / acceleration))

structure Sample where
  position : UInt16 := 0
  nativeRpm : Dbl := 0
  timeSec : Dbl := 0
  count : UInt64 := 0
  received : Bool := false
  fault : UInt8 := 0
  deriving DecidableEq

inductive State where
  | kAnchored
  | kWaiting
  | kIntegrated
  | kReset
  deriving DecidableEq, Repr

inductive Reason where
  | kNone
  | kInvalid
  | kStale
  | kFault
  | kGap
  | kAmbiguous
  deriving DecidableEq, Repr

structure Result where
  state : State := .kWaiting
  reason : Reason := .kNone
  distance : Dbl := 0
  heading : Dbl := 0
  deriving DecidableEq

/-- The turns of the shortest way from one position to the other:
`std::remainder` of their difference by a turn. -/
def shortestTurns (previous current : UInt16) : ℚ :=
  let period : ℚ := kPositionRawPerTurn.toNat
  let difference : ℚ := current.toNat - previous.toNat
  (difference - period * roundHalfEven (difference / period)) / period

/-- The turns of one wheel between two samples, if they are certain. -/
def wheelIncrement [Libm] (previous current : Sample) (limits : Limits) : Option Dbl :=
  let dt := current.timeSec - previous.timeSec
  if ¬ 0 < dt ∨ kMaxAssistedGapSec < dt then none
  else
    let shortest := Dbl.fin (shortestTurns previous.position current.position)
    let prediction := (previous.nativeRpm + current.nativeRpm) * dt / 120
    let assisted := decide (.fin (1 / 2) ≤ limits.maxRpm * dt / 60)
    if assisted ∧ assistedGapLimit limits < dt then none
    else
      let candidate := if assisted then shortest + (prediction - shortest).round else shortest
      if kMaxPredictionErrorTurns ≤ (candidate - prediction).abs ∨
          limits.maxRpm * dt / 60 + 2 / 360 < candidate.abs then none
      else some candidate

structure Integrator where
  left : Sample := {}
  right : Sample := {}
  anchored : Bool := false
  deriving DecidableEq

namespace Integrator

def reset (s : Integrator) : Integrator := { s with anchored := false }

def valid (sample : Sample) (now : Dbl) : Bool :=
  sample.received && now.isfinite && sample.timeSec.isfinite && sample.nativeRpm.isfinite &&
    sample.timeSec ≤ now && sample.position ≤ kPositionRawPerTurn

def anchor (left right : Sample) : Integrator := ⟨left, right, true⟩

def discard (s : Integrator) (reason : Reason) : Integrator × Result :=
  (s.reset, { state := .kReset, reason := reason })

/-- The geometry and the limits can be used. -/
def usable (limits : Limits) : Bool :=
  limits.radius.isfinite && limits.separation.isfinite && limits.maxRpm.isfinite &&
    0 < limits.radius && 0 < limits.separation && 0 < limits.maxRpm

/-- The time after which an anchor is given up. -/
def cap [Libm] (limits : Limits) : Dbl :=
  if 0 < assistedGapLimit limits then assistedGapLimit limits else kMaxAssistedGapSec

def update [Libm] (s : Integrator) (left right : Sample) (now : Dbl) (limits : Limits) :
    Integrator × Result :=
  if !valid left now || !valid right now || !usable limits then s.discard .kInvalid
  else if left.fault ≠ 0 ∨ right.fault ≠ 0 then s.discard .kFault
  else if kMaxFeedbackAgeSec < now - left.timeSec ∨ kMaxFeedbackAgeSec < now - right.timeSec then
    s.discard .kStale
  else if cap limits < now - left.timeSec ∨ cap limits < now - right.timeSec then s.discard .kGap
  else if !s.anchored then (anchor left right, { state := .kAnchored })
  else if left.count < s.left.count ∨ right.count < s.right.count then s.discard .kInvalid
  else if cap limits < now - s.left.timeSec ∨ cap limits < now - s.right.timeSec then
    (anchor left right, { state := .kReset, reason := .kGap })
  else if left.count = s.left.count ∨ right.count = s.right.count then (s, { state := .kWaiting })
  else
    match wheelIncrement s.left left limits, wheelIncrement s.right right limits with
    | some dl, some dr =>
      -- the right motor is mirrored
      let dr := -dr
      (anchor left right, {
        state := .kIntegrated
        distance := limits.radius * kTwoPi * (dl + dr) / 2
        heading := limits.radius * kTwoPi * (dr - dl) / limits.separation })
    | _, _ => (anchor left right, { state := .kReset, reason := .kAmbiguous })

end Integrator

/-! ## The pose -/

structure Pose2D where
  x : Dbl := 0
  y : Dbl := 0
  theta : Dbl := 0
  deriving DecidableEq

/-- `std::atan2`, as far as finite arguments go. -/
def atan2 [Libm] : Dbl → Dbl → Dbl
  | .fin y, .fin x => .fin (Libm.atan2 y x)
  | _, _ => .nan

def normalizeAngle [Libm] (angle : Dbl) : Dbl :=
  atan2 (Dbl.lift Libm.sin angle) (Dbl.lift Libm.cos angle)

/-- `odometry::integrate`: along an arc, or straight on. -/
def integrateArc [Libm] (pose : Pose2D) (linear angular dtSec : Dbl) : Pose2D :=
  let dtheta := angular * dtSec
  if angular.abs < .fin (1 / 1000000000) then
    let dist := linear * dtSec
    { x := pose.x + dist * Dbl.lift Libm.cos pose.theta
      y := pose.y + dist * Dbl.lift Libm.sin pose.theta
      theta := normalizeAngle (pose.theta + dtheta) }
  else
    let radius := linear / angular
    let thetaNew := pose.theta + dtheta
    { x := pose.x + radius * (Dbl.lift Libm.sin thetaNew - Dbl.lift Libm.sin pose.theta)
      y := pose.y - radius * (Dbl.lift Libm.cos thetaNew - Dbl.lift Libm.cos pose.theta)
      theta := normalizeAngle thetaNew }

def integrate [Libm] (pose : Pose2D) (result : Result) : Pose2D :=
  if result.state = .kIntegrated then integrateArc pose result.distance result.heading 1 else pose

/-- The tracker and the pose of the drive component. -/
structure Odometry where
  integrator : Integrator := {}
  pose : Pose2D := {}
  deriving DecidableEq

inductive Event where
  | update (left right : Sample) (now : Dbl) (limits : Limits)
  | reset

/-- One turn of `integrateOdometry`, or `resetOdometryAnchor`. -/
def odometryStep [Libm] (s : Odometry) : Event → Odometry × Option Result
  | .update left right now limits =>
    let (integrator, result) := s.integrator.update left right now limits
    (⟨integrator, integrate s.pose result⟩, some result)
  | .reset => ({ s with integrator := s.integrator.reset }, none)

end WheelPosition

end Questix.MotorControl
