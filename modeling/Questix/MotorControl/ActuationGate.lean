/-
Questix.MotorControl.ActuationGate — whether the drive may actuate at all:
`actuation_gate.hpp`.

The motion permission, then the emergency stop as the last gate, plus a stop
that could not be confirmed. When several close the gate, the strongest is
reported: a stop fault, then the emergency stop, then the permission.
-/
import Questix.Safety.Checks

namespace Questix.MotorControl

open Questix.Lib Questix.Safety

/-- Why actuation is refused. -/
inductive Block where
  | kNone
  | kStopFault
  | kEstopUnknown
  | kEstopActive
  | kEstopStale
  | kPermissionUnknown
  | kPermissionStale
  | kPermissionOff
  deriving DecidableEq, Repr

namespace ActuationGate

structure Inputs where
  permission : PermissionInputs := {}
  estop : EstopInputs := {}
  stopFault : Bool := false

/-- The shared E-stop state as this gate's reason. -/
def estopBlock : EstopState → Block
  | .kReleased => .kNone
  | .kUnknown => .kEstopUnknown
  | .kPressed => .kEstopActive
  | .kStale => .kEstopStale

/-- The shared permission state as this gate's reason. -/
def permissionBlock : PermissionState → Block
  | .kAllowed => .kNone
  | .kUnknown => .kPermissionUnknown
  | .kStale => .kPermissionStale
  | .kOff => .kPermissionOff

def evaluateEstop (i : EstopInputs) : Block := estopBlock (Safety.evaluateEstop i)

def evaluatePermission (i : PermissionInputs) : Block :=
  permissionBlock (Safety.evaluatePermission i)

def evaluate (i : Inputs) : Block :=
  if i.stopFault then .kStopFault
  else
    let block := evaluatePermission i.permission
    let estop := evaluateEstop i.estop
    if estop ≠ .kNone then estop else block

theorem evaluate_of_stopFault {i : Inputs} (h : i.stopFault = true) :
    evaluate i = .kStopFault := by
  simp [evaluate, h]

/-- What the control tick does about the gate. -/
inductive GateAction where
  | kNone
  | kSafetyStop
  deriving DecidableEq, Repr

/-- A closed gate stops on the edge into "closed", and again whenever a
command is still armed. -/
def decideGateAction (previous now : Block) (hasTarget : Bool) : GateAction :=
  if now = .kNone then .kNone
  else if previous = .kNone || hasTarget then .kSafetyStop
  else .kNone

@[simp] theorem decideGateAction_open (previous : Block) (hasTarget : Bool) :
    decideGateAction previous .kNone hasTarget = .kNone := rfl

theorem hasTarget_of_decideGateAction {previous now : Block} {hasTarget : Bool}
    (hclosed : now ≠ .kNone) (h : decideGateAction previous now hasTarget ≠ .kSafetyStop) :
    hasTarget = false := by
  cases hasTarget with
  | false => rfl
  | true => simp [decideGateAction, hclosed] at h

/-- Whether a stop that could not be sent may be retried now. -/
def shouldRetryStop (stopFault : Bool) (sinceLastRetrySec retryPeriodSec : Dbl) : Bool :=
  stopFault && sinceLastRetrySec.isfinite &&
    decide ((if 0 < retryPeriodSec then retryPeriodSec else .fin (1 / 2)) ≤ sinceLastRetrySec)

end ActuationGate

end Questix.MotorControl
