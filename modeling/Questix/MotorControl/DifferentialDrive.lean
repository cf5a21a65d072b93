/-
Questix.MotorControl.DifferentialDrive — two wheels as one drive:
`differential_drive.cpp`.

The motor library is a parameter: a type `M` of its states and the calls the
drive makes on it (`MotorLibrary`). Its state includes whatever the library
is wired to, so that a call may succeed or fail in any way; what is proved
over every `M` holds for every outcome of every send. The `DdtMotorLib` of
this repository is one such library.

The drive holds the library it was built with; its pointer is never null, so
the source's null checks are gone. Of the drive's members only the ones these
functions use are here: `setVelocity`, the path without the host's control
core, is in `VelocityDrive`, and the velocities it reports are left out.
-/
import Questix.Lib.Dbl
import Questix.MotorControl.DdtCurrentPi

namespace Questix.MotorControl

open Questix.Lib

/-! ## The motor library -/

/-- What `getMotorStatus` fills in. -/
structure MotorStatus where
  velocityRpm : Int
  temperature : UInt8
  faultCode : UInt8

/-- What the drive reads of `DdtMotorLib::MotorFeedbackData`. -/
structure WheelFeedbackData where
  velocityRpmRaw : Int
  hasFeedback : Bool
  feedbackAgeSec : ℚ

/-- The calls a drive makes on its motor library. The `Bool` of a command is
whether it was sent; a reading is `none` where the call returns false. -/
class MotorLibrary (M : Type) where
  setMotorVelocity : M → Int → Int → M × Bool
  stopMotor : M → Int → M × Bool
  stopMotorNow : M → Int → M × Bool
  refreshMotorFeedback : M → Int → ℚ → M × Bool
  getMotorStatus : M → Int → Option MotorStatus
  getMotorFeedbackData : M → Int → Option WheelFeedbackData
  currentGuardTrip : M → Int → GuardTrip

/-! ## The drive -/

structure DifferentialDrive (M : Type) where
  motorLib : M
  leftMotorId : Int
  rightMotorId : Int
  stopMode : Bool := true

/-- Which wheels a command was sent to. -/
structure Sent where
  left : Bool
  right : Bool
  deriving DecidableEq, Repr

/-- The `bool` the source returns: sent to both wheels. -/
def Sent.both (s : Sent) : Bool := s.left && s.right

namespace DifferentialDrive

variable {M : Type} [MotorLibrary M]

/-- One request to each wheel: the left one, then the right one, which is tried
even if the left one failed. -/
def bothWheels (d : DifferentialDrive M) (left right : M → Int → M × Bool) :
    DifferentialDrive M × Sent :=
  let l := left d.motorLib d.leftMotorId
  let r := right l.1 d.rightMotorId
  ({ d with motorLib := r.1 }, { left := l.2, right := r.2 })

def setWheelRpm (d : DifferentialDrive M) (leftRpm rightRpm : Int) :
    DifferentialDrive M × Sent :=
  { d with stopMode := false }.bothWheels
    (fun lib id => MotorLibrary.setMotorVelocity lib id leftRpm)
    (fun lib id => MotorLibrary.setMotorVelocity lib id rightRpm)

def commandStop (d : DifferentialDrive M) : DifferentialDrive M × Sent :=
  { d with stopMode := true }.bothWheels MotorLibrary.stopMotor MotorLibrary.stopMotor

def stopNow (d : DifferentialDrive M) : DifferentialDrive M × Sent :=
  { d with stopMode := true }.bothWheels MotorLibrary.stopMotorNow MotorLibrary.stopMotorNow

/-- The library answers for a motor, which reports no fault. -/
def motorOk (d : DifferentialDrive M) (motorId : Int) : Bool :=
  match MotorLibrary.getMotorStatus d.motorLib motorId with
  | some status => decide (status.faultCode = 0)
  | none => false

/-- No current-mode guard has tripped on a motor. -/
def guardOk (d : DifferentialDrive M) (motorId : Int) : Bool :=
  decide (MotorLibrary.currentGuardTrip d.motorLib motorId = .kNone)

def isHealthy (d : DifferentialDrive M) : Bool :=
  d.motorOk d.leftMotorId && d.motorOk d.rightMotorId &&
    (d.guardOk d.leftMotorId && d.guardOk d.rightMotorId)

end DifferentialDrive

end Questix.MotorControl
