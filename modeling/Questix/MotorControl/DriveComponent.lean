/-
Questix.MotorControl.DriveComponent — the drive's node as a machine:
`drive_component_control.cpp`.

The node takes one callback at a time: a twist, an emergency-stop message, a
motion-permission message or the control tick; `external` is anything else
that happens to the motors between two callbacks (a parameter change, a
reply that reports a fault). What a step lets out are its observations and
effects in the order they happen: the gate as evaluated, the health as read,
the verdict on a twist, the action of a tick, and what was sent to the
wheels.

Two clocks are read, the node's ROS clock and the steady clock. `now` is the
first ROS reading of a callback and `stamp` the second one a twist makes, for
the age of its target; the steady readings of one callback are merged into
`steadyNow`. The control core is a parameter like the motor library: the
type `C` of its states, with what the tick calls on it.

A run is within one activation, which starts with `resetCommandState`
(`on_activate`) and in which parameters do not change. Left out are odometry,
the status topics and the diagnostic sample, which read this state and feed
nothing back, and the state kept only for log lines (`twist_log_block_`, the
`*_warned_` flags, the reported guard trips).
-/
import Questix.Lib.Trace
import Questix.CommandArbiter.ArbiterNodes
import Questix.MotorControl.ActuationGate
import Questix.MotorControl.DriveRearm
import Questix.MotorControl.DifferentialDrive

namespace Questix.MotorControl

open Questix.Lib Questix.Safety
open Questix.CommandArbiter (Twist)

/-! ## The control core -/

/-- `control_core::WheelFeedback` -/
structure WheelFeedback where
  valid : Bool := false
  leftRpm : Int := 0
  rightRpm : Int := 0

/-- What is sent of a `control_core::Output`: a stop, or the wheels' RPM. -/
structure CoreOutput where
  stop : Bool := true
  leftRpm : Int := 0
  rightRpm : Int := 0

/-- What the tick calls on its control core. -/
class Core (C : Type) where
  reset : C → C
  step : C → Dbl → Dbl → ℚ → WheelFeedback → C × CoreOutput

/-! ## The node -/

structure DriveComponent (M C : Type) where
  active : Bool := true
  motorInitialized : Bool
  diffDrive : Option (DifferentialDrive M)
  controlCore : Option C
  cmdTimeoutSec : Dbl := 1
  controlRate : Dbl := 50
  rearmNeutralLinear : Dbl := 0
  rearmNeutralAngular : Dbl := 0
  velocityRunFeedbackMaxAgeSec : Dbl := .fin (1 / 10)
  estopMonitor : EmergencyStopMonitor
  permissionMonitor : PermissionMonitor
  stopFault : Bool := false
  lastStopAttempt : ℚ := 0
  lastBlock : Block := .kEstopUnknown
  rearm : Rearm := {}
  pendingCmdTimeoutStop : Bool := false
  hasTarget : Bool := false
  targetLinear : Dbl := 0
  targetAngular : Dbl := 0
  lastCmdTime : ℚ := 0

/-- What a callback of the node sees and does. A safety stop that finds no
motors sends nothing. -/
inductive Effect where
  | gate (block : Block)
  | health (healthy : Bool)
  | verdict (decision : Decision)
  | action (action : TickAction)
  | safetyStop (sent : Option Sent)
  | stopRetry (sent : Sent)
  | commandStop (sent : Sent)
  | drive (leftRpm rightRpm : Int) (sent : Sent)
  | poll
  deriving DecidableEq

/-- What reaches the node. -/
inductive DriveEvent (M : Type) where
  | twist (msg : Twist) (now stamp steadyNow : ℚ)
  | emergencyStop (active : Bool) (steadyNow : ℚ)
  | motionPermission (driveAllowed : Bool) (steadyNow : ℚ)
  | tick (now steadyNow : ℚ)
  | external (motorLib : M)

namespace DriveEvent

variable {M : Type}

/-- The readings of the ROS clock during an event, in order. -/
def rosReadings : DriveEvent M → List ℚ
  | .twist _ now stamp _ => [now, stamp]
  | .tick now _ => [now]
  | _ => []

/-- The reading of the steady clock during an event. -/
def steadyReadings : DriveEvent M → List ℚ
  | .twist _ _ _ steadyNow => [steadyNow]
  | .emergencyStop _ steadyNow => [steadyNow]
  | .motionPermission _ steadyNow => [steadyNow]
  | .tick _ steadyNow => [steadyNow]
  | .external _ => []

end DriveEvent

/-- Neither clock goes back during a run. -/
structure Timely {M : Type} (es : List (DriveEvent M)) : Prop where
  ros : (es.flatMap DriveEvent.rosReadings).Pairwise (· ≤ ·)
  steady : (es.flatMap DriveEvent.steadyReadings).Pairwise (· ≤ ·)

/-- `kStopRetryPeriodSec` -/
def kStopRetryPeriodSec : Dbl := .fin (1 / 2)

/-- `kIdleFeedbackMaxAgeSec` -/
def kIdleFeedbackMaxAgeSec : ℚ := 2 / 10

namespace DriveComponent

variable {M C : Type} [MotorLibrary M] [Core C]

/-! ## Reading the state -/

def gateInputs (s : DriveComponent M C) (steadyNow : ℚ) : ActuationGate.Inputs where
  permission := s.permissionMonitor.inputs steadyNow
  estop := s.estopMonitor.inputs steadyNow
  stopFault := s.stopFault

def gate (s : DriveComponent M C) (steadyNow : ℚ) : Block :=
  ActuationGate.evaluate (s.gateInputs steadyNow)

/-- The tick's `motor_ready`. -/
def motorReady (s : DriveComponent M C) : Bool :=
  s.motorInitialized && s.diffDrive.isSome && s.controlCore.isSome

/-- `motor_initialized_ && diff_drive_ && diff_drive_->isHealthy()` -/
def motorHealthy (s : DriveComponent M C) : Bool :=
  s.motorInitialized &&
    match s.diffDrive with
    | some d => d.isHealthy
    | none => false

/-- Both wheels' measured RPM, when both are known and recent. -/
def wheelFeedback (s : DriveComponent M C) (d : DifferentialDrive M) : WheelFeedback :=
  match MotorLibrary.getMotorFeedbackData d.motorLib d.leftMotorId,
      MotorLibrary.getMotorFeedbackData d.motorLib d.rightMotorId with
  | some left, some right =>
    if left.hasFeedback && right.hasFeedback &&
        decide (.fin left.feedbackAgeSec ≤ s.velocityRunFeedbackMaxAgeSec) &&
        decide (.fin right.feedbackAgeSec ≤ s.velocityRunFeedbackMaxAgeSec) then
      { valid := true, leftRpm := left.velocityRpmRaw, rightRpm := right.velocityRpmRaw }
    else {}
  | _, _ => {}

/-! ## Stopping -/

/-- Disarm: the tick sends no drive command until the next twist is taken, and
the control core restarts from zero. -/
def resetCommandState (s : DriveComponent M C) : DriveComponent M C :=
  { s with
    rearm := s.rearm.reset
    pendingCmdTimeoutStop := false
    hasTarget := false
    targetLinear := 0
    targetAngular := 0
    controlCore := s.controlCore.map Core.reset }

/-- `diff_drive_->stopNow()`, with the time of the attempt recorded. -/
def attemptStop (s : DriveComponent M C) (d : DifferentialDrive M) (steadyNow : ℚ) :
    DriveComponent M C × Sent :=
  let r := d.stopNow
  ({ s with lastStopAttempt := steadyNow, diffDrive := some r.1 }, r.2)

/-- Drop the target, then send zero to both wheels; a zero that could not be
sent is a stop fault. -/
def safetyStop (s : DriveComponent M C) (steadyNow : ℚ) : DriveComponent M C × List Effect :=
  let s := s.resetCommandState
  match s.motorInitialized, s.diffDrive with
  | true, some d =>
    let r := s.attemptStop d steadyNow
    (if r.2.both then r.1 else { r.1 with stopFault := true }, [.safetyStop (some r.2)])
  | _, _ => (s, [.safetyStop none])

/-- Evaluate the gate, and stop if it closed (or is closed with a command
still armed) unless this callback has just stopped. -/
def applyGate (s : DriveComponent M C) (steadyNow : ℚ) (stoppedNow : Bool) :
    DriveComponent M C × Block × List Effect :=
  let block := s.gate steadyNow
  let action := ActuationGate.decideGateAction s.lastBlock block s.hasTarget
  let s := { s with lastBlock := block }
  if action = .kSafetyStop && !stoppedNow then
    let r := s.safetyStop steadyNow
    (r.1, block, .gate block :: r.2)
  else (s, block, [.gate block])

/-! ## The messages -/

/-- The command becomes the target of the control tick. -/
def setTarget (s : DriveComponent M C) (linear angular : Dbl) (stamp : ℚ) : DriveComponent M C :=
  { s with targetLinear := linear, targetAngular := angular, lastCmdTime := stamp,
           hasTarget := true }

def twistCallback (s : DriveComponent M C) (msg : Twist) (now stamp steadyNow : ℚ) :
    DriveComponent M C × List Effect :=
  if !s.active then (s, [])
  else
    let block := s.gate steadyNow
    if block ≠ .kNone then
      -- also latch a closed gate observed before its control tick
      ({ s with rearm := s.rearm.reset }, [.gate block])
    else if s.pendingCmdTimeoutStop then
      (s, [.gate block])  -- cannot cancel a stop owed by a late callback
    else
      let healthy := s.motorHealthy
      let r := s.rearm.command msg.linear msg.angular now s.cmdTimeoutSec (!healthy)
        s.rearmNeutralLinear s.rearmNeutralAngular
      let s := { s with rearm := r.1 }
      let out := [.gate block, .health healthy, .verdict r.2]
      match r.2 with
      | .kTimeout => ({ s with pendingCmdTimeoutStop := true }, out)
      | .kNeedsNeutral => (s, out)
      | .kInvalid => (s, out)
      | .kInhibited => (s, out)
      | .kNeutral => (s.setTarget 0 0 stamp, out)
      | .kAccept => (s.setTarget msg.linear msg.angular stamp, out)

def onEmergencyStop (s : DriveComponent M C) (active : Bool) (steadyNow : ℚ) :
    DriveComponent M C × List Effect :=
  let received := s.estopMonitor.receive active steadyNow
  let s := { s with estopMonitor := received.1 }
  let motorReady := s.motorInitialized && s.diffDrive.isSome
  if decideEstopAction received.2.wasActive active motorReady = .kStopNow then
    let r := s.safetyStop steadyNow
    let g := r.1.applyGate steadyNow true
    (g.1, r.2 ++ g.2.2)
  else
    let g := s.applyGate steadyNow false
    (g.1, g.2.2)

def onMotionPermission (s : DriveComponent M C) (driveAllowed : Bool) (steadyNow : ℚ) :
    DriveComponent M C × List Effect :=
  let received := s.permissionMonitor.receive driveAllowed steadyNow
  let g := { s with permissionMonitor := received.1 }.applyGate steadyNow false
  (g.1, g.2.2)

/-! ## The control tick -/

/-- A stop that could not be sent is sent again at a bounded rate, until both
wheels took it. -/
def retryStop (s : DriveComponent M C) (steadyNow : ℚ) : DriveComponent M C × List Effect :=
  match s.diffDrive with
  | some d =>
    if s.stopFault && s.motorReady && ActuationGate.shouldRetryStop s.stopFault
        (.fin (steadyNow - s.lastStopAttempt)) kStopRetryPeriodSec then
      let r := s.attemptStop d steadyNow
      (if r.2.both then { r.1 with stopFault := false } else r.1, [.stopRetry r.2])
    else (s, [])
  | none => (s, [])

/-- An idle tick keeps the feedback fresh, unless the E-stop is pressed or a
stop is being retried. -/
def idlePoll (s : DriveComponent M C) (block : Block) : DriveComponent M C × List Effect :=
  match s.diffDrive with
  | some d =>
    if s.motorReady && block ≠ .kEstopActive && block ≠ .kStopFault then
      let r := d.bothWheels
        (fun lib id => MotorLibrary.refreshMotorFeedback lib id kIdleFeedbackMaxAgeSec)
        (fun lib id => MotorLibrary.refreshMotorFeedback lib id kIdleFeedbackMaxAgeSec)
      ({ s with diffDrive := some r.1 }, [.poll])
    else (s, [])
  | none => (s, [])

/-- One step of the control core, and its output to the wheels. -/
def driveWheels (s : DriveComponent M C) : DriveComponent M C × List Effect :=
  match s.diffDrive, s.controlCore with
  | some d, some core =>
    let out := Core.step core s.targetLinear s.targetAngular (tickDtSec s.controlRate)
      (s.wheelFeedback d)
    let s := { s with controlCore := some out.1 }
    if out.2.stop then
      let r := d.commandStop
      ({ s with diffDrive := some r.1 }, [.commandStop r.2])
    else
      let r := d.setWheelRpm out.2.leftRpm out.2.rightRpm
      ({ s with diffDrive := some r.1 }, [.drive out.2.leftRpm out.2.rightRpm r.2])
  | _, _ => (s, [])

/-- The tick's action, with the gate evaluated and no stop owed. -/
def actTick (s : DriveComponent M C) (block : Block) (now steadyNow : ℚ) :
    DriveComponent M C × List Effect :=
  let elapsed := if s.hasTarget then now - s.lastCmdTime else 0
  let healthy := s.motorReady && s.motorHealthy
  -- a zero received while faulty cannot arm its recovery
  let s := if healthy then s else { s with rearm := s.rearm.reset }
  let action := decideTickAction s.hasTarget s.motorReady (block ≠ .kNone) healthy (.fin elapsed)
    s.cmdTimeoutSec
  let r :=
    match action with
    | .kIdle => s.idlePoll block
    | .kTimeoutStop => s.safetyStop steadyNow
    | .kFaultStop => s.safetyStop steadyNow
    | .kDrive => s.driveWheels
  (r.1, .health healthy :: .action action :: r.2)

def runControlTick (s : DriveComponent M C) (now steadyNow : ℚ) :
    DriveComponent M C × List Effect :=
  let retried := s.retryStop steadyNow
  let gated := retried.1.applyGate steadyNow false
  let acted :=
    if gated.1.pendingCmdTimeoutStop then
      let r := gated.1.safetyStop steadyNow
      (r.1, .action .kTimeoutStop :: r.2)
    else gated.1.actTick gated.2.1 now steadyNow
  (acted.1, retried.2 ++ gated.2.2 ++ acted.2)

def step (s : DriveComponent M C) : DriveEvent M → DriveComponent M C × List Effect
  | .twist msg now stamp steadyNow => s.twistCallback msg now stamp steadyNow
  | .emergencyStop active steadyNow => s.onEmergencyStop active steadyNow
  | .motionPermission driveAllowed steadyNow => s.onMotionPermission driveAllowed steadyNow
  | .tick now steadyNow => s.runControlTick now steadyNow
  | .external motorLib =>
    ({ s with diffDrive := s.diffDrive.map fun d => { d with motorLib := motorLib } }, [])

end DriveComponent

end Questix.MotorControl
