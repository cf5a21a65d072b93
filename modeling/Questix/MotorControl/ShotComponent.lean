/-
Questix.MotorControl.ShotComponent — the launcher's node (tilt and trigger
servo): `shot_component.cpp`, `shot_component_control.cpp` and
`shot_component_lifecycle.cpp`, with what they use of `servo_control.cpp`.

All callbacks of the node are in one mutually exclusive group, so the node
takes one event at a time: a message, a timer that fires, an operator's
request for a lifecycle transition. What it lets out are its transactions on
the servo bus, in their order.

`Surroundings` is what the surroundings answer during one callback: the ROS
clock, the parameters as they are now, whether the port opens and the tilt
servo answers, what becomes of each bus transaction, and how each transition
goes. No callback makes two transactions for one `Move` or asks twice for one
transition, so an answer for each is enough. A callback takes no time here:
its readings of the steady clock are one.

Left out are the log lines, `/shot/status` with the counters it alone reads,
and the periods of the timers: an armed timer may fire at any time.
-/
import Questix.Lib.Act
import Questix.MotorControl.ActuationGate
import Questix.MotorControl.LauncherEvents
import Questix.MotorControl.ShotAutoStart

namespace Questix.MotorControl

open Questix.Lib Questix.Safety ShotAutoStart ShotAngle
open Questix.CommandArbiter (InputEvents)

/-! ## The servo bus -/

/-- What a goal position is for; `label` is the one of `moveTiltTo`. -/
inductive TiltLabel where
  | up
  | down
  | toTarget
  deriving DecidableEq, Repr

inductive Move where
  | fire
  | home
  | tilt (label : TiltLabel)
  deriving DecidableEq, Repr

/-- What becomes of a transaction: the command does not get onto the bus
(`kWriteFailed`), it does and its reply is lost or wrong (`kNoResponse` and
the others), or the servo answers (`kOk`). -/
inductive TransactionResult where
  | notSent
  | unanswered
  | answered
  deriving DecidableEq, Repr

/-- A goal position for a servo, handed to the bus. -/
structure BusTransaction where
  move : Move
  servoId : ℤ
  position : ℤ
  result : TransactionResult
  atSec : ℚ
  deriving DecidableEq

def BusTransaction.sent (w : BusTransaction) : Bool := decide (w.result ≠ .notSent)

/-- `FeetechServoController`: its port is open. -/
structure FeetechServoController where
  connected : Bool := false
  deriving DecidableEq

/-! ## Timers -/

/-- A timer pointer: `null`, a timer that is cancelled, or one that runs. -/
inductive Timer where
  | null
  | canceled
  | armed
  deriving DecidableEq, Repr

namespace Timer

def cancel : Timer → Timer
  | null => null
  | _ => canceled

/-- `reset()` of a timer, which starts it again when it is cancelled. -/
def reset : Timer → Timer
  | null => null
  | _ => armed

@[simp] theorem cancel_eq_armed (t : Timer) : t.cancel ≠ armed := by cases t <;> nofun
@[simp] theorem cancel_eq_null (t : Timer) : t.cancel = null ↔ t = null := by
  cases t <;> simp [cancel]
@[simp] theorem reset_eq_null (t : Timer) : t.reset = null ↔ t = null := by
  cases t <;> simp [reset]
@[simp] theorem reset_cancel (t : Timer) : t.cancel.reset = t.reset := by cases t <;> rfl
@[simp] theorem reset_reset (t : Timer) : t.reset.reset = t.reset := by cases t <;> rfl
@[simp] theorem reset_eq_armed (t : Timer) : t.reset = armed ↔ t ≠ null := by
  cases t <;> simp [reset]

end Timer

/-! ## Lifecycle transitions -/

inductive Transition where
  | configure
  | activate
  | deactivate
  | cleanup
  | shutdown
  deriving DecidableEq, Repr

/-- The states a transition starts from. -/
def Transition.startsFrom : Transition → LifecycleState → Bool
  | .configure, .unconfigured => true
  | .activate, .inactive => true
  | .deactivate, .active => true
  | .cleanup, .inactive => true
  | .shutdown, .unconfigured => true
  | .shutdown, .inactive => true
  | .shutdown, .active => true
  | _, _ => false

namespace Transition

variable {state : LifecycleState}

@[simp] theorem startsFrom_configure :
    startsFrom .configure state = true ↔ state = .unconfigured := by
  cases state <;> simp [startsFrom]
@[simp] theorem startsFrom_activate : startsFrom .activate state = true ↔ state = .inactive := by
  cases state <;> simp [startsFrom]
@[simp] theorem startsFrom_deactivate :
    startsFrom .deactivate state = true ↔ state = .active := by
  cases state <;> simp [startsFrom]
@[simp] theorem startsFrom_cleanup : startsFrom .cleanup state = true ↔ state = .inactive := by
  cases state <;> simp [startsFrom]

end Transition

/-- The state it ends in when its callback succeeds. -/
def Transition.goal : Transition → LifecycleState
  | .configure => .inactive
  | .activate => .active
  | .deactivate => .inactive
  | .cleanup => .unconfigured
  | .shutdown => .finalized

/-- How a transition goes: it fails without its callback, its callback runs
and its result counts, or an exception is raised, before the callback has done
anything or after. -/
inductive Outcome where
  | refused
  | ran
  | raised (bodyRan : Bool)
  deriving DecidableEq, Repr

/-! ## The node -/

/-- The parameters `on_configure` reads. -/
structure ShotParameters where
  tiltServoId : ℤ := 1
  triggerServoId : ℤ := 3
  tiltStepAngle : Dbl := 5
  tiltMinAngle : Dbl := 0
  tiltMaxAngle : Dbl := 70
  fireAngle : Dbl := 130
  homeAngle : Dbl := 100
  commandRateLimitMs : ℤ := 50

/-- The parameters the constructor reads. -/
structure ShotConfig where
  autoStart : Bool := true
  startupWindowSec : Dbl := 5
  minFireIntervalSec : Dbl := 0
  emergencyStopTopic : String := "/emergency_stop"
  estop : EstopSettings := {}
  motionPermissionTopic : String := "/motion_permission"
  permission : PermissionSettings := {}

structure Surroundings where
  rosNow : ℤ := 0  -- nanoseconds
  parameters : ShotParameters := {}
  portOpens : Bool := true
  presentPosition : Option ℤ := some 2048
  transaction : Move → TransactionResult := fun _ => .answered
  outcome : Transition → Outcome := fun _ => .ran

structure ShotComponent where
  -- the lifecycle state and the steady clock (nanoseconds)
  state : LifecycleState := .unconfigured
  steadyNs : ℕ := 0
  autoStart : Bool
  startupWindowSec : Dbl
  minFireIntervalSec : Dbl
  parameters : ShotParameters := {}
  servoController : Option FeetechServoController := none
  estopMonitor : EmergencyStopMonitor
  estopSubscription : Bool
  permissionMonitor : PermissionMonitor
  permissionSubscription : Bool
  commandSubscription : Bool := true
  estopTimedOut : Bool := false
  permissionWasAllowed : Bool := false
  runtimeFault : Bool := false
  teardownPending : Bool := false
  startupEpisode : StartupEpisode := {}
  isShooting : Bool := false
  lastFireSec : Dbl := .ninf
  currentTiltPosition : ℤ := 2048
  currentTiltAngle : Dbl := 0
  lastCommandTime : ℤ := 0  -- nanoseconds of the ROS clock
  launcherEvents : LauncherEvents := {}
  pendingTilt : Bool := false
  pendingTiltDeg : Dbl := 0
  multipleCommandPublishers : Bool := false
  autoStartTimer : Timer
  startupTimer : Timer
  emergencyStopTimeoutTimer : Timer
  permissionTimer : Timer := .armed
  fireTimer : Bool := false  -- exists, and then it runs

abbrev Shot := Act ShotComponent BusTransaction

namespace ShotComponent

/-- `ShotComponent::ShotComponent` -/
def create (config : ShotConfig) (parameters : ShotParameters) : ShotComponent where
  autoStart := config.autoStart
  startupWindowSec :=
    Dbl.clamp (normalizePositivePeriod config.startupWindowSec 5) (.fin (1 / 2)) 60
  minFireIntervalSec :=
    if config.minFireIntervalSec.isfinite && decide (0 ≤ config.minFireIntervalSec) then
      config.minFireIntervalSec
    else 0
  parameters :=
    { tiltMinAngle := parameters.tiltMinAngle, tiltMaxAngle := parameters.tiltMaxAngle }
  estopMonitor := EmergencyStopMonitor.create config.estop
  estopSubscription := decide (config.emergencyStopTopic ≠ "")
  permissionMonitor := PermissionMonitor.create config.permission
  permissionSubscription := decide (config.motionPermissionTopic ≠ "")
  autoStartTimer := if config.autoStart then .armed else .null
  startupTimer := if config.autoStart then .canceled else .null
  emergencyStopTimeoutTimer :=
    if config.autoStart && decide (config.emergencyStopTopic ≠ "") &&
        decide (0 < normalizeEstopTimeout config.estop.timeoutSec) then .armed
    else .null

/-! ## What the node reads -/

def steadyNowSec (s : ShotComponent) : ℚ := s.steadyNs / 1000000000

/-- The servo controller exists and is connected. -/
def isConnected (s : ShotComponent) : Bool :=
  s.servoController.any FeetechServoController.connected

/-- Pressed, silent or (if required) never heard; or torn down for silence. -/
def estopBlocks (s : ShotComponent) : Bool :=
  s.estopTimedOut ||
    decide (evaluateEstop (s.estopMonitor.inputs s.steadyNowSec) ≠ .kReleased)

def permissionBlock (s : ShotComponent) : Block :=
  ActuationGate.evaluatePermission (s.permissionMonitor.inputs s.steadyNowSec)

def readyToMove (s : ShotComponent) : Bool :=
  decide (s.state = .active) && s.isConnected && decide (s.permissionBlock = .kNone) &&
    !s.estopBlocks

/-- Neither configure nor activate is tried. -/
def hold (s : ShotComponent) : Bool := s.estopBlocks || decide (s.permissionBlock ≠ .kNone)

def canSendCommand (s : ShotComponent) (io : Surroundings) : Bool :=
  decide (s.parameters.commandRateLimitMs ≤ (io.rosNow - s.lastCommandTime).tdiv 1000000)

/-! ## The startup window -/

def requestStartup : Shot Unit :=
  modify fun s =>
    if s.startupTimer = .null ∨ s.autoStartTimer ≠ .armed then s
    else
      { s with
        startupEpisode := beginStartupEpisode s.steadyNowSec s.startupWindowSec
        autoStartTimer := s.autoStartTimer.reset
        startupTimer := s.startupTimer.reset }

def endStartup : Shot Unit :=
  modify fun s => { s with startupEpisode := {}, startupTimer := s.startupTimer.cancel }

def cancelAutoStart : Shot Unit :=
  modify fun s => { s with autoStartTimer := s.autoStartTimer.cancel }

def stopAutoStartTimers : Shot Unit :=
  modify fun s =>
    { s with
      autoStartTimer := s.autoStartTimer.cancel
      emergencyStopTimeoutTimer := s.emergencyStopTimeoutTimer.cancel }

/-- The recovery from a failed transaction is left to the auto-start timer. -/
def triggerAutoRecovery : Shot Unit :=
  modify fun s =>
    if s.autoStart = true ∧ s.state = .active then
      { s with runtimeFault := true, autoStartTimer := s.autoStartTimer.reset }
    else s

/-! ## The servos -/

/-- `FeetechServoController::setPosition`, of a controller that may be
missing; false for a command that reached the servo without a reply. -/
def setPosition (io : Surroundings) (move : Move) (servoId position : ℤ) : Shot Bool := do
  let s ← get
  if !s.isConnected then return false
  Act.emit ⟨move, servoId, position, io.transaction move, s.steadyNowSec⟩
  return decide (io.transaction move = .answered)

/-- The trigger servo to its home position. -/
def returnHome (io : Surroundings) : Shot Bool := do
  let s ← get
  setPosition io .home s.parameters.triggerServoId
    (angleToServoPosition s.parameters.homeAngle)

def disconnectServo : Shot Unit := modify fun s => { s with servoController := none }

def executeShotSequence (io : Surroundings) : Shot Unit := do
  let s ← get
  if s.isShooting then return
  let ok ← setPosition io .fire s.parameters.triggerServoId
    (angleToServoPosition s.parameters.fireAngle)
  if !ok then
    triggerAutoRecovery
  else
    modify fun s =>
      { s with isShooting := true, lastFireSec := .fin s.steadyNowSec, fireTimer := true }

def fireTimerCallback (io : Surroundings) : Shot Unit := do
  modify fun s => { s with fireTimer := false }
  let ok ← returnHome io
  if !ok then triggerAutoRecovery
  modify fun s => { s with isShooting := false }

def cancelShotSequence (io : Surroundings) : Shot Unit := do
  modify fun s => { s with fireTimer := false }
  if (← get).isShooting then
    let _ ← returnHome io  -- best effort: a failure is only logged
    modify fun s => { s with isShooting := false }

def moveTiltTo (io : Surroundings) (angleDeg : Dbl) (label : TiltLabel) : Shot Unit := do
  let s ← get
  if s.servoController = none then return
  if !s.canSendCommand io then return
  let angle := clampAngle angleDeg s.parameters.tiltMinAngle s.parameters.tiltMaxAngle
  modify fun s =>
    { s with currentTiltAngle := angle, currentTiltPosition := angleToServoPosition angle }
  let ok ← setPosition io (.tilt label) s.parameters.tiltServoId (angleToServoPosition angle)
  if ok then
    modify fun s => { s with lastCommandTime := io.rosNow }
  else
    triggerAutoRecovery

def applyPendingTilt (io : Surroundings) : Shot Unit := do
  let s ← get
  if !s.pendingTilt || !s.canSendCommand io then return  -- kept for the next command
  modify fun s => { s with pendingTilt := false }
  moveTiltTo io s.pendingTiltDeg .toTarget

/-! ## Launcher commands -/

def dropPendingTilt : Shot Unit := modify fun s => { s with pendingTilt := false }

/-- The shot of a message, unless one is still moving or the interval is not
over. -/
def fireIfAllowed (io : Surroundings) (fire : Bool) : Shot Unit := do
  let s ← get
  if !fire || s.isShooting then return
  if 0 < nextFireInSec s.steadyNowSec s.lastFireSec s.minFireIntervalSec then return
  executeShotSequence io

/-- The tilt steps of a message. -/
def moveTiltBy (io : Surroundings) (steps : Int32) : Shot Unit := do
  let s ← get
  if steps = 0 then return
  moveTiltTo io (s.currentTiltAngle + Dbl.scale steps.toInt s.parameters.tiltStepAngle)
    (if 0 < steps.toInt then .up else .down)

/-- The shot, the steps and the waiting target of a message. -/
def moveOnEvents (io : Surroundings) (events : InputEvents.Events) : Shot Unit := do
  fireIfAllowed io events.fire
  moveTiltBy io events.tiltSteps
  applyPendingTilt io

def commandCallback (io : Surroundings) (command : LauncherEvents.Command) : Shot Unit := do
  let s ← get
  let (launcherEvents, events) := s.launcherEvents.onCommand command s.steadyNowSec
  modify fun s => { s with launcherEvents := launcherEvents }
  if events.tiltTarget then
    modify fun s => { s with pendingTilt := true, pendingTiltDeg := events.tiltDeg }
  if (← get).multipleCommandPublishers || !(← get).readyToMove then
    dropPendingTilt
  else moveOnEvents io events

def checkCommandPublishers (publishers : ℕ) : Shot Unit :=
  modify fun s =>
    let multiple := decide (1 < publishers)
    if multiple = s.multipleCommandPublishers then s
    else if multiple then { s with multipleCommandPublishers := true, pendingTilt := false }
    else { s with multipleCommandPublishers := false, launcherEvents := s.launcherEvents.reset }

/-! ## The callbacks of the transitions -/

def onConfigure (io : Surroundings) : Shot Bool := do
  modify fun s => { s with parameters := io.parameters }
  if !io.portOpens then
    modify fun s => { s with servoController := none }
    return false
  modify fun s => { s with servoController := some { connected := true } }
  match io.presentPosition with
  | none =>
    disconnectServo
    return false
  | some position =>
    modify fun s =>
      { s with
        currentTiltPosition := position
        currentTiltAngle := clampAngle (servoPositionToAngle position)
          s.parameters.tiltMinAngle s.parameters.tiltMaxAngle }
    return true

def onActivate (io : Surroundings) : Shot Bool := do
  if !(← get).isConnected then return false
  let ok ← returnHome io
  if !ok then return false
  modify fun s =>
    { s with
      fireTimer := false, isShooting := false, pendingTilt := false, lastCommandTime := io.rosNow }
  cancelAutoStart
  endStartup
  return true

def onDeactivate (io : Surroundings) : Shot Bool := do
  dropPendingTilt
  cancelShotSequence io
  modify fun s => { s with runtimeFault := false, teardownPending := false }
  cancelAutoStart
  endStartup
  return true

def onCleanup : Shot Bool := do
  modify fun s => { s with pendingTilt := false, fireTimer := false, teardownPending := false }
  disconnectServo
  return true

def onShutdown : Shot Bool := do
  modify fun s =>
    { s with
      pendingTilt := false, fireTimer := false, runtimeFault := false, teardownPending := false }
  stopAutoStartTimers
  endStartup
  modify fun s =>
    { s with
      permissionTimer := s.permissionTimer.cancel
      permissionSubscription := false, estopSubscription := false, commandSubscription := false }
  disconnectServo
  return true

def onError : Shot Unit := do
  modify fun s => { s with pendingTilt := false, fireTimer := false, isShooting := false }
  disconnectServo
  modify fun s =>
    { s with
      runtimeFault := false, teardownPending := false
      autoStartTimer := if s.autoStart then s.autoStartTimer.reset else s.autoStartTimer }

def callback (io : Surroundings) : Transition → Shot Bool
  | .configure => onConfigure io
  | .activate => onActivate io
  | .deactivate => onDeactivate io
  | .cleanup => onCleanup
  | .shutdown => onShutdown

/-- Ask for a transition; a callback that fails leaves the state as it was,
one that raises goes through `on_error`. -/
def request (io : Surroundings) (t : Transition) : Shot LifecycleState := do
  let s ← get
  if !t.startsFrom s.state then return s.state
  match io.outcome t with
  | .refused => return s.state
  | .ran =>
    let ok ← callback io t
    if ok then modify fun s => { s with state := t.goal }
    return (← get).state
  | .raised bodyRan =>
    if bodyRan then
      let _ ← callback io t
    onError
    modify fun s => { s with state := .unconfigured }
    return (← get).state

/-! ## Safety teardown and auto start -/

def handleSafetyTeardownState (state : LifecycleState) : Shot Unit := do
  if (← get).autoStartTimer = .null then return
  match decideSafetyTeardownAction state with
  | .kResetRetry =>
    modify fun s =>
      { s with
        runtimeFault := false, teardownPending := false, autoStartTimer := s.autoStartTimer.reset }
  | .kRetryDeactivate =>
    modify fun s => { s with teardownPending := true, autoStartTimer := s.autoStartTimer.reset }
  | .kRetryCleanup =>
    modify fun s => { s with teardownPending := true, autoStartTimer := s.autoStartTimer.reset }
  | .kStopTimers =>
    modify fun s => { s with runtimeFault := false, teardownPending := false }
    stopAutoStartTimers

def transitionToUnconfiguredForAutoRecovery (io : Surroundings) : Shot Unit := do
  let s ← get
  if s.autoStartTimer = .null then return
  let state ← if s.state = .active then request io .deactivate else pure s.state
  let state ← if state = .inactive then request io .cleanup else pure state
  handleSafetyTeardownState state

/-- One step of the auto start at most: configure or activate. -/
def tryAutoStart (io : Surroundings) : Shot Unit := do
  let s ← get
  if s.autoStartTimer = .null then return
  match decideAutoStartAction s.state true (!s.hold) with
  | .kWaitEstopRelease => return
  | .kStopTimer => cancelAutoStart
  | .kConfigure =>
    let state ← request io .configure
    let s ← get
    match decideAutoStartAction state true (!s.hold) with
    | .kActivate => if !s.startupEpisode.active then requestStartup
    | .kStopTimer => cancelAutoStart
    | _ => return
  | .kActivate =>
    let state ← request io .activate
    let s ← get
    match decideAutoStartAction state true (!s.hold) with
    | .kStopTimer => cancelAutoStart
    | _ => return

def autoStartTimerCallback (io : Surroundings) : Shot Unit := do
  let s ← get
  if (s.runtimeFault || s.teardownPending) &&
      (decide (s.state = .active) || decide (s.state = .inactive)) then
    transitionToUnconfiguredForAutoRecovery io
  else
    if s.teardownPending && (decide (s.state = .unconfigured) || decide (s.state = .finalized)) then
      handleSafetyTeardownState s.state
      if s.state = .finalized then return
    tryAutoStart io

def startupTimerCallback (io : Surroundings) : Shot Unit := do
  let s ← get
  match decideStartupStep s.startupEpisode s.steadyNowSec with
  | .kIdle => endStartup
  | .kExpired => endStartup
  | .kAttempt =>
    if s.hold then endStartup
    else
      modify fun s =>
        { s with startupEpisode.attempts := s.startupEpisode.attempts + 1 }
      autoStartTimerCallback io
      let s ← get
      if s.state = .active ∨ s.autoStartTimer ≠ .armed then endStartup

/-! ## The emergency stop and the motion permission -/

def onEmergencyStop (io : Surroundings) (active : Bool) (change : EstopChange) : Shot Unit := do
  let s ← get
  let prev := s.estopTimedOut || change.wasActive
  modify fun s => { s with estopTimedOut := false }
  if !change.first && active == prev then return  -- no edge
  if active then
    endStartup
    if s.state = .active then
      transitionToUnconfiguredForAutoRecovery io
    else if s.state = .inactive ∧ s.autoStartTimer = .armed then
      transitionToUnconfiguredForAutoRecovery io
  else if s.autoStartTimer ≠ .armed then return  -- operated by hand
  else requestStartup

def receiveEmergencyStop (io : Surroundings) (active : Bool) : Shot Unit := do
  let s ← get
  let (monitor, change) := s.estopMonitor.receive active s.steadyNowSec
  modify fun s => { s with estopMonitor := monitor }
  onEmergencyStop io active change

def emergencyStopTimeoutCallback (io : Surroundings) : Shot Unit := do
  let s ← get
  let inputs := s.estopMonitor.inputs s.steadyNowSec
  if s.estopTimedOut || !decide (0 < inputs.timeoutSec) || !inputs.known then return
  if !isControllableSignalStale inputs.timeoutSec (!inputs.active) inputs.ageSec then return
  if shouldHoldManualLifecycle s.state (decide (s.autoStartTimer ≠ .armed)) then return
  modify fun s => { s with estopTimedOut := true }
  endStartup
  transitionToUnconfiguredForAutoRecovery io

def applyPermission (io : Surroundings) : Shot Unit := do
  let s ← get
  let allowed := decide (s.permissionBlock = .kNone)
  if allowed == s.permissionWasAllowed then return
  modify fun s => { s with permissionWasAllowed := allowed }
  if !allowed then
    dropPendingTilt
    cancelShotSequence io
    endStartup
  else if s.state ≠ .active then requestStartup

def receiveMotionPermission (io : Surroundings) (launcherAllowed : Bool) : Shot Unit := do
  let s ← get
  let (monitor, _) := s.permissionMonitor.receive launcherAllowed s.steadyNowSec
  modify fun s => { s with permissionMonitor := monitor }
  applyPermission io

/-! ## Runs -/

/-- A message, a timer, or an operator's request. -/
inductive Input where
  | command (command : LauncherEvents.Command)
  | emergencyStop (active : Bool)
  | motionPermission (launcherAllowed : Bool)
  | commandPublisherTimer (publishers : ℕ)
  | fireTimer
  | autoStartTimer
  | startupTimer
  | emergencyStopTimeoutTimer
  | permissionTimer
  | operator (transition : Transition)
  deriving DecidableEq

end ShotComponent

/-- An event of the node: what reaches it, how long after the event before,
and what the surroundings answer. -/
structure ShotEvent where
  elapsedNs : ℕ := 0
  input : ShotComponent.Input
  io : Surroundings := {}

namespace ShotComponent

/-- The callback of an input, if there is a subscription or a timer for it. -/
def dispatch (io : Surroundings) : Input → Shot Unit
  | .command command => do if (← get).commandSubscription then commandCallback io command
  | .emergencyStop active => do if (← get).estopSubscription then receiveEmergencyStop io active
  | .motionPermission launcherAllowed => do
    if (← get).permissionSubscription then receiveMotionPermission io launcherAllowed
  | .commandPublisherTimer publishers => checkCommandPublishers publishers
  | .fireTimer => do if (← get).fireTimer then fireTimerCallback io
  | .autoStartTimer => do if (← get).autoStartTimer = .armed then autoStartTimerCallback io
  | .startupTimer => do if (← get).startupTimer = .armed then startupTimerCallback io
  | .emergencyStopTimeoutTimer => do
    if (← get).emergencyStopTimeoutTimer = .armed then emergencyStopTimeoutCallback io
  | .permissionTimer => do if (← get).permissionTimer = .armed then applyPermission io
  | .operator transition => do let _ ← request io transition

/-- The node after some time without an event. -/
def elapse (s : ShotComponent) (ns : ℕ) : ShotComponent := { s with steadyNs := s.steadyNs + ns }

def run (e : ShotEvent) : Shot Unit := do
  modify fun s => s.elapse e.elapsedNs
  dispatch e.io e.input

abbrev step : ShotComponent → ShotEvent → ShotComponent × List BusTransaction := Act.machine run

end ShotComponent

end Questix.MotorControl
