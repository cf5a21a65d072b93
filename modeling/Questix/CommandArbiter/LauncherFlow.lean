/-
Questix.CommandArbiter.LauncherFlow — the launcher's input selection in a
lesson: `InputEvents` and `LauncherFlow` of `launcher_flow.hpp`.

`InputEvents` reads the events out of one input stream (shots, tilt steps,
tilt targets), with a baseline after silence or an implausible jump.
`LauncherFlow` puts the controller's or the QUESTiX LAB run's events on the
output under the selector's verdict, with its own counters.

Message numbers are doubles and may be `nan`; the counters are `int32_t` and
`uint32_t`. Additions to the output's counters wrap around. The clock is
injected, as in the source.
-/
import Questix.CommandArbiter.SourceSelector

namespace Questix.CommandArbiter

open Questix.Lib

/-! ## The events of one input stream -/

structure InputEvents where
  timeoutSec : Dbl := 1
  have_ : Bool := false
  atSec : Dbl := 0
  fireSeq : UInt32 := 0
  tiltSteps : Int32 := 0
  lastTiltDeg : Dbl := .nan

namespace InputEvents

def kMaxStepsPerMessage : Int := 4

/-- `InputEvents::Events` -/
structure Events where
  baseline : Bool := false
  fire : Bool := false
  tiltSteps : Int32 := 0
  tiltTarget : Bool := false
  tiltDeg : Dbl := 0

def configure (s : InputEvents) (timeoutSec : Dbl) : InputEvents :=
  { s with timeoutSec := if timeoutSec.isfinite && decide (0 < timeoutSec) then timeoutSec else 1 }

/-- Silence, a `fire_seq` that went backwards or an implausible step change
only set the counters' baseline. -/
def countEvents (s : InputEvents) (silent : Bool) (tiltSteps : Int32) (fireSeq : UInt32) :
    Events :=
  let steps : Int := tiltSteps.toInt - s.tiltSteps.toInt
  if silent || decide (fireSeq < s.fireSeq) || decide (kMaxStepsPerMessage < steps) ||
      decide (steps < -kMaxStepsPerMessage) then
    { baseline := true }
  else
    { fire := decide (s.fireSeq < fireSeq), tiltSteps := Int32.ofInt steps }

/-- One message of the stream, and the events in it. -/
def onCommand (s : InputEvents) (tiltDeg : Dbl) (tiltSteps : Int32) (fireSeq : UInt32)
    (nowSec : ℚ) : InputEvents × Events :=
  let silent := !s.have_ || decide (s.timeoutSec < .fin nowSec - s.atSec)
  let lastTiltDeg := if silent then .nan else s.lastTiltDeg
  let events := s.countEvents silent tiltSteps fireSeq
  let events :=
    if tiltDeg.isfinite && (!lastTiltDeg.isfinite || !Dbl.eq tiltDeg lastTiltDeg) then
      { events with tiltTarget := true, tiltDeg := tiltDeg }
    else events
  ({ s with
      have_ := true, atSec := .fin nowSec, fireSeq := fireSeq, tiltSteps := tiltSteps,
      lastTiltDeg := tiltDeg }, events)

end InputEvents

/-! ## The flow -/

inductive Precondition where
  | kNone
  | kNotSpinning
  | kInterval
  deriving DecidableEq, Repr

/-- `LauncherFlow::Config`: the selector's times, QUESTiX LAB's caps and what a
lab shot needs. -/
structure LauncherConfig where
  selector : SelectorConfig :=
    { controllerQuietSec := 1, joyTimeoutSec := .fin (1 / 2), labTimeoutSec := 1 }
  inputTimeoutSec : Dbl := 1
  labMaxPower : Dbl := .fin (4 / 5)
  labTiltMinDeg : Dbl := 0
  labTiltMaxDeg : Dbl := 120
  minFirePower : Dbl := .fin (1 / 5)
  spinUpSec : Dbl := 1
  fireIntervalSec : Dbl := 2

/-- `LauncherFlow::Command` -/
structure LauncherCommand where
  rollerPower : Dbl := 0
  tiltDeg : Dbl := .nan
  tiltSteps : Int32 := 0
  fireSeq : UInt32 := 0
  deriving DecidableEq

/-- `LauncherFlow::Output` with `publish` set: the command and the source it is
published under. An `Output` without `publish` is `none`. -/
structure LauncherOutput where
  command : LauncherCommand
  source : Source
  deriving DecidableEq

structure LauncherFlow where
  config : LauncherConfig := {}
  selector : SourceSelector := {}
  joy : InputEvents := {}
  lab : InputEvents := {}
  out : LauncherCommand := {}
  lastFireSec : Dbl := .ninf
  spinSinceSec : Dbl := .nan
  precondition : Precondition := .kNone
  ownVersion : UInt32 := 0

namespace LauncherFlow

def configure (s : LauncherFlow) (config : LauncherConfig) : LauncherFlow :=
  { s with
    config := config
    selector := s.selector.configure config.selector
    joy := s.joy.configure config.inputTimeoutSec
    lab := s.lab.configure config.inputTimeoutSec }

def emit (s : LauncherFlow) (source : Source) : LauncherOutput :=
  { command := s.out, source := source }

/-- The lab's run ended without its own stop: the roller goes to 0, nothing
else moves. -/
def stop (s : LauncherFlow) : LauncherFlow × LauncherOutput :=
  let s := { s with
    out := { s.out with rollerPower := 0, tiltDeg := .nan }, spinSinceSec := .nan }
  (s, s.emit .kLab)

/-- A forwarded shot: the output's counter, and the interval starts. -/
def fire (s : LauncherFlow) (nowSec : ℚ) : LauncherFlow :=
  { s with
    out := { s.out with fireSeq := s.out.fireSeq + 1 }
    lastFireSec := .fin nowSec
    ownVersion := s.ownVersion + 1 }

def setPrecondition (s : LauncherFlow) (precondition : Precondition) : LauncherFlow :=
  if s.precondition ≠ precondition then
    { s with precondition := precondition, ownVersion := s.ownVersion + 1 }
  else s

/-- Seconds until a lab shot is allowed by the interval (0: now). -/
def nextFireInSec (s : LauncherFlow) (nowSec : ℚ) : Dbl :=
  let remaining := s.config.fireIntervalSec - (.fin nowSec - s.lastFireSec)
  if remaining.isfinite && decide (0 < remaining) then remaining else 0

/-- Seconds until the lab's roller has spun long enough (0: ready), `nan` while
it is not spinning at `minFirePower` for the lab. -/
def spinReadyInSec (s : LauncherFlow) (nowSec : ℚ) : Dbl :=
  if s.selector.source ≠ .kLab || s.spinSinceSec.isnan then .nan
  else Dbl.max 0 (s.config.spinUpSec - (.fin nowSec - s.spinSinceSec))

/-- The controller's roller power as it is forwarded. -/
def joyRoller (command : LauncherCommand) : Dbl :=
  if command.rollerPower.isfinite then command.rollerPower.clamp 0 1 else 0

/-- The controller is using the launcher with this command. -/
def joyActive (command : LauncherCommand) (events : InputEvents.Events) : Bool :=
  decide (0 < joyRoller command) || events.fire || events.tiltSteps != 0 || events.tiltTarget

def onJoy (s : LauncherFlow) (command : LauncherCommand) (nowSec : ℚ) :
    LauncherFlow × Option LauncherOutput :=
  let (joy, events) := s.joy.onCommand command.tiltDeg command.tiltSteps command.fireSeq nowSec
  let (selector, forward) := s.selector.onJoy (joyActive command events) nowSec
  let s := { s with joy := joy, selector := selector }
  if !forward then
    (s, none)  -- the lab has the launcher and the controller is idle
  else
    let s := { s with out := { s.out with
      rollerPower := joyRoller command
      tiltDeg := if command.tiltDeg.isfinite then command.tiltDeg else .nan
      tiltSteps := s.out.tiltSteps + events.tiltSteps } }
    let s := if events.fire then s.fire nowSec else s
    let s := { s with spinSinceSec := .nan }
    let s := s.setPrecondition .kNone
    (s, some (s.emit .kJoy))

/-- The lab's roller power as it is forwarded: capped. -/
def labRoller (config : LauncherConfig) (command : LauncherCommand) : Dbl :=
  command.rollerPower.clamp 0 (Dbl.max 0 config.labMaxPower)

/-- A lab command that asks for nothing: the roller at 0, no shot, no new
target. -/
def labNeutral (config : LauncherConfig) (command : LauncherCommand)
    (events : InputEvents.Events) : Bool :=
  decide (labRoller config command ≤ 0) && !events.fire && !events.tiltTarget

/-- The roller of a forwarded lab command, and since when it spins for a shot.
The command that hands the launcher to the lab carries roller 0. -/
def spin (s : LauncherFlow) (starting : Bool) (roller : Dbl) (nowSec : ℚ) : LauncherFlow :=
  let s := if starting then { s with out := { s.out with tiltDeg := .nan } } else s
  let s := { s with out := { s.out with rollerPower := if starting then 0 else roller } }
  if s.config.minFirePower ≤ s.out.rollerPower then
    if s.spinSinceSec.isnan then { s with spinSinceSec := .fin nowSec } else s
  else { s with spinSinceSec := .nan }

/-- A lab shot, fired or refused with the precondition it misses. -/
def labFire (s : LauncherFlow) (nowSec : ℚ) : LauncherFlow :=
  if !Dbl.eq (s.spinReadyInSec nowSec) 0 then
    s.setPrecondition .kNotSpinning
  else if 0 < s.nextFireInSec nowSec then
    s.setPrecondition .kInterval
  else
    (s.setPrecondition .kNone).fire nowSec

/-- A lab command the selector lets through. -/
def forwardLab (s : LauncherFlow) (starting : Bool) (roller : Dbl)
    (events : InputEvents.Events) (nowSec : ℚ) : LauncherFlow × Option LauncherOutput :=
  let s := s.spin starting roller nowSec
  let s :=
    if events.tiltTarget then
      let hi := Dbl.max s.config.labTiltMinDeg s.config.labTiltMaxDeg
      let tiltDeg := events.tiltDeg.clamp s.config.labTiltMinDeg hi
      { s with out := { s.out with tiltDeg := tiltDeg } }
    else s
  let s := if events.fire then s.labFire nowSec else s
  let output := s.emit .kLab
  if s.selector.source ≠ .kLab then
    -- this was the run's own stop
    ({ s with spinSinceSec := .nan, out := { s.out with tiltDeg := .nan } }, some output)
  else
    (s, some output)

def onLab (s : LauncherFlow) (command : LauncherCommand) (permitted : Bool) (nowSec : ℚ) :
    LauncherFlow × Option LauncherOutput :=
  if !command.rollerPower.isfinite || command.tiltDeg.isinf then
    -- a broken command is never forwarded: it ends a run the lab has, with a stop
    if s.selector.source = .kLab then
      let (selector, _) := s.selector.onLab true permitted nowSec
      let (s, output) := { s with selector := selector }.stop
      ({ s with selector := s.selector.refuse .kInvalid }, some output)
    else
      ({ s with selector := s.selector.refuse .kInvalid }, none)
  else
    let (lab, events) := s.lab.onCommand command.tiltDeg command.tiltSteps command.fireSeq nowSec
    let wasLab := decide (s.selector.source = .kLab)
    let (selector, decision) :=
      s.selector.onLab (labNeutral s.config command events) permitted nowSec
    let s := { s with lab := lab, selector := selector }
    if decision.stop then
      let (s, output) := s.stop
      (s, some output)
    else if !decision.forward then
      (s, none)
    else
      let starting := !wasLab && decide (s.selector.source = .kLab)
      s.forwardLab starting (labRoller s.config command) events nowSec

/-- The periodic check: a lab run that went silent or lost the permission is
stopped. -/
def onTick (s : LauncherFlow) (permitted : Bool) (nowSec : ℚ) :
    LauncherFlow × Option LauncherOutput :=
  let (selector, stopDue) := s.selector.onTick permitted nowSec
  let s := { s with selector := selector }
  if stopDue then
    let (s, output) := s.stop
    (s, some output)
  else
    (s, none)

end LauncherFlow

end Questix.CommandArbiter
