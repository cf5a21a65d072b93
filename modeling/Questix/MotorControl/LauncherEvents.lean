/-
Questix.MotorControl.LauncherEvents — the launcher commands as the shot node
reads them: `launcher_events.hpp`.

The class counts the events of `/launcher_command` exactly as the arbiter's
`InputEvents` counts those of its inputs (the source asks to keep the two in
step), so it is that class here, with the node's command type and the reset.
-/
import Questix.CommandArbiter.LauncherFlow

namespace Questix.MotorControl

open Questix.Lib
open Questix.CommandArbiter (InputEvents)

abbrev LauncherEvents := InputEvents

namespace LauncherEvents

/-- `LauncherEvents::Command` -/
structure Command where
  tiltDeg : Dbl := .nan
  tiltSteps : Int32 := 0
  fireSeq : UInt32 := 0
  deriving DecidableEq

def onCommand (s : LauncherEvents) (command : Command) (nowSec : ℚ) :
    LauncherEvents × InputEvents.Events :=
  InputEvents.onCommand s command.tiltDeg command.tiltSteps command.fireSeq nowSec

def reset (s : LauncherEvents) : LauncherEvents := { s with have_ := false }

end LauncherEvents

/-- Seconds until the next shot is allowed (0: now). `lastFireSec` is minus
infinity before any shot. -/
def nextFireInSec (nowSec : ℚ) (lastFireSec minIntervalSec : Dbl) : Dbl :=
  let remaining := minIntervalSec - (.fin nowSec - lastFireSec)
  if remaining.isfinite && decide (0 < remaining) then remaining else 0

end Questix.MotorControl
