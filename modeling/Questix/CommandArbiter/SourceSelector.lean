/-
Questix.CommandArbiter.SourceSelector — which input reaches an actuator:
`command_arbiter::SourceSelector` of `source_selector.hpp`.

The controller is the default; a QUESTiX LAB run takes over with a
non-neutral command while it is permitted, not locked out and the controller
is not busy; the controller always wins and locks the lab out until its run
ends.

The class is a structure and its member functions are functions on it. A
member function that both changes the selector and returns a value gives the
pair, the selector first. The clock is injected, as in the source: `nowSec`
is a finite number of seconds, while the times the selector remembers and
its configuration are doubles, since `kNever` is minus infinity and a
configured duration is whatever the parameter holds.

Proofs live in `SourceSelectorTheorems`.
-/
import Questix.Lib.Dbl
import Questix.Lib.Trace

namespace Questix.CommandArbiter

open Questix.Lib

inductive Source where
  | kJoy
  | kLab
  deriving DecidableEq, Repr

inductive Reason where
  | kStart
  | kLabStarted
  | kController
  | kLabEnded
  | kLabIdle
  | kNotPermitted
  deriving DecidableEq, Repr

inductive Refusal where
  | kNone
  | kNotPermitted
  | kController
  | kLocked
  | kInvalid
  deriving DecidableEq, Repr

/-- `SourceSelector::Config`: how long the controller must be idle before the
lab may take over, and after how long a silent input is gone. -/
structure SelectorConfig where
  controllerQuietSec : Dbl := 0
  joyTimeoutSec : Dbl := .fin (1 / 2)
  labTimeoutSec : Dbl := .fin (3 / 10)

/-- `SourceSelector::LabDecision`: publish this lab command, publish a stop
instead, and why the command was refused. -/
structure LabDecision where
  forward : Bool := false
  stop : Bool := false
  refusal : Refusal := .kNone
  deriving DecidableEq, Repr

/-- `kNever`: before every time. -/
def kNever : Dbl := .ninf

structure SourceSelector where
  config : SelectorConfig := {}
  source : Source := .kJoy
  reason : Reason := .kStart
  refusal : Refusal := .kNone
  labLocked : Bool := false
  version : UInt32 := 0
  labCount : UInt32 := 0
  joyActive : Bool := false
  joyAtSec : Dbl := kNever
  joyActiveAtSec : Dbl := kNever
  labNeutral : Bool := true
  labAtSec : Dbl := kNever

namespace SourceSelector

def configure (s : SourceSelector) (config : SelectorConfig) : SourceSelector :=
  { s with config := config }

def switchTo (s : SourceSelector) (source : Source) (reason : Reason) : SourceSelector :=
  { s with source := source, reason := reason, version := s.version + 1 }

def setLocked (s : SourceSelector) (locked : Bool) : SourceSelector :=
  if s.labLocked ≠ locked then
    { s with labLocked := locked, version := s.version + 1 }
  else s

def setRefusal (s : SourceSelector) (refusal : Refusal) : SourceSelector :=
  if s.refusal ≠ refusal then
    { s with refusal := refusal, version := s.version + 1 }
  else s

/-- The controller is in use: its last command is not neutral and fresh, or
it was used within `controllerQuietSec`. -/
def joyBusy (s : SourceSelector) (nowSec : ℚ) : Bool :=
  (s.joyActive && decide (.fin nowSec - s.joyAtSec ≤ s.config.joyTimeoutSec)) ||
    decide (.fin nowSec - s.joyActiveAtSec ≤ s.config.controllerQuietSec)

/-- The lab is asking for the actuator: its last command was not neutral and
is fresh. -/
def labAsking (s : SourceSelector) (nowSec : ℚ) : Bool :=
  !s.labNeutral && decide (.fin nowSec - s.labAtSec ≤ s.config.labTimeoutSec)

/-- The lab's run is over: nothing was heard of it for `labTimeoutSec`. -/
def labQuiet (s : SourceSelector) (nowSec : ℚ) : Bool :=
  decide (s.config.labTimeoutSec < .fin nowSec - s.labAtSec)

/-- A controller command (`active`: not neutral), and whether to publish it. -/
def onJoy (s : SourceSelector) (active : Bool) (nowSec : ℚ) : SourceSelector × Bool :=
  let s :=
    if active && (s.source = .kLab || s.labAsking nowSec) then s.setLocked true else s
  let s := { s with joyAtSec := .fin nowSec, joyActive := active }
  let s := if active then { s with joyActiveAtSec := .fin nowSec } else s
  if s.source = .kLab then
    if !active then
      (s, false)  -- the lab has it: the neutral stream is not forwarded
    else
      (s.switchTo .kJoy .kController, true)
  else
    (s, true)

/-- The verdict on a lab command, with its time already recorded. -/
def judgeLab (s : SourceSelector) (neutral permitted : Bool) (nowSec : ℚ) :
    SourceSelector × LabDecision :=
  if s.source = .kLab then
    if !permitted then
      (s.switchTo .kJoy .kNotPermitted, { stop := true, refusal := .kNotPermitted })
    else if neutral then
      (s.switchTo .kJoy .kLabEnded, { forward := true })  -- the run's own stop goes out
    else
      (s, { forward := true })
  else if neutral then
    (s.setLocked false, {})  -- the run that was locked out has ended
  else if !permitted then
    (s, { refusal := .kNotPermitted })
  else if s.labLocked then
    (s, { refusal := .kLocked })
  else if s.joyBusy nowSec then
    (s, { refusal := .kController })
  else
    (s.switchTo .kLab .kLabStarted, { forward := true })

/-- A lab command. `neutral`: it ends the lab's run; `permitted`: the
teacher's lesson permission is fresh and on. -/
def onLab (s : SourceSelector) (neutral permitted : Bool) (nowSec : ℚ) :
    SourceSelector × LabDecision :=
  let s := { s with
    labAtSec := .fin nowSec, labNeutral := neutral, labCount := s.labCount + 1 }
  let (s, decision) := s.judgeLab neutral permitted nowSec
  (s.setRefusal decision.refusal, decision)

/-- A lab command refused for a reason of the caller's. -/
def refuse (s : SourceSelector) (refusal : Refusal) : SourceSelector :=
  s.setRefusal refusal

/-- The periodic check, and whether a stop must be published: the lab had the
actuator and its run ended by silence or by losing the permission. -/
def onTick (s : SourceSelector) (permitted : Bool) (nowSec : ℚ) : SourceSelector × Bool :=
  let quiet := s.labQuiet nowSec
  let stop := decide (s.source = .kLab) && (quiet || !permitted)
  let s :=
    if stop then s.switchTo .kJoy (if quiet then .kLabIdle else .kNotPermitted) else s
  let s := if s.labLocked && quiet then s.setLocked false else s
  (s, stop)

/-! ## Runs -/

/-- What a selector is asked, with the time it is asked at. -/
inductive Event where
  | joy (active : Bool) (nowSec : ℚ)
  | lab (neutral permitted : Bool) (nowSec : ℚ)
  | tick (permitted : Bool) (nowSec : ℚ)
  deriving DecidableEq

def Event.time : Event → ℚ
  | .joy _ t => t
  | .lab _ _ t => t
  | .tick _ t => t

/-- What a selector answers. -/
inductive Answer where
  | joy (publish : Bool)
  | lab (decision : LabDecision)
  | tick (stop : Bool)
  deriving DecidableEq

def step (s : SourceSelector) : Event → SourceSelector × Answer
  | .joy active t => ((s.onJoy active t).1, .joy (s.onJoy active t).2)
  | .lab neutral permitted t =>
      ((s.onLab neutral permitted t).1, .lab (s.onLab neutral permitted t).2)
  | .tick permitted t => ((s.onTick permitted t).1, .tick (s.onTick permitted t).2)

end SourceSelector

end Questix.CommandArbiter
