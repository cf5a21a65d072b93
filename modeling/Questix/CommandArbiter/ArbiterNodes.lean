/-
Questix.CommandArbiter.ArbiterNodes — the two arbiter nodes as machines: the
drive's (`drive_arbiter_component.cpp`) and the launcher's
(`launcher_arbiter_component.cpp`), with the lesson permission they hold
(`lab_permission.hpp`).

A node takes one callback at a time: a controller message, a lab message, a
permission message or the periodic tick. The output of a step is the list of
commands it published, oldest first. Each callback reads the monotonic clock
once. The status topic is left out: it reports the state and feeds nothing
back. So is the narrowing of the launcher's numbers to `float` on the wire.
-/
import Questix.CommandArbiter.LauncherFlow

namespace Questix.CommandArbiter

open Questix.Lib

/-! ## The lesson permission -/

/-- `LabPermission`: a lease. Never heard, silent for `leaseSec` or false means
"not permitted". -/
structure LabPermission where
  leaseSec : Dbl
  known : Bool := false
  allowed : Bool := false
  received : ℚ := 0

namespace LabPermission

/-- The constructor's fallback for a lease that is no positive duration. -/
def create (leaseSec : Dbl) : LabPermission where
  leaseSec := if leaseSec.isfinite && decide (0 < leaseSec) then leaseSec else 1

def receive (p : LabPermission) (allowed : Bool) (nowSec : ℚ) : LabPermission :=
  { p with known := true, allowed := allowed, received := nowSec }

def permitted (p : LabPermission) (nowSec : ℚ) : Bool :=
  p.known && p.allowed && decide (.fin (nowSec - p.received) ≤ p.leaseSec)

end LabPermission

/-- What reaches an arbiter node whose commands have type `κ`. -/
inductive NodeEvent (κ : Type) where
  | joy (msg : κ) (nowSec : ℚ)
  | lab (msg : κ) (nowSec : ℚ)
  | permission (allowed : Bool) (nowSec : ℚ)
  | tick (nowSec : ℚ)

def NodeEvent.time {κ : Type} : NodeEvent κ → ℚ
  | .joy _ t => t
  | .lab _ t => t
  | .permission _ t => t
  | .tick t => t

/-! ## The drive's node -/

/-- The two components of a `geometry_msgs/Twist` the drive uses. -/
structure Twist where
  linear : Dbl
  angular : Dbl
  deriving DecidableEq

def Twist.zero : Twist := ⟨0, 0⟩

def Twist.isfinite (t : Twist) : Bool := t.linear.isfinite && t.angular.isfinite

def Twist.isZero (t : Twist) : Bool := Dbl.eq t.linear 0 && Dbl.eq t.angular 0

structure DriveArbiter where
  neutralLinear : Dbl := .fin (1 / 100)
  neutralAngular : Dbl := .fin (1 / 40)
  labMaxLinear : Dbl := .fin (3 / 20)
  labMaxAngular : Dbl := .fin (1 / 2)
  selector : SourceSelector := {}
  permission : LabPermission := .create 1

namespace DriveArbiter

/-- The node's parameters, as declared. -/
structure Params where
  labPermissionLeaseSec : Dbl := 1
  neutralLinear : Dbl := .fin (1 / 100)
  neutralAngular : Dbl := .fin (1 / 40)
  labMaxLinear : Dbl := .fin (3 / 20)
  labMaxAngular : Dbl := .fin (1 / 2)
  selector : SelectorConfig := {}

/-- The constructor; it throws when a lab cap is not finite. -/
def create (params : Params) : Option DriveArbiter :=
  let labMaxLinear := Dbl.abs params.labMaxLinear
  let labMaxAngular := Dbl.abs params.labMaxAngular
  if !labMaxLinear.isfinite || !labMaxAngular.isfinite then none
  else some {
    neutralLinear := params.neutralLinear
    neutralAngular := params.neutralAngular
    labMaxLinear := labMaxLinear
    labMaxAngular := labMaxAngular
    selector := SourceSelector.configure {} params.selector
    permission := .create params.labPermissionLeaseSec }

/-- The controller is driving with this twist. -/
def active (s : DriveArbiter) (msg : Twist) : Bool :=
  decide (s.neutralLinear ≤ Dbl.abs msg.linear) ||
    decide (s.neutralAngular ≤ Dbl.abs msg.angular)

def joyCallback (s : DriveArbiter) (msg : Twist) (nowSec : ℚ) : DriveArbiter × List Twist :=
  if !msg.isfinite then
    (s, [])  -- invalid input must not become a neutral that rearms the drive
  else
    let (selector, forward) := s.selector.onJoy (s.active msg) nowSec
    ({ s with selector := selector }, if forward then [msg] else [])

/-- A lab twist clamped to the lab's caps. -/
def labTwist (s : DriveArbiter) (msg : Twist) : Twist where
  linear := msg.linear.clamp (-s.labMaxLinear) s.labMaxLinear
  angular := msg.angular.clamp (-s.labMaxAngular) s.labMaxAngular

def labCallback (s : DriveArbiter) (msg : Twist) (nowSec : ℚ) : DriveArbiter × List Twist :=
  let permitted := s.permission.permitted nowSec
  if !msg.isfinite then
    -- a broken command is never forwarded as given: it ends a run the lab has
    if s.selector.source = .kLab then
      let (selector, _) := s.selector.onLab true permitted nowSec
      ({ s with selector := selector.refuse .kInvalid }, [Twist.zero])
    else
      ({ s with selector := s.selector.refuse .kInvalid }, [])
  else
    let twist := s.labTwist msg
    let neutral := twist.isZero
    let wasJoy := decide (s.selector.source = .kJoy)
    let (selector, decision) := s.selector.onLab neutral permitted nowSec
    ({ s with selector := selector },
      if decision.forward then [twist]
      else if decision.stop then [Twist.zero]
      -- a bridge startup neutral can reach a drive waiting for neutral with no controller
      else if wasJoy && neutral && permitted && !selector.joyBusy nowSec then [Twist.zero]
      else [])

def tickCallback (s : DriveArbiter) (nowSec : ℚ) : DriveArbiter × List Twist :=
  let (selector, stop) := s.selector.onTick (s.permission.permitted nowSec) nowSec
  ({ s with selector := selector }, if stop then [Twist.zero] else [])

def step (s : DriveArbiter) : NodeEvent Twist → DriveArbiter × List Twist
  | .joy msg t => s.joyCallback msg t
  | .lab msg t => s.labCallback msg t
  | .permission allowed t => ({ s with permission := s.permission.receive allowed t }, [])
  | .tick t => s.tickCallback t

end DriveArbiter

/-! ## The launcher's node -/

structure LauncherArbiter where
  flow : LauncherFlow
  permission : LabPermission

namespace LauncherArbiter

/-- The constructor; it throws on caps and shot settings that are not finite,
a power cap outside 0..1 or an empty tilt range. -/
def create (config : LauncherConfig) (leaseSec : Dbl) : Option LauncherArbiter :=
  let settings := [config.labMaxPower, config.labTiltMinDeg, config.labTiltMaxDeg,
    config.minFirePower, config.spinUpSec, config.fireIntervalSec]
  if !settings.all Dbl.isfinite then none
  else if config.labMaxPower < 0 || 1 < config.labMaxPower ||
      config.labTiltMaxDeg < config.labTiltMinDeg then none
  else some { flow := LauncherFlow.configure {} config, permission := .create leaseSec }

/-- Publishing an output: nothing for an output without `publish`. -/
def publish (s : LauncherArbiter) (r : LauncherFlow × Option LauncherOutput) :
    LauncherArbiter × List LauncherOutput :=
  ({ s with flow := r.1 }, r.2.toList)

def joyCallback (s : LauncherArbiter) (msg : LauncherCommand) (nowSec : ℚ) :
    LauncherArbiter × List LauncherOutput :=
  s.publish (s.flow.onJoy msg nowSec)

def labCallback (s : LauncherArbiter) (msg : LauncherCommand) (nowSec : ℚ) :
    LauncherArbiter × List LauncherOutput :=
  s.publish (s.flow.onLab msg (s.permission.permitted nowSec) nowSec)

def tickCallback (s : LauncherArbiter) (nowSec : ℚ) : LauncherArbiter × List LauncherOutput :=
  s.publish (s.flow.onTick (s.permission.permitted nowSec) nowSec)

def step (s : LauncherArbiter) :
    NodeEvent LauncherCommand → LauncherArbiter × List LauncherOutput
  | .joy msg t => s.joyCallback msg t
  | .lab msg t => s.labCallback msg t
  | .permission allowed t => ({ s with permission := s.permission.receive allowed t }, [])
  | .tick t => s.tickCallback t

end LauncherArbiter

end Questix.CommandArbiter
