/-
Questix.OperationManager.MotionPermissionManager — the motion permission, from
the votes to a node's check: `motion_permission_manager_component.cpp`, the
topic it publishes on, and a node's `PermissionMonitor`.

The manager and the node read steady clocks of their own; each is the common
time of the run plus an epoch. Messages travel in order: a delivery takes one
of the messages on the way and drops the older ones, as a queue that keeps the
last does. A run that starts with a `tick` has the publication the manager's
constructor makes.

The stamp of a message, the log and the rate of the timer are left out.
-/
import Questix.Lib.Trace
import Questix.Safety.MotionPermissionRule

namespace Questix.OperationManager

open Questix.Lib Questix.Safety

/-! ## The manager -/

/-- `questix_msgs/ActuationAuthority` -/
structure ActuationAuthority where
  driveAllowed : Bool
  launcherAllowed : Bool
  deriving DecidableEq

def ActuationAuthority.allows (m : ActuationAuthority) : Flag → Bool
  | .kDrive => m.driveAllowed
  | .kLauncher => m.launcherAllowed

/-- `questix_msgs/MotionPermission` -/
structure MotionPermission where
  driveAllowed : Bool
  launcherAllowed : Bool
  mode : String
  driveBlockers : List String
  launcherBlockers : List String
  deriving DecidableEq

def MotionPermission.allows (m : MotionPermission) : Flag → Bool
  | .kDrive => m.driveAllowed
  | .kLauncher => m.launcherAllowed

/-- The parameters: the topic of a vote is `none` where the parameter is no
string. -/
structure ManagerParams where
  mode : String := ""
  modes : List String := ["lesson", "practice", "competition"]
  leaseSec : Dbl := 1
  required : List (String × List String) := []
  votes : List (String × Option String) := []

structure VoteState where
  known : Bool := false
  driveAllowed : Bool := false
  launcherAllowed : Bool := false
  received : ℚ := 0

structure MotionPermissionManager where
  mode : String
  leaseSec : Dbl
  required : List String
  votes : String → VoteState := fun _ => {}
  last : Option MotionPermissionDecision := none

/-- The constructor's loop: no vote is required twice, each has a topic. -/
def ManagerParams.checkRequired (p : ManagerParams) (seen : List String) :
    List String → Except String Unit
  | [] => .ok ()
  | name :: names =>
    if name ∈ seen then
      .error ("motion_permission_manager: vote '" ++ name ++ "' is required twice in required." ++
        p.mode)
    else
      match p.votes.lookup name with
      | some (some topic) =>
        if topic = "" then .error ("motion_permission_manager: no topic for vote '" ++ name ++ "'")
        else p.checkRequired (name :: seen) names
      | _ => .error ("motion_permission_manager: no topic for vote '" ++ name ++ "'")

namespace MotionPermissionManager

/-- The constructor, up to its first publication. -/
def create (p : ManagerParams) : Except String MotionPermissionManager :=
  if p.mode ∉ p.modes then .error ("motion_permission_manager: unknown mode '" ++ p.mode ++ "'")
  else
    let leaseSec := if !p.leaseSec.isfinite || decide (p.leaseSec ≤ 0) then 1 else p.leaseSec
    let required := (p.required.lookup p.mode).getD []
    match p.checkRequired [] required with
    | .error e => .error e
    | .ok () => .ok { mode := p.mode, leaseSec := leaseSec, required := required }

/-- The votes as the rule reads them, with their ages. -/
def voteAt (s : MotionPermissionManager) (now : ℚ) (name : String) : Vote where
  known := (s.votes name).known
  driveAllowed := (s.votes name).driveAllowed
  launcherAllowed := (s.votes name).launcherAllowed
  ageSec := if (s.votes name).known then .fin (now - (s.votes name).received) else 0

def decideAndPublish (s : MotionPermissionManager) (force : Bool) (now : ℚ) :
    MotionPermissionManager × Option MotionPermission :=
  let decision := decideMotionPermission s.required (s.voteAt now) s.leaseSec
  if !force && decide (s.last = some decision) then (s, none)
  else
    ({ s with last := some decision },
      some {
        driveAllowed := decision.driveAllowed
        launcherAllowed := decision.launcherAllowed
        mode := s.mode
        driveBlockers := decision.driveBlockers
        launcherBlockers := decision.launcherBlockers })

def voteCallback (s : MotionPermissionManager) (name : String) (msg : ActuationAuthority)
    (now : ℚ) : MotionPermissionManager × Option MotionPermission :=
  let vote : VoteState :=
    { known := true, driveAllowed := msg.driveAllowed
      launcherAllowed := msg.launcherAllowed, received := now }
  -- a change goes out at once, not at the next tick
  decideAndPublish { s with votes := Function.update s.votes name vote } false now

end MotionPermissionManager

/-! ## The topic and a node -/

/-- A message on its way. -/
structure Transit where
  publishedAt : ℚ
  msg : MotionPermission
  deriving DecidableEq

/-- The manager, the messages on the way, the oldest first, and a node that
obeys one flag. -/
structure PermissionSystem where
  manager : MotionPermissionManager
  monitor : PermissionMonitor
  flag : Flag
  managerEpoch : ℚ := 0
  nodeEpoch : ℚ := 0
  inFlight : List Transit := []

inductive PermissionEvent where
  | vote (name : String) (msg : ActuationAuthority) (now : ℚ)
  | tick (now : ℚ)
  | deliver (index : ℕ) (now : ℚ)
  | check (now : ℚ)

inductive PermissionOut where
  | quiet
  | published (m : Transit)
  | delivered (m : Transit)
  | checked (state : PermissionState)
  deriving DecidableEq

namespace PermissionSystem

def publish (s : PermissionSystem) (r : MotionPermissionManager × Option MotionPermission)
    (now : ℚ) : PermissionSystem × PermissionOut :=
  match r with
  | (manager, none) => ({ s with manager := manager }, .quiet)
  | (manager, some msg) =>
    let m : Transit := ⟨now, msg⟩
    ({ s with manager := manager, inFlight := s.inFlight ++ [m] }, .published m)

/-- The votes that are not required have no subscription. -/
def step (s : PermissionSystem) : PermissionEvent → PermissionSystem × PermissionOut
  | .vote name msg now =>
    if name ∈ s.manager.required then
      s.publish (s.manager.voteCallback name msg (now + s.managerEpoch)) now
    else (s, .quiet)
  | .tick now => s.publish (s.manager.decideAndPublish true (now + s.managerEpoch)) now
  | .deliver index now =>
    match s.inFlight[index]? with
    | none => (s, .quiet)
    | some m =>
      ({ s with
          monitor := (s.monitor.receive (m.msg.allows s.flag) (now + s.nodeEpoch)).1
          inFlight := s.inFlight.drop (index + 1) }, .delivered m)
  | .check now =>
    (s, .checked (evaluatePermission (s.monitor.inputs (now + s.nodeEpoch))))

end PermissionSystem

end Questix.OperationManager
