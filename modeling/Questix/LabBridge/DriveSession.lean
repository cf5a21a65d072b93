/-
Questix.LabBridge.DriveSession — a page's driving run: `drive.py`.

Clients are the session numbers of the pages, the clock is an argument. A
blocker is a code with a detail; the dictionary of blockers is a function.
`request` answers beside the session it leaves; `none` is "accepted".

Of a status of the arbiter the fields of `arbiter_status` are kept that the
sessions of this package read; numbers that are not finite are missing there.
The texts sent to the pages (`state`) are left out.
-/
import Mathlib.Data.Finset.Basic
import Mathlib.Data.List.Sort
import Mathlib.Logic.Function.Basic
import Questix.Lib.Dbl

namespace Questix.LabBridge

open Questix.Lib

/-! ## Numbers -/

/-- A decoded JSON value as `float` looks at it: a string goes with what is
read from it, if it is a number. -/
inductive Value where
  | bool (b : Bool)
  | number (x : Dbl)
  | text (read : Option Dbl)
  | other
  deriving DecidableEq

def finite : Dbl → Option ℚ
  | .fin q => some q
  | _ => none

/-- `_number` -/
def number : Value → Option ℚ
  | .bool _ => none
  | .number x => finite x
  | .text read => read.bind finite
  | .other => none

/-! ## The arbiter's status -/

/-- `arbiter_status` -/
structure ArbiterStatus where
  activeSource : String := ""
  switchReason : String := ""
  labPermitted : Bool := false
  labLocked : Bool := false
  labRefusal : String := ""
  labCount : ℤ := 0
  maxLinear : Option ℚ := none
  maxAngular : Option ℚ := none
  maxPower : Option ℚ := none
  tiltMinDeg : Option ℚ := none
  tiltMaxDeg : Option ℚ := none
  minFirePower : Option ℚ := none
  spinUpSec : Option ℚ := none
  fireIntervalSec : Option ℚ := none
  nextFireInSec : Option ℚ := none
  deriving DecidableEq

def controllerRefusals : List String := ["controller", "locked"]

/-! ## The session -/

/-- Why driving is not possible right now. -/
inductive Blocker where
  | notAllowed
  | estopUnknown
  | emergencyStop
  | noDriveNode
  | otherPublisher
  | noMotionPermission
  deriving DecidableEq, Repr

/-- The order the page shows them in. -/
def blockerOrder : List Blocker :=
  [.notAllowed, .estopUnknown, .emergencyStop, .noDriveNode, .otherPublisher, .noMotionPermission]

theorem mem_blockerOrder (code : Blocker) : code ∈ blockerOrder := by
  cases code <;> simp [blockerOrder]

/-- What is kept of a blocker: that it is there, or the nodes it is about. -/
inductive Detail where
  | present
  | nodes (names : List String)
  deriving DecidableEq

/-- Why a request is refused. -/
inductive Refusal where
  | blocked (code : Blocker)
  | busy
  | invalid
  | stale
  | needsNeutral
  deriving DecidableEq

/-- Why the last run ended. -/
inductive Reason where
  | blocked (code : Blocker)
  | stopped
  | timeout
  | timeLimit
  | disconnected
  | controller
  | invalid
  deriving DecidableEq

def restartGuardSec : ℚ := 1
def startupNeutralSec : ℚ := 3 / 10

abbrev Client := ℕ

structure DriveConfig where
  deadmanSec : Dbl := .fin (1 / 2)
  maxRunSec : Dbl := 30
  stopHoldSec : Dbl := .fin (3 / 10)

structure DriveSession where
  config : DriveConfig
  blocker : Blocker → Option Detail
  arbiter : Option ArbiterStatus := none
  driveSubscribed : Bool := false
  countAtStart : ℤ := 0
  seenLab : Bool := false
  owner : Option Client := none
  linear : ℚ := 0
  angular : ℚ := 0
  heardAt : ℚ := 0
  startedAt : ℚ := 0
  holdUntil : Dbl := .ninf
  /-- the previous owner, and until when it is held off -/
  restartGuard : Option (Client × ℚ) := none
  needsNeutral : Finset Client := ∅
  lastStop : Option (Reason × Option Client) := none
  version : ℕ := 0

namespace DriveSession

def create (config : DriveConfig) : DriveSession where
  config := config
  blocker := fun
    | .noDriveNode => some .present
    | .estopUnknown => some .present
    | _ => none

/-! ### What it reads -/

def active (s : DriveSession) : Bool := s.owner.isSome

/-- The arbiter reports the teacher's lesson permission for driving. -/
def allowed (s : DriveSession) : Bool := s.arbiter.any ArbiterStatus.labPermitted

/-- The speed caps in effect, once the arbiter reports them. -/
def limits (s : DriveSession) : Option (ℚ × ℚ) := do
  let status ← s.arbiter
  let linear ← status.maxLinear
  let angular ← status.maxAngular
  return (|linear|, |angular|)

/-- The blockers in display order. -/
def blockers (s : DriveSession) : List Blocker := blockerOrder.filter fun c => (s.blocker c).isSome

/-! ### Ending a run -/

/-- `_end` -/
def end_ (s : DriveSession) (reason : Reason) (by_ : Option Client) (now : ℚ) : DriveSession :=
  { s with
    needsNeutral := s.owner.elim s.needsNeutral fun c => insert c s.needsNeutral
    restartGuard :=
      s.owner.elim s.restartGuard fun c =>
        if by_ = some c then s.restartGuard else some (c, now + restartGuardSec)
    owner := none
    linear := 0
    angular := 0
    holdUntil := .fin now + s.config.stopHoldSec
    lastStop := some (reason, by_)
    version := s.version + 1 }

/-- A blocker appears, changes or goes; one that appears or changes ends the
run. -/
def setBlocker (s : DriveSession) (code : Blocker) (detail : Option Detail) (now : ℚ) :
    DriveSession :=
  let before := s.blocker code
  let s := { s with blocker := Function.update s.blocker code detail }
  if before = detail then s
  else
    let s := { s with version := s.version + 1 }
    if detail.isSome && s.active then s.end_ (.blocked code) none now else s

def presentIf (b : Bool) : Option Detail := if b then some .present else none

/-! ### What the robot says -/

def setDriveNode (s : DriveSession) (now : ℚ) : DriveSession :=
  s.setBlocker .noDriveNode (presentIf !(s.driveSubscribed && s.arbiter.isSome)) now

/-- The nodes are named without repetition and in order. -/
def setGraph (s : DriveSession) (otherPublishers driveSubscribers : List String) (now : ℚ) :
    DriveSession :=
  let others := otherPublishers.dedup.insertionSort (· ≤ ·)
  let s := s.setBlocker .otherPublisher (if others = [] then none else some (.nodes others)) now
  let s := { s with driveSubscribed := decide (driveSubscribers ≠ []) }
  s.setDriveNode now

def setEmergencyStop (s : DriveSession) (active : Bool) (now : ℚ) : DriveSession :=
  s.setBlocker .emergencyStop (presentIf active) now

def setEstopKnown (s : DriveSession) (known : Bool) (now : ℚ) : DriveSession :=
  s.setBlocker .estopUnknown (presentIf !known) now

def setMotionPermission (s : DriveSession) (allowed : Bool) (now : ℚ) : DriveSession :=
  s.setBlocker .noMotionPermission (presentIf !allowed) now

/-- What the arbiter's status says of the run: it took the robot away. -/
def followArbiter (s : DriveSession) (status : ArbiterStatus) (now : ℚ) : DriveSession :=
  if status.labCount ≤ s.countAtStart then s  -- nothing of this run has reached it yet
  else
    let s := { s with seenLab := s.seenLab || decide (status.activeSource = "lab") }
    let tookOver := s.seenLab && decide (status.activeSource ≠ "lab") &&
      decide (status.switchReason = "controller")
    if decide (status.labRefusal ∈ controllerRefusals) || tookOver then
      s.end_ .controller none now
    else s

/-- The status is kept; the pages hear of a new permission or new caps. -/
def keepStatus (s : DriveSession) (status : Option ArbiterStatus) : DriveSession :=
  let before := (s.allowed, s.limits)
  let s := { s with arbiter := status }
  if (s.allowed, s.limits) ≠ before then { s with version := s.version + 1 } else s

def setArbiter (s : DriveSession) (status : Option ArbiterStatus) (now : ℚ) : DriveSession :=
  let s := s.keepStatus status
  let s := s.setBlocker .notAllowed (presentIf (s.arbiter.isSome && !s.allowed)) now
  let s := s.setDriveNode now
  match status with
  | none => s
  | some status => if s.active then s.followArbiter status now else s

/-! ### Requests -/

/-- The run of `client`, started if none runs. -/
def startRun (s : DriveSession) (client : Client) (now : ℚ) : DriveSession :=
  if s.owner = none then
    { s with
      owner := some client
      startedAt := now
      countAtStart := (s.arbiter.map ArbiterStatus.labCount).getD 0
      seenLab := false
      lastStop := none
      version := s.version + 1 }
  else s

/-- The command of a request that passes every check. -/
def accept (s : DriveSession) (client : Client) (linear angular : ℚ) (now : ℚ) : DriveSession :=
  let s := s.startRun client now
  { s with
    linear := linear
    angular := angular
    heardAt := now
    version :=
      if (linear, angular) ≠ (s.linear, s.angular) then s.version + 1 else s.version }

/-- The restart guard holds the client off. -/
def guarded (s : DriveSession) (client : Client) (now : ℚ) : Bool :=
  s.restartGuard.any fun (previous, until_) => decide (client = previous) && decide (now < until_)

/-- Let `client` drive; the answer is why it was refused. -/
def request (s : DriveSession) (client : Client) (linear angular : Value) (now : ℚ) :
    DriveSession × Option Refusal :=
  if s.guarded client now then (s, some .stale)
  else
    match s.blockers with
    | code :: _ =>
      ({ s with needsNeutral := insert client s.needsNeutral }, some (.blocked code))
    | [] =>
      if s.owner.isSome ∧ s.owner ≠ some client then (s, some .busy)
      else
        match number linear, number angular with
        | some linear, some angular =>
          if client ∈ s.needsNeutral then
            if (linear, angular) ≠ (0, 0) then (s, some .needsNeutral)
            else
              (({ s with needsNeutral := s.needsNeutral.erase client }).accept client linear
                angular now, none)
          else (s.accept client linear angular now, none)
        | _, _ =>
          if s.owner = some client then (s.end_ .invalid (some client) now, some .invalid)
          else (s, some .invalid)

/-- Any page may stop the run; with `onlyOwn` only its owner. -/
def stop (s : DriveSession) (client : Client) (now : ℚ) (onlyOwn : Bool) : DriveSession × Bool :=
  if onlyOwn ∧ s.owner ≠ some client then (s, false)
  else if s.active then (s.end_ .stopped (some client) now, true)
  else (s, false)

def disconnect (s : DriveSession) (client : Client) (now : ℚ) : DriveSession :=
  let s := if s.owner = some client then s.end_ .disconnected (some client) now else s
  { s with needsNeutral := s.needsNeutral.erase client }

/-! ### Time -/

/-- What an idle session publishes: zero while a stop is held. -/
def idleCommand (s : DriveSession) (now : ℚ) : Option (ℚ × ℚ) :=
  if .fin now < s.holdUntil then some (0, 0) else none

/-- The command to publish now. -/
def tick (s : DriveSession) (now : ℚ) : DriveSession × Option (ℚ × ℚ) :=
  if s.active then
    if s.config.deadmanSec < .fin (now - s.heardAt) then
      let s := s.end_ .timeout none now
      (s, s.idleCommand now)
    else if s.config.maxRunSec < .fin (now - s.startedAt) then
      let s := s.end_ .timeLimit none now
      (s, s.idleCommand now)
    else if now - s.startedAt < startupNeutralSec then (s, some (0, 0))
    else (s, some (s.linear, s.angular))
  else (s, s.idleCommand now)

end DriveSession

/-! ## Runs -/

inductive DriveInput where
  | setGraph (otherPublishers driveSubscribers : List String)
  | setEmergencyStop (active : Bool)
  | setEstopKnown (known : Bool)
  | setMotionPermission (allowed : Bool)
  | setArbiter (status : Option ArbiterStatus)
  | request (client : Client) (linear angular : Value)
  | stop (client : Client) (onlyOwn : Bool)
  | disconnect (client : Client)
  | tick
  deriving DecidableEq

/-- A call of the session, with the time it is made at. -/
structure DriveCall where
  now : ℚ
  input : DriveInput

/-- What a call returns. -/
inductive DriveAnswer where
  | nothing
  | requested (refused : Option Refusal)
  | stopped (ended : Bool)
  | ticked (command : Option (ℚ × ℚ))
  deriving DecidableEq

namespace DriveSession

def step (s : DriveSession) (e : DriveCall) : DriveSession × DriveAnswer :=
  match e.input with
  | .setGraph others subscribers => (s.setGraph others subscribers e.now, .nothing)
  | .setEmergencyStop active => (s.setEmergencyStop active e.now, .nothing)
  | .setEstopKnown known => (s.setEstopKnown known e.now, .nothing)
  | .setMotionPermission allowed => (s.setMotionPermission allowed e.now, .nothing)
  | .setArbiter status => (s.setArbiter status e.now, .nothing)
  | .request client linear angular =>
    let (s, refused) := s.request client linear angular e.now
    (s, .requested refused)
  | .stop client onlyOwn =>
    let (s, ended) := s.stop client e.now onlyOwn
    (s, .stopped ended)
  | .disconnect client => (s.disconnect client e.now, .nothing)
  | .tick =>
    let (s, command) := s.tick e.now
    (s, .ticked command)

end DriveSession

end Questix.LabBridge
