/-
Questix.RobotManager.Recorder — the recording slot of `recorder.py`, and the
requests, watchers and threads that share it.

A section under the lock is one move, and so is what happens between two
sections: the start of a recorder process, the look at it after the grace
time, the capture of the parameters after a trial, its finalization. Recorder
processes are numbered as they are started; a process may exit at any time,
and one that is stopped has exited when the section ends, if need be killed.

Left out are the status payload with what only it reads (the size of the bag,
the summary of the last trial), how the preparation of a start fails (its
error is taken as it comes), and the contents of the evidence.
-/
import Mathlib.Data.Rat.Defs
import Mathlib.Algebra.Order.Ring.Rat
import Questix.Lib.Pool
import Questix.RobotManager.Actuation

namespace Questix.RobotManager

open Questix.Lib

/-! ## The slot -/

inductive RecordingMode where
  | generic
  | classroom
  deriving DecidableEq, Repr

/-- Why a recording ended. -/
inductive StopReason where
  | stopped
  | userStopped
  | shutdown
  | autoStoppedLowDisk
  | processExited
  | maxDuration
  | startFailed
  deriving DecidableEq, Repr

/-- Whether SIGINT alone finalized the bag. -/
inductive FinalizeReason where
  | clean
  | finalizeTimeout
  deriving DecidableEq, Repr

structure TrialMetadata where
  trialId : String
  teamId : Option String := none
  conditionLabel : Option String := none
  deriving DecidableEq

/-- The evidence context of a classroom trial; `recorder` tells one context
from another. -/
structure TrialContext where
  recorder : ℕ
  metadata : TrialMetadata
  bagName : String
  staging : String
  warnings : List String
  deriving DecidableEq

/-- What a stop leaves to do for a classroom trial. -/
structure Pending where
  ctx : TrialContext
  reason : StopReason
  finalize : FinalizeReason
  elapsed : ℚ
  returncode : Option ℤ
  deriving DecidableEq

/-- What the capture of the parameters after the run gives. -/
structure Captured where
  files : List String := []
  warnings : List String := []
  deriving DecidableEq

/-- A finalized trial. -/
structure Evidence where
  pending : Pending
  captured : Captured
  integrity : String
  deriving DecidableEq

/-- The state of the module, with the recorder processes started so far and
their exit codes; `trials` (the contexts that have been in the slot) and
`finalized` are what has happened, not in the source. -/
structure Recorder where
  proc : Option ℕ := none
  bagName : Option String := none
  startedAt : Option ℚ := none
  lastStopReason : Option StopReason := none
  lastFinalizeReason : Option FinalizeReason := none
  mode : Option RecordingMode := none
  trial : Option TrialContext := none
  starting : Bool := false
  capturing : Bool := false
  finalizeThread : Option TrialContext := none
  procs : List (Option ℤ) := []
  trials : List TrialContext := []
  finalized : List Evidence := []
  deriving DecidableEq

/-- How a running recorder ends when it is told to. -/
inductive StopOutcome where
  | ends (code : ℤ)
  | terminated (code : ℤ)  -- by SIGTERM, after STOP_TIMEOUT_SEC
  | killed
  deriving DecidableEq

def StopOutcome.finalize : StopOutcome → FinalizeReason
  | .ends _ => .clean
  | .terminated _ => .finalizeTimeout
  | .killed => .finalizeTimeout

/-- What `poll()` gives after the stop: nothing for a process just killed. -/
def StopOutcome.returncode : StopOutcome → Option ℤ
  | .ends code => some code
  | .terminated code => some code
  | .killed => none

namespace Recorder

def poll (s : Recorder) (r : ℕ) : Option ℤ := (s.procs[r]?).getD none

def running (s : Recorder) (r : ℕ) : Bool := s.procs[r]? = some none

def recording (s : Recorder) : Bool := s.proc.any s.running

def exitedUnnoticed (s : Recorder) : Bool := s.proc.any fun r => !s.running r

def elapsed (s : Recorder) (now : ℚ) : ℚ :=
  match s.startedAt with
  | some at_ => if at_ = 0 then 0 else now - at_
  | none => 0

/-- `_stop_locked` -/
def stopLocked (s : Recorder) (reason : StopReason) (now : ℚ) (outcome : StopOutcome) :
    Recorder × Option Pending :=
  match s.proc with
  | none => (s, none)
  | some r =>
    let exits := s.running r
    let finalize := if exits then outcome.finalize else .clean
    let returncode := if exits then outcome.returncode else s.poll r
    let elapsed := s.elapsed now
    let ctx := s.trial
    let s :=
      { s with
        procs := if exits then s.procs.set r (some (outcome.returncode.getD (-9))) else s.procs
        proc := none
        bagName := none
        startedAt := none
        mode := none
        trial := none
        lastStopReason := some reason
        lastFinalizeReason := some finalize }
    match ctx with
    | none => (s, none)
    | some ctx => ({ s with capturing := true }, some ⟨ctx, reason, finalize, elapsed, returncode⟩)

/-- `_reserve_start` -/
def reserveStart (s : Recorder) : Except HttpError Recorder :=
  if s.capturing then
    .error ⟨409, "直前のtrialのparameter記録中です。数秒後にやり直してください"⟩
  else if s.starting || s.recording then .error ⟨409, "記録中です"⟩
  else .ok { s with starting := true }

/-- `_exit_reason_locked`, with the configured MAX_DURATION_SEC -/
def exitReason (s : Recorder) (maxDuration : ℤ) (now : ℚ) : StopReason :=
  if s.mode ≠ some .classroom then .processExited
  else
    let returncode := s.proc.bind s.poll
    if 0 < maxDuration ∧ (maxDuration : ℚ) - 2 ≤ s.elapsed now ∧
        (returncode = some 0 ∨ returncode = none) then .maxDuration
    else .processExited

def popen (s : Recorder) : Recorder := { s with procs := s.procs ++ [none] }

/-- A running process exits. -/
def exits (s : Recorder) (r : ℕ) (code : ℤ) : Recorder :=
  if s.running r then { s with procs := s.procs.set r (some code) } else s

/-- The recorder that has lived through the grace time takes the slot. -/
def publish (s : Recorder) (r : ℕ) (bagName : String) (ctx : Option TrialContext) (now : ℚ) :
    Recorder :=
  { s with
    proc := some r
    bagName := some bagName
    startedAt := some now
    lastStopReason := none
    lastFinalizeReason := none
    mode := some (if ctx.isSome then .classroom else .generic)
    trial := ctx
    trials := s.trials ++ ctx.toList }

end Recorder

/-! ## Requests, watchers and threads -/

/-- What a start answers in the end. -/
inductive StartAnswer where
  | started (ctx : Option TrialContext)
  | raised (error : HttpError)
  deriving DecidableEq

/-- What a thread does next. -/
inductive Task where
  | prepare (trial : Option TrialMetadata)  -- the slot is reserved; `none` is a generic start
  | spawned (r : ℕ) (bagName : String) (ctx : Option TrialContext) (minFree : ℕ)
  | publish (r : ℕ) (bagName : String) (ctx : Option TrialContext) (minFree : ℕ)
  | fail
  | release (answer : StartAnswer)
  | watch (r : ℕ) (minFree : ℕ)
  | capture (pending : Pending)
  | captured (pending : Pending) (captured : Captured)
  | finalize (pending : Pending) (captured : Captured)
  deriving DecidableEq

/-- What comes from outside: requests, the shutdown of the service, and a
recorder process that exits. -/
inductive RecorderEvent where
  | start (trial : Option TrialMetadata)
  | stop (now : ℚ) (outcome : StopOutcome)
  | status (now : ℚ) (maxDuration : ℤ)
  | shutdown (now : ℚ) (outcome : StopOutcome)
  | exits (r : ℕ) (code : ℤ)
  deriving DecidableEq

/-- What the environment decides in a move: a failed preparation, a started
process, the time, the space on the disk, the evidence. -/
inductive Chances where
  | refuse (error : HttpError)
  | popen (bagName staging : String) (warnings : List String) (minFree : ℕ)
  | go (now : ℚ)
  | wake (free : ℕ) (now : ℚ) (outcome : StopOutcome)
  | captures (captured : Captured)
  | finalizes (integrity : String)
  deriving DecidableEq

inductive RecorderAnswer where
  | nothing
  | raised (error : HttpError)
  | stopped (bagName : Option String)
  | start (answer : StartAnswer)
  deriving DecidableEq

namespace Recorder

/-- `_after_stop`, called with what the stop left. -/
def afterStop (pending : Option Pending) : List Task := pending.toList.map .capture

def startFailedError : HttpError :=
  ⟨500, "記録を開始できませんでした（ROS 環境と rosbag2 の mcap プラグインを確認してください）"⟩

/-- The first section of a request. -/
def arrive (s : Recorder) : RecorderEvent → Recorder × List Task × RecorderAnswer
  | .start trial =>
    match s.reserveStart with
    | .ok s => (s, [.prepare trial], .nothing)
    | .error error => (s, [], .raised error)
  | .stop now outcome =>
    if s.recording then
      let name := s.bagName
      let reason := if s.mode = some .classroom then .userStopped else .stopped
      let (s, pending) := s.stopLocked reason now outcome
      (s, afterStop pending, .stopped name)
    else (s, [], .raised ⟨409, "記録していません"⟩)
  | .status now maxDuration =>
    if s.exitedUnnoticed then
      let reason := s.lastStopReason.getD (s.exitReason maxDuration now)
      let (s, pending) := s.stopLocked reason now .killed
      (s, afterStop pending, .nothing)
    else (s, [], .nothing)
  | .shutdown now outcome =>
    if s.recording then
      let (s, pending) := s.stopLocked .shutdown now outcome
      (s, afterStop pending, .nothing)
    else (s, [], .nothing)
  | .exits r code => (s.exits r code, [], .nothing)

/-- A wake-up of the disk watcher. -/
def watchDisk (s : Recorder) (r minFree free : ℕ) (now : ℚ) (outcome : StopOutcome) :
    Recorder × List Task :=
  if !s.recording then (s, [])
  else if minFree = 0 ∨ minFree ≤ free then (s, [.watch r minFree])
  else
    let (s, pending) := s.stopLocked .autoStoppedLowDisk now outcome
    (s, afterStop pending)

/-- The next move of a thread; one that is waiting for something else waits on. -/
def run (s : Recorder) (t : Task) (c : Chances) : Recorder × List Task × RecorderAnswer :=
  match t, c with
  | .prepare _, .refuse error => (s, [.release (.raised error)], .nothing)
  | .prepare trial, .popen bagName staging warnings minFree =>
    let r := s.procs.length
    let ctx := trial.map fun metadata => ⟨r, metadata, bagName, staging, warnings⟩
    (s.popen, [.spawned r bagName ctx minFree], .nothing)
  | .spawned r bagName ctx minFree, .go _ =>
    if s.running r then (s, [.publish r bagName ctx minFree], .nothing)
    else (s, [.fail], .nothing)
  | .fail, .go _ =>
    ({ s with lastStopReason := some .startFailed, lastFinalizeReason := none },
      [.release (.raised startFailedError)], .nothing)
  | .publish r bagName ctx minFree, .go now =>
    (s.publish r bagName ctx now, [.watch r minFree, .release (.started ctx)], .nothing)
  | .release answer, .go _ => ({ s with starting := false }, [], .start answer)
  | .watch r minFree, .wake free now outcome =>
    let (s, tasks) := s.watchDisk r minFree free now outcome
    (s, tasks, .nothing)
  | .capture pending, .captures captured =>
    ({ s with capturing := false }, [.captured pending captured], .nothing)
  | .captured pending captured, .go _ =>
    ({ s with finalizeThread := some pending.ctx }, [.finalize pending captured], .nothing)
  | .finalize pending captured, .finalizes integrity =>
    ({ s with finalized := s.finalized ++ [⟨pending, captured, integrity⟩] }, [], .nothing)
  | t, _ => (s, [t], .nothing)

/-- The module with everything that uses it. -/
def program : Program Recorder Task RecorderEvent Chances RecorderAnswer := ⟨arrive, run⟩

end Recorder

end Questix.RobotManager
