/-
Questix.RobotManager.StartRequest — the start request that the manager
(`app.py`) leaves for the launcher (`questix_robot_launcher.sh`).

The requests of the manager are threads, the run of the launcher is one more
party; each write, look, field that is read and deletion is a move of its own.
A launcher may be started whenever none runs (by the manager's `systemctl`, at
power-on, by hand, after a failure: systemd runs one at a time) and may be
stopped at any point. `systemctl` comes back with any outcome, at any time.

A boot id is the number of the boot, none where it cannot be read. The text of
the mode file is taken without white space, and as practice where there is no
file. Left out are what a launch is given besides its mode, the record of the
last launch, and what the manager finds out after the launcher has taken the
request.
-/
import Questix.Lib.Pool
import Questix.RobotManager.Requests

namespace Questix.RobotManager.StartStop

open Questix.Lib

/-- The file `start-request`. Not in it: the boot in which it was written, and
which one it is of all that have been written. -/
structure StartRequest where
  mode : String
  requestedAt : ℤ
  bootId : Option ℕ
  boot : ℕ
  id : ℕ
  deriving DecidableEq

/-- A launch, with the request that the launcher deleted before it. -/
structure Launch where
  mode : String
  boot : ℕ
  consumed : Option StartRequest
  deriving DecidableEq

/-! ## The launcher -/

/-- A run of the launcher, by what it does next. -/
inductive Script where
  | start
  | look (mode : String)
  | readMode (mode : String)
  | readAt (mode requestedMode : String)
  | readBoot (mode requestedMode : String) (requestedAt : Option ℤ)
  | check (mode requestedMode : String) (requestedAt : Option ℤ) (requestedBoot : Option ℕ)
  | drop  -- delete the request and exit
  | consume (mode : String)
  | confirm (mode : String) (consumed : Option StartRequest)
  | clear (mode : String)  -- a competition launch drops a leftover request
  | launch (mode : String) (consumed : Option StartRequest)
  | launched (mode : String)
  deriving DecidableEq

/-- `modes.STARTED_ON_REQUEST` -/
def startedOnRequest (mode : String) : Bool := mode = modes.LESSON ∨ mode = modes.PRACTICE

def START_REQUEST_MAX_AGE_SEC : ℤ := 120

/-- `start_request_problem` with what it has read; none when the request can
start a launch. -/
def startRequestProblem (mode requestedMode : String) (requestedAt : Option ℤ)
    (requestedBoot bootId : Option ℕ) (now : ℤ) : Option String :=
  if requestedMode ≠ mode then
    some ("the start request asks for mode '" ++ requestedMode ++ "'")
  else
    match requestedAt with
    | none => some "the start request has no valid time"
    | some at_ =>
      if at_ < 0 then some "the start request has no valid time"
      else if requestedBoot = none ∨ requestedBoot ≠ bootId then
        some "the start request is from an earlier boot"
      else
        let age := now - at_
        if age > START_REQUEST_MAX_AGE_SEC ∨ age < -5 then
          some ("the start request is " ++ toString age ++ " s old (limit " ++
            toString START_REQUEST_MAX_AGE_SEC ++ " s)")
        else none

/-! ## The robot -/

/-- The disk, the boot, and the parties; `launches` and `written` are what has
happened. -/
structure Robot where
  mode : String
  request : Option StartRequest := none
  boot : ℕ := 0
  manager : Bool := false
  script : Option Script := none
  launches : List Launch := []
  written : ℕ := 0

/-- What a request to the manager does next. -/
inductive Work where
  | readMode (action : ServiceAction)
  | write (action : ServiceAction) (mode : String)
  | systemctl (action : ServiceAction) (mode : String) (requested : Bool)
  | pickup (mode : String)
  | giveUp (mode : String)
  | fail (error : HttpError)
  | settle
  | stop  -- `_stop_service`
  | stopService
  deriving DecidableEq

/-- What the environment decides in a move: the time, whether the boot id can
be read, an error, whether the waiting is over, and whether a file cannot be
deleted. -/
structure Luck where
  now : ℤ := 0
  bootIdReadable : Bool := true
  error : Option HttpError := none
  timeUp : Bool := false
  undeletable : Bool := false

inductive Answer where
  | nothing
  | raised (error : HttpError)
  | notTaken (message : String)
  | settled
  | stopped (error : Option HttpError)

namespace Robot

/-- The boot id as it is read. -/
def bootId (s : Robot) (luck : Luck) : Option ℕ := if luck.bootIdReadable then some s.boot else none

/-- `_remove_start_request`, or `rm -f` in the launcher. -/
def remove (s : Robot) (luck : Luck) : Robot :=
  if luck.undeletable then s else { s with request := none }

/-- `_write_start_request` -/
def write (s : Robot) (mode : String) (luck : Luck) : Robot :=
  { s with
    request := some ⟨mode, luck.now, s.bootId luck, s.boot, s.written⟩
    written := s.written + 1 }

/-- What `rm -f` takes away. -/
def taken (s : Robot) (luck : Luck) : Option StartRequest :=
  if luck.undeletable then none else s.request

/-- The next move of the launcher; an error ends it. -/
def runScript (s : Robot) (luck : Luck) : Robot :=
  match s.script with
  | none => s
  | some script =>
    if luck.error.isSome then { s with script := none }
    else
      match script with
      | .start =>
        if s.mode = modes.COMPETITION then { s with script := some (.clear s.mode) }
        else if startedOnRequest s.mode then { s with script := some (.look s.mode) }
        else { s with script := some .drop }
      | .look mode =>
        if s.request.isSome then { s with script := some (.readMode mode) }
        else { s with script := some .drop }
      | .readMode mode =>
        { s with script := some (.readAt mode ((s.request.map StartRequest.mode).getD "")) }
      | .readAt mode requestedMode =>
        { s with script := some (.readBoot mode requestedMode (s.request.map (·.requestedAt))) }
      | .readBoot mode requestedMode requestedAt =>
        { s with
          script := some (.check mode requestedMode requestedAt (s.request.bind (·.bootId))) }
      | .check mode requestedMode requestedAt requestedBoot =>
        match startRequestProblem mode requestedMode requestedAt requestedBoot (s.bootId luck)
          luck.now with
        | some _ => { s with script := some .drop }
        | none => { s with script := some (.consume mode) }
      | .drop => { s.remove luck with script := none }
      | .consume mode =>
        if luck.undeletable then { s with script := none }
        else { s.remove luck with script := some (.confirm mode (s.taken luck)) }
      | .confirm mode consumed =>
        if s.request.isSome then { s with script := none }
        else { s with script := some (.launch mode consumed) }
      | .clear mode => { s.remove luck with script := some (.launch mode (s.taken luck)) }
      | .launch mode consumed =>
        { s with
          script := some (.launched mode)
          launches := s.launches ++ [⟨mode, s.boot, consumed⟩] }
      | .launched _ => s

/-! ## The manager -/

/-- A request comes in, if the manager runs. -/
def arrive (s : Robot) (action : ServiceAction) : Robot × List Work × Answer :=
  if s.manager then
    match action with
    | .stop => (s, [.stop], .nothing)
    | .start => (s, [.readMode .start], .nothing)
    | .restart => (s, [.readMode .restart], .nothing)
  else (s, [], .nothing)

def notTakenMessage (mode : String) : String :=
  "起動できませんでした：ロボットの起動スクリプトが" ++ (modes.LABELS mode).getD "" ++
    "の起動に対応していないか、応答がありません。担当者に起動スクリプトの更新" ++
    "（scripts/install-robot-manager.sh の再実行）を依頼してください。"

/-- The next move of a request. -/
def run (s : Robot) (w : Work) (luck : Luck) : Robot × List Work × Answer :=
  match w with
  | .readMode action =>
    (s, [if startedOnRequest s.mode then .write action s.mode
      else .systemctl action s.mode false], .nothing)
  | .write action mode =>
    match luck.error with
    | some error => (s, [], .raised error)
    | none => (s.write mode luck, [.systemctl action mode true], .nothing)
  | .systemctl _ mode requested =>
    match luck.error with
    | some error => if requested then (s, [.fail error], .nothing) else (s, [], .raised error)
    | none => (s, [if requested then .pickup mode else .settle], .nothing)
  | .pickup mode =>
    if s.request = none then (s, [.settle], .nothing)
    else (s, [if luck.timeUp then .giveUp mode else .pickup mode], .nothing)
  | .giveUp mode => (s.remove luck, [], .notTaken (notTakenMessage mode))
  | .fail error => (s.remove luck, [], .raised error)
  | .settle => (s, [], .settled)
  | .stop => (s.remove luck, [.stopService], .nothing)
  | .stopService => (s, [], .stopped luck.error)

/-- The manager's requests; a stop-all is a stop as far as the start request
goes. -/
def program : Program Robot Work ServiceAction Luck Answer := ⟨arrive, run⟩

end Robot

/-! ## All together -/

inductive Event where
  | request (x : PoolEvent ServiceAction Work Luck)
  | managerStarts (luck : Luck)
  | managerStops
  | scriptStarts
  | script (luck : Luck)
  | scriptEnds  -- it is stopped, or the launch ends
  | saveMode (mode : String)
  | reboot

/-- A manager that starts removes a leftover request before it takes any, and
one that ends takes its requests with it. -/
def step (p : Pool Robot Work) : Event → Pool Robot Work × Option Answer
  | .request x => Robot.program.step p x
  | .managerStarts luck => (⟨{ p.shared.remove luck with manager := true }, 0⟩, none)
  | .managerStops => (⟨{ p.shared with manager := false }, 0⟩, none)
  | .scriptStarts =>
    (⟨{ p.shared with script := some (p.shared.script.getD .start) }, p.threads⟩, none)
  | .script luck => (⟨p.shared.runScript luck, p.threads⟩, none)
  | .scriptEnds => (⟨{ p.shared with script := none }, p.threads⟩, none)
  | .saveMode mode => (⟨{ p.shared with mode := mode }, p.threads⟩, none)
  | .reboot =>
    (⟨{ p.shared with boot := p.shared.boot + 1, manager := false, script := none }, 0⟩, none)

end Questix.RobotManager.StartStop
