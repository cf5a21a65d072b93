/-
Questix.RobotManager.Actuation — the teacher's permission switches:
`actuation.py`, and what it uses of `modes.py`.

Each function is given what it looks up outside the module (the running mode,
the saved mode) and a `Chance`, what becomes of the heartbeat process while the
lock is held. A process that has exited does not read its pipe any more, so a
write to it fails. The lines go to the process one at a time; it is kept only
as far as the last one.

Left out are what builds the command of the heartbeat (a `Chance` says whether
it starts) and the file of the saved mode, of which the text is taken.
-/
import Mathlib.Data.Finset.Insert
import Mathlib.Data.Fintype.Defs
import Mathlib.Data.Rat.Defs
import Mathlib.Tactic.Common

namespace Questix.RobotManager

/-! ## Modes -/

namespace modes

def LESSON : String := "lesson"
def PRACTICE : String := "practice"
def COMPETITION : String := "competition"

def NAMES (mode : String) : Option String :=
  if mode = LESSON then some "教材用"
  else if mode = PRACTICE then some "練習用"
  else if mode = COMPETITION then some "大会用"
  else none

def LABELS (mode : String) : Option String :=
  if mode = LESSON then some "教材モード"
  else if mode = PRACTICE then some "練習モード"
  else if mode = COMPETITION then some "大会モード"
  else none

def usesLab (mode : String) : Bool := mode = LESSON

def usesTeacherPermission (mode : String) : Bool := mode = LESSON

end modes

/-! ## The switches -/

inductive Kind where
  | drive
  | launcher
  deriving DecidableEq, Repr

instance : Fintype Kind := ⟨{.drive, .launcher}, fun kind => by cases kind <;> simp⟩

/-- `KINDS` -/
def kinds : List Kind := [.drive, .launcher]

theorem mem_kinds (kind : Kind) : kind ∈ kinds := by
  cases kind <;> simp [kinds]

/-- The kind of a request, none for an unknown one. -/
def kindOf (kind : String) : Option Kind :=
  if kind = "drive" then some .drive
  else if kind = "launcher" then some .launcher
  else none

/-- `_NAMES` -/
def Kind.name : Kind → String
  | .drive => "ロボットの走行制御"
  | .launcher => "発射機構の操作"

abbrev Switches := Kind → Bool

def allOff : Switches := fun _ => false

/-- One state line, as the heartbeat reads it. -/
structure Line where
  authority : Switches
  lab : Switches
  deriving DecidableEq

/-- The heartbeat process: the last line written to it, and its exit code once
it has exited. -/
structure Heartbeat where
  line : Option Line := none
  exited : Option ℤ := none
  deriving DecidableEq

structure HttpError where
  statusCode : ℕ
  detail : String
  deriving DecidableEq

/-- What becomes of starting a heartbeat. -/
inductive Start where
  | noCommand (error : HttpError)  -- ROS or the workspace is missing
  | osError (text : String)
  | exitsAtOnce
  | runs

/-- What happens to the heartbeat while the lock is held: how a start goes,
whether it exits just before it is written to, and whether a running one takes
the line. -/
structure Chance where
  start : Start := .runs
  dies : Option ℤ := none
  accepts : Bool := true

structure Actuation where
  authority : Switches := allOff
  lab : Switches := allOff
  proc : Option Heartbeat := none
  lastOffReason : Option String := none
  lastError : Option String := none
  failedWrites : ℕ := 0  -- not in the source: how many writes to a heartbeat have failed

/-- The answers of `_mode()` to the three questions of the status. -/
structure ModeReads where
  mode : String
  available : String
  competition : String

/-- `_status_locked` -/
structure Status where
  drive : Bool
  launcher : Bool
  labDrive : Bool
  labLauncher : Bool
  running : Bool
  mode : String
  runningMode : Option String
  available : Option Bool
  competition : Bool
  lastOffReason : Option String
  error : Option String
  leaseSec : ℚ := 1
  heartbeatHz : ℚ := 5
  transient : Bool := true

/-- Why a switch went off without the teacher asking. -/
def heartbeatExited : String := "heartbeat_exited"
def heartbeatWriteFailed : String := "heartbeat_write_failed"

def writeFailedError : String := "送信プロセスに許可を伝えられませんでした。もう一度ONにしてください"

def exitedError (code : ℤ) : String :=
  "送信プロセスが終了しました（終了コード " ++ toString code ++ "）。もう一度ONにしてください"

/-- The switches can be used: the robot runs a lesson launch, and lesson is
the saved mode. -/
def switchesAvailable (mode : String) (running : Option String) : Bool :=
  modes.usesTeacherPermission mode && modes.usesTeacherPermission (running.getD "")

namespace Actuation

/-! ### The heartbeat -/

def anyOn (a : Actuation) : Bool := kinds.any a.authority

/-- The line the heartbeat publishes. -/
def heartbeatState (a : Actuation) : Line where
  authority := a.authority
  lab kind := a.lab kind && a.authority kind

/-- `_send_locked` -/
def send (a : Actuation) (chance : Chance) : Actuation × Bool :=
  match a.proc with
  | none => (a, false)
  | some proc =>
    let proc := { proc with exited := proc.exited.orElse fun _ => chance.dies }
    if proc.exited.isNone && chance.accepts then
      ({ a with proc := some { proc with line := some a.heartbeatState } }, true)
    else ({ a with proc := some proc, failedWrites := a.failedWrites + 1 }, false)

/-- `_stop_heartbeat_locked` -/
def stopHeartbeat (a : Actuation) : Actuation := { a with proc := none }

/-- Everything goes off with a heartbeat that could not be told. -/
def writeFailed (a : Actuation) : Actuation :=
  { stopHeartbeat { a with authority := allOff, lab := allOff } with
    lastOffReason := some heartbeatWriteFailed
    lastError := some writeFailedError }

/-- `_off_locked`: the kinds that were on go with the answer. -/
def off (a : Actuation) (which : List Kind) (reason : String) (chance : Chance) :
    Actuation × List Kind :=
  let wasOn := which.filter a.authority
  let labWasOn := which.any a.lab
  let a :=
    { a with
      authority := fun kind => if kind ∈ which then false else a.authority kind
      lab := fun kind => if kind ∈ which then false else a.lab kind
      lastOffReason := if wasOn ≠ [] then some reason else a.lastOffReason }
  if !a.anyOn then (a.stopHeartbeat, wasOn)
  else if wasOn ≠ [] ∨ labWasOn = true then
    match a.send chance with
    | (a, true) => (a, wasOn)
    | (a, false) => (a.writeFailed, wasOn)
  else (a, wasOn)

/-- `_reap_locked`: a heartbeat that exited on its own switches all off. -/
def reap (a : Actuation) (chance : Chance) : Actuation × List Kind :=
  match a.proc.bind Heartbeat.exited with
  | none => (a, [])
  | some code =>
    off { a with proc := none, lastError := some (exitedError code) } kinds heartbeatExited chance

/-- `_status_locked` -/
def statusLocked (a : Actuation) (running : Option String) (known : Bool) (reads : ModeReads) :
    Status where
  drive := a.authority .drive
  launcher := a.authority .launcher
  labDrive := a.lab .drive
  labLauncher := a.lab .launcher
  running := a.proc.isSome
  mode := reads.mode
  runningMode := if known then running else none
  available := if known then some (switchesAvailable reads.available running) else none
  competition := reads.competition = modes.COMPETITION
  lastOffReason := a.lastOffReason
  error := a.lastError

/-! ### Lesson permissions -/

/-- `set_lab` -/
def setLab (a : Actuation) (kind : String) (allow : Bool) (chance : Chance) :
    Actuation × Except HttpError Switches :=
  match kindOf kind with
  | none => (a, .error ⟨404, "unknown permission"⟩)
  | some kind =>
    let (a, _) := a.reap chance
    if allow && !a.authority kind then
      (a, .error ⟨409, "先に「操作」タブで「" ++ kind.name ++ "」をONにしてください"⟩)
    else if a.lab kind ≠ allow then
      match ({ a with lab := Function.update a.lab kind allow } : Actuation).send chance with
      | (a, true) => (a, .ok a.lab)
      | (a, false) =>
        let a := a.writeFailed
        (a, if allow then .error ⟨503, writeFailedError⟩ else .ok a.lab)
    else (a, .ok a.lab)

/-- `revoke_lab` -/
def revokeLab (a : Actuation) (chance : Chance) : Actuation × Bool :=
  let wasOn := kinds.any a.lab
  let a := { a with lab := allOff }
  if wasOn then
    match a.send chance with
    | (a, true) => (a, true)
    | (a, false) => (a.writeFailed, true)
  else (a, false)

/-! ### The switches -/

/-- The heartbeat that the switch needs, started if there is none. -/
def startHeartbeat (a : Actuation) (chance : Chance) : Actuation × Option HttpError :=
  match a.proc with
  | some _ => (a, none)
  | none =>
    match chance.start with
    | .noCommand error => ({ a with lastError := some error.detail }, some error)
    | .osError text =>
      let error := "送信プロセスを起動できません: " ++ text
      ({ a with lastError := some error }, some ⟨503, error⟩)
    | .exitsAtOnce =>
      let error := "送信プロセスがすぐに終了しました（ROS 環境と questix_msgs の" ++
        "ビルドを確認してください）"
      ({ a with lastError := some error }, some ⟨503, error⟩)
    | .runs => ({ a with proc := some {} }, none)

/-- `_switch_on_locked` -/
def switchOn (a : Actuation) (kind : Kind) (running : Option String) (reads : ModeReads)
    (chance : Chance) : Actuation × Except HttpError Status :=
  match a.startHeartbeat chance with
  | (a, some error) => (a, .error error)
  | (a, none) =>
    match ({ a with authority := Function.update a.authority kind true } : Actuation).send chance with
    | (a, true) =>
      let a := { a with lastError := none }
      (a, .ok (a.statusLocked running true reads))
    | (a, false) => (a.writeFailed, .error ⟨503, writeFailedError⟩)

/-- Why a switch cannot be used with the saved and the running mode. -/
def unavailable (kind : Kind) (mode : String) (running : Option String) : Option HttpError :=
  if !modes.usesTeacherPermission mode then
    some ⟨409, (modes.LABELS mode).getD "今のモード" ++ "では" ++ kind.name ++
      "の許可は使いません（先生の許可は教材モードだけで使います）"⟩
  else if !modes.usesTeacherPermission (running.getD "") then
    let now :=
      match running with
      | none => "ロボット制御が止まっています"
      | some running => "いまは" ++ (modes.NAMES running).getD "別" ++ "の構成で動いています"
    some ⟨409, now ++ "。" ++ kind.name ++ "の許可は、教材モードで起動（再起動）してから使えます"⟩
  else none

/-- What `set_authority` does with the lock, off. -/
def authorityOff (a : Actuation) (kind : Kind) (running : Option String) (reads : ModeReads)
    (chance : Chance) : Actuation × Status :=
  let (a, _) := a.reap chance
  let (a, _) := a.off [kind] "teacher" chance
  (a, a.statusLocked running true reads)

/-- What `set_authority` does with the lock, on. -/
def authorityOn (a : Actuation) (kind : Kind) (running : Option String) (reads : ModeReads)
    (chance : Chance) : Actuation × Except HttpError Status :=
  let (a, _) := a.reap chance
  a.switchOn kind running reads chance

/-- `set_authority` -/
def setAuthority (a : Actuation) (kind : String) (allow : Bool) (running : Option String)
    (mode : String) (reads : ModeReads) (chance : Chance) : Actuation × Except HttpError Status :=
  match kindOf kind with
  | none => (a, .error ⟨404, "unknown authority"⟩)
  | some kind =>
    if !allow then
      let (a, status) := a.authorityOff kind running reads chance
      (a, .ok status)
    else
      match unavailable kind mode running with
      | some error => (a, .error error)
      | none => a.authorityOn kind running reads chance

/-- `revoke_all`: the kinds that were on go with the status. -/
def revokeAll (a : Actuation) (reason : String) (running : Option String) (reads : ModeReads)
    (chance : Chance) : Actuation × Status × List Kind :=
  let (a, reaped) := a.reap chance
  let (a, revoked) := a.off kinds reason chance
  (a, a.statusLocked running true reads, kinds.filter fun kind => kind ∈ revoked ∨ kind ∈ reaped)

/-- `status` -/
def status (a : Actuation) (running : Option String) (withRunningMode : Bool) (reads : ModeReads)
    (chance : Chance) : Actuation × Status :=
  let (a, _) := a.reap chance
  (a, a.statusLocked (if withRunningMode then running else none) withRunningMode reads)

/-- The heartbeat exits. -/
def exits (a : Actuation) (code : ℤ) : Actuation :=
  { a with proc := a.proc.map fun proc => { proc with exited := proc.exited.orElse fun _ => code } }

end Actuation

/-! ## Calls -/

/-- The calls of the module, with what they look up. -/
inductive Call where
  | setAuthority (kind : String) (allow : Bool) (running : Option String) (mode : String)
      (reads : ModeReads)
  | setLab (kind : String) (allow : Bool)
  | revokeLab
  | revokeAll (reason : String) (running : Option String) (reads : ModeReads)
  | status (running : Option String) (withRunningMode : Bool) (reads : ModeReads)

/-- A call, or an exit of the heartbeat between two calls. -/
inductive ActuationEvent where
  | call (c : Call) (chance : Chance)
  | exits (code : ℤ)

inductive Reply where
  | status (status : Status)
  | permissions (lab : Switches)
  | wasOn (wasOn : Bool)
  | revoked (status : Status) (kinds : List Kind)
  | raised (error : HttpError)
  | nothing

namespace Actuation

def call (a : Actuation) (chance : Chance) : Call → Actuation × Reply
  | .setAuthority kind allow running mode reads =>
    match a.setAuthority kind allow running mode reads chance with
    | (a, .ok status) => (a, .status status)
    | (a, .error error) => (a, .raised error)
  | .setLab kind allow =>
    match a.setLab kind allow chance with
    | (a, .ok lab) => (a, .permissions lab)
    | (a, .error error) => (a, .raised error)
  | .revokeLab =>
    let (a, wasOn) := a.revokeLab chance
    (a, .wasOn wasOn)
  | .revokeAll reason running reads =>
    let (a, status, revoked) := a.revokeAll reason running reads chance
    (a, .revoked status revoked)
  | .status running withRunningMode reads =>
    let (a, status) := a.status running withRunningMode reads chance
    (a, .status status)

def step (a : Actuation) : ActuationEvent → Actuation × Reply
  | .call c chance => a.call chance c
  | .exits code => (a.exits code, .nothing)

end Actuation

end Questix.RobotManager
