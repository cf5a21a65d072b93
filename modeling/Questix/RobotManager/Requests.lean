/-
Questix.RobotManager.Requests — the requests that change the saved mode or use
the teacher's switches: `/api/mode`, `/api/service`, `/api/stop-all`
(`app.py`), `/api/actuation` and the lesson permissions of `lab.py`.

A request is a thread. Each of its sections under the lock of the switches is
one move, and so are each look at the saved or the running mode and the write
of the mode file; requests that use the lock of the lessons as well are not
held back by it here, so more orders are allowed than there are. The running
mode may change at any time, and the heartbeat may exit.

Of the bridge of the lessons it matters only that its exit is noticed, which
takes the lesson permissions back. Left out are the service itself, the
settings of the lessons, and what the requests answer beside their errors and
the switches.
-/
import Questix.Lib.Pool
import Questix.RobotManager.Actuation

namespace Questix.RobotManager

open Questix.Lib

/-! ## Requests -/

/-- `ModeRequest` -/
inductive ModeRequest where
  | lesson
  | practice
  | competition
  deriving DecidableEq, Repr

def ModeRequest.mode : ModeRequest → String
  | .lesson => modes.LESSON
  | .practice => modes.PRACTICE
  | .competition => modes.COMPETITION

/-- The action of `/api/service`. -/
inductive ServiceAction where
  | start
  | stop
  | restart
  deriving DecidableEq, Repr

def ServiceAction.text : ServiceAction → String
  | .start => "start"
  | .stop => "stop"
  | .restart => "restart"

/-- A request that takes the switches back first. -/
inductive Revoker where
  | mode (req : ModeRequest)
  | service (action : ServiceAction)
  | stopAll
  deriving DecidableEq, Repr

def Revoker.reason : Revoker → String
  | .mode req => "mode_" ++ req.mode
  | .service action => "service_" ++ action.text
  | .stopAll => "stop_all"

inductive Request where
  | revoker (r : Revoker)
  | authority (kind : Kind) (allow : Bool)
  | lab (kind : Kind) (allow : Bool)
  deriving DecidableEq, Repr

def Kind.key : Kind → String
  | .drive => "drive"
  | .launcher => "launcher"

theorem kindOf_key (kind : Kind) : kindOf kind.key = some kind := by
  cases kind <;> rfl

/-- What `_set_permission` says cannot be done outside lesson mode. -/
def Kind.unavailableWhat : Kind → String
  | .drive => "教材から走らせられません"
  | .launcher => "教材から発射させられません"

/-- `_unavailable_detail` -/
def unavailableDetail (mode what : String) : String :=
  (modes.LABELS mode).getD "今のモード" ++ "では" ++ what ++ "（教材モードに切り替えると使えます）"

def notLessonLaunch : String :=
  "教材モードで起動（再起動）したロボットでだけ使えます（いま動いている構成が教材用ではありません）"

/-! ## The manager -/

/-- The switches, the saved and the running mode. Not in the source: the clock,
one tick for each request that begins and each that ends; when the last
mode, service or stop-all request ended; and when the request began that
switched a switch or a permission on. -/
structure Manager where
  actuation : Actuation := {}
  mode : String
  running : Option String
  clock : ℕ := 0
  revoked : Option ℕ := none
  since : Kind → ℕ := fun _ => 0
  labSince : Kind → ℕ := fun _ => 0

/-- What a request does next; `began` is when it began. -/
inductive Work where
  | ask (r : Revoker)  -- the running mode, for `revoke_all`
  | revoke (r : Revoker) (running : Option String)
  | readMode (req : ModeRequest)
  | writeMode (req : ModeRequest) (previous : String)
  | takeLab (look : Bool)
  | lookBridge
  | finish (error : Option HttpError)
  | authority (kind : Kind) (allow : Bool) (began : ℕ)
  | authorityMode (kind : Kind) (running : Option String) (began : ℕ)
  | authorityOn (kind : Kind) (running : Option String) (began : ℕ)
  | authorityOff (kind : Kind) (running : Option String)
  | lab (kind : Kind) (began : ℕ)
  | labUnavailable (kind : Kind)
  | labRunning (kind : Kind) (began : ℕ)
  | labMode (kind : Kind) (running : Option String) (began : ℕ)
  | labReap (kind : Kind) (allow : Bool) (began : ℕ)
  | labSet (kind : Kind) (allow : Bool) (began : ℕ)
  | labPayload  -- `_status_payload`
  | labAvailable
  | labPermissions (available : Bool)
  | labAllowed (looks : ℕ) (permissions : List Kind)
  deriving DecidableEq

/-- What the environment decides in a move: what becomes of the heartbeat, of
the write of the mode file, and of the bridge. -/
structure Luck where
  chance : Chance := {}
  refused : Option String := none
  bridgeExited : Bool := false

inductive ManagerEvent where
  | request (r : Request)
  | running (mode : Option String)
  | heartbeatExits (code : ℤ)

inductive Answer where
  | nothing
  | revoked (error : Option HttpError)
  | authority (answer : Except HttpError Status)
  | lab (answer : Except HttpError (List Kind))

namespace Manager

def reads (m : Manager) : ModeReads := ⟨m.mode, m.mode, m.mode⟩

/-- The move switches the switch of the kind on. -/
def authorityGoesOn (m : Manager) (kind : Kind) (running : Option String) (chance : Chance) :
    Bool :=
  !(m.actuation.reap chance).1.authority kind &&
    (m.actuation.authorityOn kind running m.reads chance).1.authority kind

/-- The move switches the lesson permission of the kind on. -/
def labGoesOn (m : Manager) (kind : Kind) (allow : Bool) (chance : Chance) : Bool :=
  !(m.actuation.reap chance).1.lab kind && (m.actuation.setLab kind.key allow chance).1.lab kind

/-- `_reap_locked` of `lab.py` -/
def reapBridge (m : Manager) (luck : Luck) : Manager :=
  if luck.bridgeExited then { m with actuation := (m.actuation.revokeLab luck.chance).1 } else m

/-- A request begins, or something changes by itself. -/
def arrive (m : Manager) : ManagerEvent → Manager × List Work × Answer
  | .request (.revoker r) => ({ m with clock := m.clock + 1 }, [.ask r], .nothing)
  | .request (.authority kind allow) =>
    ({ m with clock := m.clock + 1 }, [.authority kind allow m.clock], .nothing)
  | .request (.lab kind allow) =>
    ({ m with clock := m.clock + 1 },
      [if allow then .lab kind m.clock else .labReap kind false m.clock], .nothing)
  | .running mode => ({ m with running := mode }, [], .nothing)
  | .heartbeatExits code => ({ m with actuation := m.actuation.exits code }, [], .nothing)

/-- The move after `revoke_all`. -/
def afterRevoke : Revoker → Work
  | .mode req => .readMode req
  | .service _ => .finish none
  | .stopAll => .takeLab false

/-- `set_mode` after the mode has been saved. -/
def afterMode (req : ModeRequest) (previous : String) : Work :=
  if !modes.usesLab req.mode then .takeLab true  -- disable_outside_lessons
  else if !modes.usesLab previous then .takeLab true  -- enable_for_lessons
  else .finish none

/-- The next move of a request. -/
def run (m : Manager) (w : Work) (luck : Luck) : Manager × List Work × Answer :=
  match w with
  | .ask r => (m, [.revoke r m.running], .nothing)
  | .revoke r running =>
    let (a, _, _) := m.actuation.revokeAll r.reason running m.reads luck.chance
    ({ m with actuation := a }, [afterRevoke r], .nothing)
  | .readMode req => (m, [.writeMode req m.mode], .nothing)
  | .writeMode req previous =>
    match luck.refused with
    | some detail => (m, [.finish (some ⟨403, detail⟩)], .nothing)
    | none => ({ m with mode := req.mode }, [afterMode req previous], .nothing)
  | .takeLab look =>
    ({ m with actuation := (m.actuation.revokeLab luck.chance).1 },
      [if look then .lookBridge else .finish none], .nothing)
  | .lookBridge => (m.reapBridge luck, [.finish none], .nothing)
  | .finish error =>
    ({ m with clock := m.clock + 1, revoked := some m.clock }, [], .revoked error)
  | .authority kind allow began =>
    (m, [if allow then .authorityMode kind m.running began else .authorityOff kind m.running],
      .nothing)
  | .authorityMode kind running began =>
    match Actuation.unavailable kind m.mode running with
    | some error => (m, [], .authority (.error error))
    | none => (m, [.authorityOn kind running began], .nothing)
  | .authorityOn kind running began =>
    let (a, answer) := m.actuation.authorityOn kind running m.reads luck.chance
    ({ m with
        actuation := a
        since := if m.authorityGoesOn kind running luck.chance then
          Function.update m.since kind began else m.since },
      [], .authority answer)
  | .authorityOff kind running =>
    let (a, status) := m.actuation.authorityOff kind running m.reads luck.chance
    ({ m with actuation := a }, [], .authority (.ok status))
  | .lab kind began =>
    (m, [if modes.usesLab m.mode then .labRunning kind began else .labUnavailable kind], .nothing)
  | .labUnavailable kind =>
    (m, [], .lab (.error ⟨409, unavailableDetail m.mode kind.unavailableWhat⟩))
  | .labRunning kind began => (m, [.labMode kind m.running began], .nothing)
  | .labMode kind running began =>
    if switchesAvailable m.mode running then (m, [.labReap kind true began], .nothing)
    else (m, [], .lab (.error ⟨409, notLessonLaunch⟩))
  | .labReap kind allow began => (m.reapBridge luck, [.labSet kind allow began], .nothing)
  | .labSet kind allow began =>
    let labSince := if m.labGoesOn kind allow luck.chance then
      Function.update m.labSince kind began else m.labSince
    match m.actuation.setLab kind.key allow luck.chance with
    | (a, .error error) => ({ m with actuation := a, labSince := labSince }, [], .lab (.error error))
    | (a, .ok _) => ({ m with actuation := a, labSince := labSince }, [.labPayload], .nothing)
  | .labPayload => (m.reapBridge luck, [.labAvailable], .nothing)
  | .labAvailable => (m, [.labPermissions (modes.usesLab m.mode)], .nothing)
  | .labPermissions available =>
    let (a, _) := m.actuation.reap luck.chance
    ({ m with actuation := a },
      [.labAllowed 2 (kinds.filter fun kind => a.lab kind && available)], .nothing)
  | .labAllowed 0 permissions => (m, [], .lab (.ok permissions))
  | .labAllowed (looks + 1) permissions =>
    ({ m with actuation := (m.actuation.reap luck.chance).1 }, [.labAllowed looks permissions],
      .nothing)

def program : Program Manager Work ManagerEvent Luck Answer := ⟨arrive, run⟩

/-- The manager has just started: everything is off. -/
def start (mode : String) (running : Option String) : Pool Manager Work :=
  ⟨{ mode := mode, running := running }, 0⟩

end Manager

end Questix.RobotManager
