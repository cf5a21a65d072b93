/-
Questix.Blockly.Bridge — the node that runs plans of Blockly and passes a
controller on (`questix_blockly/scripts/bridge.py`).

What the node reads of the clock is part of an event: `now`, and for a tick and
a command `readyAt`, the later reading in `ready`. A handler holds the lock, so
events come one after another. Messages that are published are the output, with
the answer to a command. An integer too large for a float raises another
exception than the one below; it is refused all the same.
-/
import Mathlib.Data.Finset.Card
import Mathlib.Data.Finset.Insert
import Questix.Lib.Json
import Questix.Lib.Trace

namespace Questix.Blockly

open Questix.Lib

/-! ## Plans -/

structure PlanStep where
  v : ℚ
  w : ℚ
  seconds : ℚ
  deriving DecidableEq

/-- A number that is a float or an integer, not a boolean, and finite. -/
def finiteNumber : Json → Option ℚ
  | .int n => some n
  | .float (.fin q) => some q
  | _ => none

/-- `x = step[field]`, at most `limit` either way. -/
def planField (members : List (List Char × Json)) (field : String) (limit : ℚ) :
    Except String ℚ :=
  match finiteNumber (Json.get members field.toList) with
  | none => .error (field ++ " が範囲外です")
  | some x => if |x| ≤ limit then .ok x else .error (field ++ " が範囲外です")

def planStep : Json → Except String PlanStep
  | .obj members =>
    if (members.map Prod.fst).toFinset = {"v".toList, "w".toList, "seconds".toList} then do
      let v ← planField members "v" (4 / 5)
      let w ← planField members "w" (3 / 2)
      let seconds ← planField members "seconds" 10
      if seconds < 1 / 10 then .error "時間は0.1〜10秒にしてください"
      else .ok ⟨v, w, seconds⟩
    else .error "動作の形式が不正です"
  | _ => .error "動作の形式が不正です"

def validatePlan : Json → Except String (List PlanStep)
  | .arr items =>
    if 1 ≤ items.length ∧ items.length ≤ 200 then do
      let result ← items.mapM planStep
      if 120 < (result.map PlanStep.seconds).sum then .error "合計時間は120秒以内にしてください"
      else .ok result
    else .error "動作は1〜200個にしてください"
  | _ => .error "動作は1〜200個にしてください"

/-! ## The node -/

inductive Mode where
  | blockly
  | controller
  deriving DecidableEq

structure Joy where
  axes : List Dbl
  buttons : List ℤ
  deriving DecidableEq

structure Pose where
  x : Dbl
  y : Dbl
  yaw : Dbl
  v : Dbl
  w : Dbl
  deriving DecidableEq

structure Bridge where
  mode : Mode := .blockly
  controllerArmed : Bool := false
  controllerNeutral : Bool := false
  lastController : ℚ := 0
  controllerMsg : Option Joy := none
  pose : Pose := ⟨0, 0, 0, 0, 0⟩
  lastOdom : ℚ := 0
  plan : List PlanStep := []
  runId : List Char := []
  cancelled : Finset (List Char) := ∅
  index : ℤ := 0
  deadline : ℚ := 0
  heartbeat : ℚ := 0
  reason : String := "待機中"

/-- `LINEAR_SCALE` and `ANGULAR_SCALE` -/
structure Scales where
  linear : ℚ
  angular : ℚ

structure Status where
  mode : Mode
  controllerArmed : Bool
  connected : Bool
  running : Bool
  id : List Char
  step : ℤ
  total : ℕ
  reason : String
  pose : Pose

/-- The paths of `do_POST`. -/
inductive Path where
  | mode
  | stop
  | heartbeat
  | run
  | other
  deriving DecidableEq

inductive Event where
  | controller (now : ℚ) (msg : Joy)
  | odom (now : ℚ) (pose : Pose)
  | tick (now readyAt : ℚ)
  | command (now readyAt : ℚ) (path : Path) (data : List (List Char × Json))

def Event.now : Event → ℚ
  | .controller now _ | .odom now _ | .tick now _ | .command now _ _ _ => now

structure Out where
  published : List Joy := []
  answer : Option (Except String Status) := none

/-- What is published for a speed. -/
def joyOf (scales : Scales) (v w : ℚ) (active : Bool) : Joy where
  axes := [0, .fin (v / scales.linear), .fin (w / scales.angular), 0, 0, 0]
  buttons := [if active then 1 else 0, if active then 0 else 1] ++ List.replicate 19 0

/-- `publish(0., 0., False)` -/
def halt (scales : Scales) : Joy := joyOf scales 0 0 false

/-- `ready()` -/
def Bridge.ready (s : Bridge) (readyAt : ℚ) : Bool := readyAt - s.lastOdom < 7 / 10

def Bridge.status (s : Bridge) (readyAt : ℚ) : Status where
  mode := s.mode
  controllerArmed := s.controllerArmed
  connected := s.ready readyAt
  running := s.plan ≠ []
  id := s.runId
  step := max 0 (s.index + 1)
  total := s.plan.length
  reason := s.reason
  pose := s.pose

/-- `stop(reason)`, but for what it publishes. -/
def Bridge.stop (s : Bridge) (reason : String) : Bridge :=
  { s with plan := [], controllerArmed := false, controllerNeutral := false, reason := reason }

/-! ## Messages and ticks -/

def validMsg (msg : Joy) : Bool :=
  3 ≤ msg.axes.length && 2 ≤ msg.buttons.length &&
    msg.axes.all fun x => x.isfinite && decide (x.abs ≤ 1)

def centred (msg : Joy) : Bool := (msg.axes.take 3).all fun x => decide (x.abs < .fin (1 / 20))

def startButton (msg : Joy) : Bool := msg.buttons.getD 0 0 ≠ 0
def stopButton (msg : Joy) : Bool := msg.buttons.getD 1 0 ≠ 0

def onController (s : Bridge) (now : ℚ) (msg : Joy) : Bridge :=
  if s.mode ≠ .controller then s
  else if !validMsg msg then
    { s with lastController := now, controllerArmed := false, controllerMsg := none }
  else
    let neutral := (s.controllerNeutral && !stopButton msg) || centred msg
    { s with
      lastController := now
      controllerNeutral := neutral
      controllerArmed := (s.controllerArmed && !stopButton msg) ||
        (neutral && centred msg && startButton msg && !stopButton msg)
      controllerMsg := some msg }

def onOdom (s : Bridge) (now : ℚ) (pose : Pose) : Bridge :=
  { s with pose := pose, lastOdom := now }

/-- A tick in controller mode: after a silence it disarms. -/
def tickController (scales : Scales) (s : Bridge) (now readyAt : ℚ) : Bridge × Out :=
  let s := if 1 / 2 < now - s.lastController ∨ s.ready readyAt = false then
    { s with controllerArmed := false, controllerNeutral := false } else s
  match s.controllerArmed, s.controllerMsg with
  | true, some msg => (s, { published := [msg] })
  | _, _ => (s, { published := [halt scales] })

/-- Publish the step that `index` names. -/
def publishStep (scales : Scales) (s : Bridge) (step : PlanStep) : Bridge × Out :=
  (s, { published := [joyOf scales step.v step.w true] })

def tickPlan (scales : Scales) (s : Bridge) (now readyAt : ℚ) : Bridge × Out :=
  if s.plan ≠ [] ∧ (6 / 5 < now - s.heartbeat ∨ s.ready readyAt = false) then
    (s.stop "通信が途切れたため停止しました", { published := [halt scales, halt scales] })
  else
    match s.plan with
    | [] => (s, { published := [halt scales] })
    | first :: rest =>
      if s.index = -1 then
        if now < s.deadline then (s, { published := [joyOf scales 0 0 true] })
        else publishStep scales { s with index := 0, deadline := now + first.seconds } first
      else if s.deadline ≤ now then
        match (first :: rest)[(s.index + 1).toNat]? with
        | none => ({ s with index := s.index + 1 }.stop "実行完了", { published := [halt scales] })
        | some step =>
          publishStep scales { s with index := s.index + 1, deadline := now + step.seconds } step
      else
        match (first :: rest)[s.index.toNat]? with
        | none => (s, {})
        | some step => publishStep scales s step

/-! ## Commands -/

def modeOf : Json → Option Mode
  | .str s => if s = "blockly".toList then some .blockly
    else if s = "controller".toList then some .controller else none
  | _ => none

def runIdOf : Json → Option (List Char)
  | .str s => if 1 ≤ s.length ∧ s.length ≤ 80 then some s else none
  | _ => none

def refuse (s : Bridge) (text : String) : Bridge × Out := (s, { answer := some (.error text) })

def answer (s : Bridge) (readyAt : ℚ) (published : List Joy) : Bridge × Out :=
  (s, { published := published, answer := some (.ok (s.status readyAt)) })

def changeMode (scales : Scales) (s : Bridge) (readyAt : ℚ) (data : List (List Char × Json)) :
    Bridge × Out :=
  match modeOf (Json.get data "mode".toList) with
  | none => refuse s "不明な操作元です"
  | some mode =>
    let cancelled := if s.runId ≠ [] then insert s.runId s.cancelled else s.cancelled
    answer { { s with cancelled := cancelled }.stop "操作元を切り替えました" with
      mode := mode, lastController := 0, controllerMsg := none } readyAt [halt scales]

def stopRun (scales : Scales) (s : Bridge) (readyAt : ℚ) (runId : List Char) : Bridge × Out :=
  if 10000 < s.cancelled.card then refuse s "サーバーを再起動してください"
  else
    let s := { s with cancelled := insert runId s.cancelled }
    if runId = s.runId then answer (s.stop "停止しました") readyAt [halt scales]
    else answer s readyAt []

def beat (s : Bridge) (now readyAt : ℚ) (runId : List Char) : Bridge × Out :=
  answer (if runId = s.runId ∧ s.plan ≠ [] then { s with heartbeat := now } else s) readyAt []

def startRun (s : Bridge) (now readyAt : ℚ) (runId : List Char)
    (data : List (List Char × Json)) : Bridge × Out :=
  if s.mode ≠ .blockly then refuse s "操作元をBlocklyに切り替えてください"
  else
    match validatePlan (Json.get data "plan".toList) with
    | .error text => refuse s text
    | .ok plan =>
      if runId ∈ s.cancelled ∨ runId = s.runId then
        refuse s "この実行は停止済み、または開始済みです"
      else if s.plan ≠ [] then refuse s "実行中です。先に停止してください"
      else if s.ready readyAt = false then refuse s "ROSシミュレーションが未接続です"
      else
        answer { s with
          runId := runId
          plan := plan
          index := -1
          heartbeat := now
          deadline := now + 2 / 5
          reason := "実行中" } readyAt []

def command (scales : Scales) (s : Bridge) (now readyAt : ℚ) (path : Path)
    (data : List (List Char × Json)) : Bridge × Out :=
  match path with
  | .mode => changeMode scales s readyAt data
  | path =>
    match runIdOf (Json.get data "id".toList) with
    | none => refuse s "実行IDが不正です"
    | some runId =>
      match path with
      | .stop => stopRun scales s readyAt runId
      | .heartbeat => beat s now readyAt runId
      | .run => startRun s now readyAt runId data
      | _ => refuse s "不明な操作です"

def step (scales : Scales) (s : Bridge) : Event → Bridge × Out
  | .controller now msg => (onController s now msg, {})
  | .odom now pose => (onOdom s now pose, {})
  | .tick now readyAt =>
    match s.mode with
    | .controller => tickController scales s now readyAt
    | .blockly => tickPlan scales s now readyAt
  | .command now readyAt path data => command scales s now readyAt path data

end Questix.Blockly
