/-
Questix.LabPage.RecordingCore — a recording as a value and as a file
(`recording-core.js`, up to `serializeRecording`).

How numbers are spelled, what `JSON` writes and reads, and whether a text or a
list counts as greater than 0 are parameters (`Host`). The stamps of two
messages are compared as the numbers they are.
-/
import Questix.Lib.JsValue

namespace Questix.LabPage.RecordingCore

open Questix.Lib

/-- What the page uses of the language's own conversions. -/
structure Host where
  /-- `value.toFixed(2)` -/
  toFixed2 : ℚ → Units
  /-- a number in a template -/
  numberText : ℚ → Units
  /-- `value > 0`, of a text or a list -/
  positive : Js → Bool
  stringify : Js → Units
  parse : Units → Option Js

def RECORDING_FORMAT : Units := units "questix-lab-recording"
def RECORDING_VERSION : ℚ := 1
def MAX_RECORDING_MESSAGES : Nat := 200000
def MAX_TEXT : Nat := 60
def MAX_GROUP : Nat := 30
def MAX_REASON : Nat := 40

/-- `RECORDING_STREAMS` -/
inductive Stream where
  | drive
  | twist
  | scan
  | odom
  | roller
  | shot
  | estop
  deriving DecidableEq

def Stream.key : Stream → Units
  | .drive => units "drive"
  | .twist => units "twist"
  | .scan => units "scan"
  | .odom => units "odom"
  | .roller => units "roller"
  | .shot => units "shot"
  | .estop => units "estop"

def RECORDING_STREAMS : List Stream := [.drive, .twist, .scan, .odom, .roller, .shot, .estop]

/-! ## Messages -/

def stamp (message : Js) : Option ℚ := (message.prop (units "stamp")).finite

/-- `a.stamp - b.stamp <= 0` -/
def stampLe (a b : Js) : Bool := decide ((stamp a).getD 0 ≤ (stamp b).getD 0)

def sortedByStamp (list : List Js) : List Js :=
  (list.filter fun message => (stamp message).isSome).mergeSort stampLe

/-! ## What a run was -/

/-- `cleanText` -/
def cleanText (value : Js) (max : Nat) : Units :=
  match value with
  | .str s => (trim s).take max
  | _ => []

/-- The words a lesson would have written. -/
def conditionsText (host : Host) (values : List (Units × Js)) : Units :=
  match (Js.get values (units "speed")).finite with
  | some speed => host.toFixed2 speed ++ units " m/s"
  | none =>
    let gains := [("P", "kp"), ("I", "ki"), ("D", "kd")].filterMap fun (name, key) =>
      (Js.get values (units key)).finite.map fun value =>
        units name ++ units " " ++ host.numberText value
    (gains.intersperse (units "・")).flatten

structure Conditions where
  kept : List (Units × Js)
  label : Units

/-- What is kept of one item. Nothing can be put under `__proto__`. -/
def keptItem (entry : Units × Js) : Option (Units × Js) :=
  if entry.1 = units "label" ∨ entry.1 = units "__proto__" then none
  else
    match entry.2 with
    | .num (.fin q) => some (entry.1, .num (.fin q))
    | .str s => some (entry.1, .str (cleanText (.str s) MAX_TEXT))
    | .bool b => some (entry.1, .bool b)
    | _ => none

def cleanConditions (host : Host) (value : Js) : Option Conditions :=
  match value with
  | .str s =>
    let label := cleanText (.str s) MAX_TEXT
    if label = [] then none else some ⟨[], label⟩
  | .obj members =>
    let kept := members.filterMap keptItem
    let given := cleanText (Js.get members (units "label")) MAX_TEXT
    let label := if given = [] then conditionsText host kept else given
    if label = [] ∧ kept.isEmpty then none else some ⟨kept, label⟩
  | _ => none

structure Robot where
  name : Units
  domain : Option ℤ

/-- A number that is whole. -/
def integer (value : Js) : Option ℤ :=
  match value.finite with
  | some q => if q.den = 1 then some q.num else none
  | none => none

def cleanRobot (value : Js) : Option Robot :=
  let name := cleanText (value.prop (units "name")) MAX_TEXT
  let domain := integer (value.prop (units "domain"))
  if name ≠ [] ∨ domain ≠ none then some ⟨name, domain⟩ else none

structure Outcome where
  reason : Units
  label : Units

def cleanOutcome (value : Js) : Option Outcome :=
  let reason := cleanText (value.prop (units "reason")) MAX_REASON
  if reason = [] then none
  else some ⟨reason, cleanText (value.prop (units "label")) MAX_TEXT⟩

def nonEmpty (s : Units) : Option Units := if s = [] then none else some s

/-- The run fields as they are given. -/
structure RunFields where
  lesson : Js
  conditions : Js
  robot : Js
  group : Js
  outcome : Js

/-- The run fields, cleaned, without the empty ones. -/
structure RunInfo where
  lesson : Option Units
  conditions : Option Conditions
  robot : Option Robot
  group : Option Units
  outcome : Option Outcome

def runInfo (host : Host) (fields : RunFields) : RunInfo where
  lesson := nonEmpty (cleanText fields.lesson MAX_TEXT)
  conditions := cleanConditions host fields.conditions
  robot := cleanRobot fields.robot
  group := nonEmpty (cleanText fields.group MAX_GROUP)
  outcome := cleanOutcome fields.outcome

/-! ## Recordings -/

structure Recording where
  source : Js
  name : Js
  recordedAt : Js
  wheelRadius : Js
  wheelSeparation : Js
  topics : Js
  streams : List (Stream × List Js)
  info : RunInfo

/-- What `makeRecording` is given. -/
structure Parts where
  source : Js
  name : Js
  recordedAt : Js
  config : Js
  topics : Js
  streams : Js
  info : RunFields

/-- A stream that was given as a list. -/
def keptStream (streams : Js) (stream : Stream) : Option (Stream × List Js) :=
  match streams.prop stream.key with
  | .arr items => some (stream, sortedByStamp items)
  | _ => none

def makeRecording (host : Host) (parts : Parts) : Recording where
  source := parts.source
  name := parts.name
  recordedAt := parts.recordedAt
  wheelRadius := parts.config.prop (units "wheel_radius")
  wheelSeparation := parts.config.prop (units "wheel_separation")
  topics :=
    match parts.topics with
    | .undefined => .obj []
    | topics => topics
  streams := RECORDING_STREAMS.filterMap (keptStream parts.streams)
  info := runInfo host parts.info

/-- Why a file is not opened. -/
inductive Refusal where
  | unreadable
  | notRecording
  | otherVersion
  | noWheels
  | notList (stream : Stream)
  | tooLong
  deriving DecidableEq

def Refusal.text : Refusal → Units
  | .unreadable =>
    units "記録ファイルを読み取れませんでした。この教材で保存したJSONを選んでください。"
  | .notRecording => units "QUESTiX LABの実機記録（questix-lab-recording）ではありません。"
  | .otherVersion => units "この記録ファイルは、別の版の教材で保存されています。"
  | .noWheels => units "記録ファイルに車輪の寸法（wheel_radius・wheel_separation）がありません。"
  | .notList stream => units "記録ファイルの " ++ stream.key ++ units " が一覧になっていません。"
  | .tooLong => units "記録が長すぎます。45分以内に区切って保存したものを使ってください。"

/-- `value > 0` -/
def positive (host : Host) : Js → Bool
  | .num x => decide (0 < x)
  | .bool b => b
  | .str s => host.positive (.str s)
  | .arr items => host.positive (.arr items)
  | .undefined | .null | .obj _ => false

def checkConfig (host : Host) (config : Js) : Except Refusal Unit :=
  if positive host (config.prop (units "wheel_radius")) ∧
      positive host (config.prop (units "wheel_separation")) then
    .ok ()
  else .error .noWheels

/-- The loop over the streams: how many messages there are. -/
def countMessages (streams : Js) : List Stream → Except Refusal Nat
  | [] => .ok 0
  | stream :: rest =>
    match streams.prop stream.key with
    | .undefined => countMessages streams rest
    | .arr items => do
      let count ← countMessages streams rest
      return items.length + count
    | _ => .error (.notList stream)

/-- `parseRecording`, of what `JSON.parse` gave. -/
def parseData (host : Host) (data : Js) : Except Refusal Recording := do
  match data.prop (units "format") with
  | .str format => if format = RECORDING_FORMAT then pure () else .error .notRecording
  | _ => .error .notRecording
  match data.prop (units "version") with
  | .num version => if version = .fin RECORDING_VERSION then pure () else .error .otherVersion
  | _ => .error .otherVersion
  checkConfig host (data.prop (units "config"))
  -- a list is an object without streams
  let streams := match data.prop (units "streams") with
    | .obj members => .obj members
    | _ => .obj []
  let count ← countMessages streams RECORDING_STREAMS
  if count > MAX_RECORDING_MESSAGES then .error .tooLong
  else
    return makeRecording host
      { source := data.prop (units "source")
        name := data.prop (units "name")
        recordedAt := data.prop (units "recordedAt")
        config := data.prop (units "config")
        topics := data.prop (units "topics")
        streams
        info :=
          { lesson := data.prop (units "lesson")
            conditions := data.prop (units "conditions")
            robot := data.prop (units "robot")
            group := data.prop (units "group")
            outcome := data.prop (units "outcome") } }

/-- `text.replace(/^\uFEFF/, '')` -/
def withoutMark : Units → Units
  | [] => []
  | u :: rest => if u = 0xFEFF then rest else u :: rest

def parseRecording (host : Host) (text : Units) : Except Refusal Recording :=
  match host.parse (withoutMark text) with
  | none => .error .unreadable
  | some data => parseData host data

/-! ## The recording as an object -/

/-- A member that is there or not. -/
def member (key : String) (value : Option Js) : List (Units × Js) :=
  (value.map fun value => (units key, value)).toList

def Conditions.toJs (conditions : Conditions) : Js :=
  .obj (conditions.kept ++ [(units "label", .str conditions.label)])

def Robot.toJs (robot : Robot) : Js :=
  .obj [(units "name", .str robot.name),
    (units "domain", match robot.domain with
      | some domain => .num (.fin domain)
      | none => .null)]

def Outcome.toJs (outcome : Outcome) : Js :=
  .obj [(units "reason", .str outcome.reason), (units "label", .str outcome.label)]

def RunInfo.members (info : RunInfo) : List (Units × Js) :=
  member "lesson" (info.lesson.map .str) ++
    (member "conditions" (info.conditions.map Conditions.toJs) ++
      (member "robot" (info.robot.map Robot.toJs) ++
        (member "group" (info.group.map .str) ++
          member "outcome" (info.outcome.map Outcome.toJs))))

def Recording.toJs (recording : Recording) : Js :=
  .obj
    ([(units "format", .str RECORDING_FORMAT), (units "version", .num (.fin RECORDING_VERSION)),
        (units "source", recording.source), (units "name", recording.name),
        (units "recordedAt", recording.recordedAt),
        (units "config",
          .obj [(units "wheel_radius", recording.wheelRadius),
            (units "wheel_separation", recording.wheelSeparation)]),
        (units "topics", recording.topics),
        (units "streams",
          .obj (recording.streams.map fun (stream, items) => (stream.key, .arr items)))]
      ++ recording.info.members)

def serializeRecording (host : Host) (recording : Recording) : Units :=
  host.stringify recording.toJs

end Questix.LabPage.RecordingCore
