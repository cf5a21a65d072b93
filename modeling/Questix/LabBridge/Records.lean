/-
Questix.LabBridge.Records — the format of a recording: `records.py` up to the
store.

A recording is the JSON value it is read from. Texts of the calendar and how
Python prints numbers (`Formats`) are parameters; so is what `datetime` makes of
a text. Missing (`none`) is what ends in an exception there: a date out of
range, an integer too large for a double.
-/
import Mathlib.Data.Char
import Mathlib.Data.List.DropRight
import Mathlib.Data.List.Lex
import Questix.ControlConfig.ControlProfile
import Questix.Lib.Json

namespace Questix.LabBridge

open Questix.Lib
open Questix.ControlConfig (Text isSpace)

/-- What Python writes for numbers and dates, and reads of them. -/
structure Formats where
  /-- `repr` of a finite float -/
  repr : ℚ → Text
  /-- `'%.2f' % value` -/
  fixed2 : ℚ → Text
  /-- `str` of what is no text -/
  str : Json → Text
  /-- `round(greatest - least, 3)` -/
  span : Json → Json → Json
  /-- `datetime.fromtimestamp(when).strftime('%Y%m%d-%H%M%S')` -/
  localStamp : ℚ → Option Text
  /-- `iso_time` -/
  isoTime : ℚ → Option Text
  /-- `parse_iso` of a text that is not empty: no date, or its seconds -/
  parseIso : Text → Option (Option ℚ)

abbrev Formats.Moment (f : Formats) := { t : ℚ // (f.isoTime t).isSome }

/-! ## Sources and errors -/

inductive Source where
  | lab
  | auto
  | rosbagCache
  deriving DecidableEq

def Source.text : Source → Text
  | .lab => ['l', 'a', 'b']
  | .auto => ['a', 'u', 't', 'o']
  | .rosbagCache => "rosbag-cache".toList

/-- Why a recording is not kept. `raised` is an exception that is no
`RecordError`. -/
inductive RecordError where
  | notRecording
  | otherVersion
  | noWheels
  | badStreams
  | notList (stream : Text)
  | tooLong
  | tooBig
  | noStore
  | full
  | writeFailed
  | raised
  deriving DecidableEq

def RecordError.text : RecordError → String
  | .notRecording => "QUESTiX LABの実機記録（questix-lab-recording）ではありません。"
  | .otherVersion => "この記録は、別の版の教材で作られています。教材を読み込み直してください。"
  | .noWheels => "記録に車輪の寸法（wheel_radius・wheel_separation）がありません。"
  | .badStreams => "記録の streams が正しくありません。"
  | .notList stream => "記録の " ++ String.ofList stream ++ " が一覧になっていません。"
  | .tooLong => "記録が長すぎます。45分以内に区切って保存してください。"
  | .tooBig => "記録が大きすぎて保存できません（8 MBまで）。短く区切って記録してください。"
  | .noStore =>
    "このロボットには記録を保存できません（保存先が設定されていないか、書き込めません）。"
  | .full => "ロボットの保存領域がいっぱいです。先生に古い記録の整理を頼んでください。"
  | .writeFailed => "ロボットに記録を書き込めませんでした。先生に知らせてください。"
  | .raised => ""

/-! ## Cleaning -/

/-- `str.strip` -/
def strip (s : Text) : Text := (s.dropWhile isSpace).rdropWhile isSpace

/-- `clean_text` -/
def cleanText (value : Json) (limit : ℕ) : Text :=
  match value with
  | .str s => (strip s).take limit
  | _ => []

/-- `_finite_number`, with the number; an integer beyond the doubles raises. -/
def finiteNumber : Json → Option (Option ℚ)
  | .int n => if n.natAbs < 2 ^ 1024 - 2 ^ 970 then some (some n) else none
  | .float (.fin q) => some (some q)
  | _ => some none

/-- `_js_number` -/
def jsNumber (f : Formats) : Json → Text
  | .int n => Json.intText n
  | .float (.fin q) => if q.den = 1 then Json.intText q.num else f.repr q
  | _ => []

/-- The items of `clean_conditions`, without the label. -/
def keptConditions : List (Text × Json) → Option (List (Text × Json))
  | [] => some []
  | (key, item) :: rest => do
    let kept ← keptConditions rest
    if key = "label".toList then return kept
    match ← finiteNumber item, item with
    | some _, _ => return (key, item) :: kept
    | none, .bool _ => return (key, item) :: kept
    | none, .str _ => return (key, .str (cleanText item 60)) :: kept
    | none, _ => return kept

/-- `_conditions_text` -/
def conditionsText (f : Formats) (values : List (Text × Json)) : Option Text := do
  match ← finiteNumber (Json.get values "speed".toList) with
  | some speed => return f.fixed2 speed ++ " m/s".toList
  | none =>
    let gains ← [("P", "kp"), ("I", "ki"), ("D", "kd")].filterMapM fun (name, key) => do
      let gain := Json.get values key.toList
      return (← finiteNumber gain).map fun _ => name.toList ++ ' ' :: jsNumber f gain
    return (gains.intersperse ['・']).flatten

/-- `clean_conditions`: what is kept, and the label. -/
def cleanConditions (f : Formats) : Json → Option (Option (List (Text × Json) × Text))
  | .str s =>
    let label := cleanText (.str s) 60
    some (if label = [] then none else some ([], label))
  | .obj members => do
    let kept ← keptConditions members
    let label := cleanText (Json.get members "label".toList) 60
    let label ← if label = [] then conditionsText f kept else some label
    return if label = [] ∧ kept.isEmpty then none else some (kept, label)
  | _ => some none

/-- `clean_robot`: its name and its domain. -/
def cleanRobot : Json → Option (Text × Option ℤ)
  | .obj members =>
    let name := cleanText (Json.get members "name".toList) 60
    let domain :=
      match Json.get members "domain".toList with
      | .int n => some n
      | _ => none
    if name = [] ∧ domain = none then none else some (name, domain)
  | _ => none

/-- `clean_outcome`: its reason and its label. -/
def cleanOutcome : Json → Option (Text × Text)
  | .obj members =>
    let reason := cleanText (Json.get members "reason".toList) 40
    if reason = [] then none else some (reason, cleanText (Json.get members "label".toList) 60)
  | _ => none

structure RunInfo where
  lesson : Text
  conditions : Option (List (Text × Json) × Text)
  robot : Option (Text × Option ℤ)
  group : Text
  outcome : Option (Text × Text)

/-- `run_info`; an empty text is left out. -/
def runInfo (f : Formats) (lesson conditions robot group outcome : Json) : Option RunInfo := do
  let conditions ← cleanConditions f conditions
  return {
    lesson := cleanText lesson 60
    conditions := conditions
    robot := cleanRobot robot
    group := cleanText group 30
    outcome := cleanOutcome outcome }

/-! ## Reading a recording -/

/-- `RECORDING_STREAMS` -/
def recordingStreams : List Text :=
  ["drive", "twist", "scan", "odom", "roller", "shot", "estop"].map String.toList

/-- `MAX_RECORDING_MESSAGES` -/
def maxRecordingMessages : ℕ := 200000

/-- The value of a field of what should be a dictionary. -/
def field (value : Json) (key : String) : Json :=
  match value with
  | .obj members => Json.get members key.toList
  | _ => .null

/-- A value equals `RECORDING_VERSION`. -/
def isVersion : Json → Bool
  | .int n => decide (n = 1)
  | .float x => decide (x = .fin 1)
  | .bool b => b
  | _ => false

/-- The dimensions of the wheels are finite numbers above 0. -/
def checkWheels (config : Json) : Except RecordError Unit :=
  match finiteNumber (field config "wheel_radius") with
  | none => .error .raised
  | some none => .error .noWheels
  | some (some radius) =>
    match finiteNumber (field config "wheel_separation") with
    | none => .error .raised
    | some none => .error .noWheels
    | some (some separation) =>
      if 0 < radius ∧ 0 < separation then .ok () else .error .noWheels

/-- How many messages the streams hold, or which is no list. -/
def countMessages (streams : Json) : List Text → Except RecordError ℕ
  | [] => .ok 0
  | stream :: rest =>
    match field streams (String.ofList stream) with
    | .null => countMessages streams rest
    | .arr items => do return items.length + (← countMessages streams rest)
    | _ => .error (.notList stream)

def checkRecording (recording : Json) : Except RecordError Unit := do
  match field recording "format" with
  | .str s => if s ≠ "questix-lab-recording".toList then throw .notRecording
  | _ => throw .notRecording
  if !isVersion (field recording "version") then throw .otherVersion
  checkWheels (field recording "config")
  let streams := field recording "streams"
  match streams with
  | .null => pure ()
  | .obj _ => pure ()
  | _ => throw .badStreams
  let count ← countMessages streams recordingStreams
  if maxRecordingMessages < count then throw .tooLong

/-- The first of the least numbers, or of the greatest. -/
def extreme (better : ℚ → ℚ → Bool) : List (Json × ℚ) → Option (Json × ℚ)
  | [] => none
  | first :: rest => some (rest.foldl (fun best x => if better x.2 best.2 then x else best) first)

/-- The stamps of a stream that are finite numbers. -/
def stampsOf : List Json → Option (List (Json × ℚ))
  | [] => some []
  | .obj members :: items => do
    let rest ← stampsOf items
    let stamp := Json.get members "stamp".toList
    match ← finiteNumber stamp with
    | some q => return (stamp, q) :: rest
    | none => return rest
  | _ :: items => stampsOf items

/-- The least and the greatest stamp of each stream. -/
def spanStamps : List (Text × Json) → Option (List (Json × ℚ))
  | [] => some []
  | (_, .arr items) :: streams => do
    let stamps ← stampsOf items
    return (extreme (· < ·) stamps).toList ++ (extreme (· > ·) stamps).toList ++
      (← spanStamps streams)
  | _ :: streams => spanStamps streams

/-- `recording_seconds` -/
def recordingSeconds (f : Formats) (recording : Json) : Option Json := do
  let stamps ← match field recording "streams" with
    | .obj streams => spanStamps streams
    | _ => some []
  match extreme (· > ·) stamps, extreme (· < ·) stamps with
  | some greatest, some least => return f.span greatest.1 least.1
  | _, _ => return .float 0

/-! ## The listing entry -/

/-- The listing entry of a record. -/
structure Entry where
  id : Text
  source : Source
  lesson : Text
  label : Text
  group : Text
  robot : Option (Text × Option ℤ)
  recordedAt : Text
  seconds : Json
  outcome : Option (Text × Text)
  bytes : ℕ

/-- `_fallback_label` -/
def fallbackLabel : Source → Text
  | .auto => "コントローラーで走行".toList
  | .rosbagCache => "Robot Managerの録画".toList
  | .lab => "設定：不明".toList

/-- `parse_iso` -/
def parseIso (f : Formats) : Json → Option (Option ℚ)
  | .str [] => some none
  | .str s => f.parseIso s
  | _ => some none

def entryOf (f : Formats) (recordId : Text) (recording : Json) (source : Source) (size : ℕ)
    (savedAt : ℚ) : Option Entry := do
  let info ← runInfo f (field recording "lesson") (field recording "conditions")
    (field recording "robot") (field recording "group") (field recording "outcome")
  let recorded ← parseIso f (field recording "recordedAt")
  let recordedAt ← f.isoTime (recorded.getD savedAt)
  let seconds ← recordingSeconds f recording
  let label := (info.conditions.map Prod.snd).getD []
  return {
    id := recordId
    source := source
    lesson := info.lesson
    label := if label = [] then fallbackLabel source else label
    group := info.group
    robot := info.robot
    recordedAt := recordedAt
    seconds := seconds
    outcome := info.outcome
    bytes := size }

def textOrNull (s : Text) : Json := if s = [] then .null else .str s

/-- The entry as it is written to its index file. -/
def Entry.json (entry : Entry) : Json :=
  let item (key : String) (value : Json) : Text × Json := (key.toList, value)
  .obj [
    item "id" (.str entry.id),
    item "source" (.str entry.source.text),
    item "lesson" (textOrNull entry.lesson),
    item "label" (.str entry.label),
    item "group" (textOrNull entry.group),
    item "robot" (entry.robot.elim .null fun (name, domain) =>
      .obj [item "name" (.str name), item "domain" (domain.elim .null .int)]),
    item "recordedAt" (.str entry.recordedAt),
    item "seconds" entry.seconds,
    item "outcome" (entry.outcome.elim .null fun (reason, label) =>
      .obj [item "reason" (.str reason), item "label" (.str label)]),
    item "bytes" (.int entry.bytes)]

/-- The bytes of the index file of an entry. -/
def Entry.indexBytes (f : Formats) (entry : Entry) : ℕ :=
  Json.utf8Bytes ((entry.json.dumps f.repr true).getD [])

/-! ## Ids -/

def idChar (c : Char) : Bool :=
  let n := c.toNat
  (65 ≤ n && n ≤ 90) || (97 ≤ n && n ≤ 122) || (48 ≤ n && n ≤ 57) || c = '.' || c = '_' || c = '-'

/-- `ID_PATTERN.match`: the end of a line counts as an end, too. -/
def idPattern (s : Text) : Bool :=
  let s := if s.getLast? = some '\n' then s.dropLast else s
  !s.isEmpty && decide (s.length ≤ 160) && s.all idChar

/-- Runs of characters that may not be in an id become a dash each. -/
def dashRuns (inRun : Bool) : Text → Text
  | [] => []
  | c :: cs =>
    if idChar c then c :: dashRuns false cs
    else if inRun then dashRuns true cs
    else '-' :: dashRuns true cs

/-- `str(text or '')` -/
def textOr (f : Formats) : Json → Text
  | .null => []
  | .bool false => []
  | .int 0 => []
  | .float (.fin 0) => []
  | .str s => s
  | .arr [] => []
  | .obj [] => []
  | value => f.str value

/-- `_id_part` -/
def idPart (f : Formats) (text : Json) (limit : ℕ) : Text :=
  let trimmed (c : Char) : Bool := c = '-' || c = '.' || c = '_'
  (((dashRuns false (textOr f text)).dropWhile trimmed).rdropWhile trimmed).take limit

def makeId (f : Formats) (source : Source) (when_ : ℚ) (lesson group robot : Json) :
    Option Text := do
  let stamp ← f.localStamp when_
  let parts := [stamp, source.text, idPart f lesson 32, idPart f group 16, idPart f robot 24]
  return ((parts.filter (! ·.isEmpty)).intersperse ['-']).flatten

end Questix.LabBridge
