/-
Questix.RobotManager.Controls — the control profiles as the web page shows
them: `GROUPS`, `validate`, `_migrate_launcher_layout`, `_decode` and
`read_profile` of `controls.py`.

The documents, the units and the layout of the launcher are those of
`ControlConfig`: the source repeats their names, and a test keeps the two sets
alike. A number that is written as an integer in a field of floats is made a
float. Of the bounds, 0.99 stands for the double next to it: no double lies in
between.

The revision of a profile is told by the text that is digested. The history is
told by what there is to read of it.
-/
import Questix.ControlConfig.ControlProfile
import Questix.RobotManager.Actuation

namespace Questix.RobotManager.Controls

open Questix.Lib Questix.ControlConfig

/-! ## The editable fields -/

inductive Kind where
  | bool
  | int (low high : ℤ)
  | float (low high : ℚ)
  deriving DecidableEq

structure Field where
  key : String
  label : String
  kind : Kind
  deriving DecidableEq

structure Group where
  node : String
  label : String
  fields : List Field
  deriving DecidableEq

/-- The launcher's buttons, of all controllers. -/
def launcherGroup : Group :=
  ⟨"joy_launcher", "射出・角度調整・ローラーのキー割り当て", [
    ⟨"fire_button", "射出ボタン番号", .int 0 63⟩,
    ⟨"tilt_up_axis", "上げる入力軸（-1でボタン）", .int (-1) 63⟩,
    ⟨"tilt_up_axis_sign", "上げる軸の方向（+1 / -1）", .int (-1) 1⟩,
    ⟨"tilt_down_axis", "下げる入力軸（-1でボタン）", .int (-1) 63⟩,
    ⟨"tilt_down_axis_sign", "下げる軸の方向（+1 / -1）", .int (-1) 1⟩,
    ⟨"tilt_up_button_index", "射出角度を上げるボタン番号（ボタン操作時のみ）", .int 0 63⟩,
    ⟨"tilt_down_button_index", "射出角度を下げるボタン番号（ボタン操作時のみ）", .int 0 63⟩,
    ⟨"full_speed_button", "ローラーの回転ボタン番号", .int 0 63⟩,
    ⟨"full_speed_value", "ローラーの回転出力（0〜1）", .float 0 1⟩]⟩

/-- `GROUPS` -/
def groups : List Group := [
  ⟨"joy_controller", "走行の操作・速度", [
    ⟨"linear_x_axis", "前後の軸番号", .int 0 63⟩,
    ⟨"linear_y_axis", "左右の軸番号（全方向移動用）", .int (-1) 63⟩,
    ⟨"angular_z_axis", "旋回の軸番号", .int 0 63⟩,
    ⟨"longitudinal_input_ratio", "前後速度 [m/s]（負値で反転）", .float (-10) 10⟩,
    ⟨"lateral_input_ratio", "左右速度 [m/s]（全方向移動用）", .float (-10) 10⟩,
    ⟨"angular_input_ratio", "旋回速度 [rad/s]（負値で反転）", .float (-20) 20⟩]⟩,
  ⟨"drive_component", "走行モータ・加速度", [
    ⟨"max_motor_rpm", "車輪の最大回転数 [RPM]", .int 1 475⟩,
    ⟨"max_linear_accel", "前後の加速度 [m/s²]（0で制限なし）", .float 0 50⟩,
    ⟨"max_angular_accel", "旋回の加速度 [rad/s²]（0で制限なし）", .float 0 100⟩,
    ⟨"slew_taper_band_linear", "目標速度付近の緩和幅 [m/s]（0で無効）", .float 0 10⟩,
    ⟨"slew_taper_band_angular", "目標旋回速度付近の緩和幅 [rad/s]（0で無効）", .float 0 20⟩,
    ⟨"min_command_rpm", "低速不感帯 [RPM]（0で無効）", .int 0 474⟩]⟩,
  launcherGroup,
  ⟨"joy_node", "DualShock 入力", [⟨"deadzone", "スティック不感帯", .float 0 (99 / 100)⟩]⟩,
  ⟨"uart_joy_driver", "UART 入力", [⟨"deadzone", "スティック不感帯", .float 0 (99 / 100)⟩]⟩,
  ⟨"web_joy_driver", "Web（ブラウザ・スマホ）入力",
    [⟨"deadzone", "スティック不感帯", .float 0 (99 / 100)⟩]⟩,
  ⟨"joy_controller_dual_stick", "左右独立スティック（単体起動時のみ）", [
    ⟨"left_stick_vertical_axis", "左車輪の軸番号", .int 0 63⟩,
    ⟨"right_stick_vertical_axis", "右車輪の軸番号", .int 0 63⟩,
    ⟨"longitudinal_input_ratio", "車輪速度スケール", .float (-10) 10⟩,
    ⟨"angular_input_ratio", "旋回スケール", .float (-20) 20⟩]⟩,
  ⟨"joy_axis_drive", "Joy 直接駆動（単体起動時のみ）", [
    ⟨"left_axis_index", "左車輪の軸番号", .int 0 63⟩,
    ⟨"right_axis_index", "右車輪の軸番号", .int 0 63⟩,
    ⟨"invert_left_axis", "左軸を反転", .bool⟩,
    ⟨"invert_right_axis", "右軸を反転", .bool⟩,
    ⟨"max_motor_rpm", "最大回転数 [RPM]", .int 1 475⟩]⟩]

/-- `_DRIVER_NODES` -/
def driverNodes : List String := ["joy_node", "uart_joy_driver", "web_joy_driver"]

/-- `_PROFILE_DRIVERS` -/
def profileDrivers : Controller → List String
  | .uart => ["joy_node", "uart_joy_driver"]
  | .dualshock => ["joy_node", "uart_joy_driver"]
  | .web => ["web_joy_driver"]

def profileGroups (controller : Controller) : List Group :=
  groups.filter fun g => g.node ∉ driverNodes || g.node ∈ profileDrivers controller

/-! ## `validate` -/

def Kind.accepts : Kind → Value → Bool
  | .bool, .bool _ => true
  | .int low high, .int n => low ≤ n ∧ n ≤ high
  | .float low high, .int n => low ≤ n ∧ (n : ℚ) ≤ high
  | .float low high, .float x => .fin low ≤ x ∧ x ≤ .fin high ∧ x.isfinite = true
  | _, _ => false

/-- `float(value)` in a field of floats. -/
def Kind.clean : Kind → Value → Value
  | .float _ _, .int n => .float (.fin n)
  | _, value => value

/-- The bounds are whole numbers, or hundredths. -/
def boundText (bound : ℚ) : String :=
  if bound.den = 1 then toString bound.num
  else toString (bound.num / bound.den) ++ "." ++ toString (100 * bound.num / bound.den % 100)

def Kind.rangeText : Kind → String
  | .bool => "bool 型、範囲 None〜None"
  | .int low high => "int 型、範囲 " ++ toString low ++ "〜" ++ toString high
  | .float low high => "float 型、範囲 " ++ boundText low ++ "〜" ++ boundText high

def checkField (params : Params) (f : Field) : Except String Value :=
  let value := (params.lookup (f.key : Key)).getD .other
  if f.kind.accepts value then .ok (f.kind.clean value)
  else .error (f.label ++ ": " ++ f.kind.rangeText ++ " で入力してください。")

def Field.name (f : Field) : Key := f.key
def Group.name (g : Group) : Key := g.node

def validateNode (values : Dict Key (Layer Value)) (g : Group) : Except String Params :=
  let mismatch := g.node ++ ": 設定項目が一致しません。再読み込みしてください。"
  match values.lookup g.name with
  | some (.dict params) =>
    if params.hasKeys (g.fields.map Field.name) then
      Dict.tryBuild Field.name (checkField params) g.fields
    else .error mismatch
  | _ => .error mismatch

/-- A number of the profile. -/
def intAt (clean : Dict Key Params) (node : Key) (key : String) : ℤ :=
  match (clean.lookup node).bind (AList.lookup (key : Key)) with
  | some (.int n) => n
  | _ => 0

inductive TiltInput where
  | axis (axis sign : ℤ)
  | button (index : ℤ)
  deriving DecidableEq

/-- The keys of one direction of the tilt. -/
structure Direction where
  axis : String
  sign : String
  button : String

def up : Direction := ⟨"tilt_up_axis", "tilt_up_axis_sign", "tilt_up_button_index"⟩
def down : Direction := ⟨"tilt_down_axis", "tilt_down_axis_sign", "tilt_down_button_index"⟩

def tiltInput (clean : Dict Key Params) (direction : Direction) : Except String TiltInput :=
  let axis := intAt clean launcherNode direction.axis
  let sign := intAt clean launcherNode direction.sign
  if sign ≠ -1 ∧ sign ≠ 1 then
    .error "角度調整に使う軸の方向は +1 または -1 を選んでください。"
  else if 0 ≤ axis then .ok (.axis axis sign)
  else .ok (.button (intAt clean launcherNode direction.button))

/-- The checks between fields. -/
def checkTogether (clean : Dict Key Params) : Except String Unit := do
  if intAt clean "drive_component" "max_motor_rpm" ≤
      intAt clean "drive_component" "min_command_rpm" then
    throw "低速不感帯は車輪の最大回転数より小さくしてください。"
  let upInput ← tiltInput clean up
  let downInput ← tiltInput clean down
  if upInput = downInput then
    throw "射出角度の「上げる」「下げる」には異なる入力を割り当ててください。"

def validate (values : Layer (Layer Value)) (controller : Controller) :
    Except String (Dict Key Params) :=
  let groups := profileGroups controller
  let mismatch := "設定のノード一覧が一致しません。再読み込みしてください。"
  match values with
  | .other => .error mismatch
  | .dict values =>
    if values.hasKeys (groups.map Group.name) then do
      let clean ← Dict.tryBuild Group.name (validateNode values) groups
      checkTogether clean
      return clean
    else .error mismatch

/-! ## `_decode` -/

/-- The parameters of a node without its launcher keys, none if nothing is left. -/
def kept (node : Key) : Layer Value → Option (Layer Value)
  | .other => some .other
  | .dict params =>
    if holdsLegacy node params then
      if (rest node params).entries.isEmpty then none
      else some (.dict (rest node params))  -- left for `validate` to refuse
    else some (.dict params)

def paramsOf : Option (Layer Value) → Params
  | some (.dict params) => params
  | _ => ∅

/-- `_migrate_launcher_layout` of a dictionary: a value already there wins. -/
def migrateValues (values : Dict Key (Layer Value)) : Dict Key (Layer Value) :=
  let moved := values.gather taken
  let result := values.collect kept
  if moved.entries.isEmpty then result
  else result.insert launcherNode (.dict (paramsOf (result.lookup launcherNode) ∪ moved))

/-- `_migrate_launcher_layout` -/
def migrateLauncherLayout : Layer (Layer Value) → Layer (Layer Value)
  | .other => .other
  | .dict values => .dict (migrateValues values)

/-- The form of the launcher's parameters with one axis for both directions. -/
def oneAxisKeys : List Key := ["fire_button", "tilt_axis", "tilt_up_button_index",
  "tilt_down_button_index", "full_speed_button", "full_speed_value"]

def twoAxes (axis : ℤ) (shot : Params) : Params :=
  let shot := shot.erase ("tilt_axis" : Key)
  let shot := shot.insert ("tilt_up_axis" : Key) (.int axis)
  let shot := shot.insert ("tilt_up_axis_sign" : Key) (.int 1)
  let shot := shot.insert ("tilt_down_axis" : Key) (.int axis)
  shot.insert ("tilt_down_axis_sign" : Key) (.int (-1))

/-- Only the complete older form is upgraded. -/
def upgradeTilt (values : Dict Key (Layer Value)) : Except String (Dict Key (Layer Value)) :=
  match values.lookup launcherNode with
  | some (.dict shot) =>
    if shot.hasKeys oneAxisKeys then
      match shot.lookup ("tilt_axis" : Key) with
      | some (.int axis) =>
        if -1 ≤ axis ∧ axis ≤ 63 then .ok (values.insert launcherNode (.dict (twoAxes axis shot)))
        else .error "旧形式の角度調整の軸番号が不正です。"
      | _ => .error "旧形式の角度調整の軸番号が不正です。"
    else .ok values
  | _ => .ok values

/-- A section holds parameters and nothing else. -/
def isParameters : Section → Bool
  | .dict d => d.hasKeys [rosKey]
  | .other => false

def checkSection (e : Sigma fun _ : Key => Section) : Except String Unit :=
  if isParameters e.2 then .ok ()
  else .error (e.1.text ++ ": ros__parameters セクションが不正です。")

def decode (safeLoad : Text → Except String Document) (raw : Text) (controller : Controller) :
    Except String (Dict Key Params) := do
  match ← safeLoad raw with
  | .other => throw "設定ファイルが ROS パラメータの YAML 形式ではありません。"
  | .dict document =>
    document.entries.forM checkSection
    let values ← upgradeTilt (migrateValues (document.mapVal rosParameters))
    validate (.dict values) controller

/-! ## `read_profile` -/

def legacyWarning : String :=
  "保存されていた操作設定は、車輪半径の修正（#179）より前の単位のため使っていません。" ++
  "そのまま使うと速度・加速度が2倍になります。標準の値を表示しています。" ++
  "確認して保存し直してください。"

/-- The file of the earlier values, by revision. -/
inductive History where
  | missing
  | broken
  | entries (d : Dict Text (Layer (Layer Value)))

/-- The files of a controller's profile. -/
structure Files where
  defaultPath : Text
  packaged : Option Text
  saved : Option Text
  history : History

inductive Source where
  | saved
  | packaged
  deriving DecidableEq

structure Shown where
  controller : Controller
  revision : Text
  values : Dict Key Params
  previousValues : Option (Dict Key Params)
  historyWarning : Option String
  legacyWarning : Option String
  defaults : Dict Key Params
  groups : List Group
  applyOnRestart : Bool := true
  editable : Bool
  source : Source

def revisionOf (defaultPath default : Text) (saved : Option Text) : Text :=
  defaultPath ++ '\x00' :: default ++ '\x00' :: saved.getD "<defaults>".toList

/-- The earlier values, and a warning if they cannot be read. -/
def readHistory (controller : Controller) (history : History) (revision : Text) :
    Option (Dict Key Params) × Option String :=
  let warning := "前の設定を読み込めません。現在の設定は使用できます。"
  match history with
  | .missing => (none, none)
  | .broken => (none, some warning)
  | .entries d =>
    match d.lookup revision with
    | none => (none, none)
    | some values =>
      match validate (migrateLauncherLayout values) controller with
      | .ok previous => (some previous, none)
      | .error _ => (none, some warning)

/-- The values of the packaged and of the saved profile. -/
def readValues (safeLoad : Text → Except String Document) (controller : Controller)
    (default : Text) (saved : Option Text) :
    Except String (Dict Key Params × Dict Key Params) := do
  let defaults ← decode safeLoad default controller
  match saved with
  | none => return (defaults, defaults)
  | some raw => return (defaults, ← decode safeLoad raw controller)

def readProfile (safeLoad : Text → Except String Document) (controller : Controller)
    (files : Files) : Except HttpError Shown :=
  match files.packaged with
  | none => .error ⟨503, "共通設定が見つかりません。ROBOT_WS と " ++
      "questix_control_config のビルド・インストールを確認してください。"⟩
  | some default =>
    let saved := if controller.fixed then none else files.saved
    match readValues safeLoad controller default saved with
    | .error text => .error ⟨503, "操作設定を読み込めません: " ++ text⟩
    | .ok (defaults, values) =>
      have legacy := match saved with
        | none => false
        | some raw => unitsGeneration raw ≠ some currentUnits
      let revision := revisionOf files.defaultPath default saved
      let history := if legacy then (none, none)
        else readHistory controller files.history revision
      .ok {
        controller := controller
        revision := revision
        values := if legacy then defaults else values
        previousValues := history.1
        historyWarning := history.2
        legacyWarning := if legacy then some legacyWarning else none
        defaults := defaults
        groups := profileGroups controller
        editable := !controller.fixed
        source := if saved.isSome && !legacy then .saved else .packaged }

end Questix.RobotManager.Controls
