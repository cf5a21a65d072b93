/-
Questix.ControlConfig.ControlProfile — which control profile a robot launch
hands to its nodes: `questix_control_config/__init__.py`.

A profile is a YAML text. What the YAML library makes of it is a parameter
(`safeLoad`); the reader of the ROS parameters finds the same values in the
same document. A document is looked at down to the values of the parameters:
`Layer` is a value that may be a dictionary or may not. A converted copy is told
by the document that was dumped into it. Texts are lists of characters with
LF line ends.

Left out are the log and its warnings, the places of the files, and the cache
that lets nested launches share one converted copy.
-/
import Questix.Lib.Dbl
import Questix.Lib.Dict

namespace Questix.ControlConfig

open Questix.Lib

/-! ## Documents -/

abbrev Text := List Char

/-- A key of a dictionary: a name, or something else, told by how it prints. -/
inductive Key where
  | name (s : String)
  | other (text : String)
  deriving DecidableEq

def Key.text : Key → String
  | .name s => s
  | .other text => text

instance : Coe String Key := ⟨.name⟩

/-- The value of a parameter; `other` is null, a list or a dictionary. -/
inductive Value where
  | bool (b : Bool)
  | int (n : ℤ)
  | float (x : Dbl)
  | str (s : String)
  | other
  deriving DecidableEq

/-- A dictionary, or no dictionary. -/
inductive Layer (α : Type) where
  | dict (d : Dict Key α)
  | other

abbrev Params := Dict Key Value
abbrev Section := Layer (Layer Value)
abbrev Document := Layer Section

def rosKey : Key := "ros__parameters"

/-- `section.get('ros__parameters') if isinstance(section, dict) else None` -/
def rosParameters : Section → Layer Value
  | .dict d => (d.lookup rosKey).getD .other
  | .other => .other

/-! ## The launcher's buttons -/

def launcherNode : Key := "joy_launcher"

/-- `LAUNCHER_LEGACY_SECTIONS` -/
def launcherLegacySections (node : Key) : List Key :=
  if node = "shot_component" then
    ["fire_button", "tilt_axis", "tilt_up_axis", "tilt_up_axis_sign", "tilt_down_axis",
      "tilt_down_axis_sign", "tilt_up_button_index", "tilt_down_button_index"]
  else if node = "esc_motor_control" then ["full_speed_button", "full_speed_value"]
  else []

/-- The parameters hold launcher keys of the older layout. -/
def holdsLegacy (node : Key) (params : Params) : Bool :=
  (launcherLegacySections node).any (· ∈ params.keys)

/-- The launcher keys that leave a section. -/
def taken (node : Key) : Layer Value → Params
  | .dict params =>
    if holdsLegacy node params then params.restrict (· ∈ launcherLegacySections node) else ∅
  | .other => ∅

/-- The parameters that stay in an older section. -/
def rest (node : Key) (params : Params) : Params :=
  params.restrict (· ∉ launcherLegacySections node)

/-- A section without its launcher keys, none if nothing is left of it. -/
def keptSection (node : Key) : Section → Option Section
  | .other => some .other
  | .dict d =>
    match rosParameters (.dict d) with
    | .other => some (.dict d)
    | .dict params =>
      if holdsLegacy node params then
        if (rest node params).entries.isEmpty then none
        else some (.dict (d.insert rosKey (.dict (rest node params))))
      else some (.dict d)

/-- The launcher's section and its parameters, empty ones if it has none. -/
def launcherOf : Option Section → Dict Key (Layer Value) × Params
  | some (.dict d) =>
    match d.lookup rosKey with
    | some (.dict params) => (d, params)
    | _ => (AList.singleton rosKey (.dict ∅), ∅)
  | _ => (AList.singleton rosKey (.dict ∅), ∅)

/-- The launcher's section with the moved keys: a value already there wins. -/
def launcherSection (moved : Params) (launcher : Option Section) : Section :=
  let (launcher, params) := launcherOf launcher
  .dict (launcher.insert rosKey (.dict (params ∪ moved)))

def migrateLauncherLayout : Document → Document × Bool
  | .other => (.other, false)
  | .dict document =>
    let moved := document.gather fun node sect => taken node (rosParameters sect)
    let result := document.collect keptSection
    if moved.entries.isEmpty then (.dict document, false)
    else
      (.dict (result.insert launcherNode
        (launcherSection moved (result.lookup launcherNode))), true)

/-! ## The units -/

/-- `str.isspace` -/
def isSpace (c : Char) : Bool :=
  let n := c.toNat
  (9 ≤ n && n ≤ 13) || (28 ≤ n && n ≤ 32) || n = 0x85 || n = 0xA0 || n = 0x1680 ||
    (0x2000 ≤ n && n ≤ 0x200A) || n = 0x2028 || n = 0x2029 || n = 0x202F || n = 0x205F ||
    n = 0x3000

def unitsMarker : Text := "# questix_controls_units: ".toList

/-- The first marker of a text: `^# questix_controls_units: (\S+)`. -/
def unitsGeneration (text : Text) : Option Text :=
  (text.splitOn '\n').findSome? fun line =>
    if unitsMarker.isPrefixOf line then
      let generation := (line.drop unitsMarker.length).takeWhile fun c => !isSpace c
      if generation.isEmpty then none else some generation
    else none

/-- `UNITS_GENERATION` -/
def currentUnits : Text := ['2']

/-! ## Selection -/

inductive Controller where
  | uart
  | dualshock
  | web
  deriving DecidableEq

/-- `FIXED_CONTROLLERS` -/
def Controller.fixed (c : Controller) : Bool := c = .web

/-- A profile as the launch hands it on: a file as it is, or a converted copy. -/
inductive Profile where
  | file (text : Text)
  | copy (document : Document)

def launcherLayoutActions (safeLoad : Text → Except String Document) (text : Text) : Profile :=
  match safeLoad text with
  | .error _ => .file text  -- the nodes report a broken file themselves
  | .ok document =>
    let (document, moved) := migrateLauncherLayout document
    if moved then .copy document else .file text

/-- The text of the profile in use. `explicit` is the launch argument
`control_config_file`, if it is not empty, and the text it leads to. -/
def selectText (explicit : Option (Option Text)) (controller : Controller)
    (saved packaged : Option Text) : Option Text :=
  match explicit with
  | some file => file
  | none =>
    match saved with
    | none => packaged
    | some text =>
      if !controller.fixed && unitsGeneration text = some currentUnits then some text
      else packaged

/-- None if there is no such file. -/
def selectProfile (safeLoad : Text → Except String Document) (explicit : Option (Option Text))
    (controller : Controller) (saved packaged : Option Text) : Option Profile :=
  (selectText explicit controller saved packaged).map (launcherLayoutActions safeLoad)

/-! ## Parameters -/

/-- The parameters a document has for a node. -/
def nodeParameters (document : Document) (node : Key) : Params :=
  match document with
  | .other => ∅
  | .dict d =>
    match (d.lookup node).map rosParameters with
    | some (.dict params) => params
    | _ => ∅

/-- The parameters a node gets from a profile. -/
def Profile.parameters (safeLoad : Text → Except String Document) (profile : Profile)
    (node : Key) : Params :=
  match profile with
  | .copy document => nodeParameters document node
  | .file text =>
    match safeLoad text with
    | .ok document => nodeParameters document node
    | .error _ => ∅

end Questix.ControlConfig
