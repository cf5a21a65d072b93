/-
Questix.JoyController.JoyLauncher — how the launcher's node of the controller
takes its buttons from its parameters: the constructor of
`joy_launcher_component.cpp`, with `launcher_mapping.hpp`.

Parameters are typed: a parameter that is declared with a default of one type
and given a value of another one makes the constructor throw (none). An integer
parameter has 64 bits and is cut to an `int`.

Left out are the publisher, the subscription and the log.
-/
import Questix.ControlConfig.ControlProfile

namespace Questix.JoyController

open Questix.Lib Questix.ControlConfig

structure LauncherMappingConfig where
  fireButton : ℤ := 5
  tiltUpAxis : ℤ := 7
  tiltUpAxisSign : ℤ := 1
  tiltDownAxis : ℤ := 7
  tiltDownAxisSign : ℤ := -1
  tiltUpButtonIndex : ℤ := 4
  tiltDownButtonIndex : ℤ := 6
  fullSpeedButton : ℤ := 7
  fullSpeedValue : Dbl := 1
  deriving DecidableEq

def validTiltInputs (c : LauncherMappingConfig) : Bool :=
  if c.tiltUpAxis < -1 ∨ c.tiltDownAxis < -1 ∨
      (c.tiltUpAxisSign ≠ 1 ∧ c.tiltUpAxisSign ≠ -1) ∨
      (c.tiltDownAxisSign ≠ 1 ∧ c.tiltDownAxisSign ≠ -1) ∨ c.tiltUpButtonIndex < 0 ∨
      c.tiltDownButtonIndex < 0 then false
  else if c.tiltUpAxis ≠ c.tiltDownAxis then true
  else if c.tiltUpAxis = -1 then c.tiltUpButtonIndex ≠ c.tiltDownButtonIndex
  else c.tiltUpAxisSign ≠ c.tiltDownAxisSign

/-- `LauncherMapping::configure` -/
def configure (config : LauncherMappingConfig) : LauncherMappingConfig :=
  { config with
    fullSpeedValue :=
      if config.fullSpeedValue.isfinite then Dbl.clamp config.fullSpeedValue 0 1 else 0 }

/-- `static_cast<int>` -/
def toInt (n : ℤ) : ℤ := n.bmod (2 ^ 32)

/-- `declare_parameter` of an integer. -/
def declareInt (overrides : Params) (name : String) (default : ℤ) : Option ℤ :=
  match overrides.lookup (name : Key) with
  | none => some default
  | some (.int n) => some n
  | some _ => none

/-- `declare_parameter` of a double. -/
def declareDouble (overrides : Params) (name : String) (default : Dbl) : Option Dbl :=
  match overrides.lookup (name : Key) with
  | none => some default
  | some (.float x) => some x
  | some _ => none

/-- `declare_parameter` of a string. -/
def declareString (overrides : Params) (name : String) (default : String) : Option String :=
  match overrides.lookup (name : Key) with
  | none => some default
  | some (.str s) => some s
  | some _ => none

structure JoyLauncher where
  config : LauncherMappingConfig
  joyTopic : String
  commandTopic : String
  deriving DecidableEq

/-- The parameters of the mapping, before they are checked. -/
def readConfig (overrides : Params) : Option LauncherMappingConfig := do
  let defaults : LauncherMappingConfig := {}
  let fireButton ← declareInt overrides "fire_button" defaults.fireButton
  -- a direction whose own axis is -2 (unset) takes the axis of the older form
  let legacyTiltAxis ← declareInt overrides "tilt_axis" (-1)
  let tiltUpAxis ← declareInt overrides "tilt_up_axis" (-2)
  let tiltDownAxis ← declareInt overrides "tilt_down_axis" (-2)
  let tiltUpAxisSign ← declareInt overrides "tilt_up_axis_sign" defaults.tiltUpAxisSign
  let tiltDownAxisSign ← declareInt overrides "tilt_down_axis_sign" defaults.tiltDownAxisSign
  let tiltUpButtonIndex ← declareInt overrides "tilt_up_button_index" defaults.tiltUpButtonIndex
  let tiltDownButtonIndex ←
    declareInt overrides "tilt_down_button_index" defaults.tiltDownButtonIndex
  let fullSpeedButton ← declareInt overrides "full_speed_button" defaults.fullSpeedButton
  let fullSpeedValue ← declareDouble overrides "full_speed_value" defaults.fullSpeedValue
  return {
    fireButton := toInt fireButton
    tiltUpAxis := if toInt tiltUpAxis = -2 then toInt legacyTiltAxis else toInt tiltUpAxis
    tiltUpAxisSign := toInt tiltUpAxisSign
    tiltDownAxis := if toInt tiltDownAxis = -2 then toInt legacyTiltAxis else toInt tiltDownAxis
    tiltDownAxisSign := toInt tiltDownAxisSign
    tiltUpButtonIndex := toInt tiltUpButtonIndex
    tiltDownButtonIndex := toInt tiltDownButtonIndex
    fullSpeedButton := toInt fullSpeedButton
    fullSpeedValue := fullSpeedValue }

/-- Unusable tilt inputs are never pressed. -/
def checkTilt (config : LauncherMappingConfig) : LauncherMappingConfig :=
  if validTiltInputs config then config else { config with tiltUpAxis := -2, tiltDownAxis := -2 }

/-- `JoyLauncherComponent`, none if it throws. -/
def joyLauncher (overrides : Params) : Option JoyLauncher := do
  let config ← readConfig overrides
  let joyTopic ← declareString overrides "joy_topic" "/joy"
  let commandTopic ← declareString overrides "launcher_command_topic" "/launcher_command"
  return {
    config := configure (checkTilt config)
    joyTopic := joyTopic
    commandTopic := commandTopic }

end Questix.JoyController
