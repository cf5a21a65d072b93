/-
Questix.WebJoyDriver.JoyFrame — the browser controller's frames and the held
input: `parse_frame`, `is_neutral_frame` and `JoyHold` of `joy_frame.py`.

A payload is a decoded JSON value; an object's keys are unique, as in a
dictionary. Numbers are told apart the way Python does it: integers of any
size, and floats, which JSON text may also give as `NaN` or `Infinity`.

The clock is an argument: every method that reads it is given the time. A
method that raises keeps what it had changed before, so `accept` returns the
hold beside its result.

What an error says goes to the log only; its data is kept, its text is not.
-/
import Questix.Lib.Dbl

namespace Questix.WebJoyDriver

open Questix.Lib

/-! ## Payloads -/

/-- A decoded JSON value. -/
inductive Value where
  | null
  | bool (b : Bool)
  | int (i : ℤ)
  | float (x : Dbl)
  | str (s : String)
  | list (items : List Value)
  | dict (fields : List (String × Value))

namespace Value

/-- `payload.get(key)` on an object -/
def get (key : String) : Value → Option Value
  | dict fields => fields.lookup key
  | _ => none

/-- The items of a list; none for any other value. -/
def items? : Value → Option (List Value)
  | list items => some items
  | _ => none

/-- `payload.get("type") == kind` -/
def hasType (payload : Value) (kind : String) : Bool :=
  match payload.get "type" with
  | some (str s) => s == kind
  | _ => false

end Value

inductive FrameError where
  | notAnObject
  | unsupportedType (kind : Option Value)
  | notArrays
  | tooManyAxes (count : ℕ) (max : ℤ)
  | tooManyButtons (count : ℕ) (max : ℤ)
  | axisNotANumber (index : ℕ)
  | axisNotFinite (index : ℕ)
  | buttonNotBinary (index : ℕ)

/-! ## Frames -/

/-- Clamp to `[-1, 1]`, and zero inside the dead zone. -/
def applyDeadzone (value deadzone : Dbl) : Dbl :=
  let value := Dbl.max (-1) (if value < 1 then value else 1)
  if value.abs < deadzone then 0 else value

/-- `2 ^ 1024 - 2 ^ 970`, halfway between the largest double and `2 ^ 1024`:
integers round to infinity from here on. -/
def floatOverflow : ℕ := (2 ^ 54 - 1) * (2 ^ 194) ^ 5

/-- `float(raw)` of an integer, none where it overflows. The value is exact
here; a frame's integers are clamped at once. -/
def floatOfInt (i : ℤ) : Option Dbl :=
  if i.natAbs < floatOverflow then some (.fin i) else none

def asAxis (deadzone : Dbl) (raw : Value) (index : ℕ) : Except FrameError Dbl :=
  match raw with
  | .int i =>
    match floatOfInt i with
    | some value => .ok (applyDeadzone value deadzone)
    | none => .error (.axisNotFinite index)
  | .float value =>
    if value.isfinite then .ok (applyDeadzone value deadzone)
    else .error (.axisNotFinite index)
  | _ => .error (.axisNotANumber index)

def asButton (raw : Value) (index : ℕ) : Except FrameError ℤ :=
  match raw with
  | .bool b => .ok (if b then 1 else 0)
  | .int i => if i = 0 ∨ i = 1 then .ok i else .error (.buttonNotBinary index)
  | .float x =>
    if x = 0 then .ok 0 else if x = 1 then .ok 1 else .error (.buttonNotBinary index)
  | _ => .error (.buttonNotBinary index)

/-- `[f(v, i) for i, v in enumerate(raw)]`, counting from `index`. -/
def enumerate {α : Type} (f : Value → ℕ → Except FrameError α) :
    ℕ → List Value → Except FrameError (List α)
  | _, [] => .ok []
  | index, v :: vs => do
    let a ← f v index
    let rest ← enumerate f (index + 1) vs
    return a :: rest

/-- `values.extend([zero] * (size - len(values)))` -/
def pad {α : Type} (zero : α) (size : ℤ) (values : List α) : List α :=
  values ++ List.replicate (size - values.length).toNat zero

def parseFrame (payload : Value) (numAxes numButtons : ℤ) (deadzone : Dbl) :
    Except FrameError (List Dbl × List ℤ) :=
  match payload with
  | .dict _ =>
    if !payload.hasType "joy" then .error (.unsupportedType (payload.get "type"))
    else
      match ((payload.get "axes").getD (.list [])).items?,
          ((payload.get "buttons").getD (.list [])).items? with
      | some rawAxes, some rawButtons =>
        if numAxes < rawAxes.length then .error (.tooManyAxes rawAxes.length numAxes)
        else if numButtons < rawButtons.length then
          .error (.tooManyButtons rawButtons.length numButtons)
        else do
          let axes ← enumerate (asAxis deadzone) 0 rawAxes
          let buttons ← enumerate asButton 0 rawButtons
          return (pad 0 numAxes axes, pad 0 numButtons buttons)
      | _, _ => .error .notArrays
  | _ => .error .notAnObject

/-- `False`, or a number equal to zero. -/
def isZero : Value → Bool
  | .bool b => !b
  | .int i => i == 0
  | .float x => x == 0
  | _ => false

def isNeutralFrame (payload : Value) : Bool :=
  payload.hasType "joy" &&
  match ((payload.get "axes").getD (.list [])).items?,
      ((payload.get "buttons").getD (.list [])).items? with
  | some rawAxes, some rawButtons => (rawAxes ++ rawButtons).all isZero
  | _, _ => false

/-! ## The hold -/

/-- `HOLD_RELEASED`, `HOLD_ACTIVE`, `HOLD_TIMEOUT` -/
inductive HoldState where
  | released
  | active
  | timeout
  deriving DecidableEq, Repr

structure AcceptResult where
  accepted : Bool
  changed : Bool
  deriving DecidableEq

structure JoySnapshot where
  axes : List Dbl
  buttons : List ℤ
  state : HoldState
  stopped : Bool
  stopReason : String
  ageSec : Option ℚ
  deriving DecidableEq

structure JoyHold where
  numAxes : ℤ := 8
  numButtons : ℤ := 14
  timeoutSec : Dbl := .fin (1 / 2)
  deadzone : Dbl := 0
  axes : List Dbl := List.replicate numAxes.toNat 0
  buttons : List ℤ := List.replicate numButtons.toNat 0
  lastUpdate : Option ℚ := none
  stopLatched : Bool := false
  stopReason : String := ""

namespace JoyHold

def neutral (s : JoyHold) : List Dbl × List ℤ :=
  (List.replicate s.numAxes.toNat 0, List.replicate s.numButtons.toNat 0)

/-- The frame held is older than a timeout that is on. -/
def overdue (s : JoyHold) (now : ℚ) : Bool :=
  match s.lastUpdate with
  | some lastUpdate =>
    decide (0 < s.timeoutSec) && decide (s.timeoutSec < .fin (now - lastUpdate))
  | none => false

def expireLocked (s : JoyHold) (now : ℚ) : JoyHold × Bool :=
  if !s.stopLatched && s.overdue now then
    ({ s with
        stopLatched := true, stopReason := "timeout"
        axes := s.neutral.1, buttons := s.neutral.2 }, true)
  else (s, false)

def accept (s : JoyHold) (payload : Value) (now : ℚ) : JoyHold × Except FrameError AcceptResult :=
  let (s, expired) := s.expireLocked now
  match parseFrame payload s.numAxes s.numButtons s.deadzone with
  | .error e => (s, .error e)
  | .ok (axes, buttons) =>
    if s.stopLatched && !isNeutralFrame payload then (s, .ok ⟨false, expired⟩)
    else
      ({ s with
          axes := axes, buttons := buttons, lastUpdate := some now
          stopLatched := false, stopReason := "" }, .ok ⟨true, expired || s.stopLatched⟩)

def release (s : JoyHold) (reason : String) : JoyHold :=
  { s with
    axes := s.neutral.1, buttons := s.neutral.2, lastUpdate := none
    stopLatched := true, stopReason := reason }

def snapshot (s : JoyHold) (now : ℚ) : JoyHold × JoySnapshot :=
  let (s, _) := s.expireLocked now
  let age := s.lastUpdate.map fun lastUpdate => max 0 (now - lastUpdate)
  let state := match age with
    | none => .released
    | some _ => if s.stopLatched then .timeout else .active
  let (axes, buttons) := if s.stopLatched then s.neutral else (s.axes, s.buttons)
  (s, ⟨axes, buttons, state, s.stopLatched, s.stopReason, age⟩)

end JoyHold

end Questix.WebJoyDriver
