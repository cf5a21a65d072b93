/-
Questix.UartJoyDriver.JoyLineParser — `joy_line_parser.cpp`: a line of the
receiver module becomes a Joy message.

Strings are lists of bytes, so a line may hold any byte, NUL included. A token
reaches `strtoul` as a C string, which ends at its first NUL (`cStr`).
`strtoul16` is the library function as the C standard describes it for base 16,
with an `unsigned long` of 64 bits. Axes are exact numbers (`Questix.Lib.Dbl`).

Proofs live in `JoyLineTheorems`.
-/
import Questix.Lib.DblArith

namespace Questix.UartJoyDriver

open Questix.Lib

/-- `sensor_msgs::msg::Joy` -/
structure Joy where
  stamp : ℚ := 0
  axes : List Dbl := []
  buttons : List ℤ := []
  deriving DecidableEq

def kJoyAxisCount : ℕ := 8
def kJoyButtonCount : ℕ := 16
def kExpectedFunctionId : UInt8 := 0x01

def ascii (c : Char) : UInt8 := c.toUInt8

/-! ## `strtoul` -/

/-- What `c_str()` shows a C function. -/
def cStr (s : List UInt8) : List UInt8 := s.takeWhile (· ≠ 0)

def isspace (b : UInt8) : Bool := b = ascii ' ' || (9 ≤ b && b ≤ 13)

/-- The value of a hexadecimal digit. -/
def hexDigit (b : UInt8) : Option ℕ :=
  if ascii '0' ≤ b && b ≤ ascii '9' then some (b - ascii '0').toNat
  else if ascii 'a' ≤ b && b ≤ ascii 'f' then some (b - ascii 'a' + 10).toNat
  else if ascii 'A' ≤ b && b ≤ ascii 'F' then some (b - ascii 'A' + 10).toNat
  else none

def isxdigit (b : UInt8) : Bool := (hexDigit b).isSome

def hexValue (digits : List UInt8) : ℕ :=
  digits.foldl (fun n b => 16 * n + (hexDigit b).getD 0) 0

/-- An optional sign; whether it is a minus. -/
def takeSign : List UInt8 → Bool × List UInt8
  | [] => (false, [])
  | b :: bs => if b = ascii '-' then (true, bs) else if b = ascii '+' then (false, bs)
    else (false, b :: bs)

/-- `0x` counts as a prefix only in front of a digit. -/
def dropHexMark : List UInt8 → List UInt8
  | z :: x :: d :: bs =>
    if z = ascii '0' && (x = ascii 'x' || x = ascii 'X') && isxdigit d then d :: bs
    else z :: x :: d :: bs
  | bs => bs

def ULONG_MAX : ℕ := 2 ^ 64 - 1

/-- `std::strtoul(s, &end, 16)`: the number, and what `end` points at. -/
def strtoul16 (s : List UInt8) : ℕ × List UInt8 :=
  let signed := takeSign (s.dropWhile isspace)
  let body := dropHexMark signed.2
  let digits := body.takeWhile isxdigit
  if digits = [] then (0, s)
  else
    let magnitude := hexValue digits
    let value :=
      if ULONG_MAX < magnitude then ULONG_MAX
      else if signed.1 then (ULONG_MAX + 1 - magnitude) % (ULONG_MAX + 1)
      else magnitude
    (value, body.dropWhile isxdigit)

/-! ## The line -/

/-- `std::getline` until it fails: a delimiter at the very end starts no token. -/
def splitString (input : List UInt8) (delimiter : UInt8) : List (List UInt8) :=
  let pieces := input.splitOn delimiter
  if pieces.getLast? = some [] then pieces.dropLast else pieces

def parseHexByte (token : List UInt8) : Option UInt8 :=
  if token.isEmpty || token.length > 2 then none
  else
    let parsed := strtoul16 (cStr token)
    if parsed.2 ≠ [] || parsed.1 > 0xFF then none else some (UInt8.ofNat parsed.1)

def normalizeAxis (value : UInt8) (invert : Bool) (deadzone : Dbl) : Dbl :=
  let normalized := Dbl.clamp (.fin (((value.toNat : ℚ) - 128) / 127)) (-1) 1
  let normalized := if invert then -normalized else normalized
  if normalized.abs < deadzone then 0 else normalized

/-- Horizontal and vertical of a D-pad code. -/
def dpadDirection (dpadValue : UInt8) : Dbl × Dbl :=
  if dpadValue = 1 then (0, 1)
  else if dpadValue = 2 then (-1, 1)
  else if dpadValue = 3 then (-1, 0)
  else if dpadValue = 4 then (-1, -1)
  else if dpadValue = 5 then (0, -1)
  else if dpadValue = 6 then (1, -1)
  else if dpadValue = 7 then (1, 0)
  else if dpadValue = 8 then (1, 1)
  else (0, 0)

def fillDpadAxes (dpadValue : UInt8) (joyMsg : Joy) : Joy :=
  { joyMsg with
    axes := (joyMsg.axes.set 6 (dpadDirection dpadValue).1).set 7 (dpadDirection dpadValue).2 }

def buttonOf (byte mask : UInt8) : ℤ := if byte &&& mask ≠ 0 then 1 else 0

/-- The message of seven bytes, over what `joyMsg` held. -/
def fillJoy (byte0 byte1 dpad lx ly rx ry : UInt8) (deadzone : Dbl) (joyMsg : Joy) : Joy :=
  let joyMsg := { joyMsg with
    axes := List.replicate kJoyAxisCount 0, buttons := List.replicate kJoyButtonCount 0 }
  let joyMsg := { joyMsg with
    axes := (((joyMsg.axes.set 0 (normalizeAxis lx true deadzone)).set 1
      (normalizeAxis ly true deadzone)).set 3 (normalizeAxis rx true deadzone)).set 4
      (normalizeAxis ry true deadzone) }
  let joyMsg := fillDpadAxes dpad joyMsg
  let buttons := (((((((joyMsg.buttons.set 0 (buttonOf byte0 0x01)).set 1
    (buttonOf byte0 0x02)).set 2 (buttonOf byte0 0x04)).set 3 (buttonOf byte0 0x08)).set 4
    (buttonOf byte0 0x10)).set 5 (buttonOf byte0 0x20)).set 6 (buttonOf byte0 0x40)).set 7
    (buttonOf byte0 0x80)
  { joyMsg with
    buttons := (((((buttons.set 8 (buttonOf byte1 0x01)).set 9 (buttonOf byte1 0x02)).set 10
      (buttonOf byte1 0x04)).set 11 (buttonOf byte1 0x08)).set 12 (buttonOf byte1 0x10)).set 13
      (buttonOf byte1 0x20) }

/-- What stands behind the first `:`, if there is one. -/
def payloadOf (line : List UInt8) : List UInt8 :=
  if ascii ':' ∈ line then (line.dropWhile (· ≠ ascii ':')).drop 1 else line

/-- The tokens behind an optional function id. -/
def dataTokens (tokens : List (List UInt8)) : Option (List (List UInt8)) :=
  if tokens.length = 8 then do
    let functionId ← parseHexByte (tokens.getD 0 [])
    if functionId ≠ kExpectedFunctionId then none else some (tokens.drop 1)
  else if tokens.length ≠ 7 then none
  else some tokens

/-- `none` is a rejected line; `joyMsg` is then not written. -/
def parseControllerLine (line : List UInt8) (deadzone : Dbl) (joyMsg : Joy) : Option Joy := do
  let data ← dataTokens (splitString (payloadOf line) (ascii ','))
  let byte0 ← parseHexByte (data.getD 0 [])
  let byte1 ← parseHexByte (data.getD 1 [])
  let dpad ← parseHexByte (data.getD 2 [])
  let lx ← parseHexByte (data.getD 3 [])
  let ly ← parseHexByte (data.getD 4 [])
  let rx ← parseHexByte (data.getD 5 [])
  let ry ← parseHexByte (data.getD 6 [])
  some (fillJoy byte0 byte1 dpad lx ly rx ry deadzone joyMsg)

end Questix.UartJoyDriver
