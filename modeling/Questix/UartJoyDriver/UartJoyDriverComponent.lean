/-
Questix.UartJoyDriver.UartJoyDriverComponent — `uart_joy_driver_component.cpp`:
bytes of the serial port become Joy messages.

A timer callback gets everything that can be read at once, in pieces (`reads`),
and looks at the clock whenever it handles a frame, and at the end: `clock k`
is its reading number `k`. The log lines are left out; an error of `read` ends
the reading as an empty port does. The loop over the lines ends since each
round takes a line end from the buffer; here it has as much fuel as the buffer
has bytes, and one more (`readLines_fuel` in `UartFramingTheorems`: that is
enough).

Proofs live in `UartFramingTheorems`.
-/
import Mathlib.Data.List.DropRight
import Questix.UartJoyDriver.DropoutFilter

namespace Questix.UartJoyDriver

open Questix.Lib

structure UartConfig where
  deadzone : Dbl := .fin (1 / 20)
  messageTimeoutSec : Dbl := .fin (1 / 2)
  filter : DropoutConfig := {}

structure UartJoy where
  config : UartConfig
  /-- `serial_fd_ >= 0` -/
  serialOpen : Bool
  readBuffer : List UInt8 := []
  dropoutFilter : DropoutFilter
  lastValidJoyMsg : Joy
  lastFrameTime : ℚ
  haveReceivedFrame : Bool := false
  neutralPublished : Bool := false

/-- A call of the read timer. -/
structure UartPoll where
  reads : List (List UInt8) := []
  clock : ℕ → ℚ := fun _ => 0

/-- What a callback lets out: a line handed to the parser, a message on
`/joy_raw_uart`, a message on `/joy`. -/
inductive UartNote where
  | line (line : List UInt8)
  | joyRaw (joyMsg : Joy)
  | joy (joyMsg : Joy)
  deriving DecidableEq

namespace UartJoy

def neutralJoy (stamp : ℚ) : Joy where
  stamp := stamp
  axes := List.replicate kJoyAxisCount 0
  buttons := List.replicate kJoyButtonCount 0

/-- The constructor; whether the port could be opened. -/
def create (config : UartConfig) (serialOpen : Bool) (now : ℚ) : UartJoy where
  config := config
  serialOpen := serialOpen
  dropoutFilter := (({} : DropoutFilter).configure config.filter).reset kJoyAxisCount kJoyButtonCount
  lastValidJoyMsg := neutralJoy 0
  lastFrameTime := now

/-! ## Lines -/

def newline : UInt8 := ascii '\n'

def isBlank (b : UInt8) : Bool := b = ascii ' ' || b = ascii '\t'

/-- One carriage return at the end goes, then blanks on both sides. -/
def trimLine (line : List UInt8) : List UInt8 :=
  let line := if line.getLast? = some (ascii '\r') then line.dropLast else line
  (line.dropWhile isBlank).rdropWhile isBlank

/-- Whether there is a line to process, the line, and what stays in the buffer. -/
def readLine (readBuffer : List UInt8) : Bool × List UInt8 × List UInt8 :=
  if newline ∈ readBuffer then
    let line := trimLine (readBuffer.takeWhile (· ≠ newline))
    (!line.isEmpty, line, (readBuffer.dropWhile (· ≠ newline)).drop 1)
  else (false, [], readBuffer)

/-- A frame that could be parsed. -/
def takeFrame (now : ℚ) (rawJoyMsg : Joy) (s : UartJoy) : UartJoy :=
  let filtered := s.dropoutFilter.apply { rawJoyMsg with stamp := now }
  { s with
    dropoutFilter := filtered.1
    lastValidJoyMsg := { filtered.2 with stamp := now }
    lastFrameTime := now
    haveReceivedFrame := true
    neutralPublished := false }

/-- The loop over the lines, from clock reading `k` on. -/
def readLines (clock : ℕ → ℚ) : ℕ → ℕ → UartJoy → UartJoy × ℕ × List UartNote
  | 0, k, s => (s, k, [])
  | fuel + 1, k, s =>
    let next := readLine s.readBuffer
    let s := { s with readBuffer := next.2.2 }
    if next.1 then
      match parseControllerLine next.2.1 s.config.deadzone {} with
      | none =>
        let r := readLines clock fuel k s
        (r.1, r.2.1, .line next.2.1 :: r.2.2)
      | some rawJoyMsg =>
        let r := readLines clock fuel (k + 1) (s.takeFrame (clock k) rawJoyMsg)
        (r.1, r.2.1, .line next.2.1 :: .joyRaw { rawJoyMsg with stamp := clock k } :: r.2.2)
    else (s, k, [])

/-! ## The callback -/

/-- What is read from the port. -/
def received (s : UartJoy) (poll : UartPoll) : List UInt8 :=
  if s.serialOpen then poll.reads.flatten else []

/-- The end of an overlong buffer is kept. -/
def cutBuffer (readBuffer : List UInt8) : List UInt8 :=
  if readBuffer.length > 2048 then readBuffer.drop (readBuffer.length - 1024) else readBuffer

def publishNeutralJoy (now : ℚ) (s : UartJoy) : UartJoy :=
  { s with
    dropoutFilter := s.dropoutFilter.reset kJoyAxisCount kJoyButtonCount
    lastValidJoyMsg := neutralJoy now }

/-- The end of the callback, from clock reading `k` on. -/
def publishHeld (clock : ℕ → ℚ) (k : ℕ) (s : UartJoy) : UartJoy × List UartNote :=
  if !s.haveReceivedFrame then (s, [])
  else if .fin (clock k - s.lastFrameTime) ≤ s.config.messageTimeoutSec then
    (s, [.joy { s.lastValidJoyMsg with stamp := clock k }])
  else if !s.neutralPublished then
    ({ s.publishNeutralJoy (clock (k + 1)) with neutralPublished := true },
      [.joy (neutralJoy (clock (k + 1)))])
  else (s, [])

def readTimerCallback (s : UartJoy) (poll : UartPoll) : UartJoy × List UartNote :=
  let s := { s with readBuffer := cutBuffer (s.readBuffer ++ s.received poll) }
  let lines := readLines poll.clock (s.readBuffer.length + 1) 0 s
  let published := publishHeld poll.clock lines.2.1 lines.1
  (published.1, lines.2.2 ++ published.2)

end UartJoy

end Questix.UartJoyDriver
