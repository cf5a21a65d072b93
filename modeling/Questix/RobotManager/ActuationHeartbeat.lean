/-
Questix.RobotManager.ActuationHeartbeat — the process that publishes the
teacher's permissions: `parse_state` and `run` of `actuation_heartbeat.py`.

A `Turn` is one round of the loop with what the process finds in it: reading
number `k` of the clock (`clock k`, any numbers at all), whether the manager is
still there, whether the descriptor is readable, and the bytes of the read,
none at the end of the stream. `json.loads` is a parameter: the value of a
line, or nothing where it raises ValueError. `lines = data.split(b"\n")` with
`lines.pop()` is `completeLines` and `unfinished`.

Left out is `main`, which makes two ROS messages of each publication and, on a
signal, ends the loop with the same all-off messages.

Proofs live in `HeartbeatTheorems`.
-/
import Questix.Lib.Lines
import Questix.RobotManager.Actuation
import Questix.WebJoyDriver.JoyFrame

namespace Questix.RobotManager.ActuationHeartbeat

open Questix.Lib
open WebJoyDriver (Value)

def HEARTBEAT_HZ : ℚ := 5
def FINAL_OFF_COUNT : ℕ := 3
def MAX_LINE_BYTES : ℕ := 4096

def ALL_OFF : Line where
  authority := allOff
  lab := allOff

def newline : UInt8 := 10

/-- `json.loads` -/
abbrev Loads := List UInt8 → Option Value

/-! ## `parse_state` -/

def switchKey : Kind → String
  | .drive => "drive"
  | .launcher => "launcher"

def labKey : Kind → String
  | .drive => "lab_drive"
  | .launcher => "lab_launcher"

/-- `data.get(key) is True` -/
def isTrue (data : Value) (key : String) : Bool :=
  match data.get key with
  | some (.bool b) => b
  | _ => false

def parseState (loads : Loads) (line : List UInt8) : Line :=
  match loads line with
  | some (.dict fields) =>
    let switched (kind : Kind) := isTrue (.dict fields) (switchKey kind)
    { authority := switched
      lab := fun kind => switched kind && isTrue (.dict fields) (labKey kind) }
  | _ => ALL_OFF

/-! ## `run` -/

structure HeartbeatRun where
  state : Line := ALL_OFF
  pending : List UInt8 := []
  discarding : Bool := false
  /-- What `run` returns. -/
  sent : ℕ := 0
  nextAt : ℚ
  /-- Still in the loop. -/
  running : Bool := true

structure Turn where
  clock : ℕ → ℚ
  parentAlive : Bool := true
  readable : Bool := false
  chunk : List UInt8 := []

def period : ℚ := 1 / HEARTBEAT_HZ

namespace HeartbeatRun

def start (now : ℚ) : HeartbeatRun where
  nextAt := now

/-- The end of the loop, and the messages behind it. -/
def close (h : HeartbeatRun) : HeartbeatRun × List Line :=
  ({ h with running := false, sent := h.sent + FINAL_OFF_COUNT },
    List.replicate FINAL_OFF_COUNT ALL_OFF)

/-- A new state goes out at once. -/
def publishState (state : Line) (now : ℚ) (h : HeartbeatRun) : HeartbeatRun :=
  { h with state := state, sent := h.sent + 1, nextAt := now + period }

/-- The loop over the lines of a read, from clock reading `k` on. -/
def takeLines (loads : Loads) (clock : ℕ → ℚ) :
    HeartbeatRun → ℕ → List (List UInt8) → ℕ × HeartbeatRun × List Line
  | h, k, [] => (k, h, [])
  | h, k, line :: lines =>
    if h.discarding then takeLines loads clock { h with discarding := false } k lines
    else
      let state := if line.length ≤ MAX_LINE_BYTES then parseState loads line else ALL_OFF
      let r := takeLines loads clock (h.publishState state (clock k)) (k + 1) lines
      (r.1, r.2.1, state :: r.2.2)

/-- Nothing is kept of an unfinished line that is too long, or was too long
before: a later suffix of it that looks like JSON is no permission line. -/
def giveUp (now : ℚ) (h : HeartbeatRun) : HeartbeatRun × List Line :=
  if h.discarding || MAX_LINE_BYTES < h.pending.length then
    if !h.discarding then
      ({ h.publishState ALL_OFF now with pending := [], discarding := true }, [ALL_OFF])
    else ({ h with pending := [], discarding := true }, [])
  else (h, [])

/-- What is done with the bytes of a read. -/
def readChunk (loads : Loads) (clock : ℕ → ℚ) (chunk : List UInt8) (h : HeartbeatRun) :
    HeartbeatRun × List Line :=
  let data := h.pending ++ chunk
  let r := takeLines loads clock { h with pending := unfinished newline data } 1
    (completeLines newline data)
  let given := r.2.1.giveUp (clock r.1)
  (given.1, r.2.2 ++ given.2)

/-- The periodic message; a stalled process never sends a burst to catch up. -/
def publishPeriodic (clock : ℕ → ℚ) (h : HeartbeatRun) : HeartbeatRun × List Line :=
  let nextAt := h.nextAt + period
  let nextAt := if nextAt < clock 1 then clock 2 + period else nextAt
  ({ h with nextAt := nextAt, sent := h.sent + 1 }, [h.state])

/-- One round of the loop; after its end nothing happens any more. -/
def step (loads : Loads) (h : HeartbeatRun) (turn : Turn) : HeartbeatRun × List Line :=
  if !h.running then (h, [])
  else if h.nextAt - turn.clock 0 ≤ 0 then
    if !turn.parentAlive then h.close else h.publishPeriodic turn.clock
  else if turn.readable then
    if turn.chunk = [] then h.close else h.readChunk loads turn.clock turn.chunk
  else (h, [])

end HeartbeatRun

end Questix.RobotManager.ActuationHeartbeat
