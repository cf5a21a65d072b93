/-
Questix.MotorControl.DdtTransport — `DdtMotorLib` on the wire: writing a
frame, waiting for it to leave, reading the response.

`sendFrameWithFeedback` and `sendCommand` share the pair of a write and a
drain (`handOver`): a write that was not taken whole is tried again, a drain
that failed is not.
-/
import Questix.MotorControl.DdtState

namespace Questix.MotorControl.DdtMotorLib

open Questix.Lib

/-! ## The device -/

/-- Take the next answer of one kind. -/
def answer {α : Type} (next : Port → α × Port) : Ddt α :=
  fun s => ((next s.port).1, { s with port := (next s.port).2 }, [])

/-- `steady_clock::now()`, of which `controlNow` is a reading too. -/
def steadyNow : Ddt ℚ := answer Port.nextTime

/-- `std::chrono::milliseconds` of a time in seconds, rounded towards zero. -/
def toMilliseconds (seconds : ℚ) : ℤ := if 0 ≤ seconds then ⌊seconds * 1000⌋ else ⌈seconds * 1000⌉

def writeSerial : Ddt ℤ := do
  if !(← get).serialOpen then return -1
  answer Port.nextWritten

/-- `tcdrain`, retried while it is interrupted. -/
def drainSerialOutput : Ddt Bool := do
  if !(← get).serialOpen then return false
  answer Port.nextDrained

/-- Write a frame and, if all of it was taken, wait for it to leave. -/
def handOver (motorId : Option Int) (frame : List UInt8) : Ddt Handover := do
  let lib ← get
  let written ← writeSerial
  if written ≠ frame.length then
    Act.emit (.wrote motorId frame .incomplete lib)
    return .incomplete
  let left ← drainSerialOutput
  let handover := if left then Handover.drained else Handover.undrained
  Act.emit (.wrote motorId frame handover lib)
  return handover

/-- For frames that set something: up to `retry_count` writes. -/
def sendCommandRetry (command : List UInt8) : ℕ → Ddt Bool
  | 0 => pure false
  | retry + 1 => do
    match ← handOver none command with
    | .incomplete => sendCommandRetry command retry
    | .undrained => return false
    | .drained => return true

def sendCommand (command : List UInt8) : Ddt Bool := sendCommandRetry command 3

/-! ## Receiving -/

/-- Bytes before the motor's id are skipped. A full frame with a wrong CRC is
given up from its first byte up to the next byte that is the id. -/
def pushByte (expected : UInt8) (frame : List UInt8) (byte : UInt8) : Bool × List UInt8 :=
  if frame = [] ∧ byte ≠ expected then (false, frame)
  else
    let frame := frame ++ [byte]
    if 10 ≤ frame.length then
      if DdtProtocol.crc8Maxim (frame.take 9) = frame.getD 9 0 then (true, frame)
      else (false, (frame.drop 1).dropWhile (· ≠ expected))
    else (false, frame)

/-- The bytes of one read; what comes after a valid frame is dropped. -/
def pushBytes (expected : UInt8) : List UInt8 → List UInt8 → Bool × List UInt8
  | frame, [] => (false, frame)
  | frame, byte :: bytes =>
    match pushByte expected frame byte with
    | (true, frame) => (true, frame)
    | (false, frame) => pushBytes expected frame bytes

/-- Read until a frame is there or nothing more comes in time. A read asks for
the bytes that are missing and gets at most these. -/
def collectFrame (expected : UInt8) : List (List UInt8) → List UInt8 → Option (List UInt8)
  | [], _ => none
  | bytes :: reads, frame =>
    match pushBytes expected frame (bytes.take (10 - frame.length)) with
    | (true, frame) => some frame
    | (false, frame) => collectFrame expected reads frame

def readFeedbackFrame (motorId : Int) : Ddt (Option (List UInt8)) := do
  if !(← get).serialOpen then return none
  let reads ← answer Port.nextReceived
  return collectFrame (wireId motorId) reads []

/-- What a decoded response makes of the record of a motor. -/
def acceptFeedback (s : DdtMotorLib) (fb : MotorFeedback) (decoded : DdtProtocol.Feedback)
    (now : ℚ) : MotorFeedback :=
  let speedFiltered :=
    if 0 < s.measuredLpfTauSec ∧ fb.hasFeedback then
      let dt := now - fb.lastFeedbackTime
      let alpha :=
        if 0 < dt then DdtCurrentPi.clamp (dt / (s.measuredLpfTauSec + dt)) 0 1 else 0
      fb.speedFiltered + alpha * (decoded.speed.toInt - fb.speedFiltered)
    else decoded.speed.toInt
  { fb with
    speedFiltered := speedFiltered
    mode := decoded.mode
    current := decoded.current
    speed := decoded.speed
    position := decoded.position
    faultCode := decoded.faultCode
    hasFeedback := true
    lastFeedbackTime := now }

/-- Take over a decoded response; the measured speed is also kept with the
controller's state where a motor has one. -/
def storeFeedback (s : DdtMotorLib) (motorId : Int) (decoded : DdtProtocol.Feedback) (now : ℚ) :
    DdtMotorLib :=
  let fb := s.acceptFeedback (s.motorFeedbacks.getD motorId {}) decoded now
  let s := { s with motorFeedbacks := s.motorFeedbacks.insert motorId fb }
  let s := s.updateStats motorId fun tx => { tx with feedbackCount := tx.feedbackCount + 1 }
  if s.piStates.contains motorId then
    s.updatePi motorId fun st => { st with lastMeasuredRpm := fb.speed }
  else s

def parseFeedback (motorId : Int) (frame : List UInt8) : Ddt Bool := do
  match DdtProtocol.parseFeedbackFrame (wireId motorId) frame with
  | .kOk decoded =>
    let now ← steadyNow
    modify fun s => s.storeFeedback motorId decoded now
    return true
  | _ => return false

/-- Count the exchanges without a valid response; motors that were not
initialised are not counted. -/
def countResponse (s : DdtMotorLib) (motorId : Int) (valid : Bool) : DdtMotorLib :=
  match s.motorFeedbacks[motorId]? with
  | none => s
  | some fb =>
    { s with
      motorFeedbacks := s.motorFeedbacks.insert motorId
        { fb with consecutiveTimeouts := if valid then 0 else fb.consecutiveTimeouts + 1 } }

def recordSerialRoundtrip (s : DdtMotorLib) (roundtripMs : ℚ) : DdtMotorLib :=
  let stats := s.serialLatencyStats
  { s with
    serialLatencyStats :=
      { stats with
        samples := stats.samples + 1
        lastMs := roundtripMs
        maxMs := max stats.maxMs roundtripMs
        emaMs :=
          if stats.samples + 1 = 1 then roundtripMs
          else stats.emaMs + 5 / 100 * (roundtripMs - stats.emaMs) } }

/-- Record an exchange without a valid response. -/
def recordTimeout (s : DdtMotorLib) (motorId : Int) : DdtMotorLib :=
  let s := s.updateStats motorId fun tx =>
    { tx with responseTimeouts := tx.responseTimeouts + 1, lastResponseTimeout := true,
              lastRoundtripMs := none }
  { s with
    serialLatencyStats :=
      { s.serialLatencyStats with timeouts := s.serialLatencyStats.timeouts + 1 } }

/-- Record an exchange with a valid response. -/
def recordResponse (s : DdtMotorLib) (motorId : Int) (roundtripMs : ℚ) : DdtMotorLib :=
  let s := s.updateStats motorId fun tx =>
    { tx with lastResponseTimeout := false, lastRoundtripMs := some roundtripMs }
  s.recordSerialRoundtrip roundtripMs

/-- The part of `sendFrameWithFeedback` after the frame has left: wait once
for the response. -/
def awaitResponse (motorId : Int) (roundtripStart : ℚ) : Ddt Unit := do
  modify fun s => s.updateStats motorId fun tx => { tx with transactions := tx.transactions + 1 }
  match ← readFeedbackFrame motorId with
  | some frame =>
    let parsed ← parseFeedback motorId frame
    let now ← steadyNow
    modify fun s =>
      if parsed then s.recordResponse motorId ((now - roundtripStart) * 1000)
      else s.recordTimeout motorId
    modify fun s => s.countResponse motorId parsed
  | none =>
    modify fun s => s.recordTimeout motorId
    modify fun s => s.countResponse motorId false

/-! ## Sending -/

/-- `n` more attempts to write the frame. -/
def sendAttempts (motorId : Int) (frame : List UInt8) : ℕ → Ddt Bool
  | 0 => pure false
  | n + 1 => do
    let roundtripStart ← steadyNow
    match ← handOver (some motorId) frame with
    | .incomplete => sendAttempts motorId frame n
    | .undrained => return false
    | .drained =>
      awaitResponse motorId roundtripStart
      return true

def sendFrameWithFeedback (motorId : Int) (frame : List UInt8) : Ddt Bool := do
  if !(← get).serialOpen then return false
  sendAttempts motorId frame 3

/-- `sendMotorVelocity` puts a frame of this velocity on the wire. -/
def velocityFrame (s : DdtMotorLib) (motorId : Int) (velocityInt : ℤ) (brake : Bool) : List UInt8 :=
  DdtProtocol.packVelocityFrame (wireId motorId) (Int16.ofInt velocityInt)
    (UInt8.ofInt s.accelTime.val) brake

def sendMotorVelocity (motorId : Int) (velocityRpm : ℤ) (brake : Bool) : Ddt Bool := do
  let s ← get
  let velocityInt := s.clampRpm velocityRpm
  let frame := s.velocityFrame motorId velocityInt brake
  let success ← sendFrameWithFeedback motorId frame
  modify fun s =>
    if success then (s.setVelocityEntry motorId velocityInt).setLastSent motorId frame else s
  return success

def sendMotorCurrentRaw (motorId : Int) (currentRaw : Int16) : Ddt Bool := do
  let frame := DdtProtocol.packCurrentFrame (wireId motorId) currentRaw
  let success ← sendFrameWithFeedback motorId frame
  modify fun s =>
    if success then
      (s.setLastSent motorId frame).updateStats motorId fun tx =>
        { tx with lastCurrentRawSent := currentRaw }
    else s
  return success

end Questix.MotorControl.DdtMotorLib
