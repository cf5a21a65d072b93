/-
Questix.LabBridge.AutoRecorder — recordings of drives that no page recorded: the
class `AutoRecorder` of `records.py`.

Of a payload the numbers are kept that the recorder reads, missing where it has
none; a payload of another stream than the recorded ones has no stream. The
monotonic and the wall clock are arguments. A call that would subtract from a
time that is not set raises there, and is `none` here.

A call goes with the segments it ends, with the recording where one is handed
to the sink. Left out of a recording is what is passed on as it is: the wheels,
the topics and the robot.
-/
import Mathlib.Data.List.Sort
import Questix.Lib.Dbl
import Questix.Lib.Trace

namespace Questix.LabBridge

open Questix.Lib

/-! ## Payloads -/

/-- `RECORDING_STREAMS` -/
inductive RecordingStream where
  | drive
  | twist
  | scan
  | odom
  | roller
  | shot
  | estop
  deriving DecidableEq

structure Payload where
  stamp : Option Dbl := none
  linear : Option Dbl := none
  angular : Option Dbl := none
  v : Option Dbl := none
  w : Option Dbl := none
  deriving DecidableEq

/-- `MOVING_LINEAR` -/
def movingLinear : ℚ := 1 / 50

/-- `MOVING_ANGULAR` -/
def movingAngular : ℚ := 1 / 10

/-- `_MAX_MOTION_STEP` -/
def maxMotionStep : ℚ := 1 / 4

/-- A finite number above the bound, with either sign. -/
def exceeds (value : Option Dbl) (bound : ℚ) : Bool :=
  match value with
  | some (.fin q) => decide (bound < |q|)
  | _ => false

/-- `_moving` -/
def movingBy (linear angular : Option Dbl) : Bool :=
  exceeds linear movingLinear || exceeds angular movingAngular

/-- `payload_moving` -/
def payloadMoving (stream : RecordingStream) (payload : Payload) : Bool :=
  match stream with
  | .twist => movingBy payload.linear payload.angular
  | .drive => movingBy payload.v payload.w
  | .odom => movingBy payload.v payload.w
  | _ => false

/-- An element of the buffer. -/
structure Item where
  now : ℚ
  stream : RecordingStream
  payload : Payload
  deriving DecidableEq

def Item.moving (item : Item) : Bool := payloadMoving item.stream item.payload

/-! ## Recordings -/

/-- Why a segment ends. -/
inductive FinishReason where
  | done
  | split
  | lab
  deriving DecidableEq

def FinishReason.label : FinishReason → String
  | .split => "3分ごとに区切った"
  | .lab => "教材の走行が始まった"
  | .done => "ロボットが止まった"

structure AutoRecording where
  messages : List Item
  startedAt : ℚ  -- by the wall clock
  commanded : Bool
  outcome : FinishReason
  deriving DecidableEq

def AutoRecording.label (recording : AutoRecording) : String :=
  if recording.commanded then "コントローラーで走行" else "走行（指令元不明）"

/-- The finite stamp of a payload. -/
def Item.stamp (item : Item) : Option ℚ :=
  match item.payload.stamp with
  | some (.fin q) => some q
  | _ => none

/-- A stream as it is written: what has a stamp, by its stamp. -/
def AutoRecording.stream (recording : AutoRecording) (stream : RecordingStream) : List Payload :=
  ((recording.messages.filter fun item => item.stream = stream && item.stamp.isSome).insertionSort
    fun a b => a.stamp.getD 0 ≤ b.stamp.getD 0).map Item.payload

/-! ## The recorder -/

structure RecorderConfig where
  preRoll : ℚ := 1
  stillSec : ℚ := 3
  splitSec : ℚ := 180
  minMotionSec : ℚ := 1
  labGrace : ℚ := 1 / 2
  deriving DecidableEq

structure AutoRecorder where
  config : RecorderConfig
  buffer : List Item := []
  recording : Bool := false
  blocked : Bool := false
  labEndedAt : Option ℚ := none
  start : ℚ := 0
  lastMotion : Option ℚ := none
  motionSeconds : ℚ := 0
  commanded : Bool := false

/-- The end of a segment: what goes to the sink, if it is kept. -/
structure SegmentEnd where
  why : FinishReason
  recording : Option AutoRecording
  deriving DecidableEq

/-- The two clocks at a call. -/
structure Clocks where
  now : ℚ
  wall : ℚ
  deriving DecidableEq

namespace AutoRecorder

def create (config : RecorderConfig) : AutoRecorder := { config := config }

/-- `_finish` -/
def finish (r : AutoRecorder) (clocks : Clocks) (why : FinishReason) : AutoRecorder × SegmentEnd :=
  let recording :=
    match r.buffer with
    | [] => none
    | first :: _ =>
      if r.motionSeconds < r.config.minMotionSec then none
      else some {
        messages := r.buffer
        startedAt := clocks.wall - (clocks.now - first.now)
        commanded := r.commanded
        outcome := why }
  ({ r with buffer := [], recording := false }, ⟨why, recording⟩)

/-- `_lab` -/
def lab (r : AutoRecorder) (clocks : Clocks) (labActive : Bool) : AutoRecorder × List SegmentEnd :=
  if labActive then
    let (r, ends) :=
      if r.recording then
        let (r, end_) := r.finish clocks .lab
        (r, [end_])
      else (r, [])
    ({ r with buffer := [], blocked := true, labEndedAt := none }, ends)
  else if r.blocked && r.labEndedAt.isNone then
    -- the robot counts as moving until it has been seen still
    ({ r with labEndedAt := some clocks.now, lastMotion := some clocks.now }, [])
  else (r, [])

/-- `_begin` -/
def begin_ (r : AutoRecorder) (now : ℚ) : AutoRecorder :=
  { r with
    recording := true
    start := (r.buffer.head?.map Item.now).getD now
    motionSeconds := 0
    commanded := r.buffer.any fun item => item.stream = .twist && item.moving }

/-- `_check` -/
def check (r : AutoRecorder) (clocks : Clocks) : Option (AutoRecorder × List SegmentEnd) :=
  if r.recording then
    match r.lastMotion with
    | none => none
    | some last =>
      if r.config.stillSec ≤ clocks.now - last then
        let (r, end_) := r.finish clocks .done
        some ({ r with lastMotion := none }, [end_])
      else if r.config.splitSec ≤ clocks.now - r.start then
        let (r, end_) := r.finish clocks .split
        some ({ r with
          recording := true
          start := clocks.now
          motionSeconds := 0
          commanded := false }, [end_])
      else some (r, [])
  else if r.blocked then some (r, [])
  else some ({ r with
    buffer := r.buffer.filter fun item => clocks.now - item.now ≤ r.config.preRoll }, [])

/-- What a payload does to the block after a lab run. -/
def unblock (r : AutoRecorder) (item : Item) : Option AutoRecorder :=
  if !r.blocked then some r
  else if item.moving && item.stream = .twist then
    r.labEndedAt.map fun ended =>
      if r.config.labGrace ≤ item.now - ended then { r with blocked := false }
      else { r with lastMotion := some item.now }
  else if item.moving then some { r with lastMotion := some item.now }
  else
    r.lastMotion.map fun last =>
      if r.config.preRoll ≤ item.now - last then { r with blocked := false, lastMotion := none }
      else r

/-- The payload goes into the buffer; a segment begins with the first one that
shows motion. -/
def keep (r : AutoRecorder) (item : Item) : AutoRecorder :=
  let r := { r with buffer := r.buffer ++ [item] }
  if item.moving then
    let r := { r with
      motionSeconds :=
        if r.recording then
          r.lastMotion.elim r.motionSeconds fun last =>
            r.motionSeconds + min (item.now - last) maxMotionStep
        else r.motionSeconds
      lastMotion := some item.now
      commanded := if item.stream = .twist then true else r.commanded }
    if r.recording then r else r.begin_ item.now
  else r

def feed (r : AutoRecorder) (stream : Option RecordingStream) (payload : Payload)
    (clocks : Clocks) (labActive : Bool) : Option (AutoRecorder × List SegmentEnd) :=
  match stream with
  | none => some (r, [])
  | some stream =>
    let (r, ends) := r.lab clocks labActive
    if labActive then some (r, ends)
    else do
      let item : Item := ⟨clocks.now, stream, payload⟩
      let r ← r.unblock item
      if r.blocked then return (r, ends)
      let (r, ends') ← (r.keep item).check clocks
      return (r, ends ++ ends')

def tick (r : AutoRecorder) (clocks : Clocks) (labActive : Bool) :
    Option (AutoRecorder × List SegmentEnd) := do
  let (r, ends) := r.lab clocks labActive
  let (r, ends') ← r.check clocks
  return (r, ends ++ ends')

def flush (r : AutoRecorder) (clocks : Clocks) : AutoRecorder × List SegmentEnd :=
  if r.recording then
    let (r, end_) := r.finish clocks .done
    (r, [end_])
  else (r, [])

end AutoRecorder

/-! ## Calls -/

inductive RecorderInput where
  | feed (stream : Option RecordingStream) (payload : Payload) (labActive : Bool)
  | tick (labActive : Bool)
  | flush
  deriving DecidableEq

structure RecorderCall where
  clocks : Clocks
  input : RecorderInput
  deriving DecidableEq

namespace AutoRecorder

/-- What a call leaves and ends, unless it raises. -/
def call (r : AutoRecorder) (e : RecorderCall) : Option (AutoRecorder × List SegmentEnd) :=
  match e.input with
  | .feed stream payload labActive => r.feed stream payload e.clocks labActive
  | .tick labActive => r.tick e.clocks labActive
  | .flush => some (r.flush e.clocks)

/-- A call, with what it ends; none if it raises. -/
def step (r : AutoRecorder) (e : RecorderCall) : AutoRecorder × Option (List SegmentEnd) :=
  match r.call e with
  | none => (r, none)
  | some (r, ends) => (r, some ends)

end AutoRecorder

end Questix.LabBridge
