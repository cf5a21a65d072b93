/-
Questix.LabBridge.Payloads — the messages of the live link, as the bridge and
its rosbag conversion make them (`messages.py`, `rosbags.py`) and as the page
makes them of a bag it opens (`rosbag-core.js`).

The two ports are written out one after the other, `Messages` and
`RosbagCore`. Numbers are doubles with exact arithmetic; rounding to a number
of digits (`round`, `toFixed`) and the arc tangent are parameters that both
ports share. A page's text is a list of UTF-16 code units, and a payload holds
its texts in this form.

A message is given as it was decoded, and so is the list of the static
transforms; how the bag is searched for them is left out.
-/
import Questix.ControlConfig.ControlProfile
import Questix.Lib.DblArith
import Questix.Lib.Utf16

namespace Questix.LabBridge.Payloads

open Questix.Lib
open Questix.ControlConfig (Text)

/-! ## Messages -/

/-- `builtin_interfaces/Time` -/
structure Time where
  sec : ℤ
  nanosec : ℤ

structure Quaternion where
  x : Dbl
  y : Dbl
  z : Dbl
  w : Dbl

/-- `geometry_msgs/TransformStamped`, without its stamp and the height. -/
structure TransformStamped where
  frameId : Text
  childFrameId : Text
  x : Dbl
  y : Dbl
  rotation : Quaternion

structure LaserScan where
  stamp : Time
  frameId : Text
  angleMin : Dbl
  angleIncrement : Dbl
  rangeMin : Dbl
  rangeMax : Dbl
  ranges : List Dbl

structure Odometry where
  stamp : Time
  x : Dbl
  y : Dbl
  orientation : Quaternion
  linearX : Dbl
  angularZ : Dbl

structure MotorFeedback where
  stamp : Time
  velocityRpm : ℤ
  velocityRpmRaw : ℤ
  targetRpm : ℤ
  currentAmp : Dbl
  faultCode : ℤ

structure DriveStatus where
  stamp : Time
  left : MotorFeedback
  right : MotorFeedback
  linearVelocity : Dbl
  angularVelocity : Dbl
  emergencyStop : Bool

structure Twist where
  linearX : Dbl
  angularZ : Dbl

structure EmergencyStop where
  stamp : Time
  active : Bool
  source : Text
  reason : Text

inductive Message where
  | scan (msg : LaserScan)
  | odom (msg : Odometry)
  | drive (msg : DriveStatus)
  | estop (msg : EmergencyStop)
  | twist (msg : Twist)

/-! ## Payloads -/

/-- A planar pose in the robot's base frame. -/
structure Mount where
  x : Dbl
  y : Dbl
  yaw : Dbl
  deriving DecidableEq

structure WheelPayload where
  rpm : ℤ
  rpmRaw : ℤ
  targetRpm : ℤ
  currentAmp : Option Dbl
  faultCode : ℤ
  feedbackStamp : Option Dbl
  feedbackAgeSec : Option Dbl
  feedbackValid : Bool

inductive Payload where
  | scan (stamp : Dbl) (frame : List UInt16)
      (angleMin angleIncrement rangeMin rangeMax : Dbl) (ranges : List (Option Dbl))
      (mount : Option Mount)
  | odom (stamp : Dbl) (x y theta v w : Option Dbl)
  | drive (stamp bridgeStamp : Dbl) (left right : WheelPayload) (v w : Option Dbl)
      (emergencyStop : Bool)
  | estop (stamp bridgeStamp : Dbl) (active : Bool) (source reason : List UInt16)
  | twist (stamp : Dbl) (linear angular : Option Dbl)

def FEEDBACK_MAX_AGE_SEC : Dbl := .fin (1 / 2)

section Ports

-- `round(value, digits)` and `Number(value.toFixed(digits))`; `math.atan2` and `Math.atan2`
variable (round : Dbl → ℕ → Dbl) (atan2 : Dbl → Dbl → Dbl)

/-! ## The bridge's port -/

namespace Messages

def stampSeconds (stamp : Time) : Dbl := .fin stamp.sec + .fin stamp.nanosec * .fin (1 / 10 ^ 9)

def yawFromQuaternion (q : Quaternion) : Dbl :=
  atan2 (2 * (q.w * q.z + q.x * q.y)) (1 - 2 * (q.y * q.y + q.z * q.z))

/-- `_finite` -/
def finite (value : Dbl) (digits : ℕ) : Option Dbl :=
  if value.isfinite then some (round value digits) else none

def mountFromTransform (t : TransformStamped) : Mount where
  x := round t.x 4
  y := round t.y 4
  yaw := round (yawFromQuaternion atan2 t.rotation) 4

/-- `range(0, count, stride)` -/
def range (count stride : ℕ) : List ℕ := List.range' 0 ((count + stride - 1) / stride) stride

def scanPayload (msg : LaserScan) (maxPoints : ℤ) (mount : Option Mount) : Payload :=
  let count := msg.ranges.length
  let stride := max 1 ⌈(count : ℚ) / max 1 (maxPoints : ℚ)⌉₊
  let reading := fun index =>
    let value := msg.ranges[index]?.getD 0
    if value.isfinite ∧ msg.rangeMin ≤ value ∧ value ≤ msg.rangeMax then some (round value 3)
    else none
  .scan (stampSeconds msg.stamp) (utf16 msg.frameId) msg.angleMin
    (msg.angleIncrement * .fin stride) msg.rangeMin msg.rangeMax ((range count stride).map reading)
    mount

def odomPayload (msg : Odometry) : Payload :=
  .odom (stampSeconds msg.stamp) (finite round msg.x 4) (finite round msg.y 4)
    (finite round (yawFromQuaternion atan2 msg.orientation) 4) (finite round msg.linearX 4)
    (finite round msg.angularZ 4)

/-- `not x` of a float or `None`. -/
def falsy (x : Option Dbl) : Bool := x.all fun x => x.eq 0

def feedbackAge (published : Dbl) (feedbackStamp : Option Dbl) : Option Dbl :=
  if falsy feedbackStamp || falsy (some published) then none
  else
    let age := published - feedbackStamp.getD 0
    if ¬ age.isfinite ∨ age < 0 then none else some (round age 4)

def wheelPayload (feedback : MotorFeedback) (published : Dbl) : WheelPayload :=
  let stamp := stampSeconds feedback.stamp
  let stamp := if 0 < stamp ∧ stamp.isfinite then some stamp else none
  let age := feedbackAge round published stamp
  { rpm := feedback.velocityRpm
    rpmRaw := feedback.velocityRpmRaw
    targetRpm := feedback.targetRpm
    currentAmp := finite round feedback.currentAmp 3
    faultCode := feedback.faultCode
    feedbackStamp := stamp
    feedbackAgeSec := age
    feedbackValid := age.any fun age => age ≤ FEEDBACK_MAX_AGE_SEC }

def drivePayload (msg : DriveStatus) (bridgeStamp : Dbl) : Payload :=
  let published := stampSeconds msg.stamp
  .drive published bridgeStamp (wheelPayload round msg.left published)
    (wheelPayload round msg.right published) (finite round msg.linearVelocity 4)
    (finite round msg.angularVelocity 4) msg.emergencyStop

def estopPayload (msg : EmergencyStop) (bridgeStamp : Dbl) : Payload :=
  let stamp := stampSeconds msg.stamp
  .estop (if 0 < stamp ∧ stamp.isfinite then stamp else bridgeStamp) bridgeStamp msg.active
    (utf16 (msg.source.take 64)) (utf16 (msg.reason.take 200))

def twistPayload (msg : Twist) (stamp : Dbl) : Payload :=
  .twist stamp (finite round msg.linearX 4) (finite round msg.angularZ 4)

/-- `str.lstrip('/')` -/
def lstripSlash (frame : Text) : Text := frame.dropWhile (· = '/')

/-- `_mounts` of `rosbags.py`: the base frame itself, and the static transforms from
it. -/
def mounts (baseFrame : Text) (transforms : List TransformStamped) : Text → Option Mount :=
  transforms.foldl
    (fun mounts t =>
      if lstripSlash t.frameId = baseFrame then
        Function.update mounts (lstripSlash t.childFrameId) (some (mountFromTransform round atan2 t))
      else mounts)
    (Function.update (fun _ => none) baseFrame (some { x := 0, y := 0, yaw := 0 }))

/-- `_payload` of `rosbags.py` -/
def payload (maxPoints : ℤ) (baseFrame : Text) (transforms : List TransformStamped)
    (receivedNs : ℕ) : Message → Payload
  | .scan msg =>
    scanPayload round msg maxPoints
      (mounts round atan2 baseFrame transforms (lstripSlash msg.frameId))
  | .odom msg => odomPayload round atan2 msg
  | .drive msg => drivePayload round msg (.fin receivedNs * .fin (1 / 10 ^ 9))
  | .estop msg => estopPayload msg (.fin receivedNs * .fin (1 / 10 ^ 9))
  | .twist msg => twistPayload round msg (.fin receivedNs * .fin (1 / 10 ^ 9))

end Messages

/-! ## The page's port -/

namespace RosbagCore

def nsToSeconds (ns : ℕ) : Dbl := .fin (ns / 1000 : ℕ) / .fin (10 ^ 6)

def stampSeconds (stamp : Time) : Dbl := .fin stamp.sec + .fin stamp.nanosec * .fin (1 / 10 ^ 9)

def finite (value : Dbl) (digits : ℕ) : Option Dbl :=
  if value.isfinite then some (round value digits) else none

def yaw (q : Quaternion) : Dbl :=
  atan2 (2 * (q.w * q.z + q.x * q.y)) (1 - 2 * (q.y * q.y + q.z * q.z))

/-- The loop over the ranges from `index` on; `fuel` is no less than the number of
turns left. -/
def beams (msg : LaserScan) (stride : ℕ) : ℕ → ℕ → List (Option Dbl)
  | 0, _ => []
  | fuel + 1, index =>
    if index < msg.ranges.length then
      let value := msg.ranges[index]?.getD 0
      let valid := value.isfinite && decide (msg.rangeMin ≤ value) && decide (value ≤ msg.rangeMax)
      (if valid then some (round value 3) else none) :: beams msg stride fuel (index + stride)
    else []

/-- The payload of a scan without its mount, which `readRosbag` adds. -/
def scanPayload (msg : LaserScan) (maxPoints : ℤ) (mount : Option Mount) : Payload :=
  let count := msg.ranges.length
  let stride := max 1 ⌈(count : ℚ) / max 1 (maxPoints : ℚ)⌉₊
  .scan (stampSeconds msg.stamp) (utf16 msg.frameId) msg.angleMin
    (msg.angleIncrement * .fin stride) msg.rangeMin msg.rangeMax (beams round msg stride count 0)
    mount

def odomPayload (msg : Odometry) : Payload :=
  .odom (stampSeconds msg.stamp) (finite round msg.x 4) (finite round msg.y 4)
    (finite round (yaw atan2 msg.orientation) 4) (finite round msg.linearX 4)
    (finite round msg.angularZ 4)

/-- `!x` of a number or `null`. -/
def falsy (x : Option Dbl) : Bool := x.all fun x => x.eq 0 || x.isnan

def feedbackAge (published : Dbl) (feedbackStamp : Option Dbl) : Option Dbl :=
  if falsy feedbackStamp || falsy (some published) then none
  else
    let age := published - feedbackStamp.getD 0
    if ¬ age.isfinite ∨ age < 0 then none else some (round age 4)

def wheel (feedback : MotorFeedback) (published : Dbl) : WheelPayload :=
  let raw := stampSeconds feedback.stamp
  let stamp := if 0 < raw ∧ raw.isfinite then some raw else none
  let age := feedbackAge round published stamp
  { rpm := feedback.velocityRpm
    rpmRaw := feedback.velocityRpmRaw
    targetRpm := feedback.targetRpm
    currentAmp := finite round feedback.currentAmp 3
    faultCode := feedback.faultCode
    feedbackStamp := stamp
    feedbackAgeSec := age
    feedbackValid := age.any fun age => age ≤ FEEDBACK_MAX_AGE_SEC }

def drivePayload (msg : DriveStatus) (bridgeStamp : Dbl) : Payload :=
  let published := stampSeconds msg.stamp
  .drive published bridgeStamp (wheel round msg.left published) (wheel round msg.right published)
    (finite round msg.linearVelocity 4) (finite round msg.angularVelocity 4) msg.emergencyStop

def twistPayload (msg : Twist) (stamp : Dbl) : Payload :=
  .twist stamp (finite round msg.linearX 4) (finite round msg.angularZ 4)

def estopPayload (msg : EmergencyStop) (bridgeStamp : Dbl) : Payload :=
  let stamp := stampSeconds msg.stamp
  .estop (if 0 < stamp ∧ stamp.isfinite then stamp else bridgeStamp) bridgeStamp msg.active
    ((utf16 msg.source).take 64) ((utf16 msg.reason).take 200)

/-- `frame.replace(/^\//, '')` -/
def stripSlash : Text → Text
  | '/' :: frame => frame
  | frame => frame

def staticMounts (baseFrame : Text) (transforms : List TransformStamped) : Text → Option Mount :=
  transforms.foldl
    (fun mounts t =>
      if stripSlash t.frameId = baseFrame then
        Function.update mounts (stripSlash t.childFrameId)
          (some { x := round t.x 4, y := round t.y 4, yaw := round (yaw atan2 t.rotation) 4 })
      else mounts)
    fun _ => none

/-- What `readRosbag` makes of a message: `PAYLOADS`, and the mount of a scan. -/
def payload (maxPoints : ℤ) (baseFrame : Text) (transforms : List TransformStamped)
    (logTimeNs : ℕ) : Message → Payload
  | .scan msg =>
    scanPayload round msg maxPoints
      (staticMounts round atan2 baseFrame transforms (stripSlash msg.frameId))
  | .odom msg => odomPayload round atan2 msg
  | .drive msg => drivePayload round msg (nsToSeconds logTimeNs)
  | .estop msg => estopPayload msg (nsToSeconds logTimeNs)
  | .twist msg => twistPayload round msg (nsToSeconds logTimeNs)

end RosbagCore

end Ports

end Questix.LabBridge.Payloads
