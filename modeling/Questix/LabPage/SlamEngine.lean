/-
Questix.LabPage.SlamEngine — reading a sensor log and estimating the drive from
it (`slam/engine.js`), over the reals.

A division by something that can vary is `divide`, which has no value where it
divides by 0, so that an estimate that has a value met no such division.
Of the frames the readings that no estimate uses are left out.
-/
import Questix.LabPage.BrowserSlam
import Questix.Lib.JsValue

namespace Questix.LabPage.SlamEngine

open Questix.Lib
open UsbSlam (Pose Point Feature transform wrapAngle)
open Real

/-! ## Reading a log -/

structure Lidar where
  x : ℚ
  y : ℚ
  yaw : ℚ

structure Config where
  radius : ℚ
  track : ℚ
  rangeMax : ℚ
  lidar : Lidar

structure Frame where
  t : ℚ
  leftRpm : ℚ
  rightRpm : ℚ
  gyroZ : ℚ
  angleMin : ℚ
  angleIncrement : ℚ
  ranges : List (Option ℚ)

structure Log where
  config : Config
  frames : List Frame
  stationarySeconds : ℚ

/-- The numbers that `LOG_LIMITS` allows from one to another. -/
def RADIUS : ℚ × ℚ := (5 / 1000, 1)
def TRACK : ℚ × ℚ := (3 / 100, 3)
def RANGE_MAX : ℚ × ℚ := (2 / 10, 50)
def FRAMES : ℕ × ℕ := (3, 3000)
def BEAMS : ℕ × ℕ := (12, 720)
def STATIONARY_SECONDS : ℚ × ℚ := (0, 5)

/-- And those it allows up to a limit. -/
def LIDAR_OFFSET : ℚ := 3
def SAMPLE_PERIOD : ℚ := 2
def RPM : ℚ := 1000
def GYRO : ℚ := 20
def POINTS : ℕ := 250000

def truthy : Js → Bool
  | .undefined | .null => false
  | .bool b => b
  | .num x => !x.isnan && x != 0
  | .str s => !s.isEmpty
  | .arr _ | .obj _ => true

def within (value : Js) (limits : ℚ × ℚ) : Option ℚ :=
  value.finite.filter fun x => limits.1 ≤ x ∧ x ≤ limits.2

/-- `config.lidar`, or the middle of the robot. -/
def lidarOf (value : Js) : Option Lidar :=
  if !truthy value then some ⟨0, 0, 0⟩
  else do
    let x ← (value.prop (units "x")).finite
    let y ← (value.prop (units "y")).finite
    let yaw ← (value.prop (units "yaw")).finite
    -- `Math.hypot(x, y)` is compared by the squares
    if LIDAR_OFFSET ^ 2 < x ^ 2 + y ^ 2 then none else some ⟨x, y, yaw⟩

def validateConfig (config : Js) : Except String Config :=
  match within (config.prop (units "radius")) RADIUS, within (config.prop (units "track")) TRACK,
      within (config.prop (units "rangeMax")) RANGE_MAX with
  | some radius, some track, some rangeMax =>
    match lidarOf (config.prop (units "lidar")) with
    | some lidar => .ok ⟨radius, track, rangeMax, lidar⟩
    | none => .error "LiDARの取付位置・角度を確認してください。"
  | _, _, _ => .error "車輪の半径・左右間隔・LiDARの最大距離を、m単位で指定してください。"

/-- A range: `null`, or a number up to the LiDAR's own. -/
def rangeOf (rangeMax : ℚ) : Js → Option (Option ℚ)
  | .null => some none
  | value => (within value (0, rangeMax)).map some

noncomputable section

/-- The ranges of a frame, where there are neither too few nor too many. -/
def rangesOf (value : Js) (angleIncrement rangeMax : ℚ) : Option (List (Option ℚ)) :=
  match value with
  | .arr items =>
    if items.length < BEAMS.1 ∨ BEAMS.2 < items.length ∨ angleIncrement ≤ 0 ∨
        2 * π + 1 / 10 < ((angleIncrement * (items.length - 1) : ℚ) : ℝ) then none
    else items.mapM (rangeOf rangeMax)
  | _ => none

def validateFrame (frame : Js) (index : ℕ) (previousTime rangeMax : ℚ) : Except String Frame :=
  let number := fun name => (frame.prop (units name)).finite
  match number "t", number "leftRpm", number "rightRpm", number "gyroZ", number "angleMin",
      number "angleIncrement" with
  | some t, some leftRpm, some rightRpm, some gyroZ, some angleMin, some angleIncrement =>
    if t ≤ previousTime ∨ SAMPLE_PERIOD < t - previousTime ∨ RPM < |leftRpm| ∨ RPM < |rightRpm| ∨
        GYRO < |gyroZ| then
      .error (toString (index + 1) ++
        "番目の時刻・回転数・角速度を確認してください。時刻は0秒からの経過秒、間隔は2秒以下です。")
    else
      match rangesOf (frame.prop (units "ranges")) angleIncrement rangeMax with
      | some ranges => .ok ⟨t, leftRpm, rightRpm, gyroZ, angleMin, angleIncrement, ranges⟩
      | none => .error (toString (index + 1) ++
          "番目の距離配列を確認してください。測定できなかった値はnullです。")
  | _, _, _, _, _, _ => .error (toString (index + 1) ++
      "番目の時刻・回転数・角速度を確認してください。時刻は0秒からの経過秒、間隔は2秒以下です。")

/-- The frames from `index` on. -/
def validateFrames (rangeMax : ℚ) : ℕ → ℚ → ℕ → List Js → Except String (List Frame)
  | _, _, _, [] => .ok []
  | index, previousTime, points, frame :: rest => do
    let valid ← validateFrame frame index previousTime rangeMax
    let points := points + valid.ranges.length
    if POINTS < points then .error "距離データが多すぎます。間引いて25万点以下にしてください。"
    else
      let others ← validateFrames rangeMax (index + 1) valid.t points rest
      .ok (valid :: others)

def stationaryOf (value : Js) : ℚ :=
  match value.finite with
  | some seconds => max STATIONARY_SECONDS.1 (min STATIONARY_SECONDS.2 seconds)
  | none => 0

def isFormat : Js → Bool
  | .str s => s = units "robo-lab-sensors-v1"
  | _ => false

def validateSlamLog (input : Js) : Except String Log :=
  if !isFormat (input.prop (units "format")) then
    .error "形式が違います。サンプルと同じ robo-lab-sensors-v1 のJSONを選んでください。"
  else do
    let config ← validateConfig (input.prop (units "config"))
    match input.prop (units "frames") with
    | .arr items =>
      if items.length < FRAMES.1 ∨ FRAMES.2 < items.length then
        .error "計測は3〜3,000フレームにしてください。"
      else do
        let frames ← validateFrames config.rangeMax 0 0 0 items
        .ok ⟨config, frames, stationaryOf (input.prop (units "stationarySeconds"))⟩
    | _ => .error "計測は3〜3,000フレームにしてください。"

/-! ## Matching a scan -/

/-- `a / b`; there is no value where `b` is 0. -/
def divide (a b : ℝ) : Option ℝ := if b = 0 then none else some (a / b)

def MIN_RANGE : ℚ := 3 / 100
def ICP_ITERATIONS : ℕ := 7
def ICP_MATCH_RADIUS : ℝ := 25 / 100
def ICP_MIN_MAP_POINTS : ℕ := 20
def ICP_MIN_SCAN_POINTS : ℕ := 12
def ICP_MIN_PAIRS : ℕ := 10
def ICP_PRIOR_XY : ℝ := 3 / 100
def ICP_PRIOR_THETA : ℝ := 5 / 100
def ICP_ROBUST_ERROR : ℝ := 4 / 100
def ICP_QUALITY_SCALE : ℝ := 12 / 100
def ICP_MAX_SHIFT : ℝ := 12 / 100
def ICP_MAX_TURN : ℝ := 7 / 100
def ICP_CONVERGED : ℝ := 15 / 100000
def ICP_WEAK_SHAPE : ℝ := 25 / 1000
def ICP_MIN_QUALITY : ℝ := 35 / 100
def ICP_MAX_CORRECTION : ℝ := 35 / 100
def ICP_MAX_TURN_CORRECTION : ℝ := 2 / 10
def NORMAL_MIN_SPAN : ℝ := 8 / 1000
def NORMAL_MAX_SPAN : ℝ := 6 / 10

def clamp (value low high : ℝ) : ℝ := max low (min high value)

/-- The points of the beams from `beam` on. -/
def beamPoints (config : Config) (frame : Frame) : ℕ → List (Option ℚ) → List Point
  | _, [] => []
  | beam, none :: rest => beamPoints config frame (beam + 1) rest
  | beam, some range :: rest =>
    let others := beamPoints config frame (beam + 1) rest
    if range < MIN_RANGE ∨ config.rangeMax ≤ range then others
    else
      let angle : ℝ := config.lidar.yaw + frame.angleMin + beam * frame.angleIncrement
      ⟨config.lidar.x + range * cos angle, config.lidar.y + range * sin angle⟩ :: others

def scanPoints (frame : Frame) (config : Config) : List Point :=
  beamPoints config frame 0 frame.ranges

def solve3 (matrix : Fin 3 → Fin 3 → ℝ) (rhs : Fin 3 → ℝ) : Option (Fin 3 → ℝ) :=
  GaussJordan.solve (1 / 10 ^ 10) matrix rhs

/-- The candidate that is nearest so far, and the square of its distance. -/
def closer (x y : ℝ) (best : Option Feature × ℝ) (candidate : Feature) : Option Feature × ℝ :=
  let distance2 := (candidate.x - x) ^ 2 + (candidate.y - y) ^ 2
  if distance2 < best.2 then (some candidate, distance2) else best

def nearestOf (map : List Feature) (x y : ℝ) : Option Feature :=
  (map.foldl (closer x y) (none, ICP_MATCH_RADIUS ^ 2)).1

/-- The normal equations, and what is counted with them. -/
structure Normal where
  matrix : Fin 3 → Fin 3 → ℝ
  rhs : Fin 3 → ℝ
  residual : ℝ := 0
  pairs : ℕ := 0
  nxx : ℝ := 0
  nyy : ℝ := 0
  nxy : ℝ := 0

/-- The equations with the prior on the prediction alone. -/
def priorOf (prediction pose : Pose) : Normal where
  matrix := ![![ICP_PRIOR_XY, 0, 0], ![0, ICP_PRIOR_XY, 0], ![0, 0, ICP_PRIOR_THETA]]
  rhs := ![ICP_PRIOR_XY * (prediction.x - pose.x), ICP_PRIOR_XY * (prediction.y - pose.y),
    ICP_PRIOR_THETA * wrapAngle (prediction.theta - pose.theta)]

/-- One point of the scan. -/
def addPair (map : List Feature) (pose : Pose) (acc : Normal) (point : Point) : Option Normal :=
  let rx := cos pose.theta * point.x - sin pose.theta * point.y
  let ry := sin pose.theta * point.x + cos pose.theta * point.y
  let x := pose.x + rx
  let y := pose.y + ry
  match nearestOf map x y with
  | none => some acc
  | some nearest => do
    let error := nearest.nx * (x - nearest.x) + nearest.ny * (y - nearest.y)
    let jacobian : Fin 3 → ℝ := ![nearest.nx, nearest.ny, -nearest.nx * ry + nearest.ny * rx]
    let ratio ← divide ICP_ROBUST_ERROR (max (1 / 10000) |error|)
    let weight := min 1 ratio
    some
      { matrix := fun row column => acc.matrix row column + weight * jacobian row * jacobian column
        rhs := fun row => acc.rhs row - weight * jacobian row * error
        residual := acc.residual + |error|
        pairs := acc.pairs + 1
        nxx := acc.nxx + jacobian 0 * jacobian 0
        nyy := acc.nyy + jacobian 1 * jacobian 1
        nxy := acc.nxy + jacobian 0 * jacobian 1 }

/-- The system of one iteration. -/
def normalEquations (points : List Point) (prediction : Pose) (map : List Feature) (pose : Pose) :
    Option Normal :=
  points.foldlM (addPair map pose) (priorOf prediction pose)

structure Match where
  pose : Pose
  used : Bool
  quality : Option ℝ
  weak : Bool

def unmatched (pose : Pose) : Match := ⟨pose, false, some 0, true⟩

/-- The variables of `matchScan`. -/
structure Search where
  pose : Pose
  quality : ℝ := 0
  weak : Bool := false

/-- A step along the normals only, where they constrain no more. -/
def alongNormals (n : Normal) (step : Fin 3 → ℝ) : Fin 3 → ℝ :=
  let axis := 1 / 2 * atan2 (2 * n.nxy) (n.nxx - n.nyy)
  let along := step 0 * cos axis + step 1 * sin axis
  ![along * cos axis, along * sin axis, step 2]

inductive Iterated where
  | unmatched
  | done (search : Search)
  | on (search : Search)

def iteration (points : List Point) (prediction : Pose) (map : List Feature) (s : Search) :
    Option Iterated := do
  let n ← normalEquations points prediction map s.pose
  if n.pairs < ICP_MIN_PAIRS then some .unmatched
  else
    let shape ← divide (n.nxx * n.nyy - n.nxy * n.nxy) (max 1 ((n.nxx + n.nyy) ^ 2))
    let weak := decide (shape < ICP_WEAK_SHAPE)
    match solve3 n.matrix n.rhs with
    | none => some .unmatched
    | some solved =>
      let step := if weak then alongNormals n solved else solved
      let share ← divide n.pairs points.length
      let mean ← divide n.residual n.pairs
      let next : Search :=
        { pose :=
            { x := s.pose.x + clamp (step 0) (-ICP_MAX_SHIFT) ICP_MAX_SHIFT
              y := s.pose.y + clamp (step 1) (-ICP_MAX_SHIFT) ICP_MAX_SHIFT
              theta := wrapAngle (s.pose.theta + clamp (step 2) (-ICP_MAX_TURN) ICP_MAX_TURN) }
          quality := clamp (share * (1 - mean / ICP_QUALITY_SCALE)) 0 1
          weak := weak }
      some (if √(step 0 ^ 2 + step 1 ^ 2 + step 2 ^ 2) < ICP_CONVERGED then .done next
        else .on next)

/-- The loop of `matchScan`, with the iterations that are left; `none` inside is an
unmatched scan. -/
def icp (points : List Point) (prediction : Pose) (map : List Feature) :
    ℕ → Search → Option (Option Search)
  | 0, s => some (some s)
  | steps + 1, s => do
    match ← iteration points prediction map s with
    | .unmatched => some none
    | .done s => some (some s)
    | .on s => icp points prediction map steps s

open Classical in
def matchScan (points : List Point) (prediction : Pose) (map : List Feature) : Option Match :=
  if map.length < ICP_MIN_MAP_POINTS ∨ points.length < ICP_MIN_SCAN_POINTS then
    some (unmatched prediction)
  else do
    match ← icp points prediction map ICP_ITERATIONS { pose := prediction } with
    | none => some (unmatched prediction)
    | some s =>
      let accepted := decide (ICP_MIN_QUALITY < s.quality ∧
        hypot (s.pose.x - prediction.x) (s.pose.y - prediction.y) < ICP_MAX_CORRECTION ∧
        |wrapAngle (s.pose.theta - prediction.theta)| < ICP_MAX_TURN_CORRECTION)
      some ⟨if accepted then s.pose else prediction, accepted, some s.quality, s.weak⟩

/-- The middle of three points, where its neighbours are neither too near nor too far. -/
def normalAt (before q after : Point) : Option (Option Feature) :=
  let dx := after.x - before.x
  let dy := after.y - before.y
  let span := hypot dx dy
  if span < NORMAL_MIN_SPAN ∨ NORMAL_MAX_SPAN < span then some none
  else do
    let nx ← divide (-dy) span
    let ny ← divide dx span
    some (some { q with nx := nx, ny := ny })

def normalsOf : List Point → Option (List Feature)
  | before :: q :: after :: rest => do
    let first ← normalAt before q after
    let others ← normalsOf (q :: after :: rest)
    some (first.toList ++ others)
  | _ => some []

def normals (points : List Point) (pose : Pose) : Option (List Feature) :=
  normalsOf (transform points pose)

/-! ## The drive -/

inductive Method where
  | wheel
  | imu
  | slam
  deriving DecidableEq

def SUBMAP_EVERY : ℕ := 3
def SUBMAP_LIMIT : ℕ := 16
def STATIONARY_RPM : ℚ := 3 / 10
def MIN_CALIBRATION_SAMPLES : ℕ := 3

def integratePose (pose : Pose) (distance turn : ℝ) : Pose where
  x := pose.x + distance * cos (pose.theta + turn / 2)
  y := pose.y + distance * sin (pose.theta + turn / 2)
  theta := wrapAngle (pose.theta + turn)

def wheelTravel (rpm radius seconds : ℝ) : ℝ := rpm * 2 * π * radius / 60 * seconds

def stationaryFrames (frames : List Frame) (stationarySeconds : ℚ) : List Frame :=
  frames.filter fun frame => frame.t ≤ stationarySeconds ∧ |frame.leftRpm| < STATIONARY_RPM ∧
    |frame.rightRpm| < STATIONARY_RPM

structure State where
  t : ℚ
  pose : Pose
  quality : Option ℝ
  matched : Bool
  weak : Bool
  points : List Point

/-- What the loop over the frames has besides the states. -/
structure Loop where
  index : ℕ := 0
  pose : Pose := ⟨0, 0, 0⟩
  lastTime : ℚ := 0
  submaps : List (List Feature) := []

/-- The pose that the wheels, or the wheels and the gyro, lead to. -/
def predict (config : Config) (method : Method) (bias : ℝ) (pose : Pose) (lastTime : ℚ)
    (frame : Frame) : Option Pose := do
  let seconds : ℝ := frame.t - lastTime
  let left := wheelTravel frame.leftRpm config.radius seconds
  let right := wheelTravel frame.rightRpm config.radius seconds
  let wheelTurn ← divide (right - left) config.track
  let turn := if method = .wheel then wheelTurn else (frame.gyroZ - bias) * seconds
  some (integratePose pose ((left + right) / 2) turn)

/-- `submaps.push`, and `shift` where there are too many. -/
def pushSubmap (submaps : List (List Feature)) (scan : List Feature) : List (List Feature) :=
  if SUBMAP_LIMIT < (submaps ++ [scan]).length then (submaps ++ [scan]).tail
  else submaps ++ [scan]

/-- The match of a frame, which only one method looks for. -/
def matchFrame (method : Method) (points : List Point) (prediction : Pose)
    (submaps : List (List Feature)) : Option Match :=
  if method = .slam then matchScan points prediction submaps.flatten
  else some ⟨prediction, false, none, false⟩

/-- The submaps after a frame. -/
def insertScan (method : Method) (s : Loop) (points : List Point) (pose : Pose) :
    Option (List (List Feature)) :=
  if method = .slam ∧ s.index % SUBMAP_EVERY = 0 then
    (normals points pose).map (pushSubmap s.submaps)
  else some s.submaps

/-- One frame. -/
def estimateFrame (config : Config) (method : Method) (bias : ℝ) (s : Loop) (frame : Frame) :
    Option (State × Loop) := do
  let prediction ← predict config method bias s.pose s.lastTime frame
  let points := scanPoints frame config
  let found ← matchFrame method points prediction s.submaps
  let submaps ← insertScan method s points found.pose
  some (⟨frame.t, found.pose, found.quality, found.used, found.weak, transform points found.pose⟩,
    ⟨s.index + 1, found.pose, frame.t, submaps⟩)

def estimateFrames (config : Config) (method : Method) (bias : ℝ) :
    Loop → List Frame → Option (List State)
  | _, [] => some []
  | s, frame :: rest => do
    let (state, s) ← estimateFrame config method bias s frame
    let others ← estimateFrames config method bias s rest
    some (state :: others)

structure Estimate where
  method : Method
  calibrate : Bool
  bias : ℝ
  calibrationCount : ℕ
  states : List State

/-- The mean of the gyro while the robot stands still, or 0. -/
def biasOf (calibrate : Bool) (stationary : List Frame) : Option ℝ :=
  if calibrate then divide ((stationary.map fun frame => frame.gyroZ).sum : ℚ) stationary.length
  else some 0

def estimateSlam (frames : List Frame) (config : Config) (method : Method) (calibrate : Bool)
    (stationarySeconds : ℚ) : Option (Except String Estimate) :=
  let stationary := stationaryFrames frames stationarySeconds
  if calibrate ∧ stationary.length < MIN_CALIBRATION_SAMPLES then
    some (.error ("開始時に静止した計測が3回以上必要です。最初の2秒静止したログを用意するか、" ++
      "補正を外してください。"))
  else do
    let bias ← biasOf calibrate stationary
    let states ← estimateFrames config method bias {} frames
    some (.ok ⟨method, calibrate, bias, if calibrate then stationary.length else 0, states⟩)

/-- `slamMetrics` of a log without a reference: the way back to the start, and the number
of weak states; there is none without a state. -/
def slamMetrics (estimate : Estimate) : Option (ℝ × ℕ) :=
  estimate.states.getLast?.map fun last =>
    (hypot last.pose.x last.pose.y, (estimate.states.filter State.weak).length)

end

end Questix.LabPage.SlamEngine
