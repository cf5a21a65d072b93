/-
Questix.LabPage.BrowserSlam — the map that is built from a live LiDAR
(`usb-slam-core.js`), over the reals.

`ray` also says which cells it came by and how it ended, which the source does
not return. The keys of the point hash are pairs where the source has texts, and
a cell that it has no entry for has no points.
-/
import Mathlib.Data.Fin.VecNotation
import Mathlib.Data.Finset.Insert
import Questix.Lib.GaussJordan
import Questix.Lib.GridLine
import Questix.Lib.Plane

namespace Questix.LabPage.UsbSlam

open Questix.Lib
open Real

/-! ## Rays -/

def MAP_SIZE : ℤ := 640
def MAX_RAY_STEPS : ℕ := 1400

abbrev Grid := ℤ → ℤ

inductive Ending where
  | reached
  | left
  | spent
  deriving DecidableEq

structure RayRun where
  grid : Grid
  visited : List (ℤ × ℤ)
  ending : Ending

def inGrid (x y : ℤ) : Prop := 0 ≤ x ∧ 0 ≤ y ∧ x < MAP_SIZE ∧ y < MAP_SIZE

instance (x y : ℤ) : Decidable (inGrid x y) := inferInstanceAs (Decidable (_ ∧ _))

def cellIndex (x y : ℤ) : ℤ := y * MAP_SIZE + x

/-- What of the loop of `ray` does not change. -/
structure RayPlan where
  x1 : ℤ
  y1 : ℤ
  dx : ℤ
  dy : ℤ
  sx : ℤ
  sy : ℤ

/-- The loop of `ray`, with the steps that are left. -/
def rayLoop (plan : RayPlan) : ℕ → Grid → ℤ → ℤ → ℤ → RayRun
  | 0, grid, _, _, _ => ⟨grid, [], .spent⟩
  | steps + 1, grid, x, y, e =>
    if ¬ inGrid x y then ⟨grid, [], .left⟩
    else
      let k := cellIndex x y
      if x = plan.x1 ∧ y = plan.y1 then
        ⟨Function.update grid k (min 20 (grid k + 5)), [(x, y)], .reached⟩
      else
        let lowered := Function.update grid k (max (-20) (grid k - 1))
        let e2 := 2 * e
        let run := rayLoop plan steps lowered (if plan.dy ≤ e2 then x + plan.sx else x)
          (if e2 ≤ plan.dx then y + plan.sy else y)
          (e + (if plan.dy ≤ e2 then plan.dy else 0) + if e2 ≤ plan.dx then plan.dx else 0)
        { run with visited := (x, y) :: run.visited }

def ray (grid : Grid) (x0 y0 x1 y1 : ℤ) : RayRun :=
  let dx := |x1 - x0|
  let dy := -|y1 - y0|
  rayLoop
    { x1 := x1
      y1 := y1
      dx := dx
      dy := dy
      sx := if x0 < x1 then 1 else -1
      sy := if y0 < y1 then 1 else -1 }
    MAX_RAY_STEPS grid x0 y0 (dx + dy)

/-! ## Points -/

structure Pose where
  x : ℝ
  y : ℝ
  theta : ℝ

structure Point where
  x : ℝ
  y : ℝ

/-- A point of the map with the normal of the wall it is on. -/
structure Feature extends Point where
  nx : ℝ
  ny : ℝ

abbrev Hash := ℤ × ℤ → List Feature

noncomputable section

def RESOLUTION_METRES : ℝ := 5 / 100
def HASH_CELL_METRES : ℝ := 2 / 10
def VOXEL_METRES : ℝ := 4 / 100
def MATCH_RADIUS_METRES : ℝ := 3 / 10
def MAX_KEYFRAMES : ℕ := 25
def MAX_PATH_POINTS : ℕ := 12000
def MAX_ICP_ITERATIONS : ℕ := 12
def SCAN_POINT_TARGET : ℕ := 260

def wrapAngle (a : ℝ) : ℝ := atan2 (sin a) (cos a)

def transformPoint (p : Pose) (q : Point) : Point where
  x := p.x + cos p.theta * q.x - sin p.theta * q.y
  y := p.y + sin p.theta * q.x + cos p.theta * q.y

def transform (points : List Point) (p : Pose) : List Point := points.map (transformPoint p)

/-- The middle of three points, where they are close enough for a normal. -/
def normalAt (a q b : Point) : Option Feature :=
  let dx := b.x - a.x
  let dy := b.y - a.y
  let l := hypot dx dy
  if l < 15 / 1000 ∨ 45 / 100 < l ∨ 25 / 100 < hypot (q.x - a.x) (q.y - a.y) ∨
      25 / 100 < hypot (q.x - b.x) (q.y - b.y) then none
  else some { q with nx := -dy / l, ny := dx / l }

def normalsOf : List Point → List Feature
  | a :: q :: b :: rest => (normalAt a q b).toList ++ normalsOf (q :: b :: rest)
  | _ => []

def normals (points : List Point) (p : Pose) : List Feature := normalsOf (transform points p)

/-! ## The point hash -/

def voxelOf (p : Point) : ℤ × ℤ := (⌊p.x / VOXEL_METRES⌋, ⌊p.y / VOXEL_METRES⌋)
def hashCellOf (x y : ℝ) : ℤ × ℤ := (⌊x / HASH_CELL_METRES⌋, ⌊y / HASH_CELL_METRES⌋)

/-- A point goes into the hash if its voxel is not yet used. -/
def addPoint (state : Finset (ℤ × ℤ) × Hash) (p : Feature) : Finset (ℤ × ℤ) × Hash :=
  let v := voxelOf p.toPoint
  if v ∈ state.1 then state
  else
    let k := hashCellOf p.x p.y
    (insert v state.1, Function.update state.2 k (state.2 k ++ [p]))

/-- The hash of the key frames, the newest of which come last. -/
def rebuild (frames : List (List Feature)) : Hash :=
  (frames.reverse.flatten.foldl addPoint (∅, fun _ => [])).2

def distanceSq (x y : ℝ) (q : Feature) : ℝ := (q.x - x) ^ 2 + (q.y - y) ^ 2

/-- The nearest point so far, and the square of its distance. -/
def closer (x y : ℝ) (best : Option Feature × ℝ) (q : Feature) : Option Feature × ℝ :=
  if distanceSq x y q < best.2 then (some q, distanceSq x y q) else best

def offsets : List ℤ := [-2, -1, 0, 1, 2]

def nearest (hash : Hash) (x y : ℝ) : Option Feature :=
  let g := hashCellOf x y
  let around := offsets.flatMap fun i => offsets.flatMap fun j => hash (g.1 + i, g.2 + j)
  (around.foldl (closer x y) (none, MATCH_RADIUS_METRES ^ 2)).1

/-! ## Matching -/

def solveMatrix (a : Fin 3 → Fin 3 → ℝ) (b : Fin 3 → ℝ) : Option (Fin 3 → ℝ) :=
  GaussJordan.solve (1 / 10 ^ 8) a b

/-- What the equations of a step have added up to. -/
structure Normal where
  a : Fin 3 → Fin 3 → ℝ := ![![1 / 100, 0, 0], ![0, 1 / 100, 0], ![0, 0, 2 / 100]]
  b : Fin 3 → ℝ := ![0, 0, 0]
  count : ℕ := 0
  total : ℝ := 0
  nxx : ℝ := 0
  nyy : ℝ := 0
  nxy : ℝ := 0

def addEquation (hash : Hash) (p : Pose) (acc : Normal) (q : Point) : Normal :=
  let rx := cos p.theta * q.x - sin p.theta * q.y
  let ry := sin p.theta * q.x + cos p.theta * q.y
  let x := p.x + rx
  let y := p.y + ry
  match nearest hash x y with
  | none => acc
  | some m =>
    let e := m.nx * (x - m.x) + m.ny * (y - m.y)
    if 18 / 100 < |e| then acc
    else
      let j : Fin 3 → ℝ := ![m.nx, m.ny, -m.nx * ry + m.ny * rx]
      let w := min 1 (4 / 100 / max (1 / 1000) |e|)
      { a := fun r t => acc.a r t + w * j r * j t
        b := fun r => acc.b r - w * j r * e
        count := acc.count + 1
        total := acc.total + |e|
        nxx := acc.nxx + m.nx * m.nx
        nyy := acc.nyy + m.ny * m.ny
        nxy := acc.nxy + m.nx * m.ny }

def equations (hash : Hash) (points : List Point) (p : Pose) : Normal :=
  points.foldl (addEquation hash p) {}

structure Result where
  ok : Bool
  pose : Pose
  quality : ℝ
  weak : Bool

/-- The variables of `match`. -/
structure Search where
  p : Pose
  quality : ℝ := 0
  weak : Bool := true
  error : ℝ := 1
  overlap : ℝ := 0

def clamp (limit value : ℝ) : ℝ := max (-limit) (min limit value)

/-- One iteration; the Boolean says that the loop is left. -/
def icpStep (hash : Hash) (points : List Point) (s : Search) : Option (Search × Bool) :=
  let n := equations hash points s.p
  if n.count < 35 then none
  else
    match solveMatrix n.a n.b with
    | none => none
    | some step =>
      let overlap := (n.count : ℝ) / points.length
      let error := n.total / n.count
      some
        ({ p :=
            { x := s.p.x + clamp (1 / 10) (step 0)
              y := s.p.y + clamp (1 / 10) (step 1)
              theta := wrapAngle (s.p.theta + clamp (8 / 100) (step 2)) }
           quality := overlap * max 0 (1 - error / (12 / 100))
           weak := (n.nxx * n.nyy - n.nxy * n.nxy) / max 1 ((n.nxx + n.nyy) ^ 2) < 25 / 1000
           error := error
           overlap := overlap },
          √(step 0 ^ 2 + step 1 ^ 2 + step 2 ^ 2) < 3 / 10000)

def icp (hash : Hash) (points : List Point) : ℕ → Search → Option Search
  | 0, s => some s
  | steps + 1, s =>
    match icpStep hash points s with
    | none => none
    | some (s, true) => some s
    | some (s, false) => icp hash points steps s

structure Slam where
  pose : Pose := ⟨0, 0, 0⟩
  frames : List (List Feature) := []
  path : List Pose := []
  grid : Grid := fun _ => 0
  accepted : ℕ := 0
  rejected : ℕ := 0
  last : Option Pose := none
  hash : Hash := fun _ => []

def matchPose (slam : Slam) (points : List Point) : Result :=
  match icp slam.hash points MAX_ICP_ITERATIONS { p := slam.pose } with
  | none => ⟨false, slam.pose, 0, true⟩
  | some s =>
    { ok := !s.weak && 48 / 100 < s.quality && s.error < 7 / 100 && 55 / 100 < s.overlap &&
        hypot (s.p.x - slam.pose.x) (s.p.y - slam.pose.y) < 3 / 10 &&
        |wrapAngle (s.p.theta - slam.pose.theta)| < 25 / 100
      pose := s.p
      quality := s.quality
      weak := s.weak }

/-! ## Scans -/

def cellOf (q : Point) : ℤ × ℤ :=
  (⌊q.x / RESOLUTION_METRES + MAP_SIZE / 2⌋, ⌊MAP_SIZE / 2 - q.y / RESOLUTION_METRES⌋)

def startCell (p : Pose) : ℤ × ℤ := cellOf ⟨p.x, p.y⟩

/-- The ray of one point of a scan. -/
def castRay (p : Pose) (grid : Grid) (q : Point) : Grid :=
  (ray grid (startCell p).1 (startCell p).2 (cellOf q).1 (cellOf q).2).grid

def integrate (p : Pose) (grid : Grid) (points : List Point) : Grid :=
  (transform points p).foldl (castRay p) grid

inductive Reason where
  | fewPoints
  | weak
  | lost
  | bounds
  | mapping
  deriving DecidableEq

/-- What `process` returns; the pose and `weak` are not always there. -/
structure Answer where
  ok : Bool
  reason : Reason
  quality : ℝ
  pose : Option Pose := none
  weak : Option Bool := none

def Result.answer (result : Result) (reason : Reason) : Answer where
  ok := result.ok
  reason := reason
  quality := result.quality
  pose := some result.pose
  weak := some result.weak

def stride (scan : List Point) : ℕ := max 1 (scan.length / SCAN_POINT_TARGET)

def thin (scan : List Point) : List Point :=
  (scan.zipIdx.filter fun q => q.2 % stride scan = 0).map Prod.fst

/-- `key` -/
def isKey (slam : Slam) : Prop :=
  match slam.last with
  | none => True
  | some last => slam.accepted < 6 ∨
      45 / 1000 < hypot (slam.pose.x - last.x) (slam.pose.y - last.y) ∨
      3 / 100 < |wrapAngle (slam.pose.theta - last.theta)|

/-- `frames.push`, and `shift` where there are too many. -/
def pushFrame (frames : List (List Feature)) (frame : List Feature) : List (List Feature) :=
  if MAX_KEYFRAMES < (frames ++ [frame]).length then (frames ++ [frame]).tail
  else frames ++ [frame]

/-- A key frame goes into the map. -/
def addKey (slam : Slam) (scan points : List Point) : Slam :=
  let frames := pushFrame slam.frames (normals points slam.pose)
  { slam with
    grid := integrate slam.pose slam.grid scan
    frames := frames
    hash := rebuild frames
    last := some slam.pose }

/-- The position of a matched scan. -/
def moveTo (slam : Slam) (pose : Pose) : Slam :=
  { slam with
    pose := pose
    accepted := slam.accepted + 1
    path := if slam.path.length < MAX_PATH_POINTS then slam.path ++ [pose] else slam.path }

open Classical in
/-- A matched scan. -/
def accept (slam : Slam) (scan points : List Point) (result : Result) : Slam :=
  let moved := moveTo slam result.pose
  if isKey moved then addKey moved scan points else moved

def process (slam : Slam) (scan : List Point) : Slam × Answer :=
  let points := thin scan
  if points.length < 60 then (slam, { ok := false, reason := .fewPoints, quality := 0 })
  else
    let result := if slam.accepted ≠ 0 then matchPose slam points
      else ⟨true, slam.pose, 1, false⟩
    if !result.ok then
      ({ slam with rejected := slam.rejected + 1 },
        result.answer (if result.weak then .weak else .lost))
    else if 13 < max |result.pose.x| |result.pose.y| then
      (slam, { ok := false, reason := .bounds, quality := 0 })
    else (accept slam scan points result, result.answer .mapping)

end

end Questix.LabPage.UsbSlam
