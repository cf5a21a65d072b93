/-
Questix.LabPage.PlanRoute — planning a route in a room with walls and obstacles
(`planning/core.js`), over the reals.

The grid is a representation for the search: its points are those that the route
may turn at. A cell is `id`, counted row by row. A number that is `Infinity`
before it is set is `none` here, as is a parent that is -1.
-/
import Questix.Lib.BinaryHeap
import Questix.Lib.Plane

namespace Questix.LabPage.PlanRoute

open Questix.Lib

structure Point where
  x : ℝ
  y : ℝ

structure Rectangle where
  x : ℝ
  y : ℝ
  w : ℝ
  h : ℝ

structure PlanMap where
  width : ℝ
  height : ℝ
  start : Point
  goal : Point
  obstacles : List Rectangle

inductive Algorithm where
  | astar
  | dijkstra
  deriving DecidableEq

noncomputable section

/-! ## Clearance -/

def distance (a b : Point) : ℝ := hypot (a.x - b.x) (a.y - b.y)

def rectDistance (p : Point) (r : Rectangle) : ℝ :=
  hypot (max (max (r.x - p.x) 0) (p.x - r.x - r.w)) (max (max (r.y - p.y) 0) (p.y - r.y - r.h))

/-- The distance of `p` from the segment from `a` to `b`. -/
def pointSegment (p a b : Point) : ℝ :=
  let dx := b.x - a.x
  let dy := b.y - a.y
  let squares := dx * dx + dy * dy
  let k := max 0 (min 1
    (((p.x - a.x) * dx + (p.y - a.y) * dy) / if squares = 0 then 1 else squares))
  distance p ⟨a.x + k * dx, a.y + k * dy⟩

/-- The part of a segment from `lo` to `hi` where one coordinate, which is `p` at its start
and changes by `d`, is between `least` and `most`. -/
def slab (p d least most : ℝ) (part : ℝ × ℝ) : Option (ℝ × ℝ) :=
  if |d| < 1 / 10 ^ 12 then
    if p < least ∨ most < p then none else some part
  else
    let x := (least - p) / d
    let y := (most - p) / d
    let lo := max part.1 (min x y)
    let hi := min part.2 (max x y)
    if hi < lo then none else some (lo, hi)

def intersects (a b : Point) (r : Rectangle) : Bool :=
  ((slab a.x (b.x - a.x) r.x (r.x + r.w) (0, 1)).bind
    (slab a.y (b.y - a.y) r.y (r.y + r.h))).isSome

def corners (r : Rectangle) : List Point :=
  [⟨r.x, r.y⟩, ⟨r.x + r.w, r.y⟩, ⟨r.x, r.y + r.h⟩, ⟨r.x + r.w, r.y + r.h⟩]

/-- The way to the walls. -/
def wallClearance (p : Point) (map : PlanMap) : ℝ :=
  min (min p.x p.y) (min (map.width - p.x) (map.height - p.y))

def planningClearance (p : Point) (map : PlanMap) : ℝ :=
  (map.obstacles.map (rectDistance p)).foldl min (wallClearance p map)

/-- The loop of `segmentClearance`, with the least so far. -/
def obstacleClearance (a b : Point) : List Rectangle → ℝ → ℝ
  | [], least => least
  | r :: rest, least =>
    if intersects a b r then 0
    else
      obstacleClearance a b rest
        (((corners r).map fun corner => pointSegment corner a b).foldl min
          (min (min least (rectDistance a r)) (rectDistance b r)))

def segmentClearance (a b : Point) (map : PlanMap) : ℝ :=
  obstacleClearance a b map.obstacles (min (wallClearance a map) (wallClearance b map))

/-- The sum of the ways from each point to the next. -/
def planningLength : List Point → ℝ
  | a :: b :: rest => distance a b + planningLength (b :: rest)
  | _ => 0

/-! ## The grid -/

/-- What the search does not change. -/
structure Grid where
  map : PlanMap
  required : ℝ
  cols : ℤ
  rows : ℤ
  cell : ℝ

def SLACK : ℝ := 1 / 10 ^ 7

def MERGE : ℝ := 1 / 10 ^ 8

def GAIN : ℝ := 1 / 10 ^ 9

namespace Grid

variable (grid : Grid)

def n : ℕ := (grid.cols * grid.rows).toNat

def column (id : ℕ) : ℤ := (id : ℤ).tmod grid.cols

def row (id : ℕ) : ℤ := (id : ℤ).fdiv grid.cols

def point (id : ℕ) : Point := ⟨grid.column id * grid.cell, grid.row id * grid.cell⟩

/-- A point that is too near. -/
def Tight (p : Point) : Prop := planningClearance p grid.map ≤ grid.required + SLACK

def Blocked (id : ℕ) : Prop := grid.Tight (grid.point id)

/-- A segment that is let through. -/
def Free (a b : Point) : Prop := ¬ segmentClearance a b grid.map ≤ grid.required + SLACK

open Classical in
/-- The nearest cell so far. -/
def nearer (p : Point) (best : Option (ℕ × ℝ)) (id : ℕ) : Option (ℕ × ℝ) :=
  let q := grid.point id
  let next := distance p q
  if ¬ grid.Blocked id ∧ (∀ found ∈ best, next < found.2) ∧ grid.Free p q then some (id, next)
  else best

/-- The nearest cell that `p` is joined to by a segment that is let through. -/
def connector (p : Point) : Option ℕ :=
  ((List.range grid.n).foldl (grid.nearer p) none).map Prod.fst

end Grid

/-! ## The search -/

structure Entry where
  id : ℕ
  f : ℝ

instance : Inhabited Entry := ⟨⟨0, 0⟩⟩

structure Search where
  g : ℕ → Option ℝ
  parents : ℕ → Option ℕ
  closed : ℕ → Bool
  heap : List Entry
  expanded : List Point

/-- The eight neighbours. -/
def dirs : List (ℤ × ℤ) :=
  [(-1, 0), (1, 0), (0, -1), (0, 1), (-1, -1), (1, -1), (-1, 1), (1, 1)]

section Search

variable (grid : Grid) (algorithm : Algorithm) (goal : ℕ)

/-- The way to the goal where nothing is in it. -/
def heuristic (id : ℕ) : ℝ :=
  let x : ℝ := |grid.column id - grid.column goal|
  let y : ℝ := |grid.row id - grid.row goal|
  match algorithm with
  | .dijkstra => 0
  | .astar => grid.cell * (max x y + (√2 - 1) * min x y)

def start (id : ℕ) : Search where
  g := Function.update (fun _ => none) id (some 0)
  parents := fun _ => none
  closed := fun _ => false
  heap := BinaryHeap.push Entry.f [] ⟨id, heuristic grid algorithm goal id⟩
  expanded := []

open Classical in
/-- One neighbour of a cell. -/
def relax (id : ℕ) (s : Search) (dir : ℤ × ℤ) : Search :=
  let xx := grid.column id + dir.1
  let yy := grid.row id + dir.2
  if xx < 0 ∨ grid.cols ≤ xx ∨ yy < 0 ∨ grid.rows ≤ yy then s
  else
    let j := (yy * grid.cols + xx).toNat
    if grid.Blocked j ∨ s.closed j = true ∨ ¬ grid.Free (grid.point id) (grid.point j) then s
    else
      match s.g id with
      -- a sum with `Infinity` is less than nothing
      | none => s
      | some way =>
        let cost := way + grid.cell * hypot dir.1 dir.2
        if ∀ old ∈ s.g j, cost + GAIN < old then
          { s with
            g := Function.update s.g j (some cost)
            parents := Function.update s.parents j (some id)
            heap := BinaryHeap.push Entry.f s.heap ⟨j, cost + heuristic grid algorithm goal j⟩ }
        else s

/-- A cell is done with. -/
def close (s : Search) (id : ℕ) : Search :=
  { s with closed := Function.update s.closed id true, expanded := s.expanded ++ [grid.point id] }

/-- The loop, which ends at the goal or when no cell is left. -/
def search : ℕ → Search → Option (Search × Bool)
  | 0, _ => none
  | steps + 1, s =>
    match BinaryHeap.pop Entry.f s.heap with
    | none => some (s, false)
    | some (top, heap) =>
      let s := { s with heap := heap }
      if s.closed top.id then search steps s
      else if top.id = goal then some (close grid s top.id, true)
      else search steps (dirs.foldl (relax grid algorithm goal top.id) (close grid s top.id))

end Search

/-- The cells from `j` to the first one, each the parent of the one before. -/
def chain (parents : ℕ → Option ℕ) : ℕ → ℕ → Option (List ℕ)
  | 0, _ => none
  | steps + 1, j =>
    match parents j with
    | none => some [j]
    | some parent => (chain parents steps parent).map (j :: ·)

/-! ## The route -/

section shorten

variable (grid : Grid) (raw : List Point)

def pointAt (index : ℕ) : Point := raw.getD index ⟨0, 0⟩

open Classical in
/-- The last point, from `next` down, that is seen from the one at `index`, or the one
behind it. -/
def lastSeen (index : ℕ) : ℕ → ℕ
  | 0 => 0
  | next + 1 =>
    if index + 1 < next + 1 ∧ ¬ grid.Free (pointAt raw index) (pointAt raw (next + 1)) then
      lastSeen index next
    else next + 1

theorem lastSeen_gt {index next : ℕ} (h : index < next) : index < lastSeen grid raw index next := by
  induction next with
  | zero => exact absurd h (Nat.not_lt_zero _)
  | succ next ih =>
    unfold lastSeen
    split
    · rename_i hskip
      exact ih (by omega)
    · exact h

/-- The points of the path behind `last`. -/
def shorten (index : ℕ) (last : Point) : List Point :=
  if _h : index < raw.length - 1 then
    let next := lastSeen grid raw index (raw.length - 1)
    if MERGE < distance last (pointAt raw next) then
      pointAt raw next :: shorten next (pointAt raw next)
    else shorten next last
  else []
termination_by raw.length - 1 - index
decreasing_by
  all_goals
    have := lastSeen_gt grid raw _h
    omega

end shorten

structure Options where
  start : Point
  goal : Point
  radius : ℝ
  margin : ℝ
  algorithm : Algorithm
  cell : ℝ

/-- The options that are not given. -/
def defaults (map : PlanMap) : Options where
  start := map.start
  goal := map.goal
  radius := 18 / 100
  margin := 0
  algorithm := .astar
  cell := 1 / 10

structure Route where
  path : List Point
  reason : String
  expanded : List Point
  blocked : List Bool
  cols : ℤ
  rows : ℤ
  cell : ℝ
  required : ℝ
  algorithm : Algorithm
  length : ℝ
  gridLength : Option ℝ

def gridOf (map : PlanMap) (options : Options) : Grid where
  map := map
  required := options.radius + options.margin
  cols := ⌊map.width / options.cell + 1 / 2⌋ + 1
  rows := ⌊map.height / options.cell + 1 / 2⌋ + 1
  cell := options.cell

open Classical in
def result (grid : Grid) (options : Options) (expanded : List Point) (path : List Point)
    (reason : String) (gridLength : Option ℝ) : Route where
  path := path
  reason := reason
  expanded := expanded
  blocked := (List.range grid.n).map fun id => decide (grid.Blocked id)
  cols := grid.cols
  rows := grid.rows
  cell := grid.cell
  required := grid.required
  algorithm := options.algorithm
  length := planningLength path
  gridLength := gridLength

def stepsOf (grid : Grid) : ℕ := 8 * grid.n + 2

/-- The points from the start to the goal, through the cells of the chain. -/
def rawPoints (grid : Grid) (options : Options) (ids : List ℕ) : List Point :=
  options.start :: (ids.reverse.map grid.point ++ [options.goal])

open Classical in
/-- `planRoute`; there is none where the arrays of the grid cannot have their length, as with
cells without a size. -/
def planRoute (map : PlanMap) (options : Options) : Option Route :=
  let grid := gridOf map options
  if options.cell = 0 ∨ grid.cols * grid.rows < 0 then none
  else if grid.Tight options.start then some (result grid options [] [] "start" none)
  else if grid.Tight options.goal then some (result grid options [] [] "goal" none)
  else
    match grid.connector options.start, grid.connector options.goal with
    | some first, some goal => do
      let (s, reached) ← search grid options.algorithm goal (stepsOf grid)
        (start grid options.algorithm goal first)
      if reached then
        let ids ← chain s.parents s.expanded.length goal
        let raw := rawPoints grid options ids
        some (result grid options s.expanded (options.start :: shorten grid raw 0 options.start) ""
          (s.g goal))
      else some (result grid options s.expanded [] "blocked" none)
    | _, _ => some (result grid options [] [] "blocked" none)

end

end Questix.LabPage.PlanRoute
