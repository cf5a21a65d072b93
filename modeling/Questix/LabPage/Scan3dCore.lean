/-
Questix.LabPage.Scan3dCore — the planning map out of a 3D scan of the room
(`scan3d-core.js`, and `gridRectangles` of `room-core.js`).

Lengths are exact rationals. An index outside an array reads as 0, as the code
treats `undefined` where it can meet one. Counts of hits do not wrap.
-/
import Mathlib.Algebra.Order.Floor.Ring
import Mathlib.Algebra.Order.Round
import Mathlib.Data.Rat.Floor

namespace Questix.LabPage.Scan3d

def ROOM_CELL : ℚ := 1 / 10

structure Size where
  width : ℚ
  height : ℚ
  deriving DecidableEq

def ROOM_SIZE : Size := ⟨6, 4⟩

def MIN_POINT_HITS : Nat := 2

abbrev Point := ℚ × ℚ

/-! ## Obstacles of a grid -/

structure Rectangle where
  x : ℚ
  y : ℚ
  w : ℚ
  h : ℚ
  measured : Bool
  deriving DecidableEq

/-- The cells of a row from `first` up to `stop` as one rectangle. -/
def runRectangle (cell : ℚ) (row first stop : Nat) : Rectangle where
  x := first * cell
  y := row * cell
  w := (stop - first : ℚ) * cell
  h := cell
  measured := true

section gridRectangles

variable (occupied : List Nat) (columns : Nat) (cell : ℚ) (row : Nat)

def filled (column : Nat) : Prop :=
  column < columns ∧ occupied.getD (row * columns + column) 0 ≠ 0

instance (column : Nat) : Decidable (filled occupied columns row column) :=
  inferInstanceAs (Decidable (_ ∧ _))

/-- One column of the scan along a row: `start` is where a run began, `none` for
the -1 of the code. -/
def rowStep (s : Option Nat × List Rectangle) (column : Nat) : Option Nat × List Rectangle :=
  let start := if filled occupied columns row column ∧ s.1 = none then some column else s.1
  match start with
  | none => (none, s.2)
  | some first =>
    if filled occupied columns row column then (some first, s.2)
    else (none, s.2 ++ [runRectangle cell row first column])

def rowRectangles : List Rectangle :=
  ((List.range (columns + 1)).foldl (rowStep occupied columns cell row) (none, [])).2

end gridRectangles

/-- Consecutive occupied cells of a row become one rectangle. -/
def gridRectangles (occupied : List Nat) (columns rows : Nat) (cell : ℚ) : List Rectangle :=
  (List.range rows).flatMap (rowRectangles occupied columns cell)

/-! ## The slice -/

structure Grid where
  left : ℚ
  top : ℚ
  columns : Nat
  rows : Nat
  deriving DecidableEq

def Grid.cell (_ : Grid) : ℚ := ROOM_CELL

structure Slice where
  hits : List Nat
  grid : Grid
  mesh : Bool
  deriving DecidableEq

/-! ## The room -/

inductive Rotate where
  | auto
  | turn (quarter : Bool)
  deriving DecidableEq

structure RoomOptions where
  start : Option Point := none
  goal : Option Point := none
  rotate : Rotate := .auto
  offset : Option ℚ × Option ℚ := (none, none)

structure RoomMap where
  size : Size
  start : Point
  goal : Point
  obstacles : List Rectangle
  measured : Bool

structure Room where
  map : RoomMap
  extent : Size
  offset : Point
  maxOffset : Point
  rotated : Bool

/-- Where along one side of the room the frame lies: asked for, or centred. -/
def place (value : Option ℚ) (max room frame : ℚ) : ℚ :=
  match value with
  | none => if max > 0 then max / 2 else -(frame - room) / 2
  | some value => Min.min max (Max.max (if max > 0 then 0 else -(frame - room) / 2) value)

def jsRound (x : ℚ) : Int := ⌊x + 1 / 2⌋

namespace Slice

variable (slice : Slice)

def minHits : Nat := if slice.mesh then 1 else MIN_POINT_HITS

/-- The scan's own cell, column first, that a cell of the map shows. -/
def source (rotated : Bool) (chosen : Point) (column row : Nat) : Int × Int :=
  let u := ⌊chosen.1 / slice.grid.cell + column + 1 / 2⌋
  let v := ⌊chosen.2 / slice.grid.cell + row + 1 / 2⌋
  if rotated then (slice.grid.columns - 1 - v, u) else (u, v)

def cellValue (rotated : Bool) (chosen : Point) (row column : Nat) : Nat :=
  let (sc, sr) := slice.source rotated chosen column row
  if sc < 0 ∨ sr < 0 ∨ sc ≥ slice.grid.columns ∨ sr ≥ slice.grid.rows then 0
  else if slice.hits.getD (sr * slice.grid.columns + sc).toNat 0 ≥ slice.minHits then 1
  else 0

/-- The array `occupied`, row by row. -/
def occupied (rotated : Bool) (chosen : Point) (columns rows : Nat) : List Nat :=
  (List.range rows).flatMap fun row =>
    (List.range columns).map (slice.cellValue rotated chosen row)

end Slice

def mapColumns (grid : Grid) : Nat := (jsRound (ROOM_SIZE.width / grid.cell)).toNat
def mapRows (grid : Grid) : Nat := (jsRound (ROOM_SIZE.height / grid.cell)).toNat

def scanRoom (slice : Slice) (options : RoomOptions) : Room :=
  let grid := slice.grid
  let tall := grid.rows > grid.columns
  let rotated := match options.rotate with
    | .auto => decide tall
    | .turn quarter => quarter
  let extent : Size :=
    if rotated then ⟨grid.rows * grid.cell, grid.columns * grid.cell⟩
    else ⟨grid.columns * grid.cell, grid.rows * grid.cell⟩
  let maxOffset : Point :=
    (max 0 (extent.width - ROOM_SIZE.width), max 0 (extent.height - ROOM_SIZE.height))
  let chosen : Point :=
    (place options.offset.1 maxOffset.1 extent.width ROOM_SIZE.width,
      place options.offset.2 maxOffset.2 extent.height ROOM_SIZE.height)
  let columns := mapColumns grid
  let rows := mapRows grid
  { map :=
      { size := ROOM_SIZE
        start := options.start.getD (3 / 5, 2)
        goal := options.goal.getD (27 / 5, 2)
        obstacles :=
          gridRectangles (slice.occupied rotated chosen columns rows) columns rows grid.cell
        measured := true }
    extent
    offset := chosen
    maxOffset
    rotated }

end Questix.LabPage.Scan3d
