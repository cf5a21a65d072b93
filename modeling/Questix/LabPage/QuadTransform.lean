/-
Questix.LabPage.QuadTransform — the map of a marker onto its corners in the image
(`solve` and `quadTransform` of `vision/core.js`), with exact numbers.

The eight rows of the system are the equations of a perspective map that sends
the corners of the unit square to the four given ones (`sends_of_solve`), so a map
that is returned is one of `Lib.Perspective`. The map is partial here: a division
by 0 has no value.
-/
import Mathlib.Tactic.NormNum
import Questix.Lib.GaussJordan
import Questix.Lib.Perspective

namespace Questix.LabPage.Vision

open Questix.Lib Questix.Lib.Perspective

/-! ## The map -/

/-- `{ x, y }` -/
abbrev ImagePoint := ℝ × ℝ

noncomputable section

/-- The unknowns of an 8×9 system; none when it is singular. -/
def solve (matrix : GaussJordan.Rows 8) : Option (Fin 8 → ℝ) :=
  GaussJordan.solve (1 / 10 ^ 10) (fun i j => matrix i j.castSucc) fun i => matrix i (Fin.last 8)

def unitCorners : Fin 4 → ℝ × ℝ := ![(0, 0), (1, 0), (1, 1), (0, 1)]

/-- The two rows of a corner. -/
def cornerRows (quad : Fin 4 → ImagePoint) (corner : Fin 4) : Fin 2 → Fin 9 → ℝ :=
  let (u, v) := unitCorners corner
  let (x, y) := quad corner
  ![![u, v, 1, 0, 0, 0, -x * u, -x * v, x], ![0, 0, 0, u, v, 1, -y * u, -y * v, y]]

/-- The rows of all corners, one after the other. -/
def quadRows (quad : Fin 4 → ImagePoint) : GaussJordan.Rows 8 := fun i =>
  cornerRows quad ⟨i.val / 2, by omega⟩ ⟨i.val % 2, by omega⟩

def quotient (a b : ℝ) : Option ℝ := if b = 0 then none else some (a / b)

def quadTransform (quad : Fin 4 → ImagePoint) : Option (ℝ → ℝ → Option ImagePoint) :=
  (solve (quadRows quad)).map fun h u v => do
    let x ← quotient (h 0 * u + h 1 * v + h 2) (h 6 * u + h 7 * v + 1)
    let y ← quotient (h 3 * u + h 4 * v + h 5) (h 6 * u + h 7 * v + 1)
    some (x, y)

end

/-! ## The system -/

variable {quad : Fin 4 → ImagePoint} {toImage : ℝ → ℝ → Option ImagePoint}

theorem sum_cornerRows (quad : Fin 4 → ImagePoint) (h : Fin 8 → ℝ) (i : Fin 4) :
    (∑ j : Fin 8, cornerRows quad i 0 j.castSucc * h j
        = (unitCorners i).1 * h 0 + (unitCorners i).2 * h 1 + h 2
          - (quad i).1 * ((unitCorners i).1 * h 6 + (unitCorners i).2 * h 7)) ∧
      ∑ j : Fin 8, cornerRows quad i 1 j.castSucc * h j
        = (unitCorners i).1 * h 3 + (unitCorners i).2 * h 4 + h 5
          - (quad i).2 * ((unitCorners i).1 * h 6 + (unitCorners i).2 * h 7) := by
  rw [Fin.sum_univ_eight, Fin.sum_univ_eight]
  constructor
  · change (unitCorners i).1 * h 0 + (unitCorners i).2 * h 1 + 1 * h 2 + 0 * h 3 + 0 * h 4
      + 0 * h 5 + -(quad i).1 * (unitCorners i).1 * h 6 + -(quad i).1 * (unitCorners i).2 * h 7 = _
    ring
  · change 0 * h 0 + 0 * h 1 + 0 * h 2 + (unitCorners i).1 * h 3 + (unitCorners i).2 * h 4
      + 1 * h 5 + -(quad i).2 * (unitCorners i).1 * h 6 + -(quad i).2 * (unitCorners i).2 * h 7 = _
    ring

theorem sends_of_solve {h : Coefficients ℝ} (hsolve : solve (quadRows quad) = some h) :
    Sends h quad := by
  have hrow (i : Fin 4) (k : Fin 2) :
      ∑ j : Fin 8, cornerRows quad i k j.castSucc * h j = cornerRows quad i k (Fin.last 8) := by
    have heq := GaussJordan.solve_sound (by norm_num) hsolve ⟨2 * i.val + k.val, by omega⟩
    have hcorner : (2 * i.val + k.val) / 2 = i.val := by omega
    have hk : (2 * i.val + k.val) % 2 = k.val := by omega
    simpa only [quadRows, hcorner, hk] using heq
  intro i
  obtain ⟨hsumX, hsumY⟩ := sum_cornerRows quad h i
  have hx : cornerRows quad i 0 (Fin.last 8) = (quad i).1 := rfl
  have hy : cornerRows quad i 1 (Fin.last 8) = (quad i).2 := rfl
  have hunit : unitCorner i = unitCorners i := rfl
  unfold numeratorX numeratorY weight denominator
  rw [hunit]
  constructor
  · linear_combination (hrow i 0) - hsumX + hx
  · linear_combination (hrow i 1) - hsumY + hy

theorem quadTransform_some (hsome : quadTransform quad = some toImage) :
    ∃ h, Sends h quad ∧ ∀ u v, toImage u v =
      if denominator h u v = 0 then none else some (image h u v) := by
  obtain ⟨h, hsolve, rfl⟩ := Option.map_eq_some_iff.1 hsome
  refine ⟨h, sends_of_solve hsolve, fun u v => ?_⟩
  unfold quotient
  change (if denominator h u v = 0 then none else some (numeratorX h u v / denominator h u v)).bind
    (fun x => (if denominator h u v = 0 then none
      else some (numeratorY h u v / denominator h u v)).bind fun y => some (x, y)) = _
  split
  · rfl
  · rfl

/-! ## The map of a convex quadrilateral -/

/-- Of a strictly convex quadrilateral, a map that is returned has a value on the whole
unit square, in the quadrilateral; it sends the corners to the corners, and lines to
lines. -/
theorem quadTransform_perspective (hconvex : StrictlyConvex quad)
    (hsome : quadTransform quad = some toImage) :
    (∀ u v, 0 ≤ u → u ≤ 1 → 0 ≤ v → v ≤ 1 → ∃ p, toImage u v = some p ∧ Within quad p) ∧
    (∀ i, toImage (unitCorners i).1 (unitCorners i).2 = some (quad i)) ∧
    ∀ s : Set (ℝ × ℝ), OnOneLine s → OnOneLine {p | ∃ a ∈ s, toImage a.1 a.2 = some p} := by
  obtain ⟨h, hsends, hvalue⟩ := quadTransform_some hsome
  refine ⟨fun u v hu hu' hv hv' => ?_, fun i => ?_, fun s hline => ?_⟩
  · have hpos := denominator_pos hconvex hsends hu hu' hv hv'
    rw [hvalue, if_neg hpos.ne']
    exact ⟨_, rfl, image_within hconvex hsends hu hu' hv hv'⟩
  · have hpos : 0 < denominator h (unitCorners i).1 (unitCorners i).2 :=
      weight_pos hconvex hsends i
    rw [hvalue, if_neg hpos.ne']
    exact congrArg some (image_corner hconvex hsends i)
  · -- the points of the line where the map has a value
    have himage : {p | ∃ a ∈ s, toImage a.1 a.2 = some p}
        = (fun a => image h a.1 a.2) '' {a | a ∈ s ∧ denominator h a.1 a.2 ≠ 0} := by
      ext p
      constructor
      · rintro ⟨a, ha, hp⟩
        rw [hvalue] at hp
        split at hp
        · cases hp
        · rename_i hne
          exact ⟨a, ⟨ha, hne⟩, Option.some.inj hp⟩
      · rintro ⟨a, ⟨ha, hne⟩, rfl⟩
        exact ⟨a, ha, by rw [hvalue, if_neg hne]⟩
    rw [himage]
    obtain ⟨p, q, r, hpq, hall⟩ := hline
    exact image_line hconvex hsends (fun a ha => ha.2) ⟨p, q, r, hpq, fun a ha => hall a ha.1⟩

def trapezoid : Fin 4 → ImagePoint := ![(0, 0), (2, 0), (1, 1), (0, 1)]

/-- The system of the trapezoid, undone. -/
def trapezoidInverse : Fin 8 → Fin 8 → ℝ := ![
  ![-1, -2, 1, 2, 0, -2, 0, 2],
  ![-1, 0, 0, 0, 0, 0, 1, 0],
  ![1, 0, 0, 0, 0, 0, 0, 0],
  ![0, -1, 0, 1, 0, 0, 0, 0],
  ![-1, -2, 1, 1, -1, -1, 1, 2],
  ![0, 1, 0, 0, 0, 0, 0, 0],
  ![0, -1, 0, 1, 0, -1, 0, 1],
  ![-1, -1, 1, 1, -1, -1, 1, 1]]

theorem trapezoidInverse_spec (x : Fin 8 → ℝ) (j : Fin 8) :
    ∑ i, trapezoidInverse j i * ∑ k : Fin 8, quadRows trapezoid i k.castSucc * x k = x j := by
  have hX := fun i => (sum_cornerRows trapezoid x i).1
  have hY := fun i => (sum_cornerRows trapezoid x i).2
  rw [Fin.sum_univ_eight]
  change trapezoidInverse j 0 * ∑ k : Fin 8, cornerRows trapezoid 0 0 k.castSucc * x k
    + trapezoidInverse j 1 * ∑ k : Fin 8, cornerRows trapezoid 0 1 k.castSucc * x k
    + trapezoidInverse j 2 * ∑ k : Fin 8, cornerRows trapezoid 1 0 k.castSucc * x k
    + trapezoidInverse j 3 * ∑ k : Fin 8, cornerRows trapezoid 1 1 k.castSucc * x k
    + trapezoidInverse j 4 * ∑ k : Fin 8, cornerRows trapezoid 2 0 k.castSucc * x k
    + trapezoidInverse j 5 * ∑ k : Fin 8, cornerRows trapezoid 2 1 k.castSucc * x k
    + trapezoidInverse j 6 * ∑ k : Fin 8, cornerRows trapezoid 3 0 k.castSucc * x k
    + trapezoidInverse j 7 * ∑ k : Fin 8, cornerRows trapezoid 3 1 k.castSucc * x k = x j
  simp only [hX, hY]
  simp only [trapezoid, unitCorners, Matrix.cons_val]
  match j with
  | 0 | 1 | 2 | 3 | 4 | 5 | 6 | 7 =>
    simp only [trapezoidInverse, Matrix.cons_val]
    ring

theorem quadTransform_trapezoid : ∃ toImage, quadTransform trapezoid = some toImage := by
  have hbound : ∑ j, ∑ i, trapezoidInverse j i ^ 2 ≤ 64 := by
    simp only [Fin.sum_univ_eight, trapezoidInverse, Matrix.cons_val]
    norm_num
  have hlow (x : Fin 8 → ℝ) : (1 / 8) ^ 2 * ∑ j, x j ^ 2
      ≤ ∑ i, (∑ j : Fin 8, quadRows trapezoid i j.castSucc * x j) ^ 2 := by
    have hstretch := GaussJordan.stretch_of_inverse trapezoidInverse_spec hbound x
    linarith
  obtain ⟨h, hsolve, -⟩ := GaussJordan.solve_spec hlow
    (show (0 : ℝ) < 1 / 10 ^ 10 by norm_num) (by norm_num)
  exact ⟨_, congrArg _ hsolve⟩

theorem trapezoid_convex : StrictlyConvex trapezoid := by
  left
  intro i
  match i with
  | 0 =>
    change (0 : ℝ) < (2 - 0) * (1 - 0) - (0 - 0) * (1 - 0)
    norm_num
  | 1 =>
    change (0 : ℝ) < (1 - 2) * (1 - 0) - (1 - 0) * (0 - 2)
    norm_num
  | 2 =>
    change (0 : ℝ) < (0 - 1) * (0 - 1) - (1 - 1) * (0 - 1)
    norm_num
  | 3 =>
    change (0 : ℝ) < (0 - 0) * (0 - 1) - (0 - 1) * (2 - 0)
    norm_num

theorem quadTransform_perspective_trapezoid :
    ∃ toImage, quadTransform trapezoid = some toImage ∧
      (∀ u v, 0 ≤ u → u ≤ 1 → 0 ≤ v → v ≤ 1 →
        ∃ p, toImage u v = some p ∧ Within trapezoid p) ∧
      (∀ i, toImage (unitCorners i).1 (unitCorners i).2 = some (trapezoid i)) ∧
      ∀ s : Set (ℝ × ℝ), OnOneLine s → OnOneLine {p | ∃ a ∈ s, toImage a.1 a.2 = some p} := by
  obtain ⟨toImage, hsome⟩ := quadTransform_trapezoid
  exact ⟨toImage, hsome, quadTransform_perspective trapezoid_convex hsome⟩

end Questix.LabPage.Vision
