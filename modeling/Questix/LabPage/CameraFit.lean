/-
Questix.LabPage.CameraFit — where a camera is mounted, from markers that it and
the arm have both measured (`systems/core.js`), over the reals.

`squares_eq` takes the sum of squares apart at the two centres: what is left of
it depends on the angle through one cosine and on the position through one
distance. `fitCameraTransform` makes the cosine 1 and the distance 0, and
nothing else does (`camera_fit_optimal`).
-/
import Mathlib.Algebra.BigOperators.Group.List.Basic
import Mathlib.Tactic.LinearCombination
import Mathlib.Tactic.Positivity
import Questix.Lib.Plane

namespace Questix.LabPage.Systems

open Questix.Lib
open Real

structure PointXZ where
  x : ℝ
  z : ℝ

structure Camera where
  cameraX : ℝ
  cameraZ : ℝ
  cameraAngle : ℝ

/-- One marker, as the arm and as the camera measured it. -/
structure MarkerPair where
  body : PointXZ
  camera : PointXZ

structure Fit extends Camera where
  error : ℝ

/-- Why markers are not accepted. -/
inductive CalibrationError where
  | needTwoPairs
  | spreadMarkers

def CalibrationError.text : CalibrationError → String
  | .needTwoPairs => "離れた2点以上の対応が必要です。"
  | .spreadMarkers => "目印を離して測ってください。"

noncomputable section

def rad (degrees : ℝ) : ℝ := degrees * π / 180

def mean (values : List ℝ) : ℝ := values.sum / values.length

def cameraToBody (point : PointXZ) (camera : Camera) : PointXZ :=
  let angle := rad camera.cameraAngle
  { x := camera.cameraX + point.x * cos angle - point.z * sin angle
    z := camera.cameraZ + point.x * sin angle + point.z * cos angle }

def bodyToCamera (point : PointXZ) (camera : Camera) : PointXZ :=
  let angle := rad camera.cameraAngle
  let x := point.x - camera.cameraX
  let z := point.z - camera.cameraZ
  { x := x * cos angle + z * sin angle
    z := -x * sin angle + z * cos angle }

def MIN_MARKER_SPREAD : ℝ := 1 / 10 ^ 9

def cameraCentre (pairs : List MarkerPair) : PointXZ where
  x := mean (pairs.map (·.camera.x))
  z := mean (pairs.map (·.camera.z))

def bodyCentre (pairs : List MarkerPair) : PointXZ where
  x := mean (pairs.map (·.body.x))
  z := mean (pairs.map (·.body.z))

/-- A point from a centre. -/
def PointXZ.off (point centre : PointXZ) : PointXZ := ⟨point.x - centre.x, point.z - centre.z⟩

def dot (p q : PointXZ) : ℝ := p.x * q.x + p.z * q.z

def cross (p q : PointXZ) : ℝ := p.x * q.z - p.z * q.x

/-- A sum of products of the camera's and the arm's points, from their centres. -/
def overPairs (product : PointXZ → PointXZ → ℝ) (pairs : List MarkerPair)
    (cameraCentre bodyCentre : PointXZ) : ℝ :=
  (pairs.map fun pair => product (pair.camera.off cameraCentre) (pair.body.off bodyCentre)).sum

/-- The sum of the squared distances between the placed points and the arm's. -/
def squares (camera : Camera) (pairs : List MarkerPair) : ℝ :=
  (pairs.map fun pair =>
    ((cameraToBody pair.camera camera).x - pair.body.x) ^ 2 +
      ((cameraToBody pair.camera camera).z - pair.body.z) ^ 2).sum

/-- The points are reals, so all of them are finite. -/
def fitCameraTransform (pairs : List MarkerPair) : Except CalibrationError Fit :=
  if pairs.length < 2 then .error .needTwoPairs
  else
    let c := cameraCentre pairs
    let b := bodyCentre pairs
    let dot := overPairs dot pairs c b
    let cross := overPairs cross pairs c b
    let spread := overPairs (fun p _ => p.x * p.x + p.z * p.z) pairs c b
    if spread < MIN_MARKER_SPREAD ∨ hypot dot cross < MIN_MARKER_SPREAD then .error .spreadMarkers
    else
      let angle := atan2 cross dot
      let fit : Camera :=
        { cameraX := b.x - c.x * cos angle + c.z * sin angle
          cameraZ := b.z - c.x * sin angle - c.z * cos angle
          cameraAngle := angle * 180 / π }
      .ok { fit with
        error := √(mean (pairs.map fun pair =>
          ((cameraToBody pair.camera fit).x - pair.body.x) ^ 2 +
            ((cameraToBody pair.camera fit).z - pair.body.z) ^ 2)) }

end

/-! ## The sum of squares, from the centres -/

variable {pairs : List MarkerPair} {fit : Fit} {camera : Camera}

theorem rad_degrees (angle : ℝ) : rad (angle * 180 / π) = angle := by
  rw [rad]
  field_simp

theorem sum_sub_mean {α : Type} {l : List α} (hl : l ≠ []) (f : α → ℝ) :
    (l.map fun a => f a - mean (l.map f)).sum = 0 := by
  have hsplit : ∀ c : ℝ, (l.map fun a => f a - c).sum = (l.map f).sum - l.length * c := by
    intro c
    induction l with
    | nil => simp
    | cons a l ih =>
      by_cases hempty : l = []
      · simp [hempty]
      · simp only [List.map_cons, List.sum_cons, ih hempty, List.length_cons, Nat.cast_add,
          Nat.cast_one]
        ring
  have hlength : (l.length : ℝ) ≠ 0 := Nat.cast_ne_zero.2 (List.length_pos_iff.2 hl).ne'
  rw [hsplit, mean, List.length_map, mul_div_cancel₀ _ hlength, sub_self]

/-- How far the placed centre is off the arm's. -/
noncomputable def centreError (camera : Camera) (c b : PointXZ) : PointXZ :=
  (cameraToBody c camera).off b

theorem squares_split (camera : Camera) (pairs : List MarkerPair) (c b : PointXZ) :
    squares camera pairs =
      overPairs (fun p _ => p.x * p.x + p.z * p.z) pairs c b +
      overPairs (fun _ q => q.x * q.x + q.z * q.z) pairs c b -
      2 * (cos (rad camera.cameraAngle) * overPairs dot pairs c b +
        sin (rad camera.cameraAngle) * overPairs cross pairs c b) +
      2 * (centreError camera c b).x *
        (cos (rad camera.cameraAngle) * overPairs (fun p _ => p.x) pairs c b -
          sin (rad camera.cameraAngle) * overPairs (fun p _ => p.z) pairs c b -
          overPairs (fun _ q => q.x) pairs c b) +
      2 * (centreError camera c b).z *
        (sin (rad camera.cameraAngle) * overPairs (fun p _ => p.x) pairs c b +
          cos (rad camera.cameraAngle) * overPairs (fun p _ => p.z) pairs c b -
          overPairs (fun _ q => q.z) pairs c b) +
      pairs.length * ((centreError camera c b).x ^ 2 + (centreError camera c b).z ^ 2) := by
  induction pairs with
  | nil => simp [squares, overPairs]
  | cons pair pairs ih =>
    have hunit := cos_sq_add_sin_sq (rad camera.cameraAngle)
    simp only [squares, overPairs, centreError, dot, cross, cameraToBody, PointXZ.off,
      List.map_cons, List.sum_cons, List.length_cons, Nat.cast_add, Nat.cast_one] at ih ⊢
    linear_combination ih +
      ((pair.camera.x - c.x) ^ 2 + (pair.camera.z - c.z) ^ 2) * hunit

theorem squares_eq (hpairs : pairs ≠ []) (camera : Camera) :
    squares camera pairs =
      overPairs (fun p _ => p.x * p.x + p.z * p.z) pairs (cameraCentre pairs) (bodyCentre pairs) +
      overPairs (fun _ q => q.x * q.x + q.z * q.z) pairs (cameraCentre pairs) (bodyCentre pairs) -
      2 * (cos (rad camera.cameraAngle) *
          overPairs dot pairs (cameraCentre pairs) (bodyCentre pairs) +
        sin (rad camera.cameraAngle) *
          overPairs cross pairs (cameraCentre pairs) (bodyCentre pairs)) +
      pairs.length * ((centreError camera (cameraCentre pairs) (bodyCentre pairs)).x ^ 2 +
        (centreError camera (cameraCentre pairs) (bodyCentre pairs)).z ^ 2) := by
  have hcx : overPairs (fun p _ => p.x) pairs (cameraCentre pairs) (bodyCentre pairs) = 0 :=
    sum_sub_mean hpairs fun pair => pair.camera.x
  have hcz : overPairs (fun p _ => p.z) pairs (cameraCentre pairs) (bodyCentre pairs) = 0 :=
    sum_sub_mean hpairs fun pair => pair.camera.z
  have hbx : overPairs (fun _ q => q.x) pairs (cameraCentre pairs) (bodyCentre pairs) = 0 :=
    sum_sub_mean hpairs fun pair => pair.body.x
  have hbz : overPairs (fun _ q => q.z) pairs (cameraCentre pairs) (bodyCentre pairs) = 0 :=
    sum_sub_mean hpairs fun pair => pair.body.z
  rw [squares_split camera pairs (cameraCentre pairs) (bodyCentre pairs), hcx, hcz, hbx, hbz]
  ring

theorem turn_eq (d c angle : ℝ) :
    cos angle * d + sin angle * c = hypot d c * cos (angle - atan2 c d) := by
  rw [cos_sub]
  linear_combination -cos angle * hypot_mul_cos d c - sin angle * hypot_mul_sin d c

/-! ## The best mounting -/

/-- The same position and the same angle, up to whole turns. -/
def SameMounting (a b : Camera) : Prop :=
  a.cameraX = b.cameraX ∧ a.cameraZ = b.cameraZ ∧
    ∃ k : ℤ, a.cameraAngle = b.cameraAngle + k * 360

/-- What a fit is to be: the one mounting with the least sum of squares, and the
root of the mean of the squares. -/
structure Optimal (pairs : List MarkerPair) (fit : Fit) : Prop where
  least : ∀ camera, squares fit.toCamera pairs ≤ squares camera pairs
  unique : ∀ camera, squares camera pairs = squares fit.toCamera pairs →
    SameMounting camera fit.toCamera
  error : fit.error = √(squares fit.toCamera pairs / pairs.length)

theorem fit_spec (h : fitCameraTransform pairs = .ok fit) :
    2 ≤ pairs.length ∧
      0 < hypot (overPairs dot pairs (cameraCentre pairs) (bodyCentre pairs))
        (overPairs cross pairs (cameraCentre pairs) (bodyCentre pairs)) ∧
      rad fit.cameraAngle = atan2 (overPairs cross pairs (cameraCentre pairs) (bodyCentre pairs))
        (overPairs dot pairs (cameraCentre pairs) (bodyCentre pairs)) ∧
      centreError fit.toCamera (cameraCentre pairs) (bodyCentre pairs) = ⟨0, 0⟩ ∧
      fit.error = √(squares fit.toCamera pairs / pairs.length) := by
  unfold fitCameraTransform at h
  split at h
  · cases h
  · rename_i hlength
    dsimp only at h
    split at h
    · cases h
    · rename_i hspread
      cases h
      have hmin : 0 < MIN_MARKER_SPREAD := by
        rw [MIN_MARKER_SPREAD]
        positivity
      refine ⟨not_lt.1 hlength, ?_, rad_degrees _, ?_, ?_⟩
      · exact hmin.trans_le (not_lt.1 fun hsmall => hspread (.inr hsmall))
      · simp only [centreError, cameraToBody, PointXZ.off, rad_degrees]
        congr 1 <;> ring
      · rw [mean, List.length_map]
        rfl

theorem sameMounting_of {a b : Camera} {c d : PointXZ}
    (hturn : cos (rad a.cameraAngle - rad b.cameraAngle) = 1)
    (ha : centreError a c d = ⟨0, 0⟩) (hb : centreError b c d = ⟨0, 0⟩) : SameMounting a b := by
  obtain ⟨hcos, hsin⟩ := cos_sin_of_cos_sub hturn
  simp only [centreError, cameraToBody, PointXZ.off, PointXZ.mk.injEq] at ha hb
  rw [hcos, hsin] at ha
  refine ⟨by linarith [ha.1, hb.1], by linarith [ha.2, hb.2], ?_⟩
  obtain ⟨k, hk⟩ := exists_turns hcos hsin
  refine ⟨k, ?_⟩
  rw [rad, rad] at hk
  have hpi := Real.pi_pos
  field_simp at hk
  linarith

theorem squares_sub_fit (h : fitCameraTransform pairs = .ok fit) (camera : Camera) :
    squares camera pairs - squares fit.toCamera pairs =
      2 * hypot (overPairs dot pairs (cameraCentre pairs) (bodyCentre pairs))
        (overPairs cross pairs (cameraCentre pairs) (bodyCentre pairs)) *
        (1 - cos (rad camera.cameraAngle - rad fit.cameraAngle)) +
      pairs.length * ((centreError camera (cameraCentre pairs) (bodyCentre pairs)).x ^ 2 +
        (centreError camera (cameraCentre pairs) (bodyCentre pairs)).z ^ 2) := by
  obtain ⟨hlength, -, hangle, hcentre, -⟩ := fit_spec h
  have hpairs : pairs ≠ [] := List.length_pos_iff.1 (by omega)
  rw [squares_eq hpairs camera, squares_eq hpairs fit.toCamera, turn_eq, turn_eq, hangle, hcentre,
    sub_self, cos_zero]
  ring

theorem optimal_fit (h : fitCameraTransform pairs = .ok fit) : Optimal pairs fit := by
  obtain ⟨hlength, hhypot, -, hcentre, herror⟩ := fit_spec h
  have hcount : (0 : ℝ) < pairs.length := Nat.cast_pos.2 (by omega)
  have hturn : ∀ camera : Camera, 0 ≤ 2 * hypot
      (overPairs dot pairs (cameraCentre pairs) (bodyCentre pairs))
      (overPairs cross pairs (cameraCentre pairs) (bodyCentre pairs)) *
        (1 - cos (rad camera.cameraAngle - rad fit.cameraAngle)) := fun camera =>
    mul_nonneg (mul_nonneg zero_le_two hhypot.le) (sub_nonneg.2 (cos_le_one _))
  have hmove : ∀ camera : Camera, 0 ≤ (pairs.length : ℝ) *
      ((centreError camera (cameraCentre pairs) (bodyCentre pairs)).x ^ 2 +
        (centreError camera (cameraCentre pairs) (bodyCentre pairs)).z ^ 2) := fun camera =>
    mul_nonneg hcount.le (add_nonneg (sq_nonneg _) (sq_nonneg _))
  refine ⟨fun camera => ?_, fun camera hsame => ?_, herror⟩
  · have hworse := squares_sub_fit h camera
    linarith [hturn camera, hmove camera]
  · have hworse := squares_sub_fit h camera
    rw [hsame, sub_self] at hworse
    have hturns := le_antisymm (by linarith [hmove camera]) (hturn camera)
    have hmoves := le_antisymm (by linarith [hturn camera]) (hmove camera)
    have hcos : 1 - cos (rad camera.cameraAngle - rad fit.cameraAngle) = 0 :=
      (mul_eq_zero.1 hturns).resolve_left (mul_pos two_pos hhypot).ne'
    have hsum := (mul_eq_zero.1 hmoves).resolve_left hcount.ne'
    have hx : (centreError camera (cameraCentre pairs) (bodyCentre pairs)).x = 0 :=
      pow_eq_zero_iff two_ne_zero |>.1 (by nlinarith [sq_nonneg (centreError camera
        (cameraCentre pairs) (bodyCentre pairs)).x, sq_nonneg (centreError camera
        (cameraCentre pairs) (bodyCentre pairs)).z])
    have hz : (centreError camera (cameraCentre pairs) (bodyCentre pairs)).z = 0 :=
      pow_eq_zero_iff two_ne_zero |>.1 (by rw [hx] at hsum; linarith)
    refine sameMounting_of (by linarith) ?_ hcentre
    generalize centreError camera (cameraCentre pairs) (bodyCentre pairs) = e at hx hz
    cases e
    cases hx
    cases hz
    rfl

theorem cameraToBody_bodyToCamera (point : PointXZ) (camera : Camera) :
    cameraToBody (bodyToCamera point camera) camera = point := by
  have hunit := cos_sq_add_sin_sq (rad camera.cameraAngle)
  cases point with
  | mk x z =>
    simp only [cameraToBody, bodyToCamera, PointXZ.mk.injEq]
    constructor
    · linear_combination (x - camera.cameraX) * hunit
    · linear_combination (z - camera.cameraZ) * hunit

theorem squares_measured (h : ∀ pair ∈ pairs, pair.camera = bodyToCamera pair.body camera) :
    squares camera pairs = 0 := by
  refine List.sum_eq_zero fun square hsquare => ?_
  obtain ⟨pair, hpair, rfl⟩ := List.mem_map.1 hsquare
  rw [h pair hpair, cameraToBody_bodyToCamera, sub_self, sub_self]
  ring

theorem squares_nonneg (camera : Camera) (pairs : List MarkerPair) : 0 ≤ squares camera pairs := by
  refine List.sum_nonneg fun square hsquare => ?_
  obtain ⟨pair, -, rfl⟩ := List.mem_map.1 hsquare
  positivity

theorem SameMounting.symm {a b : Camera} (h : SameMounting a b) : SameMounting b a := by
  obtain ⟨hx, hz, k, hk⟩ := h
  refine ⟨hx.symm, hz.symm, -k, ?_⟩
  rw [hk, Int.cast_neg]
  ring

/-- The fit is the planar rigid motion that explains the markers best; and it is
the mounting that the markers were measured with, if they come from one. -/
theorem camera_fit_optimal (h : fitCameraTransform pairs = .ok fit) :
    Optimal pairs fit ∧
      ∀ camera, (∀ pair ∈ pairs, pair.camera = bodyToCamera pair.body camera) →
        SameMounting fit.toCamera camera ∧ fit.error = 0 := by
  have hbest := optimal_fit h
  refine ⟨hbest, fun camera hmeasured => ?_⟩
  have hzero : squares fit.toCamera pairs = 0 :=
    le_antisymm ((hbest.least camera).trans (squares_measured hmeasured).le) (squares_nonneg _ _)
  constructor
  · exact (hbest.unique camera ((squares_measured hmeasured).trans hzero.symm)).symm
  · rw [hbest.error, hzero, zero_div, Real.sqrt_zero]

/-- Two markers, one millimetre apart, seen from the shoulder. -/
def unitPairs : List MarkerPair := [⟨⟨0, 0⟩, ⟨0, 0⟩⟩, ⟨⟨1, 0⟩, ⟨1, 0⟩⟩]

theorem unitPairs_fit : ∃ fit, fitCameraTransform unitPairs = .ok fit := by
  have hspread : overPairs (fun p _ => p.x * p.x + p.z * p.z) unitPairs
      (cameraCentre unitPairs) (bodyCentre unitPairs) = 1 / 2 := by
    norm_num [overPairs, unitPairs, cameraCentre, bodyCentre, mean, PointXZ.off]
  have hdot : overPairs dot unitPairs (cameraCentre unitPairs) (bodyCentre unitPairs) = 1 / 2 := by
    norm_num [overPairs, unitPairs, cameraCentre, bodyCentre, mean, PointXZ.off, dot]
  have hcross : overPairs cross unitPairs (cameraCentre unitPairs) (bodyCentre unitPairs) = 0 := by
    norm_num [overPairs, unitPairs, cameraCentre, bodyCentre, mean, PointXZ.off, cross]
  have hhypot : hypot (1 / 2) 0 = 1 / 2 := by
    rw [hypot, zero_pow two_ne_zero, add_zero, Real.sqrt_sq (by norm_num)]
  unfold fitCameraTransform
  rw [if_neg (by decide)]
  dsimp only
  rw [hspread, hdot, hcross, hhypot, if_neg (by norm_num [MIN_MARKER_SPREAD])]
  exact ⟨_, rfl⟩

theorem camera_fit_optimal_unit :
    ∃ fit, fitCameraTransform unitPairs = .ok fit ∧ Optimal unitPairs fit := by
  obtain ⟨fit, hfit⟩ := unitPairs_fit
  exact ⟨fit, hfit, (camera_fit_optimal hfit).1⟩

end Questix.LabPage.Systems
