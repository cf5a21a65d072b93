/-
Questix.MotorControl.OdometryIntegrator — the pose of the robot from its
velocities: `odometry_integrator.hpp`.

The numbers are the reals, with the exact sine and cosine. `std::atan2(y, x)`
is the argument of `x + y i`, in (-π, π].

Integrating a constant twist is a flow: the pose after `t₁` and then `t₂` is
the one after `t₁ + t₂`. Along an arc the closed form needs no more than that
the heading enters it through its sine and cosine, which `normalizeAngle`
keeps.
-/
import Mathlib.Analysis.SpecialFunctions.Complex.Arg
import Questix.Lib.Numerals

namespace Questix.MotorControl.Odometry

noncomputable section

/-! ## The integrator -/

/-- `Pose2D` -/
@[ext]
structure Pose2D where
  x : ℝ := 0
  y : ℝ := 0
  theta : ℝ := 0

/-- `std::atan2` -/
def atan2 (y x : ℝ) : ℝ := Complex.arg ⟨x, y⟩

def normalizeAngle (angle : ℝ) : ℝ := atan2 (Real.sin angle) (Real.cos angle)

def kStraightAngular : ℝ := 1 / 10 ^ 9

open Classical in
def integrate (pose : Pose2D) (linear angular dtSec : ℝ) : Pose2D :=
  let dtheta := angular * dtSec
  if |angular| < kStraightAngular then
    let dist := linear * dtSec
    { x := pose.x + dist * Real.cos pose.theta
      y := pose.y + dist * Real.sin pose.theta
      theta := normalizeAngle (pose.theta + dtheta) }
  else
    let radius := linear / angular
    let thetaNew := pose.theta + dtheta
    { x := pose.x + radius * (Real.sin thetaNew - Real.sin pose.theta)
      y := pose.y - radius * (Real.cos thetaNew - Real.cos pose.theta)
      theta := normalizeAngle thetaNew }

/-! ## Headings -/

theorem coe_normalizeAngle (angle : ℝ) : (normalizeAngle angle : Real.Angle) = angle := by
  have hpolar : (⟨Real.cos angle, Real.sin angle⟩ : ℂ) =
      (angle : Real.Angle).cos + (angle : Real.Angle).sin * Complex.I := by
    rw [Real.Angle.cos_coe, Real.Angle.sin_coe]
    exact (Complex.re_add_im _).symm
  rw [normalizeAngle, atan2, hpolar]
  exact Complex.arg_cos_add_sin_mul_I_coe_angle angle

@[simp] theorem sin_normalizeAngle (angle : ℝ) :
    Real.sin (normalizeAngle angle) = Real.sin angle := by
  rw [← Real.Angle.sin_coe, coe_normalizeAngle, Real.Angle.sin_coe]

@[simp] theorem cos_normalizeAngle (angle : ℝ) :
    Real.cos (normalizeAngle angle) = Real.cos angle := by
  rw [← Real.Angle.cos_coe, coe_normalizeAngle, Real.Angle.cos_coe]

theorem sin_normalizeAngle_add (angle turn : ℝ) :
    Real.sin (normalizeAngle angle + turn) = Real.sin (angle + turn) := by
  simp [Real.sin_add]

theorem cos_normalizeAngle_add (angle turn : ℝ) :
    Real.cos (normalizeAngle angle + turn) = Real.cos (angle + turn) := by
  simp [Real.cos_add]

theorem normalizeAngle_normalizeAngle_add (angle turn : ℝ) :
    normalizeAngle (normalizeAngle angle + turn) = normalizeAngle (angle + turn) := by
  calc normalizeAngle (normalizeAngle angle + turn)
      = atan2 (Real.sin (normalizeAngle angle + turn)) (Real.cos (normalizeAngle angle + turn)) := rfl
    _ = atan2 (Real.sin (angle + turn)) (Real.cos (angle + turn)) := by
        rw [sin_normalizeAngle_add, cos_normalizeAngle_add]
    _ = normalizeAngle (angle + turn) := rfl

/-! ## Integrating twice -/

theorem integrate_straight (pose : Pose2D) (linear dtSec : ℝ) :
    integrate pose linear 0 dtSec =
      { x := pose.x + linear * dtSec * Real.cos pose.theta
        y := pose.y + linear * dtSec * Real.sin pose.theta
        theta := normalizeAngle pose.theta } := by
  have hsmall : ¬ kStraightAngular ≤ 0 := by norm_num [kStraightAngular]
  simp [integrate, hsmall]

theorem integrate_arc (pose : Pose2D) (linear : ℝ) {angular : ℝ}
    (h : kStraightAngular ≤ |angular|) (dtSec : ℝ) :
    integrate pose linear angular dtSec =
      { x := pose.x + linear / angular *
          (Real.sin (pose.theta + angular * dtSec) - Real.sin pose.theta)
        y := pose.y - linear / angular *
          (Real.cos (pose.theta + angular * dtSec) - Real.cos pose.theta)
        theta := normalizeAngle (pose.theta + angular * dtSec) } := by
  simp [integrate, not_lt.2 h]

theorem integrate_integrate (pose : Pose2D) (linear : ℝ) {angular : ℝ}
    (h : angular = 0 ∨ kStraightAngular ≤ |angular|) (t₁ t₂ : ℝ) :
    integrate (integrate pose linear angular t₁) linear angular t₂ =
      integrate pose linear angular (t₁ + t₂) := by
  rcases h with rfl | h
  · simp only [integrate_straight]
    have hheading := normalizeAngle_normalizeAngle_add pose.theta 0
    simp only [add_zero] at hheading
    ext
    · simp only [cos_normalizeAngle]
      ring
    · simp only [sin_normalizeAngle]
      ring
    · exact hheading
  · simp only [integrate_arc _ _ h]
    have hturn : pose.theta + angular * t₁ + angular * t₂ = pose.theta + angular * (t₁ + t₂) := by
      ring
    ext
    · simp only [sin_normalizeAngle_add, sin_normalizeAngle, hturn]
      ring
    · simp only [cos_normalizeAngle_add, cos_normalizeAngle, hturn]
      ring
    · simp only [normalizeAngle_normalizeAngle_add, hturn]

/-- The flow law: the same position, and modulo 2π the same heading. -/
theorem integrate_flow (pose : Pose2D) (linear : ℝ) {angular : ℝ}
    (h : angular = 0 ∨ kStraightAngular ≤ |angular|) (t₁ t₂ : ℝ) :
    let twice := integrate (integrate pose linear angular t₁) linear angular t₂
    let once := integrate pose linear angular (t₁ + t₂)
    twice.x = once.x ∧ twice.y = once.y ∧ (twice.theta : Real.Angle) = once.theta := by
  simp [integrate_integrate pose linear h]

/-- One full turn of a circle with a radius of a metre, in two halves. -/
theorem integrate_flow_halfTurns :
    let twice := integrate (integrate {} 1 1 Real.pi) 1 1 Real.pi
    let once := integrate {} 1 1 (Real.pi + Real.pi)
    twice.x = once.x ∧ twice.y = once.y ∧ (twice.theta : Real.Angle) = once.theta :=
  integrate_flow {} 1 (.inr (by norm_num [kStraightAngular])) Real.pi Real.pi

end

end Questix.MotorControl.Odometry
