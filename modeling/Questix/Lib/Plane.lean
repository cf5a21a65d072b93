/-
Questix.Lib.Plane — directions and distances in the plane over the reals.

`atan2` and `hypot` are the polar coordinates of a point: `hypot_mul_cos` and
`hypot_mul_sin` say that they lead back to it. Two angles with one cosine and
one sine differ by whole turns (`exists_turns`).
-/
import Mathlib.Analysis.SpecialFunctions.Complex.Arg
import Mathlib.Analysis.SpecialFunctions.Trigonometric.Angle
import Questix.Lib.Numerals

namespace Questix.Lib

open Real

/-- The angle of the point `(x, y)`, in `(-π, π]`; 0 at the origin. -/
noncomputable def atan2 (y x : ℝ) : ℝ := Complex.arg ⟨x, y⟩

/-- The distance of the point `(x, y)` from the origin. -/
noncomputable def hypot (x y : ℝ) : ℝ := √(x ^ 2 + y ^ 2)

variable {x y a b : ℝ}

theorem hypot_eq_norm (x y : ℝ) : hypot x y = ‖(⟨x, y⟩ : ℂ)‖ :=
  (Complex.norm_eq_sqrt_sq_add_sq ⟨x, y⟩).symm

theorem hypot_nonneg (x y : ℝ) : 0 ≤ hypot x y := Real.sqrt_nonneg _

theorem hypot_sq (x y : ℝ) : hypot x y ^ 2 = x ^ 2 + y ^ 2 :=
  Real.sq_sqrt (add_nonneg (sq_nonneg x) (sq_nonneg y))

theorem hypot_mul_cos (x y : ℝ) : hypot x y * cos (atan2 y x) = x := by
  rw [hypot_eq_norm]
  exact Complex.norm_mul_cos_arg ⟨x, y⟩

theorem hypot_mul_sin (x y : ℝ) : hypot x y * sin (atan2 y x) = y := by
  rw [hypot_eq_norm]
  exact Complex.norm_mul_sin_arg ⟨x, y⟩

theorem cos_sin_atan2_mul {r : ℝ} (hr : 0 < r) (a : ℝ) :
    cos (atan2 (r * sin a) (r * cos a)) = cos a ∧ sin (atan2 (r * sin a) (r * cos a)) = sin a := by
  have hr' : hypot (r * cos a) (r * sin a) = r := by
    have hsq : (r * cos a) ^ 2 + (r * sin a) ^ 2 = r ^ 2 := by
      rw [mul_pow, mul_pow, ← mul_add, cos_sq_add_sin_sq, mul_one]
    rw [hypot, hsq, Real.sqrt_sq hr.le]
  have hcos := hypot_mul_cos (r * cos a) (r * sin a)
  have hsin := hypot_mul_sin (r * cos a) (r * sin a)
  rw [hr'] at hcos hsin
  exact ⟨mul_left_cancel₀ hr.ne' hcos, mul_left_cancel₀ hr.ne' hsin⟩

theorem atan2_sin_cos (h : a ∈ Set.Ioc (-π) π) : atan2 (sin a) (cos a) = a := by
  have hpoint : (⟨cos a, sin a⟩ : ℂ) = Complex.cos a + Complex.sin a * Complex.I := by
    apply Complex.ext <;> simp [Complex.cos_ofReal_re, Complex.sin_ofReal_re]
  rw [atan2, hpoint, Complex.arg_cos_add_sin_mul_I h]

theorem exists_turns (hcos : cos a = cos b) (hsin : sin a = sin b) :
    ∃ k : ℤ, a = b + k * (2 * π) := by
  obtain ⟨k, hk⟩ := Real.Angle.angle_eq_iff_two_pi_dvd_sub.1 (Real.Angle.cos_sin_inj hcos hsin)
  exact ⟨k, by linarith⟩

theorem cos_sin_of_cos_sub (h : cos (a - b) = 1) : cos a = cos b ∧ sin a = sin b := by
  obtain ⟨k, hk⟩ := (Real.cos_eq_one_iff (a - b)).1 h
  have ha : a = b + k * (2 * π) := by linarith
  rw [ha]
  exact ⟨Real.cos_add_int_mul_two_pi b k, Real.sin_add_int_mul_two_pi b k⟩

end Questix.Lib
