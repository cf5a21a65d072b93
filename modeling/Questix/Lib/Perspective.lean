/-
Questix.Lib.Perspective — perspective maps of the unit square onto a quadrilateral.

A map divides two affine functions of `(u, v)` by a third. Along the diagonals of
the square the three add up alike, so a map that sends the corners of the square to
those of a quadrilateral has its denominators there in the proportion of the
triangles of the quadrilateral (`balance`): where all of these turn one way the
denominator is positive on the whole square (`denominator_pos`). Then an image is a
mean of the corners (`image_within`), and a line becomes a line (`image_line`).
-/
import Mathlib.Algebra.BigOperators.Fin
import Mathlib.Algebra.Order.Field.Basic
import Mathlib.Tactic.FieldSimp
import Mathlib.Tactic.LinearCombination
import Mathlib.Tactic.Linarith
import Mathlib.Tactic.Ring
import Questix.Lib.Numerals

namespace Questix.Lib.Perspective

variable {K : Type*} [Field K]

abbrev Coefficients (K : Type*) := Fin 8 → K

variable (h : Coefficients K) (u v : K)

def numeratorX : K := h 0 * u + h 1 * v + h 2
def numeratorY : K := h 3 * u + h 4 * v + h 5
def denominator : K := h 6 * u + h 7 * v + 1

/-- The image of a point. -/
def image : K × K := (numeratorX h u v / denominator h u v, numeratorY h u v / denominator h u v)

def unitCorner : Fin 4 → K × K := ![(0, 0), (1, 0), (1, 1), (0, 1)]

def weight (i : Fin 4) : K := denominator h (unitCorner i).1 (unitCorner i).2

/-- The equations of a map that sends the corners of the square to those of `quad`. -/
def Sends (quad : Fin 4 → K × K) : Prop :=
  ∀ i, numeratorX h (unitCorner i).1 (unitCorner i).2 = (quad i).1 * weight h i ∧
    numeratorY h (unitCorner i).1 (unitCorner i).2 = (quad i).2 * weight h i

/-- Twice the area of a triangle, with the sign of the way in which it is passed. -/
def turn (a b c : K × K) : K := (b.1 - a.1) * (c.2 - a.2) - (b.2 - a.2) * (c.1 - a.1)

/-- The turn at a corner of a quadrilateral. -/
def turnAt (quad : Fin 4 → K × K) (i : Fin 4) : K := turn (quad i) (quad (i + 1)) (quad (i + 2))

variable {h u v} {quad : Fin 4 → K × K}

theorem weight_zero : weight h 0 = 1 := by
  unfold weight denominator unitCorner
  simp

/-! ## The proportion of the denominators -/

theorem balance (hsends : Sends h quad) (b c : K × K) :
    weight h 0 * turn (quad 0) b c + weight h 2 * turn (quad 2) b c
      = weight h 1 * turn (quad 1) b c + weight h 3 * turn (quad 3) b c := by
  have hcorner := fun i => hsends i
  obtain ⟨hx0, hy0⟩ := hcorner 0
  obtain ⟨hx1, hy1⟩ := hcorner 1
  obtain ⟨hx2, hy2⟩ := hcorner 2
  obtain ⟨hx3, hy3⟩ := hcorner 3
  have hx : (quad 0).1 * weight h 0 + (quad 2).1 * weight h 2
      = (quad 1).1 * weight h 1 + (quad 3).1 * weight h 3 := by
    rw [← hx0, ← hx1, ← hx2, ← hx3]
    simp [numeratorX, unitCorner]
    ring
  have hy : (quad 0).2 * weight h 0 + (quad 2).2 * weight h 2
      = (quad 1).2 * weight h 1 + (quad 3).2 * weight h 3 := by
    rw [← hy0, ← hy1, ← hy2, ← hy3]
    simp [numeratorY, unitCorner]
    ring
  have hweight : weight h 0 + weight h 2 = weight h 1 + weight h 3 := by
    simp [weight, denominator, unitCorner]
    ring
  unfold turn
  linear_combination (b.2 - c.2) * hx - (b.1 - c.1) * hy + (b.1 * c.2 - b.2 * c.1) * hweight

theorem weights (hsends : Sends h quad) :
    weight h 1 * turnAt quad 1 = turnAt quad 2 ∧ weight h 3 * turnAt quad 1 = turnAt quad 0 ∧
      weight h 2 * turnAt quad 2 = weight h 1 * turnAt quad 3 := by
  have hone := weight_zero (h := h)
  have h23 := balance hsends (quad 2) (quad 3)
  have h12 := balance hsends (quad 1) (quad 2)
  have h30 := balance hsends (quad 3) (quad 0)
  rw [hone] at h23 h12
  have e0 : turnAt quad 0 = turn (quad 0) (quad 1) (quad 2) := rfl
  have e1 : turnAt quad 1 = turn (quad 1) (quad 2) (quad 3) := rfl
  have e2 : turnAt quad 2 = turn (quad 2) (quad 3) (quad 0) := rfl
  have e3 : turnAt quad 3 = turn (quad 3) (quad 0) (quad 1) := rfl
  rw [e0, e1, e2, e3]
  unfold turn at *
  refine ⟨?_, ?_, ?_⟩
  · linear_combination -h23
  · linear_combination -h12
  · linear_combination h30

/-! ## Inside the square -/

/-- The mean of four numbers, as far as a point is from the corners. -/
def mean (a : Fin 4 → K) (u v : K) : K :=
  (1 - u) * (1 - v) * a 0 + u * (1 - v) * a 1 + u * v * a 2 + (1 - u) * v * a 3

theorem affine_eq_mean (p q r u v : K) :
    p * u + q * v + r
      = mean (fun i => p * (unitCorner i : K × K).1 + q * (unitCorner i : K × K).2 + r) u v := by
  simp [mean, unitCorner]
  ring

theorem denominator_eq_mean (u v : K) : denominator h u v = mean (weight h) u v :=
  affine_eq_mean (h 6) (h 7) 1 u v

theorem numerators_eq_mean (hsends : Sends h quad) (u v : K) :
    numeratorX h u v = mean (fun i => (quad i).1 * weight h i) u v ∧
      numeratorY h u v = mean (fun i => (quad i).2 * weight h i) u v := by
  have hx := fun i => (hsends i).1
  have hy := fun i => (hsends i).2
  simp only [← hx, ← hy]
  exact ⟨affine_eq_mean (h 0) (h 1) (h 2) u v, affine_eq_mean (h 3) (h 4) (h 5) u v⟩

section Order

variable [LinearOrder K] [IsStrictOrderedRing K]

/-- All turns go one way. -/
def StrictlyConvex (quad : Fin 4 → K × K) : Prop :=
  (∀ i, 0 < turnAt quad i) ∨ ∀ i, turnAt quad i < 0

theorem weight_pos (hconvex : StrictlyConvex quad) (hsends : Sends h quad) (i : Fin 4) :
    0 < weight h i := by
  obtain ⟨h1, h3, h2⟩ := weights hsends
  have hsame : ∀ i j, 0 < turnAt quad i * turnAt quad j := by
    intro i j
    rcases hconvex with hall | hall
    · exact mul_pos (hall i) (hall j)
    · exact mul_pos_of_neg_of_neg (hall i) (hall j)
  have hpos {w : K} {i j : Fin 4} (heq : w * turnAt quad i = turnAt quad j) : 0 < w := by
    refine pos_of_mul_pos_left (b := turnAt quad i * turnAt quad i) ?_ (hsame i i).le
    rw [← mul_assoc, heq]
    exact hsame j i
  have hone := hpos h1
  match i with
  | 0 => rw [weight_zero]; exact one_pos
  | 1 => exact hone
  | 2 =>
    refine pos_of_mul_pos_left (b := turnAt quad 2 * turnAt quad 3) ?_ (hsame 2 3).le
    rw [← mul_assoc, h2, mul_assoc]
    exact mul_pos hone (hsame 3 3)
  | 3 => exact hpos h3

theorem mean_pos {a : Fin 4 → K} (ha : ∀ i, 0 < a i) (hu : 0 ≤ u) (hu' : u ≤ 1) (hv : 0 ≤ v)
    (hv' : v ≤ 1) : 0 < mean a u v := by
  have hnu := sub_nonneg.2 hu'
  have hnv := sub_nonneg.2 hv'
  obtain ⟨m, hm, hle⟩ : ∃ m, 0 < m ∧ ∀ i, m ≤ a i := by
    obtain ⟨i, -, hi⟩ := Finset.exists_min_image Finset.univ a Finset.univ_nonempty
    exact ⟨a i, ha i, fun j => hi j (Finset.mem_univ j)⟩
  calc 0 < m := hm
    _ = mean (fun _ => m) u v := by unfold mean; ring
    _ ≤ mean a u v := by
      have h0 := mul_le_mul_of_nonneg_left (hle 0) (mul_nonneg hnu hnv)
      have h1 := mul_le_mul_of_nonneg_left (hle 1) (mul_nonneg hu hnv)
      have h2 := mul_le_mul_of_nonneg_left (hle 2) (mul_nonneg hu hv)
      have h3 := mul_le_mul_of_nonneg_left (hle 3) (mul_nonneg hnu hv)
      exact add_le_add (add_le_add (add_le_add h0 h1) h2) h3

theorem denominator_pos (hconvex : StrictlyConvex quad) (hsends : Sends h quad) (hu : 0 ≤ u)
    (hu' : u ≤ 1) (hv : 0 ≤ v) (hv' : v ≤ 1) : 0 < denominator h u v := by
  rw [denominator_eq_mean]
  exact mean_pos (weight_pos hconvex hsends) hu hu' hv hv'

theorem image_corner (hconvex : StrictlyConvex quad) (hsends : Sends h quad) (i : Fin 4) :
    image h (unitCorner i).1 (unitCorner i).2 = quad i := by
  have hne := (weight_pos hconvex hsends i).ne'
  obtain ⟨hx, hy⟩ := hsends i
  unfold image
  rw [hx, hy]
  exact Prod.ext (mul_div_cancel_right₀ _ hne) (mul_div_cancel_right₀ _ hne)

/-- The points of a quadrilateral: the means of its corners. -/
def Within (quad : Fin 4 → K × K) (p : K × K) : Prop :=
  ∃ part : Fin 4 → K, (∀ i, 0 ≤ part i) ∧ ∑ i, part i = 1 ∧
    p = (∑ i, part i * (quad i).1, ∑ i, part i * (quad i).2)

theorem image_within (hconvex : StrictlyConvex quad) (hsends : Sends h quad) (hu : 0 ≤ u)
    (hu' : u ≤ 1) (hv : 0 ≤ v) (hv' : v ≤ 1) : Within quad (image h u v) := by
  have hpos := denominator_pos hconvex hsends hu hu' hv hv'
  have hw := weight_pos hconvex hsends
  have hnu := sub_nonneg.2 hu'
  have hnv := sub_nonneg.2 hv'
  obtain ⟨hx, hy⟩ := numerators_eq_mean hsends u v
  have hd := denominator_eq_mean (h := h) u v
  refine ⟨![(1 - u) * (1 - v) * weight h 0 / denominator h u v,
    u * (1 - v) * weight h 1 / denominator h u v, u * v * weight h 2 / denominator h u v,
    (1 - u) * v * weight h 3 / denominator h u v], fun i => ?_, ?_, Prod.ext ?_ ?_⟩
  · match i with
    | 0 => exact div_nonneg (mul_nonneg (mul_nonneg hnu hnv) (hw 0).le) hpos.le
    | 1 => exact div_nonneg (mul_nonneg (mul_nonneg hu hnv) (hw 1).le) hpos.le
    | 2 => exact div_nonneg (mul_nonneg (mul_nonneg hu hv) (hw 2).le) hpos.le
    | 3 => exact div_nonneg (mul_nonneg (mul_nonneg hnu hv) (hw 3).le) hpos.le
  · unfold mean at hd
    simp only [Fin.sum_univ_four, Matrix.cons_val]
    rw [← add_div, ← add_div, ← add_div, ← hd, div_self hpos.ne']
  · simp only [Fin.sum_univ_four, Matrix.cons_val, image]
    rw [hx]
    unfold mean
    field_simp
  · simp only [Fin.sum_univ_four, Matrix.cons_val, image]
    rw [hy]
    unfold mean
    field_simp

/-! ## Lines -/

/-- There is a line through all of them. -/
def OnOneLine (s : Set (K × K)) : Prop :=
  ∃ p q r : K, (p ≠ 0 ∨ q ≠ 0) ∧ ∀ a ∈ s, p * a.1 + q * a.2 + r = 0

/-- The determinant of the coefficients. -/
def det (h : Coefficients K) : K :=
  h 0 * (h 4 - h 5 * h 7) - h 1 * (h 3 - h 5 * h 6) + h 2 * (h 3 * h 7 - h 4 * h 6)

theorem det_ne_zero (hconvex : StrictlyConvex quad) (hsends : Sends h quad) : det h ≠ 0 := by
  have hturn : weight h 0 * weight h 1 * weight h 2 * turnAt quad 0 = det h := by
    obtain ⟨hx0, hy0⟩ := hsends 0
    obtain ⟨hx1, hy1⟩ := hsends 1
    obtain ⟨hx2, hy2⟩ := hsends 2
    have hexpand : weight h 0 * weight h 1 * weight h 2 * turnAt quad 0
        = (quad 0).1 * weight h 0
            * ((quad 1).2 * weight h 1 * weight h 2 - weight h 1 * ((quad 2).2 * weight h 2))
          - (quad 0).2 * weight h 0
            * ((quad 1).1 * weight h 1 * weight h 2 - weight h 1 * ((quad 2).1 * weight h 2))
          + weight h 0 * ((quad 1).1 * weight h 1 * ((quad 2).2 * weight h 2)
            - (quad 1).2 * weight h 1 * ((quad 2).1 * weight h 2)) := by
      have e0 : turnAt quad 0 = turn (quad 0) (quad 1) (quad 2) := rfl
      rw [e0]
      unfold turn
      ring
    rw [hexpand, ← hx0, ← hy0, ← hx1, ← hy1, ← hx2, ← hy2]
    simp [numeratorX, numeratorY, weight, denominator, unitCorner, det]
    ring
  have hne : turnAt quad 0 ≠ 0 := by
    rcases hconvex with hall | hall
    · exact (hall 0).ne'
    · exact (hall 0).ne
  have hw := fun i => (weight_pos hconvex hsends i).ne'
  rw [← hturn]
  exact mul_ne_zero (mul_ne_zero (mul_ne_zero (hw 0) (hw 1)) (hw 2)) hne

/-- What is on one line is on one line in the image. -/
theorem image_line (hconvex : StrictlyConvex quad) (hsends : Sends h quad) {s : Set (K × K)}
    (hden : ∀ a ∈ s, denominator h a.1 a.2 ≠ 0) (hline : OnOneLine s) :
    OnOneLine ((fun a => image h a.1 a.2) '' s) := by
  obtain ⟨p, q, r, hpq, hall⟩ := hline
  rcases s.eq_empty_or_nonempty with rfl | ⟨a, ha⟩
  · exact ⟨1, 0, 0, .inl one_ne_zero, fun b hb => by simp at hb⟩
  have hdet := det_ne_zero hconvex hsends
  -- the line times the adjugate of the coefficients
  obtain ⟨p', hp'⟩ : ∃ p', p' = p * (h 4 - h 5 * h 7) + q * (h 5 * h 6 - h 3)
      + r * (h 3 * h 7 - h 4 * h 6) := ⟨_, rfl⟩
  obtain ⟨q', hq'⟩ : ∃ q', q' = p * (h 2 * h 7 - h 1) + q * (h 0 - h 2 * h 6)
      + r * (h 1 * h 6 - h 0 * h 7) := ⟨_, rfl⟩
  obtain ⟨r', hr'⟩ : ∃ r', r' = p * (h 1 * h 5 - h 2 * h 4) + q * (h 2 * h 3 - h 0 * h 5)
      + r * (h 0 * h 4 - h 1 * h 3) := ⟨_, rfl⟩
  have hadjugate (u v : K) : p' * numeratorX h u v + q' * numeratorY h u v + r' * denominator h u v
      = det h * (p * u + q * v + r) := by
    rw [hp', hq', hr']
    unfold numeratorX numeratorY denominator det
    ring
  refine ⟨p', q', r', ?_, ?_⟩
  · by_contra hzero
    rw [not_or, not_not, not_not] at hzero
    have hr0 : r' = 0 := by
      have hpoint := hadjugate a.1 a.2
      rw [hall a ha, hzero.1, hzero.2, zero_mul, zero_mul, zero_add, zero_add, mul_zero] at hpoint
      exact (mul_eq_zero.1 hpoint).resolve_right (hden a ha)
    have hp0 : det h * p = 0 := by
      have heq : det h * p = p' * h 0 + q' * h 3 + r' * h 6 := by
        rw [hp', hq', hr']
        unfold det
        ring
      rw [heq, hzero.1, hzero.2, hr0]
      ring
    have hq0 : det h * q = 0 := by
      have heq : det h * q = p' * h 1 + q' * h 4 + r' * h 7 := by
        rw [hp', hq', hr']
        unfold det
        ring
      rw [heq, hzero.1, hzero.2, hr0]
      ring
    rcases hpq with hne | hne
    · exact hne ((mul_eq_zero.1 hp0).resolve_left hdet)
    · exact hne ((mul_eq_zero.1 hq0).resolve_left hdet)
  · rintro _ ⟨b, hb, rfl⟩
    have hpoint := hadjugate b.1 b.2
    rw [hall b hb, mul_zero] at hpoint
    have hne := hden b hb
    unfold image
    dsimp only
    field_simp
    linear_combination hpoint

end Order

end Questix.Lib.Perspective
