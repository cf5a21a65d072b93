/-
Questix.Lib.Round — `std::lround` over exact numbers: to the nearest integer,
halves away from zero.

It is the odd counterpart of Mathlib's `round`, which takes halves up.
-/
import Mathlib.Algebra.Order.Round
import Mathlib.Data.Rat.Floor
import Mathlib.Tactic.Linarith

namespace Questix.Lib

/-- `std::lround` -/
def lround (q : ℚ) : ℤ := if q < 0 then -round (-q) else round q

variable {p q : ℚ} {n : ℤ}

theorem lround_of_nonneg (h : 0 ≤ q) : lround q = round q := by
  simp [lround, not_lt.2 h]

theorem lround_neg (q : ℚ) : lround (-q) = -lround q := by
  rcases lt_trichotomy q 0 with h | rfl | h
  · rw [lround_of_nonneg (by linarith)]
    simp [lround, h]
  · simp [lround]
  · rw [lround_of_nonneg h.le]
    simp [lround, h]

@[simp] theorem lround_intCast (n : ℤ) : lround (n : ℚ) = n := by
  unfold lround
  split
  · rw [← Int.cast_neg, round_intCast, neg_neg]
  · exact round_intCast n

theorem lround_nonneg (h : 0 ≤ q) : 0 ≤ lround q := by
  rw [lround_of_nonneg h]
  have hq : (0 : ℤ) ≤ ⌊q + 1 / 2⌋ := Int.floor_nonneg.2 (by linarith)
  rwa [round_eq]

theorem lround_mono (h : p ≤ q) : lround p ≤ lround q := by
  have hround : ∀ {a b : ℚ}, a ≤ b → round a ≤ round b := by
    intro a b hab
    rw [round_eq, round_eq]
    exact Int.floor_le_floor (by linarith)
  by_cases hq : 0 ≤ q
  · by_cases hp : 0 ≤ p
    · rw [lround_of_nonneg hp, lround_of_nonneg hq]
      exact hround h
    · have hneg : 0 ≤ lround (-p) := lround_nonneg (by linarith)
      rw [lround_neg] at hneg
      have hpos := lround_nonneg hq
      omega
  · have hp : p < 0 := by linarith
    simp only [lround, hp, not_le.1 hq, if_true]
    have := hround (neg_le_neg h)
    omega

theorem abs_lround_sub_le (q : ℚ) : |(lround q : ℚ) - q| ≤ 1 / 2 := by
  have hround : ∀ x : ℚ, |(round x : ℚ) - x| ≤ 1 / 2 := by
    intro x
    rw [abs_sub_comm]
    exact abs_sub_round x
  unfold lround
  split
  · rw [Int.cast_neg, ← abs_neg]
    have h := hround (-q)
    rwa [show -(-((round (-q) : ℤ) : ℚ) - q) = (round (-q) : ℚ) - -q by ring]
  · exact hround q

theorem eq_of_abs_cast_sub_lt {m : ℤ} (h : |(m : ℚ) - n| < 1) : m = n := by
  have hcast : |m - n| < 1 := by exact_mod_cast h
  exact sub_eq_zero.1 (Int.abs_lt_one_iff.1 hcast)

theorem lround_eq_of_abs_sub_lt (h : |q - n| < 1 / 2) : lround q = n := by
  refine eq_of_abs_cast_sub_lt ?_
  have hle := abs_lround_sub_le q
  rw [abs_le] at hle
  rw [abs_lt] at h ⊢
  constructor <;> linarith [hle.1, hle.2, h.1, h.2]

theorem abs_lround_le (h : |p| ≤ q) : |lround p| ≤ lround q := by
  obtain ⟨hlo, hhi⟩ := abs_le.1 h
  refine abs_le.2 ⟨?_, lround_mono hhi⟩
  rw [← lround_neg]
  exact lround_mono hlo

end Questix.Lib
