/-
Questix.Lib.GridLine — the straight line between two cells of a grid, drawn with
an integer error term.

Where a line still has `a` columns and `b` rows to go of `dx` and `dy`, its error
term is `e = dx - dy + a * dy - b * dx`. One step goes on by a column where
`-dy ≤ 2 * e` and by a row where `2 * e ≤ dx`. `Towards` says that the line is
within half a cell of the straight one; the step keeps it (`Towards.step`) and
always goes on along the longer side (`Towards.column`, `Towards.row`).
-/
import Mathlib.Algebra.Order.Group.Abs
import Mathlib.Algebra.Order.Ring.Int
import Mathlib.Tactic.Linarith
import Mathlib.Tactic.Ring

namespace Questix.Lib

/-- The line has `a` of `dx` columns and `b` of `dy` rows to go. -/
structure Towards (dx dy a b e : ℤ) : Prop where
  error : e = dx - dy + a * dy - b * dx
  near : |2 * (a * dy - b * dx)| ≤ max dx dy
  columns : 0 ≤ a ∧ a ≤ dx
  rows : 0 ≤ b ∧ b ≤ dy

namespace Towards

variable {dx dy a b e : ℤ}

theorem start (hdx : 0 ≤ dx) (hdy : 0 ≤ dy) : Towards dx dy dx dy (dx - dy) where
  error := by ring
  near := by
    rw [mul_comm dy dx, sub_self, mul_zero, abs_zero]
    exact le_max_of_le_left hdx
  columns := ⟨hdx, le_rfl⟩
  rows := ⟨hdy, le_rfl⟩

theorem swap (h : Towards dx dy a b e) : Towards dy dx b a (-e) where
  error := by rw [h.error]; ring
  near := by
    rw [max_comm, ← abs_neg]
    have hneg : -(2 * (b * dx - a * dy)) = 2 * (a * dy - b * dx) := by ring
    rw [hneg]
    exact h.near
  columns := h.rows
  rows := h.columns

theorem column_left (h : Towards dx dy a b e) (hside : dy ≤ dx) (hgo : ¬ (a = 0 ∧ b = 0)) :
    0 < a := by
  have hnear := abs_le.1 h.near
  rw [max_eq_left hside] at hnear
  refine lt_of_le_of_ne h.columns.1 fun ha => ?_
  have hb : 1 ≤ b := by
    have := h.rows.1
    omega
  have hdx : 0 < dx := by
    have := h.rows.2
    omega
  rw [← ha] at hnear
  nlinarith [hnear.1, mul_le_mul_of_nonneg_right hb hdx.le]

theorem column (h : Towards dx dy a b e) (hside : dy ≤ dx) : -dy ≤ 2 * e := by
  have hnear := (abs_le.1 h.near).1
  rw [max_eq_left hside] at hnear
  rw [h.error]
  linarith

theorem row (h : Towards dx dy a b e) (hside : dx ≤ dy) : 2 * e ≤ dx := by
  have := h.swap.column hside
  linarith

theorem step_column (h : Towards dx dy a b e) (hside : dy ≤ dx) (hgo : ¬ (a = 0 ∧ b = 0)) :
    Towards dx dy (a - 1) (if 2 * e ≤ dx then b - 1 else b)
      (e - dy + if 2 * e ≤ dx then dx else 0) := by
  have hpos := h.column_left hside hgo
  have hdx : 0 < dx := hpos.trans_le h.columns.2
  have hdy : 0 ≤ dy := h.rows.1.trans h.rows.2
  have hnear := abs_le.1 h.near
  rw [max_eq_left hside] at hnear
  have herror := h.error
  split
  · rename_i hrow
    have hnear' : |2 * ((a - 1) * dy - (b - 1) * dx)| ≤ dx := by
      rw [abs_le]
      constructor <;> nlinarith
    refine ⟨by rw [herror]; ring, by rwa [max_eq_left hside], ⟨by omega, ?_⟩, ⟨?_, ?_⟩⟩
    · have := h.columns.2
      omega
    · by_contra hneg
      have hb : b - 1 ≤ -1 := by omega
      have := (abs_le.1 hnear').2
      nlinarith [mul_nonneg (show 0 ≤ a - 1 by omega) hdy]
    · have := h.rows.2
      omega
  · rename_i hrow
    have hnear' : |2 * ((a - 1) * dy - b * dx)| ≤ dx := by
      rw [abs_le]
      constructor <;> nlinarith
    refine ⟨by rw [herror]; ring, by rwa [max_eq_left hside], ⟨by omega, ?_⟩, h.rows⟩
    have := h.columns.2
    omega

theorem step (h : Towards dx dy a b e) (hgo : ¬ (a = 0 ∧ b = 0)) :
    Towards dx dy (if -dy ≤ 2 * e then a - 1 else a) (if 2 * e ≤ dx then b - 1 else b)
      (e - (if -dy ≤ 2 * e then dy else 0) + if 2 * e ≤ dx then dx else 0) := by
  rcases le_total dy dx with hside | hside
  · rw [if_pos (h.column hside), if_pos (h.column hside)]
    exact h.step_column hside hgo
  · have hswap := (h.swap.step_column hside fun hend => hgo ⟨hend.2, hend.1⟩).swap
    have hside' : 2 * -e ≤ dy ↔ -dy ≤ 2 * e := by omega
    rw [if_pos (h.row hside), if_pos (h.row hside)]
    simp only [hside'] at hswap
    convert hswap using 1
    ring

end Towards

end Questix.Lib
