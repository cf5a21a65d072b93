/-
Questix.MotorControl.DriveSlewTheorems — the tapered slew limiter.

A step is read off what it leaves of the distance to the target (`remaining`).
In the linear phase that is the distance less the limit of the step; within the
taper band the limit shrinks with the distance, and below a thousandth of the
band the step goes to the target at once. Above that threshold the shrunken
limit is still more than a thousandth of the full one, so one measure covers
both phases: each step takes a thousandth of the full limit off the distance,
or arrives (`remaining_descends`).

Where the limit is less than a thousandth of the band, the step that goes to
the target at once may be longer than the limit.
-/
import Mathlib.Algebra.Order.Archimedean.Basic
import Questix.MotorControl.ControlCore

namespace Questix.MotorControl

open Questix.Lib

/-! ## What a step leaves -/

/-- The limit of a step at the distance `r`. -/
def stepLimit (maxDelta band r : ℚ) : ℚ := maxDelta * if 0 < band ∧ r < band then r / band else 1

/-- What a step leaves of the distance `r`. -/
def remaining (maxDelta band r : ℚ) : ℚ :=
  if 0 < band ∧ r ≤ band * (1 / 1000) then 0 else max 0 (r - stepLimit maxDelta band r)

/-- The value after a step. -/
def slewed (maxDelta band target last : ℚ) : ℚ :=
  if last ≤ target then target - remaining maxDelta band (target - last)
  else target + remaining maxDelta band (last - target)

section Remaining

variable {maxDelta band r : ℚ}

theorem stepLimit_nonneg (band : ℚ) (hdelta : 0 < maxDelta) (hr : 0 ≤ r) : 0 ≤ stepLimit maxDelta band r := by
  unfold stepLimit
  split_ifs with htaper
  · exact mul_nonneg hdelta.le (div_nonneg hr htaper.1.le)
  · linarith

theorem stepLimit_le (band r : ℚ) (hdelta : 0 < maxDelta) : stepLimit maxDelta band r ≤ maxDelta := by
  unfold stepLimit
  split_ifs with htaper
  · have hratio : r / band ≤ 1 := by
      rw [div_le_one htaper.1]
      exact htaper.2.le
    nlinarith
  · linarith

theorem le_stepLimit (hdelta : 0 < maxDelta) (hfar : ¬ (0 < band ∧ r ≤ band * (1 / 1000))) :
    maxDelta / 1000 ≤ stepLimit maxDelta band r := by
  unfold stepLimit
  split_ifs with htaper
  · have hr : band * (1 / 1000) < r := not_le.1 fun h => hfar ⟨htaper.1, h⟩
    have hratio : 1 / 1000 ≤ r / band := by
      rw [le_div_iff₀ htaper.1]
      linarith
    nlinarith
  · linarith

theorem remaining_nonneg : 0 ≤ remaining maxDelta band r := by
  unfold remaining
  split_ifs
  · exact le_rfl
  · exact le_max_left ..

theorem remaining_descends (band r : ℚ) (hdelta : 0 < maxDelta) :
    remaining maxDelta band r ≤ max 0 (r - maxDelta / 1000) := by
  unfold remaining
  split_ifs with hsnap
  · exact le_max_left ..
  · have hlimit := le_stepLimit hdelta hsnap
    exact max_le_max le_rfl (by linarith)

theorem remaining_lt (band : ℚ) (hdelta : 0 < maxDelta) (hr : 0 < r) : remaining maxDelta band r < r := by
  have h := remaining_descends band r hdelta
  rcases max_cases 0 (r - maxDelta / 1000) with ⟨hmax, -⟩ | ⟨hmax, -⟩ <;> rw [hmax] at h <;>
    linarith

theorem remaining_le (band : ℚ) (hdelta : 0 < maxDelta) (hr : 0 ≤ r) : remaining maxDelta band r ≤ r := by
  rcases hr.eq_or_lt with rfl | hr
  · have h := remaining_descends band 0 hdelta
    rwa [max_eq_left (by linarith)] at h
  · exact (remaining_lt band hdelta hr).le

theorem sub_remaining_le (band r : ℚ) (hdelta : 0 < maxDelta) :
    r - remaining maxDelta band r ≤ maxDelta ∨
      remaining maxDelta band r = 0 ∧ r ≤ band * (1 / 1000) := by
  by_cases hsnap : 0 < band ∧ r ≤ band * (1 / 1000)
  · exact .inr ⟨if_pos hsnap, hsnap.2⟩
  · left
    rw [remaining, if_neg hsnap]
    have hmax := le_max_right 0 (r - stepLimit maxDelta band r)
    have hlimit := stepLimit_le band r hdelta
    linarith

end Remaining

/-! ## The step of the code -/

section Step

variable {target last maxAccel dtSec band : ℚ}

theorem clampRateTapered_of_pos (haccel : 0 < maxAccel) :
    clampRateTapered (.fin target) (.fin last) (.fin maxAccel) (.fin dtSec) (.fin band) =
      if 0 < band ∧ |target - last| ≤ band * (1 / 1000) then .fin target
      else if stepLimit (maxAccel * dtSec) band |target - last| < target - last then
        .fin (last + stepLimit (maxAccel * dtSec) band |target - last|)
      else if target - last < -stepLimit (maxAccel * dtSec) band |target - last| then
        .fin (last - stepLimit (maxAccel * dtSec) band |target - last|)
      else .fin target := by
  have hzero : (0 : Dbl) = .fin 0 := rfl
  have hsnap : Dbl.fin band * kTaperSnapRatio = .fin (band * (1 / 1000)) := rfl
  have habs : (Dbl.fin (target - last)).abs = .fin |target - last| := rfl
  have hnear : (0 < band ∧ |target - last| < band ∧ |target - last| ≤ band * (1 / 1000)) ↔
      0 < band ∧ |target - last| ≤ band * (1 / 1000) :=
    ⟨fun h => ⟨h.1, h.2.2⟩, fun h => ⟨h.1, by linarith [h.1, h.2], h.2⟩⟩
  unfold clampRateTapered stepLimit
  rw [if_neg (by rw [hzero, Dbl.fin_le_fin]; exact not_le.2 haccel)]
  simp only [hsnap, habs, hzero, Dbl.fin_sub_fin, Dbl.fin_lt_fin, Dbl.fin_le_fin, Dbl.fin_mul_fin,
    hnear]
  by_cases htaper : 0 < band ∧ |target - last| < band
  · simp only [if_pos htaper, Dbl.fin_div_fin htaper.1.ne', Dbl.fin_mul_fin, Dbl.neg_fin,
      Dbl.fin_lt_fin, Dbl.fin_add_fin, Dbl.fin_sub_fin]
  · simp only [if_neg htaper, mul_one, Dbl.neg_fin, Dbl.fin_lt_fin, Dbl.fin_add_fin,
      Dbl.fin_sub_fin]

theorem clampRateTapered_fin (haccel : 0 < maxAccel) (hdt : 0 < dtSec) :
    clampRateTapered (.fin target) (.fin last) (.fin maxAccel) (.fin dtSec) (.fin band) =
      .fin (slewed (maxAccel * dtSec) band target last) := by
  have hdelta : 0 < maxAccel * dtSec := mul_pos haccel hdt
  rw [clampRateTapered_of_pos haccel]
  unfold slewed
  by_cases hle : last ≤ target
  · -- upwards
    have hlimit := stepLimit_nonneg band hdelta (sub_nonneg.2 hle)
    rw [abs_of_nonneg (sub_nonneg.2 hle), if_pos hle, remaining]
    by_cases hsnap : 0 < band ∧ target - last ≤ band * (1 / 1000)
    · rw [if_pos hsnap, if_pos hsnap, sub_zero]
    · rw [if_neg hsnap, if_neg hsnap]
      split_ifs with hup hdown
      · rw [max_eq_right (by linarith)]
        congr 1
        ring
      · linarith
      · rw [max_eq_left (by linarith), sub_zero]
  · -- downwards
    have hge : 0 ≤ last - target := by linarith
    have hlimit := stepLimit_nonneg band hdelta hge
    rw [abs_sub_comm, abs_of_nonneg hge, if_neg hle, remaining]
    by_cases hsnap : 0 < band ∧ last - target ≤ band * (1 / 1000)
    · rw [if_pos hsnap, if_pos hsnap, add_zero]
    · rw [if_neg hsnap, if_neg hsnap]
      split_ifs with hup hdown
      · linarith
      · rw [max_eq_right (by linarith)]
        congr 1
        ring
      · rw [max_eq_left (by linarith), add_zero]

/-! ## One step -/

variable {maxDelta : ℚ}

theorem abs_sub_slewed :
    |target - slewed maxDelta band target last| = remaining maxDelta band |target - last| := by
  unfold slewed
  split_ifs with hle
  · rw [abs_of_nonneg (sub_nonneg.2 hle), sub_sub_cancel, abs_of_nonneg remaining_nonneg]
  · rw [abs_sub_comm target last, abs_of_nonneg (show 0 ≤ last - target by linarith),
      sub_add_cancel_left, abs_neg, abs_of_nonneg remaining_nonneg]

theorem slewed_between (hdelta : 0 < maxDelta) :
    (last ≤ target → last ≤ slewed maxDelta band target last ∧
      slewed maxDelta band target last ≤ target) ∧
    (target ≤ last → target ≤ slewed maxDelta band target last ∧
      slewed maxDelta band target last ≤ last) := by
  have hnonneg : ∀ r, 0 ≤ remaining maxDelta band r := fun r => remaining_nonneg
  have hle : ∀ {r}, 0 ≤ r → remaining maxDelta band r ≤ r := fun hr => remaining_le band hdelta hr
  unfold slewed
  constructor
  · intro h
    have hbound := hle (sub_nonneg.2 h)
    have hpos := hnonneg (target - last)
    rw [if_pos h]
    constructor <;> linarith
  · intro h
    rcases h.eq_or_lt with rfl | hlt
    · have hbound := hle (sub_self target).ge
      have hpos := hnonneg (target - target)
      rw [if_pos le_rfl]
      constructor <;> linarith
    · have hbound := hle (sub_nonneg.2 h)
      have hpos := hnonneg (last - target)
      rw [if_neg (not_le.2 hlt)]
      constructor <;> linarith

theorem abs_slewed_sub_le (target last band : ℚ) (hdelta : 0 < maxDelta) :
    |slewed maxDelta band target last - last| ≤ maxDelta ∨
      slewed maxDelta band target last = target ∧ |target - last| ≤ band * (1 / 1000) := by
  unfold slewed
  split_ifs with hle
  · have hr := sub_nonneg.2 hle
    rw [abs_of_nonneg hr]
    rcases sub_remaining_le band (target - last) hdelta with h | ⟨h, hnear⟩
    · left
      have hbound := remaining_le band hdelta hr
      rw [abs_of_nonneg (by linarith)]
      linarith
    · exact .inr ⟨by rw [h, sub_zero], hnear⟩
  · have hr : 0 ≤ last - target := by linarith
    rw [abs_sub_comm target last, abs_of_nonneg hr]
    rcases sub_remaining_le band (last - target) hdelta with h | ⟨h, hnear⟩
    · left
      have hbound := remaining_le band hdelta hr
      rw [abs_of_nonpos (by linarith)]
      linarith
    · exact .inr ⟨by rw [h, add_zero], hnear⟩

/-! ## Repeated steps -/

theorem slewed_iterate (target last band : ℚ) (hdelta : 0 < maxDelta) (n : ℕ) :
    |target - (slewed maxDelta band target)^[n] last| ≤
      max 0 (|target - last| - n * (maxDelta / 1000)) := by
  induction n with
  | zero => simp
  | succ n ih =>
    rw [Function.iterate_succ_apply', abs_sub_slewed]
    have hstep := remaining_descends band |target - (slewed maxDelta band target)^[n] last| hdelta
    refine hstep.trans (max_le (le_max_left ..) ?_)
    rcases max_cases 0 (|target - last| - n * (maxDelta / 1000)) with ⟨hmax, -⟩ | ⟨hmax, -⟩
    · rw [hmax] at ih
      exact le_max_of_le_left (by linarith)
    · rw [hmax] at ih
      refine le_max_of_le_right ?_
      push_cast
      linarith

theorem clampRateTapered_iterate (haccel : 0 < maxAccel) (hdt : 0 < dtSec) (n : ℕ) :
    (fun value => clampRateTapered (.fin target) value (.fin maxAccel) (.fin dtSec)
      (.fin band))^[n] (.fin last) = .fin ((slewed (maxAccel * dtSec) band target)^[n] last) := by
  induction n with
  | zero => rfl
  | succ n ih =>
    rw [Function.iterate_succ_apply', ih, Function.iterate_succ_apply',
      clampRateTapered_fin haccel hdt]

end Step

end Questix.MotorControl
