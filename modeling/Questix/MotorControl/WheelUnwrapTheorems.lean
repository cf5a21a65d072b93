/-
Questix.MotorControl.WheelUnwrapTheorems — the turns of a wheel between two
samples are exact.

The shortest way between the two positions differs from the true way by whole
turns (`shortestTurns_of_residue`). With assistance the rounded residual of the
prediction is exactly these turns, because the true way is within a quarter
turn of the prediction. Without it the true way is below half a turn, and so is
the shortest one, so no turn can be between them.
-/
import Mathlib.Data.Int.ModEq
import Questix.MotorControl.WheelOdometryTheorems

namespace Questix.MotorControl.WheelPosition

open Questix.Lib

variable {previous current : Sample} {limits : Limits} {counts : ℤ}

theorem shortestTurns_of_residue
    (hresidue : (current.position.toNat : ℤ) - previous.position.toNat ≡ counts [ZMOD 32767]) :
    ∃ n : ℤ, shortestTurns previous.position current.position = counts / 32767 + n := by
  obtain ⟨m, hm⟩ := shortestTurns_congruent previous current
  obtain ⟨j, hj⟩ := hresidue.symm.dvd
  have hperiod : kPositionRawPerTurn.toNat = 32767 := rfl
  have hdifference : (current.position.toNat : ℚ) - previous.position.toNat = counts + 32767 * j := by
    have hcast : (current.position.toNat : ℤ) - previous.position.toNat = counts + 32767 * j := by
      omega
    exact_mod_cast hcast
  refine ⟨j + m, ?_⟩
  rw [hm, Sample.turns, Sample.turns, hperiod, ← sub_div, hdifference]
  push_cast
  ring

theorem abs_shortestTurns_le (previous current : UInt16) : |shortestTurns previous current| ≤ 1 / 2 := by
  have hperiod : kPositionRawPerTurn.toNat = 32767 := rfl
  have h := abs_sub_roundHalfEven_le (((current.toNat : ℚ) - previous.toNat) / 32767)
  unfold shortestTurns
  simp only [hperiod]
  rw [show ((current.toNat : ℚ) - previous.toNat - (32767 : ℕ) * roundHalfEven
      (((current.toNat : ℚ) - previous.toNat) / (32767 : ℕ))) / (32767 : ℕ) =
    ((current.toNat : ℚ) - previous.toNat) / 32767 -
      roundHalfEven (((current.toNat : ℚ) - previous.toNat) / 32767) by push_cast; field_simp]
  exact h

/-! ## The increment -/

section Increment

theorem bound_cases {x : ℚ} {bound : Dbl} (h : .fin x ≤ bound) :
    (∃ b, bound = .fin b ∧ x ≤ b) ∨ bound = .pinf := by
  cases bound with
  | nan => exact absurd h Bool.false_ne_true
  | ninf => exact absurd h Bool.false_ne_true
  | fin b => exact .inl ⟨b, rfl, Dbl.fin_le_fin.1 h⟩
  | pinf => exact .inr rfl

theorem shortestTurns_exact
    (hresidue : (current.position.toNat : ℤ) - previous.position.toNat ≡ counts [ZMOD 32767])
    (hhalf : |(counts : ℚ) / 32767| < 1 / 2) :
    shortestTurns previous.position current.position = counts / 32767 := by
  obtain ⟨n, hn⟩ := shortestTurns_of_residue hresidue
  have hshort := abs_shortestTurns_le previous.position current.position
  have hzero : n = 0 := by
    refine eq_of_abs_cast_sub_lt ?_
    rw [hn] at hshort
    rw [abs_le] at hshort
    rw [abs_lt] at hhalf ⊢
    push_cast
    constructor <;> linarith [hshort.1, hshort.2, hhalf.1, hhalf.2]
  rw [hn, hzero]
  simp

theorem assisted_exact {prediction : ℚ}
    (hresidue : (current.position.toNat : ℤ) - previous.position.toNat ≡ counts [ZMOD 32767])
    (hnear : |(counts : ℚ) / 32767 - prediction| < 1 / 4) :
    shortestTurns previous.position current.position +
      lround (prediction - shortestTurns previous.position current.position) = counts / 32767 := by
  obtain ⟨n, hn⟩ := shortestTurns_of_residue hresidue
  have hround : lround (prediction - shortestTurns previous.position current.position) = -n := by
    refine lround_eq_of_abs_sub_lt ?_
    rw [hn, abs_lt]
    rw [abs_lt] at hnear
    push_cast
    constructor <;> linarith [hnear.1, hnear.2]
  rw [hround, hn]
  push_cast
  ring

/-- If the true way of a wheel fits the speed and the limits, the increment is
exactly this way; and every increment is the way between the two positions, up
to whole turns. -/
theorem wheelIncrement_exact [Libm] (previous current : Sample) (limits : Limits)
    (rpm₀ rpm₁ t₀ t₁ : ℚ) (hrpm₀ : previous.nativeRpm = .fin rpm₀)
    (hrpm₁ : current.nativeRpm = .fin rpm₁) (ht₀ : previous.timeSec = .fin t₀)
    (ht₁ : current.timeSec = .fin t₁) :
    (∀ counts : ℤ,
      (current.position.toNat : ℤ) - previous.position.toNat ≡ counts [ZMOD 32767] →
      0 < t₁ - t₀ → .fin (t₁ - t₀) ≤ kMaxAssistedGapSec →
      |(counts : ℚ) / 32767 - (rpm₀ + rpm₁) * (t₁ - t₀) / 120| < 1 / 4 →
      .fin |(counts : ℚ) / 32767| ≤ limits.maxRpm * .fin (t₁ - t₀) / 60 →
      (.fin (1 / 2) ≤ limits.maxRpm * .fin (t₁ - t₀) / 60 →
        .fin (t₁ - t₀) ≤ assistedGapLimit limits) →
      wheelIncrement previous current limits = some (.fin (counts / 32767))) ∧
    ∀ d, wheelIncrement previous current limits = some d →
      ∃ n : ℤ, d = .fin (current.turns - previous.turns + n) := by
  refine ⟨?_, fun d hd =>
    wheelIncrement_congruent ⟨rpm₀, t₀, hrpm₀, ht₀⟩ ⟨rpm₁, t₁, hrpm₁, ht₁⟩ hd⟩
  intro counts hresidue hdt hcap hnear hfeasible hassist
  have hprediction : (previous.nativeRpm + current.nativeRpm) * .fin (t₁ - t₀) / 120 =
      .fin ((rpm₀ + rpm₁) * (t₁ - t₀) / 120) := by
    rw [hrpm₀, hrpm₁, Dbl.fin_add_fin, Dbl.fin_mul_fin, Dbl.ofNat_eq,
      Dbl.fin_div_fin (by norm_num)]
  have hzero : (0 : Dbl) = .fin 0 := rfl
  -- the way passes the two checks at the end
  have hclose : ¬ kMaxPredictionErrorTurns ≤
      (.fin ((counts : ℚ) / 32767) - .fin ((rpm₀ + rpm₁) * (t₁ - t₀) / 120) : Dbl).abs := by
    rw [Dbl.fin_sub_fin]
    exact fun h => absurd (Dbl.fin_le_fin.1 h) (not_le.2 hnear)
  have hslow : ¬ limits.maxRpm * .fin (t₁ - t₀) / 60 + 2 / 360 <
      (.fin ((counts : ℚ) / 32767) : Dbl).abs := by
    rcases bound_cases hfeasible with ⟨b, hb, hle⟩ | hb
    · rw [hb, Dbl.ofNat_eq, Dbl.ofNat_eq, Dbl.fin_div_fin (by norm_num), Dbl.fin_add_fin]
      refine fun h => absurd (Dbl.fin_lt_fin.1 h) (not_lt.2 ?_)
      linarith
    · rw [hb]
      exact Bool.false_ne_true
  unfold wheelIncrement
  simp only [ht₀, ht₁, Dbl.fin_sub_fin, hprediction]
  rw [if_neg (by
    rw [hzero, Dbl.fin_lt_fin, not_or, not_not]
    exact ⟨hdt, Dbl.not_lt_of_le hcap⟩)]
  by_cases hhalf : .fin (1 / 2) ≤ limits.maxRpm * .fin (t₁ - t₀) / 60
  · rw [if_neg (fun h => Dbl.not_lt_of_le (hassist hhalf) h.2), if_pos (decide_eq_true hhalf),
      Dbl.round_fin, Dbl.fin_add_fin, assisted_exact hresidue hnear,
      if_neg (not_or.2 ⟨hclose, hslow⟩)]
  · have hshort : |(counts : ℚ) / 32767| < 1 / 2 := by
      rcases bound_cases hfeasible with ⟨b, hb, hle⟩ | hb
      · rw [hb, Dbl.fin_le_fin, not_le] at hhalf
        linarith
      · rw [hb] at hhalf
        exact absurd rfl hhalf
    have hunassisted :
        ¬ decide (.fin (1 / 2) ≤ limits.maxRpm * .fin (t₁ - t₀) / 60) = true := fun h =>
      hhalf (of_decide_eq_true h)
    rw [if_neg (fun h => hunassisted h.1), if_neg hunassisted,
      shortestTurns_exact hresidue hshort, if_neg (not_or.2 ⟨hclose, hslow⟩)]

/-- Two thirds of a turn in a tenth of a second, past the end of the count. -/
theorem wheelIncrement_exact_fast :
    @wheelIncrement ⟨fun _ => 409 / 1000, id, id, id, fun _ => id⟩
      { position := 32000, nativeRpm := 400 }
      { position := 21078, nativeRpm := 400, timeSec := .fin (1 / 10) } {} =
        some (.fin (21845 / 32767)) :=
  (@wheelIncrement_exact ⟨fun _ => 409 / 1000, id, id, id, fun _ => id⟩
    { position := 32000, nativeRpm := 400 }
    { position := 21078, nativeRpm := 400, timeSec := .fin (1 / 10) } {} 400 400 0 (1 / 10)
    rfl rfl rfl rfl).1 21845 (by decide) (by norm_num) (by decide +kernel) (by norm_num [abs_lt])
    (by decide +kernel) (fun _ => by decide +kernel)

end Increment

end Questix.MotorControl.WheelPosition
