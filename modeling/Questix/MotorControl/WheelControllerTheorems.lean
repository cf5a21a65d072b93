/-
Questix.MotorControl.WheelControllerTheorems — the gain of the outer controller
and the delay of the observer.

The Riccati iteration starts at the weight of the error and never goes below
it (`le_riccati`); at every value that is not negative the gain taken there is
sound (`gains_sound_of_nonneg`), so it does not matter at which iterate the
loop stopped.

The observer's history holds the inputs the plant has not seen yet. `Aligned`
says so of the state before a tick; it is what a tick keeps, and in an aligned
state the prediction is the plant's value.
-/
import Mathlib.Tactic.FieldSimp
import Mathlib.Tactic.Positivity
import Questix.MotorControl.ControlCoreTheorems

namespace Questix.MotorControl

open Questix.Lib

/-! ## The gain -/

namespace WheelVelocityLqr

/-- The gain does not destabilise the model of the wheel. -/
structure Gains.Sound (p : SafeParams) (gains : Gains) : Prop where
  le_p : p.q ≤ gains.p
  k_nonneg : 0 ≤ gains.k
  pole_nonneg : 0 ≤ p.a - p.b * gains.k
  pole_le : p.a - p.b * gains.k ≤ p.a
  pole_lt_one : p.a < 1

section Gains

variable {p : SafeParams} {P tol : ℚ} {gains : Gains}

theorem denominator_pos (hP : 0 ≤ P) : 0 < p.r + p.b * p.b * P := by
  have hr := p.r_pos
  have hb := p.b_pos
  positivity

theorem riccati_eq (hP : 0 ≤ P) :
    riccati p P = p.q + p.a * p.a * P * p.r / (p.r + p.b * p.b * P) := by
  have hne := (denominator_pos (p := p) hP).ne'
  unfold riccati
  generalize hden : p.r + p.b * p.b * P = den at hne ⊢
  field_simp
  rw [← hden]
  ring

theorem le_riccati (hP : 0 ≤ P) : p.q ≤ riccati p P := by
  have ha := p.a_bounds.1
  have hr := p.r_pos
  have hden := denominator_pos (p := p) hP
  have hterm : 0 ≤ p.a * p.a * P * p.r / (p.r + p.b * p.b * P) := by positivity
  rw [riccati_eq hP]
  linarith

theorem pole_eq (hP : 0 ≤ P) :
    p.a - p.b * (p.a * p.b * P / (p.r + p.b * p.b * P)) =
      p.a * p.r / (p.r + p.b * p.b * P) := by
  have hne := (denominator_pos (p := p) hP).ne'
  generalize hden : p.r + p.b * p.b * P = den at hne ⊢
  field_simp
  rw [← hden]
  ring

theorem gains_sound_of_nonneg (hP : 0 ≤ P) (hq : p.q ≤ P) :
    Gains.Sound p { k := p.a * p.b * P / (p.r + p.b * p.b * P), p := P } := by
  have ha := p.a_bounds
  have hb := p.b_pos
  have hr := p.r_pos
  have hden := denominator_pos (p := p) hP
  refine ⟨hq, ?_, ?_, ?_, by linarith [ha.2]⟩
  · have := ha.1
    positivity
  · have := ha.1
    rw [pole_eq hP]
    positivity
  · have hk : 0 ≤ p.b * (p.a * p.b * P / (p.r + p.b * p.b * P)) := by
      have := ha.1
      positivity
    linarith

theorem iterateGains_sound : ∀ (n : ℕ) (P : ℚ), p.q ≤ P → iterateGains p tol n P = some gains →
    Gains.Sound p gains := by
  intro n
  induction n with
  | zero =>
    intro P _ h
    cases h
  | succ n ih =>
    intro P hP h
    have hnonneg : 0 ≤ P := p.q_nonneg.trans hP
    have hnext := le_riccati (p := p) hnonneg
    rw [iterateGains] at h
    split_ifs at h with hconverged
    · cases h
      exact gains_sound_of_nonneg (p.q_nonneg.trans hnext) hnext
    · exact ih _ hnext h

theorem gains_sound_zero (hq : p.q ≤ 0) : Gains.Sound p {} := by
  have ha := p.a_bounds
  refine ⟨hq, le_rfl, ?_, ?_, by linarith [ha.2]⟩
  · simpa using ha.1
  · simp

end Gains

theorem computeGainsWithin_sound {params : Params} {maxIter : ℤ} {tol : ℚ} {gains : Gains}
    (h : computeGainsWithin params maxIter tol = some gains) :
    Gains.Sound (sanitize params) gains := by
  unfold computeGainsWithin at h
  dsimp only at h
  split_ifs at h with hq
  · cases h
    exact gains_sound_zero hq
  · exact iterateGains_sound _ _ le_rfl h

/-- Whatever the parameters, the tolerance and the number of iterations, a gain
that is returned does not destabilise the wheel. -/
theorem computeGains_sound (params : Params) (maxIter : ℤ) (tol : ℚ) (gains : Gains)
    (h : computeGainsWithin params maxIter tol = some gains) :
    (sanitize params).q ≤ gains.p ∧ 0 ≤ gains.k ∧
      0 ≤ (sanitize params).a - (sanitize params).b * gains.k ∧
      (sanitize params).a - (sanitize params).b * gains.k ≤ (sanitize params).a ∧
      (sanitize params).a < 1 := by
  have hsound := computeGainsWithin_sound h
  exact ⟨hsound.le_p, hsound.k_nonneg, hsound.pole_nonneg, hsound.pole_le, hsound.pole_lt_one⟩

theorem computeGains_sound_weighted :
    (1 : ℚ) ≤ 6 / 5 ∧ 0 ≤ (1 : ℚ) / 2 - 1 / 2 * (3 / 13) := by
  have hone : (1 : Dbl) = .fin 1 := rfl
  have hzero : (0 : Dbl) = .fin 0 := rfl
  have h := computeGains_sound { a := .fin (1 / 2), q := 1 } 1 1 { k := 3 / 13, p := 6 / 5 } (by
    norm_num [computeGainsWithin, sanitize, iterateGains, riccati, nonnegOrZero, positiveOr,
      finiteOr, DdtCurrentPi.clamp, hone, hzero, abs_of_nonneg])
  norm_num [sanitize, nonnegOrZero, positiveOr, finiteOr, DdtCurrentPi.clamp, hone, hzero] at h ⊢

end WheelVelocityLqr

namespace ControlCore

/-- A gain that the core holds is sound for the settings it holds. -/
def HoldsSound (s : ControlCore) : Prop :=
  ∀ gains, s.lqrGains = some gains → WheelVelocityLqr.Gains.Sound s.lqrParams gains

/-- So it is in every run, whatever the settings, the modes and the ticks. -/
theorem holdsSound_final [Libm] [LroundInvalid] (config : Config) (calls : List Call) :
    HoldsSound (final call (new config) calls) := by
  intro gains hgains
  have hinForce := final_invariant InForce (fun _ e h => inForce_call h e) calls (new config)
    (fun _ hnone => by cases hnone)
  obtain ⟨⟨a, hparams⟩, hcomputed⟩ := hinForce gains hgains
  rw [hparams] at hcomputed ⊢
  exact @WheelVelocityLqr.computeGainsWithin_sound _ 10000 (1 / 10 ^ 12) gains hcomputed

end ControlCore

/-! ## The delay -/

namespace WheelObserver

/-- The input that reaches the plant at tick `k`, `d` ticks late; before the
first input it was 0. -/
def delayed (u : ℕ → ℚ) (d k : ℕ) : ℚ := if d ≤ k then u (k - d) else 0

/-- The wheel as the model has it, without disturbance. -/
def plant (p : SafeParams) (u : ℕ → ℚ) (x₀ : ℚ) : ℕ → ℚ
  | 0 => x₀
  | k + 1 => p.a * plant p u x₀ k + p.b * delayed u p.delayTicks k

/-- The observer before tick `k`. -/
def observed (p : SafeParams) (u : ℕ → ℚ) (x₀ : ℚ) : ℕ → State
  | 0 => reset x₀
  | k + 1 => step (observed p u x₀ k) p (plant p u x₀ k) (u k)

/-- Before tick `k` the observer predicts the plant, and remembers the last
inputs. -/
structure Aligned (p : SafeParams) (u : ℕ → ℚ) (x₀ : ℚ) (k : ℕ) (s : State) : Prop where
  initialized : s.initialized = true
  xPrior : s.xPrior = plant p u x₀ k
  dHat : s.dHat = 0
  uHist : ∀ i : Fin (kMaxDelayTicks + 1), s.uHist i = if i.val < k then u (k - 1 - i.val) else 0

section Aligned

variable {p : SafeParams} {u : ℕ → ℚ} {x₀ : ℚ} {k : ℕ} {s : State}

theorem aligned_reset : Aligned p u x₀ 0 (reset x₀) :=
  ⟨rfl, rfl, rfl, fun i => by simp [reset]⟩

theorem Aligned.history (h : Aligned p u x₀ k s) (i : Fin (kMaxDelayTicks + 1)) :
    (Fin.cons (u k) fun j => s.uHist j.castSucc : Fin (kMaxDelayTicks + 1) → ℚ) i =
      delayed u i.val k := by
  refine Fin.cases ?_ (fun j => ?_) i
  · simp [delayed]
  · rw [Fin.cons_succ, h.uHist, delayed]
    simp only [Fin.val_castSucc, Fin.val_succ, Nat.succ_le_iff, Nat.sub_sub, Nat.add_comm 1]

theorem Aligned.step (h : Aligned p u x₀ k s) :
    (step s p (plant p u x₀ k) (u k)).lastInnovation = 0 ∧
      (step s p (plant p u x₀ k) (u k)).xHat = plant p u x₀ k ∧
      Aligned p u x₀ (k + 1) (step s p (plant p u x₀ k) (u k)) := by
  have hstart : (if s.initialized then s else reset (plant p u x₀ k)) = s := if_pos h.initialized
  have hinnovation : plant p u x₀ k - s.xPrior = 0 := by rw [h.xPrior, sub_self]
  have hxHat : s.xPrior + p.lX * (plant p u x₀ k - s.xPrior) = plant p u x₀ k := by
    rw [hinnovation, mul_zero, add_zero, h.xPrior]
  have hdHat : s.dHat + p.lD * (plant p u x₀ k - s.xPrior) = 0 := by
    rw [hinnovation, mul_zero, add_zero, h.dHat]
  unfold WheelObserver.step
  dsimp only
  rw [hstart]
  refine ⟨hinnovation, hxHat, h.initialized, ?_, hdHat, fun i => ?_⟩
  · rw [hxHat, hdHat, add_zero, h.history, plant]
  · simp only [h.history, delayed, Nat.lt_succ_iff, Nat.add_sub_cancel]

theorem aligned_observed : ∀ k, Aligned p u x₀ k (observed p u x₀ k) := by
  intro k
  induction k with
  | zero => exact aligned_reset
  | succ k ih => exact ih.step.2.2

end Aligned

theorem posterior_stored (p : SafeParams) {s : State} (measured input : ℚ)
    (h : s.initialized = true) :
    (step s p measured input).xHat = s.xPrior + p.lX * (measured - s.xPrior) ∧
      (step s p measured input).dHat = s.dHat + p.lD * (measured - s.xPrior) := by
  have hstart : (if s.initialized then s else reset measured) = s := if_pos h
  unfold step
  dsimp only
  rw [hstart]
  exact ⟨rfl, rfl⟩

end WheelObserver

namespace ControlCore

open WheelObserver in
/-- At every tick the observer of a plant that follows the model has no
innovation, and its estimate is the plant; and what `runWheel` hands to the
controller is what the observer stores on that tick. -/
theorem observer_aligned (p : SafeParams) (u : ℕ → ℚ) (x₀ : ℚ) (s : ControlCore) (w : WheelState)
    (refRpm : ℤ) (measuredRpm : ℚ) (gains : WheelVelocityLqr.Gains)
    (hgains : s.lqrGains = some gains) :
    (∀ k, (observed p u x₀ (k + 1)).lastInnovation = 0 ∧
      (observed p u x₀ (k + 1)).xHat = plant p u x₀ k ∧
      (observed p u x₀ k).xPrior = plant p u x₀ k) ∧
    let stored := (s.runWheel w refRpm measuredRpm).1.observer
    let handed := WheelVelocityLqr.step w.lqr s.lqrParams gains refRpm stored.xHat stored.dHat
    s.runWheel w refRpm measuredRpm =
      ({ w with observer := stored, lqr := handed.1 }, keepSign refRpm (lround handed.2)) := by
  refine ⟨fun k => ?_, ?_⟩
  · have haligned : Aligned p u x₀ k (observed p u x₀ k) := aligned_observed k
    exact ⟨haligned.step.1, haligned.step.2.1, haligned.xPrior⟩
  · have hinitialized : (startObserver w measuredRpm).initialized = true := by
      unfold startObserver
      split
      · assumption
      · rfl
    have hstored := posterior_stored s.observerParams measuredRpm
      (s.runWheel w refRpm measuredRpm).2 hinitialized
    rw [runWheel_some hgains] at hstored ⊢
    dsimp only at hstored ⊢
    rw [hstored.1, hstored.2]
    rfl

open WheelObserver in
/-- With a delay of two ticks, and a core that holds a gain. -/
theorem observer_aligned_two_ticks :
    (∀ k, (observed (sanitize { a := .fin (1 / 2), delayTicks := 2 }) (fun k => k) 3
      (k + 1)).lastInnovation = 0) ∧
    (({ config := {}, lqrGains := some {} } : ControlCore).runWheel {} 10 9).1.observer.xHat = 9 := by
  have h := observer_aligned (sanitize { a := .fin (1 / 2), delayTicks := 2 }) (fun k => k) 3
    { config := {}, lqrGains := some {} } {} 10 9 {} rfl
  refine ⟨fun k => (h.1 k).1, ?_⟩
  rw [runWheel_some rfl]
  simp [WheelObserver.step, startObserver, WheelObserver.reset]

end ControlCore

end Questix.MotorControl
