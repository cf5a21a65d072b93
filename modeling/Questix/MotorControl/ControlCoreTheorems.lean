/-
Questix.MotorControl.ControlCoreTheorems — what a step of the drive's control
core commands.

A step decides the mode from the references and then, in RUN, corrects each
wheel on its own. `step_wheel` says this of one wheel: it keeps its reference,
or its command is the one `applyWheel` computes with the settings in force
(`InForce`, which the cached gains keep over all calls). The bounds of the
correction are those of `wheel_velocity_lqr.hpp`, rounded.
-/
import Mathlib.Tactic.Ring
import Questix.MotorControl.ControlCore

namespace Questix.MotorControl.ControlCore

open Questix.Lib

/-! ## The two wheels -/

inductive Side where
  | left
  | right
  deriving DecidableEq, Repr

def wheel (s : ControlCore) : Side → WheelState
  | .left => s.left
  | .right => s.right

namespace Output

def rpm (out : Output) : Side → ℤ
  | .left => out.leftRpm
  | .right => out.rightRpm

def refRpm (out : Output) : Side → ℤ
  | .left => out.leftRefRpm
  | .right => out.rightRefRpm

def active (out : Output) : Side → Bool
  | .left => out.leftLqrActive
  | .right => out.rightLqrActive

end Output

def WheelFeedback.rpm (feedback : WheelFeedback) : Side → ℤ
  | .left => feedback.leftRpm
  | .right => feedback.rightRpm

/-- The measured speed of a wheel as the controllers take it. -/
def measured (c : Config) (feedback : WheelFeedback) (side : Side) : ℚ :=
  (if c.velocityRun.invertMeasured then -1 else 1) * feedback.rpm side

variable {s : ControlCore} {side : Side} {w : WheelState} {refRpm : ℤ} {x : ℚ}

/-! ## One wheel -/

theorem keepSign_sign (refRpm cmd : ℤ) : 0 ≤ keepSign refRpm cmd * refRpm ∨ refRpm = 0 := by
  unfold keepSign
  split_ifs with hpos hneg
  · exact .inl (mul_nonneg (le_max_right ..) hpos.le)
  · exact .inl (mul_nonneg_of_nonpos_of_nonpos (min_le_right ..) hneg.le)
  · exact .inr (by omega)

theorem abs_keepSign_sub_le (refRpm cmd : ℤ) : |keepSign refRpm cmd - refRpm| ≤ |cmd - refRpm| := by
  unfold keepSign
  split_ifs with hpos hneg <;> grind

/-- The command of a wheel that is corrected. -/
def command (p : WheelVelocityLqr.SafeParams) (gains : WheelVelocityLqr.Gains) (dref : ℚ)
    (refRpm : ℤ) (xHat dHat : ℚ) : ℤ :=
  keepSign refRpm (lround (WheelVelocityLqr.corrected p gains dref refRpm xHat dHat))

theorem abs_command_sub_le (p : WheelVelocityLqr.SafeParams) (gains : WheelVelocityLqr.Gains)
    (dref : ℚ) (refRpm : ℤ) (xHat dHat : ℚ) :
    |((command p gains dref refRpm xHat dHat - refRpm : ℤ) : ℚ)| ≤ p.maxCorrectionRpm + 1 / 2 := by
  have hkeep : |((command p gains dref refRpm xHat dHat - refRpm : ℤ) : ℚ)| ≤
      |(lround (WheelVelocityLqr.corrected p gains dref refRpm xHat dHat) : ℚ) - refRpm| := by
    have h := abs_keepSign_sub_le refRpm
      (lround (WheelVelocityLqr.corrected p gains dref refRpm xHat dHat))
    rw [← Int.cast_sub, ← Int.cast_abs, ← Int.cast_abs, Int.cast_le]
    exact h
  refine hkeep.trans ?_
  have hround := abs_lround_sub_le (WheelVelocityLqr.corrected p gains dref refRpm xHat dHat)
  have hlimit : |WheelVelocityLqr.corrected p gains dref refRpm xHat dHat - refRpm| ≤
      p.maxCorrectionRpm := by
    rw [WheelVelocityLqr.corrected, add_sub_cancel_left]
    exact DdtCurrentPi.abs_clamp_le p.max_nonneg
  have htriangle := abs_sub_le
    (lround (WheelVelocityLqr.corrected p gains dref refRpm xHat dHat) : ℚ)
    (WheelVelocityLqr.corrected p gains dref refRpm xHat dHat) refRpm
  linarith

/-- The observer a corrected wheel starts its tick with. -/
def startObserver (w : WheelState) (measuredRpm : ℚ) : WheelObserver.State :=
  if w.observer.initialized then w.observer else WheelObserver.reset measuredRpm

/-- The change of the reference since the last tick of the wheel. -/
def refChange (w : WheelState) (refRpm : ℤ) : ℚ :=
  if w.lqr.hasPrevRef then refRpm - w.lqr.prevRef else 0

theorem runWheel_some {gains : WheelVelocityLqr.Gains} (h : s.lqrGains = some gains) :
    let os := startObserver w x
    let xHat := os.xPrior + s.observerParams.lX * (x - os.xPrior)
    let dHat := os.dHat + s.observerParams.lD * (x - os.xPrior)
    let cmd := command s.lqrParams gains (refChange w refRpm) refRpm xHat dHat
    s.runWheel w refRpm x =
      ({ w with
          observer := WheelObserver.step os s.observerParams x cmd
          lqr := { hasPrevRef := true, prevRef := refRpm } }, cmd) := by
  unfold runWheel
  rw [h]
  rfl

/-- The wheel is corrected by `applyWheel`. -/
def Corrects (s : ControlCore) (w : WheelState) (refRpm : ℤ) : Prop :=
  s.config.wheelInRunRange refRpm (signOf refRpm ≠ 0 && w.refSign = signOf refRpm) = true ∧
    s.lqrGains.isSome = true

/-- The state a wheel that is corrected goes on from: a new one where the
reference has another sign. -/
def resumed (w : WheelState) (refRpm : ℤ) : WheelState :=
  if w.refSign ≠ signOf refRpm then { refSign := signOf refRpm } else w

theorem applyWheel_corrects (h : Corrects s w refRpm) :
    s.applyWheel w refRpm x =
      ((s.runWheel (resumed w refRpm) refRpm x).1, (s.runWheel (resumed w refRpm) refRpm x).2,
        true) := by
  obtain ⟨hrange, hgains⟩ := h
  unfold applyWheel
  dsimp only
  rw [hrange, if_neg]
  · rfl
  · simpa using Option.isSome_iff_ne_none.1 hgains

theorem applyWheel_leaves (h : ¬ Corrects s w refRpm) :
    s.applyWheel w refRpm x = ({}, refRpm, false) := by
  unfold applyWheel
  dsimp only
  rw [if_pos]
  unfold Corrects at h
  cases hrange : s.config.wheelInRunRange refRpm
      (signOf refRpm ≠ 0 && w.refSign = signOf refRpm) with
  | false => rfl
  | true =>
    rw [hrange] at h
    cases hgains : s.lqrGains with
    | none => rfl
    | some gains => simp [hgains] at h

/-! ## Settings in force -/

section Settings

/-- Cached gains are those of the settings. -/
def InForce (s : ControlCore) : Prop :=
  ∀ gains, s.lqrGains = some gains →
    (∃ a, s.lqrParams = WheelVelocityLqr.sanitize
      { a := a, b := 0, q := s.config.velocityRun.q, r := s.config.velocityRun.r,
        leadGain := s.config.velocityRun.leadGain,
        disturbanceGain := s.config.velocityRun.disturbanceGain,
        maxCorrectionRpm := s.config.velocityRun.maxCorrectionRpm }) ∧
    WheelVelocityLqr.computeGains s.lqrParams = some gains

variable [Libm]

theorem ensureLqrGains_frame (dtSec : Dbl) :
    (s.ensureLqrGains dtSec).config = s.config ∧ (s.ensureLqrGains dtSec).mode = s.mode ∧
    (s.ensureLqrGains dtSec).lastLinear = s.lastLinear ∧
    (s.ensureLqrGains dtSec).lastAngular = s.lastAngular ∧
    (s.ensureLqrGains dtSec).left = s.left ∧ (s.ensureLqrGains dtSec).right = s.right := by
  unfold ensureLqrGains
  split_ifs <;> simp

theorem inForce_ensure (h : InForce s) (dtSec : Dbl) : InForce (s.ensureLqrGains dtSec) := by
  unfold ensureLqrGains
  split
  · exact h
  · intro gains hgains
    exact ⟨⟨_, rfl⟩, hgains⟩

end Settings

/-! ## One step -/

variable {targetLinear targetAngular dtSec : Dbl} {feedback : WheelFeedback}

section Decision

variable [LroundInvalid]

/-- The core of a step before the wheels are corrected. -/
def decided (s : ControlCore) (targetLinear targetAngular dtSec : Dbl) : ControlCore :=
  (s.shape targetLinear targetAngular dtSec).changeMode
    (s.shape targetLinear targetAngular dtSec).references

/-- The output of a step before the wheels are corrected. -/
def uncorrected (s : ControlCore) (targetLinear targetAngular dtSec : Dbl) : Output :=
  let refs := (s.shape targetLinear targetAngular dtSec).references
  let decided := s.decided targetLinear targetAngular dtSec
  { stop := decide (decided.mode = .kStop), mode := decided.mode, leftRpm := refs.1,
    rightRpm := refs.2, leftRefRpm := refs.1, rightRefRpm := refs.2,
    linear := decided.lastLinear, angular := decided.lastAngular }

/-- The wheel a step starts with: a change of the mode clears it. -/
def keptWheel (s : ControlCore) (mode : DriveMode) (side : Side) : WheelState :=
  if mode = s.mode then s.wheel side else {}

theorem decided_frame :
    (s.decided targetLinear targetAngular dtSec).config = s.config ∧
    (s.decided targetLinear targetAngular dtSec).lqrParams = s.lqrParams ∧
    (s.decided targetLinear targetAngular dtSec).observerParams = s.observerParams ∧
    (s.decided targetLinear targetAngular dtSec).lqrGains = s.lqrGains ∧
    (s.decided targetLinear targetAngular dtSec).lqrGainsDt = s.lqrGainsDt ∧
    (s.decided targetLinear targetAngular dtSec).mode = DriveModeFsm.update s.mode
      (DriveModeFsm.maxAbs (s.shape targetLinear targetAngular dtSec).references)
      s.config.fsmConfig := by
  unfold decided changeMode
  dsimp only
  split_ifs with hmode
  · simp [resetWheelControllers, shape]
  · rw [not_not] at hmode
    exact ⟨rfl, rfl, rfl, rfl, rfl, hmode.symm⟩

theorem inForce_decided (h : InForce s) :
    InForce (s.decided targetLinear targetAngular dtSec) := by
  obtain ⟨hconfig, hparams, -, hgains, -⟩ :=
    @decided_frame s targetLinear targetAngular dtSec _
  intro gains hsome
  rw [hgains] at hsome
  rw [hconfig, hparams]
  exact h gains hsome

theorem decided_wheel (side : Side) :
    (s.decided targetLinear targetAngular dtSec).wheel side =
      s.keptWheel (s.decided targetLinear targetAngular dtSec).mode side := by
  unfold decided changeMode keptWheel
  dsimp only
  by_cases hmode : DriveModeFsm.update (s.shape targetLinear targetAngular dtSec).mode
      (DriveModeFsm.maxAbs (s.shape targetLinear targetAngular dtSec).references)
      (s.shape targetLinear targetAngular dtSec).config.fsmConfig =
        (s.shape targetLinear targetAngular dtSec).mode
  · rw [if_neg (not_not.2 hmode)]
    cases side <;> exact (if_pos rfl).symm
  · rw [if_pos hmode]
    cases side <;> exact (if_neg hmode).symm

end Decision

/-- What a step does with one wheel. -/
inductive WheelEffect (s : ControlCore) (feedback : WheelFeedback) (side : Side)
    (s' : ControlCore) (out : Output) : Prop where
  /-- The command is that of the controllers, with the settings in force. -/
  | corrects (core : ControlCore) (gains : WheelVelocityLqr.Gains)
      (config : core.config = s.config) (inForce : InForce s → InForce core)
      (cached : s'.lqrParams = core.lqrParams ∧ s'.lqrGains = core.lqrGains)
      (lqrGains : core.lqrGains = some gains) (mode : out.mode = .kRun)
      (applicable : s.config.lqrApplicable = true) (valid : feedback.valid = true)
      (corrects : Corrects core (s.keptWheel out.mode side) (out.refRpm side))
      (runs : (s'.wheel side, out.rpm side) =
        core.runWheel (resumed (s.keptWheel out.mode side) (out.refRpm side)) (out.refRpm side)
          (measured s.config feedback side))
      (active : out.active side = true) : WheelEffect s feedback side s' out
  /-- The command is the reference, and the wheel's state is gone, unless the
  controllers do not apply. -/
  | leaves (rpm : out.rpm side = out.refRpm side) (active : out.active side = false)
      (wheel : s'.wheel side = {} ∨
        s'.wheel side = s.keptWheel out.mode side ∧
          ¬ (out.mode = .kRun ∧ s.config.lqrApplicable = true)) :
      WheelEffect s feedback side s' out

theorem engaged_kept {mode : DriveMode}
    (h : (signOf refRpm ≠ 0 && (s.keptWheel mode side).refSign = signOf refRpm) = true) :
    (s.wheel side).refSign = signOf refRpm := by
  simp only [ne_eq, Bool.and_eq_true, decide_eq_true_eq] at h
  unfold keptWheel at h
  split_ifs at h
  · exact h.2
  · exact absurd h.2.symm h.1

theorem wheelEffect_applied {core : ControlCore} {out out' : Output} {s' : ControlCore}
    (hconfig : core.config = s.config) (hinForce : InForce s → InForce core)
    (hcached : s'.lqrParams = core.lqrParams ∧ s'.lqrGains = core.lqrGains)
    (hmode : out.mode = .kRun) (happlicable : s.config.lqrApplicable = true)
    (hvalid : feedback.valid = true) (hout : out'.mode = out.mode)
    (href : out'.refRpm side = out.refRpm side)
    (happlied : (s'.wheel side, out'.rpm side, out'.active side) =
      core.applyWheel (s.keptWheel out.mode side) (out.refRpm side)
        (measured s.config feedback side)) :
    WheelEffect s feedback side s' out' := by
  by_cases hcorrects : Corrects core (s.keptWheel out.mode side) (out.refRpm side)
  · obtain ⟨gains, hgains⟩ := Option.isSome_iff_exists.1 hcorrects.2
    rw [applyWheel_corrects hcorrects, Prod.mk.injEq, Prod.mk.injEq] at happlied
    obtain ⟨hwheel, hrpm, hactive⟩ := happlied
    refine .corrects core gains hconfig hinForce hcached hgains (hout.trans hmode) happlicable hvalid
      ?_ ?_ hactive
    · rw [hout, href]
      exact hcorrects
    · rw [hout, href, hwheel, hrpm]
  · rw [applyWheel_leaves hcorrects, Prod.mk.injEq, Prod.mk.injEq] at happlied
    obtain ⟨hwheel, hrpm, hactive⟩ := happlied
    exact .leaves (hrpm.trans href.symm) hactive (.inl hwheel)

section Steps

variable [Libm] [LroundInvalid]

theorem step_eq : s.step targetLinear targetAngular dtSec feedback =
    (s.decided targetLinear targetAngular dtSec).correctWheels
      (s.uncorrected targetLinear targetAngular dtSec) dtSec feedback := rfl

theorem step_inapplicable (h : s.config.lqrApplicable = false) :
    s.step targetLinear targetAngular dtSec feedback =
      (s.decided targetLinear targetAngular dtSec,
        s.uncorrected targetLinear targetAngular dtSec) := by
  have hconfig := (@decided_frame s targetLinear targetAngular dtSec _).1
  rw [step_eq, correctWheels, if_neg]
  rw [hconfig, h]
  exact fun hrun => Bool.false_ne_true hrun.2

/-- What a step leaves of the core, and what it reports of the mode. -/
structure StepFrame (s s' : ControlCore) (out : Output) : Prop where
  config : s'.config = s.config
  mode : s'.mode = out.mode
  stop : out.stop = decide (out.mode = .kStop)
  decides : out.mode = DriveModeFsm.update s.mode
    (DriveModeFsm.maxAbs (out.leftRefRpm, out.rightRefRpm)) s.config.fsmConfig
  inForce : InForce s → InForce s'

theorem step_frame : StepFrame s (s.step targetLinear targetAngular dtSec feedback).1
    (s.step targetLinear targetAngular dtSec feedback).2 := by
  obtain ⟨hconfig, -, -, -, -, hmode⟩ := @decided_frame s targetLinear targetAngular dtSec _
  have hensured := @ensureLqrGains_frame (s.decided targetLinear targetAngular dtSec) _ dtSec
  rw [step_eq]
  unfold correctWheels
  split_ifs
  · exact ⟨hensured.1.trans hconfig, hensured.2.1, rfl, hmode,
      fun h => inForce_ensure (inForce_decided h) dtSec⟩
  · exact ⟨hconfig, rfl, rfl, hmode, inForce_decided⟩
  · exact ⟨hconfig, rfl, rfl, hmode, inForce_decided⟩

theorem step_wheel (side : Side) : WheelEffect s feedback side
    (s.step targetLinear targetAngular dtSec feedback).1
    (s.step targetLinear targetAngular dtSec feedback).2 := by
  have hconfig := (@decided_frame s targetLinear targetAngular dtSec _).1
  have hwheel := @decided_wheel s targetLinear targetAngular dtSec _ side
  rw [step_eq]
  unfold correctWheels
  split_ifs with hrun hvalid
  · have hensured := @ensureLqrGains_frame (s.decided targetLinear targetAngular dtSec) _ dtSec
    have hinForce : InForce s →
        InForce ((s.decided targetLinear targetAngular dtSec).ensureLqrGains dtSec) :=
      fun h => inForce_ensure (inForce_decided h) dtSec
    have hplain : (s.uncorrected targetLinear targetAngular dtSec).mode = .kRun := hrun.1
    refine wheelEffect_applied (hensured.1.trans hconfig) hinForce ⟨rfl, rfl⟩ hplain
      (hconfig ▸ hrun.2) hvalid rfl (by cases side <;> rfl) ?_
    have hkept : s.keptWheel (s.uncorrected targetLinear targetAngular dtSec).mode side =
        ((s.decided targetLinear targetAngular dtSec).ensureLqrGains dtSec).wheel side := by
      rw [uncorrected, ← hwheel]
      cases side with
      | left => exact hensured.2.2.2.2.1.symm
      | right => exact hensured.2.2.2.2.2.symm
    rw [hkept, measured, ← hconfig, ← hensured.1]
    cases side <;> rfl
  · exact .leaves (by cases side <;> rfl) (by cases side <;> rfl) (.inl (by cases side <;> rfl))
  · refine .leaves (by cases side <;> rfl) (by cases side <;> rfl) (.inr ⟨hwheel, ?_⟩)
    rw [← hconfig]
    exact hrun

/-! ## Every run -/

theorem inForce_call (h : InForce s) (e : Call) : InForce (call s e).1 := by
  cases e with
  | step targetLinear targetAngular dtSec feedback => exact step_frame.inForce h
  | reset => exact h
  | setConfig config =>
    intro gains hgains
    simp only [call, setConfig] at hgains
    split at hgains <;> cases hgains

/-- What a step may command for a wheel: nothing against the reference, and
nothing further from it than the limit of the correction. -/
structure CorrectionSafe (s : ControlCore) (feedback : WheelFeedback) (out : Output)
    (side : Side) : Prop where
  sign : 0 ≤ out.rpm side * out.refRpm side
  bound : |((out.rpm side - out.refRpm side : ℤ) : ℚ)| ≤
    nonnegOrZero s.config.velocityRun.maxCorrectionRpm + 1 / 2
  uncorrected : out.active side = false → out.rpm side = out.refRpm side
  active : out.active side = true → out.mode = .kRun ∧ s.config.lqrApplicable = true ∧
    feedback.valid = true ∧ ∃ engaged,
      s.config.wheelInRunRange (out.refRpm side) engaged = true ∧
      (engaged = true → (s.wheel side).refSign = signOf (out.refRpm side))

theorem step_safe (h : InForce s) (side : Side) :
    CorrectionSafe s feedback (s.step targetLinear targetAngular dtSec feedback).2 side := by
  have heffect := @step_wheel s targetLinear targetAngular dtSec feedback _ _ side
  generalize (s.step targetLinear targetAngular dtSec feedback).1 = s' at heffect
  generalize (s.step targetLinear targetAngular dtSec feedback).2 = out at heffect ⊢
  cases heffect with
  | leaves hrpm hactive hwheel =>
    constructor
    · rw [hrpm]
      exact mul_self_nonneg _
    · rw [hrpm, sub_self, Int.cast_zero, abs_zero]
      exact add_nonneg (le_max_left ..) (by norm_num)
    · exact fun _ => hrpm
    · intro h
      rw [hactive] at h
      cases h
  | corrects core gains hconfig hinForce hcached hgains hmode happlicable hvalid hcorrects hruns
      hactive =>
    obtain ⟨⟨a, hparams⟩, -⟩ := hinForce h gains hgains
    rw [runWheel_some hgains, Prod.mk.injEq] at hruns
    constructor
    · rw [hruns.2]
      rcases keepSign_sign (out.refRpm side) _ with hsign | hzero
      · exact hsign
      · rw [hzero, mul_zero]
    · rw [hruns.2]
      refine (abs_command_sub_le ..).trans ?_
      rw [hparams, hconfig]
      exact le_rfl
    · intro h
      rw [hactive] at h
      cases h
    · intro _
      have hrange := hcorrects.1
      rw [hconfig] at hrange
      exact ⟨hmode, happlicable, hvalid, _, hrange, engaged_kept⟩

/-- Every step of a run is safe for both wheels. -/
def StepsSafe (steps : List CoreStep) : Prop :=
  ∀ t ∈ steps, ∀ targetLinear targetAngular dtSec feedback out,
    t.event = .step targetLinear targetAngular dtSec feedback → t.out = some out →
      ∀ side, CorrectionSafe t.pre feedback out side

theorem corrections_safe (config : Config) (calls : List Call) :
    StepsSafe (trace call (new config) calls) := by
  intro t ht targetLinear targetAngular dtSec feedback out hevent hout side
  have hinForce : InForce t.pre :=
    (trace_invariant InForce (fun _ e h => inForce_call h e) calls (new config) nofun t ht).1
  rw [eq_stepOf_of_mem_trace ht, hevent] at hout
  obtain rfl := Option.some.inj hout
  exact step_safe hinForce side

end Steps

/-- The distance from the reference is at most the limit of the settings as
they are given, wherever that is finite. -/
def WithinGivenLimit (steps : List CoreStep) : Prop :=
  ∀ t ∈ steps, ∀ out, t.out = some out →
    ∀ side m, t.pre.config.velocityRun.maxCorrectionRpm = .fin m →
      |((out.rpm side - out.refRpm side : ℤ) : ℚ)| ≤ m + 1 / 2

/-- A library whose `exp(-0.2)` is that of the tick below. -/
@[reducible] def tickLibm : Libm where
  sqrt q := q
  exp _ := 8187307530779818 / 10 ^ 16
  sin q := q
  cos _ := 1
  atan2 _ _ := 0

/-- The controllers are on, with a limit below zero. -/
def negativeLimit : Config where
  wheelRadius := .fin (1 / 20)
  wheelSeparation := .fin (1 / 2)
  runEnterRpm := 20
  runExitRpm := 15
  velocityRun := { enabled := true, maxCorrectionRpm := -1 }

/-- A limit below zero counts as 0: the wheel gets its reference, which is
further from it than the limit given and a half. -/
theorem negative_limit_is_zero :
    ¬ WithinGivenLimit (trace (@call tickLibm ⟨fun _ => 0⟩) (new negativeLimit)
      [.step 1 0 (.fin (1 / 50)) { valid := true, leftRpm := 100, rightRpm := -100 }]) := by
  intro h
  have hlimit := h _ (List.mem_singleton.2 rfl) _ rfl .left (-1) rfl
  exact absurd hlimit (by decide +kernel)

end Questix.MotorControl.ControlCore
