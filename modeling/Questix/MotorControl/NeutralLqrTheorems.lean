/-
Questix.MotorControl.NeutralLqrTheorems — controllers that are on and do
nothing.

With no weight on the error, no lead term and no disturbance term the
correction is 0 whatever the observer estimates, so a corrected wheel gets its
reference (`command_neutral`). The core whose controllers are on and the core
whose controllers are off then differ only in the wheels' states, which no
output reads: they run in lockstep (`SameDrive`).
-/
import Questix.MotorControl.ControlCoreTheorems

namespace Questix.MotorControl.ControlCore

open Questix.Lib

/-! ## Neutral settings -/

/-- The controllers have no error weight, no lead and no disturbance gain. -/
structure Neutral (c : Config) : Prop where
  q : c.velocityRun.q = 0
  leadGain : c.velocityRun.leadGain = 0
  disturbanceGain : c.velocityRun.disturbanceGain = 0

/-- The settings with the controllers off. -/
def Config.disabled (c : Config) : Config :=
  { c with velocityRun := { c.velocityRun with enabled := false } }

namespace Call

/-- A call that sets neutral settings, if any. -/
def Neutral : Call → Prop
  | .setConfig config => ControlCore.Neutral config
  | _ => True

/-- The call with the controllers off. -/
def disabled : Call → Call
  | .setConfig config => .setConfig config.disabled
  | e => e

end Call

/-- The output without what it says of the controllers. -/
def Output.flagless (out : Output) : Output :=
  { out with lqrActive := false, leftLqrActive := false, rightLqrActive := false }

variable {s s' : ControlCore} {refRpm : ℤ} {xHat dHat dref : ℚ}
variable {targetLinear targetAngular dtSec : Dbl} {feedback : WheelFeedback}

@[simp] theorem lqrApplicable_disabled (c : Config) : c.disabled.lqrApplicable = false := rfl

/-! ## A neutral correction -/

@[simp] theorem clamp_zero_unit : DdtCurrentPi.clamp (0 : ℚ) 0 1 = 0 := by
  unfold DdtCurrentPi.clamp
  norm_num

theorem clamp_zero {m : ℚ} (h : 0 ≤ m) : DdtCurrentPi.clamp 0 (-m) m = 0 := by
  unfold DdtCurrentPi.clamp
  split_ifs <;> linarith

theorem keepSign_self : keepSign refRpm refRpm = refRpm := by
  unfold keepSign
  split_ifs with hpos hneg
  · exact max_eq_left hpos.le
  · exact min_eq_left hneg.le
  · rfl

theorem command_neutral {p : WheelVelocityLqr.SafeParams} (hlead : p.leadGain = 0)
    (hdisturbance : p.disturbanceGain = 0) : command p {} dref refRpm xHat dHat = refRpm := by
  have hcorrection : WheelVelocityLqr.correction p {} dref refRpm xHat dHat = 0 := by
    simp [WheelVelocityLqr.correction, hlead, hdisturbance]
  rw [command, WheelVelocityLqr.corrected, hcorrection, clamp_zero p.max_nonneg, add_zero,
    lround_intCast]
  exact keepSign_self

theorem gains_neutral (hinForce : InForce s) (hneutral : Neutral s.config)
    {gains : WheelVelocityLqr.Gains} (hgains : s.lqrGains = some gains) :
    gains = {} ∧ s.lqrParams.leadGain = 0 ∧ s.lqrParams.disturbanceGain = 0 := by
  obtain ⟨⟨a, hparams⟩, hcompute⟩ := hinForce gains hgains
  rw [hneutral.q, hneutral.leadGain, hneutral.disturbanceGain] at hparams
  have hq : s.lqrParams.q ≤ 0 := by
    rw [hparams]
    exact (max_self (0 : ℚ)).le
  rw [WheelVelocityLqr.computeGains, if_pos hq, Option.some.injEq] at hcompute
  refine ⟨hcompute.symm, ?_, ?_⟩
  · rw [hparams]
    exact clamp_zero_unit
  · rw [hparams]
    exact clamp_zero_unit

/-! ## The two cores -/

/-- The second core has the settings of the first one with the controllers off,
and is otherwise where the first one is, as far as an output shows. -/
structure SameDrive (s s' : ControlCore) : Prop where
  config : s'.config = s.config.disabled
  lastLinear : s'.lastLinear = s.lastLinear
  lastAngular : s'.lastAngular = s.lastAngular
  mode : s'.mode = s.mode

theorem changeMode_frame (refs : ℤ × ℤ) :
    (s.changeMode refs).config = s.config ∧ (s.changeMode refs).lastLinear = s.lastLinear ∧
    (s.changeMode refs).lastAngular = s.lastAngular ∧
    (s.changeMode refs).mode =
      DriveModeFsm.update s.mode (DriveModeFsm.maxAbs refs) s.config.fsmConfig := by
  unfold changeMode
  dsimp only
  split_ifs with hmode
  · exact ⟨rfl, rfl, rfl, rfl⟩
  · exact ⟨rfl, rfl, rfl, (not_not.1 hmode).symm⟩

theorem SameDrive.shape (h : SameDrive s s') :
    SameDrive (s.shape targetLinear targetAngular dtSec)
      (s'.shape targetLinear targetAngular dtSec) where
  config := h.config
  lastLinear := by
    unfold ControlCore.shape
    rw [h.config, h.lastLinear]
    rfl
  lastAngular := by
    unfold ControlCore.shape
    rw [h.config, h.lastAngular]
    rfl
  mode := h.mode

theorem SameDrive.changeMode (h : SameDrive s s') (refs : ℤ × ℤ) :
    SameDrive (s.changeMode refs) (s'.changeMode refs) := by
  obtain ⟨hconfig, hlinear, hangular, hmode⟩ := @changeMode_frame s refs
  obtain ⟨hconfig', hlinear', hangular', hmode'⟩ := @changeMode_frame s' refs
  constructor
  · rw [hconfig', hconfig, h.config]
  · rw [hlinear', hlinear, h.lastLinear]
  · rw [hangular', hangular, h.lastAngular]
  · rw [hmode', hmode, h.mode, h.config]
    rfl

section Decision

variable [LroundInvalid]

theorem SameDrive.references (h : SameDrive s s') : s'.references = s.references := by
  unfold ControlCore.references
  rw [h.config, h.lastLinear, h.lastAngular]
  rfl

theorem SameDrive.decided (h : SameDrive s s') :
    SameDrive (s.decided targetLinear targetAngular dtSec)
      (s'.decided targetLinear targetAngular dtSec) := by
  unfold ControlCore.decided
  rw [h.shape.references]
  exact h.shape.changeMode _

theorem SameDrive.uncorrected (h : SameDrive s s') :
    s'.uncorrected targetLinear targetAngular dtSec =
      s.uncorrected targetLinear targetAngular dtSec := by
  have hdecided := @SameDrive.decided s s' targetLinear targetAngular dtSec _ h
  unfold ControlCore.uncorrected
  rw [h.shape.references]
  dsimp only
  rw [hdecided.mode, hdecided.lastLinear, hdecided.lastAngular]

end Decision

/-! ## Steps and runs -/

section Steps

variable [Libm] [LroundInvalid]

theorem rpm_neutral (hinForce : InForce s) (hneutral : Neutral s.config) (side : Side) :
    (s.step targetLinear targetAngular dtSec feedback).2.rpm side =
      (s.step targetLinear targetAngular dtSec feedback).2.refRpm side := by
  have heffect := @step_wheel s targetLinear targetAngular dtSec feedback _ _ side
  generalize (s.step targetLinear targetAngular dtSec feedback).1 = next at heffect
  generalize (s.step targetLinear targetAngular dtSec feedback).2 = out at heffect ⊢
  cases heffect with
  | leaves hrpm hactive hwheel => exact hrpm
  | corrects core gains hconfig hkeeps hcached hgains hmode happlicable hvalid hcorrects hruns
      hactive =>
    obtain ⟨rfl, hlead, hdisturbance⟩ := gains_neutral (hkeeps hinForce) (hconfig ▸ hneutral) hgains
    rw [runWheel_some hgains, Prod.mk.injEq] at hruns
    rw [hruns.2]
    exact command_neutral hlead hdisturbance

theorem step_decided :
    let next := (s.step targetLinear targetAngular dtSec feedback).1
    let out := (s.step targetLinear targetAngular dtSec feedback).2
    let decided := s.decided targetLinear targetAngular dtSec
    (next.config = decided.config ∧ next.lastLinear = decided.lastLinear ∧
      next.lastAngular = decided.lastAngular ∧ next.mode = decided.mode) ∧
    { out with leftRpm := out.leftRefRpm, rightRpm := out.rightRefRpm }.flagless =
      s.uncorrected targetLinear targetAngular dtSec := by
  have hensured := @ensureLqrGains_frame (s.decided targetLinear targetAngular dtSec) _ dtSec
  dsimp only
  rw [step_eq]
  unfold correctWheels
  split_ifs
  · exact ⟨⟨hensured.1, hensured.2.2.1, hensured.2.2.2.1, hensured.2.1⟩, rfl⟩
  · exact ⟨⟨rfl, rfl, rfl, rfl⟩, rfl⟩
  · exact ⟨⟨rfl, rfl, rfl, rfl⟩, rfl⟩

/-- The first core is neutral, with its gains those of its settings, and the
second one is where it is. -/
structure Lockstep (s s' : ControlCore) : Prop extends SameDrive s s' where
  inForce : InForce s
  neutral : Neutral s.config

theorem lockstep_step (h : Lockstep s s') :
    Lockstep (s.step targetLinear targetAngular dtSec feedback).1
        (s'.step targetLinear targetAngular dtSec feedback).1 ∧
      (s.step targetLinear targetAngular dtSec feedback).2.flagless =
        (s'.step targetLinear targetAngular dtSec feedback).2 := by
  have hoff : s'.config.lqrApplicable = false := by
    rw [h.config]
    exact lqrApplicable_disabled _
  have hleft := @rpm_neutral s targetLinear targetAngular dtSec feedback _ _ h.inForce h.neutral .left
  have hright := @rpm_neutral s targetLinear targetAngular dtSec feedback _ _ h.inForce h.neutral
    .right
  have hframe := @step_frame s targetLinear targetAngular dtSec feedback _ _
  obtain ⟨⟨hconfig, hlinear, hangular, hmode⟩, hout⟩ :=
    @step_decided s targetLinear targetAngular dtSec feedback _ _
  have hdecided := @SameDrive.decided s s' targetLinear targetAngular dtSec _ h.toSameDrive
  rw [step_inapplicable hoff]
  generalize (s.step targetLinear targetAngular dtSec feedback).1 = next at *
  generalize (s.step targetLinear targetAngular dtSec feedback).2 = out at *
  constructor
  · constructor
    · constructor
      · rw [hdecided.config, hconfig]
      · rw [hdecided.lastLinear, hlinear]
      · rw [hdecided.lastAngular, hangular]
      · rw [hdecided.mode, hmode]
    · exact hframe.inForce h.inForce
    · rw [hframe.config]
      exact h.neutral
  · show out.flagless = s'.uncorrected targetLinear targetAngular dtSec
    have hself : { out with leftRpm := out.leftRefRpm, rightRpm := out.rightRefRpm } = out := by
      cases out
      simp only [Output.rpm, Output.refRpm] at hleft hright
      rw [hleft, hright]
    rw [h.toSameDrive.uncorrected, ← hout, hself]

theorem lockstep_setConfig (h : Lockstep s s') {config : Config} (hneutral : Neutral config) :
    Lockstep (s.setConfig config) (s'.setConfig config.disabled) := by
  have hinForce := inForce_call h.inForce (.setConfig config)
  have hframe : ∀ (core : ControlCore) (c : Config), (core.setConfig c).config = c ∧
      (core.setConfig c).lastLinear = core.lastLinear ∧
      (core.setConfig c).lastAngular = core.lastAngular ∧
      (core.setConfig c).mode = core.mode := by
    intro core c
    unfold setConfig
    dsimp only
    split_ifs <;> exact ⟨rfl, rfl, rfl, rfl⟩
  obtain ⟨hconfig, hlinear, hangular, hmode⟩ := hframe s config
  obtain ⟨hconfig', hlinear', hangular', hmode'⟩ := hframe s' config.disabled
  refine ⟨⟨?_, ?_, ?_, ?_⟩, hinForce, ?_⟩
  · rw [hconfig', hconfig]
  · rw [hlinear', hlinear, h.lastLinear]
  · rw [hangular', hangular, h.lastAngular]
  · rw [hmode', hmode, h.mode]
  · rw [hconfig]
    exact hneutral

theorem lockstep_call (h : Lockstep s s') {e : Call} (he : e.Neutral) :
    Lockstep (call s e).1 (call s' e.disabled).1 ∧
      (call s e).2.map Output.flagless = (call s' e.disabled).2 := by
  cases e with
  | step targetLinear targetAngular dtSec feedback =>
    obtain ⟨hnext, hout⟩ :=
      @lockstep_step s s' targetLinear targetAngular dtSec feedback _ _ h
    exact ⟨hnext, congrArg some hout⟩
  | reset => exact ⟨⟨⟨h.config, rfl, rfl, rfl⟩, h.inForce, h.neutral⟩, rfl⟩
  | setConfig config => exact ⟨lockstep_setConfig h he, rfl⟩

/-- With neutral settings throughout, the outputs of a run are those of the run
with the controllers off, but for the flags of the controllers. -/
theorem neutral_is_feedforward (config : Config) (calls : List Call) (hconfig : Neutral config)
    (hcalls : ∀ e ∈ calls, e.Neutral) :
    (trace call (new config) calls).map (fun t => t.out.map Output.flagless) =
      (trace call (new config.disabled) (calls.map Call.disabled)).map Step.out := by
  have hstart : Lockstep (new config) (new config.disabled) :=
    ⟨⟨rfl, rfl, rfl, rfl⟩, nofun, hconfig⟩
  exact trace_lockstep (f := call) (g := call) (w := id) Lockstep
    (fun s s' e h he => lockstep_call h he) calls (new config) (new config.disabled) hstart hcalls

end Steps

/-- Controllers that are on, with nothing to weigh. -/
def neutralConfig : Config where
  wheelRadius := .fin (1 / 20)
  wheelSeparation := .fin (1 / 2)
  runEnterRpm := 20
  runExitRpm := 15
  velocityRun := { enabled := true }

theorem neutral_is_feedforward_forward :
    let calls : List Call := [.step 1 0 (.fin (1 / 50)) { valid := true, leftRpm := 100 },
      .setConfig { neutralConfig with runEnterRpm := 30 }, .reset]
    (trace (@call tickLibm ⟨fun _ => 0⟩) (new neutralConfig) calls).map
        (fun t => t.out.map Output.flagless) =
      (trace (@call tickLibm ⟨fun _ => 0⟩) (new neutralConfig.disabled)
        (calls.map Call.disabled)).map Step.out := by
  intro calls
  refine @neutral_is_feedforward tickLibm ⟨fun _ => 0⟩ neutralConfig calls ⟨rfl, rfl, rfl⟩ ?_
  simp only [calls, List.forall_mem_cons, List.not_mem_nil, IsEmpty.forall_iff, implies_true,
    and_true]
  exact ⟨trivial, ⟨rfl, rfl, rfl⟩, trivial⟩

end Questix.MotorControl.ControlCore
