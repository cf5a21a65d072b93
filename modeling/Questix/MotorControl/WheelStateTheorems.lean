/-
Questix.MotorControl.WheelStateTheorems — how long the controllers of a wheel
remember.

Between calls a wheel has a state only if the last step corrected it, and the
state then has the sign of that step's reference (`Backed`). So the sign the
state is kept with is what decides how a tick starts: with another one, or
none, the wheel starts from its measured speed (`fresh_of_sign`). Everything
that is meant to clear the state sets that sign to another one.
-/
import Questix.MotorControl.ControlCoreTheorems

namespace Questix.MotorControl.ControlCore

open Questix.Lib

/-! ## States and the steps they come from -/

/-- The state comes from the last step, which was in RUN, with the controllers
applicable and the feedback valid, and it has the sign of that step's
reference. -/
def Backed (side : Side) (steps : List CoreStep) (w : WheelState) : Prop :=
  ∃ x t y targetLinear targetAngular dtSec feedback out, steps = x ++ t :: y ∧
    t.event = .step targetLinear targetAngular dtSec feedback ∧ t.out = some out ∧
    (∀ r ∈ y, r.out = none) ∧ out.mode = .kRun ∧ t.pre.config.lqrApplicable = true ∧
    feedback.valid = true ∧ w.refSign = signOf (out.refRpm side)

/-- A wheel has a state only if it is backed, in RUN and with the controllers
applicable. -/
structure Clean (side : Side) (steps : List CoreStep) (s : ControlCore) : Prop where
  backed : s.wheel side ≠ {} → Backed side steps (s.wheel side)
  mode : s.wheel side ≠ {} → s.mode = .kRun
  applicable : s.wheel side ≠ {} → s.config.lqrApplicable = true

variable {steps : List CoreStep} {s : ControlCore} {side : Side}

theorem clean_of_none (h : s.wheel side = {}) : Clean side steps s :=
  ⟨fun hw => absurd h hw, fun hw => absurd h hw, fun hw => absurd h hw⟩

theorem wheel_resetWheelControllers : s.resetWheelControllers.wheel side = {} := by
  cases side <;> rfl

theorem Backed.snoc {w : WheelState} {t : CoreStep} (h : Backed side steps w)
    (ht : t.out = none) : Backed side (steps ++ [t]) w := by
  obtain ⟨x, r, y, tl, ta, dt, feedback, out, rfl, hevent, hout, hquiet, hrest⟩ := h
  refine ⟨x, r, y ++ [t], tl, ta, dt, feedback, out, by simp, hevent, hout, ?_, hrest⟩
  intro r' hr'
  rcases List.mem_append.1 hr' with hr' | hr'
  · exact hquiet r' hr'
  · obtain rfl := List.mem_singleton.1 hr'
    exact ht

theorem setConfig_wheel (config : Config) :
    (s.setConfig config).wheel side = {} ∨
      (s.setConfig config).wheel side = s.wheel side ∧ (s.setConfig config).mode = s.mode ∧
        velocityRunChanged s.config.velocityRun config.velocityRun = false ∧
        config.lqrApplicable = s.config.lqrApplicable := by
  unfold setConfig
  dsimp only
  split_ifs with hchanged
  · exact .inl wheel_resetWheelControllers
  · rw [Bool.or_eq_true, not_or, Bool.not_eq_true, Bool.not_eq_true, bne_eq_false_iff_eq]
      at hchanged
    refine .inr ⟨?_, rfl, hchanged.1, hchanged.2.symm⟩
    cases side <;> rfl

theorem resumed_refSign {w : WheelState} {refRpm : ℤ} :
    (resumed w refRpm).refSign = signOf refRpm := by
  unfold resumed
  split_ifs with hsign
  · rfl
  · exact not_not.1 hsign

theorem runs_refSign {core : ControlCore} {gains : WheelVelocityLqr.Gains} {w w' : WheelState}
    {refRpm cmd : ℤ} {x : ℚ} (hgains : core.lqrGains = some gains)
    (hruns : (w', cmd) = core.runWheel (resumed w refRpm) refRpm x) :
    w'.refSign = signOf refRpm := by
  rw [runWheel_some hgains, Prod.mk.injEq] at hruns
  rw [hruns.1]
  exact resumed_refSign

theorem Clean.left_none {s' : ControlCore} {mode : DriveMode} (h : Clean side steps s)
    (hwheel : s'.wheel side = {} ∨ s'.wheel side = s.keptWheel mode side ∧
      ¬ (mode = .kRun ∧ s.config.lqrApplicable = true)) : s'.wheel side = {} := by
  rcases hwheel with hnone | ⟨hkept, hidle⟩
  · exact hnone
  · rw [hkept]
    unfold keptWheel
    split_ifs with hsame
    · by_contra hsome
      exact hidle ⟨hsame.trans (h.mode hsome), h.applicable hsome⟩
    · rfl

theorem clean_step {s' : ControlCore} {out : Output} {targetLinear targetAngular dtSec : Dbl}
    {feedback : WheelFeedback} (h : Clean side steps s) (hframe : StepFrame s s' out)
    (heffect : WheelEffect s feedback side s' out) :
    Clean side (steps ++ [⟨s, .step targetLinear targetAngular dtSec feedback, some out, s'⟩])
      s' := by
  cases heffect with
  | corrects core gains hconfig hinForce hcached hgains hmode happlicable hvalid hcorrects hruns
      hactive =>
    constructor
    · intro _
      exact ⟨steps, _, [], targetLinear, targetAngular, dtSec, feedback, out, rfl, rfl, rfl,
        by simp, hmode, happlicable, hvalid, runs_refSign hgains hruns⟩
    · exact fun _ => hframe.mode.trans hmode
    · intro _
      rw [hframe.config]
      exact happlicable
  | leaves hrpm hactive hwheel =>
    exact clean_of_none (h.left_none hwheel)

/-! ## How a tick starts -/

/-- The wheel is corrected in a step whose reference has the sign. -/
def CorrectedAs (side : Side) (sign : ℤ) (t : CoreStep) : Prop :=
  ∃ out, t.out = some out ∧ out.active side = true ∧ signOf (out.refRpm side) = sign

/-- The step starts the wheel from its measured speed, with no disturbance and
no lead term. -/
def StartsFresh (side : Side) (t : CoreStep) : Prop :=
  ∃ targetLinear targetAngular dtSec feedback out gains,
    t.event = .step targetLinear targetAngular dtSec feedback ∧ t.out = some out ∧
    t.post.lqrGains = some gains ∧
    (t.post.wheel side).observer.xHat = measured t.pre.config feedback side ∧
    (t.post.wheel side).observer.dHat = 0 ∧
    out.rpm side = command t.post.lqrParams gains 0 (out.refRpm side)
      (measured t.pre.config feedback side) 0

/-- A reset, a change of the controllers' settings or of whether they apply, a
step that stops, leaves RUN or changes the mode without correcting the wheel,
or a loss of feedback. -/
def Interrupts (side : Side) (t : CoreStep) : Prop :=
  match t.event with
  | .reset => True
  | .setConfig config =>
    config.velocityRun ≠ t.pre.config.velocityRun ∨
      config.lqrApplicable ≠ t.pre.config.lqrApplicable
  | .step _ _ _ feedback =>
    feedback.valid = false ∨ ∃ out, t.out = some out ∧
      (out.stop = true ∨ out.mode ≠ .kRun ∨ out.mode ≠ t.pre.mode ∧ out.active side = false)

/-- The reference of the wheel has another sign. -/
def Turns (side : Side) (sign : ℤ) (t : CoreStep) : Prop :=
  ∃ out, t.out = some out ∧ signOf (out.refRpm side) ≠ sign

theorem eq_of_differs {x y : Dbl} (h : differs x y = false) : x = y := by
  rw [differs, Bool.not_eq_false', Dbl.eq, Bool.and_eq_true, beq_iff_eq] at h
  exact h.2

theorem eq_of_velocityRunChanged {before after : VelocityRunLqrConfig}
    (h : velocityRunChanged before after = false) : before = after := by
  simp only [velocityRunChanged, Bool.or_eq_false_iff, bne_eq_false_iff_eq] at h
  obtain ⟨⟨⟨⟨⟨⟨⟨⟨⟨⟨h1, h2⟩, h3⟩, h4⟩, h5⟩, h6⟩, h7⟩, h8⟩, h9⟩, h10⟩, h11⟩ := h
  cases before
  cases after
  simp only at h1 h2 h3 h4 h5 h6 h7 h8 h9 h10 h11
  rw [h1, eq_of_differs h2, h3, eq_of_differs h4, eq_of_differs h5, eq_of_differs h6,
    eq_of_differs h7, eq_of_differs h8, eq_of_differs h9, eq_of_differs h10, h11]

section OneStep

variable {s' : ControlCore} {out : Output} {feedback : WheelFeedback}

theorem effect_refSign (h : Clean side steps s) (heffect : WheelEffect s feedback side s' out) :
    (s'.wheel side).refSign = if out.active side then signOf (out.refRpm side) else 0 := by
  cases heffect with
  | corrects core gains hconfig hinForce hcached hgains hmode happlicable hvalid hcorrects hruns
      hactive =>
    rw [hactive, if_pos rfl]
    exact runs_refSign hgains hruns
  | leaves hrpm hactive hwheel =>
    rw [hactive, if_neg Bool.false_ne_true]
    rw [h.left_none hwheel]

theorem effect_active (heffect : WheelEffect s feedback side s' out)
    (hactive : out.active side = true) :
    out.mode = .kRun ∧ feedback.valid = true ∧ signOf (out.refRpm side) ≠ 0 := by
  cases heffect with
  | leaves hrpm hinactive hwheel =>
    rw [hinactive] at hactive
    cases hactive
  | corrects core gains hconfig hinForce hcached hgains hmode happlicable hvalid hcorrects hruns
      hactive =>
    refine ⟨hmode, hvalid, ?_⟩
    have hrange := hcorrects.1
    unfold Config.wheelInRunRange at hrange
    split at hrange
    · cases hrange
    · rename_i hne
      simp only [Bool.or_eq_true, decide_eq_true_eq, not_or] at hne
      unfold signOf
      split_ifs <;> omega

theorem fresh_of_sign {targetLinear targetAngular dtSec : Dbl}
    (heffect : WheelEffect s feedback side s' out) (hactive : out.active side = true)
    (hsign : (s.keptWheel out.mode side).refSign ≠ signOf (out.refRpm side)) :
    StartsFresh side ⟨s, .step targetLinear targetAngular dtSec feedback, some out, s'⟩ := by
  cases heffect with
  | leaves hrpm hinactive hwheel =>
    rw [hinactive] at hactive
    cases hactive
  | corrects core gains hconfig hinForce hcached hgains hmode happlicable hvalid hcorrects hruns
      hactive =>
    have hnew : resumed (s.keptWheel out.mode side) (out.refRpm side) =
        { refSign := signOf (out.refRpm side) } := if_pos hsign
    rw [runWheel_some hgains, hnew, Prod.mk.injEq] at hruns
    obtain ⟨hwheel, hrpm⟩ := hruns
    refine ⟨targetLinear, targetAngular, dtSec, feedback, out, gains, rfl, rfl,
      hcached.2.trans hgains, ?_, ?_, ?_⟩
    · rw [hwheel]
      simp [startObserver, WheelObserver.reset, WheelObserver.step]
    · rw [hwheel]
      simp [startObserver, WheelObserver.reset, WheelObserver.step]
    · rw [hrpm, hcached.1]
      simp [startObserver, WheelObserver.reset, refChange]

theorem fresh_of_effect {targetLinear targetAngular dtSec : Dbl}
    (heffect : WheelEffect s feedback side s' out) (hactive : out.active side = true)
    (hpre : (s.wheel side).refSign ≠ signOf (out.refRpm side) ∨ out.mode ≠ s.mode) :
    StartsFresh side ⟨s, .step targetLinear targetAngular dtSec feedback, some out, s'⟩ := by
  refine fresh_of_sign heffect hactive ?_
  unfold keptWheel
  split_ifs with hmode
  · rcases hpre with hother | hchanged
    · exact hother
    · exact absurd hmode hchanged
  · exact (effect_active heffect hactive).2.2.symm

end OneStep

section Steps

variable [Libm] [LroundInvalid]

theorem clean_call (h : Clean side steps s) (e : Call) :
    Clean side (steps ++ [stepOf call s e]) (call s e).1 := by
  cases e with
  | reset => exact clean_of_none wheel_resetWheelControllers
  | setConfig config =>
    rcases @setConfig_wheel s side config with hnone | ⟨hwheel, hmode, -, happlicable⟩
    · exact clean_of_none hnone
    · constructor
      · intro hsome
        simp only [call, hwheel] at hsome ⊢
        exact (h.backed hsome).snoc rfl
      · intro hsome
        simp only [call, hwheel] at hsome ⊢
        rw [hmode]
        exact h.mode hsome
      · intro hsome
        simp only [call, hwheel] at hsome ⊢
        have hconfig : (s.setConfig config).config = config := by
          unfold setConfig
          dsimp only
          split <;> rfl
        rw [hconfig, happlicable]
        exact h.applicable hsome
  | step targetLinear targetAngular dtSec feedback =>
    exact clean_step h step_frame (step_wheel side)

theorem clean_run (config : Config) (calls : List Call) (side : Side) :
    Clean side (trace call (new config) calls) (final call (new config) calls) :=
  trace_history (fun _ _ => True) (clean_of_none (by cases side <;> rfl))
    (fun _ _ e h _ => clean_call h e) calls (fun _ _ _ _ => trivial)

/-! ## Every run -/

/-- An interruption, or a reference of another sign, leaves the wheel without a
state of the sign. -/
theorem cleared_call (h : Clean side steps s) {e : Call} {sign : ℤ} (hsign : sign ≠ 0)
    (hcleared : Interrupts side (stepOf call s e) ∨ Turns side sign (stepOf call s e)) :
    ((call s e).1.wheel side).refSign ≠ sign := by
  cases e with
  | reset =>
    have hnone : (call s .reset).1.wheel side = {} := wheel_resetWheelControllers
    rw [hnone]
    exact hsign.symm
  | setConfig config =>
    rcases hcleared with hchange | ⟨out, hout, -⟩
    · rcases @setConfig_wheel s side config with hnone | ⟨-, -, hsame, happlicable⟩
      · simp only [call, hnone]
        exact hsign.symm
      · rcases hchange with hvelocity | hother
        · exact absurd (eq_of_velocityRunChanged hsame).symm hvelocity
        · exact absurd happlicable hother
    · cases hout
  | step targetLinear targetAngular dtSec feedback =>
    have hframe := @step_frame s targetLinear targetAngular dtSec feedback _ _
    have heffect := @step_wheel s targetLinear targetAngular dtSec feedback _ _ side
    have hrefSign := effect_refSign h heffect
    simp only [call]
    rw [hrefSign]
    simp only [Interrupts, Turns, stepOf, call, Option.some.injEq, exists_eq_left'] at hcleared
    split_ifs with hactive
    · obtain ⟨hmode, hvalid, -⟩ := effect_active heffect hactive
      rcases hcleared with (hinvalid | hstop | hleft | ⟨-, hinactive⟩) | hturn
      · rw [hvalid] at hinvalid
        cases hinvalid
      · rw [hframe.stop, hmode] at hstop
        cases hstop
      · exact absurd hmode hleft
      · rw [hactive] at hinactive
        cases hinactive
      · exact hturn
    · exact hsign.symm

theorem quiet_call (h : Clean side steps s) {e : Call} {sign : ℤ} (hsign : sign ≠ 0)
    (hpre : (s.wheel side).refSign ≠ sign) (hquiet : ¬ CorrectedAs side sign (stepOf call s e)) :
    ((call s e).1.wheel side).refSign ≠ sign := by
  cases e with
  | reset =>
    have hnone : (call s .reset).1.wheel side = {} := wheel_resetWheelControllers
    rw [hnone]
    exact hsign.symm
  | setConfig config =>
    rcases @setConfig_wheel s side config with hnone | ⟨hsame, -⟩
    · simp only [call, hnone]
      exact hsign.symm
    · simp only [call, hsame]
      exact hpre
  | step targetLinear targetAngular dtSec feedback =>
    have hrefSign := effect_refSign h (@step_wheel s targetLinear targetAngular dtSec feedback _ _ side)
    simp only [call]
    rw [hrefSign]
    split_ifs with hactive
    · exact fun hsame => hquiet ⟨_, rfl, hactive, hsame⟩
    · exact hsign.symm

theorem fresh_call {e : Call} {sign : ℤ} (hcorrected : CorrectedAs side sign (stepOf call s e))
    (hpre : (s.wheel side).refSign ≠ sign ∨
      ∃ out, (call s e).2 = some out ∧ out.mode ≠ s.mode) :
    StartsFresh side (stepOf call s e) := by
  obtain ⟨out, hout, hactive, hsame⟩ := hcorrected
  cases e with
  | reset => cases hout
  | setConfig config => cases hout
  | step targetLinear targetAngular dtSec feedback =>
    obtain rfl := Option.some.inj hout
    refine fresh_of_effect (step_wheel side) hactive ?_
    rcases hpre with hother | ⟨out', hout', hchanged⟩
    · left
      rw [hsame]
      exact hother
    · right
      obtain rfl := Option.some.inj hout'
      exact hchanged

/-- Whatever interrupts the correction of a wheel or turns its reference, the
next tick that corrects it starts fresh; so does a tick that changes the mode. -/
structure StartsClean (side : Side) (steps : List CoreStep) : Prop where
  after : ∀ sign, BlockedUntil (fun t => Interrupts side t ∨ Turns side sign t)
    (fun u => CorrectedAs side sign u ∧ ¬ StartsFresh side u) (CorrectedAs side sign) steps
  entering : ∀ t ∈ steps, ∀ sign, CorrectedAs side sign t →
    (∃ out, t.out = some out ∧ out.mode ≠ t.pre.mode) → StartsFresh side t

theorem clean_of_mem {config : Config} {calls : List Call} {t : CoreStep} (side : Side)
    (ht : t ∈ trace call (new config) calls) :
    ∃ steps, Clean side steps t.pre := by
  obtain ⟨a, b, hab⟩ := List.append_of_mem ht
  obtain ⟨calls₁, e, calls₂, rfl, rfl, rfl, -⟩ := trace_split hab
  exact ⟨_, clean_run config calls₁ side⟩

theorem startsClean_run (config : Config) (calls : List Call) (side : Side) :
    StartsClean side (trace call (new config) calls) where
  after := by
    intro sign
    by_cases hsign : sign = 0
    · -- no wheel is corrected without a reference
      intro x t y u z hsteps _ hbad
      obtain ⟨⟨out, hout, hactive, hzero⟩, -⟩ := hbad
      have hu := eq_stepOf_of_mem_trace (show u ∈ trace call (new config) calls by simp [hsteps])
      rw [hu] at hout
      cases he : u.event with
      | reset => rw [he] at hout; cases hout
      | setConfig => rw [he] at hout; cases hout
      | step targetLinear targetAngular dtSec feedback =>
        rw [he] at hout
        obtain rfl := Option.some.inj hout
        exact absurd (hzero.trans hsign) (effect_active (step_wheel side) hactive).2.2
    · refine blockedUntil_trace (fun s => (s.wheel side).refSign ≠ sign) ?_ ?_ ?_
      · intro t ht hcleared
        obtain ⟨steps, hclean⟩ := clean_of_mem side ht
        rw [eq_stepOf_of_mem_trace ht] at hcleared ⊢
        exact cleared_call hclean hsign hcleared
      · intro t ht hpre hquiet
        obtain ⟨steps, hclean⟩ := clean_of_mem side ht
        rw [eq_stepOf_of_mem_trace ht] at hquiet ⊢
        exact quiet_call hclean hsign hpre hquiet
      · rintro t ht hpre ⟨hcorrected, hstale⟩
        rw [eq_stepOf_of_mem_trace ht] at hcorrected hstale
        exact hstale (fresh_call hcorrected (.inl hpre))
  entering := by
    rintro t ht sign hcorrected hchanged
    rw [eq_stepOf_of_mem_trace ht] at hcorrected hchanged ⊢
    exact fresh_call hcorrected (.inr hchanged)

/-- After every call a wheel has a state only if the last step backs it and the
controllers apply, and a tick that corrects it after an interruption starts
fresh. -/
theorem wheel_state_hygiene (config : Config) (calls : List Call) (side : Side) :
    ((final call (new config) calls).wheel side ≠ {} →
      Backed side (trace call (new config) calls) ((final call (new config) calls).wheel side) ∧
        (final call (new config) calls).config.lqrApplicable = true) ∧
      StartsClean side (trace call (new config) calls) := by
  have hclean := clean_run config calls side
  exact ⟨fun hsome => ⟨hclean.backed hsome, hclean.applicable hsome⟩,
    startsClean_run config calls side⟩

end Steps

end Questix.MotorControl.ControlCore
