/-
Questix.MotorControl.CurrentPiTheorems — runs of the current-mode controller
while its settings change: `stepToRaw` and the setters of `DdtMotorLib`.

A run is a list of calls, each with the settings the library has at that
moment. A state of `DdtMotorLib` holds no settings its setters would not make,
so the limits of a call are not negative, and nothing else is assumed of them.

The stored integral is not clamped by the setter that lowers its limit, and a
step that pushes further into the current limit keeps the integral as it is.
So it is within the limit in force after every step but such a one, and always
within a limit that was in force when some step of the run was taken.
-/
import Questix.Lib.Trace
import Questix.MotorControl.DdtMotorLib

namespace Questix.MotorControl.DdtCurrentPi

open Questix.Lib

/-! ## Runs -/

/-- A call of `stepToRaw` by `runCurrentLoopStep`, with the library's settings
at that moment. -/
structure LoopCall where
  lib : DdtMotorLib
  rpmRef : ℤ
  measuredRpm : ℤ
  dt : ℚ

def loopStep (state : State) (call : LoopCall) : State × StepOutput :=
  stepToRaw state call.lib.params call.rpmRef call.measuredRpm call.dt

abbrev LoopStep := Step State LoopCall StepOutput

namespace LoopCall

variable (call : LoopCall) (state : State)

def maxCurrentAmp : ℚ := call.lib.params.maxCurrentAmp
def integralLimitAmp : ℚ := call.lib.params.integralLimitAmp
def ki : ℚ := call.lib.params.ki

/-- `error` in `stepToRaw`. -/
def error : ℚ :=
  call.rpmRef - (if call.lib.params.invertMeasured then -call.measuredRpm else call.measuredRpm : ℤ)

/-- `integral_candidate` in `stepToRaw`. -/
def candidate : ℚ :=
  if call.ki > 1 / 10 ^ 9 then
    clamp (state.integralAmp + call.ki * call.error * call.dt) (-call.integralLimitAmp)
      call.integralLimitAmp
  else 0

/-- `unclamped` in `stepToRaw`. -/
def unclamped : ℚ :=
  frictionFeedforwardAmp call.rpmRef call.lib.params + call.lib.params.kp * call.error +
    call.candidate state

def SaturatedHigh : Prop := call.maxCurrentAmp < call.unclamped state

def SaturatedLow : Prop := call.unclamped state < -call.maxCurrentAmp

/-- `pushing_into_limit` in `stepToRaw`. -/
def Pushing : Prop :=
  (call.SaturatedHigh state ∧ 0 < call.error) ∨ (call.SaturatedLow state ∧ call.error < 0)

theorem maxCurrentAmp_nonneg : 0 ≤ call.maxCurrentAmp := call.lib.maxCurrentAmp.property

theorem integralLimitAmp_nonneg : 0 ≤ call.integralLimitAmp := call.lib.integralLimitAmp.property

end LoopCall

/-! ## One step -/

section OneStep

variable (state : State) (call : LoopCall)

theorem integral_off (h : call.ki ≤ 1 / 10 ^ 9) : (loopStep state call).1.integralAmp = 0 := by
  have hki : call.lib.params.ki ≤ 1 / 10 ^ 9 := h
  simp only [loopStep, stepToRaw, if_pos hki]

theorem integral_pushing (hki : 1 / 10 ^ 9 < call.ki) (h : call.Pushing state) :
    (loopStep state call).1 = state := by
  have hki' : ¬ call.lib.params.ki ≤ 1 / 10 ^ 9 := not_le.2 hki
  simp only [loopStep, stepToRaw, if_neg hki']
  exact if_neg (not_not_intro h)

theorem integral_free (hki : 1 / 10 ^ 9 < call.ki) (h : ¬ call.Pushing state) :
    (loopStep state call).1.integralAmp =
      clamp (state.integralAmp + call.ki * call.error * call.dt) (-call.integralLimitAmp)
        call.integralLimitAmp := by
  have hki' : ¬ call.lib.params.ki ≤ 1 / 10 ^ 9 := not_le.2 hki
  have hcand : call.candidate state =
      clamp (state.integralAmp + call.ki * call.error * call.dt) (-call.integralLimitAmp)
        call.integralLimitAmp := if_pos hki
  rw [← hcand]
  simp only [loopStep, stepToRaw, if_neg hki']
  exact congrArg State.integralAmp (if_pos h)

theorem abs_candidate_le : |call.candidate state| ≤ call.integralLimitAmp := by
  unfold LoopCall.candidate
  split
  · exact abs_clamp_le call.integralLimitAmp_nonneg
  · simpa using call.integralLimitAmp_nonneg

theorem abs_integral_free_le (h : call.ki ≤ 1 / 10 ^ 9 ∨ ¬ call.Pushing state) :
    |(loopStep state call).1.integralAmp| ≤ call.integralLimitAmp := by
  by_cases hki : call.ki ≤ 1 / 10 ^ 9
  · simpa [integral_off state call hki] using call.integralLimitAmp_nonneg
  · rw [integral_free state call (not_le.1 hki) (h.resolve_left hki)]
    exact abs_clamp_le call.integralLimitAmp_nonneg

theorem abs_integral_le (h : |state.integralAmp| ≤ call.integralLimitAmp) :
    |(loopStep state call).1.integralAmp| ≤ call.integralLimitAmp := by
  by_cases hpush : 1 / 10 ^ 9 < call.ki ∧ call.Pushing state
  · rwa [integral_pushing state call hpush.1 hpush.2]
  · refine abs_integral_free_le state call ?_
    rwa [not_and_or, not_lt] at hpush

theorem clamp_le_max {v lo hi w : ℚ} (h : v ≤ w) : clamp v lo hi ≤ max w lo := by
  unfold clamp
  split_ifs with hlo hhi
  · exact le_max_right ..
  · exact le_max_of_le_left (hhi.le.trans h)
  · exact le_max_of_le_left h

theorem min_le_clamp {v lo hi w : ℚ} (h : w ≤ v) : min w hi ≤ clamp v lo hi := by
  unfold clamp
  split_ifs with hlo hhi
  · exact min_le_of_left_le (h.trans hlo.le)
  · exact min_le_right ..
  · exact min_le_of_left_le h

theorem integral_saturatedHigh (hki : 1 / 10 ^ 9 < call.ki) (hdt : 0 ≤ call.dt)
    (h : call.SaturatedHigh state) :
    (loopStep state call).1.integralAmp ≤ max state.integralAmp (-call.integralLimitAmp) := by
  by_cases hpush : call.Pushing state
  · rw [integral_pushing state call hki hpush]
    exact le_max_left ..
  · have herror : call.error ≤ 0 := not_lt.1 fun he => hpush (.inl ⟨h, he⟩)
    rw [integral_free state call hki hpush]
    refine clamp_le_max ?_
    have hgain : 0 ≤ call.ki := le_trans (by norm_num) hki.le
    have := mul_nonpos_of_nonpos_of_nonneg (mul_nonpos_of_nonneg_of_nonpos hgain herror) hdt
    linarith

theorem integral_saturatedLow (hki : 1 / 10 ^ 9 < call.ki) (hdt : 0 ≤ call.dt)
    (h : call.SaturatedLow state) :
    min state.integralAmp call.integralLimitAmp ≤ (loopStep state call).1.integralAmp := by
  by_cases hpush : call.Pushing state
  · rw [integral_pushing state call hki hpush]
    exact min_le_left ..
  · have herror : 0 ≤ call.error := not_lt.1 fun he => hpush (.inr ⟨h, he⟩)
    rw [integral_free state call hki hpush]
    refine min_le_clamp ?_
    have hgain : 0 ≤ call.ki := le_trans (by norm_num) hki.le
    have := mul_nonneg (mul_nonneg hgain herror) hdt
    linarith

end OneStep

/-! ## Every step of a run -/

/-- The integral is zero, or within the limit that one of the steps so far
was taken with. -/
def Bounded (past : List LoopStep) (state : State) : Prop :=
  state.integralAmp = 0 ∨ ∃ u ∈ past, |state.integralAmp| ≤ u.event.integralLimitAmp

theorem bounded_step {past : List LoopStep} {state : State} {call : LoopCall}
    (h : Bounded past state) :
    Bounded (past ++ [stepOf loopStep state call]) (loopStep state call).1 := by
  by_cases hpush : 1 / 10 ^ 9 < call.ki ∧ call.Pushing state
  · rw [integral_pushing state call hpush.1 hpush.2]
    refine h.imp_right ?_
    intro ⟨u, hu, hle⟩
    exact ⟨u, List.mem_append_left _ hu, hle⟩
  · rw [not_and_or, not_lt] at hpush
    exact .inr ⟨_, List.mem_append_right _ (List.mem_singleton_self _),
      abs_integral_free_le state call hpush⟩

theorem bounded_run (calls : List LoopCall) :
    Bounded (trace loopStep {} calls) (final loopStep {} calls) :=
  trace_history (fun _ _ => True) (.inl rfl) (fun _ _ _ h _ => bounded_step h) calls
    (fun _ _ _ _ => trivial)

/-- Every step `t` of every run, after the steps `before`: the current is
within its limit, and so is the part of it that the integral makes. What is
stored is within a limit that some step so far was taken with, and within the
one in force unless the step pushes further into the current limit, and then
it is what it was. Cut off at a limit, no step moves the integral further
towards it, except that it is brought back within a limit that was lowered, and
set to zero where there is no integral gain. -/
theorem integral_run (calls : List LoopCall) {before after : List LoopStep} {t : LoopStep}
    (h : trace loopStep {} calls = before ++ t :: after) :
    |t.out.iCmdAmp| ≤ t.event.maxCurrentAmp ∧
    |t.out.raw.toInt| ≤ (ampToRaw t.event.maxCurrentAmp).toInt ∧
    |t.event.candidate t.pre| ≤ t.event.integralLimitAmp ∧
    (∃ u ∈ before ++ [t], |t.post.integralAmp| ≤ u.event.integralLimitAmp) ∧
    (|t.post.integralAmp| ≤ t.event.integralLimitAmp ∨ (t.event.Pushing t.pre ∧ t.post = t.pre)) ∧
    (|t.pre.integralAmp| ≤ t.event.integralLimitAmp →
      |t.post.integralAmp| ≤ t.event.integralLimitAmp) ∧
    (t.event.ki ≤ 1 / 10 ^ 9 → t.post.integralAmp = 0) ∧
    (1 / 10 ^ 9 < t.event.ki → 0 ≤ t.event.dt → t.event.SaturatedHigh t.pre →
      t.post.integralAmp ≤ max t.pre.integralAmp (-t.event.integralLimitAmp)) ∧
    (1 / 10 ^ 9 < t.event.ki → 0 ≤ t.event.dt → t.event.SaturatedLow t.pre →
      min t.pre.integralAmp t.event.integralLimitAmp ≤ t.post.integralAmp) := by
  obtain ⟨calls₁, call, calls₂, rfl, rfl, rfl, -⟩ := trace_split h
  have hcurrent : |(loopStep (final loopStep {} calls₁) call).2.iCmdAmp| ≤ call.maxCurrentAmp :=
    abs_clamp_le call.maxCurrentAmp_nonneg
  have hbounded : Bounded (trace loopStep {} calls₁ ++ [stepOf loopStep (final loopStep {} calls₁) call])
      (loopStep (final loopStep {} calls₁) call).1 := bounded_step (bounded_run calls₁)
  refine ⟨hcurrent, abs_ampToRaw_le hcurrent, abs_candidate_le _ _, ?_, ?_, abs_integral_le _ _,
    integral_off _ _, integral_saturatedHigh _ _, integral_saturatedLow _ _⟩
  · rcases hbounded with hzero | hle
    · refine ⟨_, List.mem_append_right _ (List.mem_singleton_self _), ?_⟩
      show |(loopStep (final loopStep {} calls₁) call).1.integralAmp| ≤ call.integralLimitAmp
      rw [hzero, abs_zero]
      exact call.integralLimitAmp_nonneg
    · exact hle
  · by_cases hpush : 1 / 10 ^ 9 < call.ki ∧ call.Pushing (final loopStep {} calls₁)
    · exact .inr ⟨hpush.2, integral_pushing _ _ hpush.1 hpush.2⟩
    · rw [not_and_or, not_lt] at hpush
      exact .inl (abs_integral_free_le _ _ hpush)

/-- Settings of the library: gains, current limit and integral limit. -/
def settings (kp ki : ℚ) (maxCurrentAmp integralLimitAmp : Amps) (ffStaticAmp : ℚ) : DdtMotorLib :=
  { DdtMotorLib.new {} with
    currentKp := kp, currentKi := ki, maxCurrentAmp := maxCurrentAmp,
    integralLimitAmp := integralLimitAmp, currentFfStaticAmp := ffStaticAmp }

theorem twoAmps_nonneg : (0 : ℚ) ≤ 2 := by norm_num

/-- Pulls the integral to its limit of one ampere, without saturation. -/
def windUp (rpmRef : ℤ) : LoopCall :=
  { lib := settings 0 1 ⟨2, twoAmps_nonneg⟩ ⟨1, maxCurrent_nonneg⟩ 0, rpmRef := rpmRef,
    measuredRpm := 0, dt := 1 / 10 }

/-- The same reference, with a lower integral limit and a gain that saturates the
output. -/
def lowered : LoopCall :=
  { lib := settings 1 1 ⟨2, twoAmps_nonneg⟩ ⟨3 / 10, integralLimit_nonneg⟩ 0, rpmRef := 100,
    measuredRpm := 0, dt := 1 / 10 }

/-- The integral gain set to zero, with a gain that saturates the output. -/
def gainOff : LoopCall :=
  { lib := settings 1 0 ⟨2, twoAmps_nonneg⟩ ⟨1, maxCurrent_nonneg⟩ 0, rpmRef := 100,
    measuredRpm := 0, dt := 1 / 10 }

/-- A feedforward that saturates the output, an error that would take it out of
saturation, and a time that runs backwards. -/
def backwards : LoopCall :=
  { lib := settings 0 1 ⟨2, twoAmps_nonneg⟩ ⟨1, maxCurrent_nonneg⟩ 4, rpmRef := 10,
    measuredRpm := 20, dt := -1 / 10 }

/-- A limit lowered during a run that saturates leaves an integral above it; a
gain set to zero raises a negative integral to zero while the output is
saturated high; and so does a negative time step. -/
theorem integral_above_lowered_limit :
    (loopStep (loopStep {} (windUp 100)).1 lowered).1.integralAmp = 1 ∧
    lowered.integralLimitAmp = 3 / 10 ∧
    gainOff.SaturatedHigh (loopStep {} (windUp (-100))).1 ∧
    (loopStep {} (windUp (-100))).1.integralAmp = -1 ∧
    (loopStep (loopStep {} (windUp (-100))).1 gainOff).1.integralAmp = 0 ∧
    backwards.SaturatedHigh {} ∧ (loopStep {} backwards).1.integralAmp = 1 := by
  unfold LoopCall.SaturatedHigh
  decide +kernel

/-- The run that lowers the limit while the output saturates. -/
theorem integral_run_lowered :
    |(loopStep (loopStep {} (windUp 100)).1 lowered).2.iCmdAmp| ≤ lowered.maxCurrentAmp ∧
    ∃ u ∈ trace loopStep {} [windUp 100] ++ [stepOf loopStep (loopStep {} (windUp 100)).1 lowered],
      |(loopStep (loopStep {} (windUp 100)).1 lowered).1.integralAmp| ≤ u.event.integralLimitAmp := by
  have hsplit : trace loopStep {} [windUp 100, lowered] = trace loopStep {} [windUp 100] ++
      stepOf loopStep (loopStep {} (windUp 100)).1 lowered :: [] := rfl
  have hrun := integral_run [windUp 100, lowered] hsplit
  exact ⟨hrun.1, hrun.2.2.2.1⟩

end Questix.MotorControl.DdtCurrentPi
