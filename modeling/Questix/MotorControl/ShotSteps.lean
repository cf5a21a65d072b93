/-
Questix.MotorControl.ShotSteps — rules for the operations of the shot node
that every proof about it goes through: a bus transaction, a lifecycle
transition, and the teardown and auto start, which ask for transitions and
otherwise change flags and timers of their own (`Blind`).
-/
import Questix.MotorControl.ShotComponent

namespace Questix.MotorControl

open Questix.Lib Questix.Lib.Act ShotAutoStart ShotAngle

namespace ShotComponent

variable {io : Surroundings} {past : List BusTransaction} {s : ShotComponent}

theorem wp_setPosition {Q : Bool → List BusTransaction → ShotComponent → Prop} {move : Move}
    {servoId position : ℤ} : wp (setPosition io move servoId position) Q past s ↔
      if s.isConnected then
        Q (decide (io.transaction move = .answered))
          (past ++ [⟨move, servoId, position, io.transaction move, s.steadyNowSec⟩]) s
      else Q false past s := by
  simp only [setPosition, wp_bind, wp_get, wp_ite, wp_pure, wp_emit]
  cases s.isConnected <;> simp

theorem wp_returnHome {Q : Bool → List BusTransaction → ShotComponent → Prop} :
    wp (returnHome io) Q past s ↔
      if s.isConnected then
        Q (decide (io.transaction .home = .answered))
          (past ++ [⟨.home, s.parameters.triggerServoId,
            angleToServoPosition s.parameters.homeAngle, io.transaction .home,
            s.steadyNowSec⟩]) s
      else Q false past s := by
  simp only [returnHome, wp_bind, wp_get, wp_setPosition]

/-- A transition is not made, or its callback runs and decides, or it ends in
`on_error`. -/
theorem wp_request {Q : LifecycleState → List BusTransaction → ShotComponent → Prop}
    {t : Transition}
    (stays : t.startsFrom s.state = false ∨ io.outcome t = .refused → Q s.state past s)
    (ran : t.startsFrom s.state = true → io.outcome t = .ran →
      wp (callback io t) (fun ok past s =>
        if ok then Q t.goal past { s with state := t.goal } else Q s.state past s) past s)
    (raised : ∀ bodyRan, t.startsFrom s.state = true → io.outcome t = .raised bodyRan →
      wp (if bodyRan then callback io t else pure true) (fun _ =>
        wp onError fun _ past s => Q .unconfigured past { s with state := .unconfigured })
        past s) :
    wp (request io t) Q past s := by
  simp only [request, wp_bind, wp_get, wp_ite]
  cases hstart : t.startsFrom s.state with
  | false => simpa only [Bool.not_false, if_true, wp_pure] using stays (.inl hstart)
  | true =>
    simp only [Bool.not_true, Bool.false_eq_true, if_false]
    cases houtcome : io.outcome t with
    | refused => simpa only [wp_pure] using stays (.inr houtcome)
    | ran =>
      simp only [wp_bind, wp_ite, wp_modify, wp_get, wp_pure]
      refine wp_mono (ran hstart houtcome) ?_
      intro ok past s h
      cases ok with
      | false => simpa using h
      | true => simpa using h
    | raised bodyRan =>
      have h := raised bodyRan hstart houtcome
      cases bodyRan with
      | false =>
        simp only [Bool.false_eq_true, if_false, wp_pure] at h
        simpa only [Bool.false_eq_true, if_false, wp_bind, wp_modify, wp_get, wp_pure, wp_ite]
          using h
      | true =>
        simp only [if_true] at h
        simpa only [if_true, wp_bind, wp_modify, wp_get, wp_pure, wp_ite] using h

/-! ## Events -/

theorem step_of_dispatch {e : ShotEvent} {R : List BusTransaction → ShotComponent → Prop}
    (h : wp (dispatch e.io e.input) (fun _ => R) [] (s.elapse e.elapsedNs)) :
    R (step s e).2 (step s e).1 := by
  have hrun : wp (run e) (fun _ => R) [] s := by
    simp only [run, wp_bind, wp_modify]
    exact h
  exact hrun


/-- The node that has heard an emergency stop and not yet acted on it. -/
def withEmergencyStop (s : ShotComponent) (active : Bool) : ShotComponent :=
  { s with
    estopMonitor := (s.estopMonitor.receive active s.steadyNowSec).1, estopTimedOut := false }

/-- The node that has heard a permission and not yet looked at it. -/
def withPermission (s : ShotComponent) (launcherAllowed : Bool) : ShotComponent :=
  { s with permissionMonitor := (s.permissionMonitor.receive launcherAllowed s.steadyNowSec).1 }

/-! ## Teardown and auto start -/

/-- An assertion that does not look at the auto start's own fields and that
every transition but a shutdown keeps. -/
structure Blind (io : Surroundings) (I : List BusTransaction → ShotComponent → Prop) : Prop where
  fields : ∀ {past s} startupEpisode startupTimer autoStartTimer emergencyStopTimeoutTimer
    runtimeFault teardownPending, I past s → I past { s with
      startupEpisode := startupEpisode, startupTimer := startupTimer
      autoStartTimer := autoStartTimer, emergencyStopTimeoutTimer := emergencyStopTimeoutTimer
      runtimeFault := runtimeFault, teardownPending := teardownPending }
  request : ∀ t, t ≠ .shutdown → Triple I (request io t) fun _ => I

namespace Blind

variable {I : List BusTransaction → ShotComponent → Prop}

theorem requestStartup (h : Blind io I) : Triple I requestStartup fun _ => I := by
  intro past s hI
  rw [ShotComponent.requestStartup, wp_modify]
  split
  · exact hI
  · exact h.fields _ _ _ _ _ _ hI

theorem endStartup (h : Blind io I) : Triple I endStartup fun _ => I := by
  intro past s hI
  rw [ShotComponent.endStartup, wp_modify]
  exact h.fields _ _ _ _ _ _ hI

theorem cancelAutoStart (h : Blind io I) : Triple I cancelAutoStart fun _ => I := by
  intro past s hI
  rw [ShotComponent.cancelAutoStart, wp_modify]
  exact h.fields _ _ _ _ _ _ hI

theorem triggerAutoRecovery (h : Blind io I) : Triple I triggerAutoRecovery fun _ => I := by
  intro past s hI
  rw [ShotComponent.triggerAutoRecovery, wp_modify]
  split
  · exact h.fields _ _ _ _ _ _ hI
  · exact hI

theorem handleSafetyTeardownState (h : Blind io I) {state : LifecycleState} :
    Triple I (handleSafetyTeardownState state) fun _ => I := by
  intro past s hI
  simp only [ShotComponent.handleSafetyTeardownState, stopAutoStartTimers, wp_bind, wp_get,
    wp_ite, wp_pure]
  split
  · exact hI
  · cases decideSafetyTeardownAction state with
    | kStopTimers =>
      simp only [wp_bind, wp_modify]
      exact h.fields _ _ _ _ _ _ hI
    | kResetRetry =>
      rw [wp_modify]
      exact h.fields _ _ _ _ _ _ hI
    | kRetryDeactivate =>
      rw [wp_modify]
      exact h.fields _ _ _ _ _ _ hI
    | kRetryCleanup =>
      rw [wp_modify]
      exact h.fields _ _ _ _ _ _ hI

theorem transition (h : Blind io I) :
    Triple I (transitionToUnconfiguredForAutoRecovery io) fun _ => I := by
  have hcleanup : ∀ {past s} (state : LifecycleState), I past s →
      if state = .inactive then
        wp (ShotComponent.request io .cleanup) (fun state past s =>
          wp (ShotComponent.handleSafetyTeardownState state) (fun _ => I) past s) past s
      else wp (ShotComponent.handleSafetyTeardownState state) (fun _ => I) past s := by
    intro past s state hI
    split
    · exact wp_mono (h.request .cleanup nofun past s hI) fun _ => h.handleSafetyTeardownState
    · exact h.handleSafetyTeardownState past s hI
  intro past s hI
  simp only [transitionToUnconfiguredForAutoRecovery, wp_bind, wp_get, wp_ite, wp_pure]
  split
  · exact hI
  · split
    · exact wp_mono (h.request .deactivate nofun past s hI) fun state _ _ hI => hcleanup state hI
    · exact hcleanup s.state hI

theorem tryAutoStart (h : Blind io I) : Triple I (tryAutoStart io) fun _ => I := by
  intro past s hI
  simp only [ShotComponent.tryAutoStart, wp_bind, wp_get, wp_ite, wp_pure]
  split
  · exact hI
  · cases decideAutoStartAction s.state true (!s.hold) with
    | kWaitEstopRelease => exact (wp_pure _).2 hI
    | kStopTimer => exact h.cancelAutoStart past s hI
    | kConfigure =>
      simp only [wp_bind, wp_get]
      refine wp_mono (h.request .configure nofun past s hI) ?_
      intro state past s hI
      cases decideAutoStartAction state true (!s.hold) with
      | kActivate =>
        simp only [wp_ite, wp_pure]
        split
        · exact h.requestStartup past s hI
        · exact hI
      | kStopTimer => exact h.cancelAutoStart past s hI
      | kWaitEstopRelease => exact (wp_pure _).2 hI
      | kConfigure => exact (wp_pure _).2 hI
    | kActivate =>
      simp only [wp_bind, wp_get]
      refine wp_mono (h.request .activate nofun past s hI) ?_
      intro state past s hI
      cases decideAutoStartAction state true (!s.hold) with
      | kStopTimer => exact h.cancelAutoStart past s hI
      | kActivate => exact (wp_pure _).2 hI
      | kWaitEstopRelease => exact (wp_pure _).2 hI
      | kConfigure => exact (wp_pure _).2 hI

theorem autoStartTimerCallback (h : Blind io I) :
    Triple I (autoStartTimerCallback io) fun _ => I := by
  intro past s hI
  simp only [ShotComponent.autoStartTimerCallback, wp_bind, wp_get, wp_ite, wp_pure]
  split
  · exact h.transition past s hI
  · split
    · refine wp_mono (h.handleSafetyTeardownState past s hI) ?_
      intro _ past s' hI
      split
      · exact hI
      · exact h.tryAutoStart past s' hI
    · exact h.tryAutoStart past s hI

theorem startupTimerCallback (h : Blind io I) :
    Triple I (startupTimerCallback io) fun _ => I := by
  intro past s hI
  simp only [ShotComponent.startupTimerCallback, wp_bind, wp_get]
  cases decideStartupStep s.startupEpisode s.steadyNowSec with
  | kIdle => exact h.endStartup past s hI
  | kExpired => exact h.endStartup past s hI
  | kAttempt =>
    simp only [wp_ite, wp_bind, wp_modify, wp_get, wp_pure]
    split
    · exact h.endStartup past s hI
    · refine wp_mono (h.autoStartTimerCallback past _ (h.fields _ _ _ _ _ _ hI)) ?_
      intro _ past s hI
      split
      · exact h.endStartup past s hI
      · exact hI

end Blind

end ShotComponent

end Questix.MotorControl
