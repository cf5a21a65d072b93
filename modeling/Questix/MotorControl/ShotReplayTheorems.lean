/-
Questix.MotorControl.ShotReplayTheorems — the launcher never replays: what it
writes to the bus comes from a command heard while it was ready, and it has
been ready ever since.

A shot and the tilt steps are written by the callback of their own command.
A tilt target may wait for the rate limit, so a run is followed with the origin
of the waiting target (`Waiting`): the command it came with and the steps since.
`Follows` is what a callback that is no command leaves of a waiting target:
the target it found, in a launcher that is not readier than before.
-/
import Questix.MotorControl.ShotSteps

namespace Questix.MotorControl

open Questix.Lib Questix.Lib.Act Questix.Safety ShotAutoStart ShotAngle
open Questix.CommandArbiter (InputEvents)

namespace ShotComponent

variable {io : Surroundings} {past : List BusTransaction} {s now : ShotComponent}

/-! ## Readiness -/

/-- Ready to move: ACTIVE, connected, permitted, no emergency stop, and one
publisher of commands. -/
def ready (s : ShotComponent) : Bool := s.readyToMove && !s.multipleCommandPublishers

theorem permissionBlock_eq_kNone : s.permissionBlock = .kNone ↔
    s.permissionMonitor.settings.required = false ∨
      s.permissionMonitor.known = true ∧ s.permissionMonitor.allowed = true ∧
        Dbl.fin s.steadyNowSec - .fin s.permissionMonitor.lastRx ≤
          permissionLease s.permissionMonitor.settings.timeoutSec := by
  have hallowed : ∀ p, ActuationGate.permissionBlock p = .kNone ↔ p = .kAllowed := by
    intro p
    cases p <;> simp [ActuationGate.permissionBlock]
  unfold permissionBlock ActuationGate.evaluatePermission Safety.evaluatePermission
    PermissionMonitor.inputs
  rw [hallowed]
  cases s.permissionMonitor.settings.required <;> cases s.permissionMonitor.known <;>
    cases s.permissionMonitor.allowed <;> simp [ite_eq_iff]

theorem estopBlocks_eq_false : s.estopBlocks = false ↔ s.estopTimedOut = false ∧
    (s.estopMonitor.known = false ∧ s.estopMonitor.settings.required = false ∨
      s.estopMonitor.known = true ∧ s.estopMonitor.active = false ∧
        (s.estopMonitor.settings.required = true →
          isStale (.fin s.steadyNowSec - .fin s.estopMonitor.lastRx)
            s.estopMonitor.settings.timeoutSec = false)) := by
  unfold estopBlocks evaluateEstop EmergencyStopMonitor.inputs
  cases s.estopMonitor.settings.required <;> cases s.estopMonitor.known <;>
    cases s.estopMonitor.active <;> simp

theorem ready_of_elapse {m n : ℕ} (hle : m ≤ n) (h : (s.elapse n).ready = true) :
    (s.elapse m).ready = true := by
  have hnow : (s.elapse m).steadyNowSec ≤ (s.elapse n).steadyNowSec := by
    simp only [steadyNowSec, elapse]
    gcongr
  simp only [ready, readyToMove, Bool.and_eq_true, Bool.not_eq_true', decide_eq_true_eq,
    permissionBlock_eq_kNone, estopBlocks_eq_false] at h ⊢
  obtain ⟨⟨⟨hactive, hpermission⟩, htimedOut, hestop⟩, hone⟩ := h
  refine ⟨⟨⟨hactive, ?_⟩, htimedOut, ?_⟩, hone⟩
  · refine hpermission.imp_right ?_
    exact fun ⟨hknown, hallowed, hage⟩ => ⟨hknown, hallowed, Dbl.sub_le_of_le hnow hage⟩
  · refine hestop.imp_right ?_
    intro ⟨hknown, hreleased, hfresh⟩
    refine ⟨hknown, hreleased, fun hrequired => ?_⟩
    have hfresh := hfresh hrequired
    simp only [isStale, Bool.and_eq_false_iff, Bool.not_eq_false', decide_eq_true_eq] at hfresh ⊢
    exact hfresh.imp_right (Dbl.sub_le_of_le hnow)

theorem active_of_ready (h : s.ready = true) :
    s.state = .active ∧ s.multipleCommandPublishers = false := by
  simp only [ready, readyToMove, Bool.and_eq_true, Bool.not_eq_true', decide_eq_true_eq] at h
  exact ⟨h.1.1.1.1, h.2⟩

theorem ready_of_guard (h : ¬ (s.multipleCommandPublishers || !s.readyToMove) = true) :
    s.ready = true := by
  simp only [Bool.or_eq_true, not_or, Bool.not_eq_true, Bool.not_eq_false'] at h
  simp only [ready, Bool.and_eq_true, Bool.not_eq_true']
  exact ⟨h.2, h.1⟩

/-! ## A waiting target -/

/-- What a callback that started from `now` and is no command's leaves: only
the trigger moved home, and a target that still waits is the one it found. -/
structure Follows (now : ShotComponent) (past : List BusTransaction) (s : ShotComponent) :
    Prop where
  home : ∀ w ∈ past, w.move = .home
  waiting : s.pendingTilt = true → now.pendingTilt = true ∧ s.pendingTiltDeg = now.pendingTiltDeg
  active : s.pendingTilt = true → s.state = .active ∧ s.multipleCommandPublishers = false
  ready : s.pendingTilt = true → s.ready = true → now.ready = true

theorem Follows.of_dropped (hhome : ∀ w ∈ past, w.move = .home) (hdropped : s.pendingTilt = false) :
    Follows now past s where
  home := hhome
  waiting h := by simp [hdropped] at h
  active h := by simp [hdropped] at h
  ready h := by simp [hdropped] at h

theorem Follows.dropped (h : Follows now past s) (hstate : s.state ≠ .active) :
    s.pendingTilt = false := by
  by_contra hpending
  exact hstate (h.active (Bool.not_eq_false _ ▸ hpending)).1

theorem Follows.stays_dropped (h : Follows now past s) (hnow : now.pendingTilt = false) :
    s.pendingTilt = false := by
  by_contra hpending
  have := (h.waiting (Bool.not_eq_false _ ▸ hpending)).1
  rw [hnow] at this
  cases this

theorem Follows.snoc {w : BusTransaction} (h : Follows now past s) (hw : w.move = .home) :
    Follows now (past ++ [w]) s where
  home w' hw' := by
    rcases List.mem_append.1 hw' with hw' | hw'
    · exact h.home w' hw'
    · rw [List.mem_singleton.1 hw', hw]
  waiting := h.waiting
  active := h.active
  ready := h.ready

theorem follows_returnHome : Triple (Follows now) (returnHome io) fun _ => Follows now := by
  intro past s h
  rw [wp_returnHome]
  split
  · exact h.snoc rfl
  · exact h

theorem follows_cancelShotSequence :
    Triple (Follows now) (cancelShotSequence io) fun _ => Follows now := by
  intro past s h
  have h : Follows now past { s with fireTimer := false } := { h with }
  simp only [cancelShotSequence, wp_bind, wp_modify, wp_get, wp_ite, wp_pure]
  split
  · refine wp_mono (follows_returnHome past _ h) ?_
    exact fun _ _ _ h => { h with }
  · exact h

/-- Every transition that succeeds drops the target. -/
theorem follows_callback {t : Transition} (hstart : t.startsFrom s.state = true)
    (h : Follows now past s) :
    wp (callback io t) (fun ok past s => Follows now past s ∧ (ok = true → s.pendingTilt = false))
      past s := by
  cases t with
  | configure =>
    have hdropped : s.pendingTilt = false :=
      h.dropped (by simp [Transition.startsFrom_configure.1 hstart])
    simp only [callback, onConfigure, disconnectServo, wp_bind, wp_modify, wp_ite, wp_pure]
    split
    · exact ⟨.of_dropped h.home hdropped, nofun⟩
    · cases io.presentPosition with
      | none =>
        simp only [wp_bind, wp_modify, wp_pure]
        exact ⟨.of_dropped h.home hdropped, nofun⟩
      | some position =>
        simp only [wp_bind, wp_modify, wp_pure]
        exact ⟨.of_dropped h.home hdropped, fun _ => hdropped⟩
  | activate =>
    simp only [callback, onActivate, cancelAutoStart, endStartup, wp_bind, wp_get, wp_modify,
      wp_ite, wp_pure]
    split
    · exact ⟨h, nofun⟩
    · refine wp_mono (follows_returnHome past s h) ?_
      intro ok past s h
      split
      · exact ⟨h, nofun⟩
      · exact ⟨.of_dropped h.home rfl, fun _ => trivial⟩
  | deactivate =>
    have h : Follows { now with pendingTilt := false } past { s with pendingTilt := false } :=
      .of_dropped h.home rfl
    simp only [callback, onDeactivate, dropPendingTilt, cancelAutoStart, endStartup, wp_bind,
      wp_modify, wp_pure]
    refine wp_mono (follows_cancelShotSequence past _ h) ?_
    intro _ past s h
    exact ⟨.of_dropped h.home (h.stays_dropped rfl), fun _ => h.stays_dropped rfl⟩
  | cleanup =>
    simp only [callback, onCleanup, disconnectServo, wp_bind, wp_modify, wp_pure]
    exact ⟨.of_dropped h.home rfl, fun _ => trivial⟩
  | shutdown =>
    simp only [callback, onShutdown, stopAutoStartTimers, endStartup, disconnectServo, wp_bind,
      wp_modify, wp_pure]
    exact ⟨.of_dropped h.home rfl, fun _ => trivial⟩

theorem follows_request {t : Transition} :
    Triple (Follows now) (request io t) fun _ => Follows now := by
  intro past s h
  refine wp_request (fun _ => h) ?_ ?_
  · intro hstart _
    refine wp_mono (follows_callback hstart h) ?_
    intro ok past s ⟨h, hdropped⟩
    cases ok with
    | false => exact h
    | true => exact .of_dropped h.home (hdropped rfl)
  · intro bodyRan hstart _
    have hbody : wp (if bodyRan then callback io t else pure true) (fun _ => Follows now)
        past s := by
      cases bodyRan with
      | false => exact (wp_pure _).2 h
      | true => exact wp_mono (follows_callback hstart h) fun _ _ _ h => h.1
    refine wp_mono hbody ?_
    intro _ past s h
    simp only [onError, disconnectServo, wp_bind, wp_modify]
    exact .of_dropped h.home rfl

theorem blind_follows (io : Surroundings) (now : ShotComponent) : Blind io (Follows now) where
  fields _ _ _ _ _ _ h := { h with }
  request _ _ := follows_request

theorem follows_onEmergencyStop {active : Bool} {change : EstopChange}
    (h : Follows now past { s with estopTimedOut := false }) :
    wp (onEmergencyStop io active change) (fun _ => Follows now) past s := by
  have hblind := blind_follows io now
  simp only [onEmergencyStop, wp_bind, wp_get, wp_modify, wp_ite, wp_pure]
  split
  · exact h
  · split
    · refine wp_mono (hblind.endStartup past _ h) ?_
      intro _ past s' h
      split
      · exact hblind.transition past s' h
      · split
        · exact hblind.transition past s' h
        · exact h
    · split
      · exact h
      · exact hblind.requestStartup past _ h

theorem follows_emergencyStopTimeoutCallback :
    Triple (Follows now) (emergencyStopTimeoutCallback io) fun _ => Follows now := by
  intro past s h
  have hblind := blind_follows io now
  simp only [emergencyStopTimeoutCallback, wp_bind, wp_get, wp_modify, wp_ite, wp_pure]
  split
  · exact h
  · split
    · exact h
    · split
      · exact h
      · have h : Follows now past { s with estopTimedOut := true } :=
          { h with ready := fun _ hready => by simp [ready, readyToMove, estopBlocks] at hready }
        exact wp_mono (hblind.endStartup past _ h) fun _ => hblind.transition

theorem follows_applyPermission :
    Triple (Follows now) (applyPermission io) fun _ => Follows now := by
  intro past s h
  have hblind := blind_follows io now
  simp only [applyPermission, dropPendingTilt, wp_bind, wp_get, wp_modify, wp_ite, wp_pure]
  split
  · exact h
  · split
    · have h : Follows now past { s with
          permissionWasAllowed := decide (s.permissionBlock = .kNone), pendingTilt := false } :=
        .of_dropped h.home rfl
      exact wp_mono (follows_cancelShotSequence past _ h) fun _ => hblind.endStartup
    · have h : Follows now past { s with
          permissionWasAllowed := decide (s.permissionBlock = .kNone) } := { h with }
      split
      · exact hblind.requestStartup past _ h
      · exact h

theorem follows_fireTimerCallback :
    Triple (Follows now) (fireTimerCallback io) fun _ => Follows now := by
  intro past s h
  have hblind := blind_follows io now
  have h : Follows now past { s with fireTimer := false } := { h with }
  simp only [fireTimerCallback, wp_bind, wp_modify, wp_ite]
  refine wp_mono (follows_returnHome past _ h) ?_
  intro ok past s h
  split
  · refine wp_mono (hblind.triggerAutoRecovery past s h) ?_
    exact fun _ _ _ h => { h with }
  · exact { h with }

theorem follows_checkCommandPublishers {publishers : ℕ} :
    Triple (Follows now) (checkCommandPublishers publishers) fun _ => Follows now := by
  intro past s h
  simp only [checkCommandPublishers, wp_modify]
  split
  · exact h
  · rename_i hchange
    split
    · exact .of_dropped h.home rfl
    · rename_i hone
      -- the flag was set, and then nothing waited
      refine .of_dropped h.home ?_
      by_contra hpending
      have hflag := (h.active (Bool.not_eq_false _ ▸ hpending)).2
      rw [hflag] at hchange
      exact hchange (Bool.eq_false_iff.2 hone)

/-! ## Readiness that comes back -/

/-- No emergency-stop and no motion-permission message makes the launcher ready
again while a target from before still waits. -/
def Fresh (s : ShotComponent) (e : ShotEvent) : Prop :=
  let now := s.elapse e.elapsedNs
  now.pendingTilt = true → now.ready = false →
    match e.input with
    | .emergencyStop active => (now.withEmergencyStop active).ready = false
    | .motionPermission launcherAllowed => (now.withPermission launcherAllowed).ready = false
    | _ => True

instance (s : ShotComponent) (e : ShotEvent) : Decidable (Fresh s e) := by
  obtain ⟨elapsedNs, input, io⟩ := e
  cases input <;> exact inferInstanceAs (Decidable (_ = true → _ = false → _))

/-- A target waits only in an ACTIVE node with one publisher. -/
def WaitsActive (s : ShotComponent) : Prop :=
  s.pendingTilt = true → s.state = .active ∧ s.multipleCommandPublishers = false

variable {e : ShotEvent}

theorem follows_dispatch (hinput : ∀ command, e.input ≠ .command command) (hfresh : Fresh s e)
    (hactive : WaitsActive s) :
    wp (dispatch e.io e.input) (fun _ => Follows (s.elapse e.elapsedNs)) []
      (s.elapse e.elapsedNs) := by
  have h : Follows (s.elapse e.elapsedNs) [] (s.elapse e.elapsedNs) :=
    { home := nofun, waiting := fun h => ⟨h, rfl⟩, active := hactive, ready := fun _ h => h }
  have hblind := blind_follows e.io (s.elapse e.elapsedNs)
  unfold Fresh at hfresh
  cases hin : e.input with
  | command command => exact absurd hin (hinput command)
  | emergencyStop active =>
    simp only [hin] at hfresh
    have hheard : Follows (s.elapse e.elapsedNs) []
        ((s.elapse e.elapsedNs).withEmergencyStop active) :=
      { h with ready := fun hpending hready => by
                by_contra hnot
                have := hfresh hpending (Bool.eq_false_iff.2 hnot)
                rw [hready] at this
                cases this }
    simp only [dispatch, receiveEmergencyStop, wp_bind, wp_get, wp_ite, wp_pure, wp_modify]
    split
    · exact follows_onEmergencyStop hheard
    · exact h
  | motionPermission launcherAllowed =>
    simp only [hin] at hfresh
    have hheard : Follows (s.elapse e.elapsedNs) []
        ((s.elapse e.elapsedNs).withPermission launcherAllowed) :=
      { h with ready := fun hpending hready => by
                by_contra hnot
                have := hfresh hpending (Bool.eq_false_iff.2 hnot)
                rw [hready] at this
                cases this }
    simp only [dispatch, receiveMotionPermission, wp_bind, wp_get, wp_ite, wp_pure, wp_modify]
    split
    · exact follows_applyPermission [] _ hheard
    · exact h
  | commandPublisherTimer publishers => exact follows_checkCommandPublishers [] _ h
  | fireTimer =>
    simp only [dispatch, wp_bind, wp_get, wp_ite, wp_pure]
    split
    · exact follows_fireTimerCallback [] _ h
    · exact h
  | autoStartTimer =>
    simp only [dispatch, wp_bind, wp_get, wp_ite, wp_pure]
    split
    · exact hblind.autoStartTimerCallback [] _ h
    · exact h
  | startupTimer =>
    simp only [dispatch, wp_bind, wp_get, wp_ite, wp_pure]
    split
    · exact hblind.startupTimerCallback [] _ h
    · exact h
  | emergencyStopTimeoutTimer =>
    simp only [dispatch, wp_bind, wp_get, wp_ite, wp_pure]
    split
    · exact follows_emergencyStopTimeoutCallback [] _ h
    · exact h
  | permissionTimer =>
    simp only [dispatch, wp_bind, wp_get, wp_ite, wp_pure]
    split
    · exact follows_applyPermission [] _ h
    · exact h
  | operator t =>
    simp only [dispatch, wp_bind, wp_pure]
    exact follows_request [] _ h

/-! ## Commands -/

/-- The position for a tilt of `angleDeg`. -/
def tiltPosition (s : ShotComponent) (angleDeg : Dbl) : ℤ :=
  angleToServoPosition (clampAngle angleDeg s.parameters.tiltMinAngle s.parameters.tiltMaxAngle)

/-- What a message with `events` moves by itself: the shot and the steps. -/
def Moves (events : InputEvents.Events) (w : BusTransaction) : Prop :=
  match w.move with
  | .fire => events.fire = true
  | .tilt .up => 0 < events.tiltSteps.toInt
  | .tilt .down => events.tiltSteps.toInt < 0
  | .tilt .toTarget => False
  | .home => False

/-- In a command's callback that started from `now`: what is on the bus is
allowed (`W`), and the launcher and its waiting target are as they were. -/
structure Steady (W : BusTransaction → Prop) (now : ShotComponent) (past : List BusTransaction)
    (s : ShotComponent) : Prop where
  moves : ∀ w ∈ past, W w
  pending : s.pendingTilt = now.pendingTilt ∧ s.pendingTiltDeg = now.pendingTiltDeg
  ready : s.ready = now.ready
  parameters : s.parameters = now.parameters

variable {events : InputEvents.Events} {W : BusTransaction → Prop}

theorem Steady.snoc {w : BusTransaction} (h : Steady W now past s) (hw : W w) :
    Steady W now (past ++ [w]) s where
  moves w' hw' := by
    rcases List.mem_append.1 hw' with hw' | hw'
    · exact h.moves w' hw'
    · rw [List.mem_singleton.1 hw']
      exact hw
  pending := h.pending
  ready := h.ready
  parameters := h.parameters

theorem steady_triggerAutoRecovery :
    Triple (Steady W now) triggerAutoRecovery fun _ => Steady W now := by
  intro past s h
  rw [triggerAutoRecovery, wp_modify]
  split
  · exact { h with }
  · exact h

theorem steady_setPosition {move : Move} {servoId position : ℤ}
    (hW : ∀ w : BusTransaction, w.move = move → w.position = position → W w) :
    Triple (Steady W now) (setPosition io move servoId position) fun _ => Steady W now := by
  intro past s h
  rw [wp_setPosition]
  split
  · exact h.snoc (hW _ rfl rfl)
  · exact h

theorem steady_fireIfAllowed {fire : Bool}
    (hW : fire = true → ∀ w : BusTransaction, w.move = .fire → W w) :
    Triple (Steady W now) (fireIfAllowed io fire) fun _ => Steady W now := by
  intro past s h
  simp only [fireIfAllowed, executeShotSequence, wp_bind, wp_get, wp_ite, wp_pure, wp_modify]
  split
  · exact h
  · rename_i hquiet
    have hfire : fire = true := by
      simp only [Bool.or_eq_true, not_or, Bool.not_eq_true, Bool.not_eq_false'] at hquiet
      exact hquiet.1
    split
    · exact h
    · split
      · exact h
      · refine wp_mono (steady_setPosition (fun w hw _ => hW hfire w hw) past s h) ?_
        intro ok past s h
        split
        · exact steady_triggerAutoRecovery past s h
        · exact { h with }

theorem steady_moveTiltTo {angleDeg : Dbl} {label : TiltLabel}
    (hW : ∀ w : BusTransaction, w.move = .tilt label → w.position = now.tiltPosition angleDeg →
      W w) :
    Triple (Steady W now) (moveTiltTo io angleDeg label) fun _ => Steady W now := by
  intro past s h
  simp only [moveTiltTo, wp_bind, wp_get, wp_ite, wp_pure, wp_modify]
  split
  · exact h
  · split
    · exact h
    · have hposition : s.tiltPosition angleDeg = now.tiltPosition angleDeg := by
        rw [tiltPosition, h.parameters, tiltPosition]
      refine wp_mono (steady_setPosition (fun w hw hpos => hW w hw (hpos.trans hposition)) past _
        { h with }) ?_
      intro ok past s h
      split
      · exact { h with }
      · exact steady_triggerAutoRecovery past s h

theorem steady_moveTiltBy (hW : ∀ w, Moves events w → W w) :
    Triple (Steady W now) (moveTiltBy io events.tiltSteps) fun _ => Steady W now := by
  intro past s h
  simp only [moveTiltBy, wp_bind, wp_get, wp_ite, wp_pure]
  split
  · exact h
  · rename_i hsteps
    refine steady_moveTiltTo ?_ past s h
    intro w hw _
    refine hW w ?_
    split at hw
    · simpa [Moves, hw] using ‹0 < events.tiltSteps.toInt›
    · have hne : events.tiltSteps.toInt ≠ 0 := fun h0 => hsteps (Int32.toInt_inj.1 h0)
      simp only [Moves, hw]
      omega

/-- Of the message's events, or the target that waited when its moves began. -/
def MovesOrTarget (events : InputEvents.Events) (now : ShotComponent) (w : BusTransaction) :
    Prop :=
  Moves events w ∨ w.move = .tilt .toTarget ∧ now.pendingTilt = true ∧
    w.position = now.tiltPosition now.pendingTiltDeg

/-- What a command's callback leaves of a target that waited when its moves
began: it is on the bus, or it still waits and nothing of it is on the bus. -/
structure Applied (events : InputEvents.Events) (now : ShotComponent) (past : List BusTransaction)
    (s : ShotComponent) : Prop where
  moves : ∀ w ∈ past, MovesOrTarget events now w
  waiting : s.pendingTilt = true → now.pendingTilt = true ∧
    s.pendingTiltDeg = now.pendingTiltDeg ∧ ∀ w ∈ past, w.move ≠ .tilt .toTarget
  ready : s.ready = now.ready

theorem Moves.not_target {w : BusTransaction} (h : Moves events w) : w.move ≠ .tilt .toTarget := by
  intro hw
  simp [Moves, hw] at h

theorem applied_applyPendingTilt (h : Steady (Moves events) now past s) :
    wp (applyPendingTilt io) (fun _ => Applied events now) past s := by
  simp only [applyPendingTilt, wp_bind, wp_get, wp_ite, wp_pure, wp_modify]
  split
  · exact
      { moves := fun w hw => .inl (h.moves w hw)
        waiting := fun hpending => ⟨h.pending.1 ▸ hpending, h.pending.2,
          fun w hw => (h.moves w hw).not_target⟩
        ready := h.ready }
  · rename_i hpending
    have hpending : now.pendingTilt = true := by
      rw [← h.pending.1]
      by_contra hnot
      simp [hnot] at hpending
    have hdropped : Steady (MovesOrTarget events now) { now with pendingTilt := false } past
        { s with pendingTilt := false } :=
      { h with
        moves := fun w hw => .inl (h.moves w hw)
        pending := ⟨rfl, h.pending.2⟩ }
    refine wp_mono (steady_moveTiltTo ?_ past _ hdropped) ?_
    · intro w hw hposition
      rw [h.pending.2] at hposition
      exact .inr ⟨hw, hpending, hposition⟩
    intro _ past s h
    exact
      { moves := h.moves
        waiting := fun hwaits => by
          rw [h.pending.1] at hwaits
          cases hwaits
        ready := h.ready }

theorem applied_moveOnEvents :
    wp (moveOnEvents io events) (fun _ => Applied events s) [] s := by
  have h : Steady (Moves events) s [] s :=
    { moves := nofun, pending := ⟨rfl, rfl⟩, ready := rfl, parameters := rfl }
  simp only [moveOnEvents, wp_bind]
  refine wp_mono (steady_fireIfAllowed ?_ [] s h) ?_
  · intro hfire w hw
    simpa [Moves, hw] using hfire
  · intro _ past s' h
    refine wp_mono (steady_moveTiltBy (fun _ => id) past s' h) ?_
    exact fun _ _ _ h => applied_applyPendingTilt h

/-- A command's callback in a ready launcher. -/
structure Commanded (events : InputEvents.Events) (now : ShotComponent)
    (past : List BusTransaction) (s : ShotComponent) : Prop where
  wasReady : now.ready = true
  moves : ∀ w ∈ past, Moves events w ∨ w.move = .tilt .toTarget ∧
    (events.tiltTarget = true ∧ w.position = now.tiltPosition events.tiltDeg ∨
      now.pendingTilt = true ∧ w.position = now.tiltPosition now.pendingTiltDeg)
  waiting : s.pendingTilt = true → (∀ w ∈ past, w.move ≠ .tilt .toTarget) ∧
    (events.tiltTarget = true ∧ s.pendingTiltDeg = events.tiltDeg ∨
      now.pendingTilt = true ∧ s.pendingTiltDeg = now.pendingTiltDeg)
  ready : s.ready = true

/-- The events of a message in the node it reaches. -/
def eventsOf (s : ShotComponent) (command : LauncherEvents.Command) : InputEvents.Events :=
  (s.launcherEvents.onCommand command s.steadyNowSec).2

theorem commanded_commandCallback {command : LauncherEvents.Command} :
    wp (commandCallback io command) (fun _ past s =>
      Follows now past s ∨ Commanded (now.eventsOf command) now past s) [] now := by
  have hdropped : ∀ {s : ShotComponent}, s.pendingTilt = false → Follows now [] s :=
    fun h => .of_dropped nofun h
  simp only [commandCallback, dropPendingTilt, wp_bind, wp_get, wp_ite, wp_modify]
  split
  · rename_i htarget
    split
    · exact .inl (hdropped rfl)
    · rename_i hready
      have hready : now.ready = true := ready_of_guard hready
      refine wp_mono applied_moveOnEvents ?_
      intro _ past s h
      refine .inr ⟨hready, ?_, ?_, h.ready.trans hready⟩
      · intro w hw
        exact (h.moves w hw).imp_right fun ⟨hmove, _, hposition⟩ =>
          ⟨hmove, .inl ⟨htarget, hposition⟩⟩
      · intro hpending
        obtain ⟨_, hdeg, hunwritten⟩ := h.waiting hpending
        exact ⟨hunwritten, .inl ⟨htarget, hdeg⟩⟩
  · split
    · exact .inl (hdropped rfl)
    · rename_i hready
      have hready : now.ready = true := ready_of_guard hready
      refine wp_mono applied_moveOnEvents ?_
      intro _ past s h
      refine .inr ⟨hready, ?_, ?_, h.ready.trans hready⟩
      · intro w hw
        exact (h.moves w hw).imp_right fun ⟨hmove, hpending, hposition⟩ =>
          ⟨hmove, .inr ⟨hpending, hposition⟩⟩
      · intro hpending
        obtain ⟨hpending, hdeg, hunwritten⟩ := h.waiting hpending
        exact ⟨hunwritten, .inr ⟨hpending, hdeg⟩⟩

/-! ## Runs -/

abbrev ShotStep := Step ShotComponent ShotEvent (List BusTransaction)

def reached (t : ShotStep) : ShotComponent := t.pre.elapse t.event.elapsedNs

/-- The step is a command with these events, heard by a ready launcher. -/
structure Heard (t : ShotStep) (events : InputEvents.Events) : Prop where
  command : ∃ command, t.event.input = .command command ∧ (reached t).eventsOf command = events
  ready : (reached t).ready = true

/-- Ready until the event of the step, at every instant. -/
def ReadyUntil (t : ShotStep) : Prop := ∀ ns ≤ t.event.elapsedNs, (t.pre.elapse ns).ready = true

def StaysReady (t : ShotStep) : Prop := ReadyUntil t ∧ t.post.ready = true

/-- The target of the events waits, since step `u` and over the steps `b`, in a
launcher that stays ready; nothing of it was written. -/
structure Waited (u : ShotStep) (b : List ShotStep) (events : InputEvents.Events) : Prop where
  heard : Heard u events
  target : events.tiltTarget = true
  ready : u.post.ready = true
  stays : ∀ r ∈ b, StaysReady r
  unwritten : ∀ r ∈ u :: b, ∀ w ∈ r.out, w.move ≠ .tilt .toTarget

/-- What a transaction of step `t`, after the steps `past`, is the effect of: a
shot and the tilt steps of the command of the step; a tilt target of that
command, or of one before in a launcher that was ready ever since. -/
def EffectOfEvent (past : List ShotStep) (t : ShotStep) (w : BusTransaction) : Prop :=
  match w.move with
  | .home => True
  | .tilt .toTarget => ∃ events, events.tiltTarget = true ∧
      w.position = (reached t).tiltPosition events.tiltDeg ∧
      (Heard t events ∨
        (∃ a u b, past = a ++ u :: b ∧ Waited u b events) ∧ ReadyUntil t)
  | _ => ∃ events, Heard t events ∧ Moves events w

/-- The origin of the target that waits after the steps `past`. -/
structure Waiting (past : List ShotStep) (s : ShotComponent) : Prop where
  active : WaitsActive s
  origin : s.pendingTilt = true → s.ready = true →
    ∃ a u b events, past = a ++ u :: b ∧ Waited u b events ∧ events.tiltDeg = s.pendingTiltDeg

variable {past : List ShotStep}

variable {t : ShotStep}

theorem Waiting.reached (h : Waiting past t.pre) (hpending : t.pre.pendingTilt = true)
    (hready : (reached t).ready = true) :
    (∃ a u b events, past = a ++ u :: b ∧ Waited u b events ∧
      events.tiltDeg = t.pre.pendingTiltDeg) ∧ ReadyUntil t := by
  have huntil : ReadyUntil t := fun _ hns => ready_of_elapse hns hready
  exact ⟨h.origin hpending (huntil 0 (Nat.zero_le _)), huntil⟩

theorem Waited.snoc {u : ShotStep} {b : List ShotStep} {events : InputEvents.Events}
    (h : Waited u b events) (hstays : StaysReady t)
    (hunwritten : ∀ w ∈ t.out, w.move ≠ .tilt .toTarget) : Waited u (b ++ [t]) events where
  heard := h.heard
  target := h.target
  ready := h.ready
  stays r hr := by
    rcases List.mem_append.1 hr with hr | hr
    · exact h.stays r hr
    · rw [List.mem_singleton.1 hr]
      exact hstays
  unwritten r hr := by
    rw [← List.cons_append] at hr
    rcases List.mem_append.1 hr with hr | hr
    · exact h.unwritten r hr
    · rw [List.mem_singleton.1 hr]
      exact hunwritten

/-- What one step does, told of its outputs and the state it leads to. -/
structure StepOk (past : List ShotStep) (t : ShotStep) : Prop where
  effect : ∀ w ∈ t.out, EffectOfEvent past t w
  waiting : Waiting (past ++ [t]) t.post

theorem stepOk_of_follows (h : Waiting past t.pre) (hfollows : Follows (reached t) t.out t.post) :
    StepOk past t where
  effect w hw := by simp [EffectOfEvent, hfollows.home w hw]
  waiting :=
    { active := hfollows.active
      origin := by
        intro hpending hready
        obtain ⟨hpending', hdeg⟩ := hfollows.waiting hpending
        obtain ⟨⟨a, u, b, events, rfl, hwaited, hevents⟩, huntil⟩ :=
          h.reached hpending' (hfollows.ready hpending hready)
        refine ⟨a, u, b ++ [t], events, by simp, ?_, hevents.trans hdeg.symm⟩
        refine hwaited.snoc ⟨huntil, hready⟩ ?_
        intro w hw
        rw [hfollows.home w hw]
        nofun }

theorem effect_of_commanded {events : InputEvents.Events} (hheard : Heard t events)
    (h : Waiting past t.pre) (hcommanded : Commanded events (reached t) t.out t.post)
    {w : BusTransaction} (hw : w ∈ t.out) : EffectOfEvent past t w := by
  rcases hcommanded.moves w hw with hmoves | ⟨hmove, htarget⟩
  · have hevent : ∃ events, Heard t events ∧ Moves events w := ⟨events, hheard, hmoves⟩
    unfold EffectOfEvent
    unfold Moves at hmoves
    cases hmove : w.move with
    | fire => exact hevent
    | home => trivial
    | tilt label =>
      cases label with
      | up => exact hevent
      | down => exact hevent
      | toTarget => simp [hmove] at hmoves
  · simp only [EffectOfEvent, hmove]
    rcases htarget with ⟨htarget, hposition⟩ | ⟨hpending, hposition⟩
    · exact ⟨events, htarget, hposition, .inl hheard⟩
    · obtain ⟨⟨a, u, b, events', hpast, hwaited, hevents⟩, huntil⟩ :=
        h.reached hpending hcommanded.wasReady
      refine ⟨events', hwaited.target, ?_, .inr ⟨⟨a, u, b, hpast, hwaited⟩, huntil⟩⟩
      rw [hevents]
      exact hposition

theorem stepOk_of_commanded {events : InputEvents.Events} (hheard : Heard t events)
    (h : Waiting past t.pre) (hcommanded : Commanded events (reached t) t.out t.post) :
    StepOk past t where
  effect w hw := effect_of_commanded hheard h hcommanded hw
  waiting :=
    { active := fun _ => active_of_ready hcommanded.ready
      origin := by
        intro hpending _
        obtain ⟨hunwritten, ⟨htarget, hdeg⟩ | ⟨hpending, hdeg⟩⟩ := hcommanded.waiting hpending
        · refine ⟨past, t, [], events, rfl, ?_, hdeg.symm⟩
          refine ⟨hheard, htarget, hcommanded.ready, by simp, ?_⟩
          intro r hr
          rw [List.mem_singleton.1 hr]
          exact hunwritten
        · obtain ⟨⟨a, u, b, events', rfl, hwaited, hevents⟩, huntil⟩ :=
            h.reached hpending hcommanded.wasReady
          exact ⟨a, u, b ++ [t], events', by simp,
            hwaited.snoc ⟨huntil, hcommanded.ready⟩ hunwritten, hevents.trans hdeg.symm⟩ }

theorem stepOk (h : Waiting past s) (hfresh : Fresh s e) : StepOk past (stepOf step s e) := by
  by_cases hcommand : ∃ command, e.input = .command command
  · obtain ⟨command, hcommand⟩ := hcommand
    have hnow : Follows (s.elapse e.elapsedNs) [] (s.elapse e.elapsedNs) :=
      { home := nofun, waiting := fun h => ⟨h, rfl⟩, active := h.active, ready := fun _ h => h }
    have hstep := step_of_dispatch (s := s) (e := e)
      (R := fun past s' => Follows (s.elapse e.elapsedNs) past s' ∨
        Commanded ((s.elapse e.elapsedNs).eventsOf command) (s.elapse e.elapsedNs) past s') ?_
    · rcases hstep with hfollows | hcommanded
      · exact stepOk_of_follows h hfollows
      · exact stepOk_of_commanded ⟨⟨command, hcommand, rfl⟩, hcommanded.wasReady⟩ h hcommanded
    · rw [hcommand]
      simp only [dispatch, wp_bind, wp_get, wp_ite, wp_pure]
      split
      · exact commanded_commandCallback
      · exact .inl hnow
  · push Not at hcommand
    exact stepOk_of_follows h
      (step_of_dispatch (R := Follows (s.elapse e.elapsedNs))
        (follows_dispatch hcommand hfresh h.active))

/-- In the run every fire and tilt position handed to the bus is the effect of
an event of a command. -/
def NeverReplays (s₀ : ShotComponent) (es : List ShotEvent) : Prop :=
  ∀ a t b, trace step s₀ es = a ++ t :: b → ∀ w ∈ t.out, EffectOfEvent a t w

/-- A run in which no safety message wakes a target from before never replays. -/
theorem never_replays (config : ShotConfig) (parameters : ShotParameters) (es : List ShotEvent)
    (hfresh : ∀ t ∈ trace step (create config parameters) es, Fresh t.pre t.event) :
    NeverReplays (create config parameters) es := by
  intro a t b hsplit
  have hstart : Waiting [] (create config parameters) := ⟨nofun, nofun⟩
  rw [hsplit] at hfresh
  obtain ⟨es₁, e, es₂, rfl, rfl, rfl, -⟩ := trace_split hsplit
  have hwaiting := trace_history (I := Waiting) (fun _ t => Fresh t.pre t.event) hstart
    (fun _ _ _ h hfresh => (stepOk h hfresh).waiting) es₁ ?_
  · have hstep : Fresh (final step (create config parameters) es₁) e :=
      hfresh (stepOf step _ e) (by simp)
    exact (stepOk hwaiting hstep).effect
  · intro a' t' b' hsplit'
    exact hfresh t' (by simp [hsplit'])

/-- Started by hand, the launcher hears a target within the rate limit of its
activation, so that the target waits. -/
def startThenTarget : List ShotEvent :=
  [{ input := .emergencyStop false }, { input := .motionPermission true },
    { input := .operator .configure }, { input := .operator .activate },
    { input := .command { tiltDeg := 10 } }]

/-- The next message writes it. -/
theorem never_replays_waiting :
    NeverReplays (create { autoStart := false } {}) (startThenTarget ++
      [{ input := .command { tiltDeg := 10 }, io := { rosNow := 100000000 } }]) :=
  never_replays _ _ _ (by decide +kernel)

/-- A press and a release between the two, and it is still written. -/
theorem target_replayed_after_release :
    ¬ NeverReplays (create { autoStart := false } {})
      (startThenTarget ++ [{ input := .emergencyStop true }] ++
        [{ input := .emergencyStop false },
          { input := .command { tiltDeg := 10 }, io := { rosNow := 100000000 } }]) := by
  intro h
  let s := final step (create { autoStart := false } {})
    (startThenTarget ++ [{ input := .emergencyStop true }])
  let release : ShotStep := stepOf step s { input := .emergencyStop false }
  let repeated : ShotStep := stepOf step release.post
    { input := .command { tiltDeg := 10 }, io := { rosNow := 100000000 } }
  have hwritten : ∃ w ∈ repeated.out, w.move = .tilt .toTarget := by decide +kernel
  obtain ⟨w, hw, hmove⟩ := hwritten
  have heffect := h (trace step (create { autoStart := false } {})
    (startThenTarget ++ [{ input := .emergencyStop true }]) ++ [release]) repeated []
    (by rw [trace_append]; simp [release, repeated, s, stepOf]) w hw
  simp only [EffectOfEvent, hmove] at heffect
  obtain ⟨events, htarget, -, hheard | ⟨⟨a, u, b, hpast, hwaited⟩, -⟩⟩ := heffect
  · -- the message repeats the target, which is no event
    obtain ⟨command, hcommand, hevents⟩ := hheard.command
    obtain rfl : { tiltDeg := 10 } = command := Input.command.inj hcommand
    have hnone : ((reached repeated).eventsOf { tiltDeg := 10 }).tiltTarget = false := by
      decide +kernel
    rw [hevents, htarget] at hnone
    cases hnone
  · -- before the release the launcher was not ready
    have hlast : release ∈ u :: b := by
      have hgetLast := congrArg List.getLast? hpast
      rw [List.getLast?_append, List.getLast?_append] at hgetLast
      exact List.mem_of_getLast? (by simpa using hgetLast.symm)
    rcases List.mem_cons.1 hlast with rfl | hb
    · obtain ⟨command, hcommand, -⟩ := hwaited.heard.command
      cases hcommand
    · have hready := (hwaited.stays release hb).1 0 (Nat.zero_le _)
      revert hready
      decide +kernel

end ShotComponent

end Questix.MotorControl
