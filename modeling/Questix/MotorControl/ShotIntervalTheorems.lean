/-
Questix.MotorControl.ShotIntervalTheorems — one disc at a time.

`Trigger` is the part of the node's state the trigger servo depends on.
`Shots` relates it to the log of the bus (the interval is kept, a home position
comes between two shots, the last shot is remembered); `Disc` adds what holds
between two callbacks: while ACTIVE and not shooting the trigger is at home,
and a shot that moves has its timer.

A transition's callback runs before the state changes, so what it must leave
behind is `Disc` in the state it leads to (`Trigger.inState`).
-/
import Questix.MotorControl.ShotSteps

namespace Questix.MotorControl

open Questix.Lib Questix.Lib.Act Questix.Safety ShotAutoStart
open Questix.CommandArbiter (InputEvents)

/-! ## The log of the bus -/

def BusTransaction.isFire (w : BusTransaction) : Bool := decide (w.move = .fire) && w.sent

def BusTransaction.isHome (w : BusTransaction) : Bool := decide (w.move = .home) && w.sent

/-- A fire position without a home position after it. -/
def away (log : List BusTransaction) : Bool :=
  log.foldl (latch BusTransaction.isFire BusTransaction.isHome) false

/-- No fire position comes while the trigger is away from home. -/
def HomeBetween (log : List BusTransaction) : Prop :=
  Allowed (latch BusTransaction.isFire BusTransaction.isHome)
    (fun away w => away = true → w.isFire = false) false log

/-- Between any two fire positions at least `interval` passes. -/
def Spaced (interval : Dbl) (log : List BusTransaction) : Prop :=
  (log.filter BusTransaction.isFire).Pairwise fun w w' => interval ≤ .fin (w'.atSec - w.atSec)

section Log

variable {log : List BusTransaction} {w : BusTransaction} {interval : Dbl}

@[simp] theorem away_snoc : away (log ++ [w]) =
    if w.isFire then true else if w.isHome then false else away log := by
  simp [away, latch]

@[simp] theorem homeBetween_snoc :
    HomeBetween (log ++ [w]) ↔ HomeBetween log ∧ (away log = true → w.isFire = false) := by
  simp [HomeBetween, allowed_append, away]

theorem spaced_snoc_of_not_fire (h : w.isFire = false) (hlog : Spaced interval log) :
    Spaced interval (log ++ [w]) := by
  simpa [Spaced, h] using hlog

theorem spaced_snoc (hlog : Spaced interval log)
    (h : ∀ w' ∈ log, w'.isFire = true → interval ≤ .fin (w.atSec - w'.atSec)) :
    Spaced interval (log ++ [w]) := by
  cases hw : w.isFire with
  | false => exact spaced_snoc_of_not_fire hw hlog
  | true =>
    simp only [Spaced, List.filter_append, List.filter_cons, hw, if_true, List.filter_nil,
      List.pairwise_append]
    refine ⟨hlog, List.pairwise_singleton _ _, ?_⟩
    intro w' hw' u hu
    rw [List.mem_singleton.1 hu]
    exact h w' (List.mem_filter.1 hw').1 (List.mem_filter.1 hw').2

end Log

/-! ## The trigger -/

structure Trigger where
  state : LifecycleState
  servoController : Option FeetechServoController
  isShooting : Bool
  fireTimer : Bool
  lastFireSec : Dbl
  minFireIntervalSec : Dbl

def ShotComponent.trigger (s : ShotComponent) : Trigger where
  state := s.state
  servoController := s.servoController
  isShooting := s.isShooting
  fireTimer := s.fireTimer
  lastFireSec := s.lastFireSec
  minFireIntervalSec := s.minFireIntervalSec

namespace Trigger

def inState (v : Trigger) (state : LifecycleState) : Trigger := { v with state := state }

/-- The shots of the log are spaced, and the last is not after `lastFireSec`. -/
structure Shots (interval : ℚ) (log : List BusTransaction) (minFireIntervalSec lastFireSec : Dbl) :
    Prop where
  nonneg : 0 ≤ interval
  minInterval : minFireIntervalSec = .fin interval
  spaced : Spaced (.fin interval) log
  home : HomeBetween log
  last : ∀ w ∈ log, w.isFire = true → ∃ t, lastFireSec = .fin t ∧ w.atSec ≤ t

/-- While ACTIVE and not shooting the trigger is at home. -/
structure Home (interval : ℚ) (log : List BusTransaction) (v : Trigger) : Prop
    extends Shots interval log v.minFireIntervalSec v.lastFireSec where
  atHome : v.state = .active → v.isShooting = false → away log = false
  connected : v.state = .active → v.servoController.any FeetechServoController.connected = true

/-- And a shot that moves has its timer. -/
structure Disc (interval : ℚ) (log : List BusTransaction) (v : Trigger) : Prop
    extends Home interval log v where
  shooting : v.isShooting = true → v.fireTimer = true ∧ v.state = .active

section Trigger

variable {interval : ℚ} {log : List BusTransaction} {v : Trigger} {w : BusTransaction}
  {minFireIntervalSec lastFireSec : Dbl}

theorem Shots.snoc (h : Shots interval log minFireIntervalSec lastFireSec)
    (hw : w.isFire = false) : Shots interval (log ++ [w]) minFireIntervalSec lastFireSec where
  nonneg := h.nonneg
  minInterval := h.minInterval
  spaced := spaced_snoc_of_not_fire hw h.spaced
  home := homeBetween_snoc.2 ⟨h.home, fun _ => hw⟩
  last w' hw' hfire := by
    rcases List.mem_append.1 hw' with hw' | hw'
    · exact h.last w' hw' hfire
    · rw [List.mem_singleton.1 hw', hw] at hfire
      cases hfire

theorem Home.snoc (h : Home interval log v) (hw : w.isFire = false) :
    Home interval (log ++ [w]) v where
  toShots := h.toShots.snoc hw
  atHome hactive hquiet := by simp [hw, h.atHome hactive hquiet]
  connected := h.connected

theorem Disc.snoc (h : Disc interval log v) (hw : w.isFire = false) :
    Disc interval (log ++ [w]) v where
  toHome := h.toHome.snoc hw
  shooting := h.shooting

theorem Shots.disc (h : Shots interval log v.minFireIntervalSec v.lastFireSec)
    (hstate : v.state ≠ .active) (hquiet : v.isShooting = false) : Disc interval log v where
  toShots := h
  atHome hactive _ := absurd hactive hstate
  connected hactive := absurd hactive hstate
  shooting hshooting := by simp [hquiet] at hshooting

theorem Disc.quiet (h : Disc interval log v) (hstate : v.state ≠ .active) :
    v.isShooting = false := by
  by_contra hshooting
  exact hstate (h.shooting (Bool.not_eq_false _ ▸ hshooting)).2

theorem le_of_nextFireInSec {now t : ℚ}
    (h : ¬ 0 < nextFireInSec now (.fin t) (.fin interval)) : interval ≤ now - t := by
  by_contra hlt
  refine h ?_
  have hpositive : (0 : Dbl) < .fin (interval - (now - t)) := by
    show Dbl.fin 0 < _
    rw [Dbl.fin_lt_fin]
    linarith
  simp [nextFireInSec, hpositive]

theorem Disc.fire (h : Disc interval log v) (hactive : v.state = .active)
    (hquiet : v.isShooting = false)
    (hover : ¬ 0 < nextFireInSec w.atSec v.lastFireSec v.minFireIntervalSec) :
    Disc interval (log ++ [w])
      { v with isShooting := true, lastFireSec := .fin w.atSec, fireTimer := true } where
  nonneg := h.nonneg
  minInterval := h.minInterval
  spaced := by
    refine spaced_snoc h.spaced ?_
    intro w' hw' hfire
    obtain ⟨t, ht, hle⟩ := h.last w' hw' hfire
    rw [ht, h.minInterval] at hover
    have := le_of_nextFireInSec hover
    rw [Dbl.fin_le_fin]
    linarith
  home := by
    refine homeBetween_snoc.2 ⟨h.home, ?_⟩
    intro haway
    rw [h.atHome hactive hquiet] at haway
    cases haway
  last w' hw' hfire := by
    refine ⟨w.atSec, rfl, ?_⟩
    rcases List.mem_append.1 hw' with hw' | hw'
    · obtain ⟨t, ht, hle⟩ := h.last w' hw' hfire
      rw [ht, h.minInterval] at hover
      have := le_of_nextFireInSec hover
      have := h.nonneg
      linarith
    · rw [List.mem_singleton.1 hw']
  atHome _ hquiet' := by cases hquiet'
  connected := h.connected
  shooting _ := ⟨rfl, hactive⟩

end Trigger

end Trigger

/-! ## What the member functions keep -/

namespace ShotComponent

open Trigger

variable {io : Surroundings} {interval : ℚ} {past : List BusTransaction} {s : ShotComponent}

def KeepsDisc (interval : ℚ) (past : List BusTransaction) (s : ShotComponent) : Prop :=
  Disc interval past s.trigger

theorem disc_triggerAutoRecovery :
    Triple (KeepsDisc interval) triggerAutoRecovery fun _ => KeepsDisc interval := by
  intro past s h
  rw [triggerAutoRecovery, wp_modify]
  split <;> exact h

theorem disc_setPosition {move : Move} {servoId position : ℤ} (hmove : move ≠ .fire) :
    Triple (KeepsDisc interval) (setPosition io move servoId position)
      fun _ => KeepsDisc interval := by
  intro past s h
  rw [wp_setPosition]
  split
  · exact h.snoc (by simp [BusTransaction.isFire, hmove])
  · exact h

theorem disc_moveTiltTo {angleDeg : Dbl} {label : TiltLabel} :
    Triple (KeepsDisc interval) (moveTiltTo io angleDeg label) fun _ => KeepsDisc interval := by
  intro past s h
  simp only [moveTiltTo, wp_bind, wp_get, wp_ite, wp_pure, wp_modify]
  split
  · exact h
  · split
    · exact h
    · have hmove : Move.tilt label ≠ .fire := nofun
      refine wp_mono (disc_setPosition hmove past _ h) ?_
      intro ok past s h
      split
      · exact h
      · exact disc_triggerAutoRecovery past s h

theorem disc_applyPendingTilt :
    Triple (KeepsDisc interval) (applyPendingTilt io) fun _ => KeepsDisc interval := by
  intro past s h
  simp only [applyPendingTilt, wp_bind, wp_get, wp_ite, wp_pure, wp_modify]
  split
  · exact h
  · exact disc_moveTiltTo past _ h

theorem disc_moveTiltBy {steps : Int32} :
    Triple (KeepsDisc interval) (moveTiltBy io steps) fun _ => KeepsDisc interval := by
  intro past s h
  simp only [moveTiltBy, wp_bind, wp_get, wp_ite, wp_pure]
  split
  · exact h
  · exact disc_moveTiltTo past s h

/-- No shot is moving and the interval since the last one is over. -/
def mayFire (s : ShotComponent) : Prop :=
  s.isShooting = false ∧ ¬ 0 < nextFireInSec s.steadyNowSec s.lastFireSec s.minFireIntervalSec

instance (s : ShotComponent) : Decidable s.mayFire := inferInstanceAs (Decidable (_ ∧ _))

theorem disc_fireIfAllowed {fire : Bool}
    (hio : fire = true → s.mayFire → io.transaction .fire ≠ .unanswered)
    (hactive : s.state = .active) (h : KeepsDisc interval past s) :
    wp (fireIfAllowed io fire) (fun _ => KeepsDisc interval) past s := by
  simp only [fireIfAllowed, executeShotSequence, wp_bind, wp_get, wp_ite, wp_pure,
    wp_setPosition, wp_modify]
  split
  · exact h
  · rename_i hquiet
    obtain ⟨hfire, hquiet⟩ : fire = true ∧ s.isShooting = false := by
      simpa only [Bool.or_eq_true, not_or, Bool.not_eq_true, Bool.not_eq_false'] using hquiet
    split
    · exact h
    · rename_i hover
      have hconnected : s.isConnected = true := h.connected hactive
      rw [if_neg (by simp [hquiet]), if_pos hconnected]
      cases hresult : io.transaction .fire with
      | unanswered => exact absurd hresult (hio hfire ⟨hquiet, hover⟩)
      | notSent =>
        refine disc_triggerAutoRecovery _ s ?_
        exact h.snoc (by simp [BusTransaction.isFire, BusTransaction.sent])
      | answered => exact h.fire (w := ⟨_, _, _, .answered, _⟩) hactive hquiet hover

theorem disc_moveOnEvents {events : InputEvents.Events}
    (hio : events.fire = true → s.mayFire → io.transaction .fire ≠ .unanswered) (hactive : s.state = .active)
    (h : KeepsDisc interval past s) :
    wp (moveOnEvents io events) (fun _ => KeepsDisc interval) past s := by
  simp only [moveOnEvents, wp_bind]
  refine wp_mono (disc_fireIfAllowed hio hactive h) ?_
  intro _ past s h
  exact wp_mono (disc_moveTiltBy past s h) fun _ => disc_applyPendingTilt

/-- A message makes the launcher fire: it is ready, one publisher commands it,
the message has a shot and the shot may come. -/
def fires (s : ShotComponent) (command : LauncherEvents.Command) : Prop :=
  (s.multipleCommandPublishers || !s.readyToMove) = false ∧
    (s.launcherEvents.onCommand command s.steadyNowSec).2.fire = true ∧ s.mayFire

instance (s : ShotComponent) (command : LauncherEvents.Command) : Decidable (s.fires command) :=
  inferInstanceAs (Decidable (_ ∧ _ ∧ _))

theorem disc_commandCallback {command : LauncherEvents.Command}
    (hio : s.fires command → io.transaction .fire ≠ .unanswered) (h : KeepsDisc interval past s) :
    wp (commandCallback io command) (fun _ => KeepsDisc interval) past s := by
  have hmoves : ∀ {s'}, KeepsDisc interval past s' → s'.mayFire = s.mayFire →
      s'.state = s.state → ¬ (s.multipleCommandPublishers || !s.readyToMove) = true →
      wp (moveOnEvents io (s.launcherEvents.onCommand command s.steadyNowSec).2)
        (fun _ => KeepsDisc interval) past s' := by
    intro s' h hsame hstate hready
    have hready := Bool.eq_false_iff.2 hready
    have hactive : s.state = .active := by
      simp only [readyToMove, Bool.or_eq_false_iff, Bool.not_eq_false', Bool.and_eq_true,
        decide_eq_true_eq] at hready
      exact hready.2.1.1.1
    refine disc_moveOnEvents (fun hfire hmay => ?_) (hstate.trans hactive) h
    exact hio ⟨hready, hfire, hsame ▸ hmay⟩
  simp only [commandCallback, dropPendingTilt, wp_bind, wp_get, wp_ite, wp_modify]
  split <;> split
  · exact h
  · exact hmoves h rfl rfl ‹_›
  · exact h
  · exact hmoves h rfl rfl ‹_›

/-! ### The end of a shot -/

theorem disc_endShot
    (hio : s.state = .active → s.isShooting = true → io.transaction .home ≠ .notSent)
    (h : Home interval past s.trigger) :
    wp (returnHome io) (fun _ past s => Disc interval past
      { s.trigger with isShooting := false }) past s := by
  rw [wp_returnHome]
  split
  · have hhome := h.snoc (w := ⟨.home, s.parameters.triggerServoId,
      ShotAngle.angleToServoPosition s.parameters.homeAngle, io.transaction .home,
      s.steadyNowSec⟩) (by simp [BusTransaction.isFire])
    refine { hhome with atHome := ?_, shooting := nofun }
    intro hactive _
    cases hshooting : s.isShooting with
    | false => exact hhome.atHome hactive hshooting
    | true =>
      simp [BusTransaction.isFire, BusTransaction.isHome, BusTransaction.sent,
        hio hactive hshooting]
  · rename_i hconnected
    exact { h with
      atHome := fun hactive _ => absurd (h.connected hactive) hconnected, shooting := nofun }

theorem disc_fireTimerCallback (hio : s.isShooting = true → io.transaction .home ≠ .notSent)
    (h : KeepsDisc interval past s) :
    wp (fireTimerCallback io) (fun _ => KeepsDisc interval) past s := by
  simp only [fireTimerCallback, wp_bind, wp_modify, wp_ite]
  have hhome : Home interval past s.trigger := h.toHome
  refine wp_mono (disc_endShot (fun _ => hio) { hhome with }) ?_
  intro ok past s h
  split
  · rw [triggerAutoRecovery, wp_modify]
    split <;> exact h
  · exact h

theorem disc_cancelShotSequence (hio : s.isShooting = true → io.transaction .home ≠ .notSent)
    (h : KeepsDisc interval past s) :
    wp (cancelShotSequence io) (fun _ => KeepsDisc interval) past s := by
  have hhome : Home interval past s.trigger := h.toHome
  simp only [cancelShotSequence, wp_bind, wp_modify, wp_get, wp_ite, wp_pure]
  split
  · exact wp_mono (disc_endShot (fun _ => hio) { hhome with }) fun _ _ _ h => h
  · rename_i hquiet
    exact { hhome with shooting := fun hshooting => absurd hshooting hquiet }

theorem shots_cancelShotSequence
    (h : Shots interval past s.minFireIntervalSec s.lastFireSec) :
    wp (cancelShotSequence io) (fun _ past s =>
      Shots interval past s.minFireIntervalSec s.lastFireSec ∧ s.isShooting = false) past s := by
  simp only [cancelShotSequence, wp_bind, wp_modify, wp_get, wp_ite, wp_pure, wp_returnHome]
  split
  · split
    · exact ⟨h.snoc (by simp [BusTransaction.isFire]), trivial⟩
    · exact ⟨h, trivial⟩
  · rename_i hquiet
    exact ⟨h, by simpa using hquiet⟩

/-! ### Transitions -/

/-- What a callback leaves behind, whether its transition succeeds, fails or
raises; a shutdown does not end a shot. -/
structure Leaves (interval : ℚ) (t : Transition) (ok : Bool) (past : List BusTransaction)
    (s : ShotComponent) : Prop where
  shots : Shots interval past s.minFireIntervalSec s.lastFireSec
  done : ok = true → (t = .shutdown → s.isShooting = false) →
    Disc interval past (s.trigger.inState t.goal)
  failed : ok = false → Disc interval past s.trigger

theorem leaves_callback {t : Transition} (hstart : t.startsFrom s.state = true)
    (h : KeepsDisc interval past s) :
    wp (callback io t) (fun ok past s' => Leaves interval t ok past s' ∧
      (t = .shutdown → s'.isShooting = s.isShooting)) past s := by
  have hshots : Shots interval past s.minFireIntervalSec s.lastFireSec := h.toShots
  cases t with
  | configure =>
    have hstate : s.state ≠ .active := by simp [Transition.startsFrom_configure.1 hstart]
    have hquiet : s.isShooting = false := h.quiet (v := s.trigger) hstate
    simp only [callback, onConfigure, disconnectServo, wp_bind, wp_modify, wp_ite, wp_pure]
    split
    · exact ⟨⟨hshots, by simp, fun _ => hshots.disc hstate hquiet⟩, by simp⟩
    · cases io.presentPosition with
      | none =>
        simp only [wp_bind, wp_modify, wp_pure]
        exact ⟨⟨hshots, by simp, fun _ => hshots.disc hstate hquiet⟩, by simp⟩
      | some position =>
        simp only [wp_bind, wp_modify, wp_pure]
        exact ⟨⟨hshots, fun _ _ => hshots.disc (fun h => by cases h) hquiet, by simp⟩, by simp⟩
  | activate =>
    simp only [callback, onActivate, cancelAutoStart, endStartup, wp_bind, wp_get, wp_modify,
      wp_ite, wp_pure, wp_returnHome]
    split
    · exact ⟨⟨hshots, by simp, fun _ => h⟩, by simp⟩
    · rename_i hconnected
      have hconnected : s.isConnected = true := by simpa using hconnected
      rw [if_pos hconnected]
      split
      · exact ⟨⟨hshots.snoc (by simp [BusTransaction.isFire]), by simp,
          fun _ => Disc.snoc h (by simp [BusTransaction.isFire])⟩, by simp⟩
      · rename_i hhome
        have hhome : io.transaction .home = .answered := by simpa using hhome
        have hshots' := hshots.snoc (w := ⟨.home, s.parameters.triggerServoId,
          ShotAngle.angleToServoPosition s.parameters.homeAngle, io.transaction .home,
          s.steadyNowSec⟩) (by simp [BusTransaction.isFire])
        refine ⟨⟨hshots', fun _ _ => ⟨⟨hshots', ?_, fun _ => hconnected⟩, fun h => by cases h⟩,
          by simp⟩, by simp⟩
        intro _ _
        simp [BusTransaction.isFire, BusTransaction.isHome, BusTransaction.sent, hhome]
  | deactivate =>
    simp only [callback, onDeactivate, dropPendingTilt, cancelAutoStart, endStartup, wp_bind,
      wp_modify, wp_pure]
    refine wp_mono (shots_cancelShotSequence hshots) ?_
    rintro _ past s ⟨hshots, hquiet⟩
    exact ⟨⟨hshots, fun _ _ => hshots.disc (fun h => by cases h) hquiet, by simp⟩, by simp⟩
  | cleanup =>
    have hstate : s.state ≠ .active := by simp [Transition.startsFrom_cleanup.1 hstart]
    have hquiet : s.isShooting = false := h.quiet (v := s.trigger) hstate
    simp only [callback, onCleanup, disconnectServo, wp_bind, wp_modify, wp_pure]
    exact ⟨⟨hshots, fun _ _ => hshots.disc (fun h => by cases h) hquiet, by simp⟩, by simp⟩
  | shutdown =>
    simp only [callback, onShutdown, stopAutoStartTimers, endStartup, disconnectServo, wp_bind,
      wp_modify, wp_pure]
    exact ⟨⟨hshots, fun _ hquiet => hshots.disc (fun h => by cases h) (hquiet rfl), by simp⟩, fun _ => trivial⟩

theorem disc_request {t : Transition} (h : KeepsDisc interval past s)
    (hshutdown : t = .shutdown → io.outcome t = .ran → s.isShooting = false) :
    wp (request io t) (fun _ => KeepsDisc interval) past s := by
  refine wp_request (fun _ => h) ?_ ?_
  · intro hstart hran
    refine wp_mono (leaves_callback hstart h) ?_
    intro ok past s' ⟨hleaves, hsame⟩
    cases ok with
    | false => exact hleaves.failed rfl
    | true =>
      exact hleaves.done rfl fun ht => (hsame ht).trans (hshutdown ht hran)
  · intro bodyRan hstart _
    have hbody : wp (if bodyRan then callback io t else pure true) (fun _ past s =>
        Shots interval past s.minFireIntervalSec s.lastFireSec) past s := by
      cases bodyRan with
      | false => exact (wp_pure _).2 h.toShots
      | true => exact wp_mono (leaves_callback hstart h) fun _ _ _ h => h.1.shots
    refine wp_mono hbody ?_
    intro _ past s hshots
    simp only [onError, disconnectServo, wp_bind, wp_modify]
    exact hshots.disc nofun rfl

/-! ### Teardown, auto start and the safety inputs -/

theorem blind_keepsDisc (io : Surroundings) : Blind io (KeepsDisc interval) where
  fields _ _ _ _ _ _ h := h
  request _ ht _ _ h := disc_request h fun hshutdown => absurd hshutdown ht

theorem disc_onEmergencyStop {active : Bool} {change : EstopChange} :
    Triple (KeepsDisc interval) (onEmergencyStop io active change)
      fun _ => KeepsDisc interval := by
  intro past s h
  simp only [onEmergencyStop, wp_bind, wp_get, wp_modify, wp_ite, wp_pure]
  have h : KeepsDisc interval past { s with estopTimedOut := false } := h
  split
  · exact h
  · split
    · refine wp_mono ((blind_keepsDisc io).endStartup past _ h) ?_
      intro _ past s' h
      split
      · exact (blind_keepsDisc io).transition past s' h
      · split
        · exact (blind_keepsDisc io).transition past s' h
        · exact h
    · split
      · exact h
      · exact (blind_keepsDisc io).requestStartup past _ h

theorem disc_emergencyStopTimeoutCallback :
    Triple (KeepsDisc interval) (emergencyStopTimeoutCallback io)
      fun _ => KeepsDisc interval := by
  intro past s h
  simp only [emergencyStopTimeoutCallback, wp_bind, wp_get, wp_modify, wp_ite, wp_pure]
  split
  · exact h
  · split
    · exact h
    · split
      · exact h
      · have h : KeepsDisc interval past { s with estopTimedOut := true } := h
        exact wp_mono ((blind_keepsDisc io).endStartup past _ h) fun _ => (blind_keepsDisc io).transition

/-- Permission was there at the last look and is gone. -/
def permissionLost (s : ShotComponent) : Prop :=
  s.permissionWasAllowed = true ∧ s.permissionBlock ≠ .kNone

instance (s : ShotComponent) : Decidable s.permissionLost :=
  inferInstanceAs (Decidable (_ ∧ _))

theorem disc_applyPermission
    (hio : s.permissionLost → s.isShooting = true → io.transaction .home ≠ .notSent)
    (h : KeepsDisc interval past s) :
    wp (applyPermission io) (fun _ => KeepsDisc interval) past s := by
  simp only [applyPermission, dropPendingTilt, wp_bind, wp_get, wp_modify, wp_ite, wp_pure]
  split
  · exact h
  · rename_i hedge
    split
    · rename_i hblocked
      have hlost : s.permissionLost := by
        simp only [Bool.not_eq_true', decide_eq_false_iff_not] at hblocked
        refine ⟨?_, hblocked⟩
        simpa [hblocked] using hedge
      have h : KeepsDisc interval past { s with
          permissionWasAllowed := decide (s.permissionBlock = .kNone), pendingTilt := false } := h
      refine wp_mono (disc_cancelShotSequence (hio hlost) h) ?_
      exact fun _ => (blind_keepsDisc io).endStartup
    · split
      · have h : KeepsDisc interval past { s with
            permissionWasAllowed := decide (s.permissionBlock = .kNone) } := h
        exact (blind_keepsDisc io).requestStartup past _ h
      · exact h

/-! ## Runs -/

/-- Where an event leaves the shots in order: the shot of a command does not
lose its reply, the return home that ends a shot gets onto the bus, and the
node is not shut down while a shot moves. -/
def Intact (s : ShotComponent) (e : ShotEvent) : Prop :=
  let now := s.elapse e.elapsedNs
  match e.input with
  | .command command => now.fires command → e.io.transaction .fire ≠ .unanswered
  | .fireTimer => now.isShooting = true → e.io.transaction .home ≠ .notSent
  | .motionPermission launcherAllowed =>
    (now.withPermission launcherAllowed).permissionLost → now.isShooting = true →
      e.io.transaction .home ≠ .notSent
  | .permissionTimer =>
    now.permissionLost → now.isShooting = true → e.io.transaction .home ≠ .notSent
  | .operator .shutdown => now.isShooting = true → e.io.outcome .shutdown ≠ .ran
  | _ => True

instance (s : ShotComponent) (e : ShotEvent) : Decidable (Intact s e) := by
  unfold Intact
  dsimp only
  split <;> infer_instance

variable {e : ShotEvent}

theorem disc_dispatch (hintact : Intact s e)
    (h : KeepsDisc interval past (s.elapse e.elapsedNs)) :
    wp (dispatch e.io e.input) (fun _ => KeepsDisc interval) past (s.elapse e.elapsedNs) := by
  unfold Intact at hintact
  cases hinput : e.input with
  | command command =>
    simp only [hinput] at hintact
    simp only [dispatch, wp_bind, wp_get, wp_ite, wp_pure]
    split
    · exact disc_commandCallback hintact h
    · exact h
  | emergencyStop active =>
    simp only [dispatch, receiveEmergencyStop, wp_bind, wp_get, wp_ite, wp_pure, wp_modify]
    split
    · exact disc_onEmergencyStop past _ h
    · exact h
  | motionPermission launcherAllowed =>
    simp only [hinput] at hintact
    simp only [dispatch, receiveMotionPermission, wp_bind, wp_get, wp_ite, wp_pure, wp_modify]
    split
    · exact disc_applyPermission hintact h
    · exact h
  | commandPublisherTimer publishers =>
    simp only [dispatch, checkCommandPublishers, wp_modify]
    split
    · exact h
    · split <;> exact h
  | fireTimer =>
    simp only [hinput] at hintact
    simp only [dispatch, wp_bind, wp_get, wp_ite, wp_pure]
    split
    · exact disc_fireTimerCallback hintact h
    · exact h
  | autoStartTimer =>
    simp only [dispatch, wp_bind, wp_get, wp_ite, wp_pure]
    split
    · exact (blind_keepsDisc e.io).autoStartTimerCallback past _ h
    · exact h
  | startupTimer =>
    simp only [dispatch, wp_bind, wp_get, wp_ite, wp_pure]
    split
    · exact (blind_keepsDisc e.io).startupTimerCallback past _ h
    · exact h
  | emergencyStopTimeoutTimer =>
    simp only [dispatch, wp_bind, wp_get, wp_ite, wp_pure]
    split
    · exact disc_emergencyStopTimeoutCallback past _ h
    · exact h
  | permissionTimer =>
    simp only [hinput] at hintact
    simp only [dispatch, wp_bind, wp_get, wp_ite, wp_pure]
    split
    · exact disc_applyPermission hintact h
    · exact h
  | operator t =>
    simp only [dispatch, wp_bind, wp_pure]
    refine disc_request h ?_
    rintro rfl hran
    simp only [hinput] at hintact
    by_contra hshooting
    exact hintact (Bool.not_eq_false _ ▸ hshooting) hran

theorem disc_run (hintact : Intact s e) (h : KeepsDisc interval past s) :
    wp (run e) (fun _ => KeepsDisc interval) past s := by
  have helapsed : KeepsDisc interval past (s.elapse e.elapsedNs) := h
  simp only [run, wp_bind, wp_modify]
  exact disc_dispatch hintact helapsed

theorem disc_create (config : ShotConfig) (parameters : ShotParameters) :
    ∃ interval, KeepsDisc interval [] (create config parameters) := by
  obtain ⟨q, hq, hfin⟩ : ∃ q : ℚ, 0 ≤ q ∧
      (create config parameters).minFireIntervalSec = .fin q := by
    unfold create
    dsimp only
    split
    · rename_i h
      simp only [Bool.and_eq_true, decide_eq_true_eq] at h
      cases hmin : config.minFireIntervalSec with
      | fin q =>
        rw [hmin] at h
        exact ⟨q, Dbl.fin_le_fin.1 h.2, rfl⟩
      | _ => simp [hmin, Dbl.isfinite] at h
    · exact ⟨0, le_rfl, rfl⟩
  refine ⟨q, ?_⟩
  exact
    { nonneg := hq
      minInterval := hfin
      spaced := List.Pairwise.nil
      home := trivial
      last := by simp [create]
      atHome := fun h => by cases h
      connected := fun h => by cases h
      shooting := fun h => by cases h }

theorem KeepsDisc.minFireIntervalSec (h : KeepsDisc interval past s) :
    s.minFireIntervalSec = .fin interval := h.minInterval

/-- In the run between two fire positions on the bus the interval passes and
a home position comes, and a shot that moves has its timer. -/
structure OneDiscAtATime (s₀ : ShotComponent) (es : List ShotEvent) : Prop where
  interval : Spaced s₀.minFireIntervalSec ((trace step s₀ es).flatMap Step.out)
  home : BlockedUntil (fun w => w.isFire = true) (fun w => w.isFire = true)
    (fun w => w.isHome = true) ((trace step s₀ es).flatMap Step.out)
  timer : ∀ t ∈ trace step s₀ es, t.post.isShooting = true → t.post.fireTimer = true

/-- In a run whose shots keep their replies and whose returns home get onto
the bus, the launcher shoots one disc at a time. -/
theorem one_disc_at_a_time (config : ShotConfig) (parameters : ShotParameters)
    (es : List ShotEvent)
    (hintact : ∀ t ∈ trace step (create config parameters) es, Intact t.pre t.event) :
    OneDiscAtATime (create config parameters) es := by
  obtain ⟨interval, hstart⟩ := disc_create config parameters
  obtain ⟨hlast, hpost⟩ := outputs_invariant (fun _ _ _ h hintact => disc_run hintact h) es []
    _ hstart hintact
  rw [List.nil_append] at hlast
  exact
    { interval := by
        rw [hstart.minFireIntervalSec]
        exact hlast.spaced
      home := blockedUntil_iff_allowed.2 hlast.home
      timer := by
        intro t ht hshooting
        obtain ⟨past, h⟩ := hpost t ht
        exact (h.shooting hshooting).1 }

/-- Released and permitted, the node starts and hears the first command. -/
def startThenCommand : List ShotEvent :=
  [{ input := .emergencyStop false }, { input := .motionPermission true },
    { input := .startupTimer }, { input := .startupTimer },
    { input := .command { fireSeq := 0 } }]

/-- Two shots, the trigger back at home between them. -/
theorem one_disc_at_a_time_twice :
    OneDiscAtATime (create { minFireIntervalSec := 1 } {})
      (startThenCommand ++ [{ input := .command { fireSeq := 1 } },
        { elapsedNs := 500000000, input := .fireTimer },
        { elapsedNs := 400000000, input := .command { fireSeq := 2 } },
        { elapsedNs := 100000000, input := .command { fireSeq := 3 } }]) :=
  one_disc_at_a_time _ _ _ (by decide +kernel)

/-- The first shot loses its reply: the next follows at once, the trigger
still away. -/
theorem two_discs_after_lost_reply :
    ¬ OneDiscAtATime (create { minFireIntervalSec := 1 } {})
      (startThenCommand ++
        [{ input := .command { fireSeq := 1 }, io := { transaction := fun _ => .unanswered } },
          { elapsedNs := 10000000, input := .command { fireSeq := 2 } }]) := by
  intro h
  have hhome := blockedUntil_iff_allowed.1 h.home
  revert hhome
  decide +kernel

end ShotComponent

end Questix.MotorControl
