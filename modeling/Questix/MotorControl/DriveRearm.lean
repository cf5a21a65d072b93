/-
Questix.MotorControl.DriveRearm — the neutral a drive must see before it moves
again: `drive_rearm.hpp`, and the two small decisions around it,
`drive_watchdog.hpp` and `drive_control_tick.hpp`.

`Rearm.command` gives the pair of the latch after the command and the verdict
on it.
-/
import Questix.Lib.Dbl

namespace Questix.MotorControl

open Questix.Lib

/-! ## The neutral band -/

def neutral (linear angular linearBand angularBand : Dbl) : Bool :=
  linear.isfinite && angular.isfinite && decide (linear.abs ≤ linearBand) &&
    decide (angular.abs ≤ angularBand)

/-! ## The latch -/

/-- `Rearm::Decision` -/
inductive Decision where
  | kAccept
  | kNeutral
  | kNeedsNeutral
  | kInhibited
  | kInvalid
  | kTimeout
  deriving DecidableEq, Repr

/-- The command is taken: it may become the target. -/
def Decision.accepted : Decision → Bool
  | .kAccept => true
  | .kNeutral => true
  | _ => false

structure Rearm where
  needsNeutral : Bool := true
  heard : Bool := false
  acceptedAt : ℚ := 0
  deriving DecidableEq

namespace Rearm

def reset (r : Rearm) : Rearm := { r with needsNeutral := true, heard := false }

def expired (r : Rearm) (now : ℚ) (timeout : Dbl) : Bool :=
  r.heard && decide (0 < timeout) && decide (timeout < .fin (now - r.acceptedAt))

/-- A late command does not overwrite the old command's deadline: only an
accepted one refreshes it. The clock's reading is a number, so the source's
check that it is finite is gone. -/
def command (r : Rearm) (linear angular : Dbl) (now : ℚ) (timeout : Dbl) (inhibited : Bool)
    (linearBand angularBand : Dbl) : Rearm × Decision :=
  if inhibited then (r.reset, .kInhibited)
  else if r.expired now timeout then ({ r with needsNeutral := true }, .kTimeout)
  else if !linear.isfinite || !angular.isfinite then (r, .kInvalid)
  else if r.needsNeutral then
    if !neutral linear angular linearBand angularBand then (r, .kNeedsNeutral)
    else ({ needsNeutral := false, heard := true, acceptedAt := now }, .kNeutral)
  else ({ r with heard := true, acceptedAt := now }, .kAccept)

@[simp] theorem reset_needsNeutral (r : Rearm) : r.reset.needsNeutral = true := rfl
@[simp] theorem reset_heard (r : Rearm) : r.reset.heard = false := rfl

/-- What a command can do to the latch. -/
theorem command_cases (r : Rearm) (linear angular : Dbl) (now : ℚ) (timeout : Dbl)
    (inhibited : Bool) (linearBand angularBand : Dbl) :
    (inhibited = true ∧
      r.command linear angular now timeout inhibited linearBand angularBand =
        (r.reset, .kInhibited)) ∨
    (inhibited = false ∧ r.expired now timeout = true ∧
      r.command linear angular now timeout inhibited linearBand angularBand =
        ({ r with needsNeutral := true }, .kTimeout)) ∨
    (inhibited = false ∧ r.expired now timeout = false ∧
      ((r.command linear angular now timeout inhibited linearBand angularBand = (r, .kInvalid)) ∨
       (r.command linear angular now timeout inhibited linearBand angularBand =
          (r, .kNeedsNeutral)) ∨
       (r.needsNeutral = true ∧ neutral linear angular linearBand angularBand = true ∧
          r.command linear angular now timeout inhibited linearBand angularBand =
            ({ needsNeutral := false, heard := true, acceptedAt := now }, .kNeutral)) ∨
       (r.needsNeutral = false ∧
          r.command linear angular now timeout inhibited linearBand angularBand =
            ({ needsNeutral := false, heard := true, acceptedAt := now }, .kAccept)))) := by
  unfold command
  split
  · left
    exact ⟨‹_›, rfl⟩
  · rename_i hin
    simp only [Bool.not_eq_true] at hin
    right
    split
    · left
      exact ⟨hin, ‹_›, rfl⟩
    · rename_i hex
      simp only [Bool.not_eq_true] at hex
      right
      refine ⟨hin, hex, ?_⟩
      split
      · left; rfl
      · split
        · split
          · right; left; rfl
          · rename_i hneed hneu
            right; right; left
            exact ⟨hneed, by simpa using hneu, rfl⟩
        · rename_i hneed
          simp only [Bool.not_eq_true] at hneed
          right; right; right
          refine ⟨hneed, ?_⟩
          rw [← hneed]

end Rearm

/-! ## The watchdog -/

/-- `drive_watchdog::isEnabled` -/
def watchdogEnabled (timeoutSec : Dbl) : Bool := decide (0 < timeoutSec)

def shouldTimeoutStop (elapsedSec timeoutSec : Dbl) (hasCmd : Bool) : Bool :=
  watchdogEnabled timeoutSec && hasCmd && decide (timeoutSec < elapsedSec)

inductive EstopAction where
  | kStopNow
  | kClear
  | kNone
  deriving DecidableEq, Repr

def decideEstopAction (wasActive nowActive motorReady : Bool) : EstopAction :=
  if nowActive && !wasActive && motorReady then .kStopNow
  else if !nowActive && wasActive then .kClear
  else .kNone

/-! ## The control tick -/

inductive TickAction where
  | kIdle
  | kTimeoutStop
  | kFaultStop
  | kDrive
  deriving DecidableEq, Repr

def decideTickAction (hasTarget motorReady emergencyStop healthy : Bool)
    (elapsedSinceTargetSec cmdTimeoutSec : Dbl) : TickAction :=
  if !hasTarget || !motorReady || emergencyStop then .kIdle
  else if shouldTimeoutStop elapsedSinceTargetSec cmdTimeoutSec hasTarget then .kTimeoutStop
  else if !healthy then .kFaultStop
  else .kDrive

theorem decideTickAction_kDrive {hasTarget motorReady emergencyStop healthy : Bool}
    {elapsed timeout : Dbl}
    (h : decideTickAction hasTarget motorReady emergencyStop healthy elapsed timeout = .kDrive) :
    hasTarget = true ∧ motorReady = true ∧ emergencyStop = false ∧ healthy = true ∧
      shouldTimeoutStop elapsed timeout true = false := by
  unfold decideTickAction at h
  split at h
  · cases h
  · rename_i hidle
    simp only [Bool.or_eq_true, Bool.not_eq_true', not_or, Bool.not_eq_false,
      Bool.not_eq_true] at hidle
    obtain ⟨⟨htarget, hready⟩, hopen⟩ := hidle
    split at h
    · cases h
    · rename_i htime
      split at h
      · cases h
      · rename_i hhealthy
        simp only [htarget, Bool.not_eq_true] at htime
        exact ⟨htarget, hready, hopen, by simpa using hhealthy, htime⟩

theorem hasTarget_of_kIdle {hasTarget motorReady healthy : Bool} {elapsed timeout : Dbl}
    (hready : motorReady = true)
    (h : decideTickAction hasTarget motorReady false healthy elapsed timeout = .kIdle) :
    hasTarget = false := by
  unfold decideTickAction at h
  split at h
  · rename_i hidle
    simpa [hready] using hidle
  · split at h
    · cases h
    · split at h <;> cases h

/-- `kFallbackDtSec` -/
def kFallbackDtSec : ℚ := 2 / 100

/-- The period of the control tick. A rate that is not positive and finite
falls back to 50 Hz. -/
def tickDtSec : Dbl → ℚ
  | .fin rate => if rate ≤ 0 then kFallbackDtSec else 1 / rate
  | _ => kFallbackDtSec

end Questix.MotorControl
