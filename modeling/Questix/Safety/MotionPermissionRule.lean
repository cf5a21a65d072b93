/-
Questix.Safety.MotionPermissionRule — how the votes combine into the motion
permission: `motion_permission_rule.hpp`.

The loop over the required votes is a fold whose body, `judge`, appends to the
two lists of blockers. `decide_allows` is all that is needed of it: a flag is
allowed exactly when every required vote is known, fresh and allows it.

A name the map of votes lacks reads as the default vote, so the map is a
function.
-/
import Questix.Safety.Checks

namespace Questix.Safety

open Questix.Lib

/-- `PermissionMonitor::Flag`: the flag of a permission a node obeys. -/
inductive Flag where
  | kDrive
  | kLauncher
  deriving DecidableEq, Repr

structure Vote where
  known : Bool := false
  driveAllowed : Bool := false
  launcherAllowed : Bool := false
  ageSec : Dbl := 0

structure MotionPermissionDecision where
  driveAllowed : Bool := false
  launcherAllowed : Bool := false
  driveBlockers : List String := []
  launcherBlockers : List String := []
  deriving DecidableEq

def Vote.allows (v : Vote) : Flag → Bool
  | .kDrive => v.driveAllowed
  | .kLauncher => v.launcherAllowed

namespace MotionPermissionDecision

def allows (d : MotionPermissionDecision) : Flag → Bool
  | .kDrive => d.driveAllowed
  | .kLauncher => d.launcherAllowed

def blockers (d : MotionPermissionDecision) : Flag → List String
  | .kDrive => d.driveBlockers
  | .kLauncher => d.launcherBlockers

def blockDrive (d : MotionPermissionDecision) (blocker : String) : MotionPermissionDecision :=
  { d with driveBlockers := d.driveBlockers ++ [blocker] }

def blockLauncher (d : MotionPermissionDecision) (blocker : String) : MotionPermissionDecision :=
  { d with launcherBlockers := d.launcherBlockers ++ [blocker] }

/-- The body of the loop, for one required vote. -/
def judge (lease : Dbl) (d : MotionPermissionDecision) (name : String) (vote : Vote) :
    MotionPermissionDecision :=
  if !vote.known then (d.blockDrive (name ++ ":unknown")).blockLauncher (name ++ ":unknown")
  else if !decide (vote.ageSec ≤ lease) then
    (d.blockDrive (name ++ ":stale")).blockLauncher (name ++ ":stale")
  else
    let d := if !vote.driveAllowed then d.blockDrive (name ++ ":off") else d
    if !vote.launcherAllowed then d.blockLauncher (name ++ ":off") else d

end MotionPermissionDecision

def decideMotionPermission (required : List String) (votes : String → Vote) (leaseSec : Dbl) :
    MotionPermissionDecision :=
  let lease := permissionLease leaseSec
  let d := required.foldl
    (fun (d : MotionPermissionDecision) name => d.judge lease name (votes name)) {}
  { d with driveAllowed := d.driveBlockers.isEmpty, launcherAllowed := d.launcherBlockers.isEmpty }

/-! ## When a flag is allowed -/

/-- Known, fresh and allowing. -/
def Vote.Passes (lease : Dbl) (flag : Flag) (v : Vote) : Prop :=
  v.known = true ∧ v.ageSec ≤ lease ∧ v.allows flag = true

namespace MotionPermissionDecision

variable {lease : Dbl} {flag : Flag}

theorem judge_blockers (d : MotionPermissionDecision) (name : String) (v : Vote) :
    (d.judge lease name v).blockers flag = [] ↔ d.blockers flag = [] ∧ v.Passes lease flag := by
  unfold judge
  cases hknown : v.known with
  | false => cases flag <;> simp [blockers, blockDrive, blockLauncher, Vote.Passes, hknown]
  | true =>
    by_cases hfresh : v.ageSec ≤ lease
    · cases hdrive : v.driveAllowed <;> cases hlauncher : v.launcherAllowed <;> cases flag <;>
        simp [blockers, blockDrive, blockLauncher, Vote.Passes, Vote.allows, hknown, hfresh,
          hdrive, hlauncher]
    · cases flag <;>
        simp [blockers, blockDrive, blockLauncher, Vote.Passes, hknown, hfresh]

theorem foldl_blockers {votes : String → Vote} : ∀ (required : List String)
    (d : MotionPermissionDecision),
    (required.foldl (fun (d : MotionPermissionDecision) name =>
        d.judge lease name (votes name)) d).blockers flag = [] ↔
      d.blockers flag = [] ∧ ∀ name ∈ required, (votes name).Passes lease flag
  | [], d => by simp
  | name :: required, d => by
      rw [List.foldl_cons, foldl_blockers required, judge_blockers, List.forall_mem_cons, and_assoc]

end MotionPermissionDecision

theorem decide_allows (required : List String) (votes : String → Vote) (leaseSec : Dbl)
    (flag : Flag) : (decideMotionPermission required votes leaseSec).allows flag = true ↔
      ∀ name ∈ required, (votes name).Passes (permissionLease leaseSec) flag := by
  have hfold := @MotionPermissionDecision.foldl_blockers (permissionLease leaseSec) flag votes
    required {}
  have hempty : ({} : MotionPermissionDecision).blockers flag = [] := by cases flag <;> rfl
  rw [hempty] at hfold
  rw [← (hfold.trans (and_iff_right rfl))]
  cases flag
  · exact List.isEmpty_iff
  · exact List.isEmpty_iff

/-! ## Leases -/

theorem permissionLease_spec (timeoutSec : Dbl) :
    ∃ lease : ℚ, permissionLease timeoutSec = .fin lease ∧
      permissionLease (permissionLease timeoutSec) = .fin lease := by
  unfold permissionLease
  by_cases h : (timeoutSec.isfinite && decide (0 < timeoutSec)) = true
  · obtain ⟨q, hq⟩ := Dbl.isfinite_iff.1 (Bool.and_eq_true _ _ ▸ h).1
    rw [if_pos h, if_pos h]
    exact ⟨q, hq, hq⟩
  · rw [if_neg h]
    exact ⟨1 / 2, rfl, by decide +kernel⟩

end Questix.Safety
