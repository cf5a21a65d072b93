/-
Questix.MotorControl.DriveModeFsm — stop, creep or run: `drive_stop_gate.hpp`
and `drive_mode_fsm.hpp`, and what their thresholds mean over a sequence of
updates.

The machine leaves the decision between stopping and driving to the stop gate,
whatever the other thresholds are (`isStop_update`). What else an update can do
is said once, for a driving update (`update_of_drive`).
-/
import Mathlib.Order.Lattice
import Mathlib.Tactic.Linarith
import Questix.Lib.Trace

namespace Questix.MotorControl

open Questix.Lib

namespace DriveStopGate

def kExitMarginRpm : ℤ := 2

def updateStopMode (stopMode : Bool) (maxAbsRpm minCommandRpm : ℤ) : Bool :=
  let enterRpm := max 1 minCommandRpm
  if stopMode then maxAbsRpm < enterRpm + kExitMarginRpm
  else maxAbsRpm < enterRpm

end DriveStopGate

inductive DriveMode where
  | kStop
  | kCreep
  | kRun
  deriving DecidableEq, Repr

namespace DriveModeFsm

structure Config where
  minCommandRpm : ℤ := 0
  runEnterRpm : ℤ := 0
  runExitRpm : ℤ := 0

/-- RUN has a threshold, so CREEP may exist. -/
def runThresholdEnabled (config : Config) : Bool :=
  0 < config.runEnterRpm || 0 < config.runExitRpm

/-- The threshold to enter RUN: a disabled one is replaced by the other. -/
def Config.enter (config : Config) : ℤ :=
  if 0 < config.runEnterRpm then config.runEnterRpm else config.runExitRpm

/-- The threshold to leave RUN, at most the one to enter it. -/
def Config.exit (config : Config) : ℤ :=
  min (if 0 < config.runExitRpm then config.runExitRpm else config.enter) config.enter

def update (prev : DriveMode) (maxAbsRpm : ℤ) (config : Config) : DriveMode :=
  let wasStop := decide (prev = .kStop)
  if DriveStopGate.updateStopMode wasStop maxAbsRpm config.minCommandRpm then .kStop
  else if !runThresholdEnabled config then .kRun
  else if prev = .kRun then
    if config.exit ≤ maxAbsRpm then .kRun else .kCreep
  else if config.enter ≤ maxAbsRpm then .kRun
  else .kCreep

/-! ## One update -/

variable {config : Config} {mode : DriveMode} {rpm : ℤ}

theorem isStop_update : (update mode rpm config = .kStop) ↔
    DriveStopGate.updateStopMode (decide (mode = .kStop)) rpm config.minCommandRpm = true := by
  unfold update
  dsimp only
  split
  · simpa
  · rename_i hdrive
    refine ⟨?_, fun hstop => absurd hstop hdrive⟩
    intro h
    split at h
    · cases h
    · split at h
      · split at h <;> cases h
      · split at h <;> cases h

theorem update_of_drive (h : update mode rpm config ≠ .kStop) :
    update mode rpm config =
      if runThresholdEnabled config = true then
        if (if mode = .kRun then config.exit else config.enter) ≤ rpm then .kRun else .kCreep
      else .kRun := by
  have hgate := h
  rw [Ne, isStop_update] at hgate
  unfold update
  dsimp only
  rw [if_neg hgate]
  cases hrun : runThresholdEnabled config with
  | false => simp
  | true => by_cases hmode : mode = .kRun <;> simp [hmode]

theorem leaves_stop :
    update .kStop rpm config ≠ .kStop ↔ max 1 config.minCommandRpm + 2 ≤ rpm := by
  rw [Ne, isStop_update]
  show ¬ decide (rpm < max 1 config.minCommandRpm + 2) = true ↔ _
  rw [decide_eq_true_iff, not_lt]

theorem enters_stop (hmode : mode ≠ .kStop) :
    update mode rpm config = .kStop ↔ rpm < max 1 config.minCommandRpm := by
  rw [isStop_update]
  simp [DriveStopGate.updateStopMode, hmode]

theorem enters_run (henabled : runThresholdEnabled config = true) (hmode : mode ≠ .kRun) :
    update mode rpm config = .kRun ↔ update mode rpm config ≠ .kStop ∧ config.enter ≤ rpm := by
  by_cases hstop : update mode rpm config = .kStop
  · simp [hstop]
  · have hupdate := update_of_drive hstop
    rw [if_pos henabled, if_neg hmode] at hupdate
    rw [hupdate]
    by_cases hrpm : config.enter ≤ rpm <;> simp [hrpm]

theorem leaves_run (henabled : runThresholdEnabled config = true) :
    update .kRun rpm config ≠ .kRun ↔ rpm < config.exit ∨ rpm < max 1 config.minCommandRpm := by
  by_cases hstop : update .kRun rpm config = .kStop
  · have hrpm := (enters_stop (by decide)).1 hstop
    simp only [hstop, ne_eq, reduceCtorEq, not_false_eq_true, hrpm, or_true]
  · have hrpm : ¬ rpm < max 1 config.minCommandRpm := fun h => hstop ((enters_stop (by decide)).2 h)
    have hupdate := update_of_drive hstop
    rw [if_pos henabled, if_pos rfl] at hupdate
    rw [hupdate]
    by_cases hexit : config.exit ≤ rpm
    · simp [hexit, hrpm]
    · simp [hexit, hrpm, not_le.1 hexit]

/-! ## Sequences of updates -/

def maxAbs (refs : ℤ × ℤ) : ℤ := max |refs.1| |refs.2|

/-- The machine over wheel references. -/
def step (config : Config) (mode : DriveMode) (refs : ℤ × ℤ) : DriveMode × DriveMode :=
  let next := update mode (maxAbs refs) config
  (next, next)

/-- The stop gate over the same references. -/
def gateStep (minCommandRpm : ℤ) (stopMode : Bool) (refs : ℤ × ℤ) : Bool × Bool :=
  let next := DriveStopGate.updateStopMode stopMode (maxAbs refs) minCommandRpm
  (next, next)

theorem decisions_eq (config : Config) (refs : List (ℤ × ℤ)) (mode : DriveMode) :
    (trace (step config) mode refs).map (fun t => decide (t.out = .kStop)) =
      (trace (gateStep config.minCommandRpm) (decide (mode = .kStop)) refs).map Step.out := by
  have hstep : ∀ (mode : DriveMode) (stopMode : Bool) (r : ℤ × ℤ),
      stopMode = decide (mode = .kStop) → True →
        (gateStep config.minCommandRpm stopMode r).1 = decide ((step config mode r).1 = .kStop) ∧
        decide ((step config mode r).2 = .kStop) = (gateStep config.minCommandRpm stopMode r).2 := by
    rintro mode stopMode r rfl -
    have hnext : decide (update mode (maxAbs r) config = .kStop) =
        DriveStopGate.updateStopMode (decide (mode = .kStop)) (maxAbs r) config.minCommandRpm := by
      rw [Bool.eq_iff_iff, decide_eq_true_eq]
      exact isStop_update
    exact ⟨hnext.symm, hnext⟩
  have hrun := trace_lockstep (f := step config) (g := gateStep config.minCommandRpm) (m := id)
    (v := fun next => decide (next = .kStop)) (w := id)
    (fun mode stopMode => stopMode = decide (mode = .kStop)) hstep refs mode _ rfl
    (fun _ _ => trivial)
  rw [List.map_id] at hrun
  exact hrun

/-- An update of the machine, for the references it is given. -/
structure Hysteresis (config : Config) (t : Step DriveMode (ℤ × ℤ) DriveMode) : Prop where
  leavesStop : t.pre = .kStop →
    (t.post ≠ .kStop ↔ max 1 config.minCommandRpm + 2 ≤ maxAbs t.event)
  entersStop : t.pre ≠ .kStop →
    (t.post = .kStop ↔ maxAbs t.event < max 1 config.minCommandRpm)
  entersRun : runThresholdEnabled config = true → t.pre ≠ .kRun →
    (t.post = .kRun ↔ t.post ≠ .kStop ∧ config.enter ≤ maxAbs t.event)
  leavesRun : runThresholdEnabled config = true → t.pre = .kRun →
    (t.post ≠ .kRun ↔
      maxAbs t.event < config.exit ∨ maxAbs t.event < max 1 config.minCommandRpm)
  twoStates : runThresholdEnabled config = false → t.post ≠ .kCreep

theorem hysteresis_stepOf (config : Config) (mode : DriveMode) (refs : ℤ × ℤ) :
    Hysteresis config (stepOf (step config) mode refs) where
  leavesStop hmode := by
    have hmode : mode = .kStop := hmode
    subst hmode
    exact leaves_stop
  entersStop hmode := enters_stop hmode
  entersRun henabled hmode := enters_run henabled hmode
  leavesRun henabled hmode := by
    have hmode : mode = .kRun := hmode
    subst hmode
    exact leaves_run henabled
  twoStates hdisabled := by
    show update mode (maxAbs refs) config ≠ .kCreep
    by_cases hstop : update mode (maxAbs refs) config = .kStop
    · simp [hstop]
    · rw [update_of_drive hstop, if_neg (by simp [hdisabled])]
      decide

theorem keeps_stop (hlow : max 1 config.minCommandRpm ≤ rpm)
    (hhigh : rpm < max 1 config.minCommandRpm + 2) :
    update mode rpm config = .kStop ↔ mode = .kStop := by
  by_cases hmode : mode = .kStop
  · subst hmode
    have hstays : ¬ update .kStop rpm config ≠ .kStop := by
      rw [leaves_stop]
      omega
    simp only [not_not.1 hstays]
  · rw [enters_stop hmode]
    exact ⟨fun h => by omega, fun h => absurd h hmode⟩

theorem keeps_run (henabled : runThresholdEnabled config = true)
    (hlow : max config.exit (max 1 config.minCommandRpm) ≤ rpm) (hhigh : rpm < config.enter) :
    update .kCreep rpm config = .kCreep ∧ update .kRun rpm config = .kRun := by
  constructor
  · have hdrives : update .kCreep rpm config ≠ .kStop := by
      rw [Ne, enters_stop (by decide)]
      omega
    rw [update_of_drive hdrives, if_pos henabled, if_neg]
    show ¬ config.enter ≤ rpm
    omega
  · have hstays : ¬ update .kRun rpm config ≠ .kRun := by
      rw [leaves_run henabled]
      omega
    exact not_not.1 hstays

theorem event_mem {m : DriveMode} {refs : List (ℤ × ℤ)} {t : Step DriveMode (ℤ × ℤ) DriveMode}
    (ht : t ∈ trace (step config) m refs) : t.event ∈ refs :=
  map_event_trace (step config) refs m ▸ List.mem_map_of_mem ht

/-- Over a whole sequence from STOP: the decisions of the stop gate, the two
hystereses at every update, and no change of the mode within their bands. -/
theorem drive_mode_hysteresis (config : Config) (refs : List (ℤ × ℤ)) :
    (trace (step config) .kStop refs).map (fun t => decide (t.out = .kStop)) =
        (trace (gateStep config.minCommandRpm) true refs).map Step.out ∧
      (∀ t ∈ trace (step config) .kStop refs, Hysteresis config t) ∧
      (∀ a band, (∀ r ∈ band, max 1 config.minCommandRpm ≤ maxAbs r ∧
          maxAbs r < max 1 config.minCommandRpm + 2) →
        ∀ t ∈ trace (step config) (final (step config) .kStop a) band,
          (t.post = .kStop ↔ final (step config) .kStop a = .kStop)) ∧
      ∀ a band, runThresholdEnabled config = true →
        (∀ r ∈ band, max config.exit (max 1 config.minCommandRpm) ≤ maxAbs r ∧
          maxAbs r < config.enter) →
        ∀ t ∈ trace (step config) (final (step config) .kStop a) band,
          (t.pre = .kCreep → t.post = .kCreep) ∧ (t.pre = .kRun → t.post = .kRun) := by
  refine ⟨decisions_eq config refs .kStop, ?_, ?_, ?_⟩
  · intro t ht
    rw [eq_stepOf_of_mem_trace ht]
    exact hysteresis_stepOf config t.pre t.event
  · intro a band hband t ht
    have hstep : ∀ (mode : DriveMode) (r : ℤ × ℤ),
        (mode = .kStop ↔ final (step config) .kStop a = .kStop) → r ∈ band →
          ((step config mode r).1 = .kStop ↔ final (step config) .kStop a = .kStop) := by
      intro mode r hmode hr
      obtain ⟨hlow, hhigh⟩ := hband r hr
      exact (keeps_stop hlow hhigh).trans hmode
    exact (trace_invariant_ok _ hstep band _ Iff.rfl (fun u hu => event_mem hu) t ht).2
  · intro a band henabled hband t ht
    obtain ⟨hlow, hhigh⟩ := hband t.event (event_mem ht)
    obtain ⟨hcreep, hrun⟩ := keeps_run henabled hlow hhigh
    rw [eq_stepOf_of_mem_trace ht]
    refine ⟨?_, ?_⟩
    · intro hmode
      show update t.pre (maxAbs t.event) config = .kCreep
      rw [show t.pre = .kCreep from hmode]
      exact hcreep
    · intro hmode
      show update t.pre (maxAbs t.event) config = .kRun
      rw [show t.pre = .kRun from hmode]
      exact hrun

end DriveModeFsm

end Questix.MotorControl
