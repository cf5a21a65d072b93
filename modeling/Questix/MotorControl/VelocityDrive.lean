/-
Questix.MotorControl.VelocityDrive — `DifferentialDrive::setVelocity`, the path
of a velocity to the wheels without the host's control core, and its agreement
with the path through the core.

The two paths decide between stopping and driving on their own, each with a
state of its own: the core by its mode, the drive by its stop mode. With the
core's shaping and correction off they are given the same references, and the
decisions stay the same (`Agree`), so the same commands reach the motors.
-/
import Questix.MotorControl.ControlCoreTheorems
import Questix.MotorControl.DifferentialDrive

namespace Questix.MotorControl

open Questix.Lib

/-! ## The drive's own path -/

/-- The drive, with the members only `setVelocity` uses. -/
structure VelocityDrive (M : Type) where
  drive : DifferentialDrive M
  wheelRadius : Dbl
  wheelSeparation : Dbl
  minCommandRpm : ℤ := 0

namespace VelocityDrive

variable {M : Type}

def setMinCommandRpm (d : VelocityDrive M) (minCommandRpm : ℤ) : VelocityDrive M :=
  { d with minCommandRpm := max 0 minCommandRpm }

def twistToMotorVelocities (d : VelocityDrive M) (linearX angularZ : Dbl) : Dbl × Dbl :=
  twistToWheelRpm linearX angularZ d.wheelRadius d.wheelSeparation

variable [LroundInvalid]

/-- `left_cmd` and `right_cmd` -/
def wheelCommands (d : VelocityDrive M) (linearX angularZ : Dbl) : ℤ × ℤ :=
  let rpm := d.twistToMotorVelocities linearX angularZ
  (lroundInt rpm.1, lroundInt rpm.2)

variable [MotorLibrary M]

def setVelocity (d : VelocityDrive M) (linearX angularZ : Dbl) : VelocityDrive M × Sent :=
  let cmd := d.wheelCommands linearX angularZ
  let stopMode := DriveStopGate.updateStopMode d.drive.stopMode (DriveModeFsm.maxAbs cmd)
    d.minCommandRpm
  let drive := { d.drive with stopMode := stopMode }
  let (drive, sent) :=
    if stopMode then drive.commandStop
    else drive.bothWheels (fun lib id => MotorLibrary.setMotorVelocity lib id cmd.1)
      (fun lib id => MotorLibrary.setMotorVelocity lib id cmd.2)
  ({ d with drive := drive }, sent)

end VelocityDrive

/-! ## The two paths -/

namespace DrivePath

/-- A velocity command, with the tick's length and the feedback the core also
gets. -/
structure Command where
  linearX : Dbl
  angularZ : Dbl
  dtSec : Dbl
  feedback : ControlCore.WheelFeedback := {}

/-- What a path decides: to stop or not, and the RPM of the wheels; and what the
motors made of it. -/
structure Decision where
  stop : Bool
  leftRpm : ℤ
  rightRpm : ℤ
  sent : Sent
  deriving DecidableEq

variable {M : Type}

section Steps

variable [MotorLibrary M] [LroundInvalid]

/-- The path through the control core: its output is sent as the control tick
sends it. -/
def coreStep [Libm] (s : ControlCore × DifferentialDrive M) (e : Command) :
    (ControlCore × DifferentialDrive M) × Decision :=
  let (core, out) := s.1.step e.linearX e.angularZ e.dtSec e.feedback
  let (drive, sent) :=
    if out.stop then s.2.commandStop else s.2.setWheelRpm out.leftRpm out.rightRpm
  ((core, drive), { stop := out.stop, leftRpm := out.leftRpm, rightRpm := out.rightRpm, sent := sent })

/-- The drive's own path. -/
def velocityStep (d : VelocityDrive M) (e : Command) : VelocityDrive M × Decision :=
  let cmd := d.wheelCommands e.linearX e.angularZ
  let (d, sent) := d.setVelocity e.linearX e.angularZ
  (d, { stop := d.drive.stopMode, leftRpm := cmd.1, rightRpm := cmd.2, sent := sent })

end Steps

/-! ## Agreement -/

/-- The core neither limits the rate of a target nor corrects a wheel. -/
structure Unshaped (c : ControlCore.Config) : Prop where
  linear : c.maxLinearAccel ≤ 0
  angular : c.maxAngularAccel ≤ 0
  lqr : c.lqrApplicable = false

/-- Both paths have the same geometry and motors, and they have decided the
same. -/
structure Agree (s : ControlCore × DifferentialDrive M) (d : VelocityDrive M) : Prop where
  unshaped : Unshaped s.1.config
  drive : d.drive = s.2
  wheelRadius : d.wheelRadius = s.1.config.wheelRadius
  wheelSeparation : d.wheelSeparation = s.1.config.wheelSeparation
  minCommandRpm : d.minCommandRpm = max 0 s.1.config.minCommandRpm
  stopMode : s.2.stopMode = decide (s.1.mode = .kStop)

theorem updateStopMode_max_zero (stopMode : Bool) (maxAbsRpm minCommandRpm : ℤ) :
    DriveStopGate.updateStopMode stopMode maxAbsRpm (max 0 minCommandRpm) =
      DriveStopGate.updateStopMode stopMode maxAbsRpm minCommandRpm := by
  have hmax : max 1 (max 0 minCommandRpm) = max 1 minCommandRpm := by omega
  unfold DriveStopGate.updateStopMode
  rw [hmax]

section Paths

variable [LroundInvalid]

theorem references_eq {s : ControlCore × DifferentialDrive M} {d : VelocityDrive M}
    (h : Agree s d) (linearX angularZ dtSec : Dbl) :
    (s.1.shape linearX angularZ dtSec).references = d.wheelCommands linearX angularZ := by
  unfold ControlCore.references ControlCore.shape VelocityDrive.wheelCommands
    VelocityDrive.twistToMotorVelocities clampRateTapered
  rw [h.wheelRadius, h.wheelSeparation]
  simp only [if_pos h.unshaped.linear, if_pos h.unshaped.angular]

theorem stop_agrees {s : ControlCore × DifferentialDrive M} {d : VelocityDrive M}
    (h : Agree s d) (e : Command) :
    DriveStopGate.updateStopMode d.drive.stopMode
        (DriveModeFsm.maxAbs (d.wheelCommands e.linearX e.angularZ)) d.minCommandRpm =
      decide ((s.1.decided e.linearX e.angularZ e.dtSec).mode = .kStop) := by
  obtain ⟨-, -, -, -, -, hmode⟩ :=
    @ControlCore.decided_frame s.1 e.linearX e.angularZ e.dtSec _
  rw [references_eq h] at hmode
  rw [h.drive, h.stopMode, h.minCommandRpm, updateStopMode_max_zero, hmode, Bool.eq_iff_iff,
    decide_eq_true_eq]
  have hgate := @DriveModeFsm.isStop_update s.1.config.fsmConfig s.1.mode
    (DriveModeFsm.maxAbs (d.wheelCommands e.linearX e.angularZ))
  exact hgate.symm

variable [MotorLibrary M]

theorem setVelocity_eq (d : VelocityDrive M) {linearX angularZ : Dbl} {stop : Bool}
    (hstop : DriveStopGate.updateStopMode d.drive.stopMode
      (DriveModeFsm.maxAbs (d.wheelCommands linearX angularZ)) d.minCommandRpm = stop) :
    d.setVelocity linearX angularZ =
      let cmd := d.wheelCommands linearX angularZ
      let r := if stop then d.drive.commandStop else d.drive.setWheelRpm cmd.1 cmd.2
      ({ d with drive := r.1 }, r.2) := by
  unfold VelocityDrive.setVelocity
  dsimp only
  rw [hstop]
  cases stop <;> rfl

theorem coreStep_eq [Libm] {s : ControlCore × DifferentialDrive M} {d : VelocityDrive M}
    (h : Agree s d) (e : Command) :
    coreStep s e =
      let decided := s.1.decided e.linearX e.angularZ e.dtSec
      let cmd := d.wheelCommands e.linearX e.angularZ
      let r := if decided.mode = .kStop then s.2.commandStop else s.2.setWheelRpm cmd.1 cmd.2
      ((decided, r.1),
        { stop := decide (decided.mode = .kStop), leftRpm := cmd.1, rightRpm := cmd.2,
          sent := r.2 }) := by
  have hstep := @ControlCore.step_inapplicable s.1 e.linearX e.angularZ e.dtSec e.feedback _ _
    h.unshaped.lqr
  simp only [coreStep, hstep, ControlCore.uncorrected, references_eq h, decide_eq_true_eq]

theorem agree_step [Libm] {s : ControlCore × DifferentialDrive M} {d : VelocityDrive M}
    (h : Agree s d) (e : Command) :
    Agree (coreStep s e).1 (velocityStep d e).1 ∧ (coreStep s e).2 = (velocityStep d e).2 := by
  have hconfig := (@ControlCore.decided_frame s.1 e.linearX e.angularZ e.dtSec _).1
  have hvelocity := setVelocity_eq d (stop_agrees h e)
  simp only [decide_eq_true_eq, h.drive] at hvelocity
  rw [coreStep_eq h, velocityStep, hvelocity]
  have hunshaped : Unshaped (s.1.decided e.linearX e.angularZ e.dtSec).config := by
    rw [hconfig]
    exact h.unshaped
  have hagree : ∀ drive : DifferentialDrive M,
      drive.stopMode = decide ((s.1.decided e.linearX e.angularZ e.dtSec).mode = .kStop) →
        Agree (s.1.decided e.linearX e.angularZ e.dtSec, drive) { d with drive := drive } := by
    intro drive hstop
    constructor
    · exact hunshaped
    · rfl
    · rw [hconfig, h.wheelRadius]
    · rw [hconfig, h.wheelSeparation]
    · rw [hconfig, h.minCommandRpm]
    · exact hstop
  dsimp only
  by_cases hmode : (s.1.decided e.linearX e.angularZ e.dtSec).mode = .kStop
  · simp only [if_pos hmode]
    have hstop : s.2.commandStop.1.stopMode = true := rfl
    rw [hstop, decide_eq_true hmode]
    exact ⟨hagree _ (hstop.trans (decide_eq_true hmode).symm), rfl⟩
  · simp only [if_neg hmode]
    have hdrives : (s.2.setWheelRpm (d.wheelCommands e.linearX e.angularZ).1
        (d.wheelCommands e.linearX e.angularZ).2).1.stopMode = false := rfl
    rw [hdrives, decide_eq_false hmode]
    exact ⟨hagree _ (hdrives.trans (decide_eq_false hmode).symm), rfl⟩

/-- Over every sequence of commands, whatever the motors make of them, the path
through a core that neither shapes nor corrects and the drive's own path decide
the same and send the same. -/
theorem drive_paths_agree [Libm] (config : ControlCore.Config) (lib : M) (leftId rightId : Int)
    (commands : List Command) (hlinear : config.maxLinearAccel ≤ 0)
    (hangular : config.maxAngularAccel ≤ 0) (hlqr : config.lqrApplicable = false) :
    let drive : DifferentialDrive M :=
      { motorLib := lib, leftMotorId := leftId, rightMotorId := rightId }
    let velocityDrive : VelocityDrive M :=
      { drive := drive, wheelRadius := config.wheelRadius,
        wheelSeparation := config.wheelSeparation }
    (trace coreStep (ControlCore.new config, drive) commands).map Step.out =
      (trace velocityStep (velocityDrive.setMinCommandRpm config.minCommandRpm) commands).map
        Step.out := by
  intro drive velocityDrive
  have hstart : Agree (ControlCore.new config, drive)
      (velocityDrive.setMinCommandRpm config.minCommandRpm) :=
    ⟨⟨hlinear, hangular, hlqr⟩, rfl, rfl, rfl, rfl, rfl⟩
  have hrun := trace_lockstep (f := coreStep) (g := velocityStep) (m := id) (v := id) (w := id)
    Agree (fun s d e h (_ : True) => agree_step h e) commands _ _ hstart (fun _ _ => trivial)
  rw [List.map_id] at hrun
  exact hrun

end Paths

/-- Motors that take every command and keep what they were told; `none` is a
stop. -/
structure LoggedMotors where
  log : List (Int × Option Int) := []
  deriving DecidableEq

instance : MotorLibrary LoggedMotors where
  setMotorVelocity lib id rpm := ({ log := lib.log ++ [(id, some rpm)] }, true)
  stopMotor lib id := ({ log := lib.log ++ [(id, none)] }, true)
  stopMotorNow lib id := ({ log := lib.log ++ [(id, none)] }, true)
  refreshMotorFeedback lib _ _ := (lib, true)
  getMotorStatus _ _ := some { velocityRpm := 0, temperature := 0, faultCode := 0 }
  getMotorFeedbackData _ _ := none
  currentGuardTrip _ _ := .kNone

/-- Around a stop band of 10 RPM both paths drive from 12 RPM on and stop below
10 RPM. -/
theorem drive_paths_agree_band :
    let config : ControlCore.Config :=
      { wheelRadius := .fin (1 / 20), wheelSeparation := .fin (1 / 2), minCommandRpm := 10 }
    let commands : List Command :=
      [⟨.fin (11 / 200), 0, .fin (1 / 50), {}⟩, ⟨.fin (7 / 100), 0, .fin (1 / 50), {}⟩,
        ⟨.fin (11 / 200), 0, .fin (1 / 50), {}⟩, ⟨.fin (1 / 50), 0, .fin (1 / 50), {}⟩]
    let drive : DifferentialDrive LoggedMotors :=
      { motorLib := {}, leftMotorId := 1, rightMotorId := 2 }
    let velocityDrive : VelocityDrive LoggedMotors :=
      { drive := drive, wheelRadius := config.wheelRadius,
        wheelSeparation := config.wheelSeparation }
    (trace (@coreStep LoggedMotors _ ⟨fun _ => 0⟩ ControlCore.tickLibm) (ControlCore.new config, drive)
        commands).map Step.out =
      (trace (@velocityStep LoggedMotors _ ⟨fun _ => 0⟩)
        (velocityDrive.setMinCommandRpm config.minCommandRpm) commands).map Step.out := by
  intro config commands drive velocityDrive
  exact @drive_paths_agree LoggedMotors ⟨fun _ => 0⟩ _ ControlCore.tickLibm config {} 1 2 commands
    (by decide) (by decide) rfl

end DrivePath

end Questix.MotorControl
