/-
Questix.MotorControl.DdtBus — an abstract model of what `DdtMotorLib` does on
the motor bus.

Of the library's state it keeps what decides which frames may leave: the mode
of each motor, which motors have a guard trip, and the frame the library
holds as evidence of what it last sent (`Known`). A call is a number of
moves: a zero command may be tried at any time; a command that may drive only
where the mode, the trip and the last response allow it, and where it could
not be sent the call ends; setting up a motor lasts from the mode frame to
the moment the motor is given up or initialised.

`DdtRefinement` shows that every call of the library is such moves, so what
is proved here of moves holds of the library.
-/
import Questix.Lib.Walk
import Questix.MotorControl.DdtMotorLib

namespace Questix.MotorControl

open Questix.Lib

/-! ## States -/

namespace DdtBus

/-- What decides which frames may leave. -/
@[ext] structure Known where
  mode : Int → Option ControlMode
  tripped : Int → Bool
  evidence : Int → Option (List UInt8)

def Known.setMode (k : Known) (motorId : Int) (mode : Option ControlMode) : Known :=
  { k with mode := Function.update k.mode motorId mode }

def Known.setTripped (k : Known) (motorId : Int) (tripped : Bool) : Known :=
  { k with tripped := Function.update k.tripped motorId tripped }

/-- A frame was sent and is kept as evidence. -/
def Known.sent (k : Known) (motorId : Int) (frame : List UInt8) : Known :=
  { k with evidence := Function.update k.evidence motorId (some frame) }

/-- Between moves of a call: nothing is under way, a motor is being set up, or
a command that drives could not be sent. -/
inductive Phase where
  | ready
  | settingUp (motorId : Int) (mode : ControlMode)
  | failed
  deriving DecidableEq

structure Bus where
  known : Known
  phase : Phase

/-- What a library state comes to. -/
def known (s : DdtMotorLib) : Known where
  mode := fun motorId => s.motorModes[motorId]?
  tripped := fun motorId => (s.currentGuardTrips[motorId]?).isSome
  evidence := fun motorId => s.lastSentFrames[motorId]?

/-! ## Commands -/

/-- A motor in current mode may be driven: no guard trip is latched, and the
last response is usable and reports the current mode. -/
structure Permits (s : DdtMotorLib) (motorId : Int) : Prop where
  mode : s.motorModes[motorId]? = some .current
  no_trip : s.currentGuardTrips[motorId]? = none
  feedback : ∃ fb, s.motorFeedbacks[motorId]? = some fb ∧ fb.hasFeedback = true ∧
    fb.consecutiveTimeouts < kCurrentMaxConsecutiveTimeouts ∧ fb.mode = 0x01

/-- The commands that may drive a motor. -/
inductive Drives (s : DdtMotorLib) (motorId : Int) : List UInt8 → Prop
  | velocity (rpm : ℤ) (brake : Bool) (mode : s.motorModes[motorId]? = some .velocity) :
      Drives s motorId (s.velocityFrame motorId rpm brake)
  | current (raw : Int16) (permits : Permits s motorId)
      (bound : |raw.toInt| ≤ (DdtCurrentPi.ampToRaw s.maxCurrentAmp.val).toInt) :
      Drives s motorId (DdtProtocol.packCurrentFrame (DdtMotorLib.wireId motorId) raw)

/-- The writes of one frame: any number that were not taken whole, then at
most one that was. It returns true exactly when the frame left. -/
inductive Tries (P : DdtMotorLib → Prop) (motorId : Int) (frame : List UInt8) :
    Bool → List BusEffect → Prop
  | gaveUp : Tries P motorId frame false []
  | again {lib : DdtMotorLib} {ok : Bool} {out : List BusEffect} :
      P lib → Tries P motorId frame ok out →
        Tries P motorId frame ok (.wrote (some motorId) frame .incomplete lib :: out)
  | cut {lib : DdtMotorLib} :
      P lib → Tries P motorId frame false [.wrote (some motorId) frame .undrained lib]
  | sent {lib : DdtMotorLib} :
      P lib → Tries P motorId frame true [.wrote (some motorId) frame .drained lib]

theorem Drives.isCommandFrame {s : DdtMotorLib} {motorId : Int} {frame : List UInt8}
    (h : Drives s motorId frame) : DdtProtocol.isCommandFrame frame = true := by
  cases h with
  | velocity => rfl
  | current => rfl

/-! ## Moves -/

inductive Move : Bus → List BusEffect → Bus → Prop
  | quiet (b : Bus) : Move b [] b
  /-- A frame that sets a mode. -/
  | setting (b : Bus) (frame : List UInt8) (handover : Handover) (lib : DdtMotorLib)
      (noCommand : DdtProtocol.isCommandFrame frame = false) :
      Move b [.wrote none frame handover lib] b
  /-- A command to stand still. -/
  | zero {k : Known} {phase : Phase} {motorId : Int} {frame : List UInt8} {ok : Bool}
      {out : List BusEffect} (inCall : phase ≠ .failed)
      (isZero : DdtProtocol.isZeroCommandFrame frame = true)
      (tries : Tries (fun lib => known lib = k) motorId frame ok out) :
      Move ⟨k, phase⟩ out ⟨if ok then k.sent motorId frame else k, phase⟩
  /-- A command that may drive. -/
  | drive {k : Known} {motorId : Int} {frame : List UInt8} {ok : Bool} {out : List BusEffect}
      (isCommand : DdtProtocol.isCommandFrame frame = true)
      (tries : Tries (fun lib => known lib = k ∧ Drives lib motorId frame) motorId frame ok out) :
      Move ⟨k, .ready⟩ out (if ok then ⟨k.sent motorId frame, .ready⟩ else ⟨k, .failed⟩)
  | trip {k : Known} {motorId : Int} (trip : GuardTrip) (mode : k.mode motorId = some .current) :
      Move ⟨k, .ready⟩ [.tripped motorId trip] ⟨k.setTripped motorId true, .ready⟩
  | clear (k : Known) :
      Move ⟨k, .ready⟩ [.tripsCleared] ⟨{ k with tripped := fun _ => false }, .ready⟩
  /-- The mode frame of a motor left. -/
  | begin (k : Known) (motorId : Int) (mode : ControlMode) :
      Move ⟨k, .ready⟩ []
        ⟨(k.setMode motorId (some mode)).setTripped motorId false, .settingUp motorId mode⟩
  /-- The motor did not confirm the mode. -/
  | abandon (k : Known) (motorId : Int) (mode : ControlMode) :
      Move ⟨k, .settingUp motorId mode⟩ [] ⟨k.setMode motorId none, .ready⟩
  | initialized (k : Known) (motorId : Int) (mode : ControlMode) :
      Move ⟨k, .settingUp motorId mode⟩ [.initialized motorId mode] ⟨k, .ready⟩
  | close (k : Known) :
      Move ⟨k, .ready⟩ [] ⟨⟨fun _ => none, fun _ => false, fun _ => none⟩, .ready⟩

theorem mode_of_settingUp {b₀ b : Bus} {out : List BusEffect} (h : Walk Move b₀ out b)
    (start : b₀.phase = .ready) {motorId : Int} {mode : ControlMode}
    (hphase : b.phase = .settingUp motorId mode) : b.known.mode motorId = some mode := by
  refine h.invariant (I := fun _ b => ∀ motorId mode, b.phase = .settingUp motorId mode →
    b.known.mode motorId = some mode) ?_ [] ?_ motorId mode hphase
  · intro past b out b' hb hmove motorId mode hphase
    cases hmove with
    | quiet => exact hb motorId mode hphase
    | setting => exact hb motorId mode hphase
    | @zero k phase id frame ok =>
      cases ok <;> exact hb motorId mode hphase
    | @drive k id frame ok =>
      cases ok <;> cases hphase
    | trip => cases hphase
    | clear => cases hphase
    | begin k id newMode =>
      cases hphase
      simp [Known.setMode, Known.setTripped]
    | abandon => cases hphase
    | initialized => cases hphase
    | close => cases hphase
  · intro motorId mode hphase
    rw [start] at hphase
    cases hphase

/-! ## What updates of the library state come to -/

section Known

variable (s : DdtMotorLib) (motorId : Int)

theorem known_setLastSent (frame : List UInt8) :
    known (s.setLastSent motorId frame) = (known s).sent motorId frame := by
  ext1
  · rfl
  · rfl
  · funext id
    simp only [known, Known.sent, DdtMotorLib.setLastSent, Std.TreeMap.getElem?_insert,
      Function.update_apply, Std.compare_eq_iff_eq, eq_comm (a := motorId)]

theorem known_setGuardTrip (trip : GuardTrip) :
    known (s.setGuardTrip motorId trip) = (known s).setTripped motorId true := by
  ext1
  · rfl
  · funext id
    simp only [known, Known.setTripped, DdtMotorLib.setGuardTrip, Std.TreeMap.getElem?_insert,
      Function.update_apply, Std.compare_eq_iff_eq, eq_comm (a := motorId)]
    split <;> rfl
  · rfl

theorem known_forgetMode :
    known (s.forgetMode motorId) = (known s).setMode motorId none := by
  ext1
  · funext id
    simp only [known, Known.setMode, DdtMotorLib.forgetMode, Std.TreeMap.getElem?_erase,
      Function.update_apply, Std.compare_eq_iff_eq, eq_comm (a := motorId)]
  · rfl
  · rfl

theorem known_register (mode : ControlMode) :
    known (s.register motorId mode) =
      ((known s).setMode motorId (some mode)).setTripped motorId false := by
  ext1
  · funext id
    simp only [known, Known.setMode, Known.setTripped, DdtMotorLib.register,
      Std.TreeMap.getElem?_insert, Function.update_apply, Std.compare_eq_iff_eq,
      eq_comm (a := motorId)]
  · funext id
    simp only [known, Known.setMode, Known.setTripped, DdtMotorLib.register,
      Std.TreeMap.getElem?_erase, Function.update_apply, Std.compare_eq_iff_eq,
      eq_comm (a := motorId)]
    split <;> rfl
  · rfl

end Known

end DdtBus

/-! ## Commands among the effects -/

/-- The command frame an effect gives to a motor, and what became of it. A
frame without a motor id is for the motor its first byte names. -/
def BusEffect.commandTo (motorId : Int) : BusEffect → Option (List UInt8 × Handover)
  | .wrote (some id) frame handover _ =>
    if id = motorId ∧ DdtProtocol.isCommandFrame frame then some (frame, handover) else none
  | .wrote none frame handover _ =>
    if frame.head? = some (DdtMotorLib.wireId motorId) ∧ DdtProtocol.isCommandFrame frame then
      some (frame, handover)
    else none
  | _ => none

end Questix.MotorControl
