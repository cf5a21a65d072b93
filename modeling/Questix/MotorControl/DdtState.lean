/-
Questix.MotorControl.DdtState — the state of `DdtMotorLib` and the serial
device it is wired to: `ddt_motor_lib.hpp`.

The maps by motor id are `Std.TreeMap`, which iterates in the order of
`std::map`. Times are in seconds, and the parameters given as doubles are
finite, as `DriveComponent::checkCurrentParam` makes them. Settings whose
setter bounds them are of a type with that bound (`Amps`, `AccelTime`). The
limit of the velocity is a natural number: with a negative one `std::clamp`,
which every velocity goes through, is undefined.

Whatever the device and the clock answer is a list that is used up from the
front (`Port`). A list that has run out is a device that answers no more:
nothing is written, drained or received. Each statement over every `Port` is
one over every outcome of every write, drain and read.

Waiting is left out, and with it `command_wait_ms_` and `response_timeout_ms_`,
which only bound it; so is the log, of which three messages are kept as
effects.
-/
import Mathlib.Tactic.NormNum
import Std.Data.TreeMap
import Questix.Lib.Act
import Questix.MotorControl.DdtCurrentPi
import Questix.MotorControl.DdtProtocol

namespace Questix.MotorControl

open Questix.Lib

/-- `ControlMode` -/
inductive ControlMode where
  | velocity
  | current
  deriving DecidableEq, Repr

/-- `DdtMotorLib::MotorFeedback` -/
structure MotorFeedback where
  mode : UInt8 := 0
  current : Int16 := 0
  /-- Exchanges in a row without a valid response. -/
  consecutiveTimeouts : ℕ := 0
  speed : Int16 := 0
  speedFiltered : ℚ := 0
  position : UInt16 := 0
  temperature : UInt8 := 0
  faultCode : UInt8 := 0
  hasFeedback : Bool := false
  lastFeedbackTime : ℚ := 0
  deriving DecidableEq

/-- `DdtMotorLib::PiState` -/
structure PiState where
  pi : DdtCurrentPi.State := {}
  guard : DdtCurrentPi.GuardState := {}
  lastMeasuredRpm : Int16 := 0
  lastT : ℚ := 0
  hasLastT : Bool := false
  refRpmFiltered : ℚ := 0
  lastRefT : ℚ := 0
  hasLastRefT : Bool := false
  deriving DecidableEq

/-- `DdtMotorLib::MotorTransactionStats`; the round trip is `none` where the
source has NaN. -/
structure MotorTransactionStats where
  feedbackCount : ℕ := 0
  transactions : ℕ := 0
  responseTimeouts : ℕ := 0
  lastRoundtripMs : Option ℚ := none
  lastResponseTimeout : Bool := false
  lastCurrentRawSent : Int16 := 0
  deriving DecidableEq

/-- `DdtMotorLib::SerialLatencyStats` -/
structure SerialLatencyStats where
  samples : ℕ := 0
  timeouts : ℕ := 0
  lastMs : ℚ := 0
  emaMs : ℚ := 0
  maxMs : ℚ := 0
  deriving DecidableEq

/-! ## The device -/

/-- What the device and the clock will answer, in order: whether the port
opens, the result of each `write`, whether each `tcdrain` succeeds, the reads
of each wait for a response (a read that failed is an empty one), the time. -/
structure Port where
  opens : List Bool := []
  written : List ℤ := []
  drained : List Bool := []
  received : List (List (List UInt8)) := []
  clock : List ℚ := []
  deriving DecidableEq

/-- The first answer of a list, and the answers left. -/
def nextAnswer {α : Type} (none : α) : List α → α × List α
  | [] => (none, [])
  | a :: as => (a, as)

namespace Port

def nextOpen (port : Port) : Bool × Port :=
  ((nextAnswer false port.opens).1, { port with opens := (nextAnswer false port.opens).2 })

def nextWritten (port : Port) : ℤ × Port :=
  ((nextAnswer (-1) port.written).1, { port with written := (nextAnswer (-1) port.written).2 })

def nextDrained (port : Port) : Bool × Port :=
  ((nextAnswer false port.drained).1, { port with drained := (nextAnswer false port.drained).2 })

def nextReceived (port : Port) : List (List UInt8) × Port :=
  ((nextAnswer [] port.received).1, { port with received := (nextAnswer [] port.received).2 })

def nextTime (port : Port) : ℚ × Port :=
  ((nextAnswer 0 port.clock).1, { port with clock := (nextAnswer 0 port.clock).2 })

end Port

/-! ## The library -/

abbrev IntMap (β : Type) := Std.TreeMap Int β

def kSpecVelocityMaxRpm : ℕ := 475
def kCurrentMaxConsecutiveTimeouts : ℕ := 3

abbrev Amps := { amp : ℚ // 0 ≤ amp }

/-- The acceleration byte of a velocity frame; its setter keeps it from zero,
which has another meaning, and within a byte. -/
abbrev AccelTime := { time : ℤ // 1 ≤ time ∧ time ≤ 255 }

theorem maxCurrent_nonneg : (0 : ℚ) ≤ 1 := by norm_num

theorem integralLimit_nonneg : (0 : ℚ) ≤ 3 / 10 := by norm_num

theorem accelTime_bounds : (1 : ℤ) ≤ 50 ∧ (50 : ℤ) ≤ 255 := by norm_num

structure DdtMotorLib where
  port : Port
  initialized : Bool := false
  serialOpen : Bool := false
  maxMotorRpm : ℕ := 330
  currentKp : ℚ := 15 / 10000
  currentKi : ℚ := 4 / 1000
  maxCurrentAmp : Amps := ⟨1, maxCurrent_nonneg⟩
  integralLimitAmp : Amps := ⟨3 / 10, integralLimit_nonneg⟩
  currentZeroDeadbandRpm : ℤ := 5
  currentInvertMeasured : Bool := false
  currentFfStaticAmp : ℚ := 0
  currentFfViscousAmpPerRpm : ℚ := 0
  currentGuardParams : DdtCurrentPi.GuardParams := {}
  currentMaxAccelRpmPerSec : ℚ := 0
  brakeOnStop : Bool := true
  accelTime : AccelTime := ⟨50, accelTime_bounds⟩
  measuredLpfTauSec : ℚ := 0
  stopResendIntervalMs : ℤ := 200
  serialLatencyStats : SerialLatencyStats := {}
  motorVelocities : IntMap ℤ := ∅
  motorFeedbacks : IntMap MotorFeedback := ∅
  motorModes : IntMap ControlMode := ∅
  piStates : IntMap PiState := ∅
  currentGuardTrips : IntMap GuardTrip := ∅
  transactionStats : IntMap MotorTransactionStats := ∅
  lastSentFrames : IntMap (List UInt8) := ∅
  lastStopSendTime : IntMap ℚ := ∅

/-! ## Effects -/

/-- What became of a frame given to the device: not all of it was taken, all
of it was taken but waiting for it to leave failed, or it left. -/
inductive Handover where
  | incomplete
  | undrained
  | drained
  deriving DecidableEq, Repr

def Handover.complete (handover : Handover) : Bool := decide (handover ≠ .incomplete)

/-- What the library lets out. -/
inductive BusEffect where
  /-- A frame was given to the device, by the library in state `lib`. A frame
  that sets a mode has no `motorId` but names its motor in its first byte. -/
  | wrote (motorId : Option Int) (frame : List UInt8) (handover : Handover) (lib : DdtMotorLib)
  /-- The log of `tripCurrentGuard`. -/
  | tripped (motorId : Int) (trip : GuardTrip)
  /-- The log of `clearCurrentGuardTrips`. -/
  | tripsCleared
  /-- The last log of `initializeMotor`. -/
  | initialized (motorId : Int) (mode : ControlMode)

/-- A member function of `DdtMotorLib`. -/
abbrev Ddt (α : Type) := Act DdtMotorLib BusEffect α

namespace DdtMotorLib

def new (port : Port) : DdtMotorLib := { port := port }

/-- `static_cast<std::uint8_t>(motor_id)` -/
def wireId (motorId : Int) : UInt8 := UInt8.ofInt motorId

/-! ## Entries

`operator[]` makes an entry of default values where there is none. -/

def updatePi (s : DdtMotorLib) (motorId : Int) (f : PiState → PiState) : DdtMotorLib :=
  { s with piStates := s.piStates.insert motorId (f (s.piStates.getD motorId {})) }

def updateStats (s : DdtMotorLib) (motorId : Int)
    (f : MotorTransactionStats → MotorTransactionStats) : DdtMotorLib :=
  { s with
    transactionStats := s.transactionStats.insert motorId (f (s.transactionStats.getD motorId {})) }

/-- `std::clamp` to the limit of the velocity. -/
def clampRpm (s : DdtMotorLib) (rpm : ℤ) : ℤ := DdtCurrentPi.clamp rpm (-s.maxMotorRpm) s.maxMotorRpm

def setVelocityEntry (s : DdtMotorLib) (motorId : Int) (rpm : ℤ) : DdtMotorLib :=
  { s with motorVelocities := s.motorVelocities.insert motorId rpm }

def setLastSent (s : DdtMotorLib) (motorId : Int) (frame : List UInt8) : DdtMotorLib :=
  { s with lastSentFrames := s.lastSentFrames.insert motorId frame }

def setLastStop (s : DdtMotorLib) (motorId : Int) (time : ℚ) : DdtMotorLib :=
  { s with lastStopSendTime := s.lastStopSendTime.insert motorId time }

def setGuardTrip (s : DdtMotorLib) (motorId : Int) (trip : GuardTrip) : DdtMotorLib :=
  { s with currentGuardTrips := s.currentGuardTrips.insert motorId trip }

def resetFeedback (s : DdtMotorLib) (motorId : Int) : DdtMotorLib :=
  { s with motorFeedbacks := s.motorFeedbacks.insert motorId {} }

/-! ## Readings -/

def lastSentFrameIsZero (s : DdtMotorLib) (motorId : Int) : Bool :=
  (s.lastSentFrames[motorId]?).any DdtProtocol.isZeroCommandFrame

/-- A motor in current mode, as far as the library knows. -/
def inCurrentMode (s : DdtMotorLib) (motorId : Int) : Bool :=
  decide (s.motorModes[motorId]? = some .current)

end DdtMotorLib

end Questix.MotorControl
