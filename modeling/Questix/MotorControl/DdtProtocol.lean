/-
Questix.MotorControl.DdtProtocol — the frames of the DDT motor bus:
`ddt_protocol.cpp`.

A frame is a list of bytes. Numbers on the wire are 16 bits wide, the high
byte first; `std::int16_t` and `std::uint16_t` are Lean's `Int16` and
`UInt16`, with their conversions that wrap.

A command frame is a `0x64` frame that names its motor. A current command is a
velocity command with acceleration and brake bytes zero, so that the two
kinds are told apart by the acceleration byte, which is never zero in a
velocity command this library sends.
-/
import Mathlib.Tactic.Linarith

namespace Questix.MotorControl.DdtProtocol

/-! ## CRC -/

/-- One bit of `crc8Maxim`: polynomial `0x8C`, reflected. -/
def crcBit (crc : UInt8) : UInt8 :=
  if crc &&& 1 ≠ 0 then (crc >>> 1) ^^^ 0x8C else crc >>> 1

/-- `n` bits of `crc8Maxim`. -/
def crcBits : ℕ → UInt8 → UInt8
  | 0, crc => crc
  | n + 1, crc => crcBits n (crcBit crc)

def crc8Maxim (data : List UInt8) : UInt8 :=
  data.foldl (fun crc byte => crcBits 8 (crc ^^^ byte)) 0

/-! ## Packing -/

def highByte (v : Int16) : UInt8 := (v.toUInt16 >>> 8).toUInt8

def lowByte (v : Int16) : UInt8 := v.toUInt16.toUInt8

/-- The mode frame of the specification, without a CRC. -/
def packModeFrame (motorId modeValue : UInt8) : List UInt8 :=
  [motorId, 0xA0, 0, 0, 0, 0, 0, 0, 0, modeValue]

/-- The mode frame of this library's older layout. -/
def packModeFrameLegacy (motorId modeValue : UInt8) : List UInt8 :=
  let dataFields := [motorId, 0xA0, 0, 0, 0, 0, 0, 0, modeValue]
  dataFields ++ [crc8Maxim dataFields]

def packVelocityFrame (motorId : UInt8) (velocityRpm : Int16) (accelTime : UInt8) (brake : Bool) :
    List UInt8 :=
  let brakeByte : UInt8 := if brake then 0xFF else 0x00
  let dataFields := [motorId, 0x64, highByte velocityRpm, lowByte velocityRpm, 0, 0, accelTime,
    brakeByte, 0]
  dataFields ++ [crc8Maxim dataFields]

def packCurrentFrame (motorId : UInt8) (currentRaw : Int16) : List UInt8 :=
  let dataFields := [motorId, 0x64, highByte currentRaw, lowByte currentRaw, 0, 0, 0, 0, 0]
  dataFields ++ [crc8Maxim dataFields]

/-- A command frame (velocity or current) whose commanded value is zero. -/
def isZeroCommandFrame (frame : List UInt8) : Bool :=
  decide (frame.length = 10) && frame[1]? == some 0x64 && frame[2]? == some 0 &&
    frame[3]? == some 0

/-- `IdleRefresh` -/
inductive IdleRefresh where
  | kNone
  | kResendZero
  deriving DecidableEq, Repr

def decideIdleRefresh (feedbackFresh hasCachedFrame cachedIsZero throttled : Bool) : IdleRefresh :=
  if feedbackFresh || !hasCachedFrame || !cachedIsZero || throttled then .kNone else .kResendZero

/-! ## Parsing -/

structure Feedback where
  mode : UInt8
  current : Int16
  speed : Int16
  position : UInt16
  faultCode : UInt8
  deriving DecidableEq

inductive ParseResult where
  | kOk (out : Feedback)
  | kBadLength
  | kIdMismatch
  | kCrcMismatch
  deriving DecidableEq

/-- Two bytes, the high one first. -/
def word (high low : UInt8) : UInt16 := (high.toUInt16 <<< 8) ||| low.toUInt16

def parseFeedbackFrame (expectedMotorId : UInt8) (frame : List UInt8) : ParseResult :=
  match frame with
  | [b0, b1, b2, b3, b4, b5, b6, b7, b8, b9] =>
    if b0 ≠ expectedMotorId then .kIdMismatch
    else if crc8Maxim [b0, b1, b2, b3, b4, b5, b6, b7, b8] ≠ b9 then .kCrcMismatch
    else .kOk { mode := b1, current := (word b2 b3).toInt16, speed := (word b4 b5).toInt16,
                position := word b6 b7, faultCode := b8 }
  | _ => .kBadLength

/-! ## Command frames -/

def isCommandFrame (frame : List UInt8) : Bool := frame[1]? == some 0x64

theorem toNat_highByte (v : Int16) : (highByte v).toNat = v.toUInt16.toNat / 256 := by
  have hlt := v.toUInt16.toNat_lt
  have h8 : 2 ^ (UInt16.toNat 8 % 16) = 256 := rfl
  simp only [highByte, UInt16.toNat_toUInt8, UInt16.toNat_shiftRight, Nat.shiftRight_eq_div_pow, h8]
  omega

theorem toNat_lowByte (v : Int16) : (lowByte v).toNat = v.toUInt16.toNat % 256 := by
  simp [lowByte, UInt16.toNat_toUInt8]

theorem eq_of_bytes {v w : Int16} (hh : highByte v = highByte w) (hl : lowByte v = lowByte w) :
    v = w := by
  have hhigh := congrArg UInt8.toNat hh
  have hlow := congrArg UInt8.toNat hl
  rw [toNat_highByte, toNat_highByte] at hhigh
  rw [toNat_lowByte, toNat_lowByte] at hlow
  have hnat : v.toUInt16.toNat = w.toUInt16.toNat := by omega
  have hword : v.toUInt16 = w.toUInt16 := UInt16.toNat_inj.1 hnat
  simpa using congrArg UInt16.toInt16 hword

section Frames

variable {motorId accelTime modeValue : UInt8} {brake : Bool} {v : Int16}

@[simp] theorem highByte_zero : highByte 0 = 0 := rfl
@[simp] theorem lowByte_zero : lowByte 0 = 0 := rfl

theorem isZeroCommandFrame_current : isZeroCommandFrame (packCurrentFrame motorId v) = true ↔ v = 0 := by
  constructor
  · intro h
    simp only [isZeroCommandFrame, packCurrentFrame, List.cons_append, List.nil_append,
      Bool.and_eq_true, beq_iff_eq] at h
    obtain ⟨⟨-, hh⟩, hl⟩ := h
    exact eq_of_bytes (Option.some.inj hh) (Option.some.inj hl)
  · rintro rfl
    simp [isZeroCommandFrame, packCurrentFrame]

theorem isZeroCommandFrame_velocity :
    isZeroCommandFrame (packVelocityFrame motorId v accelTime brake) = true ↔ v = 0 := by
  constructor
  · intro h
    simp only [isZeroCommandFrame, packVelocityFrame, List.cons_append, List.nil_append,
      Bool.and_eq_true, beq_iff_eq] at h
    obtain ⟨⟨-, hh⟩, hl⟩ := h
    exact eq_of_bytes (Option.some.inj hh) (Option.some.inj hl)
  · rintro rfl
    simp [isZeroCommandFrame, packVelocityFrame]

theorem isCommandFrame_of_zero {frame : List UInt8} (h : isZeroCommandFrame frame = true) :
    isCommandFrame frame = true := by
  simp only [isZeroCommandFrame, Bool.and_eq_true] at h
  exact h.1.1.2

@[simp] theorem isCommandFrame_mode : isCommandFrame (packModeFrame motorId modeValue) = false := rfl
@[simp] theorem isCommandFrame_modeLegacy :
    isCommandFrame (packModeFrameLegacy motorId modeValue) = false := rfl

@[simp] theorem isCommandFrame_velocity :
    isCommandFrame (packVelocityFrame motorId v accelTime brake) = true := rfl
@[simp] theorem isCommandFrame_current : isCommandFrame (packCurrentFrame motorId v) = true := rfl

theorem packVelocityFrame_ne_current (h : accelTime ≠ 0) (id : UInt8) (raw : Int16) :
    packVelocityFrame motorId v accelTime brake ≠ packCurrentFrame id raw := by
  intro heq
  have h6 := congrArg (fun frame => frame[6]?) heq
  simp only [packVelocityFrame, packCurrentFrame, List.cons_append, List.nil_append] at h6
  exact h (Option.some.inj h6)

theorem packCurrentFrame_inj {id : UInt8} {raw : Int16}
    (h : packCurrentFrame motorId v = packCurrentFrame id raw) : v = raw := by
  have h2 := congrArg (fun frame => frame[2]?) h
  have h3 := congrArg (fun frame => frame[3]?) h
  simp only [packCurrentFrame, List.cons_append, List.nil_append] at h2 h3
  exact eq_of_bytes (Option.some.inj h2) (Option.some.inj h3)

end Frames

end Questix.MotorControl.DdtProtocol
