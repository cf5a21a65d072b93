/-
Questix.MotorControl.FeetechServo — one register of a Feetech servo is read or
written: `feetech_protocol.cpp`, and `sendCommand`, `readRegister` and
`writeRegister` of `servo_control.cpp`.

A `Transaction` is what the bus does with one request: whether the port is
open, whether the request was written whole, and what the calls of `select` and
`read` give, one after the other. The deadline is one of these answers, and so
is the silence behind the last of them. The buffer of the response has 50
bytes, so a read gets at most what is left of them.

Numbers on the wire are 16 bits wide with the high byte first, the CRC with the
low byte first. Left out are the pauses, the RTS line and the log.
-/
import Mathlib.Tactic.Common
import Mathlib.Tactic.Linarith

namespace Questix.MotorControl.FeetechServo

/-! ## `feetech_protocol` -/

/-- One bit of `calculateCrc16`. -/
def crcBit (crc : UInt16) : UInt16 :=
  if crc &&& 1 ≠ 0 then (crc >>> 1) ^^^ 0xA001 else crc >>> 1

/-- `n` bits of `calculateCrc16`. -/
def crcBits : ℕ → UInt16 → UInt16
  | 0, crc => crc
  | n + 1, crc => crcBits n (crcBit crc)

def calculateCrc16 (data : List UInt8) : UInt16 :=
  data.foldl (fun crc byte => crcBits 8 (crc ^^^ byte.toUInt16)) 0xFFFF

def highByte (v : UInt16) : UInt8 := (v >>> 8).toUInt8
def lowByte (v : UInt16) : UInt8 := v.toUInt8

/-- A 16-bit number from its two bytes. -/
def word (high low : UInt8) : UInt16 := (high.toUInt16 <<< 8) ||| low.toUInt16

def createModbusCommand (slaveId functionCode : UInt8) (address value : UInt16) : List UInt8 :=
  let command := [slaveId, functionCode, highByte address, lowByte address, highByte value,
    lowByte value]
  let crc := calculateCrc16 command
  command ++ [lowByte crc, highByte crc]

def verifyChecksum (data : List UInt8) : Bool :=
  if data.length < 3 then false
  else
    let receivedCrc := word (data.getD (data.length - 1) 0) (data.getD (data.length - 2) 0)
    receivedCrc = calculateCrc16 (data.take (data.length - 2))

/-! ## `sendCommand` -/

inductive TransactionResult where
  | kOk
  | kNotConnected
  | kWriteFailed
  | kNoResponse
  | kIncomplete
  | kChecksum
  | kErrorResponse
  | kUnexpected
  | kIoError
  deriving DecidableEq

/-- What `select` and `read` give: some bytes, the deadline, the end of the
device (`n == 0`), or an error of either call. -/
inductive Arrival where
  | bytes (chunk : List UInt8)
  | deadline
  | eof
  | error
  deriving DecidableEq

structure Transaction where
  connected : Bool := true
  written : Bool := true
  arrivals : List Arrival := []

def maxResponseLength : ℕ := 50

/-- The loop over the reads: the response so far, and its expected length. -/
structure Receive where
  response : List UInt8 := []
  expectedLength : ℕ
  errorFrame : Bool := false
  ioError : Bool := false

def isError (functionCode : UInt8) : Bool := functionCode &&& 0x80 ≠ 0

/-- Bytes were read: the expected length is revised. -/
def Receive.take (functionCode : UInt8) (chunk : List UInt8) (r : Receive) : Receive :=
  let response := r.response ++ chunk
  let isErrorFrame := !r.errorFrame && decide (2 ≤ response.length) && isError (response.getD 1 0)
  let errorFrame := r.errorFrame || isErrorFrame
  let expectedLength := if isErrorFrame then min 5 maxResponseLength else r.expectedLength
  let expectedLength :=
    if !errorFrame && functionCode = 3 && 3 ≤ response.length then
      let recalculated := 3 + (response.getD 2 0).toNat + 2
      if recalculated ≤ maxResponseLength then recalculated else maxResponseLength
    else expectedLength
  { r with response := response, expectedLength := expectedLength, errorFrame := errorFrame }

def receive (functionCode : UInt8) : Receive → List Arrival → Receive
  | r, [] => r
  | r, arrival :: arrivals =>
    if r.response.length < r.expectedLength then
      match arrival with
      | .bytes chunk => receive functionCode (r.take functionCode chunk) arrivals
      | .deadline => r
      | .eof => { r with ioError := true }
      | .error => { r with ioError := true }
    else r

def Receive.start (functionCode : UInt8) : Receive where
  expectedLength := min (if functionCode = 3 then 7 else 8) maxResponseLength

/-- `last_result_`, and the response if there is a valid one. -/
def sendCommand (command : List UInt8) (t : Transaction) : TransactionResult × Option (List UInt8) :=
  if !t.connected then (.kNotConnected, none)
  else if !t.written then (.kWriteFailed, none)
  else
    let functionCode := command.getD 1 0
    let r := receive functionCode (.start functionCode) t.arrivals
    if r.response.length = 0 then (if r.ioError then .kIoError else .kNoResponse, none)
    else if r.response.length < r.expectedLength then
      (if r.ioError then .kIoError else .kIncomplete, none)
    else if verifyChecksum r.response then (.kOk, some r.response)
    else (.kChecksum, none)

/-! ## Registers -/

/-- `last_result_`, which `sendCommand` has set to `sent`, and the value of a
response, -1 for none. -/
def readValue (sent : TransactionResult) (response : Option (List UInt8)) :
    TransactionResult × ℤ :=
  match response with
  | none => (sent, -1)
  | some response =>
    if 5 ≤ response.length ∧ response.getD 1 0 = 3 ∧ response.getD 2 0 = 2 then
      (sent, (word (response.getD 3 0) (response.getD 4 0)).toNat)
    else if isError (response.getD 1 0) then (.kErrorResponse, -1)
    else (.kUnexpected, -1)

def readRegister (servoId : UInt8) (address : UInt16) (t : Transaction) : TransactionResult × ℤ :=
  let sent := sendCommand (createModbusCommand servoId 3 address 1) t
  readValue sent.1 sent.2

/-- `last_result_`, and whether a response echoes the value. -/
def checkEcho (address value : UInt16) (sent : TransactionResult) (response : Option (List UInt8)) :
    TransactionResult × Bool :=
  match response with
  | none => (sent, false)
  | some response =>
    if 6 ≤ response.length ∧ response.getD 1 0 = 6 then
      let echoAddr := word (response.getD 2 0) (response.getD 3 0)
      let echoValue := word (response.getD 4 0) (response.getD 5 0)
      if echoAddr = address ∧ echoValue = value then (sent, true) else (.kUnexpected, false)
    else if isError (response.getD 1 0) then (.kErrorResponse, false)
    else (.kUnexpected, false)

def writeRegister (servoId : UInt8) (address value : UInt16) (t : Transaction) :
    TransactionResult × Bool :=
  let sent := sendCommand (createModbusCommand servoId 6 address value) t
  checkEcho address value sent.1 sent.2

end Questix.MotorControl.FeetechServo
