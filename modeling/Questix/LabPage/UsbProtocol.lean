/-
Questix.LabPage.UsbProtocol — the reader of the LiDAR's byte stream
(`usb-protocol.js`).

Bytes outside a buffer read as 0; the code reads none. Angles and ranges are
exact, and `Maths` is what the page uses of `Math`. A call of `onScan` is
written down in `emitted`.
-/
import Mathlib.Data.Rat.Defs
import Mathlib.Algebra.Order.Ring.Unbundled.Rat
import Mathlib.Algebra.Field.Rat

namespace Questix.LabPage.UsbProtocol

def HEADER_BYTES : Nat := 10
def SAMPLE_BYTES : Nat := 3
def TIMESTAMP_BYTES : Nat := 8
def MAX_PACKET_POINTS : Nat := 80
def MIN_SCAN_POINTS : Nat := 100
def MAX_SCAN_POINTS : Nat := 900
def MAX_BUFFER_BYTES : Nat := 4096
def MAX_ACCUMULATED_POINTS : Nat := 2000
def MIN_RANGE_METRES : ℚ := 1 / 10
def MAX_RANGE_METRES : ℚ := 12

abbrev Bytes := List UInt8

def byteAt (bytes : Bytes) (i : Nat) : Nat := (bytes.getD i 0).toNat

/-- All words on the wire are little endian. -/
def word (bytes : Bytes) (offset : Nat) : Nat :=
  byteAt bytes offset ||| (byteAt bytes (offset + 1) <<< 8)

/-- How long the packet at `offset` is: 0 where the header is not there yet, 1
for a byte that starts none. -/
def packetLength (bytes : Bytes) (offset : Nat) : Nat :=
  if byteAt bytes offset ≠ 0xaa then 1
  else if byteAt bytes (offset + 1) = 0x66 then TIMESTAMP_BYTES
  else if byteAt bytes (offset + 1) ≠ 0x55 then 1
  else if offset + HEADER_BYTES > bytes.length then 0
  else HEADER_BYTES + SAMPLE_BYTES * byteAt bytes (offset + 3)

def checksum (bytes : Bytes) (offset : Nat) : Nat :=
  (List.range (byteAt bytes (offset + 3))).foldl
    (fun sum i =>
      let sample := offset + HEADER_BYTES + SAMPLE_BYTES * i
      sum ^^^ (byteAt bytes sample ^^^ word bytes (sample + 1)))
    (word bytes offset ^^^ word bytes (offset + 2) ^^^ word bytes (offset + 4)
      ^^^ word bytes (offset + 6))

def validPacket (bytes : Bytes) (offset : Nat) : Bool :=
  let count := byteAt bytes (offset + 3)
  if count = 0 ∨ count > MAX_PACKET_POINTS ∨ byteAt bytes (offset + 4) &&& 1 = 0 ∨
      byteAt bytes (offset + 6) &&& 1 = 0 then
    false
  else
    checksum bytes offset == word bytes (offset + 8)

/-- The part of `Math` that places a sample. -/
structure Maths where
  PI : ℚ
  cos : ℚ → ℚ
  sin : ℚ → ℚ

structure ScanPoint where
  x : ℚ
  y : ℚ
  r : ℚ
  deriving DecidableEq

/-- The points of the packet at `offset`: the samples within range. -/
def packetPoints (m : Maths) (bytes : Bytes) (offset : Nat) : List ScanPoint :=
  let count := byteAt bytes (offset + 3)
  let firstDegrees : ℚ := (word bytes (offset + 4) >>> 1 : Nat) / 64
  let lastWord : ℚ := (word bytes (offset + 6) >>> 1 : Nat) / 64
  let lastDegrees := if lastWord < firstDegrees then lastWord + 360 else lastWord
  (List.range count).filterMap fun i =>
    let raw := word bytes (offset + HEADER_BYTES + SAMPLE_BYTES * i + 1)
    let r : ℚ := (raw &&& 0xfffc : Nat) / 4000
    let degrees := firstDegrees + ((lastDegrees - firstDegrees) * i) / (max 1 (count - 1) : Nat)
    -- the scanner counts its turns the other way round and from behind
    let angle := -(degrees + 180) * m.PI / 180
    if MIN_RANGE_METRES ≤ r ∧ r ≤ MAX_RANGE_METRES then
      some { x := r * m.cos angle, y := r * m.sin angle, r }
    else none

structure TminiParser where
  emitted : List (List ScanPoint) := []
  buffer : Bytes := []
  points : List ScanPoint := []
  synced : Bool := false
  badScan : Bool := false
  errors : Nat := 0
  packets : Nat := 0
  scans : Nat := 0
  dropped : Nat := 0
  bytes : Nat := 0
  deriving DecidableEq

namespace TminiParser

def new : TminiParser := {}

def finishScan (p : TminiParser) : TminiParser :=
  let told :=
    if p.synced then
      if !p.badScan ∧ MIN_SCAN_POINTS ≤ p.points.length ∧ p.points.length ≤ MAX_SCAN_POINTS then
        { p with scans := p.scans + 1, emitted := p.emitted ++ [p.points] }
      else { p with dropped := p.dropped + 1 }
    else p
  { told with points := [], badScan := false, synced := true }

def acceptPacket (m : Maths) (p : TminiParser) (bytes : Bytes) (offset : Nat) : TminiParser :=
  let counted := { p with packets := p.packets + 1 }
  let begun := if byteAt bytes (offset + 2) &&& 1 ≠ 0 then counted.finishScan else counted
  let points := begun.points ++ packetPoints m bytes offset
  if points.length > MAX_ACCUMULATED_POINTS then
    { begun with points := [], synced := false, dropped := begun.dropped + 1 }
  else { begun with points }

/-- One round of the loop of `feed`, or its end. -/
def feedTurn (m : Maths) (bytes : Bytes) : TminiParser × Nat → Option (TminiParser × Nat)
  | (p, offset) =>
    if offset + 1 < bytes.length then
      let length := packetLength bytes offset
      if length = 0 ∨ offset + length > bytes.length then none
      else if length > TIMESTAMP_BYTES then
        if validPacket bytes offset then
          some (p.acceptPacket m bytes offset, offset + length)
        else some ({ p with errors := p.errors + 1, badScan := true }, offset + 1)
      -- timestamp blocks carry no geometry
      else some (p, offset + length)
    else none

/-- At most `turns` rounds. -/
def feedLoop (m : Maths) (bytes : Bytes) : Nat → TminiParser × Nat → TminiParser × Nat
  | 0, s => s
  | turns + 1, s =>
    match feedTurn m bytes s with
    | none => s
    | some s' => feedLoop m bytes turns s'

/-- A chunk comes. Every round moves on, so there are no more rounds than bytes. -/
def feed (m : Maths) (p : TminiParser) (chunk : Bytes) : TminiParser :=
  let bytes := p.buffer ++ chunk
  let read := feedLoop m bytes bytes.length ({ p with bytes := p.bytes + chunk.length }, 0)
  let kept := bytes.drop read.2
  if kept.length > MAX_BUFFER_BYTES then { read.1 with buffer := [], badScan := true }
  else { read.1 with buffer := kept }

/-- One chunk after the other, from the start. -/
def feedAll (m : Maths) (chunks : List Bytes) : TminiParser := chunks.foldl (feed m) new

end TminiParser

end Questix.LabPage.UsbProtocol
