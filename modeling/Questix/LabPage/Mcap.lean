/-
Questix.LabPage.Mcap — the records of a recorded bag (`rosbag-core.js`, its
first layer).

What a reader gives it gives with the place it stopped at. `decode` is the
browser's text decoder. The bytes of a message are a part of the file, as the
code's array over the same buffer is.
-/
import Questix.Lib.Binary
import Questix.Lib.Slots

namespace Questix.LabPage.Mcap

open Questix.Lib Questix.Lib.Binary

def MAGIC : Bytes := [0x89, 0x4d, 0x43, 0x41, 0x50, 0x30, 0x0d, 0x0a]

namespace OP

def schema : ℕ := 0x03
def channel : ℕ := 0x04
def message : ℕ := 0x05
def chunk : ℕ := 0x06
def dataEnd : ℕ := 0x0f
def footer : ℕ := 0x02

end OP

/-- What a bag may be refused with. -/
inductive BagError where
  | bagError (text : String)
  /-- an array of a negative length -/
  | rangeError
  deriving DecidableEq

def cutOff : BagError := .bagError "rosbagのファイルが途中で切れています。"

def notMcap : BagError :=
  .bagError "MCAP形式のrosbagではありません。ros2 bag record -s mcap で記録した .mcap を選んでください。"

def compressed (compression : String) : BagError :=
  .bagError ("圧縮されたrosbag（" ++ compression ++
    "）は読み込めません。圧縮なし（ros2 bag recordの既定）で記録したものを使ってください。")

/-- A file in memory; no browser holds one of 2⁵³ bytes. -/
structure View where
  bytes : Bytes
  short : bytes.length < 2 ^ 53

/-- A part of a file. -/
structure Slice where
  start : ℕ
  size : ℕ
  deriving DecidableEq

def Slice.stop (slice : Slice) : ℕ := slice.start + slice.size

structure Schema where
  id : ℕ
  name : String
  encoding : String
  data : String

structure Channel where
  id : ℕ
  schemaId : ℕ
  topic : String
  encoding : String

structure Message where
  channelId : ℕ
  logTime : ℕ
  data : Slice
  deriving DecidableEq

namespace View

variable (view : View)

def byteLength : ℕ := view.bytes.length

def slice (slice : Slice) : Bytes := (view.bytes.drop slice.start).take slice.size

end View

/-! ## The cursor -/

abbrev Reader (α : Type) := StateT ℕ (Except BagError) α

variable (decode : Bytes → String) (view : View)

def take (size : ℕ) : Reader ℕ := fun offset =>
  if add offset size > view.byteLength then .error cutOff
  else .ok (offset, add offset size)

def uint (size : ℕ) : Reader ℕ := do
  let start ← take view size
  return little (view.slice ⟨start, size⟩)

def u8 : Reader ℕ := uint view 1
def u16 : Reader ℕ := uint view 2
def u32 : Reader ℕ := uint view 4
def u64 : Reader ℕ := uint view 8

def bytes (size : ℕ) : Reader Slice := do
  let start ← take view size
  return ⟨start, size⟩

def string : Reader String := do
  let size ← u32 view
  let text ← bytes view size
  return decode (view.slice text)

/-! ## The records -/

def readSchema : Reader Schema := do
  let id ← u16 view
  let name ← string decode view
  let encoding ← string decode view
  let data ← string decode view
  return { id, name, encoding, data }

def readChannel : Reader Channel := do
  let id ← u16 view
  let schemaId ← u16 view
  let topic ← string decode view
  let encoding ← string decode view
  return { id, schemaId, topic, encoding }

/-- The bytes from the cursor to `stop`. -/
def bytesTo (stop : ℕ) : Reader Slice := do
  let offset ← get
  if stop < offset then throw .rangeError else bytes view (stop - offset)

def readMessage (stop : ℕ) : Reader Message := do
  let channelId ← u16 view
  let _ ← u32 view -- sequence
  let logTime ← u64 view
  let _ ← u64 view -- publish time
  let data ← bytesTo view stop
  return { channelId, logTime, data }

/-- Where the records of a chunk begin and end: `readChunk` up to its walk. -/
def readChunk : Reader (ℕ × ℕ) := do
  let _ ← u64 view -- message start time
  let _ ← u64 view -- message end time
  let _ ← u64 view -- uncompressed size
  let _ ← u32 view -- uncompressed crc
  let compression ← string decode view
  let size ← u64 view
  if compression ≠ "" then throw (compressed compression)
  else
    let start ← get
    return (start, add start (num size))

inductive Item where
  | schema (schema : Schema)
  | channel (channel : Channel)
  | message (message : Message)
  | other

/-- What the record under the cursor asks for. -/
inductive Turn where
  | leave
  | item (item : Item) (next : ℕ)
  | chunk (start stop next : ℕ)

/-- The record of a kind, from `start` to `stop`. -/
def readBody (opcode start stop : ℕ) : Except BagError Turn :=
  if opcode = OP.schema then do
    let (schema, _) ← readSchema decode view start
    return .item (.schema schema) stop
  else if opcode = OP.channel then do
    let (channel, _) ← readChannel decode view start
    return .item (.channel channel) stop
  else if opcode = OP.message then do
    let (message, _) ← readMessage view stop start
    return .item (.message message) stop
  else if opcode = OP.chunk then do
    let (within, _) ← readChunk decode view start
    return .chunk within.1 within.2 stop
  else if opcode = OP.dataEnd ∨ opcode = OP.footer then return .leave
  else return .item .other stop

def readRecord (offset limit : ℕ) : Except BagError Turn := do
  let (opcode, offset) ← u8 view offset
  let (length, start) ← u64 view offset
  let stop := add start (num length)
  if stop > limit then .error cutOff else readBody decode view opcode start stop

/-- What `readMcap` gives. -/
structure Bag where
  schemas : Slots ℕ Schema := []
  channels : Slots ℕ Channel := []
  messages : List Message := []

/-- The sink. -/
def Bag.sink (bag : Bag) : Item → Bag
  | .schema schema => { bag with schemas := bag.schemas.put schema.id schema }
  | .channel channel => { bag with channels := bag.channels.put channel.id channel }
  | .message message => { bag with messages := bag.messages ++ [message] }
  | .other => bag

/-! ## The walk

Every turn leads further into the file, that into a chunk as well, so the walk
ends whatever the lengths say. -/

variable {decode view}

theorem take_spec {size offset start offset' : ℕ}
    (h : take view size offset = .ok (start, offset')) :
    start = offset ∧ offset' = offset + size ∧ offset' ≤ view.byteLength := by
  unfold take at h
  split_ifs at h with hsize
  obtain ⟨rfl, rfl⟩ := Prod.mk.inj (Except.ok.inj h)
  have hlt : add offset size < 2 ^ 53 := (not_lt.mp hsize).trans_lt view.short
  exact ⟨rfl, add_eq_of_lt hlt, not_lt.mp hsize⟩

theorem bind_ok {α β : Type} {r : Reader α} {f : α → Reader β} {offset : ℕ} {b : β × ℕ}
    (h : (r >>= f) offset = .ok b) : ∃ a, r offset = .ok a ∧ f a.1 a.2 = .ok b := by
  change ((r offset).bind fun a => f a.1 a.2) = .ok b at h
  cases hr : r offset with
  | error e =>
    rw [hr] at h
    exact absurd h (by simp [Except.bind])
  | ok a =>
    rw [hr] at h
    exact ⟨a, rfl, h⟩

/-- A reader that only goes on, and within the file. -/
def Advances {α : Type} (view : View) (r : Reader α) : Prop :=
  ∀ offset a, r offset = .ok a → offset ≤ a.2 ∧ (offset ≤ view.byteLength → a.2 ≤ view.byteLength)

theorem Advances.bind {α β : Type} {r : Reader α} {f : α → Reader β} (hr : Advances view r)
    (hf : ∀ a, Advances view (f a)) : Advances view (r >>= f) := by
  intro offset b h
  obtain ⟨a, ha, hb⟩ := bind_ok h
  have hfirst := hr _ a ha
  have hsecond := hf a.1 _ b hb
  exact ⟨hfirst.1.trans hsecond.1, fun hoffset => hsecond.2 (hfirst.2 hoffset)⟩

theorem advances_pure {α : Type} (a : α) : Advances view (pure a) := by
  intro offset b h
  obtain rfl := Except.ok.inj h
  exact ⟨le_rfl, id⟩

theorem advances_take (size : ℕ) : Advances view (take view size) := by
  intro offset a h
  obtain ⟨-, hoffset, hle⟩ := take_spec h
  exact ⟨by omega, fun _ => hle⟩

theorem advances_uint (size : ℕ) : Advances view (uint view size) :=
  Advances.bind (advances_take size) fun _ => advances_pure _

theorem advances_string : Advances view (string decode view) :=
  Advances.bind (advances_uint 4) fun _ =>
    Advances.bind (Advances.bind (advances_take _) fun _ => advances_pure _) fun _ =>
      advances_pure _

theorem uint_spec {size offset : ℕ} {a : ℕ × ℕ} (h : uint view size offset = .ok a) :
    a.2 = offset + size ∧ a.2 ≤ view.byteLength := by
  obtain ⟨start, hstart, ha⟩ := bind_ok h
  obtain rfl := Except.ok.inj ha
  exact (take_spec hstart).2

theorem readChunk_spec {start : ℕ} {within : (ℕ × ℕ) × ℕ}
    (h : readChunk decode view start = .ok within) : start ≤ within.1.1 := by
  obtain ⟨a, ha, h⟩ := bind_ok h
  obtain ⟨b, hb, h⟩ := bind_ok h
  obtain ⟨c, hc, h⟩ := bind_ok h
  obtain ⟨d, hd, h⟩ := bind_ok h
  obtain ⟨compression, hcompression, h⟩ := bind_ok h
  obtain ⟨size, hsize, h⟩ := bind_ok h
  split_ifs at h
  · exact absurd h (by simp [throw, throwThe, MonadExceptOf.throw, StateT.lift])
  · obtain rfl := Except.ok.inj h
    have hskip := (advances_string _ compression hcompression).1
    have := (uint_spec ha).1
    have := (uint_spec hb).1
    have := (uint_spec hc).1
    have := (uint_spec hd).1
    have := (uint_spec hsize).1
    change start ≤ size.2
    omega

/-- What a turn leads to lies further on. -/
def Turn.Beyond (offset : ℕ) : Turn → Prop
  | .leave => True
  | .item _ next => offset < next
  | .chunk start _ next => offset < start ∧ offset < next

theorem except_ok {α β : Type} {x : Except BagError α} {f : α → Except BagError β} {b : β}
    (h : x.bind f = .ok b) : ∃ a, x = .ok a ∧ f a = .ok b := by
  cases x with
  | error e => exact absurd h (by simp [Except.bind])
  | ok a => exact ⟨a, rfl, h⟩

theorem readBody_beyond {opcode start stop offset : ℕ} {turn : Turn}
    (h : readBody decode view opcode start stop = .ok turn) (hstart : offset < start)
    (hstop : offset < stop) : turn.Beyond offset := by
  unfold readBody at h
  split_ifs at h
  · obtain ⟨schema, -, h⟩ := except_ok h
    obtain rfl := Except.ok.inj h
    exact hstop
  · obtain ⟨channel, -, h⟩ := except_ok h
    obtain rfl := Except.ok.inj h
    exact hstop
  · obtain ⟨message, -, h⟩ := except_ok h
    obtain rfl := Except.ok.inj h
    exact hstop
  · obtain ⟨within, hwithin, h⟩ := except_ok h
    obtain rfl := Except.ok.inj h
    exact ⟨hstart.trans_le (readChunk_spec hwithin), hstop⟩
  · obtain rfl := Except.ok.inj h
    trivial
  · obtain rfl := Except.ok.inj h
    exact hstop

theorem readRecord_spec {offset limit : ℕ} {turn : Turn}
    (h : readRecord decode view offset limit = .ok turn) :
    offset + 9 ≤ view.byteLength ∧ ∃ opcode stop, offset + 9 ≤ stop ∧ stop ≤ limit ∧
      readBody decode view opcode (offset + 9) stop = .ok turn := by
  obtain ⟨opcode, hopcode, h⟩ := except_ok h
  obtain ⟨length, hlength, h⟩ := except_ok h
  have hfirst := (uint_spec hopcode).1
  obtain ⟨hsecond, hle⟩ := uint_spec hlength
  have hstart : length.2 = offset + 9 := by omega
  have hstop : offset + 9 ≤ add (offset + 9) (num length.1) :=
    le_add _ ((hstart ▸ hle).trans_lt view.short)
  rw [← hstart] at hstop ⊢
  dsimp only at h
  split_ifs at h with hlimit
  exact ⟨hle, opcode.1, _, hstop, not_lt.mp hlimit, h⟩

theorem readRecord_beyond {offset limit : ℕ} {turn : Turn}
    (h : readRecord decode view offset limit = .ok turn) :
    offset < view.byteLength ∧ turn.Beyond offset := by
  obtain ⟨hle, opcode, stop, hstop, -, hbody⟩ := readRecord_spec h
  exact ⟨by omega, readBody_beyond hbody (by omega) (by omega)⟩

variable (decode view)

/-- `walkRecords`, with the walk of a chunk where `readChunk` makes it. -/
def walkRecords (offset limit : ℕ) (bag : Bag) : Except BagError Bag :=
  if offset < limit then
    match _hread : readRecord decode view offset limit with
    | .error e => .error e
    | .ok .leave => .ok bag
    | .ok (.item item next) => walkRecords next limit (bag.sink item)
    | .ok (.chunk start stop next) =>
      match walkRecords start stop bag with
      | .error e => .error e
      | .ok bag => walkRecords next limit bag
  else .ok bag
termination_by view.byteLength - offset
decreasing_by
  all_goals
    obtain ⟨hlt, hbeyond⟩ := readRecord_beyond _hread
    simp only [Turn.Beyond] at hbeyond
    omega

def readMcap : Except BagError Bag :=
  -- a file shorter than the magic does not begin with it either
  if view.bytes.take MAGIC.length ≠ MAGIC then .error notMcap
  else walkRecords decode view MAGIC.length view.byteLength {}

end Questix.LabPage.Mcap
