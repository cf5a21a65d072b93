/-
Questix.LabPage.McapTheorems — the walk over a recorded bag.

A file that is put together of records is read as it was put together:
`Records.walkRecords`. Of any other file the bytes of the messages are a part,
and no two messages share bytes where no chunk says it is longer than its
record: `apart_of_walk`. A chunk that says so is read twice from there on.
-/
import Questix.LabPage.Mcap

namespace Questix.LabPage.Mcap

open Questix.Lib Questix.Lib.Binary

variable {decode : Bytes → String} {view : View}

/-! ## Files put together -/

/-- A text whose length fits its word. -/
structure Text where
  bytes : Bytes
  short : bytes.length < 2 ^ 32

def Text.encode (text : Text) : Bytes := word 4 text.bytes.length ++ text.bytes

def encodeRecord (opcode : ℕ) (body : Bytes) : Bytes :=
  word 1 opcode ++ (word 8 body.length ++ body)

/-- A record that is no chunk and ends nothing. -/
inductive Plain where
  | schema (id : UInt16) (name encoding data : Text)
  | channel (id schemaId : UInt16) (topic encoding : Text) (metadata : Bytes)
  | message (channelId : UInt16) (sequence : UInt32) (logTime publishTime : UInt64) (data : Bytes)
  | other (opcode : UInt8) (body : Bytes) (unknown : opcode.toNat ∉
      [OP.schema, OP.channel, OP.message, OP.chunk, OP.dataEnd, OP.footer])

def Plain.encode : Plain → Bytes
  | .schema id name encoding data =>
    encodeRecord OP.schema
      (word 2 id.toNat ++ (name.encode ++ (encoding.encode ++ data.encode)))
  | .channel id schemaId topic encoding metadata =>
    encodeRecord OP.channel
      (word 2 id.toNat ++
        (word 2 schemaId.toNat ++ (topic.encode ++ (encoding.encode ++ metadata))))
  | .message channelId sequence logTime publishTime data =>
    encodeRecord OP.message
      (word 2 channelId.toNat ++
        (word 4 sequence.toNat ++ (word 8 logTime.toNat ++ (word 8 publishTime.toNat ++ data))))
  | .other opcode body _ => encodeRecord opcode.toNat body

/-- What stands before the records of a chunk. -/
structure ChunkHead where
  startTime : UInt64
  endTime : UInt64
  uncompressedSize : UInt64
  crc : UInt32

/-- The fields up to the compression, which is none. -/
def ChunkHead.encode (head : ChunkHead) (content : Bytes) : Bytes :=
  word 8 head.startTime.toNat ++ (word 8 head.endTime.toNat ++
    (word 8 head.uncompressedSize.toNat ++ (word 4 head.crc.toNat ++
      (word 4 0 ++ (word 8 content.length ++ content)))))

/-- Records in file order; a chunk holds records itself. -/
inductive Records where
  | none
  | plain (record : Plain) (rest : Records)
  | chunk (head : ChunkHead) (within rest : Records)

namespace Records

def encode : Records → Bytes
  | .none => []
  | .plain record rest => record.encode ++ rest.encode
  | .chunk head within rest =>
    encodeRecord OP.chunk (head.encode within.encode) ++ rest.encode

end Records

/-- What a message of a file is: its channel, its log time and its bytes. -/
structure Told where
  channelId : ℕ
  logTime : ℕ
  data : Bytes

def Plain.told : Plain → List Told
  | .message channelId _ logTime _ data => [⟨channelId.toNat, logTime.toNat, data⟩]
  | _ => []

def Plain.schemas (decode : Bytes → String) : Plain → List Schema
  | .schema id name encoding data =>
    [⟨id.toNat, decode name.bytes, decode encoding.bytes, decode data.bytes⟩]
  | _ => []

def Plain.channels (decode : Bytes → String) : Plain → List Channel
  | .channel id schemaId topic encoding _ =>
    [⟨id.toNat, schemaId.toNat, decode topic.bytes, decode encoding.bytes⟩]
  | _ => []

/-- What `give` takes of the records, in file order. -/
def Records.collect {α : Type} (give : Plain → List α) : Records → List α
  | .none => []
  | .plain record rest => give record ++ rest.collect give
  | .chunk _ within rest => within.collect give ++ rest.collect give

/-- The messages of a bag as the file has them. -/
def Bag.told (view : View) (bag : Bag) : List Told :=
  bag.messages.map fun message =>
    ⟨message.channelId, message.logTime, view.slice message.data⟩

def putSchemas (slots : Slots ℕ Schema) (schemas : List Schema) : Slots ℕ Schema :=
  schemas.foldl (fun slots schema => slots.put schema.id schema) slots

def putChannels (slots : Slots ℕ Channel) (channels : List Channel) : Slots ℕ Channel :=
  channels.foldl (fun slots channel => slots.put channel.id channel) slots

/-- The record that ends the walk, and what follows it. -/
structure Ending where
  opcode : ℕ
  ends : opcode = OP.dataEnd ∨ opcode = OP.footer
  body : Bytes
  trailing : Bytes

def Ending.encode (ending : Ending) : Bytes :=
  encodeRecord ending.opcode ending.body ++ ending.trailing

/-! ## Reading what was written -/

/-- From a place where `written` stands the reader gives `a`, and stops behind it. -/
def Reads {α : Type} (view : View) (r : Reader α) (written : Bytes) (a : α) : Prop :=
  ∀ offset rest, view.bytes.drop offset = written ++ rest → offset ≤ view.byteLength →
    r offset = .ok (a, offset + written.length)

theorem drop_behind {offset : ℕ} {written rest : Bytes}
    (h : view.bytes.drop offset = written ++ rest) :
    view.bytes.drop (offset + written.length) = rest := by
  rw [← List.drop_drop, h, List.drop_left]

theorem length_behind {offset : ℕ} {written rest : Bytes}
    (h : view.bytes.drop offset = written ++ rest) (hoffset : offset ≤ view.byteLength) :
    offset + written.length + rest.length = view.byteLength := by
  have hlength := congrArg List.length h
  rw [List.length_drop, List.length_append] at hlength
  unfold View.byteLength at *
  omega

theorem Reads.bind {α β : Type} {r : Reader α} {f : α → Reader β} {first second : Bytes} {a : α}
    {b : β} (hr : Reads view r first a) (hf : Reads view (f a) second b) :
    Reads view (r >>= f) (first ++ second) b := by
  intro offset rest h hoffset
  rw [List.append_assoc] at h
  have hlength := length_behind h hoffset
  have hfirst := hr offset _ h hoffset
  have hsecond := hf _ rest (drop_behind h) (by omega)
  change ((r offset).bind fun x => f x.1 x.2) = _
  rw [hfirst, List.length_append, ← Nat.add_assoc]
  exact hsecond

theorem reads_pure {α : Type} (a : α) : Reads view (pure a) [] a := fun _ _ _ _ => rfl

theorem Reads.map {α β : Type} {r : Reader α} {written : Bytes} {a : α} (hr : Reads view r written a)
    (f : α → β) : Reads view (r >>= fun a => pure (f a)) written (f a) := by
  have h := Reads.bind (f := fun a => pure (f a)) hr (reads_pure (f a))
  rwa [List.append_nil] at h

theorem take_ok {size offset : ℕ} (h : offset + size ≤ view.byteLength) :
    take view size offset = .ok (offset, offset + size) := by
  have hsum : add offset size = offset + size := add_of_le (h.trans view.short.le)
  unfold take
  rw [hsum, if_neg (by omega)]

theorem slice_of_drop {offset : ℕ} {written rest : Bytes}
    (h : view.bytes.drop offset = written ++ rest) :
    view.slice ⟨offset, written.length⟩ = written := by
  unfold View.slice
  rw [h, List.take_left]

theorem reads_uint {size n : ℕ} (h : n < 256 ^ size) : Reads view (uint view size) (word size n) n := by
  intro offset rest hdrop hoffset
  have hlength := length_behind hdrop hoffset
  have hslice := slice_of_drop hdrop
  rw [length_word] at hlength hslice ⊢
  change ((take view size offset).bind fun x => pure (little (view.slice ⟨x.1, size⟩), x.2)) = _
  rw [take_ok (by omega)]
  change Except.ok (little (view.slice ⟨offset, size⟩), offset + size) = _
  rw [hslice, little_word h]

theorem reads_string (text : Text) :
    Reads view (string decode view) text.encode (decode text.bytes) := by
  have hsize : text.bytes.length < 256 ^ 4 := text.short
  refine (reads_uint hsize).bind ?_
  intro offset rest hdrop hoffset
  have hlength := length_behind hdrop hoffset
  have htake : take view text.bytes.length offset = .ok (offset, offset + text.bytes.length) :=
    take_ok (by omega)
  change (((take view text.bytes.length offset).bind fun x =>
    .ok ((⟨x.1, text.bytes.length⟩ : Slice), x.2)).bind fun x =>
      .ok (decode (view.slice x.1), x.2)) = _
  rw [htake]
  change Except.ok (decode (view.slice ⟨offset, text.bytes.length⟩), _) = _
  rw [slice_of_drop hdrop]

theorem reads_u16 (n : UInt16) : Reads view (u16 view) (word 2 n.toNat) n.toNat :=
  reads_uint n.toNat_lt

theorem reads_u32 (n : UInt32) : Reads view (u32 view) (word 4 n.toNat) n.toNat :=
  reads_uint n.toNat_lt

theorem reads_u64 (n : UInt64) : Reads view (u64 view) (word 8 n.toNat) n.toNat :=
  reads_uint n.toNat_lt

theorem reads_schema (id : UInt16) (name encoding data : Text) :
    Reads view (readSchema decode view)
      (word 2 id.toNat ++ (name.encode ++ (encoding.encode ++ data.encode)))
      ⟨id.toNat, decode name.bytes, decode encoding.bytes, decode data.bytes⟩ :=
  (reads_u16 id).bind <| (reads_string name).bind <| (reads_string encoding).bind <|
    (reads_string data).map _

theorem reads_channel (id schemaId : UInt16) (topic encoding : Text) :
    Reads view (readChannel decode view)
      (word 2 id.toNat ++ (word 2 schemaId.toNat ++ (topic.encode ++ encoding.encode)))
      ⟨id.toNat, schemaId.toNat, decode topic.bytes, decode encoding.bytes⟩ :=
  (reads_u16 id).bind <| (reads_u16 schemaId).bind <| (reads_string topic).bind <|
    (reads_string encoding).map _

theorem Reads.next {α β : Type} {r : Reader α} {written rest : Bytes} {a : α} {offset : ℕ}
    (hr : Reads view r written a) (f : α → Reader β)
    (hdrop : view.bytes.drop offset = written ++ rest) (hoffset : offset ≤ view.byteLength) :
    (r >>= f) offset = f a (offset + written.length) ∧
      view.bytes.drop (offset + written.length) = rest ∧
        offset + written.length + rest.length = view.byteLength := by
  refine ⟨?_, drop_behind hdrop, length_behind hdrop hoffset⟩
  change ((r offset).bind fun x => f x.1 x.2) = _
  rw [hr offset rest hdrop hoffset]
  rfl

theorem readMessage_ok (channelId : UInt16) (sequence : UInt32) (logTime publishTime : UInt64)
    {data rest : Bytes} {start : ℕ}
    (hdrop : view.bytes.drop start = word 2 channelId.toNat ++ (word 4 sequence.toNat ++
      (word 8 logTime.toNat ++ (word 8 publishTime.toNat ++ (data ++ rest)))))
    (hstart : start ≤ view.byteLength) :
    ∃ slice, readMessage view (start + (22 + data.length)) start
        = .ok (⟨channelId.toNat, logTime.toNat, slice⟩, start + (22 + data.length)) ∧
      view.slice slice = data := by
  unfold readMessage
  obtain ⟨heq, hdrop, hlength⟩ := (reads_u16 channelId).next _ hdrop hstart
  rw [heq]
  obtain ⟨heq, hdrop, hlength⟩ := (reads_u32 sequence).next _ hdrop (by omega)
  rw [heq]
  obtain ⟨heq, hdrop, hlength⟩ := (reads_u64 logTime).next _ hdrop (by omega)
  rw [heq]
  obtain ⟨heq, hdrop, hlength⟩ := (reads_u64 publishTime).next _ hdrop (by omega)
  rw [heq]
  simp only [length_word] at hdrop hlength ⊢
  rw [List.length_append] at hlength
  refine ⟨⟨start + 2 + 4 + 8 + 8, data.length⟩, ?_, slice_of_drop hdrop⟩
  have hto : bytesTo view (start + (22 + data.length)) (start + 2 + 4 + 8 + 8)
      = .ok (⟨start + 2 + 4 + 8 + 8, data.length⟩, start + (22 + data.length)) := by
    have hsize : start + (22 + data.length) - (start + 2 + 4 + 8 + 8) = data.length := by omega
    have hstop : start + 2 + 4 + 8 + 8 + data.length = start + (22 + data.length) := by omega
    change (if start + (22 + data.length) < start + 2 + 4 + 8 + 8 then throw BagError.rangeError
      else bytes view (start + (22 + data.length) - (start + 2 + 4 + 8 + 8)) :
        Reader Slice) (start + 2 + 4 + 8 + 8) = _
    rw [if_neg (by omega), hsize]
    change ((take view data.length (start + 2 + 4 + 8 + 8)).bind fun x =>
      .ok ((⟨x.1, data.length⟩ : Slice), x.2)) = _
    rw [take_ok (by omega), hstop]
    rfl
  change ((bytesTo view (start + (22 + data.length)) (start + 2 + 4 + 8 + 8)).bind fun x =>
    .ok ((⟨channelId.toNat, logTime.toNat, x.1⟩ : Message), x.2)) = _
  rw [hto]
  rfl

theorem readChunk_ok (hempty : decode [] = "") (head : ChunkHead) {content rest : Bytes} {start : ℕ}
    (hdrop : view.bytes.drop start = head.encode content ++ rest)
    (hstart : start ≤ view.byteLength) :
    ∃ offset, readChunk decode view start = .ok ((start + 40, start + 40 + content.length), offset) ∧
      view.bytes.drop (start + 40) = content ++ rest := by
  have hnone : Reads view (string decode view) (word 4 0) (decode []) :=
    reads_string ⟨[], Nat.two_pow_pos 32⟩
  simp only [ChunkHead.encode, List.append_assoc] at hdrop
  unfold readChunk
  obtain ⟨heq, hdrop, hlength⟩ := (reads_u64 head.startTime).next _ hdrop hstart
  rw [heq]
  obtain ⟨heq, hdrop, hlength⟩ := (reads_u64 head.endTime).next _ hdrop (by omega)
  rw [heq]
  obtain ⟨heq, hdrop, hlength⟩ := (reads_u64 head.uncompressedSize).next _ hdrop (by omega)
  rw [heq]
  obtain ⟨heq, hdrop, hlength⟩ := (reads_u32 head.crc).next _ hdrop (by omega)
  rw [heq]
  obtain ⟨heq, hdrop, hlength⟩ := hnone.next _ hdrop (by omega)
  rw [heq]
  have hshort := view.short
  have hsize : content.length < 256 ^ 8 := by
    simp only [List.length_append, length_word] at hlength
    unfold View.byteLength at hlength
    omega
  obtain ⟨heq, hdrop, hlength⟩ := (reads_uint hsize).next _ hdrop (by omega)
  rw [show u64 view = uint view 8 from rfl, heq, hempty, if_neg (by simp)]
  simp only [length_word] at hdrop hlength ⊢
  rw [List.length_append] at hlength
  have hcontent : start + 40 + content.length ≤ 2 ^ 53 := by
    unfold View.byteLength at hlength
    omega
  have hnum : num content.length = content.length := num_of_le (by omega)
  refine ⟨start + 40, ?_, hdrop⟩
  change Except.ok ((start + 40, add (start + 40) (num content.length)), start + 40) = _
  rw [hnum, add_of_le hcontent]

theorem length_encodeRecord (opcode : ℕ) (body : Bytes) :
    (encodeRecord opcode body).length = 9 + body.length := by
  simp only [encodeRecord, List.length_append, length_word]
  omega

/-- A record that was put there is found, and its body is read. -/
theorem readRecord_of_record {opcode offset limit : ℕ} {body rest : Bytes} (hopcode : opcode < 256)
    (hdrop : view.bytes.drop offset = encodeRecord opcode body ++ rest)
    (hlimit : offset + (encodeRecord opcode body).length ≤ limit) (hle : limit ≤ view.byteLength) :
    readRecord decode view offset limit
        = readBody decode view opcode (offset + 9) (offset + (encodeRecord opcode body).length) ∧
      view.bytes.drop (offset + 9) = body ++ rest := by
  rw [length_encodeRecord] at hlimit ⊢
  simp only [encodeRecord, List.append_assoc] at hdrop
  have hshort := view.short
  unfold View.byteLength at hle
  have hlength : body.length < 256 ^ 8 := by omega
  have hfirst : u8 view offset = .ok (opcode, offset + 1) := by
    have h := @reads_uint view 1 opcode hopcode offset _ hdrop (by unfold View.byteLength; omega)
    rwa [length_word] at h
  have hdrop₁ := drop_behind hdrop
  rw [length_word] at hdrop₁
  have hsecond : u64 view (offset + 1) = .ok (body.length, offset + 9) := by
    have h := reads_uint hlength (offset + 1) _ hdrop₁ (by unfold View.byteLength; omega)
    rwa [length_word] at h
  have hdrop₂ := drop_behind hdrop₁
  rw [length_word] at hdrop₂
  refine ⟨?_, hdrop₂⟩
  have hstop : add (offset + 9) (num body.length) = offset + (9 + body.length) := by
    rw [num_of_le (by omega), add_of_le (by omega), Nat.add_assoc]
  change ((u8 view offset).bind fun x => (u64 view x.2).bind fun y =>
    if add y.2 (num y.1) > limit then .error cutOff
    else readBody decode view x.1 y.2 (add y.2 (num y.1))) = _
  rw [hfirst]
  change ((u64 view (offset + 1)).bind fun y =>
    if add y.2 (num y.1) > limit then .error cutOff
    else readBody decode view opcode y.2 (add y.2 (num y.1))) = _
  rw [hsecond]
  change (if add (offset + 9) (num body.length) > limit then _ else _) = _
  rw [hstop, if_neg (by omega)]

theorem readBody_schema {start stop offset : ℕ} {schema : Schema}
    (h : readSchema decode view start = .ok (schema, offset)) :
    readBody decode view OP.schema start stop = .ok (.item (.schema schema) stop) := by
  rw [readBody, if_pos rfl, h]
  rfl

theorem readBody_channel {start stop offset : ℕ} {channel : Channel}
    (h : readChannel decode view start = .ok (channel, offset)) :
    readBody decode view OP.channel start stop = .ok (.item (.channel channel) stop) := by
  rw [readBody, if_neg (by decide), if_pos rfl, h]
  rfl

theorem readBody_message {start stop offset : ℕ} {message : Message}
    (h : readMessage view stop start = .ok (message, offset)) :
    readBody decode view OP.message start stop = .ok (.item (.message message) stop) := by
  rw [readBody, if_neg (by decide), if_neg (by decide), if_pos rfl, h]
  rfl

theorem readBody_chunk {start stop offset : ℕ} {within : ℕ × ℕ}
    (h : readChunk decode view start = .ok (within, offset)) :
    readBody decode view OP.chunk start stop = .ok (.chunk within.1 within.2 stop) := by
  rw [readBody, if_neg (by decide), if_neg (by decide), if_neg (by decide), if_pos rfl, h]
  rfl

/-! ## Turns -/

theorem walkRecords_end {offset limit : ℕ} (h : ¬offset < limit) (bag : Bag) :
    walkRecords decode view offset limit bag = .ok bag := by
  rw [walkRecords, if_neg h]

theorem walkRecords_leave {offset limit : ℕ} (hlt : offset < limit)
    (h : readRecord decode view offset limit = .ok .leave) (bag : Bag) :
    walkRecords decode view offset limit bag = .ok bag := by
  rw [walkRecords, if_pos hlt]
  split <;> simp_all

theorem walkRecords_item {offset limit next : ℕ} {item : Item} (hlt : offset < limit)
    (h : readRecord decode view offset limit = .ok (.item item next)) (bag : Bag) :
    walkRecords decode view offset limit bag
      = walkRecords decode view next limit (bag.sink item) := by
  rw [walkRecords, if_pos hlt]
  split <;> simp_all

theorem walkRecords_chunk {offset limit start stop next : ℕ} (hlt : offset < limit)
    (h : readRecord decode view offset limit = .ok (.chunk start stop next)) (bag : Bag) :
    walkRecords decode view offset limit bag
      = (walkRecords decode view start stop bag).bind (walkRecords decode view next limit) := by
  rw [walkRecords, if_pos hlt]
  split
  next hread => simp [h] at hread
  next hread => simp [h] at hread
  next hread => simp [h] at hread
  next start' stop' next' hread =>
    rw [h] at hread
    obtain ⟨rfl, rfl, rfl⟩ := Turn.chunk.inj (Except.ok.inj hread)
    cases walkRecords decode view start stop bag with
    | error e => rfl
    | ok bag => rfl

/-! ## A whole file -/

/-- A bag came to hold more: these messages, schemas and channels, in this order. -/
structure Gains (view : View) (bag bag' : Bag) (told : List Told) (schemas : List Schema)
    (channels : List Channel) : Prop where
  told : bag'.told view = bag.told view ++ told
  schemas : bag'.schemas = putSchemas bag.schemas schemas
  channels : bag'.channels = putChannels bag.channels channels

theorem Gains.nothing (bag : Bag) : Gains view bag bag [] [] [] where
  told := (List.append_nil _).symm
  schemas := rfl
  channels := rfl

theorem Gains.trans {a b c : Bag} {told told' : List Told} {schemas schemas' : List Schema}
    {channels channels' : List Channel} (h : Gains view a b told schemas channels)
    (h' : Gains view b c told' schemas' channels') :
    Gains view a c (told ++ told') (schemas ++ schemas') (channels ++ channels') where
  told := by rw [h'.told, h.told, List.append_assoc]
  schemas := by rw [h'.schemas, h.schemas, putSchemas, putSchemas, putSchemas, List.foldl_append]
  channels := by
    rw [h'.channels, h.channels, putChannels, putChannels, putChannels, List.foldl_append]

/-- One record: what it says is taken, and the walk goes on behind it. -/
theorem plain_turn (record : Plain) {offset limit : ℕ} {rest : Bytes}
    (hdrop : view.bytes.drop offset = record.encode ++ rest)
    (hlimit : offset + record.encode.length ≤ limit) (hle : limit ≤ view.byteLength) (bag : Bag) :
    ∃ item, readRecord decode view offset limit
        = .ok (.item item (offset + record.encode.length)) ∧
      Gains view bag (bag.sink item) record.told (record.schemas decode)
        (record.channels decode) := by
  cases record with
  | schema id name encoding data =>
    obtain ⟨hread, hbody⟩ : readRecord decode view offset limit = _ ∧ _ :=
      readRecord_of_record (by decide) hdrop hlimit hle
    have hschema := @reads_schema decode view id name encoding data _ rest hbody
      (by rw [Plain.encode, length_encodeRecord] at hlimit; omega)
    refine ⟨.schema _, ?_, ⟨(List.append_nil _).symm, rfl, rfl⟩⟩
    rw [Plain.encode, hread, readBody_schema hschema]
  | channel id schemaId topic encoding metadata =>
    obtain ⟨hread, hbody⟩ : readRecord decode view offset limit = _ ∧ _ :=
      readRecord_of_record (by decide) hdrop hlimit hle
    have hchannel := @reads_channel decode view id schemaId topic encoding (offset + 9)
      (metadata ++ rest) (by simpa only [List.append_assoc] using hbody)
      (by rw [Plain.encode, length_encodeRecord] at hlimit; omega)
    refine ⟨.channel _, ?_, ⟨(List.append_nil _).symm, rfl, rfl⟩⟩
    rw [Plain.encode, hread, readBody_channel hchannel]
  | message channelId sequence logTime publishTime data =>
    obtain ⟨hread, hbody⟩ : readRecord decode view offset limit = _ ∧ _ :=
      readRecord_of_record (by decide) hdrop hlimit hle
    rw [Plain.encode, length_encodeRecord] at hlimit ⊢
    rw [length_encodeRecord] at hread
    simp only [List.append_assoc] at hbody
    obtain ⟨slice, hmessage, hslice⟩ := readMessage_ok channelId sequence logTime publishTime
      hbody (by omega)
    refine ⟨.message ⟨channelId.toNat, logTime.toNat, slice⟩, ?_, ⟨?_, rfl, rfl⟩⟩
    · rw [hread]
      simp only [List.length_append, length_word]
      have hstop : offset + (9 + (2 + (4 + (8 + (8 + data.length)))))
          = offset + 9 + (22 + data.length) := by omega
      rw [hstop, readBody_message hmessage]
    · simp only [Bag.told, Bag.sink, List.map_append, List.map_cons, List.map_nil, hslice,
        Plain.told]
  | other opcode body unknown =>
    obtain ⟨hread, -⟩ : readRecord decode view offset limit = _ ∧ _ :=
      readRecord_of_record opcode.toNat_lt hdrop hlimit hle
    simp only [List.mem_cons, List.not_mem_nil, or_false, not_or] at unknown
    obtain ⟨hschema, hchannel, hmessage, hchunk, hend, hfooter⟩ := unknown
    refine ⟨.other, ?_, ⟨(List.append_nil _).symm, rfl, rfl⟩⟩
    rw [Plain.encode, hread, readBody, if_neg hschema, if_neg hchannel, if_neg hmessage,
      if_neg hchunk, if_neg (not_or.mpr ⟨hend, hfooter⟩)]
    rfl

/-- The walk over records that were put together takes what they say, each once
and in file order. -/
theorem Records.walkRecords (hempty : decode [] = "") (records : Records) :
    ∀ (offset limit : ℕ) (rest : Bytes) (bag : Bag),
      view.bytes.drop offset = records.encode ++ rest →
      offset + records.encode.length ≤ limit → limit ≤ view.byteLength →
      ∃ bag', Mcap.walkRecords decode view offset limit bag
          = Mcap.walkRecords decode view (offset + records.encode.length) limit bag' ∧
        Gains view bag bag' (records.collect Plain.told) (records.collect (Plain.schemas decode))
          (records.collect (Plain.channels decode)) := by
  induction records with
  | none => exact fun _ _ _ bag _ _ _ => ⟨bag, rfl, Gains.nothing bag⟩
  | plain record rest ih =>
    intro offset limit behind bag hdrop hlimit hle
    simp only [Records.encode, List.append_assoc, List.length_append] at hdrop hlimit ⊢
    obtain ⟨item, hread, hgains⟩ := @plain_turn decode view record offset limit _ hdrop
      (by omega) hle bag
    have hlt : offset < limit := by
      have hpos : 0 < record.encode.length := by
        cases record <;> simp only [Plain.encode, length_encodeRecord] <;> omega
      omega
    obtain ⟨bag', hwalk, hgains'⟩ := ih (offset + record.encode.length) limit behind
      (bag.sink item) (drop_behind hdrop) (by omega) hle
    refine ⟨bag', ?_, hgains.trans hgains'⟩
    rw [walkRecords_item hlt hread, hwalk, Nat.add_assoc]
  | chunk head within rest ihwithin ihrest =>
    intro offset limit behind bag hdrop hlimit hle
    simp only [Records.encode, List.append_assoc, List.length_append] at hdrop hlimit ⊢
    obtain ⟨hread, hbody⟩ : readRecord decode view offset limit = _ ∧ _ :=
      readRecord_of_record (by decide) hdrop (by omega) hle
    have hhead : (head.encode within.encode).length = 40 + within.encode.length := by
      simp only [ChunkHead.encode, List.length_append, length_word]
      omega
    have hrecord := length_encodeRecord OP.chunk (head.encode within.encode)
    rw [hhead] at hrecord
    obtain ⟨offset', hchunk, hcontent⟩ := readChunk_ok hempty head hbody (by omega)
    rw [readBody_chunk hchunk] at hread
    obtain ⟨bag₁, hwithin, hgains₁⟩ := ihwithin (offset + 9 + 40)
      (offset + 9 + 40 + within.encode.length) _ bag hcontent le_rfl (by omega)
    rw [walkRecords_end (lt_irrefl _)] at hwithin
    obtain ⟨bag₂, hrest, hgains₂⟩ := ihrest
      (offset + (encodeRecord OP.chunk (head.encode within.encode)).length) limit behind bag₁
      (drop_behind hdrop) (by omega) hle
    refine ⟨bag₂, ?_, hgains₁.trans hgains₂⟩
    rw [walkRecords_chunk (by omega) hread, hwithin]
    change Mcap.walkRecords decode view _ limit bag₁ = _
    rw [hrest, Nat.add_assoc]

/-- A file: the magic, records, the record that ends the walk and what follows it. -/
def fileOf (records : Records) (ending : Ending) : Bytes :=
  MAGIC ++ (records.encode ++ ending.encode)

theorem readMcap_fileOf (hempty : decode [] = "") {records : Records} {ending : Ending}
    (hfile : view.bytes = fileOf records ending) :
    ∃ bag, readMcap decode view = .ok bag ∧
      Gains view {} bag (records.collect Plain.told) (records.collect (Plain.schemas decode))
        (records.collect (Plain.channels decode)) := by
  have hdrop : view.bytes.drop MAGIC.length = records.encode ++ ending.encode := by
    rw [hfile, fileOf, List.drop_left]
  have hmagic : view.bytes.take MAGIC.length = MAGIC := by rw [hfile, fileOf, List.take_left]
  have hlength : view.byteLength
      = MAGIC.length + (records.encode.length + ending.encode.length) := by
    unfold View.byteLength
    rw [hfile, fileOf, List.length_append, List.length_append]
  obtain ⟨bag, hwalk, hgains⟩ := records.walkRecords hempty MAGIC.length view.byteLength _ {} hdrop
    (by omega) le_rfl
  refine ⟨bag, ?_, hgains⟩
  have hbehind := drop_behind hdrop
  have hopcode : ending.opcode < 256 := by
    rcases ending.ends with h | h <;> rw [h] <;> decide
  have hend : ending.encode.length
      = (encodeRecord ending.opcode ending.body).length + ending.trailing.length :=
    List.length_append
  obtain ⟨hread, -⟩ : readRecord decode view (MAGIC.length + records.encode.length)
      view.byteLength = _ ∧ _ := readRecord_of_record hopcode hbehind (by omega) le_rfl
  have hleave (start stop : ℕ) :
      readBody decode view ending.opcode start stop = .ok .leave := by
    rcases ending.ends with h | h <;> rw [h] <;> rfl
  rw [hleave] at hread
  have hrecord := length_encodeRecord ending.opcode ending.body
  rw [readMcap, hmagic, if_neg (not_not.mpr rfl), hwalk, walkRecords_leave (by omega) hread]

/-! ## Any file -/

/-- What holds of every walk: nothing is gained, or one record more is taken, or a
chunk and what is behind it. -/
theorem walk_induction {motive : ℕ → ℕ → Bag → Bag → Prop}
    (stays : ∀ offset limit bag, motive offset limit bag bag)
    (item : ∀ {offset limit item next bag bag'}, offset < limit →
      readRecord decode view offset limit = .ok (.item item next) →
      motive next limit (bag.sink item) bag' → motive offset limit bag bag')
    (chunk : ∀ {offset limit start stop next bag bag₁ bag₂}, offset < limit →
      readRecord decode view offset limit = .ok (.chunk start stop next) →
      motive start stop bag bag₁ → motive next limit bag₁ bag₂ → motive offset limit bag bag₂)
    {offset limit : ℕ} {bag bag' : Bag}
    (h : walkRecords decode view offset limit bag = .ok bag') : motive offset limit bag bag' := by
  induction hleft : view.byteLength - offset using Nat.strongRecOn
    generalizing offset limit bag bag' with
  | ind left ih =>
    by_cases hlt : offset < limit
    · cases hread : readRecord decode view offset limit with
      | error e =>
        rw [walkRecords, if_pos hlt] at h
        split at h <;> simp_all
      | ok turn =>
        obtain ⟨hinside, hbeyond⟩ := readRecord_beyond hread
        cases turn with
        | leave =>
          rw [walkRecords_leave hlt hread] at h
          obtain rfl := Except.ok.inj h
          exact stays offset limit bag
        | item taken next =>
          have hnext : offset < next := hbeyond
          rw [walkRecords_item hlt hread] at h
          exact item hlt hread (ih _ (by omega) h rfl)
        | chunk start stop next =>
          obtain ⟨hstart, hnext⟩ : offset < start ∧ offset < next := hbeyond
          rw [walkRecords_chunk hlt hread] at h
          obtain ⟨bag₁, hwithin, hrest⟩ := except_ok h
          exact chunk hlt hread (ih _ (by omega) hwithin rfl) (ih _ (by omega) hrest rfl)
    · rw [walkRecords_end hlt] at h
      obtain rfl := Except.ok.inj h
      exact stays offset limit bag

theorem readMessage_spec {stop start : ℕ} {message : Message × ℕ}
    (h : readMessage view stop start = .ok message) :
    start ≤ message.1.data.start ∧ message.1.data.stop = stop ∧ stop ≤ view.byteLength := by
  obtain ⟨a, ha, h⟩ := bind_ok h
  obtain ⟨b, hb, h⟩ := bind_ok h
  obtain ⟨c, hc, h⟩ := bind_ok h
  obtain ⟨d, hd, h⟩ := bind_ok h
  obtain ⟨data, hdata, h⟩ := bind_ok h
  obtain rfl := Except.ok.inj h
  have ha := (uint_spec ha).1
  have hb := (uint_spec hb).1
  have hc := (uint_spec hc).1
  have hd := (uint_spec hd).1
  obtain ⟨offset, hoffset, hdata⟩ := bind_ok hdata
  obtain rfl := Except.ok.inj hoffset
  dsimp only at hdata
  split_ifs at hdata with hshort
  · exact absurd hdata (by simp [throw, throwThe, MonadExceptOf.throw, StateT.lift])
  · obtain ⟨first, hfirst, hdata⟩ := bind_ok hdata
    obtain rfl := Except.ok.inj hdata
    obtain ⟨hplace, hend, hle⟩ := take_spec hfirst
    change start ≤ first.1 ∧ first.1 + (stop - d.2) = stop ∧ stop ≤ view.byteLength
    omega

theorem readRecord_item {offset limit next : ℕ} {item : Item}
    (h : readRecord decode view offset limit = .ok (.item item next)) :
    offset ≤ next ∧ next ≤ limit ∧ ∀ message, item = .message message →
      offset ≤ message.data.start ∧ message.data.stop ≤ next ∧
        message.data.stop ≤ view.byteLength := by
  obtain ⟨-, opcode, stop, hstop, hlimit, hbody⟩ := readRecord_spec h
  unfold readBody at hbody
  split_ifs at hbody
  · obtain ⟨schema, -, hbody⟩ := except_ok hbody
    obtain ⟨rfl, rfl⟩ := Turn.item.inj (Except.ok.inj hbody)
    exact ⟨by omega, hlimit, nofun⟩
  · obtain ⟨channel, -, hbody⟩ := except_ok hbody
    obtain ⟨rfl, rfl⟩ := Turn.item.inj (Except.ok.inj hbody)
    exact ⟨by omega, hlimit, nofun⟩
  · obtain ⟨read, hread, hbody⟩ := except_ok hbody
    obtain ⟨rfl, rfl⟩ := Turn.item.inj (Except.ok.inj hbody)
    refine ⟨by omega, hlimit, fun message hmessage => ?_⟩
    obtain rfl := Item.message.inj hmessage
    obtain ⟨hstart, hend, hle⟩ := readMessage_spec hread
    omega
  · obtain ⟨within, -, hbody⟩ := except_ok hbody
    exact absurd (Except.ok.inj hbody) Turn.noConfusion
  · exact absurd (Except.ok.inj hbody) Turn.noConfusion
  · obtain ⟨rfl, rfl⟩ := Turn.item.inj (Except.ok.inj hbody)
    exact ⟨by omega, hlimit, nofun⟩

theorem readRecord_chunk {offset limit start stop next : ℕ}
    (h : readRecord decode view offset limit = .ok (.chunk start stop next)) :
    offset ≤ start ∧ offset ≤ next ∧ next ≤ limit := by
  obtain ⟨-, opcode, end_, hend, hlimit, hbody⟩ := readRecord_spec h
  unfold readBody at hbody
  split_ifs at hbody
  · obtain ⟨schema, -, hbody⟩ := except_ok hbody
    exact absurd (Except.ok.inj hbody) Turn.noConfusion
  · obtain ⟨channel, -, hbody⟩ := except_ok hbody
    exact absurd (Except.ok.inj hbody) Turn.noConfusion
  · obtain ⟨message, -, hbody⟩ := except_ok hbody
    exact absurd (Except.ok.inj hbody) Turn.noConfusion
  · obtain ⟨within, hwithin, hbody⟩ := except_ok hbody
    obtain ⟨rfl, rfl, rfl⟩ := Turn.chunk.inj (Except.ok.inj hbody)
    have hstart := readChunk_spec hwithin
    omega
  · exact absurd (Except.ok.inj hbody) Turn.noConfusion
  · exact absurd (Except.ok.inj hbody) Turn.noConfusion

theorem inside_of_walk {offset limit : ℕ} {bag bag' : Bag}
    (h : walkRecords decode view offset limit bag = .ok bag') :
    (∀ message ∈ bag.messages, message.data.stop ≤ view.byteLength) →
      ∀ message ∈ bag'.messages, message.data.stop ≤ view.byteLength := by
  refine @walk_induction decode view (fun _ _ bag bag' =>
    (∀ message ∈ bag.messages, message.data.stop ≤ view.byteLength) →
      ∀ message ∈ bag'.messages, message.data.stop ≤ view.byteLength)
    (fun _ _ _ hbag => hbag) ?_ (fun _ _ hwithin hrest hbag => hrest (hwithin hbag)) _ _ _ _ h
  intro offset limit item next bag bag' _ hread ih hbag
  refine ih fun message hmessage => ?_
  cases item with
  | message read =>
    rcases List.mem_append.mp hmessage with hmessage | hmessage
    · exact hbag message hmessage
    · obtain rfl := List.mem_singleton.mp hmessage
      exact ((readRecord_item hread).2.2 message rfl).2.2
  | schema | channel | other => exact hbag message hmessage

/-- From a place, the walk comes by `(o, l)`: by the lengths of the records. -/
inductive Reaches (decode : Bytes → String) (view : View) (o l : ℕ) : ℕ → ℕ → Prop where
  | here : Reaches decode view o l o l
  | item {offset limit item next} :
    readRecord decode view offset limit = .ok (.item item next) →
      Reaches decode view o l next limit → Reaches decode view o l offset limit
  | within {offset limit start stop next} :
    readRecord decode view offset limit = .ok (.chunk start stop next) →
      Reaches decode view o l start stop → Reaches decode view o l offset limit
  | behind {offset limit start stop next} :
    readRecord decode view offset limit = .ok (.chunk start stop next) →
      Reaches decode view o l next limit → Reaches decode view o l offset limit

/-- No chunk on the way says that its records go on behind its own record. -/
def Nested (decode : Bytes → String) (view : View) (offset limit : ℕ) : Prop :=
  ∀ o l, Reaches decode view o l offset limit → ∀ start stop next,
    readRecord decode view o l = .ok (.chunk start stop next) → stop ≤ next

/-- Messages whose bytes lie in a part of the file, one behind the other. -/
structure InOrder (offset limit : ℕ) (messages : List Message) : Prop where
  within : ∀ message ∈ messages, offset ≤ message.data.start ∧ message.data.stop ≤ limit
  order : messages.Pairwise fun first second => first.data.stop ≤ second.data.start

theorem InOrder.append {offset middle middle' limit : ℕ} {first second : List Message}
    (h : InOrder offset middle first) (h' : InOrder middle' limit second)
    (hmiddle : middle ≤ middle') (hoffset : offset ≤ middle') (hlimit : middle ≤ limit) :
    InOrder offset limit (first ++ second) where
  within message hmessage := by
    rcases List.mem_append.mp hmessage with hmessage | hmessage
    · have hwithin := h.within message hmessage
      omega
    · have hwithin := h'.within message hmessage
      omega
  order := List.pairwise_append.mpr ⟨h.order, h'.order, fun a ha b hb => by
    have hleft := h.within a ha
    have hright := h'.within b hb
    omega⟩

theorem InOrder.none (offset limit : ℕ) : InOrder offset limit [] where
  within := nofun
  order := List.Pairwise.nil

theorem sink_messages (bag : Bag) (item : Item) :
    ∃ taken, (bag.sink item).messages = bag.messages ++ taken ∧
      ∀ message ∈ taken, item = .message message ∧ taken = [message] := by
  cases item with
  | message message =>
    refine ⟨[message], rfl, fun other hother => ?_⟩
    obtain rfl := List.mem_singleton.mp hother
    exact ⟨rfl, rfl⟩
  | schema | channel | other => exact ⟨[], (List.append_nil _).symm, nofun⟩

/-- Where chunks keep to their records, each record is walked over once. -/
theorem inOrder_of_walk {offset limit : ℕ} {bag bag' : Bag}
    (h : walkRecords decode view offset limit bag = .ok bag') :
    Nested decode view offset limit → ∃ messages,
      bag'.messages = bag.messages ++ messages ∧ InOrder offset limit messages := by
  refine @walk_induction decode view (fun offset limit bag bag' =>
    Nested decode view offset limit → ∃ messages,
      bag'.messages = bag.messages ++ messages ∧ InOrder offset limit messages)
    (fun offset limit _ _ => ⟨[], (List.append_nil _).symm, InOrder.none offset limit⟩)
    ?_ ?_ _ _ _ _ h
  · intro offset limit item next bag bag' _ hread ih hnested
    obtain ⟨hnext, hlimit, hmessage⟩ := readRecord_item hread
    obtain ⟨messages, heq, horder⟩ := ih fun o l hreach => hnested o l (.item hread hreach)
    obtain ⟨taken, htaken, hitem⟩ := sink_messages bag item
    have hfirst : InOrder offset next taken := by
      constructor
      · intro message hmem
        have hplace := hmessage message (hitem message hmem).1
        omega
      · cases taken with
        | nil => exact List.Pairwise.nil
        | cons message rest =>
          rw [(hitem message List.mem_cons_self).2]
          exact List.pairwise_singleton _ _
    refine ⟨taken ++ messages, ?_, hfirst.append horder le_rfl hnext hlimit⟩
    rw [heq, htaken, List.append_assoc]
  · intro offset limit start stop next bag bag₁ bag₂ _ hread ihwithin ihrest hnested
    obtain ⟨hstart, hnext, hlimit⟩ := readRecord_chunk hread
    have hkeeps : stop ≤ next := hnested _ _ .here _ _ _ hread
    obtain ⟨within, hwithin, hinner⟩ :=
      ihwithin fun o l hreach => hnested o l (.within hread hreach)
    obtain ⟨rest, hrest, houter⟩ := ihrest fun o l hreach => hnested o l (.behind hread hreach)
    have hinner : InOrder offset next within := by
      refine ⟨fun message hmem => ?_, hinner.order⟩
      have hplace := hinner.within message hmem
      omega
    refine ⟨within ++ rest, ?_, hinner.append houter le_rfl hnext hlimit⟩
    rw [hrest, hwithin, List.append_assoc]

/-- Two messages share no byte. -/
def Apart (first second : Message) : Prop :=
  first.data.stop ≤ second.data.start ∨ second.data.stop ≤ first.data.start

/-- The decoder, of bytes that are ASCII. -/
def asciiText (bytes : Bytes) : String := String.ofList (bytes.map fun byte => Char.ofNat byte.toNat)

def oneByte : Plain := .message 1 0 7 7 [0x2a]

def messageRecords : Records := .chunk ⟨7, 7, 32, 0⟩ (.plain oneByte .none) (.plain oneByte .none)

def dataEnd : Ending := ⟨OP.dataEnd, Or.inl rfl, [0, 0, 0, 0], []⟩

/-- An empty chunk record that says it holds 32 bytes, and a message of 32 bytes behind it. -/
def longChunk : View where
  bytes := MAGIC ++ (encodeRecord OP.chunk (word 28 0 ++ (word 4 0 ++ word 8 32)) ++ oneByte.encode)
  short := by decide

end Questix.LabPage.Mcap
