/-
Questix.LabBridge.RecordStore — the records kept on the robot: the class
`RecordStore` of `records.py`.

The directory is a finite map from ids to files, and so is `.meta`. A file goes
with what `json.loads` makes of it. Each file operation of a save has a name
(`FileOp`), and the ones that fail are given; `os.replace` either happens or does
not. What is left of the disk is asked for at every look, and can be anything.

An index file is one that a save wrote, or none that can be read. Left out are
the copies of entries kept in memory, the log, and files that are no records.
-/
import Mathlib.Data.List.Sort
import Mathlib.Data.Prod.Lex
import Questix.LabBridge.Records
import Questix.LabBridge.SaveLink
import Questix.Lib.Dict

namespace Questix.LabBridge

open Questix.Lib
open Questix.ControlConfig (Text)

/-- `<dir>/<id>.json` -/
structure RecordFile (f : Formats) where
  text : Text
  value : Option Json
  mtime : f.Moment

/-- `<dir>/.meta/<id>.json` -/
structure IndexFile where
  size : ℕ
  entry : Option Entry

structure RecordStore (f : Formats) where
  enabled : Bool := true
  quotaBytes : ℤ
  minFreeBytes : ℤ
  files : Dict Text (RecordFile f)
  index : Dict Text IndexFile

/-- The file operations of a save; a look at the space is numbered. -/
inductive FileOp where
  | prepare
  | exists_ (id : Text)
  | scan (look : ℕ)
  | stat (look : ℕ) (id : Text)
  | statIndex (look : ℕ) (id : Text)
  | list
  | statEntry (id : Text)
  | readIndex (id : Text)
  | readRecord (id : Text)
  | isFile (id : Text)
  | unlink (id : Text)
  | unlinkIndex (id : Text)
  | writeRecord
  | leaveRecord  -- after the replacement
  | writeIndex
  | leaveIndex
  deriving DecidableEq

abbrev Faults := FileOp → Bool

def noFaults : Faults := fun _ => false

/-- `_META_RESERVE` -/
def metaReserve : ℕ := 2048

structure SaveCall (f : Formats) where
  recording : Json
  /-- none of `SOURCES`: `none` -/
  source : Option Source
  recordId : Option Text := none
  now : f.Moment
  /-- the time of the file that is written -/
  mtime : f.Moment
  /-- what is left of the disk, at every look -/
  free : ℕ → ℤ

variable {f : Formats}

def RecordFile.size (file : RecordFile f) : ℕ := Json.utf8Bytes file.text

def isRecordId (id : Text) : Bool := decide (id.head? ≠ some '.') && idPattern id

/-! ## The orders of entries -/

/-- The key of a listing. -/
def listKey (entry : Entry) : Text ×ₗ Text := toLex (entry.recordedAt, entry.id)

def newerFirst (a b : Entry) : Prop := listKey b ≤ listKey a

instance : DecidableRel newerFirst := fun a b => inferInstanceAs (Decidable (listKey b ≤ listKey a))

/-- The key of the records to delete: caches go first, then the oldest. -/
def pruneKey (entry : Entry) : Bool ×ₗ Text :=
  toLex (decide (entry.source ≠ .rosbagCache), entry.recordedAt)

def goesFirst (a b : Entry) : Prop := pruneKey a ≤ pruneKey b

instance : DecidableRel goesFirst := fun a b => inferInstanceAs (Decidable (pruneKey a ≤ pruneKey b))
instance : Std.Total goesFirst := ⟨fun _ _ => le_total _ _⟩
instance : IsTrans Entry goesFirst := ⟨fun _ _ _ => le_trans⟩

namespace RecordStore

/-! ## Reading -/

/-- `_record_files` -/
def recordFiles (s : RecordStore f) : List (Text × RecordFile f) :=
  if s.enabled then
    (s.files.entries.filter fun e => isRecordId e.1).map fun e => (e.1, e.2)
  else []

/-- What a record and its index take, as far as they can be looked at. -/
def bytesOf (s : RecordStore f) (faults : Faults) (look : ℕ) (record : Text × RecordFile f) : ℕ :=
  if faults (.stat look record.1) then 0
  else
    record.2.size +
      if faults (.statIndex look record.1) then 0 else (s.index.lookup record.1).elim 0 IndexFile.size

def usedBytes (s : RecordStore f) (faults : Faults) (look : ℕ) : ℕ :=
  if faults (.scan look) then 0 else (s.recordFiles.map (s.bytesOf faults look)).sum

/-- `_entry` of the file of an id; the recording is read only without an index.
An exception is `none`. -/
def entry (s : RecordStore f) (faults : Faults) (id : Text) (file : RecordFile f) :
    Option (Option Entry) :=
  if faults (.statEntry id) then none
  else
    let indexed := (if faults (.readIndex id) then none else s.index.lookup id).bind IndexFile.entry
    match indexed.filter fun entry => entry.id = id with
    | some entry => some (some { entry with bytes := file.size })
    | none =>
      match if faults (.readRecord id) then none else file.value with
      | none => some none
      | some recording =>
        match checkRecording recording with
        | .error .raised => none
        | .error _ => some none
        | .ok () => (entryOf f id recording .lab file.size file.mtime).map some

/-- What each file is listed as. -/
def found (s : RecordStore f) (faults : Faults) : Option (List (Option Entry)) :=
  if faults .list then some []
  else s.recordFiles.mapM fun record => s.entry faults record.1 record.2

def entries (s : RecordStore f) (faults : Faults) : Option (List Entry) := do
  let found ← s.found faults
  return (found.filterMap id).insertionSort newerFirst

/-- `path_of` finds the file of the id. -/
def pathOf (s : RecordStore f) (id : Text) : Bool :=
  s.enabled && isRecordId id && (s.files.lookup id).isSome

/-! ## Writing -/

/-- `_room` -/
def room (s : RecordStore f) (faults : Faults) (free : ℕ → ℤ) (look : ℕ) : ℤ :=
  min (s.quotaBytes - s.usedBytes faults look) (free look - s.minFreeBytes)

/-- `base`, `base-2`, `base-3` and so on. -/
def numbered (base : Text) (number : ℕ) : Text :=
  if number = 1 then base else base ++ '-' :: Nat.toDigits 10 number

/-- The first id from `number` on that no file has; `fuel` bounds the search. -/
def freshId (s : RecordStore f) (faults : Faults) (base : Text) : ℕ → ℕ → Option Text
  | 0, _ => none
  | fuel + 1, number =>
    let id := numbered base number
    if faults (.exists_ id) then none
    else if (s.files.lookup id).isSome then s.freshId faults base fuel (number + 1)
    else some id

/-- `_new_id` -/
def newId (s : RecordStore f) (faults : Faults) (source : Source) (now : ℚ) (recording : Json) :
    Option Text := do
  let recorded ← parseIso f (field recording "recordedAt")
  let base ← makeId f source (recorded.getD now) (field recording "lesson")
    (field recording "group") (field (field recording "robot") "name")
  s.freshId faults base (s.files.entries.length + 1) 1

/-- The record's file is gone. -/
def removeFile (s : RecordStore f) (id : Text) : RecordStore f := { s with files := s.files.erase id }

def removeIndex (s : RecordStore f) (id : Text) : RecordStore f :=
  { s with index := s.index.erase id }

/-- The answer is missing where an exception goes through. -/
def delete (s : RecordStore f) (faults : Faults) (id : Text) : RecordStore f × Option Bool :=
  if !s.pathOf id then (s, some false)
  else if faults (.isFile id) || faults (.unlink id) then (s, none)
  else if faults (.unlinkIndex id) then (s.removeFile id, none)
  else ((s.removeFile id).removeIndex id, some true)

/-- What a save of the source may delete. -/
def prunable : Source → List Source
  | .auto => [.rosbagCache, .auto]
  | .rosbagCache => [.rosbagCache]
  | .lab => []

def candidates (s : RecordStore f) (faults : Faults) (source : Source) (keep : Text) :
    Option (List Entry) := do
  let entries ← s.entries faults
  let wanted (entry : Entry) : Bool := decide (entry.source ∈ prunable source ∧ entry.id ≠ keep)
  return (entries.filter wanted).insertionSort goesFirst

/-- The loop over the candidates, from the look before. -/
def prune (s : RecordStore f) (faults : Faults) (free : ℕ → ℤ) (needed : ℕ) :
    ℕ → List Entry → RecordStore f × Except RecordError Unit
  | _, [] => (s, .error .full)
  | look, entry :: rest =>
    match s.delete faults entry.id with
    | (s, none) => (s, .error .raised)
    | (s, some _) =>
      if needed ≤ s.room faults free (look + 1) then (s, .ok ())
      else s.prune faults free needed (look + 1) rest

def makeRoom (s : RecordStore f) (faults : Faults) (free : ℕ → ℤ) (needed : ℕ) (source : Source)
    (keep : Text) : RecordStore f × Except RecordError Unit :=
  if needed ≤ s.room faults free 0 then (s, .ok ())
  else
    match s.candidates faults source keep with
    | none => (s, .error .raised)
    | some candidates => s.prune faults free needed 0 candidates

/-- The id to save under. -/
def idFor (s : RecordStore f) (faults : Faults) (source : Source) (call : SaveCall f) :
    Option Text :=
  match call.recordId with
  | none => s.newId faults source call.now call.recording
  | some id => if idPattern id then some id else none

/-- What is to be written, under which id: the checks before anything happens. -/
def plan (s : RecordStore f) (faults : Faults) (call : SaveCall f) :
    Except RecordError (Source × Text × Text) :=
  match call.source with
  | none => .error .raised
  | some source =>
    if !s.enabled || faults .prepare then .error .noStore
    else
      match checkRecording call.recording, call.recording.dumps f.repr false with
      | .error error, _ => .error error
      | .ok (), none => .error .raised
      | .ok (), some body =>
        if maxSaveBytes < Json.utf8Bytes body then .error .tooBig
        else
          match s.idFor faults source call with
          | none => .error .raised
          | some id => .ok (source, id, body)

/-- The recording's file and then its index file. -/
def write (s : RecordStore f) (faults : Faults) (id body : Text) (call : SaveCall f)
    (entry : Entry) : RecordStore f × Except RecordError Text :=
  if faults .writeRecord then (s, .error .writeFailed)
  else
    let file := { text := body, value := some call.recording, mtime := call.mtime }
    let s := { s with files := s.files.insert id file }
    if faults .leaveRecord || faults .writeIndex then (s, .error .writeFailed)
    else
      let s := { s with
        index := s.index.insert id { size := entry.indexBytes f, entry := some entry } }
      if faults .leaveIndex then (s, .error .writeFailed) else (s, .ok id)

def save (s : RecordStore f) (faults : Faults) (call : SaveCall f) :
    RecordStore f × Except RecordError Text :=
  match s.plan faults call with
  | .error error => (s, .error error)
  | .ok (source, id, body) =>
    match s.makeRoom faults call.free (Json.utf8Bytes body + metaReserve) source id with
    | (s, .error error) => (s, .error error)
    | (s, .ok ()) =>
      match entryOf f id call.recording source (Json.utf8Bytes body) call.now with
      | none => (s, .error .raised)
      | some entry => s.write faults id body call entry

end RecordStore

end Questix.LabBridge
