/-
Questix.LabBridge.RefusedSaveTheorems — what a save that raises leaves behind,
whatever fails in it.

A save touches the records in three places: it deletes candidates, it replaces
the recording's file, and then the index file. What was done before a later
place fails is not undone. `refused_untouched_iff` says exactly when nothing of
it can be seen afterwards.
-/
import Questix.LabBridge.RetentionTheorems

namespace Questix.LabBridge

open Questix.Lib
open Questix.ControlConfig (Text)

namespace RecordStore

variable {f : Formats} {s s' : RecordStore f} {faults : Faults} {id body : Text} {e : Entry}
  {call : SaveCall f} {source : Source}

/-! ## What can be seen -/

/-- Every record that was listed is so still, with the content it had, and no
other is. -/
structure Untouched (s s' : RecordStore f) : Prop where
  kept : ∀ id file e, s.files.lookup id = some file → Listed s id e →
    ∃ file' e', s'.files.lookup id = some file' ∧ file'.text = file.text ∧ Listed s' id e'
  new : ∀ id e', Listed s' id e' → ∃ e, Listed s id e

theorem Untouched.refl (s : RecordStore f) : Untouched s s :=
  ⟨fun _ file e hfile hlisted => ⟨file, e, hfile, rfl, hlisted⟩, fun _ e' h => ⟨e', h⟩⟩

theorem not_untouched_of_gone (hlisted : Listed s id e) (hgone : s'.files.lookup id = none) :
    ¬ Untouched s s' := by
  intro h
  have hfiles := hlisted
  obtain ⟨-, -, file, hfile, -⟩ := hfiles
  obtain ⟨file', _, hfile', -⟩ := h.kept id file e hfile hlisted
  cases hgone.symm.trans hfile'

theorem entryOf_isSome {recording : Json} {size : ℕ} {t : f.Moment}
    (h : entryOf f id recording source size t = some e) (source' : Source) (size' : ℕ)
    (t' : f.Moment) :
    (entryOf f id recording source' size' t').isSome = true := by
  unfold entryOf at h ⊢
  simp only [Option.bind_eq_bind, Option.bind_eq_some_iff] at h
  obtain ⟨info, hinfo, recorded, hrecorded, recordedAt, htime, seconds, hseconds, -⟩ := h
  have htime' : (f.isoTime (recorded.getD t')).isSome = true := by
    cases recorded with
    | none => exact t'.2
    | some r => simpa using Option.isSome_of_eq_some htime
  obtain ⟨recordedAt', htime'⟩ := Option.isSome_iff_exists.1 htime'
  simp [hinfo, hrecorded, htime', hseconds]

theorem listed_of_written {file : RecordFile f} (henabled : s.enabled = true)
    (hid : isRecordId id = true) (hfile : s.files.lookup id = some file)
    (hvalue : file.value = some call.recording) (hcheck : checkRecording call.recording = .ok ())
    (hentry : entryOf f id call.recording source (Json.utf8Bytes body) call.now = some e) :
    ∃ e', Listed s id e' := by
  have hlisted : ∃ e', s.entry noFaults id file = some (some e') := by
    unfold entry
    simp only [noFaults, Bool.false_eq_true, if_false, hvalue, hcheck]
    cases (s.index.lookup id).bind IndexFile.entry |>.filter fun entry => entry.id = id with
    | some indexed => exact ⟨_, rfl⟩
    | none =>
      obtain ⟨e', he'⟩ := Option.isSome_iff_exists.1
        (entryOf_isSome hentry .lab file.size file.mtime)
      exact ⟨e', by simp [he']⟩
  obtain ⟨e', he'⟩ := hlisted
  exact ⟨e', henabled, hid, file, hfile, he'⟩

/-! ## Pruning with faults -/

theorem delete_lookup {done : Option Bool} (h : s.delete faults id = (s', done)) (id' : Text) :
    s'.files.lookup id' = s.files.lookup id' ∨ s'.files.lookup id' = none := by
  unfold delete at h
  split at h
  · cases h
    exact .inl rfl
  · split at h
    · cases h
      exact .inl rfl
    · have hremoved : s'.files = s.files.erase id := by
        split at h <;> cases h <;> rfl
      rw [hremoved]
      by_cases hid : id' = id
      · subst hid
        exact .inr (AList.lookup_erase _ _)
      · exact .inl (AList.lookup_erase_ne hid)

theorem prune_gone (free : ℕ → ℤ) (needed : ℕ) : ∀ (cs : List Entry) (s : RecordStore f)
    (look : ℕ), s.files.lookup id = none →
    (s.prune faults free needed look cs).1.files.lookup id = none := by
  intro cs
  induction cs with
  | nil => exact fun s look h => h
  | cons c cs ih =>
    intro s look h
    unfold prune
    cases hdelete : s.delete faults c.id with
    | mk s₁ done =>
      have hgone : s₁.files.lookup id = none := by
        rcases delete_lookup hdelete id with hsame | hnone
        · exact hsame.trans h
        · exact hnone
      cases done with
      | none => exact hgone
      | some _ =>
        dsimp only
        split
        · exact hgone
        · exact ih s₁ (look + 1) hgone

/-- The two files of a record can be deleted. -/
def Deletes (faults : Faults) (id : Text) : Prop :=
  faults (.isFile id) = false ∧ faults (.unlink id) = false ∧ faults (.unlinkIndex id) = false

theorem delete_of_deletes (hpath : s.pathOf id = true) (h : Deletes faults id) :
    s.delete faults id = (s.drop id, some true) := by
  obtain ⟨hisFile, hunlink, hindex⟩ := h
  simp [delete, hpath, hisFile, hunlink, hindex, drop]

theorem delete_of_not_deletes (hpath : s.pathOf id = true) (h : ¬ Deletes faults id) :
    (s.delete faults id).2 = none := by
  unfold delete
  rw [hpath]
  cases hisFile : faults (.isFile id) <;> cases hunlink : faults (.unlink id) <;>
    cases hindex : faults (.unlinkIndex id) <;> simp_all [Deletes]

/-- Some first part of the candidates can be deleted, and then there is room. -/
def Suffices (s : RecordStore f) (faults : Faults) (free : ℕ → ℤ) (needed look : ℕ)
    (cs : List Entry) : Prop :=
  ∃ n < cs.length, (∀ e ∈ cs.take (n + 1), Deletes faults e.id) ∧
    (needed : ℤ) ≤ (((cs.take (n + 1)).map Entry.id).foldl drop s).room faults free (look + n + 1)

theorem prune_ok_iff (free : ℕ → ℤ) (needed : ℕ) : ∀ (cs : List Entry) (s : RecordStore f)
    (look : ℕ), (∀ e ∈ cs, s.pathOf e.id = true) → (cs.map Entry.id).Nodup →
    ((s.prune faults free needed look cs).2 = .ok () ↔ s.Suffices faults free needed look cs) := by
  intro cs
  induction cs with
  | nil =>
    intro s look _ _
    simp [prune, Suffices]
  | cons c cs ih =>
    intro s look hpath hnodup
    obtain ⟨hfresh, hnodup⟩ := List.nodup_cons.1 hnodup
    have hhere := hpath c (by simp)
    by_cases hdeletes : Deletes faults c.id
    · unfold prune
      simp only [delete_of_deletes hhere hdeletes]
      split
      · rename_i hroom
        refine iff_of_true rfl ⟨0, by simp, ?_, hroom⟩
        simpa using hdeletes
      · rename_i hroom
        rw [ih (s.drop c.id) (look + 1) (pathOf_drop hpath hfresh) hnodup]
        constructor
        · intro ⟨n, hn, hall, hneeded⟩
          refine ⟨n + 1, by simpa using hn, ?_, ?_⟩
          · intro e he
            rcases List.mem_cons.1 he with rfl | he
            · exact hdeletes
            · exact hall e he
          · have hlook : look + (n + 1) + 1 = look + 1 + n + 1 := by omega
            rw [hlook]
            exact hneeded
        · intro ⟨n, hn, hall, hneeded⟩
          cases n with
          | zero => exact absurd hneeded hroom
          | succ n =>
            refine ⟨n, by simpa using hn, fun e he => hall e (by simp [he]), ?_⟩
            have hlook : look + 1 + n + 1 = look + (n + 1) + 1 := by omega
            rw [hlook]
            exact hneeded
    · have hnone := delete_of_not_deletes hhere hdeletes
      have hnot : ¬ s.Suffices faults free needed look (c :: cs) := by
        intro ⟨n, _, hall, _⟩
        exact hdeletes (hall c (by simp))
      unfold prune
      cases hdelete : s.delete faults c.id with
      | mk s₁ done =>
        rw [hdelete] at hnone
        cases (show done = none from hnone)
        exact iff_of_false nofun hnot

/-! ## Writing with faults -/

/-- The record is there already, listed and with this text. -/
def Same (s : RecordStore f) (id body : Text) : Prop :=
  ∃ file e, s.files.lookup id = some file ∧ file.text = body ∧ Listed s id e

/-- Nothing fails once there is room. -/
def Finishes (faults : Faults) (id body : Text) (source : Source) (call : SaveCall f) : Prop :=
  (entryOf f id call.recording source (Json.utf8Bytes body) call.now).isSome = true ∧
    faults .writeRecord = false ∧ faults .leaveRecord = false ∧ faults .writeIndex = false ∧
    faults .leaveIndex = false

/-- With its file written, a record cannot be seen only if it could before, or
never can. -/
theorem untouched_written_iff {file : RecordFile f}
    (henabled' : s'.enabled = s.enabled) (hfile : s'.files.lookup id = some file)
    (hothers : ∀ id', id' ≠ id → s'.files.lookup id' = s.files.lookup id' ∧
      s'.index.lookup id' = s.index.lookup id')
    (hlisted : isRecordId id = true → ∃ e, Listed s' id e) :
    Untouched s s' ↔ (isRecordId id = true → Same s id file.text) := by
  constructor
  · intro h hid
    obtain ⟨e', he'⟩ := hlisted hid
    obtain ⟨e, he⟩ := h.new id e' he'
    have hfiles := he
    obtain ⟨-, -, file₀, hfile₀, -⟩ := hfiles
    obtain ⟨file', _, hfile', htext, -⟩ := h.kept id file₀ e hfile₀ he
    cases hfile.symm.trans hfile'
    exact ⟨file₀, e, hfile₀, htext.symm, he⟩
  · intro hsame
    refine ⟨?_, ?_⟩
    · intro id' file₀ e hfile₀ he
      by_cases hid : id' = id
      · subst hid
        have hrecord : isRecordId id' = true := he.2.1
        obtain ⟨file₁, _, hfile₁, htext, -⟩ := hsame hrecord
        cases hfile₀.symm.trans hfile₁
        obtain ⟨e', he'⟩ := hlisted hrecord
        exact ⟨file, e', hfile, htext.symm, he'⟩
      · obtain ⟨hfiles, hindex⟩ := hothers id' hid
        exact ⟨file₀, e, hfiles.trans hfile₀, rfl, listed_of_lookup henabled' hfiles hindex he⟩
    · intro id' e' he'
      by_cases hid : id' = id
      · subst hid
        obtain ⟨_, e, -, -, he⟩ := hsame he'.2.1
        exact ⟨e, he⟩
      · obtain ⟨hfiles, hindex⟩ := hothers id' hid
        exact ⟨e', listed_of_lookup henabled'.symm hfiles.symm hindex.symm he'⟩

/-- A save ends in an exception. -/
def Raises (out : RecordStore f × Except RecordError Text) : Prop := ∃ error, out.2 = .error error

theorem raises_error (s : RecordStore f) (error : RecordError) :
    Raises (s, (.error error : Except RecordError Text)) := ⟨error, rfl⟩

theorem not_raises_ok (s : RecordStore f) (id : Text) :
    ¬ Raises (s, (.ok id : Except RecordError Text)) := by
  intro ⟨_, h⟩
  cases h

/-- A write that raises is not seen exactly if the file was not replaced, or
nothing new can be seen in it. -/
theorem write_untouched_iff (henabled : s.enabled = true)
    (hcheck : checkRecording call.recording = .ok ())
    (hentry : entryOf f id call.recording source (Json.utf8Bytes body) call.now = some e) :
    (Raises (s.write faults id body call e) → Untouched s (s.write faults id body call e).1) ↔
    (faults .writeRecord = false → isRecordId id = true →
      Finishes faults id body source call ∨ Same s id body) := by
  have hthere : (entryOf f id call.recording source (Json.utf8Bytes body) call.now).isSome =
      true := by rw [hentry]; rfl
  -- both states the files can be in have the new file under the id
  have hwritten : ∀ s' : RecordStore f, s'.enabled = s.enabled →
      s'.files = s.files.insert id ⟨body, some call.recording, call.mtime⟩ →
      (∀ id', id' ≠ id → s'.index.lookup id' = s.index.lookup id') →
      (Untouched s s' ↔ (isRecordId id = true → Same s id body)) := by
    intro s' henabled' hfiles hindex
    have hfile : s'.files.lookup id = some ⟨body, some call.recording, call.mtime⟩ := by
      rw [hfiles, AList.lookup_insert]
    refine untouched_written_iff henabled' hfile ?_ ?_
    · intro id' hid
      rw [hfiles]
      exact ⟨AList.lookup_insert_ne hid, hindex id' hid⟩
    · intro hid
      exact listed_of_written (henabled'.trans henabled) hid hfile rfl hcheck hentry
  unfold write
  cases hrecord : faults .writeRecord with
  | true => simp [Untouched.refl]
  | false =>
    simp only [Bool.false_eq_true, if_false, true_implies]
    split
    · rename_i hfails
      have hnot : ¬ Finishes faults id body source call := by
        intro ⟨_, _, hleave, hindex, _⟩
        simp [hleave, hindex] at hfails
      rw [forall_prop_of_true (raises_error _ _)]
      simp only [hnot, false_or]
      exact hwritten _ rfl rfl fun _ _ => rfl
    · rename_i hgoes
      split
      · rename_i hfails
        have hnot : ¬ Finishes faults id body source call := by
          intro ⟨_, _, _, _, hleave⟩
          simp [hleave] at hfails
        rw [forall_prop_of_true (raises_error _ _)]
        simp only [hnot, false_or]
        exact hwritten _ rfl rfl fun _ hid => AList.lookup_insert_ne hid
      · rename_i hleaves
        simp only [Bool.or_eq_true, not_or, Bool.not_eq_true] at hgoes hleaves
        have hfinishes : Finishes faults id body source call :=
          ⟨hthere, hrecord, hgoes.1, hgoes.2, hleaves⟩
        exact iff_of_true (fun h => absurd h (not_raises_ok _ _)) fun _ => .inl hfinishes

/-! ## Refused saves -/

/-- There is no room, and the first of the candidates is deleted for it. -/
def Prunes (s : RecordStore f) (faults : Faults) (call : SaveCall f) (source : Source)
    (id body : Text) (cs : List Entry) : Prop :=
  ¬ ((Json.utf8Bytes body + metaReserve : ℕ) : ℤ) ≤ s.room faults call.free 0 ∧
    s.candidates faults source id = some cs ∧
    ∃ c ∈ cs.head?, faults (.isFile c.id) = false ∧ faults (.unlink c.id) = false

/-- When a save that raises can be seen by nobody. If it has to delete records,
then it must get room so, and nothing may fail from the first of them on. With
room from the start nothing may fail once the recording's file is replaced,
unless the file had that text before, or is none that is listed. -/
def RefusesSafely (s : RecordStore f) (faults : Faults) (call : SaveCall f) : Prop :=
  ∀ source id body, s.plan faults call = .ok (source, id, body) →
    (∀ cs, s.Prunes faults call source id body cs →
      s.Suffices faults call.free (Json.utf8Bytes body + metaReserve) 0 cs ∧
        Finishes faults id body source call) ∧
    (((Json.utf8Bytes body + metaReserve : ℕ) : ℤ) ≤ s.room faults call.free 0 →
      (entryOf f id call.recording source (Json.utf8Bytes body) call.now).isSome = true →
      faults .writeRecord = false → isRecordId id = true →
      Finishes faults id body source call ∨ Same s id body)

section Room

variable {free : ℕ → ℤ} {needed look : ℕ} {keep : Text} {c : Entry} {cs : List Entry}

theorem prune_head_gone (hpath : s.pathOf c.id = true) (hisFile : faults (.isFile c.id) = false)
    (hunlink : faults (.unlink c.id) = false) :
    (s.prune faults free needed look (c :: cs)).1.files.lookup c.id = none := by
  have hgone : (s.delete faults c.id).1.files.lookup c.id = none := by
    unfold delete
    simp only [hpath, hisFile, hunlink, Bool.not_true, Bool.false_eq_true, if_false, Bool.or_self]
    split <;> exact AList.lookup_erase _ _
  unfold prune
  cases hdelete : s.delete faults c.id with
  | mk s₁ done =>
    rw [hdelete] at hgone
    cases done with
    | none => exact hgone
    | some _ =>
      dsimp only
      split
      · exact hgone
      · exact prune_gone free needed cs s₁ (look + 1) hgone

theorem prune_head_stays (hpath : s.pathOf c.id = true)
    (h : ¬ (faults (.isFile c.id) = false ∧ faults (.unlink c.id) = false)) :
    s.prune faults free needed look (c :: cs) = (s, .error .raised) := by
  have hdelete : s.delete faults c.id = (s, none) := by
    unfold delete
    cases hisFile : faults (.isFile c.id) <;> cases hunlink : faults (.unlink c.id) <;>
      simp_all
  unfold prune
  rw [hdelete]

end Room

theorem write_lookup_ne {id' : Text} (h : id' ≠ id) :
    (s.write faults id body call e).1.files.lookup id' = s.files.lookup id' := by
  unfold write
  split
  · rfl
  · dsimp only
    split
    · exact AList.lookup_insert_ne h
    · split <;> exact AList.lookup_insert_ne h

theorem write_raises_iff
    (hentry : entryOf f id call.recording source (Json.utf8Bytes body) call.now = some e) :
    Raises (s.write faults id body call e) ↔ ¬ Finishes faults id body source call := by
  have hthere : (entryOf f id call.recording source (Json.utf8Bytes body) call.now).isSome =
      true := by rw [hentry]; rfl
  unfold write Finishes
  cases faults .writeRecord <;> cases faults .leaveRecord <;> cases faults .writeIndex <;>
    cases faults .leaveIndex <;> simp [Raises, hthere]

/-- A save that goes on, once there is room. -/
def finish (s : RecordStore f) (faults : Faults) (id body : Text) (source : Source)
    (call : SaveCall f) : RecordStore f × Except RecordError Text :=
  match entryOf f id call.recording source (Json.utf8Bytes body) call.now with
  | none => (s, .error .raised)
  | some entry => s.write faults id body call entry

theorem finish_raises_iff (s : RecordStore f) (source : Source) :
    Raises (s.finish faults id body source call) ↔ ¬ Finishes faults id body source call := by
  unfold finish
  cases hentry : entryOf f id call.recording source (Json.utf8Bytes body) call.now with
  | none => exact iff_of_true (raises_error _ _) fun h => by simp [Finishes, hentry] at h
  | some e => exact write_raises_iff hentry

theorem finish_lookup_ne {id' : Text} (h : id' ≠ id) :
    (s.finish faults id body source call).1.files.lookup id' = s.files.lookup id' := by
  unfold finish
  split
  · rfl
  · exact write_lookup_ne h

theorem save_of_room (hplan : s.plan faults call = .ok (source, id, body))
    (hroom : s.makeRoom faults call.free (Json.utf8Bytes body + metaReserve) source id =
      (s', .ok ())) : s.save faults call = s'.finish faults id body source call := by
  unfold save
  rw [hplan]
  simp only [hroom]
  rfl

theorem save_of_no_room {error : RecordError} (hplan : s.plan faults call = .ok (source, id, body))
    (hroom : s.makeRoom faults call.free (Json.utf8Bytes body + metaReserve) source id =
      (s', .error error)) : s.save faults call = (s', .error error) := by
  unfold save
  rw [hplan]
  simp only [hroom]

theorem makeRoom_of_candidates {free : ℕ → ℤ} {needed : ℕ} {keep : Text} {cs : List Entry}
    (hroom : ¬ (needed : ℤ) ≤ s.room faults free 0)
    (hcandidates : s.candidates faults source keep = some cs) :
    s.makeRoom faults free needed source keep = s.prune faults free needed 0 cs := by
  unfold makeRoom
  rw [if_neg hroom, hcandidates]

theorem untouched_iff_of_room (hplan : s.plan faults call = .ok (source, id, body))
    (hroom : ((Json.utf8Bytes body + metaReserve : ℕ) : ℤ) ≤ s.room faults call.free 0) :
    (Raises (s.save faults call) → Untouched s (s.save faults call).1) ↔
      ((entryOf f id call.recording source (Json.utf8Bytes body) call.now).isSome = true →
        faults .writeRecord = false → isRecordId id = true →
        Finishes faults id body source call ∨ Same s id body) := by
  obtain ⟨-, henabled, -, hcheck, -⟩ := plan_eq_ok.1 hplan
  have hmade : s.makeRoom faults call.free (Json.utf8Bytes body + metaReserve) source id =
      (s, .ok ()) := if_pos hroom
  rw [save_of_room hplan hmade]
  unfold finish
  cases hentry : entryOf f id call.recording source (Json.utf8Bytes body) call.now with
  | none => exact iff_of_true (fun _ => .refl s) nofun
  | some e => simpa using write_untouched_iff henabled hcheck hentry

theorem raises_iff_of_prunes {cs : List Entry}
    (hplan : s.plan faults call = .ok (source, id, body))
    (hprunes : s.Prunes faults call source id body cs) :
    ¬ Raises (s.save faults call) ↔
      s.Suffices faults call.free (Json.utf8Bytes body + metaReserve) 0 cs ∧
        Finishes faults id body source call := by
  obtain ⟨hroom, hcandidates, -⟩ := hprunes
  have hmade := makeRoom_of_candidates hroom hcandidates
  have hpath : ∀ e ∈ cs, s.pathOf e.id = true := fun e he =>
    pathOf_of_listed (listed_of_candidates hcandidates he).1
  have hok : (s.prune faults call.free (Json.utf8Bytes body + metaReserve) 0 cs).2 = .ok () ↔
      s.Suffices faults call.free (Json.utf8Bytes body + metaReserve) 0 cs :=
    prune_ok_iff _ _ cs s 0 hpath (nodup_candidates hcandidates)
  cases hpruned : s.prune faults call.free (Json.utf8Bytes body + metaReserve) 0 cs with
  | mk s₁ result =>
    rw [hpruned] at hok hmade
    cases result with
    | error error =>
      have hnot : ¬ s.Suffices faults call.free (Json.utf8Bytes body + metaReserve) 0 cs :=
        fun h => by cases hok.2 h
      rw [save_of_no_room hplan hmade]
      exact iff_of_false (fun h => h (raises_error _ _)) fun h => hnot h.1
    | ok _ =>
      rw [save_of_room hplan hmade, finish_raises_iff, not_not]
      exact (and_iff_right (hok.1 rfl)).symm

theorem not_untouched_of_prunes {cs : List Entry}
    (hplan : s.plan faults call = .ok (source, id, body))
    (hprunes : s.Prunes faults call source id body cs) :
    ¬ Untouched s (s.save faults call).1 := by
  obtain ⟨hroom, hcandidates, c, hhead, hisFile, hunlink⟩ := hprunes
  obtain ⟨cs', rfl⟩ : ∃ cs', cs = c :: cs' := by
    cases cs with
    | nil => cases hhead
    | cons c' cs' =>
      cases hhead
      exact ⟨cs', rfl⟩
  obtain ⟨hlisted, -, hkeep⟩ := listed_of_candidates hcandidates (List.mem_cons_self)
  have hmade := makeRoom_of_candidates hroom hcandidates
  have hgone : (s.prune faults call.free (Json.utf8Bytes body + metaReserve) 0
      (c :: cs')).1.files.lookup c.id = none :=
    prune_head_gone (pathOf_of_listed hlisted) hisFile hunlink
  refine not_untouched_of_gone hlisted ?_
  cases hpruned : s.prune faults call.free (Json.utf8Bytes body + metaReserve) 0 (c :: cs') with
  | mk s₁ result =>
    rw [hpruned] at hgone hmade
    cases result with
    | error error =>
      rw [save_of_no_room hplan hmade]
      exact hgone
    | ok _ =>
      rw [save_of_room hplan hmade, finish_lookup_ne hkeep]
      exact hgone

theorem untouched_of_no_candidate (hplan : s.plan faults call = .ok (source, id, body))
    (hroom : ¬ ((Json.utf8Bytes body + metaReserve : ℕ) : ℤ) ≤ s.room faults call.free 0)
    (hnone : ∀ cs, ¬ s.Prunes faults call source id body cs) :
    Untouched s (s.save faults call).1 := by
  have hsame : ∃ error, s.makeRoom faults call.free (Json.utf8Bytes body + metaReserve) source id =
      (s, .error error) := by
    unfold makeRoom
    rw [if_neg hroom]
    cases hcandidates : s.candidates faults source id with
    | none => exact ⟨.raised, rfl⟩
    | some cs =>
      cases cs with
      | nil => exact ⟨.full, rfl⟩
      | cons c cs =>
        have hpath := pathOf_of_listed (listed_of_candidates hcandidates (List.mem_cons_self)).1
        refine ⟨.raised, prune_head_stays hpath fun ⟨hisFile, hunlink⟩ => ?_⟩
        exact hnone (c :: cs) ⟨hroom, hcandidates, c, rfl, hisFile, hunlink⟩
  obtain ⟨error, hsame⟩ := hsame
  rw [save_of_no_room hplan hsame]
  exact .refl s

theorem refused_untouched_iff (f : Formats) (s : RecordStore f) (faults : Faults)
    (call : SaveCall f) :
    (Raises (s.save faults call) → Untouched s (s.save faults call).1) ↔
      s.RefusesSafely faults call := by
  cases hplan : s.plan faults call with
  | error error =>
    have hsave : s.save faults call = (s, .error error) := by simp [save, hplan]
    rw [hsave]
    refine iff_of_true (fun _ => .refl s) fun source id body h => ?_
    cases hplan.symm.trans h
  | ok planned =>
    obtain ⟨source, id, body⟩ := planned
    have hone : s.RefusesSafely faults call ↔
        (∀ cs, s.Prunes faults call source id body cs →
          s.Suffices faults call.free (Json.utf8Bytes body + metaReserve) 0 cs ∧
            Finishes faults id body source call) ∧
        (((Json.utf8Bytes body + metaReserve : ℕ) : ℤ) ≤ s.room faults call.free 0 →
          (entryOf f id call.recording source (Json.utf8Bytes body) call.now).isSome = true →
          faults .writeRecord = false → isRecordId id = true →
          Finishes faults id body source call ∨ Same s id body) := by
      constructor
      · exact fun h => h source id body hplan
      · intro h source' id' body' hplan'
        cases hplan.symm.trans hplan'
        exact h
    rw [hone]
    by_cases hroom : ((Json.utf8Bytes body + metaReserve : ℕ) : ℤ) ≤ s.room faults call.free 0
    · have hnone : ∀ cs, ¬ s.Prunes faults call source id body cs := fun _ h => h.1 hroom
      rw [untouched_iff_of_room hplan hroom]
      constructor
      · exact fun h => ⟨fun cs hprunes => absurd hprunes (hnone cs), fun _ => h⟩
      · exact fun h => h.2 hroom
    · by_cases hprunes : ∃ cs, s.Prunes faults call source id body cs
      · obtain ⟨cs, hprunes⟩ := hprunes
        have hlost := not_untouched_of_prunes hplan hprunes
        constructor
        · intro h
          refine ⟨fun cs' hprunes' => ?_, fun h' => absurd h' hroom⟩
          exact (raises_iff_of_prunes hplan hprunes').1 fun hraises => hlost (h hraises)
        · intro h hraises
          exact absurd hraises ((raises_iff_of_prunes hplan hprunes).2 (h.1 cs hprunes))
      · push Not at hprunes
        refine iff_of_true (fun _ => untouched_of_no_candidate hplan hroom hprunes) ?_
        exact ⟨fun cs h => absurd h (hprunes cs), fun h => absurd h hroom⟩

/-! ## A save that deletes in vain -/

def domainFile (domain : ℤ) : RecordFile clockFormats where
  text := ((domainRecording domain).dumps clockFormats.repr false).getD []
  value := some (domainRecording domain)
  mtime := clockNow

def plainEntry (id : Text) (source : Source) : Entry where
  id := id
  source := source
  lesson := []
  label := []
  group := []
  robot := none
  recordedAt := "2026-09-21T14:13:20.000Z".toList
  seconds := .float 0
  outcome := none
  bytes := 0

/-- A large lab record and a small cache. -/
def fullStore : RecordStore clockFormats where
  quotaBytes := 5000
  minFreeBytes := 0
  files := (AList.singleton ['l'] (domainFile (10 ^ 2600))).insert ['c'] (domainFile (10 ^ 200))
  index := (AList.singleton ['l'] ⟨200, some (plainEntry ['l'] .lab)⟩).insert ['c']
    ⟨200, some (plainEntry ['c'] .rosbagCache)⟩

def autoSave : SaveCall clockFormats := { domainSave 3 with source := some .auto }

/-- The cache is deleted, and there is still no room. -/
theorem pruned_in_vain : ¬ ∀ (f : Formats) (s : RecordStore f) (faults : Faults)
    (call : SaveCall f), Raises (s.save faults call) → Untouched s (s.save faults call).1 := by
  intro h
  have hraises : (fullStore.save noFaults autoSave).2 = .error .full := by decide +kernel
  have hgone : ((fullStore.save noFaults autoSave).1.files.lookup ['c']).isNone = true := by
    decide +kernel
  have hlisted : ∃ e, Listed fullStore ['c'] e := by
    refine ⟨{ plainEntry ['c'] .rosbagCache with bytes := (domainFile (10 ^ 200)).size }, rfl, ?_,
      domainFile (10 ^ 200), rfl, rfl⟩
    decide
  obtain ⟨e, hlisted⟩ := hlisted
  exact not_untouched_of_gone hlisted (Option.isNone_iff_eq_none.1 hgone)
    (h clockFormats fullStore noFaults autoSave ⟨.full, hraises⟩)

end RecordStore

end Questix.LabBridge
