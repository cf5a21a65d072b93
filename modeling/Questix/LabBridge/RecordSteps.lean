/-
Questix.LabBridge.RecordSteps — what the operations of a record store do to
it: who is listed, what pruning takes away, and what a save reserves.

Pruning without faults drops the first few of the candidates (`prune_drops`),
and the candidates are exactly the records it may drop, in the order of
`goesFirst`.
-/
import Mathlib.Algebra.Order.BigOperators.Group.List
import Questix.LabBridge.RecordStore

namespace Questix.LabBridge

open Questix.Lib
open Questix.ControlConfig (Text)

namespace RecordStore

variable {f : Formats} {s s' : RecordStore f} {faults : Faults} {id id' : Text} {e : Entry}
  {file : RecordFile f}

/-! ## Listed records -/

/-- The record is listed, with this entry. -/
def Listed (s : RecordStore f) (id : Text) (e : Entry) : Prop :=
  s.enabled = true ∧ isRecordId id = true ∧
    ∃ file, s.files.lookup id = some file ∧ s.entry noFaults id file = some (some e)

theorem mem_recordFiles : (id, file) ∈ s.recordFiles ↔
    s.enabled = true ∧ isRecordId id = true ∧ s.files.lookup id = some file := by
  unfold recordFiles
  cases s.enabled with
  | false => simp
  | true =>
    have hentry : (⟨id, file⟩ : Sigma fun _ : Text => RecordFile f) ∈ s.files.entries ↔
        s.files.lookup id = some file := AList.mem_lookup_iff.symm
    simp only [if_true, List.mem_map, List.mem_filter, true_and]
    constructor
    · rintro ⟨⟨id₀, file₀⟩, ⟨hmem, hid⟩, heq⟩
      cases heq
      exact ⟨hid, hentry.1 hmem⟩
    · intro ⟨hid, hlookup⟩
      exact ⟨⟨id, file⟩, ⟨hentry.2 hlookup, hid⟩, rfl⟩

theorem entryOf_fields {recording : Json} {source : Source} {size : ℕ} {savedAt : ℚ}
    (h : entryOf f id recording source size savedAt = some e) : e.id = id ∧ e.source = source := by
  unfold entryOf at h
  simp only [Option.bind_eq_bind, Option.bind_eq_some_iff] at h
  obtain ⟨_, -, _, -, _, -, _, -, h⟩ := h
  cases h
  exact ⟨rfl, rfl⟩

theorem entry_id (h : s.entry faults id file = some (some e)) : e.id = id := by
  unfold entry at h
  dsimp only at h
  split at h
  · cases h
  · split at h
    · rename_i indexed hindexed
      cases h
      exact of_decide_eq_true (Option.filter_eq_some_iff.1 hindexed).2
    · split at h
      · cases h
      · split at h
        · cases h
        · cases h
        · obtain ⟨entry, hentry, heq⟩ := Option.map_eq_some_iff.1 h
          cases heq
          exact (entryOf_fields hentry).1

theorem entry_of_faults (h : s.entry faults id file = some (some e)) (hsource : e.source ≠ .lab) :
    s.entry noFaults id file = some (some e) := by
  unfold entry at h
  dsimp only at h
  split at h
  · cases h
  · split at h
    · rename_i indexed hindexed
      have hread : faults (.readIndex id) = false := by
        cases hfails : faults (.readIndex id) with
        | false => rfl
        | true => simp [hfails] at hindexed
      simp only [hread, Bool.false_eq_true, if_false] at hindexed
      simp only [entry, noFaults, Bool.false_eq_true, if_false, hindexed]
      exact h
    · split at h
      · cases h
      · split at h
        · cases h
        · cases h
        · obtain ⟨entry, hentry, heq⟩ := Option.map_eq_some_iff.1 h
          cases heq
          exact absurd (entryOf_fields hentry).2 hsource

theorem listed_unique (h : Listed s id e) {e' : Entry} (h' : Listed s id e') : e = e' := by
  obtain ⟨-, -, file, hfile, hentry⟩ := h
  obtain ⟨-, -, file', hfile', hentry'⟩ := h'
  cases hfile.symm.trans hfile'
  cases hentry.symm.trans hentry'
  rfl

theorem listed_of_lookup (henabled : s'.enabled = s.enabled)
    (hfiles : s'.files.lookup id = s.files.lookup id)
    (hindex : s'.index.lookup id = s.index.lookup id) (h : Listed s id e) : Listed s' id e := by
  obtain ⟨hs, hid, file, hfile, hentry⟩ := h
  refine ⟨henabled.trans hs, hid, file, hfiles.trans hfile, ?_⟩
  rw [← hentry]
  simp [entry, noFaults, hindex]

/-! ## Candidates -/

theorem mem_of_mapM {α β : Type*} {g : α → Option β} {l : List α} {l' : List β}
    (h : l.mapM g = some l') (b : β) : b ∈ l' ↔ ∃ a ∈ l, g a = some b := by
  induction l generalizing l' with
  | nil =>
    cases h
    simp
  | cons a l ih =>
    simp only [List.mapM_cons, Option.bind_eq_bind, Option.bind_eq_some_iff] at h
    obtain ⟨c, hc, rest, hrest, heq⟩ := h
    cases heq
    simp only [List.mem_cons, ih hrest, exists_eq_or_imp, hc, Option.some.injEq]
    exact or_congr_left eq_comm

theorem mem_entries {es : List Entry} (h : s.entries noFaults = some es) :
    e ∈ es ↔ Listed s e.id e := by
  unfold entries at h
  simp only [Option.bind_eq_bind, Option.bind_eq_some_iff, found, noFaults, Bool.false_eq_true,
    if_false] at h
  obtain ⟨found, hfound, heq⟩ := h
  cases heq
  rw [List.mem_insertionSort, List.mem_filterMap]
  simp only [id_eq, exists_eq_right, mem_of_mapM hfound]
  constructor
  · intro ⟨⟨id, file⟩, hmem, hentry⟩
    obtain ⟨henabled, hid, hlookup⟩ := mem_recordFiles.1 hmem
    have hid' : e.id = id := entry_id hentry
    subst hid'
    exact ⟨henabled, hid, file, hlookup, hentry⟩
  · intro ⟨henabled, hid, file, hlookup, hentry⟩
    exact ⟨(e.id, file), mem_recordFiles.2 ⟨henabled, hid, hlookup⟩, hentry⟩

theorem listed_of_entries {es : List Entry} (h : s.entries faults = some es) (he : e ∈ es)
    (hsource : e.source ≠ .lab) : Listed s e.id e := by
  unfold entries at h
  simp only [Option.bind_eq_bind, Option.bind_eq_some_iff] at h
  obtain ⟨found, hfound, heq⟩ := h
  cases heq
  rw [List.mem_insertionSort, List.mem_filterMap] at he
  simp only [id_eq, exists_eq_right] at he
  unfold RecordStore.found at hfound
  split at hfound
  · cases hfound
    cases he
  · obtain ⟨⟨id, file⟩, hmem, hentry⟩ := (mem_of_mapM hfound _).1 he
    obtain ⟨henabled, hid, hlookup⟩ := mem_recordFiles.1 hmem
    have hid' : e.id = id := entry_id hentry
    subst hid'
    exact ⟨henabled, hid, file, hlookup, entry_of_faults hentry hsource⟩

theorem prunable_ne_lab {source source' : Source} (h : source' ∈ prunable source) :
    source' ≠ .lab := by
  cases source <;> cases source' <;> simp_all [prunable]

section Candidates

variable {source : Source} {keep : Text} {cs : List Entry}

theorem listed_of_candidates (h : s.candidates faults source keep = some cs) (he : e ∈ cs) :
    Listed s e.id e ∧ e.source ∈ prunable source ∧ e.id ≠ keep := by
  unfold candidates at h
  simp only [Option.bind_eq_bind, Option.bind_eq_some_iff] at h
  obtain ⟨es, hes, heq⟩ := h
  cases heq
  rw [List.mem_insertionSort, List.mem_filter] at he
  obtain ⟨hmem, hwanted⟩ := he
  obtain ⟨hsource, hkeep⟩ := of_decide_eq_true hwanted
  exact ⟨listed_of_entries hes hmem (prunable_ne_lab hsource), hsource, hkeep⟩

theorem mem_candidates (h : s.candidates noFaults source keep = some cs) :
    e ∈ cs ↔ Listed s e.id e ∧ e.source ∈ prunable source ∧ e.id ≠ keep := by
  refine ⟨listed_of_candidates h, ?_⟩
  intro ⟨hlisted, hsource, hkeep⟩
  unfold candidates at h
  simp only [Option.bind_eq_bind, Option.bind_eq_some_iff] at h
  obtain ⟨es, hes, heq⟩ := h
  cases heq
  rw [List.mem_insertionSort, List.mem_filter]
  exact ⟨(mem_entries hes).2 hlisted, decide_eq_true ⟨hsource, hkeep⟩⟩

theorem pairwise_candidates (h : s.candidates faults source keep = some cs) :
    cs.Pairwise goesFirst := by
  unfold candidates at h
  simp only [Option.bind_eq_bind, Option.bind_eq_some_iff] at h
  obtain ⟨es, -, heq⟩ := h
  cases heq
  exact List.pairwise_insertionSort _ _

theorem map_filterMap_sublist {α β κ : Type*} {g : α → Option (Option β)} {key : β → κ}
    {key' : α → κ} (hkey : ∀ a b, g a = some (some b) → key b = key' a) {l : List α}
    {l' : List (Option β)} (h : l.mapM g = some l') :
    ((l'.filterMap fun b => b).map key).Sublist (l.map key') := by
  induction l generalizing l' with
  | nil =>
    cases h
    simp
  | cons a l ih =>
    simp only [List.mapM_cons, Option.bind_eq_bind, Option.bind_eq_some_iff] at h
    obtain ⟨b, hb, rest, hrest, heq⟩ := h
    cases heq
    cases b with
    | none => exact (ih hrest).cons _
    | some b =>
      rw [List.map_cons, ← hkey a b hb]
      exact (ih hrest).cons_cons _

theorem nodup_recordFiles (s : RecordStore f) : (s.recordFiles.map Prod.fst).Nodup := by
  unfold recordFiles
  split
  · rw [List.map_map]
    exact s.files.keys_nodup.sublist (List.filter_sublist.map _)
  · simp

theorem nodup_found {found : List (Option Entry)} (h : s.found faults = some found) :
    ((found.filterMap fun b => b).map Entry.id).Nodup := by
  unfold RecordStore.found at h
  split at h
  · cases h
    simp
  · exact (nodup_recordFiles s).sublist (map_filterMap_sublist (fun _ _ => entry_id) h)

theorem nodup_candidates (h : s.candidates faults source keep = some cs) :
    (cs.map Entry.id).Nodup := by
  unfold candidates at h
  simp only [Option.bind_eq_bind, Option.bind_eq_some_iff] at h
  obtain ⟨es, hes, heq⟩ := h
  cases heq
  unfold entries at hes
  simp only [Option.bind_eq_bind, Option.bind_eq_some_iff] at hes
  obtain ⟨found, hfound, heq⟩ := hes
  cases heq
  have hsorted := ((List.perm_insertionSort newerFirst (found.filterMap fun b => b)).map
    Entry.id).nodup_iff.2 (nodup_found hfound)
  refine ((List.perm_insertionSort goesFirst _).map Entry.id).nodup_iff.2 ?_
  exact hsorted.sublist (List.filter_sublist.map _)

theorem mem_take_of_before (h : s.candidates noFaults source keep = some cs) {n : ℕ}
    (he : e ∈ cs.take n) {e' : Entry} (he' : e' ∈ cs) (hbefore : ¬ goesFirst e e') :
    e' ∈ cs.take n := by
  rw [← List.take_append_drop n cs] at he'
  rcases List.mem_append.1 he' with he' | he'
  · exact he'
  · have hpairwise := pairwise_candidates h
    rw [← List.take_append_drop n cs, List.pairwise_append] at hpairwise
    exact absurd (hpairwise.2.2 e he e' he') hbefore

end Candidates

/-! ## Pruning -/

/-- The record's two files go. -/
def drop (s : RecordStore f) (id : Text) : RecordStore f := (s.removeFile id).removeIndex id

theorem lookup_drop (s : RecordStore f) (id id' : Text) : (s.drop id).files.lookup id' =
      (if id' = id then none else s.files.lookup id') ∧
    (s.drop id).index.lookup id' = (if id' = id then none else s.index.lookup id') := by
  by_cases hid : id' = id
  · subst hid
    exact ⟨by simp [drop, removeFile, removeIndex], by simp [drop, removeFile, removeIndex]⟩
  · simp [drop, removeFile, removeIndex, hid, AList.lookup_erase_ne hid]

theorem lookup_foldl_drop (ids : List Text) (id' : Text) :
    (ids.foldl drop s).files.lookup id' = (if id' ∈ ids then none else s.files.lookup id') ∧
    (ids.foldl drop s).index.lookup id' = (if id' ∈ ids then none else s.index.lookup id') := by
  induction ids generalizing s with
  | nil => simp
  | cons id ids ih =>
    obtain ⟨hfiles, hindex⟩ := lookup_drop s id id'
    obtain ⟨ihfiles, ihindex⟩ := ih (s := s.drop id)
    rw [List.foldl_cons, ihfiles, ihindex, hfiles, hindex]
    by_cases hid : id' = id <;> by_cases hids : id' ∈ ids <;> simp [hid, hids]

theorem delete_eq_drop (h : s.pathOf id = true) : s.delete noFaults id = (s.drop id, some true) := by
  simp [delete, noFaults, h, drop]

theorem pathOf_of_listed (h : Listed s id e) : s.pathOf id = true := by
  obtain ⟨henabled, hid, file, hfile, -⟩ := h
  simp [pathOf, henabled, hid, hfile]

theorem pathOf_drop {cs : List Entry} (hpath : ∀ e' ∈ e :: cs, s.pathOf e'.id = true)
    (hfresh : e.id ∉ cs.map Entry.id) : ∀ e' ∈ cs, (s.drop e.id).pathOf e'.id = true := by
  intro e' he'
  have hne : e'.id ≠ e.id := fun heq => hfresh (heq ▸ List.mem_map_of_mem he')
  have hthere := hpath e' (by simp [he'])
  unfold pathOf at hthere ⊢
  rw [(lookup_drop s e.id e'.id).1, if_neg hne]
  exact hthere

theorem prune_drops (free : ℕ → ℤ) (needed : ℕ) : ∀ (cs : List Entry) (s : RecordStore f)
    (look : ℕ), (∀ e ∈ cs, s.pathOf e.id = true) → (cs.map Entry.id).Nodup →
    ∃ n, (s.prune noFaults free needed look cs).1 = ((cs.take n).map Entry.id).foldl drop s ∧
      ((s.prune noFaults free needed look cs).2 = .ok () →
        ∃ look', (needed : ℤ) ≤ (s.prune noFaults free needed look cs).1.room noFaults free look') := by
  intro cs
  induction cs with
  | nil =>
    intro s look _ _
    exact ⟨0, rfl, nofun⟩
  | cons e cs ih =>
    intro s look hpath hnodup
    obtain ⟨hfresh, hnodup⟩ := List.nodup_cons.1 hnodup
    have hdelete := delete_eq_drop (hpath e (by simp))
    unfold prune
    simp only [hdelete]
    split
    · rename_i hroom
      exact ⟨1, rfl, fun _ => ⟨look + 1, hroom⟩⟩
    · obtain ⟨n, heq, hok⟩ := ih (s.drop e.id) (look + 1) (pathOf_drop hpath hfresh) hnodup
      exact ⟨n + 1, heq, hok⟩

/-! ## Space -/

/-- What a record with this id takes, its index included. -/
def taken (s : RecordStore f) (record : Sigma fun _ : Text => RecordFile f) : ℕ :=
  if isRecordId record.1 then
    record.2.size + (s.index.lookup record.1).elim 0 IndexFile.size
  else 0

def used (s : RecordStore f) : ℕ := (s.files.entries.map s.taken).sum

theorem usedBytes_noFaults (look : ℕ) (h : s.enabled = true) :
    s.usedBytes noFaults look = s.used := by
  have hsum : ∀ l : List (Sigma fun _ : Text => RecordFile f),
      (((l.filter fun e => isRecordId e.1).map fun e => (e.1, e.2)).map
        (s.bytesOf noFaults look)).sum = (l.map s.taken).sum := by
    intro l
    induction l with
    | nil => rfl
    | cons e l ih =>
      by_cases hid : isRecordId e.1
      · simp_all [bytesOf, noFaults, taken]
      · simp_all [taken]
  simp [usedBytes, noFaults, recordFiles, h, used, ← hsum]

theorem used_insert (id : Text) (file : RecordFile f) (ix : IndexFile) :
    RecordStore.used { s with files := s.files.insert id file, index := s.index.insert id ix } ≤
      s.used + file.size + ix.size := by
  have hothers : ∀ l : List (Sigma fun _ : Text => RecordFile f), id ∉ l.keys →
      (l.map (RecordStore.taken { s with
        files := s.files.insert id file, index := s.index.insert id ix })).sum =
      (l.map s.taken).sum := by
    intro l hl
    refine congrArg List.sum (List.map_congr_left fun e he => ?_)
    have hne : e.1 ≠ id := fun heq => hl (heq ▸ List.mem_map_of_mem he)
    simp [taken, AList.lookup_insert_ne hne]
  have hrest : ((s.files.entries.kerase id).map s.taken).sum ≤ s.used :=
    ((List.kerase_sublist id s.files.entries).map s.taken).sum_le_sum (by simp)
  have hnew : RecordStore.taken { s with
      files := s.files.insert id file, index := s.index.insert id ix } ⟨id, file⟩ ≤
      file.size + ix.size := by
    unfold taken
    split
    · simp
    · exact Nat.zero_le _
  unfold used
  simp only [AList.entries_insert, List.map_cons, List.sum_cons]
  rw [hothers _ (List.notMem_keys_kerase id s.files.nodupKeys)]
  unfold used at hrest
  omega

/-! ## Ids -/

theorem freshId_fresh {base : Text} : ∀ {fuel number : ℕ},
    s.freshId faults base fuel number = some id → s.files.lookup id = none := by
  intro fuel
  induction fuel with
  | zero => exact nofun
  | succ fuel ih =>
    intro number h
    unfold freshId at h
    dsimp only at h
    split at h
    · cases h
    · split at h
      · exact ih h
      · rename_i hfree
        cases h
        simpa using hfree

theorem newId_fresh {source : Source} {now : ℚ} {recording : Json}
    (h : s.newId faults source now recording = some id) : s.files.lookup id = none := by
  unfold newId at h
  simp only [Option.bind_eq_bind, Option.bind_eq_some_iff] at h
  obtain ⟨_, -, _, -, h⟩ := h
  exact freshId_fresh h

/-! ## The checks of a save -/

variable {call : SaveCall f} {source : Source} {body : Text}

theorem plan_eq_ok :
    s.plan faults call = .ok (source, id, body) ↔
      call.source = some source ∧ s.enabled = true ∧ faults .prepare = false ∧
        checkRecording call.recording = .ok () ∧
        call.recording.dumps f.repr false = some body ∧ Json.utf8Bytes body ≤ maxSaveBytes ∧
        s.idFor faults source call = some id := by
  unfold plan
  cases call.source with
  | none => simp
  | some given =>
    dsimp only
    split
    · rename_i hclosed
      simp only [Bool.or_eq_true, Bool.not_eq_true'] at hclosed
      grind
    · rename_i hopen
      simp only [Bool.or_eq_true, Bool.not_eq_true', not_or, Bool.not_eq_false,
        Bool.not_eq_true] at hopen
      cases checkRecording call.recording with
      | error error => simp
      | ok _ =>
        cases call.recording.dumps f.repr false with
        | none => simp
        | some text => grind

theorem plan_ok (h : s.plan faults call = .ok (source, id, body)) :
    call.source = some source ∧ s.enabled = true ∧
      (call.recordId = some id ∨ s.files.lookup id = none) := by
  obtain ⟨hsource, henabled, -, -, -, -, hid⟩ := plan_eq_ok.1 h
  refine ⟨hsource, henabled, ?_⟩
  unfold idFor at hid
  cases hrecordId : call.recordId with
  | none => exact .inr (newId_fresh (by simpa [hrecordId] using hid))
  | some given =>
    simp only [hrecordId] at hid
    split at hid
    · cases hid
      exact .inl rfl
    · cases hid

end RecordStore

end Questix.LabBridge
