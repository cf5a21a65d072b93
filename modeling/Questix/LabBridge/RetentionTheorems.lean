/-
Questix.LabBridge.RetentionTheorems — what saves keep of a record store, over
runs of saves and deletions.

A save drops a first part of the candidates and then writes at most one record
(`save_outcome`). So a lab record stays, an automatic one goes only after every
cache and every older one, and no other record is written over. The space
reserved for an index is an estimate: the quota holds as long as no index is
larger.
-/
import Questix.LabBridge.RecordSteps

namespace Questix.LabBridge

open Questix.Lib
open Questix.ControlConfig (Text)

namespace RecordStore

variable {f : Formats} {s : RecordStore f} {id : Text} {e : Entry} {call : SaveCall f}

/-! ## What a save does -/

theorem makeRoom_drops (free : ℕ → ℤ) (needed : ℕ) (source : Source) (keep : Text) :
    ∃ cs n, (n = 0 ∨ s.candidates noFaults source keep = some cs) ∧
      (s.makeRoom noFaults free needed source keep).1 =
        ((cs.take n).map Entry.id).foldl drop s ∧
      ((s.makeRoom noFaults free needed source keep).2 = .ok () → ∃ look,
        (needed : ℤ) ≤ (s.makeRoom noFaults free needed source keep).1.room noFaults free look) := by
  unfold makeRoom
  split
  · rename_i hroom
    exact ⟨[], 0, .inl rfl, rfl, fun _ => ⟨0, hroom⟩⟩
  · cases hcandidates : s.candidates noFaults source keep with
    | none => exact ⟨[], 0, .inl rfl, rfl, nofun⟩
    | some cs =>
      have hpath : ∀ e ∈ cs, s.pathOf e.id = true := fun e he =>
        pathOf_of_listed (listed_of_candidates hcandidates he).1
      obtain ⟨n, heq, hok⟩ := prune_drops free needed cs s 0 hpath (nodup_candidates hcandidates)
      exact ⟨cs, n, .inr rfl, heq, hok⟩

/-- The store with a record and its index written. -/
def put (s : RecordStore f) (id : Text) (file : RecordFile f) (ix : IndexFile) : RecordStore f :=
  { s with files := s.files.insert id file, index := s.index.insert id ix }

/-- What comes of a save without faults: it is refused, perhaps after some
candidates are gone, or its record is written behind them. -/
inductive SaveOutcome (s : RecordStore f) (call : SaveCall f) :
    RecordStore f × Except RecordError Text → Prop
  | refused (error : RecordError) : SaveOutcome s call (s, .error error)
  | pruned (source : Source) (id body : Text) (error : RecordError)
    (plan : s.plan noFaults call = .ok (source, id, body)) :
    SaveOutcome s call ((s.makeRoom noFaults call.free (Json.utf8Bytes body + metaReserve) source
      id).1, .error error)
  | saved (source : Source) (id body : Text) (entry : Entry) (s' : RecordStore f)
    (plan : s.plan noFaults call = .ok (source, id, body))
    (room : s.makeRoom noFaults call.free (Json.utf8Bytes body + metaReserve) source id =
      (s', .ok ()))
    (entryOf : entryOf f id call.recording source (Json.utf8Bytes body) call.now = some entry) :
    SaveOutcome s call (s'.put id ⟨body, some call.recording, call.mtime⟩
      ⟨entry.indexBytes f, some entry⟩, .ok id)

theorem save_outcome (s : RecordStore f) (call : SaveCall f) :
    SaveOutcome s call (s.save noFaults call) := by
  unfold save
  cases hplan : s.plan noFaults call with
  | error error => exact .refused error
  | ok planned =>
    obtain ⟨source, id, body⟩ := planned
    dsimp only
    cases hroom : s.makeRoom noFaults call.free (Json.utf8Bytes body + metaReserve) source id with
    | mk s' result =>
      have hs' : (s.makeRoom noFaults call.free (Json.utf8Bytes body + metaReserve) source id).1 =
          s' := by rw [hroom]
      cases result with
      | error error => exact hs' ▸ .pruned source id body error hplan
      | ok _ =>
        cases hentry : entryOf f id call.recording source (Json.utf8Bytes body) call.now with
        | none => exact hs' ▸ .pruned source id body .raised hplan
        | some entry => exact .saved source id body entry s' hplan hroom hentry

theorem entryOf_indexed {recording : Json} {source : Source} {size : ℕ} {savedAt : ℚ}
    (h : entryOf f id recording source size savedAt = some e) (file : RecordFile f)
    (henabled : s.enabled = true) (hid : isRecordId id = true) :
    Listed (s.put id file ⟨e.indexBytes f, some e⟩) id { e with bytes := file.size } := by
  obtain ⟨rfl, -⟩ := entryOf_fields h
  refine ⟨henabled, hid, file, AList.lookup_insert _, ?_⟩
  simp [entry, noFaults, put, Option.filter]

theorem lookup_put_ne {id' : Text} (h : id' ≠ id) (file : RecordFile f) (ix : IndexFile) :
    (s.put id file ix).files.lookup id' = s.files.lookup id' ∧
    (s.put id file ix).index.lookup id' = s.index.lookup id' :=
  ⟨AList.lookup_insert_ne h, AList.lookup_insert_ne h⟩

/-! ## What a save keeps -/

/-- What a save keeps of the records, whatever comes of it: every lab record
it is not told to replace, the automatic ones unless it is one and everything
that goes before them is gone, and every other record as it is, or not at all.
And after a save that succeeds the quota is kept. -/
structure Retains (s : RecordStore f) (call : SaveCall f) (s' : RecordStore f)
    (result : Except RecordError Text) : Prop where
  lab : ∀ id e, Listed s id e → e.source = .lab → (s'.files.lookup id).isSome ∧
    (call.recordId ≠ some id → s'.files.lookup id = s.files.lookup id ∧
      s'.index.lookup id = s.index.lookup id)
  auto : ∀ id e, Listed s id e → e.source = .auto → s'.files.lookup id = none →
    call.source = some .auto ∧ ∀ id' e', Listed s id' e' → call.recordId ≠ some id' →
      (e'.source = .rosbagCache ∨ e'.source = .auto ∧ e'.recordedAt < e.recordedAt) →
      s'.files.lookup id' = none
  others : ∀ id file, s.files.lookup id = some file → call.recordId ≠ some id →
    s'.files.lookup id = some file ∨ s'.files.lookup id = none
  quota : ∀ id, result = .ok id → (s'.used : ℤ) ≤ s'.quotaBytes

section Dropped

variable {source : Source} {keep : Text} {cs : List Entry} {n : ℕ} {s₁ : RecordStore f}

def droppedIds (cs : List Entry) (n : ℕ) : List Text := (cs.take n).map Entry.id

theorem mem_candidates_of_dropped (hcs : n = 0 ∨ s.candidates noFaults source keep = some cs)
    (hid : id ∈ droppedIds cs n) : s.candidates noFaults source keep = some cs ∧
      ∃ e ∈ cs.take n, e.id = id ∧ Listed s id e ∧ e.source ∈ prunable source := by
  obtain ⟨e, he, rfl⟩ := List.mem_map.1 hid
  have hcandidates : s.candidates noFaults source keep = some cs := by
    rcases hcs with hn | hcs
    · subst hn
      cases he
    · exact hcs
  obtain ⟨hlisted, hsource, -⟩ := listed_of_candidates hcandidates (List.mem_of_mem_take he)
  exact ⟨hcandidates, e, he, rfl, hlisted, hsource⟩

theorem lab_not_dropped (hcs : n = 0 ∨ s.candidates noFaults source keep = some cs)
    (hlisted : Listed s id e) (hlab : e.source = .lab) : id ∉ droppedIds cs n := by
  intro hid
  obtain ⟨-, e', -, -, hlisted', hsource⟩ := mem_candidates_of_dropped hcs hid
  rw [← listed_unique hlisted hlisted', hlab] at hsource
  exact prunable_ne_lab hsource rfl

/-- An automatic record is dropped by an automatic save only, and after
whatever goes before it. -/
theorem auto_dropped (hcs : n = 0 ∨ s.candidates noFaults source keep = some cs)
    (hlisted : Listed s id e) (hauto : e.source = .auto) (hid : id ∈ droppedIds cs n) :
    source = .auto ∧ ∀ id' e', Listed s id' e' → id' ≠ keep →
      (e'.source = .rosbagCache ∨ e'.source = .auto ∧ e'.recordedAt < e.recordedAt) →
      id' ∈ droppedIds cs n := by
  obtain ⟨hcandidates, e₀, he₀, -, hlisted₀, hsource⟩ := mem_candidates_of_dropped hcs hid
  rw [← listed_unique hlisted hlisted₀] at he₀ hsource
  have hsave : source = .auto := by
    rw [hauto] at hsource
    cases source <;> simp [prunable] at hsource ⊢
  refine ⟨hsave, fun id' e' hlisted' hkeep hbefore => ?_⟩
  have hid' : e'.id = id' := by
    obtain ⟨-, -, _, -, hentry⟩ := hlisted'
    exact entry_id hentry
  subst hid'
  have hprunable : e'.source ∈ prunable source := by
    rcases hbefore with hcache | ⟨hauto', -⟩
    · simp [hsave, hcache, prunable]
    · simp [hsave, hauto', prunable]
  have hmem : e' ∈ cs := (mem_candidates hcandidates).2 ⟨hlisted', hprunable, hkeep⟩
  have hfirst : ¬ goesFirst e e' := by
    unfold goesFirst pruneKey
    rw [not_le, Prod.Lex.toLex_lt_toLex]
    rcases hbefore with hcache | ⟨hauto', holder⟩
    · exact .inl (by simp [hcache, hauto])
    · exact .inr ⟨by simp [hauto', hauto], holder⟩
  exact List.mem_map_of_mem (mem_take_of_before hcandidates he₀ hmem hfirst)

theorem retains_dropped (hcs : n = 0 ∨ s.candidates noFaults source keep = some cs)
    (hsource : call.source = some source)
    (hkeep : call.recordId = some keep ∨ s.files.lookup keep = none) (error : RecordError) :
    Retains s call ((droppedIds cs n).foldl drop s) (.error error) := by
  have hlookup := lookup_foldl_drop (s := s) (droppedIds cs n)
  refine ⟨?_, ?_, ?_, nofun⟩
  · intro id e hlisted hlab
    have hid := lab_not_dropped hcs hlisted hlab
    obtain ⟨-, -, file, hfile, -⟩ := hlisted
    simp [(hlookup id).1, (hlookup id).2, hid, hfile]
  · intro id e hlisted hauto hgone
    have hid : id ∈ droppedIds cs n := by
      by_contra hid
      obtain ⟨-, -, file, hfile, -⟩ := hlisted
      rw [(hlookup id).1, if_neg hid, hfile] at hgone
      cases hgone
    obtain ⟨hsave, hbefore⟩ := auto_dropped hcs hlisted hauto hid
    refine ⟨hsource.trans (congrArg some hsave), fun id' e' hlisted' hreplaced hfirst => ?_⟩
    have hne : id' ≠ keep := by
      intro heq
      subst heq
      obtain ⟨-, -, file, hfile, -⟩ := hlisted'
      rcases hkeep with hkeep | hkeep
      · exact hreplaced hkeep
      · cases hkeep.symm.trans hfile
    rw [(hlookup id').1, if_pos (hbefore id' e' hlisted' hne hfirst)]
  · intro id file hfile _
    rw [(hlookup id).1]
    split
    · exact .inr rfl
    · exact .inl hfile

/-- Writing the record keeps what was kept before it. -/
theorem Retains.put {error : RecordError} (h : Retains s call s₁ (.error error))
    (hkeep : call.recordId = some keep ∨ s.files.lookup keep = none) (file : RecordFile f)
    (ix : IndexFile) (hquota : ((s₁.put keep file ix).used : ℤ) ≤ s₁.quotaBytes) :
    Retains s call (s₁.put keep file ix) (.ok keep) := by
  have hnew : ∀ id file, s.files.lookup id = some file → call.recordId ≠ some id → id ≠ keep := by
    intro id file hfile hreplaced heq
    subst heq
    rcases hkeep with hkeep | hkeep
    · exact hreplaced hkeep
    · cases hkeep.symm.trans hfile
  have hstill : ∀ id, (s₁.put keep file ix).files.lookup id = none → s₁.files.lookup id = none := by
    intro id hnone
    by_cases hid : id = keep
    · subst hid
      exact absurd hnone (by simp [RecordStore.put])
    · rwa [(lookup_put_ne hid file ix).1] at hnone
  refine ⟨?_, ?_, ?_, fun _ _ => hquota⟩
  · intro id e hlisted hlab
    obtain ⟨hthere, hsame⟩ := h.lab id e hlisted hlab
    obtain ⟨-, -, file', hfile, -⟩ := hlisted
    refine ⟨?_, fun hreplaced => ?_⟩
    · by_cases hid : id = keep
      · subst hid
        simp [RecordStore.put]
      · rwa [(lookup_put_ne hid file ix).1]
    · have hid := hnew id file' hfile hreplaced
      rw [(lookup_put_ne hid file ix).1, (lookup_put_ne hid file ix).2]
      exact hsame hreplaced
  · intro id e hlisted hauto hgone
    obtain ⟨hsource, hbefore⟩ := h.auto id e hlisted hauto (hstill id hgone)
    refine ⟨hsource, fun id' e' hlisted' hreplaced hfirst => ?_⟩
    have hgone' := hbefore id' e' hlisted' hreplaced hfirst
    obtain ⟨-, -, file', hfile, -⟩ := hlisted'
    rwa [(lookup_put_ne (hnew id' file' hfile hreplaced) file ix).1]
  · intro id file' hfile hreplaced
    rw [(lookup_put_ne (hnew id file' hfile hreplaced) file ix).1]
    exact h.others id file' hfile hreplaced

end Dropped

/-- The index of what is to be written fits into the space that is reserved
for it. -/
def FitsReserve (s : RecordStore f) (call : SaveCall f) : Prop :=
  ∀ source id body e, s.plan noFaults call = .ok (source, id, body) →
    entryOf f id call.recording source (Json.utf8Bytes body) call.now = some e →
    e.indexBytes f ≤ metaReserve

/-- It can be checked: there is one plan, and one entry. -/
instance : Decidable (FitsReserve s call) :=
  decidable_of_iff (∀ planned ∈ (s.plan noFaults call).toOption,
    ∀ e ∈ entryOf f planned.2.1 call.recording planned.1 (Json.utf8Bytes planned.2.2) call.now,
      e.indexBytes f ≤ metaReserve) (by
    constructor
    · intro h source id body e hplan hentry
      exact h (source, id, body) (by simp [hplan, Except.toOption]) e hentry
    · intro h planned hplanned e he
      cases hplan : s.plan noFaults call with
      | error error => simp [hplan, Except.toOption] at hplanned
      | ok planned' =>
        have heq : planned' = planned := by simpa [hplan, Except.toOption] using hplanned
        subst heq
        exact h _ _ _ e hplan he)

theorem foldl_drop_fields (ids : List Text) :
    (ids.foldl drop s).enabled = s.enabled ∧ (ids.foldl drop s).quotaBytes = s.quotaBytes := by
  induction ids generalizing s with
  | nil => exact ⟨rfl, rfl⟩
  | cons id ids ih => exact ih (s := s.drop id)

theorem Retains.refl (s : RecordStore f) (call : SaveCall f) (error : RecordError) :
    Retains s call s (.error error) := by
  refine ⟨?_, ?_, fun _ _ hfile _ => .inl hfile, nofun⟩
  · intro id e hlisted _
    obtain ⟨-, -, file, hfile, -⟩ := hlisted
    exact ⟨by simp [hfile], fun _ => ⟨rfl, rfl⟩⟩
  · intro id e hlisted _ hgone
    obtain ⟨-, -, file, hfile, -⟩ := hlisted
    cases hfile.symm.trans hgone

theorem retains_save (h : FitsReserve s call) :
    Retains s call (s.save noFaults call).1 (s.save noFaults call).2 := by
  have houtcome := save_outcome s call
  generalize s.save noFaults call = out at houtcome ⊢
  cases houtcome with
  | refused error => exact .refl s call error
  | pruned source id body error hplan =>
    obtain ⟨hsource, -, hkeep⟩ := plan_ok hplan
    obtain ⟨cs, n, hcs, heq, -⟩ := makeRoom_drops call.free (Json.utf8Bytes body + metaReserve)
      source id
    rw [heq]
    exact retains_dropped hcs hsource hkeep error
  | saved source id body entry s' hplan hroom hentry =>
    obtain ⟨hsource, henabled, hkeep⟩ := plan_ok hplan
    obtain ⟨cs, n, hcs, heq, hok⟩ := makeRoom_drops call.free (Json.utf8Bytes body + metaReserve)
      source id
    rw [hroom] at heq hok
    obtain ⟨look, hneeded⟩ := hok rfl
    have heq : s' = (droppedIds cs n).foldl drop s := heq
    obtain ⟨henabled', -⟩ := foldl_drop_fields (s := s) (droppedIds cs n)
    rw [← heq] at henabled'
    have hused : (s'.used : ℤ) + (Json.utf8Bytes body + metaReserve) ≤ s'.quotaBytes := by
      have hleft := hneeded.trans (min_le_left _ _)
      rw [usedBytes_noFaults look (henabled'.trans henabled)] at hleft
      push_cast at hleft
      linarith
    have hput : (s'.put id ⟨body, some call.recording, call.mtime⟩
        ⟨entry.indexBytes f, some entry⟩).used ≤
        s'.used + Json.utf8Bytes body + entry.indexBytes f := used_insert _ _ _
    have hindex := h source id body entry hplan hentry
    have hdropped := retains_dropped hcs hsource hkeep .full
    rw [← heq] at hdropped
    refine hdropped.put hkeep _ _ ?_
    omega

/-! ## Runs -/

/-- A save, or a deletion somebody asks for. -/
inductive StoreCall (f : Formats) where
  | save (call : SaveCall f)
  | delete (id : Text)

inductive StoreAnswer where
  | saved (result : Except RecordError Text)
  | deleted (done : Option Bool)

def step (s : RecordStore f) : StoreCall f → RecordStore f × StoreAnswer
  | .save call => ((s.save noFaults call).1, .saved (s.save noFaults call).2)
  | .delete id => ((s.delete noFaults id).1, .deleted (s.delete noFaults id).2)

def StoreCall.saves : StoreCall f → Option (SaveCall f)
  | .save call => some call
  | .delete _ => none

abbrev StoreStep (f : Formats) := Step (RecordStore f) (StoreCall f) StoreAnswer

/-- A lab save keeps its record under the id. -/
def SavesLab (t : StoreStep f) (id : Text) : Prop :=
  ∃ call, t.event = .save call ∧ call.source = some .lab ∧ t.out = .saved (.ok id)

/-- A call that is about the record of this id: a deletion, or a save that is
to replace it. -/
def About (t : StoreStep f) (id : Text) : Prop :=
  t.event = .delete id ∨ ∃ call, t.event = .save call ∧ call.recordId = some id

/-- Every save keeps what it has to, and the record of a lab save stays as it
is until a call is about it. -/
structure Retention (run : List (StoreStep f)) : Prop where
  saves : ∀ t ∈ run, ∀ call result, t.event = .save call → t.out = .saved result →
    Retains t.pre call t.post result
  labs : ∀ x t y r z id, run = x ++ t :: (y ++ r :: z) → SavesLab t id → isRecordId id = true →
    (∀ u ∈ y, ¬ About u id) → r.pre.files.lookup id = t.post.files.lookup id ∧
      ∃ e, Listed r.pre id e ∧ e.source = .lab

theorem Retention.save (h : Retention (trace step s [.save call])) :
    Retains s call (s.save noFaults call).1 (s.save noFaults call).2 :=
  h.saves (stepOf step s (.save call)) (by simp) _ _ rfl rfl

/-- Every index that the run writes fits into its reserve. -/
def FitReserves (run : List (StoreStep f)) : Prop :=
  ∀ t ∈ run, ∀ call ∈ t.event.saves, FitsReserve t.pre call

instance (run : List (StoreStep f)) : Decidable (FitReserves run) :=
  inferInstanceAs (Decidable (∀ t ∈ run, ∀ call ∈ t.event.saves, FitsReserve t.pre call))

theorem save_enabled : (s.save noFaults call).1.enabled = s.enabled := by
  have houtcome := save_outcome s call
  generalize s.save noFaults call = out at houtcome ⊢
  have hroom : ∀ needed source id, (s.makeRoom noFaults call.free needed source id).1.enabled =
      s.enabled := by
    intro needed source id
    obtain ⟨cs, n, -, heq, -⟩ := makeRoom_drops (s := s) call.free needed source id
    rw [heq]
    exact (foldl_drop_fields _).1
  cases houtcome with
  | refused error => rfl
  | pruned source id body error hplan => exact hroom _ _ _
  | saved source id body entry s' hplan hmade hentry =>
    have henabled := hroom (Json.utf8Bytes body + metaReserve) source id
    rwa [hmade] at henabled

theorem listed_of_savesLab {event : StoreCall f} (h : SavesLab (stepOf step s event) id)
    (hid : isRecordId id = true) : ∃ e, Listed (step s event).1 id e ∧ e.source = .lab := by
  obtain ⟨call, rfl, hlab, hout⟩ := h
  have hout : (s.save noFaults call).2 = .ok id := StoreAnswer.saved.inj hout
  show ∃ e, Listed (s.save noFaults call).1 id e ∧ e.source = .lab
  have henabled : (s.save noFaults call).1.enabled = s.enabled := save_enabled
  have houtcome := save_outcome s call
  generalize s.save noFaults call = out at houtcome hout henabled ⊢
  cases houtcome with
  | refused error => cases hout
  | pruned source id body error hplan => cases hout
  | saved source id' body entry s' hplan hmade hentry =>
    cases hout
    obtain ⟨hsource, hopen, -⟩ := plan_ok hplan
    have hsource' : entry.source = .lab := by
      rw [(entryOf_fields hentry).2]
      exact Option.some.inj (hsource.symm.trans hlab)
    exact ⟨_, entryOf_indexed hentry _ (henabled.trans hopen) hid, hsource'⟩

theorem lab_step {event : StoreCall f}
    (hfits : ∀ call ∈ event.saves, FitsReserve s call) (hlisted : Listed s id e)
    (hlab : e.source = .lab) (hother : ¬ About (stepOf step s event) id) :
    (step s event).1.files.lookup id = s.files.lookup id ∧ Listed (step s event).1 id e := by
  cases event with
  | save call =>
    have hreplaced : call.recordId ≠ some id := fun h => hother (.inr ⟨call, rfl, h⟩)
    obtain ⟨hfiles, hindex⟩ := ((retains_save (hfits call rfl)).lab id e hlisted hlab).2 hreplaced
    exact ⟨hfiles, listed_of_lookup save_enabled hfiles hindex hlisted⟩
  | delete id' =>
    have hne : id ≠ id' := fun h => hother (.inl (congrArg StoreCall.delete h.symm))
    show (s.delete noFaults id').1.files.lookup id = s.files.lookup id ∧
      Listed (s.delete noFaults id').1 id e
    cases hpath : s.pathOf id' with
    | false =>
      have hsame : (s.delete noFaults id').1 = s := by simp [delete, hpath]
      rw [hsame]
      exact ⟨rfl, hlisted⟩
    | true =>
      obtain ⟨hfiles, hindex⟩ := lookup_drop s id' id
      rw [if_neg hne] at hfiles hindex
      have hstill : Listed (s.drop id') id e :=
        listed_of_lookup (s := s) rfl hfiles hindex hlisted
      rw [delete_eq_drop hpath]
      exact ⟨hfiles, hstill⟩

theorem record_retention (f : Formats) (s : RecordStore f) (es : List (StoreCall f))
    (h : FitReserves (trace step s es)) : Retention (trace step s es) := by
  refine ⟨?_, ?_⟩
  · intro t ht call result hevent hout
    have hstep := eq_stepOf_of_mem_trace ht
    have hfits := h t ht call (by simp [hevent, StoreCall.saves])
    rw [hstep, hevent] at hout ⊢
    cases hout
    exact retains_save hfits
  · intro x t y r z id hrun hsaves hid hothers
    have hmem : ∀ u ∈ t :: (y ++ r :: z), u ∈ trace step s es := by
      intro u hu
      rw [hrun]
      exact List.mem_append_right _ hu
    obtain ⟨_, event, es₂, -, -, ht, hrest⟩ := trace_split hrun
    obtain ⟨es₃, _, _, -, hy, hr, -⟩ := trace_split hrest.symm
    obtain ⟨e, hlisted, hlab⟩ := listed_of_savesLab (ht ▸ hsaves) hid
    have hlisted : Listed t.post id e := ht ▸ hlisted
    have hlast : (final step t.post es₃).files.lookup id = t.post.files.lookup id ∧
        Listed (final step t.post es₃) id e := by
      refine final_of_no_release (L := fun s : RecordStore f =>
        s.files.lookup id = t.post.files.lookup id ∧ Listed s id e)
        (fun u => About u id) es₃ t.post ⟨rfl, hlisted⟩ ?_ ?_
      · intro u hu ⟨hfile, hstill⟩ hother
        have hstep := eq_stepOf_of_mem_trace hu
        have hu' : u ∈ trace step s es := hmem u (by simp [hy, hu])
        rw [hstep] at hother ⊢
        obtain ⟨hfile', hstill'⟩ := lab_step (h u hu') hstill hlab hother
        exact ⟨hfile'.trans hfile, hstill'⟩
      · intro u hu
        exact hothers u (hy ▸ hu)
    have hpre : r.pre = final step t.post es₃ := by rw [hr]; rfl
    rw [hpre]
    exact ⟨hlast.1, e, hlast.2, hlab⟩

/-! ## An index that is too large -/

/-- What Python writes at one time of the clock, in UTC. -/
def clockFormats : Formats where
  repr _ := "0.0".toList
  fixed2 _ := "0.00".toList
  str _ := []
  span _ _ := .float 0
  localStamp _ := some "20260921-141320".toList
  isoTime _ := some "2026-09-21T14:13:20.000Z".toList
  parseIso _ := some none

def clockNow : clockFormats.Moment := ⟨1790000000, rfl⟩

/-- A recording of a robot with this domain, and without messages. -/
def domainRecording (domain : ℤ) : Json :=
  .obj [("format".toList, .str "questix-lab-recording".toList), ("version".toList, .int 1),
    ("config".toList, .obj [("wheel_radius".toList, .int 1), ("wheel_separation".toList, .int 1)]),
    ("robot".toList, .obj [("domain".toList, .int domain)])]

def domainSave (domain : ℤ) : SaveCall clockFormats where
  recording := domainRecording domain
  source := some .lab
  now := clockNow
  mtime := clockNow
  free _ := 1000000

/-- An empty store. -/
def emptyStore (quotaBytes : ℤ) : RecordStore clockFormats where
  quotaBytes := quotaBytes
  minFreeBytes := 0
  files := ∅
  index := ∅

def largeSave : SaveCall clockFormats := domainSave (10 ^ 2100)

theorem large_domain_exceeds : ¬ ∀ (f : Formats) (s : RecordStore f) (es : List (StoreCall f)),
    (s.used : ℤ) ≤ s.quotaBytes → Retention (trace step s es) := by
  intro h
  have hretains := (h clockFormats (emptyStore 4264) [.save largeSave] (by decide)).save
  have hsaved : ((emptyStore 4264).save noFaults largeSave).2 =
      .ok "20260921-141320-lab".toList := by decide +kernel
  have hexceeds : ¬ ((((emptyStore 4264).save noFaults largeSave).1.used : ℤ) ≤
      ((emptyStore 4264).save noFaults largeSave).1.quotaBytes) := by
    decide +kernel
  exact hexceeds (hretains.quota _ hsaved)

theorem record_retention_small :
    Retention (trace step (emptyStore 5000) [.save (domainSave 3), .save (domainSave 4)]) :=
  record_retention clockFormats (emptyStore 5000) [.save (domainSave 3), .save (domainSave 4)]
    (by decide +kernel)

end RecordStore

end Questix.LabBridge
