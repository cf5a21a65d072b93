/-
Questix.LabPage.ProgressTheorems — the progress of a learner over all courses
survives a reload.
-/
import Questix.LabPage.MasteryTheorems

namespace Questix.LabPage.Quiz

open Questix.Lib

/-! ## Records of all courses -/

/-- The progress has a record of each course, which keeps what it has to. -/
structure ProgressKept {α Q : Type} (courses : List (Units × List Q))
    (Kept : List Q → α → Prop) (progress : List (Units × α)) : Prop where
  keys : progress.map Prod.fst = courses.map Prod.fst
  records : ∀ course ∈ courses, ∀ record ∈ progress.lookup course.1, Kept course.2 record

/-- Two progresses with the same records. -/
def SameProgress {α Q : Type} (courses : List (Units × List Q)) (Same : List Q → α → α → Prop)
    (progress progress' : List (Units × α)) : Prop :=
  ∀ course ∈ courses, ∃ record record', progress.lookup course.1 = some record ∧
    progress'.lookup course.1 = some record' ∧ Same course.2 record record'

section Courses

variable {α Q : Type} {courses : List (Units × List Q)} {Kept : List Q → α → Prop}
  {progress : List (Units × α)}

theorem lookup_course (hnames : (courses.map Prod.fst).Nodup) {course : Units × List Q}
    (hcourse : course ∈ courses) : courses.lookup course.1 = some course.2 := by
  have h := lookup_map_of_mem hnames Prod.snd hcourse
  rwa [List.map_id''] at h
  exact fun entry => rfl

theorem ProgressKept.change (h : ProgressKept courses Kept progress)
    (hnames : (courses.map Prod.fst).Nodup) (name : Units) {f : α → α}
    (hf : ∀ questions ∈ courses.lookup name, ∀ record, Kept questions record →
      Kept questions (f record)) : ProgressKept courses Kept (changeCourse progress name f) where
  keys := (keys_changeCourse progress name f).trans h.keys
  records := by
    intro course hcourse record hrecord
    rw [lookup_changeCourse] at hrecord
    split at hrecord
    · rename_i heq
      obtain ⟨old, hold, rfl⟩ := Option.map_eq_some_iff.1 hrecord
      exact hf course.2 (heq ▸ lookup_course hnames hcourse) old
        (h.records course hcourse old hold)
    · exact h.records course hcourse record hrecord

theorem ProgressKept.lookup (h : ProgressKept courses Kept progress)
    {course : Units × List Q} (hcourse : course ∈ courses) :
    ∃ record, progress.lookup course.1 = some record ∧ Kept course.2 record := by
  have hmem : course.1 ∈ progress.map Prod.fst := by
    rw [h.keys]
    exact List.mem_map_of_mem hcourse
  cases hlookup : progress.lookup course.1 with
  | none =>
    rw [List.lookup_eq_none_iff] at hlookup
    obtain ⟨entry, hentry, heq⟩ := List.mem_map.1 hmem
    exact absurd heq.symm (bne_iff_ne.1 (hlookup entry hentry))
  | some record => exact ⟨record, rfl, h.records course hcourse record hlookup⟩

theorem kept_map {f : List Q → α} (hnames : (courses.map Prod.fst).Nodup)
    (hf : ∀ questions, Kept questions (f questions)) :
    ProgressKept courses Kept (courses.map fun course => (course.1, f course.2)) where
  keys := by
    rw [List.map_map]
    rfl
  records := by
    intro course hcourse record hrecord
    rw [lookup_map_of_mem hnames (fun course => f course.2) hcourse] at hrecord
    cases hrecord
    exact hf course.2

variable {js : α → Js} {restore : List Q → Js → α} {Same : List Q → α → α → Prop}

theorem same_progress (hnames : (courses.map Prod.fst).Nodup)
    (h : ProgressKept courses Kept progress)
    (hsame : ∀ course ∈ courses, ∀ record ∈ progress.lookup course.1,
      Same course.2 record (restore course.2 (js record))) :
    SameProgress courses Same progress (courses.map fun course =>
      (course.1, restore course.2
        ((Js.obj (progress.map fun entry => (entry.1, js entry.2))).prop course.1))) := by
  intro course hcourse
  obtain ⟨record, hrecord, -⟩ := h.lookup hcourse
  refine ⟨record, restore course.2 (js record), hrecord, ?_, hsame course hcourse record hrecord⟩
  rw [lookup_map_of_mem hnames (fun course => restore course.2 _) hcourse, prop_map, hrecord]
  rfl

theorem again_progress (hnames : (courses.map Prod.fst).Nodup) (saved : Units → Js)
    (hagain : ∀ course ∈ courses, ∀ value,
      restore course.2 (js (restore course.2 value)) = restore course.2 value) :
    (courses.map fun course => (course.1, restore course.2 ((Js.obj
      ((courses.map fun course => (course.1, restore course.2 (saved course.1))).map fun entry =>
        (entry.1, js entry.2))).prop course.1))) =
      courses.map fun course => (course.1, restore course.2 (saved course.1)) := by
  refine List.map_congr_left fun course hcourse => ?_
  rw [prop_map, lookup_map_of_mem hnames (fun course => restore course.2 (saved course.1)) hcourse]
  exact congrArg (Prod.mk course.1) (hagain course hcourse _)

end Courses

/-! ## The quiz -/

/-- The page opens questions, and behind them the summary. -/
def QuizEvent.Fits (quizzes : Quizzes) : QuizEvent → Prop
  | .goTo course index => index ≤ ((quizzes.courses.lookup course).getD []).length
  | _ => True

/-- The progress after what the learner did. -/
def quizRun (quizzes : Quizzes) (events : List QuizEvent) : QuizProgress :=
  events.foldl (quizStep quizzes) (newQuizProgress quizzes)

section QuizRuns

variable {host : Host} {quizzes : Quizzes} {progress : QuizProgress}

theorem questionAt_mem {course : Units} {index : ℕ} {question : QuizQuestion}
    {questions : List QuizQuestion} (h : questionAt quizzes course index = some question)
    (hquestions : quizzes.courses.lookup course = some questions) : question ∈ questions := by
  unfold questionAt at h
  rw [hquestions] at h
  exact List.mem_of_getElem? h

theorem ids_of_lookup {course : Units} {questions : List QuizQuestion}
    (h : quizzes.courses.lookup course = some questions) :
    (questions.map QuizQuestion.id).Nodup := by
  obtain ⟨before, after, hsplit, -⟩ := List.lookup_eq_some_iff.1 h
  refine quizzes.ids (course, questions) ?_
  rw [hsplit]
  exact List.mem_append_right _ List.mem_cons_self

theorem quizKept_step (h : ProgressKept quizzes.courses QuizKept progress) (e : QuizEvent)
    (he : e.Fits quizzes) :
    ProgressKept quizzes.courses QuizKept (quizStep quizzes progress e) := by
  cases e with
  | check course index choice =>
    unfold quizStep
    dsimp only
    split
    · exact h
    · rename_i question hquestion
      exact h.change quizzes.names course fun questions hquestions record hrecord =>
        hrecord.check (ids_of_lookup hquestions) (questionAt_mem hquestion hquestions) choice
  | retry course index =>
    unfold quizStep
    dsimp only
    split
    · exact h
    · rename_i question hquestion
      exact h.change quizzes.names course fun questions hquestions record hrecord =>
        hrecord.retry (ids_of_lookup hquestions) (questionAt_mem hquestion hquestions)
  | goTo course index =>
    refine h.change (f := fun record => { record with index := (index : ℤ) }) quizzes.names course
      fun questions hquestions record hrecord => ?_
    have hquestions' : quizzes.courses.lookup course = some questions := hquestions
    unfold QuizEvent.Fits at he
    dsimp only at he
    rw [hquestions'] at he
    exact ⟨⟨Int.natCast_nonneg index, Int.ofNat_le.2 he⟩, hrecord.answers⟩

theorem quizKept_blank (questions : List QuizQuestion) : QuizKept questions {} where
  index := ⟨le_rfl, Int.natCast_nonneg _⟩
  answers := fun _ _ _ hnone => nomatch hnone

theorem quizKept_run (events : List QuizEvent) (hfits : ∀ e ∈ events, e.Fits quizzes) :
    ProgressKept quizzes.courses QuizKept (quizRun quizzes events) := by
  have hrun : ∀ (events : List QuizEvent) (progress : QuizProgress),
      ProgressKept quizzes.courses QuizKept progress → (∀ e ∈ events, e.Fits quizzes) →
      ProgressKept quizzes.courses QuizKept (events.foldl (quizStep quizzes) progress) := by
    intro events
    induction events with
    | nil => exact fun progress h _ => h
    | cons e events ih =>
      intro progress h hfits
      exact ih _ (quizKept_step h e (hfits e List.mem_cons_self))
        fun e' he' => hfits e' (List.mem_cons_of_mem e he')
  exact hrun events _ (kept_map quizzes.names quizKept_blank) hfits

theorem restoredQuizRecord_undefined (questions : List QuizQuestion) :
    restoredQuizRecord questions .undefined = {} := by
  unfold restoredQuizRecord
  congr 1
  exact List.filterMap_eq_nil_iff.2 fun question _ => rfl

theorem restoreQuiz_eq (host : Host) (quizzes : Quizzes) (raw : Units) : ∃ saved : Units → Js,
    restoreQuizProgress host quizzes raw = quizzes.courses.map fun course =>
      (course.1, restoredQuizRecord course.2 (saved course.1)) := by
  unfold restoreQuizProgress
  split
  · refine ⟨fun _ => .undefined, List.map_congr_left fun course _ => ?_⟩
    rw [restoredQuizRecord_undefined]
  · rename_i courses _
    exact ⟨courses.prop, rfl⟩

theorem restoreQuiz_serialize (h : host.Rereads (stored (quizCourses progress))) :
    restoreQuizProgress host quizzes (serializeQuizProgress host progress) =
      quizzes.courses.map fun course => (course.1, restoredQuizRecord course.2
        ((Js.obj (quizCourses progress)).prop course.1)) := by
  unfold restoreQuizProgress serializeQuizProgress
  rw [savedCourses_of_rereads h]

end QuizRuns

/-! ## The mastery test -/

/-- The page opens questions of the course, and its fields take no longer texts than are saved. -/
def MasteryEvent.Fits (tests : MasteryTests) : MasteryEvent → Prop
  | .goTo course index => index < ((tests.courses.lookup course).getD []).length
  | .change _ field => field.Fits
  | .submit _ date => date.length < MAX_TIMESTAMP_LENGTH
  | _ => True

def masteryRun (host : Host) (tests : MasteryTests) (events : List MasteryEvent) :
    MasteryProgress :=
  events.foldl (masteryStep host tests) (newMasteryProgress tests)

section MasteryRuns

variable {host : Host} {tests : MasteryTests} {progress : MasteryProgress}

theorem masteryKept_step (h : ProgressKept tests.courses (MasteryKept host) progress)
    (e : MasteryEvent) (he : e.Fits tests) :
    ProgressKept tests.courses (MasteryKept host) (masteryStep host tests progress e) := by
  cases e with
  | start course => exact h.change tests.names course fun _ _ _ hrecord => hrecord.begin
  | goTo course index =>
    refine h.change tests.names course fun questions hquestions record hrecord => ?_
    have hquestions' : tests.courses.lookup course = some questions := hquestions
    unfold MasteryEvent.Fits at he
    dsimp only at he
    rw [hquestions'] at he
    exact hrecord.openQuestion he
  | change course change =>
    refine h.change tests.names course fun questions hquestions record hrecord => ?_
    have hquestions' : tests.courses.lookup course = some questions := hquestions
    rw [hquestions']
    exact hrecord.change he
  | submit course date =>
    refine h.change tests.names course fun questions hquestions record hrecord => ?_
    have hquestions' : tests.courses.lookup course = some questions := hquestions
    rw [hquestions']
    exact hrecord.submit he
  | check course index checked =>
    exact h.change tests.names course fun _ _ _ hrecord => hrecord.setCheck index checked

theorem masteryKept_run (events : List MasteryEvent) (hfits : ∀ e ∈ events, e.Fits tests) :
    ProgressKept tests.courses (MasteryKept host) (masteryRun host tests events) := by
  have hrun : ∀ (events : List MasteryEvent) (progress : MasteryProgress),
      ProgressKept tests.courses (MasteryKept host) progress → (∀ e ∈ events, e.Fits tests) →
      ProgressKept tests.courses (MasteryKept host)
        (events.foldl (masteryStep host tests) progress) := by
    intro events
    induction events with
    | nil => exact fun progress h _ => h
    | cons e events ih =>
      intro progress h hfits
      exact ih _ (masteryKept_step h e (hfits e List.mem_cons_self))
        fun e' he' => hfits e' (List.mem_cons_of_mem e he')
  exact hrun events _ (kept_map tests.names (kept_blank host)) hfits

theorem restoreMastery_eq (host : Host) (tests : MasteryTests) (raw : Units) :
    ∃ saved : Units → Js, restoreMastery host tests raw = tests.courses.map fun course =>
      (course.1, restoredMasteryRecord host course.2 (saved course.1)) := by
  unfold restoreMastery
  split
  · exact ⟨fun _ => .undefined, rfl⟩
  · rename_i courses _
    exact ⟨courses.prop, rfl⟩

theorem restoreMastery_serialize (h : host.Rereads (stored (masteryCourses progress))) :
    restoreMastery host tests (serializeMastery host progress) =
      tests.courses.map fun course => (course.1, restoredMasteryRecord host course.2
        ((Js.obj (masteryCourses progress)).prop course.1)) := by
  unfold restoreMastery serializeMastery
  rw [savedCourses_of_rereads h]

end MasteryRuns

/-! ## A reload -/

/-- Every attempt passes the check of the form, and there are two with a count or none. -/
structure AttemptsKept (host : Host) (questions : List MasteryQuestion) (record : MasteryRecord) :
    Prop where
  first : ∀ attempt ∈ record.first, anyMissing host questions attempt.answers = false
  last : ∀ attempt ∈ record.last, anyMissing host questions attempt.answers = false
  paired : Paired record.first record.last record.attempts

/-- What a learner has done survives a reload. -/
structure Survives (host : Host) (quizzes : Quizzes) (tests : MasteryTests) : Prop where
  quiz : ∀ events : List QuizEvent, (∀ e ∈ events, e.Fits quizzes) →
    (∀ course ∈ quizzes.courses, ∀ record ∈ (quizRun quizzes events).lookup course.1,
      QuizSavable course.2 record) →
    host.Rereads (stored (quizCourses (quizRun quizzes events))) →
    SameProgress quizzes.courses SameQuiz (quizRun quizzes events) (restoreQuizProgress host
      quizzes (serializeQuizProgress host (quizRun quizzes events)))
  mastery : ∀ events : List MasteryEvent, (∀ e ∈ events, e.Fits tests) →
    (∀ course ∈ tests.courses, ∀ record ∈ (masteryRun host tests events).lookup course.1,
      record.attempts ≤ MAX_SAVED_ATTEMPTS) →
    host.Rereads (stored (masteryCourses (masteryRun host tests events))) →
    SameProgress tests.courses (SameMastery host) (masteryRun host tests events)
      (restoreMastery host tests (serializeMastery host (masteryRun host tests events)))
  /-- Whatever text was stored. -/
  attempts : ∀ raw, ∀ course ∈ tests.courses,
    ∃ record, (restoreMastery host tests raw).lookup course.1 = some record ∧
      AttemptsKept host course.2 record
  quizAgain : ∀ raw, host.Rereads (stored (quizCourses (restoreQuizProgress host quizzes raw))) →
    restoreQuizProgress host quizzes (serializeQuizProgress host
      (restoreQuizProgress host quizzes raw)) = restoreQuizProgress host quizzes raw
  masteryAgain : ∀ raw,
    host.Rereads (stored (masteryCourses (restoreMastery host tests raw))) →
    restoreMastery host tests (serializeMastery host (restoreMastery host tests raw)) =
      restoreMastery host tests raw

end Questix.LabPage.Quiz
