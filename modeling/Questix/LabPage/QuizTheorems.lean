/-
Questix.LabPage.QuizTheorems — a quiz is the same after a reload.

`QuizKept` is what every answer of a record meets, however the record came
about. Such a record is read back with the same answers, in the order of the
questions (`restored_of_kept`); what is read of any text is such a record, in
that order already.
-/
import Mathlib.Data.List.Nodup
import Questix.LabPage.QuizCore

namespace Questix.LabPage.Quiz

open Questix.Lib

/-! ## Objects -/

section Objects

variable {α β : Type} {members : List (Units × α)} {key : Units}

theorem lookup_assign (members : List (Units × α)) (key : Units) (value : α) (k : Units) :
    (assign members key value).lookup k = if k = key then some value else members.lookup k := by
  induction members with
  | nil =>
    unfold assign
    by_cases h : k = key
    · simp [h]
    · have hbeq : (k == key) = false := beq_false_of_ne h
      simp [List.lookup_cons, hbeq, h]
  | cons entry rest ih =>
    obtain ⟨k', v⟩ := entry
    unfold assign
    split
    · rename_i heq
      subst heq
      by_cases h : k = k'
      · simp [h]
      · have hbeq : (k == k') = false := beq_false_of_ne h
        simp [List.lookup_cons, hbeq, h]
    · rename_i hne
      by_cases h : k = k'
      · subst h
        simp [hne]
      · have hbeq : (k == k') = false := beq_false_of_ne h
        simp only [List.lookup_cons, hbeq, ih]

theorem lookup_map (f : α → β) (members : List (Units × α)) (key : Units) :
    (members.map fun entry => (entry.1, f entry.2)).lookup key = (members.lookup key).map f := by
  induction members with
  | nil => rfl
  | cons entry rest ih =>
    obtain ⟨k, v⟩ := entry
    simp only [List.map_cons, List.lookup_cons]
    split
    · rfl
    · exact ih

theorem prop_map (f : α → Js) (members : List (Units × α)) (key : Units) :
    (Js.obj (members.map fun entry => (entry.1, f entry.2))).prop key =
      ((members.lookup key).map f).getD .undefined := by
  show ((members.map fun entry => (entry.1, f entry.2)).lookup key).getD .undefined = _
  rw [lookup_map]

theorem lookup_changeCourse (progress : List (Units × α)) (course : Units) (f : α → α)
    (key : Units) : (changeCourse progress course f).lookup key =
      if key = course then (progress.lookup key).map f else progress.lookup key := by
  induction progress with
  | nil => simp [changeCourse]
  | cons entry rest ih =>
    obtain ⟨k, v⟩ := entry
    unfold changeCourse at ih ⊢
    by_cases hkey : key = k
    · subst hkey
      by_cases hcourse : key = course
      · simp [hcourse]
      · simp [hcourse]
    · have hbeq : (key == k) = false := beq_false_of_ne hkey
      rw [List.map_cons]
      have hfst : (if k = course then (k, f v) else (k, v)).1 = k := by split <;> rfl
      generalize (if k = course then (k, f v) else (k, v)) = e at hfst
      obtain ⟨k', v'⟩ := e
      dsimp only at hfst ⊢
      subst hfst
      simp only [List.lookup_cons, hbeq]
      exact ih

theorem keys_changeCourse (progress : List (Units × α)) (course : Units) (f : α → α) :
    (changeCourse progress course f).map Prod.fst = progress.map Prod.fst := by
  unfold changeCourse
  rw [List.map_map]
  refine List.map_congr_left fun entry _ => ?_
  dsimp only [Function.comp_apply]
  split <;> rfl

theorem lookup_of_mem {γ : Type} {items : List γ} {name : γ → Units}
    (hnodup : (items.map name).Nodup) (f : γ → Option α) {item : γ} (hitem : item ∈ items) :
    (items.filterMap fun item => (f item).map fun value => (name item, value)).lookup
      (name item) = f item := by
  induction items with
  | nil => cases hitem
  | cons first rest ih =>
    rw [List.map_cons, List.nodup_cons] at hnodup
    have hrest : ∀ k, k ∉ rest.map name →
        (rest.filterMap fun item => (f item).map fun value => (name item, value)).lookup k =
          none := by
      intro k hk
      rw [List.lookup_eq_none_iff]
      intro entry hentry
      obtain ⟨item', hitem', heq⟩ := List.mem_filterMap.1 hentry
      obtain ⟨value, -, rfl⟩ := Option.map_eq_some_iff.1 heq
      rw [bne_iff_ne]
      rintro rfl
      exact hk (List.mem_map_of_mem hitem')
    rw [List.filterMap_cons]
    rcases List.mem_cons.1 hitem with rfl | hitem
    · cases hf : f item with
      | none => exact hrest _ hnodup.1
      | some value => simp
    · have hne : name item ≠ name first := fun heq =>
        hnodup.1 (heq ▸ List.mem_map_of_mem hitem)
      cases f first with
      | none => exact ih hnodup.2 hitem
      | some value =>
        have hbeq : (name item == name first) = false := beq_false_of_ne hne
        simp only [Option.map_some, List.lookup_cons, hbeq]
        exact ih hnodup.2 hitem

theorem lookup_map_of_mem {γ : Type} {items : List γ} {name : γ → Units}
    (hnodup : (items.map name).Nodup) (f : γ → α) {item : γ} (hitem : item ∈ items) :
    (items.map fun item => (name item, f item)).lookup (name item) = some (f item) := by
  have h := lookup_of_mem hnodup (fun item => some (f item)) hitem
  simpa using h

end Objects

theorem savedCourses_of_rereads {host : Host} {courses : List (Units × Js)}
    (h : host.Rereads (stored courses)) :
    savedCourses host (forStorage host courses) = some (.obj courses) := by
  unfold savedCourses forStorage
  rw [h]
  rfl

@[simp] theorem integerOf_intJs (n : ℤ) : integerOf (intJs n) = some n := by
  unfold integerOf intJs
  simp

/-! ## Answers of the quiz -/

/-- An answer that fits its question. -/
structure QuizAnswer.Fits (question : QuizQuestion) (answer : QuizAnswer) : Prop where
  choice : validChoice answer.choice question
  correct : answer.correct = (answer.checked && decide (answer.choice = some question.answer))
  unchecked : answer.checked = false → answer.choice = none
  attempts : 1 ≤ answer.attempts

/-- What a record of a course keeps. -/
structure QuizKept (questions : List QuizQuestion) (record : QuizRecord) : Prop where
  index : 0 ≤ record.index ∧ record.index ≤ questions.length
  answers : ∀ question ∈ questions, ∀ answer ∈ quizAnswer record question, answer.Fits question

/-- And that its questions were not answered too often to be saved. -/
def QuizSavable (questions : List QuizQuestion) (record : QuizRecord) : Prop :=
  ∀ question ∈ questions, ∀ answer ∈ quizAnswer record question,
    answer.attempts ≤ MAX_QUIZ_ATTEMPTS

section Quiz

variable {questions : List QuizQuestion} {question : QuizQuestion} {record : QuizRecord}
  {answer : QuizAnswer}

theorem fits_checkedAnswer {choice : Option ℤ} (hchoice : validChoice choice question)
    {previous : Option QuizAnswer} (hprevious : ∀ a ∈ previous, a.Fits question) :
    (checkedAnswer question choice previous).Fits question where
  choice := hchoice
  correct := (Bool.true_and _).symm
  unchecked := fun h => Bool.noConfusion (show true = false from h)
  attempts := by
    cases previous with
    | none => exact le_rfl
    | some a =>
      have := (hprevious a rfl).attempts
      show 1 ≤ a.attempts + 1
      omega

theorem QuizKept.assign (h : QuizKept questions record)
    (hids : (questions.map QuizQuestion.id).Nodup) (hquestion : question ∈ questions)
    (hfits : answer.Fits question) : QuizKept questions
      { record with answers := Quiz.assign record.answers question.id answer } where
  index := h.index
  answers := by
    intro other hother a ha
    unfold quizAnswer at ha
    rw [lookup_assign] at ha
    split at ha
    · rename_i heq
      cases ha
      rwa [List.inj_on_of_nodup_map hids hother hquestion heq]
    · exact h.answers other hother a ha

theorem QuizKept.check (h : QuizKept questions record)
    (hids : (questions.map QuizQuestion.id).Nodup) (hquestion : question ∈ questions)
    (choice : Option ℤ) : QuizKept questions (checkQuizAnswer question choice record) := by
  unfold checkQuizAnswer
  split
  · rename_i hchoice
    dsimp only
    split
    · exact h
    · exact h.assign hids hquestion (fits_checkedAnswer hchoice (h.answers question hquestion))
  · exact h

theorem QuizKept.retry (h : QuizKept questions record)
    (hids : (questions.map QuizQuestion.id).Nodup) (hquestion : question ∈ questions) :
    QuizKept questions (retryQuizAnswer question record) := by
  unfold retryQuizAnswer
  split
  · exact h
  · rename_i answer hanswer
    refine h.assign hids hquestion ⟨?_, rfl, fun _ => rfl, ?_⟩
    · exact fun c hc => nomatch hc
    · exact (h.answers question hquestion answer hanswer).attempts

/-- An answer that fits is read back as it is. -/
theorem restored_js (hfits : answer.Fits question) (hmax : answer.attempts ≤ MAX_QUIZ_ATTEMPTS) :
    restoredQuizAnswer question answer.js = some answer := by
  obtain ⟨choice, checked, correct, firstCorrect, attempts⟩ := answer
  have hlow := hfits.attempts
  have hcorrect := hfits.correct
  have hunchecked := hfits.unchecked
  have hvalid := hfits.choice
  dsimp only at hlow hcorrect hunchecked hvalid hmax
  have hchoice : choiceOf (choiceJs choice) = some choice := by
    cases choice with
    | none => rfl
    | some c =>
      show (integerOf (intJs c)).map some = some (some c)
      rw [integerOf_intJs]
      rfl
  have hkept : (if checked = true then choice else none) = choice := by
    cases checked with
    | true => rfl
    | false => exact (hunchecked rfl).symm
  unfold restoredQuizAnswer
  have h₁ : (QuizAnswer.js ⟨choice, checked, correct, firstCorrect, attempts⟩).prop
      (units "checked") = .bool checked := by rfl
  have h₂ : (QuizAnswer.js ⟨choice, checked, correct, firstCorrect, attempts⟩).prop
      (units "firstCorrect") = .bool firstCorrect := by rfl
  have h₃ : (QuizAnswer.js ⟨choice, checked, correct, firstCorrect, attempts⟩).prop
      (units "attempts") = intJs attempts := by rfl
  have h₄ : (QuizAnswer.js ⟨choice, checked, correct, firstCorrect, attempts⟩).prop
      (units "choice") = choiceJs choice := by rfl
  rw [h₁, h₂, h₃, h₄, integerOf_intJs, hchoice]
  simp only [boolOf, Option.bind_eq_bind, Option.bind_some]
  rw [if_neg (by omega), if_pos hvalid, hkept, ← hcorrect]

theorem restored_of_kept (h : QuizKept questions record) (hmax : QuizSavable questions record) :
    restoredQuizRecord questions record.js =
      { index := record.index
        answers := questions.filterMap fun question =>
          (quizAnswer record question).map fun answer => (question.id, answer) } := by
  have hindex : integerOf (record.js.prop (units "index")) = some record.index :=
    integerOf_intJs record.index
  have hanswers : ∀ id, (record.js.prop (units "answers")).prop id =
      ((record.answers.lookup id).map QuizAnswer.js).getD .undefined :=
    fun id => prop_map QuizAnswer.js record.answers id
  unfold restoredQuizRecord
  simp only [hindex, hanswers]
  rw [if_pos h.index]
  congr 1
  refine List.filterMap_congr fun question hquestion => ?_
  congr 1
  show restoredQuizAnswer question (((quizAnswer record question).map QuizAnswer.js).getD
    .undefined) = quizAnswer record question
  cases hanswer : quizAnswer record question with
  | none => rfl
  | some answer =>
    exact restored_js (h.answers question hquestion answer hanswer)
      (hmax question hquestion answer hanswer)

theorem fits_restored {saved : Js} (h : restoredQuizAnswer question saved = some answer) :
    answer.Fits question ∧ answer.attempts ≤ MAX_QUIZ_ATTEMPTS := by
  unfold restoredQuizAnswer at h
  simp only [Option.bind_eq_bind, Option.bind_eq_some_iff] at h
  obtain ⟨checked, -, firstCorrect, -, attempts, -, h⟩ := h
  split at h
  · cases h
  · rename_i hattempts
    obtain ⟨choice, -, h⟩ := Option.bind_eq_some_iff.1 h
    split at h
    · rename_i hvalid
      cases h
      refine ⟨⟨?_, ?_, ?_, by dsimp only; omega⟩, by dsimp only; omega⟩
      · dsimp only
        split
        · exact hvalid
        · exact fun c hc => nomatch hc
      · cases checked <;> rfl
      · intro hunchecked
        dsimp only at hunchecked ⊢
        rw [hunchecked]
        rfl
    · cases h

theorem restoredQuizRecord_again (hids : (questions.map QuizQuestion.id).Nodup) (saved : Js) :
    restoredQuizRecord questions (restoredQuizRecord questions saved).js =
      restoredQuizRecord questions saved := by
  have hlookup : ∀ question ∈ questions,
      quizAnswer (restoredQuizRecord questions saved) question =
        restoredQuizAnswer question ((saved.prop (units "answers")).prop question.id) :=
    fun question hquestion => lookup_of_mem hids _ hquestion
  have hkept : QuizKept questions (restoredQuizRecord questions saved) := by
    refine ⟨?_, fun question hquestion answer hanswer => ?_⟩
    · unfold restoredQuizRecord
      dsimp only
      split
      · omega
      · split
        · assumption
        · omega
    · rw [hlookup question hquestion] at hanswer
      exact (fits_restored hanswer).1
  rw [restored_of_kept hkept fun question hquestion answer hanswer => by
    rw [hlookup question hquestion] at hanswer
    exact (fits_restored hanswer).2]
  have hanswers : (restoredQuizRecord questions saved).answers = questions.filterMap
      fun question => (quizAnswer (restoredQuizRecord questions saved) question).map
        fun answer => (question.id, answer) := by
    refine List.filterMap_congr fun question hquestion => ?_
    rw [hlookup question hquestion]
  rw [← hanswers]

/-- Two records that answer every question alike. -/
structure SameQuiz (questions : List QuizQuestion) (record record' : QuizRecord) : Prop where
  index : record'.index = record.index
  answers : ∀ question ∈ questions, quizAnswer record' question = quizAnswer record question
  summary : quizSummary questions record' = quizSummary questions record

theorem same_restored (hids : (questions.map QuizQuestion.id).Nodup)
    (h : QuizKept questions record) (hmax : QuizSavable questions record) :
    SameQuiz questions record (restoredQuizRecord questions record.js) := by
  have hanswers : ∀ question ∈ questions,
      quizAnswer (restoredQuizRecord questions record.js) question =
        quizAnswer record question := by
    intro question hquestion
    rw [restored_of_kept h hmax]
    exact lookup_of_mem hids _ hquestion
  refine ⟨by rw [restored_of_kept h hmax], hanswers, ?_⟩
  unfold quizSummary
  rw [List.map_congr_left hanswers]

end Quiz

end Questix.LabPage.Quiz
