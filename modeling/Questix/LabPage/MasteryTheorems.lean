/-
Questix.LabPage.MasteryTheorems — what a learner has done is the same after a
reload.

As for the quiz: `MasteryKept` is what every record meets that the page can make,
with texts that fit what is saved. Such a record is read back with its answers
in the order of the questions (`restored_of_mastery`); what is read of any text
is such a record, in that order already.
-/
import Questix.LabPage.MasteryCore
import Questix.LabPage.QuizTheorems

namespace Questix.LabPage.Quiz

open Questix.Lib

/-! ## Answers -/

/-- The texts are no longer than what is read of them. -/
structure MasteryAnswer.Fits (answer : MasteryAnswer) : Prop where
  value : answer.value.length < MAX_VALUE_LENGTH
  reason : answer.reason.length < MAX_REASON_LENGTH
  note : answer.note.length ≤ MAX_NOTE_LENGTH

def AnswersFit (answers : Answers) : Prop := ∀ id, (answerOf answers id).Fits

/-- The answers to the questions, in their order. -/
def ordered (questions : List MasteryQuestion) (answers : Answers) : Answers :=
  questions.map fun question => (question.id, answerOf answers question.id)

section Answers

variable {host : Host} {questions : List MasteryQuestion} {question : MasteryQuestion}
  {answers : Answers} {answer : MasteryAnswer}

theorem fits_blank : blankMasteryAnswer.Fits := ⟨by decide, by decide, by decide⟩

theorem AnswersFit.assign (h : AnswersFit answers) (id : Units) (hanswer : answer.Fits) :
    AnswersFit (Quiz.assign answers id answer) := by
  intro id'
  unfold answerOf
  rw [lookup_assign]
  split
  · exact hanswer
  · exact h id'

theorem restored_answer_js (h : answer.Fits) : restoredMasteryAnswer answer.js = answer := by
  obtain ⟨value, reason, note, noteUnknown⟩ := answer
  have hvalue : savedText (.str value) MAX_VALUE_LENGTH = value := if_pos h.value
  have hreason : savedText (.str reason) MAX_REASON_LENGTH = reason := if_pos h.reason
  have hnote : savedNote (.str note) = note := List.take_of_length_le h.note
  have hunknown : decide (boolOf (.bool noteUnknown) = some true) = noteUnknown := by
    cases noteUnknown <;> rfl
  show MasteryAnswer.mk (savedText (.str value) MAX_VALUE_LENGTH)
    (savedText (.str reason) MAX_REASON_LENGTH) (savedNote (.str note))
    (decide (boolOf (.bool noteUnknown) = some true)) = _
  rw [hvalue, hreason, hnote, hunknown]

theorem restored_answersJs (h : AnswersFit answers) (questions : List MasteryQuestion) :
    restoredAnswers questions (answersJs answers) = ordered questions answers := by
  unfold restoredAnswers ordered
  refine List.map_congr_left fun question _ => ?_
  congr 1
  unfold answersJs
  rw [prop_map]
  have hfits := h question.id
  unfold answerOf at hfits ⊢
  cases hlookup : answers.lookup question.id with
  | none => rfl
  | some answer =>
    rw [hlookup] at hfits
    exact restored_answer_js hfits

theorem fits_restored_answer (saved : Js) : (restoredMasteryAnswer saved).Fits := by
  have htext : ∀ (value : Js) {limit : ℕ}, 0 < limit → (savedText value limit).length < limit := by
    intro value limit hlimit
    unfold savedText
    split
    · split
      · assumption
      · exact hlimit
    · exact hlimit
  refine ⟨htext _ (by decide), htext _ (by decide), ?_⟩
  show (savedNote _).length ≤ MAX_NOTE_LENGTH
  unfold savedNote
  split
  · exact List.length_take_le _ _
  · exact Nat.zero_le _

variable (hids : (questions.map MasteryQuestion.id).Nodup)

include hids in
theorem lookup_ordered (answers : Answers) (hquestion : question ∈ questions) :
    (ordered questions answers).lookup question.id = some (answerOf answers question.id) :=
  lookup_map_of_mem hids (fun question => answerOf answers question.id) hquestion

include hids in
theorem answerOf_ordered (answers : Answers) (hquestion : question ∈ questions) :
    answerOf (ordered questions answers) question.id = answerOf answers question.id := by
  rw [answerOf, lookup_ordered hids answers hquestion]
  rfl

include hids in
theorem lookup_restoredAnswers (saved : Js) (hquestion : question ∈ questions) :
    (restoredAnswers questions saved).lookup question.id =
      some (restoredMasteryAnswer (saved.prop question.id)) :=
  lookup_map_of_mem hids (fun question => restoredMasteryAnswer (saved.prop question.id))
    hquestion

include hids in
theorem ordered_restoredAnswers (saved : Js) :
    ordered questions (restoredAnswers questions saved) = restoredAnswers questions saved := by
  refine List.map_congr_left fun question hquestion => ?_
  rw [answerOf, lookup_restoredAnswers hids saved hquestion]
  rfl

theorem fits_restoredAnswers (questions : List MasteryQuestion) (saved : Js) :
    AnswersFit (restoredAnswers questions saved) := by
  intro id
  unfold answerOf
  cases hlookup : (restoredAnswers questions saved).lookup id with
  | none => exact fits_blank
  | some answer =>
    obtain ⟨before, after, hsplit, -⟩ := List.lookup_eq_some_iff.1 hlookup
    have hmem : (id, answer) ∈ restoredAnswers questions saved := by
      rw [hsplit]
      exact List.mem_append_right _ List.mem_cons_self
    obtain ⟨question, -, heq⟩ := List.mem_map.1 hmem
    cases heq
    exact fits_restored_answer _

/-! What is missing, and the grade, depend on the answers to the questions alone. -/

theorem masteryMissing_getD (answer : Option MasteryAnswer) :
    masteryMissing host question (some (answer.getD blankMasteryAnswer)) =
      masteryMissing host question answer := by
  cases answer <;> rfl

include hids in
theorem missing_ordered (answers : Answers) (hquestion : question ∈ questions) :
    masteryMissing host question ((ordered questions answers).lookup question.id) =
      masteryMissing host question (answers.lookup question.id) := by
  rw [lookup_ordered hids answers hquestion]
  exact masteryMissing_getD _

include hids in
theorem anyMissing_ordered (answers : Answers) :
    anyMissing host questions (ordered questions answers) = anyMissing host questions answers := by
  unfold anyMissing
  rw [Bool.eq_iff_iff, List.any_eq_true, List.any_eq_true]
  refine exists_congr fun question => and_congr_right fun hquestion => ?_
  rw [missing_ordered hids answers hquestion]

theorem gradeMastery_congr {answers' : Answers}
    (h : ∀ question ∈ questions, answers'.lookup question.id = answers.lookup question.id) :
    gradeMastery host questions answers' = gradeMastery host questions answers := by
  have hresults : (questions.map fun question =>
        gradeQuestion host question (answers'.lookup question.id)) =
      questions.map fun question =>
        gradeQuestion host question (answers.lookup question.id) :=
    List.map_congr_left fun question hquestion => by rw [h question hquestion]
  unfold gradeMastery
  rw [hresults]

theorem not_answered_nil (host : Host) (part : Part) : isAnswered host part [] = false := by
  unfold isAnswered
  rw [if_neg (by decide)]
  cases part with
  | number value tolerance =>
    have htext : numericText host [] = [] := by
      unfold numericText
      rw [host.nfkc_nil]
      rfl
    show (numberOf host []).isSome = false
    unfold numberOf
    rw [htext]
    rfl
  | choice choices value => rfl

theorem isSome_of_not_missing (h : anyMissing host questions answers = false)
    (hquestion : question ∈ questions) : (answers.lookup question.id).isSome := by
  by_contra hnone
  rw [Option.not_isSome_iff_eq_none] at hnone
  have hmissing : masteryMissing host question (answers.lookup question.id) = [] := by
    have := List.any_eq_false.1 h question hquestion
    simpa using this
  rw [hnone] at hmissing
  unfold masteryMissing at hmissing
  dsimp only [Option.getD_none] at hmissing
  rw [show blankMasteryAnswer.value = [] from rfl, not_answered_nil] at hmissing
  cases hmissing

include hids in
theorem lookup_of_not_missing (h : anyMissing host questions answers = false)
    (hquestion : question ∈ questions) :
    (ordered questions answers).lookup question.id = answers.lookup question.id := by
  obtain ⟨answer, hanswer⟩ := Option.isSome_iff_exists.1 (isSome_of_not_missing h hquestion)
  rw [lookup_ordered hids answers hquestion, answerOf, hanswer]
  rfl

end Answers

/-! ## Attempts and drafts -/

/-- An attempt that passes the check of the form. -/
structure Attempt.Kept (host : Host) (questions : List MasteryQuestion) (attempt : Attempt) :
    Prop where
  fits : AnswersFit attempt.answers
  complete : anyMissing host questions attempt.answers = false
  date : attempt.date.length < MAX_TIMESTAMP_LENGTH
  checks : attempt.checks.length = CRITERIA_COUNT

structure Draft.Kept (questions : List MasteryQuestion) (draft : Draft) : Prop where
  fits : AnswersFit draft.answers
  index : draft.index = 0 ∨ 0 ≤ draft.index ∧ draft.index < questions.length

def Attempt.ordered (questions : List MasteryQuestion) (attempt : Attempt) : Attempt :=
  { attempt with answers := Quiz.ordered questions attempt.answers }

def Draft.ordered (questions : List MasteryQuestion) (draft : Draft) : Draft :=
  { draft with answers := Quiz.ordered questions draft.answers }

/-- The two attempts and their number go together. -/
def Paired (first last : Option Attempt) (attempts : ℤ) : Prop :=
  first.isSome = last.isSome ∧ (first.isSome = true → 1 ≤ attempts) ∧
    (first = none → attempts = 0)

/-- What a record of a course keeps. -/
structure MasteryKept (host : Host) (questions : List MasteryQuestion) (record : MasteryRecord) :
    Prop where
  draft : ∀ draft ∈ record.draft, draft.Kept questions
  first : ∀ attempt ∈ record.first, attempt.Kept host questions
  last : ∀ attempt ∈ record.last, attempt.Kept host questions
  paired : Paired record.first record.last record.attempts

def MasteryRecord.ordered (questions : List MasteryQuestion) (record : MasteryRecord) :
    MasteryRecord :=
  { record with
    draft := record.draft.map (Draft.ordered questions)
    first := record.first.map (Attempt.ordered questions)
    last := record.last.map (Attempt.ordered questions) }

section Records

variable {host : Host} {questions : List MasteryQuestion} {record : MasteryRecord}

theorem MasteryKept.begin (h : MasteryKept host questions record) :
    MasteryKept host questions (beginMastery record) where
  draft := by
    rintro draft hdraft
    have heq : record.draft.getD {} = draft := Option.some.inj hdraft
    cases hold : record.draft with
    | none =>
      rw [hold] at heq
      rw [← heq]
      exact ⟨fun id => fits_blank, .inl rfl⟩
    | some old =>
      rw [hold] at heq
      rw [← heq]
      exact h.draft old hold
  first := h.first
  last := h.last
  paired := h.paired

theorem MasteryKept.openQuestion (h : MasteryKept host questions record) {index : ℕ}
    (hindex : index < questions.length) :
    MasteryKept host questions (Quiz.openQuestion index record) where
  draft := by
    intro draft hdraft
    obtain ⟨old, hold, rfl⟩ := Option.map_eq_some_iff.1 hdraft
    refine ⟨(h.draft old hold).fits, .inr ⟨?_, ?_⟩⟩
    · exact Int.natCast_nonneg index
    · exact Int.ofNat_lt.2 hindex
  first := h.first
  last := h.last
  paired := h.paired

/-- A field of the form takes no longer text than can be saved: the form allows 30 code
units of a number, the index of a choice, and 1500 of a note. -/
def Change.Fits : Change → Prop
  | .value text => text.length < MAX_VALUE_LENGTH
  | .reason text => text.length < MAX_REASON_LENGTH
  | .note text => text.length ≤ MAX_NOTE_LENGTH
  | .noteUnknown _ => True

theorem Change.Fits.apply {change : Change} (hchange : change.Fits) {answer : MasteryAnswer}
    (h : answer.Fits) : (change.apply answer).Fits := by
  cases change with
  | value text => exact ⟨hchange, h.reason, h.note⟩
  | reason text => exact ⟨h.value, hchange, h.note⟩
  | note text => exact ⟨h.value, h.reason, hchange⟩
  | noteUnknown unknown => exact ⟨h.value, h.reason, h.note⟩

theorem MasteryKept.change (h : MasteryKept host questions record) {change : Change}
    (hchange : change.Fits) :
    MasteryKept host questions (changeDraftAnswer questions change record) := by
  unfold changeDraftAnswer
  split
  · exact h
  · rename_i draft hdraft
    split
    · exact h
    · rename_i question _
      have hkept := h.draft draft hdraft
      refine ⟨fun draft' hdraft' => ?_, h.first, h.last, h.paired⟩
      cases hdraft'
      exact ⟨hkept.fits.assign question.id (hchange.apply (hkept.fits question.id)),
        hkept.index⟩

theorem MasteryKept.submit (h : MasteryKept host questions record) {date : Units}
    (hdate : date.length < MAX_TIMESTAMP_LENGTH) :
    MasteryKept host questions (submitMastery host questions date record) := by
  unfold submitMastery
  split
  · exact h
  · rename_i draft hdraft
    split
    · exact h
    · rename_i hcomplete
      have hattempt : Attempt.Kept host questions ⟨draft.answers, date, newChecks⟩ :=
        ⟨(h.draft draft hdraft).fits, Bool.eq_false_iff.2 hcomplete, hdate, rfl⟩
      refine ⟨fun _ hnone => (nomatch hnone), fun attempt heq => ?_, fun attempt heq => ?_,
        rfl, fun _ => ?_, fun hnone => (nomatch hnone)⟩
      · cases hfirst : record.first with
        | none =>
          rw [hfirst] at heq
          cases heq
          exact hattempt
        | some old =>
          rw [hfirst] at heq
          cases heq
          exact h.first old hfirst
      · cases heq
        exact hattempt
      · obtain ⟨-, hsome, hnone⟩ := h.paired
        cases hfirst : record.first with
        | none =>
          have := hnone hfirst
          dsimp only
          omega
        | some old =>
          have := hsome (by rw [hfirst]; rfl)
          dsimp only
          omega

theorem MasteryKept.setCheck (h : MasteryKept host questions record)
    (index : Fin CRITERIA_COUNT) (checked : Bool) :
    MasteryKept host questions (Quiz.setCheck index checked record) where
  draft := h.draft
  first := h.first
  last := by
    intro attempt hattempt
    obtain ⟨old, hold, rfl⟩ := Option.map_eq_some_iff.1 hattempt
    obtain ⟨hfits, hcomplete, hdate, hchecks⟩ := h.last old hold
    exact ⟨hfits, hcomplete, hdate, List.length_set.trans hchecks⟩
  paired := by
    obtain ⟨hsame, hsome, hnone⟩ := h.paired
    refine ⟨?_, hsome, hnone⟩
    show record.first.isSome = (record.last.map _).isSome
    rw [Option.isSome_map]
    exact hsame

/-! ## Reading a record back -/

variable (hids : (questions.map MasteryQuestion.id).Nodup)

theorem checks_again {checks : List Bool} (h : checks.length = CRITERIA_COUNT) :
    ((List.range CRITERIA_COUNT).map fun i =>
      decide (boolOf (element (.arr (checks.map Js.bool)) i) = some true)) = checks := by
  match checks, h with
  | [a, b, c], _ => cases a <;> cases b <;> cases c <;> rfl

include hids in
theorem restored_attempt {attempt : Attempt} (h : attempt.Kept host questions) :
    restoredAttempt host questions attempt.js = some (attempt.ordered questions) := by
  obtain ⟨hfits, hcomplete, hdate, hchecks⟩ := h
  obtain ⟨answers, date, checks⟩ := attempt
  have hanswers : restoredAnswers questions
      ((Attempt.js ⟨answers, date, checks⟩).prop (units "answers")) = ordered questions answers :=
    restored_answersJs hfits questions
  have hdate' : savedText ((Attempt.js ⟨answers, date, checks⟩).prop (units "at"))
      MAX_TIMESTAMP_LENGTH = date := if_pos hdate
  have hchecks' : (Attempt.js ⟨answers, date, checks⟩).prop (units "checks") =
      .arr (checks.map Js.bool) := by rfl
  unfold restoredAttempt
  dsimp only
  rw [if_neg (by exact Bool.false_ne_true), hanswers, anyMissing_ordered hids, hdate', hchecks']
  rw [hcomplete, if_neg Bool.false_ne_true, checks_again hchecks]
  rfl

theorem restored_draft {draft : Draft} (h : draft.Kept questions) :
    restoredDraft questions draft.js = some (draft.ordered questions) := by
  obtain ⟨hfits, hindex⟩ := h
  obtain ⟨index, answers⟩ := draft
  have hanswers : restoredAnswers questions
      ((Draft.js ⟨index, answers⟩).prop (units "answers")) = ordered questions answers :=
    restored_answersJs hfits questions
  have hnumber : integerOf ((Draft.js ⟨index, answers⟩).prop (units "index")) = some index :=
    integerOf_intJs index
  unfold restoredDraft
  rw [if_neg (by exact Bool.false_ne_true), hanswers, hnumber]
  dsimp only at hindex ⊢
  rcases hindex with rfl | hindex
  · rw [ite_self]
    rfl
  · rw [if_pos hindex]
    rfl

theorem restored_orNull {α : Type} {js : α → Js} {restored : Js → Option α} {again : α → α}
    (hnull : restored .null = none) {value : Option α}
    (h : ∀ a ∈ value, restored (js a) = some (again a)) :
    restored (orNull js value) = value.map again := by
  cases value with
  | none => exact hnull
  | some a => exact h a rfl

include hids in
/-- A record that is kept is read back with its answers in the order of the questions. -/
theorem restored_of_mastery (h : MasteryKept host questions record)
    (hmax : record.attempts ≤ MAX_SAVED_ATTEMPTS) :
    restoredMasteryRecord host questions record.js = record.ordered questions := by
  obtain ⟨draft, first, last, attempts⟩ := record
  have hfirst : restoredAttempt host questions ((MasteryRecord.js
      ⟨draft, first, last, attempts⟩).prop (units "first")) =
        first.map (Attempt.ordered questions) :=
    restored_orNull rfl fun attempt hattempt => restored_attempt hids (h.first attempt hattempt)
  have hlast : restoredAttempt host questions ((MasteryRecord.js
      ⟨draft, first, last, attempts⟩).prop (units "last")) =
        last.map (Attempt.ordered questions) :=
    restored_orNull rfl fun attempt hattempt => restored_attempt hids (h.last attempt hattempt)
  have hdraft : restoredDraft questions ((MasteryRecord.js
      ⟨draft, first, last, attempts⟩).prop (units "draft")) =
        draft.map (Draft.ordered questions) :=
    restored_orNull rfl fun draft hdraft => restored_draft (h.draft draft hdraft)
  have hattempts : integerOf ((MasteryRecord.js ⟨draft, first, last, attempts⟩).prop
      (units "attempts")) = some attempts := integerOf_intJs attempts
  unfold restoredMasteryRecord
  dsimp only
  rw [if_neg (by exact Bool.false_ne_true), hfirst, hlast, hdraft]
  unfold restoredAttemptCount
  rw [hattempts]
  obtain ⟨hsame, hsome, hnone⟩ := h.paired
  dsimp only at hsame hsome hnone hmax
  cases first with
  | none =>
    cases last with
    | none =>
      rw [hnone rfl]
      rfl
    | some last => cases hsame
  | some first =>
    cases last with
    | none => cases hsame
    | some last =>
      have hcount : 1 ≤ attempts ∧ attempts ≤ MAX_SAVED_ATTEMPTS := ⟨hsome rfl, hmax⟩
      simp only [MasteryRecord.ordered, Option.map_some, Option.some_or, Option.isSome_some,
        Bool.not_true, Bool.false_eq_true, if_false, if_pos hcount]

include hids in
theorem kept_restoredAttempt {saved : Js} {attempt : Attempt}
    (h : restoredAttempt host questions saved = some attempt) :
    attempt.Kept host questions ∧ attempt.ordered questions = attempt := by
  unfold restoredAttempt at h
  split at h
  · cases h
  · dsimp only at h
    split at h
    · cases h
    · rename_i hcomplete
      cases h
      refine ⟨⟨fits_restoredAnswers questions _, Bool.eq_false_iff.2 hcomplete, ?_, by simp⟩, ?_⟩
      · show (savedText _ MAX_TIMESTAMP_LENGTH).length < MAX_TIMESTAMP_LENGTH
        unfold savedText
        split
        · split
          · assumption
          · decide
        · decide
      · unfold Attempt.ordered
        rw [ordered_restoredAnswers hids]

include hids in
theorem kept_restoredDraft {saved : Js} {draft : Draft}
    (h : restoredDraft questions saved = some draft) :
    draft.Kept questions ∧ draft.ordered questions = draft := by
  unfold restoredDraft at h
  split at h
  · cases h
  · cases h
    refine ⟨⟨fits_restoredAnswers questions _, ?_⟩, ?_⟩
    · dsimp only
      split
      · exact .inl rfl
      · split
        · exact .inr (by assumption)
        · exact .inl rfl
    · unfold Draft.ordered
      rw [ordered_restoredAnswers hids]

theorem count_restored (saved : Js) : restoredAttemptCount saved false = 0 ∧
    1 ≤ restoredAttemptCount saved true ∧
    restoredAttemptCount saved true ≤ MAX_SAVED_ATTEMPTS := by
  refine ⟨rfl, ?_⟩
  unfold restoredAttemptCount
  rw [if_neg (by decide)]
  split
  · decide
  · split
    · assumption
    · decide

theorem kept_blank (host : Host) (questions : List MasteryQuestion) :
    MasteryKept host questions {} where
  draft := fun _ hnone => nomatch hnone
  first := fun _ hnone => nomatch hnone
  last := fun _ hnone => nomatch hnone
  paired := ⟨rfl, fun hsome => (nomatch hsome), fun _ => rfl⟩

theorem or_cases {α : Type} {p : α → Prop} {x y : Option α} (hx : ∀ a ∈ x, p a)
    (hy : ∀ a ∈ y, p a) : ∀ a ∈ x.or y, p a := by
  cases x with
  | none =>
    rw [Option.none_or]
    exact hy
  | some b =>
    rw [Option.some_or]
    exact hx

theorem isSome_or_comm {α : Type} (x y : Option α) : (x.or y).isSome = (y.or x).isSome := by
  cases x <;> cases y <;> rfl

include hids in
/-- What is read of any course is kept, with the answers in order. -/
theorem kept_restoredMasteryRecord (saved : Js) :
    MasteryKept host questions (restoredMasteryRecord host questions saved) ∧
      (restoredMasteryRecord host questions saved).attempts ≤ MAX_SAVED_ATTEMPTS ∧
      (restoredMasteryRecord host questions saved).ordered questions =
        restoredMasteryRecord host questions saved := by
  unfold restoredMasteryRecord
  split
  · exact ⟨kept_blank host questions, by decide, rfl⟩
  · dsimp only
    generalize hfirst : restoredAttempt host questions (saved.prop (units "first")) = first
    generalize hlast : restoredAttempt host questions (saved.prop (units "last")) = last
    have hkept : ∀ {value : Js} {x : Option Attempt}, restoredAttempt host questions value = x →
        ∀ a ∈ x, a.Kept host questions ∧ a.ordered questions = a := by
      rintro value x rfl a ha
      exact kept_restoredAttempt hids ha
    have hleft := or_cases (hkept hfirst) (hkept hlast)
    have hright := or_cases (hkept hlast) (hkept hfirst)
    obtain ⟨hzero, hlow, hhigh⟩ := count_restored (saved.prop (units "attempts"))
    have hmap : ∀ {x : Option Attempt}, (∀ a ∈ x, a.Kept host questions ∧
        a.ordered questions = a) → x.map (Attempt.ordered questions) = x := by
      intro x hx
      cases x with
      | none => rfl
      | some a => exact congrArg some (hx a rfl).2
    refine ⟨⟨fun draft hdraft => (kept_restoredDraft hids hdraft).1,
      fun a ha => (hleft a ha).1, fun a ha => (hright a ha).1, isSome_or_comm first last,
      fun hsome => ?_, fun hnone => ?_⟩, ?_, ?_⟩
    · dsimp only at hsome ⊢
      rw [hsome]
      exact hlow
    · dsimp only at hnone ⊢
      rw [hnone]
      exact hzero
    · cases (first.or last).isSome
      · rw [hzero]
        decide
      · exact hhigh
    · unfold MasteryRecord.ordered
      dsimp only
      rw [hmap hleft, hmap hright]
      congr 1
      cases hdraft : restoredDraft questions (saved.prop (units "draft")) with
      | none => rfl
      | some draft => exact congrArg some (kept_restoredDraft hids hdraft).2

include hids in
theorem restoredMasteryRecord_again (saved : Js) :
    restoredMasteryRecord host questions (restoredMasteryRecord host questions saved).js =
      restoredMasteryRecord host questions saved := by
  obtain ⟨hkept, hmax, hordered⟩ := @kept_restoredMasteryRecord host questions hids saved
  rw [restored_of_mastery hids hkept hmax, hordered]

/-- Two attempts with the same answers to every question. -/
structure SameAttempt (host : Host) (questions : List MasteryQuestion)
    (attempt attempt' : Attempt) : Prop where
  answers : ∀ question ∈ questions,
    attempt'.answers.lookup question.id = attempt.answers.lookup question.id
  date : attempt'.date = attempt.date
  checks : attempt'.checks = attempt.checks
  grade : gradeMastery host questions attempt'.answers = gradeMastery host questions attempt.answers

structure SameDraft (host : Host) (questions : List MasteryQuestion) (draft draft' : Draft) :
    Prop where
  index : draft'.index = draft.index
  answers : ∀ question ∈ questions,
    answerOf draft'.answers question.id = answerOf draft.answers question.id
  missing : ∀ question ∈ questions,
    masteryMissing host question (draft'.answers.lookup question.id) =
      masteryMissing host question (draft.answers.lookup question.id)

structure SameMastery (host : Host) (questions : List MasteryQuestion)
    (record record' : MasteryRecord) : Prop where
  draft : Option.Rel (SameDraft host questions) record.draft record'.draft
  first : Option.Rel (SameAttempt host questions) record.first record'.first
  last : Option.Rel (SameAttempt host questions) record.last record'.last
  attempts : record'.attempts = record.attempts

theorem rel_map {α : Type} {R : α → α → Prop} {f : α → α} {x : Option α}
    (h : ∀ a ∈ x, R a (f a)) : Option.Rel R x (x.map f) := by
  cases x with
  | none => exact .none
  | some a => exact .some (h a rfl)

include hids in
theorem same_of_kept (h : MasteryKept host questions record) :
    SameMastery host questions record (record.ordered questions) := by
  have hattempt : ∀ {attempt : Attempt}, attempt.Kept host questions →
      SameAttempt host questions attempt (attempt.ordered questions) := by
    intro attempt hkept
    have hanswers := fun question hquestion =>
      @lookup_of_not_missing host questions question attempt.answers hids hkept.complete hquestion
    exact ⟨hanswers, rfl, rfl, gradeMastery_congr hanswers⟩
  refine ⟨rel_map fun draft _ => ⟨rfl, ?_, ?_⟩, rel_map fun attempt hfirst => ?_,
    rel_map fun attempt hlast => ?_, rfl⟩
  · exact fun question hquestion => answerOf_ordered hids draft.answers hquestion
  · exact fun question hquestion => missing_ordered hids draft.answers hquestion
  · exact hattempt (h.first attempt hfirst)
  · exact hattempt (h.last attempt hlast)

end Records

end Questix.LabPage.Quiz
