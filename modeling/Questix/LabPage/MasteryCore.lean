/-
Questix.LabPage.MasteryCore — the mastery test: the draft, the attempts that were
submitted, how they are graded and how they are kept (`quiz/mastery-core.js`).

What the form does to the draft is from `mastery-ui.js`. A number that a learner
writes is the exact number.
-/
import Questix.LabPage.QuizCore

namespace Questix.LabPage.Quiz

open Questix.Lib

/-! ## Questions and answers -/

inductive Part where
  | number (value tolerance : ℚ)
  | choice (choices value : ℕ)

structure MasteryQuestion where
  id : Units
  answer : Part
  reason : Part
  writing : Bool

structure MasteryTests where
  courses : List (Units × List MasteryQuestion)
  names : (courses.map Prod.fst).Nodup
  ids : ∀ course ∈ courses, (course.2.map MasteryQuestion.id).Nodup

def UNKNOWN : Units := units "?"
def CRITERIA_COUNT : ℕ := 3
def TOLERANCE_SLACK : ℚ := 1 / 10 ^ 10
def MAX_VALUE_LENGTH : ℕ := 80
def MAX_REASON_LENGTH : ℕ := 10
def MAX_NOTE_LENGTH : ℕ := 1500
def MAX_TIMESTAMP_LENGTH : ℕ := 50
def MAX_SAVED_ATTEMPTS : ℤ := 10000

structure MasteryAnswer where
  value : Units := []
  reason : Units := []
  note : Units := []
  noteUnknown : Bool := false
  deriving DecidableEq

abbrev Answers := List (Units × MasteryAnswer)

def blankMasteryAnswer : MasteryAnswer := {}

/-- An answer, or a blank one. -/
def answerOf (answers : Answers) (id : Units) : MasteryAnswer :=
  (answers.lookup id).getD blankMasteryAnswer

def isDigit (u : UInt16) : Bool := 48 ≤ u.toNat && u.toNat ≤ 57

def digitsValue (s : Units) : ℕ := s.foldl (fun n u => 10 * n + (u.toNat - 48)) 0

def isChoiceIndex (value : Units) (choices : ℕ) : Bool :=
  value ≠ [] && value.all isDigit && digitsValue value < choices

/-- `replaceAll('−', '-')` -/
def plainMinus (u : UInt16) : UInt16 := if u = 0x2212 then 0x2D else u

def numericText (host : Host) (value : Units) : Units := (trim (host.nfkc value)).map plainMinus

/-- Digits with a point among them, or behind or before them. -/
def unsignedDecimal (s : Units) : Option ℚ :=
  let whole := s.takeWhile isDigit
  match s.dropWhile isDigit with
  | [] => if whole = [] then none else some (digitsValue whole)
  | point :: digits =>
    if point = 0x2E ∧ digits.all isDigit ∧ (whole ≠ [] ∨ digits ≠ []) then
      some (digitsValue (whole ++ digits) / 10 ^ digits.length)
    else none

/-- A text that `PLAIN_DECIMAL` matches, with its number. -/
def plainDecimal (s : Units) : Option ℚ :=
  match s with
  | [] => none
  | sign :: rest =>
    if sign = 0x2D then (unsignedDecimal rest).map fun q => -q
    else if sign = 0x2B then unsignedDecimal rest
    else unsignedDecimal s

/-- The number of a text, where it is not too large to be finite. -/
def numberOf (host : Host) (value : Units) : Option ℚ :=
  (plainDecimal (numericText host value)).filter fun q => |q| < 2 ^ 1024 - 2 ^ 970

def isNumberText (host : Host) (value : Units) : Bool := (numberOf host value).isSome

def isAnswered (host : Host) (part : Part) (value : Units) : Bool :=
  if value = UNKNOWN then true
  else
    match part with
    | .number _ _ => isNumberText host value
    | .choice choices _ => isChoiceIndex value choices

def masteryMissing (host : Host) (question : MasteryQuestion) (answer : Option MasteryAnswer) :
    List String :=
  let given := answer.getD blankMasteryAnswer
  (if !isAnswered host question.answer given.value then ["答え"] else []) ++
    (if !isAnswered host question.reason given.reason then ["根拠"] else []) ++
    if question.writing && trim given.note = [] && !given.noteUnknown then ["自分の説明"] else []

def isCorrect (host : Host) (part : Part) (value : Units) : Bool :=
  match part with
  | .choice choices correct => isChoiceIndex value choices && digitsValue value = correct
  | .number correct tolerance =>
    match numberOf host value with
    | none => false
    | some q => |q - correct| ≤ tolerance + TOLERANCE_SLACK

structure Grade where
  id : Units
  judgment : Bool
  reasoning : Bool
  complete : Bool
  written : Bool
  deriving DecidableEq

def gradeQuestion (host : Host) (question : MasteryQuestion) (answer : Option MasteryAnswer) :
    Grade :=
  let given := answer.getD blankMasteryAnswer
  let judgment := isCorrect host question.answer given.value
  let reasoning := isCorrect host question.reason given.reason
  { id := question.id
    judgment := judgment
    reasoning := reasoning
    complete := judgment && reasoning
    written := question.writing && trim given.note ≠ [] && !given.noteUnknown }

structure Grades where
  results : List Grade
  total : ℕ
  judgment : ℕ
  reasoning : ℕ
  complete : ℕ
  deriving DecidableEq

def gradeMastery (host : Host) (questions : List MasteryQuestion) (answers : Answers) : Grades :=
  let results := questions.map fun question =>
    gradeQuestion host question (answers.lookup question.id)
  { results := results
    total := results.length
    judgment := (results.filter Grade.judgment).length
    reasoning := (results.filter Grade.reasoning).length
    complete := (results.filter Grade.complete).length }

def anyMissing (host : Host) (questions : List MasteryQuestion) (answers : Answers) : Bool :=
  questions.any fun question => masteryMissing host question (answers.lookup question.id) ≠ []

/-! ## Drafts and attempts -/

structure Draft where
  index : ℤ := 0
  answers : Answers := []
  deriving DecidableEq

structure Attempt where
  answers : Answers
  date : Units
  checks : List Bool
  deriving DecidableEq

structure MasteryRecord where
  draft : Option Draft := none
  first : Option Attempt := none
  last : Option Attempt := none
  attempts : ℤ := 0
  deriving DecidableEq

abbrev MasteryProgress := List (Units × MasteryRecord)

def newMasteryProgress (tests : MasteryTests) : MasteryProgress :=
  tests.courses.map fun course => (course.1, {})

def newChecks : List Bool := List.replicate CRITERIA_COUNT false

def beginMastery (record : MasteryRecord) : MasteryRecord :=
  { record with draft := some (record.draft.getD {}) }

/-- `navigate(index)` of the form. -/
def openQuestion (index : ℕ) (record : MasteryRecord) : MasteryRecord :=
  { record with draft := record.draft.map fun draft => { draft with index := index } }

/-- What a field of the form changes. -/
inductive Change where
  | value (text : Units)
  | reason (text : Units)
  | note (text : Units)
  | noteUnknown (unknown : Bool)

def Change.apply (answer : MasteryAnswer) : Change → MasteryAnswer
  | .value text => { answer with value := text }
  | .reason text => { answer with reason := text }
  | .note text => { answer with note := text }
  | .noteUnknown unknown => { answer with noteUnknown := unknown }

/-- `changeDraftAnswer(changes)`: the answer to the question that is open. -/
def changeDraftAnswer (questions : List MasteryQuestion) (change : Change)
    (record : MasteryRecord) : MasteryRecord :=
  match record.draft with
  | none => record
  | some draft =>
    match questions[draft.index.toNat]? with
    | none => record
    | some question => { record with
        draft := some { draft with
          answers := assign draft.answers question.id
            (change.apply (answerOf draft.answers question.id)) } }

def submitMastery (host : Host) (questions : List MasteryQuestion) (date : Units)
    (record : MasteryRecord) : MasteryRecord :=
  match record.draft with
  | none => record
  | some draft =>
    if anyMissing host questions draft.answers then record
    else
      let attempt : Attempt := ⟨draft.answers, date, newChecks⟩
      { draft := none
        first := some (record.first.getD attempt)
        last := some attempt
        attempts := record.attempts + 1 }

/-- `setCheck(index, checked)` of the page of results. -/
def setCheck (index : Fin CRITERIA_COUNT) (checked : Bool) (record : MasteryRecord) :
    MasteryRecord :=
  { record with
    last := record.last.map fun attempt =>
      { attempt with checks := attempt.checks.set index checked } }

inductive MasteryEvent where
  | start (course : Units)
  | goTo (course : Units) (index : ℕ)
  | change (course : Units) (change : Change)
  | submit (course : Units) (date : Units)
  | check (course : Units) (index : Fin CRITERIA_COUNT) (checked : Bool)

def masteryStep (host : Host) (tests : MasteryTests) (progress : MasteryProgress) :
    MasteryEvent → MasteryProgress
  | .start course => changeCourse progress course beginMastery
  | .goTo course index => changeCourse progress course (openQuestion index)
  | .change course change =>
    changeCourse progress course
      (changeDraftAnswer ((tests.courses.lookup course).getD []) change)
  | .submit course date =>
    changeCourse progress course
      (submitMastery host ((tests.courses.lookup course).getD []) date)
  | .check course index checked => changeCourse progress course (setCheck index checked)

/-! ## Saving and restoring -/

def MasteryAnswer.js (answer : MasteryAnswer) : Js :=
  .obj [(units "value", .str answer.value), (units "reason", .str answer.reason),
    (units "note", .str answer.note), (units "noteUnknown", .bool answer.noteUnknown)]

def answersJs (answers : Answers) : Js := .obj (answers.map fun entry => (entry.1, entry.2.js))

def Draft.js (draft : Draft) : Js :=
  .obj [(units "index", intJs draft.index), (units "answers", answersJs draft.answers)]

def Attempt.js (attempt : Attempt) : Js :=
  .obj [(units "answers", answersJs attempt.answers), (units "at", .str attempt.date),
    (units "checks", .arr (attempt.checks.map Js.bool))]

/-- A value, or `null`. -/
def orNull {α : Type} (js : α → Js) (value : Option α) : Js := (value.map js).getD .null

def MasteryRecord.js (record : MasteryRecord) : Js :=
  .obj [(units "draft", orNull Draft.js record.draft),
    (units "first", orNull Attempt.js record.first),
    (units "last", orNull Attempt.js record.last), (units "attempts", intJs record.attempts)]

def masteryCourses (progress : MasteryProgress) : List (Units × Js) :=
  progress.map fun entry => (entry.1, entry.2.js)

def serializeMastery (host : Host) (progress : MasteryProgress) : Units :=
  forStorage host (masteryCourses progress)

def savedText (value : Js) (maxLength : ℕ) : Units :=
  match value with
  | .str s => if s.length < maxLength then s else []
  | _ => []

def savedNote (value : Js) : Units :=
  match value with
  | .str s => s.take MAX_NOTE_LENGTH
  | _ => []

def restoredMasteryAnswer (answer : Js) : MasteryAnswer where
  value := savedText (answer.prop (units "value")) MAX_VALUE_LENGTH
  reason := savedText (answer.prop (units "reason")) MAX_REASON_LENGTH
  note := savedNote (answer.prop (units "note"))
  noteUnknown := boolOf (answer.prop (units "noteUnknown")) = some true

def restoredAnswers (questions : List MasteryQuestion) (saved : Js) : Answers :=
  questions.map fun question => (question.id, restoredMasteryAnswer (saved.prop question.id))

/-- `checks?.[i]` -/
def element (value : Js) (i : ℕ) : Js :=
  match value with
  | .arr items => items.getD i .undefined
  | .obj members => Js.get members (units (toString i))
  | _ => .undefined

def restoredAttempt (host : Host) (questions : List MasteryQuestion) (saved : Js) :
    Option Attempt :=
  if !isObject saved then none
  else
    let answers := restoredAnswers questions (saved.prop (units "answers"))
    if anyMissing host questions answers then none
    else
      some
        { answers := answers
          date := savedText (saved.prop (units "at")) MAX_TIMESTAMP_LENGTH
          checks := (List.range CRITERIA_COUNT).map fun i =>
            boolOf (element (saved.prop (units "checks")) i) = some true }

def restoredDraft (questions : List MasteryQuestion) (saved : Js) : Option Draft :=
  if !isObject saved then none
  else
    some
      { index :=
          match integerOf (saved.prop (units "index")) with
          | none => 0
          | some index => if 0 ≤ index ∧ index < questions.length then index else 0
        answers := restoredAnswers questions (saved.prop (units "answers")) }

def restoredAttemptCount (saved : Js) (hasAttempt : Bool) : ℤ :=
  if !hasAttempt then 0
  else
    match integerOf saved with
    | none => 1
    | some n => if 1 ≤ n ∧ n ≤ MAX_SAVED_ATTEMPTS then n else 1

def restoredMasteryRecord (host : Host) (questions : List MasteryQuestion) (saved : Js) :
    MasteryRecord :=
  if !isObject saved then {}
  else
    let first := restoredAttempt host questions (saved.prop (units "first"))
    let last := restoredAttempt host questions (saved.prop (units "last"))
    { draft := restoredDraft questions (saved.prop (units "draft"))
      first := first.or last
      last := last.or first
      attempts :=
        restoredAttemptCount (saved.prop (units "attempts")) (first.or last).isSome }

def restoreMastery (host : Host) (tests : MasteryTests) (raw : Units) : MasteryProgress :=
  match savedCourses host raw with
  | none => newMasteryProgress tests
  | some courses =>
    tests.courses.map fun course =>
      (course.1, restoredMasteryRecord host course.2 (courses.prop course.1))

end Questix.LabPage.Quiz
