/-
Questix.LabPage.QuizCore — the checkpoint quiz of a course and how its answers
are kept (`quiz/core.js`, `quiz/storage.js`).

A record is an object by the ids of its questions (`assign` is `object[key] = value`).
What `JSON` writes and reads and the normal form of a text are parameters
(`Host`). The sentences of a question are left out.
-/
import Mathlib.Data.Rat.Lemmas
import Questix.Lib.JsValue

namespace Questix.LabPage.Quiz

open Questix.Lib

/-! ## Objects and storage -/

/-- What the page uses of the language's own conversions. -/
structure Host where
  stringify : Js → Units
  parse : Units → Option Js
  /-- `text.normalize('NFKC')` -/
  nfkc : Units → Units
  nfkc_nil : nfkc [] = []

/-- What was written can be read again. -/
def Host.Rereads (host : Host) (value : Js) : Prop :=
  host.parse (host.stringify value) = some value

/-- `object[key] = value` -/
def assign {α : Type} (members : List (Units × α)) (key : Units) (value : α) :
    List (Units × α) :=
  match members with
  | [] => [(key, value)]
  | (k, v) :: rest => if k = key then (key, value) :: rest else (k, v) :: assign rest key value

/-- `typeof value === 'object'`, and not `null`. -/
def isObject : Js → Bool
  | .arr _ | .obj _ => true
  | _ => false

/-- `Number.isInteger(value)`, with the number. -/
def integerOf : Js → Option ℤ
  | .num (.fin q) => if q.den = 1 then some q.num else none
  | _ => none

def intJs (n : ℤ) : Js := .num (.fin n)

def STORAGE_VERSION : ℤ := 1

def savedCourses (host : Host) (raw : Units) : Option Js :=
  match host.parse raw with
  | none => none
  | some saved =>
    if integerOf (saved.prop (units "version")) ≠ some STORAGE_VERSION then none
    else if isObject (saved.prop (units "courses")) then some (saved.prop (units "courses"))
    else none

/-- What `forStorage` writes. -/
def stored (courses : List (Units × Js)) : Js :=
  .obj [(units "version", intJs STORAGE_VERSION), (units "courses", .obj courses)]

def forStorage (host : Host) (courses : List (Units × Js)) : Units :=
  host.stringify (stored courses)

/-! ## The quiz -/

structure QuizQuestion where
  id : Units
  /-- the number of choices -/
  choices : ℕ
  answer : ℤ

/-- The questions of each course. -/
structure Quizzes where
  courses : List (Units × List QuizQuestion)
  names : (courses.map Prod.fst).Nodup
  ids : ∀ course ∈ courses, (course.2.map QuizQuestion.id).Nodup

def MAX_QUIZ_ATTEMPTS : ℤ := 100000

structure QuizAnswer where
  choice : Option ℤ
  checked : Bool
  correct : Bool
  firstCorrect : Bool
  attempts : ℤ
  deriving DecidableEq

structure QuizRecord where
  index : ℤ := 0
  answers : List (Units × QuizAnswer) := []
  deriving DecidableEq

abbrev QuizProgress := List (Units × QuizRecord)

def newQuizProgress (quizzes : Quizzes) : QuizProgress :=
  quizzes.courses.map fun course => (course.1, {})

/-- The record of a course is changed. -/
def changeCourse {α : Type} (progress : List (Units × α)) (course : Units) (f : α → α) :
    List (Units × α) :=
  progress.map fun entry => if entry.1 = course then (entry.1, f entry.2) else entry

def isChoiceOf (choice : ℤ) (question : QuizQuestion) : Prop :=
  0 ≤ choice ∧ choice < question.choices

instance (choice : ℤ) (question : QuizQuestion) : Decidable (isChoiceOf choice question) :=
  inferInstanceAs (Decidable (_ ∧ _))

/-- `choice === null || isChoiceOf(choice, question)` -/
def validChoice (choice : Option ℤ) (question : QuizQuestion) : Prop :=
  ∀ c ∈ choice, isChoiceOf c question

instance (choice : Option ℤ) (question : QuizQuestion) :
    Decidable (validChoice choice question) :=
  inferInstanceAs (Decidable (∀ c ∈ choice, isChoiceOf c question))

def quizAnswer (record : QuizRecord) (question : QuizQuestion) : Option QuizAnswer :=
  record.answers.lookup question.id

/-- What `checkQuizAnswer` files. -/
def checkedAnswer (question : QuizQuestion) (choice : Option ℤ) (previous : Option QuizAnswer) :
    QuizAnswer :=
  let correct := decide (choice = some question.answer)
  { choice := choice
    checked := true
    correct := correct
    firstCorrect := (previous.map QuizAnswer.firstCorrect).getD correct
    attempts := (previous.map QuizAnswer.attempts).getD 0 + 1 }

def checkQuizAnswer (question : QuizQuestion) (choice : Option ℤ) (record : QuizRecord) :
    QuizRecord :=
  if validChoice choice question then
    let previous := quizAnswer record question
    if (previous.map QuizAnswer.checked).getD false then record
    else { record with
      answers := assign record.answers question.id (checkedAnswer question choice previous) }
  else record

def retryQuizAnswer (question : QuizQuestion) (record : QuizRecord) : QuizRecord :=
  match quizAnswer record question with
  | none => record
  | some answer => { record with
      answers := assign record.answers question.id
        { answer with checked := false, choice := none, correct := false } }

/-- What the learner does in the quiz. -/
inductive QuizEvent where
  | check (course : Units) (index : ℕ) (choice : Option ℤ)
  | retry (course : Units) (index : ℕ)
  | goTo (course : Units) (index : ℕ)

/-- `QUIZZES[course]?.[index]` -/
def questionAt (quizzes : Quizzes) (course : Units) (index : ℕ) : Option QuizQuestion :=
  ((quizzes.courses.lookup course).getD [])[index]?

def quizStep (quizzes : Quizzes) (progress : QuizProgress) : QuizEvent → QuizProgress
  | .check course index choice =>
    match questionAt quizzes course index with
    | none => progress
    | some question => changeCourse progress course (checkQuizAnswer question choice)
  | .retry course index =>
    match questionAt quizzes course index with
    | none => progress
    | some question => changeCourse progress course (retryQuizAnswer question)
  | .goTo course index => changeCourse progress course fun record => { record with index := index }

structure QuizSummary where
  total : ℕ
  checked : ℕ
  first : ℕ
  recovered : ℕ
  remaining : List ℕ
  deriving DecidableEq

def isRecovered (answer : Option QuizAnswer) : Bool :=
  match answer with
  | none => false
  | some answer => answer.checked && answer.correct && !answer.firstCorrect

def isUnfinished (answer : Option QuizAnswer) : Bool :=
  match answer with
  | none => true
  | some answer => !answer.checked || !answer.correct

def quizSummary (questions : List QuizQuestion) (record : QuizRecord) : QuizSummary :=
  let answers := questions.map (quizAnswer record)
  { total := answers.length
    checked := (answers.filter fun a => (a.map QuizAnswer.checked).getD false).length
    first := (answers.filter fun a => (a.map QuizAnswer.firstCorrect).getD false).length
    recovered := (answers.filter isRecovered).length
    remaining := (answers.zipIdx.filter fun a => isUnfinished a.1).map Prod.snd }

/-! ## Saving and restoring the quiz -/

def choiceJs : Option ℤ → Js
  | none => .null
  | some choice => intJs choice

def QuizAnswer.js (answer : QuizAnswer) : Js :=
  .obj [(units "choice", choiceJs answer.choice), (units "checked", .bool answer.checked),
    (units "correct", .bool answer.correct), (units "firstCorrect", .bool answer.firstCorrect),
    (units "attempts", intJs answer.attempts)]

def QuizRecord.js (record : QuizRecord) : Js :=
  .obj [(units "index", intJs record.index),
    (units "answers", .obj (record.answers.map fun entry => (entry.1, entry.2.js)))]

def quizCourses (progress : QuizProgress) : List (Units × Js) :=
  progress.map fun entry => (entry.1, entry.2.js)

def serializeQuizProgress (host : Host) (progress : QuizProgress) : Units :=
  forStorage host (quizCourses progress)

def boolOf : Js → Option Bool
  | .bool b => some b
  | _ => none

/-- A choice as it is read: `null`, or a whole number. -/
def choiceOf : Js → Option (Option ℤ)
  | .null => some none
  | value => (integerOf value).map some

def restoredQuizAnswer (question : QuizQuestion) (saved : Js) : Option QuizAnswer := do
  let checked ← boolOf (saved.prop (units "checked"))
  let firstCorrect ← boolOf (saved.prop (units "firstCorrect"))
  let attempts ← integerOf (saved.prop (units "attempts"))
  if attempts < 1 ∨ MAX_QUIZ_ATTEMPTS < attempts then none
  else
    let choice ← choiceOf (saved.prop (units "choice"))
    if validChoice choice question then
      some
        { choice := if checked then choice else none
          checked := checked
          firstCorrect := firstCorrect
          correct := checked && decide (choice = some question.answer)
          attempts := attempts }
    else none

/-- What is read of a course, of whatever was saved for it. -/
def restoredQuizRecord (questions : List QuizQuestion) (saved : Js) : QuizRecord where
  index :=
    match integerOf (saved.prop (units "index")) with
    | none => 0
    | some index => if 0 ≤ index ∧ index ≤ questions.length then index else 0
  answers := questions.filterMap fun question =>
    (restoredQuizAnswer question ((saved.prop (units "answers")).prop question.id)).map
      fun answer => (question.id, answer)

def restoreQuizProgress (host : Host) (quizzes : Quizzes) (raw : Units) : QuizProgress :=
  match savedCourses host raw with
  | none => newQuizProgress quizzes
  | some courses =>
    quizzes.courses.map fun course =>
      (course.1, restoredQuizRecord course.2 (courses.prop course.1))

end Questix.LabPage.Quiz
