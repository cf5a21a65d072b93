/-
Questix.LabBridge.SaveLink — recordings a page saves on the robot: the saves of
`ws_server.py` and `records_api.py`, the pages' queue of `robot-link.js`, and
the connections between them.

A `_save` is a task of the event loop. `_Client.saving` and the loop hand the
lock over in the order the tasks were made, so of a client's tasks the oldest
is the one that moves (`runSave`). Its recording is written by a worker thread
(`work`), which may do so at any time; what comes of it is open (`WriteResult`),
and so is the id, which no file of the store has when `_new_id` makes it.

`CallId` says which call of `saveRecordOnRobot` a frame or an answer belongs
to. Neither side sees it: a page matches answers by their order alone.

The frames here are `record_save` frames. Other frames of a page are short and
do not come this way, and what the bridge sends beside hello and the answers
changes nothing here. A connection that a page gave up stays with the bridge
until it notices (`leave`). A refused version counts as a lost connection.
-/
import Mathlib.Logic.Function.Basic
import Questix.Lib.Trace

namespace Questix.LabBridge

open Questix.Lib

/-! ## Frames and answers -/

def maxParallelSaves : ℕ := 2
def maxAdmittedSaves : ℕ := 4
def maxAdmittedSavesPerClient : ℕ := 1
def maxOwedAnswersPerClient : ℕ := 8

def saveBusyMessage : String :=
  "ロボットがほかの記録を保存しています。少し待ってから、もう一度保存してください。"
def saveFailedMessage : String := "ロボットで記録を保存できませんでした。"

/-- A call of `saveRecordOnRobot`: the page, and which of its calls. -/
structure CallId where
  page : ℕ
  number : ℕ
  deriving DecidableEq, Repr

structure SaveFrame (R : Type*) where
  call : CallId
  recording : R

inductive SaveReply where
  | recordSaved (id : String)
  | recordError (message : String)
  deriving DecidableEq, Repr

structure SaveAnswer where
  call : CallId
  reply : SaveReply
  deriving DecidableEq, Repr

/-- Why a page rejects a save. -/
inductive SaveFailure where
  | notConnected
  | off
  | tooBig
  | timeout
  | lost
  | bridge (message : String)
  deriving DecidableEq, Repr

/-- What becomes of the promise of a call. -/
inductive SaveOutcome where
  | resolved (id : String)
  | rejected (why : SaveFailure)
  deriving DecidableEq, Repr

/-- A call of a page, a recording stored by the bridge, the bridge's answer to a
call, and the end of a call's promise. -/
inductive SaveEffect (R : Type*) where
  | called (call : CallId) (recording : R)
  | stored (call : CallId) (recording : R) (id : String)
  | answered (call : CallId) (reply : SaveReply)
  | settled (call : CallId) (outcome : SaveOutcome)

/-! ## The bridge -/

/-- How far a `_save` is: it wants the client's lock, it has the lock and wants
a place among the parallel saves, its worker is at it, or the worker is done. -/
inductive SaveStage where
  | created
  | locked
  | writing
  | written (reply : SaveReply)
  deriving DecidableEq, Repr

/-- A `_save` under way; `text` is missing where the save was refused. -/
structure SaveTask (R : Type*) where
  call : CallId
  text : Option (SaveFrame R)
  stage : SaveStage := .created

/-- `_Client`, with its tasks from the oldest on. -/
structure SaveClient (R : Type*) where
  admittedSaves : ℕ := 0
  owedAnswers : ℕ := 0
  tasks : List (SaveTask R) := []
  outbox : List SaveAnswer := []

/-- The server. `clients` are those connected, `client` every one there was;
`saves` counts the free places of the semaphore. -/
structure SaveServer (R : Type*) where
  maxClients : ℕ := 24
  clients : List ℕ := []
  client : ℕ → SaveClient R := fun _ => {}
  nextId : ℕ := 1
  admittedSaves : ℕ := 0
  saves : ℕ := maxParallelSaves
  files : List (String × R) := []

/-- What `records.save` makes of a frame: it raises a `RecordError`, another
exception, or stores the recording under an id. -/
inductive WriteResult where
  | refused (message : String)
  | failed
  | written (id : String)

namespace SaveServer

variable {R : Type*} (s : SaveServer R) (c : ℕ)

def setClient (client : SaveClient R) : SaveServer R :=
  { s with client := Function.update s.client c client }

/-- `_admit_save`; false if the page owes too much. -/
def admitSave (frame : SaveFrame R) : SaveServer R × Bool :=
  let client := s.client c
  if maxOwedAnswersPerClient ≤ client.owedAnswers then (s, false)
  else
    let admits := decide (client.admittedSaves < maxAdmittedSavesPerClient) &&
      decide (s.admittedSaves < maxAdmittedSaves)
    let task : SaveTask R := { call := frame.call, text := if admits then some frame else none }
    let count := if admits then 1 else 0
    ({ s with admittedSaves := s.admittedSaves + count }.setClient c
      { client with
        admittedSaves := client.admittedSaves + count
        owedAnswers := client.owedAnswers + 1
        tasks := client.tasks ++ [task] }, true)

/-- The end of `_save`: the counters go back, and the answer is queued if the
client is still there. -/
def finishSave (task : SaveTask R) (rest : List (SaveTask R)) (reply : SaveReply) :
    SaveServer R × List (SaveEffect R) :=
  let client := s.client c
  let count := if task.text.isSome then 1 else 0
  ({ s with admittedSaves := s.admittedSaves - count }.setClient c
    { admittedSaves := client.admittedSaves - count
      owedAnswers := client.owedAnswers - 1
      tasks := rest
      outbox := if c ∈ s.clients then client.outbox ++ [SaveAnswer.mk task.call reply]
        else client.outbox },
    [.answered task.call reply])

/-- The oldest `_save` of a client goes on. -/
def runSave : SaveServer R × List (SaveEffect R) :=
  match (s.client c).tasks with
  | [] => (s, [])
  | task :: rest =>
    match task.stage with
    | .created =>
      if task.text.isSome then
        (s.setClient c { s.client c with tasks := { task with stage := .locked } :: rest }, [])
      else s.finishSave c task rest (.recordError saveBusyMessage)
    | .locked =>
      if 0 < s.saves then
        ({ s with saves := s.saves - 1 }.setClient c
          { s.client c with tasks := { task with stage := .writing } :: rest }, [])
      else (s, [])
    | .writing => (s, [])
    | .written reply => { s with saves := s.saves + 1 }.finishSave c task rest reply

/-- The worker of a client's oldest `_save` is done. A file that exists is not
written again. -/
def work (result : WriteResult) : SaveServer R × List (SaveEffect R) :=
  match (s.client c).tasks with
  | [] => (s, [])
  | task :: rest =>
    match task.stage, task.text with
    | .writing, some frame =>
      let written (reply : SaveReply) :=
        { s.client c with tasks := { task with stage := .written reply } :: rest }
      match result with
      | .refused message => (s.setClient c (written (.recordError message)), [])
      | .failed => (s.setClient c (written (.recordError saveFailedMessage)), [])
      | .written id =>
        if id ∈ s.files.map Prod.fst then (s, [])
        else
          ({ s with files := (id, frame.recording) :: s.files }.setClient c
            (written (.recordSaved id)), [.stored frame.call frame.recording id])
    | _, _ => (s, [])

end SaveServer

/-! ## A page -/

/-- `MAX_SAVE_BYTES` -/
def maxSaveBytes : ℕ := 8 * 1024 * 1024

/-- A save waiting for its answer. -/
structure PendingSave where
  number : ℕ
  timedOut : Bool := false
  deriving DecidableEq, Repr

/-- A page's `robot-link.js`. `hello` is missing until the link is open; it says
whether the bridge saves records. `calls` counts the calls. -/
structure RobotLink where
  socket : Option ℕ := none
  hello : Option Bool := none
  saves : List PendingSave := []
  calls : ℕ := 0

namespace RobotLink

variable {R : Type*} (link : RobotLink) (page : ℕ)

/-- The reason `saveRecordOnRobot` rejects a call at once. `ready` is
`socket.readyState === WebSocket.OPEN`. -/
def refusal (frameBytes : ℕ) (ready : Bool) : Option SaveFailure :=
  if link.socket.isNone || !ready || link.hello.isNone then some .notConnected
  else if link.hello ≠ some true then some .off
  else if maxSaveBytes < frameBytes then some .tooBig
  else none

/-- `answerSave` -/
def answerSave (outcome : SaveOutcome) : RobotLink × List (SaveEffect R) :=
  match link.saves with
  | [] => (link, [])
  | pending :: saves =>
    ({ link with saves := saves },
      if pending.timedOut then [] else [.settled ⟨page, pending.number⟩ outcome])

/-- The saves whose promises are open. -/
def openSaves : List ℕ :=
  (link.saves.filter fun pending => !pending.timedOut).map PendingSave.number

/-- The connection is gone: `dropSaves`, and no socket. -/
def drop : RobotLink × List (SaveEffect R) :=
  ({ link with socket := none, hello := none, saves := [] },
    link.openSaves.map fun number => .settled ⟨page, number⟩ (.rejected .lost))

/-- The timer of a save fires; it is cleared once the save is answered or
dropped. -/
def timeout (number : ℕ) : RobotLink × List (SaveEffect R) :=
  if number ∈ link.openSaves then
    ({ link with
        saves := link.saves.map fun pending =>
          if pending.number = number then { pending with timedOut := true } else pending },
      [.settled ⟨page, number⟩ (.rejected .timeout)])
  else (link, [])

end RobotLink

/-- How `handleText` settles the save an answer is taken for. -/
def SaveReply.outcome : SaveReply → SaveOutcome
  | .recordSaved id => .resolved id
  | .recordError message => .rejected (if message = "" then .off else .bridge message)

/-! ## Pages and bridge -/

/-- What the bridge sends on a connection. -/
inductive BridgeText where
  | hello (save : Bool)
  | answer (answer : SaveAnswer)

/-- A connection: what is under way in either direction. -/
structure SaveConn (R : Type*) where
  toBridge : List (SaveFrame R) := []
  toPage : List BridgeText := []

structure SaveLink (R : Type*) where
  server : SaveServer R := {}
  conn : ℕ → SaveConn R := fun _ => {}
  page : ℕ → RobotLink := fun _ => {}

/-- A page connects (again), or loses or gives up its connection; it saves a
recording, a timer of it fires, or it gets the next text. The bridge gets the
next frame of a client, goes on with its oldest save, finishes writing, sends
the next answer, or notices that the client is gone. -/
inductive SaveEvent (R : Type*) where
  | connect (page : ℕ) (save : Bool)
  | lose (page : ℕ)
  | save (page : ℕ) (recording : R) (frameBytes : ℕ) (ready : Bool)
  | timer (page : ℕ) (number : ℕ)
  | deliver (page : ℕ)
  | receive (client : ℕ)
  | run (client : ℕ)
  | work (client : ℕ) (result : WriteResult)
  | send (client : ℕ)
  | leave (client : ℕ)

namespace SaveLink

variable {R : Type*} (s : SaveLink R)

def setPage (page : ℕ) (link : RobotLink) : SaveLink R :=
  { s with page := Function.update s.page page link }

def setConn (c : ℕ) (conn : SaveConn R) : SaveLink R :=
  { s with conn := Function.update s.conn c conn }

/-- The page drops its connection, if any. -/
def dropPage (page : ℕ) : SaveLink R × List (SaveEffect R) :=
  let (link, effects) := (s.page page).drop page
  (s.setPage page link, effects)

/-- The client is gone from the bridge. -/
def leave (c : ℕ) : SaveLink R :=
  { s with server := { s.server with clients := s.server.clients.filter (· ≠ c) } }

/-- A page opens a connection; a bridge that is full turns it away. -/
def connect (page : ℕ) (save : Bool) : SaveLink R × List (SaveEffect R) :=
  let (s, effects) := s.dropPage page
  if s.server.maxClients ≤ s.server.clients.length then (s, effects)
  else
    let c := s.server.nextId
    ({ s with
        server := { s.server with clients := s.server.clients ++ [c], nextId := c + 1 }
        conn := Function.update s.conn c { toPage := [.hello save] } }.setPage page
          { s.page page with socket := some c }, effects)

/-- `saveRecordOnRobot` -/
def save (page : ℕ) (recording : R) (frameBytes : ℕ) (ready : Bool) :
    SaveLink R × List (SaveEffect R) :=
  let link := s.page page
  let call : CallId := ⟨page, link.calls⟩
  let counted := { link with calls := link.calls + 1 }
  match link.refusal frameBytes ready, link.socket with
  | none, some c =>
    let conn := s.conn c
    ((s.setPage page { counted with saves := link.saves ++ [{ number := link.calls }] }).setConn c
      { conn with toBridge := conn.toBridge ++ [⟨call, recording⟩] }, [.called call recording])
  | some why, _ => (s.setPage page counted, [.called call recording, .settled call (.rejected why)])
  | none, none => (s, [])

/-- The page gets the next text of its connection. -/
def deliver (page : ℕ) : SaveLink R × List (SaveEffect R) :=
  match (s.page page).socket with
  | none => (s, [])
  | some c =>
    match (s.conn c).toPage with
    | [] => (s, [])
    | text :: rest =>
      let s := s.setConn c { s.conn c with toPage := rest }
      match text with
      | .hello save => (s.setPage page { s.page page with hello := some save }, [])
      | .answer answer =>
        let (link, effects) := (s.page page).answerSave page answer.reply.outcome
        (s.setPage page link, effects)

/-- The bridge gets the next frame of a client; one that owes too much is
disconnected. -/
def receive (c : ℕ) : SaveLink R :=
  if c ∈ s.server.clients then
    match (s.conn c).toBridge with
    | [] => s
    | frame :: rest =>
      let s := s.setConn c { s.conn c with toBridge := rest }
      let (server, admitted) := s.server.admitSave c frame
      if admitted then { s with server := server } else s.leave c
  else s

/-- `_sender` sends the next answer. -/
def send (c : ℕ) : SaveLink R :=
  let client := s.server.client c
  match client.outbox with
  | [] => s
  | answer :: rest =>
    if c ∈ s.server.clients then
      { s with server := s.server.setClient c { client with outbox := rest } }.setConn c
        { s.conn c with toPage := (s.conn c).toPage ++ [BridgeText.answer answer] }
    else s

def step (s : SaveLink R) : SaveEvent R → SaveLink R × List (SaveEffect R)
  | .connect page save => s.connect page save
  | .lose page => s.dropPage page
  | .save page recording frameBytes ready => s.save page recording frameBytes ready
  | .timer page number =>
    let (link, effects) := (s.page page).timeout page number
    (s.setPage page link, effects)
  | .deliver page => s.deliver page
  | .receive c => (s.receive c, [])
  | .run c =>
    let (server, effects) := s.server.runSave c
    ({ s with server := server }, effects)
  | .work c result =>
    let (server, effects) := s.server.work c result
    ({ s with server := server }, effects)
  | .send c => (s.send c, [])
  | .leave c => (s.leave c, [])

abbrev SaveStep (R : Type*) := Step (SaveLink R) (SaveEvent R) (List (SaveEffect R))

end SaveLink

end Questix.LabBridge
