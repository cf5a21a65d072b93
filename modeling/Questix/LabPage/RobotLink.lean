/-
Questix.LabPage.RobotLink — the live link to a robot (`robot-link.js`).

An event is one turn of the page: a call, an event of a socket, a timer. What
the browser and the address make of it is part of the event: whether a
connection could be started, whether the socket is ready, the message a text
is. Sockets, timers and saves are numbers, each use giving a new one; a timer
that was cleared is not among those pending. Listeners do not call back.
-/
import Questix.Lib.Slots
import Mathlib.Data.Rat.Defs
import Mathlib.Algebra.Order.Ring.Rat

namespace Questix.LabPage.RobotLink

open Questix.Lib

abbrev Url := String
abbrev SocketId := ℕ
abbrev Handle := ℕ
abbrev SaveId := ℕ

def RETRY_MS : ℕ := 3000
def CONNECT_TIMEOUT_MS : ℕ := 6000
def CLOSE_TOO_MANY_CLIENTS : ℕ := 1013
def FULL_RETRY_MS : ℕ := 15000
def STOPPED_AFTER_FAILURES : ℕ := 3
def SILENT_MS : ℕ := 4000
def MAX_SAVE_BYTES : ℕ := 8 * 1024 * 1024
def SAVE_TIMEOUT_MS : ℕ := 30000

inductive Phase where
  | idle
  | connecting
  | open
  | error
  deriving DecidableEq

inductive Problem where
  | timeout
  | refused
  | full
  | lost
  | stopped
  | blocked
  | version
  deriving DecidableEq

/-- What the page uses of a hello. -/
structure Hello where
  /-- the number under `protocol` -/
  protocol : Option ℚ
  /-- `records.save`, where there are records -/
  saves : Bool
  deriving DecidableEq

def PROTOCOL : ℚ := 1

abbrev Rates := List (String × ℚ)

/-- A frame of the bridge. -/
inductive Message where
  | hello (hello : Hello)
  | status (rates : Rates)
  | session (id : Option ℚ)
  | recordSaved (id : String)
  | recordError (text : String)
  | shootRefused (text : String)
  /-- one of `STATES` and `STREAMS`; the camera comes as bytes -/
  | stream (name : String) (payload : String)
  /-- anything else -/
  | other

structure LinkState where
  phase : Phase := .idle
  url : Url := ""
  hello : Option Hello := none
  session : Option ℚ := none
  rates : Rates := []
  message : String := ""
  problem : Option Problem := none
  everOpened : Bool := false
  failures : ℕ := 0
  closeCode : Option ℕ := none
  silent : Bool := false

/-- How a save ended. -/
inductive SaveResult where
  | resolved (id : String)
  | notConnected
  | off
  | tooBig
  | timeout
  | lost
  | refused (text : String)

/-- A save that waits for its answer. -/
structure PendingSave where
  id : SaveId
  timer : Handle
  timedOut : Bool

inductive Timer where
  | retry (url : Url)
  | connect (socket : SocketId) (url : Url)
  | silence
  | save (id : SaveId)

/-- What listeners are told. -/
inductive Notice where
  | state (state : LinkState)
  | message (message : Message)

/-- The sentences, and where the page was opened from. -/
structure Surroundings where
  /-- `problemMessage(problem, url, delayMs)` -/
  problemMessage : Problem → Url → ℕ → String
  /-- `servedByThisBridge(url)` -/
  servedByThisBridge : Url → Bool

structure Link where
  state : LinkState := {}
  latest : Slots String String := []
  saves : List PendingSave := []
  socket : Option SocketId := none
  wanted : Bool := false
  retryTimer : Handle := 0
  connectTimer : Handle := 0
  silenceTimer : Handle := 0
  /-- The sockets that were made, and neither closed here nor by the other side. -/
  alive : List SocketId := []
  made : SocketId := 0
  /-- The timers that are set, with their delays. -/
  pending : List (Handle × Timer × ℕ) := []
  nextHandle : Handle := 1
  /-- The saves that were sent, with the socket they went out on. -/
  sent : List (SaveId × SocketId) := []
  settled : List (SaveId × SaveResult) := []
  calls : SaveId := 0
  told : List Notice := []

namespace Link

def setState (link : Link) (state : LinkState) : Link :=
  { link with state, told := link.told ++ [.state state] }

def emit (link : Link) (message : Message) : Link :=
  { link with told := link.told ++ [.message message] }

def setTimeout (link : Link) (timer : Timer) (delay : ℕ) : Link :=
  { link with
    pending := link.pending ++ [(link.nextHandle, timer, delay)]
    nextHandle := link.nextHandle + 1 }

def clearTimeout (link : Link) (handle : Handle) : Link :=
  { link with pending := link.pending.filter fun timer => timer.1 ≠ handle }

/-- A promise is settled once. -/
def settle (link : Link) (id : SaveId) (result : SaveResult) : Link :=
  if id ∈ link.settled.map Prod.fst then link
  else { link with settled := link.settled ++ [(id, result)] }

def stopTimers (link : Link) : Link :=
  let link := ((link.clearTimeout link.retryTimer).clearTimeout link.connectTimer).clearTimeout
    link.silenceTimer
  { link with retryTimer := 0, connectTimer := 0, silenceTimer := 0 }

/-! ## Saves -/

/-- A save whose connection is gone. -/
def loseSave (link : Link) (save : PendingSave) : Link :=
  let link := link.clearTimeout save.timer
  if save.timedOut then link else link.settle save.id .lost

def dropSaves (link : Link) : Link :=
  link.saves.foldl loseSave { link with saves := [] }

def answerSave (link : Link) (result : SaveResult) : Link :=
  match link.saves with
  | [] => link
  | save :: rest =>
    let link := { link with saves := rest }
    if save.timedOut then link else (link.clearTimeout save.timer).settle save.id result

/-- Whether `saveRecordOnRobot` refuses at once. -/
def refusal (link : Link) (ready : Bool) (frameBytes : ℕ) : Option SaveResult :=
  if link.socket = none ∨ ready = false ∨ link.state.phase ≠ .open then some .notConnected
  else if link.state.hello.map Hello.saves ≠ some true then some .off
  else if frameBytes > MAX_SAVE_BYTES then some .tooBig
  else none

/-- `saveRecordOnRobot` -/
def saveRecord (link : Link) (ready : Bool) (frameBytes : ℕ) : Link :=
  let id := link.calls
  let called := { link with calls := link.calls + 1 }
  match link.refusal ready frameBytes, link.socket with
  | none, some socket =>
    let timed := called.setTimeout (.save id) SAVE_TIMEOUT_MS
    { timed with
      saves := timed.saves ++ [{ id, timer := called.nextHandle, timedOut := false }]
      sent := timed.sent ++ [(id, socket)] }
  | some result, _ => called.settle id result
  | none, none => called.settle id .notConnected

/-! ## The connection -/

/-- Closes the socket without letting its close event count as a failure. -/
def dropSocket (link : Link) : Link :=
  let dropped := { link with socket := none }.dropSaves
  match link.socket with
  | none => dropped
  | some old => { dropped with alive := dropped.alive.filter (· ≠ old) }

def armSilence (link : Link) : Link :=
  if link.silenceTimer ≠ 0 ∨ link.state.silent then link
  else { link.setTimeout .silence SILENT_MS with silenceTimer := link.nextHandle }

def receiveStatus (link : Link) (rates : Rates) : Link :=
  let link :=
    if rates.any fun rate => rate.2 > 0 then
      let link := { link.clearTimeout link.silenceTimer with silenceTimer := 0 }
      link.setState { link.state with rates, silent := false }
    else
      let link := link.armSilence
      link.setState { link.state with rates }
  link.emit (.status rates)

variable (env : Surroundings)

def refuseVersion (link : Link) : Link :=
  let link := { link with wanted := false }.stopTimers.dropSocket
  link.setState
    { link.state with
      phase := .idle
      rates := []
      problem := some .version
      message := env.problemMessage .version link.state.url 0 }

def welcome (link : Link) (hello : Hello) : Link :=
  if hello.protocol ≠ some PROTOCOL then link.refuseVersion env
  else
    let link := { link.clearTimeout link.connectTimer with connectTimer := 0 }
    let link := link.setState
      { link.state with
        phase := .open
        hello := some hello
        message := ""
        problem := none
        everOpened := true
        failures := 0
        closeCode := none
        silent := false }
    link.armSilence

def receive (link : Link) : Message → Link
  | .hello hello => link.welcome env hello
  | .status rates => link.receiveStatus rates
  | .session id => link.setState { link.state with session := id }
  | .recordSaved id => link.answerSave (.resolved id)
  | .recordError text => link.answerSave (.refused text)
  | .shootRefused text => link.emit (.shootRefused text)
  | .stream name payload =>
    { link with latest := link.latest.put name payload }.emit (.stream name payload)
  | .other => link

/-- An attempt ended without a working link, or a working link ended. -/
def failed (link : Link) (url : Url) (problem : Problem) (closeCode : Option ℕ) : Link :=
  let link := link.stopTimers
  let failures := link.state.failures + 1
  let gone := failures ≥ STOPPED_AFTER_FAILURES ∧ problem ≠ .full ∧ env.servedByThisBridge url
  let shown := if gone then .stopped else problem
  let delay := if problem = .full then FULL_RETRY_MS else RETRY_MS
  let link := link.setState
    { link.state with
      phase := .error
      rates := []
      silent := false
      failures
      closeCode
      problem := some shown
      message := env.problemMessage shown url delay }
  { link.setTimeout (.retry url) delay with retryTimer := link.nextHandle }

def closeProblem (link : Link) (code : ℕ) : Problem :=
  if code = CLOSE_TOO_MANY_CLIENTS then .full
  else if link.state.everOpened then .lost
  else .refused

/-- The browser refused to even start. -/
def blocked (link : Link) (url : Url) : Link :=
  let link := { link with wanted := false }
  link.setState
    { link.state with
      phase := .idle
      failures := link.state.failures + 1
      problem := some .blocked
      message := env.problemMessage .blocked url 0 }

/-- `open`; `starts` is whether the browser takes the address. -/
def openLink (link : Link) (url : Url) (starts : Bool) : Link :=
  let link := { link.stopTimers with latest := [] }
  let link := link.setState
    { link.state with
      phase := .connecting
      url
      hello := none
      session := none
      rates := []
      silent := false }
  if starts then
    let socket := link.made
    let link :=
      { link with socket := some socket, alive := link.alive ++ [socket], made := link.made + 1 }
    { link.setTimeout (.connect socket url) CONNECT_TIMEOUT_MS with
      connectTimer := link.nextHandle }
  else link.blocked env url

/-- `connectRobot`, of an address that means something. -/
def connectRobot (link : Link) (url : Url) (starts : Bool) : Link :=
  let link := { link with wanted := true }.dropSocket
  let link :=
    { link with
      state :=
        { link.state with
          message := ""
          problem := none
          everOpened := false
          failures := 0
          closeCode := none } }
  link.openLink env url starts

def disconnectRobot (link : Link) : Link :=
  let link := { link with wanted := false }.stopTimers.dropSocket
  link.setState
    { link.state with
      phase := .idle
      session := none
      rates := []
      message := ""
      problem := none
      everOpened := false
      failures := 0
      closeCode := none
      silent := false }

/-- `onclose` -/
def closed (link : Link) (socket : SocketId) (code : ℕ) : Link :=
  let link := { link with alive := link.alive.filter (· ≠ socket) }
  if link.socket ≠ some socket then link
  else
    let link := { link with socket := none }.dropSaves
    link.failed env link.state.url (link.closeProblem code) (some code)

/-- A timer is due; `starts` is for a retry. -/
def fire (link : Link) (starts : Bool) : Timer → Link
  | .retry url => if link.wanted then link.openLink env url starts else link
  | .connect socket url =>
    if link.socket ≠ some socket then link
    else
      let problem := if link.state.everOpened then .lost else .timeout
      link.dropSocket.failed env url problem none
  | .silence =>
    let link := { link with silenceTimer := 0 }
    if link.state.phase = .open then link.setState { link.state with silent := true } else link
  | .save id =>
    let saves := link.saves.map fun save =>
      if save.id = id then { save with timedOut := true } else save
    { link with saves }.settle id .timeout

end Link

/-! ## Events -/

inductive Event where
  /-- an address that means nothing is refused before anything changes -/
  | connect (url : Option Url) (starts : Bool)
  | disconnect
  | opened (socket : SocketId)
  | message (socket : SocketId) (message : Message)
  | closed (socket : SocketId) (code : ℕ)
  | timer (handle : Handle) (starts : Bool)
  | save (ready : Bool) (frameBytes : ℕ)

def step (env : Surroundings) (link : Link) : Event → Link
  | .connect none _ => link
  | .connect (some url) starts => link.connectRobot env url starts
  | .disconnect => link.disconnectRobot
  | .opened _ => link
  | .message socket message =>
    if link.socket = some socket then link.receive env message else link
  | .closed socket code => link.closed env socket code
  | .timer handle starts =>
    match link.pending.lookup handle with
    | none => link
    | some (timer, _) => (link.clearTimeout handle).fire env starts timer
  | .save ready frameBytes => link.saveRecord ready frameBytes

def run (env : Surroundings) (events : List Event) : Link := events.foldl (step env) {}

end Questix.LabPage.RobotLink
