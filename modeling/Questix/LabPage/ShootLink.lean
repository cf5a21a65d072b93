/-
Questix.LabPage.ShootLink — the page's launcher session (`shoot-link.js`): the
one module that sends launcher frames.

A step is what the browser runs without a pause: a call from the view, a message
of the bridge, a timer. It gets the time it happens at. What `robot-link.js`
holds (the link, the latest messages, whether the socket takes a frame) is part
of the state, and changes by events of its own.

A session is an object that its interval keeps alive, so it is looked up by its
number, and an interval is named by its session. What is sent in a session's
heartbeat carries the number too; it is not on the wire.
-/
import Mathlib.Logic.Function.Basic
import Questix.LabPage.ShootCore

namespace Questix.LabPage

/-! ## Constants -/

/-- `STALL_MS` and the others, in milliseconds -/
def stallMs : ℚ := 400
def startTimeoutMs : ℚ := 1500
def tiltHoldMs : ℚ := 3000
def afterShotMs : ℚ := 800
def tiltFeedbackGraceMs : ℚ := 1000
def tiltFollowDeg : ℚ := 3

/-! ## State -/

inductive Mode where
  | spin
  | tilt
  deriving DecidableEq

structure Session where
  mode : Mode
  percent : ℤ
  /-- the bridge has named this page the owner -/
  started : Bool
  startedAt : ℚ
  beatAt : ℚ
  lastTiltAt : ℚ
  stopAfter : Option ℚ
  shots : ℕ

/-- The request a refusal answers. -/
inductive RequestType where
  | roller
  | tilt
  | fire
  | other
  deriving DecidableEq

/-- `shoot_refused` -/
structure Refused where
  request : RequestType
  reason : String

/-- The last thing to tell the learner. -/
inductive Note where
  | refused (refused : Refused)
  | ended (key : String)
  | fired (row : Row)
  | notFired (reason : Option String)

structure Page where
  confirmed : Bool
  current : Option ℕ
  sessions : ℕ → Session
  /-- the number of the next session -/
  nextSession : ℕ
  /-- the sessions whose interval is set -/
  intervals : List ℕ
  firePending : Option ℚ
  note : Option Note
  /-- `desired` -/
  percent : ℤ
  tilt : Option ℤ
  tracker : Tracker
  shootStateAt : ℚ
  shotAt : ℚ
  shotsThisPage : ℕ
  tiltTimer : Bool
  tiltSentAt : Option ℚ
  tiltAwaiting : Option (ℤ × ℚ)
  -- `robot-link.js`
  link : Link
  /-- the socket takes frames -/
  socketOpen : Bool
  shootState : Option ShootState
  shot : Option ShotStatus

def newSession (mode : Mode) (percent : ℤ) (now : ℚ) : Session where
  mode := mode
  percent := percent
  started := false
  startedAt := now
  beatAt := now
  lastTiltAt := now
  stopAfter := none
  shots := 0

/-- The page as it is loaded, without a link. -/
def Page.loaded : Page where
  confirmed := false
  current := none
  sessions := fun _ => newSession .spin 0 0
  nextSession := 0
  intervals := []
  firePending := none
  note := none
  percent := 50
  tilt := none
  tracker := {}
  shootStateAt := 0
  shotAt := 0
  shotsThisPage := 0
  tiltTimer := false
  tiltSentAt := none
  tiltAwaiting := none
  link := { isOpen := false, session := none, shoot := none }
  socketOpen := false
  shootState := none
  shot := none

/-- A frame for the bridge. -/
inductive Frame where
  | roller (session : ℕ) (power : ℚ)
  | rollerStop
  | tilt (deg : Option ℤ)
  | fire (confirm : Bool)
  deriving DecidableEq

/-- What the page lets out: frames, and what it tells its listeners. -/
inductive Output where
  | frame (frame : Frame)
  | sessionStart
  | sessionEnd (reason : String) (shots : ℕ)
  | shotFired (row : Row)

abbrev Effect := Page × List Output

/-- One call, then another. -/
def Effect.andThen (r : Effect) (f : Page → Effect) : Effect :=
  ((f r.1).1, r.2 ++ (f r.1).2)

namespace Page

variable (s : Page) (now : ℚ)

def session? : Option Session := s.current.map s.sessions

/-- The running session, changed. -/
def mapCurrent (f : Session → Session) : Page :=
  match s.current with
  | none => s
  | some id => { s with sessions := Function.update s.sessions id (f (s.sessions id)) }

/-- `sendRobot` would send. -/
def sends : Bool := s.link.isOpen && s.socketOpen

def send (frame : Frame) : List Output := if s.sends then [.frame frame] else []

/-! ## Model -/

def readiness : Readiness := shootReadiness s.link s.shootState s.shootStateAt now s.confirmed

def launcher : Option ShotStatus := launcherShot s.shot s.shotAt now

def local_ : Local where
  spinning := s.session?.any (·.mode == .spin)
  session := s.current.isSome
  firePending := s.firePending.isSome
  shooting := (s.launcher now).any (·.shooting)
  tiltKnown := ((s.launcher now).bind (·.tiltDeg)).isSome

/-- `shootModel().controls` -/
def controls : Controls := shootControls (s.readiness now) (s.local_ now)

/-- `shootModel().tilt` -/
def shownTilt : ℤ :=
  let limits := (s.readiness now).limits
  let reported := ((s.launcher now).bind (·.tiltDeg)).getD limits.tiltMin
  clampTilt (some ((s.tilt.map fun deg => (deg : ℚ)).getD reported)) limits

def chosenPercent : ℤ := clampPercent (some s.percent) (s.readiness now).limits

/-! ## Sessions -/

/-- `mayStopOwn` -/
def mayStopOwn : Bool :=
  !s.shootState.any fun state =>
    state.active && state.owner.isSome && decide (state.owner ≠ s.link.session)

def finishSession (id : ℕ) (reason : EndReason) : Effect :=
  if s.current ≠ some id then (s, [])
  else
    let session := s.sessions id
    let quiet := reason = .bridge ∨ reason = .lost ∨ reason = .refused
    let stop := if ¬ quiet ∧ s.mayStopOwn then s.send .rollerStop else []
    let key := sessionEndKey reason (s.shootState.bind (·.lastStop)) s.link.session
    let refusedNote := match s.note with
      | some (.refused _) => true
      | _ => false
    ({ s with
        current := none
        intervals := s.intervals.filter (· ≠ id)
        tiltTimer := false
        tilt := none
        tiltAwaiting := none
        firePending := none
        confirmed :=
          if session.started && (0 < session.shots || !keepsConfirmation reason) then false
          else s.confirmed
        note := match key with
          | some why => if refusedNote && reason = .refused then s.note else some (.ended why)
          | none => s.note },
      stop ++
        if session.started then [.sessionEnd (key.getD reason.key) session.shots] else [])

/-- `current?.finish(reason)` -/
def finish (reason : EndReason) : Effect :=
  match s.current with
  | some id => s.finishSession id reason
  | none => (s, [])

def missed (reason : Option String) : Page :=
  { s with firePending := none, note := some (.notFired reason) }

/-- `expireFire`, and what the page makes of a fire given up -/
def giveUp (reason : Option String) : Page :=
  match expireFire s.tracker now reason with
  | (tracker, some (.notFired reason)) => { s with tracker := tracker }.missed reason
  | (tracker, _) => { s with tracker := tracker }

def heartbeat (id : ℕ) : Effect :=
  if stallMs < now - (s.sessions id).beatAt then s.finishSession id .stalled
  else
    let session := { s.sessions id with beatAt := now }
    let s := { s with sessions := Function.update s.sessions id session }
    if !session.started && startTimeoutMs < now - session.startedAt then
      s.finishSession id .noAnswer
    else if session.mode = .tilt ∧ tiltHoldMs < now - session.lastTiltAt then
      s.finishSession id .idle
    else if !s.shot.any (·.shooting) && session.stopAfter.any (· ≤ now) then
      s.finishSession id .fired
    else if !s.sends then s.finishSession id .lost
    else
      let percent := if session.mode = .spin then session.percent else 0
      (s.giveUp now (s.shot.bind (·.labRefused)), [.frame (.roller id (percent / 100))])

def startSession (mode : Mode) : Effect :=
  match s.current with
  | some _ => (s, [])
  | none =>
    let id := s.nextSession
    { s with
      current := some id
      sessions := Function.update s.sessions id (newSession mode (s.chosenPercent now) now)
      nextSession := id + 1
      intervals := id :: s.intervals
      note := none }.heartbeat now id

/-! ## What the learner does -/

def confirmShootSafety (value : Bool) : Effect :=
  ({ s with
      confirmed := value
      note := match s.note with
        | some (.ended key) => if value then none else some (.ended key)
        | note => note },
    [])

def setRollerPercent (percent : Option ℚ) : Effect :=
  let chosen := clampPercent percent (s.readiness now).limits
  let s := { s with percent := chosen }
  (s.mapCurrent fun session =>
      if session.mode = .spin then { session with percent := chosen } else session,
    [])

/-- The stop bar: whichever page operates the launcher. -/
def stopLauncher : Effect :=
  Effect.andThen (s, s.send .rollerStop) fun s => s.finish .stopped

def stopOwn (left : Bool) : Effect := s.finish (if left then .left else .stopped)

def startRoller : Effect :=
  let controls := s.controls now
  if controls.spin.isSome || controls.spinStop then (s, [])
  else match s.current with
    | some _ =>
      let percent := s.chosenPercent now
      (s.mapCurrent fun session => { session with mode := .spin, percent := percent }, [])
    | none => s.startSession now .spin

/-- The timer of a tilt. -/
def sendTilt : Effect :=
  let s := { s with tiltTimer := false }
  if s.current.isNone then (s, [])
  else
    let s := { s with tiltSentAt := some now }.mapCurrent fun session =>
      { session with lastTiltAt := now }
    if s.sends then
      ({ s with tiltAwaiting := s.tilt.map fun deg => (deg, now) }, [.frame (.tilt s.tilt)])
    else (s, [])

def setTilt (deg : Option ℚ) : Effect :=
  if (s.controls now).tilt.isSome then (s, [])
  else
    let s := { s with tilt := some (clampTilt deg (s.readiness now).limits) }
    Effect.andThen (s.startSession now .tilt) fun s =>
      if s.current.isNone then (s, [])
      else
        ({ s.mapCurrent fun session => { session with lastTiltAt := now } with tiltTimer := true },
          [])

/-- The page fires: the tick is set, the button is on, and a session runs. -/
def mayFire : Bool := s.confirmed && (s.controls now).fire.isNone && s.current.isSome

def fireOne : Effect :=
  if !s.mayFire now then (s, [])
  else
    let limits := (s.readiness now).limits
    let percent := clampPercent (s.session?.map fun session => (session.percent : ℚ)) limits
    let tracker :=
      { s.tracker with pending := some { at_ := now, percent := percent, tilt := s.shownTilt now } }
    let s := { s with firePending := some now, tracker := tracker, note := none }
    if s.sends then (s, [.frame (.fire s.confirmed)]) else s.finish .lost

/-! ## What the bridge says -/

def onShootState (state : ShootState) : Effect :=
  let s := { s with shootState := some state, shootStateAt := now }
  match s.current with
  | none => (s, [])
  | some id =>
    let mine := state.active && decide (state.owner = s.link.session)
    if mine && !(s.sessions id).started then
      (s.mapCurrent fun session => { session with started := true }, [.sessionStart])
    else if (s.sessions id).started && !mine then s.finish .bridge
    else (s, [])

def onRefused (refused : Refused) : Effect :=
  let s :=
    if refused.request = .fire then
      { s with firePending := none, tracker := { s.tracker with pending := none } }
    else s
  let s := { s with note := some (.refused refused) }
  if s.session?.any (!·.started) && refused.request ≠ .fire then s.finish .refused else (s, [])

/-- The slider follows the robot, unless a target of this page is on its way. -/
def followTilt (tiltDeg : ℚ) : Page :=
  let answered := s.tiltAwaiting.any fun (deg, at_) =>
    |tiltDeg - deg| < tiltFollowDeg || tiltFeedbackGraceMs ≤ now - at_
  let s := if answered then { s with tiltAwaiting := none } else s
  if s.current.isSome && !s.tiltTimer && s.tiltAwaiting.isNone &&
      s.tilt.any fun deg => tiltFollowDeg ≤ |tiltDeg - deg| then
    { s with tilt := none }
  else s

def onShot (shot : ShotStatus) : Effect :=
  let s := { s with shot := some shot, shotAt := now }
  let s := match shot.tiltDeg with
    | some deg => s.followTilt now deg
    | none => s
  match ingestShot s.tracker shot now with
  | (tracker, some (.fired row)) =>
    let s := { s with
      tracker := tracker
      firePending := none
      shotsThisPage := s.shotsThisPage + 1
      note := some (.fired row) }
    (s.mapCurrent fun session =>
        { session with shots := session.shots + 1, stopAfter := some (now + afterShotMs) },
      [.shotFired row])
  | (tracker, some (.notFired reason)) => ({ s with tracker := tracker }.missed reason, [])
  | (tracker, _) => ({ s with tracker := tracker }, [])

/-- The state of the link has changed. -/
def onLink (link : Link) : Effect :=
  let s := { s with link := link }
  if link.isOpen then (s, []) else s.finish .lost

/-- `open` of `robot-link.js`: the latest messages are forgotten, and the link starts anew. -/
def onReopen : Effect :=
  { s with shootState := none, shot := none }.onLink
    { isOpen := false, session := none, shoot := none }

end Page

/-! ## Steps -/

inductive Action where
  | tick (value : Bool)
  | rollerPercent (percent : Option ℚ)
  | spin
  | tilt (deg : Option ℚ)
  | fire
  | stopLauncher
  | stopOwn (left : Bool)
  | escape
  | hide
  | shootState (state : ShootState)
  | refused (refused : Refused)
  | shot (shot : ShotStatus)
  | roller
  | link (link : Link)
  | reopen
  | socket (isOpen : Bool)
  | heartbeat (session : ℕ)
  | tiltTimer

structure Event where
  at_ : ℚ
  action : Action

/-- What an event makes of the page. A timer that is not set does not come. -/
def step (s : Page) (e : Event) : Effect :=
  match e.action with
  | .tick value => s.confirmShootSafety value
  | .rollerPercent percent => s.setRollerPercent e.at_ percent
  | .spin => s.startRoller e.at_
  | .tilt deg => s.setTilt e.at_ deg
  | .fire => s.fireOne e.at_
  | .stopLauncher => s.stopLauncher
  | .stopOwn left => s.stopOwn left
  | .escape => s.finish .stopped
  | .hide => s.finish .hidden
  | .shootState state => s.onShootState e.at_ state
  | .refused refused => s.onRefused refused
  | .shot shot => s.onShot e.at_ shot
  -- its view alone reads it
  | .roller => (s, [])
  | .link link => s.onLink link
  | .reopen => s.onReopen
  | .socket isOpen => ({ s with socketOpen := isOpen }, [])
  | .heartbeat id => if id ∈ s.intervals then s.heartbeat e.at_ id else (s, [])
  | .tiltTimer => if s.tiltTimer then s.sendTilt e.at_ else (s, [])

end Questix.LabPage
