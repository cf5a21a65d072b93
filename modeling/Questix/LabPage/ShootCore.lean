/-
Questix.LabPage.ShootCore — the decisions of the launcher block
(`shoot-core.js`): what a page may do now, which buttons are on, and which disc
was its own.

Numbers are exact. A field of a message that is missing, `null` or no finite
number is `none`; so is the code of a blocker that the page does not know. The
nodes and parts a blocker names, and everything that turns keys into sentences,
are left out.
-/
import Mathlib.Algebra.Order.Floor.Ring
import Mathlib.Data.List.Sort
import Mathlib.Data.Rat.Floor

namespace Questix.LabPage

/-! ## Messages -/

/-- Why a page cannot operate the launcher now, in the order shown. -/
inductive BlockerCode where
  | noLink
  | oldBridge
  | notAllowed
  | estopUnknown
  | emergencyStop
  | noLauncher
  | otherPublisher
  | noMotionPermission
  | controller
  | busy
  | unconfirmed
  deriving DecidableEq

def shootBlockers : List BlockerCode :=
  [.noLink, .oldBridge, .notAllowed, .estopUnknown, .emergencyStop, .noLauncher, .otherPublisher,
    .noMotionPermission, .controller, .busy, .unconfirmed]

structure Limits where
  maxPower : ℚ
  minFirePower : ℚ
  spinUpSec : ℚ
  fireIntervalSec : ℚ
  tiltMin : ℚ
  tiltMax : ℚ
  deadman : ℚ
  seconds : ℚ

def defaultLimits : Limits where
  maxPower := 4 / 5
  minFirePower := 1 / 5
  spinUpSec := 1
  fireIntervalSec := 2
  tiltMin := 0
  tiltMax := 120
  deadman := 1 / 2
  seconds := 30

/-- Limits as a message gives them. -/
structure SomeLimits where
  maxPower : Option ℚ := none
  minFirePower : Option ℚ := none
  spinUpSec : Option ℚ := none
  fireIntervalSec : Option ℚ := none
  tiltMin : Option ℚ := none
  tiltMax : Option ℚ := none
  deadman : Option ℚ := none
  seconds : Option ℚ := none

/-- `{ ...limits, ...given }` -/
def Limits.with (limits : Limits) (given : SomeLimits) : Limits where
  maxPower := given.maxPower.getD limits.maxPower
  minFirePower := given.minFirePower.getD limits.minFirePower
  spinUpSec := given.spinUpSec.getD limits.spinUpSec
  fireIntervalSec := given.fireIntervalSec.getD limits.fireIntervalSec
  tiltMin := given.tiltMin.getD limits.tiltMin
  tiltMax := given.tiltMax.getD limits.tiltMax
  deadman := given.deadman.getD limits.deadman
  seconds := given.seconds.getD limits.seconds

/-- `hello.shoot` -/
structure HelloShoot where
  allowed : Bool
  limits : SomeLimits := {}

/-- The state of `robot-link.js`, as the launcher block reads it. -/
structure Link where
  /-- the phase is `open` -/
  isOpen : Bool
  session : Option ℕ
  shoot : Option HelloShoot

/-- Why and by whom the last session was ended. -/
structure LastStop where
  reason : String
  by_ : Option ℕ

/-- `shoot_state` -/
structure ShootState where
  allowed : Bool
  active : Bool
  owner : Option ℕ
  blockers : List (Option BlockerCode)
  rollerPower : Option ℚ
  tiltDeg : Option ℚ
  readyToFire : Bool
  nextFireInSec : Option ℚ
  spinReadyInSec : Option ℚ
  sessionSec : Option ℚ
  fired : Option ℚ
  limits : SomeLimits
  lastStop : Option LastStop

inductive FireSource where
  | joy
  | lab
  | other
  deriving DecidableEq

/-- `shot`: `/shot/status` -/
structure ShotStatus where
  tiltDeg : Option ℚ
  firedCount : Option ℤ
  shooting : Bool
  lastFireSource : Option FireSource
  estop : Bool
  labRefused : Option String

/-! ## What the page may do -/

inductive Owner where
  | me
  | another
  deriving DecidableEq

def ownerOf (state : Option ShootState) (session : Option ℕ) : Option Owner :=
  match state with
  | none => none
  | some s =>
    if !s.active || s.owner.isNone then none
    else if s.owner = session then some .me else some .another

def stateBlockers (state : Option ShootState) : List BlockerCode :=
  (state.map fun s => s.blockers.filterMap id).getD []

structure Readiness where
  ready : Bool
  allowed : Bool
  blockers : List BlockerCode
  owner : Option Owner
  active : Bool
  limits : Limits
  lastStop : Option LastStop
  power : ℚ
  tiltDeg : Option ℚ
  sessionLeft : Option ℚ
  spinReadyIn : Option ℚ
  nextFireIn : ℚ
  readyToFire : Bool
  fired : ℚ

def secondsLeft (value : Option ℚ) (elapsed : ℚ) : Option ℚ :=
  value.map fun v => max 0 (v - elapsed)

/-- The blocker that the link itself is. -/
def linkBlocker (link : Link) (state : Option ShootState) : List BlockerCode :=
  if !link.isOpen then [.noLink]
  else match link.shoot with
    | none => [.oldBridge]
    | some hello =>
      if !hello.allowed || state.any (!·.allowed) then [.notAllowed]
      else if state.isNone then [.noLauncher]
      else []

def shootReadiness (link : Link) (shootState : Option ShootState) (receivedAt now : ℚ)
    (confirmed : Bool) : Readiness :=
  let support := if link.isOpen then link.shoot else none
  let state := if link.isOpen && support.any (·.allowed) then shootState else none
  let first := linkBlocker link state
  let owner := ownerOf state link.session
  let blockers := first ++ (stateBlockers state).filter (!first.contains ·) ++
    (if owner = some .another then [.busy] else []) ++ (if confirmed then [] else [.unconfirmed])
  let blockers := blockers.insertionSort fun a b => shootBlockers.idxOf a ≤ shootBlockers.idxOf b
  let elapsed := max 0 ((now - receivedAt) / 1000)
  let offered := (support.map fun hello => defaultLimits.with hello.limits).getD defaultLimits
  let limits := (state.map fun s => offered.with s.limits).getD offered
  let mine := owner = some .me
  { ready := blockers.isEmpty
    allowed := support.any (·.allowed) && !state.any (!·.allowed)
    blockers := blockers
    owner := owner
    active := state.any (·.active)
    limits := limits
    lastStop := state.bind (·.lastStop)
    power := (state.bind (·.rollerPower)).getD 0
    tiltDeg := state.bind (·.tiltDeg)
    sessionLeft :=
      if mine then
        secondsLeft (some (limits.seconds - (state.bind (·.sessionSec)).getD 0)) elapsed
      else none
    spinReadyIn := if mine then secondsLeft (state.bind (·.spinReadyInSec)) elapsed else none
    nextFireIn := max 0 ((state.bind (·.nextFireInSec)).getD 0 - elapsed)
    readyToFire := decide mine && state.any (·.readyToFire)
    fired := (state.bind (·.fired)).getD 0 }

/-! ## The buttons -/

/-- The page's own side. -/
structure Local where
  spinning : Bool
  session : Bool
  firePending : Bool
  shooting : Bool
  tiltKnown : Bool

/-- Why a button is off. -/
inductive WhyOff where
  | blocker (code : BlockerCode)
  | shooting
  | tiltUnknown
  | notSpinning
  | starting
  | firePending
  | spinningUp (seconds : ℚ)
  | interval (seconds : ℚ)
  deriving DecidableEq

/-- What stops anything new: a blocker, the missing tick last. -/
def blockedBy (r : Readiness) : Option BlockerCode :=
  match r.blockers.find? (· != .unconfirmed) with
  | some hard => some hard
  | none => r.blockers.find? (· == .unconfirmed)

/-- Why the fire button is off; `none`: it is on. -/
def fireControl (r : Readiness) (page : Local) : Option WhyOff :=
  match blockedBy r with
  | some code => some (.blocker code)
  | none =>
    if !page.spinning then some .notSpinning
    else if r.owner ≠ some .me then some .starting
    else if page.firePending then some .firePending
    else if page.shooting then some .shooting
    else match r.spinReadyIn with
      | none => some (.spinningUp r.limits.spinUpSec)
      | some wait =>
        if 0 < wait then some (.spinningUp wait)
        else if 0 < r.nextFireIn then some (.interval r.nextFireIn)
        else if !r.readyToFire then some .starting
        else none

structure Controls where
  /-- the roller's button stops it -/
  spinStop : Bool
  spin : Option WhyOff
  tilt : Option WhyOff
  fire : Option WhyOff

def shootControls (r : Readiness) (page : Local) : Controls where
  spinStop := page.spinning
  spin := if page.spinning then none else (blockedBy r).map .blocker
  tilt :=
    match blockedBy r with
    | some code => some (.blocker code)
    | none =>
      if page.firePending || page.shooting then some .shooting
      else if !page.tiltKnown then some .tiltUnknown
      else none
  fire := fireControl r page

/-! ## Percent and degrees -/

/-- `Math.round` -/
def jsRound (x : ℚ) : ℤ := ⌊x + 1 / 2⌋

/-- The roller slider's range in percent. -/
def powerRange (limits : Limits) : ℤ × ℤ :=
  let most := ⌊limits.maxPower * 100 + 1 / 10 ^ 9⌋
  let least := min most ⌈limits.minFirePower * 100 - 1 / 10 ^ 9⌉
  (max 0 least, max 0 most)

def clampPercent (percent : Option ℚ) (limits : Limits) : ℤ :=
  let (least, most) := powerRange limits
  max least (min most ((percent.map jsRound).getD least))

def clampTilt (deg : Option ℚ) (limits : Limits) : ℤ :=
  let low := ⌈limits.tiltMin - 1 / 10 ^ 9⌉
  let high := ⌊limits.tiltMax + 1 / 10 ^ 9⌋
  max low (min (max low high) ((deg.map jsRound).getD low))

/-! ## Shots -/

/-- `FIRE_CONFIRM_MS` -/
def fireConfirmMs : ℚ := 3000

/-- A fire that waits for its disc. -/
structure PendingFire where
  at_ : ℚ
  percent : ℤ
  tilt : ℤ

structure Tracker where
  count : Option ℤ := none
  pending : Option PendingFire := none

/-- A disc of this page, as the list of shots shows it. -/
structure Row where
  percent : ℤ
  tilt : ℚ

inductive Shot where
  | fired (row : Row)
  | otherFired (source : Option FireSource)
  | notFired (reason : Option String)

def expireFire (tracker : Tracker) (at_ : ℚ) (reason : Option String) : Tracker × Option Shot :=
  match tracker.pending with
  | none => (tracker, none)
  | some p =>
    if at_ - p.at_ ≤ fireConfirmMs then (tracker, none)
    else ({ tracker with pending := none }, some (.notFired reason))

def ingestShot (tracker : Tracker) (shot : ShotStatus) (at_ : ℚ) : Tracker × Option Shot :=
  match shot.firedCount with
  | none => expireFire tracker at_ shot.labRefused
  | some count =>
    let counted := { tracker with count := some count }
    if tracker.count.all (count ≤ ·) then expireFire counted at_ shot.labRefused
    else match tracker.pending with
      | some p =>
        if shot.lastFireSource = some .lab then
          let tilt := shot.tiltDeg.getD p.tilt
          ({ counted with pending := none }, some (.fired { percent := p.percent, tilt := tilt }))
        else (counted, some (.otherFired shot.lastFireSource))
      | none => (counted, some (.otherFired shot.lastFireSource))

/-! ## Why a session ended -/

/-- The page's own reasons to end a session, and `bridge`. -/
inductive EndReason where
  | stopped
  | left
  | hidden
  | lost
  | fired
  | idle
  | noAnswer
  | refused
  | stalled
  | bridge
  deriving DecidableEq

def EndReason.key : EndReason → String
  | .stopped => "stopped"
  | .left => "left"
  | .hidden => "hidden"
  | .lost => "lost"
  | .fired => "fired"
  | .idle => "idle"
  | .noAnswer => "no_answer"
  | .refused => "refused"
  | .stalled => "stalled"
  | .bridge => "bridge"

/-- The key of the sentence for an end; `none` for the page's own quiet stops. -/
def sessionEndKey (reason : EndReason) (lastStop : Option LastStop) (session : Option ℕ) :
    Option String :=
  if reason ≠ .bridge then
    if reason = .fired ∨ reason = .idle then none else some reason.key
  else
    let why := (lastStop.map (·.reason)).getD "stopped"
    if why = "stopped" then
      if lastStop.any fun stop => decide (stop.by_ = session) then some "stopped"
      else some "stopped_other"
    else some why

def keepsConfirmation (reason : EndReason) : Bool := reason == .idle

/-! ## The launcher's state -/

/-- `STATUS_STALE_MS` -/
def statusStaleMs : ℚ := 1000

/-- The latest shot status, while it is fresh. -/
def launcherShot (shot : Option ShotStatus) (shotAt now : ℚ) : Option ShotStatus :=
  if now - shotAt ≤ statusStaleMs then shot else none

end Questix.LabPage
