/-
Questix.LabBridge.ShootSession — a page's launcher session: `shoot.py`, and
what `bridge_node.py` does with a tilt target (`TiltCoalescer`).

As in `DriveSession` the clock is an argument, `none` is "accepted", and the
dictionary of blockers is a function. A time that has not been set (minus
infinity in the source) is missing, and so is the infinite spin-up.

The JSON statuses of the roller and the shot node are kept as far as they are
read; `x is True` is `x = .bool true`, and a `source` that is no string is any
string but "lab". Left out are the payload for the pages (`state`) and what
only it reads: the version, the count of shots and the ready flag.
-/
import Questix.LabBridge.DriveSession

namespace Questix.LabBridge

open Questix.Lib

/-! ## What the robot says -/

structure RollerStatus where
  estop : Value := .other
  source : String := ""
  command : Value := .other
  deriving DecidableEq

structure ShotStatus where
  estop : Value := .other
  active : Value := .other
  shooting : Value := .other
  tiltMinDeg : Value := .other
  tiltMaxDeg : Value := .other
  nextFireInSec : Value := .other
  deriving DecidableEq

/-- `_limits` -/
structure Limits where
  maxPower : ℚ := 4 / 5
  tiltMin : ℚ := 0
  tiltMax : ℚ := 120
  minFirePower : ℚ := 1 / 5
  spinUpSec : ℚ := 1
  fireIntervalSec : ℚ := 2
  deriving DecidableEq

/-- A tilt target is in the range. -/
def Limits.Within (limits : Limits) (deg : ℚ) : Prop := limits.tiltMin ≤ deg ∧ deg ≤ limits.tiltMax

instance (limits : Limits) (deg : ℚ) : Decidable (limits.Within deg) :=
  inferInstanceAs (Decidable (_ ∧ _))

/-- `DEFAULT_LIMITS` -/
def defaultLimits : Limits := {}

/-- The arbiter's caps, the defaults without them, narrowed by the tilt range
of the shot node. -/
def limitsOf (arbiter : Option ArbiterStatus) (shot : Option ShotStatus) : Limits :=
  let cap (field : ArbiterStatus → Option ℚ) (default_ : ℚ) : ℚ :=
    (arbiter.bind field).getD default_
  let tiltMin := cap ArbiterStatus.tiltMinDeg defaultLimits.tiltMin
  let tiltMin := ((shot.bind fun st => number st.tiltMinDeg).map (max tiltMin)).getD tiltMin
  let tiltMax := cap ArbiterStatus.tiltMaxDeg defaultLimits.tiltMax
  let tiltMax := ((shot.bind fun st => number st.tiltMaxDeg).map (min tiltMax)).getD tiltMax
  { maxPower := max 0 (min 1 (cap ArbiterStatus.maxPower defaultLimits.maxPower))
    tiltMin := tiltMin
    tiltMax := max tiltMin tiltMax
    minFirePower := cap ArbiterStatus.minFirePower defaultLimits.minFirePower
    spinUpSec := cap ArbiterStatus.spinUpSec defaultLimits.spinUpSec
    fireIntervalSec := cap ArbiterStatus.fireIntervalSec defaultLimits.fireIntervalSec }

/-! ## The session -/

/-- Why the launcher cannot be operated right now. -/
inductive ShootBlocker where
  | notAllowed
  | estopUnknown
  | emergencyStop
  | noLauncher
  | otherPublisher
  | noMotionPermission
  | controller
  deriving DecidableEq, Repr

/-- The order they are shown, and looked at, in. -/
def shootBlockerOrder : List ShootBlocker :=
  [.notAllowed, .estopUnknown, .emergencyStop, .noLauncher, .otherPublisher, .noMotionPermission,
    .controller]

theorem mem_shootBlockerOrder (code : ShootBlocker) : code ∈ shootBlockerOrder := by
  cases code <;> simp [shootBlockerOrder]

/-- Why a request is refused. -/
inductive ShootRefusal where
  | blocked (code : ShootBlocker)
  | busy
  | invalid
  | noConfirm
  | notSpinning
  | interval
  | shooting
  | stale
  deriving DecidableEq

/-- Why the last session ended. -/
inductive ShootReason where
  | blocked (code : ShootBlocker)
  | stopped
  | timeout
  | timeLimit
  | disconnected
  | controller
  | invalid
  deriving DecidableEq

structure ShootConfig where
  deadmanSec : Dbl := .fin (1 / 2)
  maxSpinSec : Dbl := 30
  stopHoldSec : Dbl := .fin (3 / 10)
  statusTimeoutSec : Dbl := 1

/-- What a tick publishes: roller power, tilt target, shot counter. -/
structure ShootCommand where
  power : ℚ
  tilt : Option ℚ
  fireSeq : ℕ
  deriving DecidableEq

structure ShootSession where
  config : ShootConfig
  limits : Limits := defaultLimits
  others : List String := []
  subscribed : Bool := false
  arbiter : Option ArbiterStatus := none
  arbiterAt : Dbl := .ninf
  roller : Option (RollerStatus × ℚ) := none  -- with the time it was heard
  shot : Option (ShotStatus × ℚ) := none
  estopTopic : Bool := false
  estopKnown : Bool := false
  motion : Bool := false
  blocker : ShootBlocker → Option Detail := fun _ => none
  owner : Option Client := none
  power : ℚ := 0
  tilt : Option ℚ := none
  fireSeq : ℕ := 0
  heardAt : ℚ := 0
  startedAt : ℚ := 0
  countAtStart : ℤ := 0
  spinningSince : Option ℚ := none
  rollerConfirmedSince : Option ℚ := none
  restartGuard : Option (Client × ℚ) := none
  holdUntil : Dbl := .ninf
  lastFireAt : Option ℚ := none
  fireReadyAt : Option ℚ := none
  lastStop : Option (ShootReason × Option Client) := none
  session : ℕ := 0

namespace ShootSession

/-! ### What it reads -/

def active (s : ShootSession) : Bool := s.owner.isSome

/-- The arbiter reports the teacher's lesson permission for the launcher. -/
def allowed (s : ShootSession) : Bool := s.arbiter.any ArbiterStatus.labPermitted

/-- The blockers in display order. -/
def blockers (s : ShootSession) : List ShootBlocker :=
  shootBlockerOrder.filter fun c => (s.blocker c).isSome

/-- A status heard at `at_` is not silent yet. -/
def freshAt (s : ShootSession) (at_ now : ℚ) : Bool :=
  decide (Dbl.fin (now - at_) ≤ s.config.statusTimeoutSec)

/-- `_fresh(ROLLER)` -/
def rollerFresh (s : ShootSession) (now : ℚ) : Bool := s.roller.any fun st => s.freshAt st.2 now

/-- `_fresh(SHOT)` -/
def shotFresh (s : ShootSession) (now : ℚ) : Bool := s.shot.any fun st => s.freshAt st.2 now

/-- `_shooting` -/
def shooting (s : ShootSession) (now : ℚ) : Bool :=
  s.shotFresh now && s.shot.any fun st => decide (st.1.shooting = .bool true)

/-- Seconds until the intervals since the last shot have passed. -/
def nextFireIn (s : ShootSession) (now : ℚ) : ℚ :=
  max 0 (max (s.lastFireAt.elim 0 fun t => t + s.limits.fireIntervalSec - now)
    (s.fireReadyAt.elim 0 fun t => t - now))

/-- Seconds until the roller has run fast enough long enough; none when it is
not asked to. -/
def spinReadyIn (s : ShootSession) (now : ℚ) : Option ℚ :=
  match s.spinningSince, s.owner with
  | some spinning, some _ =>
    match s.rollerConfirmedSince with
    | none => some s.limits.spinUpSec
    | some confirmed => some (max 0 (max spinning confirmed + s.limits.spinUpSec - now))
  | _, _ => none

/-- What is commanded while the session runs. -/
def command (s : ShootSession) : ShootCommand := ⟨s.power, s.tilt, s.fireSeq⟩

/-- What a queued command belongs to. -/
def sessionToken (s : ShootSession) : Option (Client × ℕ) := s.owner.map fun c => (c, s.session)

/-! ### Ending a session -/

/-- `_end` -/
def end_ (s : ShootSession) (reason : ShootReason) (by_ : Option Client) (now : ℚ) :
    ShootSession :=
  { s with
    restartGuard :=
      s.owner.elim s.restartGuard fun c =>
        if by_ = some c then s.restartGuard else some (c, now + restartGuardSec)
    owner := none
    power := 0
    tilt := none
    spinningSince := none
    rollerConfirmedSince := none
    holdUntil := .fin now + s.config.stopHoldSec
    lastStop := some (reason, by_) }

/-- A blocker that appears or changes ends the session; a new one publishes 0
for a while even without a session. -/
def setBlocker (s : ShootSession) (code : ShootBlocker) (detail : Option Detail) (now : ℚ) :
    ShootSession :=
  let before := s.blocker code
  let s := { s with blocker := Function.update s.blocker code detail }
  if before = detail then s
  else if detail.isSome && s.active then s.end_ (.blocked code) none now
  else if detail.isSome && before.isNone then
    { s with holdUntil := Dbl.max s.holdUntil (.fin now + s.config.stopHoldSec) }
  else s

/-- The detail of a blocker that is about a list: none for an empty one. -/
def namedIf (names : List String) : Option Detail := if names = [] then none else some (.nodes names)

/-- What presses the emergency stop. -/
def estopParts (s : ShootSession) (now : ℚ) : List String :=
  (if s.estopTopic then ["topic"] else []) ++
    (if s.rollerFresh now && s.roller.any (fun st => decide (st.1.estop = .bool true)) then
      ["roller"] else []) ++
    (if s.shotFresh now && s.shot.any (fun st => decide (st.1.estop = .bool true)) then
      ["shot"] else [])

/-- The parts of the launcher that are missing: a shot node that is not active
counts outside an emergency stop. -/
def missingParts (s : ShootSession) (now : ℚ) : List String :=
  (if !s.subscribed || s.arbiter.isNone then ["arbiter"] else []) ++
    (if s.rollerFresh now then [] else ["roller"]) ++
    (if s.shotFresh now then [] else ["shot"]) ++
    (if s.estopParts now = [] && s.shotFresh now &&
        s.shot.any (fun st => decide (st.1.active = .bool false)) then ["shot"] else [])

/-- What the inputs say of a blocker. -/
def detail (s : ShootSession) (now : ℚ) : ShootBlocker → Option Detail
  | .notAllowed => DriveSession.presentIf (s.arbiter.isSome && !s.allowed)
  | .estopUnknown => DriveSession.presentIf !s.estopKnown
  | .emergencyStop => namedIf (s.estopParts now)
  | .noLauncher => namedIf (s.missingParts now)
  | .otherPublisher => namedIf s.others
  | .noMotionPermission => DriveSession.presentIf !s.motion
  | .controller => namedIf (if s.arbiter.any ArbiterStatus.labLocked then ["arbiter"] else [])

def updateBlockers (s : ShootSession) (now : ℚ) : ShootSession :=
  shootBlockerOrder.foldl (fun s' code => s'.setBlocker code (s.detail now code) now) s

def create (config : ShootConfig) : ShootSession := updateBlockers { config := config } 0

/-! ### Limits -/

/-- `_set_power` -/
def setPower (s : ShootSession) (power : ℚ) (now : ℚ) : ShootSession :=
  if s.limits.minFirePower ≤ power then
    { s with power := power, spinningSince := some (s.spinningSince.getD now) }
  else { s with power := power, spinningSince := none, rollerConfirmedSince := none }

/-- The limits now, and the power narrowed to them. -/
def updateLimits (s : ShootSession) : ShootSession :=
  let limits := limitsOf s.arbiter (s.shot.map Prod.fst)
  if limits = s.limits then s
  else
    let s := { s with limits := limits }
    if limits.maxPower < s.power then s.setPower limits.maxPower s.heardAt else s

/-! ### What the robot says -/

/-- The nodes are named without repetition and in order. -/
def setGraph (s : ShootSession) (otherPublishers : List String) (launcherSubscribed : Bool)
    (now : ℚ) : ShootSession :=
  updateBlockers
    { s with
      others := otherPublishers.dedup.insertionSort (· ≤ ·), subscribed := launcherSubscribed } now

def setEmergencyStop (s : ShootSession) (active : Bool) (now : ℚ) : ShootSession :=
  updateBlockers { s with estopTopic := active } now

def setEstopKnown (s : ShootSession) (known : Bool) (now : ℚ) : ShootSession :=
  updateBlockers { s with estopKnown := known } now

def setMotionPermission (s : ShootSession) (allowed : Bool) (now : ℚ) : ShootSession :=
  updateBlockers { s with motion := allowed } now

/-- No shot before a wait that was reported is over. -/
def awaitInterval (s : ShootSession) (wait : Option ℚ) (now : ℚ) : ShootSession :=
  match wait with
  | some wait =>
    if 0 < wait then
      { s with fireReadyAt := some (s.fireReadyAt.elim (now + wait) (max · (now + wait))) }
    else s
  | none => s

/-- What the arbiter's status says of the session: it refused it. -/
def followArbiter (s : ShootSession) (status : ArbiterStatus) (now : ℚ) : ShootSession :=
  if status.labCount ≤ s.countAtStart then s  -- nothing of this session has reached it yet
  else if status.labRefusal ∈ controllerRefusals then s.end_ .controller none now
  else s

/-- The status is kept, with the time and the wait it reports. -/
def keepStatus (s : ShootSession) (status : Option ArbiterStatus) (now : ℚ) : ShootSession :=
  match status with
  | none => { s with arbiter := none }
  | some status =>
    { s with arbiter := some status, arbiterAt := .fin now }.awaitInterval status.nextFireInSec now

def setArbiter (s : ShootSession) (status : Option ArbiterStatus) (now : ℚ) : ShootSession :=
  let s := ((s.keepStatus status now).updateLimits).updateBlockers now
  match status with
  | none => s
  | some status => if s.active then s.followArbiter status now else s

/-- The status shows the roller turning for the lab at `minFirePower`. -/
def showsTurning (roller : Option (RollerStatus × ℚ)) (minFirePower : ℚ) : Bool :=
  roller.any fun st =>
    decide (st.1.source = "lab") &&
      (number st.1.command).any fun command => decide (minFirePower ≤ command)

def turning (s : ShootSession) : Bool := showsTurning s.roller s.limits.minFirePower

/-- `_update_roller_confirmation` -/
def updateRollerConfirmation (s : ShootSession) (now : ℚ) : ShootSession :=
  if s.active && s.spinningSince.isSome && s.turning then
    { s with rollerConfirmedSince := some (s.rollerConfirmedSince.getD now) }
  else { s with rollerConfirmedSince := none }

/-- Anything but an object is ignored. -/
def setRollerStatus (s : ShootSession) (status : Option RollerStatus) (now : ℚ) : ShootSession :=
  match status with
  | none => s
  | some status =>
    ({ s with roller := some (status, now) }.updateRollerConfirmation now).updateBlockers now

def setShotStatus (s : ShootSession) (status : Option ShotStatus) (now : ℚ) : ShootSession :=
  match status with
  | none => s
  | some status =>
    let s := s.awaitInterval (number status.nextFireInSec) now
    ({ s with shot := some (status, now) }.updateLimits).updateBlockers now

/-! ### Requests -/

/-- The restart guard holds the client off. -/
def guarded (s : ShootSession) (client : Client) (now : ℚ) : Bool :=
  s.restartGuard.any fun (previous, until_) => decide (client = previous) && decide (now < until_)

/-- Why `client` may not operate the launcher now: the checks every request
begins with. -/
def admit_ (s : ShootSession) (client : Client) (now : ℚ) : Option ShootRefusal :=
  if s.guarded client now then some .stale
  else
    match s.blockers with
    | code :: _ => some (.blocked code)
    | [] => if s.owner.isSome ∧ s.owner ≠ some client then some .busy else none

/-- `_begin` -/
def begin_ (s : ShootSession) (client : Client) (now : ℚ) : ShootSession :=
  let s :=
    if s.owner = none then
      { s with
        owner := some client
        session := s.session + 1
        startedAt := now
        countAtStart := (s.arbiter.map ArbiterStatus.labCount).getD 0
        lastStop := none }
    else s
  { s with heardAt := now }

/-- A number that is none ends the owner's session. -/
def refuseNumber (s : ShootSession) (client : Client) (now : ℚ) : ShootSession :=
  if s.owner = some client then s.end_ .invalid (some client) now else s

def rollerTo (s : ShootSession) (client : Client) (power : Value) (now : ℚ) :
    ShootSession × Option ShootRefusal :=
  match s.admit_ client now with
  | some refused => (s, some refused)
  | none =>
    match number power with
    | none => (s.refuseNumber client now, some .invalid)
    | some power =>
      ((s.begin_ client now).setPower (max 0 (min s.limits.maxPower power)) now, none)

/-- The answer goes with the degrees to send. -/
def tiltTo (s : ShootSession) (client : Client) (deg : Value) (now : ℚ) :
    ShootSession × Option ShootRefusal × Option ℚ :=
  match s.admit_ client now with
  | some refused => (s, some refused, none)
  | none =>
    match number deg with
    | none => (s.refuseNumber client now, some .invalid, none)
    | some deg =>
      if s.shooting now then (s, some .shooting, none)
      else (s.begin_ client now, none, some (max s.limits.tiltMin (min s.limits.tiltMax deg)))

def setTilt (s : ShootSession) (deg : ℚ) : ShootSession := { s with tilt := some deg }

def fire (s : ShootSession) (client : Client) (confirm : Bool) (now : ℚ) :
    ShootSession × Option ShootRefusal :=
  match s.admit_ client now with
  | some refused => (s, some refused)
  | none =>
    if !confirm then (s, some .noConfirm)
    else if s.owner ≠ some client ∨ (s.spinReadyIn now).all (fun wait => decide (0 < wait)) then
      (s, some .notSpinning)
    else if s.shooting now then (s, some .shooting)
    else if 0 < s.nextFireIn now then (s, some .interval)
    else ({ s with heardAt := now, lastFireAt := some now, fireSeq := s.fireSeq + 1 }, none)

/-- `roller_stop`: any page ends the session. -/
def stop (s : ShootSession) (client : Client) (now : ℚ) : ShootSession × Bool :=
  if s.active then (s.end_ .stopped (some client) now, true) else (s, false)

def disconnect (s : ShootSession) (client : Client) (now : ℚ) : ShootSession × Bool :=
  if s.owner = some client then (s.end_ .disconnected (some client) now, true) else (s, false)

/-! ### Time -/

/-- The arbiter's status is forgotten when it is too old. -/
def forgetArbiter (s : ShootSession) (arbiterTimeoutSec : Option Dbl) (now : ℚ) : ShootSession :=
  match arbiterTimeoutSec with
  | some timeout =>
    if s.arbiter.isSome && decide (timeout < .fin now - s.arbiterAt) then s.setArbiter none now
    else s
  | none => s

/-- A silent or overlong session ends. -/
def expire (s : ShootSession) (now : ℚ) : ShootSession :=
  if s.active && decide (s.config.deadmanSec < .fin (now - s.heardAt)) then
    s.end_ .timeout none now
  else if s.active && decide (s.config.maxSpinSec < .fin (now - s.startedAt)) then
    s.end_ .timeLimit none now
  else s

/-- The command of the session, or zero while a stop is held. -/
def published (s : ShootSession) (now : ℚ) : Option ShootCommand :=
  if s.active then some s.command
  else if .fin now < s.holdUntil then some ⟨0, none, s.fireSeq⟩
  else none

/-- The command to publish now. -/
def tick (s : ShootSession) (arbiterTimeoutSec : Option Dbl) (now : ℚ) :
    ShootSession × Option ShootCommand :=
  let s := ((s.forgetArbiter arbiterTimeoutSec now).updateBlockers now).expire now
  (s, s.published now)

end ShootSession

/-! ## The tilt targets -/

/-- `TiltCoalescer` -/
structure TiltCoalescer where
  gapSec : ℚ := 3 / 50
  pending : Option (ℚ × Client × ℕ) := none
  sentAt : Dbl := .ninf

namespace TiltCoalescer

/-- The target to send now; one that comes too soon is kept. -/
def request (c : TiltCoalescer) (deg : ℚ) (token : Option (Client × ℕ)) (now : ℚ) :
    TiltCoalescer × Option ℚ :=
  match token with
  | none => ({ c with pending := none }, none)
  | some token =>
    if .fin now - c.sentAt < .fin c.gapSec then ({ c with pending := some (deg, token) }, none)
    else ({ c with pending := none, sentAt := .fin now }, some deg)

/-- The kept target to send now: only in the session it was asked for in, with
nothing blocking. -/
def due (c : TiltCoalescer) (token : Option (Client × ℕ)) (blocked : Bool) (now : ℚ) :
    TiltCoalescer × Option ℚ :=
  match c.pending with
  | none => (c, none)
  | some (deg, pendingToken) =>
    if .fin now - c.sentAt < .fin c.gapSec then (c, none)
    else if token ≠ some pendingToken ∨ blocked then ({ c with pending := none }, none)
    else ({ c with pending := none, sentAt := .fin now }, some deg)

def drop (c : TiltCoalescer) : TiltCoalescer := { c with pending := none }

end TiltCoalescer

/-! ## The bridge's launcher -/

/-- The session and the tilt targets, which the bridge holds under one lock. -/
structure Launcher where
  session : ShootSession
  tilts : TiltCoalescer := {}

inductive LauncherInput where
  | setGraph (otherPublishers : List String) (launcherSubscribed : Bool)
  | setEmergencyStop (active : Bool)
  | setEstopKnown (known : Bool)
  | setMotionPermission (allowed : Bool)
  | setArbiter (status : Option ArbiterStatus)
  | rollerStatus (status : Option RollerStatus)
  | shotStatus (status : Option ShotStatus)
  | roller (client : Client) (power : Value)
  | tilt (client : Client) (deg : Value)
  | fire (client : Client) (confirm : Bool)
  | rollerStop (client : Client)
  | disconnect (client : Client)
  | tick (arbiterTimeoutSec : Option Dbl)
  deriving DecidableEq

/-- A call of the bridge, with the time it is made at. -/
structure LauncherCall where
  now : ℚ
  input : LauncherInput

/-- What a call returns; a tick also publishes, with a kept tilt target that
has become due. -/
inductive LauncherAnswer where
  | nothing
  | asked (refused : Option ShootRefusal)
  | stopped (ended : Bool)
  | ticked (returned published : Option ShootCommand)
  deriving DecidableEq

namespace Launcher

def create (config : ShootConfig) : Launcher where
  session := ShootSession.create config

/-- The kept target of a session that is over is forgotten. -/
def dropIfIdle (l : Launcher) : Launcher :=
  if l.session.active then l else { l with tilts := l.tilts.drop }

/-- What an update of the inputs does to the launcher (`_after_shoot_change`). -/
def update (l : Launcher) (session : ShootSession) : Launcher :=
  let wasActive := l.session.active
  let l := { l with session := session }
  if wasActive then l.dropIfIdle else l

/-- `_send_tilt` -/
def sendTilt (l : Launcher) (deg : ℚ) (now : ℚ) : Launcher :=
  match l.tilts.request deg l.session.sessionToken now with
  | (tilts, some deg) => { session := l.session.setTilt deg, tilts := tilts }
  | (tilts, none) => { l with tilts := tilts }

/-- The kept tilt target, once it is due. -/
def sendDue (l : Launcher) (now : ℚ) : Launcher × Option ℚ :=
  match l.tilts.due l.session.sessionToken (decide (l.session.blockers ≠ [])) now with
  | (tilts, some deg) => ({ session := l.session.setTilt deg, tilts := tilts }, some deg)
  | (tilts, none) => ({ l with tilts := tilts }, none)

/-- `_on_shoot_tick` -/
def onTick (l : Launcher) (arbiterTimeoutSec : Option Dbl) (now : ℚ) : Launcher × LauncherAnswer :=
  let (session, command) := l.session.tick arbiterTimeoutSec now
  match (l.update session).sendDue now with
  | (l, none) => (l, .ticked command command)
  | (l, some _) => (l, .ticked command (some l.session.command))

def step (l : Launcher) (e : LauncherCall) : Launcher × LauncherAnswer :=
  match e.input with
  | .setGraph others subscribed => (l.update (l.session.setGraph others subscribed e.now), .nothing)
  | .setEmergencyStop active => (l.update (l.session.setEmergencyStop active e.now), .nothing)
  | .setEstopKnown known => (l.update (l.session.setEstopKnown known e.now), .nothing)
  | .setMotionPermission allowed =>
    (l.update (l.session.setMotionPermission allowed e.now), .nothing)
  | .setArbiter status => (l.update (l.session.setArbiter status e.now), .nothing)
  | .rollerStatus status => (l.update (l.session.setRollerStatus status e.now), .nothing)
  | .shotStatus status => (l.update (l.session.setShotStatus status e.now), .nothing)
  | .roller client power =>
    let (session, refused) := l.session.rollerTo client power e.now
    ({ l with session := session }.dropIfIdle, .asked refused)
  | .tilt client deg =>
    match l.session.tiltTo client deg e.now with
    | (session, refused, some deg) =>
      (({ l with session := session }.sendTilt deg e.now).dropIfIdle, .asked refused)
    | (session, refused, none) => ({ l with session := session }.dropIfIdle, .asked refused)
  | .fire client confirm =>
    let (session, refused) := l.session.fire client confirm e.now
    ({ l with session := session }.dropIfIdle, .asked refused)
  | .rollerStop client =>
    let (session, ended) := l.session.stop client e.now
    ({ l with session := session }.dropIfIdle, .stopped ended)
  | .disconnect client =>
    let (session, ended) := l.session.disconnect client e.now
    let l := { l with session := session }
    (if ended then { l with tilts := l.tilts.drop } else l, .nothing)
  | .tick arbiterTimeoutSec => l.onTick arbiterTimeoutSec e.now

end Launcher

end Questix.LabBridge
