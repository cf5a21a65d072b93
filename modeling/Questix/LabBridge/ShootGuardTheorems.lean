/-
Questix.LabBridge.ShootGuardTheorems — the restart guard of the launcher
session, over runs of the session's own calls.

A session that something else than its client ends leaves the client in
`restartGuard`, and the client's requests are stale for a second. There is one
place for all clients: the end of another client's session takes it. So the
guard holds a client off exactly in the runs where nothing takes its place.
-/
import Questix.LabBridge.ShootTheorems

namespace Questix.LabBridge

open Questix.Lib

/-! ## The calls of a session -/

/-- What the bridge calls a session for: its inputs and requests, and a tilt
target that goes out. -/
inductive SessionInput where
  | bridge (input : LauncherInput)
  | setTilt (deg : ℚ)
  deriving DecidableEq

structure SessionCall where
  now : ℚ
  input : SessionInput

namespace ShootSession

def step (s : ShootSession) (e : SessionCall) : ShootSession × LauncherAnswer :=
  match e.input with
  | .bridge (.setGraph others subscribed) => (s.setGraph others subscribed e.now, .nothing)
  | .bridge (.setEmergencyStop active) => (s.setEmergencyStop active e.now, .nothing)
  | .bridge (.setEstopKnown known) => (s.setEstopKnown known e.now, .nothing)
  | .bridge (.setMotionPermission allowed) => (s.setMotionPermission allowed e.now, .nothing)
  | .bridge (.setArbiter status) => (s.setArbiter status e.now, .nothing)
  | .bridge (.rollerStatus status) => (s.setRollerStatus status e.now, .nothing)
  | .bridge (.shotStatus status) => (s.setShotStatus status e.now, .nothing)
  | .bridge (.roller client power) =>
    let (s, refused) := s.rollerTo client power e.now
    (s, .asked refused)
  | .bridge (.tilt client deg) =>
    let (s, refused, _) := s.tiltTo client deg e.now
    (s, .asked refused)
  | .bridge (.fire client confirm) =>
    let (s, refused) := s.fire client confirm e.now
    (s, .asked refused)
  | .bridge (.rollerStop client) =>
    let (s, ended) := s.stop client e.now
    (s, .stopped ended)
  | .bridge (.disconnect client) =>
    let (s, ended) := s.disconnect client e.now
    (s, .stopped ended)
  | .bridge (.tick arbiterTimeoutSec) =>
    let (s, command) := s.tick arbiterTimeoutSec e.now
    (s, .ticked command command)
  | .setTilt deg => (s.setTilt deg, .nothing)

/-- Whose call it is. -/
def caller : SessionInput → Option Client
  | .bridge (.roller client _) => some client
  | .bridge (.tilt client _) => some client
  | .bridge (.fire client _) => some client
  | .bridge (.rollerStop client) => some client
  | .bridge (.disconnect client) => some client
  | _ => none

variable {s s' s'' : ShootSession} {client : Client} {now : ℚ}

/-! ## What a call does to the owner and the guard -/

/-- The owner goes on, or is cut off and held off. -/
inductive CutsOff (now : ℚ) (s s' : ShootSession) : Prop
  | keeps (owner : s'.owner = s.owner) (guard : s'.restartGuard = s.restartGuard)
  | cuts (client : Client) (was : s.owner = some client) (owner : s'.owner = none)
    (guard : s'.restartGuard = some (client, now + restartGuardSec))

theorem CutsOff.refl (now : ℚ) (s : ShootSession) : CutsOff now s s := .keeps rfl rfl

theorem CutsOff.trans (h : CutsOff now s s') (h' : CutsOff now s' s'') : CutsOff now s s'' := by
  cases h with
  | keeps howner hguard =>
    cases h' with
    | keeps howner' hguard' => exact .keeps (howner'.trans howner) (hguard'.trans hguard)
    | cuts client hwas howner' hguard' => exact .cuts client (howner ▸ hwas) howner' hguard'
  | cuts client hwas howner hguard =>
    cases h' with
    | keeps howner' hguard' =>
      exact .cuts client hwas (howner'.trans howner) (hguard'.trans hguard)
    | cuts client' hwas' _ _ =>
      rw [howner] at hwas'
      cases hwas'

theorem cutsOff_end (reason : ShootReason) : CutsOff now s (s.end_ reason none now) := by
  cases howner : s.owner with
  | none => exact .keeps howner.symm (by simp [end_, howner])
  | some client => exact .cuts client howner rfl (by simp [end_, howner])

theorem cutsOff_setBlocker (code : ShootBlocker) (detail : Option Detail) :
    CutsOff now s (s.setBlocker code detail now) := by
  have hblocker : CutsOff now s { s with blocker := Function.update s.blocker code detail } :=
    .keeps rfl rfl
  unfold setBlocker
  dsimp only
  split
  · exact hblocker
  · split
    · exact hblocker.trans (cutsOff_end _)
    · split
      · exact .keeps rfl rfl
      · exact hblocker

theorem cutsOff_updateBlockers : CutsOff now s (s.updateBlockers now) := by
  have hfoldl : ∀ (codes : List ShootBlocker) (s₀ : ShootSession), CutsOff now s₀
      (codes.foldl (fun s' code => s'.setBlocker code (s.detail now code) now) s₀) := by
    intro codes
    induction codes with
    | nil => exact .refl now
    | cons code codes ih => exact fun s₀ => (cutsOff_setBlocker code _).trans (ih _)
  exact hfoldl _ s

theorem cutsOff_update (howner : s'.owner = s.owner) (hguard : s'.restartGuard = s.restartGuard) :
    CutsOff now s (s'.updateBlockers now) :=
  (CutsOff.keeps howner hguard).trans cutsOff_updateBlockers

theorem cutsOff_updateLimits : CutsOff now s s.updateLimits := by
  unfold updateLimits setPower
  dsimp only
  split
  · exact .refl now s
  · split
    · split <;> exact .keeps rfl rfl
    · exact .keeps rfl rfl

theorem cutsOff_awaitInterval (wait : Option ℚ) : CutsOff now s (s.awaitInterval wait now) := by
  unfold awaitInterval
  split
  · split
    · exact .keeps rfl rfl
    · exact .refl now s
  · exact .refl now s

theorem cutsOff_keepStatus (status : Option ArbiterStatus) :
    CutsOff now s (s.keepStatus status now) := by
  cases status with
  | none => exact .keeps rfl rfl
  | some status =>
    have hheard : CutsOff now s { s with arbiter := some status, arbiterAt := .fin now } :=
      .keeps rfl rfl
    exact hheard.trans (cutsOff_awaitInterval _)

theorem cutsOff_setArbiter (status : Option ArbiterStatus) :
    CutsOff now s (s.setArbiter status now) := by
  have hkept : CutsOff now s (((s.keepStatus status now).updateLimits).updateBlockers now) :=
    ((cutsOff_keepStatus status).trans cutsOff_updateLimits).trans cutsOff_updateBlockers
  cases status with
  | none => exact hkept
  | some status =>
    unfold setArbiter
    dsimp only
    split
    · unfold followArbiter
      split
      · exact hkept
      · split
        · exact hkept.trans (cutsOff_end _)
        · exact hkept
    · exact hkept

theorem cutsOff_setRollerStatus (status : Option RollerStatus) :
    CutsOff now s (s.setRollerStatus status now) := by
  cases status with
  | none => exact .refl now s
  | some status =>
    refine cutsOff_update ?_ ?_ <;> unfold updateRollerConfirmation <;> split <;> rfl

theorem cutsOff_setShotStatus (status : Option ShotStatus) :
    CutsOff now s (s.setShotStatus status now) := by
  cases status with
  | none => exact .refl now s
  | some status =>
    have hwaits : CutsOff now s (s.awaitInterval (number status.nextFireInSec) now) :=
      cutsOff_awaitInterval _
    have hkept : CutsOff now s { s.awaitInterval (number status.nextFireInSec) now with
        shot := some (status, now) } := hwaits.trans (.keeps rfl rfl)
    exact (hkept.trans cutsOff_updateLimits).trans cutsOff_updateBlockers

theorem cutsOff_expire : CutsOff now s (s.expire now) := by
  unfold expire
  split
  · exact cutsOff_end _
  · split
    · exact cutsOff_end _
    · exact .refl now s

theorem cutsOff_tick (arbiterTimeoutSec : Option Dbl) :
    CutsOff now s (s.tick arbiterTimeoutSec now).1 := by
  have hforgets : CutsOff now s (s.forgetArbiter arbiterTimeoutSec now) := by
    unfold forgetArbiter
    split
    · split
      · exact cutsOff_setArbiter none
      · exact .refl now s
    · exact .refl now s
  exact (hforgets.trans cutsOff_updateBlockers).trans cutsOff_expire

/-! ## What a step does to them -/

/-- What a call of `caller` does: it leaves the owner and the guard, ends the
session of another client or of nobody's asking, ends the caller's own, or
begins one for the caller. -/
inductive Turn (caller : Option Client) (now : ℚ) (s s' : ShootSession) : Prop
  | keeps (owner : s'.owner = s.owner) (guard : s'.restartGuard = s.restartGuard)
  | cuts (client : Client) (was : s.owner = some client) (other : caller ≠ some client)
    (owner : s'.owner = none) (guard : s'.restartGuard = some (client, now + restartGuardSec))
  | leaves (client : Client) (was : s.owner = some client) (own : caller = some client)
    (owner : s'.owner = none) (guard : s'.restartGuard = s.restartGuard)
  | begins (client : Client) (own : caller = some client) (free : s.owner = none)
    (owner : s'.owner = some client) (guard : s'.restartGuard = s.restartGuard)

theorem CutsOff.turn (h : CutsOff now s s') : Turn none now s s' := by
  cases h with
  | keeps howner hguard => exact .keeps howner hguard
  | cuts client hwas howner hguard => exact .cuts client hwas nofun howner hguard

theorem turn_refuseNumber : Turn (some client) now s (s.refuseNumber client now) := by
  unfold refuseNumber
  split
  · rename_i howner
    exact .leaves client howner rfl rfl (by simp [end_, howner])
  · exact .keeps rfl rfl

theorem admit_eq_none_iff : s.admit_ client now = none ↔
    s.guarded client now = false ∧ s.blockers = [] ∧ (s.owner = none ∨ s.owner = some client) := by
  unfold admit_
  cases hguarded : s.guarded client now with
  | true => simp
  | false =>
    cases s.blockers with
    | cons code rest => simp
    | nil => cases s.owner <;> simp

theorem begin_guard (s : ShootSession) (client : Client) (now : ℚ) :
    (s.begin_ client now).restartGuard = s.restartGuard := by
  unfold begin_
  dsimp only
  split <;> rfl

theorem turn_begin (hadmitted : s.admit_ client now = none)
    (howner : s'.owner = (s.begin_ client now).owner)
    (hguard : s'.restartGuard = (s.begin_ client now).restartGuard) :
    Turn (some client) now s s' := by
  obtain ⟨-, -, hfree⟩ := admit_eq_none_iff.1 hadmitted
  have howner' : s'.owner = some client := howner.trans (begin_owner now hfree)
  have hguard' : s'.restartGuard = s.restartGuard := hguard.trans (begin_guard s client now)
  rcases hfree with hfree | hown
  · exact .begins client rfl hfree howner' hguard'
  · exact .keeps (howner'.trans hown.symm) hguard'

theorem setPower_guard (s : ShootSession) (power now : ℚ) :
    (s.setPower power now).owner = s.owner ∧
    (s.setPower power now).restartGuard = s.restartGuard := by
  unfold setPower
  split <;> exact ⟨rfl, rfl⟩

theorem turn_rollerTo (power : Value) :
    Turn (some client) now s (s.rollerTo client power now).1 := by
  unfold rollerTo
  cases hadmitted : s.admit_ client now with
  | some refused => exact .keeps rfl rfl
  | none =>
    cases number power with
    | none => exact turn_refuseNumber
    | some power =>
      exact turn_begin hadmitted (setPower_guard _ _ _).1 (setPower_guard _ _ _).2

theorem turn_tiltTo (deg : Value) : Turn (some client) now s (s.tiltTo client deg now).1 := by
  unfold tiltTo
  cases hadmitted : s.admit_ client now with
  | some refused => exact .keeps rfl rfl
  | none =>
    cases number deg with
    | none => exact turn_refuseNumber
    | some deg =>
      dsimp only
      split
      · exact .keeps rfl rfl
      · exact turn_begin hadmitted rfl rfl

theorem fire_guard (s : ShootSession) (client : Client) (confirm : Bool) (now : ℚ) :
    (s.fire client confirm now).1.owner = s.owner ∧
    (s.fire client confirm now).1.restartGuard = s.restartGuard := by
  unfold fire
  split
  · exact ⟨rfl, rfl⟩
  · split
    · exact ⟨rfl, rfl⟩
    · split
      · exact ⟨rfl, rfl⟩
      · split
        · exact ⟨rfl, rfl⟩
        · split <;> exact ⟨rfl, rfl⟩

theorem turn_stop : Turn (some client) now s (s.stop client now).1 := by
  unfold stop active
  cases howner : s.owner with
  | none => exact .keeps rfl rfl
  | some owner =>
    by_cases hown : client = owner
    · subst hown
      exact .leaves client howner rfl rfl (by simp [end_, howner])
    · exact .cuts owner howner (by simpa using hown) rfl (by simp [end_, howner, hown])

theorem turn_disconnect : Turn (some client) now s (s.disconnect client now).1 := by
  unfold disconnect
  split
  · rename_i howner
    exact .leaves client howner rfl rfl (by simp [end_, howner])
  · exact .keeps rfl rfl

theorem turn_step (s : ShootSession) (e : SessionCall) :
    Turn (caller e.input) e.now s (step s e).1 := by
  obtain ⟨now, input⟩ := e
  cases input with
  | setTilt deg => exact .keeps rfl rfl
  | bridge input =>
    cases input with
    | setGraph others subscribed =>
      have hcuts : CutsOff now s (s.setGraph others subscribed now) := cutsOff_update rfl rfl
      exact hcuts.turn
    | setEmergencyStop active =>
      have hcuts : CutsOff now s (s.setEmergencyStop active now) := cutsOff_update rfl rfl
      exact hcuts.turn
    | setEstopKnown known =>
      have hcuts : CutsOff now s (s.setEstopKnown known now) := cutsOff_update rfl rfl
      exact hcuts.turn
    | setMotionPermission allowed =>
      have hcuts : CutsOff now s (s.setMotionPermission allowed now) := cutsOff_update rfl rfl
      exact hcuts.turn
    | setArbiter status => exact (cutsOff_setArbiter status).turn
    | rollerStatus status => exact (cutsOff_setRollerStatus status).turn
    | shotStatus status => exact (cutsOff_setShotStatus status).turn
    | roller client power => exact turn_rollerTo power
    | tilt client deg => exact turn_tiltTo deg
    | fire client confirm => exact .keeps (fire_guard _ _ _ _).1 (fire_guard _ _ _ _).2
    | rollerStop client => exact turn_stop
    | disconnect client => exact turn_disconnect
    | tick arbiterTimeoutSec => exact (cutsOff_tick arbiterTimeoutSec).turn

/-! ## Ends and starts -/

abbrev SessionStep := Step ShootSession SessionCall LauncherAnswer

/-- The client's session ends, and not by a call of its own: by a blocker, the
dead-man, the time limit, the arbiter or another page's stop. -/
def EndedByOther (t : SessionStep) (client : Client) : Prop :=
  t.pre.owner = some client ∧ t.post.owner = none ∧ caller t.event.input ≠ some client

instance (t : SessionStep) (client : Client) : Decidable (EndedByOther t client) :=
  inferInstanceAs (Decidable (_ ∧ _))

/-- A session of the client starts. -/
def Starts (t : SessionStep) (client : Client) : Prop :=
  t.pre.owner ≠ some client ∧ t.post.owner = some client

instance (t : SessionStep) (client : Client) : Decidable (Starts t client) :=
  inferInstanceAs (Decidable (_ ∧ _))

/-- A roller or tilt request of the client that can be met. -/
def Request (s : ShootSession) (client : Client) (now : ℚ) : SessionInput → Prop
  | .bridge (.roller c power) => c = client ∧ (number power).isSome
  | .bridge (.tilt c deg) => c = client ∧ (number deg).isSome ∧ s.shooting now = false
  | _ => False

/-- The client asks for a session that nothing but the guard keeps from it. -/
def Asks (t : SessionStep) (client : Client) : Prop :=
  t.pre.owner = none ∧ t.pre.blockers = [] ∧
    Request t.pre client t.event.now t.event.input

variable {t : SessionStep} {e : SessionCall}

theorem rollerTo_starts {power : Value} (hfree : s.owner = none) :
    (s.rollerTo client power now).1.owner = some client ↔
      s.admit_ client now = none ∧ (number power).isSome := by
  unfold rollerTo
  cases hadmitted : s.admit_ client now with
  | some refused => simp [hfree]
  | none =>
    cases number power with
    | none => simp [refuseNumber, hfree]
    | some power => simp [(setPower_guard _ _ _).1, begin_owner now (.inl hfree)]

theorem tiltTo_starts {deg : Value} (hfree : s.owner = none) :
    (s.tiltTo client deg now).1.owner = some client ↔
      s.admit_ client now = none ∧ (number deg).isSome ∧ s.shooting now = false := by
  unfold tiltTo
  cases hadmitted : s.admit_ client now with
  | some refused => simp [hfree]
  | none =>
    cases number deg with
    | none => simp [refuseNumber, hfree]
    | some deg =>
      cases hshooting : s.shooting now with
      | true => simp [hfree]
      | false => simp [begin_owner now (.inl hfree)]

/-- A session starts exactly where one is asked for and the guard lets the
client through. -/
theorem starts_iff : Starts (stepOf step s e) client ↔
    Asks (stepOf step s e) client ∧ s.guarded client e.now = false := by
  have hadmits : s.owner = none → (s.admit_ client e.now = none ↔
      s.guarded client e.now = false ∧ s.blockers = []) := by
    intro hfree
    simp [admit_eq_none_iff, hfree]
  constructor
  · intro hstarts
    obtain ⟨hpre, hpost⟩ : s.owner ≠ some client ∧ (step s e).1.owner = some client := hstarts
    have hbegins : s.owner = none ∧ caller e.input = some client := by
      cases turn_step s e with
      | keeps howner _ => exact absurd (howner.symm.trans hpost) hpre
      | cuts _ _ _ howner _ => cases howner.symm.trans hpost
      | leaves _ _ _ howner _ => cases howner.symm.trans hpost
      | begins c hown hfree howner _ =>
        cases howner.symm.trans hpost
        exact ⟨hfree, hown⟩
    obtain ⟨hfree, hcaller⟩ := hbegins
    obtain ⟨now, input⟩ := e
    cases input with
    | setTilt deg => cases hcaller
    | bridge input =>
      cases input with
      | roller c power =>
        cases hcaller
        obtain ⟨hadmitted, hnumber⟩ := (rollerTo_starts hfree).1 hpost
        obtain ⟨hguarded, hblockers⟩ := (hadmits hfree).1 hadmitted
        exact ⟨⟨hfree, hblockers, rfl, hnumber⟩, hguarded⟩
      | tilt c deg =>
        cases hcaller
        obtain ⟨hadmitted, hnumber⟩ := (tiltTo_starts hfree).1 hpost
        obtain ⟨hguarded, hblockers⟩ := (hadmits hfree).1 hadmitted
        exact ⟨⟨hfree, hblockers, rfl, hnumber⟩, hguarded⟩
      | fire c confirm => cases hfree.symm.trans ((fire_guard s c confirm now).1.symm.trans hpost)
      | rollerStop c =>
        have hstop : (s.stop c now).1.owner = some client := hpost
        simp [stop, active, hfree] at hstop
      | disconnect c =>
        have hdisconnect : (s.disconnect c now).1.owner = some client := hpost
        simp [disconnect, hfree] at hdisconnect
      | _ => cases hcaller
  · rintro ⟨⟨hfree, hblockers, hrequest⟩, hguarded⟩
    have hfree : s.owner = none := hfree
    have hadmitted := (hadmits hfree).2 ⟨hguarded, hblockers⟩
    refine ⟨fun howner => Option.some_ne_none client (howner.symm.trans hfree), ?_⟩
    obtain ⟨now, input⟩ := e
    cases input with
    | setTilt deg => cases hrequest
    | bridge input =>
      cases input with
      | roller c power =>
        obtain ⟨rfl, hnumber⟩ := hrequest
        exact (rollerTo_starts hfree).2 ⟨hadmitted, hnumber⟩
      | tilt c deg =>
        obtain ⟨rfl, hnumber⟩ := hrequest
        exact (tiltTo_starts hfree).2 ⟨hadmitted, hnumber⟩
      | _ => cases hrequest

/-! ## Runs -/

/-- The guard holds the client of the last session that something else ended. -/
def Remembers (past : List SessionStep) (s : ShootSession) : Prop :=
  ∀ x t y client, past = x ++ t :: y → EndedByOther t client →
    (∀ w ∈ y, ∀ other, ¬ EndedByOther w other) →
    s.restartGuard = some (client, t.event.now + restartGuardSec)

theorem guard_of_ended (h : EndedByOther (stepOf step s e) client) :
    (step s e).1.restartGuard = some (client, e.now + restartGuardSec) := by
  obtain ⟨hpre, hpost, hcaller⟩ := h
  have hpre : s.owner = some client := hpre
  have hpost : (step s e).1.owner = none := hpost
  cases turn_step s e with
  | keeps howner _ => cases hpre.symm.trans (howner.symm.trans hpost)
  | cuts c hwas _ _ hguard =>
    cases hpre.symm.trans hwas
    exact hguard
  | leaves c hwas hown _ _ =>
    cases hpre.symm.trans hwas
    exact absurd hown hcaller
  | begins c _ hfree _ _ => cases hpre.symm.trans hfree

theorem guard_of_not_ended (h : ∀ other, ¬ EndedByOther (stepOf step s e) other) :
    (step s e).1.restartGuard = s.restartGuard := by
  cases turn_step s e with
  | keeps _ hguard => exact hguard
  | cuts c hwas hother howner _ => exact absurd ⟨hwas, howner, hother⟩ (h c)
  | leaves _ _ _ _ hguard => exact hguard
  | begins _ _ _ _ hguard => exact hguard

theorem remembers_step {past : List SessionStep} (h : Remembers past s) :
    Remembers (past ++ [stepOf step s e]) (step s e).1 := by
  intro x t y client hsplit hended hquiet
  rcases snoc_eq_append_cons hsplit with ⟨-, -, rfl⟩ | ⟨y', rfl, rfl⟩
  · exact guard_of_ended hended
  · rw [guard_of_not_ended (hquiet _ (by simp))]
    exact h x t y' client rfl hended fun w hw => hquiet w (by simp [hw])

theorem remembers_trace (config : ShootConfig) (es : List SessionCall) :
    Remembers (trace step (create config) es) (final step (create config) es) := by
  have hstart : Remembers [] (create config) := by
    intro x t y client hsplit
    simp at hsplit
  exact trace_history (fun _ _ => True) hstart (fun _ _ _ h _ => remembers_step h) es
    fun _ _ _ _ => trivial

theorem guarded_of_guard {until_ : ℚ} (h : s.restartGuard = some (client, until_))
    (other : Client) (now : ℚ) :
    s.guarded other now = (decide (other = client) && decide (now < until_)) := by
  simp [guarded, h]

/-- No request of a client within the second after something else has ended its
session starts a new one. -/
def RestartGuarded (run : List SessionStep) : Prop :=
  ∀ x t y r z client, run = x ++ t :: (y ++ r :: z) → EndedByOther t client →
    r.event.now < t.event.now + restartGuardSec → ¬ Starts r client

/-- Between the last such end of a client's session and a request the guard
alone is to refuse, no session of another client is ended so. -/
def GuardUndisturbed (run : List SessionStep) : Prop :=
  ∀ x t y r z client, run = x ++ t :: (y ++ r :: z) → EndedByOther t client →
    (∀ w ∈ y, ¬ EndedByOther w client) → r.event.now < t.event.now + restartGuardSec →
    Asks r client → ∀ w ∈ y, ∀ other, ¬ EndedByOther w other

theorem remembers_split {config : ShootConfig} {es : List SessionCall}
    {a b : List SessionStep} {r : SessionStep}
    (h : trace step (create config) es = a ++ r :: b) :
    Remembers a r.pre ∧ r = stepOf step r.pre r.event := by
  obtain ⟨es₁, e, es₂, -, rfl, rfl, -⟩ := trace_split h
  exact ⟨remembers_trace config es₁, rfl⟩

theorem restart_guarded_iff (config : ShootConfig) (es : List SessionCall)
    (h : Chronological SessionCall.now es) :
    RestartGuarded (trace step (create config) es) ↔
      GuardUndisturbed (trace step (create config) es) := by
  constructor
  · intro hguarded x t y r z client hrun hended hlast htime hasks w hw other hother
    -- the last end in between is another client's, and the guard is that client's
    obtain ⟨y₁, u, y₂, rfl, ⟨c, hu⟩, hquiet⟩ :=
      exists_last (p := fun u => ∃ c, EndedByOther u c) ⟨w, hw, other, hother⟩
    have hc : c ≠ client := by
      intro hc
      subst hc
      exact hlast u (by simp) hu
    obtain ⟨hremembers, hr⟩ := remembers_split (a := x ++ t :: (y₁ ++ u :: y₂)) (by simpa using hrun)
    have hguard := hremembers (x ++ t :: y₁) u y₂ c (by simp) hu
      fun v hv o ho => hquiet v hv ⟨o, ho⟩
    refine hguarded x t _ r z client hrun hended htime ?_
    rw [hr] at hasks ⊢
    refine starts_iff.2 ⟨hasks, ?_⟩
    simp [guarded_of_guard hguard, Ne.symm hc]
  · intro hundisturbed x t y r z client hrun hended htime hstarts
    -- the last end of the client's session is not before `t`, and the guard is of it
    obtain ⟨x', u, y', hsplit, hu, hlast⟩ :=
      exists_last (p := fun u => EndedByOther u client) (l := t :: y) ⟨t, by simp, hended⟩
    have hrun' : trace step (create config) es = (x ++ x') ++ u :: (y' ++ r :: z) := by
      rw [hrun, List.append_assoc, ← List.cons_append, hsplit]
      simp
    have htu : t.event.now ≤ u.event.now := by
      cases x' with
      | nil => simp_all
      | cons t' x' =>
        obtain ⟨rfl, -⟩ := List.cons.inj hsplit
        exact le_time_of_split h hrun' t (by simp)
    have htime' : r.event.now < u.event.now + restartGuardSec := by linarith
    obtain ⟨hremembers, hr⟩ := remembers_split (a := (x ++ x') ++ u :: y') (by simpa using hrun')
    rw [hr] at hstarts
    obtain ⟨hasks, hfree⟩ := starts_iff.1 hstarts
    have hquiet := hundisturbed (x ++ x') u y' r z client hrun' hu hlast htime' (hr ▸ hasks)
    rw [guarded_of_guard (hremembers (x ++ x') u y' client rfl hu hquiet)] at hfree
    simp [htime'] at hfree

/-- Two pages stop each other's sessions, and the first starts again. -/
def crossedCalls : List SessionCall :=
  Launcher.readyCalls.map (fun e => ⟨e.now, .bridge e.input⟩) ++
    [⟨1 / 10, .bridge (.roller 1 (.number (.fin (3 / 5))))⟩, ⟨1 / 5, .bridge (.rollerStop 2)⟩,
      ⟨3 / 10, .bridge (.roller 2 (.number (.fin (3 / 5))))⟩, ⟨2 / 5, .bridge (.rollerStop 1)⟩,
      ⟨1 / 2, .bridge (.roller 1 (.number (.fin (3 / 5))))⟩]

theorem crossed_restarts :
    ¬ ∀ config es, Chronological SessionCall.now es →
      RestartGuarded (trace step (create config) es) := by
  intro h
  have hguarded := h {} crossedCalls (by decide +kernel)
  -- all of it happens within the first second
  have hblocked : BlockedUntil
      (fun t : SessionStep => decide (EndedByOther t 1 ∧ 0 ≤ t.event.now) = true)
      (fun r => decide (Starts r 1 ∧ r.event.now < 1) = true) (fun _ => false = true)
      (trace step (create {}) crossedCalls) := by
    intro x t y r z hrun hended hstarts
    obtain ⟨hended, ht⟩ := of_decide_eq_true hended
    obtain ⟨hstarts, hr⟩ := of_decide_eq_true hstarts
    have htime : r.event.now < t.event.now + restartGuardSec := by
      have hguard : restartGuardSec = 1 := rfl
      linarith
    exact absurd hstarts (hguarded x t y r z 1 hrun hended htime)
  rw [blockedUntil_iff_allowed] at hblocked
  revert hblocked
  decide +kernel

theorem restart_guarded_iff_crossed :
    RestartGuarded (trace step (create {}) crossedCalls) ↔
      GuardUndisturbed (trace step (create {}) crossedCalls) :=
  restart_guarded_iff {} crossedCalls (by decide +kernel)

end ShootSession

end Questix.LabBridge
