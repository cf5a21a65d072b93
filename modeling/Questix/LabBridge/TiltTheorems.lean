/-
Questix.LabBridge.TiltTheorems — the tilt targets the bridge sets (`shoot.py`,
`bridge_node.py`).

A target that comes too soon waits; the one that waits is the newest one
accepted, and its session has been running ever since (`WaitsFor`). It is set by
the first tick behind the gap, and a target whose session is over is not set
(`tilts_coalesced`).

`Goes` says what a call is to the session a target belongs to, and `Turns` what
it is to the target that waits.
-/
import Questix.LabBridge.ShootEffects

namespace Questix.LabBridge

open Questix.Lib

namespace ShootSession

variable {s s' s'' : ShootSession} {client : Client} {now : ℚ}

/-! ## The session a target belongs to -/

/-- The session goes on, or it is over; no other one begins. -/
structure Keeps (s s' : ShootSession) : Prop where
  session : s'.session = s.session
  owner : s'.owner = none ∨ s'.owner = s.owner
  tilt : s'.tilt = none ∨ s'.tilt = s.tilt
  clear : (s.owner ≠ none → s.Clear) → s'.owner ≠ none → s'.Clear

theorem Keeps.of_same (hsession : s'.session = s.session) (howner : s'.owner = s.owner)
    (htilt : s'.tilt = s.tilt) (hblocker : s'.blocker = s.blocker) : Keeps s s' where
  session := hsession
  owner := .inr howner
  tilt := .inr htilt
  clear hclear hdrives code := by
    rw [hblocker]
    exact hclear (howner ▸ hdrives) code

theorem Keeps.refl (s : ShootSession) : Keeps s s := .of_same rfl rfl rfl rfl

theorem Keeps.of_base (h : s'.base = s.base) : Keeps s s' :=
  .of_same (congrArg Base.session h) (congrArg Base.owner h) (congrArg Base.tilt h)
    (congrArg Base.blocker h)

theorem Keeps.trans (h : Keeps s s') (h' : Keeps s' s'') : Keeps s s'' where
  session := h'.session.trans h.session
  owner := h'.owner.elim .inl fun hsame => hsame ▸ h.owner
  tilt := h'.tilt.elim .inl fun hsame => hsame ▸ h.tilt
  clear hclear := h'.clear (h.clear hclear)

theorem Settles.keeps (h : Settles s s') (hsession : s'.session = s.session) : Keeps s s' where
  session := hsession
  owner := h.run.elim (fun hrun => .inr (congrArg Run.owner hrun.1)) fun hidle => .inl hidle.owner
  tilt := h.run.elim (fun hrun => .inr (congrArg Run.tilt hrun.1)) fun hidle => .inl hidle.tilt
  clear := h.clear

theorem keeps_end (reason : ShootReason) (by_ : Option Client) : Keeps s (s.end_ reason by_ now) :=
  (settles_end reason by_).keeps rfl

theorem session_setBlocker (code : ShootBlocker) (detail : Option Detail) :
    (s.setBlocker code detail now).session = s.session := by
  unfold setBlocker
  dsimp only
  split
  · rfl
  · split
    · rfl
    · split <;> rfl

theorem session_updateBlockers : (s.updateBlockers now).session = s.session := by
  have hfold : ∀ (detail : ShootBlocker → Option Detail) (codes : List ShootBlocker)
      (s' : ShootSession), (codes.foldl (fun s' code => s'.setBlocker code (detail code) now)
        s').session = s'.session := by
    intro detail codes
    induction codes with
    | nil => exact fun _ => rfl
    | cons code codes ih => exact fun s' => (ih _).trans (session_setBlocker code _)
  exact hfold _ _ _

theorem keeps_updateBlockers : Keeps s (s.updateBlockers now) :=
  settles_updateBlockers.keeps session_updateBlockers

theorem keeps_update (h : s'.base = s.base) : Keeps s (s'.updateBlockers now) :=
  (Keeps.of_base h).trans keeps_updateBlockers

theorem awaitInterval_base (wait : Option ℚ) : (s.awaitInterval wait now).base = s.base := by
  unfold awaitInterval
  split
  · split <;> rfl
  · rfl

theorem keepStatus_base (status : Option ArbiterStatus) :
    (s.keepStatus status now).base = s.base := by
  cases status with
  | none => rfl
  | some status => exact awaitInterval_base _

theorem keeps_setGraph (others : List String) (subscribed : Bool) :
    Keeps s (s.setGraph others subscribed now) := by
  unfold setGraph
  exact keeps_update rfl

theorem keeps_setEmergencyStop (active : Bool) : Keeps s (s.setEmergencyStop active now) := by
  unfold setEmergencyStop
  exact keeps_update rfl

theorem keeps_setEstopKnown (known : Bool) : Keeps s (s.setEstopKnown known now) := by
  unfold setEstopKnown
  exact keeps_update rfl

theorem keeps_setMotionPermission (allowed : Bool) :
    Keeps s (s.setMotionPermission allowed now) := by
  unfold setMotionPermission
  exact keeps_update rfl

theorem keeps_setArbiter (status : Option ArbiterStatus) : Keeps s (s.setArbiter status now) := by
  have hheard : Keeps s (s.heardArbiter status now) :=
    keeps_update (updateLimits_frame.2.trans (keepStatus_base status))
  cases status with
  | none => exact hheard
  | some status =>
    rw [setArbiter_some]
    split
    · refine hheard.trans ?_
      unfold followArbiter
      split
      · exact .refl _
      · split
        · exact keeps_end _ _
        · exact .refl _
    · exact hheard

theorem keeps_setRollerStatus (status : Option RollerStatus) :
    Keeps s (s.setRollerStatus status now) := by
  cases status with
  | none => exact .refl s
  | some status =>
    refine keeps_update ?_
    unfold updateRollerConfirmation
    split <;> rfl

theorem keeps_setShotStatus (status : Option ShotStatus) : Keeps s (s.setShotStatus status now) := by
  cases status with
  | none => exact .refl s
  | some status =>
    exact keeps_update (updateLimits_frame.2.trans (awaitInterval_base (number status.nextFireInSec)))

theorem keeps_expire : Keeps s (s.expire now) := by
  refine settles_expire.keeps ?_
  unfold expire
  split
  · rfl
  · split <;> rfl

theorem keeps_tick (timeout : Option Dbl) : Keeps s (s.tick timeout now).1 := by
  have hforgotten : Keeps s (s.forgetArbiter timeout now) := by
    unfold forgetArbiter
    split
    · split
      · exact keeps_setArbiter none
      · exact .refl s
    · exact .refl s
  exact (hforgotten.trans keeps_updateBlockers).trans keeps_expire

theorem keeps_refuseNumber : Keeps s (s.refuseNumber client now) := by
  unfold refuseNumber
  split
  · exact keeps_end _ _
  · exact .refl s

/-- The session goes on, is over, or is a new one that nothing blocks. -/
structure Goes (s s' : ShootSession) : Prop where
  token : s'.sessionToken = none ∨ s'.sessionToken = s.sessionToken ∨ s.sessionToken = none
  tilt : s'.tilt = none ∨ s'.tilt = s.tilt
  clear : (s.owner ≠ none → s.Clear) → s'.owner ≠ none → s'.Clear
  number : s.session ≤ s'.session
  fresh : s.owner = none → s'.owner ≠ none → s.session < s'.session

theorem sessionToken_eq_none : s.sessionToken = none ↔ s.owner = none := by
  simp [sessionToken]

theorem Goes.keeps (h : Goes s s') (h' : Keeps s' s'') : Goes s s'' where
  token := by
    rcases h'.owner with hnone | hsame
    · exact .inl (sessionToken_eq_none.mpr hnone)
    · have hsame : s''.sessionToken = s'.sessionToken := by
        rw [sessionToken, sessionToken, hsame, h'.session]
      exact hsame ▸ h.token
  tilt := h'.tilt.elim .inl fun hsame => hsame ▸ h.tilt
  clear hclear := h'.clear (h.clear hclear)
  number := h'.session ▸ h.number
  fresh hnone hdrives := by
    rw [h'.session]
    exact h.fresh hnone fun hidle => hdrives (h'.owner.elim id fun hsame => hsame.trans hidle)

theorem Goes.refl (s : ShootSession) : Goes s s where
  token := .inr (.inl rfl)
  tilt := .inr rfl
  clear hclear := hclear
  number := le_rfl
  fresh hnone hdrives := absurd hnone hdrives

theorem Keeps.goes (h : Keeps s s') : Goes s s' := (Goes.refl s).keeps h

theorem goes_begin (hadmitted : s.admit_ client now = none) : Goes s (s.begin_ client now) := by
  obtain ⟨hclear, hfree⟩ := admit_eq_none hadmitted
  obtain ⟨-, hblocker, -, htilt, -⟩ := begin_frame s client now
  have hunblocked : (s.begin_ client now).Clear := fun code => by rw [hblocker]; exact hclear code
  rcases hfree with howner | howner
  · have hsession : (s.begin_ client now).session = s.session + 1 := by
      simp [begin_, howner]
    exact ⟨.inr (.inr (sessionToken_eq_none.mpr howner)), .inr htilt, fun _ _ => hunblocked,
      by omega, fun _ _ => by omega⟩
  · have hsame : (s.begin_ client now).sessionToken = s.sessionToken ∧
        (s.begin_ client now).session = s.session := by
      simp [begin_, howner, sessionToken]
    exact ⟨.inr (.inl hsame.1), .inr htilt, fun _ _ => hunblocked, hsame.2.ge,
      fun hnone => absurd (howner.symm.trans hnone) nofun⟩

theorem goes_rollerTo (power : Value) : Goes s (s.rollerTo client power now).1 := by
  unfold rollerTo
  cases hadmitted : s.admit_ client now with
  | some refused => exact .refl s
  | none =>
    cases number power with
    | none => exact keeps_refuseNumber.goes
    | some power => exact (goes_begin hadmitted).keeps (.of_base (setPower_frame _).2)

theorem tiltTo_cases (s : ShootSession) (client : Client) (deg : Value) (now : ℚ) :
    (∃ s' refusal, s.tiltTo client deg now = (s', some refusal, none) ∧ Goes s s') ∨
      ∃ d, s.tiltTo client deg now = (s.begin_ client now, none, some d) ∧
        s.admit_ client now = none := by
  unfold tiltTo
  cases hadmitted : s.admit_ client now with
  | some refused => exact .inl ⟨_, _, rfl, .refl s⟩
  | none =>
    cases number deg with
    | none => exact .inl ⟨_, _, rfl, keeps_refuseNumber.goes⟩
    | some deg =>
      dsimp only
      split
      · exact .inl ⟨_, _, rfl, .refl s⟩
      · exact .inr ⟨_, rfl, rfl⟩

theorem goes_fire (confirm : Bool) : Goes s (s.fire client confirm now).1 := by
  refine Keeps.goes ?_
  unfold fire
  split
  · exact .refl s
  · split
    · exact .refl s
    · split
      · exact .refl s
      · split
        · exact .refl s
        · split
          · exact .refl s
          · exact .of_same rfl rfl rfl rfl

theorem goes_stop : Goes s (s.stop client now).1 := by
  unfold stop
  split
  · exact (keeps_end _ _).goes
  · exact .refl s

theorem goes_disconnect : Goes s (s.disconnect client now).1 := by
  unfold disconnect
  split
  · exact (keeps_end _ _).goes
  · exact .refl s

end ShootSession

namespace Launcher

open ShootSession

variable {l : Launcher} {e : LauncherCall} {t : LauncherStep} {client : Client} {now deg gap : ℚ}
  {token : Client × ℕ} {past : List LauncherStep}

/-! ## What a run shows -/

/-- The target a step accepts, with the session it belongs to. -/
def accepted (t : LauncherStep) : Option (ℚ × Client × ℕ) :=
  match t.event.input with
  | .tilt client deg =>
    let (session, _, sent) := t.pre.session.tiltTo client deg t.event.now
    sent.bind fun deg => session.sessionToken.map fun token => (deg, token)
  | _ => none

/-- The target a step sets. -/
def tiltSet (t : LauncherStep) : Option ℚ :=
  match t.event.input with
  | .tilt client deg =>
    let (session, _, sent) := t.pre.session.tiltTo client deg t.event.now
    sent.bind fun deg => (t.pre.tilts.request deg session.sessionToken t.event.now).2
  | .tick timeout =>
    ((t.pre.update (t.pre.session.tick timeout t.event.now).1).sendDue t.event.now).2
  | _ => none

/-- `deg` is the newest target accepted, it has not been set, and its session has been running
ever since. -/
def WaitsFor (past : List LauncherStep) (deg : ℚ) (token : Client × ℕ) : Prop :=
  ∃ x u y, past = x ++ u :: y ∧ accepted u = some (deg, token) ∧ (∀ v ∈ y, accepted v = none) ∧
    ∀ v ∈ u :: y, tiltSet v = none ∧ v.post.session.sessionToken = some token

/-- What is asked of step `t`, after the steps `past`. -/
structure Coalesced (gap : ℚ) (past : List LauncherStep) (t : LauncherStep) : Prop where
  apart : tiltSet t ≠ none → ∀ u ∈ past, tiltSet u ≠ none → gap ≤ t.event.now - u.event.now
  /-- A target that is set is accepted now, or has been waiting; nothing blocks its session. -/
  source : ∀ deg, tiltSet t = some deg → ∃ token, t.post.session.sessionToken = some token ∧
    t.post.session.blockers = [] ∧
      (accepted t = some (deg, token) ∨ accepted t = none ∧ WaitsFor past deg token)
  /-- A target that waits when its session ends is never set: what is set then was accepted
  later. -/
  ended : ∀ x u y deg token, past = x ++ u :: y → accepted u = some (deg, token) →
    tiltSet u = none → (∃ v ∈ y ++ [t], v.post.session.sessionToken ≠ some token) →
      tiltSet t ≠ none → ∃ v ∈ y ++ [t], accepted v ≠ none
  due : ∀ timeout, t.event.input = .tick timeout → ∀ deg token, WaitsFor past deg token →
    t.post.session.sessionToken = some token → t.post.session.blockers = [] →
      (∀ u ∈ past, tiltSet u ≠ none → gap ≤ t.event.now - u.event.now) → tiltSet t = some deg
  /-- The target of the session is one that was set. -/
  commanded : ∀ deg, (tiltSet t = some deg → t.post.session.tilt = some deg) ∧
    (t.post.session.tilt = some deg → tiltSet t = some deg ∨ t.pre.session.tilt = some deg)
  /-- The number of a session that begins is new. -/
  fresh : t.pre.session.owner = none → t.post.session.owner ≠ none →
    ∀ u ∈ past, u.post.session.session < t.post.session.session

/-! ## What a call is to the target that waits -/

@[simp] theorem sentAt_dropIfIdle : l.dropIfIdle.tilts.sentAt = l.tilts.sentAt := by
  unfold dropIfIdle
  split <;> rfl

@[simp] theorem gapSec_dropIfIdle : l.dropIfIdle.tilts.gapSec = l.tilts.gapSec := by
  unfold dropIfIdle
  split <;> rfl

@[simp] theorem sentAt_update (s : ShootSession) : (l.update s).tilts.sentAt = l.tilts.sentAt := by
  unfold update
  dsimp only
  split
  · exact sentAt_dropIfIdle
  · rfl

@[simp] theorem gapSec_update (s : ShootSession) : (l.update s).tilts.gapSec = l.tilts.gapSec := by
  unfold update
  dsimp only
  split
  · exact gapSec_dropIfIdle
  · rfl

/-- The target that waits belongs to the session that runs. -/
def Owned (l : Launcher) : Prop :=
  ∀ deg token, l.tilts.pending = some (deg, token) → l.session.sessionToken = some token

theorem pending_dropIfIdle {s : ShootSession} (h : Owned l) (hgoes : Goes l.session s) (deg : ℚ)
    (token : Client × ℕ) :
    (dropIfIdle { l with session := s }).tilts.pending = some (deg, token) ↔
      l.tilts.pending = some (deg, token) ∧ s.sessionToken = some token := by
  unfold dropIfIdle
  split
  next hactive =>
    refine ⟨fun hpending => ⟨hpending, ?_⟩, fun hpending => hpending.1⟩
    have htoken := h deg token hpending
    rcases hgoes.token with hnone | hsame | hnone
    · rw [sessionToken_eq_none] at hnone
      simp [active, hnone] at hactive
    · exact hsame.trans htoken
    · rw [hnone] at htoken
      cases htoken
  next hidle =>
    refine ⟨(fun hkept => by cases hkept), fun hpending => ?_⟩
    have hnone : s.sessionToken = none := by
      simpa [active, sessionToken_eq_none] using hidle
    rw [hnone] at hpending
    cases hpending.2

theorem pending_update {s : ShootSession} (h : Owned l) (hgoes : Goes l.session s) (deg : ℚ)
    (token : Client × ℕ) :
    (l.update s).tilts.pending = some (deg, token) ↔
      l.tilts.pending = some (deg, token) ∧ s.sessionToken = some token := by
  unfold update
  dsimp only
  split
  · exact pending_dropIfIdle h hgoes deg token
  next hidle =>
    have hnone : l.session.sessionToken = none := by
      simpa [active, sessionToken_eq_none] using hidle
    have hempty : l.tilts.pending ≠ some (deg, token) := fun hpending => by
      have htoken := h deg token hpending
      rw [hnone] at htoken
      cases htoken
    exact ⟨fun hpending => absurd hpending hempty, fun hpending => absurd hpending.1 hempty⟩

/-- What a call does to the targets: the one that waits is left or dropped, one is accepted and
waits, or one is set. -/
inductive Turns (t : LauncherStep) : Prop
  | rests : accepted t = none → tiltSet t = none →
    t.post.tilts.sentAt = t.pre.tilts.sentAt →
    (∀ deg token, t.post.tilts.pending = some (deg, token) ↔
      t.pre.tilts.pending = some (deg, token) ∧ t.post.session.sessionToken = some token) →
    (∀ timeout, t.event.input = .tick timeout → ∀ deg token,
      t.post.tilts.pending = some (deg, token) →
        Dbl.fin t.event.now - t.pre.tilts.sentAt < .fin t.pre.tilts.gapSec) →
    t.post.session.tilt = none ∨ t.post.session.tilt = t.pre.session.tilt → Turns t
  | waits (deg : ℚ) (token : Client × ℕ) : accepted t = some (deg, token) → tiltSet t = none →
    t.post.tilts.sentAt = t.pre.tilts.sentAt → t.post.tilts.pending = some (deg, token) →
    t.post.session.sessionToken = some token → (∀ timeout, t.event.input ≠ .tick timeout) →
    t.post.session.tilt = none ∨ t.post.session.tilt = t.pre.session.tilt → Turns t
  | sets (deg : ℚ) (token : Client × ℕ) : tiltSet t = some deg →
    accepted t = some (deg, token) ∨ accepted t = none ∧ t.pre.tilts.pending = some (deg, token) →
    t.post.session.sessionToken = some token →
    ¬ Dbl.fin t.event.now - t.pre.tilts.sentAt < .fin t.pre.tilts.gapSec →
    t.post.tilts.sentAt = .fin t.event.now → t.post.tilts.pending = none →
    t.post.session.tilt = some deg → Turns t

theorem turns_of_pending (haccepted : accepted (stepOf step l e) = none)
    (hset : tiltSet (stepOf step l e) = none)
    (hsent : (step l e).1.tilts.sentAt = l.tilts.sentAt)
    (hpending : ∀ deg token, (step l e).1.tilts.pending = some (deg, token) ↔
      l.tilts.pending = some (deg, token) ∧ (step l e).1.session.sessionToken = some token)
    (htick : ∀ timeout, e.input ≠ .tick timeout) (hgoes : Goes l.session (step l e).1.session) :
    Turns (stepOf step l e) :=
  .rests haccepted hset hsent hpending (fun timeout h => absurd h (htick timeout)) hgoes.tilt

theorem turns_tilt (h : Owned l) {value : Value} (hinput : e.input = .tilt client value) :
    Turns (stepOf step l e) := by
  rcases tiltTo_cases l.session client value e.now with
    ⟨s', refusal, heq, hgoes⟩ | ⟨d, heq, hadmitted⟩
  · have hstep : (step l e).1 = dropIfIdle { l with session := s' } := by
      simp [step, hinput, heq]
    refine turns_of_pending (by simp [accepted, stepOf, hinput, heq])
      (by simp [tiltSet, stepOf, hinput, heq]) (by simp [hstep]) ?_ (by simp [hinput])
      (by simpa [hstep] using hgoes)
    simpa [hstep] using pending_dropIfIdle h hgoes
  · have howner : (l.session.begin_ client e.now).owner = some client :=
      begin_owner e.now (admit_eq_none hadmitted).2
    have hactive : (l.session.begin_ client e.now).active = true := by simp [active, howner]
    obtain ⟨token, htoken⟩ : ∃ token, (l.session.begin_ client e.now).sessionToken = some token :=
      ⟨_, by rw [sessionToken, howner]; rfl⟩
    have hstep : (step l e).1 =
        (sendTilt { l with session := l.session.begin_ client e.now } d e.now).dropIfIdle := by
      simp [step, hinput, heq]
    have haccepted : accepted (stepOf step l e) = some (d, token) := by
      simp [accepted, stepOf, hinput, heq, htoken]
    by_cases hsoon : Dbl.fin e.now - l.tilts.sentAt < .fin l.tilts.gapSec
    · have hpost : (step l e).1 = ⟨l.session.begin_ client e.now,
          { l.tilts with pending := some (d, token) }⟩ := by
        rw [hstep]
        simp [sendTilt, TiltCoalescer.request, htoken, hsoon, dropIfIdle, hactive]
      refine .waits d token haccepted ?_ ?_ ?_ ?_ (by simp [stepOf, hinput]) ?_
      · simp [tiltSet, stepOf, hinput, heq, TiltCoalescer.request, htoken, hsoon]
      · simp [stepOf, hpost]
      · simp [stepOf, hpost]
      · simp [stepOf, hpost, htoken]
      · simpa [stepOf, hpost] using (goes_begin hadmitted).tilt
    · have hpost : (step l e).1 = ⟨(l.session.begin_ client e.now).setTilt d,
          { l.tilts with pending := none, sentAt := .fin e.now }⟩ := by
        rw [hstep]
        simp [sendTilt, TiltCoalescer.request, htoken, hsoon, dropIfIdle, setTilt, active, howner]
      refine .sets d token ?_ (.inl haccepted) ?_ hsoon ?_ ?_ ?_
      · simp [tiltSet, stepOf, hinput, heq, TiltCoalescer.request, htoken, hsoon]
      · simpa [stepOf, hpost, sessionToken, setTilt] using htoken
      · simp [stepOf, hpost]
      · simp [stepOf, hpost]
      · simp [stepOf, hpost, setTilt]

theorem sendDue_none (hkept : l.tilts.pending = none) : l.sendDue now = (l, none) := by
  unfold sendDue TiltCoalescer.due
  rw [hkept]

theorem sendDue_soon (hkept : l.tilts.pending = some (deg, token))
    (hsoon : Dbl.fin now - l.tilts.sentAt < .fin l.tilts.gapSec) : l.sendDue now = (l, none) := by
  unfold sendDue TiltCoalescer.due
  simp only [hkept, if_pos hsoon]

theorem sendDue_sets (hkept : l.tilts.pending = some (deg, token))
    (hlate : ¬ Dbl.fin now - l.tilts.sentAt < .fin l.tilts.gapSec)
    (htoken : l.session.sessionToken = some token) (hunblocked : l.session.blockers = []) :
    l.sendDue now =
      (⟨l.session.setTilt deg, { l.tilts with pending := none, sentAt := .fin now }⟩,
        some deg) := by
  unfold sendDue TiltCoalescer.due
  simp [hkept, if_neg hlate, htoken, hunblocked]

theorem turns_tick (h : Owned l) (hclear : l.session.owner ≠ none → l.session.Clear)
    {timeout : Option Dbl} (hinput : e.input = .tick timeout) : Turns (stepOf step l e) := by
  have hkeeps : Keeps l.session (l.session.tick timeout e.now).1 := keeps_tick timeout
  have hpending := pending_update h hkeeps.goes
  have hstep : (step l e).1 = ((l.update (l.session.tick timeout e.now).1).sendDue e.now).1 := by
    obtain ⟨published, heq, -⟩ := onTick_eq (l := l) timeout e.now
    simp [step, hinput, heq]
  have hset : tiltSet (stepOf step l e) =
      ((l.update (l.session.tick timeout e.now).1).sendDue e.now).2 := by
    simp [tiltSet, stepOf, hinput]
  have haccepted : accepted (stepOf step l e) = none := by simp [accepted, stepOf, hinput]
  generalize (l.session.tick timeout e.now).1 = s at hkeeps hpending hstep hset
  cases hkept : (l.update s).tilts.pending with
  | none =>
    rw [sendDue_none hkept] at hstep hset
    refine .rests haccepted hset (by simp [stepOf, hstep]) ?_ ?_ ?_
    · simpa [stepOf, hstep] using hpending
    · simp [stepOf, hstep, hkept]
    · simpa [stepOf, hstep] using hkeeps.tilt
  | some kept =>
    obtain ⟨d, token⟩ := kept
    obtain ⟨hbefore, htoken⟩ := (hpending d token).mp hkept
    by_cases hsoon : Dbl.fin e.now - l.tilts.sentAt < .fin l.tilts.gapSec
    · rw [sendDue_soon hkept (by simpa using hsoon)] at hstep hset
      refine .rests haccepted hset (by simp [stepOf, hstep]) ?_ (fun _ _ _ _ _ => hsoon) ?_
      · simpa [stepOf, hstep] using hpending
      · simpa [stepOf, hstep] using hkeeps.tilt
    · have hunblocked : s.blockers = [] := by
        refine blockers_eq_nil.mpr (hkeeps.clear hclear fun hnone => ?_)
        rw [sessionToken_eq_none.mpr hnone] at htoken
        cases htoken
      rw [sendDue_sets hkept (by simpa using hsoon) (by simpa using htoken)
        (by simpa using hunblocked)] at hstep hset
      refine .sets d token hset (.inr ⟨haccepted, hbefore⟩) ?_ hsoon ?_ ?_ ?_
      · simpa [stepOf, hstep, sessionToken, setTilt] using htoken
      · simp [stepOf, hstep]
      · simp [stepOf, hstep]
      · simp [stepOf, hstep, setTilt]

/-- A call changes the inputs, is a request that ends or starts a session, or is about the
targets. -/
inductive Call (l : Launcher) (e : LauncherCall) : Prop
  | update (s : ShootSession) : Goes l.session s → (step l e).1 = l.update s →
    accepted (stepOf step l e) = none → tiltSet (stepOf step l e) = none →
    (∀ timeout, e.input ≠ .tick timeout) → Call l e
  | request (s : ShootSession) : Goes l.session s →
    (step l e).1 = dropIfIdle { l with session := s } →
    accepted (stepOf step l e) = none → tiltSet (stepOf step l e) = none →
    (∀ timeout, e.input ≠ .tick timeout) → Call l e
  | tilt (client : Client) (value : Value) : e.input = .tilt client value → Call l e
  | tick (timeout : Option Dbl) : e.input = .tick timeout → Call l e

theorem dropIfIdle_of_owned (h : Owned l) : l.dropIfIdle = l := by
  unfold dropIfIdle
  split
  · rfl
  next hidle =>
    have hnone : l.session.sessionToken = none := by
      simpa [active, sessionToken_eq_none] using hidle
    have hempty : l.tilts.pending = none := by
      rw [Option.eq_none_iff_forall_ne_some]
      intro kept hkept
      have htoken := h kept.1 kept.2 hkept
      rw [hnone] at htoken
      cases htoken
    rw [TiltCoalescer.drop, ← hempty]

theorem call_step (h : Owned l) : Call l e := by
  have hupdate : ∀ {s : ShootSession}, Keeps l.session s → (step l e).1 = l.update s →
      (∀ client value, e.input ≠ .tilt client value) → (∀ timeout, e.input ≠ .tick timeout) →
      Call l e := by
    intro s hkeeps heq htilt htick
    refine .update s hkeeps.goes heq ?_ ?_ htick
    · unfold accepted
      split
      next client value hinput => exact absurd hinput (htilt client value)
      · rfl
    · unfold tiltSet
      split
      next client value hinput => exact absurd hinput (htilt client value)
      next timeout hinput => exact absurd hinput (htick timeout)
      · rfl
  cases hinput : e.input with
  | setGraph others subscribed =>
    exact hupdate (keeps_setGraph others subscribed) (by simp only [step, hinput]; rfl) (by simp [hinput])
      (by simp [hinput])
  | setEmergencyStop active =>
    exact hupdate (keeps_setEmergencyStop active) (by simp only [step, hinput]; rfl) (by simp [hinput])
      (by simp [hinput])
  | setEstopKnown known =>
    exact hupdate (keeps_setEstopKnown known) (by simp only [step, hinput]; rfl) (by simp [hinput])
      (by simp [hinput])
  | setMotionPermission allowed =>
    exact hupdate (keeps_setMotionPermission allowed) (by simp only [step, hinput]; rfl) (by simp [hinput])
      (by simp [hinput])
  | setArbiter status =>
    exact hupdate (keeps_setArbiter status) (by simp only [step, hinput]; rfl) (by simp [hinput])
      (by simp [hinput])
  | rollerStatus status =>
    exact hupdate (keeps_setRollerStatus status) (by simp only [step, hinput]; rfl) (by simp [hinput])
      (by simp [hinput])
  | shotStatus status =>
    exact hupdate (keeps_setShotStatus status) (by simp only [step, hinput]; rfl) (by simp [hinput])
      (by simp [hinput])
  | roller client power =>
    exact .request _ (goes_rollerTo power) (by simp only [step, hinput]; rfl)
      (by simp [accepted, stepOf, hinput]) (by simp [tiltSet, stepOf, hinput]) (by simp [hinput])
  | fire client confirm =>
    exact .request _ (goes_fire confirm) (by simp only [step, hinput]; rfl)
      (by simp [accepted, stepOf, hinput]) (by simp [tiltSet, stepOf, hinput]) (by simp [hinput])
  | rollerStop client =>
    exact .request _ goes_stop (by simp only [step, hinput]; rfl)
      (by simp [accepted, stepOf, hinput]) (by simp [tiltSet, stepOf, hinput]) (by simp [hinput])
  | disconnect client =>
    have hgoes : Goes l.session (l.session.disconnect client e.now).1 := goes_disconnect
    refine .request _ hgoes ?_
      (by simp [accepted, stepOf, hinput]) (by simp [tiltSet, stepOf, hinput]) (by simp [hinput])
    simp only [step, hinput]
    by_cases howner : l.session.owner = some client
    · simp [disconnect, howner, dropIfIdle, active, end_]
    · simp only [disconnect, if_neg howner]
      exact (dropIfIdle_of_owned h).symm
  | tilt client value => exact .tilt client value hinput
  | tick timeout => exact .tick timeout hinput

theorem turns_step (h : Owned l) (hclear : l.session.owner ≠ none → l.session.Clear) :
    Turns (stepOf step l e) := by
  cases call_step (e := e) h with
  | update s hgoes heq haccepted hset htick =>
    refine turns_of_pending haccepted hset (by simp [heq]) ?_ htick (by simpa [heq] using hgoes)
    simpa [heq] using pending_update h hgoes
  | request s hgoes heq haccepted hset htick =>
    refine turns_of_pending haccepted hset (by simp [heq]) ?_ htick (by simpa [heq] using hgoes)
    simpa [heq] using pending_dropIfIdle h hgoes
  | tilt client value hinput => exact turns_tilt h hinput
  | tick timeout hinput => exact turns_tick h hclear hinput

theorem goes_step (h : Owned l) : ∃ s, Goes l.session s ∧
    ((step l e).1.session = s ∨ ∃ deg, (step l e).1.session = s.setTilt deg) := by
  cases call_step (e := e) h with
  | update s hgoes heq => exact ⟨s, hgoes, .inl (by simp [heq])⟩
  | request s hgoes heq => exact ⟨s, hgoes, .inl (by simp [heq])⟩
  | tilt client value hinput =>
    rcases tiltTo_cases l.session client value e.now with
      ⟨s', refusal, heq, hgoes⟩ | ⟨d, heq, hadmitted⟩
    · exact ⟨s', hgoes, .inl (by simp [step, hinput, heq])⟩
    · refine ⟨_, goes_begin hadmitted, ?_⟩
      simp only [step, hinput, heq, session_dropIfIdle]
      exact (session_sendTilt d).imp id fun hset => ⟨d, hset⟩
  | tick timeout hinput =>
    have hkeeps : Keeps l.session (l.session.tick timeout e.now).1 := keeps_tick timeout
    refine ⟨_, hkeeps.goes, ?_⟩
    obtain ⟨published, heq, -⟩ := onTick_eq (l := l) timeout e.now
    simp only [step, hinput, heq]
    unfold sendDue
    split
    next d hdue => exact .inr ⟨d, by simp⟩
    · exact .inl (by simp)

theorem gapSec_request (c : TiltCoalescer) (token : Option (Client × ℕ)) :
    (c.request deg token now).1.gapSec = c.gapSec := by
  unfold TiltCoalescer.request
  split
  · rfl
  · split <;> rfl

theorem gapSec_due (c : TiltCoalescer) (token : Option (Client × ℕ)) (blocked : Bool) :
    (c.due token blocked now).1.gapSec = c.gapSec := by
  unfold TiltCoalescer.due
  split
  · rfl
  · split
    · rfl
    · split <;> rfl

@[simp] theorem gapSec_sendTilt : (l.sendTilt deg now).tilts.gapSec = l.tilts.gapSec := by
  rw [← gapSec_request l.tilts l.session.sessionToken]
  unfold sendTilt
  split
  next heq => rw [heq]
  next heq => rw [heq]

@[simp] theorem gapSec_sendDue : (l.sendDue now).1.tilts.gapSec = l.tilts.gapSec := by
  rw [← gapSec_due l.tilts l.session.sessionToken (decide (l.session.blockers ≠ []))]
  unfold sendDue
  split
  next heq => rw [heq]
  next heq => rw [heq]

theorem gapSec_step (h : Owned l) : (step l e).1.tilts.gapSec = l.tilts.gapSec := by
  cases call_step (e := e) h with
  | update s hgoes heq => simp [heq]
  | request s hgoes heq => simp [heq]
  | tilt client value hinput =>
    rcases tiltTo_cases l.session client value e.now with ⟨s', refusal, heq, -⟩ | ⟨d, heq, -⟩
    · simp [step, hinput, heq]
    · simp [step, hinput, heq]
  | tick timeout hinput =>
    obtain ⟨published, heq, -⟩ := onTick_eq (l := l) timeout e.now
    simp [step, hinput, heq]

/-! ## Runs -/

theorem waitsFor_snoc : WaitsFor (past ++ [t]) deg token ↔
    tiltSet t = none ∧ t.post.session.sessionToken = some token ∧
      (accepted t = some (deg, token) ∨ accepted t = none ∧ WaitsFor past deg token) := by
  constructor
  · rintro ⟨x, u, y, hsplit, haccepted, hnewest, hruns⟩
    rcases snoc_eq_append_cons hsplit with ⟨rfl, rfl, rfl⟩ | ⟨y', rfl, rfl⟩
    · obtain ⟨hset, htoken⟩ := hruns u (by simp)
      exact ⟨hset, htoken, .inl haccepted⟩
    · obtain ⟨hset, htoken⟩ := hruns t (by simp)
      refine ⟨hset, htoken, .inr ⟨hnewest t (by simp), x, u, y', rfl, haccepted, ?_, ?_⟩⟩
      · exact fun v hv => hnewest v (by simp [hv])
      · intro v hv
        refine hruns v ?_
        rw [← List.cons_append]
        exact List.mem_append_left _ hv
  · rintro ⟨hset, htoken, haccepted | ⟨hnone, x, u, y, rfl, haccepted, hnewest, hruns⟩⟩
    · refine ⟨past, t, [], rfl, haccepted, by simp, fun v hv => ?_⟩
      rw [List.mem_singleton.mp hv]
      exact ⟨hset, htoken⟩
    · refine ⟨x, u, y ++ [t], by simp, haccepted, fun v hv => ?_, fun v hv => ?_⟩
      · rcases List.mem_append.mp hv with hv | hv
        · exact hnewest v hv
        · exact List.mem_singleton.mp hv ▸ hnone
      · rw [← List.cons_append] at hv
        rcases List.mem_append.mp hv with hv | hv
        · exact hruns v hv
        · exact List.mem_singleton.mp hv ▸ ⟨hset, htoken⟩

/-- `at_` is the time of the last target that was set. -/
inductive LastSet (past : List LauncherStep) (at_ : Dbl) : Prop
  | never : (∀ u ∈ past, tiltSet u = none) → at_ = .ninf → LastSet past at_
  | at_step (u : LauncherStep) : u ∈ past → tiltSet u ≠ none → at_ = .fin u.event.now →
    (∀ v ∈ past, tiltSet v ≠ none → v.event.now ≤ u.event.now) → LastSet past at_

theorem LastSet.quiet {at_ : Dbl} (h : LastSet past at_) (hnone : tiltSet t = none) :
    LastSet (past ++ [t]) at_ := by
  cases h with
  | never hpast hat =>
    refine .never (fun u hu => ?_) hat
    rcases List.mem_append.mp hu with hu | hu
    · exact hpast u hu
    · exact List.mem_singleton.mp hu ▸ hnone
  | at_step u hu hset hat hlast =>
    refine .at_step u (by simp [hu]) hset hat fun v hv hvset => ?_
    rcases List.mem_append.mp hv with hv | hv
    · exact hlast v hv hvset
    · exact absurd (List.mem_singleton.mp hv ▸ hnone) hvset

theorem lastSet_now (hset : tiltSet t ≠ none) (htime : ∀ r ∈ past, r.event.now ≤ t.event.now) :
    LastSet (past ++ [t]) (.fin t.event.now) := by
  refine .at_step t (by simp) hset rfl fun v hv _ => ?_
  rcases List.mem_append.mp hv with hv | hv
  · exact htime v hv
  · rw [List.mem_singleton.mp hv]

/-- What the steps taken so far and the launcher have to do with each other. -/
structure Held (gap : ℚ) (past : List LauncherStep) (l : Launcher) : Prop where
  gap : l.tilts.gapSec = gap
  owned : Owned l
  clear : l.session.owner ≠ none → l.session.Clear
  number : ∀ u ∈ past, u.post.session.session ≤ l.session.session
  waits : ∀ deg token, l.tilts.pending = some (deg, token) ↔ WaitsFor past deg token
  sent : LastSet past l.tilts.sentAt

theorem late_iff (h : Held gap past l) (now : ℚ) :
    ¬ Dbl.fin now - l.tilts.sentAt < .fin l.tilts.gapSec ↔
      ∀ u ∈ past, tiltSet u ≠ none → gap ≤ now - u.event.now := by
  rw [h.gap]
  cases h.sent with
  | never hnone hsent =>
    rw [hsent]
    exact ⟨fun _ v hv hset => absurd (hnone v hv) hset, fun _ => Bool.false_ne_true⟩
  | at_step u hu hset hsent hlast =>
    rw [hsent, Dbl.fin_sub_fin, Dbl.fin_lt_fin, not_lt]
    refine ⟨fun hgap v hv hset => ?_, fun hgap => hgap u hu hset⟩
    linarith [hlast v hv hset]

theorem held_step (h : Held gap past l) (htime : ∀ r ∈ past, r.event.now ≤ e.now) :
    Held gap (past ++ [stepOf step l e]) (step l e).1 := by
  obtain ⟨s, hgoes, hsession⟩ := goes_step (e := e) h.owned
  have hturns : Turns (stepOf step l e) := turns_step h.owned h.clear
  have hnumber : (step l e).1.session.session = s.session := by
    rcases hsession with heq | ⟨d, heq⟩ <;> rw [heq]
    rfl
  have hgap : (step l e).1.tilts.gapSec = gap := (gapSec_step h.owned).trans h.gap
  have hclear : (step l e).1.session.owner ≠ none → (step l e).1.session.Clear := by
    rcases hsession with heq | ⟨d, heq⟩ <;> rw [heq] <;> exact hgoes.clear h.clear
  have hnumbers : ∀ u ∈ past ++ [stepOf step l e],
      u.post.session.session ≤ (step l e).1.session.session := by
    intro u hu
    rcases List.mem_append.mp hu with hu | hu
    · rw [hnumber]
      exact (h.number u hu).trans hgoes.number
    · rw [List.mem_singleton.mp hu]
      rfl
  cases hturns with
  | rests haccepted hnone hsent hpending _ _ =>
    have hsent : (step l e).1.tilts.sentAt = l.tilts.sentAt := hsent
    refine ⟨hgap, fun d token hd => ((hpending d token).mp hd).2, hclear, hnumbers,
      fun d token => ?_, hsent ▸ h.sent.quiet hnone⟩
    rw [waitsFor_snoc, ← h.waits]
    refine (hpending d token).trans ⟨fun hd => ⟨hnone, hd.2, .inr ⟨haccepted, hd.1⟩⟩, ?_⟩
    rintro ⟨-, htoken, hnow | ⟨-, hbefore⟩⟩
    · rw [haccepted] at hnow
      cases hnow
    · exact ⟨hbefore, htoken⟩
  | waits d token haccepted hnone hsent hpending htoken _ _ =>
    have hsent : (step l e).1.tilts.sentAt = l.tilts.sentAt := hsent
    have hpending : (step l e).1.tilts.pending = some (d, token) := hpending
    refine ⟨hgap, fun d' token' hd => ?_, hclear, hnumbers, fun d' token' => ?_,
      hsent ▸ h.sent.quiet hnone⟩
    · rw [hpending] at hd
      cases hd
      exact htoken
    · rw [waitsFor_snoc, hpending, haccepted]
      refine ⟨fun hd => ?_, fun ⟨_, _, hd⟩ => ?_⟩
      · cases hd
        exact ⟨hnone, htoken, .inl rfl⟩
      · rcases hd with hd | ⟨hd, -⟩
        · exact hd
        · cases hd
  | sets d token hd _ _ _ hsent hpending _ =>
    have hsent : (step l e).1.tilts.sentAt = .fin e.now := hsent
    have hpending : (step l e).1.tilts.pending = none := hpending
    refine ⟨hgap, fun d' token' hkept => ?_, hclear, hnumbers, fun d' token' => ?_, ?_⟩
    · rw [hpending] at hkept
      cases hkept
    · rw [waitsFor_snoc, hpending, hd]
      exact ⟨nofun, fun hw => nomatch hw.1⟩
    · rw [hsent]
      exact lastSet_now (t := stepOf step l e) (by simp [hd]) htime

theorem ended_of_source
    (hsource : ∀ deg, tiltSet t = some deg → ∃ token,
      t.post.session.sessionToken = some token ∧
        (accepted t = some (deg, token) ∨ accepted t = none ∧ WaitsFor past deg token))
    {x y : List LauncherStep} {u : LauncherStep} (hsplit : past = x ++ u :: y)
    (haccepted : accepted u = some (deg, token))
    (hended : ∃ v ∈ y ++ [t], v.post.session.sessionToken ≠ some token)
    (hset : tiltSet t ≠ none) : ∃ v ∈ y ++ [t], accepted v ≠ none := by
  obtain ⟨deg', hset⟩ := Option.ne_none_iff_exists'.mp hset
  obtain ⟨token', htoken, hnow | ⟨-, x', u', y', hsplit', haccepted', hnewest, hruns⟩⟩ :=
    hsource deg' hset
  · exact ⟨t, by simp, by simp [hnow]⟩
  · rw [hsplit] at hsplit'
    rcases split_cases hsplit' with ⟨rfl, rfl⟩ | hlater | hbefore
    · rw [haccepted, Option.some.injEq, Prod.mk.injEq] at haccepted'
      obtain ⟨v, hv, hne⟩ := hended
      rw [haccepted'.2] at hne
      rcases List.mem_append.mp hv with hv | hv
      · exact absurd (hruns v (List.mem_cons_of_mem _ hv)).2 hne
      · exact absurd (List.mem_singleton.mp hv ▸ htoken) hne
    · exact ⟨u', by simp [hlater], by simp [haccepted']⟩
    · have hnone := hnewest u hbefore
      rw [haccepted] at hnone
      cases hnone

/-- What holds of a step, after the steps it follows. -/
theorem coalesced_step (h : Held gap past l) : Coalesced gap past (stepOf step l e) := by
  obtain ⟨s, hgoes, hsession⟩ := goes_step (e := e) h.owned
  have hturns : Turns (stepOf step l e) := turns_step h.owned h.clear
  have hclear : (step l e).1.session.owner ≠ none → (step l e).1.session.Clear := by
    rcases hsession with heq | ⟨d, heq⟩ <;> rw [heq] <;> exact hgoes.clear h.clear
  have hsource : ∀ deg, tiltSet (stepOf step l e) = some deg → ∃ token,
      (step l e).1.session.sessionToken = some token ∧
        (accepted (stepOf step l e) = some (deg, token) ∨
          accepted (stepOf step l e) = none ∧ WaitsFor past deg token) := by
    intro deg hset
    cases hturns with
    | rests _ hnone => simp [hnone] at hset
    | waits _ _ _ hnone => simp [hnone] at hset
    | sets d token hd hfrom htoken =>
      rw [hset] at hd
      cases hd
      exact ⟨token, htoken, hfrom.imp id fun hkept => ⟨hkept.1, (h.waits deg token).mp hkept.2⟩⟩
  refine ⟨fun hset => ?_, fun deg hset => ?_, ?_, ?_, fun deg => ?_, fun hidle hdrives u hu => ?_⟩
  · cases hturns with
    | rests _ hnone => exact absurd hnone hset
    | waits _ _ _ hnone => exact absurd hnone hset
    | sets _ _ _ _ _ hlate => exact (late_iff h e.now).mp hlate
  · obtain ⟨token, htoken, hfrom⟩ := hsource deg hset
    refine ⟨token, htoken, blockers_eq_nil.mpr (hclear fun hnone => ?_), hfrom⟩
    rw [sessionToken_eq_none.mpr hnone] at htoken
    cases htoken
  · exact fun x u y deg token hsplit haccepted _ hended hset =>
      ended_of_source hsource hsplit haccepted hended hset
  · intro timeout hinput deg token hwaits htoken _ hgap
    have hkept := (h.waits deg token).mpr hwaits
    have hlate := (late_iff h e.now).mpr hgap
    cases hturns with
    | rests _ _ _ hpending hdue =>
      exact absurd (hdue timeout hinput deg token ((hpending deg token).mpr ⟨hkept, htoken⟩)) hlate
    | waits _ _ _ _ _ _ _ htick => exact absurd hinput (htick timeout)
    | sets d _ hd hfrom =>
      have hinput : e.input = .tick timeout := hinput
      have haccepted : accepted (stepOf step l e) = none := by simp [accepted, stepOf, hinput]
      rcases hfrom with hnow | ⟨-, hbefore⟩
      · rw [haccepted] at hnow
        cases hnow
      · have hsame : l.tilts.pending = some (d, _) := hbefore
        rw [hkept, Option.some.injEq, Prod.mk.injEq] at hsame
        rw [hd, hsame.1]
  · cases hturns with
    | rests _ hnone _ _ _ htilt =>
      refine ⟨fun hset => by simp [hnone] at hset, fun hpost => .inr ?_⟩
      exact (htilt.resolve_left (by simp [hpost])).symm.trans hpost
    | waits _ _ _ hnone _ _ _ _ htilt =>
      refine ⟨fun hset => by simp [hnone] at hset, fun hpost => .inr ?_⟩
      exact (htilt.resolve_left (by simp [hpost])).symm.trans hpost
    | sets d _ hd _ _ _ _ _ htilt =>
      refine ⟨fun hset => ?_, fun hpost => .inl ?_⟩
      · rw [hd] at hset
        exact htilt.trans hset
      · rw [htilt] at hpost
        exact hd.trans hpost
  · have hnumber : (step l e).1.session.session = s.session := by
      rcases hsession with heq | ⟨d, heq⟩ <;> rw [heq]
      rfl
    have hdrives : s.owner ≠ none := by
      rcases hsession with heq | ⟨d, heq⟩
      · exact heq ▸ hdrives
      · have howner : (step l e).1.session.owner = s.owner := by rw [heq]; rfl
        exact howner ▸ hdrives
    have hfresh := hgoes.fresh hidle hdrives
    exact lt_of_le_of_lt (h.number u hu) (hnumber ▸ hfresh)

/-- The launcher with its inputs unheard, and a gap of its own between two targets. -/
def started (config : ShootConfig) (gap : ℚ) : Launcher :=
  { create config with tilts := { gapSec := gap } }

theorem held_started (config : ShootConfig) (gap : ℚ) : Held gap [] (started config gap) where
  gap := rfl
  owned deg token hkept := by simp [started] at hkept
  clear := by
    have hsettles : Settles { config := config } (ShootSession.create config) :=
      settles_updateBlockers
    exact hsettles.clear fun hdrives => absurd rfl hdrives
  number := by simp
  waits deg token := by
    refine ⟨fun hkept => by simp [started] at hkept, ?_⟩
    rintro ⟨x, u, y, hsplit, -⟩
    simp at hsplit
  sent := .never (by simp) rfl

/-- What holds of every step of every run. -/
theorem tilts_coalesced (config : ShootConfig) (gap : ℚ) (es : List LauncherCall)
    (htimes : Chronological LauncherCall.now es) :
    ∀ a t b, trace step (started config gap) es = a ++ t :: b → Coalesced gap a t := by
  intro a t b hsplit
  obtain ⟨es₁, e, es₂, rfl, rfl, rfl, -⟩ := trace_split hsplit
  refine coalesced_step ?_
  refine trace_history (I := Held gap) (fun past t => ∀ r ∈ past, r.event.now ≤ t.event.now)
    (held_started config gap) (fun _ _ _ h hok => held_step h hok) es₁ ?_
  exact fun a t b hinner => le_time_of_split htimes.of_append hinner

/-- The launcher is ready; one page tilts three times within the gap and leaves, and another
tilts. -/
def tiltCalls : List LauncherCall :=
  [⟨0, .setGraph [] true⟩, ⟨0, .setEstopKnown true⟩, ⟨0, .setMotionPermission true⟩,
    ⟨0, .setArbiter (some { labPermitted := true })⟩, ⟨0, .rollerStatus (some {})⟩,
    ⟨0, .shotStatus (some {})⟩, ⟨1 / 10, .tilt 1 (.number 80)⟩,
    ⟨3 / 25, .tilt 1 (.number 70)⟩, ⟨13 / 100, .tilt 1 (.number 60)⟩, ⟨1 / 5, .tick none⟩,
    ⟨21 / 100, .tilt 1 (.number 50)⟩, ⟨11 / 50, .disconnect 1⟩, ⟨3 / 10, .tilt 2 (.number 40)⟩]

theorem tilts_coalesced_tilted :
    (trace step (started {} (3 / 50)) tiltCalls).filterMap tiltSet = [80, 60, 40] ∧
      ∀ a t b, trace step (started {} (3 / 50)) tiltCalls = a ++ t :: b →
        Coalesced (3 / 50) a t :=
  ⟨by decide +kernel, tilts_coalesced {} (3 / 50) tiltCalls (by decide +kernel)⟩

end Launcher

end Questix.LabBridge
