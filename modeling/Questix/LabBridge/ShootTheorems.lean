/-
Questix.LabBridge.ShootTheorems — what a launcher session lets out, and when
it lets a disc go.

Two things are tied to the limits and not looked at again when a status
changes them in mid-session: the tilt target and the spin-up. `Tracked` says
of a step that it does not come to that. In a run of such steps the command is
within the limits (`Kept`), and the times of the session are found again among
the steps before (`History`).
-/
import Questix.LabBridge.ShootEffects

namespace Questix.LabBridge

open Questix.Lib

namespace Launcher

open ShootSession

variable {l : Launcher} {e : LauncherCall} {t : LauncherStep} {client : Client} {now : ℚ}

/-! ## Commands within the limits -/

/-- The session is sound, and a kept tilt target is one of it. -/
structure Kept (l : Launcher) : Prop where
  session : Sound l.session
  pending : ∀ deg token, l.tilts.pending = some (deg, token) →
    l.session.owner ≠ none ∧ l.session.limits.Within deg

/-- The session and the kept tilt target meet the new limits. -/
structure Fits (l : Launcher) (limits : Limits) : Prop where
  session : Suits l.session limits
  pending : ∀ deg token, l.tilts.pending = some (deg, token) → limits.Within deg

instance (l : Launcher) (limits : Limits) : Decidable (Fits l limits) :=
  decidable_of_iff (Suits l.session limits ∧ ∀ kept ∈ l.tilts.pending, limits.Within kept.1)
    ⟨fun h => ⟨h.1, fun deg token hkept => h.2 (deg, token) hkept⟩,
      fun h => ⟨h.session, fun kept hkept => h.pending kept.1 kept.2 hkept⟩⟩

/-- What the step finds of the statuses is what the session goes by: new
limits under a session that goes on are met by it, the roller's status was not
silent while the spin-up was counted, and a disc is asked for with statuses
that are not silent and a spin-up that takes time. -/
def Tracked (l : Launcher) (e : LauncherCall) : Prop :=
  match e.input with
  | .setArbiter (some status) =>
    l.session.owner ≠ none → stands { l.session with arbiter := some status } e.now = true →
      l.session.refuses status = false →
      Fits l (limitsOf (some status) (l.session.shot.map Prod.fst))
  | .shotStatus (some status) =>
    l.session.owner ≠ none → stands { l.session with shot := some (status, e.now) } e.now = true →
      Fits l (limitsOf l.session.arbiter (some status))
  | .rollerStatus (some status) =>
    l.session.rollerConfirmedSince ≠ none →
      showsTurning (some (status, e.now)) l.session.limits.minFirePower = true →
      l.session.rollerFresh e.now = true
  | .fire client true =>
    l.session.owner = some client →
      l.session.rollerFresh e.now = true ∧
        (l.session.shotFresh e.now = true ∨
          l.session.shot.all (fun st => decide (st.1.shooting ≠ .bool true)) = true) ∧
        (0 < l.session.limits.spinUpSec ∨ l.session.rollerConfirmedSince ≠ none)
  | _ => True

instance (l : Launcher) (e : LauncherCall) : Decidable (Tracked l e) := by
  unfold Tracked
  split <;> infer_instance

theorem kept_dropIfIdle (hsound : Sound l.session)
    (hpending : l.session.owner ≠ none → ∀ deg token, l.tilts.pending = some (deg, token) →
      l.session.limits.Within deg) : Kept l.dropIfIdle := by
  unfold dropIfIdle
  split
  · rename_i hactive
    have hdrives : l.session.owner ≠ none := by
      simpa [active, Option.isSome_iff_ne_none] using hactive
    exact ⟨hsound, fun deg token h => ⟨hdrives, hpending hdrives deg token h⟩⟩
  · exact ⟨hsound, fun deg token hkept => by cases hkept⟩

theorem kept_update {s : ShootSession} (h : Kept l) (hsound : Sound s)
    (hlimits : l.session.owner ≠ none → s.owner ≠ none →
      ∀ deg token, l.tilts.pending = some (deg, token) → s.limits.Within deg) :
    Kept (l.update s) := by
  unfold update
  dsimp only
  split
  · refine kept_dropIfIdle hsound fun hdrives deg token hpending => ?_
    exact hlimits (h.pending deg token hpending).1 hdrives deg token hpending
  · rename_i hidle
    refine ⟨hsound, fun deg token hpending => ?_⟩
    have hdrives := (h.pending deg token hpending).1
    simp [active, Option.isSome_iff_ne_none, hdrives] at hidle

theorem kept_update_of_limits {s : ShootSession} (h : Kept l) (hsound : Sound s)
    (hlimits : s.owner ≠ none → s.limits = l.session.limits) : Kept (l.update s) := by
  refine kept_update h hsound fun _ hdrives deg token hpending => ?_
  rw [hlimits hdrives]
  exact (h.pending deg token hpending).2

theorem kept_request {s : ShootSession} (h : Kept l) (hsound : Sound s)
    (hlimits : s.owner ≠ none → s.limits = l.session.limits) :
    Kept (dropIfIdle { l with session := s }) := by
  refine kept_dropIfIdle hsound fun hdrives deg token hpending => ?_
  show s.limits.Within deg
  rw [hlimits hdrives]
  exact (h.pending deg token hpending).2

theorem kept_sendTilt {deg : ℚ} (hsound : Sound l.session)
    (hdeg : l.session.limits.Within deg) : Kept (l.sendTilt deg now).dropIfIdle := by
  have hsession : l.session.owner ≠ none → Sound (l.session.setTilt deg) := fun hdrives =>
    sound_setTilt hsound hdrives hdeg
  unfold sendTilt TiltCoalescer.request
  cases howner : l.session.owner with
  | none =>
    simp only [sessionToken, howner, Option.map_none]
    exact kept_dropIfIdle hsound fun hdrives => absurd howner hdrives
  | some c =>
    simp only [sessionToken, howner, Option.map_some]
    split
    · rename_i hrequest
      split at hrequest
      · cases hrequest
      · cases hrequest
        exact kept_dropIfIdle (hsession (by simp [howner])) fun _ _ _ h => by cases h
    · rename_i hrequest
      split at hrequest
      · cases hrequest
        refine kept_dropIfIdle hsound fun _ deg' token h => ?_
        cases h
        exact hdeg
      · cases hrequest

theorem kept_sendDue (h : Kept l) : Kept (l.sendDue now).1 := by
  unfold sendDue TiltCoalescer.due
  cases hpending : l.tilts.pending with
  | none => exact ⟨h.session, fun deg token hkept => absurd (hpending.symm.trans hkept) nofun⟩
  | some kept =>
    obtain ⟨deg, token⟩ := kept
    obtain ⟨hdrives, hdeg⟩ := h.pending deg token hpending
    have hsame : Kept { l with tilts := { l.tilts with pending := some (deg, token) } } :=
      ⟨h.session, by rintro _ _ ⟨⟩; exact ⟨hdrives, hdeg⟩⟩
    rw [← hpending] at hsame
    dsimp only
    by_cases hsoon : .fin now - l.tilts.sentAt < Dbl.fin l.tilts.gapSec
    · simp only [hsoon, if_true]
      exact hsame
    · simp only [hsoon, if_false]
      split
      · rename_i hsends
        split at hsends
        · cases hsends
        · cases hsends
          exact ⟨sound_setTilt h.session hdrives hdeg, nofun⟩
      · rename_i hdrops
        split at hdrops
        · cases hdrops
          exact ⟨h.session, nofun⟩
        · cases hdrops

theorem kept_end {reason : ShootReason} {by_ : Option Client} (h : Kept l) :
    Kept (dropIfIdle { l with session := l.session.end_ reason by_ now }) :=
  kept_request h (h.session.settles (settles_end _ _)) fun _ => rfl

theorem kept_step (h : Kept l) (htracked : Tracked l e) : Kept (step l e).1 := by
  have hinput : ∀ {s : ShootSession}, Informs l.session s → s.arbiter = l.session.arbiter →
      s.shot = l.session.shot → Kept (l.update (s.updateBlockers e.now)) := by
    intro s hinforms harbiter hshot
    refine kept_update_of_limits h (sound_updateBlockers h.session hinforms harbiter hshot) ?_
    intro _
    have hsettles : Settles s (s.updateBlockers e.now) := settles_updateBlockers
    exact (congrArg Inputs.limits hsettles.inputs).trans hinforms.limits
  cases hcall : e.input with
  | setGraph others subscribed =>
    simp only [step, hcall]
    exact hinput ⟨rfl, rfl, rfl, rfl⟩ rfl rfl
  | setEmergencyStop active =>
    simp only [step, hcall]
    exact hinput ⟨rfl, rfl, rfl, rfl⟩ rfl rfl
  | setEstopKnown known =>
    simp only [step, hcall]
    exact hinput ⟨rfl, rfl, rfl, rfl⟩ rfl rfl
  | setMotionPermission allowed =>
    simp only [step, hcall]
    exact hinput ⟨rfl, rfl, rfl, rfl⟩ rfl rfl
  | setArbiter status =>
    simp only [step, hcall]
    cases status with
    | none =>
      have hidle : Idle (l.session.setArbiter none e.now) := idle_setArbiter_none h.session
      exact kept_update h (sound_setArbiter_of_idle hidle) fun _ hdrives =>
        absurd hidle.owner hdrives
    | some status =>
      simp only [Tracked, hcall] at htracked
      refine kept_update h (sound_setArbiter h.session fun hdrives hstands hrefuses =>
        (htracked hdrives hstands hrefuses).session) fun hbefore hdrives deg token hpending => ?_
      rw [setArbiter_limits]
      refine (htracked hbefore ?_ ?_).pending deg token hpending
      · by_contra hstands
        exact hdrives (idle_setArbiter_blocked h.session (Bool.eq_false_iff.2 hstands)).owner
      · by_contra hrefuses
        exact hdrives (idle_setArbiter_refused h.session (Bool.not_eq_false _ ▸ hrefuses)).owner
  | rollerStatus status =>
    simp only [step, hcall]
    refine kept_update_of_limits h (sound_setRollerStatus h.session status) fun _ => ?_
    exact setRollerStatus_limits status
  | shotStatus status =>
    simp only [step, hcall]
    cases status with
    | none => exact kept_update_of_limits h h.session fun _ => rfl
    | some status =>
      simp only [Tracked, hcall] at htracked
      refine kept_update h (sound_setShotStatus h.session fun hdrives hstands =>
        (htracked hdrives hstands).session) fun hbefore hdrives deg token hpending => ?_
      rw [setShotStatus_limits]
      refine (htracked hbefore ?_).pending deg token hpending
      by_contra hstands
      exact hdrives (idle_setShotStatus_blocked h.session (Bool.eq_false_iff.2 hstands)).owner
  | roller client power =>
    simp only [step, hcall]
    exact kept_request h (sound_rollerTo h.session power) fun _ => rollerTo_limits power
  | tilt client deg =>
    have hsound : Sound (l.session.tiltTo client deg e.now).1 := sound_tiltTo h.session deg
    have hlimits : (l.session.tiltTo client deg e.now).1.limits = l.session.limits :=
      tiltTo_limits deg
    have hwithin : ∀ sent, (l.session.tiltTo client deg e.now).2.2 = some sent →
        (l.session.tiltTo client deg e.now).1.limits.Within sent :=
      fun _ hsent => tiltTo_within h.session hsent
    simp only [step, hcall]
    generalize l.session.tiltTo client deg e.now = r at hsound hlimits hwithin
    obtain ⟨s, refused, _ | sent⟩ := r
    · exact kept_request h hsound fun _ => hlimits
    · exact kept_sendTilt hsound (hwithin sent rfl)
  | fire client confirm =>
    simp only [step, hcall]
    exact kept_request h (sound_fire h.session confirm) fun _ => fire_limits confirm
  | rollerStop client =>
    simp only [step, hcall, ShootSession.stop]
    split
    · exact kept_end h
    · exact kept_request h h.session fun _ => rfl
  | disconnect client =>
    by_cases howner : l.session.owner = some client
    · have hended : l.session.disconnect client e.now =
          (l.session.end_ .disconnected (some client) e.now, true) := if_pos howner
      simp only [step, hcall, hended, if_true]
      exact ⟨h.session.settles (settles_end _ _), fun deg token hkept => by cases hkept⟩
    · have hstays : l.session.disconnect client e.now = (l.session, false) := if_neg howner
      simp only [step, hcall, hstays]
      exact h
  | tick timeout =>
    obtain ⟨published, heq, -⟩ := onTick_eq (l := l) timeout e.now
    simp only [step, hcall, heq]
    refine kept_sendDue (kept_update_of_limits h (sound_tick h.session timeout) fun hdrives => ?_)
    exact tick_limits h.session timeout hdrives

/-! ## The steps before -/

/-- A request of `client` was accepted at `heardAt`. -/
def Heard (past : List LauncherStep) (client : Client) (heardAt : ℚ) : Prop :=
  ∃ u ∈ past, Accepts u client ∧ u.event.now = heardAt

/-- The session of `client` started at `startedAt`, with a request accepted
when nobody had it, and the client has owned it ever since. -/
def StartedSession (past : List LauncherStep) (client : Client) (startedAt : ℚ) : Prop :=
  ∃ a r b, past = a ++ r :: b ∧ r.pre.session.owner = none ∧ Accepts r client ∧
    r.event.now = startedAt ∧ ∀ v ∈ r :: b, v.post.session.owner = some client

/-- The step is a status of the roller. -/
def HearsRoller (t : LauncherStep) : Prop := ∃ status, t.event.input = .rollerStatus (some status)

/-- `client` commands at least the power for a shot, and the roller's status
shows it turning for the lab. -/
def Spins (l : Launcher) (client : Client) : Prop :=
  l.session.owner = some client ∧ l.session.limits.minFirePower ≤ l.session.power ∧
    l.session.turning = true

/-- Since the roller's status at `since` the roller has spun for `client`
without a break, by statuses that were never silent. -/
def SpunUp (past : List LauncherStep) (client : Client) (since : ℚ) : Prop :=
  ∃ a w b, past = a ++ w :: b ∧ HearsRoller w ∧ w.event.now = since ∧
    (∀ v ∈ w :: b, Spins v.post client) ∧
    ∀ v ∈ b, HearsRoller v → v.pre.session.rollerFresh v.event.now = true

/-- What the fields of the session mean for the steps so far. -/
structure History (config : ShootConfig) (past : List LauncherStep) (l : Launcher) : Prop where
  kept : Kept l
  config : l.session.config = config
  heard : ∀ client, l.session.owner = some client → Heard past client l.session.heardAt
  started : ∀ client, l.session.owner = some client →
    StartedSession past client l.session.startedAt
  spun : ∀ client since, l.session.owner = some client →
    l.session.rollerConfirmedSince = some since → SpunUp past client since
  fired : ∀ u ∈ past, Fires u → ∃ last, l.session.lastFireAt = some last ∧ u.event.now ≤ last
  waits : ∀ u ∈ past, ∀ wait, reportedWait u.event.input = some wait → 0 < wait →
    ∃ at_, l.session.fireReadyAt = some at_ ∧ u.event.now + wait ≤ at_

variable {config : ShootConfig} {past : List LauncherStep}

theorem StartedSession.snoc {startedAt : ℚ} (h : StartedSession past client startedAt)
    (howner : t.post.session.owner = some client) :
    StartedSession (past ++ [t]) client startedAt := by
  obtain ⟨a, r, b, rfl, hidle, haccepts, hstarted, howned⟩ := h
  refine ⟨a, r, b ++ [t], by simp, hidle, haccepts, hstarted, ?_⟩
  rw [← List.cons_append]
  exact List.forall_mem_append.2 ⟨howned, List.forall_mem_singleton.2 howner⟩

theorem SpunUp.snoc {since : ℚ} (h : SpunUp past client since) (hspins : Spins t.post client)
    (hfresh : HearsRoller t → t.pre.session.rollerFresh t.event.now = true) :
    SpunUp (past ++ [t]) client since := by
  obtain ⟨a, w, b, rfl, hhears, hsince, hspun, hheard⟩ := h
  refine ⟨a, w, b ++ [t], by simp, hhears, hsince, ?_, ?_⟩
  · rw [← List.cons_append]
    exact List.forall_mem_append.2 ⟨hspun, List.forall_mem_singleton.2 hspins⟩
  · exact List.forall_mem_append.2 ⟨hheard, List.forall_mem_singleton.2 hfresh⟩

theorem spins_of_confirmed (h : Sound l.session) (howner : l.session.owner = some client)
    (hconfirmed : l.session.rollerConfirmedSince ≠ none) : Spins l client :=
  ⟨howner, h.spinning (h.confirmed hconfirmed).1, (h.confirmed hconfirmed).2⟩

theorem turning_step {status : RollerStatus} (hinput : e.input = .rollerStatus (some status)) :
    (step l e).1.session.turning =
      showsTurning (some (status, e.now)) l.session.limits.minFirePower := by
  have hsession : (step l e).1.session = l.session.setRollerStatus (some status) e.now := by
    simp only [step, hinput, session_update]
  rw [hsession, turning, setRollerStatus_roller, setRollerStatus_limits]

theorem spun_step (hpast : History config past l) (hkept : Kept (step l e).1)
    (htracked : Tracked l e) {since : ℚ} (howner : (step l e).1.session.owner = some client)
    (hsince : (step l e).1.session.rollerConfirmedSince = some since) :
    SpunUp (past ++ [stepOf step l e]) client since := by
  have heffect : Effect (stepOf step l e) := effect_step
  have hspins : Spins (step l e).1 client :=
    spins_of_confirmed hkept.session howner (by simp [hsince])
  rcases heffect.confirmed hsince with hbefore | ⟨hhears, hnow⟩
  · have hdrives : l.session.owner = some client := by
      rcases heffect.started howner with ⟨hidle, -, -⟩ | ⟨hown, -⟩
      · have hnone := (hpast.kept.session.idle hidle).confirmed
        cases hnone.symm.trans hbefore
      · exact hown
    refine (hpast.spun client since hdrives hbefore).snoc hspins ?_
    rintro ⟨status, hinput⟩
    have hinput : e.input = .rollerStatus (some status) := hinput
    have hbefore : l.session.rollerConfirmedSince = some since := hbefore
    have hturning := hspins.2.2
    rw [turning_step hinput] at hturning
    simp only [Tracked, hinput] at htracked
    exact htracked (by simp [hbefore]) hturning
  · refine ⟨past, stepOf step l e, [], rfl, hhears, hnow.symm, ?_, by simp⟩
    intro v hv
    rw [List.mem_singleton.1 hv]
    exact hspins

theorem history_step (h : History config past l) (htracked : Tracked l e)
    (htime : ∀ r ∈ past, r.event.now ≤ e.now) :
    History config (past ++ [stepOf step l e]) (step l e).1 := by
  have heffect : Effect (stepOf step l e) := effect_step
  have hkept := kept_step h.kept htracked
  refine ⟨hkept, heffect.config.trans h.config, ?_, ?_, ?_, ?_, ?_⟩
  · intro client howner
    rcases heffect.heard howner with ⟨haccepts, hheard⟩ | ⟨hown, hheard⟩
    · exact ⟨stepOf step l e, by simp, haccepts, hheard.symm⟩
    · obtain ⟨u, hu, haccepts, hnow⟩ := h.heard client hown
      exact ⟨u, by simp [hu], haccepts, hnow.trans hheard.symm⟩
  · intro client howner
    rcases heffect.started howner with ⟨hidle, haccepts, hstarted⟩ | ⟨hown, hstarted⟩
    · refine ⟨past, stepOf step l e, [], rfl, hidle, haccepts, hstarted.symm, ?_⟩
      intro v hv
      rw [List.mem_singleton.1 hv]
      exact howner
    · have hbefore := (h.started client hown).snoc (t := stepOf step l e) howner
      have hstarted : (step l e).1.session.startedAt = l.session.startedAt := hstarted
      rw [hstarted]
      exact hbefore
  · intro client since howner hsince
    exact spun_step h hkept htracked howner hsince
  · intro u hu hfires
    rcases heffect.counted with ⟨hnow, -, hlast⟩ | ⟨hquiet, -, hlast⟩
    · refine ⟨e.now, hlast, ?_⟩
      rcases List.mem_append.1 hu with hu | hu
      · exact htime u hu
      · rw [List.mem_singleton.1 hu]
        exact le_rfl
    · rcases List.mem_append.1 hu with hu | hu
      · obtain ⟨last, hlast', hle⟩ := h.fired u hu hfires
        exact ⟨last, hlast.trans hlast', hle⟩
      · rw [List.mem_singleton.1 hu] at hfires
        exact absurd hfires hquiet
  · intro u hu wait hwait hpos
    rcases List.mem_append.1 hu with hu | hu
    · obtain ⟨at_, hat, hle⟩ := h.waits u hu wait hwait hpos
      obtain ⟨at', hat', hle'⟩ := heffect.ready hat
      exact ⟨at', hat', hle.trans hle'⟩
    · rw [List.mem_singleton.1 hu] at hwait ⊢
      exact heffect.waits wait hwait hpos

theorem history_create (config : ShootConfig) : History config [] (create config) := by
  have hsettles : Settles { config := config } (ShootSession.create config) :=
    settles_updateBlockers
  have hidle : (ShootSession.create config).owner = none := by
    rcases hsettles.run with ⟨hrun, -⟩ | hidle
    · exact congrArg Run.owner hrun
    · exact hidle.owner
  refine ⟨⟨sound_create config, nofun⟩, congrArg Inputs.config hsettles.inputs, ?_, ?_, ?_, by simp,
    by simp⟩
  · intro client howner
    cases hidle.symm.trans howner
  · intro client howner
    cases hidle.symm.trans howner
  · intro client since howner
    cases hidle.symm.trans howner

/-! ## What a tick lets out -/

/-- A command of the tick `t` after the steps `past`: within the limits, and
with power only for an owner that was heard of, with nothing blocking, in a
session that is not too old. -/
structure Offered (config : ShootConfig) (past : List LauncherStep) (t : LauncherStep)
    (command : ShootCommand) : Prop where
  power : 0 ≤ command.power ∧ command.power ≤ t.post.session.limits.maxPower
  tilt : ∀ deg, command.tilt = some deg → t.post.session.limits.Within deg
  spins : 0 < command.power → t.post.session.blockers = [] ∧
    t.post.session.stands t.event.now = true ∧
    ∃ client heardAt startedAt, t.post.session.owner = some client ∧
      Heard past client heardAt ∧ ¬ config.deadmanSec < .fin (t.event.now - heardAt) ∧
      StartedSession past client startedAt ∧
      ¬ config.maxSpinSec < .fin (t.event.now - startedAt)

theorem sendDue_session (h : Kept l) (now : ℚ) :
    (l.sendDue now).2 = none ∧ (l.sendDue now).1.session = l.session ∨
      l.session.owner ≠ none ∧ ∃ deg, (l.sendDue now).1.session = l.session.setTilt deg := by
  unfold sendDue TiltCoalescer.due
  cases hpending : l.tilts.pending with
  | none => exact .inl ⟨rfl, rfl⟩
  | some kept =>
    obtain ⟨deg, token⟩ := kept
    have hdrives := (h.pending deg token hpending).1
    split
    · exact .inr ⟨hdrives, _, rfl⟩
    · exact .inl ⟨rfl, rfl⟩

theorem tick_step (h : Kept l) {timeout : Option Dbl} (hinput : e.input = .tick timeout) :
    ((step l e).1.session = (l.session.tick timeout e.now).1 ∨
      ∃ deg, (step l e).1.session = (l.session.tick timeout e.now).1.setTilt deg) ∧
    ∃ published, (step l e).2 = .ticked (l.session.tick timeout e.now).2 published ∧
      (published = (l.session.tick timeout e.now).2 ∨
        published = some (step l e).1.session.command ∧ (step l e).1.session.owner ≠ none) := by
  obtain ⟨published, heq, hpublished⟩ := onTick_eq (l := l) timeout e.now
  have hticked : Kept (l.update (l.session.tick timeout e.now).1) :=
    kept_update_of_limits h (sound_tick h.session timeout)
      fun hdrives => tick_limits h.session timeout hdrives
  have hsent := sendDue_session hticked e.now
  rw [session_update] at hsent
  simp only [step, hinput, heq]
  rcases hsent with ⟨hnone, hsame⟩ | ⟨hdrives, deg, hsame⟩
  · refine ⟨.inl hsame, published, rfl, .inl ?_⟩
    rcases hpublished with hreturned | ⟨-, hsends⟩
    · exact hreturned
    · exact absurd hnone hsends
  · refine ⟨.inr ⟨deg, hsame⟩, published, rfl, ?_⟩
    rcases hpublished with hreturned | ⟨hcommand, -⟩
    · exact .inl hreturned
    · refine .inr ⟨hcommand, ?_⟩
      rw [hsame]
      exact hdrives

theorem tick_fields (h : Kept l) {timeout : Option Dbl} (hinput : e.input = .tick timeout) :
    (step l e).1.session.owner = (l.session.tick timeout e.now).1.owner ∧
      (step l e).1.session.limits = (l.session.tick timeout e.now).1.limits ∧
      (step l e).1.session.power = (l.session.tick timeout e.now).1.power ∧
      (step l e).1.session.stands e.now = (l.session.tick timeout e.now).1.stands e.now := by
  rcases (tick_step h hinput).1 with hsame | ⟨deg, hsame⟩
  · rw [hsame]
    exact ⟨rfl, rfl, rfl, rfl⟩
  · rw [hsame]
    exact ⟨rfl, rfl, rfl, rfl⟩

theorem offered_of_active {command : ShootCommand} (h : History config past l)
    (hkept : Kept (step l e).1) {timeout : Option Dbl} (hinput : e.input = .tick timeout)
    (hpower : command.power = (step l e).1.session.power)
    (htilt : ∀ deg, command.tilt = some deg → (step l e).1.session.limits.Within deg)
    (hdrives : (step l e).1.session.owner ≠ none) :
    Offered config past (stepOf step l e) command where
  power := by
    rw [hpower]
    exact hkept.session.power
  tilt := htilt
  spins _ := by
    obtain ⟨howner, -, -, hsame⟩ := tick_fields h.kept hinput
    obtain ⟨hrun, hstands, hheard, hyoung⟩ :=
      tick_active h.kept.session timeout (howner ▸ hdrives)
    obtain ⟨client, hclient⟩ := Option.ne_none_iff_exists'.1 hdrives
    have hbefore : l.session.owner = some client :=
      ((congrArg Run.owner hrun).symm.trans howner.symm).trans hclient
    rw [h.config] at hheard hyoung
    exact ⟨blockers_eq_nil.2 (hkept.session.clear hdrives), hsame.trans hstands, client,
      l.session.heardAt, l.session.startedAt, hclient, h.heard client hbefore, hheard,
      h.started client hbefore, hyoung⟩

theorem offered_zero {fireSeq : ℕ} (hkept : Kept t.post) :
    Offered config past t ⟨0, none, fireSeq⟩ where
  power := ⟨le_rfl, hkept.session.power.1.trans hkept.session.power.2⟩
  tilt := nofun
  spins h := absurd h (lt_irrefl 0)

theorem offered_returned {command : ShootCommand} (h : History config past l)
    (hkept : Kept (step l e).1) {timeout : Option Dbl} (hinput : e.input = .tick timeout)
    (hreturned : (l.session.tick timeout e.now).2 = some command) :
    Offered config past (stepOf step l e) command := by
  obtain ⟨howner, hlimits, hpower, -⟩ := tick_fields h.kept hinput
  have hpublished : (l.session.tick timeout e.now).1.published e.now = some command := hreturned
  unfold published at hpublished
  split at hpublished
  · rename_i hactive
    have hdrives : (l.session.tick timeout e.now).1.owner ≠ none := by
      simpa [active, Option.isSome_iff_ne_none] using hactive
    cases hpublished
    refine offered_of_active h hkept hinput hpower.symm ?_ (howner ▸ hdrives)
    intro deg hdeg
    rw [hlimits]
    exact (sound_tick h.kept.session timeout).tilt deg hdeg
  · split at hpublished
    · cases hpublished
      exact offered_zero (t := stepOf step l e) hkept
    · cases hpublished

theorem offered_step {returned published : Option ShootCommand} {command : ShootCommand}
    (h : History config past l) (htracked : Tracked l e)
    (hout : (step l e).2 = .ticked returned published)
    (hcommand : returned = some command ∨ published = some command) :
    Offered config past (stepOf step l e) command := by
  have hkept := kept_step h.kept htracked
  cases hinput : e.input with
  | tick timeout =>
    obtain ⟨-, sent, hanswer, hsent⟩ := tick_step h.kept hinput
    rw [hanswer, LauncherAnswer.ticked.injEq] at hout
    rcases hcommand with hcommand | hcommand
    · exact offered_returned h hkept hinput (hout.1.trans hcommand)
    · rcases hsent with hsame | ⟨hsame, hdrives⟩
      · exact offered_returned h hkept hinput ((hsame.symm.trans hout.2).trans hcommand)
      · cases (hsame.symm.trans hout.2).trans hcommand
        exact offered_of_active h hkept hinput rfl hkept.session.tilt hdrives
  | tilt client deg =>
    simp only [step, hinput] at hout
    split at hout <;> cases hout
  | _ => simp [step, hinput] at hout

/-! ## Shots -/

/-- What a shot of the step `t` after the steps `past` was let go on. -/
structure Shot (past : List LauncherStep) (t : LauncherStep) (client : Client) (confirm : Bool) :
    Prop where
  confirm : confirm = true
  owner : t.pre.session.owner = some client
  spun : ∃ since, SpunUp past client since ∧
    since + t.pre.session.limits.spinUpSec ≤ t.event.now
  fresh : t.pre.session.rollerFresh t.event.now = true
  still : t.pre.session.shot.all (fun st => decide (st.1.shooting ≠ .bool true)) = true
  own : ∀ u ∈ past, Fires u →
    u.event.now + t.pre.session.limits.fireIntervalSec ≤ t.event.now
  reported : ∀ u ∈ past, ∀ wait, reportedWait u.event.input = some wait →
    u.event.now + wait ≤ t.event.now

theorem shot_step {confirm : Bool} (h : History config past l) (htracked : Tracked l e)
    (htime : ∀ r ∈ past, r.event.now ≤ e.now) (hinput : e.input = .fire client confirm)
    (hout : (step l e).2 = .asked none) : Shot past (stepOf step l e) client confirm := by
  have heffect : Effect (stepOf step l e) := effect_step
  obtain ⟨-, hconfirm, howner, ⟨wait, hspin, hwait⟩, hstill, hinterval⟩ :=
    heffect.cleared hinput hout
  subst hconfirm
  have howner : l.session.owner = some client := howner
  have hspin : l.session.spinReadyIn e.now = some wait := hspin
  have hstill : l.session.shooting e.now = false := hstill
  have hinterval : l.session.nextFireIn e.now ≤ 0 := hinterval
  simp only [Tracked, hinput] at htracked
  obtain ⟨hfresh, hshot, hcounts⟩ := htracked howner
  simp only [nextFireIn, max_le_iff] at hinterval
  refine ⟨rfl, howner, ?_, hfresh, ?_, ?_, ?_⟩
  · simp only [spinReadyIn, howner] at hspin
    split at hspin
    · rename_i spinning owner hspinning hsome
      split at hspin
      · rename_i hnone
        cases hspin
        rcases hcounts with hpos | hconfirmed
        · exact absurd hwait (not_le.2 hpos)
        · exact absurd hnone hconfirmed
      · rename_i since hsince
        cases hspin
        refine ⟨since, h.spun client since howner hsince, ?_⟩
        have hready := (max_le_iff.1 hwait).2
        have hlater := le_max_right spinning since
        show since + l.session.limits.spinUpSec ≤ e.now
        linarith
    · cases hspin
  · show l.session.shot.all _ = true
    rcases hshot with hfreshShot | hquiet
    · cases hheard : l.session.shot with
      | none => rfl
      | some status =>
        simp only [shooting, hfreshShot, hheard] at hstill
        simpa using hstill
    · exact hquiet
  · intro u hu hfires
    obtain ⟨last, hlast, hle⟩ := h.fired u hu hfires
    have hpassed := hinterval.2.1
    simp only [hlast, Option.elim_some] at hpassed
    show u.event.now + l.session.limits.fireIntervalSec ≤ e.now
    linarith
  · intro u hu wait hreported
    show u.event.now + wait ≤ e.now
    by_cases hpos : 0 < wait
    · obtain ⟨at_, hat, hle⟩ := h.waits u hu wait hreported hpos
      have hpassed := hinterval.2.2
      simp only [hat, Option.elim_some] at hpassed
      linarith
    · have hbefore := htime u hu
      linarith

/-! ## Runs of the launcher -/

/-- The rules of the launcher hold in the run. -/
structure Safe (config : ShootConfig) (es : List LauncherCall) : Prop where
  tick : ∀ a t b, trace step (create config) es = a ++ t :: b →
    ∀ returned published, t.out = .ticked returned published →
      ∀ command, returned = some command ∨ published = some command → Offered config a t command
  fire : ∀ a t b, trace step (create config) es = a ++ t :: b →
    ∀ client confirm, t.event.input = .fire client confirm → t.out = .asked none →
      Shot a t client confirm
  counted : ∀ t ∈ trace step (create config) es,
    (Fires t → t.post.session.fireSeq = t.pre.session.fireSeq + 1) ∧
      (¬ Fires t → t.post.session.fireSeq = t.pre.session.fireSeq)

/-- In every run whose steps find the statuses to be what the session goes by. -/
theorem launcher_safe (config : ShootConfig) (es : List LauncherCall)
    (htimes : Chronological LauncherCall.now es)
    (htracked : ∀ t ∈ trace step (create config) es, Tracked t.pre t.event) : Safe config es := by
  have hhistory : ∀ a t b, trace step (create config) es = a ++ t :: b →
      History config a t.pre ∧ t = stepOf step t.pre t.event ∧ Tracked t.pre t.event ∧
        ∀ r ∈ a, r.event.now ≤ t.event.now := by
    intro a t b hsplit
    have htime := le_time_of_split htimes hsplit
    have hthis := htracked t (by simp [hsplit])
    obtain ⟨es₁, e, es₂, rfl, rfl, rfl, -⟩ := trace_split hsplit
    refine ⟨?_, rfl, hthis, htime⟩
    refine trace_history (I := History config)
      (fun past t => Tracked t.pre t.event ∧ ∀ r ∈ past, r.event.now ≤ t.event.now)
      (history_create config) (fun _ _ _ h hok => history_step h hok.1 hok.2) es₁ ?_
    intro a t b hinner
    refine ⟨htracked t ?_, ?_⟩
    · rw [hsplit, hinner]
      simp
    · exact le_time_of_split htimes.of_append hinner
  refine ⟨?_, ?_, ?_⟩
  · intro a t b hsplit returned published hout command hcommand
    obtain ⟨h, ht, htracked', -⟩ := hhistory a t b hsplit
    rw [ht] at hout ⊢
    exact offered_step h htracked' hout hcommand
  · intro a t b hsplit client confirm hinput hout
    obtain ⟨h, ht, htracked', htime⟩ := hhistory a t b hsplit
    rw [ht] at hout ⊢
    exact shot_step h htracked' htime hinput hout
  · intro t ht
    have heffect : Effect t := by
      rw [eq_stepOf_of_mem_trace ht]
      exact effect_step
    rcases heffect.counted with ⟨hfires, hseq, -⟩ | ⟨hquiet, hseq, -⟩
    · exact ⟨fun _ => hseq, fun hnot => absurd hfires hnot⟩
    · exact ⟨fun hfires => absurd hfires hquiet, fun _ => hseq⟩

/-- The launcher is ready, with its tilt up to 120°. -/
def readyCalls : List LauncherCall :=
  [⟨0, .setGraph [] true⟩, ⟨0, .setEstopKnown true⟩, ⟨0, .setMotionPermission true⟩,
    ⟨0, .setArbiter (some { labPermitted := true, spinUpSec := some (1 / 2) })⟩,
    ⟨0, .rollerStatus (some {})⟩, ⟨0, .shotStatus (some {})⟩]

/-- The roller shown turning for the lab. -/
def turningStatus : RollerStatus := { source := "lab", command := .number (.fin (3 / 5)) }

/-- A page spins the roller up, tilts, and lets a disc go. -/
def shotCalls : List LauncherCall := readyCalls ++
  [⟨1 / 10, .roller 1 (.number (.fin (3 / 5)))⟩, ⟨1 / 5, .rollerStatus (some turningStatus)⟩,
    ⟨3 / 10, .tilt 1 (.number 80)⟩, ⟨2 / 5, .shotStatus (some { tiltMaxDeg := .number 90 })⟩,
    ⟨7 / 10, .rollerStatus (some turningStatus)⟩, ⟨4 / 5, .fire 1 true⟩, ⟨4 / 5, .tick none⟩]

theorem launcher_safe_shot : Safe {} shotCalls :=
  launcher_safe {} shotCalls (by decide +kernel) (by decide +kernel)

/-- The tick returns a tilt target above the range it reports. -/
def exceedsTilt (t : LauncherStep) : Bool :=
  match t.out with
  | .ticked (some command) _ =>
    command.tilt.any fun deg => decide (t.post.session.limits.tiltMax < deg)
  | _ => false

theorem Safe.exceedsTilt {es : List LauncherCall} (h : Safe config es) :
    ∀ t ∈ trace step (create config) es, exceedsTilt t = false := by
  intro t ht
  obtain ⟨a, b, hsplit⟩ := List.append_of_mem ht
  unfold Launcher.exceedsTilt
  split
  · rename_i command published hout
    have htilt := (h.tick a t b hsplit _ _ hout command (.inl rfl)).tilt
    cases hcommand : command.tilt with
    | none => rfl
    | some deg => simpa using (htilt deg hcommand).2
  · rfl

/-- The target is at 100° when the shot node narrows its range to 50°. -/
def narrowedCalls : List LauncherCall := readyCalls ++
  [⟨1 / 10, .tilt 1 (.number 100)⟩, ⟨1 / 5, .shotStatus (some { tiltMaxDeg := .number 50 })⟩,
    ⟨1 / 5, .tick none⟩]

theorem launcher_narrowed :
    ¬ ∀ config es, Chronological LauncherCall.now es → Safe config es := by
  intro h
  have hsafe := (h {} narrowedCalls (by decide +kernel)).exceedsTilt
  have hexceeds : ∃ t ∈ trace step (create {}) narrowedCalls, exceedsTilt t = true := by
    decide +kernel
  obtain ⟨t, ht, hexceeds⟩ := hexceeds
  rw [hsafe t ht] at hexceeds
  cases hexceeds

end Launcher

end Questix.LabBridge
