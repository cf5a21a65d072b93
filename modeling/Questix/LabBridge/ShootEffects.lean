/-
Questix.LabBridge.ShootEffects — what a call does to a launcher session.

A call changes the session in a few named places (`Source`), and then the
session at most ends, or a wait is counted (`Continues`). What that means for
each field is read off at the end (`Effect.heard` and the others), and the
results about runs use nothing else of the calls.
-/
import Questix.Lib.Trace
import Questix.LabBridge.ShootSteps

namespace Questix.LabBridge

open Questix.Lib

namespace ShootSession

variable {s s' s'' : ShootSession} {client : Client} {now : ℚ}

/-! ## Changes that start nothing -/

/-- The session goes on as it was, or ends; no shot is counted, and no wait is
shortened. -/
structure Continues (s s' : ShootSession) : Prop where
  config : s'.config = s.config
  fireSeq : s'.fireSeq = s.fireSeq
  lastFireAt : s'.lastFireAt = s.lastFireAt
  ready : ∀ at_, s.fireReadyAt = some at_ → ∃ at', s'.fireReadyAt = some at' ∧ at_ ≤ at'
  run : s'.owner = none ∨
    s'.owner = s.owner ∧ s'.heardAt = s.heardAt ∧ s'.startedAt = s.startedAt
  confirmed : s'.rollerConfirmedSince = none ∨ s'.rollerConfirmedSince = s.rollerConfirmedSince

theorem Continues.of_frame (hrun : s'.run = s.run) (hconfig : s'.config = s.config)
    (hseq : s'.fireSeq = s.fireSeq) (hlast : s'.lastFireAt = s.lastFireAt)
    (hready : s'.fireReadyAt = s.fireReadyAt) : Continues s s' where
  config := hconfig
  fireSeq := hseq
  lastFireAt := hlast
  ready at_ hat := ⟨at_, hready.trans hat, le_rfl⟩
  run := .inr ⟨congrArg Run.owner hrun, congrArg Run.heardAt hrun, congrArg Run.startedAt hrun⟩
  confirmed := .inr (congrArg Run.rollerConfirmedSince hrun)

theorem Continues.refl (s : ShootSession) : Continues s s := .of_frame rfl rfl rfl rfl rfl

theorem Continues.trans (h : Continues s s') (h' : Continues s' s'') : Continues s s'' where
  config := h'.config.trans h.config
  fireSeq := h'.fireSeq.trans h.fireSeq
  lastFireAt := h'.lastFireAt.trans h.lastFireAt
  ready at_ hat := by
    obtain ⟨at', hat', hle⟩ := h.ready at_ hat
    obtain ⟨at'', hat'', hle'⟩ := h'.ready at' hat'
    exact ⟨at'', hat'', hle.trans hle'⟩
  run := by
    rcases h'.run with hnone | ⟨howner', hheard', hstarted'⟩
    · exact .inl hnone
    · rcases h.run with hnone | ⟨howner, hheard, hstarted⟩
      · exact .inl (howner'.trans hnone)
      · exact .inr ⟨howner'.trans howner, hheard'.trans hheard, hstarted'.trans hstarted⟩
  confirmed := by
    rcases h'.confirmed with hnone | hsame'
    · exact .inl hnone
    · rcases h.confirmed with hnone | hsame
      · exact .inl (hsame'.trans hnone)
      · exact .inr (hsame'.trans hsame)

theorem Settles.follows (h : Settles s s') : Continues s s' where
  config := congrArg Inputs.config h.inputs
  fireSeq := congrArg Inputs.fireSeq h.inputs
  lastFireAt := congrArg Inputs.lastFireAt h.inputs
  ready at_ hat := ⟨at_, (congrArg Inputs.fireReadyAt h.inputs).trans hat, le_rfl⟩
  run := by
    rcases h.run with ⟨hrun, -⟩ | hidle
    · exact .inr ⟨congrArg Run.owner hrun, congrArg Run.heardAt hrun, congrArg Run.startedAt hrun⟩
    · exact .inl hidle.owner
  confirmed := by
    rcases h.run with ⟨hrun, -⟩ | hidle
    · exact .inr (congrArg Run.rollerConfirmedSince hrun)
    · exact .inl hidle.confirmed

theorem follows_updateBlockers : Continues s (s.updateBlockers now) := settles_updateBlockers.follows

theorem follows_update (hrun : s'.run = s.run) (hconfig : s'.config = s.config)
    (hseq : s'.fireSeq = s.fireSeq) (hlast : s'.lastFireAt = s.lastFireAt)
    (hready : s'.fireReadyAt = s.fireReadyAt) : Continues s (s'.updateBlockers now) :=
  (Continues.of_frame hrun hconfig hseq hlast hready).trans follows_updateBlockers

theorem follows_setPower (power : ℚ) : Continues s (s.setPower power now) := by
  unfold setPower
  split
  · exact ⟨rfl, rfl, rfl, fun at_ h => ⟨at_, h, le_rfl⟩, .inr ⟨rfl, rfl, rfl⟩, .inr rfl⟩
  · exact ⟨rfl, rfl, rfl, fun at_ h => ⟨at_, h, le_rfl⟩, .inr ⟨rfl, rfl, rfl⟩, .inl rfl⟩

theorem follows_updateLimits : Continues s s.updateLimits := by
  have hlimits : ∀ limits, Continues s { s with limits := limits } := fun _ =>
    .of_frame rfl rfl rfl rfl rfl
  unfold updateLimits
  dsimp only
  split
  · exact .refl s
  · split
    · exact (hlimits _).trans (follows_setPower _)
    · exact hlimits _

theorem follows_awaitInterval (wait : Option ℚ) : Continues s (s.awaitInterval wait now) ∧
    ∀ w, wait = some w → 0 < w →
      ∃ at_, (s.awaitInterval wait now).fireReadyAt = some at_ ∧ now + w ≤ at_ := by
  cases wait with
  | none => exact ⟨.refl s, nofun⟩
  | some w =>
    unfold awaitInterval
    dsimp only
    split
    · refine ⟨⟨rfl, rfl, rfl, ?_, .inr ⟨rfl, rfl, rfl⟩, .inr rfl⟩, ?_⟩
      · intro at_ hat
        exact ⟨max at_ (now + w), by simp [hat], le_max_left _ _⟩
      · rintro _ ⟨⟩ -
        cases hready : s.fireReadyAt with
        | none => exact ⟨now + w, by simp, le_rfl⟩
        | some at_ => exact ⟨max at_ (now + w), by simp, le_max_right _ _⟩
    · rename_i hpos
      refine ⟨.refl s, ?_⟩
      rintro _ ⟨⟩ hpos'
      exact absurd hpos' hpos

theorem follows_keepStatus (status : Option ArbiterStatus) :
    Continues s (s.keepStatus status now) := by
  have harbiter : ∀ arbiter at_, Continues s { s with arbiter := arbiter, arbiterAt := at_ } :=
    fun _ _ => .of_frame rfl rfl rfl rfl rfl
  cases status with
  | none => exact harbiter none _
  | some status => exact (harbiter _ _).trans (follows_awaitInterval _).1

theorem follows_followArbiter (status : ArbiterStatus) :
    Continues s (s.followArbiter status now) := by
  unfold followArbiter
  split
  · exact .refl s
  · split
    · exact (settles_end _ _).follows
    · exact .refl s

theorem follows_keptStatus (status : Option ArbiterStatus) :
    Continues (s.keepStatus status now) (s.setArbiter status now) := by
  have hheard : Continues (s.keepStatus status now) (s.heardArbiter status now) :=
    follows_updateLimits.trans follows_updateBlockers
  cases status with
  | none => exact hheard
  | some status =>
    rw [setArbiter_some]
    split
    · exact hheard.trans (follows_followArbiter status)
    · exact hheard

theorem follows_setArbiter (status : Option ArbiterStatus) :
    Continues s (s.setArbiter status now) :=
  (follows_keepStatus status).trans (follows_keptStatus status)

theorem follows_setShotStatus (status : Option ShotStatus) :
    Continues s (s.setShotStatus status now) := by
  cases status with
  | none => exact .refl s
  | some status =>
    have hshot : ∀ s : ShootSession, Continues s { s with shot := some (status, now) } := fun _ =>
      .of_frame rfl rfl rfl rfl rfl
    exact (((follows_awaitInterval _).1.trans (hshot _)).trans follows_updateLimits).trans
      follows_updateBlockers

theorem follows_confirmation : Continues s (s.updateRollerConfirmation now) ∨
    s.updateRollerConfirmation now =
      { s with rollerConfirmedSince := some (s.rollerConfirmedSince.getD now) } := by
  unfold updateRollerConfirmation
  split
  · exact .inr rfl
  · exact .inl ⟨rfl, rfl, rfl, fun at_ h => ⟨at_, h, le_rfl⟩, .inr ⟨rfl, rfl, rfl⟩, .inl rfl⟩

theorem follows_setRollerStatus (status : RollerStatus) :
    Continues s (s.setRollerStatus (some status) now) ∨
      Continues { s with rollerConfirmedSince := some (s.rollerConfirmedSince.getD now) }
        (s.setRollerStatus (some status) now) := by
  have hroller : ∀ s : ShootSession, Continues s { s with roller := some (status, now) } := fun _ =>
    .of_frame rfl rfl rfl rfl rfl
  rcases follows_confirmation (s := { s with roller := some (status, now) }) with h | h
  · exact .inl (((hroller s).trans h).trans follows_updateBlockers)
  · have hconfirmed : Continues
        { s with rollerConfirmedSince := some (s.rollerConfirmedSince.getD now) }
        (ShootSession.updateRollerConfirmation { s with roller := some (status, now) } now) := by
      rw [h]
      exact hroller _
    exact .inr (hconfirmed.trans follows_updateBlockers)

theorem follows_tick (timeout : Option Dbl) : Continues s (s.tick timeout now).1 := by
  have hforgotten : Continues s (s.forgetArbiter timeout now) := by
    unfold forgetArbiter
    split
    · split
      · exact follows_setArbiter none
      · exact .refl s
    · exact .refl s
  exact (hforgotten.trans follows_updateBlockers).trans settles_expire.follows

theorem follows_setTilt (deg : ℚ) : Continues s (s.setTilt deg) :=
  ⟨rfl, rfl, rfl, fun at_ h => ⟨at_, h, le_rfl⟩, .inr ⟨rfl, rfl, rfl⟩, .inr rfl⟩

/-! ## Requests -/

/-- What becomes of a request for power or tilt: it is refused, or the client
is the owner now. -/
inductive Answered (s : ShootSession) (client : Client) (now : ℚ) :
    ShootSession × Option ShootRefusal → Prop
  | refused (refusal : ShootRefusal) (s' : ShootSession) (h : Continues s s') :
      Answered s client now (s', some refusal)
  | begun (s' : ShootSession) (hfree : s.owner = none ∨ s.owner = some client)
      (h : Continues (s.begin_ client now) s') : Answered s client now (s', none)

theorem follows_refuseNumber : Continues s (s.refuseNumber client now) := by
  unfold refuseNumber
  split
  · exact (settles_end _ _).follows
  · exact .refl s

theorem answered_rollerTo (power : Value) :
    Answered s client now (s.rollerTo client power now) := by
  unfold rollerTo
  cases hadmitted : s.admit_ client now with
  | some refused => exact .refused refused s (.refl s)
  | none =>
    cases number power with
    | none => exact .refused _ _ follows_refuseNumber
    | some power => exact .begun _ (admit_eq_none hadmitted).2 (follows_setPower _)

theorem answered_tiltTo (deg : Value) :
    Answered s client now ((s.tiltTo client deg now).1, (s.tiltTo client deg now).2.1) := by
  unfold tiltTo
  cases hadmitted : s.admit_ client now with
  | some refused => exact .refused refused s (.refl s)
  | none =>
    cases number deg with
    | none => exact .refused _ _ follows_refuseNumber
    | some deg =>
      dsimp only
      split
      · exact .refused _ _ (.refl s)
      · exact .begun _ (admit_eq_none hadmitted).2 (.refl _)

/-- What a shot needs at the moment it is asked for. -/
structure Cleared (s : ShootSession) (client : Client) (confirm : Bool) (now : ℚ) : Prop where
  clear : s.Clear
  confirm : confirm = true
  owner : s.owner = some client
  spin : ∃ wait, s.spinReadyIn now = some wait ∧ wait ≤ 0
  still : s.shooting now = false
  interval : s.nextFireIn now ≤ 0

theorem fire_accepted {confirm : Bool} (h : (s.fire client confirm now).2 = none) :
    Cleared s client confirm now ∧ (s.fire client confirm now).1 =
      { s with heardAt := now, lastFireAt := some now, fireSeq := s.fireSeq + 1 } := by
  unfold fire at h ⊢
  cases hadmitted : s.admit_ client now with
  | some refused => simp [hadmitted] at h
  | none =>
    simp only [hadmitted] at h ⊢
    split at h
    · cases h
    · split at h
      · cases h
      · split at h
        · cases h
        · split at h
          · cases h
          · rename_i hconfirm hspins hshooting hwaits
            rw [if_neg hconfirm, if_neg hspins, if_neg hshooting, if_neg hwaits]
            simp only [not_or, not_not] at hspins
            refine ⟨⟨(admit_eq_none hadmitted).1, by simpa using hconfirm, hspins.1, ?_,
              by simpa using hshooting, not_lt.1 hwaits⟩, rfl⟩
            cases hspin : s.spinReadyIn now with
            | none => simp [hspin] at hspins
            | some wait => exact ⟨wait, rfl, by simpa [hspin] using hspins.2⟩

theorem fire_refused {confirm : Bool} {refusal : ShootRefusal}
    (h : (s.fire client confirm now).2 = some refusal) : (s.fire client confirm now).1 = s := by
  unfold fire at h ⊢
  cases hadmitted : s.admit_ client now with
  | some refused => rfl
  | none =>
    simp only [hadmitted] at h ⊢
    split
    · rfl
    · split
      · rfl
      · split
        · rfl
        · split
          · rfl
          · simp_all

end ShootSession

/-! ## Steps of the launcher -/

namespace Launcher

open ShootSession

variable {l : Launcher} {e : LauncherCall} {client : Client} {now : ℚ}

@[simp] theorem session_dropIfIdle : l.dropIfIdle.session = l.session := by
  unfold dropIfIdle
  split <;> rfl

@[simp] theorem session_update (s : ShootSession) : (l.update s).session = s := by
  unfold update
  dsimp only
  split
  · exact session_dropIfIdle
  · rfl

theorem session_sendTilt (deg : ℚ) : (l.sendTilt deg now).session = l.session ∨
    (l.sendTilt deg now).session = l.session.setTilt deg := by
  unfold sendTilt
  split
  · rename_i tilts deg' hrequest
    unfold TiltCoalescer.request at hrequest
    split at hrequest
    · cases hrequest
    · split at hrequest
      · cases hrequest
      · cases hrequest
        exact .inr rfl
  · exact .inl rfl

theorem follows_sendTilt (deg : ℚ) : Continues l.session (l.sendTilt deg now).session := by
  rcases session_sendTilt deg with h | h
  · rw [h]
    exact .refl _
  · rw [h]
    exact follows_setTilt deg

theorem follows_sendDue : Continues l.session (l.sendDue now).1.session := by
  unfold sendDue
  split
  · exact follows_setTilt _
  · exact .refl _

theorem onTick_eq (timeout : Option Dbl) (now : ℚ) : ∃ published,
    l.onTick timeout now = (((l.update (l.session.tick timeout now).1).sendDue now).1,
      .ticked (l.session.tick timeout now).2 published) ∧
    (published = (l.session.tick timeout now).2 ∨
      published = some ((l.update (l.session.tick timeout now).1).sendDue now).1.session.command ∧
        ((l.update (l.session.tick timeout now).1).sendDue now).2 ≠ none) := by
  unfold onTick
  rcases l.session.tick timeout now with ⟨session, command⟩
  dsimp only
  rcases (l.update session).sendDue now with ⟨l', _ | deg⟩
  · exact ⟨command, rfl, .inl rfl⟩
  · exact ⟨some l'.session.command, rfl, .inr ⟨rfl, by simp⟩⟩

abbrev LauncherStep := Step Launcher LauncherCall LauncherAnswer

/-- The client of a request that keeps its owner heard. -/
def asker : LauncherInput → Option Client
  | .roller client _ => some client
  | .tilt client _ => some client
  | .fire client _ => some client
  | _ => none

/-- The step is a request of `client` that is accepted. -/
def Accepts (t : LauncherStep) (client : Client) : Prop :=
  asker t.event.input = some client ∧ t.out = .asked none

/-- The step lets one disc go. -/
def Fires (t : LauncherStep) : Prop :=
  (∃ client confirm, t.event.input = .fire client confirm) ∧ t.out = .asked none

/-- The wait for the next shot that a status reports. -/
def reportedWait : LauncherInput → Option ℚ
  | .setArbiter (some status) => status.nextFireInSec
  | .shotStatus (some status) => number status.nextFireInSec
  | _ => none

/-- What a step changes in the session, before the session follows. -/
inductive Source (t : LauncherStep) : ShootSession → Prop
  | same (hnone : ∀ client, ¬ Accepts t client) : Source t t.pre.session
  | turning (status : RollerStatus) (hinput : t.event.input = .rollerStatus (some status)) :
      Source t { t.pre.session with
        rollerConfirmedSince := some (t.pre.session.rollerConfirmedSince.getD t.event.now) }
  | begun (client : Client) (haccepts : Accepts t client) (hquiet : ¬ Fires t)
      (hfree : t.pre.session.owner = none ∨ t.pre.session.owner = some client) :
      Source t (t.pre.session.begin_ client t.event.now)
  | fired (client : Client) (confirm : Bool) (hinput : t.event.input = .fire client confirm)
      (hout : t.out = .asked none)
      (hcleared : Cleared t.pre.session client confirm t.event.now) :
      Source t { t.pre.session with
        heardAt := t.event.now
        lastFireAt := some t.event.now
        fireSeq := t.pre.session.fireSeq + 1 }

/-- A step: what it changes, and what follows. -/
structure Effect (t : LauncherStep) : Prop where
  session : ∃ base, Source t base ∧ Continues base t.post.session
  waits : ∀ wait, reportedWait t.event.input = some wait → 0 < wait →
    ∃ at_, t.post.session.fireReadyAt = some at_ ∧ t.event.now + wait ≤ at_

variable {t : LauncherStep}

theorem effect_of_follows (hasker : asker e.input = none)
    (hwait : ∀ wait, reportedWait e.input = some wait → 0 < wait →
      ∃ at_, (step l e).1.session.fireReadyAt = some at_ ∧ e.now + wait ≤ at_)
    (h : Continues l.session (step l e).1.session) : Effect (stepOf step l e) where
  session := by
    refine ⟨_, .same fun client haccepts => ?_, h⟩
    exact absurd (hasker.symm.trans haccepts.1) (by simp)
  waits := hwait

theorem effect_of_answered (client : Client) {r : ShootSession × Option ShootRefusal}
    (hasker : asker e.input = some client) (hfire : ∀ c confirm, e.input ≠ .fire c confirm)
    (h : Answered l.session client e.now r) (hpost : Continues r.1 (step l e).1.session)
    (hout : (step l e).2 = .asked r.2) : Effect (stepOf step l e) where
  session := by
    have hquiet : ¬ Fires (stepOf step l e) := fun hfires => by
      obtain ⟨⟨c, confirm, hinput⟩, -⟩ := hfires
      exact hfire c confirm hinput
    cases h with
    | refused refusal s' h =>
      refine ⟨_, .same fun c haccepts => ?_, h.trans hpost⟩
      have hanswer : (step l e).2 = .asked none := haccepts.2
      rw [hout] at hanswer
      cases hanswer
    | begun s' hfree h => exact ⟨_, .begun client ⟨hasker, hout⟩ hquiet hfree, h.trans hpost⟩
  waits wait hwait := by
    exfalso
    have hreported : reportedWait e.input = some wait := hwait
    cases hinput : e.input with
    | setArbiter status => simp [hinput, asker] at hasker
    | shotStatus status => simp [hinput, asker] at hasker
    | _ => simp [hinput, reportedWait] at hreported

theorem effect_rollerStatus {status : Option RollerStatus} (hinput : e.input = .rollerStatus status) :
    Effect (stepOf step l e) where
  session := by
    have hpost : (step l e).1.session = l.session.setRollerStatus status e.now := by
      simp only [step, hinput, session_update]
    have hnone : ∀ c, ¬ Accepts (stepOf step l e) c := fun c haccepts => by
      have hasker : asker e.input = some c := haccepts.1
      simp [hinput, asker] at hasker
    cases status with
    | none =>
      refine ⟨_, .same hnone, ?_⟩
      show Continues l.session (step l e).1.session
      rw [hpost]
      exact .refl _
    | some status =>
      rcases follows_setRollerStatus (s := l.session) status with h | h
      · refine ⟨_, .same hnone, ?_⟩
        show Continues l.session (step l e).1.session
        rw [hpost]
        exact h
      · refine ⟨_, .turning status hinput, ?_⟩
        show Continues _ (step l e).1.session
        rw [hpost]
        exact h
  waits wait hwait := by
    have hreported : reportedWait e.input = some wait := hwait
    simp [hinput, reportedWait] at hreported

theorem effect_fire {confirm : Bool} (hinput : e.input = .fire client confirm) :
    Effect (stepOf step l e) where
  session := by
    have hpost : (step l e).1.session = (l.session.fire client confirm e.now).1 := by
      simp only [step, hinput, session_dropIfIdle]
    have hout : (step l e).2 = .asked (l.session.fire client confirm e.now).2 := by
      simp only [step, hinput]
    cases hanswer : (l.session.fire client confirm e.now).2 with
    | none =>
      obtain ⟨hcleared, hfired⟩ := fire_accepted hanswer
      rw [hanswer] at hout
      refine ⟨_, .fired client confirm hinput hout hcleared, ?_⟩
      show Continues _ (step l e).1.session
      rw [hpost, hfired]
      exact .refl _
    | some refusal =>
      refine ⟨_, .same fun c haccepts => ?_, ?_⟩
      · have hasked : (step l e).2 = .asked none := haccepts.2
        rw [hout, hanswer] at hasked
        cases hasked
      · show Continues l.session (step l e).1.session
        rw [hpost, fire_refused hanswer]
        exact .refl _
  waits wait hwait := by
    have hreported : reportedWait e.input = some wait := hwait
    simp [hinput, reportedWait] at hreported

theorem follows_setArbiter_waits {s : ShootSession} (status : ArbiterStatus) {wait : ℚ}
    (hwait : status.nextFireInSec = some wait) (hpos : 0 < wait) :
    ∃ at_, (s.setArbiter (some status) now).fireReadyAt = some at_ ∧ now + wait ≤ at_ := by
  obtain ⟨at_, hat, hle⟩ := (follows_awaitInterval
    (s := { s with arbiter := some status, arbiterAt := .fin now }) status.nextFireInSec).2
    wait hwait hpos
  obtain ⟨at', hat', hle'⟩ := (follows_keptStatus (s := s) (some status)).ready at_ hat
  exact ⟨at', hat', hle.trans hle'⟩

theorem follows_setShotStatus_waits {s : ShootSession} (status : ShotStatus) {wait : ℚ}
    (hwait : number status.nextFireInSec = some wait) (hpos : 0 < wait) :
    ∃ at_, (s.setShotStatus (some status) now).fireReadyAt = some at_ ∧ now + wait ≤ at_ := by
  obtain ⟨at_, hat, hle⟩ :=
    (follows_awaitInterval (s := s) (number status.nextFireInSec)).2 wait hwait hpos
  have hshot : Continues { s.awaitInterval (number status.nextFireInSec) now with
      shot := some (status, now) } (s.setShotStatus (some status) now) :=
    follows_updateLimits.trans follows_updateBlockers
  obtain ⟨at', hat', hle'⟩ := hshot.ready at_ hat
  exact ⟨at', hat', hle.trans hle'⟩

theorem effect_step : Effect (stepOf step l e) := by
  cases hinput : e.input with
  | setGraph others subscribed =>
    refine effect_of_follows (by simp [hinput, asker]) (by simp [hinput, reportedWait]) ?_
    simp only [step, hinput, session_update]
    exact follows_update rfl rfl rfl rfl rfl
  | setEmergencyStop active =>
    refine effect_of_follows (by simp [hinput, asker]) (by simp [hinput, reportedWait]) ?_
    simp only [step, hinput, session_update]
    exact follows_update rfl rfl rfl rfl rfl
  | setEstopKnown known =>
    refine effect_of_follows (by simp [hinput, asker]) (by simp [hinput, reportedWait]) ?_
    simp only [step, hinput, session_update]
    exact follows_update rfl rfl rfl rfl rfl
  | setMotionPermission allowed =>
    refine effect_of_follows (by simp [hinput, asker]) (by simp [hinput, reportedWait]) ?_
    simp only [step, hinput, session_update]
    exact follows_update rfl rfl rfl rfl rfl
  | setArbiter status =>
    refine effect_of_follows (by simp [hinput, asker]) ?_ ?_
    · intro wait hwait hpos
      simp only [step, hinput, session_update]
      cases status with
      | none => simp [hinput, reportedWait] at hwait
      | some status =>
        rw [hinput] at hwait
        exact follows_setArbiter_waits status hwait hpos
    · simp only [step, hinput, session_update]
      exact follows_setArbiter status
  | rollerStatus status => exact effect_rollerStatus hinput
  | shotStatus status =>
    refine effect_of_follows (by simp [hinput, asker]) ?_ ?_
    · intro wait hwait hpos
      simp only [step, hinput, session_update]
      cases status with
      | none => simp [hinput, reportedWait] at hwait
      | some status =>
        rw [hinput] at hwait
        exact follows_setShotStatus_waits status hwait hpos
    · simp only [step, hinput, session_update]
      exact follows_setShotStatus status
  | roller client power =>
    refine effect_of_answered client (by simp [hinput, asker]) (by simp [hinput])
      (answered_rollerTo power) ?_ ?_
    · simp only [step, hinput, session_dropIfIdle]
      exact .refl _
    · simp only [step, hinput]
  | tilt client deg =>
    refine effect_of_answered client (by simp [hinput, asker]) (by simp [hinput])
      (answered_tiltTo deg) ?_ ?_
    · simp only [step, hinput]
      rcases l.session.tiltTo client deg e.now with ⟨s, refused, _ | deg⟩
      · simp only [session_dropIfIdle]
        exact .refl _
      · simp only [session_dropIfIdle]
        exact follows_sendTilt (l := { l with session := s }) deg
    · simp only [step, hinput]
      rcases l.session.tiltTo client deg e.now with ⟨s, refused, _ | deg⟩
      · rfl
      · rfl
  | fire client confirm => exact effect_fire hinput
  | rollerStop client =>
    refine effect_of_follows (by simp [hinput, asker]) (by simp [hinput, reportedWait]) ?_
    simp only [step, hinput, session_dropIfIdle, ShootSession.stop]
    split
    · exact (settles_end _ _).follows
    · exact .refl _
  | disconnect client =>
    refine effect_of_follows (by simp [hinput, asker]) (by simp [hinput, reportedWait]) ?_
    have hsession : (step l e).1.session = (l.session.disconnect client e.now).1 := by
      simp only [step, hinput]
      split <;> rfl
    rw [hsession, ShootSession.disconnect]
    split
    · exact (settles_end _ _).follows
    · exact .refl _
  | tick timeout =>
    refine effect_of_follows (by simp [hinput, asker]) (by simp [hinput, reportedWait]) ?_
    obtain ⟨published, heq, -⟩ := onTick_eq (l := l) timeout e.now
    have hdue : Continues (l.update (l.session.tick timeout e.now).1).session
        ((l.update (l.session.tick timeout e.now).1).sendDue e.now).1.session := follows_sendDue
    rw [session_update] at hdue
    simp only [step, hinput, heq]
    exact (follows_tick timeout).trans hdue

/-! ### What a step means for the fields -/

theorem Fires.accepts (h : Fires t) : ∃ client, Accepts t client := by
  obtain ⟨⟨client, confirm, hinput⟩, hout⟩ := h
  exact ⟨client, by rw [hinput]; rfl, hout⟩

theorem Effect.heard (h : Effect t) (howner : t.post.session.owner = some client) :
    Accepts t client ∧ t.post.session.heardAt = t.event.now ∨
      t.pre.session.owner = some client ∧ t.post.session.heardAt = t.pre.session.heardAt := by
  obtain ⟨base, hsource, hfollows⟩ := h.session
  rcases hfollows.run with hnone | ⟨hsame, hheard, -⟩
  · cases hnone.symm.trans howner
  · have hbase := hsame.symm.trans howner
    cases hsource with
    | same _ => exact .inr ⟨hbase, hheard⟩
    | turning status hinput => exact .inr ⟨hbase, hheard⟩
    | begun c haccepts _ hfree =>
      cases (begin_owner _ hfree).symm.trans hbase
      exact .inl ⟨haccepts, hheard.trans (begin_frame _ _ _).2.2.2.2.1⟩
    | fired c confirm hinput hout hcleared =>
      cases hcleared.owner.symm.trans hbase
      exact .inl ⟨⟨by rw [hinput]; rfl, hout⟩, hheard⟩

theorem Effect.started (h : Effect t) (howner : t.post.session.owner = some client) :
    (t.pre.session.owner = none ∧ Accepts t client ∧
      t.post.session.startedAt = t.event.now) ∨
      t.pre.session.owner = some client ∧ t.post.session.startedAt = t.pre.session.startedAt := by
  obtain ⟨base, hsource, hfollows⟩ := h.session
  rcases hfollows.run with hnone | ⟨hsame, -, hstarted⟩
  · cases hnone.symm.trans howner
  · have hbase := hsame.symm.trans howner
    cases hsource with
    | same _ => exact .inr ⟨hbase, hstarted⟩
    | turning status hinput => exact .inr ⟨hbase, hstarted⟩
    | begun c haccepts _ hfree =>
      cases (begin_owner _ hfree).symm.trans hbase
      have hbegun := (begin_frame t.pre.session client t.event.now).2.2.2.2.2.2.2
      rcases hfree with hidle | hown
      · rw [if_pos hidle] at hbegun
        exact .inl ⟨hidle, haccepts, hstarted.trans hbegun⟩
      · rw [if_neg (by simp [hown])] at hbegun
        exact .inr ⟨hown, hstarted.trans hbegun⟩
    | fired c confirm hinput hout hcleared => exact .inr ⟨hbase, hstarted⟩

theorem Effect.confirmed (h : Effect t) {since : ℚ}
    (hsince : t.post.session.rollerConfirmedSince = some since) :
    t.pre.session.rollerConfirmedSince = some since ∨
      (∃ status, t.event.input = .rollerStatus (some status)) ∧ since = t.event.now := by
  obtain ⟨base, hsource, hfollows⟩ := h.session
  rcases hfollows.confirmed with hnone | hsame
  · cases hnone.symm.trans hsince
  · have hbase := hsame.symm.trans hsince
    cases hsource with
    | same _ => exact .inl hbase
    | turning status hinput =>
      cases hconfirmed : t.pre.session.rollerConfirmedSince with
      | none =>
        simp only [hconfirmed, Option.getD_none, Option.some.injEq] at hbase
        exact .inr ⟨⟨status, hinput⟩, hbase.symm⟩
      | some before =>
        simp only [hconfirmed, Option.getD_some] at hbase
        exact .inl hbase
    | begun c _ _ _ =>
      exact .inl ((begin_frame t.pre.session c t.event.now).2.2.2.2.2.2.1.symm.trans hbase)
    | fired c confirm hinput hout hcleared => exact .inl hbase

theorem Effect.counted (h : Effect t) :
    Fires t ∧ t.post.session.fireSeq = t.pre.session.fireSeq + 1 ∧
        t.post.session.lastFireAt = some t.event.now ∨
      ¬ Fires t ∧ t.post.session.fireSeq = t.pre.session.fireSeq ∧
        t.post.session.lastFireAt = t.pre.session.lastFireAt := by
  obtain ⟨base, hsource, hfollows⟩ := h.session
  have hseq := hfollows.fireSeq
  have hlast := hfollows.lastFireAt
  cases hsource with
  | same hnone =>
    refine .inr ⟨fun hfires => ?_, hseq, hlast⟩
    obtain ⟨client, haccepts⟩ := hfires.accepts
    exact hnone client haccepts
  | turning status hinput =>
    refine .inr ⟨fun hfires => ?_, hseq, hlast⟩
    obtain ⟨⟨client, confirm, hfire⟩, -⟩ := hfires
    rw [hinput] at hfire
    cases hfire
  | begun c _ hquiet _ =>
    have hbegun := (begin_frame t.pre.session c t.event.now).1
    exact .inr ⟨hquiet, hseq.trans (congrArg Inputs.fireSeq hbegun),
      hlast.trans (congrArg Inputs.lastFireAt hbegun)⟩
  | fired c confirm hinput hout hcleared => exact .inl ⟨⟨⟨c, confirm, hinput⟩, hout⟩, hseq, hlast⟩

theorem Effect.ready (h : Effect t) {at_ : ℚ} (hat : t.pre.session.fireReadyAt = some at_) :
    ∃ at', t.post.session.fireReadyAt = some at' ∧ at_ ≤ at' := by
  obtain ⟨base, hsource, hfollows⟩ := h.session
  refine hfollows.ready at_ ?_
  cases hsource with
  | same _ => exact hat
  | turning _ _ => exact hat
  | begun c _ _ _ =>
    exact (congrArg Inputs.fireReadyAt (begin_frame t.pre.session c t.event.now).1).trans hat
  | fired _ _ _ _ _ => exact hat

theorem Effect.config (h : Effect t) : t.post.session.config = t.pre.session.config := by
  obtain ⟨base, hsource, hfollows⟩ := h.session
  refine hfollows.config.trans ?_
  cases hsource with
  | same _ => rfl
  | turning _ _ => rfl
  | begun c _ _ _ => exact congrArg Inputs.config (begin_frame t.pre.session c t.event.now).1
  | fired _ _ _ _ _ => rfl

theorem Effect.cleared (h : Effect t) {confirm : Bool}
    (hinput : t.event.input = .fire client confirm) (hout : t.out = .asked none) :
    Cleared t.pre.session client confirm t.event.now := by
  obtain ⟨base, hsource, -⟩ := h.session
  cases hsource with
  | same hnone => exact absurd ⟨by rw [hinput]; rfl, hout⟩ (hnone client)
  | turning status hstatus => cases hinput.symm.trans hstatus
  | begun c _ hquiet _ => exact absurd ⟨⟨client, confirm, hinput⟩, hout⟩ hquiet
  | fired c confirm' hfire _ hcleared =>
    cases hinput.symm.trans hfire
    exact hcleared

end Launcher

end Questix.LabBridge
