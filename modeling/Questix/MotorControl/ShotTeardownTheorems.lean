/-
Questix.MotorControl.ShotTeardownTheorems — a safety teardown of the shot node
is not lost.

`Teardown` is the part of the node's state it depends on, `Inv` the invariant
between the flags, the timers and the lifecycle state, and `Effect` says once
what an event can do to that part. A teardown that is `Due` stays so until the
node is unconfigured or an operator takes over (`due_of_effect`).
-/
import Questix.MotorControl.ShotSteps

namespace Questix.MotorControl

open Questix.Lib Questix.Lib.Act Questix.Safety ShotAutoStart
open Questix.CommandArbiter (InputEvents)

/-- What a teardown depends on. -/
structure Teardown where
  state : LifecycleState
  autoStart : Bool
  runtimeFault : Bool
  teardownPending : Bool
  autoStartTimer : Timer
  startupTimer : Timer

def ShotComponent.teardown (s : ShotComponent) : Teardown where
  state := s.state
  autoStart := s.autoStart
  runtimeFault := s.runtimeFault
  teardownPending := s.teardownPending
  autoStartTimer := s.autoStartTimer
  startupTimer := s.startupTimer

namespace Teardown

variable {v w : Teardown} {io : Surroundings} {t : Transition}

def Flagged (v : Teardown) : Prop := v.runtimeFault = true ∨ v.teardownPending = true

/-- A teardown that the auto-start timer will try. -/
structure Due (v : Teardown) : Prop where
  flagged : v.Flagged
  armed : v.autoStartTimer = .armed
  up : v.state = .active ∨ v.state = .inactive

/-- A fault is flagged only while ACTIVE, a teardown is pending only before
UNCONFIGURED, and with either the timer runs; while ACTIVE it runs for nothing
else. -/
structure Inv (v : Teardown) : Prop where
  autoStart : v.autoStart = true
  exists_ : v.autoStartTimer ≠ .null
  flagged : v.Flagged → v.autoStartTimer = .armed
  fault : v.runtimeFault = true → v.state = .active
  pending : v.teardownPending = true → v.state = .active ∨ v.state = .inactive
  startup : v.startupTimer = .armed → v.autoStartTimer = .armed
  active : v.state = .active → v.autoStartTimer = .armed → v.Flagged
  finalized : v.state = .finalized → v.autoStartTimer ≠ .armed

/-! ## What the node's operations make of it -/

/-- The flagged fault of a transaction that failed. -/
def recover (v : Teardown) : Teardown :=
  if v.autoStart = true ∧ v.state = .active then
    { v with runtimeFault := true, autoStartTimer := v.autoStartTimer.reset }
  else v

/-- A transition whose callback succeeded. -/
def after (v : Teardown) : Transition → Teardown
  | .configure => { v with state := .inactive }
  | .activate =>
    { v with
      state := .active
      autoStartTimer := v.autoStartTimer.cancel, startupTimer := v.startupTimer.cancel }
  | .deactivate =>
    { v with
      state := .inactive, runtimeFault := false, teardownPending := false
      autoStartTimer := v.autoStartTimer.cancel, startupTimer := v.startupTimer.cancel }
  | .cleanup => { v with state := .unconfigured, teardownPending := false }
  | .shutdown =>
    { v with
      state := .finalized, runtimeFault := false, teardownPending := false
      autoStartTimer := v.autoStartTimer.cancel, startupTimer := v.startupTimer.cancel }

/-- A transition that raised, with auto start. -/
def error (v : Teardown) (startupTimer : Timer) : Teardown :=
  { v with
    state := .unconfigured, runtimeFault := false, teardownPending := false
    autoStartTimer := v.autoStartTimer.reset, startupTimer := startupTimer }

/-- What a request for a transition can lead to. -/
inductive Moved (io : Surroundings) (t : Transition) (v : Teardown) : Teardown → Prop where
  | stayed (h : t.startsFrom v.state = false ∨ io.outcome t = .refused ∨
      t = .configure ∨ t = .activate) : Moved io t v v
  | done (hstart : t.startsFrom v.state = true) (hran : io.outcome t = .ran)
      (hhome : t = .activate → io.transaction .home = .answered) : Moved io t v (v.after t)
  | raised (hstart : t.startsFrom v.state = true) (startupTimer : Timer) :
      Moved io t v (v.error startupTimer)

/-- What the teardown of a node that is not finalized ends in: it is down, or
the transition that failed will be tried again. -/
structure TornDown (io : Surroundings) (w : Teardown) : Prop where
  autoStart : w.autoStart = true
  armed : w.autoStartTimer = .armed
  ends : (w.state = .unconfigured ∧ w.runtimeFault = false ∧ w.teardownPending = false) ∨
    (w.state = .active ∧ w.teardownPending = true ∧ io.outcome .deactivate = .refused) ∨
    (w.state = .inactive ∧ w.runtimeFault = false ∧ w.teardownPending = true ∧
      io.outcome .cleanup = .refused)

/-! ## The invariant -/

theorem Inv.recover (h : Inv v) : Inv v.recover := by
  unfold Teardown.recover
  split
  · rename_i hactive
    exact
      { autoStart := h.autoStart
        exists_ := by simpa using h.exists_
        flagged := fun _ => by simpa using h.exists_
        fault := fun _ => hactive.2
        pending := fun _ => .inl hactive.2
        startup := fun _ => by simpa using h.exists_
        active := fun _ _ => .inl rfl
        finalized := fun hfin => by cases hactive.2.symm.trans hfin }
  · exact h

theorem recover_recover : v.recover.recover = v.recover := by
  unfold Teardown.recover
  split <;> simp_all

theorem Inv.withStartup (h : Inv v) {timer : Timer}
    (htimer : timer = .armed → v.autoStartTimer = .armed) :
    Inv { v with startupTimer := timer } where
  autoStart := h.autoStart
  exists_ := h.exists_
  flagged := h.flagged
  fault := h.fault
  pending := h.pending
  startup := htimer
  active := h.active
  finalized := h.finalized

theorem Inv.no_fault (h : Inv v) (hstate : v.state = .inactive) : v.runtimeFault = false := by
  by_contra hfault
  cases hstate.symm.trans (h.fault (Bool.not_eq_false _ ▸ hfault))

theorem Inv.not_flagged (h : Inv v) (hstate : v.state = .unconfigured ∨ v.state = .finalized) :
    v.runtimeFault = false ∧ v.teardownPending = false := by
  constructor
  · by_contra hfault
    have hactive := h.fault (Bool.not_eq_false _ ▸ hfault)
    rw [hactive] at hstate
    simp at hstate
  · by_contra hpending
    have hup := h.pending (Bool.not_eq_false _ ▸ hpending)
    rcases hstate with hstate | hstate <;> simp [hstate] at hup

theorem Inv.flags_of_not_due (h : Inv v) (hnot : ¬ Due v) :
    v.runtimeFault = false ∧ v.teardownPending = false := by
  constructor
  · by_contra hfault
    have hfault : v.runtimeFault = true := Bool.not_eq_false _ ▸ hfault
    exact hnot ⟨.inl hfault, h.flagged (.inl hfault), .inl (h.fault hfault)⟩
  · by_contra hpending
    have hpending : v.teardownPending = true := Bool.not_eq_false _ ▸ hpending
    exact hnot ⟨.inr hpending, h.flagged (.inr hpending), h.pending hpending⟩

theorem Inv.cancel (h : Inv v) (hfault : v.runtimeFault = false)
    (hpending : v.teardownPending = false) (hstartup : v.startupTimer ≠ .armed) :
    Inv { v with autoStartTimer := v.autoStartTimer.cancel } where
  autoStart := h.autoStart
  exists_ := by simpa using h.exists_
  flagged hflagged := by simp [Flagged, hfault, hpending] at hflagged
  fault := h.fault
  pending := h.pending
  startup harmed := absurd harmed hstartup
  active _ harmed := by simp at harmed
  finalized _ := by simp

theorem TornDown.inv (h : TornDown io w) : Inv w where
  autoStart := h.autoStart
  exists_ := by simp [h.armed]
  flagged _ := h.armed
  fault hfault := by
    rcases h.ends with ⟨_, hno, _⟩ | ⟨hactive, _⟩ | ⟨_, hno, _⟩
    · rw [hno] at hfault
      cases hfault
    · exact hactive
    · rw [hno] at hfault
      cases hfault
  pending hpending := by
    rcases h.ends with ⟨_, _, hno⟩ | ⟨hactive, _⟩ | ⟨hinactive, _⟩
    · rw [hno] at hpending
      cases hpending
    · exact .inl hactive
    · exact .inr hinactive
  startup _ := h.armed
  active hactive _ := by
    rcases h.ends with ⟨hstate, _⟩ | ⟨_, hpending, _⟩ | ⟨hstate, _⟩
    · cases hactive.symm.trans hstate
    · exact .inr hpending
    · cases hactive.symm.trans hstate
  finalized hfin := by
    rcases h.ends with ⟨hstate, _⟩ | ⟨hstate, _⟩ | ⟨hstate, _⟩ <;> cases hfin.symm.trans hstate

theorem TornDown.down_or_due (h : TornDown io w) : w.state = .unconfigured ∨ Due w := by
  rcases h.ends with ⟨hstate, _⟩ | ⟨hactive, hpending, _⟩ | ⟨hinactive, _, hpending, _⟩
  · exact .inl hstate
  · exact .inr ⟨.inr hpending, h.armed, .inl hactive⟩
  · exact .inr ⟨.inr hpending, h.armed, .inr hinactive⟩

theorem TornDown.withStartup (h : TornDown io w) (timer : Timer) :
    TornDown io { w with startupTimer := timer } := ⟨h.autoStart, h.armed, h.ends⟩

/-- A transition keeps the invariant, unless it activates a node whose
teardown is pending. -/
theorem Inv.moved (h : Inv v) (hmoved : Moved io t v w)
    (hactivate : t = .activate → v.state = .inactive → v.teardownPending = true →
      io.outcome .activate = .ran → io.transaction .home ≠ .answered) : Inv w := by
  cases hmoved with
  | stayed _ => exact h
  | raised hstart startupTimer =>
    have htorn : TornDown io (v.error startupTimer) :=
      ⟨h.autoStart, by simpa [error] using h.exists_, .inl ⟨rfl, rfl, rfl⟩⟩
    exact htorn.inv
  | done hstart hran hhome =>
    cases t with
    | configure =>
      obtain ⟨hfault, hpending⟩ := h.not_flagged (.inl (Transition.startsFrom_configure.1 hstart))
      exact
        { autoStart := h.autoStart, exists_ := h.exists_, flagged := h.flagged
          fault := fun hf => by simp [after, hfault] at hf
          pending := fun hp => by simp [after, hpending] at hp
          startup := h.startup
          active := nofun, finalized := nofun }
    | activate =>
      have hstate := Transition.startsFrom_activate.1 hstart
      have hfault := h.no_fault hstate
      have hpending : v.teardownPending = false := by
        by_contra hpending
        exact hactivate rfl hstate (Bool.not_eq_false _ ▸ hpending) hran (hhome rfl)
      exact
        { autoStart := h.autoStart
          exists_ := by simpa [after] using h.exists_
          flagged := fun hflagged => by simp [after, Flagged, hfault, hpending] at hflagged
          fault := fun _ => rfl
          pending := fun _ => .inl rfl
          startup := fun harmed => by simp [after] at harmed
          active := fun _ harmed => by simp [after] at harmed
          finalized := nofun }
    | deactivate =>
      exact
        { autoStart := h.autoStart
          exists_ := by simpa [after] using h.exists_
          flagged := fun hflagged => by simp [after, Flagged] at hflagged
          fault := nofun, pending := nofun
          startup := fun harmed => by simp [after] at harmed
          active := nofun, finalized := nofun }
    | cleanup =>
      have hfault := h.no_fault (Transition.startsFrom_cleanup.1 hstart)
      exact
        { autoStart := h.autoStart, exists_ := h.exists_
          flagged := fun hflagged => by simp [after, Flagged, hfault] at hflagged
          fault := fun hf => by simp [after, hfault] at hf
          pending := nofun
          startup := h.startup
          active := nofun, finalized := nofun }
    | shutdown =>
      exact
        { autoStart := h.autoStart
          exists_ := by simpa [after] using h.exists_
          flagged := fun hflagged => by simp [after, Flagged] at hflagged
          fault := nofun, pending := nofun
          startup := fun harmed => by simp [after] at harmed
          active := nofun
          finalized := fun _ => by simp [after] }

end Teardown

/-! ## What the member functions do to it -/

namespace ShotComponent

open Teardown

variable {io : Surroundings} {v : Teardown} {past : List BusTransaction} {s : ShotComponent}

/-- The teardown's part of the state is `v`. -/
def At (v : Teardown) (_ : List BusTransaction) (s : ShotComponent) : Prop := s.teardown = v

theorem at_returnHome : Triple (At v) (returnHome io) fun _ => At v := by
  intro past s h
  rw [wp_returnHome]
  split <;> exact h

theorem at_cancelShotSequence : Triple (At v) (cancelShotSequence io) fun _ => At v := by
  intro past s h
  simp only [cancelShotSequence, wp_bind, wp_modify, wp_get, wp_ite, wp_pure]
  split
  · exact wp_mono (at_returnHome (v := v) past _ h) fun _ _ _ h => h
  · exact h

theorem at_onConfigure (h : At v past s) : wp (onConfigure io) (fun _ => At v) past s := by
  simp only [onConfigure, disconnectServo, wp_bind, wp_modify, wp_ite, wp_pure]
  split
  · exact h
  · cases io.presentPosition with
    | none => exact h
    | some position => exact h

theorem at_onActivate (h : At v past s) :
    wp (onActivate io) (fun ok _ s => if ok then io.transaction .home = .answered ∧
      s.teardown = { v with
        autoStartTimer := v.autoStartTimer.cancel, startupTimer := v.startupTimer.cancel }
      else s.teardown = v) past s := by
  subst h
  simp only [onActivate, cancelAutoStart, endStartup, wp_bind, wp_get, wp_ite, wp_pure,
    wp_returnHome, wp_modify]
  cases s.isConnected with
  | false => simp
  | true =>
    by_cases hhome : io.transaction .home = .answered
    · simp [hhome, teardown]
    · simp [hhome]

theorem at_onDeactivate (h : At v past s) :
    wp (onDeactivate io) (fun ok _ s => ok = true ∧ s.teardown = { v with
      runtimeFault := false, teardownPending := false
      autoStartTimer := v.autoStartTimer.cancel, startupTimer := v.startupTimer.cancel })
      past s := by
  simp only [onDeactivate, dropPendingTilt, cancelAutoStart, endStartup, wp_bind, wp_modify,
    wp_pure]
  refine wp_mono (at_cancelShotSequence (v := v) past _ h) ?_
  intro _ past s h
  subst h
  exact ⟨trivial, rfl⟩

theorem at_onError (h : At v past s) (hauto : v.autoStart = true) :
    wp onError (fun _ _ s => s.teardown = { v with
      runtimeFault := false, teardownPending := false
      autoStartTimer := v.autoStartTimer.reset }) past s := by
  subst h
  replace hauto : s.autoStart = true := hauto
  simp [onError, disconnectServo, wp_bind, wp_modify, teardown, hauto]

theorem at_callback {t : Transition} (h : At v past s) :
    wp (callback io t) (fun ok _ s =>
      (if ok then { s.teardown with state := t.goal } = v.after t ∧
          (t = .activate → io.transaction .home = .answered)
        else s.teardown = v ∧ (t = .configure ∨ t = .activate)) ∧
      s.teardown.autoStart = v.autoStart ∧
      s.teardown.autoStartTimer.reset = v.autoStartTimer.reset) past s := by
  cases t with
  | configure =>
    refine wp_mono (at_onConfigure h) ?_
    intro ok past s h
    subst h
    cases ok <;> simp [after, Transition.goal]
  | activate =>
    refine wp_mono (at_onActivate h) ?_
    intro ok past s h
    cases ok with
    | false =>
      have h : s.teardown = v := by simpa using h
      simp [h]
    | true =>
      obtain ⟨hhome, h⟩ : _ ∧ _ := by simpa using h
      simp [h, hhome, after, Transition.goal]
  | deactivate =>
    refine wp_mono (at_onDeactivate h) ?_
    rintro ok past s ⟨hok, h⟩
    simp [hok, h, after, Transition.goal]
  | cleanup =>
    simp only [callback, onCleanup, disconnectServo, wp_bind, wp_modify, wp_pure]
    subst h
    simp [teardown, after, Transition.goal]
  | shutdown =>
    simp only [callback, onShutdown, stopAutoStartTimers, endStartup, disconnectServo, wp_bind,
      wp_modify, wp_pure]
    subst h
    simp [teardown, after, Transition.goal]

theorem moved_request {t : Transition} (h : At v past s) (hauto : v.autoStart = true) :
    wp (request io t) (fun state _ s => state = s.state ∧ Moved io t v s.teardown) past s := by
  have hstate : s.state = v.state := congrArg Teardown.state h
  refine wp_request ?_ ?_ ?_
  · intro hnot
    rw [show s.teardown = v from h, hstate] at *
    exact ⟨rfl, .stayed (by tauto)⟩
  · intro hstart hran
    refine wp_mono (at_callback h) ?_
    intro ok past s' ⟨h', _⟩
    cases ok with
    | false =>
      obtain ⟨h', ht⟩ : _ ∧ _ := by simpa using h'
      simp only [Bool.false_eq_true, if_false, true_and]
      rw [h']
      exact .stayed (.inr (.inr ht))
    | true =>
      obtain ⟨h', ht⟩ : _ ∧ _ := by simpa using h'
      simp only [if_true]
      refine ⟨trivial, ?_⟩
      have hafter : ShotComponent.teardown { s' with state := t.goal } = v.after t := h'
      rw [hafter]
      exact .done (hstate ▸ hstart) hran ht
  · intro bodyRan hstart _
    have hbody : wp (if bodyRan then callback io t else pure true) (fun _ _ s =>
        s.teardown.autoStart = v.autoStart ∧
        s.teardown.autoStartTimer.reset = v.autoStartTimer.reset) past s := by
      cases bodyRan with
      | false =>
        rw [← show s.teardown = v from h]
        exact ⟨rfl, rfl⟩
      | true => exact wp_mono (at_callback h) fun _ _ _ h => h.2
    refine wp_mono hbody ?_
    intro _ past s' ⟨hsame, hreset⟩
    refine wp_mono (at_onError (v := s'.teardown) rfl (hsame.trans hauto)) ?_
    intro _ past s'' h''
    refine ⟨rfl, ?_⟩
    have herror : ShotComponent.teardown { s'' with state := .unconfigured } =
        v.error s'.startupTimer := by
      have hview : ShotComponent.teardown { s'' with state := .unconfigured } =
          { s''.teardown with state := .unconfigured } := rfl
      rw [hview, h'', hreset, hsame]
      rfl
    rw [herror]
    exact .raised (hstate ▸ hstart) _

/-! ### The teardown and the auto start -/

theorem tornDown_handle (h : At v past s) (hauto : v.autoStart = true)
    (hexists : v.autoStartTimer ≠ .null)
    (hends : v.state = .unconfigured ∨ (v.state = .active ∧ io.outcome .deactivate = .refused) ∨
      (v.state = .inactive ∧ v.runtimeFault = false ∧ io.outcome .cleanup = .refused)) :
    wp (handleSafetyTeardownState v.state) (fun _ _ s => TornDown io s.teardown) past s := by
  subst h
  replace hexists : s.autoStartTimer ≠ .null := hexists
  simp only [handleSafetyTeardownState, wp_bind, wp_get, wp_ite, wp_pure, if_neg hexists]
  rcases hends with hstate | ⟨hstate, hrefused⟩ | ⟨hstate, hfault, hrefused⟩
  · simp only [hstate, decideSafetyTeardownAction, wp_modify]
    exact ⟨hauto, by simpa [teardown] using hexists, .inl ⟨hstate, rfl, rfl⟩⟩
  · simp only [hstate, decideSafetyTeardownAction, wp_modify]
    exact ⟨hauto, by simpa [teardown] using hexists, .inr (.inl ⟨hstate, rfl, hrefused⟩)⟩
  · simp only [hstate, decideSafetyTeardownAction, wp_modify]
    exact ⟨hauto, by simpa [teardown] using hexists,
      .inr (.inr ⟨hstate, hfault, rfl, hrefused⟩)⟩

theorem tornDown_cleanup (h : At v past s) (hauto : v.autoStart = true)
    (hexists : v.autoStartTimer ≠ .null) (hfault : v.runtimeFault = false)
    (hstate : v.state = .inactive ∨ v.state = .unconfigured) :
    wp (if v.state = .inactive then request io .cleanup else pure v.state)
      (fun state past s => wp (handleSafetyTeardownState state)
        (fun _ _ s => TornDown io s.teardown) past s) past s := by
  rcases hstate with hstate | hstate
  · rw [if_pos hstate]
    refine wp_mono (moved_request h hauto) ?_
    intro state past s ⟨hs, hmoved⟩
    subst hs
    generalize hw : s.teardown = w at hmoved
    have hgoal : s.state = w.state := congrArg Teardown.state hw
    rw [hgoal]
    cases hmoved with
    | stayed hwhy =>
      have hrefused : io.outcome .cleanup = .refused := by
        simpa [hstate, Transition.startsFrom] using hwhy
      exact tornDown_handle hw hauto hexists (.inr (.inr ⟨hstate, hfault, hrefused⟩))
    | done _ _ _ => exact tornDown_handle hw hauto hexists (.inl rfl)
    | raised _ timer =>
      exact tornDown_handle hw hauto (by simpa [error] using hexists) (.inl rfl)
  · rw [if_neg (by simp [hstate]), wp_pure]
    exact tornDown_handle h hauto hexists (.inl hstate)

theorem tornDown_transition (h : At v past s) (hinv : Inv v) (hstate : v.state ≠ .finalized) :
    wp (transitionToUnconfiguredForAutoRecovery io) (fun _ _ s => TornDown io s.teardown)
      past s := by
  have hexists : s.autoStartTimer ≠ .null := by
    subst h
    exact hinv.exists_
  have hs : s.state = v.state := congrArg Teardown.state h
  simp only [transitionToUnconfiguredForAutoRecovery, wp_bind, wp_get, wp_ite, wp_pure,
    if_neg hexists, hs]
  by_cases hactive : v.state = .active
  · rw [if_pos hactive]
    refine wp_mono (moved_request h hinv.autoStart) ?_
    rintro state past s ⟨hs, hmoved⟩
    subst hs
    generalize hw : s.teardown = w at hmoved
    have hgoal : s.state = w.state := congrArg Teardown.state hw
    rw [hgoal]
    cases hmoved with
    | stayed hwhy =>
      have hrefused : io.outcome .deactivate = .refused := by
        simpa [hactive, Transition.startsFrom] using hwhy
      rw [if_neg (by simp [hactive])]
      exact tornDown_handle hw hinv.autoStart hinv.exists_ (.inr (.inl ⟨hactive, hrefused⟩))
    | done _ _ _ =>
      simpa only [wp_ite, wp_pure] using tornDown_cleanup hw hinv.autoStart
        (by simpa [after] using hinv.exists_) rfl (.inl rfl)
    | raised _ timer =>
      simpa only [wp_ite, wp_pure] using tornDown_cleanup hw hinv.autoStart
        (by simpa [error] using hinv.exists_) rfl (.inr rfl)
  · rw [if_neg hactive]
    have hfault : v.runtimeFault = false := by
      by_contra hfault
      exact hactive (hinv.fault (Bool.not_eq_false _ ▸ hfault))
    have hdown : v.state = .inactive ∨ v.state = .unconfigured := by
      cases hv : v.state with
      | unconfigured => exact .inr rfl
      | inactive => exact .inl rfl
      | active => exact absurd hv hactive
      | finalized => exact absurd hv hstate
    simpa only [wp_ite, wp_pure] using
      tornDown_cleanup h hinv.autoStart hinv.exists_ hfault hdown

/-- Nothing but the startup timer has changed, and it runs only beside the
auto-start timer. -/
def Windowed (v : Teardown) (_ : List BusTransaction) (s : ShotComponent) : Prop :=
  ∃ timer, s.teardown = { v with startupTimer := timer } ∧
    (timer = .armed → v.autoStartTimer = .armed)

theorem Windowed.inv (h : Windowed v past s) (hinv : Inv v) : Inv s.teardown := by
  obtain ⟨timer, hs, htimer⟩ := h
  rw [hs]
  exact hinv.withStartup htimer

theorem windowed_of_at (hinv : Inv v) (h : At v past s) : Windowed v past s :=
  ⟨v.startupTimer, h, hinv.startup⟩

theorem windowed_requestStartup (hinv : Inv v) (h : At v past s) :
    wp requestStartup (fun _ => Windowed v) past s := by
  subst h
  rw [requestStartup, wp_modify]
  split
  · have h : At s.teardown past s := rfl
    exact windowed_of_at hinv h
  · rename_i hnot
    have harmed : s.autoStartTimer = .armed := by simpa using (not_or.1 hnot).2
    exact ⟨s.startupTimer.reset, by simp [teardown, harmed, Timer.reset], fun _ => harmed⟩

theorem windowed_endStartup (h : At v past s) :
    wp endStartup (fun _ => Windowed v) past s := by
  subst h
  rw [endStartup, wp_modify]
  exact ⟨s.startupTimer.cancel, rfl, by simp⟩

theorem inv_cancelAutoStart (hinv : Inv v) (h : At v past s)
    (hflags : v.runtimeFault = false ∧ v.teardownPending = false)
    (hstartup : v.startupTimer ≠ .armed) :
    wp cancelAutoStart (fun _ _ s => Inv s.teardown) past s := by
  subst h
  rw [cancelAutoStart, wp_modify]
  exact hinv.cancel hflags.1 hflags.2 hstartup

theorem no_startup (hinv : Inv v) (hflags : v.runtimeFault = false ∧ v.teardownPending = false)
    (hstate : v.state = .active ∨ v.state = .finalized) : v.startupTimer ≠ .armed := by
  intro harmed
  rcases hstate with hstate | hstate
  · have := hinv.active hstate (hinv.startup harmed)
    simp [Flagged, hflags] at this
  · exact hinv.finalized hstate (hinv.startup harmed)

/-- Auto start, on a node without a due teardown. -/
theorem inv_tryAutoStart (hinv : Inv v) (h : At v past s)
    (hflags : v.runtimeFault = false ∧ v.teardownPending = false) :
    wp (tryAutoStart io) (fun _ _ s => Inv s.teardown) past s := by
  have hstate : s.state = v.state := congrArg Teardown.state h
  have hexists : s.autoStartTimer ≠ .null := by
    subst h
    exact hinv.exists_
  simp only [tryAutoStart, wp_bind, wp_get, wp_ite, wp_pure, if_neg hexists]
  cases haction : decideAutoStartAction s.state true (!s.hold) with
  | kWaitEstopRelease =>
    subst h
    exact hinv
  | kStopTimer =>
    exact inv_cancelAutoStart hinv h hflags
      (no_startup hinv hflags (hstate ▸ state_of_kStopTimer haction))
  | kConfigure =>
    have hdown : v.state = .unconfigured := hstate ▸ state_of_kConfigure haction
    simp only [wp_bind]
    refine wp_mono (moved_request h hinv.autoStart) ?_
    rintro state past s ⟨hs, hmoved⟩
    subst hs
    have hnext := hinv.moved hmoved (by simp)
    simp only [wp_get]
    cases haction : decideAutoStartAction s.state true (!s.hold) with
    | kActivate =>
      simp only [wp_ite, wp_pure]
      split
      · exact wp_mono (windowed_requestStartup hnext rfl) fun _ _ _ h => h.inv hnext
      · exact hnext
    | kStopTimer =>
      -- neither where it was nor where it went
      have hend := state_of_kStopTimer haction
      rw [show s.state = s.teardown.state from rfl] at hend
      generalize hw : s.teardown = w at hmoved hend hnext
      cases hmoved with
      | stayed _ => simp [hdown] at hend
      | done _ _ _ => simp [after] at hend
      | raised _ _ => simp [error] at hend
    | kWaitEstopRelease => exact hnext
    | kConfigure => exact hnext
  | kActivate =>
    have hdown : v.state = .inactive := hstate ▸ state_of_kActivate haction
    simp only [wp_bind]
    refine wp_mono (moved_request h hinv.autoStart) ?_
    rintro state past s ⟨hs, hmoved⟩
    subst hs
    have hnext := hinv.moved hmoved fun _ _ hpending => by simp [hflags.2] at hpending
    simp only [wp_get]
    cases haction : decideAutoStartAction s.state true (!s.hold) with
    | kStopTimer =>
      have hend := state_of_kStopTimer haction
      rw [show s.state = s.teardown.state from rfl] at hend
      generalize hw : s.teardown = w at hmoved hend hnext
      cases hmoved with
      | stayed _ => simp [hdown] at hend
      | done _ _ _ => exact inv_cancelAutoStart hnext hw hflags (by simp [after])
      | raised _ _ => simp [error] at hend
    | kActivate => exact hnext
    | kWaitEstopRelease => exact hnext
    | kConfigure => exact hnext

theorem tornDown_autoStartTimer (hinv : Inv v) (h : At v past s) :
    wp (autoStartTimerCallback io) (fun _ _ s => Inv s.teardown ∧
      (Due v → TornDown io s.teardown)) past s := by
  have hstate : s.state = v.state := congrArg Teardown.state h
  have hflags : (s.runtimeFault || s.teardownPending) =
      (v.runtimeFault || v.teardownPending) := by
    subst h
    rfl
  simp only [autoStartTimerCallback, wp_bind, wp_get, wp_ite, wp_pure]
  split
  · rename_i hdue
    refine wp_mono (tornDown_transition h hinv ?_) fun _ _ _ h => ⟨h.inv, fun _ => h⟩
    intro hfin
    simp [hstate, hfin] at hdue
  · rename_i hnot
    have hnot : ¬ Due v := by
      intro hdue
      refine hnot ?_
      rw [hflags, hstate]
      simpa [Flagged] using And.intro hdue.flagged hdue.up
    obtain ⟨hfault, hpending⟩ := hinv.flags_of_not_due hnot
    have hs : s.teardownPending = false := (congrArg Teardown.teardownPending h).trans hpending
    simp only [hs, Bool.false_and, Bool.false_eq_true, if_false]
    refine wp_mono (inv_tryAutoStart hinv h ⟨hfault, hpending⟩) ?_
    intro _ past s hinv'
    exact ⟨hinv', fun hdue => absurd hdue hnot⟩

theorem at_endStartup (h : At v past s) :
    wp endStartup (fun _ _ s => s.teardown = { v with startupTimer := v.startupTimer.cancel })
      past s := by
  subst h
  rw [endStartup, wp_modify]
  rfl

/-! ### Commands: a failed transaction flags a fault -/

/-- Unchanged, or with the fault flagged; and flagged if a transaction so far
has failed. -/
def Monitored (v : Teardown) (past : List BusTransaction) (s : ShotComponent) : Prop :=
  (s.teardown = v ∨ s.teardown = v.recover) ∧
    ((∃ w ∈ past, w.result ≠ .answered) → s.teardown = v.recover)

theorem monitored_triggerAutoRecovery (h : s.teardown = v ∨ s.teardown = v.recover) :
    wp triggerAutoRecovery (fun _ => Monitored v) past s := by
  have hrecovers : wp triggerAutoRecovery (fun _ _ s' => s'.teardown = s.teardown.recover)
      past s := by
    rw [triggerAutoRecovery, wp_modify]
    by_cases hactive : s.autoStart = true ∧ s.state = .active <;>
      simp [teardown, Teardown.recover, hactive]
  refine wp_mono hrecovers ?_
  intro _ past s' hs'
  have hrecovered : s'.teardown = v.recover := by
    rcases h with h | h
    · rw [hs', h]
    · rw [hs', h, recover_recover]
  exact ⟨.inr hrecovered, fun _ => hrecovered⟩

theorem monitored_setPosition {move : Move} {servoId position : ℤ} (h : Monitored v past s) :
    wp (setPosition io move servoId position) (fun ok past s =>
      (s.teardown = v ∨ s.teardown = v.recover) ∧ (ok = true → Monitored v past s)) past s := by
  rw [wp_setPosition]
  split
  · refine ⟨h.1, ?_⟩
    intro hok
    refine ⟨h.1, ?_⟩
    rintro ⟨w, hw, hbad⟩
    rcases List.mem_append.1 hw with hw | hw
    · exact h.2 ⟨w, hw, hbad⟩
    · rw [List.mem_singleton.1 hw] at hbad
      exact absurd (by simpa using hok) hbad
  · exact ⟨h.1, nofun⟩

theorem monitored_returnHome (h : Monitored v past s) :
    wp (returnHome io) (fun ok past s =>
      (s.teardown = v ∨ s.teardown = v.recover) ∧ (ok = true → Monitored v past s)) past s := by
  simp only [returnHome, wp_bind, wp_get]
  exact monitored_setPosition h

theorem monitored_executeShotSequence :
    Triple (Monitored v) (executeShotSequence io) fun _ => Monitored v := by
  intro past s h
  simp only [executeShotSequence, wp_bind, wp_get, wp_ite, wp_pure]
  split
  · exact h
  · refine wp_mono (monitored_setPosition h) ?_
    intro ok past s ⟨h, hok⟩
    cases ok with
    | false => simpa using monitored_triggerAutoRecovery h
    | true =>
      simp only [Bool.not_true, Bool.false_eq_true, if_false, wp_modify]
      exact hok rfl

theorem monitored_fireTimerCallback :
    Triple (Monitored v) (fireTimerCallback io) fun _ => Monitored v := by
  intro past s h
  simp only [fireTimerCallback, wp_bind, wp_modify, wp_ite]
  refine wp_mono (monitored_returnHome (v := v) h) ?_
  intro ok past s ⟨h, hok⟩
  cases ok with
  | false =>
    simp only [Bool.not_false, if_true]
    exact wp_mono (monitored_triggerAutoRecovery h) fun _ _ _ h => h
  | true => exact hok rfl

theorem monitored_moveTiltTo {angleDeg : Dbl} {label : TiltLabel} :
    Triple (Monitored v) (moveTiltTo io angleDeg label) fun _ => Monitored v := by
  intro past s h
  simp only [moveTiltTo, wp_bind, wp_get, wp_ite, wp_pure, wp_modify]
  split
  · exact h
  · split
    · exact h
    · refine wp_mono (monitored_setPosition (v := v) h) ?_
      intro ok past s ⟨h, hok⟩
      cases ok with
      | false => simpa using monitored_triggerAutoRecovery h
      | true => exact hok rfl

theorem monitored_applyPendingTilt :
    Triple (Monitored v) (applyPendingTilt io) fun _ => Monitored v := by
  intro past s h
  simp only [applyPendingTilt, wp_bind, wp_get, wp_ite, wp_pure, wp_modify]
  split
  · exact h
  · exact monitored_moveTiltTo past _ h

theorem monitored_fireIfAllowed {fire : Bool} :
    Triple (Monitored v) (fireIfAllowed io fire) fun _ => Monitored v := by
  intro past s h
  simp only [fireIfAllowed, wp_bind, wp_get, wp_ite, wp_pure]
  split
  · exact h
  · split
    · exact h
    · exact monitored_executeShotSequence past s h

theorem monitored_moveTiltBy {steps : Int32} :
    Triple (Monitored v) (moveTiltBy io steps) fun _ => Monitored v := by
  intro past s h
  simp only [moveTiltBy, wp_bind, wp_get, wp_ite, wp_pure]
  split
  · exact h
  · exact monitored_moveTiltTo past s h

theorem monitored_moveOnEvents {events : InputEvents.Events} :
    Triple (Monitored v) (moveOnEvents io events) fun _ => Monitored v := by
  intro past s h
  simp only [moveOnEvents, wp_bind]
  refine wp_mono (monitored_fireIfAllowed past s h) ?_
  intro _ past s h
  refine wp_mono (monitored_moveTiltBy past s h) ?_
  exact fun _ => monitored_applyPendingTilt

theorem monitored_commandCallback {command : LauncherEvents.Command} :
    Triple (Monitored v) (commandCallback io command) fun _ => Monitored v := by
  intro past s h
  simp only [commandCallback, dropPendingTilt, wp_bind, wp_get, wp_ite, wp_modify]
  split <;> split
  · exact h
  · exact monitored_moveOnEvents past _ h
  · exact h
  · exact monitored_moveOnEvents past _ h

/-! ## What an event can do to it -/

/-- What a step makes of `v`: the startup timer at most; a flagged fault; a
teardown; a step of the auto start; an operator's transition. -/
inductive Effect (io : Surroundings) (input : Input) (v : Teardown) : Teardown → Prop where
  | startup (timer : Timer) (htimer : timer = .armed → v.autoStartTimer = .armed)
      (hinput : input = .autoStartTimer → v.autoStartTimer ≠ .armed) :
      Effect io input v { v with startupTimer := timer }
  | recovered (hinput : input ≠ .autoStartTimer) : Effect io input v v.recover
  | tornDown {w : Teardown} (hcalled : v.state = .active ∨ v.autoStartTimer = .armed)
      (h : TornDown io w) : Effect io input v w
  | started {w : Teardown} (harmed : v.autoStartTimer = .armed) (hdue : ¬ Due v) (hinv : Inv w) :
      Effect io input v w
  | moved {w : Teardown} (t : Transition) (hinput : input = .operator t) (h : Moved io t v w) :
      Effect io input v w

variable {input : Input}

/-- The node's teardown after a step. -/
def Stepped (io : Surroundings) (input : Input) (v : Teardown) (_ : List BusTransaction)
    (s : ShotComponent) : Prop := Effect io input v s.teardown

theorem stepped_of_at (hinv : Inv v) (hinput : input = .autoStartTimer → v.autoStartTimer ≠ .armed)
    (h : At v past s) : Stepped io input v past s := by
  subst h
  exact .startup s.startupTimer hinv.startup hinput

theorem stepped_of_windowed (hinput : input ≠ .autoStartTimer) (h : Windowed v past s) :
    Stepped io input v past s := by
  obtain ⟨timer, hs, htimer⟩ := h
  rw [Stepped, hs]
  exact .startup timer htimer fun heq => absurd heq hinput

theorem stepped_of_monitored (hinv : Inv v) (hinput : input ≠ .autoStartTimer)
    (h : Monitored v past s) : Stepped io input v past s := by
  rcases h.1 with h | h
  · exact stepped_of_at hinv (fun heq => absurd heq hinput) h
  · rw [Stepped, h]
    exact .recovered hinput

theorem stepped_endStartup (hinput : input ≠ .autoStartTimer) (h : At v past s) :
    wp endStartup (fun _ => Stepped io input v) past s :=
  wp_mono (windowed_endStartup h) fun _ _ _ h => stepped_of_windowed hinput h

theorem tornDown_of_windowed (hinv : Inv v) (h : Windowed v past s) (hstate : v.state ≠ .finalized) :
    wp (transitionToUnconfiguredForAutoRecovery io) (fun _ _ s => TornDown io s.teardown)
      past s := by
  obtain ⟨timer, hs, htimer⟩ := h
  exact tornDown_transition hs (hinv.withStartup htimer) hstate

theorem windowed_transition (hinv : Inv v) (h : Windowed v past s)
    (hstate : v.state = .finalized) :
    wp (transitionToUnconfiguredForAutoRecovery io) (fun _ => Windowed v) past s := by
  obtain ⟨timer, hs, htimer⟩ := h
  obtain ⟨hfault, hpending⟩ := hinv.not_flagged (.inr hstate)
  have hcanceled : v.autoStartTimer = .canceled := by
    have harmed := hinv.finalized hstate
    have hnull := hinv.exists_
    cases ht : v.autoStartTimer <;> simp [ht] at harmed hnull ⊢
  have hstate' : s.state = .finalized := (congrArg Teardown.state hs).trans hstate
  have htimer' : s.autoStartTimer = .canceled :=
    (congrArg Teardown.autoStartTimer hs).trans hcanceled
  simp only [transitionToUnconfiguredForAutoRecovery, handleSafetyTeardownState,
    stopAutoStartTimers, decideSafetyTeardownAction, wp_bind, wp_get, wp_ite, wp_pure, wp_modify,
    hstate', htimer', if_neg, reduceCtorEq, not_false_eq_true]
  have hfault' : s.runtimeFault = false := (congrArg Teardown.runtimeFault hs).trans hfault
  have hpending' : s.teardownPending = false :=
    (congrArg Teardown.teardownPending hs).trans hpending
  refine ⟨timer, ?_, htimer⟩
  rw [← hs]
  simp [teardown, hstate', hfault', hpending', htimer', Timer.cancel]

theorem stepped_autoStartTimer (hinv : Inv v) (harmed : v.autoStartTimer = .armed)
    (h : At v past s) :
    wp (autoStartTimerCallback io) (fun _ => Stepped io input v) past s := by
  refine wp_mono (tornDown_autoStartTimer hinv h) ?_
  intro _ past s ⟨hinv', hdue⟩
  by_cases hv : Due v
  · exact .tornDown (.inr harmed) (hdue hv)
  · exact .started harmed hv hinv'

theorem stepped_startupTimer (hinv : Inv v) (harmed : v.startupTimer = .armed)
    (h : At v past s) :
    wp (startupTimerCallback io) (fun _ => Stepped io .startupTimer v) past s := by
  simp only [startupTimerCallback, wp_bind, wp_get]
  cases decideStartupStep s.startupEpisode s.steadyNowSec with
  | kIdle => exact stepped_endStartup (by simp) h
  | kExpired => exact stepped_endStartup (by simp) h
  | kAttempt =>
    simp only [wp_ite, wp_bind, wp_modify, wp_get, wp_pure]
    split
    · exact stepped_endStartup (by simp) h
    · refine wp_mono (tornDown_autoStartTimer (v := v) hinv h) ?_
      intro _ past s hnext
      have hends : ∀ w, Inv w ∧ (Due v → TornDown io w) → Effect io .startupTimer v w := by
        rintro w ⟨hinv', htorn⟩
        by_cases hdue : Due v
        · exact .tornDown (.inr (hinv.startup harmed)) (htorn hdue)
        · exact .started (hinv.startup harmed) hdue hinv'
      split
      · refine wp_mono (at_endStartup rfl) ?_
        intro _ past s' hs
        rw [Stepped, hs]
        refine hends _ ⟨hnext.1.withStartup (by simp), ?_⟩
        exact fun hdue => (hnext.2 hdue).withStartup _
      · exact hends _ hnext

theorem stepped_onEmergencyStop {active : Bool} {change : EstopChange} (hinv : Inv v)
    (h : At v past s) :
    wp (onEmergencyStop io active change) (fun _ => Stepped io (.emergencyStop active) v)
      past s := by
  have hstate : s.state = v.state := congrArg Teardown.state h
  have htimer : s.autoStartTimer = v.autoStartTimer := congrArg Teardown.autoStartTimer h
  have hquiet : ∀ {past s}, At v past s → Stepped io (.emergencyStop active) v past s :=
    fun h => stepped_of_at hinv nofun h
  simp only [onEmergencyStop, wp_bind, wp_get, wp_modify, wp_ite, wp_pure]
  split
  · exact hquiet h
  · split
    · refine wp_mono (windowed_endStartup (v := v) h) ?_
      intro _ past s' h'
      rw [hstate, htimer]
      split
      · rename_i hactive
        refine wp_mono (tornDown_of_windowed hinv h' (by simp [hactive])) ?_
        exact fun _ _ _ h => .tornDown (.inl hactive) h
      · split
        · rename_i hup
          refine wp_mono (tornDown_of_windowed hinv h' (by simp [hup.1])) ?_
          exact fun _ _ _ h => .tornDown (.inr hup.2) h
        · exact stepped_of_windowed nofun h'
    · split
      · exact hquiet h
      · refine wp_mono (windowed_requestStartup (v := v) hinv h) ?_
        exact fun _ _ _ h => stepped_of_windowed nofun h

theorem stepped_emergencyStopTimeout (hinv : Inv v) (h : At v past s) :
    wp (emergencyStopTimeoutCallback io) (fun _ => Stepped io .emergencyStopTimeoutTimer v)
      past s := by
  have hstate : s.state = v.state := congrArg Teardown.state h
  have htimer : s.autoStartTimer = v.autoStartTimer := congrArg Teardown.autoStartTimer h
  have hquiet : Stepped io .emergencyStopTimeoutTimer v past s := stepped_of_at hinv nofun h
  simp only [emergencyStopTimeoutCallback, wp_bind, wp_get, wp_modify, wp_ite, wp_pure]
  split
  · exact hquiet
  · split
    · exact hquiet
    · split
      · exact hquiet
      · rename_i hhold
        rw [hstate, htimer] at hhold
        refine wp_mono (windowed_endStartup (v := v) h) ?_
        intro _ past s' h'
        by_cases hfin : v.state = .finalized
        · refine wp_mono (windowed_transition hinv h' hfin) ?_
          exact fun _ _ _ h => stepped_of_windowed nofun h
        · refine wp_mono (tornDown_of_windowed hinv h' hfin) ?_
          refine fun _ _ _ h => .tornDown ?_ h
          by_contra hheld
          rw [not_or] at hheld
          revert hhold hfin hheld
          cases v.state <;> simp [shouldHoldManualLifecycle]

theorem stepped_applyPermission (hinput : input ≠ .autoStartTimer) (hinv : Inv v)
    (h : At v past s) :
    wp (applyPermission io) (fun _ => Stepped io input v) past s := by
  have hquiet : ∀ {past s}, At v past s → Stepped io input v past s :=
    fun h => stepped_of_at hinv (fun heq => absurd heq hinput) h
  simp only [applyPermission, dropPendingTilt, wp_bind, wp_get, wp_modify, wp_ite, wp_pure]
  split
  · exact hquiet h
  · split
    · refine wp_mono (at_cancelShotSequence (v := v) past _ h) ?_
      exact fun _ _ _ h => stepped_endStartup hinput h
    · split
      · refine wp_mono (windowed_requestStartup (v := v) hinv h) ?_
        exact fun _ _ _ h => stepped_of_windowed hinput h
      · exact hquiet h

/-- The inputs whose transactions are watched for a fault. -/
def Watched (input : Input) : Prop := (∃ command, input = .command command) ∨ input = .fireTimer

theorem monitored_dispatch (hinput : Watched input) (h : At v [] s) :
    wp (dispatch io input) (fun _ => Monitored v) [] s := by
  have hstart : Monitored v [] s := ⟨.inl h, by simp⟩
  rcases hinput with ⟨command, rfl⟩ | rfl
  · simp only [dispatch, wp_bind, wp_get, wp_ite, wp_pure]
    split
    · exact monitored_commandCallback [] s hstart
    · exact hstart
  · simp only [dispatch, wp_bind, wp_get, wp_ite, wp_pure]
    split
    · exact monitored_fireTimerCallback [] s hstart
    · exact hstart

/-- What the callback of an input does. -/
theorem stepped_dispatch (hinv : Inv v) (h : At v [] s) :
    wp (dispatch io input) (fun _ => Stepped io input v) [] s := by
  have hquiet : ∀ {past s}, input ≠ .autoStartTimer → At v past s → Stepped io input v past s :=
    fun hinput h => stepped_of_at hinv (fun heq => absurd heq hinput) h
  cases input with
  | command command =>
    refine wp_mono (monitored_dispatch (.inl ⟨command, rfl⟩) h) ?_
    exact fun _ _ _ h => stepped_of_monitored hinv nofun h
  | emergencyStop active =>
    simp only [dispatch, receiveEmergencyStop, wp_bind, wp_get, wp_ite, wp_pure, wp_modify]
    split
    · exact stepped_onEmergencyStop hinv h
    · exact hquiet nofun h
  | motionPermission launcherAllowed =>
    simp only [dispatch, receiveMotionPermission, wp_bind, wp_get, wp_ite, wp_pure, wp_modify]
    split
    · exact stepped_applyPermission nofun hinv h
    · exact hquiet nofun h
  | commandPublisherTimer publishers =>
    simp only [dispatch, checkCommandPublishers, wp_modify]
    refine hquiet nofun ?_
    split
    · exact h
    · split <;> exact h
  | fireTimer =>
    refine wp_mono (monitored_dispatch (.inr rfl) h) ?_
    exact fun _ _ _ h => stepped_of_monitored hinv nofun h
  | autoStartTimer =>
    simp only [dispatch, wp_bind, wp_get, wp_ite, wp_pure]
    split
    · rename_i harmed
      have harmed : v.autoStartTimer = .armed :=
        (congrArg Teardown.autoStartTimer h).symm.trans harmed
      exact stepped_autoStartTimer hinv harmed h
    · rename_i harmed
      refine stepped_of_at hinv ?_ h
      subst h
      exact fun _ => harmed
  | startupTimer =>
    simp only [dispatch, wp_bind, wp_get, wp_ite, wp_pure]
    split
    · rename_i harmed
      have harmed : v.startupTimer = .armed :=
        (congrArg Teardown.startupTimer h).symm.trans harmed
      exact stepped_startupTimer hinv harmed h
    · exact hquiet nofun h
  | emergencyStopTimeoutTimer =>
    simp only [dispatch, wp_bind, wp_get, wp_ite, wp_pure]
    split
    · exact stepped_emergencyStopTimeout hinv h
    · exact hquiet nofun h
  | permissionTimer =>
    simp only [dispatch, wp_bind, wp_get, wp_ite, wp_pure]
    split
    · exact stepped_applyPermission nofun hinv h
    · exact hquiet nofun h
  | operator t =>
    simp only [dispatch, wp_bind, wp_pure]
    refine wp_mono (moved_request h hinv.autoStart) ?_
    exact fun _ _ _ h => .moved t rfl h.2

/-! ### What follows for the invariant, a due teardown and an operator's hold -/

section Effect

variable {w : Teardown}

/-- An operator does not activate a node whose teardown is pending. -/
def Careful (s : ShotComponent) (e : ShotEvent) : Prop :=
  e.input = .operator .activate → s.state = .inactive → s.teardownPending = true →
    e.io.outcome .activate = .ran → e.io.transaction .home ≠ .answered

instance (s : ShotComponent) (e : ShotEvent) : Decidable (Careful s e) :=
  inferInstanceAs (Decidable (_ → _ → _ → _ → _))

/-- An operator takes the node over. -/
def TakenOver (input : Input) : Prop :=
  input = .operator .deactivate ∨ input = .operator .shutdown

theorem inv_of_effect (hinv : Inv v) (heffect : Effect io input v w)
    (hcareful : input = .operator .activate → v.state = .inactive → v.teardownPending = true →
      io.outcome .activate = .ran → io.transaction .home ≠ .answered) : Inv w := by
  cases heffect with
  | startup timer htimer _ => exact hinv.withStartup htimer
  | recovered _ => exact hinv.recover
  | tornDown _ h => exact h.inv
  | started _ _ h => exact h
  | moved t hinput hmoved =>
    refine hinv.moved hmoved ?_
    rintro rfl
    exact hcareful hinput

theorem due_of_effect (hinv : Inv v) (hdue : Due v) (heffect : Effect io input v w)
    (hcareful : input = .operator .activate → v.state = .inactive → v.teardownPending = true →
      io.outcome .activate = .ran → io.transaction .home ≠ .answered)
    (hheld : ¬ TakenOver input) : w.state = .unconfigured ∨ Due w := by
  cases heffect with
  | startup timer _ _ => exact .inr ⟨hdue.flagged, hdue.armed, hdue.up⟩
  | recovered _ =>
    refine .inr ?_
    unfold Teardown.recover
    split
    · rename_i hactive
      exact ⟨.inl rfl, by simpa using hinv.exists_, .inl hactive.2⟩
    · exact hdue
  | tornDown _ h => exact h.down_or_due
  | started _ hnot _ => exact absurd hdue hnot
  | moved t hinput hmoved =>
    cases hmoved with
    | stayed _ => exact .inr hdue
    | raised _ _ => exact .inl rfl
    | done hstart hran hhome =>
      cases t with
      | configure =>
        have hstate := Transition.startsFrom_configure.1 hstart
        rcases hdue.up with hup | hup <;> cases hstate.symm.trans hup
      | activate =>
        have hstate := Transition.startsFrom_activate.1 hstart
        have hpending : v.teardownPending = true := by
          rcases hdue.flagged with hfault | hpending
          · rw [hinv.no_fault hstate] at hfault
            cases hfault
          · exact hpending
        exact absurd (hhome rfl) (hcareful hinput hstate hpending hran)
      | deactivate => exact absurd (.inl hinput) hheld
      | cleanup => exact .inl rfl
      | shutdown => exact absurd (.inr hinput) hheld

theorem tornDown_of_effect (hdue : Due v) (heffect : Effect io .autoStartTimer v w) :
    TornDown io w := by
  cases heffect with
  | startup _ _ hinput => exact absurd hdue.armed (hinput rfl)
  | recovered hinput => exact absurd rfl hinput
  | tornDown _ h => exact h
  | started _ hnot _ => exact absurd hdue hnot
  | moved t hinput _ => cases hinput

theorem held_of_effect (hstate : v.state ≠ .active) (htimer : v.autoStartTimer ≠ .armed)
    (hinput : ∀ t, input ≠ .operator t) (heffect : Effect io input v w) :
    w.state = v.state ∧ w.autoStartTimer = v.autoStartTimer := by
  cases heffect with
  | startup _ _ _ => exact ⟨rfl, rfl⟩
  | recovered _ => simp [Teardown.recover, hstate]
  | tornDown hcalled _ => simp [hstate, htimer] at hcalled
  | started harmed _ _ => exact absurd harmed htimer
  | moved t heq _ => exact absurd heq (hinput t)

end Effect

/-! ## Steps that call for a teardown -/

/-- An edge to a pressed emergency stop. -/
def Pressed (s : ShotComponent) (input : Input) : Prop :=
  input = .emergencyStop true ∧ s.estopSubscription = true ∧
    (s.estopMonitor.known = false ∨ s.estopTimedOut = false ∧ s.estopMonitor.active = false)

/-- The timer finds that `/emergency_stop`, last heard released, has been
silent for too long. -/
def TimedOut (s : ShotComponent) (input : Input) : Prop :=
  let inputs := s.estopMonitor.inputs s.steadyNowSec
  input = .emergencyStopTimeoutTimer ∧ s.emergencyStopTimeoutTimer = .armed ∧
    s.estopTimedOut = false ∧ inputs.known = true ∧
    isControllableSignalStale inputs.timeoutSec (!inputs.active) inputs.ageSec = true

theorem tornDown_pressed (hinv : Inv v) (h : At v past s)
    (hactive : v.state = .active) (hpressed : Pressed s input) :
    wp (dispatch io input) (fun _ _ s => TornDown io s.teardown) past s := by
  obtain ⟨hinput, hsubscribed, hedge⟩ := hpressed
  have hstate : s.state = .active := (congrArg Teardown.state h).trans hactive
  have hhandled : ¬ (!(!s.estopMonitor.known) && true == (s.estopTimedOut || s.estopMonitor.active))
      = true := by
    rcases hedge with hedge | hedge <;> simp [hedge]
  simp only [hinput, dispatch, receiveEmergencyStop, EmergencyStopMonitor.receive, onEmergencyStop,
    wp_bind, wp_get, wp_modify, wp_ite, wp_pure]
  rw [if_pos hsubscribed, if_neg hhandled, if_pos trivial]
  refine wp_mono (windowed_endStartup (v := v) h) ?_
  intro _ past s' h'
  rw [if_pos hstate]
  exact tornDown_of_windowed hinv h' (by simp [hactive])

theorem tornDown_timedOut (hinv : Inv v) (h : At v past s)
    (hactive : v.state = .active) (htimedOut : TimedOut s input) :
    wp (dispatch io input) (fun _ _ s => TornDown io s.teardown) past s := by
  obtain ⟨rfl, harmed, hlatch, hknown, hstale⟩ := htimedOut
  have hstate : s.state = .active := (congrArg Teardown.state h).trans hactive
  have hpositive : 0 < (s.estopMonitor.inputs s.steadyNowSec).timeoutSec := by
    simp only [isControllableSignalStale, Bool.and_eq_true, decide_eq_true_eq] at hstale
    exact hstale.1.1.2
  have hmanual : ¬ shouldHoldManualLifecycle s.state (decide (s.autoStartTimer ≠ .armed)) = true := by
    simp [shouldHoldManualLifecycle, hstate]
  simp only [dispatch, emergencyStopTimeoutCallback, wp_bind, wp_get, wp_modify, wp_ite, wp_pure]
  rw [if_pos harmed, if_neg (by simp [hlatch, hpositive, hknown]), if_neg (by simp [hstale]),
    if_neg hmanual]
  refine wp_mono (windowed_endStartup (v := v) h) ?_
  exact fun _ _ _ h => tornDown_of_windowed hinv h (by simp [hactive])

theorem due_of_fault {w : BusTransaction} (hinv : Inv v) (hactive : v.state = .active)
    (h : Monitored v past s) (hw : w ∈ past) (hfault : w.result ≠ .answered) :
    Due s.teardown := by
  rw [h.2 ⟨w, hw, hfault⟩, Teardown.recover, if_pos ⟨hinv.autoStart, hactive⟩]
  exact ⟨.inl rfl, by simpa using hinv.exists_, .inl hactive⟩

/-! ## Runs -/

variable {e : ShotEvent}

theorem effect_step (hinv : Inv s.teardown) :
    Effect e.io e.input s.teardown (step s e).1.teardown :=
  step_of_dispatch (R := Stepped e.io e.input s.teardown) (stepped_dispatch hinv rfl)

theorem inv_step (hinv : Inv s.teardown) (hcareful : Careful s e) :
    Inv (step s e).1.teardown :=
  inv_of_effect hinv (effect_step hinv) hcareful

theorem inv_create {config : ShotConfig} {parameters : ShotParameters}
    (hauto : config.autoStart = true) : Inv (create config parameters).teardown where
  autoStart := hauto
  exists_ := by simp [create, teardown, hauto]
  flagged := by simp [create, teardown, Flagged]
  fault := nofun
  pending := nofun
  startup := by simp [create, teardown, hauto]
  active := nofun
  finalized := nofun

/-- A step that calls for a teardown, taken while ACTIVE: a press, silence, or
a servo fault in a callback that watches for one. -/
def Handles (t : Step ShotComponent ShotEvent (List BusTransaction)) : Prop :=
  t.pre.state = .active ∧
    (Pressed (t.pre.elapse t.event.elapsedNs) t.event.input ∨
      TimedOut (t.pre.elapse t.event.elapsedNs) t.event.input ∨
      Watched t.event.input ∧ ∃ w ∈ t.out, w.result ≠ .answered)

/-- The teardown is still due before the step, and the auto-start timer tries
it again. -/
structure Remembers (t : Step ShotComponent ShotEvent (List BusTransaction)) : Prop where
  due : Due t.pre.teardown
  retried : t.event.input = .autoStartTimer → TornDown t.event.io t.post.teardown

/-- The teardown succeeded, or an operator took over. -/
def Ended (t : Step ShotComponent ShotEvent (List BusTransaction)) : Prop :=
  t.post.state = .unconfigured ∨ TakenOver t.event.input

/-- A safety teardown is never lost in the run. -/
structure SafetyTeardown (s₀ : ShotComponent) (es : List ShotEvent) : Prop where
  armed : ∀ t ∈ trace step s₀ es, t.post.runtimeFault = true ∨ t.post.teardownPending = true →
    t.post.autoStartTimer = .armed
  handled : ∀ t ∈ trace step s₀ es, Handles t →
    t.post.state = .unconfigured ∧ t.post.autoStartTimer = .armed ∨ Due t.post.teardown
  kept : BlockedUntil (fun t => Handles t ∧ t.post.state ≠ .unconfigured)
    (fun t => ¬ Remembers t) Ended (trace step s₀ es)
  held : ∀ a t b, trace step s₀ es = a ++ t :: b →
    t.post.state = .inactive ∨ t.post.state = .unconfigured → t.post.autoStartTimer ≠ .armed →
    (∀ u ∈ b, ∀ transition, u.event.input ≠ .operator transition) →
    ∀ u ∈ b, u.post.state = t.post.state ∧ u.post.autoStartTimer = t.post.autoStartTimer

theorem handled_step (hinv : Inv s.teardown) (h : Handles (stepOf step s e)) :
    (step s e).1.state = .unconfigured ∧ (step s e).1.autoStartTimer = .armed ∨
      Due (step s e).1.teardown := by
  obtain ⟨hactive, hpressed | htimedOut | ⟨hwatched, w, hw, hfault⟩⟩ := h
  · have htorn := step_of_dispatch (R := fun _ s => TornDown e.io s.teardown)
      (tornDown_pressed hinv rfl hactive hpressed)
    exact htorn.down_or_due.imp_left fun hdown => ⟨hdown, htorn.armed⟩
  · have htorn := step_of_dispatch (R := fun _ s => TornDown e.io s.teardown)
      (tornDown_timedOut hinv rfl hactive htimedOut)
    exact htorn.down_or_due.imp_left fun hdown => ⟨hdown, htorn.armed⟩
  · have hmonitored := step_of_dispatch (R := Monitored s.teardown)
      (monitored_dispatch hwatched rfl)
    exact .inr (due_of_fault hinv hactive hmonitored hw hfault)

theorem held_run {es : List ShotEvent} (hinv : Inv s.teardown)
    (hstate : s.state = .inactive ∨ s.state = .unconfigured) (htimer : s.autoStartTimer ≠ .armed)
    (hok : ∀ t ∈ trace step s es, Careful t.pre t.event ∧
      ∀ transition, t.event.input ≠ .operator transition) :
    ∀ t ∈ trace step s es, t.post.state = s.state ∧ t.post.autoStartTimer = s.autoStartTimer := by
  have hactive : s.state ≠ .active := by
    rcases hstate with hstate | hstate <;> simp [hstate]
  have hstep : ∀ s' e,
      Inv s'.teardown ∧ s'.state = s.state ∧ s'.autoStartTimer = s.autoStartTimer →
      (Careful s' e ∧ ∀ transition, e.input ≠ .operator transition) →
      Inv (step s' e).1.teardown ∧ (step s' e).1.state = s.state ∧
        (step s' e).1.autoStartTimer = s.autoStartTimer := by
    intro s' e ⟨hinv, hs, ht⟩ ⟨hcareful, hinput⟩
    obtain ⟨hs', ht'⟩ := held_of_effect (v := s'.teardown) (fun h => hactive (hs.symm.trans h))
      (fun h => htimer (ht.symm.trans h)) hinput (effect_step hinv)
    exact ⟨inv_step hinv hcareful, hs'.trans hs, ht'.trans ht⟩
  have hrun := trace_invariant_ok
    (fun s' => Inv s'.teardown ∧ s'.state = s.state ∧ s'.autoStartTimer = s.autoStartTimer)
    hstep es s ⟨hinv, rfl, rfl⟩ hok
  exact fun t ht => (hrun t ht).2.2

/-- In a run in which no operator activates a node whose teardown is pending,
no safety teardown is lost. -/
theorem teardown_not_lost (config : ShotConfig) (parameters : ShotParameters)
    (es : List ShotEvent) (hauto : config.autoStart = true)
    (hcareful : ∀ t ∈ trace step (create config parameters) es, Careful t.pre t.event) :
    SafetyTeardown (create config parameters) es := by
  have hstep : ∀ (s : ShotComponent) e, Inv s.teardown → Careful s e →
      Inv (step s e).1.teardown :=
    fun _ _ => inv_step
  have hinv := trace_invariant_ok (fun s => Inv s.teardown) hstep es _ (inv_create hauto) hcareful
  have heffect : ∀ t ∈ trace step (create config parameters) es,
      Effect t.event.io t.event.input t.pre.teardown t.post.teardown := by
    intro t ht
    have hstep := effect_step (e := t.event) (hinv t ht).1
    rw [eq_stepOf_of_mem_trace ht]
    exact hstep
  exact
    { armed := fun t ht hflags => (hinv t ht).2.flagged hflags
      handled := by
        intro t ht h
        rw [eq_stepOf_of_mem_trace ht] at h ⊢
        exact handled_step (hinv t ht).1 h
      kept := by
        refine blockedUntil_trace (fun s => Due s.teardown) ?_ ?_ ?_
        · intro t ht ⟨h, hup⟩
          rw [eq_stepOf_of_mem_trace ht] at h hup ⊢
          exact (handled_step (hinv t ht).1 h).resolve_left fun hdown => hup hdown.1
        · intro t ht hdue hnot
          rw [Ended, not_or] at hnot
          exact (due_of_effect (hinv t ht).1 hdue (heffect t ht) (hcareful t ht)
            hnot.2).resolve_left hnot.1
        · intro t ht hdue hforgets
          refine hforgets ⟨hdue, ?_⟩
          intro hinput
          have htorn := heffect t ht
          rw [hinput] at htorn
          exact tornDown_of_effect hdue htorn
      held := by
        intro a t b hsplit hstate htimer hquiet
        have hmem : ∀ u ∈ t :: b, u ∈ trace step (create config parameters) es := by
          intro u hu
          rw [hsplit]
          exact List.mem_append_right a hu
        obtain ⟨_, _, _, _, _, _, rfl⟩ := trace_split hsplit
        refine held_run (hinv t (hmem t (by simp))).2 hstate htimer ?_
        exact fun u hu => ⟨hcareful u (hmem u (by simp [hu])), hquiet u hu⟩ }

/-- Released and permitted, the node starts; then the emergency stop is silent
for 2 s and the timeout's cleanup is refused. -/
def startThenSilence : List ShotEvent :=
  [{ input := .emergencyStop false }, { input := .motionPermission true },
    { input := .startupTimer }, { input := .startupTimer },
    { elapsedNs := 2000000000, input := .emergencyStopTimeoutTimer,
      io := { outcome := fun
        | .cleanup => .refused
        | _ => .ran } }]

/-- The auto-start timer tries the cleanup again. -/
theorem teardown_not_lost_retried :
    SafetyTeardown (create {} {}) (startThenSilence ++ [{ input := .autoStartTimer }]) :=
  teardown_not_lost {} {} _ rfl (by decide)

/-- An operator who activates the node between the two leaves a teardown
pending that no timer will try. -/
theorem teardown_lost_by_activate :
    ¬ SafetyTeardown (create {} {})
      (startThenSilence ++ [{ input := .operator .activate }]) := by
  intro h
  have harmed := h.armed
  revert harmed
  decide +kernel

end ShotComponent

end Questix.MotorControl
