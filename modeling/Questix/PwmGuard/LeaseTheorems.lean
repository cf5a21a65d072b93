/-
Questix.PwmGuard.LeaseTheorems — the guard's deadlines over every run of
operations.

`deadline_step` says which steps set the deadline of which state; everything
else keeps it. `LeaseInv` carries that through a run: the deadline of the
state is the time of the step that set it plus the configured duration. An
operation at or past the deadline makes two calls before anything else, the
check and the Low write (`opening_expired`), and a pulse other than neutral
exists only while active, hence only inside the lease.
-/
import Questix.PwmGuard.StepTheorems

namespace Questix.PwmGuard

open Questix.Lib
open Errno

/-! ## What one step does to the deadline -/

variable {s : Core} {e : Event}

theorem config_opening (h : Consistent s) (e : Event) :
    (e.opening s).core.config = s.config := by
  cases (opened h e).1 with
  | quiet hc _ => rw [hc]
  | lowered _ _ _ hc => exact hc

theorem config_step (h : Consistent s) (e : Event) : (step s e).1.config = s.config := by
  show (e.rest (e.opening s)).1.core.config = s.config
  rw [← config_opening h e]
  cases rest_cases e (e.opening s) with
  | idle error hc _ _ => rw [hc]
  | lowered _ _ hc _ _ => exact hc
  | entered _ _ _ _ hc _ _ => exact hc
  | completed _ _ _ _ _ hc _ => rw [hc]
  | commanded _ _ _ _ _ _ _ hc _ => rw [hc]
  | drained _ _ _ _ hc _ => rw [hc]

theorem core_opening (h : Consistent s) (hs : ¬ (e.opening s).core.state.isDown) :
    (e.opening s).core = s := by
  cases (opened h e).1 with
  | quiet hc _ => exact hc
  | lowered _ hd _ _ => exact absurd hd hs

/-- After a step the active state was renewed by it, or was active before with
the same deadline and not renewed. -/
theorem active_step (h : Consistent s) (hs : (step s e).1.state = .active) :
    (Renews (stepOf step s e) ∧ (step s e).1.deadline = e.now + s.config.leaseMs) ∨
    (¬ Renews (stepOf step s e) ∧ s.state = .active ∧
      (step s e).1.deadline = s.deadline) := by
  have hcore : ¬ (e.opening s).core.state.isDown → (e.opening s).core = s := core_opening h
  change (e.rest (e.opening s)).1.core.state = .active at hs
  show (_ ∧ (e.rest (e.opening s)).1.core.deadline = _) ∨
    (_ ∧ _ ∧ (e.rest (e.opening s)).1.core.deadline = _)
  have hok : (stepOf step s e).out.ok = (e.rest (e.opening s)).2 := rfl
  cases rest_cases e (e.opening s) with
  | idle error hc _ href =>
    right
    rw [hc] at hs ⊢
    have hcore := hcore (by simp_all [State.isDown])
    rw [hcore] at hs ⊢
    refine ⟨?_, hs, rfl⟩
    rintro ⟨hop, hr⟩
    rw [hok, href] at hr
    · cases hr
    · rcases hop with ⟨_, _, hop⟩ | ⟨_, _, _, hop⟩ <;>
        rw [show e.op = _ from hop] <;> rfl
  | lowered hd _ _ _ _ => exact absurd hs hd.2.1
  | entered _ _ _ _ _ _ hst =>
    rcases hst with ⟨_, hst, _⟩ | ⟨_, hst⟩
    · rw [hst] at hs
      cases hs
    · exact absurd hs hst.2.1
  | completed seq hop hr ha _ hc _ =>
    left
    have hcore := hcore (by simp [ha, State.isDown])
    refine ⟨⟨.inl ⟨_, seq, hop⟩, hr⟩, ?_⟩
    rw [hc, hcore]
  | commanded seq us hop hr hl _ _ hc _ =>
    left
    have hcore := hcore (by rw [hc] at hs; simp_all [State.isDown])
    rw [hc] at hs ⊢
    refine ⟨⟨.inr ⟨_, seq, us, hop⟩, hr⟩, ?_⟩
    rw [hcore] at hs ⊢
    simp only at hs
    simp [hs]
  | drained _ _ _ _ hc _ =>
    rw [hc] at hs
    cases hs

/-- After a step the arming state was entered by it, or was arming before with
the same deadline. -/
theorem arming_step (h : Consistent s) (hs : (step s e).1.state = .arming) :
    (Rearms (stepOf step s e) ∧ (step s e).1.deadline = e.now + s.config.armMs) ∨
    (¬ Rearms (stepOf step s e) ∧ s.state = .arming ∧
      (step s e).1.deadline = s.deadline) := by
  have hcore : ¬ (e.opening s).core.state.isDown → (e.opening s).core = s := core_opening h
  have hconf : (e.opening s).core.config = s.config := config_opening h e
  change (e.rest (e.opening s)).1.core.state = .arming at hs
  show (_ ∧ (e.rest (e.opening s)).1.core.deadline = _) ∨
    (_ ∧ _ ∧ (e.rest (e.opening s)).1.core.deadline = _)
  have hok : (stepOf step s e).out.ok = (e.rest (e.opening s)).2 := rfl
  cases rest_cases e (e.opening s) with
  | idle error hc _ href =>
    right
    rw [hc] at hs ⊢
    have hcore := hcore (by simp_all [State.isDown])
    rw [hcore] at hs ⊢
    refine ⟨?_, hs, rfl⟩
    rintro ⟨⟨generation, hop⟩, hr⟩
    rw [hok, href] at hr
    · cases hr
    · rw [show e.op = _ from hop]
      rfl
  | lowered hd _ _ _ _ => exact absurd hs hd.1
  | entered generation hop _ _ _ _ hst =>
    rcases hst with ⟨hr, _, hdl⟩ | ⟨_, hst⟩
    · left
      exact ⟨⟨⟨generation, hop⟩, hr⟩, by rw [hdl, hconf]⟩
    · exact absurd hs hst.1
  | completed _ _ _ _ _ hc _ =>
    rw [hc] at hs
    cases hs
  | commanded seq us hop _ _ _ _ hc _ =>
    right
    have hcore := hcore (by rw [hc] at hs; simp_all [State.isDown])
    rw [hc] at hs ⊢
    rw [hcore] at hs ⊢
    simp only at hs
    refine ⟨?_, hs, by simp [hs]⟩
    rintro ⟨⟨generation, hop'⟩, _⟩
    have hop' : e.op = .arm generation := hop'
    rw [hop] at hop'
    cases hop'
  | drained _ _ _ _ hc _ =>
    rw [hc] at hs
    cases hs

/-- After a step the draining state was begun by it, or was draining before
with the same deadline. -/
theorem draining_step (h : Consistent s) (hs : (step s e).1.state = .draining) :
    (BeginsDraining (stepOf step s e) ∧
      (step s e).1.deadline = e.now + s.config.drainMs) ∨
    (¬ BeginsDraining (stepOf step s e) ∧ s.state = .draining ∧
      (step s e).1.deadline = s.deadline) := by
  have hcore : ¬ (e.opening s).core.state.isDown → (e.opening s).core = s := core_opening h
  have hpost : (step s e).1.state = .draining := hs
  change (e.rest (e.opening s)).1.core.state = .draining at hs
  show (_ ∧ (e.rest (e.opening s)).1.core.deadline = _) ∨
    (_ ∧ _ ∧ (e.rest (e.opening s)).1.core.deadline = _)
  cases rest_cases e (e.opening s) with
  | idle error hc _ _ =>
    right
    rw [hc] at hs ⊢
    have hcore := hcore (by simp_all [State.isDown])
    rw [hcore] at hs ⊢
    exact ⟨fun hb => hb.2.2.1 hs, hs, rfl⟩
  | lowered hd _ _ _ _ => exact absurd hs hd.2.2
  | entered _ _ _ _ _ _ hst =>
    rcases hst with ⟨_, hst, _⟩ | ⟨_, hst⟩
    · rw [hst] at hs
      cases hs
    · exact absurd hs hst.2.2
  | completed _ _ _ _ _ hc _ =>
    rw [hc] at hs
    cases hs
  | commanded _ _ _ _ hl _ _ hc _ =>
    rw [hc] at hs
    simp only at hs
    simp [hs, State.isLive] at hl
  | drained seq hop hr hl hc _ =>
    left
    have hcore := hcore (by
      intro hd
      cases hst : (e.opening s).core.state <;> simp_all [State.isLive, State.isDown])
    refine ⟨⟨⟨_, seq, hop⟩, hr, ?_, hpost⟩, by rw [hc, hcore]⟩
    rw [hcore] at hl
    show s.state ≠ .draining
    intro hst
    simp [hst, State.isLive] at hl

/-! ## Deadlines along a run -/

/-- The deadline was set by the last step of kind `sets`, `ms` after its time,
and the state has been `state` ever since. -/
def SetBy (sets : Step Core Event Result → Prop) (state : State) (ms : Int)
    (past : List (Step Core Event Result)) (deadline : Int) : Prop :=
  ∃ x t y, past = x ++ t :: y ∧ sets t ∧ t.post.state = state ∧
    (∀ r ∈ y, ¬ sets r ∧ r.post.state = state) ∧ deadline = t.event.now + ms

theorem SetBy.now {sets : Step Core Event Result → Prop} {state : State} {ms : Int}
    {past : List (Step Core Event Result)} {t : Step Core Event Result} {deadline : Int}
    (hset : sets t) (hs : t.post.state = state) (hd : deadline = t.event.now + ms) :
    SetBy sets state ms (past ++ [t]) deadline :=
  ⟨past, t, [], rfl, hset, hs, by simp, hd⟩

theorem SetBy.later {sets : Step Core Event Result → Prop} {state : State} {ms : Int}
    {past : List (Step Core Event Result)} {t : Step Core Event Result} {deadline : Int}
    (h : SetBy sets state ms past deadline) (hset : ¬ sets t) (hs : t.post.state = state) :
    SetBy sets state ms (past ++ [t]) deadline := by
  obtain ⟨x, u, y, rfl, hu, hus, hy, hd⟩ := h
  refine ⟨x, u, y ++ [t], by simp, hu, hus, ?_, hd⟩
  exact List.forall_mem_append.2 ⟨hy, List.forall_mem_singleton.2 ⟨hset, hs⟩⟩

/-- The deadline of every state that has one goes back to the step that set
it. -/
structure LeaseInv (config : Config) (past : List (Step Core Event Result)) (s : Core) :
    Prop where
  consistent : Consistent s
  config_eq : s.config = config
  active : s.state = .active → SetBy Renews .active config.leaseMs past s.deadline
  arming : s.state = .arming → SetBy Rearms .arming config.armMs past s.deadline
  draining : s.state = .draining →
    SetBy BeginsDraining .draining config.drainMs past s.deadline

theorem LeaseInv.start (config : Config) (env : Env) :
    LeaseInv config [] (Core.start config env).1.core := by
  have hd := Guard.low_isDown env { core := { config := config } } false
  refine ⟨consistent_start config env, ?_, ?_, ?_, ?_⟩
  · exact (Guard.low_frame false).1
  · exact fun hs => absurd hs hd.2.1
  · exact fun hs => absurd hs hd.1
  · exact fun hs => absurd hs hd.2.2

theorem LeaseInv.step {config : Config} {past : List (Step Core Event Result)}
    (h : LeaseInv config past s) (e : Event) :
    LeaseInv config (past ++ [stepOf PwmGuard.step s e]) (PwmGuard.step s e).1 := by
  obtain ⟨hcons, hconf, hact, harm, hdr⟩ := h
  refine ⟨consistent_step hcons e, (config_step hcons e).trans hconf, ?_, ?_, ?_⟩
  · intro hs
    rcases active_step hcons hs with ⟨hset, hd⟩ | ⟨hset, hs', hd⟩
    · exact .now hset hs (hconf ▸ hd)
    · exact hd ▸ (hact hs').later hset hs
  · intro hs
    rcases arming_step hcons hs with ⟨hset, hd⟩ | ⟨hset, hs', hd⟩
    · exact .now hset hs (hconf ▸ hd)
    · exact hd ▸ (harm hs').later hset hs
  · intro hs
    rcases draining_step hcons hs with ⟨hset, hd⟩ | ⟨hset, hs', hd⟩
    · exact .now hset hs (hconf ▸ hd)
    · exact hd ▸ (hdr hs').later hset hs

/-! ## The log only grows -/

namespace Guard

variable {env : Env} {g : Guard}

theorem fault_log (code : Int) : g.log <+: (g.fault env code).log := by
  unfold fault call
  simp only
  cases env g.log .emergencyLow <;> exact List.prefix_append _ _

theorem low_log_mono (env : Env) (g : Guard) (terminal : Bool) : g.log <+: (g.low env terminal).1.log := by
  rw [low_log]
  exact List.prefix_append _ _

theorem write_log (env : Env) (g : Guard) (us : Int) : g.log <+: (g.write env us).1.log := by
  unfold write call
  simp only
  split
  · cases env g.log .check with
    | none => exact List.prefix_append _ _
    | some e =>
      refine List.IsPrefix.trans ?_ (fault_log e.1)
      exact List.prefix_append _ _
  · cases env g.log (.writePulse us) with
    | none => exact List.prefix_append _ _
    | some e =>
      refine List.IsPrefix.trans ?_ (fault_log e.1)
      exact List.prefix_append _ _

theorem enterSession_log (generation : UInt64) (now : Int) :
    g.log <+: (g.enterSession env generation now).1.log := by
  unfold enterSession
  simp only
  have h := write_log env
    { g with core := { g.core with faultError := 0, session := generation, seq := 0 } }
    g.core.config.neutralUs
  revert h
  simp only
  cases Guard.write env _ _ with
  | mk g' ok => cases ok <;> exact id

theorem armTicked_log (generation : UInt64) (now : Int) :
    g.log <+: (g.armTicked env generation now).1.log := by
  cases hm : g.mayArm generation with
  | false => simp [armTicked, hm, reject]
  | true =>
    cases hl : (g.low env false).2 with
    | false =>
      rw [armTicked_of_low_fail now hm hl]
      exact low_log_mono env g false
    | true =>
      rw [armTicked_of_low_ok now hm hl]
      exact (low_log_mono env g false).trans (enterSession_log generation now)

theorem invalid_log : g.log <+: (g.invalid env).1.log := by
  unfold invalid
  split
  · exact fault_log EPROTO
  · exact List.prefix_rfl

theorem applyCommand_log (seq : UInt64) (us now : Int) :
    g.log <+: (g.applyCommand env seq us now).1.log := by
  unfold applyCommand
  simp only
  split
  · exact low_log_mono env { g with core := { g.core with seq := seq } } true
  · have h := write_log env { g with core := { g.core with seq := seq } } us
    revert h
    simp only
    cases Guard.write env us _ with
    | mk g' ok =>
      cases ok with
      | false => exact id
      | true =>
        simp only
        split <;> exact id

theorem shutdownTicked_log (session seq : UInt64) (now : Int) :
    g.log <+: (g.shutdownTicked env session seq now).1.log := by
  unfold shutdownTicked
  split_ifs
  · exact List.prefix_rfl
  · exact List.prefix_rfl
  · exact List.prefix_rfl
  · have h := write_log env { g with core := { g.core with seq := seq } }
      g.core.config.neutralUs
    revert h
    simp only
    cases Guard.write env _ _ with
    | mk g' ok => cases ok <;> exact id

theorem emergencyLow_log (env : Env) (g : Guard) : g.log <+: (g.emergencyLow env).1.log := by
  unfold emergencyLow
  simp only
  split <;> exact low_log_mono env g true

end Guard

theorem rest_log (e : Event) (g : Guard) : g.log <+: (e.rest g).1.log := by
  unfold Event.rest
  cases e.op with
  | arm generation => exact Guard.armTicked_log generation e.now
  | complete session seq =>
    simp only [Guard.completeTicked]
    split_ifs
    · exact Guard.invalid_log
    · exact List.prefix_rfl
    · exact List.prefix_rfl
  | command session seq us =>
    simp only [Guard.commandTicked]
    split_ifs
    · exact Guard.invalid_log
    · exact List.prefix_rfl
    · exact Guard.fault_log EINVAL
    · exact List.prefix_rfl
    · exact Guard.applyCommand_log seq us e.now
  | shutdown session seq => exact Guard.shutdownTicked_log session seq e.now
  | stop session seq =>
    simp only [Guard.stopTicked]
    split
    · exact List.prefix_rfl
    · exact Guard.emergencyLow_log e.env { g with core := { g.core with seq := seq } }
  | disconnected =>
    simp only [Guard.disconnectedTicked]
    split_ifs
    · exact List.prefix_rfl
    · exact Guard.fault_log ECONNRESET
    · exact List.prefix_rfl
  | tick => exact List.prefix_rfl
  | emergencyLow => exact Guard.emergencyLow_log e.env g
  | protocolFault => exact Guard.fault_log EPROTO

/-! ## At or past the deadline -/

/-- What a Low write with this outcome leaves in the core. -/
def LoweredBy (outcome : Option Errno) (s : Core) : Prop :=
  match outcome with
  | none => (s.state = .faultLow ∨ s.state = .terminalLow) ∧ s.applied = 0
  | some _ => s.state = .faultUnknown ∧ s.applied = -1

theorem fault_loweredBy (env : Env) (g : Guard) (code : Int) :
    ∃ o, (g.fault env code).log = g.log ++ [⟨.emergencyLow, g.core.session, o⟩] ∧
      LoweredBy o (g.fault env code).core := by
  unfold Guard.fault Guard.call
  simp only
  cases h : env g.log .emergencyLow with
  | none => exact ⟨none, rfl, .inl rfl, rfl⟩
  | some e => exact ⟨some e, rfl, rfl, rfl⟩

theorem low_loweredBy (env : Env) (g : Guard) :
    ∃ o, (g.low env true).1.log = g.log ++ [⟨.emergencyLow, g.core.session, o⟩] ∧
      LoweredBy o (g.low env true).1.core := by
  unfold Guard.low Guard.call
  simp only
  cases h : env g.log .emergencyLow with
  | none => exact ⟨none, rfl, .inr rfl, rfl⟩
  | some e => exact ⟨some e, rfl, rfl, rfl⟩

theorem opening_expired (ht : e.op.timed = true) (hx : s.expired e.now) :
    ∃ o₁ o₂, (e.opening s).log = [⟨.check, s.session, o₁⟩, ⟨.emergencyLow, s.session, o₂⟩] ∧
      LoweredBy o₂ (e.opening s).core := by
  obtain ⟨hs, hd⟩ := hx
  have hu : s.state ≠ .faultUnknown := by
    rcases hs with hs | hs | hs <;> simp [hs]
  unfold Event.opening
  simp only [ht, if_true]
  unfold Guard.tick
  simp only [hu, if_false, Guard.call]
  refine ⟨e.env [] .check, ?_⟩
  cases e.env [] .check with
  | some err => exact fault_loweredBy e.env { core := s, log := [⟨.check, s.session, some err⟩] } err.1
  | none =>
    simp only [Guard.expire, hd, and_true]
    split_ifs with h1 h2
    · exact fault_loweredBy e.env { core := s, log := [⟨.check, s.session, none⟩] } ETIMEDOUT
    · exact low_loweredBy e.env { core := s, log := [⟨.check, s.session, none⟩] }
    · exfalso
      rcases hs with hs | hs | hs
      · exact h1 (.inl hs)
      · exact h1 (.inr hs)
      · exact h2 hs

theorem not_active_of_isDown (hd : (e.opening s).core.state.isDown) :
    (step s e).1.state ≠ .active := by
  show (e.rest (e.opening s)).1.core.state ≠ .active
  cases rest_cases e (e.opening s) with
  | idle _ hc _ _ =>
    rw [hc]
    exact hd.2.1
  | lowered hd' _ _ _ _ => exact hd'.2.1
  | entered _ _ _ _ _ _ hst =>
    rcases hst with ⟨_, hst, _⟩ | ⟨_, hst⟩
    · simp [hst]
    · exact hst.2.1
  | completed _ _ _ ha _ _ _ => exact absurd ha hd.1
  | commanded _ _ _ _ hl _ _ _ _ =>
    cases hst : (e.opening s).core.state <;> simp_all [State.isLive, State.isDown]
  | drained _ _ _ _ hc _ => simp [hc]

theorem applied_of_becomes_active (h : Consistent s) (hcore : (e.opening s).core = s)
    (hs : s.state ≠ .active) (hpost : (step s e).1.state = .active) :
    (step s e).1.applied = s.config.neutralUs := by
  change (e.rest (e.opening s)).1.core.state = .active at hpost
  show (e.rest (e.opening s)).1.core.applied = _
  have hpulse := h.pulse
  cases rest_cases e (e.opening s) with
  | idle _ hc _ _ =>
    rw [hc, hcore] at hpost
    exact absurd hpost hs
  | lowered hd _ _ _ _ => exact absurd hpost hd.2.1
  | entered _ _ _ _ _ _ hst =>
    rcases hst with ⟨_, hst, _⟩ | ⟨_, hst⟩
    · rw [hst] at hpost
      cases hpost
    · exact absurd hpost hst.2.1
  | completed _ _ _ ha _ hc _ =>
    rw [hcore] at ha hc
    rw [hc]
    rw [ha] at hpulse
    exact hpulse
  | commanded _ _ _ _ _ _ _ hc _ =>
    rw [hc, hcore] at hpost
    exact absurd hpost hs
  | drained _ _ _ _ hc _ =>
    rw [hc] at hpost
    cases hpost

theorem applied_of_not_active (h : Consistent s) (hs : s.state ≠ .active) :
    s.applied = 0 ∨ s.applied = -1 ∨ s.applied = s.config.neutralUs := by
  have hp := h.pulse
  cases hst : s.state <;> simp only [hst, PulseOf] at hp hs <;> simp_all

theorem LeaseInv.applied {config : Config} {past : List (Step Core Event Result)}
    (h : LeaseInv config past s) (ht : e.op.timed = true)
    (hlease : ∀ r ∈ past, Renews r → r.event.now + config.leaseMs ≤ e.now) :
    (PwmGuard.step s e).1.applied = 0 ∨ (PwmGuard.step s e).1.applied = -1 ∨
      (PwmGuard.step s e).1.applied = config.neutralUs := by
  have hcons := consistent_step h.consistent e
  have hconf : (PwmGuard.step s e).1.config = config :=
    (config_step h.consistent e).trans h.config_eq
  by_cases hpost : (PwmGuard.step s e).1.state = .active
  · right; right
    cases (opened h.consistent e).1 with
    | lowered _ hd _ _ => exact absurd hpost (not_active_of_isDown hd)
    | quiet hcore halive =>
      have hs : s.state ≠ .active := by
        intro hs
        obtain ⟨x, t, y, hpast, hr, -, -, hdl⟩ := h.active hs
        refine halive ht ⟨.inr (.inl hs), ?_⟩
        rw [hdl]
        exact hlease t (by simp [hpast]) hr
      rw [applied_of_becomes_active h.consistent hcore hs hpost, h.config_eq]
  · rw [← hconf]
    exact applied_of_not_active hcons hpost

/-! ## Every run -/

theorem leaseInv_run (config : Config) (env : Env) (es : List Event) :
    LeaseInv config (stepsFrom config env es) (runFrom config env es) :=
  trace_history (fun _ _ => True) (LeaseInv.start config env)
    (fun _ _ e h _ => h.step e) es fun _ _ _ _ => trivial

/-- The lease in the run over `es`. -/
structure LeaseKept (config : Config) (env : Env) (es : List Event) : Prop where
  /-- While active, the deadline is the last accepted complete or command plus
  the lease. -/
  active : (runFrom config env es).state = .active →
    SetBy Renews .active config.leaseMs (stepsFrom config env es)
      (runFrom config env es).deadline
  /-- While arming, it is the accepted arm plus the arming time. -/
  arming : (runFrom config env es).state = .arming →
    SetBy Rearms .arming config.armMs (stepsFrom config env es)
      (runFrom config env es).deadline
  /-- While draining, it is the shutdown that began it plus the drain time. -/
  draining : (runFrom config env es).state = .draining →
    SetBy BeginsDraining .draining config.drainMs (stepsFrom config env es)
      (runFrom config env es).deadline
  /-- An operation at or past the deadline first lowers the pulse. -/
  expiry : ∀ t ∈ stepsFrom config env es, t.event.op.timed = true →
    t.pre.expired t.event.now →
    ∃ o₁ o₂ rest, t.out.log =
        ⟨.check, t.pre.session, o₁⟩ :: ⟨.emergencyLow, t.pre.session, o₂⟩ :: rest ∧
      LoweredBy o₂ (t.event.opening t.pre).core ∧
      t.post = (t.event.rest (t.event.opening t.pre)).1.core
  /-- A pulse other than neutral does not survive an operation at or past the
  lease of every accepted complete or command before it. -/
  pulse : ∀ x u z, stepsFrom config env es = x ++ u :: z → u.event.op.timed = true →
    (∀ r ∈ x, Renews r → r.event.now + config.leaseMs ≤ u.event.now) →
    u.post.applied = 0 ∨ u.post.applied = -1 ∨ u.post.applied = config.neutralUs

/-- The lease is kept in every run, whatever the operations, their arguments,
their times and the output's answers. -/
theorem lease_kept (config : Config) (env : Env) (es : List Event) :
    LeaseKept config env es where
  active := (leaseInv_run config env es).active
  arming := (leaseInv_run config env es).arming
  draining := (leaseInv_run config env es).draining
  expiry := by
    intro t ht htimed hx
    rw [eq_stepOf_of_mem_trace ht]
    obtain ⟨o₁, o₂, hlog, hlow⟩ := opening_expired htimed hx
    obtain ⟨rest, hrest⟩ := rest_log t.event (t.event.opening t.pre)
    refine ⟨o₁, o₂, rest, ?_, hlow, rfl⟩
    show (t.event.rest (t.event.opening t.pre)).1.log = _
    rw [← hrest, hlog]
    rfl
  pulse := by
    intro x u z hsplit htimed hlease
    obtain ⟨es₁, e, es₂, rfl, hx, hu, -⟩ := trace_split hsplit
    have inv := leaseInv_run config env es₁
    rw [hx] at hlease
    subst hu
    exact inv.applied htimed hlease

end Questix.PwmGuard
