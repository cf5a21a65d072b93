/-
Questix.PwmGuard.DaemonTheorems — which non-zero pulses a request can cause,
and what the end of a connection leaves.

`pulses_of_op` says per operation which non-zero pulses its step asks for; the
daemon's dispatch and drop then do what the operation they become does.
-/
import Questix.PwmGuard.SessionTheorems
import Questix.PwmGuard.Daemon

namespace Questix.PwmGuard

open Questix.Lib
open Errno

/-! ## Pulses of an operation -/

namespace Guard

variable {env : Env} {g : Guard} {p : Entry}

theorem write_pulses {us : Int} (hp : p ∈ (g.write env us).1.pulses) :
    p ∈ g.pulses ∨ p.call = .writePulse us := by
  rcases write_cases env g us with ⟨g', hw, -, hpulses⟩ | ⟨g', e, hw, -, hpulses⟩
  · rw [hw, hpulses, List.mem_append] at hp
    refine hp.imp_right ?_
    intro hp
    split at hp
    · cases hp
    · rw [List.mem_singleton.1 hp]
  · rw [hw, (fault_frame _).2.2.2.2.2.2, hpulses, List.mem_append] at hp
    refine hp.imp_right ?_
    intro hp
    split at hp
    · cases hp
    · rw [List.mem_singleton.1 hp]

theorem enterSession_pulses {generation : UInt64} {now : Int}
    (hp : p ∈ (g.enterSession env generation now).1.pulses) :
    p ∈ g.pulses ∨ p.call = .writePulse g.core.config.neutralUs := by
  refine @write_pulses env { g with core := { g.core with
    faultError := 0, session := generation, seq := 0 } } p _ ?_
  unfold enterSession at hp
  simp only at hp
  split at hp <;> rename_i hw <;> rw [hw] <;> exact hp

theorem armTicked_pulses {generation : UInt64} {now : Int}
    (hp : p ∈ (g.armTicked env generation now).1.pulses) :
    p ∈ g.pulses ∨ p.call = .writePulse g.core.config.neutralUs := by
  cases hm : g.mayArm generation with
  | false =>
    simp only [armTicked, hm, Bool.not_false, if_true] at hp
    exact .inl hp
  | true =>
    cases hl : (g.low env false).2 with
    | false =>
      rw [armTicked_of_low_fail now hm hl, (low_frame false).2.2.2.2] at hp
      exact .inl hp
    | true =>
      rw [armTicked_of_low_ok now hm hl] at hp
      have hnew := enterSession_pulses hp
      rwa [(low_frame false).2.2.2.2, (low_frame false).1] at hnew

theorem invalid_pulses : (g.invalid env).1.pulses = g.pulses := by
  unfold invalid
  split
  · exact (fault_frame _).2.2.2.2.2.2
  · rfl

theorem completeTicked_pulses {session seq : UInt64} {now : Int} :
    (g.completeTicked env session seq now).1.pulses = g.pulses := by
  unfold completeTicked
  split_ifs
  · exact invalid_pulses
  · rfl
  · rfl

theorem commandTicked_pulses {session seq : UInt64} {now : Int} :
    (g.commandTicked env session seq 0 now).1.pulses = g.pulses := by
  unfold commandTicked applyCommand
  simp only [if_true]
  split_ifs with h1 h2 h3 h4
  · exact invalid_pulses
  · rfl
  · exact absurd rfl h3.1
  · rfl
  · exact (low_frame true).2.2.2.2

theorem shutdownTicked_pulses {session seq : UInt64} {now : Int}
    (hp : p ∈ (g.shutdownTicked env session seq now).1.pulses) :
    p ∈ g.pulses ∨ p.call = .writePulse g.core.config.neutralUs := by
  unfold shutdownTicked at hp
  split_ifs at hp
  · exact .inl hp
  · exact .inl hp
  · exact .inl hp
  · refine @write_pulses env { g with core := { g.core with seq := seq } } p _ ?_
    simp only at hp
    split at hp <;> rename_i hw <;> rw [hw] <;> exact hp

theorem stopTicked_pulses {session seq : UInt64} :
    (g.stopTicked env session seq).1.pulses = g.pulses := by
  unfold stopTicked
  split_ifs
  · rfl
  · exact (emergencyLow_spec env _).2.2.2

theorem disconnectedTicked_pulses : (g.disconnectedTicked env).pulses = g.pulses := by
  unfold disconnectedTicked
  split_ifs
  · rfl
  · exact (fault_frame _).2.2.2.2.2.2
  · rfl

end Guard

/-- The non-zero pulses an operation may ask for: the neutral one for an arm
and a shutdown, a command's own, none for any other. -/
def MayPulse (call : Call) : Op → Prop
  | .arm _ => call = .writePulse 1000
  | .shutdown _ _ => call = .writePulse 1000
  | .command _ _ us => us ≠ 0
  | _ => False

variable {s : Core} {e : Event} {p : Entry}

theorem pulses_of_op (h : Consistent s) (hp : p ∈ pulsesOf (stepOf step s e)) :
    MayPulse p.call e.op := by
  have h0 := (opened h e).2
  replace hp : p ∈ (e.rest (e.opening s)).1.pulses := hp
  generalize e.opening s = g at h0 hp
  have hold : p ∉ g.pulses := by simp [h0]
  have hneutral : g.core.config.neutralUs = 1000 := g.core.config.bounds.1
  obtain ⟨op, now, env⟩ := e
  cases op with
  | arm generation =>
    rcases Guard.armTicked_pulses hp with hp | hp
    · exact absurd hp hold
    · rw [hneutral] at hp
      exact hp
  | complete session seq =>
    rw [Event.rest, Guard.completeTicked_pulses] at hp
    exact absurd hp hold
  | command session seq us =>
    rintro rfl
    rw [Event.rest, Guard.commandTicked_pulses] at hp
    exact absurd hp hold
  | shutdown session seq =>
    rcases Guard.shutdownTicked_pulses hp with hp | hp
    · exact absurd hp hold
    · rw [hneutral] at hp
      exact hp
  | stop session seq =>
    rw [Event.rest, Guard.stopTicked_pulses] at hp
    exact absurd hp hold
  | disconnected =>
    rw [Event.rest, Guard.disconnectedTicked_pulses] at hp
    exact absurd hp hold
  | tick => exact absurd hp hold
  | emergencyLow =>
    rw [Event.rest, (emergencyLow_spec env g).2.2.2] at hp
    exact absurd hp hold
  | protocolFault =>
    rw [Event.rest, Guard.protocolFault, (Guard.fault_frame _).2.2.2.2.2.2] at hp
    exact absurd hp hold

/-! ## The end of a connection -/

/-- The output is low, or its state is unknown after a fault. -/
def Lowered (s : Core) : Prop :=
  (s.applied = 0 ∧ (s.state = .lowIdle ∨ s.state = .terminalLow ∨ s.state = .faultLow)) ∨
    (s.applied = -1 ∧ s.state = .faultUnknown)

def DrainingNeutral (s : Core) : Prop := s.state = .draining ∧ s.applied = 1000

theorem Consistent.lowered (h : Consistent s) (hl : s.state.isLive = false) :
    Lowered s ∨ DrainingNeutral s := by
  have hp := h.pulse
  have hneutral : s.config.neutralUs = 1000 := s.config.bounds.1
  cases hs : s.state <;> rw [hs] at hp hl <;> simp only [PulseOf] at hp
  · exact .inl (.inl ⟨hp, .inl hs⟩)
  · cases hl
  · cases hl
  · exact .inr ⟨hs, hp.trans hneutral⟩
  · exact .inl (.inl ⟨hp, .inr (.inl hs)⟩)
  · exact .inl (.inl ⟨hp, .inr (.inr hs)⟩)
  · exact .inl (.inr ⟨hp, hs⟩)

theorem disconnected_lowered (h : Consistent s) (hop : e.op = .disconnected) :
    Lowered (step s e).1 ∨ s.state = .draining ∧ DrainingNeutral (step s e).1 := by
  have hpost := consistent_step h e
  have hcore : (step s e).1 = ((e.opening s).disconnectedTicked e.env).core := by
    show (e.rest (e.opening s)).1.core = _
    rw [Event.rest, hop]
  have hlive : (step s e).1.state.isLive = false := by
    rw [hcore]
    exact disconnected_not_live e.env (e.opening s)
  rcases hpost.lowered hlive with hlow | hdrain
  · exact .inl hlow
  · refine .inr ⟨?_, hdrain⟩
    have hopening : (e.opening s).core.state = .draining := by
      have hstate := hdrain.1
      rw [hcore] at hstate
      unfold Guard.disconnectedTicked at hstate
      split_ifs at hstate with hd hl
      · exact hd
      · rcases Guard.fault_state e.env (e.opening s) ECONNRESET with ⟨hf, -⟩ | ⟨hf, -⟩ <;>
          rw [hf] at hstate <;> cases hstate
      · exact hstate
    cases (opened h e).1 with
    | quiet hsame _ => rw [← hsame, hopening]
    | lowered _ hdown _ _ => exact absurd hopening hdown.2.2

/-! ## The daemon -/

/-- The non-zero pulses a request may cause. -/
def Request.MayPulse (r : Request) (call : Call) : Prop :=
  match r.op with
  | .arm => call = .writePulse 1000
  | .shutdown => call = .writePulse 1000
  | .command => r.pulse ≠ 0
  | _ => False

theorem not_live_step (h : Consistent s) (hop : ∀ generation, e.op ≠ .arm generation)
    (hl : s.state.isLive = false) : (step s e).1.state.isLive = false := by
  by_contra hlive
  rw [Bool.not_eq_false] at hlive
  rcases live_step h hlive with ⟨harm, -⟩ | ⟨-, hold, -⟩
  · exact hop _ harm
  · rw [hl] at hold
    cases hold

theorem no_pulse (h : Consistent s) (hop : ∀ call, ¬ MayPulse call e.op) :
    pulsesOf (stepOf step s e) = [] := by
  refine List.eq_nil_iff_forall_not_mem.2 ?_
  intro p hp
  exact hop p.call (pulses_of_op h hp)

namespace Daemon

/-- Without an owner, the core does not move the pulse. -/
structure Sound (d : Daemon) : Prop where
  consistent : Consistent d.core
  idle : d.owner = false → d.core.state.isLive = false

variable {d : Daemon} {r : Request}

theorem apply_sound (h : d.Sound) (cause : Option RequestOp) {op : Op} (i : Instant)
    (hop : ∀ generation, op ≠ .arm generation) : (d.apply cause op i).1.Sound where
  consistent := consistent_step h.consistent _
  idle howner := not_live_step h.consistent hop (h.idle howner)

/-- The daemon's own turns ask for no pulse. -/
def IsTick (n : Note) : Prop :=
  n.cause = none ∧ n.step.event.op = .tick ∧ pulsesOf n.step = []

theorem tick_sound (h : d.Sound) (i : Instant) :
    (d.tick i).1.Sound ∧ (d.tick i).1.owner = d.owner ∧ ∀ n ∈ (d.tick i).2, IsTick n := by
  refine ⟨apply_sound h none i (by intro _ heq; cases heq), rfl, ?_⟩
  intro n hn
  obtain rfl := List.mem_singleton.1 hn
  exact ⟨rfl, rfl, no_pulse h.consistent fun _ hmay => hmay⟩

theorem ticks_sound : ∀ (is : List Instant) {d : Daemon}, d.Sound →
    (d.ticks is).1.Sound ∧ (d.ticks is).1.owner = d.owner ∧ ∀ n ∈ (d.ticks is).2, IsTick n
  | [], d, h => ⟨h, rfl, by intro n hn; cases hn⟩
  | i :: is, d, h => by
      obtain ⟨hsound, howner, hnotes⟩ := tick_sound h i
      obtain ⟨hsounds, howners, hrest⟩ := ticks_sound is hsound
      refine ⟨hsounds, howners.trans howner, ?_⟩
      intro n hn
      rcases List.mem_append.1 hn with hn | hn
      · exact hnotes n hn
      · exact hrest n hn

/-- The end of the connection lowers the output or leaves it draining. -/
def IsDrop (n : Note) : Prop :=
  pulsesOf n.step = [] ∧
    (Lowered n.step.post ∨ n.step.pre.state = .draining ∧ DrainingNeutral n.step.post)

theorem drop_sound (h : d.Sound) (i : Instant) :
    (d.drop i).1.Sound ∧ (d.drop i).1.owner = false ∧ ∀ n ∈ (d.drop i).2, IsDrop n := by
  cases howner : d.owner with
  | false =>
    rw [drop, howner]
    exact ⟨h, howner, by intro n hn; cases hn⟩
  | true =>
    let e : Event := ⟨.disconnected, i.now, i.env⟩
    have hdrop : d.drop i = (⟨(step d.core e).1, false⟩, [⟨none, stepOf step d.core e⟩]) := by
      rw [drop, howner]
      rfl
    rw [hdrop]
    refine ⟨⟨consistent_step h.consistent e, ?_⟩, rfl, ?_⟩
    · intro _
      exact disconnected_not_live i.env (e.opening d.core)
    · intro n hn
      obtain rfl := List.mem_singleton.1 hn
      refine ⟨no_pulse h.consistent fun _ hmay => hmay, ?_⟩
      exact disconnected_lowered (e := e) h.consistent rfl

/-- What a request does: no disconnect, and no pulse but those it may cause. -/
structure IsServed (r : Request) (n : Note) : Prop where
  kept : n.step.event.op ≠ .disconnected
  pulses : ∀ p ∈ pulsesOf n.step, n.cause = some r.op ∧ r.MayPulse p.call

theorem coreOp_spec {generation : UInt64} {op : Op} (hop : d.coreOp r generation = some op) :
    op ≠ .disconnected ∧ (∀ call, MayPulse call op → r.MayPulse call) ∧
      ((∀ g, op ≠ .arm g) ∨ r.op = .arm ∧ d.owner = false) := by
  unfold coreOp at hop
  split at hop
  case h_1 hr =>
    split_ifs at hop with howner
    cases hop
    refine ⟨by simp, ?_, .inr ⟨hr, by simpa using howner⟩⟩
    intro call hmay
    rw [Request.MayPulse, hr]
    exact hmay
  case h_6 => cases hop
  all_goals
    rename_i hr
    split_ifs at hop
    cases hop
    refine ⟨by simp, ?_, .inl (by simp)⟩
    intro call hmay
    rw [Request.MayPulse, hr]
    exact hmay

theorem applied_sound (h : d.Sound) {generation : UInt64} {op : Op} (i : Instant)
    (hop : d.coreOp r generation = some op) :
    Sound { (d.apply (some r.op) op i).1 with
      owner := d.owner || (decide (r.op = .arm) && (d.apply (some r.op) op i).2.1) } := by
  obtain ⟨-, -, harm⟩ := coreOp_spec hop
  refine ⟨consistent_step h.consistent _, ?_⟩
  intro howner
  obtain ⟨hidle, hfailed⟩ := Bool.or_eq_false_iff.1 howner
  have hdown := h.idle hidle
  rcases harm with hno | ⟨hr, -⟩
  · exact not_live_step h.consistent hno hdown
  · simp only [hr, decide_true, Bool.true_and] at hfailed
    by_contra hlive
    rw [Bool.not_eq_false] at hlive
    rcases live_step h.consistent hlive with ⟨-, hok, -⟩ | ⟨-, hold, -⟩
    · exact absurd hok (Bool.eq_false_iff.1 hfailed)
    · rw [hdown] at hold
      cases hold

theorem serve_sound (h : d.Sound) (x : Serve) (r : Request) :
    (d.serve x r).1.Sound ∧ ∀ n ∈ (d.serve x r).2.2, IsTick n ∨ IsServed r n := by
  unfold serve
  split
  · split
    · -- a frame that does not parse is a fault of the protocol while active
      refine ⟨apply_sound h (some r.op) _ (by intro _ heq; cases heq), ?_⟩
      intro n hn
      obtain rfl := List.mem_singleton.1 hn
      have hkept : Op.protocolFault ≠ .disconnected := by simp
      exact .inr ⟨hkept, fun p hp => (pulses_of_op h.consistent hp).elim⟩
    · exact ⟨h, by intro n hn; cases hn⟩
  · obtain ⟨hsound, -, hticks⟩ := tick_sound h ⟨x.now, x.tickEnv⟩
    change (d.apply none .tick ⟨x.now, x.tickEnv⟩).1.Sound at hsound
    change ∀ n ∈ (d.apply none .tick ⟨x.now, x.tickEnv⟩).2.2, IsTick n at hticks
    generalize d.apply none .tick ⟨x.now, x.tickEnv⟩ = ticked at hsound hticks ⊢
    obtain ⟨d', _, notes⟩ := ticked
    simp only
    split
    · exact ⟨hsound, fun n hn => .inl (hticks n hn)⟩
    · rename_i op hop
      obtain ⟨hkept, hmay, -⟩ := coreOp_spec hop
      refine ⟨applied_sound hsound ⟨x.now, x.env⟩ hop, ?_⟩
      intro n hn
      rcases List.mem_append.1 hn with hn | hn
      · exact .inl (hticks n hn)
      · obtain rfl := List.mem_singleton.1 hn
        refine .inr ⟨hkept, ?_⟩
        intro p hp
        exact ⟨rfl, hmay p.call (pulses_of_op hsound.consistent hp)⟩

end Daemon

end Questix.PwmGuard
