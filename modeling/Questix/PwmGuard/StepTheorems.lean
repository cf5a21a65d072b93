/-
Questix.PwmGuard.StepTheorems — everything one operation of the guard can do,
said once.

An operation is its opening tick and the rest. `Opened` lists the outcomes of
the first, `Rest` those of the second: refused or without effect, lowered, a
new session entered, armed to active, a command applied, draining begun. Each
constructor says what becomes of state, session, sequence number, deadline
and of the non-zero pulses asked for. The lease and the session discipline
are read off these lists.
-/
import Questix.PwmGuard.CoreTheorems

namespace Questix.PwmGuard

open Questix.Lib
open Errno

/-! ## The outcomes -/

/-- A state without a deadline: no session moves the pulse. -/
def State.isDown (s : State) : Prop := s ≠ .arming ∧ s ≠ .active ∧ s ≠ .draining

/-- The outcomes of the opening tick. -/
inductive Opened (s : Core) (e : Event) (g : Guard) : Prop where
  | quiet (core_eq : g.core = s) (alive : e.op.timed = true → ¬ s.expired e.now)
  | lowered (timed : e.op.timed = true) (down : g.core.state.isDown)
      (session_eq : g.core.session = s.session) (config_eq : g.core.config = s.config)

/-- The operations a client asks for and that are acknowledged. -/
def Op.isRequest : Op → Bool
  | .arm _ => true
  | .complete _ _ => true
  | .command _ _ _ => true
  | _ => false

/-- The outcomes of an operation after its opening tick. -/
inductive Rest (e : Event) (g g' : Guard) (ok : Bool) : Prop where
  /-- Refused, or nothing to do. -/
  | idle (error : Int) (core_eq : g'.core = { g.core with error := error })
      (pulses_eq : g'.pulses = g.pulses) (refused : e.op.isRequest = true → ok = false)
  /-- The pulse was lowered, on purpose or by a fault. -/
  | lowered (down : g'.core.state.isDown) (session_eq : g'.core.session = g.core.session)
      (config_eq : g'.core.config = g.core.config)
      (pulses_eq : g'.pulses = g.pulses ∨ (g.core.state.isLive = true ∧ ∃ us err,
        g'.pulses = g.pulses ++ [⟨.writePulse us, g.core.session, some err⟩]))
      (request : e.op.isRequest = true → ok = true →
        ∃ seq, e.op = .command g.core.session seq 0 ∧ g.core.state.isLive = true ∧
          g.core.seq < seq ∧ g'.pulses = g.pulses)
  /-- A new session, with its neutral pulse or a fault. -/
  | entered (generation : UInt64) (op_eq : e.op = .arm generation)
      (may : g.mayArm generation = true) (session_eq : g'.core.session = generation)
      (config_eq : g'.core.config = g.core.config)
      (pulses_eq : ∃ outcome, g'.pulses = g.pulses ++
        [⟨.writePulse g.core.config.neutralUs, generation, outcome⟩])
      (state_eq : (ok = true ∧ g'.core.state = .arming ∧
          g'.core.deadline = e.now + g.core.config.armMs) ∨
        (ok = false ∧ g'.core.state.isDown))
  /-- The session became active. -/
  | completed (seq : UInt64) (op_eq : e.op = .complete g.core.session seq) (ok_eq : ok = true)
      (arming : g.core.state = .arming) (newer : g.core.seq < seq)
      (core_eq : g'.core = { g.core with
        seq := seq, state := .active, deadline := e.now + g.core.config.leaseMs })
      (pulses_eq : g'.pulses = g.pulses)
  /-- A command's pulse went out. -/
  | commanded (seq : UInt64) (us : Int) (op_eq : e.op = .command g.core.session seq us)
      (ok_eq : ok = true) (live : g.core.state.isLive = true) (nonzero : us ≠ 0)
      (newer : g.core.seq < seq)
      (core_eq : g'.core = { g.core with
        seq := seq, applied := us, error := 0,
        deadline := if g.core.state = .active then e.now + g.core.config.leaseMs
          else g.core.deadline })
      (pulses_eq : g'.pulses = g.pulses ∨
        g'.pulses = g.pulses ++ [⟨.writePulse us, g.core.session, none⟩])
  /-- A normal shutdown began. -/
  | drained (seq : UInt64) (op_eq : e.op = .shutdown g.core.session seq) (ok_eq : ok = true)
      (live : g.core.state.isLive = true)
      (core_eq : g'.core = { g.core with
        seq := seq, applied := g.core.config.neutralUs, error := 0, state := .draining,
        deadline := e.now + g.core.config.drainMs })
      (pulses_eq : g'.pulses = g.pulses ∨
        g'.pulses = g.pulses ++ [⟨.writePulse g.core.config.neutralUs, g.core.session, none⟩])

/-! ## The opening tick -/

theorem State.isDown_of_isFault {s : State} (h : s.isFault = true) : s.isDown := by
  cases s <;> simp_all [State.isFault, State.isDown]

theorem Guard.low_isDown (env : Env) (g : Guard) (terminal : Bool) :
    (g.low env terminal).1.core.state.isDown := by
  cases hok : (g.low env terminal).2 with
  | true =>
    rw [(Guard.low_ok hok).1]
    cases terminal <;> simp [State.isDown]
  | false =>
    rw [(Guard.low_fail hok).1]
    simp [State.isDown]

theorem opened {s : Core} (h : Consistent s) (e : Event) :
    Opened s e (e.opening s) ∧ (e.opening s).pulses = [] := by
  unfold Event.opening
  split
  · rename_i htimed
    rcases Guard.tick_cases e.env { core := s } e.now h.causeError with
      ⟨hc, hp, -, hx⟩ | ⟨g', code, ht, hc, hp, -⟩ | ⟨g', ht, hc, hp, -⟩
    · exact ⟨.quiet hc fun _ => hx, hp⟩
    · rw [ht]
      refine ⟨.lowered htimed (State.isDown_of_isFault (by simp)) (by simp [hc])
        (by simp [hc]), ?_⟩
      rw [(Guard.fault_frame code).2.2.2.2.2.2, hp]
      rfl
    · rw [ht]
      refine ⟨.lowered htimed (Guard.low_isDown e.env g' true) (by simp [hc])
        (by simp [hc]), ?_⟩
      rw [(Guard.low_frame true).2.2.2.2, hp]
      rfl
  · rename_i htimed
    exact ⟨.quiet rfl fun h => absurd h htimed, rfl⟩

/-! ## The rest of an operation -/

section RestLemmas

variable {e : Event} {g : Guard}

theorem isDown_fault (env : Env) (g : Guard) (code : Int) :
    (g.fault env code).core.state.isDown :=
  State.isDown_of_isFault (by simp)

theorem Rest.reject (code : Int) : Rest e g (g.reject code).1 (g.reject code).2 :=
  .idle (-code) rfl rfl fun _ => rfl

theorem Rest.fault {code : Int} {ok : Bool} (hok : e.op.isRequest = true → ok = false) :
    Rest e g (g.fault e.env code) ok := by
  refine .lowered (isDown_fault e.env g code) (by simp) (by simp) (.inl (by simp)) ?_
  intro hr h
  rw [hok hr] at h
  cases h

theorem Rest.invalid : Rest e g (g.invalid e.env).1 (g.invalid e.env).2 := by
  unfold Guard.invalid Guard.failCommand
  split
  · exact .fault fun _ => rfl
  · exact .reject EPERM

/-- Entering a session from Low: one neutral pulse is asked for in its name. -/
theorem enterSession_spec (env : Env) (g : Guard) (generation : UInt64) (now : Int)
    (ha : g.core.applied = 0) :
    (g.enterSession env generation now).1.core.session = generation ∧
    (g.enterSession env generation now).1.core.config = g.core.config ∧
    (∃ outcome, (g.enterSession env generation now).1.pulses = g.pulses ++
      [⟨.writePulse g.core.config.neutralUs, generation, outcome⟩]) ∧
    (((g.enterSession env generation now).2 = true ∧
        (g.enterSession env generation now).1.core.state = .arming ∧
        (g.enterSession env generation now).1.core.deadline = now + g.core.config.armMs) ∨
      ((g.enterSession env generation now).2 = false ∧
        (g.enterSession env generation now).1.core.state.isDown)) := by
  have hb := g.core.config.bounds
  have hne : ¬ (g.core.applied = g.core.config.neutralUs ∨ g.core.config.neutralUs = 0) := by
    omega
  rcases Guard.write_cases env
      { g with core := { g.core with faultError := 0, session := generation, seq := 0 } }
      g.core.config.neutralUs with ⟨g', hw, hc, hp⟩ | ⟨g', e, hw, hc, hp⟩
  · simp only [hne, if_false] at hp
    simp only [Guard.enterSession, hw]
    refine ⟨by rw [hc], by rw [hc], ⟨none, hp⟩, .inl ⟨trivial, trivial, by rw [hc]⟩⟩
  · simp only [hne, if_false] at hp
    simp only [Guard.enterSession, hw]
    refine ⟨by simp [hc], by simp [hc], ⟨some e, ?_⟩, .inr ⟨trivial, isDown_fault env g' e.1⟩⟩
    rw [(Guard.fault_frame e.1).2.2.2.2.2.2, hp]
    rfl

theorem Rest.arm {generation : UInt64} (hop : e.op = .arm generation) :
    Rest e g (g.armTicked e.env generation e.now).1 (g.armTicked e.env generation e.now).2 := by
  cases hm : g.mayArm generation with
  | false =>
    unfold Guard.armTicked
    rw [hm]
    exact .reject EPERM
  | true =>
    cases hl : (g.low e.env false).2 with
    | false =>
      rw [Guard.armTicked_of_low_fail e.now hm hl]
      refine .lowered (Guard.low_isDown e.env g false) (by simp) (by simp) (.inl (by simp)) ?_
      intro _ h
      cases h
    | true =>
      rw [Guard.armTicked_of_low_ok e.now hm hl]
      obtain ⟨hs, hcf, hp, hst⟩ := enterSession_spec e.env (g.low e.env false).1 generation e.now
        (Guard.low_ok hl).2.1
      simp only [Guard.low_frame] at hcf hp hst
      exact .entered generation hop hm hs hcf hp hst

theorem valid_iff {session seq : UInt64} : g.valid session seq = true ↔
    session ≠ 0 ∧ session = g.core.session ∧ g.core.seq < seq := by
  simp [Guard.valid, and_assoc]

theorem Rest.complete {session seq : UInt64} (hop : e.op = .complete session seq) :
    Rest e g (g.completeTicked e.env session seq e.now).1
      (g.completeTicked e.env session seq e.now).2 := by
  unfold Guard.completeTicked
  split_ifs with hv ha
  · exact .invalid
  · exact .reject EPERM
  · rw [Bool.not_eq_true', Bool.not_eq_false, valid_iff] at hv
    obtain ⟨-, rfl, hseq⟩ := hv
    exact .completed seq hop rfl (not_not.1 ha) hseq rfl rfl

theorem Rest.write_fail {g₀ g' : Guard} {us : Int} {err : Errno} {ok : Bool}
    (hlive : g.core.state.isLive = true) (hc : g'.core = g₀.core)
    (hsess : g₀.core.session = g.core.session) (hconf : g₀.core.config = g.core.config)
    (hp₀ : g₀.pulses = g.pulses)
    (hp : g'.pulses = g₀.pulses ++ if g₀.core.applied = us ∨ us = 0 then []
      else [⟨.writePulse us, g₀.core.session, some err⟩]) (hok : ok = false) :
    Rest e g (g'.fault e.env err.1) ok := by
  refine .lowered (isDown_fault e.env g' err.1) (by simp [hc, hsess])
    (by simp [hc, hconf]) ?_ ?_
  · rw [(Guard.fault_frame err.1).2.2.2.2.2.2, hp, hp₀, hsess]
    split_ifs
    · exact .inl (List.append_nil _)
    · exact .inr ⟨hlive, us, err, rfl⟩
  · intro _ h
    rw [hok] at h
    cases h

theorem Rest.apply {seq : UInt64} {us : Int} (hop : e.op = .command g.core.session seq us)
    (hlive : g.core.state.isLive = true) (hseq : g.core.seq < seq) :
    Rest e g (g.applyCommand e.env seq us e.now).1 (g.applyCommand e.env seq us e.now).2 := by
  unfold Guard.applyCommand
  simp only
  split_ifs with hus
  · subst hus
    refine .lowered (Guard.low_isDown e.env _ true) (by simp) (by simp) (.inl (by simp; rfl)) ?_
    intro _ _
    exact ⟨seq, hop, hlive, hseq, by simp; rfl⟩
  · rcases Guard.write_cases e.env { g with core := { g.core with seq := seq } } us with
      ⟨g', hw, hc, hp⟩ | ⟨g', err, hw, hc, hp⟩
    · simp only [hw]
      have hs : g'.core.state = g.core.state := by rw [hc]
      have hpulses : g'.pulses = g.pulses ∨
          g'.pulses = g.pulses ++ [⟨.writePulse us, g.core.session, none⟩] := by
        rw [hp]
        split_ifs
        · exact .inl (List.append_nil _)
        · exact .inr rfl
      by_cases ha : g.core.state = .active
      · rw [if_pos (hs.trans ha)]
        exact .commanded seq us hop rfl hlive hus hseq (by simp [hc, ha]) hpulses
      · rw [if_neg (by rw [hs]; exact ha)]
        exact .commanded seq us hop rfl hlive hus hseq (by simp [hc, ha]) hpulses
    · simp only [hw]
      exact .write_fail hlive hc rfl rfl rfl hp rfl

theorem isLive_of_not {s : State} (h : ¬ (s ≠ .active ∧ s ≠ .arming)) : s.isLive = true := by
  cases s <;> simp_all [State.isLive]

theorem Rest.command {session seq : UInt64} {us : Int} (hop : e.op = .command session seq us) :
    Rest e g (g.commandTicked e.env session seq us e.now).1
      (g.commandTicked e.env session seq us e.now).2 := by
  unfold Guard.commandTicked
  split_ifs with hv hl hr ha
  · exact .invalid
  · exact .reject EPERM
  · exact .fault fun _ => rfl
  · exact .reject EPERM
  · rw [Bool.not_eq_true', Bool.not_eq_false, valid_iff] at hv
    obtain ⟨-, rfl, hseq⟩ := hv
    exact .apply hop (isLive_of_not hl) hseq

theorem Rest.shutdown {session seq : UInt64} (hop : e.op = .shutdown session seq) :
    Rest e g (g.shutdownTicked e.env session seq e.now).1
      (g.shutdownTicked e.env session seq e.now).2 := by
  unfold Guard.shutdownTicked
  split_ifs with hs hd hl
  · exact .reject EPERM
  · exact .idle g.core.error rfl rfl (by simp [hop, Op.isRequest])
  · exact .reject EPERM
  · obtain rfl : session = g.core.session := by
      by_contra hne
      exact hs (.inl hne)
    have hlive := isLive_of_not hl
    rcases Guard.write_cases e.env { g with core := { g.core with seq := seq } }
      g.core.config.neutralUs with ⟨g', hw, hc, hp⟩ | ⟨g', err, hw, hc, hp⟩
    · simp only [hw]
      refine .drained seq hop rfl hlive (by simp [hc]) ?_
      show g'.pulses = _ ∨ g'.pulses = _
      rw [hp]
      split_ifs
      · exact .inl (List.append_nil _)
      · exact .inr rfl
    · simp only [hw]
      exact .write_fail hlive hc rfl rfl rfl hp rfl

theorem emergencyLow_spec (env : Env) (g : Guard) :
    (g.emergencyLow env).1.core.state.isDown ∧
    (g.emergencyLow env).1.core.session = g.core.session ∧
    (g.emergencyLow env).1.core.config = g.core.config ∧
    (g.emergencyLow env).1.pulses = g.pulses := by
  have hdown := Guard.low_isDown env g true
  have hpulses : (g.low env true).1.pulses = g.pulses := by simp
  unfold Guard.emergencyLow
  simp only
  split
  · refine ⟨by simp [State.isDown], by simp, by simp, ?_⟩
    exact hpulses
  · exact ⟨hdown, by simp, by simp, hpulses⟩

theorem Rest.low {ok : Bool} {g₀ : Guard} (hr : e.op.isRequest = false)
    (hs : g₀.core.session = g.core.session) (hc : g₀.core.config = g.core.config)
    (hp : g₀.pulses = g.pulses) : Rest e g (g₀.emergencyLow e.env).1 ok := by
  obtain ⟨hdown, hsess, hconf, hpulses⟩ := emergencyLow_spec e.env g₀
  refine .lowered hdown (hsess.trans hs) (hconf.trans hc) (.inl (hpulses.trans hp)) ?_
  intro h
  rw [hr] at h
  cases h

theorem rest_cases (e : Event) (g : Guard) : Rest e g (e.rest g).1 (e.rest g).2 := by
  unfold Event.rest
  cases hop : e.op with
  | arm generation => exact .arm hop
  | complete session seq => exact .complete hop
  | command session seq us => exact .command hop
  | shutdown session seq => exact .shutdown hop
  | stop session seq =>
    simp only [Guard.stopTicked]
    split
    · exact .reject EPERM
    · exact .low (by simp [hop, Op.isRequest]) rfl rfl rfl
  | disconnected =>
    simp only [Guard.disconnectedTicked]
    split_ifs
    · exact .idle g.core.error rfl rfl (by simp [hop, Op.isRequest])
    · exact .fault (by simp [hop, Op.isRequest])
    · exact .idle g.core.error rfl rfl (by simp [hop, Op.isRequest])
  | tick => exact .idle g.core.error rfl rfl (by simp [hop, Op.isRequest])
  | emergencyLow => exact .low (by simp [hop, Op.isRequest]) rfl rfl rfl
  | protocolFault => exact .fault (by simp [hop, Op.isRequest])

end RestLemmas

/-! ## Steps that move a deadline -/

/-- An arm succeeds. -/
def Rearms (t : Step Core Event Result) : Prop :=
  (∃ generation, t.event.op = .arm generation) ∧ t.out.ok = true

/-- An accepted complete or command. -/
def Renews (t : Step Core Event Result) : Prop :=
  ((∃ session seq, t.event.op = .complete session seq) ∨
    (∃ session seq us, t.event.op = .command session seq us)) ∧ t.out.ok = true

/-- The accepted shutdown that begins the draining; a repeated one does not. -/
def BeginsDraining (t : Step Core Event Result) : Prop :=
  (∃ session seq, t.event.op = .shutdown session seq) ∧ t.out.ok = true ∧
    t.pre.state ≠ .draining ∧ t.post.state = .draining

/-! ## Runs from a start -/

/-- The core after a start and the operations `es`. -/
def runFrom (config : Config) (env : Env) (es : List Event) : Core :=
  final step (Core.start config env).1.core es

/-- The steps of that run. -/
def stepsFrom (config : Config) (env : Env) (es : List Event) : List (Step Core Event Result) :=
  trace step (Core.start config env).1.core es

theorem consistent_final (config : Config) (env : Env) (es : List Event) :
    Consistent (runFrom config env es) :=
  final_invariant Consistent (fun _ e h => consistent_step h e) es _ (consistent_start config env)

def acceptsAll : Env := fun _ _ => none

end Questix.PwmGuard
