/-
Questix.PwmGuard.SessionTheorems — sessions and sequence numbers over every
run of operations.

Two latches (`Lib.blockedUntil_trace`) carry the discipline. After an event
that ends a session, the core is not live in that session's name; only an
accepted arm makes it live again, and an arm never presents the current
generation. While the core is live its sequence number is at least that of
every command accepted since the arm.

The core compares an arm's generation with the current session only. A
generation used before may therefore be armed again, and then moves the pulse
in the old session's name: `reusedGeneration_moves`.
-/
import Questix.PwmGuard.StepTheorems

namespace Questix.PwmGuard

open Questix.Lib
open Errno

/-! ## Events of a session -/

/-- The non-zero pulses a step asks for. -/
def pulsesOf (t : Step Core Event Result) : List Entry := t.out.log.filter Entry.isPulse

/-- A step asks for a non-zero pulse in the name of a session. -/
def MovesPulse (session : UInt64) (t : Step Core Event Result) : Prop :=
  ∃ p ∈ pulsesOf t, p.session = session

/-- An accepted arm with a generation that is not the current one. -/
def Arms (generation : UInt64) (t : Step Core Event Result) : Prop :=
  t.event.op = .arm generation ∧ t.out.ok = true ∧ generation ≠ 0 ∧
    generation ≠ t.pre.session

/-- An accepted command with sequence number `seq`. -/
def AcceptsCommand (seq : UInt64) (t : Step Core Event Result) : Prop :=
  (∃ session us, t.event.op = .command session seq us) ∧ t.out.ok = true

/-- The events that end a session: a fault, an accepted stop or shutdown, a
disconnect, an emergency Low, the expiry of a deadline. -/
inductive Ends (session : UInt64) (t : Step Core Event Result) : Prop where
  | fault (cause : t.post.faultError ≠ 0) (session_eq : session = t.post.session)
  | openingFault (cause : (t.event.opening t.pre).core.faultError ≠ 0)
      (session_eq : session = t.pre.session)
  | expiry (timed : t.event.op.timed = true) (expired : t.pre.expired t.event.now)
      (session_eq : session = t.pre.session)
  | stop (op_eq : ∃ session seq, t.event.op = .stop session seq) (ok : t.out.ok = true)
      (session_eq : session = t.post.session)
  | shutdown (op_eq : ∃ session seq, t.event.op = .shutdown session seq) (ok : t.out.ok = true)
      (session_eq : session = t.post.session)
  | disconnected (op_eq : t.event.op = .disconnected) (session_eq : session = t.post.session)
  | emergencyLow (op_eq : t.event.op = .emergencyLow) (session_eq : session = t.post.session)

/-! ## One step -/

variable {s : Core} {e : Event}

theorem isLive_eq_false_of_isDown {st : State} (h : st.isDown) : st.isLive = false := by
  cases st <;> simp_all [State.isDown, State.isLive]

theorem core_opening_of_live (h : Consistent s) (hl : (e.opening s).core.state.isLive = true) :
    (e.opening s).core = s := by
  cases (opened h e).1 with
  | quiet hc _ => exact hc
  | lowered _ hd _ _ =>
    rw [isLive_eq_false_of_isDown hd] at hl
    cases hl

theorem session_opening (h : Consistent s) (e : Event) :
    (e.opening s).core.session = s.session := by
  cases (opened h e).1 with
  | quiet hc _ => rw [hc]
  | lowered _ _ hs _ => exact hs

/-- A step asks for at most one non-zero pulse: an arm in its generation's
name, any other operation in the name of the live session. -/
theorem pulses_step (h : Consistent s) (e : Event) :
    pulsesOf (stepOf step s e) = [] ∨
    ∃ us outcome, (∃ generation, e.op = .arm generation ∧
        pulsesOf (stepOf step s e) = [⟨.writePulse us, generation, outcome⟩]) ∨
      (s.state.isLive = true ∧
        pulsesOf (stepOf step s e) = [⟨.writePulse us, s.session, outcome⟩]) := by
  have hp : pulsesOf (stepOf step s e) = (e.rest (e.opening s)).1.pulses := rfl
  have h0 := (opened h e).2
  have hcore : (e.opening s).core.state.isLive = true → (e.opening s).core = s :=
    core_opening_of_live h
  rw [hp]
  cases rest_cases e (e.opening s) with
  | idle _ _ hpulses _ => exact .inl (hpulses.trans h0)
  | lowered _ _ _ hpulses _ =>
    rcases hpulses with hpulses | ⟨hl, us, err, hpulses⟩
    · exact .inl (hpulses.trans h0)
    · rw [h0, hcore hl] at hpulses
      rw [hcore hl] at hl
      exact .inr ⟨us, some err, .inr ⟨hl, hpulses⟩⟩
  | entered generation hop _ _ _ hpulses _ =>
    obtain ⟨outcome, hpulses⟩ := hpulses
    rw [h0] at hpulses
    exact .inr ⟨_, outcome, .inl ⟨generation, hop, hpulses⟩⟩
  | completed _ _ _ _ _ _ hpulses => exact .inl (hpulses.trans h0)
  | commanded seq us _ _ hl _ _ _ hpulses =>
    rcases hpulses with hpulses | hpulses
    · exact .inl (hpulses.trans h0)
    · rw [h0, hcore hl] at hpulses
      rw [hcore hl] at hl
      exact .inr ⟨us, none, .inr ⟨hl, hpulses⟩⟩
  | drained seq _ _ hl _ hpulses =>
    rcases hpulses with hpulses | hpulses
    · exact .inl (hpulses.trans h0)
    · rw [h0, hcore hl] at hpulses
      rw [hcore hl] at hl
      exact .inr ⟨_, none, .inr ⟨hl, hpulses⟩⟩

/-- The core after a step is live only if the step is an accepted arm, or the
core was live before it in the same session. -/
theorem live_step (h : Consistent s) (hl : (step s e).1.state.isLive = true) :
    Arms (step s e).1.session (stepOf step s e) ∨
    ((e.opening s).core = s ∧ s.state.isLive = true ∧
      (step s e).1.session = s.session ∧ s.seq ≤ (step s e).1.seq) := by
  have hsess := session_opening h e
  have hcore : (e.opening s).core.state.isLive = true → (e.opening s).core = s :=
    core_opening_of_live h
  change (e.rest (e.opening s)).1.core.state.isLive = true at hl
  show Arms (e.rest (e.opening s)).1.core.session _ ∨
    (_ ∧ _ ∧ (e.rest (e.opening s)).1.core.session = _ ∧
      _ ≤ (e.rest (e.opening s)).1.core.seq)
  cases rest_cases e (e.opening s) with
  | idle _ hc _ _ =>
    right
    rw [hc] at hl ⊢
    have hcore := hcore hl
    rw [hcore] at hl ⊢
    exact ⟨rfl, hl, rfl, UInt64.le_refl _⟩
  | lowered hd _ _ _ _ =>
    rw [isLive_eq_false_of_isDown hd] at hl
    cases hl
  | entered generation hop hm hgen _ _ hst =>
    left
    rcases hst with ⟨hok, _, _⟩ | ⟨_, hd⟩
    · simp only [Guard.mayArm, Bool.and_eq_true, bne_iff_ne, ne_eq] at hm
      refine ⟨hgen ▸ hop, hok, hgen ▸ hm.1.2, ?_⟩
      show _ ≠ s.session
      rw [hgen, ← hsess]
      exact hm.2
    · rw [isLive_eq_false_of_isDown hd] at hl
      cases hl
  | completed seq _ _ ha hlt hc _ =>
    right
    have hcore := hcore (by simp [ha, State.isLive])
    rw [hc]
    rw [hcore] at ha hlt ⊢
    exact ⟨rfl, by simp [ha, State.isLive], rfl, UInt64.le_of_lt hlt⟩
  | commanded seq us _ _ hlive _ hlt hc _ =>
    right
    have hcore := hcore hlive
    rw [hc]
    rw [hcore] at hlive hlt ⊢
    exact ⟨rfl, hlive, rfl, UInt64.le_of_lt hlt⟩
  | drained _ _ _ _ hc _ =>
    rw [hc] at hl
    cases hl

/-! ## The latches -/

/-- The core does not move the pulse in the name of `session`. -/
def Dead (session : UInt64) (s : Core) : Prop := s.session = session → s.state.isLive = false

/-- While live, the core's sequence number is at least `seq`. -/
def Past (seq : UInt64) (s : Core) : Prop := s.state.isLive = true → seq ≤ s.seq

theorem not_live_of_fault (h : Consistent s) (hf : s.faultError ≠ 0) :
    s.state.isLive = false :=
  isLive_eq_false_of_isDown (State.isDown_of_isFault (h.cause.1 hf))

theorem stop_isDown {g : Guard} {session seq : UInt64} {env : Env}
    (hok : (g.stopTicked env session seq).2 = true) :
    (g.stopTicked env session seq).1.core.state.isLive = false := by
  unfold Guard.stopTicked at hok ⊢
  split_ifs at hok ⊢
  · cases hok
  · exact isLive_eq_false_of_isDown (emergencyLow_spec env _).1

theorem shutdown_not_live {g : Guard} {session seq : UInt64} {env : Env} {now : Int}
    (hok : (g.shutdownTicked env session seq now).2 = true) :
    (g.shutdownTicked env session seq now).1.core.state.isLive = false := by
  unfold Guard.shutdownTicked at hok ⊢
  split_ifs at hok ⊢ with hs hd
  · cases hok
  · rcases hd with hd | hd <;> simp [hd, State.isLive]
  · cases hok
  · revert hok
    simp only
    cases Guard.write env _ _ with
    | mk g' ok =>
      cases ok with
      | false => exact fun h => by cases h
      | true => exact fun _ => rfl

theorem disconnected_not_live (env : Env) (g : Guard) :
    (g.disconnectedTicked env).core.state.isLive = false := by
  unfold Guard.disconnectedTicked
  split_ifs with hd hl
  · simp [hd, State.isLive]
  · exact isLive_eq_false_of_isDown (isDown_fault env g _)
  · cases hst : g.core.state <;> simp_all [State.isLive]

theorem not_expired_of_core_opening (h : Consistent s) (hcore : (e.opening s).core = s)
    (hl : s.state.isLive = true) (ht : e.op.timed = true) : ¬ s.expired e.now := by
  cases (opened h e).1 with
  | quiet _ halive => exact halive ht
  | lowered _ hd _ _ =>
    rw [hcore] at hd
    rw [isLive_eq_false_of_isDown hd] at hl
    cases hl

/-- An event that ends a session leaves it dead. -/
theorem dead_of_ends (h : Consistent s) {session : UInt64}
    (hends : Ends session (stepOf step s e)) : Dead session (step s e).1 := by
  intro hsess
  by_contra hl
  rw [Bool.not_eq_false] at hl
  have hrest : (step s e).1 = (e.rest (e.opening s)).1.core := rfl
  have hlive := live_step h hl
  cases hends with
  | fault hf _ =>
    have := not_live_of_fault (consistent_step h e) hf
    rw [this] at hl
    cases hl
  | openingFault hf hs =>
    rcases hlive with ha | ⟨hcore, hl', -, -⟩
    · exact ha.2.2.2 (hsess.trans hs)
    · have hf : (e.opening s).core.faultError ≠ 0 := hf
      rw [hcore] at hf
      rw [not_live_of_fault h hf] at hl'
      cases hl'
  | expiry ht hx hs =>
    rcases hlive with ha | ⟨hcore, hl', -, -⟩
    · exact ha.2.2.2 (hsess.trans hs)
    · exact not_expired_of_core_opening h hcore hl' ht hx
  | stop hop hok _ =>
    obtain ⟨sess, seq, hop⟩ := hop
    have hop : e.op = .stop sess seq := hop
    have hok : (e.rest (e.opening s)).2 = true := hok
    rw [hrest] at hl
    simp only [Event.rest, hop] at hok hl
    rw [stop_isDown hok] at hl
    cases hl
  | shutdown hop hok _ =>
    obtain ⟨sess, seq, hop⟩ := hop
    have hop : e.op = .shutdown sess seq := hop
    have hok : (e.rest (e.opening s)).2 = true := hok
    rw [hrest] at hl
    simp only [Event.rest, hop] at hok hl
    rw [shutdown_not_live hok] at hl
    cases hl
  | disconnected hop _ =>
    have hop : e.op = .disconnected := hop
    rw [hrest] at hl
    simp only [Event.rest, hop] at hl
    rw [disconnected_not_live] at hl
    cases hl
  | emergencyLow hop _ =>
    have hop : e.op = .emergencyLow := hop
    rw [hrest] at hl
    simp only [Event.rest, hop] at hl
    rw [isLive_eq_false_of_isDown (emergencyLow_spec e.env _).1] at hl
    cases hl

theorem dead_step (h : Consistent s) {session : UInt64} (hd : Dead session s)
    (hna : ¬ Arms session (stepOf step s e)) : Dead session (step s e).1 := by
  intro hsess
  by_contra hl
  rw [Bool.not_eq_false] at hl
  rcases live_step h hl with ha | ⟨-, hl', hs, -⟩
  · exact hna (hsess ▸ ha)
  · rw [hd (hs ▸ hsess)] at hl'
    cases hl'

theorem not_movesPulse_of_dead (h : Consistent s) {session : UInt64} (hd : Dead session s)
    (hop : e.op ≠ .arm session) : ¬ MovesPulse session (stepOf step s e) := by
  rintro ⟨p, hp, hps⟩
  rcases pulses_step h e with hnil | ⟨us, o, ⟨generation, hop', heq⟩ | ⟨hl, heq⟩⟩
  · rw [hnil] at hp
    cases hp
  · rw [heq, List.mem_singleton] at hp
    rw [hp] at hps
    exact hop (hps ▸ hop')
  · rw [heq, List.mem_singleton] at hp
    rw [hp] at hps
    rw [hd hps] at hl
    cases hl

/-- An accepted command is newer than the sequence number before it, and moves
the pulse at most once, to what it asks for. -/
theorem acceptsCommand_step (h : Consistent s) {seq : UInt64}
    (ha : AcceptsCommand seq (stepOf step s e)) :
    s.state.isLive = true ∧ s.seq < seq ∧ Past seq (step s e).1 ∧
    ∃ us, e.op = .command s.session seq us ∧
      (pulsesOf (stepOf step s e) = [] ∨
        pulsesOf (stepOf step s e) = [⟨.writePulse us, s.session, none⟩]) := by
  obtain ⟨⟨sess, us, hop⟩, hok⟩ := ha
  have hop : e.op = .command sess seq us := hop
  have hok : (e.rest (e.opening s)).2 = true := hok
  have hp : pulsesOf (stepOf step s e) = (e.rest (e.opening s)).1.pulses := rfl
  have h0 := (opened h e).2
  have hcore : (e.opening s).core.state.isLive = true → (e.opening s).core = s :=
    core_opening_of_live h
  rw [hp]
  show _ ∧ _ ∧ Past seq (e.rest (e.opening s)).1.core ∧ _
  cases rest_cases e (e.opening s) with
  | idle _ _ _ href =>
    rw [href (by rw [hop]; rfl)] at hok
    cases hok
  | lowered hd _ _ _ hreq =>
    obtain ⟨seq', hop', hl, hlt, hpulses⟩ := hreq (by rw [hop]; rfl) hok
    rw [hop, Op.command.injEq] at hop'
    obtain ⟨rfl, rfl, rfl⟩ := hop'
    have hcore := hcore hl
    rw [hcore] at hl hlt hop
    refine ⟨hl, hlt, ?_, 0, hop, .inl (hpulses.trans h0)⟩
    intro hlive
    rw [isLive_eq_false_of_isDown hd] at hlive
    cases hlive
  | entered _ hop' _ _ _ _ _ =>
    rw [hop] at hop'
    cases hop'
  | completed _ hop' _ _ _ _ _ =>
    rw [hop] at hop'
    cases hop'
  | commanded seq' us' hop' _ hl _ hlt hc hpulses =>
    rw [hop, Op.command.injEq] at hop'
    obtain ⟨rfl, rfl, rfl⟩ := hop'
    have hcore := hcore hl
    rw [hc]
    rw [hcore] at hl hlt hop hpulses
    rw [h0] at hpulses
    exact ⟨hl, hlt, fun _ => UInt64.le_refl _, us, hop, hpulses⟩
  | drained _ hop' _ _ _ _ =>
    rw [hop] at hop'
    cases hop'

theorem past_step (h : Consistent s) {seq : UInt64} (hpast : Past seq s)
    (hna : ∀ generation, ¬ Arms generation (stepOf step s e)) : Past seq (step s e).1 := by
  intro hl
  rcases live_step h hl with ha | ⟨-, hl', -, hle⟩
  · exact absurd ha (hna _)
  · exact UInt64.le_trans (hpast hl') hle

/-! ## Every run -/

variable {config : Config} {env : Env} {es : List Event}

theorem step_of_mem {t : Step Core Event Result} (ht : t ∈ stepsFrom config env es) :
    Consistent t.pre ∧ t = stepOf step t.pre t.event :=
  ⟨(trace_invariant Consistent (fun _ e h => consistent_step h e) es _
    (consistent_start config env) t ht).1, eq_stepOf_of_mem_trace ht⟩

/-- The session discipline in the run over `es`. -/
structure Disciplined (config : Config) (env : Env) (es : List Event) : Prop where
  /-- Between accepted arms, accepted commands have increasing numbers. -/
  increasing : ∀ seq, BlockedUntil (AcceptsCommand seq)
    (fun u => ∃ seq', AcceptsCommand seq' u ∧ seq' ≤ seq)
    (fun r => ∃ generation, Arms generation r) (stepsFrom config env es)
  /-- An accepted command moves the pulse at most once, to what it asks for. -/
  writtenOnce : ∀ t ∈ stepsFrom config env es, ∀ seq, AcceptsCommand seq t →
    ∃ us, t.event.op = .command t.pre.session seq us ∧
      (pulsesOf t = [] ∨ pulsesOf t = [⟨.writePulse us, t.pre.session, none⟩])
  /-- An ended session moves no pulse until an arm that presents it again is
  accepted; such an arm asks for its own neutral pulse. -/
  ended : ∀ session, BlockedUntil (Ends session)
    (fun u => MovesPulse session u ∧ u.event.op ≠ .arm session)
    (Arms session) (stepsFrom config env es)
  /-- After the end of the current session no session moves the pulse until an
  arm with another generation is accepted. -/
  rearmed : BlockedUntil (fun t => Ends t.post.session t)
    (fun u => (∃ session, MovesPulse session u) ∧ ∀ generation, u.event.op ≠ .arm generation)
    (fun r => ∃ generation, Arms generation r) (stepsFrom config env es)

/-- The session discipline holds in every run, whatever the operations, their
arguments, their times and the output's answers. -/
theorem session_disciplined (config : Config) (env : Env) (es : List Event) :
    Disciplined config env es where
  increasing := by
    intro seq
    refine blockedUntil_trace (Past seq) ?_ ?_ ?_ <;> intro t ht <;>
      obtain ⟨h, heq⟩ := step_of_mem ht <;> rw [heq]
    · exact fun ha => (acceptsCommand_step h ha).2.2.1
    · exact fun hp hna => past_step h hp (not_exists.1 hna)
    · rintro hp ⟨seq', ha, hle⟩
      obtain ⟨hl, hlt, -⟩ := acceptsCommand_step h ha
      have := UInt64.lt_of_lt_of_le (UInt64.lt_of_le_of_lt (hp hl) hlt) hle
      exact UInt64.lt_irrefl _ this
  writtenOnce := by
    intro t ht seq ha
    obtain ⟨h, heq⟩ := step_of_mem ht
    rw [heq] at ha ⊢
    exact (acceptsCommand_step h ha).2.2.2
  ended := by
    intro session
    refine blockedUntil_trace (Dead session) ?_ ?_ ?_ <;> intro t ht <;>
      obtain ⟨h, heq⟩ := step_of_mem ht <;> rw [heq]
    · exact dead_of_ends h
    · exact dead_step h
    · exact fun hd hm => not_movesPulse_of_dead h hd hm.2 hm.1
  rearmed := by
    refine blockedUntil_trace (fun s => s.state.isLive = false) ?_ ?_ ?_ <;> intro t ht <;>
      obtain ⟨h, heq⟩ := step_of_mem ht <;> rw [heq]
    · exact fun hends => dead_of_ends h hends rfl
    · intro hl hna
      have hd : Dead (step t.pre t.event).1.session t.pre := fun _ => hl
      exact dead_step h hd (not_exists.1 hna _) rfl
    · rintro hl ⟨⟨session, hm⟩, hop⟩
      exact not_movesPulse_of_dead h (fun _ => hl) (hop session) hm

/-- Session 1 is stopped, session 2 armed and stopped, and generation 1 armed
again. -/
def reusedGeneration : List Event :=
  [⟨.arm 1, 0, acceptsAll⟩, ⟨.stop 1 0, 1, acceptsAll⟩, ⟨.arm 2, 2, acceptsAll⟩,
    ⟨.stop 2 0, 3, acceptsAll⟩, ⟨.arm 1, 4, acceptsAll⟩, ⟨.complete 1 1, 5, acceptsAll⟩,
    ⟨.command 1 2 1800, 6, acceptsAll⟩]

/-- An ended session can move the pulse again: the core does not remember the
generations before the current one. -/
theorem reusedGeneration_moves :
    ¬ ∀ session x t y u z,
      stepsFrom Config.default acceptsAll reusedGeneration = x ++ t :: (y ++ u :: z) →
      Ends session t → ¬ MovesPulse session u := by
  intro h
  refine h 1 [_] _ [_, _, _, _] _ [] rfl (.stop ⟨1, 0, rfl⟩ rfl rfl) ?_
  exact ⟨⟨.writePulse 1800, 1, none⟩, by decide, rfl⟩

end Questix.PwmGuard
