/-
Questix.PwmGuard.FaultTheorems — what the guard tells its clients: replies
that always pass the client's check, and a fault cause that is kept.

A reply is honest because the core is `Consistent`: the state it names stands
for the pulse it names. The cause of a fault is kept by every operation but
one: an `arm` whose Low write succeeds forgets it before the neutral write is
known to succeed. `LosesCause` is that situation, in terms of the state the
arm starts from and the output's answers, and `faultError_step_iff` says that
it is the only one.
-/
import Mathlib
import Questix.PwmGuard.StepTheorems
import Questix.PwmGuard.Reply

namespace Questix.PwmGuard

open Questix.Lib
open Errno

/-! ## Replies -/

namespace Client

theorem readInt_repr (i : Int) (h : -2 ^ 31 ≤ i ∧ i < 2 ^ 31) : readInt i.repr = some i := by
  simp only [readInt, Int.toInt?_repr, Option.filter_some, h.1, h.2, decide_true,
    Bool.and_self, if_true]

theorem readUInt64_repr (n : UInt64) : readUInt64 n.toNat.repr = some n := by
  have hn : n.toNat < 2 ^ 64 := n.toNat_lt
  simp only [readUInt64, Nat.toNat?_repr, Option.filter_some, hn, decide_true, if_true,
    Option.map_some, UInt64.ofNat_toNat]

theorem validate_frame {r : Reply} (ha : -2 ^ 31 ≤ r.applied ∧ r.applied < 2 ^ 31)
    (he : IsError r.error) (hc : consistent r = true) : validate r.frame = some r := by
  have h1 : readInt "1" = some 1 := readInt_repr 1 (by decide)
  have h0 : readInt "0" = some 0 := readInt_repr 0 (by decide)
  have hra := readInt_repr r.applied ha
  have hre := readInt_repr r.error ⟨he.1, by have := he.2; omega⟩
  have hrs := readUInt64_repr r.session
  obtain ⟨ok, state, applied, error, session⟩ := r
  simp only at hra hre hrs
  cases ok <;> simp [validate, Reply.frame, h0, h1, hra, hre, hrs, hc]

end Client

theorem Consistent.client {s : Core} (h : Consistent s) {r : Reply}
    (hstate : r.state = stateName s.state) (happlied : r.applied = s.applied)
    (herror : IsError r.error) : Client.validate r.frame = some r := by
  have hb := s.config.bounds
  have hp := h.pulse
  refine Client.validate_frame ?_ herror ?_
  · rw [happlied]
    cases hs : s.state <;> simp only [hs, PulseOf] at hp <;> omega
  · have he : decide (r.error ≤ 0) = true := decide_eq_true herror.2
    cases hs : s.state <;> simp only [hs, PulseOf] at hp <;>
      simp [Client.consistent, he, hstate, happlied, hs, stateName, hp] <;> omega

theorem isError_reply {s : Core} (h : Consistent s) (ok : Bool) :
    IsError (reply s ok).error := by
  unfold reply
  simp only
  split_ifs
  · exact h.causeError
  · exact isError_zero
  · exact h.lastError
  · exact Guard.isError_EPERM

theorem Consistent.reply_accepted {s : Core} (h : Consistent s) (ok : Bool) :
    Client.validate (reply s ok).frame = some (reply s ok) :=
  h.client rfl rfl (isError_reply h ok)

theorem Consistent.protocolReply_accepted {s : Core} (h : Consistent s) :
    Client.validate (protocolReply s).frame = some (protocolReply s) :=
  h.client rfl rfl (by simp [protocolReply, IsError, EPROTO])

/-! ## The cause of a fault -/

namespace Guard

variable {env : Env} {g : Guard}

theorem low_faultError (terminal : Bool) (hf : g.core.faultError ≠ 0) :
    (g.low env terminal).1.core.faultError = g.core.faultError := by
  cases hok : (g.low env terminal).2 with
  | true => exact (low_ok hok).2.2.2
  | false =>
    obtain ⟨-, -, e, -, he⟩ := low_fail hok
    rw [he, if_neg hf]

theorem fault_faultError (code : Int) (hf : g.core.faultError ≠ 0) :
    (g.fault env code).core.faultError = g.core.faultError := by
  simp [hf]

theorem tick_faultError (now : Int) (h : Consistent g.core) (hf : g.core.faultError ≠ 0) :
    (g.tick env now).core.faultError = g.core.faultError := by
  rcases tick_cases env g now h.causeError with ⟨hc, -⟩ | ⟨g', code, ht, hc, -⟩ | ⟨g', ht, hc, -⟩
  · rw [hc]
  · rw [ht, fault_faultError code (hc ▸ hf), hc]
  · rw [ht, low_faultError true (hc ▸ hf), hc]

theorem invalid_faultError (hf : g.core.faultError ≠ 0) :
    (g.invalid env).1.core.faultError = g.core.faultError := by
  unfold invalid failCommand
  split
  · exact fault_faultError _ hf
  · rfl

theorem emergencyLow_faultError (hf : g.core.faultError ≠ 0) :
    (g.emergencyLow env).1.core.faultError = g.core.faultError := by
  unfold emergencyLow
  simp only
  split_ifs <;> exact low_faultError true hf

theorem rest_faultError (e : Event) (h : Consistent g.core) (hf : g.core.faultError ≠ 0)
    (harm : ∀ generation, e.op ≠ .arm generation) :
    (e.rest g).1.core.faultError = g.core.faultError := by
  have hs := h.cause.1 hf
  unfold Event.rest
  cases hop : e.op with
  | arm generation => exact absurd hop (harm generation)
  | complete session seq =>
    simp only [completeTicked]
    split_ifs with hv ha
    · exact invalid_faultError hf
    · rfl
    · simp [not_not.1 ha, State.isFault] at hs
  | command session seq us =>
    simp only [commandTicked]
    split_ifs with hv hl
    · exact invalid_faultError hf
    · rfl
    all_goals
      exfalso
      apply hl
      constructor <;> intro hst <;> simp [hst, State.isFault] at hs
  | shutdown session seq =>
    simp only [shutdownTicked]
    split_ifs with hsess hd hl
    · rfl
    · rfl
    · rfl
    · exfalso
      apply hl
      constructor <;> intro hst <;> simp [hst, State.isFault] at hs
  | stop session seq =>
    simp only [stopTicked]
    split
    · rfl
    · exact emergencyLow_faultError hf
  | disconnected =>
    simp only [disconnectedTicked]
    split_ifs
    · rfl
    · exact fault_faultError _ hf
    · rfl
  | tick => rfl
  | emergencyLow => exact emergencyLow_faultError hf
  | protocolFault => exact fault_faultError _ hf

theorem enterSession_faultError (env : Env) (g : Guard) (generation : UInt64) (now : Int)
    (ha : g.core.applied ≠ g.core.config.neutralUs) :
    match env g.log (.writePulse g.core.config.neutralUs) with
    | none => (g.enterSession env generation now).2 = true
    | some e => (g.enterSession env generation now).2 = false ∧
        (g.enterSession env generation now).1.core.faultError = e.1 := by
  cases hr : env g.log (.writePulse g.core.config.neutralUs) with
  | none => simp [enterSession, write, call, ha, hr]
  | some e => simp [enterSession, write, call, ha, hr, errorOf_errno]

end Guard

/-- The arm `e`, issued in state `s`, loses the recorded cause of a fault: it
passes its checks, the output accepts its Low write and refuses its neutral
write with another error. -/
def LosesCause (s : Core) (e : Event) : Prop :=
  s.faultError ≠ 0 ∧ ∃ generation, e.op = .arm generation ∧
    (e.opening s).mayArm generation = true ∧
    e.env (e.opening s).log .emergencyLow = none ∧
    ∃ err : Errno, err.1 ≠ s.faultError ∧
      e.env ((e.opening s).log ++ [⟨.emergencyLow, s.session, none⟩])
        (.writePulse s.config.neutralUs) = some err

theorem opening_session (s : Core) (e : Event) (h : Consistent s) :
    (e.opening s).core.session = s.session ∧ (e.opening s).core.config = s.config := by
  unfold Event.opening
  split
  · rcases Guard.tick_cases e.env { core := s } e.now h.causeError with
      ⟨hc, -⟩ | ⟨g', code, ht, hc, -⟩ | ⟨g', ht, hc, -⟩
    · rw [hc]
      exact ⟨rfl, rfl⟩
    · rw [ht]
      simp [hc]
    · rw [ht]
      simp [hc]
  · exact ⟨rfl, rfl⟩

theorem opening_faultError (s : Core) (e : Event) (h : Consistent s) (hf : s.faultError ≠ 0) :
    (e.opening s).core.faultError = s.faultError := by
  unfold Event.opening
  split
  · exact Guard.tick_faultError e.now h hf
  · rfl

namespace Guard

/-- An arm that does not get to its neutral write keeps the cause; one that
does succeeds, or leaves the error of that write. -/
theorem armTicked_faultError (env : Env) (g : Guard) (generation : UInt64) (now : Int) (hf : g.core.faultError ≠ 0) :
    ((g.mayArm generation = false ∨ env g.log .emergencyLow ≠ none) ∧
      (g.armTicked env generation now).1.core.faultError = g.core.faultError) ∨
    (g.mayArm generation = true ∧ env g.log .emergencyLow = none ∧
      match env (g.log ++ [⟨.emergencyLow, g.core.session, none⟩])
        (.writePulse g.core.config.neutralUs) with
      | none => (g.armTicked env generation now).2 = true
      | some err => (g.armTicked env generation now).2 = false ∧
          (g.armTicked env generation now).1.core.faultError = err.1) := by
  cases hm : g.mayArm generation with
  | false => exact .inl ⟨.inl rfl, by simp [armTicked, hm, reject]⟩
  | true =>
    by_cases hl : env g.log .emergencyLow = none
    · refine .inr ⟨rfl, hl, ?_⟩
      have hok := (low_ok_iff false).2 hl
      have hb := g.core.config.bounds
      have happlied := (low_ok hok).2.1
      have h := enterSession_faultError env (g.low env false).1 generation now
        (by rw [happlied, (low_frame false).1]; omega)
      rw [armTicked_of_low_ok now hm hok]
      rw [low_log, hl, (low_frame false).1] at h
      exact h
    · have hok : (g.low env false).2 = false := by
        rw [← Bool.not_eq_true, low_ok_iff]
        exact hl
      refine .inl ⟨.inr hl, ?_⟩
      rw [armTicked_of_low_fail now hm hok]
      exact low_faultError false hf

end Guard

/-- A recorded cause is kept by exactly the operations that neither rearm nor
lose it. -/
theorem faultError_step_iff {s : Core} (h : Consistent s) (hf : s.faultError ≠ 0) (e : Event)
    (hna : ¬ Rearms (stepOf step s e)) :
    (step s e).1.faultError = s.faultError ↔ ¬ LosesCause s e := by
  have hg := consistent_opening h e
  have hgf := opening_faultError s e h hf
  obtain ⟨hsess, hconf⟩ := opening_session s e h
  have hstep : (step s e).1 = (e.rest (e.opening s)).1.core := rfl
  by_cases harm : ∀ generation, e.op ≠ .arm generation
  · rw [hstep, Guard.rest_faultError e hg (hgf ▸ hf) harm, hgf]
    simp only [LosesCause, harm, false_and, exists_false, and_false, not_false_eq_true]
  · push Not at harm
    obtain ⟨generation, hop⟩ := harm
    have hrest : e.rest (e.opening s) =
        (e.opening s).armTicked e.env generation e.now := by
      simp only [Event.rest, hop]
    have hna : (step s e).2.ok = false := by
      by_contra hok
      exact hna ⟨⟨generation, hop⟩, by simpa [stepOf] using hok⟩
    have hok : ((e.opening s).armTicked e.env generation e.now).2 = false := by
      rw [← hrest]
      exact hna
    rw [hstep, hrest]
    rcases Guard.armTicked_faultError e.env (e.opening s) generation e.now
      (hgf ▸ hf) with ⟨hno, heq⟩ | ⟨hm, hl, hw⟩
    · rw [heq, hgf]
      simp only [true_iff]
      rintro ⟨-, generation', hop', hm, hl, -⟩
      rw [hop, Op.arm.injEq] at hop'
      subst hop'
      rcases hno with hno | hno
      · simp [hm] at hno
      · exact hno hl
    · rw [hsess, hconf] at hw
      cases hr : e.env ((e.opening s).log ++ [⟨.emergencyLow, s.session, none⟩])
          (.writePulse s.config.neutralUs) with
      | none =>
        rw [hr] at hw
        simp [hok] at hw
      | some err =>
        rw [hr] at hw
        rw [hw.2]
        constructor
        · rintro heq ⟨-, -, -, -, -, err', hne, hr'⟩
          rw [hr, Option.some.injEq] at hr'
          exact hne (hr' ▸ heq)
        · intro hno
          by_contra hne
          exact hno ⟨hf, generation, hop, hm, hl, err, hne, hr⟩

/-! ## Every run -/

theorem faultError_final : ∀ (es : List Event) (s : Core), Consistent s → s.faultError ≠ 0 →
    (∀ t ∈ trace step s es, ¬ LosesCause t.pre t.event) →
    (∀ t ∈ trace step s es, ¬ Rearms t) → (final step s es).faultError = s.faultError
  | [], _, _, _, _, _ => rfl
  | e :: es, s, h, hf, hl, hr => by
      have hstep : (step s e).1.faultError = s.faultError :=
        (faultError_step_iff h hf e (hr _ (by simp))).2 (hl (stepOf step s e) (by simp))
      rw [final_cons, ← hstep]
      refine faultError_final es _ (consistent_step h e) (hstep ▸ hf) ?_ ?_
      · intro t ht
        exact hl t (by simp [ht])
      · intro t ht
        exact hr t (by simp [ht])

/-- What the guard owes its clients in the run over `es`: the state stands for
the pulse, every reply passes the client's check, and the first cause of a
fault is kept until an arm succeeds. -/
structure Honest (config : Config) (env : Env) (es : List Event) : Prop where
  consistent : Consistent (runFrom config env es)
  replies : ∀ ok, Client.validate (reply (runFrom config env es) ok).frame =
    some (reply (runFrom config env es) ok)
  protocolReplies : Client.validate (protocolReply (runFrom config env es)).frame =
    some (protocolReply (runFrom config env es))
  causeKept : ∀ es₁ es₂, es = es₁ ++ es₂ → (runFrom config env es₁).faultError ≠ 0 →
    (∀ t ∈ trace step (runFrom config env es₁) es₂, ¬ Rearms t) →
    (runFrom config env es).faultError = (runFrom config env es₁).faultError

/-- In every run without an arm that loses the cause, whatever the operations,
their arguments, their times and the output's answers, the guard is honest. -/
theorem guard_honest (config : Config) (env : Env) (es : List Event)
    (hes : ∀ t ∈ stepsFrom config env es, ¬ LosesCause t.pre t.event) :
    Honest config env es where
  consistent := consistent_final config env es
  replies := fun ok => (consistent_final config env es).reply_accepted ok
  protocolReplies := (consistent_final config env es).protocolReply_accepted
  causeKept := by
    rintro es₁ es₂ rfl hf hr
    rw [stepsFrom, trace_append] at hes
    show (final step _ (es₁ ++ es₂)).faultError = _
    rw [final_append]
    refine faultError_final es₂ _ (consistent_final config env es₁) hf ?_ hr
    intro t ht
    exact hes t (List.mem_append_right _ ht)

/-- An output that refuses every pulse but Low, with an I/O error. -/
def refusesPulses : Env := fun _ call =>
  match call with
  | .writePulse _ => some ⟨-5, by decide⟩
  | _ => none

/-- A session that expires: the fault cause `ETIMEDOUT` is recorded, and a
command after it does not change that. -/
def expiredSession : List Event :=
  [⟨.arm 42, 0, acceptsAll⟩, ⟨.complete 42 1, 2000, acceptsAll⟩, ⟨.command 42 2 1800, 2100, acceptsAll⟩,
    ⟨.tick, 2600, acceptsAll⟩, ⟨.command 42 3 1800, 2700, acceptsAll⟩]

theorem guard_honest_expired : Honest Config.default acceptsAll expiredSession := by
  refine guard_honest Config.default acceptsAll expiredSession ?_
  intro t ht
  rintro ⟨hf, generation, hop, -⟩
  simp only [stepsFrom, expiredSession, trace_cons, trace_nil, List.mem_cons, List.not_mem_nil,
    or_false] at ht
  rcases ht with rfl | rfl | rfl | rfl | rfl
  · exact hf rfl
  all_goals cases hop

/-- After the expiry a new session is armed whose neutral write is refused. -/
def refusedRearm : List Event :=
  [⟨.arm 42, 0, acceptsAll⟩, ⟨.tick, 3000, acceptsAll⟩, ⟨.arm 43, 3001, refusesPulses⟩]

/-- The refused arm replaces the first cause, `ETIMEDOUT`, by its own. -/
theorem refusedRearm_not_honest : ¬ Honest Config.default acceptsAll refusedRearm := by
  intro h
  have hkept := h.causeKept [⟨.arm 42, 0, acceptsAll⟩, ⟨.tick, 3000, acceptsAll⟩]
    [⟨.arm 43, 3001, refusesPulses⟩] rfl (by decide) ?_
  · exact absurd hkept (by decide)
  · intro t ht
    simp only [trace_cons, trace_nil, List.mem_singleton] at ht
    subst ht
    rintro ⟨-, hok⟩
    exact absurd hok (by decide)

end Questix.PwmGuard
