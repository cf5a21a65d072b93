/-
Questix.PwmGuard.CoreTheorems — state, pulse and fault cause of the guard's
core over every run of operations, with every outcome of every output call.

The private member functions are described first: what `fault`, `low` and
`write` leave in the core and which pulses they ask for (`writes`). `tick`
then has three outcomes (`tick_cases`), and every operation is a case
analysis over these descriptions. `Consistent` is the invariant; a fault
restores it from any state whose recorded errors are errnos, which is what
makes the failure exits of the operations harmless.
-/
import Questix.PwmGuard.Core
import Mathlib.Tactic.Linarith
import Mathlib.Tactic.SplitIfs

namespace Questix.PwmGuard

open Questix.Lib
open Errno

/-! ## Pulses asked for -/

/-- A call that asks for a non-zero pulse. -/
def Entry.isPulse (e : Entry) : Bool :=
  match e.call with
  | .writePulse us => us != 0
  | _ => false

def Guard.pulses (g : Guard) : List Entry := g.log.filter Entry.isPulse

def State.isFault (s : State) : Bool := s == .faultLow || s == .faultUnknown

def State.isLive (s : State) : Bool := s == .arming || s == .active

/-- The deadline of a state that has one was reached. -/
def Core.expired (s : Core) (now : Int) : Prop :=
  (s.state = .arming ∨ s.state = .active ∨ s.state = .draining) ∧ s.deadline ≤ now

/-- The error `fault` records for a code. -/
def errorOf (code : Int) : Int := if code < 0 then code else -code

/-- Zero or a negative errno, as an `int` holds it. -/
def IsError (e : Int) : Prop := -2 ^ 31 ≤ e ∧ e ≤ 0

theorem Config.bounds (c : Config) :
    c.neutralUs = 1000 ∧ c.neutralUs ≤ c.maxUs ∧ c.maxUs ≤ 2500 := by
  have h := c.isValid
  simp [RawConfig.validate] at h
  omega

namespace Guard

variable {env : Env} {g : Guard}

/-! ## The private member functions -/

@[simp] theorem fault_frame (code : Int) :
    (g.fault env code).core.config = g.core.config ∧
    (g.fault env code).core.session = g.core.session ∧
    (g.fault env code).core.seq = g.core.seq ∧
    (g.fault env code).core.deadline = g.core.deadline ∧
    (g.fault env code).core.error = errorOf code ∧
    (g.fault env code).core.faultError =
      (if g.core.faultError = 0 then errorOf code else g.core.faultError) ∧
    (g.fault env code).pulses = g.pulses := by
  simp only [fault, call]
  cases env g.log .emergencyLow <;> simp [recordFault, errorOf, pulses, Entry.isPulse]

theorem fault_state (env : Env) (g : Guard) (code : Int) :
    ((g.fault env code).core.state = .faultLow ∧ (g.fault env code).core.applied = 0) ∨
    ((g.fault env code).core.state = .faultUnknown ∧
      (g.fault env code).core.applied = -1) := by
  simp only [fault, call]
  cases env g.log .emergencyLow with
  | none => exact .inl ⟨rfl, rfl⟩
  | some e => exact .inr ⟨rfl, rfl⟩

@[simp] theorem fault_isFault (code : Int) : (g.fault env code).core.state.isFault = true := by
  rcases fault_state env g code with ⟨h, -⟩ | ⟨h, -⟩ <;> simp [h, State.isFault]

@[simp] theorem low_frame (terminal : Bool) :
    (g.low env terminal).1.core.config = g.core.config ∧
    (g.low env terminal).1.core.session = g.core.session ∧
    (g.low env terminal).1.core.seq = g.core.seq ∧
    (g.low env terminal).1.core.deadline = g.core.deadline ∧
    (g.low env terminal).1.pulses = g.pulses := by
  simp only [low, call]
  cases env g.log .emergencyLow <;> simp [recordFault, pulses, Entry.isPulse]

theorem low_ok {terminal : Bool} (h : (g.low env terminal).2 = true) :
    (g.low env terminal).1.core.state = (if terminal then .terminalLow else .lowIdle) ∧
    (g.low env terminal).1.core.applied = 0 ∧
    (g.low env terminal).1.core.error = 0 ∧
    (g.low env terminal).1.core.faultError = g.core.faultError := by
  simp only [low, call] at h ⊢
  cases hr : env g.log .emergencyLow with
  | none => exact ⟨rfl, rfl, rfl, rfl⟩
  | some e => simp [hr] at h

theorem low_fail {terminal : Bool} (h : (g.low env terminal).2 = false) :
    (g.low env terminal).1.core.state = .faultUnknown ∧
    (g.low env terminal).1.core.applied = -1 ∧
    ∃ e : Errno, (g.low env terminal).1.core.error = e.1 ∧
      (g.low env terminal).1.core.faultError =
        if g.core.faultError = 0 then e.1 else g.core.faultError := by
  simp only [low, call] at h ⊢
  cases hr : env g.log .emergencyLow with
  | none => simp [hr] at h
  | some e => exact ⟨rfl, rfl, e, rfl, rfl⟩

theorem write_cases (env : Env) (g : Guard) (us : Int) :
    (∃ g', g.write env us = (g', true) ∧
      g'.core = { g.core with applied := us, error := 0 } ∧
      g'.pulses = g.pulses ++
        if g.core.applied = us ∨ us = 0 then []
        else [⟨.writePulse us, g.core.session, none⟩]) ∨
    (∃ (g' : Guard) (e : Errno), g.write env us = (g'.fault env e.1, false) ∧
      g'.core = g.core ∧
      g'.pulses = g.pulses ++
        if g.core.applied = us ∨ us = 0 then []
        else [⟨.writePulse us, g.core.session, some e⟩]) := by
  by_cases ha : g.core.applied = us
  · cases hr : env g.log .check with
    | none =>
      left
      refine ⟨_, by simp only [write, call, ha, hr, if_true]; rfl, by simp [← ha], ?_⟩
      simp [ha, pulses, Entry.isPulse]
    | some e =>
      right
      refine ⟨(g.call env .check).1, e, by simp only [write, call, ha, hr, if_true], rfl, ?_⟩
      simp [ha, call, pulses, Entry.isPulse]
  · cases hr : env g.log (.writePulse us) with
    | none =>
      left
      refine ⟨_, by simp only [write, call, ha, hr, if_false]; rfl, rfl, ?_⟩
      by_cases hu : us = 0 <;> simp [ha, hu, pulses, Entry.isPulse]
    | some e =>
      right
      refine ⟨(g.call env (.writePulse us)).1, e, by simp only [write, call, ha, hr, if_false],
        rfl, ?_⟩
      by_cases hu : us = 0 <;> simp [ha, hu, hr, call, pulses, Entry.isPulse]

theorem write_ok (env : Env) (g : Guard) (us : Int) (h : (g.write env us).2 = true) :
    (g.write env us).1.core = { g.core with applied := us, error := 0 } := by
  rcases write_cases env g us with ⟨g', hw, hc, -⟩ | ⟨g', e, hw, -⟩
  · rw [hw, ← hc]
  · rw [hw] at h
    cases h

theorem armTicked_of_low_fail {generation : UInt64} (now : Int) (hm : g.mayArm generation = true)
    (hl : (g.low env false).2 = false) :
    g.armTicked env generation now = ((g.low env false).1, false) := by
  unfold armTicked
  simp only [hm, Bool.not_true, Bool.false_eq_true, if_false]
  generalize g.low env false = r at hl
  obtain ⟨g', ok⟩ := r
  cases ok with
  | false => rfl
  | true => cases hl

theorem armTicked_of_low_ok {generation : UInt64} (now : Int) (hm : g.mayArm generation = true)
    (hl : (g.low env false).2 = true) :
    g.armTicked env generation now = (g.low env false).1.enterSession env generation now := by
  unfold armTicked
  simp only [hm, Bool.not_true, Bool.false_eq_true, if_false]
  generalize g.low env false = r at hl
  obtain ⟨g', ok⟩ := r
  cases ok with
  | false => cases hl
  | true => rfl

theorem low_ok_iff (terminal : Bool) :
    (g.low env terminal).2 = true ↔ env g.log .emergencyLow = none := by
  unfold low call
  cases env g.log .emergencyLow <;> simp

theorem low_log (terminal : Bool) :
    (g.low env terminal).1.log =
      g.log ++ [⟨.emergencyLow, g.core.session, env g.log .emergencyLow⟩] := by
  unfold low call
  cases env g.log .emergencyLow <;> rfl

/-! ## The opening tick -/

/-- What `tick` can do. The output checks out and no deadline was reached:
nothing. The output is lost, or a deadline passed while the session was live:
a fault. Draining ends: the terminal Low write. -/
theorem tick_cases (env : Env) (g : Guard) (now : Int) (hf : IsError g.core.faultError) :
    ((g.tick env now).core = g.core ∧ (g.tick env now).pulses = g.pulses ∧
      g.core.state ≠ .faultUnknown ∧ ¬ g.core.expired now) ∨
    (∃ (g' : Guard) (code : Int), g.tick env now = g'.fault env code ∧ g'.core = g.core ∧
      g'.pulses = g.pulses ∧ IsError (errorOf code) ∧ errorOf code ≠ 0) ∨
    (∃ g' : Guard, g.tick env now = (g'.low env true).1 ∧ g'.core = g.core ∧
      g'.pulses = g.pulses ∧ g.core.state = .draining ∧ g.core.deadline ≤ now) := by
  by_cases hu : g.core.state = .faultUnknown
  · right; left
    refine ⟨g, if g.core.faultError ≠ 0 then g.core.faultError else Errno.EIO, ?_, rfl, rfl, ?_⟩
    · simp only [tick, hu, if_true]
    · unfold IsError at hf ⊢
      unfold errorOf Errno.EIO
      split_ifs <;> omega
  · cases hr : env g.log .check with
    | some e =>
      right; left
      refine ⟨(g.call env .check).1, e.1, ?_, rfl, ?_, ?_⟩
      · simp only [tick, hu, if_false, call, hr]
      · simp [call, pulses, Entry.isPulse]
      · have := e.2
        unfold IsError errorOf
        split_ifs <;> omega
    | none =>
      have htick : g.tick env now = (g.call env .check).1.expire env now := by
        simp only [tick, hu, if_false, call, hr]
      have hpulses : (g.call env .check).1.pulses = g.pulses := by
        simp [call, pulses, Entry.isPulse]
      rw [htick]
      unfold expire
      split_ifs with h1 h2
      · right; left
        refine ⟨_, _, rfl, rfl, hpulses, ?_⟩
        unfold IsError errorOf ETIMEDOUT
        split_ifs <;> omega
      · right; right
        exact ⟨_, rfl, rfl, hpulses, h2.1, h2.2⟩
      · left
        refine ⟨rfl, hpulses, hu, ?_⟩
        rintro ⟨hs | hs | hs, hd⟩
        · exact h1 ⟨.inl hs, hd⟩
        · exact h1 ⟨.inr hs, hd⟩
        · exact h2 ⟨hs, hd⟩

end Guard

/-! ## The invariant -/

/-- The pulse a state stands for. -/
def PulseOf (config : Config) : State → Int → Prop
  | .lowIdle, us => us = 0
  | .terminalLow, us => us = 0
  | .faultLow, us => us = 0
  | .arming, us => us = config.neutralUs
  | .draining, us => us = config.neutralUs
  | .active, us => us = config.neutralUs ∨ (500 ≤ us ∧ us ≤ config.maxUs)
  | .faultUnknown, us => us = -1

/-- The core is consistent: the state stands for the applied pulse, a fault
cause is recorded exactly in the fault states, and recorded errors are
errnos. -/
structure Consistent (s : Core) : Prop where
  pulse : PulseOf s.config s.state s.applied
  cause : s.faultError ≠ 0 ↔ s.state.isFault = true
  causeError : IsError s.faultError
  lastError : IsError s.error

theorem Consistent.faultError_eq_zero {s : Core} (h : Consistent s)
    (hs : s.state.isFault = false) : s.faultError = 0 := by
  by_contra hne
  simp [h.cause.1 hne] at hs

theorem isError_zero : IsError 0 := by simp [IsError]

theorem isError_errno (e : Errno) : IsError e.1 := ⟨e.2.1, by have := e.2.2; omega⟩

theorem errorOf_errno (e : Errno) : errorOf e.1 = e.1 := by simp [errorOf, e.2.2]

namespace Guard

variable {env : Env} {g : Guard}

theorem consistent_fault {code : Int} (hf : IsError g.core.faultError)
    (hc : IsError (errorOf code)) (hne : errorOf code ≠ 0) :
    Consistent (g.fault env code).core where
  pulse := by
    rcases fault_state env g code with ⟨hs, ha⟩ | ⟨hs, ha⟩ <;>
      rw [hs, ha] <;> exact rfl
  cause := by
    rw [fault_isFault]
    simp only [fault_frame, iff_true]
    split
    · exact hne
    · assumption
  causeError := by
    simp only [fault_frame]
    split
    · exact hc
    · exact hf
  lastError := by simpa only [fault_frame] using hc

theorem consistent_fault_errno (e : Errno) (hf : IsError g.core.faultError) :
    Consistent (g.fault env e.1).core := by
  refine consistent_fault hf ?_ ?_ <;> rw [errorOf_errno]
  · exact isError_errno e
  · have := e.2.2
    omega

theorem consistent_low_fail {env : Env} {g : Guard} {terminal : Bool} (hf : IsError g.core.faultError)
    (h : (g.low env terminal).2 = false) : Consistent (g.low env terminal).1.core := by
  obtain ⟨hs, ha, e, he, hfe⟩ := low_fail h
  have hlt := e.2.2
  refine ⟨?_, ?_, ?_, ?_⟩
  · rw [hs, ha]
    exact rfl
  · rw [hfe, hs]
    simp only [State.isFault]
    split <;> simp <;> omega
  · rw [hfe]
    split
    · exact isError_errno e
    · exact hf
  · rw [he]
    exact isError_errno e

theorem consistent_low (terminal : Bool) (h0 : g.core.faultError = 0) :
    Consistent (g.low env terminal).1.core := by
  cases hok : (g.low env terminal).2 with
  | false => exact consistent_low_fail (h0 ▸ isError_zero) hok
  | true =>
    obtain ⟨hs, ha, he, hf⟩ := low_ok hok
    refine ⟨?_, ?_, ?_, ?_⟩
    · rw [hs, ha]
      cases terminal <;> exact rfl
    · rw [hf, hs, h0]
      cases terminal <;> simp [State.isFault]
    · rw [hf, h0]
      exact isError_zero
    · rw [he]
      exact isError_zero

theorem consistent_reject (h : Consistent g.core) {code : Int} (hc : IsError (-code)) :
    Consistent (g.reject code).1.core :=
  ⟨h.pulse, h.cause, h.causeError, hc⟩

theorem isError_EPERM : IsError (-EPERM) := by simp [IsError, EPERM]

/-! ## Every operation keeps the invariant -/

theorem consistent_tick (h : Consistent g.core) (now : Int) :
    Consistent (g.tick env now).core := by
  rcases tick_cases env g now h.causeError with ⟨hc, -⟩ | ⟨g', code, ht, hc, -, he, hne⟩ |
    ⟨g', ht, hc, -, hs, -⟩
  · rw [hc]
    exact h
  · rw [ht]
    exact consistent_fault (hc ▸ h.causeError) he hne
  · rw [ht]
    refine consistent_low true ?_
    rw [hc]
    exact h.faultError_eq_zero (by simp [hs, State.isFault])

theorem consistent_write (env : Env) (g : Guard) (us : Int) (state : State) (h0 : g.core.faultError = 0)
    (hs : state.isFault = false) (hp : PulseOf g.core.config state us) :
    ((g.write env us).2 = true →
      Consistent { (g.write env us).1.core with state := state }) ∧
    ((g.write env us).2 = false → Consistent (g.write env us).1.core) := by
  rcases write_cases env g us with ⟨g', hw, hc, -⟩ | ⟨g', e, hw, hc, -⟩ <;>
    rw [hw] <;> refine ⟨fun h => ?_, fun h => ?_⟩ <;> simp only [Bool.true_eq_false, Bool.false_eq_true] at h
  · rw [hc]
    exact ⟨hp, by simp [h0, hs], h0 ▸ isError_zero, isError_zero⟩
  · exact consistent_fault_errno e (by rw [hc, h0]; exact isError_zero)

theorem consistent_enterSession (generation : UInt64) (now : Int) :
    Consistent (g.enterSession env generation now).1.core := by
  unfold enterSession
  have h := consistent_write env
    { g with core := { g.core with faultError := 0, session := generation, seq := 0 } }
    g.core.config.neutralUs .arming rfl rfl rfl
  revert h
  simp only
  cases Guard.write env _ _ with
  | mk g' ok =>
    cases ok with
    | false => exact fun h => h.2 rfl
    | true =>
      intro h
      have h := h.1 rfl
      exact ⟨h.pulse, h.cause, h.causeError, h.lastError⟩

theorem consistent_armTicked (h : Consistent g.core) (generation : UInt64) (now : Int) :
    Consistent (g.armTicked env generation now).1.core := by
  unfold armTicked
  split
  · exact consistent_reject h isError_EPERM
  · have hl : (g.low env false).2 = false → Consistent (g.low env false).1.core :=
      consistent_low_fail h.causeError
    revert hl
    cases g.low env false with
    | mk g' ok =>
      cases ok with
      | false => exact fun h => h rfl
      | true => exact fun _ => consistent_enterSession generation now

theorem consistent_invalid (h : Consistent g.core) : Consistent (g.invalid env).1.core := by
  unfold invalid failCommand
  split
  · refine consistent_fault h.causeError ?_ ?_ <;> simp [errorOf, EPROTO, IsError]
  · exact consistent_reject h isError_EPERM

theorem consistent_completeTicked (h : Consistent g.core) (session seq : UInt64) (now : Int) :
    Consistent (g.completeTicked env session seq now).1.core := by
  unfold completeTicked
  split
  · exact consistent_invalid h
  · split
    · exact consistent_reject h isError_EPERM
    · rename_i hs
      have hs : g.core.state = .arming := not_not.1 hs
      refine ⟨.inl ?_, ?_, h.causeError, h.lastError⟩
      · simpa [hs, PulseOf] using h.pulse
      · simpa [hs, State.isFault] using h.cause

theorem consistent_applyCommand (h : Consistent g.core) (seq : UInt64) {us : Int} (now : Int)
    (hlive : g.core.state.isFault = false)
    (hus : us ≠ 0 → PulseOf g.core.config g.core.state us) :
    Consistent (g.applyCommand env seq us now).1.core := by
  have h0 := h.faultError_eq_zero hlive
  unfold applyCommand
  simp only
  split
  · exact consistent_low true h0
  · rename_i hne
    have hw := consistent_write env { g with core := { g.core with seq := seq } } us
      g.core.state h0 hlive (hus hne)
    have hcore := write_ok env { g with core := { g.core with seq := seq } } us
    revert hw hcore
    cases Guard.write env us _ with
    | mk g' ok =>
      cases ok with
      | false => exact fun h _ => h.2 rfl
      | true =>
        intro h hcore
        have h := h.1 rfl
        have hs : g'.core.state = g.core.state := by rw [hcore rfl]
        rw [← hs] at h
        simp only
        split
        · exact ⟨h.pulse, h.cause, h.causeError, h.lastError⟩
        · exact h

theorem consistent_commandTicked (h : Consistent g.core) (session seq : UInt64) (us now : Int) :
    Consistent (g.commandTicked env session seq us now).1.core := by
  unfold commandTicked failCommand
  split_ifs with hv hs hus ha
  · exact consistent_invalid h
  · exact consistent_reject h isError_EPERM
  · refine consistent_fault h.causeError ?_ ?_ <;> simp [errorOf, EINVAL, IsError]
  · exact consistent_reject h isError_EPERM
  · have hlive : g.core.state = .active ∨ g.core.state = .arming := by
      by_contra hn
      exact hs (not_or.1 hn)
    refine consistent_applyCommand h seq now ?_ ?_
    · rcases hlive with hl | hl <;> simp [hl, State.isFault]
    · intro hne
      rcases hlive with hl | hl <;> rw [hl]
      · right
        by_contra hr
        exact hus ⟨hne, by omega⟩
      · by_contra hn
        exact ha ⟨hl, hn⟩

theorem consistent_shutdownTicked (h : Consistent g.core) (session seq : UInt64) (now : Int) :
    Consistent (g.shutdownTicked env session seq now).1.core := by
  unfold shutdownTicked
  split_ifs with hsess hdone hs
  · exact consistent_reject h isError_EPERM
  · exact h
  · exact consistent_reject h isError_EPERM
  · have hlive : g.core.state.isFault = false := by
      cases hst : g.core.state <;> simp_all [State.isFault]
    have hw := consistent_write env { g with core := { g.core with seq := seq } }
      g.core.config.neutralUs .draining (h.faultError_eq_zero hlive) rfl rfl
    revert hw
    simp only
    cases Guard.write env _ _ with
    | mk g' ok =>
      cases ok with
      | false => exact fun h => h.2 rfl
      | true =>
        intro h
        have h := h.1 rfl
        exact ⟨h.pulse, h.cause, h.causeError, h.lastError⟩

theorem consistent_emergencyLow (hf : IsError g.core.faultError) :
    Consistent (g.emergencyLow env).1.core := by
  unfold emergencyLow
  cases hok : (g.low env true).2 with
  | false =>
    simp only [hok, Bool.false_eq_true, false_and, if_false]
    exact consistent_low_fail hf hok
  | true =>
    by_cases h0 : g.core.faultError = 0
    · simp only [hok, h0, ne_eq, not_true_eq_false, and_false, if_false]
      exact consistent_low true h0
    · simp only [hok, h0, ne_eq, not_false_eq_true, and_self, if_true]
      obtain ⟨-, ha, he, hfe⟩ := low_ok hok
      refine ⟨ha, ?_, hfe ▸ hf, he ▸ isError_zero⟩
      simp [hfe, h0, State.isFault]

theorem consistent_stopTicked (h : Consistent g.core) (session seq : UInt64) :
    Consistent (g.stopTicked env session seq).1.core := by
  unfold stopTicked
  split
  · exact consistent_reject h isError_EPERM
  · exact consistent_emergencyLow h.causeError

theorem consistent_disconnectedTicked (h : Consistent g.core) :
    Consistent (g.disconnectedTicked env).core := by
  unfold disconnectedTicked
  split_ifs
  · exact h
  · refine consistent_fault h.causeError ?_ ?_ <;> simp [errorOf, ECONNRESET, IsError]
  · exact h

theorem consistent_protocolFault (h : Consistent g.core) :
    Consistent (g.protocolFault env).core := by
  refine consistent_fault h.causeError ?_ ?_ <;> simp [errorOf, EPROTO, IsError]

end Guard

theorem consistent_start (config : Config) (env : Env) :
    Consistent (Core.start config env).1.core :=
  Guard.consistent_low false rfl

theorem consistent_opening {s : Core} (h : Consistent s) (e : Event) :
    Consistent (e.opening s).core := by
  unfold Event.opening
  split
  · exact Guard.consistent_tick h e.now
  · exact h

theorem consistent_step {s : Core} (h : Consistent s) (e : Event) :
    Consistent (step s e).1 := by
  have h := consistent_opening h e
  show Consistent (e.rest (e.opening s)).1.core
  unfold Event.rest
  cases e.op with
  | arm generation => exact Guard.consistent_armTicked h generation e.now
  | complete session seq => exact Guard.consistent_completeTicked h session seq e.now
  | command session seq us => exact Guard.consistent_commandTicked h session seq us e.now
  | shutdown session seq => exact Guard.consistent_shutdownTicked h session seq e.now
  | stop session seq => exact Guard.consistent_stopTicked h session seq
  | disconnected => exact Guard.consistent_disconnectedTicked h
  | tick => exact h
  | emergencyLow => exact Guard.consistent_emergencyLow h.causeError
  | protocolFault => exact Guard.consistent_protocolFault h

end Questix.PwmGuard
