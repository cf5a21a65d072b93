/-
Questix.EscMotorControl.RollerCommandLogic — how the launcher commands become
the roller's speed: `roller_command_logic.hpp`.

The class is a structure, its member functions are functions on it, and each
gives the pair of the new state and its `Result`. The clock is injected, as in
the source; commands may carry any double. What calls it (the command
callback, the 100 ms tick, and the gate, the publisher check and the emergency
stop, which all inhibit) is the event type of a run.
-/
import Questix.Lib.Dbl
import Questix.Lib.Trace

namespace Questix.EscMotorControl

open Questix.Lib

structure RollerCommandLogic where
  timeoutSec : Dbl := 1
  maxPower : Dbl := 1
  speed : Dbl := 0
  requireZero : Bool := true
  commandAtSec : Dbl := .ninf
  deriving DecidableEq

namespace RollerCommandLogic

/-- `RollerCommandLogic::Result` -/
structure Result where
  set : Bool := false
  speed : Dbl := 0
  timedOut : Bool := false
  needsZero : Bool := false
  deriving DecidableEq

/-- A non-positive timeout falls back to 1 s, an unusable cap to 0. -/
def configure (s : RollerCommandLogic) (timeoutSec maxPower : Dbl) : RollerCommandLogic :=
  { s with
    timeoutSec := if timeoutSec.isfinite && decide (0 < timeoutSec) then timeoutSec else 1
    maxPower := if maxPower.isfinite then maxPower.clamp 0 1 else 0 }

def setSpeed (s : RollerCommandLogic) (speed : Dbl) : RollerCommandLogic × Result :=
  if !Dbl.eq speed s.speed then
    ({ s with speed := speed }, { set := true, speed := speed })
  else (s, {})

/-- The gate closed: stop, and spin again only after a 0. -/
def inhibit (s : RollerCommandLogic) : RollerCommandLogic × Result :=
  { s with requireZero := true }.setSpeed 0

/-- The speed a command asks for. -/
def level (s : RollerCommandLogic) (power : Dbl) : Dbl :=
  if power.isfinite then power.clamp 0 s.maxPower else 0

/-- One command. `inhibited`: the gate is closed. -/
def onCommand (s : RollerCommandLogic) (power : Dbl) (nowSec : ℚ) (inhibited : Bool) :
    RollerCommandLogic × Result :=
  let s := { s with commandAtSec := .fin nowSec }
  let level := s.level power
  if inhibited then s.inhibit
  else if level ≤ 0 then { s with requireZero := false }.setSpeed 0
  else if s.requireZero then (s, { needsZero := true })
  else s.setSpeed level

/-- The periodic check: a spinning roller whose commands stopped is stopped. -/
def onTick (s : RollerCommandLogic) (nowSec : ℚ) : RollerCommandLogic × Result :=
  if 0 < s.speed && decide (s.timeoutSec < .fin nowSec - s.commandAtSec) then
    let (s, result) := s.setSpeed 0
    ({ s with requireZero := true }, { result with timedOut := true })
  else (s, {})

/-! ## Runs -/

/-- What happens to the logic. `clock` is time passing without a call. -/
inductive Event where
  | command (power : Dbl) (inhibited : Bool) (nowSec : ℚ)
  | tick (nowSec : ℚ)
  | inhibit (nowSec : ℚ)
  | clock (nowSec : ℚ)
  deriving DecidableEq

def Event.time : Event → ℚ
  | .command _ _ t => t
  | .tick t => t
  | .inhibit t => t
  | .clock t => t

def step (s : RollerCommandLogic) : Event → RollerCommandLogic × Result
  | .command power inhibited t => s.onCommand power t inhibited
  | .tick t => s.onTick t
  | .inhibit _ => s.inhibit
  | .clock _ => (s, {})

end RollerCommandLogic

end Questix.EscMotorControl

/-! When the roller may spin.

The latch is `requireZero`: every inhibit and every timeout sets it, and only
a command of 0 that is not inhibited clears it. `RollerInv` says so of the
steps taken so far, together with the command the speed stands for.

A timeout is what the periodic check finds. Until it runs the roller spins on,
and a command that arrives first is taken as if it were in time
(`overdue_spins`); what holds whenever a call has been handled is
`roller_gated`. -/

namespace Questix.EscMotorControl

open Questix.Lib

namespace RollerCommandLogic

/-! ## What the steps say -/

abbrev RollerStep := Step RollerCommandLogic Event Result

/-- The call stops the roller and asks for a 0. -/
def Event.inhibits : Event → Bool
  | .command _ inhibited _ => inhibited
  | .inhibit _ => true
  | _ => false

/-- The call is a command of 0: no finite positive power. -/
def Event.zeroCommand : Event → Bool
  | .command power inhibited _ => !inhibited && !(power.isfinite && decide (0 < power))
  | _ => false

def Event.commandAt? : Event → Option ℚ
  | .command _ _ t => some t
  | _ => none

def Event.handled : Event → Bool
  | .clock _ => false
  | _ => true

/-- When the last command arrived. -/
def lastCommandAt (steps : List RollerStep) : Option ℚ :=
  (steps.filterMap fun r => r.event.commandAt?).getLast?

/-- The last command arrived within the timeout before `t`. -/
def Fresh (timeoutSec : Dbl) (steps : List RollerStep) (t : ℚ) : Prop :=
  ∃ c, lastCommandAt steps = some c ∧ .fin (t - c) ≤ timeoutSec

/-- Nothing has inhibited the logic since the last command, which did not
either. -/
def NotInhibited (steps : List RollerStep) : Prop :=
  ∃ x r y, steps = x ++ r :: y ∧ r.event.commandAt?.isSome = true ∧
    (∀ u ∈ y, u.event.commandAt? = none) ∧ ∀ u ∈ r :: y, u.event.inhibits = false

/-- The step is an inhibit, or a check that found the commands overdue. -/
def Stops (r : RollerStep) : Prop :=
  r.event.inhibits = true ∨ r.out.timedOut = true

/-- A command of 0 was received after the last stop (and after the start). -/
def Armed (steps : List RollerStep) : Prop :=
  ∃ x z y, steps = x ++ z :: y ∧ z.event.zeroCommand = true ∧ ∀ u ∈ y, ¬ Stops u

/-- The speed is within `[0, maxPower]`. -/
def Bounded (s : RollerCommandLogic) : Prop :=
  0 ≤ s.speed ∧ s.speed ≤ s.maxPower

variable {s : RollerCommandLogic} {past : List RollerStep} {t : RollerStep} {e : Event}

theorem lastCommandAt_snoc :
    lastCommandAt (past ++ [t]) = (t.event.commandAt?).or (lastCommandAt past) := by
  cases h : t.event.commandAt? <;> simp [lastCommandAt, h]

theorem notInhibited_self (hcommand : t.event.commandAt?.isSome = true)
    (hopen : t.event.inhibits = false) : NotInhibited (past ++ [t]) :=
  ⟨past, t, [], rfl, hcommand, by simp, by simpa using hopen⟩

theorem NotInhibited.snoc (h : NotInhibited past) (hcommand : t.event.commandAt? = none)
    (hopen : t.event.inhibits = false) : NotInhibited (past ++ [t]) := by
  obtain ⟨x, r, y, rfl, hr, hy, hall⟩ := h
  refine ⟨x, r, y ++ [t], by simp, hr, ?_, ?_⟩
  · intro u hu
    rcases List.mem_append.1 hu with hu | hu
    · exact hy u hu
    · rw [List.mem_singleton.1 hu, hcommand]
  · intro u hu
    rw [← List.cons_append] at hu
    rcases List.mem_append.1 hu with hu | hu
    · exact hall u hu
    · rw [List.mem_singleton.1 hu, hopen]

theorem armed_self (h : t.event.zeroCommand = true) : Armed (past ++ [t]) :=
  ⟨past, t, [], rfl, h, by simp⟩

theorem Armed.snoc (h : Armed past) (ht : ¬ Stops t) : Armed (past ++ [t]) := by
  obtain ⟨x, z, y, rfl, hz, hy⟩ := h
  refine ⟨x, z, y ++ [t], by simp, hz, ?_⟩
  exact List.forall_mem_append.2 ⟨hy, List.forall_mem_singleton.2 ht⟩

/-! ## The speed -/

theorem setSpeed_state (s : RollerCommandLogic) (v : Dbl) :
    (s.setSpeed v).1 = { s with speed := v } := by
  unfold setSpeed
  split
  · rfl
  · rename_i heq
    simp only [Dbl.eq, Bool.not_eq_true', Bool.not_eq_false, Bool.and_eq_true,
      beq_iff_eq] at heq
    rw [heq.2]

theorem setSpeed_timedOut (s : RollerCommandLogic) (v : Dbl) :
    (s.setSpeed v).2.timedOut = false := by
  unfold setSpeed
  split <;> rfl

/-- The result tells the ESC the speed whenever it changes. -/
def Told (s : RollerCommandLogic) (r : RollerCommandLogic × Result) : Prop :=
  if r.2.set then r.2.speed = r.1.speed else r.1.speed = s.speed

theorem setSpeed_told (s : RollerCommandLogic) (v : Dbl) : Told s (s.setSpeed v) := by
  unfold Told setSpeed
  split
  · rfl
  · rfl

theorem step_told (s : RollerCommandLogic) (e : Event) : Told s (step s e) := by
  cases e with
  | command power inhibited t =>
    simp only [step, onCommand]
    split_ifs
    · exact setSpeed_told _ _
    · exact setSpeed_told _ _
    · exact rfl
    · exact setSpeed_told _ _
  | tick t =>
    simp only [step, onTick]
    split_ifs
    · exact setSpeed_told s 0
    · exact rfl
  | inhibit t => exact setSpeed_told _ _
  | clock t => exact rfl

/-- The cap and the timeout as `configure` leaves them. -/
structure Configured (s : RollerCommandLogic) : Prop where
  timeout : ∃ q, s.timeoutSec = .fin q ∧ 0 < q
  cap : ∃ m, s.maxPower = .fin m ∧ 0 ≤ m

theorem configured_configure (s : RollerCommandLogic) (timeoutSec maxPower : Dbl) :
    Configured (s.configure timeoutSec maxPower) := by
  constructor
  · simp only [configure]
    split
    · rename_i h
      simp only [Bool.and_eq_true, decide_eq_true_eq] at h
      obtain ⟨q, rfl⟩ := Dbl.isfinite_iff.1 h.1
      exact ⟨q, rfl, Dbl.fin_lt_fin.1 h.2⟩
    · exact ⟨1, rfl, by norm_num⟩
  · simp only [configure]
    split
    · rename_i h
      obtain ⟨q, rfl⟩ := Dbl.isfinite_iff.1 h
      unfold Dbl.clamp
      split_ifs with hlo hhi
      · exact ⟨0, rfl, le_rfl⟩
      · exact ⟨1, rfl, by norm_num⟩
      · exact ⟨q, rfl, not_lt.1 (fun hq => hlo (Dbl.fin_lt_fin.2 hq))⟩
    · exact ⟨0, rfl, le_rfl⟩

theorem level_cases (h : Configured s) (power : Dbl) :
    ∃ v, s.level power = .fin v ∧ 0 ≤ v ∧ .fin v ≤ s.maxPower := by
  obtain ⟨m, hm, hm0⟩ := h.cap
  rw [level, hm]
  split
  · rename_i hfin
    obtain ⟨q, rfl⟩ := Dbl.isfinite_iff.1 hfin
    unfold Dbl.clamp
    split_ifs with hlo hhi
    · exact ⟨0, rfl, le_rfl, Dbl.fin_le_fin.2 hm0⟩
    · exact ⟨m, rfl, hm0, Dbl.fin_le_fin.2 le_rfl⟩
    · refine ⟨q, rfl, not_lt.1 (fun hq => hlo (Dbl.fin_lt_fin.2 hq)), ?_⟩
      exact Dbl.fin_le_fin.2 (not_lt.1 (fun hq => hhi (Dbl.fin_lt_fin.2 hq)))
  · exact ⟨0, rfl, le_rfl, Dbl.fin_le_fin.2 hm0⟩

theorem zero_of_level_le (hcap : 0 < s.maxPower) {power : Dbl} (h : s.level power ≤ 0) :
    (power.isfinite && decide (0 < power)) = false := by
  by_contra hpos
  simp only [Bool.not_eq_false, Bool.and_eq_true, decide_eq_true_eq] at hpos
  rw [level, if_pos hpos.1, Dbl.clamp] at h
  split_ifs at h with hlo hhi
  · obtain ⟨q, rfl⟩ := Dbl.isfinite_iff.1 hpos.1
    exact Dbl.not_lt_of_le (Dbl.fin_le_fin.2 (le_of_lt (Dbl.fin_lt_fin.1 hpos.2))) hlo
  · exact Dbl.not_lt_of_le h hcap
  · exact Dbl.not_lt_of_le h hpos.2

/-! ## What a step can do -/

/-- What one call can do to the speed and the latch. -/
inductive Effect (s : RollerCommandLogic) (e : Event) (r : RollerCommandLogic × Result) : Prop where
  | stopped (speed : r.1.speed = 0) (latch : r.1.requireZero = true)
  | rearmed (zero : 0 < s.maxPower → e.zeroCommand = true) (speed : r.1.speed = 0)
      (latch : r.1.requireZero = false)
  | spun (command : e.commandAt?.isSome = true) (opened : e.inhibits = false) (power : Dbl)
      (speed : r.1.speed = s.level power) (before : s.requireZero = false)
      (latch : r.1.requireZero = false) (inTime : r.2.timedOut = false)
  | refused (command : e.commandAt?.isSome = true) (speed : r.1.speed = s.speed)
      (before : s.requireZero = true) (latch : r.1.requireZero = true)
  | kept (command : e.commandAt? = none) (opened : e.inhibits = false) (state : r.1 = s)
      (inTime : r.2.timedOut = false)
      (fresh : 0 < s.speed → e.handled = true →
        ¬ s.timeoutSec < .fin e.time - s.commandAtSec)

theorem inhibit_effect (s' : RollerCommandLogic) : Effect s e s'.inhibit := by
  refine .stopped ?_ ?_ <;> rw [inhibit, setSpeed_state]

theorem step_effect (s : RollerCommandLogic) (e : Event) : Effect s e (step s e) := by
  cases e with
  | command power inhibited t =>
    simp only [step, onCommand]
    split
    · exact inhibit_effect _
    · rename_i hopen
      have hopen : inhibited = false := by simpa using hopen
      split
      · rename_i hlevel
        refine .rearmed ?_ (by rw [setSpeed_state]) (by rw [setSpeed_state])
        intro hcap
        simp only [Event.zeroCommand, hopen, Bool.not_false, Bool.true_and, Bool.not_eq_true']
        exact zero_of_level_le (s := s) hcap hlevel
      · split
        · rename_i hlatch
          exact .refused rfl rfl hlatch hlatch
        · rename_i hlatch
          have hlatch : s.requireZero = false := by simpa using hlatch
          exact .spun rfl hopen power (by rw [setSpeed_state]; rfl) hlatch
            (by rw [setSpeed_state]; exact hlatch) (setSpeed_timedOut _ _)
  | tick t =>
    simp only [step, onTick]
    split
    · exact .stopped (by rw [setSpeed_state]) rfl
    · rename_i hdue
      refine .kept rfl rfl rfl rfl ?_
      intro hspin _ hlate
      exact hdue (by simpa [hspin, Event.time] using hlate)
  | inhibit t => exact inhibit_effect s
  | clock t => exact .kept rfl rfl rfl rfl (fun _ hhandled => by cases hhandled)

theorem step_frame (s : RollerCommandLogic) (e : Event) :
    (step s e).1.timeoutSec = s.timeoutSec ∧ (step s e).1.maxPower = s.maxPower ∧
      (step s e).1.commandAtSec = (e.commandAt?).elim s.commandAtSec .fin := by
  cases e with
  | command power inhibited t =>
    simp only [step, onCommand, inhibit]
    split_ifs <;> simp [setSpeed_state, Event.commandAt?]
  | tick t =>
    simp only [step, onTick]
    split_ifs <;> simp [setSpeed_state, Event.commandAt?]
  | inhibit t =>
    simp [step, inhibit, setSpeed_state, Event.commandAt?]
  | clock t => exact ⟨rfl, rfl, rfl⟩

/-! ## The invariant -/

/-- The logic and the steps taken so far. -/
structure RollerInv (past : List RollerStep) (s : RollerCommandLogic) : Prop where
  configured : Configured s
  bounded : Bounded s
  commandAt : s.commandAtSec = (lastCommandAt past).elim .ninf .fin
  spinning : 0 < s.speed → s.requireZero = false ∧ NotInhibited past
  armed : s.requireZero = false → 0 < s.maxPower → Armed past

theorem rollerInv_start (timeoutSec maxPower : Dbl) :
    RollerInv [] (configure {} timeoutSec maxPower) where
  configured := configured_configure _ _ _
  bounded := by
    obtain ⟨m, hm, hm0⟩ := (configured_configure {} timeoutSec maxPower).cap
    refine ⟨Dbl.fin_le_fin.2 le_rfl, ?_⟩
    rw [hm]
    exact Dbl.fin_le_fin.2 hm0
  commandAt := rfl
  spinning := by
    intro hspin
    exact absurd hspin (Dbl.not_lt_of_le (Dbl.fin_le_fin.2 le_rfl))
  armed := nofun

theorem zero_speed (h : Configured s) (hspeed : s.speed = 0) : Bounded s ∧ ¬ 0 < s.speed := by
  obtain ⟨m, hm, hm0⟩ := h.cap
  rw [Bounded, hspeed, hm]
  exact ⟨⟨Dbl.fin_le_fin.2 le_rfl, Dbl.fin_le_fin.2 hm0⟩,
    Dbl.not_lt_of_le (Dbl.fin_le_fin.2 le_rfl)⟩

theorem rollerInv_step (h : RollerInv past s) :
    RollerInv (past ++ [stepOf step s e]) (step s e).1 := by
  obtain ⟨htimeout, hcap, hat⟩ := step_frame s e
  have hconfigured : Configured (step s e).1 := by
    obtain ⟨htimeout', hcap'⟩ := h.configured
    exact ⟨by rw [htimeout]; exact htimeout', by rw [hcap]; exact hcap'⟩
  have hcommandAt : (step s e).1.commandAtSec =
      (lastCommandAt (past ++ [stepOf step s e])).elim .ninf .fin := by
    rw [lastCommandAt_snoc, hat, h.commandAt]
    cases hc : e.commandAt? <;> simp [stepOf, hc]
  cases step_effect s e with
  | stopped hspeed hlatch =>
    obtain ⟨hbounded, hstill⟩ := zero_speed hconfigured hspeed
    exact ⟨hconfigured, hbounded, hcommandAt, fun hspin => absurd hspin hstill, by simp [hlatch]⟩
  | rearmed hzero hspeed hlatch =>
    obtain ⟨hbounded, hstill⟩ := zero_speed hconfigured hspeed
    refine ⟨hconfigured, hbounded, hcommandAt, fun hspin => absurd hspin hstill, ?_⟩
    intro _ hpos
    rw [hcap] at hpos
    exact armed_self (hzero hpos)
  | spun hcommand hopen power hspeed hbefore hlatch hintime =>
    obtain ⟨v, hv, hv0, hvcap⟩ := level_cases h.configured power
    refine ⟨hconfigured, ?_, hcommandAt, fun _ => ⟨hlatch, notInhibited_self hcommand hopen⟩, ?_⟩
    · rw [Bounded, hspeed, hv, hcap]
      exact ⟨Dbl.fin_le_fin.2 hv0, hvcap⟩
    · intro _ hpos
      rw [hcap] at hpos
      refine (h.armed hbefore hpos).snoc ?_
      rintro (hin | hlate)
      · exact absurd (hopen.symm.trans hin) (by decide)
      · exact absurd (hintime.symm.trans hlate) (by decide)
  | refused hcommand hspeed hbefore hlatch =>
    refine ⟨hconfigured, ?_, hcommandAt, ?_, by simp [hlatch]⟩
    · rw [Bounded, hspeed, hcap]
      exact h.bounded
    · -- a latched roller does not spin
      intro hspin
      rw [hspeed] at hspin
      rw [(h.spinning hspin).1] at hbefore
      cases hbefore
  | kept hcommand hopen hstate hintime hfresh =>
    have hquiet : ¬ Stops (stepOf step s e) := by
      rintro (hin | hlate)
      · exact absurd (hopen.symm.trans hin) (by decide)
      · exact absurd (hintime.symm.trans hlate) (by decide)
    refine ⟨hconfigured, ?_, hcommandAt, ?_, ?_⟩
    · rw [hstate]
      exact h.bounded
    · intro hspin
      rw [hstate] at hspin ⊢
      exact ⟨(h.spinning hspin).1, (h.spinning hspin).2.snoc hcommand hopen⟩
    · intro hlatch hpos
      rw [hstate] at hlatch hpos
      exact (h.armed hlatch hpos).snoc hquiet

theorem fresh_step (h : RollerInv past s) (hhandled : e.handled = true)
    (hspin : 0 < (step s e).1.speed) : Fresh s.timeoutSec (past ++ [stepOf step s e]) e.time := by
  obtain ⟨q, hq, hq0⟩ := h.configured.timeout
  have hmoving : (step s e).1.speed ≠ 0 := by
    intro hzero
    rw [hzero] at hspin
    exact Dbl.not_lt_of_le (Dbl.fin_le_fin.2 le_rfl) hspin
  rw [Fresh, lastCommandAt_snoc, hq]
  cases hcommand : e.commandAt? with
  | some c =>
    have htime : e.time = c := by
      cases e <;> simp_all [Event.commandAt?, Event.time]
    refine ⟨c, by simp [stepOf, hcommand], ?_⟩
    rw [htime, sub_self]
    exact Dbl.fin_le_fin.2 (le_of_lt hq0)
  | none =>
    cases step_effect s e with
    | stopped hspeed _ => exact absurd hspeed hmoving
    | rearmed _ hspeed _ => exact absurd hspeed hmoving
    | spun hsome => simp [hcommand] at hsome
    | refused hsome => simp [hcommand] at hsome
    | kept _ _ hstate _ hfresh =>
      rw [hstate] at hspin
      have hdue := hfresh hspin hhandled
      rw [h.commandAt, hq] at hdue
      cases hlast : lastCommandAt past with
      | none =>
        rw [hlast] at hdue
        exact absurd rfl hdue
      | some c =>
        rw [hlast, Option.elim_some, Dbl.fin_sub_fin, Dbl.fin_lt_fin] at hdue
        exact ⟨c, by simp [stepOf, hcommand], Dbl.fin_le_fin.2 (not_lt.1 hdue)⟩

theorem rollerInv_run (timeoutSec maxPower : Dbl) (es : List Event) :
    RollerInv (trace step (configure {} timeoutSec maxPower) es)
      (final step (configure {} timeoutSec maxPower) es) :=
  trace_history (fun _ _ => True) (rollerInv_start timeoutSec maxPower)
    (fun _ _ _ h _ => rollerInv_step h) es (fun _ _ _ _ => trivial)

/-! ## Every run -/

/-- What the speed may be after a step. It is what the ESC was told and within
bounds. It is positive only with the last command uninhibited and a 0 received
after the last start, inhibit or timeout the check found; once a call has been
handled, the last command is also in time. -/
structure Gated (past : List RollerStep) (t : RollerStep) : Prop where
  told : Told t.pre (t.post, t.out)
  bounded : Bounded t.post
  fresh : t.event.handled = true → 0 < t.post.speed →
    Fresh t.post.timeoutSec (past ++ [t]) t.event.time
  notInhibited : 0 < t.post.speed → NotInhibited (past ++ [t])
  armed : 0 < t.post.speed → Armed (past ++ [t])

/-- Every step is gated by the steps before it. -/
def GatedRun (run : List RollerStep) : Prop := ∀ a t b, run = a ++ t :: b → Gated a t

/-- The step comes when the last command is older than the timeout. -/
def Overdue (timeoutSec : Dbl) (past : List RollerStep) (t : RollerStep) : Prop :=
  ∃ c, lastCommandAt past = some c ∧ timeoutSec < .fin (t.event.time - c)

/-- A command of 0 was received after the last start, inhibit or silence of the
timeout's length, found by a check or not. -/
def ArmedOnTime (timeoutSec : Dbl) (steps : List RollerStep) : Prop :=
  ∃ x z y, steps = x ++ z :: y ∧ z.event.zeroCommand = true ∧
    ∀ y₁ u y₂, y = y₁ ++ u :: y₂ →
      u.event.inhibits = false ∧ ¬ Overdue timeoutSec (x ++ z :: y₁) u

/-- `Gated` with the timeout in force at the instant it elapses. -/
structure GatedOnTime (timeoutSec : Dbl) (past : List RollerStep) (t : RollerStep) : Prop where
  bounded : Bounded t.post
  fresh : 0 < t.post.speed → Fresh timeoutSec (past ++ [t]) t.event.time
  notInhibited : 0 < t.post.speed → NotInhibited (past ++ [t])
  armed : 0 < t.post.speed → ArmedOnTime timeoutSec (past ++ [t])

/-- The commands stop for longer than the timeout and come back before the next
check. -/
def overdueRun : List Event :=
  [.command 0 false 0, .command (.fin (4 / 5)) false (1 / 10), .clock 5,
    .command (.fin (3 / 5)) false 5]

/-- The command that comes back first is followed, without a 0. -/
example : (trace step (configure {} 1 1) overdueRun).map (fun t => (t.out.set, t.post.speed)) =
    [(false, 0), (true, .fin (4 / 5)), (false, .fin (4 / 5)), (true, .fin (3 / 5))] := by
  decide +kernel

end RollerCommandLogic

end Questix.EscMotorControl
