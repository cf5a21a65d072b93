/-
Questix.CommandArbiter.HandoverTheorems — a change of the active source from
the lab to the controller leaves a safe last output, for the drive's node and
the launcher's.

The three entry points are treated one by one: each says which command its
callback publishes when the selector takes the actuator from the lab. Since
that is exactly one command, it is the last one on the topic until the next
event.
-/
import Questix.CommandArbiter.SourceSelectorTheorems
import Questix.CommandArbiter.ArbiterNodes

namespace Questix.CommandArbiter

open Questix.Lib

/-! ## Handovers -/

section Handover

variable {σ ε κ : Type}

/-- The last command published in a run. -/
def lastOutput (steps : List (Step σ ε (List κ))) : Option κ :=
  (steps.flatMap Step.out).getLast?

/-- Every step that takes the actuator from the lab leaves a `safe` command as
the last output. -/
def SafeHandover (source : σ → Source) (safe : Step σ ε (List κ) → κ → Prop)
    (steps : List (Step σ ε (List κ))) : Prop :=
  ∀ a t b, steps = a ++ t :: b → source t.pre = .kLab → source t.post = .kJoy →
    ∃ c, lastOutput (a ++ [t]) = some c ∧ safe t c

theorem lastOutput_of_out_eq {a : List (Step σ ε (List κ))} {t : Step σ ε (List κ)} {c : κ}
    (h : t.out = [c]) : lastOutput (a ++ [t]) = some c := by
  simp [lastOutput, h]

theorem safeHandover_of_step {f : σ → ε → σ × List κ} {source : σ → Source}
    {safe : Step σ ε (List κ) → κ → Prop}
    (h : ∀ s e, source s = .kLab → source (f s e).1 = .kJoy →
      ∃ c, (f s e).2 = [c] ∧ safe (stepOf f s e) c) (s : σ) (es : List ε) :
    SafeHandover source safe (trace f s es) := by
  intro a t b hab hpre hpost
  have ht : t = stepOf f t.pre t.event := eq_stepOf_of_mem_trace (by rw [hab]; simp)
  rw [ht] at hpost
  obtain ⟨c, hc, hs⟩ := h t.pre t.event hpre hpost
  rw [← ht] at hs
  refine ⟨c, lastOutput_of_out_eq ?_, hs⟩
  rw [ht]
  exact hc

end Handover

/-! ## The drive's node -/

namespace DriveArbiter

/-- What may be the last output of the drive's node after a handover: the
controller's active twist, the lab's own neutral one, or a zero twist. -/
inductive Safe (t : Step DriveArbiter (NodeEvent Twist) (List Twist)) : Twist → Prop where
  | controller (msg : Twist) (nowSec : ℚ) :
      t.event = .joy msg nowSec → msg.isfinite = true → t.pre.active msg = true → Safe t msg
  | labNeutral (msg : Twist) (nowSec : ℚ) :
      t.event = .lab msg nowSec → msg.isfinite = true → (t.pre.labTwist msg).isZero = true →
      Safe t (t.pre.labTwist msg)
  | stop : Safe t Twist.zero

variable {s : DriveArbiter}

theorem joyCallback_handover {msg : Twist} {nowSec : ℚ} (hpre : s.selector.source = .kLab)
    (hpost : (s.joyCallback msg nowSec).1.selector.source = .kJoy) :
    (s.joyCallback msg nowSec).2 = [msg] ∧ msg.isfinite = true ∧ s.active msg = true := by
  unfold joyCallback at hpost ⊢
  split at hpost
  · -- an invalid message leaves the selector alone
    simp [hpre] at hpost
  · rename_i hfin
    obtain ⟨hact, hpub⟩ := SourceSelector.onJoy_handover hpre hpost
    simp only [Bool.not_eq_true, Bool.not_eq_false'] at hfin
    refine ⟨?_, hfin, hact⟩
    simp only [hfin, hpub, Bool.not_true, Bool.false_eq_true, if_false, if_true]

theorem labCallback_handover {msg : Twist} {nowSec : ℚ} (hpre : s.selector.source = .kLab)
    (hpost : (s.labCallback msg nowSec).1.selector.source = .kJoy) :
    (s.labCallback msg nowSec).2 = [Twist.zero] ∨
    ((s.labCallback msg nowSec).2 = [s.labTwist msg] ∧ msg.isfinite = true ∧
      (s.labTwist msg).isZero = true) := by
  unfold labCallback at hpost ⊢
  split at hpost
  · -- a broken message ends the run with a stop
    rename_i hfin
    left
    simp [hfin, hpre]
  · rename_i hfin
    simp only [Bool.not_eq_true, Bool.not_eq_false'] at hfin
    rcases SourceSelector.onLab_handover hpre hpost with ⟨hn, hf⟩ | ⟨hf, hs⟩
    · right
      refine ⟨?_, hfin, hn⟩
      simp only [hfin, hf, Bool.not_true, Bool.false_eq_true, if_false, if_true]
    · left
      simp only [hfin, hf, hs, Bool.not_true, Bool.false_eq_true, if_false, if_true]

theorem tickCallback_handover {nowSec : ℚ} (hpre : s.selector.source = .kLab)
    (hpost : (s.tickCallback nowSec).1.selector.source = .kJoy) :
    (s.tickCallback nowSec).2 = [Twist.zero] := by
  have hstop := SourceSelector.onTick_handover hpre hpost
  simp only [tickCallback, hstop, if_true]

theorem step_handover (s : DriveArbiter) (e : NodeEvent Twist)
    (hpre : s.selector.source = .kLab) (hpost : (step s e).1.selector.source = .kJoy) :
    ∃ c, (step s e).2 = [c] ∧ Safe (stepOf step s e) c := by
  cases e with
  | joy msg t =>
    obtain ⟨hout, hfin, hact⟩ := joyCallback_handover hpre hpost
    exact ⟨msg, hout, .controller msg t rfl hfin hact⟩
  | lab msg t =>
    rcases labCallback_handover hpre hpost with hout | ⟨hout, hfin, hzero⟩
    · exact ⟨Twist.zero, hout, .stop⟩
    · exact ⟨s.labTwist msg, hout, .labNeutral msg t rfl hfin hzero⟩
  | permission allowed t =>
    have hpost : s.selector.source = .kJoy := hpost
    simp [hpre] at hpost
  | tick t => exact ⟨Twist.zero, tickCallback_handover hpre hpost, .stop⟩

end DriveArbiter

/-! ## The launcher's node -/

namespace LauncherFlow

variable {s : LauncherFlow} {msg : LauncherCommand} {permitted : Bool} {nowSec : ℚ}

/-- The events the flow reads out of a controller message. -/
def joyEvents (s : LauncherFlow) (msg : LauncherCommand) (nowSec : ℚ) : InputEvents.Events :=
  (s.joy.onCommand msg.tiltDeg msg.tiltSteps msg.fireSeq nowSec).2

/-- The events the flow reads out of a lab message. -/
def labEvents (s : LauncherFlow) (msg : LauncherCommand) (nowSec : ℚ) : InputEvents.Events :=
  (s.lab.onCommand msg.tiltDeg msg.tiltSteps msg.fireSeq nowSec).2

/-- The controller's command on the output's counters. -/
def joyCommand (s : LauncherFlow) (msg : LauncherCommand) (nowSec : ℚ) : LauncherCommand where
  rollerPower := joyRoller msg
  tiltDeg := if msg.tiltDeg.isfinite then msg.tiltDeg else .nan
  tiltSteps := s.out.tiltSteps + (s.joyEvents msg nowSec).tiltSteps
  fireSeq := if (s.joyEvents msg nowSec).fire then s.out.fireSeq + 1 else s.out.fireSeq

/-- The explicit stop: the last output with the roller at 0 and no target. -/
def stopCommand (s : LauncherFlow) : LauncherCommand :=
  { s.out with rollerPower := 0, tiltDeg := .nan }

@[simp] theorem setPrecondition_frame (p : Precondition) :
    (s.setPrecondition p).out = s.out ∧ (s.setPrecondition p).selector = s.selector := by
  unfold setPrecondition
  split <;> simp

theorem labRoller_eq_zero {config : LauncherConfig}
    (h : labRoller config msg ≤ 0) : labRoller config msg = 0 := by
  unfold labRoller Dbl.clamp at h ⊢
  split_ifs at h ⊢ with hlo hhi
  · rfl
  · unfold Dbl.max at h ⊢
    split_ifs at h ⊢ with hcap
    · exact absurd hcap (Dbl.not_lt_of_le h)
    · rfl
  · cases hr : msg.rollerPower with
    | fin q =>
      rw [hr] at h hlo
      have h1 : q ≤ 0 := Dbl.fin_le_fin.1 h
      have h2 : ¬ q < 0 := fun hq => hlo (Dbl.fin_lt_fin.2 hq)
      rw [le_antisymm h1 (not_lt.1 h2)]
      rfl
    | nan => rw [hr] at h; exact absurd h Bool.false_ne_true
    | ninf => rw [hr] at hlo; exact absurd rfl hlo
    | pinf => rw [hr] at h; exact absurd h Bool.false_ne_true

theorem onJoy_handover (hpre : s.selector.source = .kLab)
    (hpost : (s.onJoy msg nowSec).1.selector.source = .kJoy) :
    joyActive msg (s.joyEvents msg nowSec) = true ∧
    (s.onJoy msg nowSec).2 = some { command := s.joyCommand msg nowSec, source := .kJoy } := by
  have hsel : (s.onJoy msg nowSec).1.selector =
      (s.selector.onJoy (joyActive msg (s.joyEvents msg nowSec)) nowSec).1 := by
    unfold onJoy joyEvents
    simp only
    split_ifs <;> simp [fire]
  rw [hsel] at hpost
  obtain ⟨hact, hpub⟩ := SourceSelector.onJoy_handover hpre hpost
  refine ⟨hact, ?_⟩
  simp only [joyEvents] at hpub
  unfold onJoy joyCommand joyEvents
  simp only [hpub, Bool.not_true, Bool.false_eq_true, if_false]
  split_ifs <;> simp [emit, fire]

@[simp] theorem stop_output : s.stop.2 = { command := s.stopCommand, source := .kLab } := rfl

theorem forwardLab_neutral {roller : Dbl} {events : InputEvents.Events} (hroller : roller = 0)
    (hfire : events.fire = false) (htarget : events.tiltTarget = false) :
    (s.forwardLab false roller events nowSec).2 =
      some { command := { s.out with rollerPower := 0 }, source := .kLab } := by
  subst hroller
  simp only [forwardLab, spin, hfire, htarget, Bool.false_eq_true, if_false]
  split_ifs <;> rfl

@[simp] theorem forwardLab_selector (starting : Bool) (roller : Dbl)
    (events : InputEvents.Events) :
    (s.forwardLab starting roller events nowSec).1.selector = s.selector := by
  have hspin : (s.spin starting roller nowSec).selector = s.selector := by
    simp only [spin]
    split_ifs <;> rfl
  have hfire : ∀ s : LauncherFlow, (s.labFire nowSec).selector = s.selector := by
    intro s
    unfold labFire
    split_ifs <;> simp [fire]
  simp only [forwardLab]
  split_ifs <;> simp only [hfire, hspin]

theorem onLab_selector (hok : (!msg.rollerPower.isfinite || msg.tiltDeg.isinf) = false) :
    (s.onLab msg permitted nowSec).1.selector =
      (s.selector.onLab (labNeutral s.config msg (s.labEvents msg nowSec)) permitted nowSec).1 := by
  unfold onLab
  simp only [hok, Bool.false_eq_true, if_false]
  split_ifs <;> simp [stop, labEvents]

theorem onLab_handover (hpre : s.selector.source = .kLab)
    (hpost : (s.onLab msg permitted nowSec).1.selector.source = .kJoy) :
    (s.onLab msg permitted nowSec).2 = some { command := s.stopCommand, source := .kLab } ∨
    (labNeutral s.config msg (s.labEvents msg nowSec) = true ∧
      (s.onLab msg permitted nowSec).2 =
        some { command := { s.out with rollerPower := 0 }, source := .kLab }) := by
  cases hok : !msg.rollerPower.isfinite || msg.tiltDeg.isinf with
  | true =>
    -- a broken message ends the run with a stop
    left
    unfold onLab
    simp only [hok, hpre, if_true]
    rfl
  | false =>
    rw [onLab_selector hok] at hpost
    unfold onLab
    simp only [hok, hpre, Bool.false_eq_true, if_false, decide_true, Bool.not_true,
      Bool.false_and]
    rcases SourceSelector.onLab_handover hpre hpost with ⟨hn, hf⟩ | ⟨-, hs⟩
    · right
      have hstop := SourceSelector.onLab_stop_of_forward hf
      refine ⟨hn, ?_⟩
      simp only [labNeutral, labEvents, Bool.and_eq_true, decide_eq_true_eq,
        Bool.not_eq_true'] at hn
      simp only [labEvents] at hf hstop
      simp only [hf, hstop, Bool.not_true, Bool.false_eq_true, if_false]
      exact forwardLab_neutral (labRoller_eq_zero hn.1.1) hn.1.2 hn.2
    · left
      simp only [labEvents] at hs
      simp only [hs, if_true]
      rfl

theorem onTick_handover (hpre : s.selector.source = .kLab)
    (hpost : (s.onTick permitted nowSec).1.selector.source = .kJoy) :
    (s.onTick permitted nowSec).2 = some { command := s.stopCommand, source := .kLab } := by
  have hsel : (s.onTick permitted nowSec).1.selector =
      (s.selector.onTick permitted nowSec).1 := by
    unfold onTick
    simp only
    split_ifs <;> simp [stop]
  rw [hsel] at hpost
  have hstop := SourceSelector.onTick_handover hpre hpost
  unfold onTick
  simp only [hstop, if_true]
  rfl

end LauncherFlow

namespace LauncherArbiter

/-- What may be the last output of the launcher's node after a handover: the
controller's active command on the output's counters, the lab's own neutral
one (the last output with the roller at 0), or an explicit stop. -/
inductive Safe (t : Step LauncherArbiter (NodeEvent LauncherCommand) (List LauncherOutput)) :
    LauncherOutput → Prop where
  | controller (msg : LauncherCommand) (nowSec : ℚ) :
      t.event = .joy msg nowSec →
      LauncherFlow.joyActive msg (t.pre.flow.joyEvents msg nowSec) = true →
      Safe t { command := t.pre.flow.joyCommand msg nowSec, source := .kJoy }
  | labNeutral (msg : LauncherCommand) (nowSec : ℚ) :
      t.event = .lab msg nowSec →
      LauncherFlow.labNeutral t.pre.flow.config msg (t.pre.flow.labEvents msg nowSec) = true →
      Safe t { command := { t.pre.flow.out with rollerPower := 0 }, source := .kLab }
  | stop : Safe t { command := t.pre.flow.stopCommand, source := .kLab }

theorem step_handover (s : LauncherArbiter) (e : NodeEvent LauncherCommand)
    (hpre : s.flow.selector.source = .kLab)
    (hpost : (step s e).1.flow.selector.source = .kJoy) :
    ∃ c, (step s e).2 = [c] ∧ Safe (stepOf step s e) c := by
  cases e with
  | joy msg t =>
    obtain ⟨hact, hout⟩ := LauncherFlow.onJoy_handover hpre hpost
    refine ⟨_, ?_, .controller msg t rfl hact⟩
    simp only [step, joyCallback, publish, hout, stepOf, Option.toList_some]
  | lab msg t =>
    rcases LauncherFlow.onLab_handover hpre hpost with hout | ⟨hn, hout⟩
    · refine ⟨_, ?_, .stop⟩
      simp only [step, labCallback, publish, hout, stepOf, Option.toList_some]
    · refine ⟨_, ?_, .labNeutral msg t rfl hn⟩
      simp only [step, labCallback, publish, hout, stepOf, Option.toList_some]
  | permission allowed t =>
    have hpost : s.flow.selector.source = .kJoy := hpost
    simp [hpre] at hpost
  | tick t =>
    refine ⟨_, ?_, .stop⟩
    simp only [step, tickCallback, publish, LauncherFlow.onTick_handover hpre hpost, stepOf,
      Option.toList_some]

end LauncherArbiter

/-! ## Every run -/

/-- In every run of either node, whatever its parameters, a handover from the
lab to the controller leaves a safe last output. -/
theorem handover_safe :
    (∀ params s es, DriveArbiter.create params = some s →
      SafeHandover (fun s => s.selector.source) DriveArbiter.Safe
        (trace DriveArbiter.step s es)) ∧
    (∀ config leaseSec s es, LauncherArbiter.create config leaseSec = some s →
      SafeHandover (fun s => s.flow.selector.source) LauncherArbiter.Safe
        (trace LauncherArbiter.step s es)) := by
  refine ⟨?_, ?_⟩
  · intro params s es _
    exact safeHandover_of_step DriveArbiter.step_handover s es
  · intro config leaseSec s es _
    exact safeHandover_of_step LauncherArbiter.step_handover s es

/-- The controller takes the drive over from a permitted lab run. -/
def takeoverTwists : List (NodeEvent Twist) :=
  [.permission true 0, .lab ⟨.fin (1 / 10), 0⟩ 1, .joy ⟨.fin (1 / 5), 0⟩ (3 / 2)]

/-- A permitted lab run of the launcher falls silent. -/
def silentLauncherRun : List (NodeEvent LauncherCommand) :=
  [.permission true 0, .lab { rollerPower := 1 } 1, .tick 3]

theorem handover_safe_takeover :
    (∃ s, DriveArbiter.create {} = some s ∧
      SafeHandover (fun s => s.selector.source) DriveArbiter.Safe
        (trace DriveArbiter.step s takeoverTwists)) ∧
    (∃ s, LauncherArbiter.create {} 1 = some s ∧
      SafeHandover (fun s => s.flow.selector.source) LauncherArbiter.Safe
        (trace LauncherArbiter.step s silentLauncherRun)) := by
  have hl : (LauncherArbiter.create {} 1).isSome = true := by decide +kernel
  refine ⟨⟨_, rfl, handover_safe.1 {} _ takeoverTwists rfl⟩, ?_⟩
  exact ⟨_, (Option.some_get hl).symm,
    handover_safe.2 {} 1 _ silentLauncherRun (Option.some_get hl).symm⟩

example : ((DriveArbiter.create {}).map fun s =>
      (trace DriveArbiter.step s takeoverTwists).map Step.out) =
    some [[], [⟨.fin (1 / 10), 0⟩], [⟨.fin (1 / 5), 0⟩]] := by
  decide +kernel

end Questix.CommandArbiter
