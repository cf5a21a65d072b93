/-
Questix.CommandArbiter.LabRunTheorems — what a lab run of the launcher's flow
publishes is its own: it starts with the roller at 0, its tilt targets were
asked for by commands of the same run, and nothing of it is left when it ends.

A lab run is a stretch of steps after which the lab has the launcher. The
invariant `OwnTilt` ties the target the output carries in a run to the command
of that run that asked for it; outside a run nothing is promised of it, and the
command that starts the next run clears it.
-/
import Questix.CommandArbiter.ArbiterNodes
import Questix.CommandArbiter.LauncherShotTheorems

namespace Questix.CommandArbiter

open Questix.Lib

/-- The lab command an event carries, if the flow reads it. -/
def FlowEvent.readCommand? : FlowEvent → Option LauncherCommand
  | .lab command _ _ => if LauncherFlow.brokenLab command then none else some command
  | _ => none

namespace LauncherFlow

/-! ## The run a value belongs to -/

/-- The lab's tilt target as it is forwarded. -/
def labTilt (config : LauncherConfig) (tiltDeg : Dbl) : Dbl :=
  tiltDeg.clamp config.labTiltMinDeg (Dbl.max config.labTiltMinDeg config.labTiltMaxDeg)

/-- The step's lab command asks for a new tilt target. -/
def NewTarget (t : FlowStep) (tiltDeg : Dbl) : Prop :=
  ∃ command permitted nowSec, t.event = .lab command permitted nowSec ∧
    brokenLab command = false ∧ (t.pre.labEvents command nowSec).tiltTarget = true ∧
    command.tiltDeg = tiltDeg

/-- A target that an earlier step of the lab run now going on asked for: the
lab has had the launcher ever since. -/
def RequestedInRun (config : LauncherConfig) (past : List FlowStep) (tiltDeg : Dbl) : Prop :=
  ∃ x r y target, past = x ++ r :: y ∧ NewTarget r target ∧
    (∀ w ∈ r :: y, w.post.selector.source = .kLab) ∧ tiltDeg = labTilt config target

/-- The last lab command the flow has read. -/
def lastRead (past : List FlowStep) : Option LauncherCommand :=
  (past.filterMap fun r => r.event.readCommand?).getLast?

/-- The step's lab command asks for a shot: it raises the counter of the last
lab command read before it. -/
def RequestsShot (past : List FlowStep) (t : FlowStep) : Prop :=
  ∃ command permitted nowSec prev, t.event = .lab command permitted nowSec ∧
    lastRead past = some prev ∧ prev.fireSeq < command.fireSeq

/-- What the step `t` of a run publishes after the steps `past`. The lab's
outputs carry values of the same lab run only, the controller's none of the
lab's. -/
structure FreshStep (config : LauncherConfig) (past : List FlowStep) (t : FlowStep) : Prop where
  held : ∀ o ∈ t.out, o.source = .kLab →
    t.pre.selector.source = .kLab ∨ t.post.selector.source = .kLab
  starts : t.pre.selector.source = .kJoy → t.post.selector.source = .kLab →
    ∃ o, t.out = [o] ∧ o.source = .kLab ∧ o.command.rollerPower = 0
  target : ∀ o ∈ t.out, o.source = .kLab → o.command.tiltDeg.isfinite = true →
    (∃ target, NewTarget t target ∧ o.command.tiltDeg = labTilt config target) ∨
      t.pre.selector.source = .kLab ∧ RequestedInRun config past o.command.tiltDeg
  roller : ∀ o ∈ t.out, o.source = .kLab → o.command.rollerPower = 0 ∨
    t.pre.selector.source = .kLab ∧ ∃ command permitted nowSec,
      t.event = .lab command permitted nowSec ∧ brokenLab command = false ∧
      o.command.rollerPower = labRoller config command
  shot : ∀ o ∈ t.out, o.source = .kLab → o.command.fireSeq = publishedSeq past ∨
    o.command.fireSeq = publishedSeq past + 1 ∧ RequestsShot past t ∧
      (t.pre.selector.source = .kLab ∨ config.minFirePower ≤ 0)
  controller : ∀ o ∈ t.out, o.source = .kJoy → ∃ command nowSec, t.event = .joy command nowSec ∧
    o.command.rollerPower = joyRoller command ∧
    (o.command.tiltDeg.isfinite = true → o.command.tiltDeg = command.tiltDeg) ∧
    o.command.fireSeq = if (t.pre.joyEvents command nowSec).fire then publishedSeq past + 1
      else publishedSeq past

/-- The lab's outputs keep the lab's limits. -/
structure InLimits (config : LauncherConfig) (o : LauncherOutput) : Prop where
  roller : 0 ≤ o.command.rollerPower ∧ o.command.rollerPower ≤ config.labMaxPower
  tilt : o.command.tiltDeg.isfinite = true →
    config.labTiltMinDeg ≤ o.command.tiltDeg ∧ o.command.tiltDeg ≤ config.labTiltMaxDeg

variable {config : LauncherConfig} {past : List FlowStep} {s : LauncherFlow} {e : FlowEvent}

/-! ## The target of one step -/

/-- Where a target in a lab output, or the one a lab run goes on with, comes
from: the step's own command, or the output before the step. -/
def TargetFrom (s : LauncherFlow) (e : FlowEvent) (tiltDeg : Dbl) : Prop :=
  tiltDeg.isfinite = true →
    (∃ target, NewTarget (stepOf step s e) target ∧ tiltDeg = labTilt s.config target) ∨
      s.selector.source = .kLab ∧ tiltDeg = s.out.tiltDeg

theorem forwardLab_tilt (s : LauncherFlow) (starting : Bool) (roller : Dbl)
    (events : InputEvents.Events) (nowSec : ℚ) :
    ∃ tiltDeg, tiltDeg = (if events.tiltTarget then labTilt s.config events.tiltDeg
        else if starting then .nan else s.out.tiltDeg) ∧
      (∀ o, (s.forwardLab starting roller events nowSec).2 = some o →
        o.command.tiltDeg = tiltDeg) ∧
      (s.selector.source = .kLab →
        (s.forwardLab starting roller events nowSec).1.out.tiltDeg = tiltDeg) := by
  have hspun : (s.spin starting roller nowSec).config = s.config ∧
      (s.spin starting roller nowSec).selector = s.selector ∧
      (s.spin starting roller nowSec).out.tiltDeg =
        if starting then .nan else s.out.tiltDeg := by
    simp only [spin]
    split_ifs <;> simp
  unfold forwardLab
  generalize s.spin starting roller nowSec = spun at hspun ⊢
  obtain ⟨hconfig, hselector, htilt⟩ := hspun
  refine ⟨_, rfl, ?_⟩
  cases hfire : events.fire <;> cases htarget : events.tiltTarget <;>
    by_cases hsrc : spun.selector.source = .kLab <;>
    simp [labFire_frame, labTilt, emit, hsrc, ← hconfig, ← hselector, ← htilt]

theorem labEvents_tilt {command : LauncherCommand} {nowSec : ℚ}
    (h : (s.labEvents command nowSec).tiltTarget = true) :
    (s.labEvents command nowSec).tiltDeg = command.tiltDeg := by
  have hcount : ∀ silent, (s.lab.countEvents silent command.tiltSteps command.fireSeq).tiltTarget =
      false := by
    intro silent
    simp only [InputEvents.countEvents]
    split <;> rfl
  unfold labEvents InputEvents.onCommand at h ⊢
  dsimp only at h ⊢
  by_cases hnew : (command.tiltDeg.isfinite && (!(if s.lab.silent nowSec then Dbl.nan
      else s.lab.lastTiltDeg).isfinite || !Dbl.eq command.tiltDeg (if s.lab.silent nowSec
      then Dbl.nan else s.lab.lastTiltDeg))) = true
  · rw [InputEvents.silent] at hnew
    rw [if_pos hnew]
  · rw [InputEvents.silent] at hnew
    rw [if_neg hnew, hcount] at h
    cases h

theorem labSelection_held {command : LauncherCommand} {permitted : Bool} {nowSec : ℚ}
    (hforward : (s.labSelection command permitted nowSec).2.forward = true) :
    s.selector.source = .kLab ∨
      (s.labSelection command permitted nowSec).1.source = .kLab ∧
        s.starting command permitted nowSec = true := by
  cases hsrc : s.selector.source with
  | kLab => exact .inl rfl
  | kJoy =>
    right
    have hneutral := (SourceSelector.onLab_forward.1 hforward).2
    have hsource : (s.labSelection command permitted nowSec).1.source = .kLab := by
      unfold labSelection at hforward ⊢
      rw [SourceSelector.onLab_source, hforward]
      simp_all
    exact ⟨hsource, by simp [starting, hsrc, hsource]⟩

theorem onLab_target (s : LauncherFlow) (command : LauncherCommand) (permitted : Bool)
    (nowSec : ℚ) :
    (∀ o, (s.onLab command permitted nowSec).2 = some o →
      TargetFrom s (.lab command permitted nowSec) o.command.tiltDeg) ∧
    ((s.onLab command permitted nowSec).1.selector.source = .kLab →
      TargetFrom s (.lab command permitted nowSec)
        (s.onLab command permitted nowSec).1.out.tiltDeg) := by
  cases hbroken : brokenLab command with
  | true =>
    cases hsrc : s.selector.source with
    | kLab =>
      rw [onLab_brokenRun hbroken hsrc]
      refine ⟨?_, fun _ hfin => by cases hfin⟩
      rintro o ⟨⟩ hfin
      cases hfin
    | kJoy =>
      rw [onLab_brokenIdle hbroken hsrc]
      refine ⟨by simp, ?_⟩
      intro hlab
      simp [SourceSelector.refuse, hsrc] at hlab
  | false =>
    cases hforward : (s.labSelection command permitted nowSec).2.forward with
    | false =>
      cases hstop : (s.labSelection command permitted nowSec).2.stop with
      | true =>
        rw [onLab_stopped hbroken hstop]
        refine ⟨?_, fun _ hfin => by cases hfin⟩
        rintro o ⟨⟩ hfin
        cases hfin
      | false =>
        rw [onLab_refused hbroken hforward hstop]
        refine ⟨by simp, ?_⟩
        intro hlab hfin
        right
        rw [← labSelection_source hforward hstop]
        exact ⟨hlab, rfl⟩
    | true =>
      rw [onLab_forward hbroken hforward]
      obtain ⟨tiltDeg, htilt, hout, hkept⟩ := forwardLab_tilt
        (s.received command permitted nowSec) (s.starting command permitted nowSec)
        (labRoller s.config command) (s.labEvents command nowSec) nowSec
      have hfrom : TargetFrom s (.lab command permitted nowSec) tiltDeg := by
        intro hfin
        rw [htilt] at hfin ⊢
        split at hfin
        · -- the command's own target
          rename_i htarget
          left
          refine ⟨command.tiltDeg, ⟨command, permitted, nowSec, rfl, hbroken, htarget, rfl⟩, ?_⟩
          rw [if_pos htarget, labEvents_tilt htarget]
          rfl
        · rename_i htarget
          right
          rw [if_neg htarget]
          cases hstart : s.starting command permitted nowSec with
          | true =>
            simp [hstart, Dbl.isfinite] at hfin
          | false =>
            rcases labSelection_held hforward with hlab | ⟨-, hstarting⟩
            · exact ⟨hlab, rfl⟩
            · rw [hstart] at hstarting
              cases hstarting
      refine ⟨?_, ?_⟩
      · intro o ho
        rw [hout o ho]
        exact hfrom
      · intro hlab
        rw [hkept]
        · exact hfrom
        · rw [forwardLab_selector] at hlab
          exact hlab

theorem onJoy_takes {command : LauncherCommand} {nowSec : ℚ}
    (h : (s.joySelection command nowSec).2 = true) :
    (s.joySelection command nowSec).1.source = .kJoy := by
  unfold joySelection at h ⊢
  rw [SourceSelector.onJoy_publish] at h
  rw [SourceSelector.onJoy_source]
  cases hactive : joyActive command (s.joyEvents command nowSec) with
  | true => rfl
  | false => simpa [hactive] using h

theorem onJoy_leaves {command : LauncherCommand} {nowSec : ℚ}
    (h : (s.joySelection command nowSec).2 = false) :
    (s.joySelection command nowSec).1.source = s.selector.source := by
  unfold joySelection at h ⊢
  rw [SourceSelector.onJoy_publish, Bool.or_eq_false_iff] at h
  rw [SourceSelector.onJoy_source, h.1]
  rfl

/-- Where the targets of one step come from. -/
theorem step_target (s : LauncherFlow) (e : FlowEvent) :
    (∀ o ∈ (step s e).2, o.source = .kLab → TargetFrom s e o.command.tiltDeg) ∧
    ((step s e).1.selector.source = .kLab → TargetFrom s e (step s e).1.out.tiltDeg) := by
  cases e with
  | lab command permitted t =>
    obtain ⟨hout, hkept⟩ := onLab_target s command permitted t
    refine ⟨?_, hkept⟩
    intro o ho hsrc
    exact hout o (Option.mem_toList.1 ho)
  | joy command t =>
    cases hforward : (s.joySelection command t).2 with
    | true =>
      simp only [step, onJoy_forward hforward, onJoy_frame]
      refine ⟨?_, ?_⟩
      · intro o ho hsrc
        obtain rfl := List.mem_singleton.1 ho
        cases hsrc
      · intro hlab
        rw [onJoy_takes hforward] at hlab
        cases hlab
    | false =>
      simp only [step, onJoy_idle hforward]
      refine ⟨by simp, ?_⟩
      intro hlab hfin
      right
      rw [onJoy_leaves hforward] at hlab
      exact ⟨hlab, rfl⟩
  | tick permitted t =>
    cases hstop : (s.selector.onTick permitted t).2 with
    | true =>
      simp only [step, onTick_stopped hstop]
      refine ⟨?_, fun _ hfin => by cases hfin⟩
      intro o ho hsrc hfin
      obtain rfl := List.mem_singleton.1 ho
      cases hfin
    | false =>
      simp only [step, onTick_idle hstop]
      refine ⟨by simp, ?_⟩
      intro hlab hfin
      right
      rw [SourceSelector.onTick_source] at hlab
      split at hlab
      · cases hlab
      · exact ⟨hlab, rfl⟩

/-! ## The streams and the targets of a run -/

/-- The flow and the steps taken so far. -/
structure LabRunInv (config : LauncherConfig) (past : List FlowStep) (s : LauncherFlow) :
    Prop where
  configured : s.config = config
  fireSeq : publishedSeq past = s.out.fireSeq
  read : s.lab.have_ = true → ∃ prev, lastRead past = some prev ∧ prev.fireSeq = s.lab.fireSeq
  ownTilt : s.selector.source = .kLab → s.out.tiltDeg.isfinite = true →
    RequestedInRun config past s.out.tiltDeg

theorem labRunInv_start (config : LauncherConfig) :
    LabRunInv config [] (configure {} config) where
  configured := rfl
  fireSeq := rfl
  read := nofun
  ownTilt := nofun

theorem lastRead_snoc {t : FlowStep} :
    lastRead (past ++ [t]) = (t.event.readCommand?).or (lastRead past) := by
  cases h : t.event.readCommand? <;> simp [lastRead, h]

theorem onLab_reads (s : LauncherFlow) (command : LauncherCommand) (permitted : Bool)
    (nowSec : ℚ) :
    (s.onLab command permitted nowSec).1.lab = if brokenLab command then s.lab
      else (s.lab.onCommand command.tiltDeg command.tiltSteps command.fireSeq nowSec).1 := by
  cases hbroken : brokenLab command with
  | true =>
    cases hsrc : s.selector.source with
    | kLab => rw [onLab_brokenRun hbroken hsrc]; rfl
    | kJoy => rw [onLab_brokenIdle hbroken hsrc]; rfl
  | false =>
    cases hforward : (s.labSelection command permitted nowSec).2.forward with
    | true =>
      rw [onLab_forward hbroken hforward, (forwardLab_forwarded _ _ _).lab]
      rfl
    | false =>
      cases hstop : (s.labSelection command permitted nowSec).2.stop with
      | true => rw [onLab_stopped hbroken hstop]; rfl
      | false => rw [onLab_refused hbroken hforward hstop]; rfl

theorem read_step
    (h : s.lab.have_ = true → ∃ prev, lastRead past = some prev ∧ prev.fireSeq = s.lab.fireSeq)
    (hhave : (step s e).1.lab.have_ = true) :
    ∃ prev, lastRead (past ++ [stepOf step s e]) = some prev ∧
      prev.fireSeq = (step s e).1.lab.fireSeq := by
  rw [lastRead_snoc]
  cases e with
  | joy command t =>
    simp only [step, onJoy_frame] at hhave ⊢
    exact h hhave
  | tick permitted t =>
    simp only [step, onTick_frame] at hhave ⊢
    exact h hhave
  | lab command permitted t =>
    simp only [step, onLab_reads] at hhave ⊢
    cases hbroken : brokenLab command with
    | true =>
      simp only [hbroken, if_true] at hhave ⊢
      simpa [stepOf, FlowEvent.readCommand?, hbroken] using h hhave
    | false =>
      refine ⟨command, ?_, rfl⟩
      simp [stepOf, FlowEvent.readCommand?, hbroken]

theorem RequestedInRun.snoc {tiltDeg : Dbl} {t : FlowStep}
    (h : RequestedInRun config past tiltDeg) (ht : t.post.selector.source = .kLab) :
    RequestedInRun config (past ++ [t]) tiltDeg := by
  obtain ⟨x, r, y, target, rfl, hnew, hkept, htilt⟩ := h
  refine ⟨x, r, y ++ [t], target, by simp, hnew, ?_, htilt⟩
  intro w hw
  rcases List.mem_append.1 (List.cons_append ▸ hw) with hw | hw
  · exact hkept w hw
  · obtain rfl := List.mem_singleton.1 hw
    exact ht

theorem labRunInv_step (h : LabRunInv config past s) (e : FlowEvent) :
    LabRunInv config (past ++ [stepOf step s e]) (step s e).1 where
  configured := step_config.trans h.configured
  fireSeq := publishedSeq_snoc h.fireSeq
  read := read_step h.read
  ownTilt := by
    intro hlab hfin
    rcases (step_target s e).2 hlab hfin with ⟨target, hnew, htilt⟩ | ⟨hpre, htilt⟩
    · refine ⟨past, stepOf step s e, [], target, rfl, hnew, ?_, ?_⟩
      · intro w hw
        obtain rfl := List.mem_singleton.1 hw
        exact hlab
      · rw [htilt, h.configured]
    · rw [htilt] at hfin ⊢
      exact (h.ownTilt hpre hfin).snoc hlab

/-! ## What a step publishes -/

theorem onLab_published {command : LauncherCommand} {permitted : Bool} {nowSec : ℚ}
    {o : LauncherOutput} (h : (s.onLab command permitted nowSec).2 = some o) :
    s.selector.source = .kLab ∧ o = { command := s.stopCommand, source := .kLab } ∨
      brokenLab command = false ∧ (s.labSelection command permitted nowSec).2.forward = true := by
  cases hbroken : brokenLab command with
  | true =>
    cases hsrc : s.selector.source with
    | kLab =>
      rw [onLab_brokenRun hbroken hsrc] at h
      exact .inl ⟨rfl, (Option.some.inj h).symm⟩
    | kJoy =>
      rw [onLab_brokenIdle hbroken hsrc] at h
      cases h
  | false =>
    cases hforward : (s.labSelection command permitted nowSec).2.forward with
    | true => exact .inr ⟨rfl, rfl⟩
    | false =>
      cases hstop : (s.labSelection command permitted nowSec).2.stop with
      | true =>
        rw [onLab_stopped hbroken hstop] at h
        unfold labSelection at hstop
        rw [SourceSelector.onLab_stop, Bool.and_eq_true, decide_eq_true_eq] at hstop
        exact .inl ⟨hstop.1, (Option.some.inj h).symm⟩
      | false =>
        rw [onLab_refused hbroken hforward hstop] at h
        cases h

theorem onTick_published {permitted : Bool} {nowSec : ℚ} {o : LauncherOutput}
    (h : (s.onTick permitted nowSec).2 = some o) :
    s.selector.source = .kLab ∧ o = { command := s.stopCommand, source := .kLab } := by
  cases hstop : (s.selector.onTick permitted nowSec).2 with
  | true =>
    rw [onTick_stopped hstop] at h
    rw [SourceSelector.onTick_stop, Bool.and_eq_true, decide_eq_true_eq] at hstop
    exact ⟨hstop.1, (Option.some.inj h).symm⟩
  | false =>
    rw [onTick_idle hstop] at h
    cases h

theorem onJoy_published {command : LauncherCommand} {nowSec : ℚ} {o : LauncherOutput}
    (h : (s.onJoy command nowSec).2 = some o) :
    o = { command := s.joyCommand command nowSec, source := .kJoy } := by
  cases hforward : (s.joySelection command nowSec).2 with
  | true =>
    rw [(onJoy_forward hforward).1] at h
    exact (Option.some.inj h).symm
  | false =>
    rw [onJoy_idle hforward] at h
    cases h

theorem step_lab {o : LauncherOutput} (ho : o ∈ (step s e).2) (hsrc : o.source = .kLab) :
    s.selector.source = .kLab ∧ o = { command := s.stopCommand, source := .kLab } ∨
      ∃ command permitted nowSec, e = .lab command permitted nowSec ∧
        brokenLab command = false ∧
        (s.labSelection command permitted nowSec).2.forward = true := by
  cases e with
  | joy command t =>
    have hown := onJoy_published (Option.mem_toList.1 ho)
    rw [hown] at hsrc
    cases hsrc
  | lab command permitted t =>
    rcases onLab_published (Option.mem_toList.1 ho) with hstop | hforward
    · exact .inl hstop
    · exact .inr ⟨command, permitted, t, rfl, hforward⟩
  | tick permitted t => exact .inl (onTick_published (Option.mem_toList.1 ho))

theorem onLab_let_through {command : LauncherCommand} {permitted : Bool} {nowSec : ℚ}
    (hbroken : brokenLab command = false)
    (hforward : (s.labSelection command permitted nowSec).2.forward = true) :
    (s.onLab command permitted nowSec).1.selector =
        (s.labSelection command permitted nowSec).1 ∧
      ∃ o, (s.onLab command permitted nowSec).2 = some o ∧ o.source = .kLab ∧
        o.command.rollerPower = if s.starting command permitted nowSec then 0
          else labRoller s.config command := by
  rw [onLab_forward hbroken hforward]
  have hforwarded := @forwardLab_forwarded (s.received command permitted nowSec) nowSec
    (s.starting command permitted nowSec) (labRoller s.config command) (s.labEvents command nowSec)
  obtain ⟨o, ho, hsrc, -, -, hroller⟩ := hforwarded.output
  refine ⟨by simp [received], o, ho, hsrc, ?_⟩
  rw [hroller]
  simp [spin_frame]

/-- The step that makes the lab the source is a lab command that starts a run. -/
theorem step_starts (hpre : s.selector.source = .kJoy)
    (hpost : (step s e).1.selector.source = .kLab) :
    ∃ o, (step s e).2 = [o] ∧ o.source = .kLab ∧ o.command.rollerPower = 0 := by
  cases e with
  | joy command t =>
    simp only [step, onJoy_frame] at hpost
    unfold joySelection at hpost
    rw [SourceSelector.onJoy_source, hpre] at hpost
    split at hpost <;> cases hpost
  | tick permitted t =>
    simp only [step, onTick_frame, SourceSelector.onTick_source, hpre] at hpost
    split at hpost <;> cases hpost
  | lab command permitted t =>
    simp only [step] at hpost ⊢
    cases hbroken : brokenLab command with
    | true =>
      rw [onLab_brokenIdle hbroken hpre] at hpost
      simp [SourceSelector.refuse, hpre] at hpost
    | false =>
      cases hforward : (s.labSelection command permitted t).2.forward with
      | true =>
        obtain ⟨-, o, ho, hsrc, hroller⟩ := onLab_let_through hbroken hforward
        refine ⟨o, by rw [ho]; rfl, hsrc, ?_⟩
        rcases labSelection_held hforward with hlab | ⟨-, hstart⟩
        · rw [hpre] at hlab
          cases hlab
        · rw [hroller, hstart]
          rfl
      | false =>
        -- nothing goes out, and the controller keeps the launcher
        have hstop : (s.labSelection command permitted t).2.stop = false := by
          unfold labSelection
          rw [SourceSelector.onLab_stop, hpre]
          rfl
        rw [onLab_refused hbroken hforward hstop] at hpost
        have hkept := labSelection_source hforward hstop
        simp only [received] at hpost
        rw [hkept, hpre] at hpost
        cases hpost

theorem step_held {o : LauncherOutput} (ho : o ∈ (step s e).2) (hsrc : o.source = .kLab) :
    s.selector.source = .kLab ∨ (step s e).1.selector.source = .kLab := by
  rcases step_lab ho hsrc with ⟨hlab, -⟩ | ⟨command, permitted, t, rfl, hbroken, hforward⟩
  · exact .inl hlab
  · rcases labSelection_held hforward with hlab | ⟨hlab, -⟩
    · exact .inl hlab
    · right
      simp only [step]
      rw [(onLab_let_through hbroken hforward).1]
      exact hlab

theorem step_roller {o : LauncherOutput} (ho : o ∈ (step s e).2) (hsrc : o.source = .kLab) :
    o.command.rollerPower = 0 ∨ s.selector.source = .kLab ∧ ∃ command permitted nowSec,
      e = .lab command permitted nowSec ∧ brokenLab command = false ∧
      o.command.rollerPower = labRoller s.config command := by
  rcases step_lab ho hsrc with ⟨-, hstop⟩ | ⟨command, permitted, t, rfl, hbroken, hforward⟩
  · left
    rw [hstop]
    rfl
  · obtain ⟨-, o', ho', -, hroller⟩ := onLab_let_through hbroken hforward
    obtain rfl : o' = o := by
      have hmem := Option.mem_toList.1 ho
      rw [ho'] at hmem
      exact Option.some.inj hmem
    cases hstart : s.starting command permitted t with
    | true =>
      left
      rw [hroller, hstart]
      rfl
    | false =>
      right
      rcases labSelection_held hforward with hlab | ⟨-, hstarting⟩
      · rw [hstart] at hroller
        exact ⟨hlab, command, permitted, t, rfl, hbroken, hroller⟩
      · rw [hstart] at hstarting
        cases hstarting

theorem accepts_starting {command : LauncherCommand} {permitted : Bool} {nowSec : ℚ}
    (h : s.accepts (.lab command permitted nowSec) = true)
    (hstart : s.starting command permitted nowSec = true) : s.config.minFirePower ≤ 0 := by
  simp only [accepts, shotReady, Bool.and_eq_true] at h
  obtain ⟨-, hclock, -⟩ := spinReady_zero h.2.1
  rw [spunUp, spin_since, hstart, if_pos rfl] at hclock
  by_contra hmin
  exact hclock (if_neg hmin)

theorem step_shot (h : LabRunInv config past s) {o : LauncherOutput} (ho : o ∈ (step s e).2)
    (hsrc : o.source = .kLab) :
    o.command.fireSeq = publishedSeq past ∨
      o.command.fireSeq = publishedSeq past + 1 ∧ RequestsShot past (stepOf step s e) ∧
        (s.selector.source = .kLab ∨ config.minFirePower ≤ 0) := by
  have hcounted := step_counted s e
  rw [(hcounted.published o ho).1, hcounted.fireSeq, h.fireSeq]
  cases haccepts : s.accepts e with
  | false => exact .inl rfl
  | true =>
    right
    rcases step_lab ho hsrc with ⟨hlab, hstop⟩ | ⟨command, permitted, t, rfl, hbroken, hforward⟩
    · -- a stop leaves the counter alone
      have hseq := (hcounted.published o ho).1
      rw [hstop, hcounted.fireSeq, haccepts] at hseq
      exact absurd hseq (by simp [stopCommand])
    · have hfire : (s.labEvents command t).fire = true := by
        simp only [accepts, Bool.and_eq_true] at haccepts
        exact haccepts.1.2
      obtain ⟨hhave, hlt⟩ := InputEvents.onCommand_fire hfire
      obtain ⟨prev, hprev, hseq⟩ := h.read hhave
      refine ⟨rfl, ⟨command, permitted, t, prev, rfl, hprev, by rw [hseq]; exact hlt⟩, ?_⟩
      rcases labSelection_held hforward with hlab | ⟨-, hstart⟩
      · exact .inl hlab
      · right
        rw [← h.configured]
        exact accepts_starting haccepts hstart

theorem step_controller (h : LabRunInv config past s) {o : LauncherOutput}
    (ho : o ∈ (step s e).2) (hsrc : o.source = .kJoy) :
    ∃ command nowSec, e = .joy command nowSec ∧ o.command.rollerPower = joyRoller command ∧
      (o.command.tiltDeg.isfinite = true → o.command.tiltDeg = command.tiltDeg) ∧
      o.command.fireSeq = if (s.joyEvents command nowSec).fire then publishedSeq past + 1
        else publishedSeq past := by
  cases e with
  | joy command t =>
    have hown := onJoy_published (Option.mem_toList.1 ho)
    rw [hown, h.fireSeq]
    refine ⟨command, t, rfl, rfl, ?_, rfl⟩
    intro hfin
    simp only [joyCommand] at hfin ⊢
    split at hfin
    · rename_i htilt
      rw [if_pos htilt]
    · cases hfin
  | lab command permitted t =>
    -- the lab's outputs are under the lab's name
    rcases onLab_published (Option.mem_toList.1 ho) with ⟨-, hstop⟩ | ⟨hbroken, hforward⟩
    · rw [hstop] at hsrc
      cases hsrc
    · obtain ⟨-, o', ho', hlab, -⟩ := onLab_let_through hbroken hforward
      have hmem := Option.mem_toList.1 ho
      rw [ho'] at hmem
      cases hmem
      rw [hlab] at hsrc
      cases hsrc
  | tick permitted t =>
    rw [(onTick_published (Option.mem_toList.1 ho)).2] at hsrc
    cases hsrc

theorem freshStep (h : LabRunInv config past s) (e : FlowEvent) :
    FreshStep config past (stepOf step s e) where
  held := fun _ ho hsrc => step_held ho hsrc
  starts := step_starts
  target := by
    intro o ho hsrc hfin
    rcases (step_target s e).1 o ho hsrc hfin with ⟨target, hnew, htilt⟩ | ⟨hlab, htilt⟩
    · exact .inl ⟨target, hnew, by rw [htilt, h.configured]⟩
    · right
      rw [htilt] at hfin ⊢
      exact ⟨hlab, h.ownTilt hlab hfin⟩
  roller := by
    intro o ho hsrc
    rw [← h.configured]
    exact step_roller ho hsrc
  shot := fun _ ho hsrc => step_shot h ho hsrc
  controller := fun _ ho hsrc => step_controller h ho hsrc

/-! ## The lab's limits -/

theorem create_limits {leaseSec : Dbl}
    (h : (LauncherArbiter.create config leaseSec).isSome = true) :
    ∃ cap lo hi : ℚ, config.labMaxPower = .fin cap ∧ config.labTiltMinDeg = .fin lo ∧
      config.labTiltMaxDeg = .fin hi ∧ 0 ≤ cap ∧ lo ≤ hi := by
  unfold LauncherArbiter.create at h
  simp only at h
  split at h
  · cases h
  · rename_i hfin
    split at h
    · cases h
    · rename_i hrange
      simp only [List.all_cons, Bool.not_eq_true', Bool.not_eq_false, Bool.and_eq_true] at hfin
      simp only [Bool.or_eq_true, decide_eq_true_eq, not_or] at hrange
      obtain ⟨hcap, hlo, hhi, -⟩ := hfin
      obtain ⟨cap, hcap⟩ := Dbl.isfinite_iff.1 hcap
      obtain ⟨lo, hlo⟩ := Dbl.isfinite_iff.1 hlo
      obtain ⟨hi, hhi⟩ := Dbl.isfinite_iff.1 hhi
      refine ⟨cap, lo, hi, hcap, hlo, hhi, ?_, ?_⟩
      · rw [hcap] at hrange
        exact not_lt.1 fun hneg => hrange.1.1 (Dbl.fin_lt_fin.2 hneg)
      · rw [hlo, hhi] at hrange
        exact not_lt.1 fun hempty => hrange.2 (Dbl.fin_lt_fin.2 hempty)

theorem clamp_bounds {v : Dbl} {lo hi : ℚ} (hle : lo ≤ hi)
    (hfin : (v.clamp (.fin lo) (.fin hi)).isfinite = true) :
    .fin lo ≤ v.clamp (.fin lo) (.fin hi) ∧ v.clamp (.fin lo) (.fin hi) ≤ .fin hi := by
  cases v with
  | nan => cases hfin
  | ninf => exact ⟨Dbl.fin_le_fin.2 le_rfl, Dbl.fin_le_fin.2 hle⟩
  | pinf => exact ⟨Dbl.fin_le_fin.2 hle, Dbl.fin_le_fin.2 le_rfl⟩
  | fin q =>
    unfold Dbl.clamp
    split_ifs with hlo hhi
    · exact ⟨Dbl.fin_le_fin.2 le_rfl, Dbl.fin_le_fin.2 hle⟩
    · exact ⟨Dbl.fin_le_fin.2 hle, Dbl.fin_le_fin.2 le_rfl⟩
    · rw [Dbl.fin_lt_fin, not_lt] at hlo hhi
      exact ⟨Dbl.fin_le_fin.2 hlo, Dbl.fin_le_fin.2 hhi⟩

theorem max_fin {p q : ℚ} (h : p ≤ q) : Dbl.max (.fin p) (.fin q) = .fin q := by
  unfold Dbl.max
  split_ifs with hlt
  · rfl
  · rw [Dbl.fin_lt_fin, not_lt] at hlt
    rw [le_antisymm hlt h]

/-- What a fresh step publishes for the lab is within the limits of a node
that was accepted. -/
theorem FreshStep.inLimits {t : FlowStep} {leaseSec : Dbl} (h : FreshStep config past t)
    (hcreate : (LauncherArbiter.create config leaseSec).isSome = true) {o : LauncherOutput}
    (ho : o ∈ t.out) (hsrc : o.source = .kLab) : InLimits config o := by
  obtain ⟨cap, lo, hi, hcap, hlo, hhi, hpos, hle⟩ := create_limits hcreate
  have htilt : ∀ target, labTilt config target = target.clamp (.fin lo) (.fin hi) := by
    intro target
    rw [labTilt, hlo, hhi, max_fin hle]
  have hclamped : ∀ target, o.command.tiltDeg = labTilt config target →
      o.command.tiltDeg.isfinite = true →
      config.labTiltMinDeg ≤ o.command.tiltDeg ∧ o.command.tiltDeg ≤ config.labTiltMaxDeg := by
    intro target heq hfin
    rw [heq, htilt] at hfin ⊢
    rw [hlo, hhi]
    exact clamp_bounds hle hfin
  constructor
  · rw [hcap]
    rcases h.roller o ho hsrc with hzero | ⟨-, command, permitted, nowSec, -, hbroken, hroller⟩
    · rw [hzero]
      exact ⟨Dbl.fin_le_fin.2 le_rfl, Dbl.fin_le_fin.2 hpos⟩
    · have hmax : Dbl.max 0 config.labMaxPower = .fin cap := by
        rw [hcap]
        exact max_fin hpos
      rw [brokenLab, Bool.or_eq_false_iff, Bool.not_eq_false'] at hbroken
      obtain ⟨q, hq⟩ := Dbl.isfinite_iff.1 hbroken.1
      rw [hroller, labRoller, hmax, hq]
      refine clamp_bounds hpos ?_
      unfold Dbl.clamp
      split_ifs <;> rfl
  · intro hfin
    rcases h.target o ho hsrc hfin with ⟨target, -, heq⟩ | ⟨-, -, -, -, target, -, -, -, heq⟩
    · exact hclamped target heq hfin
    · exact hclamped target heq hfin

/-! ## Every run -/

theorem labRunInv_run (config : LauncherConfig) (es : List FlowEvent) :
    LabRunInv config (trace step (configure {} config) es)
      (final step (configure {} config) es) :=
  trace_history (fun _ _ => True) (labRunInv_start config)
    (fun _ _ e h _ => labRunInv_step h e) es (fun _ _ _ _ => trivial)

/-- In every run every step is fresh, and with the settings of a node that was
accepted the lab's outputs are within the lab's limits. -/
theorem lab_runs_fresh (config : LauncherConfig) (leaseSec : Dbl) (es : List FlowEvent) :
    (∀ a t b, trace step (configure {} config) es = a ++ t :: b → FreshStep config a t) ∧
      ((LauncherArbiter.create config leaseSec).isSome = true →
        ∀ t ∈ trace step (configure {} config) es, ∀ o ∈ t.out, o.source = .kLab →
          InLimits config o) := by
  have hfresh : ∀ a t b, trace step (configure {} config) es = a ++ t :: b →
      FreshStep config a t := by
    intro a t b hab
    obtain ⟨es₁, e, es₂, rfl, rfl, rfl, -⟩ := trace_split hab
    exact freshStep (labRunInv_run config es₁) e
  refine ⟨hfresh, ?_⟩
  intro hcreate t ht o ho hsrc
  obtain ⟨a, b, hab⟩ := List.append_of_mem ht
  exact (hfresh a t b hab).inLimits hcreate ho hsrc

/-- Two lab runs with the controller between them: the target and the power of
the first are gone when the second starts. -/
example : (trace step (configure {} {})
      [.lab { rollerPower := .fin (1 / 2), tiltDeg := .fin 30 } true 0,
        .lab { rollerPower := .fin (1 / 2), tiltDeg := .fin 30 } true (1 / 10),
        .joy { rollerPower := .fin (1 / 4) } (1 / 5),
        .lab { tiltDeg := .fin 30 } true (3 / 10),
        .lab { rollerPower := .fin (1 / 2), tiltDeg := .fin 30 } true (13 / 10)]).map
      (fun t => t.out.map fun o => (o.source, o.command.rollerPower, o.command.tiltDeg)) =
    [[(.kLab, 0, .fin 30)], [(.kLab, .fin (1 / 2), .fin 30)], [(.kJoy, .fin (1 / 4), .nan)], [],
      [(.kLab, 0, .nan)]] := by
  decide +kernel

end LauncherFlow

end Questix.CommandArbiter
