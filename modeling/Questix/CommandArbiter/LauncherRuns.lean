/-
Questix.CommandArbiter.LauncherRuns — runs of `LauncherFlow`, and what one
step of a run can do to the output's counters and to the lab's spin-up.

An event of an input is accepted where the source goes on to the output: a
controller event with the command that is forwarded, a lab shot when the
command goes out, the roller has spun up and the interval has passed.
Acceptance is read off the state before the step and the message; that the
counters follow it is proved (`step_counted`).
-/
import Questix.CommandArbiter.HandoverTheorems

namespace Questix.CommandArbiter

open Questix.Lib

namespace InputEvents

variable {s : InputEvents} {tiltDeg : Dbl} {tiltSteps : Int32} {fireSeq : UInt32} {nowSec : ℚ}

/-- Nothing was heard of the stream yet, or for its timeout. -/
def silent (s : InputEvents) (nowSec : ℚ) : Bool :=
  !s.have_ || decide (s.timeoutSec < .fin nowSec - s.atSec)

theorem onCommand_counts (s : InputEvents) (tiltDeg : Dbl) (tiltSteps : Int32)
    (fireSeq : UInt32) (nowSec : ℚ) :
    (s.onCommand tiltDeg tiltSteps fireSeq nowSec).2.fire =
        (s.countEvents (s.silent nowSec) tiltSteps fireSeq).fire ∧
      (s.onCommand tiltDeg tiltSteps fireSeq nowSec).2.tiltSteps =
        (s.countEvents (s.silent nowSec) tiltSteps fireSeq).tiltSteps ∧
      (s.onCommand tiltDeg tiltSteps fireSeq nowSec).2.baseline =
        (s.countEvents (s.silent nowSec) tiltSteps fireSeq).baseline := by
  simp only [onCommand]
  split_ifs <;> exact ⟨rfl, rfl, rfl⟩

theorem onCommand_fire (h : (s.onCommand tiltDeg tiltSteps fireSeq nowSec).2.fire = true) :
    s.have_ = true ∧ s.fireSeq < fireSeq := by
  rw [(onCommand_counts _ _ _ _ _).1, countEvents] at h
  split at h
  · cases h
  · rename_i hbase
    simp only [silent, Bool.or_eq_true, Bool.not_eq_true', not_or, Bool.not_eq_false] at hbase
    exact ⟨hbase.1.1.1.1, of_decide_eq_true h⟩

end InputEvents

/-- What a flow is given, with the time it is given at. -/
inductive FlowEvent where
  | joy (command : LauncherCommand) (nowSec : ℚ)
  | lab (command : LauncherCommand) (permitted : Bool) (nowSec : ℚ)
  | tick (permitted : Bool) (nowSec : ℚ)
  deriving DecidableEq

def FlowEvent.time : FlowEvent → ℚ
  | .joy _ t => t
  | .lab _ _ t => t
  | .tick _ t => t

namespace LauncherFlow

/-- One call of the flow; the output is the list of the published commands. -/
def step (s : LauncherFlow) : FlowEvent → LauncherFlow × List LauncherOutput
  | .joy command t => ((s.onJoy command t).1, (s.onJoy command t).2.toList)
  | .lab command permitted t =>
      ((s.onLab command permitted t).1, (s.onLab command permitted t).2.toList)
  | .tick permitted t => ((s.onTick permitted t).1, (s.onTick permitted t).2.toList)

/-! ## What is accepted -/

/-- A lab command that is never forwarded, whatever the state. -/
def brokenLab (command : LauncherCommand) : Bool :=
  !command.rollerPower.isfinite || command.tiltDeg.isinf

/-- The selector's answer to a controller command. -/
def joySelection (s : LauncherFlow) (command : LauncherCommand) (nowSec : ℚ) :
    SourceSelector × Bool :=
  s.selector.onJoy (joyActive command (s.joyEvents command nowSec)) nowSec

/-- The selector's answer to a lab command that is not broken. -/
def labSelection (s : LauncherFlow) (command : LauncherCommand) (permitted : Bool) (nowSec : ℚ) :
    SourceSelector × LabDecision :=
  s.selector.onLab (labNeutral s.config command (s.labEvents command nowSec)) permitted nowSec

/-- The flow with a lab command read and put to the selector. -/
def received (s : LauncherFlow) (command : LauncherCommand) (permitted : Bool) (nowSec : ℚ) :
    LauncherFlow :=
  { s with
    lab := (s.lab.onCommand command.tiltDeg command.tiltSteps command.fireSeq nowSec).1
    selector := (s.labSelection command permitted nowSec).1 }

/-- The lab takes the launcher with this command. -/
def starting (s : LauncherFlow) (command : LauncherCommand) (permitted : Bool) (nowSec : ℚ) :
    Bool :=
  !decide (s.selector.source = .kLab) &&
    decide ((s.labSelection command permitted nowSec).1.source = .kLab)

/-- The flow a forwarded lab command's shot is judged in: its roller counted. -/
def spunUp (s : LauncherFlow) (command : LauncherCommand) (permitted : Bool) (nowSec : ℚ) :
    LauncherFlow :=
  (s.received command permitted nowSec).spin (s.starting command permitted nowSec)
    (labRoller s.config command) nowSec

/-- A lab shot may go out now: spun up, and the interval has passed. -/
def shotReady (s : LauncherFlow) (nowSec : ℚ) : Bool :=
  Dbl.eq (s.spinReadyInSec nowSec) 0 && !decide (0 < s.nextFireInSec nowSec)

/-- The step accepts a shot of its message. -/
def accepts (s : LauncherFlow) : FlowEvent → Bool
  | .joy command t => (s.joySelection command t).2 && (s.joyEvents command t).fire
  | .lab command permitted t =>
      !brokenLab command && (s.labSelection command permitted t).2.forward &&
        (s.labEvents command t).fire && (s.spunUp command permitted t).shotReady t
  | .tick _ _ => false

/-- The tilt steps of its message the step accepts: the lab has none. -/
def acceptedSteps (s : LauncherFlow) : FlowEvent → Int32
  | .joy command t =>
      if (s.joySelection command t).2 then (s.joyEvents command t).tiltSteps else 0
  | _ => 0

/-! ## The parts of a step -/

variable {s : LauncherFlow} {command : LauncherCommand} {permitted : Bool} {nowSec : ℚ}

@[simp] theorem setPrecondition_shots (p : Precondition) :
    (s.setPrecondition p).config = s.config ∧ (s.setPrecondition p).joy = s.joy ∧
    (s.setPrecondition p).lab = s.lab ∧
    (s.setPrecondition p).lastFireSec = s.lastFireSec ∧
    (s.setPrecondition p).spinSinceSec = s.spinSinceSec := by
  unfold setPrecondition
  split_ifs <;> simp

@[simp] theorem fire_frame :
    (s.fire nowSec).config = s.config ∧ (s.fire nowSec).selector = s.selector ∧
    (s.fire nowSec).joy = s.joy ∧ (s.fire nowSec).lab = s.lab ∧
    (s.fire nowSec).out = { s.out with fireSeq := s.out.fireSeq + 1 } ∧
    (s.fire nowSec).lastFireSec = .fin nowSec ∧
    (s.fire nowSec).spinSinceSec = s.spinSinceSec := by
  simp [fire]

theorem onJoy_idle (h : (s.joySelection command nowSec).2 = false) :
    s.onJoy command nowSec =
      ({ s with
          joy := (s.joy.onCommand command.tiltDeg command.tiltSteps command.fireSeq nowSec).1
          selector := (s.joySelection command nowSec).1 }, none) := by
  unfold joySelection joyEvents at h
  unfold onJoy joySelection joyEvents
  simp [h]

theorem onJoy_forward (h : (s.joySelection command nowSec).2 = true) :
    (s.onJoy command nowSec).2 =
        some { command := s.joyCommand command nowSec, source := .kJoy } ∧
      (s.onJoy command nowSec).1.out = s.joyCommand command nowSec ∧
      (s.onJoy command nowSec).1.spinSinceSec = .nan ∧
      (s.onJoy command nowSec).1.lastFireSec =
        if (s.joyEvents command nowSec).fire then .fin nowSec else s.lastFireSec := by
  unfold joySelection joyEvents at h
  unfold onJoy joyCommand joyEvents
  simp only [h, Bool.not_true, Bool.false_eq_true, if_false]
  split_ifs <;> simp [emit]

theorem onJoy_frame :
    (s.onJoy command nowSec).1.config = s.config ∧
      (s.onJoy command nowSec).1.joy =
        (s.joy.onCommand command.tiltDeg command.tiltSteps command.fireSeq nowSec).1 ∧
      (s.onJoy command nowSec).1.lab = s.lab ∧
      (s.onJoy command nowSec).1.selector = (s.joySelection command nowSec).1 := by
  unfold onJoy joySelection joyEvents
  simp only
  split_ifs <;> simp

@[simp] theorem spin_frame (starting : Bool) (roller : Dbl) :
    (s.spin starting roller nowSec).config = s.config ∧
    (s.spin starting roller nowSec).joy = s.joy ∧ (s.spin starting roller nowSec).lab = s.lab ∧
    (s.spin starting roller nowSec).selector = s.selector ∧
    (s.spin starting roller nowSec).lastFireSec = s.lastFireSec ∧
    (s.spin starting roller nowSec).out.fireSeq = s.out.fireSeq ∧
    (s.spin starting roller nowSec).out.tiltSteps = s.out.tiltSteps ∧
    (s.spin starting roller nowSec).out.rollerPower = if starting then 0 else roller := by
  simp only [spin]
  split_ifs <;> simp

theorem labFire_frame :
    (s.labFire nowSec).config = s.config ∧ (s.labFire nowSec).selector = s.selector ∧
    (s.labFire nowSec).joy = s.joy ∧ (s.labFire nowSec).lab = s.lab ∧
    (s.labFire nowSec).spinSinceSec = s.spinSinceSec ∧
    (s.labFire nowSec).out = { s.out with
      fireSeq := if s.shotReady nowSec then s.out.fireSeq + 1 else s.out.fireSeq } ∧
    (s.labFire nowSec).lastFireSec =
      if s.shotReady nowSec then .fin nowSec else s.lastFireSec := by
  unfold labFire shotReady
  split_ifs <;> simp_all

/-- A forwarded lab command: the shot it may fire, the roller it publishes and
the spin-up it leaves, which its own run's end clears. -/
structure Forwarded (s spun : LauncherFlow) (fires : Bool) (nowSec : ℚ)
    (r : LauncherFlow × Option LauncherOutput) : Prop where
  config : r.1.config = s.config
  joy : r.1.joy = s.joy
  lab : r.1.lab = s.lab
  fireSeq : r.1.out.fireSeq = if fires then s.out.fireSeq + 1 else s.out.fireSeq
  tiltSteps : r.1.out.tiltSteps = s.out.tiltSteps
  lastFire : r.1.lastFireSec = if fires then .fin nowSec else s.lastFireSec
  spinSince : r.1.spinSinceSec =
    if s.selector.source = .kLab then spun.spinSinceSec else .nan
  output : ∃ o, r.2 = some o ∧ o.source = .kLab ∧ o.command.fireSeq = r.1.out.fireSeq ∧
    o.command.tiltSteps = r.1.out.tiltSteps ∧ o.command.rollerPower = spun.out.rollerPower

theorem forwardLab_forwarded (starting : Bool) (roller : Dbl) (events : InputEvents.Events) :
    Forwarded s (s.spin starting roller nowSec)
      (events.fire && (s.spin starting roller nowSec).shotReady nowSec) nowSec
      (s.forwardLab starting roller events nowSec) := by
  have hspun := @spin_frame s nowSec starting roller
  unfold forwardLab
  generalize s.spin starting roller nowSec = spun at hspun ⊢
  obtain ⟨hconfig, hjoy, hlab, hselector, hlast, hseq, hsteps, -⟩ := hspun
  -- the target moves nothing the shot depends on
  have htilt : ∀ out : LauncherCommand,
      ({ spun with out := out } : LauncherFlow).shotReady nowSec = spun.shotReady nowSec :=
    fun _ => rfl
  constructor <;> cases hfire : events.fire <;> cases htarget : events.tiltTarget <;>
    by_cases hsrc : spun.selector.source = .kLab <;>
    simp [labFire_frame, htilt, emit, hsrc, ← hconfig, ← hjoy, ← hlab, ← hselector, ← hlast,
      ← hseq, ← hsteps]

theorem onLab_brokenRun (hbroken : brokenLab command = true) (hsrc : s.selector.source = .kLab) :
    s.onLab command permitted nowSec =
      ({ ({ s with selector := (s.selector.onLab true permitted nowSec).1 }.stop).1 with
        selector := (s.selector.onLab true permitted nowSec).1.refuse .kInvalid },
        some { command := s.stopCommand, source := .kLab }) := by
  unfold brokenLab at hbroken
  unfold onLab
  simp only [hbroken, hsrc, if_true]
  rfl

theorem onLab_brokenIdle (hbroken : brokenLab command = true) (hsrc : s.selector.source = .kJoy) :
    s.onLab command permitted nowSec =
      ({ s with selector := s.selector.refuse .kInvalid }, none) := by
  unfold brokenLab at hbroken
  unfold onLab
  simp [hbroken, hsrc]

theorem onLab_forward (hbroken : brokenLab command = false)
    (hforward : (s.labSelection command permitted nowSec).2.forward = true) :
    s.onLab command permitted nowSec =
      (s.received command permitted nowSec).forwardLab (s.starting command permitted nowSec)
        (labRoller s.config command) (s.labEvents command nowSec) nowSec := by
  have hstop : (s.labSelection command permitted nowSec).2.stop = false :=
    SourceSelector.onLab_stop_of_forward hforward
  unfold brokenLab at hbroken
  unfold labSelection labEvents at hforward hstop
  unfold onLab
  simp only [hbroken, hforward, hstop, Bool.false_eq_true, if_false, Bool.not_true]
  rfl

theorem onLab_stopped (hbroken : brokenLab command = false)
    (hstop : (s.labSelection command permitted nowSec).2.stop = true) :
    s.onLab command permitted nowSec =
      ((s.received command permitted nowSec).stop.1,
        some { command := s.stopCommand, source := .kLab }) := by
  unfold brokenLab at hbroken
  unfold labSelection labEvents at hstop
  unfold onLab
  simp only [hbroken, hstop, Bool.false_eq_true, if_false, if_true]
  rfl

theorem onLab_refused (hbroken : brokenLab command = false)
    (hforward : (s.labSelection command permitted nowSec).2.forward = false)
    (hstop : (s.labSelection command permitted nowSec).2.stop = false) :
    s.onLab command permitted nowSec = (s.received command permitted nowSec, none) := by
  unfold brokenLab at hbroken
  unfold labSelection labEvents at hforward hstop
  unfold onLab
  simp only [hbroken, hforward, hstop, Bool.false_eq_true, if_false, Bool.not_false, if_true]
  rfl

theorem labSelection_source (hforward : (s.labSelection command permitted nowSec).2.forward = false)
    (hstop : (s.labSelection command permitted nowSec).2.stop = false) :
    (s.labSelection command permitted nowSec).1.source = s.selector.source := by
  unfold labSelection at hforward hstop ⊢
  rw [SourceSelector.onLab_source, hforward]
  cases hsrc : s.selector.source with
  | kJoy => rfl
  | kLab =>
    -- with the lab in command, only the missing permission keeps it back, and that stops it
    rw [← Bool.not_eq_true, SourceSelector.onLab_forward, hsrc] at hforward
    rw [SourceSelector.onLab_stop, hsrc] at hstop
    simp_all

theorem onLab_kept (h : (s.onLab command permitted nowSec).1.selector.source = .kLab) :
    (s.onLab command permitted nowSec).1.lab =
      (s.lab.onCommand command.tiltDeg command.tiltSteps command.fireSeq nowSec).1 := by
  cases hbroken : brokenLab command with
  | true =>
    cases hsrc : s.selector.source with
    | kLab =>
      rw [onLab_brokenRun hbroken hsrc] at h
      simp [SourceSelector.refuse, SourceSelector.onLab_source] at h
    | kJoy =>
      rw [onLab_brokenIdle hbroken hsrc] at h
      simp [SourceSelector.refuse, hsrc] at h
  | false =>
    cases hforward : (s.labSelection command permitted nowSec).2.forward with
    | true =>
      rw [onLab_forward hbroken hforward, (forwardLab_forwarded _ _ _).lab]
      rfl
    | false =>
      cases hstop : (s.labSelection command permitted nowSec).2.stop with
      | true =>
        rw [onLab_stopped hbroken hstop]
        rfl
      | false =>
        rw [onLab_refused hbroken hforward hstop]
        rfl

theorem onTick_stopped (h : (s.selector.onTick permitted nowSec).2 = true) :
    s.onTick permitted nowSec =
      ({ s with selector := (s.selector.onTick permitted nowSec).1 }.stop.1,
        some { command := s.stopCommand, source := .kLab }) := by
  unfold onTick
  simp only [h, if_true]
  rfl

theorem onTick_idle (h : (s.selector.onTick permitted nowSec).2 = false) :
    s.onTick permitted nowSec =
      ({ s with selector := (s.selector.onTick permitted nowSec).1 }, none) := by
  unfold onTick
  simp only [h, Bool.false_eq_true, if_false]

/-! ## What a step can do -/

/-- What one call of the flow can do: leave the output alone, stop the lab's
run, forward the controller's command or forward the lab's. -/
inductive Effect (s : LauncherFlow) (e : FlowEvent) (s' : LauncherFlow) :
    List LauncherOutput → Prop where
  | idle (out : s'.out = s.out) (lastFire : s'.lastFireSec = s.lastFireSec)
      (spinSince : s'.spinSinceSec = s.spinSinceSec)
      (source : s'.selector.source = s.selector.source)
      (noShot : s.accepts e = false) (noSteps : s.acceptedSteps e = 0) : Effect s e s' []
  | stop (out : s'.out = s.stopCommand) (lastFire : s'.lastFireSec = s.lastFireSec)
      (spinSince : s'.spinSinceSec = .nan)
      (noShot : s.accepts e = false) (noSteps : s.acceptedSteps e = 0) :
      Effect s e s' [{ command := s.stopCommand, source := .kLab }]
  | joy (command : LauncherCommand) (nowSec : ℚ) (event : e = .joy command nowSec)
      (forward : (s.joySelection command nowSec).2 = true)
      (out : s'.out = s.joyCommand command nowSec) (spinSince : s'.spinSinceSec = .nan)
      (lastFire : s'.lastFireSec =
        if (s.joyEvents command nowSec).fire then .fin nowSec else s.lastFireSec) :
      Effect s e s' [{ command := s.joyCommand command nowSec, source := .kJoy }]
  | lab (command : LauncherCommand) (permitted : Bool) (nowSec : ℚ)
      (event : e = .lab command permitted nowSec) (o : LauncherOutput)
      (selector : s'.selector = (s.labSelection command permitted nowSec).1)
      (forwarded : Forwarded (s.received command permitted nowSec)
        (s.spunUp command permitted nowSec) (s.accepts e) nowSec (s', some o)) :
      Effect s e s' [o]

theorem onLab_effect (s : LauncherFlow) (command : LauncherCommand) (permitted : Bool)
    (nowSec : ℚ) :
    Effect s (.lab command permitted nowSec) (s.onLab command permitted nowSec).1
      (s.onLab command permitted nowSec).2.toList := by
  cases hbroken : brokenLab command with
  | true =>
    have hno : s.accepts (.lab command permitted nowSec) = false := by simp [accepts, hbroken]
    cases hsrc : s.selector.source with
    | kLab =>
      rw [onLab_brokenRun hbroken hsrc]
      exact .stop rfl rfl rfl hno rfl
    | kJoy =>
      rw [onLab_brokenIdle hbroken hsrc]
      exact .idle rfl rfl rfl (by simp [SourceSelector.refuse]) hno rfl
  | false =>
    cases hforward : (s.labSelection command permitted nowSec).2.forward with
    | true =>
      have heq := onLab_forward hbroken hforward
      have hshot : s.accepts (.lab command permitted nowSec) =
          ((s.labEvents command nowSec).fire &&
            (s.spunUp command permitted nowSec).shotReady nowSec) := by
        simp [accepts, hbroken, hforward]
      have hout := @forwardLab_forwarded (s.received command permitted nowSec) nowSec
        (s.starting command permitted nowSec) (labRoller s.config command)
        (s.labEvents command nowSec)
      obtain ⟨o, ho, -⟩ := hout.output
      rw [heq, ho]
      refine .lab command permitted nowSec rfl o (by simp [received]) ?_
      rw [hshot, ← ho]
      exact hout
    | false =>
      have hno : s.accepts (.lab command permitted nowSec) = false := by
        simp [accepts, hforward]
      cases hstop : (s.labSelection command permitted nowSec).2.stop with
      | true =>
        rw [onLab_stopped hbroken hstop]
        exact .stop rfl rfl rfl hno rfl
      | false =>
        rw [onLab_refused hbroken hforward hstop]
        exact .idle rfl rfl rfl (labSelection_source hforward hstop) hno rfl

theorem onJoy_effect (s : LauncherFlow) (command : LauncherCommand) (nowSec : ℚ) :
    Effect s (.joy command nowSec) (s.onJoy command nowSec).1
      (s.onJoy command nowSec).2.toList := by
  cases hforward : (s.joySelection command nowSec).2 with
  | true =>
    obtain ⟨hpub, hout, hspin, hlast⟩ := onJoy_forward hforward
    rw [hpub]
    exact .joy command nowSec rfl hforward hout hspin hlast
  | false =>
    have hkept : (s.joySelection command nowSec).1.source = s.selector.source := by
      unfold joySelection at hforward ⊢
      rw [SourceSelector.onJoy_publish] at hforward
      rw [SourceSelector.onJoy_source]
      simp_all
    rw [onJoy_idle hforward]
    exact .idle rfl rfl rfl hkept (by simp [accepts, hforward]) (by simp [acceptedSteps, hforward])

theorem onTick_effect (s : LauncherFlow) (permitted : Bool) (nowSec : ℚ) :
    Effect s (.tick permitted nowSec) (s.onTick permitted nowSec).1
      (s.onTick permitted nowSec).2.toList := by
  cases hstop : (s.selector.onTick permitted nowSec).2 with
  | true =>
    rw [onTick_stopped hstop]
    exact .stop rfl rfl rfl rfl rfl
  | false =>
    have hkept : (s.selector.onTick permitted nowSec).1.source = s.selector.source := by
      rw [SourceSelector.onTick_stop] at hstop
      rw [SourceSelector.onTick_source]
      cases hsrc : s.selector.source <;> simp_all
    rw [onTick_idle hstop]
    exact .idle rfl rfl rfl hkept rfl rfl

theorem step_effect (s : LauncherFlow) (e : FlowEvent) :
    Effect s e (step s e).1 (step s e).2 := by
  cases e with
  | joy command t => exact onJoy_effect s command t
  | lab command permitted t => exact onLab_effect s command permitted t
  | tick permitted t => exact onTick_effect s permitted t

/-! ## The output's counters -/

/-- The counters move by what is accepted, and only on a published output. -/
structure Counted (s : LauncherFlow) (e : FlowEvent) (s' : LauncherFlow)
    (out : List LauncherOutput) : Prop where
  fireSeq : s'.out.fireSeq = if s.accepts e then s.out.fireSeq + 1 else s.out.fireSeq
  tiltSteps : s'.out.tiltSteps = s.out.tiltSteps + s.acceptedSteps e
  lastFire : s'.lastFireSec = if s.accepts e then .fin e.time else s.lastFireSec
  published : ∀ o ∈ out, o.command.fireSeq = s'.out.fireSeq ∧
    o.command.tiltSteps = s'.out.tiltSteps
  silent : out = [] → s.accepts e = false ∧ s.acceptedSteps e = 0
  atMostOne : out.length ≤ 1

theorem step_counted (s : LauncherFlow) (e : FlowEvent) :
    Counted s e (step s e).1 (step s e).2 := by
  have h := step_effect s e
  generalize (step s e).1 = s' at h ⊢
  generalize (step s e).2 = out at h ⊢
  cases h with
  | idle hout hlast hspin hsource hno hnosteps =>
    exact ⟨by simp [hno, hout], by simp [hnosteps, hout], by simp [hno, hlast], by simp,
      fun _ => ⟨hno, hnosteps⟩, by simp⟩
  | stop hout hlast hspin hno hnosteps =>
    exact ⟨by simp [hno, hout, stopCommand], by simp [hnosteps, hout, stopCommand],
      by simp [hno, hlast], by simp [hout, stopCommand], nofun, by simp⟩
  | joy command t he hforward hout hspin hlast =>
    subst he
    have hshot : s.accepts (.joy command t) = (s.joyEvents command t).fire := by
      simp [accepts, hforward]
    have hsteps : s.acceptedSteps (.joy command t) = (s.joyEvents command t).tiltSteps := by
      simp [acceptedSteps, hforward]
    exact ⟨by rw [hout, hshot]; rfl, by rw [hout, hsteps]; rfl, by rw [hlast, hshot]; rfl,
      by simp [hout], nofun, by simp⟩
  | lab command permitted t he o hsel hforwarded =>
    subst he
    obtain ⟨o', ho, -, hseq, htilt, -⟩ := hforwarded.output
    obtain rfl : o = o' := Option.some.inj ho
    refine ⟨hforwarded.fireSeq, ?_, hforwarded.lastFire, ?_, nofun, by simp⟩
    · rw [hforwarded.tiltSteps]
      simp [acceptedSteps, received]
    · intro o' ho'
      obtain rfl := List.mem_singleton.1 ho'
      exact ⟨hseq, htilt⟩

theorem step_published (s : LauncherFlow) (e : FlowEvent) :
    ((step s e).2 = [] ∧ s.accepts e = false ∧ s.acceptedSteps e = 0) ∨
      ∃ o, (step s e).2 = [o] ∧ o.command.fireSeq = (step s e).1.out.fireSeq ∧
        o.command.tiltSteps = (step s e).1.out.tiltSteps := by
  have hc := step_counted s e
  rcases hout : (step s e).2 with _ | ⟨o, rest⟩
  · exact .inl ⟨rfl, hc.silent hout⟩
  · obtain rfl : rest = [] := by
      have hlen := hc.atMostOne
      simpa [hout] using hlen
    exact .inr ⟨o, rfl, hc.published o (by simp [hout])⟩

end LauncherFlow

end Questix.CommandArbiter
