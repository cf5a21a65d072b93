/-
Questix.MotorControl.LauncherEventTheorems — the events of a launcher stream
that loses and repeats messages.

A reader that has heard a message has that message's counters (`Heard`), so
what it reads out of the next one is the difference of the two
(`onCommand_near`). Over a run of messages that follow each other closely the
differences add up to the counters' own change; a message after silence starts
again from its own counters.
-/
import Questix.CommandArbiter.LauncherPipelineTheorems

namespace Questix.MotorControl

open Questix.Lib
open Questix.CommandArbiter (InputEvents)

namespace LauncherEvents

/-- A command that reached the reader, and when. -/
structure Delivery where
  command : Command
  nowSec : ℚ

def step (s : LauncherEvents) (d : Delivery) : LauncherEvents × InputEvents.Events :=
  s.onCommand d.command d.nowSec

abbrev ReadStep := Step LauncherEvents Delivery InputEvents.Events

/-- Two messages in turn: within the timeout, at most four tilt steps apart,
the fire counter not decreasing. -/
structure Near (timeoutSec : Dbl) (p d : Delivery) : Prop where
  inTime : ¬ timeoutSec < .fin d.nowSec - .fin p.nowSec
  steps : |d.command.tiltSteps.toInt - p.command.tiltSteps.toInt| ≤ 4
  fires : p.command.fireSeq ≤ d.command.fireSeq

/-- The message comes after silence, or is the first one. -/
def AfterGap (timeoutSec : Dbl) (before : List ReadStep) (d : Delivery) : Prop :=
  ∀ p ∈ before.getLast?, timeoutSec < .fin d.nowSec - .fin p.event.nowSec

/-- The tilt steps that are read out of the messages. -/
def totalSteps (steps : List ReadStep) : ℤ := (steps.map fun t => t.out.tiltSteps.toInt).sum

def totalShots (steps : List ReadStep) : ℕ := steps.countP fun t => t.out.fire

/-- The reader has heard the message last. -/
structure Heard (timeoutSec : Dbl) (s : LauncherEvents) (p : Delivery) : Prop where
  timeout : s.timeoutSec = timeoutSec
  heard : s.have_ = true
  at_ : s.atSec = .fin p.nowSec
  fireSeq : s.fireSeq = p.command.fireSeq
  tiltSteps : s.tiltSteps = p.command.tiltSteps
  tiltDeg : s.lastTiltDeg = p.command.tiltDeg

variable {timeoutSec : Dbl} {s : LauncherEvents} {p d : Delivery}

theorem heard_step (h : s.timeoutSec = timeoutSec) (d : Delivery) :
    Heard timeoutSec (step s d).1 d :=
  ⟨h, rfl, rfl, rfl, rfl, rfl⟩

theorem silent_near (h : Heard timeoutSec s p) (hnear : Near timeoutSec p d) :
    InputEvents.silent s d.nowSec = false := by
  simp only [InputEvents.silent, h.heard, h.timeout, h.at_, Bool.not_true, Bool.false_or,
    decide_eq_false_iff_not]
  exact hnear.inTime

theorem countEvents_near (h : Heard timeoutSec s p) (hnear : Near timeoutSec p d) :
    InputEvents.countEvents s (InputEvents.silent s d.nowSec) d.command.tiltSteps
      d.command.fireSeq =
        { fire := decide (p.command.fireSeq < d.command.fireSeq)
          tiltSteps := Int32.ofInt (d.command.tiltSteps.toInt - p.command.tiltSteps.toInt) } := by
  have hsteps := abs_le.1 hnear.steps
  have hback : ¬ d.command.fireSeq < p.command.fireSeq := by
    have hfires := hnear.fires
    rw [UInt32.le_iff_toNat_le] at hfires
    rw [UInt32.lt_iff_toNat_lt]
    omega
  simp only [InputEvents.countEvents, silent_near h hnear, h.fireSeq, h.tiltSteps, hback,
    InputEvents.kMaxStepsPerMessage]
  rw [if_neg]
  simp
  omega

theorem step_near (h : Heard timeoutSec s p) (hnear : Near timeoutSec p d) :
    (step s d).2.baseline = false ∧
      (step s d).2.fire = decide (p.command.fireSeq < d.command.fireSeq) ∧
      (step s d).2.tiltSteps.toInt = d.command.tiltSteps.toInt - p.command.tiltSteps.toInt := by
  obtain ⟨hfire, htilt, hbase⟩ := InputEvents.onCommand_counts s d.command.tiltDeg
    d.command.tiltSteps d.command.fireSeq d.nowSec
  rw [countEvents_near h hnear] at hfire htilt hbase
  refine ⟨hbase, hfire, ?_⟩
  exact (congrArg Int32.toInt htilt).trans (InputEvents.toInt_ofInt_small hnear.steps)

theorem step_again (h : Heard timeoutSec s p) (hnear : Near timeoutSec p d)
    (hsame : d.command = p.command) : (step s d).2 = {} := by
  have hcount := countEvents_near h hnear
  have hsilent := silent_near h hnear
  -- no new target either
  have htarget : ¬ (d.command.tiltDeg.isfinite && (!s.lastTiltDeg.isfinite ||
      !Dbl.eq d.command.tiltDeg s.lastTiltDeg)) = true := by
    rw [h.tiltDeg, hsame]
    cases p.command.tiltDeg <;> simp [Dbl.isfinite, Dbl.eq]
  have hevents : (step s d).2 = InputEvents.countEvents s (InputEvents.silent s d.nowSec)
      d.command.tiltSteps d.command.fireSeq := by
    have hkept : (if InputEvents.silent s d.nowSec then Dbl.nan else s.lastTiltDeg) =
        s.lastTiltDeg := by
      rw [hsilent]
      rfl
    simp only [step, onCommand, InputEvents.onCommand]
    rw [show (!s.have_ || decide (s.timeoutSec < Dbl.fin d.nowSec - s.atSec)) =
      InputEvents.silent s d.nowSec from rfl, hkept, if_neg htarget]
  rw [hevents, hcount, hsame, sub_self]
  simp [UInt32.lt_irrefl]

theorem step_silent (h : InputEvents.silent s d.nowSec = true) :
    (step s d).2.baseline = true ∧ (step s d).2.fire = false ∧ (step s d).2.tiltSteps = 0 := by
  obtain ⟨hfire, htilt, hbase⟩ := InputEvents.onCommand_counts s d.command.tiltDeg
    d.command.tiltSteps d.command.fireSeq d.nowSec
  have hcount : InputEvents.countEvents s (InputEvents.silent s d.nowSec) d.command.tiltSteps
      d.command.fireSeq = { baseline := true } := by
    rw [InputEvents.countEvents, h]
    rfl
  rw [hcount] at hfire htilt hbase
  exact ⟨hbase, hfire, htilt⟩

theorem step_baseline (h : (step s d).2.baseline = true) :
    (step s d).2.fire = false ∧ (step s d).2.tiltSteps = 0 := by
  obtain ⟨hfire, htilt, hbase⟩ := InputEvents.onCommand_counts s d.command.tiltDeg
    d.command.tiltSteps d.command.fireSeq d.nowSec
  rcases InputEvents.countEvents_cases s (InputEvents.silent s d.nowSec) d.command.tiltSteps
    d.command.fireSeq with hcount | ⟨-, -, -, hcount⟩
  · rw [hcount] at hfire htilt
    exact ⟨hfire, htilt⟩
  · rw [hcount] at hbase
    cases hbase.symm.trans h

/-! ## Runs -/

/-- Over messages that follow each other closely, the steps add up to the
change of the counter, and the shots do not exceed that of theirs. -/
theorem totals_near : ∀ (ds : List Delivery) (s : LauncherEvents) (p : Delivery),
    Heard timeoutSec s p → (p :: ds).IsChain (Near timeoutSec) →
      totalSteps (trace step s ds) = (ds.getLastD p).command.tiltSteps.toInt -
          p.command.tiltSteps.toInt ∧
        totalShots (trace step s ds) + p.command.fireSeq.toNat ≤
          (ds.getLastD p).command.fireSeq.toNat := by
  intro ds
  induction ds with
  | nil =>
    intro s p _ _
    simp [totalSteps, totalShots]
  | cons d ds ih =>
    intro s p h hchain
    obtain ⟨hnear, hrest⟩ := List.isChain_cons_cons.1 hchain
    obtain ⟨-, hfire, hsteps⟩ := step_near h hnear
    obtain ⟨hsum, hshots⟩ := ih (step s d).1 d (heard_step h.timeout d) hrest
    have hfires := hnear.fires
    rw [UInt32.le_iff_toNat_le] at hfires
    rw [List.getLastD_cons]
    refine ⟨?_, ?_⟩
    · rw [totalSteps] at hsum ⊢
      rw [trace_cons, List.map_cons, List.sum_cons, hsum]
      show (step s d).2.tiltSteps.toInt + _ = _
      omega
    · rw [totalShots] at hshots ⊢
      rw [trace_cons, List.countP_cons]
      have hone : (stepOf step s d).out.fire = true →
          p.command.fireSeq.toNat < d.command.fireSeq.toNat := by
        intro hout
        have hout : (step s d).2.fire = true := hout
        rw [hfire, decide_eq_true_eq, UInt32.lt_iff_toNat_lt] at hout
        exact hout
      split
      · rename_i hout
        have hlt := hone hout
        show (trace step (step s d).1 ds).countP _ + 1 + _ ≤ _
        omega
      · show (trace step (step s d).1 ds).countP _ + 0 + _ ≤ _
        omega

/-- What a reader with the timeout has heard last. -/
def HeardLast (timeoutSec : Dbl) (past : List ReadStep) (s : LauncherEvents) : Prop :=
  s.timeoutSec = timeoutSec ∧
    match past.getLast? with
    | none => s.have_ = false
    | some t => Heard timeoutSec s t.event

theorem heardLast_run (s : LauncherEvents) (hs : s.have_ = false) (ds : List Delivery) :
    HeardLast s.timeoutSec (trace step s ds) (final step s ds) := by
  refine trace_history (I := HeardLast s.timeoutSec) (fun _ _ => True) ⟨rfl, hs⟩ ?_ ds
    fun _ _ _ _ => trivial
  rintro past s' d ⟨htimeout, -⟩ -
  refine ⟨htimeout, ?_⟩
  rw [List.getLast?_append]
  exact heard_step htimeout d

/-- Over every stream of messages: nothing is executed of the first message and
of one after silence; of a message that follows the one before closely, the
advance of the counters, and of a repeated one nothing; and from a baseline on
the steps add up to the last counter less the baseline's. -/
theorem lossy_events (timeoutSec : Dbl) (ds : List Delivery) :
    let start : LauncherEvents := InputEvents.configure {} timeoutSec
    (∀ a t b, trace step start ds = a ++ t :: b → AfterGap start.timeoutSec a t.event →
      t.out.baseline = true ∧ t.out.fire = false ∧ t.out.tiltSteps = 0) ∧
      (∀ a p t b, trace step start ds = a ++ p :: t :: b →
        Near start.timeoutSec p.event t.event →
          t.out.fire = decide (p.event.command.fireSeq < t.event.command.fireSeq) ∧
            t.out.tiltSteps.toInt =
              t.event.command.tiltSteps.toInt - p.event.command.tiltSteps.toInt ∧
            (t.event.command = p.event.command → t.out = ({} : InputEvents.Events))) ∧
      ∀ a t y z, trace step start ds = a ++ t :: (y ++ z) → t.out.baseline = true →
        ((t :: y).map Step.event).IsChain (Near start.timeoutSec) →
          totalSteps (t :: y) = ((y.map Step.event).getLastD t.event).command.tiltSteps.toInt -
              t.event.command.tiltSteps.toInt ∧
            totalShots (t :: y) + t.event.command.fireSeq.toNat ≤
              ((y.map Step.event).getLastD t.event).command.fireSeq.toNat := by
  intro start
  have hheard : ∀ ds, HeardLast start.timeoutSec (trace step start ds) (final step start ds) :=
    fun ds => heardLast_run start rfl ds
  refine ⟨?_, ?_, ?_⟩
  · intro a t b hsplit hgap
    obtain ⟨es₁, e, es₂, -, rfl, rfl, -⟩ := trace_split hsplit
    refine step_silent ?_
    obtain ⟨htimeout, hlast⟩ := hheard es₁
    unfold AfterGap at hgap
    revert hlast hgap
    cases (trace step start es₁).getLast? with
    | none =>
      intro hgap hlast
      have hlast : (final step start es₁).have_ = false := hlast
      simp [InputEvents.silent, hlast]
    | some p =>
      intro hgap hlast
      have hlast : Heard start.timeoutSec (final step start es₁) p.event := hlast
      have hsilent : start.timeoutSec < .fin e.nowSec - .fin p.event.nowSec := hgap p rfl
      simp only [InputEvents.silent, hlast.timeout, hlast.at_, Bool.or_eq_true, decide_eq_true_eq]
      exact .inr hsilent
  · intro a p t b hsplit hnear
    obtain ⟨es₁, e, es₂, -, rfl, rfl, hrest⟩ := trace_split hsplit
    obtain ⟨e', es₃, rfl⟩ : ∃ e' es₃, es₂ = e' :: es₃ := by
      cases es₂ with
      | nil => cases hrest
      | cons e' es₃ => exact ⟨e', es₃, rfl⟩
    rw [trace_cons, List.cons.injEq] at hrest
    obtain ⟨rfl, -⟩ := hrest
    have h := heard_step (hheard es₁).1 e
    obtain ⟨-, hfire, hsteps⟩ := step_near h hnear
    exact ⟨hfire, hsteps, step_again h hnear⟩
  · intro a t y z hsplit hbase hchain
    obtain ⟨es₁, e, es₂, -, rfl, rfl, hrest⟩ := trace_split hsplit
    obtain ⟨es₃, es₄, rfl, rfl, -⟩ := trace_split_append es₂ _ y z hrest.symm
    obtain ⟨hfire, hsteps⟩ := step_baseline hbase
    rw [List.map_cons, map_event_trace] at hchain
    obtain ⟨hsum, hshots⟩ := totals_near es₃ _ e (heard_step (hheard es₁).1 e) hchain
    rw [map_event_trace]
    refine ⟨?_, ?_⟩
    · rw [totalSteps, List.map_cons, List.sum_cons]
      have hzero : (stepOf step (final step start es₁) e).out.tiltSteps.toInt = 0 :=
        congrArg Int32.toInt hsteps
      rw [hzero, zero_add]
      exact hsum
    · rw [totalShots, List.countP_cons_of_neg (by
        show ¬ (step (final step start es₁) e).2.fire = true
        rw [hfire]
        exact Bool.false_ne_true)]
      exact hshots

end LauncherEvents

end Questix.MotorControl
