/-
Questix.CommandArbiter.LauncherPipelineTheorems — the events of the launcher's
inputs, folded into the output's counters by the flow and differenced again by
the shot node.

The receiver's state follows the output's counters (`Follows`): after every
delivered output it has read that output's numbers, so the next one carries
exactly what the flow accepted in between. That is the step of the induction
over the run; the source the flow forwards never enters it.
-/
import Questix.CommandArbiter.LauncherShotTheorems
import Questix.MotorControl.LauncherEvents
import Mathlib.Data.List.Chain

namespace Questix.CommandArbiter

open Questix.Lib
open Questix.MotorControl (LauncherEvents)

/-! ## The deliveries -/

/-- An output of the flow that reached the shot node, and when. -/
structure Delivery where
  output : LauncherOutput
  atSec : ℚ

/-- The shot node reads a delivered output. -/
def receive (r : LauncherEvents) (d : Delivery) : LauncherEvents × InputEvents.Events :=
  r.onCommand ⟨d.output.command.tiltDeg, d.output.command.tiltSteps, d.output.command.fireSeq⟩
    d.atSec

/-- Every delivery follows the one before it within the receiver's timeout. -/
def NoSilence (timeoutSec : Dbl) (ds : List Delivery) : Prop :=
  ds.IsChain fun d d' => .fin (d'.atSec - d.atSec) ≤ timeoutSec

abbrev ReceiveStep := Step LauncherEvents Delivery InputEvents.Events

/-- The shots the shot node executes. -/
def executedShots (steps : List ReceiveStep) : ℕ :=
  steps.countP fun t => t.out.fire

/-- The signed sum of the tilt steps the shot node executes. -/
def executedSteps (steps : List ReceiveStep) : ℤ :=
  (steps.map fun t => t.out.tiltSteps.toInt).sum

namespace LauncherFlow

/-- The shots the flow accepts. -/
def acceptedShots (steps : List FlowStep) : ℕ :=
  steps.countP fun t => t.pre.accepts t.event

/-- The signed sum of the tilt steps the flow accepts. -/
def acceptedTilt (steps : List FlowStep) : ℤ :=
  (steps.map fun t => (t.pre.acceptedSteps t.event).toInt).sum

/-- The step leaves the output's counters inside their integer ranges. -/
structure InRange (t : FlowStep) : Prop where
  fireSeq : t.pre.accepts t.event = true → t.pre.out.fireSeq.toNat + 1 < 2 ^ 32
  lower : -2 ^ 31 ≤ t.pre.out.tiltSteps.toInt + (t.pre.acceptedSteps t.event).toInt
  upper : t.pre.out.tiltSteps.toInt + (t.pre.acceptedSteps t.event).toInt < 2 ^ 31

/-- The tilt steps as published so far. -/
def publishedSteps (steps : List FlowStep) : Int32 :=
  match lastOutput steps with
  | some o => o.command.tiltSteps
  | none => 0

/-! ## The counters of one output -/

end LauncherFlow

namespace InputEvents

theorem countEvents_cases (s : InputEvents) (silent : Bool) (tiltSteps : Int32)
    (fireSeq : UInt32) :
    s.countEvents silent tiltSteps fireSeq = { baseline := true } ∨
      silent = false ∧ ¬ fireSeq < s.fireSeq ∧ |tiltSteps.toInt - s.tiltSteps.toInt| ≤ 4 ∧
      s.countEvents silent tiltSteps fireSeq =
        { fire := decide (s.fireSeq < fireSeq)
          tiltSteps := Int32.ofInt (tiltSteps.toInt - s.tiltSteps.toInt) } := by
  unfold countEvents
  simp only
  split
  · exact .inl rfl
  · rename_i hbase
    simp only [Bool.or_eq_true, decide_eq_true_eq, not_or, Bool.not_eq_true] at hbase
    obtain ⟨⟨⟨hsilent, hseq⟩, hup⟩, hdown⟩ := hbase
    unfold kMaxStepsPerMessage at hup hdown
    refine .inr ⟨hsilent, hseq, ?_, rfl⟩
    rw [abs_le]
    omega

theorem toInt_ofInt_small {n : ℤ} (h : |n| ≤ 4) : (Int32.ofInt n).toInt = n := by
  rw [abs_le] at h
  rw [Int32.toInt_ofInt]
  exact Int.bmod_eq_of_le (by simp only [Int32.size]; omega) (by simp only [Int32.size]; omega)

theorem toInt_tiltSteps (s : InputEvents) (silent : Bool) (tiltSteps : Int32)
    (fireSeq : UInt32) :
    |((s.countEvents silent tiltSteps fireSeq).tiltSteps).toInt| ≤ 4 := by
  rcases s.countEvents_cases silent tiltSteps fireSeq with hbase | ⟨-, -, hsmall, hcount⟩
  · rw [hbase]
    decide
  · rw [hcount, toInt_ofInt_small hsmall]
    exact hsmall

end InputEvents

namespace LauncherFlow

variable {s : LauncherFlow} {e : FlowEvent} {past : List FlowStep}

theorem acceptedSteps_le : |(s.acceptedSteps e).toInt| ≤ 4 := by
  cases e with
  | joy command t =>
    simp only [acceptedSteps]
    split
    · rw [joyEvents, (InputEvents.onCommand_counts _ _ _ _ _).2.1]
      exact InputEvents.toInt_tiltSteps _ _ _ _
    · decide
  | lab command permitted t => simp [acceptedSteps]
  | tick permitted t => simp [acceptedSteps]

theorem publishedSteps_of_silent {t : FlowStep} (h : t.out = []) :
    publishedSteps (past ++ [t]) = publishedSteps past := by
  simp [publishedSteps, lastOutput, h]

theorem publishedSteps_of_out {t : FlowStep} {o : LauncherOutput} (h : t.out = [o]) :
    publishedSteps (past ++ [t]) = o.command.tiltSteps := by
  simp [publishedSteps, lastOutput_of_out_eq h]

theorem published_run (config : LauncherConfig) (es : List FlowEvent) :
    publishedSeq (trace step (configure {} config) es) =
        (final step (configure {} config) es).out.fireSeq ∧
      publishedSteps (trace step (configure {} config) es) =
        (final step (configure {} config) es).out.tiltSteps := by
  induction es using List.reverseRecOn with
  | nil => exact ⟨rfl, rfl⟩
  | append_singleton es e ih =>
    rw [trace_append, final_append]
    generalize final step (configure {} config) es = s at ih ⊢
    obtain ⟨hseq, hsteps⟩ := ih
    refine ⟨publishedSeq_snoc hseq, ?_⟩
    show publishedSteps (_ ++ [stepOf step s e]) = (step s e).1.out.tiltSteps
    rcases step_published s e with ⟨hout, -, hnone⟩ | ⟨o, hout, -, htilt⟩
    · rw [publishedSteps_of_silent hout, hsteps, (step_counted s e).tiltSteps, hnone]
      simp
    · rw [publishedSteps_of_out hout, htilt]

theorem step_moves {o : LauncherOutput} (ho : o ∈ (step s e).2) :
    o.command.fireSeq - s.out.fireSeq ≤ 1 ∧
      |(o.command.tiltSteps - s.out.tiltSteps).toInt| ≤ 4 := by
  have hc := step_counted s e
  obtain ⟨hseq, hsteps⟩ := hc.published o ho
  rw [hseq, hsteps, hc.fireSeq, hc.tiltSteps]
  refine ⟨?_, ?_⟩
  · cases s.accepts e with
    | true =>
      rw [if_pos rfl, UInt32.add_comm, UInt32.add_sub_cancel]
      decide
    | false => simp
  · rw [Int32.add_comm, Int32.add_sub_cancel]
    exact acceptedSteps_le

/-! ## The receiver -/

/-- The receiver has read the output's counters. -/
structure Follows (r : LauncherEvents) (s : LauncherFlow) : Prop where
  heard : r.have_ = true
  fireSeq : r.fireSeq = s.out.fireSeq
  tiltSteps : r.tiltSteps = s.out.tiltSteps

theorem follows_receive {r : LauncherEvents} {d : Delivery} {s' : LauncherFlow}
    (hseq : d.output.command.fireSeq = s'.out.fireSeq)
    (hsteps : d.output.command.tiltSteps = s'.out.tiltSteps) : Follows (receive r d).1 s' :=
  ⟨rfl, hseq, hsteps⟩

theorem counters_inRange (h : InRange (stepOf step s e)) :
    (step s e).1.out.fireSeq.toNat = s.out.fireSeq.toNat + (s.accepts e).toNat ∧
      (step s e).1.out.tiltSteps.toInt =
        s.out.tiltSteps.toInt + (s.acceptedSteps e).toInt := by
  have hc := step_counted s e
  obtain ⟨hfire, hlower, hupper⟩ := h
  simp only [stepOf] at hfire hlower hupper
  refine ⟨?_, ?_⟩
  · rw [hc.fireSeq]
    cases haccept : s.accepts e with
    | true =>
      rw [if_pos rfl, UInt32.toNat_add]
      exact Nat.mod_eq_of_lt (hfire haccept)
    | false => simp
  · rw [hc.tiltSteps, Int32.toInt_add]
    exact Int.bmod_eq_of_le (by omega) (by omega)

/-- The next output carries exactly what the step that published it accepted. -/
theorem receive_counts {r : LauncherEvents} {d : Delivery} {atSec : ℚ} (hr : Follows r s)
    (hat : r.atSec = .fin atSec) (hgap : .fin (d.atSec - atSec) ≤ r.timeoutSec)
    (hrange : InRange (stepOf step s e))
    (hseq : d.output.command.fireSeq = (step s e).1.out.fireSeq)
    (hsteps : d.output.command.tiltSteps = (step s e).1.out.tiltSteps) :
    (receive r d).2.fire = s.accepts e ∧
      (receive r d).2.tiltSteps.toInt = (s.acceptedSteps e).toInt := by
  have hsilent : r.silent d.atSec = false := by
    simp only [InputEvents.silent, hr.heard, hat, Bool.not_true, Bool.false_or,
      decide_eq_false_iff_not]
    exact Dbl.not_lt_of_le (by rw [Dbl.fin_sub_fin]; exact hgap)
  obtain ⟨hcount, htilt⟩ := counters_inRange hrange
  rw [← hseq, ← hr.fireSeq] at hcount
  rw [← hsteps, ← hr.tiltSteps] at htilt
  have hsmall := acceptedSteps_le (s := s) (e := e)
  have hdiff : d.output.command.tiltSteps.toInt - r.tiltSteps.toInt =
      (s.acceptedSteps e).toInt := by omega
  have hback : ¬ d.output.command.fireSeq < r.fireSeq := by
    rw [UInt32.lt_iff_toNat_lt]
    omega
  have hevents : r.countEvents (r.silent d.atSec) d.output.command.tiltSteps
      d.output.command.fireSeq = { fire := decide (r.fireSeq < d.output.command.fireSeq)
                                   tiltSteps := Int32.ofInt (s.acceptedSteps e).toInt } := by
    rw [abs_le] at hsmall
    simp only [InputEvents.countEvents, hsilent, hback, hdiff, InputEvents.kMaxStepsPerMessage]
    rw [if_neg]
    simp
    omega
  obtain ⟨hfire, hread, -⟩ := InputEvents.onCommand_counts r d.output.command.tiltDeg
    d.output.command.tiltSteps d.output.command.fireSeq d.atSec
  rw [hevents] at hfire hread
  refine ⟨?_, ?_⟩
  · refine hfire.trans ?_
    show decide (r.fireSeq < d.output.command.fireSeq) = s.accepts e
    cases haccept : s.accepts e with
    | true =>
      rw [haccept, Bool.toNat_true] at hcount
      rw [decide_eq_true_eq, UInt32.lt_iff_toNat_lt]
      omega
    | false =>
      rw [haccept, Bool.toNat_false] at hcount
      rw [decide_eq_false_iff_not, UInt32.lt_iff_toNat_lt]
      omega
  · refine (congrArg Int32.toInt hread).trans ?_
    exact InputEvents.toInt_ofInt_small hsmall

/-- Over a run, a receiver that follows the counters and hears every output in
time executes what is accepted. -/
theorem pipeline_run : ∀ (es : List FlowEvent) (s : LauncherFlow) (r : LauncherEvents)
    (d : Delivery) (ds : List Delivery), Follows r s → r.atSec = .fin d.atSec →
    NoSilence r.timeoutSec (d :: ds) →
    ds.map Delivery.output = (trace step s es).flatMap Step.out →
    (∀ t ∈ trace step s es, InRange t) →
    executedShots (trace receive r ds) = acceptedShots (trace step s es) ∧
      executedSteps (trace receive r ds) = acceptedTilt (trace step s es)
  | [], s, r, d, ds, _, _, _, hds, _ => by
      obtain rfl : ds = [] := by simpa using hds
      exact ⟨rfl, rfl⟩
  | e :: es, s, r, d, ds, hr, hat, hgaps, hds, hrange => by
      have hrange₁ : InRange (stepOf step s e) := hrange _ (by simp)
      have hrange' : ∀ t ∈ trace step (step s e).1 es, InRange t := fun t ht =>
        hrange t (by simp [ht])
      simp only [trace_cons, List.flatMap_cons, stepOf] at hds
      rcases step_published s e with ⟨hout, hno, hnone⟩ | ⟨o, hout, hseq, hsteps⟩
      · -- nothing was published: the receiver still has the counters
        rw [hout, List.nil_append] at hds
        have hkept : Follows r (step s e).1 := by
          refine ⟨hr.heard, ?_, ?_⟩
          · rw [hr.fireSeq, (step_counted s e).fireSeq, hno]
            rfl
          · rw [hr.tiltSteps, (step_counted s e).tiltSteps, hnone]
            simp
        obtain ⟨hshots, htilt⟩ := pipeline_run es _ r d ds hkept hat hgaps hds hrange'
        refine ⟨?_, ?_⟩
        · rw [hshots, acceptedShots, acceptedShots, trace_cons, List.countP_cons_of_neg]
          simp [stepOf, hno]
        · rw [htilt, acceptedTilt, acceptedTilt, trace_cons, List.map_cons, List.sum_cons]
          simp [stepOf, hnone]
      · -- the next delivery is the output of this step
        rw [hout] at hds
        cases ds with
        | nil => simp at hds
        | cons d' ds =>
          simp only [List.map_cons, List.singleton_append, List.cons.injEq] at hds
          obtain ⟨rfl, hds⟩ := hds
          rw [NoSilence, List.isChain_cons_cons] at hgaps
          obtain ⟨hfire, hread⟩ := receive_counts hr hat hgaps.1 hrange₁ hseq hsteps
          obtain ⟨hshots, htilt⟩ := pipeline_run es _ (receive r d').1 d' ds
            (follows_receive hseq hsteps) rfl hgaps.2 hds hrange'
          refine ⟨?_, ?_⟩
          · simp only [executedShots, acceptedShots, trace_cons, List.countP_cons, stepOf, hfire]
              at hshots ⊢
            rw [hshots]
          · simp only [executedSteps, acceptedTilt, trace_cons, List.map_cons, List.sum_cons,
              stepOf, hread] at htilt ⊢
            rw [htilt]

/-! ## Every run -/

/-- The pipeline is exact over these steps. One output moves the counters by
at most one shot and four tilt steps. No event of the controller is dropped
by the flow. And once a receiver's baseline was set by a delivered output, the
outputs after it, delivered in order without a silence and with the counters
in range, execute exactly what was accepted after it. -/
structure PipelineExact (steps : List FlowStep) : Prop where
  moves : ∀ a t b, steps = a ++ t :: b → ∀ o ∈ t.out,
    o.command.fireSeq - publishedSeq a ≤ 1 ∧
      |(o.command.tiltSteps - publishedSteps a).toInt| ≤ 4
  controller : ∀ t ∈ steps, ∀ command nowSec, t.event = .joy command nowSec →
    t.pre.accepts t.event = (t.pre.joyEvents command nowSec).fire ∧
      t.pre.acceptedSteps t.event = (t.pre.joyEvents command nowSec).tiltSteps
  delivered : ∀ a t b, steps = a ++ t :: b → (∀ u ∈ b, InRange u) →
    ∀ (r : LauncherEvents) (d : Delivery) (ds : List Delivery), t.out = [d.output] →
      (receive r d).2.baseline = true → NoSilence r.timeoutSec (d :: ds) →
      ds.map Delivery.output = b.flatMap Step.out →
      executedShots (trace receive r (d :: ds)) = acceptedShots b ∧
        executedSteps (trace receive r (d :: ds)) = acceptedTilt b

theorem accepts_joy (s : LauncherFlow) (command : LauncherCommand) (nowSec : ℚ) :
    s.accepts (.joy command nowSec) = (s.joyEvents command nowSec).fire ∧
      s.acceptedSteps (.joy command nowSec) = (s.joyEvents command nowSec).tiltSteps := by
  simp only [accepts, acceptedSteps, joySelection, SourceSelector.onJoy_publish, joyActive]
  cases hfire : (s.joyEvents command nowSec).fire with
  | true => simp
  | false =>
    by_cases hsteps : (s.joyEvents command nowSec).tiltSteps = 0
    · simp [hsteps]
    · simp [hsteps]

theorem receive_baseline {r : LauncherEvents} {d : Delivery}
    (h : (receive r d).2.baseline = true) :
    (receive r d).2.fire = false ∧ (receive r d).2.tiltSteps = 0 := by
  obtain ⟨hfire, hsteps, hbase⟩ := InputEvents.onCommand_counts r d.output.command.tiltDeg
    d.output.command.tiltSteps d.output.command.fireSeq d.atSec
  rcases InputEvents.countEvents_cases r (r.silent d.atSec) d.output.command.tiltSteps
    d.output.command.fireSeq with heq | ⟨-, -, -, heq⟩
  · rw [heq] at hfire hsteps
    exact ⟨hfire, hsteps⟩
  · rw [heq] at hbase
    cases hbase.symm.trans h

/-- The pipeline is exact over every run of the flow. -/
theorem pipeline_exact (config : LauncherConfig) (es : List FlowEvent) :
    PipelineExact (trace step (configure {} config) es) where
  moves := by
    intro a t b hab o ho
    obtain ⟨es₁, e, es₂, -, rfl, rfl, -⟩ := trace_split hab
    obtain ⟨hseq, hsteps⟩ := published_run config es₁
    rw [hseq, hsteps]
    exact step_moves ho
  controller := by
    intro t _ command nowSec he
    rw [he]
    exact accepts_joy t.pre command nowSec
  delivered := by
    intro a t b hab hrange r d ds hout hbase hgaps hds
    obtain ⟨es₁, e, es₂, -, -, rfl, rfl⟩ := trace_split hab
    have hcarried := (step_counted (final step (configure {} config) es₁) e).published d.output
      (by rw [show (step _ e).2 = [d.output] from hout]; simp)
    obtain ⟨hfire, hsteps⟩ := receive_baseline hbase
    obtain ⟨hshots, htilt⟩ := pipeline_run es₂ _ (receive r d).1 d ds
      (follows_receive hcarried.1 hcarried.2) rfl hgaps hds hrange
    refine ⟨?_, ?_⟩
    · refine Eq.trans ?_ hshots
      rw [executedShots, executedShots, trace_cons, List.countP_cons_of_neg]
      simp [stepOf, hfire]
    · refine Eq.trans ?_ htilt
      rw [executedSteps, executedSteps, trace_cons, List.map_cons, List.sum_cons]
      simp [stepOf, hsteps]

end LauncherFlow

end Questix.CommandArbiter
