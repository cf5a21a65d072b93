/-
Questix.LabPage.OdomGoal — driving a distance or turning an angle by odometry
(`createOdomGoal` of `drive-core.js`), over the reals.

A goal is a machine that is given a sample and the time at each call. What it
has turned is the sum of the wrapped differences, which is the true turn as long
as no difference is half a turn (`turned_run`); `Latched` is what holds from the
call on that reaches the goal.
-/
import Mathlib.Data.Real.Sign
import Questix.Lib.Plane
import Questix.Lib.Trace

namespace Questix.LabPage.OdomGoal

open Questix.Lib
open Real

inductive Kind where
  | distance
  | turn
  deriving DecidableEq

/-- A number of a sample, or none where it is not finite. -/
structure Sample where
  x : Option ℝ
  y : Option ℝ
  theta : Option ℝ

structure Odom where
  x : ℝ
  y : ℝ
  theta : ℝ

/-- What a call is given; there may be no sample. -/
structure Call where
  odom : Option Sample
  elapsed : ℝ

structure Command where
  linear : ℝ
  angular : ℝ

structure Goal where
  start : Option Odom
  previousTheta : Option ℝ
  turned : ℝ
  reachedAt : Option ℝ
  progress : ℝ
  reached : Bool

/-- A sample with three finite numbers. -/
def Sample.finite (sample : Sample) : Option Odom :=
  sample.x.bind fun x => sample.y.bind fun y => sample.theta.map fun theta => ⟨x, y, theta⟩

def Call.valid (call : Call) : Option Odom := call.odom.bind Sample.finite

noncomputable section

def MIN_LINEAR : ℝ := 3 / 100
def MIN_ANGULAR : ℝ := 15 / 100
def SLOWDOWN : ℝ := 3 / 2
def SETTLE_SECONDS : ℝ := 1

/-- `GOAL_TOLERANCE[kind]` -/
def goalTolerance : Kind → ℝ
  | .distance => 5 / 1000
  | .turn => 1 * π / 180

def minimum : Kind → ℝ
  | .distance => MIN_LINEAR
  | .turn => MIN_ANGULAR

def wrapAngle (angle : ℝ) : ℝ := atan2 (sin angle) (cos angle)

def alongStart (start odom : Odom) : ℝ :=
  (odom.x - start.x) * cos start.theta + (odom.y - start.y) * sin start.theta

def stopped : Command := ⟨0, 0⟩

def commandOf (kind : Kind) (value : ℝ) : Command :=
  match kind with
  | .turn => { linear := 0, angular := value }
  | .distance => { linear := value, angular := 0 }

/-- What has been turned after one more sample. -/
def turnedBy (goal : Goal) (odom : Odom) : ℝ :=
  match goal.previousTheta with
  | none => goal.turned
  | some theta => goal.turned + wrapAngle (odom.theta - theta)

/-- Within the tolerance, or past the goal. -/
def isReached (kind : Kind) (target left : ℝ) : Prop :=
  |left| ≤ goalTolerance kind + 1 / 10 ^ 12 ∨ sign left ≠ sign target

instance (kind : Kind) (target left : ℝ) : Decidable (isReached kind target left) :=
  inferInstanceAs (Decidable (_ ∨ _))

/-- `update` with a valid sample: where the robot is, and whether that is the goal. -/
def seen (kind : Kind) (target : ℝ) (goal : Goal) (odom : Odom) : Goal :=
  let start := goal.start.getD odom
  let turned := turnedBy goal odom
  let progress := match kind with
    | .turn => turned
    | .distance => alongStart start odom
  { start := some start
    previousTheta := some odom.theta
    turned := turned
    reachedAt := goal.reachedAt
    progress := progress
    reached := goal.reached || decide (isReached kind target (target - progress)) }

/-- `Math.sign(left) * magnitude` -/
def approach (kind : Kind) (speed left : ℝ) : ℝ :=
  sign left * min speed (max (minimum kind) (SLOWDOWN * |left|))

/-- `update(odom, elapsed)`, and what it returns: a command, or `null`. -/
def update (kind : Kind) (target speed : ℝ) (goal : Goal) (call : Call) :
    Goal × Option Command :=
  match call.valid with
  | none => (goal, some stopped)
  | some odom =>
    let goal := seen kind target goal odom
    if goal.reached then
      let at_ := goal.reachedAt.getD call.elapsed
      ({ goal with reachedAt := some at_ },
        if SETTLE_SECONDS ≤ call.elapsed - at_ then none else some stopped)
    else (goal, some (commandOf kind (approach kind speed (target - goal.progress))))

def created : Goal where
  start := none
  previousTheta := none
  turned := 0
  reachedAt := none
  progress := 0
  reached := false

end

/-! ## One call -/

variable {kind : Kind} {target speed : ℝ} {goal : Goal} {call : Call} {odom : Odom}

theorem update_invalid (h : call.valid = none) :
    update kind target speed goal call = (goal, some stopped) := by
  rw [update, h]

theorem update_moving (h : call.valid = some odom)
    (hreached : (seen kind target goal odom).reached = false) :
    update kind target speed goal call =
      (seen kind target goal odom,
        some (commandOf kind
          (approach kind speed (target - (seen kind target goal odom).progress)))) := by
  rw [update, h]
  dsimp only
  rw [if_neg (by rw [hreached]; exact Bool.false_ne_true)]

theorem update_reached (h : call.valid = some odom)
    (hreached : (seen kind target goal odom).reached = true) :
    (update kind target speed goal call).1 =
        { seen kind target goal odom with
          reachedAt := some (goal.reachedAt.getD call.elapsed) } ∧
      ((update kind target speed goal call).2 = none ∨
        (update kind target speed goal call).2 = some stopped) ∧
      (SETTLE_SECONDS ≤ call.elapsed - goal.reachedAt.getD call.elapsed →
        (update kind target speed goal call).2 = none) := by
  rw [update, h]
  dsimp only
  rw [if_pos hreached]
  refine ⟨rfl, ?_, fun hsettled => if_pos hsettled⟩
  dsimp only
  split
  · exact .inl rfl
  · exact .inr rfl

theorem reached_seen (h : goal.reached = true) : (seen kind target goal odom).reached = true := by
  unfold seen
  dsimp only
  rw [h, Bool.true_or]

theorem reached_seen_iff : (seen kind target goal odom).reached = true ↔
    goal.reached = true ∨
      isReached kind target (target - (seen kind target goal odom).progress) := by
  unfold seen
  dsimp only
  rw [Bool.or_eq_true, decide_eq_true_iff]

/-! ## Commands -/

/-- A command drives the robot from `progress` towards the target, at most at the
speed, and moves nothing else. -/
def Towards (kind : Kind) (target speed progress : ℝ) (command : Command) : Prop :=
  ∃ value, command = commandOf kind value ∧ |value| ≤ speed ∧
    (progress < target ∧ 0 < value ∨ target < progress ∧ value < 0)

theorem minimum_pos (kind : Kind) : 0 < minimum kind := by
  cases kind
  · rw [minimum, MIN_LINEAR]
    norm_num
  · rw [minimum, MIN_ANGULAR]
    norm_num

theorem tolerance_pos (kind : Kind) : 0 < goalTolerance kind + 1 / 10 ^ 12 := by
  have hpi := Real.pi_pos
  cases kind
  · rw [goalTolerance]
    norm_num
  · rw [goalTolerance]
    positivity

theorem towards_approach (hspeed : minimum kind ≤ speed) {progress : ℝ}
    (hmoving : ¬ isReached kind target (target - progress)) :
    Towards kind target speed progress
      (commandOf kind (approach kind speed (target - progress))) := by
  have hmin := minimum_pos kind
  have htol := tolerance_pos kind
  obtain ⟨hfar, -⟩ := not_or.1 hmoving
  have hmagnitude : 0 < min speed (max (minimum kind) (SLOWDOWN * |target - progress|)) :=
    lt_min (hmin.trans_le hspeed) (lt_max_of_lt_left hmin)
  have hlimit : min speed (max (minimum kind) (SLOWDOWN * |target - progress|)) ≤ speed :=
    min_le_left _ _
  refine ⟨_, rfl, ?_⟩
  rw [approach]
  rcases lt_trichotomy (target - progress) 0 with hback | hthere | hahead
  · rw [sign_of_neg hback, neg_one_mul, abs_neg, abs_of_pos hmagnitude]
    exact ⟨hlimit, .inr ⟨by linarith, by linarith⟩⟩
  · rw [hthere, abs_zero] at hfar
    exact absurd htol.le hfar
  · rw [sign_of_pos hahead, one_mul, abs_of_pos hmagnitude]
    exact ⟨hlimit, .inl ⟨by linarith, by linarith⟩⟩

/-! ## The true turn -/

/-- Two headings are the same, up to whole turns. -/
def SameHeading (theta heading : ℝ) : Prop := ∃ k : ℤ, theta = heading + k * (2 * π)

def LessThanHalf (a b : ℝ) : Prop := |b - a| < π

theorem wrapAngle_sub {theta theta' heading heading' : ℝ} (h : SameHeading theta heading)
    (h' : SameHeading theta' heading') (hturn : LessThanHalf heading heading') :
    wrapAngle (theta' - theta) = heading' - heading := by
  obtain ⟨k, rfl⟩ := h
  obtain ⟨k', rfl⟩ := h'
  have hsub : heading' + k' * (2 * π) - (heading + k * (2 * π)) =
      heading' - heading + (k' - k : ℤ) * (2 * π) := by
    push_cast
    ring
  obtain ⟨hlow, hhigh⟩ := abs_lt.1 hturn
  rw [wrapAngle, hsub, sin_add_int_mul_two_pi, cos_add_int_mul_two_pi]
  exact atan2_sin_cos ⟨hlow, hhigh.le⟩

def validOdoms (calls : List Call) : List Odom := calls.filterMap Call.valid

theorem update_turned (h : call.valid = some odom) :
    (update .turn target speed goal call).1.turned = turnedBy goal odom ∧
      (update .turn target speed goal call).1.progress = turnedBy goal odom ∧
      (update .turn target speed goal call).1.previousTheta = some odom.theta := by
  cases hreached : (seen .turn target goal odom).reached with
  | false =>
    rw [update_moving h hreached]
    exact ⟨rfl, rfl, rfl⟩
  | true =>
    rw [(update_reached h hreached).1]
    exact ⟨rfl, rfl, rfl⟩

/-- From a sample with the heading `heading` on, the progress grows by the true turn. -/
theorem turned_run (calls : List Call) {theta heading : ℝ} (headings : List ℝ)
    (htheta : goal.previousTheta = some theta) (hheading : SameHeading theta heading)
    (hprogress : goal.progress = goal.turned)
    (htrue : List.Forall₂ (fun odom => SameHeading odom.theta) (validOdoms calls) headings)
    (hhalf : (heading :: headings).IsChain LessThanHalf) :
    (final (update .turn target speed) goal calls).progress =
      goal.turned + (headings.getLast?.getD heading - heading) := by
  induction calls generalizing goal theta heading headings with
  | nil =>
    cases htrue
    rw [final_nil, hprogress, List.getLast?_nil, Option.getD_none, sub_self, add_zero]
  | cons call calls ih =>
    rw [final_cons]
    cases hvalid : call.valid with
    | none =>
      rw [update_invalid hvalid]
      rw [validOdoms, List.filterMap_cons_none hvalid] at htrue
      exact ih headings htheta hheading hprogress htrue hhalf
    | some odom =>
      rw [validOdoms, List.filterMap_cons_some hvalid] at htrue
      cases htrue with
      | cons hfirst hrest =>
        rename_i heading' headings'
        obtain ⟨hturned, hprogress', htheta'⟩ := @update_turned target speed goal call odom hvalid
        rw [List.isChain_cons_cons] at hhalf
        have hstep : turnedBy goal odom = goal.turned + (heading' - heading) := by
          rw [turnedBy, htheta]
          dsimp only
          rw [wrapAngle_sub hheading hfirst hhalf.1]
        rw [ih headings' htheta' hfirst (hprogress'.trans hturned.symm) hrest hhalf.2, hturned,
          hstep, List.getLast?_cons, Option.getD_some]
        ring

theorem turned_created (calls : List Call) (headings : List ℝ)
    (htrue : List.Forall₂ (fun odom => SameHeading odom.theta) (validOdoms calls) headings)
    (hhalf : headings.IsChain LessThanHalf) :
    (final (update .turn target speed) created calls).progress =
      headings.getLast?.getD 0 - headings.head?.getD 0 := by
  induction calls with
  | nil =>
    cases htrue
    exact (sub_self 0).symm
  | cons call calls ih =>
    rw [final_cons]
    cases hvalid : call.valid with
    | none =>
      rw [update_invalid hvalid]
      rw [validOdoms, List.filterMap_cons_none hvalid] at htrue
      exact ih htrue
    | some odom =>
      rw [validOdoms, List.filterMap_cons_some hvalid] at htrue
      cases htrue with
      | cons hfirst hrest =>
        rename_i heading headings'
        obtain ⟨hturned, hprogress, htheta⟩ :=
          @update_turned target speed created call odom hvalid
        rw [turned_run calls headings' htheta hfirst (hprogress.trans hturned.symm) hrest hhalf,
          hturned, List.getLast?_cons, Option.getD_some, List.head?_cons, Option.getD_some]
        exact zero_add _

/-! ## At the goal -/

/-- The goal has been reached, not after the time `at_`. -/
structure Latched (at_ : ℝ) (goal : Goal) : Prop where
  reached : goal.reached = true
  before : ∃ reachedAt, goal.reachedAt = some reachedAt ∧ reachedAt ≤ at_

/-- A call with a valid sample that finds the robot at the goal or past it. -/
def Arrives (kind : Kind) (target : ℝ) (t : Step Goal Call (Option Command)) : Prop :=
  t.event.valid.isSome = true ∧ isReached kind target (target - t.post.progress)

/-- Before the latch there is no time of arrival, and none is later than a call. -/
structure Timely (now : ℝ) (goal : Goal) : Prop where
  latched : goal.reached = true → Latched now goal
  open_ : goal.reached = false → goal.reachedAt = none

theorem Latched.mono {now later : ℝ} (h : Latched now goal) (hle : now ≤ later) :
    Latched later goal :=
  ⟨h.reached, h.before.imp fun _ hbefore => ⟨hbefore.1, hbefore.2.trans hle⟩⟩

theorem Latched.update {at_ : ℝ} (h : Latched at_ goal) :
    Latched at_ (update kind target speed goal call).1 := by
  cases hvalid : call.valid with
  | none =>
    rw [update_invalid hvalid]
    exact h
  | some odom =>
    rw [(update_reached hvalid (reached_seen h.reached)).1]
    obtain ⟨reachedAt, hat, hle⟩ := h.before
    refine ⟨reached_seen h.reached, reachedAt, ?_, hle⟩
    dsimp only
    rw [hat, Option.getD_some]

theorem Latched.out {at_ : ℝ} (h : Latched at_ goal) :
    ((OdomGoal.update kind target speed goal call).2 = none ∨
        (OdomGoal.update kind target speed goal call).2 = some stopped) ∧
      (call.valid.isSome = true → SETTLE_SECONDS ≤ call.elapsed - at_ →
        (OdomGoal.update kind target speed goal call).2 = none) := by
  cases hvalid : call.valid with
  | none =>
    rw [update_invalid hvalid]
    exact ⟨.inr rfl, fun hnone => absurd hnone Bool.false_ne_true⟩
  | some odom =>
    obtain ⟨-, hstands, hends⟩ :=
      @update_reached kind target speed goal call odom hvalid (reached_seen h.reached)
    refine ⟨hstands, fun _ hsettled => hends ?_⟩
    obtain ⟨reachedAt, hat, hle⟩ := h.before
    rw [hat, Option.getD_some]
    linarith

theorem Timely.update (h : Timely call.elapsed goal) :
    Timely call.elapsed (update kind target speed goal call).1 := by
  cases hvalid : call.valid with
  | none =>
    rw [update_invalid hvalid]
    exact h
  | some odom =>
    cases hreached : (seen kind target goal odom).reached with
    | false =>
      rw [update_moving hvalid hreached]
      refine ⟨fun hyes => absurd (hreached.symm.trans hyes) Bool.false_ne_true, fun _ => ?_⟩
      cases hbefore : goal.reached with
      | false => exact h.open_ hbefore
      | true => exact absurd (hreached.symm.trans (reached_seen hbefore)) Bool.false_ne_true
    | true =>
      rw [(update_reached hvalid hreached).1]
      refine ⟨fun _ => ⟨hreached, _, rfl, ?_⟩, fun hno => ?_⟩
      · cases hat : goal.reachedAt with
        | none => exact le_rfl
        | some reachedAt =>
          cases hbefore : goal.reached with
          | false => exact absurd (hat.symm.trans (h.open_ hbefore)) (Option.some_ne_none _)
          | true =>
            obtain ⟨reachedAt', hat', hle⟩ := (h.latched hbefore).before
            rw [hat] at hat'
            rw [Option.getD_some, Option.some.inj hat']
            exact hle
      · exact absurd (hreached.symm.trans hno) Bool.true_eq_false_eq_False

theorem Timely.mono {now later : ℝ} (h : Timely now goal) (hle : now ≤ later) :
    Timely later goal :=
  ⟨fun hreached => (h.latched hreached).mono hle, h.open_⟩

/-! ## Runs -/

section Runs

variable {calls : List Call} {a b : List (Step Goal Call (Option Command))}
  {t : Step Goal Call (Option Command)}

theorem timely_run (htimes : Chronological Call.elapsed calls) (now : ℝ)
    (hnow : ∀ call ∈ calls, call.elapsed ≤ now) :
    Timely now (final (update kind target speed) created calls) := by
  have hhistory := @chronological_history Goal Call (Option Command) (update kind target speed)
    created ℝ _ Call.elapsed calls
    (fun past goal => ∀ now, (∀ call ∈ past, call.elapsed ≤ now) → Timely now goal)
  refine hhistory ?_ ?_ htimes now hnow
  · exact fun _ _ => ⟨fun hyes => absurd hyes Bool.false_ne_true, fun _ => rfl⟩
  · intro past goal call hpast htimes' now' hnow'
    have hstep := @Timely.update kind target speed goal call (hpast call.elapsed htimes')
    exact hstep.mono (hnow' call (List.mem_append_right past List.mem_cons_self))

/-- A call that arrives latches the goal, and drives the robot no more. -/
theorem latched_of_arrives (htimes : Chronological Call.elapsed calls)
    (h : trace (update kind target speed) created calls = a ++ t :: b)
    (harrives : Arrives kind target t) :
    Latched t.event.elapsed t.post ∧ (t.out = none ∨ t.out = some stopped) := by
  have hbefore : Timely t.event.elapsed t.pre := by
    obtain ⟨es₁, call, es₂, rfl, -, ht, -⟩ := trace_split h
    rw [ht]
    refine timely_run (htimes.of_append) call.elapsed fun call' hcall' => ?_
    exact (List.pairwise_append.1 htimes).2.2 call' hcall' call List.mem_cons_self
  have hstep := eq_stepOf_of_mem_trace (h ▸ List.mem_append_right a List.mem_cons_self)
  obtain ⟨hvalid, hreached⟩ := harrives
  obtain ⟨odom, hvalid⟩ := Option.isSome_iff_exists.1 hvalid
  have hpost : t.post = (update kind target speed t.pre t.event).1 := congrArg Step.post hstep
  have hout : t.out = (update kind target speed t.pre t.event).2 := congrArg Step.out hstep
  have hprogress : t.post.progress = (seen kind target t.pre odom).progress := by
    rw [hpost]
    cases hseen : (seen kind target t.pre odom).reached with
    | false => rw [update_moving hvalid hseen]
    | true => rw [(update_reached hvalid hseen).1]
  rw [hprogress] at hreached
  have hseen := reached_seen_iff.2 (.inr hreached)
  obtain ⟨hpost', hstands, -⟩ := @update_reached kind target speed _ _ _ hvalid hseen
  rw [hout, hpost]
  refine ⟨Timely.latched (Timely.update hbefore) ?_, hstands⟩
  rw [hpost']
  exact hseen

/-- What a goal owes the robot over a run. -/
structure Kept (kind : Kind) (target speed : ℝ) (calls : List Call) : Prop where
  /-- The progress of a turn is the true turn, over any number of revolutions. -/
  turned : kind = .turn → ∀ headings : List ℝ,
    List.Forall₂ (fun odom => SameHeading odom.theta) (validOdoms calls) headings →
    headings.IsChain LessThanHalf →
      (final (update kind target speed) created calls).progress =
        headings.getLast?.getD 0 - headings.head?.getD 0
  /-- A command stands still or drives towards the target. -/
  towards : ∀ t ∈ trace (update kind target speed) created calls, ∀ command,
    t.out = some command → command = stopped ∨ Towards kind target speed t.post.progress command
  /-- From the goal on nothing is driven. -/
  stands : ∀ a t b, trace (update kind target speed) created calls = a ++ t :: b →
    Arrives kind target t → ∀ u ∈ t :: b, u.out = none ∨ u.out = some stopped
  /-- And in time every call says so. -/
  settles : ∀ a t b, trace (update kind target speed) created calls = a ++ t :: b →
    Arrives kind target t → ∀ u ∈ b, u.event.valid.isSome = true →
      SETTLE_SECONDS ≤ u.event.elapsed - t.event.elapsed → u.out = none

theorem towards_step (hspeed : minimum kind ≤ speed) {command : Command}
    (h : (update kind target speed goal call).2 = some command) :
    command = stopped ∨
      Towards kind target speed (update kind target speed goal call).1.progress command := by
  cases hvalid : call.valid with
  | none =>
    rw [update_invalid hvalid] at h
    exact .inl (Option.some.inj h).symm
  | some odom =>
    cases hseen : (seen kind target goal odom).reached with
    | true =>
      rcases (@update_reached kind target speed _ _ _ hvalid hseen).2.1 with hnone | hstands
      · rw [hnone] at h
        cases h
      · rw [hstands] at h
        exact .inl (Option.some.inj h).symm
    | false =>
      rw [update_moving hvalid hseen] at h ⊢
      rw [← Option.some.inj h]
      refine .inr (towards_approach hspeed fun hreached => ?_)
      exact Bool.false_ne_true (hseen.symm.trans (reached_seen_iff.2 (.inr hreached)))

theorem latched_later (htimes : Chronological Call.elapsed calls)
    (h : trace (update kind target speed) created calls = a ++ t :: b)
    (harrives : Arrives kind target t) : ∀ u ∈ b, Latched t.event.elapsed u.pre ∧
      u = stepOf (update kind target speed) u.pre u.event := by
  have hlatched := (latched_of_arrives htimes h harrives).1
  obtain ⟨es₁, call, es₂, -, -, -, hb⟩ := trace_split h
  intro u hu
  rw [hb] at hu
  refine ⟨?_, eq_stepOf_of_mem_trace hu⟩
  exact (trace_invariant (Latched t.event.elapsed) (fun _ _ => Latched.update) es₂ t.post
    hlatched u hu).1

/-- Over every sequence of samples a goal is kept. -/
theorem odom_goal_kept (hspeed : minimum kind ≤ speed)
    (htimes : Chronological Call.elapsed calls) : Kept kind target speed calls where
  turned := by
    rintro rfl headings htrue hhalf
    exact turned_created calls headings htrue hhalf
  towards := by
    intro t ht command hcommand
    have hstep := eq_stepOf_of_mem_trace ht
    have hout : t.out = (update kind target speed t.pre t.event).2 := congrArg Step.out hstep
    have hpost : t.post = (update kind target speed t.pre t.event).1 := congrArg Step.post hstep
    rw [hpost]
    exact towards_step hspeed (hout.symm.trans hcommand)
  stands := by
    intro a t b h harrives u hu
    rcases List.mem_cons.1 hu with rfl | hu
    · exact (latched_of_arrives htimes h harrives).2
    · obtain ⟨hlatched, hstep⟩ := latched_later htimes h harrives u hu
      have hout : u.out = (update kind target speed u.pre u.event).2 := congrArg Step.out hstep
      rw [hout]
      exact hlatched.out.1
  settles := by
    intro a t b h harrives u hu hvalid hsettled
    obtain ⟨hlatched, hstep⟩ := latched_later htimes h harrives u hu
    have hout : u.out = (update kind target speed u.pre u.event).2 := congrArg Step.out hstep
    rw [hout]
    exact hlatched.out.2 hvalid hsettled

end Runs

/-- A quarter turn, with a sample missing on the way. -/
theorem odom_goal_kept_quarter :
    Kept .turn (π / 2) 1 [⟨some ⟨some 0, some 0, some 0⟩, 0⟩, ⟨none, 1⟩,
      ⟨some ⟨some 0, some 0, some (π / 2)⟩, 2⟩, ⟨some ⟨some 0, none, some 2⟩, 3⟩] := by
  refine odom_goal_kept ?_ ?_
  · rw [minimum, MIN_ANGULAR]
    norm_num
  · unfold Chronological
    norm_num [List.pairwise_cons]

end Questix.LabPage.OdomGoal
