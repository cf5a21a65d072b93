/-
Questix.LabPage.SlamEngineTheorems — an estimate is defined for every log that
is accepted.

Every pair adds the square of something to the form of the normal equations, so
the prior keeps it off 0 (`Bounded`), and the elimination finds a solution. What
else is divided by is off 0 by the check just before it or by what was checked
of the log.
-/
import Mathlib.Analysis.Real.Pi.Bounds
import Questix.LabPage.SlamEngine

namespace Questix.LabPage.SlamEngine

open Questix.Lib
open UsbSlam (Pose Point Feature transform wrapAngle)
open Real

theorem divide_eq {a b : ℝ} (h : b ≠ 0) : divide a b = some (a / b) := if_neg h

/-! ## The normal equations -/

/-- The form of the equations is at least that of the prior on the position. -/
def Bounded (n : Normal) : Prop :=
  ∀ x : Fin 3 → ℝ, ICP_PRIOR_XY * ∑ j, x j ^ 2 ≤ ∑ i, x i * ∑ j, n.matrix i j * x j

theorem bounded_prior (prediction pose : Pose) : Bounded (priorOf prediction pose) := by
  intro x
  unfold priorOf ICP_PRIOR_XY ICP_PRIOR_THETA
  simp only [Fin.sum_univ_three, Matrix.cons_val_zero, Matrix.cons_val_one, Matrix.cons_val]
  nlinarith [sq_nonneg (x 2)]

theorem bounded_add {n n' : Normal} (h : Bounded n) {weight : ℝ} (hweight : 0 ≤ weight)
    (jacobian : Fin 3 → ℝ)
    (hmatrix : ∀ i j, n'.matrix i j = n.matrix i j + weight * jacobian i * jacobian j) :
    Bounded n' := by
  intro x
  have hform : ∑ i, x i * ∑ j, n'.matrix i j * x j =
      (∑ i, x i * ∑ j, n.matrix i j * x j) + weight * (∑ i, jacobian i * x i) ^ 2 := by
    simp only [Fin.sum_univ_three, hmatrix]
    ring
  rw [hform]
  exact (h x).trans (le_add_of_nonneg_right (mul_nonneg hweight (sq_nonneg _)))

section Equations

variable {map : List Feature} {pose prediction : Pose} {points : List Point}

theorem addPair_spec {acc : Normal} (h : Bounded acc) (point : Point) :
    ∃ n, addPair map pose acc point = some n ∧ Bounded n := by
  unfold addPair
  dsimp only
  split
  · exact ⟨acc, rfl, h⟩
  · rename_i nearest _
    have hpos : ∀ error : ℝ, (0 : ℝ) < max (1 / 10000) |error| :=
      fun error => lt_max_of_lt_left (by norm_num)
    rw [divide_eq (hpos _).ne']
    refine ⟨_, rfl, bounded_add h (le_min zero_le_one ?_) _ fun i j => rfl⟩
    refine div_nonneg ?_ (hpos _).le
    unfold ICP_ROBUST_ERROR
    norm_num

theorem foldlM_addPair (points : List Point) {acc : Normal} (h : Bounded acc) :
    ∃ n, points.foldlM (addPair map pose) acc = some n ∧ Bounded n := by
  induction points generalizing acc with
  | nil => exact ⟨acc, rfl, h⟩
  | cons point points ih =>
    obtain ⟨next, hnext, hbounded⟩ := @addPair_spec map pose acc h point
    rw [List.foldlM_cons, hnext]
    exact ih hbounded

theorem solve3_spec {n : Normal} (h : Bounded n) :
    ∃ step, solve3 n.matrix n.rhs = some step ∧
      ∀ i, ∑ j, n.matrix i j * step j = n.rhs i := by
  have hpos : 0 < ICP_PRIOR_XY := by
    unfold ICP_PRIOR_XY
    norm_num
  refine GaussJordan.solve_spec (GaussJordan.stretch_of_form hpos h) (by norm_num) ?_
  unfold ICP_PRIOR_XY
  norm_num

theorem equations_solved (points : List Point) (prediction : Pose) (map : List Feature)
    (pose : Pose) : ∃ n step, normalEquations points prediction map pose = some n ∧
      solve3 n.matrix n.rhs = some step ∧ ∀ i, ∑ j, n.matrix i j * step j = n.rhs i := by
  obtain ⟨n, hn, hbounded⟩ := @foldlM_addPair map pose points _ (bounded_prior prediction pose)
  obtain ⟨step, hstep, hsolves⟩ := solve3_spec hbounded
  exact ⟨n, step, hn, hstep, hsolves⟩

/-! ## Matching a scan -/

theorem iteration_isSome (hpoints : ICP_MIN_SCAN_POINTS ≤ points.length) (s : Search) :
    ∃ outcome, iteration points prediction map s = some outcome := by
  obtain ⟨n, step, hn, hstep, -⟩ := equations_solved points prediction map s.pose
  have hone : max 1 ((n.nxx + n.nyy) ^ 2) ≠ 0 := (lt_max_of_lt_left one_pos).ne'
  have hlength : (points.length : ℝ) ≠ 0 := by
    unfold ICP_MIN_SCAN_POINTS at hpoints
    exact Nat.cast_ne_zero.2 (by omega)
  unfold iteration
  rw [hn]
  dsimp only [Option.bind_eq_bind, Option.bind_some]
  by_cases hpairs : n.pairs < ICP_MIN_PAIRS
  · exact ⟨.unmatched, if_pos hpairs⟩
  · have hpairs' : (n.pairs : ℝ) ≠ 0 := by
      unfold ICP_MIN_PAIRS at hpairs
      exact Nat.cast_ne_zero.2 (by omega)
    rw [if_neg hpairs, divide_eq hone, hstep]
    dsimp only [Option.bind_some]
    rw [divide_eq hlength, divide_eq hpairs']
    exact ⟨_, rfl⟩

theorem icp_isSome (hpoints : ICP_MIN_SCAN_POINTS ≤ points.length) (steps : ℕ) (s : Search) :
    ∃ outcome, icp points prediction map steps s = some outcome := by
  induction steps generalizing s with
  | zero => exact ⟨some s, rfl⟩
  | succ steps ih =>
    obtain ⟨outcome, houtcome⟩ := @iteration_isSome map prediction points hpoints s
    unfold icp
    rw [houtcome]
    cases outcome with
    | unmatched => exact ⟨none, rfl⟩
    | done next => exact ⟨some next, rfl⟩
    | on next => exact ih next

/-- A pose that is matched is near the prediction, and else it is the prediction. -/
def NearPrediction (prediction pose : Pose) (matched : Bool) : Prop :=
  (matched = true → hypot (pose.x - prediction.x) (pose.y - prediction.y) < ICP_MAX_CORRECTION ∧
    |wrapAngle (pose.theta - prediction.theta)| < ICP_MAX_TURN_CORRECTION) ∧
  (matched = false → pose = prediction)

theorem matchScan_spec (points : List Point) (prediction : Pose) (map : List Feature) :
    ∃ found, matchScan points prediction map = some found ∧
      NearPrediction prediction found.pose found.used := by
  have hunmatched : NearPrediction prediction (unmatched prediction).pose
      (unmatched prediction).used := ⟨fun h => Bool.noConfusion h, fun _ => rfl⟩
  unfold matchScan
  split
  · exact ⟨_, rfl, hunmatched⟩
  · rename_i henough
    have hpoints : ICP_MIN_SCAN_POINTS ≤ points.length := not_lt.1 fun h => henough (.inr h)
    obtain ⟨outcome, houtcome⟩ :=
      @icp_isSome map prediction points hpoints ICP_ITERATIONS { pose := prediction }
    rw [houtcome]
    cases outcome with
    | none => exact ⟨_, rfl, hunmatched⟩
    | some s =>
      refine ⟨_, rfl, fun haccepted => ?_, fun hrefused => ?_⟩
      · dsimp only at haccepted ⊢
        rw [if_pos haccepted]
        exact (of_decide_eq_true haccepted).2
      · dsimp only at hrefused ⊢
        rw [if_neg fun haccepted => Bool.false_ne_true (hrefused.symm.trans haccepted)]

theorem normalAt_isSome (before q after : Point) :
    ∃ found, normalAt before q after = some found := by
  unfold normalAt
  dsimp only
  split
  · exact ⟨none, rfl⟩
  · rename_i hspan
    have hpos : hypot (after.x - before.x) (after.y - before.y) ≠ 0 := by
      intro hzero
      refine hspan (.inl ?_)
      rw [hzero]
      unfold NORMAL_MIN_SPAN
      norm_num
    rw [divide_eq hpos, divide_eq hpos]
    exact ⟨_, rfl⟩

theorem normalsOf_isSome (points : List Point) : ∃ found, normalsOf points = some found := by
  fun_induction normalsOf points with
  | case1 before q after rest ih =>
    obtain ⟨first, hfirst⟩ := normalAt_isSome before q after
    obtain ⟨others, hothers⟩ := ih
    rw [hfirst, hothers]
    exact ⟨_, rfl⟩
  | case2 points _ => exact ⟨[], rfl⟩

end Equations

/-! ## The drive -/

section Drive

variable {config : Config} {method : Method} {bias : ℝ}

/-- Each state is near the prediction from the one before it. -/
def Follows (config : Config) (method : Method) (bias : ℝ) :
    Pose → ℚ → List Frame → List State → Prop
  | _, _, [], [] => True
  | pose, lastTime, frame :: frames, state :: states =>
    (∃ prediction, predict config method bias pose lastTime frame = some prediction ∧
      NearPrediction prediction state.pose state.matched) ∧
      Follows config method bias state.pose frame.t frames states
  | _, _, _, _ => False

theorem predict_isSome (htrack : config.track ≠ 0) (pose : Pose) (lastTime : ℚ) (frame : Frame) :
    ∃ prediction, predict config method bias pose lastTime frame = some prediction := by
  unfold predict
  dsimp only
  rw [divide_eq (Rat.cast_ne_zero.2 htrack)]
  exact ⟨_, rfl⟩

theorem estimateFrame_spec (htrack : config.track ≠ 0) (s : Loop) (frame : Frame) :
    ∃ state s', estimateFrame config method bias s frame = some (state, s') ∧
      s'.pose = state.pose ∧ s'.lastTime = frame.t ∧
      ∃ prediction, predict config method bias s.pose s.lastTime frame = some prediction ∧
        NearPrediction prediction state.pose state.matched := by
  obtain ⟨prediction, hprediction⟩ :=
    @predict_isSome config method bias htrack s.pose s.lastTime frame
  have hfound : ∃ found, matchFrame method (scanPoints frame config) prediction s.submaps =
      some found ∧ NearPrediction prediction found.pose found.used := by
    unfold matchFrame
    split
    · exact matchScan_spec _ _ _
    · exact ⟨_, rfl, fun h => Bool.noConfusion h, fun _ => rfl⟩
  obtain ⟨found, hfound, hnear⟩ := hfound
  have hsubmaps : ∃ submaps,
      insertScan method s (scanPoints frame config) found.pose = some submaps := by
    unfold insertScan
    split
    · obtain ⟨scan, hscan⟩ := normalsOf_isSome (transform (scanPoints frame config) found.pose)
      unfold normals
      rw [hscan]
      exact ⟨_, rfl⟩
    · exact ⟨_, rfl⟩
  obtain ⟨submaps, hsubmaps⟩ := hsubmaps
  unfold estimateFrame
  rw [hprediction]
  dsimp only [Option.bind_eq_bind, Option.bind_some]
  rw [hfound]
  dsimp only [Option.bind_some]
  rw [hsubmaps]
  exact ⟨_, _, rfl, rfl, rfl, prediction, rfl, hnear⟩

theorem estimateFrames_spec (htrack : config.track ≠ 0) (frames : List Frame) (s : Loop) :
    ∃ states, estimateFrames config method bias s frames = some states ∧
      states.length = frames.length ∧
      Follows config method bias s.pose s.lastTime frames states := by
  induction frames generalizing s with
  | nil => exact ⟨[], rfl, rfl, trivial⟩
  | cons frame frames ih =>
    obtain ⟨state, s', hstep, hpose, htime, hnear⟩ :=
      @estimateFrame_spec config method bias htrack s frame
    obtain ⟨states, hstates, hlength, hfollows⟩ := ih s'
    refine ⟨state :: states, ?_, congrArg Nat.succ hlength, hnear, ?_⟩
    · unfold estimateFrames
      rw [hstep]
      dsimp only [Option.bind_eq_bind, Option.bind_some]
      rw [hstates]
      rfl
    · rwa [hpose, htime] at hfollows

end Drive

/-! ## Logs that are accepted -/

section Logs

variable {input : Js} {log : Log}

theorem within_spec {value : Js} {limits : ℚ × ℚ} {x : ℚ} (h : within value limits = some x) :
    limits.1 ≤ x ∧ x ≤ limits.2 :=
  of_decide_eq_true (Option.filter_eq_some_iff.1 h).2

theorem track_of_valid {value : Js} {config : Config} (h : validateConfig value = .ok config) :
    config.track ≠ 0 := by
  unfold validateConfig at h
  split at h
  · rename_i radius track rangeMax _ htrack _
    split at h
    · cases h
      have hlow : TRACK.1 ≤ track := (within_spec htrack).1
      have hpos : (0 : ℚ) < TRACK.1 := by
        unfold TRACK
        norm_num
      exact (hpos.trans_le hlow).ne'
    · cases h
  · cases h

theorem length_validateFrames {rangeMax : ℚ} {items : List Js} {index points : ℕ}
    {previousTime : ℚ} {frames : List Frame}
    (h : validateFrames rangeMax index previousTime points items = .ok frames) :
    frames.length = items.length := by
  induction items generalizing index points previousTime frames with
  | nil =>
    cases h
    rfl
  | cons frame rest ih =>
    unfold validateFrames at h
    cases hframe : validateFrame frame index previousTime rangeMax with
    | error text =>
      rw [hframe] at h
      cases h
    | ok valid =>
      rw [hframe] at h
      dsimp only [bind, Except.bind] at h
      split at h
      · cases h
      · cases hrest : validateFrames rangeMax (index + 1) valid.t (points + valid.ranges.length)
            rest with
        | error text =>
          rw [hrest] at h
          cases h
        | ok others =>
          rw [hrest] at h
          cases h
          exact congrArg Nat.succ (ih hrest)

theorem log_of_valid (h : validateSlamLog input = .ok log) :
    log.config.track ≠ 0 ∧ FRAMES.1 ≤ log.frames.length := by
  unfold validateSlamLog at h
  split at h
  · cases h
  · cases hconfig : validateConfig (input.prop (units "config")) with
    | error text =>
      rw [hconfig] at h
      cases h
    | ok config =>
      rw [hconfig] at h
      dsimp only [bind, Except.bind] at h
      split at h
      · rename_i items _
        split at h
        · cases h
        · rename_i hcount
          cases hframes : validateFrames config.rangeMax 0 0 0 items with
          | error text =>
            rw [hframes] at h
            cases h
          | ok frames =>
            rw [hframes] at h
            cases h
            refine ⟨track_of_valid hconfig, ?_⟩
            rw [length_validateFrames hframes]
            exact not_lt.1 fun hfew => hcount (.inl hfew)
      · cases h

end Logs

def stillFrame (t : ℚ) : Js :=
  .obj [(units "t", .num (.fin t)), (units "leftRpm", .num (.fin 0)),
    (units "rightRpm", .num (.fin 0)), (units "gyroZ", .num (.fin 0)),
    (units "angleMin", .num (.fin 0)), (units "angleIncrement", .num (.fin (1 / 2))),
    (units "ranges", .arr (List.replicate 12 .null))]

def stillInput : Js :=
  .obj [(units "format", .str (units "robo-lab-sensors-v1")),
    (units "config", .obj [(units "radius", .num (.fin (1 / 10))),
      (units "track", .num (.fin (3 / 10))), (units "rangeMax", .num (.fin 3))]),
    (units "frames", .arr [stillFrame 1, stillFrame 2, stillFrame 3])]

def stillLog : Log where
  config := ⟨1 / 10, 3 / 10, 3, ⟨0, 0, 0⟩⟩
  frames := [1, 2, 3].map fun t => ⟨t, 0, 0, 0, 0, 1 / 2, List.replicate 12 none⟩
  stationarySeconds := 0

theorem validateFrame_still (index : ℕ) {t previousTime : ℚ} (hlater : previousTime < t)
    (hsoon : t - previousTime ≤ 2) : validateFrame (stillFrame t) index previousTime 3 =
      .ok ⟨t, 0, 0, 0, 0, 1 / 2, List.replicate 12 none⟩ := by
  have hranges : rangesOf (.arr (List.replicate 12 .null)) (1 / 2) 3 =
      some (List.replicate 12 none) := by
    have hpi := Real.pi_gt_three
    unfold rangesOf
    dsimp only
    rw [if_neg]
    · rfl
    · rw [List.length_replicate]
      unfold BEAMS
      norm_num
      linarith
  have hnumbers : ((stillFrame t).prop (units "t")).finite = some t ∧
      ((stillFrame t).prop (units "leftRpm")).finite = some 0 ∧
      ((stillFrame t).prop (units "rightRpm")).finite = some 0 ∧
      ((stillFrame t).prop (units "gyroZ")).finite = some 0 ∧
      ((stillFrame t).prop (units "angleMin")).finite = some 0 ∧
      ((stillFrame t).prop (units "angleIncrement")).finite = some (1 / 2) :=
    ⟨rfl, rfl, rfl, rfl, rfl, rfl⟩
  have harray : (stillFrame t).prop (units "ranges") = .arr (List.replicate 12 .null) := rfl
  obtain ⟨ht, hleft, hright, hgyro, hmin, hincrement⟩ := hnumbers
  unfold validateFrame
  simp only [ht, hleft, hright, hgyro, hmin, hincrement, harray, hranges]
  rw [if_neg]
  unfold SAMPLE_PERIOD RPM GYRO
  rw [abs_zero]
  push Not
  exact ⟨hlater, hsoon, by norm_num, by norm_num, by norm_num⟩

theorem within_fin {x low high : ℚ} (hlow : low ≤ x) (hhigh : x ≤ high) :
    within (.num (.fin x)) (low, high) = some x :=
  Option.filter_eq_some_iff.2 ⟨rfl, decide_eq_true ⟨hlow, hhigh⟩⟩

theorem validateConfig_still :
    validateConfig (stillInput.prop (units "config")) = .ok stillLog.config := by
  have hradius : within ((stillInput.prop (units "config")).prop (units "radius")) RADIUS =
      some (1 / 10) := within_fin (by norm_num) (by norm_num)
  have htrack : within ((stillInput.prop (units "config")).prop (units "track")) TRACK =
      some (3 / 10) := within_fin (by norm_num) (by norm_num)
  have hrange : within ((stillInput.prop (units "config")).prop (units "rangeMax")) RANGE_MAX =
      some 3 := within_fin (by norm_num) (by norm_num)
  unfold validateConfig
  rw [hradius, htrack, hrange]
  rfl

theorem validate_still : validateSlamLog stillInput = .ok stillLog := by
  have hformat : isFormat (stillInput.prop (units "format")) = true := rfl
  have hframes : stillInput.prop (units "frames") =
      .arr [stillFrame 1, stillFrame 2, stillFrame 3] := rfl
  have hvalid : validateFrames 3 0 0 0 [stillFrame 1, stillFrame 2, stillFrame 3] =
      .ok stillLog.frames := by
    simp only [validateFrames, validateFrame_still 0 (show (0 : ℚ) < 1 by norm_num) (by norm_num),
      validateFrame_still 1 (show (1 : ℚ) < 2 by norm_num) (by norm_num),
      validateFrame_still 2 (show (2 : ℚ) < 3 by norm_num) (by norm_num), bind, Except.bind]
    rfl
  unfold validateSlamLog
  rw [hformat, validateConfig_still, hframes]
  dsimp only [bind, Except.bind]
  rw [show stillLog.config.rangeMax = 3 from rfl, hvalid]
  rfl

end Questix.LabPage.SlamEngine
