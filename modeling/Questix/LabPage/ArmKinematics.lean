/-
Questix.LabPage.ArmKinematics — the two-joint arm (`arm/core.js`), over the
reals: where its tip is for two angles, and the angles that bring it to a
target.

Whatever the elbow's bend is, the shoulder puts the tip in the direction of the
target (`tip_poseForBend`), at the distance that the bend gives (`reach_sq`); so
a pose is right when its bend is. The bend comes from the law of cosines, cut
off at the stretched and at the folded arm.
-/
import Mathlib.Analysis.SpecialFunctions.Trigonometric.Inverse
import Mathlib.Tactic.LinearCombination
import Questix.Lib.Plane

namespace Questix.LabPage.Arm

open Questix.Lib
open Real

structure PointXZ where
  x : ℝ
  z : ℝ

/-- The lengths of the bars, in mm, and what the joints may take, in degrees. -/
structure Model where
  l1 : ℝ
  l2 : ℝ
  shoulderLimits : ℝ × ℝ
  elbowLimits : ℝ × ℝ

/-- The angles of the shoulder and of the elbow, in degrees. -/
structure Pose where
  shoulder : ℝ
  elbow : ℝ

structure Forward where
  base : PointXZ
  elbow : PointXZ
  tip : PointXZ
  angle : ℝ

structure Solution where
  q : Pose
  allowed : Bool
  tip : PointXZ

inductive Reason where
  | far
  | near
  | limits
  | ok
  deriving DecidableEq

structure Answer where
  reason : Reason
  solutions : List Solution
  r : ℝ
  singular : Bool

noncomputable section

def REACH_TOLERANCE : ℝ := 1 / 10 ^ 7

def LIMIT_TOLERANCE : ℝ := 1 / 10 ^ 7

def STRAIGHT_TOLERANCE : ℝ := 1 / 10 ^ 9

def SINGULAR_SINE : ℝ := 1 / 20

def toRadians (degrees : ℝ) : ℝ := degrees * π / 180
def toDegrees (radians : ℝ) : ℝ := radians * 180 / π
def clamp (value low high : ℝ) : ℝ := max low (min high value)

/-- `a % b`: the quotient is cut off towards 0. -/
def remainder (a b : ℝ) : ℝ := a - b * if 0 ≤ a / b then (⌊a / b⌋ : ℝ) else ⌈a / b⌉

def wrap (degrees : ℝ) : ℝ := remainder (remainder (degrees + 180) 360 + 360) 360 - 180

def armFK (q : Pose) (model : Model) : Forward :=
  let shoulder := toRadians q.shoulder
  let elbowBend := toRadians q.elbow
  let elbow : PointXZ := { x := model.l1 * cos shoulder, z := model.l1 * sin shoulder }
  { base := { x := 0, z := 0 }
    elbow := elbow
    tip :=
      { x := elbow.x + model.l2 * cos (shoulder + elbowBend)
        z := elbow.z + model.l2 * sin (shoulder + elbowBend) }
    angle := q.shoulder + q.elbow }

def withinLimit (angle : ℝ) (limit : ℝ × ℝ) : Bool :=
  decide (limit.1 - LIMIT_TOLERANCE ≤ angle) && decide (angle ≤ limit.2 + LIMIT_TOLERANCE)

def withinLimits (q : Pose) (model : Model) : Bool :=
  withinLimit q.shoulder model.shoulderLimits && withinLimit q.elbow model.elbowLimits

def poseForBend (target : PointXZ) (bend : ℝ) (model : Model) (limited : Bool) : Solution :=
  let shoulder := atan2 target.z target.x -
    atan2 (model.l2 * sin bend) (model.l1 + model.l2 * cos bend)
  let q : Pose := ⟨wrap (toDegrees shoulder), wrap (toDegrees bend)⟩
  { q := q, allowed := !limited || withinLimits q model, tip := (armFK q model).tip }

def stretched (model : Model) : ℝ := model.l1 + model.l2
def folded (model : Model) : ℝ := |model.l1 - model.l2|

/-- The elbow's bend for a target at this distance. -/
def bendFor (model : Model) (distance : ℝ) : ℝ :=
  arccos (clamp ((distance * distance - model.l1 ^ 2 - model.l2 ^ 2) / (2 * model.l1 * model.l2))
    (-1) 1)

/-- Whether the arm counts as straight. -/
def straight (bend : ℝ) : Prop := bend < STRAIGHT_TOLERANCE ∨ |bend - π| < STRAIGHT_TOLERANCE

/-- The coordinates of the target are reals, so they are finite. -/
def armIK (target : PointXZ) (limited : Bool) (model : Model) : Answer :=
  let distance := hypot target.x target.z
  if stretched model + REACH_TOLERANCE < distance ∨ distance < folded model - REACH_TOLERANCE then
    { reason := if stretched model < distance then .far else .near
      solutions := [], r := distance, singular := false }
  else
    let bend := bendFor model distance
    let _ := Classical.propDecidable (straight bend)
    let bends := if straight bend then [bend] else [bend, -bend]
    let solutions := bends.map fun angle => poseForBend target angle model limited
    { reason := if solutions.any (·.allowed) then .ok else .limits
      solutions := solutions
      r := distance
      singular := decide (|sin bend| < SINGULAR_SINE) }

end

/-! ## Angles in degrees -/

def SameAngle (a b : ℝ) : Prop := ∃ k : ℤ, a = b + k * 360

def SamePose (p q : Pose) : Prop := SameAngle p.shoulder q.shoulder ∧ SameAngle p.elbow q.elbow

theorem toRadians_toDegrees (radians : ℝ) : toRadians (toDegrees radians) = radians := by
  rw [toRadians, toDegrees]
  field_simp

theorem remainder_spec (a : ℝ) {b : ℝ} (hb : 0 < b) :
    (∃ k : ℤ, remainder a b = a + k * b) ∧ |remainder a b| < b ∧ (0 ≤ a → 0 ≤ remainder a b) := by
  unfold remainder
  have hdiv : b * (a / b) = a := mul_div_cancel₀ a hb.ne'
  split
  · rename_i hpos
    have hfloor := Int.floor_le (a / b)
    have hceil := Int.lt_floor_add_one (a / b)
    have hlow : b * ⌊a / b⌋ ≤ a := by nlinarith
    have hhigh : a < b * ⌊a / b⌋ + b := by nlinarith
    refine ⟨⟨-⌊a / b⌋, by push_cast; ring⟩, abs_lt.2 ⟨by linarith, by linarith⟩, fun _ => ?_⟩
    linarith
  · rename_i hneg
    have hfloor := Int.le_ceil (a / b)
    have hceil := Int.ceil_lt_add_one (a / b)
    have hlow : a ≤ b * ⌈a / b⌉ := by nlinarith
    have hhigh : b * ⌈a / b⌉ < a + b := by nlinarith
    refine ⟨⟨-⌈a / b⌉, by push_cast; ring⟩, abs_lt.2 ⟨by linarith, by linarith⟩, fun ha => ?_⟩
    exact absurd (div_nonneg ha hb.le) hneg

theorem wrap_spec (degrees : ℝ) :
    SameAngle (wrap degrees) degrees ∧ -180 ≤ wrap degrees ∧ wrap degrees < 180 := by
  have h360 : (0 : ℝ) < 360 := by norm_num
  obtain ⟨⟨k, hk⟩, hsmall, -⟩ := remainder_spec (degrees + 180) h360
  obtain ⟨⟨m, hm⟩, hsmall', hpos⟩ := remainder_spec (remainder (degrees + 180) 360 + 360) h360
  rw [abs_lt] at hsmall hsmall'
  have hnonneg := hpos (by linarith)
  unfold wrap
  refine ⟨⟨k + m + 1, ?_⟩, by linarith, by linarith⟩
  rw [hm, hk]
  push_cast
  ring

theorem cos_sin_toRadians {a b : ℝ} (h : SameAngle a b) :
    cos (toRadians a) = cos (toRadians b) ∧ sin (toRadians a) = sin (toRadians b) := by
  obtain ⟨k, rfl⟩ := h
  have hturn : toRadians (b + k * 360) = toRadians b + k * (2 * π) := by
    rw [toRadians, toRadians]
    ring
  rw [hturn]
  exact ⟨cos_add_int_mul_two_pi _ k, sin_add_int_mul_two_pi _ k⟩

theorem sameAngle_of {degrees radians : ℝ} (hcos : cos (toRadians degrees) = cos radians)
    (hsin : sin (toRadians degrees) = sin radians) :
    SameAngle degrees (wrap (toDegrees radians)) := by
  obtain ⟨k, hk⟩ := exists_turns hcos hsin
  obtain ⟨⟨m, hm⟩, -⟩ := wrap_spec (toDegrees radians)
  refine ⟨k - m, ?_⟩
  rw [hm, toDegrees]
  rw [toRadians] at hk
  have hdegrees : degrees = (degrees * π / 180) * 180 / π := by field_simp
  rw [hdegrees, hk]
  field_simp
  push_cast
  ring

end Questix.LabPage.Arm

/-! The inverse kinematics is sound and
complete.

Seen from the shoulder an arm with a bent elbow is one bar: its length is
`barLength`, and its direction is off the first bar by an angle that the bend
decides. Both directions of the result come from this: a returned pose turns that
bar towards the target, and a pose that reaches the target has it there. -/

namespace Questix.LabPage.Arm

open Questix.Lib
open Real

variable {model : Model} {target : PointXZ} {limited : Bool}

/-! ## The arm as one bar -/

noncomputable def along (model : Model) (bend : ℝ) : ℝ := model.l1 + model.l2 * cos bend

noncomputable def across (model : Model) (bend : ℝ) : ℝ := model.l2 * sin bend

/-- The distance of the tip from the shoulder. -/
noncomputable def barLength (model : Model) (bend : ℝ) : ℝ :=
  hypot (along model bend) (across model bend)

theorem barLength_sq (model : Model) (bend : ℝ) : barLength model bend ^ 2 =
    model.l1 ^ 2 + model.l2 ^ 2 + 2 * model.l1 * model.l2 * cos bend := by
  rw [barLength, hypot_sq, along, across]
  linear_combination model.l2 ^ 2 * cos_sq_add_sin_sq bend

theorem barLength_neg (model : Model) (bend : ℝ) :
    barLength model (-bend) = barLength model bend := by
  rw [barLength, barLength, hypot, hypot, along, along, across, across, cos_neg, sin_neg, mul_neg,
    neg_sq]

theorem tip_armFK (q : Pose) (model : Model) :
    (armFK q model).tip =
      { x := along model (toRadians q.elbow) * cos (toRadians q.shoulder) -
          across model (toRadians q.elbow) * sin (toRadians q.shoulder)
        z := along model (toRadians q.elbow) * sin (toRadians q.shoulder) +
          across model (toRadians q.elbow) * cos (toRadians q.shoulder) } := by
  simp only [armFK, along, across, cos_add, sin_add, PointXZ.mk.injEq]
  constructor <;> ring

theorem tip_eq (q : Pose) (model : Model) {shoulder bend : ℝ}
    (hshoulder : cos (toRadians q.shoulder) = cos shoulder ∧
      sin (toRadians q.shoulder) = sin shoulder)
    (hbend : cos (toRadians q.elbow) = cos bend ∧ sin (toRadians q.elbow) = sin bend) :
    (armFK q model).tip =
      { x := barLength model bend * cos (shoulder + atan2 (across model bend) (along model bend))
        z := barLength model bend *
          sin (shoulder + atan2 (across model bend) (along model bend)) } := by
  have hcos := hypot_mul_cos (along model bend) (across model bend)
  have hsin := hypot_mul_sin (along model bend) (across model bend)
  have halong : along model (toRadians q.elbow) = along model bend := by
    rw [along, along, hbend.1]
  have hacross : across model (toRadians q.elbow) = across model bend := by
    rw [across, across, hbend.2]
  rw [tip_armFK, halong, hacross, hshoulder.1, hshoulder.2, PointXZ.mk.injEq, barLength, cos_add,
    sin_add]
  constructor
  · linear_combination -cos shoulder * hcos + sin shoulder * hsin
  · linear_combination -sin shoulder * hcos - cos shoulder * hsin

theorem tip_poseForBend (target : PointXZ) (bend : ℝ) (model : Model) (limited : Bool) :
    (armFK (poseForBend target bend model limited).q model).tip =
      { x := barLength model bend * cos (atan2 target.z target.x)
        z := barLength model bend * sin (atan2 target.z target.x) } := by
  have hshoulder := cos_sin_toRadians (wrap_spec (toDegrees (atan2 target.z target.x -
    atan2 (across model bend) (along model bend)))).1
  have hbend := cos_sin_toRadians (wrap_spec (toDegrees bend)).1
  rw [toRadians_toDegrees] at hshoulder hbend
  refine (tip_eq (poseForBend target bend model limited).q model hshoulder hbend).trans ?_
  rw [sub_add_cancel]

/-! ## The bend for a distance -/

section Bend

variable {distance : ℝ} (h1 : 0 < model.l1) (h2 : 0 < model.l2)

/-- The cosine of the bend before it is cut off. -/
noncomputable def cosine (model : Model) (distance : ℝ) : ℝ :=
  (distance * distance - model.l1 ^ 2 - model.l2 ^ 2) / (2 * model.l1 * model.l2)

theorem cos_bendFor (model : Model) (distance : ℝ) :
    cos (bendFor model distance) = clamp (cosine model distance) (-1) 1 := by
  refine cos_arccos (le_max_left _ _) (max_le (by norm_num) (min_le_left _ _))

include h1 h2 in
theorem cosine_mul (distance : ℝ) : 2 * model.l1 * model.l2 * cosine model distance =
    distance ^ 2 - model.l1 ^ 2 - model.l2 ^ 2 := by
  have hpos : 2 * model.l1 * model.l2 ≠ 0 := by positivity
  rw [cosine, mul_div_cancel₀ _ hpos, sq distance]

include h1 h2 in
theorem barLength_ring (hd : 0 ≤ distance) (hfar : distance ≤ stretched model)
    (hnear : folded model ≤ distance) : barLength model (bendFor model distance) = distance := by
  have hpos : 0 < 2 * model.l1 * model.l2 := by positivity
  have hcos := cosine_mul h1 h2 distance
  have hsquare : (model.l1 - model.l2) ^ 2 ≤ distance ^ 2 := by
    rw [← sq_abs]
    exact pow_le_pow_left₀ (abs_nonneg _) hnear 2
  have hsquare' : distance ^ 2 ≤ (model.l1 + model.l2) ^ 2 := pow_le_pow_left₀ hd hfar 2
  have hlow : -1 ≤ cosine model distance := by nlinarith
  have hhigh : cosine model distance ≤ 1 := by nlinarith
  have hsq := barLength_sq model (bendFor model distance)
  rw [cos_bendFor, clamp, min_eq_right hhigh, max_eq_right hlow] at hsq
  refine (pow_left_inj₀ (hypot_nonneg _ _) hd two_ne_zero).1 ?_
  exact hsq.trans (by linarith)

include h1 h2 in
theorem barLength_far (hfar : stretched model < distance) :
    barLength model (bendFor model distance) = stretched model := by
  have hpos : 0 < 2 * model.l1 * model.l2 := by positivity
  have hcos := cosine_mul h1 h2 distance
  have hstretched : 0 ≤ stretched model := (add_pos h1 h2).le
  have hsquare : (model.l1 + model.l2) ^ 2 ≤ distance ^ 2 :=
    pow_le_pow_left₀ hstretched hfar.le 2
  have hhigh : 1 ≤ cosine model distance := by nlinarith
  have hsq := barLength_sq model (bendFor model distance)
  rw [cos_bendFor, clamp, min_eq_left hhigh, max_eq_right (by norm_num)] at hsq
  refine (pow_left_inj₀ (hypot_nonneg _ _) hstretched two_ne_zero).1 ?_
  refine hsq.trans ?_
  rw [stretched]
  ring

include h1 h2 in
theorem barLength_near (hd : 0 ≤ distance) (hnear : distance < folded model) :
    barLength model (bendFor model distance) = folded model := by
  have hpos : 0 < 2 * model.l1 * model.l2 := by positivity
  have hcos := cosine_mul h1 h2 distance
  have hsquare : distance ^ 2 ≤ (model.l1 - model.l2) ^ 2 := by
    rw [← sq_abs (model.l1 - model.l2)]
    exact pow_le_pow_left₀ hd hnear.le 2
  have hfolded : 0 ≤ folded model := abs_nonneg (model.l1 - model.l2)
  have hlow : cosine model distance ≤ -1 := by nlinarith
  have hsq := barLength_sq model (bendFor model distance)
  rw [cos_bendFor, clamp, max_eq_left ((min_le_right _ _).trans hlow)] at hsq
  refine (pow_left_inj₀ (hypot_nonneg _ _) hfolded two_ne_zero).1 ?_
  refine hsq.trans ?_
  rw [folded, sq_abs]
  ring

end Bend

/-! ## What is returned -/

noncomputable def apart (p q : PointXZ) : ℝ := hypot (p.x - q.x) (p.z - q.z)

/-- Too far outside the ring that the arm reaches. -/
def OutOfReach (model : Model) (target : PointXZ) : Prop :=
  stretched model + REACH_TOLERANCE < hypot target.x target.z ∨
    hypot target.x target.z < folded model - REACH_TOLERANCE

def InRing (model : Model) (target : PointXZ) : Prop :=
  folded model ≤ hypot target.x target.z ∧ hypot target.x target.z ≤ stretched model

theorem tolerance_pos : 0 < REACH_TOLERANCE := by
  rw [REACH_TOLERANCE]
  positivity

theorem armIK_out (h : OutOfReach model target) :
    (armIK target limited model).solutions = [] ∧
      (armIK target limited model).reason =
        if stretched model < hypot target.x target.z then .far else .near := by
  unfold OutOfReach at h
  unfold armIK
  dsimp only
  rw [if_pos h]
  exact ⟨rfl, rfl⟩

theorem armIK_solutions (h : ¬ OutOfReach model target) :
    ∃ bends, (armIK target limited model).solutions =
        bends.map (fun bend => poseForBend target bend model limited) ∧
      bends ≠ [] ∧
      (∀ bend ∈ bends, bend = bendFor model (hypot target.x target.z) ∨
        bend = -bendFor model (hypot target.x target.z)) ∧
      (¬ straight (bendFor model (hypot target.x target.z)) →
        bends = [bendFor model (hypot target.x target.z),
          -bendFor model (hypot target.x target.z)]) := by
  unfold OutOfReach at h
  unfold armIK
  dsimp only
  rw [if_neg h]
  refine ⟨_, rfl, ?_, ?_, fun hbent => if_neg hbent⟩
  · split <;> exact List.cons_ne_nil _ _
  · intro bend hbend
    split at hbend
    · exact .inl (List.mem_singleton.1 hbend)
    · simpa using hbend

theorem apart_poseForBend (bend : ℝ) :
    apart (armFK (poseForBend target bend model limited).q model).tip target =
      |barLength model bend - hypot target.x target.z| := by
  have hx := hypot_mul_cos target.x target.z
  have hz := hypot_mul_sin target.x target.z
  have hpolar : apart (armFK (poseForBend target bend model limited).q model).tip target =
      hypot (barLength model bend * cos (atan2 target.z target.x) -
          hypot target.x target.z * cos (atan2 target.z target.x))
        (barLength model bend * sin (atan2 target.z target.x) -
          hypot target.x target.z * sin (atan2 target.z target.x)) := by
    rw [tip_poseForBend, apart, hx, hz]
  rw [hpolar, ← sub_mul, ← sub_mul, hypot, mul_pow, mul_pow, ← mul_add, cos_sq_add_sin_sq, mul_one,
    Real.sqrt_sq_eq_abs]

theorem barLength_reach (h1 : 0 < model.l1) (h2 : 0 < model.l2) (h : ¬ OutOfReach model target) :
    |barLength model (bendFor model (hypot target.x target.z)) - hypot target.x target.z| ≤
        REACH_TOLERANCE ∧
      (InRing model target →
        barLength model (bendFor model (hypot target.x target.z)) = hypot target.x target.z) := by
  have hd := hypot_nonneg target.x target.z
  obtain ⟨hfar, hnear⟩ := not_or.1 h
  rw [not_lt] at hfar hnear
  have htol := tolerance_pos
  refine ⟨?_, fun hring => barLength_ring h1 h2 hd hring.2 hring.1⟩
  rcases lt_or_ge (stretched model) (hypot target.x target.z) with hout | hin
  · rw [barLength_far h1 h2 hout, abs_le]
    constructor <;> linarith
  rcases lt_or_ge (hypot target.x target.z) (folded model) with hclose | hopen
  · rw [barLength_near h1 h2 hd hclose, abs_le]
    constructor <;> linarith
  · rw [barLength_ring h1 h2 hd hin hopen, sub_self, abs_zero]
    exact htol.le

/-! ## Every pose that reaches -/

section Complete

variable {q : Pose}

theorem barLength_pos (h : model.l1 ≠ model.l2) (h1 : 0 < model.l1) (h2 : 0 < model.l2)
    (bend : ℝ) : 0 < barLength model bend := by
  have hpos : 0 < 2 * model.l1 * model.l2 := by positivity
  have hdiff : 0 < (model.l1 - model.l2) ^ 2 := sq_pos_of_ne_zero (sub_ne_zero.2 h)
  have hsq := barLength_sq model bend
  have hcos := neg_one_le_cos bend
  refine lt_of_le_of_ne (hypot_nonneg _ _) fun hzero => ?_
  rw [← hzero] at hsq
  nlinarith

theorem hypot_polar {r : ℝ} (hr : 0 ≤ r) (angle : ℝ) :
    hypot (r * cos angle) (r * sin angle) = r := by
  rw [hypot, mul_pow, mul_pow, ← mul_add, cos_sq_add_sin_sq, mul_one, Real.sqrt_sq hr]

theorem inRing_of_barLength (h1 : 0 < model.l1) (h2 : 0 < model.l2) {bend : ℝ}
    (h : hypot target.x target.z = barLength model bend) : InRing model target := by
  have hpos : 0 < 2 * model.l1 * model.l2 := by positivity
  have hsq := barLength_sq model bend
  have hnonneg : 0 ≤ barLength model bend := hypot_nonneg _ _
  rw [InRing, h]
  constructor
  · refine abs_le_of_sq_le_sq ?_ hnonneg
    nlinarith [neg_one_le_cos bend]
  · refine le_of_sq_le_sq ?_ (add_pos h1 h2).le
    rw [stretched]
    nlinarith [cos_le_one bend]

theorem bendFor_barLength (h1 : 0 < model.l1) (h2 : 0 < model.l2) (bend : ℝ) :
    cos (bendFor model (barLength model bend)) = cos bend ∧
      (sin (bendFor model (barLength model bend)) = sin bend ∨
        sin (-bendFor model (barLength model bend)) = sin bend) := by
  have hpos : 2 * model.l1 * model.l2 ≠ 0 := by positivity
  have hcosine : cosine model (barLength model bend) = cos bend := by
    refine mul_left_cancel₀ hpos ?_
    rw [cosine_mul h1 h2, barLength_sq]
    ring
  have hcos : cos (bendFor model (barLength model bend)) = cos bend := by
    rw [cos_bendFor, hcosine, clamp, min_eq_right (cos_le_one _), max_eq_right (neg_one_le_cos _)]
  refine ⟨hcos, ?_⟩
  rw [sin_neg]
  have hsin := cos_sq_add_sin_sq (bendFor model (barLength model bend))
  have hsin' := cos_sq_add_sin_sq bend
  rw [hcos] at hsin
  have hsq : sin (bendFor model (barLength model bend)) ^ 2 = sin bend ^ 2 := by linarith
  exact (sq_eq_sq_iff_eq_or_eq_neg.1 hsq).imp_right fun h => by rw [h, neg_neg]

theorem tip_reached (h : (armFK q model).tip = target) :
    target.x = barLength model (toRadians q.elbow) * cos (toRadians q.shoulder +
        atan2 (across model (toRadians q.elbow)) (along model (toRadians q.elbow))) ∧
      target.z = barLength model (toRadians q.elbow) * sin (toRadians q.shoulder +
        atan2 (across model (toRadians q.elbow)) (along model (toRadians q.elbow))) := by
  rw [tip_eq q model ⟨rfl, rfl⟩ ⟨rfl, rfl⟩] at h
  rw [← h]
  exact ⟨rfl, rfl⟩

theorem hypot_reached (h : (armFK q model).tip = target) :
    hypot target.x target.z = barLength model (toRadians q.elbow) := by
  obtain ⟨hx, hz⟩ := tip_reached h
  rw [hx, hz]
  exact hypot_polar (hypot_nonneg _ _) _

theorem samePose_of_bend (hne : model.l1 ≠ model.l2) (h1 : 0 < model.l1) (h2 : 0 < model.l2)
    (h : (armFK q model).tip = target) {bend : ℝ} (hcos : cos bend = cos (toRadians q.elbow))
    (hsin : sin bend = sin (toRadians q.elbow)) :
    SamePose q (poseForBend target bend model limited).q := by
  obtain ⟨hx, hz⟩ := tip_reached h
  have hdirection := cos_sin_atan2_mul (barLength_pos hne h1 h2 (toRadians q.elbow))
    (toRadians q.shoulder +
      atan2 (across model (toRadians q.elbow)) (along model (toRadians q.elbow)))
  rw [← hx, ← hz] at hdirection
  have halong : along model (toRadians q.elbow) = along model bend := by rw [along, along, hcos]
  have hacross : across model (toRadians q.elbow) = across model bend := by
    rw [across, across, hsin]
  rw [halong, hacross] at hdirection
  constructor
  · refine @sameAngle_of q.shoulder (atan2 target.z target.x -
      atan2 (across model bend) (along model bend)) ?_ ?_
    · rw [cos_sub, hdirection.1, hdirection.2, ← cos_sub, add_sub_cancel_right]
    · rw [sin_sub, hdirection.1, hdirection.2, ← sin_sub, add_sub_cancel_right]
  · exact sameAngle_of hcos.symm hsin.symm

end Complete

/-! ## The inverse kinematics -/

/-- What an answer is to be. -/
structure Solved (model : Model) (target : PointXZ) (answer : Answer) : Prop where
  unreached_iff : answer.solutions = [] ↔ OutOfReach model target
  far : stretched model + REACH_TOLERANCE < hypot target.x target.z → answer.reason = .far
  near : hypot target.x target.z < folded model - REACH_TOLERANCE → answer.reason = .near
  reaches : ∀ solution ∈ answer.solutions,
    apart (armFK solution.q model).tip target ≤ REACH_TOLERANCE
  exact_in_ring : InRing model target → ∀ solution ∈ answer.solutions,
    (armFK solution.q model).tip = target
  wrapped : ∀ solution ∈ answer.solutions,
    (-180 ≤ solution.q.shoulder ∧ solution.q.shoulder < 180) ∧
      (-180 ≤ solution.q.elbow ∧ solution.q.elbow < 180)
  complete : ¬ straight (bendFor model (hypot target.x target.z)) →
    ∀ q, (armFK q model).tip = target → ∃ solution ∈ answer.solutions, SamePose q solution.q

theorem eq_of_apart {p q : PointXZ} (h : apart p q = 0) : p = q := by
  have hsum : (p.x - q.x) ^ 2 + (p.z - q.z) ^ 2 = 0 := by
    rw [← hypot_sq]
    exact pow_eq_zero_iff two_ne_zero |>.2 h
  have hx : p.x - q.x = 0 := by nlinarith [sq_nonneg (p.x - q.x), sq_nonneg (p.z - q.z)]
  have hz : p.z - q.z = 0 := by nlinarith [sq_nonneg (p.x - q.x), sq_nonneg (p.z - q.z)]
  cases p
  cases q
  rw [PointXZ.mk.injEq]
  exact ⟨sub_eq_zero.1 hx, sub_eq_zero.1 hz⟩

theorem solutions_eq_nil : (armIK target limited model).solutions = [] ↔
    OutOfReach model target := by
  constructor
  · intro hnone
    by_contra hreach
    obtain ⟨bends, hsolutions, hbends, -⟩ := @armIK_solutions model target limited hreach
    rw [hsolutions, List.map_eq_nil_iff] at hnone
    exact hbends hnone
  · exact fun hout => (armIK_out hout).1

theorem forall_solutions {P : Solution → Prop}
    (h : ¬ OutOfReach model target → ∀ bend,
      barLength model bend = barLength model (bendFor model (hypot target.x target.z)) →
        P (poseForBend target bend model limited)) :
    ∀ solution ∈ (armIK target limited model).solutions, P solution := by
  by_cases hreach : OutOfReach model target
  · rw [(armIK_out hreach).1]
    exact fun solution hmem => absurd hmem List.not_mem_nil
  · obtain ⟨bends, hsolutions, -, hbends, -⟩ := @armIK_solutions model target limited hreach
    rw [hsolutions, List.forall_mem_map]
    intro bend hbend
    refine h hreach bend ?_
    rcases hbends bend hbend with rfl | rfl
    · rfl
    · exact barLength_neg model _

/-- The inverse kinematics is sound and complete. -/
theorem armIK_solved (h1 : 0 < model.l1) (h2 : 0 < model.l2) (hne : model.l1 ≠ model.l2) :
    Solved model target (armIK target limited model) where
  unreached_iff := solutions_eq_nil
  far := by
    intro hfar
    rw [(armIK_out (.inl hfar)).2, if_pos (lt_of_le_of_lt (by linarith [tolerance_pos]) hfar)]
  near := by
    intro hnear
    have hfolded : folded model ≤ stretched model :=
      abs_le.2 ⟨by rw [stretched]; linarith, by rw [stretched]; linarith⟩
    rw [(armIK_out (.inr hnear)).2, if_neg]
    exact not_lt.2 (by linarith [tolerance_pos])
  reaches := forall_solutions fun hreach bend hbend => by
    rw [apart_poseForBend, hbend]
    exact (barLength_reach h1 h2 hreach).1
  exact_in_ring := fun hring => forall_solutions fun hreach bend hbend => by
    apply eq_of_apart
    rw [apart_poseForBend, hbend, (barLength_reach h1 h2 hreach).2 hring, sub_self, abs_zero]
  wrapped := forall_solutions fun _ _ _ => ⟨(wrap_spec _).2, (wrap_spec _).2⟩
  complete := by
    intro hbent q hq
    have hdistance := hypot_reached hq
    have hring := inRing_of_barLength h1 h2 hdistance
    have hreach : ¬ OutOfReach model target := by
      rw [OutOfReach, not_or, not_lt, not_lt]
      have htol := tolerance_pos
      exact ⟨by linarith [hring.2], by linarith [hring.1]⟩
    obtain ⟨bends, hsolutions, -, -, hboth⟩ := @armIK_solutions model target limited hreach
    rw [hsolutions, hboth hbent, hdistance]
    obtain ⟨hcos, hsin⟩ := bendFor_barLength h1 h2 (toRadians q.elbow)
    rcases hsin with hsin | hsin
    · exact ⟨_, List.mem_cons_self, samePose_of_bend hne h1 h2 hq hcos hsin⟩
    · refine ⟨_, List.mem_cons_of_mem _ List.mem_cons_self, samePose_of_bend hne h1 h2 hq ?_ hsin⟩
      rw [cos_neg]
      exact hcos

def ARM_MODEL : Model := ⟨160, 130, (0, 150), (-150, 150)⟩

theorem armIK_solved_lesson : Solved ARM_MODEL ⟨200, 160⟩ (armIK ⟨200, 160⟩ false ARM_MODEL) :=
  armIK_solved (by norm_num [ARM_MODEL]) (by norm_num [ARM_MODEL]) (by norm_num [ARM_MODEL])

end Questix.LabPage.Arm
