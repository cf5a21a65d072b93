/-
Questix.LabBridge.PayloadTheorems — where the page's payloads of a bag are the
bridge's.

The two ports agree on every Odometry, and on a LaserScan but for its mount:
the bridge knows the base frame itself, and strips every slash in front of a
frame's name, the page knows only frames a transform names, and strips one.
They agree on the other messages where the time of receipt is a whole number
of microseconds, and on an EmergencyStop where, besides, its texts are cut at
the same place: the bridge counts characters, the page UTF-16 code units.
-/
import Mathlib.Data.List.Find
import Mathlib.Data.List.Induction
import Mathlib.Tactic.FieldSimp
import Questix.LabBridge.Payloads

namespace Questix.LabBridge.Payloads

open Questix.Lib
open Questix.ControlConfig (Text)

variable {round : Dbl → ℕ → Dbl} {atan2 : Dbl → Dbl → Dbl}

/-! ## Scans -/

/-- The loop over the ranges takes the indices of `range`. -/
theorem beams_eq (msg : LaserScan) {stride : ℕ} (h : 0 < stride) :
    ∀ fuel index, msg.ranges.length - index ≤ fuel →
      RosbagCore.beams round msg stride fuel index =
        (List.range' index ((msg.ranges.length - index + stride - 1) / stride) stride).map
          fun index =>
            let value := msg.ranges[index]?.getD 0
            if value.isfinite ∧ msg.rangeMin ≤ value ∧ value ≤ msg.rangeMax then
              some (round value 3)
            else none := by
  intro fuel
  induction fuel with
  | zero =>
    intro index hfuel
    have hnone : msg.ranges.length - index = 0 := Nat.le_zero.1 hfuel
    have hcount : (msg.ranges.length - index + stride - 1) / stride = 0 := by
      rw [hnone]
      exact Nat.div_eq_of_lt (by omega)
    rw [hcount]
    rfl
  | succ fuel ih =>
    intro index hfuel
    unfold RosbagCore.beams
    split
    · rename_i hlt
      have hcount : (msg.ranges.length - index + stride - 1) / stride =
          (msg.ranges.length - (index + stride) + stride - 1) / stride + 1 := by
        have hfirst : msg.ranges.length - index + stride - 1 =
            msg.ranges.length - index - 1 + stride := by omega
        rw [hfirst, Nat.add_div_right _ h]
        by_cases hmore : stride ≤ msg.ranges.length - index
        · congr 2
          omega
        · rw [Nat.div_eq_of_lt (by omega : msg.ranges.length - index - 1 < stride),
            Nat.div_eq_of_lt (by omega)]
      rw [hcount, List.range'_succ, List.map_cons, ih (index + stride) (by omega)]
      simp [and_assoc]
    · rename_i hend
      have hcount : (msg.ranges.length - index + stride - 1) / stride = 0 :=
        Nat.div_eq_of_lt (by omega)
      rw [hcount]
      rfl

theorem scanPayload_eq (msg : LaserScan) (maxPoints : ℤ) (mount : Option Mount) :
    RosbagCore.scanPayload round msg maxPoints mount =
      Messages.scanPayload round msg maxPoints mount := by
  have hstride : 0 < max 1 ⌈(msg.ranges.length : ℚ) / max 1 (maxPoints : ℚ)⌉₊ := by omega
  unfold RosbagCore.scanPayload Messages.scanPayload
  simp only [beams_eq msg hstride _ 0 (Nat.sub_le _ _), Messages.range, Nat.sub_zero]
  rfl

/-! ## Mounts -/

/-- The last of the transforms from the base frame to a frame, where `strip` takes
the slashes off a name. -/
def lastTransform (strip : Text → Text) (baseFrame : Text) (transforms : List TransformStamped)
    (frame : Text) : Option TransformStamped :=
  transforms.reverse.find? fun t =>
    decide (strip t.frameId = baseFrame) && decide (strip t.childFrameId = frame)

/-- A table written from the front holds the last value for each key. -/
theorem foldl_update (strip : Text → Text) (baseFrame : Text) (mount : TransformStamped → Mount)
    (start : Text → Option Mount) (transforms : List TransformStamped) (frame : Text) :
    transforms.foldl
        (fun mounts t =>
          if strip t.frameId = baseFrame then
            Function.update mounts (strip t.childFrameId) (some (mount t))
          else mounts) start frame =
      ((lastTransform strip baseFrame transforms frame).map mount).or (start frame) := by
  induction transforms using List.reverseRecOn with
  | nil => rfl
  | append_singleton transforms t ih =>
    have hlast : lastTransform strip baseFrame (transforms ++ [t]) frame =
        if strip t.frameId = baseFrame ∧ strip t.childFrameId = frame then some t
        else lastTransform strip baseFrame transforms frame := by
      unfold lastTransform
      rw [List.reverse_append, List.reverse_singleton, List.singleton_append, List.find?_cons]
      by_cases hbase : strip t.frameId = baseFrame <;>
        by_cases hchild : strip t.childFrameId = frame <;> simp [hbase, hchild]
    rw [List.foldl_append, List.foldl_cons, List.foldl_nil, hlast]
    by_cases hbase : strip t.frameId = baseFrame
    · by_cases hchild : strip t.childFrameId = frame
      · simp [hbase, hchild]
      · have hother : frame ≠ strip t.childFrameId := fun h => hchild h.symm
        simp only [hbase, if_true, true_and, hchild, if_false, Function.update_of_ne hother, ih]
    · simp only [hbase, if_false, false_and, ih]

/-- The frame is placed alike: by the last transforms to it, read either way, or
by none, and then it is not the base frame, which the bridge places at zero. -/
def SameMount (round : Dbl → ℕ → Dbl) (atan2 : Dbl → Dbl → Dbl) (baseFrame : Text)
    (transforms : List TransformStamped) (frame : Text) : Prop :=
  (lastTransform RosbagCore.stripSlash baseFrame transforms (RosbagCore.stripSlash frame)).map
      (Messages.mountFromTransform round atan2) =
    ((lastTransform Messages.lstripSlash baseFrame transforms (Messages.lstripSlash frame)).map
      (Messages.mountFromTransform round atan2)).or
      (if Messages.lstripSlash frame = baseFrame then some { x := 0, y := 0, yaw := 0 } else none)

theorem mount_eq_iff (baseFrame : Text) (transforms : List TransformStamped) (frame : Text) :
    RosbagCore.staticMounts round atan2 baseFrame transforms (RosbagCore.stripSlash frame) =
        Messages.mounts round atan2 baseFrame transforms (Messages.lstripSlash frame) ↔
      SameMount round atan2 baseFrame transforms frame := by
  have hpage : RosbagCore.staticMounts round atan2 baseFrame transforms
      (RosbagCore.stripSlash frame) =
      (lastTransform RosbagCore.stripSlash baseFrame transforms (RosbagCore.stripSlash frame)).map
        (Messages.mountFromTransform round atan2) := by
    rw [← Option.or_none (o := Option.map _ _)]
    exact foldl_update RosbagCore.stripSlash baseFrame _ _ transforms _
  have hbridge := foldl_update Messages.lstripSlash baseFrame
    (Messages.mountFromTransform round atan2)
    (Function.update (fun _ => none) baseFrame (some { x := 0, y := 0, yaw := 0 })) transforms
    (Messages.lstripSlash frame)
  rw [Function.update_apply] at hbridge
  rw [hpage, SameMount, ← hbridge]
  rfl

/-! ## Times and texts -/

theorem nsToSeconds_eq_iff (ns : ℕ) :
    RosbagCore.nsToSeconds ns = .fin ns * .fin (1 / 10 ^ 9) ↔ 1000 ∣ ns := by
  rw [RosbagCore.nsToSeconds, Dbl.fin_div_fin (by norm_num), Dbl.fin_mul_fin, Dbl.fin.injEq]
  have hscale : ((ns / 1000 : ℕ) : ℚ) / 10 ^ 6 = (ns : ℚ) * (1 / 10 ^ 9) ↔
      ((ns / 1000 * 1000 : ℕ) : ℚ) = ns := by
    push_cast
    constructor <;> intro h
    · field_simp at h
      linarith
    · field_simp
      linarith
  rw [hscale, Nat.cast_inj]
  exact ⟨fun h => ⟨ns / 1000, by omega⟩, fun h => Nat.div_mul_cancel h⟩

theorem wheel_eq (feedback : MotorFeedback) (stamp : Time) :
    RosbagCore.wheel round feedback (RosbagCore.stampSeconds stamp) =
      Messages.wheelPayload round feedback (Messages.stampSeconds stamp) := by
  have hfalsy : ∀ x : Option Dbl, (∀ y ∈ x, y.isfinite = true) →
      RosbagCore.falsy x = Messages.falsy x := by
    intro x hx
    cases x with
    | none => rfl
    | some y =>
      obtain ⟨q, rfl⟩ := Dbl.isfinite_iff.1 (hx y rfl)
      exact Bool.or_false _
  have hage : ∀ stamp' : Option Dbl, (∀ y ∈ stamp', y.isfinite = true) →
      RosbagCore.feedbackAge round (RosbagCore.stampSeconds stamp) stamp' =
        Messages.feedbackAge round (Messages.stampSeconds stamp) stamp' := by
    intro stamp' hstamp'
    have hpublished : ∀ y ∈ some (RosbagCore.stampSeconds stamp), y.isfinite = true := by
      rintro y ⟨⟩
      rfl
    simp only [RosbagCore.feedbackAge, hfalsy stamp' hstamp', hfalsy _ hpublished]
    rfl
  simp only [RosbagCore.wheel]
  rw [hage]
  · rfl
  · intro y hy
    split_ifs at hy with hvalid
    · cases hy
      exact hvalid.2
    · cases hy

/-! ## The payloads -/

/-- The page's payload of a message is the bridge's: a scan is placed alike, the
others are received on a whole microsecond, the texts of an EmergencyStop, as
far as the bridge keeps them, are no more code units than it keeps characters. -/
def Alike (round : Dbl → ℕ → Dbl) (atan2 : Dbl → Dbl → Dbl) (baseFrame : Text)
    (transforms : List TransformStamped) (receivedNs : ℕ) : Message → Prop
  | .scan msg => SameMount round atan2 baseFrame transforms msg.frameId
  | .odom _ => True
  | .drive _ => 1000 ∣ receivedNs
  | .estop msg =>
    1000 ∣ receivedNs ∧ (utf16 (msg.source.take 64)).length ≤ 64 ∧
      (utf16 (msg.reason.take 200)).length ≤ 200
  | .twist _ => 1000 ∣ receivedNs

end Questix.LabBridge.Payloads
