/-
Questix.CommandArbiter.DriveCapTheorems — what the drive's node publishes for
the lab.

A lab twist passes a check for finite numbers, the clamp to the caps and the
selector, in that order. The caps are finite once the node is built, so the
clamp of a finite twist is within them; the selector lets a lab command
through only where the lab has the actuator or the controller is not busy.
-/
import Questix.CommandArbiter.SourceSelectorTheorems
import Questix.CommandArbiter.ArbiterNodes

namespace Questix.CommandArbiter

open Questix.Lib

/-- The step is the controller's: every other one acts for the lab. -/
def NodeEvent.fromJoy {κ : Type} : NodeEvent κ → Bool
  | .joy _ _ => true
  | _ => false

namespace DriveArbiter

/-! ## The clamp -/

/-- A component within a cap: finite, and no larger. -/
def Within (x cap : Dbl) : Prop := x.isfinite = true ∧ Dbl.abs x ≤ Dbl.abs cap

theorem within_zero {cap : Dbl} (h : cap.isfinite = true) : Within 0 cap := by
  obtain ⟨q, rfl⟩ := Dbl.isfinite_iff.1 h
  refine ⟨rfl, ?_⟩
  show Dbl.fin |0| ≤ Dbl.fin |q|
  rw [Dbl.fin_le_fin, abs_zero]
  exact abs_nonneg q

theorem within_clamp {x cap : Dbl} (hx : x.isfinite = true) (hcap : cap.isfinite = true) :
    Within (x.clamp (-Dbl.abs cap) (Dbl.abs cap)) cap := by
  obtain ⟨v, rfl⟩ := Dbl.isfinite_iff.1 hx
  obtain ⟨q, rfl⟩ := Dbl.isfinite_iff.1 hcap
  have hle : ∀ w : ℚ, |w| ≤ |q| → Within (.fin w) (.fin q) := by
    intro w hw
    exact ⟨rfl, Dbl.fin_le_fin.2 hw⟩
  have hneg : -Dbl.abs (.fin q) = .fin (-|q|) := rfl
  have hpos : Dbl.abs (.fin q) = .fin |q| := rfl
  rw [hneg, hpos]
  unfold Dbl.clamp
  split_ifs with hlo hhi
  · exact hle _ (by rw [abs_neg, abs_abs])
  · exact hle _ (by rw [abs_abs])
  · rw [Dbl.fin_lt_fin, not_lt] at hlo hhi
    exact hle v (abs_le.2 ⟨hlo, hhi⟩)

/-! ## Steps -/

/-- The node's caps are the configured ones, which are finite. -/
structure Caps (params : Params) (s : DriveArbiter) : Prop where
  linear : s.labMaxLinear = Dbl.abs params.labMaxLinear
  angular : s.labMaxAngular = Dbl.abs params.labMaxAngular
  linear_finite : params.labMaxLinear.isfinite = true
  angular_finite : params.labMaxAngular.isfinite = true

variable {params : Params} {s : DriveArbiter}

theorem isfinite_of_abs {x : Dbl} (h : (Dbl.abs x).isfinite = true) : x.isfinite = true := by
  cases x <;> first | rfl | cases h

theorem caps_create (h : create params = some s) : Caps params s := by
  unfold create at h
  simp only at h
  split at h
  · cases h
  · rename_i hfinite
    simp only [Bool.or_eq_true, Bool.not_eq_true', not_or, Bool.not_eq_false] at hfinite
    cases h
    exact ⟨rfl, rfl, isfinite_of_abs hfinite.1, isfinite_of_abs hfinite.2⟩

theorem caps_step (h : Caps params s) (e : NodeEvent Twist) : Caps params (step s e).1 := by
  obtain ⟨hl, ha, hlf, haf⟩ := h
  cases e with
  | joy msg t =>
    simp only [step, joyCallback]
    split <;> exact ⟨hl, ha, hlf, haf⟩
  | lab msg t =>
    simp only [step, labCallback]
    split
    · split <;> exact ⟨hl, ha, hlf, haf⟩
    · exact ⟨hl, ha, hlf, haf⟩
  | permission allowed t => exact ⟨hl, ha, hlf, haf⟩
  | tick t => exact ⟨hl, ha, hlf, haf⟩

/-- A twist within the configured caps. -/
def Capped (params : Params) (twist : Twist) : Prop :=
  Within twist.linear params.labMaxLinear ∧ Within twist.angular params.labMaxAngular

theorem Caps.zero (h : Caps params s) : Capped params Twist.zero :=
  ⟨within_zero h.linear_finite, within_zero h.angular_finite⟩

theorem Caps.labTwist (h : Caps params s) {msg : Twist} (hmsg : msg.isfinite = true) :
    Capped params (s.labTwist msg) := by
  simp only [Twist.isfinite, Bool.and_eq_true] at hmsg
  rw [Capped, DriveArbiter.labTwist, h.linear, h.angular]
  exact ⟨within_clamp hmsg.1 h.linear_finite, within_clamp hmsg.2 h.angular_finite⟩

theorem labCallback_cases (s : DriveArbiter) (msg : Twist) (nowSec : ℚ) :
    (s.labCallback msg nowSec).2 = [] ∨
      (s.labCallback msg nowSec).2 = [Twist.zero] ∧
        (s.selector.source = .kLab ∨
          msg.isfinite = true ∧ s.selector.joyBusy nowSec = false) ∨
      (s.labCallback msg nowSec).2 = [s.labTwist msg] ∧ msg.isfinite = true ∧
        (s.selector.source = .kLab ∨ s.selector.joyBusy nowSec = false) := by
  unfold labCallback
  simp only
  split
  · split
    · rename_i hlab
      exact .inr (.inl ⟨rfl, .inl hlab⟩)
    · exact .inl rfl
  · rename_i hfinite
    have hmsg : msg.isfinite = true := by simpa using hfinite
    split
    · rename_i hforward
      refine .inr (.inr ⟨rfl, hmsg, ?_⟩)
      rcases (SourceSelector.onLab_forward.1 hforward).2 with hlab | ⟨-, -, hbusy⟩
      · exact .inl hlab
      · exact .inr hbusy
    · split
      · rename_i hstop
        rw [SourceSelector.onLab_stop, Bool.and_eq_true, decide_eq_true_eq] at hstop
        exact .inr (.inl ⟨rfl, .inl hstop.1⟩)
      · split
        · rename_i hidle
          simp only [Bool.and_eq_true, Bool.not_eq_true', SourceSelector.onLab_joyBusy] at hidle
          exact .inr (.inl ⟨rfl, .inr ⟨hmsg, hidle.2⟩⟩)
        · exact .inl rfl

theorem labCallback_broken {msg : Twist} {nowSec : ℚ} (hmsg : msg.isfinite = false) :
    (∀ twist ∈ (s.labCallback msg nowSec).2, twist = Twist.zero) ∧
      (s.labCallback msg nowSec).1.selector.source = .kJoy := by
  unfold labCallback
  simp only [hmsg, Bool.not_false, if_true]
  split
  · -- a neutral command leaves no run behind, permitted or not
    simp [SourceSelector.refuse, SourceSelector.onLab_source]
  · rename_i hjoy
    refine ⟨by simp, ?_⟩
    cases hsrc : s.selector.source with
    | kJoy => simp [SourceSelector.refuse, hsrc]
    | kLab => exact absurd hsrc hjoy

theorem step_capped (h : Caps params s) {e : NodeEvent Twist} (he : e.fromJoy = false) :
    ∀ twist ∈ (step s e).2, Capped params twist := by
  intro twist htwist
  cases e with
  | joy msg t => cases he
  | lab msg t =>
    rcases labCallback_cases s msg t with hout | ⟨hout, -⟩ | ⟨hout, hmsg, -⟩
    · simp [step, hout] at htwist
    · simp only [step, hout, List.mem_singleton] at htwist
      exact htwist ▸ h.zero
    · simp only [step, hout, List.mem_singleton] at htwist
      exact htwist ▸ h.labTwist hmsg
  | permission allowed t => simp [step] at htwist
  | tick t =>
    have hzero : twist = Twist.zero := by
      simp only [step, tickCallback] at htwist
      split at htwist <;> simp_all
    exact hzero ▸ h.zero

theorem step_idle {e : NodeEvent Twist} (he : e.fromJoy = false) (hout : (step s e).2 ≠ []) :
    s.selector.source = .kLab ∨ s.selector.joyBusy e.time = false := by
  cases e with
  | joy msg t => cases he
  | lab msg t =>
    rcases labCallback_cases s msg t with hnone | ⟨-, hlab | ⟨-, hidle⟩⟩ | ⟨-, -, h⟩
    · exact absurd hnone hout
    · exact .inl hlab
    · exact .inr hidle
    · exact h
  | permission allowed t => exact absurd rfl hout
  | tick t =>
    left
    by_contra hjoy
    simp [step, tickCallback, hjoy] at hout

/-! ## Every run -/

/-- What a step that acts for the lab may publish: finite twists within the
configured caps, and only where the lab has the actuator or the controller is
not busy. A lab message that is not finite is not forwarded and does not give
the lab the actuator. -/
structure LabBounded (params : Params) (t : Step DriveArbiter (NodeEvent Twist) (List Twist)) :
    Prop where
  capped : t.event.fromJoy = false → ∀ twist ∈ t.out, Capped params twist
  idle : t.event.fromJoy = false → t.out ≠ [] →
    t.pre.selector.source = .kLab ∨ t.pre.selector.joyBusy t.event.time = false
  broken : ∀ msg nowSec, t.event = .lab msg nowSec → msg.isfinite = false →
    (∀ twist ∈ t.out, twist = Twist.zero) ∧ t.post.selector.source = .kJoy

/-- Every step of every run of a node that was built is bounded so. -/
theorem lab_twists_bounded (h : create params = some s) (es : List (NodeEvent Twist)) :
    ∀ t ∈ trace step s es, LabBounded params t := by
  intro t ht
  have hcaps : Caps params t.pre :=
    (trace_invariant (Caps params) (fun s e hs => caps_step hs e) es s (caps_create h) t ht).1
  rw [eq_stepOf_of_mem_trace ht]
  refine ⟨step_capped hcaps, step_idle, ?_⟩
  intro msg nowSec he hmsg
  simp only [stepOf] at he ⊢
  rw [he]
  exact labCallback_broken hmsg

/-- A permitted lab run beyond the caps, with a broken message in it. -/
def wildTwists : List (NodeEvent Twist) :=
  [.permission true 0, .lab ⟨5, .fin (-7)⟩ (1 / 2), .lab ⟨.nan, 0⟩ (3 / 5), .tick 1]

theorem lab_twists_bounded_wild :
    ∃ s, create {} = some s ∧ ∀ t ∈ trace step s wildTwists, LabBounded {} t :=
  ⟨_, rfl, lab_twists_bounded rfl wildTwists⟩

end DriveArbiter

end Questix.CommandArbiter
