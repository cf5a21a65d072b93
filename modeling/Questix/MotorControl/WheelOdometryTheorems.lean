/-
Questix.MotorControl.WheelOdometryTheorems — no turn of a wheel is lost or
counted twice.

What an update can do is said once (`Updates`). While the anchors are kept, the
increments of a wheel add up to the way between its endpoints, up to whole
turns: each one is congruent to the difference of the positions it was computed
from (`wheelIncrement_congruent`), and the next one starts where it ended.
-/
import Mathlib.Algebra.BigOperators.Group.List.Basic
import Mathlib.Tactic.Ring
import Questix.MotorControl.WheelPositionOdometry

namespace Questix.MotorControl

open Questix.Lib

namespace WheelPosition

inductive Side where
  | left
  | right

/-- One of two samples. -/
def Side.pick : Side → Sample → Sample → Sample
  | .left, l, _ => l
  | .right, _, r => r

def Integrator.endpoint (s : Integrator) (side : Side) : Sample := side.pick s.left s.right

def Sample.turns (s : Sample) : ℚ := s.position.toNat / kPositionRawPerTurn.toNat

/-- The numbers of a sample are finite. -/
def Sample.Finite (s : Sample) : Prop :=
  ∃ rpm time, s.nativeRpm = .fin rpm ∧ s.timeSec = .fin time

section

variable {s : Integrator} {left right previous current : Sample} {limits : Limits} {now : Dbl}

/-! ## Increments -/

theorem shortestTurns_congruent (previous current : Sample) :
    ∃ n : ℤ, shortestTurns previous.position current.position =
      current.turns - previous.turns + n := by
  refine ⟨-roundHalfEven ((current.position.toNat - previous.position.toNat : ℚ) /
    kPositionRawPerTurn.toNat), ?_⟩
  have hperiod : ((kPositionRawPerTurn.toNat : ℕ) : ℚ) ≠ 0 := by decide
  simp only [shortestTurns, Sample.turns]
  push_cast
  field_simp
  ring

theorem finite_of_valid {sample : Sample} (h : Integrator.valid sample now = true) :
    sample.Finite := by
  simp only [Integrator.valid, Bool.and_eq_true, decide_eq_true_eq] at h
  obtain ⟨⟨⟨⟨⟨-, -⟩, htime⟩, hrpm⟩, -⟩, -⟩ := h
  obtain ⟨time, htime⟩ := Dbl.isfinite_iff.1 htime
  obtain ⟨rpm, hrpm⟩ := Dbl.isfinite_iff.1 hrpm
  exact ⟨rpm, time, hrpm, htime⟩

theorem count_lt {a b : UInt64} (hle : ¬ b < a) (hne : ¬ b = a) : a < b := by
  rw [UInt64.lt_iff_toNat_lt] at hle ⊢
  have hne : b.toNat ≠ a.toNat := fun h => hne (UInt64.toNat_inj.1 h)
  omega

variable [Libm]

theorem wheelIncrement_congruent (hprevious : previous.Finite) (hcurrent : current.Finite)
    {d : Dbl} (h : wheelIncrement previous current limits = some d) :
    ∃ n : ℤ, d = .fin (current.turns - previous.turns + n) := by
  obtain ⟨m, hm⟩ := shortestTurns_congruent previous current
  obtain ⟨rpm, time, hrpm, htime⟩ := hprevious
  obtain ⟨rpm', time', hrpm', htime'⟩ := hcurrent
  have hprediction : (previous.nativeRpm + current.nativeRpm) *
      (current.timeSec - previous.timeSec) / 120 = .fin ((rpm + rpm') * (time' - time) / 120) := by
    rw [hrpm, hrpm', htime, htime', Dbl.fin_add_fin, Dbl.fin_sub_fin, Dbl.fin_mul_fin,
      Dbl.ofNat_eq, Dbl.fin_div_fin (by norm_num)]
  unfold wheelIncrement at h
  dsimp only at h
  rw [hprediction, hm] at h
  split at h
  · cases h
  · split at h
    · cases h
    · split at h
      · split at h
        · cases h
        · -- with the whole turns of the prediction
          rw [Option.some.injEq] at h
          rw [← h, Dbl.fin_sub_fin, Dbl.round_fin, Dbl.fin_add_fin]
          exact ⟨m + lround _, by push_cast; rw [add_assoc]⟩
      · split at h
        · cases h
        · rw [Option.some.injEq] at h
          exact ⟨m, h.symm⟩

/-! ## Updates -/

/-- What an update can do to the tracker. -/
inductive Updates (s : Integrator) (left right : Sample) (limits : Limits) :
    Integrator → Result → Prop where
  | discard (reason : Reason) :
    Updates s left right limits s.reset { state := .kReset, reason := reason }
  | anchor (reason : Reason) (state : State) (hstate : state = .kAnchored ∨ state = .kReset)
    (hleft : left.Finite) (hright : right.Finite) :
    Updates s left right limits (.anchor left right) { state := state, reason := reason }
  | wait (hanchored : s.anchored = true) : Updates s left right limits s { state := .kWaiting }
  | integrate (hanchored : s.anchored = true) (hleft : left.Finite) (hright : right.Finite)
    (hcountLeft : s.left.count < left.count) (hcountRight : s.right.count < right.count)
    (dl dr : Dbl) (hdl : wheelIncrement s.left left limits = some dl)
    (hdr : wheelIncrement s.right right limits = some dr) :
    Updates s left right limits (.anchor left right)
      { state := .kIntegrated
        distance := limits.radius * kTwoPi * (dl + -dr) / 2
        heading := limits.radius * kTwoPi * (-dr - dl) / limits.separation }

theorem update_updates (s : Integrator) (left right : Sample) (now : Dbl) (limits : Limits) :
    Updates s left right limits (s.update left right now limits).1
      (s.update left right now limits).2 := by
  unfold Integrator.update
  split
  · exact .discard _
  · rename_i hvalid
    simp only [Bool.or_eq_true, Bool.not_eq_true', not_or, Bool.not_eq_false] at hvalid
    have hleft := finite_of_valid hvalid.1.1
    have hright := finite_of_valid hvalid.1.2
    split
    · exact .discard _
    · split
      · exact .discard _
      · split
        · exact .discard _
        · split
          · exact .anchor _ _ (.inl rfl) hleft hright
          · rename_i hanchored
            have hanchored : s.anchored = true := by simpa using hanchored
            split
            · exact .discard _
            · rename_i hback
              split
              · exact .anchor _ _ (.inr rfl) hleft hright
              · split
                · exact .wait hanchored
                · rename_i hsame
                  rw [not_or] at hback hsame
                  split
                  · rename_i dl dr hdl hdr
                    exact .integrate hanchored hleft hright
                      (count_lt hback.1 hsame.1) (count_lt hback.2 hsame.2) dl dr hdl hdr
                  · exact .anchor _ _ (.inr rfl) hleft hright

/-! ## Runs -/

/-- The step integrates. -/
def Integrates (t : Step Odometry Event (Option Result)) : Prop :=
  ∃ r, t.out = some r ∧ r.state = .kIntegrated

/-- The step keeps the anchors: it integrates, or waits. -/
def KeepsAnchor (t : Step Odometry Event (Option Result)) : Prop :=
  ∃ r, t.out = some r ∧ (r.state = .kIntegrated ∨ r.state = .kWaiting)

/-- The turns of a wheel that the step integrates. -/
def turned (side : Side) (t : Step Odometry Event (Option Result)) : ℚ :=
  match t.event, t.out with
  | .update left right _ limits, some r =>
    if r.state = .kIntegrated then
      ((wheelIncrement (t.pre.integrator.endpoint side) (side.pick left right) limits).elim 0
        Dbl.value)
    else 0
  | _, _ => 0

/-- An anchored tracker has finite endpoints. -/
def Integrator.Sound (s : Integrator) : Prop :=
  s.anchored = true → s.left.Finite ∧ s.right.Finite

theorem sound_update (h : s.Sound) : (s.update left right now limits).1.Sound := by
  have hupdates := update_updates s left right now limits
  generalize s.update left right now limits = next at hupdates
  obtain ⟨s', r⟩ := next
  cases hupdates with
  | discard reason => nofun
  | anchor reason state hstate hleft hright => exact fun _ => ⟨hleft, hright⟩
  | wait hanchored => exact h
  | integrate hanchored hleft hright => exact fun _ => ⟨hleft, hright⟩

theorem sound_step {s : Odometry} (h : s.integrator.Sound) (e : Event) :
    (odometryStep s e).1.integrator.Sound := by
  cases e with
  | update left right now limits => exact sound_update h
  | reset => nofun

/-- While the anchors are kept, the turns of a wheel are the way between its
endpoints, up to whole turns. -/
theorem turned_step {s : Odometry} (h : s.integrator.Sound) {e : Event} (side : Side)
    (hkeeps : KeepsAnchor (stepOf odometryStep s e)) :
    ∃ n : ℤ, turned side (stepOf odometryStep s e) =
      ((odometryStep s e).1.integrator.endpoint side).turns -
        (s.integrator.endpoint side).turns + n := by
  obtain ⟨r, hr, hstate⟩ := hkeeps
  cases e with
  | reset => cases hr
  | update left right now limits =>
    have hr : (s.integrator.update left right now limits).2 = r := Option.some.inj hr
    have hupdates := update_updates s.integrator left right now limits
    simp only [turned, stepOf, odometryStep]
    generalize s.integrator.update left right now limits = next at hupdates hr
    obtain ⟨s', r'⟩ := next
    cases hr
    cases hupdates with
    | discard reason => rcases hstate with hstate | hstate <;> cases hstate
    | anchor reason state hreset =>
      rcases hreset with rfl | rfl <;> rcases hstate with hstate | hstate <;> cases hstate
    | wait hanchored => exact ⟨0, by simp⟩
    | integrate hanchored hleft hright hcountLeft hcountRight dl dr hdl hdr =>
      obtain ⟨hsleft, hsright⟩ := h hanchored
      cases side with
      | left =>
        obtain ⟨n, rfl⟩ := wheelIncrement_congruent hsleft hleft hdl
        exact ⟨n, by simp [Integrator.endpoint, Side.pick, hdl, Dbl.value]⟩
      | right =>
        obtain ⟨n, rfl⟩ := wheelIncrement_congruent hsright hright hdr
        exact ⟨n, by simp [Integrator.endpoint, Side.pick, hdr, Dbl.value]⟩

theorem turned_run (side : Side) : ∀ (es : List Event) (s : Odometry), s.integrator.Sound →
    (∀ t ∈ trace odometryStep s es, KeepsAnchor t) →
      ∃ n : ℤ, ((trace odometryStep s es).map (turned side)).sum =
        ((final odometryStep s es).integrator.endpoint side).turns -
          (s.integrator.endpoint side).turns + n := by
  intro es
  induction es with
  | nil =>
    intro s _ _
    exact ⟨0, by simp⟩
  | cons e es ih =>
    intro s h hkeeps
    obtain ⟨m, hm⟩ := turned_step h side (hkeeps (stepOf odometryStep s e) (by simp))
    obtain ⟨n, hn⟩ := ih _ (sound_step h e) fun t ht => hkeeps t (by simp [ht])
    refine ⟨m + n, ?_⟩
    rw [trace_cons, List.map_cons, List.sum_cons, hm, hn, final_cons]
    push_cast
    ring

/-- The step waits. -/
def Waits (t : Step Odometry Event (Option Result)) : Prop :=
  ∃ r, t.out = some r ∧ r.state = .kWaiting

/-- What a step does to the pose and to the endpoints. -/
structure Conserves (t : Step Odometry Event (Option Result)) : Prop where
  pose : t.post.pose ≠ t.pre.pose → Integrates t
  waits : Waits t → t.post.integrator = t.pre.integrator
  anchored : KeepsAnchor t → t.pre.integrator.anchored = true
  integrates : ∀ left right now limits r, t.event = .update left right now limits →
    t.out = some r → r.state = .kIntegrated →
      t.post.integrator = .anchor left right ∧
        t.pre.integrator.left.count < left.count ∧ t.pre.integrator.right.count < right.count ∧
        r.distance = limits.radius * kTwoPi * (.fin (turned .left t) + -.fin (turned .right t)) / 2 ∧
        r.heading =
          limits.radius * kTwoPi * (-.fin (turned .right t) - .fin (turned .left t)) /
            limits.separation

theorem conserves_step {s : Odometry} (h : s.integrator.Sound) (e : Event) :
    Conserves (stepOf odometryStep s e) := by
  cases e with
  | reset =>
    refine ⟨fun hne => absurd rfl hne, ?_, ?_, ?_⟩
    · rintro ⟨r, hr, -⟩
      cases hr
    · rintro ⟨r, hr, -⟩
      cases hr
    · intro left right now limits r hevent
      cases hevent
  | update left right now limits =>
    have hupdates := update_updates s.integrator left right now limits
    refine ⟨?_, ?_, ?_, ?_⟩
    · intro hne
      refine ⟨(s.integrator.update left right now limits).2, rfl, ?_⟩
      by_contra hstate
      exact hne (if_neg hstate)
    · rintro ⟨r, hr, hstate⟩
      have hr : (s.integrator.update left right now limits).2 = r := Option.some.inj hr
      show (s.integrator.update left right now limits).1 = s.integrator
      generalize s.integrator.update left right now limits = next at hupdates hr
      obtain ⟨s', r'⟩ := next
      cases hr
      cases hupdates with
      | discard reason => cases hstate
      | anchor reason state hreset => rcases hreset with rfl | rfl <;> cases hstate
      | wait hanchored => rfl
      | integrate => cases hstate
    · rintro ⟨r, hr, hstate⟩
      have hr : (s.integrator.update left right now limits).2 = r := Option.some.inj hr
      show s.integrator.anchored = true
      generalize s.integrator.update left right now limits = next at hupdates hr
      obtain ⟨s', r'⟩ := next
      cases hr
      cases hupdates with
      | discard reason => rcases hstate with hstate | hstate <;> cases hstate
      | anchor reason state hreset =>
        rcases hreset with rfl | rfl <;> rcases hstate with hstate | hstate <;> cases hstate
      | wait hanchored => exact hanchored
      | integrate hanchored => exact hanchored
    · intro left right now limits r hevent hr hstate
      cases hevent
      have hr : (s.integrator.update left right now limits).2 = r := Option.some.inj hr
      simp only [turned, stepOf, odometryStep]
      generalize s.integrator.update left right now limits = next at hupdates hr
      obtain ⟨s', r'⟩ := next
      cases hr
      cases hupdates with
      | discard reason => cases hstate
      | anchor reason state hreset => rcases hreset with rfl | rfl <;> cases hstate
      | wait hanchored => cases hstate
      | integrate hanchored hleft hright hcountLeft hcountRight dl dr hdl hdr =>
        obtain ⟨hsleft, hsright⟩ := h hanchored
        obtain ⟨m, rfl⟩ := wheelIncrement_congruent hsleft hleft hdl
        obtain ⟨n, rfl⟩ := wheelIncrement_congruent hsright hright hdr
        refine ⟨rfl, hcountLeft, hcountRight, ?_, ?_⟩ <;>
          simp [Integrator.endpoint, Side.pick, hdl, hdr, Dbl.value]

theorem integrator_of_waits : ∀ (es : List Event) (s : Odometry), s.integrator.Sound →
    (∀ t ∈ trace odometryStep s es, Waits t) →
      (final odometryStep s es).integrator = s.integrator := by
  intro es
  induction es with
  | nil =>
    intro s _ _
    rfl
  | cons e es ih =>
    intro s h hwaits
    have hstep := (conserves_step h e).waits (hwaits (stepOf odometryStep s e) (by simp))
    rw [final_cons, ih _ (sound_step h e) fun t ht => hwaits t (by simp [ht])]
    exact hstep

/-- Over every sequence of updates and resets: what each step conserves; the
next increment starts where the last one ended; and while the anchors are kept,
the turns of a wheel are the way between its endpoints, up to whole turns. -/
theorem odometry_conserved (es : List Event) :
    (∀ t ∈ trace odometryStep {} es, Conserves t) ∧
      (∀ x t y u z, trace odometryStep {} es = x ++ t :: (y ++ u :: z) → (∀ v ∈ y, Waits v) →
        u.pre.integrator = t.post.integrator) ∧
      ∀ x y z, es = x ++ y ++ z →
        (∀ t ∈ trace odometryStep (final odometryStep {} x) y, KeepsAnchor t) →
          ∀ side, ∃ n : ℤ,
            ((trace odometryStep (final odometryStep {} x) y).map (turned side)).sum =
              ((final odometryStep {} (x ++ y)).integrator.endpoint side).turns -
                ((final odometryStep {} x).integrator.endpoint side).turns + n := by
  have hsound : ∀ es, (final odometryStep {} es).integrator.Sound := fun es =>
    final_invariant (fun s : Odometry => s.integrator.Sound) (fun _ e h => sound_step h e) es {}
      nofun
  have hconserves : ∀ es, ∀ t ∈ trace odometryStep {} es, Conserves t := by
    intro es t ht
    have hpre := (trace_invariant (fun s : Odometry => s.integrator.Sound)
      (fun _ e h => sound_step h e) es {} nofun t ht).1
    rw [eq_stepOf_of_mem_trace ht]
    exact conserves_step hpre t.event
  refine ⟨hconserves es, ?_, ?_⟩
  · intro x t y u z hsplit hwaits
    obtain ⟨es₁, e, es₂, rfl, rfl, rfl, hrest⟩ := trace_split hsplit
    obtain ⟨es₃, e', es₄, rfl, rfl, rfl, -⟩ := trace_split hrest.symm
    exact integrator_of_waits es₃ _ (sound_step (hsound es₁) e) hwaits
  · intro x y z _ hkeeps side
    rw [final_append]
    exact turned_run side y _ (hsound x) hkeeps

end

end WheelPosition

end Questix.MotorControl
