/-
Questix.Identify.StepSequence — the schedule of an identification run, as
`scripts/identify/step_sequence.py` builds it, and its check against the stop
gate of the drive.

A schedule is a list of steps, each a wheel speed in RPM and the seconds it is
held. `startGateProblems` goes over it with the speed of the step before;
`stopAfter` is the gate itself, `DriveStopGate.updateStopMode`, over the
references that reach it.
-/
import Mathlib.Algebra.Order.Ring.Abs
import Mathlib.Data.List.Chain
import Mathlib.Tactic.Linarith
import Mathlib.Tactic.Ring
import Questix.Lib.Dbl
import Questix.MotorControl.DriveModeFsm

namespace Questix.Identify

open Questix.Lib
open Questix.MotorControl

/-- A level is a speed, held as long as all the others, or a speed and the
seconds it is held. -/
inductive Level where
  | rpm (lv : ℤ)
  | held (lv : ℤ) (dur : Dbl)
  deriving DecidableEq

def Level.entry (hold : Dbl) : Level → ℤ × Dbl
  | .rpm lv => (lv, hold)
  | .held lv dur => (lv, dur)

def Level.speed : Level → ℤ
  | .rpm lv => lv
  | .held lv _ => lv

inductive Sign where
  | pos
  | neg
  | both
  deriving DecidableEq

def Sign.signs : Sign → List ℤ
  | .pos => [1]
  | .neg => [-1]
  | .both => [1, -1]

/-- `lead_in_rpm > 0 and lead_in_sec > 0 and abs(lv) < lead_in_rpm` -/
def leadsIn (leadInRpm : ℤ) (leadInSec : Dbl) (lv : ℤ) : Bool :=
  0 < leadInRpm && (0 : Dbl) < leadInSec && |lv| < leadInRpm

/-- The steps of one level: stand still, the lead-in if there is one, the level. -/
def levelSteps (settle : Dbl) (leadInRpm : ℤ) (leadInSec : Dbl) (s : ℤ) (entry : ℤ × Dbl) :
    List (ℤ × Dbl) :=
  (0, settle) ::
    ((if leadsIn leadInRpm leadInSec entry.1 then [(s * leadInRpm, leadInSec)] else []) ++
      [(s * entry.1, entry.2)])

def buildSchedule (levels : List Level) (hold : Dbl) (sign : Sign) (cycles : ℤ) (settle : Dbl)
    (leadInRpm : ℤ) (leadInSec : Dbl) : List (ℤ × Dbl) :=
  ((List.range cycles.toNat).flatMap fun _ =>
    sign.signs.flatMap fun s =>
      (levels.map (Level.entry hold)).flatMap (levelSteps settle leadInRpm leadInSec s)) ++
    [(0, settle)]

def STOP_GATE_EXIT_MARGIN_RPM : ℤ := 2

/-- The problems from step `index` on, after a step of `previous` RPM. -/
def gateProblems (minCommandRpm : ℤ) : ℕ → ℤ → List (ℤ × Dbl) → List String
  | _, _, [] => []
  | index, previous, (rpm, _) :: rest =>
    let enter := max 1 minCommandRpm
    let level := |rpm|
    if level = 0 then gateProblems minCommandRpm (index + 1) 0 rest
    else if level < enter then
      s!"step {index}: {rpm} rpm は min_command_rpm={minCommandRpm} 未満なので停止指令になる" ::
        gateProblems minCommandRpm (index + 1) rpm rest
    else if previous = 0 ∧ level < enter + STOP_GATE_EXIT_MARGIN_RPM then
      (s!"step {index}: 止まった状態から {rpm} rpm では動き出せない" ++
        s!"（{enter + STOP_GATE_EXIT_MARGIN_RPM} rpm 以上が要る。" ++
        "--lead-in-rpm を使うか min_command_rpm を下げる）") ::
        gateProblems minCommandRpm (index + 1) rpm rest
    else gateProblems minCommandRpm (index + 1) rpm rest

def startGateProblems (schedule : List (ℤ × Dbl)) (minCommandRpm : ℤ) : List String :=
  gateProblems minCommandRpm 0 0 schedule

/-! ## The gate over a run -/

/-- Whether the drive stands still after the references `refs`. -/
def stopAfter (minCommandRpm : ℤ) (stop : Bool) (refs : List ℤ) : Bool :=
  refs.foldl (fun stop rpm => DriveStopGate.updateStopMode stop |rpm| minCommandRpm) stop

/-- The references on the way from one speed to the next: they go one way, and
end at the new speed. -/
def Ramp (rpm next : ℤ) (refs : List ℤ) : Prop :=
  ((rpm :: refs).IsChain (· ≤ ·) ∨ (rpm :: refs).IsChain (· ≥ ·)) ∧ refs.getLast? = some next

/-- From the reference `previous` and the gate `stop` on, the drive runs at the
end of every step that is not zero, whatever the ramps between the steps. -/
def DrivesSlewed (minCommandRpm : ℤ) : ℤ → Bool → List (ℤ × Dbl) → Prop
  | _, _, [] => True
  | previous, stop, (rpm, _) :: rest => ∀ refs, Ramp previous rpm refs →
      (rpm ≠ 0 → stopAfter minCommandRpm stop refs = false) ∧
        DrivesSlewed minCommandRpm rpm (stopAfter minCommandRpm stop refs) rest

/-- Fed the steps one after another, the drive runs at every step that is not zero. -/
def DrivesSteps (minCommandRpm : ℤ) (schedule : List (ℤ × Dbl)) : Prop :=
  ∀ before step after, schedule = before ++ step :: after → step.1 ≠ 0 →
    stopAfter minCommandRpm true ((before ++ [step]).map Prod.fst) = false

end Questix.Identify

/-! What the check of a schedule says about
the drive.

Both the check and the gate look at two steps at a time, the one before and the
one now; so each is a chain over the speeds of a schedule (`problems_iff_chain`,
`drivesSteps_iff_chain`), and a schedule of blocks that begin at rest is a chain
when its blocks are (`isChain_flatMap`). When the reference moves gradually, one
more thing matters: to turn round it passes through zero (`drivesSlewed_iff`). -/

namespace Questix.Identify

open Questix.Lib
open Questix.MotorControl

variable {minCommandRpm : ℤ}

def enterRpm (minCommandRpm : ℤ) : ℤ := max 1 minCommandRpm

/-- The drive takes the step from `previous` to `rpm`. -/
def Taken (minCommandRpm previous rpm : ℤ) : Prop :=
  rpm ≠ 0 → enterRpm minCommandRpm ≤ |rpm| ∧
    (previous = 0 → enterRpm minCommandRpm + STOP_GATE_EXIT_MARGIN_RPM ≤ |rpm|)

/-- On the way from `previous` to `rpm` the drive need not start again, or does. -/
def Turned (minCommandRpm previous rpm : ℤ) : Prop :=
  previous * rpm < 0 → enterRpm minCommandRpm + STOP_GATE_EXIT_MARGIN_RPM ≤ |rpm|

theorem enterRpm_pos (minCommandRpm : ℤ) : 0 < enterRpm minCommandRpm :=
  lt_of_lt_of_le Int.zero_lt_one (le_max_left 1 minCommandRpm)

theorem taken_zero (previous : ℤ) : Taken minCommandRpm previous 0 :=
  fun h => absurd rfl h

theorem turned_zero (previous : ℤ) : Turned minCommandRpm previous 0 := by
  intro h
  rw [mul_zero] at h
  exact absurd h (lt_irrefl 0)

theorem zero_turned (rpm : ℤ) : Turned minCommandRpm 0 rpm := by
  intro h
  rw [zero_mul] at h
  exact absurd h (lt_irrefl 0)

/-! ## Chains of blocks that begin at rest -/

section Blocks

variable {α : Type} {R : ℤ → ℤ → Prop} {f : α → List ℤ}

theorem head_flatMap (hzero : ∀ x, ∀ y ∈ (f x).head?, y = 0) (l : List α) :
    ∀ y ∈ (l.flatMap f).head?, y = 0 := by
  induction l with
  | nil => nofun
  | cons x l ih =>
    rw [List.flatMap_cons]
    cases hx : f x with
    | nil => exact ih
    | cons a rest =>
      have ha := hzero x
      rw [hx] at ha
      exact ha

theorem isChain_flatMap (hR : ∀ x, R x 0) (hzero : ∀ x, ∀ y ∈ (f x).head?, y = 0)
    (l : List α) : (l.flatMap f).IsChain R ↔ ∀ x ∈ l, (f x).IsChain R := by
  induction l with
  | nil => simp
  | cons x l ih =>
    rw [List.flatMap_cons, List.isChain_append, ih, List.forall_mem_cons]
    constructor
    · exact fun h => ⟨h.1, h.2.1⟩
    · intro h
      refine ⟨h.1, h.2, fun a _ y hy => ?_⟩
      rw [head_flatMap hzero l y hy]
      exact hR a

end Blocks

theorem map_levelSteps (settle : Dbl) (leadInRpm : ℤ) (leadInSec : Dbl) (s : ℤ)
    (entry : ℤ × Dbl) : (levelSteps settle leadInRpm leadInSec s entry).map Prod.fst =
      0 :: ((if leadsIn leadInRpm leadInSec entry.1 then [s * leadInRpm] else []) ++
        [s * entry.1]) := by
  unfold levelSteps
  split <;> rfl

section Build

variable {levels : List Level} {hold settle leadInSec : Dbl} {sign : Sign} {cycles leadInRpm : ℤ}

theorem isChain_buildSchedule {R : ℤ → ℤ → Prop} (hR : ∀ x, R x 0) (hzero : R 0 0) :
    (0 :: (buildSchedule levels hold sign cycles settle leadInRpm leadInSec).map
      Prod.fst).IsChain R ↔
      (0 < cycles → ∀ s ∈ sign.signs, ∀ level ∈ levels,
        ((levelSteps settle leadInRpm leadInSec s (level.entry hold)).map Prod.fst).IsChain R) := by
  have hlevel : ∀ s (entry : ℤ × Dbl),
      ∀ y ∈ ((levelSteps settle leadInRpm leadInSec s entry).map Prod.fst).head?, y = 0 := by
    intro s entry y hy
    rw [map_levelSteps] at hy
    exact (Option.some.inj hy).symm
  have hsign : ∀ s, ∀ y ∈ ((levels.map (Level.entry hold)).flatMap fun entry =>
      (levelSteps settle leadInRpm leadInSec s entry).map Prod.fst).head?, y = 0 :=
    fun s => head_flatMap (hlevel s) _
  have hcycle : ∀ _ : ℕ, ∀ y ∈ (sign.signs.flatMap fun s =>
      (levels.map (Level.entry hold)).flatMap fun entry =>
        (levelSteps settle leadInRpm leadInSec s entry).map Prod.fst).head?, y = 0 :=
    fun _ => head_flatMap hsign _
  have hmap : (buildSchedule levels hold sign cycles settle leadInRpm leadInSec).map Prod.fst =
      ((List.range cycles.toNat).flatMap fun _ => sign.signs.flatMap fun s =>
        (levels.map (Level.entry hold)).flatMap fun entry =>
          (levelSteps settle leadInRpm leadInSec s entry).map Prod.fst) ++ [0] := by
    simp only [buildSchedule, List.map_append, List.map_flatMap, List.map_cons, List.map_nil]
  rw [hmap, List.isChain_cons, List.isChain_append, isChain_flatMap hR hcycle]
  simp only [isChain_flatMap hR hsign, isChain_flatMap hR (hlevel _), List.mem_range,
    List.forall_mem_map]
  constructor
  · intro h hcycles s hs level hlevels
    exact h.2.1 0 (by omega) s hs level hlevels
  · intro h
    refine ⟨fun y hy => ?_, fun k hk => h (by omega), List.isChain_singleton 0, fun a _ y hy => ?_⟩
    · rw [List.head?_append] at hy
      rcases Option.or_eq_some_iff.1 hy with hy | hy
      · rw [head_flatMap hcycle _ y hy]
        exact hzero
      · rw [← Option.some.inj hy.2]
        exact hzero
    · rw [← Option.some.inj hy]
      exact hR a

end Build

/-! ## The check -/

theorem gateProblems_iff (schedule : List (ℤ × Dbl)) (index : ℕ) (previous : ℤ) :
    gateProblems minCommandRpm index previous schedule = [] ↔
      (previous :: schedule.map Prod.fst).IsChain (Taken minCommandRpm) := by
  induction schedule generalizing index previous with
  | nil => simp [gateProblems]
  | cons step rest ih =>
    obtain ⟨rpm, duration⟩ := step
    rw [List.map_cons, List.isChain_cons_cons, gateProblems]
    dsimp only
    split
    · rename_i hzero
      rw [abs_eq_zero] at hzero
      rw [ih, hzero]
      exact (and_iff_right (taken_zero previous)).symm
    · rename_i hmoves
      rw [abs_eq_zero] at hmoves
      split
      · rename_i hslow
        refine iff_of_false (List.cons_ne_nil _ _) fun h => ?_
        exact absurd (h.1 hmoves).1 (not_le_of_gt hslow)
      · rename_i hfast
        split
        · rename_i hstart
          refine iff_of_false (List.cons_ne_nil _ _) fun h => ?_
          exact absurd ((h.1 hmoves).2 hstart.1) (not_le_of_gt hstart.2)
        · rename_i hstart
          rw [ih]
          refine (and_iff_right fun _ => ⟨not_lt.1 hfast, fun hrest => ?_⟩).symm
          exact not_lt.1 fun hslow => hstart ⟨hrest, hslow⟩

theorem problems_iff_chain (schedule : List (ℤ × Dbl)) :
    startGateProblems schedule minCommandRpm = [] ↔
      (0 :: schedule.map Prod.fst).IsChain (Taken minCommandRpm) :=
  gateProblems_iff schedule 0 0

/-! ## The gate -/

theorem stopAfter_cons (stop : Bool) (rpm : ℤ) (refs : List ℤ) :
    stopAfter minCommandRpm stop (rpm :: refs) =
      stopAfter minCommandRpm (DriveStopGate.updateStopMode stop |rpm| minCommandRpm) refs := rfl

theorem stopAfter_concat (stop : Bool) (refs : List ℤ) (rpm : ℤ) :
    stopAfter minCommandRpm stop (refs ++ [rpm]) =
      DriveStopGate.updateStopMode (stopAfter minCommandRpm stop refs) |rpm| minCommandRpm := by
  rw [stopAfter, List.foldl_append]
  rfl

theorem updateStopMode_slow {stop : Bool} {rpm : ℤ} (h : rpm < enterRpm minCommandRpm) :
    DriveStopGate.updateStopMode stop rpm minCommandRpm = true := by
  unfold enterRpm at h
  cases stop with
  | false => exact decide_eq_true h
  | true =>
    refine decide_eq_true ?_
    have hmargin : (0 : ℤ) < DriveStopGate.kExitMarginRpm := by decide
    omega

theorem updateStopMode_fast {stop : Bool} {rpm : ℤ}
    (h : enterRpm minCommandRpm + STOP_GATE_EXIT_MARGIN_RPM ≤ rpm) :
    DriveStopGate.updateStopMode stop rpm minCommandRpm = false := by
  unfold enterRpm STOP_GATE_EXIT_MARGIN_RPM at h
  cases stop with
  | true => exact decide_eq_false (not_lt_of_ge h)
  | false => exact decide_eq_false (by omega)

theorem updateStopMode_eq_false {previous rpm : ℤ} (hmoves : rpm ≠ 0) :
    DriveStopGate.updateStopMode (decide (previous = 0)) |rpm| minCommandRpm = false ↔
      Taken minCommandRpm previous rpm := by
  by_cases hrest : previous = 0
  · rw [decide_eq_true hrest]
    refine decide_eq_false_iff_not.trans ?_
    rw [not_lt]
    constructor
    · intro h _
      refine ⟨?_, fun _ => h⟩
      have hmargin : (0 : ℤ) < DriveStopGate.kExitMarginRpm := by decide
      unfold enterRpm
      omega
    · exact fun h => (h hmoves).2 hrest
  · rw [decide_eq_false hrest]
    refine decide_eq_false_iff_not.trans ?_
    rw [not_lt]
    exact ⟨fun h _ => ⟨h, fun hstands => absurd hstands hrest⟩, fun h => (h hmoves).1⟩

theorem drives_iff_chain (schedule : List (ℤ × Dbl)) (previous : ℤ) :
    (∀ before step after, schedule = before ++ step :: after → step.1 ≠ 0 →
      stopAfter minCommandRpm (decide (previous = 0)) ((before ++ [step]).map Prod.fst) = false) ↔
      (previous :: schedule.map Prod.fst).IsChain (Taken minCommandRpm) := by
  induction schedule generalizing previous with
  | nil => simp
  | cons step rest ih =>
    obtain ⟨rpm, duration⟩ := step
    rw [List.map_cons, List.isChain_cons_cons, ← ih rpm]
    -- the state after the first step, when the drive takes it
    have hstate : Taken minCommandRpm previous rpm →
        DriveStopGate.updateStopMode (decide (previous = 0)) |rpm| minCommandRpm =
          decide (rpm = 0) := by
      intro htaken
      by_cases hzero : rpm = 0
      · rw [decide_eq_true hzero, hzero, abs_zero]
        exact updateStopMode_slow (enterRpm_pos minCommandRpm)
      · rw [decide_eq_false hzero]
        exact (updateStopMode_eq_false hzero).2 htaken
    constructor
    · intro h
      have htaken : Taken minCommandRpm previous rpm := fun hmoves =>
        (updateStopMode_eq_false hmoves).1 (h [] (rpm, duration) rest rfl hmoves) hmoves
      refine ⟨htaken, fun before step after hsplit hmoves => ?_⟩
      rw [← hstate htaken]
      exact h ((rpm, duration) :: before) step after (by rw [hsplit]; rfl) hmoves
    · rintro ⟨htaken, h⟩ before step after hsplit hmoves
      cases before with
      | nil =>
        cases hsplit
        exact (updateStopMode_eq_false hmoves).2 htaken
      | cons first before =>
        cases hsplit
        rw [List.cons_append, List.map_cons, stopAfter_cons, hstate htaken]
        exact h before step after rfl hmoves

theorem drivesSteps_iff_chain (schedule : List (ℤ × Dbl)) :
    DrivesSteps minCommandRpm schedule ↔
      (0 :: schedule.map Prod.fst).IsChain (Taken minCommandRpm) :=
  drives_iff_chain schedule 0

/-! ## Gradual references -/

section Slew

variable {previous rpm : ℤ} {refs : List ℤ}

theorem Ramp.split (h : Ramp previous rpm refs) : ∃ way, refs = way ++ [rpm] ∧
    ∀ v ∈ refs, (previous ≤ v ∧ v ≤ rpm) ∨ (rpm ≤ v ∧ v ≤ previous) := by
  obtain ⟨hmonotone, hlast⟩ := h
  obtain ⟨way, rfl⟩ := List.getLast?_eq_some_iff.1 hlast
  refine ⟨way, rfl, ?_⟩
  intro v hv
  have hends : ∀ (R : ℤ → ℤ → Prop), (∀ x, R x x) → (∀ x y z, R x y → R y z → R x z) →
      (previous :: (way ++ [rpm])).IsChain R → R previous v ∧ R v rpm := by
    intro R hrefl htrans hchain
    have : IsTrans ℤ R := ⟨htrans⟩
    have hpairs := List.isChain_iff_pairwise.1 hchain
    rw [List.pairwise_cons] at hpairs
    refine ⟨hpairs.1 v hv, ?_⟩
    rcases List.mem_append.1 hv with hway | hnew
    · exact (List.pairwise_append.1 hpairs.2).2.2 v hway rpm (List.mem_singleton_self rpm)
    · rw [List.mem_singleton.1 hnew]
      exact hrefl rpm
  rcases hmonotone with hup | hdown
  · exact .inl (hends (· ≤ ·) le_refl (fun _ _ _ => le_trans) hup)
  · obtain ⟨hfrom, hto⟩ := hends (· ≥ ·) le_refl (fun _ _ _ => ge_trans) hdown
    exact .inr ⟨hto, hfrom⟩

theorem ramp_direct (previous rpm : ℤ) : Ramp previous rpm [rpm] := by
  refine ⟨?_, rfl⟩
  rw [List.isChain_pair, List.isChain_pair]
  exact le_total previous rpm

theorem ramp_through_zero (h : previous * rpm < 0) : Ramp previous rpm [0, rpm] := by
  refine ⟨?_, rfl⟩
  simp only [List.isChain_cons_cons, List.isChain_singleton, and_true]
  rcases mul_neg_iff.1 h with hdown | hup
  · exact .inr ⟨hdown.1.le, hdown.2.le⟩
  · exact .inl ⟨hup.1.le, hup.2.le⟩

theorem stopAfter_fast (h : ∀ v ∈ refs, enterRpm minCommandRpm ≤ |v|) :
    stopAfter minCommandRpm false refs = false := by
  induction refs with
  | nil => rfl
  | cons v refs ih =>
    rw [List.forall_mem_cons] at h
    rw [stopAfter_cons]
    have hruns : DriveStopGate.updateStopMode false |v| minCommandRpm = false :=
      decide_eq_false (not_lt_of_ge h.1)
    rw [hruns]
    exact ih h.2

/-- At the end of a ramp to a speed that the drive takes, it runs. -/
theorem stopAfter_ramp (hprevious : previous ≠ 0 → enterRpm minCommandRpm ≤ |previous|)
    (htaken : Taken minCommandRpm previous rpm) (hturned : Turned minCommandRpm previous rpm)
    (h : Ramp previous rpm refs) :
    stopAfter minCommandRpm (decide (previous = 0)) refs = decide (rpm = 0) := by
  obtain ⟨way, hsplit, hbetween⟩ := h.split
  by_cases hzero : rpm = 0
  · rw [decide_eq_true hzero, hsplit, stopAfter_concat, hzero, abs_zero]
    exact updateStopMode_slow (enterRpm_pos minCommandRpm)
  rw [decide_eq_false hzero]
  by_cases hfast : enterRpm minCommandRpm + STOP_GATE_EXIT_MARGIN_RPM ≤ |rpm|
  · rw [hsplit, stopAfter_concat]
    exact updateStopMode_fast hfast
  -- the drive ran before, and the reference keeps its sign
  have hran : previous ≠ 0 := fun hrest => hfast ((htaken hzero).2 hrest)
  have hsame : ¬ previous * rpm < 0 := fun hopposite => hfast (hturned hopposite)
  rw [decide_eq_false hran]
  refine stopAfter_fast fun v hv => ?_
  have hfrom := hprevious hran
  have hto := (htaken hzero).1
  have hpos := enterRpm_pos minCommandRpm
  rcases lt_or_gt_of_ne hran with hneg | hpos'
  · have hrpm : rpm < 0 := lt_of_le_of_ne
      (not_lt.1 fun hup => hsame (mul_neg_of_neg_of_pos hneg hup)) hzero
    rw [abs_of_neg hneg] at hfrom
    rw [abs_of_neg hrpm] at hto
    rcases hbetween v hv with hv | hv <;> rw [abs_of_neg (by omega)] <;> omega
  · have hrpm : 0 < rpm := lt_of_le_of_ne
      (not_lt.1 fun hdown => hsame (mul_neg_of_pos_of_neg hpos' hdown)) (Ne.symm hzero)
    rw [abs_of_pos hpos'] at hfrom
    rw [abs_of_pos hrpm] at hto
    rcases hbetween v hv with hv | hv <;> rw [abs_of_pos (by omega)] <;> omega

theorem stopAfter_through_zero (stop : Bool)
    (hslow : |rpm| < enterRpm minCommandRpm + STOP_GATE_EXIT_MARGIN_RPM) :
    stopAfter minCommandRpm stop [0, rpm] = true := by
  rw [stopAfter_cons, abs_zero, updateStopMode_slow (enterRpm_pos minCommandRpm)]
  exact decide_eq_true hslow

theorem drivesSlewed_iff_chain (schedule : List (ℤ × Dbl))
    (hprevious : previous ≠ 0 → enterRpm minCommandRpm ≤ |previous|)
    (htaken : (previous :: schedule.map Prod.fst).IsChain (Taken minCommandRpm)) :
    DrivesSlewed minCommandRpm previous (decide (previous = 0)) schedule ↔
      (previous :: schedule.map Prod.fst).IsChain (Turned minCommandRpm) := by
  induction schedule generalizing previous with
  | nil => simp [DrivesSlewed]
  | cons step rest ih =>
    obtain ⟨rpm, duration⟩ := step
    rw [List.map_cons, List.isChain_cons_cons] at htaken ⊢
    have hnext := ih (fun hmoves => (htaken.1 hmoves).1) htaken.2
    rw [DrivesSlewed]
    constructor
    · intro h
      have hturned : Turned minCommandRpm previous rpm := by
        intro hopposite
        by_contra hslow
        have hmoves : rpm ≠ 0 := by
          rintro rfl
          rw [mul_zero] at hopposite
          exact lt_irrefl 0 hopposite
        have hruns := (h [0, rpm] (ramp_through_zero hopposite)).1 hmoves
        rw [stopAfter_through_zero _ (not_le.1 hslow)] at hruns
        cases hruns
      have hrest := (h [rpm] (ramp_direct previous rpm)).2
      rw [stopAfter_ramp hprevious htaken.1 hturned (ramp_direct previous rpm)] at hrest
      exact ⟨hturned, hnext.1 hrest⟩
    · rintro ⟨hturned, hrest⟩ refs hramp
      rw [stopAfter_ramp hprevious htaken.1 hturned hramp]
      exact ⟨decide_eq_false, hnext.2 hrest⟩

end Slew

/-! ## The schedules that are built -/

section Built

variable {levels : List Level} {hold settle leadInSec : Dbl} {sign : Sign} {cycles leadInRpm : ℤ}

/-- The drive takes the steps of a level, from rest. -/
def LevelTaken (leadInRpm : ℤ) (leadInSec : Dbl) (minCommandRpm lv : ℤ) : Prop :=
  if leadsIn leadInRpm leadInSec lv then
    enterRpm minCommandRpm + STOP_GATE_EXIT_MARGIN_RPM ≤ leadInRpm ∧
      (lv ≠ 0 → enterRpm minCommandRpm ≤ |lv|)
  else lv ≠ 0 → enterRpm minCommandRpm + STOP_GATE_EXIT_MARGIN_RPM ≤ |lv|

/-- A level against its own lead-in is fast enough to start from rest. -/
def LevelTurned (leadInRpm : ℤ) (leadInSec : Dbl) (minCommandRpm lv : ℤ) : Prop :=
  leadsIn leadInRpm leadInSec lv = true → lv < 0 →
    enterRpm minCommandRpm + STOP_GATE_EXIT_MARGIN_RPM ≤ |lv|

theorem abs_signed {s : ℤ} (hs : s ∈ sign.signs) (v : ℤ) : |s * v| = |v| := by
  have hone : |s| = 1 := by
    cases sign <;> simp [Sign.signs] at hs
    · rw [hs, abs_one]
    · rw [hs, abs_neg, abs_one]
    · rcases hs with rfl | rfl
      · exact abs_one
      · rw [abs_neg, abs_one]
  rw [abs_mul, hone, one_mul]

theorem sign_ne_zero {s : ℤ} (hs : s ∈ sign.signs) : s ≠ 0 := by
  rintro rfl
  cases sign <;> simp [Sign.signs] at hs

theorem signs_nonempty (sign : Sign) : ∃ s, s ∈ sign.signs := by
  cases sign
  · exact ⟨1, List.mem_singleton_self 1⟩
  · exact ⟨-1, List.mem_singleton_self (-1)⟩
  · exact ⟨1, List.mem_cons_self⟩

theorem leadsIn_pos {lv : ℤ} (h : leadsIn leadInRpm leadInSec lv = true) : 0 < leadInRpm := by
  unfold leadsIn at h
  simp only [Bool.and_eq_true, decide_eq_true_eq] at h
  exact h.1.1

theorem taken_first (rpm : ℤ) : Taken minCommandRpm 0 rpm ↔
    (rpm ≠ 0 → enterRpm minCommandRpm + STOP_GATE_EXIT_MARGIN_RPM ≤ |rpm|) := by
  constructor
  · exact fun h hmoves => (h hmoves).2 rfl
  · intro h hmoves
    refine ⟨le_trans ?_ (h hmoves), fun _ => h hmoves⟩
    exact le_add_of_nonneg_right (by decide)

theorem taken_levelSteps {s : ℤ} (hs : s ∈ sign.signs) (entry : ℤ × Dbl) :
    ((levelSteps settle leadInRpm leadInSec s entry).map Prod.fst).IsChain
      (Taken minCommandRpm) ↔ LevelTaken leadInRpm leadInSec minCommandRpm entry.1 := by
  have hne := sign_ne_zero hs
  have hmoves : ∀ v, s * v ≠ 0 ↔ v ≠ 0 := fun v => by rw [mul_ne_zero_iff, and_iff_right hne]
  rw [map_levelSteps]
  unfold LevelTaken
  split
  · rename_i hleads
    have hlead : leadInRpm ≠ 0 := (leadsIn_pos hleads).ne'
    simp only [List.singleton_append, List.isChain_cons_cons, List.isChain_singleton, and_true]
    rw [taken_first, hmoves, abs_signed hs, abs_of_pos (leadsIn_pos hleads)]
    unfold Taken
    rw [hmoves, abs_signed hs]
    constructor
    · rintro ⟨hfirst, hsecond⟩
      exact ⟨hfirst hlead, fun hlevel => (hsecond hlevel).1⟩
    · rintro ⟨hfirst, hsecond⟩
      refine ⟨fun _ => hfirst, fun hlevel => ⟨hsecond hlevel, fun hzero => ?_⟩⟩
      exact absurd hzero ((hmoves leadInRpm).2 hlead)
  · simp only [List.nil_append, List.isChain_cons_cons, List.isChain_singleton, and_true]
    rw [taken_first, hmoves, abs_signed hs]

theorem turned_levelSteps {s : ℤ} (hs : s ∈ sign.signs) (entry : ℤ × Dbl) :
    ((levelSteps settle leadInRpm leadInSec s entry).map Prod.fst).IsChain
      (Turned minCommandRpm) ↔ LevelTurned leadInRpm leadInSec minCommandRpm entry.1 := by
  rw [map_levelSteps]
  unfold LevelTurned
  split
  · rename_i hleads
    simp only [List.singleton_append, List.isChain_cons_cons, List.isChain_singleton, and_true]
    rw [and_iff_right (zero_turned _), hleads]
    unfold Turned
    have hsquare : s * leadInRpm * (s * entry.1) = s * s * leadInRpm * entry.1 := by ring
    have hsigns : s * leadInRpm * (s * entry.1) < 0 ↔ entry.1 < 0 := by
      have hpos : 0 < s * s * leadInRpm :=
        mul_pos (mul_self_pos.2 (sign_ne_zero hs)) (leadsIn_pos hleads)
      rw [hsquare]
      exact ⟨fun h => neg_of_mul_neg_right h hpos.le, fun h => mul_neg_of_pos_of_neg hpos h⟩
    rw [hsigns, abs_signed hs, eq_self, true_imp_iff]
  · rename_i hleads
    simp only [List.nil_append, List.isChain_cons_cons, List.isChain_singleton, and_true]
    exact iff_of_true (zero_turned _) fun h => absurd h hleads

theorem problems_buildSchedule :
    startGateProblems (buildSchedule levels hold sign cycles settle leadInRpm leadInSec)
      minCommandRpm = [] ↔
      (0 < cycles → ∀ level ∈ levels,
        LevelTaken leadInRpm leadInSec minCommandRpm (level.entry hold).1) := by
  rw [problems_iff_chain, isChain_buildSchedule taken_zero (taken_zero 0)]
  obtain ⟨s, hs⟩ := signs_nonempty sign
  constructor
  · intro h hcycles level hlevel
    exact (taken_levelSteps hs _).1 (h hcycles s hs level hlevel)
  · intro h hcycles s' hs' level hlevel
    exact (taken_levelSteps hs' _).2 (h hcycles level hlevel)

theorem slewed_buildSchedule (h : startGateProblems
      (buildSchedule levels hold sign cycles settle leadInRpm leadInSec) minCommandRpm = []) :
    DrivesSlewed minCommandRpm 0 true
      (buildSchedule levels hold sign cycles settle leadInRpm leadInSec) ↔
      (0 < cycles → ∀ level ∈ levels,
        LevelTurned leadInRpm leadInSec minCommandRpm (level.entry hold).1) := by
  rw [problems_iff_chain] at h
  refine (drivesSlewed_iff_chain _ (fun hmoves => absurd rfl hmoves) h).trans ?_
  rw [isChain_buildSchedule turned_zero (turned_zero 0)]
  obtain ⟨s, hs⟩ := signs_nonempty sign
  constructor
  · intro h hcycles level hlevel
    exact (turned_levelSteps hs _).1 (h hcycles s hs level hlevel)
  · intro h hcycles s' hs' level hlevel
    exact (turned_levelSteps hs' _).2 (h hcycles level hlevel)

theorem entry_fst (level : Level) : (level.entry hold).1 = level.speed := by
  cases level <;> rfl

/-- What the schedules and their check are to give. -/
structure ReallyDriven (levels : List Level) (hold : Dbl) (sign : Sign) (cycles : ℤ)
    (settle : Dbl) (leadInRpm : ℤ) (leadInSec : Dbl) (minCommandRpm : ℤ) : Prop where
  checked : ∀ schedule, startGateProblems schedule minCommandRpm = [] ↔
    DrivesSteps minCommandRpm schedule
  built : (0 : Dbl) < leadInSec →
    max 1 minCommandRpm + STOP_GATE_EXIT_MARGIN_RPM ≤ leadInRpm →
    (∀ level ∈ levels, max 1 minCommandRpm ≤ level.speed) →
      startGateProblems (buildSchedule levels hold sign cycles settle leadInRpm leadInSec)
        minCommandRpm = []
  slewed : startGateProblems (buildSchedule levels hold sign cycles settle leadInRpm leadInSec)
      minCommandRpm = [] →
    DrivesSlewed minCommandRpm 0 true
      (buildSchedule levels hold sign cycles settle leadInRpm leadInSec)

theorem levelTaken_of_leadIn {lv : ℤ} (hsec : (0 : Dbl) < leadInSec)
    (hlead : enterRpm minCommandRpm + STOP_GATE_EXIT_MARGIN_RPM ≤ leadInRpm)
    (hlevel : enterRpm minCommandRpm ≤ lv) :
    LevelTaken leadInRpm leadInSec minCommandRpm lv := by
  have hpos := enterRpm_pos minCommandRpm
  unfold LevelTaken
  split
  · exact ⟨hlead, fun _ => hlevel.trans (le_abs_self lv)⟩
  · rename_i hleads
    intro _
    have hmargin : (0 : ℤ) < STOP_GATE_EXIT_MARGIN_RPM := by decide
    have hfast : leadInRpm ≤ |lv| := by
      by_contra hslow
      refine hleads ?_
      unfold leadsIn
      simp only [Bool.and_eq_true, decide_eq_true_eq]
      exact ⟨⟨by omega, hsec⟩, not_le.1 hslow⟩
    exact hlead.trans hfast

/-- The schedules are really driven, but for a level that turns round after its
lead-in and is too slow to start again. -/
theorem schedules_driven :
    ReallyDriven levels hold sign cycles settle leadInRpm leadInSec minCommandRpm ↔
      (0 < cycles →
        (∀ level ∈ levels, LevelTaken leadInRpm leadInSec minCommandRpm level.speed) →
          ∀ level ∈ levels, LevelTurned leadInRpm leadInSec minCommandRpm level.speed) := by
  have hproblems := @problems_buildSchedule minCommandRpm levels hold settle leadInSec sign cycles
    leadInRpm
  simp only [entry_fst] at hproblems
  constructor
  · intro h hcycles htaken
    have hnone := hproblems.2 fun _ => htaken
    have hturned := (slewed_buildSchedule hnone).1 (h.slewed hnone) hcycles
    simpa only [entry_fst] using hturned
  · intro h
    refine ⟨fun schedule => ?_, fun hsec hlead hlevels => ?_, fun hnone => ?_⟩
    · rw [problems_iff_chain, drivesSteps_iff_chain]
    · exact hproblems.2 fun _ level hlevel => levelTaken_of_leadIn hsec hlead (hlevels level hlevel)
    · rw [slewed_buildSchedule hnone]
      simp only [entry_fst]
      exact fun hcycles => h hcycles (hproblems.1 hnone hcycles)

/-- A level of -3 with a lead-in of 5: on the way from 5 to -3 the drive stops,
and 3 is too slow to start. -/
theorem slow_turn_not_driven :
    ¬ ∀ levels hold sign cycles settle leadInRpm leadInSec minCommandRpm,
      ReallyDriven levels hold sign cycles settle leadInRpm leadInSec minCommandRpm := by
  intro h
  have hdriven := h [.rpm (-3)] 4 .pos 1 3 5 1 3
  have hnone : startGateProblems (buildSchedule [.rpm (-3)] 4 .pos 1 3 5 1) 3 = [] := by
    decide
  have hturned := (slewed_buildSchedule hnone).1 (hdriven.slewed hnone) Int.zero_lt_one
    (.rpm (-3)) (List.mem_singleton_self _)
  exact absurd (hturned (by decide) (by decide)) (by decide)

end Built

end Questix.Identify
