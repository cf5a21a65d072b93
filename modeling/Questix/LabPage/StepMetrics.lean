/-
Questix.LabPage.StepMetrics — how a recorded run is judged: `firstHold`,
`settledFrom`, `firstOrderFit` and `stepMetrics` of `live/capture-core.js`.

Times and values are exact. `1 − Math.exp(−1)` is no rational number; a number
`tauFraction` stands for what the script has in its place, and nothing depends on
which it is.

A run backwards is the mirror image of a run forwards. All that is measured is
that of the mirror image (`firstHold_mirror`, `settledFrom_mirror`,
`firstOrderFit_mirror`), but the overshoot counts what is above the target on both
sides: for a robot that is driven backwards that is how far it stays behind
(`overshoot_mirror_iff`).
-/
import Mathlib.Algebra.BigOperators.Group.List.Basic
import Mathlib.Algebra.Order.Field.Rat
import Mathlib.Data.List.Induction
import Mathlib.Tactic.Linarith
import Mathlib.Tactic.Ring

namespace Questix.LabPage.Capture

/-! ## `live/capture-core.js` -/

/-- `CAPTURE_DEFAULTS.commandTolerance` -/
def commandTolerance : ℚ := 2
def MOVING_RPM : ℚ := 1
def RUN_TAIL_SECONDS : ℚ := 2
def STILL_SPEED : ℚ := 3 / 100
def DELAY_FRACTION : ℚ := 5 / 100

/-- `SETTLE_BAND` -/
def settleBand (distance : Bool) : ℚ := if distance then 5 / 100 else 3

structure Sample where
  time : ℚ
  measured : ℚ
  target : ℚ
  deriving DecidableEq

def firstHold (samples : List Sample) : List Sample :=
  match samples with
  | [] => []
  | first :: _ =>
    match samples.findIdx? fun sample =>
        decide (commandTolerance < |sample.target - first.target|) with
    | none => samples
    | some last => samples.take last

def meanOf (values : List ℚ) : ℚ := values.sum / values.length

/-- How fast the value has changed since the sample before; `earlier` goes back in time. -/
def speedSince (sample : Sample) (earlier : List Sample) : ℚ :=
  match earlier with
  | [] => 0
  | previous :: _ => |sample.measured - previous.measured| / (sample.time - previous.time)

/-- The loop of `settledFrom`, from the last sample back. -/
def settledBack (target band : ℚ) (distance : Bool) : List Sample → Option ℚ → Option ℚ
  | [], settling => settling
  | sample :: earlier, settling =>
    if band < |sample.measured - target| ∨
        (distance = true ∧ STILL_SPEED < speedSince sample earlier) then
      settling
    else settledBack target band distance earlier (some sample.time)

def settledFrom (samples : List Sample) (target band : ℚ) (distance : Bool) : Option ℚ :=
  settledBack target band distance samples.reverse none

/-- The delay and the time constant. -/
structure FirstOrder where
  delay : Option ℚ
  tau : Option ℚ
  deriving DecidableEq

def firstOrderFit (tauFraction : ℚ) (samples : List Sample) (final : ℚ) : FirstOrder :=
  if MOVING_RPM < |final| then
    let reach (fraction : ℚ) :=
      (samples.find? fun sample => decide (fraction ≤ sample.measured / final)).map Sample.time
    let delay := reach DELAY_FRACTION
    let rise := reach tauFraction
    { delay := delay, tau := delay.bind fun d => rise.map fun r => r - d }
  else { delay := none, tau := none }

/-- What a speed run has besides. -/
structure SpeedMetrics where
  gain : Option ℚ
  fit : FirstOrder
  deriving DecidableEq

structure Metrics where
  target : ℚ
  final : ℚ
  finalError : ℚ
  overshoot : ℚ
  settling : Option ℚ
  speed : Option SpeedMetrics
  deriving DecidableEq

/-- `Math.max(0, ...)` of what is past the target. -/
def overshootOf (samples : List Sample) (target : ℚ) (distance : Bool) : ℚ :=
  (samples.map fun sample =>
    if distance then target - sample.measured else sample.measured - target).foldl max 0

/-- The metrics of the samples; `null` where there are none. -/
def stepMetrics (tauFraction : ℚ) (samples : List Sample) (target : ℚ) (distance : Bool) :
    Option Metrics :=
  samples.getLast?.map fun last =>
    let tail := samples.filter fun sample => decide (last.time - RUN_TAIL_SECONDS ≤ sample.time)
    let final := meanOf (tail.map Sample.measured)
    let settling := settledFrom samples target (settleBand distance) distance
    { target := target
      final := final
      finalError := meanOf (tail.map fun sample => |sample.measured - target|)
      overshoot := overshootOf samples target distance
      settling := settling.filter fun settled => decide (1 ≤ last.time - settled)
      speed :=
        if distance then none
        else some
          { gain := if target ≠ 0 then some (final / target) else none
            fit := firstOrderFit tauFraction samples final } }

/-! ## The mirror image -/

/-- The same run backwards. -/
def Sample.mirror (sample : Sample) : Sample :=
  { sample with measured := -sample.measured, target := -sample.target }

theorem findIdx?_map_congr {α β : Type*} (f : α → β) {p : α → Bool} {q : β → Bool} {l : List α}
    (h : ∀ a ∈ l, q (f a) = p a) : (l.map f).findIdx? q = l.findIdx? p := by
  induction l with
  | nil => rfl
  | cons a l ih =>
    rw [List.map_cons, List.findIdx?_cons, List.findIdx?_cons, h a List.mem_cons_self,
      ih fun b hb => h b (List.mem_cons_of_mem a hb)]

theorem find?_map_congr {α β : Type*} (f : α → β) {p : α → Bool} {q : β → Bool} {l : List α}
    (h : ∀ a ∈ l, q (f a) = p a) : (l.map f).find? q = (l.find? p).map f := by
  induction l with
  | nil => rfl
  | cons a l ih =>
    rw [List.map_cons, List.find?_cons, List.find?_cons, h a List.mem_cons_self,
      ih fun b hb => h b (List.mem_cons_of_mem a hb)]
    cases p a <;> rfl

theorem filter_map_congr {α β : Type*} (f : α → β) {p : α → Bool} {q : β → Bool} {l : List α}
    (h : ∀ a ∈ l, q (f a) = p a) : (l.map f).filter q = (l.filter p).map f := by
  rw [List.filter_map]
  exact congrArg _ (List.filter_congr h)

theorem abs_neg_sub_neg (a b : ℚ) : |-a - -b| = |a - b| := by
  rw [neg_sub_neg, abs_sub_comm]

theorem firstHold_mirror (samples : List Sample) :
    firstHold (samples.map Sample.mirror) = (firstHold samples).map Sample.mirror := by
  cases samples with
  | nil => rfl
  | cons first samples =>
    have hidx : ((first :: samples).map Sample.mirror).findIdx?
          (fun sample => decide (commandTolerance < |sample.target - first.mirror.target|))
        = (first :: samples).findIdx?
          fun sample => decide (commandTolerance < |sample.target - first.target|) := by
      refine findIdx?_map_congr Sample.mirror fun sample _ => ?_
      show decide (commandTolerance < |-sample.target - -first.target|) = _
      rw [abs_neg_sub_neg]
    unfold firstHold
    rw [List.map_cons] at hidx ⊢
    dsimp only
    rw [hidx]
    split
    · rfl
    · rw [← List.map_cons, List.map_take]

theorem settledBack_mirror (target band : ℚ) (distance : Bool) (samples : List Sample)
    (settling : Option ℚ) :
    settledBack (-target) band distance (samples.map Sample.mirror) settling
      = settledBack target band distance samples settling := by
  induction samples generalizing settling with
  | nil => rfl
  | cons sample earlier ih =>
    have hspeed : speedSince sample.mirror (earlier.map Sample.mirror)
        = speedSince sample earlier := by
      cases earlier with
      | nil => rfl
      | cons previous earlier => exact congrArg (· / _) (abs_neg_sub_neg _ _)
    have hband : |sample.mirror.measured - -target| = |sample.measured - target| :=
      abs_neg_sub_neg sample.measured target
    rw [List.map_cons, settledBack, settledBack, hspeed, hband, ih]
    rfl

theorem settledFrom_mirror (samples : List Sample) (target band : ℚ) (distance : Bool) :
    settledFrom (samples.map Sample.mirror) (-target) band distance
      = settledFrom samples target band distance := by
  unfold settledFrom
  rw [← List.map_reverse]
  exact settledBack_mirror target band distance samples.reverse none

theorem firstOrderFit_mirror (tauFraction : ℚ) (samples : List Sample) (final : ℚ) :
    firstOrderFit tauFraction (samples.map Sample.mirror) (-final)
      = firstOrderFit tauFraction samples final := by
  have hreach (fraction : ℚ) :
      ((samples.map Sample.mirror).find? fun sample =>
          decide (fraction ≤ sample.measured / -final)).map Sample.time
        = (samples.find? fun sample => decide (fraction ≤ sample.measured / final)).map
          Sample.time := by
    have hfind := find?_map_congr Sample.mirror (l := samples)
      (p := fun sample => decide (fraction ≤ sample.measured / final))
      (q := fun sample => decide (fraction ≤ sample.measured / -final)) fun sample _ => by
        show decide (fraction ≤ -sample.measured / -final) = _
        rw [neg_div_neg_eq]
    rw [hfind, Option.map_map]
    rfl
  unfold firstOrderFit
  rw [abs_neg]
  dsimp only
  rw [hreach, hreach]

theorem meanOf_neg (values : List ℚ) : meanOf (values.map fun v => -v) = -meanOf values := by
  have hsum : (values.map fun v => -v).sum = -values.sum := by
    induction values with
    | nil => exact neg_zero.symm
    | cons v values ih => rw [List.map_cons, List.sum_cons, ih, List.sum_cons, neg_add]
  unfold meanOf
  rw [List.length_map, hsum, neg_div]

/-! ## The overshoot -/

theorem foldl_max_eq {values : List ℚ} {init hi : ℚ} (hmem : hi ∈ values)
    (hle : ∀ v ∈ values, v ≤ hi) : values.foldl max init = max init hi := by
  induction values generalizing init with
  | nil => cases hmem
  | cons v values ih =>
    have hv := hle v List.mem_cons_self
    have htail : ∀ u ∈ values, u ≤ hi := fun u hu => hle u (List.mem_cons_of_mem v hu)
    rw [List.foldl_cons]
    by_cases hin : hi ∈ values
    · rw [ih hin htail, max_assoc, max_eq_right hv]
    · -- the first is the largest, and none behind it is larger
      obtain rfl : hi = v := (List.mem_cons.1 hmem).resolve_right hin
      have hkeep (values : List ℚ) (acc : ℚ) (hacc : ∀ u ∈ values, u ≤ acc) :
          values.foldl max acc = acc := by
        induction values with
        | nil => rfl
        | cons u values ih =>
          rw [List.foldl_cons, max_eq_left (hacc u List.mem_cons_self)]
          exact ih fun w hw => hacc w (List.mem_cons_of_mem u hw)
      exact hkeep values _ fun u hu => (htail u hu).trans (le_max_right _ _)

/-- The least and the greatest value of a run. -/
structure Extremes (samples : List Sample) (lo hi : ℚ) : Prop where
  least : ∃ sample ∈ samples, sample.measured = lo
  greatest : ∃ sample ∈ samples, sample.measured = hi
  bounds : ∀ sample ∈ samples, lo ≤ sample.measured ∧ sample.measured ≤ hi

theorem exists_extremes {samples : List Sample} (h : samples ≠ []) :
    ∃ lo hi, Extremes samples lo hi := by
  induction samples with
  | nil => exact absurd rfl h
  | cons sample samples ih =>
    rcases eq_or_ne samples [] with rfl | hne
    · refine ⟨sample.measured, sample.measured, ⟨sample, List.mem_cons_self, rfl⟩,
        ⟨sample, List.mem_cons_self, rfl⟩, fun s hs => ?_⟩
      rw [List.mem_singleton.1 hs]
      exact ⟨le_refl _, le_refl _⟩
    · obtain ⟨lo, hi, ⟨least, hleast, hlo⟩, ⟨greatest, hgreatest, hhi⟩, hbounds⟩ := ih hne
      refine ⟨min sample.measured lo, max sample.measured hi, ?_, ?_, fun s hs => ?_⟩
      · rcases min_choice sample.measured lo with hmin | hmin
        · exact ⟨sample, List.mem_cons_self, hmin.symm⟩
        · exact ⟨least, List.mem_cons_of_mem _ hleast, hlo.trans hmin.symm⟩
      · rcases max_choice sample.measured hi with hmax | hmax
        · exact ⟨sample, List.mem_cons_self, hmax.symm⟩
        · exact ⟨greatest, List.mem_cons_of_mem _ hgreatest, hhi.trans hmax.symm⟩
      · rcases List.mem_cons.1 hs with rfl | hs
        · exact ⟨min_le_left _ _, le_max_left _ _⟩
        · exact ⟨(min_le_right _ _).trans (hbounds s hs).1,
            (hbounds s hs).2.trans (le_max_right _ _)⟩

theorem overshootOf_eq {samples : List Sample} {lo hi : ℚ} (h : Extremes samples lo hi)
    (target : ℚ) :
    overshootOf samples target false = max 0 (hi - target) ∧
      overshootOf (samples.map Sample.mirror) (-target) false = max 0 (target - lo) := by
  obtain ⟨⟨least, hleast, rfl⟩, ⟨greatest, hgreatest, rfl⟩, hbounds⟩ := h
  constructor
  · refine foldl_max_eq (List.mem_map.2 ⟨greatest, hgreatest, rfl⟩) fun v hv => ?_
    obtain ⟨sample, hsample, rfl⟩ := List.mem_map.1 hv
    exact sub_le_sub_right (hbounds sample hsample).2 target
  · unfold overshootOf
    rw [List.map_map]
    refine foldl_max_eq (List.mem_map.2 ⟨least, hleast, ?_⟩) fun v hv => ?_
    · show -least.measured - -target = _
      ring
    · obtain ⟨sample, hsample, rfl⟩ := List.mem_map.1 hv
      have hle := (hbounds sample hsample).1
      show -sample.measured - -target ≤ _
      linarith

theorem overshoot_mirror_iff {samples : List Sample} {lo hi : ℚ} (h : Extremes samples lo hi)
    (target : ℚ) :
    overshootOf (samples.map Sample.mirror) (-target) false = overshootOf samples target false
      ↔ lo + hi = 2 * target := by
  obtain ⟨sample, hsample, -⟩ := h.least
  have hle : lo ≤ hi := (h.bounds sample hsample).1.trans (h.bounds sample hsample).2
  rw [(overshootOf_eq h target).1, (overshootOf_eq h target).2]
  constructor
  · intro heq
    rcases le_total (hi - target) 0 with hhi | hhi <;>
      rcases le_total (target - lo) 0 with hlo | hlo
    · linarith
    · rw [max_eq_left hhi, max_eq_right hlo] at heq
      linarith
    · rw [max_eq_right hhi, max_eq_left hlo] at heq
      linarith
    · rw [max_eq_right hhi, max_eq_right hlo] at heq
      linarith
  · intro heq
    rw [show hi - target = target - lo by linarith]

/-! ## The run backwards -/

/-- What the mirror image of a run is judged to be when it is judged as one. -/
structure Mirrored (samples : List Sample) (m m' : Metrics) : Prop where
  final : m'.final = -m.final
  finalError : m'.finalError = m.finalError
  overshoot : m'.overshoot = m.overshoot
  settling : m'.settling = m.settling
  speed : m'.speed = m.speed
  hold : firstHold (samples.map Sample.mirror) = (firstHold samples).map Sample.mirror

/-- The metrics of a speed run that has a last sample, and those of its mirror image: all but the
overshoot is as it should be. -/
theorem stepMetrics_mirror (tauFraction : ℚ) {samples : List Sample} (h : samples ≠ [])
    (target : ℚ) : ∃ m m', stepMetrics tauFraction samples target false = some m ∧
      stepMetrics tauFraction (samples.map Sample.mirror) (-target) false = some m' ∧
      m'.final = -m.final ∧ m'.finalError = m.finalError ∧ m'.settling = m.settling ∧
      m'.speed = m.speed ∧ m.overshoot = overshootOf samples target false ∧
      m'.overshoot = overshootOf (samples.map Sample.mirror) (-target) false := by
  obtain ⟨last, hlast⟩ := Option.isSome_iff_exists.1 (List.getLast?_isSome.2 h)
  have hlast' : (samples.map Sample.mirror).getLast? = some last.mirror := by
    rw [List.getLast?_map, hlast]
    rfl
  have htail : (samples.map Sample.mirror).filter
        (fun sample => decide (last.time - RUN_TAIL_SECONDS ≤ sample.time))
      = (samples.filter fun sample =>
          decide (last.time - RUN_TAIL_SECONDS ≤ sample.time)).map Sample.mirror :=
    filter_map_congr Sample.mirror fun _ _ => rfl
  have hfinal (tail : List Sample) : meanOf ((tail.map Sample.mirror).map Sample.measured)
      = -meanOf (tail.map Sample.measured) := by
    rw [← meanOf_neg, List.map_map, List.map_map]
    rfl
  have herror (tail : List Sample) :
      ((tail.map Sample.mirror).map fun sample => |sample.measured - -target|)
        = tail.map fun sample => |sample.measured - target| := by
    rw [List.map_map]
    exact List.map_congr_left fun sample _ => abs_neg_sub_neg sample.measured target
  unfold stepMetrics
  rw [hlast, hlast']
  refine ⟨_, _, rfl, rfl, ?_, ?_, ?_, ?_, rfl, rfl⟩ <;> dsimp only
  · rw [show last.mirror.time = last.time from rfl, htail, hfinal]
  · rw [show last.mirror.time = last.time from rfl, htail, herror]
  · rw [show last.mirror.time = last.time from rfl, settledFrom_mirror]
  · rw [show last.mirror.time = last.time from rfl, htail, hfinal, firstOrderFit_mirror]
    simp only [ne_eq, neg_eq_zero, neg_div_neg_eq]

/-- A run backwards is judged as the mirror image of the run forwards when the target is halfway
between the least and the greatest value of the run, and only then. -/
theorem stepMetrics_mirrored_iff (tauFraction : ℚ) {samples : List Sample} (h : samples ≠ [])
    (target : ℚ) : ∃ m m', stepMetrics tauFraction samples target false = some m ∧
      stepMetrics tauFraction (samples.map Sample.mirror) (-target) false = some m' ∧
      (Mirrored samples m m' ↔ ∃ lo hi, Extremes samples lo hi ∧ lo + hi = 2 * target) := by
  obtain ⟨m, m', hm, hm', hfinal, herror, hsettling, hspeed, hover, hover'⟩ :=
    stepMetrics_mirror tauFraction h target
  refine ⟨m, m', hm, hm', fun hmirrored => ?_, ?_⟩
  · obtain ⟨lo, hi, hextremes⟩ := exists_extremes h
    refine ⟨lo, hi, hextremes, (overshoot_mirror_iff hextremes target).1 ?_⟩
    rw [← hover, ← hover']
    exact hmirrored.overshoot
  · rintro ⟨lo, hi, hextremes, hhalf⟩
    exact
      { final := hfinal
        finalError := herror
        overshoot := by rw [hover, hover', (overshoot_mirror_iff hextremes target).2 hhalf]
        settling := hsettling
        speed := hspeed
        hold := firstHold_mirror samples }

/-- A wheel that swings as far below its target as above it. -/
theorem stepMetrics_mirrored_swing : ∃ m m',
    stepMetrics (632 / 1000) [⟨0, 35, 40⟩, ⟨1, 45, 40⟩] 40 false = some m ∧
      stepMetrics (632 / 1000) [⟨0, -35, -40⟩, ⟨1, -45, -40⟩] (-40) false = some m' ∧
      Mirrored [⟨0, 35, 40⟩, ⟨1, 45, 40⟩] m m' := by
  obtain ⟨m, m', hm, hm', hiff⟩ :=
    stepMetrics_mirrored_iff (632 / 1000) (List.cons_ne_nil ⟨0, 35, 40⟩ [⟨1, 45, 40⟩]) 40
  refine ⟨m, m', hm, hm', hiff.2 ⟨35, 45, ⟨⟨⟨0, 35, 40⟩, by simp, rfl⟩, ⟨⟨1, 45, 40⟩, by simp, rfl⟩,
    fun sample hsample => ?_⟩, by norm_num⟩⟩
  rcases List.mem_cons.1 hsample with rfl | hsample
  · norm_num
  · rw [List.mem_singleton.1 hsample]
    norm_num

def above : List Sample := [⟨0, 50, 40⟩]

theorem extremes_above : Extremes above 50 50 := by
  refine ⟨⟨_, List.mem_singleton_self _, rfl⟩, ⟨_, List.mem_singleton_self _, rfl⟩, ?_⟩
  intro sample hsample
  rw [List.mem_singleton.1 hsample]
  exact ⟨le_refl _, le_refl _⟩

/-- What is ten above the target forwards is nothing backwards. -/
theorem stepMetrics_above : ¬ ∀ (tauFraction : ℚ) (samples : List Sample),
    samples ≠ [] → (samples.map Sample.time).Pairwise (· < ·) →
    (samples.map Sample.time).head? = some 0 → ∀ target ≠ 0, ∀ m m',
      stepMetrics tauFraction samples target false = some m →
      stepMetrics tauFraction (samples.map Sample.mirror) (-target) false = some m' →
      Mirrored samples m m' := by
  intro hall
  have hne : above ≠ [] := List.cons_ne_nil _ _
  have htimes : (above.map Sample.time).Pairwise (· < ·) := List.pairwise_singleton _ _
  obtain ⟨m, m', hm, hm', -, -, -, -, hover, hover'⟩ := stepMetrics_mirror 0 hne 40
  have hsame := (hall 0 above hne htimes rfl 40 (by norm_num) m m' hm hm').overshoot
  rw [hover, hover', overshoot_mirror_iff extremes_above] at hsame
  norm_num at hsame

/-! ## The settling time -/

/-- The sample at `k` is near the target, and for a distance the robot is still. -/
def RestsAt (samples : List Sample) (target band : ℚ) (distance : Bool) (k : ℕ) : Prop :=
  ∀ sample, samples[k]? = some sample → |sample.measured - target| ≤ band ∧
    (distance = true → speedSince sample (samples.take k).reverse ≤ STILL_SPEED)

theorem restsAt_append {samples : List Sample} {target band : ℚ} {distance : Bool} {k : ℕ}
    (hk : k < samples.length) (more : List Sample) :
    RestsAt (samples ++ more) target band distance k ↔ RestsAt samples target band distance k := by
  simp [RestsAt, List.getElem?_append_left hk, List.take_append_of_le_length hk.le]

theorem restsAt_last {samples : List Sample} {last : Sample} {target band : ℚ} {distance : Bool} :
    RestsAt (samples ++ [last]) target band distance samples.length ↔
      ¬ (band < |last.measured - target| ∨
        (distance = true ∧ STILL_SPEED < speedSince last samples.reverse)) := by
  simp [RestsAt, not_or]

/-- The loop goes back as far as the samples rest. -/
theorem settledBack_spec (samples : List Sample) (target band : ℚ) (distance : Bool)
    (settling : Option ℚ) : ∃ before rest, samples = before ++ rest ∧
      (∀ k, before.length ≤ k → RestsAt samples target band distance k) ∧
      (before = [] ∨ ¬ RestsAt samples target band distance (before.length - 1)) ∧
      settledBack target band distance samples.reverse settling =
        (rest.head?.map Sample.time).or settling := by
  induction samples using List.reverseRecOn generalizing settling with
  | nil => exact ⟨[], [], rfl, fun k _ => by simp [RestsAt], .inl rfl, rfl⟩
  | append_singleton samples last ih =>
    rw [List.reverse_append, List.reverse_singleton, List.singleton_append, settledBack]
    split
    · rename_i hmoves
      refine ⟨samples ++ [last], [], by simp, fun k hk => ?_, .inr ?_, rfl⟩
      · intro sample hsample
        rw [List.getElem?_eq_none hk] at hsample
        cases hsample
      · rw [List.length_append, List.length_singleton, Nat.add_sub_cancel, restsAt_last, not_not]
        exact hmoves
    · rename_i hrests
      obtain ⟨before, rest, hsplit, hafter, hfirst, heq⟩ := ih (some last.time)
      have hlen : before.length ≤ samples.length := by simp [hsplit]
      refine ⟨before, rest ++ [last], by simp [hsplit], fun k hk => ?_, ?_, ?_⟩
      · rcases Nat.lt_trichotomy k samples.length with hlt | rfl | hgt
        · exact (restsAt_append hlt _).2 (hafter k hk)
        · exact restsAt_last.2 hrests
        · intro sample hsample
          rw [List.getElem?_eq_none (by simpa using Nat.succ_le_of_lt hgt)] at hsample
          cases hsample
      · refine hfirst.imp_right fun hmoves hrest => hmoves ?_
        by_cases hlt : before.length - 1 < samples.length
        · exact (restsAt_append hlt _).1 hrest
        · intro sample hsample
          rw [List.getElem?_eq_none (by omega)] at hsample
          cases hsample
      · rw [heq]
        cases rest <;> simp

/-- The samples rest from `k` on, and not from the one before. -/
structure SettlesAt (samples : List Sample) (target band : ℚ) (distance : Bool) (k : ℕ) :
    Prop where
  rests : ∀ i, k ≤ i → RestsAt samples target band distance i
  first : k = 0 ∨ ¬ RestsAt samples target band distance (k - 1)

theorem SettlesAt.unique {samples : List Sample} {target band : ℚ} {distance : Bool} {k l : ℕ}
    (h : SettlesAt samples target band distance k) (h' : SettlesAt samples target band distance l) :
    k = l := by
  rcases Nat.lt_trichotomy k l with hlt | heq | hgt
  · exact absurd (h.rests (l - 1) (by omega)) (h'.first.resolve_left (by omega))
  · exact heq
  · exact absurd (h'.rests (k - 1) (by omega)) (h.first.resolve_left (by omega))

/-- From `t` on the samples rest, for a second or longer. -/
def SettledAt (samples : List Sample) (target : ℚ) (distance : Bool) (t : ℚ) : Prop :=
  ∃ k sample last, SettlesAt samples target (settleBand distance) distance k ∧
    samples[k]? = some sample ∧ sample.time = t ∧ samples.getLast? = some last ∧
    1 ≤ last.time - t

/-- A run has settled at the first sample from which on all are near the target and, for a
distance, still, where that lasts for a second. At two equal times the speed is a division by 0. -/
theorem settling_exact {tauFraction target : ℚ} {samples : List Sample} {distance : Bool}
    (_times : distance = true → samples.IsChain fun a b => a.time ≠ b.time)
    {metrics : Metrics} (h : stepMetrics tauFraction samples target distance = some metrics)
    (t : ℚ) : metrics.settling = some t ↔ SettledAt samples target distance t := by
  obtain ⟨last, hlast, rfl⟩ := Option.map_eq_some_iff.1 h
  obtain ⟨before, rest, hsplit, hafter, hfirst, heq⟩ :=
    settledBack_spec samples target (settleBand distance) distance none
  have hsettles : SettlesAt samples target (settleBand distance) distance before.length :=
    ⟨hafter, hfirst.imp_left (congrArg List.length)⟩
  have hhead : samples[before.length]? = rest.head? := by
    rw [hsplit, List.getElem?_append_right (le_refl _), Nat.sub_self, List.head?_eq_getElem?]
  dsimp only
  rw [settledFrom, heq, Option.or_none, Option.filter_eq_some_iff, ← hhead, Option.map_eq_some_iff,
    decide_eq_true_eq]
  constructor
  · rintro ⟨⟨sample, hsample, rfl⟩, hlasts⟩
    exact ⟨_, sample, last, hsettles, hsample, rfl, hlast, hlasts⟩
  · rintro ⟨k, sample, last', hk, hsample, rfl, hlast', hlasts⟩
    obtain rfl := hk.unique hsettles
    obtain rfl := Option.some.inj (hlast.symm.trans hlast')
    exact ⟨⟨sample, hsample, rfl⟩, hlasts⟩

theorem settling_exact_resting : ∃ metrics,
    stepMetrics 1 [⟨0, 0, 10⟩, ⟨1, 10, 10⟩, ⟨2, 10, 10⟩, ⟨3, 10, 10⟩] 10 true = some metrics ∧
      (metrics.settling = some 2 ↔
        SettledAt [⟨0, 0, 10⟩, ⟨1, 10, 10⟩, ⟨2, 10, 10⟩, ⟨3, 10, 10⟩] 10 true 2) :=
  ⟨_, rfl, settling_exact (by simp) rfl 2⟩

end Questix.LabPage.Capture
