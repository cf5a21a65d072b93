/-
Questix.MotorControl.DriveParamsTheorems — a list of parameter changes is
taken as a whole or not at all: `DriveComponent::onParameterChange`.

The first phase keeps an account of the list (`Accepted`): what is staged is
the list without the names of no branch, and a flag is set where a listed
parameter sets it. The commits then bring each member to its last listed value
(`value_assigned`), and a setting of a subsystem is written from the members,
the last time after the last change of a member it is made of.

A setter of the motor library may take a value as another one, such as a
negative interval as zero; `held` says as which.
-/
import Questix.MotorControl.DriveParams

namespace Questix.MotorControl.DriveParams

open Questix.Lib

/-! ## Names -/

theorem name_of_branch {name : String} {p : RuntimeParam} (h : branch name = some p) :
    p.name = name := by
  simpa using List.find?_some h

theorem branch_name (p : RuntimeParam) : branch p.name = some p := by
  rcases p with p | p | p <;> cases p <;> decide

theorem branch_eq_some_iff {name : String} {p : RuntimeParam} :
    branch name = some p ↔ name = p.name := by
  constructor
  · intro h
    exact (name_of_branch h).symm
  · rintro rfl
    exact branch_name p

theorem name_injective {p q : RuntimeParam} (h : p.name = q.name) : p = q :=
  Option.some.inj (by rw [← branch_name p, ← branch_name q, h])

theorem name_not_requiresReconfigure (p : RuntimeParam) : p.name ∉ kRequiresReconfigure := by
  rcases p with p | p | p <;> cases p <;> decide

/-! ## Values and bounds -/

def Members.value (m : Members) : RuntimeParam → ParameterValue
  | .double p => .double (m.double p)
  | .int p => .integer (m.int p)
  | .bool p => .bool (m.bool p)

/-- The bounds of a parameter of type double. -/
def DoubleParam.InBounds (value : Dbl) : DoubleParam → Prop
  | .maxLinearAccel | .maxAngularAccel | .slewTaperBandLinear | .slewTaperBandAngular
  | .cmdTimeoutSec | .measuredLpfTauSec => True
  | .velocityRunModelTauSec | .velocityRunR | .velocityRunFeedbackMaxAgeSec
  | .currentGuardOverspeedMarginRpm | .currentGuardOverspeedTimeSec =>
    ∃ q : ℚ, value = .fin q ∧ 0 < q
  | .velocityRunQ | .velocityRunObserverLD | .velocityRunMaxCorrectionRpm | .currentKp
  | .currentKi | .integralLimitAmp | .currentFfStaticAmp | .currentFfViscousAmpPerRpm =>
    ∃ q : ℚ, value = .fin q ∧ 0 ≤ q
  | .velocityRunLeadGain | .velocityRunDisturbanceGain | .velocityRunObserverLX =>
    ∃ q : ℚ, value = .fin q ∧ 0 ≤ q ∧ q ≤ 1
  | .maxCurrentAmp => ∃ q : ℚ, value = .fin q ∧ 0 ≤ q ∧ q ≤ 4

def IntParam.InBounds (value : ℤ) : IntParam → Prop
  | .minCommandRpm | .stopResendIntervalMs | .commandWaitMs => INT_MIN ≤ value ∧ value ≤ INT_MAX
  | .driveFsmRunEnterRpm | .driveFsmRunExitRpm | .currentZeroDeadbandRpm =>
    0 ≤ value ∧ value ≤ INT_MAX
  | .velocityRunModelDelayTicks => 0 ≤ value ∧ value ≤ 4

/-- The value has the parameter's type and is within its bounds. -/
def RuntimeParam.InBounds : RuntimeParam → ParameterValue → Prop
  | .double p, .double value => p.InBounds value
  | .int p, .integer value => p.InBounds value
  | .bool _, .bool _ => True
  | _, _ => False

theorem require_ok {ok : Prop} [Decidable ok] {error : String} (h : require ok error = .ok ()) :
    ok := by
  by_contra hno
  rw [require, if_neg hno] at h
  cases h

section Finite

variable {q : ℚ}

theorem zero_lt_fin : (0 : Dbl) < .fin q ↔ 0 < q :=
  Dbl.fin_lt_fin (p := 0)

theorem fin_lt_zero : Dbl.fin q < 0 ↔ q < 0 :=
  Dbl.fin_lt_fin (q := 0)

theorem fin_le_zero : Dbl.fin q ≤ 0 ↔ q ≤ 0 :=
  Dbl.fin_le_fin (q := 0)

theorem one_lt_fin : (1 : Dbl) < .fin q ↔ 1 < q :=
  Dbl.fin_lt_fin (p := 1)

end Finite

theorem checkCurrentParam_ok {p : DoubleParam} {value : Dbl}
    (h : checkCurrentParam p value = .ok ()) :
    ∃ q : ℚ, value = .fin q ∧ 0 ≤ q ∧
      (p = .currentGuardOverspeedMarginRpm ∨ p = .currentGuardOverspeedTimeSec → 0 < q) ∧
      (p = .maxCurrentAmp → q ≤ 4) := by
  unfold checkCurrentParam at h
  split_ifs at h with hfin hguard hneg hmax
  · obtain ⟨q, rfl⟩ := Dbl.isfinite_iff.1 hfin
    have hpos : 0 < q := zero_lt_fin.1 (require_ok h)
    refine ⟨q, rfl, hpos.le, fun _ => hpos, ?_⟩
    rintro rfl
    simp at hguard
  · obtain ⟨q, rfl⟩ := Dbl.isfinite_iff.1 hfin
    refine ⟨q, rfl, not_lt.1 fun hq => hneg (fin_lt_zero.2 hq), fun hp => absurd hp hguard, ?_⟩
    intro hp
    by_contra hq
    exact hmax ⟨hp, Dbl.fin_lt_fin.2 (not_le.1 hq)⟩

theorem double_inBounds {p : DoubleParam} {value : Dbl} (h : p.check value = .ok ()) :
    p.InBounds value := by
  cases p with
  | maxLinearAccel | maxAngularAccel | slewTaperBandLinear | slewTaperBandAngular
  | cmdTimeoutSec | measuredLpfTauSec => trivial
  | velocityRunModelTauSec | velocityRunR | velocityRunFeedbackMaxAgeSec =>
    have hok := require_ok h
    rw [not_or, not_not] at hok
    obtain ⟨q, rfl⟩ := Dbl.isfinite_iff.1 hok.1
    exact ⟨q, rfl, not_le.1 fun hq => hok.2 (fin_le_zero.2 hq)⟩
  | velocityRunQ | velocityRunObserverLD | velocityRunMaxCorrectionRpm =>
    have hok := require_ok h
    rw [not_or, not_not] at hok
    obtain ⟨q, rfl⟩ := Dbl.isfinite_iff.1 hok.1
    exact ⟨q, rfl, not_lt.1 fun hq => hok.2 (fin_lt_zero.2 hq)⟩
  | velocityRunLeadGain | velocityRunDisturbanceGain | velocityRunObserverLX =>
    have hok := require_ok h
    rw [not_or, not_not, not_or] at hok
    obtain ⟨q, rfl⟩ := Dbl.isfinite_iff.1 hok.1
    exact ⟨q, rfl, not_lt.1 fun hq => hok.2.1 (fin_lt_zero.2 hq),
      not_lt.1 fun hq => hok.2.2 (one_lt_fin.2 hq)⟩
  | currentKp | currentKi | integralLimitAmp | currentFfStaticAmp | currentFfViscousAmpPerRpm =>
    obtain ⟨q, rfl, hq, -⟩ := checkCurrentParam_ok h
    exact ⟨q, rfl, hq⟩
  | maxCurrentAmp =>
    obtain ⟨q, rfl, hq, -, hmax⟩ := checkCurrentParam_ok h
    exact ⟨q, rfl, hq, hmax rfl⟩
  | currentGuardOverspeedMarginRpm | currentGuardOverspeedTimeSec =>
    obtain ⟨q, rfl, -, hpos, -⟩ := checkCurrentParam_ok h
    exact ⟨q, rfl, hpos (by simp)⟩

theorem int_inBounds {p : IntParam} {raw : ℤ} (h : p.check raw = .ok ()) : p.InBounds raw := by
  cases p with
  | minCommandRpm | stopResendIntervalMs | commandWaitMs | driveFsmRunEnterRpm
  | driveFsmRunExitRpm | velocityRunModelDelayTicks | currentZeroDeadbandRpm =>
    have hok := require_ok h
    rw [not_or, not_lt, not_lt] at hok
    exact hok

/-! ## Phase 1 -/

def Assignment.param : Assignment → RuntimeParam
  | .double p _ => .double p
  | .int p _ => .int p
  | .bool p _ => .bool p

def Assignment.value : Assignment → ParameterValue
  | .double _ value => .double value
  | .int _ value => .integer value
  | .bool _ value => .bool value

variable {M : Type} {typeError : Parameter → String} {controlMode : String}

theorem map_ok {α β ε : Type} {x : Except ε α} {f : α → β} {b : β} (h : x.map f = .ok b) :
    ∃ a, x = .ok a ∧ f a = b := by
  cases x with
  | error e => cases h
  | ok a => exact ⟨a, rfl, Except.ok.inj h⟩

theorem read_ok {p : RuntimeParam} {param : Parameter} {a : Assignment}
    (h : read typeError p param = .ok a) :
    a.param = p ∧ a.value = param.value ∧ p.InBounds param.value := by
  unfold read at h
  split at h
  · rename_i p value hvalue
    obtain ⟨⟨⟩, hcheck, rfl⟩ := map_ok h
    rw [hvalue]
    exact ⟨rfl, rfl, double_inBounds hcheck⟩
  · rename_i p raw hvalue
    obtain ⟨⟨⟩, hcheck, rfl⟩ := map_ok h
    rw [hvalue]
    exact ⟨rfl, rfl, int_inBounds hcheck⟩
  · rename_i p value hvalue
    obtain rfl := Except.ok.inj h
    rw [hvalue]
    exact ⟨rfl, rfl, trivial⟩
  · cases h

/-- The value listed last under a name. -/
def lastListed (params : List Parameter) (name : String) : Option ParameterValue :=
  (params.reverse.find? fun param => param.name = name).map (·.value)

def Listed (params : List Parameter) (q : RuntimeParam) : Prop :=
  ∃ param ∈ params, param.name = q.name

theorem lastListed_snoc (params : List Parameter) (param : Parameter) (name : String) :
    lastListed (params ++ [param]) name =
      if param.name = name then some param.value else lastListed params name := by
  simp only [lastListed, List.reverse_append, List.reverse_singleton, List.singleton_append,
    List.find?_cons]
  by_cases h : param.name = name <;> simp [h]

theorem listed_snoc {params : List Parameter} {param : Parameter} {q : RuntimeParam} :
    Listed (params ++ [param]) q ↔ Listed params q ∨ param.name = q.name := by
  simp [Listed, or_and_right, exists_or]

theorem value_assign (m : Members) (a : Assignment) (q : RuntimeParam) :
    (m.assign a).value q = if a.param = q then a.value else m.value q := by
  rcases a with ⟨p, v⟩ | ⟨p, v⟩ | ⟨p, v⟩ <;> rcases q with q | q | q <;>
    simp only [Members.assign, Members.value, Assignment.param, Assignment.value,
      Function.update_apply, RuntimeParam.double.injEq, RuntimeParam.int.injEq,
      RuntimeParam.bool.injEq, reduceCtorEq, if_false] <;>
    split_ifs <;> simp_all

/-- The members that belong to no runtime parameter are the same. -/
structure Members.Same (m m' : Members) : Prop where
  wheelRadius : m'.wheelRadius = m.wheelRadius
  wheelSeparation : m'.wheelSeparation = m.wheelSeparation
  controlMode : m'.controlMode = m.controlMode
  controlRate : m'.controlRate = m.controlRate

theorem same_assign (m : Members) (a : Assignment) : m.Same (m.assign a) := by
  cases a <;> exact ⟨rfl, rfl, rfl, rfl⟩

theorem same_assigns (m : Members) (as : List Assignment) :
    m.Same (as.foldl Members.assign m) := by
  induction as using List.reverseRecOn with
  | nil => exact ⟨rfl, rfl, rfl, rfl⟩
  | append_singleton as a ih =>
    rw [List.foldl_append]
    obtain ⟨hradius, hseparation, hmode, hrate⟩ := same_assign (as.foldl Members.assign m) a
    exact ⟨hradius.trans ih.wheelRadius, hseparation.trans ih.wheelSeparation,
      hmode.trans ih.controlMode, hrate.trans ih.controlRate⟩

/-- What the first phase has staged of a list, and that it refused none of it. -/
structure Accepted (params : List Parameter) (s : Staging) : Prop where
  value : ∀ (m : Members) (q : RuntimeParam),
    (s.staged.foldl Members.assign m).value q = (lastListed params q.name).getD (m.value q)
  staged : ∀ q, (∃ a ∈ s.staged, a.param = q) ↔ Listed params q
  dirty : ∀ flag, s.dirty flag = true ↔
    ∃ q : RuntimeParam, q.dirty = some flag ∧ Listed params q
  inBounds : ∀ param ∈ params, ∀ q : RuntimeParam, param.name = q.name → q.InBounds param.value
  allowed : ∀ param ∈ params, param.name ∉ kRequiresReconfigure

/-- A parameter that takes a branch. -/
theorem accepted_add {params : List Parameter} {s : Staging} {param : Parameter}
    {p : RuntimeParam} {a : Assignment} (h : Accepted params s) (hname : param.name = p.name)
    (hparam : a.param = p) (hvalue : a.value = param.value) (hbounds : p.InBounds param.value) :
    Accepted (params ++ [param]) (s.add controlMode p a) where
  value := by
    intro m q
    have hif : param.name = q.name ↔ a.param = q := by
      rw [hname, hparam]
      exact ⟨name_injective, congrArg RuntimeParam.name⟩
    simp only [Staging.add, List.foldl_append, List.foldl_cons, List.foldl_nil, value_assign,
      lastListed_snoc, h.value, hif, hvalue]
    split_ifs <;> rfl
  staged := by
    intro q
    rw [listed_snoc, ← h.staged q, hname]
    have hif : p.name = q.name ↔ a.param = q := by
      rw [hparam]
      exact ⟨name_injective, congrArg RuntimeParam.name⟩
    simp [Staging.add, or_and_right, exists_or, hif]
  dirty := by
    intro flag
    simp only [Staging.add, Bool.or_eq_true, decide_eq_true_eq, h.dirty flag, listed_snoc]
    constructor
    · rintro (⟨q, hq, hlisted⟩ | hp)
      · exact ⟨q, hq, .inl hlisted⟩
      · exact ⟨p, hp, .inr hname⟩
    · rintro ⟨q, hq, hlisted | hqname⟩
      · exact .inl ⟨q, hq, hlisted⟩
      · obtain rfl : p = q := name_injective (hname.symm.trans hqname)
        exact .inr hq
  inBounds := by
    intro param' hmem q hq
    rcases List.mem_append.1 hmem with hmem | hmem
    · exact h.inBounds param' hmem q hq
    · obtain rfl := List.mem_singleton.1 hmem
      obtain rfl : p = q := name_injective (hname.symm.trans hq)
      exact hbounds
  allowed := by
    intro param' hmem
    rcases List.mem_append.1 hmem with hmem | hmem
    · exact h.allowed param' hmem
    · obtain rfl := List.mem_singleton.1 hmem
      rw [hname]
      exact name_not_requiresReconfigure p

theorem accepted_skip {params : List Parameter} {s : Staging} {param : Parameter}
    (h : Accepted params s) (hno : branch param.name = none)
    (hallowed : param.name ∉ kRequiresReconfigure) : Accepted (params ++ [param]) s := by
  have hname : ∀ q : RuntimeParam, param.name ≠ q.name := by
    intro q hq
    rw [hq, branch_name] at hno
    cases hno
  constructor
  case value =>
    intro m q
    rw [lastListed_snoc, if_neg (hname q), h.value]
  case staged =>
    intro q
    rw [listed_snoc, h.staged q, or_iff_left (hname q)]
  case dirty =>
    intro flag
    simp only [h.dirty flag, listed_snoc, hname, or_false]
  case inBounds =>
    intro param' hmem q hq
    rcases List.mem_append.1 hmem with hmem | hmem
    · exact h.inBounds param' hmem q hq
    · obtain rfl := List.mem_singleton.1 hmem
      exact absurd hq (hname q)
  case allowed =>
    intro param' hmem
    rcases List.mem_append.1 hmem with hmem | hmem
    · exact h.allowed param' hmem
    · obtain rfl := List.mem_singleton.1 hmem
      exact hallowed

theorem accepted_stage {params : List Parameter} {s s' : Staging} {param : Parameter}
    (h : Accepted params s) (hstage : stage typeError controlMode s param = .ok s') :
    Accepted (params ++ [param]) s' := by
  unfold stage at hstage
  split at hstage
  · rename_i p hp
    obtain ⟨a, hread, rfl⟩ := map_ok hstage
    obtain ⟨hparam, hvalue, hbounds⟩ := read_ok hread
    exact accepted_add h (branch_eq_some_iff.1 hp) hparam hvalue hbounds
  · rename_i hno
    split_ifs at hstage with hrefused
    obtain rfl := Except.ok.inj hstage
    exact accepted_skip h hno (by simpa using hrefused)

theorem accepted_of_ok {params : List Parameter} : ∀ {s : Staging},
    params.foldlM (stage typeError controlMode) {} = .ok s → Accepted params s := by
  induction params using List.reverseRecOn with
  | nil =>
    intro s h
    obtain rfl := Except.ok.inj h
    exact ⟨by simp [lastListed], by simp [Listed], by simp [Listed], by simp, by simp⟩
  | append_singleton params param ih =>
    intro s h
    rw [List.foldlM_append] at h
    cases hfirst : params.foldlM (stage typeError controlMode) {} with
    | error what =>
      rw [hfirst] at h
      cases h
    | ok s' =>
      rw [hfirst] at h
      have hlast : stage typeError controlMode s' param = .ok s := by
        rw [← h]
        exact (bind_pure _).symm
      exact accepted_stage (ih hfirst) hlast

/-! ## Phase 2 -/

/-- What the motor library takes the value of a member as, where it has a
setting of it. -/
def Members.held (m : Members) : RuntimeParam → Option ParameterValue
  | .double .currentKp => some (.double (m.double .currentKp))
  | .double .currentKi => some (.double (m.double .currentKi))
  | .double .maxCurrentAmp => some (.double (Dbl.max 0 (m.double .maxCurrentAmp)))
  | .double .integralLimitAmp => some (.double (Dbl.max 0 (m.double .integralLimitAmp)))
  | .double .currentFfStaticAmp =>
    some (.double (if (m.double .currentFfStaticAmp).isfinite
      then Dbl.max 0 (m.double .currentFfStaticAmp) else 0))
  | .double .currentFfViscousAmpPerRpm =>
    some (.double (if (m.double .currentFfViscousAmpPerRpm).isfinite
      then Dbl.max 0 (m.double .currentFfViscousAmpPerRpm) else 0))
  | .double .currentGuardOverspeedMarginRpm =>
    some (.double (if (m.double .currentGuardOverspeedMarginRpm).isfinite ∧
        0 < m.double .currentGuardOverspeedMarginRpm
      then m.double .currentGuardOverspeedMarginRpm else .fin 50))
  | .double .currentGuardOverspeedTimeSec =>
    some (.double (if (m.double .currentGuardOverspeedTimeSec).isfinite ∧
        0 < m.double .currentGuardOverspeedTimeSec
      then m.double .currentGuardOverspeedTimeSec else .fin (3 / 10)))
  | .double .measuredLpfTauSec =>
    some (.double (if 0 < m.double .measuredLpfTauSec then m.double .measuredLpfTauSec else 0))
  | .int .stopResendIntervalMs => some (.integer (max 0 (m.int .stopResendIntervalMs)))
  | .int .commandWaitMs => some (.integer (max 0 (m.int .commandWaitMs)))
  | .int .currentZeroDeadbandRpm => some (.integer (max 0 (m.int .currentZeroDeadbandRpm)))
  | .bool .brakeOnStop => some (.bool (m.bool .brakeOnStop))
  | .bool .currentInvertMeasured => some (.bool (m.bool .currentInvertMeasured))
  | _ => none

/-- The motor library's setting of a parameter. -/
def MotorSettings.value (lib : MotorSettings) : RuntimeParam → Option ParameterValue
  | .double .currentKp => some (.double lib.currentKp)
  | .double .currentKi => some (.double lib.currentKi)
  | .double .maxCurrentAmp => some (.double lib.maxCurrentAmp)
  | .double .integralLimitAmp => some (.double lib.integralLimitAmp)
  | .double .currentFfStaticAmp => some (.double lib.currentFfStaticAmp)
  | .double .currentFfViscousAmpPerRpm => some (.double lib.currentFfViscousAmpPerRpm)
  | .double .currentGuardOverspeedMarginRpm => some (.double lib.overspeedMarginRpm)
  | .double .currentGuardOverspeedTimeSec => some (.double lib.overspeedTimeSec)
  | .double .measuredLpfTauSec => some (.double lib.measuredLpfTauSec)
  | .int .stopResendIntervalMs => some (.integer lib.stopResendIntervalMs)
  | .int .commandWaitMs => some (.integer lib.commandWaitMs)
  | .int .currentZeroDeadbandRpm => some (.integer lib.currentZeroDeadbandRpm)
  | .bool .brakeOnStop => some (.bool lib.brakeOnStop)
  | .bool .currentInvertMeasured => some (.bool lib.currentInvertMeasured)
  | _ => none

/-- The flag after which a setting of the motor library is written; one of no
flag is written by the commit. -/
def RuntimeParam.libFlag (q : RuntimeParam) : Option Dirty :=
  if q.dirty = some .controlCore then none else q.dirty

/-- A setting of the motor library is written when its parameter is listed, and
when one is that is set with it. -/
def Written (params : List Parameter) (q : RuntimeParam) : Prop :=
  Listed params q ∨ ∃ p, p.libFlag = q.libFlag ∧ q.libFlag ≠ none ∧ Listed params p

/-- The motor library's setting of a parameter, if there is a library. -/
def Component.libValue (c : Component M) (q : RuntimeParam) : Option ParameterValue :=
  c.motorLib.bind fun lib => lib.value q

/-- What the setting would be, made of the members. -/
def Component.held (c : Component M) (q : RuntimeParam) : Option ParameterValue :=
  if c.motorLib.isSome then c.members.held q else none

theorem members_held_congr {m m' : Members} {q : RuntimeParam} (h : m'.value q = m.value q) :
    m'.held q = m.held q := by
  rcases q with q | q | q
  · have h : m'.double q = m.double q := ParameterValue.double.inj h
    cases q <;> simp only [Members.held, h]
  · have h : m'.int q = m.int q := ParameterValue.integer.inj h
    cases q <;> simp only [Members.held, h]
  · have h : m'.bool q = m.bool q := ParameterValue.bool.inj h
    cases q <;> simp only [Members.held, h]

theorem held_congr {c c' : Component M} {q : RuntimeParam}
    (hsome : c'.motorLib.isSome = c.motorLib.isSome)
    (h : c'.members.value q = c.members.value q) : c'.held q = c.held q := by
  rw [Component.held, Component.held, hsome, members_held_congr h]

section Commit

variable (c : Component M) (a : Assignment)

theorem members_commit : (c.commit a).members = c.members.assign a := by
  unfold Component.commit
  split <;> rfl

theorem controlCore_commit : (c.commit a).controlCore = c.controlCore := by
  unfold Component.commit
  split <;> rfl

theorem isSome_motorLib_commit : (c.commit a).motorLib.isSome = c.motorLib.isSome := by
  unfold Component.commit
  split <;> simp

theorem diffDrive_commit : (c.commit a).diffDrive =
    if a.param = .int .minCommandRpm then
      c.diffDrive.map (·.setMinCommandRpm ((c.commit a).members.int .minCommandRpm))
    else c.diffDrive := by
  rw [members_commit]
  rcases a with ⟨p, v⟩ | ⟨p, v⟩ | ⟨p, v⟩ <;> cases p <;>
    simp [Component.commit, Assignment.param, Members.assign]

/-- A commit writes the library's setting of its parameter, if it is one of no
flag, and no other. -/
theorem libValue_commit (q : RuntimeParam) : (c.commit a).libValue q =
    if a.param = q ∧ q.libFlag = none then (c.commit a).held q else c.libValue q := by
  obtain ⟨m, lib, drive, core⟩ := c
  cases lib with
  | none =>
    have hnone : ∀ c : Component M, c.motorLib.isSome = false → c.libValue q = none ∧ c.held q = none := by
      intro c hc
      rw [Option.isSome_eq_false_iff, Option.isNone_iff_eq_none] at hc
      simp [Component.libValue, Component.held, hc]
    obtain ⟨hvalue, hheld⟩ := hnone _ (isSome_motorLib_commit ⟨m, none, drive, core⟩ a)
    rw [hvalue, hheld, (hnone ⟨m, none, drive, core⟩ rfl).1, ite_self]
  | some lib =>
    by_cases hq : a.param = q
    · subst hq
      rcases a with ⟨p, v⟩ | ⟨p, v⟩ | ⟨p, v⟩ <;> cases p <;>
        simp [Component.commit, Component.libValue, Component.held, Assignment.param,
          MotorSettings.value, Members.held, Members.assign, RuntimeParam.libFlag,
          RuntimeParam.dirty, MotorSettings.setBrakeOnStop, MotorSettings.setCommandWaitMs,
          MotorSettings.setStopResendIntervalMs, MotorSettings.setMeasuredLowpassTau,
          MotorSettings.setCurrentZeroDeadbandRpm, MotorSettings.setCurrentInvertMeasured,
          MotorSettings.clearCurrentGuardTrips]
    · rw [if_neg fun h => hq h.1]
      rcases a with ⟨p, v⟩ | ⟨p, v⟩ | ⟨p, v⟩ <;> cases p <;> try rfl
      all_goals
        rcases q with q | q | q <;> cases q <;> first | rfl | exact absurd rfl hq

end Commit

section Commits

variable (c : Component M) (as : List Assignment)

theorem members_commits :
    (as.foldl Component.commit c).members = as.foldl Members.assign c.members := by
  induction as using List.reverseRecOn with
  | nil => rfl
  | append_singleton as a ih =>
    simp only [List.foldl_append, List.foldl_cons, List.foldl_nil, members_commit, ih]

theorem controlCore_commits : (as.foldl Component.commit c).controlCore = c.controlCore := by
  induction as using List.reverseRecOn with
  | nil => rfl
  | append_singleton as a ih =>
    simp only [List.foldl_append, List.foldl_cons, List.foldl_nil, controlCore_commit, ih]

theorem value_commit_of_ne {a : Assignment} {q : RuntimeParam} (h : a.param ≠ q) :
    (c.commit a).members.value q = c.members.value q := by
  rw [members_commit, value_assign, if_neg h]

theorem exists_snoc_param {as : List Assignment} {a : Assignment} {q : RuntimeParam} :
    (∃ b ∈ as ++ [a], b.param = q) ↔ (∃ b ∈ as, b.param = q) ∨ a.param = q := by
  simp [or_and_right, exists_or]

theorem diffDrive_commits : (as.foldl Component.commit c).diffDrive =
    if ∃ a ∈ as, a.param = .int .minCommandRpm then
      c.diffDrive.map
        (·.setMinCommandRpm ((as.foldl Component.commit c).members.int .minCommandRpm))
    else c.diffDrive := by
  induction as using List.reverseRecOn with
  | nil => simp
  | append_singleton as a ih =>
    simp only [List.foldl_append, List.foldl_cons, List.foldl_nil, exists_snoc_param]
    rw [diffDrive_commit, ih]
    by_cases ha : a.param = .int .minCommandRpm
    · simp only [ha, or_true, if_true]
      split_ifs
      · rw [Option.map_map]
        rfl
      · rfl
    · have hsame : ((as.foldl Component.commit c).commit a).members.int .minCommandRpm =
          (as.foldl Component.commit c).members.int .minCommandRpm :=
        ParameterValue.integer.inj (value_commit_of_ne _ ha)
      simp only [ha, if_false, or_false, hsame]

theorem libValue_commits (q : RuntimeParam) : (as.foldl Component.commit c).libValue q =
    if (∃ a ∈ as, a.param = q) ∧ q.libFlag = none then (as.foldl Component.commit c).held q
    else c.libValue q := by
  induction as using List.reverseRecOn with
  | nil => simp
  | append_singleton as a ih =>
    simp only [List.foldl_append, List.foldl_cons, List.foldl_nil, exists_snoc_param]
    rw [libValue_commit, ih]
    by_cases ha : a.param = q
    · by_cases hflag : q.libFlag = none <;> simp [ha, hflag]
    · have hheld : ((as.foldl Component.commit c).commit a).held q =
          (as.foldl Component.commit c).held q :=
        held_congr (isSome_motorLib_commit _ a) (value_commit_of_ne _ ha)
      simp only [ha, false_and, if_false, or_false, hheld]

end Commits

section SetUp

variable (c : Component M) (dirty : Dirty → Bool) (flag : Dirty)

theorem members_setUpIf : (c.setUpIf dirty flag).members = c.members := by
  unfold Component.setUpIf Component.setUp
  split <;> cases flag <;> rfl

theorem isSome_motorLib_setUpIf :
    (c.setUpIf dirty flag).motorLib.isSome = c.motorLib.isSome := by
  unfold Component.setUpIf Component.setUp
  split <;> cases flag <;> simp

theorem diffDrive_setUpIf : (c.setUpIf dirty flag).diffDrive = c.diffDrive := by
  unfold Component.setUpIf Component.setUp
  split <;> cases flag <;> rfl

theorem controlCore_setUpIf : (c.setUpIf dirty flag).controlCore =
    if flag = .controlCore ∧ dirty flag then
      c.controlCore.map (·.setConfig c.members.makeControlCoreConfig)
    else c.controlCore := by
  unfold Component.setUpIf Component.setUp
  cases flag <;> cases dirty _ <;> rfl

theorem held_setUpIf (q : RuntimeParam) : (c.setUpIf dirty flag).held q = c.held q :=
  held_congr (isSome_motorLib_setUpIf c dirty flag) (by rw [members_setUpIf])

theorem libValue_setUp (q : RuntimeParam) : (c.setUp flag).libValue q =
    if q.libFlag = some flag then c.held q else c.libValue q := by
  obtain ⟨m, lib, drive, core⟩ := c
  cases lib with
  | none => cases flag <;> exact (ite_self _).symm
  | some lib =>
    cases flag <;> rcases q with q | q | q <;> cases q <;> rfl

theorem libValue_setUpIf (q : RuntimeParam) : (c.setUpIf dirty flag).libValue q =
    if dirty flag = true ∧ q.libFlag = some flag then c.held q else c.libValue q := by
  unfold Component.setUpIf
  cases hdirty : dirty flag
  · simp
  · simpa using libValue_setUp c flag q

end SetUp

section Phase2

variable (c : Component M) (s : Staging)

theorem members_phase2 : (c.phase2 s).members = s.staged.foldl Members.assign c.members := by
  simp only [Component.phase2, List.foldl_cons, List.foldl_nil, members_setUpIf, members_commits]

theorem diffDrive_phase2 : (c.phase2 s).diffDrive =
    if ∃ a ∈ s.staged, a.param = .int .minCommandRpm then
      c.diffDrive.map (·.setMinCommandRpm ((c.phase2 s).members.int .minCommandRpm))
    else c.diffDrive := by
  rw [members_phase2, ← members_commits, ← diffDrive_commits]
  simp only [Component.phase2, List.foldl_cons, List.foldl_nil, diffDrive_setUpIf]

theorem controlCore_phase2 : (c.phase2 s).controlCore =
    if s.dirty .controlCore then
      c.controlCore.map (·.setConfig (c.phase2 s).members.makeControlCoreConfig)
    else c.controlCore := by
  rw [members_phase2, ← members_commits]
  simp [Component.phase2, controlCore_setUpIf, members_setUpIf, controlCore_commits]

/-- A setting is made of the members where its flag is set, or, without a flag,
where its parameter is staged. -/
def Staging.reaches (q : RuntimeParam) : Bool :=
  match q.libFlag with
  | none => decide (∃ a ∈ s.staged, a.param = q)
  | some flag => s.dirty flag

theorem libFlag_ne_controlCore (q : RuntimeParam) : q.libFlag ≠ some .controlCore := by
  unfold RuntimeParam.libFlag
  split_ifs with h <;> simp [h]

theorem libValue_phase2 (q : RuntimeParam) : (c.phase2 s).libValue q =
    if s.reaches q then (c.phase2 s).held q else c.libValue q := by
  have hcore := libFlag_ne_controlCore q
  have hheld : (c.phase2 s).held q = (s.staged.foldl Component.commit c).held q := by
    simp only [Component.phase2, List.foldl_cons, List.foldl_nil, held_setUpIf]
  rw [hheld]
  simp only [Component.phase2, List.foldl_cons, List.foldl_nil, libValue_setUpIf, held_setUpIf,
    libValue_commits]
  cases hflag : q.libFlag with
  | none => simp [Staging.reaches, hflag]
  | some flag =>
    have hreaches : s.reaches q = s.dirty flag := by simp [Staging.reaches, hflag]
    rw [hreaches]
    cases flag <;> simp_all

end Phase2

/-! ## The whole call -/

theorem reaches_iff {params : List Parameter} {s : Staging} (h : Accepted params s)
    (q : RuntimeParam) : s.reaches q = true ↔ Written params q := by
  have hcore := libFlag_ne_controlCore q
  unfold Staging.reaches Written
  cases hflag : q.libFlag with
  | none => simp [h.staged q]
  | some flag =>
    have hdirty : ∀ p : RuntimeParam, p.libFlag = some flag ↔ p.dirty = some flag := by
      intro p
      unfold RuntimeParam.libFlag
      split_ifs with hp
      · rw [hp]
        simp only [false_iff]
        rintro ⟨⟩
        exact hcore hflag
      · rfl
    simp only [h.dirty flag, hdirty, ne_eq, reduceCtorEq, not_false_eq_true, true_and]
    constructor
    · exact .inr
    · rintro (hlisted | hlisted)
      · exact ⟨q, (hdirty q).1 hflag, hlisted⟩
      · exact hlisted

/-- The core is given a configuration when a parameter of it is listed. -/
def CoreListed (params : List Parameter) : Prop :=
  ∃ q : RuntimeParam, q.dirty = some .controlCore ∧ Listed params q

/-- A number that is not negative, or no number. -/
def ParameterValue.NonNeg : ParameterValue → Prop
  | .integer value => 0 ≤ value
  | .double value => ∃ q : ℚ, value = .fin q ∧ 0 ≤ q
  | _ => True

theorem max_zero_fin {q : ℚ} (h : 0 ≤ q) : Dbl.max 0 (.fin q) = .fin q := by
  unfold Dbl.max
  split_ifs with hpos
  · rfl
  · have hzero : q = 0 := le_antisymm (not_lt.1 fun hq => hpos (zero_lt_fin.2 hq)) h
    rw [hzero]
    rfl

theorem held_eq_value {m : Members} {q : RuntimeParam} (hbounds : q.InBounds (m.value q))
    (hnonneg : (m.value q).NonNeg) : m.held q = none ∨ m.held q = some (m.value q) := by
  rcases q with p | p | p
  · obtain ⟨x, hx, hnonneg⟩ : ∃ x : ℚ, m.double p = .fin x ∧ 0 ≤ x := hnonneg
    have hmax := max_zero_fin hnonneg
    cases p
    case currentGuardOverspeedMarginRpm | currentGuardOverspeedTimeSec =>
      obtain ⟨y, hy, hpos⟩ : ∃ y : ℚ, m.double _ = .fin y ∧ 0 < y := hbounds
      obtain rfl := Dbl.fin.inj (hx.symm.trans hy)
      simp [Members.held, Members.value, hx, zero_lt_fin.2 hpos]
    case measuredLpfTauSec =>
      rcases hnonneg.lt_or_eq with hpos | rfl
      · simp [Members.held, Members.value, hx, zero_lt_fin.2 hpos]
      · right
        simp only [Members.held, Members.value, hx]
        split_ifs <;> rfl
    all_goals simp [Members.held, Members.value, hx, hmax]
  · have hnonneg : 0 ≤ m.int p := hnonneg
    cases p <;> simp [Members.held, Members.value, max_eq_right hnonneg]
  · cases p <;> simp [Members.held, Members.value]

theorem lastListed_of_listed {params : List Parameter} {q : RuntimeParam}
    (h : Listed params q) :
    ∃ param ∈ params, param.name = q.name ∧ lastListed params q.name = some param.value := by
  obtain ⟨param, hmem, hname⟩ := h
  have hsome : (params.reverse.find? fun param => param.name = q.name).isSome := by
    rw [List.find?_isSome]
    exact ⟨param, List.mem_reverse.2 hmem, by simpa using hname⟩
  obtain ⟨last, hlast⟩ := Option.isSome_iff_exists.1 hsome
  refine ⟨last, List.mem_reverse.1 (List.mem_of_find?_eq_some hlast), ?_, ?_⟩
  · simpa using List.find?_some hlast
  · rw [lastListed, hlast]
    rfl

open Classical in
/-- A list of changes is refused as a whole, and then nothing has changed; or
taken as a whole. Then every listed value is within the bounds of its parameter,
and none is of a parameter that needs a restart. Every member has the value
listed last for it, or else its old one. Each setting of the motor library, the
differential drive and the control core that a listed parameter reaches is the
members' value as it is taken there, and every other setting is unchanged. The motor library takes a listed value
that is not negative as it is. -/
theorem onParameterChange_atomic (c : Component M) (typeError : Parameter → String)
    (params : List Parameter) :
    let r := (onParameterChange c typeError params).1
    let result := (onParameterChange c typeError params).2.1
    (result.successful = false → r = c) ∧
    (result.successful = true →
      (∀ param ∈ params, param.name ∉ kRequiresReconfigure) ∧
      (∀ param ∈ params, ∀ q : RuntimeParam, param.name = q.name → q.InBounds param.value) ∧
      (∀ q : RuntimeParam,
        r.members.value q = (lastListed params q.name).getD (c.members.value q)) ∧
      c.members.Same r.members ∧
      (∀ q : RuntimeParam, r.libValue q = if Written params q then r.held q else c.libValue q) ∧
      (∀ q : RuntimeParam, Listed params q → (r.members.value q).NonNeg →
        r.held q = none ∨ r.held q = some (r.members.value q)) ∧
      (r.diffDrive =
        if Listed params (.int .minCommandRpm) then
          c.diffDrive.map (·.setMinCommandRpm (r.members.int .minCommandRpm))
        else c.diffDrive) ∧
      (r.controlCore =
        if CoreListed params then
          c.controlCore.map (·.setConfig r.members.makeControlCoreConfig)
        else c.controlCore)) := by
  unfold onParameterChange
  cases hphase1 : params.foldlM (stage typeError c.members.controlMode) {} with
  | error what => exact ⟨fun _ => rfl, fun h => by cases h⟩
  | ok s =>
    have h := accepted_of_ok hphase1
    have hvalue : ∀ q, (c.phase2 s).members.value q =
        (lastListed params q.name).getD (c.members.value q) := by
      intro q
      rw [members_phase2, h.value]
    refine ⟨fun h => (by cases h), fun _ => ⟨h.allowed, h.inBounds, hvalue, ?_, ?_, ?_, ?_, ?_⟩⟩
    · show c.members.Same (c.phase2 s).members
      rw [members_phase2]
      exact same_assigns _ _
    · intro q
      show (c.phase2 s).libValue q = _
      rw [libValue_phase2]
      exact if_congr (reaches_iff h q) rfl rfl
    · intro q hlisted hnonneg
      obtain ⟨param, hmem, hname, hlast⟩ := lastListed_of_listed hlisted
      have hbounds : q.InBounds ((c.phase2 s).members.value q) := by
        rw [hvalue, hlast]
        exact h.inBounds param hmem q hname
      show (c.phase2 s).held q = none ∨ (c.phase2 s).held q = some _
      unfold Component.held
      split_ifs
      · exact held_eq_value hbounds hnonneg
      · exact .inl rfl
    · show (c.phase2 s).diffDrive = _
      rw [diffDrive_phase2]
      exact if_congr (h.staged _) rfl rfl
    · show (c.phase2 s).controlCore = _
      rw [controlCore_phase2]
      exact if_congr (h.dirty _) rfl rfl

/-- A component with its motors initialized, and every number one. -/
def running : Component Unit where
  members :=
    { double := fun _ => 1, int := fun _ => 1, bool := fun _ => false, wheelRadius := 1,
      wheelSeparation := 1, controlMode := "velocity", controlRate := 50 }
  motorLib := some
    { currentKp := 1, currentKi := 1, maxCurrentAmp := 1, integralLimitAmp := 1,
      currentFfStaticAmp := 1, currentFfViscousAmpPerRpm := 1, overspeedMarginRpm := 1,
      overspeedTimeSec := 1, currentZeroDeadbandRpm := 1, currentInvertMeasured := false,
      brakeOnStop := false, stopResendIntervalMs := 1, measuredLpfTauSec := 1, commandWaitMs := 1,
      currentGuardTrips := ∅ }

/-- A negative interval is accepted and kept, and the motor library takes it as
zero. -/
theorem stopResend_negative :
    let r := onParameterChange running Parameter.name [⟨"stop_resend_interval_ms", .integer (-1)⟩]
    r.2.1.successful = true ∧ r.1.members.int .stopResendIntervalMs = -1 ∧
      r.1.motorLib.map (·.stopResendIntervalMs) = some 0 := by
  decide

/-- A gain listed twice. -/
theorem onParameterChange_atomic_twice :
    (onParameterChange running Parameter.name
      [⟨"current_kp", .double 2⟩, ⟨"current_kp", .double 3⟩]).1.members.value
        (.double .currentKp) = .double 3 :=
  ((onParameterChange_atomic running Parameter.name
    [⟨"current_kp", .double 2⟩, ⟨"current_kp", .double 3⟩]).2 (by decide)).2.2.1 _

end Questix.MotorControl.DriveParams
