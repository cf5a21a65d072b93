/-
Questix.RobotManager.ExcludeTopics — the topics a trial's recording leaves
out, and those it may not leave out: `_split_excludes`, `_protect_excludes`
and the exclude argument of `_build_record_command` in `recorder.py`.

`_protect_excludes` judges each token on its own, and keeps one that does not
compile. The recorder is given the tokens joined by bars in a group, where
tokens that do not compile alone may be one expression together. So the
protected topics are safe where every kept token compiles, and else as far as
no run of tokens that compile only together matches one (`Spared`).
-/
import Questix.ControlConfig.ControlProfile
import Questix.Lib.Regex
import Questix.Lib.Words

namespace Questix.RobotManager.ExcludeTopics

open Questix.Lib Questix.Lib.Regex
open Questix.ControlConfig (Text isSpace)

/-! ## The exclude expression -/

/-- `PROTECTED_TOPICS` of `trial.py`. -/
def PROTECTED_TOPICS : List Text :=
  ["/target_twist".toList, "/drive_status".toList, "/emergency_stop".toList,
    "/actuation_authority".toList, "/motion_permission".toList, "/lab_permission".toList,
    "/command_arbiter/status".toList]

/-- A character of `_TOPIC_RE`. -/
def topicChar (c : Char) : Bool :=
  c.isAlphanum || "_/.*+()[]|-".toList.contains c

def splitExcludes (raw : Text) : List Text := words (fun c => isSpace c || c = ',') raw

/-- `_validate_excludes`: every token matches `_TOPIC_RE`. -/
def validateExcludes (raw : Text) : Bool := (splitExcludes raw).all fun token => token.all topicChar

/-- The test of `_protect_excludes`: a token that compiles and matches a protected
topic is dropped. -/
def dropsEvidence (token : Text) : Bool := PROTECTED_TOPICS.any fun topic => matchesWhole token topic

/-- The tokens kept, and the ones dropped. -/
def protectExcludes (excludes : List Text) : List Text × List Text :=
  (excludes.filter fun token => !dropsEvidence token, excludes.filter dropsEvidence)

/-- The `-x` argument of `_build_record_command`; `none` where there is none, and an
error for a token that is not allowed. -/
def excludeArgument (raw : Text) : Except Text (Option Text) :=
  let excludes := splitExcludes raw
  match excludes.find? fun token => !token.all topicChar with
  | some token => .error ("Invalid exclude pattern: ".toList ++ token)
  | none =>
    if excludes = [] then .ok none else .ok (some ('(' :: ['|'].intercalate excludes ++ [')']))

/-- The tokens `_start_trial` keeps. -/
def keptExcludes (raw : Text) : List Text := (protectExcludes (splitExcludes raw)).1

/-- The exclude argument `_start_trial` starts the recorder with. -/
def trialExclude (raw : Text) : Except Text (Option Text) :=
  excludeArgument ([' '].intercalate (keptExcludes raw))

/-! ## The kept tokens reach the recorder -/

theorem mem_keptExcludes {raw token : Text} :
    token ∈ keptExcludes raw ↔ token ∈ splitExcludes raw ∧ dropsEvidence token = false := by
  simp [keptExcludes, protectExcludes]

theorem splitExcludes_kept (raw : Text) :
    splitExcludes ([' '].intercalate (keptExcludes raw)) = keptExcludes raw := by
  have hword : ∀ token ∈ keptExcludes raw,
      token ≠ [] ∧ ∀ c ∈ token, (isSpace c || decide (c = ',')) = false := by
    intro token htoken
    exact not_space_of_mem_words (mem_keptExcludes.1 htoken).1
  rw [splitExcludes, words_intercalate (by decide) _ fun token htoken => (hword token htoken).2]
  refine List.filter_eq_self.2 ?_
  intro token htoken
  cases token with
  | nil => exact absurd rfl (hword [] htoken).1
  | cons c token => rfl

theorem trialExclude_eq {raw : Text} (h : validateExcludes raw = true) :
    trialExclude raw = .ok (if keptExcludes raw = [] then none
      else some ('(' :: ['|'].intercalate (keptExcludes raw) ++ [')'])) := by
  have hallowed : (keptExcludes raw).find? (fun token => !token.all topicChar) = none := by
    rw [List.find?_eq_none]
    intro token htoken
    have := List.all_eq_true.1 h token (mem_keptExcludes.1 htoken).1
    simp [this]
  rw [trialExclude, excludeArgument, splitExcludes_kept]
  simp only [hallowed]
  split <;> rfl

/-! ## Runs of tokens -/

/-- The list is cut into runs of neighbours that compile when they are joined by
bars. -/
def CutInto (tokens : List Text) (runs : List (List Text)) : Prop :=
  runs.flatten = tokens ∧ ∀ run ∈ runs, run ≠ [] ∧ (compile (['|'].intercalate run)).isSome = true

theorem intercalate_cons {s : Text} {ss : List Text} (h : ss ≠ []) :
    ['|'].intercalate (s :: ss) = s ++ '|' :: ['|'].intercalate ss := by
  cases ss with
  | nil => exact absurd rfl h
  | cons t ss => simp [List.intercalate]

theorem intercalate_append {ss ts : List Text} (hs : ss ≠ []) (ht : ts ≠ []) :
    ['|'].intercalate (ss ++ ts) = ['|'].intercalate ss ++ '|' :: ['|'].intercalate ts := by
  induction ss with
  | nil => exact absurd rfl hs
  | cons s ss ih =>
    cases ss with
    | nil => simpa [List.intercalate] using intercalate_cons ht
    | cons s' ss =>
      have hih := ih (by simp)
      rw [List.cons_append, intercalate_cons (by simp), hih, intercalate_cons (List.cons_ne_nil s' ss)]
      simp

theorem intercalate_runs : ∀ {runs : List (List Text)}, (∀ run ∈ runs, run ≠ []) →
    ['|'].intercalate (runs.map fun run => ['|'].intercalate run) = ['|'].intercalate runs.flatten
  | [], _ => rfl
  | [run], _ => by simp [List.intercalate]
  | run :: run' :: runs, h => by
      have hrest : ['|'].intercalate ((run' :: runs).map fun run => ['|'].intercalate run) =
          ['|'].intercalate (run' :: runs).flatten :=
        intercalate_runs fun r hr => h r (List.mem_cons_of_mem _ hr)
      have hne : (run' :: runs).flatten ≠ [] := by
        intro hnil
        exact h run' (by simp) (List.flatten_eq_nil_iff.1 hnil run' (by simp))
      have hflatten : (run :: run' :: runs).flatten = run ++ (run' :: runs).flatten := rfl
      rw [hflatten, intercalate_append (h run (by simp)) hne, List.map_cons,
        intercalate_cons (by simp), hrest]

theorem matchesWhole_cut {tokens : List Text} {runs : List (List Text)} (h : CutInto tokens runs)
    (hne : tokens ≠ []) (topic : Text) :
    matchesWhole ('(' :: ['|'].intercalate tokens ++ [')']) topic = true ↔
      ∃ run ∈ runs, matchesWhole (['|'].intercalate run) topic = true := by
  obtain ⟨rfl, hruns⟩ := h
  have hsome : runs.map (fun run => ['|'].intercalate run) ≠ [] := by
    intro hnil
    rw [List.map_eq_nil_iff.1 hnil] at hne
    exact hne rfl
  obtain ⟨r, hr, hmatch⟩ := compile_intercalate hsome (by
    intro s hs
    obtain ⟨run, hrun, rfl⟩ := List.mem_map.1 hs
    exact (hruns run hrun).2)
  rw [intercalate_runs fun run hrun => (hruns run hrun).1] at hr
  obtain ⟨r', hr', hsame⟩ := compile_group hr
  have hgroup : matchesWhole ('(' :: ['|'].intercalate runs.flatten ++ [')']) topic =
      r'.fullmatch topic := by
    rw [matchesWhole, hr']
    rfl
  rw [hgroup, hsame, hmatch]
  simp

/-! ## The protected topics -/

/-- The exclude argument leaves the protected topics in the recording. -/
def SparesEvidence (exclude : Option Text) : Prop :=
  ∀ e ∈ exclude, dropsEvidence e = false

/-- The tokens can be cut into runs that compile, and none of several tokens
matches a protected topic; or they cannot be cut so, because a bracket of a
token reaches out of them, and the group itself does not match one. -/
def Spared (tokens : List Text) : Prop :=
  (∃ runs, CutInto tokens runs ∧
    ∀ run ∈ runs, 2 ≤ run.length → dropsEvidence (['|'].intercalate run) = false) ∨
  ((¬ ∃ runs, CutInto tokens runs) ∧
    dropsEvidence ('(' :: ['|'].intercalate tokens ++ [')']) = false)

theorem dropsEvidence_iff {token : Text} :
    dropsEvidence token = true ↔ ∃ topic ∈ PROTECTED_TOPICS, matchesWhole token topic = true :=
  List.any_eq_true

/-- Of the runs of kept tokens only those of several tokens are in question. -/
theorem dropsEvidence_cut {raw : Text} {runs : List (List Text)} (h : CutInto (keptExcludes raw) runs)
    (hne : keptExcludes raw ≠ []) :
    dropsEvidence ('(' :: ['|'].intercalate (keptExcludes raw) ++ [')']) = false ↔
      ∀ run ∈ runs, 2 ≤ run.length → dropsEvidence (['|'].intercalate run) = false := by
  have hdrops : dropsEvidence ('(' :: ['|'].intercalate (keptExcludes raw) ++ [')']) = true ↔
      ∃ run ∈ runs, dropsEvidence (['|'].intercalate run) = true := by
    simp only [dropsEvidence_iff, matchesWhole_cut h hne]
    constructor
    · rintro ⟨topic, htopic, run, hrun, hmatch⟩
      exact ⟨run, hrun, topic, htopic, hmatch⟩
    · rintro ⟨run, hrun, topic, htopic, hmatch⟩
      exact ⟨topic, htopic, run, hrun, hmatch⟩
  rw [← Bool.not_eq_true, hdrops]
  push Not
  constructor
  · intro hall run hrun _
    exact Bool.eq_false_iff.2 (hall run hrun)
  · intro hall run hrun
    match run, hrun with
    | [], hrun => exact absurd rfl (h.2 _ hrun).1
    | [token], hrun =>
      have hkept : token ∈ keptExcludes raw := by
        rw [← h.1]
        exact List.mem_flatten.2 ⟨_, hrun, by simp⟩
      have hsingle : ['|'].intercalate [token] = token := by simp [List.intercalate]
      rw [hsingle, (mem_keptExcludes.1 hkept).2]
      exact Bool.false_ne_true
    | token :: token' :: run, hrun =>
      rw [hall _ hrun (by simp)]
      exact Bool.false_ne_true

theorem cut_singles {tokens : List Text} (h : ∀ token ∈ tokens, (compile token).isSome = true) :
    CutInto tokens (tokens.map fun token => [token]) := by
  constructor
  · induction tokens with
    | nil => rfl
    | cons token tokens ih => simpa using ih fun t ht => h t (List.mem_cons_of_mem _ ht)
  · intro run hrun
    obtain ⟨token, htoken, rfl⟩ := List.mem_map.1 hrun
    exact ⟨by simp, by simpa [List.intercalate] using h token htoken⟩

/-- For every accepted text: the recorder of a trial keeps the protected topics if
every kept token compiles on its own, and in general exactly where no run of
tokens that compile only together matches one. -/
theorem trialExclude_spares_iff {raw : Text} (h : validateExcludes raw = true) :
    ∃ exclude, trialExclude raw = .ok exclude ∧
      ((∀ token ∈ keptExcludes raw, (compile token).isSome = true) → SparesEvidence exclude) ∧
      (SparesEvidence exclude ↔ Spared (keptExcludes raw)) := by
  refine ⟨_, trialExclude_eq h, ?_⟩
  by_cases hne : keptExcludes raw = []
  · rw [if_pos hne, hne]
    refine ⟨fun _ e he => (by cases he), fun _ => .inl ⟨[], ⟨rfl, by simp⟩, by simp⟩, ?_⟩
    intro _ e he
    cases he
  · rw [if_neg hne]
    have hspares : SparesEvidence (some ('(' :: ['|'].intercalate (keptExcludes raw) ++ [')'])) ↔
        dropsEvidence ('(' :: ['|'].intercalate (keptExcludes raw) ++ [')']) = false := by
      simp [SparesEvidence]
    rw [hspares]
    constructor
    · intro hall
      rw [dropsEvidence_cut (cut_singles hall) hne]
      intro run hrun hlong
      obtain ⟨token, -, rfl⟩ := List.mem_map.1 hrun
      simp at hlong
    · constructor
      · intro hsafe
        by_cases hcut : ∃ runs, CutInto (keptExcludes raw) runs
        · obtain ⟨runs, hcut⟩ := hcut
          exact .inl ⟨runs, hcut, (dropsEvidence_cut hcut hne).1 hsafe⟩
        · exact .inr ⟨hcut, hsafe⟩
      · rintro (⟨runs, hcut, hsafe⟩ | ⟨-, hsafe⟩)
        · exact (dropsEvidence_cut hcut hne).2 hsafe
        · exact hsafe

def fusedExcludes : Text := "/emergency_[s stop]+".toList

/-- Joined by a bar the two are one set, and the expression matches
`/emergency_stop`. -/
theorem fused_drops_emergencyStop :
    validateExcludes fusedExcludes = true ∧
    trialExclude fusedExcludes = .ok (some "(/emergency_[s|stop]+)".toList) ∧
    "/emergency_stop".toList ∈ PROTECTED_TOPICS ∧
    matchesWhole "(/emergency_[s|stop]+)".toList "/emergency_stop".toList = true := by
  decide

theorem trialExclude_spares_iff_camera :
    ∃ exclude, trialExclude "/camera/.*, /emergency_stop".toList = .ok exclude ∧
      SparesEvidence exclude := by
  have haccepted : validateExcludes "/camera/.*, /emergency_stop".toList = true := by
    decide
  obtain ⟨exclude, hexclude, hspares, -⟩ := trialExclude_spares_iff haccepted
  exact ⟨exclude, hexclude, hspares (by decide)⟩

end Questix.RobotManager.ExcludeTopics
