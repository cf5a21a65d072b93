/-
Questix.RobotManager.ControlsTheorems — whether the controls that the web page
shows are the ones the robot uses.

The page and the launch move the launcher's keys of an older profile each in
its own way: one works on the parameters of the nodes, the other one on the
whole document. They leave the same parameters for every node
(`migrate_parameters`). So what the nodes get is what `validate` is given, but
for the one-axis form of the tilt, which the launcher's node resolves itself
(`joyLauncher_oneAxis`), and but for an integer in a field of floats: the page
shows it as a float, and a parameter of the robot is not one.
-/
import Questix.JoyController.JoyLauncher
import Questix.RobotManager.Controls

namespace Questix.RobotManager.Controls

open Questix.Lib Questix.ControlConfig Questix.JoyController

/-! ## Specification -/

/-- The parameters that the launch gives a node. -/
def robotParameters (safeLoad : Text → Except String Document) (controller : Controller)
    (files : Files) (node : Key) : Params :=
  match selectProfile safeLoad none controller files.saved files.packaged with
  | some profile => profile.parameters safeLoad node
  | none => ∅

def floatAt (clean : Dict Key Params) (node : Key) (key : String) : Dbl :=
  match (clean.lookup node).bind (AList.lookup (key : Key)) with
  | some (.float x) => x
  | _ => 0

/-- The launcher's buttons as they are shown. -/
def shownConfig (values : Dict Key Params) : LauncherMappingConfig where
  fireButton := intAt values launcherNode "fire_button"
  tiltUpAxis := intAt values launcherNode up.axis
  tiltUpAxisSign := intAt values launcherNode up.sign
  tiltDownAxis := intAt values launcherNode down.axis
  tiltDownAxisSign := intAt values launcherNode down.sign
  tiltUpButtonIndex := intAt values launcherNode up.button
  tiltDownButtonIndex := intAt values launcherNode down.button
  fullSpeedButton := intAt values launcherNode "full_speed_button"
  fullSpeedValue := floatAt values launcherNode "full_speed_value"

/-- The nodes use the values that are shown. -/
structure RobotUses (safeLoad : Text → Except String Document) (controller : Controller)
    (files : Files) (values : Dict Key Params) : Prop where
  parameters : ∀ node, node ≠ launcherNode → ∀ key,
    (robotParameters safeLoad controller files node).lookup key =
      (values.lookup node).bind (AList.lookup key)
  launcher : joyLauncher (robotParameters safeLoad controller files launcherNode) =
    some ⟨shownConfig values, "/joy", "/launcher_command"⟩

/-- The document of the profile in use. -/
def usedDocument (safeLoad : Text → Except String Document) (controller : Controller)
    (files : Files) : Document :=
  match (selectText none controller files.saved files.packaged).map safeLoad with
  | some (.ok document) => document
  | _ => .other

/-- A value as it is written: a launcher's key may stand in the older sections. -/
def writtenValue (document : Document) (node key : Key) : Option Value :=
  ((nodeParameters document node).lookup key).or
    (if node = launcherNode then (nodeParameters document "esc_motor_control").lookup key else none)

def Kind.isFloat : Kind → Bool
  | .float _ _ => true
  | _ => false

/-- No field of floats holds an integer. -/
def FloatsWritten (controller : Controller) (document : Document) : Prop :=
  ∀ g ∈ profileGroups controller, ∀ f ∈ g.fields, f.kind.isFloat = true →
    ∀ n, writtenValue document g.name f.name ≠ some (.int n)

/-! ## The two migrations -/

section Migration

variable {node : Key} {params : Params} {document : Dict Key Section}
  {values : Dict Key (Layer Value)}

theorem nodeParameters_dict (document : Dict Key Section) (node : Key) :
    nodeParameters (.dict document) node = paramsOf ((document.lookup node).map rosParameters) :=
  rfl

theorem kept_rosParameters (node : Key) (sect : Section) :
    (keptSection node sect).map rosParameters = kept node (rosParameters sect) := by
  cases sect with
  | other => rfl
  | dict d =>
    cases hparams : rosParameters (.dict d) with
    | other => simp only [keptSection, hparams, kept, Option.map_some]
    | dict params =>
      simp only [keptSection, hparams, kept]
      split_ifs with hlegacy hrest
      · rfl
      · simp [rosParameters]
      · rw [Option.map_some, hparams]

theorem lookup_kept (document : Dict Key Section) (node : Key) :
    ((document.collect keptSection).lookup node).map rosParameters =
      ((document.mapVal rosParameters).collect kept).lookup node := by
  rw [Dict.lookup_collect, Dict.lookup_collect, Dict.lookup_mapVal]
  cases document.lookup node with
  | none => rfl
  | some sect => exact kept_rosParameters node sect

theorem rosParameters_launcherSection (moved : Params) (launcher : Option Section) :
    rosParameters (launcherSection moved launcher) =
      .dict (paramsOf (launcher.map rosParameters) ∪ moved) := by
  have hparams : (launcherOf launcher).2 = paramsOf (launcher.map rosParameters) := by
    rcases launcher with _ | ⟨d⟩ | _
    · rfl
    · simp only [launcherOf, Option.map_some, rosParameters]
      cases d.lookup rosKey with
      | none => rfl
      | some layer => cases layer <;> rfl
    · rfl
  rw [launcherSection, rosParameters, AList.lookup_insert, ← hparams]
  rfl

theorem exists_mem_taken (h : holdsLegacy node params = true) :
    ∃ key, key ∈ taken node (.dict params) := by
  obtain ⟨key, hkey, hmem⟩ := List.any_eq_true.1 h
  refine ⟨key, ?_⟩
  rw [taken, if_pos h, Dict.mem_iff_lookup]
  obtain ⟨v, hv⟩ := (Dict.mem_iff_lookup params key).1 (AList.mem_keys.2 (by simpa using hmem))
  exact ⟨v, by rw [Dict.lookup_restrict, if_pos (by simpa using hkey), hv]⟩

theorem kept_of_none_moved (h : ∀ key, key ∉ values.gather taken) (node : Key) :
    (values.collect kept).lookup node = values.lookup node := by
  rw [Dict.lookup_collect]
  cases hnode : values.lookup node with
  | none => rfl
  | some layer =>
    cases layer with
    | other => rfl
    | dict params =>
      have hnew : ¬ holdsLegacy node params = true := by
        intro hlegacy
        obtain ⟨key, hkey⟩ := exists_mem_taken hlegacy
        exact h key (Dict.mem_gather.2 ⟨node, _, hnode, hkey⟩)
      simp [kept, hnew]

theorem migrate_parameters (document : Dict Key Section) (node : Key) :
    nodeParameters (ControlConfig.migrateLauncherLayout (.dict document)).1 node =
      paramsOf ((migrateValues (document.mapVal rosParameters)).lookup node) := by
  rw [ControlConfig.migrateLauncherLayout, migrateValues, Dict.gather_mapVal]
  by_cases hmoved : ((document.gather fun node sect => taken node (rosParameters sect)).entries).isEmpty
  · simp only [hmoved, if_true]
    rw [nodeParameters_dict, ← Dict.lookup_mapVal, kept_of_none_moved]
    rw [Dict.gather_mapVal]
    exact Dict.isEmpty_iff.1 hmoved
  · simp only [hmoved, if_false, Bool.false_eq_true]
    rw [nodeParameters_dict]
    by_cases hnode : node = launcherNode
    · subst hnode
      rw [AList.lookup_insert, AList.lookup_insert, Option.map_some,
        rosParameters_launcherSection, lookup_kept]
    · rw [AList.lookup_insert_ne hnode, AList.lookup_insert_ne hnode, lookup_kept]

end Migration

/-! ## What `validate` has accepted -/

section Validation

variable {controller : Controller} {g : Group} {f : Field} {kind : Kind} {value : Value}
  {params cleaned : Params} {values : Dict Key (Layer Value)} {clean : Dict Key Params}

/-- The parameters of a node have been taken over as `cleaned`. -/
structure Cleaned (g : Group) (params cleaned : Params) : Prop where
  field : ∀ f ∈ g.fields, ∃ value, params.lookup f.name = some value ∧
    f.kind.accepts value = true ∧ cleaned.lookup f.name = some (f.kind.clean value)
  elsewhere : ∀ key, key ∉ g.fields.map Field.name →
    params.lookup key = none ∧ cleaned.lookup key = none

/-- The values have been taken over as `clean`. -/
structure Validated (controller : Controller) (values : Dict Key (Layer Value))
    (clean : Dict Key Params) : Prop where
  node : ∀ g ∈ profileGroups controller, ∃ params cleaned,
    values.lookup g.name = some (.dict params) ∧ clean.lookup g.name = some cleaned ∧
      Cleaned g params cleaned
  elsewhere : ∀ node, node ∉ (profileGroups controller).map Group.name →
    values.lookup node = none ∧ clean.lookup node = none
  together : checkTogether clean = .ok ()

theorem groups_nodup (controller : Controller) :
    ((profileGroups controller).map Group.name).Nodup := by
  cases controller <;> decide

theorem fields_nodup : ∀ g ∈ groups, (g.fields.map Field.name).Nodup := by
  decide

theorem mem_groups (h : g ∈ profileGroups controller) : g ∈ groups :=
  (List.mem_filter.1 h).1

theorem lookup_none_of_hasKeys {α : Type} {d : Dict Key α} {ks : List Key} {key : Key}
    (h : d.hasKeys ks = true) (hkey : key ∉ ks) : d.lookup key = none :=
  AList.lookup_eq_none.2 fun hmem => hkey (((Dict.hasKeys_iff d ks).1 h key).1 hmem)

theorem checkField_ok {v : Value} (h : checkField params f = .ok v)
    (hkey : f.name ∈ params) :
    ∃ value, params.lookup f.name = some value ∧ f.kind.accepts value = true ∧
      v = f.kind.clean value := by
  obtain ⟨value, hvalue⟩ := (Dict.mem_iff_lookup params f.name).1 hkey
  have hread : (params.lookup (f.key : Key)).getD .other = value := by
    show (params.lookup f.name).getD .other = value
    rw [hvalue]
    rfl
  refine ⟨value, hvalue, ?_⟩
  simp only [checkField, hread] at h
  split_ifs at h with haccepts
  exact ⟨haccepts, (Except.ok.inj h).symm⟩

theorem validateNode_ok (hg : g ∈ groups) (h : validateNode values g = .ok cleaned) :
    ∃ params, values.lookup g.name = some (.dict params) ∧ Cleaned g params cleaned := by
  unfold validateNode at h
  cases hnode : values.lookup g.name with
  | none =>
    rw [hnode] at h
    cases h
  | some layer =>
    rw [hnode] at h
    cases layer with
    | other => cases h
    | dict params =>
      simp only at h
      split_ifs at h with hkeys
      obtain ⟨hthere, helse⟩ := Dict.tryBuild_ok h (fields_nodup g hg)
      refine ⟨params, rfl, ⟨?_, ?_⟩⟩
      · intro f hf
        obtain ⟨v, hv, hclean⟩ := hthere f hf
        have hkey : f.name ∈ params :=
          ((Dict.hasKeys_iff _ _).1 hkeys f.name).2 (List.mem_map_of_mem hf)
        obtain ⟨value, hvalue, haccepts, rfl⟩ := checkField_ok hv hkey
        exact ⟨value, hvalue, haccepts, hclean⟩
      · intro key hkey
        exact ⟨lookup_none_of_hasKeys hkeys hkey, helse key hkey⟩

theorem validate_ok (h : validate (.dict values) controller = .ok clean) :
    Validated controller values clean := by
  simp only [validate] at h
  split_ifs at h with hkeys
  cases hbuild : Dict.tryBuild Group.name (validateNode values) (profileGroups controller) with
  | error e =>
    rw [hbuild] at h
    cases h
  | ok d =>
    rw [hbuild] at h
    cases htogether : checkTogether d with
    | error e =>
      simp only [bind, Except.bind, htogether] at h
      cases h
    | ok u =>
      simp only [bind, Except.bind, htogether] at h
      cases h
      obtain ⟨hthere, helse⟩ := Dict.tryBuild_ok hbuild (groups_nodup controller)
      refine ⟨?_, ?_, htogether⟩
      · intro g hg
        obtain ⟨cleaned, hnode, hclean⟩ := hthere g hg
        obtain ⟨params, hparams, hcleaned⟩ := validateNode_ok (mem_groups hg) hnode
        exact ⟨params, cleaned, hparams, hclean, hcleaned⟩
      · intro node hnode
        exact ⟨lookup_none_of_hasKeys hkeys hnode, helse node hnode⟩

theorem clean_eq_iff : kind.clean value = value ↔ (kind.isFloat = true → ∀ n, value ≠ .int n) := by
  cases kind <;> cases value <;> simp [Kind.clean, Kind.isFloat]

theorem Cleaned.same_iff (h : Cleaned g params cleaned) :
    (∀ key, params.lookup key = cleaned.lookup key) ↔
      ∀ f ∈ g.fields, f.kind.isFloat = true → ∀ n, params.lookup f.name ≠ some (.int n) := by
  constructor
  · intro hsame f hf hfloat n hint
    obtain ⟨value, hvalue, -, hclean⟩ := h.field f hf
    rw [hsame, hclean, Option.some.injEq] at hvalue
    rw [hsame, hclean, Option.some.injEq] at hint
    exact clean_eq_iff.1 hvalue hfloat n (hvalue ▸ hint)
  · intro hfloats key
    by_cases hkey : key ∈ g.fields.map Field.name
    · obtain ⟨f, hf, rfl⟩ := List.mem_map.1 hkey
      obtain ⟨value, hvalue, -, hclean⟩ := h.field f hf
      have hsame : f.kind.clean value = value := clean_eq_iff.2 fun hfloat n hint =>
        hfloats f hf hfloat n (hint ▸ hvalue)
      rw [hvalue, hclean, hsame]
    · rw [(h.elsewhere key hkey).1, (h.elsewhere key hkey).2]

end Validation

/-! ## The launcher's buttons -/

section Launcher

variable {controller : Controller} {g : Group} {key : String} {low high n axis : ℤ} {q : ℚ}
  {params cleaned shot : Params} {values : Dict Key (Layer Value)} {clean : Dict Key Params}
  {config : LauncherMappingConfig}

/-- The kind of the field of a key. -/
def kindOf (g : Group) (key : String) : Option Kind :=
  (g.fields.find? fun f => f.key = key).map Field.kind

theorem exists_field {kind : Kind} (h : kindOf g key = some kind) :
    ∃ f ∈ g.fields, f.name = key ∧ f.kind = kind := by
  obtain ⟨f, hf, hkind⟩ := Option.map_eq_some_iff.1 h
  refine ⟨f, List.mem_of_find?_eq_some hf, ?_, hkind⟩
  have hkey := List.find?_some hf
  rw [Field.name, of_decide_eq_true hkey]

theorem launcherGroup_mem (controller : Controller) : launcherGroup ∈ profileGroups controller := by
  simp [profileGroups, groups, launcherGroup, driverNodes]

/-- The launcher's parameters, as they are written and as they are shown. -/
structure Launches (values : Dict Key (Layer Value)) (clean : Dict Key Params)
    (params cleaned : Params) : Prop where
  written : values.lookup launcherNode = some (.dict params)
  shown : clean.lookup launcherNode = some cleaned
  cleaned : Cleaned launcherGroup params cleaned

theorem Validated.launches (h : Validated controller values clean) :
    ∃ params cleaned, Launches values clean params cleaned := by
  obtain ⟨params, cleaned, hparams, hshown, hcleaned⟩ :=
    h.node launcherGroup (launcherGroup_mem controller)
  exact ⟨params, cleaned, hparams, hshown, hcleaned⟩

theorem Launches.int (h : Launches values clean params cleaned)
    (hkind : kindOf launcherGroup key = some (.int low high)) :
    params.lookup (key : Key) = some (.int (intAt clean launcherNode key)) ∧
      low ≤ intAt clean launcherNode key ∧ intAt clean launcherNode key ≤ high := by
  obtain ⟨f, hf, hname, hk⟩ := exists_field hkind
  obtain ⟨value, hvalue, haccepts, hclean⟩ := h.cleaned.field f hf
  rw [hname] at hvalue hclean
  rw [hk] at haccepts hclean
  cases value with
  | int n =>
    have hn : intAt clean launcherNode key = n := by
      simp [intAt, h.shown, hclean, Kind.clean]
    rw [hn]
    exact ⟨hvalue, by simpa [Kind.accepts] using haccepts⟩
  | _ => cases haccepts

theorem Launches.float (h : Launches values clean params cleaned) {low high : ℚ}
    (hkind : kindOf launcherGroup key = some (.float low high)) :
    ∃ q, floatAt clean launcherNode key = .fin q ∧ low ≤ q ∧ q ≤ high ∧
      (params.lookup (key : Key) = some (.float (.fin q)) ∨
        ∃ n, params.lookup (key : Key) = some (.int n)) := by
  obtain ⟨f, hf, hname, hk⟩ := exists_field hkind
  obtain ⟨value, hvalue, haccepts, hclean⟩ := h.cleaned.field f hf
  rw [hname] at hvalue hclean
  rw [hk] at haccepts hclean
  cases value with
  | int n =>
    refine ⟨n, by simp [floatAt, h.shown, hclean, Kind.clean], ?_, ?_, Or.inr ⟨n, hvalue⟩⟩
    · exact (by simpa [Kind.accepts] using haccepts : low ≤ n ∧ (n : ℚ) ≤ high).1
    · exact (by simpa [Kind.accepts] using haccepts : low ≤ n ∧ (n : ℚ) ≤ high).2
  | float x =>
    cases x with
    | fin q =>
      have hbounds : low ≤ q ∧ q ≤ high := by simpa [Kind.accepts, Dbl.isfinite] using haccepts
      exact ⟨q, by simp [floatAt, h.shown, hclean, Kind.clean], hbounds.1, hbounds.2,
        Or.inl hvalue⟩
    | _ => simp [Kind.accepts, Dbl.isfinite] at haccepts
  | _ => cases haccepts

theorem toInt_of_small (hlow : -2 ≤ n) (hhigh : n ≤ 63) : toInt n = n :=
  Int.bmod_eq_of_le (by omega) (by omega)

theorem declareInt_of {default : ℤ} (h : params.lookup (key : Key) = some (.int n)) :
    declareInt params key default = some n := by
  rw [declareInt, h]

theorem declareInt_none {default : ℤ} (h : params.lookup (key : Key) = none) :
    declareInt params key default = some default := by
  rw [declareInt, h]

/-- The mapping of the launcher's node, when each of its parameters is told. -/
theorem readConfig_eq {legacy upAxis downAxis : ℤ}
    (hfire : declareInt params "fire_button" 5 = some config.fireButton)
    (hlegacy : declareInt params "tilt_axis" (-1) = some legacy)
    (hup : declareInt params "tilt_up_axis" (-2) = some upAxis)
    (hdown : declareInt params "tilt_down_axis" (-2) = some downAxis)
    (hupSign : declareInt params "tilt_up_axis_sign" 1 = some config.tiltUpAxisSign)
    (hdownSign : declareInt params "tilt_down_axis_sign" (-1) = some config.tiltDownAxisSign)
    (hupButton : declareInt params "tilt_up_button_index" 4 = some config.tiltUpButtonIndex)
    (hdownButton : declareInt params "tilt_down_button_index" 6 = some config.tiltDownButtonIndex)
    (hspeed : declareInt params "full_speed_button" 7 = some config.fullSpeedButton)
    (hints : toInt config.fireButton = config.fireButton ∧
      toInt config.tiltUpAxisSign = config.tiltUpAxisSign ∧
      toInt config.tiltDownAxisSign = config.tiltDownAxisSign ∧
      toInt config.tiltUpButtonIndex = config.tiltUpButtonIndex ∧
      toInt config.tiltDownButtonIndex = config.tiltDownButtonIndex ∧
      toInt config.fullSpeedButton = config.fullSpeedButton)
    (hupAxis : (if toInt upAxis = -2 then toInt legacy else toInt upAxis) = config.tiltUpAxis)
    (hdownAxis :
      (if toInt downAxis = -2 then toInt legacy else toInt downAxis) = config.tiltDownAxis) :
    readConfig params = (declareDouble params "full_speed_value" 1).map fun x =>
      { config with fullSpeedValue := x } := by
  obtain ⟨h₁, h₂, h₃, h₄, h₅, h₆⟩ := hints
  simp only [readConfig, hfire, hlegacy, hup, hdown, hupSign, hdownSign, hupButton, hdownButton,
    hspeed, Option.bind_eq_bind, Option.bind_some, h₁, h₂, h₃, h₄, h₅, h₆, hupAxis, hdownAxis]
  cases declareDouble params "full_speed_value" 1 <;> rfl

theorem clamp_unit (hlow : 0 ≤ q) (hhigh : q ≤ 1) : Dbl.clamp (.fin q) 0 1 = .fin q := by
  have hzero : ¬ Dbl.fin q < Dbl.fin ((0 : ℕ) : ℚ) := by
    rw [Dbl.fin_lt_fin]
    simpa using hlow
  have hone : ¬ Dbl.fin ((1 : ℕ) : ℚ) < Dbl.fin q := by
    rw [Dbl.fin_lt_fin]
    simpa using hhigh
  rw [Dbl.clamp]
  exact (if_neg hzero).trans (if_neg hone)

theorem joyLauncher_iff
    (hread : readConfig params = (declareDouble params "full_speed_value" 1).map fun x =>
      { config with fullSpeedValue := x })
    (hvalid : validTiltInputs config = true) (hspeed : config.fullSpeedValue = .fin q)
    (hlow : 0 ≤ q) (hhigh : q ≤ 1)
    (hvalue : params.lookup ("full_speed_value" : Key) = some (.float (.fin q)) ∨
      ∃ n, params.lookup ("full_speed_value" : Key) = some (.int n))
    (hjoy : params.lookup ("joy_topic" : Key) = none)
    (hcommand : params.lookup ("launcher_command_topic" : Key) = none) :
    joyLauncher params = some ⟨config, "/joy", "/launcher_command"⟩ ↔
      ∀ n, params.lookup ("full_speed_value" : Key) ≠ some (.int n) := by
  rcases hvalue with hfloat | ⟨n, hint⟩
  · refine iff_of_true ?_ (by simp [hfloat])
    have hsame : ({ config with fullSpeedValue := Dbl.fin q } : LauncherMappingConfig) = config := by
      rw [← hspeed]
    have hclamp : configure (checkTilt config) = config := by
      rw [checkTilt, if_pos hvalid, configure, hspeed, clamp_unit hlow hhigh]
      exact hsame
    simp only [joyLauncher, hread, declareDouble, hfloat, declareString, hjoy, hcommand,
      Option.map_some, hsame, Option.bind_eq_bind, Option.bind_some, hclamp]
    rfl
  · refine iff_of_false ?_ fun h => h n hint
    simp [joyLauncher, hread, declareDouble, hint]

/-! ### The tilt -/

theorem tiltInput_ok {direction : Direction} {input : TiltInput}
    (h : tiltInput clean direction = .ok input) :
    (intAt clean launcherNode direction.sign = -1 ∨ intAt clean launcherNode direction.sign = 1) ∧
      input = if 0 ≤ intAt clean launcherNode direction.axis then
        .axis (intAt clean launcherNode direction.axis) (intAt clean launcherNode direction.sign)
      else .button (intAt clean launcherNode direction.button) := by
  simp only [tiltInput] at h
  split_ifs at h with hsign haxis
  · exact ⟨by tauto, by rw [if_pos haxis, Except.ok.inj h]⟩
  · exact ⟨by tauto, by rw [if_neg haxis, Except.ok.inj h]⟩

theorem checkTogether_ok (h : checkTogether clean = .ok ()) :
    ∃ upInput downInput, tiltInput clean up = .ok upInput ∧
      tiltInput clean down = .ok downInput ∧ upInput ≠ downInput := by
  unfold checkTogether at h
  split_ifs at h
  · cases h
  cases hup : tiltInput clean up with
  | error e =>
    simp only [hup, bind, Except.bind] at h
    cases h
  | ok upInput =>
    cases hdown : tiltInput clean down with
    | error e =>
      simp only [hup, hdown, bind, Except.bind] at h
      cases h
    | ok downInput =>
      refine ⟨upInput, downInput, rfl, rfl, ?_⟩
      rintro rfl
      simp only [hup, hdown, bind, Except.bind, pure, Except.pure, if_true] at h
      cases h

theorem validTiltInputs_of (hup : -1 ≤ config.tiltUpAxis) (hdown : -1 ≤ config.tiltDownAxis)
    (hupSign : config.tiltUpAxisSign = -1 ∨ config.tiltUpAxisSign = 1)
    (hdownSign : config.tiltDownAxisSign = -1 ∨ config.tiltDownAxisSign = 1)
    (hupButton : 0 ≤ config.tiltUpButtonIndex) (hdownButton : 0 ≤ config.tiltDownButtonIndex)
    (hbuttons : config.tiltUpAxis = config.tiltDownAxis → config.tiltUpAxis = -1 →
      config.tiltUpButtonIndex ≠ config.tiltDownButtonIndex)
    (hsigns : config.tiltUpAxis = config.tiltDownAxis → config.tiltUpAxis ≠ -1 →
      config.tiltUpAxisSign ≠ config.tiltDownAxisSign) : validTiltInputs config = true := by
  unfold validTiltInputs
  split_ifs with hunusable haxes hbutton
  · omega
  · rfl
  · exact decide_eq_true (hbuttons (not_not.1 haxes) hbutton)
  · exact decide_eq_true (hsigns (not_not.1 haxes) hbutton)

/-- The tilt inputs that are shown are usable. -/
theorem Validated.validTilt (h : Validated controller values clean) :
    validTiltInputs (shownConfig clean) = true := by
  obtain ⟨params, cleaned, hl⟩ := h.launches
  obtain ⟨upInput, downInput, hup, hdown, hne⟩ := checkTogether_ok h.together
  obtain ⟨hupSign, rfl⟩ := tiltInput_ok hup
  obtain ⟨hdownSign, rfl⟩ := tiltInput_ok hdown
  obtain ⟨-, hupAxis, -⟩ := hl.int (show kindOf launcherGroup up.axis = some (.int (-1) 63) from rfl)
  obtain ⟨-, hdownAxis, -⟩ :=
    hl.int (show kindOf launcherGroup down.axis = some (.int (-1) 63) from rfl)
  obtain ⟨-, hupButton, -⟩ :=
    hl.int (show kindOf launcherGroup up.button = some (.int 0 63) from rfl)
  obtain ⟨-, hdownButton, -⟩ :=
    hl.int (show kindOf launcherGroup down.button = some (.int 0 63) from rfl)
  refine validTiltInputs_of hupAxis hdownAxis hupSign hdownSign hupButton hdownButton ?_ ?_
  · intro haxes haxis hsame
    change intAt clean launcherNode up.axis = intAt clean launcherNode down.axis at haxes
    change intAt clean launcherNode up.axis = -1 at haxis
    change intAt clean launcherNode up.button = intAt clean launcherNode down.button at hsame
    rw [← haxes, haxis, hsame] at hne
    exact hne rfl
  · intro haxes haxis hsame
    change intAt clean launcherNode up.axis = intAt clean launcherNode down.axis at haxes
    change intAt clean launcherNode up.axis ≠ -1 at haxis
    change intAt clean launcherNode up.sign = intAt clean launcherNode down.sign at hsame
    rw [← haxes, if_pos (by omega), if_pos (by omega), hsame] at hne
    exact hne rfl

/-! ### Both forms of the parameters -/

/-- The integers among the launcher's parameters. -/
def launcherInts : List String := ["fire_button", up.axis, up.sign, down.axis, down.sign,
  up.button, down.button, "full_speed_button"]

theorem kindOf_launcherInts (h : key ∈ launcherInts) :
    ∃ low high, kindOf launcherGroup key = some (.int low high) ∧ -1 ≤ low ∧ high ≤ 63 := by
  simp only [launcherInts, List.mem_cons, List.not_mem_nil, or_false] at h
  rcases h with rfl | rfl | rfl | rfl | rfl | rfl | rfl | rfl <;>
    exact ⟨_, _, rfl, by decide, by decide⟩

theorem Launches.same (h : Launches values clean params cleaned) (hkey : key ∈ launcherInts)
    (default : ℤ) :
    declareInt params key default = some (intAt clean launcherNode key) := by
  obtain ⟨low, high, hkind, -⟩ := kindOf_launcherInts hkey
  exact declareInt_of (h.int hkind).1

theorem Launches.bounds (h : Launches values clean params cleaned) (hkey : key ∈ launcherInts) :
    -1 ≤ intAt clean launcherNode key ∧ intAt clean launcherNode key ≤ 63 := by
  obtain ⟨low, high, hkind, hlow, hhigh⟩ := kindOf_launcherInts hkey
  obtain ⟨-, hfrom, hto⟩ := h.int hkind
  exact ⟨hlow.trans hfrom, hto.trans hhigh⟩

theorem Launches.toInt_eq (h : Launches values clean params cleaned) (hkey : key ∈ launcherInts) :
    toInt (intAt clean launcherNode key) = intAt clean launcherNode key := by
  obtain ⟨hlow, hhigh⟩ := h.bounds hkey
  exact toInt_of_small (by omega) hhigh

theorem Launches.axis_eq (h : Launches values clean params cleaned) (hkey : key ∈ launcherInts)
    (legacy : ℤ) :
    (if toInt (intAt clean launcherNode key) = -2 then toInt legacy
      else toInt (intAt clean launcherNode key)) = intAt clean launcherNode key := by
  obtain ⟨hlow, -⟩ := h.bounds hkey
  rw [h.toInt_eq hkey, if_neg (by omega)]

theorem Launches.toInts (h : Launches values clean params cleaned) :
    toInt (shownConfig clean).fireButton = (shownConfig clean).fireButton ∧
      toInt (shownConfig clean).tiltUpAxisSign = (shownConfig clean).tiltUpAxisSign ∧
      toInt (shownConfig clean).tiltDownAxisSign =
        (shownConfig clean).tiltDownAxisSign ∧
      toInt (shownConfig clean).tiltUpButtonIndex =
        (shownConfig clean).tiltUpButtonIndex ∧
      toInt (shownConfig clean).tiltDownButtonIndex =
        (shownConfig clean).tiltDownButtonIndex ∧
      toInt (shownConfig clean).fullSpeedButton =
        (shownConfig clean).fullSpeedButton :=
  ⟨h.toInt_eq (by decide), h.toInt_eq (by decide), h.toInt_eq (by decide), h.toInt_eq (by decide),
    h.toInt_eq (by decide), h.toInt_eq (by decide)⟩

theorem joyLauncher_launches (hvalid : Validated controller values clean)
    (h : Launches values clean params cleaned) :
    joyLauncher params = some ⟨shownConfig clean, "/joy", "/launcher_command"⟩ ↔
      ∀ n, params.lookup ("full_speed_value" : Key) ≠ some (.int n) := by
  obtain ⟨q, hspeed, hlow, hhigh, hvalue⟩ :=
    h.float (show kindOf launcherGroup "full_speed_value" = some (.float 0 1) from rfl)
  have hnone : ∀ key : Key, key ∉ launcherGroup.fields.map Field.name → params.lookup key = none :=
    fun key hkey => (h.cleaned.elsewhere key hkey).1
  have hread := readConfig_eq (h.same (by decide) _) (declareInt_none (hnone _ (by decide)))
    (h.same (by decide) _) (h.same (by decide) _) (h.same (by decide) _) (h.same (by decide) _)
    (h.same (by decide) _) (h.same (by decide) _) (h.same (by decide) _) h.toInts
    (h.axis_eq (by decide) _) (h.axis_eq (by decide) _)
  exact joyLauncher_iff hread hvalid.validTilt hspeed hlow hhigh hvalue (hnone _ (by decide))
    (hnone _ (by decide))

/-- The keys that the upgrade to two axes changes. -/
def movedKeys : List Key :=
  ["tilt_axis", "tilt_up_axis", "tilt_up_axis_sign", "tilt_down_axis", "tilt_down_axis_sign"]

theorem lookup_twoAxes {key : Key} (hkey : key ∉ movedKeys) :
    (twoAxes axis shot).lookup key = shot.lookup key := by
  simp only [movedKeys, List.mem_cons, List.not_mem_nil, or_false, not_or] at hkey
  obtain ⟨htilt, hup, hupSign, hdown, hdownSign⟩ := hkey
  rw [twoAxes, AList.lookup_insert_ne hdownSign, AList.lookup_insert_ne hdown,
    AList.lookup_insert_ne hupSign, AList.lookup_insert_ne hup, AList.lookup_erase_ne htilt]

theorem twoAxes_downSign (axis : ℤ) (shot : Params) :
    (twoAxes axis shot).lookup (down.sign : Key) = some (.int (-1)) :=
  AList.lookup_insert _

theorem twoAxes_downAxis (axis : ℤ) (shot : Params) :
    (twoAxes axis shot).lookup (down.axis : Key) = some (.int axis) :=
  (AList.lookup_insert_ne (by decide)).trans (AList.lookup_insert _)

theorem twoAxes_upSign (axis : ℤ) (shot : Params) :
    (twoAxes axis shot).lookup (up.sign : Key) = some (.int 1) :=
  (AList.lookup_insert_ne (by decide)).trans
    ((AList.lookup_insert_ne (by decide)).trans (AList.lookup_insert _))

theorem twoAxes_upAxis (axis : ℤ) (shot : Params) :
    (twoAxes axis shot).lookup (up.axis : Key) = some (.int axis) :=
  (AList.lookup_insert_ne (by decide)).trans ((AList.lookup_insert_ne (by decide)).trans
    ((AList.lookup_insert_ne (by decide)).trans (AList.lookup_insert _)))

/-- The launcher's node and the form with one axis for both directions: the
node's own defaults lead to what is shown. -/
theorem joyLauncher_oneAxis (hvalid : Validated controller values clean)
    (h : Launches values clean (twoAxes axis shot) cleaned) (hkeys : shot.hasKeys oneAxisKeys = true)
    (haxis : shot.lookup ("tilt_axis" : Key) = some (.int axis)) :
    joyLauncher shot = some ⟨shownConfig clean, "/joy", "/launcher_command"⟩ ↔
      ∀ n, shot.lookup ("full_speed_value" : Key) ≠ some (.int n) := by
  obtain ⟨q, hspeed, hlow, hhigh, hvalue⟩ :=
    h.float (show kindOf launcherGroup "full_speed_value" = some (.float 0 1) from rfl)
  have hnone : ∀ key, key ∉ oneAxisKeys → shot.lookup key = none :=
    fun key hkey => lookup_none_of_hasKeys hkeys hkey
  have hkept : ∀ {key : String} (_ : key ∈ launcherInts) (_ : (key : Key) ∉ movedKeys) (default : ℤ),
      declareInt shot key default = some (intAt clean launcherNode key) := by
    intro key hkey hmoved default
    rw [← h.same hkey default, declareInt, declareInt, lookup_twoAxes hmoved]
  have hset : ∀ {key : String} {n : ℤ}, key ∈ launcherInts →
      (twoAxes axis shot).lookup (key : Key) = some (.int n) → intAt clean launcherNode key = n := by
    intro key n hkey hn
    have hsame := h.same hkey 0
    rw [declareInt_of hn] at hsame
    exact (Option.some.inj hsame).symm
  have hup : intAt clean launcherNode up.axis = axis := hset (by decide) (twoAxes_upAxis axis shot)
  have hupSign : intAt clean launcherNode up.sign = 1 :=
    hset (by decide) (twoAxes_upSign axis shot)
  have hdown : intAt clean launcherNode down.axis = axis :=
    hset (by decide) (twoAxes_downAxis axis shot)
  have hdownSign : intAt clean launcherNode down.sign = -1 :=
    hset (by decide) (twoAxes_downSign axis shot)
  have haxis_eq := h.toInt_eq (show up.axis ∈ launcherInts by decide)
  rw [hup] at haxis_eq
  have hread : readConfig shot = (declareDouble shot "full_speed_value" 1).map fun x =>
      { shownConfig clean with fullSpeedValue := x } :=
    readConfig_eq (hkept (by decide) (by decide) _) (declareInt_of haxis)
      (declareInt_none (hnone _ (by decide))) (declareInt_none (hnone _ (by decide)))
      ((declareInt_none (hnone _ (by decide))).trans (congrArg some hupSign.symm))
      ((declareInt_none (hnone _ (by decide))).trans (congrArg some hdownSign.symm))
      (hkept (by decide) (by decide) _) (hkept (by decide) (by decide) _)
      (hkept (by decide) (by decide) _) h.toInts
      ((if_pos (by decide)).trans (haxis_eq.trans hup.symm))
      ((if_pos (by decide)).trans (haxis_eq.trans hdown.symm))
  rw [lookup_twoAxes (by decide)] at hvalue
  exact joyLauncher_iff hread hvalid.validTilt hspeed hlow hhigh hvalue (hnone _ (by decide))
    (hnone _ (by decide))

end Launcher

/-! ## From the files to the nodes -/

section Reading

variable {safeLoad : Text → Except String Document} {controller : Controller} {files : Files}
  {shown : Shown} {text : Text} {node key : Key} {document : Dict Key Section}
  {values upgraded : Dict Key (Layer Value)} {clean : Dict Key Params}

theorem upgradeTilt_ok (h : upgradeTilt values = .ok upgraded) :
    upgraded = values ∨ ∃ shot axis, values.lookup launcherNode = some (.dict shot) ∧
      shot.hasKeys oneAxisKeys = true ∧ shot.lookup ("tilt_axis" : Key) = some (.int axis) ∧
        upgraded = values.insert launcherNode (.dict (twoAxes axis shot)) := by
  unfold upgradeTilt at h
  split at h
  · rename_i shot hshot
    split_ifs at h with hkeys
    · split at h
      · rename_i axis haxis
        split_ifs at h
        exact Or.inr ⟨shot, axis, hshot, hkeys, haxis, (Except.ok.inj h).symm⟩
      · cases h
    · exact Or.inl (Except.ok.inj h).symm
  · exact Or.inl (Except.ok.inj h).symm

theorem decode_validate (h : decode safeLoad text controller = .ok clean) :
    ∃ document upgraded, safeLoad text = .ok (.dict document) ∧
      upgradeTilt (migrateValues (document.mapVal rosParameters)) = .ok upgraded ∧
        validate (.dict upgraded) controller = .ok clean := by
  unfold decode at h
  cases hload : safeLoad text with
  | error e =>
    rw [hload] at h
    cases h
  | ok loaded =>
    rw [hload] at h
    cases loaded with
    | other => cases h
    | dict document =>
      simp only [bind, Except.bind] at h
      cases hsections : document.entries.forM checkSection with
      | error e =>
        rw [hsections] at h
        cases h
      | ok u =>
        rw [hsections] at h
        cases hupgrade : upgradeTilt (migrateValues (document.mapVal rosParameters)) with
        | error e =>
          rw [hupgrade] at h
          cases h
        | ok upgraded =>
          rw [hupgrade] at h
          exact ⟨document, upgraded, rfl, hupgrade, h⟩

theorem decode_ok (h : decode safeLoad text controller = .ok clean) :
    ∃ document upgraded, safeLoad text = .ok (.dict document) ∧
      upgradeTilt (migrateValues (document.mapVal rosParameters)) = .ok upgraded ∧
        Validated controller upgraded clean := by
  obtain ⟨document, upgraded, hload, hupgrade, hvalidate⟩ := decode_validate h
  exact ⟨document, upgraded, hload, hupgrade, validate_ok hvalidate⟩

theorem readValues_ok {default : Text} {saved : Option Text} {defaults : Dict Key Params}
    (h : readValues safeLoad controller default saved = .ok (defaults, clean)) :
    decode safeLoad default controller = .ok defaults ∧
      decode safeLoad (saved.getD default) controller = .ok clean := by
  unfold readValues at h
  cases hdefault : decode safeLoad default controller with
  | error e =>
    rw [hdefault] at h
    cases h
  | ok d =>
    rw [hdefault] at h
    cases saved with
    | none =>
      cases h
      exact ⟨rfl, hdefault⟩
    | some raw =>
      simp only [bind, Except.bind] at h
      cases hraw : decode safeLoad raw controller with
      | error e =>
        rw [hraw] at h
        cases h
      | ok d' =>
        rw [hraw] at h
        cases h
        exact ⟨rfl, hraw⟩

theorem readProfile_decode (h : readProfile safeLoad controller files = .ok shown) :
    ∃ text, selectText none controller files.saved files.packaged = some text ∧
      decode safeLoad text controller = .ok shown.values := by
  unfold readProfile at h
  cases hpackaged : files.packaged with
  | none =>
    rw [hpackaged] at h
    cases h
  | some default =>
    simp only [hpackaged] at h
    split at h
    · cases h
    · rename_i defaults values hread
      obtain ⟨hdefault, hvalues⟩ := readValues_ok hread
      cases h
      simp only [selectText]
      cases hfixed : controller.fixed with
      | true =>
        simp only [hfixed, if_true, Option.getD_none] at hvalues
        cases hsaved : files.saved with
        | none => exact ⟨default, rfl, by simpa using hvalues⟩
        | some raw => exact ⟨default, rfl, by simpa using hvalues⟩
      | false =>
        cases hsaved : files.saved with
        | none => exact ⟨default, rfl, by simpa [hfixed, hsaved] using hvalues⟩
        | some raw =>
          simp only [hfixed, hsaved, Bool.false_eq_true, if_false, Option.getD_some] at hvalues
          by_cases hunits : unitsGeneration raw = some currentUnits
          · exact ⟨raw, by simp [hunits], by simpa [hunits] using hvalues⟩
          · exact ⟨default, by simp [hunits], by simpa [hunits] using hdefault⟩

theorem robotParameters_eq
    (htext : selectText none controller files.saved files.packaged = some text)
    (hload : safeLoad text = .ok (.dict document)) (node : Key) :
    robotParameters safeLoad controller files node =
      paramsOf ((migrateValues (document.mapVal rosParameters)).lookup node) := by
  rw [← migrate_parameters]
  simp only [robotParameters, selectProfile, htext, Option.map_some, launcherLayoutActions, hload]
  cases hmoved : (ControlConfig.migrateLauncherLayout (.dict document)).2 with
  | true => rfl
  | false =>
    have hsame : (ControlConfig.migrateLauncherLayout (.dict document)).1 = .dict document := by
      simp only [ControlConfig.migrateLauncherLayout] at hmoved ⊢
      split_ifs at hmoved ⊢
      rfl
    simp only [Bool.false_eq_true, if_false, Profile.parameters, hload, hsame]

theorem usedDocument_eq
    (htext : selectText none controller files.saved files.packaged = some text)
    (hload : safeLoad text = .ok (.dict document)) :
    usedDocument safeLoad controller files = .dict document := by
  simp only [usedDocument, htext, Option.map_some, hload]

theorem group_new : ∀ g ∈ groups, launcherLegacySections g.name = [] := by
  decide

theorem kept_new (hnode : launcherLegacySections node = []) (layer : Layer Value) :
    kept node layer = some layer := by
  cases layer <;> simp [kept, holdsLegacy, hnode]

theorem lookup_migrateValues (hnode : node ≠ launcherNode)
    (hnew : launcherLegacySections node = []) :
    (migrateValues values).lookup node = values.lookup node := by
  have hkept : (values.collect kept).lookup node = values.lookup node := by
    rw [Dict.lookup_collect]
    cases values.lookup node with
    | none => rfl
    | some layer => exact kept_new hnew layer
  simp only [migrateValues]
  split_ifs
  · exact hkept
  · rw [AList.lookup_insert_ne hnode, hkept]

theorem writtenValue_new (hnode : node ≠ launcherNode)
    (hnew : launcherLegacySections node = []) (key : Key) :
    writtenValue (.dict document) node key =
      (paramsOf ((migrateValues (document.mapVal rosParameters)).lookup node)).lookup key := by
  rw [writtenValue, if_neg hnode, Option.or_none, lookup_migrateValues hnode hnew,
    Dict.lookup_mapVal, nodeParameters_dict]

def speedKey : Key := "full_speed_value"
def escNode : Key := "esc_motor_control"

theorem taken_speed_elsewhere (hnode : escNode ≠ node) (layer : Layer Value) :
    (taken node layer).lookup speedKey = none := by
  have hforeign : speedKey ∉ launcherLegacySections node := by
    unfold launcherLegacySections
    split_ifs with hshot hesc
    · decide
    · exact absurd hesc.symm hnode
    · exact List.not_mem_nil
  cases layer with
  | other => rfl
  | dict params =>
    rw [taken]
    split_ifs
    · rw [Dict.lookup_restrict, if_neg (by simpa using hforeign)]
    · rfl

theorem taken_speed (layer : Layer Value) :
    (taken escNode layer).lookup speedKey = (paramsOf (some layer)).lookup speedKey := by
  cases layer with
  | other => rfl
  | dict params =>
    rw [taken, paramsOf]
    split_ifs with hlegacy
    · rw [Dict.lookup_restrict, if_pos (by decide)]
    · symm
      rw [AList.lookup_empty, AList.lookup_eq_none]
      intro hmem
      apply hlegacy
      exact List.any_eq_true.2 ⟨speedKey, by decide, by simpa using AList.mem_keys.1 hmem⟩

theorem lookup_moved_speed (values : Dict Key (Layer Value)) :
    (values.gather taken).lookup speedKey = (paramsOf (values.lookup escNode)).lookup speedKey := by
  rw [Dict.lookup_gather fun node layer hnode => taken_speed_elsewhere hnode layer]
  cases values.lookup escNode with
  | none => rfl
  | some layer => exact taken_speed layer

theorem writtenValue_speed :
    writtenValue (.dict document) launcherNode speedKey =
      (paramsOf ((migrateValues (document.mapVal rosParameters)).lookup launcherNode)).lookup
        speedKey := by
  rw [writtenValue, if_pos rfl, nodeParameters_dict, nodeParameters_dict, ← Dict.lookup_mapVal,
    ← Dict.lookup_mapVal]
  generalize document.mapVal rosParameters = values
  have hkept : (values.collect kept).lookup launcherNode = values.lookup launcherNode := by
    rw [Dict.lookup_collect]
    cases values.lookup launcherNode with
    | none => rfl
    | some layer => exact kept_new (by decide) layer
  have hmoved := lookup_moved_speed values
  rw [escNode] at hmoved
  rw [← hmoved, migrateValues]
  by_cases hnone : (values.gather taken).entries.isEmpty = true
  · simp only [hnone, if_true]
    rw [hkept, AList.lookup_eq_none.2 (Dict.isEmpty_iff.1 hnone speedKey), Option.or_none]
  · simp only [hnone, if_false, Bool.false_eq_true]
    rw [AList.lookup_insert, hkept, paramsOf, Dict.lookup_union]

/-! ## The page and the robot -/

theorem float_of_launcher : ∀ f ∈ launcherGroup.fields, f.kind.isFloat = true → f.name = speedKey := by
  decide

theorem eq_launcherGroup : ∀ g ∈ groups, g.name = launcherNode → g = launcherGroup := by
  decide

theorem speed_mem : ∃ f ∈ launcherGroup.fields, f.name = speedKey ∧ f.kind.isFloat = true := by
  decide

theorem floatsWritten_iff (controller : Controller) (document : Document) :
    FloatsWritten controller document ↔
      (∀ g ∈ profileGroups controller, g.name ≠ launcherNode → ∀ f ∈ g.fields,
        f.kind.isFloat = true → ∀ n, writtenValue document g.name f.name ≠ some (.int n)) ∧
      ∀ n, writtenValue document launcherNode speedKey ≠ some (.int n) := by
  constructor
  · intro h
    refine ⟨fun g hg _ => h g hg, ?_⟩
    obtain ⟨f, hf, hname, hfloat⟩ := speed_mem
    rw [← hname]
    exact h launcherGroup (launcherGroup_mem controller) f hf hfloat
  · rintro ⟨hothers, hspeed⟩ g hg f hf hfloat
    by_cases hname : g.name = launcherNode
    · obtain rfl := eq_launcherGroup g (mem_groups hg) hname
      rw [float_of_launcher f hf hfloat]
      exact hspeed
    · exact hothers g hg hname f hf hfloat

theorem lookup_upgraded (h : upgradeTilt values = .ok upgraded) (hnode : node ≠ launcherNode) :
    upgraded.lookup node = values.lookup node := by
  rcases upgradeTilt_ok h with rfl | ⟨shot, axis, -, -, -, rfl⟩
  · rfl
  · exact AList.lookup_insert_ne hnode

/-- The nodes that take their parameters as they are. -/
theorem nodes_iff (hupgrade : upgradeTilt values = .ok upgraded)
    (hvalid : Validated controller upgraded clean) :
    (∀ node, node ≠ launcherNode → ∀ key,
        (paramsOf (values.lookup node)).lookup key = (clean.lookup node).bind (AList.lookup key)) ↔
      ∀ g ∈ profileGroups controller, g.name ≠ launcherNode → ∀ f ∈ g.fields,
        f.kind.isFloat = true →
          ∀ n, (paramsOf (values.lookup g.name)).lookup f.name ≠ some (.int n) := by
  constructor
  · intro hsame g hg hname
    obtain ⟨params, cleaned, hparams, hclean, hcleaned⟩ := hvalid.node g hg
    rw [lookup_upgraded hupgrade hname] at hparams
    have hkeys := hsame g.name hname
    simp only [hparams, hclean, paramsOf, Option.bind_some] at hkeys ⊢
    exact hcleaned.same_iff.1 hkeys
  · intro hfloats node hname
    by_cases hnode : node ∈ (profileGroups controller).map Group.name
    · obtain ⟨g, hg, rfl⟩ := List.mem_map.1 hnode
      obtain ⟨params, cleaned, hparams, hclean, hcleaned⟩ := hvalid.node g hg
      rw [lookup_upgraded hupgrade hname] at hparams
      have hwritten := hfloats g hg hname
      simp only [hparams, hclean, paramsOf, Option.bind_some] at hwritten ⊢
      exact hcleaned.same_iff.2 hwritten
    · obtain ⟨hparams, hclean⟩ := hvalid.elsewhere node hnode
      rw [lookup_upgraded hupgrade hname] at hparams
      intro key
      rw [hparams, hclean]
      rfl

theorem launcher_iff (hupgrade : upgradeTilt values = .ok upgraded)
    (hvalid : Validated controller upgraded clean) :
    joyLauncher (paramsOf (values.lookup launcherNode)) =
        some ⟨shownConfig clean, "/joy", "/launcher_command"⟩ ↔
      ∀ n, (paramsOf (values.lookup launcherNode)).lookup speedKey ≠ some (.int n) := by
  obtain ⟨params, cleaned, hl⟩ := hvalid.launches
  rcases upgradeTilt_ok hupgrade with rfl | ⟨shot, axis, hshot, hkeys, haxis, rfl⟩
  · rw [hl.written]
    exact joyLauncher_launches hvalid hl
  · have hwritten := hl.written
    rw [AList.lookup_insert, Option.some.injEq, Layer.dict.injEq] at hwritten
    subst hwritten
    rw [hshot]
    exact joyLauncher_oneAxis hvalid hl hkeys haxis

/-- **The tilt inputs that are shown are usable, and the robot uses the values
that are shown exactly if the profile in use writes its floats as floats.** -/
theorem shown_iff_written (h : readProfile safeLoad controller files = .ok shown) :
    validTiltInputs (shownConfig shown.values) = true ∧
      (RobotUses safeLoad controller files shown.values ↔
        FloatsWritten controller (usedDocument safeLoad controller files)) := by
  obtain ⟨text, htext, hdecode⟩ := readProfile_decode h
  obtain ⟨document, upgraded, hload, hupgrade, hvalid⟩ := decode_ok hdecode
  refine ⟨hvalid.validTilt, ?_⟩
  have hgiven := robotParameters_eq htext hload
  rw [usedDocument_eq htext hload, floatsWritten_iff, writtenValue_speed]
  have hothers : (∀ g ∈ profileGroups controller, g.name ≠ launcherNode → ∀ f ∈ g.fields,
        f.kind.isFloat = true → ∀ n, writtenValue (.dict document) g.name f.name ≠ some (.int n)) ↔
      ∀ g ∈ profileGroups controller, g.name ≠ launcherNode → ∀ f ∈ g.fields,
        f.kind.isFloat = true → ∀ n,
          (paramsOf ((migrateValues (document.mapVal rosParameters)).lookup g.name)).lookup f.name ≠
            some (.int n) := by
    refine forall₃_congr fun g hg hname => ?_
    simp only [writtenValue_new hname (group_new g (mem_groups hg))]
  rw [hothers, ← nodes_iff hupgrade hvalid, ← launcher_iff hupgrade hvalid]
  constructor
  · rintro ⟨hparameters, hlauncher⟩
    simp only [hgiven] at hparameters hlauncher
    exact ⟨hparameters, hlauncher⟩
  · rintro ⟨hparameters, hlauncher⟩
    constructor
    · simpa only [hgiven] using hparameters
    · simpa only [hgiven] using hlauncher

end Reading

/-! ## A saved profile with a whole number for the roller's power -/

def sectionOf (items : List (String × Value)) : Section :=
  .dict (AList.singleton rosKey (.dict
    (items.map fun i => (⟨i.1, i.2⟩ : Sigma fun _ : Key => Value)).toAList))

/-- A profile of the UART controller, as a text up to the roller's power. -/
def profileBody : Text :=
  ("joy_controller: \x7bros__parameters: \x7blinear_x_axis: 1, linear_y_axis: 0, " ++
    "angular_z_axis: 3, longitudinal_input_ratio: 1.0, lateral_input_ratio: 0.5, " ++
    "angular_input_ratio: 3.0\x7d\x7d\n" ++
    "joy_controller_dual_stick: \x7bros__parameters: \x7blongitudinal_input_ratio: 1.0, " ++
    "angular_input_ratio: 6.0, left_stick_vertical_axis: 1, " ++
    "right_stick_vertical_axis: 4\x7d\x7d\n" ++
    "drive_component: \x7bros__parameters: \x7bmax_motor_rpm: 475, max_linear_accel: 1.5, " ++
    "max_angular_accel: 1.5, slew_taper_band_linear: 0.5, slew_taper_band_angular: 0.5, " ++
    "min_command_rpm: 5\x7d\x7d\n" ++
    "joy_axis_drive: \x7bros__parameters: \x7bmax_motor_rpm: 100, left_axis_index: 1, " ++
    "right_axis_index: 4, invert_left_axis: false, invert_right_axis: true\x7d\x7d\n" ++
    "joy_node: \x7bros__parameters: \x7bdeadzone: 0.5\x7d\x7d\n" ++
    "uart_joy_driver: \x7bros__parameters: \x7bdeadzone: 0.5\x7d\x7d\n" ++
    "joy_launcher: \x7bros__parameters: \x7bfire_button: 5, tilt_up_axis: 7, " ++
    "tilt_up_axis_sign: 1, tilt_down_axis: 7, tilt_down_axis_sign: -1, " ++
    "tilt_up_button_index: 4, tilt_down_button_index: 6, full_speed_button: 7, " ++
    "full_speed_value: ").toList

def profileText (speed : Text) : Text :=
  (unitsMarker ++ currentUnits) ++ '\n' :: (profileBody ++ (speed ++ "\x7d\x7d\n".toList))

/-- The document of that text. -/
def profileDocument (speed : Value) : Dict Key Section :=
  (([
    ("joy_controller", sectionOf [("linear_x_axis", .int 1), ("linear_y_axis", .int 0),
      ("angular_z_axis", .int 3), ("longitudinal_input_ratio", .float 1),
      ("lateral_input_ratio", .float (.fin (1 / 2))), ("angular_input_ratio", .float 3)]),
    ("joy_controller_dual_stick", sectionOf [("longitudinal_input_ratio", .float 1),
      ("angular_input_ratio", .float 6), ("left_stick_vertical_axis", .int 1),
      ("right_stick_vertical_axis", .int 4)]),
    ("joy_launcher", sectionOf [("fire_button", .int 5), ("tilt_up_axis", .int 7),
      ("tilt_up_axis_sign", .int 1), ("tilt_down_axis", .int 7), ("tilt_down_axis_sign", .int (-1)),
      ("tilt_up_button_index", .int 4), ("tilt_down_button_index", .int 6),
      ("full_speed_button", .int 7), ("full_speed_value", speed)]),
    ("drive_component", sectionOf [("max_motor_rpm", .int 475),
      ("max_linear_accel", .float (.fin (3 / 2))), ("max_angular_accel", .float (.fin (3 / 2))),
      ("slew_taper_band_linear", .float (.fin (1 / 2))),
      ("slew_taper_band_angular", .float (.fin (1 / 2))), ("min_command_rpm", .int 5)]),
    ("joy_axis_drive", sectionOf [("max_motor_rpm", .int 100), ("left_axis_index", .int 1),
      ("right_axis_index", .int 4), ("invert_left_axis", .bool false),
      ("invert_right_axis", .bool true)]),
    ("joy_node", sectionOf [("deadzone", .float (.fin (1 / 2)))]),
    ("uart_joy_driver", sectionOf [("deadzone", .float (.fin (1 / 2)))])
  ] : List (String × Section)).map fun i => (⟨i.1, i.2⟩ : Sigma fun _ : Key => Section)).toAList

def wholeText : Text := profileText ['1']
def floatText : Text := profileText ['1', '.', '0']

/-- The YAML library, on these texts. -/
def loadProfile (text : Text) : Except String Document :=
  if text = floatText then .ok (.dict (profileDocument (.float 1)))
  else if text = wholeText then .ok (.dict (profileDocument (.int 1)))
  else .error "another text"

/-- The packaged profile, and a saved one. -/
def filesWith (saved : Text) : Files where
  defaultPath := "controls.uart.yaml".toList
  packaged := some floatText
  saved := some saved
  history := .missing

theorem loadProfile_float : loadProfile floatText = .ok (.dict (profileDocument (.float 1))) :=
  if_pos rfl

theorem loadProfile_whole : loadProfile wholeText = .ok (.dict (profileDocument (.int 1))) := by
  have hne : wholeText ≠ floatText := by
    intro h
    have hspeed := List.append_cancel_left (List.cons.inj (List.append_cancel_left h)).2
    have hlength := congrArg List.length hspeed
    cases hlength
  rw [loadProfile, if_neg hne, if_pos rfl]

theorem exists_decoded {safeLoad : Text → Except String Document} {text : Text}
    {document : Document} (controller : Controller) (hload : safeLoad text = .ok document)
    (h : (decode (fun _ => .ok document) [] controller).toOption.isSome = true) :
    ∃ clean, decode safeLoad text controller = .ok clean := by
  have hsame : decode safeLoad text controller = decode (fun _ => .ok document) [] controller := by
    rw [decode, hload, decode]
  rw [hsame]
  cases hdecode : decode (fun _ => .ok document) [] controller with
  | error e =>
    rw [hdecode] at h
    cases h
  | ok clean => exact ⟨clean, rfl⟩

theorem exists_shown {safeLoad : Text → Except String Document} {controller : Controller}
    {default raw : Text} {defaults clean : Dict Key Params} (files : Files)
    (hpackaged : files.packaged = some default) (hsaved : files.saved = some raw)
    (hfixed : controller.fixed = false)
    (hdefault : decode safeLoad default controller = .ok defaults)
    (hraw : decode safeLoad raw controller = .ok clean) :
    ∃ shown, readProfile safeLoad controller files = .ok shown := by
  have hvalues : readValues safeLoad controller default (some raw) = .ok (defaults, clean) := by
    simp only [readValues, hdefault, hraw]
    rfl
  simp only [readProfile, hpackaged, hsaved, hfixed, Bool.false_eq_true, if_false, hvalues]
  exact ⟨_, rfl⟩

theorem floatText_shown :
    ∃ shown, readProfile loadProfile .uart (filesWith floatText) = .ok shown := by
  obtain ⟨clean, hclean⟩ := exists_decoded .uart loadProfile_float (by decide +kernel)
  exact exists_shown (filesWith floatText) rfl rfl rfl hclean hclean

theorem shown_iff_written_saved :
    ∃ shown, readProfile loadProfile .uart (filesWith floatText) = .ok shown ∧
      validTiltInputs (shownConfig shown.values) = true ∧
        (RobotUses loadProfile .uart (filesWith floatText) shown.values ↔
          FloatsWritten .uart (usedDocument loadProfile .uart (filesWith floatText))) := by
  obtain ⟨shown, hshown⟩ := floatText_shown
  exact ⟨shown, hshown, shown_iff_written hshown⟩

theorem unitsGeneration_append (line rest : Text) :
    unitsGeneration (line ++ '\n' :: rest) =
      (unitsGeneration line).or (unitsGeneration rest) := by
  rw [unitsGeneration, List.splitOn_append_cons_self, List.findSome?_append]
  rfl

theorem unitsGeneration_profileText (speed : Text) :
    unitsGeneration (profileText speed) = some currentUnits := by
  have hmarker : unitsGeneration (unitsMarker ++ currentUnits) = some currentUnits := by
    decide
  rw [profileText, unitsGeneration_append, hmarker, Option.some_or]

theorem selectText_saved {controller : Controller} {text : Text} {packaged : Option Text}
    (hfixed : controller.fixed = false) (hunits : unitsGeneration text = some currentUnits) :
    selectText none controller (some text) packaged = some text := by
  simp only [selectText, hfixed, hunits, Bool.not_false, Bool.true_and, decide_true, if_true]

/-- The page shows a power of 1.0, and the launcher's node does not start. -/
theorem whole_shown_as_float :
    ¬ ∀ (safeLoad : Text → Except String Document) (controller : Controller) (files : Files)
      (shown : Shown), controller.fixed = false →
        readProfile safeLoad controller files = .ok shown →
          validTiltInputs (shownConfig shown.values) = true ∧
            RobotUses safeLoad controller files shown.values := by
  intro h
  obtain ⟨defaults, hdefaults⟩ :=
    exists_decoded .uart loadProfile_float (by decide +kernel)
  obtain ⟨clean, hclean⟩ := exists_decoded .uart loadProfile_whole (by decide +kernel)
  obtain ⟨shown, hshown⟩ := exists_shown (filesWith wholeText) rfl rfl rfl hdefaults hclean
  have huses := (h loadProfile .uart (filesWith wholeText) shown rfl hshown).2
  have hselected : selectText none .uart (filesWith wholeText).saved (filesWith wholeText).packaged =
      some wholeText :=
    selectText_saved rfl (unitsGeneration_profileText _)
  have hlauncher := huses.launcher
  rw [robotParameters_eq hselected loadProfile_whole] at hlauncher
  have hthrows : joyLauncher (paramsOf ((migrateValues ((profileDocument (.int 1)).mapVal
      rosParameters)).lookup launcherNode)) = none := by
    decide
  rw [hthrows] at hlauncher
  cases hlauncher

end Questix.RobotManager.Controls
