/-
Questix.RobotManager.ActuationTheorems — what the teacher's switches and the
lesson permissions may be.

Between two calls (`Told`) a lesson permission has its switch, and a switch has
a heartbeat whose last line is the state. Each section under the lock has one
lemma, which also says what may be on after it and what a failed write leaves
on; the calls are put together from these.

An exit of the heartbeat is noticed where the code looks for one (`Looks`):
not by a request that is refused before it comes to the switches, and not by
`revokeLab` when there is no permission to take back.
-/
import Questix.Lib.Trace
import Questix.RobotManager.Actuation

namespace Questix.RobotManager

open Questix.Lib

namespace Actuation

variable {a a' : Actuation} {kind : Kind} {which : List Kind} {chance : Chance} {reason : String}

/-! ## The invariant -/

def AllOff (a : Actuation) : Prop := a.authority = allOff ∧ a.lab = allOff

/-- A lesson permission has its switch, and a switch has a heartbeat that was
told exactly the switches and permissions. -/
structure Told (a : Actuation) : Prop where
  permitted : ∀ kind, a.lab kind = true → a.authority kind = true
  told : ∀ kind, a.authority kind = true →
    ∃ proc, a.proc = some proc ∧ proc.line = some ⟨a.authority, a.lab⟩

/-- What is on after a section was on before, and only what was told is on; a
write that failed leaves nothing on. -/
structure Lowers (a a' : Actuation) : Prop where
  told : Told a'
  authority : ∀ kind, a'.authority kind = true → a.authority kind = true
  lab : ∀ kind, a'.lab kind = true → a.lab kind = true
  failed : a'.failedWrites = a.failedWrites ∨ AllOff a'

theorem AllOff.told (h : AllOff a) : Told a where
  permitted kind hkind := by
    rw [h.2] at hkind
    cases hkind
  told kind hkind := by
    rw [h.1] at hkind
    cases hkind

theorem AllOff.lowers (h : AllOff a') : Lowers a a' where
  told := h.told
  authority kind hkind := by
    rw [h.1] at hkind
    cases hkind
  lab kind hkind := by
    rw [h.2] at hkind
    cases hkind
  failed := .inr h

theorem Lowers.refl (h : Told a) : Lowers a a := ⟨h, fun _ h => h, fun _ h => h, .inl rfl⟩

theorem Lowers.trans {a'' : Actuation} (h : Lowers a a') (h' : Lowers a' a'') : Lowers a a'' where
  told := h'.told
  authority kind hkind := h.authority kind (h'.authority kind hkind)
  lab kind hkind := h.lab kind (h'.lab kind hkind)
  failed := by
    rcases h'.failed with hsame' | hoff
    · rcases h.failed with hsame | hoff
      · exact .inl (hsame'.trans hsame)
      · refine .inr ⟨?_, ?_⟩
        · funext kind
          refine Bool.eq_false_iff.2 fun hkind => ?_
          have hon := h'.authority kind hkind
          rw [hoff.1] at hon
          cases hon
        · funext kind
          refine Bool.eq_false_iff.2 fun hkind => ?_
          have hon := h'.lab kind hkind
          rw [hoff.2] at hon
          cases hon
    · exact .inr hoff

/-! ## The sections -/

theorem anyOn_eq_false : a.anyOn = false ↔ a.authority = allOff := by
  constructor
  · intro h
    funext kind
    simp only [anyOn, List.any_eq_false] at h
    exact Bool.eq_false_iff.2 (h kind (mem_kinds kind))
  · intro h
    simp [anyOn, h, allOff]

theorem allOff_writeFailed : AllOff a.writeFailed := ⟨rfl, rfl⟩

theorem send_frame (a : Actuation) (chance : Chance) : (a.send chance).1.authority = a.authority ∧
    (a.send chance).1.lab = a.lab ∧
    ((a.send chance).2 = true → (a.send chance).1.failedWrites = a.failedWrites ∧
      ∃ proc, (a.send chance).1.proc = some proc ∧ proc.exited = none ∧
        proc.line = some a.heartbeatState) := by
  unfold send
  split
  · exact ⟨rfl, rfl, nofun⟩
  · dsimp only
    split
    · rename_i hgoes
      simp only [Bool.and_eq_true, Option.isNone_iff_eq_none] at hgoes
      exact ⟨rfl, rfl, fun _ => ⟨rfl, _, rfl, hgoes.1, rfl⟩⟩
    · exact ⟨rfl, rfl, nofun⟩

theorem send_exited {proc : Heartbeat} (hproc : a.proc = some proc) (hexited : proc.exited ≠ none) :
    (a.send chance).2 = false := by
  obtain ⟨code, hcode⟩ := Option.ne_none_iff_exists'.1 hexited
  simp [send, hproc, hcode]

theorem heartbeatState_eq (h : ∀ kind, a.lab kind = true → a.authority kind = true) :
    a.heartbeatState = ⟨a.authority, a.lab⟩ := by
  have hlab : (fun kind => a.lab kind && a.authority kind) = a.lab := by
    funext kind
    cases hkind : a.lab kind with
    | false => rfl
    | true => simp [h kind hkind]
  rw [heartbeatState, hlab]

theorem told_send (h : ∀ kind, a.lab kind = true → a.authority kind = true)
    (hsent : (a.send chance).2 = true) : Told (a.send chance).1 := by
  obtain ⟨hauthority, hlab, hgoes⟩ := send_frame a chance
  obtain ⟨-, proc, hproc, -, hline⟩ := hgoes hsent
  refine ⟨?_, fun kind _ => ⟨proc, hproc, ?_⟩⟩
  · rw [hauthority, hlab]
    exact h
  · rw [hline, hauthority, hlab, heartbeatState_eq h]

theorem told_sent (hsends : a.send chance = (a', true))
    (hpermitted : ∀ kind, a.lab kind = true → a.authority kind = true) :
    Told a' ∧ a'.authority = a.authority ∧ a'.lab = a.lab ∧ a'.failedWrites = a.failedWrites := by
  have hframe := send_frame a chance
  have htold : (a.send chance).2 = true → Told (a.send chance).1 := told_send hpermitted
  rw [hsends] at hframe htold
  exact ⟨htold rfl, hframe.1, hframe.2.1, (hframe.2.2 rfl).1⟩

theorem update_eq_true {switches : Switches} {b : Bool} {k : Kind} :
    Function.update switches kind b k = true ↔
      k = kind ∧ b = true ∨ k ≠ kind ∧ switches k = true := by
  by_cases hsame : k = kind
  · subst hsame
    simp
  · simp [hsame]

/-- What a section leaves that tells the heartbeat: the state, or nothing on. -/
def tell (a : Actuation) (chance : Chance) : Actuation :=
  if (a.send chance).2 then (a.send chance).1 else (a.send chance).1.writeFailed

theorem lowers_tell (hauthority : ∀ kind, a'.authority kind = true → a.authority kind = true)
    (hlab : ∀ kind, a'.lab kind = true → a.lab kind = true)
    (hpermitted : ∀ kind, a'.lab kind = true → a'.authority kind = true)
    (hwrites : a'.failedWrites = a.failedWrites) : Lowers a (a'.tell chance) := by
  unfold tell
  split
  · rename_i hsent
    obtain ⟨hauthority', hlab', hgoes⟩ := send_frame a' chance
    refine ⟨told_send hpermitted hsent, ?_, ?_, .inl ((hgoes hsent).1.trans hwrites)⟩
    · rw [hauthority']
      exact hauthority
    · rw [hlab']
      exact hlab
  · exact allOff_writeFailed.lowers

/-- The switches without those of `which`. -/
def without (switches : Switches) (which : List Kind) : Switches :=
  fun kind => if kind ∈ which then false else switches kind

theorem without_eq_true {switches : Switches} :
    without switches which kind = true ↔ kind ∉ which ∧ switches kind = true := by
  unfold without
  split <;> simp_all

theorem without_kinds (switches : Switches) : without switches kinds = allOff := by
  funext kind
  exact if_pos (mem_kinds kind)

/-- The state when `which` have been switched off, before the heartbeat is told. -/
def switchedOff (a : Actuation) (which : List Kind) (reason : String) : Actuation :=
  { a with
    authority := without a.authority which
    lab := without a.lab which
    lastOffReason := if which.filter a.authority ≠ [] then some reason else a.lastOffReason }

theorem off_eq (a : Actuation) (which : List Kind) (reason : String) (chance : Chance) :
    a.off which reason chance =
      (if (a.switchedOff which reason).anyOn = false then
          (a.switchedOff which reason).stopHeartbeat
        else if which.filter a.authority ≠ [] ∨ which.any a.lab = true then
          (a.switchedOff which reason).tell chance
        else a.switchedOff which reason, which.filter a.authority) := by
  have hoff : ({ a with
      authority := fun kind => if kind ∈ which then false else a.authority kind
      lab := fun kind => if kind ∈ which then false else a.lab kind
      lastOffReason := if which.filter a.authority ≠ [] then some reason else a.lastOffReason } :
        Actuation) = a.switchedOff which reason := rfl
  unfold off
  simp only [hoff, Bool.not_eq_true']
  split
  · rfl
  · split
    · unfold tell
      split <;> simp_all
    · rfl

theorem off_kinds (a : Actuation) (reason : String) (chance : Chance) :
    (a.off kinds reason chance).1 = (a.switchedOff kinds reason).stopHeartbeat := by
  rw [off_eq, if_pos]
  exact anyOn_eq_false.2 (without_kinds _)

theorem allOff_off (a : Actuation) (reason : String) (chance : Chance) :
    AllOff (a.off kinds reason chance).1 := by
  rw [off_kinds]
  exact ⟨without_kinds _, without_kinds _⟩

theorem lowers_off (h : Told a) : Lowers a (a.off which reason chance).1 := by
  have hauthority : ∀ kind, (a.switchedOff which reason).authority kind = true →
      a.authority kind = true := fun kind hkind => (without_eq_true.1 hkind).2
  have hlab : ∀ kind, (a.switchedOff which reason).lab kind = true → a.lab kind = true :=
    fun kind hkind => (without_eq_true.1 hkind).2
  have hpermitted : ∀ kind, (a.switchedOff which reason).lab kind = true →
      (a.switchedOff which reason).authority kind = true := by
    intro kind hkind
    obtain ⟨hnot, hon⟩ := without_eq_true.1 hkind
    exact without_eq_true.2 ⟨hnot, h.permitted kind hon⟩
  rw [off_eq]
  dsimp only
  split
  · rename_i hnone
    have hoff : (a.switchedOff which reason).authority = allOff := anyOn_eq_false.1 hnone
    refine AllOff.lowers ⟨hoff, ?_⟩
    funext kind
    refine Bool.eq_false_iff.2 fun hkind => ?_
    have hon := hpermitted kind hkind
    rw [hoff] at hon
    cases hon
  · split
    · exact lowers_tell hauthority hlab hpermitted rfl
    · rename_i hquiet
      -- nothing of `which` was on, so the last line still says what is on
      simp only [ne_eq, not_or, not_not, List.filter_eq_nil_iff, Bool.not_eq_true,
        List.any_eq_false] at hquiet
      have hsame : ∀ switches : Switches, (∀ kind ∈ which, switches kind = false) →
          without switches which = switches := by
        intro switches hswitches
        funext kind
        unfold without
        split
        · rename_i hmem
          exact (hswitches kind hmem).symm
        · rfl
      have hauthority' : (a.switchedOff which reason).authority = a.authority :=
        hsame a.authority hquiet.1
      have hlab' : (a.switchedOff which reason).lab = a.lab := hsame a.lab hquiet.2
      refine ⟨⟨hpermitted, ?_⟩, hauthority, hlab, .inl rfl⟩
      rw [hauthority', hlab']
      exact h.told

theorem reap_exited {code : ℤ} (h : a.proc.bind Heartbeat.exited = some code) :
    AllOff (a.reap chance).1 ∧ (a.reap chance).1.proc = none ∧
      (a.reap chance).1.failedWrites = a.failedWrites := by
  unfold reap
  rw [h]
  refine ⟨allOff_off _ _ _, ?_, ?_⟩
  · rw [off_kinds]
    rfl
  · rw [off_kinds]
    rfl

theorem reap_running (h : a.proc.bind Heartbeat.exited = none) : (a.reap chance).1 = a := by
  unfold reap
  rw [h]

theorem lowers_reap (h : Told a) : Lowers a (a.reap chance).1 := by
  cases hexited : a.proc.bind Heartbeat.exited with
  | none =>
    rw [reap_running hexited]
    exact .refl h
  | some code => exact (reap_exited hexited).1.lowers

theorem AllOff.of_lowers (hoff : AllOff a) (h : Lowers a a') : AllOff a' := by
  refine ⟨?_, ?_⟩
  · funext kind
    refine Bool.eq_false_iff.2 fun hkind => ?_
    have hon := h.authority kind hkind
    rw [hoff.1] at hon
    cases hon
  · funext kind
    refine Bool.eq_false_iff.2 fun hkind => ?_
    have hon := h.lab kind hkind
    rw [hoff.2] at hon
    cases hon

theorem lowers_revokeLab (h : Told a) : Lowers a (a.revokeLab chance).1 := by
  have hoff : (a.revokeLab chance).1 =
      if kinds.any a.lab = true then ({ a with lab := allOff } : Actuation).tell chance
      else { a with lab := allOff } := by
    unfold revokeLab tell
    dsimp only
    split
    · split <;> simp_all
    · rfl
  rw [hoff]
  split
  · exact lowers_tell (fun _ hkind => hkind) nofun nofun rfl
  · rename_i hnone
    have hlab : a.lab = allOff := by
      funext kind
      simp only [List.any_eq_true, not_exists, not_and] at hnone
      exact Bool.eq_false_iff.2 (hnone kind (mem_kinds kind))
    rw [← hlab]
    exact .refl h

theorem allOff_revokeAll (running : Option String) (reads : ModeReads) :
    AllOff (a.revokeAll reason running reads chance).1 := allOff_off _ reason chance

theorem lowers_authorityOff (h : Told a) (running : Option String) (reads : ModeReads) :
    Lowers a (a.authorityOff kind running reads chance).1 :=
  (lowers_reap h).trans (lowers_off (lowers_reap h).told)

/-! ### What may go on -/

/-- What a section that switches on leaves: `kind` may be on besides what was
on, and nothing else unless it went well. -/
structure Raises {α : Type} (a : Actuation) (switches permissions : Kind → Prop)
    (r : Actuation × Except HttpError α) : Prop where
  told : Told r.1
  authority : ∀ kind, r.1.authority kind = true → a.authority kind = true ∨ switches kind
  lab : ∀ kind, r.1.lab kind = true → a.lab kind = true ∨ permissions kind
  failed : r.1.failedWrites = a.failedWrites ∨ AllOff r.1
  error : ∀ error, r.2 = .error error → Lowers a r.1

variable {α : Type} {switches permissions : Kind → Prop} {r : Actuation × Except HttpError α}

theorem Lowers.raises (h : Lowers a r.1) : Raises a switches permissions r where
  told := h.told
  authority kind hkind := .inl (h.authority kind hkind)
  lab kind hkind := .inl (h.lab kind hkind)
  failed := h.failed
  error _ _ := h

theorem Lowers.trans_raises (h : Lowers a a') (hwrites : a'.failedWrites = a.failedWrites)
    (h' : Raises a' switches permissions r) : Raises a switches permissions r where
  told := h'.told
  authority kind hkind := (h'.authority kind hkind).imp_left (h.authority kind)
  lab kind hkind := (h'.lab kind hkind).imp_left (h.lab kind)
  failed := h'.failed.imp_left fun hsame => hsame.trans hwrites
  error error hr := h.trans (h'.error error hr)

theorem reap_failedWrites (a : Actuation) (chance : Chance) :
    (a.reap chance).1.failedWrites = a.failedWrites := by
  cases hexited : a.proc.bind Heartbeat.exited with
  | none => rw [reap_running hexited]
  | some code => exact (reap_exited hexited).2.2

/-- A request for an unknown kind changes nothing; another goes on after the
look at the heartbeat. -/
theorem raises_setLab (h : Told a) (name : String) (allow : Bool) :
    Raises a (fun _ => False) (fun kind => kindOf name = some kind ∧ allow = true)
      (a.setLab name allow chance) := by
  unfold setLab
  cases hkind : kindOf name with
  | none => exact Lowers.raises (.refl h)
  | some kind =>
    refine (lowers_reap h).trans_raises (reap_failedWrites a chance) ?_
    have h : Told (a.reap chance).1 := (lowers_reap h).told
    dsimp only
    generalize (a.reap chance).1 = a at h ⊢
    split
    · exact Lowers.raises (.refl h)
    · rename_i hswitch
      split
      · have hpermitted : ∀ k, Function.update a.lab kind allow k = true → a.authority k = true := by
          intro k hk
          rcases update_eq_true.1 hk with ⟨rfl, hallow⟩ | ⟨-, hon⟩
          · simpa [hallow] using hswitch
          · exact h.permitted k hon
        rcases hsends : ({ a with lab := Function.update a.lab kind allow } : Actuation).send chance
          with ⟨a₁, _ | _⟩
        · exact Lowers.raises allOff_writeFailed.lowers
        · obtain ⟨htold, hauthority, hlab, hwrites⟩ := told_sent hsends hpermitted
          refine ⟨htold, ?_, ?_, .inl hwrites, nofun⟩
          · intro k hk
            exact .inl (hauthority ▸ hk)
          · intro k hk
            rcases update_eq_true.1 (hlab ▸ hk) with ⟨rfl, hallow⟩ | ⟨-, hon⟩
            · exact .inr ⟨rfl, hallow⟩
            · exact .inl hon
      · exact Lowers.raises (.refl h)

theorem startHeartbeat_frame (a : Actuation) (chance : Chance) :
    (a.startHeartbeat chance).1.authority = a.authority ∧
      (a.startHeartbeat chance).1.lab = a.lab ∧
      (a.startHeartbeat chance).1.failedWrites = a.failedWrites ∧
      ((a.startHeartbeat chance).1.proc = a.proc ∨
        a.proc = none ∧ (a.startHeartbeat chance).2 = none) := by
  unfold startHeartbeat
  split
  · exact ⟨rfl, rfl, rfl, .inl rfl⟩
  · rename_i hnone
    split
    · exact ⟨rfl, rfl, rfl, .inl rfl⟩
    · exact ⟨rfl, rfl, rfl, .inl rfl⟩
    · exact ⟨rfl, rfl, rfl, .inl rfl⟩
    · exact ⟨rfl, rfl, rfl, .inr ⟨hnone, rfl⟩⟩

theorem raises_switchOn (h : Told a) (running : Option String) (reads : ModeReads) :
    Raises a (fun k => k = kind) (fun _ => False) (a.switchOn kind running reads chance) := by
  obtain ⟨hauthority, hlab, hwrites, hproc⟩ := startHeartbeat_frame a chance
  unfold switchOn
  rcases hstarts : a.startHeartbeat chance with ⟨a₁, _ | error⟩
  · rw [hstarts] at hauthority hlab hwrites hproc
    dsimp only
    have hpermitted : ∀ k, a₁.lab k = true → Function.update a₁.authority kind true k = true := by
      intro k hk
      refine update_eq_true.2 ?_
      by_cases hsame : k = kind
      · exact .inl ⟨hsame, rfl⟩
      · exact .inr ⟨hsame, by rw [hauthority]; exact h.permitted k (hlab ▸ hk)⟩
    rcases hsends : ({ a₁ with authority := Function.update a₁.authority kind true } :
      Actuation).send chance with ⟨a₂, _ | _⟩
    · exact Lowers.raises allOff_writeFailed.lowers
    · obtain ⟨htold, hauthority', hlab', hwrites'⟩ := told_sent hsends hpermitted
      refine ⟨⟨htold.permitted, htold.told⟩, ?_, ?_, .inl (hwrites'.trans hwrites), nofun⟩
      · intro k hk
        rcases update_eq_true.1 (hauthority' ▸ hk) with ⟨hsame, -⟩ | ⟨-, hon⟩
        · exact .inr hsame
        · exact .inl (hauthority ▸ hon)
      · intro k hk
        exact .inl (hlab ▸ hlab' ▸ hk)
  · rw [hstarts] at hauthority hlab hwrites hproc
    refine Lowers.raises ⟨⟨?_, ?_⟩, ?_, ?_, .inl hwrites⟩
    · rw [hauthority, hlab]
      exact h.permitted
    · intro k hk
      rcases hproc with hproc | ⟨-, hgoes⟩
      · rw [hproc, hauthority, hlab]
        exact h.told k (hauthority ▸ hk)
      · cases hgoes
    · intro k hk
      exact hauthority ▸ hk
    · intro k hk
      exact hlab ▸ hk

theorem raises_authorityOn (h : Told a) (running : Option String) (reads : ModeReads) :
    Raises a (fun k => k = kind) (fun _ => False) (a.authorityOn kind running reads chance) :=
  (lowers_reap h).trans_raises (reap_failedWrites a chance)
    (raises_switchOn (lowers_reap h).told running reads)

/-! ## Calls -/

/-- The call comes to look at the heartbeat: it is not refused before, and
`revokeLab` has a permission to take back. -/
def Looks (a : Actuation) : Call → Prop
  | .setAuthority name allow running mode _ =>
    ∃ kind, kindOf name = some kind ∧ (allow = false ∨ unavailable kind mode running = none)
  | .setLab name _ => kindOf name ≠ none
  | .revokeLab => ∃ kind, a.lab kind = true
  | .revokeAll _ _ _ => True
  | .status _ _ _ => True

/-- The call switches `kind` on, and is answered so. -/
def SwitchesOn (c : Call) (reply : Reply) (kind : Kind) : Prop :=
  (∃ name running mode reads,
    c = .setAuthority name true running mode reads ∧ kindOf name = some kind) ∧
  ∃ status, reply = .status status

/-- What a call leaves. -/
structure Called (a a' : Actuation) (c : Call) (reply : Reply) : Prop where
  told : Told a'
  failed : a'.failedWrites = a.failedWrites ∨ AllOff a'
  raised : ∀ error, reply = .raised error → Lowers a a'

theorem Lowers.called {c : Call} {reply : Reply} (h : Lowers a a') : Called a a' c reply :=
  ⟨h.told, h.failed, fun _ _ => h⟩

theorem AllOff.called {c : Call} {reply : Reply} (h : AllOff a') : Called a a' c reply :=
  h.lowers.called

theorem raises_setAuthority (h : Told a) (name : String) (allow : Bool) (running : Option String)
    (mode : String) (reads : ModeReads) :
    Raises a (fun kind => kindOf name = some kind ∧ allow = true) (fun _ => False)
      (a.setAuthority name allow running mode reads chance) := by
  unfold setAuthority
  cases hkind : kindOf name with
  | none => exact Lowers.raises (.refl h)
  | some kind =>
    dsimp only
    split
    · exact Lowers.raises (lowers_authorityOff h running reads)
    · rename_i hallow
      split
      · exact Lowers.raises (.refl h)
      · have hraises : Raises a (fun k => k = kind) (fun _ => False)
            (a.authorityOn kind running reads chance) := raises_authorityOn h running reads
        refine ⟨hraises.told, ?_, hraises.lab, hraises.failed, hraises.error⟩
        intro k hk
        rcases hraises.authority k hk with hon | rfl
        · exact .inl hon
        · exact .inr ⟨rfl, by simpa using hallow⟩

theorem called_call (h : Told a) (c : Call) :
    Called a (a.call chance c).1 c (a.call chance c).2 := by
  cases c with
  | setAuthority name allow running mode reads =>
    have hraises : Raises a _ _ (a.setAuthority name allow running mode reads chance) :=
      raises_setAuthority h name allow running mode reads
    unfold call
    rcases hanswer : a.setAuthority name allow running mode reads chance with ⟨a', error | status⟩
    · rw [hanswer] at hraises
      simp only [hanswer]
      exact (hraises.error error rfl).called
    · rw [hanswer] at hraises
      simp only [hanswer]
      exact ⟨hraises.told, hraises.failed, nofun⟩
  | setLab name allow =>
    have hraises : Raises a _ _ (a.setLab name allow chance) := raises_setLab h name allow
    unfold call
    rcases hanswer : a.setLab name allow chance with ⟨a', error | lab⟩
    · rw [hanswer] at hraises
      simp only [hanswer]
      exact (hraises.error error rfl).called
    · rw [hanswer] at hraises
      simp only [hanswer]
      exact ⟨hraises.told, hraises.failed, nofun⟩
  | revokeLab => exact (lowers_revokeLab h).called
  | revokeAll reason running reads => exact (allOff_revokeAll running reads).called
  | status running withRunningMode reads => exact (lowers_reap h).called

/-! ### After an exit of the heartbeat -/

theorem revokeLab_exited {code : ℤ} (hexited : a.proc.bind Heartbeat.exited = some code)
    (hon : ∃ kind, a.lab kind = true) : AllOff (a.revokeLab chance).1 := by
  obtain ⟨kind, hkind⟩ := hon
  obtain ⟨proc, hproc, hcode⟩ := Option.bind_eq_some_iff.1 hexited
  have hany : kinds.any a.lab = true := List.any_eq_true.2 ⟨kind, mem_kinds kind, hkind⟩
  have hsent : (({ a with lab := allOff } : Actuation).send chance).2 = false :=
    send_exited hproc (by simp [hcode])
  unfold revokeLab
  rcases hsends : ({ a with lab := allOff } : Actuation).send chance with ⟨a', _ | _⟩
  · simp only [hany, hsends, if_true]
    exact allOff_writeFailed
  · rw [hsends] at hsent
    cases hsent

theorem authorityOn_exited {code : ℤ} (hexited : a.proc.bind Heartbeat.exited = some code)
    (running : Option String) (reads : ModeReads) :
    (a.authorityOn kind running reads chance).1.lab = allOff ∧
      ∀ k, (a.authorityOn kind running reads chance).1.authority k = true → k = kind ∧
        ∃ status, (a.authorityOn kind running reads chance).2 = .ok status := by
  have hreap : AllOff (a.reap chance).1 := (reap_exited hexited).1
  have hraises : Raises (a.reap chance).1 (fun k => k = kind) (fun _ => False)
      (a.authorityOn kind running reads chance) := raises_switchOn hreap.told running reads
  cases hanswer : (a.authorityOn kind running reads chance).2 with
  | error error =>
    have hoff := hreap.of_lowers (hraises.error error hanswer)
    refine ⟨hoff.2, fun k hk => ?_⟩
    rw [hoff.1] at hk
    cases hk
  | ok status =>
    refine ⟨?_, fun k hk => ?_⟩
    · funext k
      refine Bool.eq_false_iff.2 fun hk => ?_
      rcases hraises.lab k hk with hon | hnever
      · rw [hreap.2] at hon
        cases hon
      · exact hnever
    · rcases hraises.authority k hk with hon | hsame
      · rw [hreap.1] at hon
        cases hon
      · exact ⟨hsame, status, rfl⟩

theorem setLab_exited {code : ℤ} (hexited : a.proc.bind Heartbeat.exited = some code)
    {name : String} {allow : Bool} (hname : kindOf name ≠ none) :
    AllOff (a.setLab name allow chance).1 := by
  obtain ⟨kind, hkind⟩ := Option.ne_none_iff_exists'.1 hname
  have hreap : AllOff (a.reap chance).1 := (reap_exited hexited).1
  unfold setLab
  rw [hkind]
  cases allow with
  | false => simpa [hreap.1, hreap.2, allOff] using hreap
  | true => simpa [hreap.1, allOff] using hreap

/-- A call that looks leaves nothing on that was on before the exit, but may
switch on anew. -/
theorem call_exited {c : Call} {code : ℤ} (hexited : a.proc.bind Heartbeat.exited = some code)
    (hlooks : Looks a c) :
    (a.call chance c).1.lab = allOff ∧ ∀ kind, (a.call chance c).1.authority kind = true →
      SwitchesOn c (a.call chance c).2 kind := by
  have hnone : ∀ {a' : Actuation} {P : Kind → Prop}, AllOff a' →
      a'.lab = allOff ∧ ∀ kind, a'.authority kind = true → P kind := by
    intro a' P hoff
    refine ⟨hoff.2, fun kind hkind => ?_⟩
    rw [hoff.1] at hkind
    cases hkind
  have hreap : AllOff (a.reap chance).1 := (reap_exited hexited).1
  cases c with
  | setAuthority name allow running mode reads =>
    obtain ⟨kind, hkind, hasks⟩ := hlooks
    cases allow with
    | false =>
      have hoff : AllOff ((a.reap chance).1.off [kind] "teacher" chance).1 :=
        hreap.of_lowers (lowers_off hreap.told)
      simp only [call, setAuthority, hkind]
      exact hnone hoff
    | true =>
      have havailable : unavailable kind mode running = none := by simpa using hasks
      have hon : (a.authorityOn kind running reads chance).1.lab = allOff ∧ _ :=
        authorityOn_exited hexited running reads
      simp only [call, setAuthority, hkind, havailable, Bool.not_true]
      rcases hanswer : a.authorityOn kind running reads chance with ⟨a', error | status⟩
      · rw [hanswer] at hon
        refine ⟨hon.1, fun k hk => ?_⟩
        obtain ⟨-, status, hstatus⟩ := hon.2 k hk
        cases hstatus
      · rw [hanswer] at hon
        refine ⟨hon.1, fun k hk => ?_⟩
        obtain ⟨rfl, -, -⟩ := hon.2 k hk
        exact ⟨⟨name, running, mode, reads, rfl, hkind⟩, status, rfl⟩
  | setLab name allow =>
    have hoff : AllOff (a.setLab name allow chance).1 := setLab_exited hexited hlooks
    unfold call
    rcases hanswer : a.setLab name allow chance with ⟨a', error | lab⟩
    · rw [hanswer] at hoff
      simp only [hanswer]
      exact hnone hoff
    · rw [hanswer] at hoff
      simp only [hanswer]
      exact hnone hoff
  | revokeLab => exact hnone (revokeLab_exited hexited hlooks)
  | revokeAll reason running reads => exact hnone (allOff_revokeAll running reads)
  | status running withRunningMode reads => exact hnone hreap

theorem call_blind {c : Call} (hlooks : ¬ Looks a c) : (a.call chance c).1 = a := by
  cases c with
  | setAuthority name allow running mode reads =>
    cases hkind : kindOf name with
    | none => simp only [call, setAuthority, hkind]
    | some kind =>
      have hasks : ¬ (allow = false ∨ unavailable kind mode running = none) :=
        fun hasks => hlooks ⟨kind, hkind, hasks⟩
      simp only [not_or, Bool.not_eq_false] at hasks
      obtain ⟨error, herror⟩ := Option.ne_none_iff_exists'.1 hasks.2
      simp [call, setAuthority, hkind, hasks.1, herror]
  | setLab name allow =>
    have hname : kindOf name = none := not_not.1 hlooks
    simp only [call, setLab, hname]
  | revokeLab =>
    have hlab : a.lab = allOff := by
      funext kind
      exact Bool.eq_false_iff.2 fun hkind => hlooks ⟨kind, hkind⟩
    have hnone : kinds.any a.lab = false := by simp [hlab, allOff]
    simp only [call, revokeLab, hnone]
    simp [← hlab]
  | revokeAll reason running reads => exact absurd trivial hlooks
  | status running withRunningMode reads => exact absurd trivial hlooks

/-! ## Runs -/

abbrev ActuationStep := Step Actuation ActuationEvent Reply

theorem told_exits (h : Told a) (code : ℤ) : Told (a.exits code) where
  permitted := h.permitted
  told kind hkind := by
    obtain ⟨proc, hproc, hline⟩ := h.told kind hkind
    exact ⟨{ proc with exited := proc.exited.orElse fun _ => code }, by simp [exits, hproc], hline⟩

theorem told_step (h : Told a) (e : ActuationEvent) : Told (a.step e).1 := by
  cases e with
  | call c chance => exact (called_call h c).told
  | exits code => exact told_exits h code

theorem told_start : Told {} := AllOff.told ⟨rfl, rfl⟩

/-- The rules of the switches at the step `t`. -/
structure Governed (t : ActuationStep) : Prop where
  permitted : ∀ kind, t.post.lab kind = true → t.post.authority kind = true
  told : ∀ kind, t.post.authority kind = true →
    ∃ proc, t.post.proc = some proc ∧ proc.line = some ⟨t.post.authority, t.post.lab⟩
  failed : t.post.failedWrites ≠ t.pre.failedWrites → AllOff t.post
  exited : ∀ c chance code, t.event = .call c chance →
    t.pre.proc.bind Heartbeat.exited = some code →
      (Looks t.pre c → t.post.lab = allOff ∧
        ∀ kind, t.post.authority kind = true → SwitchesOn c t.out kind) ∧
      (¬ Looks t.pre c → t.post = t.pre)
  raised : ∀ error, t.out = .raised error → ∀ kind,
    (t.post.authority kind = true → t.pre.authority kind = true) ∧
      (t.post.lab kind = true → t.pre.lab kind = true)

theorem governed_step (h : Told a) (e : ActuationEvent) : Governed (stepOf step a e) := by
  have htold : Told (a.step e).1 := told_step h e
  cases e with
  | call c chance =>
    have hcalled : Called a (a.call chance c).1 c (a.call chance c).2 := called_call h c
    refine ⟨htold.permitted, htold.told, ?_, ?_, ?_⟩
    · intro hwrites
      exact hcalled.failed.resolve_left hwrites
    · rintro _ _ code ⟨⟩ hexited
      exact ⟨fun hlooks => call_exited hexited hlooks, fun hlooks => call_blind hlooks⟩
    · intro error hout kind
      have hlowers := hcalled.raised error hout
      exact ⟨hlowers.authority kind, hlowers.lab kind⟩
  | exits code =>
    refine ⟨htold.permitted, htold.told, fun hwrites => absurd rfl hwrites, ?_, ?_⟩
    · intro c chance code' hevent
      cases hevent
    · intro error hout
      cases hout

/-- Whatever is called, and whenever the heartbeat exits or does not take a line. -/
theorem switches_governed (es : List ActuationEvent) :
    ∀ t ∈ trace step {} es, Governed t := by
  intro t ht
  have htold := trace_invariant Told (fun a e h => told_step h e) es {} told_start t ht
  rw [eq_stepOf_of_mem_trace ht]
  exact governed_step htold.1 t.event

/-- After an exit of the heartbeat that a call could have noticed everything is
off. -/
def OffAfterExit (t : ActuationStep) : Prop :=
  ∀ c chance, t.event = .call c chance → t.pre.proc.bind Heartbeat.exited ≠ none → AllOff t.post

/-- The switch for driving goes on, the heartbeat exits, and the lesson
permissions, which are off, are taken back. -/
def unnoticedExit : List ActuationEvent :=
  [.call (.setAuthority "drive" true (some "lesson") "lesson" ⟨"lesson", "lesson", "lesson"⟩) {},
    .exits 1, .call .revokeLab {}]

theorem switches_governed_run : (∀ t ∈ trace step {} unnoticedExit, Governed t) ∧
    (final step {} unnoticedExit).authority .drive = true :=
  ⟨switches_governed unnoticedExit, by decide⟩

theorem exit_unnoticed : ¬ ∀ es, ∀ t ∈ trace step {} es, OffAfterExit t := by
  intro h
  have hlast := h unnoticedExit _ (List.mem_of_getLast? rfl) .revokeLab {} rfl (by decide)
  have hdrive := congrFun hlast.1 .drive
  revert hdrive
  decide

end Actuation

end Questix.RobotManager
