/-
Questix.RobotManager.StartRequestTheorems — one request, one launch.

A start request has one place at a time: on the disk, in the hands of a
launcher that has deleted it, or in a launch (`held`). While it is on the disk
and the manager runs, a request of the manager is under way that will take it
away or see it gone (`owed`). The launcher reads the file piece by piece and
deletes it afterwards; what it has read stays true as long as the manager does
not remove the file, nor write one for another mode, in between
(`Undisturbed`).
-/
import Mathlib.Data.List.Nodup
import Questix.Lib.Trace
import Questix.RobotManager.StartRequest

namespace Questix.RobotManager.StartStop

open Questix.Lib

/-! ## The parties -/

namespace Work

/-- A start or restart request. -/
def isStart : Work → Bool
  | .stop => false
  | .stopService => false
  | _ => true

/-- The request has written the file and has neither seen it gone nor removed
it. -/
def owes : Work → Bool
  | .systemctl _ _ requested => requested
  | .pickup _ => true
  | .giveUp _ => true
  | .fail _ => true
  | _ => false

/-- The move removes the file. -/
def removes : Work → Bool
  | .giveUp _ => true
  | .fail _ => true
  | .stop => true
  | _ => false

/-- The mode of the request that the move writes. -/
def writes : Work → Option String
  | .write _ mode => some mode
  | _ => none

theorem isStart_of_owes {w : Work} (h : w.owes = true) : w.isStart = true := by
  cases w <;> first | rfl | cases h

end Work

namespace Script

/-- The mode that the launcher has found in the request, if it is the one it is
to launch. -/
def believes : Script → Option String
  | .readAt mode requestedMode => if requestedMode = mode then some mode else none
  | .readBoot mode requestedMode _ => if requestedMode = mode then some mode else none
  | .check mode requestedMode _ _ => if requestedMode = mode then some mode else none
  | .consume mode => some mode
  | _ => none

/-- The launcher has read the whole request, for its mode and this boot, and
has not deleted it yet. -/
def accepts (boot : ℕ) : Script → Bool
  | .check mode requestedMode _ requestedBoot =>
    requestedMode = mode && requestedBoot = some boot
  | .consume _ => true
  | _ => false

/-- The request that the launcher has deleted. -/
def held : Script → Option StartRequest
  | .confirm _ consumed => consumed
  | .launch _ consumed => consumed
  | _ => none

/-- What the launcher is about to launch has its request. -/
def Ok (boot : ℕ) : Script → Prop
  | .clear mode => startedOnRequest mode = false
  | .confirm mode consumed =>
    startedOnRequest mode = true → ∃ r, consumed = some r ∧ r.mode = mode ∧ r.boot = boot
  | .launch mode consumed =>
    startedOnRequest mode = true → ∃ r, consumed = some r ∧ r.mode = mode ∧ r.boot = boot
  | _ => True

end Script

namespace Robot

def accepting (s : Robot) : Bool := s.script.any (Script.accepts s.boot)

/-- A removal that takes nothing from a launcher, and succeeds. -/
def Clean (s : Robot) (luck : Luck) : Prop :=
  s.request = none ∨ luck.undeletable = false ∧ s.accepting = false

instance (s : Robot) (luck : Luck) : Decidable (s.Clean luck) :=
  inferInstanceAs (Decidable (_ ∨ _))

/-- A request is written for the mode that a launcher has read, if any. -/
def Fits (s : Robot) (mode : String) : Prop :=
  ∀ script ∈ s.script, ∀ m ∈ script.believes, m = mode

instance (s : Robot) (mode : String) : Decidable (s.Fits mode) :=
  inferInstanceAs (Decidable (∀ script ∈ s.script, ∀ m ∈ script.believes, m = mode))

/-- The requests that are somewhere, the launched ones first. -/
def requests (s : Robot) : List StartRequest :=
  s.launches.filterMap Launch.consumed ++ (s.script.bind Script.held).toList ++ s.request.toList

structure Sound (s : Robot) (l : Multiset Work) : Prop where
  owed : s.manager = true → s.request ≠ none → ∃ w ∈ l, w.owes = true
  truthful : ∀ r ∈ s.request, ∀ boot ∈ r.bootId, r.boot = boot
  believed : ∀ script ∈ s.script, ∀ mode ∈ script.believes, ∀ r ∈ s.request, r.mode = mode
  accepted : s.accepting = true → ∃ r, s.request = some r ∧ r.boot = s.boot
  ok : ∀ script ∈ s.script, script.Ok s.boot
  launched : ∀ launch ∈ s.launches, startedOnRequest launch.mode = true →
    ∃ r, launch.consumed = some r ∧ r.mode = launch.mode ∧ r.boot = launch.boot
  distinct : (s.requests.map StartRequest.id).Nodup
  numbered : ∀ r ∈ s.requests, r.id < s.written

end Robot

/-- What the manager does to the file does not come between what a launcher
reads and what it deletes. -/
def Undisturbed (p : Pool Robot Work) : Event → Prop
  | .request (.advance w luck) =>
    w ∈ p.threads → (w.removes = true → p.shared.Clean luck) ∧
      ∀ mode ∈ w.writes, luck.error = none → p.shared.Fits mode
  | .managerStarts luck => p.shared.Clean luck
  | _ => True

instance (p : Pool Robot Work) : ∀ e, Decidable (Undisturbed p e)
  | .request (.advance _ _) =>
    inferInstanceAs (Decidable (_ → (_ → Robot.Clean _ _) ∧ ∀ mode ∈ Work.writes _, _ → Robot.Fits _ mode))
  | .request (.arrive _) => .isTrue trivial
  | .managerStarts _ => inferInstanceAs (Decidable (Robot.Clean _ _))
  | .managerStops => .isTrue trivial
  | .scriptStarts => .isTrue trivial
  | .script _ => .isTrue trivial
  | .scriptEnds => .isTrue trivial
  | .saveMode _ => .isTrue trivial
  | .reboot => .isTrue trivial

/-! ## The moves -/

namespace Robot

variable {s : Robot} {l l' : Multiset Work} {luck : Luck} {w : Work}

theorem Sound.threads (h : Sound s l)
    (howed : s.manager = true → s.request ≠ none → ∃ w ∈ l', w.owes = true) : Sound s l' :=
  ⟨howed, h.truthful, h.believed, h.accepted, h.ok, h.launched, h.distinct, h.numbered⟩

theorem Sound.absent (h : Sound s l) (hnone : s.request = none) : Sound s l' :=
  h.threads fun _ hsome => absurd hnone hsome

theorem remove_clean (h : s.Clean luck) : s.remove luck = { s with request := none } := by
  unfold remove
  split
  · rename_i hun
    rcases h with hnone | ⟨hdel, -⟩
    · cases s
      cases hnone
      rfl
    · rw [hdel] at hun
      cases hun
  · rfl

theorem Sound.gone (h : Sound s l) (haccepting : s.accepting = false) :
    Sound { s with request := none } l' where
  owed _ hsome := absurd rfl hsome
  truthful := nofun
  believed := nofun
  accepted hacc := by
    rw [show s.accepting = true from hacc] at haccepting
    cases haccepting
  ok := h.ok
  launched := h.launched
  distinct := by
    have hsub : (requests { s with request := none }).Sublist s.requests := by simp [requests]
    exact h.distinct.sublist (hsub.map _)
  numbered r hr := by
    refine h.numbered r ?_
    simp only [requests, Option.toList_none, List.append_nil] at hr
    exact List.mem_append_left _ hr

theorem Sound.remove (h : Sound s l) (hclean : s.Clean luck) : Sound (s.remove luck) l' := by
  rw [remove_clean hclean]
  rcases hclean with hnone | ⟨-, hacc⟩
  · have hsame : { s with request := none } = s := by
      cases s
      cases hnone
      rfl
    rw [hsame]
    exact h.absent hnone
  · exact h.gone hacc

/-- A request is written by one who will see to it. -/
theorem Sound.write {mode : String} (h : Sound s l) (hfits : s.Fits mode) (hw : w ∈ l')
    (howes : w.owes = true) : Sound (s.write mode luck) l' where
  owed _ _ := ⟨w, hw, howes⟩
  truthful := by
    rintro r ⟨⟩ boot hboot
    simp only [bootId, Option.mem_def] at hboot
    split at hboot
    · exact Option.some.inj hboot
    · cases hboot
  believed := by
    rintro script hscript m hm r ⟨⟩
    exact (hfits script hscript m hm).symm
  accepted _ := ⟨_, rfl, rfl⟩
  ok := h.ok
  launched := h.launched
  distinct := by
    have hsub : (s.launches.filterMap Launch.consumed ++ (s.script.bind Script.held).toList).Sublist
        s.requests := List.sublist_append_left _ _
    have hold := h.distinct.sublist (hsub.map StartRequest.id)
    simp only [requests, Robot.write, Option.toList_some, List.map_append, List.map_cons,
      List.map_nil] at hold ⊢
    refine List.nodup_append.2 ⟨hold, List.nodup_singleton _, ?_⟩
    rintro n hn m hm rfl
    rw [List.mem_singleton] at hm
    rw [← List.map_append] at hn
    obtain ⟨r, hr, rfl⟩ := List.mem_map.1 hn
    have hlt := h.numbered r (hsub.subset hr)
    omega
  numbered r hr := by
    rcases List.mem_append.1 hr with hr | hr
    · exact (h.numbered r (List.mem_append_left _ hr)).trans (Nat.lt_succ_self _)
    · simp only [Robot.write, Option.toList_some, List.mem_singleton] at hr
      subst hr
      exact Nat.lt_succ_self _

theorem Sound.goes_on {script : Option Script} (h : Sound s l)
    (hbelieved : ∀ next ∈ script, ∀ mode ∈ next.believes, ∀ r ∈ s.request, r.mode = mode)
    (haccepts : script.any (Script.accepts s.boot) = true →
      ∃ r, s.request = some r ∧ r.boot = s.boot)
    (hok : ∀ next ∈ script, next.Ok s.boot)
    (hheld : (script.bind Script.held).toList.Sublist (s.script.bind Script.held).toList) :
    Sound { s with script := script } l where
  owed := h.owed
  truthful := h.truthful
  believed := hbelieved
  accepted := haccepts
  ok := hok
  launched := h.launched
  distinct := by
    have hsub : (requests { s with script := script }).Sublist s.requests :=
      ((List.Sublist.refl _).append hheld).append (List.Sublist.refl _)
    exact h.distinct.sublist (hsub.map _)
  numbered r hr := by
    have hsub : (requests { s with script := script }).Sublist s.requests :=
      ((List.Sublist.refl _).append hheld).append (List.Sublist.refl _)
    exact h.numbered r (hsub.subset hr)

theorem Sound.ends (h : Sound s l) : Sound { s with script := none } l :=
  h.goes_on nofun nofun nofun (List.nil_sublist _)

theorem Sound.blank {next : Script} (h : Sound s l) (hbelieves : next.believes = none)
    (haccepts : next.accepts s.boot = false) (hok : next.Ok s.boot) (hheld : next.held = none) :
    Sound { s with script := some next } l := by
  refine h.goes_on ?_ ?_ ?_ ?_
  · rintro _ ⟨⟩ mode hmode
    rw [hbelieves] at hmode
    cases hmode
  · intro hacc
    rw [Option.any_some, haccepts] at hacc
    cases hacc
  · rintro _ ⟨⟩
    exact hok
  · rw [Option.bind_some, hheld]
    exact List.nil_sublist _

theorem remove_eq (s : Robot) (luck : Luck) :
    s.remove luck = { s with request := if luck.undeletable then s.request else none } := by
  unfold remove
  split <;> rfl

theorem Sound.take {next : Script} (h : Sound s l) (hnone : s.script.bind Script.held = none)
    (hbelieves : next.believes = none) (haccepts : next.accepts s.boot = false)
    (hok : next.Ok s.boot) (hheld : next.held = s.taken luck) :
    Sound { s with
      request := if luck.undeletable then s.request else none
      script := some next } l := by
  have hacc : ∀ {s' : Robot}, s'.script = some next → s'.boot = s.boot → s'.accepting = false := by
    intro s' hscript hboot
    rw [accepting, hscript, hboot, Option.any_some, haccepts]
  unfold taken at hheld
  split
  · rename_i hun
    rw [if_pos hun] at hheld
    exact h.blank hbelieves haccepts hok hheld
  · rename_i hdel
    rw [if_neg hdel] at hheld
    have hrequests : requests { s with request := none, script := some next } = s.requests := by
      simp [requests, hnone, hheld]
    exact {
      owed := fun _ hsome => absurd rfl hsome
      truthful := nofun
      believed := nofun
      accepted := by
        intro hacc'
        exact absurd (hacc'.symm.trans (hacc rfl rfl)) nofun
      ok := by
        rintro _ ⟨⟩
        exact hok
      launched := h.launched
      distinct := by
        rw [hrequests]
        exact h.distinct
      numbered := by
        rw [hrequests]
        exact h.numbered }

theorem Sound.launch {mode : String} {consumed : Option StartRequest} (h : Sound s l)
    (hscript : s.script = some (.launch mode consumed)) :
    Sound { s with
      script := some (.launched mode)
      launches := s.launches ++ [⟨mode, s.boot, consumed⟩] } l := by
  have hrequests : requests { s with
      script := some (.launched mode)
      launches := s.launches ++ [⟨mode, s.boot, consumed⟩] } = s.requests := by
    cases consumed with
    | none => simp [requests, hscript, Script.held]
    | some r => simp [requests, hscript, Script.held]
  exact {
    owed := h.owed
    truthful := h.truthful
    believed := by
      rintro _ ⟨⟩
      nofun
    accepted := nofun
    ok := by
      rintro _ ⟨⟩
      trivial
    launched := by
      intro launch hlaunch hstarted
      rcases List.mem_append.1 hlaunch with hlaunch | hlaunch
      · exact h.launched launch hlaunch hstarted
      · rw [List.mem_singleton] at hlaunch
        subst hlaunch
        exact h.ok _ hscript hstarted
    distinct := by
      rw [hrequests]
      exact h.distinct
    numbered := by
      rw [hrequests]
      exact h.numbered }

theorem startRequestProblem_none {mode requestedMode : String} {requestedAt : Option ℤ}
    {requestedBoot bootId : Option ℕ} {now : ℤ}
    (h : startRequestProblem mode requestedMode requestedAt requestedBoot bootId now = none) :
    requestedMode = mode ∧ requestedBoot ≠ none ∧ requestedBoot = bootId := by
  unfold startRequestProblem at h
  split at h
  · cases h
  · rename_i hmode
    split at h
    · cases h
    · split at h
      · cases h
      · split at h
        · cases h
        · rename_i hboot
          simp only [not_or, ne_eq, not_not] at hmode hboot
          exact ⟨hmode, hboot.1, hboot.2⟩

/-- A move of the launcher. -/
theorem Sound.runScript (h : Sound s l) : Sound (s.runScript luck) l := by
  unfold Robot.runScript
  split
  · exact h
  · rename_i script hscript
    have hbelieved := h.believed script hscript
    have haccepted : script.accepts s.boot = true → ∃ r, s.request = some r ∧ r.boot = s.boot := by
      intro hacc
      exact h.accepted (by rw [accepting, hscript, Option.any_some, hacc])
    have hok := h.ok script hscript
    have hheld : s.script.bind Script.held = script.held := by rw [hscript, Option.bind_some]
    split
    · exact h.ends
    · split
      · split
        · rename_i hmode
          refine h.blank rfl rfl ?_ rfl
          rw [Script.Ok, hmode]
          decide
        · split
          · exact h.blank rfl rfl trivial rfl
          · exact h.blank rfl rfl trivial rfl
      · split
        · exact h.blank rfl rfl trivial rfl
        · exact h.blank rfl rfl trivial rfl
      · -- the mode is read
        refine h.goes_on ?_ nofun ?_ (List.nil_sublist _)
        · rintro _ ⟨⟩ m hm r hr
          simp only [Script.believes, Option.mem_def] at hm
          split at hm
          · rename_i hread
            rw [Option.mem_def.1 hr] at hread
            exact hread.trans (Option.some.inj hm)
          · cases hm
        · rintro _ ⟨⟩
          trivial
      · -- the time is read
        refine h.goes_on ?_ nofun ?_ (List.nil_sublist _)
        · rintro _ ⟨⟩
          exact hbelieved
        · rintro _ ⟨⟩
          trivial
      · -- the boot id is read
        refine h.goes_on ?_ ?_ ?_ (List.nil_sublist _)
        · rintro _ ⟨⟩
          exact hbelieved
        · intro hacc
          simp only [Option.any_some, Script.accepts, Bool.and_eq_true, decide_eq_true_eq] at hacc
          obtain ⟨r, hr, hboot⟩ := Option.bind_eq_some_iff.1 hacc.2
          exact ⟨r, hr, h.truthful r hr s.boot hboot⟩
        · rintro _ ⟨⟩
          trivial
      · rename_i mode requestedMode requestedAt requestedBoot
        split
        · exact h.blank rfl rfl trivial rfl
        · rename_i hproblem
          obtain ⟨hmode, hsome, hboot⟩ := startRequestProblem_none hproblem
          have hsame : requestedBoot = some s.boot := by
            rw [hboot, bootId] at hsome ⊢
            split
            · rfl
            · rename_i hunreadable
              rw [if_neg hunreadable] at hsome
              exact absurd rfl hsome
          refine h.goes_on ?_ ?_ ?_ (List.nil_sublist _)
          · rintro _ ⟨⟩ m hm
            exact hbelieved m (by simpa [Script.believes, hmode] using hm)
          · intro _
            exact haccepted (by simp [Script.accepts, hmode, hsame])
          · rintro _ ⟨⟩
            trivial
      · rw [remove_eq]
        dsimp only
        split
        · exact h.ends
        · have hacc : s.accepting = false := by rw [accepting, hscript]; rfl
          have hgone : Sound { s with request := none } l := h.gone hacc
          exact hgone.ends
      · rename_i mode
        split
        · exact h.ends
        · rename_i hdel
          rw [remove_eq]
          refine h.take hheld rfl rfl ?_ rfl
          intro _
          obtain ⟨r, hr, hboot⟩ := haccepted rfl
          exact ⟨r, by rw [taken, if_neg hdel, hr], hbelieved mode rfl r hr, hboot⟩
      · rename_i mode consumed
        split
        · exact h.ends
        · refine h.goes_on ?_ nofun ?_ ?_
          · rintro _ ⟨⟩
            nofun
          · rintro _ ⟨⟩
            exact hok
          · rw [hheld]
            exact List.Sublist.refl _
      · rename_i mode
        rw [remove_eq]
        refine h.take hheld rfl rfl ?_ rfl
        intro hstarted
        rw [show startedOnRequest mode = false from hok] at hstarted
        cases hstarted
      · exact h.launch hscript
      · exact h

theorem Sound.move {new : Multiset Work} (h : Sound s (w ::ₘ l))
    (howes : w.owes = true → s.request = none ∨ ∃ u ∈ new, u.owes = true) : Sound s (new + l) := by
  refine h.threads fun hmanager hsome => ?_
  obtain ⟨u, hu, hou⟩ := h.owed hmanager hsome
  rcases Multiset.mem_cons.1 hu with rfl | hu
  · obtain ⟨v, hv, hov⟩ := (howes hou).resolve_left hsome
    exact ⟨v, Multiset.mem_add.2 (.inl hv), hov⟩
  · exact ⟨u, Multiset.mem_add.2 (.inr hu), hou⟩

theorem Sound.run (h : Sound s (w ::ₘ l)) (hclean : w.removes = true → s.Clean luck)
    (hfits : ∀ mode ∈ w.writes, luck.error = none → s.Fits mode) :
    Sound (run s w luck).1 ((run s w luck).2.1 + l) := by
  cases w with
  | readMode action => exact h.move nofun
  | write action mode =>
    simp only [Robot.run]
    split
    · exact h.move nofun
    · rename_i herror
      exact h.write (hfits mode rfl herror)
        (Multiset.mem_add.2 (.inl (Multiset.mem_coe.2 (List.mem_singleton_self _)))) rfl
  | systemctl action mode requested =>
    simp only [Robot.run]
    cases requested with
    | false =>
      split
      · exact h.move nofun
      · exact h.move nofun
    | true =>
      split
      · exact h.move fun _ => .inr ⟨_, Multiset.mem_coe.2 (List.mem_singleton_self _), rfl⟩
      · exact h.move fun _ => .inr ⟨_, Multiset.mem_coe.2 (List.mem_singleton_self _), rfl⟩
  | pickup mode =>
    simp only [Robot.run]
    split
    · rename_i hnone
      exact h.absent hnone
    · cases luck.timeUp with
      | false => exact h.move fun _ => .inr ⟨_, Multiset.mem_coe.2 (List.mem_singleton_self _), rfl⟩
      | true => exact h.move fun _ => .inr ⟨_, Multiset.mem_coe.2 (List.mem_singleton_self _), rfl⟩
  | giveUp mode => exact h.remove (hclean rfl)
  | fail error => exact h.remove (hclean rfl)
  | settle => exact h.move nofun
  | stop => exact h.remove (hclean rfl)
  | stopService => exact h.move nofun

theorem Sound.arrive {action : ServiceAction} (h : Sound s l) :
    Sound (arrive s action).1 ((arrive s action).2.1 + l) := by
  have hmore : ∀ new : Multiset Work, Sound s (new + l) := by
    intro new
    refine h.threads fun hmanager hsome => ?_
    obtain ⟨u, hu, hou⟩ := h.owed hmanager hsome
    exact ⟨u, Multiset.mem_add.2 (.inr hu), hou⟩
  unfold Robot.arrive
  split
  · cases action with
    | start => exact hmore _
    | stop => exact hmore _
    | restart => exact hmore _
  · exact hmore _

end Robot

/-! ## Runs -/

open Robot

theorem sound_step {p : Pool Robot Work} {e : Event} (h : Sound p.shared p.threads)
    (hundisturbed : Undisturbed p e) : Sound (step p e).1.shared (step p e).1.threads := by
  cases e with
  | request x =>
    refine Program.step_invariant h ?_ ?_
    · rintro action -
      exact h.arrive
    · rintro w l luck rfl hl
      obtain ⟨hclean, hfits⟩ := hundisturbed (hl ▸ Multiset.mem_cons_self w l)
      exact (hl ▸ h).run hclean hfits
  | managerStarts luck =>
    have hgone : Sound (p.shared.remove luck) 0 := h.remove hundisturbed
    rw [remove_clean hundisturbed] at hgone
    simp only [step, remove_clean hundisturbed]
    exact ⟨fun _ hsome => absurd rfl hsome, hgone.truthful, hgone.believed, hgone.accepted, hgone.ok,
      hgone.launched, hgone.distinct, hgone.numbered⟩
  | managerStops =>
    exact ⟨nofun, h.truthful, h.believed, h.accepted, h.ok, h.launched, h.distinct, h.numbered⟩
  | scriptStarts =>
    simp only [step]
    cases hscript : p.shared.script with
    | none => exact h.blank rfl rfl trivial rfl
    | some script =>
      have hsame : { p.shared with script := some script } = p.shared := by rw [← hscript]
      simp only [Option.getD_some, hsame]
      exact h
  | script luck => exact h.runScript
  | scriptEnds => exact h.ends
  | saveMode mode =>
    exact ⟨h.owed, h.truthful, h.believed, h.accepted, h.ok, h.launched, h.distinct, h.numbered⟩
  | reboot =>
    have hends : Sound { p.shared with script := none } p.threads := h.ends
    exact ⟨nofun, h.truthful, nofun, nofun, nofun, h.launched, hends.distinct, hends.numbered⟩

/-- A practice or lesson launch has deleted a request for its mode, written in
its boot; no request is behind two launches; and with no start or restart in
progress a manager that runs has left no request on the disk. -/
structure OnRequest (p : Pool Robot Work) : Prop where
  launched : ∀ launch ∈ p.shared.launches, startedOnRequest launch.mode = true →
    ∃ r, launch.consumed = some r ∧ r.mode = launch.mode ∧ r.boot = launch.boot
  once : ((p.shared.launches.filterMap Launch.consumed).map StartRequest.id).Nodup
  cleared : p.shared.manager = true → (∀ w ∈ p.threads, w.isStart = false) →
    p.shared.request = none

theorem Robot.Sound.onRequest {p : Pool Robot Work} (h : Sound p.shared p.threads) :
    OnRequest p where
  launched := h.launched
  once := by
    have hsub : (p.shared.launches.filterMap Launch.consumed).Sublist p.shared.requests :=
      (List.sublist_append_left _ _).trans (List.sublist_append_left _ _)
    exact h.distinct.sublist (hsub.map _)
  cleared hmanager hidle := by
    by_contra hsome
    obtain ⟨w, hw, howes⟩ := h.owed hmanager hsome
    exact absurd ((hidle w hw).symm.trans (Work.isStart_of_owes howes)) nofun

theorem sound_initial (mode : String) : Sound { mode := mode } 0 where
  owed := nofun
  truthful := nofun
  believed := nofun
  accepted := nofun
  ok := nofun
  launched := nofun
  distinct := List.nodup_nil
  numbered := nofun

/-- In every run in which the manager keeps its hands off the file between what
a launcher reads and what it deletes. -/
theorem launches_on_request (mode : String) (es : List Event)
    (h : ∀ t ∈ trace step ⟨{ mode := mode }, 0⟩ es, Undisturbed t.pre t.event) :
    ∀ t ∈ trace step ⟨{ mode := mode }, 0⟩ es, OnRequest t.post := by
  intro t ht
  have hsound := trace_invariant_ok (fun p : Pool Robot Work => Sound p.shared p.threads)
    (fun _ _ hp hx => sound_step hp hx) es _ (sound_initial mode) h t ht
  exact hsound.2.onRequest

/-! Runs of a start, of one that is stopped while the launcher looks at the
request, and of one after which the mode changes. -/

/-- A start up to the launcher that is about to delete its request. -/
def acceptedRun : List Event :=
  [.managerStarts {}, .request (.arrive .start), .request (.advance (.readMode .start) {}),
    .request (.advance (.write .start "practice") { now := 100 }),
    .request (.advance (.systemctl .start "practice" true) {}), .scriptStarts, .script {},
    .script {}, .script {}, .script {}, .script {}, .script { now := 101 }]

def launchRun : List Event := [.script {}, .script {}, .script {}]

def startRun : List Event :=
  acceptedRun ++ launchRun ++
    [.request (.advance (.pickup "practice") {}), .request (.advance .settle {})]

def stoppedRun : List Event :=
  acceptedRun ++ [.request (.arrive .stop), .request (.advance .stop {})] ++ launchRun

def otherModeRun : List Event :=
  acceptedRun ++ [.saveMode "lesson", .request (.arrive .start),
    .request (.advance (.readMode .start) {}),
    .request (.advance (.write .start "lesson") { now := 101 })] ++ launchRun

theorem launches_on_request_run :
    (∀ t ∈ trace step ⟨{ mode := "practice" }, 0⟩ startRun, OnRequest t.post) ∧
      (final step ⟨{ mode := "practice" }, 0⟩ startRun).shared.launches =
        [⟨"practice", 0, some ⟨"practice", 100, some 0, 0, 0⟩⟩] :=
  ⟨launches_on_request "practice" startRun (by decide), by decide⟩

/-- `rm -f` succeeds when there is nothing to delete, and deletes whatever is
there. -/
theorem launches_without_request :
    (final step ⟨{ mode := "practice" }, 0⟩ stoppedRun).shared.launches = [⟨"practice", 0, none⟩] ∧
      (final step ⟨{ mode := "practice" }, 0⟩ otherModeRun).shared.launches =
        [⟨"practice", 0, some ⟨"lesson", 101, some 0, 0, 1⟩⟩] := by
  decide

end Questix.RobotManager.StartStop
