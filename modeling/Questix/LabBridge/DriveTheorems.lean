/-
Questix.LabBridge.DriveTheorems — what a page's driving run lets out, and
whom it lets start.

A change that starts nothing (`Settles`) leaves the run as it is, without
blockers, or ends it and asks its owner for a neutral command. A request is
refused, or accepted from the owner or in an idle session (`Requested`). Over
a run (`History`) the session's fields are the last accepted command and the
start of the run, found again among the steps before.
-/
import Questix.Lib.Trace
import Questix.LabBridge.DriveSession

namespace Questix.LabBridge

open Questix.Lib

namespace DriveSession

variable {s s' s'' : DriveSession} {client : Client} {now : ℚ}

/-! ## Blockers -/

def Clear (s : DriveSession) : Prop := ∀ code, s.blocker code = none

theorem blockers_eq_nil : s.blockers = [] ↔ s.Clear := by
  simp [blockers, Clear, List.filter_eq_nil_iff, mem_blockerOrder]

/-! ## Changes that start nothing -/

/-- Who drives, how, and since when. -/
structure Run where
  owner : Option Client
  linear : ℚ
  angular : ℚ
  heardAt : ℚ
  startedAt : ℚ

def run (s : DriveSession) : Run := ⟨s.owner, s.linear, s.angular, s.heardAt, s.startedAt⟩

/-- The run goes on, without blockers, or it is over. -/
def GoesOn (s s' : DriveSession) : Prop :=
  s'.run = s.run ∧ (s.owner ≠ none → s.Clear → s'.Clear) ∨ s'.owner = none

/-- No run starts; one that ends leaves its owner in need of a neutral
command. -/
structure Settles (s s' : DriveSession) : Prop where
  config : s'.config = s.config
  needs : s.needsNeutral ⊆ s'.needsNeutral
  run : GoesOn s s'
  ended : ∀ client, s.owner = some client → s'.owner ≠ some client → client ∈ s'.needsNeutral

theorem GoesOn.owner (h : GoesOn s s') : s'.owner = s.owner ∨ s'.owner = none := by
  rcases h with ⟨hrun, -⟩ | hnone
  · exact .inl (congrArg Run.owner hrun)
  · exact .inr hnone

theorem Settles.of_frame (hconfig : s'.config = s.config)
    (hneeds : s'.needsNeutral = s.needsNeutral) (hrun : s'.run = s.run)
    (hblocker : s'.blocker = s.blocker) : Settles s s' where
  config := hconfig
  needs := by rw [hneeds]
  run := by
    refine .inl ⟨hrun, fun _ hclear code => ?_⟩
    rw [hblocker, hclear code]
  ended client howner hnot := absurd ((congrArg Run.owner hrun).trans howner) hnot

theorem Settles.refl (s : DriveSession) : Settles s s := .of_frame rfl rfl rfl rfl

theorem Settles.trans (h : Settles s s') (h' : Settles s' s'') : Settles s s'' where
  config := h'.config.trans h.config
  needs := h.needs.trans h'.needs
  run := by
    rcases h'.run with ⟨hrun', hclear'⟩ | hnone
    · rcases h.run with ⟨hrun, hclear⟩ | hnone
      · have howner : s'.owner = s.owner := congrArg Run.owner hrun
        refine .inl ⟨hrun'.trans hrun, fun hdrives hs => ?_⟩
        exact hclear' (howner ▸ hdrives) (hclear hdrives hs)
      · exact .inr ((congrArg Run.owner hrun').trans hnone)
    · exact .inr hnone
  ended client howner hnot := by
    by_cases hmid : s'.owner = some client
    · exact h'.ended client hmid hnot
    · exact h'.needs (h.ended client howner hmid)

theorem settles_end (reason : Reason) (by_ : Option Client) : Settles s (s.end_ reason by_ now) where
  config := rfl
  needs := by
    cases howner : s.owner with
    | none => simp [end_, howner]
    | some c => simp [end_, howner, Finset.subset_insert]
  run := .inr rfl
  ended client howner _ := by simp [end_, howner]

theorem settles_setBlocker (code : Blocker) (detail : Option Detail) :
    Settles s (s.setBlocker code detail now) := by
  unfold setBlocker
  by_cases hsame : s.blocker code = detail
  · subst hsame
    rw [if_pos rfl, Function.update_eq_self]
    exact .refl s
  · rw [if_neg hsame]
    cases hends : detail.isSome && s.active with
    | true =>
      simp only [active] at hends
      simp only [active, hends, if_true]
      have hend : Settles s (s.end_ (.blocked code) none now) := settles_end _ _
      exact ⟨rfl, hend.needs, .inr rfl, hend.ended⟩
    | false =>
      simp only [active] at hends
      simp only [active, hends]
      refine ⟨rfl, Finset.Subset.refl _, .inl ⟨rfl, ?_⟩, fun _ h hne => absurd h hne⟩
      intro hdrives hclear code'
      have hnone : detail = none := by
        cases howner : s.owner with
        | none => exact absurd howner hdrives
        | some c => simpa [howner] using hends
      by_cases hcode : code' = code
      · subst hcode
        simp [hnone]
      · simp [hcode, hclear code']

theorem settles_setDriveNode : Settles s (s.setDriveNode now) := settles_setBlocker _ _

theorem settles_setGraph (others subscribers : List String) :
    Settles s (s.setGraph others subscribers now) := by
  have hothers : ∀ detail, Settles s { s.setBlocker .otherPublisher detail now with
      driveSubscribed := decide (subscribers ≠ []) } :=
    fun _ => (settles_setBlocker _ _).trans (.of_frame rfl rfl rfl rfl)
  exact (hothers _).trans settles_setDriveNode

theorem settles_followArbiter (status : ArbiterStatus) :
    Settles s (s.followArbiter status now) := by
  have hseen : Settles s { s with
      seenLab := s.seenLab || decide (status.activeSource = "lab") } := .of_frame rfl rfl rfl rfl
  unfold followArbiter
  split
  · exact .refl s
  · dsimp only
    split
    · exact hseen.trans (settles_end _ _)
    · exact hseen

theorem settles_keepStatus (status : Option ArbiterStatus) : Settles s (s.keepStatus status) := by
  unfold keepStatus
  dsimp only
  split
  · exact .of_frame rfl rfl rfl rfl
  · exact .of_frame rfl rfl rfl rfl

theorem settles_setArbiter (status : Option ArbiterStatus) :
    Settles s (s.setArbiter status now) := by
  unfold setArbiter
  dsimp only
  have hblockers : ∀ detail, Settles s
      (((s.keepStatus status).setBlocker .notAllowed detail now).setDriveNode now) :=
    fun _ => ((settles_keepStatus status).trans (settles_setBlocker _ _)).trans settles_setDriveNode
  cases status with
  | none => exact hblockers _
  | some status =>
    dsimp only
    split
    · exact (hblockers _).trans (settles_followArbiter status)
    · exact hblockers _

theorem settles_stop (onlyOwn : Bool) : Settles s (s.stop client now onlyOwn).1 := by
  unfold stop
  split
  · exact .refl s
  · split
    · exact settles_end _ _
    · exact .refl s

theorem settles_tick : Settles s (s.tick now).1 := by
  unfold tick
  split
  · split
    · exact settles_end _ _
    · split
      · exact settles_end _ _
      · split <;> exact .refl s
  · exact .refl s

/-! ## Requests -/

/-- What becomes of a request: it is refused as it is, for a blocker, or for
numbers that end its own run; or it is accepted. -/
inductive Requested (s : DriveSession) (client : Client) (linear angular : Value) (now : ℚ) :
    DriveSession × Option Refusal → Prop
  | refused (refusal : Refusal) (hrefusal : ∀ code, refusal ≠ .blocked code) :
      Requested s client linear angular now (s, some refusal)
  | blocked (code : Blocker) : Requested s client linear angular now
      ({ s with needsNeutral := insert client s.needsNeutral }, some (.blocked code))
  | invalid (howner : s.owner = some client) :
      Requested s client linear angular now
        (s.end_ .invalid (some client) now, some .invalid)
  | accepted (x y : ℚ) (hlinear : number linear = some x) (hangular : number angular = some y)
      (hclear : s.Clear) (hfree : s.owner = none ∨ s.owner = some client)
      (hneutral : client ∈ s.needsNeutral → (x, y) = (0, 0)) :
      Requested s client linear angular now
        (({ s with needsNeutral := s.needsNeutral.erase client }).accept client x y now, none)

theorem requested (linear angular : Value) :
    Requested s client linear angular now (s.request client linear angular now) := by
  unfold request
  split
  · exact .refused .stale nofun
  · cases hblockers : s.blockers with
    | cons code rest => exact .blocked code
    | nil =>
      dsimp only
      split
      · exact .refused .busy nofun
      · rename_i hbusy
        have hfree : s.owner = none ∨ s.owner = some client := by
          cases howner : s.owner with
          | none => exact .inl rfl
          | some c => simpa [howner] using hbusy
        split
        · rename_i x y hlinear hangular
          split
          · split
            · exact .refused .needsNeutral nofun
            · rename_i hzero
              exact .accepted x y hlinear hangular (blockers_eq_nil.1 hblockers) hfree
                fun _ => not_not.1 hzero
          · rename_i hneeds
            have haccepted : Requested s client linear angular now
                (({ s with needsNeutral := s.needsNeutral.erase client }).accept client x y now,
                  none) :=
              .accepted x y hlinear hangular (blockers_eq_nil.1 hblockers) hfree
                fun h => absurd h hneeds
            rwa [Finset.erase_eq_of_notMem hneeds] at haccepted
        · split
          · exact .invalid ‹_›
          · exact .refused .invalid nofun

theorem startRun_owner (hfree : s.owner = none ∨ s.owner = some client) :
    (s.startRun client now).owner = some client := by
  unfold startRun
  rcases hfree with howner | howner
  · rw [if_pos howner]
  · rw [if_neg (by simp [howner]), howner]

theorem startRun_startedAt :
    (s.startRun client now).startedAt = if s.owner = none then now else s.startedAt := by
  unfold startRun
  split <;> rfl

theorem startRun_frame : (s.startRun client now).config = s.config ∧
    (s.startRun client now).needsNeutral = s.needsNeutral ∧
    (s.startRun client now).blocker = s.blocker := by
  unfold startRun
  split <;> exact ⟨rfl, rfl, rfl⟩

/-! ## Steps -/

abbrev DriveStep := Step DriveSession DriveCall DriveAnswer

/-- The step is a request of `client` that is accepted. -/
def Accepts (t : DriveStep) (client : Client) (command : ℚ × ℚ) : Prop :=
  ∃ linear angular, t.event.input = .request client linear angular ∧
    number linear = some command.1 ∧ number angular = some command.2 ∧ t.out = .requested none

/-- What a step does: it starts nothing, or a client leaves, or a command is
accepted. -/
inductive Effect (t : DriveStep) : Prop
  | settled (h : Settles t.pre t.post) (hnone : ∀ client command, ¬ Accepts t client command)
  | left (client : Client) (hinput : t.event.input = .disconnect client) (s : DriveSession)
      (h : Settles t.pre s)
      (hpost : t.post = { s with needsNeutral := s.needsNeutral.erase client })
  | accepted (client : Client) (command : ℚ × ℚ) (haccepts : Accepts t client command)
      (hclear : t.pre.Clear) (hfree : t.pre.owner = none ∨ t.pre.owner = some client)
      (hneutral : client ∈ t.pre.needsNeutral → command = (0, 0))
      (hpost : t.post = ({ t.pre with
        needsNeutral := t.pre.needsNeutral.erase client }).accept client command.1 command.2
          t.event.now)

variable {t : DriveStep} {e : DriveCall}

theorem Accepts.input {command : ℚ × ℚ} (h : Accepts t client command) :
    ∃ linear angular, t.event.input = .request client linear angular := by
  obtain ⟨linear, angular, hinput, -⟩ := h
  exact ⟨linear, angular, hinput⟩

theorem effect_of_settles (h : Settles s (step s e).1)
    (hinput : ∀ client linear angular, e.input ≠ .request client linear angular) :
    Effect (stepOf step s e) := by
  refine .settled h fun client command haccepts => ?_
  obtain ⟨linear, angular, hrequest⟩ := haccepts.input
  exact hinput client linear angular hrequest

theorem effect_of_requested {linear angular : Value} {r : DriveSession × Option Refusal}
    (hinput : e.input = .request client linear angular)
    (h : Requested s client linear angular e.now r) :
    Effect { pre := s, event := e, post := r.1, out := .requested r.2 } := by
  have hnone : ∀ {s' : DriveSession} {refusal : Refusal} {c : Client} {command : ℚ × ℚ},
      ¬ Accepts { pre := s, event := e, post := s', out := .requested (some refusal) } c command := by
    rintro s' refusal c command ⟨_, _, _, _, _, hout⟩
    cases hout
  cases h with
  | refused refusal hrefusal => exact .settled (.refl s) fun _ _ => hnone
  | blocked code =>
    refine .settled ⟨rfl, Finset.subset_insert _ _, .inl ⟨rfl, fun _ h => h⟩, ?_⟩ fun _ _ => hnone
    exact fun _ howner hnot => absurd howner hnot
  | invalid howner => exact .settled (settles_end _ _) fun _ _ => hnone
  | accepted x y hlinear hangular hclear hfree hneutral =>
    exact .accepted client (x, y) ⟨linear, angular, hinput, hlinear, hangular, rfl⟩ hclear hfree
      hneutral rfl

theorem effect_step : Effect (stepOf step s e) := by
  cases hinput : e.input with
  | setGraph others subscribers =>
    refine effect_of_settles ?_ (by simp [hinput])
    simpa only [step, hinput] using settles_setGraph others subscribers
  | setEmergencyStop active =>
    refine effect_of_settles ?_ (by simp [hinput])
    simpa only [step, hinput, setEmergencyStop] using settles_setBlocker _ _
  | setEstopKnown known =>
    refine effect_of_settles ?_ (by simp [hinput])
    simpa only [step, hinput, setEstopKnown] using settles_setBlocker _ _
  | setMotionPermission allowed =>
    refine effect_of_settles ?_ (by simp [hinput])
    simpa only [step, hinput, setMotionPermission] using settles_setBlocker _ _
  | setArbiter status =>
    refine effect_of_settles ?_ (by simp [hinput])
    simpa only [step, hinput] using settles_setArbiter status
  | request client linear angular =>
    have hrequested : Requested s client linear angular e.now
        (s.request client linear angular e.now) := requested linear angular
    simpa only [stepOf, step, hinput] using effect_of_requested hinput hrequested
  | stop client onlyOwn =>
    refine effect_of_settles ?_ (by simp [hinput])
    simpa only [step, hinput] using settles_stop onlyOwn
  | disconnect client =>
    have hleft : Settles s
        (if s.owner = some client then s.end_ .disconnected (some client) e.now else s) := by
      split
      · exact settles_end _ _
      · exact .refl s
    refine .left client hinput _ hleft ?_
    simp only [stepOf, step, hinput, disconnect]
  | tick =>
    refine effect_of_settles ?_ (by simp [hinput])
    simpa only [step, hinput] using settles_tick

theorem Effect.goesOn (h : Effect t) (hnone : ∀ client command, ¬ Accepts t client command) :
    t.post.config = t.pre.config ∧ GoesOn t.pre t.post := by
  cases h with
  | settled h _ => exact ⟨h.config, h.run⟩
  | left client hinput s h hpost =>
    rw [hpost]
    exact ⟨h.config, h.run⟩
  | accepted client command haccepts _ _ _ _ => exact absurd haccepts (hnone client command)

theorem Effect.owner (h : Effect t) {command : ℚ × ℚ} (haccepts : Accepts t client command) :
    (t.pre.owner = none ∨ t.pre.owner = some client) ∧ t.post.owner = some client := by
  cases h with
  | settled _ hnone => exact absurd haccepts (hnone client command)
  | left c hinput _ _ _ =>
    obtain ⟨_, _, hrequest⟩ := haccepts.input
    rw [hinput] at hrequest
    cases hrequest
  | accepted c command' haccepts' _ hfree _ hpost =>
    obtain ⟨_, _, hrequest⟩ := haccepts.input
    obtain ⟨_, _, hrequest'⟩ := haccepts'.input
    rw [hrequest] at hrequest'
    cases hrequest'
    refine ⟨hfree, ?_⟩
    rw [hpost]
    exact startRun_owner hfree

/-! ## What a tick lets out -/

/-- The last accepted command is `client`'s, it is `command`, and it came at
`heardAt`. -/
def LastAccepted (past : List DriveStep) (client : Client) (command : ℚ × ℚ) (heardAt : ℚ) :
    Prop :=
  ∃ a u b, past = a ++ u :: b ∧ Accepts u client command ∧ u.event.now = heardAt ∧
    ∀ v ∈ b, ∀ c cmd, ¬ Accepts v c cmd

/-- The run of `client` started at `startedAt`, with a command accepted in an
idle session, and the client has owned it ever since. -/
def StartedRun (past : List DriveStep) (client : Client) (startedAt : ℚ) : Prop :=
  ∃ a r b, past = a ++ r :: b ∧ r.pre.owner = none ∧ (∃ command, Accepts r client command) ∧
    r.event.now = startedAt ∧ ∀ v ∈ r :: b, v.post.owner = some client

/-- What the fields of the session mean for the steps so far. -/
structure History (config : DriveConfig) (past : List DriveStep) (s : DriveSession) : Prop where
  config : s.config = config
  clear : s.owner ≠ none → s.Clear
  heard : ∀ client, s.owner = some client →
    LastAccepted past client (s.linear, s.angular) s.heardAt
  started : ∀ client, s.owner = some client → StartedRun past client s.startedAt

variable {config : DriveConfig} {past : List DriveStep}

theorem LastAccepted.snoc {command : ℚ × ℚ} {heardAt : ℚ}
    (h : LastAccepted past client command heardAt) (hnone : ∀ c cmd, ¬ Accepts t c cmd) :
    LastAccepted (past ++ [t]) client command heardAt := by
  obtain ⟨a, u, b, rfl, haccepts, hheard, hlast⟩ := h
  refine ⟨a, u, b ++ [t], by simp, haccepts, hheard, ?_⟩
  exact List.forall_mem_append.2 ⟨hlast, List.forall_mem_singleton.2 hnone⟩

theorem StartedRun.snoc {startedAt : ℚ} (h : StartedRun past client startedAt)
    (howner : t.post.owner = some client) : StartedRun (past ++ [t]) client startedAt := by
  obtain ⟨a, r, b, rfl, hidle, haccepts, hstarted, howned⟩ := h
  refine ⟨a, r, b ++ [t], by simp, hidle, haccepts, hstarted, ?_⟩
  rw [← List.cons_append]
  exact List.forall_mem_append.2 ⟨howned, List.forall_mem_singleton.2 howner⟩

theorem history_accepted {command : ℚ × ℚ} (h : History config past t.pre)
    (haccepts : Accepts t client command) (hclear : t.pre.Clear)
    (hfree : t.pre.owner = none ∨ t.pre.owner = some client)
    (hpost : t.post = ({ t.pre with
      needsNeutral := t.pre.needsNeutral.erase client }).accept client command.1 command.2
        t.event.now) : History config (past ++ [t]) t.post := by
  have howner : t.post.owner = some client := by
    rw [hpost]
    exact startRun_owner hfree
  have honly : ∀ {c}, t.post.owner = some c → c = client := fun h =>
    Option.some.inj (h.symm.trans howner)
  refine ⟨?_, ?_, ?_, ?_⟩
  · rw [hpost]
    exact startRun_frame.1.trans h.config
  · intro _ code
    rw [hpost]
    exact (congrFun startRun_frame.2.2 code).trans (hclear code)
  · intro c hc
    cases honly hc
    rw [hpost]
    exact ⟨past, t, [], rfl, haccepts, rfl, by simp⟩
  · intro c hc
    cases honly hc
    have hstarted : t.post.startedAt =
        if t.pre.owner = none then t.event.now else t.pre.startedAt := by
      rw [hpost]
      exact startRun_startedAt
    rcases hfree with hidle | hown
    · rw [hstarted, if_pos hidle]
      refine ⟨past, t, [], rfl, hidle, ⟨command, haccepts⟩, rfl, ?_⟩
      intro v hv
      rw [List.mem_singleton.1 hv]
      exact howner
    · rw [hstarted, if_neg (by simp [hown])]
      exact (h.started client hown).snoc howner

theorem history_goesOn (h : History config past t.pre)
    (hnone : ∀ client command, ¬ Accepts t client command) (heffect : Effect t) :
    History config (past ++ [t]) t.post := by
  obtain ⟨hconfig, ⟨hrun, hclear⟩ | hidle⟩ := heffect.goesOn hnone
  · have howner : t.post.owner = t.pre.owner := congrArg Run.owner hrun
    have hcommand : (t.post.linear, t.post.angular) = (t.pre.linear, t.pre.angular) :=
      congrArg (fun r : Run => (r.linear, r.angular)) hrun
    have hheard : t.post.heardAt = t.pre.heardAt := congrArg Run.heardAt hrun
    have hstarted : t.post.startedAt = t.pre.startedAt := congrArg Run.startedAt hrun
    refine ⟨hconfig.trans h.config, ?_, ?_, ?_⟩
    · intro hdrives
      rw [howner] at hdrives
      exact hclear hdrives (h.clear hdrives)
    · intro client hc
      rw [hcommand, hheard]
      exact (h.heard client (howner ▸ hc)).snoc hnone
    · intro client hc
      rw [hstarted]
      exact (h.started client (howner ▸ hc)).snoc hc
  · refine ⟨hconfig.trans h.config, fun hdrives => absurd hidle hdrives, ?_, ?_⟩
    · intro client hc
      rw [hidle] at hc
      cases hc
    · intro client hc
      rw [hidle] at hc
      cases hc

theorem history_step (h : History config past s) :
    History config (past ++ [stepOf step s e]) (step s e).1 := by
  have heffect : Effect (stepOf step s e) := effect_step
  by_cases hnone : ∀ client command, ¬ Accepts (stepOf step s e) client command
  · exact history_goesOn (t := stepOf step s e) h hnone heffect
  · cases heffect with
    | settled _ hnone' => exact absurd hnone' hnone
    | left client hinput _ _ _ =>
      refine absurd (fun client' command haccepts => ?_) hnone
      obtain ⟨_, _, hrequest⟩ := Accepts.input haccepts
      rw [hinput] at hrequest
      cases hrequest
    | accepted client command haccepts hclear hfree _ hpost =>
      exact history_accepted (t := stepOf step s e) h haccepts hclear hfree hpost

theorem idleCommand_eq_some {command : ℚ × ℚ} (h : s.idleCommand now = some command) :
    command = (0, 0) := by
  unfold idleCommand at h
  split at h
  · exact (Option.some.inj h).symm
  · cases h

theorem tick_command {command : ℚ × ℚ} (h : (s.tick now).2 = some command)
    (hmoves : command ≠ (0, 0)) :
    command = (s.linear, s.angular) ∧ s.owner ≠ none ∧ (s.tick now).1 = s ∧
      ¬ s.config.deadmanSec < .fin (now - s.heardAt) ∧
      ¬ s.config.maxRunSec < .fin (now - s.startedAt) ∧
      startupNeutralSec ≤ now - s.startedAt := by
  unfold tick at h ⊢
  split at h
  · rename_i hactive
    split at h
    · exact absurd (idleCommand_eq_some h) hmoves
    · split at h
      · exact absurd (idleCommand_eq_some h) hmoves
      · split at h
        · exact absurd (Option.some.inj h).symm hmoves
        · rename_i hdeadman hlimit hstartup
          rw [if_pos hactive, if_neg hdeadman, if_neg hlimit, if_neg hstartup]
          refine ⟨(Option.some.inj h).symm, ?_, rfl, hdeadman, hlimit, not_lt.1 hstartup⟩
          simpa [active, Option.isSome_iff_ne_none] using hactive
  · exact absurd (idleCommand_eq_some h) hmoves

/-! ## The neutral command -/

/-- The client's run is over, or its request was refused for a blocker. -/
def Needs (t : DriveStep) (client : Client) : Prop :=
  t.pre.owner = some client ∧ t.post.owner ≠ some client ∨
    ∃ linear angular code, t.event.input = .request client linear angular ∧
      t.out = .requested (some (.blocked code))

theorem needsNeutral_of_needs (h : Needs (stepOf step s e) client)
    (hstays : e.input ≠ .disconnect client) : client ∈ (step s e).1.needsNeutral := by
  rcases h with ⟨howner, hended⟩ | ⟨linear, angular, code, hinput, hout⟩
  · have heffect : Effect (stepOf step s e) := effect_step
    cases heffect with
    | settled h _ => exact h.ended client howner hended
    | left c hinput s' h hpost =>
      have hpost : (step s e).1 = { s' with needsNeutral := s'.needsNeutral.erase c } := hpost
      have hended : (step s e).1.owner ≠ some client := hended
      rw [hpost] at hended ⊢
      refine Finset.mem_erase.2 ⟨?_, h.ended client howner hended⟩
      rintro rfl
      exact hstays hinput
    | accepted c command haccepts _ hfree _ _ =>
      have howned := (Effect.owner effect_step haccepts).2
      rcases hfree with hidle | hown
      · cases howner.symm.trans hidle
      · cases howner.symm.trans hown
        exact absurd howned hended
  · have hinput : e.input = .request client linear angular := hinput
    have hrequested : Requested s client linear angular e.now
        (s.request client linear angular e.now) := requested linear angular
    simp only [stepOf, step, hinput] at hout ⊢
    revert hout
    generalize s.request client linear angular e.now = r at hrequested
    intro hout
    cases hrequested with
    | refused refusal hrefusal =>
      simp only [DriveAnswer.requested.injEq, Option.some.injEq] at hout
      exact absurd hout (hrefusal code)
    | blocked _ => exact Finset.mem_insert_self _ _
    | invalid _ => simp at hout
    | accepted x y _ _ _ _ _ => simp at hout

theorem needsNeutral_step (h : client ∈ s.needsNeutral)
    (hneutral : ¬ Accepts (stepOf step s e) client (0, 0))
    (hstays : e.input ≠ .disconnect client) : client ∈ (step s e).1.needsNeutral := by
  have heffect : Effect (stepOf step s e) := effect_step
  cases heffect with
  | settled hsettles _ => exact hsettles.needs h
  | left c hinput s' hsettles hpost =>
    have hpost : (step s e).1 = { s' with needsNeutral := s'.needsNeutral.erase c } := hpost
    rw [hpost]
    refine Finset.mem_erase.2 ⟨?_, hsettles.needs h⟩
    rintro rfl
    exact hstays hinput
  | accepted c command haccepts _ _ hzero hpost =>
    have hpost : (step s e).1 = ({ s with needsNeutral := s.needsNeutral.erase c }).accept c
      command.1 command.2 e.now := hpost
    rw [hpost]
    refine startRun_frame.2.1.symm ▸ Finset.mem_erase.2 ⟨?_, h⟩
    rintro rfl
    rw [hzero h] at haccepts
    exact hneutral haccepts

theorem accepts_neutral {command : ℚ × ℚ} (h : client ∈ s.needsNeutral)
    (haccepts : Accepts (stepOf step s e) client command) : command = (0, 0) := by
  have heffect : Effect (stepOf step s e) := effect_step
  cases heffect with
  | settled _ hnone => exact absurd haccepts (hnone client command)
  | left c hinput _ _ _ =>
    obtain ⟨_, _, hrequest⟩ := haccepts.input
    rw [hinput] at hrequest
    cases hrequest
  | accepted c command' haccepts' _ _ hzero _ =>
    obtain ⟨linear, angular, hrequest, hlinear, hangular, -⟩ := haccepts
    obtain ⟨linear', angular', hrequest', hlinear', hangular', -⟩ := haccepts'
    rw [hrequest] at hrequest'
    cases hrequest'
    rw [hlinear] at hlinear'
    rw [hangular] at hangular'
    have hsame : command = command' :=
      Prod.ext (Option.some.inj hlinear') (Option.some.inj hangular')
    rw [hsame]
    exact hzero h

/-! ## Runs of the session -/

/-- What a command that moves the robot, of the tick `t` after the steps
`past`, is: the owner's last accepted one, with nothing blocking, within the
dead-man, the time limit and the neutral start. -/
structure Moves (config : DriveConfig) (past : List DriveStep) (t : DriveStep)
    (command : ℚ × ℚ) : Prop where
  clear : t.pre.blockers = []
  kept : t.post = t.pre
  owner : ∃ client heardAt startedAt, t.pre.owner = some client ∧
    LastAccepted past client command heardAt ∧
    ¬ config.deadmanSec < .fin (t.event.now - heardAt) ∧
    StartedRun past client startedAt ∧
    ¬ config.maxRunSec < .fin (t.event.now - startedAt) ∧
    startupNeutralSec ≤ t.event.now - startedAt

/-- The rules of the session hold in the run. -/
structure Governed (config : DriveConfig) (es : List DriveCall) : Prop where
  moves : ∀ a t b command, trace step (create config) es = a ++ t :: b →
    t.out = .ticked (some command) → command ≠ (0, 0) → Moves config a t command
  accepts : ∀ t ∈ trace step (create config) es, ∀ client command, Accepts t client command →
    (t.pre.owner = none ∨ t.pre.owner = some client) ∧ t.post.owner = some client
  owner : ∀ t ∈ trace step (create config) es, ∀ client, t.post.owner = some client →
    t.pre.owner = some client ∨ t.pre.owner = none ∧ ∃ command, Accepts t client command
  neutral : ∀ client, BlockedUntil
    (fun t => Needs t client ∧ t.event.input ≠ .disconnect client)
    (fun t => ∃ command, command ≠ (0, 0) ∧ Accepts t client command)
    (fun t => Accepts t client (0, 0) ∨ t.event.input = .disconnect client)
    (trace step (create config) es)

theorem moves_of_tick {command : ℚ × ℚ} (h : History config past s)
    (hout : (step s e).2 = .ticked (some command)) (hmoves : command ≠ (0, 0)) :
    Moves config past (stepOf step s e) command := by
  cases hinput : e.input with
  | tick =>
    simp only [step, hinput, DriveAnswer.ticked.injEq] at hout
    obtain ⟨hcommand, howner, hkept, hdeadman, hlimit, hstartup⟩ := tick_command hout hmoves
    obtain ⟨client, hclient⟩ := Option.ne_none_iff_exists'.1 howner
    rw [h.config] at hdeadman hlimit
    refine ⟨blockers_eq_nil.2 (h.clear howner), ?_, client, s.heardAt, s.startedAt, hclient, ?_,
      hdeadman, h.started client hclient, hlimit, hstartup⟩
    · simp only [stepOf, step, hinput, hkept]
    · rw [hcommand]
      exact h.heard client hclient
  | _ => simp [step, hinput] at hout

/-- In every run, at whatever times its calls are made. -/
theorem drive_session_governed (config : DriveConfig) (es : List DriveCall) :
    Governed config es where
  moves a t b command hsplit hout hmoves := by
    obtain ⟨es₁, e, es₂, rfl, rfl, rfl, -⟩ := trace_split hsplit
    have hstart : History config [] (create config) := ⟨rfl, nofun, nofun, nofun⟩
    have hhistory := trace_history (I := History config) (fun _ _ => True) hstart
      (fun _ _ _ h _ => history_step h) es₁ fun _ _ _ _ => trivial
    exact moves_of_tick hhistory hout hmoves
  accepts t ht client command haccepts := by
    rw [eq_stepOf_of_mem_trace ht] at haccepts ⊢
    exact Effect.owner effect_step haccepts
  owner t ht client howner := by
    rw [eq_stepOf_of_mem_trace ht] at howner ⊢
    by_cases hnone : ∀ c command, ¬ Accepts (stepOf step t.pre t.event) c command
    · have hgoesOn := (Effect.goesOn effect_step hnone).2.owner
      rcases hgoesOn with hsame | hidle
      · exact .inl (hsame.symm.trans howner)
      · cases howner.symm.trans hidle
    · push Not at hnone
      obtain ⟨c, command, haccepts⟩ := hnone
      obtain ⟨hfree, howned⟩ := Effect.owner effect_step haccepts
      cases howner.symm.trans howned
      rcases hfree with hidle | hown
      · exact .inr ⟨hidle, command, haccepts⟩
      · exact .inl hown
  neutral client := by
    refine blockedUntil_trace (fun s => client ∈ s.needsNeutral) ?_ ?_ ?_
    · intro t ht ⟨hneeds, hstays⟩
      rw [eq_stepOf_of_mem_trace ht] at hneeds hstays ⊢
      exact needsNeutral_of_needs hneeds hstays
    · intro t ht hneeds hrel
      rw [not_or] at hrel
      rw [eq_stepOf_of_mem_trace ht] at hrel ⊢
      exact needsNeutral_step hneeds hrel.1 hrel.2
    · intro t ht hneeds ⟨command, hmoves, haccepts⟩
      rw [eq_stepOf_of_mem_trace ht] at haccepts
      exact hmoves (accepts_neutral hneeds haccepts)

end DriveSession

end Questix.LabBridge
