/-
Questix.OperationManager.PermissionTheorems — two leases compose.

What the manager publishes is backed by the last votes it received: a flag is
allowed exactly when every required vote is there, within its lease, and
allows it (`Backed`). A message on the way keeps the backing it was published
with, so that a node that finds itself allowed has, for every required vote,
an allowing one no older than the vote's lease, the permission's timeout and
the transit together.
-/
import Questix.OperationManager.MotionPermissionManager

namespace Questix.OperationManager

open Questix.Lib Questix.Safety

abbrev PermissionStep := Step PermissionSystem PermissionEvent PermissionOut

/-! ## The last vote -/

/-- The vote for `name` a step receives, and when. -/
def voteOf (name : String) (t : PermissionStep) : Option (ActuationAuthority × ℚ) :=
  match t.event with
  | .vote other msg now => if other = name then some (msg, now) else none
  | _ => none

/-- The last vote received for `name`. -/
def lastVote (name : String) (past : List PermissionStep) : Option (ActuationAuthority × ℚ) :=
  (past.filterMap (voteOf name)).getLast?

variable {name : String} {past : List PermissionStep} {t : PermissionStep}

theorem lastVote_snoc (name : String) (past : List PermissionStep) (t : PermissionStep) :
    lastVote name (past ++ [t]) = (voteOf name t).or (lastVote name past) := by
  rw [lastVote, List.filterMap_append, lastVote]
  cases hvote : voteOf name t with
  | none => simp [hvote]
  | some vote => simp [hvote]

/-- The state the manager keeps of a vote. -/
def stateOf (managerEpoch : ℚ) : Option (ActuationAuthority × ℚ) → VoteState
  | none => {}
  | some (msg, received) =>
    { known := true, driveAllowed := msg.driveAllowed
      launcherAllowed := msg.launcherAllowed, received := received + managerEpoch }

/-- Every required vote is known, fresh and allows the flag. -/
def Backed (s₀ : PermissionSystem) (past : List PermissionStep) (flag : Flag) (now : ℚ) : Prop :=
  ∀ name ∈ s₀.manager.required, ∃ msg received, lastVote name past = some (msg, received) ∧
    .fin (now - received) ≤ permissionLease s₀.manager.leaseSec ∧ msg.allows flag = true

/-- What the manager knows of a required vote is the last one received. -/
def Records (s₀ : PermissionSystem) (past : List PermissionStep) (s : PermissionSystem) : Prop :=
  ∀ name ∈ s₀.manager.required, s.manager.votes name =
    stateOf s₀.managerEpoch (lastVote name past)

/-! ## What the manager publishes -/

section Publish

variable {manager : MotionPermissionManager} {s₀ s : PermissionSystem} {flag : Flag} {now : ℚ}

theorem decideAndPublish_cases (manager : MotionPermissionManager) (force : Bool) (now : ℚ) :
    (manager.decideAndPublish force now = (manager, none) ∧ force = false) ∨
    ∃ last msg, manager.decideAndPublish force now = ({ manager with last := last }, some msg) ∧
      ∀ flag, msg.allows flag =
        (decideMotionPermission manager.required (manager.voteAt now) manager.leaseSec).allows flag := by
  unfold MotionPermissionManager.decideAndPublish
  simp only
  split
  · rename_i hsame
    refine .inl ⟨rfl, ?_⟩
    simp only [Bool.and_eq_true, Bool.not_eq_true'] at hsame
    exact hsame.1
  · refine .inr ⟨_, _, rfl, ?_⟩
    intro flag
    cases flag <;> rfl

theorem passes_iff (lease : Dbl) (vote : Option (ActuationAuthority × ℚ)) {managerEpoch : ℚ}
    (hvote : manager.votes name = stateOf managerEpoch vote) :
    (manager.voteAt (now + managerEpoch) name).Passes lease flag ↔
      ∃ msg received, vote = some (msg, received) ∧ .fin (now - received) ≤ lease ∧
        msg.allows flag = true := by
  cases vote with
  | none => simp [Vote.Passes, MotionPermissionManager.voteAt, hvote, stateOf]
  | some vote =>
    obtain ⟨msg, received⟩ := vote
    have hage : now + managerEpoch - (received + managerEpoch) = now - received :=
      add_sub_add_right_eq_sub now received managerEpoch
    have hallows : (manager.voteAt (now + managerEpoch) name).allows flag = msg.allows flag := by
      cases flag <;> simp [Vote.allows, ActuationAuthority.allows,
        MotionPermissionManager.voteAt, hvote, stateOf]
    rw [Vote.Passes, hallows]
    simp [MotionPermissionManager.voteAt, hvote, stateOf, hage]

/-- What stays as it was set up. -/
structure SameSetup (s₀ s : PermissionSystem) : Prop where
  required : s.manager.required = s₀.manager.required
  leaseSec : s.manager.leaseSec = s₀.manager.leaseSec
  settings : s.monitor.settings = s₀.monitor.settings
  flag : s.flag = s₀.flag
  managerEpoch : s.managerEpoch = s₀.managerEpoch
  nodeEpoch : s.nodeEpoch = s₀.nodeEpoch

theorem decide_backed (hsetup : SameSetup s₀ s) (hrequired : manager.required = s₀.manager.required)
    (hlease : manager.leaseSec = s₀.manager.leaseSec)
    (hvotes : ∀ name ∈ s₀.manager.required,
      manager.votes name = stateOf s₀.managerEpoch (lastVote name past)) :
    (decideMotionPermission manager.required (manager.voteAt (now + s.managerEpoch))
      manager.leaseSec).allows flag = true ↔ Backed s₀ past flag now := by
  rw [decide_allows, hrequired, hlease, hsetup.managerEpoch]
  refine forall₂_congr ?_
  intro name hname
  exact passes_iff _ _ (hvotes name hname)

end Publish

/-! ## The invariant -/

/-- A message was published, backed by the votes received until then. -/
def Sent (s₀ : PermissionSystem) (past : List PermissionStep) (m : Transit) : Prop :=
  ∃ a p b, past = a ++ p :: b ∧ p.out = .published m ∧
    ∀ flag, m.msg.allows flag = true ↔ Backed s₀ (a ++ [p]) flag m.publishedAt

/-- A message was delivered, within `D` of its publication. -/
structure Heard (s₀ : PermissionSystem) (D : ℚ) (past : List PermissionStep)
    (monitor : PermissionMonitor) (m : Transit) (received : ℚ) : Prop where
  delivered : ∃ x d y, past = x ++ d :: y ∧ d.out = .delivered m ∧ Sent s₀ x m
  allowed : monitor.allowed = m.msg.allows s₀.flag
  lastRx : monitor.lastRx = received + s₀.nodeEpoch
  transit : received - m.publishedAt ≤ D

structure PermissionInv (s₀ : PermissionSystem) (D : ℚ) (past : List PermissionStep)
    (s : PermissionSystem) : Prop where
  setup : SameSetup s₀ s
  records : Records s₀ past s
  sent : ∀ m ∈ s.inFlight, Sent s₀ past m
  heard : s.monitor.known = true → ∃ m received, Heard s₀ D past s.monitor m received

/-- How long a message was on its way, at its delivery. -/
def transitOf (t : PermissionStep) : Option ℚ :=
  match t.event, t.out with
  | .deliver _ now, .delivered m => some (now - m.publishedAt)
  | _, _ => none

/-- A delivery takes no longer than `D`. -/
def InTime (D : ℚ) (t : PermissionStep) : Prop := ∀ transit ∈ transitOf t, transit ≤ D

instance (D : ℚ) (t : PermissionStep) : Decidable (InTime D t) :=
  inferInstanceAs (Decidable (∀ transit ∈ transitOf t, transit ≤ D))

section Invariant

variable {s₀ s : PermissionSystem} {D : ℚ} {m : Transit} {monitor : PermissionMonitor}

theorem Sent.snoc (h : Sent s₀ past m) (t : PermissionStep) : Sent s₀ (past ++ [t]) m := by
  obtain ⟨a, p, b, rfl, hout, hbacked⟩ := h
  exact ⟨a, p, b ++ [t], by simp, hout, hbacked⟩

theorem Heard.snoc {received : ℚ} (h : Heard s₀ D past monitor m received) (t : PermissionStep) :
    Heard s₀ D (past ++ [t]) monitor m received := by
  obtain ⟨⟨x, d, y, rfl, hout, hsent⟩, hallowed, hlastRx, htransit⟩ := h
  exact ⟨⟨x, d, y ++ [t], by simp, hout, hsent⟩, hallowed, hlastRx, htransit⟩

theorem PermissionInv.of_same (h : PermissionInv s₀ D past s) (t : PermissionStep)
    (hno : ∀ name, voteOf name t = none) : PermissionInv s₀ D (past ++ [t]) s where
  setup := h.setup
  records name hname := by
    rw [lastVote_snoc, hno name, Option.none_or]
    exact h.records name hname
  sent m hm := (h.sent m hm).snoc t
  heard hknown := by
    obtain ⟨m, received, hheard⟩ := h.heard hknown
    exact ⟨m, received, hheard.snoc t⟩

/-- A decision, published or not, keeps the invariant once the votes are
recorded. -/
theorem PermissionInv.publish (h : PermissionInv s₀ D past s) {manager : MotionPermissionManager}
    {force : Bool} {now : ℚ} (hrequired : manager.required = s.manager.required)
    (hlease : manager.leaseSec = s.manager.leaseSec)
    (hvotes : ∀ name ∈ s₀.manager.required,
      manager.votes name = stateOf s₀.managerEpoch (lastVote name (past ++ [t])))
    (hout : t.out =
      (s.publish (manager.decideAndPublish force (now + s.managerEpoch)) now).2) :
    PermissionInv s₀ D (past ++ [t])
      (s.publish (manager.decideAndPublish force (now + s.managerEpoch)) now).1 := by
  have hrequired := hrequired.trans h.setup.required
  have hlease := hlease.trans h.setup.leaseSec
  have hsetup : ∀ last inFlight, SameSetup s₀
      { s with manager := { manager with last := last }, inFlight := inFlight } := fun _ _ =>
    ⟨hrequired, hlease, h.setup.settings, h.setup.flag, h.setup.managerEpoch, h.setup.nodeEpoch⟩
  have hsent : ∀ m ∈ s.inFlight, Sent s₀ (past ++ [t]) m := fun m hm => (h.sent m hm).snoc t
  have hheard : s.monitor.known = true → ∃ m received, Heard s₀ D (past ++ [t]) s.monitor m received := by
    intro hknown
    obtain ⟨m, received, hheard⟩ := h.heard hknown
    exact ⟨m, received, hheard.snoc t⟩
  rcases decideAndPublish_cases manager force (now + s.managerEpoch) with
    ⟨hnone, -⟩ | ⟨last, msg, hsome, hallows⟩
  · rw [hnone]
    exact ⟨hsetup manager.last s.inFlight, hvotes, hsent, hheard⟩
  · rw [hsome] at hout ⊢
    refine ⟨hsetup last _, hvotes, ?_, hheard⟩
    intro m hm
    rcases List.mem_append.1 hm with hm | hm
    · exact hsent m hm
    · obtain rfl := List.mem_singleton.1 hm
      refine ⟨past, t, [], rfl, hout, ?_⟩
      intro flag
      rw [hallows flag]
      exact decide_backed h.setup hrequired hlease hvotes

theorem PermissionInv.step (h : PermissionInv s₀ D past s) (e : PermissionEvent)
    (htime : InTime D (stepOf PermissionSystem.step s e)) :
    PermissionInv s₀ D (past ++ [stepOf PermissionSystem.step s e])
      (PermissionSystem.step s e).1 := by
  cases e with
  | vote name msg now =>
    have hvoteOf : ∀ other, voteOf other (stepOf PermissionSystem.step s (.vote name msg now)) =
        if name = other then some (msg, now) else none := fun _ => rfl
    generalize ht : stepOf PermissionSystem.step s (.vote name msg now) = t at hvoteOf
    by_cases hname : name ∈ s.manager.required
    · have hstep : PermissionSystem.step s (.vote name msg now) =
          s.publish (s.manager.voteCallback name msg (now + s.managerEpoch)) now := if_pos hname
      rw [hstep]
      refine h.publish rfl rfl ?_ ?_
      · intro other hother
        rw [lastVote_snoc, hvoteOf]
        by_cases heq : name = other
        · subst heq
          rw [if_pos rfl, Option.some_or, ← h.setup.managerEpoch]
          exact Function.update_self name _ s.manager.votes
        · rw [if_neg heq, Option.none_or, ← h.records other hother]
          exact Function.update_of_ne (Ne.symm heq) _ s.manager.votes
      · rw [← ht]
        exact congrArg Prod.snd hstep
    · have hstep : PermissionSystem.step s (.vote name msg now) = (s, .quiet) := if_neg hname
      rw [hstep]
      refine ⟨h.setup, ?_, fun m hm => (h.sent m hm).snoc t, ?_⟩
      · intro other hother
        have hne : name ≠ other := by
          rintro rfl
          exact hname (h.setup.required ▸ hother)
        rw [lastVote_snoc, hvoteOf, if_neg hne, Option.none_or]
        exact h.records other hother
      · intro hknown
        obtain ⟨m, received, hheard⟩ := h.heard hknown
        exact ⟨m, received, hheard.snoc t⟩
  | tick now =>
    refine h.publish rfl rfl ?_ rfl
    intro name hname
    rw [lastVote_snoc]
    exact h.records name hname
  | deliver index now =>
    cases hm : s.inFlight[index]? with
    | none =>
      have hstep : PermissionSystem.step s (.deliver index now) = (s, .quiet) := by
        simp only [PermissionSystem.step, hm]
      rw [hstep]
      exact h.of_same _ fun _ => rfl
    | some m =>
      have hstep : PermissionSystem.step s (.deliver index now) =
          ({ s with
              monitor := (s.monitor.receive (m.msg.allows s.flag) (now + s.nodeEpoch)).1
              inFlight := s.inFlight.drop (index + 1) }, .delivered m) := by
        simp only [PermissionSystem.step, hm]
      have hsent : Sent s₀ past m := h.sent m (List.mem_of_getElem? hm)
      have hout : (stepOf PermissionSystem.step s (.deliver index now)).out = .delivered m :=
        congrArg Prod.snd hstep
      have htransit : now - m.publishedAt ≤ D := by
        refine htime _ ?_
        rw [transitOf, hout]
        rfl
      have hsame := h.of_same (stepOf PermissionSystem.step s (.deliver index now)) fun _ => rfl
      rw [hstep]
      refine ⟨⟨h.setup.required, h.setup.leaseSec, h.setup.settings, h.setup.flag,
        h.setup.managerEpoch, h.setup.nodeEpoch⟩, hsame.records, ?_, ?_⟩
      · intro other hother
        exact hsame.sent other (List.mem_of_mem_drop hother)
      · intro _
        refine ⟨m, now, ⟨past, _, [], rfl, hout, hsent⟩, ?_, ?_, htransit⟩
        · exact congrArg m.msg.allows h.setup.flag
        · exact congrArg (now + ·) h.setup.nodeEpoch
  | check now => exact h.of_same _ fun _ => rfl

end Invariant

/-! ## Runs -/

/-- The manager before its first publication, and a node before its first
message. -/
def PermissionSystem.start (manager : MotionPermissionManager) (settings : PermissionSettings)
    (flag : Flag) (managerEpoch nodeEpoch : ℚ) : PermissionSystem where
  manager := manager
  monitor := PermissionMonitor.create settings
  flag := flag
  managerEpoch := managerEpoch
  nodeEpoch := nodeEpoch

/-- Allowed at a check: then a message `m` was published at `p` and delivered,
and at its publication the last vote received for every required name allowed,
and is within `bound` of the check. -/
def AllowedWithin (s₀ : PermissionSystem) (bound : Dbl) (run : List PermissionStep) : Prop :=
  ∀ x t y now, run = x ++ t :: y → t.event = .check now → t.out = .checked .kAllowed →
    ∃ a p b d m, x = a ++ p :: b ∧ p.out = .published m ∧ d ∈ b ∧ d.out = .delivered m ∧
      ∀ name ∈ s₀.manager.required, ∃ msg received,
        lastVote name (a ++ [p]) = some (msg, received) ∧ msg.allows s₀.flag = true ∧
        .fin (now - received) ≤ bound

/-- Every tick publishes, and allows a flag exactly when it is backed. -/
def TicksBacked (s₀ : PermissionSystem) (run : List PermissionStep) : Prop :=
  ∀ x t y now, run = x ++ t :: y → t.event = .tick now →
    ∃ m, t.out = .published m ∧
      ∀ flag, m.msg.allows flag = true ↔ Backed s₀ x flag now

section Run

variable {s₀ s : PermissionSystem} {D : ℚ} {settings : PermissionSettings} {flag : Flag}
  {managerEpoch nodeEpoch : ℚ} {params : ManagerParams} {manager : MotionPermissionManager}
  {es : List PermissionEvent}

theorem create_spec (h : MotionPermissionManager.create params = .ok manager) :
    manager.votes = (fun _ => {}) ∧ permissionLease manager.leaseSec = manager.leaseSec := by
  unfold MotionPermissionManager.create at h
  split at h
  · cases h
  · simp only at h
    split at h
    · cases h
    · cases h
      refine ⟨rfl, ?_⟩
      simp only
      split
      · decide
      · rename_i hvalid
        simp only [Bool.or_eq_true, Bool.not_eq_true', not_or, decide_eq_true_eq,
          Bool.not_eq_false] at hvalid
        obtain ⟨q, hq⟩ := Dbl.isfinite_iff.1 hvalid.1
        rw [hq] at hvalid ⊢
        have hpos : (0 : Dbl) < .fin q := Dbl.fin_lt_fin.2 (not_le.1 fun hle => hvalid.2 (Dbl.fin_le_fin.2 hle))
        simp [permissionLease, hpos]

theorem permissionInv_start (h : MotionPermissionManager.create params = .ok manager) :
    PermissionInv (.start manager settings flag managerEpoch nodeEpoch) D []
      (.start manager settings flag managerEpoch nodeEpoch) where
  setup := ⟨rfl, rfl, rfl, rfl, rfl, rfl⟩
  records name _ := congrFun (create_spec h).1 name
  sent m hm := by cases hm
  heard hknown := by cases hknown

theorem permissionInv_run (h : MotionPermissionManager.create params = .ok manager)
    (htime : ∀ t ∈ trace PermissionSystem.step
      (.start manager settings flag managerEpoch nodeEpoch) es, InTime D t) :
    PermissionInv (.start manager settings flag managerEpoch nodeEpoch) D
      (trace PermissionSystem.step (.start manager settings flag managerEpoch nodeEpoch) es)
      (final PermissionSystem.step (.start manager settings flag managerEpoch nodeEpoch) es) := by
  refine trace_history (fun _ t => InTime D t) (permissionInv_start h) ?_ es ?_
  · intro past s e hinv hok
    exact hinv.step e hok
  · intro a t b hsplit
    exact htime t (hsplit ▸ by simp)

theorem allowed_check {monitor : PermissionMonitor} {now : ℚ}
    (hrequired : monitor.settings.required = true)
    (h : evaluatePermission (monitor.inputs now) = .kAllowed) :
    monitor.known = true ∧ monitor.allowed = true ∧
      .fin (now - monitor.lastRx) ≤ permissionLease monitor.settings.timeoutSec := by
  cases hknown : monitor.known with
  | false => simp [evaluatePermission, PermissionMonitor.inputs, hrequired, hknown] at h
  | true =>
    simp only [evaluatePermission, PermissionMonitor.inputs, hrequired, hknown, if_true,
      Bool.not_true, Bool.false_eq_true, if_false] at h
    split_ifs at h with hstale hoff
    simp only [Bool.not_eq_true', decide_eq_false_iff_not, not_not] at hstale
    simp only [Bool.not_eq_true', Bool.not_eq_false] at hoff
    exact ⟨rfl, hoff, hstale⟩

theorem age_le {now heardAt publishedAt votedAt D : ℚ} {lease timeout : Dbl}
    (hlease : .fin (publishedAt - votedAt) ≤ permissionLease lease)
    (htimeout : .fin (now - heardAt) ≤ permissionLease timeout) (htransit : heardAt - publishedAt ≤ D) :
    .fin (now - votedAt) ≤ permissionLease lease + permissionLease timeout + .fin D := by
  obtain ⟨l, hl, -⟩ := permissionLease_spec lease
  obtain ⟨p, hp, -⟩ := permissionLease_spec timeout
  rw [hl, Dbl.fin_le_fin] at hlease
  rw [hp, Dbl.fin_le_fin] at htimeout
  rw [hl, hp]
  refine Dbl.fin_le_fin.2 ?_
  linarith

theorem permission_composed (hmanager : MotionPermissionManager.create params = .ok manager)
    (hrequired : settings.required = true)
    (htime : ∀ t ∈ trace PermissionSystem.step
      (.start manager settings flag managerEpoch nodeEpoch) es, InTime D t) :
    AllowedWithin (.start manager settings flag managerEpoch nodeEpoch)
        (manager.leaseSec + permissionLease settings.timeoutSec + .fin D)
        (trace PermissionSystem.step (.start manager settings flag managerEpoch nodeEpoch) es) ∧
      TicksBacked (.start manager settings flag managerEpoch nodeEpoch)
        (trace PermissionSystem.step (.start manager settings flag managerEpoch nodeEpoch) es) := by
  have hrun : ∀ es₁ b, trace PermissionSystem.step
        (.start manager settings flag managerEpoch nodeEpoch) es =
      trace PermissionSystem.step (.start manager settings flag managerEpoch nodeEpoch) es₁ ++ b →
      PermissionInv (.start manager settings flag managerEpoch nodeEpoch) D
        (trace PermissionSystem.step (.start manager settings flag managerEpoch nodeEpoch) es₁)
        (final PermissionSystem.step (.start manager settings flag managerEpoch nodeEpoch) es₁) := by
    intro es₁ b hsplit
    refine permissionInv_run hmanager fun t ht => htime t ?_
    rw [hsplit]
    exact List.mem_append_left _ ht
  constructor
  · intro x t y now hsplit hevent hout
    obtain ⟨es₁, e, es₂, -, hx, ht, -⟩ := trace_split hsplit
    have hinv := hrun es₁ (t :: y) (hx ▸ hsplit)
    rw [← hx] at hinv
    subst ht
    change e = .check now at hevent
    subst hevent
    have hsettings := hinv.setup.settings
    have hcheck := PermissionOut.checked.inj hout
    obtain ⟨hknown, hallowed, hage⟩ := allowed_check (by rw [hsettings]; exact hrequired) hcheck
    obtain ⟨m, received, ⟨x', d, y', hpast, hd, a, p, b, hx', hp, hbacked⟩, hflag, hlastRx, htransit⟩ :=
      hinv.heard hknown
    refine ⟨a, p, b ++ d :: y', d, m, ?_, hp, by simp, hd, ?_⟩
    · rw [hpast, hx', List.append_assoc, List.cons_append]
    · intro name hname
      have hallows : m.msg.allows flag = true := hflag.symm.trans hallowed
      obtain ⟨msg, votedAt, hvote, hlease, hmsg⟩ := (hbacked flag).1 hallows name hname
      refine ⟨msg, votedAt, hvote, hmsg, ?_⟩
      rw [hlastRx, hinv.setup.nodeEpoch, add_sub_add_right_eq_sub, hsettings] at hage
      have hbound := age_le hlease hage htransit
      have htimeout : permissionLease (permissionLease settings.timeoutSec) =
          permissionLease settings.timeoutSec := by
        obtain ⟨q, hlease, hagain⟩ := permissionLease_spec settings.timeoutSec
        exact hagain.trans hlease.symm
      change _ ≤ permissionLease manager.leaseSec +
        permissionLease (permissionLease settings.timeoutSec) + _ at hbound
      rwa [(create_spec hmanager).2, htimeout] at hbound
  · intro x t y now hsplit hevent
    obtain ⟨es₁, e, es₂, -, hx, ht, -⟩ := trace_split hsplit
    have hinv := hrun es₁ (t :: y) (hx ▸ hsplit)
    rw [← hx] at hinv
    generalize final PermissionSystem.step
      (.start manager settings flag managerEpoch nodeEpoch) es₁ = s at ht hinv
    subst ht
    change e = .tick now at hevent
    subst hevent
    rcases decideAndPublish_cases s.manager true (now + s.managerEpoch) with
      ⟨-, hforce⟩ | ⟨last, msg, hsome, hallows⟩
    · cases hforce
    · refine ⟨⟨now, msg⟩, ?_, ?_⟩
      · show (s.publish (s.manager.decideAndPublish true (now + s.managerEpoch)) now).2 = _
        rw [hsome]
        rfl
      · intro flag
        rw [show (Transit.msg ⟨now, msg⟩).allows flag = _ from hallows flag]
        exact decide_backed hinv.setup hinv.setup.required hinv.setup.leaseSec hinv.records

end Run

/-! ### A run, and a check that asks for nothing -/

def lesson : ManagerParams where
  mode := "lesson"
  required := [("lesson", ["teacher"])]
  votes := [("teacher", some "/actuation_authority")]

def lessonManager : MotionPermissionManager where
  mode := "lesson"
  leaseSec := 1
  required := ["teacher"]

/-- The teacher allows, the permission travels for a fifth of a second. -/
def lessonRun : List PermissionEvent :=
  [.tick 0, .vote "teacher" ⟨true, true⟩ 1, .deliver 1 (6 / 5), .check (3 / 2)]

theorem create_lesson : MotionPermissionManager.create lesson = .ok lessonManager := rfl

theorem permission_composed_lesson :
    (∃ t ∈ trace PermissionSystem.step (.start lessonManager {} .kDrive 100 7) lessonRun,
      t.out = .checked .kAllowed) ∧
    AllowedWithin (.start lessonManager {} .kDrive 100 7)
        (lessonManager.leaseSec + permissionLease (.fin (1 / 2)) + .fin (1 / 5))
        (trace PermissionSystem.step (.start lessonManager {} .kDrive 100 7) lessonRun) ∧
      TicksBacked (.start lessonManager {} .kDrive 100 7)
        (trace PermissionSystem.step (.start lessonManager {} .kDrive 100 7) lessonRun) :=
  ⟨by decide +kernel, permission_composed create_lesson rfl (by decide +kernel)⟩

/-- A check that is not required reports allowed, whatever was heard. -/
theorem unrequired_check : ¬ AllowedWithin
    (.start lessonManager { required := false } .kDrive 0 0)
    (lessonManager.leaseSec + permissionLease (.fin (1 / 2)) + .fin 0)
    (trace PermissionSystem.step (.start lessonManager { required := false } .kDrive 0 0)
      [.check 0]) := by
  intro h
  obtain ⟨a, p, b, d, m, hsplit, -⟩ := h [] _ [] 0 rfl rfl rfl
  cases a <;> cases hsplit

end Questix.OperationManager
