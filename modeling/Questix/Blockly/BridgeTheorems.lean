/-
Questix.Blockly.BridgeTheorems — what one event does to the node.

What an event can do to the plan is said once (`Move`, `move_step`), and so is
what it takes to be armed (`armed_step`). `Running` looks back over the steps
taken so far: where the plan came from and which of its steps have been
published.
-/
import Mathlib.Algebra.Order.Ring.Rat
import Mathlib.Tactic.Linarith
import Questix.Blockly.Bridge

namespace Questix.Blockly

open Questix.Lib

variable {scales : Scales} {s s' : Bridge} {e : Event} {out : Out}

abbrev BridgeStep := Step Bridge Event Out

/-! ## Events -/

/-- A request to run that is granted. -/
def IsStart (e : Event) (out : Out) : Prop :=
  ∃ now readyAt data status, e = .command now readyAt .run data ∧ out.answer = some (.ok status)

/-- The step starts `plan` under the id `runId`. -/
def Starts (runId : List Char) (plan : List PlanStep) (t : BridgeStep) : Prop :=
  ∃ now readyAt data status, t.event = .command now readyAt .run data ∧
    t.out.answer = some (.ok status) ∧ runIdOf (Json.get data "id".toList) = some runId ∧
    validatePlan (Json.get data "plan".toList) = .ok plan

/-- A request to run under the id `runId`. -/
def AsksRun (runId : List Char) (e : Event) : Prop :=
  ∃ now readyAt data, e = .command now readyAt .run data ∧
    runIdOf (Json.get data "id".toList) = some runId

def AsksStop (runId : List Char) (e : Event) : Prop :=
  ∃ now readyAt data, e = .command now readyAt .stop data ∧
    runIdOf (Json.get data "id".toList) = some runId

def ChangesMode (e : Event) : Prop :=
  ∃ now readyAt data mode, e = .command now readyAt .mode data ∧
    modeOf (Json.get data "mode".toList) = some mode

def Beats (runId : List Char) (e : Event) : Prop :=
  ∃ now readyAt data, e = .command now readyAt .heartbeat data ∧
    runIdOf (Json.get data "id".toList) = some runId

/-! ## One event and the plan -/

/-- Nothing of the run is changed. -/
structure Same (s s' : Bridge) : Prop where
  plan : s'.plan = s.plan
  runId : s'.runId = s.runId
  index : s'.index = s.index
  deadline : s'.deadline = s.deadline
  heartbeat : s'.heartbeat = s.heartbeat
  mode : s'.mode = s.mode

/-- The link and the odometry are fresh at a tick. -/
def Fresh (s : Bridge) (now readyAt : ℚ) : Prop :=
  now - s.heartbeat ≤ 6 / 5 ∧ readyAt - s.lastOdom < 7 / 10

/-- What an event can do to the plan, and what is published then. -/
inductive Move (scales : Scales) (s : Bridge) (e : Event) (s' : Bridge) (out : Out) : Prop
  | idle (same : Same s s') (noStart : ¬ IsStart e out)
      (published : s.mode = .blockly → ∀ m ∈ out.published, m = halt scales ∨
        m = joyOf scales 0 0 true ∧ s.plan ≠ [] ∧ s.index = -1 ∧ e.now < s.deadline)
  | beats (event : Beats s.runId e) (running : s.plan ≠ [])
      (eq : s' = { s with heartbeat := e.now }) (published : out.published = [])
  | ends (ended : s'.plan = []) (index : -1 ≤ s.index → -1 ≤ s'.index) (noStart : ¬ IsStart e out)
      (published : ∀ m ∈ out.published, m = halt scales)
  | starts (now readyAt : ℚ) (data : List (List Char × Json)) (runId : List Char)
      (plan : List PlanStep) (status : Status) (event : e = .command now readyAt .run data)
      (named : runIdOf (Json.get data "id".toList) = some runId)
      (valid : validatePlan (Json.get data "plan".toList) = .ok plan)
      (granted : out.answer = some (.ok status)) (fresh : runId ∉ s.cancelled ∧ runId ≠ s.runId)
      (free : s.plan = []) (blockly : s.mode = .blockly) (published : out.published = [])
      (eq : s' = { s with
        runId := runId, plan := plan, index := -1, heartbeat := now, deadline := now + 2 / 5,
        reason := "実行中" })
  | publishes (now readyAt : ℚ) (k : ℕ) (planStep : PlanStep) (event : e = .tick now readyAt)
      (blockly : s.mode = .blockly) (fresh : Fresh s now readyAt)
      (nth : s.plan[k]? = some planStep)
      (kept : s'.plan = s.plan ∧ s'.runId = s.runId ∧ s'.heartbeat = s.heartbeat ∧
        s'.mode = s.mode)
      (index : s'.index = k)
      (order : s.index = k ∨ s.index + 1 = k ∧ s.deadline ≤ now)
      (published : out.published = [joyOf scales planStep.v planStep.w true])

theorem Same.rfl : Same s s := ⟨Eq.refl _, Eq.refl _, Eq.refl _, Eq.refl _, Eq.refl _, Eq.refl _⟩

theorem move_onController (now : ℚ) (msg : Joy) :
    Move scales s (.controller now msg) (onController s now msg) {} := by
  refine .idle ?_ (fun ⟨_, _, _, _, h, _⟩ => by cases h) fun _ _ hm => by cases hm
  unfold onController
  split
  · exact .rfl
  · split <;> exact ⟨rfl, rfl, rfl, rfl, rfl, rfl⟩

theorem move_tickController (now readyAt : ℚ) (hmode : s.mode = .controller) :
    Move scales s (.tick now readyAt) (tickController scales s now readyAt).1
      (tickController scales s now readyAt).2 := by
  refine .idle ?_ (fun ⟨_, _, _, _, h, _⟩ => by cases h) fun hblockly => ?_
  · unfold tickController
    dsimp only
    split <;> split <;> exact ⟨rfl, rfl, rfl, rfl, rfl, rfl⟩
  · rw [hmode] at hblockly
    cases hblockly

theorem move_tickPlan (now readyAt : ℚ) (hmode : s.mode = .blockly) (hindex : -1 ≤ s.index) :
    Move scales s (.tick now readyAt) (tickPlan scales s now readyAt).1
      (tickPlan scales s now readyAt).2 := by
  have hnoStart : ∀ out, ¬ IsStart (.tick now readyAt) out :=
    fun out ⟨_, _, _, _, h, _⟩ => by cases h
  unfold tickPlan
  split
  · refine .ends rfl id (hnoStart _) fun m hm => ?_
    rcases List.mem_cons.1 hm with rfl | hm
    · rfl
    · exact List.mem_singleton.1 hm
  · rename_i hlive
    split
    · refine .idle .rfl (hnoStart _) fun _ m hm => .inl (List.mem_singleton.1 hm)
    · rename_i first rest hplan
      have hrunning : s.plan ≠ [] := by rw [hplan]; exact List.cons_ne_nil _ _
      have hfresh : Fresh s now readyAt := by
        rw [not_and, not_or, not_lt, Bool.not_eq_false] at hlive
        obtain ⟨hbeat, hready⟩ := hlive hrunning
        exact ⟨hbeat, of_decide_eq_true hready⟩
      split
      · rename_i hwaits
        split
        · rename_i hearly
          refine .idle .rfl (hnoStart _) fun _ m hm => .inr ?_
          exact ⟨List.mem_singleton.1 hm, hrunning, hwaits, hearly⟩
        · rename_i hlate
          refine .publishes now readyAt 0 first rfl hmode hfresh ?_ ⟨rfl, rfl, rfl, rfl⟩ rfl
            (.inr ⟨?_, not_lt.1 hlate⟩) rfl
          · rw [hplan]
            rfl
          · rw [hwaits]
            rfl
      · split
        · rename_i hover
          split
          · refine .ends rfl (fun h => ?_) (hnoStart _) fun m hm => List.mem_singleton.1 hm
            show -1 ≤ s.index + 1
            omega
          · rename_i planStep hnth
            refine .publishes now readyAt (s.index + 1).toNat planStep rfl hmode hfresh ?_
              ⟨rfl, rfl, rfl, rfl⟩ ?_ (.inr ⟨?_, hover⟩) rfl
            · rw [hplan]
              exact hnth
            · show s.index + 1 = ((s.index + 1).toNat : ℤ)
              omega
            · omega
        · split
          · exact .idle .rfl (hnoStart _) fun _ m hm => absurd hm List.not_mem_nil
          · rename_i planStep hnth
            refine .publishes now readyAt s.index.toNat planStep rfl hmode hfresh ?_
              ⟨rfl, rfl, rfl, rfl⟩ ?_ (.inl ?_) rfl
            · rw [hplan]
              exact hnth
            · show s.index = (s.index.toNat : ℤ)
              omega
            · omega

theorem move_refuse (text : String) :
    Move scales s e (refuse s text).1 (refuse s text).2 := by
  refine .idle .rfl ?_ fun _ m hm => absurd hm List.not_mem_nil
  rintro ⟨_, _, _, _, _, hanswer⟩
  cases hanswer

theorem move_startRun (now readyAt : ℚ) (runId : List Char) (data : List (List Char × Json))
    (hnamed : runIdOf (Json.get data "id".toList) = some runId) :
    Move scales s (.command now readyAt .run data) (startRun s now readyAt runId data).1
      (startRun s now readyAt runId data).2 := by
  unfold startRun
  split
  · exact move_refuse _
  rename_i hmode
  split
  · exact move_refuse _
  rename_i plan hvalid
  split
  · exact move_refuse _
  rename_i hid
  split
  · exact move_refuse _
  rename_i hplan
  split
  · exact move_refuse _
  · exact .starts now readyAt data runId plan _ rfl hnamed hvalid rfl (not_or.1 hid)
      (not_not.1 hplan) (not_not.1 hmode) rfl rfl

theorem move_command (now readyAt : ℚ) (path : Path) (data : List (List Char × Json)) :
    Move scales s (.command now readyAt path data) (command scales s now readyAt path data).1
      (command scales s now readyAt path data).2 := by
  have hother : ∀ {path' : Path} {out : Out}, path' ≠ .run →
      ¬ IsStart (.command now readyAt path' data) out :=
    fun hne ⟨_, _, _, _, h, _⟩ => hne (by cases h; rfl)
  unfold command
  split
  · unfold changeMode
    split
    · exact move_refuse _
    · exact .ends rfl id (hother (by decide)) fun m hm => List.mem_singleton.1 hm
  · split
    · exact move_refuse _
    · rename_i runId hnamed
      split
      · unfold stopRun
        split
        · exact move_refuse _
        · dsimp only
          split
          · exact .ends rfl id (hother (by decide)) fun m hm => List.mem_singleton.1 hm
          · exact .idle ⟨rfl, rfl, rfl, rfl, rfl, rfl⟩ (hother (by decide))
              fun _ m hm => absurd hm List.not_mem_nil
      · unfold beat
        split
        · rename_i hruns
          refine .beats ⟨now, readyAt, data, rfl, ?_⟩ hruns.2 rfl rfl
          rw [← hruns.1]
          exact hnamed
        · exact .idle .rfl (hother (by decide)) fun _ m hm => absurd hm List.not_mem_nil
      · exact move_startRun now readyAt runId data hnamed
      · exact move_refuse _

theorem move_step (hindex : -1 ≤ s.index) (e : Event) :
    Move scales s e (step scales s e).1 (step scales s e).2 := by
  cases e with
  | controller now msg => exact move_onController now msg
  | odom now pose =>
    exact .idle ⟨rfl, rfl, rfl, rfl, rfl, rfl⟩ (fun ⟨_, _, _, _, h, _⟩ => by cases h)
      fun _ m hm => absurd hm List.not_mem_nil
  | tick now readyAt =>
    unfold step
    dsimp only
    split
    · rename_i hmode
      exact move_tickController now readyAt hmode
    · rename_i hmode
      exact move_tickPlan now readyAt hmode hindex
  | command now readyAt path data => exact move_command now readyAt path data

/-! ## What else an event leaves -/

/-- Ids stay stopped, and the odometry is as old as it was. -/
structure Framed (s s' : Bridge) : Prop where
  cancelled : s.cancelled ⊆ s'.cancelled
  lastOdom : s'.lastOdom = s.lastOdom

theorem Framed.rfl : Framed s s := ⟨Finset.Subset.refl _, Eq.refl _⟩

theorem framed_onController (now : ℚ) (msg : Joy) : Framed s (onController s now msg) := by
  unfold onController
  split
  · exact .rfl
  · split <;> exact ⟨Finset.Subset.refl _, rfl⟩

theorem framed_tickController (now readyAt : ℚ) :
    Framed s (tickController scales s now readyAt).1 := by
  unfold tickController
  dsimp only
  split <;> split <;> exact ⟨Finset.Subset.refl _, rfl⟩

theorem framed_tickPlan (now readyAt : ℚ) : Framed s (tickPlan scales s now readyAt).1 := by
  unfold tickPlan publishStep
  split
  · exact ⟨Finset.Subset.refl _, rfl⟩
  split
  · exact .rfl
  split
  · split <;> exact ⟨Finset.Subset.refl _, rfl⟩
  · split <;> split <;> exact ⟨Finset.Subset.refl _, rfl⟩

theorem framed_startRun (now readyAt : ℚ) (runId : List Char) (data : List (List Char × Json)) :
    Framed s (startRun s now readyAt runId data).1 := by
  unfold startRun
  split
  · exact .rfl
  split
  · exact .rfl
  split
  · exact .rfl
  split
  · exact .rfl
  split <;> exact ⟨Finset.Subset.refl _, rfl⟩

theorem framed_command (now readyAt : ℚ) (path : Path) (data : List (List Char × Json)) :
    Framed s (command scales s now readyAt path data).1 := by
  unfold command
  split
  · unfold changeMode
    split
    · exact .rfl
    · refine ⟨?_, rfl⟩
      show s.cancelled ⊆ if s.runId ≠ [] then insert s.runId s.cancelled else s.cancelled
      split
      · exact Finset.subset_insert _ _
      · exact Finset.Subset.refl _
  · split
    · exact .rfl
    · split
      · unfold stopRun
        split
        · exact .rfl
        · dsimp only
          split <;> exact ⟨Finset.subset_insert _ _, rfl⟩
      · unfold beat
        split <;> exact ⟨Finset.Subset.refl _, rfl⟩
      · exact framed_startRun now readyAt _ data
      · exact .rfl

def IsOdom (e : Event) : Prop := ∃ now pose, e = .odom now pose

theorem framed_step (e : Event) : (Framed s (step scales s e).1 ∧ ¬ IsOdom e) ∨
    IsOdom e ∧ (step scales s e).1.lastOdom = e.now ∧
      s.cancelled ⊆ (step scales s e).1.cancelled := by
  cases e with
  | controller now msg => exact .inl ⟨framed_onController now msg, fun ⟨_, _, h⟩ => by cases h⟩
  | odom now pose => exact .inr ⟨⟨now, pose, rfl⟩, rfl, Finset.Subset.refl _⟩
  | tick now readyAt =>
    refine .inl ⟨?_, fun ⟨_, _, h⟩ => by cases h⟩
    unfold step
    dsimp only
    split
    · exact framed_tickController now readyAt
    · exact framed_tickPlan now readyAt
  | command now readyAt path data =>
    exact .inl ⟨framed_command now readyAt path data, fun ⟨_, _, h⟩ => by cases h⟩

theorem cancelled_step (e : Event) : s.cancelled ⊆ (step scales s e).1.cancelled :=
  (framed_step e).elim (fun h => h.1.cancelled) fun h => h.2.2

theorem stop_step {runId : List Char} (h : AsksStop runId e) (hroom : s.cancelled.card ≤ 10000) :
    runId ∈ (step scales s e).1.cancelled ∧
      (runId = s.runId → (step scales s e).1.plan = []) := by
  obtain ⟨now, readyAt, data, rfl, hnamed⟩ := h
  show runId ∈ (command scales s now readyAt .stop data).1.cancelled ∧
    (runId = s.runId → (command scales s now readyAt .stop data).1.plan = [])
  unfold command
  dsimp only
  rw [hnamed]
  dsimp only
  unfold stopRun
  rw [if_neg (not_lt.2 hroom)]
  dsimp only
  split
  · exact ⟨Finset.mem_insert_self _ _, fun _ => rfl⟩
  · rename_i hother
    exact ⟨Finset.mem_insert_self _ _, fun hsame => absurd hsame hother⟩

theorem mode_step (h : ChangesMode e) : (step scales s e).1.plan = [] ∧
    (step scales s e).1.controllerArmed = false := by
  obtain ⟨now, readyAt, data, mode, rfl, hnamed⟩ := h
  show (command scales s now readyAt .mode data).1.plan = [] ∧ _
  unfold step command
  dsimp only
  unfold changeMode
  rw [hnamed]
  exact ⟨rfl, rfl⟩

/-! ## The run that is under way -/

/-- The tick publishes step `k` of `plan`. -/
def Shows (scales : Scales) (plan : List PlanStep) (k : ℕ) (t : BridgeStep) : Prop :=
  (∃ now readyAt, t.event = .tick now readyAt) ∧ t.post.index = k ∧
    ∃ planStep, plan[k]? = some planStep ∧
      t.out.published = [joyOf scales planStep.v planStep.w true]

/-- The run that `r` started and the steps `b` since then. -/
structure Underway (scales : Scales) (s : Bridge) (r : BridgeStep) (b : List BridgeStep) :
    Prop where
  start : Starts s.runId s.plan r
  noStart : ∀ u ∈ b, ¬ IsStart u.event u.out
  waits : s.index = -1 → s.deadline = r.event.now + 2 / 5
  released : 0 ≤ s.index → ∃ u ∈ b, r.event.now + 2 / 5 ≤ u.event.now
  shown : ∀ j : ℕ, (j : ℤ) ≤ s.index → ∃ u ∈ b, Shows scales s.plan j u
  bound : ∀ u ∈ b, ∀ j : ℕ, Shows scales s.plan j u → (j : ℤ) ≤ s.index
  beat : ∃ u ∈ r :: b, (u = r ∨ Beats s.runId u.event) ∧ u.event.now = s.heartbeat

/-- Where the plan came from. -/
structure Running (scales : Scales) (past : List BridgeStep) (s : Bridge) : Prop where
  index : -1 ≤ s.index
  started : s.plan ≠ [] → ∃ a r b, past = a ++ r :: b ∧ Underway scales s r b

section Runs

variable {past : List BridgeStep}

/-- A step that leaves the plan as it is lengthens the run. -/
theorem Underway.snoc {r : BridgeStep} {b : List BridgeStep} (h : Underway scales s r b)
    (t : BridgeStep) (hpost : t.post = s') (hplan : s'.plan = s.plan) (hid : s'.runId = s.runId)
    (hnoStart : ¬ IsStart t.event t.out) (hindex : s.index ≤ s'.index)
    (hwaits : s'.index = -1 → s'.deadline = s.deadline)
    (hreleased : s.index = -1 → 0 ≤ s'.index → r.event.now + 2 / 5 ≤ t.event.now)
    (hshown : ∀ j : ℕ, (j : ℤ) ≤ s'.index → (j : ℤ) ≤ s.index ∨ Shows scales s.plan j t)
    (hbeat : s'.heartbeat = s.heartbeat ∨ Beats s.runId t.event ∧ t.event.now = s'.heartbeat)
    (hlow : -1 ≤ s.index) : Underway scales s' r (b ++ [t]) where
  start := by
    rw [hplan, hid]
    exact h.start
  noStart := by
    exact List.forall_mem_append.2 ⟨h.noStart, List.forall_mem_singleton.2 hnoStart⟩
  waits := fun hw => (hwaits hw).trans (h.waits (by omega))
  released := by
    intro hpos
    by_cases hbefore : 0 ≤ s.index
    · obtain ⟨u, hu, hlate⟩ := h.released hbefore
      exact ⟨u, List.mem_append_left _ hu, hlate⟩
    · exact ⟨t, List.mem_append_right _ (List.mem_singleton_self t), hreleased (by omega) hpos⟩
  shown := by
    intro j hj
    rw [hplan]
    rcases hshown j hj with hold | hnew
    · obtain ⟨u, hu, hshows⟩ := h.shown j hold
      exact ⟨u, List.mem_append_left _ hu, hshows⟩
    · exact ⟨t, List.mem_append_right _ (List.mem_singleton_self t), hnew⟩
  bound := by
    intro u hu j hshows
    rcases List.mem_append.1 hu with hu | hu
    · rw [hplan] at hshows
      exact (h.bound u hu j hshows).trans hindex
    · rw [List.mem_singleton.1 hu] at hshows
      exact (hpost ▸ hshows.2.1).ge
  beat := by
    rw [hid]
    rcases hbeat with hsame | ⟨hbeats, hnow⟩
    · obtain ⟨u, hu, hwhich, hnow⟩ := h.beat
      rw [hsame]
      exact ⟨u, by rw [← List.cons_append]; exact List.mem_append_left _ hu, hwhich, hnow⟩
    · exact ⟨t, List.mem_cons_of_mem _ (List.mem_append_right _ (List.mem_singleton_self t)),
        .inr hbeats, hnow⟩

theorem underway_start {t : BridgeStep} (hstarts : Starts s.runId s.plan t)
    (hindex : s.index = -1) (hdeadline : s.deadline = t.event.now + 2 / 5)
    (hheartbeat : t.event.now = s.heartbeat) : Underway scales s t [] where
  start := hstarts
  noStart := fun u hu => absurd hu List.not_mem_nil
  waits := fun _ => hdeadline
  released := fun hpos => absurd (hindex ▸ hpos) (by decide)
  shown := fun j hj => absurd (hindex ▸ hj) (not_le.2 (by omega))
  bound := fun u hu => absurd hu List.not_mem_nil
  beat := ⟨t, List.mem_cons_self, .inl rfl, hheartbeat⟩

/-- One more event keeps the account of the run. -/
theorem Running.step (h : Running scales past s) (e : Event) :
    Running scales (past ++ [stepOf (Blockly.step scales) s e]) (Blockly.step scales s e).1 := by
  have hmove := @move_step scales s h.index e
  have hpost : (stepOf (Blockly.step scales) s e).post = (Blockly.step scales s e).1 := rfl
  generalize hs' : (Blockly.step scales s e).1 = s' at hmove hpost ⊢
  generalize hout : (Blockly.step scales s e).2 = out at hmove
  have hout' : (stepOf (Blockly.step scales) s e).out = out := hout
  have hevent : (stepOf (Blockly.step scales) s e).event = e := rfl
  generalize stepOf (Blockly.step scales) s e = t at hpost hout' hevent ⊢
  -- the old run goes on
  have hgoes : ∀ {a r b}, past = a ++ r :: b → Underway scales s' r (b ++ [t]) →
      ∃ a r b, past ++ [t] = a ++ r :: b ∧ Underway scales s' r b := by
    rintro a r b rfl hunder
    exact ⟨a, r, b ++ [t], by rw [List.append_assoc, List.cons_append], hunder⟩
  cases hmove with
  | idle same noStart published =>
    refine ⟨same.index ▸ h.index, fun hplan => ?_⟩
    rw [same.plan] at hplan
    obtain ⟨a, r, b, hpast, hunder⟩ := h.started hplan
    refine hgoes hpast (hunder.snoc t hpost same.plan same.runId ?_ same.index.ge
      (fun _ => same.deadline) ?_ ?_ (.inl same.heartbeat) h.index)
    · rw [hevent, hout']
      exact noStart
    · intro hwaits hpos
      rw [same.index, hwaits] at hpos
      omega
    · intro j hj
      exact .inl (same.index ▸ hj)
  | beats event running eq published =>
    have hindex : s'.index = s.index := by rw [eq]
    refine ⟨hindex ▸ h.index, fun _ => ?_⟩
    obtain ⟨a, r, b, hpast, hunder⟩ := h.started running
    refine hgoes hpast (hunder.snoc t hpost (by rw [eq]) (by rw [eq]) ?_ hindex.ge
      (fun _ => by rw [eq]) ?_ ?_ (.inr ⟨hevent ▸ event, ?_⟩) h.index)
    · rw [hevent]
      rintro ⟨_, _, _, _, hrun, -⟩
      obtain ⟨_, _, _, hheartbeat, -⟩ := event
      rw [hrun] at hheartbeat
      cases hheartbeat
    · intro hwaits hpos
      rw [hindex, hwaits] at hpos
      omega
    · intro j hj
      exact .inl (hindex ▸ hj)
    · rw [eq, hevent]
  | ends ended index noStart published =>
    exact ⟨index h.index, fun hplan => absurd ended hplan⟩
  | starts now readyAt data runId plan status event named valid granted fresh free blockly
      published eq =>
    have hindex : s'.index = -1 := by rw [eq]
    have hplan : s'.plan = plan := by rw [eq]
    have hid : s'.runId = runId := by rw [eq]
    have hdeadline : s'.deadline = now + 2 / 5 := by rw [eq]
    have hheartbeat : s'.heartbeat = now := by rw [eq]
    have hnow : t.event.now = now := by rw [hevent, event]; rfl
    refine ⟨hindex.ge, fun _ => ⟨past, t, [], rfl, underway_start ?_ hindex ?_ ?_⟩⟩
    · rw [hplan, hid]
      exact ⟨now, readyAt, data, status, hevent.trans event, hout' ▸ granted, named, valid⟩
    · rw [hdeadline, hnow]
    · rw [hheartbeat, hnow]
  | publishes now readyAt k planStep event blockly fresh nth kept index order published =>
    refine ⟨by omega, fun hplan => ?_⟩
    rw [kept.1] at hplan
    obtain ⟨a, r, b, hpast, hunder⟩ := h.started hplan
    refine hgoes hpast (hunder.snoc t hpost kept.1 kept.2.1 ?_ ?_ ?_ ?_ ?_ (.inl kept.2.2.1)
      h.index)
    · rw [hevent, event]
      rintro ⟨_, _, _, _, hrun, -⟩
      cases hrun
    · omega
    · intro hwaits
      omega
    · intro hwaits _
      rcases order with hsame | ⟨-, hlate⟩
      · omega
      · rw [hevent, event, ← hunder.waits hwaits]
        exact hlate
    · intro j hj
      by_cases hk : j = k
      · subst hk
        exact .inr ⟨⟨now, readyAt, hevent.trans event⟩, hpost ▸ index, planStep, nth,
          (congrArg Out.published hout').trans published⟩
      · exact .inl (by omega)

end Runs

/-! ## The controller -/

/-- A valid centred message with the start button, in controller mode. -/
def Arms (t : BridgeStep) : Prop :=
  t.pre.mode = .controller ∧ ∃ now msg, t.event = .controller now msg ∧ validMsg msg = true ∧
    centred msg = true ∧ startButton msg = true ∧ stopButton msg = false

/-- An invalid message, the stop button, a change of mode, or a silence that a
tick sees. -/
def Disarms (t : BridgeStep) : Prop :=
  (∃ now msg, t.event = .controller now msg ∧ (validMsg msg = false ∨ stopButton msg = true)) ∨
    ChangesMode t.event ∨
    ∃ now readyAt, t.event = .tick now readyAt ∧
      (1 / 2 < now - t.pre.lastController ∨ t.pre.ready readyAt = false)

/-- What armed the controller, and that nothing has disarmed it. -/
def ArmedBy (past : List BridgeStep) : Prop :=
  ∃ a c b, past = a ++ c :: b ∧ Arms c ∧ ∀ u ∈ b, ¬ Disarms u

theorem armed_onController {now : ℚ} {msg : Joy} (hmode : s.mode = .controller)
    (h : (onController s now msg).controllerArmed = true) :
    (validMsg msg = true ∧ centred msg = true ∧ startButton msg = true ∧
        stopButton msg = false) ∨
      s.controllerArmed = true ∧ validMsg msg = true ∧ stopButton msg = false := by
  unfold onController at h
  rw [if_neg (not_not.2 hmode)] at h
  split at h
  · cases h
  · rename_i hvalid
    rw [Bool.not_eq_true', Bool.not_eq_false] at hvalid
    dsimp only at h
    rw [Bool.or_eq_true, Bool.and_eq_true, Bool.and_eq_true, Bool.and_eq_true, Bool.and_eq_true,
      Bool.not_eq_true'] at h
    rcases h with ⟨harmed, hstop⟩ | ⟨⟨⟨-, hcentred⟩, hstart⟩, hstop⟩
    · exact .inr ⟨harmed, hvalid, hstop⟩
    · exact .inl ⟨hvalid, hcentred, hstart, hstop⟩

theorem armed_tickController {now readyAt : ℚ}
    (h : (tickController scales s now readyAt).1.controllerArmed = true) :
    s.controllerArmed = true ∧ ¬ (1 / 2 < now - s.lastController ∨ s.ready readyAt = false) := by
  by_cases hsilent : 1 / 2 < now - s.lastController ∨ s.ready readyAt = false
  · unfold tickController at h
    rw [if_pos hsilent] at h
    cases h
  · refine ⟨?_, hsilent⟩
    unfold tickController at h
    rw [if_neg hsilent] at h
    dsimp only at h
    split at h <;> exact h

theorem forward_tickController {now readyAt : ℚ} {m : Joy}
    (h : m ∈ (tickController scales s now readyAt).2.published) (hm : m ≠ halt scales) :
    s.controllerArmed = true ∧ s.controllerMsg = some m ∧
      ¬ (1 / 2 < now - s.lastController ∨ s.ready readyAt = false) := by
  by_cases hsilent : 1 / 2 < now - s.lastController ∨ s.ready readyAt = false
  · unfold tickController at h
    rw [if_pos hsilent] at h
    exact absurd (List.mem_singleton.1 h) hm
  · unfold tickController at h
    rw [if_neg hsilent] at h
    dsimp only at h
    split at h
    · rename_i harmed hmsg
      exact ⟨harmed, by rw [List.mem_singleton.1 h]; exact hmsg, hsilent⟩
    · exact absurd (List.mem_singleton.1 h) hm

/-- A command arms nothing, and where the controller stays armed the mode does. -/
def Unarmed (s s' : Bridge) : Prop :=
  s'.controllerArmed = true → s.controllerArmed = true ∧ s'.mode = s.mode

theorem Unarmed.rfl : Unarmed s s := fun h => ⟨h, Eq.refl _⟩

theorem unarmed_changeMode (readyAt : ℚ) (data : List (List Char × Json)) :
    Unarmed s (changeMode scales s readyAt data).1 := by
  unfold changeMode
  split
  · exact .rfl
  · exact fun h => absurd h Bool.false_ne_true

theorem unarmed_stopRun (readyAt : ℚ) (runId : List Char) :
    Unarmed s (stopRun scales s readyAt runId).1 := by
  unfold stopRun
  split
  · exact .rfl
  · dsimp only
    split
    · exact fun h => absurd h Bool.false_ne_true
    · exact fun h => ⟨h, rfl⟩

theorem unarmed_beat (now readyAt : ℚ) (runId : List Char) :
    Unarmed s (beat s now readyAt runId).1 := by
  unfold beat
  split
  · exact fun h => ⟨h, rfl⟩
  · exact .rfl

theorem unarmed_startRun (now readyAt : ℚ) (runId : List Char) (data : List (List Char × Json)) :
    Unarmed s (startRun s now readyAt runId data).1 := by
  unfold startRun
  split
  · exact .rfl
  split
  · exact .rfl
  split
  · exact .rfl
  split
  · exact .rfl
  split
  · exact .rfl
  · exact fun h => ⟨h, rfl⟩

theorem unarmed_command (now readyAt : ℚ) (path : Path) (data : List (List Char × Json)) :
    Unarmed s (command scales s now readyAt path data).1 := by
  unfold command
  split
  · exact unarmed_changeMode readyAt data
  · split
    · exact .rfl
    · split
      · exact unarmed_stopRun readyAt _
      · exact unarmed_beat now readyAt _
      · exact unarmed_startRun now readyAt _ data
      · exact .rfl

theorem armed_tickPlan {now readyAt : ℚ}
    (h : (tickPlan scales s now readyAt).1.controllerArmed = true) :
    s.controllerArmed = true := by
  unfold tickPlan publishStep at h
  split at h
  · cases h
  split at h
  · exact h
  split at h
  · split at h <;> exact h
  · split at h
    · split at h
      · cases h
      · exact h
    · split at h <;> exact h

theorem step_tick_controller {now readyAt : ℚ} (hmode : s.mode = .controller) :
    step scales s (.tick now readyAt) = tickController scales s now readyAt := by
  unfold step
  dsimp only
  rw [hmode]

/-- After an event the controller is armed because of it, or it was armed before
and the event does not disarm it. -/
theorem armed_step (hmode : s.controllerArmed = true → s.mode = .controller) (e : Event)
    (h : (step scales s e).1.controllerArmed = true) :
    (step scales s e).1.mode = .controller ∧
      (Arms (stepOf (step scales) s e) ∨
        s.controllerArmed = true ∧ ¬ Disarms (stepOf (step scales) s e)) := by
  cases e with
  | controller now msg =>
    have h' : (onController s now msg).controllerArmed = true := h
    by_cases hcontroller : s.mode = .controller
    · have hkept : (onController s now msg).mode = s.mode := by
        unfold onController
        split
        · rfl
        · split <;> rfl
      refine ⟨hkept.trans hcontroller, ?_⟩
      rcases armed_onController hcontroller h' with hnew | ⟨hold, hvalid, hstop⟩
      · exact .inl ⟨hcontroller, now, msg, rfl, hnew⟩
      · refine .inr ⟨hold, ?_⟩
        rintro (⟨_, _, heq, hbad⟩ | ⟨_, _, _, _, heq, -⟩ | ⟨_, _, heq, -⟩)
        · cases heq
          rcases hbad with hbad | hbad
          · exact Bool.false_ne_true (hbad.symm.trans hvalid)
          · exact Bool.false_ne_true (hstop.symm.trans hbad)
        · cases heq
        · cases heq
    · unfold onController at h'
      rw [if_pos hcontroller] at h'
      exact absurd (hmode h') hcontroller
  | odom now pose =>
    refine ⟨hmode h, .inr ⟨h, ?_⟩⟩
    rintro (⟨_, _, heq, -⟩ | ⟨_, _, _, _, heq, -⟩ | ⟨_, _, heq, -⟩) <;> cases heq
  | tick now readyAt =>
    cases hcontroller : s.mode with
    | controller =>
      rw [step_tick_controller hcontroller] at h ⊢
      obtain ⟨hold, hheard⟩ := armed_tickController h
      refine ⟨?_, .inr ⟨hold, ?_⟩⟩
      · unfold tickController
        rw [if_neg hheard]
        dsimp only
        split <;> exact hcontroller
      · rintro (⟨_, _, heq, -⟩ | ⟨_, _, _, _, heq, -⟩ | ⟨_, _, heq, hsilent⟩)
        · cases heq
        · cases heq
        · cases heq
          exact hheard hsilent
    | blockly =>
      have hstep : step scales s (.tick now readyAt) = tickPlan scales s now readyAt := by
        unfold step
        dsimp only
        rw [hcontroller]
      rw [hstep] at h
      rw [hmode (armed_tickPlan h)] at hcontroller
      cases hcontroller
  | command now readyAt path data =>
    obtain ⟨hold, hkept⟩ := @unarmed_command scales s now readyAt path data h
    refine ⟨hkept.trans (hmode hold), .inr ⟨hold, ?_⟩⟩
    rintro (⟨_, _, heq, -⟩ | hmodes | ⟨_, _, heq, -⟩)
    · cases heq
    · have hoff : (step scales s (.command now readyAt path data)).1.controllerArmed = false :=
        (mode_step hmodes).2
      exact Bool.false_ne_true (hoff.symm.trans h)
    · cases heq

end Questix.Blockly
