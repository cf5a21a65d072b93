/-
Questix.Blockly.BridgeRuns — what the node keeps over every run.

`Account` is what is known after any number of events; `Kept` is read off it.
An id is remembered only while it is the latest one or once it has been
stopped, so a run that came to its end can be started again by the request
that started it, when another has been in between (`reruns`).
-/
import Mathlib.Tactic.NormNum
import Questix.Blockly.BridgeTheorems

namespace Questix.Blockly

open Questix.Lib

variable {scales : Scales} {s : Bridge}

/-! ## Every run -/

/-- What the node keeps over a run, step by step. -/
structure Account (scales : Scales) (past : List BridgeStep) (s : Bridge) : Prop where
  running : Running scales past s
  stopped : ∀ u ∈ past, ∀ runId, AsksStop runId u.event → runId ∈ s.cancelled
  odom : (s.lastOdom = 0 ∧ ∀ u ∈ past, ¬ IsOdom u.event) ∨
    ∃ u ∈ past, IsOdom u.event ∧ u.event.now = s.lastOdom
  armed : s.controllerArmed = true → s.mode = .controller ∧ ArmedBy past

/-- The step does not meet what the node forgets: a request to stop finds room to
be remembered, no request to run brings up an older run that came to its end, and
a plan is not run in the first moment of the clock without any odometry. -/
structure Careful (past : List BridgeStep) (t : BridgeStep) : Prop where
  room : ∀ runId, AsksStop runId t.event → t.pre.cancelled.card ≤ 10000
  again : ∀ runId, AsksRun runId t.event → (∃ u ∈ past, ∃ plan, Starts runId plan u) →
    runId = t.pre.runId ∨ runId ∈ t.pre.cancelled
  clock : ∀ now readyAt, t.event = .tick now readyAt → t.pre.plan ≠ [] →
    (∃ u ∈ past, IsOdom u.event) ∨ 7 / 10 ≤ readyAt

theorem Account.step {past : List BridgeStep} (h : Account scales past s) (e : Event)
    (hroom : ∀ runId, AsksStop runId e → s.cancelled.card ≤ 10000) :
    Account scales (past ++ [stepOf (Blockly.step scales) s e]) (Blockly.step scales s e).1 where
  running := h.running.step e
  stopped := by
    intro u hu runId hasks
    rcases List.mem_append.1 hu with hu | hu
    · exact cancelled_step e (h.stopped u hu runId hasks)
    · rw [List.mem_singleton.1 hu] at hasks
      exact (stop_step hasks (hroom runId hasks)).1
  odom := by
    rcases @framed_step scales s e with ⟨hframed, hother⟩ | ⟨hodom, hnow, -⟩
    · rw [hframed.lastOdom]
      refine h.odom.imp ?_ ?_
      · rintro ⟨hzero, hnone⟩
        refine ⟨hzero, fun u hu => ?_⟩
        rcases List.mem_append.1 hu with hu | hu
        · exact hnone u hu
        · rw [List.mem_singleton.1 hu]
          exact hother
      · rintro ⟨u, hu, hodom⟩
        exact ⟨u, List.mem_append_left _ hu, hodom⟩
    · exact .inr ⟨_, List.mem_append_right _ (List.mem_singleton_self _), hodom, hnow.symm⟩
  armed := by
    intro harmed
    obtain ⟨hmode, hwhy⟩ := armed_step (fun hold => (h.armed hold).1) e harmed
    refine ⟨hmode, ?_⟩
    rcases hwhy with hnew | ⟨hold, hkept⟩
    · exact ⟨past, _, [], rfl, hnew, fun u hu => absurd hu List.not_mem_nil⟩
    · obtain ⟨a, c, b, rfl, harms, hquiet⟩ := (h.armed hold).2
      refine ⟨a, c, b ++ [_], by rw [List.append_assoc, List.cons_append], harms, ?_⟩
      exact List.forall_mem_append.2 ⟨hquiet, List.forall_mem_singleton.2 hkept⟩

/-- Step `k` of the plan that is under way is due at the tick, and the ones before
it have been published. -/
structure InOrder (scales : Scales) (past : List BridgeStep) (now readyAt : ℚ) (m : Joy)
    (k : ℕ) : Prop where
  run : ∃ a r b runId plan planStep, past = a ++ r :: b ∧ Starts runId plan r ∧
    (∀ u ∈ b, ¬ IsStart u.event u.out) ∧ plan[k]? = some planStep ∧
    m = joyOf scales planStep.v planStep.w true ∧
    (∀ j < k, ∃ u ∈ b, Shows scales plan j u) ∧
    (∀ u ∈ b, ∀ j, Shows scales plan j u → j ≤ k) ∧
    r.event.now + 2 / 5 ≤ now ∧
    ∃ u ∈ r :: b, (u = r ∨ Beats runId u.event) ∧ now - u.event.now ≤ 6 / 5
  odom : ∃ u ∈ past, IsOdom u.event ∧ readyAt - u.event.now < 7 / 10

/-- A run waits for the release delay. -/
def Waits (scales : Scales) (past : List BridgeStep) (now : ℚ) (m : Joy) : Prop :=
  m = joyOf scales 0 0 true ∧ ∃ a r b runId plan, past = a ++ r :: b ∧ Starts runId plan r ∧
    (∀ u ∈ b, ¬ IsStart u.event u.out) ∧ now < r.event.now + 2 / 5

/-- What the node owes the robot over a run. -/
structure Kept (scales : Scales) (es : List Event) : Prop where
  /-- An id starts one plan at most, and none after a request to stop it. -/
  once : ∀ a t b runId plan, trace (step scales) {} es = a ++ t :: b → Starts runId plan t →
    ∀ u ∈ a, (∀ plan', ¬ Starts runId plan' u) ∧ ¬ AsksStop runId u.event
  /-- A request to stop the run, or a change of mode, ends the plan: until the next
  start nothing of a plan is published. -/
  stops : ∀ a t b, trace (step scales) {} es = a ++ t :: b →
    AsksStop t.pre.runId t.event ∨ ChangesMode t.event → t.post.plan = [] ∧
      ∀ x u y, b = x ++ u :: y → (∀ v ∈ x, ¬ IsStart v.event v.out) →
        u.pre.mode = .blockly → ∀ m ∈ u.out.published, m = halt scales
  /-- What a tick publishes in Blockly's mode. -/
  order : ∀ a t b now readyAt, trace (step scales) {} es = a ++ t :: b →
    t.event = .tick now readyAt → t.pre.mode = .blockly → ∀ m ∈ t.out.published,
      m = halt scales ∨ Waits scales a now m ∨ ∃ k, InOrder scales a now readyAt m k
  /-- And what it passes on of the controller. -/
  forwards : ∀ a t b now readyAt, trace (step scales) {} es = a ++ t :: b →
    t.event = .tick now readyAt → t.pre.mode = .controller → ∀ m ∈ t.out.published,
      m = halt scales ∨ t.pre.controllerMsg = some m ∧ ArmedBy a ∧ ¬ Disarms t

section Trace

variable {es : List Event} {a b : List BridgeStep} {t : BridgeStep}

theorem account_start : Account scales [] {} where
  running := ⟨by decide, fun h => absurd rfl h⟩
  stopped := fun u hu => absurd hu List.not_mem_nil
  odom := .inl ⟨rfl, fun u hu => absurd hu List.not_mem_nil⟩
  armed := fun h => absurd h Bool.false_ne_true

theorem account_at (hcareful : ∀ a t b, trace (step scales) {} es = a ++ t :: b → Careful a t)
    (h : trace (step scales) {} es = a ++ t :: b) :
    Account scales a t.pre ∧ t = stepOf (step scales) t.pre t.event := by
  refine ⟨?_, eq_stepOf_of_mem_trace (h ▸ List.mem_append_right a List.mem_cons_self)⟩
  obtain ⟨es₁, e, es₂, rfl, rfl, rfl, -⟩ := trace_split h
  refine trace_history (I := Account scales)
    (fun _ t => ∀ runId, AsksStop runId t.event → t.pre.cancelled.card ≤ 10000) account_start
    (fun past s e hpast hroom => hpast.step e hroom) es₁ ?_
  intro a' t' b' hsplit
  refine (hcareful a' t'
    (b' ++ trace (step scales) (final (step scales) {} es₁) (e :: es₂)) ?_).room
  rw [trace_append, hsplit, List.append_assoc, List.cons_append]

theorem starts_spec {runId : List Char} {plan : List PlanStep} (hindex : -1 ≤ t.pre.index)
    (ht : t = stepOf (step scales) t.pre t.event) (h : Starts runId plan t) :
    runId ∉ t.pre.cancelled ∧ runId ≠ t.pre.runId ∧ AsksRun runId t.event := by
  obtain ⟨now, readyAt, data, status, hevent, hanswer, hnamed, hvalid⟩ := h
  have hmove := @move_step scales t.pre hindex t.event
  have hout : t.out = (step scales t.pre t.event).2 := congrArg Step.out ht
  have hstart : IsStart t.event t.out := ⟨now, readyAt, data, status, hevent, hanswer⟩
  rw [← hout] at hmove
  cases hmove with
  | idle same noStart published => exact absurd hstart noStart
  | beats event running eq published =>
    obtain ⟨_, _, _, hheartbeat, -⟩ := event
    rw [hevent] at hheartbeat
    cases hheartbeat
  | ends ended index noStart published => exact absurd hstart noStart
  | starts now' readyAt' data' runId' plan' status' event named valid granted fresh free blockly
      published eq =>
    rw [hevent] at event
    cases event
    rw [hnamed] at named
    cases named
    exact ⟨fresh.1, fresh.2, now, readyAt, data, hevent, hnamed⟩
  | publishes now' readyAt' k planStep event blockly fresh nth kept index order published =>
    rw [hevent] at event
    cases event

theorem halt_of_free (hindex : -1 ≤ t.pre.index) (ht : t = stepOf (step scales) t.pre t.event)
    (hfree : t.pre.plan = []) (hmode : t.pre.mode = .blockly) :
    ∀ m ∈ t.out.published, m = halt scales := by
  have hmove := @move_step scales t.pre hindex t.event
  have hout : t.out = (step scales t.pre t.event).2 := congrArg Step.out ht
  rw [← hout] at hmove
  intro m hm
  cases hmove with
  | idle same noStart published =>
    exact (published hmode m hm).resolve_right fun h => h.2.1 hfree
  | beats event running eq published => exact absurd hfree running
  | ends ended index noStart published => exact published m hm
  | starts now readyAt data runId plan status event named valid granted fresh free blockly
      published eq =>
    rw [published] at hm
    cases hm
  | publishes now readyAt k planStep event blockly fresh nth kept index order published =>
    rw [hfree] at nth
    cases nth

theorem free_step (hindex : -1 ≤ s.index) (hfree : s.plan = []) (e : Event)
    (hnoStart : ¬ IsStart e (step scales s e).2) :
    (step scales s e).1.plan = [] ∧ -1 ≤ (step scales s e).1.index := by
  have hmove := @move_step scales s hindex e
  generalize (step scales s e).1 = s' at hmove ⊢
  generalize (step scales s e).2 = out at hmove hnoStart
  cases hmove with
  | idle same noStart published => exact ⟨same.plan.trans hfree, same.index ▸ hindex⟩
  | beats event running eq published => exact absurd hfree running
  | ends ended index noStart published => exact ⟨ended, index hindex⟩
  | starts now readyAt data runId plan status event named valid granted fresh free blockly
      published eq => exact absurd ⟨now, readyAt, data, status, event, granted⟩ hnoStart
  | publishes now readyAt k planStep event blockly fresh nth kept index order published =>
    rw [hfree] at nth
    cases nth

theorem once_of_careful (hacc : Account scales a t.pre)
    (ht : t = stepOf (step scales) t.pre t.event) (hcareful : Careful a t) {runId : List Char}
    {plan : List PlanStep} (hstarts : Starts runId plan t) :
    ∀ u ∈ a, (∀ plan', ¬ Starts runId plan' u) ∧ ¬ AsksStop runId u.event := by
  intro u hu
  obtain ⟨hnot, hne, hasks⟩ := starts_spec hacc.running.index ht hstarts
  refine ⟨fun plan' hearlier => ?_, fun hstop => hnot (hacc.stopped u hu runId hstop)⟩
  rcases hcareful.again runId hasks ⟨u, hu, plan', hearlier⟩ with hsame | hcancelled
  · exact hne hsame
  · exact hnot hcancelled

theorem quiet_of_free {es₂ : List Event} (hindex : -1 ≤ s.index) (hfree : s.plan = [])
    {x y : List BridgeStep} {u : BridgeStep} (h : trace (step scales) s es₂ = x ++ u :: y)
    (hnoStart : ∀ v ∈ x, ¬ IsStart v.event v.out) (hmode : u.pre.mode = .blockly) :
    ∀ m ∈ u.out.published, m = halt scales := by
  obtain ⟨es₃, e, es₄, rfl, rfl, rfl, -⟩ := trace_split h
  have hmem : ∀ v ∈ trace (step scales) s es₃, v = stepOf (step scales) v.pre v.event :=
    fun v hv => eq_stepOf_of_mem_trace hv
  have hkeep : ∀ v ∈ trace (step scales) s es₃, (v.pre.plan = [] ∧ -1 ≤ v.pre.index) →
      ¬ IsStart v.event v.out → v.post.plan = [] ∧ -1 ≤ v.post.index := by
    intro v hv hpre hquiet
    have hpost : v.post = (step scales v.pre v.event).1 := congrArg Step.post (hmem v hv)
    have hout : v.out = (step scales v.pre v.event).2 := congrArg Step.out (hmem v hv)
    rw [hpost]
    exact free_step hpre.2 hpre.1 v.event (hout ▸ hquiet)
  obtain ⟨hstill, hlow⟩ := final_of_no_release (L := fun v => v.plan = [] ∧ -1 ≤ v.index)
    (fun v => IsStart v.event v.out) es₃ s ⟨hfree, hindex⟩ hkeep hnoStart
  exact halt_of_free hlow rfl hstill hmode

/-- What a tick publishes of a plan that is under way. -/
theorem order_of_careful (hacc : Account scales a t.pre)
    (ht : t = stepOf (step scales) t.pre t.event) (hearlier : ∀ r ∈ a, r.event.now ≤ t.event.now)
    (hcareful : Careful a t) {now readyAt : ℚ} (hevent : t.event = .tick now readyAt)
    (hmode : t.pre.mode = .blockly) :
    ∀ m ∈ t.out.published,
      m = halt scales ∨ Waits scales a now m ∨ ∃ k, InOrder scales a now readyAt m k := by
  intro m hm
  have hnow : t.event.now = now := by rw [hevent]; rfl
  have hmove := @move_step scales t.pre hacc.running.index t.event
  have hout : t.out = (step scales t.pre t.event).2 := congrArg Step.out ht
  rw [← hout] at hmove
  cases hmove with
  | idle same noStart published =>
    rcases published hmode m hm with hhalt | ⟨hstill, hplan, hindex, hearly⟩
    · exact .inl hhalt
    · obtain ⟨x, r, y, hpast, hunder⟩ := hacc.running.started hplan
      rw [hunder.waits hindex, hnow] at hearly
      exact .inr (.inl ⟨hstill, x, r, y, _, _, hpast, hunder.start, hunder.noStart, hearly⟩)
  | beats event running eq published =>
    rw [published] at hm
    cases hm
  | ends ended index noStart published => exact .inl (published m hm)
  | starts now' readyAt' data runId plan status event named valid granted fresh free blockly
      published eq =>
    rw [published] at hm
    cases hm
  | publishes now' readyAt' k planStep event blockly fresh nth kept index order published =>
    rw [hevent] at event
    cases event
    rw [published, List.mem_singleton] at hm
    have hplan : t.pre.plan ≠ [] := fun hnone => by
      rw [hnone] at nth
      cases nth
    obtain ⟨x, r, y, hpast, hunder⟩ := hacc.running.started hplan
    have hlate : r.event.now + 2 / 5 ≤ now := by
      by_cases hwaits : t.pre.index = -1
      · rw [← hunder.waits hwaits]
        exact (order.resolve_left (by omega)).2
      · obtain ⟨u, hu, hreleased⟩ := hunder.released (by have := hacc.running.index; omega)
        have hpassed := hearlier u (by
          rw [hpast]
          exact List.mem_append_right _ (List.mem_cons_of_mem _ hu))
        rw [hnow] at hpassed
        exact hreleased.trans hpassed
    refine .inr (.inr ⟨k, ⟨x, r, y, _, _, planStep, hpast, hunder.start, hunder.noStart, nth, hm,
      fun j hj => hunder.shown j (by omega), fun u hu j hshows => ?_, hlate, ?_⟩, ?_⟩)
    · have := hunder.bound u hu j hshows
      omega
    · obtain ⟨u, hu, hwhich, hbeat⟩ := hunder.beat
      exact ⟨u, hu, hwhich, hbeat ▸ fresh.1⟩
    · rcases hacc.odom with ⟨hzero, hnone⟩ | ⟨u, hu, hodom, hlast⟩
      · have hready := fresh.2
        rw [hzero] at hready
        rcases hcareful.clock now readyAt hevent hplan with ⟨u, hu, hodom⟩ | hlater
        · exact absurd hodom (hnone u hu)
        · linarith
      · exact ⟨u, hu, hodom, hlast ▸ fresh.2⟩

theorem forwards_of_armed (hacc : Account scales a t.pre)
    (ht : t = stepOf (step scales) t.pre t.event) {now readyAt : ℚ}
    (hevent : t.event = .tick now readyAt) (hmode : t.pre.mode = .controller) :
    ∀ m ∈ t.out.published,
      m = halt scales ∨ t.pre.controllerMsg = some m ∧ ArmedBy a ∧ ¬ Disarms t := by
  intro m hm
  have hout : t.out = (tickController scales t.pre now readyAt).2 := by
    rw [ht, hevent]
    exact congrArg Prod.snd (step_tick_controller hmode)
  by_cases hhalt : m = halt scales
  · exact .inl hhalt
  rw [hout] at hm
  obtain ⟨harmed, hmsg, hheard⟩ := forward_tickController hm hhalt
  refine .inr ⟨hmsg, (hacc.armed harmed).2, ?_⟩
  rintro (⟨_, _, heq, -⟩ | ⟨_, _, _, _, heq, -⟩ | ⟨_, _, heq, hsilent⟩)
  · rw [hevent] at heq
    cases heq
  · rw [hevent] at heq
    cases heq
  · rw [hevent] at heq
    cases heq
    exact hheard hsilent

end Trace

/-! ## A run that is started twice -/

theorem planField_eq_ok {members : List (List Char × Json)} {field : String} {limit x : ℚ}
    (hx : finiteNumber (Json.get members field.toList) = some x) (hlimit : |x| ≤ limit) :
    planField members field limit = .ok x := by
  unfold planField
  rw [hx]
  exact if_pos hlimit

def pauseMembers : List (List Char × Json) :=
  [("v".toList, .int 0), ("w".toList, .int 0), ("seconds".toList, .float (.fin (1 / 10)))]

theorem planStep_pause : planStep (.obj pauseMembers) = .ok ⟨0, 0, 1 / 10⟩ := by
  have hv : planField pauseMembers "v" (4 / 5) = .ok 0 := planField_eq_ok rfl (by norm_num)
  have hw : planField pauseMembers "w" (3 / 2) = .ok 0 := planField_eq_ok rfl (by norm_num)
  have hseconds : planField pauseMembers "seconds" 10 = .ok (1 / 10) :=
    planField_eq_ok rfl (by norm_num)
  have hkeys : (pauseMembers.map Prod.fst).toFinset =
      {"v".toList, "w".toList, "seconds".toList} := by rfl
  unfold planStep
  dsimp only
  rw [if_pos hkeys, hv, hw, hseconds]
  exact if_neg (by norm_num)

theorem validatePlan_pause :
    validatePlan (.arr [.obj pauseMembers]) = .ok [⟨0, 0, 1 / 10⟩] := by
  have hitems : [Json.obj pauseMembers].mapM planStep = .ok [⟨0, 0, 1 / 10⟩] := by
    simp only [List.mapM_cons, List.mapM_nil, planStep_pause]
    rfl
  unfold validatePlan
  dsimp only
  rw [if_pos (by decide), hitems]
  exact if_neg (by norm_num)

/-- A request for a plan of one short pause. -/
def pauseData (runId : String) : List (List Char × Json) :=
  [("id".toList, .str runId.toList), ("plan".toList, .arr [.obj pauseMembers])]

theorem step_run_pause {runId : String} (now : ℚ)
    (hnamed : runIdOf (Json.get (pauseData runId) "id".toList) = some runId.toList)
    (hmode : s.mode = .blockly) (hid : ¬ (runId.toList ∈ s.cancelled ∨ runId.toList = s.runId))
    (hfree : s.plan = []) (hready : now - s.lastOdom < 7 / 10) :
    step scales s (.command now now .run (pauseData runId)) = answer { s with
      runId := runId.toList
      plan := [⟨0, 0, 1 / 10⟩]
      index := -1
      heartbeat := now
      deadline := now + 2 / 5
      reason := "実行中" } now [] := by
  have hplan : validatePlan (Json.get (pauseData runId) "plan".toList) = .ok [⟨0, 0, 1 / 10⟩] :=
    validatePlan_pause
  have hready' : s.ready now = true := decide_eq_true hready
  show command scales s now now .run (pauseData runId) = _
  unfold command
  dsimp only
  rw [hnamed]
  dsimp only
  unfold startRun
  rw [if_neg (not_not.2 hmode), hplan]
  dsimp only
  rw [if_neg hid, if_neg (not_not.2 hfree), if_neg (by rw [hready']; exact Bool.noConfusion)]

/-- A run whose first step is published. -/
def pauseShown : List Event :=
  [.odom 1 ⟨0, 0, 0, 0, 0⟩, .command 1 1 .run (pauseData "a"), .tick (7 / 5) (7 / 5)]

/-- A run of one short pause comes to its end, and a second one is stopped. -/
def secondStopped : List Event :=
  [.odom 1 ⟨0, 0, 0, 0, 0⟩,
    .command 1 1 .run (pauseData "a"),
    .tick (7 / 5) (7 / 5),
    .tick (3 / 2) (3 / 2),
    .command (3 / 2) (3 / 2) .run (pauseData "b"),
    .command (3 / 2) (3 / 2) .stop (pauseData "b")]

theorem secondStopped_steps : ∃ s₁ s₂ s₃ s₄ s₅ s₆ : Bridge,
    step scales {} (.odom 1 ⟨0, 0, 0, 0, 0⟩) = (s₁, {}) ∧
    step scales s₁ (.command 1 1 .run (pauseData "a")) = answer s₂ 1 [] ∧
    (step scales s₂ (.tick (7 / 5) (7 / 5))).1 = s₃ ∧
    (step scales s₃ (.tick (3 / 2) (3 / 2))).1 = s₄ ∧
    step scales s₄ (.command (3 / 2) (3 / 2) .run (pauseData "b")) = answer s₅ (3 / 2) [] ∧
    (step scales s₅ (.command (3 / 2) (3 / 2) .stop (pauseData "b"))).1 = s₆ ∧
    s₆.mode = .blockly ∧ s₆.runId = "b".toList ∧ s₆.cancelled = {"b".toList} ∧ s₆.plan = [] ∧
    s₆.lastOdom = 1 := by
  have hb : runIdOf (Json.get (pauseData "b") "id".toList) = some "b".toList := rfl
  have hne : "b".toList ≠ "a".toList := by decide
  refine ⟨_, _, _, _, _, _, rfl, step_run_pause 1 rfl rfl ?_ rfl ?_, rfl, rfl,
    step_run_pause (3 / 2) rfl ?_ ?_ ?_ ?_, rfl, ?_⟩
  · simp [onOdom]
  · norm_num [onOdom]
  all_goals norm_num [step, onOdom, tickPlan, Bridge.ready, publishStep, Bridge.stop, command,
    stopRun, answer, hb, hne]

/-- Then the first one is asked for once more. -/
def rerun : List Event := secondStopped ++ [.command (3 / 2) (3 / 2) .run (pauseData "a")]

end Questix.Blockly
