/-
Questix.LabBridge.SaveTheorems — every save of a page gets its own answer.

Answers carry no name, so everything rests on order. On one connection the
answers under way, the tasks of the bridge and the frames under way stand in
the order of the page's queue (`waiting`), and every move of the bridge keeps
them there (`BridgeMoves`): its end may lose what is behind, never what is in
front. That an answer says what the bridge did is kept beside it (`Genuine`),
and so are the counters (`Counted`) and the promises (`Once`).
-/
import Mathlib.Algebra.BigOperators.Group.Finset.Basic
import Mathlib.Algebra.Order.BigOperators.Group.Finset
import Questix.LabBridge.SaveLink

namespace Questix.LabBridge

open Questix.Lib

variable {R : Type*} {c : ℕ}

/-! ## Counters -/

namespace SaveClient

/-- The frames of a client that are kept for writing. -/
def held (client : SaveClient R) : ℕ := client.tasks.countP fun task => task.text.isSome

/-- The counters of a client say what its tasks are. -/
structure Counted (client : SaveClient R) : Prop where
  owed : client.owedAnswers = client.tasks.length
  admitted : client.admittedSaves = client.held
  owed_le : client.owedAnswers ≤ maxOwedAnswersPerClient
  admitted_le : client.admittedSaves ≤ maxAdmittedSavesPerClient

/-- The calls the bridge has of a client, from the oldest on. -/
def calls (client : SaveClient R) : List CallId :=
  client.outbox.map SaveAnswer.call ++ client.tasks.map SaveTask.call

end SaveClient

/-! ## What an answer says -/

section Genuine

/-- An answer that names an id is about a recording of the call stored under it. -/
def Truthful (log : List (SaveEffect R)) (call : CallId) (reply : SaveReply) : Prop :=
  ∀ id, reply = .recordSaved id →
    ∃ recording, .called call recording ∈ log ∧ .stored call recording id ∈ log

/-- The answer is the one the bridge gave to its call. -/
structure Genuine (log : List (SaveEffect R)) (answer : SaveAnswer) : Prop where
  answered : .answered answer.call answer.reply ∈ log
  truthful : Truthful log answer.call answer.reply

/-- A task writes the recording of its call, and its worker's answer is about
it. -/
structure SaveTask.Genuine (log : List (SaveEffect R)) (task : SaveTask R) : Prop where
  text : ∀ frame, task.text = some frame →
    frame.call = task.call ∧ .called frame.call frame.recording ∈ log
  written : ∀ reply, task.stage = .written reply → Truthful log task.call reply

structure SaveClient.Genuine (log : List (SaveEffect R)) (client : SaveClient R) : Prop where
  tasks : ∀ task ∈ client.tasks, task.Genuine log
  outbox : ∀ answer ∈ client.outbox, Questix.LabBridge.Genuine log answer

variable {log : List (SaveEffect R)} {call : CallId} {reply : SaveReply}

theorem Truthful.append (h : Truthful log call reply) (effects : List (SaveEffect R)) :
    Truthful (log ++ effects) call reply := by
  intro id hid
  obtain ⟨recording, hcalled, hstored⟩ := h id hid
  exact ⟨recording, List.mem_append_left _ hcalled, List.mem_append_left _ hstored⟩

theorem truthful_error (message : String) : Truthful log call (.recordError message) := by
  intro id hid
  cases hid

theorem Genuine.append {answer : SaveAnswer} (h : Genuine log answer)
    (effects : List (SaveEffect R)) : Genuine (log ++ effects) answer :=
  ⟨List.mem_append_left _ h.answered, h.truthful.append effects⟩

theorem SaveTask.Genuine.append {task : SaveTask R} (h : task.Genuine log)
    (effects : List (SaveEffect R)) : task.Genuine (log ++ effects) where
  text frame hframe := by
    obtain ⟨hcall, hcalled⟩ := h.text frame hframe
    exact ⟨hcall, List.mem_append_left _ hcalled⟩
  written reply hreply := (h.written reply hreply).append effects

theorem SaveClient.Genuine.append {client : SaveClient R} (h : client.Genuine log)
    (effects : List (SaveEffect R)) : client.Genuine (log ++ effects) where
  tasks task htask := (h.tasks task htask).append effects
  outbox answer hanswer := (h.outbox answer hanswer).append effects

end Genuine

namespace SaveServer

variable {s s' : SaveServer R} {client : SaveClient R}

/-- The counters of the server say what its clients hold. -/
structure Counted (s : SaveServer R) : Prop where
  client : ∀ c, (s.client c).Counted
  fresh : ∀ c, s.nextId ≤ c → (s.client c).tasks = [] ∧ (s.client c).outbox = []
  known : ∀ c ∈ s.clients, c < s.nextId
  total : s.admittedSaves = ∑ c ∈ Finset.range s.nextId, (s.client c).held
  total_le : s.admittedSaves ≤ maxAdmittedSaves

theorem sum_update {f : ℕ → SaveClient R} {n : ℕ} (hc : c < n) :
    ∑ i ∈ Finset.range n, (Function.update f c client i).held + (f c).held =
      ∑ i ∈ Finset.range n, (f i).held + client.held := by
  have hmem : c ∈ Finset.range n := Finset.mem_range.2 hc
  rw [← Finset.add_sum_erase _ _ hmem, ← Finset.add_sum_erase _ (fun i => (f i).held) hmem]
  have hrest : ∑ i ∈ (Finset.range n).erase c, (Function.update f c client i).held =
      ∑ i ∈ (Finset.range n).erase c, (f i).held := by
    apply Finset.sum_congr rfl
    intro i hi
    rw [Function.update_of_ne (Finset.ne_of_mem_erase hi)]
  rw [hrest, Function.update_self]
  omega

/-- A change of one client, with the counters that follow it. -/
structure Changes (s : SaveServer R) (c : ℕ) (client : SaveClient R) (s' : SaveServer R) :
    Prop where
  updates : s'.client = Function.update s.client c client
  clients : s'.clients = s.clients
  nextId : s'.nextId = s.nextId
  known : c < s.nextId
  counted : (s.client c).Counted → (s.client c).held ≤ s.admittedSaves →
    s.admittedSaves ≤ maxAdmittedSaves →
      client.Counted ∧ s'.admittedSaves ≤ maxAdmittedSaves ∧
      s'.admittedSaves + (s.client c).held = s.admittedSaves + client.held

theorem Counted.held_le (h : s.Counted) (hc : c < s.nextId) :
    (s.client c).held ≤ s.admittedSaves := by
  rw [h.total]
  exact Finset.single_le_sum (f := fun i => (s.client i).held) (fun _ _ => Nat.zero_le _)
    (Finset.mem_range.2 hc)

theorem Counted.changes (h : s.Counted) (hchanges : Changes s c client s') : s'.Counted := by
  obtain ⟨hclient, hle, htotal⟩ :=
    hchanges.counted (h.client c) (h.held_le hchanges.known) h.total_le
  constructor
  · intro d
    rw [hchanges.updates, Function.update_apply]
    split
    · exact hclient
    · exact h.client d
  · intro d hd
    rw [hchanges.nextId] at hd
    have hne : d ≠ c := by
      have hknown := hchanges.known
      omega
    rw [hchanges.updates, Function.update_of_ne hne]
    exact h.fresh d hd
  · rw [hchanges.clients, hchanges.nextId]
    exact h.known
  · have hsum := @sum_update R c client s.client s.nextId hchanges.known
    rw [hchanges.updates, hchanges.nextId]
    have hold := h.total
    omega
  · exact hle

/-- What a client's oldest save does: the order of its calls stays, and what it
adds is true. -/
structure Works (s : SaveServer R) (c : ℕ) (client : SaveClient R) (s' : SaveServer R)
    (effects : List (SaveEffect R)) : Prop extends Changes s c client s' where
  order : c ∈ s.clients → client.calls = (s.client c).calls
  genuine : ∀ log, (s.client c).Genuine log → client.Genuine (log ++ effects)
  quiet : ∀ call outcome, .settled call outcome ∉ effects

/-- A task moves on to another stage. -/
theorem works_stage {task : SaveTask R} {rest : List (SaveTask R)} {stage : SaveStage}
    {effects : List (SaveEffect R)} (h : s.Counted) (htasks : (s.client c).tasks = task :: rest)
    (hupdates : s'.client = Function.update s.client c
      { s.client c with tasks := { task with stage := stage } :: rest })
    (hframe : s'.clients = s.clients ∧ s'.nextId = s.nextId ∧ s'.admittedSaves = s.admittedSaves)
    (hwritten : ∀ log reply, task.Genuine log → stage = .written reply →
      Truthful (log ++ effects) task.call reply)
    (hquiet : ∀ call outcome, .settled call outcome ∉ effects) :
    Works s c { s.client c with tasks := { task with stage := stage } :: rest } s' effects where
  updates := hupdates
  clients := hframe.1
  nextId := hframe.2.1
  known := by
    by_contra hfresh
    have hnone := (h.fresh c (not_lt.1 hfresh)).1
    rw [htasks] at hnone
    cases hnone
  counted := by
    intro hcounted _ hle
    have hheld : ({ s.client c with tasks := { task with stage := stage } :: rest } :
        SaveClient R).held = (s.client c).held := by
      simp [SaveClient.held, htasks, List.countP_cons]
    refine ⟨⟨?_, ?_, hcounted.owed_le, hcounted.admitted_le⟩, hframe.2.2 ▸ hle, ?_⟩
    · show (s.client c).owedAnswers = _
      rw [hcounted.owed, htasks]
      rfl
    · rw [hheld]
      exact hcounted.admitted
    · rw [hheld, hframe.2.2]
  order := by
    intro _
    simp [SaveClient.calls, htasks]
  genuine := by
    intro log hgenuine
    constructor
    · intro t ht
      have htask : task.Genuine log := hgenuine.tasks task (htasks ▸ List.mem_cons_self)
      rcases List.mem_cons.1 ht with rfl | ht
      · constructor
        · exact (htask.append effects).text
        · intro reply hreply
          exact hwritten log reply htask hreply
      · exact (hgenuine.tasks t (htasks ▸ List.mem_cons_of_mem _ ht)).append effects
    · intro answer hanswer
      exact (hgenuine.outbox answer hanswer).append effects
  quiet := hquiet

/-- The oldest task ends: its answer takes its place in the order. -/
theorem works_finish {task : SaveTask R} {rest : List (SaveTask R)} {reply : SaveReply}
    (h : s.Counted) (htasks : (s.client c).tasks = task :: rest) (places : ℕ)
    (hreply : ∀ log, task.Genuine log → Truthful log task.call reply) :
    Works s c (({ s with saves := places }.finishSave c task rest reply).1.client c)
      ({ s with saves := places }.finishSave c task rest reply).1
      ({ s with saves := places }.finishSave c task rest reply).2 where
  updates := by simp [finishSave, setClient]
  clients := rfl
  nextId := rfl
  known := by
    by_contra hfresh
    have hnone := (h.fresh c (not_lt.1 hfresh)).1
    rw [htasks] at hnone
    cases hnone
  counted := by
    intro hcounted hheld hle
    have howed := hcounted.owed
    have hadmitted := hcounted.admitted
    have howed_le := hcounted.owed_le
    have hadmitted_le := hcounted.admitted_le
    rw [htasks] at howed
    simp only [SaveClient.held, htasks, List.countP_cons, List.length_cons] at hadmitted howed hheld
    simp only [finishSave, setClient, Function.update_self]
    refine ⟨⟨?_, ?_, ?_, ?_⟩, ?_, ?_⟩
    · show (s.client c).owedAnswers - 1 = rest.length
      omega
    · show (s.client c).admittedSaves - _ = rest.countP _
      omega
    · show (s.client c).owedAnswers - 1 ≤ _
      omega
    · show (s.client c).admittedSaves - _ ≤ _
      omega
    · omega
    · simp only [SaveClient.held, htasks, List.countP_cons]
      omega
  order := by
    intro hconnected
    simp [finishSave, setClient, SaveClient.calls, htasks, hconnected]
  genuine := by
    intro log hgenuine
    have htask : task.Genuine log := hgenuine.tasks task (htasks ▸ List.mem_cons_self)
    constructor
    · intro t ht
      have ht : t ∈ rest := by simpa [finishSave, setClient] using ht
      exact (hgenuine.tasks t (htasks ▸ List.mem_cons_of_mem _ ht)).append _
    · intro answer hanswer
      have hanswer : answer ∈ (s.client c).outbox ∨ answer = ⟨task.call, reply⟩ := by
        by_cases hconnected : c ∈ s.clients
        · simpa [finishSave, setClient, hconnected] using hanswer
        · left
          simpa [finishSave, setClient, hconnected] using hanswer
      rcases hanswer with hold | rfl
      · exact (hgenuine.outbox answer hold).append _
      · exact ⟨List.mem_append_right _ (List.mem_singleton.2 rfl), (hreply log htask).append _⟩
  quiet := by
    intro call outcome hmem
    cases List.mem_singleton.1 hmem

theorem runSave_works (h : s.Counted) :
    s.runSave c = (s, []) ∨ ∃ client, Works s c client (s.runSave c).1 (s.runSave c).2 := by
  unfold runSave
  split
  · exact .inl rfl
  · rename_i task rest htasks
    split
    · split_ifs with hadmitted
      · exact .inr ⟨_, works_stage h htasks rfl ⟨rfl, rfl, rfl⟩
          (fun _ _ _ hstage => nomatch hstage) (by simp)⟩
      · exact .inr ⟨_, works_finish h htasks s.saves fun _ _ => truthful_error _⟩
    · split_ifs with hplaces
      · exact .inr ⟨_, works_stage h htasks rfl ⟨rfl, rfl, rfl⟩
          (fun _ _ _ hstage => nomatch hstage) (by simp)⟩
      · exact .inl rfl
    · exact .inl rfl
    · rename_i reply hstage
      exact .inr ⟨_, works_finish h htasks (s.saves + 1) fun _ htask => htask.written _ hstage⟩

theorem work_works (h : s.Counted) (result : WriteResult) :
    s.work c result = (s, []) ∨
      ∃ client, Works s c client (s.work c result).1 (s.work c result).2 := by
  unfold work
  split
  · exact .inl rfl
  · rename_i task rest htasks
    split
    · rename_i frame hstage htext
      have hfailed : ∀ (message : String) (log : List (SaveEffect R)) (reply : SaveReply),
          task.Genuine log → SaveStage.written (.recordError message) = .written reply →
            Truthful (log ++ []) task.call reply := by
        intro message log reply _ hreply
        cases hreply
        exact truthful_error _
      cases result with
      | refused message =>
        exact .inr ⟨_, works_stage h htasks rfl ⟨rfl, rfl, rfl⟩ (hfailed message) (by simp)⟩
      | failed =>
        exact .inr ⟨_, works_stage h htasks rfl ⟨rfl, rfl, rfl⟩ (hfailed saveFailedMessage)
          (by simp)⟩
      | written id =>
        dsimp only
        split_ifs with htaken
        · exact .inl rfl
        · refine .inr ⟨_, works_stage h htasks rfl ⟨rfl, rfl, rfl⟩ ?_ (by simp)⟩
          intro log reply htask hreply
          cases hreply
          intro id' hid
          cases hid
          obtain ⟨hcall, hcalled⟩ := htask.text frame htext
          rw [hcall] at hcalled
          exact ⟨frame.recording, List.mem_append_left _ hcalled,
            List.mem_append_right _ (by simp [hcall])⟩
    · exact .inl rfl

/-- A frame the bridge takes is the newest call it has. -/
theorem admitSave_changes {frame : SaveFrame R} (hknown : c < s.nextId)
    (howed : (s.admitSave c frame).2 = true) :
    Changes s c ((s.admitSave c frame).1.client c) (s.admitSave c frame).1 ∧
      ((s.admitSave c frame).1.client c).calls = (s.client c).calls ++ [frame.call] ∧
      ∀ log, (s.client c).Genuine log → .called frame.call frame.recording ∈ log →
        ((s.admitSave c frame).1.client c).Genuine log := by
  have hover : ¬ maxOwedAnswersPerClient ≤ (s.client c).owedAnswers := by
    intro hover
    rw [admitSave, if_pos hover] at howed
    cases howed
  unfold admitSave
  rw [if_neg hover]
  dsimp only
  generalize hadmits : (decide ((s.client c).admittedSaves < maxAdmittedSavesPerClient) &&
    decide (s.admittedSaves < maxAdmittedSaves)) = admits
  refine ⟨⟨by simp [setClient], rfl, rfl, hknown, ?_⟩, ?_, ?_⟩
  · intro hcounted hheld hle
    have howed := hcounted.owed
    have hadmitted := hcounted.admitted
    have hadmitted_le := hcounted.admitted_le
    simp only [setClient, Function.update_self]
    cases admits with
    | false =>
      refine ⟨⟨?_, ?_, ?_, ?_⟩, ?_, ?_⟩
      · simp [howed]
      · simpa [SaveClient.held, List.countP_append] using hadmitted
      · show (s.client c).owedAnswers + 1 ≤ _
        omega
      · simpa using hadmitted_le
      · simpa using hle
      · simp [SaveClient.held, List.countP_append]
    | true =>
      simp only [Bool.and_eq_true, decide_eq_true_eq] at hadmits
      refine ⟨⟨?_, ?_, ?_, ?_⟩, ?_, ?_⟩
      · simp [howed]
      · simp [SaveClient.held, List.countP_append, hadmitted]
      · show (s.client c).owedAnswers + 1 ≤ _
        omega
      · show (s.client c).admittedSaves + 1 ≤ _
        omega
      · show s.admittedSaves + 1 ≤ _
        omega
      · simp [SaveClient.held, List.countP_append]
        omega
  · simp [setClient, SaveClient.calls]
  · intro log hgenuine hcalled
    constructor
    · intro t ht
      simp only [setClient, Function.update_self, List.mem_append, List.mem_singleton] at ht
      rcases ht with hold | rfl
      · exact hgenuine.tasks t hold
      · constructor
        · intro frame' hframe
          cases admits with
          | false => simp at hframe
          | true =>
            simp only [if_true, Option.some.injEq] at hframe
            subst hframe
            exact ⟨rfl, hcalled⟩
        · intro reply hstage
          cases hstage
    · intro answer hanswer
      simp only [setClient, Function.update_self] at hanswer
      exact hgenuine.outbox answer hanswer

end SaveServer

/-! ## Promises -/

section Promises

/-- The effect ends the promise of the call. -/
def settles (call : CallId) : SaveEffect R → Bool
  | .settled call' _ => decide (call' = call)
  | _ => false

@[simp] theorem settles_settled (call call' : CallId) (outcome : SaveOutcome) :
    settles call (SaveEffect.settled call' outcome : SaveEffect R) = decide (call' = call) := rfl

@[simp] theorem settles_called (call call' : CallId) (recording : R) :
    settles call (SaveEffect.called call' recording) = false := rfl

variable {link link' : RobotLink} {page number : ℕ} {effects : List (SaveEffect R)}

namespace RobotLink

theorem mem_openSaves :
    number ∈ link.openSaves ↔ ∃ q ∈ link.saves, q.number = number ∧ q.timedOut = false := by
  simp [openSaves, and_assoc, and_comm, and_left_comm]

/-- The queue of a page has each call once, and only calls that were made. -/
structure Queued (link : RobotLink) : Prop where
  numbers : (link.saves.map PendingSave.number).Nodup
  below : ∀ q ∈ link.saves, q.number < link.calls

theorem Queued.open_below (h : link.Queued) (hopen : number ∈ link.openSaves) :
    number < link.calls := by
  obtain ⟨q, hq, rfl, -⟩ := mem_openSaves.1 hopen
  exact h.below q hq

theorem Queued.open_nodup (h : link.Queued) : link.openSaves.Nodup :=
  h.numbers.sublist ((List.filter_sublist).map _)

/-- How often the promise of a call was settled: once, unless it is open or the
call was not made. -/
def settledCount (link : RobotLink) (number : ℕ) : ℕ :=
  if number < link.calls ∧ number ∉ link.openSaves then 1 else 0

end RobotLink

/-- What a page does settles promises as its queue says, and those of no other
page. -/
structure Advances (page : ℕ) (link : RobotLink) (r : RobotLink × List (SaveEffect R)) :
    Prop where
  queued : r.1.Queued
  count : ∀ number, link.settledCount number + r.2.countP (settles ⟨page, number⟩) =
    r.1.settledCount number
  others : ∀ page' ≠ page, ∀ number, r.2.countP (settles ⟨page', number⟩) = 0

theorem countP_settled (page' : ℕ) (outcome : SaveOutcome) (numbers : List ℕ) :
    (numbers.map fun number => (SaveEffect.settled ⟨page, number⟩ outcome : SaveEffect R)).countP
        (settles ⟨page', number⟩) =
      if page' = page then numbers.count number else 0 := by
  induction numbers with
  | nil => simp
  | cons n numbers ih =>
    rw [List.map_cons, List.countP_cons, ih, List.count_cons]
    by_cases hpage : page' = page
    · simp [hpage]
    · simp [hpage, Ne.symm hpage]

theorem advances_drop (h : link.Queued) :
    Advances page link (link.drop page : RobotLink × List (SaveEffect R)) where
  queued := ⟨List.nodup_nil, by simp [RobotLink.drop]⟩
  count := by
    intro number
    simp only [RobotLink.drop, countP_settled, if_true]
    have hempty : number ∉ ({ link with socket := none, hello := none, saves := [] } :
        RobotLink).openSaves := by
      rw [RobotLink.mem_openSaves]
      simp
    unfold RobotLink.settledCount
    by_cases hopen : number ∈ link.openSaves
    · have hbelow := h.open_below hopen
      rw [List.count_eq_one_of_mem h.open_nodup hopen]
      simp [hopen, hbelow, hempty]
    · rw [List.count_eq_zero_of_not_mem hopen]
      simp [hopen, hempty]
  others := by
    intro page' hpage number
    simp only [RobotLink.drop, countP_settled, if_neg hpage]

theorem mem_openSaves_timedOut {n : ℕ} :
    n ∈ ({ link with
        saves := link.saves.map fun pending =>
          if pending.number = number then { pending with timedOut := true } else pending } :
            RobotLink).openSaves ↔ n ∈ link.openSaves ∧ n ≠ number := by
  simp only [RobotLink.mem_openSaves, List.mem_map]
  constructor
  · rintro ⟨q, ⟨q', hq', rfl⟩, hn, htimed⟩
    split_ifs at hn htimed with hsame
    exact ⟨⟨q', hq', hn, htimed⟩, hn ▸ hsame⟩
  · rintro ⟨⟨q, hq, hn, htimed⟩, hne⟩
    exact ⟨q, ⟨q, hq, if_neg (hn ▸ hne)⟩, hn, htimed⟩

theorem advances_timeout (h : link.Queued) (number : ℕ) :
    Advances page link (link.timeout page number : RobotLink × List (SaveEffect R)) := by
  unfold RobotLink.timeout
  split_ifs with hopen
  · have hnumbers : (link.saves.map fun pending =>
        if pending.number = number then { pending with timedOut := true } else pending).map
          PendingSave.number = link.saves.map PendingSave.number := by
      rw [List.map_map]
      apply List.map_congr_left
      intro q _
      simp only [Function.comp_apply]
      split_ifs <;> rfl
    constructor
    · constructor
      · rw [hnumbers]
        exact h.numbers
      · intro q hq
        have hmem : q.number ∈ link.saves.map PendingSave.number := by
          rw [← hnumbers]
          exact List.mem_map_of_mem hq
        obtain ⟨q', hq', hsame⟩ := List.mem_map.1 hmem
        rw [← hsame]
        exact h.below q' hq'
    · intro n
      have hiff := @mem_openSaves_timedOut link number n
      have hbelow := h.open_below hopen
      unfold RobotLink.settledCount
      simp only [hiff]
      by_cases hn : n = number
      · subst hn
        simp [hopen, hbelow]
      · simp [hn, Ne.symm hn]
    · intro page' hpage n
      simp [Ne.symm hpage]
  · exact ⟨h, fun _ => rfl, fun _ _ _ => rfl⟩

theorem advances_answer (h : link.Queued) (outcome : SaveOutcome) :
    Advances page link (link.answerSave page outcome : RobotLink × List (SaveEffect R)) := by
  unfold RobotLink.answerSave
  split
  · exact ⟨h, fun _ => rfl, fun _ _ _ => rfl⟩
  · rename_i pending saves hsaves
    have hnumbers := h.numbers
    rw [hsaves, List.map_cons, List.nodup_cons] at hnumbers
    have hopen : ∀ n, n ∈ link.openSaves ↔
        (pending.number = n ∧ pending.timedOut = false) ∨
          n ∈ ({ link with saves := saves } : RobotLink).openSaves := by
      intro n
      simp [RobotLink.mem_openSaves, hsaves]
    have hhead : pending.number ∉ ({ link with saves := saves } : RobotLink).openSaves := by
      intro hmem
      obtain ⟨q, hq, hsame, -⟩ := RobotLink.mem_openSaves.1 hmem
      exact hnumbers.1 (hsame ▸ List.mem_map_of_mem hq)
    have hbelow : pending.number < link.calls := h.below pending (hsaves ▸ List.mem_cons_self)
    constructor
    · constructor
      · exact hnumbers.2
      · intro q hq
        exact h.below q (hsaves ▸ List.mem_cons_of_mem _ hq)
    · intro n
      unfold RobotLink.settledCount
      simp only [hopen n]
      cases htimed : pending.timedOut with
      | true => simp
      | false =>
        by_cases hn : pending.number = n
        · subst hn
          simp [hhead, hbelow]
        · simp [hn]
    · intro page' hpage n
      cases pending.timedOut <;> simp [Ne.symm hpage]

theorem advances_push (h : link.Queued) (recording : R) :
    Advances page link ({ link with
        saves := link.saves ++ [{ number := link.calls }], calls := link.calls + 1 },
      [SaveEffect.called ⟨page, link.calls⟩ recording]) where
  queued := by
    constructor
    · rw [List.map_append, List.nodup_append]
      refine ⟨h.numbers, List.nodup_singleton _, ?_⟩
      intro n hn m hm
      obtain ⟨q, hq, rfl⟩ := List.mem_map.1 hn
      obtain rfl := List.mem_singleton.1 hm
      exact (h.below q hq).ne
    · intro q hq
      show q.number < link.calls + 1
      rcases List.mem_append.1 hq with hq | hq
      · have hbelow := h.below q hq
        omega
      · obtain rfl := List.mem_singleton.1 hq
        exact Nat.lt_succ_self _
  count := by
    intro n
    have hopen : n ∈ ({ link with
        saves := link.saves ++ [{ number := link.calls }], calls := link.calls + 1 } :
          RobotLink).openSaves ↔ n ∈ link.openSaves ∨ n = link.calls := by
      simp only [RobotLink.mem_openSaves, List.mem_append, List.mem_singleton, or_and_right,
        exists_or, exists_eq_left, and_true]
      rw [@eq_comm _ link.calls n]
    unfold RobotLink.settledCount
    simp only [hopen]
    have hiff : (n < link.calls ∧ n ∉ link.openSaves) ↔
        n < link.calls + 1 ∧ ¬ (n ∈ link.openSaves ∨ n = link.calls) := by
      rw [not_or]
      constructor
      · rintro ⟨hlt, hclosed⟩
        exact ⟨by omega, hclosed, by omega⟩
      · rintro ⟨hlt, hclosed, hne⟩
        exact ⟨by omega, hclosed⟩
    simp only [hiff]
    simp
  others := by simp

theorem advances_refuse (h : link.Queued) (recording : R) (why : SaveFailure) :
    Advances page link ({ link with calls := link.calls + 1 },
      [SaveEffect.called ⟨page, link.calls⟩ recording,
        .settled ⟨page, link.calls⟩ (.rejected why)]) where
  queued := by
    refine ⟨h.numbers, ?_⟩
    intro q hq
    exact (h.below q hq).trans (Nat.lt_succ_self _)
  count := by
    intro n
    have hclosed : link.calls ∉ link.openSaves := fun hopen => (h.open_below hopen).false
    unfold RobotLink.settledCount
    show _ = if n < link.calls + 1 ∧ n ∉ link.openSaves then 1 else 0
    by_cases hn : n = link.calls
    · subst hn
      simp [hclosed]
    · have hlt : n < link.calls + 1 ↔ n < link.calls := by omega
      simp [hlt, Ne.symm hn]
  others := by
    intro page' hpage n
    simp [Ne.symm hpage]

end Promises

/-! ## Order -/

def BridgeText.call? : BridgeText → Option CallId
  | .hello _ => none
  | .answer a => some a.call

/-- The calls of a page's queue, the oldest first. -/
def RobotLink.pendingCalls (link : RobotLink) (page : ℕ) : List CallId :=
  link.saves.map fun pending => ⟨page, pending.number⟩

namespace SaveLink

variable {s s' : SaveLink R} {page : ℕ} {link : RobotLink}

/-- The calls under way on a connection: answers to the page, what the bridge
has of them, frames to the bridge. Behind the answers, nothing comes of a
connection that the bridge left. -/
def waiting (s : SaveLink R) (c : ℕ) : List CallId :=
  (s.conn c).toPage.filterMap BridgeText.call? ++
    if c ∈ s.server.clients then
      (s.server.client c).calls ++ (s.conn c).toBridge.map SaveFrame.call
    else []

/-- The connections are in the order of the queues. -/
structure Matched (s : SaveLink R) : Prop where
  known : ∀ page c, (s.page page).socket = some c → c < s.server.nextId
  alone : ∀ page page' c, (s.page page).socket = some c → (s.page page').socket = some c →
    page = page'
  order : ∀ page c, (s.page page).socket = some c →
    s.waiting c <+: (s.page page).pendingCalls page ∧
      (c ∈ s.server.clients → s.waiting c = (s.page page).pendingCalls page)

/-- What the bridge does keeps the order; where it leaves a connection, the rest
of it is gone. -/
structure BridgeMoves (s s' : SaveLink R) : Prop where
  page : s'.page = s.page
  nextId : s'.server.nextId = s.server.nextId
  waiting : ∀ c, s'.waiting c <+: s.waiting c ∧
    (c ∈ s'.server.clients → c ∈ s.server.clients ∧ s'.waiting c = s.waiting c)

theorem BridgeMoves.refl : BridgeMoves s s :=
  ⟨rfl, rfl, fun _ => ⟨List.prefix_rfl, fun hc => ⟨hc, rfl⟩⟩⟩

theorem Matched.bridge (h : Matched s) (hmoves : BridgeMoves s s') : Matched s' := by
  obtain ⟨hpage, hnext, hwaiting⟩ := hmoves
  constructor
  · rw [hpage, hnext]
    exact h.known
  · rw [hpage]
    exact h.alone
  · intro page c hsocket
    rw [hpage] at hsocket ⊢
    obtain ⟨hfront, heq⟩ := h.order page c hsocket
    obtain ⟨hless, hsame⟩ := hwaiting c
    refine ⟨hless.trans hfront, ?_⟩
    intro hc
    obtain ⟨hc, hsame⟩ := hsame hc
    rw [hsame]
    exact heq hc

theorem waiting_congr {d : ℕ} (hconn : s'.conn d = s.conn d)
    (hclient : s'.server.client d = s.server.client d)
    (hclients : d ∈ s'.server.clients ↔ d ∈ s.server.clients) : s'.waiting d = s.waiting d := by
  simp only [waiting, hconn, hclient, hclients]

theorem bridgeMoves_one (c : ℕ) (hpage : s'.page = s.page)
    (hnext : s'.server.nextId = s.server.nextId)
    (hothers : ∀ d ≠ c, s'.conn d = s.conn d ∧ s'.server.client d = s.server.client d ∧
      (d ∈ s'.server.clients ↔ d ∈ s.server.clients))
    (hone : s'.waiting c <+: s.waiting c ∧
      (c ∈ s'.server.clients → c ∈ s.server.clients ∧ s'.waiting c = s.waiting c)) :
    BridgeMoves s s' where
  page := hpage
  nextId := hnext
  waiting := by
    intro d
    by_cases hd : d = c
    · subst hd
      exact hone
    · obtain ⟨hconn, hclient, hclients⟩ := hothers d hd
      have hsame := waiting_congr hconn hclient hclients
      exact ⟨hsame ▸ List.prefix_rfl, fun hmem => ⟨hclients.1 hmem, hsame⟩⟩

theorem bridgeMoves_same (c : ℕ) (hpage : s'.page = s.page)
    (hnext : s'.server.nextId = s.server.nextId)
    (hothers : ∀ d ≠ c, s'.conn d = s.conn d ∧ s'.server.client d = s.server.client d)
    (hclients : s'.server.clients = s.server.clients)
    (hsame : s'.waiting c = s.waiting c) : BridgeMoves s s' := by
  refine bridgeMoves_one c hpage hnext ?_ ⟨hsame ▸ List.prefix_rfl, fun hmem => ⟨?_, hsame⟩⟩
  · intro d hd
    obtain ⟨hconn, hclient⟩ := hothers d hd
    exact ⟨hconn, hclient, by rw [hclients]⟩
  · rw [← hclients]
    exact hmem

theorem bridgeMoves_works {client : SaveClient R} {server : SaveServer R}
    {effects : List (SaveEffect R)} (h : SaveServer.Works s.server c client server effects) :
    BridgeMoves s { s with server := server } := by
  have hself : server.client c = client := by rw [h.updates, Function.update_self]
  refine bridgeMoves_same c rfl h.nextId ?_ h.clients ?_
  · intro d hd
    refine ⟨rfl, ?_⟩
    show server.client d = _
    rw [h.updates, Function.update_of_ne hd]
  · unfold waiting
    dsimp only
    rw [hself, h.clients]
    split_ifs with hconnected
    · rw [h.order hconnected]
    · rfl

theorem mem_leave {d : ℕ} : d ∈ (s.leave c).server.clients ↔ d ∈ s.server.clients ∧ d ≠ c := by
  simp [leave]

theorem waiting_leave : (s.leave c).waiting c = (s.conn c).toPage.filterMap BridgeText.call? := by
  unfold waiting
  rw [if_neg (fun hmem => (mem_leave.1 hmem).2 rfl), List.append_nil]
  rfl

theorem bridgeMoves_leave : BridgeMoves s (s.leave c) := by
  refine bridgeMoves_one c rfl rfl ?_ ?_
  · intro d hd
    refine ⟨rfl, rfl, ?_⟩
    rw [mem_leave]
    simp [hd]
  · rw [waiting_leave]
    exact ⟨List.prefix_append .., fun hmem => absurd rfl (mem_leave.1 hmem).2⟩

theorem bridgeMoves_send : BridgeMoves s (s.send c) := by
  unfold send
  dsimp only
  split
  · exact .refl
  · rename_i answer rest houtbox
    split_ifs with hconnected
    · refine bridgeMoves_same c rfl rfl ?_ rfl ?_
      · intro d hd
        simp [setConn, SaveServer.setClient, Function.update_of_ne hd]
      · simp [waiting, setConn, SaveServer.setClient, hconnected, SaveClient.calls, houtbox,
          BridgeText.call?]
    · exact .refl

theorem bridgeMoves_receive (h : s.server.Counted) : BridgeMoves s (s.receive c) := by
  unfold receive
  split_ifs with hconnected
  · split
    · exact .refl
    · rename_i frame rest hframes
      dsimp only
      split_ifs with howed
      · obtain ⟨hchanges, hcalls, -⟩ :=
          SaveServer.admitSave_changes (h.known c hconnected) howed
        refine bridgeMoves_same c rfl hchanges.nextId ?_ hchanges.clients ?_
        · intro d hd
          refine ⟨?_, ?_⟩
          · simp [setConn, Function.update_of_ne hd]
          · show (SaveServer.admitSave s.server c frame).1.client d = _
            rw [hchanges.updates, Function.update_of_ne hd]
        · simp [waiting, setConn, hcalls, hchanges.clients, hconnected, hframes]
      · refine bridgeMoves_one c rfl rfl ?_ ?_
        · intro d hd
          refine ⟨?_, rfl, ?_⟩
          · simp [leave, setConn, Function.update_of_ne hd]
          · rw [mem_leave]
            simp [hd, setConn]
        · rw [waiting_leave]
          refine ⟨?_, fun hmem => absurd rfl (mem_leave.1 hmem).2⟩
          simp [setConn, waiting]
  · exact .refl

/-- A move of one page, on its own connection. -/
theorem Matched.page_moves (h : Matched s) {p : ℕ} (hpage : s'.page = Function.update s.page p link)
    (hnext : s.server.nextId ≤ s'.server.nextId)
    (hothers : ∀ q d, q ≠ p → (s.page q).socket = some d →
      s'.waiting d = s.waiting d ∧ (d ∈ s'.server.clients → d ∈ s.server.clients))
    (hlink : ∀ d, link.socket = some d → d < s'.server.nextId ∧
      (∀ q, q ≠ p → (s.page q).socket ≠ some d) ∧ s'.waiting d <+: link.pendingCalls p ∧
      (d ∈ s'.server.clients → s'.waiting d = link.pendingCalls p)) : Matched s' := by
  have hself : s'.page p = link := by rw [hpage, Function.update_self]
  have hrest : ∀ q, q ≠ p → s'.page q = s.page q := by
    intro q hq
    rw [hpage, Function.update_of_ne hq]
  constructor
  · intro q d hsocket
    by_cases hq : q = p
    · rw [hq, hself] at hsocket
      exact (hlink d hsocket).1
    · rw [hrest q hq] at hsocket
      exact (h.known q d hsocket).trans_le hnext
  · intro q q' d hsocket hsocket'
    by_cases hq : q = p
    · by_cases hq' : q' = p
      · rw [hq, hq']
      · rw [hq, hself] at hsocket
        rw [hrest q' hq'] at hsocket'
        exact absurd hsocket' ((hlink d hsocket).2.1 q' hq')
    · rw [hrest q hq] at hsocket
      by_cases hq' : q' = p
      · rw [hq', hself] at hsocket'
        exact absurd hsocket ((hlink d hsocket').2.1 q hq)
      · rw [hrest q' hq'] at hsocket'
        exact h.alone q q' d hsocket hsocket'
  · intro q d hsocket
    by_cases hq : q = p
    · rw [hq, hself] at hsocket ⊢
      exact (hlink d hsocket).2.2
    · rw [hrest q hq] at hsocket ⊢
      obtain ⟨hsame, hclients⟩ := hothers q d hq hsocket
      obtain ⟨hfront, heq⟩ := h.order q d hsocket
      rw [hsame]
      exact ⟨hfront, fun hmem => heq (hclients hmem)⟩

theorem Matched.setPage_same (h : Matched s) {p : ℕ} (hsocket : link.socket = (s.page p).socket)
    (hcalls : link.pendingCalls p = (s.page p).pendingCalls p) : Matched (s.setPage p link) := by
  refine h.page_moves rfl le_rfl (fun q d _ _ => ⟨rfl, id⟩) ?_
  intro d hd
  rw [hsocket] at hd
  obtain ⟨hfront, heq⟩ := h.order p d hd
  rw [hcalls]
  exact ⟨h.known p d hd, fun q hq hother => hq (h.alone q p d hother hd), hfront, heq⟩

theorem Matched.drop (h : Matched s) (p : ℕ) : Matched (s.dropPage p).1 := by
  refine h.page_moves rfl le_rfl (fun q d _ _ => ⟨rfl, id⟩) ?_
  intro d hd
  cases hd

theorem Matched.accept (h : Matched s) (hcounted : s.server.Counted) {p : ℕ}
    (hsaves : (s.page p).saves = []) (save : Bool) :
    Matched ({ s with
        server := { s.server with
          clients := s.server.clients ++ [s.server.nextId], nextId := s.server.nextId + 1 }
        conn := Function.update s.conn s.server.nextId { toPage := [.hello save] } }.setPage p
          { s.page p with socket := some s.server.nextId }) := by
  refine h.page_moves rfl (Nat.le_succ _) ?_ ?_
  · intro q d hq hsocket
    have hne : d ≠ s.server.nextId := (h.known q d hsocket).ne
    have hmem : d ∈ s.server.clients ++ [s.server.nextId] ↔ d ∈ s.server.clients := by
      simp [hne]
    exact ⟨waiting_congr (Function.update_of_ne hne ..) rfl hmem, hmem.1⟩
  · intro d hd
    obtain rfl : s.server.nextId = d := Option.some.inj hd
    obtain ⟨htasks, houtbox⟩ := hcounted.fresh s.server.nextId le_rfl
    refine ⟨Nat.lt_succ_self _, fun q hq hother => (h.known q _ hother).false, ?_, ?_⟩
    · simp only [waiting, SaveLink.setPage, Function.update_self, SaveClient.calls, htasks, houtbox,
        List.map_nil, List.append_nil, ite_self]
      exact List.nil_prefix
    · intro _
      simp [waiting, SaveLink.setPage, SaveClient.calls, htasks, houtbox, BridgeText.call?,
        RobotLink.pendingCalls, hsaves]

theorem Matched.apart (h : Matched s) {p q d e : ℕ} (hsocket : (s.page p).socket = some d)
    (hq : q ≠ p) (hother : (s.page q).socket = some e) : e ≠ d := by
  intro hsame
  exact hq (h.alone q p d (hsame ▸ hother) hsocket)

theorem Matched.deliver (h : Matched s) {p d : ℕ} {text : BridgeText} {rest : List BridgeText}
    (hsocket : (s.page p).socket = some d) (htexts : (s.conn d).toPage = text :: rest)
    (hlink : link.socket = some d)
    (hqueue : (s.page p).pendingCalls p = text.call?.toList ++ link.pendingCalls p) :
    Matched ((s.setConn d { s.conn d with toPage := rest }).setPage p link) := by
  have hwaiting : s.waiting d = text.call?.toList ++
      ((s.setConn d { s.conn d with toPage := rest }).setPage p link).waiting d := by
    cases hcall : text.call? <;>
    simp [waiting, SaveLink.setConn, SaveLink.setPage, htexts, hcall]
  refine h.page_moves rfl le_rfl ?_ ?_
  · intro q e hq hother
    have hne := h.apart hsocket hq hother
    exact ⟨waiting_congr (Function.update_of_ne hne ..) rfl Iff.rfl, id⟩
  · intro e he
    obtain rfl : d = e := Option.some.inj (hlink.symm.trans he)
    obtain ⟨hfront, heq⟩ := h.order p d hsocket
    rw [hwaiting, hqueue] at hfront heq
    refine ⟨h.known p d hsocket, fun q hq hother => hq (h.alone q p d hother hsocket), ?_, ?_⟩
    · exact (List.prefix_append_right_inj _).1 hfront
    · intro hmem
      exact List.append_cancel_left (heq hmem)

/-- A new call is the last of the queue and of the frames to the bridge. -/
theorem Matched.push (h : Matched s) {p d : ℕ} {recording : R}
    (hsocket : (s.page p).socket = some d) (hlink : link.socket = some d) {number : ℕ}
    (hqueue : link.pendingCalls p = (s.page p).pendingCalls p ++ [⟨p, number⟩]) :
    Matched ((s.setPage p link).setConn d
      { s.conn d with toBridge := (s.conn d).toBridge ++ [⟨⟨p, number⟩, recording⟩] }) := by
  refine h.page_moves rfl le_rfl ?_ ?_
  · intro q e hq hother
    have hne := h.apart hsocket hq hother
    exact ⟨waiting_congr (Function.update_of_ne hne ..) rfl Iff.rfl, id⟩
  · intro e he
    obtain rfl : d = e := Option.some.inj (hlink.symm.trans he)
    obtain ⟨hfront, heq⟩ := h.order p d hsocket
    rw [hqueue]
    refine ⟨h.known p d hsocket, fun q hq hother => hq (h.alone q p d hother hsocket), ?_, ?_⟩
    · by_cases hmem : d ∈ s.server.clients
      · rw [← heq hmem]
        simp [waiting, SaveLink.setConn, SaveLink.setPage, hmem]
      · have hsame : s.waiting d = (s.conn d).toPage.filterMap BridgeText.call? := by
          simp [waiting, hmem]
        rw [hsame] at hfront
        simp only [waiting, SaveLink.setConn, SaveLink.setPage, hmem, if_false, List.append_nil,
          Function.update_self]
        exact hfront.trans (List.prefix_append ..)
    · intro hmem
      have hmem : d ∈ s.server.clients := hmem
      rw [← heq hmem]
      simp [waiting, SaveLink.setConn, SaveLink.setPage, hmem]

/-! ## Every event -/

/-- What is under way is genuine. -/
structure GenuineLink (log : List (SaveEffect R)) (s : SaveLink R) : Prop where
  frames : ∀ c, ∀ frame ∈ (s.conn c).toBridge, .called frame.call frame.recording ∈ log
  clients : ∀ c, (s.server.client c).Genuine log
  answers : ∀ c, ∀ answer, .answer answer ∈ (s.conn c).toPage → Genuine log answer

theorem GenuineLink.append {log : List (SaveEffect R)} (h : GenuineLink log s)
    (effects : List (SaveEffect R)) : GenuineLink (log ++ effects) s where
  frames c frame hframe := List.mem_append_left _ (h.frames c frame hframe)
  clients c := (h.clients c).append effects
  answers c answer hanswer := (h.answers c answer hanswer).append effects

/-- The end of a promise is one the log accounts for. -/
def Justified (log : List (SaveEffect R)) (call : CallId) : SaveOutcome → Prop
  | .resolved id => ∃ recording, .called call recording ∈ log ∧ .stored call recording id ∈ log
  | .rejected (.bridge message) => .answered call (.recordError message) ∈ log
  | .rejected _ => True

theorem justified_answer {log : List (SaveEffect R)} {answer : SaveAnswer}
    (h : LabBridge.Genuine log answer) : Justified log answer.call answer.reply.outcome := by
  obtain ⟨hanswered, htruthful⟩ := h
  cases hreply : answer.reply with
  | recordSaved id => exact htruthful id hreply
  | recordError message =>
    unfold SaveReply.outcome
    dsimp only
    split_ifs
    · trivial
    · rw [hreply] at hanswered
      exact hanswered

/-- The counters, the order, the answers and the promises, after the log. -/
structure Inv (log : List (SaveEffect R)) (s : SaveLink R) : Prop where
  counted : s.server.Counted
  matched : Matched s
  genuine : GenuineLink log s
  queued : ∀ page, (s.page page).Queued
  settled : ∀ page number,
    log.countP (settles ⟨page, number⟩) = (s.page page).settledCount number

/-- What an event leaves. -/
structure Kept (log : List (SaveEffect R)) (r : SaveLink R × List (SaveEffect R)) : Prop where
  inv : Inv (log ++ r.2) r.1
  justified : ∀ call outcome, .settled call outcome ∈ r.2 → Justified log call outcome

variable {log effects : List (SaveEffect R)}

theorem Inv.bridge (h : Inv log s) (hcounted : s'.server.Counted) (hmoves : BridgeMoves s s')
    (hgenuine : GenuineLink (log ++ effects) s')
    (hquiet : ∀ call outcome, .settled call outcome ∉ effects) : Kept log (s', effects) where
  inv := by
    refine ⟨hcounted, h.matched.bridge hmoves, hgenuine, ?_, ?_⟩
    · rw [hmoves.page]
      exact h.queued
    · intro page number
      have hnone : effects.countP (settles ⟨page, number⟩) = 0 := by
        rw [List.countP_eq_zero]
        intro e he
        cases e with
        | settled call outcome => exact absurd he (hquiet call outcome)
        | _ => simp [settles]
      rw [hmoves.page, List.countP_append, hnone, add_zero]
      exact h.settled page number
  justified := fun call outcome hmem => absurd hmem (hquiet call outcome)

theorem Inv.page_moves (h : Inv log s) {p : ℕ} {link : RobotLink}
    (hpage : s'.page = Function.update s.page p link) (hserver : s'.server.Counted)
    (hmatched : Matched s') (hgenuine : GenuineLink (log ++ effects) s')
    (hadvances : Advances p (s.page p) (link, effects))
    (hjustified : ∀ call outcome, .settled call outcome ∈ effects → Justified log call outcome) :
    Kept log (s', effects) where
  inv := by
    refine ⟨hserver, hmatched, hgenuine, ?_, ?_⟩
    · intro q
      rw [hpage, Function.update_apply]
      split
      · exact hadvances.queued
      · exact h.queued q
    · intro q number
      rw [List.countP_append, h.settled, hpage]
      by_cases hq : q = p
      · subst hq
        rw [Function.update_self]
        exact hadvances.count number
      · rw [Function.update_of_ne hq, hadvances.others q hq number, add_zero]
  justified := hjustified

theorem kept_works (h : Inv log s) {r : SaveServer R × List (SaveEffect R)}
    (hr : r = (s.server, []) ∨ ∃ client, SaveServer.Works s.server c client r.1 r.2) :
    Kept log ({ s with server := r.1 }, r.2) := by
  rcases hr with rfl | ⟨client, hworks⟩
  · exact h.bridge h.counted .refl (h.genuine.append []) (by simp)
  · refine h.bridge (h.counted.changes hworks.toChanges) (bridgeMoves_works hworks) ?_ hworks.quiet
    have hgenuine := h.genuine.append r.2
    refine ⟨hgenuine.frames, ?_, hgenuine.answers⟩
    intro d
    show (r.1.client d).Genuine _
    rw [hworks.updates, Function.update_apply]
    split
    · exact hworks.genuine log (h.genuine.clients c)
    · exact hgenuine.clients d

theorem counted_leave (h : s.server.Counted) : (s.leave c).server.Counted :=
  ⟨h.client, h.fresh, fun d hd => h.known d (mem_leave.1 hd).1, h.total, h.total_le⟩

theorem kept_leave (h : Inv log s) (c : ℕ) : Kept log (s.leave c, []) := by
  refine h.bridge (counted_leave h.counted) bridgeMoves_leave ?_ (by simp)
  rw [List.append_nil]
  exact ⟨h.genuine.frames, h.genuine.clients, h.genuine.answers⟩

theorem genuine_setConn (h : GenuineLink log s) {conn : SaveConn R}
    (hframes : ∀ frame ∈ conn.toBridge, .called frame.call frame.recording ∈ log)
    (hanswers : ∀ answer, .answer answer ∈ conn.toPage → LabBridge.Genuine log answer) :
    GenuineLink log (s.setConn c conn) where
  frames := by
    intro d
    show ∀ frame ∈ (Function.update s.conn c conn d).toBridge, _
    rw [Function.update_apply]
    split
    · exact hframes
    · exact h.frames d
  clients := h.clients
  answers := by
    intro d
    show ∀ answer, .answer answer ∈ (Function.update s.conn c conn d).toPage → _
    rw [Function.update_apply]
    split
    · exact hanswers
    · exact h.answers d

theorem genuine_server (h : GenuineLink log s) {server : SaveServer R} {client : SaveClient R}
    (hupdates : server.client = Function.update s.server.client c client)
    (hclient : client.Genuine log) : GenuineLink log { s with server := server } where
  frames := h.frames
  clients := by
    intro d
    show (server.client d).Genuine log
    rw [hupdates, Function.update_apply]
    split
    · exact hclient
    · exact h.clients d
  answers := h.answers

theorem kept_send (h : Inv log s) (c : ℕ) : Kept log (s.send c, []) := by
  have hmoves := @bridgeMoves_send R c s
  unfold send at hmoves ⊢
  dsimp only at hmoves ⊢
  split at hmoves
  · exact h.bridge h.counted .refl (h.genuine.append []) (by simp)
  · rename_i answer rest houtbox
    split_ifs at hmoves ⊢ with hconnected
    · have hclient := h.genuine.clients c
      refine h.bridge (h.counted.changes ⟨rfl, rfl, rfl, h.counted.known c hconnected, ?_⟩) hmoves
        ?_ (by simp)
      · intro hcounted _ hle
        exact ⟨⟨hcounted.owed, hcounted.admitted, hcounted.owed_le, hcounted.admitted_le⟩, hle, rfl⟩
      · rw [List.append_nil]
        refine genuine_setConn (@genuine_server R c s log h.genuine _
          { s.server.client c with outbox := rest } rfl ⟨hclient.tasks, ?_⟩) (h.genuine.frames c) ?_
        · intro a ha
          exact hclient.outbox a (houtbox ▸ List.mem_cons_of_mem _ ha)
        · intro a ha
          rcases List.mem_append.1 ha with ha | ha
          · exact h.genuine.answers c a ha
          · obtain rfl := BridgeText.answer.inj (List.mem_singleton.1 ha)
            exact hclient.outbox a (houtbox ▸ List.mem_cons_self)
    · exact h.bridge h.counted .refl (h.genuine.append []) (by simp)

theorem kept_receive (h : Inv log s) (c : ℕ) : Kept log (s.receive c, []) := by
  have hmoves := @bridgeMoves_receive R c s h.counted
  unfold receive at hmoves ⊢
  split_ifs at hmoves ⊢ with hconnected
  · split at hmoves
    · exact h.bridge h.counted .refl (h.genuine.append []) (by simp)
    · rename_i frame rest hframes
      have hrest : GenuineLink log (s.setConn c { s.conn c with toBridge := rest }) := by
        refine genuine_setConn h.genuine ?_ (h.genuine.answers c)
        intro f hf
        exact h.genuine.frames c f (hframes ▸ List.mem_cons_of_mem _ hf)
      dsimp only at hmoves ⊢
      split_ifs at hmoves ⊢ with howed
      · obtain ⟨hchanges, -, hgenuine⟩ :=
          SaveServer.admitSave_changes (h.counted.known c hconnected) howed
        refine h.bridge (h.counted.changes hchanges) hmoves ?_ (by simp)
        rw [List.append_nil]
        exact genuine_server hrest hchanges.updates (hgenuine log (h.genuine.clients c)
          (h.genuine.frames c frame (hframes ▸ List.mem_cons_self)))
      · refine h.bridge (counted_leave h.counted) hmoves ?_ (by simp)
        rw [List.append_nil]
        exact ⟨hrest.frames, hrest.clients, hrest.answers⟩
  · exact h.bridge h.counted .refl (h.genuine.append []) (by simp)

theorem genuine_setPage (h : GenuineLink log s) (p : ℕ) (link : RobotLink) :
    GenuineLink log (s.setPage p link) := ⟨h.frames, h.clients, h.answers⟩

theorem kept_drop (h : Inv log s) (p : ℕ) : Kept log (s.dropPage p) := by
  refine h.page_moves rfl h.counted (h.matched.drop p)
    (genuine_setPage (h.genuine.append _) p _) (advances_drop (h.queued p)) ?_
  intro call outcome hmem
  obtain ⟨number, -, heq⟩ := List.mem_map.1 hmem
  cases heq
  trivial

theorem timeout_frame (p number : ℕ) :
    (link.timeout p number : RobotLink × List (SaveEffect R)).1.socket = link.socket ∧
    (link.timeout p number : RobotLink × List (SaveEffect R)).1.pendingCalls p =
      link.pendingCalls p ∧
    ∀ call outcome, .settled call outcome ∈
      (link.timeout p number : RobotLink × List (SaveEffect R)).2 →
        outcome = .rejected .timeout := by
  unfold RobotLink.timeout
  split_ifs
  · refine ⟨rfl, ?_, ?_⟩
    · simp only [RobotLink.pendingCalls, List.map_map]
      apply List.map_congr_left
      intro q _
      simp only [Function.comp_apply]
      split_ifs <;> rfl
    · intro call outcome hmem
      cases List.mem_singleton.1 hmem
      rfl
  · exact ⟨rfl, rfl, by simp⟩

theorem kept_timer (h : Inv log s) (p number : ℕ) : Kept log (s.step (.timer p number)) := by
  obtain ⟨hsocket, hcalls, hwhy⟩ := @timeout_frame R (s.page p) p number
  refine h.page_moves rfl h.counted (h.matched.setPage_same hsocket hcalls)
    (genuine_setPage (h.genuine.append _) p _) (advances_timeout (h.queued p) number) ?_
  intro call outcome hmem
  rw [hwhy call outcome hmem]
  trivial

theorem kept_refl (h : Inv log s) : Kept log (s, []) :=
  h.bridge h.counted .refl (h.genuine.append []) (by simp)

theorem advances_hello (h : link.Queued) (p : ℕ) (socket : Option ℕ) (hello : Option Bool) :
    Advances p link ({ link with socket := socket, hello := hello }, ([] : List (SaveEffect R))) :=
  ⟨⟨h.numbers, h.below⟩, fun _ => rfl, fun _ _ _ => rfl⟩

theorem answerSave_cons {q : PendingSave} {saves : List PendingSave} (p : ℕ)
    (outcome : SaveOutcome) (hsaves : link.saves = q :: saves) :
    (link.answerSave p outcome : RobotLink × List (SaveEffect R)) =
      ({ link with saves := saves },
        if q.timedOut then [] else [.settled ⟨p, q.number⟩ outcome]) := by
  rw [RobotLink.answerSave, hsaves]

theorem Matched.oldest (h : Matched s) {p d : ℕ} {answer : SaveAnswer} {rest : List BridgeText}
    (hsocket : (s.page p).socket = some d)
    (htexts : (s.conn d).toPage = .answer answer :: rest) :
    ∃ q saves, (s.page p).saves = q :: saves ∧ answer.call = ⟨p, q.number⟩ := by
  have hfront := (h.order p d hsocket).1
  unfold waiting at hfront
  rw [htexts, List.filterMap_cons] at hfront
  cases hsaves : (s.page p).saves with
  | nil =>
    rw [RobotLink.pendingCalls, hsaves] at hfront
    exact absurd hfront (by simp [BridgeText.call?])
  | cons q saves =>
    rw [RobotLink.pendingCalls, hsaves] at hfront
    exact ⟨q, saves, rfl, (List.cons_prefix_cons.1 hfront).1⟩

theorem kept_deliver (h : Inv log s) (p : ℕ) : Kept log (s.deliver p) := by
  unfold deliver
  split
  · exact kept_refl h
  · rename_i d hsocket
    split
    · exact kept_refl h
    · rename_i text rest htexts
      have hrest : GenuineLink log (s.setConn d { s.conn d with toPage := rest }) := by
        refine genuine_setConn h.genuine (h.genuine.frames d) ?_
        intro a ha
        exact h.genuine.answers d a (htexts ▸ List.mem_cons_of_mem _ ha)
      cases text with
      | hello save =>
        exact h.page_moves rfl h.counted (h.matched.deliver hsocket htexts hsocket rfl)
          (genuine_setPage (hrest.append []) p _)
          (advances_hello (h.queued p) p (s.page p).socket (some save)) (by simp)
      | answer answer =>
        obtain ⟨q, saves, hsaves, hcall⟩ := h.matched.oldest hsocket htexts
        have hgenuine := h.genuine.answers d answer (htexts ▸ List.mem_cons_self)
        have hadvances := @advances_answer R (s.page p) p (h.queued p) answer.reply.outcome
        have hanswer := @answerSave_cons R (s.page p) q saves p answer.reply.outcome hsaves
        have hpage : (s.setConn d { s.conn d with toPage := rest }).page p = s.page p := rfl
        dsimp only
        rw [hpage, hanswer]
        rw [hanswer] at hadvances
        refine h.page_moves rfl h.counted (h.matched.deliver hsocket htexts hsocket ?_)
          (genuine_setPage (hrest.append _) p _) hadvances ?_
        · simp [RobotLink.pendingCalls, hsaves, BridgeText.call?, hcall]
        · intro call outcome hmem
          dsimp only at hmem
          split_ifs at hmem
          · simp at hmem
          · cases List.mem_singleton.1 hmem
            rw [← hcall]
            exact justified_answer hgenuine

theorem justified_refusal {frameBytes : ℕ} {ready : Bool} {why : SaveFailure}
    (h : link.refusal frameBytes ready = some why) (call : CallId) :
    Justified log call (.rejected why) := by
  unfold RobotLink.refusal at h
  split_ifs at h <;> cases h <;> trivial

theorem kept_save (h : Inv log s) (p : ℕ) (recording : R) (frameBytes : ℕ) (ready : Bool) :
    Kept log (s.save p recording frameBytes ready) := by
  unfold SaveLink.save
  dsimp only
  cases hrefusal : (s.page p).refusal frameBytes ready with
  | some why =>
    refine h.page_moves rfl h.counted (h.matched.setPage_same rfl rfl)
      (genuine_setPage (h.genuine.append _) p _)
      (advances_refuse (h.queued p) recording why) ?_
    intro call outcome hmem
    simp only [List.mem_cons, reduceCtorEq, List.not_mem_nil, or_false, false_or] at hmem
    cases hmem
    exact justified_refusal hrefusal _
  | none =>
    cases hsocket : (s.page p).socket with
    | none => exact kept_refl h
    | some d =>
      have hadvances := @advances_push R (s.page p) p (h.queued p) recording
      rw [hsocket] at hadvances
      refine h.page_moves rfl h.counted (h.matched.push hsocket rfl ?_) ?_ hadvances (by simp)
      · simp [RobotLink.pendingCalls]
      · have hgenuine := h.genuine.append [SaveEffect.called ⟨p, (s.page p).calls⟩ recording]
        refine genuine_setConn (genuine_setPage hgenuine p _) ?_ (hgenuine.answers d)
        intro frame hframe
        rcases List.mem_append.1 hframe with hold | hnew
        · exact hgenuine.frames d frame hold
        · obtain rfl := List.mem_singleton.1 hnew
          exact List.mem_append_right _ (List.mem_singleton.2 rfl)

theorem counted_accept (h : s.server.Counted) :
    ({ s.server with
        clients := s.server.clients ++ [s.server.nextId], nextId := s.server.nextId + 1 } :
      SaveServer R).Counted where
  client := h.client
  fresh := fun d hd => h.fresh d ((Nat.le_succ _).trans hd)
  known := by
    intro d hd
    rcases List.mem_append.1 hd with hold | hnew
    · exact (h.known d hold).trans (Nat.lt_succ_self _)
    · obtain rfl := List.mem_singleton.1 hnew
      exact Nat.lt_succ_self _
  total := by
    have hnone : (s.server.client s.server.nextId).held = 0 := by
      rw [SaveClient.held, (h.fresh s.server.nextId le_rfl).1]
      rfl
    show s.server.admittedSaves = ∑ d ∈ Finset.range (s.server.nextId + 1), _
    rw [Finset.sum_range_succ, hnone, add_zero]
    exact h.total
  total_le := h.total_le

theorem inv_accept (h : Inv log s) {p : ℕ} (hsaves : (s.page p).saves = []) (save : Bool) :
    Inv log ({ s with
        server := { s.server with
          clients := s.server.clients ++ [s.server.nextId], nextId := s.server.nextId + 1 }
        conn := Function.update s.conn s.server.nextId { toPage := [.hello save] } }.setPage p
          { s.page p with socket := some s.server.nextId }) := by
  have hgenuine := genuine_setConn (c := s.server.nextId) h.genuine
    (show ∀ frame ∈ ({ toPage := [.hello save] } : SaveConn R).toBridge, _ by simp) (by simp)
  rw [← List.append_nil log]
  refine (h.page_moves rfl (counted_accept h.counted) (h.matched.accept h.counted hsaves save) ?_
    (advances_hello (h.queued p) p (some s.server.nextId) (s.page p).hello) (by simp)).inv
  rw [List.append_nil]
  exact ⟨hgenuine.frames, hgenuine.clients, hgenuine.answers⟩

theorem kept_connect (h : Inv log s) (p : ℕ) (save : Bool) : Kept log (s.connect p save) := by
  have hdrop := kept_drop h p
  have hsaves : ((s.dropPage p).1.page p).saves = [] := by
    simp [dropPage, setPage, RobotLink.drop]
  unfold SaveLink.connect
  generalize s.dropPage p = r at hdrop hsaves ⊢
  obtain ⟨s', effects⟩ := r
  dsimp only at hsaves ⊢
  split_ifs with hfull
  · exact hdrop
  · exact ⟨inv_accept hdrop.inv hsaves save, hdrop.justified⟩

theorem kept_step (h : Inv log s) (e : SaveEvent R) : Kept log (s.step e) := by
  cases e with
  | connect page save => exact kept_connect h page save
  | lose page => exact kept_drop h page
  | save page recording frameBytes ready => exact kept_save h page recording frameBytes ready
  | timer page number => exact kept_timer h page number
  | deliver page => exact kept_deliver h page
  | receive c => exact kept_receive h c
  | run c => exact kept_works h (SaveServer.runSave_works h.counted)
  | work c result => exact kept_works h (SaveServer.work_works h.counted result)
  | send c => exact kept_send h c
  | leave c => exact kept_leave h c

/-! ## Every run -/

/-- Pages and a bridge before anything happens. -/
def new (maxClients : ℕ) : SaveLink R := { server := { maxClients := maxClients } }

/-- What the steps let out. -/
def outputs (steps : List (SaveStep R)) : List (SaveEffect R) := steps.flatMap Step.out

/-- A promise that gets an id, or a message of the bridge, gets the one of its
call, which was before. -/
structure OwnAnswers (steps : List (SaveStep R)) : Prop where
  resolved : ∀ x t y call id, steps = x ++ t :: y → .settled call (.resolved id) ∈ t.out →
    ∃ recording, .called call recording ∈ outputs x ∧ .stored call recording id ∈ outputs x
  rejected : ∀ x t y call message, steps = x ++ t :: y →
    .settled call (.rejected (.bridge message)) ∈ t.out →
      .answered call (.recordError message) ∈ outputs x

/-- What the bridge keeps of the saves, at one moment. -/
structure WithinLimits (s : SaveLink R) : Prop where
  all : ∀ connections : Finset ℕ,
    ∑ c ∈ connections, (s.server.client c).held ≤ maxAdmittedSaves
  each : ∀ c, (s.server.client c).held ≤ maxAdmittedSavesPerClient
  owed : ∀ c, (s.server.client c).owedAnswers ≤ maxOwedAnswersPerClient ∧
    (s.server.client c).owedAnswers = (s.server.client c).tasks.length
  idle : ∀ c, (s.server.client c).tasks = [] →
    (s.server.client c).owedAnswers = 0 ∧ (s.server.client c).admittedSaves = 0
  allIdle : (∀ c, (s.server.client c).tasks = []) → s.server.admittedSaves = 0

theorem inv_new (maxClients : ℕ) : Inv [] (new maxClients : SaveLink R) where
  counted := ⟨fun _ => ⟨rfl, rfl, Nat.zero_le _, Nat.zero_le _⟩, fun _ _ => ⟨rfl, rfl⟩, by simp [new],
    by simp [new, SaveClient.held], Nat.zero_le _⟩
  matched := ⟨by simp [new], by simp [new], by simp [new]⟩
  genuine := ⟨by simp [new], fun _ => ⟨by simp [new], by simp [new]⟩, by simp [new]⟩
  queued := fun _ => ⟨List.nodup_nil, by simp [new]⟩
  settled := by simp [new, RobotLink.settledCount]

theorem withinLimits (h : s.server.Counted) : WithinLimits s where
  all := by
    intro connections
    have hzero : ∀ c ∈ connections, c ∉ Finset.range s.server.nextId →
        (s.server.client c).held = 0 := by
      intro c _ hc
      rw [Finset.mem_range, not_lt] at hc
      rw [SaveClient.held, (h.fresh c hc).1]
      rfl
    calc ∑ c ∈ connections, (s.server.client c).held
        ≤ ∑ c ∈ Finset.range s.server.nextId, (s.server.client c).held :=
          Finset.sum_le_sum_of_ne_zero fun c hc hne => by_contra fun hout => hne (hzero c hc hout)
      _ = s.server.admittedSaves := h.total.symm
      _ ≤ maxAdmittedSaves := h.total_le
  each c := (h.client c).admitted ▸ (h.client c).admitted_le
  owed c := ⟨(h.client c).owed_le, (h.client c).owed⟩
  idle := by
    intro c hnone
    have howed := (h.client c).owed
    have hadmitted := (h.client c).admitted
    rw [SaveClient.held, hnone] at hadmitted
    rw [hnone] at howed
    exact ⟨howed, hadmitted⟩
  allIdle := by
    intro hnone
    rw [h.total]
    apply Finset.sum_eq_zero
    intro c _
    rw [SaveClient.held, hnone c]
    rfl

theorem outputs_snoc (steps : List (SaveStep R)) (t : SaveStep R) :
    outputs (steps ++ [t]) = outputs steps ++ t.out := by
  simp [outputs]

theorem OwnAnswers.snoc {steps : List (SaveStep R)} {t : SaveStep R} (h : OwnAnswers steps)
    (ht : ∀ call outcome, .settled call outcome ∈ t.out → Justified (outputs steps) call outcome) :
    OwnAnswers (steps ++ [t]) where
  resolved := by
    intro x r y call id hsplit hmem
    rcases split_snoc hsplit with ⟨rfl, rfl⟩ | ⟨y', rfl⟩
    · exact ht call _ hmem
    · exact h.resolved x r y' call id rfl hmem
  rejected := by
    intro x r y call message hsplit hmem
    rcases split_snoc hsplit with ⟨rfl, rfl⟩ | ⟨y', rfl⟩
    · exact ht call _ hmem
    · exact h.rejected x r y' call message rfl hmem

theorem run_inv (maxClients : ℕ) (events : List (SaveEvent R)) :
    Inv (outputs (trace step (new maxClients) events)) (final step (new maxClients) events) ∧
      OwnAnswers (trace step (new maxClients : SaveLink R) events) := by
  refine trace_history (I := fun past s => Inv (outputs past) s ∧ OwnAnswers past)
    (fun _ _ => True) ⟨inv_new maxClients, ?_, ?_⟩ ?_ events (fun _ _ _ _ => trivial)
  · intro x t y call id hsplit
    simp at hsplit
  · intro x t y call message hsplit
    simp at hsplit
  · rintro past s e ⟨hinv, hown⟩ -
    have hkept := kept_step hinv e
    rw [outputs_snoc]
    exact ⟨hkept.inv, hown.snoc hkept.justified⟩

theorem settled_of_timer (maxClients : ℕ) (events : List (SaveEvent R)) {page number : ℕ}
    (hcalled : number < ((final step (new maxClients : SaveLink R) events).page page).calls) :
    (outputs (trace step (new maxClients : SaveLink R) (events ++ [.timer page number]))).countP
      (settles ⟨page, number⟩) = 1 := by
  have hinv := (run_inv maxClients (events ++ [.timer page number])).1
  rw [hinv.settled, final_append]
  have hlink : (final step (final step (new maxClients : SaveLink R) events)
      [.timer page number]).page page =
        (((final step (new maxClients : SaveLink R) events).page page).timeout page number :
          RobotLink × List (SaveEffect R)).1 := by
    simp [step, setPage]
  rw [hlink]
  generalize (final step (new maxClients : SaveLink R) events).page page = link at hcalled ⊢
  unfold RobotLink.timeout
  split_ifs with hopen
  · refine if_pos ⟨hcalled, ?_⟩
    rw [mem_openSaves_timedOut]
    exact fun hmem => hmem.2 rfl
  · exact if_pos ⟨hcalled, hopen⟩

/-- For every interleaving: a promise gets an id, or a message of the bridge,
only from the answer to its own call; it is settled once, unless it is still
open, and at the latest when its timer fires; and the saves the bridge keeps
are within the limits of a connection and of all connections. -/
theorem saves_get_own_answers (maxClients : ℕ) (events : List (SaveEvent R)) :
    OwnAnswers (trace step (new maxClients : SaveLink R) events) ∧
      (∀ page number,
        (outputs (trace step (new maxClients : SaveLink R) events)).countP
            (settles ⟨page, number⟩) =
          ((final step (new maxClients : SaveLink R) events).page page).settledCount number) ∧
      (∀ page number,
        number < ((final step (new maxClients : SaveLink R) events).page page).calls →
          (outputs (trace step (new maxClients : SaveLink R)
            (events ++ [.timer page number]))).countP (settles ⟨page, number⟩) = 1) ∧
      WithinLimits (final step (new maxClients : SaveLink R) events) := by
  obtain ⟨hinv, hown⟩ := run_inv maxClients events
  exact ⟨hown, hinv.settled, fun page number => settled_of_timer maxClients events,
    withinLimits hinv.counted⟩

/-- The frames of a page that are kept for writing, over all its connections. -/
def heldBy (s : SaveLink R) (page : ℕ) : ℕ :=
  ∑ c ∈ Finset.range s.server.nextId, (s.server.client c).tasks.countP fun task =>
    task.text.isSome && task.call.page == page

/-- A page that comes back while its save is being written saves again: the
bridge keeps two frames of it. -/
theorem reconnected_page_holds_two :
    ¬ ∀ (events : List (SaveEvent String)) (page : ℕ),
      heldBy (final step (new 24) events) page ≤ 1 := by
  intro h
  exact absurd (h [.connect 0 true, .deliver 0, .save 0 "first" 42 true, .receive 1, .run 1,
    .run 1, .lose 0, .leave 1, .connect 0 true, .deliver 0, .save 0 "second" 43 true,
    .receive 2] 0) (by decide)

end SaveLink

end Questix.LabBridge
