/-
Questix.LabBridge.FanOutTheorems — what reaches a page, and in which order
(`ws_server.py`).

The payloads of a stream reach a client in the order they were published, each
once. Two more things hold of the runs whose steps are all in time (`InTime`):
the newest payload since the greeting is on its way, and an answer is not held
up by a stream (`fans_out`). Where a step is not, the clearing of the slots
behind the greeting takes away what came during it, and a stream that comes
again while the slots are sent goes before the answers
(`newest_cleared_and_answer_held_up`).

`Turn` says what a step is to one client, and `Stands` what it is to one stream
of the client.
-/
import Questix.LabBridge.FanOut

namespace Questix.LabBridge.FanOut

open Questix.Lib

variable {P : Type*}

abbrev HubStep (P : Type*) := Lib.Step (Hub P) (Event P) (List (Label P))

/-! ## What a run shows -/

def events (past : List (HubStep P)) : List (Event P) := past.map Step.event

def labels (past : List (HubStep P)) : List (Label P) := past.flatMap Step.out

/-- The payloads of a stream that were sent to a client. -/
def sentOn (id : ℕ) (stream : String) (L : List (Label P)) : List P :=
  L.filterMap fun
    | .sentPayload id' stream' payload =>
      if id' = id ∧ stream' = stream then some payload else none
    | _ => none

def answersPut (id : ℕ) (L : List (Label P)) : List String :=
  L.filterMap fun
    | .answerPut id' text => if id' = id then some text else none
    | _ => none

def answersSent (id : ℕ) (L : List (Label P)) : List String :=
  L.filterMap fun
    | .sentAnswer id' text => if id' = id then some text else none
    | _ => none

/-- The payloads of a stream that were published for a client. -/
def published (id : ℕ) (stream : String) (es : List (Event P)) : List P :=
  es.filterMap fun
    | .publish stream' payload => if stream' = stream then some payload else none
    | .publishTo id' stream' payload =>
      if id' = id ∧ stream' = stream then some payload else none
    | _ => none

/-- Those of them that the loop has not taken up. -/
def queued (calls : List (Call P)) (id : ℕ) (stream : String) : List P :=
  calls.filterMap fun call =>
    if call.reaches id ∧ call.stream = stream then some call.payload else none

/-- What was sent to a client, what is in its slot and what the loop has not taken up. -/
def standing (past : List (HubStep P)) (h : Hub P) (id : ℕ) (stream : String) : List P :=
  sentOn id stream (labels past) ++
    (((h.client id).slots.get stream).toList ++ queued h.calls id stream)

/-- After `past` an answer waits that was put into the outbox before `b`. -/
def WaitsSince (id : ℕ) (L b : List (Label P)) : Prop :=
  ∃ a text, L = a ++ .answerPut id text :: b ∧
    (answersSent id L).length ≤ (answersPut id a).length

/-- The client was greeted by the step before `b`. -/
def GreetedSince (id : ℕ) (past b : List (HubStep P)) : Prop :=
  ∃ a t, past = a ++ t :: b ∧ Label.greeted id ∈ t.out

/-- What is asked of a state, after the steps `past`. -/
structure FansOut (past : List (HubStep P)) (h : Hub P) : Prop where
  in_order : ∀ id stream,
    (sentOn id stream (labels past)).Sublist (published id stream (events past))
  /-- The last payload since the greeting is the last one that stands. -/
  newest : ∀ id ∈ h.connected, ∀ b, GreetedSince id past b → ∀ stream,
    ∀ payload ∈ (published id stream (events b)).getLast?,
      (standing past h id stream).getLast? = some payload
  answers_in_order : ∀ id,
    answersSent id (labels past) ++ (h.client id).outbox = answersPut id (labels past)
  /-- Since an answer was put that waits, no stream has been sent twice. -/
  answers_first : ∀ id b, WaitsSince id (labels past) b → ∀ stream,
    (sentOn id stream b).length ≤ 1

/-- When a call of `_offer` comes in time to a client. -/
structure InTime (past : List (HubStep P)) (t : HubStep P) : Prop where
  /-- During the greeting: where it was published before it. -/
  greeting : ∀ call rest, t.event = .call → t.pre.calls = call :: rest →
    ∀ id ∈ t.pre.connected, call.reaches id = true →
      ∀ texts, (t.pre.client id).phase = .greeting texts → ∀ b, GreetedSince id past b →
        (published id call.stream (events b)).length <
          (queued t.pre.calls id call.stream).length
  /-- While the slots are sent: where its stream was not, since an answer was put that waits. -/
  streaming : ∀ call rest, t.event = .call → t.pre.calls = call :: rest →
    ∀ id ∈ t.pre.connected, call.reaches id = true →
      (t.pre.client id).phase = .streaming → ∀ b, WaitsSince id (labels past) b →
        sentOn id call.stream b = []

/-! ## What a step is to one client -/

def Label.client : Label P → ℕ
  | .greeted id | .answerPut id _ | .sentText id _ | .sentAnswer id _ | .sentPayload id _ _ => id

def mine (id : ℕ) (L : List (Label P)) : List (Label P) := L.filter (·.client = id)

/-- How the handler, and then the sender, goes on. -/
inductive Goes (c : Client P) (id : ℕ) : Client P → List (Label P) → Prop
  | stays : Goes c id c []
  | greets {text rest} : c.phase = .hello →
      Goes c id { c with phase := .greeting rest } [.greeted id, .sentText id text]
  | greets_none : c.phase = .hello →
      Goes c id { c with slots := [], phase := .waiting } [.greeted id]
  | greeting {text rest rest'} : c.phase = .greeting rest →
      Goes c id { c with phase := .greeting rest' } [.sentText id text]
  | clears {rest} : c.phase = .greeting rest →
      Goes c id { c with slots := [], phase := .waiting } []
  | answers {text rest event} : c.outbox = text :: rest →
      Goes c id { c with outbox := rest, phase := .answering, event := event }
        [.sentAnswer id text]
  | sends {stream payload rest event} : c.slots = (stream, payload) :: rest →
      c.phase = .streaming ∨ c.outbox = [] →
      Goes c id { c with slots := rest, phase := .streaming, event := event }
        [.sentPayload id stream payload]
  | rests {event} : c.slots = [] → Goes c id { c with phase := .waiting, event := event } []

/-- What a step is to client `id`. -/
inductive Turn (h : Hub P) (id : ℕ) : Event P → Client P → List (Label P) → Prop
  | other {e} : (∀ call rest, e = .call → h.calls = call :: rest → id ∈ h.connected →
      ¬ call.reaches id) → Turn h id e (h.client id) []
  | offered {call rest} : h.calls = call :: rest → id ∈ h.connected → call.reaches id = true →
      Turn h id .call ((h.client id).offer call.stream call.payload) []
  | connected {text} : h.nextId = id → Turn h id .connect .new [.sentText id text]
  | resumed {texts c L} : id ∈ h.connected → Goes (h.client id) id c L →
      Turn h id (.resume id texts) c L
  | answered {text} : id ∈ h.connected →
      Turn h id (.answer id text) ((h.client id).putAnswer text) [.answerPut id text]
  | failed : Turn h id (.fail id) { h.client id with phase := .closed } []

variable {c c' : Client P} {id : ℕ} {L out out' : List (Label P)} {h : Hub P} {e : Event P}
  {stream : String}

theorem goes_nextPayload {event : Bool} (hc : c.phase = .streaming ∨ c.outbox = []) :
    Goes c id ({ c with event := event }.nextPayload id).1
      ({ c with event := event }.nextPayload id).2 := by
  unfold Client.nextPayload
  cases hslots : c.slots with
  | nil => simpa [hslots] using @Goes.rests _ c id event hslots
  | cons item rest =>
    obtain ⟨stream, payload⟩ := item
    exact .sends hslots hc

theorem goes_nextAnswer {event : Bool} :
    Goes c id ({ c with event := event }.nextAnswer id).1
      ({ c with event := event }.nextAnswer id).2 := by
  unfold Client.nextAnswer
  cases hout : c.outbox with
  | nil => simpa [hout] using @goes_nextPayload _ _ id event (.inr hout)
  | cons text rest => exact .answers hout

theorem goes_resume (texts : List String) :
    Goes c id (c.resume id texts).1 (c.resume id texts).2 := by
  unfold Client.resume
  cases hphase : c.phase with
  | hello =>
    cases texts with
    | nil => exact .greets_none hphase
    | cons text rest => exact .greets hphase
  | greeting rest =>
    cases rest with
    | nil => exact .clears hphase
    | cons text rest => exact .greeting hphase
  | waiting =>
    dsimp only
    split
    · exact goes_nextAnswer
    · exact .stays
  | answering => exact @goes_nextAnswer _ _ _ c.event
  | streaming => exact @goes_nextPayload _ _ _ c.event (.inl hphase)
  | closed => exact .stays

theorem Goes.mine (hgoes : Goes c id c' L) (id' : ℕ) :
    mine id' L = if id = id' then L else [] := by
  unfold FanOut.mine
  cases hgoes <;> by_cases h : id = id' <;> simp [Label.client, h]

theorem turn_setClient {id' : ℕ} {r : Client P × List (Label P)} (hcall : e ≠ .call)
    (hr : Turn h id' e r.1 r.2) (hmine : ∀ id, mine id r.2 = if id' = id then r.2 else []) :
    Turn h id e ((h.setClient id' r).1.client id) (mine id (h.setClient id' r).2) := by
  simp only [Hub.setClient, hmine]
  by_cases hid : id' = id
  · subst hid
    simpa using hr
  · rw [if_neg hid, Function.update_of_ne (Ne.symm hid)]
    exact .other fun _ _ he => absurd he hcall

theorem turn (hello : String) (h : Hub P) (e : Event P) (id : ℕ) :
    Turn h id e ((h.step hello e).1.client id) (mine id (h.step hello e).2) := by
  cases e with
  | publish stream payload =>
    have hclient : (h.publish stream payload).client = h.client := by
      unfold Hub.publish
      split <;> rfl
    simp only [Hub.step, hclient]
    exact .other nofun
  | publishTo => exact .other nofun
  | leave => exact .other nofun
  | call =>
    simp only [Hub.step]
    cases hcalls : h.calls with
    | nil => exact .other fun call rest _ hcons => by simp [hcalls] at hcons
    | cons call rest =>
      by_cases hreach : id ∈ h.connected ∧ call.reaches id = true
      · simpa [Hub.offer, hreach, mine] using Turn.offered hcalls hreach.1 hreach.2
      · have hother : Turn h id .call (h.client id) [] := by
          refine .other fun call' rest' _ hcons hid hcall => hreach ⟨hid, ?_⟩
          rw [hcalls, List.cons.injEq] at hcons
          rw [hcons.1]
          exact hcall
        simpa [Hub.offer, hreach, mine] using hother
  | connect =>
    simp only [Hub.step]
    split
    · exact .other nofun
    · refine turn_setClient (r := (.new, _)) nofun (.connected rfl) fun id => ?_
      by_cases hid : h.nextId = id <;> simp [mine, Label.client, hid]
  | resume id' texts =>
    simp only [Hub.step]
    split
    next hid =>
      have hgoes := @goes_resume _ (h.client id') id' texts
      exact turn_setClient nofun (.resumed hid hgoes) hgoes.mine
    · exact .other nofun
  | answer id' text =>
    simp only [Hub.step]
    split
    next hid =>
      refine turn_setClient nofun (.answered hid) fun id => ?_
      by_cases hid : id' = id <;> simp [mine, Label.client, hid]
    · exact .other nofun
  | fail id' =>
    simp only [Hub.step]
    split
    · exact turn_setClient nofun .failed fun id => by simp [mine]
    · exact .other nofun

/-! ## Views of a run -/

theorem sentOn_nil : sentOn id stream ([] : List (Label P)) = [] := rfl

theorem sentOn_append (L L' : List (Label P)) :
    sentOn id stream (L ++ L') = sentOn id stream L ++ sentOn id stream L' :=
  List.filterMap_append

theorem answersPut_append (L L' : List (Label P)) :
    answersPut id (L ++ L') = answersPut id L ++ answersPut id L' :=
  List.filterMap_append

theorem answersSent_append (L L' : List (Label P)) :
    answersSent id (L ++ L') = answersSent id L ++ answersSent id L' :=
  List.filterMap_append

theorem published_append (es es' : List (Event P)) :
    published id stream (es ++ es') = published id stream es ++ published id stream es' :=
  List.filterMap_append

theorem events_snoc (past : List (HubStep P)) (t : HubStep P) :
    events (past ++ [t]) = events past ++ [t.event] := List.map_append

theorem labels_snoc (past : List (HubStep P)) (t : HubStep P) :
    labels (past ++ [t]) = labels past ++ t.out := by
  simp [labels]

theorem filterMap_mine {α : Type*} {f : Label P → Option α}
    (hf : ∀ l, l.client ≠ id → f l = none) (L : List (Label P)) :
    (mine id L).filterMap f = L.filterMap f := by
  unfold mine
  induction L with
  | nil => rfl
  | cons l L ih =>
    by_cases hl : l.client = id
    · rw [List.filter_cons_of_pos (by simpa using hl), List.filterMap_cons, List.filterMap_cons, ih]
    · rw [List.filter_cons_of_neg (by simpa using hl), List.filterMap_cons, hf l hl, ih]

theorem sentOn_mine (L : List (Label P)) : sentOn id stream (mine id L) = sentOn id stream L := by
  refine filterMap_mine (fun l hl => ?_) L
  cases l <;> simp_all [Label.client]

theorem answersPut_mine (L : List (Label P)) : answersPut id (mine id L) = answersPut id L := by
  refine filterMap_mine (fun l hl => ?_) L
  cases l <;> simp_all [Label.client]

theorem answersSent_mine (L : List (Label P)) : answersSent id (mine id L) = answersSent id L := by
  refine filterMap_mine (fun l hl => ?_) L
  cases l <;> simp_all [Label.client]

theorem mem_mine {l : Label P} : l ∈ mine id L ↔ l ∈ L ∧ l.client = id := by
  simp [mine]

theorem WaitsSince.mem {b : List (Label P)} (hw : WaitsSince id L b) :
    ∃ text, Label.answerPut id text ∈ L := by
  obtain ⟨a, text, rfl, -⟩ := hw
  exact ⟨text, by simp⟩

theorem waitsSince_append {b : List (Label P)} (hw : WaitsSince id (L ++ out) b) :
    (∃ b', b = b' ++ out ∧ WaitsSince id L b') ∨
      ∃ text, Label.answerPut id text ∈ out ∧ b.Sublist out := by
  obtain ⟨a, text, hsplit, hle⟩ := hw
  rcases List.append_eq_append_iff.mp hsplit with ⟨a', rfl, hout⟩ | ⟨c, rfl, hc⟩
  · exact .inr ⟨text, by simp [hout], by simp [hout]⟩
  · cases c with
    | nil =>
      simp only [List.nil_append] at hc
      exact .inr ⟨text, by simp [← hc], by simp [← hc]⟩
    | cons x c =>
      rw [List.cons_append, List.cons.injEq] at hc
      obtain ⟨rfl, rfl⟩ := hc
      rw [answersSent_append, List.length_append] at hle
      exact .inl ⟨c, rfl, a, text, rfl, by omega⟩

theorem greetedSince_snoc {past b : List (HubStep P)} {t : HubStep P}
    (hg : GreetedSince id (past ++ [t]) b) :
    (b = [] ∧ Label.greeted id ∈ t.out) ∨ ∃ b', b = b' ++ [t] ∧ GreetedSince id past b' := by
  obtain ⟨a, u, hsplit, hu⟩ := hg
  rcases snoc_eq_append_cons hsplit with ⟨rfl, rfl, rfl⟩ | ⟨b', rfl, rfl⟩
  · exact .inl ⟨rfl, hu⟩
  · exact .inr ⟨b', rfl, a, u, rfl, hu⟩

theorem GreetedSince.mem {past b : List (HubStep P)} (hg : GreetedSince id past b) :
    Label.greeted id ∈ labels past := by
  obtain ⟨a, t, rfl, ht⟩ := hg
  simp [labels, ht]

/-! ## Ids -/

/-- The ids up to now are below the next one. -/
structure Fresh (L : List (Label P)) (h : Hub P) : Prop where
  connected : ∀ id ∈ h.connected, id < h.nextId
  labels : ∀ l ∈ L, l.client < h.nextId

theorem ids_step (hello : String) (h : Hub P) (e : Event P) :
    h.nextId ≤ (h.step hello e).1.nextId ∧
      ∀ id ∈ (h.step hello e).1.connected, id ∈ h.connected ∨
        id = h.nextId ∧ id < (h.step hello e).1.nextId := by
  cases e with
  | publish stream payload =>
    simp only [Hub.step, Hub.publish]
    split <;> exact ⟨Nat.le_refl _, fun _ hid => .inl hid⟩
  | publishTo => exact ⟨Nat.le_refl _, fun _ hid => .inl hid⟩
  | call =>
    simp only [Hub.step]
    split <;> exact ⟨Nat.le_refl _, fun _ hid => .inl hid⟩
  | connect =>
    simp only [Hub.step]
    split
    · exact ⟨Nat.le_refl _, fun _ hid => .inl hid⟩
    · refine ⟨Nat.le_succ _, fun id hid => ?_⟩
      rcases List.mem_cons.mp hid with rfl | hid
      · exact .inr ⟨rfl, Nat.lt_succ_self _⟩
      · exact .inl hid
  | leave id => exact ⟨Nat.le_refl _, fun _ hid => .inl (List.mem_filter.mp hid).1⟩
  | resume | answer | fail =>
    simp only [Hub.step]
    split <;> exact ⟨Nat.le_refl _, fun _ hid => .inl hid⟩

theorem Fresh.step (hello : String) (hf : Fresh L h) (e : Event P) :
    Fresh (L ++ (h.step hello e).2) (h.step hello e).1 := by
  obtain ⟨hle, hconn⟩ := ids_step hello h e
  refine ⟨fun id hid => ?_, fun l hl => ?_⟩
  · rcases hconn id hid with hid | ⟨-, hlt⟩
    · exact Nat.lt_of_lt_of_le (hf.connected id hid) hle
    · exact hlt
  · rcases List.mem_append.mp hl with hl | hl
    · exact Nat.lt_of_lt_of_le (hf.labels l hl) hle
    · have hmine : l ∈ mine l.client (h.step hello e).2 := mem_mine.mpr ⟨hl, rfl⟩
      have hturn := turn hello h e l.client
      generalize l.client = id at hmine hturn ⊢
      generalize hM : mine id (h.step hello e).2 = M at hmine hturn
      generalize (h.step hello e).1.client id = c at hturn
      cases hturn with
      | other | offered | failed => cases hmine
      | connected hid =>
        simp only [Hub.step] at hM ⊢
        split at hM
        · cases hM
        next hmax =>
          rw [if_neg hmax, ← hid]
          exact Nat.lt_succ_self _
      | resumed hid | answered hid => exact Nat.lt_of_lt_of_le (hf.connected id hid) hle

/-! ## Answers -/

/-- What is kept of a client. -/
structure Kept (id : ℕ) (L : List (Label P)) (c : Client P) : Prop where
  distinct : c.slots.Distinct
  hello : c.phase = .hello → Label.greeted id ∉ L
  in_order : answersSent id L ++ c.outbox = answersPut id L
  /-- A stream that was sent since an answer was put that waits is not sent again. -/
  first : ∀ b, WaitsSince id L b → ∀ stream, (sentOn id stream b).length ≤ 1 ∧
    (c.phase = .streaming → (c.slots.get stream).isSome → sentOn id stream b = [])

theorem outbox_ne_nil {b : List (Label P)} (horder : answersSent id L ++ c.outbox = answersPut id L)
    (hw : WaitsSince id L b) : c.outbox ≠ [] := by
  obtain ⟨a, text, rfl, hle⟩ := hw
  intro hout
  have hlen := congrArg List.length horder
  rw [hout, List.append_nil, answersPut_append, List.length_append] at hlen
  simp only [answersPut, List.filterMap_cons, if_true, List.length_cons] at hlen hle
  omega

theorem first_step (hfirst : ∀ b, WaitsSince id L b → ∀ stream,
      (sentOn id stream (b ++ out)).length ≤ 1 ∧
        (c'.phase = .streaming → (c'.slots.get stream).isSome → sentOn id stream (b ++ out) = []))
    (hput : ∀ text stream, Label.answerPut id text ∈ out → sentOn id stream out = []) :
    ∀ b, WaitsSince id (L ++ out) b → ∀ stream, (sentOn id stream b).length ≤ 1 ∧
      (c'.phase = .streaming → (c'.slots.get stream).isSome → sentOn id stream b = []) := by
  intro b hw stream
  rcases waitsSince_append hw with ⟨b', rfl, hbefore⟩ | ⟨text, htext, hsub⟩
  · exact hfirst b' hbefore stream
  · have hb : sentOn id stream b = [] :=
      List.sublist_nil.mp (hput text stream htext ▸ hsub.filterMap _)
    exact ⟨by simp [hb], fun _ _ => hb⟩

theorem in_order_step (hk : Kept id L c) (hout : mine id out = out')
    (horder : answersSent id out' ++ c'.outbox = c.outbox ++ answersPut id out') :
    answersSent id (L ++ out) ++ c'.outbox = answersPut id (L ++ out) := by
  rw [answersSent_append, answersPut_append, ← answersSent_mine out, ← answersPut_mine out, hout,
    List.append_assoc, horder, ← List.append_assoc, hk.in_order]

theorem Kept.quiet (hk : Kept id L c) (hout : mine id out = out')
    (hdistinct : c'.slots.Distinct)
    (hhello : c'.phase = .hello → c.phase = .hello ∧ Label.greeted id ∉ out')
    (horder : answersSent id out' ++ c'.outbox = c.outbox ++ answersPut id out')
    (hsent : ∀ stream, sentOn id stream out' = [])
    (hslots : c'.phase = .streaming → c.phase = .streaming ∧ c'.slots = c.slots) :
    Kept id (L ++ out) c' where
  distinct := hdistinct
  hello hphase hmem := by
    obtain ⟨hphase, hnone⟩ := hhello hphase
    rcases List.mem_append.mp hmem with hmem | hmem
    · exact hk.hello hphase hmem
    · exact hnone (hout ▸ mem_mine.mpr ⟨hmem, rfl⟩)
  in_order := in_order_step hk hout horder
  first := by
    have hnone : ∀ stream, sentOn id stream out = [] :=
      fun stream => by rw [← sentOn_mine, hout, hsent]
    refine first_step (fun b hw stream => ?_) fun _ stream _ => hnone stream
    rw [sentOn_append, hnone, List.append_nil]
    obtain ⟨hone, hwait⟩ := hk.first b hw stream
    refine ⟨hone, fun hphase hsome => ?_⟩
    obtain ⟨hphase, hsame⟩ := hslots hphase
    exact hwait hphase (hsame ▸ hsome)

/-- A payload is sent behind the answers, or in its turn among the slots. -/
theorem Kept.sends {payload : P} {rest : Slots String P} {event : Bool} (hk : Kept id L c)
    (hslots : c.slots = (stream, payload) :: rest) (hc : c.phase = .streaming ∨ c.outbox = [])
    (hout : mine id out = [.sentPayload id stream payload]) :
    Kept id (L ++ out) { c with slots := rest, phase := .streaming, event := event } where
  distinct := (hslots ▸ hk.distinct : Slots.Distinct _).tail
  hello := nofun
  in_order := in_order_step hk hout (by simp [answersSent, answersPut])
  first := by
    have hsent : ∀ stream', sentOn id stream' out = if stream = stream' then [payload] else [] := by
      intro stream'
      rw [← sentOn_mine, hout]
      by_cases hstream : stream = stream' <;> simp [sentOn, hstream]
    refine first_step (fun b hw stream' => ?_) fun text _ htext => ?_
    · have hphase : c.phase = .streaming := hc.resolve_right (outbox_ne_nil hk.in_order hw)
      obtain ⟨hone, hwait⟩ := hk.first b hw stream'
      rw [hslots, Slots.get_cons] at hwait
      rw [sentOn_append, hsent]
      by_cases hstream : stream = stream'
      · subst hstream
        rw [if_pos rfl] at hwait ⊢
        rw [hwait hphase rfl]
        refine ⟨by simp, fun _ hsome => ?_⟩
        have hgone : Slots.get rest stream = none :=
          (hslots ▸ hk.distinct : Slots.Distinct _).get_tail
        simp [hgone] at hsome
      · rw [if_neg hstream, List.append_nil]
        rw [if_neg (Ne.symm hstream)] at hwait
        exact ⟨hone, fun _ => hwait hphase⟩
    · have hmem := mem_mine.mpr ⟨htext, rfl⟩
      rw [Label.client, hout] at hmem
      simp at hmem

theorem Kept.offered {payload : P} (hk : Kept id L c) (hout : mine id out = [])
    (htime : c.phase = .streaming → ∀ b, WaitsSince id L b → sentOn id stream b = []) :
    Kept id (L ++ out) (c.offer stream payload) where
  distinct := hk.distinct.put stream payload
  hello hphase hmem := by
    rcases List.mem_append.mp hmem with hmem | hmem
    · exact hk.hello hphase hmem
    · have := mem_mine.mpr ⟨hmem, rfl⟩
      rw [Label.client, hout] at this
      cases this
  in_order := in_order_step hk hout (by simp [answersSent, answersPut, Client.offer])
  first := by
    have hnone : ∀ stream, sentOn id stream out = [] :=
      fun stream => by rw [← sentOn_mine, hout]; rfl
    refine first_step (fun b hw stream' => ?_) fun _ stream _ => hnone stream
    rw [sentOn_append, hnone, List.append_nil]
    obtain ⟨hone, hwait⟩ := hk.first b hw stream'
    refine ⟨hone, fun hphase hsome => ?_⟩
    change ((c.slots.put stream payload).get stream').isSome at hsome
    rw [Slots.get_put] at hsome
    split at hsome
    next hstream =>
      subst hstream
      exact htime hphase b hw
    next => exact hwait hphase hsome

theorem Kept.start {text : String} (hid : h.nextId = id) (hf : Fresh L h)
    (hout : mine id out = [.sentText id text]) : Kept id (L ++ out) .new := by
  have hmine : mine id (L ++ out) = [.sentText id text] := by
    have hnone : mine id L = [] := by
      refine List.filter_eq_nil_iff.mpr fun l hl => ?_
      have hlt := hf.labels l hl
      simp only [decide_eq_true_eq]
      omega
    rw [mine, List.filter_append, ← mine, ← mine, hnone, hout, List.nil_append]
  have hmem : ∀ {l : Label P}, l ∈ L ++ out → l.client = id → l = .sentText id text := by
    intro l hl hclient
    have := mem_mine.mpr ⟨hl, hclient⟩
    rw [hmine] at this
    exact List.mem_singleton.mp this
  refine ⟨List.nodup_nil, fun _ hgreeted => (nomatch hmem hgreeted rfl), ?_, fun b hw => ?_⟩
  · rw [← answersSent_mine, ← answersPut_mine, hmine]
    rfl
  · obtain ⟨text', htext⟩ := hw.mem
    nomatch hmem htext rfl

theorem Kept.goes (hk : Kept id L c) (hgoes : Goes c id c' out') (hout : mine id out = out') :
    Kept id (L ++ out) c' := by
  have hnil : (Slots.Distinct ([] : Slots String P)) := List.nodup_nil
  cases hgoes with
  | stays =>
    exact hk.quiet hout hk.distinct (by simp) (by simp [answersSent, answersPut])
      (fun _ => rfl) (by simp)
  | sends hslots hc => exact hk.sends hslots hc hout
  | answers houtbox =>
    exact hk.quiet hout hk.distinct nofun
      (by simp [answersSent, answersPut, houtbox]) (fun _ => rfl) nofun
  | greets | greeting | rests =>
    exact hk.quiet hout hk.distinct nofun
      (by simp [answersSent, answersPut]) (fun _ => rfl) nofun
  | greets_none | clears =>
    exact hk.quiet hout hnil nofun
      (by simp [answersSent, answersPut]) (fun _ => rfl) nofun

theorem Kept.step (hello : String) (hk : Kept id L (h.client id)) (hf : Fresh L h) (e : Event P)
    (htime : ∀ call rest, e = .call → h.calls = call :: rest → id ∈ h.connected →
      call.reaches id = true → (h.client id).phase = .streaming →
        ∀ b, WaitsSince id L b → sentOn id call.stream b = []) :
    Kept id (L ++ (h.step hello e).2) ((h.step hello e).1.client id) := by
  have hturn := turn hello h e id
  generalize (h.step hello e).2 = out at hturn ⊢
  generalize (h.step hello e).1.client id = c at hturn ⊢
  generalize hout : mine id out = out' at hturn
  cases hturn with
  | other => exact hk.goes .stays hout
  | offered hcalls hid hreach =>
    exact hk.offered hout (htime _ _ rfl hcalls hid hreach)
  | connected hid =>
    exact Kept.start hid hf hout
  | resumed _ hgoes => exact hk.goes hgoes hout
  | answered =>
    exact hk.quiet hout hk.distinct (by simp [Client.putAnswer])
      (by simp [answersSent, answersPut, Client.putAnswer]) (fun _ => rfl)
      (by simp [Client.putAnswer])
  | failed =>
    exact hk.quiet hout hk.distinct nofun
      (by simp [answersSent, answersPut]) (fun _ => rfl) nofun

/-! ## Payloads -/

/-- What a step is to a stream of client `id`: what it sends of it is `sent`, and what it
publishes `pub`. -/
inductive Stands (h h' : Hub P) (e : Event P) (id : ℕ) (stream : String) (sent pub : List P) :
    Prop
  | moves :
    sent ++ ((h'.client id).slots.get stream).toList =
      ((h.client id).slots.get stream).toList →
    queued h'.calls id stream = queued h.calls id stream ++ pub →
    (∀ texts, (h'.client id).phase = .greeting texts →
      (h.client id).phase = .hello ∨ ∃ texts', (h.client id).phase = .greeting texts') →
    Stands h h' e id stream sent pub
  | comes (call rest) : e = .call → h.calls = call :: rest → h'.calls = rest →
    id ∈ h.connected → call.reaches id = true → call.stream = stream →
    (h'.client id).slots.get stream = some call.payload →
    (h'.client id).phase = (h.client id).phase → sent = [] → pub = [] →
    Stands h h' e id stream sent pub
  | cleared : (h'.client id).slots.get stream = none → h'.calls = h.calls →
    ((h.client id).phase = .hello ∨ ∃ texts, (h.client id).phase = .greeting texts) →
    (h'.client id).phase = .waiting → sent = [] → pub = [] →
    Stands h h' e id stream sent pub
  | away : id ∉ h.connected →
    (sent ++ (((h'.client id).slots.get stream).toList ++ queued h'.calls id stream)).Sublist
      (((h.client id).slots.get stream).toList ++ (queued h.calls id stream ++ pub)) →
    Stands h h' e id stream sent pub

theorem queued_step (hello : String) (h : Hub P) (e : Event P) (id : ℕ) (stream : String) :
    queued (h.step hello e).1.calls id stream =
        queued h.calls id stream ++ published id stream [e] ∨
      (h.connected = [] ∧ (h.step hello e).1.calls = h.calls) ∨
      ∃ call rest, e = .call ∧ h.calls = call :: rest ∧ (h.step hello e).1.calls = rest := by
  cases e with
  | publish stream' payload =>
    simp only [Hub.step, Hub.publish]
    split
    next hnone => exact .inr (.inl ⟨List.isEmpty_iff.mp hnone, rfl⟩)
    next =>
      left
      by_cases hstream : stream' = stream <;>
        simp [queued, published, Call.reaches, hstream]
  | publishTo id' stream' payload =>
    left
    by_cases hid : id' = id <;> by_cases hstream : stream' = stream <;>
      simp [Hub.step, Hub.publishTo, queued, published, Call.reaches, hid, hstream]
  | call =>
    simp only [Hub.step]
    cases hcalls : h.calls with
    | nil => exact .inl (by simp [hcalls, published])
    | cons call rest => exact .inr (.inr ⟨call, rest, trivial, rfl, rfl⟩)
  | leave => exact .inl (by simp [Hub.step, published])
  | connect | resume | answer | fail =>
    left
    simp only [Hub.step]
    split <;> simp [Hub.setClient, published]

theorem queued_cons (call : Call P) (rest : List (Call P)) (id : ℕ) (stream : String) :
    queued (call :: rest) id stream =
      (if call.reaches id = true ∧ call.stream = stream then [call.payload] else []) ++
        queued rest id stream := by
  unfold queued
  rw [List.filterMap_cons]
  split <;> split <;> simp_all

theorem stands (hello : String) (hk : Kept id L (h.client id)) (hf : Fresh L h) (e : Event P)
    (stream : String) :
    Stands h (h.step hello e).1 e id stream (sentOn id stream (h.step hello e).2)
      (published id stream [e]) := by
  have hturn := turn hello h e id
  have hq := queued_step hello h e id stream
  rw [← sentOn_mine]
  generalize mine id (h.step hello e).2 = out at hturn ⊢
  generalize hc : (h.step hello e).1.client id = c at hturn
  cases hturn with
  | other hother =>
    rcases hq with hq | ⟨hnone, hq⟩ | ⟨call, rest, rfl, hcalls, hq⟩
    · exact .moves (by simp [hc, sentOn]) hq fun texts hphase => .inr ⟨texts, hc ▸ hphase⟩
    · refine .away (by simp [hnone]) ?_
      rw [hc, hq, sentOn_nil, List.nil_append]
      exact (List.Sublist.refl _).append (List.sublist_append_left _ _)
    · by_cases hid : id ∈ h.connected
      · refine .moves (by simp [hc, sentOn]) ?_ fun texts hphase => .inr ⟨texts, hc ▸ hphase⟩
        rw [hq, hcalls, queued_cons, if_neg fun hreach => hother _ _ rfl hcalls hid hreach.1]
        simp [published]
      · refine .away hid ?_
        rw [hc, hq, hcalls, queued_cons, sentOn_nil, List.nil_append, List.append_assoc]
        refine (List.Sublist.refl _).append ?_
        exact (List.sublist_append_left _ _).trans (List.sublist_append_right _ _)
  | @offered call rest hcalls hid hreach =>
    have hq : (h.step hello .call).1.calls = rest := by simp [Hub.step, hcalls, Hub.offer]
    by_cases hstream : call.stream = stream
    · refine .comes call rest rfl hcalls hq hid hreach hstream ?_ (by rw [hc]; rfl) rfl rfl
      rw [hc, ← hstream]
      exact (Slots.get_put _ _ _ _).trans (if_pos rfl)
    · refine .moves ?_ ?_ fun texts hphase => .inr ⟨texts, by rw [hc] at hphase; exact hphase⟩
      · rw [hc]
        simp only [sentOn, List.filterMap_nil, List.nil_append]
        exact congrArg _ ((Slots.get_put _ _ _ _).trans (if_neg (Ne.symm hstream)))
      · rw [hq, hcalls, queued_cons, if_neg fun hreach => hstream hreach.2]
        simp [published]
  | connected hid =>
    have hnew : id ∉ h.connected := fun hmem => by
      have := hf.connected id hmem
      omega
    have hq : (h.step hello .connect).1.calls = h.calls := by
      simp only [Hub.step]
      split <;> rfl
    refine .away hnew ?_
    rw [hc, hq]
    simp [Client.new, sentOn, published, Slots.get]
  | @resumed texts _ _ hid hgoes =>
    have hq : (h.step hello (.resume id texts)).1.calls = h.calls := by
      simp only [Hub.step]
      split <;> rfl
    have hq' : queued (h.step hello (.resume id texts)).1.calls id stream =
        queued h.calls id stream ++ published id stream [.resume id texts] := by
      simp [hq, published]
    cases hgoes with
    | stays =>
      exact .moves (by simp [hc, sentOn]) hq' fun texts hphase => .inr ⟨texts, hc ▸ hphase⟩
    | greets hphase => exact .moves (by simp [hc, sentOn]) hq' fun _ _ => .inl hphase
    | greeting hphase => exact .moves (by simp [hc, sentOn]) hq' fun _ _ => .inr ⟨_, hphase⟩
    | greets_none hphase =>
      exact .cleared (by rw [hc]; rfl) hq (.inl hphase) (by rw [hc]) rfl rfl
    | clears hphase =>
      exact .cleared (by rw [hc]; rfl) hq (.inr ⟨_, hphase⟩) (by rw [hc]) rfl rfl
    | answers => exact .moves (by simp [hc, sentOn]) hq' (by simp [hc])
    | @sends stream' payload rest _ hslots =>
      refine .moves ?_ hq' (by simp [hc])
      have hgone : Slots.get rest stream' = none :=
        (hslots ▸ hk.distinct : Slots.Distinct _).get_tail
      rw [hc, hslots, Slots.get_cons]
      by_cases hstream : stream = stream'
      · subst hstream
        simp [sentOn, hgone]
      · simp [sentOn, hstream, Ne.symm hstream]
    | rests => exact .moves (by simp [hc, sentOn]) hq' (by simp [hc])
  | @answered text =>
    have hsame := congrArg Client.phase hc
    refine .moves (by rw [hc]; rfl) ?_ fun texts hphase => .inr ⟨texts, hsame.symm.trans hphase⟩
    simp only [Hub.step]
    split <;> simp [Hub.setClient, published]
  | failed =>
    refine .moves (by rw [hc]; rfl) ?_ (by simp [hc])
    simp only [Hub.step]
    split <;> simp [Hub.setClient, published]

theorem standing_snoc (past : List (HubStep P)) (t : HubStep P) (h : Hub P) :
    standing (past ++ [t]) h id stream = sentOn id stream (labels past) ++
      (sentOn id stream t.out ++
        (((h.client id).slots.get stream).toList ++ queued h.calls id stream)) := by
  rw [standing, labels_snoc, sentOn_append, List.append_assoc]

variable {h' : Hub P} {sent pub before : List P}

theorem Stands.sublist (hs : Stands h h' e id stream sent pub) :
    (sent ++ (((h'.client id).slots.get stream).toList ++ queued h'.calls id stream)).Sublist
      (((h.client id).slots.get stream).toList ++ (queued h.calls id stream ++ pub)) := by
  cases hs with
  | moves hslot hqueue => rw [← List.append_assoc, hslot, hqueue]
  | comes call rest _ hcalls hrest _ hreach hstream hslot _ hsent hpub =>
    rw [hsent, hpub, hslot, hcalls, hrest, queued_cons, if_pos ⟨hreach, hstream⟩]
    simp
  | cleared hslot hcalls _ _ hsent hpub =>
    rw [hsent, hpub, hslot, hcalls]
    simp
  | away _ hsub => exact hsub

/-- The last that stands is the last published: while the client is greeted, the loop has it. -/
theorem Stands.newest {L : List P} (hs : Stands h h' e id stream sent pub)
    (hid : id ∈ h.connected)
    (hlast : ∀ payload ∈ before.getLast?,
      (L ++ (((h.client id).slots.get stream).toList ++ queued h.calls id stream)).getLast? =
        some payload)
    (hgreet : ∀ texts, (h.client id).phase = .greeting texts →
      before <:+ queued h.calls id stream)
    (hhello : (h.client id).phase ≠ .hello) :
    ∀ payload ∈ (before ++ pub).getLast?,
      (L ++ (sent ++ (((h'.client id).slots.get stream).toList ++
        queued h'.calls id stream))).getLast? = some payload := by
  intro payload hpayload
  cases hs with
  | moves hslot hqueue =>
    have hsame : sent ++ (((h'.client id).slots.get stream).toList ++ queued h'.calls id stream) =
        ((h.client id).slots.get stream).toList ++ queued h.calls id stream ++ pub := by
      rw [← List.append_assoc, hslot, hqueue, List.append_assoc]
    rw [hsame, ← List.append_assoc, List.getLast?_append]
    rw [Option.mem_def, List.getLast?_append] at hpayload
    cases hpub : pub.getLast? with
    | some last =>
      rw [hpub] at hpayload
      exact hpayload
    | none =>
      rw [hpub, Option.none_or] at hpayload
      exact hlast payload hpayload
  | comes call rest _ hcalls hrest _ hreach hstream hslot _ hsent hpub =>
    rw [hpub, List.append_nil] at hpayload
    have := hlast payload hpayload
    rw [hcalls, queued_cons, if_pos ⟨hreach, hstream⟩] at this
    rw [hsent, hslot, hrest]
    simpa [List.getLast?_append] using this
  | cleared hslot hcalls hphase _ hsent hpub =>
    obtain ⟨texts, hphase⟩ := hphase.resolve_left hhello
    rw [hpub, List.append_nil] at hpayload
    obtain ⟨older, hqueue⟩ := hgreet texts hphase
    rw [hsent, hslot, hcalls, ← hqueue]
    simp only [Option.toList_none, List.nil_append, List.getLast?_append]
    rw [Option.mem_def] at hpayload
    rw [hpayload]
    rfl
  | away hnot => exact absurd hid hnot

theorem Stands.greeting (hs : Stands h h' e id stream sent pub) (hid : id ∈ h.connected)
    (hgreet : ∀ texts, (h.client id).phase = .greeting texts →
      before <:+ queued h.calls id stream)
    (hhello : (h.client id).phase ≠ .hello)
    (htime : ∀ call rest, e = .call → h.calls = call :: rest → call.reaches id = true →
      call.stream = stream → ∀ texts, (h.client id).phase = .greeting texts →
        before.length < (queued h.calls id stream).length) :
    ∀ texts, (h'.client id).phase = .greeting texts →
      before ++ pub <:+ queued h'.calls id stream := by
  intro texts hphase
  cases hs with
  | moves _ hqueue hgreeting =>
    obtain ⟨texts', hbefore⟩ := (hgreeting texts hphase).resolve_left hhello
    obtain ⟨older, holder⟩ := hgreet texts' hbefore
    rw [hqueue, ← holder]
    exact ⟨older, by rw [List.append_assoc]⟩
  | comes call rest hcall hcalls hrest _ hreach hstream _ hsame _ hpub =>
    rw [hsame] at hphase
    have hshort := htime call rest hcall hcalls hreach hstream texts hphase
    have hsuffix := hgreet texts hphase
    rw [hcalls, queued_cons, if_pos ⟨hreach, hstream⟩, List.singleton_append] at hshort hsuffix
    rw [hpub, List.append_nil, hrest]
    rcases List.suffix_cons_iff.mp hsuffix with hall | hsuffix
    · rw [hall] at hshort
      omega
    · exact hsuffix
  | cleared _ _ _ hwaiting =>
    rw [hwaiting] at hphase
    cases hphase
  | away hnot => exact absurd hid hnot

/-! ## Runs -/

/-- What the steps taken so far and the state have to do with each other. -/
structure Fanned (past : List (HubStep P)) (h : Hub P) : Prop where
  fresh : Fresh (labels past) h
  kept : ∀ id, Kept id (labels past) (h.client id)
  in_order : ∀ id stream,
    (standing past h id stream).Sublist (published id stream (events past))
  newest : ∀ id ∈ h.connected, ∀ b, GreetedSince id past b → ∀ stream,
    ∀ payload ∈ (published id stream (events b)).getLast?,
      (standing past h id stream).getLast? = some payload
  greeting : ∀ id ∈ h.connected, ∀ b, GreetedSince id past b → ∀ stream texts,
    (h.client id).phase = .greeting texts →
      published id stream (events b) <:+ queued h.calls id stream

theorem Fanned.start (maxClients : ℕ) : Fanned ([] : List (HubStep P)) (.empty maxClients) where
  fresh := ⟨nofun, nofun⟩
  kept id := by
    refine ⟨List.nodup_nil, fun _ => List.not_mem_nil, rfl, fun b hw => ?_⟩
    obtain ⟨text, hmem⟩ := hw.mem
    cases hmem
  in_order id stream := List.Sublist.refl _
  newest := nofun
  greeting := nofun

theorem Fanned.step (hello : String) {past : List (HubStep P)} (hg : Fanned past h)
    (e : Event P) (htime : InTime past (stepOf (Hub.step hello) h e)) :
    Fanned (past ++ [stepOf (Hub.step hello) h e]) (h.step hello e).1 := by
  have hlabels : labels (past ++ [stepOf (Hub.step hello) h e]) =
      labels past ++ (h.step hello e).2 := labels_snoc _ _
  have hstands : ∀ id stream, Stands h (h.step hello e).1 e id stream
      (sentOn id stream (h.step hello e).2) (published id stream [e]) :=
    fun id stream => stands hello (hg.kept id) hg.fresh e stream
  -- a client that was greeted before is not new, and not waiting for its hello
  have hbefore : ∀ id ∈ (h.step hello e).1.connected, ∀ b, GreetedSince id past b →
      id ∈ h.connected ∧ (h.client id).phase ≠ .hello := by
    intro id hid b hb
    refine ⟨?_, fun hphase => (hg.kept id).hello hphase hb.mem⟩
    rcases (ids_step hello h e).2 id hid with hid | ⟨rfl, -⟩
    · exact hid
    · exact absurd (hg.fresh.labels _ hb.mem) (Nat.lt_irrefl _)
  refine ⟨?_, fun id => ?_, fun id stream => ?_, fun id hid b hb stream => ?_,
    fun id hid b hb stream => ?_⟩
  · rw [hlabels]
    exact hg.fresh.step hello e
  · rw [hlabels]
    exact (hg.kept id).step hello hg.fresh e fun call rest he hcalls hid hreach hphase =>
      htime.streaming call rest he hcalls id hid hreach hphase
  · rw [standing_snoc, events_snoc, published_append]
    refine List.Sublist.trans ((List.Sublist.refl _).append (hstands id stream).sublist) ?_
    rw [← List.append_assoc, ← List.append_assoc, List.append_assoc (sentOn _ _ _)]
    exact (hg.in_order id stream).append (List.Sublist.refl _)
  · rcases greetedSince_snoc hb with ⟨rfl, -⟩ | ⟨b', rfl, hb'⟩
    · nofun
    · obtain ⟨hconn, hhello⟩ := hbefore id hid b' hb'
      rw [standing_snoc, events_snoc, published_append]
      exact (hstands id stream).newest hconn (hg.newest id hconn b' hb' stream)
        (hg.greeting id hconn b' hb' stream) hhello
  · rcases greetedSince_snoc hb with ⟨rfl, -⟩ | ⟨b', rfl, hb'⟩
    · exact fun _ _ => List.nil_suffix
    · obtain ⟨hconn, hhello⟩ := hbefore id hid b' hb'
      rw [events_snoc, published_append]
      refine (hstands id stream).greeting hconn (hg.greeting id hconn b' hb' stream) hhello ?_
      intro call rest he hcalls hreach hstream texts hphase
      subst hstream
      exact htime.greeting call rest he hcalls id hconn hreach texts hphase b' hb'

/-- What a run of steps in time shows. -/
theorem fans_out (hello : String) (maxClients : ℕ) (es : List (Event P))
    (htime : ∀ a t b, trace (Hub.step hello) (.empty maxClients) es = a ++ t :: b → InTime a t) :
    FansOut (trace (Hub.step hello) (.empty maxClients) es)
      (final (Hub.step hello) (.empty maxClients) es) := by
  have hg : Fanned (trace (Hub.step hello) (.empty maxClients) es)
      (final (Hub.step hello) (.empty maxClients) es) :=
    trace_history InTime (.start maxClients) (fun past h e hg => hg.step hello e) es htime
  refine ⟨fun id stream => ?_, hg.newest, fun id => (hg.kept id).in_order,
    fun id b hw stream => ((hg.kept id).first b hw stream).1⟩
  exact (List.sublist_append_left _ _).trans (hg.in_order id stream)

/-! ## In time, and not -/

/-- No call is made while a client is greeted or its slots are sent. -/
def calm (t : HubStep P) : Bool :=
  match t.event with
  | .call => t.pre.connected.all fun id =>
    match (t.pre.client id).phase with
    | .greeting _ | .streaming => false
    | .hello | .waiting | .answering | .closed => true
  | _ => true

theorem inTime_of_calm {past : List (HubStep P)} {t : HubStep P} (hcalm : calm t = true) :
    InTime past t := by
  unfold calm at hcalm
  constructor
  · intro call rest hcall _ id hid _ texts hphase
    simp only [hcall, List.all_eq_true] at hcalm
    have := hcalm id hid
    simp [hphase] at this
  · intro call rest hcall _ id hid _ hphase
    simp only [hcall, List.all_eq_true] at hcalm
    have := hcalm id hid
    simp [hphase] at this

/-- A page that is greeted, gets a payload and, while it is sent, an answer. -/
def calmRun : List (Event ℕ) :=
  [.publish "telemetry" 0, .connect, .publish "telemetry" 1, .call, .resume 1 ["state"],
    .publish "telemetry" 2, .resume 1 [], .call, .resume 1 [], .answer 1 "saved",
    .resume 1 [], .resume 1 []]

theorem fans_out_calm : FansOut (trace (Hub.step "hello") (.empty 24) calmRun)
    (final (Hub.step "hello") (.empty 24) calmRun) := by
  refine fans_out "hello" 24 calmRun fun a t b h => inTime_of_calm ?_
  have hall : (trace (Hub.step "hello") (.empty 24) calmRun).all calm = true := by
    decide
  rw [h, List.all_append, List.all_cons] at hall
  simp only [Bool.and_eq_true] at hall
  exact hall.2.1

/-- The page is greeted. -/
def greetedRun (texts : List String) : List (Event ℕ) := [.connect, .resume 1 texts]

/-- A state is published while the greeting is sent. -/
def duringGreeting : List (Event ℕ) :=
  greetedRun ["state"] ++ [.publish "state" 1, .call, .resume 1 []]

/-- The telemetry comes again with every payload that is sent, before an answer. -/
def beforeAnswer : List (Event ℕ) :=
  greetedRun [] ++ [.publish "telemetry" 0, .call, .resume 1 [], .answer 1 "saved",
    .publish "telemetry" 1, .call, .resume 1 [], .publish "telemetry" 2, .call, .resume 1 []]

theorem newest_cleared_and_answer_held_up :
    ¬ FansOut (trace (Hub.step "hello") (.empty 24) duringGreeting)
      (final (Hub.step "hello") (.empty 24) duringGreeting) ∧
    ¬ FansOut (trace (Hub.step "hello") (.empty 24) beforeAnswer)
      (final (Hub.step "hello") (.empty 24) beforeAnswer) := by
  constructor
  · intro h
    have hgreeted : GreetedSince 1 (trace (Hub.step "hello") (.empty 24) duringGreeting)
        (trace (Hub.step "hello") (final (Hub.step "hello") (.empty 24) (greetedRun ["state"]))
          [.publish "state" 1, .call, .resume 1 []]) :=
      ⟨trace (Hub.step "hello") (.empty 24) [.connect],
        stepOf (Hub.step "hello") (final (Hub.step "hello") (.empty 24) [.connect])
          (.resume 1 ["state"]), rfl, by decide⟩
    have hlast := h.newest 1 (by decide) _ hgreeted "state" 1 (by decide)
    revert hlast
    decide
  · intro h
    have hwaits : WaitsSince 1 (labels (trace (Hub.step "hello") (.empty 24) beforeAnswer))
        [.sentPayload 1 "telemetry" 1, .sentPayload 1 "telemetry" (2 : ℕ)] :=
      ⟨[.sentText 1 "hello", .greeted 1, .sentPayload 1 "telemetry" 0], "saved",
        by decide, by decide⟩
    have hone := h.answers_first 1 _ hwaits "telemetry"
    revert hone
    decide

end Questix.LabBridge.FanOut
