/-
Questix.Lib.Trace — runs of a deterministic machine, and the rules that lift
a fact about one step to a fact about every run.

A machine is a function `f : σ → ε → σ × ω`: the state it goes to on an
event, and what it let out on the way. Everything the surroundings decide
(the time, the outcome of a write, a message) is part of the event, so that
a statement about every list of events is a statement about every order and
every outcome.

`trace f s es` is the list of steps taken. Three rules carry the proofs:

  * `trace_invariant` and `trace_history` for invariants of the state, alone
    and together with the steps that led to it;
  * `trace_split`, which turns a position in the trace back into a position
    in the list of events;
  * `blockedUntil_trace`, the latch rule: a predicate of the state that is
    set by a trigger, kept by every step that is no release, and that
    excludes the bad step.
-/
import Mathlib.Data.List.Basic
import Mathlib.Data.List.Induction
import Mathlib.Tactic.Common
import Mathlib.Tactic.Push

namespace Questix.Lib

variable {σ ε ω α : Type*}

/-! ## Steps, traces and final states -/

/-- One step of a run: the state before it, the event, what the machine let
out, and the state after it. -/
structure Step (σ ε ω : Type*) where
  pre : σ
  event : ε
  out : ω
  post : σ

/-- The step `f` takes in state `s` on event `e`. -/
def stepOf (f : σ → ε → σ × ω) (s : σ) (e : ε) : Step σ ε ω where
  pre := s
  event := e
  out := (f s e).2
  post := (f s e).1

/-- The steps of the run of `f` from `s` over the events `es`. -/
def trace (f : σ → ε → σ × ω) : σ → List ε → List (Step σ ε ω)
  | _, [] => []
  | s, e :: es => stepOf f s e :: trace f (f s e).1 es

/-- The state the run of `f` from `s` over `es` ends in. -/
def final (f : σ → ε → σ × ω) : σ → List ε → σ
  | s, [] => s
  | s, e :: es => final f (f s e).1 es

variable {f : σ → ε → σ × ω} {s : σ}

@[simp] theorem trace_nil : trace f s [] = [] := rfl
@[simp] theorem trace_cons (e : ε) (es : List ε) :
    trace f s (e :: es) = stepOf f s e :: trace f (f s e).1 es := rfl
@[simp] theorem final_nil : final f s [] = s := rfl
@[simp] theorem final_cons (e : ε) (es : List ε) :
    final f s (e :: es) = final f (f s e).1 es := rfl

theorem trace_append (es₁ es₂ : List ε) : ∀ s : σ,
    trace f s (es₁ ++ es₂) = trace f s es₁ ++ trace f (final f s es₁) es₂ := by
  induction es₁ with
  | nil => intro s; rfl
  | cons e es₁ ih => intro s; simp [ih]

theorem final_append (es₁ es₂ : List ε) : ∀ s : σ,
    final f s (es₁ ++ es₂) = final f (final f s es₁) es₂ := by
  induction es₁ with
  | nil => intro s; rfl
  | cons e es₁ ih => intro s; simp [ih]

theorem map_event_trace (f : σ → ε → σ × ω) (es : List ε) : ∀ s : σ,
    (trace f s es).map Step.event = es := by
  induction es with
  | nil => intro s; rfl
  | cons e es ih => intro s; simp [stepOf, ih]

theorem trace_split_append : ∀ (es : List ε) (s : σ) (a b : List (Step σ ε ω)),
    trace f s es = a ++ b →
      ∃ es₁ es₂, es = es₁ ++ es₂ ∧ a = trace f s es₁ ∧ b = trace f (final f s es₁) es₂
  | es, s, [], b, h => ⟨[], es, rfl, rfl, by simpa using h.symm⟩
  | [], s, t :: a, b, h => by simp at h
  | e :: es, s, t :: a, b, h => by
      simp only [trace_cons, List.cons_append, List.cons.injEq] at h
      obtain ⟨ht, h⟩ := h
      obtain ⟨es₁, es₂, rfl, rfl, rfl⟩ := trace_split_append es _ a b h
      exact ⟨e :: es₁, es₂, rfl, by simp [ht], rfl⟩

theorem trace_split {es : List ε} {a b : List (Step σ ε ω)} {t : Step σ ε ω}
    (h : trace f s es = a ++ t :: b) :
    ∃ es₁ e es₂, es = es₁ ++ e :: es₂ ∧ a = trace f s es₁ ∧
      t = stepOf f (final f s es₁) e ∧ b = trace f t.post es₂ := by
  obtain ⟨es₁, es', rfl, ha, hb⟩ := trace_split_append es s a (t :: b) h
  cases es' with
  | nil => simp at hb
  | cons e es₂ =>
    simp only [trace_cons, List.cons.injEq] at hb
    obtain ⟨rfl, hb⟩ := hb
    exact ⟨es₁, e, es₂, rfl, ha, rfl, hb⟩

theorem eq_stepOf_of_mem_trace {es : List ε} {t : Step σ ε ω}
    (h : t ∈ trace f s es) : t = stepOf f t.pre t.event := by
  obtain ⟨a, b, hab⟩ := List.append_of_mem h
  obtain ⟨_, _, _, _, _, rfl, _⟩ := trace_split hab
  rfl

theorem snoc_eq_append_cons {past x y : List α} {t r : α} (h : past ++ [t] = x ++ r :: y) :
    (y = [] ∧ x = past ∧ r = t) ∨ ∃ y', y = y' ++ [t] ∧ past = x ++ r :: y' := by
  rcases List.eq_nil_or_concat y with rfl | ⟨y', u, rfl⟩
  · obtain ⟨hx, hr⟩ := List.append_inj' h rfl
    exact .inl ⟨rfl, hx.symm, (List.singleton_inj.1 hr).symm⟩
  · rw [List.concat_eq_append, ← List.cons_append, ← List.append_assoc] at h
    obtain ⟨hpast, ht⟩ := List.append_inj' h rfl
    exact .inr ⟨y', by rw [List.concat_eq_append, List.singleton_inj.1 ht], hpast⟩

theorem split_snoc {past x y : List α} {t r : α} (h : past ++ [t] = x ++ r :: y) :
    (x = past ∧ r = t) ∨ ∃ y', past = x ++ r :: y' := by
  rcases snoc_eq_append_cons h with ⟨-, h⟩ | ⟨y', -, h⟩
  · exact .inl h
  · exact .inr ⟨y', h⟩

theorem split_cases {x y x' y' : List α} {t t' : α} (h : x ++ t :: y = x' ++ t' :: y') :
    (t = t' ∧ y = y') ∨ t' ∈ y ∨ t ∈ y' := by
  rcases List.append_eq_append_iff.mp h with ⟨c, -, hc⟩ | ⟨c, -, hc⟩
  · cases c with
    | nil => exact .inl (List.cons.inj hc)
    | cons w c =>
      obtain ⟨-, rfl⟩ := List.cons.inj hc
      exact .inr (.inl (by simp))
  · cases c with
    | nil =>
      obtain ⟨rfl, rfl⟩ := List.cons.inj hc
      exact .inl ⟨rfl, rfl⟩
    | cons w c =>
      obtain ⟨-, rfl⟩ := List.cons.inj hc
      exact .inr (.inr (by simp))

theorem exists_last {p : α → Prop} {l : List α} (h : ∃ a ∈ l, p a) :
    ∃ x a y, l = x ++ a :: y ∧ p a ∧ ∀ b ∈ y, ¬ p b := by
  induction l with
  | nil => simp at h
  | cons b l ih =>
    by_cases hlater : ∃ a ∈ l, p a
    · obtain ⟨x, a, y, rfl, ha, hy⟩ := ih hlater
      exact ⟨b :: x, a, y, rfl, ha, hy⟩
    · have hb : p b := by
        obtain ⟨a, ha, hp⟩ := h
        rcases List.mem_cons.1 ha with rfl | ha
        · exact hp
        · exact absurd ⟨a, ha, hp⟩ hlater
      exact ⟨[], b, l, rfl, hb, fun a ha hp => hlater ⟨a, ha, hp⟩⟩

/-! ## Invariants -/

theorem trace_invariant (I : σ → Prop) (step : ∀ s e, I s → I (f s e).1) :
    ∀ (es : List ε) (s : σ), I s → ∀ t ∈ trace f s es, I t.pre ∧ I t.post
  | [], _, _, t, ht => by simp at ht
  | e :: es, s, h, t, ht => by
      rcases List.mem_cons.1 ht with rfl | ht
      · exact ⟨h, step s e h⟩
      · exact trace_invariant I step es _ (step s e h) t ht

theorem final_invariant (I : σ → Prop) (step : ∀ s e, I s → I (f s e).1) :
    ∀ (es : List ε) (s : σ), I s → I (final f s es)
  | [], _, h => h
  | e :: es, s, h => final_invariant I step es _ (step s e h)

theorem trace_invariant_ok (I : σ → Prop) {ok : σ → ε → Prop}
    (step : ∀ s e, I s → ok s e → I (f s e).1) :
    ∀ (es : List ε) (s : σ), I s → (∀ t ∈ trace f s es, ok t.pre t.event) →
      ∀ t ∈ trace f s es, I t.pre ∧ I t.post
  | [], _, _, _, t, ht => by simp at ht
  | e :: es, s, h, hok, t, ht => by
      have hnext : I (f s e).1 := step s e h (hok (stepOf f s e) (by simp))
      rcases List.mem_cons.1 ht with rfl | ht
      · exact ⟨h, hnext⟩
      · exact trace_invariant_ok I step es _ hnext (fun u hu => hok u (by simp [hu])) t ht

theorem final_invariant_ok (I : σ → Prop) {ok : σ → ε → Prop}
    (step : ∀ s e, I s → ok s e → I (f s e).1) :
    ∀ (es : List ε) (s : σ), I s → (∀ t ∈ trace f s es, ok t.pre t.event) → I (final f s es)
  | [], _, h, _ => h
  | e :: es, s, h, hok =>
      final_invariant_ok I step es _ (step s e h (hok (stepOf f s e) (by simp)))
        (fun t ht => hok t (by simp [ht]))

theorem trace_history {I : List (Step σ ε ω) → σ → Prop}
    (ok : List (Step σ ε ω) → Step σ ε ω → Prop) (start : I [] s)
    (step : ∀ past s e, I past s → ok past (stepOf f s e) →
      I (past ++ [stepOf f s e]) (f s e).1)
    (es : List ε) (hok : ∀ a t b, trace f s es = a ++ t :: b → ok a t) :
    I (trace f s es) (final f s es) := by
  induction es using List.reverseRecOn with
  | nil => exact start
  | append_singleton es e ih =>
    have hlast : trace f s (es ++ [e]) =
        trace f s es ++ stepOf f (final f s es) e :: [] := by simp [trace_append]
    rw [hlast, final_append]
    refine step _ _ _ (ih ?_) (hok _ _ _ hlast)
    intro a t b h
    exact hok a t (b ++ [stepOf f (final f s es) e]) (by rw [hlast, h]; simp)

/-! ## Latches -/

/-- In the list `l`, after a `trig` there is no `bad` before a `rel`. -/
def BlockedUntil (trig bad rel : α → Prop) (l : List α) : Prop :=
  ∀ x t y u z, l = x ++ t :: (y ++ u :: z) → trig t → bad u → ∃ r ∈ y, rel r

theorem final_of_no_release {L : σ → Prop} (rel : Step σ ε ω → Prop) :
    ∀ (es : List ε) (s : σ), L s →
      (∀ t ∈ trace f s es, L t.pre → ¬ rel t → L t.post) →
      (∀ t ∈ trace f s es, ¬ rel t) → L (final f s es)
  | [], _, h, _, _ => h
  | e :: es, s, h, keep, quiet => by
      have h' : L (f s e).1 :=
        keep (stepOf f s e) (by simp) h (quiet (stepOf f s e) (by simp))
      refine final_of_no_release rel es _ h' ?_ ?_
      · intro t ht
        exact keep t (by simp [ht])
      · intro t ht
        exact quiet t (by simp [ht])

theorem blockedUntil_trace (L : σ → Prop) {trig bad rel : Step σ ε ω → Prop}
    {es : List ε} (set : ∀ t ∈ trace f s es, trig t → L t.post)
    (keep : ∀ t ∈ trace f s es, L t.pre → ¬ rel t → L t.post)
    (safe : ∀ t ∈ trace f s es, L t.pre → ¬ bad t) :
    BlockedUntil trig bad rel (trace f s es) := by
  intro x t y u z hl ht hu
  by_contra hno
  push Not at hno
  have mem : ∀ w ∈ t :: (y ++ u :: z), w ∈ trace f s es := by
    intro w hw
    rw [hl]
    exact List.mem_append_right _ hw
  obtain ⟨_, _, es₂, _, _, _, hrest⟩ := trace_split hl
  obtain ⟨es₃, e, es₄, rfl, hy, hu', -⟩ := trace_split hrest.symm
  have hL : L (final f t.post es₃) := by
    refine final_of_no_release rel es₃ t.post (set t (mem t (by simp)) ht) ?_ ?_
    · intro w hw
      rw [← hy] at hw
      exact keep w (mem w (by simp [hw]))
    · intro w hw
      rw [← hy] at hw
      exact hno w hw
  have hpre : u.pre = final f t.post es₃ := by rw [hu']; rfl
  exact safe u (mem u (by simp)) (hpre ▸ hL) hu

/-! ## Two runs in lockstep

A second machine, with states and events of its own, is given for every event
of the first one the event that `m` makes of it. -/

theorem trace_lockstep {σ' ε' ω' γ : Type*} {g : σ' → ε' → σ' × ω'} (R : σ → σ' → Prop)
    {ok : ε → Prop} {m : ε → ε'} {v : ω → γ} {w : ω' → γ}
    (step : ∀ s s' e, R s s' → ok e →
      R (f s e).1 (g s' (m e)).1 ∧ v (f s e).2 = w (g s' (m e)).2) :
    ∀ (es : List ε) (s : σ) (s' : σ'), R s s' → (∀ e ∈ es, ok e) →
      (trace f s es).map (fun t => v t.out) = (trace g s' (es.map m)).map (fun t => w t.out) := by
  intro es
  induction es with
  | nil => intro s s' _ _; rfl
  | cons e es ih =>
    intro s s' h hok
    obtain ⟨hnext, hlook⟩ := step s s' e h (hok e (by simp))
    simp only [trace_cons, List.map_cons, List.cons.injEq]
    exact ⟨hlook, ih _ _ hnext fun e' he' => hok e' (by simp [he'])⟩

/-! ## Observers

An observer reads a list one element at a time and is in a state `k : κ` of
its own. Where a machine lets out a list of outputs at each step, an observer
that follows the machine's state reads the outputs of the whole run, so that
what is allowed within a step is allowed across the steps. -/

section Observer

variable {κ : Type*} {next : κ → α → κ} {ok : κ → α → Prop}

/-- Every element of the list is allowed in the state the observer is in when
it comes. -/
def Allowed (next : κ → α → κ) (ok : κ → α → Prop) : κ → List α → Prop
  | _, [] => True
  | k, a :: l => ok k a ∧ Allowed next ok (next k a) l

@[simp] theorem allowed_nil (k : κ) : Allowed next ok k [] := trivial
@[simp] theorem allowed_cons (k : κ) (a : α) (l : List α) :
    Allowed next ok k (a :: l) ↔ ok k a ∧ Allowed next ok (next k a) l := Iff.rfl

theorem allowed_append (l l' : List α) : ∀ k : κ,
    Allowed next ok k (l ++ l') ↔ Allowed next ok k l ∧ Allowed next ok (l.foldl next k) l' := by
  induction l with
  | nil => intro k; simp
  | cons a l ih => intro k; simp [ih, and_assoc]

theorem allowed_outputs {g : σ → ε → σ × List α} (abs : σ → κ) (I : σ → Prop)
    (keep : ∀ s e, I s → I (g s e).1)
    (step : ∀ s e, I s →
      Allowed next ok (abs s) (g s e).2 ∧ (g s e).2.foldl next (abs s) = abs (g s e).1) :
    ∀ (es : List ε) (s : σ), I s →
      Allowed next ok (abs s) ((trace g s es).flatMap Step.out) ∧
      ((trace g s es).flatMap Step.out).foldl next (abs s) = abs (final g s es)
  | [], _, _ => ⟨trivial, rfl⟩
  | e :: es, s, h => by
      obtain ⟨hok, hfold⟩ := step s e h
      obtain ⟨hoks, hfolds⟩ := allowed_outputs abs I keep step es (g s e).1 (keep s e h)
      simp only [trace_cons, List.flatMap_cons, stepOf, final_cons]
      refine ⟨(allowed_append _ _ _).2 ⟨hok, ?_⟩, ?_⟩
      · rw [hfold]
        exact hoks
      · rw [List.foldl_append, hfold, hfolds]

theorem foldl_of_no_release {L : κ → Prop} (rel : α → Prop)
    (keep : ∀ k a, L k → ¬ rel a → L (next k a)) :
    ∀ (l : List α) (k : κ), L k → (∀ a ∈ l, ¬ rel a) → L (l.foldl next k)
  | [], _, h, _ => h
  | a :: l, k, h, quiet =>
      foldl_of_no_release rel keep l (next k a) (keep k a h (quiet a (by simp)))
        (fun b hb => quiet b (by simp [hb]))

theorem blockedUntil_of_allowed (L : κ → Prop) {trig bad rel : α → Prop}
    (set : ∀ k a, trig a → L (next k a)) (keep : ∀ k a, L k → ¬ rel a → L (next k a))
    (safe : ∀ k a, L k → ok k a → ¬ bad a) {k : κ} {l : List α} (h : Allowed next ok k l) :
    BlockedUntil trig bad rel l := by
  intro x t y u z hl ht hu
  by_contra hno
  push Not at hno
  subst hl
  obtain ⟨-, -, hrest⟩ := (allowed_append x _ k).1 h
  obtain ⟨-, hok, -⟩ := (allowed_append y _ _).1 hrest
  exact safe _ u (foldl_of_no_release rel keep y _ (set _ t ht) hno) hok hu

/-! `latch` is the observer of a latch itself, and what it allows can be
computed. -/

/-- Set by a trigger, cleared by a release. -/
def latch (trig rel : α → Bool) (k : Bool) (a : α) : Bool :=
  if trig a then true else if rel a then false else k

instance [∀ k a, Decidable (ok k a)] : ∀ k l, Decidable (Allowed next ok k l)
  | _, [] => inferInstanceAs (Decidable True)
  | k, a :: l =>
    have : Decidable (Allowed next ok (next k a) l) := instDecidableAllowed (next k a) l
    inferInstanceAs (Decidable (ok k a ∧ Allowed next ok (next k a) l))

theorem allowed_latch {trig bad rel : α → Bool} : ∀ (l : List α) (k : Bool),
    BlockedUntil (fun a => trig a = true) (fun a => bad a = true) (fun a => rel a = true) l →
    (k = true → ∀ y u z, l = y ++ u :: z → bad u = true → ∃ r ∈ y, rel r = true) →
    Allowed (latch trig rel) (fun k a => k = true → bad a = false) k l
  | [], _, _, _ => trivial
  | a :: l, k, h, hk => by
      refine ⟨?_, allowed_latch l _ ?_ ?_⟩
      · intro hset
        by_contra hbad
        obtain ⟨r, hr, -⟩ := hk hset [] a l rfl (Bool.not_eq_false _ ▸ hbad)
        cases hr
      · intro x t y u z hl
        exact h (a :: x) t y u z (by rw [hl]; rfl)
      · intro hset y u z hl hbad
        unfold latch at hset
        split at hset
        · rename_i htrig
          exact h [] a y u z (by rw [hl]; rfl) htrig hbad
        · split at hset
          · cases hset
          · rename_i hrel
            obtain ⟨r, hr, hrr⟩ := hk hset (a :: y) u z (by rw [hl]; rfl) hbad
            rcases List.mem_cons.1 hr with rfl | hr
            · exact absurd hrr hrel
            · exact ⟨r, hr, hrr⟩

theorem blockedUntil_iff_allowed {trig bad rel : α → Bool} {l : List α} :
    BlockedUntil (fun a => trig a = true) (fun a => bad a = true) (fun a => rel a = true) l ↔
      Allowed (latch trig rel) (fun k a => k = true → bad a = false) false l := by
  constructor
  · intro h
    exact allowed_latch l false h nofun
  · intro h
    refine blockedUntil_of_allowed (fun k => k = true) ?_ ?_ ?_ h
    · intro k a htrig
      simp [latch, htrig]
    · intro k a hset hrel
      simp [latch, hset, hrel]
    · intro k a hset hok hbad
      rw [hok hset] at hbad
      cases hbad

end Observer

/-! ## Timed runs -/

section Timed

variable {τ : Type*} [LE τ] {time : ε → τ} {es es₁ es₂ : List ε}

/-- The events of a run come in time order. -/
def Chronological (time : ε → τ) (es : List ε) : Prop :=
  es.Pairwise (fun e e' => time e ≤ time e')

instance [DecidableLE τ] (time : ε → τ) (es : List ε) : Decidable (Chronological time es) :=
  inferInstanceAs (Decidable (es.Pairwise _))

theorem le_time_of_split (h : Chronological time es) {a b : List (Step σ ε ω)}
    {t : Step σ ε ω} (hab : trace f s es = a ++ t :: b) :
    ∀ r ∈ a, time r.event ≤ time t.event := by
  have hev : es = a.map Step.event ++ t.event :: b.map Step.event := by
    rw [← map_event_trace f es s, hab]
    simp
  rw [Chronological, hev, List.pairwise_append] at h
  intro r hr
  exact h.2.2 r.event (List.mem_map_of_mem hr) t.event (by simp)

theorem Chronological.of_append (h : Chronological time (es₁ ++ es₂)) : Chronological time es₁ :=
  (List.pairwise_append.1 h).1

theorem chronological_history {I : List ε → σ → Prop} (start : I [] s)
    (step : ∀ past s e, I past s → (∀ e' ∈ past, time e' ≤ time e) →
      I (past ++ [e]) (f s e).1)
    (h : Chronological time es) : I es (final f s es) := by
  induction es using List.reverseRecOn with
  | nil => exact start
  | append_singleton es e ih =>
    rw [final_append]
    refine step es _ e (ih h.of_append) ?_
    intro e' he'
    exact (List.pairwise_append.1 h).2.2 e' he' e (by simp)

end Timed

end Questix.Lib
