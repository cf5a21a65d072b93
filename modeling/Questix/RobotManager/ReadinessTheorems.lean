/-
Questix.RobotManager.ReadinessTheorems — one query at a time, fresh results,
and no request that is lost.

Between two moves the object is idle, waits for a timer, or has its one worker
(`Phase`). A stale timer may forget a newer one, which then goes off for
nothing: a request that waits has some timer that will go off (`alarm`), not
necessarily the one the object knows. An expiry needs a result, and there is
none while a request waits, so that only the invalidations drop requests.
-/
import Mathlib.Algebra.Order.Archimedean.Basic
import Mathlib.Data.Multiset.Filter
import Mathlib.Tactic.Linarith
import Questix.Lib.Fair
import Questix.RobotManager.RecorderReadiness

namespace Questix.RobotManager.RecorderReadiness

open Questix.Lib

/-! ## What is seen of a run -/

namespace Thread

/-- The generation and the number of the query that the thread is there for. -/
def worker : Thread → Option (ℕ × ℕ)
  | .run generation number => some (generation, number)
  | .query generation number _ => some (generation, number)
  | .publish generation number _ => some (generation, number)
  | _ => none

/-- The result that the thread is about to publish. -/
def result : Thread → Option Preflight
  | .publish _ _ result => some result
  | _ => none

end Thread

/-- The queries under way. -/
def workers (l : Multiset Thread) : Multiset (ℕ × ℕ) := l.filterMap Thread.worker

def placeholders : List Preflight := [notChecked, stale, rechecking, checking]

def Preflight.Checking (r : Preflight) : Prop := r ∈ [rechecking, checking]

instance (r : Preflight) : Decidable r.Checking := inferInstanceAs (Decidable (r ∈ _))

abbrev Event := PoolEvent Call Thread Luck
abbrev Move := Step (Pool Readiness Thread) Event (Option (List Effect))

/-- The object with its threads, at the readings `clock`. -/
def system (clock : ℕ → ℚ) : Pool Readiness Thread → Event →
    Pool Readiness Thread × Option (List Effect) :=
  (Readiness.program clock).step

def effects (t : Move) : List Effect := t.out.getD []

def Effect.startTime : Effect → Option ℚ
  | .started _ time => some time
  | _ => none

def startTimes (t : Move) : List ℚ := (effects t).filterMap Effect.startTime

/-- The move invalidates nothing. -/
def Undisturbed (t : Move) : Prop := .invalidated ∉ effects t ∧ .expired ∉ effects t

/-- The query has started in these moves, and nothing was invalidated since. -/
def Begun (past : List Move) (query : ℕ) : Prop :=
  ∃ started x i y, past = x ++ i :: y ∧ .started query started ∈ effects i ∧
    ∀ u ∈ y, Undisturbed u

/-- The result was published in these moves at time `published`, for a query
that had started in them, and nothing was invalidated since it started. -/
def Published (past : List Move) (r : Preflight) (published : ℚ) : Prop :=
  ∃ query started x i y p z, past = x ++ i :: (y ++ p :: z) ∧
    .started query started ∈ effects i ∧ .published query r published ∈ effects p ∧
    ∀ u ∈ y ++ p :: z, Undisturbed u

/-- The result is such a one, and at time `now` not older than `TTL_SEC`. -/
def Fresh (past : List Move) (now : ℚ) (r : Preflight) : Prop :=
  ∃ published, Published past r published ∧ now < published + TTL_SEC

theorem not_checking_of_checked {r : Preflight} (h : r.checkedAt ≠ none) : ¬ r.Checking := by
  rintro hr
  simp only [Preflight.Checking, List.mem_cons, List.not_mem_nil, or_false] at hr
  rcases hr with rfl | rfl
  · exact h rfl
  · exact h rfl

/-! ## The phases -/

namespace Readiness

variable {clock : ℕ → ℚ} {s : Readiness} {l : Multiset Thread}

/-- A timer that will lead to `_schedule`. -/
def Alarm (s : Readiness) (serial : ℕ) (l : Multiset Thread) : Prop :=
  (serial ∉ s.cancelled ∧ ∃ delay, .timer serial delay ∈ l) ∨ .scheduled ∈ l

/-- Where the object is between two moves. -/
inductive Phase (s : Readiness) (l : Multiset Thread) : Prop where
  | idle (running : s.running = false) (timer : s.timer = none) (pending : s.pending = false)
      (workers : workers l = 0) (shown : ¬ s.result.Checking)
  | waiting (serial : ℕ) (running : s.running = false) (timer : s.timer = some serial)
      (pending : s.pending = true) (expires : s.expires = none) (workers : workers l = 0)
      (alarm : s.Alarm serial l)
  | busy (generation query : ℕ) (running : s.running = true) (timer : s.timer = none)
      (expires : s.expires = none) (workers : workers l = {(generation, query)})
      (generation_le : generation ≤ s.generation)
      (shown : generation ≠ s.generation → ¬ s.result.Checking)

/-- What holds whatever the phase is. -/
structure Sound (s : Readiness) (l : Multiset Thread) : Prop where
  placeholder : s.expires = none → s.result ∈ placeholders
  checked : s.expires ≠ none → s.result.checkedAt ≠ none
  results : ∀ t ∈ l, ∀ r ∈ t.result, r.checkedAt ≠ none
  cancelled : ∀ serial ∈ s.cancelled, serial < s.timers
  known : ∀ serial ∈ s.timer, serial < s.timers

theorem Phase.card_workers (h : Phase s l) : (RecorderReadiness.workers l).card ≤ 1 := by
  cases h with
  | idle _ _ _ workers _ => simp [workers]
  | waiting _ _ _ _ _ workers _ => simp [workers]
  | busy _ _ _ _ _ workers _ _ => simp [workers]

theorem schedule_quiet (h : s.running = true ∨ s.timer ≠ none ∨ s.pending = false) :
    s.schedule clock = (s, [], []) := by
  unfold schedule
  rcases h with h | h | h
  · simp [h]
  · simp [Option.isSome_iff_ne_none.2 h]
  · simp [h]

theorem schedule_free (hrunning : s.running = false) (htimer : s.timer = none)
    (hpending : s.pending = true) :
    s.schedule clock = if 0 < s.delay (s.now clock) then s.wait clock else s.start clock := by
  simp [schedule, hrunning, htimer, hpending]

theorem schedule_cases (hrunning : s.running = false) (htimer : s.timer = none) :
    (s.pending = false ∧ s.schedule clock = (s, [], [])) ∨
      (s.pending = true ∧ 0 < s.delay (s.now clock) ∧ s.schedule clock = s.wait clock) ∨
      (s.pending = true ∧ s.delay (s.now clock) ≤ 0 ∧ s.schedule clock = s.start clock) := by
  cases hpending : s.pending with
  | false => exact .inl ⟨rfl, schedule_quiet (.inr (.inr hpending))⟩
  | true =>
    rw [schedule_free hrunning htimer hpending]
    split
    · rename_i hdelay
      exact .inr (.inl ⟨rfl, hdelay, rfl⟩)
    · rename_i hdelay
      exact .inr (.inr ⟨rfl, not_lt.1 hdelay, rfl⟩)

@[simp] theorem workers_zero : workers 0 = 0 := rfl

theorem workers_cons (t : Thread) (l : Multiset Thread) :
    workers (t ::ₘ l) = t.worker.elim (workers l) (· ::ₘ workers l) := by
  cases h : t.worker with
  | none => exact Multiset.filterMap_cons_none _ _ h
  | some w => exact Multiset.filterMap_cons_some _ _ _ h

theorem phase_schedule (hrunning : s.running = false) (htimer : s.timer = none)
    (hworkers : workers l = 0) (hshown : s.pending = false → ¬ s.result.Checking)
    (hcancelled : ∀ serial ∈ s.cancelled, serial < s.timers) :
    Phase (s.schedule clock).1 ((s.schedule clock).2.1 + l) := by
  rcases schedule_cases hrunning htimer with
    ⟨hpending, h⟩ | ⟨hpending, -, h⟩ | ⟨hpending, -, h⟩
  · rw [h]
    refine .idle hrunning htimer hpending ?_ (hshown hpending)
    simpa using hworkers
  · rw [h]
    refine .waiting s.timers hrunning rfl hpending rfl ?_ (.inl ⟨?_, ?_⟩)
    · simpa [wait, workers_cons, Thread.worker] using hworkers
    · exact fun hmem => lt_irrefl _ (hcancelled _ hmem)
    · exact ⟨s.delay (s.now clock), Multiset.mem_add.2 (.inl (by simp [wait]))⟩
  · rw [h]
    refine .busy s.generation s.queries rfl htimer rfl ?_ le_rfl ?_
    · simp [start, workers_cons, Thread.worker, hworkers]
    · exact fun hne => absurd rfl hne

/-! ## Every move keeps the phases -/

theorem Sound.mono {l' : Multiset Thread} (h : Sound s l)
    (hl : ∀ t ∈ l', ∀ r ∈ t.result, t ∈ l ∨ r.checkedAt ≠ none) : Sound s l' where
  placeholder := h.placeholder
  checked := h.checked
  results t ht r hr := (hl t ht r hr).elim (fun hmem => h.results t hmem r hr) id
  cancelled := h.cancelled
  known := h.known

theorem Sound.invalidate (h : Sound s l) : Sound s.invalidate l where
  placeholder _ := by simp [Readiness.invalidate, placeholders]
  checked hexpires := absurd rfl hexpires
  results := h.results
  cancelled serial hserial := by
    rcases List.mem_append.1 hserial with hmem | hmem
    · exact h.known serial (Option.mem_toList.1 hmem)
    · exact h.cancelled serial hmem
  known serial hserial := by cases hserial

theorem Phase.invalidate (h : Phase s l) : Phase s.invalidate l := by
  have hshown : ¬ notChecked.Checking := by decide
  cases h with
  | idle running _ _ workers _ => exact .idle running rfl rfl workers hshown
  | waiting _ running _ _ _ workers _ => exact .idle running rfl rfl workers hshown
  | busy generation query running _ _ workers generation_le _ =>
    exact .busy generation query running rfl rfl workers
      (Nat.le_succ_of_le generation_le) fun _ => hshown

theorem Sound.schedule (h : Sound s l) :
    Sound (s.schedule clock).1 ((s.schedule clock).2.1 + l) := by
  unfold Readiness.schedule
  split
  · exact h.mono fun t ht _ _ => .inl (by simpa using ht)
  split
  · refine ⟨fun _ => ?_, fun hexpires => absurd rfl hexpires, ?_, ?_, ?_⟩
    · simp [wait, placeholders]
    · intro t ht r hr
      rcases Multiset.mem_add.1 ht with hnew | hold
      · obtain rfl : t = _ := by simpa [wait] using hnew
        cases hr
      · exact h.results t hold r hr
    · intro serial hserial
      exact Nat.lt_succ_of_lt (h.cancelled serial hserial)
    · rintro serial ⟨⟩
      exact Nat.lt_succ_self _
  · refine ⟨fun _ => ?_, fun hexpires => absurd rfl hexpires, ?_, h.cancelled, h.known⟩
    · simp [start, placeholders]
    · intro t ht r hr
      rcases Multiset.mem_add.1 ht with hnew | hold
      · obtain rfl : t = _ := by simpa [start] using hnew
        cases hr
      · exact h.results t hold r hr

/-- The fields that the phase depends on. -/
structure Alike (s s' : Readiness) : Prop where
  generation : s'.generation = s.generation
  result : s'.result = s.result
  expires : s'.expires = s.expires
  running : s'.running = s.running
  pending : s'.pending = s.pending
  timer : s'.timer = s.timer
  cancelled : s'.cancelled = s.cancelled
  timers : s'.timers = s.timers
  lastQuery : s'.lastQuery = s.lastQuery

theorem Sound.alike {s' : Readiness} (h : Sound s l) (hs : Alike s s') : Sound s' l where
  placeholder hexpires := hs.result ▸ h.placeholder (hs.expires ▸ hexpires)
  checked hexpires := hs.result ▸ h.checked (hs.expires ▸ hexpires)
  results := h.results
  cancelled := by
    rw [hs.cancelled, hs.timers]
    exact h.cancelled
  known := by
    rw [hs.timer, hs.timers]
    exact h.known

theorem Phase.alike {s' : Readiness} {l' : Multiset Thread} (h : Phase s l) (hs : Alike s s')
    (hl : workers l' = workers l) (halarm : ∀ serial, s.Alarm serial l → s.Alarm serial l') :
    Phase s' l' := by
  cases h with
  | idle running timer pending workers shown =>
    exact .idle (hs.running.trans running) (hs.timer.trans timer) (hs.pending.trans pending)
      (hl.trans workers) (hs.result ▸ shown)
  | waiting serial running timer pending expires workers alarm =>
    refine .waiting serial (hs.running.trans running) (hs.timer.trans timer)
      (hs.pending.trans pending) (hs.expires.trans expires) (hl.trans workers) ?_
    have hset := halarm serial alarm
    unfold Alarm at hset ⊢
    rwa [hs.cancelled]
  | busy generation query running timer expires workers generation_le shown =>
    refine .busy generation query (hs.running.trans running) (hs.timer.trans timer)
      (hs.expires.trans expires) (hl.trans workers) ?_ ?_
    · rwa [hs.generation]
    · rwa [hs.generation, hs.result]

theorem alike_read (s : Readiness) : Alike s s.read :=
  ⟨rfl, rfl, rfl, rfl, rfl, rfl, rfl, rfl, rfl⟩

theorem alike_lookAtService (s : Readiness) (fresh : Bool) (source : Option String) :
    Alike s (s.lookAtService clock fresh source) := by
  unfold lookAtService
  dsimp only
  split <;> cases fresh <;> exact ⟨rfl, rfl, rfl, rfl, rfl, rfl, rfl, rfl, rfl⟩

theorem alike_observed (s : Readiness) (value : String) :
    Alike s { s with observedService := some value } :=
  ⟨rfl, rfl, rfl, rfl, rfl, rfl, rfl, rfl, rfl⟩

theorem Alarm.of_cons {t : Thread} {serial : ℕ} (h : s.Alarm serial (t ::ₘ l))
    (htimer : ∀ serial delay, t ≠ .timer serial delay) (hscheduled : t ≠ .scheduled) :
    s.Alarm serial l := by
  rcases h with ⟨hserial, delay, hmem⟩ | hmem
  · exact .inl ⟨hserial, delay, (Multiset.mem_cons.1 hmem).resolve_left (htimer serial delay).symm⟩
  · exact .inr ((Multiset.mem_cons.1 hmem).resolve_left hscheduled.symm)

theorem Alarm.add {serial : ℕ} (new : Multiset Thread) (h : s.Alarm serial l) :
    s.Alarm serial (new + l) := by
  rcases h with ⟨hserial, delay, hmem⟩ | hmem
  · exact .inl ⟨hserial, delay, Multiset.mem_add.2 (.inr hmem)⟩
  · exact .inr (Multiset.mem_add.2 (.inr hmem))

theorem alike_refl (s : Readiness) : Alike s s := ⟨rfl, rfl, rfl, rfl, rfl, rfl, rfl, rfl, rfl⟩

/-- The two invariants. -/
def Invariant (s : Readiness) (l : Multiset Thread) : Prop := Sound s l ∧ Phase s l

theorem Phase.idle_of_expires (h : Phase s l) (hexpires : s.expires ≠ none) :
    s.running = false ∧ s.timer = none ∧ s.pending = false ∧ RecorderReadiness.workers l = 0 := by
  cases h with
  | idle running timer pending workers _ => exact ⟨running, timer, pending, workers⟩
  | waiting _ _ _ _ expires _ _ => exact absurd expires hexpires
  | busy _ _ _ _ expires _ _ _ => exact absurd expires hexpires

theorem invariant_snapshot (hsound : Sound s l) (hphase : Phase s l) :
    Invariant (s.snapshot clock).1 ((s.snapshot clock).2.1 + l) := by
  unfold snapshot
  split
  · rename_i expires hexpires
    split
    · obtain ⟨hrunning, -, -, hworkers⟩ :=
        hphase.idle_of_expires (by rw [hexpires]; exact Option.some_ne_none _)
      have hnext := (hsound.alike (alike_read s)).invalidate
      simp only [Multiset.coe_nil, Multiset.zero_add]
      refine ⟨⟨fun _ => ?_, fun hne => absurd rfl hne, hnext.results, hnext.cancelled, hnext.known⟩,
        .idle hrunning rfl rfl hworkers ?_⟩
      · simp [placeholders]
      · change ¬ stale.Checking
        decide
    · simp only [Multiset.coe_nil, Multiset.zero_add]
      exact ⟨hsound.alike (alike_read s), hphase.alike (alike_read s) rfl fun _ => id⟩
  · simp only [Multiset.coe_nil, Multiset.zero_add]
    exact ⟨hsound, hphase⟩

theorem phase_request (hsound : Sound s l) (hphase : Phase s l) :
    Phase (schedule clock { s with pending := true }).1
      ((schedule clock { s with pending := true }).2.1 + l) := by
  cases hphase with
  | idle running timer pending workers _ =>
    exact phase_schedule running timer workers (fun h => absurd h (by simp)) hsound.cancelled
  | waiting serial running timer pending expires workers alarm =>
    rw [schedule_quiet (.inr (.inl (by simp [timer])))]
    simp only [Multiset.coe_nil, Multiset.zero_add]
    exact .waiting serial running timer rfl expires workers alarm
  | busy generation query running timer expires workers generation_le shown =>
    rw [schedule_quiet (s := { s with pending := true }) (.inl running)]
    simp only [Multiset.coe_nil, Multiset.zero_add]
    exact .busy generation query running timer expires workers generation_le shown

theorem phase_scheduled (hsound : Sound s l) (hphase : Phase s (.scheduled ::ₘ l)) :
    Phase (schedule clock { s with timer := none }).1
      ((schedule clock { s with timer := none }).2.1 + l) := by
  have hl : RecorderReadiness.workers (.scheduled ::ₘ l) = RecorderReadiness.workers l :=
    workers_cons .scheduled l
  cases hphase with
  | idle running timer pending workers shown =>
    exact phase_schedule running rfl (hl ▸ workers) (fun _ => shown) hsound.cancelled
  | waiting serial running timer pending expires workers alarm =>
    refine phase_schedule running rfl (hl ▸ workers) (fun h => ?_) hsound.cancelled
    exact absurd (h.symm.trans pending) (by simp)
  | busy generation query running timer expires workers generation_le shown =>
    rw [schedule_quiet (s := { s with timer := none }) (.inl running)]
    simp only [Multiset.coe_nil, Multiset.zero_add]
    exact .busy generation query running rfl expires (hl ▸ workers) generation_le shown

theorem alike_finishQuery (s : Readiness) (generation query : ℕ) (deadline : ℚ) (luck : Luck) :
    Alike s (s.finishQuery clock generation query deadline luck).1 := by
  simp only [finishQuery]
  split
  · exact alike_read s
  · exact alike_refl s

theorem Phase.of_worker {t : Thread} {generation query : ℕ} (h : Phase s (t ::ₘ l))
    (ht : t.worker = some (generation, query)) :
    s.running = true ∧ s.timer = none ∧ s.expires = none ∧ RecorderReadiness.workers l = 0 ∧
      generation ≤ s.generation ∧ (generation ≠ s.generation → ¬ s.result.Checking) := by
  have hl : RecorderReadiness.workers (t ::ₘ l) =
      (generation, query) ::ₘ RecorderReadiness.workers l := by
    rw [workers_cons, ht]
    rfl
  cases h with
  | idle _ _ _ workers _ => exact absurd (hl.symm.trans workers) Multiset.cons_ne_zero
  | waiting _ _ _ _ _ workers _ => exact absurd (hl.symm.trans workers) Multiset.cons_ne_zero
  | busy _ _ running timer expires workers generation_le shown =>
    have hone := hl.symm.trans workers
    rw [← Multiset.cons_zero, Multiset.cons_eq_cons] at hone
    rcases hone with ⟨heq, hnone⟩ | ⟨-, cs, -, hnone⟩
    · obtain ⟨rfl, rfl⟩ := Prod.mk.inj heq
      exact ⟨running, timer, expires, hnone, generation_le, shown⟩
    · exact absurd hnone.symm Multiset.cons_ne_zero

theorem sound_publish {generation query : ℕ} {result : Preflight} (h : Sound s l)
    (hresult : result.checkedAt ≠ none) :
    Sound (s.publish clock generation query result).1
      ((s.publish clock generation query result).2.1 + l) := by
  unfold publish
  split
  · exact Sound.schedule ⟨nofun, fun _ => hresult, h.results, h.cancelled, h.known⟩
  · exact Sound.schedule ⟨h.placeholder, h.checked, h.results, h.cancelled, h.known⟩

theorem phase_publish {generation query : ℕ} {result : Preflight} (hsound : Sound s l)
    (hphase : Phase s (.publish generation query result ::ₘ l))
    (hresult : result.checkedAt ≠ none) :
    Phase (s.publish clock generation query result).1
      ((s.publish clock generation query result).2.1 + l) := by
  obtain ⟨-, htimer, -, hworkers, -, hshown⟩ := hphase.of_worker rfl
  unfold publish
  split
  · exact phase_schedule rfl htimer hworkers (fun _ => not_checking_of_checked hresult)
      hsound.cancelled
  · rename_i hgeneration
    exact phase_schedule rfl htimer hworkers (fun _ => hshown hgeneration) hsound.cancelled

theorem invariant_arrive (h : Invariant s l) (call : Call) :
    Invariant (s.arrive clock call).1 ((s.arrive clock call).2.1 + l) := by
  obtain ⟨hsound, hphase⟩ := h
  cases call with
  | setServiceSource =>
    have halike : Alike s { s with serviceAt := none } := ⟨rfl, rfl, rfl, rfl, rfl, rfl, rfl, rfl, rfl⟩
    simp only [arrive, Multiset.coe_nil, Multiset.zero_add]
    exact ⟨hsound.alike halike, hphase.alike halike rfl fun _ => id⟩
  | service fresh source =>
    have halike : Alike s (s.lookAtService clock fresh source) :=
      alike_lookAtService s fresh source
    refine ⟨(hsound.alike halike).mono ?_, hphase.alike halike ?_ fun _ => Alarm.add _⟩
    · intro t ht r hr
      rcases Multiset.mem_add.1 ht with hnew | hold
      · obtain rfl : t = _ := by simpa [arrive] using hnew
        cases hr
      · exact .inl hold
    · simp [arrive, workers_cons, Thread.worker]
  | invalidate =>
    simp only [arrive, Multiset.coe_nil, Multiset.zero_add]
    exact ⟨hsound.invalidate, hphase.invalidate⟩
  | snapshot =>
    exact invariant_snapshot hsound hphase
  | request =>
    have hasked : Sound { s with pending := true } l :=
      ⟨hsound.placeholder, hsound.checked, hsound.results, hsound.cancelled, hsound.known⟩
    exact ⟨hasked.schedule, phase_request hsound hphase⟩

/-- The threads do what they do whoever else is there. -/
theorem invariant_run {t : Thread} (h : Invariant s (t ::ₘ l)) (luck : Luck) :
    Invariant (s.run clock t luck).1 ((s.run clock t luck).2.1 + l) := by
  obtain ⟨hsound, hphase⟩ := h
  have hothers : Sound s l := hsound.mono fun u hu _ _ => .inl (Multiset.mem_cons_of_mem hu)
  cases t with
  | observe value =>
    have hleft : Phase s l :=
      hphase.alike (alike_refl s) (workers_cons (.observe value) l).symm fun _ halarm =>
        halarm.of_cons (fun _ _ => Thread.noConfusion) Thread.noConfusion
    simp only [run, observe]
    split
    · simp only [Multiset.coe_nil, Multiset.zero_add]
      exact ⟨hothers.invalidate.alike (alike_observed _ _),
        hleft.invalidate.alike (alike_observed _ _) rfl fun _ => id⟩
    · simp only [Multiset.coe_nil, Multiset.zero_add]
      exact ⟨hothers.alike (alike_observed _ _),
        hleft.alike (alike_observed _ _) rfl fun _ => id⟩
  | timer serial delay =>
    refine ⟨hothers.mono fun u hu r hr => ?_, hphase.alike (alike_refl s) ?_ fun other halarm => ?_⟩
    · rcases Multiset.mem_add.1 hu with hnew | hold
      · simp only [run] at hnew
        split at hnew
        · exact absurd hnew (by simp)
        · obtain rfl : u = .scheduled := by simpa using hnew
          cases hr
      · exact .inl hold
    · rw [workers_cons]
      simp only [run]
      split <;> simp [workers_cons, Thread.worker]
    · simp only [run]
      rcases halarm with ⟨hother, d, hmem⟩ | hmem
      · rcases Multiset.mem_cons.1 hmem with heq | hmem
        · obtain ⟨rfl, -⟩ := Thread.timer.inj heq
          exact .inr (by simp [hother])
        · exact .inl ⟨hother, d, Multiset.mem_add.2 (.inr hmem)⟩
      · rcases Multiset.mem_cons.1 hmem with heq | hmem
        · cases heq
        · exact .inr (Multiset.mem_add.2 (.inr hmem))
  | scheduled =>
    have hset : Sound { s with timer := none } l :=
      ⟨hothers.placeholder, hothers.checked, hothers.results, hothers.cancelled, nofun⟩
    exact ⟨hset.schedule, phase_scheduled hothers hphase⟩
  | run generation query =>
    refine ⟨(hothers.alike (alike_read s)).mono fun u hu r hr => ?_,
      hphase.alike (alike_read s) ?_ fun other halarm => ?_⟩
    · rcases Multiset.mem_add.1 hu with hnew | hold
      · obtain rfl : u = _ := by simpa [run] using hnew
        cases hr
      · exact .inl hold
    · simp [run, workers_cons, Thread.worker]
    · exact (halarm.of_cons (fun _ _ => Thread.noConfusion) Thread.noConfusion).add _
  | query generation query deadline =>
    have halike : Alike s (s.finishQuery clock generation query deadline luck).1 :=
      alike_finishQuery s generation query deadline luck
    refine ⟨(hothers.alike halike).mono fun u hu r hr => ?_,
      hphase.alike halike ?_ fun other halarm => ?_⟩
    · rcases Multiset.mem_add.1 hu with hnew | hold
      · obtain rfl : u = _ := by simpa [run, finishQuery] using hnew
        obtain rfl : _ = r := Option.some.inj hr
        exact .inr (Option.some_ne_none _)
      · exact .inl hold
    · simp [run, finishQuery, workers_cons, Thread.worker]
    · exact (halarm.of_cons (fun _ _ => Thread.noConfusion) Thread.noConfusion).add _
  | publish generation query result =>
    have hresult : result.checkedAt ≠ none :=
      hsound.results _ (Multiset.mem_cons_self _ l) result rfl
    exact ⟨sound_publish hothers hresult, phase_publish hothers hphase hresult⟩

theorem invariant_step (p : Pool Readiness Thread) (x : Event) (h : Invariant p.shared p.threads) :
    Invariant (system clock p x).1.shared (system clock p x).1.threads := by
  refine Program.step_invariant h (fun call _ => ?_) (fun t l luck _ hl => ?_)
  · exact invariant_arrive h call
  · exact invariant_run (hl ▸ h) luck

theorem invariant_opening : Invariant opening.shared opening.threads := by
  refine ⟨⟨fun _ => by decide, fun hne => absurd rfl hne, ?_, nofun, nofun⟩,
    .idle rfl rfl rfl rfl (by decide)⟩
  intro t ht
  exact absurd ht (Multiset.notMem_zero t)

end Readiness

/-! ## Starts and results -/

section History

variable {past : List Move} {u : Move} {q : ℕ} {r : Preflight} {published : ℚ}

theorem Begun.snoc (h : Begun past q) (hu : Undisturbed u) : Begun (past ++ [u]) q := by
  obtain ⟨started, x, i, y, rfl, hi, hy⟩ := h
  refine ⟨started, x, i, y ++ [u], by simp, hi, fun w hw => ?_⟩
  rcases List.mem_append.1 hw with hw | hw
  · exact hy w hw
  · exact List.mem_singleton.1 hw ▸ hu

theorem Published.snoc (h : Published past r published) (hu : Undisturbed u) :
    Published (past ++ [u]) r published := by
  obtain ⟨query, started, x, i, y, p, z, rfl, hi, hp, hy⟩ := h
  refine ⟨query, started, x, i, y, p, z ++ [u], by simp, hi, hp, fun w hw => ?_⟩
  rw [← List.cons_append, ← List.append_assoc] at hw
  rcases List.mem_append.1 hw with hw | hw
  · exact hy w hw
  · exact List.mem_singleton.1 hw ▸ hu

theorem Begun.publish (h : Begun past q) (hu : Undisturbed u)
    (hpublished : .published q r published ∈ effects u) :
    Published (past ++ [u]) r published := by
  obtain ⟨started, x, i, y, rfl, hi, hy⟩ := h
  refine ⟨q, started, x, i, y, u, [], by simp, hi, hpublished, fun w hw => ?_⟩
  rcases List.mem_append.1 hw with hw | hw
  · exact hy w hw
  · exact List.mem_singleton.1 hw ▸ hu

theorem startTimes_snoc (past : List Move) (u : Move) :
    (past ++ [u]).flatMap startTimes = past.flatMap startTimes ++ startTimes u := by
  simp

end History

namespace Readiness

variable {clock : ℕ → ℚ} {s s' : Readiness} {l l' : Multiset Thread} {past : List Move} {u : Move}

/-- What has happened so far, as the object knows it. -/
structure History (past : List Move) (s : Readiness) (l : Multiset Thread) : Prop where
  times : ∀ time ∈ past.flatMap startTimes, ∃ last ∈ s.lastQuery, time ≤ last
  spaced : (past.flatMap startTimes).Pairwise fun time time' => time + RETRY_SEC ≤ time'
  begun : ∀ q, (s.generation, q) ∈ workers l → Begun past q
  shown : ∀ expires ∈ s.expires, ∃ published, Published past s.result published ∧
    expires = published + TTL_SEC

theorem History.of_no_start (h : History past s l) (hstart : startTimes u = [])
    (hquery : s'.lastQuery = s.lastQuery)
    (hbegun : ∀ q, (s'.generation, q) ∈ workers l' → Begun (past ++ [u]) q)
    (hshown : ∀ expires ∈ s'.expires, ∃ published, Published (past ++ [u]) s'.result published ∧
      expires = published + TTL_SEC) : History (past ++ [u]) s' l' where
  times := by
    rw [startTimes_snoc, hstart, List.append_nil, hquery]
    exact h.times
  spaced := by
    rw [startTimes_snoc, hstart, List.append_nil]
    exact h.spaced
  begun := hbegun
  shown := hshown

theorem History.quiet (h : History past s l) (hu : Undisturbed u) (hstart : startTimes u = [])
    (hs : Alike s s') (hl : workers l' = workers l) : History (past ++ [u]) s' l' := by
  refine h.of_no_start hstart hs.lastQuery (fun q hq => ?_) (fun expires hexpires => ?_)
  · rw [hs.generation, hl] at hq
    exact (h.begun q hq).snoc hu
  · rw [hs.expires] at hexpires
    obtain ⟨published, hpublished, heq⟩ := h.shown expires hexpires
    exact ⟨published, hs.result ▸ hpublished.snoc hu, heq⟩

theorem History.invalidated (h : History past s l) (hstart : startTimes u = [])
    (hquery : s'.lastQuery = s.lastQuery) (hexpires : s'.expires = none)
    (hl : ∀ w ∈ workers l', w.1 < s'.generation) : History (past ++ [u]) s' l' := by
  refine h.of_no_start hstart hquery (fun q hq => ?_) (fun expires hmem => ?_)
  · exact absurd (hl _ hq) (lt_irrefl _)
  · rw [hexpires] at hmem
    cases hmem

/-- `_schedule` at the end of a move: its own part starts a query at least
`RETRY_SEC` after the last one, or nothing. -/
theorem History.schedule (hclock : Monotone clock) (h : History past s' l')
    (hquery : s.lastQuery = s'.lastQuery) (own : List Effect)
    (hu : effects u = own ++ (s.schedule clock).2.2)
    (hown : own.filterMap Effect.startTime = [])
    (hbegun : ∀ q, (s.generation, q) ∈ workers l → Begun (past ++ [u]) q)
    (hshown : ∀ expires ∈ s.expires, ∃ published, Published (past ++ [u]) s.result published ∧
      expires = published + TTL_SEC) :
    History (past ++ [u]) (s.schedule clock).1 ((s.schedule clock).2.1 + l) := by
  have htimes : startTimes u = (s.schedule clock).2.2.filterMap Effect.startTime := by
    rw [startTimes, hu, List.filterMap_append, hown, List.nil_append]
  revert htimes hu
  unfold Readiness.schedule
  split
  · intro hu htimes
    exact h.of_no_start htimes hquery (by simpa using hbegun) hshown
  split
  · intro hu htimes
    refine h.of_no_start htimes hquery (fun q hq => hbegun q ?_) nofun
    simpa [wait, read, workers_cons, Thread.worker] using hq
  · rename_i hdelay
    intro hu htimes
    have hlate : ∀ last ∈ s'.lastQuery, last + RETRY_SEC ≤ s.read.now clock := by
      intro last hlast
      rw [← hquery] at hlast
      have hread : s.now clock ≤ s.read.now clock := hclock (Nat.le_succ s.reads)
      simp only [delay, Option.mem_def.1 hlast] at hdelay
      linarith
    have hstart : startTimes u = [s.read.now clock] := htimes
    have hearlier : ∀ time ∈ past.flatMap startTimes, time + RETRY_SEC ≤ s.read.now clock := by
      intro time htime
      obtain ⟨last, hlast, hle⟩ := h.times time htime
      linarith [hlate last hlast]
    constructor
    · intro time htime
      refine ⟨s.read.now clock, rfl, ?_⟩
      rw [startTimes_snoc, hstart, List.mem_append, List.mem_singleton] at htime
      rcases htime with htime | rfl
      · have hretry : (0 : ℚ) ≤ RETRY_SEC := by norm_num [RETRY_SEC]
        linarith [hearlier time htime]
      · exact le_rfl
    · rw [startTimes_snoc, hstart, List.pairwise_append]
      refine ⟨h.spaced, List.pairwise_singleton _ _, fun time htime time' htime' => ?_⟩
      rw [List.mem_singleton.1 htime']
      exact hearlier time htime
    · intro q hq
      have hcases : q = s.queries ∨ (s.generation, q) ∈ workers l := by
        simpa [start, read, workers_cons, Thread.worker] using hq
      rcases hcases with rfl | hold
      · exact ⟨s.read.now clock, past, u, [], rfl, by rw [hu]; simp [start], by simp⟩
      · exact hbegun q hold
    · nofun

theorem started_of_schedule {own : Effect} (h : own ∈ (s.schedule clock).2.2) :
    ∃ query time, own = .started query time := by
  unfold Readiness.schedule at h
  split at h
  · cases h
  split at h
  · cases h
  · exact ⟨_, _, List.mem_singleton.1 h⟩

theorem undisturbed_of_schedule (own : List Effect)
    (hu : effects u = own ++ (s.schedule clock).2.2)
    (hown : .invalidated ∉ own ∧ .expired ∉ own) : Undisturbed u := by
  rw [Undisturbed, hu]
  constructor
  · intro hmem
    rcases List.mem_append.1 hmem with hmem | hmem
    · exact hown.1 hmem
    · obtain ⟨_, _, heq⟩ := started_of_schedule hmem
      cases heq
  · intro hmem
    rcases List.mem_append.1 hmem with hmem | hmem
    · exact hown.2 hmem
    · obtain ⟨_, _, heq⟩ := started_of_schedule hmem
      cases heq

theorem History.snoc_shown (h : History past s l) (hu : Undisturbed u) :
    ∀ expires ∈ s.expires, ∃ published, Published (past ++ [u]) s.result published ∧
      expires = published + TTL_SEC := by
  intro expires hexpires
  obtain ⟨published, hpublished, heq⟩ := h.shown expires hexpires
  exact ⟨published, hpublished.snoc hu, heq⟩

theorem Phase.generation_le (h : Phase s l) :
    ∀ w ∈ RecorderReadiness.workers l, w.1 ≤ s.generation := by
  intro w hw
  cases h with
  | idle _ _ _ workers _ => exact absurd hw (workers ▸ Multiset.notMem_zero w)
  | waiting _ _ _ _ _ workers _ => exact absurd hw (workers ▸ Multiset.notMem_zero w)
  | busy generation query _ _ _ workers generation_le _ =>
    rw [workers, Multiset.mem_singleton] at hw
    exact hw ▸ generation_le

theorem history_arrive (hclock : Monotone clock) (hphase : Phase s l) (h : History past s l)
    (call : Call) (hu : effects u = (s.arrive clock call).2.2) :
    History (past ++ [u]) (s.arrive clock call).1 ((s.arrive clock call).2.1 + l) := by
  cases call with
  | setServiceSource =>
    have hnone : effects u = [] := hu
    refine h.quiet (by simp [Undisturbed, hnone]) (by simp [startTimes, hnone])
      ⟨rfl, rfl, rfl, rfl, rfl, rfl, rfl, rfl, rfl⟩ (by simp [arrive])
  | service fresh source =>
    have hnone : effects u = [] := hu
    exact h.quiet (by simp [Undisturbed, hnone]) (by simp [startTimes, hnone])
      (alike_lookAtService s fresh source) (by simp [arrive, workers_cons, Thread.worker])
  | invalidate =>
    have hone : effects u = [.invalidated] := hu
    refine h.invalidated (by simp [startTimes, hone, Effect.startTime]) rfl rfl ?_
    simp only [arrive, Multiset.coe_nil, Multiset.zero_add]
    exact fun w hw => Nat.lt_succ_of_le (hphase.generation_le w hw)
  | snapshot =>
    revert hu
    simp only [arrive, snapshot]
    split
    · split
      · intro hu
        refine h.invalidated (by simp [startTimes, hu, Effect.startTime]) rfl rfl ?_
        simp only [Multiset.coe_nil, Multiset.zero_add]
        exact fun w hw => Nat.lt_succ_of_le (hphase.generation_le w hw)
      · intro hu
        exact h.quiet (by simp [Undisturbed, hu]) (by simp [startTimes, hu, Effect.startTime])
          (alike_read s) (by simp)
    · intro hu
      exact h.quiet (by simp [Undisturbed, hu]) (by simp [startTimes, hu, Effect.startTime])
        (alike_refl s) (by simp)
  | request =>
    have hquiet : Undisturbed u :=
      undisturbed_of_schedule (s := { s with pending := true }) [] hu (by simp)
    exact h.schedule (s := { s with pending := true }) hclock rfl [] hu rfl
      (fun q hq => (h.begun q hq).snoc hquiet) (h.snoc_shown hquiet)

theorem history_run (hclock : Monotone clock) {t : Thread} (hphase : Phase s (t ::ₘ l))
    (h : History past s (t ::ₘ l)) (luck : Luck) (hu : effects u = (s.run clock t luck).2.2) :
    History (past ++ [u]) (s.run clock t luck).1 ((s.run clock t luck).2.1 + l) := by
  cases t with
  | observe value =>
    revert hu
    simp only [run, observe]
    split
    · intro hu
      refine h.invalidated (by simp [startTimes, hu, Effect.startTime]) rfl rfl fun w hw => ?_
      refine Nat.lt_succ_of_le (hphase.generation_le w ?_)
      simpa [workers_cons, Thread.worker] using hw
    · intro hu
      exact h.quiet (by simp [Undisturbed, hu]) (by simp [startTimes, hu, Effect.startTime])
        (alike_observed s value) (by simp [workers_cons, Thread.worker])
  | timer serial delay =>
    have hnone : effects u = [] := hu
    refine h.quiet (by simp [Undisturbed, hnone]) (by simp [startTimes, hnone]) (alike_refl s) ?_
    simp only [run]
    split <;> simp [workers_cons, Thread.worker]
  | scheduled =>
    have hquiet : Undisturbed u :=
      undisturbed_of_schedule (s := { s with timer := none }) [] hu (by simp)
    refine h.schedule (s := { s with timer := none }) hclock rfl [] hu rfl
      (fun q hq => (h.begun q ?_).snoc hquiet) (h.snoc_shown hquiet)
    simpa [workers_cons, Thread.worker] using hq
  | run generation query =>
    have hnone : effects u = [] := hu
    exact h.quiet (by simp [Undisturbed, hnone]) (by simp [startTimes, hnone]) (alike_read s)
      (by simp [run, workers_cons, Thread.worker])
  | query generation query deadline =>
    have hnone : effects u = [] := hu
    exact h.quiet (by simp [Undisturbed, hnone]) (by simp [startTimes, hnone])
      (alike_finishQuery s generation query deadline luck)
      (by simp [run, finishQuery, workers_cons, Thread.worker])
  | publish generation query result =>
    obtain ⟨-, -, hexpires, hworkers, -, -⟩ := hphase.of_worker rfl
    have hnobody : ∀ w, w ∉ RecorderReadiness.workers l := by
      rw [hworkers]
      exact Multiset.notMem_zero
    revert hu
    simp only [run, publish]
    split
    · rename_i hgeneration
      intro hu
      have hquiet : Undisturbed u :=
        undisturbed_of_schedule [.published query result (s.now clock)] hu (by simp)
      have hbegun : Begun past query :=
        h.begun query (by simp [workers_cons, Thread.worker, hgeneration])
      have hpublished : .published query result (s.now clock) ∈ effects u := by
        rw [hu]
        exact List.mem_cons_self
      refine h.schedule hclock rfl [.published query result (s.now clock)] hu rfl
        (fun q hq => absurd hq (hnobody _)) ?_
      rintro expires ⟨⟩
      exact ⟨s.now clock, hbegun.publish hquiet hpublished, rfl⟩
    · intro hu
      refine h.schedule (s := { s with running := false }) hclock rfl [] hu rfl
        (fun q hq => absurd hq (hnobody _)) ?_
      rw [hexpires]
      nofun

theorem history_step (hclock : Monotone clock) {p : Pool Readiness Thread} (x : Event)
    (hphase : Phase p.shared p.threads) (h : History past p.shared p.threads) :
    History (past ++ [stepOf (system clock) p x])
      (system clock p x).1.shared (system clock p x).1.threads := by
  cases x with
  | arrive call => exact history_arrive hclock hphase h call rfl
  | advance t luck =>
    by_cases ht : t ∈ p.threads
    · obtain ⟨l, hl, hstep⟩ := Program.step_advance (P := program clock) ht luck
      have hsystem : system clock p (.advance t luck) = _ := hstep
      rw [hl] at h hphase
      rw [hsystem]
      refine history_run hclock hphase h luck ?_
      simp only [effects, stepOf, hsystem]
      rfl
    · have hsystem : system clock p (.advance t luck) = (p, none) := Program.step_absent ht luck
      have hnone : effects (stepOf (system clock) p (.advance t luck)) = [] := by
        simp [effects, stepOf, hsystem]
      rw [hsystem]
      exact h.quiet (by simp [Undisturbed, hnone]) (by simp [startTimes, hnone])
        (alike_refl p.shared) rfl

theorem history_final (hclock : Monotone clock) (es : List Event) :
    Invariant (final (system clock) opening es).shared (final (system clock) opening es).threads ∧
      History (trace (system clock) opening es) (final (system clock) opening es).shared
        (final (system clock) opening es).threads := by
  refine trace_history (I := fun past p => Invariant p.shared p.threads ∧
    History past p.shared p.threads) (fun _ _ => True) ?_ ?_ es fun _ _ _ _ => trivial
  · refine ⟨invariant_opening, by simp, by simp, fun q hq => ?_, nofun⟩
    exact absurd hq (Multiset.notMem_zero _)
  · intro past p x ⟨hinvariant, hhistory⟩ _
    exact ⟨invariant_step p x hinvariant, history_step hclock x hinvariant.2 hhistory⟩

/-! ## What a move does and shows -/

theorem step_cases {R : List Effect → Readiness → Prop} (p : Pool Readiness Thread) (x : Event)
    (arrive : ∀ call, x = .arrive call →
      R (p.shared.arrive clock call).2.2 (p.shared.arrive clock call).1)
    (run : ∀ t luck, x = .advance t luck → t ∈ p.threads →
      R (p.shared.run clock t luck).2.2 (p.shared.run clock t luck).1)
    (still : R [] p.shared) :
    R (effects (stepOf (system clock) p x)) (system clock p x).1.shared := by
  cases x with
  | arrive call => exact arrive call rfl
  | advance t luck =>
    by_cases ht : t ∈ p.threads
    · obtain ⟨l, -, hstep⟩ := Program.step_advance (P := program clock) ht luck
      have hsystem : system clock p (.advance t luck) = _ := hstep
      simp only [effects, stepOf, hsystem]
      exact run t luck rfl ht
    · have hsystem : system clock p (.advance t luck) = (p, none) := Program.step_absent ht luck
      simp only [effects, stepOf, hsystem]
      exact still

/-- What an effect of a move from `s` to `s'` tells. -/
def Tells (clock : ℕ → ℚ) (s s' : Readiness) : Effect → Prop
  | .invalidated => s'.result = notChecked
  | .shown generation r => .shown generation r ∈ (s.snapshot clock).2.2
  | .started _ _ => s'.running = true ∧ s'.pending = false
  | _ => True

theorem tells_schedule (s₀ : Readiness) :
    ∀ own ∈ (s.schedule clock).2.2, Tells clock s₀ (s.schedule clock).1 own := by
  intro own
  unfold Readiness.schedule
  split
  · nofun
  split
  · nofun
  · intro hown
    rw [List.mem_singleton.1 hown]
    exact ⟨rfl, rfl⟩

theorem tells_step {p : Pool Readiness Thread} {x : Event} :
    ∀ own ∈ effects (stepOf (system clock) p x),
      Tells clock p.shared (system clock p x).1.shared own := by
  refine step_cases (R := fun effects s' => ∀ own ∈ effects, Tells clock p.shared s' own)
    p x ?_ ?_ nofun
  · intro call _
    cases call with
    | setServiceSource => nofun
    | service fresh source => nofun
    | invalidate =>
      intro own hown
      rw [List.mem_singleton.1 hown]
      rfl
    | snapshot =>
      intro own hown
      have hsnapshot : own ∈ (p.shared.snapshot clock).2.2 := hown
      cases own with
      | shown generation r => exact hsnapshot
      | _ =>
        simp only [snapshot] at hsnapshot
        split at hsnapshot
        · split at hsnapshot <;> simp [Tells] at hsnapshot ⊢
        · simp at hsnapshot
    | request => exact tells_schedule p.shared
  · intro t luck _ _
    cases t with
    | observe value =>
      simp only [run, observe]
      split
      · intro own hown
        simp only [List.mem_cons, List.not_mem_nil, or_false] at hown
        rcases hown with rfl | rfl
        · rfl
        · trivial
      · intro own hown
        rw [List.mem_singleton.1 hown]
        trivial
    | timer serial delay => nofun
    | scheduled => exact tells_schedule p.shared
    | run g query => nofun
    | query g query deadline => nofun
    | publish g query result =>
      simp only [run, publish]
      split
      · intro own hown
        rcases List.mem_cons.1 hown with rfl | hown
        · trivial
        · exact tells_schedule p.shared own hown
      · exact tells_schedule p.shared

theorem shown_of_snapshot (hsound : Sound s l) (h : History past s l) {generation : ℕ}
    {r : Preflight} (hr : .shown generation r ∈ (s.snapshot clock).2.2) :
    r ∈ placeholders ∨ Fresh past (s.now clock) r := by
  unfold snapshot at hr
  split at hr
  · rename_i expires hexpires
    split at hr
    · obtain ⟨-, rfl⟩ : _ ∧ r = stale := by simpa using hr
      exact .inl (by decide)
    · rename_i hnow
      obtain ⟨-, rfl⟩ : _ ∧ r = s.result := by simpa using hr
      obtain ⟨published, hpublished, rfl⟩ := h.shown expires hexpires
      exact .inr ⟨published, hpublished, not_le.1 hnow⟩
  · rename_i hexpires
    obtain ⟨-, rfl⟩ : _ ∧ r = s.result := by simpa using hr
    exact .inl (hsound.placeholder hexpires)

/-! ## What waits is not lost -/

/-- What the moves keep that neither start a query nor invalidate. -/
structure Keeps (s s' : Readiness) : Prop where
  pending : s.pending = true → s'.pending = true
  cancelled : s.pending = true → s'.cancelled = s.cancelled
  lastQuery : s'.lastQuery = s.lastQuery
  running : s.running = false → s'.running = false
  reads : s.reads ≤ s'.reads

theorem keeps_refl (s : Readiness) : Keeps s s := ⟨id, fun _ => rfl, rfl, id, le_rfl⟩

theorem keeps_read (s : Readiness) : Keeps s s.read :=
  ⟨id, fun _ => rfl, rfl, id, Nat.le_succ _⟩

theorem keeps_lookAtService (s : Readiness) (fresh : Bool) (source : Option String) :
    Keeps s (s.lookAtService clock fresh source) := by
  have halike : Alike s (s.lookAtService clock fresh source) :=
    alike_lookAtService s fresh source
  refine ⟨fun h => halike.pending.trans h, fun _ => halike.cancelled, halike.lastQuery,
    fun h => halike.running.trans h, ?_⟩
  unfold lookAtService
  dsimp only
  split <;> cases fresh <;> grind [read]

/-- A query starts, or something is invalidated, among these effects. -/
def Settles (own : List Effect) : Prop :=
  (∃ query time, .started query time ∈ own) ∨ .invalidated ∈ own

theorem Keeps.schedule (h : Keeps s s') (hno : ¬ Settles (s'.schedule clock).2.2) :
    Keeps s (s'.schedule clock).1 := by
  unfold Readiness.schedule at hno ⊢
  split
  · exact h
  split
  · exact ⟨h.pending, h.cancelled, h.lastQuery, h.running, h.reads.trans (Nat.le_succ _)⟩
  · rename_i hbusy hdelay
    rw [if_neg hbusy, if_neg hdelay] at hno
    exact absurd (.inl ⟨_, _, List.mem_singleton_self _⟩) hno

theorem keeps_step {p : Pool Readiness Thread} {x : Event}
    (h : Phase p.shared p.threads)
    (hno : ¬ Settles (effects (stepOf (system clock) p x))) :
    Keeps p.shared (system clock p x).1.shared := by
  refine step_cases (R := fun own s' => ¬ Settles own → Keeps p.shared s')
    p x ?_ ?_ (fun _ => keeps_refl _) hno
  · intro call _ hno
    cases call with
    | setServiceSource => exact ⟨id, fun _ => rfl, rfl, id, le_rfl⟩
    | service fresh source => exact keeps_lookAtService p.shared fresh source
    | invalidate => exact absurd (.inr (List.mem_singleton_self _)) hno
    | snapshot =>
      simp only [arrive, snapshot]
      split
      · rename_i expires hexpires
        split
        · obtain ⟨-, -, hpending, -⟩ :=
            h.idle_of_expires (by rw [hexpires]; exact Option.some_ne_none _)
          have hidle : ¬ p.shared.pending = true := by simp [hpending]
          exact ⟨fun hp => absurd hp hidle, fun hp => absurd hp hidle, rfl, id, Nat.le_succ _⟩
        · exact keeps_read _
      · exact keeps_refl _
    | request =>
      have hasked : Keeps p.shared { p.shared with pending := true } :=
        ⟨fun _ => rfl, fun _ => rfl, rfl, id, le_rfl⟩
      exact hasked.schedule hno
  · intro t luck _ ht hno
    cases t with
    | observe value =>
      simp only [run, observe] at hno ⊢
      split at hno
      · exact absurd (.inr (List.mem_cons_self)) hno
      · rename_i hsame
        rw [if_neg hsame]
        exact ⟨id, fun _ => rfl, rfl, id, le_rfl⟩
    | timer serial delay => exact keeps_refl _
    | scheduled =>
      have hset : Keeps p.shared { p.shared with timer := none } :=
        ⟨id, fun _ => rfl, rfl, id, le_rfl⟩
      exact hset.schedule hno
    | run g query => exact keeps_read _
    | query g query deadline =>
      simp only [run, finishQuery]
      split
      · exact keeps_read _
      · exact keeps_refl _
    | publish g query result =>
      simp only [run, publish] at hno ⊢
      split at hno
      · rename_i hgeneration
        rw [if_pos hgeneration]
        refine Keeps.schedule ⟨id, fun _ => rfl, rfl, fun _ => rfl, Nat.le_succ _⟩ fun hown => hno ?_
        exact hown.imp (fun ⟨n, time, hmem⟩ => ⟨n, time, List.mem_cons_of_mem _ hmem⟩)
          (List.mem_cons_of_mem _)
      · rename_i hgeneration
        rw [if_neg hgeneration]
        exact Keeps.schedule ⟨id, fun _ => rfl, rfl, fun _ => rfl, le_rfl⟩ hno

theorem pending_step {p : Pool Readiness Thread} {x : Event} (hx : x ≠ .arrive .request)
    (h : p.shared.pending = false) : (system clock p x).1.shared.pending = false := by
  have hschedule : ∀ s : Readiness, s.pending = false → (s.schedule clock).1.pending = false := by
    intro s hs
    rw [schedule_quiet (.inr (.inr hs))]
    exact hs
  refine step_cases (R := fun _ s' => s'.pending = false) p x ?_ ?_ h
  · intro call hcall
    cases call with
    | setServiceSource => exact h
    | service fresh source => exact (alike_lookAtService p.shared fresh source).pending.trans h
    | invalidate => rfl
    | snapshot =>
      simp only [arrive, snapshot]
      split
      · split
        · rfl
        · exact h
      · exact h
    | request => exact absurd hcall hx
  · intro t luck _ _
    cases t with
    | observe value =>
      simp only [run, observe]
      split
      · rfl
      · exact h
    | timer serial delay => exact h
    | scheduled => exact hschedule _ h
    | run g query => exact h
    | query g query deadline =>
      exact (alike_finishQuery p.shared g query deadline luck).pending.trans h
    | publish g query result =>
      simp only [run, publish]
      split <;> exact hschedule _ h

/-! ## Fair runs -/

section Fair

variable {e : ℕ → Event} {goal : ℕ → Prop}

/-- The state of the object before event `n`. -/
def objectAt (clock : ℕ → ℚ) (e : ℕ → Event) (n : ℕ) : Readiness :=
  (stateAt (system clock) opening e n).shared

/-- The threads before event `n`. -/
def threadsAt (clock : ℕ → ℚ) (e : ℕ → Event) (n : ℕ) : Multiset Thread :=
  (stateAt (system clock) opening e n).threads

/-- What event `n` shows. -/
def effectsAt (clock : ℕ → ℚ) (e : ℕ → Event) (n : ℕ) : List Effect :=
  effects (stepAt (system clock) opening e n)

theorem invariantAt (n : ℕ) : Invariant (objectAt clock e n) (threadsAt clock e n) :=
  stateAt_invariant (I := fun p : Pool _ _ => Invariant p.shared p.threads) invariant_opening
    invariant_step n

theorem keepsAt {n : ℕ} (hno : ¬ Settles (effectsAt clock e n)) :
    Keeps (objectAt clock e n) (objectAt clock e (n + 1)) :=
  keeps_step (invariantAt n).2 hno

theorem advanceAt {t : Thread} {luck : Luck} {n : ℕ} (hn : e n = .advance t luck)
    (ht : t ∈ threadsAt clock e n) :
    objectAt clock e (n + 1) = ((objectAt clock e n).run clock t luck).1 ∧
      effectsAt clock e n = ((objectAt clock e n).run clock t luck).2.2 ∧
      ∃ l, threadsAt clock e n = t ::ₘ l ∧
        threadsAt clock e (n + 1) = ((objectAt clock e n).run clock t luck).2.1 + l := by
  obtain ⟨l, hl, hstep⟩ := Program.step_advance (P := program clock) ht luck
  rw [← hn] at hstep
  have hsystem : system clock (stateAt (system clock) opening e n) (e n) = _ := hstep
  refine ⟨?_, ?_, l, hl, ?_⟩
  · simp only [objectAt, stateAt_succ, hsystem]
    rfl
  · simp only [effectsAt, effects, stepAt, stepOf, hsystem]
    rfl
  · simp only [threadsAt, stateAt_succ, hsystem]
    rfl

theorem leads_move (hfair : (program clock).Fair opening e) {A : Readiness → Prop}
    {B : Readiness → Multiset Thread → Prop}
    (keep : ∀ m, ¬ goal m → A (objectAt clock e m) → A (objectAt clock e (m + 1)))
    {t : Thread} (move : ∀ m luck, ¬ goal m → A (objectAt clock e m) → t ∈ threadsAt clock e m →
      e m = .advance t luck → B (objectAt clock e (m + 1)) (threadsAt clock e (m + 1)))
    {n : ℕ} (hA : A (objectAt clock e n)) (ht : t ∈ threadsAt clock e n) :
    ∃ m, n ≤ m ∧ (goal m ∨ B (objectAt clock e m) (threadsAt clock e m)) :=
  hfair.leads (A := fun p => A p.shared) (B := fun p => B p.shared p.threads) keep move hA ht

theorem leads_thread (hfair : (program clock).Fair opening e) {A : Readiness → Prop}
    {C : Thread → Prop}
    (keep : ∀ m, ¬ goal m → A (objectAt clock e m) → A (objectAt clock e (m + 1)))
    {t : Thread} (next : ∀ (s : Readiness) luck, A s → ∃ t' ∈ (s.run clock t luck).2.1, C t')
    {n : ℕ} (hA : A (objectAt clock e n)) (ht : t ∈ threadsAt clock e n) :
    ∃ m, n ≤ m ∧ (goal m ∨ A (objectAt clock e m) ∧ ∃ t' ∈ threadsAt clock e m, C t') := by
  refine leads_move (B := fun s l => A s ∧ ∃ t' ∈ l, C t') hfair keep ?_ hA ht
  intro m luck hgoal hm htm hmove
  obtain ⟨-, -, l, -, hthreads⟩ := advanceAt hmove htm
  obtain ⟨t', ht', hnext⟩ := next (objectAt clock e m) luck hm
  refine ⟨keep m hgoal hm, t', ?_, hnext⟩
  rw [hthreads]
  exact Multiset.mem_add.2 (.inl (Multiset.mem_coe.2 ht'))

/-- A worker comes to its result. -/
theorem leads_publish (hfair : (program clock).Fair opening e) {A : Readiness → Prop}
    (keep : ∀ m, ¬ goal m → A (objectAt clock e m) → A (objectAt clock e (m + 1)))
    {n : ℕ} (hA : A (objectAt clock e n)) {t : Thread} (ht : t ∈ threadsAt clock e n)
    (hworker : t.worker ≠ none) :
    ∃ m, n ≤ m ∧ (goal m ∨ A (objectAt clock e m) ∧
      ∃ t ∈ threadsAt clock e m, t.result ≠ none) := by
  have query : ∀ {n : ℕ} {g q : ℕ} {deadline : ℚ}, A (objectAt clock e n) →
      .query g q deadline ∈ threadsAt clock e n → ∃ m, n ≤ m ∧ (goal m ∨ A (objectAt clock e m) ∧
        ∃ t ∈ threadsAt clock e m, t.result ≠ none) := by
    intro n g q deadline hA ht
    refine leads_thread hfair keep (fun s luck _ => ?_) hA ht
    exact ⟨_, List.mem_singleton_self _, Option.some_ne_none _⟩
  cases t with
  | run g q =>
    obtain ⟨m, hnm, hgoal | ⟨hm, t', ht', deadline, rfl⟩⟩ :=
      leads_thread (C := fun t' => ∃ deadline, t' = .query g q deadline) hfair keep
        (fun s luck _ => ⟨_, List.mem_singleton_self _, _, rfl⟩) hA ht
    · exact ⟨m, hnm, .inl hgoal⟩
    · obtain ⟨m', hmm', h⟩ := query hm ht'
      exact ⟨m', hnm.trans hmm', h⟩
  | query g q deadline => exact query hA ht
  | publish g q result => exact ⟨n, le_rfl, .inr ⟨hA, _, ht, Option.some_ne_none _⟩⟩
  | observe value => exact absurd rfl hworker
  | timer serial delay => exact absurd rfl hworker
  | scheduled => exact absurd rfl hworker

theorem running_publish {g q : ℕ} {r : Preflight}
    (hno : ¬ Settles (s.publish clock g q r).2.2) :
    (s.publish clock g q r).1.running = false := by
  unfold publish at hno ⊢
  split at hno
  · rename_i hgeneration
    rw [if_pos hgeneration]
    refine ((keeps_refl _).schedule fun hown => hno ?_).running rfl
    exact hown.imp (fun ⟨n, time, hmem⟩ => ⟨n, time, List.mem_cons_of_mem _ hmem⟩)
      (List.mem_cons_of_mem _)
  · rename_i hgeneration
    rw [if_neg hgeneration]
    exact ((keeps_refl _).schedule hno).running rfl

/-- A request waits for its timer; the last query was at `last`, and the clock
has been read `r` times at least. -/
structure Waits (last : Option ℚ) (r : ℕ) (s : Readiness) : Prop where
  pending : s.pending = true
  running : s.running = false
  lastQuery : s.lastQuery = last
  reads : r ≤ s.reads

theorem Waits.keep {last : Option ℚ} {r : ℕ} (h : Waits last r s) (hs : Keeps s s') :
    Waits last r s' where
  pending := hs.pending h.pending
  running := hs.running h.running
  lastQuery := hs.lastQuery.trans h.lastQuery
  reads := h.reads.trans hs.reads

theorem Waits.scheduled {last : Option ℚ} {r : ℕ} {luck : Luck} (h : Waits last r s)
    (hno : ¬ Settles (s.run clock .scheduled luck).2.2) :
    Waits last (r + 1) (s.run clock .scheduled luck).1 ∧
      ∃ time ∈ last, s.now clock < time + RETRY_SEC := by
  have hrun : s.run clock .scheduled luck = schedule clock { s with timer := none } := rfl
  rw [hrun, schedule_free (s := { s with timer := none }) h.running rfl h.pending] at hno ⊢
  split at hno
  · rename_i hdelay
    rw [if_pos hdelay]
    refine ⟨⟨h.pending, h.running, h.lastQuery, Nat.succ_le_succ h.reads⟩, ?_⟩
    simp only [delay, h.lastQuery] at hdelay
    cases last with
    | none => exact absurd hdelay (lt_irrefl _)
    | some time =>
      have hnow : 0 < RETRY_SEC - (s.now clock - time) := hdelay
      exact ⟨time, rfl, by linarith⟩
  · exact absurd (.inl ⟨_, _, List.mem_singleton_self _⟩) hno

theorem leads_scheduled (hfair : (program clock).Fair opening e) {last : Option ℚ} {r n : ℕ}
    (h : Waits last r (objectAt clock e n)) :
    ∃ m, n ≤ m ∧ (Settles (effectsAt clock e m) ∨ Waits last r (objectAt clock e m) ∧
      .scheduled ∈ threadsAt clock e m) := by
  cases (invariantAt n).2 with
  | idle _ _ pending _ _ => exact absurd (pending.symm.trans h.pending) (by simp)
  | busy _ _ running _ _ _ _ _ => exact absurd (running.symm.trans h.running) (by simp)
  | waiting serial _ _ _ _ _ alarm =>
    rcases alarm with ⟨hserial, delay, hmem⟩ | hmem
    · have keep : ∀ m, ¬ Settles (effectsAt clock e m) →
          Waits last r (objectAt clock e m) ∧ serial ∉ (objectAt clock e m).cancelled →
          Waits last r (objectAt clock e (m + 1)) ∧
            serial ∉ (objectAt clock e (m + 1)).cancelled := by
        intro m hno hm
        refine ⟨hm.1.keep (keepsAt hno), ?_⟩
        rw [(keepsAt hno).cancelled hm.1.pending]
        exact hm.2
      obtain ⟨m, hnm, hm⟩ := leads_thread (C := (· = .scheduled))
        (A := fun s => Waits last r s ∧ serial ∉ s.cancelled) hfair keep
        (fun s luck hs => ⟨.scheduled, by simp [run, hs.2], rfl⟩) ⟨h, hserial⟩ hmem
      refine ⟨m, hnm, hm.imp_right ?_⟩
      rintro ⟨hwaits, t, ht, rfl⟩
      exact ⟨hwaits.1, ht⟩
    · exact ⟨n, le_rfl, .inr ⟨h, hmem⟩⟩

theorem leads_again (hfair : (program clock).Fair opening e) {last : Option ℚ} {r n : ℕ}
    {B : Prop} (hnear : ∀ s : Readiness, Waits last r s →
      (∃ time ∈ last, s.now clock < time + RETRY_SEC) → B)
    (h : Waits last r (objectAt clock e n)) :
    ∃ m, n ≤ m ∧ (Settles (effectsAt clock e m) ∨ B ∧ Waits last (r + 1) (objectAt clock e m)) := by
  have keep : ∀ m, ¬ Settles (effectsAt clock e m) →
      Waits last r (objectAt clock e m) → Waits last r (objectAt clock e (m + 1)) :=
    fun m hno hm => hm.keep (keepsAt hno)
  obtain ⟨m, hnm, hm | ⟨hm, hscheduled⟩⟩ := leads_scheduled hfair h
  · exact ⟨m, hnm, .inl hm⟩
  obtain ⟨m', hmm', hm'⟩ := leads_move (B := fun s _ => B ∧ Waits last (r + 1) s) hfair keep
    (fun k luck hno hk hthread hmove => by
      obtain ⟨hobject, heffects, -⟩ := advanceAt hmove hthread
      rw [heffects] at hno
      obtain ⟨hwaits, hdelay⟩ := hk.scheduled hno
      rw [hobject]
      exact ⟨hnear _ hk hdelay, hwaits⟩) hm hscheduled
  exact ⟨m', hnm.trans hmm', hm'⟩

theorem leads_read (hfair : (program clock).Fair opening e) {last : Option ℚ} {n : ℕ}
    (h : Waits last 0 (objectAt clock e n)) : ∀ r,
    ∃ m, n ≤ m ∧ (Settles (effectsAt clock e m) ∨ Waits last r (objectAt clock e m))
  | 0 => ⟨n, le_rfl, .inr h⟩
  | r + 1 => by
    obtain ⟨m, hnm, hm | hm⟩ := leads_read hfair h r
    · exact ⟨m, hnm, .inl hm⟩
    obtain ⟨m', hmm', hm' | ⟨-, hm'⟩⟩ := leads_again (B := True) hfair (fun _ _ _ => trivial) hm
    · exact ⟨m', hnm.trans hmm', .inl hm'⟩
    · exact ⟨m', hnm.trans hmm', .inr hm'⟩

theorem settles_of_waits (hclock : Monotone clock) (hruns : ∀ time, ∃ r, time ≤ clock r)
    (hfair : (program clock).Fair opening e) {last : Option ℚ} {n : ℕ}
    (h : Waits last 0 (objectAt clock e n)) : ∃ m, n ≤ m ∧ Settles (effectsAt clock e m) := by
  obtain ⟨r, hr⟩ : ∃ r, ∀ time ∈ last, time + RETRY_SEC ≤ clock r := by
    cases last with
    | none => exact ⟨0, nofun⟩
    | some time =>
      obtain ⟨r, hr⟩ := hruns (time + RETRY_SEC)
      exact ⟨r, fun _ heq => Option.some.inj heq ▸ hr⟩
  obtain ⟨m, hnm, hm | hm⟩ := leads_read hfair h r
  · exact ⟨m, hnm, hm⟩
  obtain ⟨m', hmm', hm' | ⟨hfalse, -⟩⟩ := leads_again (B := False) hfair
    (fun s hs ⟨time, htime, hnear⟩ =>
      not_lt.2 ((hr time htime).trans (hclock hs.reads)) hnear) hm
  · exact ⟨m', hnm.trans hmm', hm'⟩
  · exact hfalse.elim

theorem exists_worker {w : ℕ × ℕ} (h : RecorderReadiness.workers l = {w}) :
    ∃ t ∈ l, t.worker ≠ none := by
  have hw : w ∈ RecorderReadiness.workers l := by simp [h]
  obtain ⟨t, ht, hworker⟩ := (Multiset.mem_filterMap _ _).1 hw
  exact ⟨t, ht, by rw [hworker]; exact Option.some_ne_none _⟩

/-- What comes of the worker's last move. -/
theorem leads_published (hfair : (program clock).Fair opening e) {A B : Readiness → Prop}
    (keep : ∀ m, ¬ goal m → A (objectAt clock e m) → A (objectAt clock e (m + 1)))
    (publish : ∀ m g q r, ¬ goal m → A (objectAt clock e m) →
      .publish g q r ∈ threadsAt clock e m →
      objectAt clock e (m + 1) = ((objectAt clock e m).publish clock g q r).1 →
      effectsAt clock e m = ((objectAt clock e m).publish clock g q r).2.2 →
      B (objectAt clock e (m + 1)))
    {n : ℕ} (hA : A (objectAt clock e n)) (hrunning : (objectAt clock e n).running = true) :
    ∃ m, n ≤ m ∧ (goal m ∨ B (objectAt clock e m)) := by
  cases (invariantAt n).2 with
  | idle running _ _ _ _ => exact absurd (running.symm.trans hrunning) (by simp)
  | waiting _ running _ _ _ _ _ => exact absurd (running.symm.trans hrunning) (by simp)
  | busy g q _ _ _ workers _ _ =>
    obtain ⟨t, ht, hworker⟩ := exists_worker workers
    obtain ⟨m, hnm, hm | ⟨hm, t, ht, hresult⟩⟩ := leads_publish hfair keep hA ht hworker
    · exact ⟨m, hnm, .inl hm⟩
    cases t with
    | publish g q r =>
      obtain ⟨m', hmm', hm'⟩ := leads_move (B := fun s _ => B s) hfair keep
        (fun k luck hgoal hk hthread hmove => by
          obtain ⟨hobject, heffects, -⟩ := advanceAt hmove hthread
          exact publish k g q r hgoal hk hthread hobject heffects) hm ht
      exact ⟨m', hnm.trans hmm', hm'⟩
    | _ => exact absurd rfl hresult

theorem settles_of_pending (hclock : Monotone clock) (hruns : ∀ time, ∃ r, time ≤ clock r)
    (hfair : (program clock).Fair opening e) {n : ℕ}
    (h : (objectAt clock e n).pending = true) : ∃ m, n ≤ m ∧ Settles (effectsAt clock e m) := by
  have settled : ∀ {n : ℕ}, (objectAt clock e n).pending = true →
      (objectAt clock e n).running = false → ∃ m, n ≤ m ∧ Settles (effectsAt clock e m) :=
    fun hpending hrunning =>
      settles_of_waits hclock hruns hfair ⟨hpending, hrunning, rfl, Nat.zero_le _⟩
  cases hrunning : (objectAt clock e n).running with
  | false => exact settled h hrunning
  | true =>
    have keep : ∀ m, ¬ Settles (effectsAt clock e m) → (objectAt clock e m).pending = true →
        (objectAt clock e (m + 1)).pending = true := fun m hno hm => (keepsAt hno).pending hm
    obtain ⟨m, hnm, hm | ⟨hpending, hidle⟩⟩ := leads_published
      (A := fun s => s.pending = true) (B := fun s => s.pending = true ∧ s.running = false)
      hfair keep (fun m g q r hno hm _ hobject heffects => by
        refine ⟨keep m hno hm, ?_⟩
        rw [hobject]
        exact running_publish (heffects ▸ hno)) h hrunning
    · exact ⟨m, hnm, hm⟩
    · obtain ⟨m', hmm', hm'⟩ := settled hpending hidle
      exact ⟨m', hnm.trans hmm', hm'⟩

theorem pending_of_request {n : ℕ} (hn : e n = .arrive .request)
    (hno : ¬ Settles (effectsAt clock e n)) : (objectAt clock e (n + 1)).pending = true := by
  have hobject : objectAt clock e (n + 1) =
      (schedule clock { objectAt clock e n with pending := true }).1 := by
    simp only [objectAt, stateAt_succ, hn]
    rfl
  have heffects : effectsAt clock e n =
      (schedule clock { objectAt clock e n with pending := true }).2.2 := by
    simp only [effectsAt, effects, stepAt, stepOf, objectAt, hn]
    rfl
  rw [heffects] at hno
  rw [hobject]
  exact ((keeps_refl _).schedule hno).pending rfl

theorem not_running_schedule (hrunning : s.running = false) (hpending : s.pending = false) :
    (s.schedule clock).1.running = false := by
  rw [schedule_quiet (.inr (.inr hpending))]
  exact hrunning

theorem not_checking_of_busy (hfair : (program clock).Fair opening e) {n : ℕ}
    (hrunning : (objectAt clock e n).running = true)
    (hpending : (objectAt clock e n).pending = false) :
    ∃ m, n ≤ m ∧ (e m = .arrive .request ∨ ¬ (objectAt clock e m).result.Checking) := by
  have keep : ∀ m, ¬ e m = .arrive .request → (objectAt clock e m).pending = false →
      (objectAt clock e (m + 1)).pending = false := fun m hm h => pending_step hm h
  refine leads_published (A := fun s => s.pending = false) (B := fun s => ¬ s.result.Checking)
    hfair keep (fun m g q r hm hp _ hobject _ => ?_) hpending hrunning
  have hidle : (objectAt clock e (m + 1)).running = false := by
    rw [hobject]
    unfold publish
    split <;> exact not_running_schedule rfl hp
  cases (invariantAt (m + 1)).2 with
  | idle _ _ _ _ shown => exact shown
  | waiting _ _ _ pending _ _ _ => exact absurd (pending.symm.trans (keep m hm hp)) (by simp)
  | busy _ _ running _ _ _ _ _ => exact absurd (running.symm.trans hidle) (by simp)

theorem not_checking_of_fair (hclock : Monotone clock) (hruns : ∀ time, ∃ r, time ≤ clock r)
    (hfair : (program clock).Fair opening e) (n : ℕ) :
    ∃ m, n ≤ m ∧ (e m = .arrive .request ∨ ¬ (objectAt clock e m).result.Checking) := by
  have settled : (objectAt clock e n).pending = true →
      ∃ m, n ≤ m ∧ (e m = .arrive .request ∨ ¬ (objectAt clock e m).result.Checking) := by
    intro hpending
    obtain ⟨m, hnm, ⟨query, time, hm⟩ | hm⟩ := settles_of_pending hclock hruns hfair hpending
    · obtain ⟨hrunning, hquiet⟩ := tells_step _ hm
      obtain ⟨m', hmm', hm'⟩ := not_checking_of_busy (n := m + 1) hfair hrunning hquiet
      exact ⟨m', (Nat.le_succ_of_le hnm).trans hmm', hm'⟩
    · have hresult : (objectAt clock e (m + 1)).result = notChecked := tells_step _ hm
      exact ⟨m + 1, Nat.le_succ_of_le hnm, .inr (by rw [hresult]; decide)⟩
  cases (invariantAt n).2 with
  | idle _ _ _ _ shown => exact ⟨n, le_rfl, .inr shown⟩
  | waiting _ _ _ pending _ _ _ => exact settled pending
  | busy _ _ running _ _ _ _ _ =>
    cases hpending : (objectAt clock e n).pending with
    | true => exact settled hpending
    | false => exact not_checking_of_busy hfair running hpending

end Fair

end Readiness

/-- In every run of the object, with a clock that does not go back: at most one
query is under way, queries start at least `RETRY_SEC` apart, and what a
snapshot shows is a placeholder or a fresh result. In a fair run, where the
clock runs on, every request leads to the start of a query, unless an
invalidation drops it, and "checking" is shown no longer than requests come. -/
theorem readiness_worker (clock : ℕ → ℚ) (hclock : Monotone clock) :
    (∀ es, ∀ t ∈ trace (system clock) opening es, (workers t.post.threads).card ≤ 1) ∧
    (∀ es, ((trace (system clock) opening es).flatMap startTimes).Pairwise
      fun time time' => time + RETRY_SEC ≤ time') ∧
    (∀ es past t later, trace (system clock) opening es = past ++ t :: later →
      ∀ generation r, .shown generation r ∈ effects t →
        r ∈ placeholders ∨ Fresh past (t.pre.shared.now clock) r) ∧
    ∀ e, (Readiness.program clock).Fair opening e → (∀ time, ∃ k, time ≤ clock k) →
      (∀ n, e n = .arrive .request → ∃ m, n ≤ m ∧
        ((∃ query time, .started query time ∈ effects (stepAt (system clock) opening e m)) ∨
          .invalidated ∈ effects (stepAt (system clock) opening e m))) ∧
      ∀ n, ∃ m, n ≤ m ∧ (e m = .arrive .request ∨
        ¬ (stateAt (system clock) opening e m).shared.result.Checking) := by
  refine ⟨?_, ?_, ?_, ?_⟩
  · intro es t ht
    have h := (trace_invariant (fun p : Pool _ _ => Readiness.Invariant p.shared p.threads)
      Readiness.invariant_step es opening Readiness.invariant_opening t ht).2
    exact h.2.card_workers
  · intro es
    exact (Readiness.history_final hclock es).2.spaced
  · intro es past t later hes generation r hr
    obtain ⟨es₁, x, es₂, rfl, rfl, rfl, -⟩ := trace_split hes
    obtain ⟨hinvariant, hhistory⟩ := Readiness.history_final hclock es₁
    exact Readiness.shown_of_snapshot hinvariant.1 hhistory (Readiness.tells_step _ hr)
  · intro e hfair hruns
    constructor
    · intro n hn
      by_cases hsettled : Readiness.Settles (Readiness.effectsAt clock e n)
      · exact ⟨n, le_rfl, hsettled⟩
      · obtain ⟨m, hnm, hm⟩ := Readiness.settles_of_pending hclock hruns hfair
          (Readiness.pending_of_request hn hsettled)
        exact ⟨m, (Nat.le_succ n).trans hnm, hm⟩
    · intro n
      exact Readiness.not_checking_of_fair hclock hruns hfair n

/-! A run in which the second request comes during the first query: its timer
is set when that query ends, and the second query is published. -/

def passed : Preflight := empty "pass" "証拠付き記録の開始条件がそろっています"

/-- `passed`, as it is published. -/
def passedAt (wall : ℚ) : Preflight :=
  { passed with checkedAt := some wall, expiresAt := some (wall + TTL_SEC) }

def secondRequest : List Event :=
  [.arrive .request, .arrive .request, .advance (.run 0 0) {},
    .advance (.query 0 0 62) ⟨.returned passed, 100⟩, .advance (.publish 0 0 (passedAt 100)) {},
    .advance (.timer 0 1) {}, .advance .scheduled {}, .advance (.run 0 1) {},
    .advance (.query 0 1 68) ⟨.returned passed, 107⟩, .advance (.publish 0 1 (passedAt 107)) {}]

def secondRequestAt (n : ℕ) : Event := secondRequest.getD n (.arrive .snapshot)

def Event.advances (t : Thread) : Event → Bool
  | .advance u _ => u = t
  | .arrive _ => false

theorem threads_snapshot {clock : ℕ → ℚ} (p : Pool Readiness Thread) :
    (system clock p (.arrive .snapshot)).1.threads = p.threads := by
  have hnone : (p.shared.snapshot clock).2.1 = [] := by
    unfold Readiness.snapshot
    split
    · split <;> rfl
    · rfl
  change ((p.shared.snapshot clock).2.1 : Multiset Thread) + p.threads = p.threads
  rw [hnone]
  exact Multiset.zero_add _

def seconds (n : ℕ) : ℚ := n

theorem secondRequest_fair : (Readiness.program seconds).Fair opening secondRequestAt := by
  have hsnapshot : ∀ n, 10 ≤ n → secondRequestAt n = .arrive .snapshot := by
    intro n hn
    rw [secondRequestAt, List.getD, List.getElem?_eq_none hn]
    rfl
  have hend : ∀ n, 10 ≤ n →
      (stateAt (system seconds) opening secondRequestAt n).threads = 0 := by
    intro n hn
    induction n, hn using Nat.le_induction with
    | base => decide +kernel
    | succ n hn ih =>
      rw [stateAt_succ, hsnapshot n hn, threads_snapshot]
      exact ih
  have hstart : ∀ n < 10, ∀ t ∈ (stateAt (system seconds) opening secondRequestAt n).threads,
      ∃ m < 10, n ≤ m ∧ (secondRequestAt m).advances t = true := by
    decide +kernel
  intro n t ht
  by_cases hn : 10 ≤ n
  · have hnone : t ∈ (0 : Multiset Thread) := hend n hn ▸ ht
    exact absurd hnone (Multiset.notMem_zero t)
  · obtain ⟨m, -, hnm, hm⟩ := hstart n (not_le.1 hn) t ht
    refine ⟨m, hnm, ?_⟩
    revert hm
    cases secondRequestAt m with
    | arrive call => exact fun hm => nomatch hm
    | advance u luck =>
      intro hm
      obtain rfl : u = t := of_decide_eq_true hm
      exact ⟨luck, rfl⟩

/-- The second request leads to a query, and its result is shown while fresh. -/
theorem readiness_worker_secondRequest :
    (∃ m, 1 ≤ m ∧
      ((∃ query time, .started query time ∈
          effects (stepAt (system seconds) opening secondRequestAt m)) ∨
        .invalidated ∈ effects (stepAt (system seconds) opening secondRequestAt m))) ∧
      Fresh (trace (system seconds) opening secondRequest) 11 (passedAt 107) := by
  have hclock : Monotone seconds := fun m n hmn => Nat.cast_le.2 hmn
  have hruns : ∀ time, ∃ k, time ≤ seconds k := fun time => exists_nat_ge time
  obtain ⟨-, -, hfresh, hleads⟩ := readiness_worker seconds hclock
  refine ⟨(hleads secondRequestAt secondRequest_fair hruns).1 1 rfl, ?_⟩
  have hshown : .shown 0 (passedAt 107) ∈
      effects (stepOf (system seconds) (final (system seconds) opening secondRequest)
        (.arrive .snapshot)) := by decide +kernel
  have htrace : trace (system seconds) opening (secondRequest ++ [.arrive .snapshot]) =
      trace (system seconds) opening secondRequest ++ stepOf (system seconds)
        (final (system seconds) opening secondRequest) (.arrive .snapshot) :: [] :=
    trace_append _ _ _
  have hnow : (final (system seconds) opening secondRequest).shared.now seconds = 11 := by
    decide +kernel
  rcases hfresh _ _ _ _ htrace 0 (passedAt 107) hshown with hold | hnew
  · exact absurd hold (by decide)
  · exact hnow ▸ hnew

end Questix.RobotManager.RecorderReadiness
