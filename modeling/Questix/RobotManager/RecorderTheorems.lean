/-
Questix.RobotManager.RecorderTheorems — one recording at a time, and every
trial finalized once.

The lock is released between the sections of a start, so what a start relies
on when it publishes is what it found when it reserved. The invariant (`Kept`)
counts the threads: one start under way when the slot is reserved, one capture
pending when captures are announced; and it adds up the trials: the one in the
slot, those that the threads hold, and those finalized are all there have been.
Each section has one lemma.

It is kept by every step but three (`Tracked`): a start, or a shutdown, while a
trial sits in the slot whose recorder has exited on its own, and a disk watcher
that has outlived its recording.
-/
import Mathlib.Algebra.Order.BigOperators.Group.Multiset
import Mathlib.Algebra.Order.Group.Nat
import Mathlib.Data.Multiset.Bind
import Mathlib.Data.Multiset.Filter
import Mathlib.Data.Multiset.OrderedMonoid
import Mathlib.Tactic.Abel
import Questix.Lib.Trace
import Questix.RobotManager.Recorder

namespace Questix.RobotManager

open Questix.Lib

/-! ## What the threads hold -/

namespace Task

/-- A thread of the start that has the slot reserved. -/
def isStart : Task → Bool
  | .prepare _ => true
  | .spawned .. => true
  | .publish .. => true
  | .fail => true
  | .release _ => true
  | _ => false

/-- A start that has not filled the slot yet. -/
def isBefore : Task → Bool
  | .prepare _ => true
  | .spawned .. => true
  | .publish .. => true
  | _ => false

def isCapture : Task → Bool
  | .capture _ => true
  | _ => false

/-- The recorder process of a start that is not in the slot yet. -/
def owns : Task → Option ℕ
  | .spawned r .. => some r
  | .publish r .. => some r
  | _ => none

/-- The trials that the thread has to finalize. -/
def holds : Task → Multiset TrialContext
  | .capture pending => {pending.ctx}
  | .captured pending _ => {pending.ctx}
  | .finalize pending _ => {pending.ctx}
  | _ => 0

/-- A recorder process that is not in the slot is the last one started, and no
trial has it yet. -/
def Fresh (s : Recorder) (r : ℕ) (ctx : Option TrialContext) : Prop :=
  r + 1 = s.procs.length ∧ (∀ c ∈ s.trials, c.recorder ≠ r) ∧ ∀ c ∈ ctx, c.recorder = r

/-- What a thread has reported is so. -/
def Ok (s : Recorder) : Task → Prop
  | .spawned r _ ctx _ => Fresh s r ctx
  | .publish r _ ctx _ => Fresh s r ctx
  | .release (.started (some ctx)) => ctx ∈ s.trials
  | _ => True

def starts (l : Multiset Task) : ℕ := l.countP fun t => t.isStart = true

def captures (l : Multiset Task) : ℕ := l.countP fun t => t.isCapture = true

variable {s s' : Recorder} {t u : Task} {l : Multiset Task}

theorem starts_cons : starts (t ::ₘ l) = t.isStart.toNat + starts l := by
  rw [starts, Multiset.countP_cons, add_comm]
  cases t.isStart <;> rfl

theorem captures_cons : captures (t ::ₘ l) = t.isCapture.toNat + captures l := by
  rw [captures, Multiset.countP_cons, add_comm]
  cases t.isCapture <;> rfl

theorem starts_eq_zero : starts l = 0 ↔ ∀ t ∈ l, t.isStart = false := by
  simp [starts, Multiset.countP_eq_zero]

theorem captures_eq_zero : captures l = 0 ↔ ∀ t ∈ l, t.isCapture = false := by
  simp [captures, Multiset.countP_eq_zero]

theorem Ok.congr (h : t.Ok s) (hprocs : s'.procs.length = s.procs.length)
    (htrials : s'.trials = s.trials) : t.Ok s' := by
  cases t with
  | release answer =>
    cases answer with
    | raised error => trivial
    | started ctx =>
      cases ctx with
      | none => trivial
      | some ctx => simpa [Ok, htrials] using h
  | spawned r bagName ctx minFree => simpa [Ok, Fresh, hprocs, htrials] using h
  | publish r bagName ctx minFree => simpa [Ok, Fresh, hprocs, htrials] using h
  | _ => trivial

theorem ok_of_not_start (h : t.isStart = false) : t.Ok s := by
  cases t with
  | spawned => cases h
  | publish => cases h
  | release => cases h
  | _ => trivial

theorem isStart_of_isBefore (h : t.isBefore = true) : t.isStart = true := by
  cases t <;> first | rfl | cases h

theorem isBefore_of_owns {r : ℕ} (h : t.owns = some r) : t.isBefore = true := by
  cases t <;> first | rfl | cases h

end Task

/-! ## The invariant -/

namespace Recorder

/-- The slot is as a start that has reserved it expects it. -/
structure Free (s : Recorder) : Prop where
  captured : s.capturing = false
  empty : s.trial = none
  quiet : s.recording = false

/-- The slot and the trials so far. -/
structure Slot (s : Recorder) : Prop where
  filled : ∀ c, s.trial = some c → s.proc = some c.recorder
  apart : s.capturing = true → s.trial = none
  started : ∀ r, s.proc = some r → r < s.procs.length
  last : ∀ r, s.proc = some r → s.running r = true → r + 1 = s.procs.length
  distinct : (s.trials.map TrialContext.recorder).Nodup
  numbered : ∀ c ∈ s.trials, c.recorder < s.procs.length

/-- Where the trials are: in the slot, with a thread, or finalized. -/
def whereabouts (s : Recorder) (l : Multiset Task) : Multiset TrialContext :=
  s.trial.toList + (l.map Task.holds).sum + (s.finalized.map fun e => e.pending.ctx : List _)

structure Kept (s : Recorder) (l : Multiset Task) : Prop where
  starts : Task.starts l = s.starting.toNat
  captures : Task.captures l = s.capturing.toNat
  free : ∀ t ∈ l, t.isBefore = true → s.Free
  ok : ∀ t ∈ l, t.Ok s
  alive : ∀ r, s.running r = true → s.proc = some r ∨ ∃ t ∈ l, t.owns = some r
  slot : s.Slot
  accounted : s.whereabouts l = s.trials

variable {s s' : Recorder} {t : Task} {l : Multiset Task} {r : ℕ}

theorem Kept.alone (h : Kept s (t ::ₘ l)) (ht : t.isStart = true) :
    ∀ u ∈ l, u.isStart = false := by
  intro u hu
  have hcount := h.starts
  rw [Task.starts_cons, ht, Bool.toNat_true] at hcount
  have hle : s.starting.toNat ≤ 1 := Bool.toNat_le _
  exact Task.starts_eq_zero.1 (by omega) u hu

theorem Kept.starting (h : Kept s (t ::ₘ l)) (ht : t.isStart = true) : s.starting = true := by
  have hcount := h.starts
  rw [Task.starts_cons, ht, Bool.toNat_true] at hcount
  cases hs : s.starting with
  | true => rfl
  | false =>
    rw [hs, Bool.toNat_false] at hcount
    omega

theorem Kept.not_before (h : Kept s (t ::ₘ l)) (ht : t.isStart = true) :
    ∀ u ∈ l, u.isBefore = false := by
  intro u hu
  have hstart := h.alone ht u hu
  cases hbefore : u.isBefore with
  | false => rfl
  | true =>
    rw [Task.isStart_of_isBefore hbefore] at hstart
    cases hstart

theorem Kept.single (h : Kept s l) {r' : ℕ} (hr : s.running r = true)
    (hr' : s.running r' = true) : r = r' := by
  have hslot : ∀ {a b}, s.running a = true → s.proc = some a → (∃ t ∈ l, t.owns = some b) → False := by
    rintro a b ha hproc ⟨t, ht, howns⟩
    have hquiet := (h.free t ht (Task.isBefore_of_owns howns)).quiet
    simp [recording, hproc, ha] at hquiet
  rcases h.alive r hr with hproc | howned
  · rcases h.alive r' hr' with hproc' | howned'
    · exact Option.some.inj (hproc.symm.trans hproc')
    · exact absurd howned' (hslot hr hproc)
  · rcases h.alive r' hr' with hproc' | howned'
    · exact absurd howned (hslot hr' hproc')
    · obtain ⟨t, ht, howns⟩ := howned
      obtain ⟨t', ht', howns'⟩ := howned'
      have hlast : ∀ {u a}, u ∈ l → Task.owns u = some a → a + 1 = s.procs.length := by
        intro u a hu hua
        have hok := h.ok u hu
        cases u <;> simp only [Task.owns, Option.some.injEq, reduceCtorEq] at hua
        · subst hua
          exact hok.1
        · subst hua
          exact hok.1
      have ha := hlast ht howns
      have hb := hlast ht' howns'
      omega

/-! ## The sections -/

/-- What a stop leaves. -/
structure Stopped (s s' : Recorder) (pending : Option Pending) : Prop where
  length : s'.procs.length = s.procs.length
  running : ∀ r, s'.running r = true → s.running r = true ∧ s.proc ≠ some r
  others : ∀ r, s.running r = true → s.proc ≠ some r → s'.running r = true
  proc : s'.proc = none
  trial : s'.trial = none
  starting : s'.starting = s.starting
  capturing : s'.capturing = (s.capturing || s.trial.isSome)
  trials : s'.trials = s.trials
  finalized : s'.finalized = s.finalized
  pending : pending.map Pending.ctx = s.trial

theorem running_set {code : ℤ} {r' : ℕ} (h : s'.procs = s.procs.set r (some code)) :
    s'.running r' = true ↔ s.running r' = true ∧ r' ≠ r := by
  simp only [running, h, List.getElem?_set, decide_eq_true_eq]
  split
  · rename_i heq
    subst heq
    split <;> simp
  · rename_i hne
    simp [Ne.symm hne]

theorem stopLocked_stopped {reason : StopReason} {now : ℚ} {outcome : StopOutcome}
    (hproc : s.proc = some r) :
    Stopped s (s.stopLocked reason now outcome).1 (s.stopLocked reason now outcome).2 := by
  have hrun : ∀ {s' : Recorder} {code : ℤ},
      s'.procs = (if s.running r then s.procs.set r (some code) else s.procs) →
      ∀ r', s'.running r' = true ↔ s.running r' = true ∧ s.proc ≠ some r' := by
    intro s' code hprocs r'
    rw [hproc]
    split at hprocs
    · rw [running_set hprocs, ne_comm]
      simp
    · rename_i hdead
      rw [running, hprocs]
      constructor
      · intro hr'
        refine ⟨hr', ?_⟩
        rintro ⟨⟩
        exact hdead hr'
      · exact And.left
  have hlength : ∀ {code : ℤ}, (if s.running r then s.procs.set r (some code)
      else s.procs).length = s.procs.length := by
    intro code
    split <;> simp
  unfold stopLocked
  rw [hproc]
  dsimp only
  cases htrial : s.trial with
  | none =>
    exact ⟨hlength, fun r' => (hrun rfl r').1, fun r' h h' => (hrun rfl r').2 ⟨h, h'⟩,
      rfl, rfl, rfl, by simp [htrial], rfl, rfl, by simp [htrial]⟩
  | some ctx =>
    exact ⟨hlength, fun r' => (hrun rfl r').1, fun r' h h' => (hrun rfl r').2 ⟨h, h'⟩,
      rfl, rfl, rfl, by simp [htrial], rfl, rfl, by simp [htrial]⟩

theorem whereabouts_cons : s.whereabouts (t ::ₘ l) = t.holds + s.whereabouts l := by
  simp only [whereabouts, Multiset.map_cons, Multiset.sum_cons]
  abel

/-- A stop hands the trial in the slot to the capture. -/
theorem Kept.stop {pending : Option Pending} (h : Kept s l) (hstop : Stopped s s' pending) :
    Kept s' (afterStop pending + l) := by
  have hslot : s'.Slot := by
    refine ⟨?_, fun _ => hstop.trial, ?_, ?_, ?_, ?_⟩
    · intro c hc
      rw [hstop.trial] at hc
      cases hc
    · intro r hr
      rw [hstop.proc] at hr
      cases hr
    · intro r hr
      rw [hstop.proc] at hr
      cases hr
    · rw [hstop.trials]
      exact h.slot.distinct
    · rw [hstop.trials, hstop.length]
      exact h.slot.numbered
  have hfree : ∀ t ∈ l, t.isBefore = true → s'.Free := by
    intro t ht hbefore
    have hs := h.free t ht hbefore
    refine ⟨?_, hstop.trial, ?_⟩
    · rw [hstop.capturing, hs.captured, hs.empty]
      rfl
    · simp [recording, hstop.proc]
  have hok : ∀ t ∈ l, t.Ok s' := fun t ht => (h.ok t ht).congr hstop.length hstop.trials
  have halive : ∀ r, s'.running r = true → ∃ t ∈ l, t.owns = some r := by
    intro r hr
    obtain ⟨hrun, hne⟩ := hstop.running r hr
    exact (h.alive r hrun).resolve_left hne
  have hcapture := hstop.capturing
  have hpending := hstop.pending
  cases pending with
  | none =>
    rw [Option.map_none] at hpending
    rw [← hpending, Option.isSome_none, Bool.or_false] at hcapture
    simp only [afterStop, Option.toList_none, List.map_nil, Multiset.coe_nil, zero_add]
    exact {
      starts := by rw [h.starts, hstop.starting]
      captures := by rw [h.captures, hcapture]
      free := hfree
      ok := hok
      alive := fun r hr => .inr (halive r hr)
      slot := hslot
      accounted := by
        rw [hstop.trials, ← h.accounted, whereabouts, whereabouts, hstop.trial, hstop.finalized,
          ← hpending] }
  | some pending =>
    rw [Option.map_some] at hpending
    have hidle : s.capturing = false := by
      cases hcap : s.capturing with
      | false => rfl
      | true =>
        rw [h.slot.apart hcap] at hpending
        cases hpending
    rw [← hpending, Option.isSome_some, Bool.or_true] at hcapture
    simp only [afterStop, Option.toList_some, List.map_cons, List.map_nil, Multiset.coe_singleton,
      Multiset.singleton_add]
    exact {
      starts := by
        rw [Task.starts_cons, h.starts, hstop.starting]
        exact zero_add _
      captures := by
        rw [Task.captures_cons, h.captures, hcapture, hidle]
        rfl
      free := by
        intro t ht hbefore
        rcases Multiset.mem_cons.1 ht with rfl | ht
        · cases hbefore
        · exact hfree t ht hbefore
      ok := by
        intro t ht
        rcases Multiset.mem_cons.1 ht with rfl | ht
        · trivial
        · exact hok t ht
      alive := by
        intro r hr
        obtain ⟨t, ht, howns⟩ := halive r hr
        exact .inr ⟨t, Multiset.mem_cons_of_mem ht, howns⟩
      slot := hslot
      accounted := by
        rw [whereabouts_cons, hstop.trials, ← h.accounted, whereabouts, whereabouts, hstop.trial,
          hstop.finalized, ← hpending]
        simp [Task.holds] }

theorem Kept.exits {code : ℤ} (h : Kept s l) : Kept (s.exits r code) l := by
  unfold Recorder.exits
  split
  · have hrun : ∀ r', Recorder.running { s with procs := s.procs.set r (some code) } r' = true →
        s.running r' = true := fun r' hr' => ((running_set rfl).1 hr').1
    exact {
      starts := h.starts
      captures := h.captures
      free := by
        intro t ht hbefore
        have hs := h.free t ht hbefore
        refine ⟨hs.captured, hs.empty, ?_⟩
        have hquiet := hs.quiet
        cases hproc : s.proc with
        | none => simp [recording]
        | some r' =>
          simp only [recording, hproc, Option.any_some] at hquiet ⊢
          refine Bool.eq_false_iff.2 fun hr' => ?_
          rw [hrun r' hr'] at hquiet
          cases hquiet
      ok := fun t ht => (h.ok t ht).congr (by simp) rfl
      alive := fun r' hr' => h.alive r' (hrun r' hr')
      slot := {
        filled := h.slot.filled
        apart := h.slot.apart
        started := fun r' hproc => by simpa using h.slot.started r' hproc
        last := fun r' hproc hr' => by
          rw [h.slot.last r' hproc (hrun r' hr')]
          simp
        distinct := h.slot.distinct
        numbered := fun c hc => by simpa using h.slot.numbered c hc }
      accounted := h.accounted }
  · exact h

theorem Kept.goes_on {u : Task} (h : Kept s (t ::ₘ l)) (hstart : u.isStart = t.isStart)
    (hcapture : u.isCapture = t.isCapture) (hbefore : u.isBefore = true → t.isBefore = true)
    (hok : u.Ok s) (howns : ∀ r, s.running r = true → t.owns = some r → u.owns = some r)
    (hholds : u.holds = t.holds) : Kept s (u ::ₘ l) where
  starts := by
    rw [← h.starts, Task.starts_cons, Task.starts_cons, hstart]
  captures := by
    rw [← h.captures, Task.captures_cons, Task.captures_cons, hcapture]
  free := by
    intro v hv hbefore'
    rcases Multiset.mem_cons.1 hv with rfl | hv
    · exact h.free t (Multiset.mem_cons_self t l) (hbefore hbefore')
    · exact h.free v (Multiset.mem_cons_of_mem hv) hbefore'
  ok := by
    intro v hv
    rcases Multiset.mem_cons.1 hv with rfl | hv
    · exact hok
    · exact h.ok v (Multiset.mem_cons_of_mem hv)
  alive := by
    intro r hr
    rcases h.alive r hr with hproc | ⟨v, hv, hvr⟩
    · exact .inl hproc
    · rcases Multiset.mem_cons.1 hv with rfl | hv
      · exact .inr ⟨u, Multiset.mem_cons_self u l, howns r hr hvr⟩
      · exact .inr ⟨v, Multiset.mem_cons_of_mem hv, hvr⟩
  slot := h.slot
  accounted := by
    rw [← h.accounted, whereabouts_cons, whereabouts_cons, hholds]

/-- A thread that holds nothing ends, or a new one comes. -/
theorem kept_idle {u : Task} (hstart : u.isStart = false) (hcapture : u.isCapture = false)
    (howns : u.owns = none) (hholds : u.holds = 0) : Kept s (u ::ₘ l) ↔ Kept s l := by
  have hbefore : u.isBefore = false := by
    cases hb : u.isBefore with
    | false => rfl
    | true =>
      rw [Task.isStart_of_isBefore hb] at hstart
      cases hstart
  have hstarts : Task.starts (u ::ₘ l) = Task.starts l := by
    rw [Task.starts_cons, hstart, Bool.toNat_false, zero_add]
  have hcaptures : Task.captures (u ::ₘ l) = Task.captures l := by
    rw [Task.captures_cons, hcapture, Bool.toNat_false, zero_add]
  constructor
  · intro h
    exact {
      starts := hstarts.symm.trans h.starts
      captures := hcaptures.symm.trans h.captures
      free := fun t ht => h.free t (Multiset.mem_cons_of_mem ht)
      ok := fun t ht => h.ok t (Multiset.mem_cons_of_mem ht)
      alive := by
        intro r hr
        rcases h.alive r hr with hproc | ⟨t, ht, htr⟩
        · exact .inl hproc
        · rcases Multiset.mem_cons.1 ht with rfl | ht
          · rw [howns] at htr
            cases htr
          · exact .inr ⟨t, ht, htr⟩
      slot := h.slot
      accounted := by rw [← h.accounted, whereabouts_cons, hholds, zero_add] }
  · intro h
    exact {
      starts := hstarts.trans h.starts
      captures := hcaptures.trans h.captures
      free := by
        intro t ht hb
        rcases Multiset.mem_cons.1 ht with rfl | ht
        · rw [hbefore] at hb
          cases hb
        · exact h.free t ht hb
      ok := by
        intro t ht
        rcases Multiset.mem_cons.1 ht with rfl | ht
        · exact Task.ok_of_not_start hstart
        · exact h.ok t ht
      alive := by
        intro r hr
        rcases h.alive r hr with hproc | ⟨t, ht, htr⟩
        · exact .inl hproc
        · exact .inr ⟨t, Multiset.mem_cons_of_mem ht, htr⟩
      slot := h.slot
      accounted := by rw [whereabouts_cons, hholds, zero_add, h.accounted] }

theorem Kept.congr (h : Kept s l) (hprocs : s'.procs = s.procs) (hproc : s'.proc = s.proc)
    (htrial : s'.trial = s.trial) (hstarting : s'.starting = s.starting)
    (hcapturing : s'.capturing = s.capturing) (htrials : s'.trials = s.trials)
    (hfinalized : s'.finalized = s.finalized) : Kept s' l := by
  have hrun : s'.running = s.running := by
    funext r
    rw [running, running, hprocs]
  exact {
    starts := by rw [h.starts, hstarting]
    captures := by rw [h.captures, hcapturing]
    free := by
      intro t ht hbefore
      have hs := h.free t ht hbefore
      refine ⟨hcapturing.trans hs.captured, htrial.trans hs.empty, ?_⟩
      rw [recording, hproc, hrun]
      exact hs.quiet
    ok := fun t ht => (h.ok t ht).congr (congrArg _ hprocs) htrials
    alive := by
      rw [hrun, hproc]
      exact h.alive
    slot := {
      filled := by
        rw [htrial, hproc]
        exact h.slot.filled
      apart := by
        rw [hcapturing, htrial]
        exact h.slot.apart
      started := by
        rw [hproc, hprocs]
        exact h.slot.started
      last := by
        rw [hproc, hrun, hprocs]
        exact h.slot.last
      distinct := htrials ▸ h.slot.distinct
      numbered := by
        rw [htrials, hprocs]
        exact h.slot.numbered }
    accounted := by
      rw [htrials, ← h.accounted, whereabouts, whereabouts, htrial, hfinalized] }

theorem reserveStart_ok (h : s.reserveStart = .ok s') : s.capturing = false ∧
    s.starting = false ∧ s.recording = false ∧ s' = { s with starting := true } := by
  unfold reserveStart at h
  split at h
  · cases h
  · rename_i hcapturing
    split at h
    · cases h
    · rename_i hidle
      cases h
      simp only [Bool.or_eq_true, not_or, Bool.not_eq_true] at hcapturing hidle
      exact ⟨hcapturing, hidle.1, hidle.2, rfl⟩

theorem Kept.reserve {trial : Option TrialMetadata} (h : Kept s l)
    (hreserve : s.reserveStart = .ok s') (hleft : s.exitedUnnoticed = true → s.trial = none) :
    Kept s' (.prepare trial ::ₘ l) := by
  obtain ⟨hcapturing, hstarting, hquiet, rfl⟩ := reserveStart_ok hreserve
  have hempty : s.trial = none := by
    cases htrial : s.trial with
    | none => rfl
    | some c =>
      have hproc := h.slot.filled c htrial
      rw [hleft ?_] at htrial
      · cases htrial
      · simpa [exitedUnnoticed, recording, hproc] using hquiet
  have hfree : Free { s with starting := true } := ⟨hcapturing, hempty, hquiet⟩
  exact {
    starts := by
      rw [Task.starts_cons, h.starts, hstarting]
      rfl
    captures := by
      rw [Task.captures_cons, h.captures]
      exact zero_add _
    free := fun _ _ _ => hfree
    ok := by
      intro t ht
      rcases Multiset.mem_cons.1 ht with rfl | ht
      · trivial
      · exact (h.ok t ht).congr rfl rfl
    alive := by
      intro r hr
      rcases h.alive r hr with hproc | ⟨t, ht, htr⟩
      · exact .inl hproc
      · exact .inr ⟨t, Multiset.mem_cons_of_mem ht, htr⟩
    slot := ⟨h.slot.filled, h.slot.apart, h.slot.started, h.slot.last, h.slot.distinct,
      h.slot.numbered⟩
    accounted := by
      rw [whereabouts_cons]
      exact (zero_add _).trans h.accounted }

theorem running_popen : s.popen.running r = true ↔ s.running r = true ∨ r = s.procs.length := by
  simp only [running, popen, decide_eq_true_eq, List.getElem?_append]
  split
  · rename_i hlt
    simp [hlt.ne]
  · rename_i hle
    rw [List.getElem?_eq_none (not_lt.1 hle)]
    constructor
    · intro h
      have hlt := (List.getElem?_eq_some_iff.1 h).1
      simp only [List.length_cons, List.length_nil] at hlt
      right
      omega
    · rintro (h | rfl)
      · cases h
      · simp

/-- The recorder process starts. -/
theorem Kept.popen {trial : Option TrialMetadata} {bagName : String} {ctx : Option TrialContext}
    {minFree : ℕ} (h : Kept s (.prepare trial ::ₘ l)) (hctx : ∀ c ∈ ctx, c.recorder = s.procs.length) :
    Kept s.popen (.spawned s.procs.length bagName ctx minFree ::ₘ l) := by
  have hs := h.free _ (Multiset.mem_cons_self _ l) rfl
  have hlength : s.popen.procs.length = s.procs.length + 1 := by simp [Recorder.popen]
  have hquiet : s.popen.recording = false := by
    cases hproc : s.proc with
    | none => simp [recording, Recorder.popen, hproc]
    | some r =>
      have hquiet := hs.quiet
      have hlt := h.slot.started r hproc
      simp only [recording, hproc, Option.any_some] at hquiet
      refine Bool.eq_false_iff.2 fun hr => ?_
      rw [recording, show s.popen.proc = some r from hproc, Option.any_some, running_popen,
        hquiet] at hr
      rcases hr with hr | rfl
      · cases hr
      · exact absurd hlt (lt_irrefl _)
  exact {
    starts := by
      have hstarts := h.starts
      rw [Task.starts_cons] at hstarts ⊢
      exact hstarts
    captures := by
      have hcaptures := h.captures
      rw [Task.captures_cons] at hcaptures ⊢
      exact hcaptures
    free := fun _ _ _ => ⟨hs.captured, hs.empty, hquiet⟩
    ok := by
      intro t ht
      rcases Multiset.mem_cons.1 ht with rfl | ht
      · refine ⟨hlength.symm, ?_, hctx⟩
        intro c hc
        exact (h.slot.numbered c hc).ne
      · exact Task.ok_of_not_start (h.alone rfl t ht)
    alive := by
      intro r hr
      rcases running_popen.1 hr with hr | rfl
      · rcases h.alive r hr with hproc | ⟨t, ht, htr⟩
        · exact .inl hproc
        · rcases Multiset.mem_cons.1 ht with rfl | ht
          · cases htr
          · exact .inr ⟨t, Multiset.mem_cons_of_mem ht, htr⟩
      · exact .inr ⟨_, Multiset.mem_cons_self _ l, rfl⟩
    slot := {
      filled := h.slot.filled
      apart := h.slot.apart
      started := fun r hproc => (h.slot.started r hproc).trans (by omega)
      last := by
        intro r hproc hr
        simp [recording, hproc, hr] at hquiet
      distinct := h.slot.distinct
      numbered := by
        intro c hc
        rw [hlength]
        exact (h.slot.numbered c hc).trans (Nat.lt_succ_self _) }
    accounted := by
      have haccounted := h.accounted
      rw [whereabouts_cons] at haccounted ⊢
      exact haccounted }

/-- The slot is filled; no trial was in it. -/
theorem Kept.publish {bagName : String} {ctx : Option TrialContext} {minFree : ℕ} {now : ℚ}
    (h : Kept s (.publish r bagName ctx minFree ::ₘ l)) :
    Kept (s.publish r bagName ctx now) (.release (.started ctx) ::ₘ l) := by
  have hs := h.free _ (Multiset.mem_cons_self _ l) rfl
  obtain ⟨hlast, hfresh, hctx⟩ := h.ok _ (Multiset.mem_cons_self _ l)
  have hbefore := h.not_before rfl
  have hstarts := h.starts
  have hcaptures := h.captures
  have haccounted := h.accounted
  rw [Task.starts_cons] at hstarts
  rw [Task.captures_cons] at hcaptures
  rw [whereabouts_cons] at haccounted
  exact {
    starts := by
      rw [Task.starts_cons]
      exact hstarts
    captures := by
      rw [Task.captures_cons]
      exact hcaptures
    free := by
      intro t ht hb
      rcases Multiset.mem_cons.1 ht with rfl | ht
      · cases hb
      · rw [hbefore t ht] at hb
        cases hb
    ok := by
      intro t ht
      rcases Multiset.mem_cons.1 ht with rfl | ht
      · cases ctx with
        | none => trivial
        | some c => exact List.mem_append_right _ (List.mem_singleton_self c)
      · exact Task.ok_of_not_start (h.alone rfl t ht)
    alive := by
      intro r' hr'
      rcases h.alive r' hr' with hproc | ⟨t, ht, htr⟩
      · have hquiet := hs.quiet
        rw [recording, hproc, Option.any_some, show s.running r' = true from hr'] at hquiet
        cases hquiet
      · rcases Multiset.mem_cons.1 ht with rfl | ht
        · exact .inl htr
        · have hb := hbefore t ht
          rw [Task.isBefore_of_owns htr] at hb
          cases hb
    slot := {
      filled := by
        rintro c rfl
        rw [hctx c rfl]
        rfl
      apart := by
        intro hcapturing
        exact absurd (hs.captured.symm.trans hcapturing) nofun
      started := by
        rintro r' ⟨⟩
        exact hlast ▸ Nat.lt_succ_self r
      last := by
        rintro r' ⟨⟩ -
        exact hlast
      distinct := by
        cases ctx with
        | none => simpa [Recorder.publish] using h.slot.distinct
        | some c =>
          simp only [Recorder.publish, Option.toList_some, List.map_append, List.map_cons,
            List.map_nil, List.nodup_append, List.nodup_singleton]
          refine ⟨h.slot.distinct, trivial, ?_⟩
          rintro n hn m hm rfl
          obtain ⟨c', hc', rfl⟩ := List.mem_map.1 hn
          rw [List.mem_singleton, hctx c rfl] at hm
          exact hfresh c' hc' hm
      numbered := by
        intro c hc
        rcases List.mem_append.1 hc with hc | hc
        · exact h.slot.numbered c hc
        · rw [hctx c (Option.mem_toList.1 hc)]
          exact hlast ▸ Nat.lt_succ_self r }
    accounted := by
      rw [whereabouts_cons]
      simp only [whereabouts, Task.holds, Recorder.publish, hs.empty, Option.toList_none,
        Multiset.coe_nil, zero_add] at haccounted ⊢
      rw [← Multiset.coe_add, ← haccounted]
      abel }

theorem Kept.release {answer : StartAnswer} (h : Kept s (.release answer ::ₘ l)) :
    Kept { s with starting := false } l := by
  have hstarts := h.starts
  have hcaptures := h.captures
  have haccounted := h.accounted
  rw [Task.starts_cons, h.starting rfl] at hstarts
  rw [Task.captures_cons] at hcaptures
  rw [whereabouts_cons] at haccounted
  exact {
    starts := Nat.add_left_cancel hstarts
    captures := (zero_add _).symm.trans hcaptures
    free := by
      intro t ht hb
      rw [h.not_before rfl t ht] at hb
      cases hb
    ok := fun t ht => Task.ok_of_not_start (h.alone rfl t ht)
    alive := by
      intro r hr
      rcases h.alive r hr with hproc | ⟨t, ht, htr⟩
      · exact .inl hproc
      · rcases Multiset.mem_cons.1 ht with rfl | ht
        · cases htr
        · exact .inr ⟨t, ht, htr⟩
    slot := ⟨h.slot.filled, h.slot.apart, h.slot.started, h.slot.last, h.slot.distinct,
      h.slot.numbered⟩
    accounted := (zero_add _).symm.trans haccounted }

/-- The parameters are captured. -/
theorem Kept.captured {pending : Pending} {captured : Captured}
    (h : Kept s (.capture pending ::ₘ l)) :
    Kept { s with capturing := false } (.captured pending captured ::ₘ l) := by
  have hstarts := h.starts
  have hcaptures := h.captures
  have haccounted := h.accounted
  rw [Task.starts_cons] at hstarts
  rw [Task.captures_cons] at hcaptures
  rw [whereabouts_cons] at haccounted
  exact {
    starts := by
      rw [Task.starts_cons]
      exact hstarts
    captures := by
      have hle := s.capturing.toNat_le
      rw [Task.captures_cons]
      simp only [Task.isCapture, Bool.toNat_true, Bool.toNat_false] at hcaptures ⊢
      omega
    free := by
      intro t ht hb
      rcases Multiset.mem_cons.1 ht with rfl | ht
      · cases hb
      · have hs := h.free t (Multiset.mem_cons_of_mem ht) hb
        exact ⟨rfl, hs.empty, hs.quiet⟩
    ok := by
      intro t ht
      rcases Multiset.mem_cons.1 ht with rfl | ht
      · trivial
      · exact (h.ok t (Multiset.mem_cons_of_mem ht)).congr rfl rfl
    alive := by
      intro r hr
      rcases h.alive r hr with hproc | ⟨t, ht, htr⟩
      · exact .inl hproc
      · rcases Multiset.mem_cons.1 ht with rfl | ht
        · cases htr
        · exact .inr ⟨t, Multiset.mem_cons_of_mem ht, htr⟩
    slot := ⟨h.slot.filled, nofun, h.slot.started, h.slot.last, h.slot.distinct, h.slot.numbered⟩
    accounted := by
      rw [whereabouts_cons]
      exact haccounted }

theorem Kept.finalize {pending : Pending} {captured : Captured} {integrity : String}
    (h : Kept s (.finalize pending captured ::ₘ l)) :
    Kept { s with finalized := s.finalized ++ [⟨pending, captured, integrity⟩] } l := by
  have hstarts := h.starts
  have hcaptures := h.captures
  have haccounted := h.accounted
  rw [Task.starts_cons] at hstarts
  rw [Task.captures_cons] at hcaptures
  rw [whereabouts_cons] at haccounted
  exact {
    starts := (zero_add _).symm.trans hstarts
    captures := (zero_add _).symm.trans hcaptures
    free := by
      intro t ht hb
      have hs := h.free t (Multiset.mem_cons_of_mem ht) hb
      exact ⟨hs.captured, hs.empty, hs.quiet⟩
    ok := fun t ht => (h.ok t (Multiset.mem_cons_of_mem ht)).congr rfl rfl
    alive := by
      intro r hr
      rcases h.alive r hr with hproc | ⟨t, ht, htr⟩
      · exact .inl hproc
      · rcases Multiset.mem_cons.1 ht with rfl | ht
        · cases htr
        · exact .inr ⟨t, ht, htr⟩
    slot := ⟨h.slot.filled, h.slot.apart, h.slot.started, h.slot.last, h.slot.distinct,
      h.slot.numbered⟩
    accounted := by
      rw [← haccounted]
      simp only [whereabouts, Task.holds, List.map_append, List.map_cons, List.map_nil,
        ← Multiset.coe_add, Multiset.coe_singleton]
      abel }

/-! ## A step -/

/-- A disk watcher that finds the disk too full and a recording under way. -/
def Alarmed (s : Recorder) (minFree free : ℕ) : Prop := s.recording = true ∧ free < minFree

instance (s : Recorder) (minFree free : ℕ) : Decidable (s.Alarmed minFree free) :=
  inferInstanceAs (Decidable (_ ∧ _))

def Noticed (s : Recorder) : Prop := s.exitedUnnoticed = true → s.trial = none

instance (s : Recorder) : Decidable s.Noticed := inferInstanceAs (Decidable (_ → _))

/-- A start or a shutdown comes when no exited trial waits to be noticed, and a
disk watcher sounds the alarm only while no recorder has been started after its
own. -/
def Tracked (p : Pool Recorder Task) : PoolEvent RecorderEvent Task Chances → Prop
  | .arrive (.start _) =>
    p.shared.capturing = false → p.shared.starting = false → p.shared.Noticed
  | .arrive (.shutdown _ _) => p.shared.Noticed
  | .advance (.watch r minFree) (.wake free _ _) =>
    p.shared.Alarmed minFree free → p.shared.procs.length = r + 1
  | _ => True

instance (p : Pool Recorder Task) : ∀ x, Decidable (Tracked p x)
  | .arrive (.start _) => inferInstanceAs (Decidable (_ → _ → _))
  | .arrive (.shutdown _ _) => inferInstanceAs (Decidable (Noticed _))
  | .arrive (.stop _ _) => .isTrue trivial
  | .arrive (.status _ _) => .isTrue trivial
  | .arrive (.exits _ _) => .isTrue trivial
  | .advance t c =>
    match t, c with
    | .watch _ _, .wake _ _ _ => inferInstanceAs (Decidable (_ → _))
    | .watch _ _, .refuse _ => .isTrue trivial
    | .watch _ _, .popen _ _ _ _ => .isTrue trivial
    | .watch _ _, .go _ => .isTrue trivial
    | .watch _ _, .captures _ => .isTrue trivial
    | .watch _ _, .finalizes _ => .isTrue trivial
    | .prepare _, _ => .isTrue trivial
    | .spawned _ _ _ _, _ => .isTrue trivial
    | .publish _ _ _ _, _ => .isTrue trivial
    | .fail, _ => .isTrue trivial
    | .release _, _ => .isTrue trivial
    | .capture _, _ => .isTrue trivial
    | .captured _ _, _ => .isTrue trivial
    | .finalize _ _, _ => .isTrue trivial

theorem stopped_of_recording {reason : StopReason} {now : ℚ} {outcome : StopOutcome}
    (h : s.recording = true) :
    Stopped s (s.stopLocked reason now outcome).1 (s.stopLocked reason now outcome).2 := by
  cases hproc : s.proc with
  | none => simp [recording, hproc] at h
  | some r => exact stopLocked_stopped hproc

theorem Kept.arrive {e : RecorderEvent} (h : Kept s l) (htracked : Tracked ⟨s, l⟩ (.arrive e)) :
    Kept (arrive s e).1 ((arrive s e).2.1 + l) := by
  cases e with
  | start trial =>
    simp only [Recorder.arrive]
    cases hreserve : s.reserveStart with
    | error error =>
      simpa using h
    | ok s' =>
      simp only [Multiset.coe_singleton, Multiset.singleton_add]
      obtain ⟨hcapturing, hstarting, -⟩ := reserveStart_ok hreserve
      exact h.reserve hreserve (htracked hcapturing hstarting)
  | stop now outcome =>
    simp only [Recorder.arrive]
    split
    · rename_i hrecording
      exact h.stop (stopped_of_recording hrecording)
    · simpa using h
  | status now maxDuration =>
    simp only [Recorder.arrive]
    split
    · rename_i hexited
      cases hproc : s.proc with
      | none => simp [exitedUnnoticed, hproc] at hexited
      | some r => exact h.stop (stopLocked_stopped hproc)
    · simpa using h
  | shutdown now outcome =>
    simp only [Recorder.arrive]
    split
    · rename_i hrecording
      exact h.stop (stopped_of_recording hrecording)
    · simpa using h
  | exits r code => simpa [Recorder.arrive] using h.exits

theorem Kept.watchDisk {minFree free : ℕ} {now : ℚ} {outcome : StopOutcome}
    (h : Kept s (.watch r minFree ::ₘ l)) :
    Kept (s.watchDisk r minFree free now outcome).1
      ((s.watchDisk r minFree free now outcome).2 + l) := by
  have hl : Kept s l := (kept_idle rfl rfl rfl rfl).1 h
  unfold Recorder.watchDisk
  split
  · simpa using hl
  · rename_i hrecording
    simp only [Bool.not_eq_true', Bool.not_eq_false] at hrecording
    split
    · simpa using h
    · exact hl.stop (stopped_of_recording hrecording)

theorem Kept.run {c : Chances} (h : Kept s (t ::ₘ l)) :
    Kept (run s t c).1 ((run s t c).2.1 + l) := by
  unfold Recorder.run
  split
  · simpa using h.goes_on (u := .release (.raised _)) rfl rfl nofun trivial nofun rfl
  · rename_i trial bagName staging warnings minFree
    simp only [Multiset.coe_singleton, Multiset.singleton_add]
    refine h.popen ?_
    intro c hc
    obtain ⟨metadata, -, rfl⟩ := Option.mem_map.1 hc
    rfl
  · rename_i r bagName ctx minFree now
    split
    · simpa using h.goes_on (u := .publish r bagName ctx minFree) rfl rfl (fun _ => rfl)
        (h.ok (.spawned r bagName ctx minFree) (Multiset.mem_cons_self _ l))
        (fun _ _ howns => howns) rfl
    · rename_i hdead
      simp only [Multiset.coe_singleton, Multiset.singleton_add]
      refine h.goes_on rfl rfl nofun trivial ?_ rfl
      rintro r' hr' ⟨⟩
      exact absurd hr' hdead
  · simp only [Multiset.coe_singleton, Multiset.singleton_add]
    exact (h.goes_on (u := .release (.raised _)) rfl rfl nofun trivial nofun rfl).congr rfl rfl rfl rfl rfl
      rfl rfl
  · simp only [← Multiset.cons_coe, Multiset.coe_nil, Multiset.cons_add, zero_add]
    exact (kept_idle rfl rfl rfl rfl).2 h.publish
  · simpa using h.release
  · exact h.watchDisk
  · simpa using h.captured
  · simp only [Multiset.coe_singleton, Multiset.singleton_add]
    exact (h.goes_on (u := .finalize _ _) rfl rfl nofun trivial nofun rfl).congr rfl rfl rfl rfl
      rfl rfl rfl
  · simpa using h.finalize
  · simpa using h

theorem kept_step {p : Pool Recorder Task} {x : PoolEvent RecorderEvent Task Chances}
    (h : Kept p.shared p.threads) (htracked : Tracked p x) :
    Kept (program.step p x).1.shared (program.step p x).1.threads := by
  refine Program.step_invariant h ?_ ?_
  · rintro e rfl
    exact h.arrive htracked
  · rintro t l c rfl hl
    rw [hl] at h
    exact h.run

theorem stopLocked_length {reason : StopReason} {now : ℚ} {outcome : StopOutcome} :
    (s.stopLocked reason now outcome).1.procs.length = s.procs.length ∧
      (s.stopLocked reason now outcome).1.trials = s.trials := by
  cases hproc : s.proc with
  | none => simp [stopLocked, hproc]
  | some r =>
    have hstop : Stopped s (s.stopLocked reason now outcome).1 (s.stopLocked reason now outcome).2 :=
      stopLocked_stopped hproc
    exact ⟨hstop.length, hstop.trials⟩

theorem arrive_frame (s : Recorder) (e : RecorderEvent) :
    (arrive s e).1.procs.length = s.procs.length ∧ (arrive s e).1.trials = s.trials := by
  cases e with
  | start trial =>
    simp only [arrive]
    cases hreserve : s.reserveStart with
    | error error => exact ⟨rfl, rfl⟩
    | ok s' =>
      obtain ⟨-, -, -, rfl⟩ := reserveStart_ok hreserve
      exact ⟨rfl, rfl⟩
  | stop now outcome =>
    simp only [arrive]
    split
    · exact stopLocked_length
    · exact ⟨rfl, rfl⟩
  | status now maxDuration =>
    simp only [arrive]
    split
    · exact stopLocked_length
    · exact ⟨rfl, rfl⟩
  | shutdown now outcome =>
    simp only [arrive]
    split
    · exact stopLocked_length
    · exact ⟨rfl, rfl⟩
  | exits r code =>
    simp only [arrive, Recorder.exits]
    split
    · exact ⟨List.length_set, rfl⟩
    · exact ⟨rfl, rfl⟩

theorem run_frame (s : Recorder) (t : Task) (c : Chances) :
    (s.procs.length < (run s t c).1.procs.length → ∃ trial, t = .prepare trial) ∧
      s.trials <+: (run s t c).1.trials := by
  unfold Recorder.run
  split
  · exact ⟨fun h => absurd h (lt_irrefl _), List.prefix_refl _⟩
  · exact ⟨fun _ => ⟨_, rfl⟩, List.prefix_refl _⟩
  · split <;> exact ⟨fun h => absurd h (lt_irrefl _), List.prefix_refl _⟩
  · exact ⟨fun h => absurd h (lt_irrefl _), List.prefix_refl _⟩
  · exact ⟨fun h => absurd h (lt_irrefl _), List.prefix_append _ _⟩
  · exact ⟨fun h => absurd h (lt_irrefl _), List.prefix_refl _⟩
  · simp only [Recorder.watchDisk]
    split
    · exact ⟨fun h => absurd h (lt_irrefl _), List.prefix_refl _⟩
    · split
      · exact ⟨fun h => absurd h (lt_irrefl _), List.prefix_refl _⟩
      · refine ⟨fun h => absurd h ?_, ?_⟩
        · rw [stopLocked_length.1]
          exact lt_irrefl _
        · rw [stopLocked_length.2]
  · exact ⟨fun h => absurd h (lt_irrefl _), List.prefix_refl _⟩
  · exact ⟨fun h => absurd h (lt_irrefl _), List.prefix_refl _⟩
  · exact ⟨fun h => absurd h (lt_irrefl _), List.prefix_refl _⟩
  · exact ⟨fun h => absurd h (lt_irrefl _), List.prefix_refl _⟩

/-! ## A run -/

/-- What is asked of a step: one recorder at a time; every trial in one place,
under its own recorder, and none forgotten; a recorder starts after the trials
before it are captured; a disk watcher stops its own recording only; and a
shutdown leaves no trial in the slot. -/
structure Accounted (t : Lib.Step (Pool Recorder Task) (PoolEvent RecorderEvent Task Chances)
    (Option RecorderAnswer)) : Prop where
  single : ∀ r r', t.post.shared.running r = true → t.post.shared.running r' = true → r = r'
  whereabouts : t.post.shared.whereabouts t.post.threads = t.post.shared.trials
  distinct : (t.post.shared.trials.map TrialContext.recorder).Nodup
  own : ∀ c, t.post.shared.trial = some c → t.post.shared.proc = some c.recorder
  lasting : t.pre.shared.trials <+: t.post.shared.trials
  reported : ∀ c, t.out = some (.start (.started (some c))) → c ∈ t.post.shared.trials
  captured : t.pre.shared.procs.length < t.post.shared.procs.length →
    t.pre.shared.trial = none ∧ ∀ u ∈ t.pre.threads, u.isCapture = false
  watcher : ∀ r minFree c, t.event = .advance (.watch r minFree) c →
    ∀ r', t.pre.shared.running r' = true → t.post.shared.running r' = false → r' = r
  shutdown : ∀ now outcome, t.event = .arrive (.shutdown now outcome) → t.post.shared.trial = none

theorem step_frame (p : Pool Recorder Task) (x : PoolEvent RecorderEvent Task Chances) :
    p.shared.trials <+: (program.step p x).1.shared.trials := by
  refine Program.step_invariant (I := fun (s : Recorder) _ => p.shared.trials <+: s.trials)
    (List.prefix_refl _) ?_ ?_
  · rintro e -
    exact (arrive_frame p.shared e).2 ▸ List.prefix_refl _
  · rintro t l c - -
    exact (run_frame p.shared t c).2

theorem captured_of_popen {p : Pool Recorder Task} {x : PoolEvent RecorderEvent Task Chances}
    (h : Kept p.shared p.threads)
    (hlt : p.shared.procs.length < (program.step p x).1.shared.procs.length) :
    p.shared.trial = none ∧ ∀ u ∈ p.threads, u.isCapture = false := by
  cases x with
  | arrive e => exact absurd hlt (arrive_frame p.shared e).1.not_gt
  | advance t c =>
    by_cases ht : t ∈ p.threads
    · obtain ⟨l, hl, hstep⟩ := Program.step_advance (P := program) ht c
      rw [hstep] at hlt
      obtain ⟨trial, rfl⟩ := (run_frame p.shared t c).1 hlt
      have hs := h.free _ ht rfl
      have hcaptures := h.captures
      rw [hs.captured] at hcaptures
      exact ⟨hs.empty, Task.captures_eq_zero.1 hcaptures⟩
    · rw [Program.step_absent ht] at hlt
      exact absurd hlt (lt_irrefl _)

theorem watchDisk_own {minFree free : ℕ} {now : ℚ} {outcome : StopOutcome} {r' : ℕ}
    (h : Kept s l) (htracked : s.Alarmed minFree free → s.procs.length = r + 1)
    (hpre : s.running r' = true)
    (hpost : (s.watchDisk r minFree free now outcome).1.running r' = false) : r' = r := by
  unfold Recorder.watchDisk at hpost
  split at hpost
  · rw [hpre] at hpost
    cases hpost
  · rename_i hrecording
    simp only [Bool.not_eq_true', Bool.not_eq_false] at hrecording
    split at hpost
    · rw [hpre] at hpost
      cases hpost
    · rename_i hfree
      simp only [not_or, not_le] at hfree
      have hlength := htracked ⟨hrecording, hfree.2⟩
      cases hproc : s.proc with
      | none => simp [recording, hproc] at hrecording
      | some r₀ =>
        simp only [recording, hproc, Option.any_some] at hrecording
        have hlast := h.slot.last r₀ hproc hrecording
        have hsame := h.single hpre hrecording
        omega

theorem trial_of_shutdown {now : ℚ} {outcome : StopOutcome} (h : Kept s l) (hnoticed : s.Noticed) :
    (arrive s (.shutdown now outcome)).1.trial = none := by
  simp only [arrive]
  split
  · rename_i hrecording
    exact (stopped_of_recording hrecording).trial
  · rename_i hidle
    cases htrial : s.trial with
    | none => rfl
    | some c =>
      have hproc := h.slot.filled c htrial
      rw [hnoticed ?_] at htrial
      · cases htrial
      · simpa [exitedUnnoticed, recording, hproc] using hidle

theorem answer_of_arrive (s : Recorder) (e : RecorderEvent) (answer : StartAnswer) :
    (arrive s e).2.2 ≠ .start answer := by
  cases e with
  | start trial =>
    simp only [arrive]
    split <;> nofun
  | stop now outcome =>
    simp only [arrive]
    split <;> nofun
  | status now maxDuration =>
    simp only [arrive]
    split <;> nofun
  | shutdown now outcome =>
    simp only [arrive]
    split <;> nofun
  | exits r code => nofun

theorem answer_of_run {c : Chances} {answer : StartAnswer}
    (h : (run s t c).2.2 = .start answer) : t = .release answer := by
  unfold Recorder.run at h
  split at h <;> try cases h
  · split at h <;> cases h
  · rfl

theorem reported_step {p : Pool Recorder Task} {x : PoolEvent RecorderEvent Task Chances}
    {ctx : TrialContext} (h : Kept p.shared p.threads)
    (hout : (program.step p x).2 = some (.start (.started (some ctx)))) :
    ctx ∈ (program.step p x).1.shared.trials := by
  cases x with
  | arrive e => exact absurd (Option.some.inj hout) (answer_of_arrive p.shared e _)
  | advance t c =>
    by_cases ht : t ∈ p.threads
    · obtain ⟨l, -, hstep⟩ := Program.step_advance (P := program) ht c
      rw [hstep] at hout
      have hrelease : t = .release (.started (some ctx)) := answer_of_run (Option.some.inj hout)
      subst hrelease
      exact (step_frame p _).subset (h.ok _ ht)
    · rw [Program.step_absent ht] at hout
      cases hout

theorem accounted_step {p : Pool Recorder Task} {x : PoolEvent RecorderEvent Task Chances}
    (h : Kept p.shared p.threads) (htracked : Tracked p x) :
    Accounted (stepOf program.step p x) := by
  have hpost := kept_step h htracked
  exact {
    single := fun r r' => hpost.single
    whereabouts := hpost.accounted
    distinct := hpost.slot.distinct
    own := hpost.slot.filled
    lasting := step_frame p x
    reported := fun ctx hout => reported_step h hout
    captured := captured_of_popen h
    watcher := by
      rintro r minFree c rfl r' hpre hstop
      by_cases ht : Task.watch r minFree ∈ p.threads
      · obtain ⟨l, hl, hstep⟩ := Program.step_advance (P := program) ht c
        rw [stepOf, hstep] at hstop
        rw [hl] at h
        cases c with
        | wake free now outcome => exact watchDisk_own h htracked hpre hstop
        | _ => exact absurd (hpre.symm.trans hstop) (by simp)
      · rw [stepOf, Program.step_absent ht] at hstop
        exact absurd (hpre.symm.trans hstop) (by simp)
    shutdown := by
      rintro now outcome rfl
      exact trial_of_shutdown h htracked }

/-! ## Finalization -/

/-- How many moves a thread is away from having finalized its trial. -/
def left : Task → ℕ
  | .capture _ => 3
  | .captured _ _ => 2
  | .finalize _ _ => 1
  | _ => 0

/-- A move of a thread that holds a trial. -/
def Forward : PoolEvent RecorderEvent Task Chances → Prop
  | .arrive _ => False
  | .advance t _ => 0 < left t

theorem tracked_of_forward {p : Pool Recorder Task} {x : PoolEvent RecorderEvent Task Chances}
    (h : Forward x) : Tracked p x := by
  cases x with
  | arrive e => cases h
  | advance t c =>
    cases t with
    | watch r minFree => exact absurd h (lt_irrefl 0)
    | _ => trivial

theorem holds_of_left (h : left t = 0) : t.holds = 0 := by
  cases t with
  | capture => cases h
  | captured => cases h
  | finalize => cases h
  | _ => rfl

theorem forward_run (s : Recorder) (h : 0 < left t) : ∃ c,
    left t = 1 + (((program.run s t c).2.1 : Multiset Task).map left).sum ∧
      (program.run s t c).1.trial = s.trial ∧ (program.run s t c).1.trials = s.trials := by
  cases t with
  | capture pending => exact ⟨.captures {}, rfl, rfl, rfl⟩
  | captured pending captured => exact ⟨.go 0, rfl, rfl, rfl⟩
  | finalize pending captured => exact ⟨.finalizes "", rfl, rfl, rfl⟩
  | _ => exact absurd h (lt_irrefl 0)

/-- The threads that hold a trial can run to their end. -/
theorem forward_final : ∀ (n : ℕ) (p : Pool Recorder Task), (p.threads.map left).sum = n →
    ∃ es, (∀ x ∈ es, Forward x) ∧ (∀ t ∈ (final program.step p es).threads, left t = 0) ∧
      (final program.step p es).shared.trial = p.shared.trial ∧
      (final program.step p es).shared.trials = p.shared.trials := by
  intro n
  induction n with
  | zero =>
    intro p hsum
    refine ⟨[], by simp, ?_, rfl, rfl⟩
    intro t ht
    exact Multiset.sum_eq_zero_iff.1 hsum _ (Multiset.mem_map_of_mem left ht)
  | succ n ih =>
    intro p hsum
    have hsome : ∃ t ∈ p.threads, 0 < left t := by
      by_contra hnone
      push Not at hnone
      have hzero : (p.threads.map left).sum = 0 := by
        refine Multiset.sum_eq_zero_iff.2 ?_
        intro k hk
        obtain ⟨t, ht, rfl⟩ := Multiset.mem_map.1 hk
        exact Nat.le_zero.1 (hnone t ht)
      omega
    obtain ⟨t, ht, hleft⟩ := hsome
    obtain ⟨c, hnext, htrial, htrials⟩ := forward_run p.shared hleft
    obtain ⟨l, hl, hstep⟩ := Program.step_advance (P := program) ht c
    have hless : (((program.step p (.advance t c)).1.threads).map left).sum = n := by
      rw [hl, Multiset.map_cons, Multiset.sum_cons, hnext, add_assoc, add_comm n] at hsum
      rw [hstep, Multiset.map_add, Multiset.sum_add]
      exact Nat.add_left_cancel hsum
    obtain ⟨es, hforward, hdone, htrial', htrials'⟩ := ih _ hless
    refine ⟨.advance t c :: es, ?_, hdone, ?_, ?_⟩
    · intro x hx
      rcases List.mem_cons.1 hx with rfl | hx
      · exact hleft
      · exact hforward x hx
    · rw [final_cons, htrial', hstep]
      exact htrial
    · rw [final_cons, htrials', hstep]
      exact htrials

theorem kept_initial : Kept {} 0 where
  starts := rfl
  captures := rfl
  free t ht := absurd ht (Multiset.notMem_zero t)
  ok t ht := absurd ht (Multiset.notMem_zero t)
  alive := nofun
  slot := ⟨nofun, nofun, nofun, nofun, List.nodup_nil, nofun⟩
  accounted := rfl

theorem kept_final (es : List (PoolEvent RecorderEvent Task Chances)) (p : Pool Recorder Task)
    (hp : Kept p.shared p.threads)
    (h : ∀ t ∈ trace program.step p es, Tracked t.pre t.event) :
    Kept (final program.step p es).shared (final program.step p es).threads :=
  final_invariant_ok (f := program.step) (fun p => Kept p.shared p.threads)
    (fun _ _ hp hx => kept_step hp hx) es p hp h

/-- Every step of a tracked run is accounted for, and once the slot holds no
trial, the threads under way finalize every trial exactly once. -/
theorem trials_accounted (es : List (PoolEvent RecorderEvent Task Chances))
    (h : ∀ t ∈ trace program.step ⟨{}, 0⟩ es, Tracked t.pre t.event) :
    (∀ t ∈ trace program.step ⟨{}, 0⟩ es, Accounted t) ∧
      ((final program.step ⟨{}, 0⟩ es).shared.trial = none →
        ∃ es', (∀ x ∈ es', Forward x) ∧
          ((final program.step ⟨{}, 0⟩ (es ++ es')).shared.finalized.map
            fun e => e.pending.ctx).Perm (final program.step ⟨{}, 0⟩ es).shared.trials) := by
  constructor
  · intro t ht
    have hpre := (trace_invariant_ok (fun p : Pool Recorder Task => Kept p.shared p.threads)
      (fun _ _ hp hx => kept_step hp hx) es ⟨{}, 0⟩ kept_initial h t ht).1
    rw [eq_stepOf_of_mem_trace ht]
    exact accounted_step hpre (h t ht)
  · intro hempty
    have hkept := kept_final es ⟨{}, 0⟩ kept_initial h
    obtain ⟨es', hforward, hdone, htrial, htrials⟩ :=
      forward_final _ (final program.step ⟨{}, 0⟩ es) rfl
    refine ⟨es', hforward, ?_⟩
    have hend := kept_final es' _ hkept ?_
    · have hnone : ((final program.step (final program.step ⟨{}, 0⟩ es) es').threads.map
          Task.holds).sum = 0 := by
        refine Multiset.sum_eq_zero_iff.2 ?_
        intro held hheld
        obtain ⟨t, ht, rfl⟩ := Multiset.mem_map.1 hheld
        exact holds_of_left (hdone t ht)
      have haccounted := hend.accounted
      rw [whereabouts, hnone, htrial, hempty, htrials] at haccounted
      rw [final_append, ← Multiset.coe_eq_coe, ← haccounted]
      simp
    · intro t ht
      exact tracked_of_forward (hforward _ (map_event_trace program.step es' _ ▸
        List.mem_map_of_mem ht))

/-! Runs of a trial, of one that is lost, and of a watcher that outlives its
recording. -/

def trialContext : TrialContext := ⟨0, { trialId := "t1" }, "bag", "staging", []⟩

/-- A start up to its answer; the disk must keep `minFree` bytes free. -/
def startRun (r : ℕ) (trial : Option TrialMetadata) (minFree : ℕ) :
    List (PoolEvent RecorderEvent Task Chances) :=
  let ctx := trial.map fun metadata => ⟨r, metadata, "bag", "staging", []⟩
  [.arrive (.start trial), .advance (.prepare trial) (.popen "bag" "staging" [] minFree),
    .advance (.spawned r "bag" ctx minFree) (.go 1),
    .advance (.publish r "bag" ctx minFree) (.go 1), .advance (.release (.started ctx)) (.go 1)]

def trialPending : Pending := ⟨trialContext, .userStopped, .clean, 4, some 0⟩

def trialRun : List (PoolEvent RecorderEvent Task Chances) :=
  startRun 0 (some { trialId := "t1" }) 10 ++
    [.arrive (.stop 5 (.ends 0)), .advance (.capture trialPending) (.captures {})]

def lostTrial : List (PoolEvent RecorderEvent Task Chances) :=
  startRun 0 (some { trialId := "t1" }) 10 ++ .arrive (.exits 0 0) :: startRun 1 none 10

def strayWatcher : List (PoolEvent RecorderEvent Task Chances) :=
  startRun 0 none 10 ++ .arrive (.stop 2 (.ends 0)) :: startRun 1 none 0

theorem trials_accounted_run :
    (∀ t ∈ trace program.step ⟨{}, 0⟩ trialRun, Accounted t) ∧
      ((final program.step ⟨{}, 0⟩ trialRun).shared.trial = none →
        ∃ es', (∀ x ∈ es', Forward x) ∧
          ((final program.step ⟨{}, 0⟩ (trialRun ++ es')).shared.finalized.map
            fun e => e.pending.ctx).Perm (final program.step ⟨{}, 0⟩ trialRun).shared.trials) :=
  trials_accounted trialRun (by decide)

/-- A trial whose recorder has exited on its own: the next start drops it,
though its own start was reported, and a shutdown leaves it in the slot. The
watcher of a recording that was stopped stops the one after it. -/
theorem trial_lost :
    (some (.start (.started (some trialContext))) ∈
        (trace program.step ⟨{}, 0⟩ lostTrial).map Step.out ∧
      (final program.step ⟨{}, 0⟩ lostTrial).shared.whereabouts
        (final program.step ⟨{}, 0⟩ lostTrial).threads = 0) ∧
    (final program.step ⟨{}, 0⟩ (startRun 0 (some { trialId := "t1" }) 10 ++
      [.arrive (.exits 0 0), .arrive (.shutdown 9 .killed)])).shared.trial = some trialContext ∧
    (final program.step ⟨{}, 0⟩ strayWatcher).shared.running 1 = true ∧
    (final program.step ⟨{}, 0⟩
      (strayWatcher ++ [.advance (.watch 0 10) (.wake 5 9 (.ends 0))])).shared.running 1 = false := by
  decide

end Recorder

end Questix.RobotManager
