/-
Questix.RobotManager.NetworkTheorems — one change at a time, with its own
request and the helper's answer.

At most one thread has a job to end (`busy`). The request on the disk is the
one of the last accepted change; it stays there until the helper that was
started for it, or the thread of its job, removes it. A final status is written
at most once for a job, by the helper started for it.

All this needs that the parties keep to the time of their job (`InTime`): a
thread cleans up before the next change is accepted, and a helper does not
outlive its job.
-/
import Mathlib.Algebra.BigOperators.Group.Multiset.Basic
import Mathlib.Algebra.Group.Nat.Defs
import Mathlib.Data.Multiset.Filter
import Questix.Lib.Trace
import Questix.RobotManager.NetworkJobs

namespace Questix.RobotManager.WifiAp

open Questix.Lib

/-! ## The parties -/

namespace JobWork

/-- The job of the thread. -/
def job : JobWork → ℕ
  | .systemctl id _ => id
  | .wait id _ => id
  | .look id _ _ => id
  | .startLab id _ => id
  | .finish id _ _ _ => id
  | .remove id => id

def active : JobWork → Option ℕ
  | .remove _ => none
  | w => some w.job

/-- The thread will still look at the status. -/
def listens : JobWork → Bool
  | .wait _ _ => true
  | .look _ _ _ => true
  | _ => false

/-- How many moves the thread makes until its job has ended. -/
def left : JobWork → ℕ
  | .systemctl _ _ => 5
  | .wait _ _ => 4
  | .look _ _ _ => 3
  | .startLab _ _ => 2
  | .finish _ _ _ _ => 1
  | .remove _ => 0

theorem active_of_listens {w : JobWork} (h : w.listens = true) : w.active = some w.job := by
  cases w <;> first | rfl | cases h

end JobWork

/-- The run knows of no request but that of its job. -/
def HelperStage.Of (job : ℕ) : HelperStage → Prop
  | .read => True
  | .unlink request => request.id = job
  | .accept request => request.id = job
  | .handle request => request.id = job
  | .report id _ state _ => (∀ i ∈ id, i = job) ∧ state ≠ .running

/-- The change passes what `_submit` checks, apart from the running job. -/
def Submit.passes (s : Submit) : Bool :=
  s.invalid.isNone && s.available &&
    !((s.action = .stop || s.action = .regeneratePassword) && !s.configured) && !s.unwritable

namespace Network

def current (n : Network) (id : ℕ) : Bool := n.job.any fun job => job.id = id

/-- The helper has written no final status for the job. -/
def Unreported (n : Network) (id : ℕ) : Prop := ∀ f ∈ n.finals, f.id ≠ some id

instance (n : Network) (id : ℕ) : Decidable (n.Unreported id) :=
  inferInstanceAs (Decidable (∀ f ∈ n.finals, f.id ≠ some id))

/-- The accepted changes that have not ended. -/
def unfinished (n : Network) : List ℕ :=
  n.accepted.filter fun id => n.ended.all fun e => e.id ≠ id

/-- The running job. -/
def busy (n : Network) : Multiset ℕ :=
  match n.job with
  | none => 0
  | some job => if job.state = .running then {job.id} else 0

/-- A thread removes the request while its change is the last one, and nothing
unexpected happens to a job for which there is a final status. -/
def ThreadInTime (n : Network) (luck : JobLuck) : JobWork → Prop
  | .wait id _ => luck.raises = true → n.Unreported id
  | .startLab id _ => luck.raises = true → n.Unreported id
  | .remove id => luck.undeletable = true ∨ n.request = none ∨ n.current id = true
  | _ => True

instance (n : Network) (luck : JobLuck) : ∀ w, Decidable (n.ThreadInTime luck w)
  | .systemctl _ _ => .isTrue trivial
  | .wait _ _ => inferInstanceAs (Decidable (_ → _))
  | .look _ _ _ => .isTrue trivial
  | .startLab _ _ => inferInstanceAs (Decidable (_ → _))
  | .finish _ _ _ _ => .isTrue trivial
  | .remove _ => inferInstanceAs (Decidable (_ ∨ _))

/-- The helper reads the request before the thread of its job is done, removes
none of a later change, and reports before the thread looks. -/
def HelperInTime (n : Network) (l : Multiset JobWork) (run : HelperRun) : Prop :=
  match run.stage with
  | .read =>
    n.current run.job = true ∧ (n.request ≠ none ∨ ∃ w ∈ l, w.job = run.job)
  | .unlink _ => n.request = none ∨ n.current run.job = true
  | .report (some _) _ _ _ => ∃ w ∈ l, w.listens = true ∧ w.job = run.job
  | _ => True

instance (l : Multiset JobWork) (P : JobWork → Prop) [DecidablePred P] :
    Decidable (∃ w ∈ l, P w) :=
  Multiset.decidableExistsMultiset

instance (n : Network) (l : Multiset JobWork) : ∀ run, Decidable (n.HelperInTime l run)
  | ⟨job, .read⟩ => inferInstanceAs
      (Decidable (n.current job = true ∧ (n.request ≠ none ∨ ∃ w ∈ l, w.job = job)))
  | ⟨job, .unlink _⟩ => inferInstanceAs (Decidable (n.request = none ∨ n.current job = true))
  | ⟨_, .accept _⟩ => .isTrue trivial
  | ⟨_, .handle _⟩ => .isTrue trivial
  | ⟨_, .report none _ _ _⟩ => .isTrue trivial
  | ⟨job, .report (some _) _ _ _⟩ =>
    inferInstanceAs (Decidable (∃ w ∈ l, w.listens = true ∧ w.job = job))

end Network

/-- Every party keeps to the time of its job. -/
def InTime (p : Pool Network JobWork) : Event → Prop
  | .manager (.arrive s) => s.passes = true → p.shared.running = true ∨ p.shared.request = none
  | .manager (.advance w luck) => w ∈ p.threads → p.shared.ThreadInTime luck w
  | .helper luck =>
    luck.trouble = none → ∀ run ∈ p.shared.helper, p.shared.HelperInTime p.threads run
  | .helperDies => True

instance (p : Pool Network JobWork) : ∀ e, Decidable (InTime p e)
  | .manager (.arrive _) => inferInstanceAs (Decidable (_ → _ ∨ _))
  | .manager (.advance _ _) => inferInstanceAs (Decidable (_ → Network.ThreadInTime _ _ _))
  | .helper luck => inferInstanceAs (Decidable
      (luck.trouble = none → ∀ run ∈ p.shared.helper, p.shared.HelperInTime p.threads run))
  | .helperDies => .isTrue trivial

/-! ## What the parties rely on -/

/-- The thread relies on the request, on the status, or on what it has read. -/
def JobWork.Keeps (n : Network) : JobWork → Prop
  | .systemctl id _ =>
    n.request ≠ none ∧ n.Unreported id ∧ ∀ run ∈ n.helper, run.job ≠ id
  | .wait id _ => ∀ f ∈ n.finals, f.id = some id → n.helper = none ∧ n.status = some f
  | .look id _ _ => ∀ f ∈ n.finals, f.id = some id → n.helper = none ∧ n.status = some f
  | .startLab id code => ∀ f ∈ n.finals, f.id = some id → f.state = .succeeded ∧ f.code = some code
  | .finish id state code _ =>
    state ≠ .running ∧ ∀ f ∈ n.finals, f.id = some id → f.state = state ∧ f.code = some code
  | .remove _ => True

/-- A job that has ended agrees with the final statuses of the helper. -/
structure Ended (n : Network) (e : Job) : Prop where
  stopped : e.state ≠ .running
  idle : e.id ∉ n.busy
  known : e.id < n.accepted.length
  agrees : ∀ f ∈ n.finals, f.id = some e.id → e.state = f.state ∧ e.code = f.code

/-- A run of the helper, before it reports. -/
structure Helps (n : Network) (l : Multiset JobWork) (run : HelperRun) : Prop where
  own : run.stage.Of run.job
  known : run.job < n.accepted.length
  unreported : n.Unreported run.job
  finds : run.stage = .read → n.current run.job = true → (∃ w ∈ l, w.job = run.job) →
    n.request ≠ none

structure Kept (n : Network) (l : Multiset JobWork) : Prop where
  busy : l.filterMap JobWork.active = n.busy
  apart : (l.map JobWork.job).Nodup
  known : ∀ w ∈ l, w.job < n.accepted.length
  last : ∀ job ∈ n.job, job.id + 1 = n.accepted.length
  requested : ∀ r ∈ n.request, n.current r.id = true
  helper : ∀ run ∈ n.helper, Helps n l run
  finals : ∀ f ∈ n.finals,
    f.state ≠ .running ∧ f.code ≠ none ∧ ∀ id ∈ f.id, id < n.accepted.length
  keeps : ∀ w ∈ l, w.Keeps n
  ended : ∀ e ∈ n.ended, Ended n e
  accounted : ∀ id ∈ n.accepted, id ∈ n.busy ∨ ∃ e ∈ n.ended, e.id = id
  numbers : ∀ id ∈ n.accepted, id < n.accepted.length

variable {n n' : Network} {l l' : Multiset JobWork} {w w' : JobWork} {id id' : ℕ} {run : HelperRun}

namespace Network

theorem current_iff : n.current id = true ↔ ∃ job, n.job = some job ∧ job.id = id := by
  cases hjob : n.job with
  | none => simp [current, hjob]
  | some job => simp [current, hjob]

theorem mem_busy : id ∈ n.busy ↔ ∃ job, n.job = some job ∧ job.id = id ∧ job.state = .running := by
  cases hjob : n.job with
  | none => simp [busy, hjob]
  | some job =>
    by_cases hstate : job.state = .running
    · simp [busy, hjob, hstate, eq_comm]
    · simp [busy, hjob, hstate]

theorem busy_eq (h : id ∈ n.busy) : n.busy = {id} := by
  obtain ⟨job, hjob, rfl, hstate⟩ := mem_busy.1 h
  simp [busy, hjob, hstate]

theorem current_of_busy (h : id ∈ n.busy) : n.current id = true := by
  obtain ⟨job, hjob, hid, -⟩ := mem_busy.1 h
  exact current_iff.2 ⟨job, hjob, hid⟩

theorem busy_eq_zero (h : n.running = false) : n.busy = 0 := by
  cases hjob : n.job with
  | none => simp [busy, hjob]
  | some job =>
    rw [running, hjob] at h
    simp only [Option.any_some, decide_eq_false_iff_not] at h
    simp [busy, hjob, h]

theorem eq_of_current (h : n.current id = true) (h' : n.current id' = true) : id = id' := by
  obtain ⟨job, hjob, rfl⟩ := current_iff.1 h
  obtain ⟨job', hjob', rfl⟩ := current_iff.1 h'
  rw [hjob] at hjob'
  cases hjob'
  rfl

theorem mem_unfinished :
    id ∈ n.unfinished ↔ id ∈ n.accepted ∧ ∀ e ∈ n.ended, e.id ≠ id := by
  simp [unfinished, List.mem_filter, List.all_eq_true]

end Network

namespace Kept

theorem busy_of_mem (h : Kept n l) (hw : w ∈ l) (hactive : w.active = some id) : id ∈ n.busy := by
  rw [← h.busy]
  exact (Multiset.mem_filterMap _ _).2 ⟨w, hw, hactive⟩

theorem eq_of_active (h : Kept n l) (hw : w ∈ l) (hw' : w' ∈ l) (hactive : w.active = some id)
    (hactive' : w'.active = some id') : w = w' := by
  by_contra hne
  obtain ⟨rest, rfl⟩ := Multiset.exists_cons_of_mem hw
  have hrest : w' ∈ rest := (Multiset.mem_cons.1 hw').resolve_left fun heq => hne heq.symm
  have hbusy := h.busy
  rw [Multiset.filterMap_cons_some _ _ _ hactive,
    Network.busy_eq (h.busy_of_mem hw hactive)] at hbusy
  have hnone : rest.filterMap JobWork.active = 0 := by
    rwa [← Multiset.cons_zero, Multiset.cons_inj_right] at hbusy
  have hmem : id' ∈ rest.filterMap JobWork.active :=
    (Multiset.mem_filterMap _ _).2 ⟨w', hrest, hactive'⟩
  rw [hnone] at hmem
  exact absurd hmem (Multiset.notMem_zero _)

theorem eq_of_job (h : Kept n (w ::ₘ l)) (hw' : w' ∈ l) : w'.job ≠ w.job := by
  intro heq
  have hapart := h.apart
  rw [Multiset.map_cons, Multiset.nodup_cons] at hapart
  exact hapart.1 (heq ▸ Multiset.mem_map_of_mem _ hw')

theorem others (h : Kept n (w ::ₘ l)) (hactive : w.active = some id) (hw' : w' ∈ l) :
    w'.active = none := by
  cases hother : w'.active with
  | none => rfl
  | some id' =>
    have heq := h.eq_of_active (Multiset.mem_cons_self w l) (Multiset.mem_cons_of_mem hw')
      hactive hother
    exact absurd (congrArg JobWork.job heq.symm) (h.eq_of_job hw')

end Kept

theorem JobWork.keeps_of_done (h : w.active = none) : w.Keeps n := by
  cases w <;> trivial

/-! ## The moves of a job -/

namespace Kept

theorem goes_on (h : Kept n (w ::ₘ l)) (hjob : w'.job = w.job) (hactive : w'.active = w.active)
    (hkeeps : w'.Keeps n) : Kept n (w' ::ₘ l) where
  busy := by rw [← h.busy, Multiset.filterMap_cons, Multiset.filterMap_cons, hactive]
  apart := by
    rw [Multiset.map_cons, hjob, ← Multiset.map_cons]
    exact h.apart
  known x hx := by
    rcases Multiset.mem_cons.1 hx with rfl | hx
    · exact hjob ▸ h.known w (Multiset.mem_cons_self w l)
    · exact h.known x (Multiset.mem_cons_of_mem hx)
  last := h.last
  requested := h.requested
  helper run hrun := by
    obtain ⟨hown, hknown, hunreported, hfinds⟩ := h.helper run hrun
    refine ⟨hown, hknown, hunreported, ?_⟩
    rintro hread hcurrent ⟨x, hx, hxjob⟩
    refine hfinds hread hcurrent ?_
    rcases Multiset.mem_cons.1 hx with rfl | hx
    · exact ⟨w, Multiset.mem_cons_self w l, hjob ▸ hxjob⟩
    · exact ⟨x, Multiset.mem_cons_of_mem hx, hxjob⟩
  finals := h.finals
  keeps x hx := by
    rcases Multiset.mem_cons.1 hx with rfl | hx
    · exact hkeeps
    · exact h.keeps x (Multiset.mem_cons_of_mem hx)
  ended := h.ended
  accounted := h.accounted
  numbers := h.numbers

theorem starts {action : Action} (h : Kept n (.systemctl id action ::ₘ l)) :
    Kept { n with helper := some ⟨id, .read⟩ } (.wait id action ::ₘ l) := by
  obtain ⟨hrequest, hunreported, -⟩ := h.keeps _ (Multiset.mem_cons_self _ l)
  have hnext : Kept n (.wait id action ::ₘ l) :=
    h.goes_on rfl rfl fun f hf hid => absurd hid (hunreported f hf)
  exact {
    busy := hnext.busy
    apart := hnext.apart
    known := hnext.known
    last := hnext.last
    requested := hnext.requested
    helper := by
      rintro run ⟨⟩
      exact ⟨trivial, h.known _ (Multiset.mem_cons_self _ l), hunreported, fun _ _ _ => hrequest⟩
    finals := hnext.finals
    keeps := by
      intro x hx
      rcases Multiset.mem_cons.1 hx with rfl | hx
      · exact fun f hf hid => absurd hid (hunreported f hf)
      · exact JobWork.keeps_of_done (h.others rfl hx)
    ended := fun e he =>
      have hended := hnext.ended e he
      ⟨hended.stopped, hended.idle, hended.known, hended.agrees⟩
    accounted := hnext.accounted
    numbers := hnext.numbers }

theorem finalStatus_of {action : Action} {result : Option CompletedProcess}
    (h : Kept n (.look id action result ::ₘ l)) {f : Status} (hf : f ∈ n.finals)
    (hid : f.id = some id) : n.finalStatus id = some (f.state, f.code.getD .helperFailed) := by
  have hkeeps := (h.keeps _ (Multiset.mem_cons_self _ l) : JobWork.Keeps n (.look id action result))
  obtain ⟨-, hstatus⟩ := hkeeps f hf hid
  obtain ⟨hstate, -, -⟩ := h.finals f hf
  simp [Network.finalStatus, hstatus, hid, hstate]

theorem code_of_final (h : Kept n l) {f : Status} (hf : f ∈ n.finals) :
    f.code = some (f.code.getD .helperFailed) := by
  obtain ⟨-, hcode, -⟩ := h.finals f hf
  obtain ⟨code, hcode⟩ := Option.ne_none_iff_exists'.1 hcode
  rw [hcode]
  rfl

theorem looks {action : Action} {result : Option CompletedProcess} {luck : JobLuck}
    (h : Kept n (.look id action result ::ₘ l)) :
    Kept (n.run (.look id action result) luck).1
      (((n.run (.look id action result) luck).2.1 : Multiset JobWork) + l) := by
  simp only [Network.run]
  cases hfinal : n.finalStatus id with
  | none =>
    refine h.goes_on rfl rfl ⟨by simp, ?_⟩
    intro f hf hid
    rw [h.finalStatus_of hf hid] at hfinal
    cases hfinal
  | some found =>
    obtain ⟨state, code⟩ := found
    have hagrees : ∀ f ∈ n.finals, f.id = some id → f.state = state ∧ f.code = some code := by
      intro f hf hid
      rw [h.finalStatus_of hf hid] at hfinal
      cases hfinal
      exact ⟨rfl, h.code_of_final hf⟩
    have hstate : state ≠ .running := by
      unfold Network.finalStatus at hfinal
      split at hfinal
      · cases hfinal
      · split at hfinal
        · rename_i hstatus
          cases hfinal
          exact hstatus.2
        · cases hfinal
    dsimp only
    by_cases hstart : state = .succeeded ∧ action = .start
    · rw [if_pos hstart]
      exact h.goes_on rfl rfl fun f hf hid => hstart.1 ▸ hagrees f hf hid
    · rw [if_neg hstart]
      exact h.goes_on rfl rfl ⟨hstate, hagrees⟩

/-- `_finish`: the job has ended, and no thread has one to end. -/
theorem finishes {state : JobState} {code : Code} {lab : Option LabResult}
    (h : Kept n (.finish id state code lab ::ₘ l)) :
    Kept (n.finish id state code lab) (.remove id ::ₘ l) := by
  obtain ⟨hstate, hagrees⟩ := (h.keeps _ (Multiset.mem_cons_self _ l) :
    JobWork.Keeps n (.finish id state code lab))
  have hmem := h.busy_of_mem (Multiset.mem_cons_self _ l) rfl
  obtain ⟨job, hjob, hid, -⟩ := Network.mem_busy.1 hmem
  have hid : job.id = id := hid
  have hfinish : n.finish id state code lab = { n with
      job := some { job with state := state, code := some code, lab := lab }
      ended := n.ended ++ [{ job with state := state, code := some code, lab := lab }] } := by
    simp [Network.finish, hjob, hid]
  have hcurrent : ∀ i, (n.finish id state code lab).current i = n.current i := by
    intro i
    rw [hfinish, Network.current, Network.current, hjob]
    rfl
  have hidle : (n.finish id state code lab).busy = 0 := by
    rw [hfinish]
    simp [Network.busy, hstate]
  have hnone : l.filterMap JobWork.active = 0 := by
    refine Multiset.eq_zero_of_forall_notMem fun i hi => ?_
    obtain ⟨x, hx, hactive⟩ := (Multiset.mem_filterMap _ _).1 hi
    rw [h.others rfl hx] at hactive
    cases hactive
  have hfiles : (n.finish id state code lab).request = n.request ∧
      (n.finish id state code lab).helper = n.helper ∧
      (n.finish id state code lab).accepted = n.accepted ∧
      (n.finish id state code lab).finals = n.finals := by
    rw [hfinish]
    exact ⟨rfl, rfl, rfl, rfl⟩
  obtain ⟨hrequest, hhelper, haccepted, hfinals⟩ := hfiles
  exact {
    busy := by rw [Multiset.filterMap_cons_none _ _ rfl, hnone, hidle]
    apart := by
      have hapart := h.apart
      rw [Multiset.map_cons] at hapart ⊢
      exact hapart
    known := by
      intro x hx
      rw [haccepted]
      rcases Multiset.mem_cons.1 hx with rfl | hx
      · exact h.known (.finish id state code lab) (Multiset.mem_cons_self _ l)
      · exact h.known x (Multiset.mem_cons_of_mem hx)
    last := by
      rw [hfinish]
      rintro _ ⟨⟩
      exact h.last job hjob
    requested := by
      intro r hr
      rw [hcurrent]
      exact h.requested r (hrequest ▸ hr)
    helper := by
      intro run hrun
      rw [hhelper] at hrun
      obtain ⟨hown, hknown, hunreported, hfinds⟩ := h.helper run hrun
      refine ⟨hown, haccepted ▸ hknown, ?_, ?_⟩
      · unfold Network.Unreported
        rw [hfinals]
        exact hunreported
      · rintro hread hnow ⟨x, hx, hxjob⟩
        rw [hrequest]
        rw [hcurrent] at hnow
        refine hfinds hread hnow ?_
        rcases Multiset.mem_cons.1 hx with rfl | hx
        · exact ⟨_, Multiset.mem_cons_self _ l, hxjob⟩
        · exact ⟨x, Multiset.mem_cons_of_mem hx, hxjob⟩
    finals := by
      rw [hfinals, haccepted]
      exact h.finals
    keeps := by
      intro x hx
      rcases Multiset.mem_cons.1 hx with rfl | hx
      · trivial
      · exact JobWork.keeps_of_done (h.others rfl hx)
    ended := by
      intro e he
      have hidle' : e.id ∉ (n.finish id state code lab).busy := by
        rw [hidle]
        exact Multiset.notMem_zero _
      rw [hfinish] at he
      rcases List.mem_append.1 he with he | he
      · have hended := h.ended e he
        refine ⟨hended.stopped, hidle', ?_, ?_⟩
        · rw [haccepted]
          exact hended.known
        · rw [hfinals]
          exact hended.agrees
      · rw [List.mem_singleton] at he
        subst he
        refine ⟨hstate, hidle', ?_, ?_⟩
        · rw [haccepted]
          exact hid ▸ h.known _ (Multiset.mem_cons_self _ l)
        · rw [hfinals]
          intro f hf hfid
          have hfid' : f.id = some id := hfid.trans (congrArg some hid)
          obtain ⟨hfstate, hfcode⟩ := hagrees f hf hfid'
          exact ⟨hfstate.symm, hfcode.symm⟩
    accounted := by
      intro i hi
      right
      rw [haccepted] at hi
      rw [hfinish]
      rcases h.accounted i hi with hbusy | ⟨e, he, hei⟩
      · rw [Network.busy_eq hmem, Multiset.mem_singleton] at hbusy
        exact ⟨_, List.mem_append_right _ (List.mem_singleton_self _), hid.trans hbusy.symm⟩
      · exact ⟨e, List.mem_append_left _ he, hei⟩
    numbers := by
      rw [haccepted]
      exact h.numbers }

theorem leaves (h : Kept n (.remove id ::ₘ l)) : Kept n l where
  busy := by
    rw [← h.busy]
    exact (Multiset.filterMap_cons_none _ _ rfl).symm
  apart := (Multiset.nodup_cons.1 (Multiset.map_cons JobWork.job _ l ▸ h.apart)).2
  known w hw := h.known w (Multiset.mem_cons_of_mem hw)
  last := h.last
  requested := h.requested
  helper run hrun := by
    obtain ⟨hown, hknown, hunreported, hfinds⟩ := h.helper run hrun
    refine ⟨hown, hknown, hunreported, ?_⟩
    rintro hread hcurrent ⟨w, hw, hjob⟩
    exact hfinds hread hcurrent ⟨w, Multiset.mem_cons_of_mem hw, hjob⟩
  finals := h.finals
  keeps w hw := h.keeps w (Multiset.mem_cons_of_mem hw)
  ended := h.ended
  accounted := h.accounted
  numbers := h.numbers

theorem cleans (h : Kept n (.remove id ::ₘ l)) (hcurrent : n.current id = true) :
    Kept { n with request := none } l := by
  have hrest := h.leaves
  exact {
    busy := hrest.busy
    apart := hrest.apart
    known := hrest.known
    last := hrest.last
    requested := nofun
    helper := by
      intro run hrun
      obtain ⟨hown, hknown, hunreported, -⟩ := hrest.helper run hrun
      refine ⟨hown, hknown, hunreported, ?_⟩
      rintro - hnow ⟨w, hw, hjob⟩
      have hid : run.job = id := Network.eq_of_current hnow hcurrent
      exact absurd (hjob.trans hid) (h.eq_of_job hw)
    finals := hrest.finals
    keeps := by
      intro w hw
      have hkeeps := hrest.keeps w hw
      cases w with
      | systemctl i action =>
        have hbusy := hrest.busy_of_mem hw rfl
        have hid : i = id := Network.eq_of_current (Network.current_of_busy hbusy) hcurrent
        exact absurd hid (h.eq_of_job hw)
      | _ => exact hkeeps
    ended := fun e he =>
      have hended := hrest.ended e he
      ⟨hended.stopped, hended.idle, hended.known, hended.agrees⟩
    accounted := hrest.accounted
    numbers := hrest.numbers }

/-- `_submit` -/
theorem accepts {action : Action} (h : Kept n l) (hidle : n.running = false) :
    Kept { n with
        request := some ⟨n.accepted.length, action⟩
        job := some { id := n.accepted.length, action := action }
        accepted := n.accepted ++ [n.accepted.length] }
      (.systemctl n.accepted.length action ::ₘ l) := by
  have hbusy := n.busy_eq_zero hidle
  have hdone : ∀ w ∈ l, w.active = none := by
    intro w hw
    cases hactive : w.active with
    | none => rfl
    | some id =>
      have hmem := h.busy_of_mem hw hactive
      rw [hbusy] at hmem
      exact absurd hmem (Multiset.notMem_zero _)
  exact {
    busy := by
      rw [Multiset.filterMap_cons_some _ _ _ (show JobWork.active _ = some n.accepted.length from rfl),
        h.busy, hbusy]
      simp [Network.busy]
    apart := by
      rw [Multiset.map_cons, Multiset.nodup_cons]
      refine ⟨?_, h.apart⟩
      intro hmem
      obtain ⟨w, hw, hjob⟩ := Multiset.mem_map.1 hmem
      have hlt := h.known w hw
      rw [hjob] at hlt
      exact absurd hlt (Nat.lt_irrefl _)
    known := by
      intro w hw
      rw [List.length_append]
      rcases Multiset.mem_cons.1 hw with rfl | hw
      · exact Nat.lt_succ_self _
      · exact (h.known w hw).trans (Nat.lt_succ_self _)
    last := by
      rintro _ ⟨⟩
      rw [List.length_append]
      rfl
    requested := by
      rintro _ ⟨⟩
      simp [Network.current]
    helper := by
      intro run hrun
      obtain ⟨hown, hknown, hunreported, -⟩ := h.helper run hrun
      refine ⟨hown, ?_, hunreported, ?_⟩
      · rw [List.length_append]
        exact hknown.trans (Nat.lt_succ_self _)
      · intro _ _ _
        nofun
    finals := by
      intro f hf
      obtain ⟨hstate, hcode, hknown⟩ := h.finals f hf
      refine ⟨hstate, hcode, ?_⟩
      intro id hid
      rw [List.length_append]
      exact (hknown id hid).trans (Nat.lt_succ_self _)
    keeps := by
      intro w hw
      rcases Multiset.mem_cons.1 hw with rfl | hw
      · refine ⟨nofun, ?_, ?_⟩
        · intro f hf hid
          obtain ⟨-, -, hknown⟩ := h.finals f hf
          exact absurd (hknown _ hid) (Nat.lt_irrefl _)
        · intro run hrun hjob
          obtain ⟨-, hknown, -, -⟩ := h.helper run hrun
          rw [hjob] at hknown
          exact absurd hknown (Nat.lt_irrefl _)
      · exact JobWork.keeps_of_done (hdone w hw)
    ended := by
      intro e he
      obtain ⟨hover, -, hknown, hagrees⟩ := h.ended e he
      refine ⟨hover, ?_, ?_, hagrees⟩
      · intro hmem
        obtain ⟨job, hjob, hid, -⟩ := Network.mem_busy.1 hmem
        cases hjob
        rw [← hid] at hknown
        exact absurd hknown (Nat.lt_irrefl _)
      · rw [List.length_append]
        exact hknown.trans (Nat.lt_succ_self _)
    accounted := by
      intro id hid
      rcases List.mem_append.1 hid with hid | hid
      · rcases h.accounted id hid with hmem | hended
        · rw [hbusy] at hmem
          exact absurd hmem (Multiset.notMem_zero _)
        · exact .inr hended
      · rw [List.mem_singleton] at hid
        subst hid
        exact .inl (Network.mem_busy.2 ⟨_, rfl, rfl, rfl⟩)
    numbers := by
      intro id hid
      rw [List.length_append]
      rcases List.mem_append.1 hid with hid | hid
      · exact (h.numbers id hid).trans (Nat.lt_succ_self _)
      · rw [List.mem_singleton] at hid
        subst hid
        exact Nat.lt_succ_self _ }

/-! ## The moves of the helper -/

/-- The helper goes on with its request, or is gone. -/
theorem serves (h : Kept n l) (hrun : n.helper = some run) {request : Option NetworkRequest}
    {status : Option Status} {next : Option HelperRun}
    (hrequest : request = n.request ∨ request = none ∧
      (n.request = none ∨ n.current run.job = true))
    (hnext : ∀ r ∈ next, r.job = run.job ∧ r.stage.Of run.job ∧ r.stage ≠ .read) :
    Kept { n with request := request, status := status, helper := next } l := by
  obtain ⟨hown, hknown, hunreported, hfinds⟩ := h.helper run hrun
  exact {
    busy := h.busy
    apart := h.apart
    known := h.known
    last := h.last
    requested := by
      intro r hr
      rcases hrequest with rfl | ⟨rfl, -⟩
      · exact h.requested r hr
      · cases hr
    helper := by
      intro r hr
      obtain ⟨hjob, hof, hread⟩ := hnext r hr
      refine ⟨?_, ?_, ?_, fun hstage => absurd hstage hread⟩
      · rw [hjob]
        exact hof
      · rw [hjob]
        exact hknown
      · rw [hjob]
        exact hunreported
    finals := h.finals
    keeps := by
      intro w hw
      have hkeeps := h.keeps w hw
      cases w with
      | systemctl i action =>
        obtain ⟨hthere, hnone, hother⟩ := hkeeps
        refine ⟨?_, hnone, ?_⟩
        · rcases hrequest with rfl | ⟨-, hgone | hcurrent⟩
          · exact hthere
          · exact absurd hgone hthere
          · have hbusy := h.busy_of_mem hw rfl
            exact absurd (Network.eq_of_current hcurrent (Network.current_of_busy hbusy))
              (hother run hrun)
        · intro r hr
          rw [(hnext r hr).1]
          exact hother run hrun
      | wait i action =>
        intro f hf hid
        obtain ⟨hgone, -⟩ := hkeeps f hf hid
        rw [hrun] at hgone
        cases hgone
      | look i action result =>
        intro f hf hid
        obtain ⟨hgone, -⟩ := hkeeps f hf hid
        rw [hrun] at hgone
        cases hgone
      | startLab i code => exact hkeeps
      | finish i state code lab => exact hkeeps
      | remove i => trivial
    ended := fun e he =>
      have hended := h.ended e he
      ⟨hended.stopped, hended.idle, hended.known, hended.agrees⟩
    accounted := h.accounted
    numbers := h.numbers }

/-- The helper reports an end while the thread of its job has not looked. -/
theorem reports (h : Kept n l) (hrun : n.helper = some run) {status : Status}
    (hown : ∀ id ∈ status.id, id = run.job) (hstate : status.state ≠ .running)
    (hcode : status.code ≠ none)
    (hlistens : status.id ≠ none → ∃ w ∈ l, w.listens = true ∧ w.job = run.job) :
    Kept (n.writeFinal status) l := by
  obtain ⟨-, hknown, hunreported, -⟩ := h.helper run hrun
  -- the thread of the job that the status is about
  have hlistener : ∀ id, status.id = some id →
      id ∈ n.busy ∧ ∀ w ∈ l, w.active = some id → w.listens = true := by
    intro id hid
    obtain ⟨x, hx, hlisten, hjob⟩ := hlistens (by rw [hid]; nofun)
    rw [← hown id hid] at hjob
    have hactive := JobWork.active_of_listens hlisten
    refine ⟨hjob ▸ h.busy_of_mem hx hactive, ?_⟩
    intro w hw hw'
    rw [h.eq_of_active hw hx hw' hactive]
    exact hlisten
  exact {
    busy := h.busy
    apart := h.apart
    known := h.known
    last := h.last
    requested := h.requested
    helper := nofun
    finals := by
      intro f hf
      rcases List.mem_append.1 hf with hf | hf
      · exact h.finals f hf
      · rw [List.mem_singleton] at hf
        subst hf
        refine ⟨hstate, hcode, ?_⟩
        intro id hid
        rw [hown id hid]
        exact hknown
    keeps := by
      intro w hw
      have hkeeps := h.keeps w hw
      cases w with
      | systemctl i action =>
        obtain ⟨hthere, hnone, hother⟩ := hkeeps
        refine ⟨hthere, ?_, nofun⟩
        intro f hf hid
        rcases List.mem_append.1 hf with hf | hf
        · exact hnone f hf hid
        · rw [List.mem_singleton] at hf
          subst hf
          exact hother run hrun (hown i hid).symm
      | wait i action =>
        intro f hf hid
        rcases List.mem_append.1 hf with hf | hf
        · obtain ⟨hgone, -⟩ := hkeeps f hf hid
          rw [hrun] at hgone
          cases hgone
        · rw [List.mem_singleton] at hf
          subst hf
          exact ⟨rfl, rfl⟩
      | look i action result =>
        intro f hf hid
        rcases List.mem_append.1 hf with hf | hf
        · obtain ⟨hgone, -⟩ := hkeeps f hf hid
          rw [hrun] at hgone
          cases hgone
        · rw [List.mem_singleton] at hf
          subst hf
          exact ⟨rfl, rfl⟩
      | startLab i code =>
        intro f hf hid
        rcases List.mem_append.1 hf with hf | hf
        · exact hkeeps f hf hid
        · rw [List.mem_singleton] at hf
          subst hf
          exact absurd ((hlistener i hid).2 _ hw rfl) nofun
      | finish i state code lab =>
        refine ⟨hkeeps.1, ?_⟩
        intro f hf hid
        rcases List.mem_append.1 hf with hf | hf
        · exact hkeeps.2 f hf hid
        · rw [List.mem_singleton] at hf
          subst hf
          exact absurd ((hlistener i hid).2 _ hw rfl) nofun
      | remove i => trivial
    ended := by
      intro e he
      have hended := h.ended e he
      refine ⟨hended.stopped, hended.idle, hended.known, ?_⟩
      intro f hf hid
      rcases List.mem_append.1 hf with hf | hf
      · exact hended.agrees f hf hid
      · rw [List.mem_singleton] at hf
        subst hf
        exact absurd (hlistener e.id hid).1 hended.idle
    accounted := h.accounted
    numbers := h.numbers }

end Kept

/-! ## Runs -/

theorem kept_initial : Kept {} 0 where
  busy := rfl
  apart := Multiset.nodup_zero
  known w hw := absurd hw (Multiset.notMem_zero w)
  last _ hjob := absurd hjob (Option.not_mem_none _)
  requested _ hr := absurd hr (Option.not_mem_none _)
  helper _ hrun := absurd hrun (Option.not_mem_none _)
  finals _ hf := absurd hf List.not_mem_nil
  keeps w hw := absurd hw (Multiset.notMem_zero w)
  ended _ he := absurd he List.not_mem_nil
  accounted _ hid := absurd hid List.not_mem_nil
  numbers _ hid := absurd hid List.not_mem_nil

theorem Kept.arrive (h : Kept n l) (s : Submit) :
    Kept (n.arrive s).1 (((n.arrive s).2.1 : Multiset JobWork) + l) := by
  unfold Network.arrive
  have hsame : Kept n (((([] : List JobWork)) : Multiset JobWork) + l) := by
    rwa [Multiset.coe_nil, Multiset.zero_add]
  split
  · exact hsame
  · split
    · exact hsame
    · rename_i hrunning
      split
      · exact hsame
      · split
        · exact hsame
        · split
          · exact hsame
          · exact h.accepts (Bool.eq_false_iff.2 hrunning)

theorem Kept.advance {luck : JobLuck} (h : Kept n (w ::ₘ l)) (hw : n.ThreadInTime luck w) :
    Kept (n.run w luck).1 (((n.run w luck).2.1 : Multiset JobWork) + l) := by
  have hkeeps := h.keeps w (Multiset.mem_cons_self w l)
  cases w with
  | systemctl id action =>
    simp only [Network.run]
    split
    · exact h.starts
    · refine h.goes_on rfl rfl ?_
      exact fun f hf hid => absurd hid (hkeeps.2.1 f hf)
  | wait id action =>
    simp only [Network.run]
    split
    · rename_i hraises
      exact h.goes_on rfl rfl ⟨nofun, fun f hf hid => absurd hid (hw hraises f hf)⟩
    · exact h.goes_on rfl rfl hkeeps
  | look id action result => exact h.looks
  | startLab id code =>
    simp only [Network.run]
    split
    · rename_i hraises
      exact h.goes_on rfl rfl ⟨nofun, fun f hf hid => absurd hid (hw hraises f hf)⟩
    · exact h.goes_on rfl rfl ⟨nofun, hkeeps⟩
  | finish id state code lab => exact h.finishes
  | remove id =>
    simp only [Network.run, Multiset.coe_nil, Multiset.zero_add]
    split
    · exact h.leaves
    · rename_i hdel
      rcases hw with hun | hnone | hcurrent
      · exact absurd hun hdel
      · have hsame : { n with request := none } = n := by rw [← hnone]
        rw [hsame]
        exact h.leaves
      · exact h.cleans hcurrent

/-- A move of the helper. -/
theorem Kept.runHelper {luck : HelperLuck} (h : Kept n l)
    (hrun : luck.trouble = none → ∀ run ∈ n.helper, n.HelperInTime l run) :
    Kept (n.runHelper luck) l := by
  unfold Network.runHelper
  split
  · exact h
  · rename_i job stage hhelper
    have hown := (h.helper _ hhelper).own
    have hserves : ∀ next : HelperStage, next.Of job → next ≠ .read →
        Kept { n with helper := some ⟨job, next⟩ } l := by
      intro next hof hread
      refine h.serves hhelper (.inl rfl) ?_
      rintro _ ⟨⟩
      exact ⟨rfl, hof, hread⟩
    dsimp only
    split
    · exact hserves _ ⟨nofun, nofun⟩ nofun
    · rename_i htrouble
      split
      · exact hserves _ ⟨nofun, nofun⟩ nofun
      · rename_i request hrequest
        obtain ⟨hcurrent, -⟩ := hrun htrouble _ hhelper
        exact hserves _ (Network.eq_of_current (h.requested request hrequest) hcurrent) nofun
    · exact hserves _ ⟨nofun, nofun⟩ nofun
    · rename_i request htrouble
      refine h.serves hhelper (.inr ⟨rfl, hrun htrouble _ hhelper⟩) ?_
      rintro _ ⟨⟩
      exact ⟨rfl, hown, nofun⟩
    · refine hserves _ ⟨?_, nofun⟩ nofun
      rintro _ ⟨⟩
      exact hown
    · refine h.serves hhelper (.inl rfl) ?_
      rintro _ ⟨⟩
      exact ⟨rfl, hown, nofun⟩
    · refine hserves _ ⟨?_, nofun⟩ nofun
      rintro _ ⟨⟩
      exact hown
    · refine hserves _ ⟨?_, nofun⟩ nofun
      rintro _ ⟨⟩
      exact hown
    · rename_i id action state code htrouble
      refine h.reports hhelper hown.1 hown.2 nofun ?_
      intro hid
      obtain ⟨i, hi⟩ := Option.ne_none_iff_exists'.1 hid
      have hi : id = some i := hi
      subst hi
      exact hrun htrouble _ hhelper
    · exact hserves _ ⟨hown.1, nofun⟩ nofun
    · exact h.serves hhelper (.inl rfl) nofun

variable {p : Pool Network JobWork} {e : Event}

theorem kept_step (h : Kept p.shared p.threads) (he : InTime p e) :
    Kept (step p e).1.shared (step p e).1.threads := by
  cases e with
  | manager x =>
    refine Program.step_invariant h ?_ ?_
    · rintro s rfl
      exact h.arrive s
    · rintro w l luck rfl hl
      have hw : w ∈ p.threads := hl ▸ Multiset.mem_cons_self w l
      rw [hl] at h
      exact h.advance (he hw)
  | helper luck => exact h.runHelper he
  | helperDies =>
    cases hhelper : p.shared.helper with
    | none =>
      have hsame : { p.shared with helper := none } = p.shared := by rw [← hhelper]
      show Kept { p.shared with helper := none } p.threads
      rw [hsame]
      exact h
    | some run => exact h.serves hhelper (.inl rfl) nofun

/-- What becomes of a request that is on the disk no longer. -/
def Removes (t : Step (Pool Network JobWork) Event (Option Answer)) (r : NetworkRequest) : Prop :=
  (∃ luck request, t.event = .helper luck ∧ request.id = r.id ∧
    t.pre.shared.helper = some ⟨r.id, .unlink request⟩) ∨
  ∃ luck, t.event = .manager (.advance (.remove r.id) luck)

/-- One change at a time, each with its own request and end. -/
structure Orderly (t : Step (Pool Network JobWork) Event (Option Answer)) : Prop where
  single : ∀ id ∈ t.post.shared.unfinished, ∀ id' ∈ t.post.shared.unfinished, id = id'
  running : ∀ id ∈ t.post.shared.unfinished,
    ∃ job, t.post.shared.job = some job ∧ job.id = id ∧ job.state = .running
  removed : ∀ r ∈ t.pre.shared.request, t.post.shared.request ≠ some r → Removes t r
  found : ∀ id luck, t.event = .helper luck → luck.trouble = none →
    t.pre.shared.helper = some ⟨id, .read⟩ → ∃ r ∈ t.pre.shared.request, r.id = id
  ends : ∀ e ∈ t.post.shared.ended, e.state ≠ .running ∧
    ∀ f ∈ t.post.shared.finals, f.id = some e.id → e.state = f.state ∧ e.code = f.code
  ending : ∀ id ∈ t.post.shared.unfinished, ∃ w ∈ t.post.threads, w.active = some id

theorem Kept.busy_of_unfinished (h : Kept n l) (hid : id ∈ n.unfinished) : id ∈ n.busy := by
  obtain ⟨haccepted, hended⟩ := Network.mem_unfinished.1 hid
  rcases h.accounted id haccepted with hbusy | ⟨e, he, heid⟩
  · exact hbusy
  · exact absurd heid (hended e he)

theorem Kept.thread_of_busy (h : Kept n l) (hid : id ∈ n.busy) :
    ∃ w ∈ l, w.active = some id := by
  rw [← h.busy] at hid
  exact (Multiset.mem_filterMap _ _).1 hid

theorem request_arrive {s : Submit}
    (h : s.passes = true → n.running = true ∨ n.request = none) {r : NetworkRequest}
    (hr : n.request = some r) : (n.arrive s).1.request = some r := by
  unfold Network.arrive
  split
  · exact hr
  · rename_i hvalid
    split
    · exact hr
    · rename_i hrunning
      split
      · exact hr
      · rename_i havailable
        split
        · exact hr
        · rename_i hconfigured
          split
          · exact hr
          · rename_i hwritable
            have hpasses : s.passes = true := by
              simp only [Submit.passes, hvalid, Option.isNone_none, Bool.true_and]
              simp only [Bool.not_eq_true, Bool.not_eq_true'] at havailable hconfigured hwritable
              rw [Bool.not_eq_false] at havailable
              rw [havailable, hconfigured, hwritable]
              rfl
            rcases h hpasses with hrun | hnone
            · exact absurd hrun hrunning
            · rw [hr] at hnone
              cases hnone

theorem request_run {luck : JobLuck} (hw : n.ThreadInTime luck w) {r : NetworkRequest}
    (hr : n.request = some r) (hcurrent : n.current r.id = true) :
    (n.run w luck).1.request = some r ∨ w = .remove r.id := by
  cases w with
  | systemctl id action =>
    left
    simp only [Network.run]
    split <;> exact hr
  | wait id action => exact .inl hr
  | look id action result =>
    left
    simp only [Network.run]
    split <;> exact hr
  | startLab id code => exact .inl hr
  | finish id state code lab =>
    left
    simp only [Network.run, Network.finish]
    split
    · exact hr
    · split <;> exact hr
  | remove id =>
    simp only [Network.run]
    split
    · exact .inl hr
    · rename_i hdel
      rcases hw with hun | hnone | hnow
      · exact absurd hun hdel
      · rw [hr] at hnone
        cases hnone
      · exact .inr (congrArg JobWork.remove (Network.eq_of_current hnow hcurrent))

theorem request_runHelper {luck : HelperLuck} (h : Kept n l)
    (hrun : luck.trouble = none → ∀ run ∈ n.helper, n.HelperInTime l run) {r : NetworkRequest}
    (hr : n.request = some r) :
    (n.runHelper luck).request = some r ∨
      ∃ request : NetworkRequest, request.id = r.id ∧ n.helper = some ⟨r.id, .unlink request⟩ := by
  unfold Network.runHelper
  split
  · exact .inl hr
  · rename_i job stage hhelper
    dsimp only
    split
    · exact .inl hr
    · split
      · exact .inl hr
      · exact .inl hr
    · exact .inl hr
    · rename_i request htrouble
      have hown : request.id = job := (h.helper _ hhelper).own
      rcases hrun htrouble _ hhelper with hnone | hcurrent
      · rw [hr] at hnone
        cases hnone
      · have hjob : job = r.id := Network.eq_of_current hcurrent (h.requested r hr)
        subst hjob
        exact .inr ⟨request, hown, hhelper⟩
    all_goals exact .inl hr

/-- Every step in time is orderly. -/
theorem orderly_step (h : Kept p.shared p.threads) (he : InTime p e) :
    Orderly (stepOf step p e) where
  single id hid id' hid' := by
    have hpost := kept_step h he
    exact Network.eq_of_current (Network.current_of_busy (hpost.busy_of_unfinished hid))
      (Network.current_of_busy (hpost.busy_of_unfinished hid'))
  running id hid := Network.mem_busy.1 ((kept_step h he).busy_of_unfinished hid)
  removed r hr hne := by
    cases e with
    | manager x =>
      cases x with
      | arrive s => exact absurd (request_arrive he hr) hne
      | advance w luck =>
        by_cases hw : w ∈ p.threads
        · obtain ⟨l, hl, hstep⟩ := Program.step_advance (P := Network.program) hw luck
          rcases request_run (he hw) hr (h.requested r hr) with hsame | rfl
          · refine absurd ?_ hne
            show (Network.program.step p (.advance w luck)).1.shared.request = some r
            rw [hstep]
            exact hsame
          · exact .inr ⟨luck, rfl⟩
        · refine absurd ?_ hne
          show (Network.program.step p (.advance w luck)).1.shared.request = some r
          rw [Program.step_absent hw]
          exact hr
    | helper luck =>
      rcases request_runHelper h he hr with hsame | ⟨request, hid, hhelper⟩
      · exact absurd hsame hne
      · exact .inl ⟨luck, request, rfl, hid, hhelper⟩
    | helperDies => exact absurd hr hne
  found id luck hevent htrouble hhelper := by
    have hevent : e = .helper luck := hevent
    subst hevent
    have hhelper : p.shared.helper = some ⟨id, .read⟩ := hhelper
    obtain ⟨hcurrent, hthere⟩ := he htrouble _ hhelper
    have hrequest : p.shared.request ≠ none := by
      rcases hthere with hthere | hthread
      · exact hthere
      · exact (h.helper _ hhelper).finds rfl hcurrent hthread
    obtain ⟨r, hr⟩ := Option.ne_none_iff_exists'.1 hrequest
    exact ⟨r, hr, Network.eq_of_current (h.requested r hr) hcurrent⟩
  ends e he' := by
    have hended := (kept_step h he).ended e he'
    exact ⟨hended.stopped, hended.agrees⟩
  ending id hid := by
    have hpost := kept_step h he
    exact hpost.thread_of_busy (hpost.busy_of_unfinished hid)

/-! ## How long a job takes -/

/-- The thread of the job moves before it has reported the end. -/
def advances (id : ℕ) (t : Step (Pool Network JobWork) Event (Option Answer)) : Bool :=
  match t.event with
  | .manager (.advance w _) => w ∈ t.pre.threads && w.active = some id
  | _ => false

def JobWork.share (id : ℕ) (w : JobWork) : ℕ := if w.job = id then w.left else 0

/-- The moves that are left for a job, accepted or not. -/
def budget (id : ℕ) (p : Pool Network JobWork) : ℕ :=
  if id < p.shared.accepted.length then (p.threads.map (JobWork.share id)).sum else 5

theorem share_run (id : ℕ) (n : Network) (w : JobWork) (luck : JobLuck) :
    (((n.run w luck).2.1 : Multiset JobWork).map (JobWork.share id)).sum +
      (if w.active = some id then 1 else 0) ≤ w.share id := by
  cases w with
  | systemctl i action =>
    by_cases hid : i = id <;> simp [Network.run, JobWork.share, JobWork.job, JobWork.active,
      JobWork.left, hid]
  | wait i action =>
    by_cases hid : i = id <;> by_cases hraises : luck.raises = true <;>
      simp [Network.run, JobWork.share, JobWork.job, JobWork.active, JobWork.left, hid, hraises]
  | look i action result =>
    simp only [Network.run]
    split
    · split <;> by_cases hid : i = id <;>
        simp [JobWork.share, JobWork.job, JobWork.active, JobWork.left, hid]
    · by_cases hid : i = id <;>
        simp [JobWork.share, JobWork.job, JobWork.active, JobWork.left, hid]
  | startLab i code =>
    by_cases hid : i = id <;> by_cases hraises : luck.raises = true <;>
      simp [Network.run, JobWork.share, JobWork.job, JobWork.active, JobWork.left, hid, hraises]
  | finish i state code lab =>
    by_cases hid : i = id <;> simp [Network.run, JobWork.share, JobWork.job, JobWork.active,
      JobWork.left, hid]
  | remove i => simp [Network.run, JobWork.active]

theorem accepted_run (n : Network) (w : JobWork) (luck : JobLuck) :
    (n.run w luck).1.accepted = n.accepted := by
  cases w with
  | systemctl id action =>
    simp only [Network.run]
    split <;> rfl
  | wait id action => rfl
  | look id action result =>
    simp only [Network.run]
    split <;> rfl
  | startLab id code => rfl
  | finish id state code lab =>
    simp only [Network.run, Network.finish]
    split
    · rfl
    · split <;> rfl
  | remove id =>
    simp only [Network.run]
    split <;> rfl

theorem accepted_runHelper (n : Network) (luck : HelperLuck) :
    (n.runHelper luck).accepted = n.accepted := by
  unfold Network.runHelper
  split
  · rfl
  · dsimp only
    split
    · rfl
    · split <;> rfl
    all_goals rfl

theorem arrive_cases (n : Network) (s : Submit) :
    ((n.arrive s).1.accepted = n.accepted ∧ (n.arrive s).2.1 = []) ∨
      (n.arrive s).1.accepted = n.accepted ++ [n.accepted.length] ∧
        (n.arrive s).2.1 = [.systemctl n.accepted.length s.action] := by
  unfold Network.arrive
  split
  · exact .inl ⟨rfl, rfl⟩
  · split
    · exact .inl ⟨rfl, rfl⟩
    · split
      · exact .inl ⟨rfl, rfl⟩
      · split
        · exact .inl ⟨rfl, rfl⟩
        · split
          · exact .inl ⟨rfl, rfl⟩
          · exact .inr ⟨rfl, rfl⟩

theorem budget_step (id : ℕ) (h : Kept p.shared p.threads) :
    (if advances id (stepOf step p e) then 1 else 0) + budget id (step p e).1 ≤ budget id p := by
  cases e with
  | manager x =>
    cases x with
    | arrive s =>
      have hquiet : advances id (stepOf step p (.manager (.arrive s))) = false := rfl
      have hpost : budget id (step p (.manager (.arrive s))).1 =
          if id < (p.shared.arrive s).1.accepted.length then
            (((p.shared.arrive s).2.1 + p.threads : Multiset JobWork).map (JobWork.share id)).sum
          else 5 := rfl
      rw [hquiet, hpost, budget]
      simp only [Bool.false_eq_true, if_false, Nat.zero_add]
      rcases arrive_cases p.shared s with ⟨haccepted, hnew⟩ | ⟨haccepted, hnew⟩
      · rw [haccepted, hnew, Multiset.coe_nil, Multiset.zero_add]
      · rw [haccepted, hnew, List.length_append, List.length_singleton, Multiset.coe_singleton,
          Multiset.map_add, Multiset.sum_add, Multiset.map_singleton, Multiset.sum_singleton]
        rcases Nat.lt_trichotomy id p.shared.accepted.length with hlt | heq | hgt
        · rw [if_pos (by omega), if_pos hlt, JobWork.share, JobWork.job, if_neg (by omega),
            Nat.zero_add]
        · have hnone : (p.threads.map (JobWork.share id)).sum = 0 := by
            refine Multiset.sum_eq_zero fun k hk => ?_
            obtain ⟨w, hw, rfl⟩ := Multiset.mem_map.1 hk
            have hlt := h.known w hw
            exact if_neg (by omega)
          rw [if_pos (by omega), if_neg (by omega), hnone, JobWork.share]
          split <;> simp [JobWork.left]
        · rw [if_neg (by omega), if_neg (by omega)]
    | advance w luck =>
      by_cases hw : w ∈ p.threads
      · obtain ⟨l, hl, hstep⟩ := Program.step_advance (P := Network.program) hw luck
        have hpost : (step p (.manager (.advance w luck))).1 =
            ⟨(p.shared.run w luck).1, (p.shared.run w luck).2.1 + l⟩ := congrArg Prod.fst hstep
        have hmoves : advances id (stepOf step p (.manager (.advance w luck))) =
            decide (w.active = some id) := by
          simp [advances, stepOf, hw]
        have hshare := share_run id p.shared w luck
        rw [hmoves, hpost]
        simp only [budget, accepted_run, decide_eq_true_eq]
        by_cases hid : id < p.shared.accepted.length
        · rw [if_pos hid, if_pos hid, hl, Multiset.map_add, Multiset.sum_add, Multiset.map_cons,
            Multiset.sum_cons]
          omega
        · have hactive : w.active ≠ some id := by
            intro hactive
            obtain ⟨job, hjob, hjobid, -⟩ := Network.mem_busy.1 (h.busy_of_mem hw hactive)
            have hlast := h.last job hjob
            omega
          rw [if_neg hid, if_neg hid, if_neg hactive]
      · have hpost : (step p (.manager (.advance w luck))).1 = p :=
          congrArg Prod.fst (Program.step_absent (P := Network.program) hw luck)
        have hquiet : advances id (stepOf step p (.manager (.advance w luck))) = false := by
          simp [advances, stepOf, hw]
        rw [hpost, hquiet]
        simp
  | helper luck =>
    have hquiet : advances id (stepOf step p (.helper luck)) = false := rfl
    rw [hquiet]
    simp [budget, step, accepted_runHelper]
  | helperDies =>
    have hquiet : advances id (stepOf step p .helperDies) = false := rfl
    have hpost : budget id (step p .helperDies).1 = budget id p := rfl
    rw [hquiet, hpost]
    simp

theorem countP_advances (id : ℕ) : ∀ (es : List Event) (p : Pool Network JobWork),
    Kept p.shared p.threads → (∀ t ∈ trace step p es, InTime t.pre t.event) →
      (trace step p es).countP (advances id) ≤ budget id p
  | [], _, _, _ => Nat.zero_le _
  | e :: es, p, h, hes => by
      have he : InTime p e := hes (stepOf step p e) (by simp)
      have hrest := countP_advances id es _ (kept_step h he) fun t ht => hes t (by simp [ht])
      have hstep := budget_step (e := e) id h
      rw [trace_cons, List.countP_cons]
      omega

/-- In a run in which every party keeps to the time of its job, every step is
orderly, and every job has ended after at most five moves of its thread. -/
theorem changes_orderly (es : List Event)
    (h : ∀ t ∈ trace step ⟨{}, 0⟩ es, InTime t.pre t.event) :
    (∀ t ∈ trace step ⟨{}, 0⟩ es, Orderly t) ∧
      ∀ id, (trace step ⟨{}, 0⟩ es).countP (advances id) ≤ 5 := by
  constructor
  · intro t ht
    have hpre := (trace_invariant_ok (fun p : Pool Network JobWork => Kept p.shared p.threads)
      (fun _ _ hp he => kept_step hp he) es ⟨{}, 0⟩ kept_initial h t ht).1
    rw [eq_stepOf_of_mem_trace ht]
    exact orderly_step hpre (h t ht)
  · intro id
    exact countP_advances id es ⟨{}, 0⟩ kept_initial h

/-! Runs of two changes in turn, of one that is accepted before the thread of
the one before has cleaned up, and of a helper that outlives its job. -/

def helperRun : List Event := List.replicate 5 (.helper {})

def started : List Event :=
  [.manager (.arrive { action := .start }), .manager (.advance (.systemctl 0 .start) {})]

def changeRun : List Event :=
  started ++ helperRun ++
    [.manager (.advance (.wait 0 .start) { result := some ⟨0, ""⟩ }),
      .manager (.advance (.look 0 .start (some ⟨0, ""⟩)) {}),
      .manager (.advance (.startLab 0 .started) {}),
      .manager (.advance (.finish 0 .succeeded .started (some .started)) {}),
      .manager (.advance (.remove 0) {}), .manager (.arrive { action := .stop })]

theorem changes_orderly_run :
    ((∀ t ∈ trace step ⟨{}, 0⟩ changeRun, Orderly t) ∧
      ∀ id, (trace step ⟨{}, 0⟩ changeRun).countP (advances id) ≤ 5) ∧
      (final step ⟨{}, 0⟩ changeRun).shared.ended =
        [⟨0, .start, .succeeded, some .started, some .started⟩] ∧
      (final step ⟨{}, 0⟩ changeRun).shared.unfinished = [1] :=
  ⟨changes_orderly changeRun (by decide), by decide⟩

/-- The first change ends, without the helper; the second one is accepted. -/
def earlyEnd : List Event :=
  [.manager (.arrive { action := .start }),
    .manager (.advance (.systemctl 0 .start) { starts := false }),
    .manager (.advance (.wait 0 .start) {}), .manager (.advance (.look 0 .start none) {}),
    .manager (.advance (.finish 0 .failed .timeout none) {}),
    .manager (.arrive { action := .stop })]

/-- `systemctl` loses the helper before it is done. -/
def lateHelper : List Event :=
  started ++
    [.manager (.advance (.wait 0 .start) {}), .manager (.advance (.look 0 .start none) {}),
      .manager (.advance (.finish 0 .failed .timeout none) {})] ++ helperRun

/-- The thread of the first change removes the request of the second, whose
helper finds none; and a change that the helper has carried out is reported as
failed. -/
theorem changes_collide :
    (final step ⟨{}, 0⟩ earlyEnd).shared.request = some ⟨1, .stop⟩ ∧
      (final step ⟨{}, 0⟩ (earlyEnd ++ [.manager (.advance (.remove 0) {})])).shared.request =
        none ∧
      (final step ⟨{}, 0⟩ (earlyEnd ++ [.manager (.advance (.remove 0) {}),
        .manager (.advance (.systemctl 1 .stop) {})])).shared.helper = some ⟨1, .read⟩ ∧
      (final step ⟨{}, 0⟩ (earlyEnd ++ [.manager (.advance (.remove 0) {}),
        .manager (.advance (.systemctl 1 .stop) {})])).shared.request = none ∧
      (final step ⟨{}, 0⟩ lateHelper).shared.ended =
        [⟨0, .start, .failed, some .timeout, none⟩] ∧
      (final step ⟨{}, 0⟩ lateHelper).shared.finals =
        [⟨some 0, some .start, .succeeded, some .started⟩] := by
  decide

end Questix.RobotManager.WifiAp
