/-
Questix.MotorControl.DdtRefinement — every call of `DdtMotorLib` is a call of
the abstract bus.

The proof runs each member function forwards once (`Act.wp`) and shows that it
extends a walk of moves (`Along`). Facts the library checks before it drives
a motor are carried to the place where the frame leaves; everything that does
not concern the bus model is a quiet move.
-/
import Questix.MotorControl.DdtBus

namespace Questix.MotorControl.DdtBus

open Questix.Lib Questix.Lib.Act DdtMotorLib

variable {past : List BusEffect} {s : DdtMotorLib}

/-! ## The wire -/

theorem wp_answer {α : Type} {next : Port → α × Port} {Q : α → List BusEffect → DdtMotorLib → Prop}
    (h : ∀ a port, Q a past { s with port := port }) : wp (answer next) Q past s := by
  simp only [wp, answer, List.append_nil]
  exact h _ _

theorem wp_writeSerial {Q : ℤ → List BusEffect → DdtMotorLib → Prop}
    (h : ∀ n port, Q n past { s with port := port }) : wp writeSerial Q past s := by
  simp only [writeSerial, wp_bind, wp_get, wp_ite, wp_pure]
  split
  · exact h (-1) s.port
  · exact wp_answer h

theorem wp_drainSerialOutput {Q : Bool → List BusEffect → DdtMotorLib → Prop}
    (h : ∀ ok port, Q ok past { s with port := port }) : wp drainSerialOutput Q past s := by
  simp only [drainSerialOutput, wp_bind, wp_get, wp_ite, wp_pure]
  split
  · exact h false s.port
  · exact wp_answer h

theorem wp_handOver {motorId : Option Int} {frame : List UInt8}
    {Q : Handover → List BusEffect → DdtMotorLib → Prop}
    (h : ∀ handover port,
      Q handover (past ++ [.wrote motorId frame handover s]) { s with port := port }) :
    wp (handOver motorId frame) Q past s := by
  simp only [handOver, wp_bind, wp_get]
  refine wp_writeSerial ?_
  intro written port
  simp only [wp_ite, wp_bind, wp_emit, wp_pure]
  split
  · exact h .incomplete port
  · refine wp_drainSerialOutput ?_
    intro left port
    exact h _ port

theorem known_storeFeedback (motorId : Int) (decoded : DdtProtocol.Feedback) (now : ℚ) :
    known (s.storeFeedback motorId decoded now) = known s := by
  simp only [storeFeedback]
  split <;> rfl

theorem known_countResponse (motorId : Int) (valid : Bool) :
    known (s.countResponse motorId valid) = known s := by
  unfold countResponse
  split <;> rfl

theorem wp_readFeedbackFrame {motorId : Int}
    {Q : Option (List UInt8) → List BusEffect → DdtMotorLib → Prop}
    (h : ∀ frame port, Q frame past { s with port := port }) :
    wp (readFeedbackFrame motorId) Q past s := by
  simp only [readFeedbackFrame, wp_bind, wp_get, wp_ite, wp_pure]
  split
  · exact h none s.port
  · refine wp_answer ?_
    intro reads port
    exact h _ port

theorem wp_parseFeedback {motorId : Int} {frame : List UInt8} {k : Known}
    (hs : known s = k) :
    wp (parseFeedback motorId frame) (fun _ past' s' => past' = past ∧ known s' = k) past s := by
  unfold parseFeedback
  split
  · simp only [wp_bind]
    refine wp_answer ?_
    intro now port
    simp only [wp_modify, wp_pure, known_storeFeedback, true_and]
    exact hs
  · rw [wp_pure]
    exact ⟨rfl, hs⟩

theorem wp_awaitResponse {motorId : Int} {start : ℚ} {k : Known} (hs : known s = k) :
    wp (awaitResponse motorId start) (fun _ past' s' => past' = past ∧ known s' = k) past s := by
  simp only [awaitResponse, wp_bind, wp_modify]
  refine wp_readFeedbackFrame ?_
  rintro (_ | frame) port
  · simp only [wp_bind, wp_modify, known_countResponse]
    exact ⟨trivial, hs⟩
  · simp only [wp_bind]
    refine wp_mono (wp_parseFeedback hs) ?_
    rintro parsed _ s' ⟨rfl, hs'⟩
    refine wp_answer ?_
    intro now port
    simp only [wp_modify, known_countResponse, true_and]
    cases parsed <;> exact hs'

theorem wp_sendAttempts {P : DdtMotorLib → Prop} {motorId : Int} {frame : List UInt8} {k : Known}
    (hP : ∀ port, P { s with port := port }) (hs : known s = k) :
    ∀ (n : ℕ) (past : List BusEffect) (port : Port),
      wp (sendAttempts motorId frame n)
        (fun ok past' s' => (∃ out, past' = past ++ out ∧ Tries P motorId frame ok out) ∧
          known s' = k) past { s with port := port } := by
  intro n
  induction n with
  | zero =>
    intro past port
    rw [sendAttempts, wp_pure]
    exact ⟨⟨[], by simp, .gaveUp⟩, hs⟩
  | succ n ih =>
    intro past port
    simp only [sendAttempts, wp_bind]
    refine wp_answer ?_
    intro start port
    refine wp_handOver ?_
    intro handover port'
    cases handover with
    | incomplete =>
      refine wp_mono (ih _ port') ?_
      rintro ok _ s' ⟨⟨out, rfl, htries⟩, hs'⟩
      exact ⟨⟨_, by simp, .again (hP port) htries⟩, hs'⟩
    | undrained =>
      simp only [wp_pure]
      exact ⟨⟨_, rfl, .cut (hP port)⟩, hs⟩
    | drained =>
      simp only [wp_bind, wp_pure]
      refine wp_mono (wp_awaitResponse hs) ?_
      rintro _ _ s' ⟨rfl, hs'⟩
      exact ⟨⟨_, rfl, .sent (hP port)⟩, hs'⟩

theorem wp_sendFrameWithFeedback {P : DdtMotorLib → Prop} {motorId : Int} {frame : List UInt8}
    (k : Known) (hP : ∀ port, P { s with port := port }) (hs : known s = k) :
    wp (sendFrameWithFeedback motorId frame)
      (fun ok past' s' => (∃ out, past' = past ++ out ∧ Tries P motorId frame ok out) ∧
        known s' = k) past s := by
  simp only [sendFrameWithFeedback, wp_bind, wp_get, wp_ite, wp_pure]
  split
  · exact ⟨⟨[], by simp, .gaveUp⟩, hs⟩
  · exact wp_sendAttempts hP hs 3 past s.port

/-! ## Commands -/

/-- What was let out since `b₀` is a walk to what the state comes to. -/
def Along (b₀ : Bus) (phase : Phase) (past : List BusEffect) (s : DdtMotorLib) : Prop :=
  Walk Move b₀ past ⟨known s, phase⟩

variable {b₀ : Bus} {phase : Phase} {motorId : Int} {frame : List UInt8}

theorem Along.of_known {s' : DdtMotorLib} (h : Along b₀ phase past s) (hs : known s' = known s) :
    Along b₀ phase past s' := by
  rw [Along, hs]
  exact h

theorem wp_sendZeroFrame (inCall : phase ≠ .failed)
    (isZero : DdtProtocol.isZeroCommandFrame frame = true) (h : Along b₀ phase past s) :
    wp (sendFrameWithFeedback motorId frame)
      (fun ok past' s' =>
        Walk Move b₀ past' ⟨if ok then (known s).sent motorId frame else known s, phase⟩ ∧
          known s' = known s) past s := by
  have hP : ∀ port, known { s with port := port } = known s := fun _ => rfl
  refine wp_mono (wp_sendFrameWithFeedback (P := fun lib => known lib = known s) _ hP rfl) ?_
  rintro ok _ s' ⟨⟨out, rfl, htries⟩, hs'⟩
  exact ⟨h.tail (.zero inCall isZero htries), hs'⟩

theorem along_sendZeroRaw (inCall : phase ≠ .failed) :
    Triple (Along b₀ phase) (sendMotorCurrentRaw motorId 0) fun _ => Along b₀ phase := by
  intro past s h
  simp only [sendMotorCurrentRaw, wp_bind, wp_modify, wp_pure]
  have hzero : DdtProtocol.isZeroCommandFrame (DdtProtocol.packCurrentFrame (wireId motorId) 0) =
      true := DdtProtocol.isZeroCommandFrame_current.2 rfl
  refine wp_mono (wp_sendZeroFrame inCall hzero h) ?_
  rintro (_ | _) past' s' ⟨hwalk, hs'⟩
  · rw [← hs'] at hwalk
    exact hwalk
  · rw [← hs'] at hwalk
    show Walk Move b₀ past' ⟨known (s'.setLastSent motorId _), phase⟩
    rw [known_setLastSent]
    exact hwalk

theorem clampRpm_zero (s : DdtMotorLib) : s.clampRpm 0 = 0 := by
  unfold clampRpm DdtCurrentPi.clamp
  split_ifs <;> omega

theorem along_sendZeroVelocity (inCall : phase ≠ .failed) (brake : Bool) :
    Triple (Along b₀ phase) (sendMotorVelocity motorId 0 brake) fun _ => Along b₀ phase := by
  intro past s h
  simp only [sendMotorVelocity, wp_bind, wp_get, wp_modify, wp_pure, clampRpm_zero]
  have hzero : DdtProtocol.isZeroCommandFrame (s.velocityFrame motorId 0 brake) = true :=
    DdtProtocol.isZeroCommandFrame_velocity.2 rfl
  refine wp_mono (wp_sendZeroFrame inCall hzero h) ?_
  rintro (_ | _) past' s' ⟨hwalk, hs'⟩
  · rw [← hs'] at hwalk
    exact hwalk
  · rw [← hs'] at hwalk
    show Walk Move b₀ past' ⟨known ((s'.setVelocityEntry motorId 0).setLastSent motorId _), phase⟩
    rw [known_setLastSent]
    exact hwalk

theorem wp_sendDrive (hdrives : ∀ port, Drives { s with port := port } motorId frame)
    (h : Along b₀ .ready past s) :
    wp (sendFrameWithFeedback motorId frame)
      (fun ok past' s' =>
        Walk Move b₀ past' (if ok then ⟨(known s).sent motorId frame, .ready⟩ else ⟨known s, .failed⟩) ∧
          known s' = known s) past s := by
  have hP : ∀ port, known { s with port := port } = known s ∧
      Drives { s with port := port } motorId frame := fun port => ⟨rfl, hdrives port⟩
  refine wp_mono (wp_sendFrameWithFeedback
    (P := fun lib => known lib = known s ∧ Drives lib motorId frame) _ hP rfl) ?_
  rintro ok _ s' ⟨⟨out, rfl, htries⟩, hs'⟩
  exact ⟨h.tail (.drive (hdrives s.port).isCommandFrame htries), hs'⟩

def Went (ok : Bool) : Phase := if ok then .ready else .failed

theorem wp_sendMotorVelocity (rpm : ℤ) (brake : Bool)
    (mode : s.motorModes[motorId]? = some .velocity) (h : Along b₀ .ready past s) :
    wp (sendMotorVelocity motorId rpm brake) (fun ok => Along b₀ (Went ok)) past s := by
  simp only [sendMotorVelocity, wp_bind, wp_get, wp_modify, wp_pure]
  refine wp_mono (wp_sendDrive (fun _ => .velocity _ brake mode) h) ?_
  rintro (_ | _) past' s' ⟨hwalk, hs'⟩
  · rw [← hs'] at hwalk
    exact hwalk
  · rw [← hs'] at hwalk
    show Walk Move b₀ past' ⟨known ((s'.setVelocityEntry motorId _).setLastSent motorId _), .ready⟩
    rw [known_setLastSent]
    exact hwalk

theorem wp_sendMotorCurrentRaw (raw : Int16) (permits : Permits s motorId)
    (bound : |raw.toInt| ≤ (DdtCurrentPi.ampToRaw s.maxCurrentAmp.val).toInt)
    (h : Along b₀ .ready past s) :
    wp (sendMotorCurrentRaw motorId raw)
      (fun ok past' s' => Along b₀ (Went ok) past' s' ∧ (known s').mode = (known s).mode) past s := by
  simp only [sendMotorCurrentRaw, wp_bind, wp_modify, wp_pure]
  refine wp_mono (wp_sendDrive (fun _ => .current raw ⟨permits.mode, permits.no_trip, permits.feedback⟩ bound) h) ?_
  rintro ok past' s' ⟨hwalk, hs'⟩
  have hmode : (known s').mode = (known s).mode := congrArg Known.mode hs'
  rw [← hs'] at hwalk
  cases ok
  · exact ⟨hwalk, hmode⟩
  · refine ⟨?_, hmode⟩
    show Walk Move b₀ past' ⟨known (s'.setLastSent motorId _), .ready⟩
    rw [known_setLastSent]
    exact hwalk

/-! ## The current controller -/

theorem along_sendZeroCurrent (inCall : phase ≠ .failed) :
    Triple (Along b₀ phase) (sendZeroCurrent motorId) fun _ => Along b₀ phase := by
  intro past s h
  simp only [sendZeroCurrent, wp_bind, wp_modify]
  exact along_sendZeroRaw inCall past _ h

theorem wp_tripCurrentGuard (trip : GuardTrip) (mode : (known s).mode motorId = some .current)
    (h : Along b₀ .ready past s) :
    wp (tripCurrentGuard motorId trip) (fun _ => Along b₀ .ready) past s := by
  simp only [tripCurrentGuard, wp_bind, wp_modify, wp_emit]
  refine along_sendZeroCurrent (by decide) _ _ ?_
  have htrip := h.tail (.trip trip mode)
  rw [← known_setGuardTrip s motorId trip] at htrip
  exact htrip

theorem known_clearTrips (s : DdtMotorLib) :
    known { s with currentGuardTrips := ∅ } = { known s with tripped := fun _ => false } := by
  ext1
  · rfl
  · funext id
    simp [known]
  · rfl

theorem along_clearCurrentGuardTrips :
    Triple (Along b₀ .ready) clearCurrentGuardTrips fun _ => Along b₀ .ready := by
  intro past s h
  simp only [clearCurrentGuardTrips, wp_bind, wp_get, wp_ite, wp_emit, wp_modify, wp_pure]
  split
  · have hclear := h.tail (.clear (known s))
    rw [← known_clearTrips] at hclear
    exact hclear
  · exact h

/-- What the controller changes of the state before a current leaves. -/
def Prepared (s s' : DdtMotorLib) : Prop :=
  ∃ port piStates stats,
    s' = { s with port := port, piStates := piStates, transactionStats := stats }

theorem wp_limitReference {rpmRefRaw : ℤ} {fb : MotorFeedback} :
    wp (limitReference motorId rpmRefRaw fb) (fun _ past' s' => past' = past ∧ Prepared s s')
      past s := by
  simp only [limitReference, wp_bind, wp_get, wp_ite, wp_pure]
  split
  · refine wp_answer ?_
    intro now port
    simp only [wp_modify]
    exact ⟨trivial, port, _, _, rfl⟩
  · exact ⟨trivial, _, _, _, rfl⟩

theorem wp_runCurrentLoopStep {rpmRef : ℤ} :
    wp (runCurrentLoopStep motorId rpmRef)
      (fun stepped past' s' => past' = past ∧ Prepared s s' ∧
        |stepped.raw.toInt| ≤ (DdtCurrentPi.ampToRaw s'.maxCurrentAmp.val).toInt) past s := by
  simp only [runCurrentLoopStep, wp_bind]
  refine wp_answer ?_
  intro now port
  simp only [wp_get, wp_modify, wp_pure]
  exact ⟨trivial, ⟨port, _, _, rfl⟩,
    DdtCurrentPi.abs_stepToRaw_le _ s.maxCurrentAmp.property _ _ _⟩

theorem Permits.prepared {s' : DdtMotorLib} (h : Permits s motorId) (hs : Prepared s s') :
    Permits s' motorId := by
  obtain ⟨port, piStates, stats, rfl⟩ := hs
  exact ⟨h.mode, h.no_trip, h.feedback⟩

theorem Prepared.known {s' : DdtMotorLib} (hs : Prepared s s') : known s' = known s := by
  obtain ⟨port, piStates, stats, rfl⟩ := hs
  rfl

theorem wp_judgeResponse {rpmRef measuredPrev : ℤ} {appliedAmp iCmdAmp : ℚ} {before : ℕ}
    (mode : (known s).mode motorId = some .current) (h : Along b₀ .ready past s) :
    wp (judgeResponse motorId rpmRef measuredPrev appliedAmp iCmdAmp before)
      (fun _ => Along b₀ .ready) past s := by
  simp only [judgeResponse, wp_bind, wp_get, wp_ite, wp_pure]
  split
  · exact h
  · split
    · exact wp_tripCurrentGuard .kModeMismatch mode h
    · refine wp_answer ?_
      intro now port
      simp only [wp_modify]
      split
      · exact h
      · exact wp_tripCurrentGuard _ mode h

/-- The controller as a whole: a call ends where its current cannot be sent. -/
theorem wp_runCurrentMode {rpmRefRaw : ℤ} {fb : MotorFeedback} (permits : Permits s motorId)
    (mode : (known s).mode motorId = some .current) (h : Along b₀ .ready past s) :
    wp (runCurrentMode motorId rpmRefRaw fb) (fun _ past' s' => ∃ ok, Along b₀ (Went ok) past' s')
      past s := by
  simp only [runCurrentMode, wp_bind]
  refine wp_mono wp_limitReference ?_
  rintro rpmRef past₁ s₁ ⟨hpast, hs₁⟩
  subst hpast
  have h₁ : Along b₀ .ready past₁ s₁ := h.of_known hs₁.known
  simp only [wp_get, wp_ite, wp_bind, wp_modify]
  split
  · refine wp_mono (along_sendZeroRaw (by decide) _ _ h₁) ?_
    intro _ past' s' h'
    exact ⟨true, h'⟩
  · refine wp_mono wp_runCurrentLoopStep ?_
    rintro stepped past₂ s₂ ⟨hpast, hs₂, bound⟩
    subst hpast
    have hknown : known s₂ = known s := hs₂.known.trans hs₁.known
    have h₂ : Along b₀ .ready past₂ s₂ := h.of_known hknown
    have permits₂ : Permits s₂ motorId := (permits.prepared hs₁).prepared hs₂
    refine wp_mono (wp_sendMotorCurrentRaw stepped.raw permits₂ bound h₂) ?_
    rintro (_ | _) past' s₃ ⟨h₃, hmode⟩
    · simp only [Bool.not_false, ↓reduceIte, wp_pure]
      exact ⟨false, h₃⟩
    · simp only [Bool.not_true, Bool.false_eq_true, ↓reduceIte]
      have mode₃ : (known s₃).mode motorId = some .current := by rw [hmode, hknown, mode]
      refine wp_mono (wp_judgeResponse mode₃ h₃) ?_
      intro _ past' s' h'
      exact ⟨true, h'⟩

theorem usableFeedback_spec {fb : MotorFeedback} (h : s.usableFeedback motorId = some fb) :
    s.motorFeedbacks[motorId]? = some fb ∧ fb.hasFeedback = true ∧
      fb.consecutiveTimeouts < kCurrentMaxConsecutiveTimeouts := by
  simpa [usableFeedback, Option.filter_eq_some_iff] using h

theorem wp_commandCurrentMode {rpmRefRaw : ℤ} (mode : (known s).mode motorId = some .current)
    (h : Along b₀ .ready past s) :
    wp (commandCurrentMode motorId rpmRefRaw) (fun _ past' s' => ∃ ok, Along b₀ (Went ok) past' s')
      past s := by
  have zero : wp (sendZeroCurrent motorId) (fun _ past' s' => ∃ ok, Along b₀ (Went ok) past' s')
      past s := by
    refine wp_mono (along_sendZeroCurrent (by decide) _ _ h) ?_
    intro _ past' s' h'
    exact ⟨true, h'⟩
  simp only [commandCurrentMode, wp_bind, wp_get, wp_ite]
  split
  · exact zero
  · rename_i hnotrip
    have no_trip : s.currentGuardTrips[motorId]? = none := by
      exact Std.TreeMap.getElem?_eq_none_of_contains_eq_false (Bool.eq_false_iff.2 hnotrip)
    split
    · exact zero
    · rename_i fb hfb
      obtain ⟨hget, hhas, htimeouts⟩ := usableFeedback_spec hfb
      rw [wp_ite]
      split
      · refine wp_mono (wp_tripCurrentGuard .kModeMismatch mode h) ?_
        intro _ past' s' h'
        exact ⟨true, h'⟩
      · rename_i hreported
        exact wp_runCurrentMode ⟨mode, no_trip, fb, hget, hhas, htimeouts, not_not.1 hreported⟩ mode h

/-! ## Setting up a motor -/

theorem along_sendCommandRetry (noCommand : DdtProtocol.isCommandFrame frame = false) (n : ℕ) :
    Triple (Along b₀ phase) (sendCommandRetry frame n) fun _ => Along b₀ phase := by
  induction n with
  | zero =>
    intro past s h
    rw [sendCommandRetry, wp_pure]
    exact h
  | succ n ih =>
    intro past s h
    simp only [sendCommandRetry, wp_bind]
    refine wp_handOver ?_
    intro handover port
    have hset : Along b₀ phase (past ++ [.wrote none frame handover s]) { s with port := port } :=
      h.tail (.setting _ frame handover s noCommand)
    cases handover with
    | incomplete => exact ih _ _ hset
    | undrained =>
      rw [wp_pure]
      exact hset
    | drained =>
      rw [wp_pure]
      exact hset

theorem along_prime (inCall : phase ≠ .failed) (mode : ControlMode) :
    Triple (Along b₀ phase) (prime motorId mode) fun _ => Along b₀ phase := by
  intro past s h
  unfold prime
  split
  · exact along_sendZeroRaw inCall past s h
  · simp only [wp_bind, wp_get]
    exact along_sendZeroVelocity inCall _ past s h

theorem along_retryLegacyMode (inCall : phase ≠ .failed) (mode : ControlMode) (primed : Bool) :
    Triple (Along b₀ phase) (retryLegacyMode motorId mode primed) fun _ => Along b₀ phase := by
  intro past s h
  simp only [retryLegacyMode, wp_bind, wp_get, wp_ite, wp_pure]
  split
  · refine wp_mono (along_sendCommandRetry DdtProtocol.isCommandFrame_modeLegacy 3 past s h) ?_
    rintro (_ | _) past' s' h'
    · exact h'
    · simp only [↓reduceIte, wp_modify]
      exact along_prime inCall mode past' _ h'
  · exact h

theorem wp_initializeMotor (mode : ControlMode) (start : b₀.phase = .ready)
    (h : Along b₀ .ready past s) :
    wp (initializeMotor motorId mode)
      (fun ok past' s' => Along b₀ .ready past' s' ∧
        (ok = true → (known s').mode motorId = some mode)) past s := by
  simp only [initializeMotor, setControlMode, sendCommand, wp_bind]
  refine wp_mono (along_sendCommandRetry DdtProtocol.isCommandFrame_mode 3 past s h) ?_
  rintro (_ | _) past₁ s₁ h₁
  · simp only [Bool.not_false, ↓reduceIte, wp_pure]
    exact ⟨h₁, nofun⟩
  · simp only [Bool.not_true, Bool.false_eq_true, ↓reduceIte, wp_bind, wp_modify]
    have hbegin : Along b₀ (.settingUp motorId mode) past₁ (s₁.register motorId mode) := by
      have hwalk := h₁.tail_nil (.begin (known s₁) motorId mode)
      rw [← known_register] at hwalk
      exact hwalk
    refine wp_mono (along_prime (by simp) mode _ _ hbegin) ?_
    intro primed past₂ s₂ h₂
    refine wp_mono (along_retryLegacyMode (by simp) mode primed _ _ h₂) ?_
    intro _ past₃ s₃ h₃
    simp only [wp_get, wp_ite, wp_bind, wp_modify, wp_emit, wp_pure]
    split
    · have hwalk := h₃.tail_nil (.abandon (known s₃) motorId mode)
      rw [← known_forgetMode] at hwalk
      exact ⟨hwalk, nofun⟩
    · exact ⟨h₃.tail (.initialized (known s₃) motorId mode), fun _ => mode_of_settingUp h₃ start rfl⟩

theorem wp_ensureMode (start : b₀.phase = .ready) (h : Along b₀ .ready past s) :
    wp (ensureMode motorId)
      (fun ok past' s' => Along b₀ .ready past' s' ∧
        (ok = true → ((known s').mode motorId).isSome = true)) past s := by
  simp only [ensureMode, wp_bind, wp_get, wp_ite, wp_pure]
  split
  · rename_i hcontains
    refine ⟨h, fun _ => ?_⟩
    show (s.motorModes[motorId]?).isSome = true
    rw [← Std.TreeMap.contains_eq_isSome_getElem?]
    exact hcontains
  · refine wp_mono (wp_initializeMotor .velocity start h) ?_
    intro ok past' s' ⟨h', hmode⟩
    exact ⟨h', fun hok => by rw [hmode hok]; rfl⟩

/-! ## Calls -/

theorem wp_setMotorVelocity {velocityRpm : ℤ} (start : b₀.phase = .ready)
    (h : Along b₀ .ready past s) :
    wp (setMotorVelocity motorId velocityRpm)
      (fun _ past' s' => ∃ ok, Along b₀ (Went ok) past' s') past s := by
  simp only [setMotorVelocity, wp_bind, wp_get, wp_ite, wp_pure]
  split
  · exact ⟨true, h⟩
  · refine wp_mono (wp_ensureMode start h) ?_
    rintro (_ | _) past₁ s₁ ⟨h₁, hmode⟩
    · exact ⟨true, h₁⟩
    · simp only [Bool.not_true, Bool.false_eq_true, ↓reduceIte, wp_modify]
      have h₁' : Along b₀ .ready past₁ (s₁.setVelocityEntry motorId (s₁.clampRpm velocityRpm)) := h₁
      split
      · rename_i hcurrent
        exact wp_commandCurrentMode (of_decide_eq_true hcurrent) h₁'
      · rename_i hcurrent
        have hvelocity : s₁.motorModes[motorId]? = some .velocity := by
          obtain ⟨mode, hget⟩ := Option.isSome_iff_exists.1 (hmode rfl)
          have hne : mode ≠ .current := by
            rintro rfl
            exact hcurrent (decide_eq_true hget)
          cases mode with
          | velocity => exact hget
          | current => exact absurd rfl hne
        refine wp_mono (wp_sendMotorVelocity _ false hvelocity h₁') ?_
        intro ok past' s' h'
        exact ⟨ok, h'⟩

theorem along_sendStop : Triple (Along b₀ .ready) (sendStop motorId) fun _ => Along b₀ .ready := by
  intro past s h
  simp only [sendStop, wp_bind, wp_get]
  refine wp_mono (along_sendZeroVelocity (by decide) _ past s h) ?_
  rintro (_ | _) past' s' h'
  · simp only [Bool.false_eq_true, ↓reduceIte, wp_pure]
    exact h'
  · simp only [↓reduceIte, wp_bind]
    refine wp_answer ?_
    intro now port
    simp only [wp_modify, wp_pure]
    exact h'

theorem wp_stopThrottled :
    wp (stopThrottled motorId) (fun _ past' s' => past' = past ∧ known s' = known s) past s := by
  simp only [stopThrottled, wp_bind, wp_get, wp_ite, wp_pure]
  split
  · refine wp_answer ?_
    intro now port
    exact ⟨rfl, rfl⟩
  · exact ⟨trivial, trivial⟩

theorem along_stopMotor :
    Triple (Along b₀ .ready) (stopMotor motorId) fun _ => Along b₀ .ready := by
  intro past s h
  simp only [stopMotor, wp_bind, wp_get, wp_ite, wp_modify, wp_pure]
  split
  · exact along_sendZeroCurrent (by decide) _ _ h
  · refine wp_mono wp_stopThrottled ?_
    rintro throttled past' s' ⟨hpast, hs'⟩
    subst hpast
    have h' : Along b₀ .ready past' s' := h.of_known hs'
    cases throttled
    · exact along_sendStop past' s' h'
    · exact h'

theorem along_stopMotorNow :
    Triple (Along b₀ .ready) (stopMotorNow motorId) fun _ => Along b₀ .ready := by
  intro past s h
  simp only [stopMotorNow, wp_bind, wp_get, wp_ite, wp_modify, wp_pure]
  split
  · exact h
  · split
    · exact along_sendZeroCurrent (by decide) _ _ h
    · exact along_sendStop past _ h

theorem along_stopInEmergency :
    Triple (Along b₀ .ready) (stopInEmergency motorId) fun _ => Along b₀ .ready := by
  intro past s h
  simp only [stopInEmergency, wp_bind, wp_get, wp_ite]
  split
  · exact along_sendZeroCurrent (by decide) past s h
  · exact along_sendZeroVelocity (by decide) _ past s h

theorem along_emergencyStop :
    Triple (Along b₀ .ready) emergencyStop fun _ => Along b₀ .ready := by
  intro past s h
  simp only [emergencyStop, wp_bind, wp_get, wp_pure]
  exact wp_each (fun _ => along_stopInEmergency) _ past s h

theorem wp_feedbackFresh {maxAgeSec : ℚ} :
    wp (feedbackFresh motorId maxAgeSec) (fun _ past' s' => past' = past ∧ known s' = known s)
      past s := by
  simp only [feedbackFresh, wp_bind, wp_get]
  split
  · rw [wp_pure]
    exact ⟨rfl, rfl⟩
  · simp only [wp_bind, wp_pure]
    refine wp_answer ?_
    intro now port
    exact ⟨rfl, rfl⟩

theorem decideIdleRefresh_kResendZero {feedbackFresh hasCachedFrame cachedIsZero throttled : Bool}
    (h : DdtProtocol.decideIdleRefresh feedbackFresh hasCachedFrame cachedIsZero throttled =
      .kResendZero) : cachedIsZero = true := by
  cases cachedIsZero with
  | false => simp [DdtProtocol.decideIdleRefresh] at h
  | true => rfl

theorem sent_self {k : Known} (h : k.evidence motorId = some frame) : k.sent motorId frame = k := by
  ext1
  · rfl
  · rfl
  · exact Function.update_eq_self_iff.2 h.symm

theorem along_refreshMotorFeedback {maxAgeSec : ℚ} :
    Triple (Along b₀ .ready) (refreshMotorFeedback motorId maxAgeSec) fun _ => Along b₀ .ready := by
  intro past s h
  simp only [refreshMotorFeedback, wp_bind, wp_get, wp_ite, wp_pure]
  split
  · exact h
  refine wp_mono wp_feedbackFresh ?_
  rintro fresh past₁ s₁ ⟨hpast, hs₁⟩
  subst hpast
  have h₁ : Along b₀ .ready past₁ s₁ := h.of_known hs₁
  split
  · exact h₁
  refine wp_mono wp_stopThrottled ?_
  rintro throttled past₂ s₂ ⟨hpast, hs₂⟩
  subst hpast
  have h₂ : Along b₀ .ready past₂ s₂ := h₁.of_known hs₂
  split
  · rw [wp_pure]
    exact h₂
  rename_i frame hframe
  have hself : (known s₂).sent motorId frame = known s₂ := by
    rw [hs₂]
    exact sent_self hframe
  split
  · rw [wp_pure]
    exact h₂
  · rename_i hresend
    simp only [wp_bind, wp_modify]
    refine wp_mono (wp_sendZeroFrame (by decide) (decideIdleRefresh_kResendZero hresend) h₂) ?_
    rintro ok past₃ s₃ ⟨hwalk, hs₃⟩
    rw [hself, ite_self, ← hs₃] at hwalk
    refine wp_answer ?_
    intro now port
    refine wp_mono wp_feedbackFresh ?_
    rintro _ past₄ s₄ ⟨hpast, hs₄⟩
    subst hpast
    exact Along.of_known (s := s₃) hwalk hs₄

theorem along_initializeLibrary :
    Triple (Along b₀ .ready) initializeLibrary fun _ => Along b₀ .ready := by
  intro past s h
  simp only [initializeLibrary, wp_bind, wp_get, wp_ite, wp_pure]
  split
  · exact h
  · refine wp_answer ?_
    intro opened port
    simp only [wp_modify]
    split <;> exact h

theorem known_closed (s : DdtMotorLib) :
    known s.closed = ⟨fun _ => none, fun _ => false, fun _ => none⟩ := by
  ext1 <;> funext id <;> simp [known, closed]

theorem along_shutdown : Triple (Along b₀ .ready) shutdown fun _ => Along b₀ .ready := by
  intro past s h
  simp only [shutdown, wp_bind, wp_get, wp_ite, wp_modify, wp_pure]
  split
  · refine wp_mono (along_emergencyStop past s h) ?_
    intro _ past' s' h'
    have hclose := h'.tail_nil (.close (known s'))
    rw [← known_closed s'] at hclose
    exact hclose
  · exact h

theorem along_modify {g : DdtMotorLib → DdtMotorLib} (hg : ∀ s, known (g s) = known s) :
    Triple (Along b₀ .ready) (modify g) fun _ => Along b₀ .ready := by
  intro past s h
  rw [wp_modify]
  exact h.of_known (hg s)

theorem along_modify_clear {g : DdtMotorLib → DdtMotorLib} (hg : ∀ s, known (g s) = known s) :
    Triple (Along b₀ .ready) (do modify g; clearCurrentGuardTrips) fun _ => Along b₀ .ready := by
  intro past s h
  simp only [wp_bind, wp_modify]
  exact along_clearCurrentGuardTrips past (g s) (h.of_known (hg s))

/-- Every call ends after moves, with no motor left being set up. -/
theorem wp_run (op : Op) (start : b₀.phase = .ready) (h : Along b₀ .ready past s) :
    wp op.run (fun _ past' s' => ∃ ok, Along b₀ (Went ok) past' s') past s := by
  have done : ∀ {call : Ddt Unit}, Triple (Along b₀ .ready) call (fun _ => Along b₀ .ready) →
      wp call (fun _ past' s' => ∃ ok, Along b₀ (Went ok) past' s') past s := by
    intro call hcall
    refine wp_mono (hcall past s h) ?_
    intro _ past' s' h'
    exact ⟨true, h'⟩
  have ignored : ∀ {α : Type} {call : Ddt α},
      Triple (Along b₀ .ready) call (fun _ => Along b₀ .ready) →
      wp (ignore call) (fun _ past' s' => ∃ ok, Along b₀ (Went ok) past' s') past s := by
    intro α call hcall
    simp only [ignore, wp_bind, wp_pure]
    refine wp_mono (hcall past s h) ?_
    intro _ past' s' h'
    exact ⟨true, h'⟩
  cases op with
  | initializeLibrary => exact ignored along_initializeLibrary
  | shutdown => exact done along_shutdown
  | emergencyStop => exact done along_emergencyStop
  | initializeMotor motorId mode =>
    refine ignored ?_
    intro past s h
    exact wp_mono (wp_initializeMotor mode start h) fun _ _ _ h' => h'.1
  | setControlMode motorId mode =>
    exact ignored (along_sendCommandRetry DdtProtocol.isCommandFrame_mode 3)
  | setMotorVelocity motorId velocityRpm =>
    simp only [Op.run, ignore, wp_bind, wp_pure]
    exact wp_setMotorVelocity start h
  | stopMotor => exact ignored along_stopMotor
  | stopMotorNow => exact ignored along_stopMotorNow
  | stopAllMotors =>
    refine ignored ?_
    intro past s h
    simp only [stopAllMotors, wp_bind, wp_get]
    exact wp_each (fun _ => along_stopMotor) _ past s h
  | refreshMotorFeedback => exact ignored along_refreshMotorFeedback
  | setMaxRpm => exact done (along_modify fun _ => rfl)
  | setCurrentControlParams => exact done (along_modify_clear fun _ => rfl)
  | setCurrentFeedforward => exact done (along_modify_clear fun _ => rfl)
  | setCurrentGuardParams => exact done (along_modify_clear fun _ => rfl)
  | setCurrentZeroDeadbandRpm => exact done (along_modify fun _ => rfl)
  | setCurrentInvertMeasured => exact done (along_modify_clear fun _ => rfl)
  | setCurrentMaxAccelRpmPerSec => exact done (along_modify fun _ => rfl)
  | setBrakeOnStop => exact done (along_modify fun _ => rfl)
  | setAccelTime => exact done (along_modify fun _ => rfl)
  | setStopResendIntervalMs => exact done (along_modify fun _ => rfl)
  | setMeasuredLowpassTau => exact done (along_modify fun _ => rfl)

theorem refines (s : DdtMotorLib) (op : Op) :
    ∃ ok, Walk Move ⟨known s, .ready⟩ (step s op).2 ⟨known (step s op).1, Went ok⟩ := by
  have hstart : Along ⟨known s, .ready⟩ .ready [] s := Walk.refl _
  obtain ⟨ok, h⟩ := wp_run op rfl hstart
  exact ⟨ok, h⟩

end Questix.MotorControl.DdtBus
