/-
Questix.MotorControl.DriveRearmTheorems — after a closed gate, unhealthy motors
or a timeout, the drive waits for a neutral command.

The latch is `needsNeutral`: whatever refuses a command sets it, and only an
accepted neutral command clears it. It has a hole. A twist that sees a closed
gate or unhealthy motors sets the latch but keeps the stored target, and a
control tick looks at the target and not at the latch; when the gate opens
again before the next tick, the tick drives the old target (`revives`).
`rearm_latched` is about the runs in which that does not happen, and
`reopenedGate_drives` is one in which it does.
-/
import Questix.MotorControl.DriveStopTheorems

namespace Questix.MotorControl

open Questix.Lib Questix.Safety
open Questix.CommandArbiter (Twist)

/-! ## The latch -/

/-- A callback found a reason not to move: a closed gate, unhealthy motors, or
a command timeout. -/
def Refuses (out : List Effect) : Prop :=
  (∃ block, block ≠ .kNone ∧ .gate block ∈ out) ∨ .health false ∈ out ∨
    .verdict .kTimeout ∈ out ∨ .action .kTimeoutStop ∈ out

namespace Arming

variable {a a' : Arming} {out : List Effect}

theorem Gate.keeps {block : Block} (h : Gate a block out a') (hn : a.rearm.needsNeutral = true) :
    a'.rearm.needsNeutral = true := by
  cases h with
  | opened => exact hn
  | disarmed => exact hn
  | stop => rfl

theorem Retry.keeps (h : Retry a out a') : a'.rearm = a.rearm := by
  cases h <;> rfl

theorem Act.keeps {block : Block} {now : ℚ} (h : Act a block now out a')
    (hn : a.rearm.needsNeutral = true) : a'.rearm.needsNeutral = true := by
  cases h with
  | owed => rfl
  | idle healthy =>
    cases healthy with
    | true => exact hn
    | false => rfl
  | stop => rfl
  | drive => exact hn

theorem Consistent.needsNeutral (h : a.Consistent) (hnone : a.hasTarget = false) :
    a.rearm.needsNeutral = true := by
  by_contra hn
  simp only [Bool.not_eq_true] at hn
  rw [h.armed hn] at hnone
  cases hnone

theorem Gate.needsNeutral {block : Block} (h : Gate a block out a') (ha : a.Consistent)
    (hclosed : block ≠ .kNone) : a'.rearm.needsNeutral = true :=
  (h.consistent ha).needsNeutral (h.spec.2.2 hclosed)

theorem Gate.refuses {block : Block} (h : Gate a block out a') (hr : Refuses out) :
    block ≠ .kNone := by
  rintro rfl
  cases h with
  | opened => simp [Refuses] at hr
  | disarmed _ hclosed => exact hclosed rfl
  | stop _ _ hclosed => exact hclosed rfl

theorem Act.needsNeutral {block : Block} {now : ℚ} (h : Act a block now out a')
    (hr : .health false ∈ out ∨ .action .kTimeoutStop ∈ out) : a'.rearm.needsNeutral = true := by
  cases h with
  | owed => rfl
  | idle healthy _ _ _ hpolled =>
    cases healthy with
    | true => rcases hpolled with rfl | rfl <;> simp at hr
    | false => rfl
  | stop => rfl
  | drive _ _ _ _ _ hsends => cases hsends <;> simp at hr

theorem Act.no_verdict {block : Block} {now : ℚ} (h : Act a block now out a') (d : Decision) :
    .verdict d ∉ out := by
  cases h with
  | owed => simp
  | idle _ _ _ _ hpolled => rcases hpolled with rfl | rfl <;> simp
  | stop => simp
  | drive _ _ _ _ _ hsends => cases hsends <;> simp

theorem Step.needsNeutral {M : Type} {e : DriveEvent M} (h : Step a e out a')
    (ha : a.Consistent) (hr : Refuses out) : a'.rearm.needsNeutral = true := by
  cases h with
  | twist h =>
    cases h with
    | inactive => simp [Refuses] at hr
    | closed => rfl
    | owed => simp [Refuses] at hr
    | inhibited => rfl
    | late => rfl
    | refused d _ _ hd => simp [Refuses, hd.symm] at hr
    | neutral => simp [Refuses] at hr
    | accept => simp [Refuses] at hr
  | emergencyStop h =>
    cases h with
    | gated hgate => exact hgate.needsNeutral ha (hgate.refuses hr)
    | pressed sent _ hgate => exact hgate.keeps rfl
  | motionPermission h => exact h.needsNeutral ha (h.refuses hr)
  | tick h =>
    obtain ⟨hretry, hgate, hact⟩ := h
    have ha₁ := hretry.consistent ha
    cases hgate with
    | opened =>
      -- with an open gate, the refusal is the action's
      refine hact.needsNeutral ?_
      cases hretry <;> simpa [Refuses, hact.no_verdict, hact.spec.1] using hr
    | disarmed _ _ hnone => exact hact.keeps (ha₁.needsNeutral hnone)
    | stop => exact hact.keeps rfl
  | external => simp [Refuses] at hr

theorem Step.keeps {M : Type} {e : DriveEvent M} (h : Step a e out a')
    (hn : a.rearm.needsNeutral = true) :
    a'.rearm.needsNeutral = true ∨
    ((∃ msg now stamp steadyNow, e = .twist msg now stamp steadyNow ∧
      MotorControl.neutral msg.linear msg.angular a.linearBand a.angularBand = true) ∧
      out = [.gate .kNone, .health true, .verdict .kNeutral]) := by
  cases h with
  | @twist msg now stamp steadyNow _ _ h =>
    cases h with
    | inactive => exact .inl hn
    | closed => exact .inl rfl
    | owed => exact .inl hn
    | inhibited => exact .inl rfl
    | late => exact .inl rfl
    | refused => exact .inl hn
    | neutral _ _ _ _ _ hband => exact .inr ⟨⟨msg, now, stamp, steadyNow, rfl, hband⟩, rfl⟩
    | accept _ _ _ _ harmed =>
      rw [hn] at harmed
      cases harmed
  | emergencyStop h =>
    left
    cases h with
    | gated hgate => exact hgate.keeps hn
    | pressed sent _ hgate => exact hgate.keeps rfl
  | motionPermission h => exact .inl (h.keeps hn)
  | tick h =>
    obtain ⟨hretry, hgate, hact⟩ := h
    rw [← hretry.keeps] at hn
    exact .inl (hact.keeps (hgate.keeps hn))
  | external => exact .inl hn

/-! ## Driving -/

theorem Act.of_drives {block : Block} {now : ℚ} (h : Act a block now out a')
    (hd : ∃ e ∈ out, e.drives = true) :
    a.hasTarget = true ∧ a.pending = false ∧
      shouldTimeoutStop (.fin (now - a.cmdTime)) a.cmdTimeoutSec true = false := by
  cases h with
  | owed => simp [Effect.drives] at hd
  | idle _ _ _ _ hpolled => rcases hpolled with rfl | rfl <;> simp [Effect.drives] at hd
  | stop => simp [Effect.drives] at hd
  | drive _ hpending htarget _ htime => exact ⟨htarget, hpending, htime⟩

theorem Tick.of_drives {now : ℚ} (h : Tick a now out a') (ha : a.Consistent)
    (hd : ∃ e ∈ out, e.drives = true) :
    a.hasTarget = true ∧ a.pending = false ∧ a.stopFault = false ∧
      shouldTimeoutStop (.fin (now - a.cmdTime)) a.cmdTimeoutSec true = false := by
  obtain ⟨hretry, hgate, hact⟩ := h
  obtain ⟨e, he, hd⟩ := hd
  simp only [List.mem_append] at he
  rcases he with (he | he) | he
  · rw [hretry.spec.1 e he] at hd
    cases hd
  · rw [hgate.spec.1 e he] at hd
    cases hd
  · obtain ⟨htarget, hpending, htime⟩ := hact.of_drives ⟨e, he, hd⟩
    obtain ⟨-, rfl⟩ := hgate.of_hasTarget htarget
    cases hretry with
    | quiet => exact ⟨htarget, hpending, ha.trusted htarget, htime⟩
    | retry sent hfault =>
      have htrust : a.stopFault = false := ha.trusted htarget
      rw [hfault] at htrust
      cases htrust

theorem Step.tick_of_drives {M : Type} {e : DriveEvent M} (h : Step a e out a')
    (hd : ∃ e ∈ out, e.drives = true) : ∃ now steadyNow, e = .tick now steadyNow := by
  cases h with
  | twist h => cases h <;> simp [Effect.drives] at hd
  | emergencyStop h =>
    obtain ⟨f, hf, hd⟩ := hd
    cases h with
    | gated hgate =>
      rw [hgate.spec.1 f hf] at hd
      cases hd
    | pressed sent _ hgate =>
      rcases List.mem_cons.1 hf with rfl | hf
      · cases hd
      · rw [hgate.spec.1 f hf] at hd
        cases hd
  | motionPermission h =>
    obtain ⟨f, hf, hd⟩ := hd
    rw [h.spec.1 f hf] at hd
    cases hd
  | @tick now steadyNow => exact ⟨now, steadyNow, rfl⟩
  | external => simp at hd

end Arming

namespace DriveComponent

variable {M C : Type} [MotorLibrary M] {s : DriveComponent M C}

theorem retryStop_of_no_fault (hfault : s.stopFault = false) (steadyNow : ℚ) :
    s.retryStop steadyNow = (s, []) := by
  unfold retryStop
  split
  · simp [hfault]
  · rfl

variable [Core C]

theorem safetyStop_still (s : DriveComponent M C) (steadyNow : ℚ) :
    ∀ e ∈ (s.safetyStop steadyNow).2, e.drives = false := by
  obtain ⟨sent, hout, -⟩ := s.safetyStop_arming steadyNow
  rw [hout]
  simp [Effect.drives]

/-- The action drives only with an open gate and motors that are ready and
healthy. -/
theorem actTick_of_drives {block : Block} {now steadyNow : ℚ}
    (hd : ∃ e ∈ (s.actTick block now steadyNow).2, e.drives = true) :
    block = .kNone ∧ s.motorReady = true ∧ s.motorHealthy = true := by
  obtain ⟨healthy, hhealthy⟩ : ∃ h, (s.motorReady && s.motorHealthy) = h := ⟨_, rfl⟩
  obtain ⟨s', hs'⟩ :
      ∃ s', (if healthy then s else { s with rearm := s.rearm.reset }) = s' := ⟨_, rfl⟩
  unfold actTick at hd
  simp only [hhealthy, hs'] at hd
  obtain ⟨e, he, hd⟩ := hd
  have hacted : ∀ out : List Effect, (∀ f ∈ out, f.drives = false) → e ∉ out := by
    intro out hstill he
    rw [hstill e he] at hd
    cases hd
  cases haction : decideTickAction s'.hasTarget s'.motorReady (block ≠ .kNone) healthy
      (.fin (if s.hasTarget then now - s.lastCmdTime else 0)) s'.cmdTimeoutSec with
  | kIdle =>
    rw [haction] at he
    obtain ⟨-, hpolled⟩ := s'.idlePoll_arming block
    refine absurd he (hacted _ ?_)
    rcases hpolled with h | h <;> simp [h, Effect.drives]
  | kTimeoutStop =>
    rw [haction] at he
    refine absurd he (hacted _ ?_)
    simpa [Effect.drives] using s'.safetyStop_still steadyNow
  | kFaultStop =>
    rw [haction] at he
    refine absurd he (hacted _ ?_)
    simpa [Effect.drives] using s'.safetyStop_still steadyNow
  | kDrive =>
    obtain ⟨-, -, hopen, rfl, -⟩ := decideTickAction_kDrive haction
    rw [Bool.and_eq_true] at hhealthy
    exact ⟨by simpa using hopen, hhealthy.1, hhealthy.2⟩

theorem applyGate_of_open {steadyNow : ℚ} (hopen : s.gate steadyNow = .kNone) (stoppedNow : Bool) :
    s.applyGate steadyNow stoppedNow =
      ({ s with lastBlock := .kNone }, .kNone, [.gate .kNone]) := by
  simp [applyGate, hopen]

theorem runControlTick_of_drives {now steadyNow : ℚ} (h : s.arming.Consistent)
    (hd : ∃ e ∈ (s.runControlTick now steadyNow).2, e.drives = true) :
    s.gate steadyNow = .kNone ∧ s.motorReady = true ∧ s.motorHealthy = true := by
  have htick := s.runControlTick_arming now steadyNow
  obtain ⟨-, -, hfault, -⟩ := htick.of_drives h hd
  have hretry : s.retryStop steadyNow = (s, []) := retryStop_of_no_fault hfault steadyNow
  obtain ⟨e, he, hd⟩ := hd
  by_cases hopen : s.gate steadyNow = .kNone
  · simp only [runControlTick, hretry, applyGate_of_open hopen] at he
    rcases List.mem_append.1 he with he | he
    · rw [List.nil_append, List.mem_singleton] at he
      subst he
      cases hd
    · split at he
      · rcases List.mem_cons.1 he with rfl | he
        · cases hd
        · rw [safetyStop_still _ steadyNow e he] at hd
          cases hd
      · obtain ⟨-, hready, hhealthy⟩ := actTick_of_drives ⟨e, he, hd⟩
        exact ⟨hopen, hready, hhealthy⟩
  · obtain ⟨hblock, hgate⟩ := s.applyGate_arming steadyNow false (fun h => nomatch h)
    have hmem : .gate (s.gate steadyNow) ∈ (s.runControlTick now steadyNow).2 := by
      simp only [runControlTick, hretry, List.mem_append]
      exact .inl (.inr ((hgate.spec.2.1 _).2 rfl))
    rw [(htick.of_closed hopen hmem).1 e he] at hd
    cases hd

/-- The hole of the latch: a control tick that finds nothing in the way of the
stored target, although the drive needs neutral. -/
def revives (s : DriveComponent M C) : DriveEvent M → Bool
  | .tick now steadyNow =>
    s.hasTarget && s.rearm.needsNeutral && !s.pendingCmdTimeoutStop &&
      decide (s.gate steadyNow = .kNone) && s.motorReady && s.motorHealthy &&
      !shouldTimeoutStop (.fin (now - s.lastCmdTime)) s.cmdTimeoutSec true
  | _ => false

theorem revives_of_drives {e : DriveEvent M} (h : s.arming.Consistent)
    (hn : s.rearm.needsNeutral = true) (hd : ∃ e' ∈ (s.step e).2, e'.drives = true) :
    s.revives e = true := by
  obtain ⟨now, steadyNow, rfl⟩ := (s.step_arming e).tick_of_drives hd
  obtain ⟨htarget, hpending, -, htime⟩ := (s.runControlTick_arming now steadyNow).of_drives h hd
  obtain ⟨hgate, hready, hhealthy⟩ := runControlTick_of_drives h hd
  have htarget : s.hasTarget = true := htarget
  have hpending : s.pendingCmdTimeoutStop = false := hpending
  have htime : shouldTimeoutStop (.fin (now - s.lastCmdTime)) s.cmdTimeoutSec true = false := htime
  simp [revives, htarget, hn, hpending, hgate, hready, hhealthy, htime]

/-! ## Runs -/

/-- The step sends a drive command. -/
def Drives (t : Step (DriveComponent M C) (DriveEvent M) (List Effect)) : Prop :=
  ∃ e ∈ t.out, e.drives = true

/-- The step takes a twist inside the neutral band, with the gate open and the
motors healthy. -/
def AcceptsNeutral (t : Step (DriveComponent M C) (DriveEvent M) (List Effect)) : Prop :=
  (∃ msg now stamp steadyNow, t.event = .twist msg now stamp steadyNow ∧
    neutral msg.linear msg.angular t.pre.rearmNeutralLinear t.pre.rearmNeutralAngular = true) ∧
  .gate .kNone ∈ t.out ∧ .health true ∈ t.out ∧ ∃ d, d.accepted = true ∧ .verdict d ∈ t.out

theorem needsNeutral_step (e : DriveEvent M) (hn : s.rearm.needsNeutral = true)
    (hrel : ¬ AcceptsNeutral (stepOf step s e)) : (s.step e).1.rearm.needsNeutral = true := by
  rcases (s.step_arming e).keeps hn with hkeep | ⟨hband, hout⟩
  · exact hkeep
  · have hout : (stepOf step s e).out = [.gate .kNone, .health true, .verdict .kNeutral] := hout
    refine absurd ⟨hband, ?_, ?_, .kNeutral, rfl, ?_⟩ hrel
    all_goals rw [hout]; simp

/-- In every run without a tick that drives through the hole, a refusal keeps
the drive still until a neutral command is accepted. -/
theorem rearm_latched (s : DriveComponent M C) (es : List (DriveEvent M))
    (h : ∀ t ∈ trace step s.resetCommandState es, t.pre.revives t.event = false) :
    BlockedUntil (fun t => Refuses t.out) Drives AcceptsNeutral
      (trace step s.resetCommandState es) := by
  have hcons : ∀ t ∈ trace step s.resetCommandState es, t.pre.arming.Consistent := by
    intro t ht
    exact (trace_invariant (fun s => s.arming.Consistent) consistent_step es _
      s.consistent_resetCommandState t ht).1
  refine blockedUntil_trace (fun s => s.rearm.needsNeutral = true) ?_ ?_ ?_
  · intro t ht hr
    rw [eq_stepOf_of_mem_trace ht] at hr ⊢
    exact (t.pre.step_arming t.event).needsNeutral (hcons t ht) hr
  · intro t ht hn hrel
    rw [eq_stepOf_of_mem_trace ht] at hrel ⊢
    exact needsNeutral_step t.event hn hrel
  · intro t ht hn hd
    have hrevives := h t ht
    rw [eq_stepOf_of_mem_trace ht] at hd
    rw [revives_of_drives (hcons t ht) hn hd] at hrevives
    cases hrevives

end DriveComponent

/-! ## A run with sound motors -/

/-- Motors that take every command and report no fault. -/
inductive SoundMotors where
  | wired

instance : MotorLibrary SoundMotors where
  setMotorVelocity lib _ _ := (lib, true)
  stopMotor lib _ := (lib, true)
  stopMotorNow lib _ := (lib, true)
  refreshMotorFeedback lib _ _ := (lib, true)
  getMotorStatus _ _ := some { velocityRpm := 0, temperature := 0, faultCode := 0 }
  getMotorFeedbackData _ _ := none
  currentGuardTrip _ _ := .kNone

/-- A control core that stops on a zero target and turns the wheels on any
other. -/
inductive OnOffCore where
  | built

instance : Core OnOffCore where
  reset core := core
  step core linear angular _ _ :=
    if Dbl.eq linear 0 && Dbl.eq angular 0 then (core, {})
    else (core, { stop := false, leftRpm := 60, rightRpm := 60 })

/-- A node with sound motors, as its parameters default. -/
def soundNode : DriveComponent SoundMotors OnOffCore where
  motorInitialized := true
  diffDrive := some { motorLib := .wired, leftMotorId := 1, rightMotorId := 2 }
  controlCore := some .built
  estopMonitor := .create {}
  permissionMonitor := .create {}

/-- The node is armed with neutral, then told to go forward, and drives. -/
def armedForward : List (DriveEvent SoundMotors) :=
  [.emergencyStop false 0, .motionPermission true (9 / 10), .tick (92 / 100) (92 / 100),
    .twist ⟨0, 0⟩ (95 / 100) (95 / 100) (95 / 100),
    .twist ⟨.fin (3 / 10), 0⟩ (96 / 100) (96 / 100) (96 / 100), .tick (98 / 100) (98 / 100)]

namespace DriveComponent

/-- A pressed emergency stop, released before the next tick: the twist held
forward is refused until the stick has been in neutral. -/
theorem rearm_latched_pressed :
    BlockedUntil (fun t => Refuses t.out) Drives AcceptsNeutral
      (trace step soundNode.resetCommandState (armedForward ++
        [.emergencyStop true (985 / 1000), .emergencyStop false (99 / 100), .tick 1 1,
          .twist ⟨.fin (3 / 10), 0⟩ (101 / 100) (101 / 100) (101 / 100), .tick (102 / 100) (102 / 100),
          .twist ⟨0, 0⟩ (103 / 100) (103 / 100) (103 / 100),
          .twist ⟨.fin (3 / 10), 0⟩ (104 / 100) (104 / 100) (104 / 100),
          .tick (105 / 100) (105 / 100)])) :=
  rearm_latched soundNode _ (by decide +kernel)

/-- The emergency stop's messages pause for a little over its timeout: a twist
sees the gate closed, and the next message opens it again before the tick. -/
def reopenedGate : List (DriveEvent SoundMotors) :=
  armedForward ++ [.twist ⟨.fin (3 / 10), 0⟩ (1005 / 1000) (1005 / 1000) (1005 / 1000),
    .emergencyStop false (1010 / 1000), .tick (1015 / 1000) (1015 / 1000)]

/-- The tick after a twist that found the gate closed drives the old target,
with no neutral command in between. -/
theorem reopenedGate_drives :
    Timely reopenedGate ∧
    ¬ BlockedUntil (fun t => Refuses t.out) Drives AcceptsNeutral
      (trace step soundNode.resetCommandState reopenedGate) := by
  refine ⟨⟨by decide +kernel, by decide +kernel⟩, fun h => ?_⟩
  let s := final step soundNode.resetCommandState armedForward
  let closed := stepOf step s (.twist ⟨.fin (3 / 10), 0⟩ (1005 / 1000) (1005 / 1000) (1005 / 1000))
  let message := stepOf step closed.post (.emergencyStop false (1010 / 1000))
  let tick := stepOf step message.post (.tick (1015 / 1000) (1015 / 1000))
  have hsplit : trace step soundNode.resetCommandState reopenedGate =
      trace step soundNode.resetCommandState armedForward ++ closed :: ([message] ++ tick :: []) :=
    rfl
  have hrefuses : Refuses closed.out := .inl ⟨.kEstopStale, by decide, by decide +kernel⟩
  have hdrives : Drives tick := ⟨.drive 60 60 ⟨true, true⟩, by decide +kernel, rfl⟩
  obtain ⟨r, hr, hrel⟩ := h _ closed [message] tick [] hsplit hrefuses hdrives
  rw [List.mem_singleton] at hr
  subst hr
  obtain ⟨⟨_, _, _, _, hev, -⟩, -⟩ := hrel
  cases hev

end DriveComponent

end Questix.MotorControl
