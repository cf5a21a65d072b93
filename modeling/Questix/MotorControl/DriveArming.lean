/-
Questix.MotorControl.DriveArming — what a callback of the drive's node can do
to its arming state.

Of the node's state, whether it may drive depends on little: the re-arm
latch, the stop owed for a timeout, the target with its time, and the stop
fault. `Arming` is that part, and the relations below say once what each
callback can do to it and with which effects, guards included:
`Arming.Gate` for the gate, `Arming.Twist` for a twist, `Arming.Tick` for the
control tick. `step_arming` connects them to the node; everything proved
about runs is read off the relations, not off the node's code.
-/
import Questix.MotorControl.DriveComponent

namespace Questix.MotorControl

open Questix.Lib Questix.Safety
open Questix.CommandArbiter (Twist)

/-! ## The arming state -/

/-- The part of the node's state that decides whether it may drive, with the
parameters it is judged by. `wired`: there are motors to send to. -/
structure Arming where
  rearm : Rearm
  pending : Bool
  hasTarget : Bool
  cmdTime : ℚ
  stopFault : Bool
  wired : Bool
  cmdTimeoutSec : Dbl
  linearBand : Dbl
  angularBand : Dbl

def failed : Option Sent → Bool
  | some sent => !sent.both
  | none => false

namespace Arming

/-- After a safety stop: disarmed, and at fault if the zero was not sent. -/
def stopped (a : Arming) (sent : Option Sent) : Arming :=
  { a with rearm := a.rearm.reset, pending := false, hasTarget := false,
           stopFault := a.stopFault || failed sent }

def unheard (a : Arming) : Arming := { a with rearm := a.rearm.reset }

/-- A command was taken. -/
def taken (a : Arming) (now stamp : ℚ) : Arming :=
  { a with rearm := { needsNeutral := false, heard := true, acceptedAt := now },
           hasTarget := true, cmdTime := stamp }

@[simp] theorem stopped_hasTarget (a : Arming) (sent : Option Sent) :
    (a.stopped sent).hasTarget = false := rfl
@[simp] theorem stopped_pending (a : Arming) (sent : Option Sent) :
    (a.stopped sent).pending = false := rfl
@[simp] theorem stopped_needsNeutral (a : Arming) (sent : Option Sent) :
    (a.stopped sent).rearm.needsNeutral = true := rfl
@[simp] theorem stopped_stopFault (a : Arming) (sent : Option Sent) :
    (a.stopped sent).stopFault = (a.stopFault || failed sent) := rfl

/-! ## What a callback can do -/

/-- The gate found `block`; a closed gate leaves nothing armed. -/
inductive Gate (a : Arming) : Block → List Effect → Arming → Prop where
  | opened : a.stopFault = false → Gate a .kNone [.gate .kNone] a
  | disarmed (block : Block) : block ≠ .kNone → a.hasTarget = false → Gate a block [.gate block] a
  | stop (block : Block) (sent : Option Sent) : block ≠ .kNone → sent.isSome = a.wired →
      Gate a block [.gate block, .safetyStop sent] (a.stopped sent)

/-- A twist arrived. -/
inductive Twist (a : Arming) (msg : CommandArbiter.Twist) (now stamp : ℚ) :
    List Effect → Arming → Prop where
  | inactive : Twist a msg now stamp [] a
  | closed (block : Block) : block ≠ .kNone → Twist a msg now stamp [.gate block] a.unheard
  | owed : a.stopFault = false → a.pending = true → Twist a msg now stamp [.gate .kNone] a
  | inhibited : a.stopFault = false → a.pending = false →
      Twist a msg now stamp [.gate .kNone, .health false, .verdict .kInhibited] a.unheard
  | late : a.stopFault = false → a.pending = false →
      a.rearm.expired now a.cmdTimeoutSec = true →
      Twist a msg now stamp [.gate .kNone, .health true, .verdict .kTimeout]
        { a with rearm := { a.rearm with needsNeutral := true }, pending := true }
  | refused (decision : Decision) : a.stopFault = false → decision.accepted = false →
      decision ≠ .kTimeout →
      Twist a msg now stamp [.gate .kNone, .health true, .verdict decision] a
  | neutral : a.stopFault = false → a.pending = false → a.wired = true →
      a.rearm.expired now a.cmdTimeoutSec = false → a.rearm.needsNeutral = true →
      MotorControl.neutral msg.linear msg.angular a.linearBand a.angularBand = true →
      Twist a msg now stamp [.gate .kNone, .health true, .verdict .kNeutral] (a.taken now stamp)
  | accept : a.stopFault = false → a.pending = false → a.wired = true →
      a.rearm.expired now a.cmdTimeoutSec = false → a.rearm.needsNeutral = false →
      Twist a msg now stamp [.gate .kNone, .health true, .verdict .kAccept] (a.taken now stamp)

/-- A stop that could not be sent may be sent again. -/
inductive Retry (a : Arming) : List Effect → Arming → Prop where
  | quiet : Retry a [] a
  | retry (sent : Sent) : a.stopFault = true →
      Retry a [.stopRetry sent] { a with stopFault := !sent.both }

/-- What is sent to the wheels when the tick drives. -/
inductive Output : Effect → Prop where
  | stop (sent : Sent) : Output (.commandStop sent)
  | drive (leftRpm rightRpm : Int) (sent : Sent) : Output (.drive leftRpm rightRpm sent)

/-- The action of a tick whose gate found `block`. -/
inductive Act (a : Arming) (block : Block) (now : ℚ) : List Effect → Arming → Prop where
  | owed (sent : Option Sent) : a.pending = true → sent.isSome = a.wired →
      Act a block now [.action .kTimeoutStop, .safetyStop sent] (a.stopped sent)
  | idle (healthy : Bool) (polled : List Effect) : a.pending = false →
      (healthy = true → block = .kNone → a.hasTarget = false) → polled = [] ∨ polled = [.poll] →
      Act a block now (.health healthy :: .action .kIdle :: polled)
        (if healthy then a else a.unheard)
  | stop (healthy : Bool) (action : TickAction) (sent : Option Sent) : a.pending = false →
      action = .kTimeoutStop ∨ action = .kFaultStop → sent.isSome = a.wired →
      Act a block now [.health healthy, .action action, .safetyStop sent] (a.stopped sent)
  | drive (out : Effect) : a.pending = false → a.hasTarget = true → block = .kNone →
      shouldTimeoutStop (.fin (now - a.cmdTime)) a.cmdTimeoutSec true = false → Output out →
      Act a block now [.health true, .action .kDrive, out] a

/-- A control tick: retry, gate, action. -/
inductive Tick (a : Arming) (now : ℚ) : List Effect → Arming → Prop where
  | mk {a₁ a₂ a₃ : Arming} {block : Block} {retried gated acted : List Effect} :
      Retry a retried a₁ → Gate a₁ block gated a₂ → Act a₂ block now acted a₃ →
      Tick a now (retried ++ gated ++ acted) a₃

/-- An emergency-stop message: it may stop, and the gate is evaluated. -/
inductive Estop (a : Arming) : List Effect → Arming → Prop where
  | gated {a' : Arming} {block : Block} {out : List Effect} : Gate a block out a' → Estop a out a'
  | pressed {a' : Arming} {block : Block} {out : List Effect} (sent : Option Sent) :
      sent.isSome = a.wired → Gate (a.stopped sent) block out a' → Estop a (.safetyStop sent :: out) a'

/-- One callback of the node. -/
inductive Step {M : Type} (a : Arming) : DriveEvent M → List Effect → Arming → Prop where
  | twist {msg : CommandArbiter.Twist} {now stamp steadyNow : ℚ} {out : List Effect} {a' : Arming} :
      Twist a msg now stamp out a' → Step a (.twist msg now stamp steadyNow) out a'
  | emergencyStop {active : Bool} {steadyNow : ℚ} {out : List Effect} {a' : Arming} :
      Estop a out a' → Step a (.emergencyStop active steadyNow) out a'
  | motionPermission {driveAllowed : Bool} {steadyNow : ℚ} {block : Block} {out : List Effect}
      {a' : Arming} :
      Gate a block out a' → Step a (.motionPermission driveAllowed steadyNow) out a'
  | tick {now steadyNow : ℚ} {out : List Effect} {a' : Arming} :
      Tick a now out a' → Step a (.tick now steadyNow) out a'
  | external {motorLib : M} : Step a (.external motorLib) [] a

end Arming

/-! ## The node does no more -/

namespace DriveComponent

variable {M C : Type} {s : DriveComponent M C} {steadyNow : ℚ}

def arming (s : DriveComponent M C) : Arming where
  rearm := s.rearm
  pending := s.pendingCmdTimeoutStop
  hasTarget := s.hasTarget
  cmdTime := s.lastCmdTime
  stopFault := s.stopFault
  wired := s.motorInitialized && s.diffDrive.isSome
  cmdTimeoutSec := s.cmdTimeoutSec
  linearBand := s.rearmNeutralLinear
  angularBand := s.rearmNeutralAngular

theorem stopFault_of_gate (h : s.gate steadyNow = .kNone) : s.stopFault = false := by
  cases hf : s.stopFault with
  | false => rfl
  | true =>
    have hclosed : s.gate steadyNow = .kStopFault := ActuationGate.evaluate_of_stopFault hf
    rw [hclosed] at h
    cases h

variable [MotorLibrary M]

theorem wired_of_motorHealthy (h : s.motorHealthy = true) : s.arming.wired = true := by
  simp only [motorHealthy, Bool.and_eq_true] at h
  cases hdrive : s.diffDrive with
  | none => simp [hdrive] at h
  | some d => simp [arming, h.1, hdrive]

theorem twistCallback_arming (s : DriveComponent M C) (msg : Twist) (now stamp steadyNow : ℚ) :
    Arming.Twist s.arming msg now stamp (s.twistCallback msg now stamp steadyNow).2
      (s.twistCallback msg now stamp steadyNow).1.arming := by
  unfold twistCallback
  split
  · exact .inactive
  simp only
  split
  · rename_i hclosed
    exact .closed _ hclosed
  rename_i hgate
  simp only [ne_eq, not_not] at hgate
  have hfault := stopFault_of_gate hgate
  rw [hgate]
  split
  · rename_i hpending
    exact .owed hfault hpending
  rename_i hpending
  simp only [Bool.not_eq_true] at hpending
  rcases s.rearm.command_cases msg.linear msg.angular now s.cmdTimeoutSec (!s.motorHealthy)
      s.rearmNeutralLinear s.rearmNeutralAngular with
    ⟨hin, heq⟩ | ⟨hin, hex, heq⟩ | ⟨hin, hex, heq | heq | ⟨hneed, hneu, heq⟩ | ⟨hneed, heq⟩⟩
  all_goals
    simp only [Bool.not_eq_true', Bool.not_eq_false'] at hin
    rw [heq, hin]
  · exact .inhibited hfault hpending
  · exact .late hfault hpending hex
  · exact .refused .kInvalid hfault rfl (by decide)
  · exact .refused .kNeedsNeutral hfault rfl (by decide)
  · exact .neutral hfault hpending (wired_of_motorHealthy hin) hex hneed hneu
  · exact .accept hfault hpending (wired_of_motorHealthy hin) hex hneed

theorem retryStop_arming (s : DriveComponent M C) (steadyNow : ℚ) :
    Arming.Retry s.arming (s.retryStop steadyNow).2 (s.retryStop steadyNow).1.arming := by
  unfold retryStop
  split
  · rename_i d hdrive
    split
    · rename_i hretry
      simp only [Bool.and_eq_true] at hretry
      have hfault : s.stopFault = true := hretry.1.1
      have harm : (if (s.attemptStop d steadyNow).2.both then
          { (s.attemptStop d steadyNow).1 with stopFault := false }
          else (s.attemptStop d steadyNow).1).arming =
          { s.arming with stopFault := !(s.attemptStop d steadyNow).2.both } := by
        cases hsent : (s.attemptStop d steadyNow).2.both with
        | true => simp [arming, attemptStop, hdrive]
        | false => simp [arming, attemptStop, hfault, hdrive]
      simp only [harm]
      exact .retry _ hfault
    · exact .quiet
  · exact .quiet

theorem idlePoll_arming (s : DriveComponent M C) (block : Block) :
    (s.idlePoll block).1.arming = s.arming ∧
      ((s.idlePoll block).2 = [] ∨ (s.idlePoll block).2 = [.poll]) := by
  unfold idlePoll
  split
  · rename_i d hdrive
    split
    · exact ⟨by simp [arming, hdrive], .inr rfl⟩
    · exact ⟨rfl, .inl rfl⟩
  · exact ⟨rfl, .inl rfl⟩

variable [Core C]

theorem safetyStop_arming (s : DriveComponent M C) (steadyNow : ℚ) :
    ∃ sent, (s.safetyStop steadyNow).2 = [.safetyStop sent] ∧ sent.isSome = s.arming.wired ∧
      (s.safetyStop steadyNow).1.arming = s.arming.stopped sent := by
  unfold safetyStop
  simp only
  split
  · rename_i d hinit hdrive
    simp only [resetCommandState] at hinit hdrive
    refine ⟨some d.stopNow.2, rfl, ?_, ?_⟩
    · simp [arming, hinit, hdrive]
    · cases hsent : d.stopNow.2.both with
      | true =>
        simp [arming, Arming.stopped, failed, hsent, attemptStop, resetCommandState, hdrive]
      | false =>
        simp [arming, Arming.stopped, failed, hsent, attemptStop, resetCommandState, hdrive]
  · rename_i hnone
    refine ⟨none, rfl, ?_, ?_⟩
    · simp only [resetCommandState] at hnone
      cases hinit : s.motorInitialized with
      | false => simp [arming, hinit]
      | true =>
        cases hdrive : s.diffDrive with
        | none => simp [arming, hdrive]
        | some d => exact (hnone d hinit hdrive).elim
    · simp [arming, Arming.stopped, failed, resetCommandState]

theorem applyGate_arming (s : DriveComponent M C) (steadyNow : ℚ) (stoppedNow : Bool)
    (hstopped : stoppedNow = true → s.hasTarget = false) :
    (s.applyGate steadyNow stoppedNow).2.1 = s.gate steadyNow ∧
    Arming.Gate s.arming (s.gate steadyNow) (s.applyGate steadyNow stoppedNow).2.2
      (s.applyGate steadyNow stoppedNow).1.arming := by
  by_cases hopen : s.gate steadyNow = .kNone
  · -- an open gate records that it is open
    have hfault := stopFault_of_gate hopen
    simp only [applyGate, hopen, ActuationGate.decideGateAction_open, reduceCtorEq,
      decide_false, Bool.false_and, Bool.false_eq_true, if_false, true_and]
    exact .opened hfault
  · unfold applyGate
    simp only
    split
    · obtain ⟨sent, hout, hwired, harm⟩ :=
        safetyStop_arming { s with lastBlock := s.gate steadyNow } steadyNow
      refine ⟨rfl, ?_⟩
      simp only [hout, harm]
      exact .stop _ sent hopen hwired
    · rename_i haction
      refine ⟨rfl, .disarmed _ hopen ?_⟩
      cases hnow : stoppedNow with
      | true => exact hstopped hnow
      | false =>
        simp only [hnow, Bool.not_false, Bool.and_true, decide_eq_true_eq] at haction
        exact ActuationGate.hasTarget_of_decideGateAction hopen haction

theorem driveWheels_arming (s : DriveComponent M C) (hready : s.motorReady = true) :
    s.driveWheels.1.arming = s.arming ∧ ∃ out, s.driveWheels.2 = [out] ∧ Arming.Output out := by
  simp only [motorReady, Bool.and_eq_true, Option.isSome_iff_exists] at hready
  obtain ⟨⟨-, d, hd⟩, core, hcore⟩ := hready
  simp only [driveWheels, hd, hcore]
  split
  · exact ⟨by simp [arming, hd], _, rfl, .stop _⟩
  · exact ⟨by simp [arming, hd], _, rfl, .drive _ _ _⟩

/-- What the tick's action can do. -/
theorem actTick_arming (s : DriveComponent M C) (block : Block) (now steadyNow : ℚ)
    (hpending : s.pendingCmdTimeoutStop = false) :
    Arming.Act s.arming block now (s.actTick block now steadyNow).2
      (s.actTick block now steadyNow).1.arming := by
  obtain ⟨healthy, hhealthy⟩ : ∃ h, (s.motorReady && s.motorHealthy) = h := ⟨_, rfl⟩
  obtain ⟨s', hs'⟩ :
      ∃ s', (if healthy then s else { s with rearm := s.rearm.reset }) = s' := ⟨_, rfl⟩
  have harm : s'.arming = if healthy then s.arming else s.arming.unheard := by
    cases healthy <;> simp [← hs', arming, Arming.unheard]
  have hstop : ∀ sent, s'.arming.stopped sent = s.arming.stopped sent := by
    intro sent
    rw [harm]
    cases healthy <;> rfl
  have hwired : s'.arming.wired = s.arming.wired := by
    rw [harm]
    cases healthy <;> rfl
  obtain ⟨sent, hsent, hsome, hpost⟩ := s'.safetyStop_arming steadyNow
  rw [hstop] at hpost
  rw [hwired] at hsome
  unfold actTick
  simp only [hhealthy, hs']
  cases haction : decideTickAction s'.hasTarget s'.motorReady (block ≠ .kNone) healthy
      (.fin (if s.hasTarget then now - s.lastCmdTime else 0)) s'.cmdTimeoutSec with
  | kIdle =>
    obtain ⟨hidle, hpolled⟩ := s'.idlePoll_arming block
    simp only [hidle, harm]
    refine .idle healthy _ hpending ?_ hpolled
    rintro rfl rfl
    simp only [if_true] at hs'
    subst hs'
    rw [Bool.and_eq_true] at hhealthy
    exact hasTarget_of_kIdle hhealthy.1 haction
  | kTimeoutStop =>
    simp only [hsent, hpost]
    exact .stop healthy .kTimeoutStop sent hpending (.inl rfl) hsome
  | kFaultStop =>
    simp only [hsent, hpost]
    exact .stop healthy .kFaultStop sent hpending (.inr rfl) hsome
  | kDrive =>
    obtain ⟨htarget, hready, hopen, rfl, htime⟩ := decideTickAction_kDrive haction
    simp only [if_true] at hs' harm
    subst hs'
    simp only [htarget, if_true] at htime
    obtain ⟨hdrive, out, hout, hsends⟩ := s.driveWheels_arming hready
    simp only [hdrive, hout]
    exact .drive out hpending htarget (by simpa using hopen) htime hsends

theorem runControlTick_arming (s : DriveComponent M C) (now steadyNow : ℚ) :
    Arming.Tick s.arming now (s.runControlTick now steadyNow).2
      (s.runControlTick now steadyNow).1.arming := by
  have hretry := s.retryStop_arming steadyNow
  obtain ⟨hblock, hgate⟩ :=
    (s.retryStop steadyNow).1.applyGate_arming steadyNow false (fun h => nomatch h)
  rw [← hblock] at hgate
  generalize hg : (s.retryStop steadyNow).1.applyGate steadyNow false = gated at hgate
  unfold runControlTick
  simp only [hg]
  refine .mk hretry hgate ?_
  split
  · rename_i hpending
    obtain ⟨sent, hsent, hsome, hpost⟩ := gated.1.safetyStop_arming steadyNow
    simp only [hsent, hpost]
    exact .owed sent hpending hsome
  · rename_i hpending
    simp only [Bool.not_eq_true] at hpending
    exact gated.1.actTick_arming gated.2.1 now steadyNow hpending

theorem onEmergencyStop_arming (s : DriveComponent M C) (active : Bool) (steadyNow : ℚ) :
    Arming.Estop s.arming (s.onEmergencyStop active steadyNow).2
      (s.onEmergencyStop active steadyNow).1.arming := by
  unfold onEmergencyStop
  simp only
  generalize hs' : { s with estopMonitor := (s.estopMonitor.receive active steadyNow).1 } = s'
  have harm : s.arming = s'.arming := by
    rw [← hs']
    rfl
  rw [harm]
  split
  · obtain ⟨sent, hsent, hsome, hpost⟩ := s'.safetyStop_arming steadyNow
    have hgate := ((s'.safetyStop steadyNow).1.applyGate_arming steadyNow true ?_).2
    · rw [hpost] at hgate
      rw [hsent]
      exact .pressed sent hsome hgate
    · intro _
      exact congrArg Arming.hasTarget hpost
  · exact .gated (s'.applyGate_arming steadyNow false (fun h => nomatch h)).2

theorem onMotionPermission_arming (s : DriveComponent M C) (driveAllowed : Bool) (steadyNow : ℚ) :
    ∃ block, Arming.Gate s.arming block (s.onMotionPermission driveAllowed steadyNow).2
      (s.onMotionPermission driveAllowed steadyNow).1.arming :=
  ⟨_, (applyGate_arming
    { s with permissionMonitor := (s.permissionMonitor.receive driveAllowed steadyNow).1 }
    steadyNow false (fun h => nomatch h)).2⟩

theorem step_arming (s : DriveComponent M C) (e : DriveEvent M) :
    Arming.Step s.arming e (s.step e).2 (s.step e).1.arming := by
  cases e with
  | twist msg now stamp steadyNow =>
    exact .twist (s.twistCallback_arming msg now stamp steadyNow)
  | emergencyStop active steadyNow => exact .emergencyStop (s.onEmergencyStop_arming active steadyNow)
  | motionPermission driveAllowed steadyNow =>
    obtain ⟨block, h⟩ := s.onMotionPermission_arming driveAllowed steadyNow
    exact .motionPermission h
  | tick now steadyNow => exact .tick (s.runControlTick_arming now steadyNow)
  | external motorLib =>
    have harm : (s.step (.external motorLib)).1.arming = s.arming := by
      simp [step, arming]
    rw [harm]
    exact .external

end DriveComponent

end Questix.MotorControl
