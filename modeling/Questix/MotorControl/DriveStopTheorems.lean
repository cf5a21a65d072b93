/-
Questix.MotorControl.DriveStopTheorems — a stop that could not be sent keeps
the drive still.

The stop fault is read off the effects alone, by an observer that follows
them (`faultAfter`). One invariant of the arming state carries the proof,
here and in the modules after this one: an armed drive has a target, and a
drive with a target has no stop in doubt.
-/
import Questix.MotorControl.DriveArming

namespace Questix.MotorControl

open Questix.Lib Questix.Safety
open Questix.CommandArbiter (Twist)

/-! ## The invariant -/

namespace Arming

variable {a a' a'' : Arming} {out out' : List Effect}

/-- An armed drive has a target; a drive with a target has no stop in doubt. -/
structure Consistent (a : Arming) : Prop where
  armed : a.rearm.needsNeutral = false → a.hasTarget = true
  trusted : a.hasTarget = true → a.stopFault = false

theorem consistent_stopped (a : Arming) (sent : Option Sent) : (a.stopped sent).Consistent where
  armed h := by simp at h
  trusted h := by simp at h

theorem Consistent.unheard (h : a.Consistent) : a.unheard.Consistent where
  armed hn := by simp [Arming.unheard] at hn
  trusted := h.trusted

theorem consistent_taken (hfault : a.stopFault = false) (now stamp : ℚ) :
    (a.taken now stamp).Consistent where
  armed _ := rfl
  trusted _ := hfault

theorem Gate.consistent {block : Block} (h : Gate a block out a') (ha : a.Consistent) :
    a'.Consistent := by
  cases h with
  | opened => exact ha
  | disarmed => exact ha
  | stop _ sent => exact consistent_stopped a sent

theorem Twist.consistent {msg : CommandArbiter.Twist} {now stamp : ℚ}
    (h : Twist a msg now stamp out a') (ha : a.Consistent) : a'.Consistent := by
  cases h with
  | inactive => exact ha
  | closed => exact ha.unheard
  | owed => exact ha
  | inhibited => exact ha.unheard
  | late =>
    constructor
    · intro hn
      cases hn
    · exact ha.trusted
  | refused => exact ha
  | neutral hfault => exact consistent_taken hfault now stamp
  | accept hfault => exact consistent_taken hfault now stamp

theorem Retry.consistent (h : Retry a out a') (ha : a.Consistent) : a'.Consistent := by
  cases h with
  | quiet => exact ha
  | retry sent hfault =>
    have hnone : a.hasTarget = false := by
      cases ht : a.hasTarget with
      | false => rfl
      | true =>
        rw [ha.trusted ht] at hfault
        cases hfault
    constructor
    · exact ha.armed
    · intro ht
      rw [hnone] at ht
      cases ht

theorem Act.consistent {block : Block} {now : ℚ} (h : Act a block now out a')
    (ha : a.Consistent) : a'.Consistent := by
  cases h with
  | owed sent => exact consistent_stopped a sent
  | idle healthy =>
    cases healthy with
    | true => exact ha
    | false => exact ha.unheard
  | stop _ _ sent => exact consistent_stopped a sent
  | drive => exact ha

theorem Tick.consistent {now : ℚ} (h : Tick a now out a') (ha : a.Consistent) :
    a'.Consistent := by
  obtain ⟨hretry, hgate, hact⟩ := h
  exact hact.consistent (hgate.consistent (hretry.consistent ha))

theorem Estop.consistent (h : Estop a out a') (ha : a.Consistent) : a'.Consistent := by
  cases h with
  | gated hgate => exact hgate.consistent ha
  | pressed sent _ hgate => exact hgate.consistent (consistent_stopped a sent)

theorem Step.consistent {M : Type} {e : DriveEvent M} (h : Step a e out a')
    (ha : a.Consistent) : a'.Consistent := by
  cases h with
  | twist h => exact h.consistent ha
  | emergencyStop h => exact h.consistent ha
  | motionPermission h => exact h.consistent ha
  | tick h => exact h.consistent ha
  | external => exact ha

/-! ## The stop fault -/

end Arming

namespace Effect

def drives : Effect → Bool
  | .drive _ _ _ => true
  | _ => false

/-- A stop whose zero did not reach both wheels. -/
def stopFailed : Effect → Bool
  | .safetyStop sent => failed sent
  | .stopRetry sent => !sent.both
  | _ => false

/-- A stop whose zero was sent to both wheels. -/
def stopSucceeded : Effect → Bool
  | .safetyStop (some sent) => sent.both
  | .stopRetry sent => sent.both
  | _ => false

end Effect

/-- The stop fault, as the effects show it. -/
def faultAfter (fault : Bool) : Effect → Bool
  | .safetyStop sent => fault || failed sent
  | .stopRetry sent => !sent.both
  | _ => fault

/-- Under a stop fault nothing is driven and the gate is not found open. -/
def Quiet (fault : Bool) (e : Effect) : Prop :=
  fault = true → e.drives = false ∧ e ≠ .gate .kNone

theorem quiet_of_no_fault {fault : Bool} (h : fault = false) (e : Effect) : Quiet fault e := by
  intro hf
  rw [h] at hf
  cases hf

theorem quiet_of_still {e : Effect} (fault : Bool) (hd : e.drives = false)
    (hg : e ≠ .gate .kNone) : Quiet fault e :=
  fun _ => ⟨hd, hg⟩

theorem quiet_gate {block : Block} (fault : Bool) (h : block ≠ .kNone) :
    Quiet fault (.gate block) := by
  refine quiet_of_still fault rfl ?_
  rintro ⟨⟩
  exact h rfl

namespace Arming

/-- The effects show the stop fault, and are quiet under it. -/
def Shows (a : Arming) (out : List Effect) (a' : Arming) : Prop :=
  Allowed faultAfter Quiet a.stopFault out ∧ out.foldl faultAfter a.stopFault = a'.stopFault

variable {a a' a'' : Arming} {out out' : List Effect}

theorem Shows.append (h : Shows a out a') (h' : Shows a' out' a'') : Shows a (out ++ out') a'' := by
  refine ⟨(allowed_append out out' _).2 ⟨h.1, ?_⟩, ?_⟩
  · rw [h.2]
    exact h'.1
  · rw [List.foldl_append, h.2]
    exact h'.2

theorem shows_stopped (a : Arming) (sent : Option Sent) :
    Shows a [.safetyStop sent] (a.stopped sent) :=
  ⟨⟨quiet_of_still _ rfl (by simp), trivial⟩, rfl⟩

theorem Gate.shows {block : Block} (h : Gate a block out a') : Shows a out a' := by
  cases h with
  | opened hfault => exact ⟨⟨quiet_of_no_fault hfault _, trivial⟩, rfl⟩
  | disarmed _ hclosed => exact ⟨⟨quiet_gate _ hclosed, trivial⟩, rfl⟩
  | stop _ sent hclosed =>
    have hgate : Shows a [.gate block] a := ⟨⟨quiet_gate _ hclosed, trivial⟩, rfl⟩
    exact hgate.append (shows_stopped a sent)

theorem shows_of_no_fault (hfault : a.stopFault = false) (hpost : a'.stopFault = false)
    (hout : ∀ e ∈ out, ∀ fault, faultAfter fault e = fault) : Shows a out a' := by
  unfold Shows
  rw [hfault, hpost]
  induction out with
  | nil => exact ⟨trivial, rfl⟩
  | cons e out ih =>
    obtain ⟨hok, hfold⟩ := ih (fun e he => hout e (by simp [he]))
    have he : faultAfter false e = false := hout e (by simp) false
    refine ⟨⟨quiet_of_no_fault rfl e, ?_⟩, ?_⟩
    · rw [he]
      exact hok
    · rw [List.foldl_cons, he]
      exact hfold

theorem Twist.shows {msg : CommandArbiter.Twist} {now stamp : ℚ}
    (h : Twist a msg now stamp out a') : Shows a out a' := by
  cases h with
  | inactive => exact ⟨trivial, rfl⟩
  | closed _ hclosed => exact ⟨⟨quiet_gate _ hclosed, trivial⟩, rfl⟩
  | owed hfault | inhibited hfault | late hfault | refused _ hfault | neutral hfault
  | accept hfault => exact shows_of_no_fault hfault hfault (by simp [faultAfter])

theorem Retry.shows (h : Retry a out a') : Shows a out a' := by
  cases h with
  | quiet => exact ⟨trivial, rfl⟩
  | retry sent => exact ⟨⟨quiet_of_still _ rfl (by simp), trivial⟩, rfl⟩

theorem Act.shows {block : Block} {now : ℚ} (h : Act a block now out a') (ha : a.Consistent) :
    Shows a out a' := by
  cases h with
  | owed sent =>
    have haction : Shows a [.action .kTimeoutStop] a :=
      ⟨⟨quiet_of_still _ rfl (by simp), trivial⟩, rfl⟩
    exact haction.append (shows_stopped a sent)
  | idle healthy polled _ _ hpolled =>
    have hpost : (if healthy then a else a.unheard).stopFault = a.stopFault := by
      cases healthy <;> rfl
    refine ⟨⟨quiet_of_still _ rfl (by simp), quiet_of_still _ rfl (by simp), ?_⟩, ?_⟩
    · rcases hpolled with rfl | rfl
      · trivial
      · exact ⟨quiet_of_still _ rfl (by simp), trivial⟩
    · rw [hpost]
      rcases hpolled with rfl | rfl <;> rfl
  | stop healthy action sent =>
    have haction : Shows a [.health healthy, .action action] a :=
      ⟨⟨quiet_of_still _ rfl (by simp), quiet_of_still _ rfl (by simp), trivial⟩, rfl⟩
    exact haction.append (shows_stopped a sent)
  | drive e _ htarget _ _ hsends =>
    have hfault := ha.trusted htarget
    refine shows_of_no_fault hfault hfault ?_
    cases hsends <;> simp [faultAfter]

theorem Tick.shows {now : ℚ} (h : Tick a now out a') (ha : a.Consistent) : Shows a out a' := by
  obtain ⟨hretry, hgate, hact⟩ := h
  exact (hretry.shows.append hgate.shows).append
    (hact.shows (hgate.consistent (hretry.consistent ha)))

theorem Estop.shows (h : Estop a out a') : Shows a out a' := by
  cases h with
  | gated hgate => exact hgate.shows
  | pressed sent _ hgate => exact (shows_stopped a sent).append hgate.shows

theorem Step.shows {M : Type} {e : DriveEvent M} (h : Step a e out a') (ha : a.Consistent) :
    Shows a out a' := by
  cases h with
  | twist h => exact h.shows
  | emergencyStop h => exact h.shows
  | motionPermission h => exact h.shows
  | tick h => exact h.shows ha
  | external => exact ⟨trivial, rfl⟩

/-! ## A tick with a closed gate -/

theorem Gate.spec {block : Block} (h : Gate a block out a') :
    (∀ e ∈ out, e.drives = false) ∧ (∀ b, .gate b ∈ out ↔ b = block) ∧
      (block ≠ .kNone → a'.hasTarget = false) := by
  cases h with
  | opened => exact ⟨by simp [Effect.drives], by simp, fun h => absurd rfl h⟩
  | disarmed _ _ hnone => exact ⟨by simp [Effect.drives], by simp, fun _ => hnone⟩
  | stop => exact ⟨by simp [Effect.drives], by simp, fun _ => rfl⟩

theorem Gate.of_hasTarget {block : Block} (h : Gate a block out a') (ht : a'.hasTarget = true) :
    block = .kNone ∧ a' = a := by
  cases h with
  | opened => exact ⟨rfl, rfl⟩
  | disarmed _ _ hnone =>
    rw [hnone] at ht
    cases ht
  | stop => cases ht

theorem Retry.spec (h : Retry a out a') :
    (∀ e ∈ out, e.drives = false) ∧ (∀ b, .gate b ∉ out) ∧ a'.hasTarget = a.hasTarget := by
  cases h with
  | quiet => exact ⟨by simp, by simp, rfl⟩
  | retry => exact ⟨by simp [Effect.drives], by simp, rfl⟩

theorem Act.spec {block : Block} {now : ℚ} (h : Act a block now out a') :
    (∀ b, .gate b ∉ out) ∧
      (a.hasTarget = false → (∀ e ∈ out, e.drives = false) ∧ a'.hasTarget = false) := by
  cases h with
  | owed => exact ⟨by simp, fun _ => ⟨by simp [Effect.drives], rfl⟩⟩
  | idle healthy _ _ _ hpolled =>
    refine ⟨by rcases hpolled with rfl | rfl <;> simp, fun hnone => ⟨?_, ?_⟩⟩
    · rcases hpolled with rfl | rfl <;> simp [Effect.drives]
    · cases healthy <;> exact hnone
  | stop => exact ⟨by simp, fun _ => ⟨by simp [Effect.drives], rfl⟩⟩
  | drive e _ htarget _ _ hsends =>
    refine ⟨by cases hsends <;> simp, fun hnone => ?_⟩
    rw [htarget] at hnone
    cases hnone

theorem Tick.of_closed {now : ℚ} {b : Block} (h : Tick a now out a') (hclosed : b ≠ .kNone)
    (hmem : .gate b ∈ out) : (∀ e ∈ out, e.drives = false) ∧ a'.hasTarget = false := by
  obtain ⟨hretry, hgate, hact⟩ := h
  obtain ⟨hretried, hnone, -⟩ := hretry.spec
  obtain ⟨hgated, hfound, hleft⟩ := hgate.spec
  obtain ⟨hnone', hacted⟩ := hact.spec
  simp only [List.mem_append, hnone, hnone', hfound, false_or, or_false] at hmem
  subst hmem
  obtain ⟨hacted, hpost⟩ := hacted (hleft hclosed)
  refine ⟨?_, hpost⟩
  intro e he
  simp only [List.mem_append] at he
  rcases he with (he | he) | he
  · exact hretried e he
  · exact hgated e he
  · exact hacted e he

end Arming

/-! ## Runs -/

namespace DriveComponent

variable {M C : Type} [Core C] {s : DriveComponent M C}

theorem consistent_resetCommandState (s : DriveComponent M C) :
    s.resetCommandState.arming.Consistent where
  armed h := by simp [arming, resetCommandState] at h
  trusted h := by simp [arming, resetCommandState] at h

variable [MotorLibrary M]

theorem consistent_step (s : DriveComponent M C) (e : DriveEvent M)
    (h : s.arming.Consistent) : (s.step e).1.arming.Consistent :=
  (s.step_arming e).consistent h

/-- The effects of a run, oldest first. -/
def effects (s : DriveComponent M C) (es : List (DriveEvent M)) : List Effect :=
  (trace step s es).flatMap Step.out

theorem shows_run (h : s.arming.Consistent) (es : List (DriveEvent M)) :
    Allowed faultAfter Quiet s.stopFault (s.effects es) ∧
      (s.effects es).foldl faultAfter s.stopFault = (final step s es).stopFault :=
  allowed_outputs (fun s => s.stopFault) (fun s => s.arming.Consistent) consistent_step
    (fun s e hs => (s.step_arming e).shows hs) es s h

/-- What a stop fault means for a run: after a stop that did not reach both
wheels nothing is driven and the gate is found closed until a stop reaches
both; until then the gate is closed in every state reached, at every time;
and a tick that finds the gate closed, for whatever reason, drives nothing
and leaves no target. -/
structure StopFaultHeld (s : DriveComponent M C) (es : List (DriveEvent M)) : Prop where
  blocked : BlockedUntil (fun e => e.stopFailed) (fun e => e.drives ∨ e = .gate .kNone)
    (fun e => e.stopSucceeded) (s.effects es)
  closed : ∀ x f y, s.effects es = x ++ f :: y → f.stopFailed →
    (∀ e ∈ y, ¬ e.stopSucceeded) → ∀ steadyNow, (final step s es).gate steadyNow ≠ .kNone
  ticks : ∀ t ∈ trace step s es, (∃ now steadyNow, t.event = .tick now steadyNow) →
    (∃ block, block ≠ .kNone ∧ .gate block ∈ t.out) →
    (∀ e ∈ t.out, e.drives = false) ∧ t.post.hasTarget = false

end DriveComponent

theorem faultAfter_stopFailed (fault : Bool) (e : Effect) (h : e.stopFailed = true) :
    faultAfter fault e = true := by
  cases e with
  | safetyStop sent =>
    have hs : failed sent = true := h
    simp [faultAfter, hs]
  | stopRetry sent => exact h
  | _ => cases h

theorem faultAfter_of_fault (fault : Bool) (e : Effect) (h : fault = true)
    (hs : ¬ e.stopSucceeded = true) : faultAfter fault e = true := by
  cases e with
  | safetyStop sent => simp [faultAfter, h]
  | stopRetry sent => simpa [Effect.stopSucceeded, faultAfter] using hs
  | _ => exact h

namespace DriveComponent

variable {M C : Type} [MotorLibrary M] [Core C]

/-- In every run of the node, from the start of an activation, a stop that did
not reach both wheels keeps the drive still. -/
theorem stopFault_held (s : DriveComponent M C) (es : List (DriveEvent M)) :
    StopFaultHeld s.resetCommandState es := by
  obtain ⟨hallowed, hfinal⟩ := shows_run s.consistent_resetCommandState es
  constructor
  · refine blockedUntil_of_allowed (fun fault => fault = true) faultAfter_stopFailed
      faultAfter_of_fault ?_ hallowed
    intro fault e hf hquiet hbad
    obtain ⟨hd, hg⟩ := hquiet hf
    rcases hbad with hbad | hbad
    · rw [hd] at hbad
      cases hbad
    · exact hg hbad
  · intro x f y heq hf hy steadyNow hopen
    have hfault : (final step s.resetCommandState es).stopFault = true := by
      rw [← hfinal, heq, List.foldl_append, List.foldl_cons]
      exact foldl_of_no_release _ faultAfter_of_fault y _ (faultAfter_stopFailed _ f hf) hy
    rw [stopFault_of_gate hopen] at hfault
    cases hfault
  · rintro t ht ⟨now, steadyNow, hev⟩ ⟨block, hclosed, hmem⟩
    have hstep := eq_stepOf_of_mem_trace ht
    have htick := t.pre.runControlTick_arming now steadyNow
    have hout : t.out = (t.pre.runControlTick now steadyNow).2 := by
      rw [hstep, hev]
      rfl
    have hpost : t.post = (t.pre.runControlTick now steadyNow).1 := by
      rw [hstep, hev]
      rfl
    rw [hout] at hmem ⊢
    rw [hpost]
    exact htick.of_closed hclosed hmem

end DriveComponent

end Questix.MotorControl
