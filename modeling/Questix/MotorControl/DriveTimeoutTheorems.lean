/-
Questix.MotorControl.DriveTimeoutTheorems — a command that is not renewed in
time ends in a stop, and the drive then waits for neutral.

Two callbacks can notice that the time is up: the control tick, which looks
at the age of the target, and a late twist, which is judged by the re-arm
latch and leaves the stop to the tick. They agree because, with the gate open
and the motors healthy, nothing but a safety stop touches what an accepted
command left behind (`Arming.Held`).
-/
import Questix.MotorControl.DriveRearmTheorems

namespace Questix.MotorControl

open Questix.Lib Questix.Safety
open Questix.CommandArbiter (Twist)

/-! ## What an accepted command leaves behind -/

/-- An observation in favour of moving: an open gate, healthy motors. -/
def Effect.calm : Effect → Bool
  | .gate block => decide (block = .kNone)
  | .health healthy => healthy
  | _ => true

def Calm (out : List Effect) : Prop := ∀ e ∈ out, e.calm = true

instance (out : List Effect) : Decidable (Calm out) :=
  inferInstanceAs (Decidable (∀ e ∈ out, e.calm = true))

theorem Calm.gate {out : List Effect} (h : Calm out) (block : Block)
    (hmem : .gate block ∈ out) : block = .kNone := by
  simpa [Effect.calm] using h _ hmem

theorem Calm.health {out : List Effect} (h : Calm out) : .health false ∉ out := by
  intro hmem
  exact absurd (h _ hmem) (by simp [Effect.calm])

/-- A safety stop is sent to the motors. -/
def StopsNow (out : List Effect) : Prop := ∃ sent, .safetyStop (some sent) ∈ out

namespace Arming

variable {a a' : Arming} {out : List Effect} {stamp : ℚ}

/-- The command recorded at `stamp` is still the target, and still the last
one heard. -/
structure Held (stamp : ℚ) (a : Arming) : Prop where
  hasTarget : a.hasTarget = true
  heard : a.rearm.heard = true
  acceptedAt : a.rearm.acceptedAt ≤ stamp
  cmdTime : a.cmdTime = stamp
  wired : a.wired = true

theorem held_taken {now : ℚ} (hwired : a.wired = true) (h : now ≤ stamp) :
    (a.taken now stamp).Held stamp where
  hasTarget := rfl
  heard := rfl
  acceptedAt := h
  cmdTime := rfl
  wired := hwired

theorem Held.expired {now : ℚ} (h : a.Held stamp) (hpos : 0 < a.cmdTimeoutSec)
    (hlate : a.cmdTimeoutSec < .fin (now - stamp)) : a.rearm.expired now a.cmdTimeoutSec = true := by
  have hage : a.cmdTimeoutSec < .fin (now - a.rearm.acceptedAt) := by
    have hle := h.acceptedAt
    cases hto : a.cmdTimeoutSec with
    | fin q =>
      rw [hto] at hlate
      simp only [Dbl.fin_lt_fin] at hlate ⊢
      linarith
    | _ =>
      rw [hto] at hlate
      exact hlate
  simp [Rearm.expired, h.heard, hpos, hage]

theorem Gate.of_calm {block : Block} (h : Gate a block out a')
    (hcalm : ∀ b, .gate b ∈ out → b = .kNone) : a' = a ∧ block = .kNone := by
  have hopen := hcalm block ((h.spec.2.1 block).2 rfl)
  cases h with
  | opened => exact ⟨rfl, rfl⟩
  | disarmed _ hclosed => exact absurd hopen hclosed
  | stop _ _ hclosed => exact absurd hopen hclosed

theorem Held.retry (h : Retry a out a') (hheld : a.Held stamp) : a'.Held stamp := by
  cases h with
  | quiet => exact hheld
  | retry => exact ⟨hheld.hasTarget, hheld.heard, hheld.acceptedAt, hheld.cmdTime, hheld.wired⟩

theorem stopsNow_of_isSome {sent : Option Sent} (h : sent.isSome = true)
    (hmem : .safetyStop sent ∈ out) : StopsNow out := by
  obtain ⟨sent', rfl⟩ := Option.isSome_iff_exists.1 h
  exact ⟨sent', hmem⟩

theorem Held.act {now : ℚ} (h : Act a .kNone now out a') (hheld : a.Held stamp)
    (hcalm : .health false ∉ out) :
    StopsNow out ∨ a' = a ∧
      shouldTimeoutStop (.fin (now - stamp)) a.cmdTimeoutSec true = false := by
  cases h with
  | owed sent _ hsome =>
    rw [hheld.wired] at hsome
    exact .inl (stopsNow_of_isSome hsome (by simp))
  | idle healthy _ _ hidle =>
    cases healthy with
    | true =>
      have hnone := hidle rfl rfl
      rw [hheld.hasTarget] at hnone
      cases hnone
    | false => exact absurd (by simp) hcalm
  | stop _ _ sent _ _ hsome =>
    rw [hheld.wired] at hsome
    exact .inl (stopsNow_of_isSome hsome (by simp))
  | drive _ _ _ _ htime =>
    rw [hheld.cmdTime] at htime
    exact .inr ⟨rfl, htime⟩

theorem Held.tick {now : ℚ} (h : Tick a now out a') (hheld : a.Held stamp) (hcalm : Calm out) :
    StopsNow out ∨ a'.Held stamp ∧
      shouldTimeoutStop (.fin (now - stamp)) a.cmdTimeoutSec true = false := by
  obtain ⟨hretry, hgate, hact⟩ := h
  rename_i a₁ a₂ block retried gated acted
  have hheld₁ := hheld.retry hretry
  obtain ⟨rfl, rfl⟩ := hgate.of_calm (fun b hb => hcalm.gate b (by simp [hb]))
  have htimeout : a₂.cmdTimeoutSec = a.cmdTimeoutSec := by cases hretry <;> rfl
  rcases hheld₁.act hact (fun hh => hcalm.health (by simp [hh])) with ⟨sent, hstop⟩ | ⟨rfl, htime⟩
  · exact .inl ⟨sent, by simp [hstop]⟩
  · rw [htimeout] at htime
    exact .inr ⟨hheld₁, htime⟩

theorem Held.step {M : Type} {e : DriveEvent M} (h : Step a e out a') (hheld : a.Held stamp)
    (hcalm : Calm out) (hgo : ¬ StopsNow out)
    (hrefused : ∀ d, d.accepted = true → .verdict d ∉ out) : a'.Held stamp := by
  cases h with
  | twist h =>
    cases h with
    | inactive => exact hheld
    | closed block hclosed => exact absurd (hcalm.gate block (by simp)) hclosed
    | owed => exact hheld
    | inhibited => exact absurd (by simp) hcalm.health
    | late => exact ⟨hheld.hasTarget, hheld.heard, hheld.acceptedAt, hheld.cmdTime, hheld.wired⟩
    | refused => exact hheld
    | neutral => exact absurd (by simp) (hrefused .kNeutral rfl)
    | accept => exact absurd (by simp) (hrefused .kAccept rfl)
  | emergencyStop h =>
    cases h with
    | gated hgate =>
      obtain ⟨rfl, -⟩ := hgate.of_calm hcalm.gate
      exact hheld
    | pressed sent hsome =>
      rw [hheld.wired] at hsome
      exact absurd (stopsNow_of_isSome hsome (by simp)) hgo
  | motionPermission h =>
    obtain ⟨rfl, -⟩ := h.of_calm hcalm.gate
    exact hheld
  | tick h =>
    rcases hheld.tick h hcalm with hstop | ⟨hheld', -⟩
    · exact absurd hstop hgo
    · exact hheld'
  | external => exact hheld

/-- A command that is taken is a twist, and is what the node holds after it. -/
theorem Step.of_accepts {M : Type} {e : DriveEvent M} (h : Step a e out a') {d : Decision}
    (hd : d.accepted = true) (hmem : .verdict d ∈ out) :
    ∃ msg now stamp steadyNow, e = .twist msg now stamp steadyNow ∧ a' = a.taken now stamp ∧
      a.wired = true ∧ a.rearm.expired now a.cmdTimeoutSec = false := by
  have hgate : ∀ {b b' : Arming} {block : Block} {out' : List Effect},
      Gate b block out' b' → .verdict d ∉ out' := by
    intro b b' block out' hg
    cases hg <;> simp
  cases h with
  | @twist msg now stamp steadyNow _ _ h =>
    cases h with
    | inactive => simp at hmem
    | closed => simp at hmem
    | owed => simp at hmem
    | inhibited =>
      obtain rfl : d = .kInhibited := by simpa using hmem
      cases hd
    | late =>
      obtain rfl : d = .kTimeout := by simpa using hmem
      cases hd
    | refused d' _ hd' =>
      obtain rfl : d = d' := by simpa using hmem
      rw [hd] at hd'
      cases hd'
    | neutral _ _ hwired hex => exact ⟨msg, now, stamp, steadyNow, rfl, rfl, hwired, hex⟩
    | accept _ _ hwired hex => exact ⟨msg, now, stamp, steadyNow, rfl, rfl, hwired, hex⟩
  | emergencyStop h =>
    cases h with
    | gated hg => exact absurd hmem (hgate hg)
    | pressed sent _ hg =>
      simp only [List.mem_cons, reduceCtorEq, false_or] at hmem
      exact absurd hmem (hgate hg)
  | motionPermission h => exact absurd hmem (hgate h)
  | tick h =>
    obtain ⟨hretry, hg, hact⟩ := h
    have hretried : ∀ {b b' : Arming} {out' : List Effect}, Retry b out' b' → .verdict d ∉ out' := by
      intro b b' out' hr
      cases hr <;> simp
    simp only [List.mem_append, hretried hretry, hgate hg, hact.no_verdict, or_false] at hmem
  | external => simp at hmem

theorem Held.not_taken {M : Type} {e : DriveEvent M} (h : Step a e out a') (hheld : a.Held stamp)
    (hpos : 0 < a.cmdTimeoutSec) {now : ℚ} (hnow : e.rosReadings.head? = some now)
    (hlate : a.cmdTimeoutSec < .fin (now - stamp)) :
    ∀ d, d.accepted = true → .verdict d ∉ out := by
  intro d hd hmem
  obtain ⟨msg, now', stamp', steadyNow, rfl, -, -, hex⟩ := h.of_accepts hd hmem
  obtain rfl : now' = now := by simpa [DriveEvent.rosReadings] using hnow
  rw [hheld.expired hpos hlate] at hex
  cases hex

/-! ## After a stop -/

theorem Gate.no_target {block : Block} (h : Gate a block out a') (hnone : a.hasTarget = false) :
    a'.hasTarget = false := by
  cases h with
  | opened => exact hnone
  | disarmed => exact hnone
  | stop => rfl

theorem Step.no_target {M : Type} {e : DriveEvent M} (h : Step a e out a') (ha : a.Consistent)
    (hnone : a.hasTarget = false) :
    a'.hasTarget = false ∨
    ((∃ msg now stamp steadyNow, e = .twist msg now stamp steadyNow ∧
      MotorControl.neutral msg.linear msg.angular a.linearBand a.angularBand = true) ∧
      out = [.gate .kNone, .health true, .verdict .kNeutral]) := by
  cases h with
  | @twist msg now stamp steadyNow _ _ h =>
    cases h with
    | neutral _ _ _ _ _ hband => exact .inr ⟨⟨msg, now, stamp, steadyNow, rfl, hband⟩, rfl⟩
    | accept _ _ _ _ harmed =>
      rw [ha.armed harmed] at hnone
      cases hnone
    | _ => exact .inl hnone
  | emergencyStop h =>
    left
    cases h with
    | gated hgate => exact hgate.no_target hnone
    | pressed sent _ hgate => exact hgate.no_target rfl
  | motionPermission h => exact .inl (h.no_target hnone)
  | tick h =>
    obtain ⟨hretry, hgate, hact⟩ := h
    rw [← hretry.spec.2.2] at hnone
    exact .inl (hact.spec.2 (hgate.no_target hnone)).2
  | external => exact .inl hnone

theorem Step.no_target_of_stops {M : Type} {e : DriveEvent M} (h : Step a e out a')
    (hstop : StopsNow out) : a'.hasTarget = false := by
  obtain ⟨sent, hstop⟩ := hstop
  cases h with
  | twist h => cases h <;> simp at hstop
  | emergencyStop h =>
    cases h with
    | gated hgate => cases hgate <;> first | rfl | simp at hstop
    | pressed sent _ hgate => exact hgate.no_target rfl
  | motionPermission h => cases h <;> first | rfl | simp at hstop
  | tick h =>
    obtain ⟨hretry, hgate, hact⟩ := h
    simp only [List.mem_append] at hstop
    rcases hstop with (hstop | hstop) | hstop
    · cases hretry <;> simp at hstop
    · cases hgate with
      | stop => exact (hact.spec.2 rfl).2
      | _ => simp at hstop
    · cases hact with
      | owed => rfl
      | stop => rfl
      | idle _ _ _ _ hpolled => rcases hpolled with rfl | rfl <;> simp at hstop
      | drive _ _ _ _ _ hsends => cases hsends <;> simp at hstop
  | external => simp at hstop

theorem Gate.cmdTimeoutSec {block : Block} (h : Gate a block out a') :
    a'.cmdTimeoutSec = a.cmdTimeoutSec := by
  cases h <;> rfl

theorem Step.cmdTimeoutSec {M : Type} {e : DriveEvent M} (h : Step a e out a') :
    a'.cmdTimeoutSec = a.cmdTimeoutSec := by
  cases h with
  | twist h => cases h <;> rfl
  | emergencyStop h =>
    cases h with
    | gated hgate => exact hgate.cmdTimeoutSec
    | pressed sent _ hgate => exact hgate.cmdTimeoutSec
  | motionPermission h => exact h.cmdTimeoutSec
  | tick h =>
    obtain ⟨hretry, hgate, hact⟩ := h
    have hretried : _ = a.cmdTimeoutSec := hgate.cmdTimeoutSec.trans (by cases hretry <;> rfl)
    rw [← hretried]
    cases hact with
    | idle healthy => cases healthy <;> rfl
    | _ => rfl
  | external => rfl

end Arming

/-! ## Runs -/

theorem Timely.le_stamp {M : Type} {es : List (DriveEvent M)} {msg : Twist}
    {now stamp steadyNow : ℚ} (h : Timely es) (hmem : .twist msg now stamp steadyNow ∈ es) :
    now ≤ stamp := by
  have hp := (List.pairwise_flatMap.1 h.ros).1 _ hmem
  simpa [DriveEvent.rosReadings] using hp

namespace DriveComponent

variable {M C : Type} [MotorLibrary M] [Core C] {s : DriveComponent M C}
  {es : List (DriveEvent M)}

/-- The step takes a command. -/
def Accepts (t : Step (DriveComponent M C) (DriveEvent M) (List Effect)) : Prop :=
  ∃ d, d.accepted = true ∧ .verdict d ∈ t.out

/-- The step comes later than the timeout after the command taken at `a`. -/
def Overdue (a t : Step (DriveComponent M C) (DriveEvent M) (List Effect)) : Prop :=
  ∃ now, t.event.rosReadings.head? = some now ∧
    a.post.cmdTimeoutSec < .fin (now - a.post.lastCmdTime)

/-- `u` comes after the command taken at `a`, of which the steps `y` between
them hold no renewal in time. -/
structure After (a : Step (DriveComponent M C) (DriveEvent M) (List Effect))
    (y : List (Step (DriveComponent M C) (DriveEvent M) (List Effect)))
    (u : Step (DriveComponent M C) (DriveEvent M) (List Effect)) : Prop where
  taken : Accepts a
  notRenewed : ∀ r ∈ y, Accepts r → Overdue a r
  overdue : Overdue a u

/-- What the timeout means for a run. Once the time since the last command is
up: the next tick sends a stop and drives nothing, unless a stop was sent
already; until that stop no twist is taken, neutral or not; and a drive
command comes only after a stop, and after it a neutral command. After any
stop nothing is driven until a neutral command is taken. -/
structure TimeoutKept (s : DriveComponent M C) (es : List (DriveEvent M)) : Prop where
  tick : ∀ x a y u z, trace step s es = x ++ a :: (y ++ u :: z) → After a y u →
    (∀ p ∈ y, ¬ StopsNow p.out) → (∃ now steadyNow, u.event = .tick now steadyNow) →
    StopsNow u.out ∧ ¬ Drives u
  twist : ∀ x a y u z, trace step s es = x ++ a :: (y ++ u :: z) → After a y u →
    (∀ p ∈ y, ¬ StopsNow p.out) → ¬ Accepts u
  drive : ∀ x a y u z, trace step s es = x ++ a :: (y ++ u :: z) → After a y u → Drives u →
    ∃ y₁ p y₂, y = y₁ ++ p :: y₂ ∧ StopsNow p.out ∧ ∃ r ∈ y₂, AcceptsNeutral r
  stays : BlockedUntil (fun t => StopsNow t.out) Drives AcceptsNeutral (trace step s es)

theorem arming_of_mem {t : Step (DriveComponent M C) (DriveEvent M) (List Effect)}
    (ht : t ∈ trace step s es) : Arming.Step t.pre.arming t.event t.out t.post.arming := by
  rw [eq_stepOf_of_mem_trace ht]
  exact t.pre.step_arming t.event

theorem start_of_mem {t : Step (DriveComponent M C) (DriveEvent M) (List Effect)}
    (ht : t ∈ trace step s.resetCommandState es) :
    t.pre.arming.Consistent ∧ t.pre.cmdTimeoutSec = s.cmdTimeoutSec ∧
      t.post.cmdTimeoutSec = s.cmdTimeoutSec := by
  have hcons := trace_invariant (fun s => s.arming.Consistent) consistent_step es _
    s.consistent_resetCommandState t ht
  have htimeout := trace_invariant (fun s' => s'.cmdTimeoutSec = s.cmdTimeoutSec)
    (fun s' e h => (s'.step_arming e).cmdTimeoutSec.trans h) es s.resetCommandState rfl t ht
  exact ⟨hcons.1, htimeout.1, htimeout.2⟩

theorem stop_stays (s : DriveComponent M C) (es : List (DriveEvent M)) :
    BlockedUntil (fun t => StopsNow t.out) Drives AcceptsNeutral
      (trace step s.resetCommandState es) := by
  refine blockedUntil_trace (fun s => s.hasTarget = false) ?_ ?_ ?_
  · intro t ht hstop
    exact (arming_of_mem ht).no_target_of_stops hstop
  · intro t ht hnone hrel
    rcases (arming_of_mem ht).no_target (start_of_mem ht).1 hnone with hkeep | ⟨hband, hout⟩
    · exact hkeep
    · refine absurd ⟨hband, ?_, ?_, .kNeutral, rfl, ?_⟩ hrel
      all_goals rw [hout]; simp
  · intro t ht hnone hd
    have hstep := arming_of_mem ht
    obtain ⟨now, steadyNow, hev⟩ := hstep.tick_of_drives hd
    rw [hev] at hstep
    cases hstep with
    | tick h =>
      have htarget : t.pre.hasTarget = true := (h.of_drives (start_of_mem ht).1 hd).1
      rw [hnone] at htarget
      cases htarget

section Timeout

variable {a u : Step (DriveComponent M C) (DriveEvent M) (List Effect)}
  {x y z : List (Step (DriveComponent M C) (DriveEvent M) (List Effect))}

/-- What is taken for granted of a run: the clock is in order, the gate is
found open and the motors healthy at every step. -/
structure AllWell (s : DriveComponent M C) (es : List (DriveEvent M)) : Prop where
  timely : Timely es
  calm : ∀ t ∈ trace step s es, Calm t.out

/-- Until a stop, the command taken at `a` is what the node holds. -/
theorem held_of_after (hwell : AllWell s.resetCommandState es) (hpos : 0 < s.cmdTimeoutSec)
    (hsplit : trace step s.resetCommandState es = x ++ a :: (y ++ u :: z)) (h : After a y u)
    (hgo : ∀ p ∈ y, ¬ StopsNow p.out) : u.pre.arming.Held a.post.lastCmdTime := by
  have mem : ∀ t ∈ a :: (y ++ u :: z), t ∈ trace step s.resetCommandState es := by
    intro t ht
    rw [hsplit]
    exact List.mem_append_right _ ht
  -- the command taken at `a`
  have hstart : a.post.arming.Held a.post.lastCmdTime := by
    obtain ⟨d, hd, hmem⟩ := h.taken
    obtain ⟨msg, now, stamp, steadyNow, hev, hpost, hwired, -⟩ :=
      (arming_of_mem (mem a (by simp))).of_accepts hd hmem
    have hin : .twist msg now stamp steadyNow ∈ es := by
      rw [← map_event_trace step es s.resetCommandState, ← hev]
      exact List.mem_map_of_mem (mem a (by simp))
    have hstamp : a.post.lastCmdTime = stamp := congrArg Arming.cmdTime hpost
    rw [hstamp, hpost]
    exact Arming.held_taken hwired (hwell.timely.le_stamp hin)
  obtain ⟨_, _, es₂, _, _, _, hrest⟩ := trace_split hsplit
  obtain ⟨es₃, e, _, rfl, hy, hu, -⟩ := trace_split hrest.symm
  have hpre : u.pre = final step a.post es₃ := by
    rw [hu]
    rfl
  rw [hpre]
  refine final_of_no_release (L := fun s => s.arming.Held a.post.lastCmdTime)
    (fun t => StopsNow t.out) es₃ a.post hstart ?_ ?_
  · intro t ht hheld hgo
    rw [← hy] at ht
    have htrace := mem t (by simp [ht])
    refine hheld.step (arming_of_mem htrace) (hwell.calm t htrace) hgo ?_
    intro d hd hmem
    obtain ⟨now, hnow, hlate⟩ := h.notRenewed t ht ⟨d, hd, hmem⟩
    rw [(start_of_mem (mem a (by simp))).2.2, ← (start_of_mem htrace).2.1] at hlate
    rw [← (start_of_mem htrace).2.1] at hpos
    exact hheld.not_taken (arming_of_mem htrace) hpos hnow hlate d hd hmem
  · intro t ht
    rw [← hy] at ht
    exact hgo t ht

theorem overdue_of_after
    (hsplit : trace step s.resetCommandState es = x ++ a :: (y ++ u :: z)) (h : After a y u) :
    ∃ now, u.event.rosReadings.head? = some now ∧
      u.pre.cmdTimeoutSec < .fin (now - a.post.lastCmdTime) := by
  have ha : a ∈ trace step s.resetCommandState es := by simp [hsplit]
  have hu : u ∈ trace step s.resetCommandState es := by simp [hsplit]
  obtain ⟨now, hnow, hlate⟩ := h.overdue
  rw [(start_of_mem ha).2.2, ← (start_of_mem hu).2.1] at hlate
  exact ⟨now, hnow, hlate⟩

/-- The first tick after the time is up sends a stop, and drives nothing. -/
theorem tick_stops (hwell : AllWell s.resetCommandState es) (hpos : 0 < s.cmdTimeoutSec)
    (hsplit : trace step s.resetCommandState es = x ++ a :: (y ++ u :: z)) (h : After a y u)
    (hgo : ∀ p ∈ y, ¬ StopsNow p.out) (htick : ∃ now steadyNow, u.event = .tick now steadyNow) :
    StopsNow u.out ∧ ¬ Drives u := by
  have hu : u ∈ trace step s.resetCommandState es := by simp [hsplit]
  have hheld := held_of_after hwell hpos hsplit h hgo
  have hstep := arming_of_mem hu
  obtain ⟨now', hnow, hlate⟩ := overdue_of_after hsplit h
  obtain ⟨now, steadyNow, hev⟩ := htick
  rw [hev] at hstep hnow
  obtain rfl : now = now' := by simpa [DriveEvent.rosReadings] using hnow
  have hup : shouldTimeoutStop (.fin (now - a.post.lastCmdTime)) u.pre.cmdTimeoutSec true = true := by
    rw [← (start_of_mem hu).2.1] at hpos
    simp [shouldTimeoutStop, watchdogEnabled, hpos, hlate]
  cases hstep with
  | tick h =>
    constructor
    · rcases hheld.tick h (hwell.calm u hu) with hstop | ⟨-, htime⟩
      · exact hstop
      · have htime : shouldTimeoutStop (.fin (now - a.post.lastCmdTime)) u.pre.cmdTimeoutSec true =
          false := htime
        rw [hup] at htime
        cases htime
    · intro hd
      have htime := (h.of_drives (start_of_mem hu).1 hd).2.2.2
      rw [hheld.cmdTime] at htime
      have htime : shouldTimeoutStop (.fin (now - a.post.lastCmdTime)) u.pre.cmdTimeoutSec true =
        false := htime
      rw [hup] at htime
      cases htime

theorem twist_not_taken (hwell : AllWell s.resetCommandState es) (hpos : 0 < s.cmdTimeoutSec)
    (hsplit : trace step s.resetCommandState es = x ++ a :: (y ++ u :: z)) (h : After a y u)
    (hgo : ∀ p ∈ y, ¬ StopsNow p.out) : ¬ Accepts u := by
  have hu : u ∈ trace step s.resetCommandState es := by simp [hsplit]
  have hheld := held_of_after hwell hpos hsplit h hgo
  obtain ⟨now, hnow, hlate⟩ := overdue_of_after hsplit h
  rw [← (start_of_mem hu).2.1] at hpos
  rintro ⟨d, hd, hmem⟩
  exact hheld.not_taken (arming_of_mem hu) hpos hnow hlate d hd hmem

/-- In every run with the gate open and the motors healthy, a command that is
not renewed in time ends in a stop, and the drive waits for neutral. -/
theorem timeout_kept (s : DriveComponent M C) (es : List (DriveEvent M))
    (hwell : AllWell s.resetCommandState es) (hpos : 0 < s.cmdTimeoutSec) :
    TimeoutKept s.resetCommandState es where
  tick _ _ _ _ _ hsplit h hgo htick := tick_stops hwell hpos hsplit h hgo htick
  twist _ _ _ _ _ hsplit h hgo := twist_not_taken hwell hpos hsplit h hgo
  drive x a y u z hsplit h hd := by
    by_cases hstop : ∃ p ∈ y, StopsNow p.out
    · obtain ⟨p, hp, hstop⟩ := hstop
      obtain ⟨y₁, y₂, rfl⟩ := List.append_of_mem hp
      refine ⟨y₁, p, y₂, rfl, hstop, ?_⟩
      refine stop_stays s es (x ++ a :: y₁) p y₂ u z ?_ hstop hd
      simpa using hsplit
    · -- without a stop the tick that drives would have stopped
      push Not at hstop
      have hu : u ∈ trace step s.resetCommandState es := by simp [hsplit]
      have htick := (arming_of_mem hu).tick_of_drives hd
      exact absurd hd (tick_stops hwell hpos hsplit h hstop htick).2
  stays := stop_stays s es

/-- A node that has heard that it may move. -/
def permittedNode : DriveComponent SoundMotors OnOffCore :=
  { soundNode with
    estopMonitor := (soundNode.estopMonitor.receive false 0).1
    permissionMonitor := (soundNode.permissionMonitor.receive true 0).1 }

/-- Forward is commanded at 0.2 s and not again in time. A late twist comes
before the tick that stops, a neutral one some time after it. -/
def silentForward : List (DriveEvent SoundMotors) :=
  [.twist ⟨0, 0⟩ (1 / 10) (1 / 10) (1 / 10),
    .twist ⟨.fin (3 / 10), 0⟩ (2 / 10) (2 / 10) (2 / 10), .tick (3 / 10) (3 / 10),
    .motionPermission true (4 / 10), .motionPermission true (8 / 10), .emergencyStop false (9 / 10),
    .motionPermission true (12 / 10), .twist ⟨.fin (3 / 10), 0⟩ (121 / 100) (121 / 100) (121 / 100),
    .tick (122 / 100) (122 / 100),
    .twist ⟨.fin (3 / 10), 0⟩ (123 / 100) (123 / 100) (123 / 100), .tick (124 / 100) (124 / 100),
    .twist ⟨0, 0⟩ (125 / 100) (125 / 100) (125 / 100),
    .twist ⟨.fin (3 / 10), 0⟩ (126 / 100) (126 / 100) (126 / 100), .tick (127 / 100) (127 / 100)]

theorem timeout_kept_silent : TimeoutKept permittedNode.resetCommandState silentForward :=
  timeout_kept permittedNode silentForward
    ⟨⟨by decide +kernel, by decide +kernel⟩, by decide +kernel⟩ (by decide)

/-- The wheels turn before the time is up and after the neutral command, and
the tick in between stops them. -/
example : (permittedNode.effects silentForward).filter (fun e => e.drives || e.stopSucceeded) =
    [.drive 60 60 ⟨true, true⟩, .safetyStop (some ⟨true, true⟩), .drive 60 60 ⟨true, true⟩] := by
  decide +kernel

end Timeout

end DriveComponent

end Questix.MotorControl
