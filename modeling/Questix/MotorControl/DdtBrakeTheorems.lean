/-
Questix.MotorControl.DdtBrakeTheorems — when a stop leaves the brake on.

`stopMotor` returns true for a stop it did not send: the last frame that left
was a zero command and a stop was recorded within the resend interval. A zero
command without the brake is a zero command too, so what decides is which of
the two the last frame was. `lastLeft` reads it off the effects; the library's
own record agrees with it as long as it has one (`recorded_run`).
-/
import Questix.MotorControl.DdtEvidenceTheorems

namespace Questix.MotorControl

open Questix.Lib Questix.Lib.Act DdtBus DdtMotorLib

/-! ## The last frame that left -/

def DdtProtocol.carriesBrake (frame : List UInt8) : Bool := frame[7]? == some 0xFF

/-- The last command that left for a motor, after one more effect. -/
def leaveCommand (motorId : Int) (last : Option (List UInt8)) (e : BusEffect) :
    Option (List UInt8) :=
  match e.commandTo motorId with
  | some (frame, .drained) => some frame
  | _ => last

/-- The last command frame that was sent to a motor: taken whole and gone. -/
def lastLeft (motorId : Int) (out : List BusEffect) : Option (List UInt8) :=
  out.foldl (leaveCommand motorId) none

/-- A zero command with the brake. -/
def BrakeFrame (frame : List UInt8) : Prop :=
  DdtProtocol.isZeroCommandFrame frame = true ∧ DdtProtocol.carriesBrake frame = true

/-- The last frame sent to the motor is a zero command with the brake. -/
def Braked (motorId : Int) (out : List BusEffect) : Prop :=
  ∃ frame, lastLeft motorId out = some frame ∧ BrakeFrame frame

/-- A call of `stopMotor` that returns true leaves the brake on. -/
def StopBrakes (motorId : Int) (past : List BusEffect) (s : DdtMotorLib) : Prop :=
  (stopMotor motorId s).1 = true → Braked motorId (past ++ (stopMotor motorId s).2.2)

/-- The call runs `stopMotor` for the motor. -/
def StopsMotor (motorId : Int) (op : Op) : Prop := op = .stopMotor motorId ∨ op = .stopAllMotors

/-- A velocity command came, and no `stopMotor` since. -/
def DrivenSinceStop (motorId : Int) (ops : List Op) : Prop :=
  ∃ x rpm y, ops = x ++ .setMotorVelocity motorId rpm :: y ∧ ∀ op ∈ y, ¬ StopsMotor motorId op

/-- The first call of `stopMotor` after a velocity command sends the brake, if
it returns true. -/
def FirstStopTransmits (motorId : Int) (ops : List Op) (s : DdtMotorLib) : Prop :=
  DrivenSinceStop motorId ops → (stopMotor motorId s).1 = true →
    ∃ frame lib, .wrote (some motorId) frame .drained lib ∈ (stopMotor motorId s).2.2 ∧
      BrakeFrame frame

/-- The throttle holds a stop back: the last frame sent is a zero command and
a stop was recorded less than the interval ago. -/
def HeldBack (motorId : Int) (s : DdtMotorLib) : Prop :=
  s.lastSentFrameIsZero motorId = true ∧ 0 < s.stopResendIntervalMs ∧
    ∃ last, s.lastStopSendTime[motorId]? = some last ∧
      toMilliseconds (s.port.nextTime.1 - last) < s.stopResendIntervalMs

variable {motorId : Int} {past : List BusEffect} {s : DdtMotorLib}

theorem lastLeft_append (past out : List BusEffect) :
    lastLeft motorId (past ++ out) = out.foldl (leaveCommand motorId) (lastLeft motorId past) := by
  simp only [lastLeft, List.foldl_append]

theorem lastLeft_of_no_command {out : List BusEffect}
    (hout : ∀ e ∈ out, e.commandTo motorId = none) :
    lastLeft motorId (past ++ out) = lastLeft motorId past := by
  rw [lastLeft_append]
  generalize lastLeft motorId past = last
  induction out with
  | nil => rfl
  | cons e out ih =>
    have he := hout e (by simp)
    simp only [List.foldl_cons, leaveCommand, he]
    exact ih fun e he => hout e (by simp [he])

/-! ## The library's record -/

section Record

variable {P : DdtMotorLib → Prop} {id : Int} {frame : List UInt8} {ok : Bool}
  {out : List BusEffect}

theorem leave_tries (h : Tries P motorId frame ok out)
    (hcmd : DdtProtocol.isCommandFrame frame = true) (last : Option (List UInt8)) :
    out.foldl (leaveCommand motorId) last = if ok then some frame else last := by
  induction h with
  | gaveUp => rfl
  | again _ _ ih =>
    rw [List.foldl_cons, leaveCommand, commandTo_wrote_self hcmd]
    exact ih
  | cut => simp [leaveCommand, commandTo_wrote_self hcmd]
  | sent => simp [leaveCommand, commandTo_wrote_self hcmd]

theorem leave_tries_other (h : Tries P id frame ok out) (hne : id ≠ motorId)
    (last : Option (List UInt8)) : out.foldl (leaveCommand motorId) last = last := by
  induction h with
  | gaveUp => rfl
  | again _ _ ih =>
    rw [List.foldl_cons, leaveCommand, commandTo_wrote_other hne]
    exact ih
  | cut => simp [leaveCommand, commandTo_wrote_other hne]
  | sent => simp [leaveCommand, commandTo_wrote_other hne]

/-- The record of the last frame, where there is one, is that of the effects. -/
def Recorded (motorId : Int) (past : List BusEffect) (k : Known) : Prop :=
  k.evidence motorId = none ∨ k.evidence motorId = lastLeft motorId past

theorem Recorded.tries {k : Known} (h : Recorded motorId past k) (htries : Tries P id frame ok out)
    (hcmd : DdtProtocol.isCommandFrame frame = true) :
    Recorded motorId (past ++ out) (if ok then k.sent id frame else k) := by
  unfold Recorded at h ⊢
  rw [lastLeft_append]
  by_cases hid : id = motorId
  · subst hid
    rw [leave_tries htries hcmd]
    cases ok with
    | false => exact h
    | true => exact .inr (by simp [Known.sent])
  · rw [leave_tries_other htries hid]
    cases ok with
    | false => exact h
    | true =>
      have hother : (k.sent id frame).evidence motorId = k.evidence motorId :=
        Function.update_of_ne (Ne.symm hid) _ _
      rw [if_pos rfl, hother]
      exact h

theorem Recorded.of_no_command {k k' : Known} (h : Recorded motorId past k)
    (hout : ∀ e ∈ out, e.commandTo motorId = none)
    (hk : k'.evidence motorId = k.evidence motorId) : Recorded motorId (past ++ out) k' := by
  unfold Recorded
  rw [lastLeft_of_no_command hout, hk]
  exact h

theorem recorded_move {b b' : Bus} (h : Recorded motorId past b.known) (hmove : Move b out b') :
    Recorded motorId (past ++ out) b'.known := by
  cases hmove with
  | quiet => exact h.of_no_command (by simp) rfl
  | setting _ frame handover lib noCommand =>
    refine h.of_no_command ?_ rfl
    intro e he
    obtain rfl := List.mem_singleton.1 he
    exact commandTo_setting noCommand handover lib
  | zero inCall isZero tries => exact h.tries tries (DdtProtocol.isCommandFrame_of_zero isZero)
  | @drive k id frame ok _ isCommand tries =>
    have hsent := h.tries tries isCommand
    cases ok <;> exact hsent
  | trip => exact h.of_no_command (by simp [BusEffect.commandTo]) rfl
  | clear => exact h.of_no_command (by simp [BusEffect.commandTo]) rfl
  | begin => exact h.of_no_command (by simp) rfl
  | abandon => exact h.of_no_command (by simp) rfl
  | initialized => exact h.of_no_command (by simp [BusEffect.commandTo]) rfl
  | close => exact .inl rfl

theorem recorded_run (motorId : Int) (port : Port) (ops : List Op) :
    Recorded motorId (effects (new port) ops) (known (final step (new port) ops)) := by
  induction ops using List.reverseRecOn with
  | nil => exact .inl rfl
  | append_singleton ops op ih =>
    rw [effects_append_one, final_append]
    obtain ⟨ok, hwalk⟩ := refines (final step (new port) ops) op
    exact hwalk.invariant (I := fun past b => Recorded motorId past b.known)
      (fun _ _ _ _ => recorded_move) _ ih

end Record

/-! ## One stop -/

theorem wp_throttle {Q : Bool → List BusEffect → DdtMotorLib → Prop}
    (held : HeldBack motorId s → ∀ port, Q true past { s with port := port })
    (free : ¬ HeldBack motorId s → ∀ port, Q false past { s with port := port }) :
    wp (stopThrottled motorId) Q past s := by
  simp only [stopThrottled, wp_bind, wp_get, wp_ite, wp_pure]
  split
  · rename_i hzero
    rw [Bool.and_eq_true, decide_eq_true_eq] at hzero
    simp only [steadyNow, wp, answer, List.append_nil]
    rcases hlast : s.lastStopSendTime[motorId]? with _ | last
    · refine free ?_ _
      rintro ⟨-, -, last, hsome, -⟩
      rw [hlast] at hsome
      cases hsome
    · by_cases hrecent : toMilliseconds (s.port.nextTime.1 - last) < s.stopResendIntervalMs
      · simp only [Option.any_some, hrecent, decide_true]
        exact held ⟨hzero.1, hzero.2, last, hlast, hrecent⟩ _
      · simp only [Option.any_some, hrecent, decide_false]
        refine free ?_ _
        rintro ⟨-, -, last', hsome, hlt⟩
        rw [hlast] at hsome
        cases hsome
        exact hrecent hlt
  · rename_i hzero
    refine free ?_ s.port
    rintro ⟨hlast, hinterval, -⟩
    exact hzero (by simp [hlast, hinterval])

theorem wp_stopMotor (hmode : s.inCurrentMode motorId = false) :
    wp (stopMotor motorId)
      (fun ok past' _ => HeldBack motorId s ∧ ok = true ∧ past' = past ∨
        ¬ HeldBack motorId s ∧ ∃ out, past' = past ++ out ∧
          Tries (fun _ => True) motorId (s.velocityFrame motorId 0 s.brakeOnStop) ok out)
      past s := by
  simp only [stopMotor, wp_bind, wp_get, wp_ite, hmode, Bool.false_eq_true, ↓reduceIte, wp_modify,
    wp_pure]
  refine wp_throttle ?_ ?_
  · intro hheld port
    exact .inl ⟨hheld, trivial, rfl⟩
  · intro hfree port
    simp only [Bool.false_eq_true, ↓reduceIte, sendStop, sendMotorVelocity, wp_bind, wp_get,
      clampRpm_zero]
    refine wp_mono (wp_sendFrameWithFeedback (P := fun _ => True) _ (fun _ => trivial) rfl) ?_
    rintro ok _ s' ⟨⟨out, rfl, htries⟩, -⟩
    simp only [wp_modify, wp_pure]
    cases ok with
    | false =>
      simp only [Bool.false_eq_true, ↓reduceIte, wp_pure]
      exact .inr ⟨hfree, out, rfl, htries⟩
    | true =>
      simp only [↓reduceIte, wp_bind]
      refine wp_answer ?_
      intro now port
      simp only [wp_modify, wp_pure]
      exact .inr ⟨hfree, out, rfl, htries⟩

theorem sent_mem {P : DdtMotorLib → Prop} {frame : List UInt8} {out : List BusEffect}
    (h : Tries P motorId frame true out) :
    ∃ lib, .wrote (some motorId) frame .drained lib ∈ out := by
  generalize hok : true = ok at h
  induction h with
  | gaveUp => cases hok
  | again _ _ ih =>
    obtain ⟨lib, hlib⟩ := ih hok
    exact ⟨lib, List.mem_cons_of_mem _ hlib⟩
  | cut => cases hok
  | sent => exact ⟨_, List.mem_singleton.2 rfl⟩

theorem brakeFrame_stop (hbrake : s.brakeOnStop = true) :
    BrakeFrame (s.velocityFrame motorId 0 s.brakeOnStop) := by
  rw [hbrake]
  exact ⟨DdtProtocol.isZeroCommandFrame_velocity.2 rfl, rfl⟩

theorem lastLeft_of_zero (h : Recorded motorId past (known s))
    (hzero : s.lastSentFrameIsZero motorId = true) :
    ∃ frame, lastLeft motorId past = some frame ∧
      DdtProtocol.isZeroCommandFrame frame = true := by
  unfold lastSentFrameIsZero at hzero
  rcases hframe : s.lastSentFrames[motorId]? with _ | frame
  · rw [hframe] at hzero
    cases hzero
  · rw [hframe, Option.any_some] at hzero
    refine ⟨frame, ?_, hzero⟩
    rcases h with hnone | hleft
    · simp only [known, hframe] at hnone
      cases hnone
    · rw [← hleft]
      exact hframe

/-- What a stop that is held back, or sent, means for the brake. -/
theorem stop_brakes (hmode : s.inCurrentMode motorId = false) (hbrake : s.brakeOnStop = true)
    (hrecord : Recorded motorId past (known s)) (ops : List Op) :
    StopBrakes motorId past s ∧ FirstStopTransmits motorId ops s ↔
      (HeldBack motorId s → (∀ frame, lastLeft motorId past = some frame →
        DdtProtocol.carriesBrake frame = true) ∧ ¬ DrivenSinceStop motorId ops) := by
  have hstop := @wp_stopMotor motorId [] s hmode
  rcases hstop with ⟨hheld, hok, hout⟩ | ⟨hfree, out, hout, htries⟩
  · -- nothing is sent, and the call returns true
    obtain ⟨frame, hleft, hzero⟩ := lastLeft_of_zero hrecord hheld.1
    rw [List.nil_append] at hout
    unfold StopBrakes FirstStopTransmits
    rw [hout, List.append_nil]
    constructor
    · rintro ⟨hbrakes, htransmits⟩ -
      refine ⟨?_, ?_⟩
      · intro frame' hframe'
        obtain ⟨frame'', hframe'', -, hcarries⟩ := hbrakes hok
        rw [hframe'] at hframe''
        cases hframe''
        exact hcarries
      · intro hdriven
        obtain ⟨_, _, hmem, -⟩ := htransmits hdriven hok
        cases hmem
    · intro h
      obtain ⟨hcarries, hdriven⟩ := h hheld
      exact ⟨fun _ => ⟨frame, hleft, hzero, hcarries frame hleft⟩, fun h => absurd h hdriven⟩
  · -- the frame is sent, if the call returns true
    rw [List.nil_append, List.nil_append] at hout
    have hcmd : DdtProtocol.isCommandFrame (s.velocityFrame motorId 0 s.brakeOnStop) = true :=
      DdtProtocol.isCommandFrame_velocity
    refine ⟨fun _ h => absurd h hfree, fun _ => ⟨?_, ?_⟩⟩
    · intro hok
      rw [hok] at htries
      refine ⟨s.velocityFrame motorId 0 s.brakeOnStop, ?_, brakeFrame_stop hbrake⟩
      rw [hout, lastLeft_append, leave_tries htries hcmd]
      rfl
    · intro _ hok
      rw [hok] at htries
      obtain ⟨lib, hlib⟩ := sent_mem htries
      rw [hout]
      exact ⟨_, lib, hlib, brakeFrame_stop hbrake⟩

/-! ## Every run -/

/-- After every run of calls: a stop keeps the brake, and the first one after
a velocity command sends it, exactly if the throttle does not hold it back, or
the last frame sent carries the brake and no velocity command came since the
last stop. -/
theorem stop_brakes_iff (motorId : Int) (port : Port) (ops : List Op)
    (hmode : (final step (new port) ops).inCurrentMode motorId = false)
    (hbrake : (final step (new port) ops).brakeOnStop = true) :
    StopBrakes motorId (effects (new port) ops) (final step (new port) ops) ∧
        FirstStopTransmits motorId ops (final step (new port) ops) ↔
      (HeldBack motorId (final step (new port) ops) →
        (∀ frame, lastLeft motorId (effects (new port) ops) = some frame →
          DdtProtocol.carriesBrake frame = true) ∧ ¬ DrivenSinceStop motorId ops) :=
  stop_brakes hmode hbrake (recorded_run motorId port ops) ops

/-- A device that takes every frame, and a clock that has gone 50 ms since the
stop when the next one comes. -/
def promptPort : Port where
  opens := [true]
  written := [10, 10, 10, 10]
  drained := [true, true, true, true]
  clock := [0, 1, 1, 51 / 50, 21 / 20]

/-- A motor is set up and stopped, then commanded to 0 rpm: that frame carries
no brake, and the next stop is held back. -/
def zeroAfterStop : List Op :=
  [.initializeLibrary, .initializeMotor 1 .velocity, .stopMotor 1, .setMotorVelocity 1 0]

theorem stop_brakes_iff_zeroAfterStop :
    (final step (new promptPort) zeroAfterStop).brakeOnStop = true ∧
    (StopBrakes 1 (effects (new promptPort) zeroAfterStop)
          (final step (new promptPort) zeroAfterStop) ∧
        FirstStopTransmits 1 zeroAfterStop (final step (new promptPort) zeroAfterStop) ↔
      (HeldBack 1 (final step (new promptPort) zeroAfterStop) →
        (∀ frame, lastLeft 1 (effects (new promptPort) zeroAfterStop) = some frame →
          DdtProtocol.carriesBrake frame = true) ∧ ¬ DrivenSinceStop 1 zeroAfterStop)) :=
  ⟨by decide, stop_brakes_iff 1 promptPort zeroAfterStop (by decide)
    (by decide)⟩

theorem zero_command_releases_brake :
    ¬ StopBrakes 1 (effects (new promptPort) zeroAfterStop)
      (final step (new promptPort) zeroAfterStop) := by
  intro h
  obtain ⟨frame, hframe, -, hcarries⟩ := h (by decide +kernel)
  have hlast : lastLeft 1 (effects (new promptPort) zeroAfterStop ++
      (stopMotor 1 (final step (new promptPort) zeroAfterStop)).2.2) =
      some (DdtProtocol.packVelocityFrame 1 0 50 false) := by decide +kernel
  rw [hlast] at hframe
  cases hframe
  exact absurd hcarries (by decide)

end Questix.MotorControl
