/-
Questix.MotorControl.DdtGuardTheorems — what the current-mode guard keeps off
the bus.

Two facts, both inherited from the moves of the abstract bus:

  * a current that is not zero is only ever sent by a library that has no trip
    latched and a usable response of the motor in current mode, and within
    the limit (`PermittedCurrent`);
  * between a trip and its release every command sent to the motor is zero.
    The library need not hold the trip for that: a motor that could not be set
    up again has no mode, and is driven no more than one that tripped
    (`Latched`).
-/
import Questix.MotorControl.DdtRefinement

namespace Questix.MotorControl

open Questix.Lib DdtBus DdtMotorLib

/-! ## Effects -/

/-- A trip of a motor. -/
def BusEffect.isTrip (motorId : Int) : BusEffect → Bool
  | .tripped id _ => decide (id = motorId)
  | _ => false

/-- What releases a trip of a motor: it was initialised, or a setter cleared
the trips. -/
def BusEffect.isRelease (motorId : Int) : BusEffect → Bool
  | .initialized id _ => decide (id = motorId)
  | .tripsCleared => true
  | _ => false

/-- A command to a motor that is not zero. -/
def BusEffect.commandsMotion (motorId : Int) (e : BusEffect) : Bool :=
  match e.commandTo motorId with
  | some (frame, _) => !DdtProtocol.isZeroCommandFrame frame
  | none => false

/-- A current that is not zero comes from a library that may drive its motor,
and is within the limit. -/
def PermittedCurrent (e : BusEffect) : Prop :=
  ∀ dest wire raw handover lib,
    e = .wrote dest (DdtProtocol.packCurrentFrame wire raw) handover lib → raw ≠ 0 →
      ∃ motorId, dest = some motorId ∧ wire = wireId motorId ∧ Permits lib motorId ∧
        |raw.toInt| ≤ (DdtCurrentPi.ampToRaw lib.maxCurrentAmp.val).toInt

/-! ## Currents -/

section Currents

variable {past out : List BusEffect} {b b' : Bus}

theorem accelByte_ne_zero (t : AccelTime) : UInt8.ofInt t.val ≠ 0 := by
  obtain ⟨t, hlo, hhi⟩ := t
  intro h
  have hnat := congrArg UInt8.toNat h
  have hmod : (UInt8.ofInt t).toNat = (t % 2 ^ 8).toNat % 2 ^ 8 := by
    rw [UInt8.ofInt, UInt8.toNat_ofNat']
  rw [hmod] at hnat
  simp only [UInt8.toNat_zero] at hnat
  omega

theorem permitted_tries {P : DdtMotorLib → Prop} {motorId : Int} {frame : List UInt8} {ok : Bool}
    (h : Tries P motorId frame ok out)
    (hframe : ∀ wire raw lib, P lib → frame = DdtProtocol.packCurrentFrame wire raw → raw ≠ 0 →
      wire = wireId motorId ∧ Permits lib motorId ∧
        |raw.toInt| ≤ (DdtCurrentPi.ampToRaw lib.maxCurrentAmp.val).toInt) :
    ∀ e ∈ out, PermittedCurrent e := by
  have one : ∀ {handover : Handover} {lib : DdtMotorLib}, P lib →
      PermittedCurrent (.wrote (some motorId) frame handover lib) := by
    intro handover lib hlib dest wire raw handover' lib' heq hraw
    cases heq
    exact ⟨motorId, rfl, hframe wire raw lib hlib rfl hraw⟩
  induction h with
  | gaveUp => simp
  | again hlib _ ih => exact List.forall_mem_cons.2 ⟨one hlib, ih⟩
  | cut hlib => exact List.forall_mem_singleton.2 (one hlib)
  | sent hlib => exact List.forall_mem_singleton.2 (one hlib)

theorem permitted_move (h : Move b out b') : ∀ e ∈ out, PermittedCurrent e := by
  cases h with
  | quiet => simp
  | setting _ frame handover lib noCommand =>
    refine List.forall_mem_singleton.2 ?_
    intro dest wire raw handover' lib' heq
    cases heq
    simp at noCommand
  | zero inCall isZero tries =>
    refine permitted_tries tries ?_
    rintro wire raw lib - rfl hraw
    exact absurd (DdtProtocol.isZeroCommandFrame_current.1 isZero) hraw
  | drive isCommand tries =>
    refine permitted_tries tries ?_
    rintro wire raw lib ⟨-, hdrives⟩ hframe hraw
    cases hdrives with
    | velocity rpm brake =>
      exact absurd hframe
        (DdtProtocol.packVelocityFrame_ne_current (accelByte_ne_zero lib.accelTime) wire raw)
    | current sent permits bound =>
      obtain rfl := DdtProtocol.packCurrentFrame_inj hframe
      refine ⟨?_, permits, bound⟩
      have hid := congrArg List.head? hframe
      simpa [DdtProtocol.packCurrentFrame] using hid.symm
  | trip => exact List.forall_mem_singleton.2 (by intro _ _ _ _ _ heq; cases heq)
  | clear => exact List.forall_mem_singleton.2 (by intro _ _ _ _ _ heq; cases heq)
  | begin => simp
  | abandon => simp
  | initialized => exact List.forall_mem_singleton.2 (by intro _ _ _ _ _ heq; cases heq)
  | close => simp

end Currents

/-! ## The latch -/

/-- Nothing but zero leaves for a motor: it has no mode, or it has current
mode and a trip, or it is being set up. -/
def Latched (motorId : Int) (b : Bus) : Prop :=
  b.known.mode motorId = none ∨
    (b.known.mode motorId = some .current ∧ b.known.tripped motorId = true) ∨
    ∃ mode, b.phase = .settingUp motorId mode

/-- The latch of a motor, following the effects. -/
def follow (motorId : Int) : Bool → BusEffect → Bool :=
  latch (BusEffect.isTrip motorId) (BusEffect.isRelease motorId)

/-- An effect heeds the latch: no command to move comes while it is set. -/
def Heeds (motorId : Int) (k : Bool) (e : BusEffect) : Prop :=
  k = true → e.commandsMotion motorId = false

/-- The effects so far respect the latch, and while it is set the motor is
latched in what the library knows. -/
def Guarded (motorId : Int) (past : List BusEffect) (b : Bus) : Prop :=
  Allowed (follow motorId) (Heeds motorId) false past ∧
    (past.foldl (follow motorId) false = true → Latched motorId b)

section Latch

variable {motorId : Int} {past out : List BusEffect} {b b' : Bus}

theorem Guarded.of_still (h : Guarded motorId past b)
    (hout : ∀ e ∈ out, ∀ k, follow motorId k e = k ∧
      (past.foldl (follow motorId) false = true → e.commandsMotion motorId = false))
    (hlatched : Latched motorId b → Latched motorId b') : Guarded motorId (past ++ out) b' := by
  obtain ⟨hallowed, hset⟩ := h
  generalize hk : past.foldl (follow motorId) false = k at hout hset
  have hfold : out.foldl (follow motorId) k = k ∧
      Allowed (follow motorId) (Heeds motorId) k out := by
    clear hset hk
    induction out with
    | nil => exact ⟨rfl, trivial⟩
    | cons e out ih =>
      obtain ⟨hkeep, hquiet⟩ := hout e (by simp) k
      obtain ⟨hrest, hallowed⟩ := ih fun e he => hout e (by simp [he])
      simp only [List.foldl_cons, allowed_cons, hkeep]
      exact ⟨hrest, hquiet, hallowed⟩
  refine ⟨(allowed_append _ _ _).2 ⟨hallowed, ?_⟩, ?_⟩
  · rw [hk]
    exact hfold.2
  · rw [List.foldl_append, hk, hfold.1]
    exact fun h => hlatched (hset h)

theorem Guarded.tries {P : DdtMotorLib → Prop} {id : Int} {frame : List UInt8} {ok : Bool}
    (h : Guarded motorId past b) (htries : Tries P id frame ok out)
    (hzero : ∀ lib, P lib → Latched motorId b → id = motorId →
      DdtProtocol.isZeroCommandFrame frame = true)
    (hlatched : Latched motorId b → Latched motorId b') : Guarded motorId (past ++ out) b' := by
  refine h.of_still ?_ hlatched
  have hset := h.2
  have one : ∀ {handover : Handover} {lib : DdtMotorLib}, P lib → ∀ k,
      follow motorId k (.wrote (some id) frame handover lib) = k ∧
        (past.foldl (follow motorId) false = true →
          (BusEffect.wrote (some id) frame handover lib).commandsMotion motorId = false) := by
    intro handover lib hlib k
    refine ⟨rfl, fun hk => ?_⟩
    simp only [BusEffect.commandsMotion, BusEffect.commandTo]
    split
    · rename_i hcommand
      split at hcommand
      · rename_i haddressed
        cases hcommand
        rw [hzero lib hlib (hset hk) haddressed.1]
        rfl
      · cases hcommand
    · rfl
  clear hset hzero
  induction htries with
  | gaveUp => simp
  | again hlib _ ih => exact List.forall_mem_cons.2 ⟨one hlib, ih⟩
  | cut hlib => exact List.forall_mem_singleton.2 (one hlib)
  | sent hlib => exact List.forall_mem_singleton.2 (one hlib)

theorem Guarded.silent (h : Guarded motorId past b) (hlatched : Latched motorId b → Latched motorId b') :
    Guarded motorId (past ++ []) b' :=
  h.of_still (by simp) hlatched

theorem Guarded.release {e : BusEffect} (h : Guarded motorId past b)
    (hquiet : e.commandsMotion motorId = false)
    (hclear : follow motorId (past.foldl (follow motorId) false) e = false) :
    Guarded motorId (past ++ [e]) b' := by
  refine ⟨(allowed_append _ _ _).2 ⟨h.1, fun _ => hquiet, trivial⟩, ?_⟩
  rw [List.foldl_append]
  simp [hclear]

theorem Guarded.set {e : BusEffect} (h : Guarded motorId past b)
    (hquiet : e.commandsMotion motorId = false) (hlatched : Latched motorId b') :
    Guarded motorId (past ++ [e]) b' :=
  ⟨(allowed_append _ _ _).2 ⟨h.1, fun _ => hquiet, trivial⟩, fun _ => hlatched⟩

theorem not_drives_of_latched {lib : DdtMotorLib} {frame : List UInt8}
    (h : Latched motorId ⟨known lib, .ready⟩) : ¬ Drives lib motorId frame := by
  intro hdrives
  rcases h with hnone | ⟨hcurrent, htripped⟩ | ⟨mode, hphase⟩
  · cases hdrives with
    | velocity rpm brake mode =>
      have hmode : (known lib).mode motorId = some .velocity := mode
      rw [hnone] at hmode
      cases hmode
    | current raw permits =>
      have hmode : (known lib).mode motorId = some .current := permits.mode
      rw [hnone] at hmode
      cases hmode
  · cases hdrives with
    | velocity rpm brake mode =>
      have hmode : (known lib).mode motorId = some .velocity := mode
      rw [hcurrent] at hmode
      cases hmode
    | current raw permits =>
      have hnotrip : (known lib).tripped motorId = false := by
        simp only [known, permits.no_trip]
        rfl
      rw [htripped] at hnotrip
      cases hnotrip
  · cases hphase

theorem guarded_move (h : Guarded motorId past b) (hmove : Move b out b') :
    Guarded motorId (past ++ out) b' := by
  cases hmove with
  | quiet => exact h.silent id
  | setting _ frame handover lib noCommand =>
    refine h.of_still ?_ id
    intro e he k
    obtain rfl := List.mem_singleton.1 he
    refine ⟨rfl, fun _ => ?_⟩
    simp [BusEffect.commandsMotion, BusEffect.commandTo, noCommand]
  | @zero k phase id frame ok _ inCall isZero tries =>
    refine h.tries tries (fun _ _ _ _ => isZero) ?_
    cases ok <;> exact fun hlatched => hlatched
  | @drive k id frame ok _ isCommand tries =>
    refine h.tries tries ?_ ?_
    · rintro lib ⟨hknown, hdrives⟩ hlatched rfl
      subst hknown
      exact absurd hdrives (not_drives_of_latched hlatched)
    · rintro (hnone | hcurrent | ⟨mode, hphase⟩)
      · cases ok <;> exact .inl hnone
      · cases ok <;> exact .inr (.inl hcurrent)
      · cases hphase
  | @trip k id trip mode =>
    by_cases hid : id = motorId
    · subst hid
      refine h.set rfl (.inr (.inl ⟨mode, ?_⟩))
      simp [Known.setTripped]
    · refine h.of_still ?_ ?_
      · intro e he k
        obtain rfl := List.mem_singleton.1 he
        refine ⟨?_, fun _ => rfl⟩
        simp [follow, latch, BusEffect.isTrip, BusEffect.isRelease, hid]
      · rintro (hnone | ⟨hcurrent, htripped⟩ | ⟨mode, hphase⟩)
        · exact .inl hnone
        · refine .inr (.inl ⟨hcurrent, ?_⟩)
          simpa [Known.setTripped, Function.update_of_ne (Ne.symm hid)] using htripped
        · cases hphase
  | clear => exact h.release rfl (by simp [follow, latch, BusEffect.isTrip, BusEffect.isRelease])
  | begin k id mode =>
    refine h.silent ?_
    by_cases hid : id = motorId
    · subst hid
      exact fun _ => .inr (.inr ⟨mode, rfl⟩)
    · have hne := Ne.symm hid
      rintro (hnone | ⟨hcurrent, htripped⟩ | ⟨mode, hphase⟩)
      · refine .inl ?_
        simpa [Known.setMode, Known.setTripped, Function.update_of_ne hne] using hnone
      · refine .inr (.inl ⟨?_, ?_⟩)
        · simpa [Known.setMode, Known.setTripped, Function.update_of_ne hne] using hcurrent
        · simpa [Known.setMode, Known.setTripped, Function.update_of_ne hne] using htripped
      · cases hphase
  | abandon k id mode =>
    refine h.silent ?_
    by_cases hid : id = motorId
    · subst hid
      exact fun _ => .inl (Function.update_self ..)
    · have hne := Ne.symm hid
      rintro (hnone | ⟨hcurrent, htripped⟩ | ⟨mode', hphase⟩)
      · refine .inl ?_
        simpa [Known.setMode, Function.update_of_ne hne] using hnone
      · refine .inr (.inl ⟨?_, htripped⟩)
        simpa [Known.setMode, Function.update_of_ne hne] using hcurrent
      · cases hphase
        exact absurd rfl hid
  | initialized k id mode =>
    by_cases hid : id = motorId
    · exact h.release rfl (by simp [follow, latch, BusEffect.isTrip, BusEffect.isRelease, hid])
    · refine h.of_still ?_ ?_
      · intro e he k
        obtain rfl := List.mem_singleton.1 he
        refine ⟨?_, fun _ => rfl⟩
        simp [follow, latch, BusEffect.isTrip, BusEffect.isRelease, hid]
      · rintro (hnone | hcurrent | ⟨mode', hphase⟩)
        · exact .inl hnone
        · exact .inr (.inl hcurrent)
        · cases hphase
          exact absurd rfl hid
  | close => exact h.silent fun _ => .inl rfl

end Latch

/-! ## Runs -/

theorem guarded_run (motorId : Int) (port : Port) (ops : List Op) :
    (∀ e ∈ effects (new port) ops, PermittedCurrent e) ∧
      Guarded motorId (effects (new port) ops) ⟨known (final step (new port) ops), .ready⟩ := by
  induction ops using List.reverseRecOn with
  | nil => exact ⟨by simp [effects], trivial, fun h => by simp [effects] at h⟩
  | append_singleton ops op ih =>
    obtain ⟨hpermitted, hguarded⟩ := ih
    obtain ⟨ok, hwalk⟩ := refines (final step (new port) ops) op
    have hend := hwalk.invariant
      (I := fun past b => (∀ e ∈ past, PermittedCurrent e) ∧ Guarded motorId past b)
      (fun past b out b' h hmove =>
        ⟨List.forall_mem_append.2 ⟨h.1, permitted_move hmove⟩, guarded_move h.2 hmove⟩)
      _ ⟨hpermitted, hguarded⟩
    rw [effects_append_one, final_append]
    refine ⟨hend.1, hend.2.1, fun hset => ?_⟩
    rcases hend.2.2 hset with hnone | hcurrent | ⟨mode, hphase⟩
    · exact .inl hnone
    · exact .inr (.inl hcurrent)
    · cases ok <;> cases hphase

/-- Currents that are not zero are permitted, and from a trip to its release
no motion is commanded. -/
theorem guard_holds (port : Port) (ops : List Op) :
    (∀ e ∈ effects (new port) ops, PermittedCurrent e) ∧
      ∀ motorId, BlockedUntil (fun e => e.isTrip motorId = true)
        (fun e => e.commandsMotion motorId = true) (fun e => e.isRelease motorId = true)
        (effects (new port) ops) := by
  refine ⟨(guarded_run 0 port ops).1, fun motorId => ?_⟩
  rw [blockedUntil_iff_allowed]
  exact (guarded_run motorId port ops).2.1

/-- A frame for a motor that is no zero current. -/
def BusEffect.notZeroCurrent (motorId : Int) : BusEffect → Bool
  | .wrote (some id) frame _ _ =>
    decide (id = motorId ∧ frame ≠ DdtProtocol.packCurrentFrame (wireId motorId) 0)
  | .wrote none frame _ _ =>
    decide (frame.head? = some (wireId motorId) ∧
      frame ≠ DdtProtocol.packCurrentFrame (wireId motorId) 0)
  | _ => false

/-- A response of motor 1 in a mode. -/
def responseOf (mode : UInt8) : List UInt8 :=
  [1, mode, 0, 0, 0, 0, 0, 0, 0, DdtProtocol.crc8Maxim [1, mode, 0, 0, 0, 0, 0, 0, 0]]

/-- Motor 1 runs in current mode and trips, since it reports another mode.
Setting it up again sends it a mode frame, which is no zero current, and then
fails. -/
theorem retried_setup_sends_mode :
    ¬ BlockedUntil (fun e => e.isTrip 1 = true) (fun e => e.notZeroCurrent 1 = true)
      (fun e => e.isRelease 1 = true)
      (effects
        (new { opens := [true], written := [10, 10, 10, 10, 10],
               drained := [true, true, true, true, false],
               received := [[responseOf 1], [responseOf 2]] })
        [.initializeLibrary, .initializeMotor 1 .current, .setMotorVelocity 1 100,
          .initializeMotor 1 .current]) := by
  rw [blockedUntil_iff_allowed]
  decide +kernel

/-! ## The mode of a motor -/

/-- A command that is not zero is for a motor, in the layout of the mode that the library holds it
in, and one in current mode is permitted. -/
def SuitsMode (e : BusEffect) : Prop :=
  ∀ dest frame handover lib, e = .wrote dest frame handover lib →
    DdtProtocol.isCommandFrame frame = true → DdtProtocol.isZeroCommandFrame frame = false →
      ∃ motorId, dest = some motorId ∧ Drives lib motorId frame

theorem suits_tries {P : DdtMotorLib → Prop} {motorId : Int} {frame : List UInt8} {ok : Bool}
    {out : List BusEffect} (h : Tries P motorId frame ok out)
    (hframe : ∀ lib, P lib → DdtProtocol.isZeroCommandFrame frame = false →
      Drives lib motorId frame) : ∀ e ∈ out, SuitsMode e := by
  have one : ∀ {handover : Handover} {lib : DdtMotorLib}, P lib →
      SuitsMode (.wrote (some motorId) frame handover lib) := by
    rintro handover lib hlib _ _ _ _ ⟨⟩ - hzero
    exact ⟨motorId, rfl, hframe lib hlib hzero⟩
  induction h with
  | gaveUp => simp
  | again hlib _ ih => exact List.forall_mem_cons.2 ⟨one hlib, ih⟩
  | cut hlib => exact List.forall_mem_singleton.2 (one hlib)
  | sent hlib => exact List.forall_mem_singleton.2 (one hlib)

theorem suits_move {b b' : Bus} {out : List BusEffect} (h : Move b out b') :
    ∀ e ∈ out, SuitsMode e := by
  have other : ∀ {e : BusEffect}, (∀ dest frame handover lib, e ≠ .wrote dest frame handover lib) →
      ∀ e' ∈ [e], SuitsMode e' :=
    fun hne => List.forall_mem_singleton.2 fun _ _ _ _ heq => absurd heq (hne _ _ _ _)
  cases h with
  | setting _ frame handover lib noCommand =>
    refine List.forall_mem_singleton.2 ?_
    rintro _ _ _ _ ⟨⟩ hcommand
    simp [noCommand] at hcommand
  | zero inCall isZero tries => exact suits_tries tries (by simp [isZero])
  | drive isCommand tries => exact suits_tries tries fun lib h _ => h.2
  | trip => exact other (by simp)
  | clear => exact other (by simp)
  | initialized => exact other (by simp)
  | _ => simp

/-- What the library sends in any run: no motor is driven that has no mode, or by a command of the
other mode. -/
theorem motion_suits_mode (port : Port) (ops : List Op) :
    (effects (new port) ops).Forall SuitsMode := by
  rw [List.forall_iff_forall_mem]
  induction ops using List.reverseRecOn with
  | nil => simp [effects]
  | append_singleton ops op ih =>
    obtain ⟨ok, hwalk⟩ := refines (final step (new port) ops) op
    rw [effects_append_one]
    exact hwalk.invariant (I := fun past _ => ∀ e ∈ past, SuitsMode e)
      (fun _ _ _ _ h hmove => List.forall_mem_append.2 ⟨h, suits_move hmove⟩) _ ih

end Questix.MotorControl
