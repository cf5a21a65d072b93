/-
Questix.MotorControl.DdtEvidenceTheorems — what `lastSentFrameIsZero` is
evidence of.

It should mean that the last command the device took whole was zero. It does,
until a command that is not zero is taken whole while the wait for it to
leave fails (`Slips`): the frame that is on its way is then not the one the
library holds. In such a run the evidence is wrong at the end of that very
call, since a command that failed is the last thing a call does.
-/
import Questix.MotorControl.DdtRefinement

namespace Questix.MotorControl

open Questix.Lib DdtBus DdtMotorLib

/-! ## Evidence -/

/-- The last command a motor was given whole, after one more effect. -/
def takeCommand (motorId : Int) (last : Option (List UInt8)) (e : BusEffect) :
    Option (List UInt8) :=
  match e.commandTo motorId with
  | some (frame, handover) => if handover.complete then some frame else last
  | none => last

/-- The last command frame for a motor that the device took whole. -/
def lastTaken (motorId : Int) (out : List BusEffect) : Option (List UInt8) :=
  out.foldl (takeCommand motorId) none

/-- If the library says that the last frame was zero, the last command the
device took was. -/
def Evident (motorId : Int) (out : List BusEffect) (s : DdtMotorLib) : Prop :=
  s.lastSentFrameIsZero motorId = true →
    ∃ frame, lastTaken motorId out = some frame ∧ DdtProtocol.isZeroCommandFrame frame = true

/-- A command that is not zero was taken whole but waiting for it to leave
failed, while the library said that the last frame was zero. -/
def Slips (motorId : Int) (e : BusEffect) : Prop :=
  ∃ dest frame lib, e = .wrote dest frame .undrained lib ∧
    e.commandTo motorId = some (frame, .undrained) ∧
    DdtProtocol.isZeroCommandFrame frame = false ∧ lib.lastSentFrameIsZero motorId = true

/-! ## Attempts -/

section Tries

variable {P : DdtMotorLib → Prop} {id motorId : Int} {frame : List UInt8} {ok : Bool}
  {out : List BusEffect}

theorem commandTo_wrote_self (hcmd : DdtProtocol.isCommandFrame frame = true)
    (handover : Handover) (lib : DdtMotorLib) :
    (BusEffect.wrote (some motorId) frame handover lib).commandTo motorId = some (frame, handover) := by
  simp [BusEffect.commandTo, hcmd]

theorem commandTo_wrote_other (hne : id ≠ motorId) (handover : Handover) (lib : DdtMotorLib) :
    (BusEffect.wrote (some id) frame handover lib).commandTo motorId = none := by
  simp [BusEffect.commandTo, hne]

theorem lastTaken_tries (h : Tries P motorId frame ok out)
    (hcmd : DdtProtocol.isCommandFrame frame = true) (last : Option (List UInt8)) :
    ok = true ∧ out.foldl (takeCommand motorId) last = some frame ∨
      ok = false ∧ out.foldl (takeCommand motorId) last = last ∨
      ok = false ∧ ∃ lib, P lib ∧ .wrote (some motorId) frame .undrained lib ∈ out := by
  induction h with
  | gaveUp => exact .inr (.inl ⟨rfl, rfl⟩)
  | again _ _ ih =>
    simp only [List.foldl_cons, takeCommand, commandTo_wrote_self hcmd, Handover.complete]
    rcases ih with h | h | ⟨hok, lib, hlib, hmem⟩
    · exact .inl h
    · exact .inr (.inl h)
    · exact .inr (.inr ⟨hok, lib, hlib, by simp [hmem]⟩)
  | cut hP => exact .inr (.inr ⟨rfl, _, hP, by simp⟩)
  | sent => exact .inl ⟨rfl, by simp [takeCommand, commandTo_wrote_self hcmd, Handover.complete]⟩

theorem undrained_tries (h : Tries P id frame ok out)
    (hcmd : DdtProtocol.isCommandFrame frame = true) {dest : Option Int} {sent : List UInt8}
    {lib : DdtMotorLib} (hmem : .wrote dest sent .undrained lib ∈ out) :
    ok = false ∧ dest = some id ∧ sent = frame ∧ P lib ∧
      ∀ last, out.foldl (takeCommand id) last = some frame := by
  induction h with
  | gaveUp => simp at hmem
  | again _ _ ih =>
    have hrest : BusEffect.wrote dest sent .undrained lib ∈ _ := (List.mem_cons.1 hmem).resolve_left (by simp)
    obtain ⟨hok, hdest, hsent, hlib, hlast⟩ := ih hrest
    refine ⟨hok, hdest, hsent, hlib, fun last => ?_⟩
    rw [List.foldl_cons]
    exact hlast _
  | cut hP =>
    simp only [List.mem_singleton, BusEffect.wrote.injEq] at hmem
    obtain ⟨rfl, rfl, -, rfl⟩ := hmem
    refine ⟨rfl, rfl, rfl, hP, fun last => ?_⟩
    simp [takeCommand, commandTo_wrote_self hcmd, Handover.complete]
  | sent => simp at hmem

end Tries

/-! ## Moves -/

/-- `Evident`, of what the library state comes to. -/
def Known.Evident (motorId : Int) (out : List BusEffect) (k : Known) : Prop :=
  (k.evidence motorId).any DdtProtocol.isZeroCommandFrame = true →
    ∃ frame, lastTaken motorId out = some frame ∧ DdtProtocol.isZeroCommandFrame frame = true

/-- Nothing has slipped and the evidence is right. -/
def Sound (motorId : Int) (past : List BusEffect) (k : Known) : Prop :=
  (∀ e ∈ past, ¬ Slips motorId e) ∧ Known.Evident motorId past k

/-- Something has slipped and the evidence is wrong. -/
def Broken (motorId : Int) (past : List BusEffect) (k : Known) : Prop :=
  (∃ e ∈ past, Slips motorId e) ∧ ¬ Known.Evident motorId past k

section Moves

variable {motorId : Int} {past out : List BusEffect} {k : Known}

theorem lastTaken_append (motorId : Int) (past out : List BusEffect) :
    lastTaken motorId (past ++ out) = out.foldl (takeCommand motorId) (lastTaken motorId past) := by
  simp only [lastTaken, List.foldl_append]

theorem lastTaken_of_no_command (hout : ∀ e ∈ out, e.commandTo motorId = none) :
    lastTaken motorId (past ++ out) = lastTaken motorId past := by
  rw [lastTaken_append]
  generalize lastTaken motorId past = last
  induction out with
  | nil => rfl
  | cons e out ih =>
    have he := hout e (by simp)
    simp only [List.foldl_cons, takeCommand, he]
    exact ih fun e he => hout e (by simp [he])

theorem not_slips_of_mem_append (hpast : ∀ e ∈ past, ¬ Slips motorId e)
    (hout : ∀ e ∈ out, ¬ Slips motorId e) : ∀ e ∈ past ++ out, ¬ Slips motorId e := by
  intro e he
  rcases List.mem_append.1 he with h | h
  · exact hpast e h
  · exact hout e h

theorem Sound.of_no_command (h : Sound motorId past k)
    (hout : ∀ e ∈ out, e.commandTo motorId = none) {k' : Known}
    (hk : k'.evidence motorId = k.evidence motorId) : Sound motorId (past ++ out) k' := by
  refine ⟨not_slips_of_mem_append h.1 ?_, ?_⟩
  · rintro e he ⟨dest, frame, lib, rfl, hcommand, -⟩
    rw [hout _ he] at hcommand
    cases hcommand
  · unfold Known.Evident
    rw [lastTaken_of_no_command hout, hk]
    exact h.2

theorem Broken.of_no_command (h : Broken motorId past k)
    (hout : ∀ e ∈ out, e.commandTo motorId = none) : Broken motorId (past ++ out) k := by
  obtain ⟨⟨e, he, hslip⟩, hwrong⟩ := h
  refine ⟨⟨e, List.mem_append_left _ he, hslip⟩, ?_⟩
  unfold Known.Evident
  rw [lastTaken_of_no_command hout]
  exact hwrong

/-- The attempts to send a command keep the evidence right, or break it where
the frame did not leave. -/
theorem Sound.tries {P : DdtMotorLib → Prop} {id : Int} {frame : List UInt8} {ok : Bool}
    (h : Sound motorId past k) (htries : Tries P id frame ok out)
    (hP : ∀ lib, P lib → known lib = k) (hcmd : DdtProtocol.isCommandFrame frame = true) :
    Sound motorId (past ++ out) (if ok then k.sent id frame else k) ∨
      ok = false ∧ DdtProtocol.isZeroCommandFrame frame = false ∧ Broken motorId (past ++ out) k := by
  by_cases hid : id = motorId
  · subst hid
    by_cases hslip : ∃ e ∈ out, Slips id e
    · obtain ⟨e, he, dest, sent, lib, rfl, -, hnonzero, hzero⟩ := hslip
      obtain ⟨hok, rfl, rfl, hlib, hlast⟩ := undrained_tries htries hcmd he
      refine .inr ⟨hok, hnonzero, ⟨_, List.mem_append_right _ he, ?_⟩, ?_⟩
      · exact ⟨_, sent, lib, rfl, commandTo_wrote_self hcmd .undrained lib, hnonzero, hzero⟩
      · intro hevident
        have hk : (k.evidence id).any DdtProtocol.isZeroCommandFrame = true := by
          rw [← hP lib hlib]
          exact hzero
        obtain ⟨frame, hframe, hiszero⟩ := hevident hk
        rw [lastTaken_append, hlast] at hframe
        cases hframe
        rw [hnonzero] at hiszero
        cases hiszero
    · have hnoslip : ∀ e ∈ out, ¬ Slips id e := fun e he hs => hslip ⟨e, he, hs⟩
      refine .inl ⟨not_slips_of_mem_append h.1 hnoslip, ?_⟩
      intro hzero
      rw [lastTaken_append]
      rcases lastTaken_tries htries hcmd (lastTaken id past) with
        ⟨rfl, hlast⟩ | ⟨rfl, hlast⟩ | ⟨rfl, lib, hlib, hmem⟩
      · refine ⟨frame, hlast, ?_⟩
        simpa [Known.sent] using hzero
      · rw [hlast]
        exact h.2 hzero
      · refine ⟨frame, (undrained_tries htries hcmd hmem).2.2.2.2 _, ?_⟩
        -- otherwise this very write slips
        by_contra hnonzero
        refine hslip ⟨_, hmem, _, frame, lib, rfl, commandTo_wrote_self hcmd .undrained lib,
          Bool.eq_false_iff.2 hnonzero, ?_⟩
        rw [← hP lib hlib] at hzero
        exact hzero
  · refine .inl (h.of_no_command ?_ ?_)
    · intro e he
      induction htries with
      | gaveUp => simp at he
      | again _ _ ih =>
        rcases List.mem_cons.1 he with rfl | he
        · exact commandTo_wrote_other hid _ _
        · exact ih he
      | cut =>
        obtain rfl := List.mem_singleton.1 he
        exact commandTo_wrote_other hid _ _
      | sent =>
        obtain rfl := List.mem_singleton.1 he
        exact commandTo_wrote_other hid _ _
    · cases ok with
      | false => rfl
      | true => exact Function.update_of_ne (Ne.symm hid) _ _

theorem commandTo_setting {frame : List UInt8} (h : DdtProtocol.isCommandFrame frame = false)
    (handover : Handover) (lib : DdtMotorLib) :
    (BusEffect.wrote none frame handover lib).commandTo motorId = none := by
  simp [BusEffect.commandTo, h]

/-- The evidence is right, or it is broken and the call is over. -/
def Judged (motorId : Int) (past : List BusEffect) (b : Bus) : Prop :=
  Sound motorId past b.known ∨ b.phase = .failed ∧ Broken motorId past b.known

theorem Judged.sound {phase : Phase} (h : Judged motorId past ⟨k, phase⟩) (inCall : phase ≠ .failed) :
    Sound motorId past k := by
  rcases h with h | ⟨hphase, -⟩
  · exact h
  · exact absurd hphase inCall

theorem judged_move {b b' : Bus} (h : Judged motorId past b) (hmove : Move b out b') :
    Judged motorId (past ++ out) b' := by
  cases hmove with
  | quiet =>
    rw [List.append_nil]
    exact h
  | setting _ frame handover lib noCommand =>
    have hout : ∀ e ∈ [BusEffect.wrote none frame handover lib], e.commandTo motorId = none := by
      intro e he
      obtain rfl := List.mem_singleton.1 he
      exact commandTo_setting noCommand handover lib
    rcases h with h | ⟨hphase, h⟩
    · exact .inl (h.of_no_command hout rfl)
    · exact .inr ⟨hphase, h.of_no_command hout⟩
  | zero inCall isZero tries =>
    rcases (h.sound inCall).tries tries (fun _ hlib => hlib)
      (DdtProtocol.isCommandFrame_of_zero isZero) with h | ⟨-, hnonzero, -⟩
    · exact .inl h
    · rw [isZero] at hnonzero
      cases hnonzero
  | @drive k id frame ok _ isCommand tries =>
    rcases (h.sound (by decide)).tries tries (fun _ hlib => hlib.1) isCommand with
      h | ⟨rfl, -, h⟩
    · cases ok <;> exact .inl h
    · exact .inr ⟨rfl, h⟩
  | trip trip mode => exact .inl ((h.sound (by decide)).of_no_command (by simp [BusEffect.commandTo]) rfl)
  | clear => exact .inl ((h.sound (by decide)).of_no_command (by simp [BusEffect.commandTo]) rfl)
  | begin => exact .inl ((h.sound (by decide)).of_no_command (by simp) rfl)
  | abandon => exact .inl ((h.sound (by simp)).of_no_command (by simp) rfl)
  | initialized => exact .inl ((h.sound (by simp)).of_no_command (by simp [BusEffect.commandTo]) rfl)
  | close =>
    rw [List.append_nil]
    exact .inl ⟨(h.sound (by decide)).1, nofun⟩

end Moves

/-! ## Runs -/

section Runs

variable {motorId : Int}

theorem sound_step {past : List BusEffect} {s : DdtMotorLib} (h : Sound motorId past (known s))
    (op : Op) : Sound motorId (past ++ (step s op).2) (known (step s op).1) ∨
      Broken motorId (past ++ (step s op).2) (known (step s op).1) := by
  obtain ⟨ok, hwalk⟩ := refines s op
  have hjudged : Judged motorId (past ++ (step s op).2) ⟨known (step s op).1, Went ok⟩ :=
    hwalk.invariant (fun _ _ _ _ => judged_move) past (.inl h)
  rcases hjudged with h | ⟨-, h⟩
  · exact .inl h
  · exact .inr h

theorem sound_run (motorId : Int) (port : Port) (ops : List Op) :
    Sound motorId (effects (new port) ops) (known (final step (new port) ops)) ∨
      ∃ ops₁ ops₂, ops = ops₁ ++ ops₂ ∧
        Broken motorId (effects (new port) ops₁) (known (final step (new port) ops₁)) := by
  induction ops using List.reverseRecOn with
  | nil => exact .inl ⟨by simp [effects], nofun⟩
  | append_singleton ops op ih =>
    rcases ih with h | ⟨ops₁, ops₂, rfl, h⟩
    · rw [effects_append_one, final_append]
      rcases sound_step h op with h | h
      · exact .inl h
      · refine .inr ⟨ops ++ [op], [], (List.append_nil _).symm, ?_⟩
        rw [effects_append_one, final_append]
        exact h
    · exact .inr ⟨ops₁, ops₂ ++ [op], by simp, h⟩

/-- The evidence is right after every call of a run exactly if nothing slips
in it. -/
theorem evident_iff_no_slip (motorId : Int) (port : Port) (ops : List Op) :
    (∀ ops₁ ops₂, ops = ops₁ ++ ops₂ →
      Evident motorId (effects (new port) ops₁) (final step (new port) ops₁)) ↔
      ∀ e ∈ effects (new port) ops, ¬ Slips motorId e := by
  constructor
  · intro hevident
    rcases sound_run motorId port ops with h | ⟨ops₁, ops₂, hops, h⟩
    · exact h.1
    · exact absurd (hevident ops₁ ops₂ hops) h.2
  · rintro hnoslip ops₁ ops₂ rfl
    rcases sound_run motorId port ops₁ with h | ⟨ops₃, ops₄, rfl, ⟨e, he, hslip⟩, -⟩
    · exact h.2
    · refine absurd hslip (hnoslip e ?_)
      rw [effects_append, effects_append]
      simp [he]

/-- Motor 1 is started and stands still; then a command of 100 rpm is taken
whole, the wait for it to leave fails, and the library still says that the
last frame was zero. -/
theorem undrained_command_hidden :
    ¬ Evident 1
      (effects (new { opens := [true], written := [10, 10, 10], drained := [true, true, false] })
        [.initializeLibrary, .setMotorVelocity 1 100])
      (final step (new { opens := [true], written := [10, 10, 10], drained := [true, true, false] })
        [.initializeLibrary, .setMotorVelocity 1 100]) := by
  intro h
  obtain ⟨frame, hframe, hzero⟩ := h (by decide)
  have hlast : lastTaken 1
      (effects (new { opens := [true], written := [10, 10, 10], drained := [true, true, false] })
        [.initializeLibrary, .setMotorVelocity 1 100]) =
      some (DdtProtocol.packVelocityFrame 1 100 50 false) := by decide +kernel
  rw [hlast] at hframe
  cases hframe
  exact absurd hzero (by decide)

end Runs

end Questix.MotorControl
