/-
Questix.WebJoyDriver.HoldTheorems — what one call does to the hold.

`JoyHold.accepts` and `JoyHold.snapshot_spec` say what `accept`
and `snapshot` do; after them the methods are not unfolded again.
-/
import Questix.WebJoyDriver.JoyFrame

namespace Questix.WebJoyDriver

open Questix.Lib

/-! ## Neutral frames -/

/-- Every axis and button at zero. -/
def IsNeutral (axes : List Dbl) (buttons : List ℤ) : Prop :=
  (∀ a ∈ axes, a = 0) ∧ ∀ b ∈ buttons, b = 0

instance (axes : List Dbl) (buttons : List ℤ) : Decidable (IsNeutral axes buttons) :=
  inferInstanceAs (Decidable (_ ∧ _))

/-! ## The hold -/

namespace JoyHold

variable {s : JoyHold} {now : ℚ}

theorem isNeutral_neutral : IsNeutral s.neutral.1 s.neutral.2 :=
  ⟨fun _ ha => List.eq_of_mem_replicate ha, fun _ hb => List.eq_of_mem_replicate hb⟩

@[simp] theorem release_stopLatched (reason : String) :
    (s.release reason).stopLatched = true := rfl

theorem expire_cases (s : JoyHold) (now : ℚ) :
    ((s.expireLocked now).1 = s ∧ (s.stopLatched = true ∨ s.overdue now = false)) ∨
    (s.expireLocked now).1 = { s with
      stopLatched := true, stopReason := "timeout"
      axes := s.neutral.1, buttons := s.neutral.2 } := by
  unfold expireLocked
  split
  · exact .inr rfl
  · rename_i hno
    refine .inl ⟨rfl, ?_⟩
    cases hlatched : s.stopLatched
    · refine .inr ?_
      simpa [hlatched] using hno
    · exact .inl rfl

theorem expire_latched (h : s.stopLatched = true ∨ s.overdue now = true) :
    (s.expireLocked now).1.stopLatched = true := by
  rcases expire_cases s now with ⟨hsame, hno⟩ | hexpired
  · rw [hsame]
    rcases hno with hlatched | hfresh
    · exact hlatched
    · rcases h with hlatched | hover
      · exact hlatched
      · rw [hfresh] at hover
        cases hover
  · rw [hexpired]

/-- A frame that is not taken leaves what reading the clock left; a frame that
is taken is held, and under the latch it is exactly neutral. -/
inductive Accepts (s : JoyHold) (payload : Value) (now : ℚ) :
    JoyHold × Except FrameError AcceptResult → Prop where
  | refused (result : Except FrameError AcceptResult)
      (hno : ∀ changed, result ≠ .ok ⟨true, changed⟩) :
      Accepts s payload now ((s.expireLocked now).1, result)
  | taken (axes : List Dbl) (buttons : List ℤ) (changed : Bool)
      (hparse : parseFrame payload s.numAxes s.numButtons s.deadzone = .ok (axes, buttons))
      (hrearm : (s.expireLocked now).1.stopLatched = true → isNeutralFrame payload = true) :
      Accepts s payload now ({ s with
          axes := axes, buttons := buttons, lastUpdate := some now
          stopLatched := false, stopReason := "" }, .ok ⟨true, changed⟩)

theorem accepts (s : JoyHold) (payload : Value) (now : ℚ) :
    Accepts s payload now (s.accept payload now) := by
  have hconfig : (s.expireLocked now).1.numAxes = s.numAxes ∧
      (s.expireLocked now).1.numButtons = s.numButtons ∧
      (s.expireLocked now).1.deadzone = s.deadzone ∧
      (s.expireLocked now).1.timeoutSec = s.timeoutSec := by
    rcases expire_cases s now with ⟨hsame, -⟩ | hexpired
    · rw [hsame]
      exact ⟨rfl, rfl, rfl, rfl⟩
    · rw [hexpired]
      exact ⟨rfl, rfl, rfl, rfl⟩
  obtain ⟨haxes, hbuttons, hdeadzone, htimeout⟩ := hconfig
  unfold accept
  simp only [haxes, hbuttons, hdeadzone, htimeout]
  split
  · exact .refused _ (by simp)
  · rename_i axes buttons hparse
    split
    · exact .refused _ (by simp)
    · rename_i hopen
      refine .taken axes buttons _ hparse ?_
      intro hlatched
      simpa [hlatched] using hopen

theorem snapshot_spec (s : JoyHold) (now : ℚ) :
    (s.snapshot now).1 = (s.expireLocked now).1 ∧
    (((s.expireLocked now).1.stopLatched = true ∧
        IsNeutral (s.snapshot now).2.axes (s.snapshot now).2.buttons) ∨
      ((s.expireLocked now).1.stopLatched = false ∧
        (s.snapshot now).2.axes = (s.expireLocked now).1.axes ∧
        (s.snapshot now).2.buttons = (s.expireLocked now).1.buttons)) := by
  refine ⟨rfl, ?_⟩
  cases hlatched : (s.expireLocked now).1.stopLatched with
  | true =>
    refine .inl ⟨rfl, ?_⟩
    simp only [snapshot, hlatched, if_true]
    exact isNeutral_neutral
  | false =>
    refine .inr ⟨rfl, ?_⟩
    simp only [snapshot, hlatched, Bool.false_eq_true, if_false]
    exact ⟨trivial, trivial⟩

end JoyHold

end Questix.WebJoyDriver
