/-
Questix.CommandArbiter.SourceSelectorTheorems — the arbitration rule over
whole runs.

What one member function does to each field is said once, in a small lemma
per function; the invariant `SelectorInv` relates the state to the events so
far; the lockout is a latch (`Lib.blockedUntil_trace`), set by the
controller's takeover and cleared only where the locked-out run ends.
-/
import Questix.CommandArbiter.SourceSelector

namespace Questix.CommandArbiter

open Questix.Lib

namespace SourceSelector

variable {s : SourceSelector} {active neutral permitted : Bool} {nowSec : ℚ}

/-! ## The member functions, field by field -/

@[simp] theorem setLocked_labLocked (b : Bool) : (s.setLocked b).labLocked = b := by
  unfold setLocked
  split
  · rfl
  · rename_i h
    simpa using h

@[simp] theorem setLocked_frame (b : Bool) :
    (s.setLocked b).config = s.config ∧ (s.setLocked b).source = s.source ∧
    (s.setLocked b).joyActive = s.joyActive ∧ (s.setLocked b).joyAtSec = s.joyAtSec ∧
    (s.setLocked b).joyActiveAtSec = s.joyActiveAtSec ∧
    (s.setLocked b).labNeutral = s.labNeutral ∧ (s.setLocked b).labAtSec = s.labAtSec := by
  unfold setLocked
  split <;> simp

@[simp] theorem setRefusal_frame (r : Refusal) :
    (s.setRefusal r).config = s.config ∧ (s.setRefusal r).source = s.source ∧
    (s.setRefusal r).labLocked = s.labLocked ∧
    (s.setRefusal r).joyActive = s.joyActive ∧ (s.setRefusal r).joyAtSec = s.joyAtSec ∧
    (s.setRefusal r).joyActiveAtSec = s.joyActiveAtSec ∧
    (s.setRefusal r).labNeutral = s.labNeutral ∧ (s.setRefusal r).labAtSec = s.labAtSec := by
  unfold setRefusal
  split <;> simp

@[simp] theorem switchTo_frame (source : Source) (reason : Reason) :
    (s.switchTo source reason).config = s.config ∧
    (s.switchTo source reason).source = source ∧
    (s.switchTo source reason).labLocked = s.labLocked ∧
    (s.switchTo source reason).joyActive = s.joyActive ∧
    (s.switchTo source reason).joyAtSec = s.joyAtSec ∧
    (s.switchTo source reason).joyActiveAtSec = s.joyActiveAtSec ∧
    (s.switchTo source reason).labNeutral = s.labNeutral ∧
    (s.switchTo source reason).labAtSec = s.labAtSec := by
  simp [switchTo]

@[simp] theorem onJoy_frame :
    (s.onJoy active nowSec).1.config = s.config ∧
    (s.onJoy active nowSec).1.joyActive = active ∧
    (s.onJoy active nowSec).1.joyAtSec = .fin nowSec ∧
    (s.onJoy active nowSec).1.joyActiveAtSec =
      (if active then .fin nowSec else s.joyActiveAtSec) ∧
    (s.onJoy active nowSec).1.labNeutral = s.labNeutral ∧
    (s.onJoy active nowSec).1.labAtSec = s.labAtSec := by
  cases active <;> cases hs : s.source <;> simp only [onJoy, hs] <;> split_ifs <;> simp_all

@[simp] theorem onJoy_source :
    (s.onJoy active nowSec).1.source = if active then .kJoy else s.source := by
  cases active <;> cases hs : s.source <;> simp only [onJoy, hs] <;> split_ifs <;> simp_all

@[simp] theorem onJoy_labLocked :
    (s.onJoy active nowSec).1.labLocked =
      (s.labLocked || (active && (decide (s.source = .kLab) || s.labAsking nowSec))) := by
  cases active <;> cases hs : s.source <;> simp only [onJoy, hs] <;> split_ifs <;> simp_all

theorem onJoy_publish :
    (s.onJoy active nowSec).2 = (active || decide (s.source = .kJoy)) := by
  cases active <;> cases hs : s.source <;> simp only [onJoy, hs] <;> split_ifs <;> simp_all

@[simp] theorem onLab_frame :
    (s.onLab neutral permitted nowSec).1.config = s.config ∧
    (s.onLab neutral permitted nowSec).1.joyActive = s.joyActive ∧
    (s.onLab neutral permitted nowSec).1.joyAtSec = s.joyAtSec ∧
    (s.onLab neutral permitted nowSec).1.joyActiveAtSec = s.joyActiveAtSec ∧
    (s.onLab neutral permitted nowSec).1.labNeutral = neutral ∧
    (s.onLab neutral permitted nowSec).1.labAtSec = .fin nowSec := by
  simp only [onLab, judgeLab]
  split_ifs <;> simp

theorem judgeLab_forward :
    (s.judgeLab neutral permitted nowSec).2.forward = true ↔
      permitted = true ∧ (s.source = .kLab ∨
        (neutral = false ∧ s.labLocked = false ∧ s.joyBusy nowSec = false)) := by
  simp only [judgeLab]
  split_ifs <;> simp_all

theorem onLab_forward :
    (s.onLab neutral permitted nowSec).2.forward = true ↔
      permitted = true ∧ (s.source = .kLab ∨
        (neutral = false ∧ s.labLocked = false ∧ s.joyBusy nowSec = false)) :=
  -- recording the command's own time does not change whether the controller is busy
  judgeLab_forward

theorem onLab_stop :
    (s.onLab neutral permitted nowSec).2.stop =
      (decide (s.source = .kLab) && !permitted) := by
  simp only [onLab, judgeLab]
  split_ifs <;> simp_all

theorem onLab_stop_of_forward
    (h : (s.onLab neutral permitted nowSec).2.forward = true) :
    (s.onLab neutral permitted nowSec).2.stop = false := by
  rw [onLab_stop, (onLab_forward.1 h).1]
  simp

theorem onLab_source :
    (s.onLab neutral permitted nowSec).1.source =
      if (s.onLab neutral permitted nowSec).2.forward && !neutral then .kLab else .kJoy := by
  cases hs : s.source <;> simp only [onLab, judgeLab, hs] <;> split_ifs <;> simp_all

@[simp] theorem onLab_labLocked :
    (s.onLab neutral permitted nowSec).1.labLocked =
      (s.labLocked && !(neutral && decide (s.source = .kJoy))) := by
  cases hs : s.source <;> simp only [onLab, judgeLab, hs] <;> split_ifs <;> simp_all

@[simp] theorem onTick_frame :
    (s.onTick permitted nowSec).1.config = s.config ∧
    (s.onTick permitted nowSec).1.joyActive = s.joyActive ∧
    (s.onTick permitted nowSec).1.joyAtSec = s.joyAtSec ∧
    (s.onTick permitted nowSec).1.joyActiveAtSec = s.joyActiveAtSec ∧
    (s.onTick permitted nowSec).1.labNeutral = s.labNeutral ∧
    (s.onTick permitted nowSec).1.labAtSec = s.labAtSec := by
  simp only [onTick]
  split_ifs <;> simp

@[simp] theorem onTick_stop :
    (s.onTick permitted nowSec).2 =
      (decide (s.source = .kLab) && (s.labQuiet nowSec || !permitted)) := rfl

@[simp] theorem onTick_source :
    (s.onTick permitted nowSec).1.source =
      if s.labQuiet nowSec || !permitted then .kJoy else s.source := by
  cases hs : s.source <;> simp only [onTick, hs] <;> split_ifs <;> simp_all

@[simp] theorem onTick_labLocked :
    (s.onTick permitted nowSec).1.labLocked = (s.labLocked && !s.labQuiet nowSec) := by
  cases hs : s.source <;> simp only [onTick, hs] <;> split_ifs <;> simp_all

theorem joyBusy_mono {t t' : ℚ} (h : t ≤ t') (hb : s.joyBusy t = false) :
    s.joyBusy t' = false := by
  simp only [joyBusy, Bool.or_eq_false_iff, Bool.and_eq_false_iff, decide_eq_false_iff_not]
    at hb ⊢
  refine ⟨hb.1.imp_right ?_, ?_⟩
  · intro hn hle
    exact hn (Dbl.sub_le_of_le h hle)
  · intro hle
    exact hb.2 (Dbl.sub_le_of_le h hle)

@[simp] theorem onLab_joyBusy (t : ℚ) :
    (s.onLab neutral permitted nowSec).1.joyBusy t = s.joyBusy t := by
  simp [joyBusy]

@[simp] theorem onTick_joyBusy (t : ℚ) :
    (s.onTick permitted nowSec).1.joyBusy t = s.joyBusy t := by
  simp [joyBusy]

/-! ## Handovers from the lab to the controller -/

theorem onJoy_handover (hpre : s.source = .kLab)
    (hpost : (s.onJoy active nowSec).1.source = .kJoy) :
    active = true ∧ (s.onJoy active nowSec).2 = true := by
  rw [onJoy_source, hpre] at hpost
  rw [onJoy_publish]
  cases active with
  | false => cases hpost
  | true => exact ⟨rfl, rfl⟩

theorem onLab_handover (hpre : s.source = .kLab)
    (hpost : (s.onLab neutral permitted nowSec).1.source = .kJoy) :
    (neutral = true ∧ (s.onLab neutral permitted nowSec).2.forward = true) ∨
    ((s.onLab neutral permitted nowSec).2.forward = false ∧
      (s.onLab neutral permitted nowSec).2.stop = true) := by
  rw [onLab_source] at hpost
  rw [onLab_stop, hpre]
  cases hf : (s.onLab neutral permitted nowSec).2.forward with
  | true => exact .inl ⟨by simpa [hf] using hpost, rfl⟩
  | false =>
    rw [← Bool.not_eq_true, onLab_forward] at hf
    exact .inr ⟨rfl, by simpa [hpre] using hf⟩

theorem onTick_handover (hpre : s.source = .kLab)
    (hpost : (s.onTick permitted nowSec).1.source = .kJoy) :
    (s.onTick permitted nowSec).2 = true := by
  rw [onTick_source, hpre] at hpost
  rw [onTick_stop, hpre]
  split at hpost
  · rename_i h
    simpa using h
  · cases hpost

/-! ## The state and the events so far -/

def Event.isJoy : Event → Bool
  | .joy _ _ => true
  | _ => false

/-- In the light of the events so far, an active controller command is within
its hold time: the last controller command was active and is fresh, or some
active one came within the quiet time. -/
def ControllerHolds (config : SelectorConfig) (past : List Event) (nowSec : ℚ) : Prop :=
  (∃ x t y, past = x ++ .joy true t :: y ∧ (∀ e ∈ y, e.isJoy = false) ∧
      .fin nowSec - .fin t ≤ config.joyTimeoutSec) ∨
  (∃ t, .joy true t ∈ past ∧ .fin nowSec - .fin t ≤ config.controllerQuietSec)

/-- What the selector remembers of the events so far, and the arbitration
rule: while the lab has the actuator it is not locked out, and at some moment
of the run, with the controller's fields as they are now, the controller was
not busy. -/
structure SelectorInv (config : SelectorConfig) (past : List Event) (s : SourceSelector) :
    Prop where
  config_eq : s.config = config
  lastJoy : ∀ x active t y, past = x ++ .joy active t :: y → (∀ e ∈ y, e.isJoy = false) →
    s.joyActive = active ∧ s.joyAtSec = .fin t
  lastActive : ∀ t, .joy true t ∈ past → ∃ u, s.joyActiveAtSec = .fin u ∧ t ≤ u
  labHas : s.source = .kLab →
    s.labLocked = false ∧ ∃ e ∈ past, s.joyBusy e.time = false

variable {config : SelectorConfig} {past es : List Event}

theorem SelectorInv.start : SelectorInv config [] { config := config } where
  config_eq := rfl
  lastJoy := by simp
  lastActive := by simp
  labHas := by simp

theorem SelectorInv.lastJoy_other (h : SelectorInv config past s) {e : Event}
    (he : e.isJoy = false) {x y : List Event} {active : Bool} {t : ℚ}
    (hp : past ++ [e] = x ++ .joy active t :: y) (hy : ∀ e ∈ y, e.isJoy = false) :
    s.joyActive = active ∧ s.joyAtSec = .fin t := by
  rcases List.eq_nil_or_concat y with rfl | ⟨y', e', rfl⟩
  · have := List.append_inj_right' hp rfl
    simp only [List.cons.injEq, and_true] at this
    subst this
    simp [Event.isJoy] at he
  · rw [List.concat_eq_append, ← List.cons_append, ← List.append_assoc] at hp
    obtain ⟨hp, -⟩ := List.append_inj' hp rfl
    refine h.lastJoy x active t y' hp ?_
    intro e' he'
    exact hy e' (by simp [he'])

theorem SelectorInv.lastJoy_self {x y : List Event} {active active' : Bool} {t t' : ℚ}
    (hp : past ++ [.joy active t] = x ++ .joy active' t' :: y)
    (hy : ∀ e ∈ y, e.isJoy = false) : active' = active ∧ t' = t := by
  rcases List.eq_nil_or_concat y with rfl | ⟨y', e', rfl⟩
  · have := List.append_inj_right' hp rfl
    simp only [List.cons.injEq, Event.joy.injEq, and_true] at this
    exact ⟨this.1.symm, this.2.symm⟩
  · rw [List.concat_eq_append, ← List.cons_append, ← List.append_assoc] at hp
    obtain ⟨-, hp⟩ := List.append_inj' hp rfl
    have := hy e' (by simp)
    simp only [List.cons.injEq, and_true] at hp
    subst hp
    simp [Event.isJoy] at this

/-- One event keeps the invariant, when it is not earlier than the ones
before it. -/
theorem SelectorInv.step (h : SelectorInv config past s) (e : Event)
    (hle : ∀ e' ∈ past, e'.time ≤ e.time) :
    SelectorInv config (past ++ [e]) (SourceSelector.step s e).1 := by
  cases e with
  | joy active t =>
    refine ⟨by simp [SourceSelector.step, h.config_eq], ?_, ?_, ?_⟩
    · intro x active' t' y hp hy
      obtain ⟨rfl, rfl⟩ := SelectorInv.lastJoy_self hp hy
      simp [SourceSelector.step]
    · intro t' ht'
      cases active with
      | false =>
        obtain ⟨u, hu, hle'⟩ := h.lastActive t' (by simpa using ht')
        exact ⟨u, by simpa [SourceSelector.step] using hu, hle'⟩
      | true =>
        refine ⟨t, by simp [SourceSelector.step], ?_⟩
        rcases List.mem_append.1 ht' with ht' | ht'
        · exact hle _ ht'
        · simp only [List.mem_singleton, Event.joy.injEq, true_and] at ht'
          exact ht'.le
    · intro hsrc
      cases active with
      | true => simp [SourceSelector.step] at hsrc
      | false =>
        simp only [SourceSelector.step, onJoy_source] at hsrc
        obtain ⟨hl, e, he, hb⟩ := h.labHas (by simpa using hsrc)
        refine ⟨by simp [SourceSelector.step, hl], e, by simp [he], ?_⟩
        simp only [joyBusy, SourceSelector.step, onJoy_frame, Bool.or_eq_false_iff] at hb ⊢
        exact ⟨by simp, hb.2⟩
  | lab neutral permitted t =>
    refine ⟨by simp [SourceSelector.step, h.config_eq], ?_, ?_, ?_⟩
    · intro x active t' y hp hy
      simpa [SourceSelector.step] using h.lastJoy_other rfl hp hy
    · intro t' ht'
      simpa [SourceSelector.step] using h.lastActive t' (by simpa using ht')
    · intro hsrc
      simp only [SourceSelector.step, onLab_source] at hsrc
      split at hsrc <;> simp only [reduceCtorEq] at hsrc
      rename_i hf
      obtain ⟨hf, hn⟩ := Bool.and_eq_true_iff.1 hf
      simp only [SourceSelector.step, onLab_labLocked]
      rcases (onLab_forward.1 hf).2 with hlab | ⟨-, hl, hb⟩
      · obtain ⟨hl, e, he, hb⟩ := h.labHas hlab
        exact ⟨by simp [hl], e, by simp [he], by simpa using hb⟩
      · exact ⟨by simp [hl], .lab neutral permitted t, by simp, by simpa [Event.time] using hb⟩
  | tick permitted t =>
    refine ⟨by simp [SourceSelector.step, h.config_eq], ?_, ?_, ?_⟩
    · intro x active t' y hp hy
      simpa [SourceSelector.step] using h.lastJoy_other rfl hp hy
    · intro t' ht'
      simpa [SourceSelector.step] using h.lastActive t' (by simpa using ht')
    · intro hsrc
      have hsrc : s.source = .kLab := by
        simp only [SourceSelector.step, onTick_source] at hsrc
        split at hsrc
        · cases hsrc
        · exact hsrc
      obtain ⟨hl, e, he, hb⟩ := h.labHas hsrc
      refine ⟨by simp [SourceSelector.step, hl], e, by simp [he], ?_⟩
      simpa [SourceSelector.step] using hb

theorem selectorInv_run (config : SelectorConfig) (h : Chronological Event.time es) :
    SelectorInv config es (final SourceSelector.step { config := config } es) :=
  chronological_history SelectorInv.start (fun _ _ e hs hle => hs.step e hle) h

theorem SelectorInv.not_controllerHolds (h : SelectorInv config past s)
    (hb : s.joyBusy nowSec = false) : ¬ ControllerHolds config past nowSec := by
  simp only [joyBusy, Bool.or_eq_false_iff, Bool.and_eq_false_iff, decide_eq_false_iff_not,
    h.config_eq] at hb
  rintro (⟨x, t, y, hp, hy, hle⟩ | ⟨t, ht, hle⟩)
  · obtain ⟨ha, hat⟩ := h.lastJoy x true t y hp hy
    rcases hb.1 with hna | hn
    · simp [ha] at hna
    · exact hn (hat ▸ hle)
  · obtain ⟨u, hu, htu⟩ := h.lastActive t ht
    rw [hu] at hb
    refine hb.2 ?_
    cases hq : config.controllerQuietSec with
    | nan => rw [hq] at hle; exact hle
    | ninf => rw [hq] at hle; exact hle
    | pinf => rfl
    | fin q =>
      simp only [hq, Dbl.fin_sub_fin, Dbl.fin_le_fin] at hle ⊢
      linarith

theorem SelectorInv.joyBusy_false (h : SelectorInv config past s) (hs : s.source = .kLab)
    (hle : ∀ e ∈ past, e.time ≤ nowSec) : s.joyBusy nowSec = false := by
  obtain ⟨-, e, he, hb⟩ := h.labHas hs
  exact joyBusy_mono (hle e he) hb

/-! ## The takeover locks the lab out -/

/-- An active controller command arrives while the lab has the actuator or
asks for it. -/
def TakesOver (t : Step SourceSelector Event Answer) : Prop :=
  ∃ nowSec, t.event = .joy true nowSec ∧
    (t.pre.source = .kLab ∨ t.pre.labAsking nowSec = true)

/-- A lab command goes out. -/
def ForwardsLab (t : Step SourceSelector Event Answer) : Prop :=
  ∃ decision, t.out = .lab decision ∧ decision.forward = true

/-- The lab's run ends: a neutral lab command arrives, or a tick observes more
than `labTimeoutSec` of silence. -/
def EndsRun (t : Step SourceSelector Event Answer) : Prop :=
  (∃ permitted nowSec, t.event = .lab true permitted nowSec) ∨
  (∃ permitted nowSec, t.event = .tick permitted nowSec ∧ t.pre.labQuiet nowSec = true)

/-- The latch: the controller is the source and the lab is locked out. -/
def LockedOut (s : SourceSelector) : Prop := s.source = .kJoy ∧ s.labLocked = true

theorem lockedOut_of_takesOver (e : Event) (h : TakesOver (stepOf SourceSelector.step s e)) :
    LockedOut (SourceSelector.step s e).1 := by
  obtain ⟨t, rfl : e = _, hs⟩ := h
  refine ⟨by simp [SourceSelector.step], ?_⟩
  rcases hs with hs | hs <;> simp only [stepOf] at hs <;> simp [SourceSelector.step, hs]

theorem lockedOut_step (e : Event) (h : LockedOut s)
    (hne : ¬ EndsRun (stepOf SourceSelector.step s e)) :
    LockedOut (SourceSelector.step s e).1 := by
  obtain ⟨hs, hl⟩ := h
  cases e with
  | joy active t => simp [LockedOut, SourceSelector.step, hs, hl]
  | lab neutral permitted t =>
    obtain rfl : neutral = false := by
      by_contra hn
      exact hne (.inl ⟨permitted, t, by simp [stepOf, hn]⟩)
    have hf : (s.onLab false permitted t).2.forward = false := by
      rw [← Bool.not_eq_true, onLab_forward]
      simp [hs, hl]
    simp [LockedOut, SourceSelector.step, onLab_source, hf, hl]
  | tick permitted t =>
    have hq : s.labQuiet t = false := by
      by_contra hq
      exact hne (.inr ⟨permitted, t, rfl, by simpa [stepOf] using hq⟩)
    simp [LockedOut, SourceSelector.step, hs, hl, hq]

theorem not_forwardsLab_of_lockedOut (e : Event) (h : LockedOut s) :
    ¬ ForwardsLab (stepOf SourceSelector.step s e) := by
  rintro ⟨decision, ho, hf⟩
  obtain ⟨hs, hl⟩ := h
  cases e <;> simp only [stepOf, SourceSelector.step, Answer.lab.injEq, reduceCtorEq] at ho
  subst ho
  have := (onLab_forward.1 hf).2
  simp [hs, hl] at this

theorem lockout_run (s : SourceSelector) (es : List Event) :
    BlockedUntil TakesOver ForwardsLab EndsRun (trace SourceSelector.step s es) := by
  refine blockedUntil_trace LockedOut ?_ ?_ ?_ <;> intro t ht <;>
    rw [eq_stepOf_of_mem_trace ht]
  · exact lockedOut_of_takesOver t.event
  · exact lockedOut_step t.event
  · exact not_forwardsLab_of_lockedOut t.event

/-! ## The arbitration rule -/

/-- Arbitration safety of the run of a fresh selector over `es`. -/
structure ArbitrationSafe (config : SelectorConfig) (es : List Event) : Prop where
  /-- While the lab has the actuator it is not locked out, and no active
  controller command is within its hold time, from the last event on. -/
  labHas : (final SourceSelector.step { config := config } es).source = .kLab →
    (final SourceSelector.step { config := config } es).labLocked = false ∧
    ∀ nowSec, (∀ e ∈ es, e.time ≤ nowSec) →
      (final SourceSelector.step { config := config } es).joyBusy nowSec = false ∧
      ¬ ControllerHolds config es nowSec
  /-- A non-neutral lab command goes out only when it was permitted, with the
  lab not locked out and the controller idle at that time. -/
  forwards : ∀ es₁ permitted nowSec es₂, es = es₁ ++ .lab false permitted nowSec :: es₂ →
    ((final SourceSelector.step { config := config } es₁).onLab
      false permitted nowSec).2.forward = true →
    permitted = true ∧
    (final SourceSelector.step { config := config } es₁).labLocked = false ∧
    (final SourceSelector.step { config := config } es₁).joyBusy nowSec = false ∧
    ¬ ControllerHolds config es₁ nowSec
  /-- Once the controller takes over, no lab command goes out until that lab
  run has ended. -/
  lockout : BlockedUntil TakesOver ForwardsLab EndsRun
    (trace SourceSelector.step { config := config } es)

/-- Arbitration safety holds of every run in time order. -/
theorem arbitration_safe (config : SelectorConfig) (es : List Event)
    (hes : Chronological Event.time es) : ArbitrationSafe config es where
  labHas := by
    intro hs
    have inv := selectorInv_run config hes
    refine ⟨(inv.labHas hs).1, ?_⟩
    intro nowSec hle
    have hb := inv.joyBusy_false hs hle
    exact ⟨hb, inv.not_controllerHolds hb⟩
  forwards := by
    intro es₁ permitted nowSec es₂ hes₁ hf
    rw [hes₁] at hes
    have inv := selectorInv_run config hes.of_append
    have hle : ∀ e ∈ es₁, e.time ≤ nowSec := by
      intro e he
      exact (List.pairwise_append.1 hes).2.2 e he (.lab false permitted nowSec) (by simp)
    obtain ⟨hp, hs | ⟨-, hl, hb⟩⟩ := onLab_forward.1 hf
    · have hb := inv.joyBusy_false hs hle
      exact ⟨hp, (inv.labHas hs).1, hb, inv.not_controllerHolds hb⟩
    · exact ⟨hp, hl, hb, inv.not_controllerHolds hb⟩
  lockout := lockout_run _ es

/-- A lesson: the lab starts, the controller takes over, the lab keeps asking
in vain, ends its run and starts a new one once the controller is idle. -/
def lessonEvents : List Event :=
  [.joy false 0, .lab false true 1, .joy true 2, .lab false true (21 / 10),
    .joy false (22 / 10), .lab true true 3, .lab false true 4]

theorem arbitration_safe_lesson : ArbitrationSafe {} lessonEvents :=
  arbitration_safe {} lessonEvents (by decide +kernel)

end SourceSelector

end Questix.CommandArbiter
