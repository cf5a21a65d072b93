/-
Questix.CommandArbiter.LauncherShotTheorems — when the launcher's flow fires
for the lab: on a request of the lab's own, out of a roller that has been
published at firing speed for the whole spin-up time, and not within the
interval of any earlier shot.

`FlowInv` ties the flow to the steps taken so far. Its spin-up part is what
the property is about: while the spin-up clock runs, the lab has the launcher
and every command published since the clock started is a lab command at firing
speed. Every other way out of a step stops the clock.
-/
import Questix.CommandArbiter.LauncherRuns

namespace Questix.CommandArbiter

open Questix.Lib

/-- The controller command an event carries. -/
def FlowEvent.joyCommand? : FlowEvent → Option LauncherCommand
  | .joy command _ => some command
  | _ => none

/-- The lab command an event carries, broken or not. -/
def FlowEvent.labCommand? : FlowEvent → Option LauncherCommand
  | .lab command _ _ => some command
  | _ => none

namespace LauncherFlow

abbrev FlowStep := Step LauncherFlow FlowEvent (List LauncherOutput)

/-! ## What has been published and received -/

/-- The fire sequence as published so far. -/
def publishedSeq (steps : List FlowStep) : UInt32 :=
  match lastOutput steps with
  | some o => o.command.fireSeq
  | none => 0

/-- The step increments the published fire sequence. -/
def Fires (past : List FlowStep) (t : FlowStep) : Prop :=
  publishedSeq (past ++ [t]) = publishedSeq past + 1

/-- The last command published at the instant `u`. -/
def outputAt (steps : List FlowStep) (u : ℚ) : Option LauncherOutput :=
  lastOutput (steps.filter fun r => decide (r.event.time ≤ u))

/-- The last controller command received. -/
def lastJoy (steps : List FlowStep) : Option LauncherCommand :=
  (steps.filterMap fun r => r.event.joyCommand?).getLast?

/-- The last lab command received, broken or not. -/
def lastLab (steps : List FlowStep) : Option LauncherCommand :=
  (steps.filterMap fun r => r.event.labCommand?).getLast?

/-- The step's own message asks for the shot: it raises the counter of its
source over the message of that source before it. -/
def OwnRequest (past : List FlowStep) (t : FlowStep) : Prop :=
  match t.event with
  | .joy command _ => ∃ prev, lastJoy past = some prev ∧ prev.fireSeq < command.fireSeq
  | .lab command _ _ => ∃ prev, lastLab past = some prev ∧ prev.fireSeq < command.fireSeq
  | .tick _ _ => False

/-- A published lab command at firing speed. -/
def Spinning (config : LauncherConfig) (o : LauncherOutput) : Prop :=
  o.source = .kLab ∧ config.minFirePower ≤ o.command.rollerPower

/-- From a step no later than `q` on, something has been published, and
nothing but lab commands at firing speed. -/
def SpinningSince (config : LauncherConfig) (past : List FlowStep) (q : ℚ) : Prop :=
  ∃ x r y, past = x ++ r :: y ∧ r.event.time ≤ q ∧ r.out ≠ [] ∧
    ∀ r' ∈ r :: y, ∀ o ∈ r'.out, Spinning config o

variable {config : LauncherConfig} {past : List FlowStep} {t : FlowStep}

theorem publishedSeq_of_silent (h : t.out = []) :
    publishedSeq (past ++ [t]) = publishedSeq past := by
  simp [publishedSeq, lastOutput, h]

theorem publishedSeq_of_out {o : LauncherOutput} (h : t.out = [o]) :
    publishedSeq (past ++ [t]) = o.command.fireSeq := by
  simp [publishedSeq, lastOutput_of_out_eq h]

theorem SpinningSince.outputAt {q u : ℚ} (h : SpinningSince config past q) (hu : q ≤ u) :
    ∃ o, outputAt past u = some o ∧ Spinning config o := by
  obtain ⟨x, r, y, rfl, hr, hout, hall⟩ := h
  have hkept : decide (r.event.time ≤ u) = true := by
    simpa using le_trans hr hu
  let late := r :: y.filter fun r => decide (r.event.time ≤ u)
  have hne : late.flatMap Step.out ≠ [] := by
    simp [late, hout]
  obtain ⟨o, ho⟩ : ∃ o, (late.flatMap Step.out).getLast? = some o :=
    ⟨_, List.getLast?_eq_some_getLast hne⟩
  refine ⟨o, ?_, ?_⟩
  · rw [LauncherFlow.outputAt, lastOutput, List.filter_append,
      List.filter_cons_of_pos (by exact hkept), List.flatMap_append, List.getLast?_append, ho]
    rfl
  · obtain ⟨r', hr', ho'⟩ := List.mem_flatMap.1 (List.mem_of_getLast? ho)
    refine hall r' ?_ o ho'
    rcases List.mem_cons.1 hr' with rfl | hr'
    · exact List.mem_cons_self
    · exact List.mem_cons_of_mem _ (List.mem_of_mem_filter hr')

theorem SpinningSince.snoc {q : ℚ} (h : SpinningSince config past q)
    (ht : ∀ o ∈ t.out, Spinning config o) : SpinningSince config (past ++ [t]) q := by
  obtain ⟨x, r, y, rfl, hr, hout, hall⟩ := h
  refine ⟨x, r, y ++ [t], by simp, hr, hout, ?_⟩
  intro r' hr' o ho
  rw [← List.cons_append, List.mem_append, List.mem_singleton] at hr'
  rcases hr' with hr' | rfl
  · exact hall r' hr' o ho
  · exact ht o ho

theorem spinningSince_self (hne : t.out ≠ []) (ht : ∀ o ∈ t.out, Spinning config o) :
    SpinningSince config (past ++ [t]) t.event.time := by
  refine ⟨past, t, [], rfl, le_rfl, hne, ?_⟩
  intro r' hr' o ho
  rw [List.mem_singleton.1 hr'] at ho
  exact ht o ho

/-! ## The invariant -/

/-- The flow and the steps taken so far. -/
structure FlowInv (config : LauncherConfig) (past : List FlowStep) (s : LauncherFlow) :
    Prop where
  configured : s.config = config
  fireSeq : publishedSeq past = s.out.fireSeq
  joyStream : s.joy.have_ = true → ∃ prev, lastJoy past = some prev ∧ prev.fireSeq = s.joy.fireSeq
  labStream : s.selector.source = .kLab →
    ∃ prev, lastLab past = some prev ∧ prev.fireSeq = s.lab.fireSeq
  spin : s.spinSinceSec = .nan ∨
    s.selector.source = .kLab ∧ ∃ q, s.spinSinceSec = .fin q ∧ SpinningSince config past q
  interval : ∀ x r y, past = x ++ r :: y → Fires x r →
    ∃ q, s.lastFireSec = .fin q ∧ r.event.time ≤ q

variable {s : LauncherFlow} {e : FlowEvent}

theorem flowInv_start (config : LauncherConfig) : FlowInv config [] (configure {} config) where
  configured := rfl
  fireSeq := rfl
  joyStream := nofun
  labStream := nofun
  spin := .inl rfl
  interval := by
    intro x r y h
    simp at h

theorem publishedSeq_snoc (h : publishedSeq past = s.out.fireSeq) :
    publishedSeq (past ++ [stepOf step s e]) = (step s e).1.out.fireSeq := by
  rcases step_published s e with ⟨hout, hno, -⟩ | ⟨o, hout, hseq, -⟩
  · rw [publishedSeq_of_silent hout, h, (step_counted s e).fireSeq, hno]
    rfl
  · rw [publishedSeq_of_out hout, hseq]

theorem fires_iff (h : publishedSeq past = s.out.fireSeq) :
    Fires past (stepOf step s e) ↔ s.accepts e = true := by
  rw [Fires, publishedSeq_snoc h, h, (step_counted s e).fireSeq]
  cases s.accepts e with
  | true => simp
  | false => simp

/-! ## The streams -/

theorem lastJoy_snoc : lastJoy (past ++ [t]) = (t.event.joyCommand?).or (lastJoy past) := by
  cases h : t.event.joyCommand? <;> simp [lastJoy, h]

theorem lastLab_snoc : lastLab (past ++ [t]) = (t.event.labCommand?).or (lastLab past) := by
  cases h : t.event.labCommand? <;> simp [lastLab, h]

theorem onLab_frame {command : LauncherCommand} {permitted : Bool} {nowSec : ℚ} :
    (s.onLab command permitted nowSec).1.config = s.config ∧
      (s.onLab command permitted nowSec).1.joy = s.joy := by
  unfold onLab
  simp only
  split_ifs <;> simp [stop, (forwardLab_forwarded _ _ _).config, (forwardLab_forwarded _ _ _).joy]

theorem onTick_frame {permitted : Bool} {nowSec : ℚ} :
    (s.onTick permitted nowSec).1.config = s.config ∧
      (s.onTick permitted nowSec).1.joy = s.joy ∧
      (s.onTick permitted nowSec).1.lab = s.lab ∧
      (s.onTick permitted nowSec).1.selector = (s.selector.onTick permitted nowSec).1 := by
  unfold onTick
  simp only
  split_ifs <;> simp [stop]

theorem step_config : (step s e).1.config = s.config := by
  cases e with
  | joy command t => exact onJoy_frame.1
  | lab command permitted t => exact onLab_frame.1
  | tick permitted t => exact onTick_frame.1

theorem joyStream_step
    (h : s.joy.have_ = true → ∃ prev, lastJoy past = some prev ∧ prev.fireSeq = s.joy.fireSeq)
    (hhave : (step s e).1.joy.have_ = true) :
    ∃ prev, lastJoy (past ++ [stepOf step s e]) = some prev ∧
      prev.fireSeq = (step s e).1.joy.fireSeq := by
  rw [lastJoy_snoc]
  cases e with
  | joy command t =>
    refine ⟨command, rfl, ?_⟩
    simp only [step, onJoy_frame]
    rfl
  | lab command permitted t =>
    simp only [step, onLab_frame] at hhave ⊢
    exact h hhave
  | tick permitted t =>
    simp only [step, onTick_frame] at hhave ⊢
    exact h hhave

theorem labStream_step
    (h : s.selector.source = .kLab →
      ∃ prev, lastLab past = some prev ∧ prev.fireSeq = s.lab.fireSeq)
    (hlab : (step s e).1.selector.source = .kLab) :
    ∃ prev, lastLab (past ++ [stepOf step s e]) = some prev ∧
      prev.fireSeq = (step s e).1.lab.fireSeq := by
  rw [lastLab_snoc]
  cases e with
  | joy command t =>
    simp only [step, onJoy_frame, joySelection, SourceSelector.onJoy_source] at hlab ⊢
    refine h ?_
    cases hsrc : s.selector.source with
    | kLab => rfl
    | kJoy => simp [hsrc] at hlab
  | lab command permitted t =>
    refine ⟨command, rfl, ?_⟩
    simp only [step] at hlab ⊢
    rw [onLab_kept hlab]
    rfl
  | tick permitted t =>
    simp only [step, onTick_frame, SourceSelector.onTick_source] at hlab ⊢
    refine h ?_
    split at hlab
    · cases hlab
    · exact hlab

/-! ## The spin-up -/

theorem spin_since (starting : Bool) (roller : Dbl) (nowSec : ℚ) :
    (s.spin starting roller nowSec).spinSinceSec =
      if s.config.minFirePower ≤ (if starting then 0 else roller) then
        (if s.spinSinceSec.isnan then .fin nowSec else s.spinSinceSec)
      else .nan := by
  simp only [spin]
  split_ifs <;> simp_all

theorem spin_clock (h : s.spinSinceSec = .nan ∨ ∃ q, s.spinSinceSec = .fin q) (starting : Bool)
    (roller : Dbl) (nowSec : ℚ) :
    (s.spin starting roller nowSec).spinSinceSec = .nan ∨
      ∃ q, (s.spin starting roller nowSec).spinSinceSec = .fin q ∧
        s.config.minFirePower ≤ (s.spin starting roller nowSec).out.rollerPower ∧
        (s.spinSinceSec = .fin q ∨ q = nowSec) := by
  rw [spin_since, (spin_frame starting roller).2.2.2.2.2.2.2]
  by_cases hmin : s.config.minFirePower ≤ (if starting then 0 else roller)
  · rw [if_pos hmin]
    rcases h with hnan | ⟨q, hq⟩
    · exact .inr ⟨nowSec, by simp [hnan, Dbl.isnan], hmin, .inr rfl⟩
    · exact .inr ⟨q, by simp [hq, Dbl.isnan], hmin, .inl hq⟩
  · exact .inl (if_neg hmin)

/-- The clock is stopped or runs from a step since which only lab commands at
firing speed went out. -/
theorem spin_step (h : FlowInv config past s) :
    (step s e).1.spinSinceSec = .nan ∨ (step s e).1.selector.source = .kLab ∧
      ∃ q, (step s e).1.spinSinceSec = .fin q ∧
        SpinningSince config (past ++ [stepOf step s e]) q := by
  have heff := step_effect s e
  have hpost : (stepOf step s e).out = (step s e).2 := rfl
  generalize hs' : (step s e).1 = s' at heff ⊢
  generalize hout : (step s e).2 = out at heff
  rw [hout] at hpost
  cases heff with
  | idle _ _ hspin hsource _ _ =>
    rw [hspin, hsource]
    rcases h.spin with hnan | ⟨hlab, q, hq, hsince⟩
    · exact .inl hnan
    · exact .inr ⟨hlab, q, hq, hsince.snoc (by simp [hpost])⟩
  | stop _ _ hspin _ _ => exact .inl hspin
  | joy _ _ _ _ _ hspin _ => exact .inl hspin
  | lab command permitted t he o hsel hfw =>
    subst he
    by_cases hlab : s'.selector.source = .kLab
    · have hrun : s'.spinSinceSec = (s.spunUp command permitted t).spinSinceSec := by
        rw [hfw.spinSince, if_pos (by rw [← hlab, hsel]; rfl)]
      have hold : s.spinSinceSec = .nan ∨ ∃ q, s.spinSinceSec = .fin q :=
        h.spin.imp_right (fun hrun => ⟨_, hrun.2.choose_spec.1⟩)
      rcases @spin_clock (s.received command permitted t) hold (s.starting command permitted t)
          (labRoller s.config command) t with hnan | ⟨q, hq, hmin, hclock⟩
      · exact .inl (by rw [hrun]; exact hnan)
      · obtain ⟨o', ho', hosrc, -, -, hroller⟩ := hfw.output
        obtain rfl : o = o' := Option.some.inj ho'
        have hspinning : ∀ o' ∈ (stepOf step s (.lab command permitted t)).out,
            Spinning config o' := by
          intro o' ho'
          rw [hpost, List.mem_singleton] at ho'
          subst ho'
          refine ⟨hosrc, ?_⟩
          rw [hroller, ← h.configured]
          exact hmin
        refine .inr ⟨hlab, q, by rw [hrun]; exact hq, ?_⟩
        rcases hclock with hkept | rfl
        · -- the clock runs on
          have hkept : s.spinSinceSec = .fin q := hkept
          rcases h.spin with hnan | ⟨-, q', hq', hsince⟩
          · rw [hkept] at hnan
            cases hnan
          · rw [hkept] at hq'
            cases hq'
            exact hsince.snoc hspinning
        · -- the clock starts with this command
          exact spinningSince_self (by simp [hpost]) hspinning
    · refine .inl ?_
      rw [hfw.spinSince, if_neg ?_]
      intro hsrc
      exact hlab (by rw [hsel]; exact hsrc)

/-! ## The interval -/

theorem interval_step (h : FlowInv config past s) (htime : ∀ r ∈ past, r.event.time ≤ e.time) :
    ∀ x r y, past ++ [stepOf step s e] = x ++ r :: y → Fires x r →
      ∃ q, (step s e).1.lastFireSec = .fin q ∧ r.event.time ≤ q := by
  intro x r y hsplit hfires
  rw [(step_counted s e).lastFire]
  rcases split_snoc hsplit with ⟨rfl, rfl⟩ | ⟨y', rfl⟩
  · rw [fires_iff h.fireSeq] at hfires
    exact ⟨e.time, if_pos hfires, le_rfl⟩
  · obtain ⟨q, hq, hr⟩ := h.interval x r y' rfl hfires
    cases haccept : s.accepts e with
    | true => exact ⟨e.time, rfl, htime r (by simp)⟩
    | false => exact ⟨q, hq, hr⟩

theorem flowInv_step (h : FlowInv config past s) (htime : ∀ r ∈ past, r.event.time ≤ e.time) :
    FlowInv config (past ++ [stepOf step s e]) (step s e).1 where
  configured := by rw [step_config, h.configured]
  fireSeq := publishedSeq_snoc h.fireSeq
  joyStream := joyStream_step h.joyStream
  labStream := labStream_step h.labStream
  spin := spin_step h
  interval := interval_step h htime

/-! ## What a shot needs -/

theorem spinReady_zero {nowSec : ℚ} (h : Dbl.eq (s.spinReadyInSec nowSec) 0 = true) :
    s.selector.source = .kLab ∧ s.spinSinceSec ≠ .nan ∧
      ¬ 0 < s.config.spinUpSec - (.fin nowSec - s.spinSinceSec) := by
  unfold spinReadyInSec at h
  split at h
  · cases h
  · rename_i hrun
    simp only [Bool.or_eq_true, decide_eq_true_eq, not_or, not_not] at hrun
    refine ⟨hrun.1, ?_, ?_⟩
    · intro hnan
      exact hrun.2 (by rw [hnan]; rfl)
    · intro hpos
      rw [Dbl.max, if_pos hpos, Dbl.eq, Bool.and_eq_true, beq_iff_eq] at h
      rw [h.2] at hpos
      exact Dbl.not_lt_of_le (Dbl.fin_le_fin.2 le_rfl) hpos

/-- A lab shot is fired with the lab in command, out of a running clock that
has run for the spin-up time. -/
theorem accepts_lab {command : LauncherCommand} {permitted : Bool} {nowSec : ℚ}
    (hmin : 0 < s.config.minFirePower)
    (h : s.accepts (.lab command permitted nowSec) = true) :
    s.selector.source = .kLab ∧ (s.labEvents command nowSec).fire = true ∧
      ¬ 0 < s.config.spinUpSec -
        (.fin nowSec - (step s (.lab command permitted nowSec)).1.spinSinceSec) ∧
      (step s (.lab command permitted nowSec)).1.spinSinceSec ≠ .nan ∧
      ¬ 0 < s.nextFireInSec nowSec := by
  simp only [accepts, shotReady, Bool.and_eq_true, Bool.not_eq_true', decide_eq_false_iff_not] at h
  obtain ⟨⟨⟨hbroken, hforward⟩, hfire⟩, hspun, hinterval⟩ := h
  have hrun : (step s (.lab command permitted nowSec)).1.spinSinceSec =
      if (s.labSelection command permitted nowSec).1.source = .kLab then
        (s.spunUp command permitted nowSec).spinSinceSec else .nan := by
    simp only [step]
    rw [onLab_forward hbroken hforward, (forwardLab_forwarded _ _ _).spinSince]
    rfl
  have hsel : (s.spunUp command permitted nowSec).selector =
      (s.labSelection command permitted nowSec).1 := by simp [spunUp, received]
  have hconfig : (s.spunUp command permitted nowSec).config = s.config := by
    simp [spunUp, received]
  have hlast : (s.spunUp command permitted nowSec).lastFireSec = s.lastFireSec := by
    simp [spunUp, received]
  obtain ⟨hlab, hclock, hready⟩ := spinReady_zero hspun
  rw [hsel] at hlab
  rw [hconfig] at hready
  rw [if_pos hlab] at hrun
  refine ⟨?_, hfire, by rw [hrun]; exact hready, by rw [hrun]; exact hclock, ?_⟩
  · -- the command that hands the launcher over has no speed and clears the clock
    by_contra hjoy
    have hstarting : s.starting command permitted nowSec = true := by
      simp [starting, hjoy, hlab]
    refine hclock ?_
    rw [spunUp, spin_since, hstarting, if_pos rfl, if_neg]
    intro hle
    exact Dbl.not_lt_of_le hle hmin
  · unfold nextFireInSec at hinterval ⊢
    rw [hconfig, hlast] at hinterval
    exact hinterval

theorem interval_passed {nowSec q i : ℚ} (hlast : s.lastFireSec = .fin q)
    (hinterval : s.config.fireIntervalSec = .fin i) (h : ¬ 0 < s.nextFireInSec nowSec) :
    i ≤ nowSec - q := by
  rw [nextFireInSec, hlast, hinterval, Dbl.fin_sub_fin, Dbl.fin_sub_fin] at h
  by_contra hlt
  have hpos : (0 : Dbl) < .fin (i - (nowSec - q)) := by
    show Dbl.fin 0 < .fin (i - (nowSec - q))
    rw [Dbl.fin_lt_fin]
    linarith
  simp [hpos] at h

theorem clock_le {spinUp : Dbl} {nowSec q u : ℚ}
    (hready : ¬ 0 < spinUp - (.fin nowSec - .fin q)) (hu : .fin nowSec - spinUp ≤ .fin u) :
    q ≤ u := by
  cases spinUp with
  | fin c =>
    rw [Dbl.fin_sub_fin, Dbl.fin_sub_fin] at hready
    rw [Dbl.fin_sub_fin, Dbl.fin_le_fin] at hu
    have hle : ¬ 0 < c - (nowSec - q) := fun hlt => hready (Dbl.fin_lt_fin.2 hlt)
    linarith
  | nan => exact absurd hu Bool.false_ne_true
  | ninf => exact absurd hu Bool.false_ne_true
  | pinf => exact absurd rfl hready

/-! ## Every run -/

/-- What a step that increments the published fire sequence is: asked for by
its own message and, for the lab, out of a roller published at firing speed at
every instant of the spin-up time, an interval after every shot before it. -/
structure Interlocked (config : LauncherConfig) (past : List FlowStep) (t : FlowStep) : Prop where
  own : OwnRequest past t
  spun : ∀ command permitted nowSec, t.event = .lab command permitted nowSec →
    ∀ u : ℚ, .fin nowSec - config.spinUpSec ≤ .fin u → u ≤ nowSec →
      ∃ o, outputAt (past ++ [t]) u = some o ∧ Spinning config o
  interval : ∀ command permitted nowSec, t.event = .lab command permitted nowSec →
    ∀ x r y, past = x ++ r :: y → Fires x r →
      config.fireIntervalSec ≤ .fin (nowSec - r.event.time)

/-- A step that fires, after steps the invariant describes. -/
theorem step_interlocked (h : FlowInv config past s) (hmin : 0 < config.minFirePower)
    (hinterval : config.fireIntervalSec.isfinite = true)
    (hafter : FlowInv config (past ++ [stepOf step s e]) (step s e).1)
    (hfires : Fires past (stepOf step s e)) : Interlocked config past (stepOf step s e) := by
  rw [fires_iff h.fireSeq] at hfires
  have hconfig := h.configured
  subst hconfig
  cases e with
  | joy command t =>
    simp only [accepts, Bool.and_eq_true] at hfires
    obtain ⟨hhave, hlt⟩ := InputEvents.onCommand_fire hfires.2
    obtain ⟨prev, hprev, hseq⟩ := h.joyStream hhave
    exact ⟨⟨prev, hprev, hseq ▸ hlt⟩, by rintro _ _ _ ⟨⟩, by rintro _ _ _ ⟨⟩⟩
  | tick permitted t => cases hfires
  | lab command permitted t =>
    obtain ⟨hlab, hfire, hready, hclock, hpassed⟩ := accepts_lab hmin hfires
    obtain ⟨i, hi⟩ := Dbl.isfinite_iff.1 hinterval
    refine ⟨?_, ?_, ?_⟩
    · obtain ⟨prev, hprev, hseq⟩ := h.labStream hlab
      exact ⟨prev, hprev, hseq ▸ (InputEvents.onCommand_fire hfire).2⟩
    · intro command' permitted' nowSec he u hu _
      cases he
      rcases hafter.spin with hnan | ⟨-, q, hq, hsince⟩
      · exact absurd hnan hclock
      · rw [hq] at hready
        exact hsince.outputAt (clock_le hready hu)
    · intro command' permitted' nowSec he x r y hpast hfired
      cases he
      obtain ⟨q, hq, hr⟩ := h.interval x r y hpast hfired
      have hle := interval_passed hq hi hpassed
      rw [hi, Dbl.fin_le_fin]
      linarith

theorem flowInv_run {es : List FlowEvent} (htimes : Chronological FlowEvent.time es) :
    FlowInv config (trace step (configure {} config) es) (final step (configure {} config) es) :=
  trace_history (fun past t => ∀ r ∈ past, r.event.time ≤ t.event.time) (flowInv_start config)
    (fun _ _ _ h htime => flowInv_step h htime) es (fun _ _ _ hab => le_time_of_split htimes hab)

/-- Every shot of a run is interlocked. -/
def ShotsInterlocked (config : LauncherConfig) (steps : List FlowStep) : Prop :=
  ∀ a t b, steps = a ++ t :: b → Fires a t → Interlocked config a t

/-- A lab request is executed when it comes or not at all: as long as the lab
only repeats its counter, the lab fires nothing. -/
def NotQueued (steps : List FlowStep) : Prop :=
  ∀ a r y t b, steps = a ++ r :: (y ++ t :: b) →
    ∀ request, r.event.labCommand? = some request →
      (∀ w ∈ y ++ [t], ∀ command, w.event.labCommand? = some command →
        command.fireSeq = request.fireSeq) →
      t.event.labCommand?.isSome = true → ¬ Fires (a ++ r :: y) t

theorem lastLab_repeated {a y : List FlowStep} {r : FlowStep} {request prev : LauncherCommand}
    (hr : r.event.labCommand? = some request)
    (hrepeat : ∀ w ∈ y, ∀ command, w.event.labCommand? = some command →
      command.fireSeq = request.fireSeq)
    (hprev : lastLab (a ++ r :: y) = some prev) : prev.fireSeq = request.fireSeq := by
  rw [lastLab, List.filterMap_append,
    List.filterMap_cons_some (f := fun r : FlowStep => r.event.labCommand?) hr,
    List.getLast?_append, List.getLast?_cons] at hprev
  simp only [Option.some_or, Option.some.injEq] at hprev
  cases hlast : (y.filterMap fun r => r.event.labCommand?).getLast? with
  | none =>
    rw [hlast] at hprev
    exact congrArg LauncherCommand.fireSeq hprev.symm
  | some last =>
    rw [hlast] at hprev
    obtain ⟨w, hw, hcommand⟩ := List.mem_filterMap.1 (List.mem_of_getLast? hlast)
    exact hrepeat w hw prev (hcommand.trans (congrArg some hprev))

theorem notQueued_of_interlocked {steps : List FlowStep} (h : ShotsInterlocked config steps) :
    NotQueued steps := by
  intro a r y t b hsteps request hr hrepeat hlab hfires
  have hown := (h (a ++ r :: y) t b (by simp [hsteps]) hfires).own
  unfold OwnRequest at hown
  cases he : t.event with
  | joy command nowSec => simp [he, FlowEvent.labCommand?] at hlab
  | tick permitted nowSec => simp [he, FlowEvent.labCommand?] at hlab
  | lab command permitted nowSec =>
    rw [he] at hown
    obtain ⟨prev, hprev, hlt⟩ := hown
    have hseq : command.fireSeq = request.fireSeq :=
      hrepeat t (by simp) command (by rw [he]; rfl)
    have hold : prev.fireSeq = request.fireSeq :=
      lastLab_repeated hr (fun w hw => hrepeat w (List.mem_append_left _ hw)) hprev
    rw [hold, hseq] at hlt
    exact absurd hlt (UInt32.lt_irrefl _)

/-- In every run with the times in order, `minFirePower` positive and a finite
interval (the node refuses any other), every shot is interlocked and no lab
request is queued. -/
theorem lab_shots_interlocked (config : LauncherConfig) (es : List FlowEvent)
    (htimes : Chronological FlowEvent.time es) (hmin : 0 < config.minFirePower)
    (hinterval : config.fireIntervalSec.isfinite = true) :
    ShotsInterlocked config (trace step (configure {} config) es) ∧
      NotQueued (trace step (configure {} config) es) := by
  have hshots : ShotsInterlocked config (trace step (configure {} config) es) := by
    intro a t b hab hfires
    obtain ⟨es₁, e, es₂, rfl, rfl, rfl, -⟩ := trace_split hab
    have hpast : FlowInv config (trace step (configure {} config) es₁)
        (final step (configure {} config) es₁) := flowInv_run htimes.of_append
    have htime := le_time_of_split htimes hab
    exact step_interlocked hpast hmin hinterval (flowInv_step hpast htime) hfires
  exact ⟨hshots, notQueued_of_interlocked hshots⟩

/-- A lab run that spins up, fires and asks again within the interval. -/
def shotRun : List FlowEvent :=
  [.lab { rollerPower := .fin (1 / 2) } true 0,
    .lab { rollerPower := .fin (1 / 2) } true (1 / 10),
    .lab { rollerPower := .fin (1 / 2) } true 1,
    .lab { rollerPower := .fin (1 / 2), fireSeq := 1 } true (6 / 5),
    .lab { rollerPower := .fin (1 / 2), fireSeq := 2 } true (7 / 5)]

theorem lab_shots_interlocked_run :
    ShotsInterlocked {} (trace step (configure {} {}) shotRun) ∧
      NotQueued (trace step (configure {} {}) shotRun) :=
  lab_shots_interlocked {} shotRun (by decide +kernel) (by decide +kernel) rfl

example : (trace step (configure {} {}) shotRun).map
      (fun t => t.out.map fun o => o.command.fireSeq) = [[0], [0], [0], [1], [1]] := by
  decide +kernel

end LauncherFlow

end Questix.CommandArbiter
