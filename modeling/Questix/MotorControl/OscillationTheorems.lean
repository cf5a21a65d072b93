/-
Questix.MotorControl.OscillationTheorems — what the runaway guard holds of the
command that goes from limit to limit: the last part of `updateGuard`.

The two arrays and their count are a list of switches, oldest first (`switches`).
Dropping what is too old is dropping a front of that list (`switches_dropOldest`),
so that after a call the list is what the window leaves of every switch since the
guard was last reset (`Noted`, kept by `noted_step`). Four in the window is a
trip, and a trip resets: so there are never four when a call begins, and no index
leaves the arrays (`updateGuardAt`, which stops where one would).
-/
import Mathlib.Data.List.Chain
import Questix.MotorControl.DdtCurrentPi

namespace Questix.MotorControl.OscillationTheorems

open DdtCurrentPi

/-! ## The arrays as a list -/

/-- A record: its time, and the direction of the command. -/
def slot (s : GuardState) (i : ℕ) : ℚ × ℤ :=
  (s.saturationTimes[i]?.getD 0, s.saturationSigns[i]?.getD 0)

/-- The records in use. -/
def switches (s : GuardState) : List (ℚ × ℤ) := (List.range s.saturationCount).map (slot s)

@[simp] theorem length_switches (s : GuardState) : (switches s).length = s.saturationCount := by
  unfold switches
  rw [List.length_map, List.length_range]

theorem getElem?_switches (s : GuardState) (i : ℕ) :
    (switches s)[i]? = if i < s.saturationCount then some (slot s i) else none := by
  unfold switches
  rw [List.getElem?_map]
  split
  · rw [List.getElem?_range ‹_›]
    rfl
  · rw [List.getElem?_eq_none (by rw [List.length_range]; omega)]
    rfl

/-- Older than the window. -/
def old (nowSec : ℚ) (r : ℚ × ℤ) : Bool := decide (kOscillationWindowSec < nowSec - r.1)

/-- What the window leaves. -/
def window (nowSec : ℚ) (log : List (ℚ × ℤ)) : List (ℚ × ℤ) := log.filter fun r => !old nowSec r

theorem drop_switches {s : GuardState} {i : ℕ} (h : i < s.saturationCount) :
    (switches s).drop i = slot s i :: (switches s).drop (i + 1) := by
  have hlt : i < (switches s).length := by rwa [length_switches]
  rw [List.drop_eq_getElem_cons hlt]
  congr 1
  have hget := getElem?_switches s i
  rw [if_pos h, List.getElem?_eq_getElem hlt] at hget
  exact Option.some.inj hget

theorem keepFrom_eq (s : GuardState) (nowSec : ℚ) (fuel i : ℕ) (h : i + fuel = s.saturationCount) :
    keepFrom s nowSec fuel i = i + (((switches s).drop i).takeWhile (old nowSec)).length := by
  induction fuel generalizing i with
  | zero =>
    rw [List.drop_eq_nil_of_le (by rw [length_switches]; omega)]
    rfl
  | succ fuel ih =>
    rw [drop_switches (by omega), List.takeWhile_cons, keepFrom]
    by_cases hold : kOscillationWindowSec < nowSec - s.saturationTimes[i]?.getD 0
    · have holds : old nowSec (slot s i) = true := decide_eq_true hold
      have hnext := ih (i + 1) (by omega)
      rw [if_pos hold, if_pos holds, hnext, List.length_cons]
      omega
    · have holds : ¬ old nowSec (slot s i) = true := mt of_decide_eq_true hold
      rw [if_neg hold, if_neg holds]
      rfl

/-! ## Moving down -/

theorem getD_setIfInBounds {α : Type} (v : Vector α 4) {i : ℕ} (h : i < 4) (j : ℕ) (x d : α) :
    (v.setIfInBounds i x)[j]?.getD d = if i = j then x else v[j]?.getD d := by
  rw [Vector.getElem?_setIfInBounds]
  by_cases hij : i = j
  · rw [if_pos hij, if_pos hij, if_pos h]
    rfl
  · rw [if_neg hij, if_neg hij]

/-- One round of the loop in `dropOldest`. -/
def moveDown (n : ℕ) (s : GuardState) (i : ℕ) : GuardState :=
  { s with
    saturationTimes := s.saturationTimes.setIfInBounds (i - n) (s.saturationTimes[i]?.getD 0)
    saturationSigns := s.saturationSigns.setIfInBounds (i - n) (s.saturationSigns[i]?.getD 0) }

theorem slot_moveDown {n i : ℕ} (h : i - n < 4) (s : GuardState) (j : ℕ) :
    slot (moveDown n s i) j = if i - n = j then slot s i else slot s j := by
  unfold slot moveDown
  rw [getD_setIfInBounds _ h, getD_setIfInBounds _ h]
  split <;> rfl

theorem slot_foldl_moveDown (s : GuardState) (n k : ℕ) (h : n + k ≤ 4) (j : ℕ) :
    slot ((List.range' n k).foldl (moveDown n) s) j
      = if j < k then slot s (n + j) else slot s j := by
  induction k generalizing j with
  | zero => rfl
  | succ k ih =>
    have hsub : n + k - n = k := by omega
    rw [List.range'_1_concat, List.foldl_append, List.foldl_cons, List.foldl_nil,
      slot_moveDown (by omega), hsub, ih (by omega), ih (by omega)]
    have hnot : ¬ n + k < k := by omega
    rw [if_neg hnot]
    rcases lt_trichotomy j k with hlt | rfl | hgt
    · rw [if_neg (by omega), if_pos hlt, if_pos (by omega)]
    · rw [if_pos rfl, if_pos (by omega)]
    · rw [if_neg (by omega), if_neg (by omega), if_neg (by omega)]

theorem switches_dropOldest {s : GuardState} {n : ℕ} (hn : n ≤ s.saturationCount)
    (h : s.saturationCount ≤ 4) : switches (dropOldest s n) = (switches s).drop n := by
  refine List.ext_getElem? fun i => ?_
  have hcount : (dropOldest s n).saturationCount = s.saturationCount - n := rfl
  have hslot : slot (dropOldest s n) i
      = slot ((List.range' n (s.saturationCount - n)).foldl (moveDown n) s) i := rfl
  rw [List.getElem?_drop, getElem?_switches, getElem?_switches, hcount, hslot,
    slot_foldl_moveDown s n _ (by omega)]
  by_cases hi : i < s.saturationCount - n
  · have hsum : n + i < s.saturationCount := by omega
    rw [if_pos hi, if_pos hi, if_pos hsum]
  · have hsum : ¬ n + i < s.saturationCount := by omega
    rw [if_neg hi, if_neg hsum]

/-! ## One call -/

/-- The command is at the limit. -/
def Saturated (sample : GuardSample) : Prop :=
  0 < sample.maxCurrentAmp ∧ kSaturationFraction * sample.maxCurrentAmp ≤ |sample.commandedAmp|

instance (sample : GuardSample) : Decidable (Saturated sample) :=
  inferInstanceAs (Decidable (_ ∧ _))

/-- A command at the limit whose direction is not that of the last record in the window. -/
def Switched (log : List (ℚ × ℤ)) (sample : GuardSample) : Prop :=
  Saturated sample ∧
    ∀ r ∈ (window sample.nowSec log).getLast?, r.2 ≠ signOf sample.commandedAmp

instance (log : List (ℚ × ℤ)) (sample : GuardSample) : Decidable (Switched log sample) :=
  inferInstanceAs (Decidable (_ ∧ _))

/-- Every switch there was, with that of one more call. -/
def note (log : List (ℚ × ℤ)) (sample : GuardSample) : List (ℚ × ℤ) :=
  if Switched log sample then log ++ [(sample.nowSec, signOf sample.commandedAmp)] else log

theorem window_note (log : List (ℚ × ℤ)) (sample : GuardSample) :
    window sample.nowSec (note log sample)
      = if Switched log sample then
          window sample.nowSec log ++ [(sample.nowSec, signOf sample.commandedAmp)]
        else window sample.nowSec log := by
  -- a record of this moment is in the window
  have hnew : old sample.nowSec (sample.nowSec, signOf sample.commandedAmp) = false := by
    refine decide_eq_false ?_
    show ¬ kOscillationWindowSec < sample.nowSec - sample.nowSec
    norm_num [kOscillationWindowSec]
  unfold note
  split
  · unfold window
    rw [List.filter_append, List.filter_singleton, hnew]
    rfl
  · rfl

/-- Times that do not go back. -/
def Ordered (log : List (ℚ × ℤ)) : Prop := log.Pairwise fun r r' => r.1 ≤ r'.1

theorem dropWhile_old {log : List (ℚ × ℤ)} (h : Ordered log) (nowSec : ℚ) :
    log.dropWhile (old nowSec) = window nowSec log := by
  induction log with
  | nil => rfl
  | cons r log ih =>
    obtain ⟨hhead, htail⟩ := List.pairwise_cons.1 h
    unfold window
    rw [List.dropWhile_cons, List.filter_cons]
    by_cases hold : old nowSec r = true
    · rw [if_pos hold, hold]
      exact ih htail
    · have hall : log.filter (fun r => !old nowSec r) = log := by
        refine List.filter_eq_self.2 fun r' hr' => ?_
        have hyoung : ¬ kOscillationWindowSec < nowSec - r.1 := mt decide_eq_true hold
        have hlater := hhead r' hr'
        have hyoung' : ¬ kOscillationWindowSec < nowSec - r'.1 := fun hr => hyoung (by linarith)
        exact congrArg not (decide_eq_false hyoung')
      rw [if_neg hold, eq_false_of_ne_true hold, hall]
      rfl

/-- The state after what is too old was dropped. -/
def aged (s : GuardState) (nowSec : ℚ) : GuardState :=
  let keep := keepFrom s nowSec s.saturationCount 0
  if 0 < keep then dropOldest s keep else s

theorem switches_aged {s : GuardState} (hcount : s.saturationCount ≤ 4) (h : Ordered (switches s))
    (nowSec : ℚ) : switches (aged s nowSec) = window nowSec (switches s) := by
  have hkeep := keepFrom_eq s nowSec s.saturationCount 0 (Nat.zero_add _)
  rw [List.drop_zero, Nat.zero_add] at hkeep
  have hle : keepFrom s nowSec s.saturationCount 0 ≤ s.saturationCount := by
    have hprefix := (List.takeWhile_prefix (l := switches s) (old nowSec)).length_le
    rwa [length_switches, ← hkeep] at hprefix
  have hdrop : switches (aged s nowSec)
      = (switches s).drop (keepFrom s nowSec s.saturationCount 0) := by
    unfold aged
    dsimp only
    split
    · exact switches_dropOldest hle hcount
    · rename_i hzero
      rw [Nat.eq_zero_of_not_pos hzero]
      rfl
  have hsplit : (switches s).takeWhile (old nowSec) ++ (switches s).dropWhile (old nowSec)
      = switches s := List.takeWhile_append_dropWhile
  calc switches (aged s nowSec)
      = (switches s).drop ((switches s).takeWhile (old nowSec)).length := by rw [hdrop, hkeep]
    _ = (switches s).dropWhile (old nowSec) := by
      conv_lhs =>
        arg 2
        rw [← hsplit]
      exact List.drop_left
    _ = window nowSec (switches s) := dropWhile_old h nowSec

theorem last_sign_ne (s : GuardState) (sign : ℤ) :
    (s.saturationCount = 0 ∨ s.saturationSigns[s.saturationCount - 1]?.getD 0 ≠ sign)
      ↔ ∀ r ∈ (switches s).getLast?, r.2 ≠ sign := by
  rw [List.getLast?_eq_getElem?, length_switches, getElem?_switches]
  rcases Nat.eq_zero_or_pos s.saturationCount with hzero | hpos
  · rw [hzero]
    exact iff_of_true (.inl rfl) fun r hr => by cases hr
  · rw [if_pos (by omega)]
    constructor
    · rintro (hzero | hne) r hr
      · omega
      · cases hr
        exact hne
    · exact fun h => .inr (h _ rfl)

/-- A record behind the others. -/
def append (s : GuardState) (sample : GuardSample) : GuardState :=
  { s with
    saturationTimes := s.saturationTimes.setIfInBounds s.saturationCount sample.nowSec
    saturationSigns :=
      s.saturationSigns.setIfInBounds s.saturationCount (signOf sample.commandedAmp)
    saturationCount := s.saturationCount + 1 }

theorem switches_append {s : GuardState} (h : s.saturationCount < 4) (sample : GuardSample) :
    switches (append s sample) = switches s ++ [(sample.nowSec, signOf sample.commandedAmp)] := by
  have hslot (j : ℕ) : slot (append s sample) j =
      if s.saturationCount = j then (sample.nowSec, signOf sample.commandedAmp)
      else slot s j := by
    unfold slot append
    rw [getD_setIfInBounds _ h, getD_setIfInBounds _ h]
    split <;> rfl
  have hcount : (append s sample).saturationCount = s.saturationCount + 1 := rfl
  unfold switches
  rw [hcount, List.range_succ, List.map_append, List.map_singleton, hslot, if_pos rfl]
  congr 1
  refine List.map_congr_left fun j hj => ?_
  rw [hslot, if_neg (List.mem_range.1 hj).ne']

/-- The second half of `updateOscillation`: from what is left of the records. -/
def recordCommand (state : GuardState) (sample : GuardSample) : GuardState × Bool :=
  if Saturated sample then
    let sign := signOf sample.commandedAmp
    if state.saturationCount = 0 ∨
        state.saturationSigns[state.saturationCount - 1]?.getD 0 ≠ sign then
      let state :=
        if state.saturationCount = kOscillationSwitches then dropOldest state 1 else state
      (append state sample, decide (kOscillationSwitches ≤ state.saturationCount + 1))
    else (state, false)
  else (state, false)

theorem updateOscillation_eq_record (s : GuardState) (sample : GuardSample) :
    updateOscillation s sample = recordCommand (aged s sample.nowSec) sample := rfl

theorem recordCommand_of_switch {s : GuardState} (h : s.saturationCount < 4) {sample : GuardSample}
    (hsat : Saturated sample)
    (hsign : ∀ r ∈ (switches s).getLast?, r.2 ≠ signOf sample.commandedAmp) :
    recordCommand s sample = (append s sample, decide (4 ≤ s.saturationCount + 1)) := by
  have hfull : ¬ s.saturationCount = kOscillationSwitches := h.ne
  unfold recordCommand
  rw [if_pos hsat]
  refine (if_pos ((last_sign_ne s _).2 hsign)).trans ?_
  rw [if_neg hfull]
  rfl

theorem recordCommand_of_not_switch (s : GuardState) {sample : GuardSample}
    (h : ¬ (Saturated sample ∧ ∀ r ∈ (switches s).getLast?, r.2 ≠ signOf sample.commandedAmp)) :
    recordCommand s sample = (s, false) := by
  unfold recordCommand
  split
  · rename_i hsat
    exact if_neg fun hsign => h ⟨hsat, (last_sign_ne s _).1 hsign⟩
  · rfl

theorem updateOscillation_eq {s : GuardState} (hcount : s.saturationCount < 4)
    (h : Ordered (switches s)) (sample : GuardSample) :
    switches (updateOscillation s sample).1 = window sample.nowSec (note (switches s) sample) ∧
      ((updateOscillation s sample).2 = true ↔
        Switched (switches s) sample ∧ (window sample.nowSec (switches s)).length = 3) := by
  have hwindow := switches_aged hcount.le h sample.nowSec
  have hlt : (aged s sample.nowSec).saturationCount < 4 := by
    rw [← length_switches, hwindow]
    exact (List.length_filter_le ..).trans_lt (by rwa [length_switches])
  have hlen := length_switches (aged s sample.nowSec)
  rw [hwindow] at hlen
  rw [updateOscillation_eq_record, window_note]
  by_cases hswitched : Switched (switches s) sample
  · rw [recordCommand_of_switch hlt hswitched.1 (hwindow.symm ▸ hswitched.2), if_pos hswitched,
      switches_append hlt, hwindow]
    refine ⟨rfl, ?_⟩
    rw [decide_eq_true_iff, and_iff_right hswitched]
    omega
  · rw [recordCommand_of_not_switch _ (hwindow.symm ▸ hswitched), if_neg hswitched]
    exact ⟨hwindow, iff_of_false Bool.false_ne_true fun h => hswitched h.1⟩

/-- The two checks before it say nothing. -/
def Silent (s : GuardState) (params : GuardParams) (sample : GuardSample) : Prop :=
  (updateAgainst s sample).2 = false ∧
    (updateOverspeed (updateAgainst s sample).1 params sample).2 = false

theorem switches_checks (s : GuardState) (params : GuardParams) (sample : GuardSample) :
    switches (updateAgainst s sample).1 = switches s ∧
      switches (updateOverspeed (updateAgainst s sample).1 params sample).1 = switches s := by
  have hagainst : switches (updateAgainst s sample).1 = switches s := by
    unfold updateAgainst
    dsimp only
    split <;> rfl
  refine ⟨hagainst, ?_⟩
  rw [← hagainst]
  unfold updateOverspeed
  dsimp only
  split
  · split <;> rfl
  · rfl

/-- What a call does with the records, and when it says that the command oscillates. -/
theorem updateGuard_spec {s : GuardState} (hcount : s.saturationCount < 4)
    (h : Ordered (switches s)) (params : GuardParams) (sample : GuardSample) :
    (Silent s params sample →
      switches (updateGuard s params sample).1
        = window sample.nowSec (note (switches s) sample)) ∧
    (¬ Silent s params sample →
      switches (updateGuard s params sample).1 = switches s ∧
        (updateGuard s params sample).2 ≠ .kNone) ∧
    ((updateGuard s params sample).2 = .kOscillation ↔
      Silent s params sample ∧ Switched (switches s) sample ∧
        (window sample.nowSec (switches s)).length = 3) ∧
    ((updateGuard s params sample).2 = .kNone ↔
      Silent s params sample ∧ ¬ (Switched (switches s) sample ∧
        (window sample.nowSec (switches s)).length = 3)) := by
  obtain ⟨hagainst, hoverspeed⟩ := switches_checks s params sample
  unfold Silent updateGuard
  cases hfirst : (updateAgainst s sample).2 with
  | true => simp [hfirst, hagainst]
  | false =>
    cases hsecond : (updateOverspeed (updateAgainst s sample).1 params sample).2 with
    | true => simp [hfirst, hsecond, hoverspeed]
    | false =>
      have hcount' : (updateOverspeed (updateAgainst s sample).1 params sample).1.saturationCount
          < 4 := by
        rwa [← length_switches, hoverspeed, length_switches]
      obtain ⟨hswitches, htrip⟩ := updateOscillation_eq hcount' (hoverspeed.symm ▸ h) sample
      rw [hoverspeed] at hswitches htrip
      cases hthird : (updateOscillation
          (updateOverspeed (updateAgainst s sample).1 params sample).1 sample).2 with
      | true =>
        have hfour := htrip.1 hthird
        simp [hfirst, hsecond, hthird, hswitches, hfour]
      | false =>
        have hfour := mt htrip.2 (Bool.eq_false_iff.1 hthird)
        simp [hfirst, hsecond, hthird, hswitches, hfour]

/-! ## Runs -/

/-- What happens to the guard of one motor: it is called, or reset where the motor is stopped. -/
inductive GuardEvent where
  | call (params : GuardParams) (sample : GuardSample)
  | reset

/-- The guard, and every switch since its last reset. -/
structure Guarded where
  state : GuardState := {}
  log : List (ℚ × ℤ) := []

/-- `commandCurrentMode` around the guard: `tripCurrentGuard` resets it. -/
def guardStep (g : Guarded) : GuardEvent → Guarded
  | .call params sample =>
    let judged := updateGuard g.state params sample
    if judged.2 = .kNone then { state := judged.1, log := note g.log sample } else {}
  | .reset => {}

def guardRun (events : List GuardEvent) : Guarded := events.foldl guardStep {}

/-- The times of the calls. -/
def callTimes (events : List GuardEvent) : List ℚ :=
  events.filterMap fun
    | .call _ sample => some sample.nowSec
    | .reset => none

/-- One limit and the other, in turn. -/
def Alternates (log : List (ℚ × ℤ)) : Prop :=
  (∀ r ∈ log, r.2 = 1 ∨ r.2 = -1) ∧ log.IsChain fun r r' => r.2 ≠ r'.2

/-- The guard after a call at `t`: its records are what the window leaves of the log. -/
structure Noted (g : Guarded) (t : ℚ) : Prop where
  count : g.state.saturationCount < 4
  held : switches g.state = window t g.log
  ordered : Ordered g.log
  past : ∀ r ∈ g.log, r.1 ≤ t
  alternates : Alternates (window t g.log)

theorem noted_reset (t : ℚ) : Noted {} t where
  count := Nat.zero_lt_succ 3
  held := rfl
  ordered := .nil
  past := fun _ hr => absurd hr List.not_mem_nil
  alternates := ⟨fun _ hr => absurd hr List.not_mem_nil, .nil⟩

theorem window_window {t nowSec : ℚ} (h : t ≤ nowSec) (log : List (ℚ × ℤ)) :
    window nowSec (window t log) = window nowSec log := by
  unfold window
  rw [List.filter_filter]
  refine List.filter_congr fun r _ => ?_
  by_cases hold : kOscillationWindowSec < t - r.1
  · have holder : kOscillationWindowSec < nowSec - r.1 := by linarith
    rw [show old nowSec r = true from decide_eq_true holder]
    rfl
  · rw [show old t r = false from decide_eq_false hold]
    exact Bool.and_true _

theorem window_suffix {t nowSec : ℚ} (h : t ≤ nowSec) {log : List (ℚ × ℤ)} (hlog : Ordered log) :
    window nowSec log <:+ window t log := by
  have hsorted : Ordered (window t log) := hlog.sublist List.filter_sublist
  rw [← window_window h, ← dropWhile_old hsorted]
  exact List.dropWhile_suffix _

theorem switched_window {t : ℚ} {sample : GuardSample} (h : t ≤ sample.nowSec)
    (log : List (ℚ × ℤ)) : Switched (window t log) sample ↔ Switched log sample := by
  unfold Switched
  rw [window_window h]

theorem window_note_window {t : ℚ} {sample : GuardSample} (h : t ≤ sample.nowSec)
    (log : List (ℚ × ℤ)) :
    window sample.nowSec (note (window t log) sample) = window sample.nowSec (note log sample) := by
  rw [window_note, window_note, window_window h]
  exact if_congr (switched_window h log) rfl rfl

theorem signOf_of_saturated {sample : GuardSample} (h : Saturated sample) :
    signOf sample.commandedAmp = 1 ∨ signOf sample.commandedAmp = -1 := by
  have hpos : 0 < |sample.commandedAmp| := by
    refine lt_of_lt_of_le (mul_pos ?_ h.1) h.2
    norm_num [kSaturationFraction]
  unfold signOf
  rcases lt_or_gt_of_ne (abs_pos.1 hpos) with hneg | hgt
  · rw [if_neg hneg.not_gt, if_pos hneg]
    exact .inr rfl
  · rw [if_pos hgt]
    exact .inl rfl

theorem alternates_note {log : List (ℚ × ℤ)} {t : ℚ} {sample : GuardSample}
    (h : t ≤ sample.nowSec) (hlog : Ordered log) (halt : Alternates (window t log)) :
    Alternates (window sample.nowSec (note log sample)) := by
  have hsuffix := window_suffix h hlog
  have hwindow : Alternates (window sample.nowSec log) :=
    ⟨fun r hr => halt.1 r (hsuffix.subset hr), halt.2.suffix hsuffix⟩
  rw [window_note]
  split
  · rename_i hswitched
    refine ⟨fun r hr => ?_, hwindow.2.append (.singleton _) fun r hr r' hr' => ?_⟩
    · rcases List.mem_append.1 hr with hr | hr
      · exact hwindow.1 r hr
      · rw [List.mem_singleton.1 hr]
        exact signOf_of_saturated hswitched.1
    · cases hr'
      exact hswitched.2 r hr
  · exact hwindow

theorem ordered_note {log : List (ℚ × ℤ)} {sample : GuardSample} (hlog : Ordered log)
    (hpast : ∀ r ∈ log, r.1 ≤ sample.nowSec) : Ordered (note log sample) := by
  unfold note
  split
  · refine List.pairwise_append.2 ⟨hlog, List.pairwise_singleton _ _, fun r hr r' hr' => ?_⟩
    rw [List.mem_singleton.1 hr']
    exact hpast r hr
  · exact hlog

theorem past_note {log : List (ℚ × ℤ)} {sample : GuardSample}
    (hpast : ∀ r ∈ log, r.1 ≤ sample.nowSec) : ∀ r ∈ note log sample, r.1 ≤ sample.nowSec := by
  unfold note
  intro r hr
  split at hr
  · rcases List.mem_append.1 hr with hr | hr
    · exact hpast r hr
    · rw [List.mem_singleton.1 hr]
  · exact hpast r hr

theorem Noted.call {g : Guarded} {t : ℚ} (h : Noted g t) (params : GuardParams)
    {sample : GuardSample} (ht : t ≤ sample.nowSec) :
    (Silent g.state params sample →
      switches (updateGuard g.state params sample).1 = window sample.nowSec (note g.log sample)) ∧
    ((updateGuard g.state params sample).2 = .kOscillation ↔
      Silent g.state params sample ∧ Switched g.log sample ∧
        (window sample.nowSec g.log).length = 3) ∧
    ((updateGuard g.state params sample).2 = .kNone ↔
      Silent g.state params sample ∧ ¬ (Switched g.log sample ∧
        (window sample.nowSec g.log).length = 3)) := by
  have hordered : Ordered (switches g.state) := h.held ▸ h.ordered.sublist List.filter_sublist
  obtain ⟨hsilent, -, htrip, hnone⟩ := updateGuard_spec h.count hordered params sample
  rw [h.held, switched_window ht, window_window ht] at htrip hnone
  rw [h.held, window_note_window ht] at hsilent
  exact ⟨hsilent, htrip, hnone⟩

theorem noted_step {g : Guarded} {t : ℚ} (h : Noted g t) (params : GuardParams)
    {sample : GuardSample} (ht : t ≤ sample.nowSec) :
    Noted (guardStep g (.call params sample)) sample.nowSec := by
  obtain ⟨hswitches, -, hnone⟩ := h.call params ht
  unfold guardStep
  dsimp only
  split
  · rename_i hquiet
    obtain ⟨hsilent, hfour⟩ := hnone.1 hquiet
    have hheld := hswitches hsilent
    have hpast : ∀ r ∈ g.log, r.1 ≤ sample.nowSec := fun r hr => (h.past r hr).trans ht
    refine ⟨?_, hheld, ordered_note h.ordered hpast, past_note hpast,
      alternates_note ht h.ordered h.alternates⟩
    -- three at most are left, and with three there is no switch
    have hleft : (window sample.nowSec g.log).length < 4 := by
      refine lt_of_le_of_lt (window_suffix ht h.ordered).length_le ?_
      rw [← h.held, length_switches]
      exact h.count
    show (updateGuard g.state params sample).1.saturationCount < 4
    rw [← length_switches, hheld, window_note]
    split
    · rename_i hswitched
      have hthree : (window sample.nowSec g.log).length ≠ 3 := fun h3 => hfour ⟨hswitched, h3⟩
      rw [List.length_append, List.length_singleton]
      omega
    · exact hleft
  · exact noted_reset _

theorem noted_foldl (events : List GuardEvent) {g : Guarded} {t : ℚ} (h : Noted g t)
    (hle : (t :: callTimes events).Pairwise (· ≤ ·)) :
    Noted (events.foldl guardStep g) ((callTimes events).getLastD t) := by
  induction events generalizing g t with
  | nil => exact h
  | cons event events ih =>
    cases event with
    | call params sample =>
      have hhead := List.pairwise_cons.1 hle
      have hstep := noted_step h params (hhead.1 sample.nowSec List.mem_cons_self)
      have hlast : (callTimes (.call params sample :: events)).getLastD t
          = (callTimes events).getLastD sample.nowSec := List.getLastD_cons ..
      rw [hlast]
      exact ih hstep hhead.2
    | reset => exact ih (noted_reset t) hle

/-! ## Indices -/

/-- Write where the index is one of the array's. -/
def writeAt {α : Type} (v : Vector α 4) (i : ℕ) (x : α) : Option (Vector α 4) :=
  if i < 4 then some (v.setIfInBounds i x) else none

/-- `keepFrom`, that stops at an index that is not one of the array's. -/
def keepFromAt (state : GuardState) (nowSec : ℚ) : ℕ → ℕ → Option ℕ
  | 0, i => some i
  | fuel + 1, i => do
    let time ← state.saturationTimes[i]?
    if kOscillationWindowSec < nowSec - time then keepFromAt state nowSec fuel (i + 1) else some i

def moveDownAt (n : ℕ) (s : GuardState) (i : ℕ) : Option GuardState := do
  let time ← s.saturationTimes[i]?
  let sign ← s.saturationSigns[i]?
  let times ← writeAt s.saturationTimes (i - n) time
  let signs ← writeAt s.saturationSigns (i - n) sign
  return { s with saturationTimes := times, saturationSigns := signs }

def dropOldestAt (state : GuardState) (n : ℕ) : Option GuardState := do
  let moved ← (List.range' n (state.saturationCount - n)).foldlM (moveDownAt n) state
  return { moved with saturationCount := state.saturationCount - n }

/-- Whether the last record, if there is one, has another direction. -/
def differsAt (state : GuardState) (sign : ℤ) : Option Bool :=
  if state.saturationCount = 0 then some true
  else do
    let last ← state.saturationSigns[state.saturationCount - 1]?
    return decide (last ≠ sign)

def appendAt (state : GuardState) (sample : GuardSample) : Option GuardState := do
  let times ← writeAt state.saturationTimes state.saturationCount sample.nowSec
  let signs ← writeAt state.saturationSigns state.saturationCount (signOf sample.commandedAmp)
  return { state with saturationTimes := times, saturationSigns := signs,
                      saturationCount := state.saturationCount + 1 }

def recordCommandAt (state : GuardState) (sample : GuardSample) : Option (GuardState × Bool) :=
  if Saturated sample then do
    let differs ← differsAt state (signOf sample.commandedAmp)
    if differs then
      let state ←
        (if state.saturationCount = kOscillationSwitches then dropOldestAt state 1 else some state)
      let appended ← appendAt state sample
      return (appended, decide (kOscillationSwitches ≤ state.saturationCount + 1))
    else return (state, false)
  else some (state, false)

def updateOscillationAt (state : GuardState) (sample : GuardSample) :
    Option (GuardState × Bool) := do
  let keep ← keepFromAt state sample.nowSec state.saturationCount 0
  let state ← (if 0 < keep then dropOldestAt state keep else some state)
  recordCommandAt state sample

/-- `updateGuard`, that stops at an index that is not one of the array's. -/
def updateGuardAt (state : GuardState) (params : GuardParams) (sample : GuardSample) :
    Option (GuardState × GuardTrip) :=
  let against := updateAgainst state sample
  if against.2 then some (against.1, .kAccelAgainstCurrent)
  else
    let overspeed := updateOverspeed against.1 params sample
    if overspeed.2 then some (overspeed.1, .kOverspeed)
    else do
      let oscillation ← updateOscillationAt overspeed.1 sample
      return if oscillation.2 then (oscillation.1, .kOscillation) else (oscillation.1, .kNone)

theorem writeAt_eq {α : Type} (v : Vector α 4) {i : ℕ} (h : i < 4) (x : α) :
    writeAt v i x = some (v.setIfInBounds i x) := if_pos h

theorem keepFromAt_eq (s : GuardState) (nowSec : ℚ) (fuel i : ℕ) (h : i + fuel ≤ 4) :
    keepFromAt s nowSec fuel i = some (keepFrom s nowSec fuel i) := by
  induction fuel generalizing i with
  | zero => rfl
  | succ fuel ih =>
    obtain ⟨time, htime⟩ : ∃ time, s.saturationTimes[i]? = some time :=
      ⟨_, Vector.getElem?_eq_getElem (by omega)⟩
    rw [keepFromAt, keepFrom, htime, ih (i + 1) (by omega)]
    exact (apply_ite some ..).symm

theorem moveDownAt_eq {n i : ℕ} (h : i < 4) (s : GuardState) :
    moveDownAt n s i = some (moveDown n s i) := by
  have hsub : i - n < 4 := by omega
  obtain ⟨time, htime⟩ : ∃ time, s.saturationTimes[i]? = some time :=
    ⟨_, Vector.getElem?_eq_getElem h⟩
  obtain ⟨sign, hsign⟩ : ∃ sign, s.saturationSigns[i]? = some sign :=
    ⟨_, Vector.getElem?_eq_getElem h⟩
  simp only [moveDownAt, moveDown, htime, hsign, Option.bind_eq_bind, Option.bind_some,
    writeAt_eq _ hsub, Option.getD_some]
  rfl

theorem dropOldestAt_eq {s : GuardState} (h : s.saturationCount ≤ 4) (n : ℕ) :
    dropOldestAt s n = some (dropOldest s n) := by
  have hfold (l : List ℕ) (hl : ∀ i ∈ l, i < 4) (s : GuardState) :
      l.foldlM (moveDownAt n) s = some (l.foldl (moveDown n) s) := by
    induction l generalizing s with
    | nil => rfl
    | cons i l ih =>
      rw [List.foldlM_cons, moveDownAt_eq (hl i List.mem_cons_self)]
      exact ih (fun j hj => hl j (List.mem_cons_of_mem i hj)) (moveDown n s i)
  have hrange : ∀ i ∈ List.range' n (s.saturationCount - n), i < 4 := by
    intro i hi
    have hbounds := List.mem_range'_1.1 hi
    omega
  unfold dropOldestAt
  rw [hfold _ hrange]
  rfl

theorem differsAt_eq {s : GuardState} (h : s.saturationCount ≤ 4) (sign : ℤ) :
    differsAt s sign = some (decide (s.saturationCount = 0 ∨
      s.saturationSigns[s.saturationCount - 1]?.getD 0 ≠ sign)) := by
  unfold differsAt
  split
  · rename_i hzero
    rw [decide_eq_true (.inl hzero)]
  · rename_i hpos
    obtain ⟨last, hlast⟩ : ∃ last, s.saturationSigns[s.saturationCount - 1]? = some last :=
      ⟨_, Vector.getElem?_eq_getElem (by omega)⟩
    rw [hlast]
    simp [hpos]

theorem appendAt_eq {s : GuardState} (h : s.saturationCount < 4) (sample : GuardSample) :
    appendAt s sample = some (append s sample) := by
  simp only [appendAt, append, writeAt_eq _ h, Option.bind_eq_bind, Option.bind_some]
  rfl

theorem recordCommandAt_eq {s : GuardState} (h : s.saturationCount < 4) (sample : GuardSample) :
    recordCommandAt s sample = some (recordCommand s sample) := by
  have hfull : ¬ s.saturationCount = kOscillationSwitches := h.ne
  unfold recordCommandAt recordCommand
  split
  · rw [differsAt_eq h.le]
    by_cases hdiffers : s.saturationCount = 0 ∨
        s.saturationSigns[s.saturationCount - 1]?.getD 0 ≠ signOf sample.commandedAmp
    · simp only [Option.bind_eq_bind, Option.bind_some, decide_eq_true hdiffers, if_pos hdiffers,
        appendAt_eq h]
      rfl
    · simp only [Option.bind_eq_bind, Option.bind_some, decide_eq_false hdiffers, if_neg hdiffers]
      rfl
  · rfl

theorem updateOscillationAt_eq {s : GuardState} (h : s.saturationCount < 4)
    (hordered : Ordered (switches s)) (sample : GuardSample) :
    updateOscillationAt s sample = some (updateOscillation s sample) := by
  have haged : (if 0 < keepFrom s sample.nowSec s.saturationCount 0 then
      dropOldestAt s (keepFrom s sample.nowSec s.saturationCount 0) else some s)
        = some (aged s sample.nowSec) := by
    rw [dropOldestAt_eq h.le]
    exact (apply_ite some ..).symm
  have hlt : (aged s sample.nowSec).saturationCount < 4 := by
    rw [← length_switches, switches_aged h.le hordered]
    exact (List.length_filter_le ..).trans_lt (by rwa [length_switches])
  unfold updateOscillationAt
  rw [keepFromAt_eq s sample.nowSec _ 0 (by omega), Option.bind_eq_bind, Option.bind_some, haged,
    updateOscillation_eq_record]
  exact recordCommandAt_eq hlt sample

theorem updateGuardAt_eq {s : GuardState} (h : s.saturationCount < 4)
    (hordered : Ordered (switches s)) (params : GuardParams) (sample : GuardSample) :
    updateGuardAt s params sample = some (updateGuard s params sample) := by
  have hswitches := (switches_checks s params sample).2
  have hcount :
      (updateOverspeed (updateAgainst s sample).1 params sample).1.saturationCount < 4 := by
    rwa [← length_switches, hswitches, length_switches]
  unfold updateGuardAt updateGuard
  dsimp only
  rw [updateOscillationAt_eq hcount (hswitches.symm ▸ hordered)]
  split
  · rfl
  · split <;> rfl

/-! ## The window -/

theorem mem_window {nowSec : ℚ} {log : List (ℚ × ℤ)} {r : ℚ × ℤ} :
    r ∈ window nowSec log ↔ r ∈ log ∧ nowSec - r.1 ≤ kOscillationWindowSec := by
  unfold window old
  rw [List.mem_filter]
  simp

/-- In every run whose times do not go back: a call finds fewer than four records, in order,
within the window of the call before and in turn, and stays inside the arrays; it leaves what its
own window leaves of every switch since the last reset, and it says that the command oscillates
when it notes the fourth of them. -/
theorem oscillation_window (before : List GuardEvent) (params : GuardParams) (sample : GuardSample)
    (h : (callTimes (before ++ [.call params sample])).Pairwise (· ≤ ·)) :
    (guardRun before).state.saturationCount < 4 ∧
      updateGuardAt (guardRun before).state params sample
        = some (updateGuard (guardRun before).state params sample) ∧
      Ordered (switches (guardRun before).state) ∧
      (∀ r ∈ switches (guardRun before).state, ∃ t, (callTimes before).getLast? = some t ∧
        r.1 ≤ t ∧ t - r.1 ≤ kOscillationWindowSec) ∧
      Alternates (switches (guardRun before).state) ∧
      (Silent (guardRun before).state params sample →
        switches (updateGuard (guardRun before).state params sample).1
            = window sample.nowSec (note (guardRun before).log sample) ∧
          Ordered (window sample.nowSec (note (guardRun before).log sample)) ∧
          Alternates (window sample.nowSec (note (guardRun before).log sample))) ∧
      ((updateGuard (guardRun before).state params sample).2 = .kOscillation ↔
        Silent (guardRun before).state params sample ∧ Switched (guardRun before).log sample ∧
          (window sample.nowSec (note (guardRun before).log sample)).length
            = kOscillationSwitches) := by
  have htimes : callTimes (before ++ [.call params sample]) = callTimes before ++ [sample.nowSec] :=
    List.filterMap_append
  rw [htimes, List.pairwise_append] at h
  obtain ⟨hbefore, -, hnow⟩ := h
  -- any time before the first call will do to begin with
  have hnoted (t : ℚ) (ht : ∀ u ∈ callTimes before, t ≤ u) :
      Noted (guardRun before) ((callTimes before).getLastD t) :=
    noted_foldl before (noted_reset t) (List.pairwise_cons.2 ⟨ht, hbefore⟩)
  have hlast (t : ℚ) (ht : (callTimes before).getLast? = some t) : Noted (guardRun before) t := by
    obtain ⟨first, hfirst⟩ : ∃ first, ∀ u ∈ callTimes before, first ≤ u := by
      cases htimes' : callTimes before with
      | nil => exact ⟨0, fun u hu => absurd hu List.not_mem_nil⟩
      | cons first rest =>
        rw [htimes'] at hbefore
        refine ⟨first, fun u hu => ?_⟩
        rcases List.mem_cons.1 hu with rfl | hu
        · exact le_refl u
        · exact (List.pairwise_cons.1 hbefore).1 u hu
    have hfrom := hnoted first hfirst
    rwa [List.getLastD_eq_getLast?, ht] at hfrom
  have hnone (t : ℚ) (ht : (callTimes before).getLast? = none) : Noted (guardRun before) t := by
    have hnil := List.getLast?_eq_none_iff.1 ht
    have hfrom := hnoted t (hnil ▸ fun u hu => absurd hu List.not_mem_nil)
    rwa [hnil] at hfrom
  obtain ⟨t, hg, ht⟩ : ∃ t, Noted (guardRun before) t ∧ t ≤ sample.nowSec := by
    cases hcase : (callTimes before).getLast? with
    | none => exact ⟨sample.nowSec, hnone _ hcase, le_refl _⟩
    | some t =>
      exact ⟨t, hlast t hcase, hnow t (List.mem_of_getLast? hcase) _ (List.mem_singleton_self _)⟩
  obtain ⟨hsilent, htrip, -⟩ := hg.call params ht
  have hordered : Ordered (switches (guardRun before).state) :=
    hg.held ▸ hg.ordered.sublist List.filter_sublist
  have hpast : ∀ r ∈ (guardRun before).log, r.1 ≤ sample.nowSec :=
    fun r hr => (hg.past r hr).trans ht
  refine ⟨hg.count, updateGuardAt_eq hg.count hordered params sample, hordered, ?_,
    hg.held ▸ hg.alternates, fun hquiet => ⟨hsilent hquiet, ?_, ?_⟩, ?_⟩
  · intro r hr
    cases hcase : (callTimes before).getLast? with
    | none =>
      -- without a call there would be records that are older than themselves
      have hearly := hnone (r.1 - 1) hcase
      rw [hearly.held] at hr
      have hle := hearly.past r (mem_window.1 hr).1
      linarith
    | some u =>
      have hu := hlast u hcase
      rw [hu.held] at hr
      exact ⟨u, rfl, hu.past r (mem_window.1 hr).1, (mem_window.1 hr).2⟩
  · exact (ordered_note hg.ordered hpast).sublist List.filter_sublist
  · exact alternates_note ht hg.ordered hg.alternates
  · rw [htrip, window_note]
    refine and_congr_right fun _ => and_congr_right fun hswitched => ?_
    rw [if_pos hswitched, List.length_append]
    exact (Nat.add_right_cancel_iff (n := 1)).symm

/-- A command at one limit or the other, with a motor that turns as it should. -/
def atLimit (nowSec commandedAmp : ℚ) : GuardEvent :=
  .call {} { nowSec, rpmRef := 100, measuredPrevRpm := 100, measuredNewRpm := 100, appliedAmp := 0,
             commandedAmp, maxCurrentAmp := 1 }

/-- A slow turn and two fast ones: the first record is gone at the fourth. -/
theorem oscillation_window_aged :
    (guardRun [atLimit 0 1, atLimit (4 / 10) (-1), atLimit (5 / 10) 1]).state.saturationCount < 4 ∧
      ∀ r ∈ switches (guardRun [atLimit 0 1, atLimit (4 / 10) (-1), atLimit (5 / 10) 1]).state,
        ∃ t, some (5 / 10) = some t ∧ r.1 ≤ t ∧ t - r.1 ≤ kOscillationWindowSec := by
  have hrun := oscillation_window [atLimit 0 1, atLimit (4 / 10) (-1), atLimit (5 / 10) 1] {}
    { nowSec := 6 / 10, rpmRef := 100, measuredPrevRpm := 100, measuredNewRpm := 100,
      appliedAmp := 0, commandedAmp := -1, maxCurrentAmp := 1 }
    (by simp only [callTimes, atLimit, List.cons_append, List.nil_append, List.filterMap_cons,
          List.filterMap_nil]
        norm_num)
  exact ⟨hrun.1, hrun.2.2.2.1⟩

end Questix.MotorControl.OscillationTheorems
