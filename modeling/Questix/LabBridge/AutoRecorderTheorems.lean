/-
Questix.LabBridge.AutoRecorderTheorems — the segments of an automatic recorder,
over runs of its calls.

While a segment is in progress the buffer is a last part of what was fed, so
that the recordings are cut out of it one behind the other (`Cuts`). What a
segment began with and what it has counted is told from the calls alone
(`Segment`).

The buffer is pruned at the end of a call only, and a payload that shows motion
is looked at before the time since the last one. In a `steady` run neither makes
a difference; otherwise a recording may begin long before its first motion, or
hold a longer standstill.
-/
import Questix.LabBridge.AutoRecorder

namespace Questix.LabBridge

open Questix.Lib

/-! ## Pieces of a list -/

/-- The pieces stand in the list one behind the other, with gaps between them. -/
inductive Cuts {α : Type*} : List (List α) → List α → Prop
  | nil : Cuts [] []
  | gap {pieces : List (List α)} {l : List α} (g : List α) : Cuts pieces l → Cuts pieces (l ++ g)
  | piece {pieces : List (List α)} {l : List α} (p : List α) :
    Cuts pieces l → Cuts (pieces ++ [p]) (l ++ p)

theorem exists_append_filter {α : Type*} {p : α → Bool} {l : List α}
    (h : l.Pairwise fun a b => p a = true → p b = true) : ∃ d, l = d ++ l.filter p := by
  induction l with
  | nil => exact ⟨[], rfl⟩
  | cons a l ih =>
    obtain ⟨ha, hl⟩ := List.pairwise_cons.1 h
    by_cases hp : p a = true
    · refine ⟨[], ?_⟩
      have hall : ∀ b ∈ a :: l, p b = true := by simpa [hp] using fun b hb => ha b hb hp
      rw [List.filter_eq_self.2 hall, List.nil_append]
    · obtain ⟨d, hd⟩ := ih hl
      refine ⟨a :: d, ?_⟩
      rw [List.filter_cons_of_neg hp, List.cons_append, ← hd]

/-! ## Motion -/

/-- The time of the last motion, after one at `last`. -/
def motionEnd : Option ℚ → List Item → Option ℚ
  | last, [] => last
  | last, item :: items => motionEnd (if item.moving then some item.now else last) items

/-- The motion that counts: from each payload that shows motion back to the one
before it, but no more than a step. -/
def countedMotion : Option ℚ → List Item → ℚ
  | _, [] => 0
  | last, item :: items =>
    if item.moving then
      (last.elim 0 fun last => min (item.now - last) maxMotionStep) +
        countedMotion (some item.now) items
    else countedMotion last items

theorem motionEnd_append (items items' : List Item) : ∀ last : Option ℚ,
    motionEnd last (items ++ items') = motionEnd (motionEnd last items) items' := by
  induction items with
  | nil => intro last; rfl
  | cons item items ih => intro last; simp [motionEnd, ih]

theorem countedMotion_append (items items' : List Item) : ∀ last : Option ℚ,
    countedMotion last (items ++ items') =
      countedMotion last items + countedMotion (motionEnd last items) items' := by
  induction items with
  | nil => intro last; simp [countedMotion, motionEnd]
  | cons item items ih =>
    intro last
    by_cases hmoving : item.moving = true
    · simp [countedMotion, motionEnd, hmoving, ih, add_assoc]
    · simp [countedMotion, motionEnd, hmoving, ih]

theorem motion_of_still {items : List Item} (h : ∀ i ∈ items, i.moving = false)
    (last : Option ℚ) : motionEnd last items = last ∧ countedMotion last items = 0 := by
  induction items with
  | nil => exact ⟨rfl, rfl⟩
  | cons item items ih =>
    obtain ⟨hitem, hitems⟩ := List.forall_mem_cons.1 h
    simpa [motionEnd, countedMotion, hitem] using ih hitems

theorem mem_of_motionEnd {items : List Item} {m : ℚ} : ∀ {last : Option ℚ},
    motionEnd last items = some m → last = some m ∨ ∃ i ∈ items, i.now = m := by
  induction items with
  | nil =>
    intro last h
    exact .inl h
  | cons item items ih =>
    intro last h
    rcases ih h with hlast | ⟨i, hi, him⟩
    · split at hlast
      · exact .inr ⟨item, by simp, Option.some.inj hlast⟩
      · exact .inl hlast
    · exact .inr ⟨i, List.mem_cons_of_mem _ hi, him⟩

/-! ## Segments -/

abbrev RecorderStep := Step AutoRecorder RecorderCall (Option (List SegmentEnd))

/-- A payload with the lab run it is fed under, if it is looked at. -/
def fedBy (call : RecorderCall) : List (Item × Bool) :=
  match call.input with
  | .feed (some stream) payload labActive => [(⟨call.clocks.now, stream, payload⟩, labActive)]
  | _ => []

def fed (past : List RecorderStep) : List (Item × Bool) := past.flatMap fun t => fedBy t.event

/-- What is fed under no lab run. -/
def taken (past : List RecorderStep) : List Item := ((fed past).filter fun i => !i.2).map Prod.fst

/-- The recordings a call hands to the sink. -/
def handedOn (out : Option (List SegmentEnd)) : List AutoRecording :=
  (out.getD []).filterMap SegmentEnd.recording

def emitted (past : List RecorderStep) : List AutoRecording := past.flatMap fun t => handedOn t.out

def outside (item : Item) : Item × Bool := (item, false)

@[simp] theorem fed_append (past past' : List RecorderStep) :
    fed (past ++ past') = fed past ++ fed past' := by simp [fed]

@[simp] theorem taken_append (past past' : List RecorderStep) :
    taken (past ++ past') = taken past ++ taken past' := by simp [taken]

theorem fed_snoc (past : List RecorderStep) (t : RecorderStep) :
    fed (past ++ [t]) = fed past ++ fedBy t.event := by simp [fed]

theorem emitted_snoc (past : List RecorderStep) (t : RecorderStep) :
    emitted (past ++ [t]) = emitted past ++ handedOn t.out := by simp [emitted]

/-- The segment that is in progress after the calls `past`: since when, what it
holds, and the motion it has counted. It began with a payload that showed
motion, and what was kept before it, or where the one before it was split. -/
inductive Segment (config : RecorderConfig) (past : List RecorderStep) (messages : List Item)
    (start motion : ℚ) : Prop
  | begins (a : List RecorderStep) (b : RecorderStep) (y : List RecorderStep) (kept : List Item)
    (first : Item) (at_ : past = a ++ b :: y) (by_ : fedBy b.event = [outside first])
    (holds : messages = kept ++ first :: taken y) (moving : first.moving = true)
    (preRoll : ∀ i ∈ kept, i.moving = false ∧ first.now - i.now ≤ config.preRoll)
    (head : messages.head?.map Item.now = some start)
    (counted : motion = countedMotion none messages)
    (inProgress : ∀ r ∈ y, r.pre.recording = true ∧ r.pre.start = start)
  | splits (a : List RecorderStep) (b : RecorderStep) (y : List RecorderStep) (ends : List SegmentEnd)
    (e : SegmentEnd) (at_ : past = a ++ b :: y) (out : b.out = some ends) (mem : e ∈ ends)
    (why : e.why = .split) (holds : messages = taken y) (since : start = b.event.clocks.now)
    (counted : motion = countedMotion (motionEnd none (taken (a ++ [b]))) messages)
    (inProgress : ∀ r ∈ y, r.pre.recording = true ∧ r.pre.start = start)

def RecorderInput.labActive : RecorderInput → Bool
  | .feed _ _ labActive => labActive
  | .tick labActive => labActive
  | .flush => false

/-- What ends a segment at a call. -/
def EndsBy (config : RecorderConfig) (past : List RecorderStep) (call : RecorderCall) (start : ℚ) :
    FinishReason → Prop
  | .lab => call.input.labActive = true
  | .done => call.input = .flush ∨ ∃ last, motionEnd none (taken past) = some last ∧
      config.stillSec ≤ call.clocks.now - last
  | .split => config.splitSec ≤ call.clocks.now - start

/-- What a recording is that is handed to the sink at the end of the calls
`past`, the last of which is `call`. -/
structure Recorded (config : RecorderConfig) (past : List RecorderStep) (call : RecorderCall)
    (recording : AutoRecording) : Prop where
  segment : ∃ start motion, Segment config past recording.messages start motion ∧
    config.minMotionSec ≤ motion ∧ EndsBy config past call start recording.outcome
  written : ∀ stream, (recording.stream stream).Perm
    ((recording.messages.filter fun i => i.stream = stream && i.stamp.isSome).map Item.payload)

/-- The end that is due after a motion at `last`, for a segment since `start`. -/
def dueAt (config : RecorderConfig) (last start now : ℚ) : List FinishReason :=
  if config.stillSec ≤ now - last then [.done]
  else if config.splitSec ≤ now - start then [.split]
  else []

/-- The same at a call. A payload of another stream is not looked at. -/
def dueEnds (config : RecorderConfig) (last start : ℚ) (call : RecorderCall) :
    List FinishReason :=
  match call.input with
  | .feed none _ _ => []
  | .flush => [.done]
  | .feed (some _) _ labActive | .tick labActive =>
    if labActive then [.lab] else dueAt config last start call.clocks.now

/-- What holds of a call behind the calls `past`. -/
structure Segmented (config : RecorderConfig) (past : List RecorderStep) (t : RecorderStep) :
    Prop where
  total : t.out ≠ none
  inProgress : t.pre.recording = true →
    (∃ motion, Segment config past t.pre.buffer t.pre.start motion) ∧
    ∃ last, motionEnd none (taken past) = some last ∧
      t.out.map (List.map SegmentEnd.why) = some (dueEnds config last t.pre.start t.event)
  recorded : ∀ recording ∈ handedOn t.out, Recorded config (past ++ [t]) t.event recording

/-- What is kept is recent when a payload shows motion, and in a segment so is
the motion before it. -/
def steady (t : RecorderStep) : Bool :=
  match t.event.input with
  | .feed (some stream) payload false =>
    !payloadMoving stream payload ||
      (if t.pre.recording then
        t.pre.lastMotion.all fun last => t.event.clocks.now - last < t.pre.config.stillSec
      else t.pre.buffer.all fun i => t.event.clocks.now - i.now ≤ t.pre.config.preRoll)
  | _ => true

section Segments

variable {config : RecorderConfig} {past : List RecorderStep} {messages : List Item}
  {start motion : ℚ} {t : RecorderStep} {item : Item} {pieces : List (List Item)}
  {r : AutoRecorder}

@[simp] theorem taken_singleton : taken [t] = ((fedBy t.event).filter fun i => !i.2).map Prod.fst := by
  simp [taken, fed]

/-- A segment takes what a call feeds it while it is in progress. -/
theorem Segment.snoc (h : Segment config past messages start motion)
    (hrecording : t.pre.recording = true) (hstart : t.pre.start = start) :
    Segment config (past ++ [t]) (messages ++ taken [t]) start
      (motion + countedMotion (motionEnd none (taken past)) (taken [t])) := by
  have hnext : ∀ {y : List RecorderStep},
      (∀ r ∈ y, r.pre.recording = true ∧ r.pre.start = start) →
      ∀ r ∈ y ++ [t], r.pre.recording = true ∧ r.pre.start = start := by
    intro y hy r hr
    rcases List.mem_append.1 hr with hr | hr
    · exact hy r hr
    · rw [List.mem_singleton.1 hr]
      exact ⟨hrecording, hstart⟩
  cases h with
  | begins a b y kept first hat hby hholds hmoving hpre hhead hcounted hin =>
    subst hat
    refine .begins a b (y ++ [t]) kept first (by simp) hby (by simp [hholds]) hmoving hpre ?_ ?_
      (hnext hin)
    · rw [hholds] at hhead ⊢
      cases kept <;> simpa using hhead
    · have hb : taken (a ++ b :: y) = taken a ++ first :: taken y := by
        rw [List.append_cons, taken_append, taken_append]
        simp [hby, outside]
      have hend : motionEnd none messages = motionEnd none (taken (a ++ b :: y)) := by
        rw [hholds, hb, motionEnd_append, motionEnd_append]
        simp [motionEnd, hmoving]
      rw [countedMotion_append, hend, hcounted]
  | splits a b y ends e hat hout hmem hwhy hholds hsince hcounted hin =>
    subst hat
    refine .splits a b (y ++ [t]) ends e (by simp) hout hmem hwhy (by simp [hholds]) hsince ?_
      (hnext hin)
    have hend : motionEnd (motionEnd none (taken (a ++ [b]))) messages =
        motionEnd none (taken (a ++ b :: y)) := by
      rw [hholds, ← motionEnd_append, ← taken_append, List.append_assoc, List.singleton_append]
    rw [countedMotion_append, hend, hcounted]

/-! ## What the calls keep -/

/-- Between the calls taken so far, the pieces handed on and the recorder. -/
structure Follows (config : RecorderConfig) (past : List RecorderStep) (pieces : List (List Item))
    (r : AutoRecorder) : Prop where
  config_eq : r.config = config
  cuts : ∃ before, fed past = before ++ r.buffer.map outside ∧
    Cuts (pieces.map (List.map outside)) before
  ordered : r.buffer.Pairwise fun i j => i.now ≤ j.now
  early : ∀ i ∈ r.buffer, ∃ t ∈ past, i.now ≤ t.event.clocks.now
  blocked : r.blocked = true → r.buffer = [] ∧ r.recording = false ∧
    (r.labEndedAt.isSome → r.lastMotion.isSome)
  idle : r.recording = false → ∀ i ∈ r.buffer, i.moving = false
  recording : r.recording = true → r.lastMotion.isSome ∧
    r.lastMotion = motionEnd none (taken past) ∧
    Segment config past r.buffer r.start r.motionSeconds

theorem follows_create (config : RecorderConfig) :
    Follows config [] [] (AutoRecorder.create config) := by
  constructor <;> simp [AutoRecorder.create, fed, Cuts.nil]

theorem Follows.cuts_fed (h : Follows config past pieces r) :
    Cuts (pieces.map (List.map outside)) (fed past) := by
  obtain ⟨before, hfed, hcuts⟩ := h.cuts
  rw [hfed]
  exact hcuts.gap _

theorem follows_of_empty (hconfig : r.config = config) (hbuffer : r.buffer = [])
    (hrecording : r.recording = false)
    (hblocked : r.blocked = true → r.labEndedAt.isSome → r.lastMotion.isSome)
    (hcuts : Cuts (pieces.map (List.map outside)) (fed past)) :
    Follows config past pieces r where
  config_eq := hconfig
  cuts := ⟨fed past, by simp [hbuffer], hcuts⟩
  ordered := by simp [hbuffer]
  early := by simp [hbuffer]
  blocked := fun hb => ⟨hbuffer, hrecording, hblocked hb⟩
  idle := by simp [hbuffer]
  recording := by simp [hrecording]

/-! ## The end of a segment -/

section Finish

variable {clocks : Clocks} {why : FinishReason} {recording : AutoRecording}

@[simp] theorem finish_fst : (r.finish clocks why).1 = { r with buffer := [], recording := false } :=
  rfl

@[simp] theorem finish_why : (r.finish clocks why).2.why = why := rfl

theorem finish_recording (h : (r.finish clocks why).2.recording = some recording) :
    recording.messages = r.buffer ∧ recording.outcome = why ∧
      r.config.minMotionSec ≤ r.motionSeconds := by
  unfold AutoRecorder.finish at h
  split at h
  · cases h
  · rename_i first rest hbuffer
    dsimp only at h
    split at h
    · cases h
    · rename_i henough
      cases h
      exact ⟨rfl, rfl, not_lt.1 henough⟩

theorem handedOn_singleton (e : SegmentEnd) : handedOn (some [e]) = e.recording.toList := by
  cases h : e.recording <;> simp [handedOn, h]

theorem Follows.cuts_finish (h : Follows config past pieces r) :
    Cuts ((pieces ++ (handedOn (some [(r.finish clocks why).2])).map
      AutoRecording.messages).map (List.map outside)) (fed past) := by
  obtain ⟨before, hfed, hcuts⟩ := h.cuts
  rw [handedOn_singleton, hfed]
  cases hrec : (r.finish clocks why).2.recording with
  | none => simpa using hcuts.gap _
  | some recording =>
    obtain ⟨hmessages, -, -⟩ := finish_recording hrec
    simpa [hmessages] using hcuts.piece _

theorem stream_perm (recording : AutoRecording) (stream : RecordingStream) :
    (recording.stream stream).Perm ((recording.messages.filter fun i =>
      i.stream = stream && i.stamp.isSome).map Item.payload) :=
  (List.perm_insertionSort _ _).map _

theorem recorded_finish {call : RecorderCall} (hconfig : r.config = config)
    (h : Segment config past r.buffer r.start r.motionSeconds)
    (hends : EndsBy config past call r.start why) :
    ∀ recording ∈ handedOn (some [(r.finish clocks why).2]), Recorded config past call recording := by
  intro recording hrecording
  rw [handedOn_singleton, Option.mem_toList] at hrecording
  obtain ⟨hmessages, houtcome, henough⟩ := finish_recording hrecording
  constructor
  · refine ⟨r.start, r.motionSeconds, ?_, hconfig ▸ henough, ?_⟩
    · rw [hmessages]
      exact h
    · rw [houtcome]
      exact hends
  · exact stream_perm recording

end Finish

/-- The check at the end of a call ends what is due, and otherwise drops a first
part of an idle buffer. -/
theorem Follows.check (h : Follows config (past ++ [t]) pieces r) :
    ∃ r' ends, r.check t.event.clocks = some (r', ends) ∧
      (r.recording = false → ends = []) ∧
      (∀ last, r.recording = true → r.lastMotion = some last →
        ends.map SegmentEnd.why = dueAt config last r.start t.event.clocks.now) ∧
      (t.out = some ends →
        Follows config (past ++ [t]) (pieces ++ (handedOn t.out).map AutoRecording.messages) r' ∧
        ∀ recording ∈ handedOn t.out, Recorded config (past ++ [t]) t.event recording) := by
  have hconfig := h.config_eq
  have hnothing : handedOn (some []) = [] := rfl
  unfold AutoRecorder.check
  split
  · rename_i hrec
    obtain ⟨hsome, hlast, hseg⟩ := h.recording hrec
    obtain ⟨last, hl⟩ := Option.isSome_iff_exists.1 hsome
    simp only [hl, finish_fst]
    split
    · rename_i hstill
      refine ⟨_, _, rfl, by simp [hrec], ?_, ?_⟩
      · rintro _ - ⟨⟩
        rw [hconfig] at hstill
        simp [dueAt, hstill]
      · intro hout
        rw [hout]
        refine ⟨follows_of_empty hconfig rfl rfl ?_ h.cuts_finish, recorded_finish hconfig hseg ?_⟩
        · intro hb
          rw [(h.blocked hb).2.1] at hrec
          cases hrec
        · exact .inr ⟨last, hlast ▸ hl, hconfig ▸ hstill⟩
    · rename_i hstill
      split
      · rename_i hsplit
        refine ⟨_, _, rfl, by simp [hrec], ?_, ?_⟩
        · rintro _ - ⟨⟩
          rw [hconfig] at hstill hsplit
          simp [dueAt, hstill, hsplit]
        · intro hout
          rw [hout]
          refine ⟨?_, recorded_finish hconfig hseg (hconfig ▸ hsplit)⟩
          constructor
          · exact hconfig
          · exact ⟨_, by simp, h.cuts_finish⟩
          · exact .nil
          · simp
          · intro hb
            rw [(h.blocked hb).2.1] at hrec
            cases hrec
          · simp
          · intro _
            refine ⟨by simp, hl ▸ hlast, ?_⟩
            exact .splits past t [] _ _ rfl hout (List.mem_singleton_self _) rfl rfl rfl rfl (by simp)
      · rename_i hsplit
        refine ⟨_, _, rfl, by simp, ?_, ?_⟩
        · rintro _ - ⟨⟩
          rw [hconfig] at hstill hsplit
          simp [dueAt, hstill, hsplit]
        · intro hout
          rw [hout, hnothing]
          exact ⟨by simpa using h, nofun⟩
  · rename_i hrec
    split
    · refine ⟨_, _, rfl, fun _ => rfl, fun _ hr => absurd hr hrec, fun hout => ?_⟩
      rw [hout, hnothing]
      exact ⟨by simpa using h, nofun⟩
    · rename_i hb
      refine ⟨_, _, rfl, fun _ => rfl, fun _ hr => absurd hr hrec, fun hout => ?_⟩
      rw [hout, hnothing]
      refine ⟨?_, nofun⟩
      obtain ⟨before, hfed, hcuts⟩ := h.cuts
      have hkept : r.buffer.Pairwise fun i j =>
          decide (t.event.clocks.now - i.now ≤ r.config.preRoll) = true →
            decide (t.event.clocks.now - j.now ≤ r.config.preRoll) = true := by
        refine h.ordered.imp fun hij hi => ?_
        simp only [decide_eq_true_eq] at hi ⊢
        linarith
      obtain ⟨dropped, hdropped⟩ := exists_append_filter hkept
      constructor
      · exact hconfig
      · refine ⟨before ++ dropped.map outside, ?_, by simpa using hcuts.gap _⟩
        rw [hfed, List.append_assoc, ← List.map_append, ← hdropped]
      · exact h.ordered.filter _
      · exact fun i hi => h.early i (List.mem_of_mem_filter hi)
      · exact fun hb' => absurd hb' hb
      · exact fun hrec i hi => h.idle hrec i (List.mem_of_mem_filter hi)
      · exact fun hr => absurd hr hrec

theorem Follows.pass (h : Follows config past pieces r) (hpre : t.pre = r)
    (hfed : fedBy t.event = []) : Follows config (past ++ [t]) pieces r := by
  have htaken : taken [t] = [] := by simp [hfed]
  obtain ⟨before, hbefore, hcuts⟩ := h.cuts
  refine ⟨h.config_eq, ⟨before, ?_, hcuts⟩, h.ordered, ?_, h.blocked, h.idle, fun hrec => ?_⟩
  · rw [fed_snoc, hbefore, hfed, List.append_nil]
  · intro i hi
    obtain ⟨u, hu, hle⟩ := h.early i hi
    exact ⟨u, List.mem_append_left _ hu, hle⟩
  · obtain ⟨hsome, hlast, hseg⟩ := h.recording hrec
    have hsnoc := hseg.snoc (t := t) (hpre ▸ hrec) (by rw [hpre])
    rw [htaken, List.append_nil] at hsnoc
    exact ⟨hsome, by simpa [htaken] using hlast, by simpa [countedMotion] using hsnoc⟩

section Keep

theorem keep_still (h : item.moving = false) :
    r.keep item = { r with buffer := r.buffer ++ [item] } := by
  simp [AutoRecorder.keep, h]

theorem keep_moving (h : item.moving = true) :
    (r.keep item).buffer = r.buffer ++ [item] ∧ (r.keep item).recording = true ∧
    (r.keep item).config = r.config ∧ (r.keep item).blocked = r.blocked ∧
    (r.keep item).lastMotion = some item.now := by
  cases hrec : r.recording <;> simp [AutoRecorder.keep, AutoRecorder.begin_, h, hrec]

theorem keep_counts (h : item.moving = true) (hrec : r.recording = true) :
    (r.keep item).start = r.start ∧
    (r.keep item).motionSeconds = r.motionSeconds + countedMotion r.lastMotion [item] := by
  cases hlast : r.lastMotion <;> simp [AutoRecorder.keep, countedMotion, h, hrec, hlast]

theorem keep_begins (h : item.moving = true) (hrec : r.recording = false) :
    (r.buffer ++ [item]).head?.map Item.now = some (r.keep item).start ∧
    (r.keep item).motionSeconds = 0 := by
  cases hbuffer : r.buffer <;> simp [AutoRecorder.keep, AutoRecorder.begin_, h, hrec, hbuffer]

end Keep

/-- What a payload in the buffer keeps. -/
theorem Follows.keep (h : Follows config past pieces r) (hblocked : r.blocked = false)
    (hrec : t.pre.recording = r.recording) (hstart : r.recording = true → t.pre.start = r.start)
    (hfed : fedBy t.event = [outside item]) (hnow : ∀ u ∈ past, u.event.clocks.now ≤ item.now)
    (hitem : item.now ≤ t.event.clocks.now)
    (hsteady : item.moving = true → r.recording = false →
      ∀ i ∈ r.buffer, item.now - i.now ≤ config.preRoll) :
    Follows config (past ++ [t]) pieces (r.keep item) := by
  have htaken : taken [t] = [item] := by simp [hfed, outside]
  obtain ⟨before, hbefore, hcuts⟩ := h.cuts
  have hcuts' : ∃ before, fed (past ++ [t]) = before ++ (r.buffer ++ [item]).map outside ∧
      Cuts (pieces.map (List.map outside)) before := by
    refine ⟨before, ?_, hcuts⟩
    rw [fed_snoc, hbefore, hfed]
    simp
  have hordered : (r.buffer ++ [item]).Pairwise fun i j => i.now ≤ j.now := by
    refine List.pairwise_append.2 ⟨h.ordered, List.pairwise_singleton _ _, fun i hi j hj => ?_⟩
    obtain ⟨u, hu, hle⟩ := h.early i hi
    rw [List.mem_singleton.1 hj]
    exact hle.trans (hnow u hu)
  have hearly : ∀ i ∈ r.buffer ++ [item], ∃ u ∈ past ++ [t], i.now ≤ u.event.clocks.now := by
    intro i hi
    rcases List.mem_append.1 hi with hi | hi
    · obtain ⟨u, hu, hle⟩ := h.early i hi
      exact ⟨u, List.mem_append_left _ hu, hle⟩
    · rw [List.mem_singleton.1 hi]
      exact ⟨t, by simp, hitem⟩
  cases hmoving : item.moving with
  | false =>
    rw [keep_still hmoving]
    refine ⟨h.config_eq, hcuts', hordered, hearly, ?_, ?_, fun hr => ?_⟩
    · intro hb
      exact absurd (hb.symm.trans hblocked) (by simp)
    · intro hidle i hi
      rcases List.mem_append.1 hi with hi | hi
      · exact h.idle hidle i hi
      · rw [List.mem_singleton.1 hi]
        exact hmoving
    · obtain ⟨hsome, hlast, hseg⟩ := h.recording hr
      have hsnoc := hseg.snoc (t := t) (hrec.trans hr) (hstart hr)
      rw [htaken] at hsnoc
      refine ⟨hsome, ?_, by simpa [countedMotion, hmoving] using hsnoc⟩
      rw [taken_append, htaken, motionEnd_append, ← hlast]
      simp [motionEnd, hmoving]
  | true =>
    obtain ⟨hbuffer, hrecording, hconfig, hblocked', hlastMotion⟩ := keep_moving (r := r) hmoving
    have hlast' : some item.now = motionEnd none (taken (past ++ [t])) := by
      rw [taken_append, htaken, motionEnd_append]
      simp [motionEnd, hmoving]
    refine ⟨hconfig.trans h.config_eq, hbuffer ▸ hcuts', hbuffer ▸ hordered, hbuffer ▸ hearly,
      ?_, ?_, fun _ => ⟨by simp [hlastMotion], hlastMotion.trans hlast', ?_⟩⟩
    · intro hb
      rw [hblocked', hblocked] at hb
      cases hb
    · intro hidle
      rw [hrecording] at hidle
      cases hidle
    · rw [hbuffer]
      cases hr : r.recording with
      | true =>
        obtain ⟨-, hlast, hseg⟩ := h.recording hr
        obtain ⟨hstart', hmotion⟩ := keep_counts hmoving hr
        rw [hstart', hmotion, hlast, ← htaken]
        exact hseg.snoc (hrec.trans hr) (hstart hr)
      | false =>
        obtain ⟨hhead, hmotion⟩ := keep_begins hmoving hr
        refine .begins past t [] r.buffer item rfl hfed rfl hmoving ?_ hhead ?_ (by simp)
        · intro i hi
          exact ⟨h.idle hr i hi, hsteady hmoving hr i hi⟩
        · obtain ⟨hend, hstill⟩ := motion_of_still (h.idle hr) none
          rw [hmotion, countedMotion_append, hstill, hend]
          simp [countedMotion, hmoving]

/-! ## One call -/

/-- What a call leaves and ends: in a segment what is due, and all that is kept
is kept. -/
structure Serves (config : RecorderConfig) (past : List RecorderStep) (pieces : List (List Item))
    (t : RecorderStep) (r : AutoRecorder) (ends : List SegmentEnd) : Prop where
  call : t.pre.call t.event = some (r, ends)
  due : ∀ last, t.pre.recording = true → t.pre.lastMotion = some last →
    ends.map SegmentEnd.why = dueEnds config last t.pre.start t.event
  keeps : t.out = some ends →
    Follows config (past ++ [t]) (pieces ++ (handedOn t.out).map AutoRecording.messages) r ∧
    ∀ recording ∈ handedOn t.out, Recorded config (past ++ [t]) t.event recording

theorem keeps_of_no_end (h : Follows config (past ++ [t]) pieces r) (hout : t.out = some []) :
    Follows config (past ++ [t]) (pieces ++ (handedOn t.out).map AutoRecording.messages) r ∧
    ∀ recording ∈ handedOn t.out, Recorded config (past ++ [t]) t.event recording := by
  have hnothing : handedOn t.out = [] := by rw [hout]; rfl
  rw [hnothing]
  exact ⟨by simpa using h, nofun⟩

theorem labActive_call (config : RecorderConfig) (hlab : t.event.input.labActive = true)
    (hinput : ∀ payload labActive, t.event.input ≠ .feed none payload labActive) :
    t.pre.call t.event = some (t.pre.lab t.event.clocks true) ∧
    (∀ last start, dueEnds config last start t.event = [.lab]) ∧ taken [t] = [] := by
  cases hin : t.event.input with
  | feed stream payload labActive =>
    rw [hin] at hlab
    cases (show labActive = true from hlab)
    cases stream with
    | none => exact absurd hin (hinput payload true)
    | some stream => simp [AutoRecorder.call, AutoRecorder.feed, dueEnds, fedBy, hin]
  | tick labActive =>
    rw [hin] at hlab
    cases (show labActive = true from hlab)
    refine ⟨?_, by simp [dueEnds, hin], by simp [fedBy, hin]⟩
    cases hrec : t.pre.recording <;>
      simp [AutoRecorder.call, AutoRecorder.tick, AutoRecorder.lab, AutoRecorder.check, hin, hrec]
  | flush =>
    rw [hin] at hlab
    cases hlab

theorem lab_of_recording (h : r.recording = true) (clocks : Clocks) :
    r.lab clocks true =
      ({ r with buffer := [], recording := false, blocked := true, labEndedAt := none },
        [(r.finish clocks .lab).2]) := by
  simp only [AutoRecorder.lab, h, if_true]
  rfl

theorem lab_of_idle (h : r.recording = false) (clocks : Clocks) :
    r.lab clocks true = ({ r with buffer := [], blocked := true, labEndedAt := none }, []) := by
  simp only [AutoRecorder.lab, h, if_true, Bool.false_eq_true, if_false]

theorem serves_lab (h : Follows config past pieces t.pre)
    (hlab : t.event.input.labActive = true)
    (hinput : ∀ payload labActive, t.event.input ≠ .feed none payload labActive) :
    ∃ r ends, Serves config past pieces t r ends := by
  obtain ⟨hcall, hdue, htaken⟩ := labActive_call config hlab hinput
  refine ⟨(t.pre.lab t.event.clocks true).1, (t.pre.lab t.event.clocks true).2, hcall, ?_,
    fun hout => ?_⟩
  · intro last hrec _
    simp [lab_of_recording hrec, hdue]
  · have hcuts : ∀ {pieces : List (List Item)},
        Cuts (pieces.map (List.map outside)) (fed past) →
        Cuts (pieces.map (List.map outside)) (fed (past ++ [t])) := fun hcuts => by
      rw [fed_snoc]
      exact hcuts.gap _
    cases hrec : t.pre.recording with
    | true =>
      rw [lab_of_recording hrec] at hout ⊢
      obtain ⟨-, -, hseg⟩ := h.recording hrec
      have hsnoc := hseg.snoc (t := t) hrec rfl
      rw [htaken, List.append_nil] at hsnoc
      rw [hout]
      refine ⟨follows_of_empty h.config_eq rfl rfl (by simp) (hcuts h.cuts_finish), ?_⟩
      exact recorded_finish h.config_eq (by simpa [countedMotion] using hsnoc) hlab
    | false =>
      rw [lab_of_idle hrec] at hout ⊢
      exact keeps_of_no_end (follows_of_empty h.config_eq rfl hrec (by simp) (hcuts h.cuts_fed)) hout

theorem serves_flush (h : Follows config past pieces t.pre) (hinput : t.event.input = .flush) :
    ∃ r ends, Serves config past pieces t r ends := by
  have hfed : fedBy t.event = [] := by simp [fedBy, hinput]
  have hpass := h.pass rfl hfed
  refine ⟨_, _, by rw [AutoRecorder.call, hinput], ?_, fun hout => ?_⟩
  · intro last hrec _
    simp [AutoRecorder.flush, dueEnds, hrec, hinput]
  · cases hrec : t.pre.recording with
    | true =>
      rw [AutoRecorder.flush, hrec] at hout ⊢
      obtain ⟨-, -, hseg⟩ := hpass.recording hrec
      rw [hout]
      refine ⟨follows_of_empty h.config_eq rfl rfl ?_ hpass.cuts_finish, ?_⟩
      · intro hb
        rw [(h.blocked hb).2.1] at hrec
        cases hrec
      · exact recorded_finish h.config_eq hseg (.inl hinput)
    | false =>
      rw [AutoRecorder.flush, hrec] at hout ⊢
      exact keeps_of_no_end hpass hout

theorem serves_unrecorded (h : Follows config past pieces t.pre) {payload : Payload}
    {labActive : Bool} (hinput : t.event.input = .feed none payload labActive) :
    ∃ r ends, Serves config past pieces t r ends := by
  have hfed : fedBy t.event = [] := by simp [fedBy, hinput]
  refine ⟨t.pre, [], by rw [AutoRecorder.call, hinput]; rfl, ?_, ?_⟩
  · intro last _ _
    simp [dueEnds, hinput]
  · exact keeps_of_no_end (h.pass rfl hfed)

/-! A call without a lab run begins with `_lab`, which starts the wait after
one. -/

theorem lab_of_unblocked (hblocked : r.blocked = false) (clocks : Clocks) :
    r.lab clocks false = (r, []) := by
  simp [AutoRecorder.lab, hblocked]

theorem lab_of_blocked (h : Follows config past pieces r) (hblocked : r.blocked = true)
    (clocks : Clocks) : ∃ r', r.lab clocks false = (r', []) ∧ r'.config = config ∧
      r'.buffer = [] ∧ r'.recording = false ∧ r'.blocked = true ∧ r'.labEndedAt.isSome ∧
      r'.lastMotion.isSome := by
  obtain ⟨hbuffer, hrecording, hlast⟩ := h.blocked hblocked
  cases hended : r.labEndedAt with
  | none =>
    refine ⟨{ r with labEndedAt := some clocks.now, lastMotion := some clocks.now }, ?_,
      h.config_eq, hbuffer, hrecording, hblocked, rfl, rfl⟩
    simp [AutoRecorder.lab, hblocked, hended]
  | some ended =>
    refine ⟨r, by simp [AutoRecorder.lab, hblocked, hended], h.config_eq, hbuffer, hrecording,
      hblocked, by simp [hended], hlast (by simp [hended])⟩

theorem serves_tick (h : Follows config past pieces t.pre)
    (hinput : t.event.input = .tick false) : ∃ r ends, Serves config past pieces t r ends := by
  have hfed : fedBy t.event = [] := by simp [fedBy, hinput]
  cases hblocked : t.pre.blocked with
  | true =>
    obtain ⟨r, hlab, hconfig, hbuffer, hrec, hb, -, hlast⟩ :=
      lab_of_blocked h hblocked t.event.clocks
    refine ⟨r, [], ?_, ?_, keeps_of_no_end ?_⟩
    · simp [AutoRecorder.call, hinput, AutoRecorder.tick, hlab, AutoRecorder.check, hrec, hb]
    · intro _ hrec' _
      rw [(h.blocked hblocked).2.1] at hrec'
      cases hrec'
    · refine follows_of_empty hconfig hbuffer hrec (fun _ _ => hlast) ?_
      rw [fed_snoc, hfed, List.append_nil]
      exact h.cuts_fed
  | false =>
    obtain ⟨r, ends, hcheck, hidle, hdue, hkeeps⟩ := (h.pass rfl hfed).check
    refine ⟨r, ends, ?_, ?_, hkeeps⟩
    · simp [AutoRecorder.call, hinput, AutoRecorder.tick, lab_of_unblocked hblocked, hcheck]
    · intro last hrec hlast
      rw [hdue last hrec hlast]
      simp [dueEnds, hinput]

theorem unblock_of_blocked (hblocked : r.blocked = true) (hended : r.labEndedAt.isSome)
    (hlast : r.lastMotion.isSome) (item : Item) : ∃ r', r.unblock item = some r' ∧
      r'.config = r.config ∧ r'.buffer = r.buffer ∧ r'.recording = r.recording ∧
      (r'.blocked = true → r'.lastMotion.isSome) := by
  obtain ⟨ended, hended⟩ := Option.isSome_iff_exists.1 hended
  obtain ⟨last, hlast⟩ := Option.isSome_iff_exists.1 hlast
  simp only [AutoRecorder.unblock, hblocked, hended, hlast, Option.map_some]
  split_ifs <;> simp_all

theorem Follows.last_le (h : Follows config past pieces r) (hrec : r.recording = true) {last now : ℚ}
    (hlast : r.lastMotion = some last) (hnow : ∀ u ∈ past, u.event.clocks.now ≤ now) :
    last ≤ now := by
  obtain ⟨-, hend, -⟩ := h.recording hrec
  rcases mem_of_motionEnd (hend.symm.trans hlast) with hnone | ⟨i, hi, rfl⟩
  · cases hnone
  · obtain ⟨⟨j, flag⟩, hj, rfl⟩ := List.mem_map.1 hi
    obtain ⟨u, hu, hju⟩ := List.mem_flatMap.1 (List.mem_of_mem_filter hj)
    have hiu : j.now = u.event.clocks.now := by
      unfold fedBy at hju
      split at hju
      · cases List.mem_singleton.1 hju
        rfl
      · cases hju
    exact hiu ▸ hnow u hu

section Feed

variable {stream : RecordingStream} {payload : Payload}

/-- A payload that is kept, and the check behind it. -/
theorem serves_kept (h : Follows config past pieces r) (hblocked : r.blocked = false)
    (hinput : t.event.input = .feed (some stream) payload false)
    (hitem : item = ⟨t.event.clocks.now, stream, payload⟩)
    (hcall : t.pre.call t.event = (r.keep item).check t.event.clocks)
    (hpre : t.pre.recording = r.recording ∧ (r.recording = true → t.pre = r))
    (hnow : ∀ u ∈ past, u.event.clocks.now ≤ t.event.clocks.now)
    (hsteady : item.moving = true → (r.recording = false →
      ∀ i ∈ r.buffer, item.now - i.now ≤ config.preRoll) ∧
      (r.recording = true → ∀ last, r.lastMotion = some last → item.now - last < config.stillSec)) :
    ∃ r' ends, Serves config past pieces t r' ends := by
  subst hitem
  have hkeep := h.keep hblocked hpre.1 (fun hrec => by rw [hpre.2 hrec])
    (by simp [fedBy, hinput, outside]) hnow le_rfl (fun hmoving => (hsteady hmoving).1)
  obtain ⟨r', ends, hcheck, -, hdue, hkeeps⟩ := hkeep.check
  refine ⟨r', ends, hcall.trans hcheck, ?_, hkeeps⟩
  intro last hrec hlast
  have hr : r.recording = true := hpre.1 ▸ hrec
  rw [hpre.2 hr] at hlast ⊢
  have hends : dueEnds config last r.start t.event =
      dueAt config last r.start t.event.clocks.now := by simp [dueEnds, hinput]
  rw [hends]
  cases hmoving : (⟨t.event.clocks.now, stream, payload⟩ : Item).moving with
  | false =>
    rw [keep_still hmoving] at hdue
    exact hdue last hr hlast
  | true =>
    obtain ⟨-, hrecording, -, -, hlastMotion⟩ := keep_moving (r := r) hmoving
    obtain ⟨hstart, -⟩ := keep_counts hmoving hr
    -- less than the still time has passed since the motion before, and none since this one
    have hstill := (hsteady hmoving).2 hr last hlast
    have hle := h.last_le hr hlast hnow
    rw [hdue _ hrecording hlastMotion, hstart, dueAt, dueAt, if_neg, if_neg hstill.not_ge]
    simp only [sub_self, not_le]
    linarith

theorem call_feed (hinput : t.event.input = .feed (some stream) payload false)
    (hlab : t.pre.lab t.event.clocks false = (r, []))
    {r' : AutoRecorder} (hunblock : r.unblock ⟨t.event.clocks.now, stream, payload⟩ = some r') :
    t.pre.call t.event = if r'.blocked then some (r', []) else
      (r'.keep ⟨t.event.clocks.now, stream, payload⟩).check t.event.clocks := by
  simp only [AutoRecorder.call, hinput, AutoRecorder.feed, hlab, Bool.false_eq_true, if_false]
  rw [hunblock]
  cases hb : r'.blocked with
  | true => simp [hb]
  | false =>
    cases hcheck : (r'.keep ⟨t.event.clocks.now, stream, payload⟩).check t.event.clocks <;>
      simp [hb, hcheck]

theorem serves_feed (h : Follows config past pieces t.pre)
    (hinput : t.event.input = .feed (some stream) payload false)
    (hnow : ∀ u ∈ past, u.event.clocks.now ≤ t.event.clocks.now) (hsteady : steady t = true) :
    ∃ r ends, Serves config past pieces t r ends := by
  cases hblocked : t.pre.blocked with
  | true =>
    obtain ⟨r, hlab, hconfig, hbuffer, hrec, hb, hended, hlast⟩ :=
      lab_of_blocked h hblocked t.event.clocks
    obtain ⟨r', hunblock, hconfig', hbuffer', hrec', hlast'⟩ :=
      unblock_of_blocked hb hended hlast ⟨t.event.clocks.now, stream, payload⟩
    have hidle : t.pre.recording = false := (h.blocked hblocked).2.1
    cases hb' : r'.blocked with
    | true =>
      refine ⟨r', [], ?_, ?_, keeps_of_no_end (follows_of_empty (hconfig'.trans hconfig)
        (hbuffer'.trans hbuffer) (hrec'.trans hrec) (fun hb _ => hlast' hb) ?_)⟩
      · rw [call_feed hinput hlab hunblock, hb', if_pos rfl]
      · intro _ hrec _
        rw [hidle] at hrec
        cases hrec
      · rw [fed_snoc]
        exact h.cuts_fed.gap _
    | false =>
      have hfollows : Follows config past pieces r' := follows_of_empty (hconfig'.trans hconfig)
        (hbuffer'.trans hbuffer) (hrec'.trans hrec) (fun hb _ => hlast' hb) h.cuts_fed
      refine serves_kept hfollows hb' hinput rfl ?_ ⟨?_, ?_⟩ hnow ?_
      · rw [call_feed hinput hlab hunblock, hb']
        rfl
      · rw [hidle, hrec', hrec]
      · intro hr
        rw [hrec', hrec] at hr
        cases hr
      · simp [hbuffer', hbuffer, hrec', hrec]
  | false =>
    have hunblock : t.pre.unblock ⟨t.event.clocks.now, stream, payload⟩ = some t.pre := by
      simp [AutoRecorder.unblock, hblocked]
    refine serves_kept h hblocked hinput rfl ?_ ⟨rfl, fun _ => rfl⟩ hnow fun hmoving => ?_
    · rw [call_feed hinput (lab_of_unblocked hblocked _) hunblock, hblocked]
      rfl
    · have hmoving' : payloadMoving stream payload = true := hmoving
      rw [steady, hinput] at hsteady
      simp only [hmoving', Bool.not_true, Bool.false_or, h.config_eq] at hsteady
      constructor
      · intro hrec i hi
        rw [hrec] at hsteady
        simpa using List.all_eq_true.1 hsteady i hi
      · intro hrec last hlast
        rw [hrec, hlast] at hsteady
        simpa using hsteady

end Feed

/-! ## Runs -/

/-- One step: what is kept, and what holds of it. -/
theorem follows_step {s : AutoRecorder} {e : RecorderCall} (h : Follows config past pieces s)
    (hnow : ∀ u ∈ past, u.event.clocks.now ≤ e.clocks.now)
    (hsteady : steady (stepOf AutoRecorder.step s e) = true) :
    Follows config (past ++ [stepOf AutoRecorder.step s e])
      (pieces ++ (handedOn (stepOf AutoRecorder.step s e).out).map AutoRecording.messages)
      (AutoRecorder.step s e).1 ∧
    Segmented config past (stepOf AutoRecorder.step s e) := by
  have hserves : ∃ r ends, Serves config past pieces (stepOf AutoRecorder.step s e) r ends := by
    cases hinput : e.input with
    | flush => exact serves_flush h hinput
    | tick labActive =>
      cases labActive with
      | true =>
        refine serves_lab h ?_ ?_ <;> simp [stepOf, hinput, RecorderInput.labActive]
      | false => exact serves_tick h hinput
    | feed stream payload labActive =>
      cases stream with
      | none => exact serves_unrecorded h hinput
      | some stream =>
        cases labActive with
        | true =>
          refine serves_lab h ?_ ?_ <;> simp [stepOf, hinput, RecorderInput.labActive]
        | false => exact serves_feed h hinput hnow hsteady
  obtain ⟨r, ends, hcall, hdue, hkeeps⟩ := hserves
  have hstep : AutoRecorder.step s e = (r, some ends) := by
    unfold AutoRecorder.step
    rw [show s.call e = some (r, ends) from hcall]
  have hout : (stepOf AutoRecorder.step s e).out = some ends := by rw [stepOf, hstep]
  obtain ⟨hfollows, hrecorded⟩ := hkeeps hout
  constructor
  · rw [hstep]
    exact hfollows
  · refine ⟨by simp [hout], fun hrec => ?_, hrecorded⟩
    obtain ⟨hsome, hlast, hseg⟩ := h.recording hrec
    obtain ⟨last, hl⟩ := Option.isSome_iff_exists.1 hsome
    refine ⟨⟨_, hseg⟩, last, hlast ▸ hl, ?_⟩
    rw [hout, Option.map_some, hdue last hrec hl]

/-- What holds of a run: the recordings hold pieces of what was fed, none of it
under a lab run, and every call does what is due. -/
structure Segmentation (config : RecorderConfig) (run : List RecorderStep) : Prop where
  once : Cuts ((emitted run).map fun recording => recording.messages.map outside) (fed run)
  segmented : ∀ x t y, run = x ++ t :: y → Segmented config x t

/-- In a steady run no call fails, every payload is in at most one recording,
and a recording holds what was fed from its first motion on, or since a split,
until its end was due. -/
theorem auto_recorder_segments (config : RecorderConfig) {es : List RecorderCall}
    (hes : Chronological (fun e => e.clocks.now) es)
    (hsteady : ∀ t ∈ trace AutoRecorder.step (AutoRecorder.create config) es, steady t = true) :
    Segmentation config (trace AutoRecorder.step (AutoRecorder.create config) es) := by
  have hrun := trace_history (f := AutoRecorder.step) (s := AutoRecorder.create config)
    (I := fun past r =>
      Follows config past ((emitted past).map AutoRecording.messages) r ∧
      ∀ x t y, past = x ++ t :: y → Segmented config x t)
    (fun past t => (∀ u ∈ past, u.event.clocks.now ≤ t.event.clocks.now) ∧ steady t = true)
    ⟨follows_create config, by simp⟩ ?_ es ?_
  · obtain ⟨hfollows, hsegmented⟩ := hrun
    exact ⟨by simpa [Function.comp_def] using hfollows.cuts_fed, hsegmented⟩
  · rintro past s e ⟨hfollows, hsegmented⟩ ⟨hnow, hst⟩
    obtain ⟨hnext, hstep⟩ := follows_step (e := e) hfollows hnow hst
    rw [← List.map_append, ← emitted_snoc] at hnext
    refine ⟨hnext, fun x t y hsplit => ?_⟩
    rcases split_snoc hsplit with ⟨rfl, rfl⟩ | ⟨y', rfl⟩
    · exact hstep
    · exact hsegmented x t y' rfl
  · intro a t b hab
    exact ⟨le_time_of_split hes hab, hsteady t (by rw [hab]; simp)⟩

/-! ## A drive, and one after a gap -/

/-- The wheels' status at a time, with a speed. -/
def driveAt (now v : ℚ) : RecorderCall :=
  ⟨⟨now, now⟩, .feed (some .drive) { stamp := some (.fin now), v := some (.fin v) } false⟩

/-- A payload at `first`, and a drive of one second from `10` on. -/
def shortDrive (first : ℚ) : List RecorderCall :=
  [driveAt first 0, driveAt 10 1, driveAt (41 / 4) 1, driveAt (21 / 2) 1, driveAt (43 / 4) 1,
    driveAt 11 1]

def shutdown : RecorderCall := ⟨⟨11, 11⟩, .flush⟩

theorem short_drive_segments :
    Segmentation {} (trace AutoRecorder.step (AutoRecorder.create {}) (shortDrive 9 ++ [shutdown])) :=
  auto_recorder_segments {} (by decide +kernel) (by decide +kernel)

theorem Segment.exists_moving (h : Segment config past messages start motion)
    (hwhole : ∀ u ∈ past, ∀ e ∈ u.out.getD [], e.why ≠ .split) {i : Item}
    {rest : List Item} (hmessages : messages = i :: rest) (hstill : i.moving = false) :
    ∃ first ∈ messages, first.moving = true ∧ first.now - i.now ≤ config.preRoll := by
  cases h with
  | begins a b y kept first _ _ hholds hmoving hpre _ _ _ =>
    refine ⟨first, by simp [hholds], hmoving, ?_⟩
    cases kept with
    | nil =>
      rw [hmessages] at hholds
      cases hholds
      exact absurd (hmoving.symm.trans hstill) (by simp)
    | cons j kept =>
      rw [hmessages] at hholds
      cases hholds
      exact (hpre i (by simp)).2
  | splits a b y ends e hat hout hmem hwhy _ _ _ _ =>
    exact absurd hwhy (hwhole b (by simp [hat]) e (by simpa [hout] using hmem))

/-- The recording after a gap begins with what was kept ten seconds before the
first motion. -/
theorem old_head_recorded : ¬ ∀ config es, Chronological (fun e => e.clocks.now) es →
    Segmentation config (trace AutoRecorder.step (AutoRecorder.create config) es) := by
  intro hclaim
  have hrun := (hclaim {} (shortDrive 0 ++ [shutdown]) (by decide +kernel)).segmented _ _ []
    (trace_append (shortDrive 0) [shutdown] _)
  have hold : ∃ recording ∈ handedOn (stepOf AutoRecorder.step
        (final AutoRecorder.step (AutoRecorder.create {}) (shortDrive 0)) shutdown).out,
      (∃ i ∈ recording.messages.head?, i.moving = false ∧
        ∀ first ∈ recording.messages, first.moving = true → ¬ first.now - i.now ≤ 1) := by
    decide +kernel
  have hwhole : ∀ u ∈ trace AutoRecorder.step (AutoRecorder.create {}) (shortDrive 0) ++
      [stepOf AutoRecorder.step (final AutoRecorder.step (AutoRecorder.create {}) (shortDrive 0))
        shutdown], ∀ e ∈ u.out.getD [], e.why ≠ .split := by
    decide +kernel
  obtain ⟨recording, hmem, i, hi, hstill, hfar⟩ := hold
  obtain ⟨start, motion, hseg, -⟩ := (hrun.recorded recording hmem).segment
  obtain ⟨rest, hmessages⟩ : ∃ rest, recording.messages = i :: rest :=
    List.head?_eq_some_iff.1 hi
  obtain ⟨first, hfirst, hmoving, hnear⟩ := hseg.exists_moving hwhole hmessages hstill
  exact hfar first hfirst hmoving hnear

end Segments

end Questix.LabBridge
