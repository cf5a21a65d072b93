/-
Questix.UartJoyDriver.UartFramingTheorems — which lines of the serial stream
reach the parser, and when.

The buffer always holds the unfinished line of the stream, behind those
complete lines that were not looked at yet (`Buffered`). The loop stops at the
first blank line, so what it leaves behind is told by the lines of the buffer
alone (`readLines_spec`), and so is whether a line waits.
-/
import Questix.Lib.Lines
import Questix.Lib.Trace
import Questix.UartJoyDriver.UartJoyDriverComponent

namespace Questix.UartJoyDriver

open Questix.Lib

/-! ## Specification -/

/-- The line that goes to the parser. -/
def UartNote.handed : UartNote → Option (List UInt8)
  | .line handed => some handed
  | _ => none

namespace UartJoy

/-- The complete lines of a stream, as they are handed on. -/
def trimmedLines (stream : List UInt8) : List (List UInt8) :=
  (completeLines newline stream).map trimLine

/-- The lines that are worth a call of the parser. -/
def nonBlank (lines : List (List UInt8)) : List (List UInt8) := lines.filter (!·.isEmpty)

/-- The lines handed to the parser in a run, in order. -/
def handedLines (run : List (Step UartJoy UartPoll (List UartNote))) :
    List (List UInt8) :=
  run.flatMap fun t => t.out.filterMap UartNote.handed

/-- The bytes that arrived in a run. -/
def stream (run : List (Step UartJoy UartPoll (List UartNote))) : List UInt8 :=
  run.flatMap fun t => t.pre.received t.event

/-- No callback finds more than the buffer may hold. -/
def WithinLimit (run : List (Step UartJoy UartPoll (List UartNote))) : Prop :=
  ∀ t ∈ run, (t.pre.readBuffer ++ t.pre.received t.event).length ≤ 2048

/-- In the lines of the buffer, those behind a blank one are blank too. -/
def NoneBehindBlank (buffer : List UInt8) : Prop :=
  ∀ before behind, trimmedLines buffer = before ++ [] :: behind → ∀ line ∈ behind, line = []

section Loop

variable {buffer line rest : List UInt8}

theorem readLine_of_not_mem (h : newline ∉ buffer) : readLine buffer = (false, [], buffer) :=
  if_neg h

theorem readLine_line (h : newline ∉ line) :
    readLine (line ++ newline :: rest) = (!(trimLine line).isEmpty, trimLine line, rest) := by
  have hline : ∀ b ∈ line, decide (b ≠ newline) = true :=
    fun b hb => decide_eq_true fun hnl => h (hnl ▸ hb)
  rw [readLine, if_pos (by simp), List.takeWhile_append_of_pos hline,
    List.dropWhile_append_of_pos hline, List.takeWhile_cons_of_neg (by simp),
    List.dropWhile_cons_of_neg (by simp), List.append_nil]
  rfl

theorem trimmedLines_of_not_mem (h : newline ∉ buffer) : trimmedLines buffer = [] := by
  rw [trimmedLines, completeLines_of_not_mem h]
  rfl

theorem trimmedLines_line (h : newline ∉ line) :
    trimmedLines (line ++ newline :: rest) = trimLine line :: trimmedLines rest := by
  rw [trimmedLines, completeLines_line h]
  rfl

variable {s : UartJoy} {clock : ℕ → ℚ} {k : ℕ}

theorem readLines_stop (h : newline ∉ s.readBuffer) (fuel : ℕ) :
    readLines clock (fuel + 1) k s = (s, k, []) := by
  rw [readLines, readLine_of_not_mem h]
  rfl

theorem readLines_round (hline : newline ∉ line) (hbuffer : s.readBuffer = line ++ newline :: rest)
    (fuel : ℕ) :
    readLines clock (fuel + 1) k s =
      if trimLine line = [] then ({ s with readBuffer := rest }, k, [])
      else match parseControllerLine (trimLine line) s.config.deadzone {} with
        | none =>
          let r := readLines clock fuel k { s with readBuffer := rest }
          (r.1, r.2.1, .line (trimLine line) :: r.2.2)
        | some raw =>
          let r := readLines clock fuel (k + 1)
            (takeFrame (clock k) raw { s with readBuffer := rest })
          (r.1, r.2.1, .line (trimLine line) :: .joyRaw { raw with stamp := clock k } :: r.2.2) := by
  rw [readLines, hbuffer, readLine_line hline]
  by_cases hblank : trimLine line = []
  · simp only [hblank, List.isEmpty_nil, Bool.not_true, Bool.false_eq_true, if_false, if_true]
  · have hmore : (!(trimLine line).isEmpty) = true := by simpa using hblank
    cases parseControllerLine (trimLine line) s.config.deadzone {} with
    | none => simp only [hmore, hblank, if_true, if_false]
    | some raw => simp only [hmore, hblank, if_true, if_false]

theorem readLines_fuel (clock : ℕ → ℚ) (buffer : List UInt8) :
    ∀ (fuel k : ℕ) (s : UartJoy), s.readBuffer = buffer → buffer.length < fuel →
      readLines clock (fuel + 1) k s = readLines clock fuel k s := by
  induction buffer using lines_induction newline with
  | tail buffer h =>
    intro fuel k s hbuffer hfuel
    obtain ⟨fuel, rfl⟩ := Nat.exists_eq_succ_of_ne_zero (Nat.ne_zero_of_lt hfuel)
    rw [readLines_stop (hbuffer ▸ h), readLines_stop (hbuffer ▸ h)]
  | line line rest hline ih =>
    intro fuel k s hbuffer hfuel
    obtain ⟨fuel, rfl⟩ := Nat.exists_eq_succ_of_ne_zero (Nat.ne_zero_of_lt hfuel)
    have hrest : rest.length < fuel := by
      simp only [List.length_append, List.length_cons] at hfuel
      omega
    rw [readLines_round hline hbuffer (fuel + 1), readLines_round hline hbuffer fuel]
    cases parseControllerLine (trimLine line) s.config.deadzone {} with
    | none => simp only [ih fuel k { s with readBuffer := rest } rfl hrest]
    | some raw =>
      simp only [ih fuel (k + 1) (takeFrame (clock k) raw { s with readBuffer := rest }) rfl hrest]

/-- What the loop does with the lines of the buffer. -/
structure Drained (buffer : List UInt8) (s : UartJoy) (out : List UartNote) : Prop where
  handed : out.filterMap UartNote.handed = (trimmedLines buffer).takeWhile (!·.isEmpty)
  left : trimmedLines s.readBuffer = ((trimmedLines buffer).dropWhile (!·.isEmpty)).drop 1
  tail : unfinished newline s.readBuffer = unfinished newline buffer

theorem readLines_spec (clock : ℕ → ℚ) (buffer : List UInt8) :
    ∀ (fuel k : ℕ) (s : UartJoy), s.readBuffer = buffer → buffer.length < fuel →
      Drained buffer (readLines clock fuel k s).1 (readLines clock fuel k s).2.2 := by
  induction buffer using lines_induction newline with
  | tail buffer h =>
    intro fuel k s hbuffer hfuel
    obtain ⟨fuel, rfl⟩ := Nat.exists_eq_succ_of_ne_zero (Nat.ne_zero_of_lt hfuel)
    subst hbuffer
    rw [readLines_stop h]
    constructor
    · rw [trimmedLines_of_not_mem h]
      rfl
    · rw [trimmedLines_of_not_mem h]
      rfl
    · rfl
  | line line rest hline ih =>
    intro fuel k s hbuffer hfuel
    obtain ⟨fuel, rfl⟩ := Nat.exists_eq_succ_of_ne_zero (Nat.ne_zero_of_lt hfuel)
    have hrest : rest.length < fuel := by
      simp only [List.length_append, List.length_cons] at hfuel
      omega
    rw [readLines_round hline hbuffer]
    split_ifs with hblank
    · -- a blank line is taken from the buffer, and ends the loop
      constructor
      · simp [trimmedLines_line hline, hblank]
      · simp [trimmedLines_line hline, hblank]
      · rw [unfinished_append_cons]
    · have hdrained : ∀ (more : List UartNote), more.filterMap UartNote.handed = [trimLine line] →
          ∀ {t : UartJoy} {out : List UartNote}, Drained rest t out →
            Drained (line ++ newline :: rest) t (more ++ out) := by
        intro more hhanded t out ht
        constructor
        · rw [List.filterMap_append, hhanded, ht.handed, trimmedLines_line hline]
          simp [hblank]
        · rw [ht.left, trimmedLines_line hline]
          simp [hblank]
        · rw [ht.tail, unfinished_append_cons]
      cases parseControllerLine (trimLine line) s.config.deadzone {} with
      | none => exact hdrained [_] rfl (ih fuel k _ rfl hrest)
      | some raw => exact hdrained [_, _] rfl (ih fuel (k + 1) _ rfl hrest)

theorem publishHeld_spec (clock : ℕ → ℚ) (k : ℕ) (s : UartJoy) :
    (publishHeld clock k s).1.readBuffer = s.readBuffer ∧
      (publishHeld clock k s).2.filterMap UartNote.handed = [] := by
  unfold publishHeld
  split_ifs <;> exact ⟨rfl, rfl⟩

theorem readTimerCallback_drained (s : UartJoy) (poll : UartPoll)
    (hlimit : (s.readBuffer ++ s.received poll).length ≤ 2048) :
    Drained (s.readBuffer ++ s.received poll) (readTimerCallback s poll).1
      (readTimerCallback s poll).2 := by
  have hcut : cutBuffer (s.readBuffer ++ s.received poll) = s.readBuffer ++ s.received poll :=
    if_neg (not_lt.2 hlimit)
  simp only [readTimerCallback, hcut]
  generalize hs : ({ s with readBuffer := s.readBuffer ++ s.received poll } : UartJoy) = filled
  have hbuffer : filled.readBuffer = s.readBuffer ++ s.received poll := hs ▸ rfl
  have hloop := readLines_spec poll.clock _ (filled.readBuffer.length + 1) 0 filled rfl
    (Nat.lt_succ_self _)
  obtain ⟨hkept, hnone⟩ := publishHeld_spec poll.clock
    (readLines poll.clock (filled.readBuffer.length + 1) 0 filled).2.1
    (readLines poll.clock (filled.readBuffer.length + 1) 0 filled).1
  rw [← hbuffer]
  constructor
  · rw [List.filterMap_append, hnone, List.append_nil, hloop.handed]
  · rw [hkept, hloop.left]
  · rw [hkept, hloop.tail]

end Loop

/-! ## What the loop leaves behind -/

section Lists

variable {lines : List (List UInt8)} {buffer : List UInt8} {s : UartJoy} {out : List UartNote}

theorem nonBlank_eq_append (lines : List (List UInt8)) :
    nonBlank lines = lines.takeWhile (!·.isEmpty)
      ++ nonBlank ((lines.dropWhile (!·.isEmpty)).drop 1) := by
  induction lines with
  | nil => rfl
  | cons line lines ih =>
    cases line with
    | nil => rfl
    | cons b bs =>
      simp only [nonBlank, List.takeWhile_cons, List.dropWhile_cons, List.isEmpty_cons,
        Bool.not_false, if_true, List.filter_cons, List.cons_append] at ih ⊢
      rw [ih]

theorem nonBlank_append (lines lines' : List (List UInt8)) :
    nonBlank (lines ++ lines') = nonBlank lines ++ nonBlank lines' := List.filter_append ..

theorem mem_behind_blank {before behind : List (List UInt8)} {line : List UInt8}
    (h : line ∈ behind) :
    line ∈ ((before ++ [] :: behind).dropWhile (!·.isEmpty)).drop 1 := by
  induction before with
  | nil => exact h
  | cons l before ih =>
    cases l with
    | nil => simp [h]
    | cons b bs => exact ih

theorem noneBehindBlank_iff : NoneBehindBlank buffer ↔
    nonBlank (((trimmedLines buffer).dropWhile (!·.isEmpty)).drop 1) = [] := by
  unfold NoneBehindBlank nonBlank
  generalize trimmedLines buffer = lines
  rw [List.filter_eq_nil_iff]
  constructor
  · intro h line hline
    cases hdrop : lines.dropWhile (!·.isEmpty) with
    | nil => simp [hdrop] at hline
    | cons first behind =>
      rw [hdrop] at hline
      have hblank : first = [] := by
        have hhead := List.head_dropWhile_not (p := (!·.isEmpty)) (l := lines) (by simp [hdrop])
        simpa [hdrop] using hhead
      have hlines : lines = lines.takeWhile (!·.isEmpty) ++ [] :: behind := by
        rw [← hblank, ← hdrop, List.takeWhile_append_dropWhile]
      simpa using h _ _ hlines line hline
  · rintro h before behind rfl line hline
    simpa using h line (mem_behind_blank hline)

theorem Drained.handed_append (h : Drained buffer s out) :
    nonBlank (trimmedLines buffer) =
      out.filterMap UartNote.handed ++ nonBlank (trimmedLines s.readBuffer) := by
  rw [h.handed, h.left]
  exact nonBlank_eq_append _

end Lists

/-! ## Runs -/

section Runs

variable {past : List (Step UartJoy UartPoll (List UartNote))} {s : UartJoy} {poll : UartPoll}

theorem trimmedLines_append (xs ys : List UInt8) :
    trimmedLines (xs ++ ys) =
      trimmedLines xs ++ trimmedLines (unfinished newline xs ++ ys) := by
  rw [trimmedLines, completeLines_append, List.map_append]
  rfl

/-- Of the stream, the buffer holds the unfinished line, and the complete lines
that were not handed on. -/
structure Buffered (past : List (Step UartJoy UartPoll (List UartNote))) (s : UartJoy) : Prop where
  lines : nonBlank (trimmedLines (stream past)) =
    handedLines past ++ nonBlank (trimmedLines s.readBuffer)
  tail : unfinished newline s.readBuffer = unfinished newline (stream past)

theorem stream_snoc (t : Step UartJoy UartPoll (List UartNote)) :
    stream (past ++ [t]) = stream past ++ t.pre.received t.event := by
  simp [stream]

theorem handedLines_snoc (t : Step UartJoy UartPoll (List UartNote)) :
    handedLines (past ++ [t]) = handedLines past ++ t.out.filterMap UartNote.handed := by
  simp [handedLines]

theorem Buffered.received (h : Buffered past s) (bytes : List UInt8) :
    nonBlank (trimmedLines (stream past ++ bytes)) =
        handedLines past ++ nonBlank (trimmedLines (s.readBuffer ++ bytes)) ∧
      unfinished newline (s.readBuffer ++ bytes) = unfinished newline (stream past ++ bytes) := by
  constructor
  · rw [trimmedLines_append (stream past), trimmedLines_append s.readBuffer, nonBlank_append,
      nonBlank_append, h.lines, h.tail, List.append_assoc]
  · rw [unfinished_append, unfinished_append newline (stream past), h.tail]

theorem Buffered.step (h : Buffered past s)
    (hlimit : (s.readBuffer ++ s.received poll).length ≤ 2048) :
    Buffered (past ++ [stepOf readTimerCallback s poll]) (readTimerCallback s poll).1 := by
  obtain ⟨hlines, htail⟩ := h.received (s.received poll)
  have hdrained := readTimerCallback_drained s poll hlimit
  constructor
  · rw [stream_snoc, handedLines_snoc]
    show nonBlank (trimmedLines (stream past ++ s.received poll)) = _
    rw [hlines, hdrained.handed_append, ← List.append_assoc]
    rfl
  · rw [stream_snoc, hdrained.tail, htail]
    rfl

theorem buffered_run (config : UartConfig) (serialOpen : Bool) (now : ℚ) (polls : List UartPoll)
    (hlimit : WithinLimit (trace readTimerCallback (create config serialOpen now) polls)) :
    Buffered (trace readTimerCallback (create config serialOpen now) polls)
      (final readTimerCallback (create config serialOpen now) polls) := by
  apply trace_history (fun _ t => (t.pre.readBuffer ++ t.pre.received t.event).length ≤ 2048)
  · exact ⟨rfl, rfl⟩
  · exact fun _ _ _ h hok => h.step hok
  · intro before t behind hrun
    exact hlimit t (by rw [hrun]; simp)

/-- **After a callback every complete line has been handed to the parser, once
and in order, exactly if no line of the buffer stands behind a blank one.**
Those that were handed over are the first ones in any case. -/
theorem handedLines_exact_iff (config : UartConfig) (serialOpen : Bool) (now : ℚ)
    (polls : List UartPoll) (poll : UartPoll) :
    let start := create config serialOpen now
    let run := trace readTimerCallback start (polls ++ [poll])
    let before := final readTimerCallback start polls
    WithinLimit run →
      handedLines run <+: nonBlank (trimmedLines (stream run)) ∧
      (handedLines run = nonBlank (trimmedLines (stream run)) ↔
        NoneBehindBlank (before.readBuffer ++ before.received poll)) := by
  intro start run before hlimit
  have hbuffered : Buffered run (final readTimerCallback start (polls ++ [poll])) :=
    buffered_run config serialOpen now _ hlimit
  have hlast : run = trace readTimerCallback start polls ++ [stepOf readTimerCallback before poll] :=
    trace_append polls [poll] start
  have hdrained : Drained (before.readBuffer ++ before.received poll)
      (readTimerCallback before poll).1 (readTimerCallback before poll).2 := by
    apply readTimerCallback_drained
    exact hlimit (stepOf readTimerCallback before poll) (by rw [hlast]; simp)
  have hlines := hbuffered.lines
  rw [show final readTimerCallback start (polls ++ [poll]) = (readTimerCallback before poll).1 from
    final_append polls [poll] start, hdrained.left] at hlines
  rw [noneBehindBlank_iff]
  constructor
  · exact ⟨_, hlines.symm⟩
  · rw [hlines]
    constructor
    · intro h
      exact List.self_eq_append_right.1 h
    · intro h
      rw [h, List.append_nil]

/-- A blank line in front of a frame. -/
def blankThenFrame : UartPoll where
  reads := ["\n01,02,05,80,80,80,80\n".toList.map ascii]

theorem handedLines_exact_iff_frame :
    let frame : UartPoll := { reads := ["01,02,05,80,80,80,80\n".toList.map ascii] }
    let run := trace readTimerCallback (create {} true 0) [frame]
    handedLines run <+: nonBlank (trimmedLines (stream run)) ∧
      (handedLines run = nonBlank (trimmedLines (stream run)) ↔
        NoneBehindBlank ([] ++ (create {} true 0).received frame)) := by
  intro frame run
  refine handedLines_exact_iff {} true 0 [] frame ?_
  intro t ht
  rw [List.mem_singleton.1 ht]
  decide

/-- A blank line and a frame in one read: the frame waits for the next call. -/
theorem frame_waits_behind_blank :
    ¬ ∀ (config : UartConfig) (serialOpen : Bool) (now : ℚ) (polls : List UartPoll),
      WithinLimit (trace readTimerCallback (create config serialOpen now) polls) →
        handedLines (trace readTimerCallback (create config serialOpen now) polls) =
          nonBlank (trimmedLines
            (stream (trace readTimerCallback (create config serialOpen now) polls))) := by
  intro h
  have hrun := h {} true 0 [blankThenFrame] (by
    intro t ht
    rw [List.mem_singleton.1 ht]
    decide)
  exact absurd hrun (by decide)

end Runs

end UartJoy

end Questix.UartJoyDriver
