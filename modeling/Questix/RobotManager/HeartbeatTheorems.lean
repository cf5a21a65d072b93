/-
Questix.RobotManager.HeartbeatTheorems — what the heartbeat publishes is told
by the bytes it was given.

The state is that of the last complete line of the stream, or all off while an
unfinished line is too long (`stateOf`): a function of the stream, so neither
the split into reads nor the clock has a say in it. `Reads` says what the loop
keeps of the stream, its unfinished line, and that it keeps nothing of a line
that is too long; each read takes it to the stream with the new bytes
(`readChunk_spec`).
-/
import Questix.Lib.Trace
import Questix.RobotManager.ActuationHeartbeat

namespace Questix.RobotManager.ActuationHeartbeat

open Questix.Lib

/-! ## Specification -/

/-- What one line asks for. -/
def lineState (loads : Loads) (line : List UInt8) : Line :=
  if line.length ≤ MAX_LINE_BYTES then parseState loads line else ALL_OFF

/-- What the last of some lines asks for. -/
def lastState (loads : Loads) (start : Line) (lines : List (List UInt8)) : Line :=
  (lines.getLast?.map (lineState loads)).getD start

/-- What a stream asks for: its last complete line, all off before the first
one and while the unfinished line is too long. -/
def stateOf (loads : Loads) (received : List UInt8) : Line :=
  if MAX_LINE_BYTES < (unfinished newline received).length then ALL_OFF
  else lastState loads ALL_OFF (completeLines newline received)

section Lines

variable {loads : Loads} {clock : ℕ → ℚ} {h : HeartbeatRun} {received chunk : List UInt8}

theorem lastState_cons (start : Line) (line : List UInt8) (lines : List (List UInt8)) :
    lastState loads start (line :: lines) = lastState loads (lineState loads line) lines := by
  cases lines with
  | nil => rfl
  | cons line' lines =>
    have hlast : (line' :: lines).getLast? = some ((line' :: lines).getLast (by simp)) :=
      List.getLast?_eq_some_getLast (by simp)
    rw [lastState, lastState, List.getLast?_cons_cons, hlast]
    rfl

theorem lastState_append (start : Line) (lines lines' : List (List UInt8)) :
    lastState loads start (lines ++ lines') =
      lastState loads (lastState loads start lines) lines' := by
  induction lines generalizing start with
  | nil => rfl
  | cons line lines ih => rw [List.cons_append, lastState_cons, lastState_cons, ih]

/-- What the loop over the lines leaves and lets out. -/
structure Taken (loads : Loads) (h : HeartbeatRun) (lines : List (List UInt8))
    (h' : HeartbeatRun) (out : List Line) : Prop where
  out : out = lines.map (lineState loads)
  state : h'.state = lastState loads h.state lines
  pending : h'.pending = h.pending
  discarding : h'.discarding = false

theorem takeLines_spec (loads : Loads) (clock : ℕ → ℚ) (lines : List (List UInt8)) :
    ∀ (k : ℕ) (h : HeartbeatRun), h.discarding = false →
      Taken loads h lines (h.takeLines loads clock k lines).2.1
        (h.takeLines loads clock k lines).2.2 := by
  induction lines with
  | nil => exact fun k h hd => ⟨rfl, rfl, rfl, hd⟩
  | cons line lines ih =>
    intro k h hd
    rw [HeartbeatRun.takeLines, if_neg (by simp [hd])]
    obtain ⟨hout, hstate, hpending, hdiscarding⟩ :=
      ih (k + 1) (h.publishState (lineState loads line) (clock k)) hd
    constructor
    case out => exact congrArg (lineState loads line :: ·) hout
    case state =>
      rw [lastState_cons]
      exact hstate
    case pending => exact hpending
    case discarding => exact hdiscarding

theorem takeLines_discarding (line : List UInt8) (lines : List (List UInt8)) (k : ℕ)
    (hd : h.discarding = true) :
    h.takeLines loads clock k (line :: lines) =
      HeartbeatRun.takeLines loads clock { h with discarding := false } k lines := by
  rw [HeartbeatRun.takeLines, if_pos hd]

/-! ## One read -/

/-- What the loop keeps of the bytes it was given. -/
structure Reads (loads : Loads) (received : List UInt8) (h : HeartbeatRun) : Prop where
  state : h.state = stateOf loads received
  kept : (unfinished newline received).length ≤ MAX_LINE_BYTES →
    h.discarding = false ∧ h.pending = unfinished newline received
  givenUp : MAX_LINE_BYTES < (unfinished newline received).length →
    h.discarding = true ∧ h.pending = []

theorem lineState_of_lt {line : List UInt8} (hline : MAX_LINE_BYTES < line.length) :
    lineState loads line = ALL_OFF := if_neg (not_le.2 hline)

theorem stateOf_of_lt (hlong : MAX_LINE_BYTES < (unfinished newline received).length) :
    stateOf loads received = ALL_OFF := if_pos hlong

theorem stateOf_of_le (hshort : (unfinished newline received).length ≤ MAX_LINE_BYTES) :
    stateOf loads received = lastState loads ALL_OFF (completeLines newline received) :=
  if_neg (not_lt.2 hshort)

/-- What a read lets out: the lines that it completes, except one that was given
up before, and an all-off message for an unfinished line that is too long now. -/
structure ReadOut (loads : Loads) (received chunk : List UInt8) (out : List Line) : Prop where
  published : ∃ announced fresh off,
    completeLines newline (received ++ chunk) =
        completeLines newline received ++ announced ++ fresh ∧
      (∀ line ∈ announced, MAX_LINE_BYTES < line.length) ∧
      (∀ m ∈ off, m = ALL_OFF ∧
        MAX_LINE_BYTES < (unfinished newline (received ++ chunk)).length) ∧
      out = fresh.map (lineState loads) ++ off

/-- The end of a read, behind the lines `fresh` that were looked at. -/
theorem giveUp_spec {fresh : List (List UInt8)} {h' : HeartbeatRun} {out : List Line}
    (announced : List (List UInt8)) (now : ℚ) (htaken : Taken loads h fresh h' out)
    (hpending : h.pending = unfinished newline (received ++ chunk))
    (hlines : completeLines newline (received ++ chunk) =
      completeLines newline received ++ announced ++ fresh)
    (hlong : ∀ line ∈ announced, MAX_LINE_BYTES < line.length)
    (hstate : h.state = lastState loads ALL_OFF (completeLines newline received ++ announced)) :
    Reads loads (received ++ chunk) (h'.giveUp now).1 ∧
      ReadOut loads received chunk (out ++ (h'.giveUp now).2) := by
  have hkept : h'.pending = unfinished newline (received ++ chunk) :=
    htaken.pending.trans hpending
  by_cases htail : MAX_LINE_BYTES < (unfinished newline (received ++ chunk)).length
  · have hgiven : h'.giveUp now =
        ({ h'.publishState ALL_OFF now with pending := [], discarding := true }, [ALL_OFF]) := by
      simp [HeartbeatRun.giveUp, htaken.discarding, hkept, htail]
    rw [hgiven]
    refine ⟨⟨(stateOf_of_lt htail).symm, fun hshort => absurd htail (not_lt.2 hshort),
      fun _ => ⟨rfl, rfl⟩⟩, ⟨announced, fresh, [ALL_OFF], hlines, hlong, ?_, ?_⟩⟩
    · intro m hm
      exact ⟨List.mem_singleton.1 hm, htail⟩
    · rw [htaken.out]
  · have hgiven : h'.giveUp now = (h', []) := by
      simp [HeartbeatRun.giveUp, htaken.discarding, hkept, not_lt.1 htail]
    rw [hgiven]
    refine ⟨⟨?_, fun _ => ⟨htaken.discarding, hkept⟩, fun hover => absurd hover htail⟩,
      ⟨announced, fresh, [], hlines, hlong, nofun, ?_⟩⟩
    · rw [stateOf_of_le (not_lt.1 htail), hlines, lastState_append, ← hstate]
      exact htaken.state
    · rw [htaken.out]

/-- **A read takes what is kept of the stream to what is kept of it with the
new bytes.** -/
theorem readChunk_spec (hreads : Reads loads received h) (clock : ℕ → ℚ) (chunk : List UInt8) :
    Reads loads (received ++ chunk) (h.readChunk loads clock chunk).1 ∧
      ReadOut loads received chunk (h.readChunk loads clock chunk).2 := by
  by_cases hlong : MAX_LINE_BYTES < (unfinished newline received).length
  · obtain ⟨hdiscarding, hpending⟩ := hreads.givenUp hlong
    have hoff : h.state = ALL_OFF := hreads.state.trans (stateOf_of_lt hlong)
    by_cases hnl : newline ∈ chunk
    · -- the line that was given up ends
      obtain ⟨line, rest, rfl, hline⟩ := List.eq_append_cons_of_mem hnl
      have hend : newline ∉ unfinished newline received ++ line := by
        simp [not_mem_unfinished, hline]
      have hover : MAX_LINE_BYTES < (unfinished newline received ++ line).length := by
        rw [List.length_append]
        omega
      have hloop : HeartbeatRun.takeLines loads clock { h with pending := unfinished newline rest }
            1 (line :: completeLines newline rest) =
          HeartbeatRun.takeLines loads clock
            { h with pending := unfinished newline rest, discarding := false } 1
            (completeLines newline rest) :=
        takeLines_discarding line _ 1 hdiscarding
      unfold HeartbeatRun.readChunk
      simp only [hpending, List.nil_append, completeLines_line hline, unfinished_append_cons, hloop]
      apply giveUp_spec [unfinished newline received ++ line] _
        (takeLines_spec loads clock (completeLines newline rest) 1
          { h with pending := unfinished newline rest, discarding := false } rfl)
      case hpending => rw [← List.append_assoc, unfinished_append_cons]
      case hlines =>
        rw [completeLines_append, ← List.append_assoc (unfinished newline received),
          completeLines_line hend, List.append_assoc]
        rfl
      case hlong => simpa using hover
      case hstate =>
        rw [lastState_append, lastState_cons, lineState_of_lt hover]
        exact hoff
    · -- it goes on
      have hloop : h.readChunk loads clock chunk =
          ({ h with pending := [], discarding := true }, []) := by
        unfold HeartbeatRun.readChunk
        simp [hpending, completeLines_of_not_mem hnl, HeartbeatRun.takeLines, HeartbeatRun.giveUp,
          hdiscarding]
      have hopen : newline ∉ unfinished newline received ++ chunk := by
        simp [not_mem_unfinished, hnl]
      have htail : MAX_LINE_BYTES < (unfinished newline (received ++ chunk)).length := by
        rw [unfinished_append, unfinished_of_not_mem hopen, List.length_append]
        omega
      rw [hloop]
      refine ⟨⟨hoff.trans (stateOf_of_lt htail).symm, fun hshort => absurd htail (not_lt.2 hshort),
        fun _ => ⟨rfl, rfl⟩⟩, ⟨[], [], [], ?_, nofun, nofun, rfl⟩⟩
      rw [completeLines_append, completeLines_of_not_mem hopen, List.append_assoc]
      rfl
  · obtain ⟨hdiscarding, hpending⟩ := hreads.kept (not_lt.1 hlong)
    unfold HeartbeatRun.readChunk
    simp only [hpending]
    apply giveUp_spec [] _ (takeLines_spec loads clock _ 1
      { h with pending := unfinished newline (unfinished newline received ++ chunk) } hdiscarding)
    case hpending => exact (unfinished_append newline received chunk).symm
    case hlines => rw [completeLines_append, List.append_nil]
    case hlong => exact nofun
    case hstate =>
      rw [List.append_nil, ← stateOf_of_le (not_lt.1 hlong)]
      exact hreads.state

end Lines

/-! ## Messages and state -/

/-- The messages `out` led from `h` to `h'`: the last one is the state, and
`sent` counts them. -/
structure Booked (h h' : HeartbeatRun) (out : List Line) : Prop where
  state : h'.state = out.getLast?.getD h.state
  sent : h'.sent = h.sent + out.length
  running : h'.running = h.running

namespace Booked

variable {h h' h'' : HeartbeatRun} {out out' : List Line}

theorem trans (hbooked : Booked h h' out) (hbooked' : Booked h' h'' out') :
    Booked h h'' (out ++ out') where
  state := by
    rw [hbooked'.state, hbooked.state, List.getLast?_append]
    cases out'.getLast? <;> rfl
  sent := by
    rw [hbooked'.sent, hbooked.sent, List.length_append]
    omega
  running := hbooked'.running.trans hbooked.running

theorem publishState (state : Line) (now : ℚ) (h : HeartbeatRun) :
    Booked h (h.publishState state now) [state] := ⟨rfl, rfl, rfl⟩

theorem takeLines (loads : Loads) (clock : ℕ → ℚ) (lines : List (List UInt8)) :
    ∀ (k : ℕ) (h : HeartbeatRun), Booked h (h.takeLines loads clock k lines).2.1
      (h.takeLines loads clock k lines).2.2 := by
  induction lines with
  | nil => exact fun k h => ⟨rfl, rfl, rfl⟩
  | cons line lines ih =>
    intro k h
    rw [HeartbeatRun.takeLines]
    split
    · obtain ⟨hstate, hsent, hrunning⟩ := ih k { h with discarding := false }
      exact ⟨hstate, hsent, hrunning⟩
    · exact (publishState _ (clock k) h).trans (ih (k + 1) _)

theorem giveUp (now : ℚ) (h : HeartbeatRun) : Booked h (h.giveUp now).1 (h.giveUp now).2 := by
  unfold HeartbeatRun.giveUp
  split_ifs <;> exact ⟨rfl, rfl, rfl⟩

theorem readChunk (loads : Loads) (clock : ℕ → ℚ) (chunk : List UInt8) (h : HeartbeatRun) :
    Booked h (h.readChunk loads clock chunk).1 (h.readChunk loads clock chunk).2 := by
  have hlines := takeLines loads clock (completeLines newline (h.pending ++ chunk)) 1
    { h with pending := unfinished newline (h.pending ++ chunk) }
  obtain ⟨hstate, hsent, hrunning⟩ := hlines.trans (giveUp (clock _) _)
  exact ⟨hstate, hsent, hrunning⟩

theorem publishPeriodic (clock : ℕ → ℚ) (h : HeartbeatRun) :
    Booked h (h.publishPeriodic clock).1 (h.publishPeriodic clock).2 := ⟨rfl, rfl, rfl⟩

end Booked

/-! ## Turns -/

/-- The periodic message is due. -/
def Due (h : HeartbeatRun) (turn : Turn) : Prop :=
  h.running = true ∧ h.nextAt - turn.clock 0 ≤ 0

/-- The turn reads from the descriptor. -/
def Reading (h : HeartbeatRun) (turn : Turn) : Prop :=
  h.running = true ∧ 0 < h.nextAt - turn.clock 0 ∧ turn.readable = true

instance (h : HeartbeatRun) (turn : Turn) : Decidable (Reading h turn) :=
  inferInstanceAs (Decidable (_ ∧ _ ∧ _))

/-- What one turn does. -/
inductive TurnEffect (loads : Loads) (h : HeartbeatRun) (turn : Turn) :
    HeartbeatRun → List Line → Prop
  | ended (hover : h.running = false) : TurnEffect loads h turn h []
  | lost (hdue : Due h turn) (hgone : turn.parentAlive = false) :
      TurnEffect loads h turn h.close.1 h.close.2
  | periodic (hdue : Due h turn) (halive : turn.parentAlive = true) :
      TurnEffect loads h turn (h.publishPeriodic turn.clock).1 (h.publishPeriodic turn.clock).2
  | eof (hreading : Reading h turn) (hempty : turn.chunk = []) :
      TurnEffect loads h turn h.close.1 h.close.2
  | read (hreading : Reading h turn) (hchunk : turn.chunk ≠ []) :
      TurnEffect loads h turn (h.readChunk loads turn.clock turn.chunk).1
        (h.readChunk loads turn.clock turn.chunk).2
  | waits (hrunning : h.running = true) (hnotDue : ¬ Due h turn) (hquiet : ¬ Reading h turn) :
      TurnEffect loads h turn h []

theorem step_effect (loads : Loads) (h : HeartbeatRun) (turn : Turn) :
    TurnEffect loads h turn (h.step loads turn).1 (h.step loads turn).2 := by
  unfold HeartbeatRun.step
  cases hrunning : h.running with
  | false => exact .ended hrunning
  | true =>
    simp only [Bool.not_true, Bool.false_eq_true, if_false]
    split_ifs with hdue halive hreadable hempty
    · exact .lost ⟨hrunning, hdue⟩ (by simpa using halive)
    · exact .periodic ⟨hrunning, hdue⟩ (by simpa using halive)
    · exact .eof ⟨hrunning, not_le.1 hdue, hreadable⟩ hempty
    · exact .read ⟨hrunning, not_le.1 hdue, hreadable⟩ hempty
    · exact .waits hrunning (fun h => hdue h.2) fun h => hreadable h.2.2

/-! ## Runs -/

/-- The bytes that a turn gets. -/
def readOf (h : HeartbeatRun) (turn : Turn) : List UInt8 :=
  if Reading h turn then turn.chunk else []

/-- The bytes read in a run. -/
def stream (run : List (Step HeartbeatRun Turn (List Line))) : List UInt8 :=
  run.flatMap fun t => readOf t.pre t.event

/-- The messages of a run. -/
def messages (run : List (Step HeartbeatRun Turn (List Line))) : List Line :=
  run.flatMap Step.out

section Runs

variable {loads : Loads} {past : List (Step HeartbeatRun Turn (List Line))} {h : HeartbeatRun}

/-- What a run has come to: as long as the loop runs, the state is told by the
stream, and is the last message. -/
structure Told (loads : Loads) (past : List (Step HeartbeatRun Turn (List Line)))
    (h : HeartbeatRun) : Prop where
  reads : h.running = true → Reads loads (stream past) h
  latest : h.running = true → h.state = (messages past).getLast?.getD ALL_OFF
  sent : h.sent = (messages past).length

theorem readOf_of_not_reading {turn : Turn} (hno : ¬ Reading h turn) : readOf h turn = [] :=
  if_neg hno

theorem Due.not_reading {turn : Turn} (hdue : Due h turn) : ¬ Reading h turn :=
  fun hreading => absurd hdue.2 (not_le.2 hreading.2.1)

theorem stream_snoc (t : Step HeartbeatRun Turn (List Line)) :
    stream (past ++ [t]) = stream past ++ readOf t.pre t.event := by
  simp [stream]

theorem messages_snoc (t : Step HeartbeatRun Turn (List Line)) :
    messages (past ++ [t]) = messages past ++ t.out := by
  simp [messages]

theorem Told.quiet (htold : Told loads past h) {h' : HeartbeatRun} {turn : Turn} {out : List Line}
    (hrunning : h.running = true) (hquiet : ¬ Reading h turn) (hbooked : Booked h h' out)
    (hsame : h'.state = h.state ∧ h'.discarding = h.discarding ∧ h'.pending = h.pending) :
    Told loads (past ++ [⟨h, turn, out, h'⟩]) h' where
  reads := by
    intro _
    obtain ⟨hstate, hkept, hgivenUp⟩ := htold.reads hrunning
    obtain ⟨hsameState, hdiscarding, hpending⟩ := hsame
    rw [stream_snoc, readOf_of_not_reading hquiet, List.append_nil]
    constructor
    · rw [hsameState, hstate]
    · rwa [hdiscarding, hpending]
    · rwa [hdiscarding, hpending]
  latest := by
    intro _
    rw [messages_snoc, List.getLast?_append, hbooked.state, htold.latest hrunning]
    cases out.getLast? <;> rfl
  sent := by rw [messages_snoc, List.length_append, hbooked.sent, htold.sent]

theorem Told.read (htold : Told loads past h) {h' : HeartbeatRun} {turn : Turn} {out : List Line}
    (hreading : Reading h turn) (hbooked : Booked h h' out)
    (hreads : Reads loads (stream past ++ turn.chunk) h') :
    Told loads (past ++ [⟨h, turn, out, h'⟩]) h' where
  reads := by
    intro _
    rw [stream_snoc]
    simpa only [readOf, if_pos hreading] using hreads
  latest := by
    intro _
    rw [messages_snoc, List.getLast?_append, hbooked.state, htold.latest hreading.1]
    cases out.getLast? <;> rfl
  sent := by rw [messages_snoc, List.length_append, hbooked.sent, htold.sent]

theorem Told.closed (htold : Told loads past h) (turn : Turn) :
    Told loads (past ++ [⟨h, turn, h.close.2, h.close.1⟩]) h.close.1 where
  reads := nofun
  latest := nofun
  sent := by
    rw [messages_snoc, List.length_append, ← htold.sent]
    rfl

theorem Told.step (htold : Told loads past h) (turn : Turn) :
    Told loads (past ++ [stepOf (HeartbeatRun.step loads) h turn]) (h.step loads turn).1 := by
  unfold stepOf
  have heffect := step_effect loads h turn
  generalize h.step loads turn = result at heffect
  obtain ⟨h', out⟩ := result
  cases heffect with
  | ended hover =>
    have hvoid : ∀ {P : Prop}, h'.running = true → P := by
      intro P hrunning
      rw [hover] at hrunning
      cases hrunning
    exact ⟨hvoid, hvoid, by rw [messages_snoc, List.append_nil, htold.sent]⟩
  | lost => exact htold.closed turn
  | periodic hdue halive =>
    exact htold.quiet hdue.1 hdue.not_reading (.publishPeriodic turn.clock h) ⟨rfl, rfl, rfl⟩
  | eof => exact htold.closed turn
  | read hreading hchunk =>
    exact htold.read hreading (.readChunk loads turn.clock turn.chunk h)
      (readChunk_spec (htold.reads hreading.1) turn.clock turn.chunk).1
  | waits hrunning _ hquiet => exact htold.quiet hrunning hquiet ⟨rfl, rfl, rfl⟩ ⟨rfl, rfl, rfl⟩

theorem told_run (loads : Loads) (now : ℚ) (turns : List Turn) :
    Told loads (trace (HeartbeatRun.step loads) (HeartbeatRun.start now) turns)
      (final (HeartbeatRun.step loads) (HeartbeatRun.start now) turns) := by
  have hstart : Told loads [] (HeartbeatRun.start now) :=
    ⟨fun _ => ⟨rfl, fun _ => ⟨rfl, rfl⟩, nofun⟩, fun _ => rfl, rfl⟩
  exact trace_history (fun _ _ => True) hstart (fun past h turn htold _ => htold.step turn) turns
    (fun _ _ _ _ => trivial)

theorem out_of_over (hover : h.running = false) (turns : List Turn) :
    ∀ u ∈ trace (HeartbeatRun.step loads) h turns, u.out = [] := by
  induction turns with
  | nil => exact nofun
  | cons turn turns ih =>
    have hstep : h.step loads turn = (h, []) := by simp [HeartbeatRun.step, hover]
    intro u hu
    rw [trace_cons, hstep, List.mem_cons] at hu
    rcases hu with rfl | hu
    · exact congrArg Prod.snd hstep
    · exact ih u hu

end Runs

/-- What a run publishes. -/
structure PublishesStream (loads : Loads)
    (run : List (Step HeartbeatRun Turn (List Line))) : Prop where
  /-- The state is that of the stream, however it was cut. -/
  state : ∀ past t rest, run = past ++ t :: rest → t.post.running = true →
    t.post.state = stateOf loads (stream (past ++ [t]))
  /-- It is what was published last. -/
  latest : ∀ past t rest, run = past ++ t :: rest → t.post.running = true →
    t.post.state = (messages (past ++ [t])).getLast?.getD ALL_OFF
  /-- A read publishes the lines it completes. -/
  atOnce : ∀ past t rest, run = past ++ t :: rest → Reading t.pre t.event → t.event.chunk ≠ [] →
    ReadOut loads (stream past) t.event.chunk t.out
  /-- Any other turn repeats the state, if the manager is there, or is all off. -/
  otherwise : ∀ past t rest, run = past ++ t :: rest →
    ¬ (Reading t.pre t.event ∧ t.event.chunk ≠ []) → ∀ m ∈ t.out,
      m = ALL_OFF ∨ (t.event.parentAlive = true ∧ m = stateOf loads (stream past))
  /-- At the end of the stream, and with the manager found gone, all goes off
  for good. -/
  ended : ∀ past t rest, run = past ++ t :: rest →
    (Reading t.pre t.event ∧ t.event.chunk = []) ∨
      (Due t.pre t.event ∧ t.event.parentAlive = false) →
    (∀ m ∈ t.out, m = ALL_OFF) ∧ ∀ u ∈ rest, u.out = []

section Exact

variable {loads : Loads} {h : HeartbeatRun} {turn : Turn} {received : List UInt8}

theorem close_out (h : HeartbeatRun) : ∀ m ∈ h.close.2, m = ALL_OFF :=
  fun _ hm => List.eq_of_mem_replicate hm

theorem TurnEffect.repeats {h' : HeartbeatRun} {out : List Line}
    (heffect : TurnEffect loads h turn h' out)
    (hreads : h.running = true → Reads loads received h)
    (hquiet : ¬ (Reading h turn ∧ turn.chunk ≠ [])) :
    ∀ m ∈ out, m = ALL_OFF ∨ (turn.parentAlive = true ∧ m = stateOf loads received) := by
  cases heffect with
  | ended => exact nofun
  | lost => exact fun m hm => Or.inl (close_out h m hm)
  | periodic hdue halive =>
    intro m hm
    rw [List.mem_singleton.1 hm]
    exact Or.inr ⟨halive, (hreads hdue.1).state⟩
  | eof => exact fun m hm => Or.inl (close_out h m hm)
  | read hreading hchunk => exact absurd ⟨hreading, hchunk⟩ hquiet
  | waits => exact nofun

theorem TurnEffect.publishes {h' : HeartbeatRun} {out : List Line}
    (heffect : TurnEffect loads h turn h' out)
    (hreads : h.running = true → Reads loads received h) (hreading : Reading h turn)
    (hchunk : turn.chunk ≠ []) : ReadOut loads received turn.chunk out := by
  cases heffect with
  | ended hover =>
    rw [hreading.1] at hover
    cases hover
  | lost hdue => exact absurd hreading hdue.not_reading
  | periodic hdue => exact absurd hreading hdue.not_reading
  | eof _ hempty => exact absurd hempty hchunk
  | read => exact (readChunk_spec (hreads hreading.1) turn.clock turn.chunk).2
  | waits _ _ hquiet => exact absurd hreading hquiet

theorem TurnEffect.ends {h' : HeartbeatRun} {out : List Line}
    (heffect : TurnEffect loads h turn h' out)
    (hend : (Reading h turn ∧ turn.chunk = []) ∨ (Due h turn ∧ turn.parentAlive = false)) :
    h'.running = false ∧ ∀ m ∈ out, m = ALL_OFF := by
  cases heffect with
  | ended hover => exact ⟨hover, nofun⟩
  | lost => exact ⟨rfl, close_out h⟩
  | periodic hdue halive =>
    rcases hend with ⟨hreading, -⟩ | ⟨-, hgone⟩
    · exact absurd hreading hdue.not_reading
    · rw [halive] at hgone
      cases hgone
  | eof => exact ⟨rfl, close_out h⟩
  | read hreading hchunk =>
    rcases hend with ⟨-, hempty⟩ | ⟨hdue, -⟩
    · exact absurd hempty hchunk
    · exact absurd hreading hdue.not_reading
  | waits _ hnotDue hquiet =>
    rcases hend with ⟨hreading, -⟩ | ⟨hdue, -⟩
    · exact absurd hreading hquiet
    · exact absurd hdue hnotDue

/-- **What a run publishes is told by the bytes it was given.** -/
theorem run_publishesStream (loads : Loads) (now : ℚ) (turns : List Turn) :
    PublishesStream loads
      (trace (HeartbeatRun.step loads) (HeartbeatRun.start now) turns) := by
  -- any place in a run is the last one of a run
  have hplace : ∀ past t rest,
      trace (HeartbeatRun.step loads) (HeartbeatRun.start now) turns = past ++ t :: rest →
        Told loads past t.pre ∧ Told loads (past ++ [t]) t.post ∧
          TurnEffect loads t.pre t.event t.post t.out ∧
          ∃ later, rest = trace (HeartbeatRun.step loads) t.post later := by
    intro past t rest hrun
    obtain ⟨before, turn, later, -, rfl, rfl, hrest⟩ := trace_split hrun
    have htold := told_run loads now before
    exact ⟨htold, htold.step turn, step_effect loads _ turn, later, hrest⟩
  constructor
  case state =>
    intro past t rest hrun hrunning
    exact ((hplace past t rest hrun).2.1.reads hrunning).state
  case latest =>
    intro past t rest hrun hrunning
    exact (hplace past t rest hrun).2.1.latest hrunning
  case atOnce =>
    intro past t rest hrun hreading hchunk
    obtain ⟨htold, -, heffect, -⟩ := hplace past t rest hrun
    exact heffect.publishes htold.reads hreading hchunk
  case otherwise =>
    intro past t rest hrun hquiet
    obtain ⟨htold, -, heffect, -⟩ := hplace past t rest hrun
    exact heffect.repeats htold.reads hquiet
  case ended =>
    intro past t rest hrun hend
    obtain ⟨-, -, heffect, later, rfl⟩ := hplace past t rest hrun
    obtain ⟨hover, hoff⟩ := heffect.ends hend
    exact ⟨hoff, out_of_over hover later⟩

/-- A line that is still in the pipe when the manager is gone is published as
it is: a read does not ask for the manager. -/
theorem line_outlives_manager :
    ¬ ∀ (loads : Loads) (now : ℚ) (turns : List Turn)
      (past rest : List (Step HeartbeatRun Turn (List Line)))
      (t : Step HeartbeatRun Turn (List Line)),
      trace (HeartbeatRun.step loads) (HeartbeatRun.start now) turns = past ++ t :: rest →
        t.event.parentAlive = false → ∀ m ∈ t.out, m = ALL_OFF := by
  intro h
  let driveOn := "\x7b\"drive\": true\x7d".toList.map Char.toUInt8
  let loads : Loads := fun line => if line = driveOn then some (.dict [("drive", .bool true)]) else none
  let turns : List Turn :=
    [{ clock := fun _ => 0 },
      { clock := fun _ => 1 / 10, parentAlive := false, readable := true,
        chunk := driveOn ++ [newline] }]
  have hoff := h loads 0 turns [_] [] _ rfl rfl
  exact absurd hoff (by decide +kernel)

end Exact

end Questix.RobotManager.ActuationHeartbeat
