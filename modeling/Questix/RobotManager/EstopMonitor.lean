/-
Questix.RobotManager.EstopMonitor — the robot's E-stop state for the pages
(`estop_monitor.py`).

Everything happens under one lock, so an event is one critical section: a call
of `observe` or `shutdown`, or what a reader thread does with one line. A
listener process is a number, each start giving a new one; what became of the
process, the command and the start is part of the event, and so are the
readings of the clock. A line that ends its reader (one that is nested too
deep for `json.loads`) is a line that never comes.
-/
import Questix.Lib.DblArith
import Questix.Lib.Trace
import Questix.WebJoyDriver.JoyFrame

namespace Questix.RobotManager.EstopMonitor

open Questix.Lib
open WebJoyDriver (Value)

def STALE_SEC : ℚ := 3 / 2
def STARTUP_SEC : ℚ := 5
def RETRY_SEC : ℚ := 10
def MAX_TEXT : ℕ := 200

abbrev Text := List Char

/-! ## Lines -/

/-- `json.loads`; missing is a `ValueError`. -/
abbrev Loads := Text → Option Value

structure Report where
  active : Bool
  source : Text
  reason : Text
  deriving DecidableEq

/-- `data.get(key, "")`, of a text. -/
def textAt (data : Value) (key : String) : Option Text :=
  match data.get key with
  | none => some []
  | some (.str s) => some s.toList
  | some _ => none

def parseLine (loads : Loads) (line : Text) : Option Report :=
  match loads line with
  | some (.dict fields) =>
    match (Value.dict fields).get "active", textAt (.dict fields) "source",
      textAt (.dict fields) "reason" with
    | some (.bool active), some source, some reason =>
      some { active, source := source.take MAX_TEXT, reason := reason.take MAX_TEXT }
    | _, _, _ => none
  | _ => none

/-! ## The listener -/

abbrev Generation := ℕ

abbrev Command := List String

structure Monitor where
  proc : Option Generation := none
  commandUsed : Option Command := none
  startedAt : ℚ := 0
  latest : Option Report := none
  receivedAt : ℚ := 0
  error : Option Text := none
  retryAt : ℚ := 0
  /-- How many processes were started so far. -/
  started : ℕ := 0

/-- What `_command(_read_env_file(…))` came to. -/
inductive Found where
  | command (command : Command)
  /-- an `HTTPException`, with its detail -/
  | refused (detail : Text)
  /-- any other exception -/
  | raised

/-- What `Popen` and the thread came to. -/
inductive Launch where
  | launched
  /-- an `OSError`, with its text -/
  | failed (error : Text)
  | raised
  /-- the process runs, but its reader could not be started -/
  | noReader

/-- A call of `observe`, with what it finds. -/
structure Call where
  service : String
  /-- the exit code of a process that has ended -/
  exited : Option ℤ
  found : Found
  launch : Launch
  /-- the readings of the clock, one after the other -/
  reapAt : ℚ
  checkAt : ℚ
  startAt : ℚ
  now : ℚ

inductive DisplayState where
  | pressed
  | released
  | unknown
  deriving DecidableEq

inductive Note where
  | robotStopped
  | starting
  | notHeard
  | silent
  | unavailable
  deriving DecidableEq

/-- What the page is told. -/
structure Status where
  state : DisplayState
  note : Option Note := none
  reason : Option Text := none
  source : Option Text := none
  ageSec : Option ℚ := none
  detail : Option Text := none
  deriving DecidableEq

def startError (error : Text) : Text :=
  "非常停止の確認用プロセスを起動できません: ".toList ++ error

def exitError (code : ℤ) : Text :=
  ("非常停止の確認用プロセスが終了しました（終了コード " ++ toString code ++ "）。"
    ++ "ROS 環境と questix_msgs のビルドを確認してください").toList

/-- `round(value, 1)` -/
def tenths (value : ℚ) : ℚ := roundHalfEven (value * 10) / 10

namespace Monitor

/-- `_stop_locked` -/
def stop (m : Monitor) : Monitor := { m with proc := none, latest := none }

/-- `_reap_locked` -/
def reap (m : Monitor) (exited : Option ℤ) (now : ℚ) : Monitor :=
  match m.proc, exited with
  | some _, some code =>
    { m with
      proc := none
      latest := none
      error := some (exitError code)
      retryAt := now + RETRY_SEC }
  | _, _ => m

/-- A process that has been started. -/
def adopt (m : Monitor) (command : Command) (now : ℚ) : Monitor :=
  { m with
    proc := some m.started
    commandUsed := some command
    startedAt := now
    latest := none
    error := none
    started := m.started + 1 }

/-- `_start_locked`; missing is an exception. -/
def start (m : Monitor) (command : Command) (launch : Launch) (now : ℚ) : Monitor × Bool :=
  match launch with
  | .launched => (m.adopt command now, true)
  | .failed error => ({ m with error := some (startError error), retryAt := now + RETRY_SEC }, true)
  | .raised => (m, false)
  | .noReader => (m.adopt command now, false)

/-- `_snapshot_locked` -/
def snapshot (m : Monitor) (now : ℚ) : Status :=
  match m.proc with
  | none => { state := .unknown, note := some .unavailable, detail := m.error }
  | some _ =>
    match m.latest with
    | none =>
      { state := .unknown
        note := some (if now - m.startedAt < STARTUP_SEC then .starting else .notHeard) }
    | some report =>
      let age := tenths (now - m.receivedAt)
      if now - m.receivedAt > STALE_SEC then
        { state := .unknown, note := some .silent, ageSec := some age }
      else
        { state := if report.active then .pressed else .released
          reason := some report.reason
          source := some report.source
          ageSec := some age }

/-- `observe`; no status where an exception leaves it. -/
def observe (m : Monitor) (call : Call) : Monitor × Option Status :=
  if call.service ≠ "active" then
    ({ m.stop with error := none, retryAt := 0 },
      some { state := .unknown, note := some .robotStopped })
  else
    let m := m.reap call.exited call.reapAt
    match call.found with
    | .raised => (m, none)
    | .refused detail =>
      let m := { m.stop with error := some detail }
      (m, some (m.snapshot call.now))
    | .command command =>
      -- the domain or the workspace changed: listen where the robot runs now
      let m := if m.proc.isSome ∧ m.commandUsed ≠ some command then m.stop else m
      if m.proc = none ∧ call.checkAt ≥ m.retryAt then
        let (m, returns) := m.start command call.launch call.startAt
        (m, if returns then some (m.snapshot call.now) else none)
      else (m, some (m.snapshot call.now))

/-- `_read_lines`, of one line. -/
def hear (loads : Loads) (m : Monitor) (reader : Generation) (line : Text) (now : ℚ) : Monitor :=
  match parseLine loads line with
  | none => m
  | some report =>
    if m.proc = some reader then { m with latest := some report, receivedAt := now } else m

end Monitor

inductive Event where
  | observe (call : Call)
  | line (reader : Generation) (line : Text) (now : ℚ)
  | shutdown

def step (loads : Loads) (m : Monitor) : Event → Monitor × Option Status
  | .observe call => m.observe call
  | .line reader line now => (m.hear loads reader line now, none)
  | .shutdown => (m.stop, none)

end Questix.RobotManager.EstopMonitor

/-! The display never shows a stale
release.

`Heard` says what the last report is: the last valid line of the process that
is current. `Gone` says that a process never becomes current again. -/

namespace Questix.RobotManager.EstopMonitor

open Questix.Lib

variable {loads : Loads}

abbrev MonitorStep := Step Monitor Event (Option Status)

/-! ## What a call does -/

/-- How a call can leave the monitor: as it was but for its error, without a
process, or with a new one. -/
inductive CallDoes (m m' : Monitor) : Prop
  | keeps (proc : m'.proc = m.proc) (latest : m'.latest = m.latest)
      (received : m'.receivedAt = m.receivedAt) (started : m'.started = m.started)
  | stops (proc : m'.proc = none) (started : m'.started = m.started)
  | starts (proc : m'.proc = some m.started) (latest : m'.latest = none)
      (started : m'.started = m.started + 1)

theorem CallDoes.of_stopped {m m' m'' : Monitor} (hproc : m'.proc = none)
    (hstarted : m'.started = m.started) (h : CallDoes m' m'') : CallDoes m m'' := by
  cases h with
  | keeps proc _ _ started => exact .stops (proc.trans hproc) (started.trans hstarted)
  | stops proc started => exact .stops proc (started.trans hstarted)
  | starts proc latest started =>
    exact .starts (by rw [proc, hstarted]) latest (by rw [started, hstarted])

theorem reap_does (m : Monitor) (exited : Option ℤ) (now : ℚ) :
    CallDoes m (m.reap exited now) := by
  unfold Monitor.reap
  split
  · exact .stops rfl rfl
  · exact .keeps rfl rfl rfl rfl

theorem start_does (m : Monitor) (command : Command) (launch : Launch) (now : ℚ) :
    CallDoes m (m.start command launch now).1 := by
  cases launch with
  | launched | noReader => exact .starts rfl rfl rfl
  | failed | raised => exact .keeps rfl rfl rfl rfl

theorem observe_does (m : Monitor) (call : Call) : CallDoes m (m.observe call).1 := by
  have hreap := reap_does m call.exited call.reapAt
  have hstarted : (m.reap call.exited call.reapAt).started = m.started := by
    unfold Monitor.reap
    split <;> rfl
  unfold Monitor.observe
  by_cases hactive : call.service ≠ "active"
  · rw [if_pos hactive]
    exact .stops rfl rfl
  rw [if_neg hactive]
  dsimp only
  cases call.found with
  | raised => exact hreap
  | refused detail => exact .stops rfl hstarted
  | command command =>
    dsimp only
    by_cases hchanged : (m.reap call.exited call.reapAt).proc.isSome ∧
        (m.reap call.exited call.reapAt).commandUsed ≠ some command
    · rw [if_pos hchanged]
      refine @CallDoes.of_stopped _ (m.reap call.exited call.reapAt).stop _ rfl hstarted ?_
      by_cases hstart : (m.reap call.exited call.reapAt).stop.proc = none ∧
          call.checkAt ≥ (m.reap call.exited call.reapAt).stop.retryAt
      · rw [if_pos hstart]
        exact start_does _ _ _ _
      · rw [if_neg hstart]
        exact .keeps rfl rfl rfl rfl
    · rw [if_neg hchanged]
      by_cases hstart : (m.reap call.exited call.reapAt).proc = none ∧
          call.checkAt ≥ (m.reap call.exited call.reapAt).retryAt
      · rw [if_pos hstart]
        exact CallDoes.of_stopped hstart.1 hstarted (start_does _ _ _ _)
      · rw [if_neg hstart]
        exact hreap

/-! ## The last report -/

/-- The last valid line of a process said `report`, was handled at `at'`, and
was handled while the process was current. -/
def LastReport (loads : Loads) (past : List MonitorStep) (reader : Generation) (report : Report)
    (at' : ℚ) : Prop :=
  ∃ before line s after, past = before ++ s :: after ∧ s.event = .line reader line at' ∧
    parseLine loads line = some report ∧ s.pre.proc = some reader ∧
    ∀ later ∈ after, ∀ line now, later.event = .line reader line now → parseLine loads line = none

theorem LastReport.snoc {past : List MonitorStep} {reader : Generation} {report : Report} {at' : ℚ}
    (h : LastReport loads past reader report at') {s : MonitorStep}
    (hs : ∀ line now, s.event = .line reader line now → parseLine loads line = none) :
    LastReport loads (past ++ [s]) reader report at' := by
  obtain ⟨before, line, heard, after, rfl, hevent, hparse, hproc, hafter⟩ := h
  refine ⟨before, line, heard, after ++ [s], by simp, hevent, hparse, hproc, ?_⟩
  intro later hlater
  rcases List.mem_append.mp hlater with hlater | hlater
  · exact hafter later hlater
  · rw [List.mem_singleton.mp hlater]
    exact hs

/-- What the monitor holds after the steps `past`. -/
structure Heard (loads : Loads) (past : List MonitorStep) (m : Monitor) : Prop where
  old : ∀ reader, m.proc = some reader → reader < m.started
  last : ∀ reader report, m.proc = some reader → m.latest = some report →
    LastReport loads past reader report m.receivedAt

theorem Heard.call {past : List MonitorStep} {m m' : Monitor} (h : Heard loads past m)
    (hdoes : CallDoes m m') {s : MonitorStep} (hs : ∀ reader line now, s.event ≠ .line reader line now) :
    Heard loads (past ++ [s]) m' := by
  cases hdoes with
  | keeps proc latest received started =>
    constructor
    · intro reader hreader
      rw [started]
      exact h.old reader (proc ▸ hreader)
    · intro reader report hreader hreport
      rw [received]
      refine (h.last reader report (proc ▸ hreader) (latest ▸ hreport)).snoc ?_
      exact fun line now hevent => absurd hevent (hs reader line now)
  | stops proc started =>
    constructor
    · intro reader hreader
      rw [proc] at hreader
      exact absurd hreader (by simp)
    · intro reader report hreader
      rw [proc] at hreader
      exact absurd hreader (by simp)
  | starts proc latest started =>
    constructor
    · intro reader hreader
      rw [proc] at hreader
      obtain rfl := Option.some.inj hreader
      rw [started]
      exact Nat.lt_succ_self _
    · intro reader report _ hreport
      rw [latest] at hreport
      exact absurd hreport (by simp)

theorem Heard.line {past : List MonitorStep} {m : Monitor} (h : Heard loads past m)
    (reader : Generation) (line : Text) (now : ℚ) :
    Heard loads (past ++ [stepOf (step loads) m (.line reader line now)])
      (m.hear loads reader line now) := by
  unfold Monitor.hear
  cases hparse : parseLine loads line with
  | none =>
    refine ⟨h.old, fun current report hcurrent hreport => ?_⟩
    refine (h.last current report hcurrent hreport).snoc fun line' now' hevent => ?_
    obtain ⟨-, rfl, -⟩ := Event.line.inj hevent
    exact hparse
  | some report =>
    dsimp only
    by_cases hcurrent : m.proc = some reader
    · rw [if_pos hcurrent]
      refine ⟨h.old, fun current report' hproc hreport => ?_⟩
      obtain rfl : reader = current := Option.some.inj (hcurrent.symm.trans hproc)
      obtain rfl := Option.some.inj hreport
      exact ⟨past, line, _, [], rfl, rfl, hparse, hcurrent, by simp⟩
    · rw [if_neg hcurrent]
      refine ⟨h.old, fun current report' hproc hreport => ?_⟩
      refine (h.last current report' hproc hreport).snoc fun line' now' hevent => ?_
      obtain ⟨rfl, -, -⟩ := Event.line.inj hevent
      exact absurd hproc hcurrent

theorem Heard.step {past : List MonitorStep} {m : Monitor} (h : Heard loads past m) (e : Event) :
    Heard loads (past ++ [stepOf (step loads) m e]) (step loads m e).1 := by
  cases e with
  | observe call => exact h.call (observe_does m call) (by simp [stepOf])
  | line reader line now => exact h.line reader line now
  | shutdown =>
    have hstops : CallDoes m m.stop := .stops rfl rfl
    exact h.call hstops (by simp [stepOf])

theorem heard_run (es : List Event) :
    Heard loads (trace (step loads) {} es) (final (step loads) {} es) :=
  trace_history (fun _ _ => True) ⟨by simp, by simp⟩ (fun _ _ e h _ => h.step e) es
    fun _ _ _ _ => trivial

/-! ## Listeners that are gone -/

/-- A process that was started, and is not the current one. -/
def Gone (reader : Generation) (m : Monitor) : Prop := reader < m.started ∧ m.proc ≠ some reader

theorem Gone.step {reader : Generation} {m : Monitor} (h : Gone reader m) (e : Event) :
    Gone reader (step loads m e).1 := by
  obtain ⟨hold, hproc⟩ := h
  cases e with
  | observe call =>
    change reader < (m.observe call).1.started ∧ (m.observe call).1.proc ≠ some reader
    cases observe_does m call with
    | keeps proc _ _ started =>
      rw [proc, started]
      exact ⟨hold, hproc⟩
    | stops proc started =>
      rw [proc, started]
      exact ⟨hold, fun hnone => nomatch hnone⟩
    | starts proc _ started =>
      rw [proc, started]
      exact ⟨hold.trans (Nat.lt_succ_self _), fun heq => hold.ne' (Option.some.inj heq)⟩
  | line other line now =>
    change Gone reader (m.hear loads other line now)
    unfold Monitor.hear
    split
    · exact ⟨hold, hproc⟩
    · split_ifs
      · exact ⟨hold, hproc⟩
      · exact ⟨hold, hproc⟩
  | shutdown => exact ⟨hold, fun hnone => nomatch hnone⟩

theorem Gone.hear {reader : Generation} {m : Monitor} (h : Gone reader m) (line : Text) (now : ℚ) :
    m.hear loads reader line now = m := by
  unfold Monitor.hear
  split
  · rfl
  · rw [if_neg h.2]

/-- The event is no line of this reader. -/
def Event.notOf (reader : Generation) : Event → Bool
  | .line other _ _ => other != reader
  | .observe _ | .shutdown => true

def told (steps : List MonitorStep) : List Status := steps.filterMap Step.out

theorem Gone.told_filter {reader : Generation} (es : List Event) :
    ∀ {m : Monitor}, Gone reader m →
      told (trace (EstopMonitor.step loads) m es)
        = told (trace (EstopMonitor.step loads) m (es.filter (Event.notOf reader))) := by
  induction es with
  | nil => exact fun _ => rfl
  | cons e es ih =>
    intro m h
    have hrest := ih (@Gone.step loads _ _ h e)
    by_cases hof : Event.notOf reader e
    · rw [List.filter_cons_of_pos hof, trace_cons, trace_cons]
      unfold told at hrest ⊢
      rw [List.filterMap_cons, List.filterMap_cons, hrest]
    · rw [List.filter_cons_of_neg hof, trace_cons]
      cases e with
      | observe | shutdown => exact absurd rfl hof
      | line other line now =>
        obtain rfl : other = reader := by simpa [Event.notOf] using hof
        have hsame : (EstopMonitor.step loads m (.line other line now)).1 = m := h.hear line now
        rw [hsame] at hrest ⊢
        unfold told at hrest ⊢
        rw [List.filterMap_cons_none rfl]
        exact hrest

/-! ## The display -/

theorem snapshot_released {m : Monitor} {now : ℚ} (h : (m.snapshot now).state = .released) :
    ∃ reader report, m.proc = some reader ∧ m.latest = some report ∧ report.active = false ∧
      now - m.receivedAt ≤ STALE_SEC := by
  unfold Monitor.snapshot at h
  cases hproc : m.proc with
  | none =>
    rw [hproc] at h
    exact absurd h (by simp)
  | some reader =>
    cases hlatest : m.latest with
    | none =>
      rw [hproc, hlatest] at h
      exact absurd h (by simp)
    | some report =>
      rw [hproc, hlatest] at h
      dsimp only at h
      split_ifs at h with hstale hactive
      exact ⟨reader, report, rfl, rfl, by simpa using hactive, not_lt.mp hstale⟩

theorem observe_released {m : Monitor} {call : Call} {status : Status}
    (h : (m.observe call).2 = some status) (hreleased : status.state = .released) :
    call.service = "active" ∧ status = (m.observe call).1.snapshot call.now := by
  revert h
  unfold Monitor.observe
  by_cases hactive : call.service ≠ "active"
  · rw [if_pos hactive]
    intro h
    obtain rfl := Option.some.inj h
    exact absurd hreleased (by simp)
  · rw [if_neg hactive]
    dsimp only
    intro h
    refine ⟨not_not.mp hactive, ?_⟩
    revert h
    cases call.found with
    | raised => exact fun h => absurd h (by simp)
    | refused detail => exact fun h => (Option.some.inj h).symm
    | command command =>
      dsimp only
      intro h
      split_ifs at h ⊢ with hchanged hstart hreturns hstart hreturns
      all_goals exact (Option.some.inj h).symm

/-- A release is shown only while the robot runs, and only where the last valid
line of the listener that is current said so within `STALE_SEC`. And once a
listener is gone, what the pages are told is what they would be told if none of
its lines came any more. -/
theorem released_is_fresh (loads : Loads) :
    (∀ (es : List Event) (past rest : List MonitorStep) (s : MonitorStep) (call : Call)
        (status : Status), trace (step loads) {} es = past ++ s :: rest →
      s.event = .observe call → s.out = some status → status.state = .released →
        call.service = "active" ∧
          ∃ reader report at', s.post.proc = some reader ∧
            LastReport loads past reader report at' ∧ report.active = false ∧
              call.now - at' ≤ STALE_SEC) ∧
      ∀ (es later : List Event) (reader : Generation),
        Gone reader (final (step loads) {} es) →
          told (trace (step loads) (final (step loads) {} es) later)
            = told (trace (step loads) (final (step loads) {} es)
                (later.filter (Event.notOf reader))) := by
  refine ⟨?_, fun es later reader h => h.told_filter later⟩
  intro es past rest s call status htrace hevent hout hreleased
  obtain ⟨es₁, e, es₂, -, rfl, hs, -⟩ := trace_split htrace
  rw [hs] at hevent hout ⊢
  change e = .observe call at hevent
  subst hevent
  change (Monitor.observe _ call).2 = some status at hout
  obtain ⟨hservice, rfl⟩ := observe_released hout hreleased
  obtain ⟨reader, report, hproc, hlatest, hactive, hfresh⟩ := snapshot_released hreleased
  refine ⟨hservice, reader, report, _, hproc, ?_, hactive, hfresh⟩
  -- a call brings no report of its own, so the one shown was there before it
  have hheard := @heard_run loads es₁
  cases observe_does (final (step loads) {} es₁) call with
  | keeps proc latest received started =>
    rw [received]
    exact hheard.last reader report (proc ▸ hproc) (latest ▸ hlatest)
  | stops proc _ =>
    rw [proc] at hproc
    exact absurd hproc (by simp)
  | starts _ latest _ =>
    rw [latest] at hlatest
    exact absurd hlatest (by simp)

end Questix.RobotManager.EstopMonitor
