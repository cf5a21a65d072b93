/-
Questix.RobotManager.RecorderReadiness — the trial query behind the button
「開始条件を再確認」: the class `Readiness` of `recorder_readiness.py`.

The calls come from any thread of the server; what is under way beside them
(`Thread`) is the end of a call of `service`, the timers, and the workers. A
move is what one thread does under one lock, or a worker between two of its
looks at the object. The clock is the sequence of its readings, whatever
thread makes them; the readings inside the query are part of how it ends.

A timer may go off at any time. `cancel` sets its flag, which the timer looks
at when its delay is over: after that it waits for the lock, and is no longer
stopped. `query` and `serial` number the queries and the timers, to tell them
apart.

Proofs live in `ReadinessTheorems`.
-/
import Questix.Lib.Pool
import Mathlib.Algebra.Order.Ring.Rat

namespace Questix.RobotManager.RecorderReadiness

open Questix.Lib

def TTL_SEC : ℚ := 60
def RETRY_SEC : ℚ := 5
def BUDGET_SEC : ℚ := 60

/-- What a snapshot shows; the two times are instants of the wall clock. -/
structure Preflight where
  state : String
  message : String
  checkedAt : Option ℚ := none
  expiresAt : Option ℚ := none
  missingRequired : List String := []
  warnings : List String := []
  deriving DecidableEq

/-- `Readiness.empty` -/
def empty (state message : String) : Preflight where
  state := state
  message := message

def notChecked : Preflight := empty "not_checked" "証拠付き記録の開始条件を再確認してください"
def stale : Preflight := empty "stale" "確認結果が古くなりました。再確認してください"
def rechecking : Preflight := empty "checking" "開始条件を再確認しています"
def checking : Preflight := empty "checking" "開始条件を確認しています"
def budgetError : Preflight :=
  empty "error" "ROS環境・ソースの開始条件を確認できません（再確認してください）"
def otherError : Preflight := empty "error" "開始条件の確認に失敗しました。再確認してください"

/-- How the query ends: with what it returns, an `HTTPException`, one of
`OSError`, `SubprocessError` and `ValueError`, or any other exception. -/
inductive Outcome where
  | returned (result : Preflight)
  | httpException (detail : String)
  | unavailable
  | otherException
  deriving DecidableEq

/-- What is under way beside the calls. -/
inductive Thread where
  | observe (value : String)  -- `service`, before its second lock
  | timer (serial : ℕ) (delay : ℚ)
  | scheduled  -- a timer that has gone off, before the lock
  | run (generation query : ℕ)
  | query (generation query : ℕ) (deadline : ℚ)
  | publish (generation query : ℕ) (result : Preflight)
  deriving DecidableEq

inductive Call where
  | setServiceSource
  | service (fresh : Bool) (source : Option String)  -- none where the source raises
  | invalidate
  | snapshot
  | request
  deriving DecidableEq

/-- What the environment decides in a move: how the query ends, and what the
wall clock shows. -/
structure Luck where
  outcome : Outcome := .otherException
  wall : ℚ := 0

/-- What can be seen of a move. -/
inductive Effect where
  | invalidated
  | expired
  | service (value : String)
  | shown (generation : ℕ) (result : Preflight)
  | started (query : ℕ) (time : ℚ)
  | published (query : ℕ) (result : Preflight) (time : ℚ)
  deriving DecidableEq

/-- The fields of the object, with the flags of its timers. -/
structure Readiness where
  serviceValue : String := "unknown"
  serviceAt : Option ℚ := none  -- `none` is `-inf`, here and in `lastQuery`
  observedService : Option String := none
  generation : ℕ := 0
  result : Preflight := notChecked
  expires : Option ℚ := none
  running : Bool := false
  pending : Bool := false
  timer : Option ℕ := none
  lastQuery : Option ℚ := none
  cancelled : List ℕ := []
  timers : ℕ := 0
  queries : ℕ := 0
  /-- How often the clock has been read. -/
  reads : ℕ := 0

namespace Readiness

variable (clock : ℕ → ℚ)

def now (s : Readiness) : ℚ := clock s.reads

def read (s : Readiness) : Readiness := { s with reads := s.reads + 1 }

/-- `_invalidate` -/
def invalidate (s : Readiness) : Readiness :=
  { s with
    generation := s.generation + 1
    result := notChecked
    expires := none
    pending := false
    timer := none
    cancelled := s.timer.toList ++ s.cancelled }

/-- `delay` at the reading `now`; only its sign counts where it is `-inf`. -/
def delay (s : Readiness) (now : ℚ) : ℚ :=
  match s.lastQuery with
  | some last => RETRY_SEC - (now - last)
  | none => 0

/-- `_schedule`: the delay that remains is waited for. -/
def wait (s : Readiness) : Readiness × List Thread × List Effect :=
  ({ s.read with
      expires := none
      result := rechecking
      timer := some s.timers
      timers := s.timers + 1 },
    [.timer s.timers (s.delay (s.now clock))], [])

/-- `_schedule`: the query starts; the clock is read a second time. -/
def start (s : Readiness) : Readiness × List Thread × List Effect :=
  ({ s.read.read with
      expires := none
      pending := false
      running := true
      lastQuery := some (s.read.now clock)
      result := checking
      queries := s.queries + 1 },
    [.run s.generation s.queries], [.started s.queries (s.read.now clock)])

/-- `_schedule` -/
def schedule (s : Readiness) : Readiness × List Thread × List Effect :=
  if s.running || s.timer.isSome || !s.pending then (s, [], [])
  else if 0 < s.delay (s.now clock) then s.wait clock
  else s.start clock

/-- `value or "unknown"`, after the `except`. -/
def serviceText : Option String → String
  | some value => if value = "" then "unknown" else value
  | none => "unknown"

/-- The cached value is a second old. -/
def serviceDue (s : Readiness) : Bool :=
  match s.serviceAt with
  | some time => 1 ≤ s.now clock - time
  | none => true

/-- `service`, under the lock of the cache. -/
def lookAtService (s : Readiness) (fresh : Bool) (source : Option String) : Readiness :=
  let due := fresh || s.serviceDue clock
  let s := if fresh then s else s.read
  if due then
    { s.read with serviceValue := serviceText source, serviceAt := some (s.now clock) }
  else s

/-- `service`, under the lock of the object. -/
def observe (s : Readiness) (value : String) : Readiness × List Thread × List Effect :=
  if s.observedService.any (· ≠ value) then
    ({ s.invalidate with observedService := some value }, [], [.invalidated, .service value])
  else ({ s with observedService := some value }, [], [.service value])

/-- `snapshot` -/
def snapshot (s : Readiness) : Readiness × List Thread × List Effect :=
  match s.expires with
  | some expires =>
    if expires ≤ s.now clock then
      ({ s.read.invalidate with result := stale }, [],
        [.expired, .shown (s.generation + 1) stale])
    else (s.read, [], [.shown s.generation s.result])
  | none => (s, [], [.shown s.generation s.result])

def arrive (s : Readiness) : Call → Readiness × List Thread × List Effect
  | .setServiceSource => ({ s with serviceAt := none }, [], [])
  | .service fresh source =>
    let s := s.lookAtService clock fresh source
    (s, [.observe s.serviceValue], [])
  | .invalidate => (s.invalidate, [], [.invalidated])
  | .snapshot => s.snapshot clock
  | .request => schedule clock { s with pending := true }

/-- `_run`: what is made of the end of the query, with the last look at the
budget, which is taken only where the query has returned. -/
def resultOf (outcome : Outcome) (deadline now : ℚ) : Preflight :=
  match outcome with
  | .returned result => if deadline - now ≤ 0 then budgetError else result
  | .httpException detail => empty "error" detail
  | .unavailable => budgetError
  | .otherException => otherError

/-- `_run`: the worker has its end of the query. -/
def finishQuery (s : Readiness) (generation query : ℕ) (deadline : ℚ) (luck : Luck) :
    Readiness × List Thread × List Effect :=
  let result : Preflight :=
    { resultOf luck.outcome deadline (s.now clock) with
      checkedAt := some luck.wall
      expiresAt := some (luck.wall + TTL_SEC) }
  (match luck.outcome with
    | .returned _ => s.read
    | _ => s, [.publish generation query result], [])

/-- `_run`, under the lock. -/
def publish (s : Readiness) (generation query : ℕ) (result : Preflight) :
    Readiness × List Thread × List Effect :=
  if generation = s.generation then
    let next := schedule clock { s.read with
      result := result, expires := some (s.now clock + TTL_SEC), running := false }
    (next.1, next.2.1, .published query result (s.now clock) :: next.2.2)
  else schedule clock { s with running := false }

/-- The next move of a thread. -/
def run (s : Readiness) (t : Thread) (luck : Luck) : Readiness × List Thread × List Effect :=
  match t with
  | .observe value => s.observe value
  | .timer serial _ => (s, if serial ∈ s.cancelled then [] else [.scheduled], [])
  | .scheduled => schedule clock { s with timer := none }
  | .run generation query =>
    (s.read, [.query generation query (s.now clock + BUDGET_SEC)], [])
  | .query generation query deadline => s.finishQuery clock generation query deadline luck
  | .publish generation query result => s.publish clock generation query result

/-- The object with its threads. -/
def program : Program Readiness Thread Call Luck (List Effect) := ⟨arrive clock, run clock⟩

end Readiness

def opening : Pool Readiness Thread := ⟨{}, 0⟩

end Questix.RobotManager.RecorderReadiness
