/-
Questix.PwmGuard.Daemon — how the guard's daemon serves a connection of the
robot: the dispatch and the drop of `daemon.cpp`, and the request of
`protocol.hpp`.

One client is followed, so the owning file descriptor is a flag: its present
connection owns the core or does not. The administrator's requests appear
where they reach the core, as an emergency Low of a run. A frame's text is
left out (`Reply` models the reply's); what `parse_request` asks of the fields
is not.

Every operation on the core is recorded as the step it took (`Note`), with the
request it was made for.
-/
import Questix.PwmGuard.Reply

namespace Questix.PwmGuard

open Questix.Lib

/-! ## Requests -/

/-- The operations a robot's connection may ask for. -/
inductive RequestOp where
  | arm
  | complete
  | command
  | shutdown
  | stop
  | report
  deriving DecidableEq, Repr

structure Request where
  op : RequestOp
  session : UInt64 := 0
  seq : UInt64 := 0
  pulse : Int := 0
  deriving DecidableEq

/-- What `parse_request` asks of the fields; a decimal has no sign. -/
def Request.parses (r : Request) : Bool :=
  decide (0 ≤ r.pulse) &&
  match r.op with
  | .report => r.session != 0 && r.seq == 0 && r.pulse == 0
  | .stop => r.pulse == 0
  | .shutdown => r.pulse == 0
  | .arm => r.session == 0 && r.seq == 0 && r.pulse == 0
  | .complete => r.session != 0 && r.seq != 0 && r.pulse == 0
  | .command => r.session != 0 && r.seq != 0

/-! ## The daemon -/

/-- A moment of the daemon: the time, and the output during the operation. -/
structure Instant where
  now : Int
  env : Env

/-- The moment a request is dispatched: the opening tick, then the operation. -/
structure Serve where
  now : Int
  tickEnv : Env
  env : Env
  generation : UInt64

/-- A step of the core and the request it was made for. -/
structure Note where
  cause : Option RequestOp
  step : Step Core Event Result

structure Daemon where
  core : Core
  owner : Bool := false

namespace Daemon

def apply (d : Daemon) (cause : Option RequestOp) (op : Op) (i : Instant) :
    Daemon × Bool × List Note :=
  let t := stepOf step d.core ⟨op, i.now, i.env⟩
  ({ d with core := t.post }, t.out.ok, [⟨cause, t⟩])

/-- The operation a request becomes; none for a `REPORT` and for a request of a
connection that does not own the core. -/
def coreOp (d : Daemon) (r : Request) (generation : UInt64) : Option Op :=
  match r.op with
  | .arm => if d.owner then none else some (.arm generation)
  | .complete => if d.owner then some (.complete r.session r.seq) else none
  | .command => if d.owner then some (.command r.session r.seq r.pulse) else none
  | .shutdown => if d.owner then some (.shutdown d.core.session r.seq) else none
  | .stop => if d.owner then some (.stop d.core.session r.seq) else none
  | .report => none

/-- One frame of the connection: the reply to it and the steps of the core. -/
def serve (d : Daemon) (s : Serve) (r : Request) : Daemon × Reply × List Note :=
  if !r.parses then
    if d.owner ∧ d.core.state = .active then
      let (d, _, notes) := d.apply (some r.op) .protocolFault ⟨s.now, s.env⟩
      (d, protocolReply d.core, notes)
    else (d, protocolReply d.core, [])
  else
    let (d, _, ticked) := d.apply none .tick ⟨s.now, s.tickEnv⟩
    match d.coreOp r s.generation with
    | none =>
      let ok := decide (r.op = .report) && d.owner && r.session == d.core.session
      (d, reply d.core ok, ticked)
    | some op =>
      let (d, ok, notes) := d.apply (some r.op) op ⟨s.now, s.env⟩
      ({ d with owner := d.owner || (decide (r.op = .arm) && ok) }, reply d.core ok,
        ticked ++ notes)

/-- The connection ended. -/
def drop (d : Daemon) (i : Instant) : Daemon × List Note :=
  if d.owner then
    let (d, _, notes) := d.apply none .disconnected i
    ({ d with owner := false }, notes)
  else (d, [])

/-- A turn of the event loop without a request. -/
def tick (d : Daemon) (i : Instant) : Daemon × List Note :=
  let (d, _, notes) := d.apply none .tick i
  (d, notes)

/-- Turns of the event loop without a request. -/
def ticks (d : Daemon) : List Instant → Daemon × List Note
  | [] => (d, [])
  | i :: is =>
    let (d, notes) := d.tick i
    let (d, rest) := ticks d is
    (d, notes ++ rest)

end Daemon

end Questix.PwmGuard
