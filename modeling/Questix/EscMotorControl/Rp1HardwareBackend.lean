/-
Questix.EscMotorControl.Rp1HardwareBackend — the ESC's backend on the guard:
`rp1_hardware_backend.hpp` and the requests of `client.hpp`, composed with the
guard's daemon over one connection.

What the channel does with each request is put up front, in order
(`Channel`). A request is answered; or it took effect and its reply was lost;
or it was lost itself. A failed request ends the connection, and the daemon
notices. A channel that has run out loses every request. Between any two
requests the daemon's loop may turn any number of times.

Every step of the core is let out with the backend's terminal flag at the time
(`Traced`).
-/
import Questix.Lib.Act
import Questix.PwmGuard.Daemon

namespace Questix.EscMotorControl

open Questix.Lib Questix.PwmGuard

/-! ## The channel -/

/-- What becomes of a request. `timedOut`: the client gives up waiting, rather
than finding the connection closed. -/
inductive Delivery where
  | answered
  | unanswered (timedOut : Bool)
  | lost (timedOut : Bool)
  deriving DecidableEq

/-- One request: the turns of the daemon's loop before it, its delivery, and
the end of the connection if it fails. -/
structure Exchange where
  ticks : List Instant := []
  delivery : Delivery
  serve : Serve
  drop : Instant

def neverFails : Env := fun _ _ => none

/-- What the channel does during one call of the backend. `polls` is how many
times the drain is asked about before its time is up. -/
structure Channel where
  connects : List Bool := []
  exchanges : List Exchange := []
  drops : List Instant := []
  polls : ℕ := 0

/-- A request nobody answers. -/
def Exchange.silence : Exchange where
  delivery := .lost true
  serve := ⟨0, neverFails, neverFails, 0⟩
  drop := ⟨0, neverFails⟩

/-! ## The backend -/

structure Rp1HardwareBackend where
  session : UInt64 := 0
  seq : UInt64 := 0
  error : Int := 0
  applied : Int := -1
  state : String := "UNKNOWN"
  ready : Bool := false
  terminal : Bool := false
  deriving DecidableEq

/-- The backend, whether its client has a connection, and the daemon. -/
structure Rp1 where
  backend : Rp1HardwareBackend := {}
  connected : Bool := false
  daemon : Daemon
  channel : Channel := {}

/-- A step of the core, with the backend's terminal flag at the time. -/
structure Traced where
  terminal : Bool
  note : Note

abbrev Esc := Act Rp1 Traced

namespace Rp1HardwareBackend

def ENODEV : Int := 19
def ETIMEDOUT : Int := 110
def ESTALE : Int := 116

/-- Let the daemon do something. -/
def withDaemon {α : Type} (f : Daemon → Daemon × α × List Note) : Esc α := fun s =>
  ((f s.daemon).2.1, { s with daemon := (f s.daemon).1 },
    (f s.daemon).2.2.map (Traced.mk s.backend.terminal))

def modifyBackend (f : Rp1HardwareBackend → Rp1HardwareBackend) : Esc Unit :=
  modify fun s => { s with backend := f s.backend }

def nextConnect : Esc Bool := do
  let c := (← get).channel
  modify fun s => { s with channel := { c with connects := c.connects.tail } }
  return c.connects.headD false

def nextExchange : Esc Exchange := do
  let c := (← get).channel
  modify fun s => { s with channel := { c with exchanges := c.exchanges.tail } }
  return c.exchanges.headD .silence

def nextDrop : Esc Instant := do
  let c := (← get).channel
  modify fun s => { s with channel := { c with drops := c.drops.tail } }
  return c.drops.headD Exchange.silence.drop

/-! ## The client -/

/-- The connection ends at both ends. -/
def closeAt (i : Instant) : Esc Unit := do
  if (← get).connected then
    modify fun s => { s with connected := false }
    withDaemon fun d => ((d.drop i).1, (), (d.drop i).2)

def close : Esc Unit := do
  let i ← nextDrop
  closeAt i

def connect : Esc Bool := do
  close
  let ok ← nextConnect
  modify fun s => { s with connected := ok }
  return ok

/-- The reply of a request that got none. -/
def noReply (timedOut : Bool) : Reply where
  ok := false
  state := "FAULT_UNKNOWN"
  applied := -1
  error := if timedOut then -ETIMEDOUT else -Errno.EIO
  session := 0

/-- `Client::call_until`. -/
def call (op : RequestOp) (session seq : UInt64) (pulse : Int) : Esc Reply := do
  if !(← get).connected then return noReply false
  let x ← nextExchange
  withDaemon fun d => ((d.ticks x.ticks).1, (), (d.ticks x.ticks).2)
  match x.delivery with
  | .lost timedOut =>
    closeAt x.drop
    return noReply timedOut
  | .unanswered timedOut =>
    let _ ← withDaemon fun d => d.serve x.serve ⟨op, session, seq, pulse⟩
    closeAt x.drop
    return noReply timedOut
  | .answered =>
    let r ← withDaemon fun d => d.serve x.serve ⟨op, session, seq, pulse⟩
    if Client.consistent r then return r
    else
      closeAt x.drop
      return noReply false

/-! ## The member functions -/

def fail (code : Int) : Esc Bool := do
  modifyBackend fun b => { b with error := -code }
  return false

/-- What a reply says is taken over; one that is no success, or of another
session, makes the backend terminal. -/
def accept (r : Reply) : Esc Bool := do
  let b := (← get).backend
  if b.ready && r.ok && r.session != b.session then
    close
    modifyBackend fun b => { b with terminal := true, state := "UNKNOWN", applied := -1 }
    fail ESTALE
  else if !r.ok || r.state == "FAULT_LOW" || r.state == "FAULT_UNKNOWN" then
    modifyBackend fun b =>
      { b with
        state := r.state, applied := r.applied, terminal := true
        error := if r.error = 0 then -Errno.EIO else r.error }
    return false
  else
    modifyBackend fun b => { b with state := r.state, applied := r.applied, error := r.error }
    return true

/-- A request of the session, with the next sequence number. -/
def request (op : RequestOp) (pulse : Int) : Esc Reply := do
  modifyBackend fun b => { b with seq := b.seq + 1 }
  let b := (← get).backend
  call op b.session b.seq pulse

def stopSignal (pin : Int) : Esc Bool := do
  modifyBackend fun b => { b with terminal := true }
  let b := (← get).backend
  if pin ≠ 13 ∨ b.ready = false then fail ENODEV
  else
    let r ← request .stop 0
    accept r

def cleanup : Esc Unit := do
  let b := (← get).backend
  if b.ready && !b.terminal then
    let _ ← stopSignal 13
  close
  modifyBackend fun b => { b with ready := false, terminal := true }

def initializePin (pin : Int) : Esc Bool := do
  if pin ≠ 13 then fail ENODEV
  else
    let connected ← connect
    if !connected then fail ENODEV
    else
      let r ← call .arm 0 0 0
      let ok ← accept r
      if !ok || r.state != "ARMING" || r.applied != 1000 || r.session == 0 then
        cleanup
        return false
      else
        modifyBackend fun b => { b with session := r.session, ready := true }
        return true

def completeArm : Esc Bool := do
  let b := (← get).backend
  if !b.ready || b.terminal then fail Errno.EPERM
  else
    let r ← request .complete 0
    let ok ← accept r
    return ok && r.state == "ACTIVE"

def setServoPulse (pin us : Int) : Esc Bool := do
  let b := (← get).backend
  if pin ≠ 13 ∨ b.ready = false ∨ (b.terminal = true ∧ us ≠ 0) then fail Errno.EPERM
  else if us ≠ 0 ∧ (us < 500 ∨ 2000 < us) then fail Errno.EINVAL
  else
    let r ← request .command us
    let ok ← accept r
    if us = 0 then modifyBackend fun b => { b with terminal := true }
    return ok

/-- The drain is asked about until it is over or its time is up. -/
def awaitDrained : ℕ → Esc Bool
  | 0 => fail ETIMEDOUT
  | polls + 1 => do
    let r ← call .report (← get).backend.session 0 0
    let ok ← accept r
    if !ok then return false
    else if r.session ≠ (← get).backend.session then fail ESTALE
    else if r.state == "TERMINAL_LOW" && r.applied == 0 then return true
    else if r.state != "DRAINING" then fail Errno.EIO
    else awaitDrained polls

def gracefulShutdown : Esc Bool := do
  let b := (← get).backend
  if !b.ready then return false
  else if b.terminal then
    let r ← request .stop 0
    let _ ← accept r  -- the fault diagnostic is kept even when the Low request succeeded
    return r.ok && r.applied == 0 && (r.state == "FAULT_LOW" || r.state == "TERMINAL_LOW")
  else
    modifyBackend fun b => { b with terminal := true }
    let r ← request .shutdown 0
    let ok ← accept r
    if !ok then return false
    else awaitDrained (← get).channel.polls

end Rp1HardwareBackend

/-! ## Runs -/

inductive Rp1Call where
  | initializePin (pin : Int)
  | completeArm
  | setServoPulse (pin us : Int)
  | stopSignal (pin : Int)
  | gracefulShutdown
  | cleanup
  deriving DecidableEq

/-- A call of the backend with what the channel does in it; or the daemon on
its own: a turn of its loop, the administrator's Low, a connection lost. -/
inductive Rp1Event where
  | call (call : Rp1Call) (channel : Channel)
  | tick (i : Instant)
  | emergencyLow (i : Instant)
  | hangup (i : Instant)

namespace Rp1

open Rp1HardwareBackend

def runCall : Rp1Call → Esc Unit
  | .initializePin pin => do let _ ← Rp1HardwareBackend.initializePin pin
  | .completeArm => do let _ ← completeArm
  | .setServoPulse pin us => do let _ ← setServoPulse pin us
  | .stopSignal pin => do let _ ← stopSignal pin
  | .gracefulShutdown => do let _ ← gracefulShutdown
  | .cleanup => cleanup

def run : Rp1Event → Esc Unit
  | .call c channel => do
    modify fun s => { s with channel := channel }
    runCall c
  | .tick i => withDaemon fun d => ((d.tick i).1, (), (d.tick i).2)
  | .emergencyLow i => withDaemon fun d =>
      ((d.apply none .emergencyLow i).1, (), (d.apply none .emergencyLow i).2.2)
  | .hangup i => withDaemon fun d => ((d.drop i).1, (), (d.drop i).2)

/-- A fresh backend, and the daemon with its core started. -/
def start (config : Config) (env : Env) : Rp1 :=
  { daemon := { core := (Core.start config env).1.core } }

abbrev step : Rp1 → Rp1Event → Rp1 × List Traced := Act.machine run

end Rp1

end Questix.EscMotorControl
