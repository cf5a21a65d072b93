/-
Questix.PwmGuard.Core — the state machine behind the ESC's pulse:
`questix_pwm_guard::Core` of `core.hpp`.

The output is not part of the state: every call to it (`check`,
`write_pulse`, `emergency_low`) is put to an environment `Env`, which answers
with success or with the negative errno the output then reports, and is
appended to the log of the operation. The environment sees the log, so it may
answer two equal calls of one operation differently; each operation comes
with its own. That the error of a failed call is a negative `int` is the
contract `SysfsOutput` keeps: on every path on which it returns false it has
set `error_` to minus an errno.

Times are injected monotonic milliseconds, as in the source. An operation is
its opening `tick`, then the rest; the rest is a definition of its own.
-/
import Mathlib.Algebra.Group.Int.Defs
import Mathlib.Algebra.Group.Nat.Defs
import Questix.Lib.Trace
import Mathlib.Data.Int.Order.Basic

namespace Questix.PwmGuard

open Questix.Lib

/-! ## Data -/

inductive State where
  | lowIdle
  | arming
  | active
  | draining
  | terminalLow
  | faultLow
  | faultUnknown
  deriving DecidableEq, Repr

def stateName : State → String
  | .lowIdle => "LOW_IDLE"
  | .arming => "ARMING"
  | .active => "ACTIVE"
  | .draining => "DRAINING"
  | .terminalLow => "TERMINAL_LOW"
  | .faultLow => "FAULT_LOW"
  | .faultUnknown => "FAULT_UNKNOWN"

/-- The fields of `Config`, before `validate`. -/
structure RawConfig where
  neutralUs : Int := 1000
  maxUs : Int := 2000
  leaseMs : Int := 500
  armMs : Int := 3000
  drainMs : Int := 500
  deriving DecidableEq, Repr

/-- `Config::validate`, true when it does not throw. -/
def RawConfig.validate (c : RawConfig) : Bool :=
  !(c.neutralUs != 1000 || decide (c.maxUs < c.neutralUs) || decide (2500 < c.maxUs) ||
    decide (c.leaseMs < 100) || decide (1000 < c.leaseMs) || decide (c.armMs < 2000) ||
    decide (5000 < c.armMs) || decide (c.drainMs < 0) || decide (500 < c.drainMs))

/-- A configuration the constructor of `Core` accepted. -/
structure Config extends RawConfig where
  isValid : toRawConfig.validate = true

def Config.default : Config := { toRawConfig := {}, isValid := rfl }

/-- A call to the output. -/
inductive Call where
  | check
  | writePulse (us : Int)
  | emergencyLow
  deriving DecidableEq, Repr

abbrev Errno := { e : Int // -2 ^ 31 ≤ e ∧ e < 0 }

/-- A call made, the session the core was in, and its outcome: `none` for
success, or the error. -/
structure Entry where
  call : Call
  session : UInt64
  outcome : Option Errno
  deriving DecidableEq

/-- The output during one operation: it answers a call in the light of the
calls before it. -/
abbrev Env := List Entry → Call → Option Errno

namespace Errno

def EPERM : Int := 1
def EIO : Int := 5
def EINVAL : Int := 22
def EPROTO : Int := 71
def ECONNRESET : Int := 104
def ETIMEDOUT : Int := 110

end Errno

open Errno

structure Core where
  config : Config
  state : State := .lowIdle
  applied : Int := -1
  error : Int := 0
  faultError : Int := 0
  session : UInt64 := 0
  seq : UInt64 := 0
  deadline : Int := 0

/-- The core in the middle of an operation, with the calls made so far. -/
structure Guard where
  core : Core
  log : List Entry := []

namespace Guard

variable (env : Env)

def call (c : Call) (g : Guard) : Guard × Option Errno :=
  let outcome := env g.log c
  ({ g with log := g.log ++ [⟨c, g.core.session, outcome⟩] }, outcome)

/-! ## The private member functions -/

def valid (session seq : UInt64) (g : Guard) : Bool :=
  session != 0 && session == g.core.session && decide (g.core.seq < seq)

def reject (code : Int) (g : Guard) : Guard × Bool :=
  ({ g with core := { g.core with error := -code } }, false)

/-- `if (!fault_error_) fault_error_ = error` -/
def recordFault (error : Int) (s : Core) : Core :=
  { s with
    error := error, faultError := if s.faultError = 0 then error else s.faultError }

/-- Always issues a Low write, including recovery from an unknown output
state. -/
def low (terminal : Bool) (g : Guard) : Guard × Bool :=
  match g.call env .emergencyLow with
  | (g, none) =>
      let state := if terminal then State.terminalLow else State.lowIdle
      ({ g with core := { g.core with applied := 0, state := state, error := 0 } }, true)
  | (g, some e) =>
      let core := recordFault e.1 { g.core with applied := -1, state := .faultUnknown }
      ({ g with core := core }, false)

def fault (code : Int) (g : Guard) : Guard :=
  let error := if code < 0 then code else -code
  let g := { g with core := recordFault error g.core }
  match g.call env .emergencyLow with
  | (g, none) => { g with core := { g.core with applied := 0, state := .faultLow } }
  | (g, some _) => { g with core := { g.core with applied := -1, state := .faultUnknown } }

def failCommand (code : Int) (g : Guard) : Guard × Bool := (g.fault env code, false)

def write (us : Int) (g : Guard) : Guard × Bool :=
  if g.core.applied = us then
    match g.call env .check with
    | (g, some e) => (g.fault env e.1, false)
    | (g, none) => ({ g with core := { g.core with error := 0 } }, true)
  else
    match g.call env (.writePulse us) with
    | (g, none) => ({ g with core := { g.core with applied := us, error := 0 } }, true)
    | (g, some e) => (g.fault env e.1, false)

/-! ## The operations -/

/-- What `tick` does once the output checked out: the deadlines. -/
def expire (now : Int) (g : Guard) : Guard :=
  if (g.core.state = .arming ∨ g.core.state = .active) ∧ g.core.deadline ≤ now then
    g.fault env ETIMEDOUT
  else if g.core.state = .draining ∧ g.core.deadline ≤ now then
    (g.low env true).1
  else g

def tick (now : Int) (g : Guard) : Guard :=
  if g.core.state = .faultUnknown then
    g.fault env (if g.core.faultError ≠ 0 then g.core.faultError else Errno.EIO)
  else
    match g.call env .check with
    | (g, some e) => g.fault env e.1
    | (g, none) => g.expire env now

/-- The Low states an arm may start from. -/
def mayArm (g : Guard) (generation : UInt64) : Bool :=
  (g.core.state == .lowIdle || g.core.state == .terminalLow || g.core.state == .faultLow) &&
    generation != 0 && generation != g.core.session

/-- `arm` after its Low write: the new session, and the neutral write. -/
def enterSession (generation : UInt64) (now : Int) (g : Guard) : Guard × Bool :=
  let g := { g with core := { g.core with faultError := 0, session := generation, seq := 0 } }
  match g.write env g.core.config.neutralUs with
  | (g, false) => (g, false)
  | (g, true) =>
      let deadline := now + g.core.config.armMs
      ({ g with core := { g.core with state := .arming, deadline := deadline } }, true)

def armTicked (generation : UInt64) (now : Int) (g : Guard) : Guard × Bool :=
  if !g.mayArm generation then g.reject EPERM
  else
    match g.low env false with
    | (g, false) => (g, false)
    | (g, true) => g.enterSession env generation now

/-- What `complete` and `command` answer to an invalid session or sequence
number: a fault while active, a refusal otherwise. -/
def invalid (g : Guard) : Guard × Bool :=
  if g.core.state = .active then g.failCommand env EPROTO else g.reject EPERM

def completeTicked (session seq : UInt64) (now : Int) (g : Guard) : Guard × Bool :=
  if !g.valid session seq then g.invalid env
  else if g.core.state ≠ .arming then g.reject EPERM
  else
    let deadline := now + g.core.config.leaseMs
    ({ g with core := { g.core with seq := seq, state := .active, deadline := deadline } }, true)

/-- `command` once it is accepted: its pulse goes out, and renews the lease. -/
def applyCommand (seq : UInt64) (us : Int) (now : Int) (g : Guard) : Guard × Bool :=
  let g := { g with core := { g.core with seq := seq } }
  if us = 0 then g.low env true
  else
    match g.write env us with
    | (g, false) => (g, false)
    | (g, true) =>
        if g.core.state = .active then
          let deadline := now + g.core.config.leaseMs
          ({ g with core := { g.core with deadline := deadline } }, true)
        else (g, true)

def commandTicked (session seq : UInt64) (us : Int) (now : Int) (g : Guard) : Guard × Bool :=
  if !g.valid session seq then g.invalid env
  else if g.core.state ≠ .active ∧ g.core.state ≠ .arming then g.reject EPERM
  else if us ≠ 0 ∧ (us < 500 ∨ g.core.config.maxUs < us) then g.failCommand env EINVAL
  else if g.core.state = .arming ∧ us ≠ g.core.config.neutralUs then g.reject EPERM
  else g.applyCommand env seq us now

def shutdownTicked (session seq : UInt64) (now : Int) (g : Guard) : Guard × Bool :=
  if session ≠ g.core.session ∨ session = 0 then g.reject EPERM
  else if g.core.state = .draining ∨ g.core.state = .terminalLow then (g, true)
  else if g.core.state ≠ .active ∧ g.core.state ≠ .arming then g.reject EPERM
  else
    let g := { g with core := { g.core with seq := seq } }
    match g.write env g.core.config.neutralUs with
    | (g, false) => (g, false)
    | (g, true) =>
        let deadline := now + g.core.config.drainMs
        ({ g with core := { g.core with state := .draining, deadline := deadline } }, true)

/-- `emergency_low`: a latched fault survives a successful Low write. -/
def emergencyLow (g : Guard) : Guard × Bool :=
  let latched := g.core.faultError ≠ 0
  let (g, ok) := g.low env true
  if ok = true ∧ latched then ({ g with core := { g.core with state := .faultLow } }, ok)
  else (g, ok)

def stopTicked (session seq : UInt64) (g : Guard) : Guard × Bool :=
  if session = 0 ∨ session ≠ g.core.session then g.reject EPERM
  else { g with core := { g.core with seq := seq } }.emergencyLow env

/-- An accepted normal shutdown keeps its fixed deadline. -/
def disconnectedTicked (g : Guard) : Guard :=
  if g.core.state = .draining then g
  else if g.core.state = .arming ∨ g.core.state = .active then g.fault env ECONNRESET
  else g

def protocolFault (g : Guard) : Guard := g.fault env EPROTO

end Guard

/-- `Core::start`, on a fresh core. -/
def Core.start (config : Config) (env : Env) : Guard × Bool :=
  Guard.low env false { core := { config := config } }

/-! ## Runs -/

inductive Op where
  | arm (generation : UInt64)
  | complete (session seq : UInt64)
  | command (session seq : UInt64) (us : Int)
  | shutdown (session seq : UInt64)
  | stop (session seq : UInt64)
  | disconnected
  | tick
  | emergencyLow
  | protocolFault
  deriving DecidableEq, Repr

/-- An operation, the time it is called at and the output during it. -/
structure Event where
  op : Op
  now : Int
  env : Env

/-- What an operation returned (true where it returns nothing) and the calls
it made. -/
structure Result where
  ok : Bool
  log : List Entry

/-- The operations that take the time, all of which open with a `tick`. -/
def Op.timed : Op → Bool
  | .emergencyLow => false
  | .protocolFault => false
  | _ => true

/-- The opening `tick` of an operation that takes the time. -/
def Event.opening (e : Event) (s : Core) : Guard :=
  if e.op.timed then Guard.tick e.env e.now { core := s } else { core := s }

/-- An operation after its opening `tick`. -/
def Event.rest (e : Event) (g : Guard) : Guard × Bool :=
  match e.op with
  | .arm generation => g.armTicked e.env generation e.now
  | .complete session seq => g.completeTicked e.env session seq e.now
  | .command session seq us => g.commandTicked e.env session seq us e.now
  | .shutdown session seq => g.shutdownTicked e.env session seq e.now
  | .stop session seq => g.stopTicked e.env session seq
  | .disconnected => (g.disconnectedTicked e.env, true)
  | .tick => (g, true)
  | .emergencyLow => g.emergencyLow e.env
  | .protocolFault => (g.protocolFault e.env, true)

def step (s : Core) (e : Event) : Core × Result :=
  let (g, ok) := e.rest (e.opening s)
  (g.core, { ok := ok, log := g.log })

end Questix.PwmGuard
