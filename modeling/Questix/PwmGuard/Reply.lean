/-
Questix.PwmGuard.Reply — the reply the daemon builds from the core
(`daemon.cpp`) and the client's check of it (`call_until` of `client.hpp`).

A frame is one line of decimal fields; here it is the list of its fields, the
way the client's stream extraction reads it back. A field that does not parse
ends the connection, like a reply that contradicts itself.
-/
import Questix.PwmGuard.Core

namespace Questix.PwmGuard

open Errno

/-! ## The reply -/

/-- `Reply`: what the daemon sends back and the client reads. -/
structure Reply where
  ok : Bool
  state : String
  applied : Int
  error : Int
  session : UInt64
  deriving DecidableEq

/-- The daemon's reply to a request it parsed, `ok` being what the core or the
dispatch returned. A successful request does not clear the latched fault. -/
def reply (s : Core) (ok : Bool) : Reply where
  ok := ok
  state := stateName s.state
  applied := s.applied
  error :=
    if s.faultError ≠ 0 then s.faultError
    else if ok then 0
    else if s.error ≠ 0 then s.error else -EPERM
  session := s.session

def protocolReply (s : Core) : Reply :=
  { reply s false with error := -EPROTO }

/-- The reply's frame, field by field; a space separates them. -/
def Reply.frame (r : Reply) : List String :=
  ["1", if r.ok then "1" else "0", r.state, toString r.applied, toString r.session.toNat,
    toString r.error]

namespace Client

/-- `in >> value` for an `int` -/
def readInt (s : String) : Option Int :=
  s.toInt?.filter fun i => decide (-2 ^ 31 ≤ i) && decide (i < 2 ^ 31)

/-- `in >> value` for a `uint64_t` -/
def readUInt64 (s : String) : Option UInt64 :=
  (s.toNat?.filter fun n => decide (n < 2 ^ 64)).map UInt64.ofNat

/-- The client's check of the fields: a state name and the pulse it stands for,
and an error that is none or negative. -/
def consistent (r : Reply) : Bool :=
  let low := r.state == "LOW_IDLE" || r.state == "TERMINAL_LOW" || r.state == "FAULT_LOW"
  let neutral := r.state == "ARMING" || r.state == "DRAINING"
  decide (r.error ≤ 0) && ((low && r.applied == 0) || (neutral && r.applied == 1000) ||
    (r.state == "ACTIVE" && decide (500 ≤ r.applied) && decide (r.applied ≤ 2500)) ||
    (r.state == "FAULT_UNKNOWN" && r.applied == -1))

/-- `call_until` on the frame it received: `none` where it closes the
connection and answers with the default reply. -/
def validate : List String → Option Reply
  | [version, ok, state, applied, session, error] => do
      let version ← readInt version
      let ok ← readInt ok
      let applied ← readInt applied
      let session ← readUInt64 session
      let error ← readInt error
      if version ≠ 1 ∨ (ok ≠ 0 ∧ ok ≠ 1) then none
      else
        let r := { ok := ok == 1, state, applied, error, session }
        if consistent r then some r else none
  | _ => none

end Client

end Questix.PwmGuard
