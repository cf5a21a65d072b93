/-
Questix.Safety.Checks — the two checks every actuating node makes before it
moves: the emergency stop (`estop_check.hpp`, with the receive state of
`emergency_stop_monitor.hpp`) and the motion permission
(`permission_check.hpp`, `permission_monitor.hpp`).

The rules are functions of ages, as in the source; the monitors hold what was
last received and when, on the node's steady clock, and compute the ages. Of
a received message the rules read one flag. The texts the monitors keep for
display (source, reason, mode, blockers) and the ROS subscription are left
out.
-/
import Questix.Lib.Dbl

namespace Questix.Safety

open Questix.Lib

/-! ## The emergency stop -/

inductive EstopState where
  | kReleased
  | kUnknown
  | kPressed
  | kStale
  deriving DecidableEq, Repr

structure EstopInputs where
  required : Bool := true
  known : Bool := false
  active : Bool := true
  ageSec : Dbl := 0
  timeoutSec : Dbl := 1

def kDefaultEstopTimeoutSec : Dbl := 1

/-- Silent for longer than the timeout. A timeout that is no positive finite
duration disables the check; an age that is `nan` is never fresh. -/
def isStale (ageSec timeoutSec : Dbl) : Bool :=
  timeoutSec.isfinite && decide (0 < timeoutSec) && !decide (ageSec ≤ timeoutSec)

def normalizeEstopTimeout (timeoutSec : Dbl) : Dbl :=
  if timeoutSec.isfinite then timeoutSec else kDefaultEstopTimeoutSec

def evaluateEstop (i : EstopInputs) : EstopState :=
  if !i.known then
    if i.required then .kUnknown else .kReleased
  else if i.active then .kPressed  -- a received pressed E-stop always stops
  else if i.required && isStale i.ageSec i.timeoutSec then .kStale
  else .kReleased

/-- `EmergencyStopMonitor::Settings`, without the topic. -/
structure EstopSettings where
  required : Bool := true
  timeoutSec : Dbl := kDefaultEstopTimeoutSec

/-- `EmergencyStopMonitor`: the last message received. -/
structure EmergencyStopMonitor where
  settings : EstopSettings := {}
  known : Bool := false
  active : Bool := true
  lastRx : ℚ := 0

/-- `EmergencyStopMonitor::Change`: first message ever, and the flag before
it. -/
structure EstopChange where
  first : Bool
  wasActive : Bool

namespace EmergencyStopMonitor

/-- The constructor's part of the settings: a timeout that is not finite falls
back to the default. -/
def create (settings : EstopSettings) : EmergencyStopMonitor where
  settings := { settings with timeoutSec := normalizeEstopTimeout settings.timeoutSec }

def receive (m : EmergencyStopMonitor) (active : Bool) (steadyNow : ℚ) :
    EmergencyStopMonitor × EstopChange :=
  ({ m with known := true, active := active, lastRx := steadyNow },
    { first := !m.known, wasActive := m.active })

def inputs (m : EmergencyStopMonitor) (steadyNow : ℚ) : EstopInputs where
  required := m.settings.required
  known := m.known
  active := m.active
  ageSec := if m.known then .fin (steadyNow - m.lastRx) else 0
  timeoutSec := m.settings.timeoutSec

end EmergencyStopMonitor

/-! ## The motion permission -/

inductive PermissionState where
  | kAllowed
  | kUnknown
  | kStale
  | kOff
  deriving DecidableEq, Repr

structure PermissionInputs where
  required : Bool := true
  known : Bool := false
  allowed : Bool := false
  ageSec : Dbl := 0
  timeoutSec : Dbl := .fin (1 / 2)

def kDefaultPermissionTimeoutSec : Dbl := .fin (1 / 2)

/-- A permission always expires: what is no positive finite lease is the
default one. -/
def permissionLease (timeoutSec : Dbl) : Dbl :=
  if timeoutSec.isfinite && decide (0 < timeoutSec) then timeoutSec
  else kDefaultPermissionTimeoutSec

def evaluatePermission (i : PermissionInputs) : PermissionState :=
  if !i.required then .kAllowed
  else if !i.known then .kUnknown
  else if !decide (i.ageSec ≤ permissionLease i.timeoutSec) then .kStale
  else if !i.allowed then .kOff
  else .kAllowed

/-- `PermissionMonitor::Settings`, without the topic. -/
structure PermissionSettings where
  required : Bool := true
  timeoutSec : Dbl := kDefaultPermissionTimeoutSec

/-- `PermissionMonitor`: the last message received, as the one flag the node
obeys (`drive_allowed` or `launcher_allowed`). -/
structure PermissionMonitor where
  settings : PermissionSettings := {}
  known : Bool := false
  allowed : Bool := false
  lastRx : ℚ := 0

/-- `PermissionMonitor::Change`: first message ever, and the flag before it. -/
structure PermissionChange where
  first : Bool
  wasAllowed : Bool

namespace PermissionMonitor

/-- The constructor's part of the settings: the lease is always positive. -/
def create (settings : PermissionSettings) : PermissionMonitor where
  settings := { settings with timeoutSec := permissionLease settings.timeoutSec }

def receive (m : PermissionMonitor) (allowed : Bool) (steadyNow : ℚ) :
    PermissionMonitor × PermissionChange :=
  ({ m with known := true, allowed := allowed, lastRx := steadyNow },
    { first := !m.known, wasAllowed := m.allowed })

def inputs (m : PermissionMonitor) (steadyNow : ℚ) : PermissionInputs where
  required := m.settings.required
  known := m.known
  allowed := m.allowed
  ageSec := if m.known then .fin (steadyNow - m.lastRx) else 0
  timeoutSec := m.settings.timeoutSec

end PermissionMonitor

end Questix.Safety
