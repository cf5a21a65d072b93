/-
Questix.WebJoyDriver.WsServer — one operator at a time: the ownership of
`ws_server.py`, together with the hold that `on_frame` and `on_release` of the
driver's node reach.

A connection is identified by the number its `_Client` gets. The handlers run
on one event loop and wait for nothing while they change the state. Snapshots
also come from the publisher's thread; JoyHold takes its lock, and a handler
calls it at most once, so a snapshot falls before or after that call and a
handler is one event.

Labels, addresses, and what is sent to the pages are left out. The retired
connection of a page that came back ends by a disconnect of its own.
-/
import Questix.WebJoyDriver.JoyFrame
import Questix.Lib.Trace

namespace Questix.WebJoyDriver

open Questix.Lib

/-- `_Client`, without what is only shown. -/
structure Client where
  pageId : Option String
  requestedAt : Option ℚ := none

structure WebJoy where
  hold : JoyHold
  token : String := ""
  clients : List (ℕ × Client) := []
  nextId : ℕ := 1
  owner : Option ℕ := none
  rejectedFrames : ℕ := 0

/-- The result of a frame given to the hold, or of a snapshot. -/
inductive Out where
  | quiet
  | frame (result : Except FrameError AcceptResult)
  | shown (snapshot : JoySnapshot)

/-- A connection with the first value of each key of its query; a message,
`none` for a binary one and for invalid JSON; the end of a connection; a
snapshot for the publisher or for a status. -/
inductive WebEvent where
  | connect (query : List (String × String))
  | message (ws : ℕ) (payload : Option Value) (now : ℚ)
  | disconnect (ws : ℕ)
  | snapshot (now : ℚ)

def REQUEST_INTERVAL_SEC : ℚ := 5
def REQUEST_VALID_SEC : ℚ := 60

/-- `_CID_RE`; its `$` lets a newline at the end pass. -/
def isPageId (s : String) : Bool :=
  let body := match s.toList.reverse with
    | '\n' :: rest => rest
    | chars => chars
  decide (1 ≤ body.length) && decide (body.length ≤ 64) &&
    body.all fun c => c.isAlphanum || c == '_' || c == '-'

namespace WebJoy

def live (s : WebJoy) (ws : ℕ) : Bool := (s.clients.lookup ws).isSome

def rejectFrame (s : WebJoy) : WebJoy := { s with rejectedFrames := s.rejectedFrames + 1 }

def setOwner (s : WebJoy) (ws : Option ℕ) : WebJoy :=
  { s with owner := ws, hold := s.hold.release "owner_change" }

/-- The page came back: it holds the role on a connection it no longer uses. -/
def samePage (client holder : Client) : Bool :=
  client.pageId.isSome && holder.pageId == client.pageId

def claim (s : WebJoy) (ws : ℕ) : WebJoy × Bool :=
  match s.clients.lookup ws with
  | none => (s, false)
  | some client =>
    match s.owner with
    | none => (s.setOwner (some ws), true)
    | some owner =>
      if owner = ws then (s, true)
      else
        match s.clients.lookup owner with
        | none => (s, false)
        | some holder =>
          if samePage client holder then (s.setOwner (some ws), true) else (s, false)

/-- The handler up to its message loop. -/
def connect (s : WebJoy) (query : List (String × String)) : WebJoy :=
  if s.token ≠ "" ∧ (query.lookup "token").getD "" ≠ s.token then s
  else
    let ws := s.nextId
    let pageId := (query.lookup "cid").getD ""
    let client : Client := { pageId := if isPageId pageId then some pageId else none }
    let s := { s with clients := s.clients ++ [(ws, client)], nextId := ws + 1 }
    if (query.lookup "claim").getD "1" ≠ "0" then (s.claim ws).1 else s

/-- The handler's `finally`. -/
def disconnect (s : WebJoy) (ws : ℕ) : WebJoy :=
  let s := { s with clients := s.clients.filter fun c => c.1 != ws }
  if s.owner = some ws then s.setOwner none else s

/-- The connection a hand-over is for: it asked recently. -/
def handoverTarget (s : WebJoy) (to_ : Option Value) (now : ℚ) : Option ℕ :=
  match to_ with
  | some (.int id) =>
    (s.clients.find? fun c => decide ((c.1 : ℤ) = id) &&
      c.2.requestedAt.any fun requestedAt => decide (now - requestedAt ≤ REQUEST_VALID_SEC)).map
        Prod.fst
  | _ => none

def setRequestedAt (s : WebJoy) (ws : ℕ) (requestedAt : Option ℚ) : WebJoy :=
  { s with
    clients := s.clients.map fun c =>
      if c.1 = ws then (c.1, { c.2 with requestedAt := requestedAt }) else c }

def release (s : WebJoy) (to_ : Option Value) (now : ℚ) : WebJoy :=
  match s.handoverTarget to_ now with
  | some target => (s.setRequestedAt target none).setOwner (some target)
  | none => s.setOwner none

def requestHandover (s : WebJoy) (ws : ℕ) (client : Client) (now : ℚ) : WebJoy :=
  if s.owner = none then (s.claim ws).1
  else if s.owner = some ws then s
  else if client.requestedAt.any fun requestedAt =>
      decide (now - requestedAt < REQUEST_INTERVAL_SEC) then s
  else s.setRequestedAt ws (some now)

def onFrame (s : WebJoy) (payload : Value) (now : ℚ) : WebJoy × Out :=
  let (hold, result) := s.hold.accept payload now
  let s := { s with hold := hold }
  match result with
  | .ok r => (s, .frame (.ok r))
  | .error e => (s.rejectFrame, .frame (.error e))

def dispatch (s : WebJoy) (ws : ℕ) (client : Client) (payload : Value) (now : ℚ) : WebJoy × Out :=
  if payload.hasType "joy" then
    if s.owner = some ws then s.onFrame payload now else (s, .quiet)
  else if payload.hasType "stop" then ({ s with hold := s.hold.release "stop" }, .quiet)
  else if payload.hasType "claim" then ((s.claim ws).1, .quiet)
  else if payload.hasType "release" then
    (if s.owner = some ws then s.release (payload.get "to") now else s, .quiet)
  else if payload.hasType "request" then (s.requestHandover ws client now, .quiet)
  else (s.rejectFrame, .quiet)

/-- The body of the handler's loop, for a connection that is there. -/
def message (s : WebJoy) (ws : ℕ) (payload : Option Value) (now : ℚ) : WebJoy × Out :=
  match s.clients.lookup ws with
  | none => (s, .quiet)
  | some client =>
    match payload with
    | some (.dict fields) => s.dispatch ws client (.dict fields) now
    | _ => (s.rejectFrame, .quiet)

def step (s : WebJoy) : WebEvent → WebJoy × Out
  | .connect query => (s.connect query, .quiet)
  | .message ws payload now => s.message ws payload now
  | .disconnect ws => (s.disconnect ws, .quiet)
  | .snapshot now =>
    let (hold, snapshot) := s.hold.snapshot now
    ({ s with hold := hold }, .shown snapshot)

end WebJoy

end Questix.WebJoyDriver
