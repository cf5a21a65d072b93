/-
Questix.LabBridge.FanOut — how the bridge hands payloads to its pages
(`ws_server.py`).

A payload is published by any thread; the loop takes the calls up one after the
other (`call_soon_threadsafe`). For each client the handler sends the hello and
the greeting, and then the sender what its outbox and its slots hold. Where the
source awaits, a phase says what is awaited, and an event of its own ends the
wait: sends take any time, and may end with the connection.

Which saves are answered when is open (`answer`).
-/
import Mathlib.Logic.Function.Basic
import Questix.Lib.Slots
import Questix.Lib.Trace

namespace Questix.LabBridge.FanOut

open Questix.Lib

/-! ## State -/

/-- What a client's handler, or its sender, awaits. -/
inductive Phase where
  | hello
  /-- the send of a greeting, with the texts that come after it -/
  | greeting (rest : List String)
  /-- `client.event.wait()` -/
  | waiting
  /-- the send of an answer -/
  | answering
  /-- the send of a slot's payload -/
  | streaming
  /-- The connection is closed; the handler has not noticed yet. -/
  | closed
  deriving DecidableEq

/-- `_Client` -/
structure Client (P : Type*) where
  slots : Slots String P
  outbox : List String
  event : Bool
  phase : Phase

/-- A call of `_offer` that the loop has to make. -/
structure Call (P : Type*) where
  stream : String
  payload : P
  client : Option ℕ

/-- `LabWebSocketServer` -/
structure Hub (P : Type*) where
  calls : List (Call P)
  /-- `_clients`, by their ids -/
  connected : List ℕ
  client : ℕ → Client P
  nextId : ℕ
  maxClients : ℕ

/-- What happens to a client. -/
inductive Label (P : Type*) where
  /-- `greeting(id)` has given the texts to send. -/
  | greeted (id : ℕ)
  /-- put into its outbox -/
  | answerPut (id : ℕ) (text : String)
  | sentText (id : ℕ) (text : String)
  | sentAnswer (id : ℕ) (text : String)
  | sentPayload (id : ℕ) (stream : String) (payload : P)
  deriving DecidableEq

variable {P : Type*}

/-! ## One client -/

namespace Client

variable (c : Client P) (id : ℕ)

def new : Client P where
  slots := []
  outbox := []
  event := false
  phase := .hello

def offer (stream : String) (payload : P) : Client P :=
  { c with slots := c.slots.put stream payload, event := true }

def putAnswer (text : String) : Client P :=
  { c with outbox := c.outbox ++ [text], event := true }

/-- `while client.slots`, up to the next send -/
def nextPayload : Client P × List (Label P) :=
  match c.slots with
  | [] => ({ c with phase := .waiting }, [])
  | (stream, payload) :: rest =>
    ({ c with slots := rest, phase := .streaming }, [.sentPayload id stream payload])

/-- `while client.outbox`, up to the next send -/
def nextAnswer : Client P × List (Label P) :=
  match c.outbox with
  | [] => c.nextPayload id
  | text :: rest => ({ c with outbox := rest, phase := .answering }, [.sentAnswer id text])

/-- The greeting up to the next send; behind it the slots are cleared and the
sender starts. -/
def nextGreeting : List String → Client P × List (Label P)
  | [] => ({ c with slots := [], phase := .waiting }, [])
  | text :: rest => ({ c with phase := .greeting rest }, [.sentText id text])

/-- What is awaited has come. `texts` is what `greeting(id)` gives. -/
def resume (texts : List String) : Client P × List (Label P) :=
  match c.phase with
  | .hello =>
    let (c, sent) := c.nextGreeting id texts
    (c, .greeted id :: sent)
  | .greeting rest => c.nextGreeting id rest
  | .waiting => if c.event then { c with event := false }.nextAnswer id else (c, [])
  | .answering => c.nextAnswer id
  | .streaming => c.nextPayload id
  | .closed => (c, [])

end Client

/-! ## The server -/

inductive Event (P : Type*) where
  | publish (stream : String) (payload : P)
  | publishTo (id : ℕ) (stream : String) (payload : P)
  /-- The loop takes up the next call. -/
  | call
  | connect
  | resume (id : ℕ) (texts : List String)
  /-- a save's answer -/
  | answer (id : ℕ) (text : String)
  /-- A send ends with the connection. -/
  | fail (id : ℕ)
  | leave (id : ℕ)

/-- `client_id is None or client.id == client_id` -/
def Call.reaches (call : Call P) (id : ℕ) : Bool := call.client.all (· == id)

namespace Hub

variable (h : Hub P)

def empty (maxClients : ℕ) : Hub P where
  calls := []
  connected := []
  client := fun _ => .new
  nextId := 1
  maxClients := maxClients

def publish (stream : String) (payload : P) : Hub P :=
  if h.connected.isEmpty then h
  else { h with calls := h.calls ++ [{ stream := stream, payload := payload, client := none }] }

def publishTo (id : ℕ) (stream : String) (payload : P) : Hub P :=
  { h with calls := h.calls ++ [{ stream := stream, payload := payload, client := some id }] }

/-- `_offer` -/
def offer (call : Call P) : Hub P :=
  { h with client := fun id =>
      if id ∈ h.connected ∧ call.reaches id then (h.client id).offer call.stream call.payload
      else h.client id }

def setClient (id : ℕ) (r : Client P × List (Label P)) : Hub P × List (Label P) :=
  ({ h with client := Function.update h.client id r.1 }, r.2)

end Hub

def Hub.step (hello : String) (h : Hub P) : Event P → Hub P × List (Label P)
  | .publish stream payload => (h.publish stream payload, [])
  | .publishTo id stream payload => (h.publishTo id stream payload, [])
  | .call =>
    match h.calls with
    | [] => (h, [])
    | call :: rest => ({ h with calls := rest }.offer call, [])
  | .connect =>
    if h.maxClients ≤ h.connected.length then (h, [])
    else
      ({ h with
          connected := h.nextId :: h.connected
          client := Function.update h.client h.nextId .new
          nextId := h.nextId + 1 },
        [.sentText h.nextId hello])
  | .resume id texts =>
    if id ∈ h.connected then h.setClient id ((h.client id).resume id texts) else (h, [])
  | .answer id text =>
    if id ∈ h.connected then h.setClient id ((h.client id).putAnswer text, [.answerPut id text])
    else (h, [])
  | .fail id =>
    if id ∈ h.connected then h.setClient id ({ h.client id with phase := .closed }, [])
    else (h, [])
  | .leave id => ({ h with connected := h.connected.filter (· ≠ id) }, [])

end Questix.LabBridge.FanOut
