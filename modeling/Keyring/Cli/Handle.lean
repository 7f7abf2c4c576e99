/-
One client connection: reading requests, answering them, noticing that it is to stop.

`advance` takes a connection from one point where something is decided to the next.  The
two polls of its `select!`, of the stop channel and then of the wire, are steps of their
own, so that the stop may be raised between them.  What the wire, the session and the
clock do is input.  A request's deadline is set where the request is decoded, as no await
comes between the two.

The machine is that of one generation: connections that share a stop channel.  `log` says
what each of them has done, and under no name what was done to the channel; no step reads
it.
-/
import Keyring.Basic
import Keyring.Lib.Machine
import Keyring.Service.Session

namespace Keyring.Cli.Handle

open Keyring.Service (AgentError)

/-- Budget for processing and writing one decoded request, excluding idle reads. -/
def requestTimeout : Duration := fromSecs 30

/-- A response, as far as failures are concerned. -/
inductive Response (Body : Type*)
  | body (body : Body)
  | failure
  | extensionFailure
  deriving DecidableEq

/-- The receiving end of a stop channel: its value, and whether its sender is gone. -/
structure Watch where
  value : Bool
  closed : Bool
  deriving DecidableEq

/-- `changed` is ready for a value not seen before, which can only be `true`, and fails
once the sender is gone; either ends the wait. -/
def Watch.changed (stop : Watch) : Bool := stop.value || stop.closed

variable {Req Body : Type*}

/-- The response to what a handler returns. -/
def responseOf : Except AgentError (Response Body) → Response Body
  | .ok res => res
  | .error .extensionFailure => .extensionFailure
  | .error _ => .failure

/-- `AgentError::other(Elapsed)`. -/
def elapsedError : AgentError := .other "deadline has elapsed"

/-- Where a connection stands. -/
inductive Place (Req Body : Type*)
  /-- At the head of the loop. -/
  | top
  /-- About to poll the stop channel in `select!`. -/
  | select
  /-- About to poll the wire. -/
  | wire
  | handling (req : Req) (deadline : Instant)
  | sending (res : Response Body) (deadline : Instant)
  | closed (result : Except AgentError Unit)

/-- What happens on a connection. -/
inductive Event (Req Body : Type*)
  /-- The stop is raised, or its sender dropped. -/
  | raised
  | dropped
  /-- The stop channel was polled, and nothing was there. -/
  | polled
  /-- Nor was there anything on the wire. -/
  | pending
  /-- The stop was noticed, and the connection closed for it. -/
  | stopped
  | decoded (req : Req) (deadline : Instant)
  | handled (outcome : Except AgentError (Response Body))
  | sent (res : Response Body)
  | disconnected
  | undecodable (error : AgentError)
  | unsent (error : AgentError)
  | timedOut

/-- What a connection goes on with. -/
inductive Input (Req Body : Type*)
  | go
  | pending
  | frame (frame : Except AgentError (Option Req))
  | handled (outcome : Except AgentError (Response Body))
  | sent (result : Except AgentError Unit)
  /-- The deadline of the request is over. -/
  | timeout

/-- One step of a connection. -/
def advance (stop : Watch) (now : Instant) :
    Place Req Body → Input Req Body → Option (Place Req Body × List (Event Req Body))
  | .top, .go => if stop.value then some (.closed (.ok ()), [.stopped]) else some (.select, [])
  | .select, .go =>
      if stop.changed then some (.closed (.ok ()), [.stopped]) else some (.wire, [.polled])
  | .wire, .pending => some (.select, [.pending])
  | .wire, .frame (.ok (some req)) =>
      some (.handling req (now + requestTimeout), [.decoded req (now + requestTimeout)])
  | .wire, .frame (.ok none) => some (.closed (.ok ()), [.disconnected])
  | .wire, .frame (.error error) => some (.closed (.error error), [.undecodable error])
  | .handling _ deadline, .handled outcome =>
      some (.sending (responseOf outcome) deadline, [.handled outcome])
  | .handling _ deadline, .timeout =>
      if deadline ≤ now then some (.closed (.error elapsedError), [.timedOut]) else none
  | .sending res _, .sent (.ok ()) => some (.top, [.sent res])
  | .sending _ _, .sent (.error error) => some (.closed (.error error), [.unsent error])
  | .sending _ deadline, .timeout =>
      if deadline ≤ now then some (.closed (.error elapsedError), [.timedOut]) else none
  | _, _ => none

/-! ### Runs -/

/-- One connection. -/
abbrev ConnId := Nat

/-- The connections of one generation, its stop channel and the clock. -/
structure World (Req Body : Type*) where
  stop : Watch
  clock : Instant
  conns : ConnId → Place Req Body
  log : List (Option ConnId × Event Req Body)

/-- What can happen next. -/
inductive Action (Req Body : Type*)
  | conn (i : ConnId) (input : Input Req Body)
  | raise
  | drop
  | tick (now : Instant)

namespace World

def start (clock : Instant) : World Req Body := ⟨⟨false, false⟩, clock, fun _ => .top, []⟩

/-- What a step of one connection leaves of the world. -/
def moved (w : World Req Body) (i : ConnId) (place : Place Req Body)
    (events : List (Event Req Body)) : World Req Body where
  stop := w.stop
  clock := w.clock
  conns := Function.update w.conns i place
  log := w.log ++ events.map fun e => (some i, e)

def step (w : World Req Body) : Action Req Body → Option (World Req Body)
  | .conn i input =>
      (advance w.stop w.clock (w.conns i) input).map fun (place, events) => w.moved i place events
  | .raise => some { w with
      stop := { w.stop with value := true }, log := w.log ++ [(none, .raised)] }
  | .drop => some { w with
      stop := { w.stop with closed := true }, log := w.log ++ [(none, .dropped)] }
  | .tick now => if w.clock ≤ now then some { w with clock := now } else none

end World

/-- All runs of the connections of one generation. -/
def handleMachine (Req Body : Type*) : Machine (World Req Body) (Action Req Body) :=
  Machine.ofFun (fun w => ∃ clock, w = World.start clock) World.step

end Keyring.Cli.Handle
