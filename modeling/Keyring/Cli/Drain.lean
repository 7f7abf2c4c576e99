/-
The service with its clients' connections and a clock.

A client task is a connection: it reads the stop channel it has subscribed to, and it ends
when the connection is closed, whatever it was closed for.  It may also panic, and once it
is cancelled it ends wherever it stands.  So the end of a client is no step of its own here.

The drain timer starts after the stop has been sent, at once or later, and a timer fires
when its deadline is reached or later.  `log` is read by no step.
-/
import Keyring.Cli.Handle
import Keyring.Cli.Serve

namespace Keyring.Cli.Drain

open Keyring.Service
open Keyring.Cli

/-- Bounds the shutdown drain. -/
def shutdownTimeout : Duration := fromSecs 30

/-- What happens to the clients. -/
inductive Event (Req Body : Type*)
  | stopSent
  | conn (job : Nat) (event : Handle.Event Req Body)
  | panicked (job : Nat)
  | cancelled (job : Nat) (now : Instant)

/-- The service, the clock, the deadline of the drain once its timer runs, and where the
connections stand. -/
structure World (Provider Req Body : Type*) where
  serve : Serve.World Provider
  clock : Instant
  drain : Option Instant
  conns : Nat → Handle.Place Req Body
  log : List (Event Req Body)

/-- What can happen next. -/
inductive Action (Provider Req Body : Type*)
  | serve (a : Serve.Action Provider)
  | startDrain
  | conn (job : Nat) (input : Handle.Input Req Body)
  | panic (job : Nat)
  | cancel (job : Nat)
  | tick (now : Instant)

variable {Provider Req Body : Type*}

/-- The client of a task that has not ended. -/
def client? (s : Serve.Service Provider) (job : Nat) : Option (Serve.Client Provider) :=
  (s.jobs.tasks.find? fun task => task.id == job && task.result.isNone).map fun task => task.input

/-- The senders are dropped when `serve` returns. -/
def isReturned : Serve.Phase → Bool
  | .returned _ => true
  | _ => false

/-- What a client sees of stop channel `g`.  A replaced channel has lost its sender. -/
def watch (s : Serve.Service Provider) (g : Nat) : Handle.Watch where
  value := s.channels[g]?.getD false
  closed := g != s.stop || isReturned s.phase

/-- Whether the tasks have been cancelled: all at once after the drain, and when `serve`
returns, as their set is dropped then. -/
def isCancelled : Serve.Phase → Bool
  | .cancelling | .returned _ => true
  | _ => false

namespace World

/-- A turn of the loop goes as it does.  What follows the loop waits for the drain timer:
the drain is under way when it has started, and times out when it has fired. -/
def allows (w : World Provider Req Body) : Serve.Action Provider → Bool
  | .jobEnds _ _ => false
  | .timeout => w.drain.any fun deadline => deadline ≤ w.clock
  | .joinJob _ | .drained =>
      match w.serve.service.phase with
      | .draining => w.drain.isSome
      | _ => true
  | _ => true

/-- A task ends. -/
def ends (w : World Provider Req Body) (job : Nat) (result : Except Serve.JoinError Unit) :
    Option (World Provider Req Body) :=
  (w.serve.step (.jobEnds job result)).map fun serve => { w with serve }

/-- What a step of a connection leads to. -/
def moved (w : World Provider Req Body) (job : Nat) (place : Handle.Place Req Body)
    (events : List (Handle.Event Req Body)) : World Provider Req Body :=
  { w with conns := Function.update w.conns job place, log := w.log ++ events.map (.conn job) }

def noted (w : World Provider Req Body) (e : Event Req Body) : World Provider Req Body :=
  { w with log := w.log ++ [e] }

/-- A shutdown sends the stop. -/
def sends : Serve.Action Provider → List (Event Req Body)
  | .signal .shutdown => [.stopSent]
  | _ => []

def step (w : World Provider Req Body) :
    Action Provider Req Body → Option (World Provider Req Body)
  | .serve a =>
      if w.allows a then
        (w.serve.step a).map fun serve => { w with serve, log := w.log ++ sends a }
      else none
  | .startDrain =>
      match w.serve.service.phase, w.drain with
      | .draining, none => some { w with drain := some (w.clock + shutdownTimeout) }
      | _, _ => none
  | .conn job input =>
      (client? w.serve.service job).bind fun client =>
        (Handle.advance (watch w.serve.service client.stop) w.clock (w.conns job) input).bind
          fun (place, events) =>
            match place with
            -- An error that closes the connection is logged by the task, which returns.
            | .closed _ => (w.moved job place events).ends job (.ok ())
            | _ => some (w.moved job place events)
  | .panic job =>
      (client? w.serve.service job).bind fun _ =>
        (w.noted (.panicked job)).ends job (.error .panicked)
  | .cancel job =>
      (client? w.serve.service job).bind fun _ =>
        if isCancelled w.serve.service.phase then
          (w.noted (.cancelled job w.clock)).ends job (.error .cancelled)
        else none
  | .tick now => if w.clock ≤ now then some { w with clock := now } else none

def start (agent : ServiceAgent Provider) (clock : Instant) : World Provider Req Body where
  serve := Serve.World.start agent
  clock := clock
  drain := none
  conns := fun _ => .top
  log := []

end World

/-- All runs of the service and its clients. -/
def drainMachine (Req Body : Type*) (agent : ServiceAgent Provider) :
    Machine (World Provider Req Body) (Action Provider Req Body) :=
  Machine.ofFun (fun w => ∃ clock, w = World.start agent clock) World.step

end Keyring.Cli.Drain
