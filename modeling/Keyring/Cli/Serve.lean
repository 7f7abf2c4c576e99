/-
The service loop: accepting clients, replacing the agent, shutting down.

One turn of the loop is one step: no arm of its `select!` waits for anything once it is
taken.  Client tasks and candidate builds run beside it and end when they like, which is a
step of its own; to abort one is to let it end.  Any arm that is ready may be taken, so that
what is proved does not rest on the order the loop prefers.

`log` records what has happened, for the statements about it; no step reads it.
-/
import Keyring.Lib.Machine
import Keyring.Lib.JoinSet
import Keyring.Service.Runtime

namespace Keyring.Cli.Serve

open Keyring.Service

/-- What `Signal::recv` returns. -/
inductive SignalEvent
  | reload
  | shutdown
  deriving DecidableEq

/-- How a task ends that returns nothing. -/
inductive JoinError
  | panicked
  | cancelled
  deriving DecidableEq

/-- A client task: its session, and the stop channel it is subscribed to. -/
structure Client (Provider : Type*) where
  session : ServiceSession Provider
  stop : Nat

/-- How a build ends. -/
abbrev Loaded (Provider : Type*) := Except JoinError (Except String (ServiceAgent Provider))

/-- Where `serve` stands: in the loop, waiting for the clients, waiting for them once more
after having cancelled them, or at its end. -/
inductive Phase
  | running
  | draining
  | cancelling
  | returned (result : Except String Unit)

/-- What has happened.  Builds are numbered in the order they were started. -/
inductive Event (Provider : Type*)
  | reload
  | started (build : Nat)
  | joined (build : Nat) (loaded : Loaded Provider)
  | accepted (session : ServiceSession Provider) (stop : Nat)
  | shutdown

/-- The variables of `serve`; `stop` is the channel in use, among all made so far. -/
structure Service (Provider : Type*) where
  agent : ServiceAgent Provider
  jobs : JoinSet (Client Provider) (Except JoinError Unit)
  reloads : JoinSet Unit (Loaded Provider)
  reloadPending : Bool
  channels : List Bool
  stop : Nat
  phase : Phase

/-- The service and its history. -/
structure World (Provider : Type*) where
  service : Service Provider
  log : List (Event Provider)

variable {Provider : Type*}

/-- Build a candidate from what the configuration file says when it is read. -/
def load (config : Except String (List Provider)) : Except String (ServiceAgent Provider) :=
  config.bind ServiceAgent.new

namespace Service

/-- `stop.send_replace(true)`. -/
def sendStop (s : Service Provider) : Service Provider :=
  { s with channels := s.channels.set s.stop true }

/-- Start a build. -/
def startBuild (s : Service Provider) : Service Provider × List (Event Provider) :=
  ({ s with reloads := s.reloads.spawn () }, [.started s.reloads.spawned])

/-- The signal arm. -/
def handleSignal (s : Service Provider) : SignalEvent → Service Provider × List (Event Provider)
  | .reload =>
      if s.reloads.isEmpty then
        (s.startBuild.1, .reload :: s.startBuild.2)
      else
        ({ s with reloadPending := true }, [.reload])
  -- The loop ends; the notification follows it without a wait.
  | .shutdown => ({ s.sendStop with phase := .draining }, [.shutdown])

/-- Replace the agent, stop the sessions of the old one, and make a new stop channel. -/
def install (s : Service Provider) (candidate : ServiceAgent Provider) : Service Provider :=
  { s.sendStop with
    agent := candidate
    channels := s.sendStop.channels ++ [false]
    stop := s.sendStop.channels.length }

/-- What the reload arm does with a build that has ended. -/
def handleLoaded (s : Service Provider) : Loaded Provider → Service Provider
  | .ok (.ok candidate) => s.install candidate
  | .ok (.error _) => s
  | .error _ => s

/-- The rest of the reload arm. -/
def restart (s : Service Provider) : Service Provider × List (Event Provider) :=
  if s.reloadPending then { s with reloadPending := false }.startBuild else (s, [])

/-- The accept arm; a failed `accept` ends `serve`. -/
def handleAccepted (s : Service Provider) :
    Except String Unit → Service Provider × List (Event Provider)
  | .ok () =>
      ({ s with jobs := s.jobs.spawn ⟨s.agent.newSession, s.stop⟩ },
        [.accepted s.agent.newSession s.stop])
  | .error error => ({ s with phase := .returned (.error error) }, [])

end Service

/-- A turn of the loop or of the drain, or the end of a task. -/
inductive Action (Provider : Type*)
  | signal (event : SignalEvent)
  | accept (accepted : Except String Unit)
  | joinReload (build : Nat)
  | joinJob (job : Nat)
  /-- The shutdown timeout expires. -/
  | timeout
  /-- No client is left. -/
  | drained
  /-- A build reads the configuration file, or comes to another end. -/
  | buildEnds (build : Nat) (config : Except JoinError (Except String (List Provider)))
  | jobEnds (job : Nat) (result : Except JoinError Unit)

namespace World

/-- The next service, and what has happened. -/
def moved (w : World Provider) (s : Service Provider) (events : List (Event Provider)) :
    World Provider := ⟨s, w.log ++ events⟩

def step (w : World Provider) : Action Provider → Option (World Provider)
  | .signal event =>
      match w.service.phase with
      | .running =>
          let (s, events) := w.service.handleSignal event
          some (w.moved s events)
      | _ => none
  | .accept accepted =>
      match w.service.phase with
      | .running =>
          let (s, events) := w.service.handleAccepted accepted
          some (w.moved s events)
      | _ => none
  | .joinReload build =>
      match w.service.phase with
      | .running => (w.service.reloads.joinNext build).map fun (loaded, reloads) =>
          let (s, events) := ({ w.service with reloads }.handleLoaded loaded).restart
          w.moved s (.joined build loaded :: events)
      | _ => none
  | .joinJob job =>
      match w.service.phase with
      | .returned _ => none
      | _ => (w.service.jobs.joinNext job).map fun (_, jobs) =>
          w.moved { w.service with jobs } []
  | .timeout =>
      match w.service.phase with
      | .draining => some (w.moved { w.service with phase := .cancelling } [])
      | _ => none
  | .drained =>
      match w.service.phase with
      | .draining | .cancelling =>
          if w.service.jobs.isEmpty then
            some (w.moved { w.service with phase := .returned (.ok ()) } [])
          else none
      | _ => none
  | .buildEnds build config =>
      let reloads := w.service.reloads.finish build (config.map load)
      some (w.moved { w.service with reloads } [])
  | .jobEnds job result =>
      some (w.moved { w.service with jobs := w.service.jobs.finish job result } [])

/-- `serve` with its first agent. -/
def start (agent : ServiceAgent Provider) : World Provider where
  service :=
    { agent, jobs := .new, reloads := .new, reloadPending := false, channels := [false]
      stop := 0, phase := .running }
  log := []

end World

/-- All runs of `serve`. -/
def serveMachine (agent : ServiceAgent Provider) : Machine (World Provider) (Action Provider) :=
  Machine.ofFun (fun w => w = World.start agent) World.step

end Keyring.Cli.Serve
