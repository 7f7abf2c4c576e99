/-
The program once it listens: the service, its clients' connections, and what their sessions
do with the providers.

`Keyring/Cli/Drain.lean` has the service and the wire, and is told what a session makes of a
request.  `Keyring/Service/Agent.lean` has the sessions of one agent, and is told which
requests come and when a connection is dropped.  Here each is told by the other.  Every
agent that has been in place is a generation, with providers of its own; a connection has
the number of its client's task there.

A provider's step is a choice among those it has, as its kind is known only once it is
there.  Providers keep their own clocks, which may lag behind.
-/
import Keyring.Cli.Drain
import Keyring.Providers
import Keyring.Service.Agent

namespace Keyring

open Keyring.Service Keyring.Cli

/-- A provider that has not been called. -/
def Provider.start {keys : SshKeys} (clock : Instant) :
    (provider : Provider keys) → provider.loads.State
  | .dummy _ => ([] : List Core.CallId)
  | .bitwarden _ env => BitwardenProvider.start env keys clock

namespace Process

section

variable {keys : SshKeys}

/-- The loads of an agent's providers, each under its place in the configuration. -/
abbrev loadsOf (agent : ServiceAgent (Provider keys)) (p : Fin agent.providers.length) :
    Core.KeyPairProvider keys := (agent.providers.get p).loads

/-- The agent, as far as its sessions are concerned. -/
def placesOf (agent : ServiceAgent (Provider keys)) :
    ServiceAgent (Fin agent.providers.length) where
  providers := List.finRange _
  configured := by
    rw [Ne, List.finRange_eq_nil_iff, List.length_eq_zero_iff]
    exact agent.configured

end

section

variable (keys : SshKeys)

/-- What a client sends.  A session has no method of its own for any other request, and
refuses it. -/
inductive Message
  | request (request : Request keys)
  | other (command : Nat)

/-- An agent that is or has been in place, with its connections and its providers. -/
structure Generation where
  agent : ServiceAgent (Provider keys)
  world : Service.World (loadsOf agent)

/-- The service with its connections, and the generations by the number of their channel. -/
structure World where
  drain : Drain.World (Provider keys) (Message keys) (Reply keys)
  generations : List (Generation keys)

/-- Which step one of the providers of a generation takes. -/
abbrev Turn := (gen : Generation keys) →
  Option ((p : Fin gen.agent.providers.length) × (loadsOf gen.agent p).Action)

/-- What can happen next. -/
inductive Action
  | serve (a : Serve.Action (Provider keys))
  | startDrain
  | tick (now : Instant)
  /-- Anything on a connection, but for the end of a request's handling. -/
  | conn (job : Nat) (input : Handle.Input (Message keys) (Reply keys))
  /-- `session.handle` returns; the text is that of a refusal, if it is one. -/
  | handled (job : Nat) (refusal : String)
  /-- The provider that a session waits for has answered. -/
  | resume (job : Nat)
  | provider (g : Nat) (turn : Turn keys)
  | panic (job : Nat)
  | cancel (job : Nat)

end

variable {keys : SshKeys} {ι : Type} [DecidableEq ι] {P : ι → Core.KeyPairProvider keys}

/-! ### Sessions -/

/-- What `session.handle` returns, unless it panics. -/
def outcomeOf : Reply keys → Option (Except AgentError (Handle.Response (Reply keys)))
  | .panicked => none
  | .error error => some (.error error)
  | reply => some (.ok (.body reply))

/-- What it returns for the request that is being handled, where it has been served. -/
def returned (world : Service.World P) (job : Nat) (refusal : String) :
    Handle.Place (Message keys) (Reply keys) →
      Option (Except AgentError (Handle.Response (Reply keys)))
  | .handling (.request _) _ =>
      match world.conns job with
      | some ⟨_, .idle, exchanges⟩ => exchanges.getLast?.bind fun x => outcomeOf x.reply
      | _ => none
  | .handling (.other _) _ => some (.error (.other refusal))
  | _ => none

/-- The task of a connection is dropped, or comes to its end. -/
def leave (world : Service.World P) (job : Nat) : Option (Service.World P) :=
  match world.conns job with
  | some ⟨_, .idle, _⟩ => world.close job
  | _ => world.drop job

/-- What the session does where the connection has come to. -/
def follow (proto : AgentProto) (world : Service.World P) (job : Nat) :
    Handle.Place (Message keys) (Reply keys) → Option (Service.World P)
  | .handling (.request request) _ => world.request proto job request
  | .closed _ => leave world job
  | _ => some world

/-- The end of a request's handling has an action of its own. -/
def isHandled : Handle.Input (Message keys) (Reply keys) → Bool
  | .handled _ => true
  | _ => false

/-! ### Steps -/

def Generation.start (clock : Instant) (agent : ServiceAgent (Provider keys)) :
    Generation keys where
  agent := agent
  world := Service.World.start fun p => (agent.providers.get p).start clock

namespace World

/-- Something happens in a generation. -/
def inside (w : World keys) (g : Nat)
    (f : (gen : Generation keys) → Option (Service.World (loadsOf gen.agent))) :
    Option (World keys) :=
  (w.generations[g]?).bind fun gen => (f gen).map fun world =>
    { w with generations := w.generations.set g ⟨gen.agent, world⟩ }

/-- What a turn of the loop does to the generations: the one in place accepts a client, or
a candidate becomes a generation. -/
def turned (w : World keys) (service : Serve.Service (Provider keys)) :
    Serve.Action (Provider keys) → Option (World keys)
  | .accept (.ok ()) => w.inside service.stop fun gen =>
      gen.world.accept (placesOf gen.agent) service.jobs.spawned
  | .joinReload build =>
      match service.reloads.joinNext build with
      | some (.ok (.ok candidate), _) => some { w with
          generations := w.generations ++ [.start w.drain.clock candidate] }
      | _ => some w
  | _ => some w

def step (proto : AgentProto) (w : World keys) : Action keys → Option (World keys)
  | .serve a =>
      (w.drain.step (.serve a)).bind fun drain => { w with drain }.turned w.drain.serve.service a
  | .startDrain => (w.drain.step .startDrain).map fun drain => { w with drain }
  | .tick now => (w.drain.step (.tick now)).map fun drain => { w with drain }
  | .conn job input =>
      if isHandled input then none
      else
        (Drain.client? w.drain.serve.service job).bind fun client =>
          (w.drain.step (.conn job input)).bind fun drain =>
            { w with drain }.inside client.stop fun gen =>
              follow proto gen.world job (drain.conns job)
  | .handled job refusal =>
      (Drain.client? w.drain.serve.service job).bind fun client =>
        (w.generations[client.stop]?).bind fun gen =>
          (returned gen.world job refusal (w.drain.conns job)).bind fun outcome =>
            (w.drain.step (.conn job (.handled outcome))).map fun drain => { w with drain }
  | .resume job =>
      (Drain.client? w.drain.serve.service job).bind fun client =>
        w.inside client.stop fun gen => gen.world.resume proto job
  | .provider g turn =>
      w.inside g fun gen => (turn gen).bind fun ⟨p, a⟩ =>
        gen.world.step proto (placesOf gen.agent) (.provider p a)
  | .panic job =>
      (Drain.client? w.drain.serve.service job).bind fun client =>
        (w.drain.step (.panic job)).bind fun drain =>
          { w with drain }.inside client.stop fun gen =>
            (leave gen.world job).orElse fun _ => gen.world.unwind job
  | .cancel job =>
      (Drain.client? w.drain.serve.service job).bind fun client =>
        (w.drain.step (.cancel job)).bind fun drain =>
          { w with drain }.inside client.stop fun gen => leave gen.world job

def start (agent : ServiceAgent (Provider keys)) (clock : Instant) : World keys where
  drain := .start agent clock
  generations := [.start clock agent]

end World

/-- All runs of the program, from its first agent on. -/
def processMachine (proto : AgentProto) (agent : ServiceAgent (Provider keys)) :
    Machine (World keys) (Action keys) :=
  Machine.ofFun (fun w => ∃ clock, w = World.start agent clock) (World.step proto)

end Process

end Keyring
