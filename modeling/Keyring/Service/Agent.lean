/-
An agent with any number of connections on shared providers.

What `Keyring/Service/Session.lean` does in one go takes its time here: the loop of `load`
calls one provider after the other and waits for each, and while it waits the other
connections and the providers take any number of steps.  A request that waits can be
dropped, which is the end of its connection, and a panic inside a provider unwinds it.

`exchanges` is no variable of the program.  It writes down the requests that were served,
with what the providers answered during them, and no step reads it.
-/
import Keyring.Core.Provider
import Keyring.Service.Session
import Mathlib.Logic.Function.Basic

namespace Keyring.Service

open Keyring.Core

/-- One connection. -/
abbrev ConnId := Nat

section

variable (keys : SshKeys) (ι : Type)

/-- Where a connection stands. -/
inductive Place
  /-- Between two requests. -/
  | idle
  /-- In `load`, for a request: what the providers before this one have returned, the index
  made of it, this provider with the call on it, and the providers after it. -/
  | loading (request : Request keys) (given : List (List keys.PrivateKey))
      (out : KeyIndex keys) (provider : ι) (call : CallId) (rest : List ι)
  | closed

/-- A connection: its session, where it stands, and what it has done. -/
structure Conn where
  session : OpenSession keys ι
  place : Place keys ι
  exchanges : List (Exchange keys)

end

variable {keys : SshKeys} {ι : Type} [DecidableEq ι]

/-- An agent's providers and connections, and the number of the next call. -/
structure World (P : ι → KeyPairProvider keys) where
  providers : (p : ι) → (P p).State
  conns : ConnId → Option (Conn keys ι)
  next : CallId

/-- What can happen next. -/
inductive Action (P : ι → KeyPairProvider keys)
  | accept (c : ConnId)
  | request (c : ConnId) (request : Request keys)
  /-- A provider goes on. -/
  | provider (p : ι) (a : (P p).Action)
  /-- The call a connection waits for has returned. -/
  | resume (c : ConnId)
  /-- A connection is dropped where it waits. -/
  | drop (c : ConnId)
  /-- The call a connection waits for has panicked. -/
  | unwind (c : ConnId)
  | close (c : ConnId)

namespace World

variable {P : ι → KeyPairProvider keys}

/-- What the providers answered, the last of them perhaps with an error. -/
def answers (given : List (List keys.PrivateKey)) (last : Answer keys) (n : Nat) : Answer keys :=
  match given[n]? with
  | some snapshot => .ok snapshot
  | none => last

/-- A connection that has served a request. -/
def served (conn : Conn keys ι) (session : OpenSession keys ι) (exchange : Exchange keys) :
    Conn keys ι := ⟨session, .idle, conn.exchanges ++ [exchange]⟩

def withConn (w : World P) (c : ConnId) (conn : Conn keys ι) : World P :=
  { w with conns := Function.update w.conns c (some conn) }

/-- The request goes on with the session's index, and calls no provider. -/
def respond (proto : AgentProto) (w : World P) (c : ConnId) (conn : Conn keys ι)
    (request : Request keys) (answer : Nat → Answer keys) (calls : List Nat)
    (session : OpenSession keys ι) : World P :=
  let (session, _, reply) := session.handle proto answer request
  w.withConn c (served conn session ⟨request, answer, calls, reply⟩)

/-- The head of the loop of `load`: call the next provider, or return the index. -/
def loadNext (proto : AgentProto) (w : World P) (c : ConnId) (conn : Conn keys ι)
    (request : Request keys) (given : List (List keys.PrivateKey)) (out : KeyIndex keys) :
    List ι → Option (World P)
  | [] => some (w.respond proto c conn request (answers given (.ok []))
      (List.range given.length) { conn.session with keys := some out })
  | p :: rest => ((P p).load (w.providers p) w.next).map fun state =>
      { w with providers := Function.update w.providers p state, next := w.next + 1 }.withConn c
        { conn with place := .loading request given out p w.next rest }

/-- The reply to a request whose load has failed. -/
def failed (conn : Conn keys ι) (request : Request keys)
    (given : List (List keys.PrivateKey)) (error : String) : Conn keys ι :=
  served conn conn.session ⟨request, answers given (.error error), List.range (given.length + 1),
    OpenSession.other ("provider load failed at index " ++ toString given.length ++ ": " ++ error)⟩

/-- Whether a request needs the index. -/
def needsIndex : Request keys → Bool
  | .identities | .sign _ => true
  | .extension _ => false

/-- A request is served from the session's own index, or starts its load. -/
def request (proto : AgentProto) (w : World P) (c : ConnId) (request : Request keys) :
    Option (World P) :=
  match w.conns c with
  | some ⟨session, .idle, exchanges⟩ =>
      if needsIndex request && session.keys.isNone then
        w.loadNext proto c ⟨session, .idle, exchanges⟩ request [] ∅ session.providers
      else some (w.respond proto c ⟨session, .idle, exchanges⟩ request (answers [] (.ok [])) []
        session)
  | _ => none

/-- The loop goes on with what the call has returned. -/
def resume (proto : AgentProto) (w : World P) (c : ConnId) : Option (World P) :=
  match w.conns c with
  | some ⟨session, .loading request given out p call rest, exchanges⟩ =>
      match (P p).status (w.providers p) call with
      | .returned (.ok snapshot) =>
          w.loadNext proto c ⟨session, .idle, exchanges⟩ request (given ++ [snapshot])
            (Index.extend keys.publicKey out snapshot) rest
      | .returned (.error error) =>
          some (w.withConn c (failed ⟨session, .idle, exchanges⟩ request given error))
      | _ => none
  | _ => none

/-- Dropping a connection drops the call it waits for. -/
def drop (w : World P) (c : ConnId) : Option (World P) :=
  match w.conns c with
  | some ⟨session, .loading _ _ _ p call _, exchanges⟩ =>
      ((P p).drop (w.providers p) call).map fun state =>
        { w with providers := Function.update w.providers p state }.withConn c
          ⟨session, .closed, exchanges⟩
  | _ => none

def unwind (w : World P) (c : ConnId) : Option (World P) :=
  match w.conns c with
  | some ⟨session, .loading _ _ _ p call _, exchanges⟩ =>
      match (P p).status (w.providers p) call with
      | .gone => some (w.withConn c ⟨session, .closed, exchanges⟩)
      | _ => none
  | _ => none

def close (w : World P) (c : ConnId) : Option (World P) :=
  match w.conns c with
  | some ⟨session, .idle, exchanges⟩ => some (w.withConn c ⟨session, .closed, exchanges⟩)
  | _ => none

def accept (agent : ServiceAgent ι) (w : World P) (c : ConnId) : Option (World P) :=
  match w.conns c with
  | none => some (w.withConn c ⟨.start agent.newSession, .idle, []⟩)
  | some _ => none

def step (proto : AgentProto) (agent : ServiceAgent ι) (w : World P) :
    Action P → Option (World P)
  | .accept c => w.accept agent c
  | .request c request => w.request proto c request
  | .provider p a => ((P p).step (w.providers p) a).map fun state =>
      { w with providers := Function.update w.providers p state }
  | .resume c => w.resume proto c
  | .drop c => w.drop c
  | .unwind c => w.unwind c
  | .close c => w.close c

/-- Before the first connection. -/
def start (providers : (p : ι) → (P p).State) : World P := ⟨providers, fun _ => none, 0⟩

end World

/-- All runs of an agent, from providers that have not been called. -/
def agentMachine (proto : AgentProto) (agent : ServiceAgent ι) (P : ι → KeyPairProvider keys) :
    Machine (World P) (Action P) :=
  Machine.ofFun (fun w => ∃ providers, w = World.start providers ∧
    ∀ p i, (P p).status (providers p) i = .unused) (World.step proto agent)

end Keyring.Service
