/-
What one step of an agent can do.

A step is one of a provider, which touches no connection, or one of a connection.  What a
connection does in `load` starts at the head of its loop, where it comes from a request or
from a provider that has answered: `AtHead` is the loop's state there, whichever it was.
-/
import Keyring.Proofs.Core.Provider
import Keyring.Proofs.Service.OneIndex
import Keyring.Service.Agent

namespace Keyring.Service

open Keyring.Core

variable {keys : SshKeys} {ι : Type} {P : ι → KeyPairProvider keys}
  {proto : AgentProto} {agent : ServiceAgent ι} {w w' : World P} {c d : ConnId} {p : ι}
  {conn : Conn keys ι} {request : Request keys} {given : List (List keys.PrivateKey)}
  {out : KeyIndex keys} {rest : List ι}

@[simp] theorem withConn_self (w : World P) (c : ConnId) (conn : Conn keys ι) :
    (w.withConn c conn).conns c = some conn := Function.update_self _ _ _

@[simp] theorem withConn_of_ne (w : World P) (conn : Conn keys ι) (h : d ≠ c) :
    (w.withConn c conn).conns d = w.conns d := Function.update_of_ne h _ _

variable [DecidableEq ι]

/-! ### Steps of a connection -/

/-- A connection at the head of the loop of `load`, and what has brought it there. -/
inductive AtHead (w : World P) (c : ConnId) : Action P → Conn keys ι → Request keys →
    List (List keys.PrivateKey) → KeyIndex keys → List ι → Prop
  | first {session : OpenSession keys ι} {exchanges : List (Exchange keys)}
      {request : Request keys} (hneeds : request.needsKeys = true) (hkeys : session.keys = none) :
      AtHead w c (.request c request) ⟨session, .idle, exchanges⟩ request [] ∅ session.providers
  | next {session : OpenSession keys ι} {exchanges : List (Exchange keys)}
      {request : Request keys} {given : List (List keys.PrivateKey)} {out : KeyIndex keys}
      {p : ι} {call : CallId} {rest : List ι} {snapshot : List keys.PrivateKey}
      (hstatus : (P p).status (w.providers p) call = .returned (.ok snapshot)) :
      AtHead w c (.resume c) ⟨session, .loading request given out p call rest, exchanges⟩ request
        (given ++ [snapshot]) (Index.extend keys.publicKey out snapshot) rest

/-- An agent with one provider moved on. -/
def World.withProvider (w : World P) (p : ι) (state : (P p).State) : World P :=
  { w with providers := Function.update w.providers p state }

/-- A connection in `load`. -/
def Conn.loading (conn : Conn keys ι) (request : Request keys)
    (given : List (List keys.PrivateKey)) (out : KeyIndex keys) (p : ι) (call : CallId)
    (rest : List ι) : Conn keys ι :=
  { conn with place := .loading request given out p call rest }

/-- A step of a connection, by what happens. -/
inductive ConnStep (proto : AgentProto) (agent : ServiceAgent ι) (w : World P) (c : ConnId) :
    Action P → World P → Prop
  | accepted (hnone : w.conns c = none) :
      ConnStep proto agent w c (.accept c) (w.withConn c ⟨.start agent.newSession, .idle, []⟩)
  | replied {session : OpenSession keys ι} {exchanges : List (Exchange keys)}
      {request : Request keys} (hconn : w.conns c = some ⟨session, .idle, exchanges⟩)
      (hkeys : request.needsKeys = true → session.keys.isSome) :
      ConnStep proto agent w c (.request c request)
        (w.respond proto c ⟨session, .idle, exchanges⟩ request (World.answers [] (.ok [])) []
          session)
  | called {a : Action P} {conn : Conn keys ι} {request : Request keys}
      {given : List (List keys.PrivateKey)} {out : KeyIndex keys} {p : ι} {rest : List ι}
      {state : (P p).State} (hconn : w.conns c = some conn)
      (hhead : AtHead w c a conn request given out (p :: rest))
      (hload : (P p).load (w.providers p) w.next = some state) :
      ConnStep proto agent w c a ({ w.withProvider p state with next := w.next + 1 }.withConn c
        (conn.loading request given out p w.next rest))
  | loaded {a : Action P} {conn : Conn keys ι} {request : Request keys}
      {given : List (List keys.PrivateKey)} {out : KeyIndex keys} (hconn : w.conns c = some conn)
      (hhead : AtHead w c a conn request given out []) :
      ConnStep proto agent w c a (w.respond proto c conn request (World.answers given (.ok []))
        (List.range given.length) { conn.session with keys := some out })
  | failed {session : OpenSession keys ι} {exchanges : List (Exchange keys)}
      {request : Request keys} {given : List (List keys.PrivateKey)} {out : KeyIndex keys}
      {p : ι} {call : CallId} {rest : List ι} {error : String}
      (hconn : w.conns c = some ⟨session, .loading request given out p call rest, exchanges⟩)
      (hstatus : (P p).status (w.providers p) call = .returned (.error error)) :
      ConnStep proto agent w c (.resume c)
        (w.withConn c (World.failed ⟨session, .idle, exchanges⟩ request given error))
  | dropped {session : OpenSession keys ι} {exchanges : List (Exchange keys)}
      {request : Request keys} {given : List (List keys.PrivateKey)} {out : KeyIndex keys}
      {p : ι} {call : CallId} {rest : List ι} {state : (P p).State}
      (hconn : w.conns c = some ⟨session, .loading request given out p call rest, exchanges⟩)
      (hdrop : (P p).drop (w.providers p) call = some state) :
      ConnStep proto agent w c (.drop c)
        ((w.withProvider p state).withConn c ⟨session, .closed, exchanges⟩)
  | unwound {session : OpenSession keys ι} {exchanges : List (Exchange keys)}
      {request : Request keys} {given : List (List keys.PrivateKey)} {out : KeyIndex keys}
      {p : ι} {call : CallId} {rest : List ι}
      (hconn : w.conns c = some ⟨session, .loading request given out p call rest, exchanges⟩)
      (hstatus : (P p).status (w.providers p) call = .gone) :
      ConnStep proto agent w c (.unwind c) (w.withConn c ⟨session, .closed, exchanges⟩)
  | closed {session : OpenSession keys ι} {exchanges : List (Exchange keys)}
      (hconn : w.conns c = some ⟨session, .idle, exchanges⟩) :
      ConnStep proto agent w c (.close c) (w.withConn c ⟨session, .closed, exchanges⟩)

theorem needsIndex_eq (request : Request keys) : World.needsIndex request = request.needsKeys := by
  cases request <;> rfl

/-- The loop either calls the next provider or answers the request. -/
theorem loadNext_step {a : Action P} (hconn : w.conns c = some conn)
    (hhead : AtHead w c a conn request given out rest)
    (h : w.loadNext proto c { conn with place := .idle } request given out rest = some w') :
    ConnStep proto agent w c a w' := by
  cases rest with
  | nil =>
      have hstep : ConnStep proto agent w c a _ := .loaded hconn hhead
      obtain rfl := Option.some.inj h
      exact hstep
  | cons p rest =>
      obtain ⟨state, hload, rfl⟩ := Option.map_eq_some_iff.mp h
      have hstep : ConnStep proto agent w c a _ := .called hconn hhead hload
      exact hstep

theorem request_step (h : w.request proto c request = some w') :
    ConnStep proto agent w c (.request c request) w' := by
  unfold World.request at h
  split at h
  · rename_i session exchanges hconn
    rw [needsIndex_eq] at h
    split at h
    · rename_i hload
      obtain ⟨hneeds, hkeys⟩ := (Bool.and_eq_true _ _).mp hload
      exact loadNext_step hconn (.first hneeds (Option.isNone_iff_eq_none.mp hkeys)) h
    · rename_i hserve
      obtain rfl := Option.some.inj h
      refine .replied hconn fun hneeds => ?_
      rw [hneeds, Bool.true_and] at hserve
      exact Option.isSome_iff_ne_none.mpr fun hnone => hserve (by rw [hnone]; rfl)
  · cases h

theorem resume_step (h : w.resume proto c = some w') :
    ConnStep proto agent w c (.resume c) w' := by
  unfold World.resume at h
  split at h
  · rename_i session request given out p call rest exchanges hconn
    split at h
    · rename_i snapshot hstatus
      exact loadNext_step hconn (.next hstatus) h
    · rename_i error hstatus
      obtain rfl := Option.some.inj h
      exact .failed hconn hstatus
    · cases h
  · cases h

theorem drop_step (h : w.drop c = some w') : ConnStep proto agent w c (.drop c) w' := by
  unfold World.drop at h
  split at h
  · rename_i hconn
    obtain ⟨state, hdrop, rfl⟩ := Option.map_eq_some_iff.mp h
    exact .dropped hconn hdrop
  · cases h

theorem unwind_step (h : w.unwind c = some w') : ConnStep proto agent w c (.unwind c) w' := by
  unfold World.unwind at h
  split at h
  · rename_i hconn
    split at h
    · rename_i hstatus
      obtain rfl := Option.some.inj h
      exact .unwound hconn hstatus
    · cases h
  · cases h

/-- **Every step is one of a provider or one of a connection.** -/
theorem agentStep {a : Action P} (h : w.step proto agent a = some w') :
    (∃ p b state, a = .provider p b ∧ (P p).step (w.providers p) b = some state ∧
      w' = w.withProvider p state) ∨ ∃ c, ConnStep proto agent w c a w' := by
  cases a with
  | accept c =>
      refine Or.inr ⟨c, ?_⟩
      have haccept : w.accept agent c = some w' := h
      unfold World.accept at haccept
      split at haccept
      · rename_i hnone
        obtain rfl := Option.some.inj haccept
        exact .accepted hnone
      · cases haccept
  | request c request => exact Or.inr ⟨c, request_step h⟩
  | provider p b =>
      obtain ⟨state, hstep, rfl⟩ := Option.map_eq_some_iff.mp h
      exact Or.inl ⟨p, b, state, rfl, hstep, rfl⟩
  | resume c => exact Or.inr ⟨c, resume_step h⟩
  | drop c => exact Or.inr ⟨c, drop_step h⟩
  | unwind c => exact Or.inr ⟨c, unwind_step h⟩
  | close c =>
      refine Or.inr ⟨c, ?_⟩
      have hclose : w.close c = some w' := h
      unfold World.close at hclose
      split at hclose
      · rename_i hconn
        obtain rfl := Option.some.inj hclose
        exact .closed hconn
      · cases hclose

/-! ### What is left alone -/

@[simp] theorem withProvider_conns (w : World P) (p : ι) (state : (P p).State) :
    (w.withProvider p state).conns = w.conns := rfl

@[simp] theorem withProvider_self (w : World P) (p : ι) (state : (P p).State) :
    (w.withProvider p state).providers p = state := Function.update_self _ _ _

@[simp] theorem withProvider_of_ne (w : World P) {q : ι} (state : (P p).State) (h : q ≠ p) :
    (w.withProvider p state).providers q = w.providers q := Function.update_of_ne h _ _

/-- A step of one connection leaves the others where they are. -/
theorem ConnStep.others {a : Action P} (h : ConnStep proto agent w c a w') (hd : d ≠ c) :
    w'.conns d = w.conns d := by
  cases h <;> exact withConn_of_ne _ _ hd

end Keyring.Service
