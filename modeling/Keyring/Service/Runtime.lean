/-
The agent that serves clients, and the session each client gets.

A session shares the provider list of the agent that made it.  Its key cache and its
session-bind records start empty.
-/
import Mathlib.Init

namespace Keyring.Service

/-- An agent has at least one provider. -/
structure ServiceAgent (Provider : Type*) where
  providers : List Provider
  configured : providers ≠ []

/-- What a session has of its agent. -/
structure ServiceSession (Provider : Type*) where
  providers : List Provider

namespace ServiceAgent

variable {Provider : Type*}

/-- `ServiceAgent::new`. -/
def new : List Provider → Except String (ServiceAgent Provider)
  | [] => .error "at least one provider must be configured"
  | provider :: rest => .ok ⟨provider :: rest, by simp⟩

def newSession (agent : ServiceAgent Provider) : ServiceSession Provider := ⟨agent.providers⟩

end ServiceAgent

end Keyring.Service
