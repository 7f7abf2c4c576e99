/-
`KeyPairProvider`: what a session sees of a provider.

Loading is asynchronous, and sessions share their providers.  So a provider is a state in
which any number of `load` calls stand somewhere: a call can be begun, the provider can go
on by itself with one of them, and a call that has not returned can be dropped where it
waits.  What the caller of a call can tell is whether it has returned, and what.
-/
import Keyring.Core.Cell
import Keyring.SshKey

namespace Keyring.Core

/-- Where a `load` call stands, as far as its caller can tell. -/
inductive LoadStatus (keys : SshKeys)
  | unused
  | running
  | returned (answer : Except String (List keys.PrivateKey))
  /-- Dropped, or unwound by a panic. -/
  | gone

/-- A provider, with the `load` calls on it. -/
structure KeyPairProvider (keys : SshKeys) where
  State : Type
  Action : Type
  load : State → CallId → Option State
  /-- The provider goes on with a call, or time passes for it. -/
  step : State → Action → Option State
  drop : State → CallId → Option State
  status : State → CallId → LoadStatus keys

end Keyring.Core
