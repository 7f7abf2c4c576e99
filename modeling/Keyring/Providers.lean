/-
The two kinds of provider there are.

A dummy provider has its identities from the start, and its `load` does not wait.  The
loads of a Bitwarden provider are those of `Keyring/Bitwarden/Load.lean`; a state of it is
one that they can lead to.
-/
import Keyring.Bitwarden.Load
import Keyring.Core.Provider

namespace Keyring

open Keyring.Core

/-! ### Configurations -/

structure DummyProviderConfig where
  name : String
  deriving DecidableEq

structure BitwardenProviderConfig where
  name : String
  apiUrl : String
  identityUrl : String
  clientId : String
  clientSecret : String
  password : String
  deriving DecidableEq

/-- What the program is built with besides its own code: keys from seeds, and what a
Bitwarden session calls.  Only the password of the latter is configured. -/
structure Toolchain (keys : SshKeys) where
  fromSeed : List UInt8 → keys.PrivateKey
  env : Bitwarden.Env

/-- A configured provider. -/
inductive Provider (keys : SshKeys)
  | dummy (identities : List keys.PrivateKey)
  | bitwarden (config : BitwardenProviderConfig) (env : Bitwarden.Env)

section

variable {keys : SshKeys} (tools : Toolchain keys)

/-- `DummyProvider::try_from`. -/
def DummyProvider.tryFrom (config : DummyProviderConfig) : Except String (Provider keys) :=
  if trim config.name = "" then .error "dummy provider name must not be empty"
  else .ok (.dummy [tools.fromSeed (List.replicate 32 7)])

/-- `BitwardenProvider::try_from`. -/
def BitwardenProvider.tryFrom (config : BitwardenProviderConfig) :
    Except String (Provider keys) :=
  if trim config.name = "" then .error "bitwarden provider name must not be empty"
  else .ok (.bitwarden config { tools.env with password := config.password })

end

/-! ### Loading -/

/-- The loads of a dummy provider: the calls there have been. -/
def DummyProvider.loads {keys : SshKeys} (identities : List keys.PrivateKey) :
    KeyPairProvider keys where
  State := List CallId
  Action := Empty
  load calls i := if i ∈ calls then none else some (i :: calls)
  step _ a := nomatch a
  drop _ _ := none
  status calls i := if i ∈ calls then .returned (.ok identities) else .unused

namespace BitwardenProvider

open Bitwarden

variable {env : Env} {keys : SshKeys}

/-- Where the loads of a new provider can lead. -/
abbrev State (env : Env) (keys : SshKeys) :=
  { w : LoadWorld env keys // (loadMachine env keys).Reachable w }

def start (env : Env) (keys : SshKeys) (clock : Instant) : State env keys :=
  ⟨.start env keys clock, Machine.Reachable.init ⟨clock, rfl⟩⟩

def act (s : State env keys) (a : LoadAction env.Body) : Option (State env keys) :=
  match h : s.1.step a with
  | some w => some ⟨w, s.2.step (a := a) h⟩
  | none => none

/-- Loads are begun and dropped by those who call them. -/
def isOwn {Body : Type} : LoadAction Body → Bool
  | .begin _ | .cancel _ => false
  | _ => true

def statusOf : Core.Pc (KeyPairSnapshot keys) String → LoadStatus keys
  | .idle => .unused
  | .read _ _ | .write _ _ | .init _ _ => .running
  | .done answer => .returned answer
  | .cancelled => .gone

/-- The loads of a Bitwarden provider. -/
def loads (env : Env) (keys : SshKeys) : KeyPairProvider keys where
  State := State env keys
  Action := { a : LoadAction env.Body // isOwn a = true }
  load s i := act s (.begin i)
  step s a := act s a.1
  drop s i := act s (.cancel i)
  status s i := statusOf (s.1.cache.calls i)

end BitwardenProvider

/-- The loads of a configured provider. -/
def Provider.loads {keys : SshKeys} : Provider keys → KeyPairProvider keys
  | .dummy identities => DummyProvider.loads identities
  | .bitwarden _ env => BitwardenProvider.loads env keys

end Keyring
