/-
The configuration file.

Parsing TOML is left to a parameter, and so is reading the file; of a failure of either the
context that the program gives it is kept.  A document is a table, and so is not read by
position, as the entries of its sections may be.
-/
import Keyring.Cli.Serve
import Keyring.Lib.Toml
import Keyring.Providers

namespace Keyring.Cli

open Keyring.Service

/-! ### Decoding -/

def DummyProviderConfig.decode (value : Toml) : Option DummyProviderConfig :=
  match Toml.texts ["name"] value with
  | some [name] => some { name }
  | _ => none

def BitwardenProviderConfig.decode (value : Toml) : Option BitwardenProviderConfig :=
  match Toml.texts ["name", "api_url", "identity_url", "client_id", "client_secret", "password"]
    value with
  | some [name, apiUrl, identityUrl, clientId, clientSecret, password] =>
      some { name, apiUrl, identityUrl, clientId, clientSecret, password }
  | _ => none

@[ext]
structure Config where
  dummy : List DummyProviderConfig
  bitwarden : List BitwardenProviderConfig
  deriving DecidableEq

namespace Config

def decode (entries : List (String × Toml)) : Option Config :=
  match Toml.record ["dummy", "bitwarden"] (.table entries) with
  | some [dummy, bitwarden] => do
      pure
        { dummy := ← Toml.defaulted (Toml.vec DummyProviderConfig.decode) dummy
          bitwarden := ← Toml.defaulted (Toml.vec BitwardenProviderConfig.decode) bitwarden }
  | _ => none

/-- `Config::new`, of what reading the file at this path gives. -/
def new (path : String) (parse : String → Option (List (String × Toml))) :
    Except String String → Except String Config
  | .error _ => .error s!"failed to read config {path}"
  | .ok source =>
      match (parse source).bind decode with
      | none => .error s!"failed to parse config {path}"
      | some config => .ok config

/-- `Config::providers`. -/
def providers {keys : SshKeys} (tools : Toolchain keys) (config : Config) :
    Except String (List (Provider keys)) :=
  (config.dummy.map (DummyProvider.tryFrom tools) ++
    config.bitwarden.map (BitwardenProvider.tryFrom tools)).mapM id

end Config

/-! ### Loading -/

/-- What the program runs with: what it is built with, where its configuration is, and the
TOML parser. -/
structure Setup (keys : SshKeys) where
  tools : Toolchain keys
  path : String
  parse : String → Option (List (String × Toml))

/-- The providers that a configuration file asks for. -/
def Setup.configured {keys : SshKeys} (setup : Setup keys) (file : Except String String) :
    Except String (List (Provider keys)) :=
  (Config.new setup.path setup.parse file).bind (Config.providers setup.tools)

/-- `load`. -/
def Setup.load {keys : SshKeys} (setup : Setup keys) (file : Except String String) :
    Except String (ServiceAgent (Provider keys)) :=
  Serve.load (setup.configured file)

end Keyring.Cli
