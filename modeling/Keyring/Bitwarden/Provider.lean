/-
From a sync response to SSH keys.

What a fetch does once it has a response runs without an await, and what it changes is the
key store, so each function here takes the store and returns the one it leaves.
-/
import Keyring.Bitwarden.Crypto
import Keyring.SshKey

namespace Keyring.Bitwarden

section

variable (c : Crypto) (keys : SshKeys)

/-- The comment of an identity: the trimmed item name, or a text made from the id. -/
def identityComment (showUuid : Uuid → String) (id : Uuid) (name : Option String) : String :=
  match (name.map trim).filter (· ≠ "") with
  | some name => name
  | none => "bitwarden:" ++ showUuid id

/-- Steps 1 and 2 of `key` after the item key is known, and step 3. -/
def openKey (ctx : c.KeyStore) (keyId : BitwardenSymmetricKeyId) (id : Uuid)
    (name privateKey : Option String) : Except String (Option keys.PrivateKey) := do
  let name ← decryptOptionalString c ctx keyId name
  let pem ← decryptOptionalString c ctx keyId privateKey
  match pem with
  | none => return none
  | some pem =>
      match keys.fromOpenssh pem with
      | .error _ =>
          .error ("failed to parse bitwarden ssh private key for cipher " ++ c.showUuid id)
      | .ok out => return some (keys.setComment out (identityComment c.showUuid id name))

/-- The part of `key` that holds a context of the store. -/
def decryptKey (store : c.KeyStore) (cipher : BitwardenCipher) (id : Uuid)
    (ssh : BitwardenCipherSshKey) : Except String (Option keys.PrivateKey) × c.KeyStore :=
  match resolveCipherKey c store cipher with
  | (.error error, ctx) => (.error error, c.endContext ctx)
  | (.ok keyId, ctx) => (openKey c keys ctx keyId id cipher.name ssh.privateKey, c.endContext ctx)

/-- Converts one synchronized cipher into an SSH private key when possible. -/
def key (cipher : BitwardenCipher) (store : c.KeyStore) :
    Except String (Option keys.PrivateKey) × c.KeyStore :=
  if !cipher.isSshKey then (.ok none, store)
  else if cipher.isDeleted then (.ok none, store)
  else if cipher.isArchived then (.ok none, store)
  else
    match cipher.id, cipher.sshKey with
    | none, _ => (.ok none, store)
    | _, none => (.ok none, store)
    | some id, some ssh => decryptKey c keys store cipher id ssh

/-- What the walk over the ciphers keeps of one outcome; failures are logged and skipped. -/
def kept : Except String (Option keys.PrivateKey) → List keys.PrivateKey
  | .ok (some key) => [key]
  | .ok none => []
  | .error _ => []

/-- Step 4 of a fetch: the usable keys of the ciphers, in their order. -/
def discoverKeys : List BitwardenCipher → c.KeyStore → List keys.PrivateKey × c.KeyStore
  | [], store => ([], store)
  | cipher :: rest, store =>
      let (result, store) := key c keys cipher store
      let (found, store) := discoverKeys rest store
      (kept keys result ++ found, store)

/-- Steps 3 and 4 of a fetch: the snapshot of one sync response. -/
def publish (sync : BitwardenSyncResponse) (store : c.KeyStore) :
    Except String (List keys.PrivateKey) × c.KeyStore :=
  match sync.profile with
  | none => (.error "bitwarden sync response missing profile", store)
  | some profile =>
      match initializeOrgKeys c store profile with
      | (.error error, store) => (.error error, store)
      | (.ok (), store) =>
          let (found, store) := discoverKeys c keys (sync.ciphers.getD []) store
          (.ok found, store)

end

end Keyring.Bitwarden
