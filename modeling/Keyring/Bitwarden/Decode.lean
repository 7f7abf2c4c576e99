/-
From the body of a sync response to SSH keys.

The models decode from the whole body at once: the ciphers are a list inside the response,
so they are decoded before the walk of the fetch sees the first of them.
-/
import Keyring.Bitwarden.Provider
import Keyring.Bitwarden.Session
import Keyring.Lib.Json

namespace Keyring.Bitwarden

/-! ### The models -/

section

variable (parseUuid : String → Option Uuid)

/-- An id is a text that `parseUuid` can read. -/
def decodeUuid (json : Json) : Option Uuid := json.string.bind parseUuid

def decodeCipherSshKey (json : Json) : Option BitwardenCipherSshKey :=
  match json.record [["privateKey", "PrivateKey"]] with
  | some [privateKey] => do return { privateKey := ← privateKey.option Json.string }
  | _ => none

def cipherFields : List (List String) :=
  [["id", "Id"], ["organizationId", "OrganizationId"], ["type", "Type"], ["name", "Name"],
    ["deletedDate", "DeletedDate"], ["archivedDate", "ArchivedDate"], ["key", "Key"],
    ["sshKey", "SshKey"]]

def decodeCipher (json : Json) : Option BitwardenCipher :=
  match json.record cipherFields with
  | some [id, organizationId, type, name, deletedDate, archivedDate, key, sshKey] => do
      return {
        id := ← id.option (decodeUuid parseUuid)
        organizationId := ← organizationId.option (decodeUuid parseUuid)
        type := ← type.option Json.i64
        name := ← name.option Json.string
        deletedDate := ← deletedDate.option Json.string
        archivedDate := ← archivedDate.option Json.string
        key := ← key.option Json.string
        sshKey := ← sshKey.option decodeCipherSshKey }
  | _ => none

def decodeProfileOrganization (json : Json) : Option BitwardenProfileOrganization :=
  match json.record [["id", "Id"], ["key", "Key"]] with
  | some [id, key] => do
      return { id := ← id.option (decodeUuid parseUuid), key := ← key.option Json.string }
  | _ => none

def decodeProfile (json : Json) : Option BitwardenProfile :=
  match json.record [["organizations", "Organizations"]] with
  | some [organizations] => do
      return {
        organizations := ← organizations.option (Json.vec (decodeProfileOrganization parseUuid)) }
  | _ => none

def profileNames : List String := ["profile", "Profile"]

def ciphersNames : List String := ["ciphers", "Ciphers"]

def decodeSyncResponse (json : Json) : Option BitwardenSyncResponse :=
  match json.record [profileNames, ciphersNames] with
  | some [profile, ciphers] => do
      return {
        profile := ← profile.option (decodeProfile parseUuid)
        ciphers := ← ciphers.option (Json.vec (decodeCipher parseUuid)) }
  | _ => none

end

/-! ### A fetch that has its body -/

/-- What reads a body and is not part of the repository: the parser of JSON, that of UUIDs,
and the words of a failure. -/
structure JsonReader (Body : Type) where
  parse : Body → Option Json
  parseUuid : String → Option Uuid
  describe : Body → String

/-- `serde_json::from_slice`. -/
def JsonReader.decodeSync {Body : Type} (d : JsonReader Body) (body : Body) :
    Except String BitwardenSyncResponse :=
  match (d.parse body).bind (decodeSyncResponse d.parseUuid) with
  | some response => .ok response
  | none => .error (d.describe body)

/-- An environment whose sync responses are read from JSON. -/
def Env.reading (env : Env) (d : JsonReader env.Body) : Env :=
  { env with decodeSync := d.decodeSync }

/-- What a fetch comes to once the body of a success has arrived, and the store it leaves. -/
def fetchBody (env : Env) (keys : SshKeys) (store : env.crypto.KeyStore) (body : env.Body) :
    Except String (List keys.PrivateKey) × env.crypto.KeyStore :=
  match env.decodeSync body with
  | .error error => (.error ((SyncError.decode error).chain env.showStatus), store)
  | .ok response => publish env.crypto keys response store

end Keyring.Bitwarden
