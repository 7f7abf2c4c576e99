/-
From the body of an identity response to its payload.

The three payload shapes are tried in turn on one and the same value.  How the generated
client decodes the unlock payload is a parameter.
-/
import Keyring.Bitwarden.Auth
import Keyring.Lib.JsonRecord

namespace Keyring.Bitwarden

/-- An unsigned integer of 64 bits. -/
def u64 : Json → Option UInt64
  | .int n => if 0 ≤ n ∧ n.toNat < UInt64.size then some (UInt64.ofNat n.toNat) else none
  | _ => none

section

variable (unlock : Json → Option MasterPasswordUnlockResponseModel)

def decodeUserDecryptionOptions (json : Json) :
    Option BitwardenUserDecryptionOptionsResponseModel :=
  match json.recordFrom 0 [["masterPasswordUnlock", "MasterPasswordUnlock"]] with
  | some [masterPasswordUnlock] => do
      return { masterPasswordUnlock := ← masterPasswordUnlock.option unlock }
  | _ => none

def successFields : List (List String) :=
  [["access_token"], ["expires_in"], ["privateKey", "PrivateKey"],
    ["userDecryptionOptions", "UserDecryptionOptions"]]

def decodeTokenSuccess (json : Json) : Option BitwardenTokenSuccessResponse :=
  match json.recordFrom 3 successFields with
  | some [accessToken, expiresIn, privateKey, userDecryptionOptions] => do
      return {
        accessToken := ← accessToken.string
        expiresIn := ← u64 expiresIn
        privateKey := ← privateKey.option Json.string
        userDecryptionOptions :=
          ← userDecryptionOptions.option (decodeUserDecryptionOptions unlock) }
  | _ => none

end

def twoFactorFields : List (List String) :=
  [["error"], ["error_description"], ["twoFactorProviders2", "TwoFactorProviders2"]]

/-- `BTreeMap<String, Value>`. -/
def isMap : Json → Bool
  | .obj _ => true
  | _ => false

def decodeTwoFactor (json : Json) : Bool :=
  match json.record twoFactorFields with
  | some [error, errorDescription, twoFactorProviders] =>
      error.string.isSome && errorDescription.string.isSome && isMap twoFactorProviders
  | _ => false

/-- The message of a nested error model; `object` has to be there. -/
def decodeIdentityErrorModel (json : Json) : Option String :=
  match json.record [["message", "Message"], ["object", "Object"]] with
  | some [message, object] => do
      let message ← message.string
      let _ ← object.string
      return message
  | _ => none

def identityFailFields : List (List String) :=
  [["error"], ["error_description"], ["error_model", "ErrorModel"]]

def decodeIdentityFail (json : Json) : Option BitwardenIdentityTokenFailResponse :=
  match json.record identityFailFields with
  | some [error, errorDescription, errorModel] => do
      return {
        error := ← error.string
        errorDescription := ← errorDescription.string
        message := ← decodeIdentityErrorModel errorModel }
  | _ => none

/-- What reads a body and is not part of the repository. -/
structure TokenReader (Body : Type) where
  parse : Body → Option Json
  unlock : Json → Option MasterPasswordUnlockResponseModel

/-- `serde_json::from_slice` on each of the shapes. -/
def TokenReader.decoder {Body : Type} (d : TokenReader Body) : TokenDecoder Body where
  success body := (d.parse body).bind (decodeTokenSuccess d.unlock)
  twoFactor body := (d.parse body).any decodeTwoFactor
  identityFail body := (d.parse body).bind decodeIdentityFail

end Keyring.Bitwarden
