/-
The API-key token exchange with the identity endpoint.

What the network did is the input: the request failed, the body could not be read, or a
status and a body arrived.  Decoding a body into one payload shape is `serde_json` and a
parameter; which shape is tried first, and which error comes out, is the code.
-/
import Keyring.Basic

namespace Keyring.Bitwarden

/-- The key-derivation functions an unlock payload may name. -/
inductive KdfType
  | pbkdf2Sha256
  | argon2id
  deriving DecidableEq

/-- Master-password unlock payload, as far as the bootstrap reads it. -/
structure MasterPasswordUnlockResponseModel where
  kdfType : KdfType
  iterations : Int
  memory : Option Int
  parallelism : Option Int
  masterKeyEncryptedUserKey : Option String
  salt : Option String
  deriving DecidableEq

/-- User-decryption options subset needed for master-password unlock. -/
structure BitwardenUserDecryptionOptionsResponseModel where
  masterPasswordUnlock : Option MasterPasswordUnlockResponseModel
  deriving DecidableEq

/-- Minimal successful token payload required to bootstrap local crypto. -/
structure BitwardenTokenSuccessResponse where
  accessToken : String
  expiresIn : UInt64
  privateKey : Option String
  userDecryptionOptions : Option BitwardenUserDecryptionOptionsResponseModel
  deriving DecidableEq

/-- Normalized identity error payload; `message` is that of the nested error model. -/
structure BitwardenIdentityTokenFailResponse where
  error : String
  errorDescription : String
  message : String
  deriving DecidableEq

/-- The payload shapes of `/connect/token`; the two-factor payload is not looked at. -/
inductive BitwardenTokenResponse
  | success (response : BitwardenTokenSuccessResponse)
  | twoFactor
  | identityFail (response : BitwardenIdentityTokenFailResponse)
  deriving DecidableEq

/-- Local authentication error variants surfaced to the provider boundary. -/
inductive BitwardenAuthError
  | tokenRequest (error : String)
  | identityFail (response : BitwardenIdentityTokenFailResponse)
  | twoFactorRequired
  | invalidResponse
  | cryptoBootstrap (error : String)
  deriving DecidableEq

def BitwardenIdentityTokenFailResponse.display (r : BitwardenIdentityTokenFailResponse) :
    String :=
  if isBlank r.message then r.error ++ ": " ++ r.errorDescription else r.message

def BitwardenAuthError.display : BitwardenAuthError → String
  | .tokenRequest _ => "failed to request bitwarden token"
  | .identityFail r => r.display
  | .twoFactorRequired => "bitwarden requires two-factor authentication"
  | .invalidResponse => "bitwarden identity response could not be parsed"
  | .cryptoBootstrap _ => "failed to initialize bitwarden crypto"

/-- `{:#}`: the error and, behind a colon, its source. -/
def BitwardenAuthError.chain (error : BitwardenAuthError) : String :=
  match error with
  | .tokenRequest source | .cryptoBootstrap source => error.display ++ ": " ++ source
  | .identityFail _ | .twoFactorRequired | .invalidResponse => error.display

/-- What one HTTP exchange came to. -/
inductive Exchange (Body : Type)
  | failed (error : String)
  | unread (status : StatusCode) (error : String)
  | response (status : StatusCode) (body : Body)
  deriving DecidableEq

/-- `serde_json` on the three payload shapes. -/
structure TokenDecoder (Body : Type) where
  success : Body → Option BitwardenTokenSuccessResponse
  twoFactor : Body → Bool
  identityFail : Body → Option BitwardenIdentityTokenFailResponse

/-- An untagged enum takes the first shape that decodes. -/
def TokenDecoder.decode {Body : Type} (d : TokenDecoder Body) (body : Body) :
    Option BitwardenTokenResponse :=
  match d.success body with
  | some r => some (.success r)
  | none =>
      if d.twoFactor body then some .twoFactor
      else (d.identityFail body).map .identityFail

def parseToken {Body : Type} (d : TokenDecoder Body) (body : Body) :
    Except BitwardenAuthError BitwardenTokenSuccessResponse :=
  match d.decode body with
  | none => .error .invalidResponse
  | some (.success r) => .ok r
  | some .twoFactor => .error .twoFactorRequired
  | some (.identityFail r) => .error (.identityFail r)

/-- The text of the generic failure; `{status}` is printed as its code and reason. -/
def identityRequestFailed (showStatus : StatusCode → String) (status : StatusCode) : String :=
  "bitwarden identity request failed with status " ++ showStatus status

/-- Performs the API-key token exchange, given what the network did. -/
def requestApiKeyToken {Body : Type} (d : TokenDecoder Body)
    (showStatus : StatusCode → String) :
    Exchange Body → Except BitwardenAuthError BitwardenTokenSuccessResponse
  | .failed error => .error (.tokenRequest error)
  | .unread _ error => .error (.tokenRequest error)
  | .response status body =>
      if status.isSuccess then parseToken d body
      else
        -- Only the structured errors survive a non-success status.
        match parseToken d body with
        | .error (.identityFail r) => .error (.identityFail r)
        | .error .twoFactorRequired => .error .twoFactorRequired
        | _ => .error (.tokenRequest (identityRequestFailed showStatus status))

theorem parseToken_ok {Body : Type} {d : TokenDecoder Body} {body : Body}
    {r : BitwardenTokenSuccessResponse} : parseToken d body = .ok r ↔ d.success body = some r := by
  unfold parseToken TokenDecoder.decode
  cases d.success body with
  | some r' => simp
  | none => cases d.twoFactor body <;> cases d.identityFail body <;> simp

/-- A token comes only from a success status with a success payload. -/
theorem requestApiKeyToken_ok {Body : Type} {d : TokenDecoder Body}
    {showStatus : StatusCode → String} {x : Exchange Body} {r : BitwardenTokenSuccessResponse} :
    requestApiKeyToken d showStatus x = .ok r ↔
      ∃ status body, x = .response status body ∧ status.isSuccess = true ∧
        d.success body = some r := by
  constructor
  · intro h
    cases x with
    | failed error => simp [requestApiKeyToken] at h
    | unread status error => simp [requestApiKeyToken] at h
    | response status body =>
        by_cases hs : status.isSuccess = true
        · rw [requestApiKeyToken, if_pos hs] at h
          exact ⟨status, body, rfl, hs, parseToken_ok.mp h⟩
        · rw [requestApiKeyToken, if_neg hs] at h
          split at h <;> simp at h
  · rintro ⟨status, body, rfl, hs, hr⟩
    rw [requestApiKeyToken, if_pos hs]
    exact parseToken_ok.mpr hr

end Keyring.Bitwarden
