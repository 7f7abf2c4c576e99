/-
Crypto bootstrap, organization keys and cipher keys.

Only the flows the provider needs: derive the user key from the unlock data of a login,
rebuild the organization keys from a sync profile, and resolve the key of one cipher.
Functions that borrow the key store return what they leave in it whether or not they
succeed, because an import that fails half way has already changed it.
-/
import Keyring.Bitwarden.Auth
import Keyring.Bitwarden.KeyStore
import Keyring.Bitwarden.Models

namespace Keyring.Bitwarden

/-- `Option::context`, and `Result::context` of a crate's error.  Of the latter only the text of
the program is kept; the crate's own is printed behind it, and nothing depends on it. -/
def context {α : Type} (text : String) : Option α → Except String α
  | some a => .ok a
  | none => .error text

@[simp] theorem context_eq_ok {α : Type} {text : String} {o : Option α} {a : α} :
    context text o = .ok a ↔ o = some a := by
  cases o <;> simp [context]

/-! ### The user key -/

/-- Derived unlock inputs consumed by `bitwarden-crypto`. -/
structure BitwardenMasterPasswordUnlockData (c : CipherSuite) where
  kdf : Kdf
  masterKeyWrappedUserKey : c.EncString
  salt : String

/-- Validates KDF parameters that must be present and non-zero. -/
def parseNonzeroU32 (value : Int) : Except String NonZeroU32 :=
  if h : 0 < value.toNat ∧ value.toNat < 2 ^ 32 then .ok ⟨value.toNat, h⟩
  else .error "invalid bitwarden kdf parameter"

def parseKdf (r : MasterPasswordUnlockResponseModel) : Except String Kdf :=
  match r.kdfType with
  | .pbkdf2Sha256 => do
      let iterations ← parseNonzeroU32 r.iterations
      return .pbkdf2 iterations
  | .argon2id => do
      let iterations ← parseNonzeroU32 r.iterations
      let memory ← context "bitwarden argon2 response missing memory cost" r.memory
      let memory ← parseNonzeroU32 memory
      let parallelism ← context "bitwarden argon2 response missing parallelism" r.parallelism
      let parallelism ← parseNonzeroU32 parallelism
      return .argon2id iterations memory parallelism

/-- Converts the unlock payload into the narrower crypto parameters used locally. -/
def parseMasterPasswordUnlock (c : CipherSuite) (r : MasterPasswordUnlockResponseModel) :
    Except String (BitwardenMasterPasswordUnlockData c) := do
  let kdf ← parseKdf r
  let wrapped ← context "bitwarden unlock response missing wrapped user key"
    r.masterKeyEncryptedUserKey
  let wrapped ← context "failed to parse wrapped bitwarden user key" (c.parseEncString wrapped)
  let salt ← context "bitwarden unlock response missing salt" r.salt
  return ⟨kdf, wrapped, salt⟩

/-- Steps 1 to 3 of the bootstrap: the wrapped private key and the user key of a login. -/
def unlockUserKey (c : CipherSuite) (password : String)
    (token : BitwardenTokenSuccessResponse) :
    Except String (c.EncString × c.SymmetricCryptoKey) := do
  let privateKey ← context "bitwarden token response missing private key" token.privateKey
  let privateKey ← context "failed to parse bitwarden private key" (c.parseEncString privateKey)
  let unlock ← context "bitwarden token response missing master password unlock data"
    (token.userDecryptionOptions.bind (·.masterPasswordUnlock))
  let unlock ← parseMasterPasswordUnlock c unlock
  let masterKey ← context "invalid bitwarden kdf configuration"
    (c.derive password unlock.salt unlock.kdf)
  let userKey ← context "failed to decrypt bitwarden user key"
    (c.decryptUserKey masterKey unlock.masterKeyWrappedUserKey)
  return (privateKey, userKey)

section

variable (c : Crypto)

/-- The last write of the bootstrap, so that `User` means a complete baseline. -/
def persistUserKey (ctx : c.KeyStore) (userKeyId : BitwardenSymmetricKeyId) :
    Except String Unit × c.KeyStore :=
  match c.persistSymmetricKey ctx userKeyId .user with
  | (true, ctx) => (.ok (), ctx)
  | (false, ctx) => (.error "failed to persist bitwarden user key", ctx)

/-- Step 4 of the bootstrap: import the user key, and the private key if it unwraps. -/
def importUserKey (ctx : c.KeyStore) (privateKey : c.EncString)
    (userKey : c.SymmetricCryptoKey) : Except String Unit × c.KeyStore :=
  if c.hasSymmetricKey ctx .user then (.ok (), ctx)
  else
    let (userKeyId, ctx) := c.addLocalSymmetricKey ctx userKey
    match c.getSymmetricKeyAlgorithm ctx userKeyId with
    | .error error => (.error error, ctx)
    | .ok _ =>
        match c.unwrapPrivateKey ctx userKeyId privateKey with
        | (some privateKeyId, ctx) =>
            match c.persistAsymmetricKey ctx privateKeyId .userPrivateKey with
            | (true, ctx) => persistUserKey c ctx userKeyId
            | (false, ctx) => (.error "failed to persist bitwarden private key", ctx)
        -- Organization keys are lost then; personal items still decrypt.
        | (none, ctx) => persistUserKey c ctx userKeyId

/-- Initializes the user key and private key once from a successful token response. -/
def initializeUserCrypto (store : c.KeyStore) (password : String)
    (token : BitwardenTokenSuccessResponse) : Except String Unit × c.KeyStore :=
  match unlockUserKey c.toCipherSuite password token with
  | .error error => (.error error, store)
  | .ok (privateKey, userKey) =>
      let (result, ctx) := importUserKey c store privateKey userKey
      (result, c.endContext ctx)

/-! ### Organization keys -/

/-- The loop over the organizations of a profile. -/
def importOrgKeys (ctx : c.KeyStore) :
    List BitwardenProfileOrganization → Except String Unit × c.KeyStore
  | [] => (.ok (), ctx)
  | organization :: rest =>
      match organization.id, organization.key with
      | some id, some key =>
          match c.parseSharedKey key with
          | none =>
              (.error ("failed to parse bitwarden organization key for " ++ c.showUuid id),
                ctx)
          | some sharedKey =>
              match c.decapsulateKeyUnsigned ctx .userPrivateKey (.organization id)
                  sharedKey with
              | (true, ctx) => importOrgKeys ctx rest
              | (false, ctx) =>
                  (.error ("failed to decrypt bitwarden organization key for " ++ c.showUuid id),
                    ctx)
      | _, _ => importOrgKeys ctx rest

/-- Imports organization shared keys from the latest sync profile. -/
def initializeOrgKeys (store : c.KeyStore) (profile : BitwardenProfile) :
    Except String Unit × c.KeyStore :=
  let organizations := profile.organizations.getD []
  if organizations.isEmpty then (.ok (), store)
  else if !c.hasAsymmetricKey store .userPrivateKey then
    (.error "bitwarden user private key is missing", c.endContext store)
  else
    let ctx := c.retainSymmetricKeys store fun key => !key.isOrganization
    let (result, ctx) := importOrgKeys c ctx organizations
    (result, c.endContext ctx)

/-! ### Cipher keys and fields -/

def BitwardenSymmetricKeyId.debug (showUuid : Uuid → String) : BitwardenSymmetricKeyId → String
  | .user => "User"
  | .organization id => "Organization(" ++ showUuid id ++ ")"
  | .localKey id => "Local(" ++ toString id ++ ")"

/-- The scope of a cipher: its organization's key, else the user key. -/
def baseKey (cipher : BitwardenCipher) : BitwardenSymmetricKeyId :=
  match cipher.organizationId with
  | none => .user
  | some id => .organization id

/-- The final check of `resolveCipherKey`. -/
def requireKey (ctx : c.KeyStore) (keyId : BitwardenSymmetricKeyId) :
    Except String BitwardenSymmetricKeyId × c.KeyStore :=
  if c.hasSymmetricKey ctx keyId then (.ok keyId, ctx)
  else (.error ("missing bitwarden cipher key " ++ keyId.debug c.showUuid), ctx)

/-- Resolves the symmetric key that should decrypt one cipher payload. -/
def resolveCipherKey (ctx : c.KeyStore) (cipher : BitwardenCipher) :
    Except String BitwardenSymmetricKeyId × c.KeyStore :=
  match cipher.key.filter fun value => !isBlank value with
  | none => requireKey c ctx (baseKey cipher)
  | some key =>
      match c.parseEncString key with
      | none => (.error "failed to parse bitwarden cipher key", ctx)
      | some wrapped =>
          match c.unwrapSymmetricKey ctx (baseKey cipher) wrapped with
          | (none, ctx) => (.error "failed to unwrap bitwarden cipher key", ctx)
          | (some keyId, ctx) => requireKey c ctx keyId

/-- Decrypts an optional encrypted string field stored on a Bitwarden item. -/
def decryptOptionalString (ctx : c.KeyStore) (key : BitwardenSymmetricKeyId) :
    Option String → Except String (Option String)
  | none => .ok none
  | some value =>
      match c.parseEncString value with
      | none => .error "failed to parse bitwarden enc string"
      | some encrypted => (c.decrypt ctx key encrypted).map some

end

end Keyring.Bitwarden
