/-
The cryptography the provider calls but does not contain.

`bitwarden-crypto` supplies ciphers and a key store.  The ciphers, and the text that stands
for a UUID, are functions about which nothing is assumed (`CipherSuite`).  The key store is a set of operations whose
documented behaviour is written next to them as laws: an operation acts on the ids it is
given, `retain` keeps what its predicate accepts, setting an id replaces what was there,
and keys under local ids die with the context that made them (`Crypto`).  Everything
proved later holds of any store with these laws; `Keyring/Bitwarden/MapStore.lean` is
one.

A context borrows the store mutably, so it is the store itself together with its local
keys, and `endContext` is what dropping it does.  An operation that can fail returns the
store it leaves behind in both cases.
-/
import Keyring.Basic
import Mathlib.Algebra.Group.Nat.Defs

namespace Keyring.Bitwarden

/-- Names of symmetric keys. -/
inductive BitwardenSymmetricKeyId
  | user
  | organization (id : Uuid)
  | localKey (id : Nat)
  deriving DecidableEq

/-- Names of asymmetric keys. -/
inductive BitwardenAsymmetricKeyId
  | userPrivateKey
  | localKey (id : Nat)
  deriving DecidableEq

def BitwardenSymmetricKeyId.isLocal : BitwardenSymmetricKeyId → Bool
  | .localKey _ => true
  | _ => false

def BitwardenSymmetricKeyId.isOrganization : BitwardenSymmetricKeyId → Bool
  | .organization _ => true
  | _ => false

def BitwardenAsymmetricKeyId.isLocal : BitwardenAsymmetricKeyId → Bool
  | .localKey _ => true
  | _ => false

/-- The algorithms a user key may have. -/
inductive SymmetricKeyAlgorithm
  | aes256CbcHmac
  | xChaCha20Poly1305
  deriving DecidableEq

/-- A `NonZeroU32`. -/
structure NonZeroU32 where
  val : Nat
  valid : 0 < val ∧ val < 2 ^ 32
  deriving DecidableEq

/-- Key-derivation parameters. -/
inductive Kdf
  | pbkdf2 (iterations : NonZeroU32)
  | argon2id (iterations memory parallelism : NonZeroU32)
  deriving DecidableEq

/-- Parsing, derivation and decryption.  Where the caller puts a text of its own before the
error, failure is just `none`. -/
structure CipherSuite where
  EncString : Type
  UnsignedSharedKey : Type
  MasterKey : Type
  SymmetricCryptoKey : Type
  PrivateKey : Type
  parseEncString : String → Option EncString
  parseSharedKey : String → Option UnsignedSharedKey
  /-- `MasterKey::derive`, of password, salt and parameters. -/
  derive : String → String → Kdf → Option MasterKey
  decryptUserKey : MasterKey → EncString → Option SymmetricCryptoKey
  algorithm : SymmetricCryptoKey → Except String SymmetricKeyAlgorithm
  unwrapPrivate : SymmetricCryptoKey → EncString → Option PrivateKey
  unwrapSymmetric : SymmetricCryptoKey → EncString → Option SymmetricCryptoKey
  decapsulate : PrivateKey → UnsignedSharedKey → Option SymmetricCryptoKey
  decryptText : SymmetricCryptoKey → EncString → Except String String
  /-- What `uuid` prints. -/
  showUuid : Uuid → String

/-- The key store: its operations, what it holds, and the laws between the two. -/
structure Crypto extends CipherSuite where
  KeyStore : Type
  /-- The symmetric key stored under an id. -/
  symmetric : KeyStore → BitwardenSymmetricKeyId → Option SymmetricCryptoKey
  /-- The asymmetric key stored under an id. -/
  asymmetric : KeyStore → BitwardenAsymmetricKeyId → Option PrivateKey
  default : KeyStore
  endContext : KeyStore → KeyStore
  hasSymmetricKey : KeyStore → BitwardenSymmetricKeyId → Bool
  hasAsymmetricKey : KeyStore → BitwardenAsymmetricKeyId → Bool
  addLocalSymmetricKey : KeyStore → SymmetricCryptoKey → BitwardenSymmetricKeyId × KeyStore
  getSymmetricKeyAlgorithm :
    KeyStore → BitwardenSymmetricKeyId → Except String SymmetricKeyAlgorithm
  unwrapPrivateKey : KeyStore → BitwardenSymmetricKeyId → EncString →
    Option BitwardenAsymmetricKeyId × KeyStore
  persistAsymmetricKey : KeyStore → BitwardenAsymmetricKeyId → BitwardenAsymmetricKeyId →
    Bool × KeyStore
  persistSymmetricKey : KeyStore → BitwardenSymmetricKeyId → BitwardenSymmetricKeyId →
    Bool × KeyStore
  retainSymmetricKeys : KeyStore → (BitwardenSymmetricKeyId → Bool) → KeyStore
  decapsulateKeyUnsigned : KeyStore → BitwardenAsymmetricKeyId → BitwardenSymmetricKeyId →
    UnsignedSharedKey → Bool × KeyStore
  unwrapSymmetricKey : KeyStore → BitwardenSymmetricKeyId → EncString →
    Option BitwardenSymmetricKeyId × KeyStore
  decrypt : KeyStore → BitwardenSymmetricKeyId → EncString → Except String String
  /-- The error of an operation whose key is not in the store. -/
  missingKey : BitwardenSymmetricKeyId → String
  /- Looking a key up. -/
  hasSymmetricKey_eq : ∀ s id, hasSymmetricKey s id = (symmetric s id).isSome
  hasAsymmetricKey_eq : ∀ s id, hasAsymmetricKey s id = (asymmetric s id).isSome
  algorithm_eq : ∀ s id k, symmetric s id = some k →
    getSymmetricKeyAlgorithm s id = algorithm k
  decrypt_eq : ∀ s id e, decrypt s id e =
    match symmetric s id with
    | none => .error (missingKey id)
    | some k => decryptText k e
  /- The end of a context drops the local keys and nothing else. -/
  endContext_symmetric : ∀ s id,
    symmetric (endContext s) id = if id.isLocal then none else symmetric s id
  endContext_asymmetric : ∀ s id,
    asymmetric (endContext s) id = if id.isLocal then none else asymmetric s id
  /- Making a local key. -/
  addLocal_symmetric : ∀ s k id, symmetric (addLocalSymmetricKey s k).2 id =
    if id = (addLocalSymmetricKey s k).1 then some k else symmetric s id
  addLocal_asymmetric : ∀ s k, asymmetric (addLocalSymmetricKey s k).2 = asymmetric s
  addLocal_isLocal : ∀ s k, (addLocalSymmetricKey s k).1.isLocal = true
  unwrapPrivate_ok : ∀ s base e id, (unwrapPrivateKey s base e).1 = some id →
    id.isLocal = true ∧ (asymmetric (unwrapPrivateKey s base e).2 id).isSome
  unwrapPrivate_symmetric : ∀ s base e, symmetric (unwrapPrivateKey s base e).2 = symmetric s
  unwrapPrivate_frame : ∀ s base e id, id.isLocal = false →
    asymmetric (unwrapPrivateKey s base e).2 id = asymmetric s id
  unwrapSymmetric_ok : ∀ s base e id, (unwrapSymmetricKey s base e).1 = some id →
    id.isLocal = true ∧ ∃ k, symmetric s base = some k ∧
      symmetric (unwrapSymmetricKey s base e).2 id = unwrapSymmetric k e
  unwrapSymmetric_isSome : ∀ s base e, (unwrapSymmetricKey s base e).1.isSome =
    ((symmetric s base).bind (unwrapSymmetric · e)).isSome
  unwrapSymmetric_frame : ∀ s base e id, id.isLocal = false →
    symmetric (unwrapSymmetricKey s base e).2 id = symmetric s id
  unwrapSymmetric_asymmetric : ∀ s base e,
    asymmetric (unwrapSymmetricKey s base e).2 = asymmetric s
  /- Moving a local key to a stored id. -/
  persistSymmetric_ok : ∀ s src dst, src.isLocal = true → dst.isLocal = false →
    (symmetric s src).isSome → (persistSymmetricKey s src dst).1 = true
  persistSymmetric_set : ∀ s src dst, (persistSymmetricKey s src dst).1 = true →
    symmetric (persistSymmetricKey s src dst).2 dst = symmetric s src ∧
      (symmetric s src).isSome
  persistSymmetric_frame : ∀ s src dst id, id ≠ src → id ≠ dst →
    symmetric (persistSymmetricKey s src dst).2 id = symmetric s id
  persistSymmetric_asymmetric : ∀ s src dst,
    asymmetric (persistSymmetricKey s src dst).2 = asymmetric s
  persistAsymmetric_ok : ∀ s src dst, src.isLocal = true → dst.isLocal = false →
    (asymmetric s src).isSome → (persistAsymmetricKey s src dst).1 = true
  persistAsymmetric_set : ∀ s src dst, (persistAsymmetricKey s src dst).1 = true →
    asymmetric (persistAsymmetricKey s src dst).2 dst = asymmetric s src
  persistAsymmetric_frame : ∀ s src dst id, id ≠ src → id ≠ dst →
    asymmetric (persistAsymmetricKey s src dst).2 id = asymmetric s id
  persistAsymmetric_symmetric : ∀ s src dst,
    symmetric (persistAsymmetricKey s src dst).2 = symmetric s
  /- Rebuilding the organization keys. -/
  retain_symmetric : ∀ s keep id, symmetric (retainSymmetricKeys s keep) id =
    if keep id then symmetric s id else none
  retain_asymmetric : ∀ s keep, asymmetric (retainSymmetricKeys s keep) = asymmetric s
  decapsulate_set : ∀ s base dst e, (decapsulateKeyUnsigned s base dst e).1 = true →
    ∃ p k, asymmetric s base = some p ∧ decapsulate p e = some k ∧
      symmetric (decapsulateKeyUnsigned s base dst e).2 dst = some k
  decapsulate_ok : ∀ s base dst e p k, dst.isLocal = false → asymmetric s base = some p →
    decapsulate p e = some k → (decapsulateKeyUnsigned s base dst e).1 = true
  decapsulate_frame : ∀ s base dst e id, id ≠ dst →
    symmetric (decapsulateKeyUnsigned s base dst e).2 id = symmetric s id
  decapsulate_asymmetric : ∀ s base dst e,
    asymmetric (decapsulateKeyUnsigned s base dst e).2 = asymmetric s

end Keyring.Bitwarden
