/-
The keys and signers the program calls but does not contain.

`ssh-key` has the key types and their text form, `rsa` the arithmetic.  Of both only what
is called appears here, and what a client reads off a key it is offered.  Public keys are
told apart, hashed and ordered by their blobs, and the three agree, which is what a linear
order says.
-/
import Mathlib.Data.Nat.Basic
import Mathlib.Data.Nat.Size
import Mathlib.Order.Basic

namespace Keyring

/-- Hashes of a signature; the type has room for more than the two that exist. -/
inductive HashAlg
  | sha256
  | sha512
  | other
  deriving DecidableEq

inductive Algorithm
  | ed25519
  | rsa (hash : Option HashAlg)
  | other (name : String)
  deriving DecidableEq

/-- The public part of an RSA key pair.  The integers of `ssh-key` have a sign. -/
structure RsaPublicKey where
  e : Int
  n : Int
  deriving DecidableEq

/-- The private part of an RSA key pair, without the coefficient, which nothing reads. -/
structure RsaPrivateComponents where
  d : Int
  p : Int
  q : Int
  deriving DecidableEq

structure RsaKeypair where
  publicKey : RsaPublicKey
  privateKey : RsaPrivateComponents
  deriving DecidableEq

/-- A private key of the `rsa` crate. -/
structure RsaPrivateKey where
  n : Nat
  e : Nat
  d : Nat
  primes : List Nat
  deriving DecidableEq

/-- Digest types a signer can be instantiated with. -/
inductive Digest
  | sha256
  | sha512
  deriving DecidableEq

structure Signature where
  algorithm : Algorithm
  data : List UInt8
  deriving DecidableEq

/-- The key types, what can be read off a key, and the signers. -/
structure SshKeys where
  KeyData : Type
  PrivateKey : Type
  [order : LinearOrder KeyData]
  [hashable : Hashable KeyData]
  /-- `KeyData::from`. -/
  publicKey : PrivateKey → KeyData
  comment : PrivateKey → String
  setComment : PrivateKey → String → PrivateKey
  algorithm : PrivateKey → Algorithm
  /-- `key_data().rsa()`. -/
  rsa : PrivateKey → Option RsaKeypair
  /-- `KeyData::rsa`, which a client reads. -/
  rsaPublic : KeyData → Option RsaPublicKey
  fromOpenssh : String → Except String PrivateKey
  /-- Signing of a key pair by itself. -/
  trySign : PrivateKey → List UInt8 → Except String Signature
  /-- `BigUint::try_from`. -/
  bigUint : Int → Except String Nat
  fromComponents : Nat → Nat → Nat → List Nat → Except String RsaPrivateKey
  /-- `RsaPrivateKey::size`: the bytes of the modulus. -/
  rsaSize : RsaPrivateKey → Nat
  /-- `SigningKey::<D>::new(key).try_sign(data)`. -/
  pkcs1v15 : Digest → RsaPrivateKey → List UInt8 → Except String (List UInt8)
  signatureNew : Algorithm → List UInt8 → Except String Signature
  publicKey_setComment : ∀ key comment, publicKey (setComment key comment) = publicKey key
  comment_setComment : ∀ key text, comment (setComment key text) = text
  /-- How `ssh-key` prints the one error of the conversion. -/
  bigUint_error : ∀ n error, bigUint n = .error error → error = "cryptographic error"

attribute [instance] SshKeys.order SshKeys.hashable

/-- The conversion of an integer above 0; for the others there is none. -/
def positiveBigUint (n : Int) : Except String Nat :=
  if 0 < n then .ok n.toNat else .error "cryptographic error"

theorem positiveBigUint_eq_ok {n : Int} {m : Nat} :
    positiveBigUint n = .ok m ↔ n = (m : Int) ∧ 0 < m := by
  unfold positiveBigUint
  by_cases hn : 0 < n
  · rw [if_pos hn]
    constructor
    · intro h
      have hm := Except.ok.inj h
      omega
    · rintro ⟨rfl, -⟩
      rfl
  · rw [if_neg hn]
    constructor
    · intro h
      cases h
    · intro h
      omega

theorem positiveBigUint_error (n : Int) (error : String)
    (h : positiveBigUint n = .error error) : error = "cryptographic error" := by
  unfold positiveBigUint at h
  split at h
  · cases h
  · exact (Except.error.inj h).symm

/-- Keys that are a number with a comment; every text is a key, numbered by its length. -/
def plainKeys : SshKeys where
  KeyData := Nat
  PrivateKey := Nat × String
  publicKey key := key.1
  comment key := key.2
  setComment key comment := (key.1, comment)
  algorithm _ := .ed25519
  rsa _ := none
  rsaPublic _ := none
  fromOpenssh text := .ok (text.length, "")
  trySign key _ := .ok ⟨.ed25519, [UInt8.ofNat key.1]⟩
  bigUint := positiveBigUint
  fromComponents n e d primes := .ok ⟨n, e, d, primes⟩
  rsaSize key := (Nat.size key.n + 7) / 8
  pkcs1v15 _ _ _ := .ok []
  signatureNew algorithm data := .ok ⟨algorithm, data⟩
  publicKey_setComment _ _ := rfl
  comment_setComment _ _ := rfl
  bigUint_error := positiveBigUint_error

end Keyring
