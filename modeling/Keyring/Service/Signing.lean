/-
Signing one payload with one key.

An error of a callee keeps its text, behind the text of the caller and a colon, which is
how the program prints it.
-/
import Keyring.SshKey

namespace Keyring.Service

/-- The least size of an RSA key that signs. -/
def rsaMinBits : Nat := 2048

def rsaSha2256 : UInt32 := 2

def rsaSha2512 : UInt32 := 4

/-- `Result::context`. -/
def withContext {α : Type} (text : String) : Except String α → Except String α
  | .ok a => .ok a
  | .error error => .error (text ++ ": " ++ error)

/-- The hash the flags ask for. -/
def requestedHash (flags : UInt32) : Except String HashAlg :=
  if flags &&& rsaSha2256 ≠ 0 then .ok .sha256
  else if flags &&& rsaSha2512 ≠ 0 then .ok .sha512
  else .error "identity only supports rsa-sha2-256 and rsa-sha2-512"

/-- How `sig` ends: it returns, or it panics. -/
inductive SigOutcome
  | returned (result : Except String Signature)
  | unreachable
  deriving DecidableEq

variable (keys : SshKeys)

/-- The signing key, from the published modulus and exponent and both stored primes. -/
def rsaSigningKey (key : RsaKeypair) : Except String RsaPrivateKey := do
  let n ← keys.bigUint key.publicKey.n
  let e ← keys.bigUint key.publicKey.e
  let d ← keys.bigUint key.privateKey.d
  let p ← keys.bigUint key.privateKey.p
  let q ← keys.bigUint key.privateKey.q
  withContext "identity failed to prepare rsa signing" (keys.fromComponents n e d [p, q])

/-- The signature of a payload under a hash; `none` is the arm that is never taken. -/
def rsaSignature (key : RsaPrivateKey) (data : List UInt8) :
    HashAlg → Option (Except String (List UInt8))
  | .sha256 => some (withContext "identity failed to sign" (keys.pkcs1v15 .sha256 key data))
  | .sha512 => some (withContext "identity failed to sign" (keys.pkcs1v15 .sha512 key data))
  | .other => none

/-- The RSA branch of `sig`, once the hash is known. -/
def sigRsa (key : keys.PrivateKey) (data : List UInt8) (hash : HashAlg) : SigOutcome :=
  match keys.rsa key with
  | none => .returned (.error "identity is not an rsa key")
  | some pair =>
      match rsaSigningKey keys pair with
      | .error error => .returned (.error error)
      | .ok key =>
          if keys.rsaSize key * 8 < rsaMinBits then
            .returned (.error "identity rsa key is too small")
          else
            match rsaSignature keys key data hash with
            | none => .unreachable
            | some (.error error) => .returned (.error error)
            | some (.ok signature) =>
                .returned (withContext "identity produced an invalid rsa signature"
                  (keys.signatureNew (.rsa (some hash)) signature))

/-- Produces a protocol-compatible signature for the requested key and algorithm flags. -/
def sig (key : keys.PrivateKey) (data : List UInt8) (flags : UInt32) : SigOutcome :=
  match keys.algorithm key with
  | .ed25519 => .returned (withContext "identity failed to sign" (keys.trySign key data))
  | .rsa _ =>
      match requestedHash flags with
      | .error error => .returned (.error error)
      | .ok hash => sigRsa keys key data hash
  | .other _ => .returned (.error "identity uses an unsupported key algorithm")

end Keyring.Service
