/-
What a returned signature is.

Three places choose a hash: the flags, the digest the signer is instantiated with, and the
name in the signature.  They are shown to agree for every flags word, so nothing but SHA-2
is ever signed with an RSA key, and under the laws of the `rsa` crate what is signed verifies
under the key that is published.
-/
import Keyring.Lib.Rsa
import Keyring.Proofs.Service.Listing
import Mathlib.NumberTheory.LucasLehmer

namespace Keyring

/-- The description of a hash that is signed along with the digest. -/
def Digest.info : Digest → List UInt8
  | .sha256 => [0x30, 0x31, 0x30, 0x0d, 0x06, 0x09, 0x60, 0x86, 0x48, 0x01, 0x65, 0x03, 0x04,
      0x02, 0x01, 0x05, 0x00, 0x04, 0x20]
  | .sha512 => [0x30, 0x51, 0x30, 0x0d, 0x06, 0x09, 0x60, 0x86, 0x48, 0x01, 0x65, 0x03, 0x04,
      0x02, 0x03, 0x05, 0x00, 0x04, 0x40]

/-- The name of a digest in a signature. -/
def Digest.hashAlg : Digest → HashAlg
  | .sha256 => .sha256
  | .sha512 => .sha512

/-- What the crates do when they succeed.  `hash` is SHA-2. -/
structure SignerLaws (keys : SshKeys) (hash : Digest → List UInt8 → List UInt8) : Prop where
  /-- The public key of a pair is that of its private key. -/
  publicKey : ∀ key pair, keys.rsa key = some pair →
    keys.rsaPublic (keys.publicKey key) = some pair.publicKey
  /-- What is converted keeps its value. -/
  bigUint : ∀ n m, keys.bigUint n = .ok m → n = (m : Int)
  rsaSize : ∀ key, keys.rsaSize key = Rsa.octetLength key.n
  /-- An Ed25519 key signs with Ed25519. -/
  trySign : ∀ key data signature, keys.algorithm key = .ed25519 →
    keys.trySign key data = .ok signature → signature.algorithm = .ed25519
  /-- A private key has the components it is made from. -/
  fromComponents : ∀ n e d primes key, keys.fromComponents n e d primes = .ok key →
    key = ⟨n, e, d, primes⟩
  /-- Inconsistent components are refused. -/
  consistent : ∀ n e d p q key, keys.fromComponents n e d [p, q] = .ok key →
    n = p * q ∧ Rsa.Inverse p q e d
  pkcs1v15 : ∀ digest key data signature, keys.pkcs1v15 digest key data = .ok signature →
    Rsa.sign key.n key.d digest.info (hash digest data) = some signature
  signatureNew : ∀ algorithm data signature, keys.signatureNew algorithm data = .ok signature →
    signature = ⟨algorithm, data⟩

end Keyring

namespace Keyring.Service

variable {keys : SshKeys} {hash : Digest → List UInt8 → List UInt8} {key : keys.PrivateKey}
  {data : List UInt8} {flags : UInt32}

/-! ### Flags -/

/-- The digest the flags ask for, if they ask for any. -/
def requestedDigest (flags : UInt32) : Digest :=
  if flags &&& rsaSha2256 ≠ 0 then .sha256 else .sha512

theorem requestedHash_ok {h : HashAlg} (heq : requestedHash flags = .ok h) :
    (flags &&& rsaSha2256 ≠ 0 ∨ flags &&& rsaSha2512 ≠ 0) ∧
      h = (requestedDigest flags).hashAlg := by
  unfold requestedHash at heq
  unfold requestedDigest
  by_cases h256 : flags &&& rsaSha2256 ≠ 0
  · rw [if_pos h256] at heq ⊢
    exact ⟨Or.inl h256, (Except.ok.inj heq).symm⟩
  · rw [if_neg h256] at heq ⊢
    by_cases h512 : flags &&& rsaSha2512 ≠ 0
    · rw [if_pos h512] at heq
      exact ⟨Or.inr h512, (Except.ok.inj heq).symm⟩
    · rw [if_neg h512] at heq
      cases heq

/-- No bit but the two of SHA-2 is looked at. -/
theorem requestedHash_mask (flags : UInt32) :
    requestedHash (flags &&& (rsaSha2256 ||| rsaSha2512)) = requestedHash flags := by
  have h256 : flags &&& (rsaSha2256 ||| rsaSha2512) &&& rsaSha2256 = flags &&& rsaSha2256 := by
    rw [UInt32.and_assoc]
    rfl
  have h512 : flags &&& (rsaSha2256 ||| rsaSha2512) &&& rsaSha2512 = flags &&& rsaSha2512 := by
    rw [UInt32.and_assoc]
    rfl
  unfold requestedHash
  rw [h256, h512]

theorem sig_congr {flags' : UInt32} (h : requestedHash flags = requestedHash flags')
    (key : keys.PrivateKey) (data : List UInt8) :
    sig keys key data flags = sig keys key data flags' := by
  unfold sig
  rw [h]

/-! ### The signing key -/

theorem withContext_ok {α : Type} {text : String} {result : Except String α} {a : α} :
    withContext text result = .ok a ↔ result = .ok a := by
  cases result with
  | error error => simp [withContext]
  | ok b => simp [withContext]

theorem bind_ok {α β : Type} {result : Except String α} {f : α → Except String β} {b : β} :
    result >>= f = .ok b ↔ ∃ a, result = .ok a ∧ f a = .ok b := by
  cases result with
  | error error => simp [bind, Except.bind]
  | ok a => simp [bind, Except.bind]

/-- The signing key is made of the numbers that the published modulus and exponent and both
stored primes convert to. -/
theorem rsaSigningKey_ok {pair : RsaKeypair} {k : RsaPrivateKey} :
    rsaSigningKey keys pair = .ok k ↔
      ∃ n, keys.bigUint pair.publicKey.n = .ok n ∧ ∃ e, keys.bigUint pair.publicKey.e = .ok e ∧
        ∃ d, keys.bigUint pair.privateKey.d = .ok d ∧
          ∃ p, keys.bigUint pair.privateKey.p = .ok p ∧
            ∃ q, keys.bigUint pair.privateKey.q = .ok q ∧
              keys.fromComponents n e d [p, q] = .ok k := by
  unfold rsaSigningKey
  simp only [bind_ok, withContext_ok]

/-- **The signing key is made of the published modulus and exponent and of both stored
primes.** -/
theorem pair_of_rsaSigningKey (laws : SignerLaws keys hash) {pair : RsaKeypair}
    {k : RsaPrivateKey} (h : rsaSigningKey keys pair = .ok k) :
    ∃ n e d p q : Nat, pair = ⟨⟨e, n⟩, ⟨d, p, q⟩⟩ ∧
      keys.fromComponents n e d [p, q] = .ok k := by
  obtain ⟨n, hn, e, he, d, hd, p, hp, q, hq, hmade⟩ := rsaSigningKey_ok.mp h
  refine ⟨n, e, d, p, q, ?_, hmade⟩
  obtain ⟨⟨e', n'⟩, ⟨d', p', q'⟩⟩ := pair
  obtain rfl : n' = n := laws.bigUint n' n hn
  obtain rfl : e' = e := laws.bigUint e' e he
  obtain rfl : d' = d := laws.bigUint d' d hd
  obtain rfl : p' = p := laws.bigUint p' p hp
  obtain rfl : q' = q := laws.bigUint q' q hq
  rfl

/-! ### What is signed -/

theorem rsaSignature_eq (k : RsaPrivateKey) (data : List UInt8) (digest : Digest) :
    rsaSignature keys k data digest.hashAlg =
      some (withContext "identity failed to sign" (keys.pkcs1v15 digest k data)) := by
  cases digest with
  | sha256 => rfl
  | sha512 => rfl

/-- The RSA branch returns a signature only through each of its steps. -/
theorem sigRsa_ok {digest : Digest} {signature : Signature}
    (h : sigRsa keys key data digest.hashAlg = .returned (.ok signature)) :
    ∃ pair k octets, keys.rsa key = some pair ∧ rsaSigningKey keys pair = .ok k ∧
      rsaMinBits ≤ keys.rsaSize k * 8 ∧ keys.pkcs1v15 digest k data = .ok octets ∧
      keys.signatureNew (.rsa (some digest.hashAlg)) octets = .ok signature := by
  unfold sigRsa at h
  cases hpair : keys.rsa key with
  | none => simp [hpair] at h
  | some pair =>
      cases hk : rsaSigningKey keys pair with
      | error error => simp [hpair, hk] at h
      | ok k =>
          simp only [hpair, hk, rsaSignature_eq] at h
          by_cases hsmall : keys.rsaSize k * 8 < rsaMinBits
          · rw [if_pos hsmall] at h
            cases h
          · rw [if_neg hsmall] at h
            cases hsign : keys.pkcs1v15 digest k data with
            | error error => simp [hsign, withContext] at h
            | ok octets =>
                simp only [hsign, withContext, SigOutcome.returned.injEq] at h
                exact ⟨pair, k, octets, rfl, hk, Nat.le_of_not_lt hsmall, hsign,
                  withContext_ok.mp h⟩

/-- Where each step succeeds, so does the branch. -/
theorem sigRsa_of_steps {digest : Digest} {signature : Signature} {pair : RsaKeypair}
    {k : RsaPrivateKey} {octets : List UInt8} (hpair : keys.rsa key = some pair)
    (hk : rsaSigningKey keys pair = .ok k) (hsize : rsaMinBits ≤ keys.rsaSize k * 8)
    (hsign : keys.pkcs1v15 digest k data = .ok octets)
    (hnew : keys.signatureNew (.rsa (some digest.hashAlg)) octets = .ok signature) :
    sigRsa keys key data digest.hashAlg = .returned (.ok signature) := by
  unfold sigRsa
  simp only [hpair, hk, rsaSignature_eq, hsign]
  rw [if_neg (Nat.not_lt_of_le hsize)]
  exact congrArg SigOutcome.returned (withContext_ok.mpr hnew)

theorem sigRsa_ne_unreachable (key : keys.PrivateKey) (data : List UInt8) (digest : Digest) :
    sigRsa keys key data digest.hashAlg ≠ .unreachable := by
  unfold sigRsa
  cases keys.rsa key with
  | none => simp
  | some pair =>
      cases hk : rsaSigningKey keys pair with
      | error error => simp [hk]
      | ok k =>
          simp only [hk, rsaSignature_eq]
          by_cases hsmall : keys.rsaSize k * 8 < rsaMinBits
          · simp [hsmall]
          · rw [if_neg hsmall]
            cases keys.pkcs1v15 digest k data with
            | error error => simp [withContext]
            | ok octets => simp [withContext]

/-- **The arm for other hashes is never taken.** -/
theorem sig_ne_unreachable (key : keys.PrivateKey) (data : List UInt8) (flags : UInt32) :
    sig keys key data flags ≠ .unreachable := by
  unfold sig
  cases keys.algorithm key with
  | ed25519 => simp
  | other name => simp
  | rsa _ =>
      cases hhash : requestedHash flags with
      | error error => simp
      | ok h =>
          simp only
          rw [(requestedHash_ok hhash).2]
          exact sigRsa_ne_unreachable key data _

/-- A signature verifies under a listed key, with the hash that it names. -/
def Verifies (keys : SshKeys) (hash : Digest → List UInt8 → List UInt8)
    (listed : keys.KeyData) (data : List UInt8) (signature : Signature) : Prop :=
  ∃ n e : Nat, ∃ digest : Digest, keys.rsaPublic listed = some ⟨e, n⟩ ∧
    signature.algorithm = .rsa (some digest.hashAlg) ∧
      Rsa.verify n e digest.info (hash digest data) signature.data = true

/-- An RSA signature that has been returned, for what the key publishes and what the flags
ask for. -/
structure RsaSigned (keys : SshKeys) (hash : Digest → List UInt8 → List UInt8)
    (key : keys.PrivateKey) (data : List UInt8) (flags : UInt32) (signature : Signature)
    (n e d p q : Nat) : Prop where
  /-- The components are the published ones and the stored ones, and they fit. -/
  pair : keys.rsa key = some ⟨⟨e, n⟩, ⟨d, p, q⟩⟩
  listed : keys.rsaPublic (keys.publicKey key) = some ⟨e, n⟩
  signingKey : keys.fromComponents n e d [p, q] = .ok ⟨n, e, d, [p, q]⟩
  consistent : n = p * q ∧ Rsa.Inverse p q e d
  size : 256 ≤ Rsa.octetLength n
  requested : flags &&& rsaSha2256 ≠ 0 ∨ flags &&& rsaSha2512 ≠ 0
  /-- The hash named is the hash used. -/
  named : signature.algorithm = .rsa (some (requestedDigest flags).hashAlg)
  used : Rsa.sign n d (requestedDigest flags).info (hash (requestedDigest flags) data) =
    some signature.data
  verifies : p.Prime → q.Prime → p ≠ q →
    Verifies keys hash (keys.publicKey key) data signature

/-- What `sig` does with a key, a payload and a flags word. -/
structure SigSound (keys : SshKeys) (hash : Digest → List UInt8 → List UInt8)
    (key : keys.PrivateKey) (data : List UInt8) (flags : UInt32) : Prop where
  reached : sig keys key data flags ≠ .unreachable
  /-- Two bits of the flags count, and SHA-256 comes first. -/
  masked : sig keys key data flags = sig keys key data (flags &&& (rsaSha2256 ||| rsaSha2512))
  sha256First : flags &&& rsaSha2256 ≠ 0 →
    sig keys key data flags = sig keys key data rsaSha2256
  signed : ∀ signature, sig keys key data flags = .returned (.ok signature) →
    signature.algorithm ≠ .rsa none ∧
      (keys.algorithm key = .ed25519 ∧ signature.algorithm = .ed25519 ∨
        (∃ h, keys.algorithm key = .rsa h) ∧
          ∃ n e d p q, RsaSigned keys hash key data flags signature n e d p q)

theorem rsaSigned_of_sigRsa (laws : SignerLaws keys hash) {h : HashAlg} {signature : Signature}
    (hhash : requestedHash flags = .ok h)
    (hsig : sigRsa keys key data h = .returned (.ok signature)) :
    ∃ n e d p q, RsaSigned keys hash key data flags signature n e d p q := by
  obtain ⟨hrequested, rfl⟩ := requestedHash_ok hhash
  obtain ⟨pair, k, octets, hpair, hk, hsize, hsign, hnew⟩ := sigRsa_ok hsig
  obtain ⟨n, e, d, p, q, rfl, hmade⟩ := pair_of_rsaSigningKey laws hk
  obtain rfl := laws.fromComponents n e d [p, q] k hmade
  obtain ⟨hn, hinv⟩ := laws.consistent n e d p q _ hmade
  have hused := laws.pkcs1v15 _ _ _ _ hsign
  have hlisted := laws.publicKey _ _ hpair
  obtain rfl := laws.signatureNew _ _ _ hnew
  refine ⟨n, e, d, p, q, hpair, hlisted, hmade, ⟨hn, hinv⟩, ?_, hrequested, rfl, hused, ?_⟩
  · have hbits : 2048 ≤ Rsa.octetLength n * 8 := laws.rsaSize ⟨n, e, d, [p, q]⟩ ▸ hsize
    omega
  · intro hp hq hne
    subst hn
    exact ⟨_, e, _, hlisted, rfl, Rsa.verify_sign hp hq hne hinv hused⟩

/-- **Every signature is of the kind its key and the flags call for, and every RSA signature
verifies under the key that is listed.** -/
theorem sig_sound (laws : SignerLaws keys hash) (key : keys.PrivateKey) (data : List UInt8)
    (flags : UInt32) : SigSound keys hash key data flags where
  reached := sig_ne_unreachable key data flags
  masked := sig_congr (requestedHash_mask flags).symm key data
  sha256First h := by
    refine sig_congr ?_ key data
    unfold requestedHash
    rw [if_pos h]
    rfl
  signed signature hsig := by
    unfold sig at hsig
    cases halgorithm : keys.algorithm key with
    | other name => simp [halgorithm] at hsig
    | ed25519 =>
        simp only [halgorithm, SigOutcome.returned.injEq, withContext_ok] at hsig
        have hed := laws.trySign key data signature halgorithm hsig
        refine ⟨?_, Or.inl ⟨rfl, hed⟩⟩
        rw [hed]
        simp
    | rsa a =>
        simp only [halgorithm] at hsig
        cases hhash : requestedHash flags with
        | error error => simp [hhash] at hsig
        | ok h =>
            simp only [hhash] at hsig
            obtain ⟨n, e, d, p, q, hsigned⟩ := rsaSigned_of_sigRsa laws hhash hsig
            refine ⟨?_, Or.inr ⟨⟨a, rfl⟩, n, e, d, p, q, hsigned⟩⟩
            rw [hsigned.named]
            simp

/-- So is every signature a session gives away, which is by the key it has published. -/
theorem signWith_sound (laws : SignerLaws keys hash) {index : KeyIndex keys}
    {req : SignRequest keys} {signature : Signature}
    (h : OpenSession.signWith index req = .signature signature) :
    ∃ key, index[req.pubkey]? = some key ∧ SigSound keys hash key req.data req.flags ∧
      sig keys key req.data req.flags = .returned (.ok signature) := by
  obtain ⟨key, hkey, hsig⟩ := signWith_signature h
  exact ⟨key, hkey, sig_sound laws key req.data req.flags, hsig⟩

/-! ### A key -/

/-- SHA-2 of the empty payload, whatever the payload. -/
def emptySha2 : Digest → List UInt8 → List UInt8
  | .sha256, _ => [0xe3, 0xb0, 0xc4, 0x42, 0x98, 0xfc, 0x1c, 0x14, 0x9a, 0xfb, 0xf4, 0xc8, 0x99,
      0x6f, 0xb9, 0x24, 0x27, 0xae, 0x41, 0xe4, 0x64, 0x9b, 0x93, 0x4c, 0xa4, 0x95, 0x99, 0x1b,
      0x78, 0x52, 0xb8, 0x55]
  | .sha512, _ => [0xcf, 0x83, 0xe1, 0x35, 0x7e, 0xef, 0xb8, 0xbd, 0xf1, 0x54, 0x28, 0x50, 0xd6,
      0x6d, 0x80, 0x07, 0xd6, 0x20, 0xe4, 0x05, 0x0b, 0x57, 0x15, 0xdc, 0x83, 0xf4, 0xa9, 0x21,
      0xd3, 0x6c, 0xe9, 0xce, 0x47, 0xd0, 0xd1, 0x3c, 0x5d, 0x85, 0xf2, 0xb0, 0xff, 0x83, 0x18,
      0xd2, 0x87, 0x7e, 0xec, 0x2f, 0x63, 0xb9, 0x31, 0xbd, 0x47, 0x41, 0x7a, 0x81, 0xa5, 0x38,
      0x32, 0x7a, 0xf9, 0x27, 0xda, 0x3e]

/-- RSA key pairs, with the arithmetic of the `rsa` crate. -/
def rsaKeys (hash : Digest → List UInt8 → List UInt8) : SshKeys where
  KeyData := Int ×ₗ Int
  hashable := ⟨fun listed => Hashable.hash (ofLex listed)⟩
  PrivateKey := RsaKeypair × String
  publicKey key := toLex (key.1.publicKey.e, key.1.publicKey.n)
  comment key := key.2
  setComment key comment := (key.1, comment)
  algorithm _ := .rsa none
  rsa key := some key.1
  rsaPublic listed := some ⟨(ofLex listed).1, (ofLex listed).2⟩
  fromOpenssh _ := .error "unexpected end of input"
  trySign _ _ := .error "unsupported algorithm"
  bigUint := positiveBigUint
  fromComponents n e d primes :=
    match primes with
    | [p, q] =>
        if n = p * q ∧ e * d % (p - 1) = 1 ∧ e * d % (q - 1) = 1 then .ok ⟨n, e, d, [p, q]⟩
        else .error "invalid modulus or exponent"
    | _ => .error "nprimes must be >= 2"
  rsaSize key := Rsa.octetLength key.n
  pkcs1v15 digest key data :=
    match Rsa.sign key.n key.d digest.info (hash digest data) with
    | some signature => .ok signature
    | none => .error "message too long"
  signatureNew algorithm data := .ok ⟨algorithm, data⟩
  publicKey_setComment _ _ := rfl
  comment_setComment _ _ := rfl
  bigUint_error := positiveBigUint_error

theorem rsaKeys_fromComponents_ok {n e d : Nat} {primes : List Nat} {k : RsaPrivateKey}
    (h : (rsaKeys hash).fromComponents n e d primes = .ok k) :
    ∃ p q, primes = [p, q] ∧ (n = p * q ∧ e * d % (p - 1) = 1 ∧ e * d % (q - 1) = 1) ∧
      k = ⟨n, e, d, [p, q]⟩ := by
  cases primes with
  | nil => cases h
  | cons p rest =>
      cases rest with
      | nil => cases h
      | cons q rest =>
          cases rest with
          | cons r rest => cases h
          | nil =>
              change (if n = p * q ∧ e * d % (p - 1) = 1 ∧ e * d % (q - 1) = 1 then _ else _) = _
                at h
              by_cases hfit : n = p * q ∧ e * d % (p - 1) = 1 ∧ e * d % (q - 1) = 1
              · rw [if_pos hfit] at h
                exact ⟨p, q, rfl, hfit, (Except.ok.inj h).symm⟩
              · rw [if_neg hfit] at h
                cases h

theorem rsaKeys_fromComponents {n e d p q : Nat}
    (h : n = p * q ∧ e * d % (p - 1) = 1 ∧ e * d % (q - 1) = 1) :
    (rsaKeys hash).fromComponents n e d [p, q] = .ok ⟨n, e, d, [p, q]⟩ := if_pos h

theorem rsaKeys_pkcs1v15 {digest : Digest} {k : RsaPrivateKey} {octets : List UInt8} :
    (rsaKeys hash).pkcs1v15 digest k data = .ok octets ↔
      Rsa.sign k.n k.d digest.info (hash digest data) = some octets := by
  show (match Rsa.sign k.n k.d digest.info (hash digest data) with
    | some signature => Except.ok signature
    | none => .error "message too long") = _ ↔ _
  cases Rsa.sign k.n k.d digest.info (hash digest data) with
  | none => simp
  | some signature => simp

theorem modEq_one_of_mod {a m : Nat} (h : a % m = 1) : a ≡ 1 [MOD m] := by
  have hm : 1 % m = 1 := by
    have hlt := Nat.mod_mod a m
    rw [h] at hlt
    exact hlt
  exact h.trans hm.symm

theorem rsaKeys_laws : SignerLaws (rsaKeys hash) hash where
  publicKey key pair h := by
    obtain rfl := Option.some.inj h
    rfl
  bigUint n m h := (positiveBigUint_eq_ok.mp h).1
  rsaSize _ := rfl
  trySign _ _ _ h := by cases h
  fromComponents n e d primes k h := by
    obtain ⟨p, q, rfl, -, rfl⟩ := rsaKeys_fromComponents_ok h
    rfl
  consistent n e d p q k h := by
    obtain ⟨p', q', hprimes, ⟨hn, hp, hq⟩, -⟩ := rsaKeys_fromComponents_ok h
    obtain ⟨rfl, rfl⟩ : p = p' ∧ q = q' := by simpa using hprimes
    exact ⟨hn, modEq_one_of_mod hp, modEq_one_of_mod hq⟩
  pkcs1v15 digest k data signature h := rsaKeys_pkcs1v15.mp h
  signatureNew algorithm data signature h := (Except.ok.inj h).symm

/-- A key pair with these components. -/
def keypairOf (n e d p q : Nat) : RsaKeypair := ⟨⟨e, n⟩, ⟨d, p, q⟩⟩

theorem keypairOf_inj {n e d p q n' e' d' p' q' : Nat}
    (h : keypairOf n e d p q = keypairOf n' e' d' p' q') :
    n = n' ∧ e = e' ∧ d = d' ∧ p = p' ∧ q = q' := by
  simp only [keypairOf, RsaKeypair.mk.injEq, RsaPublicKey.mk.injEq,
    RsaPrivateComponents.mk.injEq, Int.natCast_inj] at h
  obtain ⟨⟨rfl, rfl⟩, rfl, rfl, rfl⟩ := h
  exact ⟨rfl, rfl, rfl, rfl, rfl⟩

/-- The numbers of a key with components that fit are positive. -/
theorem pos_of_fits {n e d p q : Nat}
    (hfit : n = p * q ∧ e * d % (p - 1) = 1 ∧ e * d % (q - 1) = 1)
    (hlarge : 256 ≤ Rsa.octetLength n) : 0 < n ∧ 0 < e ∧ 0 < d ∧ 0 < p ∧ 0 < q := by
  obtain ⟨rfl, hmod, -⟩ := hfit
  have hn : p * q ≠ 0 := by
    intro hzero
    rw [hzero] at hlarge
    exact absurd hlarge (by decide)
  have hed : e * d ≠ 0 := by
    intro hzero
    rw [hzero, Nat.zero_mod] at hmod
    cases hmod
  obtain ⟨hp, hq⟩ := mul_ne_zero_iff.mp hn
  obtain ⟨he, hd⟩ := mul_ne_zero_iff.mp hed
  exact ⟨Nat.pos_of_ne_zero hn, Nat.pos_of_ne_zero he, Nat.pos_of_ne_zero hd,
    Nat.pos_of_ne_zero hp, Nat.pos_of_ne_zero hq⟩

theorem rsaKeys_bigUint {n : Nat} (h : 0 < n) : (rsaKeys hash).bigUint n = .ok n :=
  positiveBigUint_eq_ok.mpr ⟨rfl, h⟩

/-- A large key with components that fit signs with SHA-256 when asked to. -/
theorem sig_rsaKeys {n e d p q : Nat} {comment : String} {octets : List UInt8}
    (hfit : n = p * q ∧ e * d % (p - 1) = 1 ∧ e * d % (q - 1) = 1)
    (hlarge : 256 ≤ Rsa.octetLength n)
    (hsign : Rsa.sign n d Digest.sha256.info (hash .sha256 data) = some octets) :
    sig (rsaKeys hash) (keypairOf n e d p q, comment) data rsaSha2256 =
      .returned (.ok ⟨.rsa (some .sha256), octets⟩) := by
  obtain ⟨hn, he, hd, hp, hq⟩ := pos_of_fits hfit hlarge
  have hkey : rsaSigningKey (rsaKeys hash) (keypairOf n e d p q) = .ok ⟨n, e, d, [p, q]⟩ :=
    rsaSigningKey_ok.mpr ⟨n, rsaKeys_bigUint hn, e, rsaKeys_bigUint he, d, rsaKeys_bigUint hd,
      p, rsaKeys_bigUint hp, q, rsaKeys_bigUint hq, rsaKeys_fromComponents hfit⟩
  have hsize : rsaMinBits ≤ (rsaKeys hash).rsaSize ⟨n, e, d, [p, q]⟩ * 8 :=
    Nat.mul_le_mul_right 8 hlarge
  have hpkcs := (@rsaKeys_pkcs1v15 hash data .sha256 ⟨n, e, d, [p, q]⟩ octets).mpr hsign
  exact @sigRsa_of_steps (rsaKeys hash) _ data .sha256 _ _ _ octets rfl hkey hsize hpkcs rfl

/-- A modulus of two Mersenne primes. -/
def mersenneModulus : Nat := mersenne 1279 * mersenne 2203

/-- The inverse of 5. -/
def mersenneExponent : Nat := (4 * ((mersenne 1279 - 1) * (mersenne 2203 - 1)) + 1) / 5

theorem mersenne_fits : 5 * mersenneExponent % (mersenne 1279 - 1) = 1 ∧
    5 * mersenneExponent % (mersenne 2203 - 1) = 1 := by decide +kernel

theorem prime_mersenne_1279 : (mersenne 1279).Prime :=
  lucas_lehmer_sufficiency _ (by norm_num) (by norm_num)

theorem prime_mersenne_2203 : (mersenne 2203).Prime :=
  lucas_lehmer_sufficiency _ (by norm_num) (by norm_num)

theorem lt_size_mul_mersenne {a b c : Nat} (h : a < b) (hc : 0 < c) :
    a < Nat.size (c * mersenne b) := by
  have hpow : 2 ^ a ≤ mersenne b := Nat.le_sub_one_of_lt (Nat.pow_lt_pow_right (by decide) h)
  exact Nat.lt_size.mpr (hpow.trans (Nat.le_mul_of_pos_left _ hc))

theorem mersenne_large : 256 ≤ Rsa.octetLength mersenneModulus := by
  have hsize : 2040 < Nat.size mersenneModulus :=
    lt_size_mul_mersenne (by decide) prime_mersenne_1279.pos
  unfold Rsa.octetLength
  omega

theorem mersenne_signs : ∃ octets, Rsa.sign mersenneModulus mersenneExponent Digest.sha256.info
    (emptySha2 .sha256 []) = some octets := by
  have hlarge := mersenne_large
  have hlength : (Digest.sha256.info ++ emptySha2 .sha256 []).length = 51 := rfl
  unfold Rsa.sign Rsa.encode
  rw [if_neg (by rw [hlength]; omega)]
  exact ⟨_, rfl⟩

/-- The empty payload under a key of 3482 bits. -/
theorem sig_sound_mersenne : ∃ signature,
    sig (rsaKeys emptySha2)
        (keypairOf mersenneModulus 5 mersenneExponent (mersenne 1279) (mersenne 2203), "") []
        rsaSha2256 = .returned (.ok signature) ∧
      signature.algorithm = .rsa (some .sha256) ∧
      Verifies (rsaKeys emptySha2) emptySha2 (toLex (5, (mersenneModulus : Int))) [] signature := by
  obtain ⟨octets, hoctets⟩ := mersenne_signs
  have hmodulus : mersenneModulus = mersenne 1279 * mersenne 2203 := by rw [mersenneModulus]
  have hne : mersenne 1279 ≠ mersenne 2203 :=
    Nat.ne_of_lt (mersenne_lt_mersenne.mpr (by decide))
  have hp := prime_mersenne_1279
  have hq := prime_mersenne_2203
  have hfits := mersenne_fits
  have hlarge := mersenne_large
  -- the numbers are not looked at any more
  generalize mersenneModulus = n at *
  generalize mersenneExponent = d at *
  generalize mersenne 1279 = p at *
  generalize mersenne 2203 = q at *
  have hsig := @sig_rsaKeys emptySha2 [] n 5 d p q "" octets ⟨hmodulus, hfits⟩ hlarge hoctets
  obtain ⟨-, hkind⟩ := (sig_sound rsaKeys_laws (keypairOf n 5 d p q, "") [] rsaSha2256).signed _
    hsig
  rcases hkind with ⟨hed, -⟩ | ⟨-, n', e', d', p', q', hsigned⟩
  · cases hed
  · obtain ⟨rfl, rfl, rfl, rfl, rfl⟩ := keypairOf_inj (Option.some.inj hsigned.pair)
    exact ⟨_, hsig, rfl, hsigned.verifies hp hq hne⟩

end Keyring.Service
