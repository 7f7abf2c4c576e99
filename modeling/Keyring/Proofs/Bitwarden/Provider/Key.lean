/-
What one cipher is worth.

`key` works through a context of the shared store, but all it takes from the store is the
key of the cipher's scope: `outcome` is that function, and `kept_key` says so.  With it in
hand the question of which live items are published is a question about their fields, and
the answer is not the one the fallback comment promises: a name that is there but cannot be
read loses the key.
-/
import Keyring.Bitwarden.Provider
import Keyring.Proofs.Bitwarden.Crypto

namespace Keyring.Bitwarden

variable {c : Crypto} {keys : SshKeys}

/-! ### The store -/

/-- **Looking at a cipher leaves every stored key as it was.** -/
theorem key_frame (cipher : BitwardenCipher) (store : c.KeyStore) :
    (∀ id : BitwardenSymmetricKeyId, id.isLocal = false →
      c.symmetric (key c keys cipher store).2 id = c.symmetric store id) ∧
    (∀ id : BitwardenAsymmetricKeyId, id.isLocal = false →
      c.asymmetric (key c keys cipher store).2 id = c.asymmetric store id) := by
  have hsame : (∀ id : BitwardenSymmetricKeyId, id.isLocal = false →
        c.symmetric store id = c.symmetric store id) ∧
      (∀ id : BitwardenAsymmetricKeyId, id.isLocal = false →
        c.asymmetric store id = c.asymmetric store id) := ⟨fun _ _ => rfl, fun _ _ => rfl⟩
  unfold key
  split
  · exact hsame
  split
  · exact hsame
  split
  · exact hsame
  split
  · exact hsame
  · exact hsame
  · rename_i id ssh _ _
    obtain ⟨hsym, hasym⟩ := resolveCipherKey_frame store cipher
    have hend : (decryptKey c keys store cipher id ssh).2 =
        c.endContext (resolveCipherKey c store cipher).2 := by
      unfold decryptKey
      split
      · rename_i heq
        rw [heq]
      · rename_i heq
        rw [heq]
    rw [hend]
    constructor
    · intro id hid
      rw [c.endContext_symmetric, hid]
      exact hsym id hid
    · intro id hid
      rw [c.endContext_asymmetric, hid, hasym]
      rfl

/-! ### The outcome -/

/-- What a field's text says under a key. -/
def openText (c : Crypto) (k : c.SymmetricCryptoKey) (text : String) : Option String :=
  (c.parseEncString text).bind fun encrypted => (c.decryptText k encrypted).toOption

/-- A field that may be absent. -/
def openField (c : Crypto) (k : c.SymmetricCryptoKey) : Option String → Option (Option String)
  | none => some none
  | some text => (openText c k text).map some

theorem decryptOptionalString_toOption {ctx : c.KeyStore} {keyId : BitwardenSymmetricKeyId}
    {k : c.SymmetricCryptoKey} (h : c.symmetric ctx keyId = some k) (value : Option String) :
    (decryptOptionalString c ctx keyId value).toOption = openField c k value := by
  cases value with
  | none => rfl
  | some text =>
    simp only [decryptOptionalString, openField, openText]
    cases c.parseEncString text with
    | none => rfl
    | some encrypted =>
      simp only [c.decrypt_eq, h, Option.bind_some]
      cases c.decryptText k encrypted with
      | error error => rfl
      | ok text => rfl

/-- The identity a live item with an id and a payload gives under its key. -/
def openIdentity (c : Crypto) (keys : SshKeys) (id : Uuid) (name privateKey : Option String)
    (k : c.SymmetricCryptoKey) : Option keys.PrivateKey := do
  let name ← openField c k name
  let pem ← privateKey.bind (openText c k)
  let out ← (keys.fromOpenssh pem).toOption
  return keys.setComment out (identityComment c.showUuid id name)

/-- The identity of a cipher, from its fields and the key of its scope. -/
def outcome (c : Crypto) (keys : SshKeys) (cipher : BitwardenCipher)
    (base : Option c.SymmetricCryptoKey) : Option keys.PrivateKey := do
  guard (cipher.isSshKey && !cipher.isDeleted && !cipher.isArchived)
  let id ← cipher.id
  let ssh ← cipher.sshKey
  let k ← itemKey c cipher base
  openIdentity c keys id cipher.name ssh.privateKey k

/-- Whether a cipher is looked at. -/
def isLive (cipher : BitwardenCipher) : Bool :=
  cipher.isSshKey && !cipher.isDeleted && !cipher.isArchived

theorem outcome_of_live {cipher : BitwardenCipher} {base : Option c.SymmetricCryptoKey}
    (h : isLive cipher = true) :
    outcome c keys cipher base = cipher.id.bind fun id => cipher.sshKey.bind fun ssh =>
      (itemKey c cipher base).bind (openIdentity c keys id cipher.name ssh.privateKey) := by
  rw [isLive] at h
  rw [outcome, h]
  rfl

theorem outcome_of_not_live {cipher : BitwardenCipher} {base : Option c.SymmetricCryptoKey}
    (h : isLive cipher = false) : outcome c keys cipher base = none := by
  rw [isLive] at h
  rw [outcome, h]
  rfl

theorem kept_openKey {ctx : c.KeyStore} {keyId : BitwardenSymmetricKeyId}
    {k : c.SymmetricCryptoKey} (h : c.symmetric ctx keyId = some k) (id : Uuid)
    (name privateKey : Option String) :
    kept keys (openKey c keys ctx keyId id name privateKey) =
      (openIdentity c keys id name privateKey k).toList := by
  have hname := decryptOptionalString_toOption h name
  have hpem := decryptOptionalString_toOption h privateKey
  unfold openKey openIdentity
  rw [← hname]
  cases decryptOptionalString c ctx keyId name with
  | error error => rfl
  | ok name =>
    cases hprivate : decryptOptionalString c ctx keyId privateKey with
    | error error =>
      rw [hprivate] at hpem
      cases privateKey with
      | none => cases hpem
      | some text =>
        have hnone : openText c k text = none := by
          simpa [openField, Except.toOption] using hpem.symm
        simp [kept, bind, Except.bind, Except.toOption, hnone]
    | ok pem =>
      rw [hprivate] at hpem
      have hopen : privateKey.bind (openText c k) = pem := by
        cases privateKey with
        | none =>
          cases hpem
          rfl
        | some text =>
          obtain ⟨opened, hopened, heq⟩ := Option.map_eq_some_iff.mp hpem.symm
          rw [Option.bind_some, hopened, heq]
      simp only [bind, Except.bind, Except.toOption, hopen, Option.bind_some]
      cases pem with
      | none => rfl
      | some pem =>
        simp only [Option.bind_some]
        cases keys.fromOpenssh pem with
        | error error => rfl
        | ok out => rfl

theorem kept_decryptKey (cipher : BitwardenCipher) (store : c.KeyStore) (id : Uuid)
    (ssh : BitwardenCipherSshKey) :
    kept keys (decryptKey c keys store cipher id ssh).1 =
      ((itemKey c cipher (c.symmetric store (baseKey cipher))).bind
        (openIdentity c keys id cipher.name ssh.privateKey)).toList := by
  unfold decryptKey
  cases hitem : itemKey c cipher (c.symmetric store (baseKey cipher)) with
  | none =>
    rcases hresolve : resolveCipherKey c store cipher with ⟨resolved, ctx⟩
    cases resolved with
    | error error => rfl
    | ok keyId => exact absurd (by rw [hresolve]) (resolveCipherKey_none hitem keyId)
  | some k =>
    obtain ⟨keyId, ctx, hresolve, hstored⟩ := resolveCipherKey_some hitem
    simp only [hresolve, Option.bind_some]
    exact kept_openKey hstored id cipher.name ssh.privateKey

/-- **A cipher is worth its outcome**, whatever else the store holds. -/
theorem kept_key (cipher : BitwardenCipher) (store : c.KeyStore) :
    kept keys (key c keys cipher store).1 =
      (outcome c keys cipher (c.symmetric store (baseKey cipher))).toList := by
  unfold key
  by_cases hssh : cipher.isSshKey
  · by_cases hdeleted : cipher.isDeleted
    · rw [outcome_of_not_live (by simp [isLive, hdeleted])]
      simp [hssh, hdeleted, kept]
    · by_cases harchived : cipher.isArchived
      · rw [outcome_of_not_live (by simp [isLive, harchived])]
        simp [hssh, hdeleted, harchived, kept]
      · rw [outcome_of_live (by simp [isLive, hssh, hdeleted, harchived])]
        simp only [hssh, hdeleted, harchived, Bool.not_true, Bool.false_eq_true, if_false]
        cases cipher.id with
        | none => rfl
        | some id =>
          cases cipher.sshKey with
          | none => rfl
          | some ssh => exact kept_decryptKey cipher store id ssh
  · rw [outcome_of_not_live (by simp [isLive, hssh])]
    simp [hssh, kept]

theorem kept_eq_singleton {result : Except String (Option keys.PrivateKey)}
    {out : keys.PrivateKey} : kept keys result = [out] ↔ result = .ok (some out) := by
  rcases result with error | out | out <;> simp [kept]

/-! ### Which items are published -/

/-- A live item with an id, a key and a private key that can be read under it. -/
structure Usable (c : Crypto) (keys : SshKeys) (cipher : BitwardenCipher)
    (base : Option c.SymmetricCryptoKey) (id : Uuid) (k : c.SymmetricCryptoKey)
    (priv : keys.PrivateKey) : Prop where
  isSshKey : cipher.isSshKey = true
  isDeleted : cipher.isDeleted = false
  isArchived : cipher.isArchived = false
  id : cipher.id = some id
  key : itemKey c cipher base = some k
  privateKey : ∃ ssh text pem, cipher.sshKey = some ssh ∧ ssh.privateKey = some text ∧
    openText c k text = some pem ∧ keys.fromOpenssh pem = .ok priv

/-- The name is absent or can be read. -/
def NameOpens (c : Crypto) (cipher : BitwardenCipher) (k : c.SymmetricCryptoKey) : Prop :=
  ∀ text, cipher.name = some text → (openText c k text).isSome

theorem openField_of_nameOpens {cipher : BitwardenCipher} {k : c.SymmetricCryptoKey}
    (h : NameOpens c cipher k) :
    openField c k cipher.name = some (cipher.name.bind (openText c k)) := by
  cases hname : cipher.name with
  | none => rfl
  | some text =>
    obtain ⟨name, hopen⟩ := Option.isSome_iff_exists.mp (h text hname)
    simp [openField, hopen]

theorem openField_of_not_nameOpens {cipher : BitwardenCipher} {k : c.SymmetricCryptoKey}
    (h : ¬NameOpens c cipher k) : openField c k cipher.name = none := by
  simp only [NameOpens, not_forall] at h
  obtain ⟨text, hname, hopen⟩ := h
  simpa [hname, openField] using hopen

/-- What a usable item is worth depends on its name alone. -/
theorem outcome_of_usable {cipher : BitwardenCipher} {base : Option c.SymmetricCryptoKey}
    {id : Uuid} {k : c.SymmetricCryptoKey} {priv : keys.PrivateKey}
    (h : Usable c keys cipher base id k priv) :
    outcome c keys cipher base = (openField c k cipher.name).map fun name =>
      keys.setComment priv (identityComment c.showUuid id name) := by
  obtain ⟨ssh, text, pem, hssh, htext, hopen, hparse⟩ := h.privateKey
  rw [outcome_of_live (by simp [isLive, h.isSshKey, h.isDeleted, h.isArchived]), h.id, hssh,
    h.key]
  show openIdentity c keys id cipher.name ssh.privateKey k = _
  unfold openIdentity
  rw [htext, Option.bind_some, hopen]
  cases openField c k cipher.name with
  | none => rfl
  | some name => simp [hparse, Except.toOption]

/-- A cipher that gives a key. -/
def Opens (c : Crypto) (keys : SshKeys) (cipher : BitwardenCipher)
    (base : Option c.SymmetricCryptoKey) : Prop :=
  ∃ id k priv, Usable c keys cipher base id k priv ∧ NameOpens c cipher k

/-- What gives a key is usable and has a name that can be read, or none. -/
theorem outcome_isSome_iff {cipher : BitwardenCipher} {base : Option c.SymmetricCryptoKey} :
    (outcome c keys cipher base).isSome ↔ Opens c keys cipher base := by
  constructor
  · intro h
    by_cases hlive : isLive cipher = true
    · obtain ⟨out, hout⟩ := Option.isSome_iff_exists.mp h
      rw [outcome_of_live hlive] at hout
      obtain ⟨id, hid, hout⟩ := Option.bind_eq_some_iff.mp hout
      obtain ⟨ssh, hssh, hout⟩ := Option.bind_eq_some_iff.mp hout
      obtain ⟨k, hk, hout⟩ := Option.bind_eq_some_iff.mp hout
      unfold openIdentity at hout
      obtain ⟨name, hname, hout⟩ := Option.bind_eq_some_iff.mp hout
      obtain ⟨pem, hpem, hout⟩ := Option.bind_eq_some_iff.mp hout
      obtain ⟨priv, hpriv, -⟩ := Option.bind_eq_some_iff.mp hout
      obtain ⟨text, htext, hopen⟩ := Option.bind_eq_some_iff.mp hpem
      have hparse : keys.fromOpenssh pem = .ok priv := by
        cases hresult : keys.fromOpenssh pem with
        | error error => simp [hresult, Except.toOption] at hpriv
        | ok out => simpa [hresult, Except.toOption] using hpriv
      simp only [isLive, Bool.and_eq_true, Bool.not_eq_true'] at hlive
      refine ⟨id, k, priv, ⟨hlive.1.1, hlive.1.2, hlive.2, hid, hk, ?_⟩, ?_⟩
      · exact ⟨ssh, text, pem, hssh, htext, hopen, hparse⟩
      · by_contra hunread
        rw [openField_of_not_nameOpens hunread] at hname
        cases hname
    · rw [outcome_of_not_live (by simpa using hlive)] at h
      cases h
  · rintro ⟨id, k, priv, husable, hname⟩
    rw [outcome_of_usable husable, openField_of_nameOpens hname]
    rfl

theorem identityComment_of_not_blank {showUuid : Uuid → String} {id : Uuid} {name : String}
    (h : isBlank name = false) : identityComment showUuid id (some name) = trim name := by
  have htrim : trim name ≠ "" := by
    intro htrim
    rw [trim_eq_empty, h] at htrim
    cases htrim
  simp [identityComment, Option.filter, htrim]

theorem identityComment_of_blank {showUuid : Uuid → String} {id : Uuid} {name : Option String}
    (h : ∀ text, name = some text → isBlank text = true) :
    identityComment showUuid id name = "bitwarden:" ++ showUuid id := by
  cases name with
  | none => rfl
  | some name => simp [identityComment, Option.filter, trim_eq_empty.mpr (h name rfl)]

/-- `out` is the private key as an identity, under the item's name where it has a readable
one that is not blank. -/
structure IdentityOf (c : Crypto) (keys : SshKeys) (cipher : BitwardenCipher) (id : Uuid)
    (k : c.SymmetricCryptoKey) (priv out : keys.PrivateKey) : Prop where
  inner : ∃ comment, out = keys.setComment priv comment
  publicKey : keys.publicKey out = keys.publicKey priv
  named : ∀ name, cipher.name.bind (openText c k) = some name → isBlank name = false →
    keys.comment out = trim name
  unnamed : (∀ name, cipher.name.bind (openText c k) = some name → isBlank name = true) →
    keys.comment out = "bitwarden:" ++ c.showUuid id

theorem identityOf_setComment (cipher : BitwardenCipher) (id : Uuid)
    (k : c.SymmetricCryptoKey) (priv : keys.PrivateKey) :
    IdentityOf c keys cipher id k priv
      (keys.setComment priv (identityComment c.showUuid id (cipher.name.bind (openText c k)))) where
  inner := ⟨_, rfl⟩
  publicKey := keys.publicKey_setComment _ _
  named name hname hblank := by
    rw [keys.comment_setComment, hname, identityComment_of_not_blank hblank]
  unnamed hblank := by
    rw [keys.comment_setComment, identityComment_of_blank hblank]

/-- **A usable item is published exactly when its name is absent or can be read**: the
fallback comment covers a missing name and a blank one, and no other. -/
theorem key_identity_iff {store : c.KeyStore} {cipher : BitwardenCipher} {id : Uuid}
    {k : c.SymmetricCryptoKey} {priv : keys.PrivateKey}
    (h : Usable c keys cipher (c.symmetric store (baseKey cipher)) id k priv) :
    (∃ out, (key c keys cipher store).1 = .ok (some out) ∧
      IdentityOf c keys cipher id k priv out) ↔ NameOpens c cipher k := by
  have hkept := @kept_key c keys cipher store
  rw [outcome_of_usable h] at hkept
  constructor
  · rintro ⟨out, hout, -⟩
    by_contra hname
    rw [openField_of_not_nameOpens hname, kept_eq_singleton.mpr hout] at hkept
    cases hkept
  · intro hname
    rw [openField_of_nameOpens hname] at hkept
    exact ⟨_, kept_eq_singleton.mp hkept, identityOf_setComment cipher id k priv⟩

/-- A store that holds a user key. -/
def unlockedStore : MapStore String String := MapStore.empty.setSymmetric .user "user"

/-- A live item under the user key whose private key can be read. -/
def sshItem (name : Option String) : BitwardenCipher :=
  ⟨some ⟨7⟩, none, some cipherTypeSshKey, name, none, none, none, some ⟨some "pem"⟩⟩

theorem sshItem_usable (name : Option String) :
    Usable (mapCrypto plainSuite) plainKeys (sshItem name)
      ((mapCrypto plainSuite).symmetric unlockedStore (baseKey (sshItem name))) ⟨7⟩ "user"
      (3, "") :=
  ⟨rfl, rfl, rfl, rfl, rfl, ⟨_, "pem", "pem", rfl, rfl, rfl, rfl⟩⟩

theorem key_identity_iff_padded :
    ∃ out, (key (mapCrypto plainSuite) plainKeys (sshItem (some " deploy ")) unlockedStore).1 =
        .ok (some out) ∧
      IdentityOf (mapCrypto plainSuite) plainKeys (sshItem (some " deploy ")) ⟨7⟩ "user" (3, "")
        out :=
  (key_identity_iff (sshItem_usable (some " deploy "))).mpr fun text htext => by
    obtain rfl := Option.some.inj htext
    rfl

/-- An item with an empty name loses its key. -/
theorem key_loses_unnamed :
    Usable (mapCrypto plainSuite) plainKeys (sshItem (some ""))
        ((mapCrypto plainSuite).symmetric unlockedStore (baseKey (sshItem (some "")))) ⟨7⟩ "user"
        (3, "") ∧
      (key (mapCrypto plainSuite) plainKeys (sshItem (some "")) unlockedStore).1 =
        .error "failed to parse bitwarden enc string" ∧
      ¬∃ out, (key (mapCrypto plainSuite) plainKeys (sshItem (some "")) unlockedStore).1 =
          .ok (some out) ∧
        IdentityOf (mapCrypto plainSuite) plainKeys (sshItem (some "")) ⟨7⟩ "user" (3, "") out := by
  refine ⟨sshItem_usable _, rfl, ?_⟩
  rintro ⟨out, hout, -⟩
  cases hout

end Keyring.Bitwarden
