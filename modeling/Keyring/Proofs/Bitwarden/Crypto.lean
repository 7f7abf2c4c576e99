/-
What the bootstrap and the organization rebuild leave in the key store.

The bootstrap is proved to be all or nothing where it matters: success means the user key
is there, and a user key that is there stays as it is.  The rebuild is proved to leave,
for every organization, the key of its last usable entry in the profile; that is true as
soon as the profile names an organization, because the early return for a profile without
one skips the clearing step along with the import.
-/
import Keyring.Bitwarden.Crypto
import Keyring.Bitwarden.MapStore

namespace Keyring.Bitwarden

variable {c : Crypto}

/-! ### The user key -/

@[simp] theorem endContext_user (s : c.KeyStore) :
    c.symmetric (c.endContext s) .user = c.symmetric s .user := by
  simp [c.endContext_symmetric, BitwardenSymmetricKeyId.isLocal]

@[simp] theorem endContext_organization (s : c.KeyStore) (id : Uuid) :
    c.symmetric (c.endContext s) (.organization id) = c.symmetric s (.organization id) := by
  simp [c.endContext_symmetric, BitwardenSymmetricKeyId.isLocal]

@[simp] theorem endContext_userPrivateKey (s : c.KeyStore) :
    c.asymmetric (c.endContext s) .userPrivateKey = c.asymmetric s .userPrivateKey := by
  simp [c.endContext_asymmetric, BitwardenAsymmetricKeyId.isLocal]

theorem persistUserKey_ok {ctx : c.KeyStore} {id : BitwardenSymmetricKeyId}
    (h : (persistUserKey c ctx id).1 = .ok ()) :
    (c.symmetric (persistUserKey c ctx id).2 .user).isSome := by
  unfold persistUserKey at h ⊢
  rcases hp : c.persistSymmetricKey ctx id .user with ⟨done, ctx'⟩
  cases done with
  | false => simp [hp] at h
  | true =>
      obtain ⟨hset, hsome⟩ := c.persistSymmetric_set ctx id .user (by rw [hp])
      rw [hp] at hset
      simp only
      rw [hset]
      exact hsome

/-- A local key that is there can be persisted as the user key. -/
theorem persistUserKey_succeeds {ctx : c.KeyStore} {id : BitwardenSymmetricKeyId}
    (hlocal : id.isLocal = true) (hkey : (c.symmetric ctx id).isSome) :
    (persistUserKey c ctx id).1 = .ok () := by
  have hdone := c.persistSymmetric_ok ctx id .user hlocal rfl hkey
  unfold persistUserKey
  rcases hp : c.persistSymmetricKey ctx id .user with ⟨done, ctx'⟩
  rw [hp] at hdone
  simp only at hdone
  simp [hdone]

/-- A stored user key ends the bootstrap before it changes anything. -/
theorem importUserKey_of_user {ctx : c.KeyStore} {e : c.EncString} {k : c.SymmetricCryptoKey}
    (h : (c.symmetric ctx .user).isSome) : importUserKey c ctx e k = (.ok (), ctx) := by
  unfold importUserKey
  rw [if_pos (by rw [c.hasSymmetricKey_eq]; exact h)]

theorem importUserKey_ok {ctx : c.KeyStore} {e : c.EncString} {k : c.SymmetricCryptoKey}
    (h : (importUserKey c ctx e k).1 = .ok ()) :
    (c.symmetric (importUserKey c ctx e k).2 .user).isSome := by
  by_cases huser : (c.symmetric ctx .user).isSome
  · rw [importUserKey_of_user huser]
    exact huser
  unfold importUserKey at h ⊢
  rw [if_neg (by rw [c.hasSymmetricKey_eq]; exact huser)] at h ⊢
  rcases hadd : c.addLocalSymmetricKey ctx k with ⟨id, ctx₁⟩
  simp only [hadd] at h ⊢
  cases halg : c.getSymmetricKeyAlgorithm ctx₁ id with
  | error error => simp [halg] at h
  | ok alg =>
      simp only [halg] at h ⊢
      rcases hunwrap : c.unwrapPrivateKey ctx₁ id e with ⟨unwrapped, ctx₂⟩
      simp only [hunwrap] at h ⊢
      cases unwrapped with
      | none => exact persistUserKey_ok h
      | some privateId =>
          rcases hpersist : c.persistAsymmetricKey ctx₂ privateId .userPrivateKey
            with ⟨done, ctx₃⟩
          simp only [hpersist] at h ⊢
          cases done with
          | false => simp at h
          | true => exact persistUserKey_ok h

/-- A user key with a known algorithm is always imported. -/
theorem importUserKey_succeeds {ctx : c.KeyStore} {e : c.EncString} {k : c.SymmetricCryptoKey}
    {alg : SymmetricKeyAlgorithm} (halg : c.algorithm k = .ok alg) :
    (importUserKey c ctx e k).1 = .ok () := by
  by_cases huser : (c.symmetric ctx .user).isSome
  · rw [importUserKey_of_user huser]
  have hkey := c.addLocal_symmetric ctx k (c.addLocalSymmetricKey ctx k).1
  have hlocal := c.addLocal_isLocal ctx k
  rw [if_pos rfl] at hkey
  unfold importUserKey
  rw [if_neg (by rw [c.hasSymmetricKey_eq]; exact huser)]
  rcases hadd : c.addLocalSymmetricKey ctx k with ⟨id, ctx₁⟩
  simp only [hadd] at hkey hlocal ⊢
  rw [c.algorithm_eq ctx₁ id k hkey, halg]
  have hok := c.unwrapPrivate_ok ctx₁ id e
  have hsame := c.unwrapPrivate_symmetric ctx₁ id e
  rcases hunwrap : c.unwrapPrivateKey ctx₁ id e with ⟨unwrapped, ctx₂⟩
  simp only [hunwrap] at hok hsame ⊢
  have hkey₂ : (c.symmetric ctx₂ id).isSome := by rw [hsame, hkey]; rfl
  cases unwrapped with
  | none => exact persistUserKey_succeeds hlocal hkey₂
  | some privateId =>
      obtain ⟨hprivateLocal, hprivate⟩ := hok privateId rfl
      have hdone := c.persistAsymmetric_ok ctx₂ privateId .userPrivateKey hprivateLocal rfl
        hprivate
      have hkept := c.persistAsymmetric_symmetric ctx₂ privateId .userPrivateKey
      rcases hpersist : c.persistAsymmetricKey ctx₂ privateId .userPrivateKey
        with ⟨done, ctx₃⟩
      simp only [hpersist] at hdone hkept ⊢
      subst hdone
      exact persistUserKey_succeeds hlocal (by rw [hkept]; exact hkey₂)

/-- A user key without an algorithm is not imported. -/
theorem importUserKey_fails {ctx : c.KeyStore} {e : c.EncString} {k : c.SymmetricCryptoKey}
    {error : String} (huser : (c.symmetric ctx .user).isSome = false)
    (halg : c.algorithm k = .error error) : (importUserKey c ctx e k).1 = .error error := by
  have hkey := c.addLocal_symmetric ctx k (c.addLocalSymmetricKey ctx k).1
  rw [if_pos rfl] at hkey
  unfold importUserKey
  rw [if_neg (by rw [c.hasSymmetricKey_eq, huser]; simp)]
  rcases hadd : c.addLocalSymmetricKey ctx k with ⟨id, ctx₁⟩
  simp only [hadd] at hkey ⊢
  rw [c.algorithm_eq ctx₁ id k hkey, halg]

/-- **What a bootstrap comes to depends on the store only through whether there is a user
key.** -/
theorem initializeUserCrypto_congr {s s' : c.KeyStore}
    (h : (c.symmetric s .user).isSome = (c.symmetric s' .user).isSome) (password : String)
    (token : BitwardenTokenSuccessResponse) :
    (initializeUserCrypto c s password token).1 = (initializeUserCrypto c s' password token).1 := by
  unfold initializeUserCrypto
  cases unlockUserKey c.toCipherSuite password token with
  | error error => rfl
  | ok inputs =>
      obtain ⟨e, k⟩ := inputs
      show (importUserKey c s e k).1 = (importUserKey c s' e k).1
      by_cases huser : (c.symmetric s .user).isSome = true
      · have huser' : (c.symmetric s' .user).isSome = true := h ▸ huser
        rw [importUserKey_of_user huser, importUserKey_of_user huser']
      · have hnone : (c.symmetric s .user).isSome = false := by simpa using huser
        cases halg : c.algorithm k with
        | ok alg => rw [importUserKey_succeeds halg, importUserKey_succeeds halg]
        | error error =>
            rw [importUserKey_fails hnone halg, importUserKey_fails (h ▸ hnone) halg]

/-- A successful bootstrap leaves a user key. -/
theorem initializeUserCrypto_ok {s : c.KeyStore} {password : String}
    {token : BitwardenTokenSuccessResponse}
    (h : (initializeUserCrypto c s password token).1 = .ok ()) :
    (c.symmetric (initializeUserCrypto c s password token).2 .user).isSome := by
  unfold initializeUserCrypto at h ⊢
  cases hu : unlockUserKey c.toCipherSuite password token with
  | error error => simp [hu] at h
  | ok inputs =>
      obtain ⟨e, k⟩ := inputs
      simp only [hu] at h ⊢
      rw [endContext_user]
      exact importUserKey_ok h

/-- **A stored user key survives every later bootstrap.** -/
theorem initializeUserCrypto_keeps {s : c.KeyStore} {password : String}
    {token : BitwardenTokenSuccessResponse} {k : c.SymmetricCryptoKey}
    (h : c.symmetric s .user = some k) :
    c.symmetric (initializeUserCrypto c s password token).2 .user = some k := by
  unfold initializeUserCrypto
  cases unlockUserKey c.toCipherSuite password token with
  | error error => exact h
  | ok inputs =>
      obtain ⟨e, k'⟩ := inputs
      simp only
      rw [importUserKey_of_user (by rw [h]; rfl), endContext_user]
      exact h

/-- Unlock data that derive a key of a known algorithm make the bootstrap succeed, from
whatever an earlier one left behind. -/
theorem initializeUserCrypto_succeeds {s : c.KeyStore} {password : String}
    {token : BitwardenTokenSuccessResponse} {e : c.EncString} {k : c.SymmetricCryptoKey}
    {alg : SymmetricKeyAlgorithm}
    (hu : unlockUserKey c.toCipherSuite password token = .ok (e, k))
    (halg : c.algorithm k = .ok alg) :
    (initializeUserCrypto c s password token).1 = .ok () := by
  unfold initializeUserCrypto
  simp only [hu]
  exact importUserKey_succeeds halg

/-! ### Organization keys -/

/-- The key text of the last entry for an organization that has one. -/
def lastOrgKey (organizations : List BitwardenProfileOrganization) (id : Uuid) :
    Option String :=
  (organizations.filterMap fun o => if o.id = some id then o.key else none).getLast?

theorem lastOrgKey_isSome {organizations : List BitwardenProfileOrganization} {id : Uuid} :
    (lastOrgKey organizations id).isSome ↔
      ∃ o ∈ organizations, o.id = some id ∧ o.key.isSome := by
  unfold lastOrgKey
  rw [List.getLast?_isSome, ne_eq, List.filterMap_eq_nil_iff]
  simp only [not_forall, exists_prop]
  refine exists_congr fun o => and_congr_right fun _ => ?_
  by_cases ho : o.id = some id
  · simp [ho, Option.isSome_iff_ne_none]
  · simp [ho]

/-- Whether an entry is skipped by the import, for one organization or for all. -/
theorem lastOrgKey_cons (o : BitwardenProfileOrganization)
    (rest : List BitwardenProfileOrganization) (id : Uuid) :
    lastOrgKey (o :: rest) id =
      (lastOrgKey rest id).or (if o.id = some id then o.key else none) := by
  unfold lastOrgKey
  rw [List.filterMap_cons]
  cases (if o.id = some id then o.key else none) with
  | none => simp
  | some key => simp [List.getLast?_cons]

theorem importOrgKeys_asymmetric : ∀ (organizations : List BitwardenProfileOrganization)
    (ctx : c.KeyStore),
    c.asymmetric (importOrgKeys c ctx organizations).2 = c.asymmetric ctx := by
  intro organizations
  induction organizations with
  | nil => intro ctx; rfl
  | cons o rest ih =>
      intro ctx
      unfold importOrgKeys
      split
      · rename_i id key _ _
        split
        · rfl
        · rename_i e _
          have hsame := c.decapsulate_asymmetric ctx .userPrivateKey (.organization id) e
          split
          · rename_i ctx' heq
            rw [ih ctx', ← hsame, heq]
          · rename_i ctx' heq
            rw [← hsame, heq]
      · exact ih ctx

/-- The import touches organization keys only. -/
theorem importOrgKeys_frame (id : BitwardenSymmetricKeyId) (hid : id.isOrganization = false) :
    ∀ (organizations : List BitwardenProfileOrganization) (ctx : c.KeyStore),
      c.symmetric (importOrgKeys c ctx organizations).2 id = c.symmetric ctx id := by
  intro organizations
  induction organizations with
  | nil => intro ctx; rfl
  | cons o rest ih =>
      intro ctx
      unfold importOrgKeys
      split
      · rename_i oid key _ _
        split
        · rfl
        · rename_i e _
          have hne : id ≠ .organization oid := by
            rintro rfl
            simp [BitwardenSymmetricKeyId.isOrganization] at hid
          have hsame := c.decapsulate_frame ctx .userPrivateKey (.organization oid) e id hne
          split
          · rename_i ctx' heq
            rw [ih ctx', ← hsame, heq]
          · rename_i ctx' heq
            rw [← hsame, heq]
      · exact ih ctx

/-- The key that an entry's text stands for, under the stored private key. -/
def orgKeyOf (c : Crypto) (s : c.KeyStore) (text : String) : Option c.SymmetricCryptoKey :=
  (c.parseSharedKey text).bind fun e =>
    (c.asymmetric s .userPrivateKey).bind fun p => c.decapsulate p e

/-- **A successful import leaves each organization the key of its last entry**, and leaves
the ones without an entry alone. -/
theorem importOrgKeys_ok (id : Uuid) :
    ∀ (organizations : List BitwardenProfileOrganization) (ctx : c.KeyStore),
      (importOrgKeys c ctx organizations).1 = .ok () →
      match lastOrgKey organizations id with
      | none => c.symmetric (importOrgKeys c ctx organizations).2 (.organization id) =
          c.symmetric ctx (.organization id)
      | some text => (orgKeyOf c ctx text).isSome ∧
          c.symmetric (importOrgKeys c ctx organizations).2 (.organization id) =
            orgKeyOf c ctx text := by
  intro organizations
  induction organizations with
  | nil => intro ctx _; rfl
  | cons o rest ih =>
      intro ctx h
      rw [lastOrgKey_cons]
      unfold importOrgKeys at h ⊢
      split at h
      · rename_i oid key hoid hkey
        split at h
        · simp at h
        · rename_i e he
          have hset := c.decapsulate_set ctx .userPrivateKey (.organization oid) e
          have hframe := c.decapsulate_frame ctx .userPrivateKey (.organization oid) e
          have hasym := c.decapsulate_asymmetric ctx .userPrivateKey (.organization oid) e
          split at h
          · rename_i ctx' hdec
            simp only [hdec] at hset hframe hasym ⊢
            have hof : ∀ text, orgKeyOf c ctx' text = orgKeyOf c ctx text := by
              intro text
              simp [orgKeyOf, hasym]
            have hrest := ih ctx' h
            cases hlast : lastOrgKey rest id with
            | some text =>
                simp only [hlast, hof] at hrest
                simpa using hrest
            | none =>
                simp only [hlast] at hrest
                by_cases hid : oid = id
                · -- this entry is the last one for `id`
                  subst hid
                  obtain ⟨p, k, hp, hk, hstored⟩ := hset trivial
                  have hkof : orgKeyOf c ctx key = some k := by simp [orgKeyOf, he, hp, hk]
                  simp [hoid, hkey, hkof, hrest, hstored]
                · have hne : BitwardenSymmetricKeyId.organization id ≠ .organization oid := by
                    simpa using fun hc => hid hc.symm
                  simp [hoid, hid, hrest, hframe _ hne]
          · simp at h
      · rename_i hskip
        have hnone : (if o.id = some id then o.key else none) = none := by
          by_cases hid : o.id = some id
          · rw [if_pos hid]
            cases hkey : o.key with
            | none => rfl
            | some key => exact absurd hkey (hskip id key hid)
          · rw [if_neg hid]
        rw [hnone, Option.or_none]
        exact ih ctx h

/-! ### The key of an item -/

/-- The key of a cipher's fields, from the key of its scope. -/
def itemKey (c : Crypto) (cipher : BitwardenCipher) (base : Option c.SymmetricCryptoKey) :
    Option c.SymmetricCryptoKey :=
  match cipher.key.filter fun value => !isBlank value with
  | none => base
  | some text => (c.parseEncString text).bind fun wrapped =>
      base.bind fun k => c.unwrapSymmetric k wrapped

/-- Wrapping a key again does not help when the outer one is missing. -/
theorem itemKey_none (cipher : BitwardenCipher) : itemKey c cipher none = none := by
  unfold itemKey
  split
  · rfl
  · simp

theorem requireKey_some {ctx : c.KeyStore} {keyId : BitwardenSymmetricKeyId}
    {k : c.SymmetricCryptoKey} (h : c.symmetric ctx keyId = some k) :
    requireKey c ctx keyId = (.ok keyId, ctx) := by
  rw [requireKey, if_pos (by rw [c.hasSymmetricKey_eq, h]; rfl)]

theorem requireKey_ctx (ctx : c.KeyStore) (keyId : BitwardenSymmetricKeyId) :
    (requireKey c ctx keyId).2 = ctx := by
  unfold requireKey
  split
  · rfl
  · rfl

/-- An item key that is there is resolved, under some id. -/
theorem resolveCipherKey_some {store : c.KeyStore} {cipher : BitwardenCipher}
    {k : c.SymmetricCryptoKey}
    (h : itemKey c cipher (c.symmetric store (baseKey cipher)) = some k) :
    ∃ keyId ctx, resolveCipherKey c store cipher = (.ok keyId, ctx) ∧
      c.symmetric ctx keyId = some k := by
  unfold itemKey at h
  unfold resolveCipherKey
  cases hkey : cipher.key.filter fun value => !isBlank value with
  | none =>
      simp only [hkey] at h ⊢
      exact ⟨baseKey cipher, store, requireKey_some h, h⟩
  | some text =>
      simp only [hkey] at h ⊢
      obtain ⟨wrapped, hparse, h⟩ := Option.bind_eq_some_iff.mp h
      obtain ⟨base, hbase, h⟩ := Option.bind_eq_some_iff.mp h
      have hsome := c.unwrapSymmetric_isSome store (baseKey cipher) wrapped
      have hok := c.unwrapSymmetric_ok store (baseKey cipher) wrapped
      rcases hunwrap : c.unwrapSymmetricKey store (baseKey cipher) wrapped with ⟨unwrapped, ctx⟩
      simp only [hparse, hunwrap] at hsome hok ⊢
      cases unwrapped with
      | none => simp [hbase, h] at hsome
      | some keyId =>
          obtain ⟨-, k', hk', hstored⟩ := hok keyId rfl
          rw [hbase] at hk'
          obtain rfl := Option.some.inj hk'
          rw [h] at hstored
          exact ⟨keyId, ctx, requireKey_some hstored, hstored⟩

/-- Without an item key there is nothing to resolve. -/
theorem resolveCipherKey_none {store : c.KeyStore} {cipher : BitwardenCipher}
    (h : itemKey c cipher (c.symmetric store (baseKey cipher)) = none)
    (key : BitwardenSymmetricKeyId) : (resolveCipherKey c store cipher).1 ≠ .ok key := by
  intro hok
  unfold itemKey at h
  unfold resolveCipherKey at hok
  cases hkey : cipher.key.filter fun value => !isBlank value with
  | none =>
      simp only [hkey] at h hok
      rw [requireKey, if_neg (by rw [c.hasSymmetricKey_eq, h]; simp)] at hok
      simp at hok
  | some text =>
      simp only [hkey] at h hok
      cases hparse : c.parseEncString text with
      | none => simp [hparse] at hok
      | some wrapped =>
          have hnone := c.unwrapSymmetric_isSome store (baseKey cipher) wrapped
          rw [hparse, Option.bind_some] at h
          rw [h] at hnone
          rcases hunwrap : c.unwrapSymmetricKey store (baseKey cipher) wrapped with
            ⟨unwrapped, ctx⟩
          rw [hunwrap] at hnone
          cases unwrapped with
          | none => simp [hparse, hunwrap] at hok
          | some keyId => simp at hnone

/-- Resolving a key changes local keys only. -/
theorem resolveCipherKey_frame (store : c.KeyStore) (cipher : BitwardenCipher) :
    (∀ id : BitwardenSymmetricKeyId, id.isLocal = false →
      c.symmetric (resolveCipherKey c store cipher).2 id = c.symmetric store id) ∧
    c.asymmetric (resolveCipherKey c store cipher).2 = c.asymmetric store := by
  unfold resolveCipherKey
  split
  · rw [requireKey_ctx]
    exact ⟨fun _ _ => rfl, rfl⟩
  · split
    · exact ⟨fun _ _ => rfl, rfl⟩
    · rename_i wrapped _
      have hframe := c.unwrapSymmetric_frame store (baseKey cipher) wrapped
      have hasym := c.unwrapSymmetric_asymmetric store (baseKey cipher) wrapped
      rcases hunwrap : c.unwrapSymmetricKey store (baseKey cipher) wrapped with ⟨unwrapped, ctx⟩
      rw [hunwrap] at hframe hasym
      cases unwrapped with
      | none => exact ⟨hframe, hasym⟩
      | some keyId =>
        simp only [requireKey_ctx]
        exact ⟨hframe, hasym⟩

/-! ### The rebuild -/

/-- The organizations of a profile. -/
def organizationsOf (profile : BitwardenProfile) : List BitwardenProfileOrganization :=
  profile.organizations.getD []

/-- A cipher of an organization without a stored key has no key. -/
theorem resolveCipherKey_of_left {ctx : c.KeyStore} {cipher : BitwardenCipher} {id : Uuid}
    (hcipher : cipher.organizationId = some id)
    (hleft : c.symmetric ctx (.organization id) = none) (key : BitwardenSymmetricKeyId) :
    (resolveCipherKey c ctx cipher).1 ≠ .ok key := by
  have hbase : baseKey cipher = .organization id := by rw [baseKey, hcipher]
  refine resolveCipherKey_none ?_ key
  rw [hbase, hleft]
  exact itemKey_none cipher

/-- What a rebuild that succeeds is for: the store holds exactly the organization keys the
profile grants, and nothing else has changed. -/
structure OrgKeysMatch (c : Crypto) (store store' : c.KeyStore)
    (profile : BitwardenProfile) : Prop where
  held : ∀ id, (c.symmetric store' (.organization id)).isSome ↔
    ∃ o ∈ organizationsOf profile, o.id = some id ∧ o.key.isSome
  last : ∀ id text, lastOrgKey (organizationsOf profile) id = some text →
    c.symmetric store' (.organization id) = orgKeyOf c store text
  user : c.symmetric store' .user = c.symmetric store .user
  userPrivateKey : c.asymmetric store' .userPrivateKey = c.asymmetric store .userPrivateKey
  left : ∀ cipher id, cipher.organizationId = some id →
    (∀ o ∈ organizationsOf profile, o.id ≠ some id) →
      ∀ key, (resolveCipherKey c store' cipher).1 ≠ .ok key

/-- The last part of `OrgKeysMatch` follows from the first. -/
theorem left_of_held {store' : c.KeyStore} {profile : BitwardenProfile}
    (hheld : ∀ id, (c.symmetric store' (.organization id)).isSome ↔
      ∃ o ∈ organizationsOf profile, o.id = some id ∧ o.key.isSome)
    {cipher : BitwardenCipher} {id : Uuid} (hcipher : cipher.organizationId = some id)
    (hleft : ∀ o ∈ organizationsOf profile, o.id ≠ some id) (key : BitwardenSymmetricKeyId) :
    (resolveCipherKey c store' cipher).1 ≠ .ok key := by
  refine resolveCipherKey_of_left hcipher ?_ key
  cases hk : c.symmetric store' (.organization id) with
  | none => rfl
  | some k =>
      obtain ⟨o, ho, hid, -⟩ := (hheld id).mp (by rw [hk]; rfl)
      exact absurd hid (hleft o ho)

/-- The user key and the private key outlive every rebuild, a failed one included. -/
theorem initializeOrgKeys_frame (s : c.KeyStore) (profile : BitwardenProfile) :
    c.symmetric (initializeOrgKeys c s profile).2 .user = c.symmetric s .user ∧
      c.asymmetric (initializeOrgKeys c s profile).2 .userPrivateKey =
        c.asymmetric s .userPrivateKey := by
  unfold initializeOrgKeys
  by_cases hempty : (profile.organizations.getD []).isEmpty
  · simp [hempty]
  · by_cases hprivate : c.hasAsymmetricKey s .userPrivateKey
    · have huser := importOrgKeys_frame (c := c) .user rfl
        (profile.organizations.getD []) (c.retainSymmetricKeys s fun key => !key.isOrganization)
      have hasym := importOrgKeys_asymmetric (c := c) (profile.organizations.getD [])
        (c.retainSymmetricKeys s fun key => !key.isOrganization)
      rw [c.retain_symmetric] at huser
      rw [c.retain_asymmetric] at hasym
      simp only [hempty, hprivate, Bool.false_eq_true, Bool.not_true, if_false,
        endContext_user, endContext_userPrivateKey, hasym, and_true]
      simpa [BitwardenSymmetricKeyId.isOrganization] using huser
    · simp [hempty, hprivate]

/-- A rebuild for a profile with organizations that succeeds has imported them all, from a
store without organization keys. -/
theorem initializeOrgKeys_ok {s s' : c.KeyStore} {profile : BitwardenProfile}
    (hsome : organizationsOf profile ≠ []) (h : initializeOrgKeys c s profile = (.ok (), s')) :
    let cleared := c.retainSymmetricKeys s fun key => !key.isOrganization
    (importOrgKeys c cleared (organizationsOf profile)).1 = .ok () ∧
      s' = c.endContext (importOrgKeys c cleared (organizationsOf profile)).2 := by
  intro cleared
  unfold initializeOrgKeys at h
  have hempty : (profile.organizations.getD []).isEmpty = false := by
    rw [List.isEmpty_eq_false_iff]
    exact hsome
  by_cases hprivate : c.hasAsymmetricKey s .userPrivateKey
  · simp only [hempty, hprivate, Bool.false_eq_true, Bool.not_true, if_false,
      Prod.mk.injEq] at h
    exact ⟨h.1, h.2.symm⟩
  · simp [hempty, hprivate] at h

/-- **With an organization in the profile, a rebuild that succeeds is right.** -/
theorem orgKeysMatch_of_organizations {s s' : c.KeyStore} {profile : BitwardenProfile}
    (hsome : organizationsOf profile ≠ []) (h : initializeOrgKeys c s profile = (.ok (), s')) :
    OrgKeysMatch c s s' profile := by
  obtain ⟨hok, hs'⟩ := initializeOrgKeys_ok hsome h
  have hframe := initializeOrgKeys_frame s profile
  rw [h] at hframe
  have hcleared : ∀ id, c.symmetric (c.retainSymmetricKeys s fun key => !key.isOrganization)
      (.organization id) = none := by
    intro id
    rw [c.retain_symmetric]
    rfl
  have hof : ∀ text, orgKeyOf c (c.retainSymmetricKeys s fun key => !key.isOrganization) text =
      orgKeyOf c s text := by
    intro text
    rw [orgKeyOf, c.retain_asymmetric, orgKeyOf]
  have hheld : ∀ id, (c.symmetric s' (.organization id)).isSome ↔
      ∃ o ∈ organizationsOf profile, o.id = some id ∧ o.key.isSome := by
    intro id
    have himport := importOrgKeys_ok id _ _ hok
    rw [← lastOrgKey_isSome, hs', endContext_organization]
    cases hlast : lastOrgKey (organizationsOf profile) id with
    | none =>
        simp only [hlast] at himport
        simp [himport, hcleared]
    | some text =>
        simp only [hlast] at himport
        simp [himport.2, himport.1]
  refine ⟨hheld, ?_, hframe.1, hframe.2, fun _ _ hcipher hleft => left_of_held hheld hcipher hleft⟩
  intro id text hlast
  have himport := importOrgKeys_ok id _ _ hok
  simp only [hlast] at himport
  rw [hs', endContext_organization, himport.2, hof]

/-- **A rebuild that succeeds is right exactly when it was not skipped for nothing**: the
profile names an organization, or the store had no organization key to clear. -/
theorem initializeOrgKeys_matches_iff (store : c.KeyStore) (profile : BitwardenProfile) :
    (∀ store', initializeOrgKeys c store profile = (.ok (), store') →
        OrgKeysMatch c store store' profile) ↔
      organizationsOf profile ≠ [] ∨ ∀ id, c.symmetric store (.organization id) = none := by
  by_cases hnone : organizationsOf profile = []
  · have hskip : initializeOrgKeys c store profile = (.ok (), store) := by
      unfold initializeOrgKeys
      rw [if_pos (by rw [← organizationsOf, hnone]; rfl)]
    constructor
    · intro h
      refine Or.inr fun id => ?_
      have hheld := (h store hskip).held id
      rw [hnone] at hheld
      simpa using hheld
    · rintro (hsome | hclear)
      · exact absurd hnone hsome
      · intro store' h
        obtain rfl : store = store' := by
          rw [hskip] at h
          exact (Prod.mk.inj h).2
        have hheld : ∀ id, (c.symmetric store (.organization id)).isSome ↔
            ∃ o ∈ organizationsOf profile, o.id = some id ∧ o.key.isSome := by
          intro id
          rw [hnone, hclear id]
          simp
        refine ⟨hheld, ?_, rfl, rfl, fun _ _ hcipher hleft => left_of_held hheld hcipher hleft⟩
        intro id text hlast
        rw [hnone] at hlast
        simp [lastOrgKey] at hlast
  · exact iff_of_true (fun _ h => orgKeysMatch_of_organizations hnone h) (Or.inl hnone)

/-- The account leaves its only organization between two syncs, and the organization's key
still opens the organization's items. -/
theorem initializeOrgKeys_lingers :
    let unlocked := (MapStore.empty : MapStore String String).setSymmetric .user "user"
      |>.setAsymmetric .userPrivateKey "private"
    let joined : BitwardenProfile := ⟨some [⟨some ⟨7⟩, some "org"⟩]⟩
    let left : BitwardenProfile := ⟨some []⟩
    let item : BitwardenCipher := ⟨none, some ⟨7⟩, none, none, none, none, none, none⟩
    let store := (initializeOrgKeys (mapCrypto plainSuite) unlocked joined).2
    initializeOrgKeys (mapCrypto plainSuite) store left = (.ok (), store) ∧
      (resolveCipherKey (mapCrypto plainSuite) store item).1 = .ok (.organization ⟨7⟩) ∧
      ¬OrgKeysMatch (mapCrypto plainSuite) store store left := by
  intro unlocked joined left item store
  refine ⟨rfl, rfl, fun h => ?_⟩
  obtain ⟨o, ho, -⟩ := (h.held ⟨7⟩).mp rfl
  exact absurd ho List.not_mem_nil

end Keyring.Bitwarden
