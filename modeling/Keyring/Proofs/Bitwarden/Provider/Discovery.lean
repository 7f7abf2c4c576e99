/-
The snapshot of one sync response.

Every cipher is looked at in the store that the organization rebuild left, so a snapshot is
the outcomes of its ciphers in their order.  That makes discovery indifferent to a bad
cipher; a bad organization is another matter, because the rebuild answers for the whole
fetch.  A missing private key and an unreadable organization entry each lose the personal
keys too, and nothing else does.
-/
import Keyring.Proofs.Bitwarden.Provider.Key

namespace Keyring.Bitwarden

variable {c : Crypto} {keys : SshKeys}

/-! ### The walk -/

theorem baseKey_isLocal (cipher : BitwardenCipher) : (baseKey cipher).isLocal = false := by
  unfold baseKey
  split
  · rfl
  · rfl

/-- **A walk finds the outcomes of its ciphers, in their order**, all of them in the store
it started from. -/
theorem discoverKeys_eq (ciphers : List BitwardenCipher) :
    ∀ store : c.KeyStore, (discoverKeys c keys ciphers store).1 =
      ciphers.flatMap fun cipher =>
        (outcome c keys cipher (c.symmetric store (baseKey cipher))).toList := by
  induction ciphers with
  | nil => intro store; rfl
  | cons cipher rest ih =>
    intro store
    have hframe := (@key_frame c keys cipher store).1
    show kept keys (key c keys cipher store).1 ++
      (discoverKeys c keys rest (key c keys cipher store).2).1 = _
    rw [kept_key, ih, List.flatMap_cons]
    congr 2
    funext other
    rw [hframe _ (baseKey_isLocal other)]

/-! ### When the organizations import -/

/-- Every entry that the import does not skip opens. -/
def EntriesOpen (c : Crypto) (s : c.KeyStore)
    (organizations : List BitwardenProfileOrganization) : Prop :=
  ∀ o ∈ organizations, ∀ id text, o.id = some id → o.key = some text →
    (orgKeyOf c s text).isSome

theorem orgKeyOf_congr {s s' : c.KeyStore}
    (h : c.asymmetric s' .userPrivateKey = c.asymmetric s .userPrivateKey) (text : String) :
    orgKeyOf c s' text = orgKeyOf c s text := by
  rw [orgKeyOf, orgKeyOf, h]

theorem importOrgKeys_ok_iff (organizations : List BitwardenProfileOrganization) :
    ∀ ctx : c.KeyStore, (importOrgKeys c ctx organizations).1 = .ok () ↔
      EntriesOpen c ctx organizations := by
  induction organizations with
  | nil => intro ctx; simp [importOrgKeys, EntriesOpen]
  | cons o rest ih =>
    intro ctx
    unfold importOrgKeys
    simp only [EntriesOpen, List.forall_mem_cons]
    split
    · rename_i id text hid htext
      have hhead : (∀ id text, o.id = some id → o.key = some text →
          (orgKeyOf c ctx text).isSome) ↔ (orgKeyOf c ctx text).isSome := by
        simp [hid, htext]
      rw [hhead]
      cases hparse : c.parseSharedKey text with
      | none => simp [orgKeyOf, hparse]
      | some e =>
        have hasym := c.decapsulate_asymmetric ctx .userPrivateKey (.organization id) e
        have hset := c.decapsulate_set ctx .userPrivateKey (.organization id) e
        have hok := c.decapsulate_ok ctx .userPrivateKey (.organization id) e
        rcases hdec : c.decapsulateKeyUnsigned ctx .userPrivateKey (.organization id) e
          with ⟨done, ctx'⟩
        simp only [hdec] at hasym hset hok ⊢
        cases done with
        | true =>
          obtain ⟨p, k, hp, hk, -⟩ := hset rfl
          have hopen : orgKeyOf c ctx text = some k := by simp [orgKeyOf, hparse, hp, hk]
          simp only [ih ctx', EntriesOpen, orgKeyOf_congr (congrFun hasym _), hopen,
            Option.isSome_some, true_and]
        | false =>
          have hnone : orgKeyOf c ctx text = none := by
            rw [Option.eq_none_iff_forall_ne_some]
            intro k hk
            unfold orgKeyOf at hk
            rw [hparse, Option.bind_some] at hk
            obtain ⟨p, hp, hk⟩ := Option.bind_eq_some_iff.mp hk
            cases hok p k rfl hp hk
          simp [hnone]
    · rename_i hskip
      have hhead : ∀ id text, o.id = some id → o.key = some text →
          (orgKeyOf c ctx text).isSome := fun id text hid htext =>
        absurd htext (hskip id text hid)
      rw [ih ctx]
      exact ⟨fun hrest => ⟨hhead, hrest⟩, And.right⟩

/-- What a rebuild needs: no organization, or a private key and entries that open with it. -/
def OrgKeysImport (c : Crypto) (s : c.KeyStore) (profile : BitwardenProfile) : Prop :=
  organizationsOf profile = [] ∨
    (c.asymmetric s .userPrivateKey).isSome ∧ EntriesOpen c s (organizationsOf profile)

theorem initializeOrgKeys_ok_iff (s : c.KeyStore) (profile : BitwardenProfile) :
    (initializeOrgKeys c s profile).1 = .ok () ↔ OrgKeysImport c s profile := by
  unfold initializeOrgKeys OrgKeysImport organizationsOf
  by_cases hempty : profile.organizations.getD [] = []
  · simp [hempty]
  · by_cases hprivate : (c.asymmetric s .userPrivateKey).isSome
    · have himport := importOrgKeys_ok_iff (profile.organizations.getD [])
        (c.retainSymmetricKeys s fun key => !key.isOrganization)
      have hcleared := orgKeyOf_congr (congrFun
        (c.retain_asymmetric s fun key => !key.isOrganization) .userPrivateKey)
      simp only [EntriesOpen, hcleared] at himport
      simp [hempty, hprivate, c.hasAsymmetricKey_eq, himport, EntriesOpen]
    · simp [hempty, hprivate, c.hasAsymmetricKey_eq]

/-- The key of a cipher's scope once the organizations of a profile are imported. -/
def scopeKey (c : Crypto) (s : c.KeyStore) (profile : BitwardenProfile)
    (cipher : BitwardenCipher) : Option c.SymmetricCryptoKey :=
  match cipher.organizationId with
  | none => c.symmetric s .user
  | some id =>
      if organizationsOf profile = [] then c.symmetric s (.organization id)
      else (lastOrgKey (organizationsOf profile) id).bind (orgKeyOf c s)

theorem symmetric_baseKey {s : c.KeyStore} {profile : BitwardenProfile}
    (h : OrgKeysImport c s profile) (cipher : BitwardenCipher) :
    c.symmetric (initializeOrgKeys c s profile).2 (baseKey cipher) =
      scopeKey c s profile cipher := by
  unfold scopeKey baseKey
  cases cipher.organizationId with
  | none => exact (initializeOrgKeys_frame s profile).1
  | some id =>
    show c.symmetric (initializeOrgKeys c s profile).2 (.organization id) = ite _ _ _
    by_cases hnone : organizationsOf profile = []
    · have hskip : (profile.organizations.getD []).isEmpty = true := by
        rw [← organizationsOf, hnone]
        rfl
      rw [if_pos hnone, initializeOrgKeys, if_pos hskip]
    · have hok := (initializeOrgKeys_ok_iff s profile).mpr h
      have hmatch := orgKeysMatch_of_organizations hnone (Prod.ext hok rfl)
      rw [if_neg hnone]
      cases hlast : lastOrgKey (organizationsOf profile) id with
      | some text => exact hmatch.last id text hlast
      | none =>
        have hheld := hmatch.held id
        rw [← lastOrgKey_isSome, hlast] at hheld
        simpa using hheld

/-! ### Personal items -/

/-- A live item of no organization whose key, name and private key can be read. -/
structure Personal (c : Crypto) (keys : SshKeys) (store : c.KeyStore)
    (cipher : BitwardenCipher) (id : Uuid) (k : c.SymmetricCryptoKey) (priv : keys.PrivateKey) :
    Prop where
  scope : cipher.organizationId = none
  usable : Usable c keys cipher (c.symmetric store .user) id k priv
  name : NameOpens c cipher k

/-- A response's personal items are all in its snapshot. -/
def PersonalPublished (c : Crypto) (keys : SshKeys) (store : c.KeyStore)
    (sync : BitwardenSyncResponse) : Prop :=
  ∀ cipher ∈ sync.ciphers.getD [], ∀ id k priv, Personal c keys store cipher id k priv →
    ∃ snapshot, (publish c keys sync store).1 = .ok snapshot ∧
      ∃ out ∈ snapshot, IdentityOf c keys cipher id k priv out

/-- A fetch succeeds exactly when the organizations import. -/
theorem publish_ok_iff (store : c.KeyStore) (profile : BitwardenProfile)
    (ciphers : Option (List BitwardenCipher)) :
    (∃ snapshot, (publish c keys ⟨some profile, ciphers⟩ store).1 = .ok snapshot) ↔
      OrgKeysImport c store profile := by
  rw [← initializeOrgKeys_ok_iff]
  unfold publish
  rcases hinit : initializeOrgKeys c store profile with ⟨result, store'⟩
  cases result with
  | error error => simp [hinit]
  | ok _ => simp [hinit]

/-- A response without a profile is an error. -/
theorem publish_noProfile {sync : BitwardenSyncResponse} (h : sync.profile = none)
    (store : c.KeyStore) : (publish c keys sync store).1 =
      .error "bitwarden sync response missing profile" := by
  unfold publish
  rw [h]

/-- So is one whose organization keys do not import. -/
theorem publish_refused {sync : BitwardenSyncResponse} {profile : BitwardenProfile}
    {store : c.KeyStore} {error : String} (hprofile : sync.profile = some profile)
    (h : (initializeOrgKeys c store profile).1 = .error error) :
    (publish c keys sync store).1 = .error error := by
  unfold publish
  rcases hinit : initializeOrgKeys c store profile with ⟨result, store'⟩
  rw [hinit] at h
  obtain rfl : result = .error error := h
  simp only [hprofile, hinit]

/-- The snapshot of a fetch that succeeds. -/
theorem publish_eq {store : c.KeyStore} {profile : BitwardenProfile}
    {ciphers : Option (List BitwardenCipher)} {snapshot : List keys.PrivateKey}
    (h : (publish c keys ⟨some profile, ciphers⟩ store).1 = .ok snapshot) :
    snapshot = (ciphers.getD []).flatMap fun cipher => Option.toList (outcome c keys cipher
      (c.symmetric (initializeOrgKeys c store profile).2 (baseKey cipher))) := by
  rw [← discoverKeys_eq]
  unfold publish at h
  rcases hinit : initializeOrgKeys c store profile with ⟨result, store'⟩
  cases result with
  | error error => simp [hinit] at h
  | ok _ => simpa [hinit] using h.symm

/-- **Personal keys are published exactly when every organization of the profile imports**,
unless there are none to publish. -/
theorem personalPublished_iff (store : c.KeyStore) (profile : BitwardenProfile)
    (ciphers : Option (List BitwardenCipher)) :
    PersonalPublished c keys store ⟨some profile, ciphers⟩ ↔
      OrgKeysImport c store profile ∨
        ∀ cipher ∈ ciphers.getD [], ∀ id k priv, ¬Personal c keys store cipher id k priv := by
  constructor
  · intro h
    by_contra hneither
    rw [not_or] at hneither
    obtain ⟨himport, hpersonal⟩ := hneither
    refine hpersonal fun cipher hcipher id k priv hp => himport ?_
    obtain ⟨snapshot, hsnapshot, -⟩ := h cipher hcipher id k priv hp
    exact (publish_ok_iff store profile ciphers).mp ⟨snapshot, hsnapshot⟩
  · rintro (himport | hnone)
    · intro cipher hcipher id k priv hp
      obtain ⟨snapshot, hsnapshot⟩ :=
        (@publish_ok_iff c keys store profile ciphers).mpr himport
      refine ⟨snapshot, hsnapshot, _, ?_, identityOf_setComment cipher id k priv⟩
      have hbase : baseKey cipher = .user := by rw [baseKey, hp.scope]
      rw [publish_eq hsnapshot, List.mem_flatMap]
      refine ⟨cipher, hcipher, ?_⟩
      rw [hbase, (initializeOrgKeys_frame store profile).1, outcome_of_usable hp.usable,
        openField_of_nameOpens hp.name]
      simp
    · intro cipher hcipher id k priv hp
      exact absurd hp (hnone cipher hcipher id k priv)

/-- The bootstrap goes on without the private key, and the first sync of an account with an
organization then fails as a whole. -/
theorem personal_hidden :
    let unlock : MasterPasswordUnlockResponseModel :=
      ⟨.pbkdf2Sha256, 600000, none, none, some "user", some "salt"⟩
    let token : BitwardenTokenSuccessResponse := ⟨"token", 3600, some "rotated", some ⟨some unlock⟩⟩
    let bootstrap := initializeUserCrypto (mapCrypto plainSuite) MapStore.empty "user" token
    let sync : BitwardenSyncResponse :=
      ⟨some ⟨some [⟨some ⟨9⟩, some "org"⟩]⟩, some [sshItem (some "deploy")]⟩
    bootstrap.1 = .ok () ∧
      Personal (mapCrypto plainSuite) plainKeys bootstrap.2 (sshItem (some "deploy")) ⟨7⟩ "user"
        (3, "") ∧
      (publish (mapCrypto plainSuite) plainKeys sync bootstrap.2).1 =
        .error "bitwarden user private key is missing" ∧
      ¬PersonalPublished (mapCrypto plainSuite) plainKeys bootstrap.2 sync := by
  intro unlock token bootstrap sync
  have hpersonal : Personal (mapCrypto plainSuite) plainKeys bootstrap.2
      (sshItem (some "deploy")) ⟨7⟩ "user" (3, "") := by
    refine ⟨rfl, ⟨rfl, rfl, rfl, rfl, rfl, ⟨_, "pem", "pem", rfl, rfl, rfl, rfl⟩⟩, ?_⟩
    intro text htext
    obtain rfl := Option.some.inj htext
    rfl
  have herror : (publish (mapCrypto plainSuite) plainKeys sync bootstrap.2).1 =
      .error "bitwarden user private key is missing" := rfl
  refine ⟨rfl, hpersonal, herror, fun h => ?_⟩
  obtain ⟨snapshot, hsnapshot, -⟩ := h _ List.mem_cons_self _ _ _ hpersonal
  rw [herror] at hsnapshot
  cases hsnapshot

end Keyring.Bitwarden
