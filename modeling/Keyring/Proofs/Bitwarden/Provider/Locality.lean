/-
Discovery is local to each cipher.

`publish_eq` says a snapshot is the outcomes of its ciphers; what is proved here is what
that is good for.  Two fetches that agree on one cipher and on the key of its scope give it
the same place in their snapshots and the same key there, whatever else is in either vault
and under any other id of either store.  So nothing that happens to another cipher can add,
drop or alter a key.
-/
import Keyring.Proofs.Bitwarden.Provider.Snapshot

namespace Keyring.Bitwarden

variable {c : Crypto} {keys : SshKeys}

/-! ### One cipher -/

/-- The one entry of a store that counts for a cipher: that of the organization it belongs
to, and the user's if it belongs to none. -/
def scopeEntry (c : Crypto) (store : c.KeyStore) : Option Uuid → Option c.SymmetricCryptoKey
  | none => c.symmetric store .user
  | some id => c.symmetric store (.organization id)

theorem symmetric_baseKey_eq (store : c.KeyStore) (cipher : BitwardenCipher) :
    c.symmetric store (baseKey cipher) = scopeEntry c store cipher.organizationId := by
  unfold baseKey
  cases cipher.organizationId <;> rfl

/-- What a cipher puts into a snapshot when it is read in a store: one key or none. -/
def contribution (c : Crypto) (keys : SshKeys) (store : c.KeyStore) (cipher : BitwardenCipher) :
    List keys.PrivateKey :=
  (outcome c keys cipher (scopeEntry c store cipher.organizationId)).toList

theorem contribution_congr {store store' : c.KeyStore} {cipher : BitwardenCipher}
    (h : scopeEntry c store cipher.organizationId = scopeEntry c store' cipher.organizationId) :
    contribution c keys store cipher = contribution c keys store' cipher := by
  rw [contribution, contribution, h]

theorem contribution_of_deleted_or_archived {cipher : BitwardenCipher}
    (h : cipher.isDeleted = true ∨ cipher.isArchived = true) (store : c.KeyStore) :
    contribution c keys store cipher = [] := by
  rw [contribution, outcome_of_not_live]
  · rfl
  · rcases h with h | h
    · simp [isLive, h]
    · simp [isLive, h]

/-- A cipher with a wrapped key of its own is worth what it would be worth without one,
under the unwrapped key. -/
theorem outcome_itemKey (cipher : BitwardenCipher) (base : Option c.SymmetricCryptoKey) :
    outcome c keys cipher base =
      outcome c keys { cipher with key := none } (itemKey c cipher base) := by
  by_cases hlive : isLive cipher = true
  · have hbare : isLive { cipher with key := none } = true := hlive
    rw [outcome_of_live hlive, outcome_of_live hbare]
    rfl
  · have hdead : isLive cipher = false := by simpa using hlive
    have hbare : isLive { cipher with key := none } = false := hdead
    rw [outcome_of_not_live hdead, outcome_of_not_live hbare]

/-! ### The walk -/

/-- A walk leaves the stored keys as they were, the private key included. -/
theorem discoverKeys_frame (ciphers : List BitwardenCipher) :
    ∀ store : c.KeyStore, SameKeys c (discoverKeys c keys ciphers store).2 store ∧
      c.asymmetric (discoverKeys c keys ciphers store).2 .userPrivateKey =
        c.asymmetric store .userPrivateKey := by
  induction ciphers with
  | nil => exact fun store => ⟨.refl c store, rfl⟩
  | cons cipher rest ih =>
    intro store
    obtain ⟨hsame, hprivate⟩ := ih (key c keys cipher store).2
    have hkey := @SameKeys.key keys c store store (.refl c store) cipher
    have hasym := (@key_frame c keys cipher store).2 .userPrivateKey rfl
    refine ⟨⟨?_, ?_⟩, ?_⟩
    · exact hsame.user.trans hkey.user
    · intro id
      exact (hsame.organization id).trans (hkey.organization id)
    · exact hprivate.trans hasym

/-- A fetch whose organizations import. -/
theorem publish_of_rebuilt {store rebuilt : c.KeyStore} {profile : BitwardenProfile}
    (h : initializeOrgKeys c store profile = (.ok (), rebuilt))
    (ciphers : Option (List BitwardenCipher)) :
    publish c keys ⟨some profile, ciphers⟩ store =
      (.ok ((ciphers.getD []).flatMap (contribution c keys rebuilt)),
        (discoverKeys c keys (ciphers.getD []) rebuilt).2) := by
  have hwalk := @discoverKeys_eq c keys (ciphers.getD []) rebuilt
  simp only [symmetric_baseKey_eq] at hwalk
  simp only [publish, h, hwalk]
  rfl

/-! ### Two fetches -/

/-- What a fetch returns for a list of ciphers. -/
def fetched (c : Crypto) (keys : SshKeys) (store : c.KeyStore) (profile : BitwardenProfile)
    (ciphers : List BitwardenCipher) : Except String (List keys.PrivateKey) :=
  (publish c keys ⟨some profile, some ciphers⟩ store).1

theorem fetched_of_rebuilt {store rebuilt : c.KeyStore} {profile : BitwardenProfile}
    (h : initializeOrgKeys c store profile = (.ok (), rebuilt))
    (ciphers : List BitwardenCipher) :
    fetched c keys store profile ciphers =
      .ok (ciphers.flatMap (contribution c keys rebuilt)) := by
  rw [fetched, publish_of_rebuilt h]
  rfl

/-- Locality, for two fetches on whatever stores and responses.  `rebuilt₁` and `rebuilt₂`
are what their refreshes of the organization keys leave. -/
structure LocalDiscovery (c : Crypto) (keys : SshKeys) (store₁ rebuilt₁ : c.KeyStore)
    (profile₁ : BitwardenProfile) (store₂ rebuilt₂ : c.KeyStore) (profile₂ : BitwardenProfile) :
    Prop where
  /-- The snapshot is the outcomes of the ciphers, in the order of the response. -/
  snapshot : ∀ ciphers, (publish c keys ⟨some profile₁, ciphers⟩ store₁).1 =
    .ok ((ciphers.getD []).flatMap fun cipher =>
      (outcome c keys cipher (scopeEntry c rebuilt₁ cipher.organizationId)).toList)
  /-- A wrapped item key that is not blank stands in for the key of the scope. -/
  itemKey : ∀ cipher base, outcome c keys cipher base =
    outcome c keys { cipher with key := none } (itemKey c cipher base)
  /-- Agreement on a cipher and the key of its scope is enough for the same key, or none, in
  the same place. -/
  agree : ∀ cipher : BitwardenCipher,
    scopeEntry c rebuilt₁ cipher.organizationId = scopeEntry c rebuilt₂ cipher.organizationId →
    ∃ found : List keys.PrivateKey, found.length ≤ 1 ∧ ∀ l₁ r₁ l₂ r₂,
      ∃ a₁ b₁ a₂ b₂, fetched c keys store₁ profile₁ l₁ = .ok a₁ ∧
        fetched c keys store₁ profile₁ r₁ = .ok b₁ ∧
        fetched c keys store₂ profile₂ l₂ = .ok a₂ ∧
        fetched c keys store₂ profile₂ r₂ = .ok b₂ ∧
        fetched c keys store₁ profile₁ (l₁ ++ cipher :: r₁) = .ok (a₁ ++ found ++ b₁) ∧
        fetched c keys store₂ profile₂ (l₂ ++ cipher :: r₂) = .ok (a₂ ++ found ++ b₂)
  /-- Ciphers put in or taken out leave the keys of the others, and their order. -/
  insert : ∀ l m r, ∃ a found b, fetched c keys store₁ profile₁ l = .ok a ∧
    fetched c keys store₁ profile₁ m = .ok found ∧ fetched c keys store₁ profile₁ r = .ok b ∧
    fetched c keys store₁ profile₁ (l ++ r) = .ok (a ++ b) ∧
    fetched c keys store₁ profile₁ (l ++ m ++ r) = .ok (a ++ found ++ b)
  reorder : ∀ l l' : List BitwardenCipher, l.Perm l' →
    ∃ a a', fetched c keys store₁ profile₁ l = .ok a ∧
      fetched c keys store₁ profile₁ l' = .ok a' ∧ a.Perm a'
  /-- No other entry of the store counts. -/
  otherScope : ∀ ciphers : List BitwardenCipher,
    (∀ cipher ∈ ciphers,
      scopeEntry c rebuilt₁ cipher.organizationId = scopeEntry c rebuilt₂ cipher.organizationId) →
    fetched c keys store₁ profile₁ ciphers = fetched c keys store₂ profile₂ ciphers
  /-- Whatever a deleted or archived cipher holds, it might as well not be there. -/
  dead : ∀ cipher : BitwardenCipher, cipher.isDeleted = true ∨ cipher.isArchived = true →
    ∀ l r, fetched c keys store₁ profile₁ (l ++ cipher :: r) =
      fetched c keys store₁ profile₁ (l ++ r)
  /-- The keys the refresh left are still there at the end. -/
  stored : ∀ ciphers, SameKeys c (publish c keys ⟨some profile₁, ciphers⟩ store₁).2 rebuilt₁ ∧
    c.asymmetric (publish c keys ⟨some profile₁, ciphers⟩ store₁).2 .userPrivateKey =
      c.asymmetric rebuilt₁ .userPrivateKey

/-- **Discovery is local to each cipher.** -/
theorem discovery_local {store₁ rebuilt₁ store₂ rebuilt₂ : c.KeyStore}
    {profile₁ profile₂ : BitwardenProfile}
    (h₁ : initializeOrgKeys c store₁ profile₁ = (.ok (), rebuilt₁))
    (h₂ : initializeOrgKeys c store₂ profile₂ = (.ok (), rebuilt₂)) :
    LocalDiscovery c keys store₁ rebuilt₁ profile₁ store₂ rebuilt₂ profile₂ where
  snapshot ciphers := by
    rw [publish_of_rebuilt h₁]
    rfl
  itemKey := outcome_itemKey
  agree cipher hagree := by
    refine ⟨contribution c keys rebuilt₁ cipher, ?_, ?_⟩
    · rw [contribution]
      cases outcome c keys cipher (scopeEntry c rebuilt₁ cipher.organizationId) with
      | none => simp
      | some key => simp
    · intro l₁ r₁ l₂ r₂
      have hsame := @contribution_congr c keys rebuilt₁ rebuilt₂ cipher hagree
      refine ⟨_, _, _, _, fetched_of_rebuilt h₁ l₁, fetched_of_rebuilt h₁ r₁,
        fetched_of_rebuilt h₂ l₂, fetched_of_rebuilt h₂ r₂, ?_, ?_⟩
      · rw [fetched_of_rebuilt h₁]
        simp
      · rw [fetched_of_rebuilt h₂, hsame]
        simp
  insert l m r := by
    refine ⟨_, _, _, fetched_of_rebuilt h₁ l, fetched_of_rebuilt h₁ m, fetched_of_rebuilt h₁ r,
      ?_, ?_⟩
    · rw [fetched_of_rebuilt h₁, List.flatMap_append]
    · rw [fetched_of_rebuilt h₁, List.flatMap_append, List.flatMap_append]
  reorder l l' hperm :=
    ⟨_, _, fetched_of_rebuilt h₁ l, fetched_of_rebuilt h₁ l', hperm.flatMap_right _⟩
  otherScope ciphers hagree := by
    rw [fetched_of_rebuilt h₁, fetched_of_rebuilt h₂]
    congr 1
    exact List.flatMap_congr fun cipher hcipher => contribution_congr (hagree cipher hcipher)
  dead cipher hdead l r := by
    rw [fetched_of_rebuilt h₁, fetched_of_rebuilt h₁, List.flatMap_append, List.flatMap_cons,
      contribution_of_deleted_or_archived hdead, List.nil_append, List.flatMap_append]
  stored ciphers := by
    rw [publish_of_rebuilt h₁]
    exact discoverKeys_frame _ _

/-- A live item of an organization, with a key of its own under the organization's. -/
def orgItem : BitwardenCipher :=
  { sshItem (some "shared") with organizationId := some ⟨9⟩, key := some "org" }

/-- A vault with an organization beside one without: the organization's item is published
where the organization's key is, and the item of the user in both. -/
theorem discovery_local_two :
    let shared : BitwardenProfile := ⟨some [⟨some ⟨9⟩, some "org"⟩]⟩
    let store := unlockedStore.setAsymmetric .userPrivateKey "private"
    let rebuilt := (initializeOrgKeys (mapCrypto plainSuite) store shared).2
    fetched (mapCrypto plainSuite) plainKeys store shared [orgItem, sshItem (some "mine")] =
        .ok [(3, "shared"), (3, "mine")] ∧
      fetched (mapCrypto plainSuite) plainKeys unlockedStore ⟨none⟩
        [orgItem, sshItem (some "mine")] = .ok [(3, "mine")] ∧
      LocalDiscovery (mapCrypto plainSuite) plainKeys store rebuilt shared unlockedStore
        unlockedStore ⟨none⟩ := by
  intro shared store rebuilt
  refine ⟨rfl, rfl, discovery_local ?_ ?_⟩
  · rfl
  · rfl

/-! ### Fetches among other calls -/

/-- Every snapshot that a load publishes, whoever else was loading, is the outcomes of one
response's ciphers under the keys that its own refresh left. -/
theorem published_outcomes {env : Env} {w : LoadWorld env keys} {i : CallId}
    {snapshot : KeyPairSnapshot keys} (h : (loadMachine env keys).Reachable w)
    (hpublished : (i, .published snapshot) ∈ w.log) :
    ∃ response store profile, (i, .synced response) ∈ w.log ∧
      (i, .rebuilt response store) ∈ w.log ∧ response.profile = some profile ∧
      snapshot = (response.ciphers.getD []).flatMap
        (contribution env.crypto keys (initializeOrgKeys env.crypto store profile).2) := by
  obtain ⟨⟨profile, ciphers⟩, store, hsynced, hrebuilt, hpublish⟩ :=
    (load_facts h).2.published i snapshot hpublished
  cases profile with
  | none => cases hpublish
  | some profile =>
      have hsnapshot := publish_eq hpublish
      simp only [symmetric_baseKey_eq] at hsnapshot
      exact ⟨_, store, profile, hsynced, hrebuilt, rfl, hsnapshot⟩

end Keyring.Bitwarden
