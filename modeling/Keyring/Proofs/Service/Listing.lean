/-
The listing and the signatures of a session agree.

Both come from one index, the listing by walking through it and a signature by a lookup.
The index is built by a nested loop in which a later key replaces an earlier one, so both
are described by one function of the loaded keys, the last key with a given public key.
-/
import Keyring.Service.Session

namespace Keyring.Service

open OpenSession

variable {keys : SshKeys} {Provider : Type*} {answer answer' : Nat → Answer keys}
  {providers providers' : List Provider} {index index' : KeyIndex keys} {calls calls' : List Nat}
  {s s' : OpenSession keys Provider}

/-- The keys of an answer. -/
def snapshotOf : Answer keys → List keys.PrivateKey
  | .ok snapshot => snapshot
  | .error _ => []

/-- All keys of `n` providers from provider `i` on, in provider-then-snapshot order. -/
def loadedFrom (answer : Nat → Answer keys) (i n : Nat) : List keys.PrivateKey :=
  (List.range' i n).flatMap fun j => snapshotOf (answer j)

/-- All keys of the first `n` providers. -/
def loadedKeys (answer : Nat → Answer keys) (n : Nat) : List keys.PrivateKey :=
  loadedFrom answer 0 n

/-- The last of the keys with a public key. -/
def lastKey (loaded : List keys.PrivateKey) (k : keys.KeyData) : Option keys.PrivateKey :=
  Index.last keys.publicKey loaded k

/-! ### The index of a load -/

/-- A provider that fails ends the loop. -/
theorem loadFrom_error (answer : Nat → Answer keys) (providers : List Provider)
    (out : KeyIndex keys) {i : Nat} {error : String} (h : answer i = .error error)
    (provider : Provider) :
    loadFrom answer i (provider :: providers) out =
      ([i], .error ("provider load failed at index " ++ toString i ++ ": " ++ error)) := by
  rw [loadFrom, h]

/-- A provider that answers adds its keys. -/
theorem loadFrom_ok (answer : Nat → Answer keys) (providers : List Provider)
    (out : KeyIndex keys) {i : Nat} {snapshot : List keys.PrivateKey}
    (h : answer i = .ok snapshot) (provider : Provider) :
    loadFrom answer i (provider :: providers) out =
      (i :: (loadFrom answer (i + 1) providers (Index.extend keys.publicKey out snapshot)).1,
        (loadFrom answer (i + 1) providers (Index.extend keys.publicKey out snapshot)).2) := by
  rw [loadFrom, h]

/-- **The loop leaves the last key under every public key**, after those there were. -/
theorem loadFrom_lookup (answer : Nat → Answer keys) (providers : List Provider) :
    ∀ (i : Nat) (out : KeyIndex keys), (loadFrom answer i providers out).2 = .ok index →
      ∀ k, index[k]? = (lastKey (loadedFrom answer i providers.length) k).or out[k]? := by
  induction providers with
  | nil =>
      intro i out h k
      obtain rfl : out = index := Except.ok.inj h
      rfl
  | cons provider rest ih =>
      intro i out h k
      cases hanswer : answer i with
      | error error =>
          rw [loadFrom_error answer rest out hanswer] at h
          exact absurd h (by simp)
      | ok snapshot =>
          rw [loadFrom_ok answer rest out hanswer] at h
          have hsplit : loadedFrom answer i (provider :: rest).length =
              snapshot ++ loadedFrom answer (i + 1) rest.length := by
            unfold loadedFrom
            rw [List.length_cons, List.range'_succ, List.flatMap_cons, hanswer]
            rfl
          rw [ih (i + 1) _ h k, Index.getElem?_extend, hsplit]
          unfold lastKey
          rw [Index.last_append, Option.or_assoc]

theorem load_lookup (h : (load answer providers).2 = .ok index) (k : keys.KeyData) :
    index[k]? = lastKey (loadedKeys answer providers.length) k := by
  rw [loadFrom_lookup answer providers 0 ∅ h k, Std.HashMap.getElem?_empty, Option.or_none]
  rfl

/-! ### The listing of an index -/

/-- The listing is the entries in order, with their comments. -/
theorem listing_eq (index : KeyIndex keys) :
    listing index = (Index.ascending index).map fun (pubkey, key) =>
      AgentIdentity.mk pubkey (keys.comment key) := by
  unfold listing Index.ascending
  symm
  apply List.map_mergeSort
  intro a _ b _
  rfl

theorem pairwise_listing (index : KeyIndex keys) :
    (listing index).Pairwise fun a b => a.pubkey < b.pubkey := by
  rw [listing_eq, List.pairwise_map]
  exact Index.pairwise_ascending index

theorem mem_listing {id : AgentIdentity keys} :
    id ∈ listing index ↔ ∃ key, index[id.pubkey]? = some key ∧ id.comment = keys.comment key := by
  rw [listing_eq, List.mem_map]
  constructor
  · rintro ⟨⟨pubkey, key⟩, hmem, rfl⟩
    exact ⟨key, Index.mem_ascending.mp hmem, rfl⟩
  · rintro ⟨key, hkey, hcomment⟩
    refine ⟨(id.pubkey, key), Index.mem_ascending.mpr hkey, ?_⟩
    show AgentIdentity.mk id.pubkey (keys.comment key) = id
    rw [← hcomment]

/-- The listing depends on what can be looked up and on nothing else. -/
theorem listing_congr (h : ∀ k : keys.KeyData, index[k]? = index'[k]?) :
    listing index = listing index' := by
  rw [listing_eq, listing_eq, Index.ascending_eq h]

/-! ### The error of an unpublished key -/

/-- The first letter of a text. -/
def firstChar (text : String) : Option Char := text.toList.head?

theorem firstChar_append {a : String} (h : firstChar a ≠ none) (b : String) :
    firstChar (a ++ b) = firstChar a := by
  unfold firstChar at h ⊢
  rw [String.toList_append]
  cases ha : a.toList with
  | nil => simp [ha] at h
  | cons c rest => rfl

/-- An error of a callee is printed behind the text of its caller. -/
theorem firstChar_withContext {α : Type} {text error : String} {result : Except String α}
    (htext : firstChar text ≠ none) (h : withContext text result = .error error) :
    firstChar error = firstChar text := by
  cases result with
  | ok a => simp [withContext] at h
  | error cause =>
      obtain rfl : text ++ ": " ++ cause = error := Except.error.inj h
      rw [firstChar_append, firstChar_append htext]
      rw [firstChar_append htext]
      exact htext

/-- No error of a signer begins like the one of an unpublished key. -/
def SignerError (error : String) : Prop :=
  firstChar error = some 'i' ∨ firstChar error = some 'c'

theorem signerError_withContext {α : Type} {text error : String} {result : Except String α}
    (htext : firstChar text = some 'i') (h : withContext text result = .error error) :
    SignerError error := by
  refine Or.inl ?_
  rw [firstChar_withContext (by simp [htext]) h, htext]

theorem signerError_bigUint {n : Int} {error : String} (h : keys.bigUint n = .error error) :
    SignerError error := by
  obtain rfl := keys.bigUint_error n error h
  exact Or.inr rfl

theorem signerError_requestedHash {flags : UInt32} {error : String}
    (h : requestedHash flags = .error error) : SignerError error := by
  unfold requestedHash at h
  split at h
  · exact absurd h (by simp)
  · split at h
    · exact absurd h (by simp)
    · obtain rfl := Except.error.inj h
      exact Or.inl rfl

theorem signerError_signingKey {pair : RsaKeypair} {error : String}
    (h : rsaSigningKey keys pair = .error error) : SignerError error := by
  unfold rsaSigningKey at h
  simp only [bind, Except.bind] at h
  repeat' split at h
  all_goals first
    | exact signerError_withContext rfl h
    | (obtain rfl := Except.error.inj h; exact signerError_bigUint ‹_›)

theorem signerError_sigRsa {key : keys.PrivateKey} {data : List UInt8} {hash : HashAlg}
    {error : String} (h : sigRsa keys key data hash = .returned (.error error)) :
    SignerError error := by
  have hfixed : ∀ {text : String}, firstChar text = some 'i' →
      SigOutcome.returned (.error text) = .returned (.error error) → SignerError error := by
    intro text htext heq
    obtain rfl : text = error := by simpa using heq
    exact Or.inl htext
  unfold sigRsa at h
  split at h
  · exact hfixed rfl h
  · split at h
    · rename_i hkey
      obtain rfl := Except.error.inj (SigOutcome.returned.inj h)
      exact signerError_signingKey hkey
    · split at h
      · exact hfixed rfl h
      · cases hash with
        | other => exact absurd h (by simp [rsaSignature])
        | sha256 | sha512 =>
            simp only [rsaSignature] at h
            split at h
            · exact absurd h (by simp)
            · rename_i hsignature
              obtain rfl := Except.error.inj (SigOutcome.returned.inj h)
              exact signerError_withContext rfl (Option.some.inj hsignature)
            · exact signerError_withContext rfl (SigOutcome.returned.inj h)

/-- A signer that fails says so in its own words. -/
theorem signerError_sig {key : keys.PrivateKey} {data : List UInt8} {flags : UInt32}
    {error : String} (h : sig keys key data flags = .returned (.error error)) :
    SignerError error := by
  unfold sig at h
  split at h
  · exact signerError_withContext rfl (SigOutcome.returned.inj h)
  · split at h
    · rename_i hhash
      obtain rfl := Except.error.inj (SigOutcome.returned.inj h)
      exact signerError_requestedHash hhash
    · exact signerError_sigRsa h
  · obtain rfl := Except.error.inj (SigOutcome.returned.inj h)
    exact Or.inl rfl

/-- What a signer's result is as a reply. -/
def replyOfSig : SigOutcome → Reply keys
  | .returned (.ok signature) => .signature signature
  | .returned (.error error) => other error
  | .unreachable => .panicked

theorem signWith_some {req : SignRequest keys} {key : keys.PrivateKey}
    (h : index[req.pubkey]? = some key) :
    signWith index req = replyOfSig (sig keys key req.data req.flags) := by
  unfold signWith
  rw [h]
  rfl

/-- **A sign request fails as unpublished exactly when its key is not in the index.** -/
theorem signWith_unpublished {req : SignRequest keys} :
    signWith index req = other unpublished ↔ index[req.pubkey]? = none := by
  constructor
  · intro h
    cases hkey : index[req.pubkey]? with
    | none => rfl
    | some key =>
        rw [signWith_some hkey] at h
        cases hsig : sig keys key req.data req.flags with
        | unreachable => exact absurd h (by simp [hsig, replyOfSig, other])
        | returned result =>
            cases result with
            | ok signature => exact absurd h (by simp [hsig, replyOfSig, other])
            | error error =>
                rw [hsig] at h
                obtain rfl : error = unpublished := by simpa [replyOfSig, other] using h
                rcases signerError_sig hsig with hfirst | hfirst
                · exact absurd hfirst (by decide)
                · exact absurd hfirst (by decide)
  · intro h
    unfold signWith
    rw [h]

/-- A signature is made with the key that the index has under the requested one. -/
theorem signWith_signature {req : SignRequest keys} {signature : Signature}
    (h : signWith index req = .signature signature) :
    ∃ key, index[req.pubkey]? = some key ∧
      sig keys key req.data req.flags = .returned (.ok signature) := by
  unfold signWith at h
  split at h
  · cases h
  · rename_i key hkey
    split at h
    · rename_i hsig
      obtain rfl := Reply.signature.inj h
      exact ⟨key, hkey, hsig⟩
    · cases h
    · cases h

/-! ### A loaded session -/

/-- What a session publishes when `loaded` are the keys of its providers in order, and
`list` is its listing. -/
structure Published (loaded : List keys.PrivateKey) (s : OpenSession keys Provider)
    (list : List (AgentIdentity keys)) : Prop where
  /-- Every listing is `list`. -/
  listed : ∀ answer, (s.requestIdentities answer).2.2 = .identities list
  ascending : list.Pairwise fun a b => a.pubkey < b.pubkey
  complete : ∀ k, (∃ id ∈ list, id.pubkey = k) ↔ ∃ key ∈ loaded, keys.publicKey key = k
  comment : ∀ id ∈ list, ∃ key, lastKey loaded id.pubkey = some key ∧
    id.comment = keys.comment key
  /-- A sign request is answered by the last key with the public key it names. -/
  signs : ∀ answer req key, lastKey loaded req.pubkey = some key →
    keys.publicKey key = req.pubkey ∧
      (s.sign answer req).2.2 = replyOfSig (sig keys key req.data req.flags)
  refuses : ∀ answer req, (s.sign answer req).2.2 = other unpublished ↔
    ∀ id ∈ list, id.pubkey ≠ req.pubkey

theorem loadOnce_some (h : s.keys = some index) (answer : Nat → Answer keys) :
    s.loadOnce answer = (s, [], .ok index) := by
  unfold OpenSession.loadOnce
  rw [h]

theorem requestIdentities_some (h : s.keys = some index) (answer : Nat → Answer keys) :
    s.requestIdentities answer = (s, [], .identities (listing index)) := by
  unfold OpenSession.requestIdentities
  rw [loadOnce_some h]

theorem sign_some (h : s.keys = some index) (answer : Nat → Answer keys)
    (req : SignRequest keys) : s.sign answer req = (s, [], signWith index req) := by
  unfold OpenSession.sign
  rw [loadOnce_some h]

/-- A successful load of a new session. -/
theorem loadOnce_none (hnew : s.keys = none) (h : s.loadOnce answer = (s', calls, .ok index)) :
    (load answer s.providers).2 = .ok index ∧ s'.keys = some index := by
  unfold OpenSession.loadOnce at h
  rw [hnew] at h
  rcases hload : load answer s.providers with ⟨calls', result⟩
  cases result with
  | error error => simp [hload] at h
  | ok index' =>
      simp only [hload, Prod.mk.injEq, Except.ok.injEq] at h
      obtain ⟨rfl, -, rfl⟩ := h
      exact ⟨rfl, rfl⟩

/-- A key is listed exactly when it was loaded. -/
theorem listed_iff {loaded : List keys.PrivateKey}
    (h : ∀ k, index[k]? = lastKey loaded k) (k : keys.KeyData) :
    (∃ id ∈ listing index, id.pubkey = k) ↔ (lastKey loaded k).isSome := by
  constructor
  · rintro ⟨id, hmem, rfl⟩
    obtain ⟨key, hkey, -⟩ := mem_listing.mp hmem
    rw [← h, hkey]
    rfl
  · intro hsome
    obtain ⟨key, hkey⟩ := Option.isSome_iff_exists.mp hsome
    exact ⟨⟨k, keys.comment key⟩, mem_listing.mpr ⟨key, by rw [h, hkey], rfl⟩, rfl⟩

theorem published_of_lookup {loaded : List keys.PrivateKey} (hkeys : s.keys = some index)
    (h : ∀ k, index[k]? = lastKey loaded k) : Published loaded s (listing index) := by
  refine ⟨?_, pairwise_listing index, ?_, ?_, ?_, ?_⟩
  · intro answer
    rw [requestIdentities_some hkeys]
  · intro k
    rw [listed_iff h]
    exact Index.last_isSome
  · intro id hid
    obtain ⟨key, hkey, hcomment⟩ := mem_listing.mp hid
    exact ⟨key, by rw [← h, hkey], hcomment⟩
  · intro answer req key hkey
    refine ⟨(Index.last_eq_some hkey).2, ?_⟩
    rw [sign_some hkeys]
    exact signWith_some (by rw [h, hkey])
  · intro answer req
    rw [sign_some hkeys]
    show signWith index req = other unpublished ↔ _
    have hlisted := listed_iff h req.pubkey
    rw [signWith_unpublished, h, ← Option.not_isSome_iff_eq_none, ← hlisted]
    simp

/-- **The listing and the signatures of a session agree**, and where no public key is
loaded twice they do not depend on the order in which keys and providers come. -/
theorem requestIdentities_published (hnew : s.keys = none)
    (hload : s.loadOnce answer = (s', calls, .ok index)) :
    (s.requestIdentities answer).2.2 = .identities (listing index) ∧
      Published (loadedKeys answer s.providers.length) s' (listing index) ∧
      (((loadedKeys answer s.providers.length).map keys.publicKey).Nodup →
        ∀ (providers' : List Provider) answer' index',
          (load answer' providers').2 = .ok index' →
          (loadedKeys answer s.providers.length).Perm (loadedKeys answer' providers'.length) →
          listing index' = listing index) := by
  obtain ⟨hindex, hkeys⟩ := loadOnce_none hnew hload
  refine ⟨?_, published_of_lookup hkeys (load_lookup hindex), ?_⟩
  · unfold OpenSession.requestIdentities
    rw [hload]
  · intro hnodup providers' answer' index' hindex' hperm
    apply listing_congr
    intro k
    rw [load_lookup hindex', load_lookup hindex]
    exact (Index.last_perm hnodup hperm k).symm

/-- Two providers with a key in common: the second one's comment is published. -/
theorem requestIdentities_published_twice :
    let answer : Nat → Answer plainKeys := fun i =>
      .ok (if i = 0 then [(2, "two"), (1, "old")] else [(1, "new")])
    let s : OpenSession plainKeys Unit := .start ⟨[(), ()]⟩
    ∃ list, (s.requestIdentities answer).2.2 = .identities list ∧
      Published [(2, "two"), (1, "old"), (1, "new")] (s.loadOnce answer).1 list := by
  intro answer s
  have hnew : s.keys = none := rfl
  have hload : s.loadOnce answer = ((s.loadOnce answer).1, [0, 1], .ok _) := rfl
  have h := requestIdentities_published hnew hload
  exact ⟨_, h.1, h.2.1⟩

end Keyring.Service
