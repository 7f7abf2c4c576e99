/-
What one element of the ciphers array does to the others.

The walk of a fetch skips a cipher that it cannot open.  But it starts from a response that
is decoded already, and an element that does not decode takes the whole response with it.
So a malformed element costs every key of the vault, and is harmless only where the rest of
the response would have given none.
-/
import Keyring.Bitwarden.Decode
import Keyring.Proofs.Bitwarden.Provider.Locality

namespace Keyring.Bitwarden

variable {parseUuid : String → Option Uuid}

/-! ### Elements -/

/-- Whether each field of a cipher may have its value. -/
def cipherChecks (parseUuid : String → Option Uuid) : List (Json → Bool) :=
  let uuid json := (json.option (decodeUuid parseUuid)).isSome
  let text json := (json.option Json.string).isSome
  [uuid, uuid, fun json => (json.option Json.i64).isSome, text, text, text, text,
    fun json => (json.option decodeCipherSshKey).isSome]

/-- An element decodes when it is a record all of whose fields may have their values. -/
theorem decodeCipher_isSome_iff (json : Json) :
    (decodeCipher parseUuid json).isSome ↔ ∃ values, json.record cipherFields = some values ∧
      List.Forall₂ (fun check value => check value = true) (cipherChecks parseUuid) values := by
  unfold decodeCipher
  cases hrecord : json.record cipherFields with
  | none => simp
  | some values =>
    have hlength : values.length = 8 := Json.record_length hrecord
    match values, hlength with
    | [id, organizationId, type, name, deletedDate, archivedDate, key, sshKey], _ =>
      simp only [cipherChecks, Option.some.injEq, exists_eq_left', List.forall₂_cons]
      refine Json.isSome_bind_iff fun _ => Json.isSome_bind_iff fun _ =>
        Json.isSome_bind_iff fun _ => Json.isSome_bind_iff fun _ => Json.isSome_bind_iff fun _ =>
        Json.isSome_bind_iff fun _ => Json.isSome_bind_iff fun _ => Json.isSome_bind_iff fun _ => ?_
      simp

/-- **One value of the wrong type is enough**, under either spelling of its field and
wherever it stands. -/
theorem decodeCipher_ill_typed {k : Nat} {names : List String} {check : Json → Bool}
    {name : String} {value : Json} (before after : List (String × Json))
    (hnames : cipherFields[k]? = some names) (hcheck : (cipherChecks parseUuid)[k]? = some check)
    (hname : name ∈ names) (hvalue : check value = false) :
    decodeCipher parseUuid (.obj (before ++ (name, value) :: after)) = none := by
  by_contra h
  obtain ⟨values, hrecord, hchecks⟩ :=
    (decodeCipher_isSome_iff _).mp (Option.isSome_iff_ne_none.mpr h)
  obtain ⟨found, hfound, hfield⟩ := Json.record_getElem hrecord hnames
  have hspells : Json.spells names (name, value) = true := by simpa [Json.spells] using hname
  rw [Json.field_of_spells hspells] at hfield
  obtain ⟨-, rfl⟩ : _ ∧ value = found := by simpa using hfield
  obtain ⟨hk, hget⟩ := List.getElem?_eq_some_iff.mp hcheck
  obtain ⟨hk', hget'⟩ := List.getElem?_eq_some_iff.mp hfound
  have hpassed := hchecks.get hk hk'
  rw [List.get_eq_getElem, List.get_eq_getElem, hget, hget', hvalue] at hpassed
  cases hpassed

/-- A date that is a number, on an item of any kind. -/
example : decodeCipher parseUuid (.obj [("type", .int 1), ("DeletedDate", .int 0)]) = none :=
  decodeCipher_ill_typed (k := 4) [("type", .int 1)] [] rfl rfl (by simp) rfl

/-! ### Bodies -/

/-- A sync response around the elements of its ciphers array. -/
inductive Frame
  | members (before : List (String × Json)) (name : String) (isCiphers : name ∈ ciphersNames)
      (after : List (String × Json))
  | array (profile : Json)

namespace Frame

def fill : Frame → List Json → Json
  | .members before name _ after, elements => .obj (before ++ (name, .arr elements) :: after)
  | .array profile, elements => .arr [profile, .arr elements]

/-- The value of the profile. -/
def profileValue : Frame → Option Json
  | .members before _ _ after => Json.field profileNames (before ++ after)
  | .array profile => some profile

/-- The profile, decoded. -/
def profile (parseUuid : String → Option Uuid) (frame : Frame) :
    Option (Option BitwardenProfile) :=
  frame.profileValue.bind (Json.option (decodeProfile parseUuid))

/-- Whether the ciphers array has a second member beside it under one of its names. -/
def duplicated : Frame → Bool
  | .members before _ _ after => (before ++ after).any (Json.spells ciphersNames)
  | .array _ => false

end Frame

variable {frame : Frame} {profile : Option BitwardenProfile} {elements l r : List Json} {x : Json}

theorem ciphersName_spells {name : String} {value : Json} (h : name ∈ ciphersNames) :
    Json.spells ciphersNames (name, value) = true := by
  simpa [Json.spells] using h

theorem ciphersName_not_profile {name : String} {value : Json} (h : name ∈ ciphersNames) :
    Json.spells profileNames (name, value) = false := by
  simp only [ciphersNames, List.mem_cons, List.not_mem_nil, or_false] at h
  rcases h with rfl | rfl
  · rfl
  · rfl

theorem Frame.record_fill (frame : Frame) (elements : List Json) :
    (frame.fill elements).record [profileNames, ciphersNames] =
      if frame.duplicated then none
      else frame.profileValue.map fun profile => [profile, .arr elements] := by
  cases frame with
  | array profile => rfl
  | members before name isCiphers after =>
    have hprofile := @Json.field_of_not_spells profileNames before after (name, .arr elements)
      (ciphersName_not_profile isCiphers)
    have hciphers := @Json.field_of_spells ciphersNames before after (name, .arr elements)
      (ciphersName_spells isCiphers)
    by_cases hother : (before ++ after).any (Json.spells ciphersNames) = true
    · have hduplicated : (members before name isCiphers after).duplicated = true := hother
      rw [if_pos hother] at hciphers
      rw [if_pos hduplicated]
      simp only [fill, Json.record, List.mapM_cons, hprofile, hciphers]
      cases Json.field profileNames (before ++ after) with
      | none => rfl
      | some profile => rfl
    · have hduplicated : ¬(members before name isCiphers after).duplicated = true := hother
      rw [if_neg hother] at hciphers
      rw [if_neg hduplicated]
      simp only [fill, Json.record, List.mapM_cons, hprofile, hciphers, profileValue]
      cases Json.field profileNames (before ++ after) with
      | none => rfl
      | some profile => rfl

/-- **Where the profile decodes, a response is worth its elements**, unless it has two lists
of them. -/
theorem decodeSyncResponse_fill (hprofile : frame.profile parseUuid = some profile)
    (elements : List Json) :
    decodeSyncResponse parseUuid (frame.fill elements) =
      if frame.duplicated then none
      else (elements.mapM (decodeCipher parseUuid)).map fun ciphers => ⟨profile, some ciphers⟩ := by
  obtain ⟨value, hvalue, hdecode⟩ := Option.bind_eq_some_iff.mp hprofile
  have hrecord := frame.record_fill elements
  rw [hvalue] at hrecord
  unfold decodeSyncResponse
  rw [hrecord]
  by_cases hduplicated : frame.duplicated = true
  · rw [if_pos hduplicated, if_pos hduplicated]
  · rw [if_neg hduplicated, if_neg hduplicated]
    show (value.option (decodeProfile parseUuid)).bind _ = _
    rw [hdecode]
    show ((elements.mapM (decodeCipher parseUuid)).map some).bind _ = _
    cases elements.mapM (decodeCipher parseUuid) with
    | none => rfl
    | some ciphers => rfl

/-- A response whose profile decodes and which is refused all the same: it has two lists of
ciphers, or one of the elements does not decode. -/
def Refused (parseUuid : String → Option Uuid) (frame : Frame) (elements : List Json) : Prop :=
  frame.duplicated = true ∨ ∃ y ∈ elements, decodeCipher parseUuid y = none

theorem decodeSyncResponse_eq_none_iff (hprofile : frame.profile parseUuid = some profile) :
    decodeSyncResponse parseUuid (frame.fill elements) = none ↔
      Refused parseUuid frame elements := by
  rw [decodeSyncResponse_fill hprofile, Refused, ← Json.mapM_eq_none_iff]
  by_cases hduplicated : frame.duplicated = true
  · simp [hduplicated]
  · simp [hduplicated]

/-- **One malformed element is enough.** -/
theorem refused_of_malformed (hx : decodeCipher parseUuid x = none) :
    Refused parseUuid frame (l ++ x :: r) :=
  Or.inr ⟨x, by simp, hx⟩

/-- A response that decodes has a profile that does. -/
theorem profile_of_decoded {response : BitwardenSyncResponse}
    (h : decodeSyncResponse parseUuid (frame.fill elements) = some response) :
    ∃ profile, frame.profile parseUuid = some profile := by
  unfold decodeSyncResponse at h
  rw [frame.record_fill] at h
  by_cases hduplicated : frame.duplicated = true
  · rw [if_pos hduplicated] at h
    cases h
  · rw [if_neg hduplicated] at h
    cases hvalue : frame.profileValue with
    | none =>
      rw [hvalue] at h
      cases h
    | some value =>
      rw [hvalue] at h
      obtain ⟨profile, hprofile, -⟩ := Option.bind_eq_some_iff.mp h
      refine ⟨profile, ?_⟩
      rw [Frame.profile, hvalue]
      exact hprofile

theorem exists_ciphers (hprofile : frame.profile parseUuid = some profile)
    (h : ¬Refused parseUuid frame elements) :
    ∃ ciphers, elements.mapM (decodeCipher parseUuid) = some ciphers ∧
      decodeSyncResponse parseUuid (frame.fill elements) = some ⟨profile, some ciphers⟩ := by
  rw [Refused, not_or, ← Json.mapM_eq_none_iff] at h
  obtain ⟨hduplicated, hmap⟩ := h
  obtain ⟨ciphers, hciphers⟩ := Option.ne_none_iff_exists'.mp hmap
  refine ⟨ciphers, hciphers, ?_⟩
  rw [decodeSyncResponse_fill hprofile, if_neg hduplicated, hciphers]
  rfl

/-! ### What a response publishes -/

section

variable {c : Crypto} {keys : SshKeys} {store : c.KeyStore}

/-- The keys that a fetch publishes; one that fails publishes none. -/
def publishedKeys (result : Except String (List keys.PrivateKey)) : List keys.PrivateKey :=
  result.toOption.getD []

/-- There is a profile, and its organizations import. -/
def ProfileImports (c : Crypto) (store : c.KeyStore) (profile : Option BitwardenProfile) : Prop :=
  ∃ p, profile = some p ∧ OrgKeysImport c store p

theorem publish_eq_none_iff (ciphers : Option (List BitwardenCipher)) :
    (publish c keys ⟨profile, ciphers⟩ store).1.toOption = none ↔
      ¬ProfileImports c store profile := by
  cases profile with
  | none => simp [publish, ProfileImports, Except.toOption]
  | some p =>
    have hok := @publish_ok_iff c keys store p ciphers
    have himports : ProfileImports c store (some p) ↔ OrgKeysImport c store p := by
      simp [ProfileImports]
    rw [himports, ← hok]
    cases (publish c keys ⟨some p, ciphers⟩ store).1 with
    | error error => simp [Except.toOption]
    | ok snapshot => simp [Except.toOption]

/-- The keys are none where no cipher gives one. -/
theorem publishedKeys_eq_nil_iff (ciphers : Option (List BitwardenCipher)) :
    publishedKeys (publish c keys ⟨profile, ciphers⟩ store).1 = [] ↔
      ∀ p, profile = some p → OrgKeysImport c store p →
        ∀ cipher ∈ ciphers.getD [], ¬Opens c keys cipher (scopeKey c store p cipher) := by
  by_cases himports : ProfileImports c store profile
  · obtain ⟨p, rfl, himport⟩ := himports
    obtain ⟨snapshot, hsnapshot⟩ := (@publish_ok_iff c keys store p ciphers).mpr himport
    have hkeys := publish_eq hsnapshot
    rw [hsnapshot]
    show snapshot = [] ↔ _
    rw [hkeys, List.flatMap_eq_nil_iff]
    simp only [Option.toList_eq_nil_iff, symmetric_baseKey himport, ← outcome_isSome_iff]
    constructor
    · intro h p' hp' _ cipher hcipher
      obtain rfl := Option.some.inj hp'
      rw [h cipher hcipher]
      simp
    · intro h cipher hcipher
      simpa using h p rfl himport cipher hcipher
  · have hnone := (@publish_eq_none_iff profile c keys store ciphers).mpr himports
    rw [publishedKeys, hnone]
    constructor
    · intro _ p hp himport
      exact absurd ⟨p, hp, himport⟩ himports
    · intro _
      rfl

end

/-! ### What a malformed element costs -/

variable {env : Env} {keys : SshKeys} {d : JsonReader env.Body} {store : env.crypto.KeyStore}
  {body rest : env.Body} {json : Json}

theorem decodeSync_eq_ok_iff {response : BitwardenSyncResponse} :
    d.decodeSync body = .ok response ↔
      ∃ json, d.parse body = some json ∧ decodeSyncResponse d.parseUuid json = some response := by
  rw [← Option.bind_eq_some_iff]
  unfold JsonReader.decodeSync
  cases (d.parse body).bind (decodeSyncResponse d.parseUuid) with
  | none => simp
  | some decoded => simp

theorem fetchBody_refused (hparse : d.parse body = some json)
    (h : decodeSyncResponse d.parseUuid json = none) :
    (fetchBody (env.reading d) keys store body).1.toOption = none := by
  have hdecode : (env.reading d).decodeSync body = .error (d.describe body) := by
    show d.decodeSync body = _
    rw [JsonReader.decodeSync, hparse, Option.bind_some, h]
  unfold fetchBody
  rw [hdecode]
  rfl

theorem fetchBody_decoded {response : BitwardenSyncResponse} (hparse : d.parse body = some json)
    (h : decodeSyncResponse d.parseUuid json = some response) :
    fetchBody (env.reading d) keys store body = publish env.crypto keys response store := by
  have hdecode : (env.reading d).decodeSync body = .ok response :=
    decodeSync_eq_ok_iff.mpr ⟨json, hparse, h⟩
  unfold fetchBody
  rw [hdecode]
  rfl

/-- Some element gives a key. -/
def GivesKey (c : Crypto) (keys : SshKeys) (store : c.KeyStore)
    (parseUuid : String → Option Uuid) (profile : Option BitwardenProfile)
    (elements : List Json) : Prop :=
  ∃ p, profile = some p ∧ OrgKeysImport c store p ∧ ∃ y ∈ elements, ∃ cipher,
    decodeCipher parseUuid y = some cipher ∧ Opens c keys cipher (scopeKey c store p cipher)

theorem fetchBody_eq_none_iff (hparse : d.parse body = some (frame.fill elements))
    (hprofile : frame.profile d.parseUuid = some profile) :
    (fetchBody (env.reading d) keys store body).1.toOption = none ↔
      Refused d.parseUuid frame elements ∨ ¬ProfileImports env.crypto store profile := by
  by_cases hrefused : Refused d.parseUuid frame elements
  · have hnone := (decodeSyncResponse_eq_none_iff hprofile).mpr hrefused
    exact iff_of_true (fetchBody_refused hparse hnone) (Or.inl hrefused)
  · obtain ⟨ciphers, -, hdecode⟩ := exists_ciphers hprofile hrefused
    rw [fetchBody_decoded hparse hdecode]
    simp only [hrefused, false_or]
    exact publish_eq_none_iff _

theorem publishedKeys_fetchBody_eq_nil_iff (hparse : d.parse body = some (frame.fill elements))
    (hprofile : frame.profile d.parseUuid = some profile) :
    publishedKeys (fetchBody (env.reading d) keys store body).1 = [] ↔
      Refused d.parseUuid frame elements ∨
        ¬GivesKey env.crypto keys store d.parseUuid profile elements := by
  by_cases hrefused : Refused d.parseUuid frame elements
  · have hnone := (decodeSyncResponse_eq_none_iff hprofile).mpr hrefused
    refine iff_of_true ?_ (Or.inl hrefused)
    rw [publishedKeys, fetchBody_refused hparse hnone]
    rfl
  · obtain ⟨ciphers, hciphers, hdecode⟩ := exists_ciphers hprofile hrefused
    rw [fetchBody_decoded hparse hdecode]
    simp only [hrefused, false_or]
    refine (publishedKeys_eq_nil_iff (some ciphers)).trans ?_
    simp only [GivesKey, Option.getD_some, not_exists, not_and, Json.forall_mem_mapM hciphers]

/-- **A malformed element is harmless exactly when there is nothing to lose**: the rest of
the response is refused for a reason of its own, or the fetch fails at the profile, or, where
a failure counts as no keys, no other element gives one. -/
theorem malformed_element_iff (hbody : d.parse body = some (frame.fill (l ++ x :: r)))
    (hrest : d.parse rest = some (frame.fill (l ++ r)))
    (hprofile : frame.profile d.parseUuid = some profile)
    (hx : decodeCipher d.parseUuid x = none) :
    ((fetchBody (env.reading d) keys store body).1.toOption =
        (fetchBody (env.reading d) keys store rest).1.toOption ↔
      Refused d.parseUuid frame (l ++ r) ∨ ¬ProfileImports env.crypto store profile) ∧
    (publishedKeys (fetchBody (env.reading d) keys store body).1 =
        publishedKeys (fetchBody (env.reading d) keys store rest).1 ↔
      Refused d.parseUuid frame (l ++ r) ∨
        ¬GivesKey env.crypto keys store d.parseUuid profile (l ++ r)) := by
  have hnone : (fetchBody (env.reading d) keys store body).1.toOption = none :=
    (fetchBody_eq_none_iff hbody hprofile).mpr (Or.inl (refused_of_malformed hx))
  have hnil : publishedKeys (fetchBody (env.reading d) keys store body).1 = [] := by
    rw [publishedKeys, hnone]
    rfl
  constructor
  · rw [hnone, eq_comm]
    exact fetchBody_eq_none_iff hrest hprofile
  · rw [hnil, eq_comm]
    exact publishedKeys_fetchBody_eq_nil_iff hrest hprofile

/-- Bodies that are parsed already, where one text is a UUID. -/
def plainReader : JsonReader Json where
  parse := some
  parseUuid text := if text = "00000000-0000-0000-0000-000000000007" then some ⟨7⟩ else none
  describe _ := "invalid UUID"

def jsonEnv : Env where
  Body := Json
  crypto := mapCrypto plainSuite
  password := "master"
  tokenDecoder := ⟨fun _ => none, fun _ => false, fun _ => none⟩
  decodeSync _ := .error "expected value"
  showStatus status := toString status.code
  lastInstant := 2 ^ 64

/-- The response of an account without organizations. -/
def plainFrame : Frame := .members [("profile", .obj [])] "ciphers" (by decide) []

/-- An SSH key as the server sends it. -/
def jsonItem : Json :=
  .obj [("id", .str "00000000-0000-0000-0000-000000000007"), ("type", .int 5),
    ("name", .str "deploy"), ("sshKey", .obj [("privateKey", .str "pem")])]

def jsonLogin : Json := .obj [("type", .int 1), ("name", .str "mail")]

/-- An item of no type whose id is no UUID. -/
def jsonMalformed : Json := .obj [("id", .str "not-a-uuid")]

/-- Beside a login there is nothing to lose. -/
theorem malformed_element_iff_login :
    publishedKeys (fetchBody (jsonEnv.reading plainReader) plainKeys unlockedStore
        (plainFrame.fill [jsonLogin, jsonMalformed])).1 =
      publishedKeys (fetchBody (jsonEnv.reading plainReader) plainKeys unlockedStore
        (plainFrame.fill [jsonLogin])).1 := by
  have hlogin : decodeCipher plainReader.parseUuid jsonLogin =
      some ⟨none, none, some 1, some "mail", none, none, none, none⟩ := rfl
  refine (@malformed_element_iff plainFrame (some ⟨none⟩) [jsonLogin] [] jsonMalformed jsonEnv
    plainKeys plainReader unlockedStore _ _ rfl rfl rfl rfl).2.mpr (Or.inr ?_)
  rintro ⟨p, -, -, y, hy, cipher, hcipher, id, k, priv, husable, -⟩
  rw [List.mem_singleton.mp hy, hlogin] at hcipher
  obtain rfl := Option.some.inj hcipher
  cases husable.isSshKey

/-- One item that is not even an SSH key takes the only key of the vault with it. -/
theorem malformed_element_hides :
    let body := plainFrame.fill [jsonItem, jsonMalformed]
    let rest := plainFrame.fill [jsonItem]
    plainFrame.profile plainReader.parseUuid = some (some ⟨none⟩) ∧
      decodeCipher plainReader.parseUuid jsonMalformed = none ∧
      (fetchBody (jsonEnv.reading plainReader) plainKeys unlockedStore body).1 =
        .error "bitwarden sync failed: error in serde: invalid UUID" ∧
      (fetchBody (jsonEnv.reading plainReader) plainKeys unlockedStore rest).1 =
        .ok [(3, "deploy")] ∧
      publishedKeys (fetchBody (jsonEnv.reading plainReader) plainKeys unlockedStore body).1 ≠
        publishedKeys (fetchBody (jsonEnv.reading plainReader) plainKeys unlockedStore rest).1 := by
  intro body rest
  have hbody : (fetchBody (jsonEnv.reading plainReader) plainKeys unlockedStore body).1 =
      .error "bitwarden sync failed: error in serde: invalid UUID" := rfl
  have hrest : (fetchBody (jsonEnv.reading plainReader) plainKeys unlockedStore rest).1 =
      .ok [(3, "deploy")] := rfl
  refine ⟨rfl, rfl, hbody, hrest, ?_⟩
  rw [hbody, hrest]
  intro h
  cases h

end Keyring.Bitwarden
