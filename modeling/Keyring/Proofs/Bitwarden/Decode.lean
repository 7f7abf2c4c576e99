/-
Which bodies decode, and as what.

The models of a sync response are records of optional fields inside one another, so what
decodes as a given response is known exactly: the fields under either spelling or not at all,
in any order, with any other members between them, at every level.  In particular every
response can be written down and is read back.
-/
import Keyring.Bitwarden.Decode
import Keyring.Lib.JsonRecord

namespace Keyring.Bitwarden

open Json (Optional Represents Apart)

variable {parseUuid : String → Option Uuid} {json : Json}

/-! ### Values -/

def TextIs (text : String) (json : Json) : Prop := json = .str text

def UuidIs (parseUuid : String → Option Uuid) (id : Uuid) (json : Json) : Prop :=
  ∃ text, json = .str text ∧ parseUuid text = some id

def IntIs (n : Int) (json : Json) : Prop :=
  json = .int n ∧ Int64.minValue.toInt ≤ n ∧ n ≤ Int64.maxValue.toInt

theorem text_iff (json : Json) (text : String) : json.string = some text ↔ TextIs text json := by
  cases json <;> simp [Json.string, TextIs]

theorem uuid_iff (json : Json) (id : Uuid) :
    decodeUuid parseUuid json = some id ↔ UuidIs parseUuid id json := by
  cases json <;> simp [decodeUuid, Json.string, UuidIs]

theorem int_iff (json : Json) (n : Int) : json.i64 = some n ↔ IntIs n json := by
  cases json with
  | int m =>
      rw [Json.i64, IntIs, Option.ite_none_right_eq_some, Option.some.injEq, Json.int.injEq]
      constructor
      · rintro ⟨h, rfl⟩
        exact ⟨rfl, h⟩
      · rintro ⟨rfl, h⟩
        exact ⟨h, rfl⟩
  | _ => simp [Json.i64, IntIs]

theorem optional_text {text : Option String} {value : Option Json} :
    (value.getD .null).option Json.string = some text ↔ Optional TextIs text value :=
  Json.option_iff (by simp [TextIs]) text_iff

theorem optional_uuid {id : Option Uuid} {value : Option Json} :
    (value.getD .null).option (decodeUuid parseUuid) = some id ↔
      Optional (UuidIs parseUuid) id value :=
  Json.option_iff (by simp [UuidIs]) uuid_iff

theorem optional_int {n : Option Int} {value : Option Json} :
    (value.getD .null).option Json.i64 = some n ↔ Optional IntIs n value :=
  Json.option_iff (by simp [IntIs]) int_iff

/-! ### Records -/

def BitwardenCipherSshKey.Renders (sshKey : BitwardenCipherSshKey) (json : Json) : Prop :=
  ∃ privateKey, Represents [["privateKey", "PrivateKey"]] [privateKey] json ∧
    Optional TextIs sshKey.privateKey privateKey

def BitwardenCipher.Renders (parseUuid : String → Option Uuid) (cipher : BitwardenCipher)
    (json : Json) : Prop :=
  ∃ values, Represents cipherFields values json ∧
    List.Forall₂ (fun holds value => holds value)
      [Optional (UuidIs parseUuid) cipher.id, Optional (UuidIs parseUuid) cipher.organizationId,
        Optional IntIs cipher.type, Optional TextIs cipher.name,
        Optional TextIs cipher.deletedDate, Optional TextIs cipher.archivedDate,
        Optional TextIs cipher.key, Optional BitwardenCipherSshKey.Renders cipher.sshKey] values

def BitwardenProfileOrganization.Renders (parseUuid : String → Option Uuid)
    (organization : BitwardenProfileOrganization) (json : Json) : Prop :=
  ∃ id key, Represents [["id", "Id"], ["key", "Key"]] [id, key] json ∧
    Optional (UuidIs parseUuid) organization.id id ∧ Optional TextIs organization.key key

/-- An array of what renders the elements. -/
def ListIs {α : Type} (renders : α → Json → Prop) (list : List α) (json : Json) : Prop :=
  ∃ elements, json = .arr elements ∧ List.Forall₂ renders list elements

def BitwardenProfile.Renders (parseUuid : String → Option Uuid) (profile : BitwardenProfile)
    (json : Json) : Prop :=
  ∃ organizations, Represents [["organizations", "Organizations"]] [organizations] json ∧
    Optional (ListIs (BitwardenProfileOrganization.Renders parseUuid)) profile.organizations
      organizations

def BitwardenSyncResponse.Renders (parseUuid : String → Option Uuid)
    (response : BitwardenSyncResponse) (json : Json) : Prop :=
  ∃ profile ciphers, Represents [profileNames, ciphersNames] [profile, ciphers] json ∧
    Optional (BitwardenProfile.Renders parseUuid) response.profile profile ∧
      Optional (ListIs (BitwardenCipher.Renders parseUuid)) response.ciphers ciphers

/-! ### Decoders -/

theorem optional_list {α : Type} {decode : Json → Option α} {renders : α → Json → Prop}
    (h : ∀ json a, decode json = some a ↔ renders a json) {list : Option (List α)}
    {value : Option Json} :
    (value.getD .null).option (Json.vec decode) = some list ↔
      Optional (ListIs renders) list value :=
  Json.option_iff (fun _ h => h.elim fun _ h => nomatch h.1) fun _ _ => Json.vec_iff h

/-- A record of one field. -/
theorem record_one {names : List String} {value : Json} :
    json.record [names] = some [value] ↔
      ∃ found, Represents [names] [found] json ∧ found.getD .null = value := by
  rw [Json.record_iff (List.pairwise_singleton _ _)]
  constructor
  · rintro ⟨values, hvalues, hrepresents⟩
    obtain ⟨found, rest, rfl, hfound, hrest⟩ := List.map_eq_cons_iff.mp hvalues
    obtain rfl := List.map_eq_nil_iff.mp hrest
    exact ⟨found, hrepresents, hfound⟩
  · rintro ⟨found, hrepresents, rfl⟩
    exact ⟨[found], rfl, hrepresents⟩

/-- A record of two fields. -/
theorem record_two {names names' : List String} {value value' : Json}
    (hapart : List.Disjoint names names') :
    json.record [names, names'] = some [value, value'] ↔
      ∃ found found', Represents [names, names'] [found, found'] json ∧
        found.getD .null = value ∧ found'.getD .null = value' := by
  have hpair : Apart [names, names'] := by simpa [Apart] using hapart
  rw [Json.record_iff hpair]
  constructor
  · rintro ⟨values, hvalues, hrepresents⟩
    obtain ⟨found, rest, rfl, hfound, hrest⟩ := List.map_eq_cons_iff.mp hvalues
    obtain ⟨found', rest', rfl, hfound', hrest'⟩ := List.map_eq_cons_iff.mp hrest
    obtain rfl := List.map_eq_nil_iff.mp hrest'
    exact ⟨found, found', hrepresents, hfound, hfound'⟩
  · rintro ⟨found, found', hrepresents, rfl, rfl⟩
    exact ⟨[found, found'], rfl, hrepresents⟩

theorem sshKey_iff (json : Json) (sshKey : BitwardenCipherSshKey) :
    decodeCipherSshKey json = some sshKey ↔ sshKey.Renders json := by
  rw [decodeCipherSshKey, BitwardenCipherSshKey.Renders]
  constructor
  · intro h
    split at h
    · rename_i hfound
      obtain ⟨privateKey, hrepresents, rfl⟩ := record_one.mp hfound
      obtain ⟨text, htext, h⟩ := Option.bind_eq_some_iff.mp h
      obtain rfl := Option.some.inj h
      exact ⟨privateKey, hrepresents, optional_text.mp htext⟩
    · cases h
  · rintro ⟨privateKey, hrepresents, htext⟩
    rw [record_one.mpr ⟨privateKey, hrepresents, rfl⟩]
    simp only [optional_text.mpr htext, Option.pure_def, Option.bind_eq_bind, Option.bind_some]

theorem optional_sshKey {sshKey : Option BitwardenCipherSshKey} {value : Option Json} :
    (value.getD .null).option decodeCipherSshKey = some sshKey ↔
      Optional BitwardenCipherSshKey.Renders sshKey value :=
  Json.option_iff (fun _ h => h.elim fun _ h => h.1) sshKey_iff

theorem apart_cipherFields : Apart cipherFields := by
  simp [Apart, cipherFields, List.Disjoint]

theorem cipher_iff (json : Json) (cipher : BitwardenCipher) :
    decodeCipher parseUuid json = some cipher ↔ cipher.Renders parseUuid json := by
  rw [decodeCipher, BitwardenCipher.Renders]
  constructor
  · intro h
    split at h
    · rename_i hfound
      obtain ⟨values, hvalues, hrepresents⟩ := (Json.record_iff apart_cipherFields).mp hfound
      refine ⟨values, hrepresents, ?_⟩
      match values, hvalues with
      | [_, _, _, _, _, _, _, _], hvalues =>
          simp only [List.map_cons, List.map_nil, List.cons.injEq, and_true] at hvalues
          obtain ⟨rfl, rfl, rfl, rfl, rfl, rfl, rfl, rfl⟩ := hvalues
          obtain ⟨id, hid, h⟩ := Option.bind_eq_some_iff.mp h
          obtain ⟨organizationId, horganizationId, h⟩ := Option.bind_eq_some_iff.mp h
          obtain ⟨type, htype, h⟩ := Option.bind_eq_some_iff.mp h
          obtain ⟨name, hname, h⟩ := Option.bind_eq_some_iff.mp h
          obtain ⟨deletedDate, hdeletedDate, h⟩ := Option.bind_eq_some_iff.mp h
          obtain ⟨archivedDate, harchivedDate, h⟩ := Option.bind_eq_some_iff.mp h
          obtain ⟨key, hkey, h⟩ := Option.bind_eq_some_iff.mp h
          obtain ⟨sshKey, hsshKey, h⟩ := Option.bind_eq_some_iff.mp h
          obtain rfl := Option.some.inj h
          exact .cons (optional_uuid.mp hid) <| .cons (optional_uuid.mp horganizationId) <|
            .cons (optional_int.mp htype) <| .cons (optional_text.mp hname) <|
            .cons (optional_text.mp hdeletedDate) <| .cons (optional_text.mp harchivedDate) <|
            .cons (optional_text.mp hkey) <| .cons (optional_sshKey.mp hsshKey) .nil
    · cases h
  · rintro ⟨values, hrepresents, hvalues⟩
    rw [(Json.record_iff apart_cipherFields).mpr ⟨values, rfl, hrepresents⟩]
    match values, hvalues with
    | [_, _, _, _, _, _, _, _], .cons hid (.cons horganizationId (.cons htype (.cons hname
        (.cons hdeletedDate (.cons harchivedDate (.cons hkey (.cons hsshKey .nil))))))) =>
        simp only [List.map_cons, List.map_nil, optional_uuid.mpr hid,
          optional_uuid.mpr horganizationId, optional_int.mpr htype, optional_text.mpr hname,
          optional_text.mpr hdeletedDate, optional_text.mpr harchivedDate, optional_text.mpr hkey,
          optional_sshKey.mpr hsshKey, Option.pure_def, Option.bind_eq_bind, Option.bind_some]

theorem organization_iff (json : Json) (organization : BitwardenProfileOrganization) :
    decodeProfileOrganization parseUuid json = some organization ↔
      organization.Renders parseUuid json := by
  have hapart : List.Disjoint ["id", "Id"] ["key", "Key"] := by simp [List.Disjoint]
  rw [decodeProfileOrganization, BitwardenProfileOrganization.Renders]
  constructor
  · intro h
    split at h
    · rename_i hfound
      obtain ⟨id, key, hrepresents, rfl, rfl⟩ := (record_two hapart).mp hfound
      obtain ⟨id', hid, h⟩ := Option.bind_eq_some_iff.mp h
      obtain ⟨key', hkey, h⟩ := Option.bind_eq_some_iff.mp h
      obtain rfl := Option.some.inj h
      exact ⟨id, key, hrepresents, optional_uuid.mp hid, optional_text.mp hkey⟩
    · cases h
  · rintro ⟨id, key, hrepresents, hid, hkey⟩
    rw [(record_two hapart).mpr ⟨id, key, hrepresents, rfl, rfl⟩]
    simp only [optional_uuid.mpr hid, optional_text.mpr hkey, Option.pure_def,
      Option.bind_eq_bind, Option.bind_some]

theorem profile_iff (json : Json) (profile : BitwardenProfile) :
    decodeProfile parseUuid json = some profile ↔ profile.Renders parseUuid json := by
  rw [decodeProfile, BitwardenProfile.Renders]
  constructor
  · intro h
    split at h
    · rename_i hfound
      obtain ⟨organizations, hrepresents, rfl⟩ := record_one.mp hfound
      obtain ⟨list, hlist, h⟩ := Option.bind_eq_some_iff.mp h
      obtain rfl := Option.some.inj h
      exact ⟨organizations, hrepresents, (optional_list organization_iff).mp hlist⟩
    · cases h
  · rintro ⟨organizations, hrepresents, hlist⟩
    rw [record_one.mpr ⟨organizations, hrepresents, rfl⟩]
    simp only [(optional_list organization_iff).mpr hlist, Option.pure_def, Option.bind_eq_bind,
      Option.bind_some]

theorem optional_profile {profile : Option BitwardenProfile} {value : Option Json} :
    (value.getD .null).option (decodeProfile parseUuid) = some profile ↔
      Optional (BitwardenProfile.Renders parseUuid) profile value :=
  Json.option_iff (fun _ h => h.elim fun _ h => h.1) profile_iff

/-- **What decodes as a sync response, and as which.** -/
theorem decodeSyncResponse_iff (json : Json) (response : BitwardenSyncResponse) :
    decodeSyncResponse parseUuid json = some response ↔ response.Renders parseUuid json := by
  have hapart : List.Disjoint profileNames ciphersNames := by
    simp [List.Disjoint, profileNames, ciphersNames]
  rw [decodeSyncResponse, BitwardenSyncResponse.Renders]
  constructor
  · intro h
    split at h
    · rename_i hfound
      obtain ⟨profile, ciphers, hrepresents, rfl, rfl⟩ := (record_two hapart).mp hfound
      obtain ⟨profile', hprofile, h⟩ := Option.bind_eq_some_iff.mp h
      obtain ⟨ciphers', hciphers, h⟩ := Option.bind_eq_some_iff.mp h
      obtain rfl := Option.some.inj h
      exact ⟨profile, ciphers, hrepresents, optional_profile.mp hprofile,
        (optional_list cipher_iff).mp hciphers⟩
    · cases h
  · rintro ⟨profile, ciphers, hrepresents, hprofile, hciphers⟩
    rw [(record_two hapart).mpr ⟨profile, ciphers, hrepresents, rfl, rfl⟩]
    simp only [optional_profile.mpr hprofile, (optional_list cipher_iff).mpr hciphers,
      Option.pure_def, Option.bind_eq_bind, Option.bind_some]

/-! ### Writing a response

The program only reads sync bodies.  The encoder is that of the model: one body for each
response, among the many that render it. -/

section

variable (showUuid : Uuid → String)

/-- `null` where there is nothing. -/
def encodeOption {α : Type} (encode : α → Json) : Option α → Json
  | none => .null
  | some a => encode a

def encodeUuid (id : Uuid) : Json := .str (showUuid id)

def BitwardenCipherSshKey.encode (sshKey : BitwardenCipherSshKey) : Json :=
  .obj [("privateKey", encodeOption .str sshKey.privateKey)]

def BitwardenCipher.encode (cipher : BitwardenCipher) : Json :=
  .obj [("id", encodeOption (encodeUuid showUuid) cipher.id),
    ("organizationId", encodeOption (encodeUuid showUuid) cipher.organizationId),
    ("type", encodeOption .int cipher.type), ("name", encodeOption .str cipher.name),
    ("deletedDate", encodeOption .str cipher.deletedDate),
    ("archivedDate", encodeOption .str cipher.archivedDate),
    ("key", encodeOption .str cipher.key),
    ("sshKey", encodeOption BitwardenCipherSshKey.encode cipher.sshKey)]

def BitwardenProfileOrganization.encode (organization : BitwardenProfileOrganization) : Json :=
  .obj [("id", encodeOption (encodeUuid showUuid) organization.id),
    ("key", encodeOption .str organization.key)]

def BitwardenProfile.encode (profile : BitwardenProfile) : Json :=
  .obj [("organizations", encodeOption
    (fun list => .arr (list.map (BitwardenProfileOrganization.encode showUuid)))
    profile.organizations)]

/-- A body that renders the response, not one that the program would write. -/
def BitwardenSyncResponse.encode (response : BitwardenSyncResponse) : Json :=
  .obj [("profile", encodeOption (BitwardenProfile.encode showUuid) response.profile),
    ("ciphers", encodeOption (fun list => .arr (list.map (BitwardenCipher.encode showUuid)))
      response.ciphers)]

/-- The ids of a response are read as they are printed, and its types are integers of 64
bits. -/
structure Writable (parseUuid : String → Option Uuid) (response : BitwardenSyncResponse) :
    Prop where
  organizations : ∀ profile, response.profile = some profile → ∀ list,
    profile.organizations = some list → ∀ organization ∈ list, ∀ id,
      organization.id = some id → parseUuid (showUuid id) = some id
  ids : ∀ list, response.ciphers = some list → ∀ cipher ∈ list, ∀ id,
    cipher.id = some id ∨ cipher.organizationId = some id → parseUuid (showUuid id) = some id
  types : ∀ list, response.ciphers = some list → ∀ cipher ∈ list, ∀ n, cipher.type = some n →
    Int64.minValue.toInt ≤ n ∧ n ≤ Int64.maxValue.toInt

end

variable {showUuid : Uuid → String}

theorem optional_encode {α : Type} {encode : α → Json} {renders : α → Json → Prop}
    {a : Option α} (h : ∀ b, a = some b → renders b (encode b)) :
    Optional renders a (some (encodeOption encode a)) := by
  cases a with
  | none => exact Or.inr rfl
  | some b => exact ⟨_, rfl, h b rfl⟩

theorem list_encode {α : Type} {encode : α → Json} {renders : α → Json → Prop} {list : List α}
    (h : ∀ a ∈ list, renders a (encode a)) : ListIs renders list (.arr (list.map encode)) := by
  refine ⟨_, rfl, ?_⟩
  rw [List.forall₂_map_right_iff, List.forall₂_same]
  exact h

/-- An object that has just its fields. -/
theorem represents_obj {fields : List (List String)} {values : List (Option Json)}
    {named : List (String × Json)} (h : Json.Named fields values named) :
    Represents fields values (.obj named) :=
  ⟨named, [], h, by rw [List.append_nil], fun _ hmem => absurd hmem List.not_mem_nil⟩

theorem sshKey_encode (sshKey : BitwardenCipherSshKey) : sshKey.Renders sshKey.encode :=
  ⟨_, represents_obj (.given (by decide) .nil), optional_encode fun _ _ => rfl⟩

theorem cipher_encode {cipher : BitwardenCipher}
    (hids : ∀ id, cipher.id = some id ∨ cipher.organizationId = some id →
      parseUuid (showUuid id) = some id)
    (htypes : ∀ n, cipher.type = some n →
      Int64.minValue.toInt ≤ n ∧ n ≤ Int64.maxValue.toInt) :
    cipher.Renders parseUuid (cipher.encode showUuid) := by
  have htext : ∀ {text : Option String}, Optional TextIs text (some (encodeOption .str text)) :=
    fun {_} => optional_encode fun _ _ => rfl
  refine ⟨_, represents_obj <| .given (by decide) <| .given (by decide) <| .given (by decide) <|
    .given (by decide) <| .given (by decide) <| .given (by decide) <| .given (by decide) <|
    .given (by decide) .nil, ?_⟩
  refine .cons ?_ <| .cons ?_ <| .cons ?_ <| .cons htext <| .cons htext <| .cons htext <|
    .cons htext <| .cons ?_ .nil
  · exact optional_encode fun id hid => ⟨_, rfl, hids id (Or.inl hid)⟩
  · exact optional_encode fun id hid => ⟨_, rfl, hids id (Or.inr hid)⟩
  · exact optional_encode fun n hn => ⟨rfl, htypes n hn⟩
  · exact optional_encode fun sshKey _ => sshKey_encode sshKey

theorem profile_encode {profile : BitwardenProfile}
    (hids : ∀ list, profile.organizations = some list → ∀ organization ∈ list, ∀ id,
      organization.id = some id → parseUuid (showUuid id) = some id) :
    profile.Renders parseUuid (profile.encode showUuid) := by
  refine ⟨_, represents_obj (.given (by decide) .nil), optional_encode fun list hlist => ?_⟩
  refine list_encode fun organization hmem => ?_
  exact ⟨_, _, represents_obj (.given (by decide) (.given (by decide) .nil)),
    optional_encode fun id hid => ⟨_, rfl, hids list hlist organization hmem id hid⟩,
    optional_encode fun _ _ => rfl⟩

theorem response_encode {response : BitwardenSyncResponse}
    (h : Writable showUuid parseUuid response) :
    response.Renders parseUuid (response.encode showUuid) :=
  ⟨_, _, represents_obj (.given (by decide) (.given (by decide) .nil)),
    optional_encode fun profile hprofile => profile_encode (h.organizations profile hprofile),
    optional_encode fun list hlist => list_encode fun cipher hmem =>
      cipher_encode (h.ids list hlist cipher hmem) (h.types list hlist cipher hmem)⟩

/-- **The format of a sync body**: what decodes, and that a writable response is what its
encoding decodes to. -/
theorem sync_body_format (showUuid : Uuid → String) (parseUuid : String → Option Uuid)
    (response : BitwardenSyncResponse) :
    (∀ json, decodeSyncResponse parseUuid json = some response ↔
      response.Renders parseUuid json) ∧
      (Writable showUuid parseUuid response →
        decodeSyncResponse parseUuid (response.encode showUuid) = some response) :=
  ⟨fun json => decodeSyncResponse_iff json response,
    fun h => (decodeSyncResponse_iff _ _).mpr (response_encode h)⟩

/-- A response with an organization and a cipher of it. -/
def plainResponse : BitwardenSyncResponse :=
  ⟨some ⟨some [⟨some ⟨7⟩, some "key"⟩]⟩,
    some [⟨some ⟨7⟩, some ⟨7⟩, some 5, none, none, none, none, some ⟨some "private"⟩⟩]⟩

theorem sync_body_format_plain :
    decodeSyncResponse (fun _ => some ⟨7⟩) (plainResponse.encode fun _ => "7") =
      some plainResponse := by
  refine (sync_body_format _ _ _).2 ⟨?_, ?_, ?_⟩
  · intro profile hprofile list hlist organization hmem id hid
    obtain rfl := Option.some.inj (show some _ = some profile from hprofile)
    obtain rfl := Option.some.inj (show some _ = some list from hlist)
    obtain rfl := List.mem_singleton.mp hmem
    exact hid
  · intro list hlist cipher hmem id hid
    obtain rfl := Option.some.inj (show some _ = some list from hlist)
    obtain rfl := List.mem_singleton.mp hmem
    rcases hid with hid | hid <;> exact hid
  · intro list hlist cipher hmem n hn
    obtain rfl := Option.some.inj (show some _ = some list from hlist)
    obtain rfl := List.mem_singleton.mp hmem
    obtain rfl := Option.some.inj (show some _ = some n from hn)
    decide

end Keyring.Bitwarden
