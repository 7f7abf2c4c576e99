/-
What an identity response is taken for.

The payload shapes share field names, so the order in which they are tried matters: a body
that renders a token is one whatever else it holds, and a two-factor challenge comes before a
plain error.  The status decides only about tokens and about what is said of a body that is
none of the three.  Together the five answers are all that one response can come to, each
with the bodies and statuses that it is given for.
-/
import Keyring.Bitwarden.TokenDecode
import Keyring.Proofs.Bitwarden.Decode

namespace Keyring.Bitwarden

open Json (Optional Represents RepresentsFrom Apart)

variable {unlock : Json → Option MasterPasswordUnlockResponseModel} {json : Json}

/-! ### Values -/

def U64Is (n : UInt64) (json : Json) : Prop := json = .int n.toNat

theorem u64_iff (json : Json) (n : UInt64) : u64 json = some n ↔ U64Is n json := by
  cases json with
  | int m =>
      rw [u64, U64Is, Option.ite_none_right_eq_some, Option.some.injEq, Json.int.injEq]
      constructor
      · rintro ⟨⟨hlow, hhigh⟩, rfl⟩
        rw [UInt64.toNat_ofNat_of_lt' hhigh]
        exact (Int.toNat_of_nonneg hlow).symm
      · rintro rfl
        rw [Int.toNat_natCast, UInt64.ofNat_toNat]
        exact ⟨⟨Int.natCast_nonneg _, n.toNat_lt⟩, rfl⟩
  | _ => simp [u64, U64Is]

/-- A field that has to be there. -/
theorem required_iff {α : Type} {decode : Json → Option α} {represents : α → Json → Prop}
    (hnull : ∀ a, ¬represents a .null) (h : ∀ json a, decode json = some a ↔ represents a json)
    {a : α} {value : Option Json} :
    decode (value.getD .null) = some a ↔ Optional represents (some a) value := by
  cases value with
  | none =>
      rw [Option.getD_none, h]
      exact iff_of_false (hnull a) fun ⟨_, hvalue, _⟩ => nomatch hvalue
  | some json =>
      rw [Option.getD_some, h]
      constructor
      · exact fun hjson => ⟨json, rfl, hjson⟩
      · rintro ⟨json', hjson', h'⟩
        exact Option.some.inj hjson' ▸ h'

theorem required_text {text : String} {value : Option Json} :
    (value.getD .null).string = some text ↔ Optional TextIs (some text) value :=
  required_iff (by simp [TextIs]) text_iff

/-! ### Payloads -/

/-- What the generated client decodes; an absent payload never reaches it. -/
def UnlockIs (unlock : Json → Option MasterPasswordUnlockResponseModel)
    (payload : MasterPasswordUnlockResponseModel) (json : Json) : Prop :=
  json ≠ .null ∧ unlock json = some payload

def BitwardenUserDecryptionOptionsResponseModel.Renders
    (unlock : Json → Option MasterPasswordUnlockResponseModel)
    (options : BitwardenUserDecryptionOptionsResponseModel) (json : Json) : Prop :=
  ∃ value, RepresentsFrom 0 [["masterPasswordUnlock", "MasterPasswordUnlock"]] [value] json ∧
    Optional (UnlockIs unlock) options.masterPasswordUnlock value

def BitwardenTokenSuccessResponse.Renders
    (unlock : Json → Option MasterPasswordUnlockResponseModel)
    (token : BitwardenTokenSuccessResponse) (json : Json) : Prop :=
  ∃ values, RepresentsFrom 3 successFields values json ∧
    List.Forall₂ (fun holds value => holds value)
      [Optional TextIs (some token.accessToken), Optional U64Is (some token.expiresIn),
        Optional TextIs token.privateKey,
        Optional (BitwardenUserDecryptionOptionsResponseModel.Renders unlock)
          token.userDecryptionOptions] values

/-- An object, of whatever members. -/
def MapIs (json : Json) : Prop := ∃ members, json = .obj members

/-- A two-factor challenge. -/
def AsksTwoFactor (json : Json) : Prop :=
  ∃ error errorDescription providers,
    Represents twoFactorFields [error, errorDescription, some providers] json ∧
      (∃ text, Optional TextIs (some text) error) ∧
        (∃ text, Optional TextIs (some text) errorDescription) ∧ MapIs providers

def ErrorModelIs (message : String) (json : Json) : Prop :=
  ∃ value object, Represents [["message", "Message"], ["object", "Object"]] [value, object] json ∧
    Optional TextIs (some message) value ∧ ∃ text, Optional TextIs (some text) object

def BitwardenIdentityTokenFailResponse.Renders (response : BitwardenIdentityTokenFailResponse)
    (json : Json) : Prop :=
  ∃ values, Represents identityFailFields values json ∧
    List.Forall₂ (fun holds value => holds value)
      [Optional TextIs (some response.error), Optional TextIs (some response.errorDescription),
        Optional ErrorModelIs (some response.message)] values

/-! ### Decoders -/

theorem optional_unlock {payload : Option MasterPasswordUnlockResponseModel}
    {value : Option Json} :
    (value.getD .null).option unlock = some payload ↔ Optional (UnlockIs unlock) payload value := by
  rcases value with _ | json
  · cases payload <;> simp [Json.option, Optional]
  · by_cases hjson : json = .null
    · subst hjson
      cases payload <;> simp [Json.option, Optional, UnlockIs]
    · have hdecode : json.option unlock = (unlock json).map some := by
        cases json <;> first | rfl | exact absurd rfl hjson
      rw [Option.getD_some, hdecode]
      cases payload <;> simp [Optional, UnlockIs, hjson]

theorem userDecryptionOptions_iff (json : Json)
    (options : BitwardenUserDecryptionOptionsResponseModel) :
    decodeUserDecryptionOptions unlock json = some options ↔ options.Renders unlock json := by
  have hapart : Apart [["masterPasswordUnlock", "MasterPasswordUnlock"]] :=
    List.pairwise_singleton _ _
  rw [decodeUserDecryptionOptions, BitwardenUserDecryptionOptionsResponseModel.Renders]
  constructor
  · intro h
    split at h
    · rename_i hfound
      obtain ⟨values, hvalues, hrepresents⟩ := (Json.recordFrom_iff hapart).mp hfound
      match values, hvalues with
      | [value], hvalues =>
          obtain rfl := (List.cons.inj hvalues).1
          obtain ⟨payload, hpayload, h⟩ := Option.bind_eq_some_iff.mp h
          obtain rfl := Option.some.inj h
          exact ⟨value, hrepresents, optional_unlock.mp hpayload⟩
    · cases h
  · rintro ⟨value, hrepresents, hpayload⟩
    rw [(Json.recordFrom_iff hapart).mpr ⟨[value], rfl, hrepresents⟩]
    simp only [List.map_cons, List.map_nil, optional_unlock.mpr hpayload, Option.pure_def,
      Option.bind_eq_bind, Option.bind_some]

theorem optional_userDecryptionOptions
    {options : Option BitwardenUserDecryptionOptionsResponseModel} {value : Option Json} :
    (value.getD .null).option (decodeUserDecryptionOptions unlock) = some options ↔
      Optional (BitwardenUserDecryptionOptionsResponseModel.Renders unlock) options value :=
  Json.option_iff (fun _ h => h.elim fun _ h => h.1) userDecryptionOptions_iff

theorem apart_successFields : Apart successFields := by
  simp [Apart, successFields, List.Disjoint]

/-- What decodes as a token. -/
theorem tokenSuccess_iff (json : Json) (token : BitwardenTokenSuccessResponse) :
    decodeTokenSuccess unlock json = some token ↔ token.Renders unlock json := by
  rw [decodeTokenSuccess, BitwardenTokenSuccessResponse.Renders]
  constructor
  · intro h
    split at h
    · rename_i hfound
      obtain ⟨values, hvalues, hrepresents⟩ :=
        (Json.recordFrom_iff apart_successFields).mp hfound
      refine ⟨values, hrepresents, ?_⟩
      match values, hvalues with
      | [_, _, _, _], hvalues =>
          simp only [List.map_cons, List.map_nil, List.cons.injEq, and_true] at hvalues
          obtain ⟨rfl, rfl, rfl, rfl⟩ := hvalues
          obtain ⟨accessToken, haccessToken, h⟩ := Option.bind_eq_some_iff.mp h
          obtain ⟨expiresIn, hexpiresIn, h⟩ := Option.bind_eq_some_iff.mp h
          obtain ⟨privateKey, hprivateKey, h⟩ := Option.bind_eq_some_iff.mp h
          obtain ⟨options, hoptions, h⟩ := Option.bind_eq_some_iff.mp h
          obtain rfl := Option.some.inj h
          exact .cons (required_text.mp haccessToken) <|
            .cons ((required_iff (by simp [U64Is]) u64_iff).mp hexpiresIn) <|
            .cons (optional_text.mp hprivateKey) <|
            .cons (optional_userDecryptionOptions.mp hoptions) .nil
    · cases h
  · rintro ⟨values, hrepresents, hvalues⟩
    rw [(Json.recordFrom_iff apart_successFields).mpr ⟨values, rfl, hrepresents⟩]
    match values, hvalues with
    | [_, _, _, _], .cons haccessToken (.cons hexpiresIn (.cons hprivateKey
        (.cons hoptions .nil))) =>
        simp only [List.map_cons, List.map_nil, required_text.mpr haccessToken,
          (required_iff (by simp [U64Is]) u64_iff).mpr hexpiresIn, optional_text.mpr hprivateKey,
          optional_userDecryptionOptions.mpr hoptions, Option.pure_def, Option.bind_eq_bind,
          Option.bind_some]

theorem isMap_iff {value : Option Json} :
    isMap (value.getD .null) = true ↔ ∃ providers, value = some providers ∧ MapIs providers := by
  rcases value with _ | json
  · simp [isMap]
  · cases json <;> simp [isMap, MapIs]

theorem isSome_string_iff {value : Option Json} :
    (value.getD .null).string.isSome = true ↔ ∃ text, Optional TextIs (some text) value := by
  rw [Option.isSome_iff_exists]
  exact exists_congr fun _ => required_text

theorem apart_twoFactorFields : Apart twoFactorFields := by
  simp [Apart, twoFactorFields, List.Disjoint]

/-- What decodes as a two-factor challenge. -/
theorem twoFactor_iff (json : Json) : decodeTwoFactor json = true ↔ AsksTwoFactor json := by
  rw [decodeTwoFactor, AsksTwoFactor]
  constructor
  · intro h
    split at h
    · rename_i hfound
      obtain ⟨values, hvalues, hrepresents⟩ :=
        (Json.record_iff apart_twoFactorFields).mp hfound
      match values, hvalues with
      | [error, errorDescription, _], hvalues =>
          simp only [List.map_cons, List.map_nil, List.cons.injEq, and_true] at hvalues
          obtain ⟨rfl, rfl, rfl⟩ := hvalues
          rw [Bool.and_eq_true, Bool.and_eq_true, isSome_string_iff, isSome_string_iff,
            isMap_iff] at h
          obtain ⟨⟨herror, herrorDescription⟩, providers, rfl, hproviders⟩ := h
          exact ⟨error, errorDescription, providers, hrepresents, herror, herrorDescription,
            hproviders⟩
    · cases h
  · rintro ⟨error, errorDescription, providers, hrepresents, herror, herrorDescription,
      hproviders⟩
    rw [(Json.record_iff apart_twoFactorFields).mpr ⟨_, rfl, hrepresents⟩]
    simp only [List.map_cons, List.map_nil, isSome_string_iff.mpr herror,
      isSome_string_iff.mpr herrorDescription, isMap_iff.mpr ⟨providers, rfl, hproviders⟩,
      Bool.and_self]

theorem errorModel_iff (json : Json) (message : String) :
    decodeIdentityErrorModel json = some message ↔ ErrorModelIs message json := by
  have hapart : List.Disjoint ["message", "Message"] ["object", "Object"] := by
    simp [List.Disjoint]
  rw [decodeIdentityErrorModel, ErrorModelIs]
  constructor
  · intro h
    split at h
    · rename_i hfound
      obtain ⟨value, object, hrepresents, rfl, rfl⟩ := (record_two hapart).mp hfound
      obtain ⟨text, htext, h⟩ := Option.bind_eq_some_iff.mp h
      obtain ⟨kind, hkind, h⟩ := Option.bind_eq_some_iff.mp h
      obtain rfl := Option.some.inj h
      exact ⟨value, object, hrepresents, required_text.mp htext, kind, required_text.mp hkind⟩
    · cases h
  · rintro ⟨value, object, hrepresents, htext, kind, hkind⟩
    rw [(record_two hapart).mpr ⟨value, object, hrepresents, rfl, rfl⟩]
    simp only [required_text.mpr htext, required_text.mpr hkind, Option.pure_def,
      Option.bind_eq_bind, Option.bind_some]

theorem apart_identityFailFields : Apart identityFailFields := by
  simp [Apart, identityFailFields, List.Disjoint]

/-- What decodes as an identity error. -/
theorem identityFail_iff (json : Json) (response : BitwardenIdentityTokenFailResponse) :
    decodeIdentityFail json = some response ↔ response.Renders json := by
  have hmodel : ∀ message, ¬ErrorModelIs message .null :=
    fun _ h => h.elim fun _ h => h.elim fun _ h => h.1
  rw [decodeIdentityFail, BitwardenIdentityTokenFailResponse.Renders]
  constructor
  · intro h
    split at h
    · rename_i hfound
      obtain ⟨values, hvalues, hrepresents⟩ :=
        (Json.record_iff apart_identityFailFields).mp hfound
      refine ⟨values, hrepresents, ?_⟩
      match values, hvalues with
      | [_, _, _], hvalues =>
          simp only [List.map_cons, List.map_nil, List.cons.injEq, and_true] at hvalues
          obtain ⟨rfl, rfl, rfl⟩ := hvalues
          obtain ⟨error, herror, h⟩ := Option.bind_eq_some_iff.mp h
          obtain ⟨errorDescription, herrorDescription, h⟩ := Option.bind_eq_some_iff.mp h
          obtain ⟨message, hmessage, h⟩ := Option.bind_eq_some_iff.mp h
          obtain rfl := Option.some.inj h
          exact .cons (required_text.mp herror) <| .cons (required_text.mp herrorDescription) <|
            .cons ((required_iff hmodel errorModel_iff).mp hmessage) .nil
    · cases h
  · rintro ⟨values, hrepresents, hvalues⟩
    rw [(Json.record_iff apart_identityFailFields).mpr ⟨values, rfl, hrepresents⟩]
    match values, hvalues with
    | [_, _, _], .cons herror (.cons herrorDescription (.cons hmessage .nil)) =>
        simp only [List.map_cons, List.map_nil, required_text.mpr herror,
          required_text.mpr herrorDescription, (required_iff hmodel errorModel_iff).mpr hmessage,
          Option.pure_def, Option.bind_eq_bind, Option.bind_some]

/-! ### Bodies -/

variable {Body : Type} {reader : TokenReader Body} {body : Body}

/-- The body is the text of such a value. -/
def TokenReader.Reads (reader : TokenReader Body) (body : Body) (renders : Json → Prop) : Prop :=
  ∃ json, reader.parse body = some json ∧ renders json

/-- What a body is taken for: the first shape that it has. -/
def TakenAs (reader : TokenReader Body) (body : Body) : BitwardenTokenResponse → Prop
  | .success token => reader.Reads body (token.Renders reader.unlock)
  | .twoFactor => reader.Reads body AsksTwoFactor ∧
      ∀ token : BitwardenTokenSuccessResponse, ¬reader.Reads body (token.Renders reader.unlock)
  | .identityFail response => reader.Reads body response.Renders ∧
      ¬reader.Reads body AsksTwoFactor ∧
        ∀ token : BitwardenTokenSuccessResponse, ¬reader.Reads body (token.Renders reader.unlock)

theorem success_iff (token : BitwardenTokenSuccessResponse) :
    reader.decoder.success body = some token ↔
      reader.Reads body (token.Renders reader.unlock) := by
  rw [TokenReader.decoder, Option.bind_eq_some_iff]
  exact exists_congr fun json => and_congr_right' (tokenSuccess_iff json token)

theorem asksTwoFactor_iff :
    reader.decoder.twoFactor body = true ↔ reader.Reads body AsksTwoFactor := by
  rw [TokenReader.decoder, Option.any_eq_true]
  exact exists_congr fun json => and_congr_right' (twoFactor_iff json)

theorem fail_iff (response : BitwardenIdentityTokenFailResponse) :
    reader.decoder.identityFail body = some response ↔ reader.Reads body response.Renders := by
  rw [TokenReader.decoder, Option.bind_eq_some_iff]
  exact exists_congr fun json => and_congr_right' (identityFail_iff json response)

/-- What a body decodes as. -/
theorem decode_iff (response : BitwardenTokenResponse) :
    reader.decoder.decode body = some response ↔ TakenAs reader body response := by
  rw [TokenDecoder.decode]
  cases hsuccess : reader.decoder.success body with
  | some token =>
      have hreads := (success_iff token).mp hsuccess
      rw [Option.some.injEq]
      cases response with
      | success token' =>
          rw [TakenAs, ← success_iff, hsuccess, Option.some.injEq,
            BitwardenTokenResponse.success.injEq]
      | twoFactor => exact iff_of_false nofun fun h => h.2 token hreads
      | identityFail response => exact iff_of_false nofun fun h => h.2.2 token hreads
  | none =>
      have hnone : ∀ token : BitwardenTokenSuccessResponse,
          ¬reader.Reads body (token.Renders reader.unlock) := by
        intro token hreads
        rw [(success_iff token).mpr hreads] at hsuccess
        cases hsuccess
      by_cases htwo : reader.decoder.twoFactor body = true
      · have hasks := asksTwoFactor_iff.mp htwo
        rw [if_pos htwo, Option.some.injEq]
        cases response with
        | success token => exact iff_of_false nofun (hnone token)
        | twoFactor => exact iff_of_true rfl ⟨hasks, hnone⟩
        | identityFail response => exact iff_of_false nofun fun h => h.2.1 hasks
      · have hasks := mt asksTwoFactor_iff.mpr htwo
        rw [if_neg htwo]
        cases response with
        | success token => exact iff_of_false (by simp) (hnone token)
        | twoFactor => exact iff_of_false (by simp) fun h => hasks h.1
        | identityFail response =>
            rw [TakenAs, ← fail_iff]
            simp [hasks, hnone]

/-! ### Responses -/

/-- **What an identity response comes to.** -/
theorem token_body_format (reader : TokenReader Body) (showStatus : StatusCode → String)
    (status : StatusCode) (body : Body) :
    let outcome := requestApiKeyToken reader.decoder showStatus (.response status body)
    (∀ token, outcome = .ok token ↔
      status.isSuccess = true ∧ TakenAs reader body (.success token)) ∧
    (outcome = .error .twoFactorRequired ↔ TakenAs reader body .twoFactor) ∧
    (∀ response, outcome = .error (.identityFail response) ↔
      TakenAs reader body (.identityFail response)) ∧
    (outcome = .error .invalidResponse ↔
      status.isSuccess = true ∧ ∀ response, ¬TakenAs reader body response) ∧
    (∀ error, outcome = .error (.tokenRequest error) ↔
      status.isSuccess = false ∧ error = identityRequestFailed showStatus status ∧
        ∀ response, TakenAs reader body response → ∃ token, response = .success token) := by
  simp only [← decode_iff]
  rw [requestApiKeyToken, parseToken]
  -- the shape and the status settle the answer
  rcases reader.decoder.decode body with _ | (token | _ | response)
  all_goals cases status.isSuccess <;> simp [eq_comm]

end Keyring.Bitwarden
