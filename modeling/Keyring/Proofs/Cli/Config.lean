/-
What the configuration file means.

Which documents are a configuration, and of which, is known exactly: an entry has its fields
in any order or, as an array, first of all; a section has its entries in order, or is left
out where there are none; and a document has its sections, and nothing else
(`decode_iff`).  Every configuration can be written, and is read back.

From there on nothing is left open about a load: which files give which agent, and which
files are refused with which error.
-/
import Keyring.Cli.Config
import Keyring.Proofs.Bitwarden.Session.Moves

namespace Keyring.Cli

open Keyring.Service

/-! ### Entries -/

def DummyProviderConfig.Renders (config : DummyProviderConfig) (value : Toml) : Prop :=
  Toml.Represents [("name", .string config.name)] value

def BitwardenProviderConfig.Renders (config : BitwardenProviderConfig) (value : Toml) : Prop :=
  Toml.Represents
    [("name", .string config.name), ("api_url", .string config.apiUrl),
      ("identity_url", .string config.identityUrl), ("client_id", .string config.clientId),
      ("client_secret", .string config.clientSecret), ("password", .string config.password)]
    value

theorem DummyProviderConfig.decode_iff (value : Toml) (config : DummyProviderConfig) :
    DummyProviderConfig.decode value = some config ↔ Renders config value := by
  have hnames : ["name"].Nodup := by decide
  rw [decode, Renders]
  constructor
  · intro h
    split at h
    · rename_i found hfound
      obtain rfl := Option.some.inj h
      exact ((Toml.texts_iff hnames).mp hfound).2
    · cases h
  · intro h
    have hfound : Toml.texts ["name"] value = some [config.name] :=
      (Toml.texts_iff hnames).mpr ⟨rfl, h⟩
    rw [hfound]

theorem BitwardenProviderConfig.decode_iff (value : Toml) (config : BitwardenProviderConfig) :
    BitwardenProviderConfig.decode value = some config ↔ Renders config value := by
  have hnames : ["name", "api_url", "identity_url", "client_id", "client_secret",
      "password"].Nodup := by decide
  rw [decode, Renders]
  constructor
  · intro h
    split at h
    · rename_i name' apiUrl' identityUrl' clientId' clientSecret' password' hfound
      obtain rfl := Option.some.inj h
      exact ((Toml.texts_iff hnames).mp hfound).2
    · cases h
  · intro h
    have hfound : Toml.texts ["name", "api_url", "identity_url", "client_id", "client_secret",
        "password"] value = some [config.name, config.apiUrl, config.identityUrl, config.clientId,
          config.clientSecret, config.password] :=
      (Toml.texts_iff hnames).mpr ⟨rfl, h⟩
    rw [hfound]

/-! ### Documents -/

namespace Config

variable {config : Config} {entries : List (String × Toml)}

/-- The sections of a document, each of which may be left out where it has no entry. -/
def Renders (config : Config) (entries : List (String × Toml)) : Prop :=
  ∃ dummy bitwarden,
    Toml.Section DummyProviderConfig.Renders config.dummy dummy ∧
      Toml.Section BitwardenProviderConfig.Renders config.bitwarden bitwarden ∧
      entries.Perm (Toml.present ["dummy", "bitwarden"] [dummy, bitwarden])

/-- **What is taken for a configuration, and for which.** -/
theorem decode_iff : Config.decode entries = some config ↔ config.Renders entries := by
  have hnames : ["dummy", "bitwarden"].Nodup := by decide
  rw [decode, Renders]
  constructor
  · intro h
    split at h
    · rename_i dummy bitwarden hfound
      obtain ⟨dummies, hdummies, h⟩ := Option.bind_eq_some_iff.mp h
      obtain ⟨bitwardens, hbitwardens, h⟩ := Option.bind_eq_some_iff.mp h
      obtain rfl := Option.some.inj h
      exact ⟨dummy, bitwarden, (Toml.defaulted_iff DummyProviderConfig.decode_iff).mp hdummies,
        (Toml.defaulted_iff BitwardenProviderConfig.decode_iff).mp hbitwardens,
        ((Toml.record_table_iff hnames).mp hfound).2⟩
    · cases h
  · rintro ⟨dummy, bitwarden, hdummy, hbitwarden, hperm⟩
    have hfound : Toml.record ["dummy", "bitwarden"] (.table entries) =
        some [dummy, bitwarden] := (Toml.record_table_iff hnames).mpr ⟨rfl, hperm⟩
    rw [hfound]
    simp only [(Toml.defaulted_iff DummyProviderConfig.decode_iff).mpr hdummy,
      (Toml.defaulted_iff BitwardenProviderConfig.decode_iff).mpr hbitwarden, Option.bind_eq_bind,
      Option.bind_some, Option.pure_def]

example : Config.decode
    [("bitwarden", .array []), ("dummy", .array [.table [("name", .string "a")],
      .array [.string "b", .integer 1]])] = some ⟨[⟨"a"⟩, ⟨"b"⟩], []⟩ := by decide

example : Config.decode
    [("dummy", .array [.table [("name", .string "a"), ("url", .string "b")]])] = none := by decide

/-- A configuration as one would write it. -/
def document (config : Config) : List (String × Toml) :=
  [("dummy", .array (config.dummy.map fun entry => .table [("name", .string entry.name)])),
    ("bitwarden", .array (config.bitwarden.map fun entry => .table
      [("name", .string entry.name), ("api_url", .string entry.apiUrl),
        ("identity_url", .string entry.identityUrl), ("client_id", .string entry.clientId),
        ("client_secret", .string entry.clientSecret), ("password", .string entry.password)]))]

theorem renders_document (config : Config) : config.Renders config.document := by
  refine ⟨some _, some _, ⟨_, rfl, ?_⟩, ⟨_, rfl, ?_⟩, List.Perm.refl _⟩
  · rw [List.forall₂_map_right_iff, List.forall₂_same]
    exact fun _ _ => List.Perm.refl _
  · rw [List.forall₂_map_right_iff, List.forall₂_same]
    exact fun _ _ => List.Perm.refl _

/-! ### Providers -/

/-- The providers of a configuration whose entries have names. -/
def built {keys : SshKeys} (tools : Toolchain keys) (config : Config) : List (Provider keys) :=
  config.dummy.map (fun _ => .dummy [tools.fromSeed (List.replicate 32 7)]) ++
    config.bitwarden.map fun entry =>
      .bitwarden entry { tools.env with password := entry.password }

/-- Whether every entry has a name. -/
structure Named (config : Config) : Prop where
  dummy : ∀ entry ∈ config.dummy, ¬isBlank entry.name = true
  bitwarden : ∀ entry ∈ config.bitwarden, ¬isBlank entry.name = true

end Config

/-- A list of results is the first error, or all there is. -/
theorem mapM_id_eq {α ε : Type*} {refused : α → Prop} {β : Type*} {f : α → Except ε β} {g : α → β}
    {e : ε} (hok : ∀ a, ¬refused a → f a = .ok (g a)) (herror : ∀ a, refused a → f a = .error e)
    (as : List α) :
    ((∀ a ∈ as, ¬refused a) → (as.map f).mapM id = .ok (as.map g)) ∧
      ((∃ a ∈ as, refused a) → (as.map f).mapM id = .error e) := by
  induction as with
  | nil => exact ⟨fun _ => rfl, by simp⟩
  | cons a rest ih =>
      rw [List.map_cons, List.mapM_cons]
      by_cases ha : refused a
      · refine ⟨fun h => absurd ha (h a List.mem_cons_self), fun _ => ?_⟩
        rw [herror a ha]
        rfl
      · rw [hok a ha]
        constructor
        · intro h
          rw [ih.1 fun b hb => h b (List.mem_cons_of_mem a hb)]
          rfl
        · intro h
          obtain ⟨b, hb, hrefused⟩ := h
          rcases List.mem_cons.mp hb with rfl | hb
          · exact absurd hrefused ha
          · rw [ih.2 ⟨b, hb, hrefused⟩]
            rfl

variable {keys : SshKeys} {tools : Toolchain keys}

/-- The dummy providers, or the first error of one. -/
theorem dummies (tools : Toolchain keys) (entries : List DummyProviderConfig) :
    ((∀ entry ∈ entries, ¬isBlank entry.name = true) →
        (entries.map (DummyProvider.tryFrom tools)).mapM id =
          .ok (entries.map fun _ => .dummy [tools.fromSeed (List.replicate 32 7)])) ∧
      ((∃ entry ∈ entries, isBlank entry.name = true) →
        (entries.map (DummyProvider.tryFrom tools)).mapM id =
          .error "dummy provider name must not be empty") := by
  refine mapM_id_eq ?_ ?_ entries
  · intro entry hnamed
    rw [DummyProvider.tryFrom, if_neg (trim_eq_empty.not.mpr hnamed)]
  · intro entry hblank
    rw [DummyProvider.tryFrom, if_pos (trim_eq_empty.mpr hblank)]

/-- The Bitwarden providers, or the first error of one. -/
theorem bitwardens (tools : Toolchain keys) (entries : List BitwardenProviderConfig) :
    ((∀ entry ∈ entries, ¬isBlank entry.name = true) →
        (entries.map (BitwardenProvider.tryFrom tools)).mapM id =
          .ok (entries.map fun entry =>
            .bitwarden entry { tools.env with password := entry.password })) ∧
      ((∃ entry ∈ entries, isBlank entry.name = true) →
        (entries.map (BitwardenProvider.tryFrom tools)).mapM id =
          .error "bitwarden provider name must not be empty") := by
  refine mapM_id_eq ?_ ?_ entries
  · intro entry hnamed
    rw [BitwardenProvider.tryFrom, if_neg (trim_eq_empty.not.mpr hnamed)]
  · intro entry hblank
    rw [BitwardenProvider.tryFrom, if_pos (trim_eq_empty.mpr hblank)]

namespace Config

variable {config : Config}

/-- Why the entries of a configuration are no providers. -/
inductive Unnamed (config : Config) : String → Prop
  | dummy {entry : DummyProviderConfig} (hmem : entry ∈ config.dummy)
      (hblank : isBlank entry.name = true) :
      Unnamed config "dummy provider name must not be empty"
  | bitwarden {entry : BitwardenProviderConfig}
      (hdummy : ∀ entry ∈ config.dummy, ¬isBlank entry.name = true)
      (hmem : entry ∈ config.bitwarden) (hblank : isBlank entry.name = true) :
      Unnamed config "bitwarden provider name must not be empty"

theorem providers_of_named (h : config.Named) :
    config.providers tools = .ok (config.built tools) := by
  rw [providers, List.mapM_append, (dummies tools config.dummy).1 h.dummy,
    (bitwardens tools config.bitwarden).1 h.bitwarden]
  rfl

theorem providers_of_unnamed {error : String} (h : config.Unnamed error) :
    config.providers tools = .error error := by
  rw [providers, List.mapM_append]
  cases h with
  | dummy hmem hblank =>
      rw [(dummies tools config.dummy).2 ⟨_, hmem, hblank⟩]
      rfl
  | bitwarden hdummy hmem hblank =>
      rw [(dummies tools config.dummy).1 hdummy,
        (bitwardens tools config.bitwarden).2 ⟨_, hmem, hblank⟩]
      rfl

/-- Every entry has a name, or there is one that has none. -/
theorem named_or_unnamed (config : Config) : config.Named ∨ ∃ error, config.Unnamed error := by
  by_cases hdummy : ∃ entry ∈ config.dummy, isBlank entry.name = true
  · obtain ⟨entry, hmem, hblank⟩ := hdummy
    exact Or.inr ⟨_, .dummy hmem hblank⟩
  · have hdummies : ∀ entry ∈ config.dummy, ¬isBlank entry.name = true :=
      fun entry hmem hblank => hdummy ⟨entry, hmem, hblank⟩
    by_cases hbitwarden : ∃ entry ∈ config.bitwarden, isBlank entry.name = true
    · obtain ⟨entry, hmem, hblank⟩ := hbitwarden
      exact Or.inr ⟨_, .bitwarden hdummies hmem hblank⟩
    · exact Or.inl ⟨hdummies, fun entry hmem hblank => hbitwarden ⟨entry, hmem, hblank⟩⟩

end Config

/-! ### Loads -/

/-- Which configuration a file is. -/
def Setup.Says (setup : Setup keys) (file : Except String String) (config : Config) : Prop :=
  ∃ source entries, file = .ok source ∧ setup.parse source = some entries ∧ config.Renders entries

/-- Which agent a file is loaded as. -/
def Setup.Accepts (setup : Setup keys) (file : Except String String)
    (agent : ServiceAgent (Provider keys)) : Prop :=
  ∃ config, setup.Says file config ∧ config.Named ∧ agent.providers = config.built setup.tools

/-- With which error a file is refused. -/
inductive Setup.Refuses (setup : Setup keys) : Except String String → String → Prop
  | unread {cause : String} :
      setup.Refuses (.error cause) s!"failed to read config {setup.path}"
  | unparsed {source : String} (h : ∀ config, ¬setup.Says (.ok source) config) :
      setup.Refuses (.ok source) s!"failed to parse config {setup.path}"
  | unnamed {file : Except String String} {config : Config} {error : String}
      (hmeant : setup.Says file config) (hunnamed : config.Unnamed error) : setup.Refuses file error
  | empty {file : Except String String} (hmeant : setup.Says file ⟨[], []⟩) :
      setup.Refuses file "at least one provider must be configured"

variable {setup : Setup keys} {file : Except String String} {config : Config}

theorem new_of_meant (h : setup.Says file config) :
    Config.new setup.path setup.parse file = .ok config := by
  obtain ⟨source, entries, rfl, hparse, hrenders⟩ := h
  rw [Config.new, hparse, Option.bind_some, Config.decode_iff.mpr hrenders]

theorem new_of_not_meant {source : String} (h : ∀ config, ¬setup.Says (.ok source) config) :
    Config.new setup.path setup.parse (.ok source) =
      .error s!"failed to parse config {setup.path}" := by
  have hnone : (setup.parse source).bind Config.decode = none := by
    refine Option.eq_none_iff_forall_not_mem.mpr fun config hconfig => ?_
    obtain ⟨entries, hparse, hdecode⟩ := Option.bind_eq_some_iff.mp hconfig
    exact h config ⟨source, entries, rfl, hparse, Config.decode_iff.mp hdecode⟩
  rw [Config.new, hnone]

theorem load_of_refuses {error : String} (h : setup.Refuses file error) :
    setup.load file = .error error := by
  rw [Setup.load, Setup.configured]
  cases h with
  | unread => rfl
  | unparsed h =>
      rw [new_of_not_meant h]
      rfl
  | unnamed hmeant hunnamed =>
      rw [new_of_meant hmeant, Except.bind, Config.providers_of_unnamed hunnamed]
      rfl
  | empty hmeant =>
      rw [new_of_meant hmeant]
      rfl

theorem load_providers {Provider : Type*} (agent : ServiceAgent Provider) :
    Serve.load (.ok agent.providers) = .ok agent := by
  obtain ⟨providers, hconfigured⟩ := agent
  cases providers with
  | nil => exact absurd rfl hconfigured
  | cons provider rest => rfl

theorem load_of_accepts {agent : ServiceAgent (Provider keys)} (h : setup.Accepts file agent) :
    setup.load file = .ok agent := by
  obtain ⟨config, hmeant, hnamed, hproviders⟩ := h
  rw [Setup.load, Setup.configured, new_of_meant hmeant, Except.bind,
    Config.providers_of_named hnamed, ← hproviders]
  exact load_providers agent

/-- Every file is loaded as an agent or refused. -/
theorem accepts_or_refuses (setup : Setup keys) (file : Except String String) :
    (∃ agent, setup.Accepts file agent) ∨ ∃ error, setup.Refuses file error := by
  by_cases hmeant : ∃ config, setup.Says file config
  · obtain ⟨config, hmeant⟩ := hmeant
    rcases config.named_or_unnamed with hnamed | ⟨error, hunnamed⟩
    · by_cases hbuilt : config.built setup.tools = []
      · rw [Config.built, List.append_eq_nil_iff, List.map_eq_nil_iff, List.map_eq_nil_iff]
          at hbuilt
        obtain rfl : config = ⟨[], []⟩ := Config.ext hbuilt.1 hbuilt.2
        exact Or.inr ⟨_, .empty hmeant⟩
      · exact Or.inl ⟨⟨_, hbuilt⟩, config, hmeant, hnamed, rfl⟩
    · exact Or.inr ⟨error, .unnamed hmeant hunnamed⟩
  · cases file with
    | error cause => exact Or.inr ⟨_, .unread⟩
    | ok source => exact Or.inr ⟨_, .unparsed fun config h => hmeant ⟨config, h⟩⟩

theorem load_eq_ok {agent : ServiceAgent (Provider keys)} :
    setup.load file = .ok agent ↔ setup.Accepts file agent := by
  refine ⟨fun hload => ?_, load_of_accepts⟩
  rcases accepts_or_refuses setup file with ⟨agent', haccepts⟩ | ⟨error, hrefuses⟩
  · rw [load_of_accepts haccepts] at hload
    exact Except.ok.inj hload ▸ haccepts
  · rw [load_of_refuses hrefuses] at hload
    cases hload

theorem load_eq_error {error : String} :
    setup.load file = .error error ↔ setup.Refuses file error := by
  refine ⟨fun hload => ?_, load_of_refuses⟩
  rcases accepts_or_refuses setup file with ⟨agent', haccepts⟩ | ⟨error', hrefuses⟩
  · rw [load_of_accepts haccepts] at hload
    cases hload
  · rw [load_of_refuses hrefuses] at hload
    exact Except.error.inj hload ▸ hrefuses

/-- **What a load makes of any configuration file**: which agents and which errors there are,
that a file is one configuration at most, and that the document with just the entries of a
configuration says that configuration. -/
theorem config_loads (setup : Setup keys) (file : Except String String) :
    (∀ agent, setup.load file = .ok agent ↔ setup.Accepts file agent) ∧
      (∀ error, setup.load file = .error error ↔ setup.Refuses file error) ∧
      (∀ config, setup.Says file config → ∀ other, setup.Says file other → other = config) ∧
      ∀ config source, setup.parse source = some (Config.document config) →
        setup.Says (.ok source) config := by
  refine ⟨fun _ => load_eq_ok, fun _ => load_eq_error, ?_, ?_⟩
  · intro config hmeant other hother
    have heq := (new_of_meant hother).symm.trans (new_of_meant hmeant)
    exact Except.ok.inj heq
  · intro config source hparse
    exact ⟨source, _, rfl, hparse, config.renders_document⟩

/-- A setup whose files are read as one dummy provider a character. -/
def plainSetup : Setup plainKeys where
  tools := ⟨fun _ => (7, ""), Bitwarden.plainEnv⟩
  path := "keyring-rs.toml"
  parse source := some (Config.document ⟨source.toList.map fun c => ⟨String.singleton c⟩, []⟩)

/-- A file with two providers. -/
theorem config_loads_plain : ∃ agent : ServiceAgent (Provider plainKeys),
    agent.providers.length = 2 ∧ plainSetup.Accepts (.ok "ab") agent ∧
      plainSetup.Says (.ok "ab") ⟨[⟨"a"⟩, ⟨"b"⟩], []⟩ := by
  obtain ⟨hloads, -, -, hsays⟩ := config_loads plainSetup (.ok "ab")
  obtain ⟨agent, hload⟩ : ∃ agent, plainSetup.load (.ok "ab") = .ok agent := ⟨_, rfl⟩
  have htwo : agent.providers.length = 2 := by
    obtain rfl := Except.ok.inj hload
    rfl
  exact ⟨agent, htwo, (hloads agent).mp hload, hsays _ _ rfl⟩

end Keyring.Cli
