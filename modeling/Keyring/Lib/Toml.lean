/-
TOML values, and strict records of them.

A table is a list of entries; a parser returns no key twice.  A strict record takes the
entries of a table apart by its own fields and refuses a key that is none of them.  So what
it takes is known exactly: the table is the fields that are there, in any order
(`record_table_iff`).  A record may also come as an array, by position; what is left of the
array is not looked at.
-/
import Keyring.Lib.MapM
import Mathlib.Data.List.Nodup

inductive Toml
  | string (text : String)
  | integer (value : Int)
  | float (literal : String)
  | boolean (value : Bool)
  | datetime (literal : String)
  | array (elements : List Toml)
  | table (entries : List (String × Toml))

namespace Toml

variable {α : Type*} {names : List String} {entries entries' : List (String × Toml)}
  {name : String} {value : Toml}

/-! ### Decoders -/

def text : Toml → Option String
  | .string text => some text
  | _ => none

def vec (decode : Toml → Option α) : Toml → Option (List α)
  | .array elements => elements.mapM decode
  | _ => none

/-- `#[serde(default)]`, of a list. -/
def defaulted (decode : Toml → Option (List α)) : Option Toml → Option (List α)
  | none => some []
  | some value => decode value

def lookup (name : String) (entries : List (String × Toml)) : Option Toml :=
  (entries.find? fun entry => entry.1 == name).map Prod.snd

/-- Whether the keys are fields, and none comes twice. -/
def strict (names : List String) (entries : List (String × Toml)) : Bool :=
  decide (entries.map Prod.fst).Nodup && entries.all fun entry => names.contains entry.1

/-- The values of a record's fields, in the order of the record, where unknown keys are
denied. -/
def record (names : List String) : Toml → Option (List (Option Toml))
  | .table entries =>
      if strict names entries then some (names.map fun name => lookup name entries) else none
  | .array elements => some ((List.range names.length).map fun i => elements[i]?)
  | _ => none

/-! ### Looking up -/

theorem strict_iff : strict names entries = true ↔
    (entries.map Prod.fst).Nodup ∧ ∀ entry ∈ entries, entry.1 ∈ names := by
  rw [strict, Bool.and_eq_true, decide_eq_true_iff, List.all_eq_true]
  simp

/-- Where no key comes twice, a lookup finds what is there. -/
theorem lookup_eq_some (h : (entries.map Prod.fst).Nodup) :
    lookup name entries = some value ↔ (name, value) ∈ entries := by
  constructor
  · intro hlookup
    obtain ⟨⟨key, found⟩, hfind, rfl⟩ := Option.map_eq_some_iff.mp hlookup
    have hkey : key = name := by simpa using List.find?_some hfind
    rw [← hkey]
    exact List.mem_of_find?_eq_some hfind
  · intro hmem
    have hsome : (entries.find? fun entry => entry.1 == name).isSome := by
      rw [List.find?_isSome]
      exact ⟨_, hmem, by simp⟩
    obtain ⟨found, hfound⟩ := Option.isSome_iff_exists.mp hsome
    have hkey : found.1 = name := by simpa using List.find?_some hfound
    have hsame : found = (name, value) :=
      List.inj_on_of_nodup_map h (List.mem_of_find?_eq_some hfound) hmem hkey
    rw [lookup, hfound, hsame]
    rfl

/-! ### Strict records -/

/-- The fields that are there. -/
def present (names : List String) (values : List (Option Toml)) : List (String × Toml) :=
  (names.zip values).filterMap fun field => field.2.map fun value => (field.1, value)

theorem mem_present {values : List (Option Toml)} :
    (name, value) ∈ present names values ↔ (name, some value) ∈ names.zip values := by
  rw [present, List.mem_filterMap]
  constructor
  · rintro ⟨⟨field, found⟩, hmem, hsome⟩
    obtain ⟨value', rfl, heq⟩ := Option.map_eq_some_iff.mp hsome
    obtain ⟨rfl, rfl⟩ := Prod.mk.inj heq
    exact hmem
  · intro hmem
    exact ⟨_, hmem, rfl⟩

/-- The keys of the fields that are there are among the fields, in order. -/
theorem keys_present : ∀ (names : List String) (values : List (Option Toml)),
    ((present names values).map Prod.fst).Sublist names := by
  intro names
  induction names with
  | nil =>
      intro values
      exact List.nil_sublist _
  | cons name rest ih =>
      intro values
      cases values with
      | nil => exact List.nil_sublist _
      | cons value values =>
          cases value with
          | none => exact (ih values).cons name
          | some value => exact (ih values).cons_cons name

/-- A pair of a zipped list stands at one place. -/
theorem mem_zip_iff {values : List (Option Toml)} {found : Option Toml}
    (hlength : values.length = names.length) :
    (name, found) ∈ names.zip values ↔
      ∃ (i : Nat) (h : i < names.length), names[i] = name ∧ values[i] = found := by
  rw [List.mem_iff_getElem]
  constructor
  · rintro ⟨i, hi, heq⟩
    rw [List.getElem_zip] at heq
    rw [List.length_zip] at hi
    exact ⟨i, by omega, congrArg Prod.fst heq, congrArg Prod.snd heq⟩
  · rintro ⟨i, hi, rfl, rfl⟩
    exact ⟨i, by rw [List.length_zip]; omega, List.getElem_zip⟩

/-- A strict record of a table: the table is the fields that are there, in any order. -/
theorem record_table_iff {values : List (Option Toml)} (hnames : names.Nodup) :
    record names (.table entries) = some values ↔
      values.length = names.length ∧ entries.Perm (present names values) := by
  have hkeys := keys_present names values
  constructor
  · intro hrecord
    rw [record] at hrecord
    obtain ⟨hstrict, heq⟩ := Option.ite_none_right_eq_some.mp hrecord
    obtain rfl := Option.some.inj heq
    obtain ⟨hnodup, hfields⟩ := strict_iff.mp hstrict
    have hlength : (names.map fun name => lookup name entries).length = names.length :=
      List.length_map _
    refine ⟨hlength, (List.perm_ext_iff_of_nodup hnodup.of_map
      (hkeys.nodup hnames).of_map).mpr ?_⟩
    rintro ⟨name, value⟩
    rw [mem_present, mem_zip_iff hlength]
    constructor
    · intro hmem
      obtain ⟨i, hi, hname⟩ := List.getElem_of_mem (hfields _ hmem)
      refine ⟨i, hi, hname, ?_⟩
      rw [List.getElem_map, hname]
      exact (lookup_eq_some hnodup).mpr hmem
    · rintro ⟨i, hi, hname, hvalue⟩
      rw [List.getElem_map, hname] at hvalue
      exact (lookup_eq_some hnodup).mp hvalue
  · rintro ⟨hlength, hperm⟩
    have hnodup : (entries.map Prod.fst).Nodup :=
      (hperm.map Prod.fst).nodup_iff.mpr (hkeys.nodup hnames)
    have hstrict : strict names entries = true := by
      refine strict_iff.mpr ⟨hnodup, fun entry hmem => hkeys.subset ?_⟩
      exact List.mem_map_of_mem (hperm.subset hmem)
    rw [record, if_pos hstrict]
    refine congrArg some (List.ext_getElem (by rw [List.length_map, hlength]) ?_)
    intro i hi hi'
    rw [List.getElem_map]
    refine Option.ext fun value => ?_
    rw [lookup_eq_some hnodup, hperm.mem_iff, mem_present, mem_zip_iff hlength]
    constructor
    · rintro ⟨k, hk, hname, hvalue⟩
      obtain rfl : k = i := (hnames.getElem_inj_iff).mp hname
      exact hvalue
    · intro hvalue
      exact ⟨i, by omega, rfl, hvalue⟩

/-! ### Records whose fields must all be there -/

def required (names : List String) (value : Toml) : Option (List Toml) :=
  (record names value).bind fun values => values.mapM id

/-- These fields in any order, or by position. -/
def Represents (fields : List (String × Toml)) : Toml → Prop
  | .table entries => entries.Perm fields
  | .array elements => fields.map Prod.snd <+: elements
  | _ => False

theorem mapM_id_eq_some {values : List (Option Toml)} {found : List Toml} :
    values.mapM id = some found ↔ values = found.map some :=
  List.mapM_eq_some_map_iff fun _ _ => Iff.rfl

/-- Where every field is there, all of them are. -/
theorem present_map_some : ∀ (names : List String) (values : List Toml),
    present names (values.map some) = names.zip values := by
  intro names
  induction names with
  | nil =>
      intro values
      rfl
  | cons name rest ih =>
      intro values
      cases values with
      | nil => rfl
      | cons value values => exact congrArg _ (ih values)

/-- What a record of required fields takes. -/
theorem required_iff {value : Toml} {values : List Toml} (hnames : names.Nodup) :
    required names value = some values ↔
      values.length = names.length ∧ Represents (names.zip values) value := by
  have hbind : required names value = some values ↔
      record names value = some (values.map some) := by
    rw [required, Option.bind_eq_some_iff]
    constructor
    · rintro ⟨found, hrecord, hfound⟩
      rw [hrecord, mapM_id_eq_some.mp hfound]
    · intro hrecord
      exact ⟨_, hrecord, mapM_id_eq_some.mpr rfl⟩
  rw [hbind]
  cases value with
  | table entries => rw [record_table_iff hnames, present_map_some, List.length_map]; rfl
  | array elements =>
      rw [record, Option.some.injEq, Represents]
      constructor
      · intro heq
        have hlength : values.length = names.length := by
          simpa using (congrArg List.length heq).symm
        refine ⟨hlength, ?_⟩
        rw [List.map_snd_zip (Nat.le_of_eq hlength), List.prefix_iff_getElem?]
        intro i hi
        have hi' := congrArg (fun found => found[i]?) heq
        simpa [hi, hlength ▸ hi] using hi'
      · rintro ⟨hlength, hfront⟩
        rw [List.map_snd_zip (Nat.le_of_eq hlength), List.prefix_iff_getElem?] at hfront
        refine List.ext_getElem (by simp [hlength]) fun i hi hi' => ?_
        have hi'' : i < values.length := by simpa using hi'
        simp [hfront i hi'']
  | _ => simp [record, Represents]

/-! ### Records of texts -/

/-- A record whose fields are all there, and all texts. -/
def texts (names : List String) (value : Toml) : Option (List String) :=
  (required names value).bind fun values => values.mapM text

theorem mapM_text_eq_some {values : List Toml} {found : List String} :
    values.mapM text = some found ↔ values = found.map string := by
  refine List.mapM_eq_some_map_iff fun value s => ?_
  cases value <;> simp [text]

/-- What a record of texts takes. -/
theorem texts_iff {value : Toml} {found : List String} (hnames : names.Nodup) :
    texts names value = some found ↔
      found.length = names.length ∧ Represents (names.zip (found.map string)) value := by
  rw [texts, Option.bind_eq_some_iff]
  constructor
  · rintro ⟨values, hrequired, htexts⟩
    obtain rfl := mapM_text_eq_some.mp htexts
    rw [required_iff hnames, List.length_map] at hrequired
    exact hrequired
  · intro h
    refine ⟨found.map string, ?_, mapM_text_eq_some.mpr rfl⟩
    rw [required_iff hnames, List.length_map]
    exact h

/-! ### Sections -/

/-- A list that is left out, or an array of what represents its elements. -/
def Section (represents : α → Toml → Prop) (list : List α) : Option Toml → Prop
  | none => list = []
  | some value => ∃ elements, value = .array elements ∧ List.Forall₂ represents list elements

/-- What a list with a default takes. -/
theorem defaulted_iff {represents : α → Toml → Prop} {decode : Toml → Option α}
    (h : ∀ value a, decode value = some a ↔ represents a value) {list : List α}
    {value : Option Toml} :
    defaulted (vec decode) value = some list ↔ Section represents list value := by
  cases value with
  | none => rw [defaulted, Section, Option.some.injEq, eq_comm]
  | some value =>
      cases value with
      | array elements => simp [defaulted, vec, Section, List.mapM_eq_some_iff h]
      | _ => simp [defaulted, vec, Section]

end Toml
