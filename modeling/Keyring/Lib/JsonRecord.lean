/-
Which JSON values a record takes.

A record of optional fields takes an object that gives each field once or not at all, under
any of its spellings, among any other members and in any order; or the array of its values.
Where no spelling is that of two fields, it takes nothing else (`record_iff`).
-/
import Keyring.Lib.Json
import Keyring.Lib.MapM

namespace Json

variable {α : Type*} {decode : Json → Option α} {names : List String} {fields : List (List String)}
  {members others named : List (String × Json)} {values : List (Option Json)}

/-! ### Objects -/

/-- The members that give these fields these values, in the order of the record. -/
inductive Named : List (List String) → List (Option Json) → List (String × Json) → Prop
  | nil : Named [] [] []
  | absent {names : List String} {fields : List (List String)} {values : List (Option Json)}
      {named : List (String × Json)} (h : Named fields values named) :
      Named (names :: fields) (none :: values) named
  | given {names : List String} {fields : List (List String)} {values : List (Option Json)}
      {named : List (String × Json)} {name : String} {value : Json} (hname : name ∈ names)
      (h : Named fields values named) :
      Named (names :: fields) (some value :: values) ((name, value) :: named)

/-- Every such member spells a field. -/
theorem Named.spells (h : Named fields values named) :
    ∀ member ∈ named, ∃ names ∈ fields, member.1 ∈ names := by
  induction h with
  | nil =>
      intro member hmem
      cases hmem
  | absent h ih =>
      intro member hmem
      obtain ⟨names, hnames, hname⟩ := ih member hmem
      exact ⟨names, List.mem_cons_of_mem _ hnames, hname⟩
  | @given names _ _ _ _ _ hname h ih =>
      intro member hmem
      rcases List.mem_cons.mp hmem with rfl | hmem
      · exact ⟨names, List.mem_cons_self, hname⟩
      · obtain ⟨names', hnames, hname'⟩ := ih member hmem
        exact ⟨names', List.mem_cons_of_mem _ hnames, hname'⟩

/-- No spelling is that of two fields. -/
def Apart (fields : List (List String)) : Prop := fields.Pairwise List.Disjoint

theorem filter_spells_eq_nil {members : List (String × Json)}
    (h : ∀ member ∈ members, member.1 ∉ names) : members.filter (Json.spells names) = [] := by
  rw [List.filter_eq_nil_iff]
  intro member hmem hspells
  exact h member hmem (by simpa [Json.spells] using hspells)

theorem field_of_perm (hperm : (members.filter (Json.spells names)).Perm named)
    (hfew : named.length ≤ 1) :
    field names members = some ((named.head?.map Prod.snd).getD .null) := by
  match named, hfew with
  | [], _ => rw [field, List.perm_nil.mp hperm]; rfl
  | [member], _ => rw [field, List.perm_singleton.mp hperm]; rfl

/-- Members that name other fields, or none, do not give this one a value. -/
theorem Named.filter_eq_nil (h : Named fields values named)
    (hfirst : ∀ names' ∈ fields, List.Disjoint names names')
    (hothers : ∀ member ∈ others, member.1 ∉ names) :
    (named ++ others).filter (Json.spells names) = [] := by
  refine filter_spells_eq_nil fun member hmem hname => ?_
  rcases List.mem_append.mp hmem with hmem | hmem
  · obtain ⟨names', hnames, hname'⟩ := h.spells member hmem
    exact hfirst names' hnames hname hname'
  · exact hothers member hmem hname

/-- Members that name the fields, among others, give them their values. -/
theorem fields_of_named (hapart : Apart fields) (hnamed : Named fields values named) :
    ∀ {members others : List (String × Json)}, members.Perm (named ++ others) →
      (∀ member ∈ others, ∀ names ∈ fields, member.1 ∉ names) →
        fields.mapM (fun names => field names members) =
          some (values.map fun value => value.getD .null) := by
  induction hnamed with
  | nil =>
      intro members others _ _
      rfl
  | @absent names fields values named h ih =>
      intro members others hperm hothers
      obtain ⟨hfirst, hrest⟩ := List.pairwise_cons.mp hapart
      have hnone : (members.filter (Json.spells names)).Perm [] :=
        h.filter_eq_nil hfirst (fun member hmem => hothers member hmem names List.mem_cons_self) ▸
          hperm.filter _
      have hfield : field names members = some .null := field_of_perm hnone (Nat.zero_le 1)
      rw [List.mapM_cons, hfield, ih hrest hperm fun member hmem names' hnames =>
        hothers member hmem names' (List.mem_cons_of_mem _ hnames)]
      rfl
  | @given names fields values named name value hname h ih =>
      intro members others hperm hothers
      obtain ⟨hfirst, hrest⟩ := List.pairwise_cons.mp hapart
      have hspells : Json.spells names (name, value) = true := by simpa [Json.spells] using hname
      have hone : (members.filter (Json.spells names)).Perm [(name, value)] := by
        have hfilter := hperm.filter (Json.spells names)
        rw [List.cons_append, List.filter_cons_of_pos hspells, h.filter_eq_nil hfirst
          fun member hmem => hothers member hmem names List.mem_cons_self] at hfilter
        exact hfilter
      have hfield : field names members = some value := field_of_perm hone (Nat.le_refl 1)
      -- for the other fields this member is one that spells none of them
      have hothers' : ∀ member ∈ (name, value) :: others, ∀ names' ∈ fields,
          member.1 ∉ names' := by
        intro member hmem names' hnames
        rcases List.mem_cons.mp hmem with rfl | hmem
        · exact fun hname' => hfirst names' hnames hname hname'
        · exact hothers member hmem names' (List.mem_cons_of_mem _ hnames)
      rw [List.mapM_cons, hfield, ih hrest (hperm.trans List.perm_middle.symm) hothers']
      rfl

/-- The fields have values only where members name them, among others. -/
theorem named_of_fields (hapart : Apart fields) :
    ∀ {members : List (String × Json)} {found : List Json},
      fields.mapM (fun names => field names members) = some found →
        ∃ values named others, values.map (fun value => value.getD .null) = found ∧
          Named fields values named ∧ members.Perm (named ++ others) ∧
            ∀ member ∈ others, ∀ names ∈ fields, member.1 ∉ names := by
  induction fields with
  | nil =>
      intro members found h
      obtain rfl := Option.some.inj h
      exact ⟨[], [], members, rfl, .nil, List.Perm.refl _, fun _ _ names hnames =>
        absurd hnames List.not_mem_nil⟩
  | cons names rest ih =>
      intro members found h
      obtain ⟨hfirst, hrest⟩ := List.pairwise_cons.mp hapart
      rw [List.mapM_cons] at h
      obtain ⟨value, hvalue, h⟩ := Option.bind_eq_some_iff.mp h
      obtain ⟨more, hmore, h⟩ := Option.bind_eq_some_iff.mp h
      obtain rfl := Option.some.inj h
      -- the members that do not spell this field
      let left := members.filter fun member => !Json.spells names member
      have hleft : rest.mapM (fun names' => field names' left) = some more := by
        rw [← hmore]
        refine List.mapM_congr fun names' hnames => ?_
        have hfilter : left.filter (Json.spells names') =
            members.filter (Json.spells names') := by
          rw [List.filter_filter]
          refine List.filter_congr fun member _ => ?_
          by_cases hspells : Json.spells names' member = true
          · have hnot : Json.spells names member = false := by
              by_contra hspells'
              have h1 : member.1 ∈ names := by simpa [Json.spells] using hspells'
              have h2 : member.1 ∈ names' := by simpa [Json.spells] using hspells
              exact hfirst names' hnames h1 h2
            simp [hspells, hnot]
          · simp [hspells]
        rw [field, field, hfilter]
      obtain ⟨values, named, others, rfl, hnamed, hperm, hothers⟩ := ih hrest hleft
      have hothers' : ∀ member ∈ others, ∀ names' ∈ names :: rest, member.1 ∉ names' := by
        intro member hmem names' hnames
        rcases List.mem_cons.mp hnames with rfl | hnames
        · have hin : member ∈ left := hperm.symm.subset (List.mem_append_right _ hmem)
          simpa [Json.spells] using (List.mem_filter.mp hin).2
        · exact hothers member hmem names' hnames
      have hsplit : members.Perm (members.filter (Json.spells names) ++ (named ++ others)) :=
        (List.filter_append_perm (Json.spells names) members).symm.trans (hperm.append_left _)
      unfold field at hvalue
      split at hvalue
      · rename_i hfilter
        obtain rfl := Option.some.inj hvalue
        rw [hfilter, List.nil_append] at hsplit
        exact ⟨none :: values, named, others, rfl, hnamed.absent, hsplit, hothers'⟩
      · rename_i member hfilter
        obtain rfl := Option.some.inj hvalue
        have hspells : Json.spells names member = true :=
          (List.mem_filter.mp (hfilter ▸ List.mem_singleton_self member)).2
        rw [hfilter] at hsplit
        exact ⟨some member.2 :: values, member :: named, others, rfl,
          .given (by simpa [Json.spells] using hspells) hnamed, hsplit, hothers'⟩
      · cases hvalue

/-! ### Records -/

/-- These values, under any spelling of their fields, or by position. -/
def Represents (fields : List (List String)) (values : List (Option Json)) : Json → Prop
  | .obj members => ∃ named others, Named fields values named ∧ members.Perm (named ++ others) ∧
      ∀ member ∈ others, ∀ names ∈ fields, member.1 ∉ names
  | .arr elements => elements.length = fields.length ∧ values = elements.map some
  | _ => False

theorem map_getD_some (elements : List Json) :
    (elements.map some).map (fun value => value.getD .null) = elements := by
  rw [List.map_map]
  exact List.map_id' elements

/-- What a record takes. -/
theorem record_iff {json : Json} {found : List Json} (hapart : Apart fields) :
    record fields json = some found ↔
      ∃ values, values.map (fun value => value.getD .null) = found ∧
        Represents fields values json := by
  cases json with
  | obj members =>
      constructor
      · intro h
        obtain ⟨values, named, others, hvalues, hnamed, hperm, hothers⟩ := named_of_fields hapart h
        exact ⟨values, hvalues, named, others, hnamed, hperm, hothers⟩
      · rintro ⟨values, rfl, named, others, hnamed, hperm, hothers⟩
        exact fields_of_named hapart hnamed hperm hothers
  | arr elements =>
      rw [record]
      constructor
      · intro h
        obtain ⟨hlength, h⟩ := Option.ite_none_right_eq_some.mp h
        obtain rfl := Option.some.inj h
        exact ⟨elements.map some, map_getD_some elements, hlength, rfl⟩
      · rintro ⟨values, rfl, hlength, rfl⟩
        rw [if_pos hlength, map_getD_some]
  | _ => simp [record, Represents]

/-! ### Records whose last fields have a default -/

/-- A record that takes an array of its first `required` values, or of more. -/
def recordFrom (required : Nat) (fields : List (List String)) : Json → Option (List Json)
  | .arr elements =>
      if required ≤ elements.length ∧ elements.length ≤ fields.length then
        some (elements ++ List.replicate (fields.length - elements.length) .null)
      else none
  | json => record fields json

/-- These values, of which the last may be missing from an array. -/
def RepresentsFrom (required : Nat) (fields : List (List String)) (values : List (Option Json)) :
    Json → Prop
  | .arr elements => (required ≤ elements.length ∧ elements.length ≤ fields.length) ∧
      values = elements.map some ++ List.replicate (fields.length - elements.length) none
  | json => Represents fields values json

theorem recordFrom_iff {required : Nat} {json : Json} {found : List Json} (hapart : Apart fields) :
    recordFrom required fields json = some found ↔
      ∃ values, values.map (fun value => value.getD .null) = found ∧
        RepresentsFrom required fields values json := by
  cases json with
  | arr elements =>
      have hmap : (elements.map some ++ List.replicate (fields.length - elements.length) none).map
          (fun value : Option Json => value.getD .null) =
            elements ++ List.replicate (fields.length - elements.length) .null := by
        rw [List.map_append, map_getD_some, List.map_replicate]
        rfl
      rw [recordFrom]
      constructor
      · intro h
        obtain ⟨hlength, h⟩ := Option.ite_none_right_eq_some.mp h
        obtain rfl := Option.some.inj h
        exact ⟨_, hmap, hlength, rfl⟩
      · rintro ⟨values, rfl, hlength, rfl⟩
        rw [if_pos hlength, hmap]
  | _ => simpa only [recordFrom, RepresentsFrom] using record_iff hapart

/-! ### Values -/

/-- A value that may be left out, or `null`. -/
def Optional (represents : α → Json → Prop) : Option α → Option Json → Prop
  | none, value => value = none ∨ value = some .null
  | some a, value => ∃ json, value = some json ∧ represents a json

theorem option_iff {represents : α → Json → Prop} (hnull : ∀ a, ¬represents a .null)
    (h : ∀ json a, decode json = some a ↔ represents a json) {a : Option α} {value : Option Json} :
    (value.getD .null).option decode = some a ↔ Optional represents a value := by
  cases value with
  | none => cases a <;> simp [option, Optional]
  | some json =>
      by_cases hjson : json = .null
      · subst hjson
        cases a <;> simp [option, Optional, hnull]
      · have hdecode : json.option decode = (decode json).map some := by
          cases json <;> first | rfl | exact absurd rfl hjson
        rw [Option.getD_some, hdecode]
        cases a <;> simp [Optional, hjson, h]

theorem vec_iff {represents : α → Json → Prop}
    (h : ∀ json a, decode json = some a ↔ represents a json) {json : Json} {list : List α} :
    vec decode json = some list ↔
      ∃ elements, json = .arr elements ∧ List.Forall₂ represents list elements := by
  cases json with
  | arr elements => simp [vec, List.mapM_eq_some_iff h]
  | _ => simp [vec]

end Json
