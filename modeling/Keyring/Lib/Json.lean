/-
JSON values, and the decoders that a typed program derives for them.

A decoder takes a value or refuses it.  That of a record is made from its fields, each with
the spellings it may have, and works for records whose fields are all optional: a field that
is not there counts as `null`, a field that is there twice is refused, and members that are
no field are not looked at.  A record may also come as the array of its fields.

What follows for a list is the point here.  A list is refused as soon as one element is, so
one element decides about all the others.
-/
import Mathlib.Data.List.Forall2

/-- A JSON value as it was written: members keep their order, and may come twice. -/
inductive Json
  | null
  | bool (value : Bool)
  /-- An integer, except for `-0`. -/
  | int (value : Int)
  /-- Any other number. -/
  | float (literal : String)
  | str (text : String)
  | arr (elements : List Json)
  | obj (members : List (String × Json))

namespace Json

variable {α : Type*} {decode : Json → Option α} {names : List String} {fields : List (List String)}

/-! ### Decoders -/

/-- `null` stands for an absent value. -/
def option (decode : Json → Option α) : Json → Option (Option α)
  | .null => some none
  | json => (decode json).map some

def string : Json → Option String
  | .str text => some text
  | _ => none

/-- A signed integer of 64 bits. -/
def i64 : Json → Option Int
  | .int n => if Int64.minValue.toInt ≤ n ∧ n ≤ Int64.maxValue.toInt then some n else none
  | _ => none

def vec (decode : Json → Option α) : Json → Option (List α)
  | .arr elements => elements.mapM decode
  | _ => none

/-- Whether a member is the field with these spellings. -/
def spells (names : List String) (member : String × Json) : Bool := names.contains member.1

/-- The value of a field. -/
def field (names : List String) (members : List (String × Json)) : Option Json :=
  match members.filter (spells names) with
  | [] => some .null
  | [member] => some member.2
  | _ => none

/-- The values of a record's fields, in the order of the record. -/
def record (fields : List (List String)) : Json → Option (List Json)
  | .obj members => fields.mapM fun names => field names members
  | .arr elements => if elements.length = fields.length then some elements else none
  | _ => none

/-! ### Lists -/

theorem mapM_eq_none_iff (elements : List Json) :
    elements.mapM decode = none ↔ ∃ x ∈ elements, decode x = none := by
  induction elements with
  | nil => simp
  | cons x rest ih =>
    rw [List.exists_mem_cons_iff, ← ih, List.mapM_cons]
    by_cases hx : decode x = none
    · simp [hx]
    · obtain ⟨a, ha⟩ := Option.ne_none_iff_exists'.mp hx
      by_cases hrest : rest.mapM decode = none
      · simp [ha, hrest]
      · obtain ⟨as, has⟩ := Option.ne_none_iff_exists'.mp hrest
        simp [ha, has]

/-- What comes out of a list stands where it went in. -/
theorem forall₂_of_mapM {β : Type*} {f : β → Option α} {bs : List β} :
    ∀ {as : List α}, bs.mapM f = some as → List.Forall₂ (fun b a => f b = some a) bs as := by
  induction bs with
  | nil =>
    intro as h
    obtain rfl : [] = as := Option.some.inj h
    exact .nil
  | cons b rest ih =>
    intro as h
    rw [List.mapM_cons] at h
    obtain ⟨a, ha, h⟩ := Option.bind_eq_some_iff.mp h
    obtain ⟨more, hmore, h⟩ := Option.bind_eq_some_iff.mp h
    obtain rfl : a :: more = as := Option.some.inj h
    exact .cons ha (ih hmore)

/-- A property of what comes out is one of what went in. -/
theorem forall_mem_mapM {P : α → Prop} {elements : List Json} {decoded : List α}
    (h : elements.mapM decode = some decoded) :
    (∀ a ∈ decoded, P a) ↔ ∀ x ∈ elements, ∀ a, decode x = some a → P a := by
  have hall := forall₂_of_mapM h
  clear h
  induction hall with
  | nil => simp
  | cons hx _ ih =>
    rw [List.forall_mem_cons, List.forall_mem_cons]
    refine and_congr ?_ ih
    rw [hx]
    simp

/-! ### Fields -/

/-- A member that is not the field can be left out. -/
theorem field_of_not_spells {before after : List (String × Json)} {member : String × Json}
    (h : spells names member = false) :
    field names (before ++ member :: after) = field names (before ++ after) := by
  rw [field, field, List.filter_append, List.filter_append, List.filter_cons_of_neg (by simp [h])]

/-- The field itself, where no other member has one of its spellings. -/
theorem field_of_spells {before after : List (String × Json)} {member : String × Json}
    (h : spells names member = true) :
    field names (before ++ member :: after) =
      if (before ++ after).any (spells names) then none else some member.2 := by
  have hfilter : (before ++ member :: after).filter (spells names) =
      before.filter (spells names) ++ member :: after.filter (spells names) := by
    rw [List.filter_append, List.filter_cons_of_pos h]
  by_cases hothers : (before ++ after).any (spells names)
  · have hmore : before.filter (spells names) ≠ [] ∨ after.filter (spells names) ≠ [] := by
      rw [List.any_eq_true] at hothers
      obtain ⟨other, hmem, hother⟩ := hothers
      rcases List.mem_append.mp hmem with hmem | hmem
      · exact Or.inl (List.ne_nil_of_mem (List.mem_filter.mpr ⟨hmem, hother⟩))
      · exact Or.inr (List.ne_nil_of_mem (List.mem_filter.mpr ⟨hmem, hother⟩))
    rw [if_pos hothers, field, hfilter]
    rcases hbefore : before.filter (spells names) with _ | ⟨first, rest⟩
    · rcases hafter : after.filter (spells names) with _ | ⟨second, rest⟩
      · rw [hbefore, hafter] at hmore
        simp at hmore
      · rfl
    · cases rest with
      | nil => rfl
      | cons second rest => rfl
  · have hnone : (before ++ after).filter (spells names) = [] := by
      rw [List.filter_eq_nil_iff]
      intro other hmem hother
      exact hothers (List.any_eq_true.mpr ⟨other, hmem, hother⟩)
    rw [List.filter_append, List.append_eq_nil_iff] at hnone
    rw [if_neg hothers, field, hfilter, hnone.1, hnone.2]
    rfl

/-- A record has a value for each of its fields. -/
theorem record_length {json : Json} {values : List Json} (h : record fields json = some values) :
    values.length = fields.length := by
  unfold record at h
  split at h
  · exact (forall₂_of_mapM h).length_eq.symm
  · split at h
    · rename_i hlength
      obtain rfl := Option.some.inj h
      exact hlength
    · cases h
  · cases h

/-- A record read from an object has at each place the value of that field. -/
theorem record_getElem {members : List (String × Json)} {values : List Json} {k : Nat}
    (h : record fields (.obj members) = some values) (hk : fields[k]? = some names) :
    ∃ value, values[k]? = some value ∧ field names members = some value := by
  have hall := forall₂_of_mapM h
  obtain ⟨hfields, hnames⟩ := List.getElem?_eq_some_iff.mp hk
  have hvalues : k < values.length := by rw [← hall.length_eq]; exact hfields
  have hvalue := hall.get hfields hvalues
  rw [List.get_eq_getElem, List.get_eq_getElem, hnames] at hvalue
  exact ⟨values[k], List.getElem?_eq_getElem hvalues, hvalue⟩

/-- A record decodes if its fields do, one after the other. -/
theorem isSome_bind_iff {β : Type*} {o : Option α} {f : α → Option β} {p : Prop}
    (h : ∀ a, (f a).isSome ↔ p) : (o.bind f).isSome ↔ o.isSome ∧ p := by
  cases o with
  | none => simp
  | some a => simpa using h a

end Json
