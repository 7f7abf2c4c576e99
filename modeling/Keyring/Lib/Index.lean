/-
An index: values under their keys, where the last value under a key wins.

The index is a hash map, whose order of iteration is no fact about its contents.  So what
can be said of it is said in two ways, by lookup and by the entries in ascending order of
the keys, and the second is a function of the first.
-/
import Mathlib.Data.List.Nodup
import Mathlib.Order.Lattice

namespace Index

variable {κ ν : Type*} [LinearOrder κ] {key : ν → κ} {vs ws : List ν} {k : κ} {v : ν}

/-! ### The last value under a key -/

/-- The last of the values that have a key. -/
def last (key : ν → κ) (vs : List ν) (k : κ) : Option ν := vs.reverse.find? fun v => key v == k

theorem last_append (vs ws : List ν) :
    last key (vs ++ ws) k = (last key ws k).or (last key vs k) := by
  unfold last
  rw [List.reverse_append, List.find?_append]

theorem last_eq_some (h : last key vs k = some v) : v ∈ vs ∧ key v = k := by
  have hmem := List.mem_of_find?_eq_some h
  have hkey := List.find?_some h
  exact ⟨List.mem_reverse.mp hmem, by simpa using hkey⟩

theorem last_isSome : (last key vs k).isSome ↔ ∃ v ∈ vs, key v = k := by
  unfold last
  rw [List.find?_isSome]
  simp

/-- Where no key comes twice, the order of the values does not matter. -/
theorem last_perm (hnodup : (vs.map key).Nodup) (hperm : vs.Perm ws) (k : κ) :
    last key vs k = last key ws k := by
  have hnodup' : (ws.map key).Nodup := (hperm.map key).nodup_iff.mp hnodup
  cases hv : last key vs k with
  | none =>
      have hnone : ¬(last key ws k).isSome := by
        rw [last_isSome]
        rintro ⟨v, hmem, hkey⟩
        have hsome : (last key vs k).isSome := last_isSome.mpr ⟨v, hperm.mem_iff.mpr hmem, hkey⟩
        rw [hv] at hsome
        exact absurd hsome (by simp)
      exact (Option.not_isSome_iff_eq_none.mp hnone).symm
  | some v =>
      obtain ⟨hmem, hkey⟩ := last_eq_some hv
      have hsome : (last key ws k).isSome := last_isSome.mpr ⟨v, hperm.mem_iff.mp hmem, hkey⟩
      obtain ⟨w, hw⟩ := Option.isSome_iff_exists.mp hsome
      obtain ⟨hmem', hkey'⟩ := last_eq_some hw
      rw [hw, List.inj_on_of_nodup_map hnodup' (hperm.mem_iff.mp hmem) hmem'
        (hkey.trans hkey'.symm)]

/-! ### Building an index -/

variable [Hashable κ] {m m' : Std.HashMap κ ν}

/-- Put values into the index, in turn. -/
def extend (key : ν → κ) (m : Std.HashMap κ ν) (vs : List ν) : Std.HashMap κ ν :=
  m.insertMany (vs.map fun v => (key v, v))

/-- **A lookup finds the last value under the key**, among the new ones first. -/
theorem getElem?_extend (m : Std.HashMap κ ν) (vs : List ν) (k : κ) :
    (extend key m vs)[k]? = (last key vs k).or m[k]? := by
  unfold extend last
  rw [Std.HashMap.getElem?_insertMany_list, List.findSomeRev?_eq_findSome?_reverse,
    ← List.map_reverse, List.findSome?_map]
  congr 1
  induction vs.reverse with
  | nil => rfl
  | cons v rest ih =>
      rw [List.findSome?_cons, List.find?_cons, ih]
      by_cases hkey : key v = k
      · simp [hkey]
      · have hbeq : (key v == k) = false := beq_eq_false_iff_ne.mpr hkey
        simp [hbeq, hkey]

/-! ### The entries in order -/

/-- The entries, in ascending order of their keys. -/
def ascending (m : Std.HashMap κ ν) : List (κ × ν) := m.toList.mergeSort fun a b => a.1 ≤ b.1

theorem mem_ascending : (k, v) ∈ ascending m ↔ m[k]? = some v := by
  unfold ascending
  rw [List.mem_mergeSort, Std.HashMap.mem_toList_iff_getElem?_eq_some]

/-- **Every key comes once, in strictly ascending order.** -/
theorem pairwise_ascending (m : Std.HashMap κ ν) : (ascending m).Pairwise (·.1 < ·.1) := by
  have hle : (ascending m).Pairwise fun a b => a.1 ≤ b.1 := by
    have hsorted := @List.pairwise_mergeSort _ (fun a b : κ × ν => decide (a.1 ≤ b.1))
      (fun a b c hab hbc => by simpa using le_trans (of_decide_eq_true hab) (of_decide_eq_true hbc))
      (fun a b => by simpa using le_total a.1 b.1) m.toList
    exact hsorted.imp of_decide_eq_true
  have hne : (ascending m).Pairwise fun a b => a.1 ≠ b.1 := by
    refine ((List.mergeSort_perm _ _).pairwise_iff ?_).mpr ?_
    · intro a b h
      exact h.symm
    · exact Std.HashMap.distinct_keys_toList.imp fun h => by simpa using h
  exact (hle.and hne).imp fun h => lt_of_le_of_ne h.1 h.2

/-- The entries in order depend on what can be looked up and on nothing else. -/
theorem ascending_eq (h : ∀ k : κ, m[k]? = m'[k]?) : ascending m = ascending m' := by
  have hlt := pairwise_ascending m
  have hlt' := pairwise_ascending m'
  have hnodup : ∀ {l : List (κ × ν)}, l.Pairwise (·.1 < ·.1) → l.Nodup :=
    fun hl => hl.imp fun h heq => absurd h (by rw [heq]; exact lt_irrefl _)
  have hperm : (ascending m).Perm (ascending m') := by
    rw [List.perm_ext_iff_of_nodup (hnodup hlt) (hnodup hlt')]
    rintro ⟨k, v⟩
    rw [mem_ascending, mem_ascending, h k]
  refine hperm.eq_of_pairwise ?_ hlt hlt'
  intro a b _ _ hab hba
  exact absurd hab (lt_asymm hba)

end Index
