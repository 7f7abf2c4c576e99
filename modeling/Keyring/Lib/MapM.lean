/-
Lists of results that may be missing.
-/
import Mathlib.Data.List.Forall2

namespace List

variable {α β : Type*}

theorem mapM_congr {f g : β → Option α} {bs : List β} (h : ∀ b ∈ bs, f b = g b) :
    bs.mapM f = bs.mapM g := by
  induction bs with
  | nil => rfl
  | cons b rest ih =>
      rw [mapM_cons, mapM_cons, h b mem_cons_self, ih fun b' hb => h b' (mem_cons_of_mem b hb)]

/-- All results are there exactly where each of them is. -/
theorem mapM_eq_some_iff {f : β → Option α} {R : α → β → Prop}
    (h : ∀ b a, f b = some a ↔ R a b) {bs : List β} :
    ∀ {as : List α}, bs.mapM f = some as ↔ Forall₂ R as bs := by
  induction bs with
  | nil =>
      intro as
      rw [mapM_nil, forall₂_nil_right_iff]
      exact ⟨fun h => (Option.some.inj h).symm, fun h => h ▸ rfl⟩
  | cons b rest ih =>
      intro as
      rw [mapM_cons, forall₂_cons_right_iff]
      constructor
      · intro hall
        obtain ⟨first, hfirst, hrest⟩ := Option.bind_eq_some_iff.mp hall
        obtain ⟨more, hmore, hfound⟩ := Option.bind_eq_some_iff.mp hrest
        exact ⟨first, more, (h _ _).mp hfirst, ih.mp hmore, (Option.some.inj hfound).symm⟩
      · rintro ⟨first, more, hfirst, hmore, rfl⟩
        rw [(h _ _).mpr hfirst, ih.mpr hmore]
        rfl

/-- The results, where each of them is known. -/
theorem mapM_eq_some_map_iff {f : β → Option α} {g : α → β} (h : ∀ b a, f b = some a ↔ b = g a)
    {bs : List β} {as : List α} : bs.mapM f = some as ↔ bs = as.map g := by
  rw [mapM_eq_some_iff h, forall₂_iff_get]
  constructor
  · rintro ⟨hlength, hget⟩
    refine ext_getElem (by rw [length_map, hlength]) fun i hi hi' => ?_
    rw [getElem_map]
    exact hget i (by rwa [length_map] at hi') hi
  · rintro rfl
    exact ⟨(length_map g).symm, fun i hi hi' => by simp⟩

end List
