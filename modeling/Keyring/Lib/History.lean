/-
Histories: lists of events that only grow at the end.

A run writes down what it does, and a claim about the order of events is a claim about
where they stand in that list.  Every such claim is proved by looking at the events one
step appends, so what is needed is a way to say on which side of the seam an event
stands (`append_split`), and the two patterns of ordering the claims use.
-/
import Mathlib.Data.List.Basic

namespace History

variable {ε : Type*}

/-- An event of `l ++ new` stands either in `l` or in `new`. -/
theorem append_split {l new pre post : List ε} {e : ε} (h : l ++ new = pre ++ e :: post) :
    (∃ mid, l = pre ++ e :: mid ∧ post = mid ++ new) ∨
      ∃ mid, pre = l ++ mid ∧ new = mid ++ e :: post := by
  rcases List.append_eq_append_iff.mp h with ⟨mid, hpre, hnew⟩ | ⟨mid, hl, hpost⟩
  · exact Or.inr ⟨mid, hpre, hnew⟩
  · cases mid with
    | nil => exact Or.inr ⟨[], by simpa using hl.symm, by simpa using hpost.symm⟩
    | cons x mid =>
        obtain ⟨rfl, rfl⟩ := List.cons.inj hpost
        exact Or.inl ⟨mid, hl, rfl⟩

/-- An event of a list of one is that one. -/
theorem singleton_split {pre post : List ε} {x e : ε} (h : [x] = pre ++ e :: post) :
    pre = [] ∧ e = x ∧ post = [] := by
  have hlength : pre.length + (post.length + 1) = 1 := by
    simpa using (congrArg List.length h).symm
  have hpre : pre = [] := List.length_eq_zero_iff.mp (by omega)
  subst hpre
  obtain ⟨rfl, rfl⟩ := List.cons.inj h
  exact ⟨rfl, rfl, rfl⟩

/-- Where one event at most is added, the event stands before it or is it. -/
theorem append_split_one {l new pre post : List ε} {e : ε} (h : l ++ new = pre ++ e :: post)
    (hnew : new.length ≤ 1) :
    (∃ mid, l = pre ++ e :: mid ∧ post = mid ++ new) ∨ (pre = l ∧ new = [e] ∧ post = []) := by
  rcases append_split h with hold | ⟨mid, rfl, hmid⟩
  · exact Or.inl hold
  · match new with
    | [] => simp at hmid
    | [x] =>
        obtain ⟨rfl, rfl, rfl⟩ := singleton_split hmid
        exact Or.inr ⟨List.append_nil l, rfl, rfl⟩
    | _ :: _ :: _ => simp at hnew

/-! ### Every `p` is followed by a `q` -/

/-- After every event that satisfies `p` there is a later one that satisfies `q`. -/
def Followed (p q : ε → Prop) (l : List ε) : Prop :=
  ∀ pre e post, l = pre ++ e :: post → p e → ∃ e' ∈ post, q e'

theorem followed_of_none {p q : ε → Prop} {l : List ε} (h : ∀ e ∈ l, ¬p e) :
    Followed p q l := by
  intro pre e post hl hp
  exact absurd hp (h e (by simp [hl]))

/-- Events that are no `p` keep the pattern. -/
theorem Followed.append {p q : ε → Prop} {l new : List ε} (h : Followed p q l)
    (hnew : Followed p q new) : Followed p q (l ++ new) := by
  intro pre e post hl hp
  rcases append_split hl with ⟨mid, hmid, rfl⟩ | ⟨mid, -, hmid⟩
  · obtain ⟨e', he', hq⟩ := h pre e mid hmid hp
    exact ⟨e', by simp [he'], hq⟩
  · exact hnew mid e post hmid hp

/-- A `q` at the end completes the pattern, whatever came before it. -/
theorem followed_snoc {p q : ε → Prop} (l : List ε) {e : ε} (hq : q e) (hp : ¬p e) :
    Followed p q (l ++ [e]) := by
  intro pre x post hl hx
  rcases append_split hl with ⟨mid, -, rfl⟩ | ⟨mid, -, hmid⟩
  · exact ⟨e, by simp, hq⟩
  · have hmem : x ∈ [e] := by rw [hmid]; simp
    rw [List.mem_singleton.mp hmem] at hx
    exact absurd hx hp

/-! ### Since the last `p` -/

/-- `l` is `pre`, then a last event `e` that satisfies `p`, then `mid` without any. -/
structure SinceLast (p : ε → Prop) (l pre : List ε) (e : ε) (mid : List ε) : Prop where
  eq : l = pre ++ e :: mid
  holds : p e
  none : ∀ x ∈ mid, ¬p x

/-- Appending events that are no `p` lengthens what came since the last one. -/
theorem SinceLast.of_append {p : ε → Prop} {l new pre mid : List ε} {e : ε}
    (h : SinceLast p (l ++ new) pre e mid) (hnew : ∀ x ∈ new, ¬p x) :
    ∃ mid', SinceLast p l pre e mid' ∧ mid = mid' ++ new := by
  rcases append_split h.eq with ⟨mid', hl, hmid⟩ | ⟨mid', -, hmid⟩
  · refine ⟨mid', ⟨hl, h.holds, fun x hx => h.none x ?_⟩, hmid⟩
    rw [hmid]
    exact List.mem_append_left _ hx
  · exact absurd h.holds (hnew e (by rw [hmid]; simp))

/-- A `p` that no other follows is the last one. -/
theorem SinceLast.of_cons {p : ε → Prop} {l rest pre mid : List ε} {e x : ε}
    (h : SinceLast p (l ++ x :: rest) pre e mid) (hx : p x) (hrest : ∀ y ∈ rest, ¬p y) :
    pre = l ∧ e = x ∧ mid = rest := by
  rcases append_split h.eq with ⟨mid', -, hmid⟩ | ⟨mid', hpre, hmid⟩
  · exact absurd hx (h.none x (by rw [hmid]; simp))
  · cases mid' with
    | nil =>
        obtain ⟨rfl, rfl⟩ := List.cons.inj hmid
        exact ⟨by simpa using hpre, rfl, rfl⟩
    | cons y later =>
        have hlater := (List.cons.inj hmid).2
        exact absurd h.holds (hrest e (by rw [hlater]; simp))

/-! ### The part of one party -/

section party

variable {ι : Type*} [DecidableEq ι]

/-- What one party has done, in order. -/
def of (i : ι) (l : List (ι × ε)) : List ε :=
  l.filterMap fun x => if x.1 = i then some x.2 else none

theorem mem_of {i : ι} {l : List (ι × ε)} {e : ε} : e ∈ of i l ↔ (i, e) ∈ l := by
  unfold of
  rw [List.mem_filterMap]
  constructor
  · rintro ⟨⟨j, e'⟩, hmem, heq⟩
    by_cases hj : j = i
    · subst hj
      obtain rfl : e' = e := by simpa using heq
      exact hmem
    · simp [hj] at heq
  · intro hmem
    exact ⟨(i, e), hmem, by simp⟩

theorem of_append_self (i : ι) (l : List (ι × ε)) (new : List ε) :
    of i (l ++ new.map fun e => (i, e)) = of i l ++ new := by
  unfold of
  rw [List.filterMap_append, List.filterMap_map]
  simp

theorem of_append_ne {i j : ι} (h : j ≠ i) (l : List (ι × ε)) (new : List ε) :
    of j (l ++ new.map fun e => (i, e)) = of j l := by
  unfold of
  rw [List.filterMap_append, List.filterMap_map]
  simp [h.symm]

/-- An event of one party splits what that party has done. -/
theorem of_append_cons (i : ι) (pre post : List (ι × ε)) (e : ε) :
    of i (pre ++ (i, e) :: post) = of i pre ++ e :: of i post := by
  unfold of
  rw [List.filterMap_append, List.filterMap_cons]
  simp

end party

end History
