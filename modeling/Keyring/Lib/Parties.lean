/-
Machines in which one party moves at a time, and what they settle into.

A state has a place for each of any number of parties, and a step moves one of them.
Where every step brings the party that takes it closer to its rest, and somebody can
always take one while anybody is not at rest, all of them come to rest: no order of their
steps gets stuck before that, and none goes on for ever.  Only finitely many may be on
their way at the start, as infinitely many could take turns for ever.

What goes on besides the parties may come in stages: a step that leads on to the next stage
may do anything to them.

How close a party is to its rest is measured in any ordered monoid without infinite
descents, so that a stretch whose length shows only on arrival can be counted too.
-/
import Keyring.Lib.Machine
import Mathlib.Algebra.Order.BigOperators.Group.Finset

namespace Machine

variable {σ α ι P R : Type*} {m : Machine σ α}

/-! ### What every run arrives at -/

/-- Ranks may be of any kind without infinite descents, and need not fall at the goal. -/
theorem inevitable_of_falling [LT R] [WellFoundedLT R] {goal I : σ → Prop} (rank : σ → R)
    (hcan : ∀ s, I s → goal s ∨ ∃ a t, m.step s a t)
    (hstep : ∀ s a t, I s → ¬goal s → m.step s a t → I t ∧ rank t < rank s) :
    ∀ s, I s → m.Inevitable goal s := by
  intro s hI
  induction hn : rank s using WellFoundedLT.induction generalizing s with
  | _ n ih =>
      by_cases hgoal : goal s
      · exact Inevitable.now hgoal
      · refine Inevitable.later ((hcan s hI).resolve_left hgoal) fun a t hst => ?_
        obtain ⟨hIt, hlt⟩ := hstep s a t hI hgoal hst
        exact ih _ (hn ▸ hlt) t hIt rfl

/-- What is inevitable is so of what follows from it. -/
theorem Inevitable.mono {goal goal' : σ → Prop} {s : σ} (h : m.Inevitable goal s)
    (himp : ∀ t, goal t → goal' t) : m.Inevitable goal' s := by
  induction h with
  | now h => exact Inevitable.now (himp _ h)
  | later hcan _ ih => exact Inevitable.later hcan ih

/-! ### Parties -/

/-- The parties that are not at rest are finitely many. -/
def FewUnderWay (rest : P → Prop) (places : ι → P) : Prop :=
  ∃ live : Finset ι, ∀ i, i ∉ live → rest (places i)

/-- One party moves, closer to its rest, and the others stay. -/
structure Closer [LT R] (rest : P → Prop) (rank : P → R) (before after : ι → P) (i : ι) :
    Prop where
  live : ¬rest (before i)
  falls : rank (after i) < rank (before i)
  others : ∀ j, j ≠ i → after j = before j

/-- Whoever was at rest stays at rest. -/
theorem Closer.rests [LT R] {rest : P → Prop} {rank : P → R} {before after : ι → P} {i j : ι}
    (h : Closer rest rank before after i) (hj : rest (before j)) : rest (after j) := by
  by_cases hji : j = i
  · subst hji
    exact absurd hj h.live
  · rw [h.others j hji]
    exact hj

theorem FewUnderWay.closer [LT R] {rest : P → Prop} {rank : P → R} {before after : ι → P}
    {i : ι} (h : FewUnderWay rest before) (hcloser : Closer rest rank before after i) :
    FewUnderWay rest after := by
  obtain ⟨live, hlive⟩ := h
  exact ⟨live, fun j hj => hcloser.rests (hlive j hj)⟩

section

variable [AddCommMonoid R] [PartialOrder R] [IsOrderedCancelAddMonoid R]

/-- What is left to do, over all parties that count. -/
def total (rank : P → R) (live : Finset ι) (places : ι → P) : R :=
  live.sum fun i => rank (places i)

/-- A step lowers what is left to do. -/
theorem Closer.total_lt {rest : P → Prop} {rank : P → R} {before after : ι → P} {i : ι}
    {live : Finset ι} (h : Closer rest rank before after i)
    (hlive : ∀ j, j ∉ live → rest (before j)) :
    total rank live after < total rank live before := by
  have hi : i ∈ live := by
    by_contra hi
    exact h.live (hlive i hi)
  refine Finset.sum_lt_sum (fun j _ => ?_) ⟨i, hi, h.falls⟩
  by_cases hji : j = i
  · subst hji
    exact h.falls.le
  · rw [h.others j hji]

/-- **Parties in stages**: a step leads on to a later stage, whatever it does to the parties,
or brings one of them closer to its rest.  There are finitely many stages, and in each of
them finitely many parties are under way. -/
theorem inevitable_of_stages [WellFoundedLT R] {goal I : σ → Prop} (stage : σ → Nat)
    (places : σ → ι → P) (rest : P → Prop) (rank : P → R)
    (hcan : ∀ s, I s → goal s ∨ ∃ a t, m.step s a t)
    (hfew : ∀ s, I s → FewUnderWay rest (places s))
    (hstep : ∀ s a t, I s → ¬goal s → m.step s a t → I t ∧ (stage t < stage s ∨
      stage t = stage s ∧ ∃ i, Closer rest rank (places s) (places t) i)) :
    ∀ s, I s → m.Inevitable goal s := by
  intro s
  induction hn : stage s using Nat.strongRecOn generalizing s with
  | _ n ih =>
      intro hI
      obtain ⟨live, hlive⟩ := hfew s hI
      -- within a stage the parties that count stay the same, as nobody leaves its rest
      induction hr : total rank live (places s) using WellFoundedLT.induction generalizing s with
      | _ r ihr =>
          by_cases hgoal : goal s
          · exact Inevitable.now hgoal
          · refine Inevitable.later ((hcan s hI).resolve_left hgoal) fun a t hst => ?_
            obtain ⟨hIt, hlater | ⟨hsame, i, hcloser⟩⟩ := hstep s a t hI hgoal hst
            · exact ih _ (hn ▸ hlater) t rfl hIt
            · exact ihr _ (hr ▸ hcloser.total_lt hlive) t (hsame.trans hn) hIt
                (fun j hj => hcloser.rests (hlive j hj)) rfl

/-- **Parties that can only come closer to their rest come to rest**, if somebody can move
as long as anybody is not there. -/
theorem inevitable_of_parties [WellFoundedLT R] {I : σ → Prop} (places : σ → ι → P)
    (rest : P → Prop) (rank : P → R)
    (hcan : ∀ s, I s → (∃ i, ¬rest (places s i)) → ∃ a t, m.step s a t)
    (hstep : ∀ s a t, I s → m.step s a t → I t ∧ ∃ i, Closer rest rank (places s) (places t) i)
    {s : σ} (hI : I s) (hfew : FewUnderWay rest (places s)) :
    m.Inevitable (fun t => I t ∧ ∀ i, rest (places t i)) s := by
  refine inevitable_of_stages (I := fun s => I s ∧ FewUnderWay rest (places s)) (fun _ => 0)
    places rest rank ?_ (fun s hs => hs.2) ?_ s ⟨hI, hfew⟩
  · intro s hs
    by_cases hrest : ∀ i, rest (places s i)
    · exact Or.inl ⟨hs.1, hrest⟩
    · exact Or.inr (hcan s hs.1 (not_forall.mp hrest))
  · intro s a t hs _ hst
    obtain ⟨hIt, i, hcloser⟩ := hstep s a t hs.1 hst
    exact ⟨⟨hIt, hs.2.closer hcloser⟩, Or.inr ⟨rfl, i, hcloser⟩⟩

end

end Machine
