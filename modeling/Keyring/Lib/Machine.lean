/-
Machines that take one labelled step after another.

A machine says where a run may start and what a label may do to a state.  Everything
a program can do is then a run, and two kinds of fact are wanted of it: what holds in
every state a run reaches, and what every run has to arrive at.

The first kind is `Reachable.invariant`, the induction over a run done once; a proof
that uses it speaks of one step only.  The second is `Inevitable`: no run from the
state gets stuck before the goal, and none goes on for ever without it.
`inevitable_of_rank` is the rule for it.
-/
import Mathlib.Logic.Relation
import Mathlib.Data.Nat.Init

/-- Where a run may start, and what a label does to a state. -/
structure Machine (σ α : Type*) where
  init : σ → Prop
  step : σ → α → σ → Prop

namespace Machine

variable {σ α : Type*} {m : Machine σ α}

/-- The machine of a function that is undefined where a label cannot be taken. -/
def ofFun (init : σ → Prop) (f : σ → α → Option σ) : Machine σ α where
  init := init
  step s a t := f s a = some t

/-- The machine whose every step also meets a condition on the state before it. -/
def restrict (m : Machine σ α) (P : σ → α → Prop) : Machine σ α where
  init := m.init
  step s a t := P s a ∧ m.step s a t

@[simp] theorem restrict_step (m : Machine σ α) (P : σ → α → Prop) (s t : σ) (a : α) :
    (m.restrict P).step s a t ↔ P s a ∧ m.step s a t := Iff.rfl

theorem restrict_restrict (m : Machine σ α) (P Q : σ → α → Prop) :
    (m.restrict P).restrict Q = m.restrict fun s a => Q s a ∧ P s a := by
  unfold restrict
  congr
  funext s a t
  exact propext and_assoc.symm

/-! ### Runs -/

/-- What a run leads to, whatever its labels are. -/
def Leads (m : Machine σ α) : σ → σ → Prop :=
  Relation.ReflTransGen fun s t => ∃ a, m.step s a t

/-- A run that starts where the machine may start. -/
def Reachable (m : Machine σ α) (s : σ) : Prop :=
  ∃ s₀, m.init s₀ ∧ m.Leads s₀ s

theorem Leads.refl (s : σ) : m.Leads s s := Relation.ReflTransGen.refl

theorem Leads.step {s t u : σ} {a : α} (h : m.Leads s t) (hs : m.step t a u) : m.Leads s u :=
  Relation.ReflTransGen.tail h ⟨a, hs⟩

theorem Leads.trans {s t u : σ} (h₁ : m.Leads s t) (h₂ : m.Leads t u) : m.Leads s u :=
  Relation.ReflTransGen.trans h₁ h₂

/-- A run keeps what each of its steps keeps. -/
theorem Leads.keeps {I : σ → Prop} (hstep : ∀ {s t : σ} {a : α}, I s → m.step s a t → I t)
    {s t : σ} (h : m.Leads s t) (hs : I s) : I t := by
  induction h with
  | refl => exact hs
  | tail _ hst ih =>
      obtain ⟨a, ha⟩ := hst
      exact hstep ih ha

theorem Reachable.init {s : σ} (h : m.init s) : m.Reachable s := ⟨s, h, Leads.refl s⟩

theorem Reachable.leads {s t : σ} (h : m.Reachable s) (hst : m.Leads s t) : m.Reachable t := by
  obtain ⟨s₀, h₀, hs⟩ := h
  exact ⟨s₀, h₀, hs.trans hst⟩

theorem Reachable.step {s t : σ} {a : α} (h : m.Reachable s) (hs : m.step s a t) :
    m.Reachable t := h.leads ((Leads.refl s).step hs)

/-- **What holds at the start and survives every step holds in every reachable state.**
The step may use that the state before it is itself reachable. -/
theorem Reachable.invariant {I : σ → Prop} (hinit : ∀ s, m.init s → I s)
    (hstep : ∀ {s t : σ} {a : α}, m.Reachable s → I s → m.step s a t → I t)
    {s : σ} (h : m.Reachable s) : I s := by
  obtain ⟨s₀, h₀, hs⟩ := h
  have hboth : m.Reachable s ∧ I s := by
    refine hs.keeps (I := fun s => m.Reachable s ∧ I s) ?_ ⟨Reachable.init h₀, hinit s₀ h₀⟩
    intro s t a ⟨hr, hI⟩ hst
    exact ⟨hr.step hst, hstep hr hI hst⟩
  exact hboth.2

/-- A run of the restricted machine is a run. -/
theorem Leads.of_restrict {P : σ → α → Prop} {s t : σ} (h : (m.restrict P).Leads s t) :
    m.Leads s t :=
  h.keeps (I := fun t => m.Leads s t)
    (fun hs hst => hs.step ((restrict_step m P _ _ _).mp hst).2) (Leads.refl s)

theorem Reachable.of_restrict {P : σ → α → Prop} {s : σ} (h : (m.restrict P).Reachable s) :
    m.Reachable s := by
  obtain ⟨s₀, h₀, hs⟩ := h
  exact ⟨s₀, h₀, hs.of_restrict⟩

/-! ### Running a function on a list of labels -/

/-- Take the labels in turn. -/
def exec (f : σ → α → Option σ) : σ → List α → Option σ
  | s, [] => some s
  | s, a :: rest => (f s a).bind fun t => exec f t rest

theorem leads_of_exec {init : σ → Prop} {f : σ → α → Option σ} :
    ∀ (as : List α) {s t : σ}, exec f s as = some t → (ofFun init f).Leads s t := by
  intro as
  induction as with
  | nil =>
      intro s t h
      have hst : s = t := Option.some.inj h
      exact hst ▸ Leads.refl s
  | cons a rest ih =>
      intro s t h
      obtain ⟨u, hu, hrest⟩ := Option.bind_eq_some_iff.mp h
      exact ((Leads.refl s).step (m := ofFun init f) hu).trans (ih hrest)

theorem reachable_of_exec {init : σ → Prop} {f : σ → α → Option σ} {s t : σ} (as : List α)
    (hs : init s) (h : exec f s as = some t) : (ofFun init f).Reachable t :=
  ⟨s, hs, leads_of_exec as h⟩

/-- A list of labels that leads to a state with a property. -/
theorem reachable_of_exec_any {init : σ → Prop} {f : σ → α → Option σ} {s : σ} (hs : init s)
    (as : List α) (p : σ → Bool) (h : (exec f s as).any p = true) :
    ∃ t, (ofFun init f).Reachable t ∧ p t = true := by
  obtain ⟨t, ht, hp⟩ := (Option.any_eq_true _ _).mp h
  exact ⟨t, reachable_of_exec as hs ht, hp⟩

/-- Take the labels in turn, as long as a test passes before each of them. -/
def execWhile (test : σ → α → Bool) (f : σ → α → Option σ) : σ → List α → Option σ :=
  exec fun s a => if test s a then f s a else none

/-- A run whose every step passes a test of the condition is one of the restricted
machine. -/
theorem restrict_reachable_of_exec {init : σ → Prop} {f : σ → α → Option σ}
    {test : σ → α → Bool} {P : σ → α → Prop} (htest : ∀ s a, test s a = true → P s a)
    {s t : σ} (as : List α) (hs : init s) (h : execWhile test f s as = some t) :
    ((ofFun init f).restrict P).Reachable t := by
  refine ⟨s, hs, ?_⟩
  refine (@leads_of_exec _ _ init _ as _ _ h).keeps
    (I := fun t => ((ofFun init f).restrict P).Leads s t) ?_ (Leads.refl s)
  intro t u a hst hstep
  have hguarded : (if test t a then f t a else none) = some u := hstep
  by_cases hpass : test t a = true
  · rw [if_pos hpass] at hguarded
    exact hst.step ⟨htest t a hpass, hguarded⟩
  · rw [if_neg hpass] at hguarded
    exact absurd hguarded (by simp)

/-! ### What every run arrives at -/

/-- Every run from the state arrives at the goal: it cannot get stuck before it, and it
cannot put it off for ever. -/
inductive Inevitable (m : Machine σ α) (goal : σ → Prop) : σ → Prop
  | now {s : σ} (h : goal s) : Inevitable m goal s
  | later {s : σ} (hcan : ∃ a t, m.step s a t)
      (hall : ∀ a t, m.step s a t → Inevitable m goal t) : Inevitable m goal s

/-- **A rank that falls at every step makes the goal inevitable**, where an invariant
says that a state short of the goal can take a step. -/
theorem inevitable_of_rank {goal I : σ → Prop} (rank : σ → Nat)
    (hcan : ∀ s, I s → goal s ∨ ∃ a t, m.step s a t)
    (hstep : ∀ s a t, I s → m.step s a t → I t ∧ rank t < rank s) :
    ∀ s, I s → m.Inevitable goal s := by
  intro s
  induction hn : rank s using Nat.strongRecOn generalizing s with
  | _ n ih =>
      intro hI
      rcases hcan s hI with hgoal | hmore
      · exact Inevitable.now hgoal
      · refine Inevitable.later hmore fun a t hst => ?_
        obtain ⟨hIt, hlt⟩ := hstep s a t hI hst
        exact ih (rank t) (hn ▸ hlt) t rfl hIt

end Machine
