/-
What an agent may rely on, whatever its providers are.

A call has one caller and goes its own way: what happens to one leaves the others where
they are, and a call that has ended stays as it is.  While some call of a provider runs,
the provider can go on with one of them, and every step it takes brings one of them
closer to its end.  Nothing is said about which, or about what a call returns.
-/
import Keyring.Core.Provider
import Mathlib.Data.Prod.Lex

namespace Keyring.Core.KeyPairProvider

variable {keys : SshKeys}

/-- A call stands where it stood, as far as its caller can tell and no further from its end. -/
def Same (P : KeyPairProvider keys) (rank : P.State → CallId → Lex (Nat × Nat)) (s s' : P.State)
    (i : CallId) : Prop :=
  P.status s' i = P.status s i ∧ rank s' i = rank s i

/-- The laws of a provider, with what its calls have ahead of them. -/
structure Lawful (P : KeyPairProvider keys) where
  rank : P.State → CallId → Lex (Nat × Nat)
  /-- Whether a step is that of a call, and not time passing. -/
  isTurn : P.Action → Bool
  loads : ∀ {s : P.State} {i : CallId}, P.status s i = .unused → ∃ s', P.load s i = some s'
  loaded : ∀ {s s' : P.State} {i : CallId}, P.load s i = some s' →
    P.status s i = .unused ∧ P.status s' i ≠ .unused ∧ ∀ j, j ≠ i → P.Same rank s s' j
  turned : ∀ {s s' : P.State} {a : P.Action}, P.step s a = some s' → isTurn a = true →
    ∃ i, P.status s i = .running ∧ P.status s' i ≠ .unused ∧ rank s' i < rank s i ∧
      ∀ j, j ≠ i → P.Same rank s s' j
  passed : ∀ {s s' : P.State} {a : P.Action}, P.step s a = some s' → isTurn a = false →
    ∀ j, P.Same rank s s' j
  dropped : ∀ {s s' : P.State} {i : CallId}, P.drop s i = some s' →
    P.status s i = .running ∧ P.status s' i = .gone ∧ ∀ j, j ≠ i → P.Same rank s s' j
  progress : ∀ {s : P.State} {i : CallId}, P.status s i = .running →
    ∃ a s', isTurn a = true ∧ P.step s a = some s'

namespace Lawful

variable {P : KeyPairProvider keys} {s s' : P.State} {i j : CallId} {a : P.Action}

/-- A provider that goes on changes running calls only. -/
theorem status_step (laws : P.Lawful) (h : P.step s a = some s') (hi : P.status s i ≠ .running) :
    P.status s' i = P.status s i := by
  cases hturn : laws.isTurn a with
  | false => exact (laws.passed h hturn i).1
  | true =>
      obtain ⟨j, hrunning, -, -, hothers⟩ := laws.turned h hturn
      refine (hothers i ?_).1
      rintro rfl
      exact hi hrunning

/-- A call is unused until it is begun. -/
theorem used_step (laws : P.Lawful) (h : P.step s a = some s') (hi : P.status s i ≠ .unused) :
    P.status s' i ≠ .unused := by
  by_cases hrunning : P.status s i = .running
  · cases hturn : laws.isTurn a with
    | false =>
        rw [(laws.passed h hturn i).1]
        exact hi
    | true =>
        obtain ⟨j, -, hused, -, hothers⟩ := laws.turned h hturn
        by_cases hij : i = j
        · rw [hij]
          exact hused
        · rw [(hothers i hij).1]
          exact hi
  · rw [laws.status_step h hrunning]
    exact hi

end Lawful

end Keyring.Core.KeyPairProvider
