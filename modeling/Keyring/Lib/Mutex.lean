/-
A lock, the value it guards, and who holds it.

`Mutex` is an asynchronous mutex as its users see it: a party takes it when nobody has
it and gives it back by dropping its guard.  Which of several waiting parties is served
next is left open.

Programs keep no record of the guards they hold; a guard is a local variable, so whether
a party has one is read off the place it has reached.  `Held` ties the two together, and
`Held.moved` is the one lemma a program has to supply steps for: it asks of a party's
step only that the holder moves the way the party's own guard does.
-/
import Mathlib.Logic.Function.Basic

/-- A lock with the value behind it. -/
structure Mutex (ι α : Type*) where
  holder : Option ι
  value : α

namespace Mutex

variable {ι α : Type*}

/-- A lock nobody holds. -/
def new (a : α) : Mutex ι α := ⟨none, a⟩

/-- Take the lock, if nobody has it. -/
def lock (m : Mutex ι α) (i : ι) : Option (Mutex ι α) :=
  match m.holder with
  | none => some { m with holder := some i }
  | some _ => none

/-- Drop the guard. -/
def unlock (m : Mutex ι α) : Mutex ι α := { m with holder := none }

/-- Write the guarded value. -/
def set (m : Mutex ι α) (a : α) : Mutex ι α := { m with value := a }

@[simp] theorem new_holder (a : α) : (new a : Mutex ι α).holder = none := rfl
@[simp] theorem new_value (a : α) : (new a : Mutex ι α).value = a := rfl
@[simp] theorem unlock_holder (m : Mutex ι α) : m.unlock.holder = none := rfl
@[simp] theorem unlock_value (m : Mutex ι α) : m.unlock.value = m.value := rfl
@[simp] theorem set_holder (m : Mutex ι α) (a : α) : (m.set a).holder = m.holder := rfl
@[simp] theorem set_value (m : Mutex ι α) (a : α) : (m.set a).value = a := rfl

theorem lock_eq_some {m m' : Mutex ι α} {i : ι} :
    m.lock i = some m' ↔ m.holder = none ∧ m' = { m with holder := some i } := by
  unfold lock
  cases hm : m.holder with
  | none => simp [eq_comm]
  | some j => simp

/-! ### Who has a guard -/

/-- `holds` says of each party whether it has the guard. -/
def Held (m : Mutex ι α) (holds : ι → Bool) : Prop :=
  ∀ i, m.holder = some i ↔ holds i = true

/-- How one party's step moves the lock: `b` says whether the party had the guard before
the step, `b'` whether it has it after. -/
def Moved (i : ι) (b b' : Bool) (m m' : Mutex ι α) : Prop :=
  match b, b' with
  | false, true => m.holder = none ∧ m'.holder = some i
  | true, false => m'.holder = none
  | _, _ => m'.holder = m.holder

theorem held_new (a : α) {holds : ι → Bool} (h : ∀ i, holds i = false) :
    (new a : Mutex ι α).Held holds := by
  intro i
  simp [h i]

/-- At most one party has the guard. -/
theorem Held.unique {m : Mutex ι α} {holds : ι → Bool} (h : m.Held holds) {i j : ι}
    (hi : holds i = true) (hj : holds j = true) : i = j := by
  have hmi := (h i).mpr hi
  have hmj := (h j).mpr hj
  rw [hmi] at hmj
  exact Option.some.inj hmj

/-- Where no party has the guard, the lock is free. -/
theorem Held.free {m : Mutex ι α} {holds : ι → Bool} (h : m.Held holds)
    (hnone : ∀ i, holds i = false) : m.holder = none := by
  cases hm : m.holder with
  | none => rfl
  | some i =>
      have := (h i).mp hm
      simp [hnone i] at this

/-- **A step of one party keeps the record.** -/
theorem Held.moved [DecidableEq ι] {m m' : Mutex ι α} {holds : ι → Bool} (h : m.Held holds)
    {i : ι} {b' : Bool} (hm : Moved i (holds i) b' m m') :
    m'.Held (Function.update holds i b') := by
  intro j
  have hi := h i
  have hj := h j
  by_cases hji : j = i
  · subst hji
    cases hb : holds j <;> cases hb' : b' <;> simp_all [Moved]
  · rw [Function.update_of_ne hji, ← hj]
    have hij : some i ≠ some j := fun hc => hji (Option.some.inj hc).symm
    cases hb : holds i with
    | false =>
        cases hb' : b' with
        | false => simp_all [Moved]
        | true =>
            -- the guard is taken: the lock was free, so `j` had none
            obtain ⟨hfree, htaken⟩ : m.holder = none ∧ m'.holder = some i := by
              simpa [Moved, hb, hb'] using hm
            simp [hfree, htaken, hij]
    | true =>
        cases hb' : b' with
        | false =>
            -- the guard is dropped: it was `i`'s, so `j` had none
            have hwas : m.holder = some i := hi.mpr hb
            have hdropped : m'.holder = none := by simpa [Moved, hb, hb'] using hm
            simp [hwas, hdropped, hij]
        | true => simp_all [Moved]

/-- The same where the guards are read off the places the parties have reached. -/
theorem Held.moved_place [DecidableEq ι] {Place : Type*} {m m' : Mutex ι α}
    {has : Place → Bool} {places : ι → Place} (h : m.Held fun i => has (places i)) {i : ι}
    {place : Place} (hm : Moved i (has (places i)) (has place) m m') :
    m'.Held fun j => has (Function.update places i place j) := by
  have hheld := h.moved hm
  intro j
  rw [hheld j]
  by_cases hji : j = i
  · subst hji
    simp
  · simp [hji]

end Mutex
