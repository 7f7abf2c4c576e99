/-
A lock that readers share and a writer has alone.

`RwLock` is an asynchronous reader-writer lock as its users see it: a reader gets in when
no writer has it, a writer when nobody has it, and both give it back by dropping their
guard.  Who of the waiting parties is served next is left open.  That there is never a
reader beside a writer is not an invariant here, as no value of `Holders` has both.

As with `Mutex`, what guard a party has is read off the place it has reached, and `Held`
ties that to the lock.
-/
import Mathlib.Data.Finset.Erase
import Mathlib.Data.Finset.Insert
import Mathlib.Logic.Function.Basic

/-- The parties with a guard. -/
inductive Holders (ι : Type*)
  | shared (readers : Finset ι)
  | exclusive (writer : ι)

/-- A reader-writer lock with the value behind it. -/
structure RwLock (ι α : Type*) where
  holders : Holders ι
  value : α

/-- The guards there are. -/
inductive Guard
  | read
  | write
  deriving DecidableEq

namespace RwLock

variable {ι α : Type*}

/-- A lock nobody holds. -/
def new (a : α) : RwLock ι α := ⟨.shared ∅, a⟩

section

variable [DecidableEq ι]

/-- Take a read guard, unless there is a writer. -/
def read (l : RwLock ι α) (i : ι) : Option (RwLock ι α) :=
  match l.holders with
  | .shared readers => some { l with holders := .shared (insert i readers) }
  | .exclusive _ => none

/-- Take the write guard, if nobody has any. -/
def write (l : RwLock ι α) (i : ι) : Option (RwLock ι α) :=
  match l.holders with
  | .shared readers => if readers = ∅ then some { l with holders := .exclusive i } else none
  | .exclusive _ => none

def dropRead (l : RwLock ι α) (i : ι) : RwLock ι α :=
  match l.holders with
  | .shared readers => { l with holders := .shared (readers.erase i) }
  | .exclusive _ => l

end

def dropWrite (l : RwLock ι α) : RwLock ι α := { l with holders := .shared ∅ }

/-- Write the guarded value. -/
def set (l : RwLock ι α) (a : α) : RwLock ι α := { l with value := a }

@[simp] theorem new_value (a : α) : (new a : RwLock ι α).value = a := rfl
@[simp] theorem dropWrite_value (l : RwLock ι α) : l.dropWrite.value = l.value := rfl
@[simp] theorem dropWrite_holders (l : RwLock ι α) : l.dropWrite.holders = .shared ∅ := rfl
@[simp] theorem set_value (l : RwLock ι α) (a : α) : (l.set a).value = a := rfl

variable [DecidableEq ι]

@[simp] theorem dropRead_value (l : RwLock ι α) (i : ι) : (l.dropRead i).value = l.value := by
  unfold dropRead
  split
  · rfl
  · rfl

theorem read_eq_some {l l' : RwLock ι α} {i : ι} (h : l.read i = some l') :
    l'.value = l.value ∧
      ∃ readers, l.holders = .shared readers ∧ l'.holders = .shared (insert i readers) := by
  unfold read at h
  split at h
  · rename_i readers hl
    obtain rfl := Option.some.inj h
    exact ⟨rfl, readers, hl, rfl⟩
  · cases h

theorem write_eq_some {l l' : RwLock ι α} {i : ι} (h : l.write i = some l') :
    l'.value = l.value ∧ l.holders = .shared ∅ ∧ l'.holders = .exclusive i := by
  unfold write at h
  split at h
  · rename_i readers hl
    by_cases hnone : readers = ∅
    · rw [if_pos hnone] at h
      obtain rfl := Option.some.inj h
      subst hnone
      exact ⟨rfl, hl, rfl⟩
    · rw [if_neg hnone] at h
      cases h
  · cases h

/-! ### Who has a guard -/

/-- `guard` says of each party which guard it has. -/
def Held (l : RwLock ι α) (guard : ι → Option Guard) : Prop :=
  match l.holders with
  | .shared readers => ∀ i, guard i = if i ∈ readers then some .read else none
  | .exclusive writer => ∀ i, guard i = if i = writer then some .write else none

/-- How one party's step moves the lock: `g` is the party's guard before the step, `g'`
its guard after it. -/
def Moved (i : ι) (g g' : Option Guard) (l l' : RwLock ι α) : Prop :=
  match g, g' with
  | none, some .read =>
      ∃ readers, l.holders = .shared readers ∧ l'.holders = .shared (insert i readers)
  | none, some .write => l.holders = .shared ∅ ∧ l'.holders = .exclusive i
  | some .read, none => l'.holders = (l.dropRead i).holders
  | some .write, none => l'.holders = .shared ∅
  | some .read, some .write => False
  | some .write, some .read => False
  | _, _ => l'.holders = l.holders

theorem held_new (a : α) {guard : ι → Option Guard} (h : ∀ i, guard i = none) :
    (new a : RwLock ι α).Held guard := by
  intro i
  simp [h i]

/-- **A writer is alone.** -/
theorem Held.alone {l : RwLock ι α} {guard : ι → Option Guard} (h : l.Held guard) {i j : ι}
    (hi : guard i = some .write) (hj : guard j ≠ none) : j = i := by
  unfold Held at h
  split at h
  · rw [h i] at hi
    by_cases hmem : i ∈ ‹Finset ι›
    · simp [hmem] at hi
    · simp [hmem] at hi
  · rename_i writer _
    have hwriter : ∀ k, guard k ≠ none → k = writer := by
      intro k hk
      by_contra hne
      rw [h k, if_neg hne] at hk
      exact hk rfl
    rw [hwriter j hj, hwriter i (by rw [hi]; simp)]

/-- The record by who is behind the lock. -/
theorem held_shared {l : RwLock ι α} {guard : ι → Option Guard} {readers : Finset ι}
    (hl : l.holders = .shared readers) :
    l.Held guard ↔ ∀ i, guard i = if i ∈ readers then some .read else none := by
  unfold Held
  rw [hl]

theorem held_exclusive {l : RwLock ι α} {guard : ι → Option Guard} {writer : ι}
    (hl : l.holders = .exclusive writer) :
    l.Held guard ↔ ∀ i, guard i = if i = writer then some .write else none := by
  unfold Held
  rw [hl]

/-- A reader's lock is shared. -/
theorem Held.shared {l : RwLock ι α} {guard : ι → Option Guard} (h : l.Held guard) {i : ι}
    (hi : guard i = some .read) : ∃ readers, l.holders = .shared readers ∧ i ∈ readers := by
  cases hl : l.holders with
  | shared readers =>
      refine ⟨readers, rfl, ?_⟩
      by_contra hmem
      rw [(held_shared hl).mp h i, if_neg hmem] at hi
      cases hi
  | exclusive writer =>
      rw [(held_exclusive hl).mp h i] at hi
      by_cases hw : i = writer
      · rw [if_pos hw] at hi
        cases hi
      · rw [if_neg hw] at hi
        cases hi

/-- **A step of one party keeps the record.** -/
theorem Held.moved {l l' : RwLock ι α} {guard : ι → Option Guard} (h : l.Held guard) {i : ι}
    {g' : Option Guard} (hm : Moved i (guard i) g' l l') :
    l'.Held (Function.update guard i g') := by
  by_cases hsame : g' = guard i
  · -- the party keeps what it has, and so does the lock
    subst hsame
    have hholders : l'.holders = l.holders := by
      rcases hg : guard i with _ | (_ | _) <;> simpa [Moved, hg] using hm
    rw [Function.update_eq_self]
    unfold Held
    rw [hholders]
    exact h
  · cases hg : guard i with
    | none =>
        rw [hg] at hm hsame
        rcases g' with _ | (_ | _)
        · exact absurd rfl hsame
        · obtain ⟨readers, hl, hl'⟩ := hm
          refine (held_shared hl').mpr fun j => ?_
          by_cases hji : j = i
          · simp [hji]
          · simpa [hji] using (held_shared hl).mp h j
        · obtain ⟨hl, hl'⟩ : l.holders = .shared ∅ ∧ l'.holders = .exclusive i := hm
          refine (held_exclusive hl').mpr fun j => ?_
          by_cases hji : j = i
          · simp [hji]
          · simpa [hji] using (held_shared hl).mp h j
    | some g =>
        rw [hg] at hm hsame
        cases g with
        | read =>
            obtain ⟨readers, hl, -⟩ := h.shared hg
            rcases g' with _ | (_ | _)
            · have hl' : l'.holders = .shared (readers.erase i) := by
                have hdrop : l'.holders = (l.dropRead i).holders := hm
                rw [hdrop, dropRead]
                split
                · rename_i others hothers
                  rw [hl] at hothers
                  obtain rfl := Holders.shared.inj hothers
                  rfl
                · rename_i hwriter
                  rw [hl] at hwriter
                  cases hwriter
              refine (held_shared hl').mpr fun j => ?_
              by_cases hji : j = i
              · simp [hji]
              · simpa [hji] using (held_shared hl).mp h j
            · exact absurd rfl hsame
            · exact False.elim hm
        | write =>
            rcases g' with _ | (_ | _)
            · have hl' : l'.holders = .shared ∅ := hm
              refine (held_shared hl').mpr fun j => ?_
              by_cases hji : j = i
              · simp [hji]
              · -- nobody was beside the writer
                have hnone : guard j = none := by
                  by_contra hj
                  exact hji (h.alone hg hj)
                simp [hji, hnone]
            · exact False.elim hm
            · exact absurd rfl hsame

/-- The same where the guards are read off the places the parties have reached. -/
theorem Held.moved_place {Place : Type*} {l l' : RwLock ι α} {has : Place → Option Guard}
    {places : ι → Place} (h : l.Held fun i => has (places i)) {i : ι} {place : Place}
    (hm : Moved i (has (places i)) (has place) l l') :
    l'.Held fun j => has (Function.update places i place j) := by
  have hguards : (fun j => has (Function.update places i place j)) =
      Function.update (fun j => has (places j)) i (has place) := by
    funext j
    by_cases hji : j = i
    · simp [hji]
    · simp [hji]
  rw [hguards]
  exact h.moved hm

end RwLock
