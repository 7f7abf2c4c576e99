/-
Calls on a cell come to an end.

No call waits for another that waits for it: who has a guard waits for nothing but its own
initializer, and where nobody has a guard everybody gets one.  And no call goes round in
circles: it passes the read guard once, the write guard once and its initializer once.  So
whatever calls are under way, in whatever order they are served, and whether their
initializers succeed, fail or are dropped, all of them end, and the lock is free then.
-/
import Keyring.Lib.Parties
import Keyring.Proofs.Core.Cell.SingleFlight
import Mathlib.Algebra.Order.Group.Nat

namespace Keyring.Core

variable {T E : Type*} {i j : CallId} {now : Instant} {cell cell' : CacheCell T}
  {pc pc' : Pc T E} {input : Input T E} {events : List (Event T E)} {w w' : World T E}

/-! ### How far a call has to go -/

/-- Whether a call at this place is not under way. -/
def Pc.atRest : Pc T E → Bool
  | .idle | .done _ | .cancelled => true
  | _ => false

/-- How many steps a call under way can still take. -/
def Pc.rank : Pc T E → Nat
  | .read held _ => if held then 4 else 5
  | .write held _ => if held then 2 else 3
  | .init _ _ => 1
  | .idle | .done _ | .cancelled => 0

theorem guard_none_of_atRest (h : pc.atRest = true) : pc.guard = none := by
  cases pc <;> first | rfl | exact absurd h (by simp [Pc.atRest])

theorem atRest_of_guard (h : pc.guard ≠ none) : pc.atRest = false := by
  by_contra hrest
  exact h (guard_none_of_atRest (by simpa using hrest))

/-- **Every step of a call under way brings it closer to its end.** -/
theorem Move.closer (h : Move i now cell pc input cell' pc' events) (hpc : pc ≠ .idle) :
    pc.atRest = false ∧ pc'.rank < pc.rank := by
  cases h with
  | call ttl => exact absurd rfl hpc
  | hit hcheck hfresh => cases hcheck <;> exact ⟨rfl, by simp [Pc.rank]⟩
  | cancel hwait =>
      rcases hwait with ⟨held, ttl⟩ | ⟨held, ttl⟩
      · exact ⟨rfl, by cases held <;> simp [Pc.rank]⟩
      · exact ⟨rfl, by cases held <;> simp [Pc.rank]⟩
  | _ => exact ⟨rfl, by simp [Pc.rank]⟩

/-- No call comes back to where it began. -/
theorem Move.begun (h : Move i now cell pc input cell' pc' events) : pc' ≠ .idle := by
  cases h <;> simp

/-! ### Who can go on -/

/-- What a call under way goes on with, other than being dropped. -/
inductive Answers : Pc T E → Input T E → Prop
  | read (held : Bool) (ttl : Duration) : Answers (.read held ttl) .go
  | write (held : Bool) (ttl : Duration) : Answers (.write held ttl) .go
  | init (ttl : Duration) (start : Instant) (result : Except E T) :
      Answers (.init ttl start) (.finished result)

theorem exists_answers [Nonempty (Except E T)] (h : pc.atRest = false) :
    ∃ input : Input T E, Answers pc input := by
  obtain ⟨result⟩ := ‹Nonempty (Except E T)›
  cases pc with
  | read held ttl => exact ⟨_, .read held ttl⟩
  | write held ttl => exact ⟨_, .write held ttl⟩
  | init ttl start => exact ⟨_, .init ttl start result⟩
  | idle | done result | cancelled => exact absurd h (by simp [Pc.atRest])

/-- A call that has its guard goes on. -/
theorem advance_isSome_of_guard (h : Answers pc input) (hguard : pc.guard ≠ none) :
    (advance i now cell pc input).isSome := by
  cases h with
  | read held ttl =>
      cases held with
      | false => exact absurd rfl hguard
      | true =>
          rw [advance]
          split <;> rfl
  | write held ttl =>
      cases held with
      | false => exact absurd rfl hguard
      | true =>
          rw [advance]
          split <;> rfl
  | init ttl start result => cases result <;> rfl

/-- Where nobody has a guard, everybody gets one. -/
theorem advance_isSome_of_free (h : Answers pc input) (hfree : cell.holders = .shared ∅) :
    (advance i now cell pc input).isSome := by
  by_cases hguard : pc.guard = none
  · cases h with
    | read held ttl =>
        cases held with
        | false =>
            rw [advance, RwLock.read, hfree]
            rfl
        | true => exact absurd hguard (by simp [Pc.guard])
    | write held ttl =>
        cases held with
        | false =>
            rw [advance, RwLock.write, hfree]
            rfl
        | true => exact absurd hguard (by simp [Pc.guard])
    | init ttl start result => exact absurd hguard (by simp [Pc.guard])
  · exact advance_isSome_of_guard h hguard

/-- A free lock is one that nobody has. -/
theorem holders_of_free (h : (cellMachine T E).Reachable w)
    (hfree : ∀ i, (w.calls i).guard = none) : w.cell.holders = .shared ∅ := by
  have hheld := cell_held h
  cases hl : w.cell.holders with
  | exclusive writer =>
      have hwriter := (RwLock.held_exclusive hl).mp hheld writer
      rw [hfree writer, if_pos rfl] at hwriter
      cases hwriter
  | shared readers =>
      have hnone : readers = ∅ := by
        refine Finset.eq_empty_of_forall_notMem fun i hi => ?_
        have hreader := (RwLock.held_shared hl).mp hheld i
        rw [hfree i, if_pos hi] at hreader
        cases hreader
      rw [hnone]

/-- A call that is under way and can go on, whatever it is answered. -/
structure GoesOn (w : World T E) (i : CallId) : Prop where
  live : (w.calls i).atRest = false
  step : ∀ input, Answers (w.calls i) input → (w.step (.call i input)).isSome

/-- **Somebody can always go on**: the ones with a guard, or else everybody. -/
theorem cell_progress (h : (cellMachine T E).Reachable w) (hi : (w.calls i).atRest = false) :
    ∃ j, GoesOn w j := by
  by_cases hfree : ∀ j, (w.calls j).guard = none
  · refine ⟨i, hi, fun input hanswers => ?_⟩
    rw [World.step, Option.isSome_map]
    exact advance_isSome_of_free hanswers (holders_of_free h hfree)
  · obtain ⟨j, hj⟩ := not_forall.mp hfree
    refine ⟨j, atRest_of_guard hj, fun input hanswers => ?_⟩
    rw [World.step, Option.isSome_map]
    exact advance_isSome_of_guard hanswers hj

/-- Calls are begun one at a time. -/
theorem cell_few (h : (cellMachine T E).Reachable w) :
    Machine.FewUnderWay (fun pc => pc.atRest = true) w.calls := by
  refine cell_invariant (I := fun w =>
    Machine.FewUnderWay (fun pc => pc.atRest = true) w.calls) ?_ ?_ ?_ h
  · intro clock
    exact ⟨∅, fun i _ => rfl⟩
  · intro w i input cell' pc' events hr hI hm
    obtain ⟨live, hlive⟩ := hI
    refine ⟨insert i live, fun j hj => ?_⟩
    rw [Finset.mem_insert, not_or] at hj
    rw [moved_calls, Function.update_of_ne hj.1]
    exact hlive j hj.2
  · intro w now hle hI
    exact hI

/-! ### All calls end -/

/-- The runs in which no call is begun.  Time may pass before every step. -/
def settleMachine (T E : Type*) : Machine (World T E) (Instant × CallId × Input T E) where
  init _ := True
  step w a w' := w.clock ≤ a.1 ∧ w.calls a.2.1 ≠ .idle ∧
    World.step { w with clock := a.1 } (.call a.2.1 a.2.2) = some w'

/-- Such a run is a run of the cell. -/
theorem settle_leads {a : Instant × CallId × Input T E}
    (h : (settleMachine T E).step w a w') : (cellMachine T E).Leads w w' := by
  obtain ⟨hle, -, hstep⟩ := h
  have htick : (cellMachine T E).step w (.tick a.1) { w with clock := a.1 } := by
    show (if w.clock ≤ a.1 then some { w with clock := a.1 } else none) = _
    rw [if_pos hle]
  exact ((Machine.Leads.refl w).step htick).step hstep

/-- All calls have ended and the lock is free. -/
structure Settled (w : World T E) : Prop where
  ended : ∀ i, (w.calls i).atRest = true
  free : w.cell.holders = .shared ∅

theorem cell_inevitable [Nonempty (Except E T)] (h : (cellMachine T E).Reachable w) :
    (settleMachine T E).Inevitable Settled w := by
  refine (Machine.inevitable_of_parties (I := (cellMachine T E).Reachable) World.calls
    (fun pc => pc.atRest = true) Pc.rank ?_ ?_ h (cell_few h)).mono ?_
  · rintro w hr ⟨i, hi⟩
    obtain ⟨j, hlive, hstep⟩ := cell_progress hr (by simpa using hi)
    obtain ⟨input, hanswers⟩ := exists_answers hlive
    obtain ⟨w', hw'⟩ := Option.isSome_iff_exists.mp (hstep input hanswers)
    refine ⟨(w.clock, j, input), w', Nat.le_refl _, ?_, hw'⟩
    intro hidle
    rw [hidle] at hlive
    exact absurd hlive (by simp [Pc.atRest])
  · rintro w ⟨now, i, input⟩ w' hr hstep
    refine ⟨hr.leads (settle_leads hstep), i, ?_⟩
    obtain ⟨-, hidle, hcall⟩ := hstep
    obtain ⟨cell', pc', events, hm, rfl⟩ := step_call hcall
    obtain ⟨hlive, hlt⟩ := hm.closer hidle
    refine ⟨by simpa using hlive, ?_, fun j hji => ?_⟩
    · rw [moved_calls, Function.update_self]
      exact hlt
    · rw [moved_calls, Function.update_of_ne hji]
  · rintro w ⟨hr, hrest⟩
    exact ⟨hrest, holders_of_free hr fun i => guard_none_of_atRest (hrest i)⟩

/-- Neither a deadlock nor a livelock. -/
structure Settles (w : World T E) : Prop where
  /-- As long as a call is under way, one can go on, without any being dropped. -/
  goesOn : ∀ i, (w.calls i).atRest = false → ∃ j, GoesOn w j
  /-- Whatever calls do, and whichever are dropped, they come to an end. -/
  ends : (settleMachine T E).Inevitable Settled w

/-- **All calls on a cell end**, in any order of their steps. -/
theorem cell_settles [Nonempty (Except E T)] (h : (cellMachine T E).Reachable w) :
    Settles w where
  goesOn _ hi := cell_progress h hi
  ends := cell_inevitable h

/-- The time-to-live of a call that waits for the write guard. -/
def Pc.waitsWrite : Pc T E → Option Duration
  | .write false ttl => some ttl
  | _ => none

theorem Pc.of_waitsWrite {ttl : Duration} (h : pc.waitsWrite = some ttl) : pc = .write false ttl := by
  unfold Pc.waitsWrite at h
  split at h
  · rw [Option.some.inj h]
  · cases h

/-- Three calls under way, one of them with its initializer running. -/
theorem cell_settles_shared : ∃ w : World Nat String,
    (w.calls 0).inInit = true ∧ w.calls 1 = .write false 60 ∧ w.calls 2 = .write false 5 ∧
      Settles w := by
  obtain ⟨w, hw, hp⟩ := reachable_of_run (sharedRun.take 11)
    (fun w => (w.calls 0).inInit && (w.calls 1).waitsWrite == some 60 &&
      (w.calls 2).waitsWrite == some 5) (by decide)
  simp only [Bool.and_eq_true, beq_iff_eq] at hp
  obtain ⟨⟨hinit, hfirst⟩, hsecond⟩ := hp
  exact ⟨w, hinit, Pc.of_waitsWrite hfirst, Pc.of_waitsWrite hsecond, cell_settles hw⟩

end Keyring.Core
