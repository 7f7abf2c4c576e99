/-
What one step of a cache call can do, and who is alone with the cell.

The moves say what `advance` says, one constructor for each thing that can happen; the
two checks that find a fresh entry are one.  The lock makes a running initializer
exclusive: whoever steps beside it has no guard, and a call without a guard neither looks
at the entry nor touches it.
-/
import Keyring.Core.Cell
import Keyring.Lib.History

namespace Keyring.Core

variable {T E : Type*}

/-- The two freshness checks, each with its guard. -/
inductive Checks (ttl : Duration) : Pc T E → Prop
  | read : Checks ttl (.read true ttl)
  | write : Checks ttl (.write true ttl)

/-- Places where a call waits for a guard, or for being polled with it. -/
inductive Waits : Pc T E → Prop
  | read (held : Bool) (ttl : Duration) : Waits (.read held ttl)
  | write (held : Bool) (ttl : Duration) : Waits (.write held ttl)

/-- One step of a call, by what happens. -/
inductive Move (i : CallId) (now : Instant) (cell : CacheCell T) :
    Pc T E → Input T E → CacheCell T → Pc T E → List (Event T E) → Prop
  | call (ttl : Duration) : Move i now cell .idle (.call ttl) cell (.read false ttl) [.began ttl]
  | takeRead {ttl : Duration} {cell' : CacheCell T} (hl : cell.read i = some cell') :
      Move i now cell (.read false ttl) .go cell' (.read true ttl) []
  | takeWrite {ttl : Duration} {cell' : CacheCell T} (hl : cell.write i = some cell') :
      Move i now cell (.write false ttl) .go cell' (.write true ttl) []
  | hit {pc : Pc T E} {ttl : Duration} {value : T} (hpc : Checks ttl pc)
      (hfresh : fresh now ttl cell.value = some value) :
      Move i now cell pc .go (dropGuard i cell pc.guard) (.done (.ok value))
        [.served ⟨ttl, now, now, .cached value⟩]
  | passed {ttl : Duration} (hold : fresh now ttl cell.value = none) :
      Move i now cell (.read true ttl) .go (cell.dropRead i) (.write false ttl) [.passed now]
  | missed {ttl : Duration} (hold : fresh now ttl cell.value = none) :
      Move i now cell (.write true ttl) .go cell (.init ttl now) [.missed ttl now]
  | stored {ttl : Duration} {start : Instant} {value : T} :
      Move i now cell (.init ttl start) (.finished (.ok value))
        (cell.set (some (value, now))).dropWrite (.done (.ok value))
        [.served ⟨ttl, start, now, .ran (.ok value)⟩]
  | failed {ttl : Duration} {start : Instant} {error : E} :
      Move i now cell (.init ttl start) (.finished (.error error)) cell.dropWrite
        (.done (.error error)) [.served ⟨ttl, start, now, .ran (.err error)⟩]
  | dropped {ttl : Duration} {start : Instant} :
      Move i now cell (.init ttl start) .cancel cell.dropWrite .cancelled
        [.served ⟨ttl, start, now, .ran .dropped⟩]
  | cancel {pc : Pc T E} (hpc : Waits pc) :
      Move i now cell pc .cancel (dropGuard i cell pc.guard) .cancelled [.cancelled]

variable {i j : CallId} {now : Instant} {cell cell' : CacheCell T} {pc pc' : Pc T E}
  {input : Input T E} {events : List (Event T E)} {w w' : World T E}

/-- Every step is a move. -/
theorem Move.of_advance (h : advance i now cell pc input = some (cell', pc', events)) :
    Move i now cell pc input cell' pc' events := by
  unfold advance at h
  split at h
  · obtain ⟨rfl, rfl, rfl⟩ : cell = cell' ∧ _ = pc' ∧ _ = events := by simpa using h
    exact .call _
  · obtain ⟨locked, hl, h⟩ := Option.map_eq_some_iff.mp h
    cases h
    exact .takeRead hl
  · rename_i ttl
    split at h
    · rename_i value hfresh
      obtain ⟨rfl, rfl, rfl⟩ : _ = cell' ∧ _ = pc' ∧ _ = events := by simpa using h
      exact .hit .read hfresh
    · rename_i hold
      obtain ⟨rfl, rfl, rfl⟩ : _ = cell' ∧ _ = pc' ∧ _ = events := by simpa using h
      exact .passed hold
  · obtain ⟨locked, hl, h⟩ := Option.map_eq_some_iff.mp h
    cases h
    exact .takeWrite hl
  · rename_i ttl
    split at h
    · rename_i value hfresh
      obtain ⟨rfl, rfl, rfl⟩ : _ = cell' ∧ _ = pc' ∧ _ = events := by simpa using h
      exact .hit .write hfresh
    · rename_i hold
      obtain ⟨rfl, rfl, rfl⟩ : _ = cell' ∧ _ = pc' ∧ _ = events := by simpa using h
      exact .missed hold
  · obtain ⟨rfl, rfl, rfl⟩ : _ = cell' ∧ _ = pc' ∧ _ = events := by simpa using h
    exact .stored
  · obtain ⟨rfl, rfl, rfl⟩ : _ = cell' ∧ _ = pc' ∧ _ = events := by simpa using h
    exact .failed
  · obtain ⟨rfl, rfl, rfl⟩ : _ = cell' ∧ _ = pc' ∧ _ = events := by simpa using h
    exact .dropped
  · rename_i hnot
    by_cases hawaits : pc.awaits = true
    · rw [if_pos hawaits] at h
      obtain ⟨rfl, rfl, rfl⟩ : _ = cell' ∧ _ = pc' ∧ _ = events := by simpa using h
      refine .cancel ?_
      cases pc with
      | read held ttl => exact .read held ttl
      | write held ttl => exact .write held ttl
      | init ttl start => exact absurd rfl (hnot ttl start)
      | idle => cases hawaits
      | done result => cases hawaits
      | cancelled => cases hawaits
    · rw [if_neg hawaits] at h
      cases h
  · cases h

/-! ### What a step leaves alone -/

@[simp] theorem dropGuard_value (i : CallId) (cell : CacheCell T) (g : Option Guard) :
    (dropGuard i cell g).value = cell.value := by
  rcases g with _ | (_ | _)
  · rfl
  · exact RwLock.dropRead_value cell i
  · rfl

/-- The call an event completes. -/
def Event.op : Event T E → Option (TtlCache.Call T E)
  | .served call => some call
  | _ => none

/-- The event neither completes a call nor starts an initializer. -/
def Event.Quiet (e : Event T E) : Prop :=
  e.op = none ∧ ∀ ttl start, e ≠ .missed ttl start

/-- A step completes a call or leaves the entry as it is. -/
theorem Move.op_cases (h : Move i now cell pc input cell' pc' events) :
    (∀ e ∈ events, e.op = none) ∧ cell'.value = cell.value ∨
      ∃ c, events = [.served c] ∧ c.stop = now ∧
        ((∃ ttl value, Checks ttl pc ∧ fresh now ttl cell.value = some value ∧
            c = ⟨ttl, now, now, .cached value⟩ ∧ cell'.value = cell.value) ∨
          ∃ ttl start ending, pc = .init ttl start ∧ c = ⟨ttl, start, now, .ran ending⟩ ∧
            cell'.value = c.stored.or cell.value) := by
  cases h with
  | call ttl => exact Or.inl ⟨by simp [Event.op], rfl⟩
  | takeRead hl => exact Or.inl ⟨by simp, (RwLock.read_eq_some hl).1⟩
  | takeWrite hl => exact Or.inl ⟨by simp, (RwLock.write_eq_some hl).1⟩
  | hit hpc hfresh =>
      exact Or.inr ⟨_, rfl, rfl, Or.inl ⟨_, _, hpc, hfresh, rfl, dropGuard_value _ _ _⟩⟩
  | passed hold => exact Or.inl ⟨by simp [Event.op], RwLock.dropRead_value _ _⟩
  | missed hold => exact Or.inl ⟨by simp [Event.op], rfl⟩
  | stored => exact Or.inr ⟨_, rfl, rfl, Or.inr ⟨_, _, _, rfl, rfl, rfl⟩⟩
  | failed => exact Or.inr ⟨_, rfl, rfl, Or.inr ⟨_, _, _, rfl, rfl, rfl⟩⟩
  | dropped => exact Or.inr ⟨_, rfl, rfl, Or.inr ⟨_, _, _, rfl, rfl, rfl⟩⟩
  | cancel hpc => exact Or.inl ⟨by simp [Event.op], dropGuard_value _ _ _⟩

/-- **Without a guard a call is outside**: its step says nothing about the entry. -/
theorem Move.outside (h : Move i now cell pc input cell' pc' events) (hg : pc.guard = none) :
    (∀ e ∈ events, e.Quiet) ∧ cell'.value = cell.value ∧ pc'.inInit = false := by
  cases h with
  | call ttl => exact ⟨by simp [Event.Quiet, Event.op], rfl, rfl⟩
  | takeRead hl => exact ⟨by simp, (RwLock.read_eq_some hl).1, rfl⟩
  | takeWrite hl => exact ⟨by simp, (RwLock.write_eq_some hl).1, rfl⟩
  | hit hpc hfresh => cases hpc <;> cases hg
  | passed hold => cases hg
  | missed hold => cases hg
  | stored => cases hg
  | failed => cases hg
  | dropped => cases hg
  | cancel hpc => exact ⟨by simp [Event.Quiet, Event.op], dropGuard_value _ _ _, rfl⟩

/-- An initializer that ends takes its call with it. -/
theorem Move.leaves_init (h : Move i now cell pc input cell' pc' events)
    (hpc : pc.inInit = true) : pc'.inInit = false := by
  cases h with
  | hit hcheck hfresh => cases hcheck <;> cases hpc
  | stored => rfl
  | failed => rfl
  | dropped => rfl
  | cancel hwait => rfl
  | _ => cases hpc

/-- Only an initializer that ends well stores a value. -/
theorem Move.stored_value (h : Move i now cell pc input cell' pc' events)
    {c : TtlCache.Call T E} (hc : .served c ∈ events) {value : T}
    (hreply : c.reply = .ran (.ok value)) :
    pc.inInit = true ∧ input = .finished (.ok value) := by
  cases h with
  | hit hcheck hfresh =>
      obtain rfl := Event.served.inj (List.mem_singleton.mp hc)
      cases hreply
  | stored =>
      obtain rfl := Event.served.inj (List.mem_singleton.mp hc)
      cases hreply
      exact ⟨rfl, rfl⟩
  | failed =>
      obtain rfl := Event.served.inj (List.mem_singleton.mp hc)
      cases hreply
  | dropped =>
      obtain rfl := Event.served.inj (List.mem_singleton.mp hc)
      cases hreply
  | _ => simp at hc

/-- How a step moves the lock. -/
theorem Move.guard_moved (h : Move i now cell pc input cell' pc' events) :
    RwLock.Moved i pc.guard pc'.guard cell cell' := by
  cases h with
  | call ttl => rfl
  | takeRead hl => exact (RwLock.read_eq_some hl).2
  | takeWrite hl => exact (RwLock.write_eq_some hl).2
  | hit hpc hfresh => cases hpc <;> rfl
  | passed hold => rfl
  | missed hold => rfl
  | stored => rfl
  | failed => rfl
  | dropped => rfl
  | cancel hpc => rcases hpc with ⟨_ | _, ttl⟩ | ⟨_ | _, ttl⟩ <;> rfl

/-! ### Steps of the world -/

@[simp] theorem moved_cell (w : World T E) (i : CallId) (cell : CacheCell T) (pc : Pc T E)
    (events : List (Event T E)) : (w.moved i cell pc events).cell = cell := rfl

@[simp] theorem moved_clock (w : World T E) (i : CallId) (cell : CacheCell T) (pc : Pc T E)
    (events : List (Event T E)) : (w.moved i cell pc events).clock = w.clock := rfl

@[simp] theorem moved_calls (w : World T E) (i : CallId) (cell : CacheCell T) (pc : Pc T E)
    (events : List (Event T E)) :
    (w.moved i cell pc events).calls = Function.update w.calls i pc := rfl

@[simp] theorem moved_log (w : World T E) (i : CallId) (cell : CacheCell T) (pc : Pc T E)
    (events : List (Event T E)) :
    (w.moved i cell pc events).log = w.log ++ events.map fun e => (i, e) := rfl

theorem step_call (h : w.step (.call i input) = some w') :
    ∃ cell' pc' events, Move i w.clock w.cell (w.calls i) input cell' pc' events ∧
      w' = w.moved i cell' pc' events := by
  obtain ⟨⟨cell', pc', events⟩, hadvance, rfl⟩ := Option.map_eq_some_iff.mp h
  exact ⟨cell', pc', events, .of_advance hadvance, rfl⟩

theorem step_tick (h : w.step (.tick now) = some w') :
    w.clock ≤ now ∧ w' = { w with clock := now } := by
  rw [World.step] at h
  by_cases hle : w.clock ≤ now
  · rw [if_pos hle] at h
    exact ⟨hle, (Option.some.inj h).symm⟩
  · rw [if_neg hle] at h
    cases h

/-- **The invariant rule of the cell.** -/
theorem cell_invariant {I : World T E → Prop} (hstart : ∀ clock, I (.start clock))
    (hmove : ∀ {w : World T E} {i input cell' pc' events}, (cellMachine T E).Reachable w → I w →
      Move i w.clock w.cell (w.calls i) input cell' pc' events → I (w.moved i cell' pc' events))
    (htick : ∀ {w : World T E} now, w.clock ≤ now → I w → I { w with clock := now })
    (h : (cellMachine T E).Reachable w) : I w := by
  refine h.invariant (fun w ⟨clock, hw⟩ => hw ▸ hstart clock) ?_
  intro w w' a hr hI hstep
  cases a with
  | call i input =>
      obtain ⟨cell', pc', events, hm, rfl⟩ := step_call hstep
      exact hmove hr hI hm
  | tick now =>
      obtain ⟨hle, rfl⟩ := step_tick hstep
      exact htick now hle hI

/-- The lock knows who has which guard. -/
theorem cell_held (h : (cellMachine T E).Reachable w) :
    w.cell.Held fun i => (w.calls i).guard :=
  cell_invariant (I := fun w => w.cell.Held fun i => (w.calls i).guard)
    (fun _ => RwLock.held_new none fun _ => rfl) (fun _ hI hm => hI.moved_place hm.guard_moved)
    (fun _ _ hI => hI) h

theorem guard_of_inInit (h : pc.inInit = true) : pc.guard = some .write := by
  cases pc with
  | init ttl start => rfl
  | _ => cases h

/-- **Beside a running initializer nobody has a guard.** -/
theorem guard_none_of_inInit (h : (cellMachine T E).Reachable w)
    (hi : (w.calls i).inInit = true) (hj : j ≠ i) : (w.calls j).guard = none := by
  by_contra hguard
  exact hj ((cell_held h).alone (guard_of_inInit hi) hguard)

/-- A list of actions that leads to a world with a property, from an empty cell. -/
theorem reachable_of_run (as : List (Action T E)) (p : World T E → Bool)
    (h : (Machine.exec World.step (World.start 0) as).any p = true) :
    ∃ w, (cellMachine T E).Reachable w ∧ p w = true :=
  Machine.reachable_of_exec_any ⟨0, rfl⟩ as p h

end Keyring.Core
