/-
`CacheCell`: any number of concurrent `get_or_try_init` calls on one cell.

A call is where it stands in its code.  Getting a guard is a step of its own, and so is
what is done with it; between two steps of one call the others may take any number, and
the clock may go on.  The initializer of a call is not modelled here: once it runs, it
ends in its own time with any result, unless the call is dropped first.

`log` is no variable of the program.  It writes down what the calls do, for the sake of
claims about the order in which they do it, and no step reads it; the same goes for the
`start` that a running initializer carries.
-/
import Keyring.Basic
import Keyring.Lib.Machine
import Keyring.Lib.RwLock
import Keyring.Lib.TtlCache

namespace Keyring.Core

/-- One `get_or_try_init` call. -/
abbrev CallId := Nat

/-- A cell: at most one value and when it was produced, behind `inner`. -/
abbrev CacheCell (T : Type*) := RwLock CallId (Option (T × Instant))

/-- `Instant::elapsed`, which is zero for a later instant. -/
def elapsed (now ts : Instant) : Duration := now - ts

/-- The value of an entry with `ts.elapsed() < ttl`. -/
def fresh {T : Type*} (now : Instant) (ttl : Duration) : Option (T × Instant) → Option T
  | none => none
  | some (value, ts) => if elapsed now ts < ttl then some value else none

/-- Where a call stands.  `held` says whether the guard it waits for is already its own. -/
inductive Pc (T E : Type*)
  | idle
  /-- The fast path: the check under a read guard. -/
  | read (held : Bool) (ttl : Duration)
  /-- The slow path: the second check, under the write guard. -/
  | write (held : Bool) (ttl : Duration)
  /-- The initializer runs, since `start`. -/
  | init (ttl : Duration) (start : Instant)
  | done (result : Except E T)
  | cancelled

namespace Pc

variable {T E : Type*}

/-- The guard a call at this place has. -/
def guard : Pc T E → Option Guard
  | .read true _ => some .read
  | .write true _ => some .write
  | .init _ _ => some .write
  | _ => none

/-- Whether a call at this place is at an await point, so that it can be dropped there. -/
def awaits : Pc T E → Bool
  | .read _ _ | .write _ _ | .init _ _ => true
  | .idle | .done _ | .cancelled => false

/-- Whether the initializer of a call at this place is running. -/
def inInit : Pc T E → Bool
  | .init _ _ => true
  | _ => false

end Pc

/-- What happens in a run. -/
inductive Event (T E : Type*)
  | began (ttl : Duration)
  /-- The first check found no fresh entry. -/
  | passed (now : Instant)
  /-- The second check found none either, and the initializer starts. -/
  | missed (ttl : Duration) (now : Instant)
  /-- The call is over, unless it is dropped while it waits. -/
  | served (call : TtlCache.Call T E)
  | cancelled

/-- What a waiting call is resumed with. -/
inductive Input (T E : Type*)
  | call (ttl : Duration)
  /-- The guard is there. -/
  | go
  /-- The initializer ends. -/
  | finished (result : Except E T)
  | cancel

section

variable {T E : Type*}

/-- Dropping a call drops the guard it has. -/
def dropGuard (i : CallId) (cell : CacheCell T) : Option Guard → CacheCell T
  | none => cell
  | some .read => cell.dropRead i
  | some .write => cell.dropWrite

/-- What one call does when it is resumed: the cell it leaves, where it stands next, and
what there is to write down. -/
def advance (i : CallId) (now : Instant) (cell : CacheCell T) :
    Pc T E → Input T E → Option (CacheCell T × Pc T E × List (Event T E))
  | .idle, .call ttl => some (cell, .read false ttl, [.began ttl])
  | .read false ttl, .go => (cell.read i).map fun cell => (cell, .read true ttl, [])
  | .read true ttl, .go =>
      match fresh now ttl cell.value with
      | some value =>
          some (cell.dropRead i, .done (.ok value), [.served ⟨ttl, now, now, .cached value⟩])
      | none => some (cell.dropRead i, .write false ttl, [.passed now])
  | .write false ttl, .go => (cell.write i).map fun cell => (cell, .write true ttl, [])
  | .write true ttl, .go =>
      match fresh now ttl cell.value with
      | some value =>
          some (cell.dropWrite, .done (.ok value), [.served ⟨ttl, now, now, .cached value⟩])
      | none => some (cell, .init ttl now, [.missed ttl now])
  | .init ttl start, .finished (.ok value) =>
      some ((cell.set (some (value, now))).dropWrite, .done (.ok value),
        [.served ⟨ttl, start, now, .ran (.ok value)⟩])
  | .init ttl start, .finished (.error error) =>
      some (cell.dropWrite, .done (.error error), [.served ⟨ttl, start, now, .ran (.err error)⟩])
  | .init ttl start, .cancel =>
      some (cell.dropWrite, .cancelled, [.served ⟨ttl, start, now, .ran .dropped⟩])
  | pc, .cancel =>
      if pc.awaits then some (dropGuard i cell pc.guard, .cancelled, [.cancelled]) else none
  | _, _ => none

end

/-! ### Runs -/

/-- The cell, its calls and the clock. -/
structure World (T E : Type*) where
  cell : CacheCell T
  clock : Instant
  calls : CallId → Pc T E
  log : List (CallId × Event T E)

/-- What can happen next. -/
inductive Action (T E : Type*)
  | call (i : CallId) (input : Input T E)
  | tick (now : Instant)

namespace World

variable {T E : Type*}

def start (clock : Instant) : World T E := ⟨RwLock.new none, clock, fun _ => .idle, []⟩

/-- What a step of one call leaves of the world. -/
def moved (w : World T E) (i : CallId) (cell : CacheCell T) (pc : Pc T E)
    (events : List (Event T E)) : World T E where
  cell
  clock := w.clock
  calls := Function.update w.calls i pc
  log := w.log ++ events.map fun e => (i, e)

def step (w : World T E) : Action T E → Option (World T E)
  | .call i input =>
      (advance i w.clock w.cell (w.calls i) input).map fun (cell, pc, events) =>
        w.moved i cell pc events
  | .tick now => if w.clock ≤ now then some { w with clock := now } else none

end World

/-- All runs of one cell. -/
def cellMachine (T E : Type*) : Machine (World T E) (Action T E) :=
  Machine.ofFun (fun w => ∃ clock, w = World.start clock) World.step

end Keyring.Core
