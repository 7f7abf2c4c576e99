/-
The Unix listener: binding a path, reclaiming a stale socket, dropping the listener.

Any number of processes run the code on one path, one system call at a time.  A call's
answer is the kernel's to give, so it is part of the input, and `Kernel` says which
answers are possible: a `bind` succeeds only where nothing is and puts a new live socket
there, a `connect` to a live socket is not refused, and any call may fail for reasons of
its own.  Which device and inode number a new object gets is left to the kernel as well,
so a number may come back after its object is gone; `id` is the identity behind it, which
no process can see.

Other programs may touch the path too.
-/
import Keyring.Lib.Machine
import Mathlib.Logic.Function.Basic

namespace Keyring.Cli.Platform

/-! ### The kernel -/

/-- The error kinds the code tells apart. -/
inductive ErrorKind
  | addrInUse
  | notFound
  | connectionRefused
  | other (code : Nat)
  deriving DecidableEq

/-- What `symlink_metadata` says of an object. -/
structure Metadata where
  isSocket : Bool
  dev : Nat
  ino : Nat
  deriving DecidableEq

/-- An object of the file system. -/
structure Node where
  id : Nat
  metadata : Metadata
  deriving DecidableEq

/-- Who listens on a socket: one of the processes `ι`, or another program. -/
inductive Owner (ι : Type*)
  | process (p : ι)
  | other
  deriving DecidableEq

/-- What the path names, who listens on each socket, and the next identity. -/
structure Kernel (ι : Type*) where
  path : Option Node
  owner : Nat → Option (Owner ι)
  next : Nat

variable {ι : Type*}

namespace Kernel

/-- Every identity in use is below the next one. -/
structure Counted (k : Kernel ι) : Prop where
  taken : ∀ node, k.path = some node → node.id < k.next
  fresh : ∀ id, k.next ≤ id → k.owner id = none

/-- A socket with a listener. -/
def live (k : Kernel ι) (node : Node) : Bool := node.metadata.isSocket && (k.owner node.id).isSome

/-- Put a new object on the path. -/
def create (k : Kernel ι) (metadata : Metadata) (owner : Option (Owner ι)) : Kernel ι where
  path := some ⟨k.next, metadata⟩
  owner := Function.update k.owner k.next owner
  next := k.next + 1

def remove (k : Kernel ι) : Kernel ι := { k with path := none }

/-- Close a socket. -/
def close (k : Kernel ι) (id : Nat) : Kernel ι :=
  { k with owner := Function.update k.owner id none }

/-- The answers `bind` may give. -/
def mayBind (k : Kernel ι) : Except ErrorKind Metadata → Bool
  | .ok metadata => k.path.isNone && metadata.isSocket
  | .error _ => true

/-- The answers `symlink_metadata` may give. -/
def mayInspect (k : Kernel ι) : Except ErrorKind Metadata → Bool
  | .ok metadata => k.path.map (·.metadata) == some metadata
  | .error .notFound => k.path.isNone
  | .error _ => true

/-- The answers `connect` may give, a timeout included.  It follows a symbolic link, so
what is no socket may lead to anything. -/
def mayConnect (k : Kernel ι) : Option (Except ErrorKind Unit) → Bool
  | some (.ok ()) => k.path.any fun node => !node.metadata.isSocket || k.live node
  | some (.error .notFound) => k.path.all fun node => !node.metadata.isSocket
  | some (.error .connectionRefused) => k.path.any fun node => !k.live node
  | some (.error _) => true
  | none => true

/-- The answers `remove_file` may give. -/
def mayRemove (k : Kernel ι) : Except ErrorKind Unit → Bool
  | .ok () => k.path.isSome
  | .error .notFound => k.path.isNone
  | .error _ => true

/-- What `remove_file` does, by its answer. -/
def removeFile (k : Kernel ι) : Except ErrorKind Unit → Kernel ι
  | .ok () => k.remove
  | .error _ => k

end Kernel

/-! ### The code between two system calls -/

/-- Where a process stands: before the named system call of `bind_unix`, or of `drop`. -/
inductive Pc
  | bind
  | inspect
  | probe (original : Metadata)
  | recheck (original : Metadata)
  | unlink
  | rebind
  | failed (error : ErrorKind)
  /-- The process has a `Listener` on the socket it created. -/
  | listening (id : Nat)
  /-- The `Listener` is being dropped: the path is done, the socket is still open. -/
  | closing (id : Nat)
  | dropped
  | crashed
  deriving DecidableEq

/-- The first `match` of `bind_unix`. -/
def bindFailed (error : ErrorKind) : Pc :=
  if error = .addrInUse then .inspect else .failed error

/-- `reclaim_stale_socket` up to the probe; `Ok(false)` makes `bind_unix` return the error
of its first `bind`. -/
def inspected : Except ErrorKind Metadata → Pc
  | .ok metadata => if metadata.isSocket then .probe metadata else .failed .addrInUse
  | .error .notFound => .rebind
  | .error _ => .failed .addrInUse

/-- After the probe; `none` is the timeout. -/
def probed (original : Metadata) : Option (Except ErrorKind Unit) → Pc
  | some (.ok ()) => .failed .addrInUse
  | some (.error .connectionRefused) => .recheck original
  | some (.error .notFound) => .rebind
  | some (.error _) => .failed .addrInUse
  | none => .failed .addrInUse

/-- After the second look. -/
def rechecked (original : Metadata) : Except ErrorKind Metadata → Pc
  | .ok current =>
      if !current.isSocket || original.dev != current.dev || original.ino != current.ino then
        .failed .addrInUse
      else .unlink
  | .error .notFound => .rebind
  | .error _ => .failed .addrInUse

/-- After the removal. -/
def removed : Except ErrorKind Unit → Pc
  | .ok () => .rebind
  | .error .notFound => .rebind
  | .error error => .failed error

/-- A system call with its answer, the closing of the socket, or the death of the
process, which closes it too. -/
inductive Call
  | bind (answer : Except ErrorKind Metadata)
  | symlinkMetadata (answer : Except ErrorKind Metadata)
  | connect (answer : Option (Except ErrorKind Unit))
  | removeFile (answer : Except ErrorKind Unit)
  | close
  | crash

/-- The socket a process keeps open. -/
def Pc.socket : Pc → Option Nat
  | .listening id | .closing id => some id
  | _ => none

/-- What the death of a process does to the kernel. -/
def Kernel.exit (k : Kernel ι) (pc : Pc) : Kernel ι :=
  match pc.socket with
  | some id => k.close id
  | none => k

/-- One system call of process `p`. -/
def advance (p : ι) (k : Kernel ι) : Pc → Call → Option (Kernel ι × Pc)
  | .bind, .bind (.ok metadata) =>
      if k.mayBind (.ok metadata) then
        some (k.create metadata (some (.process p)), .listening k.next)
      else none
  | .bind, .bind (.error error) => some (k, bindFailed error)
  | .inspect, .symlinkMetadata answer =>
      if k.mayInspect answer then some (k, inspected answer) else none
  | .probe original, .connect answer =>
      if k.mayConnect answer then some (k, probed original answer) else none
  | .recheck original, .symlinkMetadata answer =>
      if k.mayInspect answer then some (k, rechecked original answer) else none
  | .unlink, .removeFile answer =>
      if k.mayRemove answer then some (k.removeFile answer, removed answer) else none
  | .rebind, .bind (.ok metadata) =>
      if k.mayBind (.ok metadata) then
        some (k.create metadata (some (.process p)), .listening k.next)
      else none
  | .rebind, .bind (.error error) => some (k, .failed error)
  -- `Drop for Listener` ignores the answer; its socket is closed after that.
  | .listening id, .removeFile answer =>
      if k.mayRemove answer then some (k.removeFile answer, .closing id) else none
  | .closing id, .close => some (k.close id, .dropped)
  | pc, .crash => some (k.exit pc, .crashed)
  | _, _ => none

/-! ### Runs -/

/-- The path, and the processes that use it. -/
structure World (ι : Type*) where
  kernel : Kernel ι
  procs : ι → Pc

/-- A system call of a process; or another program puts an object on the path in place of
what is there, takes it away, or closes a socket of its own. -/
inductive Action (ι : Type*)
  | call (p : ι) (call : Call)
  | put (metadata : Metadata) (listens : Bool)
  | unlink
  | close (id : Nat)

variable [DecidableEq ι]

namespace World

def moved (w : World ι) (p : ι) (k : Kernel ι) (pc : Pc) : World ι :=
  ⟨k, Function.update w.procs p pc⟩

def step (w : World ι) : Action ι → Option (World ι)
  | .call p call => (advance p w.kernel (w.procs p) call).map fun (k, pc) => w.moved p k pc
  | .put metadata listens =>
      some { w with kernel := w.kernel.create metadata (if listens then some .other else none) }
  | .unlink => some { w with kernel := w.kernel.remove }
  | .close id =>
      if w.kernel.owner id = some .other then some { w with kernel := w.kernel.close id } else none

/-- Processes about to bind a path in any state: whoever listens on it is none of them. -/
structure Initial (w : World ι) : Prop where
  binding : ∀ p, w.procs p = .bind
  strangers : ∀ id p, w.kernel.owner id ≠ some (.process p)
  counted : w.kernel.Counted

end World

/-- All runs on one path.  A process that binds again counts as another one. -/
def pathMachine (ι : Type*) [DecidableEq ι] : Machine (World ι) (Action ι) :=
  Machine.ofFun World.Initial World.step

end Keyring.Cli.Platform
