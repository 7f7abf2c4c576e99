/-
What reclaiming a stale socket removes.

Between its second look and its `remove_file` a process trusts what it has seen, and
between its probe and its second look it trusts the device and inode number.  While a
process is at either place a bind of another one may put a live socket in the way, and the
removal takes that one.  Where no bind comes in between, a reclaim removes nothing but a
socket without a listener, and whoever has bound the path stays reachable at it.
-/
import Keyring.Proofs.Cli.Platform.Moves

namespace Keyring.Cli.Platform

variable {ι : Type*} {p q : ι} {id : Nat} {k k' : Kernel ι} {pc pc' : Pc} {call : Call} {w w' : World ι}
  {a : Action ι} {node : Node} {metadata : Metadata}

/-! ### The condition -/

/-- No other program touches the path.  It may still close a socket of its own. -/
def Undisturbed (_ : World ι) : Action ι → Prop
  | .put _ _ => False
  | .unlink => False
  | _ => True

/-- The runs of processes that have the path to themselves. -/
def bindMachine (ι : Type*) [DecidableEq ι] : Machine (World ι) (Action ι) :=
  (pathMachine ι).restrict Undisturbed

/-- The process will remove an object with these numbers, if it finds it on the path. -/
def Pc.armed (metadata : Metadata) : Pc → Bool
  | .recheck original => original.dev == metadata.dev && original.ino == metadata.ino
  | .unlink => true
  | _ => false

/-- The step puts a socket on the path that another process is about to remove. -/
def BindsUnderReclaim (w : World ι) (a : Action ι) : Prop :=
  ∃ p metadata, a = .call p (.bind (.ok metadata)) ∧ ∃ q, (w.procs q).armed metadata = true

/-- The step binds no path under a process that reclaims it. -/
def BindsApart (w : World ι) (a : Action ι) : Prop := ¬BindsUnderReclaim w a

/-- What an armed process would remove has no listener, and a listener is on the path. -/
structure ReclaimInv (w : World ι) : Prop where
  stale : ∀ p node, w.kernel.path = some node → (w.procs p).armed node.metadata = true →
    w.kernel.live node = false
  socket : ∀ p node, w.kernel.path = some node → w.procs p = .unlink →
    node.metadata.isSocket = true
  bound : ∀ p id, w.procs p = .listening id →
    ∃ node, w.kernel.path = some node ∧ node.id = id ∧ node.metadata.isSocket = true

/-! ### One step -/

/-- A call gives no listener to a socket that has none. -/
theorem Move.not_live_keeps (h : Move p k pc call k' pc') (hlt : node.id < k.next)
    (hdead : k.live node = false) : k'.live node = false := by
  cases h with
  | bound hpc hfree hsocket =>
      have hne : node.id ≠ k.next := Nat.ne_of_lt hlt
      rw [Kernel.live, create_owner, Function.update_of_ne hne]
      exact hdead
  | looked hlooked => exact hdead
  | reclaimed hmay | released hmay =>
      rw [Kernel.live, removeFile_owner]
      exact hdead
  | closed hopen hdone =>
      exact close_not_live hdead _

theorem armed_cases (h : pc.armed metadata = true) :
    pc = .unlink ∨ ∃ original, pc = .recheck original ∧ original.dev = metadata.dev ∧
      original.ino = metadata.ino := by
  unfold Pc.armed at h
  split at h
  · rename_i original
    obtain ⟨hdev, hino⟩ := Bool.and_eq_true_iff.mp h
    exact Or.inr ⟨original, rfl, beq_iff_eq.mp hdev, beq_iff_eq.mp hino⟩
  · exact Or.inl rfl
  · exact absurd h Bool.false_ne_true

theorem removed_not_armed (answer : Except ErrorKind Unit) :
    (removed answer).armed metadata = false := by
  unfold removed
  split <;> rfl

theorem removed_ne_unlink (answer : Except ErrorKind Unit) : removed answer ≠ .unlink := by
  unfold removed
  split <;> simp

/-- A process gets armed by looking, or was armed before. -/
theorem Move.enters_armed (h : Move p k pc call k' pc') (hnode : k'.path = some node)
    (harmed : pc'.armed node.metadata = true) :
    k' = k ∧ (k.live node = false ∨ pc.armed node.metadata = true) := by
  cases h with
  | bound hpc hfree hsocket => exact absurd harmed Bool.false_ne_true
  | looked hlooked =>
      refine ⟨rfl, ?_⟩
      rcases armed_cases harmed with hunlink | ⟨original, hrecheck, -, -⟩
      · obtain ⟨original, seen, rfl, hseen, -, hdev, hino⟩ := hlooked.unlink hunlink
        obtain rfl := Option.some.inj (hseen.symm.trans hnode)
        exact Or.inr (by simp [Pc.armed, hdev, hino])
      · exact Or.inl (hlooked.recheck original hrecheck node hnode)
  | reclaimed hmay =>
      rw [removed_not_armed] at harmed
      exact absurd harmed Bool.false_ne_true
  | released hmay => exact absurd harmed Bool.false_ne_true
  | closed hopen hdone => rcases hdone with rfl | rfl <;> exact absurd harmed Bool.false_ne_true

/-- A process about to remove has seen a socket. -/
theorem Move.enters_unlink (h : Move p k pc call k' pc') (hpc' : pc' = .unlink)
    (hnode : k'.path = some node) : node.metadata.isSocket = true := by
  cases h with
  | bound hpc hfree hsocket => exact absurd hpc' (by simp)
  | looked hlooked =>
      obtain ⟨original, seen, -, hseen, hsocket, -⟩ := hlooked.unlink hpc'
      obtain rfl := Option.some.inj (hseen.symm.trans hnode)
      exact hsocket
  | reclaimed hmay => exact absurd hpc' (removed_ne_unlink _)
  | released hmay => exact absurd hpc' (by simp)
  | closed hopen hdone =>
      subst hpc'
      rcases hdone with h | h <;> exact absurd h (by simp)

/-- What takes an object off the path: a reclaim, or a `Listener` being dropped. -/
theorem Move.removes (h : Move p k pc call k' pc') (hnode : k.path = some node)
    (hgone : k'.path ≠ some node) : pc = .unlink ∨ ∃ id, pc = .listening id := by
  cases h with
  | bound hpc hfree hsocket =>
      rw [hfree] at hnode
      exact absurd hnode (by simp)
  | looked hlooked => exact absurd hnode hgone
  | reclaimed hmay => exact Or.inl rfl
  | released hmay => exact Or.inr ⟨_, rfl⟩
  | closed hopen hdone => exact absurd hnode hgone

/-! ### The invariant -/

theorem live_of_open (hO : Owned w) (hopen : (w.procs p).socket = some node.id)
    (hsocket : node.metadata.isSocket = true) : w.kernel.live node = true := by
  rw [Kernel.live, hsocket, (hO.owner p node.id).mp hopen]
  rfl

/-- A process takes from the path only what has no listener, or its own socket. -/
theorem ReclaimInv.removes (hI : ReclaimInv w) (hm : Move p w.kernel (w.procs p) call k' pc')
    (hnode : w.kernel.path = some node) (hgone : k'.path ≠ some node) :
    (node.metadata.isSocket = true ∧ w.kernel.live node = false) ∨
      w.procs p = .listening node.id := by
  rcases hm.removes hnode hgone with hunlink | ⟨id, hlistening⟩
  · refine Or.inl ⟨hI.socket p node hnode hunlink, hI.stale p node hnode ?_⟩
    rw [hunlink]
    rfl
  · obtain ⟨own, hown, rfl, -⟩ := hI.bound p id hlistening
    obtain rfl := Option.some.inj (hown.symm.trans hnode)
    exact Or.inr hlistening

variable [DecidableEq ι]

theorem ReclaimInv.stale_moved (hI : ReclaimInv w) (hO : Owned w)
    (happart : BindsApart w (.call p call)) (hm : Move p w.kernel (w.procs p) call k' pc') :
    ∀ q node, k'.path = some node → ((w.moved p k' pc').procs q).armed node.metadata = true →
      k'.live node = false := by
  intro q node hnode harmed
  rw [moved_procs] at harmed
  by_cases hqp : q = p
  · subst hqp
    rw [Function.update_self] at harmed
    obtain ⟨rfl, hdead | hbefore⟩ := hm.enters_armed hnode harmed
    · exact hdead
    · exact hI.stale q node hnode hbefore
  · rw [Function.update_of_ne hqp] at harmed
    rcases hm.path_cases hnode with hsame | ⟨metadata, rfl, rfl⟩
    · exact hm.not_live_keeps (hO.counted.taken node hsame) (hI.stale q node hsame harmed)
    · exact absurd ⟨p, metadata, rfl, q, harmed⟩ happart

theorem ReclaimInv.socket_moved (hI : ReclaimInv w)
    (happart : BindsApart w (.call p call)) (hm : Move p w.kernel (w.procs p) call k' pc') :
    ∀ q node, k'.path = some node → (w.moved p k' pc').procs q = .unlink →
      node.metadata.isSocket = true := by
  intro q node hnode hunlink
  rw [moved_procs] at hunlink
  by_cases hqp : q = p
  · subst hqp
    rw [Function.update_self] at hunlink
    exact hm.enters_unlink hunlink hnode
  · rw [Function.update_of_ne hqp] at hunlink
    rcases hm.path_cases hnode with hsame | ⟨metadata, rfl, rfl⟩
    · exact hI.socket q node hsame hunlink
    · refine absurd ⟨p, metadata, rfl, q, ?_⟩ happart
      rw [hunlink]
      rfl

theorem ReclaimInv.bound_moved (hI : ReclaimInv w) (hO : Owned w)
    (hm : Move p w.kernel (w.procs p) call k' pc') :
    ∀ q id, (w.moved p k' pc').procs q = .listening id →
      ∃ node, k'.path = some node ∧ node.id = id ∧ node.metadata.isSocket = true := by
  intro q id hlistening
  rw [moved_procs] at hlistening
  by_cases hqp : q = p
  · subst hqp
    rw [Function.update_self] at hlistening
    obtain ⟨metadata, hpath, hsocket⟩ := hm.enters_listening hlistening
    exact ⟨⟨id, metadata⟩, hpath, rfl, hsocket⟩
  · rw [Function.update_of_ne hqp] at hlistening
    obtain ⟨node, hnode, rfl, hsocket⟩ := hI.bound q id hlistening
    have hopen : (w.procs q).socket = some node.id := by rw [hlistening]; rfl
    refine ⟨node, ?_, rfl, hsocket⟩
    by_contra hgone
    rcases hI.removes hm hnode hgone with ⟨-, hdead⟩ | hown
    · rw [live_of_open hO hopen hsocket] at hdead
      exact absurd hdead (by simp)
    · exact hqp (hO.unique hopen (by rw [hown]; rfl))

/-- **Where no bind comes under a reclaim, what is about to be removed is stale.** -/
theorem reclaimInv (h : ((bindMachine ι).restrict BindsApart).Reachable w) : ReclaimInv w := by
  refine h.invariant ?_ ?_
  · intro w hinit
    refine ⟨?_, ?_, ?_⟩
    · intro p node _ harmed
      rw [hinit.binding p] at harmed
      exact absurd harmed Bool.false_ne_true
    · intro p node _ hunlink
      rw [hinit.binding p] at hunlink
      exact absurd hunlink (by simp)
    · intro p id hlistening
      rw [hinit.binding p] at hlistening
      exact absurd hlistening (by simp)
  · intro w w' a hr hI ⟨happart, hundisturbed, hstep⟩
    have hO : Owned w := owned hr.of_restrict.of_restrict
    cases a with
    | call p call =>
        obtain ⟨k', pc', hm, rfl⟩ := step_call hstep
        exact ⟨hI.stale_moved hO happart hm, hI.socket_moved happart hm, hI.bound_moved hO hm⟩
    | put metadata listens => exact absurd hundisturbed id
    | unlink => exact absurd hundisturbed id
    | close id =>
        obtain ⟨-, rfl⟩ := step_close hstep
        refine ⟨?_, hI.socket, hI.bound⟩
        intro p node hnode harmed
        exact close_not_live (hI.stale p node hnode harmed) id

/-! ### A bind under a reclaim -/

/-- A process at its `remove_file` removes what it finds. -/
theorem step_unlink (hpc : w.procs q = .unlink) (hnode : w.kernel.path = some node) :
    w.step (.call q (.removeFile (.ok ()))) = some (w.moved q w.kernel.remove .rebind) := by
  have hmay : w.kernel.mayRemove (.ok ()) = true := by rw [Kernel.mayRemove, hnode]; rfl
  rw [World.step, hpc, advance, if_pos hmay]
  rfl

/-- A second look that finds the same numbers leads to the removal. -/
theorem step_recheck {original : Metadata} (hpc : w.procs q = .recheck original)
    (hnode : w.kernel.path = some node) (hsocket : node.metadata.isSocket = true)
    (hdev : original.dev = node.metadata.dev) (hino : original.ino = node.metadata.ino) :
    w.step (.call q (.symlinkMetadata (.ok node.metadata))) =
      some (w.moved q w.kernel .unlink) := by
  have hmay : w.kernel.mayInspect (.ok node.metadata) = true := mayInspect_ok.mpr ⟨node, hnode, rfl⟩
  have hnext : rechecked original (.ok node.metadata) = .unlink := by
    simp [rechecked, hsocket, hdev, hino]
  rw [World.step, hpc, advance, if_pos hmay, hnext]
  rfl

/-- An armed process takes a socket with its numbers off the path in two calls at most. -/
theorem exec_armed (harmed : (w.procs q).armed node.metadata = true)
    (hnode : w.kernel.path = some node) (hsocket : node.metadata.isSocket = true) :
    ∃ (calls : List Call) (w' : World ι), Machine.exec World.step w (calls.map (Action.call q)) = some w' ∧
      w'.kernel.path = none ∧ w'.procs = Function.update w.procs q .rebind := by
  rcases armed_cases harmed with hunlink | ⟨original, hrecheck, hdev, hino⟩
  · refine ⟨[.removeFile (.ok ())], w.moved q w.kernel.remove .rebind, ?_, rfl, rfl⟩
    show (w.step (.call q (.removeFile (.ok ())))).bind some = _
    rw [step_unlink hunlink hnode]
    rfl
  · let looked := w.moved q w.kernel .unlink
    have hlooked : w.step (.call q (.symlinkMetadata (.ok node.metadata))) = some looked :=
      step_recheck hrecheck hnode hsocket hdev hino
    have hremoved : looked.step (.call q (.removeFile (.ok ()))) =
        some (looked.moved q w.kernel.remove .rebind) :=
      step_unlink (Function.update_self q _ _) hnode
    refine ⟨[.symlinkMetadata (.ok node.metadata), .removeFile (.ok ())],
      looked.moved q w.kernel.remove .rebind, ?_, rfl, ?_⟩
    · show (w.step _).bind (fun t => (t.step _).bind some) = _
      rw [hlooked, Option.bind_some, hremoved]
      rfl
    · show Function.update (Function.update w.procs q .unlink) q .rebind = _
      rw [Function.update_idem]

/-- Whoever has bound the path under a reclaim can lose it to the reclaiming process. -/
theorem orphaned_of_binds (hbind : BindsUnderReclaim w a) (hstep : w.step a = some w') :
    ∃ p q, ∃ (calls : List Call) (w'' : World ι), Machine.exec World.step w' (calls.map (Action.call q)) = some w'' ∧
      p ≠ q ∧ w''.procs p = .listening w.kernel.next ∧ w''.kernel.path = none := by
  obtain ⟨p, metadata, rfl, q, harmed⟩ := hbind
  obtain ⟨⟨k', pc'⟩, hadvance, rfl⟩ := Option.map_eq_some_iff.mp hstep
  obtain ⟨hpc, hsocket, rfl, rfl⟩ := advance_bind hadvance
  have hqp : q ≠ p := by
    rintro rfl
    rcases hpc with hpc | hpc <;> rw [hpc] at harmed <;> exact absurd harmed Bool.false_ne_true
  let bound := w.moved p (w.kernel.create metadata (some (.process p))) (.listening w.kernel.next)
  have hstill : bound.procs q = w.procs q := Function.update_of_ne hqp _ _
  rw [← hstill] at harmed
  have hnode : bound.kernel.path = some ⟨w.kernel.next, metadata⟩ := rfl
  obtain ⟨calls, w'', hrun, hpath, hprocs⟩ := exec_armed harmed hnode hsocket
  refine ⟨p, q, calls, w'', hrun, Ne.symm hqp, ?_, hpath⟩
  rw [hprocs, Function.update_of_ne (Ne.symm hqp)]
  exact Function.update_self p _ _

/-! ### In every run -/

/-- Who has bound the path is reachable at it, and no step takes anything off the path but
a socket without a listener, or a process its own. -/
structure KeepsListeners (w : World ι) : Prop where
  reachable : ∀ p id, w.procs p = .listening id →
    ∃ node, w.kernel.path = some node ∧ node.id = id ∧ w.kernel.live node = true
  removes : ∀ a w' node, (bindMachine ι).step w a w' → w.kernel.path = some node →
    w'.kernel.path ≠ some node →
      (node.metadata.isSocket = true ∧ w.kernel.live node = false) ∨
        ∃ p call, a = .call p call ∧ w.procs p = .listening node.id

theorem keepsListeners (h : ((bindMachine ι).restrict BindsApart).Reachable w) :
    KeepsListeners w := by
  have hI := reclaimInv h
  constructor
  · intro p id hlistening
    obtain ⟨node, hnode, rfl, hsocket⟩ := hI.bound p id hlistening
    refine ⟨node, hnode, rfl, live_of_open (p := p) (owned h.of_restrict.of_restrict) ?_ hsocket⟩
    rw [hlistening]
    rfl
  · intro a w' node ⟨hundisturbed, hstep⟩ hnode hgone
    cases a with
    | call p call =>
        obtain ⟨k', pc', hm, rfl⟩ := step_call hstep
        rcases hI.removes hm hnode hgone with hstale | hown
        · exact Or.inl hstale
        · exact Or.inr ⟨p, call, rfl, hown⟩
    | put metadata listens => exact absurd hundisturbed id
    | unlink => exact absurd hundisturbed id
    | close id =>
        obtain ⟨-, rfl⟩ := step_close hstep
        exact absurd hnode hgone

/-- **Listeners stay reachable exactly as long as no bind comes under a reclaim**: in a run
without such a bind nothing but stale sockets is reclaimed, and after one the process that
has bound the path can lose it. -/
theorem bindUnix_keeps_listeners (ι : Type*) [DecidableEq ι] :
    (∀ w : World ι, ((bindMachine ι).restrict BindsApart).Reachable w → KeepsListeners w) ∧
      ∀ (w : World ι) a w', w.step a = some w' → ¬BindsApart w a →
        ∃ p q, ∃ (calls : List Call) (w'' : World ι), Machine.exec World.step w' (calls.map (Action.call q)) = some w'' ∧
          p ≠ q ∧ w''.procs p = .listening w.kernel.next ∧ w''.kernel.path = none := by
  refine ⟨fun w h => keepsListeners h, ?_⟩
  intro w a w' hstep hbind
  exact orphaned_of_binds (not_not.mp hbind) hstep

/-! ### Two runs -/

namespace Run

/-- Find a stale socket and get to its removal. -/
def approach (p : Fin 2) (metadata : Metadata) : List (Action (Fin 2)) :=
  [.call p (.bind (.error .addrInUse)), .call p (.symlinkMetadata (.ok metadata)),
    .call p (.connect (some (.error .connectionRefused))),
    .call p (.symlinkMetadata (.ok metadata))]

/-- Remove it and bind the path. -/
def replace (p : Fin 2) (metadata : Metadata) : List (Action (Fin 2)) :=
  [.call p (.removeFile (.ok ())), .call p (.bind (.ok metadata))]

/-- A socket left by an earlier process. -/
def left : Metadata := ⟨true, 1, 7⟩

/-- The socket that takes its place. -/
def fresh : Metadata := ⟨true, 1, 8⟩

end Run

/-- A test that only calls of the processes pass. -/
def isCall (_ : World (Fin 2)) : Action (Fin 2) → Bool
  | .call _ _ => true
  | _ => false

theorem undisturbed_of_isCall (w : World (Fin 2)) (a : Action (Fin 2)) (h : isCall w a = true) :
    Undisturbed w a := by
  cases a with
  | call p call => trivial
  | _ => exact absurd h Bool.false_ne_true

/-- The same for calls that bind no path under a reclaim. -/
def isCallApart (w : World (Fin 2)) (a : Action (Fin 2)) : Bool :=
  isCall w a &&
    match a with
    | .call _ (.bind (.ok metadata)) => decide (∀ q, (w.procs q).armed metadata = false)
    | _ => true

theorem apart_of_isCallApart (w : World (Fin 2)) (a : Action (Fin 2))
    (h : isCallApart w a = true) : BindsApart w a ∧ Undisturbed w a := by
  obtain ⟨hcall, hapart⟩ := Bool.and_eq_true_iff.mp h
  refine ⟨?_, undisturbed_of_isCall w a hcall⟩
  intro ⟨p, metadata, ha, q, harmed⟩
  subst ha
  have hnone := of_decide_eq_true hapart q
  rw [hnone] at harmed
  exact absurd harmed Bool.false_ne_true

theorem initial_stale : (World.idle (some ⟨0, Run.left⟩)).Initial := by
  apply initial_idle
  intro node hnode
  rw [← Option.some.inj hnode]

/-- One process reclaims a stale socket and listens. -/
theorem bindUnix_keeps_listeners_reclaimed : ∃ w : World (Fin 2),
    w.procs 0 = .listening 1 ∧ KeepsListeners w := by
  let run := Run.approach 0 Run.left ++ Run.replace 0 Run.fresh
  have hrun : (Machine.execWhile isCallApart World.step
      (World.idle (some ⟨0, Run.left⟩)) run).any (fun w => w.procs 0 == .listening 1) = true := by
    decide
  obtain ⟨w, hw, hp⟩ := (Option.any_eq_true _ _).mp hrun
  have hreach : ((bindMachine (Fin 2)).restrict BindsApart).Reachable w := by
    rw [bindMachine, Machine.restrict_restrict]
    exact Machine.restrict_reachable_of_exec apart_of_isCallApart run initial_stale hw
  exact ⟨w, beq_iff_eq.mp hp, (bindUnix_keeps_listeners (Fin 2)).1 w hreach⟩

/-- Two processes find the same stale socket.  Process 1 removes it and listens, and then
process 0 removes the socket of process 1. -/
theorem bindUnix_removes_listener : ∃ w w' : World (Fin 2),
    (bindMachine (Fin 2)).Reachable w ∧ w.procs 0 = .unlink ∧ w.procs 1 = .listening 1 ∧
      w.kernel.path = some ⟨1, Run.fresh⟩ ∧ w.kernel.live ⟨1, Run.fresh⟩ = true ∧
      (bindMachine (Fin 2)).step w (.call 0 (.removeFile (.ok ()))) w' ∧
      w'.kernel.path = none ∧ w'.procs 1 = .listening 1 := by
  let run := Run.approach 0 Run.left ++ Run.approach 1 Run.left ++ Run.replace 1 Run.fresh
  have hrun : (Machine.execWhile isCall World.step (World.idle (some ⟨0, Run.left⟩)) run).any
      (fun w => w.procs 0 == .unlink && w.procs 1 == .listening 1 &&
        w.kernel.path == some ⟨1, Run.fresh⟩ && w.kernel.live ⟨1, Run.fresh⟩) = true := by
    decide
  obtain ⟨w, hw, hp⟩ := (Option.any_eq_true _ _).mp hrun
  simp only [Bool.and_eq_true, beq_iff_eq] at hp
  obtain ⟨⟨⟨h0, h1⟩, hpath⟩, hlive⟩ := hp
  refine ⟨w, w.moved 0 w.kernel.remove .rebind, ?_, h0, h1, hpath, hlive, ?_, rfl, ?_⟩
  · exact Machine.restrict_reachable_of_exec undisturbed_of_isCall run initial_stale hw
  · exact ⟨trivial, step_unlink h0 hpath⟩
  · rw [moved_procs, Function.update_of_ne (by decide), h1]

end Keyring.Cli.Platform
