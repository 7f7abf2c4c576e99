/-
What one system call can do.

`Move` says it once, so that no proof about the path looks at the code again.  A call
binds the path, removes what is on it, closes a socket, or only looks; looking is what
takes a process towards a removal, and `Looked` keeps what it has seen on the way.

The record that comes with it is who listens on what: the kernel's owner of a socket is
the process whose place says that it has the socket open.
-/
import Keyring.Cli.Platform

namespace Keyring.Cli.Platform

variable {ι : Type*} {p q : ι} {id : Nat} {metadata : Metadata} {k k' : Kernel ι} {pc pc' : Pc} {call : Call} {w w' : World ι}
  {a : Action ι} {node : Node}

/-! ### Answers -/

theorem mayBind_ok {metadata : Metadata} :
    k.mayBind (.ok metadata) = true ↔ k.path = none ∧ metadata.isSocket = true := by
  simp [Kernel.mayBind]

theorem mayInspect_ok {metadata : Metadata} :
    k.mayInspect (.ok metadata) = true ↔ ∃ node, k.path = some node ∧ node.metadata = metadata := by
  simp [Kernel.mayInspect]

/-- A refused probe has met no listener. -/
theorem not_live_of_refused (h : k.mayConnect (some (.error .connectionRefused)) = true)
    (hnode : k.path = some node) : k.live node = false := by
  simpa [Kernel.mayConnect, hnode] using h

theorem removeFile_cases (k : Kernel ι) (answer : Except ErrorKind Unit) :
    k.removeFile answer = k ∨ k.removeFile answer = k.remove := by
  cases answer with
  | ok _ => exact Or.inr rfl
  | error _ => exact Or.inl rfl

/-! ### Kernel operations -/

@[simp] theorem create_path (metadata : Metadata) (owner : Option (Owner ι)) :
    (k.create metadata owner).path = some ⟨k.next, metadata⟩ := rfl

@[simp] theorem create_owner (metadata : Metadata) (owner : Option (Owner ι)) :
    (k.create metadata owner).owner = Function.update k.owner k.next owner := rfl

@[simp] theorem remove_path : k.remove.path = none := rfl
@[simp] theorem remove_owner : k.remove.owner = k.owner := rfl
@[simp] theorem close_path : (k.close id).path = k.path := rfl
@[simp] theorem close_owner : (k.close id).owner = Function.update k.owner id none := rfl

@[simp] theorem removeFile_owner (answer : Except ErrorKind Unit) :
    (k.removeFile answer).owner = k.owner := by
  rcases removeFile_cases k answer with h | h <;> rw [h]
  rfl

namespace Kernel.Counted

theorem create (h : k.Counted) (metadata : Metadata) (owner : Option (Owner ι)) :
    (k.create metadata owner).Counted := by
  constructor
  · intro node hnode
    obtain rfl := Option.some.inj hnode
    exact Nat.lt_succ_self k.next
  · intro id hid
    have hlt : k.next < id := hid
    rw [create_owner, Function.update_of_ne (Nat.ne_of_gt hlt)]
    exact h.fresh id (Nat.le_of_lt hlt)

theorem remove (h : k.Counted) : k.remove.Counted :=
  ⟨fun _ hnode => absurd hnode (by simp), h.fresh⟩

theorem removeFile (h : k.Counted) (answer : Except ErrorKind Unit) :
    (k.removeFile answer).Counted := by
  rcases removeFile_cases k answer with hk | hk <;> rw [hk]
  · exact h
  · exact h.remove

theorem close (h : k.Counted) (id : Nat) : (k.close id).Counted := by
  refine ⟨h.taken, ?_⟩
  intro i hi
  rw [close_owner]
  by_cases hid : i = id
  · rw [hid, Function.update_self]
  · rw [Function.update_of_ne hid]
    exact h.fresh i hi

end Kernel.Counted

/-- Closing a socket gives none a listener. -/
theorem close_not_live (h : k.live node = false) (id : Nat) : (k.close id).live node = false := by
  rw [Kernel.live, close_owner]
  by_cases hid : node.id = id
  · rw [hid, Function.update_self, Option.isSome_none, Bool.and_false]
  · rw [Function.update_of_ne hid]
    exact h

/-! ### Moves -/

/-- A step that leaves the kernel alone, and what it has seen if it leads towards a
removal. -/
structure Looked (k : Kernel ι) (pc pc' : Pc) : Prop where
  before : pc.socket = none
  after : pc'.socket = none
  recheck : ∀ original, pc' = .recheck original →
    ∀ node, k.path = some node → k.live node = false
  unlink : pc' = .unlink → ∃ original node, pc = .recheck original ∧ k.path = some node ∧
    node.metadata.isSocket = true ∧ original.dev = node.metadata.dev ∧
      original.ino = node.metadata.ino

/-- What a call of process `p` does to the kernel and to the process. -/
inductive Move (p : ι) (k : Kernel ι) : Pc → Call → Kernel ι → Pc → Prop
  | bound {pc : Pc} {metadata : Metadata} (hpc : pc = .bind ∨ pc = .rebind)
      (hfree : k.path = none) (hsocket : metadata.isSocket = true) :
      Move p k pc (.bind (.ok metadata)) (k.create metadata (some (.process p)))
        (.listening k.next)
  | looked {pc pc' : Pc} {call : Call} (h : Looked k pc pc') : Move p k pc call k pc'
  | reclaimed {answer : Except ErrorKind Unit} (h : k.mayRemove answer = true) :
      Move p k .unlink (.removeFile answer) (k.removeFile answer) (removed answer)
  | released {id : Nat} {answer : Except ErrorKind Unit} (h : k.mayRemove answer = true) :
      Move p k (.listening id) (.removeFile answer) (k.removeFile answer) (.closing id)
  | closed {pc pc' : Pc} {call : Call} {id : Nat} (hpc : pc.socket = some id)
      (hpc' : pc' = .dropped ∨ pc' = .crashed) : Move p k pc call (k.close id) pc'

/-- Where a process only looks and does not get near a removal. -/
theorem Looked.of_done (hpc : pc.socket = none) (hpc' : pc'.socket = none)
    (hrecheck : ∀ original, pc' ≠ .recheck original) (hunlink : pc' ≠ .unlink) :
    Looked k pc pc' :=
  ⟨hpc, hpc', fun original h => absurd h (hrecheck original), fun h => absurd h hunlink⟩

theorem bindFailed_looked (error : ErrorKind) : Looked k .bind (bindFailed error) := by
  unfold bindFailed
  split <;> exact Looked.of_done rfl rfl (by simp) (by simp)

theorem inspected_looked (answer : Except ErrorKind Metadata) :
    Looked k .inspect (inspected answer) := by
  unfold inspected
  split
  · split <;> exact Looked.of_done rfl rfl (by simp) (by simp)
  · exact Looked.of_done rfl rfl (by simp) (by simp)
  · exact Looked.of_done rfl rfl (by simp) (by simp)

theorem probed_looked {original : Metadata} {answer : Option (Except ErrorKind Unit)}
    (h : k.mayConnect answer = true) : Looked k (.probe original) (probed original answer) := by
  unfold probed
  split
  · exact Looked.of_done rfl rfl (by simp) (by simp)
  · refine ⟨rfl, rfl, ?_, by simp⟩
    intro _ _ node hnode
    exact not_live_of_refused h hnode
  · exact Looked.of_done rfl rfl (by simp) (by simp)
  · exact Looked.of_done rfl rfl (by simp) (by simp)
  · exact Looked.of_done rfl rfl (by simp) (by simp)

theorem rechecked_looked {original : Metadata} {answer : Except ErrorKind Metadata}
    (h : k.mayInspect answer = true) :
    Looked k (.recheck original) (rechecked original answer) := by
  unfold rechecked
  split
  · rename_i current
    split
    · exact Looked.of_done rfl rfl (by simp) (by simp)
    · rename_i hsame
      obtain ⟨node, hnode, rfl⟩ := mayInspect_ok.mp h
      refine ⟨rfl, rfl, by simp, fun _ => ⟨original, node, rfl, hnode, ?_⟩⟩
      simpa [and_assoc] using hsame
  · exact Looked.of_done rfl rfl (by simp) (by simp)
  · exact Looked.of_done rfl rfl (by simp) (by simp)

theorem removed_socket (answer : Except ErrorKind Unit) : (removed answer).socket = none := by
  unfold removed
  split <;> rfl

theorem exit_move (p : ι) (k : Kernel ι) (pc : Pc) : Move p k pc .crash (k.exit pc) .crashed := by
  cases hpc : pc.socket with
  | none =>
      have hexit : k.exit pc = k := by rw [Kernel.exit, hpc]
      rw [hexit]
      exact Move.looked (Looked.of_done hpc rfl (by simp) (by simp))
  | some id =>
      have hexit : k.exit pc = k.close id := by rw [Kernel.exit, hpc]
      rw [hexit]
      exact Move.closed hpc (Or.inr rfl)

theorem of_answer {may : Bool} {result : Kernel ι × Pc}
    (h : (if may then some result else none) = some (k', pc')) :
    may = true ∧ result.1 = k' ∧ result.2 = pc' := by
  obtain ⟨hmay, hresult⟩ := Option.ite_none_right_eq_some.mp h
  obtain rfl := Option.some.inj hresult
  exact ⟨hmay, rfl, rfl⟩

theorem of_some {result : Kernel ι × Pc} (h : some result = some (k', pc')) :
    result.1 = k' ∧ result.2 = pc' := Prod.mk.inj (Option.some.inj h)

/-- **Every system call is one of the moves.** -/
theorem advance_move (h : advance p k pc call = some (k', pc')) : Move p k pc call k' pc' := by
  unfold advance at h
  split at h
  · obtain ⟨hmay, rfl, rfl⟩ := of_answer h
    obtain ⟨hfree, hsocket⟩ := mayBind_ok.mp hmay
    exact Move.bound (Or.inl rfl) hfree hsocket
  · obtain ⟨rfl, rfl⟩ := of_some h
    exact Move.looked (bindFailed_looked _)
  · obtain ⟨-, rfl, rfl⟩ := of_answer h
    exact Move.looked (inspected_looked _)
  · obtain ⟨hmay, rfl, rfl⟩ := of_answer h
    exact Move.looked (probed_looked hmay)
  · obtain ⟨hmay, rfl, rfl⟩ := of_answer h
    exact Move.looked (rechecked_looked hmay)
  · obtain ⟨hmay, rfl, rfl⟩ := of_answer h
    exact Move.reclaimed hmay
  · obtain ⟨hmay, rfl, rfl⟩ := of_answer h
    obtain ⟨hfree, hsocket⟩ := mayBind_ok.mp hmay
    exact Move.bound (Or.inr rfl) hfree hsocket
  · obtain ⟨rfl, rfl⟩ := of_some h
    exact Move.looked (Looked.of_done rfl rfl (by simp) (by simp))
  · obtain ⟨hmay, rfl, rfl⟩ := of_answer h
    exact Move.released hmay
  · obtain ⟨rfl, rfl⟩ := of_some h
    exact Move.closed rfl (Or.inl rfl)
  · obtain ⟨rfl, rfl⟩ := of_some h
    exact exit_move p k pc
  · exact absurd h (by simp)

/-- What a call leaves on the path: what was there, or the socket it has bound. -/
theorem Move.path_cases (h : Move p k pc call k' pc') (hnode : k'.path = some node) :
    k.path = some node ∨ ∃ metadata, call = .bind (.ok metadata) ∧ node = ⟨k.next, metadata⟩ := by
  cases h with
  | bound hpc hfree hsocket =>
      have heq : _ = node := Option.some.inj hnode
      exact Or.inr ⟨_, rfl, heq.symm⟩
  | looked hlooked => exact Or.inl hnode
  | reclaimed hmay | released hmay =>
      rename_i answer
      rcases removeFile_cases k answer with hk | hk
      · rw [hk] at hnode
        exact Or.inl hnode
      · rw [hk] at hnode
        exact absurd hnode (by simp)
  | closed hopen hdone => exact Or.inl hnode

/-- A process starts to listen only by binding the path. -/
theorem Move.enters_listening (h : Move p k pc call k' pc') (hpc' : pc' = .listening id) :
    ∃ metadata, k'.path = some ⟨id, metadata⟩ ∧ metadata.isSocket = true := by
  have hsome : pc'.socket = some id := by rw [hpc']; rfl
  cases h with
  | bound hpc hfree hsocket =>
      obtain rfl := Pc.listening.inj hpc'
      exact ⟨_, rfl, hsocket⟩
  | looked hlooked =>
      rw [hlooked.after] at hsome
      exact absurd hsome (by simp)
  | reclaimed hmay =>
      rw [removed_socket] at hsome
      exact absurd hsome (by simp)
  | released hmay => exact absurd hpc' (by simp)
  | closed hopen hdone =>
      subst hpc'
      rcases hdone with h | h <;> exact absurd h (by simp)

/-- What a successful `bind` does. -/
theorem advance_bind (h : advance p k pc (.bind (.ok metadata)) = some (k', pc')) :
    (pc = .bind ∨ pc = .rebind) ∧ metadata.isSocket = true ∧
      k' = k.create metadata (some (.process p)) ∧ pc' = .listening k.next := by
  cases pc with
  | bind =>
      obtain ⟨hmay, rfl, rfl⟩ := of_answer h
      exact ⟨Or.inl rfl, (mayBind_ok.mp hmay).2, rfl, rfl⟩
  | rebind =>
      obtain ⟨hmay, rfl, rfl⟩ := of_answer h
      exact ⟨Or.inr rfl, (mayBind_ok.mp hmay).2, rfl, rfl⟩
  | _ => exact absurd h (by simp [advance])

/-! ### Who listens on what -/

/-- The kernel's record of a socket agrees with the processes. -/
structure Owned (w : World ι) : Prop where
  owner : ∀ p id, (w.procs p).socket = some id ↔ w.kernel.owner id = some (.process p)
  counted : w.kernel.Counted

/-- An open socket has an identity that has been given out. -/
theorem Owned.lt_next (hI : Owned w) (h : (w.procs p).socket = some id) :
    id < w.kernel.next := by
  by_contra hge
  have hnone := hI.counted.fresh id (Nat.le_of_not_lt hge)
  have howner := (hI.owner p id).mp h
  rw [hnone] at howner
  exact absurd howner (by simp)

/-- No two processes have one socket open. -/
theorem Owned.unique (hI : Owned w) (hp : (w.procs p).socket = some id)
    (hq : (w.procs q).socket = some id) : p = q := by
  have howner := (hI.owner p id).mp hp
  rw [(hI.owner q id).mp hq] at howner
  exact (Owner.process.inj (Option.some.inj howner)).symm

/-- A change to a socket that no process has open keeps the record. -/
theorem Owned.owner_foreign (hI : Owned w) {i : Nat} {o : Option (Owner ι)}
    (hnone : ∀ q, (w.procs q).socket ≠ some i) (ho : ∀ q, o ≠ some (.process q)) (q : ι) (id : Nat) :
    (w.procs q).socket = some id ↔ Function.update w.kernel.owner i o id = some (.process q) := by
  by_cases hid : id = i
  · subst hid
    rw [Function.update_self]
    exact ⟨fun h => absurd h (hnone q), fun h => absurd h (ho q)⟩
  · rw [Function.update_of_ne hid]
    exact hI.owner q id

theorem Owned.not_next (hI : Owned w) (q : ι) : (w.procs q).socket ≠ some w.kernel.next :=
  fun h => Nat.lt_irrefl _ (hI.lt_next h)

/-! ### Steps of a run -/

variable [DecidableEq ι]

@[simp] theorem moved_kernel : (w.moved p k pc).kernel = k := rfl

theorem moved_procs : (w.moved p k pc).procs = Function.update w.procs p pc := rfl

theorem step_call (h : w.step (.call p call) = some w') :
    ∃ k' pc', Move p w.kernel (w.procs p) call k' pc' ∧ w' = w.moved p k' pc' := by
  obtain ⟨⟨k', pc'⟩, hadvance, hw⟩ := Option.map_eq_some_iff.mp h
  exact ⟨k', pc', advance_move hadvance, hw.symm⟩

theorem step_close (h : w.step (.close id) = some w') :
    w.kernel.owner id = some .other ∧ w' = { w with kernel := w.kernel.close id } := by
  obtain ⟨howner, hw⟩ := Option.ite_none_right_eq_some.mp h
  exact ⟨howner, (Option.some.inj hw).symm⟩

/-- So does a step that opens and closes nothing, -/
theorem Owned.owner_kept (hI : Owned w) (hsocket : pc'.socket = (w.procs p).socket) (q : ι) (id : Nat) :
    (Function.update w.procs p pc' q).socket = some id ↔ w.kernel.owner id = some (.process q) := by
  rw [← hI.owner q id]
  by_cases hqp : q = p
  · subst hqp
    rw [Function.update_self, hsocket]
  · rw [Function.update_of_ne hqp]

/-- and one that opens or closes a socket `i` of the process that takes it. -/
theorem Owned.owner_set (hI : Owned w) {i : Nat} {o : Option (Owner ι)}
    (hown : ∀ id, (w.procs p).socket = some id → id = i)
    (hothers : ∀ q, (w.procs q).socket = some i → q = p)
    (ho : o = none ∧ pc'.socket = none ∨ o = some (.process p) ∧ pc'.socket = some i)
    (q : ι) (id : Nat) :
    (Function.update w.procs p pc' q).socket = some id ↔
      Function.update w.kernel.owner i o id = some (.process q) := by
  by_cases hid : id = i
  · subst hid
    rw [Function.update_self]
    by_cases hqp : q = p
    · subst hqp
      rw [Function.update_self]
      rcases ho with ⟨rfl, hpc'⟩ | ⟨rfl, hpc'⟩ <;> simp [hpc']
    · rw [Function.update_of_ne hqp]
      have hpq : p ≠ q := Ne.symm hqp
      have hnot : (w.procs q).socket ≠ some id := fun h => hqp (hothers q h)
      rcases ho with ⟨rfl, -⟩ | ⟨rfl, -⟩ <;> simp [hnot, hpq]
  · rw [Function.update_of_ne hid, ← hI.owner q id]
    by_cases hqp : q = p
    · subst hqp
      rw [Function.update_self]
      have hnot : (w.procs q).socket ≠ some id := fun h => hid (hown id h)
      have hi : i ≠ id := Ne.symm hid
      rcases ho with ⟨-, hpc'⟩ | ⟨-, hpc'⟩ <;> simp [hpc', hnot, hi]
    · rw [Function.update_of_ne hqp]

/-- A removal concerns no socket. -/
theorem Owned.removes (hI : Owned w) (hsocket : pc'.socket = (w.procs p).socket)
    (answer : Except ErrorKind Unit) : Owned (w.moved p (w.kernel.removeFile answer) pc') := by
  refine ⟨?_, hI.counted.removeFile answer⟩
  intro q id
  rw [moved_kernel, removeFile_owner]
  exact hI.owner_kept hsocket q id

/-- A call keeps the record. -/
theorem Owned.moved (hI : Owned w) (hm : Move p w.kernel (w.procs p) call k' pc') :
    Owned (w.moved p k' pc') := by
  generalize hpc : w.procs p = pc at hm
  cases hm with
  | bound hbinds hfree hsocket =>
      have hnone : pc.socket = none := by rcases hbinds with rfl | rfl <;> rfl
      refine ⟨hI.owner_set ?_ ?_ (Or.inr ⟨rfl, rfl⟩), hI.counted.create _ _⟩
      · intro id hid
        rw [hpc, hnone] at hid
        exact absurd hid (by simp)
      · intro q hq
        exact absurd hq (hI.not_next q)
  | looked hlooked =>
      refine ⟨hI.owner_kept ?_, hI.counted⟩
      rw [hpc, hlooked.before, hlooked.after]
  | reclaimed hmay =>
      apply hI.removes
      rw [hpc, removed_socket]
      rfl
  | released hmay =>
      apply hI.removes
      rw [hpc]
      rfl
  | closed hopen hdone =>
      rename_i i
      refine ⟨hI.owner_set (i := i) ?_ ?_ (Or.inl ⟨rfl, ?_⟩), hI.counted.close i⟩
      · intro id hid
        rw [hpc, hopen] at hid
        exact (Option.some.inj hid).symm
      · intro q hq
        exact hI.unique hq (by rw [hpc, hopen])
      · rcases hdone with rfl | rfl <;> rfl

/-- **The record holds in every run.** -/
theorem owned (h : (pathMachine ι).Reachable w) : Owned w := by
  refine h.invariant ?_ ?_
  · intro w hinit
    refine ⟨?_, hinit.counted⟩
    intro p id
    rw [hinit.binding p]
    exact ⟨fun h => absurd h (by simp [Pc.socket]), fun h => absurd h (hinit.strangers id p)⟩
  · intro w w' a _ hI hstep
    cases a with
    | call p call =>
        obtain ⟨k', pc', hm, rfl⟩ := step_call hstep
        exact hI.moved hm
    | put metadata listens =>
        obtain rfl := Option.some.inj hstep
        refine ⟨hI.owner_foreign hI.not_next ?_, hI.counted.create _ _⟩
        intro q
        cases listens <;> simp
    | unlink =>
        obtain rfl := Option.some.inj hstep
        exact ⟨hI.owner, hI.counted.remove⟩
    | close id =>
        obtain ⟨howner, rfl⟩ := step_close hstep
        refine ⟨hI.owner_foreign ?_ (by simp), hI.counted.close id⟩
        intro q hq
        have hother := (hI.owner q id).mp hq
        rw [howner] at hother
        exact absurd hother (by simp)

/-! ### Where runs start -/

/-- Two processes before a path, in a state where nobody listens. -/
def World.idle (path : Option Node) : World (Fin 2) :=
  ⟨⟨path, fun _ => none, 1⟩, fun _ => .bind⟩

theorem initial_idle {path : Option Node} (h : ∀ node, path = some node → node.id = 0) :
    (World.idle path).Initial := by
  refine ⟨fun _ => rfl, by simp [World.idle], ⟨?_, fun _ _ => rfl⟩⟩
  intro node hnode
  have hid := h node hnode
  show node.id < 1
  omega

end Keyring.Cli.Platform
