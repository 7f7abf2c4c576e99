/-
What dropping a `Listener` removes.

`drop` keeps no record of the socket it made; it removes whatever the path names.  Nothing
takes the place of that socket as long as nobody puts anything on the path while a
`Listener` exists, and then a drop removes its own socket or finds nothing.  Something put
there is what the drop removes.
-/
import Keyring.Proofs.Cli.Platform.Moves

namespace Keyring.Cli.Platform

variable {ι : Type*} {p q : ι} {id : Nat} {k k' : Kernel ι} {pc pc' : Pc} {call : Call}
  {w w' : World ι} {a : Action ι} {node : Node}

/-- The step puts an object on the path. -/
def Action.places : Action ι → Prop
  | .call _ (.bind (.ok _)) => True
  | .put _ _ => True
  | _ => False

/-- The step puts an object on the path while some process has a `Listener`. -/
def PlacesUnderListener (w : World ι) (a : Action ι) : Prop :=
  a.places ∧ ∃ p id, w.procs p = .listening id

/-- The step leaves the path of a `Listener` to that listener. -/
def LeavesListeners (w : World ι) (a : Action ι) : Prop := ¬PlacesUnderListener w a

/-- The path of a `Listener` names its own socket or nothing. -/
def OwnOrNothing (w : World ι) : Prop :=
  ∀ p id node, w.procs p = .listening id → w.kernel.path = some node → node.id = id

/-! ### The invariant -/

variable [DecidableEq ι]

theorem OwnOrNothing.moved (hI : OwnOrNothing w) (hleaves : LeavesListeners w (.call p call))
    (hm : Move p w.kernel (w.procs p) call k' pc') : OwnOrNothing (w.moved p k' pc') := by
  intro q id node hlistening hnode
  rw [moved_procs] at hlistening
  by_cases hqp : q = p
  · subst hqp
    rw [Function.update_self] at hlistening
    obtain ⟨metadata, hpath, -⟩ := hm.enters_listening hlistening
    have hsame : some node = some ⟨id, metadata⟩ := hnode.symm.trans hpath
    rw [Option.some.inj hsame]
  · rw [Function.update_of_ne hqp] at hlistening
    rcases hm.path_cases hnode with hbefore | ⟨metadata, rfl, -⟩
    · exact hI q id node hlistening hbefore
    · exact absurd ⟨trivial, q, id, hlistening⟩ hleaves

theorem ownOrNothing (h : ((pathMachine ι).restrict LeavesListeners).Reachable w) :
    OwnOrNothing w := by
  refine h.invariant ?_ ?_
  · intro w hinit p id node hlistening _
    rw [hinit.binding p] at hlistening
    exact absurd hlistening (by simp)
  · intro w w' a _ hI ⟨hleaves, hstep⟩
    cases a with
    | call p call =>
        obtain ⟨k', pc', hm, rfl⟩ := step_call hstep
        exact hI.moved hleaves hm
    | put metadata listens =>
        obtain rfl := Option.some.inj hstep
        intro p id node hlistening _
        exact absurd ⟨trivial, p, id, hlistening⟩ hleaves
    | unlink =>
        obtain rfl := Option.some.inj hstep
        intro p id node _ hnode
        exact absurd hnode (by simp)
    | close id =>
        obtain ⟨-, rfl⟩ := step_close hstep
        exact hI

/-! ### An object in the way -/

/-- A drop removes whatever is there. -/
theorem step_drop (hpc : w.procs q = .listening id) (hnode : w.kernel.path = some node) :
    w.step (.call q (.removeFile (.ok ()))) = some (w.moved q w.kernel.remove (.closing id)) := by
  have hmay : w.kernel.mayRemove (.ok ()) = true := by rw [Kernel.mayRemove, hnode]; rfl
  rw [World.step, hpc, advance, if_pos hmay]
  rfl

/-- What a step puts on the path is new, and the listeners are who they were. -/
theorem of_places (hplaces : a.places) (hstep : w.step a = some w')
    (hlistening : w.procs q = .listening id) :
    (∃ metadata, w'.kernel.path = some ⟨w.kernel.next, metadata⟩) ∧
      w'.procs q = .listening id := by
  cases a with
  | call p call =>
      obtain ⟨⟨k', pc'⟩, hadvance, rfl⟩ := Option.map_eq_some_iff.mp hstep
      match call, hplaces, hadvance with
      | .bind (.ok metadata), _, hadvance =>
          obtain ⟨hpc, -, rfl, rfl⟩ := advance_bind hadvance
          have hqp : q ≠ p := by
            intro h
            rw [← h, hlistening] at hpc
            rcases hpc with hpc | hpc <;> exact absurd hpc (by simp)
          refine ⟨⟨metadata, rfl⟩, ?_⟩
          rw [moved_procs, Function.update_of_ne hqp, hlistening]
  | put metadata listens =>
      obtain rfl := Option.some.inj hstep
      exact ⟨⟨metadata, rfl⟩, hlistening⟩
  | unlink => exact absurd hplaces (fun h => h)
  | close i => exact absurd hplaces (fun h => h)

/-- An object put under a `Listener` is one its drop can remove. -/
theorem removed_of_places (hO : Owned w) (hplaces : PlacesUnderListener w a)
    (hstep : w.step a = some w') :
    ∃ q id node w'', w'.procs q = .listening id ∧ w'.kernel.path = some node ∧ node.id ≠ id ∧
      w'.step (.call q (.removeFile (.ok ()))) = some w'' ∧ w''.kernel.path = none := by
  obtain ⟨hput, q, id, hlistening⟩ := hplaces
  obtain ⟨⟨metadata, hpath⟩, hstill⟩ := of_places hput hstep hlistening
  refine ⟨q, id, ⟨w.kernel.next, metadata⟩, _, hstill, hpath, ?_, step_drop hstill hpath, rfl⟩
  intro hid
  apply hO.not_next q
  rw [hlistening]
  exact congrArg some hid.symm

/-! ### In every run -/

/-- What the drop of a `Listener` takes off the path is the socket the listener made. -/
def DropsOwn (w : World ι) : Prop :=
  ∀ p id answer w' node, w.procs p = .listening id →
    w.step (.call p (.removeFile answer)) = some w' → w.kernel.path = some node →
      w'.kernel.path ≠ some node → node.id = id

/-- **A drop removes its own socket exactly as long as nothing takes its place**: in a run
that puts nothing on the path of a `Listener` every drop does, and after a step that puts
something there a drop can remove that. -/
theorem drop_removes_own (ι : Type*) [DecidableEq ι] :
    (∀ w : World ι, ((pathMachine ι).restrict LeavesListeners).Reachable w → DropsOwn w) ∧
      ∀ (w : World ι) a w', (pathMachine ι).Reachable w → w.step a = some w' →
        ¬LeavesListeners w a →
          ∃ q id node w'', w'.procs q = .listening id ∧ w'.kernel.path = some node ∧
            node.id ≠ id ∧ w'.step (.call q (.removeFile (.ok ()))) = some w'' ∧
              w''.kernel.path = none := by
  constructor
  · intro w h p id answer w' node hlistening _ hnode _
    exact ownOrNothing h p id node hlistening hnode
  · intro w a w' hr hstep hplaces
    exact removed_of_places (owned hr) (not_not.mp hplaces) hstep

/-! ### Two runs -/

theorem initial_empty : (World.idle none).Initial := initial_idle (by simp)

namespace Run

/-- A socket that a process makes. -/
def socket : Metadata := ⟨true, 1, 7⟩

/-- Bind an empty path. -/
def bind (p : Fin 2) : Action (Fin 2) := .call p (.bind (.ok socket))

/-- Drop the `Listener`, which finds its path or does not. -/
def drop (p : Fin 2) (answer : Except ErrorKind Unit) : List (Action (Fin 2)) :=
  [.call p (.removeFile answer), .call p .close]

end Run

/-- Whether a process has a `Listener`. -/
def Pc.listens : Pc → Bool
  | .listening _ => true
  | _ => false

/-- A test of the condition. -/
def noListener (w : World (Fin 2)) : Action (Fin 2) → Bool
  | .call _ (.bind (.ok _)) => decide (∀ p, (w.procs p).listens = false)
  | .put _ _ => false
  | _ => true

theorem leaves_of_noListener (w : World (Fin 2)) (a : Action (Fin 2))
    (h : noListener w a = true) : LeavesListeners w a := by
  intro ⟨hplaces, p, id, hlistening⟩
  match a, hplaces with
  | .call _ (.bind (.ok _)), _ =>
      have hnone := of_decide_eq_true h p
      rw [hlistening] at hnone
      exact absurd hnone.symm Bool.false_ne_true
  | .put _ _, _ => exact absurd h Bool.false_ne_true

/-- Another program takes the socket of process 0 away.  Process 1 binds the path once
process 0 has dropped its `Listener`. -/
theorem drop_removes_own_twice : ∃ w : World (Fin 2),
    w.procs 0 = .dropped ∧ w.procs 1 = .listening 2 ∧ DropsOwn w := by
  let run := Run.bind 0 :: .unlink :: Run.drop 0 (.error .notFound) ++ [Run.bind 1]
  have hrun : (Machine.execWhile noListener World.step (World.idle none) run).any
      (fun w => w.procs 0 == .dropped && w.procs 1 == .listening 2) = true := by decide
  obtain ⟨w, hw, hp⟩ := (Option.any_eq_true _ _).mp hrun
  simp only [Bool.and_eq_true, beq_iff_eq] at hp
  have hreach : ((pathMachine (Fin 2)).restrict LeavesListeners).Reachable w :=
    Machine.restrict_reachable_of_exec leaves_of_noListener run initial_empty hw
  exact ⟨w, hp.1, hp.2, (drop_removes_own (Fin 2)).1 w hreach⟩

/-- Another program takes the socket of process 0 away, and process 1 binds the path.  Then
process 0 drops its `Listener` and removes the socket of process 1, which still listens. -/
theorem drop_removes_other : ∃ w w' : World (Fin 2),
    (pathMachine (Fin 2)).Reachable w ∧ w.procs 0 = .listening 1 ∧ w.procs 1 = .listening 2 ∧
      w.kernel.path = some ⟨2, Run.socket⟩ ∧
      w.step (.call 0 (.removeFile (.ok ()))) = some w' ∧ w'.kernel.path = none ∧
      w'.procs 1 = .listening 2 ∧ w'.kernel.live ⟨2, Run.socket⟩ = true := by
  let run := [Run.bind 0, .unlink, Run.bind 1]
  have hrun : (Machine.exec World.step (World.idle none) run).any
      (fun w => w.procs 0 == .listening 1 && w.procs 1 == .listening 2 &&
        w.kernel.path == some ⟨2, Run.socket⟩ && w.kernel.live ⟨2, Run.socket⟩) = true := by
    decide
  obtain ⟨w, hw, hp⟩ := (Option.any_eq_true _ _).mp hrun
  simp only [Bool.and_eq_true, beq_iff_eq] at hp
  obtain ⟨⟨⟨h0, h1⟩, hpath⟩, hlive⟩ := hp
  refine ⟨w, _, Machine.reachable_of_exec run initial_empty hw, h0, h1, hpath,
    step_drop h0 hpath, rfl, ?_, hlive⟩
  rw [moved_procs, Function.update_of_ne (by decide), h1]

end Keyring.Cli.Platform
