/-
Starting again.

A process may end at any point of its code, killed or by itself, and leave its socket behind.
As long as nobody but such processes puts anything on the path, what is there is a socket of
one of them, and it is in use exactly as long as that process has it open.  So the next one to
start comes to listen, unless another still does.
-/
import Keyring.Lib.Parties
import Keyring.Proofs.Cli.Platform.Alone

namespace Keyring.Cli.Platform

variable {ι : Type*} {p q : ι} {k k' : Kernel ι} {pc pc' : Pc} {call : Call} {node : Node}
  {w₀ w w' : World ι} {a : Action ι}

/-- No other program puts anything on the path. -/
def NoneElsePuts (_ : World ι) : Action ι → Prop
  | .put _ _ => False
  | _ => True

/-- What is on the path is a socket, and not in use by another program. -/
def Kernel.Ours (k : Kernel ι) : Prop :=
  ∀ node, k.path = some node → node.metadata.isSocket = true ∧ k.owner node.id ≠ some .other

/-- Some process has the socket on the path open. -/
def Served (w : World ι) : Prop :=
  ∃ q node, w.kernel.path = some node ∧ (w.procs q).socket = some node.id

/-! ### The path of a run -/

theorem ours_of_free (h : k.occupied = false) : k.Ours := by
  intro node hpath
  obtain ⟨hsocket, hstale⟩ := stale_of_free h hpath
  refine ⟨hsocket, fun howner => ?_⟩
  rw [Kernel.live, hsocket, howner] at hstale
  cases hstale

theorem Kernel.Ours.close (h : k.Ours) (id : Nat) : (k.close id).Ours := by
  intro node hpath
  obtain ⟨hsocket, howner⟩ := h node hpath
  refine ⟨hsocket, ?_⟩
  rw [close_owner]
  by_cases hid : node.id = id
  · rw [hid, Function.update_self]
    simp
  · rw [Function.update_of_ne hid]
    exact howner

theorem Kernel.Ours.removeFile (h : k.Ours) (answer : Except ErrorKind Unit) :
    (k.removeFile answer).Ours := by
  intro node hpath
  rw [removeFile_owner]
  rcases removeFile_cases k answer with hk | hk
  · exact h node (hk ▸ hpath)
  · rw [hk, remove_path] at hpath
    cases hpath

/-- A call leaves only sockets of processes on the path. -/
theorem Move.ours (hm : Move p k pc call k' pc') (h : k.Ours) : k'.Ours := by
  cases hm with
  | bound hpc hpath hsocket =>
      intro node hnode
      obtain rfl := Option.some.inj hnode
      refine ⟨hsocket, ?_⟩
      rw [create_owner, Function.update_self]
      simp
  | looked hlooked => exact h
  | reclaimed hmay | released hmay => exact h.removeFile _
  | closed hopen hdone => exact h.close _

/-- Such a path is in use where a process has its socket open. -/
theorem occupied_iff (hO : Owned w) (hours : w.kernel.Ours) :
    w.kernel.occupied = true ↔ Served w := by
  rw [Kernel.occupied, Option.any_eq_true]
  constructor
  · rintro ⟨node, hpath, hnode⟩
    obtain ⟨hsocket, hother⟩ := hours node hpath
    have hlive : (w.kernel.owner node.id).isSome = true := by
      simpa [Kernel.live, hsocket] using hnode
    obtain ⟨owner, howner⟩ := Option.isSome_iff_exists.mp hlive
    cases owner with
    | process q => exact ⟨q, node, hpath, (hO.owner q node.id).mpr howner⟩
    | other => exact absurd howner hother
  · rintro ⟨q, node, hpath, hopen⟩
    refine ⟨node, hpath, ?_⟩
    rw [Kernel.live, (hO.owner q node.id).mp hopen]
    cases node.metadata.isSocket <;> rfl

variable [DecidableEq ι]

theorem step_ours (h : w.kernel.Ours) (hputs : NoneElsePuts w a) (hstep : w.step a = some w') :
    w'.kernel.Ours := by
  cases a with
  | call p call =>
      obtain ⟨k', pc', hm, rfl⟩ := step_call hstep
      exact hm.ours h
  | put metadata listens => exact hputs.elim
  | unlink =>
      obtain rfl := Option.some.inj hstep
      intro node hpath
      cases hpath
  | close id =>
      obtain ⟨-, rfl⟩ := step_close hstep
      exact h.close id

/-! ### The next start -/

/-- **The next process to start comes to listen, unless another one still has the socket on
the path open**, whatever happened before, as long as no other program put anything there. -/
theorem restart_listens (hinit : w₀.Initial) (hfree : w₀.kernel.occupied = false)
    (hleads : ((pathMachine ι).restrict NoneElsePuts).Leads w₀ w) (hp : w.procs p = .bind) :
    ((pathMachine ι).restrict (Plainly p)).Inevitable
      (fun w' =>
        (¬Served w → ∃ metadata, w'.procs p = .listening w.kernel.next ∧
          w'.kernel.path = some ⟨w.kernel.next, metadata⟩) ∧
        (Served w → w'.procs p = .failed .addrInUse ∧ w'.kernel = w.kernel)) w := by
  have hours : w.kernel.Ours := by
    refine hleads.keeps (I := fun w => w.kernel.Ours) ?_ (ours_of_free hfree)
    rintro v v' a hours ⟨hputs, hstep⟩
    exact step_ours hours hputs hstep
  have hO : Owned w := owned ⟨w₀, hinit, hleads.of_restrict⟩
  have hserved := occupied_iff hO hours
  cases hoccupied : w.kernel.occupied with
  | false =>
      have hnot : ¬Served w := fun h => by
        rw [hserved.mpr h] at hoccupied
        cases hoccupied
      refine (inevitable_of_free hp hoccupied).mono fun w' hbound => ?_
      obtain ⟨metadata, hlistening, hpath, -⟩ := hbound.free hoccupied
      exact ⟨fun _ => ⟨metadata, hlistening, hpath⟩, fun h => absurd h hnot⟩
  | true =>
      refine (inevitable_of_occupied hp hoccupied).mono fun w' hbound => ?_
      exact ⟨fun h => absurd (hserved.mp hoccupied) h, fun _ => hbound.occupied hoccupied⟩

/-- A process is killed while it listens. -/
theorem restart_listens_killed : ∃ w w' : World (Fin 2),
    ((pathMachine (Fin 2)).restrict NoneElsePuts).Leads w w' ∧
      w'.kernel.path = some ⟨1, ⟨true, 1, 7⟩⟩ ∧ ¬Served w' ∧
        ((pathMachine (Fin 2)).restrict (Plainly 1)).Inevitable
          (fun w'' =>
            (¬Served w' → ∃ metadata, w''.procs 1 = .listening w'.kernel.next ∧
              w''.kernel.path = some ⟨w'.kernel.next, metadata⟩) ∧
            (Served w' → w''.procs 1 = .failed .addrInUse ∧ w''.kernel = w'.kernel)) w' := by
  have hbound := (Machine.Leads.refl (World.idle none)).step
    (m := (pathMachine (Fin 2)).restrict NoneElsePuts)
    (a := .call 0 (.bind (.ok ⟨true, 1, 7⟩))) ⟨trivial, rfl⟩
  have hkilled := hbound.step (a := Action.call (0 : Fin 2) .crash) ⟨trivial, rfl⟩
  refine ⟨_, _, hkilled, rfl, ?_, restart_listens (initial_idle (by simp)) rfl hkilled rfl⟩
  rintro ⟨q, node, -, hopen⟩
  match q with
  | 0 => cases hopen
  | 1 => cases hopen

end Keyring.Cli.Platform
