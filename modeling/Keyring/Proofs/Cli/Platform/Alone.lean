/-
One process alone with the path.

Several processes can get in each other's way, and the kernel may fail for reasons of its
own.  Where neither happens, `bind_unix` does what it is for: it listens where nothing is or a
socket was left behind, and it reports the path in use where something else is.  In the
second case it leaves the path alone whatever the kernel answers.
-/
import Keyring.Proofs.Cli.Platform.Moves

namespace Keyring.Cli.Platform

variable {ι : Type*} {p q : ι} {k₀ k k' : Kernel ι} {pc pc' : Pc} {call : Call} {node : Node}
  {w w' : World ι} {a : Action ι}

/-- Something is on the path that is not a socket left behind. -/
def Kernel.occupied (k : Kernel ι) : Bool :=
  k.path.any fun node => !node.metadata.isSocket || k.live node

/-- Whether a process at this place is inside `bind_unix`. -/
def Pc.binding : Pc → Bool
  | .bind | .inspect | .probe _ | .recheck _ | .unlink | .rebind => true
  | _ => false

/-- The answers of a kernel that does not fail. -/
def Plain (k : Kernel ι) : Call → Prop
  | .bind (.error error) => k.path ≠ none ∧ error = .addrInUse
  | .symlinkMetadata (.error error) | .removeFile (.error error) => error = .notFound
  | .connect (some (.error error)) => error = .connectionRefused ∨ error = .notFound
  | .connect none | .close | .crash => False
  | _ => True

/-- What a system call of `bind_unix` comes to. -/
inductive Answered (p : ι) (k : Kernel ι) : Pc → Call → Kernel ι → Pc → Prop
  | bound {metadata : Metadata} (hfree : k.path = none) :
      Answered p k .bind (.bind (.ok metadata)) (k.create metadata (some (.process p)))
        (.listening k.next)
  | unbound (error : ErrorKind) : Answered p k .bind (.bind (.error error)) k (bindFailed error)
  | inspected {answer : Except ErrorKind Metadata} (hmay : k.mayInspect answer = true) :
      Answered p k .inspect (.symlinkMetadata answer) k (inspected answer)
  | probed {original : Metadata} {answer : Option (Except ErrorKind Unit)}
      (hmay : k.mayConnect answer = true) :
      Answered p k (.probe original) (.connect answer) k (probed original answer)
  | rechecked {original : Metadata} {answer : Except ErrorKind Metadata}
      (hmay : k.mayInspect answer = true) :
      Answered p k (.recheck original) (.symlinkMetadata answer) k (rechecked original answer)
  | removed {answer : Except ErrorKind Unit} (hmay : k.mayRemove answer = true) :
      Answered p k .unlink (.removeFile answer) (k.removeFile answer) (removed answer)
  | rebound {metadata : Metadata} (hfree : k.path = none) :
      Answered p k .rebind (.bind (.ok metadata)) (k.create metadata (some (.process p)))
        (.listening k.next)
  | failed (error : ErrorKind) : Answered p k .rebind (.bind (.error error)) k (.failed error)
  | crashed {pc : Pc} : Answered p k pc .crash k .crashed

/-- A process with no socket is in `bind_unix`, or done. -/
theorem answered (hsocket : pc.socket = none) (h : advance p k pc call = some (k', pc')) :
    Answered p k pc call k' pc' := by
  unfold advance at h
  split at h
  · obtain ⟨hmay, rfl, rfl⟩ := of_answer h
    exact .bound (mayBind_ok.mp hmay).1
  · obtain ⟨rfl, rfl⟩ := of_some h
    exact .unbound _
  · obtain ⟨hmay, rfl, rfl⟩ := of_answer h
    exact .inspected hmay
  · obtain ⟨hmay, rfl, rfl⟩ := of_answer h
    exact .probed hmay
  · obtain ⟨hmay, rfl, rfl⟩ := of_answer h
    exact .rechecked hmay
  · obtain ⟨hmay, rfl, rfl⟩ := of_answer h
    exact .removed hmay
  · obtain ⟨hmay, rfl, rfl⟩ := of_answer h
    exact .rebound (mayBind_ok.mp hmay).1
  · obtain ⟨rfl, rfl⟩ := of_some h
    exact .failed _
  · cases hsocket
  · cases hsocket
  · obtain ⟨rfl, rfl⟩ := of_some h
    have hexit : k.exit pc = k := by rw [Kernel.exit, hsocket]
    rw [hexit]
    exact .crashed
  · cases h

theorem Pc.socket_of_binding (h : pc.binding = true) : pc.socket = none := by
  cases pc <;> first | rfl | cases h

theorem mayInspect_notFound (hpath : k.path = some node) :
    k.mayInspect (.error .notFound) = false := by
  rw [Kernel.mayInspect, hpath]
  rfl

/-! ### Where nothing is in the way -/

/-- Where a process stands that has found the path in the state `k₀`, nothing or a socket left
behind. -/
inductive Reclaims (p : ι) (k₀ : Kernel ι) : Kernel ι → Pc → Prop
  | bind : Reclaims p k₀ k₀ .bind
  | inspect {node : Node} (hpath : k₀.path = some node) : Reclaims p k₀ k₀ .inspect
  | probe {node : Node} (hpath : k₀.path = some node) : Reclaims p k₀ k₀ (.probe node.metadata)
  | recheck {node : Node} (hpath : k₀.path = some node) : Reclaims p k₀ k₀ (.recheck node.metadata)
  | unlink {node : Node} (hpath : k₀.path = some node) : Reclaims p k₀ k₀ .unlink
  | rebind : Reclaims p k₀ k₀.remove .rebind
  | listening (k : Kernel ι) (metadata : Metadata) (hnext : k.next = k₀.next)
      (howner : k.owner = k₀.owner) :
      Reclaims p k₀ (k.create metadata (some (.process p))) (.listening k.next)

theorem stale_of_free (hfree : k.occupied = false) (hpath : k.path = some node) :
    node.metadata.isSocket = true ∧ k.live node = false := by
  simpa [Kernel.occupied, hpath] using hfree

/-- What a system call of such a process leads to. -/
theorem Reclaims.step (h : Reclaims p k₀ k pc) (hfree : k₀.occupied = false)
    (hbinding : pc.binding = true) (hplain : Plain k call)
    (hanswered : Answered p k pc call k' pc') : Reclaims p k₀ k' pc' := by
  cases h with
  | bind =>
      cases hanswered with
      | bound _ => exact .listening k₀ _ rfl rfl
      | unbound error =>
          obtain ⟨hsome, rfl⟩ := hplain
          obtain ⟨node, hpath⟩ := Option.ne_none_iff_exists'.mp hsome
          exact .inspect hpath
      | crashed => exact hplain.elim
  | @inspect node hpath =>
      obtain ⟨hsocket, -⟩ := stale_of_free hfree hpath
      cases hanswered with
      | @inspected answer hmay =>
          cases answer with
          | ok metadata =>
              obtain ⟨node', hpath', rfl⟩ := mayInspect_ok.mp hmay
              obtain rfl := Option.some.inj (hpath.symm.trans hpath')
              rw [inspected, if_pos hsocket]
              exact .probe hpath
          | error error =>
              rw [show error = .notFound from hplain, mayInspect_notFound hpath] at hmay
              cases hmay
      | crashed => exact hplain.elim
  | @probe node hpath =>
      obtain ⟨hsocket, hstale⟩ := stale_of_free hfree hpath
      cases hanswered with
      | @probed original answer hmay =>
          rcases answer with _ | error | _
          · exact hplain.elim
          · rcases hplain with rfl | rfl
            · exact .recheck hpath
            · simp [Kernel.mayConnect, hpath, hsocket] at hmay
          · simp [Kernel.mayConnect, hpath, hsocket, hstale] at hmay
      | crashed => exact hplain.elim
  | @recheck node hpath =>
      obtain ⟨hsocket, -⟩ := stale_of_free hfree hpath
      cases hanswered with
      | @rechecked original answer hmay =>
          cases answer with
          | ok metadata =>
              obtain ⟨node', hpath', rfl⟩ := mayInspect_ok.mp hmay
              obtain rfl := Option.some.inj (hpath.symm.trans hpath')
              rw [rechecked, if_neg (by simp [hsocket])]
              exact .unlink hpath
          | error error =>
              rw [show error = .notFound from hplain, mayInspect_notFound hpath] at hmay
              cases hmay
      | crashed => exact hplain.elim
  | @unlink node hpath =>
      cases hanswered with
      | @removed answer hmay =>
          cases answer with
          | ok _ => exact .rebind
          | error error =>
              rw [show error = .notFound from hplain, Kernel.mayRemove, hpath] at hmay
              cases hmay
      | crashed => exact hplain.elim
  | rebind =>
      cases hanswered with
      | rebound _ => exact .listening k₀.remove _ rfl rfl
      | failed error => exact absurd rfl hplain.1
      | crashed => exact hplain.elim
  | listening => cases hbinding

/-- Such a process can go on. -/
theorem Reclaims.goes_on (h : Reclaims p k₀ k pc) (hfree : k₀.occupied = false)
    (hbinding : pc.binding = true) : ∃ call k' pc', Plain k call ∧
      advance p k pc call = some (k', pc') := by
  cases h with
  | bind =>
      cases hpath : k₀.path with
      | none => exact ⟨.bind (.ok ⟨true, 0, 0⟩), _, _, trivial, if_pos (mayBind_ok.mpr ⟨hpath, rfl⟩)⟩
      | some node =>
          exact ⟨.bind (.error .addrInUse), _, _, ⟨by rw [hpath]; simp, rfl⟩, rfl⟩
  | @inspect node hpath =>
      exact ⟨.symlinkMetadata (.ok node.metadata), _, _, trivial,
        if_pos (mayInspect_ok.mpr ⟨node, hpath, rfl⟩)⟩
  | @probe node hpath =>
      obtain ⟨-, hstale⟩ := stale_of_free hfree hpath
      refine ⟨.connect (some (.error .connectionRefused)), _, _, Or.inl rfl, if_pos ?_⟩
      simp [Kernel.mayConnect, hpath, hstale]
  | @recheck node hpath =>
      exact ⟨.symlinkMetadata (.ok node.metadata), _, _, trivial,
        if_pos (mayInspect_ok.mpr ⟨node, hpath, rfl⟩)⟩
  | @unlink node hpath =>
      refine ⟨.removeFile (.ok ()), _, _, trivial, if_pos ?_⟩
      simp [Kernel.mayRemove, hpath]
  | rebind =>
      have hmay : k₀.remove.mayBind (.ok ⟨true, 0, 0⟩) = true := mayBind_ok.mpr ⟨rfl, rfl⟩
      have hstep : advance p k₀.remove .rebind (.bind (.ok ⟨true, 0, 0⟩)) =
          some (k₀.remove.create ⟨true, 0, 0⟩ (some (.process p)), .listening k₀.remove.next) := by
        simp only [advance, hmay, if_true]
      exact ⟨.bind (.ok ⟨true, 0, 0⟩), _, _, trivial, hstep⟩
  | listening => cases hbinding

/-! ### Where something is in the way -/

/-- Where a process stands that has found the path in use. -/
inductive Refrains (k₀ : Kernel ι) : Pc → Prop
  | bind : Refrains k₀ .bind
  | inspect : Refrains k₀ .inspect
  | probe {node : Node} (hpath : k₀.path = some node) (hsocket : node.metadata.isSocket = true) :
      Refrains k₀ (.probe node.metadata)
  | failed (error : ErrorKind) : Refrains k₀ (.failed error)
  | crashed : Refrains k₀ .crashed

theorem Refrains.socket (h : Refrains k₀ pc) : pc.socket = none := by
  cases h <;> rfl

/-- What a system call of such a process leads to, whatever the answer. -/
theorem Refrains.step (h : Refrains k₀ pc) (hoccupied : k₀.occupied = true)
    (hanswered : Answered p k₀ pc call k' pc') : k' = k₀ ∧ Refrains k₀ pc' := by
  obtain ⟨node, hpath, hnode⟩ := (Option.any_eq_true _ _).mp hoccupied
  cases hanswered with
  | crashed => exact ⟨rfl, .crashed⟩
  | bound hfree =>
      rw [hfree] at hpath
      cases hpath
  | unbound error =>
      refine ⟨rfl, ?_⟩
      unfold bindFailed
      split
      · exact .inspect
      · exact .failed error
  | @inspected answer hmay =>
      refine ⟨rfl, ?_⟩
      cases answer with
      | ok metadata =>
          obtain ⟨node', hpath', rfl⟩ := mayInspect_ok.mp hmay
          by_cases hsocket : node'.metadata.isSocket = true
          · rw [inspected, if_pos hsocket]
            exact .probe hpath' hsocket
          · rw [inspected, if_neg hsocket]
            exact .failed _
      | error error =>
          cases error with
          | notFound =>
              rw [mayInspect_notFound hpath] at hmay
              cases hmay
          | _ => exact .failed _
  | @probed original answer hmay =>
      refine ⟨rfl, ?_⟩
      cases h with
      | @probe node' hpath' hsocket =>
          obtain rfl := Option.some.inj (hpath.symm.trans hpath')
          rcases answer with _ | error | _
          · exact .failed _
          · cases error with
            | connectionRefused =>
                -- a socket in use does not refuse
                rw [not_live_of_refused hmay hpath, hsocket] at hnode
                cases hnode
            | notFound => simp [Kernel.mayConnect, hpath, hsocket] at hmay
            | _ => exact .failed _
          · exact .failed _
  | rechecked hmay | removed hmay => cases h
  | rebound hfree | failed error => cases h

/-- Where the kernel does not fail, only the first `bind` reports the path in use. -/
theorem Refrains.plain (h : Refrains k₀ pc) (hplain : Plain k₀ call)
    (hoccupied : k₀.occupied = true) (hanswered : Answered p k₀ pc call k' pc') :
    pc'.binding = true ∨ pc' = .failed .addrInUse := by
  obtain ⟨node, hpath, hnode⟩ := (Option.any_eq_true _ _).mp hoccupied
  cases hanswered with
  | crashed => exact hplain.elim
  | bound hfree =>
      rw [hfree] at hpath
      cases hpath
  | unbound error =>
      obtain ⟨-, rfl⟩ := hplain
      exact Or.inl rfl
  | @inspected answer hmay =>
      cases answer with
      | ok metadata =>
          rw [inspected]
          split
          · exact Or.inl rfl
          · exact Or.inr rfl
      | error error =>
          rw [show error = .notFound from hplain]
          exact Or.inl rfl
  | @probed original answer hmay =>
      rcases answer with _ | error | _
      · exact hplain.elim
      · rcases hplain with rfl | rfl <;> exact Or.inl rfl
      · exact Or.inr rfl
  | rechecked hmay | removed hmay => cases h
  | rebound hfree | failed error => cases h

theorem Refrains.goes_on (h : Refrains k₀ pc) (hoccupied : k₀.occupied = true)
    (hbinding : pc.binding = true) : ∃ call k' pc', Plain k₀ call ∧
      advance p k₀ pc call = some (k', pc') := by
  obtain ⟨node, hpath, hnode⟩ := (Option.any_eq_true _ _).mp hoccupied
  cases h with
  | bind => exact ⟨.bind (.error .addrInUse), _, _, ⟨by rw [hpath]; simp, rfl⟩, rfl⟩
  | inspect =>
      exact ⟨.symlinkMetadata (.ok node.metadata), _, _, trivial,
        if_pos (mayInspect_ok.mpr ⟨node, hpath, rfl⟩)⟩
  | probe hpath' hsocket =>
      refine ⟨.connect (some (.ok ())), _, _, trivial, if_pos ?_⟩
      rw [Kernel.mayConnect, hpath]
      exact hnode
  | failed error => cases hbinding
  | crashed => cases hbinding

/-! ### Alone -/

/-- The system calls that a process still has ahead of it. -/
def Pc.bindRank : Pc → Nat
  | .bind => 6
  | .inspect => 5
  | .probe _ => 4
  | .recheck _ => 3
  | .unlink => 2
  | .rebind => 1
  | _ => 0

theorem bindFailed_rank (error : ErrorKind) : (bindFailed error).bindRank < 6 := by
  unfold bindFailed
  split <;> simp [Pc.bindRank]

theorem inspected_rank (answer : Except ErrorKind Metadata) : (inspected answer).bindRank < 5 := by
  unfold inspected
  split
  · split <;> simp [Pc.bindRank]
  · decide
  · decide

theorem probed_rank (original : Metadata) (answer : Option (Except ErrorKind Unit)) :
    (probed original answer).bindRank < 4 := by
  unfold probed
  split <;> simp [Pc.bindRank]

theorem rechecked_rank (original : Metadata) (answer : Except ErrorKind Metadata) :
    (rechecked original answer).bindRank < 3 := by
  unfold rechecked
  split
  · split <;> decide
  · decide
  · decide

theorem removed_rank (answer : Except ErrorKind Unit) : (removed answer).bindRank < 2 := by
  unfold removed
  split <;> simp [Pc.bindRank]

/-- Every system call of `bind_unix` is one less to come. -/
theorem Answered.rank_lt (h : Answered p k pc call k' pc') (hbinding : pc.binding = true) :
    pc'.bindRank < pc.bindRank := by
  cases h with
  | bound | rebound | failed => exact Nat.succ_pos _
  | unbound error => exact bindFailed_rank error
  | inspected => exact inspected_rank _
  | probed => exact probed_rank _ _
  | rechecked => exact rechecked_rank _ _
  | removed => exact removed_rank _
  | crashed => cases pc <;> first | cases hbinding; done | exact Nat.succ_pos _

variable [DecidableEq ι]

/-- The steps of a process that is alone with the path. -/
def By (p : ι) (_ : World ι) (a : Action ι) : Prop := ∃ call, a = .call p call

/-- Those of its `bind_unix` where the kernel does not fail. -/
def Plainly (p : ι) (w : World ι) (a : Action ι) : Prop :=
  ∃ call, a = .call p call ∧ (w.procs p).binding = true ∧ Plain w.kernel call

/-- What `bind_unix` comes to. -/
structure Bound (p : ι) (w w' : World ι) : Prop where
  free : w.kernel.occupied = false → ∃ metadata, w'.procs p = .listening w.kernel.next ∧
    w'.kernel.path = some ⟨w.kernel.next, metadata⟩ ∧
      w'.kernel.owner = Function.update w.kernel.owner w.kernel.next (some (.process p))
  occupied : w.kernel.occupied = true → w'.procs p = .failed .addrInUse ∧ w'.kernel = w.kernel
  others : ∀ q, q ≠ p → w'.procs q = w.procs q

/-- A step of the process alone, as a system call. -/
theorem step_alone (h : w.step (.call p call) = some w') :
    ∃ k' pc', advance p w.kernel (w.procs p) call = some (k', pc') ∧ w'.kernel = k' ∧
      w'.procs p = pc' ∧ ∀ q, q ≠ p → w'.procs q = w.procs q := by
  obtain ⟨⟨k', pc'⟩, hadvance, rfl⟩ := Option.map_eq_some_iff.mp h
  exact ⟨k', pc', hadvance, rfl, Function.update_self .., fun q hq => Function.update_of_ne hq ..⟩

theorem step_of_advance (hadvance : advance p w.kernel (w.procs p) call = some (k', pc')) :
    w.step (.call p call) = some (w.moved p k' pc') := by
  rw [World.step, hadvance]
  rfl

/-- A process that has found the path free comes to listen. -/
theorem inevitable_of_free (hp : w.procs p = .bind) (hfree : w.kernel.occupied = false) :
    ((pathMachine ι).restrict (Plainly p)).Inevitable (Bound p w) w := by
  refine Machine.inevitable_of_rank
    (I := fun w' => Reclaims p w.kernel w'.kernel (w'.procs p) ∧
      ∀ q, q ≠ p → w'.procs q = w.procs q)
    (fun w' => (w'.procs p).bindRank) ?_ ?_ w ⟨hp ▸ .bind, fun _ _ => rfl⟩
  · rintro w' ⟨hreclaims, hothers⟩
    cases hbinding : (w'.procs p).binding with
    | true =>
        obtain ⟨call, k', pc', hplain, hadvance⟩ := hreclaims.goes_on hfree hbinding
        exact Or.inr ⟨.call p call, _, ⟨call, rfl, hbinding, hplain⟩, step_of_advance hadvance⟩
    | false =>
        refine Or.inl ⟨fun _ => ?_, fun h => absurd (hfree.symm.trans h) (by simp), hothers⟩
        generalize w'.kernel = k, w'.procs p = pc at hreclaims hbinding
        cases hreclaims with
        | listening k metadata hnext howner =>
            refine ⟨metadata, by rw [hnext], by rw [create_path, hnext], ?_⟩
            rw [create_owner, hnext, howner]
        | _ => cases hbinding
  · rintro w' a w'' ⟨hreclaims, hothers⟩ ⟨⟨call, rfl, hbinding, hplain⟩, hstep⟩
    obtain ⟨k', pc', hadvance, rfl, rfl, hothers'⟩ := step_alone hstep
    have hanswered := answered (Pc.socket_of_binding hbinding) hadvance
    exact ⟨⟨hreclaims.step hfree hbinding hplain hanswered,
      fun q hq => (hothers' q hq).trans (hothers q hq)⟩, hanswered.rank_lt hbinding⟩

/-- A process that has found the path in use comes to say so. -/
theorem inevitable_of_occupied (hp : w.procs p = .bind) (hoccupied : w.kernel.occupied = true) :
    ((pathMachine ι).restrict (Plainly p)).Inevitable (Bound p w) w := by
  refine Machine.inevitable_of_rank
    (I := fun w' => (w'.kernel = w.kernel ∧ Refrains w.kernel (w'.procs p)) ∧
      ((w'.procs p).binding = true ∨ w'.procs p = .failed .addrInUse) ∧
      ∀ q, q ≠ p → w'.procs q = w.procs q)
    (fun w' => (w'.procs p).bindRank) ?_ ?_ w
    ⟨⟨rfl, hp ▸ .bind⟩, Or.inl (by rw [hp]; rfl), fun _ _ => rfl⟩
  · rintro w' ⟨⟨hkernel, hrefrains⟩, hends, hothers⟩
    cases hbinding : (w'.procs p).binding with
    | true =>
        obtain ⟨call, k', pc', hplain, hadvance⟩ := hrefrains.goes_on hoccupied hbinding
        rw [← hkernel] at hplain hadvance
        exact Or.inr ⟨.call p call, _, ⟨call, rfl, hbinding, hplain⟩, step_of_advance hadvance⟩
    | false =>
        refine Or.inl ⟨fun h => absurd (hoccupied.symm.trans h) (by simp), fun _ => ?_, hothers⟩
        rcases hends with htrue | hfailed
        · rw [hbinding] at htrue
          cases htrue
        · exact ⟨hfailed, hkernel⟩
  · rintro w' a w'' ⟨⟨hkernel, hrefrains⟩, -, hothers⟩ ⟨⟨call, rfl, hbinding, hplain⟩, hstep⟩
    obtain ⟨k', pc', hadvance, rfl, rfl, hothers'⟩ := step_alone hstep
    have hanswered := answered (Pc.socket_of_binding hbinding) hadvance
    have hrank := hanswered.rank_lt hbinding
    rw [hkernel] at hanswered hplain
    exact ⟨⟨hrefrains.step hoccupied hanswered, hrefrains.plain hplain hoccupied hanswered,
      fun q hq => (hothers' q hq).trans (hothers q hq)⟩, hrank⟩

/-- **A process alone with the path binds it if nothing or a socket left behind is there, and
otherwise reports it in use**; in the second case it leaves the path alone whatever goes
wrong. -/
theorem bindUnix_alone (hp : w.procs p = .bind) :
    ((pathMachine ι).restrict (Plainly p)).Inevitable (Bound p w) w ∧
      (w.kernel.occupied = true →
        ∀ w', ((pathMachine ι).restrict (By p)).Leads w w' → w'.kernel = w.kernel) := by
  constructor
  · cases hoccupied : w.kernel.occupied with
    | false => exact inevitable_of_free hp hoccupied
    | true => exact inevitable_of_occupied hp hoccupied
  · intro hoccupied w' hleads
    have hrefrains : w'.kernel = w.kernel ∧ Refrains w.kernel (w'.procs p) := by
      refine hleads.keeps (I := fun w' => w'.kernel = w.kernel ∧ Refrains w.kernel (w'.procs p))
        ?_ ⟨rfl, hp ▸ .bind⟩
      rintro v v' a ⟨hkernel, hrefrains⟩ ⟨⟨call, rfl⟩, hstep⟩
      obtain ⟨k', pc', hadvance, rfl, rfl, -⟩ := step_alone hstep
      rw [hkernel] at hadvance
      exact hrefrains.step hoccupied (answered hrefrains.socket hadvance)
    exact hrefrains.1

/-- A socket has been left behind. -/
theorem bindUnix_alone_stale : ∃ w : World (Fin 2),
    w.kernel.path = some ⟨0, ⟨true, 1, 7⟩⟩ ∧ w.kernel.occupied = false ∧
      ((pathMachine (Fin 2)).restrict (Plainly 0)).Inevitable (Bound 0 w) w :=
  ⟨World.idle (some ⟨0, ⟨true, 1, 7⟩⟩), rfl, by decide, (bindUnix_alone rfl).1⟩

end Keyring.Cli.Platform
