/-
The agent follows the configuration file.

What the agent is built from is always something the file has said, and never something
older than what an agent before it was built from: one build is tracked at a time, and it
reads the file after the build before it was joined.

Whether the agent is up to date needs an account of where the last announcement is.  Either
it has arrived, or it is with the build that is tracked, which has yet to read or has read
what the file still says, or the flag holds it back for the next build (`Owed`).
-/
import Keyring.Cli.Reload
import Keyring.Proofs.Cli.Config
import Keyring.Proofs.Cli.Serve.Reloads

namespace Keyring.Cli

open Keyring.Service Serve

variable {keys : SshKeys} {setup : Setup keys} {w w' : FileWorld keys} {a : FileAction keys}

/-! ### Steps -/

/-- What a step of the service does, where the file is concerned. -/
def FileWorld.turned (w : FileWorld keys) (action : Action (Provider keys))
    (world : World (Provider keys)) : FileWorld keys :=
  { w with world, served := w.servedAfter action, announced := w.announcedAfter action }

/-- A build has ended. -/
def FileWorld.ended (w : FileWorld keys) (build : Nat) (loaded : Loaded (Provider keys)) :
    World (Provider keys) :=
  w.world.moved { w.world.service with reloads := w.reloads.finish build loaded } []

/-- What each action does, and when it can be taken. -/
inductive FileStep (setup : Setup keys) (w : FileWorld keys) :
    FileAction keys → FileWorld keys → Prop
  | edit (file : Except String String) :
      FileStep setup w (.edit file)
        { w with past := w.past ++ [w.file], file, announced := false }
  | read {build : Nat} (hrun : w.reloads.Running build) (hunread : w.reads build = none) :
      FileStep setup w (.read build)
        { w with reads := Function.update w.reads build (some w.past.length) }
  | ends {build n : Nat} {file : Except String String} (hrun : w.reloads.Running build)
      (hread : w.reads build = some n) (hversion : w.version n = some file) :
      FileStep setup w (.ends build)
        { w with world := w.ended build (.ok (setup.load file)) }
  | fails {build : Nat} {error : JoinError} (hrun : w.reloads.Running build) :
      FileStep setup w (.fails build error)
        { w with world := w.ended build (.error error), announced := false }
  | serve {action : Action (Provider keys)} {world : World (Provider keys)}
      (hstep : w.world.step action = some world)
      (hends : ∀ build config, action ≠ .buildEnds build config) :
      FileStep setup w (.serve action) (w.turned action world)

theorem file_step (h : w.step setup a = some w') : FileStep setup w a w' := by
  cases a with
  | edit file => exact Option.some.inj h ▸ .edit file
  | read build =>
      obtain ⟨⟨hrun, hunread⟩, h⟩ := Option.ite_none_right_eq_some.mp h
      exact Option.some.inj h ▸ .read hrun hunread
  | ends build =>
      obtain ⟨hrun, h⟩ := Option.ite_none_right_eq_some.mp h
      obtain ⟨n, hread, h⟩ := Option.bind_eq_some_iff.mp h
      obtain ⟨file, hversion, h⟩ := Option.bind_eq_some_iff.mp h
      obtain ⟨world, hstep, h⟩ := Option.map_eq_some_iff.mp h
      rw [← h, ← Option.some.inj hstep]
      exact .ends hrun hread hversion
  | fails build error =>
      obtain ⟨hrun, h⟩ := Option.ite_none_right_eq_some.mp h
      obtain ⟨world, hstep, h⟩ := Option.map_eq_some_iff.mp h
      rw [← h, ← Option.some.inj hstep]
      exact .fails hrun
  | serve action =>
      have hends : ∀ build config, action ≠ .buildEnds build config := by
        rintro build config rfl
        cases h
      have hmap : (w.world.step action).map (w.turned action) = some w' := by
        cases action <;> first | exact h | cases h
      obtain ⟨world, hstep, rfl⟩ := Option.map_eq_some_iff.mp hmap
      exact .serve hstep hends

/-- The service runs as it does without the file. -/
theorem world_leads (h : FileStep setup w a w') {agent : ServiceAgent (Provider keys)}
    (hw : (serveMachine agent).Reachable w.world) : (serveMachine agent).Reachable w'.world := by
  cases h with
  | edit file => exact hw
  | read hrun hunread => exact hw
  | @ends build n file _ _ _ =>
      exact hw.step (a := .buildEnds build (.ok (setup.configured file))) rfl
  | @fails build error _ => exact hw.step (a := .buildEnds build (.error error)) rfl
  | @serve action world hstep _ => exact hw.step (a := action) hstep

/-! ### What the file has said -/

theorem version_now (w : FileWorld keys) : w.version w.past.length = some w.file := by
  rw [FileWorld.version, List.getElem?_append_right (Nat.le_refl _), Nat.sub_self]
  rfl

/-- An edit leaves what the file has said before. -/
theorem version_edit {n : Nat} (hn : n ≤ w.past.length) (file : Except String String) :
    (w.past ++ [w.file] ++ [file])[n]? = w.version n := by
  rw [FileWorld.version, List.getElem?_append_left]
  rw [List.length_append, List.length_singleton]
  omega

/-! ### The invariant -/

/-- Where the last announcement is. -/
inductive Owed (setup : Setup keys) (w : FileWorld keys) : Prop
  | arrived (hnone : w.reloads.tasks = [])
      (hagent : ∀ candidate, setup.load w.file = .ok candidate →
        w.world.service.agent = candidate)
  | pending (hpending : w.world.service.reloadPending = true)
  | unread {task : JoinSet.Entry Unit (Loaded (Provider keys))} (hmem : task ∈ w.reloads.tasks)
      (hrun : task.result = none) (hunread : w.reads task.id = none)
  | read {task : JoinSet.Entry Unit (Loaded (Provider keys))} (hmem : task ∈ w.reloads.tasks)
      (hfine : ∀ error, task.result ≠ some (.error error))
      (hread : w.reads task.id = some w.past.length)

/-- The agent and the tracked build fit what the file has said. -/
structure FileInv (setup : Setup keys) (w : FileWorld keys) : Prop where
  served : ∃ file, w.version w.served = some file ∧
    setup.load file = .ok w.world.service.agent
  behind : w.served ≤ w.past.length
  known : ∀ build n, w.reads build = some n →
    n ≤ w.past.length ∧ build < w.reloads.spawned
  newer : ∀ task ∈ w.reloads.tasks, ∀ n, w.reads task.id = some n → w.served ≤ n
  ended : ∀ task ∈ w.reloads.tasks, ∀ loaded, task.result = some (.ok loaded) →
    ∃ n file, w.reads task.id = some n ∧ w.version n = some file ∧ loaded = setup.load file
  owed : w.announced = true → Owed setup w

theorem FileInv.edit (hI : FileInv setup w) (file : Except String String) :
    FileInv setup { w with past := w.past ++ [w.file], file, announced := false } := by
  have hlength : (w.past ++ [w.file]).length = w.past.length + 1 := by
    rw [List.length_append, List.length_singleton]
  refine ⟨?_, ?_, ?_, hI.newer, ?_, by simp⟩
  · obtain ⟨before, hversion, hload⟩ := hI.served
    exact ⟨before, (version_edit hI.behind file).trans hversion, hload⟩
  · exact hI.behind.trans (hlength ▸ Nat.le_succ _)
  · intro build n hread
    obtain ⟨hle, hlt⟩ := hI.known build n hread
    exact ⟨hle.trans (hlength ▸ Nat.le_succ _), hlt⟩
  · intro task hmem loaded hresult
    obtain ⟨n, before, hread, hversion, hloaded⟩ := hI.ended task hmem loaded hresult
    have hle := (hI.known task.id n hread).1
    exact ⟨n, before, hread, (version_edit hle file).trans hversion, hloaded⟩

/-- A build that runs is a task of the set. -/
theorem lt_of_running {build : Nat} (h : w.reloads.Running build) : build < w.reloads.spawned := by
  obtain ⟨task, hmem, rfl, -⟩ := h
  exact w.reloads.fresh task hmem

theorem FileInv.read (hI : FileInv setup w) {build : Nat} (hrun : w.reloads.Running build)
    (hunread : w.reads build = none) :
    FileInv setup { w with reads := Function.update w.reads build (some w.past.length) } := by
  have hother : ∀ {id n}, w.reads id = some n →
      Function.update w.reads build (some w.past.length) id = some n := by
    intro id n hread
    have hne : id ≠ build := by
      rintro rfl
      rw [hunread] at hread
      cases hread
    rw [Function.update_of_ne hne, hread]
  refine ⟨hI.served, hI.behind, ?_, ?_, ?_, ?_⟩
  · intro id n (hread : Function.update w.reads build (some w.past.length) id = some n)
    by_cases hid : id = build
    · subst hid
      rw [Function.update_self] at hread
      exact ⟨(Option.some.inj hread).ge, lt_of_running hrun⟩
    · rw [Function.update_of_ne hid] at hread
      exact hI.known id n hread
  · intro task hmem n
      (hread : Function.update w.reads build (some w.past.length) task.id = some n)
    by_cases hid : task.id = build
    · rw [hid, Function.update_self] at hread
      exact Option.some.inj hread ▸ hI.behind
    · rw [Function.update_of_ne hid] at hread
      exact hI.newer task hmem n hread
  · intro task hmem loaded hresult
    obtain ⟨n, file, hread, hversion, hloaded⟩ := hI.ended task hmem loaded hresult
    exact ⟨n, file, hother hread, hversion, hloaded⟩
  · intro hannounced
    cases hI.owed hannounced with
    | arrived hnone hagent => exact .arrived hnone hagent
    | pending hpending => exact .pending hpending
    | @unread task hmem hnone hunread' =>
        by_cases hid : task.id = build
        · have hnow : Function.update w.reads build (some w.past.length) task.id =
              some w.past.length := by rw [hid, Function.update_self]
          exact .read hmem (by simp [hnone]) hnow
        · have hstill : Function.update w.reads build (some w.past.length) task.id = none := by
            rw [Function.update_of_ne hid, hunread']
          exact .unread hmem hnone hstill
    | read hmem hfine hread => exact .read hmem hfine (hother hread)

/-- The end of a build, with what it has made of what it has read or with no result. -/
theorem FileInv.finish (hI : FileInv setup w) {build : Nat} {loaded : Loaded (Provider keys)}
    {announced : Bool}
    (hloaded : ∀ result, loaded = .ok result →
      ∃ n file, w.reads build = some n ∧ w.version n = some file ∧ result = setup.load file)
    (howed : announced = true → Owed setup { w with world := w.ended build loaded }) :
    FileInv setup { w with world := w.ended build loaded, announced } := by
  refine ⟨hI.served, hI.behind, hI.known, ?_, ?_, ?_⟩
  · intro task hmem n hread
    obtain ⟨old, hold, hid, -⟩ := JoinSet.mem_finish hmem
    exact hI.newer old hold n (hid ▸ hread)
  · intro task hmem result hresult
    obtain ⟨old, hold, hid, hsame | ⟨hbuild, -, hnew⟩⟩ := JoinSet.mem_finish hmem
    · subst hsame
      exact hI.ended task hold result hresult
    · have hresult' : loaded = .ok result := Option.some.inj (hnew.symm.trans hresult)
      rw [hid, hbuild]
      exact hloaded result hresult'
  · intro hannounced
    cases howed hannounced with
    | arrived hnone hagent => exact .arrived hnone hagent
    | pending hpending => exact .pending hpending
    | unread hmem hrun hunread => exact .unread hmem hrun hunread
    | read hmem hfine hread => exact .read hmem hfine hread

/-- A build that has read ends: it is the one that was looked for, or another. -/
theorem Owed.ends (h : Owed setup w) {build n : Nat} (hread : w.reads build = some n)
    (result : Except String (ServiceAgent (Provider keys))) :
    Owed setup { w with world := w.ended build (.ok result) } := by
  have hmap : ∀ {task : JoinSet.Entry Unit (Loaded (Provider keys))}, task ∈ w.reloads.tasks →
      JoinSet.Entry.finish build (.ok result) task ∈
        (w.reloads.finish build (.ok result)).tasks := fun hmem => List.mem_map_of_mem hmem
  cases h with
  | arrived hnone hagent =>
      refine .arrived ?_ hagent
      show w.reloads.tasks.map _ = []
      rw [hnone]
      rfl
  | pending hpending => exact .pending hpending
  | @unread task hmem hrun hunread =>
      have hne : task.id ≠ build := by
        rintro rfl
        rw [hread] at hunread
        cases hunread
      have hsame : JoinSet.Entry.finish build (.ok result) task = task :=
        if_neg fun hbuild => hne hbuild.1
      exact .unread (hsame ▸ hmap hmem) hrun hunread
  | @read task hmem hfine hnow =>
      refine .read (hmap hmem) ?_ ((JoinSet.Entry.finish_id build _ task).symm ▸ hnow)
      intro error
      unfold JoinSet.Entry.finish
      split
      · simp
      · exact hfine error

/-- A turn that has nothing to do with builds. -/
theorem FileInv.kept (hI : FileInv setup w) {s : Service (Provider keys)}
    (events : List (Event (Provider keys))) (hagent : s.agent = w.world.service.agent)
    (hreloads : s.reloads = w.world.service.reloads)
    (hpending : s.reloadPending = w.world.service.reloadPending) :
    FileInv setup { w with world := w.world.moved s events } := by
  have hsame : ({ w with world := w.world.moved s events } : FileWorld keys).reloads =
      w.reloads := hreloads
  refine ⟨?_, hI.behind, ?_, ?_, ?_, ?_⟩
  · obtain ⟨file, hversion, hload⟩ := hI.served
    exact ⟨file, hversion, hload.trans (congrArg Except.ok hagent.symm)⟩
  · rw [hsame]
    exact hI.known
  · rw [hsame]
    exact hI.newer
  · rw [hsame]
    exact hI.ended
  · intro hannounced
    cases hI.owed hannounced with
    | arrived hnone hcandidate =>
        refine .arrived (hsame ▸ hnone) fun candidate hload => ?_
        exact hagent.trans (hcandidate candidate hload)
    | pending h => exact .pending (hpending.trans h)
    | unread hmem hrun hunread => exact .unread (hsame ▸ hmem) hrun hunread
    | read hmem hfine hread => exact .read (hsame ▸ hmem) hfine hread

/-- A build is started where none is tracked: it has everything to read. -/
theorem FileInv.spawned (hI : FileInv setup w) {reloads : JoinSet Unit (Loaded (Provider keys))}
    {s : Service (Provider keys)} (events : List (Event (Provider keys))) {served : Nat}
    (announced : Bool) (hnone : reloads.tasks = [])
    (hspawned : reloads.spawned = w.reloads.spawned) (hreloads : s.reloads = reloads.spawn ())
    (hserved : ∃ file, w.version served = some file ∧ setup.load file = .ok s.agent)
    (hle : served ≤ w.past.length) :
    FileInv setup { w with world := w.world.moved s events, served, announced } := by
  have htasks : s.reloads.tasks = [⟨w.reloads.spawned, (), none⟩] := by
    rw [hreloads, ← hspawned]
    show reloads.tasks ++ _ = _
    rw [hnone]
    rfl
  have hunread : w.reads w.reloads.spawned = none := by
    refine Option.eq_none_iff_forall_not_mem.mpr fun n hread => ?_
    exact Nat.lt_irrefl _ (hI.known _ n hread).2
  have honly : ∀ task ∈ s.reloads.tasks, task = ⟨w.reloads.spawned, (), none⟩ := by
    intro task hmem
    exact List.mem_singleton.mp (htasks ▸ hmem)
  refine ⟨hserved, hle, ?_, ?_, ?_, ?_⟩
  · intro build n hread
    obtain ⟨hn, hlt⟩ := hI.known build n hread
    refine ⟨hn, ?_⟩
    show build < s.reloads.spawned
    rw [hreloads, JoinSet.spawned_spawn, hspawned]
    exact Nat.lt_succ_of_lt hlt
  · intro task hmem n hread
    rw [honly task hmem] at hread
    exact absurd (hunread.symm.trans hread) (by simp)
  · intro task hmem loaded hresult
    rw [honly task hmem] at hresult
    cases hresult
  · intro _
    exact .unread (htasks ▸ List.mem_singleton_self _) rfl hunread

/-- A join that brings no candidate leaves the agent. -/
theorem servedAfter_failed {build : Nat} {loaded : Loaded (Provider keys)}
    {reloads : JoinSet Unit (Loaded (Provider keys))}
    (hjoin : w.reloads.joinNext build = some (loaded, reloads))
    (hnone : ∀ candidate, loaded ≠ .ok (.ok candidate)) :
    w.servedAfter (.joinReload build) = w.served := by
  rw [FileWorld.servedAfter, hjoin]
  match loaded with
  | .ok (.ok candidate) => exact absurd rfl (hnone candidate)
  | .ok (.error _) => rfl
  | .error _ => rfl

/-- What the agent is built from after a join. -/
theorem FileInv.served_joined (hI : FileInv setup w) {build : Nat}
    {loaded : Loaded (Provider keys)} {reloads : JoinSet Unit (Loaded (Provider keys))}
    (hjoin : w.reloads.joinNext build = some (loaded, reloads)) :
    (∃ file, w.version (w.servedAfter (.joinReload build)) = some file ∧
        setup.load file =
          .ok ({ w.world.service with reloads }.handleLoaded loaded).agent) ∧
      w.served ≤ w.servedAfter (.joinReload build) ∧
      w.servedAfter (.joinReload build) ≤ w.past.length := by
  obtain ⟨task, hmem, rfl, hresult⟩ := JoinSet.exists_of_joinNext hjoin
  match loaded with
  | .ok (.ok candidate) =>
      obtain ⟨n, file, hread, hversion, hcandidate⟩ := hI.ended task hmem _ hresult
      have hafter : w.servedAfter (.joinReload task.id) = n := by
        rw [FileWorld.servedAfter, hjoin, hread]
        rfl
      rw [hafter]
      exact ⟨⟨file, hversion, hcandidate.symm⟩, hI.newer task hmem n hread,
        (hI.known task.id n hread).1⟩
  | .ok (.error _) =>
      rw [servedAfter_failed hjoin (by simp)]
      exact ⟨hI.served, Nat.le_refl _, hI.behind⟩
  | .error _ =>
      rw [servedAfter_failed hjoin (by simp)]
      exact ⟨hI.served, Nat.le_refl _, hI.behind⟩

/-- The announcement arrives with the join, if nothing holds it back. -/
theorem FileInv.arrives (hI : FileInv setup w) (hone : w.world.service.reloads.tasks.length ≤ 1)
    {build : Nat} {loaded : Loaded (Provider keys)}
    {reloads : JoinSet Unit (Loaded (Provider keys))}
    (hjoin : w.world.service.reloads.joinNext build = some (loaded, reloads))
    (hcalm : w.world.service.reloadPending = false) (hannounced : w.announced = true)
    {candidate : ServiceAgent (Provider keys)} (hload : setup.load w.file = .ok candidate) :
    ({ w.world.service with reloads }.handleLoaded loaded).agent = candidate := by
  obtain ⟨task, hmem, -, hresult⟩ := JoinSet.exists_of_joinNext hjoin
  have honly : ∀ other ∈ w.reloads.tasks, other = task := by
    intro other hother
    obtain ⟨only, htasks⟩ := List.length_eq_one_iff.mp
      (Nat.le_antisymm hone (List.length_pos_of_mem hmem))
    have htasks' : w.reloads.tasks = [only] := htasks
    rw [htasks, List.mem_singleton] at hmem
    rw [htasks', List.mem_singleton] at hother
    rw [hmem, hother]
  cases hI.owed hannounced with
  | arrived hnone _ => exact absurd hnone (List.ne_nil_of_mem hmem)
  | pending hpending =>
      rw [hcalm] at hpending
      cases hpending
  | unread hother hrun _ =>
      rw [honly _ hother, hresult] at hrun
      cases hrun
  | read hother hfine hread =>
      obtain rfl := honly _ hother
      match loaded, hresult with
      | .error error, hresult => exact absurd hresult (hfine error)
      | .ok result, hresult =>
          obtain ⟨n, file, hread', hversion, hresult'⟩ := hI.ended _ hother result hresult
          obtain rfl := Option.some.inj (hread.symm.trans hread')
          obtain rfl := Option.some.inj ((version_now w).symm.trans hversion)
          rw [hresult', hload]
          rfl

/-- The join of the tracked build. -/
theorem FileInv.joined (hI : FileInv setup w) (hone : w.world.service.reloads.ids.length ≤ 1)
    {build : Nat} {loaded : Loaded (Provider keys)}
    {reloads : JoinSet Unit (Loaded (Provider keys))} (events : List (Event (Provider keys)))
    (hjoin : w.world.service.reloads.joinNext build = some (loaded, reloads)) :
    FileInv setup (w.turned (.joinReload build) (w.world.moved
      ({ w.world.service with reloads }.handleLoaded loaded).restart.1 events)) := by
  have hnone : reloads.tasks = [] :=
    JoinSet.ids_eq_nil.mp (JoinSet.ids_joinNext_of_single hone hjoin)
  have hspawned : reloads.spawned = w.reloads.spawned := (JoinSet.joinNext_eq_some hjoin).2.2
  obtain ⟨hserved, -, hle⟩ := hI.served_joined hjoin
  rcases restart_cases ({ w.world.service with reloads }.handleLoaded loaded) with
    ⟨hcalm, hrestart⟩ | ⟨hpending, hrestart⟩
  · rw [hrestart]
    rw [handleLoaded_reloadPending] at hcalm
    have hafter : ({ w.world.service with reloads }.handleLoaded loaded).reloads.tasks = [] := by
      rw [handleLoaded_reloads, hnone]
    have hgone : ∀ task,
        task ∉ ({ w.world.service with reloads }.handleLoaded loaded).reloads.tasks := by
      rw [hafter]
      exact fun _ => List.not_mem_nil
    refine ⟨hserved, hle, ?_, ?_, ?_, ?_⟩
    · intro id n hread
      obtain ⟨hn, hlt⟩ := hI.known id n hread
      refine ⟨hn, ?_⟩
      show id < ({ w.world.service with reloads }.handleLoaded loaded).reloads.spawned
      rw [handleLoaded_reloads]
      exact hspawned ▸ hlt
    · intro task hmem
      exact absurd hmem (hgone task)
    · intro task hmem
      exact absurd hmem (hgone task)
    · intro hannounced
      refine .arrived hafter fun candidate hload => ?_
      exact hI.arrives (JoinSet.ids_length w.world.service.reloads ▸ hone) hjoin hcalm hannounced
        hload
  · rw [hrestart]
    exact hI.spawned events w.announced hnone hspawned (by rw [handleLoaded_reloads]) hserved hle

theorem FileInv.turn (hI : FileInv setup w) (hone : w.world.service.reloads.ids.length ≤ 1)
    {action : Action (Provider keys)} {s : Service (Provider keys)}
    {events : List (Event (Provider keys))} (harm : Arm w.world.service action s events)
    (hends : ∀ build config, action ≠ .buildEnds build config) :
    FileInv setup (w.turned action (w.world.moved s events)) := by
  cases harm with
  | signal event hrun =>
      cases event with
      | reload =>
          by_cases hnone : w.world.service.reloads.isEmpty = true
          · have hstart : w.world.service.handleSignal .reload =
                (w.world.service.startBuild.1, .reload :: w.world.service.startBuild.2) :=
              if_pos hnone
            rw [hstart]
            exact hI.spawned _ true (List.isEmpty_iff.mp hnone) rfl rfl hI.served hI.behind
          · have hstart : w.world.service.handleSignal .reload =
                ({ w.world.service with reloadPending := true }, [.reload]) := if_neg hnone
            rw [hstart]
            exact ⟨hI.served, hI.behind, hI.known, hI.newer, hI.ended, fun _ => .pending rfl⟩
      | shutdown => exact hI.kept _ rfl rfl rfl
  | accept accepted hrun =>
      cases accepted with
      | ok _ => exact hI.kept _ rfl rfl rfl
      | error error => exact hI.kept _ rfl rfl rfl
  | joinReload hrun hjoin => exact hI.joined hone _ hjoin
  | joinJob hphase hjoin => exact hI.kept _ rfl rfl rfl
  | timeout hphase => exact hI.kept _ rfl rfl rfl
  | drained hphase hnone => exact hI.kept _ rfl rfl rfl
  | buildEnds build config => exact absurd rfl (hends build config)
  | jobEnds job result => exact hI.kept _ rfl rfl rfl

theorem FileInv.step (hI : FileInv setup w) (hone : w.world.service.reloads.ids.length ≤ 1)
    (h : FileStep setup w a w') : FileInv setup w' := by
  cases h with
  | edit file => exact hI.edit file
  | read hrun hunread => exact hI.read hrun hunread
  | ends hrun hread hversion =>
      refine hI.finish ?_ fun hannounced => (hI.owed hannounced).ends hread _
      intro result hresult
      exact ⟨_, _, hread, hversion, (Except.ok.inj hresult).symm⟩
  | fails hrun => exact hI.finish (by simp) (by simp)
  | serve hstep hends =>
      obtain ⟨s, events, harm, rfl⟩ := step_arm hstep
      exact hI.turn hone harm hends

theorem fileInv (h : (fileMachine setup).Reachable w) :
    FileInv setup w ∧ ∃ agent, ReloadInv agent w.world := by
  have hboth : FileInv setup w ∧ ∃ agent, (serveMachine agent).Reachable w.world := by
    refine h.invariant
      (I := fun w => FileInv setup w ∧ ∃ agent, (serveMachine agent).Reachable w.world) ?_ ?_
    · rintro _ ⟨file, agent, hload, rfl⟩
      refine ⟨⟨⟨file, rfl, hload⟩, Nat.le_refl 0, by simp [FileWorld.start], ?_, ?_, ?_⟩,
        agent, Machine.Reachable.init rfl⟩
      · exact fun task hmem => absurd hmem List.not_mem_nil
      · exact fun task hmem => absurd hmem List.not_mem_nil
      · exact fun _ => .arrived rfl fun candidate hcandidate =>
          Except.ok.inj (hload.symm.trans hcandidate)
    · rintro w w' a - ⟨hI, agent, hw⟩ hstep
      have hfile := file_step hstep
      exact ⟨hI.step (reloadInv hw).one hfile, agent, world_leads hfile hw⟩
  obtain ⟨hI, agent, hw⟩ := hboth
  exact ⟨hI, agent, reloadInv hw⟩

/-! ### Builds arrive -/

/-- The steps of builds, and the turns that join them. -/
def IsBuild : FileAction keys → Prop
  | .read _ | .ends _ | .serve (.joinReload _) => True
  | _ => False

/-- What a tracked build has ahead of it. -/
def FileWorld.ahead (w : FileWorld keys)
    (task : JoinSet.Entry Unit (Loaded (Provider keys))) : Nat :=
  if task.result.isSome then 1 else if (w.reads task.id).isSome then 2 else 3

/-- What the builds have ahead of them, with the one that a flag stands for. -/
def FileWorld.buildRank (w : FileWorld keys) : Nat :=
  4 * w.world.service.reloadPending.toNat +
    w.reloads.tasks.foldr (fun task left => w.ahead task + left) 0

/-- While a build is tracked it can go on, or be joined. -/
theorem build_goes_on (hI : FileInv setup w) (hrunning : w.world.service.phase = .running)
    (hsome : w.reloads.tasks ≠ []) : ∃ a w', IsBuild a ∧ w.step setup a = some w' := by
  rcases JoinSet.exists_running_or_joinNext hsome with ⟨build, hrun⟩ | ⟨build, loaded, reloads, hjoin⟩
  · cases hread : w.reads build with
    | none => exact ⟨.read build, _, trivial, if_pos ⟨hrun, hread⟩⟩
    | some n =>
        have hlt : n < (w.past ++ [w.file]).length := by
          rw [List.length_append]
          exact Nat.lt_succ_of_le (hI.known build n hread).1
        obtain ⟨file, hversion⟩ : ∃ file, w.version n = some file :=
          ⟨_, List.getElem?_eq_getElem hlt⟩
        refine ⟨.ends build, { w with world := w.ended build (.ok (setup.load file)) },
          trivial, ?_⟩
        rw [FileWorld.step, if_pos hrun, hread, Option.bind_some, hversion]
        rfl
  · have hstep : (w.world.step (.joinReload build)).isSome := by
      have hjoin' : w.world.service.reloads.joinNext build = some (loaded, reloads) := hjoin
      simp only [World.step, hrunning, hjoin', Option.map_some, Option.isSome_some]
    obtain ⟨world, hworld⟩ := Option.isSome_iff_exists.mp hstep
    refine ⟨.serve (.joinReload build), w.turned (.joinReload build) world, trivial, ?_⟩
    show (w.world.step (.joinReload build)).map _ = _
    rw [hworld]
    rfl

/-- A task is ahead of its end by three steps at most. -/
theorem ahead_le (w : FileWorld keys) (task : JoinSet.Entry Unit (Loaded (Provider keys))) :
    w.ahead task ≤ 3 := by
  unfold FileWorld.ahead
  split
  · decide
  · split <;> decide

/-- A tracked build is the only one. -/
theorem single_task (hone : w.world.service.reloads.ids.length ≤ 1)
    {task : JoinSet.Entry Unit (Loaded (Provider keys))} (hmem : task ∈ w.reloads.tasks) :
    w.reloads.tasks = [task] := by
  have hone' : w.reloads.tasks.length ≤ 1 := by
    rw [JoinSet.ids_length] at hone
    exact hone
  obtain ⟨only, htasks⟩ := List.length_eq_one_iff.mp
    (Nat.le_antisymm hone' (List.length_pos_of_mem hmem))
  rw [htasks, List.mem_singleton] at hmem
  rw [htasks, hmem]

theorem buildRank_of_none (h : w.reloads.tasks = []) :
    w.buildRank = 4 * w.world.service.reloadPending.toNat := by
  rw [FileWorld.buildRank, h]
  rfl

theorem buildRank_of_single {task : JoinSet.Entry Unit (Loaded (Provider keys))}
    (h : w.reloads.tasks = [task]) :
    w.buildRank = 4 * w.world.service.reloadPending.toNat + w.ahead task := by
  rw [FileWorld.buildRank, h]
  rfl

/-- A join takes a build off, and puts one in its place only where the flag was up. -/
theorem joined_rank (hone : w.world.service.reloads.ids.length ≤ 1) {build : Nat}
    {loaded : Loaded (Provider keys)} {reloads : JoinSet Unit (Loaded (Provider keys))}
    {events : List (Event (Provider keys))}
    (hjoin : w.world.service.reloads.joinNext build = some (loaded, reloads)) :
    FileWorld.buildRank (w.turned (.joinReload build) (w.world.moved
      ({ w.world.service with reloads }.handleLoaded loaded).restart.1 events)) < w.buildRank := by
  have hnone : reloads.tasks = [] :=
    JoinSet.ids_eq_nil.mp (JoinSet.ids_joinNext_of_single hone hjoin)
  obtain ⟨task, hmem, -, hresult⟩ := JoinSet.exists_of_joinNext hjoin
  have hahead : w.ahead task = 1 := by simp [FileWorld.ahead, hresult]
  rw [buildRank_of_single (single_task hone hmem), hahead]
  rcases restart_cases ({ w.world.service with reloads }.handleLoaded loaded) with
    ⟨hcalm, hrestart⟩ | ⟨hpending, hrestart⟩
  · rw [hrestart]
    rw [handleLoaded_reloadPending] at hcalm
    have hgone : ({ w.world.service with reloads }.handleLoaded loaded).reloads.tasks = [] := by
      rw [handleLoaded_reloads, hnone]
    refine Nat.lt_of_le_of_lt (Nat.le_of_eq (buildRank_of_none hgone)) ?_
    show 4 * Bool.toNat (Service.handleLoaded _ _).reloadPending < _
    rw [handleLoaded_reloadPending]
    exact Nat.lt_succ_self _
  · rw [hrestart]
    rw [handleLoaded_reloadPending] at hpending
    have hnext : (({ w.world.service with reloads }.handleLoaded loaded).reloads.spawn ()).tasks =
        [⟨reloads.spawned, (), none⟩] := by
      rw [handleLoaded_reloads]
      show reloads.tasks ++ _ = _
      rw [hnone]
      rfl
    refine Nat.lt_of_le_of_lt (Nat.le_of_eq (buildRank_of_single hnext)) ?_
    rw [show w.world.service.reloadPending = true from hpending]
    have hless : 4 * false.toNat + 3 < 4 * true.toNat + 1 := by decide
    exact Nat.lt_of_le_of_lt (Nat.add_le_add_left (ahead_le _ _) _) hless

/-- **Every step of a build leaves less for the builds to do**, and leaves the file alone. -/
theorem buildRank_lt (hone : w.world.service.reloads.ids.length ≤ 1)
    (hrunning : w.world.service.phase = .running) (hbuild : IsBuild a)
    (h : FileStep setup w a w') :
    w'.buildRank < w.buildRank ∧ w'.world.service.phase = .running ∧ w'.file = w.file ∧
      w'.announced = w.announced := by
  cases h with
  | edit file => exact absurd hbuild id
  | fails hrun => exact absurd hbuild id
  | @read build hrun hunread =>
      obtain ⟨task, hmem, rfl, hresult⟩ := hrun
      have htasks := single_task hone hmem
      have hbefore : w.ahead task = 3 := by simp [FileWorld.ahead, hresult, hunread]
      have hafter : FileWorld.ahead
          { w with reads := Function.update w.reads task.id (some w.past.length) } task = 2 := by
        simp [FileWorld.ahead, hresult]
      refine ⟨?_, hrunning, rfl, rfl⟩
      rw [buildRank_of_single htasks, hbefore]
      refine Nat.lt_of_le_of_lt (Nat.le_of_eq (buildRank_of_single htasks)) ?_
      rw [hafter]
      exact Nat.lt_succ_self _
  | @ends build n file hrun hread hversion =>
      obtain ⟨task, hmem, rfl, hresult⟩ := hrun
      have htasks := single_task hone hmem
      have hbefore : w.ahead task = 2 := by simp [FileWorld.ahead, hresult, hread]
      have hended : (w.reloads.finish task.id (.ok (setup.load file))).tasks =
          [{ task with result := some (.ok (setup.load file)) }] := by
        show w.reloads.tasks.map _ = _
        rw [htasks, List.map_singleton, JoinSet.Entry.finish_of_running rfl hresult]
      refine ⟨?_, hrunning, rfl, rfl⟩
      rw [buildRank_of_single htasks, hbefore]
      exact Nat.lt_of_le_of_lt (Nat.le_of_eq (buildRank_of_single hended)) (Nat.lt_succ_self _)
  | @serve action world hstep hends =>
      cases action with
      | joinReload build =>
          obtain ⟨s, events, harm, rfl⟩ := step_arm hstep
          cases harm with
          | joinReload hrun hjoin =>
              refine ⟨joined_rank hone hjoin, ?_, rfl, rfl⟩
              exact (restart_frame _).2.2.2.trans ((handleLoaded_phase _ _).trans hrunning)
      | _ => exact absurd hbuild id

/-! ### In every run -/

/-- Where no build is tracked and the last edit was announced, the agent is what the file
says. -/
theorem upToDate (hI : FileInv setup w) (hpending : w.world.service.reloadPending = false)
    (hannounced : w.announced = true) (hnone : w.reloads.tasks = [])
    {candidate : ServiceAgent (Provider keys)} (haccepts : setup.Accepts w.file candidate) :
    w.world.service.agent = candidate := by
  cases hI.owed hannounced with
  | arrived _ hagent => exact hagent candidate (load_eq_ok.mpr haccepts)
  | pending h =>
      rw [hpending] at h
      cases h
  | unread hmem _ _ => exact absurd hnone (List.ne_nil_of_mem hmem)
  | read hmem _ _ => exact absurd hnone (List.ne_nil_of_mem hmem)

theorem served_le (hI : FileInv setup w) (h : FileStep setup w a w') : w.served ≤ w'.served := by
  cases h with
  | @serve action world hstep hends =>
      cases action with
      | joinReload build =>
          obtain ⟨s, events, harm, rfl⟩ := step_arm hstep
          cases harm with
          | joinReload hrun hjoin => exact (hI.served_joined hjoin).2.1
      | _ => exact Nat.le_refl _
  | _ => exact Nat.le_refl _

/-- How the agent follows the file. -/
structure Follows (setup : Setup keys) (w : FileWorld keys) : Prop where
  /-- The agent is what the file said at some time. -/
  served : ∃ file, w.version w.served = some file ∧ setup.Accepts file w.world.service.agent
  /-- It never goes back to what the file said before. -/
  newer : ∀ a w', w.step setup a = some w' → w.served ≤ w'.served
  /-- Between reloads it is what the file says, if the last edit was announced. -/
  upToDate : w.announced = true → w.reloads.tasks = [] →
    ∀ candidate, setup.Accepts w.file candidate → w.world.service.agent = candidate
  /-- Reloads do come to an end. -/
  arrives : w.world.service.phase = .running →
    ((fileMachine setup).restrict fun _ a => IsBuild a).Inevitable
      (fun w' => w'.reloads.tasks = [] ∧ (w.announced = true →
        ∀ candidate, setup.Accepts w.file candidate → w'.world.service.agent = candidate)) w

/-- **The agent follows the configuration file**, in every run with any edits of it. -/
theorem config_converges (setup : Setup keys) (h : (fileMachine setup).Reachable w) :
    Follows setup w := by
  have hcalm : ∀ {w : FileWorld keys}, (fileMachine setup).Reachable w →
      w.reloads.tasks = [] → w.world.service.reloadPending = false := by
    intro w hw hnone
    obtain ⟨-, agent, hR⟩ := fileInv hw
    by_contra hpending
    exact hR.pending (by simpa using hpending) (JoinSet.ids_eq_nil.mpr hnone)
  obtain ⟨hI, -⟩ := fileInv h
  refine ⟨?_, ?_, ?_, ?_⟩
  · obtain ⟨file, hversion, hload⟩ := hI.served
    exact ⟨file, hversion, load_eq_ok.mp hload⟩
  · exact fun a w' hstep => served_le hI (file_step hstep)
  · exact fun hannounced hnone candidate =>
      Cli.upToDate hI (hcalm h hnone) hannounced hnone
  · intro hrunning
    refine Machine.inevitable_of_rank
      (I := fun w' => (fileMachine setup).Reachable w' ∧ w'.world.service.phase = .running ∧
        w'.file = w.file ∧ w'.announced = w.announced)
      FileWorld.buildRank ?_ ?_ w ⟨h, hrunning, rfl, rfl⟩
    · rintro w' ⟨hw', hrunning', hfile, hannounced'⟩
      obtain ⟨hI', -⟩ := fileInv hw'
      by_cases hnone : w'.reloads.tasks = []
      · refine Or.inl ⟨hnone, fun hannounced candidate haccepts => ?_⟩
        rw [← hfile] at haccepts
        exact Cli.upToDate hI' (hcalm hw' hnone) (hannounced'.trans hannounced) hnone haccepts
      · obtain ⟨a, w'', hbuild, hstep⟩ := build_goes_on hI' hrunning' hnone
        exact Or.inr ⟨a, w'', hbuild, hstep⟩
    · rintro w' a w'' ⟨hw', hrunning', hfile, hannounced'⟩ ⟨hbuild, hstep⟩
      obtain ⟨-, agent, hR⟩ := fileInv hw'
      obtain ⟨hlt, hphase, hfile', hannounced''⟩ :=
        buildRank_lt hR.one hrunning' hbuild (file_step hstep)
      exact ⟨⟨hw'.step hstep, hphase, hfile'.trans hfile, hannounced''.trans hannounced'⟩, hlt⟩

/-- The file is edited twice, the second time while a build has already read it; both edits
are announced. -/
theorem config_converges_edited : ∃ w : FileWorld plainKeys,
    w.served = 2 ∧ w.world.service.agent.providers.length = 3 ∧ w.announced = true ∧
      Follows plainSetup w := by
  obtain ⟨agent, hload⟩ : ∃ agent, plainSetup.load (.ok "a") = .ok agent := ⟨_, rfl⟩
  let run : List (FileAction plainKeys) := [.edit (.ok "ab"), .serve (.signal .reload), .read 0,
    .edit (.ok "abc"), .serve (.signal .reload), .ends 0, .serve (.joinReload 0), .read 1, .ends 1,
    .serve (.joinReload 1)]
  have hrun : (Machine.exec (FileWorld.step plainSetup) (FileWorld.start (.ok "a") agent) run).any
      (fun w => w.served == 2 && w.world.service.agent.providers.length == 3 && w.announced) =
        true := by
    obtain rfl := Except.ok.inj hload
    decide +kernel
  obtain ⟨w, hw, hp⟩ := (Option.any_eq_true _ _).mp hrun
  simp only [Bool.and_eq_true, beq_iff_eq] at hp
  obtain ⟨⟨hserved, hlength⟩, hannounced⟩ := hp
  exact ⟨w, hserved, hlength, hannounced, config_converges plainSetup
    (Machine.reachable_of_exec run ⟨_, _, hload, rfl⟩ hw)⟩

end Keyring.Cli
