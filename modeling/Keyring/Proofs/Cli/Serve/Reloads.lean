/-
No reload is lost or reordered.

One build is tracked at a time.  A signal that finds one sets a flag, and the join of that
build takes the flag down by starting another one.  So as long as the flag is down, every
signal so far has a build that was started after it; where nothing is tracked the flag is
down.  Builds are joined in the order they were started, because the next one is started
when none is left.
-/
import Keyring.Proofs.Cli.Serve.Turns
import Keyring.Lib.History
import Mathlib.Data.List.Range

namespace Keyring.Cli.Serve

open Keyring.Service History

variable {Provider : Type*} {s s' : Service Provider} {a : Action Provider}
  {events log : List (Event Provider)} {w w' : World Provider}
  {initial agent candidate : ServiceAgent Provider}

/-! ### What a history says of the builds -/

def Event.isReload : Event Provider → Bool
  | .reload => true
  | _ => false

/-- The build that an event starts. -/
def Event.starts : Event Provider → Option Nat
  | .started build => some build
  | _ => none

/-- The builds started, in order. -/
def builds (log : List (Event Provider)) : List Nat := log.filterMap Event.starts

/-- The number of reload signals handled. -/
def signals (log : List (Event Provider)) : Nat := log.countP Event.isReload

/-- After every reload signal a build was started. -/
def Reread (log : List (Event Provider)) : Prop :=
  Followed (fun e => e = .reload) (fun e => ∃ build, e = .started build) log

/-- The agent is the result of the last build that succeeded, or the first one if none
did. -/
def LatestLoaded (initial : ServiceAgent Provider) (log : List (Event Provider))
    (agent : ServiceAgent Provider) : Prop :=
  ((∀ n c, .joined n (.ok (.ok c)) ∉ log) ∧ agent = initial) ∨
    ∃ n, .joined n (.ok (.ok agent)) ∈ log ∧
      ∀ m c, .joined m (.ok (.ok c)) ∈ log → m < n ∨ m = n ∧ c = agent

@[simp] theorem builds_append (log new : List (Event Provider)) :
    builds (log ++ new) = builds log ++ builds new := List.filterMap_append

@[simp] theorem signals_append (log new : List (Event Provider)) :
    signals (log ++ new) = signals log + signals new := List.countP_append

theorem Reread.append (h : Reread log) (hnew : .reload ∉ events) : Reread (log ++ events) := by
  apply Followed.append h
  apply followed_of_none
  intro e he hreload
  exact hnew (hreload ▸ he)

/-- A build started at the end follows every signal. -/
theorem reread_started (log : List (Event Provider)) (build : Nat) :
    Reread (log ++ [.started build]) :=
  followed_snoc log ⟨build, rfl⟩ (by simp)

theorem LatestLoaded.append (h : LatestLoaded initial log agent)
    (hnew : ∀ n c, .joined n (.ok (.ok c)) ∉ events) :
    LatestLoaded initial (log ++ events) agent := by
  have hold : ∀ {n c}, .joined n (.ok (.ok c)) ∈ log ++ events → .joined n (.ok (.ok c)) ∈ log := by
    intro n c hmem
    rcases List.mem_append.mp hmem with h | h
    · exact h
    · exact absurd h (hnew n c)
  rcases h with ⟨hnone, hagent⟩ | ⟨n, hmem, hlast⟩
  · exact Or.inl ⟨fun n c hmem => hnone n c (hold hmem), hagent⟩
  · exact Or.inr ⟨n, List.mem_append_left events hmem, fun m c hm => hlast m c (hold hm)⟩

/-- A build that succeeds after all others is the last one. -/
theorem latestLoaded_joined {build : Nat} (hlast : ∀ m loaded, .joined m loaded ∈ log → m < build)
    (hmem : .joined build (.ok (.ok candidate)) ∈ events)
    (honly : ∀ m c, .joined m (.ok (.ok c)) ∈ events → m = build ∧ c = candidate) :
    LatestLoaded initial (log ++ events) candidate := by
  refine Or.inr ⟨build, List.mem_append_right log hmem, ?_⟩
  intro m c hm
  rcases List.mem_append.mp hm with hold | hnew
  · exact Or.inl (hlast m _ hold)
  · exact Or.inr (honly m c hnew)

/-! ### The invariant -/

/-- The tracked build, the flag and the agent fit the history. -/
structure ReloadInv (initial : ServiceAgent Provider) (w : World Provider) : Prop where
  one : w.service.reloads.ids.length ≤ 1
  pending : w.service.reloadPending = true → w.service.reloads.ids ≠ []
  reread : w.service.reloadPending = false → Reread w.log
  count : (builds w.log).length + w.service.reloadPending.toNat ≤ signals w.log
  order : builds w.log = List.range w.service.reloads.spawned
  joined : ∀ n loaded, .joined n loaded ∈ w.log →
    n < w.service.reloads.spawned ∧ ∀ id ∈ w.service.reloads.ids, n < id
  latest : LatestLoaded initial w.log w.service.agent

/-- A turn that has nothing to do with builds. -/
theorem ReloadInv.kept (hI : ReloadInv initial w) (hids : s.reloads.ids = w.service.reloads.ids)
    (hspawned : s.reloads.spawned = w.service.reloads.spawned)
    (hpending : s.reloadPending = w.service.reloadPending) (hagent : s.agent = w.service.agent)
    (hevents : ∀ e ∈ events, e.isReload = false ∧ e.starts = none)
    (hjoined : ∀ n loaded, .joined n loaded ∉ events) : ReloadInv initial (w.moved s events) := by
  have hbuilds : builds (w.log ++ events) = builds w.log := by
    have hnone : builds events = [] := List.filterMap_eq_nil_iff.mpr fun e he => (hevents e he).2
    rw [builds_append, hnone, List.append_nil]
  have hsignals : signals (w.log ++ events) = signals w.log := by
    have hzero : signals events = 0 := by
      apply List.countP_eq_zero.mpr
      intro e he
      rw [(hevents e he).1]
      exact Bool.false_ne_true
    rw [signals_append, hzero, Nat.add_zero]
  have hreload : (.reload : Event Provider) ∉ events := by
    intro hmem
    exact absurd (hevents _ hmem).1 (by simp [Event.isReload])
  refine ⟨?_, ?_, ?_, ?_, ?_, ?_, ?_⟩ <;> simp only [moved_service, moved_log]
  · rw [hids]
    exact hI.one
  · rw [hids, hpending]
    exact hI.pending
  · rw [hpending]
    exact fun h => (hI.reread h).append hreload
  · rw [hbuilds, hsignals, hpending]
    exact hI.count
  · rw [hbuilds, hspawned]
    exact hI.order
  · intro n loaded hmem
    rw [hids, hspawned]
    rcases List.mem_append.mp hmem with hold | hnew
    · exact hI.joined n loaded hold
    · exact absurd hnew (hjoined n loaded)
  · rw [hagent]
    exact hI.latest.append fun n c => hjoined n _

/-- A build is started where none is tracked, after some other events. -/
theorem ReloadInv.spawned (hI : ReloadInv initial w) (events : List (Event Provider))
    {reloads : JoinSet Unit (Loaded Provider)}
    (hnone : reloads.ids = []) (hspawned : reloads.spawned = w.service.reloads.spawned)
    (hreloads : s.reloads = reloads.spawn ()) (hcalm : s.reloadPending = false)
    (hbuilds : builds events = []) (hcount : (builds w.log).length + 1 ≤ signals (w.log ++ events))
    (hjoined : ∀ n loaded, .joined n loaded ∈ events → n < w.service.reloads.spawned)
    (hlatest : LatestLoaded initial (w.log ++ events) s.agent) :
    ReloadInv initial (w.moved s (events ++ [.started w.service.reloads.spawned])) := by
  have hlog : builds (w.log ++ (events ++ [.started w.service.reloads.spawned])) =
      builds w.log ++ [w.service.reloads.spawned] := by
    rw [builds_append, builds_append, hbuilds]
    rfl
  refine ⟨?_, ?_, ?_, ?_, ?_, ?_, ?_⟩ <;>
    simp only [moved_service, moved_log, hreloads, JoinSet.ids_spawn, JoinSet.spawned_spawn, hnone,
      hspawned]
  · exact Nat.le_refl 1
  · simp
  · intro _
    rw [← List.append_assoc]
    exact reread_started _ _
  · rw [hlog, hcalm, ← List.append_assoc, signals_append, List.length_append]
    exact hcount
  · rw [hlog, hI.order, List.range_succ]
  · intro n loaded hmem
    have hlt : n < w.service.reloads.spawned := by
      rw [← List.append_assoc] at hmem
      rcases List.mem_append.mp hmem with hbefore | hlast
      · rcases List.mem_append.mp hbefore with hold | hnew
        · exact (hI.joined n loaded hold).1
        · exact hjoined n loaded hnew
      · exact absurd hlast (by simp)
    refine ⟨Nat.lt_succ_of_lt hlt, ?_⟩
    intro id hid
    rw [List.nil_append, List.mem_singleton] at hid
    rw [hid]
    exact hlt
  · rw [← List.append_assoc]
    exact hlatest.append (by simp)

/-- A signal that finds no build starts one. -/
theorem ReloadInv.started (hI : ReloadInv initial w) (hnone : w.service.reloads.ids = []) :
    ReloadInv initial (w.moved { w.service with reloads := w.service.reloads.spawn () }
      [.reload, .started w.service.reloads.spawned]) := by
  have hcalm : w.service.reloadPending = false := by
    by_contra h
    exact hI.pending (by simpa using h) hnone
  have hcount := hI.count
  refine hI.spawned [.reload] hnone rfl rfl hcalm rfl ?_ (by simp) ?_
  · rw [hcalm] at hcount
    rw [signals_append]
    exact Nat.add_le_add_right hcount 1
  · exact hI.latest.append (by simp)

/-- A signal that finds a build sets the flag. -/
theorem ReloadInv.coalesced (hI : ReloadInv initial w) (hsome : w.service.reloads.ids ≠ []) :
    ReloadInv initial (w.moved { w.service with reloadPending := true } [.reload]) := by
  have hcount := hI.count
  refine ⟨hI.one, fun _ => hsome, by simp, ?_, ?_, ?_, ?_⟩ <;> simp only [moved_service, moved_log]
  · have hle : (builds w.log).length ≤ signals w.log := by omega
    rw [builds_append, signals_append, List.length_append]
    exact Nat.add_le_add_right hle 1
  · rw [builds_append, hI.order]
    exact List.append_nil _
  · intro n loaded hmem
    rcases List.mem_append.mp hmem with hold | hnew
    · exact hI.joined n loaded hold
    · exact absurd hnew (by simp)
  · exact hI.latest.append (by simp)

/-- The result of the only build comes in. -/
theorem ReloadInv.latest_joined (hI : ReloadInv initial w) {build : Nat}
    {loaded : Loaded Provider} {later : List (Event Provider)}
    (hmem : build ∈ w.service.reloads.ids) (hagent : s.agent = w.service.agent)
    (hlater : ∀ n loaded, .joined n loaded ∉ later) :
    LatestLoaded initial (w.log ++ .joined build loaded :: later) (s.handleLoaded loaded).agent := by
  have hsuccess : ∀ m c, .joined m (.ok (.ok c)) ∈ Event.joined build loaded :: later →
      m = build ∧ loaded = .ok (.ok c) := by
    intro m c h
    rcases List.mem_cons.mp h with heq | hin
    · obtain ⟨rfl, rfl⟩ := Event.joined.inj heq
      exact ⟨rfl, rfl⟩
    · exact absurd hin (hlater m _)
  match loaded with
  | .ok (.ok candidate) =>
      have hlast : ∀ m loaded, .joined m loaded ∈ w.log → m < build :=
        fun m loaded h => (hI.joined m loaded h).2 build hmem
      show LatestLoaded initial _ candidate
      apply latestLoaded_joined hlast List.mem_cons_self
      intro m c h
      obtain ⟨hm, hc⟩ := hsuccess m c h
      exact ⟨hm, by simpa using hc.symm⟩
  | .ok (.error error) =>
      show LatestLoaded initial _ s.agent
      rw [hagent]
      apply hI.latest.append
      intro n c h
      exact absurd (hsuccess n c h).2 (by simp)
  | .error error =>
      show LatestLoaded initial _ s.agent
      rw [hagent]
      apply hI.latest.append
      intro n c h
      exact absurd (hsuccess n c h).2 (by simp)

/-- The join of the only build, with no signal waiting for it. -/
theorem ReloadInv.joined_calm (hI : ReloadInv initial w) {build : Nat} {loaded : Loaded Provider}
    (hmem : build ∈ w.service.reloads.ids) (hcalm : w.service.reloadPending = false)
    (hnone : s.reloads.ids = []) (hspawned : s.reloads.spawned = w.service.reloads.spawned)
    (hpending : s.reloadPending = w.service.reloadPending) (hagent : s.agent = w.service.agent) :
    ReloadInv initial (w.moved (s.handleLoaded loaded) [.joined build loaded]) := by
  have hcount := hI.count
  refine ⟨?_, ?_, ?_, ?_, ?_, ?_, ?_⟩ <;>
    simp only [moved_service, moved_log, handleLoaded_reloads, handleLoaded_reloadPending]
  · rw [hnone]
    exact Nat.zero_le 1
  · rw [hpending, hcalm]
    simp
  · intro _
    exact (hI.reread hcalm).append (by simp)
  · rw [hpending, builds_append, signals_append, List.length_append]
    exact hcount
  · rw [hspawned, builds_append, hI.order]
    exact List.append_nil _
  · intro n loaded' hjoined
    rw [hnone, hspawned]
    refine ⟨?_, fun id hid => absurd hid (by simp)⟩
    rcases List.mem_append.mp hjoined with hold | hnew
    · exact (hI.joined n loaded' hold).1
    · obtain ⟨rfl, rfl⟩ := Event.joined.inj (List.mem_singleton.mp hnew)
      exact JoinSet.lt_of_mem_ids hmem
  · exact hI.latest_joined hmem hagent (by simp)

/-- The join of the only build, when signals have come in since its start. -/
theorem ReloadInv.joined_pending (hI : ReloadInv initial w) {build : Nat}
    {loaded : Loaded Provider} (hmem : build ∈ w.service.reloads.ids)
    (hpending : w.service.reloadPending = true) (hnone : s.reloads.ids = [])
    (hspawned : s.reloads.spawned = w.service.reloads.spawned)
    (hagent : s.agent = w.service.agent) :
    ReloadInv initial (w.moved
      { s.handleLoaded loaded with
        reloadPending := false, reloads := (s.handleLoaded loaded).reloads.spawn () }
      [.joined build loaded, .started (s.handleLoaded loaded).reloads.spawned]) := by
  have hcount := hI.count
  rw [handleLoaded_reloads, hspawned]
  refine hI.spawned [.joined build loaded] hnone hspawned rfl rfl rfl ?_ ?_ ?_
  · rw [hpending] at hcount
    rw [signals_append]
    exact hcount
  · intro n loaded' hjoined
    obtain ⟨rfl, rfl⟩ := Event.joined.inj (List.mem_singleton.mp hjoined)
    exact JoinSet.lt_of_mem_ids hmem
  · exact hI.latest_joined hmem hagent (by simp)

theorem ReloadInv.moved (hI : ReloadInv initial w) (ht : Turn w.service a s events) :
    ReloadInv initial (w.moved s events) := by
  cases ht with
  | started hrun hnone => exact hI.started (JoinSet.ids_eq_nil.mpr hnone)
  | coalesced hrun hsome => exact hI.coalesced fun h => hsome (JoinSet.ids_eq_nil.mp h)
  | shutdown hrun => exact hI.kept rfl rfl rfl rfl (by simp [Event.isReload, Event.starts]) (by simp)
  | accepted hrun => exact hI.kept rfl rfl rfl rfl (by simp [Event.isReload, Event.starts]) (by simp)
  | joined hrun hjoin =>
      rename_i build loaded reloads
      obtain ⟨hmem, -, hspawned⟩ := JoinSet.joinNext_eq_some hjoin
      have hnone : reloads.ids = [] := JoinSet.ids_joinNext_of_single hI.one hjoin
      rcases restart_cases ({ w.service with reloads }.handleLoaded loaded) with
        ⟨hcalm, hrestart⟩ | ⟨hpending, hrestart⟩
      · rw [hrestart]
        rw [handleLoaded_reloadPending] at hcalm
        exact hI.joined_calm hmem hcalm hnone hspawned rfl rfl
      · rw [hrestart]
        rw [handleLoaded_reloadPending] at hpending
        exact hI.joined_pending hmem hpending hnone hspawned rfl
  | ended => exact hI.kept (JoinSet.ids_finish _ _ _) rfl rfl rfl (by simp) (by simp)
  | quiet hquiet =>
      exact hI.kept (congrArg JoinSet.ids hquiet.reloads) (congrArg JoinSet.spawned hquiet.reloads)
        hquiet.reloadPending hquiet.agent (by simp) (by simp)

theorem reloadInv (h : (serveMachine initial).Reachable w) : ReloadInv initial w := by
  refine serve_invariant ?_ ?_ h
  · refine ⟨Nat.zero_le 1, ?_, ?_, Nat.le_refl 0, rfl, ?_, Or.inl ⟨?_, rfl⟩⟩
    · intro hpending
      exact absurd hpending Bool.false_ne_true
    · intro _
      exact followed_of_none (by simp [World.start])
    · intro n loaded hmem
      exact absurd hmem (by simp [World.start])
    · intro n c hmem
      exact absurd hmem (by simp [World.start])
  · intro w a s events hI ht
    exact hI.moved ht

/-! ### In every run -/

/-- What holds of the builds in every reachable state.  The builds are numbered as they are
started, so the last build is the one with the greatest number. -/
structure NoReloadLost (initial : ServiceAgent Provider) (w : World Provider) : Prop where
  one : w.service.reloads.tasks.length ≤ 1
  pending : w.service.reloadPending = true → w.service.reloads.tasks ≠ []
  reread : w.service.reloads.tasks = [] → Reread w.log
  count : (builds w.log).length ≤ signals w.log
  order : builds w.log = List.range w.service.reloads.spawned
  joined : ∀ n loaded, .joined n loaded ∈ w.log → n ∈ builds w.log
  latest : LatestLoaded initial w.log w.service.agent

/-- **No reload is lost or reordered**, in every run of the service. -/
theorem serve_noReloadLost (h : (serveMachine initial).Reachable w) : NoReloadLost initial w := by
  have hI := reloadInv h
  have hcount := hI.count
  refine ⟨?_, ?_, ?_, ?_, hI.order, ?_, hI.latest⟩
  · rw [← JoinSet.ids_length]
    exact hI.one
  · intro hpending hnone
    exact hI.pending hpending (JoinSet.ids_eq_nil.mpr hnone)
  · intro hnone
    apply hI.reread
    by_contra hpending
    exact hI.pending (by simpa using hpending) (JoinSet.ids_eq_nil.mpr hnone)
  · omega
  · intro n loaded hmem
    rw [hI.order, List.mem_range]
    exact (hI.joined n loaded hmem).1

/-- Three signals, two of them during the first build, which fails.  The second build
succeeds. -/
theorem serve_noReloadLost_coalesced : ∃ w : World Nat,
    builds w.log = [0, 1] ∧ signals w.log = 3 ∧ w.service.reloads.tasks.length = 0 ∧
      NoReloadLost ⟨[1], by simp⟩ w := by
  let run : List (Action Nat) := [.signal .reload, .signal .reload, .signal .reload,
    .buildEnds 0 (.error .panicked), .joinReload 0, .buildEnds 1 (.ok (.ok [2])), .joinReload 1]
  have hrun : (Machine.exec World.step (World.start ⟨[1], by simp⟩) run).any
      (fun w => builds w.log == [0, 1] && signals w.log == 3 &&
        w.service.reloads.tasks.length == 0) = true := by decide
  obtain ⟨w, hw, hp⟩ := (Option.any_eq_true _ _).mp hrun
  simp only [Bool.and_eq_true, beq_iff_eq] at hp
  obtain ⟨⟨hbuilds, hsignals⟩, hnone⟩ := hp
  exact ⟨w, hbuilds, hsignals, hnone, serve_noReloadLost (Machine.reachable_of_exec run rfl hw)⟩

end Keyring.Cli.Serve
