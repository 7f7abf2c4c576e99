/-
What one step of the service can do.

`Arm` says it action by action, in the words of the service.  `Turn` says it for the
agent, its stop channel and the builds: the two ways a reload signal is taken, the shutdown,
a client, the join of a build, the end of a build, and everything else, which leaves these
alone.
-/
import Keyring.Cli.Serve

namespace Keyring.Cli.Serve

open Keyring.Service

variable {Provider : Type*} {s s' : Service Provider} {a : Action Provider}
  {events : List (Event Provider)} {w w' : World Provider}

/-! ### Every step is an arm -/

/-- The drain, before and after the clients were cancelled. -/
inductive Phase.Drains : Phase → Prop
  | draining : Phase.Drains .draining
  | cancelling : Phase.Drains .cancelling

/-- What each action does, and when it can be taken. -/
inductive Arm (s : Service Provider) :
    Action Provider → Service Provider → List (Event Provider) → Prop
  | signal (event : SignalEvent) (hrun : s.phase = .running) :
      Arm s (.signal event) (s.handleSignal event).1 (s.handleSignal event).2
  | accept (accepted : Except String Unit) (hrun : s.phase = .running) :
      Arm s (.accept accepted) (s.handleAccepted accepted).1 (s.handleAccepted accepted).2
  | joinReload {build : Nat} {loaded : Loaded Provider}
      {reloads : JoinSet Unit (Loaded Provider)} (hrun : s.phase = .running)
      (hjoin : s.reloads.joinNext build = some (loaded, reloads)) :
      Arm s (.joinReload build) ({ s with reloads }.handleLoaded loaded).restart.1
        (.joined build loaded :: ({ s with reloads }.handleLoaded loaded).restart.2)
  | joinJob {job : Nat} {result : Except JoinError Unit}
      {jobs : JoinSet (Client Provider) (Except JoinError Unit)}
      (hphase : s.phase = .running ∨ s.phase.Drains)
      (hjoin : s.jobs.joinNext job = some (result, jobs)) : Arm s (.joinJob job) { s with jobs } []
  | timeout (hphase : s.phase = .draining) : Arm s .timeout { s with phase := .cancelling } []
  | drained (hphase : s.phase.Drains) (hnone : s.jobs.tasks = []) :
      Arm s .drained { s with phase := .returned (.ok ()) } []
  | buildEnds (build : Nat) (config : Except JoinError (Except String (List Provider))) :
      Arm s (.buildEnds build config)
        { s with reloads := s.reloads.finish build (config.map load) } []
  | jobEnds (job : Nat) (result : Except JoinError Unit) :
      Arm s (.jobEnds job result) { s with jobs := s.jobs.finish job result } []

/-- **Every step is one of the arms.** -/
theorem step_arm (h : w.step a = some w') :
    ∃ s events, Arm w.service a s events ∧ w' = w.moved s events := by
  cases a with
  | signal event =>
      simp only [World.step] at h
      split at h
      · exact ⟨_, _, .signal event ‹_›, (Option.some.inj h).symm⟩
      · cases h
  | accept accepted =>
      simp only [World.step] at h
      split at h
      · exact ⟨_, _, .accept accepted ‹_›, (Option.some.inj h).symm⟩
      · cases h
  | joinReload build =>
      simp only [World.step] at h
      split at h
      · obtain ⟨⟨loaded, reloads⟩, hjoin, hw⟩ := Option.map_eq_some_iff.mp h
        exact ⟨_, _, .joinReload ‹_› hjoin, hw.symm⟩
      · cases h
  | joinJob job =>
      simp only [World.step] at h
      split at h
      · cases h
      · rename_i hreturned
        obtain ⟨⟨result, jobs⟩, hjoin, hw⟩ := Option.map_eq_some_iff.mp h
        refine ⟨_, _, .joinJob ?_ hjoin, hw.symm⟩
        cases hphase : w.service.phase with
        | running => exact Or.inl rfl
        | draining => exact Or.inr .draining
        | cancelling => exact Or.inr .cancelling
        | returned result => exact absurd hphase (hreturned result)
  | timeout =>
      simp only [World.step] at h
      split at h
      · exact ⟨_, _, .timeout ‹_›, (Option.some.inj h).symm⟩
      · cases h
  | drained =>
      simp only [World.step] at h
      split at h
      · rename_i hphase
        obtain ⟨hnone, hw⟩ := Option.ite_none_right_eq_some.mp h
        exact ⟨_, _, .drained (hphase ▸ .draining) (List.isEmpty_iff.mp hnone),
          (Option.some.inj hw).symm⟩
      · rename_i hphase
        obtain ⟨hnone, hw⟩ := Option.ite_none_right_eq_some.mp h
        exact ⟨_, _, .drained (hphase ▸ .cancelling) (List.isEmpty_iff.mp hnone),
          (Option.some.inj hw).symm⟩
      · cases h
  | buildEnds build config => exact ⟨_, _, .buildEnds build config, (Option.some.inj h).symm⟩
  | jobEnds job result => exact ⟨_, _, .jobEnds job result, (Option.some.inj h).symm⟩

/-! ### Turns -/

/-- A step that has nothing to do with the agent, its stop channel or a build. -/
structure Quiet (s s' : Service Provider) : Prop where
  agent : s'.agent = s.agent
  stop : s'.stop = s.stop
  channels : s'.channels = s.channels
  reloads : s'.reloads = s.reloads
  reloadPending : s'.reloadPending = s.reloadPending
  running : s'.phase = .running → s.phase = .running

/-- What a step does to the service, and what it writes down. -/
inductive Turn (s : Service Provider) :
    Action Provider → Service Provider → List (Event Provider) → Prop
  | started (hrun : s.phase = .running) (hnone : s.reloads.tasks = []) :
      Turn s (.signal .reload) { s with reloads := s.reloads.spawn () }
        [.reload, .started s.reloads.spawned]
  | coalesced (hrun : s.phase = .running) (hsome : s.reloads.tasks ≠ []) :
      Turn s (.signal .reload) { s with reloadPending := true } [.reload]
  | shutdown (hrun : s.phase = .running) :
      Turn s (.signal .shutdown) { s.sendStop with phase := .draining } [.shutdown]
  | accepted (hrun : s.phase = .running) :
      Turn s (.accept (.ok ())) { s with jobs := s.jobs.spawn ⟨s.agent.newSession, s.stop⟩ }
        [.accepted s.agent.newSession s.stop]
  | joined {build : Nat} {loaded : Loaded Provider} {reloads : JoinSet Unit (Loaded Provider)}
      (hrun : s.phase = .running) (hjoin : s.reloads.joinNext build = some (loaded, reloads)) :
      Turn s (.joinReload build) ({ s with reloads }.handleLoaded loaded).restart.1
        (.joined build loaded :: ({ s with reloads }.handleLoaded loaded).restart.2)
  | ended {build : Nat} {config : Except JoinError (Except String (List Provider))} :
      Turn s (.buildEnds build config)
        { s with reloads := s.reloads.finish build (config.map load) } []
  | quiet {a : Action Provider} {s' : Service Provider} (h : Quiet s s') : Turn s a s' []

theorem turn_reload (hrun : s.phase = .running) :
    Turn s (.signal .reload) (s.handleSignal .reload).1 (s.handleSignal .reload).2 := by
  unfold Service.handleSignal
  by_cases hnone : s.reloads.tasks = []
  · have hempty : s.reloads.isEmpty = true := by
      rw [JoinSet.isEmpty, hnone]
      rfl
    rw [if_pos hempty]
    exact Turn.started hrun hnone
  · have hempty : ¬s.reloads.isEmpty = true := by
      intro h
      exact hnone (List.isEmpty_iff.mp h)
    rw [if_neg hempty]
    exact Turn.coalesced hrun hnone

theorem turn_accept (hrun : s.phase = .running) (accepted : Except String Unit) :
    Turn s (.accept accepted) (s.handleAccepted accepted).1 (s.handleAccepted accepted).2 := by
  cases accepted with
  | ok _ => exact Turn.accepted hrun
  | error error => exact Turn.quiet ⟨rfl, rfl, rfl, rfl, rfl, fun _ => hrun⟩

theorem Arm.turn (h : Arm s a s' events) : Turn s a s' events := by
  cases h with
  | signal event hrun =>
      cases event with
      | reload => exact turn_reload hrun
      | shutdown => exact Turn.shutdown hrun
  | accept accepted hrun => exact turn_accept hrun accepted
  | joinReload hrun hjoin => exact Turn.joined hrun hjoin
  | joinJob hphase hjoin => exact Turn.quiet ⟨rfl, rfl, rfl, rfl, rfl, id⟩
  | timeout hphase => exact Turn.quiet ⟨rfl, rfl, rfl, rfl, rfl, by simp⟩
  | drained hphase hnone => exact Turn.quiet ⟨rfl, rfl, rfl, rfl, rfl, by simp⟩
  | buildEnds build config => exact Turn.ended
  | jobEnds job result => exact Turn.quiet ⟨rfl, rfl, rfl, rfl, rfl, id⟩

/-- **Every step is one of the turns.** -/
theorem step_turn (h : w.step a = some w') :
    ∃ s events, Turn w.service a s events ∧ w' = w.moved s events := by
  obtain ⟨s, events, harm, hw⟩ := step_arm h
  exact ⟨s, events, harm.turn, hw⟩

/-- **What holds at the start and survives every turn holds in every run.** -/
theorem serve_invariant {agent : ServiceAgent Provider} {I : World Provider → Prop}
    (hstart : I (World.start agent))
    (hturn : ∀ w a s events, I w → Turn w.service a s events → I (w.moved s events))
    (h : (serveMachine agent).Reachable w) : I w := by
  refine h.invariant ?_ ?_
  · intro w hw
    exact hw ▸ hstart
  · intro w w' a _ hI hstep
    obtain ⟨s, events, hm, rfl⟩ := step_turn hstep
    exact hturn w a s events hI hm

/-! ### The parts of a turn -/

@[simp] theorem moved_service : (w.moved s events).service = s := rfl

@[simp] theorem moved_log : (w.moved s events).log = w.log ++ events := rfl

/-- A coalesced signal starts the next build; otherwise nothing follows the join. -/
theorem restart_cases (s : Service Provider) :
    (s.reloadPending = false ∧ s.restart = (s, [])) ∨
      s.reloadPending = true ∧ s.restart =
        ({ s with reloadPending := false, reloads := s.reloads.spawn () },
          [.started s.reloads.spawned]) := by
  cases hpending : s.reloadPending with
  | false => exact Or.inl ⟨rfl, by rw [Service.restart, hpending]; rfl⟩
  | true => exact Or.inr ⟨rfl, by rw [Service.restart, hpending]; rfl⟩

@[simp] theorem handleLoaded_reloads (s : Service Provider) (loaded : Loaded Provider) :
    (s.handleLoaded loaded).reloads = s.reloads := by
  unfold Service.handleLoaded
  split <;> rfl

@[simp] theorem handleLoaded_reloadPending (s : Service Provider) (loaded : Loaded Provider) :
    (s.handleLoaded loaded).reloadPending = s.reloadPending := by
  unfold Service.handleLoaded
  split <;> rfl

@[simp] theorem handleLoaded_phase (s : Service Provider) (loaded : Loaded Provider) :
    (s.handleLoaded loaded).phase = s.phase := by
  unfold Service.handleLoaded
  split <;> rfl

/-- The start of the next build has nothing to do with the agent. -/
theorem restart_frame (s : Service Provider) :
    s.restart.1.agent = s.agent ∧ s.restart.1.stop = s.stop ∧
      s.restart.1.channels = s.channels ∧ s.restart.1.phase = s.phase := by
  rcases restart_cases s with ⟨-, h⟩ | ⟨-, h⟩ <;> rw [h] <;> exact ⟨rfl, rfl, rfl, rfl⟩

end Keyring.Cli.Serve
