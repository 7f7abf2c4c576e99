/-
Every session belongs to one generation.

A generation is an agent and the stop channel made for it.  The history fixes the agents:
the first one, then every candidate that was joined with success.  The service keeps the
last of them with the last channel, so that a client gets both from the same generation,
and a channel is raised when its generation is replaced or the service shuts down.
-/
import Keyring.Proofs.Cli.Serve.Turns

namespace Keyring.Cli.Serve

open Keyring.Service

variable {Provider : Type*} {s s' : Service Provider} {a : Action Provider}
  {events : List (Event Provider)} {w w' : World Provider} {initial : ServiceAgent Provider}

/-- The agent an event has put in place. -/
def Event.installed : Event Provider → Option (ServiceAgent Provider)
  | .joined _ (.ok (.ok candidate)) => some candidate
  | _ => none

/-- The agents of all generations so far. -/
def generations (initial : ServiceAgent Provider) (log : List (Event Provider)) :
    List (ServiceAgent Provider) := initial :: log.filterMap Event.installed

theorem generations_append (log new : List (Event Provider)) :
    generations initial (log ++ new) =
      generations initial log ++ new.filterMap Event.installed := by
  unfold generations
  rw [List.filterMap_append, List.cons_append]

/-- Later events leave the generations there were. -/
theorem generations_keeps {log : List (Event Provider)} {agent : ServiceAgent Provider} {g : Nat}
    (h : (generations initial log)[g]? = some agent) (new : List (Event Provider)) :
    (generations initial (log ++ new))[g]? = some agent := by
  have hlt : g < (generations initial log).length := (List.getElem?_eq_some_iff.mp h).1
  rw [generations_append, List.getElem?_append_left hlt, h]

/-! ### One turn -/

/-- What a turn does to the agent and its channel: nothing, a replacement, or the
shutdown. -/
inductive Effect (s s' : Service Provider) (events : List (Event Provider)) : Prop
  | none (hagent : s'.agent = s.agent) (hstop : s'.stop = s.stop)
      (hchannels : s'.channels = s.channels) (hinstalled : events.filterMap Event.installed = [])
      (hshutdown : .shutdown ∉ events)
  | replaced (hstop : s'.stop = s.channels.length)
      (hchannels : s'.channels = s.channels.set s.stop true ++ [false])
      (hinstalled : events.filterMap Event.installed = [s'.agent]) (hrun : s.phase = .running)
      (hshutdown : .shutdown ∉ events)
  | shutdown (hagent : s'.agent = s.agent) (hstop : s'.stop = s.stop)
      (hchannels : s'.channels = s.channels.set s.stop true) (hevents : events = [.shutdown])
      (hphase : s'.phase = .draining)

/-- Starting the next build installs nothing. -/
theorem restart_installed (s : Service Provider) :
    s.restart.2.filterMap Event.installed = [] ∧ .shutdown ∉ s.restart.2 := by
  rcases restart_cases s with ⟨-, h⟩ | ⟨-, h⟩ <;> rw [h] <;> simp [Event.installed]

theorem effect_joined (build : Nat) (hrun : s.phase = .running) (loaded : Loaded Provider) :
    Effect s (s.handleLoaded loaded).restart.1
      (.joined build loaded :: (s.handleLoaded loaded).restart.2) := by
  obtain ⟨hagent, hstop, hchannels, -⟩ := restart_frame (s.handleLoaded loaded)
  obtain ⟨hnone, hshutdown⟩ := restart_installed (s.handleLoaded loaded)
  have hnot : (.shutdown : Event Provider) ∉
      .joined build loaded :: (s.handleLoaded loaded).restart.2 := by
    intro hmem
    rcases List.mem_cons.mp hmem with h | h
    · exact absurd h (by simp)
    · exact hshutdown h
  match loaded with
  | .ok (.ok candidate) =>
      refine Effect.replaced ?_ ?_ ?_ hrun hnot
      · rw [hstop]
        show (s.channels.set s.stop true).length = _
        rw [List.length_set]
      · rw [hchannels]
        rfl
      · rw [List.filterMap_cons, hnone, hagent]
        rfl
  | .ok (.error error) =>
      refine Effect.none hagent hstop hchannels ?_ hnot
      rw [List.filterMap_cons, hnone]
      rfl
  | .error error =>
      refine Effect.none hagent hstop hchannels ?_ hnot
      rw [List.filterMap_cons, hnone]
      rfl

theorem Turn.effect (h : Turn s a s' events) : Effect s s' events := by
  cases h with
  | started hrun hnone => exact Effect.none rfl rfl rfl rfl (by simp)
  | coalesced hrun hsome => exact Effect.none rfl rfl rfl rfl (by simp)
  | shutdown hrun => exact Effect.shutdown rfl rfl rfl rfl rfl
  | accepted hrun => exact Effect.none rfl rfl rfl rfl (by simp)
  | joined hrun hjoin =>
      rename_i build loaded reloads
      -- taking the build out of its set changes neither the agent nor the channels
      cases effect_joined (s := { s with reloads }) build hrun loaded with
      | none hagent hstop hchannels hinstalled hshutdown =>
          exact Effect.none hagent hstop hchannels hinstalled hshutdown
      | replaced hstop hchannels hinstalled hrun hshutdown =>
          exact Effect.replaced hstop hchannels hinstalled hrun hshutdown
      | shutdown hagent hstop hchannels hevents hphase =>
          exact Effect.shutdown hagent hstop hchannels hevents hphase
  | ended => exact Effect.none rfl rfl rfl rfl (by simp)
  | quiet hquiet =>
      exact Effect.none hquiet.agent hquiet.stop hquiet.channels rfl (by simp)

/-- No turn goes back into the loop. -/
theorem Turn.running (h : Turn s a s' events) (hrun' : s'.phase = .running) :
    s.phase = .running := by
  cases h with
  | started hrun hnone => exact hrun
  | coalesced hrun hsome => exact hrun
  | shutdown hrun => exact hrun
  | accepted hrun => exact hrun
  | joined hrun hjoin => exact hrun
  | ended => exact hrun'
  | quiet hquiet => exact hquiet.running hrun'

/-- A session is made by the agent in place and subscribes to the channel in use. -/
theorem Turn.accepts {session : ServiceSession Provider} {g : Nat} (h : Turn s a s' events)
    (hmem : .accepted session g ∈ events) : session = s.agent.newSession ∧ g = s.stop := by
  cases h with
  | accepted hrun =>
      obtain ⟨rfl, rfl⟩ := Event.accepted.inj (List.mem_singleton.mp hmem)
      exact ⟨rfl, rfl⟩
  | joined hrun hjoin =>
      rename_i build loaded reloads
      rcases List.mem_cons.mp hmem with hc | hc
      · exact absurd hc (by simp)
      · rcases restart_cases ({ s with reloads }.handleLoaded loaded) with ⟨-, hr⟩ | ⟨-, hr⟩ <;>
          rw [hr] at hc <;> exact absurd hc (by simp)
  | _ => exact absurd hmem (by simp)

/-! ### The invariant -/

/-- The agent and the channel in use are the last of their generations, and the channels
tell which generations are over. -/
structure GenerationInv (initial : ServiceAgent Provider) (w : World Provider) : Prop where
  agent : (generations initial w.log)[w.service.stop]? = some w.service.agent
  last : w.service.stop + 1 = (generations initial w.log).length
  channels : w.service.channels.length = (generations initial w.log).length
  flags : ∀ g, g < w.service.channels.length →
    (w.service.channels[g]? = some true ↔ g < w.service.stop ∨ .shutdown ∈ w.log)
  running : w.service.phase = .running → .shutdown ∉ w.log
  sessions : ∀ session g, .accepted session g ∈ w.log →
    ∃ agent, (generations initial w.log)[g]? = some agent ∧ session = agent.newSession

/-- Raising one flag. -/
theorem getElem?_set_true {flags : List Bool} {i g : Nat} (hg : g < flags.length) :
    (flags.set i true)[g]? = some true ↔ g = i ∨ flags[g]? = some true := by
  by_cases hgi : g = i
  · subst hgi
    rw [List.getElem?_set_self hg]
    simp
  · rw [List.getElem?_set_ne (Ne.symm hgi)]
    simp [hgi]

theorem GenerationInv.flags_moved (hI : GenerationInv initial w)
    (he : Effect w.service s events) : ∀ g, g < s.channels.length →
      (s.channels[g]? = some true ↔ g < s.stop ∨ .shutdown ∈ w.log ++ events) := by
  have hlast := hI.last
  have hlength := hI.channels
  intro g hg
  cases he with
  | none hagent hstop hchannels hinstalled hshutdown =>
      rw [hchannels] at hg
      rw [hchannels, hstop, hI.flags g hg]
      simp [hshutdown]
  | replaced hstop hchannels hinstalled hrun hshutdown =>
      have hnot : (.shutdown : Event Provider) ∉ w.log ++ events := by
        simp [hI.running hrun, hshutdown]
      rw [hchannels, List.length_append, List.length_set] at hg
      rw [hchannels, hstop]
      by_cases hlt : g < w.service.channels.length
      · rw [List.getElem?_append_left (by rwa [List.length_set]), getElem?_set_true hlt,
          hI.flags g hlt]
        simp only [hI.running hrun, hnot, or_false, hlt, iff_true]
        omega
      · -- the new channel
        have heq : g = w.service.channels.length := by
          simp only [List.length_singleton] at hg
          omega
        subst heq
        have hend : (w.service.channels.set w.service.stop true).length ≤
            w.service.channels.length := Nat.le_of_eq List.length_set
        rw [List.getElem?_append_right hend, List.length_set, Nat.sub_self]
        simp [hnot]
  | shutdown hagent hstop hchannels hevents hphase =>
      rw [hchannels, List.length_set] at hg
      rw [hchannels, getElem?_set_true hg, hI.flags g hg, hevents]
      have hle : g = w.service.stop ∨ g < w.service.stop := by omega
      simp only [List.mem_append, List.mem_singleton, or_true, iff_true]
      rcases hle with h | h
      · exact Or.inl h
      · exact Or.inr (Or.inl h)

theorem GenerationInv.sessions_moved (hI : GenerationInv initial w)
    (ht : Turn w.service a s events) :
    ∀ session g, .accepted session g ∈ w.log ++ events →
      ∃ agent, (generations initial (w.log ++ events))[g]? = some agent ∧
        session = agent.newSession := by
  intro session g hmem
  rcases List.mem_append.mp hmem with hold | hnew
  · obtain ⟨agent, hg, hsession⟩ := hI.sessions session g hold
    exact ⟨agent, generations_keeps hg events, hsession⟩
  · obtain ⟨hsession, rfl⟩ := ht.accepts hnew
    exact ⟨w.service.agent, generations_keeps hI.agent events, hsession⟩

theorem GenerationInv.running_moved (hI : GenerationInv initial w)
    (ht : Turn w.service a s events) (hshutdown : .shutdown ∉ events)
    (hrun : s.phase = .running) : .shutdown ∉ w.log ++ events := by
  intro hmem
  rcases List.mem_append.mp hmem with hold | hnew
  · exact hI.running (ht.running hrun) hold
  · exact hshutdown hnew

/-- A turn that installs nothing leaves the last generation where it is. -/
theorem GenerationInv.same_moved (hI : GenerationInv initial w) (ht : Turn w.service a s events)
    (hinstalled : events.filterMap Event.installed = []) (hagent : s.agent = w.service.agent)
    (hstop : s.stop = w.service.stop) (hlength : s.channels.length = w.service.channels.length)
    (hrunning : s.phase = .running → .shutdown ∉ w.log ++ events) :
    GenerationInv initial (w.moved s events) := by
  have hsame : generations initial (w.log ++ events) = generations initial w.log := by
    rw [generations_append, hinstalled, List.append_nil]
  refine ⟨?_, ?_, ?_, hI.flags_moved ht.effect, hrunning, hI.sessions_moved ht⟩
  · rw [moved_service, moved_log, hsame, hstop, hagent]
    exact hI.agent
  · rw [moved_service, moved_log, hsame, hstop]
    exact hI.last
  · rw [moved_service, moved_log, hsame, hlength]
    exact hI.channels

theorem GenerationInv.moved (hI : GenerationInv initial w) (ht : Turn w.service a s events) :
    GenerationInv initial (w.moved s events) := by
  have hlength := hI.channels
  cases ht.effect with
  | none hagent hstop hchannels hinstalled hshutdown =>
      refine hI.same_moved ht hinstalled hagent hstop (by rw [hchannels]) ?_
      exact hI.running_moved ht hshutdown
  | replaced hstop hchannels hinstalled hrun hshutdown =>
      have hnext : generations initial (w.log ++ events) =
          generations initial w.log ++ [s.agent] := by
        rw [generations_append, hinstalled]
      refine ⟨?_, ?_, ?_, hI.flags_moved ht.effect, hI.running_moved ht hshutdown,
        hI.sessions_moved ht⟩
      · rw [moved_service, moved_log, hnext, hstop, hlength]
        rw [List.getElem?_append_right (Nat.le_refl _), Nat.sub_self]
        rfl
      · rw [moved_service, moved_log, hnext, hstop, List.length_append, hlength]
        rfl
      · rw [moved_service, moved_log, hnext, hchannels, List.length_append, List.length_set,
          List.length_append, hlength]
        rfl
  | shutdown hagent hstop hchannels hevents hphase =>
      refine hI.same_moved ht (by rw [hevents]; rfl) hagent hstop ?_ ?_
      · rw [hchannels, List.length_set]
      · intro hrun
        rw [hphase] at hrun
        exact absurd hrun (by simp)

theorem generationInv (h : (serveMachine initial).Reachable w) : GenerationInv initial w := by
  refine serve_invariant ?_ ?_ h
  · refine ⟨rfl, rfl, rfl, ?_, ?_, ?_⟩
    · intro g hg
      have hzero : g = 0 := Nat.lt_one_iff.mp hg
      subst hzero
      simp [World.start]
    · intro _ hmem
      exact absurd hmem (by simp [World.start])
    · intro session g hmem
      exact absurd hmem (by simp [World.start])
  · intro w a s events hI ht
    exact hI.moved ht

/-! ### The clients -/

/-- A reload signal is nothing to the clients. -/
theorem handleSignal_frame (s : Service Provider) :
    (s.handleSignal .reload).1.jobs = s.jobs ∧ (s.handleSignal .reload).1.phase = s.phase := by
  by_cases hempty : s.reloads.isEmpty = true
  · rw [Service.handleSignal, if_pos hempty]
    exact ⟨rfl, rfl⟩
  · rw [Service.handleSignal, if_neg hempty]
    exact ⟨rfl, rfl⟩

@[simp] theorem handleLoaded_jobs (s : Service Provider) (loaded : Loaded Provider) :
    (s.handleLoaded loaded).jobs = s.jobs := by
  unfold Service.handleLoaded
  split <;> rfl

@[simp] theorem restart_jobs (s : Service Provider) : s.restart.1.jobs = s.jobs := by
  rcases restart_cases s with ⟨-, h⟩ | ⟨-, h⟩ <;> rw [h]

/-- Every client was accepted. -/
def Accepted (jobs : JoinSet (Client Provider) (Except JoinError Unit))
    (log : List (Event Provider)) : Prop :=
  ∀ task ∈ jobs.tasks, .accepted task.input.session task.input.stop ∈ log

theorem Accepted.append {jobs : JoinSet (Client Provider) (Except JoinError Unit)}
    {log : List (Event Provider)} (h : Accepted jobs log) (new : List (Event Provider)) :
    Accepted jobs (log ++ new) := fun task htask => List.mem_append_left _ (h task htask)

theorem Accepted.spawn {jobs : JoinSet (Client Provider) (Except JoinError Unit)}
    {log : List (Event Provider)} (h : Accepted jobs log) (client : Client Provider) :
    Accepted (jobs.spawn client) (log ++ [.accepted client.session client.stop]) := by
  intro task htask
  rcases List.mem_append.mp htask with hold | hnew
  · exact List.mem_append_left _ (h task hold)
  · rw [List.mem_singleton.mp hnew]
    exact List.mem_append_right _ (List.mem_singleton_self _)

theorem Accepted.joinNext {jobs jobs' : JoinSet (Client Provider) (Except JoinError Unit)}
    {log : List (Event Provider)} {job : Nat} {result : Except JoinError Unit}
    (h : Accepted jobs log) (hjoin : jobs.joinNext job = some (result, jobs')) :
    Accepted jobs' log := by
  intro task htask
  rw [(JoinSet.tasks_joinNext hjoin).1] at htask
  exact h task (List.mem_filter.mp htask).1

theorem Accepted.finish {jobs : JoinSet (Client Provider) (Except JoinError Unit)}
    {log : List (Event Provider)} (h : Accepted jobs log) (job : Nat)
    (result : Except JoinError Unit) : Accepted (jobs.finish job result) log := by
  intro task htask
  obtain ⟨old, hold, rfl⟩ := List.mem_map.mp htask
  rw [JoinSet.Entry.finish_input]
  exact h old hold

theorem Arm.accepted (h : Arm s a s' events) {log : List (Event Provider)}
    (hjobs : Accepted s.jobs log) : Accepted s'.jobs (log ++ events) := by
  cases h with
  | signal event =>
      cases event with
      | reload =>
          rw [(handleSignal_frame s).1]
          exact hjobs.append _
      | shutdown => exact hjobs.append _
  | accept accepted =>
      cases accepted with
      | ok _ => exact hjobs.spawn _
      | error error => exact hjobs.append _
  | joinReload =>
      rw [restart_jobs, handleLoaded_jobs]
      exact hjobs.append _
  | joinJob hphase hjoin => exact (hjobs.joinNext hjoin).append _
  | timeout | drained | buildEnds => exact hjobs.append _
  | jobEnds job result => exact (hjobs.finish job result).append _

theorem accepted_of_reachable (h : (serveMachine initial).Reachable w) :
    Accepted w.service.jobs w.log := by
  refine h.invariant (I := fun w => Accepted w.service.jobs w.log) ?_ ?_
  · rintro w rfl
    intro task htask
    cases htask
  · intro w w' a _ hI hstep
    obtain ⟨s, events, harm, rfl⟩ := step_arm hstep
    exact harm.accepted hI

/-! ### In every run -/

/-- What holds of the sessions and the stop flags in every reachable state. -/
structure SessionsPaired (initial : ServiceAgent Provider) (w : World Provider) : Prop where
  /-- A session has the providers of an agent and the stop channel made for that agent. -/
  paired : ∀ session g, .accepted session g ∈ w.log →
    ∃ agent, (generations initial w.log)[g]? = some agent ∧ session.providers = agent.providers
  /-- So has the task of every client. -/
  clients : ∀ task ∈ w.service.jobs.tasks, ∃ agent,
    (generations initial w.log)[task.input.stop]? = some agent ∧
      task.input.session.providers = agent.providers
  /-- The flag of a generation says that it was replaced or that the service shuts down. -/
  flag : ∀ g, g < (generations initial w.log).length →
    (w.service.channels[g]? = some true ↔
      g + 1 < (generations initial w.log).length ∨ .shutdown ∈ w.log)
  /-- A failed build changes nothing. -/
  failed : ∀ build loaded reloads w', w.service.reloads.joinNext build = some (loaded, reloads) →
    (∀ candidate, loaded ≠ .ok (.ok candidate)) → w.step (.joinReload build) = some w' →
      w'.service.agent = w.service.agent ∧ w'.service.stop = w.service.stop ∧
        w'.service.channels = w.service.channels
  /-- A client gets the last generation, and its flag is down. -/
  accepts : ∀ w', w.step (.accept (.ok ())) = some w' →
    ∃ agent session g, w'.log = w.log ++ [.accepted session g] ∧
      session.providers = agent.providers ∧ g + 1 = (generations initial w.log).length ∧
      (generations initial w.log)[g]? = some agent ∧ w'.service.channels[g]? = some false

/-- A session holds the agent that was in place when it was made. -/
theorem GenerationInv.paired (hI : GenerationInv initial w) {session : ServiceSession Provider}
    {g : Nat} (hmem : .accepted session g ∈ w.log) :
    ∃ agent, (generations initial w.log)[g]? = some agent ∧
      session.providers = agent.providers := by
  obtain ⟨agent, hagent, rfl⟩ := hI.sessions session g hmem
  exact ⟨agent, hagent, rfl⟩

theorem GenerationInv.flag (hI : GenerationInv initial w) {g : Nat}
    (hg : g < (generations initial w.log).length) :
    w.service.channels[g]? = some true ↔
      g + 1 < (generations initial w.log).length ∨ .shutdown ∈ w.log := by
  have hlast := hI.last
  have hlt : g < w.service.stop ↔ g + 1 < (generations initial w.log).length := by omega
  rw [← hlt]
  apply hI.flags
  rw [hI.channels]
  exact hg

theorem GenerationInv.accepts (hI : GenerationInv initial w)
    (hstep : w.step (.accept (.ok ())) = some w') :
    ∃ agent session g, w'.log = w.log ++ [.accepted session g] ∧
      session.providers = agent.providers ∧ g + 1 = (generations initial w.log).length ∧
      (generations initial w.log)[g]? = some agent ∧ w'.service.channels[g]? = some false := by
  obtain ⟨s, events, harm, rfl⟩ := step_arm hstep
  cases harm with
  | accept accepted hrun =>
      refine ⟨w.service.agent, _, w.service.stop, rfl, rfl, hI.last, hI.agent, ?_⟩
      have hlt : w.service.stop < w.service.channels.length := by
        rw [hI.channels, ← hI.last]
        omega
      have hdown : ¬w.service.channels[w.service.stop]? = some true := by
        rw [hI.flags _ hlt]
        simp [hI.running hrun]
      show w.service.channels[w.service.stop]? = some false
      rw [List.getElem?_eq_getElem hlt] at hdown ⊢
      simpa using hdown

theorem handleLoaded_failed (s : Service Provider) {loaded : Loaded Provider}
    (hfailed : ∀ candidate, loaded ≠ .ok (.ok candidate)) : s.handleLoaded loaded = s := by
  match loaded with
  | .ok (.ok candidate) => exact absurd rfl (hfailed candidate)
  | .ok (.error _) => rfl
  | .error _ => rfl

theorem joinReload_failed {build : Nat} {loaded : Loaded Provider}
    {reloads : JoinSet Unit (Loaded Provider)}
    (hjoin : w.service.reloads.joinNext build = some (loaded, reloads))
    (hfailed : ∀ candidate, loaded ≠ .ok (.ok candidate))
    (hstep : w.step (.joinReload build) = some w') :
    w'.service.agent = w.service.agent ∧ w'.service.stop = w.service.stop ∧
      w'.service.channels = w.service.channels := by
  obtain ⟨s, events, harm, rfl⟩ := step_arm hstep
  cases harm with
  | joinReload hrun hjoin' =>
      obtain ⟨rfl, rfl⟩ := Prod.mk.inj (Option.some.inj (hjoin'.symm.trans hjoin))
      rename_i loaded reloads
      have hsame := handleLoaded_failed { w.service with reloads } hfailed
      obtain ⟨hagent, hstop, hchannels, -⟩ :=
        restart_frame ({ w.service with reloads }.handleLoaded loaded)
      exact ⟨hagent.trans (by rw [hsame]), hstop.trans (by rw [hsame]),
        hchannels.trans (by rw [hsame])⟩

/-- **No session misses its stop and none is stopped by another generation's**, in every run
of the service. -/
theorem serve_sessionsPaired (h : (serveMachine initial).Reachable w) :
    SessionsPaired initial w := by
  have hI := generationInv h
  constructor
  · exact fun session g => hI.paired
  · exact fun task htask => hI.paired (accepted_of_reachable h task htask)
  · intro g hg
    exact hI.flag hg
  · intro build loaded reloads w' hjoin hfailed hstep
    exact joinReload_failed hjoin hfailed hstep
  · intro w' hstep
    exact hI.accepts hstep

/-! ### A run -/

namespace Run

/-- An agent with one provider. -/
def agent (provider : Nat) : ServiceAgent Nat := ⟨[provider], by simp⟩

/-- A reload that finds one provider in the configuration. -/
def reload (build provider : Nat) : List (Action Nat) :=
  [.signal .reload, .buildEnds build (.ok (.ok [provider])), .joinReload build]

end Run

/-- The providers of a session and the stop channel it subscribes to. -/
def Event.session? : Event Provider → Option (List Provider × Nat)
  | .accepted session stop => some (session.providers, stop)
  | _ => none

/-- A client before the reload, a failed build, and a client after the reload: each holds the
agent it was accepted with, and only the first one is told to stop. -/
theorem serve_sessionsPaired_reloaded : ∃ w : World Nat,
    w.log.filterMap Event.session? = [([1], 0), ([2], 1)] ∧
      w.service.channels = [true, false] ∧ SessionsPaired (Run.agent 1) w := by
  let run : List (Action Nat) := .accept (.ok ()) ::
    [.signal .reload, .buildEnds 0 (.ok (.error "invalid")), .joinReload 0] ++
      Run.reload 1 2 ++ [.accept (.ok ())]
  have hrun : (Machine.exec World.step (World.start (Run.agent 1)) run).any
      (fun w => w.log.filterMap Event.session? == [([1], 0), ([2], 1)] &&
        w.service.channels == [true, false]) = true := by
    decide
  obtain ⟨w, hw, hp⟩ := (Option.any_eq_true _ _).mp hrun
  simp only [Bool.and_eq_true, beq_iff_eq] at hp
  exact ⟨w, hp.1, hp.2, serve_sessionsPaired (Machine.reachable_of_exec run rfl hw)⟩

end Keyring.Cli.Serve
