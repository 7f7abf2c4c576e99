/-
What one step of the program can do.

A step belongs to the loop, which may accept a client or put an agent in place, to one
connection, or to a provider.  `Frame` is what a step keeps of everybody else: where their
connections stand, what these have said, and whether their tasks run.
-/
import Keyring.Process
import Keyring.Proofs.Cli.Drain.Settle
import Keyring.Proofs.Cli.Serve.Generations
import Keyring.Proofs.Service.Agent.Moves

namespace Keyring

open Keyring.Service Keyring.Cli

/-! ### Clients -/

namespace Cli.Serve

variable {Provider : Type*} {x x' : World Provider} {agent : ServiceAgent Provider}
  {accepted : Client Provider} {job : Nat}

/-- The client of an accepted connection. -/
def Event.client : Event Provider → Option (Client Provider)
  | .accepted session stop => some ⟨session, stop⟩
  | _ => none

/-- The clients that were accepted, by the numbers of their tasks. -/
def clients (log : List (Event Provider)) : List (Client Provider) :=
  log.filterMap Event.client

theorem clients_append (log events : List (Event Provider)) :
    clients (log ++ events) = clients log ++ clients events := List.filterMap_append

/-- The tasks of the clients that were accepted. -/
structure ClientsInv (x : World Provider) : Prop where
  count : (clients x.log).length = x.service.jobs.spawned
  inputs : ∀ task ∈ x.service.jobs.tasks, (clients x.log)[task.id]? = some task.input
  nodup : x.service.jobs.ids.Nodup

/-- Where nobody is accepted, the tasks are some of those there were. -/
theorem ClientsInv.kept {s : Service Provider} {events : List (Event Provider)}
    (h : ClientsInv x) (hclients : clients events = [])
    (hspawned : s.jobs.spawned = x.service.jobs.spawned) (hnodup : s.jobs.ids.Nodup)
    (hinputs : ∀ task' ∈ s.jobs.tasks, ∃ task ∈ x.service.jobs.tasks,
      task.id = task'.id ∧ task.input = task'.input) : ClientsInv (x.moved s events) := by
  have hsame : clients (x.moved s events).log = clients x.log := by
    rw [moved_log, clients_append, hclients, List.append_nil]
  refine ⟨?_, ?_, hnodup⟩
  · rw [hsame, h.count, moved_service, hspawned]
  · intro task' hmem
    obtain ⟨task, htask, hid, hinput⟩ := hinputs task' hmem
    rw [hsame, ← hid, ← hinput]
    exact h.inputs task htask

theorem clients_reload (s : Service Provider) : clients (s.handleSignal .reload).2 = [] := by
  by_cases hempty : s.reloads.isEmpty = true
  · rw [Service.handleSignal, if_pos hempty]
    rfl
  · rw [Service.handleSignal, if_neg hempty]
    rfl

/-- The start of the next build accepts nobody. -/
theorem clients_restart (s : Service Provider) : clients s.restart.2 = [] := by
  rcases restart_cases s with ⟨-, h⟩ | ⟨-, h⟩ <;> rw [h] <;> rfl

theorem clients_joined (build : Nat) (loaded : Loaded Provider) (rest : List (Event Provider)) :
    clients (.joined build loaded :: rest) = clients rest := rfl

theorem clientsInv (h : (serveMachine agent).Reachable x) : ClientsInv x := by
  refine h.invariant ?_ ?_
  · rintro x rfl
    exact ⟨rfl, fun task hmem => absurd hmem List.not_mem_nil, List.nodup_nil⟩
  · intro x x' a _ hI hstep
    obtain ⟨s, events, harm, rfl⟩ := step_arm hstep
    have hsame : ∀ task ∈ x.service.jobs.tasks, ∃ task' ∈ x.service.jobs.tasks,
        task'.id = task.id ∧ task'.input = task.input := fun task hmem => ⟨task, hmem, rfl, rfl⟩
    cases harm with
    | signal event hrun =>
        cases event with
        | reload =>
            have hjobs := (handleSignal_frame x.service).1
            exact hI.kept (clients_reload x.service) (by rw [hjobs])
              (by rw [hjobs]; exact hI.nodup) (by rw [hjobs]; exact hsame)
        | shutdown => exact hI.kept rfl rfl hI.nodup hsame
    | accept accepted hrun =>
        cases accepted with
        | error error => exact hI.kept rfl rfl hI.nodup hsame
        | ok done =>
            have hnext : clients (x.moved (x.service.handleAccepted (.ok done)).1
                (x.service.handleAccepted (.ok done)).2).log =
                  clients x.log ++ [⟨x.service.agent.newSession, x.service.stop⟩] :=
              clients_append _ _
            refine ⟨?_, ?_, JoinSet.nodup_spawn hI.nodup _⟩
            · rw [hnext, List.length_append, hI.count]
              rfl
            · intro task hmem
              rw [hnext]
              rcases List.mem_append.mp hmem with hold | hnew
              · rw [List.getElem?_append_left (hI.count ▸ x.service.jobs.fresh task hold)]
                exact hI.inputs task hold
              · obtain rfl := List.mem_singleton.mp hnew
                rw [← hI.count]
                exact List.getElem?_concat_length
    | joinReload hrun hjoin =>
        rename_i build loaded reloads
        have hjobs : ({ x.service with reloads }.handleLoaded loaded).restart.1.jobs =
            x.service.jobs := by rw [restart_jobs, handleLoaded_jobs]
        refine hI.kept ?_ (by rw [hjobs]) (by rw [hjobs]; exact hI.nodup)
          (by rw [hjobs]; exact hsame)
        exact clients_restart ({ x.service with reloads }.handleLoaded loaded)
    | joinJob hphase hjoin =>
        refine hI.kept rfl (JoinSet.joinNext_eq_some hjoin).2.2
          (JoinSet.nodup_joinNext hI.nodup hjoin) fun task hmem => ?_
        rw [(JoinSet.tasks_joinNext hjoin).1] at hmem
        exact hsame task (List.mem_filter.mp hmem).1
    | timeout | drained | buildEnds => exact hI.kept rfl rfl hI.nodup hsame
    | jobEnds job result =>
        refine hI.kept rfl rfl (by rw [JoinSet.ids_finish]; exact hI.nodup) fun task' hmem => ?_
        obtain ⟨task, htask, rfl⟩ := List.mem_map.mp hmem
        exact ⟨task, htask, (JoinSet.Entry.finish_id ..).symm, (JoinSet.Entry.finish_input ..).symm⟩

theorem ClientsInv.of_client? (h : ClientsInv x)
    (hclient : Drain.client? x.service job = some accepted) :
    (clients x.log)[job]? = some accepted := by
  obtain ⟨task, hfind, rfl⟩ := Option.map_eq_some_iff.mp hclient
  have htest := List.find?_some hfind
  rw [Bool.and_eq_true, beq_iff_eq] at htest
  rw [← htest.1]
  exact h.inputs task (List.mem_of_find?_eq_some hfind)

end Cli.Serve

/-! ### The service and its connections -/

namespace Cli.Drain

variable {Provider Req Body : Type*} {agent : ServiceAgent Provider}
  {d d' : World Provider Req Body} {job i : Nat} {acting : Option Nat}

/-- What the connection of a task has said. -/
def wire (job : Nat) (log : List (Event Req Body)) : List (Handle.Event Req Body) :=
  log.filterMap fun
    | .conn i e => if i = job then some e else none
    | _ => none

theorem wire_append (job : Nat) (log log' : List (Event Req Body)) :
    wire job (log ++ log') = wire job log ++ wire job log' := List.filterMap_append

theorem wire_conn_self (job : Nat) (events : List (Handle.Event Req Body)) :
    wire job (events.map (.conn job)) = events := by
  unfold wire
  rw [List.filterMap_map]
  simp

theorem wire_conn_of_ne (h : i ≠ job) (events : List (Handle.Event Req Body)) :
    wire i (events.map (.conn job)) = [] := by
  unfold wire
  rw [List.filterMap_map]
  simp [h.symm]

theorem wire_sends (job : Nat) (a : Serve.Action Provider) :
    wire job (World.sends a : List (Event Req Body)) = [] := by
  unfold World.sends
  split <;> rfl

/-- What a step leaves of the connections of others than the one who acts. -/
structure Frame (acting : Option Nat) (d d' : World Provider Req Body) : Prop where
  running : ∀ job, some job ≠ acting →
    (d'.serve.service.jobs.Running job ↔ d.serve.service.jobs.Running job)
  conns : ∀ job, some job ≠ acting → d'.conns job = d.conns job
  wire : ∀ job, some job ≠ acting → wire job d'.log = wire job d.log

/-- The clients and the agents that a step has brought. -/
structure Brings (accepted : List (Serve.Client Provider))
    (installed : List (ServiceAgent Provider)) (d d' : World Provider Req Body) : Prop where
  clients : Serve.clients d'.serve.log = Serve.clients d.serve.log ++ accepted
  agents : ∀ initial, Serve.generations initial d'.serve.log =
    Serve.generations initial d.serve.log ++ installed

theorem Brings.of_log {events : List (Serve.Event Provider)}
    (h : d'.serve.log = d.serve.log ++ events) :
    Brings (Serve.clients events) (events.filterMap Serve.Event.installed) d d' where
  clients := by rw [h, Serve.clients_append]
  agents initial := by rw [h, Serve.generations_append]

theorem Brings.none (h : d'.serve.log = d.serve.log) : Brings [] [] d d' := by
  have hlog : d'.serve.log = d.serve.log ++ [] := by rw [h, List.append_nil]
  exact .of_log hlog

/-- A turn of the loop, by what it is to the clients and the agents. -/
inductive Turned (d : World Provider Req Body) :
    Serve.Action Provider → World Provider Req Body → Prop
  | accepted {d' : World Provider Req Body} (hrun : d.serve.service.phase = .running)
      (hframe : Frame (some d.serve.service.jobs.spawned) d d')
      (hconns : d'.conns = d.conns) (hwire : ∀ job, wire job d'.log = wire job d.log)
      (hrunning : d'.serve.service.jobs.Running d.serve.service.jobs.spawned)
      (hbrings : Brings [⟨d.serve.service.agent.newSession, d.serve.service.stop⟩] [] d d') :
      Turned d (.accept (.ok ())) d'
  | installed {build : Nat} {candidate : ServiceAgent Provider}
      {reloads : JoinSet Unit (Serve.Loaded Provider)} {d' : World Provider Req Body}
      (hjoin : d.serve.service.reloads.joinNext build = some (.ok (.ok candidate), reloads))
      (hframe : Frame none d d') (hbrings : Brings [] [candidate] d d') :
      Turned d (.joinReload build) d'
  | quiet {a : Serve.Action Provider} {d' : World Provider Req Body} (haccept : a ≠ .accept (.ok ()))
      (hjoin : ∀ build candidate reloads, a = .joinReload build →
        d.serve.service.reloads.joinNext build ≠ some (.ok (.ok candidate), reloads))
      (hframe : Frame none d d') (hbrings : Brings [] [] d d') : Turned d a d'

/-- A turn says nothing on the wire. -/
theorem frame_of_turn {a : Serve.Action Provider} {serve : Serve.World Provider}
    (hrunning : ∀ job, some job ≠ acting →
      (serve.service.jobs.Running job ↔ d.serve.service.jobs.Running job)) :
    Frame acting d { d with serve, log := d.log ++ World.sends a } where
  running := hrunning
  conns _ _ := rfl
  wire job _ := by rw [wire_append, wire_sends, List.append_nil]

theorem turned (hr : (Serve.serveMachine agent).Reachable d.serve) {a : Serve.Action Provider}
    (h : d.step (.serve a) = some d') : Turned d a d' := by
  obtain ⟨hallows, hmap⟩ := Option.ite_none_right_eq_some.mp h
  obtain ⟨serve, hstep, rfl⟩ := Option.map_eq_some_iff.mp hmap
  obtain ⟨s, events, harm, rfl⟩ := Serve.step_arm hstep
  have hsame : s.jobs = d.serve.service.jobs → Frame none d
      { d with serve := d.serve.moved s events, log := d.log ++ World.sends a } := by
    intro hjobs
    refine frame_of_turn fun job _ => ?_
    rw [Serve.moved_service, hjobs]
  have hbrings : Brings (Serve.clients events) (events.filterMap Serve.Event.installed) d
      { d with serve := d.serve.moved s events, log := d.log ++ World.sends a } := .of_log rfl
  cases harm with
  | signal event hrun =>
      cases event with
      | reload =>
          have hinstalled : (d.serve.service.handleSignal .reload).2.filterMap
              Serve.Event.installed = [] := by
            by_cases hempty : d.serve.service.reloads.isEmpty = true
            · rw [Serve.Service.handleSignal, if_pos hempty]
              rfl
            · rw [Serve.Service.handleSignal, if_neg hempty]
              rfl
          rw [Serve.clients_reload, hinstalled] at hbrings
          exact .quiet (by simp) (by simp) (hsame (Serve.handleSignal_frame _).1) hbrings
      | shutdown => exact .quiet (by simp) (by simp) (hsame rfl) hbrings
  | accept accepted hrun =>
      cases accepted with
      | error error => exact .quiet (by simp) (by simp) (hsame rfl) hbrings
      | ok done =>
          have hold : ∀ job, some job ≠ some d.serve.service.jobs.spawned →
              ((d.serve.moved (d.serve.service.handleAccepted (.ok done)).1
                (d.serve.service.handleAccepted (.ok done)).2).service.jobs.Running job ↔
                  d.serve.service.jobs.Running job) := by
            intro job hjob
            refine ⟨fun hrunning => ?_, fun hrunning => hrunning.spawn _⟩
            exact hrunning.of_spawn.resolve_right fun heq => hjob (congrArg some heq)
          refine .accepted hrun (frame_of_turn hold) rfl (fun job => ?_)
            (JoinSet.running_spawn_self _ _) hbrings
          rw [wire_append, wire_sends, List.append_nil]
  | @joinReload build loaded reloads hrun hjoin =>
      have hjobs : ({ d.serve.service with reloads }.handleLoaded loaded).restart.1.jobs =
          d.serve.service.jobs := by rw [Serve.restart_jobs, Serve.handleLoaded_jobs]
      have hinstalled := (Serve.restart_installed
        ({ d.serve.service with reloads }.handleLoaded loaded)).1
      rw [List.filterMap_cons, hinstalled, Serve.clients_joined, Serve.clients_restart] at hbrings
      have hfailed : (∀ candidate, loaded ≠ .ok (.ok candidate)) →
          ∀ build' candidate reloads',
            (.joinReload build : Serve.Action Provider) = .joinReload build' →
              d.serve.service.reloads.joinNext build' ≠ some (.ok (.ok candidate), reloads') := by
        intro hloaded build' candidate reloads' heq hjoin'
        obtain rfl := Serve.Action.joinReload.inj heq
        exact hloaded candidate (Prod.mk.inj (Option.some.inj (hjoin.symm.trans hjoin'))).1
      rcases loaded with error | error | candidate
      · exact .quiet (by simp) (hfailed (by simp)) (hsame hjobs) hbrings
      · exact .quiet (by simp) (hfailed (by simp)) (hsame hjobs) hbrings
      · exact .installed hjoin (hsame hjobs) hbrings
  | joinJob hphase hjoin =>
      refine .quiet (by simp) (by simp) (frame_of_turn fun job _ => ?_) hbrings
      exact ⟨fun hrunning => hrunning.of_joinNext hjoin,
        fun hrunning => hrunning.joinNext (Serve.clientsInv hr).nodup hjoin⟩
  | timeout | drained | buildEnds => exact .quiet (by simp) (by simp) (hsame rfl) hbrings
  | jobEnds => cases hallows

/-- A connection has said something, and nobody else has done anything. -/
structure Acted (job : Nat) (events : List (Handle.Event Req Body))
    (d d' : World Provider Req Body) : Prop where
  frame : Frame (some job) d d'
  brings : Brings [] [] d d'
  wire : Drain.wire job d'.log = Drain.wire job d.log ++ events

theorem acted_moved (d : World Provider Req Body) (job : Nat) (place : Handle.Place Req Body)
    (events : List (Handle.Event Req Body)) : Acted job events d (d.moved job place events) where
  frame := by
    refine ⟨fun _ _ => Iff.rfl, fun i hi => ?_, fun i hi => ?_⟩
    · exact Function.update_of_ne (fun heq => hi (congrArg some heq)) _ _
    · rw [World.moved, wire_append, wire_conn_of_ne fun heq => hi (congrArg some heq),
        List.append_nil]
  brings := .none rfl
  wire := by rw [World.moved, wire_append, wire_conn_self]

/-- What is noted about a task is not said by its connection. -/
theorem acted_noted (d : World Provider Req Body) (job : Nat) {e : Event Req Body}
    (h : ∀ i, Drain.wire i [e] = []) : Acted job [] d (d.noted e) where
  frame := by
    refine ⟨fun _ _ => Iff.rfl, fun _ _ => rfl, fun i _ => ?_⟩
    rw [World.noted, wire_append, h, List.append_nil]
  brings := .none rfl
  wire := by rw [World.noted, wire_append, h]

/-- The task of the connection ends as well. -/
theorem Acted.ends {d₁ : World Provider Req Body} {events : List (Handle.Event Req Body)}
    {result : Except Serve.JoinError Unit} (h : Acted job events d d₁)
    (hends : d₁.ends job result = some d') :
    Acted job events d d' ∧ ¬d'.serve.service.jobs.Running job ∧ d'.conns = d₁.conns := by
  obtain ⟨serve, hserve, rfl⟩ := ends_eq_some hends
  obtain rfl := Option.some.inj hserve
  refine ⟨⟨⟨fun i hi => ?_, h.frame.conns, h.frame.wire⟩, ?_, h.wire⟩, ?_, rfl⟩
  · rw [← h.frame.running i hi]
    have hne : i ≠ job := fun heq => hi (congrArg some heq)
    exact ⟨fun hrunning => hrunning.of_finish.1, fun hrunning => hrunning.finish hne _⟩
  · have hlog : (d₁.serve.moved { d₁.serve.service with
        jobs := d₁.serve.service.jobs.finish job result } []).log = d₁.serve.log :=
      List.append_nil _
    exact ⟨by rw [hlog, h.brings.clients], fun initial => by rw [hlog, h.brings.agents]⟩
  · exact fun hrunning => hrunning.of_finish.2 rfl

/-- A connection goes on, and its task ends where it is closed. -/
inductive ConnMoved (d : World Provider Req Body) (job : Nat) (input : Handle.Input Req Body)
    (d' : World Provider Req Body) : Prop
  | goes {stop : Handle.Watch} {events : List (Handle.Event Req Body)}
      (hadvance : Handle.advance stop d.clock (d.conns job) input = some (d'.conns job, events))
      (hacted : Acted job events d d') (hopen : 0 < (d'.conns job).rank)
      (hrunning : d'.serve.service.jobs.Running job)
  | closes {stop : Handle.Watch} {events : List (Handle.Event Req Body)}
      (hadvance : Handle.advance stop d.clock (d.conns job) input = some (d'.conns job, events))
      (hacted : Acted job events d d') (hclosed : (d'.conns job).rank = 0)
      (hended : ¬d'.serve.service.jobs.Running job)

theorem conn_moved {input : Handle.Input Req Body} (h : d.step (.conn job input) = some d') :
    ConnMoved d job input d' := by
  obtain ⟨client, hclient, hrest⟩ := Option.bind_eq_some_iff.mp h
  obtain ⟨⟨place, events⟩, hadvance, hend⟩ := Option.bind_eq_some_iff.mp hrest
  have hacted := acted_moved d job place events
  have hplace : (d.moved job place events).conns job = place := Function.update_self ..
  cases place with
  | closed result =>
      obtain ⟨hacted', hended, hconns⟩ := hacted.ends hend
      have hplace' : d'.conns job = .closed result := by rw [hconns, hplace]
      exact .closes (hplace' ▸ hadvance) hacted' (by rw [hplace']; rfl) hended
  | top | select | wire | handling | sending =>
      obtain rfl := Option.some.inj hend
      exact .goes (hplace ▸ hadvance) hacted (by rw [hplace]; exact Nat.succ_pos _)
        (running_of_client? hclient)

theorem panic_acted (h : d.step (.panic job) = some d') :
    Acted job [] d d' ∧ ¬d'.serve.service.jobs.Running job ∧ d'.conns = d.conns := by
  obtain ⟨client, -, hend⟩ := Option.bind_eq_some_iff.mp h
  exact (acted_noted d job fun _ => rfl).ends hend

theorem cancel_acted (h : d.step (.cancel job) = some d') :
    Acted job [] d d' ∧ ¬d'.serve.service.jobs.Running job ∧ d'.conns = d.conns := by
  obtain ⟨client, -, hend⟩ := Option.bind_eq_some_iff.mp h
  obtain ⟨-, hend⟩ := Option.ite_none_right_eq_some.mp hend
  exact (acted_noted d job fun _ => rfl).ends hend

theorem tick_frame {now : Instant} (h : d.step (.tick now) = some d') :
    Frame none d d' ∧ Brings [] [] d d' := by
  obtain ⟨-, hd⟩ := Option.ite_none_right_eq_some.mp h
  obtain rfl := Option.some.inj hd
  exact ⟨⟨fun _ _ => Iff.rfl, fun _ _ => rfl, fun _ _ => rfl⟩, .none rfl⟩

theorem startDrain_frame (h : d.step .startDrain = some d') :
    Frame none d d' ∧ Brings [] [] d d' := by
  simp only [World.step] at h
  split at h
  · obtain rfl := Option.some.inj h
    exact ⟨⟨fun _ _ => Iff.rfl, fun _ _ => rfl, fun _ _ => rfl⟩, .none rfl⟩
  · cases h

end Cli.Drain

/-! ### The program -/

namespace Process

variable {keys : SshKeys} {proto : AgentProto} {agent : ServiceAgent (Provider keys)}
  {w w' : World keys} {a : Action keys}

/-- What a connection says where its task ends: nothing, unless it closes. -/
def Closing (place : Handle.Place (Message keys) (Reply keys))
    (events : List (Handle.Event (Message keys) (Reply keys))) : Prop :=
  events = [] ∨ ∃ stop now place', place'.rank = 0 ∧ Handle.Move stop now place place' events

/-- What a connection does on the wire, and its session with it. -/
inductive Acts {ι : Type} [DecidableEq ι] {P : ι → Core.KeyPairProvider keys} (proto : AgentProto)
    (d d' : Drain.World (Provider keys) (Message keys) (Reply keys)) (job : Nat)
    (world : Service.World P) : Service.World P → Prop
  | moved {stop : Handle.Watch} {events : List (Handle.Event (Message keys) (Reply keys))}
      {world' : Service.World P}
      (hmove : Handle.Move stop d.clock (d.conns job) (d'.conns job) events)
      (hopen : 0 < (d'.conns job).rank) (hsending : ∀ res deadline, d'.conns job ≠ .sending res deadline)
      (hacted : Drain.Acted job events d d') (hrunning : d'.serve.service.jobs.Running job)
      (hfollow : follow proto world job (d'.conns job) = some world') :
      Acts proto d d' job world world'
  | handled {refusal : String} {outcome : Except AgentError (Handle.Response (Reply keys))}
      {req : Message keys} {deadline : Instant} (hplace : d.conns job = .handling req deadline)
      (hreturned : returned world job refusal (.handling req deadline) = some outcome)
      (hplace' : d'.conns job = .sending (Handle.responseOf outcome) deadline)
      (hacted : Drain.Acted job [.handled outcome] d d')
      (hrunning : d'.serve.service.jobs.Running job) : Acts proto d d' job world world
  | resumed {world' : Service.World P} (hdrain : d' = d)
      (hresume : world.resume proto job = some world') : Acts proto d d' job world world'
  | left {events : List (Handle.Event (Message keys) (Reply keys))} {world' : Service.World P}
      (hclosing : Closing (d.conns job) events)
      (hacted : Drain.Acted job events d d') (hended : ¬d'.serve.service.jobs.Running job)
      (hleave : leave world job = some world' ∨ world.unwind job = some world') :
      Acts proto d d' job world world'

/-- What a step does to the service and to the generations. -/
inductive Change (proto : AgentProto) (w : World keys) : World keys → Prop
  | quiet {drain : Drain.World (Provider keys) (Message keys) (Reply keys)}
      (hframe : Drain.Frame none w.drain drain) (hbrings : Drain.Brings [] [] w.drain drain) :
      Change proto w { w with drain }
  | installed {drain : Drain.World (Provider keys) (Message keys) (Reply keys)}
      {candidate : ServiceAgent (Provider keys)} {clock : Instant}
      (hframe : Drain.Frame none w.drain drain)
      (hbrings : Drain.Brings [] [candidate] w.drain drain) :
      Change proto w ⟨drain, w.generations ++ [.start clock candidate]⟩
  | accepted {drain : Drain.World (Provider keys) (Message keys) (Reply keys)}
      {gen : Generation keys} {world : Service.World (loadsOf gen.agent)}
      (hturned : Drain.Turned w.drain (.accept (.ok ())) drain)
      (hgen : w.generations[w.drain.serve.service.stop]? = some gen)
      (haccept : gen.world.accept (placesOf gen.agent) w.drain.serve.service.jobs.spawned =
        some world) :
      Change proto w ⟨drain, w.generations.set w.drain.serve.service.stop ⟨gen.agent, world⟩⟩
  | acted {drain : Drain.World (Provider keys) (Message keys) (Reply keys)} {job : Nat}
      {client : Serve.Client (Provider keys)} {gen : Generation keys}
      {world : Service.World (loadsOf gen.agent)}
      (hclient : Drain.client? w.drain.serve.service job = some client)
      (hgen : w.generations[client.stop]? = some gen)
      (hacts : Acts proto w.drain drain job gen.world world) :
      Change proto w ⟨drain, w.generations.set client.stop ⟨gen.agent, world⟩⟩
  | provided {g : Nat} {gen : Generation keys} {p : Fin gen.agent.providers.length}
      {b : (loadsOf gen.agent p).Action} {state : (loadsOf gen.agent p).State}
      (hgen : w.generations[g]? = some gen)
      (hstep : (loadsOf gen.agent p).step (gen.world.providers p) b = some state) :
      Change proto w ⟨w.drain, w.generations.set g ⟨gen.agent, gen.world.withProvider p state⟩⟩

theorem inside_eq_some {g : Nat}
    {f : (gen : Generation keys) → Option (Service.World (loadsOf gen.agent))}
    (h : w.inside g f = some w') : ∃ gen world, w.generations[g]? = some gen ∧
      f gen = some world ∧ w' = ⟨w.drain, w.generations.set g ⟨gen.agent, world⟩⟩ := by
  obtain ⟨gen, hgen, hmap⟩ := Option.bind_eq_some_iff.mp h
  obtain ⟨world, hworld, rfl⟩ := Option.map_eq_some_iff.mp hmap
  exact ⟨gen, world, hgen, hworld, rfl⟩

/-- A response is sent only of what was handled. -/
theorem not_sending {stop : Handle.Watch} {now : Instant}
    {place place' : Handle.Place (Message keys) (Reply keys)}
    {input : Handle.Input (Message keys) (Reply keys)}
    {events : List (Handle.Event (Message keys) (Reply keys))}
    (h : Handle.advance stop now place input = some (place', events))
    (hhandled : isHandled input = false) (res : Handle.Response (Reply keys))
    (deadline : Instant) : place' ≠ .sending res deadline := by
  rintro rfl
  have hplace : ∃ req, place = .handling req deadline := by
    cases Handle.Move.of_advance h with
    | handled req _ outcome => exact ⟨req, rfl⟩
  obtain ⟨req, rfl⟩ := hplace
  cases input with
  | handled _ => cases hhandled
  | timeout =>
      obtain ⟨-, h⟩ := Option.ite_none_right_eq_some.mp h
      cases h
  | go | pending | frame | sent => cases h

theorem set_same {α : Type*} {l : List α} {i : Nat} {x : α} (h : l[i]? = some x) :
    l.set i x = l := by
  obtain ⟨hlt, rfl⟩ := List.getElem?_eq_some_iff.mp h
  exact List.set_getElem_self hlt

/-- What is handled is answered. -/
theorem handled_acts {ι : Type} [DecidableEq ι] {P : ι → Core.KeyPairProvider keys}
    {d d' : Drain.World (Provider keys) (Message keys) (Reply keys)} {job : Nat}
    {world : Service.World P} {refusal : String}
    {outcome : Except AgentError (Handle.Response (Reply keys))}
    (hreturned : returned world job refusal (d.conns job) = some outcome)
    (h : d.step (.conn job (.handled outcome)) = some d') : Acts proto d d' job world world := by
  have hplace : ∃ req deadline, d.conns job = .handling req deadline := by
    generalize d.conns job = place at hreturned
    cases place with
    | handling req deadline => exact ⟨req, deadline, rfl⟩
    | _ => cases hreturned
  obtain ⟨req, deadline, hplace⟩ := hplace
  cases Drain.conn_moved h with
  | goes hadvance hacted hopen hrunning =>
      rw [hplace] at hadvance
      obtain ⟨hplace', rfl⟩ := Prod.mk.inj (Option.some.inj hadvance)
      exact .handled hplace (hplace ▸ hreturned) hplace'.symm hacted hrunning
  | closes hadvance hacted hclosed hended =>
      rw [hplace] at hadvance
      obtain ⟨hplace', -⟩ := Prod.mk.inj (Option.some.inj hadvance)
      rw [← hplace'] at hclosed
      cases hclosed

/-- **Every step is a change.** -/
theorem step_change (hr : (Serve.serveMachine agent).Reachable w.drain.serve)
    (h : w.step proto a = some w') : Change proto w w' := by
  cases a with
  | serve a =>
      obtain ⟨drain, hdrain, h⟩ := Option.bind_eq_some_iff.mp h
      have hturned := Drain.turned hr hdrain
      cases id hturned with
      | accepted =>
          obtain ⟨gen, world, hgen, haccept, rfl⟩ := inside_eq_some h
          exact .accepted hturned hgen haccept
      | installed hjoin hframe hbrings =>
          rw [World.turned, hjoin] at h
          obtain rfl := Option.some.inj h
          exact .installed hframe hbrings
      | quiet haccept hjoin hframe hbrings =>
          have hsame : w' = { w with drain } := by
            unfold World.turned at h
            split at h
            · exact absurd rfl haccept
            · split at h
              · exact absurd ‹_› (hjoin _ _ _ rfl)
              · exact (Option.some.inj h).symm
            · exact (Option.some.inj h).symm
          rw [hsame]
          exact .quiet hframe hbrings
  | startDrain =>
      obtain ⟨drain, hdrain, rfl⟩ := Option.map_eq_some_iff.mp h
      obtain ⟨hframe, hbrings⟩ := Drain.startDrain_frame hdrain
      exact .quiet hframe hbrings
  | tick now =>
      obtain ⟨drain, hdrain, rfl⟩ := Option.map_eq_some_iff.mp h
      obtain ⟨hframe, hbrings⟩ := Drain.tick_frame hdrain
      exact .quiet hframe hbrings
  | conn job input =>
      obtain ⟨hhandled, h⟩ := Option.ite_none_left_eq_some.mp h
      obtain ⟨client, hclient, h⟩ := Option.bind_eq_some_iff.mp h
      obtain ⟨drain, hdrain, h⟩ := Option.bind_eq_some_iff.mp h
      obtain ⟨gen, world, hgen, hfollow, rfl⟩ := inside_eq_some h
      refine .acted hclient hgen ?_
      cases Drain.conn_moved hdrain with
      | goes hadvance hacted hopen hrunning =>
          exact .moved (.of_advance hadvance) hopen
            (not_sending hadvance (Bool.eq_false_iff.mpr hhandled)) hacted hrunning hfollow
      | closes hadvance hacted hclosed hended =>
          refine .left (Or.inr ⟨_, _, _, hclosed, .of_advance hadvance⟩) hacted hended (Or.inl ?_)
          generalize drain.conns job = place at hfollow hclosed
          cases place with
          | closed result => exact hfollow
          | _ => cases hclosed
  | handled job refusal =>
      obtain ⟨client, hclient, h⟩ := Option.bind_eq_some_iff.mp h
      obtain ⟨gen, hgen, h⟩ := Option.bind_eq_some_iff.mp h
      obtain ⟨outcome, hreturned, h⟩ := Option.bind_eq_some_iff.mp h
      obtain ⟨drain, hdrain, rfl⟩ := Option.map_eq_some_iff.mp h
      have hchange : Change proto w _ :=
        .acted hclient hgen (handled_acts hreturned hdrain)
      rwa [set_same hgen] at hchange
  | resume job =>
      obtain ⟨client, hclient, h⟩ := Option.bind_eq_some_iff.mp h
      obtain ⟨gen, world, hgen, hresume, rfl⟩ := inside_eq_some h
      exact .acted hclient hgen (.resumed rfl hresume)
  | provider g turn =>
      obtain ⟨gen, world, hgen, hturn, rfl⟩ := inside_eq_some h
      obtain ⟨⟨p, b⟩, -, hprovider⟩ := Option.bind_eq_some_iff.mp hturn
      obtain ⟨state, hstep, rfl⟩ := Option.map_eq_some_iff.mp hprovider
      exact .provided hgen hstep
  | panic job =>
      obtain ⟨client, hclient, h⟩ := Option.bind_eq_some_iff.mp h
      obtain ⟨drain, hdrain, h⟩ := Option.bind_eq_some_iff.mp h
      obtain ⟨gen, world, hgen, hleave, rfl⟩ := inside_eq_some h
      obtain ⟨hacted, hended, -⟩ := Drain.panic_acted hdrain
      refine .acted hclient hgen (.left (Or.inl rfl) hacted hended ?_)
      cases hfirst : leave gen.world job with
      | some world' =>
          rw [hfirst] at hleave
          exact Or.inl hleave
      | none =>
          rw [hfirst] at hleave
          exact Or.inr hleave
  | cancel job =>
      obtain ⟨client, hclient, h⟩ := Option.bind_eq_some_iff.mp h
      obtain ⟨drain, hdrain, h⟩ := Option.bind_eq_some_iff.mp h
      obtain ⟨gen, world, hgen, hleave, rfl⟩ := inside_eq_some h
      obtain ⟨hacted, hended, -⟩ := Drain.cancel_acted hdrain
      exact .acted hclient hgen (.left (Or.inl rfl) hacted hended (Or.inl hleave))

end Process

end Keyring
