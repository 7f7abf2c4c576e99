/-
The parts of a run of the program are runs of its parts.

The service with its connections runs as it does when it is told what sessions return, and
every generation as it does when it is told which requests come.  So what was shown of
either holds here.
-/
import Keyring.Proofs.Process.Moves
import Keyring.Proofs.Service.Agent.Own

namespace Keyring.Process

open Keyring.Service Keyring.Cli

variable {keys : SshKeys} {proto : AgentProto} {agent : ServiceAgent (Provider keys)}
  {w w' : World keys} {a : Action keys}

/-! ### The service -/

theorem inside_drain {g : Nat}
    {f : (gen : Generation keys) → Option (Service.World (loadsOf gen.agent))}
    (h : w.inside g f = some w') : w'.drain = w.drain := by
  obtain ⟨gen, world, -, -, rfl⟩ := inside_eq_some h
  rfl

theorem turned_drain {service : Serve.Service (Provider keys)}
    {b : Serve.Action (Provider keys)} (h : w.turned service b = some w') :
    w'.drain = w.drain := by
  unfold World.turned at h
  split at h
  · exact inside_drain h
  · split at h
    · obtain rfl := Option.some.inj h
      rfl
    · obtain rfl := Option.some.inj h
      rfl
  · obtain rfl := Option.some.inj h
    rfl

/-- What the service does in a step of the program. -/
inductive Drives :
    Action keys → Drain.Action (Provider keys) (Message keys) (Reply keys) → Prop
  | serve (b : Serve.Action (Provider keys)) : Drives (.serve b) (.serve b)
  | startDrain : Drives .startDrain .startDrain
  | tick (now : Instant) : Drives (.tick now) (.tick now)
  | conn (job : Nat) (input : Handle.Input (Message keys) (Reply keys)) :
      Drives (.conn job input) (.conn job input)
  | handled (job : Nat) (refusal : String)
      (outcome : Except AgentError (Handle.Response (Reply keys))) :
      Drives (.handled job refusal) (.conn job (.handled outcome))
  | panic (job : Nat) : Drives (.panic job) (.panic job)
  | cancel (job : Nat) : Drives (.cancel job) (.cancel job)

/-- A step of one generation, in which the service has no part. -/
inductive Inside (proto : AgentProto) (w : World keys) : Action keys → World keys → Prop
  | resumed {job : Nat} {client : Serve.Client (Provider keys)} {gen : Generation keys}
      {world : Service.World (loadsOf gen.agent)} (hgen : w.generations[client.stop]? = some gen)
      (hresume : gen.world.resume proto job = some world) :
      Inside proto w (.resume job)
        ⟨w.drain, w.generations.set client.stop ⟨gen.agent, world⟩⟩
  | provided {g : Nat} {turn : Turn keys} {gen : Generation keys}
      {p : Fin gen.agent.providers.length} {b : (loadsOf gen.agent p).Action}
      {state : (loadsOf gen.agent p).State} (hgen : w.generations[g]? = some gen)
      (hturn : turn gen = some ⟨p, b⟩)
      (hstep : (loadsOf gen.agent p).step (gen.world.providers p) b = some state) :
      Inside proto w (.provider g turn)
        ⟨w.drain, w.generations.set g ⟨gen.agent, gen.world.withProvider p state⟩⟩

/-- A step is one of the service, or of a generation alone. -/
theorem step_parts (h : w.step proto a = some w') :
    Inside proto w a w' ∨ ∃ b, Drives a b ∧ w.drain.step b = some w'.drain := by
  have hmoved : ∀ {drain b}, w'.drain = drain → Drives a b → w.drain.step b = some drain →
      Inside proto w a w' ∨ ∃ b, Drives a b ∧ w.drain.step b = some w'.drain := by
    rintro drain b rfl hdrives hb
    exact Or.inr ⟨b, hdrives, hb⟩
  cases a with
  | serve a =>
      obtain ⟨drain, hdrain, h⟩ := Option.bind_eq_some_iff.mp h
      exact hmoved (turned_drain h) (.serve a) hdrain
  | startDrain =>
      obtain ⟨drain, hdrain, rfl⟩ := Option.map_eq_some_iff.mp h
      exact hmoved rfl .startDrain hdrain
  | tick now =>
      obtain ⟨drain, hdrain, rfl⟩ := Option.map_eq_some_iff.mp h
      exact hmoved rfl (.tick now) hdrain
  | conn job input =>
      obtain ⟨-, h⟩ := Option.ite_none_left_eq_some.mp h
      obtain ⟨client, -, h⟩ := Option.bind_eq_some_iff.mp h
      obtain ⟨drain, hdrain, h⟩ := Option.bind_eq_some_iff.mp h
      exact hmoved (inside_drain h) (.conn job input) hdrain
  | handled job refusal =>
      obtain ⟨client, -, h⟩ := Option.bind_eq_some_iff.mp h
      obtain ⟨gen, -, h⟩ := Option.bind_eq_some_iff.mp h
      obtain ⟨outcome, -, h⟩ := Option.bind_eq_some_iff.mp h
      obtain ⟨drain, hdrain, rfl⟩ := Option.map_eq_some_iff.mp h
      exact hmoved rfl (.handled job refusal outcome) hdrain
  | resume job =>
      obtain ⟨client, -, h⟩ := Option.bind_eq_some_iff.mp h
      obtain ⟨gen, world, hgen, hresume, rfl⟩ := inside_eq_some h
      exact Or.inl (.resumed hgen hresume)
  | provider g turn =>
      obtain ⟨gen, world, hgen, hturned, rfl⟩ := inside_eq_some h
      obtain ⟨⟨p, b⟩, hturn, hprovider⟩ := Option.bind_eq_some_iff.mp hturned
      obtain ⟨state, hstep, rfl⟩ := Option.map_eq_some_iff.mp hprovider
      exact Or.inl (.provided hgen hturn hstep)
  | panic job =>
      obtain ⟨client, -, h⟩ := Option.bind_eq_some_iff.mp h
      obtain ⟨drain, hdrain, h⟩ := Option.bind_eq_some_iff.mp h
      exact hmoved (inside_drain h) (.panic job) hdrain
  | cancel job =>
      obtain ⟨client, -, h⟩ := Option.bind_eq_some_iff.mp h
      obtain ⟨drain, hdrain, h⟩ := Option.bind_eq_some_iff.mp h
      exact hmoved (inside_drain h) (.cancel job) hdrain

theorem Inside.drain (h : Inside proto w a w') : w'.drain = w.drain := by
  cases h <;> rfl

/-- What the program does, its service does. -/
theorem step_drain (h : w.step proto a = some w') :
    w'.drain = w.drain ∨ ∃ b, w.drain.step b = some w'.drain := by
  rcases step_parts h with hinside | ⟨b, -, hb⟩
  · exact Or.inl hinside.drain
  · exact Or.inr ⟨b, hb⟩

/-- **The service runs as it does with any sessions.** -/
theorem drain_reachable (h : (processMachine proto agent).Reachable w) :
    (Drain.drainMachine (Message keys) (Reply keys) agent).Reachable w.drain := by
  refine h.invariant
    (I := fun w => (Drain.drainMachine (Message keys) (Reply keys) agent).Reachable w.drain) ?_ ?_
  · rintro w ⟨clock, rfl⟩
    exact .init ⟨clock, rfl⟩
  · intro w w' a _ hI hstep
    rcases step_drain hstep with hsame | ⟨b, hb⟩
    · rwa [hsame]
    · exact hI.step hb

/-- The steps of a run are changes. -/
theorem change_of_step (hr : (processMachine proto agent).Reachable w)
    (h : w.step proto a = some w') : Change proto w w' :=
  step_change (Drain.serve_reachable (drain_reachable hr)) h

/-! ### The generations -/

section

variable {ι : Type} [DecidableEq ι] {P : ι → Core.KeyPairProvider keys}
  {world world' : Service.World P} {d d' : Drain.World (Provider keys) (Message keys) (Reply keys)} {job : Nat}

theorem leave_leads (proto : AgentProto) (members : ServiceAgent ι)
    (h : leave world job = some world') : (agentMachine proto members P).Leads world world' := by
  unfold leave at h
  split at h
  · exact (Machine.Leads.refl world).step (m := agentMachine proto members P) (a := .close job) h
  · exact (Machine.Leads.refl world).step (m := agentMachine proto members P) (a := .drop job) h

theorem follow_leads (members : ServiceAgent ι) {place : Handle.Place (Message keys) (Reply keys)}
    (h : follow proto world job place = some world') :
    (agentMachine proto members P).Leads world world' := by
  unfold follow at h
  split at h
  · rename_i request deadline
    exact (Machine.Leads.refl world).step (m := agentMachine proto members P)
      (a := .request job request) h
  · exact leave_leads proto members h
  · obtain rfl := Option.some.inj h
    exact Machine.Leads.refl world

/-- What a connection does is a run of its agent. -/
theorem Acts.leads (h : Acts proto d d' job world world') (members : ServiceAgent ι) :
    (agentMachine proto members P).Leads world world' := by
  cases h with
  | moved hmove hopen hsending hacted hrunning hfollow => exact follow_leads members hfollow
  | handled => exact Machine.Leads.refl world
  | resumed hdrain hresume =>
      exact (Machine.Leads.refl world).step (m := agentMachine proto members P) (a := .resume job)
        hresume
  | left hclosing hacted hended hleave =>
      rcases hleave with hleave | hunwind
      · exact leave_leads proto members hleave
      · exact (Machine.Leads.refl world).step (m := agentMachine proto members P)
          (a := .unwind job) hunwind

end

theorem status_start (provider : Provider keys) (clock : Instant) (i : Core.CallId) :
    provider.loads.status (provider.start clock) i = .unused := by
  cases provider with
  | dummy identities => rfl
  | bitwarden config env => rfl

/-- The runs of a generation. -/
def Generation.Runs (proto : AgentProto) (gen : Generation keys) : Prop :=
  (agentMachine proto (placesOf gen.agent) (loadsOf gen.agent)).Reachable gen.world

theorem Generation.start_runs (proto : AgentProto) (clock : Instant)
    (candidate : ServiceAgent (Provider keys)) :
    (Generation.start clock candidate).Runs proto :=
  .init ⟨_, rfl, fun p i => status_start (candidate.providers.get p) clock i⟩

/-- Where one generation runs on, all do. -/
theorem runs_set {g : Nat} {gen : Generation keys} {world : Service.World (loadsOf gen.agent)}
    (hI : ∀ gen ∈ w.generations, gen.Runs proto) (hgen : w.generations[g]? = some gen)
    (hleads : (agentMachine proto (placesOf gen.agent) (loadsOf gen.agent)).Leads gen.world world) :
    ∀ gen' ∈ w.generations.set g ⟨gen.agent, world⟩, gen'.Runs proto := by
  intro gen' hmem
  rcases List.mem_or_eq_of_mem_set hmem with hold | rfl
  · exact hI gen' hold
  · exact (hI gen (List.mem_of_getElem? hgen)).leads hleads

/-- **Every generation runs as it does alone.** -/
theorem generation_reachable (h : (processMachine proto agent).Reachable w) :
    ∀ gen ∈ w.generations, gen.Runs proto := by
  refine h.invariant (I := fun w => ∀ gen ∈ w.generations, gen.Runs proto) ?_ ?_
  · rintro w ⟨clock, rfl⟩ gen hmem
    obtain rfl := List.mem_singleton.mp hmem
    exact Generation.start_runs proto clock agent
  · intro w w' a hr hI hstep
    cases change_of_step hr hstep with
    | quiet => exact hI
    | installed hframe hbrings =>
        intro gen hmem
        rcases List.mem_append.mp hmem with hold | hnew
        · exact hI gen hold
        · obtain rfl := List.mem_singleton.mp hnew
          exact Generation.start_runs proto _ _
    | @accepted drain gen world hturned hgen haccept =>
        exact runs_set hI hgen ((Machine.Leads.refl gen.world).step
          (m := agentMachine proto (placesOf gen.agent) (loadsOf gen.agent)) (a := .accept _) haccept)
    | @acted drain job client gen world hclient hgen hacts =>
        exact runs_set hI hgen (hacts.leads (placesOf gen.agent))
    | @provided g gen p b state hgen hprovider =>
        refine runs_set hI hgen ((Machine.Leads.refl gen.world).step
          (m := agentMachine proto (placesOf gen.agent) (loadsOf gen.agent))
          (a := .provider p b) ?_)
        show ((loadsOf gen.agent p).step (gen.world.providers p) b).map _ = _
        rw [hprovider]
        rfl

/-- So no call of a provider is left behind. -/
theorem generation_owned (hr : (processMachine proto agent).Reachable w) {g : Nat}
    {gen : Generation keys} (hgen : w.generations[g]? = some gen) : Owned gen.world :=
  owned (fun p => (gen.agent.providers.get p).lawful)
    (generation_reachable hr gen (List.mem_of_getElem? hgen))

end Keyring.Process
