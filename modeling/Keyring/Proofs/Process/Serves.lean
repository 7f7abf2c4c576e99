/-
What a client is sent is what its session would answer alone.

Every client that was accepted has a connection in one generation, that of the agent in
place when it came, and its two sides stand to each other as `JobOk` says.  Only one
connection takes a step at a time, and a step of the loop or of a provider moves none, so
this is kept by looking at the one who acts.
-/
import Keyring.Proofs.Process.Dialogue
import Keyring.Proofs.Process.Parts
import Keyring.Proofs.Service.Agent.Origin

namespace Keyring.Process

open Keyring.Service Keyring.Cli

variable {keys : SshKeys} {proto : AgentProto} {agent : ServiceAgent (Provider keys)}
  {w w' : World keys} {job g : Nat} {client : Serve.Client (Provider keys)} {gen : Generation keys}

/-! ### Every client has its connection -/

/-- The clients that were accepted. -/
def World.clients (w : World keys) : List (Serve.Client (Provider keys)) :=
  Serve.clients w.drain.serve.log

/-- Where the connections are. -/
structure Inv (agent : ServiceAgent (Provider keys)) (w : World keys) : Prop where
  agents : w.generations.map Generation.agent = Serve.generations agent w.drain.serve.log
  silent : ∀ job, w.clients.length ≤ job → Drain.wire job w.drain.log = []
  own : ∀ (g : Nat) (gen : Generation keys) (job : Nat), w.generations[g]? = some gen →
    (gen.world.conns job).isSome → ∃ client, w.clients[job]? = some client ∧ client.stop = g
  jobs : ∀ (job : Nat) (client : Serve.Client (Provider keys)), w.clients[job]? = some client →
    ∃ (gen : Generation keys) (conn : Conn keys _), w.generations[client.stop]? = some gen ∧
      gen.world.conns job = some conn ∧ JobOk w.drain job conn

/-- A generation keeps its agent. -/
theorem agents_set (hgen : w.generations[g]? = some gen)
    (world : Service.World (loadsOf gen.agent)) :
    (w.generations.set g ⟨gen.agent, world⟩).map Generation.agent =
      w.generations.map Generation.agent := by
  have hagent : (w.generations.map Generation.agent)[g]? = some gen.agent := by
    rw [List.getElem?_map, hgen]
    rfl
  rw [List.map_set, set_same hagent]

/-- One generation has gone on, and with it those who are connected there. -/
theorem Inv.set (h : Inv agent w) {drain : Drain.World (Provider keys) (Message keys) (Reply keys)}
    {world : Service.World (loadsOf gen.agent)} (hgen : w.generations[g]? = some gen)
    (hbrings : Drain.Brings [] [] w.drain drain)
    (hsilent : ∀ job, w.clients.length ≤ job →
      Drain.wire job drain.log = Drain.wire job w.drain.log)
    (hown : ∀ job, (world.conns job).isSome → (gen.world.conns job).isSome)
    (hjobs : ∀ job conn, gen.world.conns job = some conn → JobOk w.drain job conn →
      ∃ conn', world.conns job = some conn' ∧ JobOk drain job conn')
    (hothers : ∀ (job : Nat) (client : Serve.Client (Provider keys)),
      w.clients[job]? = some client → client.stop ≠ g →
      ∀ {ι : Type} (conn : Conn keys ι), JobOk w.drain job conn → JobOk drain job conn) :
    Inv agent ⟨drain, w.generations.set g ⟨gen.agent, world⟩⟩ := by
  have hclients : World.clients ⟨drain, w.generations.set g ⟨gen.agent, world⟩⟩ = w.clients := by
    rw [World.clients, hbrings.clients, List.append_nil]
    rfl
  have hlt := (List.getElem?_eq_some_iff.mp hgen).1
  refine ⟨?_, ?_, ?_, ?_⟩
  · rw [agents_set hgen, hbrings.agents, List.append_nil]
    exact h.agents
  · intro job hjob
    rw [hclients] at hjob
    rw [hsilent job hjob]
    exact h.silent job hjob
  · intro g' gen' job hgen' hconn
    rw [hclients]
    by_cases hg : g' = g
    · subst hg
      rw [List.getElem?_set_self hlt] at hgen'
      obtain rfl := Option.some.inj hgen'
      exact h.own g' gen job hgen (hown job hconn)
    · rw [List.getElem?_set_ne (Ne.symm hg)] at hgen'
      exact h.own g' gen' job hgen' hconn
  · intro job client hclient
    rw [hclients] at hclient
    obtain ⟨gen', conn, hgen', hconn, hok⟩ := h.jobs job client hclient
    by_cases hg : client.stop = g
    · rw [hg] at hgen' ⊢
      obtain rfl := Option.some.inj (hgen.symm.trans hgen')
      obtain ⟨conn', hconn', hok'⟩ := hjobs job conn hconn hok
      exact ⟨⟨gen.agent, world⟩, conn', List.getElem?_set_self hlt, hconn', hok'⟩
    · refine ⟨gen', conn, ?_, hconn, hothers job client hclient hg conn hok⟩
      rw [List.getElem?_set_ne (Ne.symm hg)]
      exact hgen'

/-- A turn of the loop that moves no client. -/
theorem Inv.quiet (h : Inv agent w) {drain : Drain.World (Provider keys) (Message keys) (Reply keys)}
    (hframe : Drain.Frame none w.drain drain) (hbrings : Drain.Brings [] [] w.drain drain) :
    Inv agent { w with drain } := by
  have hclients : World.clients { w with drain } = w.clients := by
    rw [World.clients, hbrings.clients, List.append_nil]
    rfl
  refine ⟨?_, ?_, ?_, ?_⟩
  · rw [hbrings.agents, List.append_nil]
    exact h.agents
  · intro job hjob
    rw [hclients] at hjob
    rw [hframe.wire job (by simp)]
    exact h.silent job hjob
  · rw [hclients]
    exact h.own
  · intro job client hclient
    rw [hclients] at hclient
    obtain ⟨gen, conn, hgen, hconn, hok⟩ := h.jobs job client hclient
    exact ⟨gen, conn, hgen, hconn, hok.frame hframe (by simp)⟩

/-- A new generation has no client yet. -/
theorem Inv.installed (h : Inv agent w)
    {drain : Drain.World (Provider keys) (Message keys) (Reply keys)}
    {candidate : ServiceAgent (Provider keys)} {clock : Instant}
    (hframe : Drain.Frame none w.drain drain)
    (hbrings : Drain.Brings [] [candidate] w.drain drain) :
    Inv agent ⟨drain, w.generations ++ [.start clock candidate]⟩ := by
  have hclients : World.clients ⟨drain, w.generations ++ [.start clock candidate]⟩ =
      w.clients := by
    rw [World.clients, hbrings.clients, List.append_nil]
    rfl
  refine ⟨?_, ?_, ?_, ?_⟩
  · rw [List.map_append, h.agents, hbrings.agents]
    rfl
  · intro job hjob
    rw [hclients] at hjob
    rw [hframe.wire job (by simp)]
    exact h.silent job hjob
  · intro g gen job hgen hconn
    rw [hclients]
    rcases Nat.lt_or_ge g w.generations.length with hlt | hge
    · rw [List.getElem?_append_left hlt] at hgen
      exact h.own g gen job hgen hconn
    · rw [List.getElem?_append_right hge] at hgen
      obtain rfl := List.mem_singleton.mp (List.mem_of_getElem? hgen)
      cases hconn
  · intro job client hclient
    rw [hclients] at hclient
    obtain ⟨gen, conn, hgen, hconn, hok⟩ := h.jobs job client hclient
    have hlt := (List.getElem?_eq_some_iff.mp hgen).1
    exact ⟨gen, conn, by rw [List.getElem?_append_left hlt]; exact hgen, hconn,
      hok.frame hframe (by simp)⟩

/-- A new connection is there, and the others are where they were. -/
theorem conns_of_accept {ι : Type} {P : ι → Core.KeyPairProvider keys}
    {world world' : Service.World P} {members : ServiceAgent ι}
    (h : world.accept members job = some world') : world.conns job = none ∧
      world'.conns = Function.update world.conns job
        (some ⟨OpenSession.start members.newSession, .idle, []⟩) := by
  unfold Service.World.accept at h
  split at h
  · rename_i hnone
    obtain rfl := Option.some.inj h
    exact ⟨hnone, rfl⟩
  · cases h

/-- A client is accepted by the generation in place, and nobody else notices. -/
theorem Inv.accepted (h : Inv agent w) (hr : (processMachine proto agent).Reachable w)
    {drain : Drain.World (Provider keys) (Message keys) (Reply keys)}
    {world : Service.World (loadsOf gen.agent)}
    (hturned : Drain.Turned w.drain (.accept (.ok ())) drain)
    (hgen : w.generations[w.drain.serve.service.stop]? = some gen)
    (haccept : gen.world.accept (placesOf gen.agent) w.drain.serve.service.jobs.spawned =
      some world) :
    Inv agent ⟨drain, w.generations.set w.drain.serve.service.stop ⟨gen.agent, world⟩⟩ := by
  have hcount := (Serve.clientsInv (Drain.serve_reachable (drain_reachable hr))).count
  have htop := (Drain.openInv (drain_reachable hr)).new
  have hlt := (List.getElem?_eq_some_iff.mp hgen).1
  obtain ⟨hnone, hupdate⟩ := conns_of_accept haccept
  cases hturned with
  | quiet haccepts => exact absurd rfl haccepts
  | accepted hrun hframe hconns hwire hrunning hbrings =>
      generalize w.drain.serve.service.jobs.spawned = new at *
      generalize w.drain.serve.service.stop = stop at *
      have hclients : World.clients ⟨drain, w.generations.set stop ⟨gen.agent, world⟩⟩ =
          w.clients ++ [⟨w.drain.serve.service.agent.newSession, stop⟩] := hbrings.clients
      have hlength : w.clients.length = new := hcount
      have hlast : (w.clients ++ [⟨w.drain.serve.service.agent.newSession, stop⟩])[new]? =
          some ⟨w.drain.serve.service.agent.newSession, stop⟩ := by
        rw [← hlength]
        exact List.getElem?_concat_length
      have hold : ∀ {job client}, w.clients[job]? = some client →
          job ≠ new ∧ (w.clients ++ [⟨w.drain.serve.service.agent.newSession, stop⟩])[job]? =
            some client := by
        intro job client hclient
        have hjob := (List.getElem?_eq_some_iff.mp hclient).1
        exact ⟨Nat.ne_of_lt (hlength ▸ hjob), by rw [List.getElem?_append_left hjob]; exact hclient⟩
      refine ⟨?_, ?_, ?_, ?_⟩
      · rw [agents_set hgen, hbrings.agents, List.append_nil]
        exact h.agents
      · intro job hjob
        rw [hclients, List.length_append] at hjob
        rw [hwire]
        exact h.silent job (Nat.le_of_succ_le hjob)
      · intro g' gen' job hgen' hconn
        rw [hclients]
        by_cases hg : g' = stop
        · subst hg
          rw [List.getElem?_set_self hlt] at hgen'
          obtain rfl := Option.some.inj hgen'
          by_cases hjob : job = new
          · exact ⟨_, hjob ▸ hlast, rfl⟩
          · rw [hupdate, Function.update_of_ne hjob] at hconn
            obtain ⟨client, hclient, hstop⟩ := h.own g' gen job hgen hconn
            exact ⟨client, (hold hclient).2, hstop⟩
        · rw [List.getElem?_set_ne (Ne.symm hg)] at hgen'
          obtain ⟨client, hclient, hstop⟩ := h.own g' gen' job hgen' hconn
          exact ⟨client, (hold hclient).2, hstop⟩
      · intro job client hclient
        rw [hclients] at hclient
        rcases Nat.lt_or_ge job w.clients.length with hjob | hjob
        · rw [List.getElem?_append_left hjob] at hclient
          obtain ⟨gen', conn, hgen', hconn, hok⟩ := h.jobs job client hclient
          have hne := (hold hclient).1
          have hok' := hok.frame hframe fun heq => hne (Option.some.inj heq)
          by_cases hg : client.stop = stop
          · rw [hg] at hgen' ⊢
            obtain rfl := Option.some.inj (hgen.symm.trans hgen')
            refine ⟨⟨gen.agent, world⟩, conn, List.getElem?_set_self hlt, ?_, hok'⟩
            show world.conns job = some conn
            rw [hupdate, Function.update_of_ne hne]
            exact hconn
          · exact ⟨gen', conn, by rw [List.getElem?_set_ne (Ne.symm hg)]; exact hgen', hconn, hok'⟩
        · -- the new client, whose connection has said nothing
          obtain rfl : job = new := by
            have hle := (List.getElem?_eq_some_iff.mp hclient).1
            rw [List.length_append, List.length_singleton, hlength] at hle
            omega
          rw [hlast] at hclient
          obtain rfl := Option.some.inj hclient
          have hself : world.conns job =
              some ⟨OpenSession.start (placesOf gen.agent).newSession, .idle, []⟩ := by
            rw [hupdate, Function.update_self]
          refine ⟨⟨gen.agent, world⟩, _, List.getElem?_set_self hlt, hself, .live hrunning ?_⟩
          rw [hconns, htop job (Nat.le_refl _), hwire, h.silent job hjob]
          exact .between .top rfl .nil rfl

/-- A connection does something. -/
theorem Inv.acted (h : Inv agent w) (hr : (processMachine proto agent).Reachable w)
    {drain : Drain.World (Provider keys) (Message keys) (Reply keys)}
    {world : Service.World (loadsOf gen.agent)}
    (hclient : Drain.client? w.drain.serve.service job = some client)
    (hgen : w.generations[client.stop]? = some gen)
    (hacts : Acts proto w.drain drain job gen.world world) :
    Inv agent ⟨drain, w.generations.set client.stop ⟨gen.agent, world⟩⟩ := by
  have hclients := Serve.clientsInv (Drain.serve_reachable (drain_reachable hr))
  have hjob : w.clients[job]? = some client := hclients.of_client? hclient
  have hrunning := Drain.running_of_client? hclient
  obtain ⟨hframe, hbrings⟩ := hacts.frame
  obtain ⟨gen', conn, hgen', hconn, -⟩ := h.jobs job client hjob
  obtain rfl := Option.some.inj (hgen.symm.trans hgen')
  refine h.set hgen hbrings ?_ ?_ ?_ ?_
  · intro i hi
    refine hframe.wire i fun heq => ?_
    obtain rfl := Option.some.inj heq
    exact Nat.not_lt_of_le hi (List.getElem?_eq_some_iff.mp hjob).1
  · intro i hi
    by_cases hij : i = job
    · rw [hij, hconn]
      rfl
    · rwa [hacts.others (placesOf gen.agent) hij] at hi
  · intro i conn' hconn' hok
    by_cases hij : i = job
    · subst hij
      exact hok.acts (placesOf gen.agent) hconn' hrunning hacts
    · refine ⟨conn', ?_, hok.frame hframe fun heq => hij (Option.some.inj heq)⟩
      rw [hacts.others (placesOf gen.agent) hij]
      exact hconn'
  · intro i client' hclient' hne ι conn' hok
    refine hok.frame hframe fun heq => hne ?_
    obtain rfl := Option.some.inj heq
    rw [Option.some.inj (hclient'.symm.trans hjob)]

theorem inv (hr : (processMachine proto agent).Reachable w) : Inv agent w := by
  refine hr.invariant ?_ ?_
  · rintro w ⟨clock, rfl⟩
    refine ⟨rfl, fun _ _ => rfl, ?_, fun job client hclient => by cases hclient⟩
    intro g gen job hgen hconn
    obtain rfl := List.mem_singleton.mp (List.mem_of_getElem? hgen)
    cases hconn
  · intro w w' a hr hI hstep
    cases change_of_step hr hstep with
    | quiet hframe hbrings => exact hI.quiet hframe hbrings
    | installed hframe hbrings => exact hI.installed hframe hbrings
    | accepted hturned hgen haccept => exact hI.accepted hr hturned hgen haccept
    | acted hclient hgen hacts => exact hI.acted hr hclient hgen hacts
    | provided hgen hprovider =>
        exact hI.set hgen (.none rfl) (fun _ _ => rfl) (fun _ h => h)
          (fun job conn hconn hok => ⟨conn, hconn, hok⟩) fun _ _ _ _ _ _ hok => hok

/-! ### What a client is sent -/

/-- What a client has of the program, in the generation it belongs to. -/
structure Serves (proto : AgentProto) (agent : ServiceAgent (Provider keys)) (w : World keys)
    (job : Nat) (client : Serve.Client (Provider keys)) (gen : Generation keys)
    (conn : Conn keys (Fin gen.agent.providers.length)) : Prop where
  /-- The generation is that of the agent in place when the client came. -/
  generation : (Serve.generations agent w.drain.serve.log)[client.stop]? = some gen.agent
  session : client.session.providers = gen.agent.providers
  /-- What was said on the wire is what the session has answered, -/
  dialogue : Dialogue (Handle.visible (Drain.wire job w.drain.log)) conn.exchanges
  /-- and that is what it answers alone, with what the providers of the generation returned. -/
  refined : Refined proto (placesOf gen.agent) gen.world conn

theorem JobOk.dialogue {ι : Type} {conn : Conn keys ι}
    {d : Drain.World (Provider keys) (Message keys) (Reply keys)} (h : JobOk d job conn) :
    Dialogue (Handle.visible (Drain.wire job d.log)) conn.exchanges := by
  cases h with
  | live hrunning hwired =>
      have hdialogue := hwired.dialogue (Or.inl rfl)
      have hnothing : Handle.visible ([] : List (Handle.Event (Message keys) (Reply keys))) = [] :=
        rfl
      rwa [hnothing, List.append_nil] at hdialogue
  | ended hended hclosed hdialogue => exact hdialogue

theorem Inv.serves (hI : Inv agent w) (hr : (processMachine proto agent).Reachable w)
    (hclient : (Serve.clients w.drain.serve.log)[job]? = some client) :
    ∃ gen conn, w.generations[client.stop]? = some gen ∧ gen.world.conns job = some conn ∧
      Serves proto agent w job client gen conn := by
  have hserve := Drain.serve_reachable (drain_reachable hr)
  obtain ⟨gen, conn, hgen, hconn, hok⟩ := hI.jobs job client hclient
  have hgeneration : (Serve.generations agent w.drain.serve.log)[client.stop]? = some gen.agent := by
    rw [← hI.agents, List.getElem?_map, hgen]
    rfl
  refine ⟨gen, conn, hgen, hconn, hgeneration, ?_, hok.dialogue, ?_⟩
  · obtain ⟨event, hmem, hevent⟩ := List.mem_filterMap.mp (List.mem_of_getElem? hclient)
    cases event with
    | accepted session stop =>
        obtain rfl := Option.some.inj hevent
        obtain ⟨agent', hagent, hsession⟩ := (Serve.generationInv hserve).sessions session stop hmem
        obtain rfl := Option.some.inj (hgeneration.symm.trans hagent)
        rw [hsession]
        rfl
    | _ => cases hevent
  · exact (conns_ok (fun p => (gen.agent.providers.get p).lawful)
      (generation_reachable hr gen (List.mem_of_getElem? hgen)) job conn hconn).toRefined

/-- **What a client is sent is what its session answers alone**, in order and once each, with
the providers of the agent that was in place when it came, whatever reloads, other clients,
timeouts, panics and the shutdown do. -/
theorem process_serves (h : (processMachine proto agent).Reachable w)
    (hclient : (Serve.clients w.drain.serve.log)[job]? = some client) :
    ∃ gen conn, w.generations[client.stop]? = some gen ∧ gen.world.conns job = some conn ∧
      Serves proto agent w job client gen conn := (inv h).serves h hclient

/-! ### A run -/

namespace Run

def ofKey (key : plainKeys.PrivateKey) : ServiceAgent (Provider plainKeys) :=
  ⟨[.dummy [key]], by simp⟩

/-- What a connection does for a request until its response is sent. -/
def exchange (job : Nat) (message : Message plainKeys) (loads : List (Action plainKeys)) :
    List (Action plainKeys) :=
  [.conn job .go, .conn job .go, .conn job (.frame (.ok (some message)))] ++ loads ++
    [.handled job "unsupported", .conn job (.sent (.ok ()))]

/-- A reload that finds a dummy provider with another key. -/
def reload (key : plainKeys.PrivateKey) : List (Action plainKeys) :=
  [.serve (.signal .reload), .serve (.buildEnds 0 (.ok (.ok [.dummy [key]]))),
    .serve (.joinReload 0)]

/-- A client has the agent replaced while its request is handled, and another comes then. -/
def replaced : List (Action plainKeys) :=
  .serve (.accept (.ok ())) ::
    exchange 0 (.request .identities)
      (reload (8, "new") ++ [.serve (.accept (.ok ())), .resume 0]) ++
    exchange 1 (.other 17) [] ++ exchange 1 (.request .identities) [.resume 1]

theorem reachable (as : List (Action plainKeys)) (test : World plainKeys → Bool)
    (h : (Machine.exec (World.step plainProto) (.start (ofKey (7, "old")) 0) as).any test = true) :
    ∃ w, (processMachine plainProto (ofKey (7, "old"))).Reachable w ∧ test w = true :=
  Machine.reachable_of_exec_any ⟨0, rfl⟩ as test h

end Run

def isListing : Handle.Event (Message plainKeys) (Reply plainKeys) → Bool
  | .sent (.body (.identities _)) => true
  | _ => false

def isFailure : Handle.Event (Message plainKeys) (Reply plainKeys) → Bool
  | .sent .failure => true
  | _ => false

/-- The client of the old agent is sent a listing after the new one was in place, and the
client of the new one a failure, for a request its session has no method for, and then a
listing too. -/
theorem process_serves_replaced : ∃ (w : World plainKeys)
    (client client' : Serve.Client (Provider plainKeys)) (gen gen' : Generation plainKeys)
    (conn : Conn plainKeys _) (conn' : Conn plainKeys _), (client.stop = 0 ∧ client'.stop = 1) ∧
      (Drain.wire 0 w.drain.log).any isListing = true ∧
      ((Drain.wire 1 w.drain.log).any isFailure = true ∧
        (Drain.wire 1 w.drain.log).any isListing = true) ∧
      Serves plainProto (Run.ofKey (7, "old")) w 0 client gen conn ∧
      Serves plainProto (Run.ofKey (7, "old")) w 1 client' gen' conn' := by
  obtain ⟨w, hw, hp⟩ := Run.reachable Run.replaced
    (fun w => (Drain.wire 0 w.drain.log).any isListing &&
      ((Drain.wire 1 w.drain.log).any isFailure && (Drain.wire 1 w.drain.log).any isListing) &&
      (((Serve.clients w.drain.serve.log)[0]?).any (fun client => client.stop == 0) &&
        ((Serve.clients w.drain.serve.log)[1]?).any fun client => client.stop == 1))
    (by decide +kernel)
  obtain ⟨hsent, hcame⟩ := (Bool.and_eq_true _ _).mp hp
  obtain ⟨hold, hnew⟩ := (Bool.and_eq_true _ _).mp hsent
  obtain ⟨hcame, hcame'⟩ := (Bool.and_eq_true _ _).mp hcame
  obtain ⟨client, hclient, hstop⟩ := (Option.any_eq_true _ _).mp hcame
  obtain ⟨client', hclient', hstop'⟩ := (Option.any_eq_true _ _).mp hcame'
  obtain ⟨gen, conn, -, -, hserves⟩ := process_serves hw hclient
  obtain ⟨gen', conn', -, -, hserves'⟩ := process_serves hw hclient'
  exact ⟨w, client, client', gen, gen', conn, conn', ⟨beq_iff_eq.mp hstop, beq_iff_eq.mp hstop'⟩,
    hold, (Bool.and_eq_true _ _).mp hnew, hserves, hserves'⟩

end Keyring.Process
