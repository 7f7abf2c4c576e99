/-
A generation that has served its clients rests for good.

After a reload nobody is accepted by the old generation any more, and after a shutdown by
none.  Once the clients it has left have ended, nobody waits for its providers, so that
every call on them has ended and every lock is free; and as only a client's request begins
a call, this does not change again.
-/
import Keyring.Proofs.Process.Serves
import Keyring.Proofs.Service.Agent.Settle

namespace Keyring.Process

open Keyring.Service Keyring.Cli

variable {keys : SshKeys} {proto : AgentProto} {agent : ServiceAgent (Provider keys)}
  {w w' : World keys} {job g : Nat} {client : Serve.Client (Provider keys)}
  {gen gen' : Generation keys} {a : Action keys}

/-! ### Nobody waits -/

/-- A generation where nobody is in `load`, and every provider has come to rest. -/
structure Generation.AtRest (gen : Generation keys) : Prop where
  ended : ∀ job, gen.world.call job = none
  settled : ∀ p, Provider.Settled (gen.agent.providers.get p) (gen.world.providers p)

/-- The clients of a generation have all ended. -/
def ServedOut (w : World keys) (g : Nat) : Prop :=
  ∀ job client, w.clients[job]? = some client → client.stop = g →
    ¬w.drain.serve.service.jobs.Running job

theorem ServedOut.atRest (h : ServedOut w g) (hr : (processMachine proto agent).Reachable w)
    (hgen : w.generations[g]? = some gen) : gen.AtRest := by
  have hI := inv hr
  have hquiet : ∀ job, gen.world.call job = none := by
    intro job
    cases hconn : gen.world.conns job with
    | none => rw [Service.World.call, hconn, Option.bind_none]
    | some conn =>
        obtain ⟨client, hclient, hstop⟩ := hI.own g gen job hgen (by rw [hconn]; rfl)
        obtain ⟨gen', conn', hgen', hconn', hok⟩ := hI.jobs job client hclient
        rw [hstop] at hgen'
        obtain rfl := Option.some.inj (hgen.symm.trans hgen')
        obtain rfl := Option.some.inj (hconn.symm.trans hconn')
        cases hok with
        | live hrunning => exact absurd hrunning (h job client hclient hstop)
        | ended hended hclosed =>
            rw [call_of_conn hconn, hclosed]
            rfl
  exact ⟨hquiet, (generation_owned hr hgen).settled hquiet⟩

/-! ### Nobody comes -/

/-- A generation that accepts nobody any more: it was replaced, or the loop has ended. -/
def Closed (w : World keys) (g : Nat) : Prop :=
  g + 1 < w.generations.length ∨ w.drain.serve.service.phase ≠ .running

/-- Nobody goes back into the loop. -/
theorem running_of_step (h : w.step proto a = some w')
    (hrun : w'.drain.serve.service.phase = .running) :
    w.drain.serve.service.phase = .running := by
  rcases step_drain h with hsame | ⟨b, hb⟩
  · rwa [hsame] at hrun
  · rcases (Drain.step_change hb).serve with hsame | ⟨c, hc⟩
    · rwa [hsame] at hrun
    · exact Drain.step_running hc hrun

/-- What a later state has of a generation: no call was begun there in the meantime. -/
def Unasked (w w' : World keys) (g : Nat) : Prop :=
  ∀ gen, w.generations[g]? = some gen → ∃ gen', w'.generations[g]? = some gen' ∧
    gen'.agent = gen.agent ∧ gen'.world.next = gen.world.next

theorem Unasked.refl (w : World keys) (g : Nat) : Unasked w w g :=
  fun gen hgen => ⟨gen, hgen, rfl, rfl⟩

/-- Another generation has gone on. -/
theorem unasked_set {i : Nat} {drain : Drain.World (Provider keys) (Message keys) (Reply keys)}
    (hne : g ≠ i) (gen' : Generation keys) :
    Unasked w ⟨drain, w.generations.set i gen'⟩ g := by
  intro gen hgen
  refine ⟨gen, ?_, rfl, rfl⟩
  show (w.generations.set i gen')[g]? = some gen
  rw [List.getElem?_set_ne (Ne.symm hne)]
  exact hgen

/-- The agent in place is that of the last generation. -/
theorem stop_last (hr : (processMachine proto agent).Reachable w) :
    w.drain.serve.service.stop + 1 = w.generations.length := by
  have hlast := (Serve.generationInv (Drain.serve_reachable (drain_reachable hr))).last
  rw [hlast, ← (inv hr).agents, List.length_map]

/-- **One step leaves a closed generation without clients as it is.** -/
theorem ServedOut.step (h : ServedOut w g) (hclosed : Closed w g)
    (hr : (processMachine proto agent).Reachable w) (hstep : w.step proto a = some w') :
    ServedOut w' g ∧ Closed w' g ∧ Unasked w w' g := by
  have hphase := running_of_step hstep
  have hkeeps : w.generations.length ≤ w'.generations.length → Closed w' g := by
    intro hle
    rcases hclosed with hreplaced | hended
    · exact Or.inl (Nat.lt_of_lt_of_le hreplaced hle)
    · exact Or.inr fun hrun => hended (hphase hrun)
  have hold : ∀ {drain : Drain.World (Provider keys) (Message keys) (Reply keys)}
      {generations : List (Generation keys)} {acting : Option Nat},
      Drain.Frame acting w.drain drain → Serve.clients drain.serve.log = w.clients →
      (∀ job client, w.clients[job]? = some client → client.stop = g → some job ≠ acting) →
        ServedOut ⟨drain, generations⟩ g := by
    intro drain generations acting hframe hclients hne job client hclient hstop hrunning
    have hclient' : w.clients[job]? = some client := hclients ▸ hclient
    exact h job client hclient' hstop
      ((hframe.running job (hne job client hclient' hstop)).mp hrunning)
  have hclients : ∀ {drain installed}, Drain.Brings [] installed w.drain drain →
      Serve.clients drain.serve.log = w.clients := by
    intro drain installed hbrings
    rw [hbrings.clients, List.append_nil]
    rfl
  cases change_of_step hr hstep with
  | quiet hframe hbrings =>
      exact ⟨hold hframe (hclients hbrings) (by simp), hkeeps (Nat.le_refl _), .refl w g⟩
  | installed hframe hbrings =>
      refine ⟨hold hframe (hclients hbrings) (by simp), hkeeps (by simp), ?_⟩
      intro gen hgen
      refine ⟨gen, ?_, rfl, rfl⟩
      show (w.generations ++ [_])[g]? = some gen
      rw [List.getElem?_append_left (List.getElem?_eq_some_iff.mp hgen).1]
      exact hgen
  | accepted hturned hgen haccept =>
      have hcount := (Serve.clientsInv (Drain.serve_reachable (drain_reachable hr))).count
      have hlast := stop_last hr
      cases hturned with
      | quiet haccepts => exact absurd rfl haccepts
      | accepted hrun hframe hconns hwire hrunning hbrings =>
          have hne : g ≠ w.drain.serve.service.stop := by
            rcases hclosed with hreplaced | hended
            · omega
            · exact absurd hrun hended
          refine ⟨?_, hkeeps (by simp), unasked_set hne _⟩
          intro job client hclient hstop hrunning'
          rw [World.clients, hbrings.clients] at hclient
          rcases Nat.lt_or_ge job (Serve.clients w.drain.serve.log).length with hjob | hjob
          · rw [List.getElem?_append_left hjob] at hclient
            refine h job client hclient hstop ((hframe.running job fun heq => ?_).mp hrunning')
            rw [← hcount] at heq
            exact Nat.ne_of_lt hjob (Option.some.inj heq)
          · rw [List.getElem?_append_right hjob] at hclient
            obtain rfl := List.mem_singleton.mp (List.mem_of_getElem? hclient)
            exact hne hstop.symm
  | @acted drain job client gen world hclient hgen hacts =>
      obtain ⟨hframe, hbrings⟩ := hacts.frame
      have hjob : w.clients[job]? = some client :=
        (Serve.clientsInv (Drain.serve_reachable (drain_reachable hr))).of_client? hclient
      have hrunning := Drain.running_of_client? hclient
      have hne : g ≠ client.stop := fun heq => h job client hjob heq.symm hrunning
      refine ⟨hold hframe (hclients hbrings) ?_, hkeeps (by simp), unasked_set hne _⟩
      intro i client' hclient' hstop heq
      obtain rfl := Option.some.inj heq
      obtain rfl := Option.some.inj (hjob.symm.trans hclient')
      exact hne hstop.symm
  | @provided i gen p b state hgen hprovider =>
      refine ⟨h, hkeeps (by simp), ?_⟩
      by_cases hne : g = i
      · subst hne
        intro gen' hgen'
        obtain rfl := Option.some.inj (hgen.symm.trans hgen')
        exact ⟨⟨gen.agent, gen.world.withProvider p state⟩,
          List.getElem?_set_self (List.getElem?_eq_some_iff.mp hgen).1, rfl, rfl⟩
      · exact unasked_set hne _

/-! ### For good -/

theorem Unasked.trans {w'' : World keys} (h : Unasked w w' g) (h' : Unasked w' w'' g) :
    Unasked w w'' g := by
  intro gen hgen
  obtain ⟨gen', hgen', hagent, hnext⟩ := h gen hgen
  obtain ⟨gen'', hgen'', hagent', hnext'⟩ := h' gen' hgen'
  exact ⟨gen'', hgen'', hagent'.trans hagent, hnext'.trans hnext⟩

/-- **A generation that accepts nobody any more and whose clients have ended is at rest, and
stays so**: in no later state has any of its providers been called again. -/
theorem generation_rests (h : (processMachine proto agent).Reachable w) (hclosed : Closed w g)
    (hended : ServedOut w g) (hgen : w.generations[g]? = some gen)
    (hleads : (processMachine proto agent).Leads w w') :
    ∃ gen', w'.generations[g]? = some gen' ∧ gen'.agent = gen.agent ∧
      gen'.world.next = gen.world.next ∧ gen'.AtRest := by
  have hkept : (processMachine proto agent).Reachable w' ∧ ServedOut w' g ∧ Closed w' g ∧
      Unasked w w' g := by
    refine hleads.keeps
      (I := fun w' => (processMachine proto agent).Reachable w' ∧ ServedOut w' g ∧ Closed w' g ∧
        Unasked w w' g) ?_ ⟨h, hended, hclosed, .refl w g⟩
    rintro v v' a ⟨hv, hended, hclosed, hunasked⟩ hstep
    obtain ⟨hended', hclosed', hunasked'⟩ := hended.step hclosed hv hstep
    exact ⟨hv.step hstep, hended', hclosed', hunasked.trans hunasked'⟩
  obtain ⟨hreachable, hended', -, hunasked⟩ := hkept
  obtain ⟨gen', hgen', hagent, hnext⟩ := hunasked gen hgen
  exact ⟨gen', hgen', hagent, hnext, hended'.atRest hreachable hgen'⟩

/-- The client of the old agent is answered, and its task ends. -/
def Run.left : List (Action plainKeys) :=
  .serve (.accept (.ok ())) ::
    exchange 0 (.request .identities) (Run.reload (8, "new") ++ [.resume 0]) ++ [.conn 0 .go]

/-- A client of the new agent. -/
def Run.next : List (Action plainKeys) :=
  .serve (.accept (.ok ())) :: exchange 1 (.request .identities) [.resume 1]

/-- The old generation rests while the new one is called. -/
theorem generation_rests_replaced : ∃ (w w' : World plainKeys) (gen gen' new : Generation plainKeys),
    w.generations[0]? = some gen ∧ Closed w 0 ∧ ServedOut w 0 ∧
      w'.generations[1]? = some new ∧ new.world.next = 1 ∧
        w'.generations[0]? = some gen' ∧ gen'.world.next = gen.world.next ∧ gen'.AtRest := by
  obtain ⟨w, hw, hp⟩ := Run.reachable Run.left
    (fun w => w.generations.length == 2 && (w.generations[0]?.isSome &&
      (w.drain.serve.service.jobs.tasks.all (fun task => task.result.isSome) &&
        (Machine.exec (World.step plainProto) w Run.next).any fun w' =>
          (w'.generations[1]?).any fun new => new.world.next == 1)))
    (by decide +kernel)
  obtain ⟨htwo, hp⟩ := (Bool.and_eq_true _ _).mp hp
  obtain ⟨hsome, hp⟩ := (Bool.and_eq_true _ _).mp hp
  obtain ⟨hall, hp⟩ := (Bool.and_eq_true _ _).mp hp
  obtain ⟨w', hw', hp⟩ := (Option.any_eq_true _ _).mp hp
  obtain ⟨new, hnew, hnext⟩ := (Option.any_eq_true _ _).mp hp
  obtain ⟨gen, hgen⟩ := Option.isSome_iff_exists.mp hsome
  have hclosed : Closed w 0 := Or.inl (by rw [beq_iff_eq.mp htwo]; exact Nat.one_lt_two)
  have hended : ServedOut w 0 := by
    rintro job client - - ⟨task, hmem, -, hresult⟩
    have hdone := List.all_eq_true.mp hall task hmem
    rw [hresult] at hdone
    cases hdone
  have hleads : (processMachine plainProto (Run.ofKey (7, "old"))).Leads w w' :=
    Machine.leads_of_exec Run.next hw'
  obtain ⟨gen', hgen', -, hsame, hrest⟩ := generation_rests hw hclosed hended hgen hleads
  exact ⟨w, w', gen, gen', new, hgen, hclosed, hended, hnew, beq_iff_eq.mp hnext, hgen', hsame, hrest⟩

end Keyring.Process
