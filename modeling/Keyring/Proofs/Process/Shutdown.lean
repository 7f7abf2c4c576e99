/-
A shutdown is the end of everything.

After the stop every step of the service leaves it less to do, and every step of a
generation brings one of its connections closer to its reply.  The first may start a load,
but there are only so many of them: they are the stages, and the connections of all
generations are the parties.  Nobody has to be answered for that: once the timer has fired
every client is cancelled where it waits, and a provider that cannot be left between two of
its awaits goes on to the next one.
-/
import Keyring.Proofs.Cli.Drain.Settle
import Keyring.Proofs.Process.Rest

namespace Keyring.Process

open Keyring.Service Keyring.Cli

variable {keys : SshKeys} {proto : AgentProto} {agent : ServiceAgent (Provider keys)}
  {w₀ w w' : World keys} {job g : Nat} {client : Serve.Client (Provider keys)}
  {gen : Generation keys} {a : Action keys}

/-! ### How far everybody has to go -/

/-- What the connections of a generation have ahead of them. -/
def Generation.way (gen : Generation keys) : Nat → Way :=
  gen.world.way fun p => (gen.agent.providers.get p).lawful

/-- What every connection of every generation has ahead of it. -/
def ways (w : World keys) (i : Nat × Nat) : Way :=
  (w.generations[i.1]?).bind fun gen => gen.way i.2

theorem ways_of (hgen : w.generations[g]? = some gen) (job : Nat) :
    ways w (g, job) = gen.way job := by
  rw [ways, hgen]
  rfl

/-- One generation has gone on. -/
theorem ways_set_self (hgen : w.generations[g]? = some gen) (gen' : Generation keys) (job : Nat) :
    ways ⟨w.drain, w.generations.set g gen'⟩ (g, job) = gen'.way job :=
  ways_of (List.getElem?_set_self (List.getElem?_eq_some_iff.mp hgen).1) job

theorem ways_set_of_ne {i : Nat × Nat} (hne : i.1 ≠ g) (gen' : Generation keys) :
    ways ⟨w.drain, w.generations.set g gen'⟩ i = ways w i := by
  rw [ways, ways, List.getElem?_set_ne (Ne.symm hne)]

/-- Who comes closer in a generation does so in the program. -/
theorem closer_set {gen' : Generation keys} (hgen : w.generations[g]? = some gen)
    (h : Machine.Closer (· = none) Way.rank gen.way gen'.way job) :
    Machine.Closer (· = none) Way.rank (ways w) (ways ⟨w.drain, w.generations.set g gen'⟩)
      (g, job) := by
  refine ⟨?_, ?_, ?_⟩
  · rw [ways_of hgen]
    exact h.live
  · rw [ways_of hgen, ways_set_self hgen]
    exact h.falls
  · rintro ⟨i, other⟩ hne
    by_cases hi : i = g
    · subst hi
      rw [ways_of hgen, ways_set_self hgen]
      exact h.others other fun heq => hne (by rw [heq])
    · exact ways_set_of_ne hi gen'

/-- Only clients that were accepted have a way to go. -/
theorem few_under_way (hr : (processMachine proto agent).Reachable w) :
    Machine.FewUnderWay (· = none) (ways w) := by
  refine ⟨Finset.range w.generations.length ×ˢ Finset.range w.clients.length, ?_⟩
  rintro ⟨i, other⟩ hout
  cases hgen : w.generations[i]? with
  | none => rw [ways, hgen, Option.bind_none]
  | some gen =>
      rw [ways_of hgen]
      refine (way_eq_none _).mpr ?_
      cases hconn : gen.world.conns other with
      | none => rw [Service.World.call, hconn, Option.bind_none]
      | some conn =>
          obtain ⟨client, hclient, -⟩ := (inv hr).own i gen other hgen (by rw [hconn]; rfl)
          refine absurd (Finset.mem_product.mpr ⟨?_, ?_⟩) hout
          · exact Finset.mem_range.mpr (List.getElem?_eq_some_iff.mp hgen).1
          · exact Finset.mem_range.mpr (List.getElem?_eq_some_iff.mp hclient).1

/-! ### What happens after the stop -/

/-- The clock of a provider goes on. -/
def Passes (w : World keys) : Action keys → Prop
  | .provider g turn => ∀ gen p b, w.generations[g]? = some gen → turn gen = some ⟨p, b⟩ →
      (gen.agent.providers.get p).lawful.isTurn b = false
  | _ => False

/-- Time passes for the drain and not past it, what ends was running, and a provider does
something. -/
def Timely (w : World keys) : Action keys → Prop
  | .serve b => Drain.Timely w.drain (.serve b)
  | .tick now => Drain.Timely w.drain (.tick now)
  | .provider g turn => ∀ gen p b, w.generations[g]? = some gen → turn gen = some ⟨p, b⟩ →
      (gen.agent.providers.get p).lawful.isTurn b = true
  | _ => True

/-- Clocks that go on take nobody anywhere. -/
theorem passes_leads (h : ((processMachine proto agent).restrict Passes).Leads w w') :
    w'.drain = w.drain ∧ ways w' = ways w := by
  refine h.keeps (I := fun w' => w'.drain = w.drain ∧ ways w' = ways w) ?_ ⟨rfl, rfl⟩
  rintro v v' a ⟨hdrain, hways⟩ ⟨hpasses, hstep⟩
  cases a with
  | provider g turn =>
      rcases step_parts hstep with hinside | ⟨b, hdrives, -⟩
      · cases hinside with
        | @provided _ _ gen p b state hgen hturn hprovider =>
            refine ⟨hdrain, ?_⟩
            rw [← hways]
            funext ⟨i, other⟩
            by_cases hi : i = g
            · subst hi
              rw [ways_of hgen, ways_set_self hgen]
              exact congrFun (way_passed (fun p => (gen.agent.providers.get p).lawful) hprovider
                (hpasses gen p b hgen hturn)) other
            · exact ways_set_of_ne hi _
      · cases hdrives
  | serve | startDrain | tick | conn | handled | resume | panic | cancel => exact hpasses.elim

theorem Drives.timely {b : Drain.Action (Provider keys) (Message keys) (Reply keys)}
    (h : Drives a b) (htimely : Timely w a) : Drain.Timely w.drain b := by
  cases h with
  | serve | tick => exact htimely
  | startDrain | conn | handled | panic | cancel => exact trivial

/-- A step in a generation brings one of its connections closer. -/
theorem Inside.closer (h : Inside proto w a w') (hr : (processMachine proto agent).Reachable w)
    (htimely : Timely w a) :
    ∃ i, Machine.Closer (· = none) Way.rank (ways w) (ways w') i := by
  cases h with
  | @resumed job client gen world hgen hresume =>
      have hstep : ConnStep proto (placesOf gen.agent) gen.world job (.resume job) world :=
        resume_step hresume
      exact ⟨_, closer_set hgen (hstep.closer _ (generation_owned hr hgen) rfl)⟩
  | @provided g turn gen p b state hgen hturn hprovider =>
      obtain ⟨c, hcloser⟩ := provider_closer (fun p => (gen.agent.providers.get p).lawful)
        (generation_owned hr hgen) hprovider (htimely gen p b hgen hturn)
      exact ⟨(_, c), closer_set hgen hcloser⟩

/-! ### What the program does by itself -/

/-- What takes no client, no endpoint, no handler and no build. -/
inductive Own (w : World keys) : Action keys → Prop
  | startDrain : Own w .startDrain
  | timeout : Own w (.serve .timeout)
  | joinJob (id : Nat) : Own w (.serve (.joinJob id))
  | drained : Own w (.serve .drained)
  | cancel (job : Nat) : Own w (.cancel job)
  | resume (job : Nat) : Own w (.resume job)
  /-- A load goes on, but not with an answer. -/
  | provider {g : Nat} {turn : Turn keys}
      (h : ∀ gen p b, w.generations[g]? = some gen → turn gen = some ⟨p, b⟩ →
        (gen.agent.providers.get p).lawful.isTurn b = true ∧
          (gen.agent.providers.get p).isAnswer b = false) : Own w (.provider g turn)
  /-- A panic inside a provider takes the task with it that waits there. -/
  | panic {job : Nat} {client : Serve.Client (Provider keys)} {gen : Generation keys}
      (hclient : Drain.client? w.drain.serve.service job = some client)
      (hgen : w.generations[client.stop]? = some gen)
      (hunwind : (gen.world.unwind job).isSome) : Own w (.panic job)

/-- The program has something to do by itself. -/
def World.Ready (proto : AgentProto) (w : World keys) : Prop :=
  ∃ a w', Own w a ∧ w.step proto a = some w'

def World.atTime (w : World keys) (t : Instant) : World keys := { w with drain := w.drain.atTime t }

theorem inside_of {f : (gen : Generation keys) → Option (Service.World (loadsOf gen.agent))}
    {world : Service.World (loadsOf gen.agent)} (hgen : w.generations[g]? = some gen)
    (hworld : f gen = some world) :
    w.inside g f = some ⟨w.drain, w.generations.set g ⟨gen.agent, world⟩⟩ := by
  rw [World.inside, hgen, Option.bind_some, hworld]
  rfl

/-- The connection of a task that runs has not been closed. -/
theorem JobOk.place_ne {ι : Type} {conn : Conn keys ι}
    {d : Drain.World (Provider keys) (Message keys) (Reply keys)} (h : JobOk d job conn)
    (hrunning : d.serve.service.jobs.Running job) : conn.place ≠ .closed := by
  cases h with
  | ended hended => exact absurd hrunning hended
  | live _ hwired =>
      generalize d.conns job = place at hwired
      cases hwired with
      | between _ _ _ hidle | refusing _ _ hidle | sending _ _ _ hidle =>
          rw [hidle]
          simp
      | serving _ _ hserving => cases hserving <;> simp

section

variable (hclient : Drain.client? w.drain.serve.service job = some client)
  (hgen : w.generations[client.stop]? = some gen)

include hclient hgen

/-- A session that can be left is cancelled with its task. -/
theorem ready_of_leave {world : Service.World (loadsOf gen.agent)}
    (hphase : w.drain.serve.service.phase = .cancelling)
    (hrunning : w.drain.serve.service.jobs.Running job)
    (hleave : leave gen.world job = some world) : w.Ready proto := by
  obtain ⟨drain, hdrain⟩ := Drain.exists_cancel hphase hrunning
  refine ⟨.cancel job, ⟨drain, w.generations.set client.stop ⟨gen.agent, world⟩⟩, .cancel job, ?_⟩
  rw [World.step, hclient, Option.bind_some, hdrain, Option.bind_some]
  exact inside_of (w := { w with drain }) hgen hleave

/-- A call that has returned is taken. -/
theorem ready_of_resume (hresume : (gen.world.resume proto job).isSome) : w.Ready proto := by
  obtain ⟨world, hworld⟩ := Option.isSome_iff_exists.mp hresume
  refine ⟨.resume job, ⟨w.drain, w.generations.set client.stop ⟨gen.agent, world⟩⟩, .resume job, ?_⟩
  rw [World.step, hclient, Option.bind_some]
  exact inside_of hgen hworld

/-- A call that has panicked takes the task with it. -/
theorem ready_of_unwind (hunwind : (gen.world.unwind job).isSome) : w.Ready proto := by
  obtain ⟨drain, hdrain⟩ : ∃ drain, w.drain.step (.panic job) = some drain := by
    rw [Drain.World.step, hclient]
    exact ⟨_, rfl⟩
  obtain ⟨world, hworld⟩ : ∃ world, ((leave gen.world job).orElse fun _ =>
      gen.world.unwind job) = some world := by
    cases hfirst : leave gen.world job with
    | some world => exact ⟨world, rfl⟩
    | none => exact Option.isSome_iff_exists.mp hunwind
  refine ⟨.panic job, ⟨drain, w.generations.set client.stop ⟨gen.agent, world⟩⟩,
    .panic hclient hgen hunwind, ?_⟩
  rw [World.step, hclient, Option.bind_some, hdrain, Option.bind_some]
  exact inside_of (w := { w with drain }) hgen hworld

end

/-- A load that goes on by itself. -/
theorem ready_of_turn (hgen : w.generations[g]? = some gen) {p : Fin gen.agent.providers.length}
    {b : (loadsOf gen.agent p).Action} {state : (loadsOf gen.agent p).State}
    (hturn : (gen.agent.providers.get p).lawful.isTurn b = true)
    (hanswer : (gen.agent.providers.get p).isAnswer b = false)
    (hstep : (loadsOf gen.agent p).step (gen.world.providers p) b = some state) :
    w.Ready proto := by
  classical
  -- the turn that this generation takes, and no other
  let turn : Turn keys := fun gen' => if h : gen' = gen then some (h ▸ ⟨p, b⟩) else none
  have hself : turn gen = some ⟨p, b⟩ := dif_pos rfl
  have hgoes : w.step proto (.provider g turn) =
      some ⟨w.drain, w.generations.set g ⟨gen.agent, gen.world.withProvider p state⟩⟩ := by
    rw [World.step, World.inside, hgen, Option.bind_some, hself, Option.bind_some]
    show (((loadsOf gen.agent p).step (gen.world.providers p) b).map _).map _ = _
    rw [hstep]
    rfl
  refine ⟨.provider g turn, _, .provider ?_, hgoes⟩
  intro gen' p' b' hgen' hturn'
  obtain rfl := Option.some.inj (hgen.symm.trans hgen')
  rw [hself] at hturn'
  cases Option.some.inj hturn'
  exact ⟨hturn, hanswer⟩

/-- **A cancelled client ends without any answer**, at once or after what its load has to do
before its next await. -/
theorem ready_of_cancelling (hr : (processMachine proto agent).Reachable w)
    (hphase : w.drain.serve.service.phase = .cancelling)
    (hrunning : w.drain.serve.service.jobs.Running job) : w.Ready proto := by
  obtain ⟨client, hclient⟩ := Drain.client?_of_running hrunning
  obtain ⟨gen, conn, hgen, hconn, hok⟩ := (inv hr).jobs job client
    ((Serve.clientsInv (Drain.serve_reachable (drain_reachable hr))).of_client? hclient)
  have hopen := hok.place_ne hrunning
  obtain ⟨session, place, exchanges⟩ := conn
  cases place with
  | closed => exact absurd rfl hopen
  | idle =>
      have hleave : leave gen.world job =
          some (gen.world.withConn job ⟨session, .closed, exchanges⟩) := by
        simp only [leave, hconn, Service.World.close]
      exact ready_of_leave hclient hgen hphase hrunning hleave
  | loading request given out p call rest =>
      have hcall : gen.world.call job = some (p, call) := call_of_conn hconn
      rcases waits_cases (fun p => (gen.agent.providers.get p).lawful) proto
        (generation_owned hr hgen) hcall with hstatus | hresume | hunwind
      · rcases (gen.agent.providers.get p).yields hstatus with
          ⟨state, hdrop⟩ | ⟨b, state, hturn, hanswer, hstep⟩
        · obtain ⟨world, hworld⟩ := Option.isSome_iff_exists.mp (drop_isSome hcall hdrop)
          have hleave : leave gen.world job = some world := by
            simp only [leave, hconn]
            exact hworld
          exact ready_of_leave hclient hgen hphase hrunning hleave
        · exact ready_of_turn hgen hturn hanswer hstep
      · exact ready_of_resume hclient hgen hresume
      · exact ready_of_unwind hclient hgen hunwind

/-- Until `serve` returns there is something for the program to do by itself, now or when the
drain timer fires. -/
theorem exists_ready (hr : (processMachine proto agent).Reachable w)
    (hdrains : w.drain.serve.service.phase.Drains) :
    ∃ t, w.drain.clock ≤ t ∧ (w.atTime t).Ready proto ∧
      ∀ now, w.drain.clock < now → now ≤ t → Drain.Timely w.drain (.tick now) := by
  have hnow : w.Ready proto → ∃ t, w.drain.clock ≤ t ∧ (w.atTime t).Ready proto ∧
      ∀ now, w.drain.clock < now → now ≤ t → Drain.Timely w.drain (.tick now) := fun hready =>
    ⟨w.drain.clock, Nat.le_refl _, hready, fun now hlt hle => absurd hlt (Nat.not_lt_of_le hle)⟩
  cases Drain.due hdrains with
  | @start drain h =>
      refine hnow ⟨.startDrain, { w with drain }, .startDrain, ?_⟩
      rw [World.step, h, Option.map_some]
  | @follow b drain hb h =>
      have hstep : w.step proto (.serve b) = some { w with drain } := by
        rw [World.step, h, Option.bind_some]
        rcases hb with ⟨id, rfl⟩ | rfl <;> rfl
      rcases hb with ⟨id, rfl⟩ | rfl
      · exact hnow ⟨_, _, .joinJob id, hstep⟩
      · exact hnow ⟨_, _, .drained, hstep⟩
  | cancel hphase hrunning => exact hnow (ready_of_cancelling hr hphase hrunning)
  | @timer deadline hdrain h =>
      obtain ⟨drain, hstep⟩ := h (max w.drain.clock deadline) (Nat.le_max_right _ _)
      refine ⟨max w.drain.clock deadline, Nat.le_max_left _ _,
        ⟨.serve .timeout, { w with drain }, .timeout, ?_⟩, ?_⟩
      · rw [World.step, World.atTime, hstep]
        rfl
      · intro now hlt hle
        exact ⟨hlt, deadline, hdrain, (le_max_iff.mp hle).resolve_left (Nat.not_le_of_lt hlt)⟩

/-! ### While time passes -/

/-- What a prompt program lets happen: time passes only while it has nothing to do by itself.
And what ends was running, and a provider does something. -/
def Prompt (proto : AgentProto) (w : World keys) : Action keys → Prop
  | .serve b => Serve.Happens w.drain.serve b
  | .tick now => Drain.Passing (fun t => (w.atTime t).Ready proto) w.drain.clock now
  | .provider g turn => ∀ gen p b, w.generations[g]? = some gen → turn gen = some ⟨p, b⟩ →
      (gen.agent.providers.get p).lawful.isTurn b = true
  | _ => True

/-- What goes on: the program and its clock do, and of everything else what `may`. -/
def Goes (proto : AgentProto) (may : World keys → Action keys → Prop) (w : World keys)
    (a : Action keys) : Prop :=
  Prompt proto w a ∧ (Own w a ∨ (∃ now, a = .tick now) ∨ may w a)

/-- These runs, in which the clocks of providers may go on before every step. -/
def settleMachine (proto : AgentProto) (agent : ServiceAgent (Provider keys))
    (may : World keys → Action keys → Prop) : Machine (World keys) (Action keys) where
  init _ := True
  step w a w' := ∃ w₁, ((processMachine proto agent).restrict Passes).Leads w w₁ ∧
    Goes proto may w₁ a ∧ w₁.step proto a = some w'

theorem Own.prompt (h : Own w a) : Prompt proto w a := by
  cases h with
  | provider h => exact fun gen p b hgen hturn => (h gen p b hgen hturn).1
  | startDrain | timeout | joinJob | drained | cancel | resume | panic => exact trivial

/-- A prompt program is in time. -/
theorem Prompt.timely (h : Prompt proto w a) (hr : (processMachine proto agent).Reachable w)
    (hdrains : w.drain.serve.service.phase.Drains) : Timely w a := by
  cases a with
  | tick now =>
      obtain ⟨t, hle, hready, htimely⟩ := exists_ready hr hdrains
      exact htimely now h.later (h.le hle hready)
  | serve b => exact h
  | provider g turn => exact h
  | startDrain | conn | handled | resume | panic | cancel => exact trivial

/-- Until `serve` returns the program goes on, even if nothing else may happen. -/
theorem exists_goes (may : World keys → Action keys → Prop)
    (hr : (processMachine proto agent).Reachable w)
    (hdrains : w.drain.serve.service.phase.Drains) :
    ∃ a w', Goes proto may w a ∧ w.step proto a = some w' := by
  obtain ⟨t, hle, hready, -⟩ := exists_ready hr hdrains
  rcases @Drain.exists_passing (fun t => (w.atTime t).Ready proto) w.drain.clock t hle hready with
    ⟨a, w', hown, hstep⟩ | ⟨now, hpassing⟩
  · exact ⟨a, w', ⟨hown.prompt, Or.inl hown⟩, hstep⟩
  · refine ⟨.tick now, w.atTime now, ⟨hpassing, Or.inr (Or.inl ⟨now, rfl⟩)⟩, ?_⟩
    have htick : w.drain.step (.tick now) = some (w.drain.atTime now) :=
      if_pos (Nat.le_of_lt hpassing.later)
    rw [World.step, htick]
    rfl

/-! ### Until everything has ended -/

/-- `serve` has returned in success and in time, no client runs, and every generation rests. -/
structure Ended (w₀ w : World keys) : Prop where
  returned : w.drain.serve.service.phase = .returned (.ok ())
  inTime : w.drain.clock ≤ max w₀.drain.clock w₀.drain.drainEnd
  served : ∀ job, ¬w.drain.serve.service.jobs.Running job
  rests : ∀ gen ∈ w.generations, gen.AtRest

/-- Where the program stands on the way from `w₀` to its end. -/
structure Settling (proto : AgentProto) (agent : ServiceAgent (Provider keys))
    (w₀ w : World keys) : Prop where
  reachable : (processMachine proto agent).Reachable w
  service : Drain.Settling agent w₀.drain w.drain

theorem Settling.ended (h : Settling proto agent w₀ w)
    (hphase : w.drain.serve.service.phase = .returned (.ok ()))
    (hnone : w.drain.serve.service.jobs.tasks = []) : Ended w₀ w := by
  have hserved : ∀ job, ¬w.drain.serve.service.jobs.Running job := by
    rintro job ⟨task, hmem, -⟩
    rw [hnone] at hmem
    cases hmem
  refine ⟨hphase, h.service.clock, hserved, fun gen hgen => ?_⟩
  obtain ⟨g, hg⟩ := List.getElem?_of_mem hgen
  exact ServedOut.atRest (fun job _ _ _ => hserved job) h.reachable hg

/-- Until everything has ended, something can happen. -/
theorem Settling.goes_on (h : Settling proto agent w₀ w) (may : World keys → Action keys → Prop) :
    Ended w₀ w ∨ ∃ a w', (settleMachine proto agent may).step w a w' := by
  cases (Drain.stopping h.service.reachable h.service.sent).closed with
  | returned hphase hnone => exact Or.inl (h.ended hphase hnone)
  | drains hdrains =>
      obtain ⟨a, w', hgoes, hstep⟩ := exists_goes may h.reachable hdrains
      exact Or.inr ⟨a, w', w, Machine.Leads.refl w, hgoes, hstep⟩

/-- A step leads the service on, or brings a connection closer. -/
theorem Settling.step {may : World keys → Action keys → Prop} (h : Settling proto agent w₀ w)
    (hnot : ¬Ended w₀ w) (hstep : (settleMachine proto agent may).step w a w') :
    Settling proto agent w₀ w' ∧ (w'.drain.rank < w.drain.rank ∨ w'.drain.rank = w.drain.rank ∧
      ∃ i, Machine.Closer (· = none) Way.rank (ways w) (ways w') i) := by
  obtain ⟨w₁, hpasses, ⟨hprompt, -⟩, hstep⟩ := hstep
  obtain ⟨hdrain, hways⟩ := passes_leads hpasses
  have hr₁ := h.reachable.leads hpasses.of_restrict
  have hservice : Drain.Settling agent w₀.drain w₁.drain := hdrain ▸ h.service
  have hstopping := Drain.stopping hservice.reachable hservice.sent
  have hdrains : w₁.drain.serve.service.phase.Drains := by
    cases hstopping.closed with
    | drains hdrains => exact hdrains
    | returned hphase hnone =>
        rw [hdrain] at hphase hnone
        exact absurd (h.ended hphase hnone) hnot
  have htimely := hprompt.timely hr₁ hdrains
  rw [← hdrain, ← hways]
  rcases step_parts hstep with hinside | ⟨b, hdrives, hb⟩
  · refine ⟨⟨hr₁.step hstep, ?_⟩, Or.inr ⟨?_, hinside.closer hr₁ htimely⟩⟩
    · rw [hinside.drain]
      exact hservice
    · rw [hinside.drain]
  · have htimely' := hdrives.timely htimely
    exact ⟨⟨hr₁.step hstep, hservice.step htimely' hb⟩,
      Or.inl ((Drain.step_cases hb).rank_lt hstopping htimely')⟩

/-- **A shutdown is the end of everything**, whatever `may` happen besides: where no client and
no endpoint ever answers again, and where they, panics and builds do as they like, `serve` of a
prompt program returns in success before the drain is over, and then no client runs, every call
on every provider of every generation has ended, and every lock is free. -/
theorem process_settles (may : World keys → Action keys → Prop)
    (h : (processMachine proto agent).Reachable w) (hsent : .stopSent ∈ w.drain.log) :
    (settleMachine proto agent may).Inevitable (Ended w) w :=
  Machine.inevitable_of_stages (I := Settling proto agent w) (fun w => w.drain.rank) ways
    (· = none) Way.rank (fun _ hv => hv.goes_on may) (fun _ hv => few_under_way hv.reachable)
    (fun _ _ _ hv hnot hstep => hv.step hnot hstep) w
    ⟨h, drain_reachable h, hsent, rfl, Nat.le_max_left _ _⟩

namespace Run

/-- An agent with a Bitwarden provider. -/
def vault : ServiceAgent (Provider plainKeys) :=
  ⟨[.bitwarden ⟨"vault", "api", "identity", "id", "secret", "master"⟩ Bitwarden.plainEnv], by simp⟩

/-- A client of a replaced agent is in `load` when the stop is sent. -/
def stopped : List (Action plainKeys) :=
  [.serve (.accept (.ok ())), .conn 0 .go, .conn 0 .go,
    .conn 0 (.frame (.ok (some (.request .identities))))] ++
    reload (8, "new") ++ [.tick 5, .serve (.signal .shutdown)]

/-- A connection waits for a call that is running. -/
def isLoading (gen : Generation plainKeys) (job : Nat) : Bool :=
  (gen.world.call job).any fun waits =>
    match (loadsOf gen.agent waits.1).status (gen.world.providers waits.1) waits.2 with
    | .running => true
    | _ => false

end Run

/-- No endpoint ever answers the load, and no client does anything: the program gets to its
end by itself. -/
theorem process_settles_loading : ∃ (w : World plainKeys) (gen : Generation plainKeys),
    w.generations.length = 2 ∧ w.generations[0]? = some gen ∧ Run.isLoading gen 0 = true ∧
      .stopSent ∈ w.drain.log ∧ Drain.isReturned w.drain.serve.service.phase = false ∧
        (settleMachine plainProto Run.vault fun _ _ => False).Inevitable (Ended w) w := by
  obtain ⟨w, hw, hp⟩ := @Machine.reachable_of_exec_any _ _
    (fun w => ∃ clock, w = World.start Run.vault clock) (World.step plainProto)
    (.start Run.vault 0) ⟨0, rfl⟩ Run.stopped
    (fun w => w.generations.length == 2 && (w.drain.log.any Drain.Event.isStopSent &&
      !Drain.isReturned w.drain.serve.service.phase) &&
      (w.generations[0]?).any fun gen => Run.isLoading gen 0)
    (by decide +kernel)
  obtain ⟨hp, hloading⟩ := (Bool.and_eq_true _ _).mp hp
  obtain ⟨htwo, hp⟩ := (Bool.and_eq_true _ _).mp hp
  obtain ⟨hstop, hreturned⟩ := (Bool.and_eq_true _ _).mp hp
  obtain ⟨gen, hgen, hcall⟩ := (Option.any_eq_true _ _).mp hloading
  have hsent := Drain.stopSent_mem hstop
  exact ⟨w, gen, beq_iff_eq.mp htwo, hgen, hcall, hsent, by simpa using hreturned,
    process_settles (fun _ _ => False) hw hsent⟩

end Keyring.Process
