/-
No request is cancelled before its own deadline.

The requests that were decoded before the stop have deadlines at most one request timeout
after the stop, whatever generation their session is of.  The drain timer starts no earlier
than that and is set for as long, so that where it fires every such deadline is over; and
no client is cancelled before it fires.
-/
import Keyring.Cli.Drain
import Keyring.Proofs.Cli.Handle.Exchanges
import Keyring.Proofs.Cli.Serve.Shutdown

namespace Keyring.Cli.Drain

open Keyring.Service
open Keyring.Cli

variable {Provider Req Body : Type*} {agent : ServiceAgent Provider}
  {w w' : World Provider Req Body} {a : Action Provider Req Body}

/-! ### What one step can do -/

/-- What a client writes down. -/
inductive Says (w : World Provider Req Body) : Event Req Body → Prop
  | conn (job : Nat) (e : Handle.Event Req Body)
      (h : ∀ req deadline, e = .decoded req deadline →
        deadline = w.clock + Handle.requestTimeout) : Says w (.conn job e)
  | panicked (job : Nat) : Says w (.panicked job)
  | cancelled (job : Nat) (hphase : isCancelled w.serve.service.phase = true)
      (hrunning : w.serve.service.jobs.Running job) : Says w (.cancelled job w.clock)

/-- What a step does to the service, the clock and the drain timer, and what is written
down. -/
inductive Change (w : World Provider Req Body) : World Provider Req Body → Prop
  | turn {a : Serve.Action Provider} {serve : Serve.World Provider} (hallows : w.allows a = true)
      (hstep : w.serve.step a = some serve) :
      Change w { w with serve, log := w.log ++ World.sends a }
  | startDrain (hphase : w.serve.service.phase = .draining) (hnone : w.drain = none) :
      Change w { w with drain := some (w.clock + shutdownTimeout) }
  | client {serve : Serve.World Provider} (conns : Nat → Handle.Place Req Body)
      {new : List (Event Req Body)}
      (hserve : serve = w.serve ∨ ∃ job result, w.serve.step (.jobEnds job result) = some serve)
      (hnew : ∀ e ∈ new, Says w e) :
      Change w { w with serve, conns, log := w.log ++ new }
  | tick {now : Instant} (hle : w.clock ≤ now) : Change w { w with clock := now }

theorem running_of_client? {s : Serve.Service Provider} {job : Nat}
    {client : Serve.Client Provider} (h : client? s job = some client) : s.jobs.Running job := by
  obtain ⟨task, hfind, -⟩ := Option.map_eq_some_iff.mp h
  have htest := List.find?_some hfind
  rw [Bool.and_eq_true, beq_iff_eq, Option.isNone_iff_eq_none] at htest
  exact ⟨task, List.mem_of_find?_eq_some hfind, htest⟩

/-- The deadline of a request is set when the request is decoded. -/
theorem says_of_move {stop : Handle.Watch} {place place' : Handle.Place Req Body}
    {events : List (Handle.Event Req Body)} (h : Handle.Move stop w.clock place place' events)
    (job : Nat) : ∀ e ∈ events.map (Event.conn job), Says w e := by
  intro e he
  obtain ⟨e', he', rfl⟩ := List.mem_map.mp he
  refine .conn job e' ?_
  rintro req deadline rfl
  cases h with
  | decoded req' =>
      obtain ⟨-, rfl⟩ := Handle.Event.decoded.inj (List.mem_singleton.mp he')
      rfl
  | enter => cases he'
  | _ => cases List.mem_singleton.mp he'

theorem ends_eq_some {job : Nat} {result : Except Serve.JoinError Unit}
    (h : w.ends job result = some w') :
    ∃ serve, w.serve.step (.jobEnds job result) = some serve ∧ w' = { w with serve } := by
  obtain ⟨serve, hserve, hw⟩ := Option.map_eq_some_iff.mp h
  exact ⟨serve, hserve, hw.symm⟩

/-- **Every step is a change.** -/
theorem step_change (h : w.step a = some w') : Change w w' := by
  cases a with
  | serve a =>
      obtain ⟨hallows, hmap⟩ := Option.ite_none_right_eq_some.mp h
      obtain ⟨serve, hstep, rfl⟩ := Option.map_eq_some_iff.mp hmap
      exact .turn hallows hstep
  | startDrain =>
      simp only [World.step] at h
      split at h
      · rename_i hphase hnone
        obtain rfl := Option.some.inj h
        exact .startDrain hphase hnone
      · cases h
  | conn job input =>
      obtain ⟨client, -, hrest⟩ := Option.bind_eq_some_iff.mp h
      obtain ⟨⟨place, events⟩, hadvance, hend⟩ := Option.bind_eq_some_iff.mp hrest
      have hsays := says_of_move (.of_advance hadvance) job
      simp only at hend
      split at hend
      · obtain ⟨serve, hserve, rfl⟩ := ends_eq_some hend
        exact .client _ (Or.inr ⟨_, _, hserve⟩) hsays
      · obtain rfl := Option.some.inj hend
        exact .client _ (Or.inl rfl) hsays
  | panic job =>
      obtain ⟨client, -, hend⟩ := Option.bind_eq_some_iff.mp h
      obtain ⟨serve, hserve, rfl⟩ := ends_eq_some hend
      refine .client w.conns (Or.inr ⟨_, _, hserve⟩) fun e he => ?_
      rw [List.mem_singleton.mp he]
      exact .panicked job
  | cancel job =>
      obtain ⟨client, hclient, hend⟩ := Option.bind_eq_some_iff.mp h
      obtain ⟨hphase, hend⟩ := Option.ite_none_right_eq_some.mp hend
      obtain ⟨serve, hserve, rfl⟩ := ends_eq_some hend
      refine .client w.conns (Or.inr ⟨_, _, hserve⟩) fun e he => ?_
      rw [List.mem_singleton.mp he]
      exact .cancelled job hphase (running_of_client? hclient)
  | tick now =>
      obtain ⟨hle, hw⟩ := Option.ite_none_right_eq_some.mp h
      obtain rfl := Option.some.inj hw
      exact .tick hle

/-- What the service does here it does there. -/
theorem Change.serve (h : Change w w') :
    w'.serve = w.serve ∨ ∃ a, w.serve.step a = some w'.serve := by
  cases h with
  | turn hallows hstep => exact Or.inr ⟨_, hstep⟩
  | startDrain | tick => exact Or.inl rfl
  | client conns hserve hnew =>
      rcases hserve with hsame | ⟨job, result, hstep⟩
      · exact Or.inl hsame
      · exact Or.inr ⟨_, hstep⟩

/-- **The service runs as it does without its clients' connections.** -/
theorem serve_reachable (h : (drainMachine Req Body agent).Reachable w) :
    (Serve.serveMachine agent).Reachable w.serve := by
  refine h.invariant (I := fun w => (Serve.serveMachine agent).Reachable w.serve) ?_ ?_
  · rintro w ⟨clock, rfl⟩
    exact .init rfl
  · intro w w' a _ hI hstep
    rcases (step_change hstep).serve with hsame | ⟨b, hb⟩
    · rwa [hsame]
    · exact hI.step hb

/-! ### The drain timer -/

/-- When the drain is over, if its timer runs or were to start now. -/
def World.drainEnd (w : World Provider Req Body) : Instant :=
  w.drain.getD (w.clock + shutdownTimeout)

/-- The drain timer runs only after the loop, and it does not go back. -/
theorem Change.drainEnd_le (h : Change w w') : w.drainEnd ≤ w'.drainEnd := by
  unfold World.drainEnd
  cases h with
  | turn | client => exact Nat.le_refl _
  | startDrain hphase hnone => rw [hnone, Option.getD_none, Option.getD_some]
  | tick hle =>
      cases w.drain with
      | none =>
          rw [Option.getD_none, Option.getD_none]
          exact Nat.add_le_add_right hle _
      | some deadline => rw [Option.getD_some, Option.getD_some]

/-! ### What the service has to do with it -/

theorem mem_sends {b : Serve.Action Provider} {e : Event Req Body} (h : e ∈ World.sends b) :
    e = .stopSent ∧ b = .signal .shutdown := by
  unfold World.sends at h
  split at h
  · exact ⟨List.mem_singleton.mp h, rfl⟩
  · cases h

/-- The stop is sent where the loop ends. -/
theorem step_shutdown {x x' : Serve.World Provider}
    (h : x.step (.signal .shutdown) = some x') :
    x.service.phase = .running ∧ .shutdown ∈ x'.log := by
  obtain ⟨s, events, harm, rfl⟩ := Serve.step_arm h
  cases harm with
  | signal event hrun => exact ⟨hrun, List.mem_append_right _ (List.mem_singleton_self _)⟩

theorem step_running {x x' : Serve.World Provider} {b : Serve.Action Provider}
    (h : x.step b = some x') (hrun : x'.service.phase = .running) :
    x.service.phase = .running := by
  obtain ⟨s, events, hturn, rfl⟩ := Serve.step_turn h
  exact hturn.running hrun

theorem step_log {x x' : Serve.World Provider} {b : Serve.Action Provider}
    (h : x.step b = some x') {e : Serve.Event Provider} (he : e ∈ x.log) : e ∈ x'.log := by
  obtain ⟨s, events, -, rfl⟩ := Serve.step_turn h
  exact List.mem_append_left _ he

/-- The end of a client is nothing to the loop. -/
theorem client_frame {x x' : Serve.World Provider}
    (h : x' = x ∨ ∃ job result, x.step (.jobEnds job result) = some x') :
    x'.service.phase = x.service.phase ∧ x'.log = x.log := by
  rcases h with rfl | ⟨job, result, hstep⟩
  · exact ⟨rfl, rfl⟩
  · obtain rfl := Option.some.inj hstep
    exact ⟨rfl, List.append_nil _⟩

/-! ### In every state of a run -/

/-- How the deadlines of the requests, the drain timer and the stop stand to each other. -/
structure DrainInv (w : World Provider Req Body) : Prop where
  sent : .stopSent ∈ w.log → .shutdown ∈ w.serve.log
  running : w.serve.service.phase = .running →
    w.drain = none ∧ ∀ job t, .cancelled job t ∉ w.log
  decoded : ∀ job req deadline, .conn job (.decoded req deadline) ∈ w.log →
    deadline ≤ w.clock + Handle.requestTimeout
  before : ∀ pre post, w.log = pre ++ .stopSent :: post → ∀ job req deadline,
    .conn job (.decoded req deadline) ∈ pre → deadline ≤ w.drainEnd
  fired : w.serve.service.phase = .cancelling →
    ∃ deadline, w.drain = some deadline ∧ deadline ≤ w.clock
  cancelled : .stopSent ∈ w.log → ∀ job t, .cancelled job t ∈ w.log →
    ∃ deadline, w.drain = some deadline ∧ deadline ≤ t

theorem DrainInv.start (clock : Instant) :
    DrainInv (World.start agent clock : World Provider Req Body) where
  sent := fun h => absurd h List.not_mem_nil
  running := fun _ => ⟨rfl, fun _ _ => List.not_mem_nil⟩
  decoded := fun _ _ _ h => absurd h List.not_mem_nil
  before := fun pre post hl => absurd hl (by simp [World.start])
  fired := fun h => by cases h
  cancelled := fun h => absurd h List.not_mem_nil

/-- A turn of the service: the stop is sent, or nothing is written down. -/
theorem DrainInv.turn (h : DrainInv w) {b : Serve.Action Provider} {serve : Serve.World Provider}
    (hallows : w.allows b = true) (hstep : w.serve.step b = some serve) :
    DrainInv { w with serve, log := w.log ++ World.sends b } := by
  have hold : ∀ {e}, e ∈ w.log ++ World.sends b → e ≠ .stopSent → e ∈ w.log := by
    intro e he hne
    rcases List.mem_append.mp he with hmem | hnew
    · exact hmem
    · exact absurd (mem_sends hnew).1 hne
  refine ⟨?_, ?_, ?_, ?_, ?_, ?_⟩
  · intro hmem
    rcases List.mem_append.mp hmem with hmem | hnew
    · exact step_log hstep (h.sent hmem)
    · obtain ⟨-, rfl⟩ := mem_sends hnew
      exact (step_shutdown hstep).2
  · intro hrun
    obtain ⟨hdrain, hnone⟩ := h.running (step_running hstep hrun)
    exact ⟨hdrain, fun job t hmem => hnone job t (hold hmem (by simp))⟩
  · intro job req deadline hmem
    exact h.decoded job req deadline (hold hmem (by simp))
  · intro pre post hl job req deadline hmem
    rcases History.append_split hl with ⟨mid, hmid, -⟩ | ⟨mid, hpre, hsends⟩
    · exact h.before pre mid hmid job req deadline hmem
    · -- The stop is sent now, and the drain timer has not started.
      obtain ⟨-, rfl⟩ := mem_sends (show Event.stopSent ∈ World.sends b by rw [hsends]; simp)
      obtain ⟨hdrain, -⟩ := h.running (step_shutdown hstep).1
      have hlog : Event.conn job (.decoded req deadline) ∈ w.log ++ World.sends (.signal .shutdown) :=
        hl ▸ List.mem_append_left _ hmem
      show deadline ≤ w.drainEnd
      rw [World.drainEnd, hdrain]
      exact h.decoded job req deadline (hold hlog (by simp))
  · intro hphase
    rcases Serve.step_cancelling hstep hphase with hwas | rfl
    · exact h.fired hwas
    · obtain ⟨deadline, hdrain, hle⟩ := (Option.any_eq_true _ _).mp hallows
      exact ⟨deadline, hdrain, of_decide_eq_true hle⟩
  · intro hmem job t hcancelled
    have hwas := hold hcancelled (by simp)
    rcases List.mem_append.mp hmem with hmem | hnew
    · exact h.cancelled hmem job t hwas
    · obtain ⟨-, rfl⟩ := mem_sends hnew
      exact absurd hwas ((h.running (step_shutdown hstep).1).2 job t)

/-- The drain timer starts. -/
theorem DrainInv.startDrain (h : DrainInv w) (hphase : w.serve.service.phase = .draining)
    (hnone : w.drain = none) :
    DrainInv { w with drain := some (w.clock + shutdownTimeout) } := by
  refine ⟨h.sent, ?_, h.decoded, ?_, ?_, ?_⟩
  · intro hrun
    exact absurd (hphase.symm.trans hrun) (by simp)
  · intro pre post hl job req deadline hmem
    have hle := h.before pre post hl job req deadline hmem
    rw [World.drainEnd, hnone] at hle
    exact hle
  · intro hcancelling
    exact absurd (hphase.symm.trans hcancelling) (by simp)
  · intro hmem job t hcancelled
    obtain ⟨deadline, hdrain, -⟩ := h.cancelled hmem job t hcancelled
    exact absurd (hnone.symm.trans hdrain) (by simp)

/-- After a shutdown, who is cancelled is cancelled by the drain: once `serve` has returned
nobody is left for it. -/
theorem cancelling_of_cancelled {x : Serve.World Provider} {job : Nat}
    (hr : (Serve.serveMachine agent).Reachable x) (hshutdown : .shutdown ∈ x.log)
    (hcancelled : isCancelled x.service.phase = true) (hrunning : x.service.jobs.Running job) :
    x.service.phase = .cancelling := by
  cases (Serve.shutdownInv hr).closed hshutdown with
  | drains hdrains =>
      cases hp : x.service.phase with
      | cancelling => rfl
      | running | draining =>
          rw [hp] at hcancelled
          cases hcancelled
      | returned result =>
          rw [hp] at hdrains
          cases hdrains
  | returned hreturned hnone =>
      obtain ⟨task, htask, -⟩ := hrunning
      rw [hnone] at htask
      cases htask

/-- A client takes a step, ends, or is cancelled. -/
theorem DrainInv.client (h : DrainInv w) (hr : (Serve.serveMachine agent).Reachable w.serve)
    {serve : Serve.World Provider} {new : List (Event Req Body)}
    (conns : Nat → Handle.Place Req Body)
    (hserve : serve = w.serve ∨ ∃ job result, w.serve.step (.jobEnds job result) = some serve)
    (hnew : ∀ e ∈ new, Says w e) :
    DrainInv { w with serve, conns, log := w.log ++ new } := by
  obtain ⟨hphase, hlog⟩ := client_frame hserve
  have hstop : Event.stopSent ∉ new := by
    intro hmem
    cases hnew _ hmem
  have hsent : Event.stopSent ∈ w.log ++ new → Event.stopSent ∈ w.log := fun hmem =>
    (List.mem_append.mp hmem).resolve_right hstop
  have hcancels : ∀ {job t}, .cancelled job t ∈ new → t = w.clock ∧
      isCancelled w.serve.service.phase = true ∧ w.serve.service.jobs.Running job := by
    intro job t hmem
    cases hnew _ hmem with
    | cancelled _ hcancelled hrunning => exact ⟨rfl, hcancelled, hrunning⟩
  refine ⟨?_, ?_, ?_, ?_, ?_, ?_⟩
  · intro hmem
    show Serve.Event.shutdown ∈ serve.log
    rw [hlog]
    exact h.sent (hsent hmem)
  · intro hrun
    have hwas : w.serve.service.phase = .running := hphase.symm.trans hrun
    refine ⟨(h.running hwas).1, fun job t hmem => ?_⟩
    rcases List.mem_append.mp hmem with hold | hmem
    · exact (h.running hwas).2 job t hold
    · have hcancelled := (hcancels hmem).2.1
      rw [hwas] at hcancelled
      cases hcancelled
  · intro job req deadline hmem
    rcases List.mem_append.mp hmem with hold | hmem
    · exact h.decoded job req deadline hold
    · cases hnew _ hmem with
      | conn _ _ hdecoded => exact Nat.le_of_eq (hdecoded req deadline rfl)
  · intro pre post hl job req deadline hmem
    rcases History.append_split hl with ⟨mid, hmid, -⟩ | ⟨mid, -, hmid⟩
    · exact h.before pre mid hmid job req deadline hmem
    · exact absurd (by rw [hmid]; simp) hstop
  · intro hcancelling
    exact h.fired (hphase.symm.trans hcancelling)
  · intro hmem job t hcancelled
    rcases List.mem_append.mp hcancelled with hold | hnow
    · exact h.cancelled (hsent hmem) job t hold
    · obtain ⟨rfl, hcancelled, hrunning⟩ := hcancels hnow
      exact h.fired (cancelling_of_cancelled hr (h.sent (hsent hmem)) hcancelled hrunning)

theorem DrainInv.tick (h : DrainInv w) {now : Instant} (hle : w.clock ≤ now) :
    DrainInv { w with clock := now } := by
  refine ⟨h.sent, h.running, ?_, ?_, ?_, h.cancelled⟩
  · intro job req deadline hmem
    exact (h.decoded job req deadline hmem).trans (Nat.add_le_add_right hle _)
  · intro pre post hl job req deadline hmem
    exact (h.before pre post hl job req deadline hmem).trans (Change.tick hle).drainEnd_le
  · intro hphase
    obtain ⟨deadline, hdrain, hover⟩ := h.fired hphase
    exact ⟨deadline, hdrain, hover.trans hle⟩

theorem drainInv (h : (drainMachine Req Body agent).Reachable w) : DrainInv w := by
  refine h.invariant ?_ ?_
  · rintro w ⟨clock, rfl⟩
    exact .start clock
  · intro w w' a hr hI hstep
    cases step_change hstep with
    | turn hallows hturn => exact hI.turn hallows hturn
    | startDrain hphase hnone => exact hI.startDrain hphase hnone
    | client conns hserve hnew => exact hI.client (serve_reachable hr) conns hserve hnew
    | tick hle => exact hI.tick hle

/-! ### What a shutdown promises -/

/-- What holds of the service and its clients once the stop has been sent. -/
structure Drained (agent : ServiceAgent Provider) (w : World Provider Req Body) : Prop where
  service : Serve.ShutDown agent w.serve
  /-- Whoever decoded a request before the stop, nobody is cancelled before its deadline. -/
  deadline : ∀ pre post, w.log = pre ++ .stopSent :: post → ∀ job req deadline,
    .conn job (.decoded req deadline) ∈ pre → ∀ job' t, .cancelled job' t ∈ w.log → deadline ≤ t

/-- **A shutdown closes the door, waits for the clients, and ends in success**; and it leaves
every request that was decoded before it its time. -/
theorem serve_drained (h : (drainMachine Req Body agent).Reachable w)
    (hsent : .stopSent ∈ w.log) : Drained agent w where
  service := Serve.serve_shutDown (serve_reachable h) ((drainInv h).sent hsent)
  deadline := by
    intro pre post hl job req deadline hmem job' t hcancelled
    have hI := drainInv h
    obtain ⟨limit, hdrain, hover⟩ := hI.cancelled hsent job' t hcancelled
    have hle := hI.before pre post hl job req deadline hmem
    rw [World.drainEnd, hdrain] at hle
    exact hle.trans hover

/-! ### A run -/

def Event.isStopSent : Event Req Body → Bool
  | .stopSent => true
  | _ => false

def Event.isCancelled : Event Req Body → Bool
  | .cancelled _ _ => true
  | _ => false

/-- A client in the middle of a request is replaced by a reload, and outlasts the drain. -/
def stuckRun : List (Action Nat Unit Unit) :=
  [.serve (.accept (.ok ())), .conn 0 .go, .conn 0 .go, .conn 0 (.frame (.ok (some ())))] ++
    (Serve.Run.reload 0 2).map .serve ++
    [.tick 5, .serve (.signal .shutdown), .tick 7, .startDrain, .tick (7 + shutdownTimeout),
      .serve .timeout, .cancel 0, .serve (.joinJob 0), .serve .drained]

theorem serve_drained_stuck : ∃ w : World Nat Unit Unit,
    .stopSent ∈ w.log ∧ (∃ e ∈ w.log, e.isCancelled = true) ∧ Drained (Serve.Run.agent 1) w := by
  obtain ⟨w, hw, hp⟩ := @Machine.reachable_of_exec_any _ _
    (fun w => ∃ clock, w = World.start (Serve.Run.agent 1) clock) World.step
    (World.start (Serve.Run.agent 1) 0) ⟨0, rfl⟩ stuckRun
    (fun w => w.log.any Event.isStopSent && w.log.any Event.isCancelled) (by decide)
  rw [Bool.and_eq_true, List.any_eq_true, List.any_eq_true] at hp
  obtain ⟨⟨e, he, hstop⟩, hcancelled⟩ := hp
  have hsent : .stopSent ∈ w.log := by
    cases e with
    | stopSent => exact he
    | conn | panicked | cancelled => cases hstop
  exact ⟨w, hsent, hcancelled, serve_drained hw hsent⟩

end Keyring.Cli.Drain
