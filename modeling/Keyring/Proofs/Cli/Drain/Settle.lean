/-
A shutdown comes to an end, and in time.

Once the stop has been sent a connection has at most one more request ahead of it, as it looks
for the stop before it reads the next one.  So every step of a client brings it closer to its
end.  But no client has to take one: the service has its timer, cancels the clients when that
has fired, and joins them.  It is enough that the service is prompt, so that time passes only
while it has nothing to do by itself.
-/
import Keyring.Lib.Parties
import Keyring.Proofs.Cli.Drain.Deadlines
import Mathlib.Data.Nat.Find

namespace Keyring.Cli

variable {Provider Req Body : Type*}

/-! ### Connections after the stop -/

/-- What a connection has ahead of it once the stop has been sent. -/
def Handle.Place.rank : Handle.Place Req Body → Nat
  | .closed _ => 0
  | .top | .select => 1
  | .sending _ _ => 2
  | .handling _ _ => 3
  | .wire => 4

theorem Handle.Move.rank_lt {stop : Handle.Watch} {now : Instant}
    {place place' : Handle.Place Req Body} {events : List (Handle.Event Req Body)}
    (h : Handle.Move stop now place place' events) (hstop : stop.value = true) :
    place'.rank < place.rank := by
  cases h with
  | enter hvalue =>
      rw [hstop] at hvalue
      cases hvalue
  | polled hchanged =>
      rw [Handle.Watch.changed, hstop] at hchanged
      cases hchanged
  | stopped hplace _ => cases hplace <;> exact Nat.one_pos
  | timedOut hdeadline _ =>
      cases place <;> first | cases hdeadline; done | exact Nat.succ_pos _
  | pending | decoded | disconnected | undecodable | handled | sent | unsent =>
      simp [Handle.Place.rank]

namespace Drain

open Keyring.Service

variable {agent : ServiceAgent Provider} {w₀ w w' : World Provider Req Body}
  {a : Action Provider Req Body} {job : Nat}

/-! ### What one step can do -/

/-- Where a connection that has ended, or panicked, or been cancelled leaves the service. -/
def World.ended (w : World Provider Req Body) (job : Nat) (result : Except Serve.JoinError Unit)
    (conns : Nat → Handle.Place Req Body) (log : List (Event Req Body)) :
    World Provider Req Body :=
  { w with
    serve := w.serve.moved
      { w.serve.service with jobs := w.serve.service.jobs.finish job result } []
    conns, log }

/-- What a step does, and what it leaves of the connections. -/
inductive Step (w : World Provider Req Body) :
    Action Provider Req Body → World Provider Req Body → Prop
  | turn {b : Serve.Action Provider} {serve : Serve.World Provider} (hallows : w.allows b = true)
      (hstep : w.serve.step b = some serve) :
      Step w (.serve b) { w with serve, log := w.log ++ World.sends b }
  | startDrain (hphase : w.serve.service.phase = .draining) (hnone : w.drain = none) :
      Step w .startDrain { w with drain := some (w.clock + shutdownTimeout) }
  | moved {job : Nat} {input : Handle.Input Req Body} {client : Serve.Client Provider}
      {place : Handle.Place Req Body} {events : List (Handle.Event Req Body)}
      (hclient : client? w.serve.service job = some client)
      (hmove : Handle.Move (watch w.serve.service client.stop) w.clock (w.conns job) place events)
      (hopen : 0 < place.rank) : Step w (.conn job input) (w.moved job place events)
  | ended {a : Action Provider Req Body} {job : Nat} {result : Except Serve.JoinError Unit}
      {conns : Nat → Handle.Place Req Body} {log : List (Event Req Body)}
      (hrunning : w.serve.service.jobs.Running job) (hothers : ∀ i, i ≠ job → conns i = w.conns i)
      (hrank : (conns job).rank ≤ (w.conns job).rank) (htick : ∀ now, a ≠ .tick now) :
      Step w a (w.ended job result conns log)
  | tick {now : Instant} (hle : w.clock ≤ now) : Step w (.tick now) { w with clock := now }

theorem ends_ended {w : World Provider Req Body} {result : Except Serve.JoinError Unit}
    {conns : Nat → Handle.Place Req Body} {log : List (Event Req Body)}
    (h : World.ends { w with conns, log } job result = some w') :
    w' = w.ended job result conns log := (Option.some.inj h).symm

theorem step_cases (h : w.step a = some w') : Step w a w' := by
  cases a with
  | serve b =>
      obtain ⟨hallows, hmap⟩ := Option.ite_none_right_eq_some.mp h
      obtain ⟨serve, hstep, rfl⟩ := Option.map_eq_some_iff.mp hmap
      exact .turn hallows hstep
  | startDrain =>
      simp only [World.step] at h
      split at h
      · rename_i hphase hnone
        obtain rfl := Option.some.inj h
        exact .startDrain hphase hnone
      · cases h
  | conn job input =>
      obtain ⟨client, hclient, hrest⟩ := Option.bind_eq_some_iff.mp h
      obtain ⟨⟨place, events⟩, hadvance, hend⟩ := Option.bind_eq_some_iff.mp hrest
      have hmove := Handle.Move.of_advance hadvance
      cases place with
      | closed result =>
          obtain rfl := ends_ended hend
          refine .ended (running_of_client? hclient) (fun i hi => Function.update_of_ne hi ..) ?_
            (by simp)
          rw [Function.update_self]
          exact Nat.zero_le _
      | top | select | wire | handling | sending =>
          obtain rfl := Option.some.inj hend
          exact .moved hclient hmove (Nat.succ_pos _)
  | panic job =>
      obtain ⟨client, hclient, hend⟩ := Option.bind_eq_some_iff.mp h
      obtain rfl := ends_ended hend
      exact .ended (running_of_client? hclient) (fun _ _ => rfl) (Nat.le_refl _) (by simp)
  | cancel job =>
      obtain ⟨client, hclient, hend⟩ := Option.bind_eq_some_iff.mp h
      obtain ⟨-, hend⟩ := Option.ite_none_right_eq_some.mp hend
      obtain rfl := ends_ended hend
      exact .ended (running_of_client? hclient) (fun _ _ => rfl) (Nat.le_refl _) (by simp)
  | tick now =>
      obtain ⟨hle, hw⟩ := Option.ite_none_right_eq_some.mp h
      obtain rfl := Option.some.inj hw
      exact .tick hle

/-! ### A client that runs has an open connection -/

/-- Connections of clients that run are open, and those of clients to come are new. -/
structure OpenInv (w : World Provider Req Body) : Prop where
  running : ∀ job, w.serve.service.jobs.Running job → 0 < (w.conns job).rank
  new : ∀ job, w.serve.service.jobs.spawned ≤ job → w.conns job = .top

/-- The clients that run after a turn ran before it, but for the one that was accepted. -/
theorem running_of_step {x x' : Serve.World Provider} {b : Serve.Action Provider}
    (h : x.step b = some x') :
    x.service.jobs.spawned ≤ x'.service.jobs.spawned ∧ ∀ job, x'.service.jobs.Running job →
      x.service.jobs.Running job ∨ job = x.service.jobs.spawned := by
  obtain ⟨s, events, harm, rfl⟩ := Serve.step_arm h
  rw [Serve.moved_service]
  cases harm with
  | signal event =>
      cases event with
      | reload =>
          rw [(Serve.handleSignal_frame _).1]
          exact ⟨Nat.le_refl _, fun _ => Or.inl⟩
      | shutdown => exact ⟨Nat.le_refl _, fun _ => Or.inl⟩
  | accept accepted =>
      cases accepted with
      | ok _ => exact ⟨Nat.le_succ _, fun _ => JoinSet.Running.of_spawn⟩
      | error error => exact ⟨Nat.le_refl _, fun _ => Or.inl⟩
  | joinReload =>
      rw [Serve.restart_jobs, Serve.handleLoaded_jobs]
      exact ⟨Nat.le_refl _, fun _ => Or.inl⟩
  | joinJob hphase hjoin =>
      exact ⟨Nat.le_of_eq (JoinSet.joinNext_eq_some hjoin).2.2.symm,
        fun _ hrunning => Or.inl (hrunning.of_joinNext hjoin)⟩
  | timeout | drained | buildEnds => exact ⟨Nat.le_refl _, fun _ => Or.inl⟩
  | jobEnds job result => exact ⟨Nat.le_refl _, fun _ hrunning => Or.inl hrunning.of_finish.1⟩

theorem openInv (h : (drainMachine Req Body agent).Reachable w) : OpenInv w := by
  refine h.invariant ?_ ?_
  · rintro w ⟨clock, rfl⟩
    exact ⟨fun _ _ => Nat.one_pos, fun _ _ => rfl⟩
  · intro w w' a _ hI hstep
    cases step_cases hstep with
    | turn hallows hturn =>
        obtain ⟨hspawned, hrunning⟩ := running_of_step hturn
        refine ⟨fun job hjob => ?_, fun job hjob => hI.new job (hspawned.trans hjob)⟩
        rcases hrunning job hjob with hold | rfl
        · exact hI.running job hold
        · show 0 < (w.conns _).rank
          rw [hI.new _ (Nat.le_refl _)]
          exact Nat.one_pos
    | startDrain => exact ⟨hI.running, hI.new⟩
    | @moved job input client place events hclient hmove hopen =>
        have hlt := (running_of_client? hclient).lt_spawned
        constructor
        · intro i hi
          show 0 < (Function.update w.conns job place i).rank
          by_cases hij : i = job
          · rw [hij, Function.update_self]
            exact hopen
          · rw [Function.update_of_ne hij]
            exact hI.running i hi
        · intro i hi
          have hne : i ≠ job := Nat.ne_of_gt (Nat.lt_of_lt_of_le hlt hi)
          show Function.update w.conns job place i = .top
          rw [Function.update_of_ne hne]
          exact hI.new i hi
    | @ended a job result conns log hrunning hothers =>
        constructor
        · intro i hi
          obtain ⟨hold, hne⟩ := JoinSet.Running.of_finish hi
          show 0 < (conns i).rank
          rw [hothers i hne]
          exact hI.running i hold
        · intro i hi
          have hne : i ≠ job := Nat.ne_of_gt (Nat.lt_of_lt_of_le hrunning.lt_spawned hi)
          show conns i = .top
          rw [hothers i hne]
          exact hI.new i hi
    | tick => exact ⟨hI.running, hI.new⟩

/-! ### What is left to do -/

/-- Time passes only for the drain timer and not past it, and what ends was running. -/
def Timely (w : World Provider Req Body) : Action Provider Req Body → Prop
  | .serve b => Serve.Happens w.serve b
  | .tick now => w.clock < now ∧ ∃ deadline, w.drain = some deadline ∧ now ≤ deadline
  | _ => True

/-- The time that the drain may still take. -/
def World.drainRank (w : World Provider Req Body) : Nat :=
  match w.drain with
  | none => shutdownTimeout + 1
  | some deadline => deadline - w.clock

/-- What is left to do: clients, builds, phases and time. -/
def World.rank (w : World Provider Req Body) : Nat :=
  w.serve.service.jobs.weight (fun job => (w.conns job).rank) + w.serve.service.reloads.pending +
    w.serve.service.phase.rank + w.drainRank

/-- The stop has been sent, and reaches every client. -/
structure Stopping (w : World Provider Req Body) : Prop where
  closed : Serve.Closed w.serve.service
  flags : ∀ task ∈ w.serve.service.jobs.tasks,
    w.serve.service.channels[task.input.stop]? = some true

theorem client_stopped (h : Stopping w) {client : Serve.Client Provider}
    (hclient : client? w.serve.service job = some client) :
    (watch w.serve.service client.stop).value = true := by
  obtain ⟨task, hfind, rfl⟩ := Option.map_eq_some_iff.mp hclient
  rw [watch, h.flags task (List.mem_of_find?_eq_some hfind)]
  rfl

theorem turn_rank_lt (h : Stopping w) {b : Serve.Action Provider} {serve : Serve.World Provider}
    (hallows : w.allows b = true) (hhappens : Serve.Happens w.serve b)
    (hstep : w.serve.step b = some serve) :
    World.rank { w with serve, log := w.log ++ World.sends b } < w.rank := by
  obtain ⟨s, hclosing, rfl⟩ := Serve.step_closing h.closed.not_running hstep
  unfold World.rank World.drainRank
  rw [Serve.moved_service]
  cases hclosing with
  | joined hphase hjoin =>
      have hlt := JoinSet.weight_joinNext_lt (f := fun job => (w.conns job).rank) hjoin
      simp only
      omega
  | timeout hphase =>
      have hlt : Serve.Phase.rank (.cancelling) < w.serve.service.phase.rank := by
        rw [hphase]
        exact Nat.lt_succ_self _
      simp only
      omega
  | drained hphase hnone =>
      have hlt : Serve.Phase.rank (.returned (.ok ())) < w.serve.service.phase.rank :=
        hphase.rank_pos
      simp only
      omega
  | buildEnds build config =>
      have hlt := JoinSet.pending_finish_lt hhappens (config.map Serve.load)
      simp only
      omega
  | jobEnds job result => cases hallows

/-- **Every step after the stop leaves less to do.** -/
theorem Step.rank_lt (hstep : Step w a w') (h : Stopping w) (htimely : Timely w a) :
    w'.rank < w.rank := by
  cases hstep with
  | turn hallows hturn => exact turn_rank_lt h hallows htimely hturn
  | startDrain hphase hnone =>
      unfold World.rank World.drainRank
      rw [hnone]
      simp only
      omega
  | @moved job input client place events hclient hmove hopen =>
      have hlt := hmove.rank_lt (client_stopped h hclient)
      have hweight : w.serve.service.jobs.weight
          (fun i => (Function.update w.conns job place i).rank) <
            w.serve.service.jobs.weight fun i => (w.conns i).rank := by
        refine JoinSet.weight_lt (running_of_client? hclient) (fun i => ?_) (by simpa using hlt)
        by_cases hi : i = job
        · rw [hi, Function.update_self]
          exact Nat.le_of_lt hlt
        · rw [Function.update_of_ne hi]
      unfold World.rank
      exact Nat.add_lt_add_right (Nat.add_lt_add_right (Nat.add_lt_add_right hweight _) _) _
  | @ended a job result conns log hrunning hothers hrank =>
      have hweight : (w.serve.service.jobs.finish job result).weight (fun i => (conns i).rank) <
          w.serve.service.jobs.weight fun i => (w.conns i).rank := by
        refine JoinSet.weight_finish_lt hrunning fun i => ?_
        by_cases hi : i = job
        · rw [hi]
          exact hrank
        · rw [hothers i hi]
      unfold World.rank
      exact Nat.add_lt_add_right (Nat.add_lt_add_right (Nat.add_lt_add_right hweight _) _) _
  | tick hle =>
      obtain ⟨hlt, deadline, hdrain, hover⟩ := htimely
      have hless : deadline - _ < deadline - w.clock :=
        Nat.sub_lt_sub_left (Nat.lt_of_lt_of_le hlt hover) hlt
      unfold World.rank World.drainRank
      rw [hdrain]
      exact Nat.add_lt_add_left hless _

/-! ### Until the service returns -/

theorem stopping (h : (drainMachine Req Body agent).Reachable w) (hsent : .stopSent ∈ w.log) :
    Stopping w := by
  have hserve := serve_reachable h
  have hshutdown := (drainInv h).sent hsent
  exact ⟨(Serve.shutdownInv hserve).closed hshutdown, Serve.flags_of_shutdown hserve hshutdown⟩

theorem client?_of_running {s : Serve.Service Provider} (h : s.jobs.Running job) :
    ∃ client, client? s job = some client := by
  obtain ⟨task, hmem, rfl, hnone⟩ := h
  have hsome : (s.jobs.tasks.find? fun t => t.id == task.id && t.result.isNone).isSome = true := by
    rw [List.find?_isSome]
    exact ⟨task, hmem, by simp [hnone]⟩
  obtain ⟨found, hfound⟩ := Option.isSome_iff_exists.mp hsome
  exact ⟨found.input, by rw [client?, hfound, Option.map_some]⟩

/-- A turn of what follows the loop. -/
def Follows (b : Serve.Action Provider) : Prop := (∃ id, b = .joinJob id) ∨ b = .drained

/-- Until `serve` returns, a client runs, the drain can start, or the service can go on. -/
theorem exists_running_or_turn (hdrains : w.serve.service.phase.Drains) :
    (∃ id, w.serve.service.jobs.Running id) ∨ (∃ w', w.step .startDrain = some w') ∨
      ∃ b w', Follows b ∧ w.step (.serve b) = some w' := by
  by_cases hwaits : w.serve.service.phase = .draining ∧ w.drain = none
  · obtain ⟨hphase, hnone⟩ := hwaits
    exact Or.inr (Or.inl ⟨{ w with drain := some (w.clock + shutdownTimeout) },
      by simp only [World.step, hphase, hnone]⟩)
  · have hallows : ∀ b, Follows b → w.allows b = true := by
      intro b hb
      have hdrain : w.serve.service.phase = .draining → w.drain.isSome = true := fun hphase =>
        Option.isSome_iff_ne_none.mpr fun hnone => hwaits ⟨hphase, hnone⟩
      rcases hb with ⟨id, rfl⟩ | rfl <;>
      · simp only [World.allows]
        split
        · exact hdrain ‹_›
        · rfl
    have hserve : ∀ {b x}, Follows b → w.serve.step b = some x →
        ∃ b w', Follows b ∧ w.step (.serve b) = some w' := by
      intro b x hb hx
      exact ⟨b, { w with serve := x, log := w.log ++ World.sends b }, hb,
        by simp only [World.step, hallows b hb, hx, if_true, Option.map_some]⟩
    by_cases hnone : w.serve.service.jobs.tasks = []
    · have hempty : w.serve.service.jobs.isEmpty = true := List.isEmpty_iff.mpr hnone
      have hstep : w.serve.step .drained = some (w.serve.moved
          { w.serve.service with phase := .returned (.ok ()) } []) := by
        cases hp : w.serve.service.phase with
        | draining | cancelling => simp only [Serve.World.step, hp, hempty, if_true]
        | running | returned result =>
            rw [hp] at hdrains
            cases hdrains
      exact Or.inr (Or.inr (hserve (Or.inr rfl) hstep))
    · rcases JoinSet.exists_running_or_joinNext hnone with hrunning | ⟨id, b, jobs, hjoin⟩
      · exact Or.inl hrunning
      · have hstep : w.serve.step (.joinJob id) =
            some (w.serve.moved { w.serve.service with jobs } []) := by
          cases hp : w.serve.service.phase with
          | draining | cancelling => simp only [Serve.World.step, hp, hjoin, Option.map_some]
          | running | returned result =>
              rw [hp] at hdrains
              cases hdrains
        exact Or.inr (Or.inr (hserve (Or.inl ⟨id, rfl⟩) hstep))

/-! ### What the service does by itself -/

/-- What takes no client, no handler and no build. -/
inductive Own : Action Provider Req Body → Prop
  | startDrain : Own .startDrain
  | timeout : Own (.serve .timeout)
  | joinJob (id : Nat) : Own (.serve (.joinJob id))
  | drained : Own (.serve .drained)
  | cancel (job : Nat) : Own (.cancel job)

theorem Follows.own {b : Serve.Action Provider} (h : Follows b) :
    Own (.serve b : Action Provider Req Body) := by
  rcases h with ⟨id, rfl⟩ | rfl
  · exact .joinJob id
  · exact .drained

def World.atTime (w : World Provider Req Body) (t : Instant) : World Provider Req Body :=
  { w with clock := t }

/-- The service has something to do by itself. -/
def World.Ready (w : World Provider Req Body) : Prop := ∃ a w', Own a ∧ w.step a = some w'

/-- What is next for the service, whatever its clients do. -/
inductive Due (w : World Provider Req Body) : Prop
  | start {w' : World Provider Req Body} (h : w.step .startDrain = some w')
  | follow {b : Serve.Action Provider} {w' : World Provider Req Body} (hb : Follows b)
      (h : w.step (.serve b) = some w')
  | cancel {job : Nat} (hphase : w.serve.service.phase = .cancelling)
      (hrunning : w.serve.service.jobs.Running job)
  /-- Its timer fires at the deadline or later. -/
  | timer {deadline : Instant} (hdrain : w.drain = some deadline)
      (h : ∀ t, deadline ≤ t → ∃ w', (w.atTime t).step (.serve .timeout) = some w')

theorem due (hdrains : w.serve.service.phase.Drains) : Due w := by
  rcases exists_running_or_turn hdrains with ⟨job, hrunning⟩ | ⟨w', hstep⟩ | ⟨b, w', hb, hstep⟩
  · cases hphase : w.serve.service.phase with
    | cancelling => exact .cancel hphase hrunning
    | draining =>
        cases hdrain : w.drain with
        | none =>
            have hstart : w.step .startDrain =
                some { w with drain := some (w.clock + shutdownTimeout) } := by
              simp only [World.step, hphase, hdrain]
            exact .start hstart
        | some deadline =>
            refine .timer hdrain fun t ht => ?_
            have hallows : (w.atTime t).allows .timeout = true := by
              simp [World.allows, World.atTime, hdrain, ht]
            have hturn : w.serve.step .timeout =
                some (w.serve.moved { w.serve.service with phase := .cancelling } []) := by
              simp only [Serve.World.step, hphase]
            have hstep : (w.atTime t).step (.serve .timeout) =
                (w.serve.step .timeout).map fun serve => ({ w.atTime t with
                  serve, log := w.log ++ World.sends .timeout } : World Provider Req Body) :=
              if_pos hallows
            rw [hstep, hturn]
            exact ⟨_, rfl⟩
    | running | returned result =>
        rw [hphase] at hdrains
        cases hdrains
  · exact .start hstep
  · exact .follow hb hstep

/-- Where the tasks are cancelled, each of them ends. -/
theorem exists_cancel (hphase : w.serve.service.phase = .cancelling)
    (hrunning : w.serve.service.jobs.Running job) : ∃ w', w.step (.cancel job) = some w' := by
  obtain ⟨client, hclient⟩ := client?_of_running hrunning
  rw [World.step, hclient, Option.bind_some, hphase]
  exact ⟨_, rfl⟩

/-- Until `serve` returns there is something for the service to do by itself, now or when its
timer fires. -/
theorem exists_ready (hdrains : w.serve.service.phase.Drains) :
    ∃ t, w.clock ≤ t ∧ (w.atTime t).Ready ∧ ∀ now, w.clock < now → now ≤ t → Timely w (.tick now) := by
  have hnow : w.Ready → ∃ t, w.clock ≤ t ∧ (w.atTime t).Ready ∧
      ∀ now, w.clock < now → now ≤ t → Timely w (.tick now) := fun hready =>
    ⟨w.clock, Nat.le_refl _, hready, fun now hlt hle => absurd hlt (Nat.not_lt_of_le hle)⟩
  cases due hdrains with
  | start h => exact hnow ⟨_, _, .startDrain, h⟩
  | follow hb h => exact hnow ⟨_, _, hb.own, h⟩
  | cancel hphase hrunning =>
      obtain ⟨w', hstep⟩ := exists_cancel hphase hrunning
      exact hnow ⟨_, w', .cancel _, hstep⟩
  | @timer deadline hdrain h =>
      obtain ⟨w', hstep⟩ := h (max w.clock deadline) (Nat.le_max_right _ _)
      refine ⟨max w.clock deadline, Nat.le_max_left _ _, ⟨_, w', .timeout, hstep⟩, ?_⟩
      intro now hlt hle
      exact ⟨hlt, deadline, hdrain, (le_max_iff.mp hle).resolve_left (Nat.not_le_of_lt hlt)⟩

/-! ### While time passes -/

/-- Time passes, to `now` and not past a moment at which something is `due`. -/
structure Passing (due : Instant → Prop) (clock now : Instant) : Prop where
  later : clock < now
  idle : ∀ t, clock ≤ t → t < now → ¬due t

theorem Passing.le {due : Instant → Prop} {clock now t : Instant} (h : Passing due clock now)
    (hle : clock ≤ t) (hdue : due t) : now ≤ t := by
  by_contra hlt
  exact h.idle t hle (Nat.lt_of_not_le hlt) hdue

/-- Time passes to the first moment at which something is due. -/
theorem exists_passing {due : Instant → Prop} {clock t : Instant} (hle : clock ≤ t)
    (hdue : due t) : due clock ∨ ∃ now, Passing due clock now := by
  classical
  by_cases hnow : due clock
  · exact Or.inl hnow
  · have hex : ∃ t, clock ≤ t ∧ due t := ⟨t, hle, hdue⟩
    obtain ⟨hfirst, hthen⟩ := Nat.find_spec hex
    refine Or.inr ⟨Nat.find hex, Nat.lt_of_le_of_ne hfirst ?_, ?_⟩
    · intro heq
      exact hnow (heq ▸ hthen)
    · intro s hs hlt hsdue
      exact Nat.find_min hex hlt ⟨hs, hsdue⟩

/-- What a prompt service lets happen: time passes only while it has nothing to do by itself.
And what ends was running. -/
def Prompt (w : World Provider Req Body) : Action Provider Req Body → Prop
  | .serve b => Serve.Happens w.serve b
  | .tick now => Passing (fun t => (w.atTime t).Ready) w.clock now
  | _ => True

/-- What goes on: the service and its clock do, and of everything else what `may`. -/
def Goes (may : World Provider Req Body → Action Provider Req Body → Prop)
    (w : World Provider Req Body) (a : Action Provider Req Body) : Prop :=
  Prompt w a ∧ (Own a ∨ (∃ now, a = .tick now) ∨ may w a)

theorem Own.prompt (h : Own a) : Prompt w a := by
  cases h <;> exact trivial

/-- A prompt service is in time. -/
theorem Prompt.timely (h : Prompt w a) (hdrains : w.serve.service.phase.Drains) :
    Timely w a := by
  cases a with
  | tick now =>
      obtain ⟨t, hle, hready, htimely⟩ := exists_ready hdrains
      exact htimely now h.later (h.le hle hready)
  | serve b => exact h
  | startDrain | conn | panic | cancel => exact trivial

/-- Until `serve` returns it goes on, even if nothing else may happen. -/
theorem exists_goes (may : World Provider Req Body → Action Provider Req Body → Prop)
    (hdrains : w.serve.service.phase.Drains) : ∃ a w', Goes may w a ∧ w.step a = some w' := by
  obtain ⟨t, hle, hready, -⟩ := exists_ready hdrains
  rcases @exists_passing (fun t => (w.atTime t).Ready) w.clock t hle hready with
    ⟨a, w', hown, hstep⟩ | ⟨now, hpassing⟩
  · exact ⟨a, w', ⟨hown.prompt, Or.inl hown⟩, hstep⟩
  · exact ⟨.tick now, w.atTime now, ⟨hpassing, Or.inr (Or.inl ⟨now, rfl⟩)⟩,
      if_pos (Nat.le_of_lt hpassing.later)⟩

/-! ### In time -/

theorem drainEnd_of_frame (hdrain : w'.drain = w.drain) (hclock : w'.clock = w.clock) :
    w'.drainEnd = w.drainEnd ∧ w'.clock ≤ max w.clock w.drainEnd := by
  rw [World.drainEnd, World.drainEnd, hdrain, hclock]
  exact ⟨rfl, Nat.le_max_left _ _⟩

/-- A timely step does not lead past the end of the drain. -/
theorem Step.timely (hstep : Step w a w') (htimely : Timely w a) :
    w'.drainEnd = w.drainEnd ∧ w'.clock ≤ max w.clock w.drainEnd := by
  cases hstep with
  | turn | moved | ended => exact drainEnd_of_frame rfl rfl
  | startDrain hphase hnone =>
      rw [World.drainEnd, World.drainEnd, hnone, Option.getD_some, Option.getD_none]
      exact ⟨rfl, Nat.le_max_left _ _⟩
  | tick hle =>
      obtain ⟨-, deadline, hdrain, hover⟩ := htimely
      rw [World.drainEnd, World.drainEnd, hdrain, Option.getD_some, Option.getD_some]
      exact ⟨rfl, Nat.le_trans hover (Nat.le_max_right _ _)⟩

theorem Change.log_mono (h : Change w w') {e : Event Req Body} (he : e ∈ w.log) : e ∈ w'.log := by
  cases h with
  | turn | client => exact List.mem_append_left _ he
  | startDrain | tick => exact he

/-- Where the service stands on the way from `w₀` to its end. -/
structure Settling (agent : ServiceAgent Provider) (w₀ w : World Provider Req Body) : Prop where
  reachable : (drainMachine Req Body agent).Reachable w
  sent : .stopSent ∈ w.log
  drainEnd : w.drainEnd = w₀.drainEnd
  clock : w.clock ≤ max w₀.clock w₀.drainEnd

theorem Settling.step (h : Settling agent w₀ w) (htimely : Timely w a)
    (hstep : w.step a = some w') : Settling agent w₀ w' := by
  obtain ⟨hend, hclock⟩ := (step_cases hstep).timely htimely
  refine ⟨h.reachable.step hstep, (step_change hstep).log_mono h.sent, hend.trans h.drainEnd, ?_⟩
  rw [h.drainEnd] at hclock
  exact Nat.le_trans hclock (Nat.max_le.mpr ⟨h.clock, Nat.le_max_right _ _⟩)

/-- **A shutdown comes to an end before the drain is over**, whatever `may` happen besides:
where no client ever goes on again, and where clients, handlers and builds do as they like,
a prompt service returns in success, and no later than the drain ends. -/
theorem serve_settles (may : World Provider Req Body → Action Provider Req Body → Prop)
    (h : (drainMachine Req Body agent).Reachable w) (hsent : .stopSent ∈ w.log) :
    ((drainMachine Req Body agent).restrict (Goes may)).Inevitable
      (fun w' => w'.serve.service.phase = .returned (.ok ()) ∧
        w'.clock ≤ max w.clock w.drainEnd) w := by
  refine Machine.inevitable_of_falling (I := Settling agent w) World.rank ?_ ?_ w
    ⟨h, hsent, rfl, Nat.le_max_left _ _⟩
  · intro v hv
    cases (stopping hv.reachable hv.sent).closed with
    | returned hphase => exact Or.inl ⟨hphase, hv.clock⟩
    | drains hdrains => exact Or.inr (exists_goes may hdrains)
  · rintro v a v' hv hgoal ⟨⟨hprompt, -⟩, hstep⟩
    have hstopping := stopping hv.reachable hv.sent
    cases hstopping.closed with
    | returned hphase => exact absurd ⟨hphase, hv.clock⟩ hgoal
    | drains hdrains =>
        have htimely := hprompt.timely hdrains
        exact ⟨hv.step htimely hstep, (step_cases hstep).rank_lt hstopping htimely⟩

theorem stopSent_mem {log : List (Event Req Body)} (h : log.any Event.isStopSent = true) :
    .stopSent ∈ log := by
  obtain ⟨e, he, hstop⟩ := List.any_eq_true.mp h
  cases e with
  | stopSent => exact he
  | conn | panicked | cancelled => cases hstop

/-- A client of a replaced agent is in the middle of a request when the stop is sent. -/
def busyRun : List (Action Nat Unit Unit) :=
  [.serve (.accept (.ok ())), .conn 0 .go, .conn 0 .go, .conn 0 (.frame (.ok (some ())))] ++
    (Serve.Run.reload 0 2).map .serve ++ [.tick 5, .serve (.signal .shutdown)]

def isHandling : Handle.Place Req Body → Bool
  | .handling _ _ => true
  | _ => false

/-- Its handler never answers, and nothing else happens: the service gets there by itself. -/
theorem serve_settles_busy : ∃ w : World Nat Unit Unit,
    .stopSent ∈ w.log ∧ isReturned w.serve.service.phase = false ∧
      isHandling (w.conns 0) = true ∧ (w.clock = 5 ∧ w.drainEnd = 5 + shutdownTimeout) ∧
      ((drainMachine Unit Unit (Serve.Run.agent 1)).restrict (Goes fun _ _ => False)).Inevitable
        (fun w' => w'.serve.service.phase = .returned (.ok ()) ∧
          w'.clock ≤ max w.clock w.drainEnd) w := by
  obtain ⟨w, hw, hp⟩ := @Machine.reachable_of_exec_any _ _
    (fun w => ∃ clock, w = World.start (Serve.Run.agent 1) clock) World.step
    (World.start (Serve.Run.agent 1) 0) ⟨0, rfl⟩ busyRun
    (fun w => (w.log.any Event.isStopSent && !isReturned w.serve.service.phase) &&
      (isHandling (w.conns 0) && decide (w.clock = 5 ∧ w.drainEnd = 5 + shutdownTimeout)))
    (by decide)
  obtain ⟨hstop, hbusy⟩ := (Bool.and_eq_true _ _).mp hp
  obtain ⟨hsent, hreturned⟩ := (Bool.and_eq_true _ _).mp hstop
  obtain ⟨hhandling, hclock⟩ := (Bool.and_eq_true _ _).mp hbusy
  exact ⟨w, stopSent_mem hsent, by simpa using hreturned, hhandling, of_decide_eq_true hclock,
    serve_settles (fun _ _ => False) hw (stopSent_mem hsent)⟩

end Drain

end Keyring.Cli
