/-
A shutdown ends in success, and only when every client has ended.

From the shutdown on there are five steps left: a client or a build ends, an ended client is
joined, the drain times out, and `serve` returns.  None of them accepts a client or installs
a candidate.  Each of them leaves less to do, as long as what ends was running, and until
`serve` returns one of them can be taken.
-/
import Keyring.Proofs.Cli.Serve.Generations
import Keyring.Lib.History

namespace Keyring.Cli.Serve

open Keyring.Service

variable {Provider : Type*} {s s' : Service Provider} {a : Action Provider}
  {events : List (Event Provider)} {w w' : World Provider} {agent : ServiceAgent Provider}

/-! ### Outside the loop -/

/-- A step of the service that is not in its loop. -/
inductive Closing (s : Service Provider) : Action Provider → Service Provider → Prop
  | joined {job : Nat} {result : Except JoinError Unit}
      {jobs : JoinSet (Client Provider) (Except JoinError Unit)} (hphase : s.phase.Drains)
      (hjoin : s.jobs.joinNext job = some (result, jobs)) :
      Closing s (.joinJob job) { s with jobs := jobs }
  | timeout (hphase : s.phase = .draining) : Closing s .timeout { s with phase := .cancelling }
  | drained (hphase : s.phase.Drains) (hnone : s.jobs.tasks = []) :
      Closing s .drained { s with phase := .returned (.ok ()) }
  | buildEnds (build : Nat) (config : Except JoinError (Except String (List Provider))) :
      Closing s (.buildEnds build config)
        { s with reloads := s.reloads.finish build (config.map load) }
  | jobEnds (job : Nat) (result : Except JoinError Unit) :
      Closing s (.jobEnds job result) { s with jobs := s.jobs.finish job result }

theorem Arm.closing (h : Arm s a s' events) (hphase : s.phase ≠ .running) :
    Closing s a s' ∧ events = [] := by
  cases h with
  | signal event hrun => exact absurd hrun hphase
  | accept accepted hrun => exact absurd hrun hphase
  | joinReload hrun hjoin => exact absurd hrun hphase
  | joinJob hdrains hjoin => exact ⟨.joined (hdrains.resolve_left hphase) hjoin, rfl⟩
  | timeout hdraining => exact ⟨.timeout hdraining, rfl⟩
  | drained hdrains hnone => exact ⟨.drained hdrains hnone, rfl⟩
  | buildEnds build config => exact ⟨.buildEnds build config, rfl⟩
  | jobEnds job result => exact ⟨.jobEnds job result, rfl⟩

theorem step_closing (hphase : w.service.phase ≠ .running) (h : w.step a = some w') :
    ∃ s, Closing w.service a s ∧ w' = w.moved s [] := by
  obtain ⟨s, events, harm, rfl⟩ := step_arm h
  obtain ⟨hclosing, rfl⟩ := harm.closing hphase
  exact ⟨s, hclosing, rfl⟩

/-- The loop never cancels a client. -/
theorem Arm.loop (h : Arm s a s' events) (hrun : s.phase = .running) :
    s'.phase ≠ .cancelling := by
  have hnot : s.phase ≠ .cancelling := by simp [hrun]
  intro hphase
  cases h with
  | signal event =>
      cases event with
      | reload => exact hnot ((handleSignal_frame s).2.symm.trans hphase)
      | shutdown => cases hphase
  | accept accepted =>
      cases accepted with
      | ok _ => exact hnot hphase
      | error error => cases hphase
  | joinReload =>
      rw [(restart_frame _).2.2.2, handleLoaded_phase] at hphase
      exact hnot hphase
  | timeout hdraining => exact absurd (hrun.symm.trans hdraining) (by simp)
  | drained => cases hphase
  | joinJob | buildEnds | jobEnds => exact hnot hphase

/-- **Only the timeout cancels the clients.** -/
theorem step_cancelling (h : w.step a = some w') (hphase : w'.service.phase = .cancelling) :
    w.service.phase = .cancelling ∨ a = .timeout := by
  by_cases hrun : w.service.phase = .running
  · obtain ⟨s, events, harm, rfl⟩ := step_arm h
    exact absurd hphase (harm.loop hrun)
  · obtain ⟨s, hclosing, rfl⟩ := step_closing hrun h
    cases hclosing with
    | timeout => exact Or.inr rfl
    | drained => cases hphase
    | joined | buildEnds | jobEnds => exact Or.inl hphase

/-! ### Where the service stands after a shutdown -/

/-- The service drains, or it has returned in success without a client left. -/
inductive Closed (s : Service Provider) : Prop
  | drains (hphase : s.phase.Drains)
  | returned (hphase : s.phase = .returned (.ok ())) (hnone : s.jobs.tasks = [])

theorem Closed.not_running (h : Closed s) : s.phase ≠ .running := by
  cases h with
  | drains hphase =>
      intro hrun
      rw [hrun] at hphase
      cases hphase
  | returned hphase => simp [hphase]

/-- No step leads back. -/
theorem Closing.closed (h : Closing s a s') (hs : Closed s) : Closed s' := by
  cases h with
  | joined hphase => exact .drains hphase
  | timeout => exact .drains .cancelling
  | drained hphase hnone => exact .returned rfl hnone
  | buildEnds build config =>
      cases hs with
      | drains hphase => exact .drains hphase
      | returned hphase hnone => exact .returned hphase hnone
  | jobEnds job result =>
      cases hs with
      | drains hphase => exact .drains hphase
      | returned hphase hnone =>
          refine .returned hphase ?_
          show s.jobs.tasks.map _ = []
          rw [hnone, List.map_nil]

theorem Turn.draining (h : Turn s a s' events) (hmem : .shutdown ∈ events) :
    s'.phase = .draining ∧ events = [.shutdown] := by
  cases h.effect with
  | none hagent hstop hchannels hinstalled hshutdown => exact absurd hmem hshutdown
  | replaced hstop hchannels hinstalled hrun hshutdown => exact absurd hmem hshutdown
  | shutdown hagent hstop hchannels hevents hphase => exact ⟨hphase, hevents⟩

/-- A shutdown is the last thing that is written down. -/
structure ShutdownInv (w : World Provider) : Prop where
  closed : .shutdown ∈ w.log → Closed w.service
  last : ∀ pre post, w.log = pre ++ .shutdown :: post → post = []

theorem shutdownInv (h : (serveMachine agent).Reachable w) : ShutdownInv w := by
  refine h.invariant ?_ ?_
  · rintro w rfl
    exact ⟨fun hmem => absurd hmem (by simp [World.start]),
      fun pre post hl => absurd hl (by simp [World.start])⟩
  · intro w w' a hr hI hstep
    by_cases hmem : .shutdown ∈ w.log
    · obtain ⟨s, hclosing, rfl⟩ := step_closing (hI.closed hmem).not_running hstep
      refine ⟨fun _ => hclosing.closed (hI.closed hmem), ?_⟩
      rw [moved_log, List.append_nil]
      exact hI.last
    · obtain ⟨s, events, hturn, rfl⟩ := step_turn hstep
      have hnew : ∀ {e}, e ∈ w.log ++ events → e = .shutdown → e ∈ events := by
        rintro e he rfl
        exact (List.mem_append.mp he).resolve_left hmem
      constructor
      · intro hlog
        obtain ⟨hphase, -⟩ := hturn.draining (hnew hlog rfl)
        exact .drains (by rw [moved_service, hphase]; exact .draining)
      · intro pre post hl
        have hlog : Event.shutdown ∈ w.log ++ events := by
          rw [← moved_log, hl]
          exact List.mem_append_right _ (List.mem_cons_self ..)
        obtain ⟨-, rfl⟩ := hturn.draining (hnew hlog rfl)
        rcases History.append_split_one hl (Nat.le_refl 1) with ⟨mid, hmid, -⟩ | ⟨-, -, hpost⟩
        · exact absurd (by rw [hmid]; simp) hmem
        · exact hpost

/-! ### The clients -/

/-- After a shutdown, the stop flag of every client is up. -/
theorem flags_of_shutdown (h : (serveMachine agent).Reachable w) (hmem : .shutdown ∈ w.log) :
    ∀ task ∈ w.service.jobs.tasks, w.service.channels[task.input.stop]? = some true := by
  intro task htask
  have hI := generationInv h
  obtain ⟨maker, hmaker, -⟩ := hI.sessions _ _ (accepted_of_reachable h task htask)
  exact (hI.flag (List.getElem?_eq_some_iff.mp hmaker).1).mpr (Or.inr hmem)

/-! ### The end -/

/-- What ends was running. -/
def Happens (w : World Provider) : Action Provider → Prop
  | .buildEnds build _ => w.service.reloads.Running build
  | .jobEnds job _ => w.service.jobs.Running job
  | _ => True

def Phase.rank : Phase → Nat
  | .running => 3
  | .draining => 2
  | .cancelling => 1
  | .returned _ => 0

/-- What is left to do: clients, builds and phases. -/
def Service.rank (s : Service Provider) : Nat :=
  s.jobs.pending + s.reloads.pending + s.phase.rank

theorem Phase.Drains.rank_pos {phase : Phase} (h : phase.Drains) : 0 < phase.rank := by
  cases h <;> decide

theorem Closing.rank_lt (h : Closing w.service a s') (hhappens : Happens w a) :
    s'.rank < w.service.rank := by
  unfold Service.rank
  cases h with
  | joined hphase hjoin =>
      have hlt := JoinSet.pending_joinNext_lt hjoin
      simp only
      omega
  | timeout hphase =>
      rw [hphase]
      exact Nat.lt_succ_self _
  | drained hphase hnone => exact Nat.add_lt_add_left hphase.rank_pos _
  | buildEnds build config =>
      have hlt := JoinSet.pending_finish_lt hhappens (config.map load)
      simp only
      omega
  | jobEnds job result =>
      have hlt := JoinSet.pending_finish_lt hhappens result
      simp only
      omega

/-- Until `serve` returns, a client can end or be joined, or there is none. -/
theorem exists_step_of_drains (hphase : w.service.phase.Drains) :
    ∃ a w', Happens w a ∧ w.step a = some w' := by
  by_cases hnone : w.service.jobs.tasks = []
  · have hempty : w.service.jobs.isEmpty = true := List.isEmpty_iff.mpr hnone
    refine ⟨.drained, w.moved { w.service with phase := .returned (.ok ()) } [], trivial, ?_⟩
    cases hp : w.service.phase with
    | draining | cancelling => simp only [World.step, hp, hempty, if_true]
    | running | returned result =>
        rw [hp] at hphase
        cases hphase
  · rcases JoinSet.exists_running_or_joinNext hnone with ⟨id, hrunning⟩ | ⟨id, b, jobs, hjoin⟩
    · exact ⟨.jobEnds id (.ok ()), _, hrunning, rfl⟩
    · refine ⟨.joinJob id, w.moved { w.service with jobs } [], trivial, ?_⟩
      cases hp : w.service.phase with
      | draining | cancelling => simp only [World.step, hp, hjoin, Option.map_some]
      | running | returned result =>
          rw [hp] at hphase
          cases hphase

/-- **After a shutdown `serve` returns in success**, whatever the clients return. -/
theorem inevitable_of_closed (hclosed : Closed w.service) :
    ((serveMachine agent).restrict Happens).Inevitable
      (fun w => w.service.phase = .returned (.ok ())) w := by
  refine Machine.inevitable_of_rank (I := fun w => Closed w.service) (fun w => w.service.rank)
    ?_ ?_ w hclosed
  · intro w hw
    cases hw with
    | returned hphase => exact Or.inl hphase
    | drains hphase =>
        obtain ⟨a, w', hhappens, hstep⟩ := exists_step_of_drains hphase
        exact Or.inr ⟨a, w', hhappens, hstep⟩
  · rintro w a w' hw ⟨hhappens, hstep⟩
    obtain ⟨s, hclosing, rfl⟩ := step_closing hw.not_running hstep
    exact ⟨hclosing.closed hw, hclosing.rank_lt hhappens⟩

/-- What holds of the service once it has handled a shutdown. -/
structure ShutDown (agent : ServiceAgent Provider) (w : World Provider) : Prop where
  /-- No client is accepted from then on, and no candidate installed. -/
  quiet : ∀ a w', w.step a = some w' →
    w'.log = w.log ∧ w'.service.agent = w.service.agent ∧
      w'.service.jobs.spawned = w.service.jobs.spawned
  last : ∀ pre post, w.log = pre ++ .shutdown :: post → post = []
  /-- Every client there is has been told to stop. -/
  stopped : ∀ task ∈ w.service.jobs.tasks, w.service.channels[task.input.stop]? = some true
  /-- `serve` returns in success, and without a client left. -/
  result : ∀ result, w.service.phase = .returned result →
    result = .ok () ∧ w.service.jobs.tasks = []
  returns : ((serveMachine agent).restrict Happens).Inevitable
    (fun w => w.service.phase = .returned (.ok ())) w

theorem Closing.quiet (h : Closing s a s') :
    s'.agent = s.agent ∧ s'.jobs.spawned = s.jobs.spawned := by
  cases h with
  | joined hphase hjoin => exact ⟨rfl, (JoinSet.joinNext_eq_some hjoin).2.2⟩
  | timeout | drained | buildEnds | jobEnds => exact ⟨rfl, rfl⟩

theorem serve_shutDown (h : (serveMachine agent).Reachable w) (hmem : .shutdown ∈ w.log) :
    ShutDown agent w := by
  have hI := shutdownInv h
  have hclosed := hI.closed hmem
  refine ⟨?_, hI.last, flags_of_shutdown h hmem, ?_, inevitable_of_closed hclosed⟩
  · intro a w' hstep
    obtain ⟨s, hclosing, rfl⟩ := step_closing hclosed.not_running hstep
    exact ⟨by rw [moved_log, List.append_nil], hclosing.quiet⟩
  · intro result hresult
    cases hclosed with
    | drains hphase =>
        rw [hresult] at hphase
        cases hphase
    | returned hphase hnone =>
        rw [hresult] at hphase
        exact ⟨by injection hphase, hnone⟩

end Keyring.Cli.Serve
