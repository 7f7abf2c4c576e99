/-
The two locks never deadlock.

A call that has what it waits for can go on, and the only things to wait for besides an
endpoint are the two locks.  The one who has the state lock waits for nothing; the one who
has the gate waits at most for the state lock or an endpoint.  So among the calls under way
there is always one that is not waiting for another.
-/
import Keyring.Proofs.Bitwarden.Session.Locks

namespace Keyring.Bitwarden

variable {env : Env} {i j : CallId} {now : Instant} {s : BitwardenSession env}
  {pc pc' : Pc} {input : Input env.Body} {w : World env}

/-- Whether a call at this place is not under way. -/
def Pc.atRest : Pc → Bool
  | .idle | .done _ | .cancelled | .panicked _ => true
  | _ => false

theorem no_guards_of_atRest (h : pc.atRest = true) :
    pc.holdsState = false ∧ pc.holdsGate = false := by
  cases pc <;> first | exact ⟨rfl, rfl⟩ | exact absurd h (by simp [Pc.atRest])

/-! ### A call that is answered goes on -/

/-- What a call can be resumed with, other than being dropped: the outcome of the exchange
it waits for, whatever it is, or nothing. -/
inductive Answers {Body : Type} : Pc → Input Body → Prop
  | token (caller : Caller) (x : Exchange Body) : Answers (.request caller) (.token x)
  | headers (n : Nat) (t : String) (x : Except String StatusCode) :
      Answers (.send n t) (.headers x)
  | body (x : Except String Body) : Answers .body (.body x)
  | idle : Answers .idle .go
  | stale (held : Bool) : Answers (.stale held) .go
  | gate : Answers .gate .go
  | restale (held : Bool) : Answers (.restale held) .go
  | ready (held : Bool) (caller : Caller) (r : BitwardenTokenSuccessResponse) (exp : Instant) :
      Answers (.ready held caller r exp) .go
  | bootstrap (caller : Caller) (r : BitwardenTokenSuccessResponse) (exp : Instant) :
      Answers (.bootstrap caller r exp) .go
  | publish (held : Bool) (caller : Caller) (r : BitwardenTokenSuccessResponse)
      (exp : Instant) : Answers (.publish held caller r exp) .go
  | read (held : Bool) (n : Nat) : Answers (.read held n) .go
  | rejected (n : Nat) (t : String) : Answers (.rejected n t) .go
  | invalidate (held : Bool) (n : Nat) (t : String) : Answers (.invalidate held n t) .go

/-- A call under way can be answered; an endpoint can always fail to answer. -/
theorem exists_answers (Body : Type) (h : pc.atRest = false) :
    ∃ input : Input Body, Answers pc input := by
  cases pc with
  | idle | done outcome | cancelled | panicked panic => exact absurd h (by simp [Pc.atRest])
  | request caller => exact ⟨_, .token caller (.failed "timed out")⟩
  | send n t => exact ⟨_, .headers n t (.error "timed out")⟩
  | body => exact ⟨_, .body (.error "timed out")⟩
  | stale held => exact ⟨_, .stale held⟩
  | gate => exact ⟨_, .gate⟩
  | restale held => exact ⟨_, .restale held⟩
  | ready held caller r exp => exact ⟨_, .ready held caller r exp⟩
  | bootstrap caller r exp => exact ⟨_, .bootstrap caller r exp⟩
  | publish held caller r exp => exact ⟨_, .publish held caller r exp⟩
  | read held n => exact ⟨_, .read held n⟩
  | rejected n t => exact ⟨_, .rejected n t⟩
  | invalidate held n t => exact ⟨_, .invalidate held n t⟩

/-- Where the state lock is free, whoever waits for it gets it. -/
theorem advance_isSome_of_awaitsState (h : AwaitsState pc pc')
    (hfree : s.state.holder = none) : (advance env i now s pc .go).isSome := by
  cases h <;> rw [advance, lockState_of_free hfree] <;> rfl

/-- Where the gate is free, whoever waits for it gets it. -/
theorem advance_isSome_of_awaitsGate (h : AwaitsGate pc pc')
    (hfree : s.gate.holder = none) : (advance env i now s pc .go).isSome := by
  cases h <;> rw [advance, lockGate_of_free hfree] <;> rfl

/-- **A call that is answered goes on**, unless it waits for a lock that is taken. -/
theorem advance_isSome_of_answers (h : Answers pc input)
    (hstate : ∀ pc', AwaitsState pc pc' → s.state.holder = none)
    (hgate : ∀ pc', AwaitsGate pc pc' → s.gate.holder = none) :
    (advance env i now s pc input).isSome := by
  cases h with
  | idle => rfl
  | headers n t x => rfl
  | body x => rfl
  | gate => exact advance_isSome_of_awaitsGate .token (hgate _ .token)
  | rejected n t => exact advance_isSome_of_awaitsGate (.rejected n t) (hgate _ (.rejected n t))
  | token caller x =>
      rw [advance]
      split
      · rfl
      · split <;> rfl
  | bootstrap caller r exp =>
      rw [advance]
      split <;> rfl
  | stale held =>
      cases held with
      | false => exact advance_isSome_of_awaitsState .stale (hstate _ .stale)
      | true =>
          rw [advance]
          split <;> rfl
  | restale held =>
      cases held with
      | false => exact advance_isSome_of_awaitsState .restale (hstate _ .restale)
      | true =>
          rw [advance]
          split <;> rfl
  | ready held caller r exp =>
      cases held with
      | false =>
          exact advance_isSome_of_awaitsState (.ready caller r exp) (hstate _ (.ready caller r exp))
      | true =>
          rw [advance]
          split <;> rfl
  | publish held caller r exp =>
      cases held with
      | false =>
          exact advance_isSome_of_awaitsState (.publish caller r exp)
            (hstate _ (.publish caller r exp))
      | true => rfl
  | read held n =>
      cases held with
      | false => exact advance_isSome_of_awaitsState (.read n) (hstate _ (.read n))
      | true =>
          rw [advance]
          split <;> rfl
  | invalidate held n t =>
      cases held with
      | false => exact advance_isSome_of_awaitsState (.invalidate n t) (hstate _ (.invalidate n t))
      | true =>
          rw [advance]
          split
          · rfl
          · split <;> rfl

/-! ### Who waits for whom -/

/-- A call is under way and can take a step, whatever it is answered. -/
structure CanStep (w : World env) (i : CallId) : Prop where
  live : (w.calls i).atRest = false
  answered : ∃ input : Input env.Body, Answers (w.calls i) input
  step : ∀ input : Input env.Body, Answers (w.calls i) input →
    (w.step (.call i input)).isSome

/-- What excludes a deadlock, in one state. -/
structure DeadlockFree (w : World env) : Prop where
  /-- If a call is under way, one is that can take a step. -/
  progress : ∀ i, (w.calls i).atRest = false → ∃ j, CanStep w j
  /-- Who waits for the gate has neither lock. -/
  gate : ∀ i pc, AwaitsGate (w.calls i) pc →
    w.session.state.holder ≠ some i ∧ w.session.gate.holder ≠ some i
  /-- Who waits for the state lock does not have it. -/
  state : ∀ i pc, AwaitsState (w.calls i) pc → w.session.state.holder ≠ some i
  /-- Without a call under way both locks are free. -/
  free : (∀ i, (w.calls i).atRest = true) →
    w.session.state.holder = none ∧ w.session.gate.holder = none

/-- A call under way can take a step, unless it waits for a lock that is taken. -/
theorem canStep (hlive : (w.calls i).atRest = false)
    (hstate : ∀ pc, AwaitsState (w.calls i) pc → w.session.state.holder = none)
    (hgate : ∀ pc, AwaitsGate (w.calls i) pc → w.session.gate.holder = none) : CanStep w i := by
  refine ⟨hlive, exists_answers env.Body hlive, ?_⟩
  intro input hanswers
  rw [World.step, Option.isSome_map]
  exact advance_isSome_of_answers hanswers hstate hgate

theorem atRest_of_holdsState (h : pc.holdsState = true) : pc.atRest = false := by
  cases hrest : pc.atRest with
  | false => rfl
  | true => exact absurd h (by simp [(no_guards_of_atRest hrest).1])

theorem atRest_of_holdsGate (h : pc.holdsGate = true) : pc.atRest = false := by
  cases hrest : pc.atRest with
  | false => rfl
  | true => exact absurd h (by simp [(no_guards_of_atRest hrest).2])

/-- Who has the state lock waits for no lock. -/
theorem not_awaits_of_holdsState (h : pc.holdsState = true) :
    ¬AwaitsState pc pc' ∧ ¬AwaitsGate pc pc' := by
  constructor
  · intro hpc
    exact absurd h (by simp [hpc.before])
  · intro hpc
    cases hpc <;> exact absurd h (by simp [Pc.holdsState])

theorem LocksAgree.progress (hL : LocksAgree w) (hlive : (w.calls i).atRest = false) :
    ∃ j, CanStep w j := by
  cases hs : w.session.state.holder with
  | some j =>
      have hj : (w.calls j).holdsState = true := (hL.state j).mp hs
      refine ⟨j, canStep (atRest_of_holdsState hj) ?_ ?_⟩
      · intro pc hpc
        exact absurd hpc (not_awaits_of_holdsState hj).1
      · intro pc hpc
        exact absurd hpc (not_awaits_of_holdsState hj).2
  | none =>
      cases hg : w.session.gate.holder with
      | some j =>
          have hj : (w.calls j).holdsGate = true := (hL.gate j).mp hg
          refine ⟨j, canStep (atRest_of_holdsGate hj) (fun _ _ => hs) ?_⟩
          intro pc hpc
          exact absurd hj (by simp [hpc.before])
      | none => exact ⟨i, canStep hlive (fun _ _ => hs) (fun _ _ => hg)⟩

/-- **The two locks never deadlock.** -/
theorem session_deadlockFree (h : (sessionMachine env).Reachable w) : DeadlockFree w := by
  have hL := locksAgree h
  refine ⟨fun i hlive => hL.progress hlive, ?_, ?_, ?_⟩
  · intro i pc hpc
    constructor
    · intro hholder
      exact (not_awaits_of_holdsState ((hL.state i).mp hholder)).2 hpc
    · intro hholder
      exact absurd ((hL.gate i).mp hholder) (by simp [hpc.before])
  · intro i pc hpc hholder
    exact absurd ((hL.state i).mp hholder) (by simp [hpc.before])
  · intro hrest
    constructor
    · exact hL.state.free fun i => (no_guards_of_atRest (hrest i)).1
    · exact hL.gate.free fun i => (no_guards_of_atRest (hrest i)).2

/-- One call waits for the gate while another one logs in. -/
theorem session_deadlockFree_queued : ∃ w : World plainEnv,
    w.calls 0 = .request .token ∧ w.calls 1 = .gate ∧ DeadlockFree w := by
  obtain ⟨w, hw, hp⟩ := reachable_of_run plainEnv (Run.go 0 6 ++ Run.go 1 3)
    (fun w => w.calls 0 == .request .token && w.calls 1 == .gate) (by decide)
  simp only [Bool.and_eq_true, beq_iff_eq] at hp
  exact ⟨w, hp.1, hp.2, session_deadlockFree hw⟩

end Keyring.Bitwarden
