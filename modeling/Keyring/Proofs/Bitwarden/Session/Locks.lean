/-
Who has which lock, and what only the owner of a lock can change.

The two mutexes record a holder; the program does not, because a guard is a local
variable.  Both are shown to agree in every run, which gives mutual exclusion by place:
no two calls are inside a login, and none handles a 401 while another one is.

What a step can change follows.  The authentication state is written in two places, the
invalidation and the publication, and the key store in one, the bootstrap.
-/
import Keyring.Proofs.Bitwarden.Session.Moves

namespace Keyring.Bitwarden

variable {env : Env} {i j : CallId} {now : Instant} {s s' : BitwardenSession env}
  {pc pc' : Pc} {input : Input env.Body} {events : List Event}
  {w w' : World env}

/-! ### Places -/

/-- The head of the loop is a read, or past the end of the loop. -/
theorem attempt_elim {P : Pc → Prop} (hread : ∀ n, P (.read false n))
    (hend : P (.panicked .unreachable)) (n : Nat) : P (.attempt n) := by
  unfold Pc.attempt
  split
  · exact hread n
  · exact hend

/-- A login returns to the head of the loop. -/
theorem resume_elim {P : Pc → Prop} (hread : ∀ n, P (.read false n))
    (hend : P (.panicked .unreachable)) (caller : Caller) : P (.resume caller) := by
  cases caller with
  | token => exact attempt_elim hread hend 0
  | sync n t => exact attempt_elim hread hend (n + 1)

/-- No guard is held there. -/
@[simp] theorem holdsState_attempt (n : Nat) : (Pc.attempt n).holdsState = false :=
  attempt_elim (P := fun pc => pc.holdsState = false) (fun _ => rfl) rfl n

@[simp] theorem holdsGate_attempt (n : Nat) : (Pc.attempt n).holdsGate = false :=
  attempt_elim (P := fun pc => pc.holdsGate = false) (fun _ => rfl) rfl n

@[simp] theorem inLogin_attempt (n : Nat) : (Pc.attempt n).inLogin = false :=
  attempt_elim (P := fun pc => pc.inLogin = false) (fun _ => rfl) rfl n

@[simp] theorem holdsState_resume (caller : Caller) : (Pc.resume caller).holdsState = false :=
  resume_elim (P := fun pc => pc.holdsState = false) (fun _ => rfl) rfl caller

@[simp] theorem holdsGate_resume (caller : Caller) : (Pc.resume caller).holdsGate = false :=
  resume_elim (P := fun pc => pc.holdsGate = false) (fun _ => rfl) rfl caller

@[simp] theorem inLogin_resume (caller : Caller) : (Pc.resume caller).inLogin = false :=
  resume_elim (P := fun pc => pc.inLogin = false) (fun _ => rfl) rfl caller

theorem attempt_ne_done (n : Nat) (outcome : Outcome) : Pc.attempt n ≠ .done outcome :=
  attempt_elim (P := fun pc => pc ≠ .done outcome) (by simp) (by simp) n

theorem resume_ne_done (caller : Caller) (outcome : Outcome) :
    Pc.resume caller ≠ .done outcome :=
  resume_elim (P := fun pc => pc ≠ .done outcome) (by simp) (by simp) caller

theorem holdsGate_of_inLogin (h : pc.inLogin = true) : pc.holdsGate = true := by
  cases pc <;> first | rfl | exact absurd h (by decide) | exact h

/-! ### The state lock -/

theorem AwaitsState.before (h : AwaitsState pc pc') : pc.holdsState = false := by
  cases h <;> rfl

theorem AwaitsState.after (h : AwaitsState pc pc') : pc'.holdsState = true := by
  cases h <;> rfl

theorem AwaitsState.gate (h : AwaitsState pc pc') : pc'.holdsGate = pc.holdsGate := by
  cases h <;> rfl

theorem AwaitsGate.before (h : AwaitsGate pc pc') : pc.holdsGate = false := by
  cases h <;> rfl

theorem AwaitsGate.after (h : AwaitsGate pc pc') : pc'.holdsGate = true := by
  cases h <;> rfl

theorem AwaitsGate.state (h : AwaitsGate pc pc') : pc'.holdsState = pc.holdsState := by
  cases h <;> rfl

theorem Checks.holdsState (h : Checks pc) : pc.holdsState = true := by
  cases h <;> rfl

/-- Dropping a call moves both locks the way its guards say. -/
theorem dropGuards_state (s : BitwardenSession env) (pc : Pc) :
    Mutex.Moved i pc.holdsState false s.state (s.dropGuards pc).state := by
  unfold BitwardenSession.dropGuards
  cases pc.holdsState <;> cases pc.holdsGate <;> rfl

theorem dropGuards_gate (s : BitwardenSession env) (pc : Pc) :
    Mutex.Moved i pc.holdsGate false s.gate (s.dropGuards pc).gate := by
  unfold BitwardenSession.dropGuards
  cases pc.holdsState <;> cases pc.holdsGate <;> rfl

@[simp] theorem dropGuards_value (s : BitwardenSession env) (pc : Pc) :
    (s.dropGuards pc).state.value = s.state.value := by
  unfold BitwardenSession.dropGuards
  cases pc.holdsState <;> cases pc.holdsGate <;> rfl

@[simp] theorem dropGuards_store (s : BitwardenSession env) (pc : Pc) :
    (s.dropGuards pc).store = s.store := by
  unfold BitwardenSession.dropGuards
  cases pc.holdsState <;> cases pc.holdsGate <;> rfl

/-- A step moves the state lock the way the call's own guard moves. -/
theorem Move.state_moved (h : Move env i now s pc input s' pc' events) :
    Mutex.Moved i pc.holdsState pc'.holdsState s.state s'.state := by
  cases h with
  | takeState hpc hfree =>
      rw [hpc.before, hpc.after]
      exact ⟨hfree, rfl⟩
  | takeGate hpc hfree =>
      rw [hpc.state]
      cases pc.holdsState <;> rfl
  | overflow hpc hstale => exact dropGuards_state s pc
  | fresh hpc hstale => exact dropGuards_state s pc
  | cancel hpc => exact dropGuards_state s pc
  | published =>
      rw [holdsState_resume]
      rfl
  | replaced hn htoken =>
      rw [holdsState_attempt]
      rfl
  | _ => rfl

/-- A step moves the gate the way the call's own guard moves. -/
theorem Move.gate_moved (h : Move env i now s pc input s' pc' events) :
    Mutex.Moved i pc.holdsGate pc'.holdsGate s.gate s'.gate := by
  cases h with
  | takeState hpc hfree =>
      rw [hpc.gate]
      cases pc.holdsGate <;> rfl
  | takeGate hpc hfree =>
      rw [hpc.before, hpc.after]
      exact ⟨hfree, rfl⟩
  | overflow hpc hstale => exact dropGuards_gate s pc
  | fresh hpc hstale => exact dropGuards_gate s pc
  | cancel hpc => exact dropGuards_gate s pc
  | published =>
      rw [holdsGate_resume]
      rfl
  | replaced hn htoken =>
      rw [holdsGate_attempt]
      rfl
  | _ => rfl

/-- The locks and the places agree. -/
structure LocksAgree (w : World env) : Prop where
  state : w.session.state.Held fun i => (w.calls i).holdsState
  gate : w.session.gate.Held fun i => (w.calls i).holdsGate

/-- A step of the world keeps the locks and the places together. -/
theorem LocksAgree.step {a : Action env.Body} (hI : LocksAgree w) (h : w.step a = some w') :
    LocksAgree w' := by
  refine step_keeps ?_ ?_ ?_ hI h
  · intro i input s' pc' events hI hm
    exact ⟨hI.state.moved_place hm.state_moved, hI.gate.moved_place hm.gate_moved⟩
  · intro now _ hI
    exact ⟨hI.state, hI.gate⟩
  · intro profile hI
    exact ⟨hI.state, hI.gate⟩

/-- **Every guard is where the program has it.** -/
theorem locksAgree (h : (sessionMachine env).Reachable w) : LocksAgree w := by
  refine h.invariant ?_ ?_
  · rintro w ⟨clock, rfl⟩
    exact ⟨Mutex.held_new _ fun _ => rfl, Mutex.held_new _ fun _ => rfl⟩
  · intro w w' a _ hI hstep
    exact hI.step hstep

/-- At most one call has the gate. -/
theorem gate_unique (h : (sessionMachine env).Reachable w) (hi : (w.calls i).holdsGate = true)
    (hj : (w.calls j).holdsGate = true) : i = j :=
  (locksAgree h).gate.unique hi hj

/-- At most one call has the state. -/
theorem state_unique (h : (sessionMachine env).Reachable w)
    (hi : (w.calls i).holdsState = true) (hj : (w.calls j).holdsState = true) : i = j :=
  (locksAgree h).state.unique hi hj

/-! ### What a step changes -/

/-- No publication is among the events. -/
def Quiet (events : List Event) : Prop := ∀ t exp, .published t exp ∉ events

/-- The authentication state is written by an invalidation or by a publication. -/
theorem Move.auth_cases (h : Move env i now s pc input s' pc' events) :
    (s'.state.value = s.state.value ∧ Quiet events) ∨
      (∃ n t, pc = .invalidate true n t ∧ input = .go ∧
        s'.state.value = s.state.value.invalidate t ∧ Quiet events) ∨
      ∃ caller r exp, pc = .publish true caller r exp ∧ pc' = .resume caller ∧
        events = .published r.accessToken exp :: caller.returned ∧
        s'.state.value = ⟨some r.accessToken, some exp, true⟩ := by
  have hnil : Quiet [] := fun _ _ => List.not_mem_nil
  have hone : ∀ {e : Event}, (∀ t exp, e ≠ .published t exp) → Quiet [e] :=
    fun he t exp hmem => he t exp (List.mem_singleton.mp hmem).symm
  cases h with
  | published => exact Or.inr (Or.inr ⟨_, _, _, rfl, rfl, rfl, rfl⟩)
  | givenUp => exact Or.inr (Or.inl ⟨_, _, rfl, rfl, rfl, hnil⟩)
  | retry hn htoken => exact Or.inr (Or.inl ⟨_, _, rfl, rfl, rfl, hone (by simp)⟩)
  | replaced hn htoken => exact Or.inr (Or.inl ⟨_, _, rfl, rfl, rfl, hone (by simp)⟩)
  | overflow hpc hstale => exact Or.inl ⟨dropGuards_value s pc, hnil⟩
  | fresh hpc hstale => exact Or.inl ⟨dropGuards_value s pc, hnil⟩
  | cancel hpc =>
      refine Or.inl ⟨dropGuards_value s pc, ?_⟩
      intro t exp hmem
      split at hmem <;> exact absurd hmem (by simp)
  | refused hevents hx =>
      refine Or.inl ⟨rfl, ?_⟩
      intro t exp hmem
      cases hevents <;> exact absurd hmem (by simp)
  | renew hstale => exact Or.inl ⟨rfl, hone (by simp)⟩
  | issued hx hexp => exact Or.inl ⟨rfl, hone (by simp)⟩
  | bootstrapFailed hinit => exact Or.inl ⟨rfl, hone (by simp)⟩
  | presented htoken => exact Or.inl ⟨rfl, hone (by simp)⟩
  | rejected => exact Or.inl ⟨rfl, hone (by simp)⟩
  | _ => exact Or.inl ⟨rfl, hnil⟩

/-- The key store is written by the bootstrap. -/
theorem Move.store_cases (h : Move env i now s pc input s' pc' events) :
    s'.store = s.store ∨ ∃ r, s'.store =
      (initializeUserCrypto env.crypto s.store env.password r).2 := by
  cases h with
  | bootstrapFailed hinit => exact Or.inr ⟨_, rfl⟩
  | bootstrapped hinit => exact Or.inr ⟨_, rfl⟩
  | overflow hpc hstale => exact Or.inl (dropGuards_store s pc)
  | fresh hpc hstale => exact Or.inl (dropGuards_store s pc)
  | cancel hpc => exact Or.inl (dropGuards_store s pc)
  | _ => exact Or.inl rfl

/-- An invalidation clears the token and its expiry, or nothing. -/
theorem invalidate_cases (auth : Auth) (t : String) :
    auth.token = some t ∧ auth.invalidate t = ⟨none, none, auth.crypto⟩ ∨
      auth.token ≠ some t ∧ auth.invalidate t = auth := by
  unfold Auth.invalidate
  by_cases ht : auth.token = some t
  · exact Or.inl ⟨ht, by rw [if_pos ht]⟩
  · exact Or.inr ⟨ht, by rw [if_neg ht]⟩

@[simp] theorem invalidate_crypto (auth : Auth) (t : String) :
    (auth.invalidate t).crypto = auth.crypto := by
  rcases invalidate_cases auth t with ⟨-, h⟩ | ⟨-, h⟩ <;> rw [h]

theorem invalidate_token_ne (auth : Auth) (t : String) :
    (auth.invalidate t).token ≠ some t := by
  rcases invalidate_cases auth t with ⟨-, h⟩ | ⟨hne, h⟩
  · rw [h]
    simp
  · rw [h]
    exact hne

/-- A login begins when the token is stale, or when the one that was rejected is gone. -/
theorem Move.begins (h : Move env i now s pc input s' pc' events)
    (hout : pc.inLogin = false) (hin : pc'.inLogin = true) :
    events = [.loginBegan now] ∧ pc.holdsGate = true ∧
      (s'.state.value = s.state.value ∧ s.state.value.stale env.lastInstant now = some true ∨
        s'.state.value.token = none) := by
  cases h with
  | renew hstale => exact ⟨rfl, rfl, Or.inl ⟨rfl, hstale⟩⟩
  | retry hn htoken => exact ⟨rfl, rfl, Or.inr htoken⟩
  | takeState hpc hfree =>
      have hsame : pc'.inLogin = pc.inLogin := by cases hpc <;> rfl
      rw [hsame, hout] at hin
      exact absurd hin (by simp)
  | takeGate hpc hfree => cases hpc <;> exact absurd hin (by simp [Pc.inLogin])
  | published => exact absurd hout (by simp [Pc.inLogin])
  | replaced hn htoken => exact absurd hin (by simp)
  | issued hx hexp => exact absurd hout (by simp [Pc.inLogin])
  | locked hcrypto => exact absurd hout (by simp [Pc.inLogin])
  | unlocked hcrypto => exact absurd hout (by simp [Pc.inLogin])
  | bootstrapped hinit => exact absurd hout (by simp [Pc.inLogin])
  | _ => exact absurd hin (by simp [Pc.inLogin])

/-- The two ways to be stale. -/
theorem stale_eq_true {auth : Auth} {limit : Instant}
    (h : auth.stale limit now = some true) :
    auth.exp = none ∨ ∃ exp, auth.exp = some exp ∧ exp ≤ now + tokenRenewalWindow := by
  unfold Auth.stale at h
  cases hexp : auth.exp with
  | none => exact Or.inl rfl
  | some exp =>
      simp only [hexp, Option.map_eq_some_iff, decide_eq_true_eq] at h
      obtain ⟨t, ht, hle⟩ := h
      obtain ⟨-, rfl⟩ := checkedAdd_eq_some.mp ht
      exact Or.inr ⟨exp, rfl, hle⟩

end Keyring.Bitwarden
