/-
When an attempt finds a token, and when it does not.

The freshness check and the token read are two critical sections.  Another call whose
token was just rejected can clear it in between, and then the read finds nothing,
although the recovery that follows would have brought a token.  The clearing step is the
only one that can do this.  A run without such a step finds a token at every read, and a
run with one has taken it under a call that needs two more steps to fail.
-/
import Keyring.Proofs.Bitwarden.Session.Publication

namespace Keyring.Bitwarden

variable {env : Env} {i j : CallId} {now : Instant} {s s' : BitwardenSession env}
  {pc pc' : Pc} {input : Input env.Body} {events : List Event} {w w' : World env}

/-- The step clears the published token while a call has yet to read it. -/
def ClearsUnderReader (w : World env) (a : Action env.Body) : Prop :=
  ∃ i n t, a = .call i .go ∧ w.calls i = .invalidate true n t ∧
    w.session.state.value.token = some t ∧ ∃ j held m, w.calls j = .read held m

/-- The step leaves every call that has yet to read the token its token. -/
def SparesReaders (w : World env) (a : Action env.Body) : Prop := ¬ClearsUnderReader w a

/-- Every attempt that is about to read the token finds one, and none has failed for lack
of it. -/
structure TokenAtEveryRead (w : World env) : Prop where
  published : ∀ j held m, w.calls j = .read held m →
    ∃ t, w.session.state.value.token = some t
  never : ∀ j, w.calls j ≠ .done (.err .missingAccessToken)

theorem exp_of_fresh {auth : Auth} {limit : Instant}
    (h : auth.stale limit now = some false) : auth.exp ≠ none := by
  intro hnone
  rw [Auth.stale, hnone] at h
  exact absurd h (by simp)

/-- A call gets to its token read from a state with authentication, or was there before. -/
theorem Move.enters_read (h : Move env i now s pc input s' pc' events) {held : Bool} {n : Nat}
    (hpc' : pc' = .read held n) :
    pc = .read false n ∨ s'.state.value.exp ≠ none ∨ s'.state.value.token ≠ none := by
  cases h with
  | takeState hpc hfree =>
      subst hpc'
      cases hpc
      exact Or.inl rfl
  | takeGate hpc hfree =>
      subst hpc'
      cases hpc
  | fresh hpc hstale =>
      rw [dropGuards_value]
      exact Or.inr (Or.inl (exp_of_fresh hstale))
  | published => exact Or.inr (Or.inr (Option.some_ne_none _))
  | replaced hn htoken =>
      refine Or.inr (Or.inr ?_)
      show (s.state.value.invalidate _).token ≠ none
      rw [htoken]
      exact Option.some_ne_none _
  | _ => exact absurd hpc' (by simp)

theorem finish_ne (x : Except String env.Body) :
    finish env x ≠ .err .missingAccessToken := by
  unfold finish
  split
  · simp
  · split <;> simp

/-- A call fails for lack of a token only where it reads the token. -/
theorem Move.enters_missing (h : Move env i now s pc input s' pc' events)
    (hpc' : pc' = .done (.err .missingAccessToken)) :
    ∃ n, pc = .read true n ∧ s.state.value.token = none := by
  cases h with
  | missing htoken => exact ⟨_, rfl, htoken⟩
  | takeState hpc hfree =>
      subst hpc'
      cases hpc
  | takeGate hpc hfree =>
      subst hpc'
      cases hpc
  | failed hx hsome hcode => exact absurd hpc' (by simpa using hsome)
  | finished => exact absurd (Pc.done.inj hpc') (finish_ne _)
  | published => exact absurd hpc' (resume_ne_done _ _)
  | replaced hn htoken => exact absurd hpc' (attempt_ne_done _ _)
  | _ => exact absurd hpc' (by simp)

/-- A step that spares the readers leaves each of them its token. -/
theorem TokenAtEveryRead.moved (hI : TokenAtEveryRead w)
    (hr : (sessionMachine env).Reachable (w.moved i s' pc' events))
    (hspare : SparesReaders w (.call i input))
    (hm : Move env i w.clock w.session (w.calls i) input s' pc' events) :
    TokenAtEveryRead (w.moved i s' pc' events) := by
  have hkept : ∀ {j held m}, w.calls j = .read held m → s'.state.value.token ≠ none := by
    intro j held m hread
    obtain ⟨t, ht⟩ := hI.published j held m hread
    rcases hm.auth_cases with ⟨hsame, -⟩ | ⟨n, t', hpc, rfl, hinv, -⟩ | ⟨caller, r, exp, -, -, -, hpub⟩
    · rw [hsame, ht]
      exact Option.some_ne_none t
    · rcases invalidate_cases w.session.state.value t' with ⟨hclear, -⟩ | ⟨-, hsame⟩
      · exact absurd ⟨i, n, t', rfl, hpc, hclear, j, held, m, hread⟩ hspare
      · rw [hinv, hsame, ht]
        exact Option.some_ne_none t
    · rw [hpub]
      exact Option.some_ne_none r.accessToken
  constructor
  · intro j held m hread
    rw [moved_calls] at hread
    refine Option.ne_none_iff_exists'.mp ?_
    by_cases hji : j = i
    · subst hji
      rw [Function.update_self] at hread
      rcases hm.enters_read hread with hbefore | hexp | htoken
      · exact hkept hbefore
      · exact fun hnone => hexp ((authInv hr).cleared hnone)
      · exact htoken
    · rw [Function.update_of_ne hji] at hread
      exact hkept hread
  · intro j hmissing
    rw [moved_calls] at hmissing
    by_cases hji : j = i
    · subst hji
      rw [Function.update_self] at hmissing
      obtain ⟨n, hread, hnone⟩ := hm.enters_missing hmissing
      obtain ⟨t, ht⟩ := hI.published j true n hread
      exact absurd (hnone.symm.trans ht) (by simp)
    · rw [Function.update_of_ne hji] at hmissing
      exact hI.never j hmissing

/-- A run that spares the readers has a token at every read. -/
theorem tokenAtEveryRead_of_spares
    (h : ((sessionMachine env).restrict SparesReaders).Reachable w) : TokenAtEveryRead w := by
  refine h.invariant ?_ ?_
  · rintro w ⟨clock, rfl⟩
    exact ⟨fun _ _ _ hread => absurd hread (by simp [World.start]), fun _ => by
      simp [World.start]⟩
  · intro w w' a hr hI hboth
    obtain ⟨hspare, hstep⟩ := hboth
    have hr' : (sessionMachine env).Reachable w' := hr.of_restrict.step hstep
    cases a with
    | call i input =>
        obtain ⟨s', pc', events, hm, rfl⟩ := step_call hstep
        exact hI.moved hr' hspare hm
    | tick now =>
        obtain ⟨-, rfl⟩ := step_tick hstep
        exact ⟨hI.published, hI.never⟩
    | initOrgs profile =>
        obtain rfl := step_initOrgs hstep
        exact ⟨hI.published, hI.never⟩

/-- What the invalidating section leaves of the state lock and its value. -/
theorem Move.invalidates {n : Nat} {t : String}
    (h : Move env i now s (.invalidate true n t) .go s' pc' events) :
    s'.state = (s.state.set (s.state.value.invalidate t)).unlock := by
  cases h with
  | takeState hpc _ => cases hpc
  | takeGate hpc _ => cases hpc
  | overflow hpc _ => cases hpc
  | fresh hpc _ => cases hpc
  | givenUp => rfl
  | retry _ _ => rfl
  | replaced _ _ => rfl

/-- A call whose token is gone fails in two steps. -/
theorem exec_missing {m : Nat} (hread : w.calls j = .read false m)
    (hfree : w.session.state.holder = none) (hnone : w.session.state.value.token = none) :
    ∃ w', Machine.exec World.step w [.call j .go, .call j .go] = some w' ∧
      w'.calls j = .done (.err .missingAccessToken) := by
  let locked := w.moved j { w.session with state := { w.session.state with holder := some j } }
    (.read true m) []
  have hlock : w.step (.call j .go) = some locked := by
    rw [World.step, hread, advance, lockState_of_free hfree]
    rfl
  have hcalls : locked.calls j = .read true m := Function.update_self j _ _
  have hfail : locked.step (.call j .go) =
      some (locked.moved j locked.session.unlockState (.done (.err .missingAccessToken)) []) := by
    have htoken : locked.session.state.value.token = none := hnone
    rw [World.step, hcalls, advance, htoken]
    rfl
  refine ⟨locked.moved j locked.session.unlockState (.done (.err .missingAccessToken)) [], ?_,
    Function.update_self j _ _⟩
  rw [Machine.exec, hlock, Option.bind_some, Machine.exec, hfail]
  rfl

/-- A step that does not spare them lets one of them fail, two steps of its own later. -/
theorem missing_of_clears {a : Action env.Body} (hr : (sessionMachine env).Reachable w)
    (hclear : ClearsUnderReader w a) (hstep : w.step a = some w') :
    ∃ j w'', Machine.exec World.step w' [.call j .go, .call j .go] = some w'' ∧
      w''.calls j = .done (.err .missingAccessToken) := by
  obtain ⟨i, n, t, rfl, hpc, ht, j, held, m, hread⟩ := hclear
  have hji : j ≠ i := by
    rintro rfl
    rw [hpc] at hread
    exact absurd hread (by simp)
  have hheld : held = false := by
    by_contra hc
    rw [Bool.not_eq_false] at hc
    subst hc
    exact hji (state_unique hr (by rw [hread]; rfl) (by rw [hpc]; rfl))
  subst hheld
  obtain ⟨s', pc', events, hm, rfl⟩ := step_call hstep
  rw [hpc] at hm
  have hstate := hm.invalidates
  refine ⟨j, exec_missing (m := m) ?_ ?_ ?_⟩
  · rw [moved_calls, Function.update_of_ne hji, hread]
  · rw [moved_session, hstate]
    rfl
  · rw [moved_session, hstate]
    show (w.session.state.value.invalidate t).token = none
    rw [Auth.invalidate, if_pos ht]

/-- **A token is there at every read exactly as long as none is taken under a reader**:
in a run whose steps all spare the readers no call fails for lack of a token, and a step
that does not spare them has made such a failure possible. -/
theorem session_token_at_every_read (env : Env) :
    (∀ w, ((sessionMachine env).restrict SparesReaders).Reachable w → TokenAtEveryRead w) ∧
      ∀ w a w', (sessionMachine env).Reachable w → w.step a = some w' →
        ¬SparesReaders w a →
          ∃ j w'', Machine.exec World.step w' [.call j .go, .call j .go] = some w'' ∧
            w''.calls j = .done (.err .missingAccessToken) := by
  refine ⟨fun w h => tokenAtEveryRead_of_spares h, ?_⟩
  intro w a w' hr hstep hclear
  exact missing_of_clears hr (not_not.mp hclear) hstep

/-! ### Two runs -/

/-- A test that only steps without an invalidation pass. -/
def noInvalidation (w : World env) : Action env.Body → Bool
  | .call i _ =>
      match w.calls i with
      | .invalidate _ _ _ => false
      | _ => true
  | _ => true

theorem sparesReaders_of_noInvalidation (w : World env) (a : Action env.Body)
    (h : noInvalidation w a = true) : SparesReaders w a := by
  rintro ⟨i, n, t, rfl, hpc, -⟩
  simp [noInvalidation, hpc] at h

/-- A first call reads its token. -/
theorem session_token_at_first_read : ∃ w : World plainEnv,
    w.calls 0 = .read true 0 ∧ TokenAtEveryRead w := by
  let run := Run.go 0 6 ++ Run.login 0 "token" true ++ Run.go 0 1
  have hrun : (Machine.execWhile noInvalidation World.step (World.start plainEnv 0) run).any
      (fun w => w.calls 0 == .read true 0) = true := by decide
  obtain ⟨w, hw, hp⟩ := (Option.any_eq_true _ _).mp hrun
  exact ⟨w, beq_iff_eq.mp hp, (session_token_at_every_read plainEnv).1 w
    (Machine.restrict_reachable_of_exec sparesReaders_of_noInvalidation run ⟨0, rfl⟩ hw)⟩

/-- Call 0 is rejected and clears the token after call 1 has found it fresh.  Call 1 fails,
although the login of call 0 succeeds and nothing is cancelled. -/
def Run.race : List (Action Reply) :=
  firstSync 0 "old" ++ go 1 3 ++ answer 0 .unauthorized ++ go 0 3 ++ go 1 2 ++
    login 0 "new" false

theorem session_missing_token : ∃ w : World plainEnv,
    (sessionMachine plainEnv).Reachable w ∧
      w.log.map Prod.snd = [.loginBegan 0, .issued (plainToken "old") 0,
        .published "old" (fromSecs 3600), .presented 0 "old", .rejected 0 "old",
        .loginBegan 0, .issued (plainToken "new") 0, .published "new" (fromSecs 3600),
        .recovered] ∧
      w.calls 1 = .done (.err .missingAccessToken) := by
  obtain ⟨w, hr, hp⟩ := reachable_of_run plainEnv Run.race
    (fun w => w.log.map Prod.snd == [.loginBegan 0, .issued (plainToken "old") 0,
        .published "old" (fromSecs 3600), .presented 0 "old", .rejected 0 "old",
        .loginBegan 0, .issued (plainToken "new") 0, .published "new" (fromSecs 3600),
        .recovered] && w.calls 1 == .done (.err .missingAccessToken)) (by decide)
  have hp' := Bool.and_eq_true_iff.mp hp
  exact ⟨w, hr, beq_iff_eq.mp hp'.1, beq_iff_eq.mp hp'.2⟩

end Keyring.Bitwarden
