/-
A rejected token is spent, and so is the call after two attempts.

A 401 may be handled long after it was received, so what matters is that handling it
compares tokens.  It clears the token it is about or nothing, and where the identity
endpoint never issues a token twice nothing can bring that token back.  A retry therefore
presents another token, and a call that gives up leaves its last token unpublished.
-/
import Keyring.Proofs.Bitwarden.Session.Login

namespace Keyring.Bitwarden

variable {env : Env} {i j : CallId} {now : Instant} {s s' : BitwardenSession env}
  {pc pc' : Pc} {input : Input env.Body} {events : List Event} {w w' : World env}
  {r : BitwardenTokenSuccessResponse} {exp : Instant}

/-! ### Handling a 401 -/

/-- During the login of a recovery no token is published. -/
def RecoveryInv (w : World env) : Prop :=
  ∀ i n t, (w.calls i).inLogin = true → (w.calls i).handles = some (n, t) →
    w.session.state.value.token = none

/-- A login keeps its caller. -/
theorem Move.login_handles (h : Move env i now s pc input s' pc' events)
    (hin : pc.inLogin = true) (hstill : pc'.inLogin = true) :
    pc'.handles = pc.handles ∧ s'.state.value = s.state.value := by
  cases h with
  | takeState hpc hfree => exact ⟨hpc.counts.2.2.2.1, rfl⟩
  | takeGate hpc hfree => exact absurd hstill (by cases hpc <;> simp [Pc.inLogin])
  | issued hx hexp => exact ⟨rfl, rfl⟩
  | locked hcrypto => exact ⟨rfl, rfl⟩
  | unlocked hcrypto => exact ⟨rfl, rfl⟩
  | bootstrapped hinit => exact ⟨rfl, rfl⟩
  | renew hstale => exact absurd hin (by simp [Pc.inLogin])
  | retry hn htoken => exact absurd hin (by simp [Pc.inLogin])
  | published => exact absurd hstill (by simp)
  | replaced hn htoken => exact absurd hstill (by simp)
  | _ => exact absurd hstill (by simp [Pc.inLogin])

/-- A login that begins for a recovery begins without a token. -/
theorem Move.recovery_begins {n : Nat} {t : String}
    (h : Move env i now s pc input s' pc' events) (hout : pc.inLogin = false)
    (hin : pc'.inLogin = true) (hh : pc'.handles = some (n, t)) :
    s'.state.value.token = none := by
  cases h with
  | renew hstale => exact absurd hh (by simp [Pc.handles, Caller.handles])
  | retry hn htoken => exact htoken
  | takeState hpc hfree =>
      have hsame : pc'.inLogin = pc.inLogin := by cases hpc <;> rfl
      rw [hsame, hout] at hin
      exact absurd hin (by simp)
  | takeGate hpc hfree => exact absurd hin (by cases hpc <;> simp [Pc.inLogin])
  | issued hx hexp => exact absurd hout (by simp [Pc.inLogin])
  | locked hcrypto => exact absurd hout (by simp [Pc.inLogin])
  | unlocked hcrypto => exact absurd hout (by simp [Pc.inLogin])
  | bootstrapped hinit => exact absurd hout (by simp [Pc.inLogin])
  | published => exact absurd hin (by simp)
  | replaced hn htoken => exact absurd hin (by simp)
  | _ => exact absurd hin (by simp [Pc.inLogin])

theorem recoveryInv (h : (sessionMachine env).Reachable w) : RecoveryInv w := by
  refine h.invariant ?_ ?_
  · rintro w ⟨clock, rfl⟩ i n t hin
    exact absurd hin (by simp [World.start, Pc.inLogin])
  · intro w w' a hr hI hstep i n t hin hh
    by_cases ha : ∃ input, a = .call i input
    · obtain ⟨input, rfl⟩ := ha
      obtain ⟨s', pc', events, hm, rfl⟩ := step_call hstep
      rw [moved_calls, Function.update_self] at hin hh
      by_cases hbefore : (w.calls i).inLogin = true
      · obtain ⟨hhandles, hvalue⟩ := hm.login_handles hbefore hin
        rw [moved_session, hvalue]
        exact hI i n t hbefore (hhandles.symm.trans hh)
      · exact hm.recovery_begins (by simpa using hbefore) hin hh
    · -- somebody else's step leaves this call, and what it froze, alone
      have hother : ∀ input, a ≠ .call i input := fun input hc => ha ⟨input, hc⟩
      have hcall : w'.calls i = w.calls i := by
        cases a with
        | call j input =>
            obtain ⟨s', pc', events, hm, rfl⟩ := step_call hstep
            have hij : i ≠ j := by
              rintro rfl
              exact hother input rfl
            rw [moved_calls, Function.update_of_ne hij]
        | tick now =>
            obtain ⟨-, rfl⟩ := step_tick hstep
            rfl
        | initOrgs profile =>
            obtain rfl := step_initOrgs hstep
            rfl
      rw [hcall] at hin hh
      rw [auth_frozen hr hin hother hstep]
      exact hI i n t hin hh

/-- **Handling a 401 about one token leaves any other published token alone.** -/
theorem handling_spares (hr : (sessionMachine env).Reachable w) {n : Nat} {t t' : String}
    (hh : (w.calls i).handles = some (n, t)) (hstep : w.step (.call i input) = some w')
    (ht' : w.session.state.value.token = some t') (hne : t' ≠ t) :
    w'.session.state.value.token = some t' ∧
      w'.session.state.value.exp = w.session.state.value.exp := by
  obtain ⟨s', pc', events, hm, rfl⟩ := step_call hstep
  rw [moved_session]
  rcases hm.auth_cases with ⟨hsame, -⟩ | ⟨m, u, hpc, -, hinv, -⟩ | ⟨caller, r, exp, hpc, -⟩
  · rw [hsame]
    exact ⟨ht', rfl⟩
  · rw [hpc] at hh
    obtain ⟨rfl, rfl⟩ := Prod.mk.inj (Option.some.inj hh)
    have hother : ¬w.session.state.value.token = some u := by
      rw [ht']
      exact fun hc => hne (Option.some.inj hc)
    rw [hinv, Auth.invalidate, if_neg hother]
    exact ⟨ht', rfl⟩
  · have hnone := recoveryInv hr i n t (by rw [hpc]; rfl) hh
    exact absurd (hnone.symm.trans ht') (by simp)

/-! ### Spent tokens -/

/-- The tokens the identity endpoint has issued. -/
def issuedTokens (log : List (CallId × Event)) : List String :=
  log.filterMap fun x =>
    match x.2 with
    | .issued r _ => some r.accessToken
    | _ => none

theorem issuedTokens_append (l new : List (CallId × Event)) :
    issuedTokens (l ++ new) = issuedTokens l ++ issuedTokens new := List.filterMap_append

theorem mem_issuedTokens {log : List (CallId × Event)} (h : (i, .issued r now) ∈ log) :
    r.accessToken ∈ issuedTokens log := by
  unfold issuedTokens
  exact List.mem_filterMap.mpr ⟨_, h, rfl⟩

/-- Some login has published the token. -/
def Published (log : List (CallId × Event)) (t : String) : Prop :=
  ∃ i exp, (i, .published t exp) ∈ log

theorem Published.append {log : List (CallId × Event)} {t : String} (h : Published log t)
    (new : List (CallId × Event)) : Published (log ++ new) t := by
  obtain ⟨i, exp, hmem⟩ := h
  exact ⟨i, exp, List.mem_append_left new hmem⟩

/-- The rejection the call has yet to act on. -/
def Pc.invalidating : Pc → Option (Nat × String)
  | .rejected n t | .invalidate _ n t => some (n, t)
  | _ => none

/-- The token a request was sent with, as long as its answer is awaited or acted on. -/
def Pc.sentToken : Pc → Option String
  | .send _ t | .rejected _ t | .invalidate _ _ t => some t
  | _ => none

/-- Where tokens come from and where they have gone. -/
structure TokenInv (w : World env) : Prop where
  issued : ∀ t, Published w.log t → t ∈ issuedTokens w.log
  current : ∀ t, w.session.state.value.token = some t → Published w.log t
  sent : ∀ i t, (w.calls i).sentToken = some t → Published w.log t
  pending : ∀ i r exp, (w.calls i).carries = some (r, exp) → ¬Published w.log r.accessToken
  past : ∀ i n t, (i, .rejected n t) ∈ w.log → Published w.log t
  spent : ∀ i n t, (i, .rejected n t) ∈ w.log → (w.calls i).invalidating = some (n, t) ∨
    w.calls i = .cancelled ∨ w.session.state.value.token ≠ some t

theorem inLogin_of_carries (h : pc.carries = some (r, exp)) : pc.inLogin = true := by
  cases pc with
  | ready held caller r exp | bootstrap caller r exp | publish held caller r exp => rfl
  | _ => exact absurd h (by simp [Pc.carries])

/-- Only a publication makes a token a published one. -/
theorem published_of_quiet {log : List (CallId × Event)} {t : String} (hquiet : Quiet events)
    (h : Published (log ++ events.map fun e => (i, e)) t) : Published log t := by
  obtain ⟨k, exp, hmem⟩ := h
  rcases List.mem_append.mp hmem with hold | hnew
  · exact ⟨k, exp, hold⟩
  · exact absurd ⟨t, exp, rfl⟩ (hquiet.entries _ hnew)

theorem Move.sentToken_cases {t : String} (h : Move env i now s pc input s' pc' events)
    (hs : pc'.sentToken = some t) :
    pc.sentToken = some t ∨ s.state.value.token = some t := by
  cases h with
  | takeState hpc hfree => cases hpc <;> exact Or.inl hs
  | takeGate hpc hfree => cases hpc <;> exact Or.inl hs
  | presented htoken =>
      obtain rfl := Option.some.inj hs
      exact Or.inr htoken
  | rejected => exact Or.inl hs
  | published =>
      refine absurd hs (resume_elim (P := fun pc => pc.sentToken ≠ some t) ?_ ?_ _)
      · simp [Pc.sentToken]
      · simp [Pc.sentToken]
  | replaced hn htoken =>
      refine absurd hs (attempt_elim (P := fun pc => pc.sentToken ≠ some t) ?_ ?_ _)
      · simp [Pc.sentToken]
      · simp [Pc.sentToken]
  | _ => exact absurd hs (by simp [Pc.sentToken])

/-- A rejection that is acted on takes the token out. -/
theorem Move.invalidating_cases {n : Nat} {t : String}
    (h : Move env i now s pc input s' pc' events) (hi : pc.invalidating = some (n, t)) :
    pc'.invalidating = some (n, t) ∨ pc' = .cancelled ∨ s'.state.value.token ≠ some t := by
  cases h with
  | takeState hpc hfree => cases hpc <;> exact Or.inl hi
  | takeGate hpc hfree => cases hpc <;> exact Or.inl hi
  | overflow hpc hstale => cases hpc <;> exact absurd hi (by simp [Pc.invalidating])
  | fresh hpc hstale => cases hpc <;> exact absurd hi (by simp [Pc.invalidating])
  | cancel hpc => exact Or.inr (Or.inl rfl)
  | givenUp =>
      obtain ⟨-, rfl⟩ := Prod.mk.inj (Option.some.inj hi)
      exact Or.inr (Or.inr (invalidate_token_ne _ _))
  | retry hn htoken =>
      obtain ⟨-, rfl⟩ := Prod.mk.inj (Option.some.inj hi)
      exact Or.inr (Or.inr (invalidate_token_ne _ _))
  | replaced hn htoken =>
      obtain ⟨-, rfl⟩ := Prod.mk.inj (Option.some.inj hi)
      exact Or.inr (Or.inr (invalidate_token_ne _ _))
  | _ => exact absurd hi (by simp [Pc.invalidating])

/-- A published token that is not current does not become current again. -/
theorem TokenInv.stays_gone (hI : TokenInv w)
    (hm : Move env i w.clock w.session (w.calls i) input s' pc' events) {t : String}
    (hpub : Published w.log t) (hgone : w.session.state.value.token ≠ some t) :
    s'.state.value.token ≠ some t := by
  rcases hm.auth_cases with ⟨hsame, -⟩ | ⟨n, u, -, -, hinv, -⟩ | ⟨caller, r, exp, hpc, -, -, hvalue⟩
  · rw [hsame]
    exact hgone
  · rcases invalidate_cases w.session.state.value u with ⟨-, hclear⟩ | ⟨-, hsame⟩
    · rw [hinv, hclear]
      simp
    · rw [hinv, hsame]
      exact hgone
  · rw [hvalue]
    intro hc
    obtain rfl : r.accessToken = t := Option.some.inj hc
    exact hI.pending i r exp (by rw [hpc]; rfl) hpub

/-- A token that has just been issued has not been published. -/
theorem TokenInv.fresh (hI : TokenInv w)
    (hnodup : (issuedTokens (w.log ++ events.map fun e => (i, e))).Nodup)
    (hmem : .issued r now ∈ events) : ¬Published w.log r.accessToken := by
  intro hpub
  rw [issuedTokens_append] at hnodup
  have hnew := mem_issuedTokens (i := i) (List.mem_map_of_mem (f := fun e => (i, e)) hmem)
  exact (List.nodup_append.mp hnodup).2.2 _ (hI.issued _ hpub) _ hnew rfl

theorem TokenInv.issued_moved (hr : (sessionMachine env).Reachable w) (hI : TokenInv w)
    (hm : Move env i w.clock w.session (w.calls i) input s' pc' events) (t : String)
    (hpub : Published (w.moved i s' pc' events).log t) :
    t ∈ issuedTokens (w.moved i s' pc' events).log := by
  rw [moved_log] at hpub ⊢
  rw [issuedTokens_append]
  refine List.mem_append_left _ ?_
  rcases hm.quiet_or with hquiet | ⟨caller, r, exp, hpc, -, hev, -⟩
  · exact hI.issued t (published_of_quiet hquiet hpub)
  · obtain ⟨k, e, hmem⟩ := hpub
    rcases List.mem_append.mp hmem with hold | hnew
    · exact hI.issued t ⟨k, e, hold⟩
    · obtain ⟨event, hevent, heq⟩ := List.mem_map.mp hnew
      obtain ⟨-, rfl⟩ := Prod.mk.inj heq
      rw [hev] at hevent
      rcases List.mem_cons.mp hevent with hpublished | hreturned
      · obtain ⟨rfl, -⟩ := Event.published.inj hpublished
        obtain ⟨j, now, hissued, -⟩ := (authInv hr).pending i r exp (by rw [hpc]; rfl)
        exact mem_issuedTokens hissued
      · exact absurd hreturned (returned_quiet caller t e)

theorem TokenInv.current_moved (hI : TokenInv w)
    (hm : Move env i w.clock w.session (w.calls i) input s' pc' events) (t : String)
    (ht : s'.state.value.token = some t) : Published (w.moved i s' pc' events).log t := by
  rcases hm.auth_cases with ⟨hsame, -⟩ | ⟨n, u, -, -, hinv, -⟩ | ⟨caller, r, exp, -, -, hev, hvalue⟩
  · rw [hsame] at ht
    exact (hI.current t ht).append _
  · rcases invalidate_cases w.session.state.value u with ⟨-, hclear⟩ | ⟨-, hsame⟩
    · rw [hinv, hclear] at ht
      exact absurd ht (by simp)
    · rw [hinv, hsame] at ht
      exact (hI.current t ht).append _
  · rw [hvalue] at ht
    obtain rfl : r.accessToken = t := Option.some.inj ht
    refine ⟨i, exp, ?_⟩
    rw [moved_log, hev]
    simp

theorem TokenInv.sent_moved (hI : TokenInv w)
    (hm : Move env i w.clock w.session (w.calls i) input s' pc' events) (j : CallId)
    (t : String) (hs : ((w.moved i s' pc' events).calls j).sentToken = some t) :
    Published (w.moved i s' pc' events).log t := by
  rw [moved_calls] at hs
  by_cases hji : j = i
  · subst hji
    rw [Function.update_self] at hs
    rcases hm.sentToken_cases hs with hbefore | hcurrent
    · exact (hI.sent j t hbefore).append _
    · exact (hI.current t hcurrent).append _
  · rw [Function.update_of_ne hji] at hs
    exact (hI.sent j t hs).append _

theorem TokenInv.pending_moved (hr : (sessionMachine env).Reachable w) (hI : TokenInv w)
    (hm : Move env i w.clock w.session (w.calls i) input s' pc' events)
    (hnodup : (issuedTokens (w.moved i s' pc' events).log).Nodup) (j : CallId)
    (r : BitwardenTokenSuccessResponse) (exp : Instant)
    (hc : ((w.moved i s' pc' events).calls j).carries = some (r, exp)) :
    ¬Published (w.moved i s' pc' events).log r.accessToken := by
  rw [moved_calls] at hc
  intro hpub
  rcases hm.quiet_or with hquiet | ⟨caller, r', exp', hpc, rfl, -, -⟩
  · have hbefore : Published w.log r.accessToken := published_of_quiet hquiet hpub
    by_cases hji : j = i
    · subst hji
      rw [Function.update_self] at hc
      rcases hm.carries_cases hc with hcarried | ⟨hissued, -⟩
      · exact hI.pending j r exp hcarried hbefore
      · exact hI.fresh hnodup hissued hbefore
    · rw [Function.update_of_ne hji] at hc
      exact hI.pending j r exp hc hbefore
  · by_cases hji : j = i
    · subst hji
      rw [Function.update_self, carries_resume] at hc
      exact absurd hc (by simp)
    · -- the publishing call is the only one with a response in hand
      rw [Function.update_of_ne hji] at hc
      exact hji (login_unique hr (inLogin_of_carries hc) (by rw [hpc]; rfl))

theorem TokenInv.past_moved (hI : TokenInv w)
    (hm : Move env i w.clock w.session (w.calls i) input s' pc' events) (j : CallId) (n : Nat)
    (t : String) (hmem : (j, .rejected n t) ∈ (w.moved i s' pc' events).log) :
    Published (w.moved i s' pc' events).log t := by
  rcases List.mem_append.mp hmem with hold | hnew
  · exact (hI.past j n t hold).append _
  · obtain ⟨e, he, heq⟩ := List.mem_map.mp hnew
    obtain ⟨-, rfl⟩ := Prod.mk.inj heq
    obtain ⟨hpc, -⟩ := hm.rejected_mem he
    exact (hI.sent i t (by rw [hpc]; rfl)).append _

theorem TokenInv.spent_moved (hI : TokenInv w)
    (hm : Move env i w.clock w.session (w.calls i) input s' pc' events) (j : CallId) (n : Nat)
    (t : String) (hmem : (j, .rejected n t) ∈ (w.moved i s' pc' events).log) :
    ((w.moved i s' pc' events).calls j).invalidating = some (n, t) ∨
      (w.moved i s' pc' events).calls j = .cancelled ∨ s'.state.value.token ≠ some t := by
  rw [moved_calls]
  rcases List.mem_append.mp hmem with hold | hnew
  · have hpub := hI.past j n t hold
    rcases hI.spent j n t hold with hact | hcancelled | hgone
    · by_cases hji : j = i
      · subst hji
        rw [Function.update_self]
        exact hm.invalidating_cases hact
      · rw [Function.update_of_ne hji]
        exact Or.inl hact
    · by_cases hji : j = i
      · subst hji
        exact absurd hcancelled hm.not_ended.1
      · rw [Function.update_of_ne hji]
        exact Or.inr (Or.inl hcancelled)
    · exact Or.inr (Or.inr (hI.stays_gone hm hpub hgone))
  · obtain ⟨e, he, heq⟩ := List.mem_map.mp hnew
    obtain ⟨rfl, rfl⟩ := Prod.mk.inj heq
    obtain ⟨-, rfl⟩ := hm.rejected_mem he
    rw [Function.update_self]
    exact Or.inl rfl

/-- **Where no token is issued twice, tokens are published once and rejected for good.** -/
theorem tokenInv (h : (sessionMachine env).Reachable w)
    (hnodup : (issuedTokens w.log).Nodup) : TokenInv w := by
  revert hnodup
  refine session_invariant (I := fun w => (issuedTokens w.log).Nodup → TokenInv w) ?_ ?_ ?_ ?_ h
  · intro clock _
    refine ⟨?_, ?_, ?_, ?_, ?_, ?_⟩
    · rintro t ⟨i, exp, hmem⟩
      exact absurd hmem List.not_mem_nil
    · intro t ht
      exact absurd ht (by simp [World.start, BitwardenSession.new, Auth.default])
    · intro i t hs
      exact absurd hs (by simp [World.start, Pc.sentToken])
    · intro i r exp hc
      exact absurd hc (by simp [World.start, Pc.carries])
    · intro i n t hmem
      exact absurd hmem List.not_mem_nil
    · intro i n t hmem
      exact absurd hmem List.not_mem_nil
  · intro w i input s' pc' events hr hI hm hnodup
    have hbefore : (issuedTokens w.log).Nodup := by
      rw [moved_log, issuedTokens_append] at hnodup
      exact (List.nodup_append.mp hnodup).1
    have hinv := hI hbefore
    exact ⟨hinv.issued_moved hr hm, hinv.current_moved hm, hinv.sent_moved hm,
      hinv.pending_moved hr hm hnodup, hinv.past_moved hm, hinv.spent_moved hm⟩
  · intro w now _ hI hnodup
    have hinv := hI hnodup
    exact ⟨hinv.issued, hinv.current, hinv.sent, hinv.pending, hinv.past, hinv.spent⟩
  · intro w profile _ hI hnodup
    have hinv := hI hnodup
    exact ⟨hinv.issued, hinv.current, hinv.sent, hinv.pending, hinv.past, hinv.spent⟩

/-! ### In every run -/

/-- A second request presents a token its call was not rejected on. -/
theorem not_presented_again (h : (sessionMachine env).Reachable w)
    (hnodup : (issuedTokens w.log).Nodup) {t : String} :
    (i, .rejected 0 t) ∈ w.log → (i, .presented 1 t) ∉ w.log := by
  revert hnodup
  refine session_invariant (I := fun w => (issuedTokens w.log).Nodup →
    (i, .rejected 0 t) ∈ w.log → (i, .presented 1 t) ∉ w.log) ?_ ?_ ?_ ?_ h
  · intro clock _ hmem
    exact absurd hmem List.not_mem_nil
  · intro w j input s' pc' events hr hI hm hnodup hrej hpres
    have hbefore : (issuedTokens w.log).Nodup := by
      rw [moved_log, issuedTokens_append] at hnodup
      exact (List.nodup_append.mp hnodup).1
    rcases List.mem_append.mp hrej with hrejold | hrejnew
    · rcases List.mem_append.mp hpres with hpresold | hpresnew
      · exact hI hbefore hrejold hpresold
      · -- the retry reads a token that is spent
        obtain ⟨e, he, heq⟩ := List.mem_map.mp hpresnew
        obtain ⟨rfl, rfl⟩ := Prod.mk.inj heq
        obtain ⟨hpc, -, htoken⟩ := hm.presented_mem he
        rcases (tokenInv hr hbefore).spent j 0 t hrejold with hact | hcancelled | hgone
        · rw [hpc] at hact
          exact absurd hact (by simp [Pc.invalidating])
        · rw [hpc] at hcancelled
          exact absurd hcancelled (by simp)
        · exact hgone htoken
    · obtain ⟨e, he, heq⟩ := List.mem_map.mp hrejnew
      obtain ⟨rfl, rfl⟩ := Prod.mk.inj heq
      obtain ⟨hpc, -⟩ := hm.rejected_mem he
      rcases List.mem_append.mp hpres with hpresold | hpresnew
      · -- a first attempt is answered before a second one is made
        have hasked := (callHistory hr j).asked 1 t (mem_trace.mpr hpresold)
        rw [hpc] at hasked
        exact absurd hasked (Nat.not_succ_le_zero 0)
      · obtain ⟨e, he', heq'⟩ := List.mem_map.mp hpresnew
        obtain ⟨-, rfl⟩ := Prod.mk.inj heq'
        obtain ⟨hpc', -⟩ := hm.presented_mem he'
        rw [hpc] at hpc'
        exact absurd hpc' (by simp)
  · intro w now _ hI
    exact hI
  · intro w profile _ hI
    exact hI

/-- A call whose second attempt was rejected fails with the token unpublished, unless it is
dropped first. -/
theorem given_up (h : (sessionMachine env).Reachable w)
    (hnodup : (issuedTokens w.log).Nodup) {t : String} (hrej : (i, .rejected 1 t) ∈ w.log) :
    (w.calls i).invalidating = some (1, t) ∨ w.calls i = .cancelled ∨
      w.calls i = .done (.err (.unauthorized .unauthorized)) ∧
        w.session.state.value.token ≠ some t := by
  rcases (tokenInv h hnodup).spent i 1 t hrej with hact | hcancelled | hgone
  · exact Or.inl hact
  · exact Or.inr (Or.inl hcancelled)
  · rcases (callHistory h i).ended t (mem_trace.mpr hrej) with hh | hcancelled | hdone
    · refine Or.inl ?_
      have hb := bounded h i
      cases hpc : w.calls i with
      | rejected n u =>
          rw [hpc] at hh
          exact hh
      | invalidate held n u =>
          rw [hpc] at hh
          exact hh
      | request caller | ready held caller r exp | bootstrap caller r exp
      | publish held caller r exp =>
          rw [hpc] at hh hb
          cases caller with
          | token => exact absurd hh (by simp [Pc.handles, Caller.handles])
          | sync n u =>
              obtain rfl : n = 0 := hb
              exact absurd hh (by simp [Pc.handles, Caller.handles])
      | _ =>
          rw [hpc] at hh
          exact absurd hh (by simp [Pc.handles])
    · exact Or.inr (Or.inl hcancelled)
    · exact Or.inr (Or.inr ⟨hdone, hgone⟩)

/-- What holds of the retries in every reachable state. -/
structure RetrySafe (w : World env) : Prop where
  /-- Handling a 401 about one token, up to the end of the login that follows, leaves any
  other published token and its expiry alone. -/
  spares : ∀ i n t input w' t', (w.calls i).handles = some (n, t) →
    w.step (.call i input) = some w' → w.session.state.value.token = some t' → t' ≠ t →
      w'.session.state.value.token = some t' ∧
        w'.session.state.value.exp = w.session.state.value.exp
  /-- The retry of a call does not present the token its first attempt was rejected on. -/
  fresh : ∀ i t, (i, .rejected 0 t) ∈ w.log → (i, .presented 1 t) ∉ w.log
  requests : ∀ i, (w.trace i).countP Event.isPresented ≤ 2
  /-- A request that is not the first of its call comes after a rejection of the first
  attempt and a recovery. -/
  second : ∀ i pre n t post, w.trace i = pre ++ .presented n t :: post →
    pre.countP Event.isPresented = 0 ∨ Recovered pre
  logins : ∀ i, (w.trace i).countP Event.isLoginBegan ≤ 2
  /-- A rejected second attempt ends in the failure of the call, without its token. -/
  givenUp : ∀ i t, (i, .rejected 1 t) ∈ w.log → (w.calls i).invalidating = some (1, t) ∨
    w.calls i = .cancelled ∨ w.calls i = .done (.err (.unauthorized .unauthorized)) ∧
      w.session.state.value.token ≠ some t
  reachable : ∀ i, w.calls i ≠ .panicked .unreachable

/-- **A retry is safe**, in every history of a session whose identity endpoint never issues
a token twice. -/
theorem session_retrySafe (h : (sessionMachine env).Reachable w)
    (hnodup : (issuedTokens w.log).Nodup) : RetrySafe w where
  spares _ _ _ _ _ _ hh hstep ht' hne := handling_spares h hh hstep ht' hne
  fresh _ _ := not_presented_again h hnodup
  requests i := Nat.le_trans (callHistory h i).sent (bounded h i).requests_le
  second i := (callHistory h i).presented
  logins i := Nat.le_trans (callHistory h i).logins (bounded h i).logins_le
  givenUp _ _ := given_up h hnodup
  reachable i hpc := by
    have hb := bounded h i
    rw [hpc] at hb
    exact hb rfl

/-- A call whose replacement token is rejected as well has given up. -/
theorem session_retrySafe_givenUp : ∃ w : World plainEnv,
    w.calls 0 = .done (.err (.unauthorized .unauthorized)) ∧ RetrySafe w := by
  obtain ⟨w, hr, hp⟩ := reachable_of_run plainEnv
    (Run.firstSync 0 "old" ++ Run.answer 0 .unauthorized ++ Run.go 0 3 ++
      Run.login 0 "new" false ++ Run.go 0 2 ++ Run.answer 0 .unauthorized ++ Run.go 0 3)
    (fun w => w.calls 0 == .done (.err (.unauthorized .unauthorized)) &&
      decide (issuedTokens w.log).Nodup) (by decide)
  have hp' := Bool.and_eq_true_iff.mp hp
  exact ⟨w, beq_iff_eq.mp hp'.1, session_retrySafe hr (of_decide_eq_true hp'.2)⟩

end Keyring.Bitwarden
