/-
The authentication state is never half written.

Token, expiry and crypto readiness are published in one critical section, after the
bootstrap has put the user key in place, and the key is never taken out again.  A login
that is dropped before its publication has therefore changed nothing a later call could
misread: at most the user key is already there.

The invariant says what a login carries between its critical sections: a response that
was issued with the expiry computed from it, and, once the publication is next, a user
key in the store.
-/
import Keyring.Proofs.Bitwarden.Session.Locks

namespace Keyring.Bitwarden

variable {env : Env} {i : CallId} {now : Instant} {s s' : BitwardenSession env}
  {pc pc' : Pc} {input : Input env.Body} {events : List Event} {w w' : World env}
  {r : BitwardenTokenSuccessResponse} {exp : Instant}

/-- The response and expiry a login is working with. -/
def Pc.carries : Pc → Option (BitwardenTokenSuccessResponse × Instant)
  | .ready _ _ r exp | .bootstrap _ r exp | .publish _ _ r exp => some (r, exp)
  | _ => none

/-- Whether the publication is what a call does next. -/
def Pc.publishes : Pc → Bool
  | .publish _ _ _ _ => true
  | _ => false

/-- The store can decrypt personal items. -/
def BitwardenSession.unlocked (s : BitwardenSession env) : Prop :=
  (env.crypto.symmetric s.store .user).isSome

/-- The expiry is that of an issued response. -/
def FromResponse (log : List (CallId × Event)) (r : BitwardenTokenSuccessResponse)
    (exp : Instant) : Prop :=
  ∃ i now, (i, .issued r now) ∈ log ∧ exp = now + fromSecs r.expiresIn.toNat

theorem FromResponse.append {log : List (CallId × Event)} (h : FromResponse log r exp)
    (new : List (CallId × Event)) : FromResponse (log ++ new) r exp := by
  obtain ⟨i, now, hmem, hexp⟩ := h
  exact ⟨i, now, List.mem_append_left new hmem, hexp⟩

theorem carries_attempt (n : Nat) : (Pc.attempt n).carries = none :=
  attempt_elim (P := fun pc => pc.carries = none) (fun _ => rfl) rfl n

theorem carries_resume (caller : Caller) : (Pc.resume caller).carries = none :=
  resume_elim (P := fun pc => pc.carries = none) (fun _ => rfl) rfl caller

theorem publishes_attempt (n : Nat) : (Pc.attempt n).publishes = false :=
  attempt_elim (P := fun pc => pc.publishes = false) (fun _ => rfl) rfl n

theorem publishes_resume (caller : Caller) : (Pc.resume caller).publishes = false :=
  resume_elim (P := fun pc => pc.publishes = false) (fun _ => rfl) rfl caller

theorem AwaitsState.carries (h : AwaitsState pc pc') : pc'.carries = pc.carries := by
  cases h <;> rfl

theorem AwaitsState.publishes (h : AwaitsState pc pc') : pc'.publishes = pc.publishes := by
  cases h <;> rfl

theorem AwaitsGate.carries (h : AwaitsGate pc pc') : pc'.carries = none := by
  cases h <;> rfl

theorem AwaitsGate.publishes (h : AwaitsGate pc pc') : pc'.publishes = false := by
  cases h <;> rfl

/-- What a login carries is what it carried before, or has just been issued to it. -/
theorem Move.carries_cases (h : Move env i now s pc input s' pc' events)
    (hc : pc'.carries = some (r, exp)) :
    pc.carries = some (r, exp) ∨
      (.issued r now ∈ events ∧ exp = now + fromSecs r.expiresIn.toNat) := by
  cases h with
  | takeState hpc hfree =>
      rw [hpc.carries] at hc
      exact Or.inl hc
  | takeGate hpc hfree =>
      rw [hpc.carries] at hc
      exact absurd hc (by simp)
  | issued hx hexp =>
      obtain ⟨rfl, rfl⟩ : _ = r ∧ _ = exp := by simpa [Pc.carries] using hc
      exact Or.inr ⟨by simp, (checkedAdd_eq_some.mp hexp).2⟩
  | published =>
      rw [carries_resume] at hc
      exact absurd hc (by simp)
  | replaced hn htoken =>
      rw [carries_attempt] at hc
      exact absurd hc (by simp)
  | locked hcrypto => exact Or.inl hc
  | unlocked hcrypto => exact Or.inl hc
  | bootstrapped hinit => exact Or.inl hc
  | _ => exact absurd hc (by simp [Pc.carries])

/-- **A stored user key outlives every step.** -/
theorem Move.user_keeps (h : Move env i now s pc input s' pc' events)
    {k : env.crypto.SymmetricCryptoKey} (hk : env.crypto.symmetric s.store .user = some k) :
    env.crypto.symmetric s'.store .user = some k := by
  rcases h.store_cases with hsame | ⟨r, hinit⟩
  · rw [hsame]
    exact hk
  · rw [hinit]
    exact initializeUserCrypto_keeps hk

theorem initOrgs_user (s : BitwardenSession env) (profile : BitwardenProfile) :
    env.crypto.symmetric (s.initOrgs profile).2.store .user =
      env.crypto.symmetric s.store .user :=
  (initializeOrgKeys_frame s.store profile).1

theorem Move.unlocked_keeps (h : Move env i now s pc input s' pc' events)
    (hk : s.unlocked) : s'.unlocked := by
  obtain ⟨k, hk⟩ := Option.isSome_iff_exists.mp hk
  exact Option.isSome_iff_exists.mpr ⟨k, h.user_keeps hk⟩

/-- A call publishes next only with a user key in the store. -/
theorem Move.publishes_cases (h : Move env i now s pc input s' pc' events)
    (hp : pc'.publishes = true) :
    pc.publishes = true ∨ s.state.value.crypto = true ∨ s'.unlocked := by
  cases h with
  | takeState hpc hfree =>
      rw [hpc.publishes] at hp
      exact Or.inl hp
  | takeGate hpc hfree =>
      rw [hpc.publishes] at hp
      exact absurd hp (by simp)
  | unlocked hcrypto => exact Or.inr (Or.inl hcrypto)
  | bootstrapped hinit => exact Or.inr (Or.inr (initializeUserCrypto_ok hinit))
  | published =>
      rw [publishes_resume] at hp
      exact absurd hp (by simp)
  | replaced hn htoken =>
      rw [publishes_attempt] at hp
      exact absurd hp (by simp)
  | _ => exact absurd hp (by simp [Pc.publishes])

/-! ### The invariant -/

/-- Token, expiry, readiness and key store fit together, and so does what the logins are
about to publish. -/
structure AuthInv (w : World env) : Prop where
  paired : ∀ t, w.session.state.value.token = some t →
    ∃ r exp, w.session.state.value.exp = some exp ∧ r.accessToken = t ∧
      FromResponse w.log r exp
  cleared : w.session.state.value.token = none → w.session.state.value.exp = none
  ready : w.session.state.value.token ≠ none → w.session.state.value.crypto = true
  user : w.session.state.value.crypto = true → w.session.unlocked
  pending : ∀ i r exp, (w.calls i).carries = some (r, exp) → FromResponse w.log r exp
  publishing : ∀ i, (w.calls i).publishes = true → w.session.unlocked

/-- A step of a call keeps what the logins carry. -/
theorem AuthInv.pending_moved (hI : AuthInv w)
    (hm : Move env i w.clock w.session (w.calls i) input s' pc' events) :
    ∀ j r exp, ((w.moved i s' pc' events).calls j).carries = some (r, exp) →
      FromResponse (w.moved i s' pc' events).log r exp := by
  intro j r exp hc
  rw [moved_calls] at hc
  by_cases hji : j = i
  · subst hji
    rw [Function.update_self] at hc
    rcases hm.carries_cases hc with hbefore | ⟨hissued, hexp⟩
    · exact (hI.pending j r exp hbefore).append _
    · exact ⟨j, w.clock, List.mem_append_right _ (List.mem_map_of_mem hissued), hexp⟩
  · rw [Function.update_of_ne hji] at hc
    exact (hI.pending j r exp hc).append _

theorem AuthInv.publishing_moved (hI : AuthInv w)
    (hm : Move env i w.clock w.session (w.calls i) input s' pc' events) :
    ∀ j, ((w.moved i s' pc' events).calls j).publishes = true → s'.unlocked := by
  intro j hp
  rw [moved_calls] at hp
  by_cases hji : j = i
  · subst hji
    rw [Function.update_self] at hp
    rcases hm.publishes_cases hp with hbefore | hcrypto | hdone
    · exact hm.unlocked_keeps (hI.publishing j hbefore)
    · exact hm.unlocked_keeps (hI.user hcrypto)
    · exact hdone
  · rw [Function.update_of_ne hji] at hp
    exact hm.unlocked_keeps (hI.publishing j hp)

theorem AuthInv.moved (hI : AuthInv w)
    (hm : Move env i w.clock w.session (w.calls i) input s' pc' events) :
    AuthInv (w.moved i s' pc' events) := by
  have hpending := hI.pending_moved hm
  have hpublishing := hI.publishing_moved hm
  have hkept : ∀ t, w.session.state.value.token = some t →
      ∃ r exp, w.session.state.value.exp = some exp ∧ r.accessToken = t ∧
        FromResponse (w.moved i s' pc' events).log r exp := by
    intro t ht
    obtain ⟨r, exp, hexp, hr, hfrom⟩ := hI.paired t ht
    exact ⟨r, exp, hexp, hr, hfrom.append _⟩
  rcases hm.auth_cases with ⟨hsame, -⟩ | ⟨n, t, -, -, hinv, -⟩ | ⟨caller, r, exp, hpc, -, -, hpub⟩
  · refine ⟨?_, ?_, ?_, ?_, hpending, hpublishing⟩ <;> rw [moved_session, hsame]
    · exact hkept
    · exact hI.cleared
    · exact hI.ready
    · exact fun hcrypto => hm.unlocked_keeps (hI.user hcrypto)
  · rcases invalidate_cases w.session.state.value t with ⟨-, hclear⟩ | ⟨-, hsame⟩
    · -- the rejected token is the published one
      rw [hclear] at hinv
      refine ⟨?_, ?_, ?_, ?_, hpending, hpublishing⟩ <;> rw [moved_session, hinv]
      · intro t' ht'
        exact absurd ht' (by simp)
      · intro _
        rfl
      · intro hne
        exact absurd rfl hne
      · exact fun hcrypto => hm.unlocked_keeps (hI.user hcrypto)
    · rw [hsame] at hinv
      refine ⟨?_, ?_, ?_, ?_, hpending, hpublishing⟩ <;> rw [moved_session, hinv]
      · exact hkept
      · exact hI.cleared
      · exact hI.ready
      · exact fun hcrypto => hm.unlocked_keeps (hI.user hcrypto)
  · refine ⟨?_, ?_, ?_, ?_, hpending, hpublishing⟩ <;> rw [moved_session, hpub]
    · intro t ht
      have hfrom := hI.pending i r exp (by rw [hpc]; rfl)
      exact ⟨r, exp, rfl, Option.some.inj ht, hfrom.append _⟩
    · intro hnone
      exact absurd hnone (by simp)
    · intro _
      rfl
    · intro _
      exact hm.unlocked_keeps (hI.publishing i (by rw [hpc]; rfl))

theorem authInv (h : (sessionMachine env).Reachable w) : AuthInv w := by
  refine session_invariant ?_ ?_ ?_ ?_ h
  · intro clock
    refine ⟨?_, fun _ => rfl, fun hne => absurd rfl hne, ?_, ?_, ?_⟩
    · intro t ht
      exact absurd ht (by simp [World.start, BitwardenSession.new, Auth.default])
    · intro hcrypto
      exact absurd hcrypto (by simp [World.start, BitwardenSession.new, Auth.default])
    · intro i r exp hc
      exact absurd hc (by simp [World.start, Pc.carries])
    · intro i hp
      exact absurd hp (by simp [World.start, Pc.publishes])
  · intro w i input s' pc' events _ hI hm
    exact hI.moved hm
  · intro w now _ hI
    exact ⟨hI.paired, hI.cleared, hI.ready, hI.user, hI.pending, hI.publishing⟩
  · intro w profile _ hI
    have hunlocked : (w.session.initOrgs profile).2.unlocked ↔ w.session.unlocked := by
      unfold BitwardenSession.unlocked
      rw [initOrgs_user]
    exact ⟨hI.paired, hI.cleared, hI.ready, fun hc => hunlocked.mpr (hI.user hc), hI.pending,
      fun i hp => hunlocked.mpr (hI.publishing i hp)⟩

/-! ### In every run -/

/-- **A stored user key is never changed or removed.** -/
theorem user_stays {k : env.crypto.SymmetricCryptoKey}
    (h : (sessionMachine env).Leads w w')
    (hk : env.crypto.symmetric w.session.store .user = some k) :
    env.crypto.symmetric w'.session.store .user = some k := by
  refine h.keeps (I := fun w => env.crypto.symmetric w.session.store .user = some k) ?_ hk
  intro w w' a hI hstep
  refine step_keeps (I := fun w => env.crypto.symmetric w.session.store .user = some k)
    ?_ ?_ ?_ hI hstep
  · intro i input s' pc' events hI hm
    exact hm.user_keeps hI
  · intro now _ hI
    exact hI
  · intro profile hI
    exact (initOrgs_user w.session profile).trans hI

theorem Move.crypto_keeps (h : Move env i now s pc input s' pc' events)
    (hc : s.state.value.crypto = true) : s'.state.value.crypto = true := by
  rcases h.auth_cases with ⟨hsame, -⟩ | ⟨n, t, -, -, hinv, -⟩ | ⟨caller, r, exp, -, -, -, hpub⟩
  · rw [hsame]
    exact hc
  · rw [hinv, invalidate_crypto]
    exact hc
  · rw [hpub]

theorem crypto_stays (h : (sessionMachine env).Leads w w')
    (hc : w.session.state.value.crypto = true) : w'.session.state.value.crypto = true := by
  refine h.keeps (I := fun w => w.session.state.value.crypto = true) ?_ hc
  intro w w' a hI hstep
  refine step_keeps (I := fun w => w.session.state.value.crypto = true) ?_ ?_ ?_ hI hstep
  · intro i input s' pc' events hI hm
    exact hm.crypto_keeps hI
  · intro now _ hI
    exact hI
  · intro profile hI
    exact hI

/-- What holds of the authentication state and the key store in every reachable state. -/
structure AuthAtomic (w : World env) : Prop where
  token_iff_exp : w.session.state.value.token.isSome ↔ w.session.state.value.exp.isSome
  same_response : ∀ t exp, w.session.state.value.token = some t →
    w.session.state.value.exp = some exp →
      ∃ i r now, (i, .issued r now) ∈ w.log ∧ t = r.accessToken ∧
        exp = now + fromSecs r.expiresIn.toNat
  crypto_of_token : w.session.state.value.token.isSome → w.session.state.value.crypto = true
  user_of_crypto : w.session.state.value.crypto = true →
    (env.crypto.symmetric w.session.store .user).isSome
  crypto_stays : ∀ w', (sessionMachine env).Leads w w' →
    w.session.state.value.crypto = true → w'.session.state.value.crypto = true
  user_stays : ∀ w' k, (sessionMachine env).Leads w w' →
    env.crypto.symmetric w.session.store .user = some k →
      env.crypto.symmetric w'.session.store .user = some k

/-- **Authentication is published whole or not at all**, in every history of a session. -/
theorem session_authAtomic (h : (sessionMachine env).Reachable w) : AuthAtomic w := by
  have hI := authInv h
  refine ⟨?_, ?_, ?_, hI.user, fun w' hw hc => crypto_stays hw hc,
    fun w' k hw hk => user_stays hw hk⟩
  · cases htoken : w.session.state.value.token with
    | none => simp [hI.cleared htoken]
    | some t =>
        obtain ⟨r, exp, hexp, -, -⟩ := hI.paired t htoken
        simp [hexp]
  · intro t exp htoken hexp
    obtain ⟨r, exp', hexp', hr, i, now, hmem, heq⟩ := hI.paired t htoken
    obtain rfl : exp' = exp := Option.some.inj (hexp'.symm.trans hexp)
    exact ⟨i, r, now, hmem, hr.symm, heq⟩
  · intro hsome
    exact hI.ready (Option.isSome_iff_ne_none.mp hsome)

/-- A first call has logged in and is waiting for the vault. -/
theorem session_authAtomic_firstSync : ∃ w : World plainEnv,
    w.session.state.value.token = some "token" ∧ w.calls 0 = .send 0 "token" ∧
      AuthAtomic w := by
  obtain ⟨w, hr, hp⟩ := reachable_of_run plainEnv (Run.firstSync 0 "token")
    (fun w => w.session.state.value.token == some "token" &&
      w.calls 0 == .send 0 "token") (by decide)
  have hp' := Bool.and_eq_true_iff.mp hp
  exact ⟨w, beq_iff_eq.mp hp'.1, beq_iff_eq.mp hp'.2, session_authAtomic hr⟩

end Keyring.Bitwarden
