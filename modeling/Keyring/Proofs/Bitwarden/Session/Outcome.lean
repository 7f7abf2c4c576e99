/-
What a login comes to.

`loginResult` is a login as one function: of the authentication state it finds, of what a
bootstrap would do, and of what the identity endpoint answers and when.  In the program a
login is several steps with everybody else's in between; it holds the gate throughout, so
what it finds at the start is still there at the end, and `During.stage` shows that whatever
the others do it comes to that result.  Until it succeeds nothing of it can be seen.
-/
import Keyring.Proofs.Bitwarden.Session.Progress

namespace Keyring.Bitwarden

variable {env : Env} {i j : CallId} {now : Instant} {s s' : BitwardenSession env}
  {pc pc' : Pc} {input : Input env.Body} {events : List Event} {w w' w₀ : World env}

/-! ### The exchange -/

section

variable {Body : Type} {d : TokenDecoder Body} {showStatus : StatusCode → String}
  {status : StatusCode} {body : Body}

/-- The shapes are tried in order. -/
theorem decode_success {r : BitwardenTokenSuccessResponse} :
    d.decode body = some (.success r) ↔ d.success body = some r := by
  unfold TokenDecoder.decode
  cases d.success body with
  | some r' => simp
  | none => cases d.twoFactor body <;> simp

theorem decode_twoFactor :
    d.decode body = some .twoFactor ↔ d.success body = none ∧ d.twoFactor body = true := by
  unfold TokenDecoder.decode
  cases d.success body with
  | some r => simp
  | none => cases d.twoFactor body <;> simp

theorem decode_identityFail {r : BitwardenIdentityTokenFailResponse} :
    d.decode body = some (.identityFail r) ↔
      d.success body = none ∧ d.twoFactor body = false ∧ d.identityFail body = some r := by
  unfold TokenDecoder.decode
  cases d.success body with
  | some r' => simp
  | none => cases d.twoFactor body <;> simp

theorem decode_none : d.decode body = none ↔
    d.success body = none ∧ d.twoFactor body = false ∧ d.identityFail body = none := by
  unfold TokenDecoder.decode
  cases d.success body with
  | some r => simp
  | none => cases d.twoFactor body <;> simp

/-- **A structured error is reported under any status.** -/
theorem requestApiKeyToken_twoFactor (h : d.decode body = some .twoFactor) :
    requestApiKeyToken d showStatus (.response status body) = .error .twoFactorRequired := by
  have hparse : parseToken d body = .error .twoFactorRequired := by rw [parseToken, h]
  rw [requestApiKeyToken, hparse]
  cases status.isSuccess <;> rfl

theorem requestApiKeyToken_identityFail {r : BitwardenIdentityTokenFailResponse}
    (h : d.decode body = some (.identityFail r)) :
    requestApiKeyToken d showStatus (.response status body) = .error (.identityFail r) := by
  have hparse : parseToken d body = .error (.identityFail r) := by rw [parseToken, h]
  rw [requestApiKeyToken, hparse]
  cases status.isSuccess <;> rfl

/-- **Without a success status, nothing else is.** -/
theorem requestApiKeyToken_generic (hstatus : status.isSuccess = false)
    (h : d.decode body = none ∨ ∃ r, d.decode body = some (.success r)) :
    requestApiKeyToken d showStatus (.response status body) =
      .error (.tokenRequest (identityRequestFailed showStatus status)) := by
  rcases h with h | ⟨r, h⟩
  · have hparse : parseToken d body = .error .invalidResponse := by rw [parseToken, h]
    rw [requestApiKeyToken, hparse, hstatus]
    rfl
  · have hparse : parseToken d body = .ok r := by rw [parseToken, h]
    rw [requestApiKeyToken, hparse, hstatus]
    rfl

end

/-! ### A login as one function -/

/-- What a bootstrap from a store comes to. -/
def bootstrapResult (env : Env) (store : env.crypto.KeyStore)
    (r : BitwardenTokenSuccessResponse) : Except String Unit :=
  (initializeUserCrypto env.crypto store env.password r).1

/-- The authentication state that a login leaves, or its error, in which case it leaves the
one it found. -/
def loginResult (env : Env) (found : Auth)
    (bootstrap : BitwardenTokenSuccessResponse → Except String Unit)
    (x : Exchange env.Body) (now : Instant) : Except BitwardenAuthError Auth :=
  match requestApiKeyToken env.tokenDecoder env.showStatus x with
  | .error error => .error error
  | .ok r =>
      match checkedAdd env.lastInstant now (fromSecs r.expiresIn.toNat) with
      | none => .error .invalidResponse
      | some exp =>
          if found.crypto then .ok ⟨some r.accessToken, some exp, true⟩
          else
            match bootstrap r with
            | .error error => .error (.cryptoBootstrap error)
            | .ok () => .ok ⟨some r.accessToken, some exp, true⟩

/-- What a login needs. -/
def Succeeds (env : Env) (found : Auth)
    (bootstrap : BitwardenTokenSuccessResponse → Except String Unit)
    (x : Exchange env.Body) (now : Instant) : Prop :=
  ∃ status body r, x = .response status body ∧ status.isSuccess = true ∧
    env.tokenDecoder.success body = some r ∧
    now + fromSecs r.expiresIn.toNat ≤ env.lastInstant ∧
    (found.crypto = true ∨ bootstrap r = .ok ())

variable {found : Auth} {bootstrap : BitwardenTokenSuccessResponse → Except String Unit}
  {x : Exchange env.Body}

theorem loginResult_issued {r : BitwardenTokenSuccessResponse} {exp : Instant}
    (hx : requestApiKeyToken env.tokenDecoder env.showStatus x = .ok r)
    (hexp : checkedAdd env.lastInstant now (fromSecs r.expiresIn.toNat) = some exp)
    (h : found.crypto = true ∨ bootstrap r = .ok ()) :
    loginResult env found bootstrap x now = .ok ⟨some r.accessToken, some exp, true⟩ := by
  unfold loginResult
  simp only [hx, hexp]
  rcases h with h | h
  · rw [if_pos h]
  · by_cases hcrypto : found.crypto = true
    · rw [if_pos hcrypto]
    · rw [if_neg hcrypto, h]

theorem loginResult_bootstrapFailed {r : BitwardenTokenSuccessResponse} {exp : Instant}
    {error : String} (hx : requestApiKeyToken env.tokenDecoder env.showStatus x = .ok r)
    (hexp : checkedAdd env.lastInstant now (fromSecs r.expiresIn.toNat) = some exp)
    (hcrypto : found.crypto = false) (h : bootstrap r = .error error) :
    loginResult env found bootstrap x now = .error (.cryptoBootstrap error) := by
  unfold loginResult
  simp only [hx, hexp]
  rw [if_neg (by rw [hcrypto]; simp), h]

/-- An exchange that the request or the expiry refuses. -/
theorem loginResult_refused {error : BitwardenAuthError}
    (hx : requestApiKeyToken env.tokenDecoder env.showStatus x = .error error ∨
      error = .invalidResponse ∧
        ∃ r, requestApiKeyToken env.tokenDecoder env.showStatus x = .ok r ∧
          checkedAdd env.lastInstant now (fromSecs r.expiresIn.toNat) = none) :
    loginResult env found bootstrap x now = .error error := by
  unfold loginResult
  rcases hx with hx | ⟨rfl, r, hx, hexp⟩
  · rw [hx]
  · simp only [hx, hexp]

/-- **A login succeeds exactly when it has all it needs**, and then it publishes the token
with its expiry. -/
theorem loginResult_ok_iff {a : Auth} : loginResult env found bootstrap x now = .ok a ↔
    Succeeds env found bootstrap x now ∧ ∃ status body r, x = .response status body ∧
      env.tokenDecoder.success body = some r ∧
      a = ⟨some r.accessToken, some (now + fromSecs r.expiresIn.toNat), true⟩ := by
  constructor
  · intro h
    cases hx : requestApiKeyToken env.tokenDecoder env.showStatus x with
    | error error =>
        rw [loginResult_refused (Or.inl hx)] at h
        cases h
    | ok r =>
        obtain ⟨status, body, rfl, hstatus, hbody⟩ := requestApiKeyToken_ok.mp hx
        cases hexp : checkedAdd env.lastInstant now (fromSecs r.expiresIn.toNat) with
        | none =>
            rw [loginResult_refused (Or.inr ⟨rfl, r, hx, hexp⟩)] at h
            cases h
        | some exp =>
            obtain ⟨hle, rfl⟩ := checkedAdd_eq_some.mp hexp
            by_cases hready : found.crypto = true ∨ bootstrap r = .ok ()
            · rw [loginResult_issued hx hexp hready] at h
              obtain rfl := Except.ok.inj h
              exact ⟨⟨status, body, r, rfl, hstatus, hbody, hle, hready⟩, status, body, r, rfl,
                hbody, rfl⟩
            · rw [not_or] at hready
              have hcrypto : found.crypto = false := by simpa using hready.1
              cases hboot : bootstrap r with
              | ok done => exact absurd hboot hready.2
              | error error =>
                  rw [loginResult_bootstrapFailed hx hexp hcrypto hboot] at h
                  cases h
  · rintro ⟨⟨status, body, r, rfl, hstatus, hbody, hle, hready⟩, status', body', r', heq, hbody',
      rfl⟩
    obtain ⟨rfl, rfl⟩ := Exchange.response.inj heq
    obtain rfl := Option.some.inj (hbody.symm.trans hbody')
    exact loginResult_issued (requestApiKeyToken_ok.mpr ⟨status, body, rfl, hstatus, hbody⟩)
      (checkedAdd_eq_some.mpr ⟨hle, rfl⟩) hready

/-! ### A login among other calls -/

/-- What the identity endpoint has answered, and when. -/
abbrev Answered (env : Env) := Option (Exchange env.Body × Instant)

def Input.answer {Body : Type} (now : Instant) : Input Body → Option (Exchange Body × Instant)
  | .token x => some (x, now)
  | _ => none

/-- The answer that an action brings to call `i`. -/
def answered (w : World env) (i : CallId) : Action env.Body → Answered env
  | .call j input => if j = i then input.answer w.clock else none
  | _ => none

/-- A part of a run from `w₀`, as long as call `i` is in its login, and the answer it has got
in it. -/
inductive During (i : CallId) (w₀ : World env) : World env → Answered env → Prop
  | begun : During i w₀ w₀ none
  | step {w w' : World env} {answer : Answered env} {a : Action env.Body}
      (h : During i w₀ w answer) (hin : (w.calls i).inLogin = true) (hs : w.step a = some w') :
      During i w₀ w' (answer.or (answered w i a))

/-- The token that a login has in hand comes from its answer. -/
def Issued (env : Env) (answer : Answered env) (r : BitwardenTokenSuccessResponse)
    (exp : Instant) : Prop :=
  ∃ x now, answer = some (x, now) ∧
    requestApiKeyToken env.tokenDecoder env.showStatus x = .ok r ∧
    checkedAdd env.lastInstant now (fromSecs r.expiresIn.toNat) = some exp

/-- Whether there is a user key is as it was. -/
def SameUser (s₀ s : BitwardenSession env) : Prop :=
  (env.crypto.symmetric s.store .user).isSome = (env.crypto.symmetric s₀.store .user).isSome

/-- How far a login has come that found the session `s₀`. -/
inductive Stage (s₀ : BitwardenSession env) (caller : Caller) (s : BitwardenSession env) (pc : Pc)
    (answer : Answered env) : Prop
  | request (hpc : pc = .request caller) (hauth : s.state.value = s₀.state.value)
      (huser : SameUser s₀ s) (hanswer : answer = none)
  | ready {held : Bool} {r : BitwardenTokenSuccessResponse} {exp : Instant}
      (hpc : pc = .ready held caller r exp) (hauth : s.state.value = s₀.state.value)
      (huser : SameUser s₀ s) (hissued : Issued env answer r exp)
  | bootstrap {r : BitwardenTokenSuccessResponse} {exp : Instant}
      (hpc : pc = .bootstrap caller r exp) (hauth : s.state.value = s₀.state.value)
      (huser : SameUser s₀ s) (hissued : Issued env answer r exp)
      (hcrypto : s₀.state.value.crypto = false)
  | publish {held : Bool} {r : BitwardenTokenSuccessResponse} {exp : Instant}
      (hpc : pc = .publish held caller r exp) (hauth : s.state.value = s₀.state.value)
      (hissued : Issued env answer r exp)
      (hready : s₀.state.value.crypto = true ∨ bootstrapResult env s₀.store r = .ok ())
  | cancelled (hpc : pc = .cancelled) (hauth : s.state.value = s₀.state.value)
  | failed {x : Exchange env.Body} {now : Instant} {error : BitwardenAuthError}
      (hpc : pc = .done (.err (.auth error))) (hauth : s.state.value = s₀.state.value)
      (hanswer : answer = some (x, now))
      (hresult : loginResult env s₀.state.value (bootstrapResult env s₀.store) x now =
        .error error)
  | succeeded {x : Exchange env.Body} {now : Instant} (hpc : pc = .resume caller)
      (hanswer : answer = some (x, now))
      (hresult : loginResult env s₀.state.value (bootstrapResult env s₀.store) x now =
        .ok s.state.value)

variable {s₀ : BitwardenSession env} {caller : Caller} {answer : Answered env}

theorem SameUser.result (h : SameUser s₀ s) (r : BitwardenTokenSuccessResponse) :
    (initializeUserCrypto env.crypto s.store env.password r).1 = bootstrapResult env s₀.store r :=
  initializeUserCrypto_congr h _ _

theorem Issued.mono {r : BitwardenTokenSuccessResponse} {exp : Instant}
    (h : Issued env answer r exp) (more : Answered env) : Issued env (answer.or more) r exp := by
  obtain ⟨x, now, rfl, hx, hexp⟩ := h
  exact ⟨x, now, rfl, hx, hexp⟩

/-- A login goes on from where it is. -/
theorem Stage.own (h : Stage s₀ caller s pc answer)
    (hm : Move env i now s pc input s' pc' events) (hin : pc.inLogin = true) :
    Stage s₀ caller s' pc' (answer.or (input.answer now)) := by
  cases h with
  | request hpc hauth huser hanswer =>
      subst hpc hanswer
      cases hm with
      | refused hevents hx => exact .failed rfl hauth rfl (loginResult_refused hx)
      | issued hx hexp => exact .ready rfl hauth huser ⟨_, _, rfl, hx, hexp⟩
      | cancel hpc => exact .cancelled rfl ((dropGuards_value _ _).trans hauth)
      | takeState hpc hfree => cases hpc
      | takeGate hpc hfree => cases hpc
      | overflow hpc hstale => cases hpc
      | fresh hpc hstale => cases hpc
  | ready hpc hauth huser hissued =>
      subst hpc
      cases hm with
      | locked hcrypto =>
          exact .bootstrap rfl hauth huser (hissued.mono _) (by rw [← hauth]; exact hcrypto)
      | unlocked hcrypto =>
          exact .publish rfl hauth (hissued.mono _) (Or.inl (by rw [← hauth]; exact hcrypto))
      | cancel hpc => exact .cancelled rfl ((dropGuards_value _ _).trans hauth)
      | takeState hpc hfree =>
          cases hpc
          exact .ready rfl hauth huser (hissued.mono _)
      | takeGate hpc hfree => cases hpc
      | overflow hpc hstale => cases hpc
      | fresh hpc hstale => cases hpc
  | bootstrap hpc hauth huser hissued hcrypto =>
      subst hpc
      cases hm with
      | bootstrapFailed hinit =>
          rw [huser.result] at hinit
          obtain ⟨x, t, rfl, hx, hexp⟩ := hissued
          exact .failed rfl hauth rfl (loginResult_bootstrapFailed hx hexp hcrypto hinit)
      | bootstrapped hinit =>
          rw [huser.result] at hinit
          exact .publish rfl hauth (hissued.mono _) (Or.inr hinit)
      | cancel hpc => cases hpc
      | takeState hpc hfree => cases hpc
      | takeGate hpc hfree => cases hpc
      | overflow hpc hstale => cases hpc
      | fresh hpc hstale => cases hpc
  | publish hpc hauth hissued hready =>
      subst hpc
      cases hm with
      | published =>
          obtain ⟨x, t, rfl, hx, hexp⟩ := hissued
          exact .succeeded rfl rfl (loginResult_issued hx hexp hready)
      | cancel hpc => exact .cancelled rfl ((dropGuards_value _ _).trans hauth)
      | takeState hpc hfree =>
          cases hpc
          exact .publish rfl hauth (hissued.mono _) hready
      | takeGate hpc hfree => cases hpc
      | overflow hpc hstale => cases hpc
      | fresh hpc hstale => cases hpc
  | cancelled hpc hauth =>
      rw [hpc] at hin
      cases hin
  | failed hpc hauth hanswer hresult =>
      rw [hpc] at hin
      cases hin
  | succeeded hpc hanswer hresult =>
      rw [hpc, inLogin_resume] at hin
      cases hin

/-- Steps that leave the authentication state and the user key alone leave a login where it
is. -/
theorem Stage.other (h : Stage s₀ caller s pc answer) (hin : pc.inLogin = true)
    (hauth' : s'.state.value = s.state.value)
    (huser' : env.crypto.symmetric s'.store .user = env.crypto.symmetric s.store .user) :
    Stage s₀ caller s' pc answer := by
  have hsame : SameUser s₀ s → SameUser s₀ s' := by
    intro huser
    rw [SameUser, huser']
    exact huser
  cases h with
  | request hpc hauth huser hanswer =>
      exact .request hpc (hauth'.trans hauth) (hsame huser) hanswer
  | ready hpc hauth huser hissued =>
      exact .ready hpc (hauth'.trans hauth) (hsame huser) hissued
  | bootstrap hpc hauth huser hissued hcrypto =>
      exact .bootstrap hpc (hauth'.trans hauth) (hsame huser) hissued hcrypto
  | publish hpc hauth hissued hready =>
      exact .publish hpc (hauth'.trans hauth) hissued hready
  | cancelled hpc hauth =>
      rw [hpc] at hin
      cases hin
  | failed hpc hauth hanswer hresult =>
      rw [hpc] at hin
      cases hin
  | succeeded hpc hanswer hresult =>
      rw [hpc, inLogin_resume] at hin
      cases hin

/-- A call without the gate touches neither the authentication state nor the key store. -/
theorem Move.frame_of_not_holdsGate (hm : Move env i now s pc input s' pc' events)
    (h : pc.holdsGate = false) : s'.state.value = s.state.value ∧ s'.store = s.store := by
  cases hm with
  | overflow hpc hstale => exact ⟨dropGuards_value s pc, dropGuards_store s pc⟩
  | fresh hpc hstale => exact ⟨dropGuards_value s pc, dropGuards_store s pc⟩
  | cancel hpc => exact ⟨dropGuards_value s pc, dropGuards_store s pc⟩
  | bootstrapFailed hinit => cases h
  | bootstrapped hinit => cases h
  | published => cases h
  | givenUp => cases h
  | retry hn htoken => cases h
  | replaced hn htoken => cases h
  | _ => exact ⟨rfl, rfl⟩

theorem During.locks (hL : LocksAgree w₀) (h : During i w₀ w answer) : LocksAgree w := by
  induction h with
  | begun => exact hL
  | step h hin hs ih => exact ih.step hs

/-- **A login finds at every step what it found at the start**, whatever the others do. -/
theorem During.stage (hL : LocksAgree w₀) (hpc : w₀.calls i = .request caller)
    (h : During i w₀ w answer) : Stage w₀.session caller w.session (w.calls i) answer := by
  induction h with
  | begun => exact .request hpc rfl rfl rfl
  | @step w w' answer a h hin hs ih =>
      cases a with
      | tick now =>
          obtain ⟨-, rfl⟩ := step_tick hs
          show Stage _ _ _ _ (answer.or none)
          rw [Option.or_none]
          exact ih.other hin rfl rfl
      | initOrgs profile =>
          obtain rfl := step_initOrgs hs
          show Stage _ _ _ _ (answer.or none)
          rw [Option.or_none]
          exact ih.other hin rfl (initializeOrgKeys_frame w.session.store profile).1
      | call k input =>
          obtain ⟨s', pc', events, hm, rfl⟩ := step_call hs
          by_cases hki : k = i
          · subst hki
            rw [answered, if_pos rfl, moved_calls, Function.update_self]
            exact ih.own hm hin
          · have hk : (w.calls k).holdsGate = false := by
              by_contra hk
              exact hki ((h.locks hL).gate.unique (by simpa using hk) (holdsGate_of_inLogin hin))
            obtain ⟨hauth, hstore⟩ := hm.frame_of_not_holdsGate hk
            rw [answered, if_neg hki, Option.or_none, moved_calls,
              Function.update_of_ne (Ne.symm hki)]
            exact ih.other hin hauth (by rw [moved_session, hstore])

/-! ### Every login returns -/

/-- How many steps of its own a login has left. -/
def Pc.loginRank : Pc → Nat
  | .request _ => 6
  | .ready false _ _ _ => 5
  | .ready true _ _ _ => 4
  | .bootstrap _ _ _ => 3
  | .publish false _ _ _ => 2
  | .publish true _ _ _ => 1
  | _ => 0

theorem loginRank_resume (caller : Caller) :
    (Pc.resume caller).loginRank = 0 ∧ Pc.resume caller ≠ .cancelled :=
  resume_elim (P := fun pc => pc.loginRank = 0 ∧ pc ≠ .cancelled) (fun _ => ⟨rfl, by simp⟩)
    ⟨rfl, by simp⟩ caller

theorem Move.login_falls (hm : Move env i now s pc input s' pc' events)
    (hin : pc.inLogin = true) (hanswers : Answers pc input) :
    pc'.loginRank < pc.loginRank ∧ pc' ≠ .cancelled := by
  cases hm with
  | takeState hpc hfree =>
      cases hpc with
      | ready caller r exp => exact ⟨by simp [Pc.loginRank], by simp⟩
      | publish caller r exp => exact ⟨by simp [Pc.loginRank], by simp⟩
      | _ => cases hin
  | takeGate hpc hfree => cases hpc <;> cases hin
  | overflow hpc hstale => cases hpc <;> cases hin
  | fresh hpc hstale => cases hpc <;> cases hin
  | published =>
      obtain ⟨hrank, hne⟩ := loginRank_resume ‹Caller›
      exact ⟨by rw [hrank]; exact Nat.one_pos, hne⟩
  | cancel hpc => cases hanswers
  | refused hevents hx => exact ⟨by simp [Pc.loginRank], by simp⟩
  | issued hx hexp => exact ⟨by simp [Pc.loginRank], by simp⟩
  | locked hcrypto => exact ⟨by simp [Pc.loginRank], by simp⟩
  | unlocked hcrypto => exact ⟨by simp [Pc.loginRank], by simp⟩
  | bootstrapFailed hinit => exact ⟨by simp [Pc.loginRank], by simp⟩
  | bootstrapped hinit => exact ⟨by simp [Pc.loginRank], by simp⟩
  | _ => cases hin

/-- A guard of the state lock is dropped at the next step. -/
theorem Move.drops_state (hm : Move env i now s pc input s' pc' events)
    (h : pc.holdsState = true) : pc'.holdsState = false := by
  cases hm with
  | takeState hpc hfree => exact absurd hpc (not_awaits_of_holdsState h).1
  | takeGate hpc hfree => exact absurd hpc (not_awaits_of_holdsState h).2
  | published => exact holdsState_resume _
  | replaced hn htoken => exact holdsState_attempt _
  | overflow hpc hstale => rfl
  | fresh hpc hstale => rfl
  | cancel hpc => rfl
  | _ => rfl

/-- A call in a login with the state lock free takes its next step. -/
theorem During.own_step {x : Exchange env.Body × Instant} (h : During i w₀ w (some x))
    (hin : (w.calls i).inLogin = true) (hlock : ∀ pc, AwaitsState (w.calls i) pc → w.session.state.holder = none) :
    ∃ w', During i w₀ w' (some x) ∧ (w'.calls i).loginRank < (w.calls i).loginRank ∧
      w'.calls i ≠ .cancelled := by
  have hgate : ∀ pc, AwaitsGate (w.calls i) pc → w.session.gate.holder = none := by
    intro pc hpc
    have hheld := holdsGate_of_inLogin hin
    rw [hpc.before] at hheld
    cases hheld
  obtain ⟨-, ⟨input, hanswers⟩, hstep⟩ :=
    canStep (atRest_of_holdsGate (holdsGate_of_inLogin hin)) hlock hgate
  obtain ⟨w', hw'⟩ := Option.isSome_iff_exists.mp (hstep input hanswers)
  have hduring : During i w₀ w' (some x) := h.step hin hw'
  obtain ⟨s', pc', events, hm, rfl⟩ := step_call hw'
  refine ⟨_, hduring, ?_⟩
  rw [moved_calls, Function.update_self]
  exact hm.login_falls hin hanswers

/-- Whoever has the state lock, it can be had for the next step of a login. -/
theorem During.next {x : Exchange env.Body × Instant} (hL : LocksAgree w₀)
    (h : During i w₀ w (some x)) (hin : (w.calls i).inLogin = true) :
    ∃ w', During i w₀ w' (some x) ∧ (w'.calls i).loginRank < (w.calls i).loginRank ∧
      w'.calls i ≠ .cancelled := by
  cases hholder : w.session.state.holder with
  | none => exact h.own_step hin fun _ _ => hholder
  | some k =>
      have hk : (w.calls k).holdsState = true := ((h.locks hL).state k).mp hholder
      obtain ⟨hawaits, hgates⟩ : (∀ pc, ¬AwaitsState (w.calls k) pc) ∧
          ∀ pc, ¬AwaitsGate (w.calls k) pc :=
        ⟨fun _ => (not_awaits_of_holdsState hk).1, fun _ => (not_awaits_of_holdsState hk).2⟩
      by_cases hki : k = i
      · subst hki
        exact h.own_step hin fun pc hpc => absurd hpc (hawaits pc)
      · -- the holder drops its guard first
        obtain ⟨-, ⟨input, hanswers⟩, hstep⟩ := canStep (atRest_of_holdsState hk)
          (fun pc hpc => absurd hpc (hawaits pc)) (fun pc hpc => absurd hpc (hgates pc))
        obtain ⟨w₁, hw₁⟩ := Option.isSome_iff_exists.mp (hstep input hanswers)
        have hduring : During i w₀ w₁ (some x) := h.step hin hw₁
        obtain ⟨s', pc', events, hm, rfl⟩ := step_call hw₁
        have hfree : s'.state.holder = none := by
          have hmoved := hm.state_moved
          rw [hk, hm.drops_state hk] at hmoved
          exact hmoved
        have hsame : (w.moved k s' pc' events).calls i = w.calls i := by
          rw [moved_calls, Function.update_of_ne (Ne.symm hki)]
        rw [← hsame]
        exact hduring.own_step (by rw [hsame]; exact hin) fun _ _ => hfree

/-- **Whatever the identity endpoint answers, and whoever else is there, the login can
return.** -/
theorem login_returns (hL : LocksAgree w₀) (hpc : w₀.calls i = .request caller)
    (x : Exchange env.Body) :
    ∃ w, During i w₀ w (some (x, w₀.clock)) ∧ (w.calls i).inLogin = false ∧
      w.calls i ≠ .cancelled := by
  have hin : (w₀.calls i).inLogin = true := by
    rw [hpc]
    rfl
  have hanswers : Answers (w₀.calls i) (.token x) := by
    rw [hpc]
    exact .token caller x
  have hsome : (w₀.step (.call i (.token x))).isSome := by
    rw [World.step, Option.isSome_map]
    refine advance_isSome_of_answers hanswers ?_ ?_
    · intro pc hawaits
      rw [hpc] at hawaits
      cases hawaits
    · intro pc hawaits
      rw [hpc] at hawaits
      cases hawaits
  obtain ⟨w₁, hw₁⟩ := Option.isSome_iff_exists.mp hsome
  have hduring : During i w₀ w₁ (some (x, w₀.clock)) := by
    have hstep := During.begun.step hin hw₁
    rw [answered, if_pos rfl] at hstep
    exact hstep
  obtain ⟨s', pc', events, hm, rfl⟩ := step_call hw₁
  have hne : (w₀.moved i s' pc' events).calls i ≠ .cancelled := by
    rw [moved_calls, Function.update_self]
    exact (hm.login_falls hin hanswers).2
  -- from here on every step of the login brings it nearer to its end
  generalize w₀.moved i s' pc' events = w at hduring hne
  induction hn : (w.calls i).loginRank using Nat.strongRecOn generalizing w with
  | _ n ih =>
      cases hlogin : (w.calls i).inLogin with
      | false => exact ⟨w, hduring, hlogin, hne⟩
      | true =>
          obtain ⟨w', hduring', hlt, hne'⟩ := hduring.next hL hlogin
          exact ih _ (hn ▸ hlt) w' hduring' hne' rfl

/-! ### The clock -/

/-- The one sum that can fail is the staleness check's, at the end of the clock. -/
theorem stale_isSome {auth : Auth} {limit : Instant} (h : now + tokenRenewalWindow ≤ limit) :
    (auth.stale limit now).isSome := by
  unfold Auth.stale
  cases auth.exp with
  | none => rfl
  | some exp => simp [checkedAdd, h]

theorem Move.no_overflow (hm : Move env i now s pc input s' pc' events)
    (h : now + tokenRenewalWindow ≤ env.lastInstant) : pc' ≠ .panicked .instantOverflow := by
  cases hm with
  | overflow hpc hstale =>
      have hsome := @stale_isSome now s.state.value _ h
      rw [hstale] at hsome
      cases hsome
  | takeState hpc hfree => cases hpc <;> simp
  | takeGate hpc hfree => cases hpc <;> simp
  | published =>
      refine resume_elim (P := fun pc => pc ≠ .panicked .instantOverflow) ?_ ?_ _
      · simp
      · simp
  | replaced hn htoken =>
      refine attempt_elim (P := fun pc => pc ≠ .panicked .instantOverflow) ?_ ?_ _
      · simp
      · simp
  | _ => simp

/-- A clock that stays away from its end makes no call overflow. -/
theorem no_overflow
    (h : ((sessionMachine env).restrict fun w _ =>
      w.clock + tokenRenewalWindow ≤ env.lastInstant).Reachable w) :
    ∀ i, w.calls i ≠ .panicked .instantOverflow := by
  refine h.invariant (I := fun w => ∀ i, w.calls i ≠ .panicked .instantOverflow) ?_ ?_
  · rintro w ⟨clock, rfl⟩ i
    simp [World.start]
  · intro w w' a _ hI hstep
    obtain ⟨hclock, hs⟩ := (Machine.restrict_step _ _ _ _ _).mp hstep
    intro j
    cases a with
    | tick now =>
        obtain ⟨-, rfl⟩ := step_tick hs
        exact hI j
    | initOrgs profile =>
        obtain rfl := step_initOrgs hs
        exact hI j
    | call i input =>
        obtain ⟨s', pc', events, hm, rfl⟩ := step_call hs
        rw [moved_calls]
        by_cases hji : j = i
        · subst hji
          rw [Function.update_self]
          exact hm.no_overflow hclock
        · rw [Function.update_of_ne hji]
          exact hI j

/-! ### Success and failure -/

/-- How an answer is reported when the login fails: by the first of the three payload shapes
that the body has, in the order success, two-factor, identity failure. -/
structure Reported (env : Env) (x : Exchange env.Body) (error : BitwardenAuthError) : Prop where
  twoFactor : ∀ status body, x = .response status body →
    env.tokenDecoder.success body = none → env.tokenDecoder.twoFactor body = true →
    error = .twoFactorRequired
  identityFail : ∀ status body r, x = .response status body →
    env.tokenDecoder.success body = none → env.tokenDecoder.twoFactor body = false →
    env.tokenDecoder.identityFail body = some r → error = .identityFail r
  /-- A body of the first shape, or of none. -/
  generic : ∀ status body, x = .response status body → status.isSuccess = false →
    (env.tokenDecoder.success body = none → env.tokenDecoder.twoFactor body = false ∧
      env.tokenDecoder.identityFail body = none) →
    error = .tokenRequest (identityRequestFailed env.showStatus status)

theorem reported_of_loginResult {error : BitwardenAuthError}
    (h : loginResult env found bootstrap x now = .error error) : Reported env x error := by
  have hrequest : ∀ {e}, requestApiKeyToken env.tokenDecoder env.showStatus x = .error e →
      error = e := by
    intro e he
    rw [loginResult_refused (Or.inl he)] at h
    exact (Except.error.inj h).symm
  refine ⟨?_, ?_, ?_⟩
  · rintro status body rfl hsuccess htwo
    exact hrequest (requestApiKeyToken_twoFactor (decode_twoFactor.mpr ⟨hsuccess, htwo⟩))
  · rintro status body r rfl hsuccess htwo hfail
    exact hrequest (requestApiKeyToken_identityFail
      (decode_identityFail.mpr ⟨hsuccess, htwo, hfail⟩))
  · rintro status body rfl hstatus hshape
    refine hrequest (requestApiKeyToken_generic hstatus ?_)
    cases hsuccess : env.tokenDecoder.success body with
    | none => exact Or.inl (decode_none.mpr ⟨hsuccess, hshape hsuccess⟩)
    | some r => exact Or.inr ⟨r, decode_success.mpr hsuccess⟩

/-- What has become of a login of call `i` that began in `w₀`. -/
structure LoginOutcome (i : CallId) (caller : Caller) (w₀ w : World env) (answer : Answered env) :
    Prop where
  /-- Until it succeeds, and if it does not, the token, its expiry and the readiness of the
  key store are what it found. -/
  unchanged : w.calls i ≠ .resume caller → w.session.state.value = w₀.session.state.value
  /-- Once it has returned, it has succeeded exactly when it had all it needs. -/
  returned : (w.calls i).inLogin = false → w.calls i ≠ .cancelled → ∃ x now,
    answer = some (x, now) ∧
    (w.calls i = .resume caller ↔
      Succeeds env w₀.session.state.value (bootstrapResult env w₀.session.store) x now) ∧
    (w.calls i = .resume caller → ∃ status body r, x = .response status body ∧
      env.tokenDecoder.success body = some r ∧ w.session.state.value =
        ⟨some r.accessToken, some (now + fromSecs r.expiresIn.toNat), true⟩) ∧
    (w.calls i ≠ .resume caller →
      ∃ error, w.calls i = .done (.err (.auth error)) ∧ Reported env x error)

theorem Stage.outcome (h : Stage w₀.session caller w.session (w.calls i) answer) :
    LoginOutcome i caller w₀ w answer := by
  -- short of the end there is nothing more to say than that nothing has changed
  have hbefore : (w.calls i).inLogin = true →
      w.session.state.value = w₀.session.state.value → LoginOutcome i caller w₀ w answer := by
    intro hin hauth
    refine ⟨fun _ => hauth, fun hout => ?_⟩
    rw [hin] at hout
    cases hout
  cases h with
  | request hpc hauth huser hanswer => exact hbefore (by rw [hpc]; rfl) hauth
  | ready hpc hauth huser hissued => exact hbefore (by rw [hpc]; rfl) hauth
  | bootstrap hpc hauth huser hissued hcrypto => exact hbefore (by rw [hpc]; rfl) hauth
  | publish hpc hauth hissued hready => exact hbefore (by rw [hpc]; rfl) hauth
  | cancelled hpc hauth => exact ⟨fun _ => hauth, fun _ hne => absurd hpc hne⟩
  | @failed x now error hpc hauth hanswer hresult =>
      have hne : w.calls i ≠ .resume caller := by
        rw [hpc]
        exact (resume_ne_done caller _).symm
      refine ⟨fun _ => hauth, fun _ _ => ⟨x, now, hanswer, ?_, fun h => absurd h hne, fun _ =>
        ⟨error, hpc, reported_of_loginResult hresult⟩⟩⟩
      constructor
      · intro h
        exact absurd h hne
      · intro hsucceeds
        obtain ⟨status, body, r, hx, -, hbody, -, -⟩ := id hsucceeds
        have hok := loginResult_ok_iff.mpr ⟨hsucceeds, status, body, r, hx, hbody, rfl⟩
        rw [hresult] at hok
        cases hok
  | @succeeded x now hpc hanswer hresult =>
      obtain ⟨hsucceeds, hpublished⟩ := loginResult_ok_iff.mp hresult
      exact ⟨fun hne => absurd hpc hne, fun _ _ => ⟨x, now, hanswer, ⟨fun _ => hsucceeds,
        fun _ => hpc⟩, fun _ => hpublished, fun hne => absurd hpc hne⟩⟩

/-- **A login succeeds exactly when the exchange, the payload, the expiry and the key store
let it, and leaves no trace when it fails**, whatever runs beside it; it can always return,
and a clock that keeps its distance from the end of time overflows nowhere. -/
theorem session_login (env : Env) :
    (∀ (i : CallId) (caller : Caller) (w₀ w : World env) (answer : Answered env),
      LocksAgree w₀ → w₀.calls i = .request caller → During i w₀ w answer →
        LoginOutcome i caller w₀ w answer) ∧
    (∀ (i : CallId) (caller : Caller) (w₀ : World env) (x : Exchange env.Body),
      LocksAgree w₀ → w₀.calls i = .request caller →
        ∃ w, During i w₀ w (some (x, w₀.clock)) ∧ (w.calls i).inLogin = false ∧
          w.calls i ≠ .cancelled) ∧
    ∀ w : World env, ((sessionMachine env).restrict fun w _ =>
        w.clock + tokenRenewalWindow ≤ env.lastInstant).Reachable w →
      ∀ i, w.calls i ≠ .panicked .instantOverflow := by
  refine ⟨?_, ?_, ?_⟩
  · intro i caller w₀ w answer hL hpc hduring
    exact (hduring.stage hL hpc).outcome
  · intro i caller w₀ x hL hpc
    exact login_returns hL hpc x
  · intro w h
    exact no_overflow h

/-- A refused login and a successful one, from the first request of a session. -/
theorem session_login_first : ∃ w₀ w w' : World plainEnv,
    (sessionMachine plainEnv).Reachable w₀ ∧ w₀.calls 0 = .request .token ∧
      LoginOutcome 0 .token w₀ w (some (.failed "timed out", w₀.clock)) ∧
      LoginOutcome 0 .token w₀ w'
        (some (.response .ok (.token (plainToken "token")), w₀.clock)) := by
  obtain ⟨w₀, hr, hp⟩ := reachable_of_run plainEnv (Run.go 0 6)
    (fun w => w.calls 0 == .request .token) (by decide)
  have hpc : w₀.calls 0 = .request .token := by simpa using hp
  obtain ⟨houtcome, hreturns, -⟩ := session_login plainEnv
  obtain ⟨w, hw, -, -⟩ := hreturns 0 .token w₀ (.failed "timed out") (locksAgree hr) hpc
  obtain ⟨w', hw', -, -⟩ := hreturns 0 .token w₀
    (.response .ok (.token (plainToken "token"))) (locksAgree hr) hpc
  exact ⟨w₀, w, w', hr, hpc, houtcome 0 .token w₀ w _ (locksAgree hr) hpc hw,
    houtcome 0 .token w₀ w' _ (locksAgree hr) hpc hw'⟩

end Keyring.Bitwarden
