/-
A session heals: one call alone, against healthy endpoints, gets its vault.

Every step of a call lowers its rank, so a call that is never refused a step ends, and a
call that runs alone is refused none.  It remains to see where it ends.  What an earlier
history can leave is one of two states: a token with a future, which the server may still
reject once, or no usable token, which the call repairs before it sends anything.
-/
import Keyring.Proofs.Bitwarden.Session.Missing
import Keyring.Proofs.Bitwarden.Session.Progress
import Keyring.Proofs.Bitwarden.Session.Retry

namespace Keyring.Bitwarden

variable {env : Env} {i j : CallId} {now : Instant} {s s' : BitwardenSession env}
  {pc pc' : Pc} {input : Input env.Body} {events : List Event} {w w' : World env}

/-! ### Calls end -/

/-- The rank of the attempt that follows a login. -/
def Caller.rank : Caller → Nat
  | .token => 18
  | .sync _ _ => 6

/-- The rank of the end of an attempt. -/
def attemptRank (n : Nat) : Nat := if n = 0 then 12 else 0

/-- How many steps a call at this place can still take. -/
def Pc.rank : Pc → Nat
  | .idle => 30
  | .stale held => if held then 28 else 29
  | .gate => 27
  | .restale held => if held then 25 else 26
  | .request caller => caller.rank + 6
  | .ready held caller _ _ => caller.rank + if held then 4 else 5
  | .bootstrap caller _ _ => caller.rank + 3
  | .publish held caller _ _ => caller.rank + if held then 1 else 2
  | .read held n => attemptRank n + if held then 5 else 6
  | .send n _ => attemptRank n + 4
  | .rejected n _ => attemptRank n + 3
  | .invalidate held n _ => attemptRank n + if held then 1 else 2
  | .body => 1
  | .done _ | .cancelled | .panicked _ => 0

theorem AwaitsState.rank_lt (h : AwaitsState pc pc') : pc'.rank < pc.rank := by
  cases h <;> simp [Pc.rank]

theorem AwaitsGate.rank_lt (h : AwaitsGate pc pc') : pc'.rank < pc.rank := by
  cases h <;> simp [Pc.rank]

theorem rank_pos_of_awaits (h : pc.awaits = true) : 0 < pc.rank := by
  cases pc with
  | stale held | restale held => cases held <;> exact Nat.succ_pos _
  | ready held caller r exp | publish held caller r exp | read held n
  | invalidate held n t => cases held <;> exact Nat.succ_pos _
  | request caller | send n t | rejected n t => exact Nat.succ_pos _
  | gate | body => exact Nat.succ_pos _
  | idle | bootstrap caller r exp | done outcome | cancelled | panicked panic =>
      exact absurd h (by simp [Pc.awaits])

/-- **Every step of a call brings it closer to its end.** -/
theorem Move.rank_lt (h : Move env i now s pc input s' pc' events) (hb : pc.Bounded) :
    pc'.rank < pc.rank := by
  cases h with
  | takeState hpc hfree => exact hpc.rank_lt
  | takeGate hpc hfree => exact hpc.rank_lt
  | overflow hpc hstale => cases hpc <;> exact Nat.succ_pos _
  | fresh hpc hstale => cases hpc <;> simp [Pc.rank, attemptRank]
  | published =>
      rename_i caller r exp
      rcases resume_of_bounded hb with hresume | ⟨⟨t, rfl⟩, hresume⟩
      · rw [hresume]
        cases caller with
        | token => simp [Pc.rank, Caller.rank, attemptRank]
        | sync n t => exact absurd hresume (by
            obtain rfl : n = 0 := hb
            simp [Pc.resume, Pc.attempt])
      · rw [hresume]
        simp [Pc.rank, Caller.rank, attemptRank]
  | retry hn htoken =>
      rename_i n t
      have hlt : n < 2 := hb
      obtain rfl : n = 0 := by omega
      simp [Pc.rank, Caller.rank, attemptRank]
  | replaced hn htoken =>
      rename_i n t t'
      have hlt : n < 2 := hb
      obtain rfl : n = 0 := by omega
      simp [Pc.attempt, Pc.rank, attemptRank]
  | cancel hpc => exact rank_pos_of_awaits hpc
  | accepted hstatus =>
      show 1 < attemptRank _ + 4
      omega
  | givenUp => simp [Pc.rank, attemptRank]
  | _ => simp [Pc.rank, Caller.rank]

/-! ### A call alone with healthy endpoints -/

/-- The token was issued after the first `k`, and is the last one. -/
def Newest (k : Nat) (log : List (CallId × Event)) (t : String) : Prop :=
  k < (issuedTokens log).length ∧ (issuedTokens log).getLast? = some t

/-- The unlock data of a login are valid for the configured password. -/
def Unlocks (env : Env) (r : BitwardenTokenSuccessResponse) : Prop :=
  ∃ e k alg, unlockUserKey env.crypto.toCipherSuite env.password r = .ok (e, k) ∧
    env.crypto.algorithm k = .ok alg

/-- Endpoints that work.  What they answer may depend on everything that has happened.
`k` tokens were issued before they began to; a token issued since is accepted while it is
the last one, and whether any other is accepted is left open.  Time does not run out. -/
structure HealthyServer (env : Env) (k : Nat) where
  token : World env → Exchange env.Body
  headers : World env → String → StatusCode
  body : World env → env.Body
  horizon : Instant
  inTime : horizon + tokenRenewalWindow ≤ env.lastInstant
  token_ok : ∀ w, w.clock ≤ horizon →
    ∃ r, requestApiKeyToken env.tokenDecoder env.showStatus (token w) = .ok r ∧
      Unlocks env r ∧ w.clock + fromSecs r.expiresIn.toNat ≤ env.lastInstant
  headers_ok : ∀ w t, (headers w t).isSuccess = true ∨
    headers w t = .unauthorized ∧ ¬Newest k w.log t
  body_ok : ∀ w, ∃ vault, env.decodeSync (body w) = .ok vault

variable {k : Nat}

/-- What a call that waits at a place is answered. -/
def HealthyServer.answer (server : HealthyServer env k) (w : World env) : Pc → Input env.Body
  | .request _ => .token (server.token w)
  | .send _ t => .headers (.ok (server.headers w t))
  | .body => .body (.ok (server.body w))
  | _ => .go

/-- The runs in which only call `i` takes steps, with time passing between them. -/
def soloMachine (server : HealthyServer env k) (i : CallId) : Machine (World env) Instant where
  init _ := True
  step w now w' := w.clock ≤ now ∧ now ≤ server.horizon ∧
    World.step { w with clock := now }
      (.call i (server.answer { w with clock := now } (w.calls i))) = some w'

/-- Where a healthy call can stand, with how many logins and requests behind it. -/
def Place (env : Env) (token : Option String) (newest : String → Prop) (began sent : Nat) :
    Pc → Prop
  | .idle | .stale _ | .gate | .restale _ => began = 0 ∧ sent = 0
  | .request .token => began = 1 ∧ sent = 0
  | .request (.sync n _) => n = 0 ∧ began = 1 ∧ sent = 1
  | .ready _ caller r _ | .bootstrap caller r _ | .publish _ caller r _ =>
      newest r.accessToken ∧ Unlocks env r ∧ began = 1 ∧ sent = caller.requests ∧ caller.Bounded
  | .read _ n => n = 0 ∧ sent = 0 ∧ began = 0 ∧ token ≠ none ∨
      n = sent ∧ n < 2 ∧ began = 1 ∧ ∃ t, token = some t ∧ newest t
  | .send n t => token = some t ∧ (n = 0 ∧ sent = 1 ∧ began = 0 ∨
      n + 1 = sent ∧ n < 2 ∧ began = 1 ∧ newest t)
  | .rejected n t | .invalidate _ n t => n = 0 ∧ sent = 1 ∧ began = 0 ∧ token = some t
  | .body => began ≤ 1 ∧ sent ≤ 2
  | .done outcome => (∃ vault, outcome = .ok vault) ∧ began ≤ 1 ∧ sent ≤ 2
  | .cancelled | .panicked _ => False

theorem newest_append {log new : List (CallId × Event)} {t : String}
    (hnew : issuedTokens new = []) (h : Newest k log t) : Newest k (log ++ new) t := by
  unfold Newest
  rw [issuedTokens_append, hnew, List.append_nil]
  exact h

/-- The token of the login that has just succeeded is the newest. -/
theorem newest_issued {log : List (CallId × Event)} (hk : k ≤ (issuedTokens log).length)
    (i : CallId) (r : BitwardenTokenSuccessResponse) (now : Instant) :
    Newest k (log ++ [(i, .issued r now)]) r.accessToken := by
  have hissued : issuedTokens [(i, Event.issued r now)] = [r.accessToken] := rfl
  unfold Newest
  rw [issuedTokens_append, hissued, List.length_append, List.getLast?_concat]
  exact ⟨Nat.lt_succ_of_le hk, rfl⟩

/-- In time, the freshness check does not overflow. -/
theorem stale_ne_none {auth : Auth} {limit : Instant} (h : now + tokenRenewalWindow ≤ limit) :
    auth.stale limit now ≠ none := by
  unfold Auth.stale
  cases auth.exp with
  | none => simp
  | some exp =>
      have hadd := checkedAdd_eq_some.mpr ⟨h, rfl⟩
      simp [hadd]

/-- A healthy server answers whatever is waited for. -/
theorem HealthyServer.answers (server : HealthyServer env k) (w : World env)
    (hlive : 0 < pc.rank) : Answers pc (server.answer w pc) := by
  cases pc with
  | idle => exact .idle
  | stale held => exact .stale held
  | gate => exact .gate
  | restale held => exact .restale held
  | request caller => exact .token caller _
  | ready held caller r exp => exact .ready held caller r exp
  | bootstrap caller r exp => exact .bootstrap caller r exp
  | publish held caller r exp => exact .publish held caller r exp
  | read held n => exact .read held n
  | send n t => exact .headers n t _
  | body => exact .body _
  | rejected n t => exact .rejected n t
  | invalidate held n t => exact .invalidate held n t
  | done outcome | cancelled | panicked panic => exact absurd hlive (Nat.lt_irrefl 0)

/-- A call is never refused a step while its locks are free. -/
theorem advance_isSome (server : HealthyServer env k) (w : World env)
    (hstate : pc.holdsState = false → s.state.holder = none)
    (hgate : pc.holdsGate = false → s.gate.holder = none)
    (hlive : 0 < pc.rank) : (advance env i now s pc (server.answer w pc)).isSome :=
  advance_isSome_of_answers (server.answers w hlive) (fun _ hpc => hstate hpc.before)
    (fun _ hpc => hgate hpc.before)

/-- Steps that take a lock change nothing a place speaks of. -/
theorem AwaitsState.place {token : Option String} {newest : String → Prop} {began sent : Nat}
    (h : AwaitsState pc pc') (hp : Place env token newest began sent pc) :
    Place env token newest began sent pc' := by
  cases h <;> exact hp

theorem AwaitsGate.place {token : Option String} {newest : String → Prop} {began sent : Nat}
    (h : AwaitsGate pc pc') (hp : Place env token newest began sent pc) :
    Place env token newest began sent pc' := by
  cases h <;> exact hp

/-- The answer of a healthy server to a login, put to use. -/
theorem login_answered (server : HealthyServer env k) (hclock : w.clock ≤ server.horizon) :
    ∃ r, requestApiKeyToken env.tokenDecoder env.showStatus (server.token w) = .ok r ∧
      Unlocks env r ∧ checkedAdd env.lastInstant w.clock (fromSecs r.expiresIn.toNat) =
        some (w.clock + fromSecs r.expiresIn.toNat) := by
  obtain ⟨r, hx, hunlocks, hfits⟩ := server.token_ok w hclock
  exact ⟨r, hx, hunlocks, checkedAdd_eq_some.mpr ⟨hfits, rfl⟩⟩

/-- Nor is a login of a healthy server refused. -/
theorem not_refused (server : HealthyServer env k) (hclock : w.clock ≤ server.horizon)
    {error : BitwardenAuthError}
    (hx : requestApiKeyToken env.tokenDecoder env.showStatus (server.token w) = .error error ∨
      error = .invalidResponse ∧
        ∃ r, requestApiKeyToken env.tokenDecoder env.showStatus (server.token w) = .ok r ∧
          checkedAdd env.lastInstant w.clock (fromSecs r.expiresIn.toNat) = none) : False := by
  obtain ⟨r, hok, -, hfits⟩ := login_answered server hclock
  rw [hok] at hx
  rcases hx with herror | ⟨-, r', hok', hover⟩
  · exact absurd herror (by simp)
  · obtain rfl := Except.ok.inj hok'
    exact absurd (hover.symm.trans hfits) (by simp)

/-- A healthy server rejects no token that is the newest. -/
theorem HealthyServer.not_newest (server : HealthyServer env k) {t : String}
    (h : server.headers w t = .unauthorized) : ¬Newest k w.log t := by
  rcases server.headers_ok w t with hsuccess | ⟨-, hnot⟩
  · rw [h] at hsuccess
    exact absurd hsuccess (by simp [StatusCode.isSuccess_unauthorized])
  · exact hnot

/-- What a healthy server sends is a body or a rejection. -/
theorem HealthyServer.not_failed (server : HealthyServer env k) {n : Nat} {t : String}
    {error : SyncError} :
    receive n t (.ok (server.headers w t)) ≠ (.done (.err error), []) := by
  rcases server.headers_ok w t with hsuccess | ⟨hstatus, -⟩
  · have hne : server.headers w t ≠ .unauthorized := by
      intro hc
      rw [hc] at hsuccess
      exact absurd hsuccess (by simp [StatusCode.isSuccess_unauthorized])
    simp [receive, hne, hsuccess]
  · simp [receive, hstatus]

/-- **A healthy call stays on its way**, whatever else is done with the session. -/
theorem Place.moved_of_auth (server : HealthyServer env k) (hauth : AuthInv w)
    (hclock : w.clock ≤ server.horizon) (hk : k ≤ (issuedTokens w.log).length)
    (hpc : w.calls i = pc) (hinput : server.answer w pc = input)
    (hm : Move env i w.clock w.session pc input s' pc' events) {began sent : Nat}
    (hp : Place env w.session.state.value.token (Newest k w.log) began sent pc) :
    Place env s'.state.value.token (Newest k (w.log ++ events.map fun e => (i, e)))
      (began + events.countP Event.isLoginBegan) (sent + events.countP Event.isPresented) pc' := by
  have hkeep : ∀ {new : List (CallId × Event)} {t : String}, issuedTokens new = [] →
      Newest k w.log t → Newest k (w.log ++ new) t := fun hnew h => newest_append hnew h
  cases hm with
  | start => exact hp
  | takeState hpc hfree =>
      rw [List.map_nil, List.append_nil]
      exact hpc.place hp
  | takeGate hpc hfree =>
      rw [List.map_nil, List.append_nil]
      exact hpc.place hp
  | overflow hpc hstale =>
      have hfits := Nat.le_trans (Nat.add_le_add_right hclock _) server.inTime
      exact absurd hstale (stale_ne_none hfits)
  | fresh hpc hstale =>
      have htoken : w.session.state.value.token ≠ none :=
        fun hnone => exp_of_fresh hstale (hauth.cleared hnone)
      have hzero : began = 0 ∧ sent = 0 := by cases hpc <;> exact hp
      obtain ⟨rfl, rfl⟩ := hzero
      exact Or.inl ⟨rfl, rfl, rfl, by rw [dropGuards_value]; exact htoken⟩
  | queue hstale => exact hp
  | renew hstale =>
      obtain ⟨rfl, rfl⟩ : began = 0 ∧ sent = 0 := hp
      exact ⟨rfl, rfl⟩
  | refused hevents hx =>
      obtain rfl := Input.token.inj hinput
      exact (not_refused server hclock hx).elim
  | issued hx hexp =>
      rename_i caller x r exp
      obtain ⟨r', hok, hunlocks, -⟩ := login_answered server hclock
      obtain rfl := Input.token.inj hinput
      obtain rfl := Except.ok.inj (hok.symm.trans hx)
      have hnewest := newest_issued hk i r' w.clock
      cases caller with
      | token =>
          obtain ⟨rfl, rfl⟩ : began = 1 ∧ sent = 0 := hp
          exact ⟨hnewest, hunlocks, rfl, rfl, trivial⟩
      | sync n t =>
          obtain ⟨rfl, rfl, rfl⟩ : n = 0 ∧ began = 1 ∧ sent = 1 := hp
          exact ⟨hnewest, hunlocks, rfl, rfl, rfl⟩
  | locked hcrypto =>
      obtain ⟨hnewest, hrest⟩ := hp
      exact ⟨hkeep rfl hnewest, hrest⟩
  | unlocked hcrypto =>
      obtain ⟨hnewest, hrest⟩ := hp
      exact ⟨hkeep rfl hnewest, hrest⟩
  | bootstrapFailed hinit =>
      obtain ⟨-, ⟨e, key, alg, hunlock, halg⟩, -⟩ := hp
      have hok := initializeUserCrypto_succeeds (s := w.session.store) hunlock halg
      exact absurd (hok.symm.trans hinit) (by simp)
  | bootstrapped hinit =>
      obtain ⟨hnewest, hrest⟩ := hp
      exact ⟨hkeep rfl hnewest, hrest⟩
  | published =>
      rename_i caller r exp
      obtain ⟨hnewest, -, rfl, rfl, hbounded⟩ := hp
      cases caller with
      | token => exact Or.inr ⟨rfl, Nat.zero_lt_two, rfl, _, rfl, hkeep rfl hnewest⟩
      | sync n t =>
          obtain rfl : n = 0 := hbounded
          exact Or.inr ⟨rfl, Nat.one_lt_two, rfl, _, rfl, hkeep rfl hnewest⟩
  | missing htoken =>
      rcases hp with ⟨-, -, -, hsome⟩ | ⟨-, -, -, t, ht, -⟩
      · exact absurd htoken hsome
      · exact absurd (htoken.symm.trans ht) (by simp)
  | presented htoken =>
      refine ⟨htoken, ?_⟩
      rcases hp with ⟨rfl, rfl, rfl, -⟩ | ⟨rfl, hlt, rfl, t, ht, hnewest⟩
      · exact Or.inl ⟨rfl, rfl, rfl⟩
      · obtain rfl := Option.some.inj (htoken.symm.trans ht)
        exact Or.inr ⟨rfl, hlt, rfl, hkeep rfl hnewest⟩
  | accepted hstatus =>
      show began ≤ 1 ∧ sent ≤ 2
      obtain ⟨-, ⟨-, rfl, rfl⟩ | ⟨rfl, hlt, rfl, -⟩⟩ := hp
      · exact ⟨by omega, by omega⟩
      · exact ⟨by omega, by omega⟩
  | failed hx hsome hcode =>
      rename_i n t x error
      obtain rfl := Input.headers.inj hinput
      exact absurd hx server.not_failed
  | rejected =>
      rename_i n t
      have hanswer : server.headers w t = .unauthorized :=
        Except.ok.inj (Input.headers.inj hinput)
      obtain ⟨htoken, ⟨rfl, rfl, rfl⟩ | ⟨-, -, -, hnewest⟩⟩ := hp
      · exact ⟨rfl, rfl, rfl, htoken⟩
      · exact absurd hnewest (server.not_newest hanswer)
  | finished =>
      rename_i x
      obtain rfl := Input.body.inj hinput
      obtain ⟨vault, hvault⟩ := server.body_ok w
      refine ⟨⟨vault, ?_⟩, hp⟩
      simp [finish, hvault]
  | givenUp => exact absurd hp.1 (by simp)
  | retry hn htoken =>
      obtain ⟨rfl, rfl, rfl, -⟩ := hp
      exact ⟨rfl, rfl, rfl⟩
  | replaced hn htoken =>
      obtain ⟨-, -, -, ht⟩ := hp
      rw [Auth.invalidate, if_pos ht] at htoken
      exact absurd htoken (by simp)
  | cancel hpc =>
      cases hcase : pc <;> rw [hcase] at hinput <;>
        exact absurd hinput (by simp [HealthyServer.answer])

theorem Place.moved (server : HealthyServer env k) (hr : (sessionMachine env).Reachable w)
    (hclock : w.clock ≤ server.horizon) (hk : k ≤ (issuedTokens w.log).length)
    (hpc : w.calls i = pc) (hinput : server.answer w pc = input)
    (hm : Move env i w.clock w.session pc input s' pc' events) {began sent : Nat}
    (hp : Place env w.session.state.value.token (Newest k w.log) began sent pc) :
    Place env s'.state.value.token (Newest k (w.log ++ events.map fun e => (i, e)))
      (began + events.countP Event.isLoginBegan) (sent + events.countP Event.isPresented) pc' :=
  Place.moved_of_auth server (authInv hr) hclock hk hpc hinput hm hp

/-- A `sync` call ends well with a body that decodes. -/
theorem Move.succeeds {now : Instant} {s s' : BitwardenSession env} {pc pc' : Pc}
    {input : Input env.Body} {events : List Event} {vault : BitwardenSyncResponse}
    (h : Move env i now s pc input s' pc' events) (hpc' : pc' = .done (.ok vault)) :
    s' = s ∧ pc = .body ∧ ∃ x, input = .body x ∧ finish env x = .ok vault := by
  cases h with
  | takeState hpc hfree =>
      subst hpc'
      cases hpc
  | takeGate hpc hfree =>
      subst hpc'
      cases hpc
  | published => exact absurd hpc' (resume_ne_done _ _)
  | replaced hn htoken => exact absurd hpc' (attempt_ne_done _ _)
  | @finished x => exact ⟨rfl, rfl, x, rfl, Pc.done.inj hpc'⟩
  | _ => cases hpc'

/-- A body that ends a call well decodes to its vault. -/
theorem decodeSync_of_finish {body : env.Body} {vault : BitwardenSyncResponse}
    (h : finish env (.ok body) = .ok vault) : env.decodeSync body = .ok vault := by
  unfold finish at h
  cases hdecode : env.decodeSync body with
  | error error =>
      simp only [hdecode] at h
      cases h
  | ok response =>
      simp only [hdecode] at h
      obtain rfl := Outcome.ok.inj h
      rfl

/-! ### The run of a call alone -/

/-- The vault was served to the call: on the way from `w₀` to `w` there is a moment at which
it waited for a body, and that of the server decodes to this vault. -/
def HealthyServer.ServedTo (server : HealthyServer env k) (i : CallId) (w₀ w : World env)
    (vault : BitwardenSyncResponse) : Prop :=
  ∃ u, (sessionMachine env).Leads w₀ u ∧ (sessionMachine env).Leads u w ∧ u.calls i = .body ∧
    env.decodeSync (server.body u) = .ok vault

/-- What holds of a call alone, all along its way from `w₀`. -/
structure SoloInv (server : HealthyServer env k) (i : CallId) (w₀ w : World env) : Prop where
  reachable : (sessionMachine env).Reachable w
  leads : (sessionMachine env).Leads w₀ w
  served : ∀ vault, w.calls i = .done (.ok vault) → server.ServedTo i w₀ w vault
  alone : ∀ j, j ≠ i → (w.calls j).holdsState = false ∧ (w.calls j).holdsGate = false
  inTime : w.clock ≤ server.horizon
  issued : k ≤ (issuedTokens w.log).length
  place : ∃ new : List Event, w.log = w₀.log ++ new.map (fun e => (i, e)) ∧
    Place env w.session.state.value.token (Newest k w.log)
      (new.countP Event.isLoginBegan) (new.countP Event.isPresented) (w.calls i)

variable {server : HealthyServer env k} {w₀ : World env}

theorem SoloInv.state_free (h : SoloInv server i w₀ w) (hi : (w.calls i).holdsState = false) :
    w.session.state.holder = none := by
  refine (locksAgree h.reachable).state.free fun j => ?_
  by_cases hji : j = i
  · subst hji
    exact hi
  · exact (h.alone j hji).1

theorem SoloInv.gate_free (h : SoloInv server i w₀ w) (hi : (w.calls i).holdsGate = false) :
    w.session.gate.holder = none := by
  refine (locksAgree h.reachable).gate.free fun j => ?_
  by_cases hji : j = i
  · subst hji
    exact hi
  · exact (h.alone j hji).2

theorem tick_step (hle : w.clock ≤ now) :
    (sessionMachine env).step w (.tick now) { w with clock := now } := by
  show (if w.clock ≤ now then some { w with clock := now } else none) = _
  rw [if_pos hle]

/-- The runs of the call alone are runs of the session. -/
theorem solo_leads (hstep : (soloMachine server i).step w now w') :
    (sessionMachine env).Leads w w' := by
  obtain ⟨hle, -, hcall⟩ := hstep
  exact ((Machine.Leads.refl w).step (tick_step hle)).step hcall

theorem SoloInv.moved (h : SoloInv server i w₀ w)
    (hstep : (soloMachine server i).step w now w') :
    SoloInv server i w₀ w' ∧ (w'.calls i).rank < (w.calls i).rank := by
  have hleads := h.leads.trans (solo_leads hstep)
  have hr' := h.reachable.leads (solo_leads hstep)
  have hnow : (sessionMachine env).Leads w { w with clock := now } :=
    (Machine.Leads.refl w).step (tick_step hstep.1)
  obtain ⟨hle, hhorizon, hcall⟩ := hstep
  obtain ⟨s', pc', events, hm, rfl⟩ := step_call hcall
  have hr : (sessionMachine env).Reachable { w with clock := now } := h.reachable.leads hnow
  obtain ⟨new, hlog, hplace⟩ := h.place
  refine ⟨⟨hr', hleads, ?_, ?_, hhorizon, ?_, new ++ events, ?_, ?_⟩, ?_⟩
  · intro vault hdone
    rw [moved_calls, Function.update_self] at hdone
    obtain ⟨-, hbody, x, hx, hfinish⟩ := hm.succeeds hdone
    rw [show w.calls i = .body from hbody] at hx
    obtain rfl := Input.body.inj hx
    exact ⟨{ w with clock := now }, h.leads.trans hnow, (Machine.Leads.refl _).step hcall, hbody,
      decodeSync_of_finish hfinish⟩
  · intro j hji
    rw [moved_calls, Function.update_of_ne hji]
    exact h.alone j hji
  · rw [moved_log, issuedTokens_append, List.length_append]
    exact Nat.le_trans h.issued (Nat.le_add_right _ _)
  · rw [moved_log, List.map_append, ← List.append_assoc, ← hlog]
  · rw [List.countP_append, List.countP_append, moved_calls, Function.update_self]
    exact Place.moved server hr hhorizon h.issued rfl rfl hm hplace
  · rw [moved_calls, Function.update_self]
    exact hm.rank_lt (bounded h.reachable i)

/-- A healthy call that is over has its vault. -/
theorem SoloInv.ended (h : SoloInv server i w₀ w) (hrank : (w.calls i).rank = 0) :
    ∃ vault, w.calls i = .done (.ok vault) := by
  obtain ⟨new, -, hplace⟩ := h.place
  have hlive : ∀ {pc : Pc}, pc.awaits = true → pc.rank ≠ 0 :=
    fun hpc hzero => absurd (rank_pos_of_awaits hpc) (by omega)
  cases hpc : w.calls i with
  | done outcome =>
      rw [hpc] at hplace
      obtain ⟨⟨vault, rfl⟩, -⟩ := hplace
      exact ⟨vault, rfl⟩
  | cancelled | panicked panic =>
      rw [hpc] at hplace
      exact absurd hplace id
  | idle | bootstrap caller r exp =>
      rw [hpc] at hrank
      exact absurd hrank (Nat.succ_ne_zero _)
  | _ =>
      rw [hpc] at hrank
      exact absurd hrank (hlive rfl)

/-- A healthy call that is not over can take a step. -/
theorem SoloInv.can_step (h : SoloInv server i w₀ w) (hrank : 0 < (w.calls i).rank) :
    ∃ now w', (soloMachine server i).step w now w' := by
  have hadvance : (advance env i w.clock w.session (w.calls i)
      (server.answer w (w.calls i))).isSome :=
    advance_isSome server w h.state_free h.gate_free hrank
  obtain ⟨⟨s', pc', events⟩, hsome⟩ := Option.isSome_iff_exists.mp hadvance
  refine ⟨w.clock, w.moved i s' pc' events, Nat.le_refl _, h.inTime, ?_⟩
  show (advance env i w.clock w.session (w.calls i) (server.answer w (w.calls i))).map _ = _
  rw [hsome]
  rfl

/-- The call has the vault that was served to it, after at most one login and at most two
requests. -/
def Healed (server : HealthyServer env k) (i : CallId) (w₀ w : World env) : Prop :=
  ∃ vault, w.calls i = .done (.ok vault) ∧ server.ServedTo i w₀ w vault ∧ ∃ new : List Event,
    w.log = w₀.log ++ new.map (fun e => (i, e)) ∧
      new.countP Event.isLoginBegan ≤ 1 ∧ new.countP Event.isPresented ≤ 2

theorem SoloInv.healed (h : SoloInv server i w₀ w) (hrank : (w.calls i).rank = 0) :
    Healed server i w₀ w := by
  obtain ⟨vault, hvault⟩ := h.ended hrank
  obtain ⟨new, hlog, hplace⟩ := h.place
  rw [hvault] at hplace
  exact ⟨vault, hvault, h.served vault hvault, new, hlog, hplace.2⟩

/-- **The session always heals.**  From every state without a call under way, whatever
happened before, a call that runs alone against healthy endpoints cannot but return the
vault they serve, with at most one login and at most two requests. -/
theorem session_heals (h : (sessionMachine env).Reachable w₀)
    (hquiet : ∀ j, (w₀.calls j).atRest = true) (hidle : w₀.calls i = .idle)
    (server : HealthyServer env (issuedTokens w₀.log).length)
    (hclock : w₀.clock ≤ server.horizon) :
    (soloMachine server i).Inevitable (Healed server i w₀) w₀ := by
  refine Machine.inevitable_of_rank (I := SoloInv server i w₀) (fun w => (w.calls i).rank)
    ?_ ?_ w₀ ?_
  · intro w hI
    rcases Nat.eq_zero_or_pos (w.calls i).rank with hzero | hpos
    · exact Or.inl (hI.healed hzero)
    · exact Or.inr (hI.can_step hpos)
  · intro w now w' hI hstep
    exact hI.moved hstep
  · refine ⟨h, .refl w₀, ?_, fun j _ => no_guards_of_atRest (hquiet j), hclock, Nat.le_refl _,
      [], ?_, ?_⟩
    · intro vault hdone
      rw [hidle] at hdone
      cases hdone
    · rw [List.map_nil, List.append_nil]
    · rw [hidle]
      exact ⟨rfl, rfl⟩

/-- Endpoints that always issue the same token and accept every token. -/
def plainServer (k : Nat) : HealthyServer plainEnv k where
  token _ := .response .ok (.token (plainToken "new"))
  headers _ _ := .ok
  body _ := .vault plainVault
  horizon := 2 ^ 40
  inTime := by decide
  token_ok w hw := by
    refine ⟨plainToken "new", rfl, ⟨"master", "master", .aes256CbcHmac, rfl, rfl⟩, ?_⟩
    have hlifetime : fromSecs (plainToken "new").expiresIn.toNat = 3600000000000 := rfl
    rw [hlifetime]
    exact Nat.le_trans (Nat.add_le_add_right hw _) (by decide)
  headers_ok _ _ := Or.inl rfl
  body_ok _ := ⟨plainVault, rfl⟩

/-- After a login that was dropped between its bootstrap and its publication. -/
theorem session_heals_dropped : ∃ w₀ : World plainEnv,
    (plainEnv.crypto.symmetric w₀.session.store .user).isSome = true ∧
      w₀.session.state.value.crypto = false ∧
      (soloMachine (plainServer (issuedTokens w₀.log).length) 1).Inevitable
        (Healed (plainServer (issuedTokens w₀.log).length) 1 w₀) w₀ := by
  let run := Run.go 0 6 ++ [.call 0 (.token (.response .ok (.token (plainToken "lost"))))] ++
    Run.go 0 3 ++ [.call 0 .cancel]
  have hrun : (Machine.exec World.step (World.start plainEnv 0) run).any (fun w =>
      (plainEnv.crypto.symmetric w.session.store .user).isSome &&
        !w.session.state.value.crypto && w.calls 0 == .cancelled && w.clock == 0) = true := by
    decide
  have hparty : ∀ a ∈ run, a.party = some 0 := by decide
  obtain ⟨w₀, hw₀, hp⟩ := (Option.any_eq_true _ _).mp hrun
  simp only [Bool.and_eq_true, Bool.not_eq_true', beq_iff_eq] at hp
  obtain ⟨⟨⟨huser, hcrypto⟩, hcancelled⟩, hclock⟩ := hp
  have hothers : ∀ j, j ≠ 0 → w₀.calls j = .idle := by
    intro j hj
    have hnamed : ∀ a ∈ run, a.party ≠ some j :=
      fun a ha hc => hj (Option.some.inj (hc.symm.trans (hparty a ha)))
    exact @calls_of_exec plainEnv j run (World.start plainEnv 0) w₀ hnamed hw₀
  refine ⟨w₀, huser, hcrypto, session_heals (Machine.reachable_of_exec run ⟨0, rfl⟩ hw₀) ?_
    (hothers 1 (by decide)) (plainServer _) (by rw [hclock]; exact Nat.zero_le _)⟩
  intro j
  by_cases hj : j = 0
  · rw [hj, hcancelled]
    rfl
  · rw [hothers j hj]
    rfl

end Keyring.Bitwarden
