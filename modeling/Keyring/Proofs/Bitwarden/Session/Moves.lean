/-
What one step of a call can do.

`advance` is a match over places and inputs.  The moves below say the same thing the
other way round, one constructor for each thing that can happen, and every invariant of
the session is proved from them.  Steps that differ only in the place they are taken
from, such as taking the state lock, are one constructor.
-/
import Keyring.Bitwarden.MapStore
import Keyring.Bitwarden.Session
import Keyring.Proofs.Bitwarden.Crypto

namespace Keyring.Bitwarden

/-- Places that wait for the state lock, and where they go on with it. -/
inductive AwaitsState : Pc → Pc → Prop
  | stale : AwaitsState (.stale false) (.stale true)
  | restale : AwaitsState (.restale false) (.restale true)
  | ready (caller : Caller) (r : BitwardenTokenSuccessResponse) (exp : Instant) :
      AwaitsState (.ready false caller r exp) (.ready true caller r exp)
  | publish (caller : Caller) (r : BitwardenTokenSuccessResponse) (exp : Instant) :
      AwaitsState (.publish false caller r exp) (.publish true caller r exp)
  | read (n : Nat) : AwaitsState (.read false n) (.read true n)
  | invalidate (n : Nat) (t : String) :
      AwaitsState (.invalidate false n t) (.invalidate true n t)

/-- Places that wait for the gate, and where they go on with it. -/
inductive AwaitsGate : Pc → Pc → Prop
  | token : AwaitsGate .gate (.restale false)
  | rejected (n : Nat) (t : String) : AwaitsGate (.rejected n t) (.invalidate false n t)

/-- The two freshness checks. -/
inductive Checks : Pc → Prop
  | stale : Checks (.stale true)
  | restale : Checks (.restale true)

/-- The events of a login that comes to nothing: a token may have been issued for it. -/
inductive Fruitless (now : Instant) : List Event → Prop
  | refused : Fruitless now [.loginFailed]
  | wasted (r : BitwardenTokenSuccessResponse) :
      Fruitless now [.issued r now, .loginFailed]

/-- One step of a call, by what happens. -/
inductive Move (env : Env) (i : CallId) (now : Instant) (s : BitwardenSession env) :
    Pc → Input env.Body → BitwardenSession env → Pc → List Event → Prop
  | start : Move env i now s .idle .go s (.stale false) []
  | takeState {pc pc' : Pc} (hpc : AwaitsState pc pc') (hfree : s.state.holder = none) :
      Move env i now s pc .go { s with state := { s.state with holder := some i } } pc' []
  | takeGate {pc pc' : Pc} (hpc : AwaitsGate pc pc') (hfree : s.gate.holder = none) :
      Move env i now s pc .go { s with gate := { s.gate with holder := some i } } pc' []
  | overflow {pc : Pc} (hpc : Checks pc)
      (hstale : s.state.value.stale env.lastInstant now = none) :
      Move env i now s pc .go (s.dropGuards pc) (.panicked .instantOverflow) []
  | fresh {pc : Pc} (hpc : Checks pc)
      (hstale : s.state.value.stale env.lastInstant now = some false) :
      Move env i now s pc .go (s.dropGuards pc) (.read false 0) []
  | queue (hstale : s.state.value.stale env.lastInstant now = some true) :
      Move env i now s (.stale true) .go s.unlockState .gate []
  | renew (hstale : s.state.value.stale env.lastInstant now = some true) :
      Move env i now s (.restale true) .go s.unlockState (.request .token) [.loginBegan now]
  | refused {caller : Caller} {x : Exchange env.Body} {error : BitwardenAuthError}
      {events : List Event} (hevents : Fruitless now events)
      (hx : requestApiKeyToken env.tokenDecoder env.showStatus x = .error error ∨
        error = .invalidResponse ∧
          ∃ r, requestApiKeyToken env.tokenDecoder env.showStatus x = .ok r ∧
            checkedAdd env.lastInstant now (fromSecs r.expiresIn.toNat) = none) :
      Move env i now s (.request caller) (.token x) s.unlockGate (.done (.err (.auth error)))
        events
  | issued {caller : Caller} {x : Exchange env.Body} {r : BitwardenTokenSuccessResponse}
      {exp : Instant} (hx : requestApiKeyToken env.tokenDecoder env.showStatus x = .ok r)
      (hexp : checkedAdd env.lastInstant now (fromSecs r.expiresIn.toNat) = some exp) :
      Move env i now s (.request caller) (.token x) s (.ready false caller r exp)
        [.issued r now]
  | locked {caller : Caller} {r : BitwardenTokenSuccessResponse} {exp : Instant}
      (hcrypto : s.state.value.crypto = false) :
      Move env i now s (.ready true caller r exp) .go s.unlockState (.bootstrap caller r exp) []
  | unlocked {caller : Caller} {r : BitwardenTokenSuccessResponse} {exp : Instant}
      (hcrypto : s.state.value.crypto = true) :
      Move env i now s (.ready true caller r exp) .go s.unlockState
        (.publish false caller r exp) []
  | bootstrapFailed {caller : Caller} {r : BitwardenTokenSuccessResponse} {exp : Instant}
      {error : String}
      (h : (initializeUserCrypto env.crypto s.store env.password r).1 = .error error) :
      Move env i now s (.bootstrap caller r exp) .go
        { s with store := (initializeUserCrypto env.crypto s.store env.password r).2 }.unlockGate
        (.done (.err (.auth (.cryptoBootstrap error)))) [.loginFailed]
  | bootstrapped {caller : Caller} {r : BitwardenTokenSuccessResponse} {exp : Instant}
      (h : (initializeUserCrypto env.crypto s.store env.password r).1 = .ok ()) :
      Move env i now s (.bootstrap caller r exp) .go
        { s with store := (initializeUserCrypto env.crypto s.store env.password r).2 }
        (.publish false caller r exp) []
  | published {caller : Caller} {r : BitwardenTokenSuccessResponse} {exp : Instant} :
      Move env i now s (.publish true caller r exp) .go
        (s.setAuth ⟨some r.accessToken, some exp, true⟩).unlockState.unlockGate
        (.resume caller) (.published r.accessToken exp :: caller.returned)
  | missing {n : Nat} (htoken : s.state.value.token = none) :
      Move env i now s (.read true n) .go s.unlockState (.done (.err .missingAccessToken)) []
  | presented {n : Nat} {t : String} (htoken : s.state.value.token = some t) :
      Move env i now s (.read true n) .go s.unlockState (.send n t) [.presented n t]
  | accepted {n : Nat} {t : String} {status : StatusCode} (hstatus : status.isSuccess = true) :
      Move env i now s (.send n t) (.headers (.ok status)) s .body []
  | failed {n : Nat} {t : String} {x : Except String StatusCode} {error : SyncError}
      (hx : receive n t x = (.done (.err error), []))
      (hsome : error ≠ .missingAccessToken) (hcode : ∀ code, error ≠ .unauthorized code) :
      Move env i now s (.send n t) (.headers x) s (.done (.err error)) []
  | rejected {n : Nat} {t : String} :
      Move env i now s (.send n t) (.headers (.ok .unauthorized)) s (.rejected n t)
        [.rejected n t]
  | finished {x : Except String env.Body} :
      Move env i now s .body (.body x) s (.done (finish env x)) []
  | givenUp {t : String} :
      Move env i now s (.invalidate true 1 t) .go
        (s.setAuth (s.state.value.invalidate t)).unlockState.unlockGate
        (.done (.err (.unauthorized .unauthorized))) []
  | retry {n : Nat} {t : String} (hn : n ≠ 1)
      (htoken : (s.state.value.invalidate t).token = none) :
      Move env i now s (.invalidate true n t) .go
        (s.setAuth (s.state.value.invalidate t)).unlockState (.request (.sync n t))
        [.loginBegan now]
  | replaced {n : Nat} {t t' : String} (hn : n ≠ 1)
      (htoken : (s.state.value.invalidate t).token = some t') :
      Move env i now s (.invalidate true n t) .go
        (s.setAuth (s.state.value.invalidate t)).unlockState.unlockGate (.attempt (n + 1))
        [.recovered]
  | cancel {pc : Pc} (hpc : pc.awaits = true) :
      Move env i now s pc .cancel (s.dropGuards pc) .cancelled
        (if pc.inLogin then [.loginFailed, .cancelled] else [.cancelled])

variable {env : Env} {i : CallId} {now : Instant} {s s' : BitwardenSession env} {pc pc' q : Pc}
  {input : Input env.Body} {events : List Event}

theorem lockState_eq_some : s.lockState i = some s' ↔
    s.state.holder = none ∧ s' = { s with state := { s.state with holder := some i } } := by
  unfold BitwardenSession.lockState
  simp only [Option.map_eq_some_iff, Mutex.lock_eq_some]
  constructor
  · rintro ⟨m, ⟨hfree, rfl⟩, rfl⟩
    exact ⟨hfree, rfl⟩
  · rintro ⟨hfree, rfl⟩
    exact ⟨_, ⟨hfree, rfl⟩, rfl⟩

theorem lockGate_eq_some : s.lockGate i = some s' ↔
    s.gate.holder = none ∧ s' = { s with gate := { s.gate with holder := some i } } := by
  unfold BitwardenSession.lockGate
  simp only [Option.map_eq_some_iff, Mutex.lock_eq_some]
  constructor
  · rintro ⟨m, ⟨hfree, rfl⟩, rfl⟩
    exact ⟨hfree, rfl⟩
  · rintro ⟨hfree, rfl⟩
    exact ⟨_, ⟨hfree, rfl⟩, rfl⟩

theorem lockState_of_free (hfree : s.state.holder = none) (i : CallId) :
    s.lockState i = some { s with state := { s.state with holder := some i } } :=
  lockState_eq_some.mpr ⟨hfree, rfl⟩

theorem lockGate_of_free (hfree : s.gate.holder = none) (i : CallId) :
    s.lockGate i = some { s with gate := { s.gate with holder := some i } } :=
  lockGate_eq_some.mpr ⟨hfree, rfl⟩

/-- Taking the state lock, from any of the places that wait for it. -/
theorem Move.of_lockState (hpc : AwaitsState pc pc')
    (h : (s.lockState i).map (fun s => (s, pc', [])) = some (s', q, events)) :
    Move env i now s pc .go s' q events := by
  obtain ⟨u, hu, heq⟩ := Option.map_eq_some_iff.mp h
  obtain ⟨hfree, rfl⟩ := lockState_eq_some.mp hu
  obtain ⟨rfl, rfl, rfl⟩ : _ = s' ∧ pc' = q ∧ [] = events := by simpa using heq
  exact .takeState hpc hfree

theorem Move.of_lockGate (hpc : AwaitsGate pc pc')
    (h : (s.lockGate i).map (fun s => (s, pc', [])) = some (s', q, events)) :
    Move env i now s pc .go s' q events := by
  obtain ⟨u, hu, heq⟩ := Option.map_eq_some_iff.mp h
  obtain ⟨hfree, rfl⟩ := lockGate_eq_some.mp hu
  obtain ⟨rfl, rfl, rfl⟩ : _ = s' ∧ pc' = q ∧ [] = events := by simpa using heq
  exact .takeGate hpc hfree

/-- A call that waits can be dropped, and that is all `cancel` does. -/
theorem Move.of_cancel (h : advance env i now s pc .cancel = some (s', pc', events)) :
    Move env i now s pc .cancel s' pc' events := by
  have hcancel : advance env i now s pc .cancel =
      if pc.awaits then
        some (s.dropGuards pc, .cancelled,
          if pc.inLogin then [.loginFailed, .cancelled] else [.cancelled])
      else none := by
    rw [advance]
  rw [hcancel] at h
  by_cases hpc : pc.awaits = true
  · rw [if_pos hpc] at h
    obtain ⟨rfl, rfl, rfl⟩ := by simpa using h
    exact .cancel hpc
  · rw [if_neg hpc] at h
    exact absurd h (by simp)

/-- A freshness check: the two differ in what a stale token leads to. -/
theorem Move.of_checks (hpc : Checks pc) {next : BitwardenSession env × Pc × List Event}
    (hnext : s.state.value.stale env.lastInstant now = some true →
      Move env i now s pc .go next.1 next.2.1 next.2.2)
    (h : (match s.state.value.stale env.lastInstant now with
      | none => some (s.dropGuards pc, .panicked .instantOverflow, [])
      | some false => some (s.dropGuards pc, .attempt 0, [])
      | some true => some next) = some (s', pc', events)) :
    Move env i now s pc .go s' pc' events := by
  cases hstale : s.state.value.stale env.lastInstant now with
  | none =>
      obtain ⟨rfl, rfl, rfl⟩ := by simpa [hstale] using h
      exact .overflow hpc hstale
  | some stale =>
      cases stale with
      | false =>
          obtain ⟨rfl, rfl, rfl⟩ := by simpa [hstale] using h
          exact .fresh hpc hstale
      | true =>
          rw [hstale] at h
          obtain rfl := Option.some.inj h
          exact hnext hstale

theorem Move.of_request {caller : Caller} {x : Exchange env.Body}
    (h : advance env i now s (.request caller) (.token x) = some (s', pc', events)) :
    Move env i now s (.request caller) (.token x) s' pc' events := by
  rw [advance] at h
  cases hx : requestApiKeyToken env.tokenDecoder env.showStatus x with
  | error error =>
      obtain ⟨rfl, rfl, rfl⟩ := by simpa [hx] using h
      exact .refused .refused (Or.inl hx)
  | ok r =>
      cases hexp : checkedAdd env.lastInstant now (fromSecs r.expiresIn.toNat) with
      | none =>
          obtain ⟨rfl, rfl, rfl⟩ := by simpa [hx, hexp] using h
          exact .refused (.wasted r) (Or.inr ⟨rfl, r, hx, hexp⟩)
      | some exp =>
          obtain ⟨rfl, rfl, rfl⟩ := by simpa [hx, hexp] using h
          exact .issued hx hexp

theorem Move.of_ready {caller : Caller} {r : BitwardenTokenSuccessResponse} {exp : Instant}
    (h : advance env i now s (.ready true caller r exp) .go = some (s', pc', events)) :
    Move env i now s (.ready true caller r exp) .go s' pc' events := by
  rw [advance] at h
  cases hcrypto : s.state.value.crypto with
  | true =>
      obtain ⟨rfl, rfl, rfl⟩ := by simpa [hcrypto] using h
      exact .unlocked hcrypto
  | false =>
      obtain ⟨rfl, rfl, rfl⟩ := by simpa [hcrypto] using h
      exact .locked hcrypto

theorem Move.of_bootstrap {caller : Caller} {r : BitwardenTokenSuccessResponse} {exp : Instant}
    (h : advance env i now s (.bootstrap caller r exp) .go = some (s', pc', events)) :
    Move env i now s (.bootstrap caller r exp) .go s' pc' events := by
  rw [advance] at h
  rcases hinit : initializeUserCrypto env.crypto s.store env.password r with ⟨result, store⟩
  have hstore : (initializeUserCrypto env.crypto s.store env.password r).2 = store := by
    rw [hinit]
  cases result with
  | error error =>
      obtain ⟨rfl, rfl, rfl⟩ := by simpa [hinit] using h
      rw [← hstore]
      exact .bootstrapFailed (by rw [hinit])
  | ok done =>
      obtain ⟨rfl, rfl, rfl⟩ := by simpa [hinit] using h
      rw [← hstore]
      exact .bootstrapped (by rw [hinit])

theorem Move.of_read {n : Nat}
    (h : advance env i now s (.read true n) .go = some (s', pc', events)) :
    Move env i now s (.read true n) .go s' pc' events := by
  rw [advance] at h
  cases htoken : s.state.value.token with
  | none =>
      obtain ⟨rfl, rfl, rfl⟩ := by simpa [htoken] using h
      exact .missing htoken
  | some t =>
      obtain ⟨rfl, rfl, rfl⟩ := by simpa [htoken] using h
      exact .presented htoken

theorem Move.of_send {n : Nat} {t : String} {x : Except String StatusCode}
    (h : advance env i now s (.send n t) (.headers x) = some (s', pc', events)) :
    Move env i now s (.send n t) (.headers x) s' pc' events := by
  rw [advance] at h
  obtain ⟨rfl, hreceived⟩ := Prod.mk.inj (Option.some.inj h)
  obtain ⟨rfl, rfl⟩ := Prod.mk.inj hreceived
  cases x with
  | error error => exact .failed rfl (by simp) (by simp)
  | ok status =>
      by_cases hstatus : status = .unauthorized
      · subst hstatus
        exact .rejected
      · by_cases hsuccess : status.isSuccess = true
        · have hreceive : receive n t (.ok status) = (.body, []) := by
            simp [receive, hstatus, hsuccess]
          rw [hreceive]
          exact .accepted hsuccess
        · have hreceive : receive n t (.ok status) = (.done (.err (.status status)), []) := by
            simp [receive, hstatus, hsuccess]
          rw [hreceive]
          exact .failed hreceive (by simp) (by simp)

theorem Move.of_invalidate {n : Nat} {t : String}
    (h : advance env i now s (.invalidate true n t) .go = some (s', pc', events)) :
    Move env i now s (.invalidate true n t) .go s' pc' events := by
  rw [advance] at h
  by_cases hn : n = 1
  · subst hn
    obtain ⟨rfl, rfl, rfl⟩ := by simpa using h
    exact .givenUp
  · cases htoken : (s.state.value.invalidate t).token with
    | none =>
        obtain ⟨rfl, rfl, rfl⟩ := by simpa [hn, htoken] using h
        exact .retry hn htoken
    | some t' =>
        obtain ⟨rfl, rfl, rfl⟩ := by simpa [hn, htoken] using h
        exact .replaced hn htoken

/-- **Every step of a call is one of the moves.** -/
theorem Move.of_advance (h : advance env i now s pc input = some (s', pc', events)) :
    Move env i now s pc input s' pc' events := by
  cases input with
  | cancel => exact .of_cancel h
  | go =>
      cases pc with
      | idle =>
          obtain ⟨rfl, rfl, rfl⟩ := by simpa [advance] using h
          exact .start
      | gate => exact .of_lockGate .token h
      | rejected n t => exact .of_lockGate (.rejected n t) h
      | bootstrap caller r exp => exact .of_bootstrap h
      | stale held =>
          cases held with
          | false => exact .of_lockState .stale h
          | true => exact .of_checks .stale .queue h
      | restale held =>
          cases held with
          | false => exact .of_lockState .restale h
          | true => exact .of_checks .restale .renew h
      | ready held caller r exp =>
          cases held with
          | false => exact .of_lockState (.ready caller r exp) h
          | true => exact .of_ready h
      | publish held caller r exp =>
          cases held with
          | false => exact .of_lockState (.publish caller r exp) h
          | true =>
              obtain ⟨rfl, rfl, rfl⟩ := by simpa [advance] using h
              exact .published
      | read held n =>
          cases held with
          | false => exact .of_lockState (.read n) h
          | true => exact .of_read h
      | invalidate held n t =>
          cases held with
          | false => exact .of_lockState (.invalidate n t) h
          | true => exact .of_invalidate h
      | request caller => simp [advance] at h
      | send n t => simp [advance] at h
      | body => simp [advance] at h
      | done outcome => simp [advance] at h
      | cancelled => simp [advance] at h
      | panicked panic => simp [advance] at h
  | token x =>
      cases pc with
      | request caller => exact .of_request h
      | _ => simp [advance] at h
  | headers x =>
      cases pc with
      | send n t => exact .of_send h
      | _ => simp [advance] at h
  | body x =>
      cases pc with
      | body =>
          obtain ⟨rfl, rfl, rfl⟩ := by simpa [advance] using h
          exact .finished
      | _ => simp [advance] at h

/-! ### Steps of the world -/

variable {w w' : World env}

@[simp] theorem moved_session (w : World env) (i : CallId) (s : BitwardenSession env) (pc : Pc)
    (events : List Event) : (w.moved i s pc events).session = s := rfl

@[simp] theorem moved_calls (w : World env) (i : CallId) (s : BitwardenSession env) (pc : Pc)
    (events : List Event) : (w.moved i s pc events).calls = Function.update w.calls i pc := rfl

@[simp] theorem moved_log (w : World env) (i : CallId) (s : BitwardenSession env) (pc : Pc)
    (events : List Event) :
    (w.moved i s pc events).log = w.log ++ events.map fun e => (i, e) := rfl

theorem step_call (h : w.step (.call i input) = some w') :
    ∃ s' pc' events, Move env i w.clock w.session (w.calls i) input s' pc' events ∧
      w' = w.moved i s' pc' events := by
  obtain ⟨⟨s', pc', events⟩, hadvance, rfl⟩ := Option.map_eq_some_iff.mp h
  exact ⟨s', pc', events, .of_advance hadvance, rfl⟩

theorem step_tick (h : w.step (.tick now) = some w') :
    w.clock ≤ now ∧ w' = { w with clock := now } := by
  rw [World.step] at h
  by_cases hle : w.clock ≤ now
  · rw [if_pos hle] at h
    exact ⟨hle, (Option.some.inj h).symm⟩
  · rw [if_neg hle] at h
    exact absurd h (by simp)

theorem step_initOrgs {profile : BitwardenProfile} (h : w.step (.initOrgs profile) = some w') :
    w' = { w with session := (w.session.initOrgs profile).2 } := (Option.some.inj h).symm

/-- What every step of the world keeps, if it is kept by the moves of the calls, by time
passing and by a rebuild of the organization keys. -/
theorem step_keeps {I : World env → Prop}
    (hmove : ∀ {i input s' pc' events}, I w →
      Move env i w.clock w.session (w.calls i) input s' pc' events →
        I (w.moved i s' pc' events))
    (htick : ∀ now, w.clock ≤ now → I w → I { w with clock := now })
    (horgs : ∀ profile, I w → I { w with session := (w.session.initOrgs profile).2 })
    {a : Action env.Body} (hI : I w) (h : w.step a = some w') : I w' := by
  cases a with
  | call i input =>
      obtain ⟨s', pc', events, hm, rfl⟩ := step_call h
      exact hmove hI hm
  | tick now =>
      obtain ⟨hle, rfl⟩ := step_tick h
      exact htick now hle hI
  | initOrgs profile =>
      obtain rfl := step_initOrgs h
      exact horgs profile hI

/-- **The invariant rule of the session.** -/
theorem session_invariant {I : World env → Prop} (hstart : ∀ clock, I (.start env clock))
    (hmove : ∀ {w : World env} {i input s' pc' events}, (sessionMachine env).Reachable w → I w →
      Move env i w.clock w.session (w.calls i) input s' pc' events →
        I (w.moved i s' pc' events))
    (htick : ∀ {w : World env} now, w.clock ≤ now → I w → I { w with clock := now })
    (horgs : ∀ {w : World env} profile, (sessionMachine env).Reachable w → I w →
      I { w with session := (w.session.initOrgs profile).2 })
    (h : (sessionMachine env).Reachable w) : I w := by
  refine h.invariant ?_ ?_
  · rintro w ⟨clock, rfl⟩
    exact hstart clock
  · intro w w' a hr hI hstep
    exact step_keeps (fun hI => hmove hr hI) htick (fun profile => horgs profile hr) hI hstep

/-! ### A session to run -/

/-- Decoded bodies, so that decoding is trivial. -/
inductive Reply
  | token (response : BitwardenTokenSuccessResponse)
  | vault (response : BitwardenSyncResponse)
  | garbage

/-- A session over the suite without secrets. -/
def plainEnv : Env where
  Body := Reply
  crypto := mapCrypto plainSuite
  password := "master"
  tokenDecoder :=
    { success := fun
        | .token response => some response
        | _ => none
      twoFactor := fun _ => false
      identityFail := fun _ => none }
  decodeSync
    | .vault response => .ok response
    | _ => .error "expected value"
  showStatus status := toString status.code
  lastInstant := 2 ^ 64

/-- The answer to a login that issues `t` for an hour. -/
def plainToken (t : String) : BitwardenTokenSuccessResponse where
  accessToken := t
  expiresIn := 3600
  privateKey := some "master"
  userDecryptionOptions :=
    some ⟨some ⟨.pbkdf2Sha256, 600000, none, none, some "master", some "salt"⟩⟩

/-- An empty vault. -/
def plainVault : BitwardenSyncResponse := ⟨none, none⟩

namespace Run

/-- Resume a call `n` times without input. -/
def go (i : CallId) (n : Nat) : List (Action Reply) := List.replicate n (.call i .go)

/-- From the identity endpoint's answer to the publication, with the bootstrap in between
or not. -/
def login (i : CallId) (t : String) (bootstrap : Bool) : List (Action Reply) :=
  .call i (.token (.response .ok (.token (plainToken t)))) :: go i (if bootstrap then 5 else 4)

/-- From the start of a first call to its `/sync` request. -/
def firstSync (i : CallId) (t : String) : List (Action Reply) :=
  go i 6 ++ login i t true ++ go i 2

/-- The answer to a `/sync` request. -/
def answer (i : CallId) (status : StatusCode) : List (Action Reply) :=
  [.call i (.headers (.ok status))]

def vault (i : CallId) : List (Action Reply) := [.call i (.body (.ok (.vault plainVault)))]

end Run

/-- A run whose end satisfies a test is a reachable state that does. -/
theorem reachable_of_run (env : Env) (as : List (Action env.Body)) (p : World env → Bool)
    (h : (Machine.exec World.step (World.start env 0) as).any p = true) :
    ∃ w, (sessionMachine env).Reachable w ∧ p w = true :=
  Machine.reachable_of_exec_any ⟨0, rfl⟩ as p h

/-- The call an action is about. -/
def Action.party {Body : Type} : Action Body → Option CallId
  | .call i _ => some i
  | _ => none

/-- A call that no action is about stays where it is. -/
theorem calls_of_exec {j : CallId} : ∀ (as : List (Action env.Body)) {w w' : World env},
    (∀ a ∈ as, a.party ≠ some j) → Machine.exec World.step w as = some w' →
      w'.calls j = w.calls j := by
  intro as
  induction as with
  | nil =>
      intro w w' _ h
      rw [Option.some.inj h]
  | cons a rest ih =>
      intro w w' hparty h
      obtain ⟨u, hu, hrest⟩ := Option.bind_eq_some_iff.mp h
      rw [ih (fun b hb => hparty b (List.mem_cons_of_mem a hb)) hrest]
      cases a with
      | call i input =>
          have hne : j ≠ i := by
            rintro rfl
            exact hparty _ List.mem_cons_self rfl
          obtain ⟨s', pc', events, -, rfl⟩ := step_call hu
          rw [moved_calls, Function.update_of_ne hne]
      | tick now =>
          obtain ⟨-, rfl⟩ := step_tick hu
          rfl
      | initOrgs profile =>
          obtain rfl := step_initOrgs hu
          rfl

end Keyring.Bitwarden
