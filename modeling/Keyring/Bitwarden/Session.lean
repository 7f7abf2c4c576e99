/-
The Bitwarden session: any number of concurrent `sync` calls over shared state.

A call is where it stands in its code, with the local variables that are still live
there (`Pc`).  It is resumed with whatever it was waiting for (`Input`) and then runs to
its next wait, so one step is one stretch of code without an await point.  Taking a lock
is a step of its own; between two steps of one call every other call may take any number.
A call can be dropped wherever it waits, and then drops the guards it has.

What the endpoints do is part of the input, so a run may contain any outcome of any
exchange.  `log` is no variable of the program.  It writes down what the calls do, for
the sake of claims about the order in which they do it, and no step reads it.
-/
import Keyring.Bitwarden.Crypto
import Keyring.Lib.Machine
import Keyring.Lib.Mutex
import Mathlib.Logic.Function.Basic

namespace Keyring.Bitwarden

/-! ### What a session has -/

/-- One `sync` call. -/
abbrev CallId := Nat

def tokenRenewalWindow : Duration := fromSecs (5 * 60)

/-- Mutable authentication state that changes as tokens are renewed. -/
structure Auth where
  token : Option String
  exp : Option Instant
  crypto : Bool
  deriving DecidableEq

def Auth.default : Auth := ⟨none, none, false⟩

/-- What a session is built from and never changes, and the code it calls that is not
part of the repository. -/
structure Env where
  Body : Type
  crypto : Crypto
  password : String
  tokenDecoder : TokenDecoder Body
  decodeSync : Body → Except String BitwardenSyncResponse
  showStatus : StatusCode → String
  lastInstant : Instant

/-- The fields that change.  The key store has a lock of its own, which is held only for
the length of one function call. -/
structure BitwardenSession (env : Env) where
  store : env.crypto.KeyStore
  state : Mutex CallId Auth
  gate : Mutex CallId Unit

def BitwardenSession.new (env : Env) : BitwardenSession env :=
  ⟨env.crypto.default, Mutex.new .default, Mutex.new ()⟩

/-- `init_orgs`. -/
def BitwardenSession.initOrgs {env : Env} (s : BitwardenSession env)
    (profile : BitwardenProfile) : Except String Unit × BitwardenSession env :=
  let (result, store) := initializeOrgKeys env.crypto s.store profile
  (result, { s with store })

/-- The comparison in `stale`; `none` is the panic of the addition. -/
def Auth.stale (lastInstant now : Instant) (auth : Auth) : Option Bool :=
  match auth.exp with
  | none => some true
  | some exp => (checkedAdd lastInstant now tokenRenewalWindow).map fun t => exp ≤ t

/-- How `sync` fails. -/
inductive SyncError
  | auth (error : BitwardenAuthError)
  | missingAccessToken
  | request (error : String)
  | unauthorized (status : StatusCode)
  | status (status : StatusCode)
  | body (error : String)
  | decode (error : String)
  deriving DecidableEq

/-- `{:#}`, which is how an error is printed where it ends up. -/
def SyncError.chain (showStatus : StatusCode → String) : SyncError → String
  | .auth error => error.chain
  | .missingAccessToken => "bitwarden session is missing an access token"
  | .request error => "bitwarden sync request failed: " ++ error
  | .unauthorized code =>
      "bitwarden sync failed with status " ++ showStatus code ++ " after token refresh"
  | .status code => "bitwarden sync failed with status " ++ showStatus code
  | .body error => "failed to read bitwarden sync response: " ++ error
  | .decode error => "bitwarden sync failed: error in serde: " ++ error

/-! ### Where a call stands -/

/-- Who called `login`: `token`, or the recovery of an attempt whose token was rejected. -/
inductive Caller
  | token
  | sync (attempt : Nat) (token : String)
  deriving DecidableEq

/-- Ways to panic. -/
inductive Panic
  | instantOverflow
  | unreachable
  deriving DecidableEq

/-- How a call ended by itself. -/
inductive Outcome
  | ok (response : BitwardenSyncResponse)
  | err (error : SyncError)
  deriving DecidableEq

/-- Where a call stands.  `held` says whether the state lock it waits for is already its
own. -/
inductive Pc
  | idle
  /-- `token`: the freshness check. -/
  | stale (held : Bool)
  /-- `token`: waiting for the gate. -/
  | gate
  /-- `token`: the second freshness check, with the gate. -/
  | restale (held : Bool)
  /-- `login`: waiting for the identity endpoint. -/
  | request (caller : Caller)
  /-- `login`: reading `crypto`. -/
  | ready (held : Bool) (caller : Caller) (response : BitwardenTokenSuccessResponse)
      (exp : Instant)
  /-- `login`: about to initialize the key store. -/
  | bootstrap (caller : Caller) (response : BitwardenTokenSuccessResponse) (exp : Instant)
  /-- `login`: publishing. -/
  | publish (held : Bool) (caller : Caller) (response : BitwardenTokenSuccessResponse)
      (exp : Instant)
  /-- `sync`: reading the token of an attempt. -/
  | read (held : Bool) (attempt : Nat)
  /-- `sync`: waiting for the headers. -/
  | send (attempt : Nat) (token : String)
  /-- `sync`: waiting for the body of a success. -/
  | body
  /-- `sync`: after a 401, waiting for the gate. -/
  | rejected (attempt : Nat) (token : String)
  /-- `sync`: invalidating the rejected token, with the gate. -/
  | invalidate (held : Bool) (attempt : Nat) (token : String)
  | done (outcome : Outcome)
  | cancelled
  | panicked (panic : Panic)
  deriving DecidableEq

namespace Pc

/-- Whether a call at this place has the guard of `state`. -/
def holdsState : Pc → Bool
  | .stale held | .restale held | .ready held _ _ _ | .publish held _ _ _ | .read held _
  | .invalidate held _ _ => held
  | _ => false

/-- Whether a call at this place is inside `login`. -/
def inLogin : Pc → Bool
  | .request _ | .ready _ _ _ _ | .bootstrap _ _ _ | .publish _ _ _ _ => true
  | _ => false

/-- Whether a call at this place has the guard of `gate`. -/
def holdsGate : Pc → Bool
  | .restale _ | .invalidate _ _ _ => true
  | pc => pc.inLogin

/-- Whether a call at this place is at an await point, so that it can be dropped there. -/
def awaits : Pc → Bool
  | .stale _ | .gate | .restale _ | .request _ | .ready _ _ _ _ | .publish _ _ _ _
  | .read _ _ | .send _ _ | .body | .rejected _ _ | .invalidate _ _ _ => true
  | .idle | .bootstrap _ _ _ | .done _ | .cancelled | .panicked _ => false

/-- The head of the loop `for attempt in 0..2`, and what follows it. -/
def attempt (n : Nat) : Pc := if n < 2 then .read false n else .panicked .unreachable

/-- Where a successful login returns to. -/
def resume : Caller → Pc
  | .token => attempt 0
  | .sync n _ => attempt (n + 1)

end Pc

/-- What happens in a run. -/
inductive Event
  | loginBegan (now : Instant)
  | issued (response : BitwardenTokenSuccessResponse) (now : Instant)
  | loginFailed
  | published (token : String) (exp : Instant)
  | presented (attempt : Nat) (token : String)
  | rejected (attempt : Nat) (token : String)
  | recovered
  | cancelled
  deriving DecidableEq

/-- The end of a recovery is an event; that of `token` is not. -/
def Caller.returned : Caller → List Event
  | .token => []
  | .sync _ _ => [.recovered]

/-- What a waiting call is resumed with. -/
inductive Input (Body : Type)
  /-- Nothing is waited for, or the lock is free. -/
  | go
  | token (exchange : Exchange Body)
  | headers (response : Except String StatusCode)
  | body (response : Except String Body)
  | cancel

/-! ### One step of a call -/

namespace BitwardenSession

variable {env : Env}

def lockState (s : BitwardenSession env) (i : CallId) : Option (BitwardenSession env) :=
  (s.state.lock i).map fun state => { s with state }

def lockGate (s : BitwardenSession env) (i : CallId) : Option (BitwardenSession env) :=
  (s.gate.lock i).map fun gate => { s with gate }

def unlockState (s : BitwardenSession env) : BitwardenSession env :=
  { s with state := s.state.unlock }

def unlockGate (s : BitwardenSession env) : BitwardenSession env :=
  { s with gate := s.gate.unlock }

def setAuth (s : BitwardenSession env) (auth : Auth) : BitwardenSession env :=
  { s with state := s.state.set auth }

/-- Dropping a call drops the guards it has. -/
def dropGuards (s : BitwardenSession env) (pc : Pc) : BitwardenSession env :=
  let s := if pc.holdsState then s.unlockState else s
  if pc.holdsGate then s.unlockGate else s

end BitwardenSession

/-- What a handled 401 leaves of the authentication state. -/
def Auth.invalidate (auth : Auth) (token : String) : Auth :=
  if auth.token = some token then { auth with token := none, exp := none } else auth

/-- The answer to a `/sync` request, once its status is known. -/
def receive (n : Nat) (t : String) : Except String StatusCode → Pc × List Event
  | .error error => (.done (.err (.request error)), [])
  | .ok status =>
      if status = .unauthorized then (.rejected n t, [.rejected n t])
      else if !status.isSuccess then (.done (.err (.status status)), [])
      else (.body, [])

/-- The end of a successful attempt. -/
def finish (env : Env) : Except String env.Body → Outcome
  | .error error => .err (.body error)
  | .ok body =>
      match env.decodeSync body with
      | .error error => .err (.decode error)
      | .ok response => .ok response

/-- What one call does when it is resumed: the shared state it leaves, where it stands
next, and what there is to write down. -/
def advance (env : Env) (i : CallId) (now : Instant) (s : BitwardenSession env) :
    Pc → Input env.Body → Option (BitwardenSession env × Pc × List Event)
  | .idle, .go => some (s, .stale false, [])
  | .stale false, .go => (s.lockState i).map fun s => (s, .stale true, [])
  | .stale true, .go =>
      let auth := s.state.value
      let s := s.unlockState
      match auth.stale env.lastInstant now with
      | none => some (s, .panicked .instantOverflow, [])
      | some false => some (s, .attempt 0, [])
      | some true => some (s, .gate, [])
  | .gate, .go => (s.lockGate i).map fun s => (s, .restale false, [])
  | .restale false, .go => (s.lockState i).map fun s => (s, .restale true, [])
  | .restale true, .go =>
      let auth := s.state.value
      let s := s.unlockState
      match auth.stale env.lastInstant now with
      | none => some (s.unlockGate, .panicked .instantOverflow, [])
      | some false => some (s.unlockGate, .attempt 0, [])
      | some true => some (s, .request .token, [.loginBegan now])
  | .request caller, .token exchange =>
      match requestApiKeyToken env.tokenDecoder env.showStatus exchange with
      | .error error => some (s.unlockGate, .done (.err (.auth error)), [.loginFailed])
      | .ok response =>
          match checkedAdd env.lastInstant now (fromSecs response.expiresIn.toNat) with
          | none =>
              some (s.unlockGate, .done (.err (.auth .invalidResponse)),
                [.issued response now, .loginFailed])
          | some exp => some (s, .ready false caller response exp, [.issued response now])
  | .ready false caller response exp, .go =>
      (s.lockState i).map fun s => (s, .ready true caller response exp, [])
  | .ready true caller response exp, .go =>
      let crypto := !s.state.value.crypto
      let s := s.unlockState
      if crypto then some (s, .bootstrap caller response exp, [])
      else some (s, .publish false caller response exp, [])
  | .bootstrap caller response exp, .go =>
      match initializeUserCrypto env.crypto s.store env.password response with
      | (.error error, store) =>
          some ({ s with store }.unlockGate, .done (.err (.auth (.cryptoBootstrap error))),
            [.loginFailed])
      | (.ok (), store) => some ({ s with store }, .publish false caller response exp, [])
  | .publish false caller response exp, .go =>
      (s.lockState i).map fun s => (s, .publish true caller response exp, [])
  | .publish true caller response exp, .go =>
      let s := s.setAuth ⟨some response.accessToken, some exp, true⟩
      some (s.unlockState.unlockGate, .resume caller,
        .published response.accessToken exp :: caller.returned)
  | .read false n, .go => (s.lockState i).map fun s => (s, .read true n, [])
  | .read true n, .go =>
      let token := s.state.value.token
      let s := s.unlockState
      match token with
      | none => some (s, .done (.err .missingAccessToken), [])
      | some t => some (s, .send n t, [.presented n t])
  | .send n t, .headers response => some (s, (receive n t response).1, (receive n t response).2)
  | .body, .body response => some (s, .done (finish env response), [])
  | .rejected n t, .go => (s.lockGate i).map fun s => (s, .invalidate false n t, [])
  | .invalidate false n t, .go => (s.lockState i).map fun s => (s, .invalidate true n t, [])
  | .invalidate true n t, .go =>
      let auth := s.state.value.invalidate t
      let s := (s.setAuth auth).unlockState
      if n = 1 then some (s.unlockGate, .done (.err (.unauthorized .unauthorized)), [])
      else if auth.token.isNone then some (s, .request (.sync n t), [.loginBegan now])
      else some (s.unlockGate, .attempt (n + 1), [.recovered])
  | pc, .cancel =>
      if pc.awaits then
        some (s.dropGuards pc, .cancelled,
          if pc.inLogin then [.loginFailed, .cancelled] else [.cancelled])
      else none
  | _, _ => none

/-! ### Runs -/

/-- The session, its calls and the clock. -/
structure World (env : Env) where
  session : BitwardenSession env
  clock : Instant
  calls : CallId → Pc
  log : List (CallId × Event)

/-- What can happen next. -/
inductive Action (Body : Type)
  | call (i : CallId) (input : Input Body)
  | tick (now : Instant)
  | initOrgs (profile : BitwardenProfile)

namespace World

variable {env : Env}

def start (env : Env) (clock : Instant) : World env :=
  ⟨.new env, clock, fun _ => .idle, []⟩

/-- What a step of one call leaves of the world. -/
def moved (w : World env) (i : CallId) (session : BitwardenSession env) (pc : Pc)
    (events : List Event) : World env where
  session
  clock := w.clock
  calls := Function.update w.calls i pc
  log := w.log ++ events.map fun e => (i, e)

def step (w : World env) : Action env.Body → Option (World env)
  | .call i input =>
      (advance env i w.clock w.session (w.calls i) input).map fun (session, pc, events) =>
        w.moved i session pc events
  | .tick now => if w.clock ≤ now then some { w with clock := now } else none
  | .initOrgs profile => some { w with session := (w.session.initOrgs profile).2 }

end World

/-- All runs of one session. -/
def sessionMachine (env : Env) : Machine (World env) (Action env.Body) :=
  Machine.ofFun (fun w => ∃ clock, w = World.start env clock) World.step

end Keyring.Bitwarden
