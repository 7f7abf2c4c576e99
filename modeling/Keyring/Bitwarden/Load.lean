/-
`BitwardenProvider`: any number of concurrent `load` calls on one provider.

A load is a call on the provider's cache cell whose initializer is `fetch`.  What a load
does outside its initializer is a step of the cell; inside, the fetch has a place of its
own, and its `sync` call is one of the calls of the session, under the same number.  Every
access to the key store is a step, so that between two of them any other load may take
any number.  After `sync` a fetch does not await any more, and cannot be dropped.

`log` is ghost state again: the accesses to the key store with the store they found, and
what came in and went out.
-/
import Keyring.Bitwarden.Provider
import Keyring.Bitwarden.Session
import Keyring.Core.Cell

namespace Keyring.Bitwarden

/-- The keys of one load, in the order of the sync response. -/
abbrev KeyPairSnapshot (keys : SshKeys) := List keys.PrivateKey

/-- For how long a snapshot is served. -/
def snapshotTtl : Duration := fromSecs (60 * 60)

/-- Where a fetch stands. -/
inductive Fetch (keys : SshKeys)
  | idle
  /-- Step 1: waiting for the session. -/
  | session
  /-- Step 2: inside `sync`. -/
  | sync
  /-- Step 3: about to refresh the organization keys. -/
  | initOrgs (response : BitwardenSyncResponse)
  /-- Step 4: some ciphers are left, and some keys found. -/
  | keys (response : BitwardenSyncResponse) (rest : List BitwardenCipher)
      (found : KeyPairSnapshot keys)
  /-- About to return to the cell. -/
  | done (result : Except String (KeyPairSnapshot keys))

/-- What happens in a run. -/
inductive LoadEvent (env : Env) (keys : SshKeys)
  | bootstrapped
  | synced (response : BitwardenSyncResponse)
  /-- The organization keys were refreshed, or half of them; the store is the one before. -/
  | rebuilt (response : BitwardenSyncResponse) (store : env.crypto.KeyStore)
  /-- `key` looked at a cipher, and found this store. -/
  | opened (cipher : BitwardenCipher) (store : env.crypto.KeyStore)
  | published (snapshot : KeyPairSnapshot keys)

/-- A provider, its loads and the clock, which is the cell's. -/
structure LoadWorld (env : Env) (keys : SshKeys) where
  cache : Core.World (KeyPairSnapshot keys) String
  session : Option (World env)
  fetches : CallId → Fetch keys
  log : List (CallId × LoadEvent env keys)

/-- What can happen next. -/
inductive LoadAction (Body : Type)
  | begin (i : CallId)
  /-- A load goes on outside its fetch. -/
  | go (i : CallId)
  /-- Step 1, with the outcome of `BitwardenSession::new` should it be called. -/
  | create (i : CallId) (result : Except String Unit)
  /-- Step 2 goes on. -/
  | sync (i : CallId) (input : Input Body)
  /-- Steps 3 and 4 go on. -/
  | fetch (i : CallId)
  | cancel (i : CallId)
  | tick (now : Instant)

namespace LoadWorld

variable {env : Env} {keys : SshKeys}

def start (env : Env) (keys : SshKeys) (clock : Instant) : LoadWorld env keys :=
  ⟨Core.World.start clock, none, fun _ => .idle, []⟩

/-- A fetch comes to a place, and writes something down. -/
def arrive (w : LoadWorld env keys) (i : CallId) (fetch : Fetch keys)
    (events : List (LoadEvent env keys)) : LoadWorld env keys where
  cache := w.cache
  session := w.session
  fetches := Function.update w.fetches i fetch
  log := w.log ++ events.map fun e => (i, e)

/-- A load takes a step of the cell; `f` says where its fetch stands then. -/
def cell (w : LoadWorld env keys) (i : CallId)
    (input : Core.Input (KeyPairSnapshot keys) String)
    (f : Core.Pc (KeyPairSnapshot keys) String → Fetch keys)
    (events : List (LoadEvent env keys)) : Option (LoadWorld env keys) :=
  (w.cache.step (.call i input)).map fun cache =>
    { w with cache }.arrive i (f (cache.calls i)) events

/-- A load that gets to its initializer starts a fetch. -/
def fetchOf : Core.Pc (KeyPairSnapshot keys) String → Fetch keys
  | .init _ _ => .session
  | _ => .idle

/-- A load outside its fetch. -/
def outside (w : LoadWorld env keys) (i : CallId)
    (input : Core.Input (KeyPairSnapshot keys) String) : Option (LoadWorld env keys) :=
  match w.fetches i with
  | .idle => w.cell i input fetchOf []
  | _ => none

/-- Step 1.  The session is created once; a failure leaves the `OnceCell` empty. -/
def create (w : LoadWorld env keys) (i : CallId) (result : Except String Unit) :
    Option (LoadWorld env keys) :=
  match w.fetches i, w.session, result with
  | .session, some _, _ => some (w.arrive i .sync [])
  | .session, none, .ok () =>
      some ({ w with session := some (World.start env w.cache.clock) }.arrive i .sync [])
  | .session, none, .error error => some (w.arrive i (.done (.error error)) [])
  | _, _, _ => none

/-- What `sync` writes to the key store. -/
def bootstraps : Pc → List (LoadEvent env keys)
  | .bootstrap _ _ _ => [.bootstrapped]
  | _ => []

/-- Step 2.  A panic unwinds the fetch, and the cell with it. -/
def sync (w : LoadWorld env keys) (i : CallId) (input : Input env.Body) :
    Option (LoadWorld env keys) :=
  match w.fetches i, w.session with
  | .sync, some s =>
      (s.step (.call i input)).bind fun s' =>
        let w := { w with session := some s' }
        let events := bootstraps (s.calls i)
        match s'.calls i with
        | .done (.ok response) => some (w.arrive i (.initOrgs response) (events ++ [.synced response]))
        | .done (.err error) =>
            some (w.arrive i (.done (.error (error.chain env.showStatus))) events)
        | .panicked _ => w.cell i .cancel (fun _ => .idle) events
        | .cancelled => none
        | _ => some (w.arrive i .sync events)
  | _, _ => none

/-- Steps 3 and 4, one access to the key store at a time, and the return to the cell. -/
def fetch (w : LoadWorld env keys) (i : CallId) : Option (LoadWorld env keys) :=
  match w.fetches i, w.session with
  | .initOrgs response, some s =>
      match response.profile with
      | none =>
          some (w.arrive i (.done (.error "bitwarden sync response missing profile")) [])
      | some profile =>
          let (result, session) := s.session.initOrgs profile
          let w := { w with session := some { s with session } }
          let events := [.rebuilt response s.session.store]
          match result with
          | .error error => some (w.arrive i (.done (.error error)) events)
          | .ok () => some (w.arrive i (.keys response (response.ciphers.getD []) []) events)
  | .keys response (cipher :: rest) found, some s =>
      let (result, store) := key env.crypto keys cipher s.session.store
      some ({ w with session := some { s with session := { s.session with store } } }.arrive i
        (.keys response rest (found ++ kept keys result)) [.opened cipher s.session.store])
  | .keys _ [] found, some _ => some (w.arrive i (.done (.ok found)) [])
  | .done (.ok snapshot), _ =>
      w.cell i (.finished (.ok snapshot)) (fun _ => .idle) [.published snapshot]
  | .done (.error error), _ => w.cell i (.finished (.error error)) (fun _ => .idle) []
  | _, _ => none

/-- A load can be dropped where it awaits: in the cell, for the session, in `sync`. -/
def cancel (w : LoadWorld env keys) (i : CallId) : Option (LoadWorld env keys) :=
  match w.fetches i, w.session with
  | .idle, _ => w.outside i .cancel
  | .session, _ => w.cell i .cancel (fun _ => .idle) []
  | .sync, some s => (s.step (.call i .cancel)).bind fun s =>
      { w with session := some s }.cell i .cancel (fun _ => .idle) []
  | _, _ => none

def tick (w : LoadWorld env keys) (now : Instant) : Option (LoadWorld env keys) :=
  (w.cache.step (.tick now)).map fun cache =>
    { w with cache, session := w.session.map fun s => { s with clock := now } }

def step (w : LoadWorld env keys) : LoadAction env.Body → Option (LoadWorld env keys)
  | .begin i => w.outside i (.call snapshotTtl)
  | .go i => w.outside i .go
  | .create i result => w.create i result
  | .sync i input => w.sync i input
  | .fetch i => w.fetch i
  | .cancel i => w.cancel i
  | .tick now => w.tick now

end LoadWorld

/-- All runs of the loads of one provider. -/
def loadMachine (env : Env) (keys : SshKeys) :
    Machine (LoadWorld env keys) (LoadAction env.Body) :=
  Machine.ofFun (fun w => ∃ clock, w = LoadWorld.start env keys clock) LoadWorld.step

end Keyring.Bitwarden
