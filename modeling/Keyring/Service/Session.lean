/-
One client session: its key index, its requests, its session-bind records.

What a provider answers may change from one call to the next, so a request comes with the
answers the providers would give if they were called during it.  A request says which of
them it has called, in order; that is for the statements about it, and nothing reads it.
-/
import Keyring.Lib.Index
import Keyring.Service.Runtime
import Keyring.Service.Signing

namespace Keyring.Service

def queryExtension : String := "query"

def bindExtension : String := "session-bind@openssh.com"

/-- An accepted session-bind record. -/
structure Bind where
  id : List UInt8
  fwd : Bool
  deriving DecidableEq

/-- A session-bind payload. -/
structure SessionBind where
  hostKey : List UInt8
  sessionId : List UInt8
  signature : List UInt8
  isForwarding : Bool
  deriving DecidableEq

structure Extension where
  name : String
  details : List UInt8
  deriving DecidableEq

/-- Messages inside extensions, and what a session-bind signature has to satisfy. -/
structure AgentProto where
  /-- `Extension::new_message` of a query response. -/
  queryResponse : List String → Except String Extension
  /-- `parse_message::<SessionBind>`. -/
  parseBind : Extension → Except String (Option SessionBind)
  verifySignature : SessionBind → Except String Unit

/-- Extensions without content. -/
def plainProto : AgentProto where
  queryResponse _ := .ok ⟨queryExtension, []⟩
  parseBind _ := .ok none
  verifySignature _ := .ok ()

inductive AgentError
  | failure
  | extensionFailure
  | other (text : String)
  deriving DecidableEq

section

variable (keys : SshKeys) (Provider : Type*)

/-- What one provider answers to one call. -/
abbrev Answer := Except String (List keys.PrivateKey)

/-- The private keys of a session under their public keys. -/
abbrev KeyIndex := Std.HashMap keys.KeyData keys.PrivateKey

structure AgentIdentity where
  pubkey : keys.KeyData
  comment : String

structure SignRequest where
  pubkey : keys.KeyData
  data : List UInt8
  flags : UInt32

/-- A session with what it has of its agent, its key cache and its records. -/
structure OpenSession extends ServiceSession Provider where
  keys : Option (KeyIndex keys)
  binds : List Bind

inductive Request
  | identities
  | sign (req : SignRequest keys)
  | extension (ext : Extension)

/-- What a request returns, or that it panics. -/
inductive Reply
  | identities (list : List (AgentIdentity keys))
  | signature (signature : Signature)
  | extension (ext : Option Extension)
  | error (error : AgentError)
  | panicked

/-- A request that has been served: what it was, what the providers would have answered,
which of them it called, and what it returned. -/
structure Exchange where
  request : Request keys
  answer : Nat → Answer keys
  calls : List Nat
  reply : Reply keys

end

namespace OpenSession

variable {keys : SshKeys} {Provider : Type*}

/-- A session before its first request. -/
def start (session : ServiceSession Provider) : OpenSession keys Provider :=
  { session with keys := none, binds := [] }

/-- The loop of `load`, from provider `i` on. -/
def loadFrom (answer : Nat → Answer keys) :
    Nat → List Provider → KeyIndex keys → List Nat × Except String (KeyIndex keys)
  | _, [], out => ([], .ok out)
  | i, _ :: rest, out =>
      match answer i with
      | .error error => ([i], .error ("provider load failed at index " ++ toString i ++ ": " ++ error))
      | .ok snapshot =>
          let (calls, result) := loadFrom answer (i + 1) rest
            (Index.extend keys.publicKey out snapshot)
          (i :: calls, result)

/-- Pulls key snapshots from every configured provider and indexes them by public key. -/
def load (answer : Nat → Answer keys) (providers : List Provider) :
    List Nat × Except String (KeyIndex keys) := loadFrom answer 0 providers ∅

/-- Loads and memoizes the provider snapshot for the lifetime of one client connection. -/
def loadOnce (s : OpenSession keys Provider) (answer : Nat → Answer keys) :
    OpenSession keys Provider × List Nat × Except String (KeyIndex keys) :=
  match s.keys with
  | some index => (s, [], .ok index)
  | none =>
      match load answer s.providers with
      | (calls, .ok index) => ({ s with keys := some index }, calls, .ok index)
      | (calls, .error error) => (s, calls, .error error)

/-- The published identities of an index. -/
def listing (index : KeyIndex keys) : List (AgentIdentity keys) :=
  (index.toList.map fun (pubkey, key) => AgentIdentity.mk pubkey (keys.comment key)).mergeSort
    fun left right => left.pubkey ≤ right.pubkey

/-- `other`. -/
def other (text : String) : Reply keys := .error (.other text)

def unpublished : String := "no published identity matched the requested public key blob"

/-- What a sign request makes of an index. -/
def signWith (index : KeyIndex keys) (req : SignRequest keys) : Reply keys :=
  match index[req.pubkey]? with
  | none => other unpublished
  | some key =>
      match sig keys key req.data req.flags with
      | .returned (.ok signature) => .signature signature
      | .returned (.error error) => other error
      | .unreachable => .panicked

def requestIdentities (s : OpenSession keys Provider) (answer : Nat → Answer keys) :
    OpenSession keys Provider × List Nat × Reply keys :=
  match s.loadOnce answer with
  | (s, calls, .ok index) => (s, calls, .identities (listing index))
  | (s, calls, .error error) => (s, calls, other error)

def sign (s : OpenSession keys Provider) (answer : Nat → Answer keys) (req : SignRequest keys) :
    OpenSession keys Provider × List Nat × Reply keys :=
  match s.loadOnce answer with
  | (s, calls, .ok index) => (s, calls, signWith index req)
  | (s, calls, .error error) => (s, calls, other error)

/-- The three checks a session-bind payload has to pass before the records are looked at. -/
def checkBind (proto : AgentProto) (ext : Extension) : Option SessionBind :=
  match proto.parseBind ext with
  | .error _ => none
  | .ok none => none
  | .ok (some bind) =>
      match proto.verifySignature bind with
      | .error _ => none
      | .ok () => some bind

/-- The session-bind arm. -/
def sessionBind (proto : AgentProto) (s : OpenSession keys Provider) (ext : Extension) :
    OpenSession keys Provider × Reply keys :=
  match checkBind proto ext with
  | none => (s, .error .extensionFailure)
  | some bind =>
      if s.binds.any fun item => item.id == bind.sessionId then (s, .error .extensionFailure)
      -- A bind without forwarding has bound the connection for authentication.
      else if s.binds.any fun item => !item.fwd then (s, .error .extensionFailure)
      else ({ s with binds := s.binds ++ [⟨bind.sessionId, bind.isForwarding⟩] }, .extension none)

def extension (proto : AgentProto) (s : OpenSession keys Provider) (ext : Extension) :
    OpenSession keys Provider × Reply keys :=
  if ext.name = queryExtension then
    match proto.queryResponse [queryExtension, bindExtension] with
    | .ok res => (s, .extension (some res))
    | .error error => (s, other error)
  else if ext.name = bindExtension then sessionBind proto s ext
  else (s, .error .failure)

/-- One request. -/
def handle (proto : AgentProto) (s : OpenSession keys Provider) (answer : Nat → Answer keys) :
    Request keys → OpenSession keys Provider × List Nat × Reply keys
  | .identities => s.requestIdentities answer
  | .sign req => s.sign answer req
  | .extension ext =>
      let (s, reply) := extension proto s ext
      (s, [], reply)

/-- The requests of one connection, in turn. -/
def run (proto : AgentProto) (s : OpenSession keys Provider) :
    List (Request keys × (Nat → Answer keys)) → OpenSession keys Provider × List (Exchange keys)
  | [] => (s, [])
  | (request, answer) :: rest =>
      let (s, calls, reply) := s.handle proto answer request
      let (s, exchanges) := run proto s rest
      (s, ⟨request, answer, calls, reply⟩ :: exchanges)

end OpenSession

end Keyring.Service
