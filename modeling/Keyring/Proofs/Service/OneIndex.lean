/-
A session answers from one index.

A load pass either gets an answer from every provider or ends at the first one that fails.
The index of the first pass of the first kind is what the session keeps; no request changes
it, and none calls a provider again.  So every listing and every signature of a connection
is about the same keys, whatever the providers answer from one call to the next.
-/
import Keyring.Proofs.Service.Listing

namespace Keyring.Service

open OpenSession

variable {keys : SshKeys} {Provider : Type*} {proto : AgentProto} {answer : Nat → Answer keys}
  {providers : List Provider} {index : KeyIndex keys} {s : OpenSession keys Provider}
  {request : Request keys}

/-! ### One pass over the providers -/

/-- Provider `i` returns keys. -/
def Answered (answer : Nat → Answer keys) (i : Nat) : Prop :=
  ∃ snapshot, answer i = .ok snapshot

/-- How a pass over `n` providers from provider `i` on can go: the calls it makes and what
comes of it. -/
inductive Pass (answer : Nat → Answer keys) (i n : Nat) :
    List Nat → Except String (KeyIndex keys) → Prop
  | failed {j : Nat} {error : String} (hi : i ≤ j) (hj : j < i + n)
      (hbefore : ∀ m, i ≤ m → m < j → Answered answer m)
      (hanswer : answer j = .error error) :
      Pass answer i n (List.range' i (j + 1 - i))
        (.error ("provider load failed at index " ++ toString j ++ ": " ++ error))
  | complete {index : KeyIndex keys}
      (hall : ∀ m, i ≤ m → m < i + n → Answered answer m) :
      Pass answer i n (List.range' i n) (.ok index)

theorem loadFrom_pass (answer : Nat → Answer keys) (providers : List Provider) :
    ∀ (i : Nat) (out : KeyIndex keys), Pass answer i providers.length
      (loadFrom answer i providers out).1 (loadFrom answer i providers out).2 := by
  induction providers with
  | nil =>
      intro i out
      refine Pass.complete ?_
      intro m him hm
      exact absurd hm (Nat.not_lt_of_le him)
  | cons provider rest ih =>
      intro i out
      cases hanswer : answer i with
      | error error =>
          rw [loadFrom_error answer rest out hanswer]
          have hpass := @Pass.failed keys answer i (provider :: rest).length i error
            (Nat.le_refl i) (by simp) (fun m him hm => absurd hm (Nat.not_lt_of_le him)) hanswer
          rw [Nat.add_sub_cancel_left] at hpass
          exact hpass
      | ok snapshot =>
          rw [loadFrom_ok answer rest out hanswer]
          have hrest := ih (i + 1) (Index.extend keys.publicKey out snapshot)
          -- the first provider has answered; the others are the pass from `i + 1` on
          have hfirst : ∀ m, (i + 1 ≤ m → Answered answer m) → i ≤ m → Answered answer m := by
            intro m hlater him
            rcases Nat.eq_or_lt_of_le him with rfl | hlt
            · exact ⟨snapshot, hanswer⟩
            · exact hlater hlt
          generalize loadFrom answer (i + 1) rest _ = pass at hrest
          obtain ⟨calls, result⟩ := pass
          cases hrest with
          | failed hi hj hbefore herror =>
              rename_i j error
              have hcalls : i :: List.range' (i + 1) (j + 1 - (i + 1)) =
                  List.range' i (j + 1 - i) := by
                rw [← List.range'_succ]
                congr 1
                omega
              rw [hcalls]
              refine Pass.failed (by omega) (by rw [List.length_cons]; omega) ?_ herror
              intro m him hm
              exact hfirst m (fun hlt => hbefore m hlt hm) him
          | complete hall =>
              rw [← List.range'_succ]
              refine Pass.complete ?_
              intro m him hm
              rw [List.length_cons] at hm
              exact hfirst m (fun hlt => hall m hlt (by omega)) him

/-- **A pass calls the providers in order, up to the first one that fails.** -/
theorem load_pass (answer : Nat → Answer keys) (providers : List Provider) :
    Pass answer 0 providers.length (load answer providers).1 (load answer providers).2 :=
  loadFrom_pass answer providers 0 ∅

/-! ### One request -/

/-- Whether a request needs the index. -/
def Request.needsKeys : Request keys → Bool
  | .identities | .sign _ => true
  | .extension _ => false

/-- The index that a request would make, if the session had none. -/
def passIndex (providers : List Provider) (request : Request keys) (answer : Nat → Answer keys) :
    Option (KeyIndex keys) :=
  if request.needsKeys then (load answer providers).2.toOption else none

/-- What a request that needs keys makes of an index. -/
def replyWith (index : KeyIndex keys) : Request keys → Reply keys
  | .identities => .identities (listing index)
  | .sign req => signWith index req
  | .extension _ => other ""

/-- How a request is served: from the index there is, after a pass over the providers, or
without keys. -/
inductive Served (proto : AgentProto) (s : OpenSession keys Provider) (answer : Nat → Answer keys) :
    Request keys → OpenSession keys Provider → List Nat → Reply keys → Prop
  | cached {request : Request keys} {index : KeyIndex keys} (hneeds : request.needsKeys = true)
      (hkeys : s.keys = some index) :
      Served proto s answer request s [] (replyWith index request)
  | loaded {request : Request keys} {index : KeyIndex keys} (hneeds : request.needsKeys = true)
      (hnone : s.keys = none) (hload : (load answer s.providers).2 = .ok index) :
      Served proto s answer request { s with keys := some index } (load answer s.providers).1
        (replyWith index request)
  | failed {request : Request keys} {error : String} (hneeds : request.needsKeys = true)
      (hnone : s.keys = none) (hload : (load answer s.providers).2 = .error error) :
      Served proto s answer request s (load answer s.providers).1 (other error)
  | extension (ext : Extension) :
      Served proto s answer (.extension ext) (extension proto s ext).1 []
        (extension proto s ext).2

/-- Listing and signing differ only in what they make of the index. -/
theorem handle_needsKeys (h : request.needsKeys = true) (proto : AgentProto)
    (s : OpenSession keys Provider) (answer : Nat → Answer keys) :
    s.handle proto answer request =
      match s.loadOnce answer with
      | (s, calls, .ok index) => (s, calls, replyWith index request)
      | (s, calls, .error error) => (s, calls, other error) := by
  cases request with
  | identities => rfl
  | sign req => rfl
  | extension ext => exact absurd h (by simp [Request.needsKeys])

/-- **Every request is served in one of these ways.** -/
theorem handle_served (proto : AgentProto) (s : OpenSession keys Provider)
    (answer : Nat → Answer keys) (request : Request keys) :
    Served proto s answer request (s.handle proto answer request).1
      (s.handle proto answer request).2.1 (s.handle proto answer request).2.2 := by
  cases hneeds : request.needsKeys with
  | false =>
      cases request with
      | extension ext => exact Served.extension ext
      | identities | sign req => exact absurd hneeds (by simp [Request.needsKeys])
  | true =>
      rw [handle_needsKeys hneeds]
      cases hkeys : s.keys with
      | some index =>
          rw [loadOnce_some hkeys]
          exact Served.cached hneeds hkeys
      | none =>
          unfold loadOnce
          rw [hkeys]
          rcases hload : load answer s.providers with ⟨calls, result⟩
          have hcalls : (load answer s.providers).1 = calls := by rw [hload]
          cases result with
          | ok index =>
              simp only [← hcalls]
              exact Served.loaded hneeds hkeys (by rw [hload])
          | error error =>
              simp only [← hcalls]
              exact Served.failed hneeds hkeys (by rw [hload])

/-- An extension request has nothing to do with the index. -/
theorem extension_frame (proto : AgentProto) (s : OpenSession keys Provider) (ext : Extension) :
    (extension proto s ext).1.keys = s.keys ∧
      (extension proto s ext).1.providers = s.providers := by
  unfold extension sessionBind
  repeat' split
  all_goals exact ⟨rfl, rfl⟩

theorem passIndex_needsKeys (h : request.needsKeys = true) :
    passIndex providers request answer = (load answer providers).2.toOption := by
  rw [passIndex, if_pos h]

/-- What a request leaves of the session. -/
theorem Served.frame {s' : OpenSession keys Provider} {calls : List Nat} {reply : Reply keys}
    (h : Served proto s answer request s' calls reply) :
    s'.providers = s.providers ∧ s'.keys = s.keys.or (passIndex s.providers request answer) := by
  cases h with
  | cached hneeds hkeys => exact ⟨rfl, by rw [hkeys, Option.some_or]⟩
  | loaded hneeds hnone hload =>
      refine ⟨rfl, ?_⟩
      rw [hnone, passIndex_needsKeys hneeds, hload]
      rfl
  | failed hneeds hnone hload =>
      refine ⟨rfl, ?_⟩
      rw [hnone, passIndex_needsKeys hneeds, hload]
      rfl
  | extension ext =>
      obtain ⟨hkeys, hproviders⟩ := extension_frame proto s ext
      refine ⟨hproviders, ?_⟩
      rw [hkeys]
      exact Option.or_none.symm

/-! ### A connection -/

/-- The index of the first complete pass among some requests. -/
def firstIndex (providers : List Provider) (requests : List (Request keys × (Nat → Answer keys))) :
    Option (KeyIndex keys) :=
  requests.findSome? fun x => passIndex providers x.1 x.2

/-- A request with the answers it would get, of an exchange. -/
def Exchange.input (x : Exchange keys) : Request keys × (Nat → Answer keys) := (x.request, x.answer)

variable {requests pre : List (Request keys × (Nat → Answer keys))}

theorem run_cons (proto : AgentProto) (s : OpenSession keys Provider) (request : Request keys)
    (answer : Nat → Answer keys) (rest : List (Request keys × (Nat → Answer keys))) :
    s.run proto ((request, answer) :: rest) =
      (((s.handle proto answer request).1.run proto rest).1,
        ⟨request, answer, (s.handle proto answer request).2.1,
          (s.handle proto answer request).2.2⟩ ::
            ((s.handle proto answer request).1.run proto rest).2) := rfl

/-- **A session keeps the index of the first complete pass**, and nothing else. -/
theorem run_keys (proto : AgentProto) : ∀ (requests : List (Request keys × (Nat → Answer keys)))
    (s : OpenSession keys Provider), (s.run proto requests).1.providers = s.providers ∧
      (s.run proto requests).1.keys = s.keys.or (firstIndex s.providers requests) := by
  intro requests
  induction requests with
  | nil =>
      intro s
      exact ⟨rfl, Option.or_none.symm⟩
  | cons x rest ih =>
      obtain ⟨request, answer⟩ := x
      intro s
      obtain ⟨hproviders, hkeys⟩ := (handle_served proto s answer request).frame
      obtain ⟨hproviders', hkeys'⟩ := ih (s.handle proto answer request).1
      rw [run_cons]
      refine ⟨hproviders'.trans hproviders, hkeys'.trans ?_⟩
      rw [hkeys, hproviders, Option.or_assoc]
      congr 1
      unfold firstIndex
      rw [List.findSome?_cons]
      cases passIndex s.providers request answer <;> rfl

/-- An exchange is a request served by the session that the requests before it left. -/
theorem exchange_served (proto : AgentProto) : ∀ (before : List (Exchange keys))
    (requests : List (Request keys × (Nat → Answer keys))) (s : OpenSession keys Provider)
    (x : Exchange keys) (after : List (Exchange keys)),
    (s.run proto requests).2 = before ++ x :: after →
      ∃ rest, requests = before.map Exchange.input ++ x.input :: rest ∧
        ∃ s', Served proto (s.run proto (before.map Exchange.input)).1 x.answer x.request s'
          x.calls x.reply := by
  intro before
  induction before with
  | nil =>
      intro requests s x after h
      cases requests with
      | nil => exact absurd h (by simp [OpenSession.run])
      | cons input rest =>
          obtain ⟨request, answer⟩ := input
          rw [run_cons] at h
          obtain ⟨rfl, -⟩ := List.cons.inj h
          exact ⟨rest, rfl, _, handle_served proto s answer request⟩
  | cons y before ih =>
      intro requests s x after h
      cases requests with
      | nil => exact absurd h (by simp [OpenSession.run])
      | cons input rest =>
          obtain ⟨request, answer⟩ := input
          rw [run_cons] at h
          obtain ⟨rfl, hrest⟩ := List.cons.inj h
          obtain ⟨rest', hinput, hserved⟩ := ih rest _ x after hrest
          refine ⟨rest', ?_, hserved⟩
          rw [hinput]
          rfl

/-- The index of a connection, read off its exchanges. -/
def indexOf (session : ServiceSession Provider) (exchanges : List (Exchange keys)) :
    Option (KeyIndex keys) := firstIndex session.providers (exchanges.map Exchange.input)

variable {session : ServiceSession Provider} {before after exchanges : List (Exchange keys)}
  {x : Exchange keys}

/-- Later exchanges do not change the index. -/
theorem indexOf_append (h : indexOf session before = some index) (after : List (Exchange keys)) :
    indexOf session (before ++ after) = some index := by
  unfold indexOf firstIndex at h ⊢
  rw [List.map_append, List.findSome?_append, h, Option.some_or]

/-- The index after an exchange. -/
theorem indexOf_concat (h : indexOf session before = none) (x : Exchange keys) :
    indexOf session (before ++ [x]) = passIndex session.providers x.request x.answer := by
  unfold indexOf firstIndex at h ⊢
  rw [List.map_append, List.findSome?_append, h, Option.none_or]
  exact List.findSome?_singleton

/-- An extension request is answered with neither identities nor a signature. -/
theorem extension_reply (proto : AgentProto) (s : OpenSession keys Provider) (ext : Extension) :
    (∀ list, (extension proto s ext).2 ≠ .identities list) ∧
      ∀ signature, (extension proto s ext).2 ≠ .signature signature := by
  unfold extension sessionBind
  repeat' split
  all_goals exact ⟨by simp [other], by simp [other]⟩

/-- What the index has to do with one exchange of a connection. -/
theorem exchange_cases (hrun : ((start session).run proto requests).2 = before ++ x :: after) :
    (∃ index, x.request.needsKeys = true ∧ indexOf session before = some index ∧ x.calls = [] ∧
        x.reply = replyWith index x.request) ∨
      (∃ index, x.request.needsKeys = true ∧ indexOf session before = none ∧
        (load x.answer session.providers).2 = .ok index ∧
        x.calls = (load x.answer session.providers).1 ∧ x.reply = replyWith index x.request) ∨
      (∃ error, x.request.needsKeys = true ∧ indexOf session before = none ∧
        (load x.answer session.providers).2 = .error error ∧
        x.calls = (load x.answer session.providers).1 ∧ x.reply = other error) ∨
      x.request.needsKeys = false ∧ x.calls = [] ∧
        (∀ list, x.reply ≠ .identities list) ∧ ∀ signature, x.reply ≠ .signature signature := by
  obtain ⟨rest, -, s', hserved⟩ := exchange_served proto before requests _ x after hrun
  obtain ⟨hproviders, hkeys⟩ := run_keys proto (before.map Exchange.input)
    (start session : OpenSession keys Provider)
  have hindex : indexOf session before =
      ((start session : OpenSession keys Provider).run proto (before.map Exchange.input)).1.keys :=
    hkeys.symm
  rw [← hindex] at hkeys
  generalize hs : (OpenSession.run proto (start session) (before.map Exchange.input)).1 = s
    at hserved hproviders hindex
  obtain ⟨request, answer, calls, reply⟩ := x
  change Served proto s answer request s' calls reply at hserved
  cases hserved with
  | cached hneeds hsome => exact Or.inl ⟨_, hneeds, hindex.trans hsome, rfl, rfl⟩
  | loaded hneeds hnone hload =>
      rw [hproviders] at hload ⊢
      exact Or.inr (Or.inl ⟨_, hneeds, hindex.trans hnone, hload, rfl, rfl⟩)
  | failed hneeds hnone hload =>
      rw [hproviders] at hload ⊢
      exact Or.inr (Or.inr (Or.inl ⟨_, hneeds, hindex.trans hnone, hload, rfl, rfl⟩))
  | extension ext =>
      obtain ⟨hlist, hsignature⟩ := extension_reply proto s ext
      exact Or.inr (Or.inr (Or.inr ⟨rfl, rfl, hlist, hsignature⟩))

/-! ### In every run -/

/-- A list has what can be looked up in the index: its public keys, in ascending order, with
the comments of the keys under them. -/
structure Lists (index : KeyIndex keys) (list : List (AgentIdentity keys)) : Prop where
  ascending : list.Pairwise fun a b => a.pubkey < b.pubkey
  entry : ∀ id, id ∈ list ↔
    ∃ key, index[id.pubkey]? = some key ∧ id.comment = keys.comment key

theorem lists_listing (index : KeyIndex keys) : Lists index (listing index) where
  ascending := pairwise_listing index
  entry _ := mem_listing

/-- What holds of every connection: its session, the requests made of it, and how they were
served. -/
structure OneIndex (proto : AgentProto) (session : ServiceSession Provider)
    (requests : List (Request keys × (Nat → Answer keys))) (exchanges : List (Exchange keys)) :
    Prop where
  /-- The session keeps the index of the first complete pass, and has none before it. -/
  kept : ∀ pre post, requests = pre ++ post →
    ((start session : OpenSession keys Provider).run proto pre).1.keys =
      firstIndex session.providers pre
  /-- That pass got an answer from every provider, and the index is of these answers. -/
  assembled : ∀ index, indexOf session exchanges = some index →
    ∃ before x after, exchanges = before ++ x :: after ∧
      (∀ y ∈ before, y.request.needsKeys = true →
        ∃ i < session.providers.length, ¬Answered y.answer i) ∧
      (∀ i < session.providers.length, Answered x.answer i) ∧
      ∀ k, index[k]? = lastKey (loadedKeys x.answer session.providers.length) k
  /-- Listings are of the index. -/
  listed : ∀ x ∈ exchanges, ∀ list, x.reply = .identities list →
    ∃ index, indexOf session exchanges = some index ∧ Lists index list ∧ list = listing index
  same : ∀ x ∈ exchanges, ∀ y ∈ exchanges, ∀ list list', x.reply = .identities list →
    y.reply = .identities list' → list = list'
  /-- Signatures are made with the key that the index has under the requested one. -/
  signed : ∀ x ∈ exchanges, ∀ signature, x.reply = .signature signature →
    ∃ index req key, indexOf session exchanges = some index ∧ x.request = .sign req ∧
      index[req.pubkey]? = some key ∧ keys.publicKey key = req.pubkey ∧
        sig keys key req.data req.flags = .returned (.ok signature)
  /-- A request before the first complete pass makes a pass of its own, which ends at the
  first provider that fails and leaves nothing, or is complete. -/
  passes : ∀ before x after, exchanges = before ++ x :: after →
    indexOf session before = none → x.request.needsKeys = true →
      (∃ i error, i < session.providers.length ∧ (∀ m < i, Answered x.answer m) ∧
        x.answer i = .error error ∧ x.calls = List.range (i + 1) ∧
        x.reply = other ("provider load failed at index " ++ toString i ++ ": " ++ error) ∧
        indexOf session (before ++ [x]) = none) ∨
      ((∀ m < session.providers.length, Answered x.answer m) ∧
        x.calls = List.range session.providers.length ∧
        (indexOf session (before ++ [x])).isSome)
  /-- No other request calls a provider. -/
  quiet : ∀ before x after, exchanges = before ++ x :: after →
    (indexOf session before).isSome ∨ x.request.needsKeys = false → x.calls = []

/-- A pass from the first provider on. -/
theorem load_cases (answer : Nat → Answer keys) (providers : List Provider) :
    (∃ i error, i < providers.length ∧ (∀ m < i, Answered answer m) ∧ answer i = .error error ∧
      (load answer providers).1 = List.range (i + 1) ∧
      (load answer providers).2 =
        .error ("provider load failed at index " ++ toString i ++ ": " ++ error)) ∨
    ((∀ m < providers.length, Answered answer m) ∧
      (load answer providers).1 = List.range providers.length ∧
      ∃ index, (load answer providers).2 = .ok index) := by
  have hpass := load_pass answer providers
  generalize load answer providers = pass at hpass ⊢
  obtain ⟨calls, result⟩ := pass
  cases hpass with
  | failed hi hj hbefore hanswer =>
      refine Or.inl ⟨_, _, by simpa using hj, fun m hm => hbefore m (Nat.zero_le m) hm, hanswer,
        ?_, rfl⟩
      rw [List.range_eq_range', List.range'_succ]
  | complete hall =>
      refine Or.inr ⟨fun m hm => hall m (Nat.zero_le m) (by simpa using hm), ?_, _, rfl⟩
      rw [List.range_eq_range']

/-- The answers behind an index. -/
theorem passIndex_some (h : passIndex providers request answer = some index) :
    request.needsKeys = true ∧ (load answer providers).2 = .ok index := by
  unfold passIndex at h
  split at h
  · rename_i hneeds
    refine ⟨hneeds, ?_⟩
    cases hload : (load answer providers).2 with
    | error error => simp [hload, Except.toOption] at h
    | ok index' => simpa [hload, Except.toOption] using h
  · exact absurd h (by simp)

/-- A pass that makes no index was stopped by a provider. -/
theorem passIndex_none (h : passIndex providers request answer = none)
    (hneeds : request.needsKeys = true) : ∃ i < providers.length, ¬Answered answer i := by
  rw [passIndex_needsKeys hneeds] at h
  rcases load_cases answer providers with ⟨i, error, hi, -, hanswer, -⟩ | ⟨-, -, index, hload⟩
  · refine ⟨i, hi, ?_⟩
    rintro ⟨snapshot, hsnapshot⟩
    exact absurd (hanswer.symm.trans hsnapshot) (by simp)
  · rw [hload] at h
    exact absurd h (by simp [Except.toOption])

theorem firstIndex_some {providers : List Provider} {exchanges : List (Exchange keys)}
    (h : firstIndex providers (exchanges.map Exchange.input) = some index) :
    ∃ before x after, exchanges = before ++ x :: after ∧
      firstIndex providers (before.map Exchange.input) = none ∧
      passIndex providers x.request x.answer = some index := by
  unfold firstIndex at h ⊢
  rw [List.findSome?_map] at h
  obtain ⟨before, x, after, hsplit, hindex, hnone⟩ := List.findSome?_eq_some_iff.mp h
  refine ⟨before, x, after, hsplit, ?_, hindex⟩
  rw [List.findSome?_map, List.findSome?_eq_none_iff]
  exact hnone

theorem assembled_of_indexOf (h : indexOf session exchanges = some index) :
    ∃ before x after, exchanges = before ++ x :: after ∧
      (∀ y ∈ before, y.request.needsKeys = true →
        ∃ i < session.providers.length, ¬Answered y.answer i) ∧
      (∀ i < session.providers.length, Answered x.answer i) ∧
      ∀ k, index[k]? = lastKey (loadedKeys x.answer session.providers.length) k := by
  obtain ⟨before, x, after, hsplit, hnone, hindex⟩ := firstIndex_some h
  obtain ⟨hneeds, hload⟩ := passIndex_some hindex
  refine ⟨before, x, after, hsplit, ?_, ?_, load_lookup hload⟩
  · intro y hy
    unfold firstIndex at hnone
    rw [List.findSome?_map, List.findSome?_eq_none_iff] at hnone
    exact passIndex_none (hnone y hy)
  · rcases load_cases x.answer session.providers with ⟨i, error, -, -, -, -, herror⟩ | ⟨hall, -⟩
    · exact absurd (hload.symm.trans herror) (by simp)
    · exact hall

/-- The keys of an index are under their own public keys. -/
theorem publicKey_of_indexOf (h : indexOf session exchanges = some index) {k : keys.KeyData}
    {key : keys.PrivateKey} (hkey : index[k]? = some key) : keys.publicKey key = k := by
  obtain ⟨before, x, after, -, -, -, hlookup⟩ := assembled_of_indexOf h
  rw [hlookup] at hkey
  exact (Index.last_eq_some hkey).2

/-- A listing or a signature of a connection is made of its index. -/
theorem reply_of_indexOf (hrun : ((start session).run proto requests).2 = exchanges)
    (hx : x ∈ exchanges)
    (hreply : (∃ list, x.reply = .identities list) ∨ ∃ signature, x.reply = .signature signature) :
    ∃ index, x.request.needsKeys = true ∧ indexOf session exchanges = some index ∧
      x.reply = replyWith index x.request := by
  obtain ⟨before, after, rfl⟩ := List.append_of_mem hx
  rcases exchange_cases hrun with ⟨index, hneeds, hindex, -, hmade⟩ |
    ⟨index, hneeds, hnone, hload, -, hmade⟩ | ⟨error, -, -, -, -, hfailed⟩ | ⟨-, -, hlist, hsig⟩
  · exact ⟨index, hneeds, indexOf_append hindex _, hmade⟩
  · have hindex : indexOf session (before ++ [x]) = some index := by
      rw [indexOf_concat hnone, passIndex_needsKeys hneeds, hload]
      rfl
    refine ⟨index, hneeds, ?_, hmade⟩
    rw [← List.singleton_append, ← List.append_assoc]
    exact indexOf_append hindex after
  · rw [hfailed] at hreply
    rcases hreply with ⟨list, h⟩ | ⟨signature, h⟩ <;> exact absurd h (by simp [other])
  · rcases hreply with ⟨list, h⟩ | ⟨signature, h⟩
    · exact absurd h (hlist list)
    · exact absurd h (hsig signature)

theorem signWith_ne_identities (index : KeyIndex keys) (req : SignRequest keys)
    (list : List (AgentIdentity keys)) : Reply.identities list ≠ signWith index req := by
  unfold signWith
  repeat' split
  all_goals simp [other]

/-- A listing of a connection is that of its index. -/
theorem listing_of_indexOf (hrun : ((start session).run proto requests).2 = exchanges)
    (hx : x ∈ exchanges) {list : List (AgentIdentity keys)} (hreply : x.reply = .identities list) :
    ∃ index, indexOf session exchanges = some index ∧ list = listing index := by
  obtain ⟨index, hneeds, hindex, hmade⟩ := reply_of_indexOf hrun hx (Or.inl ⟨list, hreply⟩)
  refine ⟨index, hindex, ?_⟩
  rw [hreply] at hmade
  cases hrequest : x.request with
  | identities =>
      rw [hrequest] at hmade
      exact Reply.identities.inj hmade
  | sign req =>
      rw [hrequest] at hmade
      exact absurd hmade (signWith_ne_identities index req list)
  | extension ext => exact absurd hneeds (by simp [hrequest, Request.needsKeys])

/-- A signature of a connection is made from its index. -/
theorem signature_of_indexOf (hrun : ((start session).run proto requests).2 = exchanges)
    (hx : x ∈ exchanges) {signature : Signature} (hreply : x.reply = .signature signature) :
    ∃ index req key, indexOf session exchanges = some index ∧ x.request = .sign req ∧
      index[req.pubkey]? = some key ∧ keys.publicKey key = req.pubkey ∧
        sig keys key req.data req.flags = .returned (.ok signature) := by
  obtain ⟨index, hneeds, hindex, hmade⟩ := reply_of_indexOf hrun hx (Or.inr ⟨signature, hreply⟩)
  cases hrequest : x.request with
  | identities =>
      rw [hreply, hrequest] at hmade
      exact absurd hmade (by simp [replyWith])
  | sign req =>
      rw [hreply, hrequest] at hmade
      obtain ⟨key, hkey, hsig⟩ := signWith_signature hmade.symm
      exact ⟨index, req, key, hindex, rfl, hkey, publicKey_of_indexOf hindex hkey, hsig⟩
  | extension ext => exact absurd hneeds (by simp [hrequest, Request.needsKeys])

/-- A request before the first complete pass makes a pass of its own. -/
theorem pass_of_indexOf (hrun : ((start session).run proto requests).2 = before ++ x :: after)
    (hnone : indexOf session before = none) (hneeds : x.request.needsKeys = true) :
    (∃ i error, i < session.providers.length ∧ (∀ m < i, Answered x.answer m) ∧
        x.answer i = .error error ∧ x.calls = List.range (i + 1) ∧
        x.reply = other ("provider load failed at index " ++ toString i ++ ": " ++ error) ∧
        indexOf session (before ++ [x]) = none) ∨
      ((∀ m < session.providers.length, Answered x.answer m) ∧
        x.calls = List.range session.providers.length ∧
        (indexOf session (before ++ [x])).isSome) := by
  rw [indexOf_concat hnone, passIndex_needsKeys hneeds]
  rcases exchange_cases hrun with ⟨index, -, hsome, -⟩ | ⟨index, -, -, hload, hcalls, -⟩ |
    ⟨error, -, -, hload, hcalls, hreply⟩ | ⟨hfree, -⟩
  · exact absurd (hnone.symm.trans hsome) (by simp)
  · rcases load_cases x.answer session.providers with ⟨i, error, -, -, -, -, herror⟩ |
      ⟨hall, hrange, -⟩
    · exact absurd (hload.symm.trans herror) (by simp)
    · refine Or.inr ⟨hall, hcalls.trans hrange, ?_⟩
      rw [hload]
      rfl
  · rcases load_cases x.answer session.providers with
      ⟨i, cause, hi, hbefore, hanswer, hrange, herror⟩ | ⟨-, -, index, hindex⟩
    · obtain rfl := Except.error.inj (hload.symm.trans herror)
      refine Or.inl ⟨i, cause, hi, hbefore, hanswer, hcalls.trans hrange, hreply, ?_⟩
      rw [hload]
      rfl
    · exact absurd (hload.symm.trans hindex) (by simp)
  · exact absurd (hneeds.symm.trans hfree) (by simp)

/-- **A session answers from one index**, whatever is requested of it and whatever its
providers answer. -/
theorem run_oneIndex (proto : AgentProto) (session : ServiceSession Provider)
    (requests : List (Request keys × (Nat → Answer keys))) :
    OneIndex proto session requests
      ((start session : OpenSession keys Provider).run proto requests).2 := by
  refine ⟨?_, ?_, ?_, ?_, ?_, ?_, ?_⟩
  · intro pre post _
    exact (run_keys proto pre (start session)).2
  · intro index hindex
    exact assembled_of_indexOf hindex
  · intro x hx list hreply
    obtain ⟨index, hindex, rfl⟩ := listing_of_indexOf rfl hx hreply
    exact ⟨index, hindex, lists_listing index, rfl⟩
  · intro x hx y hy list list' hlist hlist'
    obtain ⟨index, hindex, rfl⟩ := listing_of_indexOf rfl hx hlist
    obtain ⟨index', hindex', rfl⟩ := listing_of_indexOf rfl hy hlist'
    obtain rfl := Option.some.inj (hindex.symm.trans hindex')
    rfl
  · intro x hx signature hreply
    exact signature_of_indexOf rfl hx hreply
  · intro before x after hrun hnone hneeds
    exact pass_of_indexOf hrun hnone hneeds
  · intro before x after hrun hquiet
    rcases exchange_cases hrun with ⟨_, -, -, hcalls, -⟩ | ⟨_, hneeds, hnone, -⟩ |
      ⟨_, hneeds, hnone, -⟩ | ⟨-, hcalls, -⟩
    · exact hcalls
    · rcases hquiet with hsome | hfree
      · exact absurd hsome (by simp [hnone])
      · exact absurd (hneeds.symm.trans hfree) (by simp)
    · rcases hquiet with hsome | hfree
      · exact absurd hsome (by simp [hnone])
      · exact absurd (hneeds.symm.trans hfree) (by simp)
    · exact hcalls

/-- Two providers answer with one key each. -/
def bothAnswer : Nat → Answer plainKeys := fun i =>
  .ok (if i = 0 then [(2, "two")] else [(3, "three")])

/-- The second of two providers fails, then both answer, then neither does. -/
def retried : List (Request plainKeys × (Nat → Answer plainKeys)) :=
  [(.identities, fun i => if i = 0 then .ok [(1, "early")] else .error "timed out"),
    (.sign ⟨(2 : Nat), [], 0⟩, bothAnswer), (.identities, fun _ => .error "timed out")]

theorem listed_bothAnswer {id : AgentIdentity plainKeys} :
    (∃ key, lastKey (loadedKeys bothAnswer 2) id.pubkey = some key ∧
      id.comment = plainKeys.comment key) ↔
      id = ⟨(2 : Nat), "two"⟩ ∨ id = ⟨(3 : Nat), "three"⟩ := by
  constructor
  · rintro ⟨key, hkey, hcomment⟩
    obtain ⟨hmem, hpublic⟩ := Index.last_eq_some hkey
    obtain ⟨pubkey, comment⟩ := id
    obtain rfl : plainKeys.publicKey key = pubkey := hpublic
    obtain rfl : comment = plainKeys.comment key := hcomment
    rcases List.mem_pair.mp hmem with rfl | rfl
    · exact Or.inl rfl
    · exact Or.inr rfl
  · rintro (rfl | rfl)
    · exact ⟨_, rfl, rfl⟩
    · exact ⟨_, rfl, rfl⟩

/-- The key of the failed pass is not listed, and the others are without another pass. -/
theorem run_oneIndex_retried : ∃ x y z : Exchange plainKeys,
    ((start ⟨[(), ()]⟩ : OpenSession plainKeys Unit).run plainProto retried).2 = [x, y, z] ∧
      x.calls = [0, 1] ∧ x.reply = other "provider load failed at index 1: timed out" ∧
      y.calls = [0, 1] ∧ y.reply = .signature ⟨.ed25519, [2]⟩ ∧
      z.calls = [] ∧ (∃ list, z.reply = .identities list ∧
        ∀ id, id ∈ list ↔ id = ⟨(2 : Nat), "two"⟩ ∨ id = ⟨(3 : Nat), "three"⟩) ∧
      OneIndex plainProto (⟨[(), ()]⟩ : ServiceSession Unit) retried [x, y, z] := by
  have hone := run_oneIndex plainProto (⟨[(), ()]⟩ : ServiceSession Unit) retried
  have hload : (load bothAnswer [(), ()]).2 = .ok _ := rfl
  have hlookup := load_lookup hload
  refine ⟨_, _, _, rfl, rfl, rfl, rfl, ?_, rfl, ⟨_, rfl, ?_⟩, hone⟩
  · exact (signWith_some ((hlookup _).trans rfl)).trans rfl
  · intro id
    calc id ∈ listing _
        ↔ _ := mem_listing
      _ ↔ _ := exists_congr fun key => and_congr_left fun _ => Eq.congr_left (hlookup id.pubkey)
      _ ↔ _ := listed_bothAnswer

end Keyring.Service
