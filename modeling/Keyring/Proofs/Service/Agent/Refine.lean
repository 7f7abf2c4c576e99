/-
An agent serves every connection as if it were alone.

`Keyring/Service/Session.lean` says what one session does with a list of requests, where
each comes with what the providers would answer.  Among other connections, with providers
that answer in their own time and calls that are dropped or panic, a connection still does
exactly that: what it has served is a run of its own session, and the answers in that run
are what its calls have returned.  The invariant that carries this through a load says that
the index made so far is the one of the answers given so far.
-/
import Keyring.Proofs.Providers
import Keyring.Proofs.Service.Agent.Moves

namespace Keyring.Service

open Keyring.Core OpenSession

variable {keys : SshKeys} {ι : Type} {P : ι → KeyPairProvider keys} {proto : AgentProto}
  {agent : ServiceAgent ι} {w w' : World P} {c d : ConnId} {p : ι} {conn : Conn keys ι}
  {request : Request keys} {given : List (List keys.PrivateKey)} {out : KeyIndex keys}
  {before rest : List ι}

/-! ### A load with the answers it was given -/

/-- The index of some snapshots. -/
def indexed (given : List (List keys.PrivateKey)) : KeyIndex keys :=
  given.foldl (Index.extend keys.publicKey) ∅

theorem loadFrom_given (rest : List ι) : ∀ (before : List ι) (given : List (List keys.PrivateKey))
    (answer : Nat → Answer keys) (i : Nat) (out : KeyIndex keys), before.length = given.length →
    (∀ n snapshot, given[n]? = some snapshot → answer (i + n) = .ok snapshot) →
    loadFrom answer i (before ++ rest) out =
      (List.range' i given.length ++
        (loadFrom answer (i + given.length) rest (given.foldl (Index.extend keys.publicKey) out)).1,
        (loadFrom answer (i + given.length) rest
          (given.foldl (Index.extend keys.publicKey) out)).2) := by
  intro before
  induction before with
  | nil =>
      intro given answer i out hlength _
      obtain rfl := List.eq_nil_of_length_eq_zero hlength.symm
      rfl
  | cons p before ih =>
      intro given answer i out hlength hgiven
      cases given with
      | nil => cases hlength
      | cons snapshot given =>
          have hfirst : answer i = .ok snapshot := hgiven 0 snapshot rfl
          have hlater : ∀ n snapshot, given[n]? = some snapshot →
              answer (i + 1 + n) = .ok snapshot := by
            intro n snapshot hn
            rw [Nat.add_right_comm]
            exact hgiven (n + 1) snapshot hn
          rw [List.cons_append, loadFrom_ok answer _ out hfirst, ih given answer (i + 1) _
            (Nat.succ.inj hlength) hlater]
          rw [List.length_cons, List.range'_succ, List.cons_append, List.foldl_cons,
            Nat.add_right_comm i 1, Nat.add_assoc i]

theorem answers_of_lt {n : Nat} {snapshot : List keys.PrivateKey} (last : Answer keys)
    (h : given[n]? = some snapshot) : World.answers given last n = .ok snapshot := by
  rw [World.answers, h]

theorem answers_length (given : List (List keys.PrivateKey)) (last : Answer keys) :
    World.answers given last given.length = last := by
  rw [World.answers, List.getElem?_eq_none (Nat.le_refl _)]

/-- A load that every provider has answered. -/
theorem load_given (last : Answer keys) (hlength : before.length = given.length) :
    load (World.answers given last) before = (List.range given.length, .ok (indexed given)) := by
  have hfrom := loadFrom_given [] before given (World.answers given last) 0 ∅ hlength
    fun n snapshot hn => by rw [Nat.zero_add]; exact answers_of_lt last hn
  rw [List.append_nil] at hfrom
  rw [load, hfrom, loadFrom, List.append_nil, List.range_eq_range']
  rfl

/-- A load that ends at the provider after those that have answered. -/
theorem load_given_error (error : String) (hlength : before.length = given.length) :
    load (World.answers given (.error error)) (before ++ p :: rest) =
      (List.range (given.length + 1), .error
        ("provider load failed at index " ++ toString given.length ++ ": " ++ error)) := by
  have hlast : World.answers given (.error error) (0 + given.length) = .error error := by
    rw [Nat.zero_add]
    exact answers_length given _
  rw [load, loadFrom_given (p :: rest) before given _ 0 ∅ hlength
    fun n snapshot hn => by rw [Nat.zero_add]; exact answers_of_lt _ hn,
    loadFrom_error _ rest _ hlast, Nat.zero_add, ← List.range_eq_range', List.range_succ]

/-! ### One request -/

theorem handle_cached {s : OpenSession keys ι} {index : KeyIndex keys}
    (hneeds : request.needsKeys = true) (hkeys : s.keys = some index) (answer : Nat → Answer keys) :
    s.handle proto answer request = (s, [], replyWith index request) := by
  rw [handle_needsKeys hneeds, loadOnce_some hkeys]

theorem handle_load {s : OpenSession keys ι} {calls : List Nat} {index : KeyIndex keys}
    {answer : Nat → Answer keys} (hneeds : request.needsKeys = true) (hkeys : s.keys = none)
    (hload : load answer s.providers = (calls, .ok index)) :
    s.handle proto answer request =
      ({ s with keys := some index }, calls, replyWith index request) := by
  rw [handle_needsKeys hneeds, loadOnce, hkeys, hload]

theorem handle_load_error {s : OpenSession keys ι} {calls : List Nat} {error : String}
    {answer : Nat → Answer keys} (hneeds : request.needsKeys = true) (hkeys : s.keys = none)
    (hload : load answer s.providers = (calls, .error error)) :
    s.handle proto answer request = (s, calls, other error) := by
  rw [handle_needsKeys hneeds, loadOnce, hkeys, hload]

/-- Without a load, no provider is called. -/
theorem handle_calls {s : OpenSession keys ι} (answer : Nat → Answer keys)
    (hkeys : request.needsKeys = true → s.keys.isSome) :
    (s.handle proto answer request).2.1 = [] := by
  cases hneeds : request.needsKeys with
  | true =>
      obtain ⟨index, hindex⟩ := Option.isSome_iff_exists.mp (hkeys hneeds)
      rw [handle_cached hneeds hindex]
  | false =>
      cases request with
      | extension ext => rfl
      | identities | sign req => cases hneeds

/-- One more request. -/
theorem run_concat (proto : AgentProto) (request : Request keys) (answer : Nat → Answer keys) :
    ∀ (requests : List (Request keys × (Nat → Answer keys))) (s : OpenSession keys ι),
      s.run proto (requests ++ [(request, answer)]) =
        (((s.run proto requests).1.handle proto answer request).1,
          (s.run proto requests).2 ++ [⟨request, answer,
            ((s.run proto requests).1.handle proto answer request).2.1,
            ((s.run proto requests).1.handle proto answer request).2.2⟩]) := by
  intro requests
  induction requests with
  | nil =>
      intro s
      rfl
  | cons x requests ih =>
      obtain ⟨request', answer'⟩ := x
      intro s
      rw [List.cons_append, run_cons, ih, run_cons]
      rfl

/-! ### The invariant of a connection -/

/-- What a call on a provider has come to. -/
def World.status (w : World P) (p : ι) (i : CallId) : LoadStatus keys :=
  (P p).status (w.providers p) i

/-- The load of a connection, before it goes on with the rest of the providers. -/
structure LoadOk (agent : ServiceAgent ι) (w : World P) (session : OpenSession keys ι)
    (request : Request keys) (given : List (List keys.PrivateKey)) (out : KeyIndex keys)
    (rest : List ι) : Prop where
  needs : request.needsKeys = true
  unloaded : session.keys = none
  providers : ∃ before, agent.providers = before ++ rest ∧ before.length = given.length
  index : out = indexed given
  returned : ∀ (n : Nat) (snapshot : List keys.PrivateKey), given[n]? = some snapshot → ∃ p call,
    agent.providers[n]? = some p ∧ w.status p call = .returned (.ok snapshot)

/-- A connection has done what its session does, with answers that were given. -/
structure Refined (proto : AgentProto) (agent : ServiceAgent ι) (w : World P)
    (conn : Conn keys ι) : Prop where
  run : (start ⟨agent.providers⟩).run proto (conn.exchanges.map Exchange.input) =
    (conn.session, conn.exchanges)
  returned : ∀ x ∈ conn.exchanges, ∀ n ∈ x.calls, ∃ p call,
    agent.providers[n]? = some p ∧ w.status p call = .returned (x.answer n)

/-- The same, and so is what it has done of its load. -/
structure ConnOk (proto : AgentProto) (agent : ServiceAgent ι) (w : World P)
    (conn : Conn keys ι) : Prop extends Refined proto agent w conn where
  loading : ∀ {request given out p call rest},
    conn.place = .loading request given out p call rest →
      LoadOk agent w conn.session request given out (p :: rest)

/-- What has been returned stays so. -/
def Keeps (w w' : World P) : Prop :=
  ∀ p i answer, w.status p i = .returned answer → w'.status p i = .returned answer

theorem LoadOk.keeps {session : OpenSession keys ι} (h : LoadOk agent w session request given out rest)
    (hkeeps : Keeps w w') : LoadOk agent w' session request given out rest where
  needs := h.needs
  unloaded := h.unloaded
  providers := h.providers
  index := h.index
  returned n snapshot hn := by
    obtain ⟨p, call, hp, hstatus⟩ := h.returned n snapshot hn
    exact ⟨p, call, hp, hkeeps p call _ hstatus⟩

theorem Refined.keeps (h : Refined proto agent w conn) (hkeeps : Keeps w w') :
    Refined proto agent w' conn where
  run := h.run
  returned x hx n hn := by
    obtain ⟨p, call, hp, hstatus⟩ := h.returned x hx n hn
    exact ⟨p, call, hp, hkeeps p call _ hstatus⟩

/-- What it does next is another matter. -/
theorem Refined.move (h : Refined proto agent w conn) (place : Place keys ι) :
    Refined proto agent w { conn with place } := ⟨h.run, h.returned⟩

theorem ConnOk.keeps (h : ConnOk proto agent w conn) (hkeeps : Keeps w w') :
    ConnOk proto agent w' conn where
  toRefined := h.toRefined.keeps hkeeps
  loading hplace := (h.loading hplace).keeps hkeeps

/-- A session has the providers of its agent. -/
theorem Refined.providers (h : Refined proto agent w conn) :
    conn.session.providers = agent.providers := by
  have hrun := (run_keys proto (conn.exchanges.map Exchange.input)
    (start ⟨agent.providers⟩ : OpenSession keys ι)).1
  rw [h.run] at hrun
  exact hrun

/-- At the head of the loop the load stands as it should. -/
theorem AtHead.ok [DecidableEq ι] {a : Action P} (h : AtHead w c a conn request given out rest)
    (hconn : ConnOk proto agent w conn) : LoadOk agent w conn.session request given out rest := by
  cases h with
  | first hneeds hkeys =>
      refine ⟨hneeds, hkeys, ⟨[], hconn.providers.symm, rfl⟩, rfl, ?_⟩
      intro n snapshot hn
      cases hn
  | @next session exchanges request given out p call rest snapshot hstatus =>
      have hload : LoadOk agent w session request given out (p :: rest) := hconn.loading rfl
      obtain ⟨before, hproviders, hlength⟩ := hload.providers
      refine ⟨hload.needs, hload.unloaded, ⟨before ++ [p], ?_, ?_⟩, ?_, ?_⟩
      · rw [hproviders, List.append_assoc]
        rfl
      · rw [List.length_append, List.length_append, hlength]
        rfl
      · rw [hload.index, indexed, indexed, List.foldl_append]
        rfl
      · intro n snapshot' hn
        rcases Nat.lt_trichotomy n given.length with hlt | rfl | hgt
        · rw [List.getElem?_append_left hlt] at hn
          exact hload.returned n snapshot' hn
        · rw [List.getElem?_concat_length] at hn
          obtain rfl := Option.some.inj hn
          refine ⟨p, call, ?_, hstatus⟩
          rw [hproviders, ← hlength, List.getElem?_append_right (Nat.le_refl _), Nat.sub_self]
          rfl
        · rw [List.getElem?_eq_none (by rw [List.length_append]; exact hgt)] at hn
          cases hn

/-- A request served as the session would serve it. -/
theorem Refined.serve {answer : Nat → Answer keys} {session : OpenSession keys ι}
    {calls : List Nat} {reply : Reply keys} (h : Refined proto agent w conn)
    (hhandle : conn.session.handle proto answer request = (session, calls, reply))
    (hreturned : ∀ n ∈ calls, ∃ p call,
      agent.providers[n]? = some p ∧ w.status p call = .returned (answer n)) :
    Refined proto agent w (World.served conn session ⟨request, answer, calls, reply⟩) where
  run := by
    have hconcat := run_concat proto request answer (conn.exchanges.map Exchange.input)
      (start ⟨agent.providers⟩ : OpenSession keys ι)
    rw [h.run, hhandle] at hconcat
    rw [World.served, List.map_append]
    exact hconcat
  returned x hx := by
    rcases List.mem_append.mp hx with hx | hx
    · exact h.returned x hx
    · obtain rfl := List.mem_singleton.mp hx
      exact hreturned

/-- A connection that is not in a load. -/
theorem Refined.ok (h : Refined proto agent w conn)
    (hplace : conn.place = .idle ∨ conn.place = .closed) : ConnOk proto agent w conn where
  toRefined := h
  loading hloading := by
    rw [hloading] at hplace
    rcases hplace with hplace | hplace
    · cases hplace
    · cases hplace

/-! ### All connections -/

variable [DecidableEq ι]

/-- What the step of a connection does to the providers. -/
theorem ConnStep.provider_cases {a : Action P} (h : ConnStep proto agent w c a w') :
    w'.providers = w.providers ∨
      (∃ p state, (P p).load (w.providers p) w.next = some state ∧
        w'.providers = Function.update w.providers p state) ∨
      ∃ p call state, (P p).drop (w.providers p) call = some state ∧
        w'.providers = Function.update w.providers p state := by
  cases h with
  | called hconn hhead hload => exact Or.inr (Or.inl ⟨_, _, hload, rfl⟩)
  | dropped hconn hdrop => exact Or.inr (Or.inr ⟨_, _, _, hdrop, rfl⟩)
  | _ => exact Or.inl rfl

/-- A status depends on its own provider only. -/
theorem status_update {state : (P p).State}
    (hproviders : w'.providers = Function.update w.providers p state) (q : ι) (i : CallId) :
    w'.status q i = if q = p then (P p).status state i else w.status q i := by
  unfold World.status
  rw [hproviders]
  by_cases hq : q = p
  · subst hq
    rw [Function.update_self, if_pos rfl]
  · rw [Function.update_of_ne hq, if_neg hq]

theorem keeps_step (laws : ∀ p, (P p).Lawful) {a : Action P}
    (h : w.step proto agent a = some w') : Keeps w w' := by
  intro q i answer hret
  -- only what happens to provider `q` counts
  have hone : ∀ {p : ι} {state : (P p).State},
      w'.providers = Function.update w.providers p state →
      ((P p).status (w.providers p) i = .returned answer → (P p).status state i = .returned answer) →
        w'.status q i = .returned answer := by
    intro p state hproviders hstep
    rw [status_update hproviders]
    split
    · rename_i hq
      subst hq
      exact hstep hret
    · exact hret
  rcases agentStep h with ⟨p, b, state, rfl, hstep, rfl⟩ | ⟨c, hc⟩
  · refine hone rfl fun hp => ?_
    rw [(laws p).status_step hstep (by rw [hp]; simp), hp]
  · rcases hc.provider_cases with hsame | ⟨p, state, hload, hproviders⟩ |
      ⟨p, call, state, hdrop, hproviders⟩
    · rw [World.status, hsame]
      exact hret
    · refine hone hproviders fun hp => ?_
      obtain ⟨hunused, -, hothers⟩ := (laws p).loaded hload
      rw [(hothers i ?_).1, hp]
      rintro rfl
      rw [hunused] at hp
      cases hp
    · refine hone hproviders fun hp => ?_
      obtain ⟨hrunning, -, hothers⟩ := (laws p).dropped hdrop
      rw [(hothers i ?_).1, hp]
      rintro rfl
      rw [hrunning] at hp
      cases hp

/-- The connection that has taken the step. -/
theorem ConnStep.ok {a : Action P} (h : ConnStep proto agent w c a w') (hkeeps : Keeps w w')
    (hI : ∀ d conn, w.conns d = some conn → ConnOk proto agent w conn) :
    ∀ conn, w'.conns c = some conn → ConnOk proto agent w' conn := by
  intro conn hconn'
  cases h with
  | accepted hnone =>
      rw [withConn_self] at hconn'
      obtain rfl := Option.some.inj hconn'
      refine Refined.ok ⟨rfl, ?_⟩ (Or.inl rfl)
      intro x hx
      cases hx
  | @replied session exchanges request hconn hkeys =>
      rw [World.respond, withConn_self] at hconn'
      obtain rfl := Option.some.inj hconn'
      have hnone : ∀ n ∈ ([] : List Nat), ∃ p call,
          agent.providers[n]? = some p ∧ w.status p call =
            .returned (World.answers [] (.ok []) n) := by simp
      refine (((hI c _ hconn).toRefined.serve ?_ hnone).ok (Or.inl rfl)).keeps hkeeps
      rw [← handle_calls (World.answers [] (.ok [])) hkeys]
  | called hconn hhead hload =>
      rw [withConn_self] at hconn'
      obtain rfl := Option.some.inj hconn'
      have hok := hI c _ hconn
      refine ⟨(hok.toRefined.move _).keeps hkeeps, ?_⟩
      intro request given out p call rest hplace
      cases hplace
      exact (hhead.ok hok).keeps hkeeps
  | @loaded a conn₀ request given out hconn hhead =>
      have hok := hI c _ hconn
      have hload := hhead.ok hok
      rw [World.respond, withConn_self] at hconn'
      obtain rfl := Option.some.inj hconn'
      obtain ⟨before, hproviders, hlength⟩ := hload.providers
      rw [List.append_nil] at hproviders
      have hpass : load (World.answers given (.ok [])) conn₀.session.providers =
          (List.range given.length, .ok out) := by
        rw [hok.providers, hproviders, hload.index]
        exact load_given _ hlength
      refine ((hok.toRefined.serve ?_ ?_).ok (Or.inl rfl)).keeps hkeeps
      · rw [handle_load hload.needs hload.unloaded hpass, handle_cached hload.needs rfl]
      · intro n hn
        have hsome := List.getElem?_eq_getElem (List.mem_range.mp hn)
        rw [answers_of_lt _ hsome]
        exact hload.returned n _ hsome
  | @failed session exchanges request given out p call rest error hconn hstatus =>
      have hok := hI c _ hconn
      have hload : LoadOk agent w session request given out (p :: rest) := hok.loading rfl
      rw [withConn_self] at hconn'
      obtain rfl := Option.some.inj hconn'
      obtain ⟨before, hproviders, hlength⟩ := hload.providers
      have hsession : session.providers = agent.providers := hok.providers
      have hpass : load (World.answers given (.error error)) (before ++ p :: rest) = _ :=
        load_given_error error hlength
      rw [← hproviders, ← hsession] at hpass
      refine ((Refined.serve (hok.toRefined) (handle_load_error hload.needs hload.unloaded hpass)
        ?_).ok (Or.inl rfl)).keeps hkeeps
      intro n hn
      rcases Nat.lt_or_eq_of_le (Nat.lt_succ_iff.mp (List.mem_range.mp hn)) with hlt | rfl
      · have hsome := List.getElem?_eq_getElem hlt
        rw [answers_of_lt _ hsome]
        exact hload.returned n _ hsome
      · rw [answers_length]
        refine ⟨p, call, ?_, hstatus⟩
        rw [hproviders, ← hlength, List.getElem?_append_right (Nat.le_refl _), Nat.sub_self]
        rfl
  | dropped hconn hdrop =>
      rw [withConn_self] at hconn'
      obtain rfl := Option.some.inj hconn'
      exact (((hI c _ hconn).toRefined.move .closed).keeps hkeeps).ok (Or.inr rfl)
  | unwound hconn hstatus =>
      rw [withConn_self] at hconn'
      obtain rfl := Option.some.inj hconn'
      exact (((hI c _ hconn).toRefined.move .closed).keeps hkeeps).ok (Or.inr rfl)
  | closed hconn =>
      rw [withConn_self] at hconn'
      obtain rfl := Option.some.inj hconn'
      exact (((hI c _ hconn).toRefined.move .closed).keeps hkeeps).ok (Or.inr rfl)

/-- Every connection is where it should be. -/
theorem conns_ok (laws : ∀ p, (P p).Lawful) (h : (agentMachine proto agent P).Reachable w) :
    ∀ c conn, w.conns c = some conn → ConnOk proto agent w conn := by
  refine h.invariant (I := fun w => ∀ c conn, w.conns c = some conn → ConnOk proto agent w conn)
    ?_ ?_
  · rintro w ⟨providers, rfl, -⟩ c conn hconn
    cases hconn
  · intro w w' a _ hI hstep d conn hconn
    have hkeeps := keeps_step laws hstep
    rcases agentStep hstep with ⟨p, b, state, rfl, -, rfl⟩ | ⟨c, hc⟩
    · exact (hI d conn hconn).keeps hkeeps
    · by_cases hd : d = c
      · subst hd
        exact hc.ok hkeeps hI conn hconn
      · rw [hc.others hd] at hconn
        exact (hI d conn hconn).keeps hkeeps

/-- **A connection does what its session would do alone**, whatever the other connections and
the providers do in the meantime, and with the answers its own calls have returned. -/
theorem agent_refines (provider : ι → Provider keys)
    {w : World fun p => (provider p).loads}
    (h : (agentMachine proto agent fun p => (provider p).loads).Reachable w)
    (hconn : w.conns c = some conn) : Refined proto agent w conn :=
  (conns_ok (fun p => (provider p).lawful) h c conn hconn).toRefined

/-! ### An agent to run -/

/-- A dummy provider and a Bitwarden provider. -/
def pairProvider : Bool → Provider plainKeys
  | true => .dummy [(7, "")]
  | false => .bitwarden ⟨"vault", "api", "identity", "id", "secret", "master"⟩ Bitwarden.plainEnv

def pairAgent : ServiceAgent Bool := ⟨[true, false], by simp⟩

/-- The steps of the Bitwarden provider. -/
def vaultStep (a : Bitwarden.LoadAction Bitwarden.Reply) (h : BitwardenProvider.isOwn a = true) :
    Action fun p => (pairProvider p).loads := .provider false ⟨a, h⟩

def pairStart : World fun p => (pairProvider p).loads :=
  World.start fun
    | true => ([] : List CallId)
    | false => BitwardenProvider.start Bitwarden.plainEnv plainKeys 0

theorem pairStart_init :
    (agentMachine plainProto pairAgent fun p => (pairProvider p).loads).init pairStart := by
  refine ⟨_, rfl, ?_⟩
  rintro (_ | _) i
  · rfl
  · rfl

theorem reachable_of_pair (as : List (Action fun p => (pairProvider p).loads))
    (test : World (fun p => (pairProvider p).loads) → Bool)
    (h : (Machine.exec (World.step plainProto pairAgent) pairStart as).any test = true) :
    ∃ w, (agentMachine plainProto pairAgent fun p => (pairProvider p).loads).Reachable w ∧
      test w = true :=
  @Machine.reachable_of_exec_any _ _ _ _ pairStart pairStart_init as test h

/-- Two connections wait for the vault; one of them is dropped, and the other is told that
the session could not be made. -/
theorem agent_refines_pair : ∃ (w : World fun p => (pairProvider p).loads)
    (conn : Conn plainKeys Bool), w.conns 0 = some conn ∧
      conn.exchanges.map Exchange.calls = [[0, 1]] ∧
      (w.conns 1).map Conn.place matches some .closed ∧ Refined plainProto pairAgent w conn := by
  obtain ⟨w, hw, hp⟩ := reachable_of_pair
    [.accept 0, .accept 1, .request 0 .identities, .request 1 .identities, .resume 0, .resume 1,
      vaultStep (.go 2) rfl, vaultStep (.go 2) rfl, vaultStep (.go 2) rfl, vaultStep (.go 2) rfl,
      .drop 1, vaultStep (.create 2 (.error "no client")) rfl, vaultStep (.fetch 2) rfl, .resume 0]
    (fun w => (w.conns 0).any (fun conn => conn.exchanges.map Exchange.calls == [[0, 1]]) &&
      ((w.conns 1).map Conn.place matches some .closed))
    (by decide +kernel)
  obtain ⟨hfirst, hsecond⟩ := (Bool.and_eq_true _ _).mp hp
  obtain ⟨conn, hconn, hcalls⟩ := (Option.any_eq_true _ _).mp hfirst
  exact ⟨w, conn, hconn, by simpa using hcalls, hsecond, agent_refines pairProvider hw hconn⟩

end Keyring.Service
