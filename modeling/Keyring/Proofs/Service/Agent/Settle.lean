/-
Every request comes to an end.

A connection in `load` has some providers to go, and the call on the present one has some
way to go.  Its own steps bring the number of providers down; a step of a provider brings
one call closer to its end, and that call has an owner.  So every step but those of the
clock brings one connection closer to its reply, and as long as a connection waits for one,
its provider can go on or the connection can.
-/
import Keyring.Lib.Parties
import Keyring.Proofs.Service.Agent.Own
import Mathlib.Algebra.Order.Monoid.Prod

namespace Keyring.Service

open Keyring.Core

variable {keys : SshKeys} {ι : Type} {P : ι → KeyPairProvider keys} {proto : AgentProto}
  {agent : ServiceAgent ι} {w w' : World P} {c d : ConnId} {p q : ι} {i : CallId}
  {conn : Conn keys ι} {request : Request keys} {given : List (List keys.PrivateKey)}
  {out : KeyIndex keys} {rest : List ι} (laws : ∀ p, (P p).Lawful)

/-! ### How far a connection has to go -/

/-- The providers after the present one, and what the call on that one has ahead of it. -/
abbrev Way := Option (Nat × Lex (Nat × Nat))

def World.wayOf (w : World P) : Place keys ι → Way
  | .loading _ _ _ p call rest => some (rest.length, (laws p).rank (w.providers p) call)
  | .idle | .closed => none

/-- What a connection has ahead of it; nothing, where it is not in `load`. -/
def World.way (w : World P) (c : ConnId) : Way :=
  (w.conns c).bind fun conn => w.wayOf laws conn.place

/-- The end of a load is still a step. -/
def Way.rank : Way → Lex (Nat × Lex (Nat × Nat))
  | none => toLex (0, toLex (0, 0))
  | some (left, r) => toLex (left + 1, r)

theorem way_of_conn (h : w.conns c = some conn) : w.way laws c = w.wayOf laws conn.place := by
  rw [World.way, h]
  rfl

/-- Who waits for a call has a way to go, and nobody else. -/
theorem way_eq_none : w.way laws c = none ↔ w.call c = none := by
  cases hconn : w.conns c with
  | none => simp [World.way, World.call, hconn]
  | some conn =>
      rw [way_of_conn laws hconn, call_of_conn hconn]
      cases conn.place <;> simp [World.wayOf, Place.call]

/-- A connection that stays where it is, on a provider that has not moved its call. -/
theorem way_congr (hconn : w'.conns c = w.conns c)
    (hrank : ∀ q i, w.call c = some (q, i) →
      (laws q).rank (w'.providers q) i = (laws q).rank (w.providers q) i) :
    w'.way laws c = w.way laws c := by
  cases hsome : w.conns c with
  | none => rw [World.way, World.way, hconn, hsome]; rfl
  | some conn =>
      rw [way_of_conn laws hsome, way_of_conn laws (hconn.trans hsome)]
      rw [call_of_conn hsome] at hrank
      cases hplace : conn.place with
      | loading request given out q i rest =>
          rw [hplace] at hrank
          show some (rest.length, _) = some (rest.length, _)
          rw [hrank q i rfl]
      | idle => rfl
      | closed => rfl

theorem rank_update [DecidableEq ι] {state : (P p).State}
    (hproviders : w'.providers = Function.update w.providers p state)
    (hsame : ∀ j, j ≠ i → (P p).Same (laws p).rank (w.providers p) state j) {j : CallId}
    (hne : (q, j) ≠ (p, i)) :
    (laws q).rank (w'.providers q) j = (laws q).rank (w.providers q) j := by
  rw [hproviders]
  by_cases hq : q = p
  · subst hq
    rw [Function.update_self]
    refine (hsame j ?_).2
    rintro rfl
    exact hne rfl
  · rw [Function.update_of_ne hq]

/-! ### Everybody comes closer -/

/-- Whether an action is neither the client's nor the clock's. -/
def Action.isTurn : Action P → Bool
  | .provider p a => (laws p).isTurn a
  | .resume _ | .drop _ | .unwind _ => true
  | .accept _ | .request _ _ | .close _ => false

variable [DecidableEq ι]

/-- A step of a provider brings the owner of a call closer. -/
theorem provider_closer {b : (P p).Action} {state : (P p).State} (h : Owned w)
    (hstep : (P p).step (w.providers p) b = some state) (hturn : (laws p).isTurn b = true) :
    ∃ c, Machine.Closer (· = none) Way.rank (w.way laws) ((w.withProvider p state).way laws) c := by
  obtain ⟨i, hrunning, -, hlt, hsame⟩ := (laws p).turned hstep hturn
  obtain ⟨c, hc⟩ := h.owner p i hrunning
  refine ⟨c, ?_, ?_, ?_⟩
  · rw [way_eq_none, hc]
    simp
  · obtain ⟨conn, hconn, hplace⟩ := Option.bind_eq_some_iff.mp hc
    rw [way_of_conn laws hconn, way_of_conn laws (w := w.withProvider p state) hconn]
    cases hat : conn.place with
    | loading request given out q j rest =>
        rw [hat] at hplace
        cases hplace
        show toLex (rest.length + 1, _) < toLex (rest.length + 1, _)
        rw [withProvider_self]
        exact Prod.Lex.toLex_lt_toLex.mpr (Or.inr ⟨rfl, hlt⟩)
    | idle | closed =>
        rw [hat] at hplace
        cases hplace
  · intro d hd
    refine way_congr laws rfl fun q j hcall => ?_
    refine rank_update laws rfl hsame fun heq => hd ?_
    rw [heq] at hcall
    exact h.one d c p i hcall hc

/-- A step of one connection leaves the ways of the others as they are. -/
theorem ConnStep.way_others {a : Action P} (hc : ConnStep proto agent w c a w') (h : Owned w)
    (hd : d ≠ c) : w'.way laws d = w.way laws d := by
  refine way_congr laws (hc.others hd) fun q i hcall => ?_
  cases hc.callMove with
  | ended hproviders hnext hfree hnone => rw [hproviders]
  | called hload hproviders hnext hfree hnew =>
      refine rank_update laws hproviders ((laws _).loaded hload).2.2 fun heq => ?_
      have hlt := h.lt hcall
      rw [(Prod.mk.inj heq).2] at hlt
      exact Nat.lt_irrefl _ hlt
  | dropped hwaits hdrop hproviders hnext hnone =>
      refine rank_update laws hproviders ((laws _).dropped hdrop).2.2 fun heq => hd ?_
      rw [heq] at hcall
      exact h.one d c _ _ hcall hwaits

/-- A connection comes closer by its own steps. -/
theorem ConnStep.closer {a : Action P} (hc : ConnStep proto agent w c a w') (h : Owned w)
    (hturn : a.isTurn laws = true) :
    Machine.Closer (· = none) Way.rank (w.way laws) (w'.way laws) c := by
  -- whoever leaves the loop was in it, and so was who goes on in it
  have hleaves : ∀ {conn conn' : Conn keys ι} {request : Request keys}
      {given : List (List keys.PrivateKey)} {out : KeyIndex keys} {p : ι} {i : CallId}
      {rest : List ι}, w.conns c = some conn → conn.place = .loading request given out p i rest →
      w'.conns c = some conn' → Way.rank (w'.wayOf laws conn'.place) <
        toLex (rest.length + 1, (laws p).rank (w.providers p) i) →
      Machine.Closer (· = none) Way.rank (w.way laws) (w'.way laws) c := by
    intro conn conn' request given out p i rest hconn hplace hconn' hlt
    have hway : w.way laws c = some (rest.length, (laws p).rank (w.providers p) i) := by
      rw [way_of_conn laws hconn, hplace]
      rfl
    refine ⟨?_, ?_, fun d hd => hc.way_others laws h hd⟩
    · rw [hway]
      simp
    · rw [hway, way_of_conn laws hconn']
      exact hlt
  have hzero : ∀ (n : Nat) (r : Lex (Nat × Nat)), Way.rank none < toLex (n + 1, r) :=
    fun n r => Prod.Lex.toLex_lt_toLex.mpr (Or.inl (Nat.succ_pos n))
  cases hc with
  | accepted | replied | closed => cases hturn
  | @called a conn request given out p rest state hconn hhead hload =>
      generalize hrest : p :: rest = rest' at hhead
      cases hhead with
      | first => cases hturn
      | next hstatus =>
          subst hrest
          refine hleaves hconn rfl (withConn_self _ _ _) ?_
          exact Prod.Lex.toLex_lt_toLex.mpr (Or.inl (Nat.lt_succ_self _))
  | loaded hconn hhead =>
      generalize ([] : List ι) = rest' at hhead
      cases hhead with
      | first => cases hturn
      | next hstatus => exact hleaves hconn rfl (withConn_self _ _ _) (hzero _ _)
  | failed hconn hstatus => exact hleaves hconn rfl (withConn_self _ _ _) (hzero _ _)
  | dropped hconn hdrop => exact hleaves hconn rfl (withConn_self _ _ _) (hzero _ _)
  | unwound hconn hstatus => exact hleaves hconn rfl (withConn_self _ _ _) (hzero _ _)

/-! ### Somebody can always go on -/

/-- The next provider can be called. -/
theorem loadNext_isSome (laws : ∀ p, (P p).Lawful) (h : Owned w) (conn : Conn keys ι)
    (request : Request keys) (given : List (List keys.PrivateKey)) (out : KeyIndex keys) (rest : List ι) :
    (w.loadNext proto c conn request given out rest).isSome := by
  cases rest with
  | nil => rfl
  | cons p rest =>
      obtain ⟨state, hload⟩ := (laws p).loads (h.fresh p w.next (Nat.le_refl _))
      rw [World.loadNext, Option.isSome_map, hload]
      rfl

/-- Whoever waits for a provider waits for a call that is running, or can go on itself, or its
call has panicked. -/
theorem waits_cases (laws : ∀ p, (P p).Lawful) (proto : AgentProto) (h : Owned w)
    (hcall : w.call c = some (p, i)) :
    (P p).status (w.providers p) i = .running ∨ (w.resume proto c).isSome ∨
      (w.unwind c).isSome := by
  obtain ⟨⟨session, place, exchanges⟩, hconn, hplace⟩ := Option.bind_eq_some_iff.mp hcall
  cases place with
  | idle | closed => cases hplace
  | loading request given out q j rest =>
      cases hplace
      cases hstatus : (P p).status (w.providers p) i with
      | unused => exact absurd hstatus (h.used c p i hcall)
      | running => exact Or.inl rfl
      | returned answer =>
          refine Or.inr (Or.inl ?_)
          rw [World.resume, hconn]
          cases answer with
          | ok snapshot =>
              simp only [hstatus]
              exact loadNext_isSome laws h _ _ _ _ _
          | error error =>
              simp only [hstatus]
              rfl
      | gone =>
          refine Or.inr (Or.inr ?_)
          rw [World.unwind, hconn]
          simp only [hstatus]
          rfl

/-- Dropping a connection that waits drops the call. -/
theorem drop_isSome {state : (P p).State} (hcall : w.call c = some (p, i))
    (hdrop : (P p).drop (w.providers p) i = some state) : (w.drop c).isSome := by
  obtain ⟨⟨session, place, exchanges⟩, hconn, hplace⟩ := Option.bind_eq_some_iff.mp hcall
  cases place with
  | idle | closed => cases hplace
  | loading request given out q j rest =>
      cases hplace
      rw [World.drop, hconn]
      simp only [hdrop, Option.map_some, Option.isSome_some]

/-- So something can happen, without anybody being dropped. -/
theorem goes_on (proto : AgentProto) (agent : ServiceAgent ι) (h : Owned w)
    (hcall : w.call c = some (p, i)) :
    ∃ a : Action P, a.isTurn laws = true ∧ (∀ d, a ≠ .drop d) ∧
      (w.step proto agent a).isSome := by
  rcases waits_cases laws proto h hcall with hrunning | hresume | hunwind
  · obtain ⟨b, state, hturn, hstep⟩ := (laws p).progress hrunning
    refine ⟨.provider p b, hturn, by simp, ?_⟩
    rw [World.step, Option.isSome_map, hstep]
    rfl
  · exact ⟨.resume c, rfl, by simp, hresume⟩
  · exact ⟨.unwind c, rfl, by simp, hunwind⟩

/-- There are only finitely many connections. -/
theorem agent_few (h : (agentMachine proto agent P).Reachable w) :
    ∃ live : Finset ConnId, ∀ c, c ∉ live → w.conns c = none := by
  refine h.invariant
    (I := fun w => ∃ live : Finset ConnId, ∀ c, c ∉ live → w.conns c = none) ?_ ?_
  · rintro w ⟨providers, rfl, -⟩
    exact ⟨∅, fun c _ => rfl⟩
  · rintro w w' a _ ⟨live, hlive⟩ hstep
    rcases agentStep hstep with ⟨p, b, state, rfl, -, rfl⟩ | ⟨c, hc⟩
    · exact ⟨live, hlive⟩
    · refine ⟨insert c live, fun d hd => ?_⟩
      rw [Finset.mem_insert, not_or] at hd
      rw [hc.others hd.1]
      exact hlive d hd.2

/-! ### All requests end -/

/-- The clocks of providers go on. -/
def clockMachine (P : ι → KeyPairProvider keys) (laws : ∀ p, (P p).Lawful) :
    Machine (World P) ((p : ι) × (P p).Action) where
  init _ := True
  step w a w' := (laws a.1).isTurn a.2 = false ∧
    ((P a.1).step (w.providers a.1) a.2).map (w.withProvider a.1) = some w'

/-- The runs in which the clients do nothing.  Time may pass before every step. -/
def agentSettleMachine (proto : AgentProto) (agent : ServiceAgent ι) (P : ι → KeyPairProvider keys)
    (laws : ∀ p, (P p).Lawful) : Machine (World P) (Action P) where
  init _ := True
  step w a w' := a.isTurn laws = true ∧
    ∃ w₁, (clockMachine P laws).Leads w w₁ ∧ w₁.step proto agent a = some w'

/-- Time that passes takes nobody anywhere. -/
theorem way_passed {b : (P p).Action} {state : (P p).State}
    (hstep : (P p).step (w.providers p) b = some state) (hturn : (laws p).isTurn b = false) :
    (w.withProvider p state).way laws = w.way laws := by
  funext c
  refine way_congr laws rfl fun q i _ => ?_
  by_cases hq : q = p
  · subst hq
    rw [withProvider_self]
    exact ((laws q).passed hstep hturn i).2
  · rw [withProvider_of_ne w state hq]

/-- And it is a run. -/
theorem clock_leads (proto : AgentProto) (agent : ServiceAgent ι)
    (h : (clockMachine P laws).Leads w w') :
    (agentMachine proto agent P).Leads w w' ∧ w'.way laws = w.way laws := by
  refine h.keeps
    (I := fun w' => (agentMachine proto agent P).Leads w w' ∧ w'.way laws = w.way laws) ?_
    ⟨Machine.Leads.refl w, rfl⟩
  rintro w₁ w₂ ⟨p, b⟩ ⟨hleads, hway⟩ ⟨hturn, hstep⟩
  refine ⟨hleads.step (m := agentMachine proto agent P) (a := .provider p b) hstep, ?_⟩
  rw [← hway]
  obtain ⟨state, hprovider, rfl⟩ := Option.map_eq_some_iff.mp hstep
  exact way_passed laws hprovider hturn

theorem agent_inevitable (h : (agentMachine proto agent P).Reachable w) :
    (agentSettleMachine proto agent P laws).Inevitable
      (fun w => (agentMachine proto agent P).Reachable w ∧ ∀ c, w.call c = none) w := by
  obtain ⟨live, hlive⟩ := agent_few h
  refine (Machine.inevitable_of_parties (I := (agentMachine proto agent P).Reachable)
    (World.way laws) (· = none) Way.rank ?_ ?_ h ⟨live, fun c hc => ?_⟩).mono ?_
  · rintro w hr ⟨c, hc⟩
    rw [way_eq_none] at hc
    obtain ⟨⟨p, i⟩, hcall⟩ := Option.ne_none_iff_exists'.mp hc
    obtain ⟨a, hturn, -, hstep⟩ := goes_on laws proto agent (owned laws hr) hcall
    obtain ⟨w', hw'⟩ := Option.isSome_iff_exists.mp hstep
    exact ⟨a, w', hturn, w, Machine.Leads.refl w, hw'⟩
  · rintro w a w' hr ⟨hturn, w₁, hclock, hstep⟩
    obtain ⟨hleads, hway⟩ := clock_leads laws proto agent hclock
    have hr₁ : (agentMachine proto agent P).Reachable w₁ := hr.leads hleads
    refine ⟨hr₁.step (a := a) hstep, ?_⟩
    rw [← hway]
    rcases agentStep hstep with ⟨p, b, state, rfl, hprovider, rfl⟩ | ⟨c, hc⟩
    · exact provider_closer laws (owned laws hr₁) hprovider hturn
    · exact ⟨c, hc.closer laws (owned laws hr₁) hturn⟩
  · refine (way_eq_none laws).mpr ?_
    rw [World.call, hlive c hc]
    rfl
  · rintro w ⟨hr, hrest⟩
    exact ⟨hr, fun c => (way_eq_none laws).mp (hrest c)⟩

section

variable {provider : ι → Provider keys} {w : World fun p => (provider p).loads}

/-- No connection is in `load`, and every provider has come to rest. -/
structure AgentSettled (w : World fun p => (provider p).loads) : Prop where
  ended : ∀ c, w.call c = none
  settled : ∀ p, Provider.Settled (provider p) (w.providers p)

/-- Neither a deadlock nor a livelock, from the connections down to the locks. -/
structure AgentSettles (proto : AgentProto) (agent : ServiceAgent ι)
    (w : World fun p => (provider p).loads) : Prop where
  /-- As long as a request waits, something can happen without any being dropped. -/
  goesOn : ∀ c, (w.call c).isSome → ∃ a : Action fun p => (provider p).loads,
    a.isTurn (fun p => (provider p).lawful) = true ∧ (∀ d, a ≠ .drop d) ∧
      (w.step proto agent a).isSome
  /-- Whatever happens then, and whichever are dropped, all requests come to an end. -/
  ends : (agentSettleMachine proto agent (fun p => (provider p).loads)
    fun p => (provider p).lawful).Inevitable AgentSettled w

/-- **Every request comes to an end**, however many connections share the providers, whatever
the endpoints answer and in whichever order things happen. -/
theorem agent_settles (h : (agentMachine proto agent fun p => (provider p).loads).Reachable w) :
    AgentSettles proto agent w where
  goesOn c hc := by
    obtain ⟨⟨p, i⟩, hcall⟩ := Option.isSome_iff_exists.mp hc
    exact goes_on _ proto agent (owned (fun p => (provider p).lawful) h) hcall
  ends := (agent_inevitable (fun p => (provider p).lawful) h).mono fun w ⟨hr, hquiet⟩ =>
    ⟨hquiet, (owned (fun p => (provider p).lawful) hr).settled hquiet⟩

end

/-- Two connections wait for the vault, and one of the calls is inside its login. -/
theorem agent_settles_pair : ∃ w : World fun p => (pairProvider p).loads,
    w.call 0 = some (false, 2) ∧ w.call 1 = some (false, 3) ∧
      AgentSettles plainProto pairAgent w := by
  obtain ⟨w, hw, hp⟩ := reachable_of_pair
    ([.accept 0, .accept 1, .request 0 .identities, .request 1 .identities, .resume 0, .resume 1]
      ++ List.replicate 4 (vaultStep (.go 3) rfl) ++ [vaultStep (.create 3 (.ok ())) rfl]
      ++ List.replicate 6 (vaultStep (.sync 3 .go) rfl))
    (fun w => w.call 0 == some (false, 2) && w.call 1 == some (false, 3))
    (by decide +kernel)
  simp only [Bool.and_eq_true, beq_iff_eq] at hp
  exact ⟨w, hp.1, hp.2, agent_settles hw⟩

end Keyring.Service
