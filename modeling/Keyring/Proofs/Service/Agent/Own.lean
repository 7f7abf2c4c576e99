/-
Every call has an owner.

A call on a provider is begun by a connection and runs for nobody else.  A connection that
goes away takes its call with it, so no call is left behind that would hold a lock of its
provider: once no connection is in `load`, every provider has come to rest.
-/
import Keyring.Proofs.Service.Agent.Refine

namespace Keyring.Service

open Keyring.Core

variable {keys : SshKeys} {ι : Type} {P : ι → KeyPairProvider keys} {proto : AgentProto}
  {agent : ServiceAgent ι} {w w' : World P} {c d : ConnId} {p q : ι} {i : CallId}
  {conn : Conn keys ι} {request : Request keys} {given : List (List keys.PrivateKey)}
  {out : KeyIndex keys} {rest : List ι}

/-! ### The call a connection waits for -/

def Place.call : Place keys ι → Option (ι × CallId)
  | .loading _ _ _ p call _ => some (p, call)
  | .idle | .closed => none

def World.call (w : World P) (c : ConnId) : Option (ι × CallId) :=
  (w.conns c).bind fun conn => conn.place.call

theorem call_of_conn (h : w.conns c = some conn) : w.call c = conn.place.call := by
  rw [World.call, h]
  rfl

theorem call_withConn_self (w : World P) (c : ConnId) (conn : Conn keys ι) :
    (w.withConn c conn).call c = conn.place.call := call_of_conn (withConn_self w c conn)

/-- Who is at the head of the loop waits for no call. -/
theorem AtHead.not_running [DecidableEq ι] {a : Action P}
    (h : AtHead w c a conn request given out rest) (hcall : conn.place.call = some (p, i)) : w.status p i ≠ .running := by
  cases h with
  | first hneeds hkeys => cases hcall
  | next hstatus =>
      cases hcall
      rw [World.status, hstatus]
      simp

/-- What a step of a connection does to its call. -/
inductive CallMove [DecidableEq ι] (w w' : World P) (c : ConnId) : Prop
  | ended (hproviders : w'.providers = w.providers) (hnext : w'.next = w.next)
      (hfree : ∀ p i, w.call c = some (p, i) → w.status p i ≠ .running)
      (hcall : w'.call c = none)
  | called {p : ι} {state : (P p).State} (hload : (P p).load (w.providers p) w.next = some state)
      (hproviders : w'.providers = Function.update w.providers p state)
      (hnext : w'.next = w.next + 1)
      (hfree : ∀ q i, w.call c = some (q, i) → w.status q i ≠ .running)
      (hcall : w'.call c = some (p, w.next))
  | dropped {p : ι} {i : CallId} {state : (P p).State} (hwaits : w.call c = some (p, i))
      (hdrop : (P p).drop (w.providers p) i = some state)
      (hproviders : w'.providers = Function.update w.providers p state)
      (hnext : w'.next = w.next) (hcall : w'.call c = none)

theorem ConnStep.callMove [DecidableEq ι] {a : Action P} (h : ConnStep proto agent w c a w') :
    CallMove w w' c := by
  -- a connection that was not in a load had no call
  have hidle : ∀ {conn : Conn keys ι}, w.conns c = some conn → conn.place.call = none →
      ∀ p i, w.call c = some (p, i) → w.status p i ≠ .running := by
    intro conn hconn hnone p i hcall
    rw [call_of_conn hconn, hnone] at hcall
    cases hcall
  have hends : ∀ {conn : Conn keys ι} {request : Request keys} {given : List (List keys.PrivateKey)}
      {out : KeyIndex keys} {p : ι} {i : CallId} {rest : List ι}, w.conns c = some conn →
      conn.place = .loading request given out p i rest → w.status p i ≠ .running →
      ∀ q j, w.call c = some (q, j) → w.status q j ≠ .running := by
    intro conn request given out p i rest hconn hplace hstatus q j hcall
    rw [call_of_conn hconn, hplace] at hcall
    cases hcall
    exact hstatus
  cases h with
  | accepted hnone =>
      refine .ended rfl rfl ?_ (call_withConn_self _ _ _)
      intro p i hcall
      rw [World.call, hnone] at hcall
      cases hcall
  | replied hconn hkeys => exact .ended rfl rfl (hidle hconn rfl) (call_withConn_self _ _ _)
  | called hconn hhead hload =>
      refine .called hload rfl rfl ?_ (call_withConn_self _ _ _)
      intro q i hcall
      rw [call_of_conn hconn] at hcall
      exact hhead.not_running hcall
  | loaded hconn hhead =>
      refine .ended rfl rfl ?_ (call_withConn_self _ _ _)
      intro q i hcall
      rw [call_of_conn hconn] at hcall
      exact hhead.not_running hcall
  | failed hconn hstatus =>
      refine .ended rfl rfl (hends hconn rfl ?_) (call_withConn_self _ _ _)
      rw [World.status, hstatus]
      simp
  | dropped hconn hdrop =>
      exact .dropped ((call_of_conn hconn).trans rfl) hdrop rfl rfl (call_withConn_self _ _ _)
  | unwound hconn hstatus =>
      refine .ended rfl rfl (hends hconn rfl ?_) (call_withConn_self _ _ _)
      rw [World.status, hstatus]
      simp
  | closed hconn => exact .ended rfl rfl (hidle hconn rfl) (call_withConn_self _ _ _)

/-! ### The invariant -/

/-- Running calls have one owner, and calls are numbered. -/
structure Owned (w : World P) : Prop where
  owner : ∀ p i, w.status p i = .running → ∃ c, w.call c = some (p, i)
  one : ∀ c d p i, w.call c = some (p, i) → w.call d = some (p, i) → c = d
  used : ∀ c p i, w.call c = some (p, i) → w.status p i ≠ .unused
  fresh : ∀ p i, w.next ≤ i → w.status p i = .unused

theorem Owned.lt (h : Owned w) (hcall : w.call c = some (p, i)) : i < w.next := by
  by_contra hle
  exact h.used c p i hcall (h.fresh p i (Nat.le_of_not_lt hle))

/-- A step of a provider. -/
theorem Owned.provider [DecidableEq ι] (laws : ∀ p, (P p).Lawful) {b : (P p).Action}
    {state : (P p).State} (h : Owned w) (hstep : (P p).step (w.providers p) b = some state) :
    Owned (w.withProvider p state) := by
  -- only the calls of `p` can have changed, and of these only running ones
  have hsame : ∀ q i, w.status q i ≠ .running →
      (w.withProvider p state).status q i = w.status q i := by
    intro q i hi
    rw [status_update rfl]
    split
    · rename_i hq
      subst hq
      exact (laws q).status_step hstep hi
    · rfl
  have hused : ∀ q i, w.status q i ≠ .unused → (w.withProvider p state).status q i ≠ .unused := by
    intro q i hi
    rw [status_update rfl]
    split
    · rename_i hq
      subst hq
      exact (laws q).used_step hstep hi
    · exact hi
  refine ⟨?_, h.one, fun c q i hcall => hused q i (h.used c q i hcall), ?_⟩
  · intro q i hrunning
    refine h.owner q i ?_
    by_contra hi
    rw [hsame q i hi] at hrunning
    exact hi hrunning
  · intro q i hi
    have hunused := h.fresh q i hi
    rw [hsame q i (by rw [hunused]; simp), hunused]

/-- What a step of one connection has to see to. -/
theorem Owned.of_move (h : Owned w) (hothers : ∀ d, d ≠ c → w'.call d = w.call d)
    (hstatus : ∀ d q i, d ≠ c → w.call d = some (q, i) → w'.status q i = w.status q i)
    (hrunning : ∀ q i, w'.status q i = .running → w'.call c = some (q, i) ∨
      w.status q i = .running ∧ w.call c ≠ some (q, i))
    (hcall : ∀ q i, w'.call c = some (q, i) →
      w'.status q i ≠ .unused ∧ ∀ d, w.call d ≠ some (q, i))
    (hfresh : ∀ q i, w'.next ≤ i → w'.status q i = .unused) : Owned w' := by
  have hother : ∀ {d q i}, w'.call d = some (q, i) → d ≠ c → w.call d = some (q, i) :=
    fun hd hdc => (hothers _ hdc).symm.trans hd
  refine ⟨?_, ?_, ?_, hfresh⟩
  · intro q i hrun
    rcases hrunning q i hrun with hc | ⟨hbefore, hne⟩
    · exact ⟨c, hc⟩
    · obtain ⟨d, hd⟩ := h.owner q i hbefore
      refine ⟨d, (hothers d ?_).trans hd⟩
      rintro rfl
      exact hne hd
  · intro d e q i hd he
    by_cases hdc : d = c
    · by_cases hec : e = c
      · rw [hdc, hec]
      · subst hdc
        exact absurd (hother he hec) ((hcall q i hd).2 e)
    · by_cases hec : e = c
      · subst hec
        exact absurd (hother hd hdc) ((hcall q i he).2 d)
      · exact h.one d e q i (hother hd hdc) (hother he hec)
  · intro d q i hd
    by_cases hdc : d = c
    · subst hdc
      exact (hcall q i hd).1
    · rw [hstatus d q i hdc (hother hd hdc)]
      exact h.used d q i (hother hd hdc)

/-- A provider in which one call has changed. -/
theorem status_other {rank : (P p).State → CallId → Lex (Nat × Nat)} {state : (P p).State}
    [DecidableEq ι] (hproviders : w'.providers = Function.update w.providers p state)
    (hsame : ∀ j, j ≠ i → (P p).Same rank (w.providers p) state j) {q : ι} {j : CallId}
    (hne : (q, j) ≠ (p, i)) : w'.status q j = w.status q j := by
  rw [status_update hproviders]
  split
  · rename_i hq
    subst hq
    refine (hsame j ?_).1
    rintro rfl
    exact hne rfl
  · rfl

/-- A step of a connection. -/
theorem Owned.moves [DecidableEq ι] (laws : ∀ p, (P p).Lawful) (h : Owned w)
    (hmove : CallMove w w' c) (hothers : ∀ d, d ≠ c → w'.call d = w.call d) : Owned w' := by
  cases hmove with
  | ended hproviders hnext hfree hcall =>
      have hstatus : ∀ q i, w'.status q i = w.status q i := by
        intro q i
        rw [World.status, World.status, hproviders]
      refine h.of_move hothers (fun d q i _ _ => hstatus q i) ?_ ?_ ?_
      · intro q i hrunning
        rw [hstatus] at hrunning
        exact Or.inr ⟨hrunning, fun hc => hfree q i hc hrunning⟩
      · intro q i hc
        rw [hcall] at hc
        cases hc
      · intro q i hi
        rw [hstatus]
        exact h.fresh q i (hnext ▸ hi)
  | @called p state hload hproviders hnext hfree hcall =>
      obtain ⟨hunused, hbegun, hsame⟩ := (laws p).loaded hload
      have hnew : ∀ d, w.call d ≠ some (p, w.next) :=
        fun d hd => Nat.lt_irrefl _ (h.lt hd)
      refine h.of_move hothers ?_ ?_ ?_ ?_
      · intro d q i _ hd
        refine status_other hproviders hsame fun heq => ?_
        rw [heq] at hd
        exact hnew d hd
      · intro q i hrunning
        by_cases hqi : (q, i) = (p, w.next)
        · exact Or.inl (hcall.trans (congrArg some hqi.symm))
        · rw [status_other hproviders hsame hqi] at hrunning
          exact Or.inr ⟨hrunning, fun hc => hfree q i hc hrunning⟩
      · intro q i hc
        rw [hcall] at hc
        obtain ⟨rfl, rfl⟩ := Prod.mk.inj (Option.some.inj hc)
        refine ⟨?_, hnew⟩
        rw [status_update hproviders, if_pos rfl]
        exact hbegun
      · intro q i hi
        rw [hnext] at hi
        rw [status_other hproviders hsame]
        · exact h.fresh q i (Nat.le_of_succ_le hi)
        · intro heq
          rw [(Prod.mk.inj heq).2] at hi
          exact Nat.lt_irrefl _ hi
  | @dropped p i state hwaits hdrop hproviders hnext hcall =>
      obtain ⟨hrunning, hgone, hsame⟩ := (laws p).dropped hdrop
      refine h.of_move hothers ?_ ?_ ?_ ?_
      · intro d q j hdc hd
        refine status_other hproviders hsame fun heq => hdc ?_
        rw [heq] at hd
        exact h.one d c p i hd hwaits
      · intro q j hj
        have hne : (q, j) ≠ (p, i) := by
          intro heq
          obtain ⟨rfl, rfl⟩ := Prod.mk.inj heq
          rw [status_update hproviders, if_pos rfl, hgone] at hj
          cases hj
        rw [status_other hproviders hsame hne] at hj
        refine Or.inr ⟨hj, fun hc => hne ?_⟩
        rw [hwaits] at hc
        exact (Option.some.inj hc).symm
      · intro q j hc
        rw [hcall] at hc
        cases hc
      · intro q j hj
        rw [hnext] at hj
        rw [status_other hproviders hsame]
        · exact h.fresh q j hj
        · intro heq
          rw [(Prod.mk.inj heq).2] at hj
          exact Nat.lt_irrefl _ (Nat.lt_of_lt_of_le (h.lt hwaits) hj)

theorem owned [DecidableEq ι] (laws : ∀ p, (P p).Lawful)
    (h : (agentMachine proto agent P).Reachable w) : Owned w := by
  refine h.invariant ?_ ?_
  · rintro w ⟨providers, rfl, hunused⟩
    refine ⟨?_, ?_, ?_, fun p i _ => hunused p i⟩
    · intro p i hrunning
      have hstatus : (World.start providers).status p i = .unused := hunused p i
      rw [hrunning] at hstatus
      cases hstatus
    · intro c d p i hc
      cases hc
    · intro c p i hc
      cases hc
  · intro w w' a _ hI hstep
    rcases agentStep hstep with ⟨p, b, state, rfl, hprovider, rfl⟩ | ⟨c, hc⟩
    · exact hI.provider laws hprovider
    · refine hI.moves laws hc.callMove fun d hd => ?_
      rw [World.call, World.call, hc.others hd]

/-! ### Nobody is left behind -/

/-- What becomes of calls. -/
structure CallsOwned {provider : ι → Provider keys} (w : World fun p => (provider p).loads) :
    Prop where
  /-- A running call has one connection that waits for it. -/
  owner : ∀ p i, w.status p i = .running → ∃! c, w.call c = some (p, i)
  /-- Who waits for a call has begun it. -/
  begun : ∀ c p i, w.call c = some (p, i) → w.status p i ≠ .unused
  /-- Once nobody waits, no provider has anything to do, or a lock that is held. -/
  quiet : (∀ c, w.call c = none) → ∀ p, Provider.Settled (provider p) (w.providers p)

/-- Providers nobody waits for have come to rest. -/
theorem Owned.settled {provider : ι → Provider keys} {w : World fun p => (provider p).loads}
    (h : Owned w) (hquiet : ∀ c, w.call c = none) (p : ι) :
    Provider.Settled (provider p) (w.providers p) := by
  refine Provider.settled (provider p) (w.providers p) fun i hrunning => ?_
  obtain ⟨c, hc⟩ := h.owner p i hrunning
  rw [hquiet c] at hc
  cases hc

/-- **No call is left behind**: whatever is dropped, times out or panics, a call runs only as
long as there is one connection that waits for it. -/
theorem agent_owned [DecidableEq ι] {provider : ι → Provider keys}
    {w : World fun p => (provider p).loads}
    (h : (agentMachine proto agent fun p => (provider p).loads).Reachable w) : CallsOwned w := by
  have howned := owned (fun p => (provider p).lawful) h
  refine ⟨?_, howned.used, howned.settled⟩
  intro p i hrunning
  obtain ⟨c, hc⟩ := howned.owner p i hrunning
  exact ⟨c, hc, fun d hd => howned.one d c p i hd hc⟩

/-- The second of two connections that wait for the vault is dropped inside its login. -/
theorem agent_owned_dropped : ∃ w : World fun p => (pairProvider p).loads,
    w.call 0 = some (false, 2) ∧ w.call 1 = none ∧ CallsOwned w := by
  obtain ⟨w, hw, hp⟩ := reachable_of_pair
    ([.accept 0, .accept 1, .request 0 .identities, .request 1 .identities, .resume 0, .resume 1]
      ++ List.replicate 4 (vaultStep (.go 3) rfl) ++ [vaultStep (.create 3 (.ok ())) rfl]
      ++ List.replicate 6 (vaultStep (.sync 3 .go) rfl) ++ [.drop 1])
    (fun w => w.call 0 == some (false, 2) && w.call 1 == none)
    (by decide +kernel)
  simp only [Bool.and_eq_true, beq_iff_eq] at hp
  exact ⟨w, hp.1, hp.2, agent_owned hw⟩

end Keyring.Service
