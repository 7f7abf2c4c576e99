/-
Where an agent's identities come from.

A listing is of the session's index, the index is of what the providers have returned, and
what a Bitwarden provider has returned is what a sync response was worth.  So every public
key a client is told of leads back to a configured identity, or to a cipher of a response
that this provider's endpoint has sent, and every signature was made with such a key.
-/
import Keyring.Proofs.Bitwarden.Provider.Locality
import Keyring.Proofs.Service.Agent.Refine

namespace Keyring

open Keyring.Core

variable {keys : SshKeys} {key : keys.PrivateKey}

/-- The identity of a live cipher of a response that was received, under the keys that the
organization keys of the same response left. -/
def BitwardenProvider.Publishes {env : Bitwarden.Env} (s : State env keys)
    (key : keys.PrivateKey) : Prop :=
  ∃ i response store profile cipher, (i, .synced response) ∈ s.1.log ∧
    (i, .rebuilt response store) ∈ s.1.log ∧ response.profile = some profile ∧
    cipher ∈ response.ciphers.getD [] ∧ Bitwarden.isLive cipher = true ∧
    Bitwarden.outcome env.crypto keys cipher (Bitwarden.scopeEntry env.crypto
      (Bitwarden.initializeOrgKeys env.crypto store profile).2 cipher.organizationId) = some key

/-- What a provider has for a key. -/
def Provider.Publishes : (provider : Provider keys) → provider.loads.State → keys.PrivateKey → Prop
  | .dummy identities, _, key => key ∈ identities
  | .bitwarden _ _, s, key => BitwardenProvider.Publishes s key

theorem Bitwarden.isLive_of_outcome {c : Bitwarden.Crypto} {cipher : Bitwarden.BitwardenCipher}
    {base : Option c.SymmetricCryptoKey} (h : Bitwarden.outcome c keys cipher base = some key) :
    Bitwarden.isLive cipher = true := by
  by_contra hlive
  rw [Bitwarden.outcome_of_not_live (Bool.eq_false_iff.mpr hlive)] at h
  cases h

theorem BitwardenProvider.publishes {env : Bitwarden.Env} {s : State env keys} {i : CallId}
    {snapshot : List keys.PrivateKey}
    (h : (loads env keys).status s i = .returned (.ok snapshot)) (hkey : key ∈ snapshot) :
    Publishes s key := by
  have hdone : s.1.cache.calls i = .done (.ok snapshot) := by
    have hstatus : statusOf (s.1.cache.calls i) = .returned (.ok snapshot) := h
    cases hpc : s.1.cache.calls i with
    | done answer =>
        rw [hpc] at hstatus
        exact congrArg _ (LoadStatus.returned.inj hstatus)
    | _ =>
        rw [hpc] at hstatus
        cases hstatus
  obtain ⟨hin, hfacts⟩ := Bitwarden.load_facts s.2
  obtain ⟨j, c, hc, hreply⟩ := Core.returned_stored hin.cache hdone
  obtain ⟨response, store, profile, hsynced, hrebuilt, hprofile, rfl⟩ :=
    Bitwarden.published_outcomes s.2 (hfacts.stored j c snapshot hc hreply)
  obtain ⟨cipher, hcipher, hmem⟩ := List.mem_flatMap.mp hkey
  have hopens := Option.mem_toList.mp hmem
  exact ⟨j, response, store, profile, cipher, hsynced, hrebuilt, hprofile, hcipher,
    Bitwarden.isLive_of_outcome hopens, hopens⟩

theorem DummyProvider.publishes {identities snapshot : List keys.PrivateKey}
    {calls : List CallId} {i : CallId}
    (h : (loads identities).status calls i = .returned (.ok snapshot)) (hkey : key ∈ snapshot) :
    key ∈ identities := by
  rw [status_eq] at h
  split at h
  · obtain rfl := Except.ok.inj (LoadStatus.returned.inj h)
    exact hkey
  · cases h

/-- A provider has what it returns. -/
theorem Provider.publishes : ∀ (provider : Provider keys) {s : provider.loads.State} {i : CallId}
    {snapshot : List keys.PrivateKey}, provider.loads.status s i = .returned (.ok snapshot) →
    key ∈ snapshot → provider.Publishes s key
  | .dummy _, _, _, _, h, hkey => DummyProvider.publishes h hkey
  | .bitwarden _ _, _, _, _, h, hkey => BitwardenProvider.publishes h hkey

namespace Service

open OpenSession

variable {ι : Type} {proto : AgentProto}
  {agent : ServiceAgent ι} {provider : ι → Provider keys}
  {w : World fun p => (provider p).loads} {c : ConnId} {conn : Conn keys ι}

/-- A key of the index was given by a provider in some exchange. -/
theorem key_of_index {session : ServiceSession ι}
    {requests : List (Request keys × (Nat → Answer keys))} {exchanges : List (Exchange keys)}
    {index : KeyIndex keys} {k : keys.KeyData}
    (hrun : ((start session).run proto requests).2 = exchanges)
    (hindex : indexOf session exchanges = some index) (hkey : index[k]? = some key) :
    ∃ x ∈ exchanges, ∃ n ∈ x.calls, ∃ snapshot, x.answer n = .ok snapshot ∧ key ∈ snapshot ∧
      keys.publicKey key = k := by
  obtain ⟨before, x, after, hsplit, hnone, hpass⟩ := firstIndex_some hindex
  obtain ⟨hneeds, hload⟩ := passIndex_some hpass
  rw [load_lookup hload] at hkey
  obtain ⟨hmem, hpublic⟩ := Index.last_eq_some hkey
  obtain ⟨n, hn, hgiven⟩ := List.mem_flatMap.mp hmem
  have hlt : n < session.providers.length := by simpa using hn
  -- the pass was complete, so it called every provider
  rcases pass_of_indexOf (hrun.trans hsplit) hnone hneeds with
    ⟨i, error, hi, -, hanswer, -⟩ | ⟨-, hcalls, -⟩
  · rcases load_cases x.answer session.providers with ⟨_, _, -, -, -, -, herror⟩ | ⟨hall, -⟩
    · rw [hload] at herror
      cases herror
    · obtain ⟨snapshot, hsnapshot⟩ := hall i hi
      rw [hanswer] at hsnapshot
      cases hsnapshot
  · refine ⟨x, by rw [hsplit]; simp, n, by rw [hcalls]; exact List.mem_range.mpr hlt, ?_⟩
    cases hanswer : x.answer n with
    | error error =>
        rw [hanswer] at hgiven
        cases hgiven
    | ok snapshot =>
        rw [hanswer] at hgiven
        exact ⟨snapshot, rfl, hgiven, hpublic⟩

/-- Where what a client is told comes from. -/
structure Originates (agent : ServiceAgent ι) (w : World fun p => (provider p).loads)
    (conn : Conn keys ι) : Prop where
  /-- A listed identity is that of a key some provider has. -/
  listed : ∀ x ∈ conn.exchanges, ∀ list, x.reply = .identities list → ∀ id ∈ list,
    ∃ p ∈ agent.providers, ∃ key, (provider p).Publishes (w.providers p) key ∧
      id = ⟨keys.publicKey key, keys.comment key⟩
  /-- A signature is made with such a key, the one that was asked for. -/
  signed : ∀ x ∈ conn.exchanges, ∀ signature, x.reply = .signature signature →
    ∃ req, x.request = .sign req ∧ ∃ p ∈ agent.providers, ∃ key,
      (provider p).Publishes (w.providers p) key ∧ keys.publicKey key = req.pubkey ∧
        sig keys key req.data req.flags = .returned (.ok signature)

/-- A key of a connection's index is one that a provider of the agent has. -/
theorem Refined.published (h : Refined proto agent w conn) {index : KeyIndex keys}
    {k : keys.KeyData} (hindex : indexOf ⟨agent.providers⟩ conn.exchanges = some index)
    (hkey : index[k]? = some key) :
    ∃ p ∈ agent.providers, (provider p).Publishes (w.providers p) key ∧
      keys.publicKey key = k := by
  have hrun : ((start ⟨agent.providers⟩).run proto (conn.exchanges.map Exchange.input)).2 =
      conn.exchanges := by rw [h.run]
  obtain ⟨x, hx, n, hn, snapshot, hanswer, hmem, hpublic⟩ := key_of_index hrun hindex hkey
  obtain ⟨p, call, hp, hstatus⟩ := h.returned x hx n hn
  rw [hanswer] at hstatus
  exact ⟨p, List.mem_of_getElem? hp, Provider.publishes (provider p) hstatus hmem, hpublic⟩

theorem Refined.originates (href : Refined proto agent w conn) : Originates agent w conn := by
  have hrun : ((start ⟨agent.providers⟩).run proto (conn.exchanges.map Exchange.input)).2 =
      conn.exchanges := by rw [href.run]
  refine ⟨?_, ?_⟩
  · intro x hx list hreply id hid
    obtain ⟨index, hindex, rfl⟩ := listing_of_indexOf hrun hx hreply
    obtain ⟨key, hkey, hcomment⟩ := mem_listing.mp hid
    obtain ⟨p, hp, hpublishes, hpublic⟩ := href.published hindex hkey
    refine ⟨p, hp, key, hpublishes, ?_⟩
    rw [hpublic, ← hcomment]
  · intro x hx signature hreply
    obtain ⟨index, req, key, hindex, hrequest, hkey, -, hsig⟩ :=
      signature_of_indexOf hrun hx hreply
    obtain ⟨p, hp, hpublishes, hpublic⟩ := href.published hindex hkey
    exact ⟨req, hrequest, p, hp, key, hpublishes, hpublic, hsig⟩

/-- **Every identity and every signature leads back to a configured identity or to a live
cipher of a received vault**, whatever connections and providers have done before. -/
theorem agent_originates [DecidableEq ι]
    (h : (agentMachine proto agent fun p => (provider p).loads).Reachable w)
    (hconn : w.conns c = some conn) : Originates agent w conn :=
  (conns_ok (fun p => (provider p).lawful) h c conn hconn).toRefined.originates

/-- The steps of a load of the vault, once it is begun. -/
def vaultLoad (i : CallId) : List (Bitwarden.LoadAction Bitwarden.Reply) :=
  List.replicate 4 (.go i) ++ [.create i (.ok ())] ++
    (Bitwarden.Run.firstSync i "token" ++ Bitwarden.Run.answer i .ok ++
      [Bitwarden.Action.call i (.body (.ok (Bitwarden.Reply.vault Bitwarden.Run.sharedVault)))]).map
        Bitwarden.Run.inFetch ++ List.replicate 4 (.fetch i)

/-- A connection is told of the configured identity and of the one in the vault. -/
theorem agent_originates_pair : ∃ (w : World fun p => (pairProvider p).loads)
    (conn : Conn plainKeys Bool), w.conns 0 = some conn ∧
      (∃ x ∈ conn.exchanges, x.calls = [0, 1] ∧ ∃ list, x.reply = .identities list) ∧
      Originates pairAgent w conn := by
  obtain ⟨w, hw, hp⟩ := reachable_of_pair
    ([.accept 0, .request 0 .identities, .resume 0] ++ (vaultLoad 1).filterMap (fun a =>
      if h : BitwardenProvider.isOwn a = true then some (vaultStep a h) else none) ++ [.resume 0])
    (fun w => (w.conns 0).any fun conn => conn.exchanges.any fun x =>
      x.calls == [0, 1] && x.reply matches .identities _)
    (by decide +kernel)
  obtain ⟨conn, hconn, hany⟩ := (Option.any_eq_true _ _).mp hp
  obtain ⟨x, hx, htest⟩ := List.any_eq_true.mp hany
  obtain ⟨hcalls, hreply⟩ := (Bool.and_eq_true _ _).mp htest
  refine ⟨w, conn, hconn, ⟨x, hx, beq_iff_eq.mp hcalls, ?_⟩, agent_originates hw hconn⟩
  cases hr : x.reply with
  | identities list => exact ⟨list, rfl⟩
  | _ =>
      rw [hr] at hreply
      cases hreply

end Service

end Keyring
