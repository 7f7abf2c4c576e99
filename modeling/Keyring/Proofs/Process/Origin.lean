/-
From the wire back to the configuration.

A response that was sent is the answer of the session to the request before it, and what
a session answers comes from the providers of its generation.  So whatever reloads there
have been, a client is told of identities, and given signatures, of the agent that was in
place when it came, and of no other.
-/
import Keyring.Proofs.Process.Serves

namespace Keyring.Process

open Keyring.Service Keyring.Cli

variable {keys : SshKeys} {proto : AgentProto} {agent : ServiceAgent (Provider keys)}
  {w : World keys} {job : Nat} {client : Serve.Client (Provider keys)} {gen : Generation keys}
  {reply : Reply keys}

/-! ### The answer behind a response -/

/-- Only an answer of the session is sent as one. -/
theorem Sends.answer {answer : Reply keys} (h : Sends answer (.body reply)) : answer = reply := by
  cases h with
  | identities | signature | extension => rfl

theorem Matches.answer {wire : List (Handle.Exchange (Message keys) (Reply keys))}
    {exchanges : List (Service.Exchange keys)} (h : Matches wire exchanges) :
    ∀ x ∈ wire, x.res = .body reply →
      ∃ y ∈ exchanges, y.reply = reply ∧ x.req = .request y.request := by
  induction h with
  | nil => exact fun x hx => absurd hx List.not_mem_nil
  | @answered _ _ _ _ y hreq hsends ih =>
      intro x hx hsent
      rcases List.mem_append.mp hx with hold | hlast
      · obtain ⟨z, hz, hreply⟩ := ih x hold hsent
        exact ⟨z, List.mem_append_left _ hz, hreply⟩
      · obtain rfl := List.mem_singleton.mp hlast
        rw [hsent] at hsends
        exact ⟨y, List.mem_append_right _ (List.mem_singleton_self y), hsends.answer, hreq⟩
  | refused h command hreq hres ih =>
      intro x hx hsent
      rcases List.mem_append.mp hx with hold | hlast
      · exact ih x hold hsent
      · obtain rfl := List.mem_singleton.mp hlast
        rw [hres] at hsent
        cases hsent

/-- A response was preceded by its request, and is the answer to it. -/
theorem Dialogue.answer {said : List (Handle.Event (Message keys) (Reply keys))}
    {exchanges : List (Service.Exchange keys)} (h : Dialogue said exchanges)
    (hsent : .sent (.body reply) ∈ said) : ∃ y ∈ exchanges, y.reply = reply ∧
      ∃ deadline, .decoded (.request y.request) deadline ∈ said := by
  obtain ⟨wire, tail, served, rest, rfl, rfl, hmatches, hunanswered⟩ := h
  rcases List.mem_append.mp hsent with hwire | htail
  · obtain ⟨x, hx, hevent⟩ := List.mem_flatMap.mp hwire
    have hresponse : x.res = .body reply := by
      simp only [Handle.Exchange.events, List.mem_cons, reduceCtorEq, List.not_mem_nil, or_false,
        false_or] at hevent
      exact (Handle.Event.sent.inj hevent).symm
    obtain ⟨y, hy, hreply, hreq⟩ := hmatches.answer x hx hresponse
    refine ⟨y, List.mem_append_left _ hy, hreply, x.deadline, ?_⟩
    refine List.mem_append_left _ (List.mem_flatMap.mpr ⟨x, hx, ?_⟩)
    rw [← hreq]
    exact List.mem_cons_self
  · exact absurd htail (hunanswered.unsent _)

theorem mem_visible {l : List (Handle.Event (Message keys) (Reply keys))}
    {e : Handle.Event (Message keys) (Reply keys)} (h : e.isPoll = false) :
    e ∈ Handle.visible l ↔ e ∈ l := by
  rw [Handle.visible, List.mem_filter, h]
  simp

/-! ### The providers behind an answer -/

/-- Where what a client is sent comes from. -/
structure Traced (w : World keys) (job : Nat) (gen : Generation keys) : Prop where
  /-- An identity that was sent is that of a key some provider of the generation has. -/
  listed : ∀ list, .sent (.body (.identities list)) ∈ Drain.wire job w.drain.log → ∀ id ∈ list,
    ∃ p key, (gen.agent.providers.get p).Publishes (gen.world.providers p) key ∧
      id = ⟨keys.publicKey key, keys.comment key⟩
  /-- A signature that was sent is made with such a key, the one that the client asked for. -/
  signed : ∀ signature, .sent (.body (.signature signature)) ∈ Drain.wire job w.drain.log →
    ∃ req deadline, .decoded (.request (.sign req)) deadline ∈ Drain.wire job w.drain.log ∧
      ∃ p key, (gen.agent.providers.get p).Publishes (gen.world.providers p) key ∧
        keys.publicKey key = req.pubkey ∧
          sig keys key req.data req.flags = .returned (.ok signature)

theorem Serves.traced {conn : Conn keys (Fin gen.agent.providers.length)}
    (h : Serves proto agent w job client gen conn) : Traced w job gen := by
  have horiginates := h.refined.originates
  have hanswer : ∀ {reply}, .sent (.body reply) ∈ Drain.wire job w.drain.log →
      ∃ y ∈ conn.exchanges, y.reply = reply ∧ ∃ deadline,
        .decoded (.request y.request) deadline ∈ Drain.wire job w.drain.log := by
    intro reply hsent
    obtain ⟨y, hy, hreply, deadline, hdecoded⟩ :=
      h.dialogue.answer ((mem_visible rfl).mpr hsent)
    exact ⟨y, hy, hreply, deadline, (mem_visible rfl).mp hdecoded⟩
  refine ⟨?_, ?_⟩
  · intro list hsent id hid
    obtain ⟨y, hy, hreply, -⟩ := hanswer hsent
    obtain ⟨p, -, key, hpublishes, hkey⟩ := horiginates.listed y hy list hreply id hid
    exact ⟨p, key, hpublishes, hkey⟩
  · intro signature hsent
    obtain ⟨y, hy, hreply, deadline, hdecoded⟩ := hanswer hsent
    obtain ⟨req, hrequest, p, -, key, hpublishes, hpublic, hsig⟩ :=
      horiginates.signed y hy signature hreply
    rw [hrequest] at hdecoded
    exact ⟨req, deadline, hdecoded, p, key, hpublishes, hpublic, hsig⟩

/-- **What a client is sent leads back to the agent that was in place when it came**: every
identity to a key that one of its providers was configured with, or made of a live cipher of
a vault it received, and every signature to such a key, the one that was asked for. -/
theorem process_originates (h : (processMachine proto agent).Reachable w)
    (hclient : (Serve.clients w.drain.serve.log)[job]? = some client) :
    ∃ gen, w.generations[client.stop]? = some gen ∧
      (Serve.generations agent w.drain.serve.log)[client.stop]? = some gen.agent ∧
        Traced w job gen := by
  obtain ⟨gen, conn, hgen, -, hserves⟩ := (inv h).serves h hclient
  exact ⟨gen, hgen, hserves.generation, hserves.traced⟩

/-- The client of the old agent is told of identities after the new one was in place. -/
theorem process_originates_replaced : ∃ (w : World plainKeys) (gen : Generation plainKeys),
    (Drain.wire 0 w.drain.log).any isListing = true ∧ w.generations.length = 2 ∧
      w.generations[0]? = some gen ∧ Traced w 0 gen := by
  obtain ⟨w, hw, hp⟩ := Run.reachable Run.replaced
    (fun w => (Drain.wire 0 w.drain.log).any isListing && (w.generations.length == 2 &&
      ((Serve.clients w.drain.serve.log)[0]?).any fun client => client.stop == 0))
    (by decide +kernel)
  obtain ⟨hlisting, hp⟩ := (Bool.and_eq_true _ _).mp hp
  obtain ⟨htwo, hp⟩ := (Bool.and_eq_true _ _).mp hp
  obtain ⟨client, hclient, hstop⟩ := (Option.any_eq_true _ _).mp hp
  obtain ⟨gen, hgen, -, htraced⟩ := process_originates hw hclient
  rw [beq_iff_eq.mp hstop] at hgen
  exact ⟨w, gen, hlisting, beq_iff_eq.mp htwo, hgen, htraced⟩

end Keyring.Process
