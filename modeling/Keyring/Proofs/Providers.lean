/-
Both kinds of provider keep the laws.

For a dummy provider there is little to say, as its calls return at once.  For a Bitwarden
provider the laws are what was shown of its loads: a step is one of a single load, a load
under way comes closer to its end, and somebody can always go on.
-/
import Keyring.Proofs.Bitwarden.Provider.Settle
import Keyring.Proofs.Core.Provider
import Keyring.Providers

namespace Keyring

open Keyring.Core

variable {keys : SshKeys}

/-! ### Dummy providers -/

namespace DummyProvider

variable {identities : List keys.PrivateKey} {calls : List CallId} {i j : CallId}

/-- What a call on a dummy provider has come to. -/
theorem status_eq : (loads identities).status calls i =
    if i ∈ calls then .returned (.ok identities) else .unused := rfl

theorem status_running : (loads identities).status calls i ≠ .running := by
  rw [status_eq]
  split <;> simp

theorem status_unused (h : (loads identities).status calls i = .unused) : i ∉ calls := by
  rw [status_eq] at h
  intro hmem
  rw [if_pos hmem] at h
  cases h

theorem status_cons_self : (loads identities).status (i :: calls : List CallId) i ≠ .unused := by
  rw [status_eq, if_pos List.mem_cons_self]
  simp

theorem status_cons (h : j ≠ i) : (loads identities).status (i :: calls : List CallId) j =
    (loads identities).status calls j := by
  rw [status_eq, status_eq]
  simp only [List.mem_cons, or_iff_right h]

def lawful (identities : List keys.PrivateKey) : (loads identities).Lawful where
  rank _ _ := toLex (0, 0)
  isTurn a := nomatch a
  loads {calls i} h := ⟨i :: (calls : List CallId), if_neg (status_unused h)⟩
  loaded {calls calls' i} h := by
    obtain ⟨hnew, h⟩ := Option.ite_none_left_eq_some.mp h
    obtain rfl := Option.some.inj h
    exact ⟨if_neg hnew, status_cons_self, fun j hj => ⟨status_cons hj, rfl⟩⟩
  turned {_ _ a} := nomatch a
  passed {_ _ a} := nomatch a
  dropped h := by cases h
  progress {calls i} h := absurd h status_running

end DummyProvider

/-! ### Bitwarden providers -/

namespace BitwardenProvider

open Bitwarden

variable {env : Env} {s s' : State env keys} {i j : Core.CallId} {a : LoadAction env.Body}

theorem act_eq_some : act s a = some s' ↔ s.1.step a = some s'.1 := by
  unfold act
  split
  · rename_i w hw
    constructor
    · intro h
      obtain rfl := Option.some.inj h
      exact hw
    · intro h
      rw [hw] at h
      exact congrArg some (Subtype.ext (Option.some.inj h))
  · rename_i hnone
    rw [hnone]
    simp

theorem act_of_step {w : LoadWorld env keys} (h : s.1.step a = some w) :
    ∃ s', act s a = some s' ∧ s'.1 = w :=
  ⟨⟨w, s.2.step (a := a) h⟩, act_eq_some.mpr h, rfl⟩

theorem statusOf_running {pc : Core.Pc (KeyPairSnapshot keys) String} :
    statusOf pc = .running ↔ pc.atRest = false := by
  cases pc <;> simp [statusOf, Core.Pc.atRest]

theorem statusOf_unused {pc : Core.Pc (KeyPairSnapshot keys) String} :
    statusOf pc = .unused ↔ pc = .idle := by
  cases pc <;> simp [statusOf]

theorem statusOf_gone {pc : Core.Pc (KeyPairSnapshot keys) String} :
    statusOf pc = .gone ↔ pc = .cancelled := by
  cases pc <;> simp [statusOf]

/-- What a call has ahead of it. -/
def rank (s : State env keys) (i : Core.CallId) : Lex (Nat × Nat) := LoadPlace.rank (s.1.place i)

/-- A step of one load leaves the others alone. -/
theorem same_of_others (h : LoadStep s.1 i a s'.1) (hji : j ≠ i) :
    (loads env keys).Same rank s s' j := by
  obtain ⟨hcalls, hfetch, hsync⟩ := h.others hji
  refine ⟨congrArg statusOf hcalls, congrArg LoadPlace.rank ?_⟩
  rw [LoadWorld.place, hcalls, hfetch, hsync]
  rfl

/-- A load can be begun once. -/
theorem begin_isSome (h : s.1.cache.calls i = .idle) : (s.1.step (.begin i)).isSome := by
  have hidle : s.1.fetches i = .idle := by
    have hactive := (inner s.2).inside.active i
    rw [h] at hactive
    cases hfrom : s.1.fetches i with
    | idle => rfl
    | _ =>
        rw [hfrom] at hactive
        cases hactive
  rw [LoadWorld.step, LoadWorld.outside, hidle]
  simp only [LoadWorld.cell, Option.isSome_map, Core.World.step, h]
  rfl

/-- Who steps has begun, or begins. -/
theorem begun_of_turn (h : LoadStep s.1 i a s'.1) (ha : ∀ j, a ≠ .begin j) :
    s.1.cache.calls i ≠ .idle := by
  intro hidle
  exact ha i (h.begins (inner s.2) hidle).1

/-- **The loads of a Bitwarden provider are lawful.** -/
def lawful (env : Env) (keys : SshKeys) : (loads env keys).Lawful where
  rank := rank
  isTurn a := a.1.isTurn
  loads {s i} h := by
    obtain ⟨w, hw⟩ := Option.isSome_iff_exists.mp (begin_isSome (statusOf_unused.mp h))
    obtain ⟨s', hs', -⟩ := act_of_step hw
    exact ⟨s', hs'⟩
  loaded {s s' i} h := by
    rcases loadStep (act_eq_some.mp h) with ⟨now, cache, ha, -, -⟩ | ⟨j, hm⟩
    · cases ha
    · obtain rfl : i = j := Option.some.inj hm.party
      have hidle := hm.idle_of_begin
      refine ⟨statusOf_unused.mpr hidle, ?_, fun k hk => same_of_others hm hk⟩
      intro hunused
      have hread := (hm.begins (inner s.2) hidle).2
      rw [statusOf_unused.mp hunused] at hread
      cases hread
  turned {s s' a} h hturn := by
    have hne : ∀ j, a.1 ≠ .begin j := by
      intro j hbegin
      rw [hbegin] at hturn
      cases hturn
    rcases loadStep (act_eq_some.mp h) with ⟨now, cache, ha, -, -⟩ | ⟨i, hm⟩
    · rw [ha] at hturn
      cases hturn
    · have hbegun := begun_of_turn hm hne
      refine ⟨i, statusOf_running.mpr (hm.live (inner s.2) hbegun), ?_,
        (hm.closer (inner s.2) hbegun).falls, fun j hj => same_of_others hm hj⟩
      intro hunused
      exact hm.stays_begun hbegun (statusOf_unused.mp hunused)
  passed {s s' a} h hturn j := by
    rcases loadStep (act_eq_some.mp h) with ⟨now, cache, ha, hcache, hs'⟩ | ⟨i, hm⟩
    · have hstep := act_eq_some.mp h
      rw [ha] at hstep
      have hplace : s'.1.place j = s.1.place j := congrFun (place_tick hstep) j
      exact ⟨congrArg (fun p : LoadPlace keys => statusOf p.1) hplace, congrArg LoadPlace.rank hplace⟩
    · have hown := a.2
      have hparty := hm.party
      cases ha : a.1 with
      | begin k =>
          rw [ha] at hown
          cases hown
      | tick now =>
          rw [ha] at hparty
          cases hparty
      | _ =>
          rw [ha] at hturn
          cases hturn
  dropped {s s' i} h := by
    rcases loadStep (act_eq_some.mp h) with ⟨now, cache, ha, -, -⟩ | ⟨j, hm⟩
    · cases ha
    · obtain rfl : i = j := Option.some.inj hm.party
      have hbegun := begun_of_turn hm (by simp)
      exact ⟨statusOf_running.mpr (hm.live (inner s.2) hbegun), statusOf_gone.mpr hm.cancelled,
        fun j hj => same_of_others hm hj⟩
  progress {s i} h := by
    obtain ⟨j, hgoes⟩ := (inner s.2).progress (statusOf_running.mp h)
    obtain ⟨a, ha⟩ := hgoes.answered
    obtain ⟨w, hw⟩ := Option.isSome_iff_exists.mp (hgoes.step a ha)
    obtain ⟨s', hs', -⟩ := act_of_step hw
    have hown : isOwn a = true ∧ a.isTurn = true := by cases ha <;> exact ⟨rfl, rfl⟩
    exact ⟨⟨a, hown.1⟩, s', hown.2, hs'⟩

end BitwardenProvider

/-! ### Configured providers -/

def Provider.lawful : ∀ provider : Provider keys, provider.loads.Lawful
  | .dummy identities => DummyProvider.lawful identities
  | .bitwarden _ env => BitwardenProvider.lawful env keys

/-- Whether a step of a provider takes an answer of an endpoint. -/
def Provider.isAnswer : (provider : Provider keys) → provider.loads.Action → Bool
  | .dummy _, a => nomatch a
  | .bitwarden _ _, a => a.1.isAnswer

theorem BitwardenProvider.yields {env : Bitwarden.Env} {s : State env keys} {i : CallId}
    (h : (loads env keys).status s i = .running) :
    (∃ s', (loads env keys).drop s i = some s') ∨ ∃ (a : (loads env keys).Action) (s' : _),
      (lawful env keys).isTurn a = true ∧ a.1.isAnswer = false ∧
        (loads env keys).step s a = some s' := by
  rcases (Bitwarden.inner s.2).yields (statusOf_running.mp h) with hcancel | ⟨a, ha, hanswer, hstep⟩
  · obtain ⟨w, hw⟩ := Option.isSome_iff_exists.mp hcancel
    obtain ⟨s', hs', -⟩ := act_of_step hw
    exact Or.inl ⟨s', hs'⟩
  · obtain ⟨w, hw⟩ := Option.isSome_iff_exists.mp hstep
    obtain ⟨s', hs', -⟩ := act_of_step hw
    have hown : isOwn a = true ∧ a.isTurn = true := by cases ha <;> exact ⟨rfl, rfl⟩
    exact Or.inr ⟨⟨a, hown.1⟩, s', hown.2, hanswer, hs'⟩

/-- **A running call can be dropped, or its provider goes on without an answer.** -/
theorem Provider.yields : ∀ (provider : Provider keys) {s : provider.loads.State} {i : CallId},
    provider.loads.status s i = .running →
      (∃ s', provider.loads.drop s i = some s') ∨ ∃ a s', provider.lawful.isTurn a = true ∧
        provider.isAnswer a = false ∧ provider.loads.step s a = some s'
  | .dummy _, _, _, h => absurd h DummyProvider.status_running
  | .bitwarden _ _, _, _, h => BitwardenProvider.yields h

/-- A provider whose loads have all ended, and whose locks are free. -/
def Provider.Settled : (provider : Provider keys) → provider.loads.State → Prop
  | .dummy _, _ => True
  | .bitwarden _ _, s => Bitwarden.LoadSettled s.1

/-- A provider without a running call has come to rest. -/
theorem Provider.settled : ∀ (provider : Provider keys) (s : provider.loads.State),
    (∀ i, provider.loads.status s i ≠ .running) → Provider.Settled provider s
  | .dummy _, _, _ => trivial
  | .bitwarden _ _, s, h => (Bitwarden.inner s.2).settled fun i => by
      by_contra hi
      exact h i (BitwardenProvider.statusOf_running.mpr (Bool.eq_false_iff.mpr hi))

end Keyring
