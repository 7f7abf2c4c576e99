/-
A provider heals: one load alone, against healthy endpoints, gets what the vault is worth.

Whatever failed, was rejected or was dropped before, what it can have left behind is an
entry of the cell, a session or none, and a key store.  A load that runs alone is refused
no step, so it ends; and it ends with the snapshot of a vault that was served to it, worked
out on a store that has the user's key, unless the entry of the cell was still fresh.
-/
import Keyring.Proofs.Bitwarden.Provider.Settle

namespace Keyring.Bitwarden

variable {env : Env} {keys : SshKeys} {i j : CallId} {k : Nat} {w₀ w w' : LoadWorld env keys}

/-! ### A load alone with healthy endpoints -/

/-- How many tokens a provider's session has been issued. -/
def LoadWorld.issued (w : LoadWorld env keys) : Nat :=
  (w.session.map fun s => (issuedTokens s.log).length).getD 0

/-- What a load goes on with when all endpoints are healthy. -/
def HealthyServer.turn (server : HealthyServer env k) (i : CallId) (w : LoadWorld env keys) :
    LoadAction env.Body :=
  match w.cache.calls i, w.fetches i, w.session with
  | .idle, _, _ => .begin i
  | _, .idle, _ => .go i
  | _, .session, _ => .create i (.ok ())
  | _, .sync, some s => .sync i (server.answer s (s.calls i))
  | _, _, _ => .fetch i

/-- The runs in which only load `i` takes steps, with time passing between them. -/
def soloLoadMachine (keys : SshKeys) (server : HealthyServer env k) (i : CallId) :
    Machine (LoadWorld env keys) Instant where
  init _ := True
  step w now w' := now ≤ server.horizon ∧ ∃ w₁, w.step (.tick now) = some w₁ ∧
    w₁.step (server.turn i w₁) = some w'

/-- The vault was served to the load: on the way from `w₀` to `w` there is a moment at which
its `sync` waited for a body, and that of the server decodes to this vault. -/
def HealthyServer.ServedToLoad (server : HealthyServer env k) (i : CallId)
    (w₀ w : LoadWorld env keys) (vault : BitwardenSyncResponse) : Prop :=
  ∃ u s, (loadMachine env keys).Leads w₀ u ∧ (loadMachine env keys).Leads u w ∧
    u.session = some s ∧ s.calls i = .body ∧ env.decodeSync (server.body s) = .ok vault

/-- The result is what the vault that the load received is worth, on the store its fetch found
when it rebuilt the organization keys, if it came to that.  The store has the user's key. -/
def Fetched (server : HealthyServer env k) (i : CallId) (w₀ w : LoadWorld env keys)
    (result : Except String (KeyPairSnapshot keys)) : Prop :=
  ∃ vault before, (i, .synced vault) ∈ w.log ∧ server.ServedToLoad i w₀ w vault ∧
    (vault.profile.isSome → (i, .rebuilt vault before) ∈ w.log) ∧
    (env.crypto.symmetric before .user).isSome ∧
    (publish env.crypto keys vault before).1 = result

/-- The load has returned the snapshot that was fresh in the cell, or what the vault that was
served to it is worth. -/
def LoadHealed (server : HealthyServer env k) (i : CallId) (w₀ w : LoadWorld env keys) : Prop :=
  ∃ result, w.cache.calls i = .done result ∧
    (Fetched server i w₀ w result ∨ ∃ snapshot, result = .ok snapshot ∧
      Core.fresh w₀.cache.clock snapshotTtl w₀.cache.cell.value = some snapshot)

/-- Where a healthy load can stand. -/
def LoadStands (server : HealthyServer env k) (i : CallId) (w₀ w : LoadWorld env keys) :
    Core.Pc (KeyPairSnapshot keys) String → Fetch keys → Prop
  | .idle, _ | .read _ _, _ | .write _ _, _ => w.cache.cell.value = w₀.cache.cell.value
  | .init _ _, .idle | .init _ _, .session => True
  | .init _ _, .sync => ∃ s began sent, w.session = some s ∧
      Place env s.session.state.value.token (Newest k s.log) began sent (s.calls i) ∧
      (s.calls i = .body → s.session.unlocked)
  | .init _ _, .initOrgs _ => ∃ s, w.session = some s ∧ s.session.unlocked
  | .init _ _, .keys _ _ _ => True
  | .init _ _, .done result => Fetched server i w₀ w result
  | .done result, _ => Fetched server i w₀ w result ∨ ∃ snapshot, result = .ok snapshot ∧
      Core.fresh w₀.cache.clock snapshotTtl w₀.cache.cell.value = some snapshot
  | .cancelled, _ => False

/-- What holds of a load alone, all along its way from `w₀`. -/
structure SoloLoad (server : HealthyServer env k) (i : CallId) (w₀ w : LoadWorld env keys) :
    Prop where
  reachable : (loadMachine env keys).Reachable w
  leads : (loadMachine env keys).Leads w₀ w
  alone : ∀ j, j ≠ i → (w.cache.calls j).atRest = true
  inTime : w.cache.clock ≤ server.horizon
  since : w₀.cache.clock ≤ w.cache.clock
  issued : k ≤ w.issued
  /-- The load looks the cell up with the provider's own time to live. -/
  ttl : ∀ held ttl, w.cache.calls i = .read held ttl ∨ w.cache.calls i = .write held ttl →
    ttl = snapshotTtl
  served : ∀ vault, (i, .synced vault) ∈ w.log → server.ServedToLoad i w₀ w vault
  rebuilt : ∀ vault before, (i, .rebuilt vault before) ∈ w.log →
    (env.crypto.symmetric before .user).isSome
  stands : LoadStands server i w₀ w (w.cache.calls i) (w.fetches i)

variable {server : HealthyServer env k}

/-! ### It can always go on -/

/-- Alone with the cell, a load gets every guard. -/
theorem SoloLoad.go_isSome (h : SoloLoad server i w₀ w) {input}
    (hanswers : Core.Answers (w.cache.calls i) input) :
    (w.cache.step (.call i input)).isSome := by
  rw [Core.World.step, Option.isSome_map]
  by_cases hguard : (w.cache.calls i).guard = none
  · refine Core.advance_isSome_of_free hanswers (Core.holders_of_free (inner h.reachable).inside.cache
      fun j => ?_)
    by_cases hji : j = i
    · subst hji
      exact hguard
    · exact Core.guard_none_of_atRest (h.alone j hji)
  · exact Core.advance_isSome_of_guard hanswers hguard

/-- A load in its fetch is given what it waits for. -/
theorem turn_answers (hI : Inner w) (hi : (w.fetches i).active = true) :
    LoadAnswers w i (server.turn i w) := by
  obtain ⟨ttl, start, hinit⟩ := hI.inside.init_of_active hi
  have hplace := hI.place i
  unfold HealthyServer.turn
  rw [hinit]
  cases hfrom : w.fetches i with
  | idle =>
      rw [hfrom] at hi
      cases hi
  | session => exact .create hfrom _
  | sync =>
      obtain ⟨s, hs⟩ := Option.isSome_iff_exists.mp (hI.made i (by rw [hfrom]; rfl))
      rw [hinit, hfrom] at hplace
      have hlive : 0 < (w.syncPc i).rank := hplace
      rw [hs]
      refine .sync hfrom ?_
      rw [syncPc_of_some hs] at hlive ⊢
      exact server.answers s hlive
  | initOrgs response => exact .initOrgs hfrom
  | keys response rest found => exact .keys hfrom
  | done result => exact .done hfrom

theorem fetch_idle_of_not_init (hI : Inner w) (hout : (w.cache.calls i).inInit = false) :
    w.fetches i = .idle := by
  have hactive := hI.inside.active i
  rw [hout] at hactive
  cases hfrom : w.fetches i with
  | idle => rfl
  | _ =>
      rw [hfrom] at hactive
      cases hactive

/-- **A load alone is never refused a step.** -/
theorem SoloLoad.turn_isSome (h : SoloLoad server i w₀ w)
    (hlive : ∀ result, w.cache.calls i ≠ .done result) :
    (w.step (server.turn i w)).isSome := by
  have hI := inner h.reachable
  by_cases hi : (w.fetches i).active = true
  · exact (hI.goes_on hi).step _ (turn_answers hI hi)
  · have hout : (w.cache.calls i).inInit = false := by
      rw [← hI.inside.active i]
      exact Bool.eq_false_iff.mpr hi
    have hfrom := fetch_idle_of_not_init hI hout
    have hstands := h.stands
    cases hpc : w.cache.calls i with
    | idle =>
        have hturn : server.turn i w = .begin i := by
          unfold HealthyServer.turn
          rw [hpc]
        rw [hturn]
        show (w.outside i (.call snapshotTtl)).isSome
        unfold LoadWorld.outside
        simp only [hfrom, LoadWorld.cell, Option.isSome_map, Core.World.step, hpc]
        rfl
    | read held ttl =>
        have hturn : server.turn i w = .go i := by
          unfold HealthyServer.turn
          rw [hpc, hfrom]
        rw [hturn]
        show (w.outside i .go).isSome
        unfold LoadWorld.outside
        simp only [hfrom, LoadWorld.cell, Option.isSome_map]
        exact h.go_isSome (by rw [hpc]; exact .read held ttl)
    | write held ttl =>
        have hturn : server.turn i w = .go i := by
          unfold HealthyServer.turn
          rw [hpc, hfrom]
        rw [hturn]
        show (w.outside i .go).isSome
        unfold LoadWorld.outside
        simp only [hfrom, LoadWorld.cell, Option.isSome_map]
        exact h.go_isSome (by rw [hpc]; exact .write held ttl)
    | init ttl start =>
        rw [hpc] at hout
        cases hout
    | done result => exact absurd hpc (hlive result)
    | cancelled =>
        rw [hpc] at hstands
        exact hstands.elim

/-! ### It stays on its way -/

/-- An entry that is fresh now was fresh before. -/
theorem fresh_before {T : Type} {ttl : Duration} {now now' : Instant} {entry : Option (T × Instant)}
    {value : T} (h : Core.fresh now' ttl entry = some value) (hle : now ≤ now') :
    Core.fresh now ttl entry = some value := by
  cases entry with
  | none => cases h
  | some e =>
      obtain ⟨v, ts⟩ := e
      have hnow : (if now' - ts < ttl then some v else none) = some value := h
      show (if now - ts < ttl then some v else none) = some value
      by_cases hyoung : now' - ts < ttl
      · rw [if_pos hyoung] at hnow
        rw [if_pos (Nat.lt_of_le_of_lt (Nat.sub_le_sub_right hle ts) hyoung)]
        exact hnow
      · rw [if_neg hyoung] at hnow
        cases hnow

/-- A `sync` call gets to its body from a request that was accepted. -/
theorem Move.enters_body {now : Instant} {s s' : BitwardenSession env} {pc pc' : Pc}
    {input : Input env.Body} {events : List Event} (h : Move env i now s pc input s' pc' events)
    (hpc' : pc' = .body) : s' = s ∧ ∃ n t, pc = .send n t := by
  cases h with
  | takeState hpc hfree =>
      subst hpc'
      cases hpc
  | takeGate hpc hfree =>
      subst hpc'
      cases hpc
  | accepted hstatus => exact ⟨rfl, _, _, rfl⟩
  | published =>
      exact absurd hpc' (resume_elim (P := fun pc => pc ≠ .body) (by simp) (by simp) _)
  | replaced hn htoken =>
      exact absurd hpc' (attempt_elim (P := fun pc => pc ≠ .body) (by simp) (by simp) _)
  | _ => cases hpc'

theorem issued_of_some {s : World env} (hs : w.session = some s) :
    w.issued = (issuedTokens s.log).length := by
  unfold LoadWorld.issued
  rw [hs]
  rfl

theorem issued_withSession (w : LoadWorld env keys) (s : World env) :
    ({ w with session := some s } : LoadWorld env keys).issued = (issuedTokens s.log).length := rfl

theorem HealthyServer.ServedToLoad.later {vault : BitwardenSyncResponse}
    (h : server.ServedToLoad i w₀ w vault) (hleads : (loadMachine env keys).Leads w w') :
    server.ServedToLoad i w₀ w' vault := by
  obtain ⟨u, s, hu, hto, hrest⟩ := h
  exact ⟨u, s, hu, hto.trans hleads, hrest⟩

theorem Fetched.later {result : Except String (KeyPairSnapshot keys)}
    {new : List (CallId × LoadEvent env keys)} (h : Fetched server i w₀ w result)
    (hleads : (loadMachine env keys).Leads w w') (hlog : w'.log = w.log ++ new) :
    Fetched server i w₀ w' result := by
  obtain ⟨vault, before, hsynced, hserved, hrebuilt, hrest⟩ := h
  have hkeep : ∀ e, e ∈ w.log → e ∈ w'.log := fun e he => hlog ▸ List.mem_append_left _ he
  exact ⟨vault, before, hkeep _ hsynced, hserved.later hleads,
    fun hprofile => hkeep _ (hrebuilt hprofile), hrest⟩

/-- What a step of the load has to provide. -/
theorem SoloLoad.arrives {a : LoadAction env.Body} {events : List (LoadEvent env keys)}
    (h : SoloLoad server i w₀ w) (hleads : (loadMachine env keys).Leads w w')
    (hm : LoadStep w i a w') (hlog : w'.log = w.log ++ events.map fun e => (i, e))
    (hissued : w.issued ≤ w'.issued)
    (httl : ∀ held ttl, w'.cache.calls i = .read held ttl ∨ w'.cache.calls i = .write held ttl →
      ttl = snapshotTtl)
    (hserved : ∀ vault, .synced vault ∈ events → server.ServedToLoad i w₀ w vault)
    (hrebuilt : ∀ vault before, .rebuilt vault before ∈ events →
      (env.crypto.symmetric before .user).isSome)
    (hstands : LoadStands server i w₀ w' (w'.cache.calls i) (w'.fetches i)) :
    SoloLoad server i w₀ w' := by
  have hmem : ∀ e, (i, e) ∈ w'.log → (i, e) ∈ w.log ∨ e ∈ events := by
    intro e he
    rw [hlog] at he
    rcases List.mem_append.mp he with he | he
    · exact Or.inl he
    · obtain ⟨e', he', heq⟩ := List.mem_map.mp he
      cases heq
      exact Or.inr he'
  refine ⟨h.reachable.leads hleads, h.leads.trans hleads, fun j hji => ?_, ?_, ?_,
    Nat.le_trans h.issued hissued, httl, fun vault hv => ?_, fun vault before hv => ?_, hstands⟩
  · rw [(hm.others hji).1]
    exact h.alone j hji
  · rw [hm.clock]
    exact h.inTime
  · rw [hm.clock]
    exact h.since
  · rcases hmem _ hv with hold | hnew
    · exact (h.served vault hold).later hleads
    · exact (hserved vault hnew).later hleads
  · rcases hmem _ hv with hold | hnew
    · exact h.rebuilt vault before hold
    · exact hrebuilt vault before hnew

/-- The same for a load that stays in its fetch. -/
theorem SoloLoad.inside {a : LoadAction env.Body} {fetch : Fetch keys}
    {events : List (LoadEvent env keys)} {session : Option (World env)}
    (h : SoloLoad server i w₀ w)
    (hleads : (loadMachine env keys).Leads w ({ w with session }.arrive i fetch events))
    (hm : LoadStep w i a ({ w with session }.arrive i fetch events))
    (hactive : (w.fetches i).active = true)
    (hissued : w.issued ≤ ({ w with session } : LoadWorld env keys).issued)
    (hserved : ∀ vault, .synced vault ∈ events → server.ServedToLoad i w₀ w vault)
    (hrebuilt : ∀ vault before, .rebuilt vault before ∈ events →
      (env.crypto.symmetric before .user).isSome)
    (hstands : ∀ ttl start, LoadStands server i w₀ ({ w with session }.arrive i fetch events)
      (.init ttl start) fetch) :
    SoloLoad server i w₀ ({ w with session }.arrive i fetch events) := by
  obtain ⟨ttl, start, hinit⟩ := (inner h.reachable).inside.init_of_active hactive
  refine h.arrives hleads hm rfl hissued ?_ hserved hrebuilt ?_
  · intro held ttl' hpc
    have hcalls : w.cache.calls i = .read held ttl' ∨ w.cache.calls i = .write held ttl' := hpc
    rw [hinit] at hcalls
    rcases hcalls with hcalls | hcalls
    · cases hcalls
    · cases hcalls
  · show LoadStands server i w₀ _ (w.cache.calls i) (Function.update w.fetches i fetch i)
    rw [Function.update_self, hinit]
    exact hstands ttl start

/-- A load that nobody drops. -/
theorem turn_ne_cancel (server : HealthyServer env k) (i : CallId) (w : LoadWorld env keys) :
    server.turn i w ≠ .cancel i := by
  intro hc
  unfold HealthyServer.turn at hc
  split at hc <;> cases hc

/-- The same for a load that steps in its cell from outside its fetch. -/
theorem SoloLoad.outside {a : LoadAction env.Body}
    {input : Core.Input (KeyPairSnapshot keys) String}
    {cache : Core.World (KeyPairSnapshot keys) String} (h : SoloLoad server i w₀ w)
    (ha : Outside i a input) (hturn : server.turn i w = a) (hfrom : w.fetches i = .idle)
    (hcache : w.cache.step (.call i input) = some cache)
    (hleads : (loadMachine env keys).Leads w
      ({ w with cache }.arrive i (LoadWorld.fetchOf (cache.calls i)) [])) :
    SoloLoad server i w₀ ({ w with cache }.arrive i (LoadWorld.fetchOf (cache.calls i)) []) := by
  have hstands := h.stands
  have httl := h.ttl
  have hout := (inner h.reachable).inside.active i
  rw [hfrom] at hout
  obtain ⟨cell', pc', coreEvents, hm, hcache'⟩ := Core.step_call hcache
  have hcalls : cache.calls i = pc' := by
    rw [hcache', Core.moved_calls, Function.update_self]
  have hvalue : cache.cell.value = cell'.value := by rw [hcache', Core.moved_cell]
  have hstill : ∀ {held : Bool} {ttl : Duration}, w.cache.calls i = .read held ttl ∨
      w.cache.calls i = .write held ttl →
      ttl = snapshotTtl ∧ w.cache.cell.value = w₀.cache.cell.value := by
    intro held ttl hpc
    refine ⟨httl held ttl hpc, ?_⟩
    rcases hpc with hpc | hpc
    · rw [hpc] at hstands
      exact hstands
    · rw [hpc] at hstands
      exact hstands
  have hkey : (∀ held ttl, pc' = .read held ttl ∨ pc' = .write held ttl → ttl = snapshotTtl) ∧
      ∀ w' : LoadWorld env keys, w'.cache.cell.value = cell'.value →
        LoadStands server i w₀ w' pc' (LoadWorld.fetchOf pc') := by
    generalize hpc : w.cache.calls i = pc at hm
    cases hm with
    | call ttl =>
        rw [hpc] at hstands
        have hsame : w.cache.cell.value = w₀.cache.cell.value := hstands
        refine ⟨fun held ttl' heq => ?_, fun w' hw' => hw'.trans hsame⟩
        cases ha with
        | begin =>
            rcases heq with heq | heq
            · cases heq
              rfl
            · cases heq
    | takeRead hl =>
        obtain ⟨rfl, hsame⟩ := hstill (Or.inl hpc)
        refine ⟨fun held ttl' heq => ?_, fun w' hw' => ?_⟩
        · rcases heq with heq | heq
          · cases heq
            rfl
          · cases heq
        · exact (hw'.trans (RwLock.read_eq_some hl).1).trans hsame
    | takeWrite hl =>
        obtain ⟨rfl, hsame⟩ := hstill (Or.inr hpc)
        refine ⟨fun held ttl' heq => ?_, fun w' hw' => ?_⟩
        · rcases heq with heq | heq
          · cases heq
          · cases heq
            rfl
        · exact (hw'.trans (RwLock.write_eq_some hl).1).trans hsame
    | @hit pc ttl value hcheck hfresh =>
        have hfound : ttl = snapshotTtl ∧ w.cache.cell.value = w₀.cache.cell.value := by
          cases hcheck with
          | read => exact hstill (Or.inl hpc)
          | write => exact hstill (Or.inr hpc)
        obtain ⟨rfl, hsame⟩ := hfound
        refine ⟨fun held ttl' heq => ?_, fun w' _ => ?_⟩
        · rcases heq with heq | heq
          · cases heq
          · cases heq
        · rw [hsame] at hfresh
          exact Or.inr ⟨value, rfl, fresh_before hfresh h.since⟩
    | passed hold =>
        obtain ⟨rfl, hsame⟩ := hstill (Or.inl hpc)
        refine ⟨fun held ttl' heq => ?_, fun w' hw' => ?_⟩
        · rcases heq with heq | heq
          · cases heq
          · cases heq
            rfl
        · exact (hw'.trans (RwLock.dropRead_value _ _)).trans hsame
    | missed hold =>
        refine ⟨fun held ttl' heq => ?_, fun w' _ => trivial⟩
        rcases heq with heq | heq
        · cases heq
        · cases heq
    | stored =>
        rw [hpc] at hout
        cases hout
    | failed =>
        rw [hpc] at hout
        cases hout
    | dropped =>
        rw [hpc] at hout
        cases hout
    | cancel hwait =>
        cases ha with
        | cancel => exact absurd hturn (turn_ne_cancel server i w)
  refine h.arrives hleads (.outside ha hfrom hcache) rfl (Nat.le_refl _) ?_ (by simp) (by simp) ?_
  · show ∀ held ttl, cache.calls i = .read held ttl ∨ cache.calls i = .write held ttl → _
    rw [hcalls]
    exact hkey.1
  · show LoadStands server i w₀ _ (cache.calls i) (Function.update w.fetches i _ i)
    rw [Function.update_self, hcalls]
    exact hkey.2 _ hvalue

theorem issuedTokens_le {s s' : World env} {input : Input env.Body}
    (hstep : s.step (.call i input) = some s') :
    (issuedTokens s.log).length ≤ (issuedTokens s'.log).length := by
  obtain ⟨session, pc', events, -, rfl⟩ := step_call hstep
  rw [moved_log, issuedTokens_append, List.length_append]
  exact Nat.le_add_right _ _

/-- What the healthy server answers a `sync` call, and where it leaves it. -/
theorem SoloLoad.sync_place {s : World env} {session : BitwardenSession env} {pc' : Pc}
    {input : Input env.Body} {events : List Event} (h : SoloLoad server i w₀ w)
    (hturn : server.turn i w = .sync i input) (hfrom : w.fetches i = .sync)
    (hs : w.session = some s)
    (hm : Move env i s.clock s.session (s.calls i) input session pc' events) :
    server.answer s (s.calls i) = input ∧ ∃ began sent,
      Place env session.state.value.token
        (Newest k (s.log ++ events.map fun e => (i, e))) began sent pc' := by
  have hI := inner h.reachable
  obtain ⟨ttl, start, hinit⟩ := hI.inside.init_of_active (i := i) (by rw [hfrom]; rfl)
  have hstands := h.stands
  rw [hinit, hfrom] at hstands
  obtain ⟨s₁, began, sent, hs₁, hplace, -⟩ := hstands
  obtain rfl := Option.some.inj (hs.symm.trans hs₁)
  have hinput : server.answer s (s.calls i) = input := by
    unfold HealthyServer.turn at hturn
    rw [hinit, hfrom, hs] at hturn
    exact (LoadAction.sync.inj hturn).2
  have hclock : s.clock ≤ server.horizon := by
    rw [hI.clock s hs]
    exact h.inTime
  have hissued : k ≤ (issuedTokens s.log).length := by
    rw [← issued_of_some hs]
    exact h.issued
  exact ⟨hinput, _, _, Place.moved_of_auth server (hI.sound s hs).auth hclock hissued rfl hinput
    hm hplace⟩

/-- A `sync` call that is answered by the healthy server stays on its way. -/
theorem SoloLoad.synced {s s' : World env} {input : Input env.Body} {fetch : Fetch keys}
    {events : List (LoadEvent env keys)} (h : SoloLoad server i w₀ w)
    (hturn : server.turn i w = .sync i input) (hfrom : w.fetches i = .sync)
    (hs : w.session = some s) (hstep : s.step (.call i input) = some s')
    (hafter : AfterSync (s'.calls i) fetch events)
    (hleads : (loadMachine env keys).Leads w ({ w with session := some s' }.arrive i fetch
      (LoadWorld.bootstraps (s.calls i) ++ events))) :
    SoloLoad server i w₀ ({ w with session := some s' }.arrive i fetch
      (LoadWorld.bootstraps (s.calls i) ++ events)) := by
  have hI := inner h.reachable
  have hboot := @bootstraps_eq env keys (s.calls i)
  obtain ⟨ttl, start, hinit⟩ := hI.inside.init_of_active (i := i) (by rw [hfrom]; rfl)
  have hstands := h.stands
  rw [hinit, hfrom] at hstands
  obtain ⟨s₁, began, sent, hs₁, hplace, hbody⟩ := hstands
  obtain rfl := Option.some.inj (hs.symm.trans hs₁)
  have hissued : w.issued ≤ ({ w with session := some s' } : LoadWorld env keys).issued := by
    rw [issued_of_some hs, issued_withSession]
    exact issuedTokens_le hstep
  have hm : LoadStep w i (.sync i input) ({ w with session := some s' }.arrive i fetch
      (LoadWorld.bootstraps (s.calls i) ++ events)) := .synced hfrom hs hstep hafter
  obtain ⟨session, pc', newEvents, hmove, rfl⟩ := step_call hstep
  obtain ⟨hinput, began', sent', hnext⟩ := h.sync_place hturn hfrom hs hmove
  have hpc : (s.moved i session pc' newEvents).calls i = pc' := by
    rw [moved_calls, Function.update_self]
  rw [hpc] at hafter
  -- a body is read only where the store has the user's key
  have hunlocked : pc' = .body → session.unlocked := by
    intro hpc'
    obtain ⟨rfl, n, t, hsend⟩ := hmove.enters_body hpc'
    rw [hsend] at hplace
    have htoken : s.session.state.value.token ≠ none := by
      rw [hplace.1]
      exact Option.some_ne_none _
    exact (hI.sound s hs).auth.user ((hI.sound s hs).auth.ready htoken)
  refine h.inside hleads hm (by rw [hfrom]; rfl) hissued ?_ ?_ ?_
  · intro vault hv
    rcases List.mem_append.mp hv with hv | hv
    · cases hboot _ hv
    · cases hafter with
      | ok response =>
          obtain rfl := LoadEvent.synced.inj (List.mem_singleton.mp hv)
          obtain ⟨-, hbodied, x, rfl, hfinish⟩ := hmove.succeeds rfl
          rw [hbodied] at hinput
          obtain rfl := Input.body.inj hinput
          exact ⟨w, s, h.leads, .refl w, hs, hbodied, decodeSync_of_finish hfinish⟩
      | _ => cases hv
  · intro vault before hv
    rcases List.mem_append.mp hv with hv | hv
    · cases hboot _ hv
    · cases hafter with
      | ok response => cases List.mem_singleton.mp hv
      | _ => cases hv
  · intro ttl start
    cases hafter with
    | goesOn hlive =>
        refine ⟨_, began', sent', rfl, ?_, ?_⟩
        · rw [hpc]
          exact hnext
        · rw [hpc]
          exact hunlocked
    | ok response =>
        obtain ⟨rfl, hbodied, -⟩ := hmove.succeeds rfl
        exact ⟨_, rfl, hbody hbodied⟩
    | error error =>
        obtain ⟨⟨vault, hvault⟩, -⟩ := hnext
        cases hvault

/-- What a fetch has found is what the vault served to it is worth. -/
theorem SoloLoad.fetched {found : KeyPairSnapshot keys} (h : SoloLoad server i w₀ w)
    (hderived : Derived w.log i found) : Fetched server i w₀ w (.ok found) := by
  obtain ⟨vault, before, hsynced, hrebuilt, hpublish⟩ := hderived
  exact ⟨vault, before, hsynced, h.served vault hsynced, fun _ => hrebuilt,
    h.rebuilt vault before hrebuilt, hpublish⟩

/-- An initializer that returns is the end of its call, with its result. -/
theorem core_returned {result : Except String (KeyPairSnapshot keys)}
    {cache : Core.World (KeyPairSnapshot keys) String} {ttl : Duration} {start : Instant}
    (hpc : w.cache.calls i = .init ttl start)
    (hcache : w.cache.step (.call i (.finished result)) = some cache) :
    cache.calls i = .done result := by
  obtain ⟨cell', pc', coreEvents, hm, rfl⟩ := Core.step_call hcache
  rw [Core.moved_calls, Function.update_self]
  rw [hpc] at hm
  cases hm <;> rfl

/-- **A healthy load stays on its way.** -/
theorem SoloLoad.moved {a : LoadAction env.Body} (h : SoloLoad server i w₀ w)
    (hturn : server.turn i w = a) (hleads : (loadMachine env keys).Leads w w')
    (hm : LoadStep w i a w') : SoloLoad server i w₀ w' := by
  have hI := inner h.reachable
  have hstands := h.stands
  have hplace := hI.place i
  have hcarries := (load_facts h.reachable).2.place i
  have hinit : (w.fetches i).active = true → ∃ ttl start, w.cache.calls i = .init ttl start :=
    hI.inside.init_of_active
  have hm' := hm
  cases hm with
  | outside ha hfrom hcache => exact h.outside ha hturn hfrom hcache hleads
  | @reused s result hfrom hs =>
      obtain ⟨ttl, start, hpc⟩ := hinit (by rw [hfrom]; rfl)
      rw [hpc, hfrom, syncPc_of_some hs] at hplace
      have hidle : s.calls i = .idle := hplace
      refine h.inside hleads hm' (by rw [hfrom]; rfl) (Nat.le_refl _) (by simp)
        (by simp) ?_
      intro ttl start
      refine ⟨s, 0, 0, hs, ?_, ?_⟩
      · rw [hidle]
        exact ⟨rfl, rfl⟩
      · rw [hidle]
        intro hbody
        cases hbody
  | created hfrom hs =>
      refine h.inside hleads hm' (by rw [hfrom]; rfl) ?_ (by simp) (by simp) ?_
      · unfold LoadWorld.issued
        rw [hs]
        exact Nat.zero_le _
      · intro ttl start
        refine ⟨_, 0, 0, rfl, ⟨rfl, rfl⟩, ?_⟩
        intro hbody
        cases hbody
  | uncreated hfrom hs =>
      obtain ⟨ttl, start, hpc⟩ := hinit (by rw [hfrom]; rfl)
      unfold HealthyServer.turn at hturn
      rw [hpc, hfrom] at hturn
      cases hturn
  | synced hfrom hs hstep hafter => exact h.synced hturn hfrom hs hstep hafter hleads
  | @panicked s s' input panic cache hfrom hs hstep hpanic hcache =>
      obtain ⟨session, pc', events, hmove, rfl⟩ := step_call hstep
      obtain ⟨-, began, sent, hnext⟩ := h.sync_place hturn hfrom hs hmove
      rw [moved_calls, Function.update_self] at hpanic
      rw [hpanic] at hnext
      exact hnext.elim
  | @noProfile s response hfrom hs hprofile =>
      obtain ⟨ttl, start, hpc⟩ := hinit (by rw [hfrom]; rfl)
      rw [hfrom] at hcarries
      rw [hpc, hfrom] at hstands
      obtain ⟨s₁, hs₁, hunlocked⟩ := hstands
      refine h.inside hleads hm' (by rw [hfrom]; rfl) (Nat.le_refl _) (by simp)
        (by simp) ?_
      intro ttl start
      refine ⟨response, s₁.session.store, List.mem_append_left _ hcarries,
        (h.served response hcarries).later hleads, ?_, hunlocked, ?_⟩
      · rw [hprofile]
        intro hsome
        cases hsome
      · exact publish_noProfile hprofile s₁.session.store
  | @rebuilt s response profile hfrom hs hprofile =>
      obtain ⟨ttl, start, hpc⟩ := hinit (by rw [hfrom]; rfl)
      rw [hfrom] at hcarries
      rw [hpc, hfrom] at hstands
      obtain ⟨s₁, hs₁, hunlocked⟩ := hstands
      obtain rfl := Option.some.inj (hs.symm.trans hs₁)
      refine h.inside hleads hm' (by rw [hfrom]; rfl) ?_ (by simp) ?_ ?_
      · rw [issued_of_some hs, issued_withSession]
      · intro vault before hv
        obtain ⟨rfl, rfl⟩ := LoadEvent.rebuilt.inj (List.mem_singleton.mp hv)
        exact hunlocked
      · intro ttl start
        rcases hresult : s.session.initOrgs profile with ⟨result, session⟩
        obtain ⟨himport, -⟩ := initOrgs_eq hresult
        rw [hresult] at hleads
        cases result with
        | ok _ => trivial
        | error error =>
            exact ⟨response, s.session.store, List.mem_append_left _ hcarries,
              (h.served response hcarries).later hleads,
              fun _ => List.mem_append_right _ (List.mem_singleton_self _), hunlocked,
              publish_refused hprofile himport⟩
  | @opened s response cipher rest found hfrom hs =>
      refine h.inside hleads hm' (by rw [hfrom]; rfl) ?_ (by simp) (by simp) fun _ _ => trivial
      rw [issued_of_some hs, issued_withSession]
  | @found s response found hfrom hs =>
      refine h.inside hleads hm' (by rw [hfrom]; rfl) (Nat.le_refl _) (by simp)
        (by simp) ?_
      intro ttl start
      rw [hfrom] at hcarries
      obtain ⟨s₁, -, hwalk⟩ := hcarries
      exact (h.fetched hwalk.derived).later hleads rfl
  | @returned result cache hfrom hcache =>
      obtain ⟨ttl, start, hpc⟩ := hinit (by rw [hfrom]; rfl)
      rw [hpc, hfrom] at hstands
      have hended := core_returned hpc hcache
      refine h.arrives hleads hm' rfl (Nat.le_refl _) ?_ ?_ ?_ ?_
      · show ∀ held ttl, cache.calls i = .read held ttl ∨ cache.calls i = .write held ttl → _
        rw [hended]
        simp
      · intro vault hv
        cases result <;> simp [publication] at hv
      · intro vault before hv
        cases result <;> simp [publication] at hv
      · show LoadStands server i w₀ _ (cache.calls i) _
        rw [hended]
        exact Or.inl (hstands.later hleads rfl)
  | dropped hfrom hcache => exact absurd hturn (turn_ne_cancel server i w)
  | droppedSync hfrom hs hstep hcache => exact absurd hturn (turn_ne_cancel server i w)

theorem SoloLoad.tick {now : Instant} (h : SoloLoad server i w₀ w)
    (htick : w.step (.tick now) = some w') (hhorizon : now ≤ server.horizon) :
    SoloLoad server i w₀ w' := by
  have hleads : (loadMachine env keys).Leads w w' :=
    (Machine.Leads.refl (m := loadMachine env keys) w).step htick
  obtain ⟨cache, hcache, rfl⟩ := Option.map_eq_some_iff.mp htick
  obtain ⟨hle, rfl⟩ := Core.step_tick hcache
  refine ⟨h.reachable.leads hleads, h.leads.trans hleads, h.alone, hhorizon,
    Nat.le_trans h.since hle, ?_, h.ttl, fun vault hv => (h.served vault hv).later hleads,
    h.rebuilt, ?_⟩
  · refine Nat.le_trans h.issued (Nat.le_of_eq ?_)
    unfold LoadWorld.issued
    rw [Option.map_map]
    rfl
  · have hstands := h.stands
    show LoadStands server i w₀ _ (w.cache.calls i) (w.fetches i)
    cases hpc : w.cache.calls i with
    | init ttl start =>
        rw [hpc] at hstands
        cases hfrom : w.fetches i with
        | sync =>
            rw [hfrom] at hstands
            obtain ⟨s, began, sent, hs, hplace, hbody⟩ := hstands
            exact ⟨{ s with clock := now }, began, sent, by rw [hs]; rfl, hplace, hbody⟩
        | initOrgs response =>
            rw [hfrom] at hstands
            obtain ⟨s, hs, hunlocked⟩ := hstands
            exact ⟨{ s with clock := now }, by rw [hs]; rfl, hunlocked⟩
        | done result =>
            rw [hfrom] at hstands
            exact hstands.later hleads (List.append_nil _).symm
        | _ => trivial
    | done result =>
        rw [hpc] at hstands
        exact hstands.imp_left fun hfetched => hfetched.later hleads (List.append_nil _).symm
    | _ =>
        rw [hpc] at hstands
        exact hstands

/-! ### It arrives -/

/-- How many steps a load alone can still take. -/
def soloRank (w : LoadWorld env keys) (i : CallId) : Lex (Nat × Nat) :=
  match w.cache.calls i with
  | .idle => toLex (40, 0)
  | _ => LoadPlace.rank (w.place i)

theorem soloRank_of_begun (h : w.cache.calls i ≠ .idle) :
    soloRank w i = LoadPlace.rank (w.place i) := by
  unfold soloRank
  split
  · rename_i hidle
    exact absurd hidle h
  · rfl

/-- Its first step brings it into the cell, the others closer to its end. -/
theorem soloRank_lt {a : LoadAction env.Body} (hI : Inner w) (hm : LoadStep w i a w') :
    soloRank w' i < soloRank w i := by
  by_cases hidle : w.cache.calls i = .idle
  · obtain ⟨-, hafter⟩ := hm.begins hI hidle
    unfold soloRank LoadWorld.place
    rw [hidle, hafter]
    exact lex_lt_of_stage (show 39 < 40 by decide)
  · rw [soloRank_of_begun hidle, soloRank_of_begun (hm.stays_begun hidle)]
    exact hm.rank_lt hI hidle

theorem soloRank_tick {now : Instant} (h : w.step (.tick now) = some w') (i : CallId) :
    soloRank w' i = soloRank w i := by
  have hcalls : w'.cache.calls = w.cache.calls := by
    obtain ⟨cache, hcache, rfl⟩ := Option.map_eq_some_iff.mp h
    obtain ⟨-, rfl⟩ := Core.step_tick hcache
    rfl
  unfold soloRank
  rw [hcalls, place_tick h]

theorem turn_party (server : HealthyServer env k) (i : CallId) (w : LoadWorld env keys) :
    (server.turn i w).party = some i := by
  unfold HealthyServer.turn
  split <;> rfl

theorem turn_ne_tick (server : HealthyServer env k) (i : CallId) (w : LoadWorld env keys)
    (now : Instant) : server.turn i w ≠ .tick now := by
  intro hc
  have hparty := turn_party server i w
  rw [hc] at hparty
  cases hparty

/-- **A provider always heals.**  From every state without a load under way, whatever
happened before, a load that runs alone against healthy endpoints cannot but return: the
snapshot that was still fresh, or exactly what a vault served to it is worth on a store
with the user's key. -/
theorem provider_heals (h : (loadMachine env keys).Reachable w₀)
    (hquiet : ∀ j, (w₀.cache.calls j).atRest = true) (hidle : w₀.cache.calls i = .idle)
    (server : HealthyServer env w₀.issued) (hclock : w₀.cache.clock ≤ server.horizon) :
    (soloLoadMachine keys server i).Inevitable (LoadHealed server i w₀) w₀ := by
  refine Machine.inevitable_of_falling (I := SoloLoad server i w₀) (fun w => soloRank w i) ?_ ?_ w₀ ?_
  · intro w hI
    by_cases hdone : ∃ result, w.cache.calls i = .done result
    · obtain ⟨result, hresult⟩ := hdone
      have hstands := hI.stands
      rw [hresult] at hstands
      exact Or.inl ⟨result, hresult, hstands⟩
    · have hlive : ∀ result, w.cache.calls i ≠ .done result :=
        fun result hresult => hdone ⟨result, hresult⟩
      obtain ⟨w', hw'⟩ := Option.isSome_iff_exists.mp (hI.turn_isSome hlive)
      exact Or.inr ⟨w.cache.clock, w', hI.inTime, w, tick_same (inner hI.reachable), hw'⟩
  · intro w now w' hI _ hstep
    obtain ⟨hhorizon, w₁, htick, hturn⟩ := hstep
    have hI₁ := hI.tick htick hhorizon
    have hleads : (loadMachine env keys).Leads w₁ w' :=
      (Machine.Leads.refl (m := loadMachine env keys) w₁).step hturn
    rw [← soloRank_tick htick i]
    rcases loadStep hturn with ⟨now', cache, heq, -, -⟩ | ⟨j, hm⟩
    · exact absurd heq (turn_ne_tick server i w₁ now')
    · obtain rfl : i = j := Option.some.inj ((turn_party server i w₁).symm.trans hm.party)
      exact ⟨hI₁.moved rfl hleads hm, soloRank_lt (inner hI₁.reachable) hm⟩
  · refine ⟨h, .refl w₀, fun j _ => hquiet j, hclock, Nat.le_refl _, Nat.le_refl _, ?_, ?_, ?_, ?_⟩
    · intro held ttl hpc
      rw [hidle] at hpc
      rcases hpc with hpc | hpc
      · cases hpc
      · cases hpc
    · intro vault hv
      exact absurd hv (log_of_idle h hidle _)
    · intro vault before hv
      exact absurd hv (log_of_idle h hidle _)
    · rw [hidle]
      rfl

/-- Loads that no action of a run is a step of stay where they are. -/
theorem calls_of_loads (j : CallId) (as : List (LoadAction env.Body)) :
    ∀ w : LoadWorld env keys, (∀ a ∈ as, a.party ≠ some j) →
      Machine.exec LoadWorld.step w as = some w' → w'.cache.calls j = w.cache.calls j := by
  induction as with
  | nil =>
      intro w _ h
      obtain rfl := Option.some.inj h
      rfl
  | cons a rest ih =>
      intro w hnamed h
      obtain ⟨u, hu, hrest⟩ := Option.bind_eq_some_iff.mp h
      rw [ih u (fun b hb => hnamed b (List.mem_cons_of_mem a hb)) hrest]
      rcases loadStep hu with ⟨now, cache, -, hcache, rfl⟩ | ⟨i, hm⟩
      · obtain ⟨-, rfl⟩ := Core.step_tick hcache
        rfl
      · refine (hm.others fun hji => ?_).1
        exact hnamed a (List.mem_cons_self ..) (hji ▸ hm.party)

/-- After a load that was dropped while it published a token, with the user's key already
in the store. -/
theorem provider_heals_dropped : ∃ w₀ : LoadWorld plainEnv plainKeys,
    w₀.issued = 1 ∧ w₀.cache.calls 0 = .cancelled ∧ w₀.cache.cell.value = none ∧
      (soloLoadMachine plainKeys (plainServer w₀.issued) 1).Inevitable
        (LoadHealed (plainServer w₀.issued) 1 w₀) w₀ := by
  let run : List (LoadAction Reply) :=
    [.begin 0, .go 0, .go 0, .go 0, .go 0, .create 0 (.ok ())] ++
      List.replicate 6 (.sync 0 .go) ++
      [.sync 0 (.token (.response .ok (.token (plainToken "lost"))))] ++
      List.replicate 3 (.sync 0 .go) ++ [.cancel 0]
  have hrun : (Machine.exec LoadWorld.step (LoadWorld.start plainEnv plainKeys 0) run).any
      (fun w => w.issued == 1 && (match w.cache.calls 0 with | .cancelled => true | _ => false) &&
        w.cache.cell.value.isNone && w.cache.clock == 0) = true := by
    decide
  have hparty : ∀ a ∈ run, a.party = some 0 := by decide
  obtain ⟨w₀, hw₀, hp⟩ := (Option.any_eq_true _ _).mp hrun
  simp only [Bool.and_eq_true, beq_iff_eq, Option.isNone_iff_eq_none] at hp
  obtain ⟨⟨⟨hissued, hcancelled⟩, hempty⟩, hclock⟩ := hp
  have hdropped : w₀.cache.calls 0 = .cancelled := by
    split at hcancelled
    · assumption
    · cases hcancelled
  have hothers : ∀ j, j ≠ 0 → w₀.cache.calls j = .idle := by
    intro j hj
    have hnamed : ∀ a ∈ run, a.party ≠ some j :=
      fun a ha hc => hj (Option.some.inj (hc.symm.trans (hparty a ha)))
    exact @calls_of_loads plainEnv plainKeys w₀ j run _ hnamed hw₀
  refine ⟨w₀, hissued, hdropped, hempty, provider_heals (Machine.reachable_of_exec run ⟨0, rfl⟩ hw₀)
    ?_ (hothers 1 (by decide)) (plainServer _) (by rw [hclock]; exact Nat.zero_le _)⟩
  intro j
  by_cases hj : j = 0
  · rw [hj, hdropped]
    rfl
  · rw [hothers j hj]
    rfl

end Keyring.Bitwarden
