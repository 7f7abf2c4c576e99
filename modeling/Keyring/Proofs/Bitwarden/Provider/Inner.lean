/-
The session inside a provider.

A session that is used by the fetches of a provider takes its own steps, and between them
the key store is borrowed.  What is known of the session in its own runs does not depend on
the store but for the user key, which stays where it is; so it holds here too (`Sound`).
And as a load calls `sync` once, the number of the load says where that call stands
(`SyncPlace`): nowhere before the fetch, under way during its second step, over after it.
-/
import Keyring.Proofs.Bitwarden.Provider.Snapshot
import Keyring.Proofs.Bitwarden.Session.Heal
import Keyring.Proofs.Core.Cell.Settle

namespace Keyring.Bitwarden

variable {env : Env} {keys : SshKeys} {i j : CallId} {w w' : LoadWorld env keys}

/-! ### What is known of the session -/

section

variable {s : World env}

/-- What the session keeps under its own steps and under those of the fetches. -/
structure Sound (s : World env) : Prop where
  locks : LocksAgree s
  auth : AuthInv s
  bounded : ∀ i, (s.calls i).Bounded

theorem sound_start (env : Env) (clock : Instant) : Sound (World.start env clock) := by
  have hr : (sessionMachine env).Reachable (World.start env clock) :=
    Machine.Reachable.init ⟨clock, rfl⟩
  exact ⟨locksAgree hr, authInv hr, bounded hr⟩

theorem Sound.moved {input : Input env.Body} {session : BitwardenSession env} {pc : Pc}
    {events : List Event} (h : Sound s)
    (hm : Move env i s.clock s.session (s.calls i) input session pc events) :
    Sound (s.moved i session pc events) := by
  refine ⟨⟨h.locks.state.moved_place hm.state_moved, h.locks.gate.moved_place hm.gate_moved⟩,
    h.auth.moved hm, fun j => ?_⟩
  rw [moved_calls]
  by_cases hji : j = i
  · subst hji
    rw [Function.update_self]
    exact hm.bounded (h.bounded j)
  · rw [Function.update_of_ne hji]
    exact h.bounded j

theorem Sound.tick (h : Sound s) (now : Instant) : Sound { s with clock := now } where
  locks := ⟨h.locks.state, h.locks.gate⟩
  auth := ⟨h.auth.paired, h.auth.cleared, h.auth.ready, h.auth.user, h.auth.pending,
    h.auth.publishing⟩
  bounded := h.bounded

/-- A store with the same user key does as well. -/
theorem Sound.withStore {store : env.crypto.KeyStore} (h : Sound s)
    (huser : env.crypto.symmetric store .user = env.crypto.symmetric s.session.store .user) :
    Sound { s with session := { s.session with store } } := by
  have hunlocked : ({ s.session with store } : BitwardenSession env).unlocked ↔
      s.session.unlocked := by
    unfold BitwardenSession.unlocked
    rw [huser]
  exact ⟨⟨h.locks.state, h.locks.gate⟩, ⟨h.auth.paired, h.auth.cleared, h.auth.ready,
    fun hc => hunlocked.mpr (h.auth.user hc), h.auth.pending,
    fun i hp => hunlocked.mpr (h.auth.publishing i hp)⟩, h.bounded⟩

theorem Sound.initOrgs (h : Sound s) (profile : BitwardenProfile) :
    Sound { s with session := (s.session.initOrgs profile).2 } :=
  h.withStore (initOrgs_user s.session profile)

theorem Sound.key (h : Sound s) (cipher : BitwardenCipher) :
    Sound { s with session := { s.session with
      store := (key env.crypto keys cipher s.session.store).2 } } :=
  h.withStore ((@key_frame env.crypto keys cipher s.session.store).1 .user rfl)

end

/-! ### The steps of a load, with what becomes of its session -/

/-- Where the end of a step of `sync` takes the fetch. -/
inductive AfterSync : Pc → Fetch keys → List (LoadEvent env keys) → Prop
  | goesOn {pc : Pc} (hlive : 0 < pc.rank) : AfterSync pc .sync []
  | ok (response : BitwardenSyncResponse) :
      AfterSync (.done (.ok response)) (.initOrgs response) [.synced response]
  | error (error : SyncError) :
      AfterSync (.done (.err error)) (.done (.error (error.chain env.showStatus))) []

/-- What a fetch writes down as it returns. -/
def publication : Except String (KeyPairSnapshot keys) → List (LoadEvent env keys)
  | .ok snapshot => [.published snapshot]
  | .error _ => []

/-- How a load steps in its cell from outside its fetch. -/
inductive Outside (i : CallId) :
    LoadAction env.Body → Core.Input (KeyPairSnapshot keys) String → Prop
  | begin : Outside i (.begin i) (.call snapshotTtl)
  | go : Outside i (.go i) .go
  | cancel : Outside i (.cancel i) .cancel

/-- One step of a load, by what happens. -/
inductive LoadStep (w : LoadWorld env keys) (i : CallId) :
    LoadAction env.Body → LoadWorld env keys → Prop
  | outside {a : LoadAction env.Body} {input : Core.Input (KeyPairSnapshot keys) String}
      {cache : Core.World (KeyPairSnapshot keys) String} (ha : Outside i a input)
      (hfrom : w.fetches i = .idle) (hcache : w.cache.step (.call i input) = some cache) :
      LoadStep w i a ({ w with cache }.arrive i (LoadWorld.fetchOf (cache.calls i)) [])
  | reused {s : World env} {result : Except String Unit} (hfrom : w.fetches i = .session)
      (hs : w.session = some s) : LoadStep w i (.create i result) (w.arrive i .sync [])
  | created (hfrom : w.fetches i = .session) (hs : w.session = none) :
      LoadStep w i (.create i (.ok ()))
        ({ w with session := some (World.start env w.cache.clock) }.arrive i .sync [])
  | uncreated {error : String} (hfrom : w.fetches i = .session) (hs : w.session = none) :
      LoadStep w i (.create i (.error error)) (w.arrive i (.done (.error error)) [])
  | synced {s s' : World env} {input : Input env.Body} {fetch : Fetch keys}
      {events : List (LoadEvent env keys)} (hfrom : w.fetches i = .sync) (hs : w.session = some s)
      (hstep : s.step (.call i input) = some s') (hafter : AfterSync (s'.calls i) fetch events) :
      LoadStep w i (.sync i input) ({ w with session := some s' }.arrive i fetch
        (LoadWorld.bootstraps (s.calls i) ++ events))
  | panicked {s s' : World env} {input : Input env.Body} {panic : Panic}
      {cache : Core.World (KeyPairSnapshot keys) String} (hfrom : w.fetches i = .sync)
      (hs : w.session = some s) (hstep : s.step (.call i input) = some s')
      (hpc : s'.calls i = .panicked panic) (hcache : w.cache.step (.call i .cancel) = some cache) :
      LoadStep w i (.sync i input) ({ w with session := some s', cache }.arrive i .idle
        (LoadWorld.bootstraps (s.calls i)))
  | noProfile {s : World env} {response : BitwardenSyncResponse}
      (hfrom : w.fetches i = .initOrgs response) (hs : w.session = some s) (hprofile : response.profile = none) :
      LoadStep w i (.fetch i)
        (w.arrive i (.done (.error "bitwarden sync response missing profile")) [])
  | rebuilt {s : World env} {response : BitwardenSyncResponse} {profile : BitwardenProfile}
      (hfrom : w.fetches i = .initOrgs response) (hs : w.session = some s)
      (hprofile : response.profile = some profile) :
      LoadStep w i (.fetch i)
        ({ w with session := some { s with session := (s.session.initOrgs profile).2 } }.arrive i
          (match (s.session.initOrgs profile).1 with
            | .ok () => .keys response (response.ciphers.getD []) []
            | .error error => .done (.error error))
          [.rebuilt response s.session.store])
  | opened {s : World env} {response : BitwardenSyncResponse} {cipher : BitwardenCipher}
      {rest : List BitwardenCipher} {found : KeyPairSnapshot keys}
      (hfrom : w.fetches i = .keys response (cipher :: rest) found) (hs : w.session = some s) :
      LoadStep w i (.fetch i) ({ w with session := some { s with session := { s.session with
          store := (key env.crypto keys cipher s.session.store).2 } } }.arrive i
        (.keys response rest (found ++ kept keys (key env.crypto keys cipher s.session.store).1))
        [.opened cipher s.session.store])
  | found {s : World env} {response : BitwardenSyncResponse} {found : KeyPairSnapshot keys}
      (hfrom : w.fetches i = .keys response [] found) (hs : w.session = some s) :
      LoadStep w i (.fetch i) (w.arrive i (.done (.ok found)) [])
  | returned {result : Except String (KeyPairSnapshot keys)}
      {cache : Core.World (KeyPairSnapshot keys) String} (hfrom : w.fetches i = .done result)
      (hcache : w.cache.step (.call i (.finished result)) = some cache) :
      LoadStep w i (.fetch i) ({ w with cache }.arrive i .idle (publication result))
  | dropped {cache : Core.World (KeyPairSnapshot keys) String} (hfrom : w.fetches i = .session)
      (hcache : w.cache.step (.call i .cancel) = some cache) :
      LoadStep w i (.cancel i) ({ w with cache }.arrive i .idle [])
  | droppedSync {s s' : World env} {cache : Core.World (KeyPairSnapshot keys) String}
      (hfrom : w.fetches i = .sync) (hs : w.session = some s) (hstep : s.step (.call i .cancel) = some s')
      (hcache : w.cache.step (.call i .cancel) = some cache) :
      LoadStep w i (.cancel i) ({ w with session := some s', cache }.arrive i .idle [])

theorem outside_step {a : LoadAction env.Body}
    {input : Core.Input (KeyPairSnapshot keys) String} (ha : Outside i a input)
    (h : w.outside i input = some w') : LoadStep w i a w' := by
  unfold LoadWorld.outside at h
  split at h
  · rename_i hfrom
    obtain ⟨cache, hcache, rfl⟩ := cell_eq_some h
    exact .outside ha hfrom hcache
  · cases h

theorem create_step {result : Except String Unit} (h : w.create i result = some w') :
    LoadStep w i (.create i result) w' := by
  unfold LoadWorld.create at h
  split at h
  · rename_i s hfrom hs
    obtain rfl := Option.some.inj h
    exact .reused hfrom hs
  · rename_i hfrom hs
    obtain rfl := Option.some.inj h
    exact .created hfrom hs
  · rename_i error hfrom hs
    obtain rfl := Option.some.inj h
    exact .uncreated hfrom hs
  · cases h

theorem sync_step {input : Input env.Body} (h : w.sync i input = some w') :
    LoadStep w i (.sync i input) w' := by
  unfold LoadWorld.sync at h
  split at h
  · rename_i s hfrom hs
    obtain ⟨s', hstep, h⟩ := Option.bind_eq_some_iff.mp h
    split at h
    · rename_i response hpc
      obtain rfl := Option.some.inj h
      exact .synced hfrom hs hstep (by rw [hpc]; exact .ok response)
    · rename_i error hpc
      have hdone := LoadStep.synced hfrom hs hstep (by rw [hpc]; exact .error error)
      rw [List.append_nil] at hdone
      obtain rfl := Option.some.inj h
      exact hdone
    · rename_i panic hpc
      obtain ⟨cache, hcache, rfl⟩ := cell_eq_some h
      exact .panicked hfrom hs hstep hpc hcache
    · cases h
    · rename_i hok herr hpanic hcancel
      have hlive : 0 < (s'.calls i).rank := by
        cases hpc : s'.calls i with
        | done outcome =>
            cases outcome with
            | ok response => exact absurd hpc (hok response)
            | err error => exact absurd hpc (herr error)
        | panicked panic => exact absurd hpc (hpanic panic)
        | cancelled => exact absurd hpc hcancel
        | idle => exact Nat.succ_pos _
        | bootstrap caller r exp => exact Nat.succ_pos _
        | _ => exact rank_pos_of_awaits rfl
      have hstays := LoadStep.synced hfrom hs hstep (.goesOn hlive)
      rw [List.append_nil] at hstays
      obtain rfl := Option.some.inj h
      exact hstays
  · cases h

theorem fetch_step (h : w.fetch i = some w') : LoadStep w i (.fetch i) w' := by
  unfold LoadWorld.fetch at h
  split at h
  · rename_i response s hfrom hs
    split at h
    · rename_i hprofile
      obtain rfl := Option.some.inj h
      exact .noProfile hfrom hs hprofile
    · rename_i profile hprofile
      have hrebuilt := LoadStep.rebuilt hfrom hs hprofile
      rcases hinit : s.session.initOrgs profile with ⟨result, session⟩
      rw [hinit] at h hrebuilt
      cases result with
      | error error =>
          obtain rfl := Option.some.inj h
          exact hrebuilt
      | ok _ =>
          obtain rfl := Option.some.inj h
          exact hrebuilt
  · rename_i hfrom hs
    obtain rfl := Option.some.inj h
    exact .opened hfrom hs
  · rename_i hfrom hs
    obtain rfl := Option.some.inj h
    exact .found hfrom hs
  · rename_i snapshot hfrom
    obtain ⟨cache, hcache, rfl⟩ := cell_eq_some h
    exact .returned hfrom hcache
  · rename_i error hfrom
    obtain ⟨cache, hcache, rfl⟩ := cell_eq_some h
    exact .returned hfrom hcache
  · cases h

theorem cancel_step (h : w.cancel i = some w') : LoadStep w i (.cancel i) w' := by
  unfold LoadWorld.cancel at h
  split at h
  · exact outside_step .cancel h
  · rename_i hfrom
    obtain ⟨cache, hcache, rfl⟩ := cell_eq_some h
    exact .dropped hfrom hcache
  · rename_i s hfrom hs
    obtain ⟨s', hstep, h⟩ := Option.bind_eq_some_iff.mp h
    obtain ⟨cache, hcache, rfl⟩ := cell_eq_some h
    exact .droppedSync hfrom hs hstep hcache
  · cases h

/-- Every step is one of a load, or time passing. -/
theorem loadStep {a : LoadAction env.Body} (h : w.step a = some w') :
    (∃ now cache, a = .tick now ∧ w.cache.step (.tick now) = some cache ∧
      w' = { w with cache, session := w.session.map fun s => { s with clock := now } }) ∨
    ∃ i, LoadStep w i a w' := by
  cases a with
  | begin i => exact Or.inr ⟨i, outside_step .begin h⟩
  | go i => exact Or.inr ⟨i, outside_step .go h⟩
  | create i result => exact Or.inr ⟨i, create_step h⟩
  | sync i input => exact Or.inr ⟨i, sync_step h⟩
  | fetch i => exact Or.inr ⟨i, fetch_step h⟩
  | cancel i => exact Or.inr ⟨i, cancel_step h⟩
  | tick now =>
      obtain ⟨cache, hcache, rfl⟩ := Option.map_eq_some_iff.mp h
      exact Or.inl ⟨now, cache, rfl, hcache, rfl⟩

/-- The load an action is a step of. -/
def LoadAction.party {Body : Type} : LoadAction Body → Option CallId
  | .begin i | .go i | .create i _ | .sync i _ | .fetch i | .cancel i => some i
  | .tick _ => none

theorem LoadStep.party {a : LoadAction env.Body} (h : LoadStep w i a w') : a.party = some i := by
  cases h with
  | outside hout hfrom hcache => cases hout <;> rfl
  | _ => rfl

/-! ### Where the `sync` call of a load stands -/

/-- Where the `sync` call with the number of a load stands. -/
def LoadWorld.syncPc (w : LoadWorld env keys) (i : CallId) : Pc :=
  (w.session.map fun s => s.calls i).getD .idle

/-- By where the load stands in the cell and in its fetch. -/
def SyncPlace : Core.Pc (KeyPairSnapshot keys) String → Fetch keys → Pc → Prop
  | .idle, _, pc | .read _ _, _, pc | .write _ _, _, pc => pc = .idle
  | .init _ _, .session, pc => pc = .idle
  | .init _ _, .sync, pc => 0 < pc.rank
  | _, _, pc => pc.atRest = true

/-- A fetch at this place has had its session made. -/
def Fetch.hasSession : Fetch keys → Bool
  | .sync | .initOrgs _ | .keys _ _ _ => true
  | _ => false

/-- The session of a provider goes on as a session does, a call for each load. -/
structure Inner (w : LoadWorld env keys) : Prop where
  inside : Inside w
  sound : ∀ s, w.session = some s → Sound s
  clock : ∀ s, w.session = some s → s.clock = w.cache.clock
  made : ∀ i, (w.fetches i).hasSession = true → w.session.isSome
  place : ∀ i, SyncPlace (w.cache.calls i) (w.fetches i) (w.syncPc i)

theorem syncPc_of_some {s : World env} (hs : w.session = some s) (i : CallId) :
    w.syncPc i = s.calls i := by
  unfold LoadWorld.syncPc
  rw [hs]
  rfl

/-- A step of one load leaves the others where they are. -/
theorem LoadStep.others {a : LoadAction env.Body} (h : LoadStep w i a w') (hji : j ≠ i) :
    w'.cache.calls j = w.cache.calls j ∧ w'.fetches j = w.fetches j ∧
      w'.syncPc j = w.syncPc j := by
  have hcell : ∀ {input : Core.Input (KeyPairSnapshot keys) String}
      {cache : Core.World (KeyPairSnapshot keys) String},
      w.cache.step (.call i input) = some cache → cache.calls j = w.cache.calls j := by
    intro input cache hcache
    obtain ⟨cell', pc', coreEvents, -, rfl⟩ := Core.step_call hcache
    exact Function.update_of_ne hji _ _
  have hcall : ∀ {s s' : World env} {input : Input env.Body}, w.session = some s →
      s.step (.call i input) = some s' → s'.calls j = w.syncPc j := by
    intro s s' input hs hstep
    obtain ⟨session, pc', events, -, rfl⟩ := step_call hstep
    rw [syncPc_of_some hs]
    exact Function.update_of_ne hji _ _
  have hfetch : ∀ fetch, Function.update w.fetches i fetch j = w.fetches j :=
    fun fetch => Function.update_of_ne hji _ _
  cases h with
  | outside ha hfrom hcache => exact ⟨hcell hcache, hfetch _, rfl⟩
  | reused hfrom hs => exact ⟨rfl, hfetch _, rfl⟩
  | created hfrom hs =>
      refine ⟨rfl, hfetch _, ?_⟩
      show Pc.idle = (w.session.map fun s => s.calls j).getD .idle
      rw [hs]
      rfl
  | uncreated hfrom hs => exact ⟨rfl, hfetch _, rfl⟩
  | synced hfrom hs hstep hafter => exact ⟨rfl, hfetch _, hcall hs hstep⟩
  | panicked hfrom hs hstep hpc hcache => exact ⟨hcell hcache, hfetch _, hcall hs hstep⟩
  | noProfile hfrom hs hprofile => exact ⟨rfl, hfetch _, rfl⟩
  | rebuilt hfrom hs hprofile => exact ⟨rfl, hfetch _, (syncPc_of_some hs j).symm⟩
  | opened hfrom hs => exact ⟨rfl, hfetch _, (syncPc_of_some hs j).symm⟩
  | found hfrom hs => exact ⟨rfl, hfetch _, rfl⟩
  | returned hfrom hcache => exact ⟨hcell hcache, hfetch _, rfl⟩
  | dropped hfrom hcache => exact ⟨hcell hcache, hfetch _, rfl⟩
  | droppedSync hfrom hs hstep hcache => exact ⟨hcell hcache, hfetch _, hcall hs hstep⟩

/-- What a step does to the session: nothing, or it makes it, or it goes on with it. -/
theorem LoadStep.session_cases {a : LoadAction env.Body} (h : LoadStep w i a w') :
    w'.session = w.session ∨
    (w.session = none ∧ w'.session = some (World.start env w.cache.clock)) ∨
    ∃ s s', w.session = some s ∧ w'.session = some s' ∧ s'.clock = s.clock ∧
      (Sound s → Sound s') := by
  have hcall : ∀ {s s' : World env} {input : Input env.Body},
      s.step (.call i input) = some s' → s'.clock = s.clock ∧ (Sound s → Sound s') := by
    intro s s' input hstep
    obtain ⟨session, pc', events, hm, rfl⟩ := step_call hstep
    exact ⟨rfl, fun hsound => hsound.moved hm⟩
  cases h with
  | created hfrom hs => exact Or.inr (Or.inl ⟨hs, rfl⟩)
  | synced hfrom hs hstep hafter => exact Or.inr (Or.inr ⟨_, _, hs, rfl, hcall hstep⟩)
  | panicked hfrom hs hstep hpc hcache => exact Or.inr (Or.inr ⟨_, _, hs, rfl, hcall hstep⟩)
  | rebuilt hfrom hs hprofile =>
      exact Or.inr (Or.inr ⟨_, _, hs, rfl, rfl, fun hsound => hsound.initOrgs _⟩)
  | opened hfrom hs => exact Or.inr (Or.inr ⟨_, _, hs, rfl, rfl, fun hsound => hsound.key _⟩)
  | droppedSync hfrom hs hstep hcache => exact Or.inr (Or.inr ⟨_, _, hs, rfl, hcall hstep⟩)
  | _ => exact Or.inl rfl

/-- What a step does to the cell: nothing, or the load takes a step of its own there. -/
theorem LoadStep.cache_cases {a : LoadAction env.Body} (h : LoadStep w i a w') :
    w'.cache = w.cache ∨ ∃ input, w.cache.step (.call i input) = some w'.cache := by
  cases h with
  | outside ha hfrom hcache => exact Or.inr ⟨_, hcache⟩
  | panicked hfrom hs hstep hpc hcache => exact Or.inr ⟨_, hcache⟩
  | returned hfrom hcache => exact Or.inr ⟨_, hcache⟩
  | dropped hfrom hcache => exact Or.inr ⟨_, hcache⟩
  | droppedSync hfrom hs hstep hcache => exact Or.inr ⟨_, hcache⟩
  | _ => exact Or.inl rfl

/-- A step of a load leaves the clock alone. -/
theorem LoadStep.clock {a : LoadAction env.Body} (h : LoadStep w i a w') :
    w'.cache.clock = w.cache.clock := by
  rcases h.cache_cases with hsame | ⟨input, hcache⟩
  · rw [hsame]
  · obtain ⟨cell', pc', coreEvents, -, hmoved⟩ := Core.step_call hcache
    rw [hmoved, Core.moved_clock]

/-- A load inside its fetch is in its initializer. -/
theorem Inside.init_of_active (h : Inside w) (hi : (w.fetches i).active = true) :
    ∃ ttl start, w.cache.calls i = .init ttl start := by
  have hinit := h.active i
  rw [hi] at hinit
  cases hpc : w.cache.calls i with
  | init ttl start => exact ⟨ttl, start, rfl⟩
  | _ =>
      rw [hpc] at hinit
      cases hinit

/-- A load outside its fetch that can step in its cell has not called `sync`. -/
theorem Inner.syncPc_idle {input : Core.Input (KeyPairSnapshot keys) String}
    {cache : Core.World (KeyPairSnapshot keys) String} (h : Inner w)
    (hfrom : w.fetches i = .idle) (hcache : w.cache.step (.call i input) = some cache) :
    w.syncPc i = .idle := by
  have hplace := h.place i
  have hout := h.inside.active i
  obtain ⟨cell', pc', coreEvents, hm, -⟩ := Core.step_call hcache
  rw [hfrom] at hout
  cases hpc : w.cache.calls i with
  | init ttl start =>
      rw [hpc] at hout
      cases hout
  | done result =>
      rw [hpc] at hm
      exact absurd (hm.closer (by simp)).1 (by simp [Core.Pc.atRest])
  | cancelled =>
      rw [hpc] at hm
      exact absurd (hm.closer (by simp)).1 (by simp [Core.Pc.atRest])
  | _ =>
      rw [hpc] at hplace
      exact hplace

theorem syncPlace_fetchOf (cpc : Core.Pc (KeyPairSnapshot keys) String) :
    SyncPlace cpc (LoadWorld.fetchOf cpc) .idle := by
  cases cpc <;> rfl

/-- An initializer that comes to an end leaves its call at rest. -/
theorem core_ends {input : Core.Input (KeyPairSnapshot keys) String}
    {cache : Core.World (KeyPairSnapshot keys) String} {ttl : Duration} {start : Instant}
    (hpc : w.cache.calls i = .init ttl start) (hcache : w.cache.step (.call i input) = some cache) :
    (cache.calls i).atRest = true ∧ (cache.calls i).inInit = false := by
  obtain ⟨cell', pc', coreEvents, hm, rfl⟩ := Core.step_call hcache
  rw [Core.moved_calls, Function.update_self]
  rw [hpc] at hm
  cases hm with
  | hit hcheck hfresh => cases hcheck
  | stored => exact ⟨rfl, rfl⟩
  | failed => exact ⟨rfl, rfl⟩
  | dropped => exact ⟨rfl, rfl⟩
  | cancel hwait => exact ⟨rfl, rfl⟩

theorem syncPlace_rest {cpc : Core.Pc (KeyPairSnapshot keys) String} {fetch : Fetch keys}
    {pc : Pc} (hrest : cpc.atRest = true ∧ cpc ≠ .idle) (hpc : pc.atRest = true) :
    SyncPlace cpc fetch pc := by
  cases cpc with
  | idle => exact absurd rfl hrest.2
  | done result => exact hpc
  | cancelled => exact hpc
  | _ => exact absurd hrest.1 (by simp [Core.Pc.atRest])

/-- Nor does a call come back to where it began. -/
theorem core_begun {input : Core.Input (KeyPairSnapshot keys) String}
    {cache : Core.World (KeyPairSnapshot keys) String}
    (hcache : w.cache.step (.call i input) = some cache) : cache.calls i ≠ .idle := by
  obtain ⟨cell', pc', coreEvents, hm, rfl⟩ := Core.step_call hcache
  rw [Core.moved_calls, Function.update_self]
  exact hm.begun

/-- A load that is dropped is gone. -/
theorem core_cancelled {cache : Core.World (KeyPairSnapshot keys) String}
    (hcache : w.cache.step (.call i .cancel) = some cache) : cache.calls i = .cancelled := by
  obtain ⟨cell', pc', coreEvents, hm, rfl⟩ := Core.step_call hcache
  rw [Core.moved_calls, Function.update_self]
  generalize w.cache.calls i = pc at hm
  cases hm with
  | dropped => rfl
  | cancel hpc => rfl

/-- A load begins once. -/
theorem LoadStep.idle_of_begin (h : LoadStep w i (.begin i) w') : w.cache.calls i = .idle := by
  cases h with
  | outside ha hfrom hcache =>
      cases ha
      obtain ⟨cell', pc', coreEvents, hm, -⟩ := Core.step_call hcache
      generalize w.cache.calls i = pc at hm ⊢
      cases hm with
      | call ttl => rfl

theorem LoadStep.cancelled (h : LoadStep w i (.cancel i) w') : w'.cache.calls i = .cancelled := by
  cases h with
  | outside ha hfrom hcache =>
      cases ha
      exact core_cancelled hcache
  | dropped hfrom hcache => exact core_cancelled hcache
  | droppedSync hfrom hs hstep hcache => exact core_cancelled hcache

theorem Move.of_dropped {now : Instant} {session session' : BitwardenSession env} {pc pc' : Pc}
    {events : List Event} (h : Move env i now session pc .cancel session' pc' events) :
    pc' = .cancelled := by
  cases h with
  | cancel hpc => rfl

theorem atRest_of_cancel {s s' : World env} (hstep : s.step (.call i .cancel) = some s') :
    (s'.calls i).atRest = true := by
  obtain ⟨session, pc', events, hm, rfl⟩ := step_call hstep
  rw [moved_calls, Function.update_self, hm.of_dropped]
  rfl

/-- **A step leads a load and its `sync` call on together.** -/
theorem LoadStep.place {a : LoadAction env.Body} (hI : Inner w) (h : LoadStep w i a w') :
    SyncPlace (w'.cache.calls i) (w'.fetches i) (w'.syncPc i) := by
  have hinit : (w.fetches i).active = true → ∃ ttl start, w.cache.calls i = .init ttl start :=
    hI.inside.init_of_active
  have hplace := hI.place i
  have hends : ∀ {input : Core.Input (KeyPairSnapshot keys) String}
      {cache : Core.World (KeyPairSnapshot keys) String} {fetch : Fetch keys} {pc : Pc},
      (w.fetches i).active = true → w.cache.step (.call i input) = some cache →
        pc.atRest = true → SyncPlace (cache.calls i) fetch pc := by
    intro input cache fetch pc hactive hcache hrest
    obtain ⟨ttl, start, hpc⟩ := hinit hactive
    exact syncPlace_rest ⟨(core_ends hpc hcache).1, core_begun hcache⟩ hrest
  cases h with
  | @outside a input cache ha hfrom hcache =>
      show SyncPlace (cache.calls i) (Function.update w.fetches i _ i) (w.syncPc i)
      rw [Function.update_self, hI.syncPc_idle hfrom hcache]
      exact syncPlace_fetchOf _
  | reused hfrom hs =>
      obtain ⟨ttl, start, hpc⟩ := hinit (by rw [hfrom]; rfl)
      show SyncPlace (w.cache.calls i) (Function.update w.fetches i _ i) (w.syncPc i)
      rw [hpc, hfrom] at hplace
      have hidle : w.syncPc i = .idle := hplace
      rw [Function.update_self, hpc, hidle]
      exact Nat.succ_pos _
  | created hfrom hs =>
      obtain ⟨ttl, start, hpc⟩ := hinit (by rw [hfrom]; rfl)
      show SyncPlace (w.cache.calls i) (Function.update w.fetches i _ i) .idle
      rw [Function.update_self, hpc]
      exact Nat.succ_pos _
  | uncreated hfrom hs =>
      obtain ⟨ttl, start, hpc⟩ := hinit (by rw [hfrom]; rfl)
      show SyncPlace (w.cache.calls i) (Function.update w.fetches i _ i) (w.syncPc i)
      rw [hpc, hfrom] at hplace
      have hidle : w.syncPc i = .idle := hplace
      rw [Function.update_self, hpc, hidle]
      rfl
  | @synced s s' input fetch events hfrom hs hstep hafter =>
      obtain ⟨ttl, start, hpc⟩ := hinit (by rw [hfrom]; rfl)
      show SyncPlace (w.cache.calls i) (Function.update w.fetches i fetch i) (s'.calls i)
      rw [Function.update_self, hpc]
      generalize s'.calls i = pc' at hafter
      cases hafter with
      | goesOn hlive => exact hlive
      | ok response => rfl
      | error error => rfl
  | @panicked s s' input panic cache hfrom hs hstep hpanic hcache =>
      show SyncPlace (cache.calls i) (Function.update w.fetches i _ i) (s'.calls i)
      exact hends (by rw [hfrom]; rfl) hcache (by rw [hpanic]; rfl)
  | noProfile hfrom hs hprofile =>
      obtain ⟨ttl, start, hpc⟩ := hinit (by rw [hfrom]; rfl)
      show SyncPlace (w.cache.calls i) (Function.update w.fetches i _ i) (w.syncPc i)
      rw [hpc, hfrom] at hplace
      rw [Function.update_self, hpc]
      exact hplace
  | @rebuilt s response profile hfrom hs hprofile =>
      obtain ⟨ttl, start, hpc⟩ := hinit (by rw [hfrom]; rfl)
      show SyncPlace (w.cache.calls i) (Function.update w.fetches i _ i) (s.calls i)
      rw [hpc, hfrom, syncPc_of_some hs] at hplace
      rw [Function.update_self, hpc]
      cases (s.session.initOrgs profile).1 with
      | ok _ => exact hplace
      | error error => exact hplace
  | @opened s response cipher rest found hfrom hs =>
      obtain ⟨ttl, start, hpc⟩ := hinit (by rw [hfrom]; rfl)
      show SyncPlace (w.cache.calls i) (Function.update w.fetches i _ i) (s.calls i)
      rw [hpc, hfrom, syncPc_of_some hs] at hplace
      rw [Function.update_self, hpc]
      exact hplace
  | found hfrom hs =>
      obtain ⟨ttl, start, hpc⟩ := hinit (by rw [hfrom]; rfl)
      show SyncPlace (w.cache.calls i) (Function.update w.fetches i _ i) (w.syncPc i)
      rw [hpc, hfrom] at hplace
      rw [Function.update_self, hpc]
      exact hplace
  | @returned result cache hfrom hcache =>
      obtain ⟨ttl, start, hpc⟩ := hinit (by rw [hfrom]; rfl)
      rw [hpc, hfrom] at hplace
      exact hends (by rw [hfrom]; rfl) hcache hplace
  | @dropped cache hfrom hcache =>
      obtain ⟨ttl, start, hpc⟩ := hinit (by rw [hfrom]; rfl)
      rw [hpc, hfrom] at hplace
      have hidle : w.syncPc i = .idle := hplace
      refine hends (by rw [hfrom]; rfl) hcache ?_
      show (w.syncPc i).atRest = true
      rw [hidle]
      rfl
  | droppedSync hfrom hs hstep hcache =>
      exact hends (by rw [hfrom]; rfl) hcache (atRest_of_cancel hstep)

/-- Sessions are not lost. -/
theorem LoadStep.made {a : LoadAction env.Body} (h : LoadStep w i a w')
    (hi : (w'.fetches i).hasSession = true) : w'.session.isSome := by
  cases h with
  | @outside a input cache ha hfrom hcache =>
      have hnone : (LoadWorld.fetchOf (cache.calls i) : Fetch keys).hasSession = false := by
        cases cache.calls i <;> rfl
      have hnow : (Function.update w.fetches i
        (LoadWorld.fetchOf (cache.calls i)) i).hasSession = true := hi
      rw [Function.update_self, hnone] at hnow
      cases hnow
  | uncreated hfrom hs =>
      have hnow : (Function.update w.fetches i _ i).hasSession = true := hi
      rw [Function.update_self] at hnow
      cases hnow
  | returned hfrom hcache =>
      have hnow : (Function.update w.fetches i _ i).hasSession = true := hi
      rw [Function.update_self] at hnow
      cases hnow
  | dropped hfrom hcache =>
      have hnow : (Function.update w.fetches i _ i).hasSession = true := hi
      rw [Function.update_self] at hnow
      cases hnow
  | reused hfrom hs => exact Option.isSome_iff_exists.mpr ⟨_, hs⟩
  | noProfile hfrom hs hprofile => exact Option.isSome_iff_exists.mpr ⟨_, hs⟩
  | found hfrom hs => exact Option.isSome_iff_exists.mpr ⟨_, hs⟩
  | _ => rfl

theorem LoadStep.keeps_session {a : LoadAction env.Body} (h : LoadStep w i a w')
    (hs : w.session.isSome) : w'.session.isSome := by
  rcases h.session_cases with hsame | ⟨-, hnew⟩ | ⟨s, s', -, hnew, -⟩
  · rw [hsame]
    exact hs
  · rw [hnew]
    rfl
  · rw [hnew]
    rfl

theorem Inner.start (env : Env) (keys : SshKeys) (clock : Instant) :
    Inner (LoadWorld.start env keys clock) where
  inside := ⟨Machine.Reachable.init ⟨clock, rfl⟩, fun _ => rfl⟩
  sound _ h := by cases h
  clock _ h := by cases h
  made _ h := by cases h
  place _ := rfl

theorem Inner.tick {now : Instant} {cache : Core.World (KeyPairSnapshot keys) String}
    (h : Inner w) (hcache : w.cache.step (.tick now) = some cache) :
    Inner { w with cache, session := w.session.map fun s => { s with clock := now } } := by
  obtain ⟨-, rfl⟩ := Core.step_tick hcache
  refine ⟨⟨h.inside.cache.step hcache, h.inside.active⟩, ?_, ?_, ?_, ?_⟩
  · intro s hs
    obtain ⟨s₀, hs₀, rfl⟩ := Option.map_eq_some_iff.mp hs
    exact (h.sound s₀ hs₀).tick now
  · intro s hs
    obtain ⟨s₀, hs₀, rfl⟩ := Option.map_eq_some_iff.mp hs
    rfl
  · intro i hi
    rw [Option.isSome_map]
    exact h.made i hi
  · intro i
    have hpc : (Option.map (fun s : World env => s.calls i)
        (w.session.map fun s => { s with clock := now })) = w.session.map fun s => s.calls i := by
      rw [Option.map_map]
      rfl
    show SyncPlace (w.cache.calls i) (w.fetches i) (Option.getD (Option.map _ _) _)
    rw [hpc]
    exact h.place i

/-- **The session of a provider goes on as a session does.** -/
theorem inner (h : (loadMachine env keys).Reachable w) : Inner w := by
  refine h.invariant (fun w ⟨clock, hw⟩ => hw ▸ Inner.start env keys clock) ?_
  intro w w' a hr hI hstep
  have hin' := (load_facts (hr.step hstep)).1
  rcases loadStep hstep with ⟨now, cache, -, hcache, rfl⟩ | ⟨i, hm⟩
  · exact hI.tick hcache
  · refine ⟨hin', ?_, ?_, ?_, ?_⟩
    · intro s hs
      rcases hm.session_cases with hsame | ⟨-, hnew⟩ | ⟨s₀, s', hs₀, hnew, -, hsound⟩
      · exact hI.sound s (hsame ▸ hs)
      · obtain rfl := Option.some.inj (hnew.symm.trans hs)
        exact sound_start env _
      · obtain rfl := Option.some.inj (hnew.symm.trans hs)
        exact hsound (hI.sound s₀ hs₀)
    · intro s hs
      rw [hm.clock]
      rcases hm.session_cases with hsame | ⟨-, hnew⟩ | ⟨s₀, s', hs₀, hnew, hclock, -⟩
      · exact hI.clock s (hsame ▸ hs)
      · obtain rfl := Option.some.inj (hnew.symm.trans hs)
        rfl
      · obtain rfl := Option.some.inj (hnew.symm.trans hs)
        rw [hclock]
        exact hI.clock s₀ hs₀
    · intro j hj
      by_cases hji : j = i
      · subst hji
        exact hm.made hj
      · rw [(hm.others hji).2.1] at hj
        exact hm.keeps_session (hI.made j hj)
    · intro j
      by_cases hji : j = i
      · subst hji
        exact hm.place hI
      · obtain ⟨hcalls, hfetch, hsync⟩ := hm.others hji
        rw [hcalls, hfetch, hsync]
        exact hI.place j

end Keyring.Bitwarden
