/-
What a fetch knows at each of its places, and what the log says of all of them.

From the refresh of the organization keys on, a fetch carries a `Walk`: the store has the
keys the refresh left, the ciphers done are an initial part of the response's, and the
keys found are their outcomes in that store.  Nobody else steps in, so at the end the
snapshot is what `publish` would have made of the response in one go.
-/
import Keyring.Proofs.Bitwarden.Provider.Load

namespace Keyring.Bitwarden

variable {env : Env} {keys : SshKeys} {i j : CallId} {w w' : LoadWorld env keys}

/-! ### What a fetch carries -/

/-- Two stores with the same user and organization keys. -/
structure SameKeys (c : Crypto) (s s' : c.KeyStore) : Prop where
  user : c.symmetric s .user = c.symmetric s' .user
  organization : ∀ id, c.symmetric s (.organization id) = c.symmetric s' (.organization id)

theorem SameKeys.refl (c : Crypto) (s : c.KeyStore) : SameKeys c s s := ⟨rfl, fun _ => rfl⟩

theorem SameKeys.scope {c : Crypto} {s s' : c.KeyStore} (h : SameKeys c s s')
    (cipher : BitwardenCipher) :
    c.symmetric s (baseKey cipher) = c.symmetric s' (baseKey cipher) := by
  unfold baseKey
  split
  · exact h.user
  · exact h.organization _

theorem SameKeys.key {c : Crypto} {s s' : c.KeyStore} (h : SameKeys c s s')
    (cipher : BitwardenCipher) : SameKeys c (key c keys cipher s).2 s' where
  user := ((@key_frame c keys cipher s).1 _ rfl).trans h.user
  organization id := ((@key_frame c keys cipher s).1 _ rfl).trans (h.organization id)

/-- `pre` ends with the refresh of the organization keys by one fetch and what that fetch
has opened since. -/
structure Rebuilt (pre : List (CallId × LoadEvent env keys)) (i : CallId)
    (response : BitwardenSyncResponse) (profile : BitwardenProfile)
    (before : env.crypto.KeyStore) : Prop where
  hasProfile : response.profile = some profile
  ok : (initializeOrgKeys env.crypto before profile).1 = .ok ()
  since : ∃ a mid, pre = a ++ (i, .rebuilt response before) :: mid ∧
    (i, .synced response) ∈ a ∧ ∀ x ∈ mid, x.1 = i ∧ ∃ cipher store, x.2 = .opened cipher store

/-- The fourth step of a fetch, with some ciphers done. -/
def Walk (log : List (CallId × LoadEvent env keys)) (i : CallId) (store : env.crypto.KeyStore)
    (response : BitwardenSyncResponse) (rest : List BitwardenCipher)
    (found : KeyPairSnapshot keys) : Prop :=
  ∃ profile before seen, Rebuilt log i response profile before ∧
    SameKeys env.crypto store (initializeOrgKeys env.crypto before profile).2 ∧
    response.ciphers.getD [] = seen ++ rest ∧
    found = seen.flatMap fun cipher => Option.toList (outcome env.crypto keys cipher
      (env.crypto.symmetric (initializeOrgKeys env.crypto before profile).2 (baseKey cipher)))

/-- The snapshot is what one response is worth, on the store its fetch found. -/
def Derived (log : List (CallId × LoadEvent env keys)) (i : CallId)
    (snapshot : KeyPairSnapshot keys) : Prop :=
  ∃ response before, (i, .synced response) ∈ log ∧ (i, .rebuilt response before) ∈ log ∧
    (publish env.crypto keys response before).1 = .ok snapshot

/-- What a fetch carries from place to place. -/
def Carries (session : Option (World env)) (log : List (CallId × LoadEvent env keys))
    (i : CallId) : Fetch keys → Prop
  | .initOrgs response => (i, .synced response) ∈ log
  | .keys response rest found =>
      ∃ s, session = some s ∧ Walk log i s.session.store response rest found
  | .done (.ok found) => Derived log i found
  | _ => True

theorem initOrgs_eq {s : BitwardenSession env} {profile : BitwardenProfile}
    {result : Except String Unit} {session : BitwardenSession env}
    (h : s.initOrgs profile = (result, session)) :
    (initializeOrgKeys env.crypto s.store profile).1 = result ∧
      session.store = (initializeOrgKeys env.crypto s.store profile).2 := by
  unfold BitwardenSession.initOrgs at h
  obtain ⟨rfl, rfl⟩ := Prod.mk.inj h
  exact ⟨rfl, rfl⟩

/-- A walk that has begun. -/
theorem walk_start {log : List (CallId × LoadEvent env keys)} {response : BitwardenSyncResponse}
    {profile : BitwardenProfile} {s session : BitwardenSession env}
    (hsynced : (i, .synced response) ∈ log) (hprofile : response.profile = some profile)
    (hinit : s.initOrgs profile = (.ok (), session)) :
    Walk (log ++ [(i, .rebuilt response s.store)]) i session.store response
      (response.ciphers.getD []) ([] : KeyPairSnapshot keys) := by
  obtain ⟨hok, hstore⟩ := initOrgs_eq hinit
  refine ⟨profile, s.store, [], ⟨hprofile, hok, log, [], rfl, hsynced, by simp⟩, ?_, rfl, rfl⟩
  rw [hstore]
  exact .refl _ _

/-- A walk that goes on: `key` finds the outcome of the next cipher, and leaves the store
as it was. -/
theorem Walk.opened {log : List (CallId × LoadEvent env keys)} {store : env.crypto.KeyStore}
    {response : BitwardenSyncResponse} {cipher : BitwardenCipher} {rest : List BitwardenCipher}
    {found : KeyPairSnapshot keys} (h : Walk log i store response (cipher :: rest) found) :
    Walk (log ++ [(i, .opened cipher store)]) i (key env.crypto keys cipher store).2 response rest
      (found ++ kept keys (key env.crypto keys cipher store).1) := by
  obtain ⟨profile, before, seen, ⟨hprofile, hok, a, mid, rfl, hsynced, hmid⟩, hsame, hciphers,
    rfl⟩ := h
  refine ⟨profile, before, seen ++ [cipher], ⟨hprofile, hok, a, mid ++ [(i, .opened cipher store)],
    by simp, hsynced, ?_⟩, hsame.key cipher, by simp [hciphers], ?_⟩
  · intro x hx
    rcases List.mem_append.mp hx with hx | hx
    · exact hmid x hx
    · rw [List.mem_singleton.mp hx]
      exact ⟨rfl, cipher, store, rfl⟩
  · rw [kept_key, hsame.scope, List.flatMap_append]
    simp

/-- **A walk that is over has found what `publish` finds.** -/
theorem Walk.derived {log : List (CallId × LoadEvent env keys)} {store : env.crypto.KeyStore}
    {response : BitwardenSyncResponse} {found : KeyPairSnapshot keys}
    (h : Walk log i store response [] found) : Derived log i found := by
  obtain ⟨profile, before, seen, ⟨hprofile, hok, a, mid, rfl, hsynced, -⟩, -, hciphers, rfl⟩ := h
  refine ⟨response, before, by simp [hsynced], by simp, ?_⟩
  obtain ⟨_, ciphers⟩ := response
  obtain rfl : _ = some profile := hprofile
  obtain ⟨snapshot, hsnapshot⟩ := (@publish_ok_iff env.crypto keys before profile ciphers).mpr
    ((initializeOrgKeys_ok_iff before profile).mp hok)
  have hseen : ciphers.getD [] = seen := by simpa using hciphers
  rw [hsnapshot, publish_eq hsnapshot, hseen]

theorem Derived.mono {log more : List (CallId × LoadEvent env keys)}
    {snapshot : KeyPairSnapshot keys} (h : Derived log i snapshot) :
    Derived (log ++ more) i snapshot := by
  obtain ⟨response, before, hsynced, hrebuilt, hpublish⟩ := h
  exact ⟨response, before, List.mem_append_left _ hsynced, List.mem_append_left _ hrebuilt,
    hpublish⟩

/-- A load carries the right thing to its next place. -/
theorem LoadMove.carries (hm : LoadMove w i w')
    (h : Carries w.session w.log i (w.fetches i)) :
    Carries w'.session w'.log i (w'.fetches i) := by
  cases hm with
  | @outside input cache hidle hstep =>
      show Carries w.session _ i (Function.update w.fetches i _ i)
      rw [Function.update_self]
      cases cache.calls i <;> trivial
  | @awaited session fetch events hfrom hto =>
      show Carries session _ i (Function.update w.fetches i _ i)
      rw [Function.update_self]
      cases hto with
      | sync hev => trivial
      | synced hev response =>
          show (i, LoadEvent.synced response) ∈ w.log ++ List.map _ (_ ++ [LoadEvent.synced response])
          simp
      | failed hev error => trivial
  | noProfile hfrom =>
      show Carries w.session _ i (Function.update w.fetches i _ i)
      rw [Function.update_self]
      trivial
  | @rebuilt response profile s result session hfrom hs hprofile hinit =>
      show Carries (some { s with session }) _ i (Function.update w.fetches i _ i)
      rw [Function.update_self]
      rw [hfrom] at h
      cases result with
      | error error => trivial
      | ok _ => exact ⟨_, rfl, walk_start h hprofile hinit⟩
  | opened hfrom hs =>
      rw [hfrom] at h
      obtain ⟨s', hs', hwalk⟩ := h
      rw [hs] at hs'
      obtain rfl := Option.some.inj hs'
      show Carries (some _) _ i (Function.update w.fetches i _ i)
      rw [Function.update_self]
      exact ⟨_, rfl, hwalk.opened⟩
  | found hfrom =>
      rw [hfrom] at h
      obtain ⟨s, -, hwalk⟩ := h
      show Carries w.session _ i (Function.update w.fetches i _ i)
      rw [Function.update_self]
      exact hwalk.derived.mono
  | @returned session input cache events hreturns hstep =>
      show Carries session _ i (Function.update w.fetches i _ i)
      rw [Function.update_self]
      trivial

theorem Carries.of_not_active {session : Option (World env)}
    {log : List (CallId × LoadEvent env keys)} {fetch : Fetch keys}
    (h : fetch.active = false) : Carries session log i fetch := by
  cases fetch with
  | idle => trivial
  | _ => cases h

/-- What a fetch carries does not depend on what others do. -/
theorem LoadMove.carries_other (hI : Inside w) (hm : LoadMove w i w') (hji : j ≠ i)
    (h : Carries w.session w.log j (w.fetches j)) :
    Carries w'.session w'.log j (w'.fetches j) := by
  rw [hm.fetches_ne hji]
  by_cases hj : (w.fetches j).active = true
  · obtain ⟨hsession, hlog⟩ := hm.beside hI hj hji
    rw [hsession, hlog]
    exact h
  · exact .of_not_active (by simpa using hj)

/-! ### What the log says -/

theorem Awaited.quiet {fetch : Fetch keys} {events : List (LoadEvent env keys)}
    (h : Awaited fetch events) :
    ∀ e ∈ events, e = .bootstrapped ∨ ∃ response, e = .synced response := by
  cases h with
  | sync hev => exact fun e he => Or.inl (hev e he)
  | synced hev response =>
      intro e he
      rcases List.mem_append.mp he with he | he
      · exact Or.inl (hev e he)
      · exact Or.inr ⟨response, List.mem_singleton.mp he⟩
  | failed hev error => exact fun e he => Or.inl (hev e he)

theorem Returns.events {fetch : Fetch keys} {input : Core.Input (KeyPairSnapshot keys) String}
    {events : List (LoadEvent env keys)} (h : Returns fetch input events) :
    ∀ e ∈ events, e = .bootstrapped ∨
      ∃ snapshot, e = .published snapshot ∧ fetch = .done (.ok snapshot) := by
  intro e he
  cases h with
  | published snapshot => exact Or.inr ⟨snapshot, List.mem_singleton.mp he, rfl⟩
  | sync hev => exact Or.inl (hev e he)
  | _ => simp at he

/-- What a move writes down: it opens at most one cipher, in the store it finds, and
publishes only what its fetch has come back with. -/
theorem LoadMove.log_cases (hm : LoadMove w i w') :
    ∃ events : List (LoadEvent env keys), w'.log = w.log ++ events.map (fun e => (i, e)) ∧
      (∀ cipher store, .opened cipher store ∈ events → events = [.opened cipher store] ∧
        ∃ s response rest found, w.session = some s ∧ s.session.store = store ∧
          w.fetches i = .keys response (cipher :: rest) found) ∧
      ∀ snapshot, .published snapshot ∈ events → w.fetches i = .done (.ok snapshot) := by
  cases hm with
  | outside hidle hstep => exact ⟨[], rfl, by simp, by simp⟩
  | @awaited session fetch events hfrom hto =>
      have hquiet := hto.quiet
      refine ⟨events, rfl, fun cipher store hmem => ?_, fun snapshot hmem => ?_⟩
      · rcases hquiet _ hmem with heq | ⟨response, heq⟩ <;> cases heq
      · rcases hquiet _ hmem with heq | ⟨response, heq⟩ <;> cases heq
  | noProfile hfrom => exact ⟨[], rfl, by simp, by simp⟩
  | rebuilt hfrom hs hprofile hinit => exact ⟨[.rebuilt _ _], rfl, by simp, by simp⟩
  | @opened response cipher rest found s hfrom hs =>
      refine ⟨[.opened cipher s.session.store], rfl, fun other store hmem => ?_, by simp⟩
      obtain ⟨rfl, rfl⟩ : other = cipher ∧ store = s.session.store := by simpa using hmem
      exact ⟨rfl, s, response, rest, found, hs, rfl, hfrom⟩
  | found hfrom => exact ⟨[], rfl, by simp, by simp⟩
  | @returned session input cache events hreturns hstep =>
      have hevents := hreturns.events
      refine ⟨events, rfl, fun cipher store hmem => ?_, fun snapshot hmem => ?_⟩
      · rcases hevents _ hmem with heq | ⟨snapshot, heq, -⟩ <;> cases heq
      · rcases hevents _ hmem with heq | ⟨snapshot', heq, hfetch⟩
        · cases heq
        · cases heq
          exact hfetch

/-- A call of the cell that serves a value of its own initializer comes out of it there. -/
theorem served_cases {k : CallId} {cell cell' : Core.World (KeyPairSnapshot keys) String}
    {input : Core.Input (KeyPairSnapshot keys) String}
    {c : TtlCache.Call (KeyPairSnapshot keys) String} {snapshot : KeyPairSnapshot keys}
    (hstep : cell.step (.call i input) = some cell') (hc : (k, .served c) ∈ cell'.log)
    (hreply : c.reply = .ran (.ok snapshot)) :
    (k, .served c) ∈ cell.log ∨
      k = i ∧ (cell.calls i).inInit = true ∧ input = .finished (.ok snapshot) := by
  obtain ⟨value, pc', events, hm, rfl⟩ := Core.step_call hstep
  rcases List.mem_append.mp hc with hc | hc
  · exact Or.inl hc
  · obtain ⟨e, he, heq⟩ := List.mem_map.mp hc
    cases heq
    exact Or.inr ⟨rfl, hm.stored_value he hreply⟩

/-- A value is stored in the cell only by a load that publishes it. -/
theorem LoadMove.stored (hI : Inside w) (hm : LoadMove w i w')
    (h : ∀ k c snapshot, (k, .served c) ∈ w.cache.log → c.reply = .ran (.ok snapshot) →
      (k, .published snapshot) ∈ w.log) :
    ∀ k c snapshot, (k, .served c) ∈ w'.cache.log → c.reply = .ran (.ok snapshot) →
      (k, .published snapshot) ∈ w'.log := by
  intro k c snapshot hc hreply
  have hgrown : ∀ {events : List (LoadEvent env keys)}, (k, .served c) ∈ w.cache.log →
      (k, LoadEvent.published snapshot) ∈ w.log ++ events.map fun e => (i, e) :=
    fun hold => List.mem_append_left _ (h k c snapshot hold hreply)
  cases hm with
  | outside hidle hstep =>
      rcases served_cases hstep hc hreply with hc | ⟨rfl, hin, -⟩
      · exact hgrown hc
      · rw [← hI.active k, hidle] at hin
        cases hin
  | awaited hfrom hto => exact hgrown hc
  | noProfile hfrom => exact hgrown hc
  | rebuilt hfrom hs hprofile hinit => exact hgrown hc
  | opened hfrom hs => exact hgrown hc
  | found hfrom => exact hgrown hc
  | returned hreturns hstep =>
      rcases served_cases hstep hc hreply with hc | ⟨rfl, -, rfl⟩
      · exact hgrown hc
      · generalize w.fetches k = fetch at hreturns
        cases hreturns with
        | published snapshot => exact List.mem_append_right _ (by simp)

/-- What every run keeps. -/
structure LoadFacts (w : LoadWorld env keys) : Prop where
  place : ∀ i, Carries w.session w.log i (w.fetches i)
  opened : ∀ pre i cipher store post, w.log = pre ++ (i, .opened cipher store) :: post →
    ∃ response profile before, Rebuilt pre i response profile before ∧
      cipher ∈ response.ciphers.getD [] ∧
      SameKeys env.crypto store (initializeOrgKeys env.crypto before profile).2
  published : ∀ i snapshot, (i, .published snapshot) ∈ w.log → Derived w.log i snapshot
  stored : ∀ i c snapshot, (i, .served c) ∈ w.cache.log → c.reply = .ran (.ok snapshot) →
    (i, .published snapshot) ∈ w.log

theorem LoadFacts.moved (hin : Inside w) (hI : LoadFacts w) (hm : LoadMove w i w') :
    LoadFacts w' := by
  obtain ⟨events, hlog, hopened, hpublished⟩ := hm.log_cases
  refine ⟨fun k => ?_, ?_, ?_, hm.stored hin hI.stored⟩
  · by_cases hki : k = i
    · subst hki
      exact hm.carries (hI.place k)
    · exact hm.carries_other hin hki (hI.place k)
  · intro pre k cipher store post hsplit
    rw [hlog] at hsplit
    rcases History.append_split hsplit with ⟨later, hold, -⟩ | ⟨mid, rfl, hnew⟩
    · exact hI.opened pre k cipher store later hold
    · have hmem : (k, LoadEvent.opened cipher store) ∈ events.map fun e => (i, e) := by
        rw [hnew]
        simp
      obtain ⟨e, he, heq⟩ := List.mem_map.mp hmem
      cases heq
      obtain ⟨rfl, s, response, rest, found, hs, rfl, hfetch⟩ := hopened cipher store he
      obtain ⟨rfl, -, -⟩ := History.singleton_split hnew
      have hplace := hI.place i
      rw [hfetch] at hplace
      obtain ⟨s', hs', profile, before, seen, hrebuilt, hsame, hciphers, -⟩ := hplace
      rw [hs] at hs'
      obtain rfl := Option.some.inj hs'
      rw [List.append_nil]
      exact ⟨response, profile, before, hrebuilt, by simp [hciphers], hsame⟩
  · intro k snapshot hmem
    rw [hlog] at hmem ⊢
    rcases List.mem_append.mp hmem with hmem | hmem
    · exact (hI.published k snapshot hmem).mono
    · obtain ⟨e, he, heq⟩ := List.mem_map.mp hmem
      cases heq
      have hplace := hI.place i
      rw [hpublished snapshot he] at hplace
      exact Derived.mono hplace

theorem load_facts (h : (loadMachine env keys).Reachable w) : Inside w ∧ LoadFacts w := by
  refine load_invariant ?_ (fun hin hI hm => hI.moved hin hm) ?_ h
  · intro clock
    exact ⟨fun _ => trivial, by simp [LoadWorld.start], by simp [LoadWorld.start],
      by simp [LoadWorld.start, Core.World.start]⟩
  · intro w now cache hcache hI
    obtain ⟨-, rfl⟩ := Core.step_tick hcache
    refine ⟨fun i => ?_, hI.opened, hI.published, hI.stored⟩
    have hplace := hI.place i
    show Carries _ w.log i (w.fetches i)
    cases hfetch : w.fetches i with
    | keys response rest found =>
        rw [hfetch] at hplace
        obtain ⟨s, hs, hwalk⟩ := hplace
        exact ⟨{ s with clock := now }, by rw [hs]; rfl, hwalk⟩
    | done result =>
        rw [hfetch] at hplace
        cases result with
        | ok found => exact hplace
        | error error => trivial
    | initOrgs response =>
        rw [hfetch] at hplace
        exact hplace
    | _ => trivial

/-! ### One snapshot, one response -/

/-- Every fetch of the run worked on one sync response and its own organization keys. -/
structure OneSnapshot (w : LoadWorld env keys) : Prop where
  /-- What `key` sees: the keys that its own fetch's refresh left, for the response the
  cipher is from, and since that refresh nobody else has come near the store. -/
  opened : ∀ pre i cipher store post, w.log = pre ++ (i, .opened cipher store) :: post →
    ∃ response profile before, Rebuilt pre i response profile before ∧
      cipher ∈ response.ciphers.getD [] ∧
      SameKeys env.crypto store (initializeOrgKeys env.crypto before profile).2
  /-- What is published is what one response is worth. -/
  published : ∀ i snapshot, (i, .published snapshot) ∈ w.log → Derived w.log i snapshot
  /-- The cell holds nothing else, and no load returns anything else. -/
  cached : ∀ snapshot ts, w.cache.cell.value = some (snapshot, ts) →
    ∃ i, (i, .published snapshot) ∈ w.log
  returned : ∀ i snapshot, w.cache.calls i = .done (.ok snapshot) →
    ∃ j, (j, .published snapshot) ∈ w.log

/-- **Concurrent loads never mix sync responses.** -/
theorem loads_oneSnapshot (h : (loadMachine env keys).Reachable w) : OneSnapshot w := by
  obtain ⟨hin, hI⟩ := load_facts h
  refine ⟨hI.opened, hI.published, ?_, ?_⟩
  · intro snapshot ts hentry
    obtain ⟨j, c, hc, hreply⟩ := Core.entry_stored hin.cache hentry
    exact ⟨j, hI.stored j c snapshot hc hreply⟩
  · intro i snapshot hi
    obtain ⟨j, c, hc, hreply⟩ := Core.returned_stored hin.cache hi
    exact ⟨j, hI.stored j c snapshot hc hreply⟩

namespace Run

/-- A vault with an organization and an item of it. -/
def sharedVault : BitwardenSyncResponse :=
  ⟨some ⟨some [⟨some ⟨9⟩, some "org"⟩]⟩,
    some [{ sshItem (some "deploy") with organizationId := some ⟨9⟩ }]⟩

/-- The actions of a `sync` call, inside a fetch. -/
def inFetch : Action Reply → LoadAction Reply
  | .call i input => .sync i input
  | .tick now => .tick now
  | .initOrgs _ => .fetch 0

/-- A first load up to its second access to the key store, while a second one waits for the
cell. -/
def overlapping : List (LoadAction Reply) :=
  [.begin 0, .go 0, .go 0, .begin 1, .go 1, .go 1, .go 0, .go 0, .create 0 (.ok ())] ++
    (firstSync 0 "token" ++ answer 0 .ok ++
      [Action.call 0 (.body (.ok (Reply.vault sharedVault)))]).map inFetch ++ [.fetch 0]

/-- The first load goes on to the end, and then the second. -/
def overlapped : List (LoadAction Reply) := List.replicate 3 (.fetch 0) ++ [.go 1, .go 1]

end Run

/-- One load is inside its fetch while another one waits, which is then served from the same
snapshot without a fetch of its own. -/
theorem loads_oneSnapshot_waiting : ∃ v w : LoadWorld plainEnv plainKeys,
    (v.fetches 0 matches .keys _ _ _) ∧ (v.cache.calls 1 matches .write false _) ∧
      (loadMachine plainEnv plainKeys).Leads v w ∧ w.log.length = 5 ∧
      (w.cache.calls 1 matches .done (.ok _)) ∧ OneSnapshot w := by
  obtain ⟨v, hv, hp⟩ := reachable_of_loads plainEnv plainKeys Run.overlapping
    (fun v => (v.fetches 0 matches .keys _ _ _) && (v.cache.calls 1 matches .write false _) &&
      (Machine.exec LoadWorld.step v Run.overlapped).any fun w =>
        w.log.length == 5 && (w.cache.calls 1 matches .done (.ok _))) (by decide)
  simp only [Bool.and_eq_true] at hp
  obtain ⟨⟨hfetch, hwaits⟩, hrest⟩ := hp
  obtain ⟨w, hw, hends⟩ := (Option.any_eq_true _ _).mp hrest
  simp only [Bool.and_eq_true, beq_iff_eq] at hends
  have hleads : (loadMachine plainEnv plainKeys).Leads v w :=
    Machine.leads_of_exec Run.overlapped hw
  exact ⟨v, w, hfetch, hwaits, hleads, hends.1, hends.2, loads_oneSnapshot (hv.leads hleads)⟩

end Keyring.Bitwarden
