/-
Where a published snapshot comes from.

`fetchBody` takes a fetch from its body to its end in one go; in a run the same fetch is a
row of steps among those of other loads.  Here the two are the same thing: every response
that a load goes on with was decoded from a body, so every snapshot that a load publishes is
what `fetchBody` makes of that body.  In particular none comes from a body with a malformed
element.
-/
import Keyring.Proofs.Bitwarden.Provider.Body
import Keyring.Proofs.Bitwarden.Session.Locks

namespace Keyring.Bitwarden

variable {env : Env} {keys : SshKeys} {i j : CallId} {w w' : LoadWorld env keys}
  {response : BitwardenSyncResponse}

/-! ### One body -/

theorem finish_eq_ok {x : Except String env.Body} (h : finish env x = .ok response) :
    ∃ body, x = .ok body ∧ env.decodeSync body = .ok response := by
  cases x with
  | error error => cases h
  | ok body =>
    unfold finish at h
    cases hdecode : env.decodeSync body with
    | error error => simp [hdecode] at h
    | ok decoded =>
      simp only [hdecode, Outcome.ok.injEq] at h
      rw [h] at hdecode
      exact ⟨body, rfl, hdecode⟩

/-- A call succeeds only with a body that decodes. -/
theorem Move.enters_ok {now : Instant} {s s' : BitwardenSession env} {pc pc' : Pc}
    {input : Input env.Body} {events : List Event} (hm : Move env i now s pc input s' pc' events)
    (hpc' : pc' = .done (.ok response)) : ∃ body, env.decodeSync body = .ok response := by
  cases hm with
  | finished =>
    obtain ⟨body, -, hdecode⟩ := finish_eq_ok (Pc.done.inj hpc')
    exact ⟨body, hdecode⟩
  | takeState hpc hfree =>
    subst hpc'
    cases hpc
  | takeGate hpc hfree =>
    subst hpc'
    cases hpc
  | published => exact absurd hpc' (resume_ne_done _ _)
  | replaced hn htoken => exact absurd hpc' (attempt_ne_done _ _)
  | _ => exact absurd hpc' (by simp)

/-- A load that gets its body goes on with the response, or fails. -/
theorem sync_body {s : World env} (hfetch : w.fetches i = .sync) (hsession : w.session = some s)
    (hcall : s.calls i = .body) (body : env.Body) :
    ∃ w', w.step (.sync i (.body (.ok body))) = some w' ∧
      ((∃ response, env.decodeSync body = .ok response ∧ w'.fetches i = .initOrgs response) ∨
        ∃ error, env.decodeSync body = .error error ∧
          w'.fetches i = .done (.error ((SyncError.decode error).chain env.showStatus))) := by
  let s' := s.moved i s.session (.done (finish env (.ok body))) []
  have hstep : s.step (.call i (.body (.ok body))) = some s' := by
    rw [World.step, hcall]
    rfl
  have hdone : s'.calls i = .done (finish env (.ok body)) := by
    rw [moved_calls, Function.update_self]
  have hquiet : (LoadWorld.bootstraps (s.calls i) : List (LoadEvent env keys)) = [] := by
    rw [hcall]
    rfl
  cases hdecode : env.decodeSync body with
  | error error =>
    have hfinish : finish env (.ok body) = .err (.decode error) := by
      simp only [finish, hdecode]
    rw [hfinish] at hdone
    refine ⟨{ w with session := some s' }.arrive i
      (.done (.error ((SyncError.decode error).chain env.showStatus))) [], ?_,
      Or.inr ⟨error, rfl, Function.update_self _ _ _⟩⟩
    show w.sync i _ = _
    unfold LoadWorld.sync
    simp only [hfetch, hsession, hstep, Option.bind_some, hdone, hquiet]
  | ok response =>
    have hfinish : finish env (.ok body) = .ok response := by
      simp only [finish, hdecode]
    rw [hfinish] at hdone
    refine ⟨{ w with session := some s' }.arrive i (.initOrgs response) [.synced response], ?_,
      Or.inl ⟨response, rfl, Function.update_self _ _ _⟩⟩
    show w.sync i _ = _
    unfold LoadWorld.sync
    simp only [hfetch, hsession, hstep, Option.bind_some, hdone, hquiet, List.nil_append]

/-! ### Every response -/

theorem synced_arrive {fetch : Fetch keys} {events : List (LoadEvent env keys)}
    (h : (j, .synced response) ∈ (w.arrive i fetch events).log) :
    (j, .synced response) ∈ w.log ∨ .synced response ∈ events := by
  rcases List.mem_append.mp h with h | h
  · exact Or.inl h
  · obtain ⟨e, he, heq⟩ := List.mem_map.mp h
    obtain ⟨-, rfl⟩ := Prod.mk.inj heq
    exact Or.inr he

theorem synced_arrived {fetch : Fetch keys} {events : List (LoadEvent env keys)}
    (h : some (w.arrive i fetch events) = some w') (hmem : (j, .synced response) ∈ w'.log)
    (hevents : .synced response ∉ events) : (j, .synced response) ∈ w.log := by
  obtain rfl := Option.some.inj h
  exact (synced_arrive hmem).resolve_right hevents

theorem synced_cell {input : Core.Input (KeyPairSnapshot keys) String}
    {f : Core.Pc (KeyPairSnapshot keys) String → Fetch keys}
    {events : List (LoadEvent env keys)} (h : w.cell i input f events = some w')
    (hmem : (j, .synced response) ∈ w'.log) (hevents : .synced response ∉ events) :
    (j, .synced response) ∈ w.log := by
  obtain ⟨cache, -, rfl⟩ := cell_eq_some h
  exact (synced_arrive hmem).resolve_right hevents

theorem synced_sync {input : Input env.Body} (h : w.sync i input = some w')
    (hmem : (j, .synced response) ∈ w'.log) :
    (j, .synced response) ∈ w.log ∨ ∃ body, env.decodeSync body = .ok response := by
  have hquiet : ∀ pc : Pc, (.synced response : LoadEvent env keys) ∉ LoadWorld.bootstraps pc := by
    intro pc he
    cases bootstraps_eq pc _ he
  unfold LoadWorld.sync at h
  split at h
  · rename_i s hfrom hs
    obtain ⟨s', hstep, h⟩ := Option.bind_eq_some_iff.mp h
    split at h
    · rename_i decoded hdone
      obtain rfl := Option.some.inj h
      rcases synced_arrive hmem with hmem | hmem
      · exact Or.inl hmem
      · rcases List.mem_append.mp hmem with hmem | hmem
        · exact absurd hmem (hquiet _)
        · obtain rfl := LoadEvent.synced.inj (List.mem_singleton.mp hmem)
          obtain ⟨session, pc, events, hm, rfl⟩ := step_call hstep
          rw [moved_calls, Function.update_self] at hdone
          exact Or.inr (hm.enters_ok hdone)
    · exact Or.inl (synced_arrived h hmem (hquiet _) :)
    · exact Or.inl (synced_cell h hmem (hquiet _) :)
    · cases h
    · exact Or.inl (synced_arrived h hmem (hquiet _) :)
  · cases h

theorem synced_outside {input : Core.Input (KeyPairSnapshot keys) String}
    (h : w.outside i input = some w') (hmem : (j, .synced response) ∈ w'.log) :
    (j, .synced response) ∈ w.log := by
  unfold LoadWorld.outside at h
  split at h
  · exact synced_cell h hmem (by simp)
  · cases h

theorem synced_create {result : Except String Unit} (h : w.create i result = some w')
    (hmem : (j, .synced response) ∈ w'.log) : (j, .synced response) ∈ w.log := by
  unfold LoadWorld.create at h
  split at h
  · exact (synced_arrived h hmem (by simp) :)
  · exact (synced_arrived h hmem (by simp) :)
  · exact (synced_arrived h hmem (by simp) :)
  · cases h

theorem synced_fetch (h : w.fetch i = some w') (hmem : (j, .synced response) ∈ w'.log) :
    (j, .synced response) ∈ w.log := by
  unfold LoadWorld.fetch at h
  split at h
  · rename_i decoded s hfrom hs
    split at h
    · exact synced_arrived h hmem (by simp)
    · rename_i profile hprofile
      rcases hinit : s.session.initOrgs profile with ⟨result, session⟩
      rw [hinit] at h
      cases result with
      | error error =>
        exact (synced_arrived h hmem (by simp) :)
      | ok _ =>
        exact (synced_arrived h hmem (by simp) :)
  · exact (synced_arrived h hmem (by simp) :)
  · exact (synced_arrived h hmem (by simp) :)
  · exact synced_cell h hmem (by simp)
  · exact synced_cell h hmem (by simp)
  · cases h

theorem synced_cancel (h : w.cancel i = some w') (hmem : (j, .synced response) ∈ w'.log) :
    (j, .synced response) ∈ w.log := by
  unfold LoadWorld.cancel at h
  split at h
  · exact synced_outside h hmem
  · exact synced_cell h hmem (by simp)
  · obtain ⟨s, -, h⟩ := Option.bind_eq_some_iff.mp h
    exact (synced_cell h hmem (by simp) :)
  · cases h

/-- Only `sync` brings a response, and brings one that was decoded. -/
theorem synced_step {a : LoadAction env.Body} (h : w.step a = some w')
    (hmem : (j, .synced response) ∈ w'.log) :
    (j, .synced response) ∈ w.log ∨ ∃ body, env.decodeSync body = .ok response := by
  cases a with
  | begin i => exact Or.inl (synced_outside h hmem)
  | go i => exact Or.inl (synced_outside h hmem)
  | create i result => exact Or.inl (synced_create h hmem)
  | sync i input => exact synced_sync h hmem
  | fetch i => exact Or.inl (synced_fetch h hmem)
  | cancel i => exact Or.inl (synced_cancel h hmem)
  | tick now =>
    obtain ⟨cache, -, rfl⟩ := Option.map_eq_some_iff.mp h
    exact Or.inl hmem

/-- **In every run every response was decoded from a body.** -/
theorem synced_decodes (h : (loadMachine env keys).Reachable w) :
    ∀ i response, (i, .synced response) ∈ w.log → ∃ body, env.decodeSync body = .ok response := by
  refine h.invariant (I := fun w => ∀ i response, (i, .synced response) ∈ w.log →
    ∃ body, env.decodeSync body = .ok response) ?_ ?_
  · rintro w ⟨clock, rfl⟩ i response hmem
    exact absurd hmem List.not_mem_nil
  · intro w w' a _ hI hstep i response hmem
    rcases synced_step hstep hmem with hmem | hbody
    · exact hI i response hmem
    · exact hbody

/-! ### Every snapshot -/

/-- **Every snapshot that a load publishes is what `fetchBody` makes of one body**, on the
store that its refresh of the organization keys found. -/
theorem published_fetchBody {snapshot : KeyPairSnapshot keys}
    (h : (loadMachine env keys).Reachable w) (hpublished : (i, .published snapshot) ∈ w.log) :
    ∃ body response store, env.decodeSync body = .ok response ∧ (i, .synced response) ∈ w.log ∧
      (i, .rebuilt response store) ∈ w.log ∧ (fetchBody env keys store body).1 = .ok snapshot := by
  obtain ⟨response, store, hsynced, hrebuilt, hpublish⟩ :=
    (load_facts h).2.published i snapshot hpublished
  obtain ⟨body, hdecode⟩ := synced_decodes h i response hsynced
  refine ⟨body, response, store, hdecode, hsynced, hrebuilt, ?_⟩
  unfold fetchBody
  rw [hdecode]
  exact hpublish

/-- **No snapshot is ever published from a body with a malformed element.** -/
theorem published_wellFormed {d : JsonReader env.Body} {w : LoadWorld (env.reading d) keys}
    {snapshot : KeyPairSnapshot keys} (h : (loadMachine (env.reading d) keys).Reachable w)
    (hpublished : (i, .published snapshot) ∈ w.log) :
    ∃ body json, d.parse body = some json ∧
      ∀ (frame : Frame) (elements : List Json), json = frame.fill elements →
        ∀ y ∈ elements, decodeCipher d.parseUuid y ≠ none := by
  obtain ⟨body, response, store, hdecode, -⟩ := published_fetchBody h hpublished
  obtain ⟨json, hparse, hjson⟩ := decodeSync_eq_ok_iff.mp hdecode
  refine ⟨body, json, hparse, fun frame elements hfill y hy hmalformed => ?_⟩
  rw [hfill] at hjson
  obtain ⟨profile, hprofile⟩ := profile_of_decoded hjson
  rw [(decodeSyncResponse_eq_none_iff hprofile).mpr (Or.inr ⟨y, hy, hmalformed⟩)] at hjson
  cases hjson

end Keyring.Bitwarden
