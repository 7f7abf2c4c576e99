/-
One snapshot is made from one sync response.

Fetches run inside the initializer of the provider's cell, and the cell runs one
initializer at a time; that is the whole reason.  While a fetch is under way no other load
is in its own, so no other load comes near the session or its key store, and what the
refresh of the organization keys left is what every cipher of the response is opened
with.  `key` itself leaves nothing behind.
-/
import Keyring.Bitwarden.Load
import Keyring.Proofs.Bitwarden.Provider.Discovery
import Keyring.Proofs.Bitwarden.Session.Moves
import Keyring.Proofs.Core.Cell.SingleFlight

namespace Keyring.Bitwarden

variable {env : Env} {keys : SshKeys} {i j : CallId} {w w' : LoadWorld env keys}

/-! ### What one step of a load can do -/

/-- Whether a load is inside its fetch. -/
def Fetch.active : Fetch keys → Bool
  | .idle => false
  | _ => true

/-- Where a fetch may come to from its first two steps. -/
inductive Awaited : Fetch keys → List (LoadEvent env keys) → Prop
  | sync {events : List (LoadEvent env keys)} (hev : ∀ e ∈ events, e = .bootstrapped) :
      Awaited .sync events
  | synced {events : List (LoadEvent env keys)} (hev : ∀ e ∈ events, e = .bootstrapped)
      (response : BitwardenSyncResponse) :
      Awaited (.initOrgs response) (events ++ [.synced response])
  | failed {events : List (LoadEvent env keys)} (hev : ∀ e ∈ events, e = .bootstrapped)
      (error : String) : Awaited (.done (.error error)) events

/-- How a fetch returns to the cell. -/
inductive Returns : Fetch keys → Core.Input (KeyPairSnapshot keys) String →
    List (LoadEvent env keys) → Prop
  | published (snapshot : KeyPairSnapshot keys) :
      Returns (.done (.ok snapshot)) (.finished (.ok snapshot)) [.published snapshot]
  | failed (error : String) : Returns (.done (.error error)) (.finished (.error error)) []
  | session : Returns .session .cancel []
  | sync {events : List (LoadEvent env keys)} (hev : ∀ e ∈ events, e = .bootstrapped) :
      Returns .sync .cancel events

/-- One step of a load, by what happens. -/
inductive LoadMove (w : LoadWorld env keys) (i : CallId) : LoadWorld env keys → Prop
  | outside {input : Core.Input (KeyPairSnapshot keys) String}
      {cache : Core.World (KeyPairSnapshot keys) String} (hidle : w.fetches i = .idle)
      (hstep : w.cache.step (.call i input) = some cache) :
      LoadMove w i ({ w with cache }.arrive i (LoadWorld.fetchOf (cache.calls i)) [])
  | awaited {session : Option (World env)} {fetch : Fetch keys}
      {events : List (LoadEvent env keys)}
      (hfrom : w.fetches i = .session ∨ w.fetches i = .sync) (hto : Awaited fetch events) :
      LoadMove w i ({ w with session }.arrive i fetch events)
  | noProfile {response : BitwardenSyncResponse} {error : String}
      (hfrom : w.fetches i = .initOrgs response) :
      LoadMove w i (w.arrive i (.done (.error error)) [])
  | rebuilt {response : BitwardenSyncResponse} {profile : BitwardenProfile} {s : World env}
      {result : Except String Unit} {session : BitwardenSession env}
      (hfrom : w.fetches i = .initOrgs response) (hs : w.session = some s)
      (hprofile : response.profile = some profile)
      (hinit : s.session.initOrgs profile = (result, session)) :
      LoadMove w i ({ w with session := some { s with session } }.arrive i
        (match result with
          | .ok () => .keys response (response.ciphers.getD []) []
          | .error error => .done (.error error))
        [.rebuilt response s.session.store])
  | opened {response : BitwardenSyncResponse} {cipher : BitwardenCipher}
      {rest : List BitwardenCipher} {found : KeyPairSnapshot keys} {s : World env}
      (hfrom : w.fetches i = .keys response (cipher :: rest) found) (hs : w.session = some s) :
      LoadMove w i ({ w with session := some { s with session :=
          { s.session with store := (key env.crypto keys cipher s.session.store).2 } } }.arrive i
        (.keys response rest
          (found ++ kept keys (key env.crypto keys cipher s.session.store).1))
        [.opened cipher s.session.store])
  | found {response : BitwardenSyncResponse} {found : KeyPairSnapshot keys}
      (hfrom : w.fetches i = .keys response [] found) :
      LoadMove w i (w.arrive i (.done (.ok found)) [])
  | returned {session : Option (World env)}
      {input : Core.Input (KeyPairSnapshot keys) String}
      {cache : Core.World (KeyPairSnapshot keys) String} {events : List (LoadEvent env keys)}
      (hreturns : Returns (w.fetches i) input events)
      (hstep : w.cache.step (.call i input) = some cache) :
      LoadMove w i ({ w with session, cache }.arrive i .idle events)

theorem bootstraps_eq (pc : Pc) :
    ∀ e ∈ (LoadWorld.bootstraps pc : List (LoadEvent env keys)), e = .bootstrapped := by
  intro e he
  unfold LoadWorld.bootstraps at he
  split at he
  · simpa using he
  · simp at he

theorem cell_eq_some {input : Core.Input (KeyPairSnapshot keys) String}
    {f : Core.Pc (KeyPairSnapshot keys) String → Fetch keys}
    {events : List (LoadEvent env keys)} (h : w.cell i input f events = some w') :
    ∃ cache, w.cache.step (.call i input) = some cache ∧
      w' = { w with cache }.arrive i (f (cache.calls i)) events := by
  obtain ⟨cache, hstep, rfl⟩ := Option.map_eq_some_iff.mp h
  exact ⟨cache, hstep, rfl⟩

theorem outside_move {input : Core.Input (KeyPairSnapshot keys) String}
    (h : w.outside i input = some w') : LoadMove w i w' := by
  unfold LoadWorld.outside at h
  split at h
  · rename_i hidle
    obtain ⟨cache, hstep, rfl⟩ := cell_eq_some h
    exact .outside hidle hstep
  · cases h

theorem create_move {result : Except String Unit} (h : w.create i result = some w') :
    LoadMove w i w' := by
  unfold LoadWorld.create at h
  split at h
  · rename_i s hfrom hs
    obtain rfl := Option.some.inj h
    exact .awaited (Or.inl hfrom) (.sync (by simp))
  · rename_i hfrom hs
    obtain rfl := Option.some.inj h
    exact .awaited (Or.inl hfrom) (.sync (by simp))
  · rename_i error hfrom hs
    obtain rfl := Option.some.inj h
    exact .awaited (Or.inl hfrom) (.failed (by simp) error)
  · cases h

theorem sync_move {input : Input env.Body} (h : w.sync i input = some w') :
    LoadMove w i w' := by
  unfold LoadWorld.sync at h
  split at h
  · rename_i s hfrom hs
    obtain ⟨s', hstep, h⟩ := Option.bind_eq_some_iff.mp h
    have hev := @bootstraps_eq env keys (s.calls i)
    split at h
    · obtain rfl := Option.some.inj h
      exact .awaited (Or.inr hfrom) (.synced hev _)
    · obtain rfl := Option.some.inj h
      exact .awaited (Or.inr hfrom) (.failed hev _)
    · obtain ⟨cache, hcache, rfl⟩ := cell_eq_some h
      exact .returned (by rw [hfrom]; exact .sync hev) hcache
    · cases h
    · obtain rfl := Option.some.inj h
      exact .awaited (Or.inr hfrom) (.sync hev)
  · cases h

theorem fetch_move (h : w.fetch i = some w') : LoadMove w i w' := by
  unfold LoadWorld.fetch at h
  split at h
  · rename_i response s hfrom hs
    split at h
    · obtain rfl := Option.some.inj h
      exact .noProfile hfrom
    · rename_i profile hprofile
      rcases hinit : s.session.initOrgs profile with ⟨result, session⟩
      rw [hinit] at h
      cases result with
      | error error =>
          obtain rfl := Option.some.inj h
          exact .rebuilt hfrom hs hprofile hinit
      | ok _ =>
          obtain rfl := Option.some.inj h
          exact .rebuilt hfrom hs hprofile hinit
  · rename_i hfrom hs
    obtain rfl := Option.some.inj h
    exact .opened hfrom hs
  · rename_i hfrom hs
    obtain rfl := Option.some.inj h
    exact .found hfrom
  · rename_i snapshot hfrom
    obtain ⟨cache, hcache, rfl⟩ := cell_eq_some h
    exact .returned (by rw [hfrom]; exact .published snapshot) hcache
  · rename_i error hfrom
    obtain ⟨cache, hcache, rfl⟩ := cell_eq_some h
    exact .returned (by rw [hfrom]; exact .failed error) hcache
  · cases h

theorem cancel_move (h : w.cancel i = some w') : LoadMove w i w' := by
  unfold LoadWorld.cancel at h
  split at h
  · exact outside_move h
  · rename_i hfrom
    obtain ⟨cache, hcache, rfl⟩ := cell_eq_some h
    exact .returned (by rw [hfrom]; exact .session) hcache
  · rename_i s hfrom hs
    obtain ⟨s', -, h⟩ := Option.bind_eq_some_iff.mp h
    obtain ⟨cache, hcache, rfl⟩ := cell_eq_some h
    exact .returned (by rw [hfrom]; exact .sync (by simp)) hcache
  · cases h

/-- Every step is a move of one load, or time passing. -/
theorem load_cases {a : LoadAction env.Body} (h : w.step a = some w') :
    (∃ now cache, w.cache.step (.tick now) = some cache ∧
      w' = { w with cache, session := w.session.map fun s => { s with clock := now } }) ∨
    ∃ i, LoadMove w i w' := by
  cases a with
  | begin i => exact Or.inr ⟨i, outside_move h⟩
  | go i => exact Or.inr ⟨i, outside_move h⟩
  | create i result => exact Or.inr ⟨i, create_move h⟩
  | sync i input => exact Or.inr ⟨i, sync_move h⟩
  | fetch i => exact Or.inr ⟨i, fetch_move h⟩
  | cancel i => exact Or.inr ⟨i, cancel_move h⟩
  | tick now =>
      obtain ⟨cache, hcache, rfl⟩ := Option.map_eq_some_iff.mp h
      exact Or.inl ⟨now, cache, hcache, rfl⟩

/-! ### One fetch at a time -/

/-- The cell goes its own way, and a load is inside its fetch while the cell runs its
initializer. -/
structure Inside (w : LoadWorld env keys) : Prop where
  cache : (Core.cellMachine (KeyPairSnapshot keys) String).Reachable w.cache
  active : ∀ i, (w.fetches i).active = (w.cache.calls i).inInit

theorem fetchOf_active (pc : Core.Pc (KeyPairSnapshot keys) String) :
    (LoadWorld.fetchOf pc).active = pc.inInit := by
  cases pc <;> rfl

/-- A load whose fetch steps in the cell is all that steps there. -/
theorem Inside.cell_step (hI : Inside w) {input : Core.Input (KeyPairSnapshot keys) String}
    {cache : Core.World (KeyPairSnapshot keys) String}
    (hstep : w.cache.step (.call i input) = some cache) (fetch : Fetch keys)
    (hfetch : fetch.active = (cache.calls i).inInit) (events : List (LoadEvent env keys))
    (session : Option (World env)) :
    Inside ({ w with session, cache }.arrive i fetch events) := by
  refine ⟨hI.cache.step hstep, fun k => ?_⟩
  show (Function.update w.fetches i fetch k).active = (cache.calls k).inInit
  by_cases hki : k = i
  · subst hki
    rw [Function.update_self, hfetch]
  · obtain ⟨cell', pc', coreEvents, -, rfl⟩ := Core.step_call hstep
    rw [Function.update_of_ne hki, hI.active k, Core.moved_calls, Function.update_of_ne hki]

/-- A step that stays inside the fetch. -/
theorem Inside.stays (hI : Inside w) (hi : (w.fetches i).active = true) (fetch : Fetch keys)
    (hfetch : fetch.active = true) (events : List (LoadEvent env keys))
    (session : Option (World env)) :
    Inside ({ w with session }.arrive i fetch events) := by
  refine ⟨hI.cache, fun k => ?_⟩
  show (Function.update w.fetches i fetch k).active = (w.cache.calls k).inInit
  by_cases hki : k = i
  · subst hki
    rw [Function.update_self, hfetch, ← hi, hI.active k]
  · rw [Function.update_of_ne hki, hI.active k]

theorem Awaited.active {fetch : Fetch keys} {events : List (LoadEvent env keys)}
    (h : Awaited fetch events) : fetch.active = true := by
  cases h <;> rfl

theorem Returns.active {fetch : Fetch keys} {input : Core.Input (KeyPairSnapshot keys) String}
    {events : List (LoadEvent env keys)} (h : Returns fetch input events) :
    fetch.active = true := by
  cases h <;> rfl

theorem Inside.moved (hI : Inside w) (hm : LoadMove w i w') : Inside w' := by
  cases hm with
  | outside hidle hstep => exact hI.cell_step hstep _ (fetchOf_active _) [] w.session
  | awaited hfrom hto =>
      refine hI.stays ?_ _ hto.active _ _
      rcases hfrom with hfrom | hfrom
      · rw [hfrom]
        rfl
      · rw [hfrom]
        rfl
  | noProfile hfrom => exact hI.stays (by rw [hfrom]; rfl) _ rfl [] w.session
  | @rebuilt response profile s result session hfrom hs hprofile hinit =>
      refine hI.stays (by rw [hfrom]; rfl) _ ?_ _ _
      cases result with
      | ok _ => rfl
      | error error => rfl
  | opened hfrom hs => exact hI.stays (by rw [hfrom]; rfl) _ rfl _ _
  | found hfrom => exact hI.stays (by rw [hfrom]; rfl) _ rfl [] w.session
  | returned hreturns hstep =>
      refine hI.cell_step hstep .idle ?_ _ _
      obtain ⟨cell', pc', coreEvents, hm, rfl⟩ := Core.step_call hstep
      rw [Core.moved_calls, Function.update_self,
        hm.leaves_init (by rw [← hI.active i]; exact hreturns.active)]
      rfl

/-- **The invariant rule of the loads.** -/
theorem load_invariant {I : LoadWorld env keys → Prop}
    (hstart : ∀ clock, I (.start env keys clock))
    (hmove : ∀ {w w' : LoadWorld env keys} {i}, Inside w → I w → LoadMove w i w' → I w')
    (htick : ∀ {w : LoadWorld env keys} {now cache}, w.cache.step (.tick now) = some cache →
      I w → I { w with cache, session := w.session.map fun s => { s with clock := now } })
    (h : (loadMachine env keys).Reachable w) : Inside w ∧ I w := by
  refine h.invariant (I := fun w => Inside w ∧ I w) ?_ ?_
  · rintro w ⟨clock, rfl⟩
    exact ⟨⟨Machine.Reachable.init ⟨clock, rfl⟩, fun _ => rfl⟩, hstart clock⟩
  · intro w w' a _ ⟨hin, hI⟩ hstep
    rcases load_cases hstep with ⟨now, cache, hcache, rfl⟩ | ⟨i, hm⟩
    · refine ⟨⟨hin.cache.step hcache, fun i => ?_⟩, htick hcache hI⟩
      obtain ⟨-, rfl⟩ := Core.step_tick hcache
      exact hin.active i
    · exact ⟨hin.moved hm, hmove hin hI hm⟩

/-- A list of actions that leads to a world with a property, from a new provider. -/
theorem reachable_of_loads (env : Env) (keys : SshKeys) (as : List (LoadAction env.Body))
    (p : LoadWorld env keys → Bool)
    (h : (Machine.exec LoadWorld.step (LoadWorld.start env keys 0) as).any p = true) :
    ∃ w, (loadMachine env keys).Reachable w ∧ p w = true :=
  Machine.reachable_of_exec_any ⟨0, rfl⟩ as p h

/-- **At most one load is inside its fetch.** -/
theorem Inside.alone (hI : Inside w) (hi : (w.fetches i).active = true)
    (hj : (w.fetches j).active = true) : i = j :=
  Core.inInit_unique hI.cache (by rw [← hI.active i]; exact hi) (by rw [← hI.active j]; exact hj)

/-- A move of one load leaves the fetches of the others where they are. -/
theorem LoadMove.fetches_ne (hm : LoadMove w i w') (hji : j ≠ i) :
    w'.fetches j = w.fetches j := by
  cases hm <;> exact Function.update_of_ne hji _ _

/-- Beside a fetch nothing happens to the session, and nothing is written down. -/
theorem LoadMove.beside (hI : Inside w) (hm : LoadMove w i w')
    (hj : (w.fetches j).active = true) (hji : j ≠ i) :
    w'.session = w.session ∧ w'.log = w.log := by
  have hquiet : (w.fetches i).active = true → w'.session = w.session ∧ w'.log = w.log :=
    fun hi => absurd (hI.alone hj hi) hji
  cases hm with
  | outside hidle hstep => exact ⟨rfl, List.append_nil _⟩
  | awaited hfrom hto =>
      rcases hfrom with hfrom | hfrom
      · exact hquiet (by rw [hfrom]; rfl)
      · exact hquiet (by rw [hfrom]; rfl)
  | noProfile hfrom => exact hquiet (by rw [hfrom]; rfl)
  | rebuilt hfrom hs hprofile hinit => exact hquiet (by rw [hfrom]; rfl)
  | opened hfrom hs => exact hquiet (by rw [hfrom]; rfl)
  | found hfrom => exact hquiet (by rw [hfrom]; rfl)
  | returned hreturns hstep => exact hquiet hreturns.active

end Keyring.Bitwarden
