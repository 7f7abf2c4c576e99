/-
Loads come to an end.

Three layers of waiting lie on top of each other: the guards of the cell, the creation of
the session, and the two locks of the session inside one `sync` call.  A load that waits in
one of them waits for a load that is further on: who waits for the cell waits for the load
in its fetch, and that one is alone with the session.  So somebody can always go on.

How many steps a fetch has ahead of it is known only when its response is there, as it
opens one cipher after another.  A load is therefore measured by a stage and, within the
stage, by the ciphers that are left.
-/
import Keyring.Proofs.Bitwarden.Provider.Inner
import Mathlib.Algebra.Order.Monoid.Prod

namespace Keyring.Bitwarden

variable {env : Env} {keys : SshKeys} {i j : CallId} {w w' : LoadWorld env keys}

/-! ### How far a load has to go -/

/-- Where a load stands in the cell, in its fetch and in its `sync` call. -/
abbrev LoadPlace (keys : SshKeys) := Core.Pc (KeyPairSnapshot keys) String × Fetch keys × Pc

def LoadWorld.place (w : LoadWorld env keys) (i : CallId) : LoadPlace keys :=
  (w.cache.calls i, w.fetches i, w.syncPc i)

def LoadPlace.atRest (p : LoadPlace keys) : Bool := p.1.atRest

/-- The stage of a fetch. -/
def Fetch.stage : Fetch keys → Pc → Nat
  | .idle, _ => 0
  | .session, _ => 34
  | .sync, pc => 3 + pc.rank
  | .initOrgs _, _ => 3
  | .keys _ _ _, _ => 2
  | .done _, _ => 1

/-- The ciphers that are left. -/
def Fetch.left : Fetch keys → Nat
  | .keys _ rest _ => rest.length
  | _ => 0

/-- The stage of a load, and what is left to do in it. -/
def LoadPlace.rank : LoadPlace keys → Lex (Nat × Nat)
  | (.init _ _, fetch, pc) => toLex (fetch.stage pc, fetch.left)
  | (.read held ttl, _, _) => toLex (34 + (Core.Pc.read held ttl : Core.Pc Unit Unit).rank, 0)
  | (.write held ttl, _, _) => toLex (34 + (Core.Pc.write held ttl : Core.Pc Unit Unit).rank, 0)
  | _ => toLex (0, 0)

theorem lex_lt_of_stage {a b c d : Nat} (h : a < c) : toLex (a, b) < toLex (c, d) :=
  Prod.Lex.toLex_lt_toLex.mpr (Or.inl h)

/-- A load that has not come to its fetch comes closer in the cell. -/
theorem outside_closer {input : Core.Input (KeyPairSnapshot keys) String}
    {cache : Core.World (KeyPairSnapshot keys) String} (hI : Inner w)
    (hfrom : w.fetches i = .idle) (hcache : w.cache.step (.call i input) = some cache)
    (hbegun : w.cache.calls i ≠ .idle) (pc pc' : Pc) :
    (w.cache.calls i).atRest = false ∧
      LoadPlace.rank (cache.calls i, LoadWorld.fetchOf (cache.calls i), pc') <
        LoadPlace.rank (w.cache.calls i, (.idle : Fetch keys), pc) := by
  have hout := hI.inside.active i
  rw [hfrom] at hout
  obtain ⟨cell', cpc', coreEvents, hm, rfl⟩ := Core.step_call hcache
  obtain ⟨hlive, hlt⟩ := hm.closer hbegun
  rw [Core.moved_calls, Function.update_self]
  refine ⟨hlive, ?_⟩
  have hbefore : LoadPlace.rank (w.cache.calls i, (.idle : Fetch keys), pc) =
      toLex (34 + (w.cache.calls i).rank, 0) := by
    cases hpc : w.cache.calls i with
    | init ttl start =>
        rw [hpc] at hout
        cases hout
    | idle | done result | cancelled =>
        rw [hpc] at hlive
        cases hlive
    | _ => rfl
  rw [hbefore]
  cases cpc' with
  | init ttl start => exact lex_lt_of_stage (Nat.lt_add_of_pos_right (Nat.zero_lt_of_lt hlt))
  | read held ttl | write held ttl => exact lex_lt_of_stage (Nat.add_lt_add_left hlt 34)
  | _ => exact lex_lt_of_stage (Nat.add_pos_left (by decide) _)

/-- An initializer that ends is the end of its load. -/
theorem returned_closer {input : Core.Input (KeyPairSnapshot keys) String}
    {cache : Core.World (KeyPairSnapshot keys) String} {fetch fetch' : Fetch keys} {pc pc' : Pc}
    {ttl : Duration} {start : Instant} (hinit : w.cache.calls i = .init ttl start)
    (hcache : w.cache.step (.call i input) = some cache) (hfetch : 0 < fetch.stage pc) :
    LoadPlace.rank (cache.calls i, fetch', pc') <
      LoadPlace.rank (.init ttl start, fetch, pc) := by
  obtain ⟨hrest, hout⟩ := core_ends hinit hcache
  cases hpc : cache.calls i with
  | init ttl start =>
      rw [hpc] at hout
      cases hout
  | read held ttl | write held ttl =>
      rw [hpc] at hrest
      cases hrest
  | _ => exact lex_lt_of_stage hfetch

/-- A fetch that goes on comes closer to its end. -/
theorem inside_closer {fetch fetch' : Fetch keys} {pc pc' : Pc} (hI : Inner w)
    (hfrom : w.fetches i = fetch) (hpc : w.syncPc i = pc) (hactive : fetch.active = true)
    (hlt : fetch'.stage pc' < fetch.stage pc ∨
      fetch'.stage pc' = fetch.stage pc ∧ fetch'.left < fetch.left) :
    LoadPlace.rank (w.cache.calls i, fetch', pc') < LoadPlace.rank (w.place i) := by
  obtain ⟨ttl, start, hinit⟩ := hI.inside.init_of_active (by rw [hfrom]; exact hactive)
  rw [LoadWorld.place, hinit, hfrom, hpc]
  exact Prod.Lex.toLex_lt_toLex.mpr hlt

@[simp] theorem place_arrive (w : LoadWorld env keys) (i : CallId) (fetch : Fetch keys)
    (events : List (LoadEvent env keys)) :
    (w.arrive i fetch events).place i = (w.cache.calls i, fetch, w.syncPc i) := by
  show (w.cache.calls i, Function.update w.fetches i fetch i, w.syncPc i) = _
  rw [Function.update_self]

/-- A step of the `sync` call of a load lowers its rank. -/
theorem sync_closer {s s' : World env} {input : Input env.Body} (hI : Inner w)
    (hs : w.session = some s) (hstep : s.step (.call i input) = some s') :
    (s'.calls i).rank < (w.syncPc i).rank := by
  obtain ⟨session, pc', events, hm, rfl⟩ := step_call hstep
  rw [moved_calls, Function.update_self, syncPc_of_some hs]
  exact hm.rank_lt ((hI.sound s hs).bounded i)

/-- **Every step of a load under way brings it closer to its end.** -/
theorem LoadStep.rank_lt {a : LoadAction env.Body} (hI : Inner w) (h : LoadStep w i a w')
    (hbegun : w.cache.calls i ≠ .idle) :
    LoadPlace.rank (w'.place i) < LoadPlace.rank (w.place i) := by
  have hreturn : ∀ {input : Core.Input (KeyPairSnapshot keys) String}
      {cache : Core.World (KeyPairSnapshot keys) String} {pc : Pc},
      (w.fetches i).active = true → w.cache.step (.call i input) = some cache →
        LoadPlace.rank (cache.calls i, (.idle : Fetch keys), pc) <
          LoadPlace.rank (w.place i) := by
    intro input cache pc hactive hcache
    obtain ⟨ttl, start, hinit⟩ := hI.inside.init_of_active hactive
    rw [LoadWorld.place, hinit]
    refine returned_closer hinit hcache ?_
    cases hfetch : w.fetches i with
    | idle =>
        rw [hfetch] at hactive
        cases hactive
    | sync => exact Nat.add_pos_left (by decide) _
    | _ => exact Nat.succ_pos _
  cases h with
  | @outside a input cache ha hfrom hcache =>
      rw [place_arrive, LoadWorld.place, hfrom]
      exact (outside_closer hI hfrom hcache hbegun _ _).2
  | reused hfrom hs =>
      rw [place_arrive]
      have hplace := hI.place i
      obtain ⟨ttl, start, hinit⟩ := hI.inside.init_of_active (i := i) (by rw [hfrom]; rfl)
      rw [hinit, hfrom] at hplace
      have hidle : w.syncPc i = .idle := hplace
      rw [hidle]
      exact inside_closer hI hfrom hidle rfl (Or.inl (show 3 + Pc.idle.rank < 34 by decide))
  | created hfrom hs =>
      rw [place_arrive]
      exact inside_closer hI hfrom rfl rfl (Or.inl (show 3 + Pc.idle.rank < 34 by decide))
  | uncreated hfrom hs =>
      rw [place_arrive]
      exact inside_closer hI hfrom rfl rfl (Or.inl (show 1 < 34 by decide))
  | @synced s s' input fetch events hfrom hs hstep hafter =>
      rw [place_arrive]
      have hlt := sync_closer hI hs hstep
      refine inside_closer hI hfrom rfl rfl (Or.inl ?_)
      show fetch.stage (s'.calls i) < 3 + (w.syncPc i).rank
      generalize s'.calls i = pc' at hafter hlt
      cases hafter with
      | goesOn hlive => exact Nat.add_lt_add_left hlt 3
      | ok response => exact Nat.lt_add_of_pos_right (Nat.zero_lt_of_lt hlt)
      | error error => exact Nat.lt_add_right _ (show 1 < 3 by decide)
  | panicked hfrom hs hstep hpc hcache =>
      rw [place_arrive]
      exact hreturn (by rw [hfrom]; rfl) hcache
  | noProfile hfrom hs hprofile =>
      rw [place_arrive]
      exact inside_closer hI hfrom rfl rfl (Or.inl (show 1 < 3 by decide))
  | @rebuilt s response profile hfrom hs hprofile =>
      rw [place_arrive]
      refine inside_closer hI hfrom rfl rfl (Or.inl ?_)
      cases (s.session.initOrgs profile).1 with
      | ok _ => exact (show 2 < 3 by decide)
      | error error => exact (show 1 < 3 by decide)
  | opened hfrom hs =>
      rw [place_arrive]
      exact inside_closer hI hfrom rfl rfl (Or.inr ⟨rfl, Nat.lt_succ_self _⟩)
  | found hfrom hs =>
      rw [place_arrive]
      exact inside_closer hI hfrom rfl rfl (Or.inl (show 1 < 2 by decide))
  | returned hfrom hcache =>
      rw [place_arrive]
      exact hreturn (by rw [hfrom]; rfl) hcache
  | dropped hfrom hcache =>
      rw [place_arrive]
      exact hreturn (by rw [hfrom]; rfl) hcache
  | droppedSync hfrom hs hstep hcache =>
      rw [place_arrive]
      exact hreturn (by rw [hfrom]; rfl) hcache

/-- A load is in its fetch, or steps in the cell. -/
theorem LoadStep.inside_or {a : LoadAction env.Body} (h : LoadStep w i a w') :
    (w.fetches i).active = true ∨ w.fetches i = .idle ∧
      ∃ (input : Core.Input (KeyPairSnapshot keys) String)
        (cache : Core.World (KeyPairSnapshot keys) String),
        Outside i a input ∧ w.cache.step (.call i input) = some cache ∧
          w' = { w with cache }.arrive i (LoadWorld.fetchOf (cache.calls i)) [] := by
  have hin : ∀ {fetch : Fetch keys}, w.fetches i = fetch → fetch.active = true →
      (w.fetches i).active = true := fun hfrom hactive => hfrom ▸ hactive
  cases h with
  | outside ha hfrom hcache => exact Or.inr ⟨hfrom, _, _, ha, hcache, rfl⟩
  | reused hfrom hs => exact Or.inl (hin hfrom rfl)
  | created hfrom hs => exact Or.inl (hin hfrom rfl)
  | uncreated hfrom hs => exact Or.inl (hin hfrom rfl)
  | synced hfrom hs hstep hafter => exact Or.inl (hin hfrom rfl)
  | panicked hfrom hs hstep hpc hcache => exact Or.inl (hin hfrom rfl)
  | noProfile hfrom hs hprofile => exact Or.inl (hin hfrom rfl)
  | rebuilt hfrom hs hprofile => exact Or.inl (hin hfrom rfl)
  | opened hfrom hs => exact Or.inl (hin hfrom rfl)
  | found hfrom hs => exact Or.inl (hin hfrom rfl)
  | returned hfrom hcache => exact Or.inl (hin hfrom rfl)
  | dropped hfrom hcache => exact Or.inl (hin hfrom rfl)
  | droppedSync hfrom hs hstep hcache => exact Or.inl (hin hfrom rfl)

/-- Only loads under way take steps, once they are begun. -/
theorem LoadStep.live {a : LoadAction env.Body} (hI : Inner w) (h : LoadStep w i a w')
    (hbegun : w.cache.calls i ≠ .idle) : (w.cache.calls i).atRest = false := by
  have hinside : (w.fetches i).active = true → (w.cache.calls i).atRest = false := by
    intro hactive
    obtain ⟨ttl, start, hinit⟩ := hI.inside.init_of_active hactive
    rw [hinit]
    rfl
  rcases h.inside_or with hactive | ⟨hfrom, input, cache, -, hcache, -⟩
  · exact hinside hactive
  · exact (outside_closer hI hfrom hcache hbegun .idle .idle).1

theorem LoadStep.closer {a : LoadAction env.Body} (hI : Inner w) (h : LoadStep w i a w')
    (hbegun : w.cache.calls i ≠ .idle) :
    Machine.Closer (fun p => LoadPlace.atRest p = true) LoadPlace.rank w.place w'.place i where
  live := by
    show ¬(w.cache.calls i).atRest = true
    rw [h.live hI hbegun]
    simp
  falls := h.rank_lt hI hbegun
  others j hji := by
    obtain ⟨hcalls, hfetch, hsync⟩ := h.others hji
    rw [LoadWorld.place, hcalls, hfetch, hsync]
    rfl

/-! ### Who can go on -/

/-- What a load under way goes on with, other than being dropped: the outcome of what it
waits for, whatever it is. -/
inductive LoadAnswers (w : LoadWorld env keys) (i : CallId) : LoadAction env.Body → Prop
  | go (hfrom : w.fetches i = .idle) : LoadAnswers w i (.go i)
  | create (hfrom : w.fetches i = .session) (result : Except String Unit) :
      LoadAnswers w i (.create i result)
  | sync (hfrom : w.fetches i = .sync) {input : Input env.Body}
      (hinput : Answers (w.syncPc i) input) : LoadAnswers w i (.sync i input)
  | initOrgs {response : BitwardenSyncResponse} (hfrom : w.fetches i = .initOrgs response) :
      LoadAnswers w i (.fetch i)
  | keys {response : BitwardenSyncResponse} {rest : List BitwardenCipher}
      {found : KeyPairSnapshot keys} (hfrom : w.fetches i = .keys response rest found) :
      LoadAnswers w i (.fetch i)
  | done {result : Except String (KeyPairSnapshot keys)} (hfrom : w.fetches i = .done result) :
      LoadAnswers w i (.fetch i)

/-- A load that is under way and can go on, whatever it is answered. -/
structure LoadGoesOn (w : LoadWorld env keys) (i : CallId) : Prop where
  live : (w.cache.calls i).atRest = false
  answered : ∃ a, LoadAnswers w i a
  step : ∀ a, LoadAnswers w i a → (w.step a).isSome

/-- A load that is in its initializer can return to the cell. -/
theorem cell_isSome {input : Core.Input (KeyPairSnapshot keys) String} {ttl : Duration}
    {start : Instant} (hinit : w.cache.calls i = .init ttl start)
    (hinput : input = .cancel ∨ ∃ result, input = .finished result)
    (f : Core.Pc (KeyPairSnapshot keys) String → Fetch keys)
    (events : List (LoadEvent env keys)) : (w.cell i input f events).isSome := by
  rw [LoadWorld.cell, Option.isSome_map, Core.World.step, Option.isSome_map, hinit]
  rcases hinput with rfl | ⟨result, rfl⟩
  · rfl
  · cases result <;> rfl

/-- A call is cancelled only by being dropped. -/
theorem Move.not_cancelled {now : Instant} {s s' : BitwardenSession env} {pc pc' : Pc}
    {input : Input env.Body} {events : List Event} (h : Move env i now s pc input s' pc' events)
    (hinput : input ≠ .cancel) : pc' ≠ .cancelled := by
  cases h with
  | takeState hpc hfree => cases hpc <;> simp
  | takeGate hpc hfree => cases hpc <;> simp
  | published => exact resume_elim (P := fun pc => pc ≠ .cancelled) (by simp) (by simp) _
  | replaced hn htoken => exact attempt_elim (P := fun pc => pc ≠ .cancelled) (by simp) (by simp) _
  | cancel hpc => exact absurd rfl hinput
  | _ => simp

theorem Answers.ne_cancel {pc : Pc} {input : Input env.Body} (h : Answers pc input) :
    input ≠ .cancel := by
  cases h <;> simp

/-- A `sync` call that has its answer takes its fetch on. -/
theorem sync_isSome {s s' : World env} {input : Input env.Body} {ttl : Duration}
    {start : Instant} (hfrom : w.fetches i = .sync) (hs : w.session = some s)
    (hinit : w.cache.calls i = .init ttl start) (hinput : input ≠ .cancel)
    (hstep : s.step (.call i input) = some s') : (w.sync i input).isSome := by
  have hnot : s'.calls i ≠ .cancelled := by
    obtain ⟨session, pc', events, hm, rfl⟩ := step_call hstep
    rw [moved_calls, Function.update_self]
    exact hm.not_cancelled hinput
  unfold LoadWorld.sync
  simp only [hfrom, hs, hstep, Option.bind_some]
  split
  · rfl
  · rfl
  · exact cell_isSome (w := { w with session := some s' }) hinit (Or.inl rfl) _ _
  · rename_i hcancelled
    exact absurd hcancelled hnot
  · rfl

/-- Beside a fetch no `sync` call is under way. -/
theorem Inner.sync_alone (hI : Inner w) (hi : (w.fetches i).active = true) (hji : j ≠ i) :
    (w.syncPc j).holdsState = false ∧ (w.syncPc j).holdsGate = false := by
  have hplace := hI.place j
  have hout : (w.fetches j).active = false := by
    by_contra hj
    exact hji (hI.inside.alone (by simpa using hj) hi)
  have hnot := hI.inside.active j
  rw [hout] at hnot
  cases hpc : w.cache.calls j with
  | init ttl start =>
      rw [hpc] at hnot
      cases hnot
  | done result | cancelled =>
      rw [hpc] at hplace
      exact no_guards_of_atRest hplace
  | idle | read held ttl | write held ttl =>
      rw [hpc] at hplace
      have hidle : w.syncPc j = .idle := hplace
      rw [hidle]
      exact ⟨rfl, rfl⟩

/-- The `sync` call of a fetch waits for nobody. -/
theorem Inner.sync_advances {s : World env} {input : Input env.Body} (hI : Inner w)
    (hfrom : w.fetches i = .sync) (hs : w.session = some s)
    (hanswers : Answers (w.syncPc i) input) : ∃ s', s.step (.call i input) = some s' := by
  rw [syncPc_of_some hs] at hanswers
  obtain ⟨hstate, hgate⟩ := (hI.sound s hs).locks
  have hothers : ∀ j, j ≠ i → (s.calls j).holdsState = false ∧ (s.calls j).holdsGate = false := by
    intro j hji
    have halone := hI.sync_alone (i := i) (by rw [hfrom]; rfl) hji
    rw [syncPc_of_some hs] at halone
    exact halone
  have hadvance : (advance env i s.clock s.session (s.calls i) input).isSome := by
    refine advance_isSome_of_answers hanswers (fun pc' hpc => hstate.free fun j => ?_)
      (fun pc' hpc => hgate.free fun j => ?_)
    · by_cases hji : j = i
      · subst hji
        exact hpc.before
      · exact (hothers j hji).1
    · by_cases hji : j = i
      · subst hji
        exact hpc.before
      · exact (hothers j hji).2
  obtain ⟨next, hnext⟩ := Option.isSome_iff_exists.mp hadvance
  refine ⟨s.moved i next.1 next.2.1 next.2.2, ?_⟩
  rw [World.step, hnext]
  rfl

/-- A call with steps ahead of it can be answered. -/
theorem exists_answers_of_rank {pc : Pc} (Body : Type) (h : 0 < pc.rank) :
    ∃ input : Input Body, Answers pc input := by
  cases pc with
  | idle => exact ⟨_, .idle⟩
  | done outcome | cancelled | panicked panic => exact absurd h (Nat.lt_irrefl 0)
  | bootstrap caller r exp => exact ⟨_, .bootstrap caller r exp⟩
  | _ => exact exists_answers Body rfl

/-- **A load in its fetch can go on**, whatever it is answered. -/
theorem Inner.goes_on (hI : Inner w) (hi : (w.fetches i).active = true) : LoadGoesOn w i := by
  obtain ⟨ttl, start, hinit⟩ := hI.inside.init_of_active hi
  have hplace := hI.place i
  refine ⟨by rw [hinit]; rfl, ?_, ?_⟩
  · cases hfrom : w.fetches i with
    | idle =>
        rw [hfrom] at hi
        cases hi
    | session => exact ⟨_, .create hfrom (.ok ())⟩
    | sync =>
        rw [hinit, hfrom] at hplace
        obtain ⟨input, hinput⟩ := exists_answers_of_rank env.Body hplace
        exact ⟨_, .sync hfrom hinput⟩
    | initOrgs response => exact ⟨_, .initOrgs hfrom⟩
    | keys response rest found => exact ⟨_, .keys hfrom⟩
    | done result => exact ⟨_, .done hfrom⟩
  · intro a hanswers
    cases hanswers with
    | go hfrom =>
        rw [hfrom] at hi
        cases hi
    | create hfrom result =>
        show (w.create i result).isSome
        unfold LoadWorld.create
        cases hs : w.session with
        | some s => simp [hfrom]
        | none => cases result <;> simp [hfrom]
    | sync hfrom hinput =>
        obtain ⟨s, hs⟩ := Option.isSome_iff_exists.mp (hI.made i (by rw [hfrom]; rfl))
        obtain ⟨s', hstep⟩ := hI.sync_advances hfrom hs hinput
        exact sync_isSome hfrom hs hinit hinput.ne_cancel hstep
    | initOrgs hfrom =>
        obtain ⟨s, hs⟩ := Option.isSome_iff_exists.mp (hI.made i (by rw [hfrom]; rfl))
        show (w.fetch i).isSome
        unfold LoadWorld.fetch
        simp only [hfrom, hs]
        split
        · rfl
        · split <;> rfl
    | @keys response rest found hfrom =>
        obtain ⟨s, hs⟩ := Option.isSome_iff_exists.mp (hI.made i (by rw [hfrom]; rfl))
        show (w.fetch i).isSome
        unfold LoadWorld.fetch
        cases rest with
        | nil => simp [hfrom, hs]
        | cons cipher rest => simp [hfrom, hs]
    | @done result hfrom =>
        show (w.fetch i).isSome
        unfold LoadWorld.fetch
        cases result with
        | ok snapshot =>
            simp only [hfrom]
            exact cell_isSome hinit (Or.inr ⟨_, rfl⟩) _ _
        | error error =>
            simp only [hfrom]
            exact cell_isSome hinit (Or.inr ⟨_, rfl⟩) _ _

/-- **Somebody can always go on**: the load in its fetch, or else one in the cell. -/
theorem Inner.progress (hI : Inner w) (hi : (w.cache.calls i).atRest = false) :
    ∃ j, LoadGoesOn w j := by
  by_cases hfetch : ∃ j, (w.fetches j).active = true
  · obtain ⟨j, hj⟩ := hfetch
    exact ⟨j, hI.goes_on hj⟩
  · obtain ⟨j, hlive, hgoes⟩ := Core.cell_progress hI.inside.cache hi
    have hout : (w.fetches j).active = false := by
      by_contra hj
      exact hfetch ⟨j, by simpa using hj⟩
    have hidle : w.fetches j = .idle := by
      cases hfrom : w.fetches j with
      | idle => rfl
      | _ =>
          rw [hfrom] at hout
          cases hout
    have hgo : (w.step (.go j)).isSome := by
      have hcell : (w.cache.step (.call j .go)).isSome := by
        refine hgoes _ ?_
        have hactive := hI.inside.active j
        rw [hout] at hactive
        cases hpc : w.cache.calls j with
        | read held ttl => exact .read held ttl
        | write held ttl => exact .write held ttl
        | init ttl start =>
            rw [hpc] at hactive
            cases hactive
        | idle | done result | cancelled =>
            rw [hpc] at hlive
            cases hlive
      show (w.outside j .go).isSome
      unfold LoadWorld.outside
      simp only [hidle, LoadWorld.cell, Option.isSome_map]
      exact hcell
    refine ⟨j, hlive, ⟨_, .go hidle⟩, fun a hanswers => ?_⟩
    cases hanswers with
    | go hfrom => exact hgo
    | create hfrom result =>
        rw [hidle] at hfrom
        cases hfrom
    | sync hfrom hinput =>
        rw [hidle] at hfrom
        cases hfrom
    | initOrgs hfrom =>
        rw [hidle] at hfrom
        cases hfrom
    | keys hfrom =>
        rw [hidle] at hfrom
        cases hfrom
    | done hfrom =>
        rw [hidle] at hfrom
        cases hfrom

/-! ### Without an answer -/

/-- Whether a step takes an answer of an endpoint. -/
def LoadAction.isAnswer {Body : Type} : LoadAction Body → Bool
  | .create _ _ | .sync _ (.token _) | .sync _ (.headers _) | .sync _ (.body _) => true
  | _ => false

/-- A `sync` call can be dropped where it awaits. -/
theorem cancel_isSome {s : World env} (h : (s.calls i).awaits = true) :
    (s.step (.call i .cancel)).isSome := by
  have hadvance : (advance env i s.clock s.session (s.calls i) .cancel).isSome := by
    cases hpc : s.calls i with
    | stale held | restale held | ready held _ _ _ | publish held _ _ _ | read held _
    | invalidate held _ _ => cases held <;> rfl
    | gate | request | send | body | rejected => rfl
    | idle | bootstrap | done | cancelled | panicked =>
        rw [hpc] at h
        cases h
  rw [World.step, Option.isSome_map]
  exact hadvance

/-- Between two awaits a `sync` call goes on by itself. -/
theorem answers_go_of_not_awaits {pc : Pc} (Body : Type) (hlive : 0 < pc.rank)
    (h : pc.awaits = false) : Answers pc (.go : Input Body) := by
  cases pc with
  | idle => exact .idle
  | bootstrap caller r exp => exact .bootstrap caller r exp
  | done outcome | cancelled | panicked panic => exact absurd hlive (Nat.lt_irrefl 0)
  | _ => cases h

/-- **A load under way can be dropped, or goes on without an answer.** -/
theorem Inner.yields (hI : Inner w) (hi : (w.cache.calls i).atRest = false) :
    (w.step (.cancel i)).isSome ∨
      ∃ a, LoadAnswers w i a ∧ a.isAnswer = false ∧ (w.step a).isSome := by
  have hgoes : ∀ a, LoadAnswers w i a → a.isAnswer = false → (w.fetches i).active = true →
      ∃ a, LoadAnswers w i a ∧ a.isAnswer = false ∧ (w.step a).isSome := fun a ha hanswer hactive =>
    ⟨a, ha, hanswer, (hI.goes_on hactive).step a ha⟩
  cases hfrom : w.fetches i with
  | idle =>
      -- in the cell, which can be left wherever it is waited for
      refine Or.inl ?_
      have hactive := hI.inside.active i
      rw [hfrom] at hactive
      rw [LoadWorld.step, LoadWorld.cancel, hfrom]
      simp only [LoadWorld.outside, hfrom, LoadWorld.cell, Option.isSome_map, Core.World.step]
      cases hpc : w.cache.calls i with
      | read held ttl => cases held <;> rfl
      | write held ttl => cases held <;> rfl
      | init ttl start =>
          rw [hpc] at hactive
          cases hactive
      | idle | done result | cancelled =>
          rw [hpc] at hi
          cases hi
  | session =>
      obtain ⟨ttl, start, hinit⟩ := hI.inside.init_of_active (i := i) (by rw [hfrom]; rfl)
      refine Or.inl ?_
      rw [LoadWorld.step, LoadWorld.cancel, hfrom]
      exact cell_isSome hinit (Or.inl rfl) _ _
  | sync =>
      obtain ⟨ttl, start, hinit⟩ := hI.inside.init_of_active (i := i) (by rw [hfrom]; rfl)
      obtain ⟨s, hs⟩ := Option.isSome_iff_exists.mp (hI.made i (by rw [hfrom]; rfl))
      have hplace := hI.place i
      rw [hinit, hfrom, syncPc_of_some hs] at hplace
      cases hawaits : (s.calls i).awaits with
      | true =>
          obtain ⟨s', hstep⟩ := Option.isSome_iff_exists.mp (cancel_isSome hawaits)
          refine Or.inl ?_
          rw [LoadWorld.step, LoadWorld.cancel, hfrom, hs]
          simp only [hstep, Option.bind_some]
          exact cell_isSome (w := { w with session := some s' }) hinit (Or.inl rfl) _ _
      | false =>
          refine Or.inr (hgoes (.sync i .go) (.sync hfrom ?_) rfl (by rw [hfrom]; rfl))
          rw [syncPc_of_some hs]
          exact answers_go_of_not_awaits env.Body hplace hawaits
  | initOrgs response =>
      exact Or.inr (hgoes _ (.initOrgs hfrom) rfl (by rw [hfrom]; rfl))
  | keys response rest found =>
      exact Or.inr (hgoes _ (.keys hfrom) rfl (by rw [hfrom]; rfl))
  | done result => exact Or.inr (hgoes _ (.done hfrom) rfl (by rw [hfrom]; rfl))

/-! ### All loads end -/

/-- Whether an action is the turn of a load that has been begun. -/
def LoadAction.isTurn {Body : Type} : LoadAction Body → Bool
  | .begin _ | .tick _ => false
  | _ => true

/-- The runs in which no load is begun.  Time may pass before every step. -/
def loadSettleMachine (env : Env) (keys : SshKeys) :
    Machine (LoadWorld env keys) (Instant × LoadAction env.Body) where
  init _ := True
  step w a w' := a.2.isTurn = true ∧ ∃ w₁, w.step (.tick a.1) = some w₁ ∧ w₁.step a.2 = some w'

/-- All loads have ended, and every lock is free. -/
structure LoadSettled (w : LoadWorld env keys) : Prop where
  ended : ∀ i, (w.cache.calls i).atRest = true ∧ w.fetches i = .idle
  cell : w.cache.cell.holders = .shared ∅
  state : ∀ s, w.session = some s → s.session.state.holder = none
  gate : ∀ s, w.session = some s → s.session.gate.holder = none

theorem Inner.settled (hI : Inner w) (hrest : ∀ i, (w.cache.calls i).atRest = true) :
    LoadSettled w := by
  have hguards : ∀ i, (w.syncPc i).holdsState = false ∧ (w.syncPc i).holdsGate = false := by
    intro i
    have hplace := hI.place i
    have hresti := hrest i
    cases hpc : w.cache.calls i with
    | idle =>
        rw [hpc] at hplace
        have hidle : w.syncPc i = .idle := hplace
        rw [hidle]
        exact ⟨rfl, rfl⟩
    | done result | cancelled =>
        rw [hpc] at hplace
        exact no_guards_of_atRest hplace
    | _ =>
        rw [hpc] at hresti
        cases hresti
  refine ⟨fun i => ⟨hrest i, ?_⟩, ?_, ?_, ?_⟩
  · have hactive := hI.inside.active i
    have hresti := hrest i
    cases hfrom : w.fetches i with
    | idle => rfl
    | _ =>
        rw [hfrom] at hactive
        cases hpc : w.cache.calls i with
        | init ttl start =>
            rw [hpc] at hresti
            cases hresti
        | _ =>
            rw [hpc] at hactive
            cases hactive
  · exact Core.holders_of_free hI.inside.cache fun i => Core.guard_none_of_atRest (hrest i)
  · intro s hs
    refine (hI.sound s hs).locks.state.free fun i => ?_
    rw [← syncPc_of_some hs]
    exact (hguards i).1
  · intro s hs
    refine (hI.sound s hs).locks.gate.free fun i => ?_
    rw [← syncPc_of_some hs]
    exact (hguards i).2

/-- A load that has not begun can only begin. -/
theorem LoadStep.begins {a : LoadAction env.Body} (hI : Inner w) (h : LoadStep w i a w')
    (hidle : w.cache.calls i = .idle) :
    a = .begin i ∧ w'.cache.calls i = .read false snapshotTtl := by
  rcases h.inside_or with hactive | ⟨-, input, cache, ha, hcache, rfl⟩
  · obtain ⟨ttl, start, hinit⟩ := hI.inside.init_of_active hactive
    rw [hidle] at hinit
    cases hinit
  · show a = .begin i ∧ cache.calls i = _
    obtain ⟨cell', pc', coreEvents, hm, rfl⟩ := Core.step_call hcache
    rw [Core.moved_calls, Function.update_self]
    rw [hidle] at hm
    cases ha with
    | begin =>
        cases hm with
        | call ttl => exact ⟨rfl, rfl⟩
    | go =>
        cases hm with
        | hit hcheck hfresh => cases hcheck
    | cancel =>
        cases hm with
        | cancel hwait => cases hwait

/-- A load that has begun does not begin again. -/
theorem LoadStep.stays_begun {a : LoadAction env.Body} (h : LoadStep w i a w')
    (hbegun : w.cache.calls i ≠ .idle) : w'.cache.calls i ≠ .idle := by
  rcases h.cache_cases with hsame | ⟨input, hcache⟩
  · rw [hsame]
    exact hbegun
  · exact core_begun hcache

/-- A step writes down what its load does. -/
theorem LoadStep.log {a : LoadAction env.Body} (h : LoadStep w i a w') :
    ∃ events : List (LoadEvent env keys), w'.log = w.log ++ events.map fun e => (i, e) := by
  cases h <;> exact ⟨_, rfl⟩

/-- Nothing is written down of a load that has not begun. -/
theorem log_of_idle (h : (loadMachine env keys).Reachable w) (hidle : w.cache.calls i = .idle)
    (e : LoadEvent env keys) : (i, e) ∉ w.log := by
  refine h.invariant (I := fun w => ∀ i, w.cache.calls i = .idle → ∀ e, (i, e) ∉ w.log) ?_ ?_
    i hidle e
  · rintro w ⟨clock, rfl⟩ i _ e he
    cases he
  · intro w w' a hr hI hstep i hidle e
    rcases loadStep hstep with ⟨now, cache, -, hcache, rfl⟩ | ⟨j, hm⟩
    · obtain ⟨-, rfl⟩ := Core.step_tick hcache
      exact hI i hidle e
    · obtain ⟨events, hlog⟩ := hm.log
      have hij : i ≠ j := by
        rintro rfl
        by_cases hbefore : w.cache.calls i = .idle
        · rw [(hm.begins (inner hr) hbefore).2] at hidle
          cases hidle
        · exact hm.stays_begun hbefore hidle
      rw [hlog]
      intro he
      rcases List.mem_append.mp he with he | he
      · rw [(hm.others hij).1] at hidle
        exact hI i hidle e he
      · obtain ⟨e', -, heq⟩ := List.mem_map.mp he
        exact hij (Prod.mk.inj heq).1.symm

theorem load_few (h : (loadMachine env keys).Reachable w) :
    Machine.FewUnderWay (fun p => LoadPlace.atRest p = true) w.place := by
  obtain ⟨live, hlive⟩ := Core.cell_few (inner h).inside.cache
  exact ⟨live, fun i hi => hlive i hi⟩

/-- The runs in which no load is begun are runs. -/
theorem loadSettle_leads {a : Instant × LoadAction env.Body}
    (h : (loadSettleMachine env keys).step w a w') : (loadMachine env keys).Leads w w' := by
  obtain ⟨-, w₁, htick, hstep⟩ := h
  exact ((Machine.Leads.refl w).step (m := loadMachine env keys) htick).step hstep

theorem place_tick {now : Instant} (h : w.step (.tick now) = some w') : w'.place = w.place := by
  obtain ⟨cache, hcache, rfl⟩ := Option.map_eq_some_iff.mp h
  obtain ⟨-, rfl⟩ := Core.step_tick hcache
  funext i
  show (w.cache.calls i, w.fetches i, (Option.map _ (Option.map _ w.session)).getD Pc.idle) = _
  rw [Option.map_map]
  rfl

/-- Time may stand still. -/
theorem tick_same (hI : Inner w) : w.step (.tick w.cache.clock) = some w := by
  have htick : w.cache.step (.tick w.cache.clock) = some w.cache := by
    rw [Core.World.step, if_pos (Nat.le_refl _)]
  rw [LoadWorld.step, LoadWorld.tick, htick]
  have hsame : (w.session.map fun s => { s with clock := w.cache.clock }) = w.session := by
    cases hs : w.session with
    | none => rfl
    | some s => rw [Option.map_some, ← hI.clock s hs]
  rw [Option.map_some, hsame]

theorem loads_inevitable (h : (loadMachine env keys).Reachable w) :
    (loadSettleMachine env keys).Inevitable LoadSettled w := by
  refine (Machine.inevitable_of_parties (I := (loadMachine env keys).Reachable) LoadWorld.place
    (fun p => LoadPlace.atRest p = true) LoadPlace.rank ?_ ?_ h (load_few h)).mono ?_
  · rintro w hr ⟨i, hi⟩
    have hlive : (w.cache.calls i).atRest = false := Bool.eq_false_iff.mpr hi
    obtain ⟨j, -, ⟨a, hanswers⟩, hstep⟩ := (inner hr).progress hlive
    obtain ⟨w', hw'⟩ := Option.isSome_iff_exists.mp (hstep a hanswers)
    refine ⟨(w.cache.clock, a), w', ?_, w, tick_same (inner hr), hw'⟩
    cases hanswers <;> rfl
  · rintro w ⟨now, a⟩ w' hr hstep
    refine ⟨hr.leads (loadSettle_leads hstep), ?_⟩
    obtain ⟨hturn, w₁, htick, hcall⟩ := hstep
    have hr₁ : (loadMachine env keys).Reachable w₁ := hr.step htick
    rw [← place_tick htick]
    rcases loadStep hcall with ⟨now', cache, rfl, -, -⟩ | ⟨i, hm⟩
    · cases hturn
    · refine ⟨i, hm.closer (inner hr₁) fun hidle => ?_⟩
      obtain ⟨rfl, -⟩ := hm.begins (inner hr₁) hidle
      cases hturn
  · rintro w ⟨hr, hrest⟩
    exact (inner hr).settled hrest

/-- Neither a deadlock nor a livelock, through all layers of a load. -/
structure LoadsSettle (w : LoadWorld env keys) : Prop where
  /-- As long as a load is under way, one can go on, without any being dropped. -/
  goesOn : ∀ i, (w.cache.calls i).atRest = false → ∃ j, LoadGoesOn w j
  /-- Whatever loads do, and whichever are dropped, they come to an end. -/
  ends : (loadSettleMachine env keys).Inevitable LoadSettled w

/-- **All loads of a provider end**, in any order of their steps, whatever the endpoints
answer and however long the vault is. -/
theorem loads_settle (h : (loadMachine env keys).Reachable w) : LoadsSettle w where
  goesOn _ hi := (inner h).progress hi
  ends := loads_inevitable h

/-- One load is inside its fetch and logs in, and another one waits for the cell. -/
theorem loads_settle_waiting : ∃ w : LoadWorld plainEnv plainKeys,
    w.syncPc 0 = .request .token ∧ (w.fetches 1).active = false ∧
      (w.cache.calls 1).atRest = false ∧ LoadsSettle w := by
  obtain ⟨w, hw, hp⟩ := reachable_of_loads plainEnv plainKeys
    ([.begin 0, .go 0, .go 0, .begin 1, .go 1, .go 1, .go 0, .go 0, .create 0 (.ok ())] ++
      List.replicate 6 (.sync 0 .go))
    (fun w => w.syncPc 0 == .request .token && !(w.fetches 1).active && !(w.cache.calls 1).atRest)
    (by decide)
  simp only [Bool.and_eq_true, Bool.not_eq_true', beq_iff_eq] at hp
  exact ⟨w, hp.1.1, hp.1.2, hp.2, loads_settle hw⟩

end Keyring.Bitwarden
