/-
Which tokens are presented.

Between the freshness check and the read of the token the others may do anything, so the
token that is read need not be the one that was checked.  It is a usable one all the same: a
call has seen the published token fresh before it reads for the first time, or has published
one itself, and from there on a token that is published is that one, or has been published
since.  A recovery does not check again, and need not.
-/
import Keyring.Proofs.Bitwarden.Session.Calls

namespace Keyring.Bitwarden

variable {env : Env} {i j : CallId} {now : Instant} {s s' : BitwardenSession env}
  {pc pc' : Pc} {input : Input env.Body} {events tr : List Event} {w₀ v w w' : World env}
  {t : String}

/-! ### What is usable -/

/-- The published token does not expire within the renewal window. -/
def Auth.freshAt (auth : Auth) (now : Instant) : Prop :=
  ∃ exp, auth.exp = some exp ∧ now + tokenRenewalWindow < exp

theorem freshAt_of_not_stale {auth : Auth} {limit : Instant}
    (h : auth.stale limit now = some false) : auth.freshAt now := by
  unfold Auth.stale at h
  split at h
  · exact absurd h (by simp)
  · rename_i exp hexp
    obtain ⟨t, ht, hle⟩ := Option.map_eq_some_iff.mp h
    obtain ⟨-, rfl⟩ := checkedAdd_eq_some.mp ht
    exact ⟨exp, hexp, Nat.lt_of_not_le (of_decide_eq_false hle)⟩

/-- Some login has published the token since `w₀`. -/
def PublishedSince (w₀ w : World env) (t : String) : Prop :=
  ∃ news j exp, w.log = w₀.log ++ news ∧ (j, .published t exp) ∈ news

/-- Some time between two states, the token was published, and fresh or new. -/
def UsableSince (w₀ w : World env) (t : String) : Prop :=
  ∃ v, (sessionMachine env).Leads w₀ v ∧ (sessionMachine env).Leads v w ∧
    v.session.state.value.token = some t ∧
      (v.session.state.value.freshAt v.clock ∨ PublishedSince w₀ v t)

theorem UsableSince.leads (h : UsableSince w₀ w t) (hstep : (sessionMachine env).Leads w w') :
    UsableSince w₀ w' t := by
  obtain ⟨v, hv, hw, htoken, husable⟩ := h
  exact ⟨v, hv, hw.trans hstep, htoken, husable⟩

/-- The log only grows. -/
theorem log_grows (h : (sessionMachine env).Leads w w') : ∃ news, w'.log = w.log ++ news := by
  refine h.keeps (I := fun w' => ∃ news, w'.log = w.log ++ news) ?_ ⟨[], (List.append_nil _).symm⟩
  rintro v v' a ⟨news, hnews⟩ hstep
  refine step_keeps (I := fun v => ∃ news, v.log = w.log ++ news) ?_ ?_ ?_ ⟨news, hnews⟩ hstep
  · rintro i input s' pc' events ⟨news, hnews⟩ -
    exact ⟨_, by rw [moved_log, hnews, List.append_assoc]⟩
  · exact fun _ _ h => h
  · exact fun _ h => h

theorem published_moved {exp : Instant} (h : (sessionMachine env).Leads w₀ w)
    (hmem : .published t exp ∈ events) : PublishedSince w₀ (w.moved j s' pc' events) t := by
  obtain ⟨news, hnews⟩ := log_grows h
  refine ⟨news ++ events.map fun e => (j, e), j, exp, ?_, ?_⟩
  · rw [moved_log, hnews, List.append_assoc]
  · exact List.mem_append_right _ (List.mem_map_of_mem hmem)

/-! ### Calls that have seen one -/

/-- Whether a call at this place is past the check, on its way to present a token. -/
def Pc.checked : Pc → Bool
  | .read _ _ | .send _ _ | .rejected _ _ | .invalidate _ _ _ => true
  | .request (.sync _ _) | .ready _ (.sync _ _) _ _ | .bootstrap (.sync _ _) _ _
  | .publish _ (.sync _ _) _ _ => true
  | _ => false

/-- A call gets past the check where the token is fresh, or by publishing one. -/
theorem Move.enters_checked (h : Move env i now s pc input s' pc' events)
    (hpc : pc.checked = false) (hpc' : pc'.checked = true) :
    s'.state.value = s.state.value ∧ s.state.value.freshAt now ∨
      ∃ r exp, s'.state.value.token = some r ∧ .published r exp ∈ events := by
  cases h with
  | fresh hcheck hstale => exact Or.inl ⟨dropGuards_value s pc, freshAt_of_not_stale hstale⟩
  | published => exact Or.inr ⟨_, _, rfl, List.mem_cons_self⟩
  | takeState hawaits hfree =>
      -- taking a lock is on neither side of the check
      cases hawaits with
      | ready caller r exp | publish caller r exp =>
          cases caller with
          | token => cases hpc'
          | sync n t => cases hpc
      | _ => first | cases hpc; done | cases hpc'
  | takeGate hawaits hfree =>
      cases hawaits with
      | token => cases hpc'
      | rejected n t => cases hpc
  | issued | locked | unlocked | bootstrapped =>
      rename Caller => caller
      cases caller with
      | token => cases hpc'
      | sync n t => cases hpc
  | _ => first | cases hpc; done | cases hpc'

/-- What a call presents is the published token. -/
theorem Move.presents (h : Move env i now s pc input s' pc' events) {n : Nat}
    (hmem : .presented n t ∈ events) : s.state.value.token = some t ∧ pc.checked = true := by
  cases h with
  | presented htoken =>
      obtain ⟨rfl, rfl⟩ := Event.presented.inj (List.mem_singleton.mp hmem)
      exact ⟨htoken, rfl⟩
  | @published caller r exp =>
      cases caller <;> simp [Caller.returned] at hmem
  | refused hevents hx => cases hevents <;> simp at hmem
  | cancel hawaits => split at hmem <;> simp at hmem
  | _ => simp at hmem

/-! ### In every run -/

/-- What is known of a call since a state in which it had not begun. -/
structure Presenting (i : CallId) (w₀ w : World env) : Prop where
  leads : (sessionMachine env).Leads w₀ w
  known : (w.calls i).checked = true →
    ∀ t, w.session.state.value.token = some t → UsableSince w₀ w t
  presented : ∀ n t, (i, .presented n t) ∈ w.log → UsableSince w₀ w t

/-- A step that leaves the token, or clears it. -/
theorem token_of_not_published (h : Move env i now s pc input s' pc' events)
    (hquiet : ∀ t exp, s'.state.value.token = some t → .published t exp ∉ events)
    (htoken : s'.state.value.token = some t) : s.state.value.token = some t := by
  rcases h.auth_cases with ⟨hsame, -⟩ | ⟨n, t', -, -, hinv, -⟩ | ⟨caller, r, exp, -, -, hev, hpub⟩
  · exact hsame ▸ htoken
  · rcases invalidate_cases s.state.value t' with ⟨-, hclear⟩ | ⟨-, hsame⟩
    · rw [hinv, hclear] at htoken
      cases htoken
    · rw [hinv, hsame] at htoken
      exact htoken
  · refine absurd ?_ (hquiet r.accessToken exp (by rw [hpub]))
    rw [hev]
    exact List.mem_cons_self

theorem Presenting.moved (hP : Presenting i w₀ w)
    (hstep : (sessionMachine env).Leads w (w.moved j s' pc' events))
    (hm : Move env j w.clock w.session (w.calls j) input s' pc' events) :
    Presenting i w₀ (w.moved j s' pc' events) := by
  have hleads := hP.leads.trans hstep
  refine ⟨hleads, ?_, ?_⟩
  · intro hchecked t htoken
    by_cases hpublished : ∃ exp, .published t exp ∈ events
    · -- the token is new
      obtain ⟨exp, hmem⟩ := hpublished
      exact ⟨_, hleads, Machine.Leads.refl _, htoken, Or.inr (published_moved hP.leads hmem)⟩
    · have hbefore : w.session.state.value.token = some t := by
        refine token_of_not_published hm (fun t' exp ht' hmem => hpublished ?_) htoken
        obtain rfl := Option.some.inj (htoken.symm.trans ht')
        exact ⟨exp, hmem⟩
      rw [moved_calls] at hchecked
      by_cases hij : i = j
      · subst hij
        rw [Function.update_self] at hchecked
        cases hpc : (w.calls i).checked with
        | true => exact (hP.known hpc t hbefore).leads hstep
        | false =>
            rcases hm.enters_checked hpc hchecked with ⟨-, hfresh⟩ | ⟨r, exp, hr, hmem⟩
            · exact ⟨w, hP.leads, hstep, hbefore, Or.inl hfresh⟩
            · obtain rfl := Option.some.inj (htoken.symm.trans hr)
              exact absurd ⟨exp, hmem⟩ hpublished
      · rw [Function.update_of_ne hij] at hchecked
        exact (hP.known hchecked t hbefore).leads hstep
  · intro n t hmem
    rw [moved_log] at hmem
    rcases List.mem_append.mp hmem with hold | hnew
    · exact (hP.presented n t hold).leads hstep
    · obtain ⟨e, he, heq⟩ := List.mem_map.mp hnew
      obtain ⟨rfl, rfl⟩ := Prod.mk.inj heq
      obtain ⟨htoken, hchecked⟩ := hm.presents he
      exact (hP.known hchecked t htoken).leads hstep

theorem Presenting.step {a : Action env.Body} (hP : Presenting i w₀ w)
    (h : w.step a = some w') : Presenting i w₀ w' := by
  have hstep : (sessionMachine env).Leads w w' := (Machine.Leads.refl w).step (a := a) h
  cases a with
  | call j input =>
      obtain ⟨s', pc', events, hm, rfl⟩ := step_call h
      exact hP.moved hstep hm
  | tick now =>
      obtain ⟨-, rfl⟩ := step_tick h
      exact ⟨hP.leads.trans hstep, fun hpc t ht => (hP.known hpc t ht).leads hstep,
        fun n t hmem => (hP.presented n t hmem).leads hstep⟩
  | initOrgs profile =>
      obtain rfl := step_initOrgs h
      exact ⟨hP.leads.trans hstep, fun hpc t ht => (hP.known hpc t ht).leads hstep,
        fun n t hmem => (hP.presented n t hmem).leads hstep⟩

theorem attempt_ne_idle (n : Nat) : Pc.attempt n ≠ .idle := by
  unfold Pc.attempt
  split <;> simp

/-- A call that has not begun has done nothing. -/
theorem trace_of_idle (h : (sessionMachine env).Reachable w) (hidle : w.calls i = .idle) :
    w.trace i = [] := by
  refine call_invariant (P := fun pc tr => pc = .idle → tr = []) (fun _ => rfl) ?_ h i hidle
  intro i now s s' pc pc' input events tr hm _ hpc'
  cases hm with
  | takeState hawaits hfree => cases hawaits <;> cases hpc'
  | takeGate hawaits hfree => cases hawaits <;> cases hpc'
  | failed hx hsome hcode => cases hpc'
  | @published caller r exp =>
      cases caller with
      | token => exact absurd hpc' (attempt_ne_idle 0)
      | sync n t => exact absurd hpc' (attempt_ne_idle (n + 1))
  | replaced hn htoken => exact absurd hpc' (attempt_ne_idle _)
  | _ => cases hpc'

/-- **No call presents a token that was about to expire all along**: since the call began,
the token has been published with time left, or has been published anew. -/
theorem session_presents_fresh (h₀ : (sessionMachine env).Reachable w₀)
    (hidle : w₀.calls i = .idle) (h : (sessionMachine env).Leads w₀ w) {n : Nat} {t : String}
    (hpresented : (i, .presented n t) ∈ w.log) : UsableSince w₀ w t := by
  have hstart : Presenting i w₀ w₀ := by
    refine ⟨Machine.Leads.refl w₀, fun hchecked => ?_, fun n t hmem => ?_⟩
    · rw [hidle] at hchecked
      cases hchecked
    · have htrace := mem_trace.mpr hmem
      rw [trace_of_idle h₀ hidle] at htrace
      cases htrace
  have hP : Presenting i w₀ w :=
    h.keeps (I := Presenting i w₀) (fun hP hstep => hP.step hstep) hstart
  exact hP.presented n t hpresented

/-- A call checks one token, and presents the one that replaces it meanwhile. -/
def Run.replacedMeanwhile : List (Action Reply) :=
  go 1 3 ++ answer 0 .unauthorized ++ go 0 3 ++ login 0 "new" false ++ go 1 2

theorem session_presents_fresh_replaced : ∃ w₀ w : World plainEnv,
    w₀.session.state.value.token = some "old" ∧ (1, .presented 0 "new") ∈ w.log ∧
      UsableSince w₀ w "new" := by
  obtain ⟨w₀, h₀, hp⟩ := reachable_of_run plainEnv (Run.firstSync 0 "old")
    (fun w₀ => w₀.calls 1 == .idle && w₀.session.state.value.token == some "old" &&
      (Machine.exec World.step w₀ Run.replacedMeanwhile).any fun w =>
        w.log.contains (1, .presented 0 "new")) (by decide)
  simp only [Bool.and_eq_true, beq_iff_eq] at hp
  obtain ⟨⟨hidle, htoken⟩, hrest⟩ := hp
  obtain ⟨w, hw, hpresented⟩ := (Option.any_eq_true _ _).mp hrest
  have hmem : (1, .presented 0 "new") ∈ w.log := List.contains_iff_mem.mp hpresented
  exact ⟨w₀, w, htoken, hmem,
    session_presents_fresh h₀ hidle (Machine.leads_of_exec Run.replacedMeanwhile hw) hmem⟩

end Keyring.Bitwarden
