/-
Logins come one at a time, and only where one is needed.

A login is entered with the gate, and the gate is kept until it is over, so nobody else
can publish or invalidate in the meantime: what was found when it was decided still holds
when it publishes.  For the history this means that between two publications the first
token was either rejected or had become stale, and for a group of calls rejected on one
token it means one login for all of them, as long as logins succeed and their tokens
last.
-/
import Keyring.Proofs.Bitwarden.Session.Calls
import Keyring.Proofs.Bitwarden.Session.Publication

namespace Keyring.Bitwarden

variable {env : Env} {i j : CallId} {now : Instant} {s s' : BitwardenSession env}
  {pc pc' : Pc} {input : Input env.Body} {events : List Event} {w w' : World env}

/-! ### One at a time -/

/-- At most one login is in progress. -/
theorem login_unique (h : (sessionMachine env).Reachable w) (hi : (w.calls i).inLogin = true)
    (hj : (w.calls j).inLogin = true) : i = j :=
  gate_unique h (holdsGate_of_inLogin hi) (holdsGate_of_inLogin hj)

/-- Nobody else writes the authentication state while a login is in progress. -/
theorem auth_frozen (h : (sessionMachine env).Reachable w) (hi : (w.calls i).inLogin = true)
    {a : Action env.Body} (ha : ∀ input, a ≠ .call i input) (hstep : w.step a = some w') :
    w'.session.state.value = w.session.state.value := by
  have hgate := holdsGate_of_inLogin hi
  cases a with
  | tick now =>
      obtain ⟨-, rfl⟩ := step_tick hstep
      rfl
  | initOrgs profile =>
      obtain rfl := step_initOrgs hstep
      rfl
  | call j input =>
      obtain ⟨s', pc', events, hm, rfl⟩ := step_call hstep
      have hji : ¬(w.calls j).holdsGate = true := by
        intro hj
        obtain rfl := gate_unique h hj hgate
        exact ha input rfl
      rcases hm.auth_cases with ⟨hsame, -⟩ | ⟨n, t, hpc, -⟩ | ⟨caller, r, exp, hpc, -⟩
      · exact hsame
      · exact absurd (by rw [hpc]; rfl) hji
      · exact absurd (by rw [hpc]; rfl) hji

/-! ### What a publication replaces -/

/-- The entry of the log is a publication. -/
def IsPublished (x : CallId × Event) : Prop := ∃ t exp, x.2 = .published t exp

/-- A login of `j` may replace the token `t`: it has been rejected, or it was stale when
the login began. -/
def Replaceable (log mid : List (CallId × Event)) (j : CallId) (t : String) (exp : Instant) :
    Prop :=
  (∃ k n, (k, .rejected n t) ∈ log) ∨
    ∃ now, (j, .loginBegan now) ∈ mid ∧ exp ≤ now + tokenRenewalWindow

/-- What the log says about the published token, and about the login in progress. -/
structure LoginInv (w : World env) : Prop where
  last : ∀ pre i t exp mid, History.SinceLast IsPublished w.log pre (i, .published t exp) mid →
    w.session.state.value.token = some t ∧ w.session.state.value.exp = some exp ∨
      w.session.state.value.token = none ∧ ∃ k n, (k, .rejected n t) ∈ w.log
  deciding : ∀ pre i t exp mid,
    History.SinceLast IsPublished w.log pre (i, .published t exp) mid →
      ∀ j, (w.calls j).inLogin = true → Replaceable w.log mid j t exp
  pairs : ∀ pre i t exp mid j t' exp' post,
    w.log = pre ++ (i, .published t exp) :: mid ++ (j, .published t' exp') :: post →
      (∀ x ∈ mid, ¬IsPublished x) → Replaceable (pre ++ mid) mid j t exp

theorem Quiet.entries (h : Quiet events) :
    ∀ x ∈ events.map fun e => (i, e), ¬IsPublished x := by
  intro x hx hpub
  obtain ⟨e, he, rfl⟩ := List.mem_map.mp hx
  obtain ⟨t, exp, rfl⟩ := hpub
  exact h t exp he

theorem returned_quiet (caller : Caller) : Quiet caller.returned := by
  intro t exp hmem
  cases caller <;> exact absurd hmem (by simp [Caller.returned])

/-- What a call is recovering from is in the log. -/
theorem rejected_of_handles (h : (sessionMachine env).Reachable w) {n : Nat} {t : String}
    (hh : (w.calls i).handles = some (n, t)) : (i, .rejected n t) ∈ w.log :=
  mem_trace.mp ((callHistory h i).handled n t hh)

/-- An invalidation that finds the token takes one that was rejected. -/
theorem token_after (hr : (sessionMachine env).Reachable w)
    (hm : Move env i w.clock w.session (w.calls i) input s' pc' events) (hquiet : Quiet events)
    {t : String} {exp : Instant} (ht : w.session.state.value.token = some t)
    (hexp : w.session.state.value.exp = some exp) :
    s'.state.value.token = some t ∧ s'.state.value.exp = some exp ∨
      s'.state.value.token = none ∧ ∃ k n, (k, .rejected n t) ∈ w.log := by
  rcases hm.auth_cases with ⟨hsame, -⟩ | ⟨n, u, hpc, -, hinv, -⟩ | ⟨caller, r, e, -, -, hev, -⟩
  · rw [hsame]
    exact Or.inl ⟨ht, hexp⟩
  · rcases invalidate_cases w.session.state.value u with ⟨hu, hclear⟩ | ⟨-, hsame⟩
    · obtain rfl : t = u := Option.some.inj (ht.symm.trans hu)
      rw [hinv, hclear]
      exact Or.inr ⟨rfl, i, n, rejected_of_handles hr (by rw [hpc]; rfl)⟩
    · rw [hinv, hsame]
      exact Or.inl ⟨ht, hexp⟩
  · exact absurd (by rw [hev]; exact List.mem_cons_self) (hquiet r.accessToken e)

/-- No token appears without a publication. -/
theorem token_none_after (hm : Move env i now s pc input s' pc' events)
    (hquiet : Quiet events) (ht : s.state.value.token = none) :
    s'.state.value.token = none := by
  rcases hm.auth_cases with ⟨hsame, -⟩ | ⟨n, u, -, -, hinv, -⟩ | ⟨caller, r, e, -, -, hev, -⟩
  · rw [hsame]
    exact ht
  · rcases invalidate_cases s.state.value u with ⟨-, hclear⟩ | ⟨-, hsame⟩
    · rw [hinv, hclear]
    · rw [hinv, hsame]
      exact ht
  · exact absurd (by rw [hev]; exact List.mem_cons_self) (hquiet r.accessToken e)

/-- Either a step publishes nothing, or it is the publication of a login. -/
theorem Move.quiet_or (h : Move env i now s pc input s' pc' events) :
    Quiet events ∨ ∃ caller r exp, pc = .publish true caller r exp ∧ pc' = .resume caller ∧
      events = .published r.accessToken exp :: caller.returned ∧
      s'.state.value = ⟨some r.accessToken, some exp, true⟩ := by
  rcases h.auth_cases with ⟨-, hquiet⟩ | ⟨n, t, -, -, -, hquiet⟩ | hpub
  · exact Or.inl hquiet
  · exact Or.inl hquiet
  · exact Or.inr hpub

/-- Outside a login nothing is published. -/
theorem Move.quiet_of_not_inLogin (h : Move env i now s pc input s' pc' events)
    (hout : pc.inLogin = false) : Quiet events := by
  rcases h.quiet_or with hquiet | ⟨caller, r, exp, hpc, -⟩
  · exact hquiet
  · rw [hpc] at hout
    exact absurd hout (by simp [Pc.inLogin])

theorem LoginInv.last_moved (hr : (sessionMachine env).Reachable w) (hI : LoginInv w)
    (hm : Move env i w.clock w.session (w.calls i) input s' pc' events)
    (hquiet : Quiet events) {pre mid : List (CallId × Event)} {k : CallId} {t : String}
    {exp : Instant}
    (hsince : History.SinceLast IsPublished w.log pre (k, .published t exp) mid) :
    s'.state.value.token = some t ∧ s'.state.value.exp = some exp ∨
      s'.state.value.token = none ∧ ∃ k n, (k, .rejected n t) ∈ w.log := by
  rcases hI.last pre k t exp mid hsince with ⟨ht, hexp⟩ | ⟨hnone, hrejected⟩
  · exact token_after hr hm hquiet ht hexp
  · exact Or.inr ⟨token_none_after hm hquiet hnone, hrejected⟩

/-- Without a publication the invariant passes to the longer log. -/
theorem LoginInv.quiet_moved (hr : (sessionMachine env).Reachable w) (hI : LoginInv w)
    (hm : Move env i w.clock w.session (w.calls i) input s' pc' events)
    (hquiet : Quiet events) : LoginInv (w.moved i s' pc' events) := by
  have hgrow : ∀ {k n t}, (k, Event.rejected n t) ∈ w.log →
      (k, Event.rejected n t) ∈ (w.moved i s' pc' events).log :=
    fun hmem => List.mem_append_left _ hmem
  refine ⟨?_, ?_, ?_⟩
  · intro pre k t exp mid hsince
    obtain ⟨mid', hsince', -⟩ := hsince.of_append (hquiet.entries)
    rcases hI.last_moved hr hm hquiet hsince' with hthere | ⟨hnone, k', n, hrejected⟩
    · exact Or.inl hthere
    · exact Or.inr ⟨hnone, k', n, hgrow hrejected⟩
  · intro pre k t exp mid hsince j hj
    obtain ⟨mid', hsince', rfl⟩ := hsince.of_append (hquiet.entries)
    have hdecided : (w.calls j).inLogin = true →
        Replaceable (w.moved i s' pc' events).log (mid' ++ events.map fun e => (i, e)) j t exp := by
      intro hbefore
      rcases hI.deciding pre k t exp mid' hsince' j hbefore with ⟨k', n, hrej⟩ | ⟨now, hnow, hle⟩
      · exact Or.inl ⟨k', n, hgrow hrej⟩
      · exact Or.inr ⟨now, List.mem_append_left _ hnow, hle⟩
    rw [moved_calls] at hj
    by_cases hji : j = i
    · subst hji
      rw [Function.update_self] at hj
      by_cases hbefore : (w.calls j).inLogin = true
      · exact hdecided hbefore
      · -- the login begins with this step
        obtain ⟨hev, -, hwhy⟩ := hm.begins (by simpa using hbefore) hj
        have hbegan : (j, Event.loginBegan w.clock) ∈ mid' ++ events.map fun e => (j, e) := by
          rw [hev]
          simp
        rcases hI.last_moved hr hm hquiet hsince' with ⟨ht, hexp⟩ | ⟨-, k', n, hrej⟩
        · rcases hwhy with ⟨hsame, hstale⟩ | hnone
          · rw [hsame] at hexp
            rcases stale_eq_true hstale with hnone | ⟨e, he, hle⟩
            · exact absurd (hnone.symm.trans hexp) (by simp)
            · obtain rfl : e = exp := Option.some.inj (he.symm.trans hexp)
              exact Or.inr ⟨w.clock, hbegan, hle⟩
          · exact absurd (hnone.symm.trans ht) (by simp)
        · exact Or.inl ⟨k', n, hgrow hrej⟩
    · rw [Function.update_of_ne hji] at hj
      exact hdecided hj
  · intro pre k t exp mid j t' exp' post hlog hmid
    rcases History.append_split hlog with ⟨later, hlog', -⟩ | ⟨between, -, hnew⟩
    · exact hI.pairs pre k t exp mid j t' exp' later hlog' hmid
    · have hmem : (j, Event.published t' exp') ∈ events.map fun e => (i, e) := by
        rw [hnew]
        simp
      exact absurd ⟨t', exp', rfl⟩ (hquiet.entries _ hmem)

/-- A publication closes the pair that the login in progress had been deciding about. -/
theorem LoginInv.published_moved (hr : (sessionMachine env).Reachable w) (hI : LoginInv w)
    {caller : Caller} {r : BitwardenTokenSuccessResponse} {e : Instant}
    (hpc : w.calls i = .publish true caller r e)
    (hvalue : s'.state.value = ⟨some r.accessToken, some e, true⟩) :
    LoginInv (w.moved i s' (.resume caller)
      (.published r.accessToken e :: caller.returned)) := by
  have hin : (w.calls i).inLogin = true := by rw [hpc]; rfl
  have hlogged : (w.moved i s' (.resume caller) (.published r.accessToken e :: caller.returned)).log =
      w.log ++ (i, .published r.accessToken e) :: caller.returned.map fun e => (i, e) := rfl
  have hrest := (returned_quiet caller).entries (i := i)
  refine ⟨?_, ?_, ?_⟩
  · intro pre k t exp mid hsince
    rw [hlogged] at hsince
    obtain ⟨-, hpub, -⟩ := hsince.of_cons ⟨_, _, rfl⟩ hrest
    obtain ⟨rfl, rfl⟩ := Event.published.inj (Prod.mk.inj hpub).2
    rw [moved_session, hvalue]
    exact Or.inl ⟨rfl, rfl⟩
  · intro pre k t exp mid hsince j hj
    rw [moved_calls] at hj
    by_cases hji : j = i
    · subst hji
      rw [Function.update_self, inLogin_resume] at hj
      exact absurd hj (by simp)
    · rw [Function.update_of_ne hji] at hj
      exact absurd (login_unique hr hj hin) hji
  · intro pre k t exp mid j t' exp' post hlog hmid
    rw [hlogged] at hlog
    rcases History.append_split hlog with ⟨later, hlog', -⟩ | ⟨between, hpre, hnew⟩
    · exact hI.pairs pre k t exp mid j t' exp' later hlog' hmid
    · cases between with
      | cons x rest =>
          -- a second publication in one step
          have hmem : (j, Event.published t' exp') ∈ caller.returned.map fun e => (i, e) := by
            rw [(List.cons.inj hnew).2]
            simp
          exact absurd ⟨t', exp', rfl⟩ (hrest _ hmem)
      | nil =>
          obtain ⟨hpub, -⟩ := List.cons.inj hnew
          obtain ⟨rfl, -⟩ := Prod.mk.inj hpub
          rw [List.append_nil] at hpre
          have hsince : History.SinceLast IsPublished w.log pre (k, .published t exp) mid :=
            ⟨hpre.symm, ⟨t, exp, rfl⟩, hmid⟩
          rcases hI.deciding pre k t exp mid hsince i hin with ⟨k', n, hrej⟩ | hstale
          · refine Or.inl ⟨k', n, ?_⟩
            rw [← hpre] at hrej
            simpa using hrej
          · exact Or.inr hstale

theorem loginInv (h : (sessionMachine env).Reachable w) : LoginInv w := by
  refine session_invariant ?_ ?_ ?_ ?_ h
  · intro clock
    refine ⟨?_, ?_, ?_⟩
    · intro pre i t exp mid hsince
      exact absurd hsince.eq (by simp [World.start])
    · intro pre i t exp mid hsince
      exact absurd hsince.eq (by simp [World.start])
    · intro pre i t exp mid j t' exp' post hlog
      exact absurd hlog (by simp [World.start])
  · intro w i input s' pc' events hr hI hm
    rcases hm.quiet_or with hquiet | ⟨caller, r, exp, hpc, rfl, rfl, hvalue⟩
    · exact hI.quiet_moved hr hm hquiet
    · exact hI.published_moved hr hpc hvalue
  · intro w now _ hI
    exact ⟨hI.last, hI.deciding, hI.pairs⟩
  · intro w profile _ hI
    exact ⟨hI.last, hI.deciding, hI.pairs⟩

/-! ### One login for all of them -/

/-- Every login in `new` succeeds, and what it publishes is never rejected and still far
from its expiry at the end. -/
structure GoodLogins (w : World env) (new : List (CallId × Event)) : Prop where
  succeed : ∀ i, (i, .loginFailed) ∉ new
  accepted : ∀ i t exp, (i, .published t exp) ∈ new → ∀ j n, (j, .rejected n t) ∉ w.log
  longLived : ∀ i t exp, (i, .published t exp) ∈ new → w.clock + tokenRenewalWindow < exp

/-- The logins begun in a part of the log. -/
def loginsBegun (new : List (CallId × Event)) : Nat := new.countP fun x => x.2.isLoginBegan

theorem loginsBegun_append (new : List (CallId × Event)) (i : CallId) (events : List Event) :
    loginsBegun (new ++ events.map fun e => (i, e)) =
      loginsBegun new + events.countP Event.isLoginBegan := by
  unfold loginsBegun
  rw [List.countP_append, List.countP_map]
  rfl

/-- How far the one login has got, in what has happened since `t₀` was the token. -/
inductive Segment (t₀ : String) (w : World env) (new : List (CallId × Event)) : Prop
  | before (hcount : loginsBegun new = 0) (hout : ∀ i, (w.calls i).inLogin = false)
      (htoken : w.session.state.value.token = some t₀ ∨ w.session.state.value.token = none)
      (hrecovered : ∀ i, (i, .recovered) ∈ new → (i, .rejected 0 t₀) ∉ w.log)
  | during (hcount : loginsBegun new = 1) (hin : ∃ i, (w.calls i).inLogin = true)
  | after (hcount : loginsBegun new = 1) (hout : ∀ i, (w.calls i).inLogin = false)
      (hpublished : ∃ i t exp, (i, .published t exp) ∈ new ∧
        w.session.state.value.token = some t ∧ w.session.state.value.exp = some exp)

/-- The events of a step that is not the start of a login contain no start of one. -/
theorem Move.no_loginBegan (h : Move env i now s pc input s' pc' events)
    (hlogin : pc.inLogin = true ∨ pc'.inLogin = false) :
    events.countP Event.isLoginBegan = 0 := by
  cases h with
  | renew hstale => exact absurd hlogin (by simp [Pc.inLogin])
  | retry hn htoken => exact absurd hlogin (by simp [Pc.inLogin])
  | refused hevents hx => cases hevents <;> rfl
  | published => rw [List.countP_cons_of_neg (by simp [Event.isLoginBegan]), (returned_counts _).2]
  | cancel hpc => split <;> rfl
  | _ => rfl

/-- A login is left by failing or by publishing. -/
theorem Move.leaves (h : Move env i now s pc input s' pc' events)
    (hin : pc.inLogin = true) (hout : pc'.inLogin = false) :
    .loginFailed ∈ events ∨ ¬Quiet events := by
  cases h with
  | refused hevents hx => cases hevents <;> exact Or.inl (by simp)
  | bootstrapFailed hinit => exact Or.inl (by simp)
  | published => exact Or.inr fun hquiet => hquiet _ _ List.mem_cons_self
  | cancel hpc =>
      rw [if_pos hin]
      exact Or.inl (by simp)
  | takeState hpc hfree =>
      have hsame : pc'.inLogin = pc.inLogin := by cases hpc <;> rfl
      rw [hsame, hin] at hout
      exact absurd hout (by simp)
  | takeGate hpc hfree => cases hpc <;> exact absurd hin (by simp [Pc.inLogin])
  | overflow hpc hstale => cases hpc <;> exact absurd hin (by simp [Pc.inLogin])
  | fresh hpc hstale => cases hpc <;> exact absurd hin (by simp [Pc.inLogin])
  | issued hx hexp => exact absurd hout (by simp [Pc.inLogin])
  | locked hcrypto => exact absurd hout (by simp [Pc.inLogin])
  | unlocked hcrypto => exact absurd hout (by simp [Pc.inLogin])
  | bootstrapped hinit => exact absurd hout (by simp [Pc.inLogin])
  | _ => exact absurd hin (by simp [Pc.inLogin])

/-- A call recovers without a login of its own where it finds another token. -/
theorem Move.recovers (h : Move env i now s pc input s' pc' events)
    (hmem : .recovered ∈ events) (hout : pc.inLogin = false) :
    ∃ n t t', pc = .invalidate true n t ∧ n ≠ 1 ∧ t ≠ t' ∧ s.state.value.token = some t' := by
  cases h with
  | replaced hn htoken =>
      rename_i n t t'
      rcases invalidate_cases s.state.value t with ⟨-, hclear⟩ | ⟨hne, hsame⟩
      · rw [hclear] at htoken
        exact absurd htoken (by simp)
      · rw [hsame] at htoken
        refine ⟨n, t, t', rfl, hn, ?_, htoken⟩
        rintro rfl
        exact hne htoken
  | published => exact absurd hout (by simp [Pc.inLogin])
  | refused hevents hx => exact absurd hout (by simp [Pc.inLogin])
  | cancel hpc => split at hmem <;> exact absurd hmem (by simp)
  | _ => exact absurd hmem (by simp)

/-- Who is in a login after a step: the same calls as before, the acting one apart. -/
theorem inLogin_moved (hji : j ≠ i) :
    ((w.moved i s' pc' events).calls j).inLogin = (w.calls j).inLogin := by
  rw [moved_calls, Function.update_of_ne hji]

theorem inLogin_moved_self : ((w.moved i s' pc' events).calls i).inLogin = pc'.inLogin := by
  rw [moved_calls, Function.update_self]

/-- Nobody recovers from the rejection of the token while no login has begun. -/
theorem not_recovered_moved {t₀ : String} {new : List (CallId × Event)}
    (hr : (sessionMachine env).Reachable w) (hnew : ∀ x ∈ new, x ∈ w.log)
    (hm : Move env i w.clock w.session (w.calls i) input s' pc' events)
    (hout : (w.calls i).inLogin = false)
    (htoken : w.session.state.value.token = some t₀ ∨ w.session.state.value.token = none)
    (hrecovered : ∀ i, (i, .recovered) ∈ new → (i, .rejected 0 t₀) ∉ w.log) :
    ∀ k, (k, .recovered) ∈ new ++ events.map (fun e => (i, e)) →
      (k, .rejected 0 t₀) ∉ (w.moved i s' pc' events).log := by
  intro k hrec hrej
  rw [moved_log, List.mem_append] at hrej
  rcases List.mem_append.mp hrec with hold | hjust
  · rcases hrej with hrejold | hrejnew
    · exact hrecovered k hold hrejold
    · -- a call that has recovered is past its first attempt
      obtain ⟨e, he, heq⟩ := List.mem_map.mp hrejnew
      obtain ⟨rfl, rfl⟩ := Prod.mk.inj heq
      obtain ⟨hpc, -⟩ := hm.rejected_mem he
      have hpast := (callHistory hr i).resumed (mem_trace.mpr (hnew _ hold))
      rw [hpc] at hpast
      exact absurd hpast (Nat.not_succ_le_zero 0)
  · obtain ⟨e, he, heq⟩ := List.mem_map.mp hjust
    obtain ⟨rfl, rfl⟩ := Prod.mk.inj heq
    obtain ⟨n, t, t', hpc, hn, hne, ht'⟩ := hm.recovers he hout
    have hlt : (w.calls i).Bounded := bounded hr i
    rw [hpc] at hlt
    obtain rfl : n = 0 := by
      have htwo : n < 2 := hlt
      omega
    have hhandled := rejected_of_handles hr (i := i) (n := 0) (t := t) (by rw [hpc]; rfl)
    rcases hrej with hrejold | hrejnew
    · obtain rfl := (callHistory hr i).once 0 t t₀ (mem_trace.mpr hhandled) (mem_trace.mpr hrejold)
      rcases htoken with ht | hnone
      · exact hne (Option.some.inj (ht.symm.trans ht'))
      · exact absurd (hnone.symm.trans ht') (by simp)
    · obtain ⟨e, he', heq'⟩ := List.mem_map.mp hrejnew
      obtain ⟨-, rfl⟩ := Prod.mk.inj heq'
      obtain ⟨hpc', -⟩ := hm.rejected_mem he'
      rw [hpc] at hpc'
      exact absurd hpc' (by simp)

/-- Before the login, a step either is nothing to it or begins it. -/
theorem Segment.before_moved {t₀ : String} {new : List (CallId × Event)}
    (hr : (sessionMachine env).Reachable w) (hnew : ∀ x ∈ new, x ∈ w.log)
    (hm : Move env i w.clock w.session (w.calls i) input s' pc' events)
    (hcount : loginsBegun new = 0) (hout : ∀ i, (w.calls i).inLogin = false)
    (htoken : w.session.state.value.token = some t₀ ∨ w.session.state.value.token = none)
    (hrecovered : ∀ i, (i, .recovered) ∈ new → (i, .rejected 0 t₀) ∉ w.log) :
    Segment t₀ (w.moved i s' pc' events) (new ++ events.map fun e => (i, e)) := by
  by_cases hin : pc'.inLogin = true
  · obtain ⟨rfl, -, -⟩ := hm.begins (hout i) hin
    refine .during ?_ ⟨i, ?_⟩
    · rw [loginsBegun_append, hcount]
      rfl
    · rw [inLogin_moved_self]
      exact hin
  · rw [Bool.not_eq_true] at hin
    have hquiet := hm.quiet_of_not_inLogin (hout i)
    refine .before ?_ ?_ ?_ (not_recovered_moved hr hnew hm (hout i) htoken hrecovered)
    · rw [loginsBegun_append, hcount, hm.no_loginBegan (Or.inr hin)]
    · intro j
      by_cases hji : j = i
      · subst hji
        rw [inLogin_moved_self, hin]
      · rw [inLogin_moved hji, hout j]
    · rw [moved_session]
      rcases htoken with ht | hnone
      · obtain ⟨r, exp, hexp, -⟩ := (authInv hr).paired t₀ ht
        rcases token_after hr hm hquiet ht hexp with ⟨ht', -⟩ | ⟨hnone, -⟩
        · exact Or.inl ht'
        · exact Or.inr hnone
      · exact Or.inr (token_none_after hm hquiet hnone)

/-- During the login, nobody else is in one, and it can only end in a publication. -/
theorem Segment.during_moved {t₀ : String} {new : List (CallId × Event)}
    (hr : (sessionMachine env).Reachable w)
    (hm : Move env i w.clock w.session (w.calls i) input s' pc' events)
    (hgood : GoodLogins (w.moved i s' pc' events) (new ++ events.map fun e => (i, e)))
    (hcount : loginsBegun new = 1) (hin : (w.calls j).inLogin = true) :
    Segment t₀ (w.moved i s' pc' events) (new ++ events.map fun e => (i, e)) := by
  by_cases hji : j = i
  · subst hji
    have hnone := hm.no_loginBegan (Or.inl hin)
    by_cases hstill : pc'.inLogin = true
    · refine .during ?_ ⟨j, ?_⟩
      · rw [loginsBegun_append, hcount, hnone]
      · rw [inLogin_moved_self]
        exact hstill
    · rw [Bool.not_eq_true] at hstill
      rcases hm.quiet_or with hquiet | ⟨caller, r, exp, -, -, hev, hvalue⟩
      · rcases hm.leaves hin hstill with hfailed | hloud
        · exact absurd (List.mem_append_right _ (List.mem_map_of_mem hfailed)) (hgood.succeed j)
        · exact absurd hquiet hloud
      · refine .after ?_ ?_ ⟨j, r.accessToken, exp, ?_, ?_⟩
        · rw [loginsBegun_append, hcount, hnone]
        · intro k
          by_cases hkj : k = j
          · subst hkj
            rw [inLogin_moved_self, hstill]
          · rw [inLogin_moved hkj]
            by_contra hk
            exact hkj (login_unique hr (by simpa using hk) hin)
        · rw [hev]
          simp
        · rw [moved_session, hvalue]
          exact ⟨rfl, rfl⟩
  · -- another call's step leaves the login alone
    have hnotGate : ¬(w.calls i).holdsGate = true :=
      fun hi => hji (gate_unique hr (holdsGate_of_inLogin hin) hi)
    have hnone : events.countP Event.isLoginBegan = 0 := by
      by_cases hbegin : pc'.inLogin = true
      · have hout : (w.calls i).inLogin = false := by
          by_contra hi
          exact hnotGate (holdsGate_of_inLogin (by simpa using hi))
        exact absurd (hm.begins hout hbegin).2.1 hnotGate
      · exact hm.no_loginBegan (Or.inr (by simpa using hbegin))
    refine .during ?_ ⟨j, ?_⟩
    · rw [loginsBegun_append, hcount, hnone]
    · rw [inLogin_moved hji]
      exact hin

/-- After the login its token stays, so no step begins another one. -/
theorem Segment.after_moved {t₀ : String} {new : List (CallId × Event)}
    (hr : (sessionMachine env).Reachable w)
    (hm : Move env i w.clock w.session (w.calls i) input s' pc' events)
    (hgood : GoodLogins (w.moved i s' pc' events) (new ++ events.map fun e => (i, e)))
    (hcount : loginsBegun new = 1) (hout : ∀ i, (w.calls i).inLogin = false)
    {k : CallId} {t : String} {exp : Instant} (hmem : (k, .published t exp) ∈ new)
    (ht : w.session.state.value.token = some t)
    (hexp : w.session.state.value.exp = some exp) :
    Segment t₀ (w.moved i s' pc' events) (new ++ events.map fun e => (i, e)) := by
  have hmem' : (k, Event.published t exp) ∈ new ++ events.map fun e => (i, e) :=
    List.mem_append_left _ hmem
  have hquiet := hm.quiet_of_not_inLogin (hout i)
  have hkept : s'.state.value.token = some t ∧ s'.state.value.exp = some exp := by
    rcases token_after hr hm hquiet ht hexp with hkept | ⟨-, j, n, hrej⟩
    · exact hkept
    · exact absurd (List.mem_append_left _ hrej) (hgood.accepted k t exp hmem' j n)
  have hstill : pc'.inLogin = false := by
    by_contra hbegin
    obtain ⟨-, -, ⟨-, hstale⟩ | hnone⟩ := hm.begins (hout i) (by simpa using hbegin)
    · rcases stale_eq_true hstale with hnone | ⟨e, he, hle⟩
      · exact absurd (hnone.symm.trans hexp) (by simp)
      · obtain rfl : e = exp := Option.some.inj (he.symm.trans hexp)
        exact absurd (hgood.longLived k t e hmem') (Nat.not_lt_of_le hle)
    · exact absurd (hnone.symm.trans hkept.1) (by simp)
  refine .after ?_ ?_ ⟨k, t, exp, hmem', hkept⟩
  · rw [loginsBegun_append, hcount, hm.no_loginBegan (Or.inr hstill)]
  · intro j
    by_cases hji : j = i
    · subst hji
      rw [inLogin_moved_self, hstill]
    · rw [inLogin_moved hji, hout j]

theorem GoodLogins.before {new : List (CallId × Event)}
    (h : GoodLogins (w.moved i s' pc' events) (new ++ events.map fun e => (i, e))) :
    GoodLogins w new where
  succeed j hmem := h.succeed j (List.mem_append_left _ hmem)
  accepted j t exp hmem k n hrej :=
    h.accepted j t exp (List.mem_append_left _ hmem) k n (List.mem_append_left _ hrej)
  longLived j t exp hmem := h.longLived j t exp (List.mem_append_left _ hmem)

theorem Segment.moved {t₀ : String} {new : List (CallId × Event)}
    (hr : (sessionMachine env).Reachable w) (hnew : ∀ x ∈ new, x ∈ w.log)
    (hseg : Segment t₀ w new)
    (hm : Move env i w.clock w.session (w.calls i) input s' pc' events)
    (hgood : GoodLogins (w.moved i s' pc' events) (new ++ events.map fun e => (i, e))) :
    Segment t₀ (w.moved i s' pc' events) (new ++ events.map fun e => (i, e)) := by
  cases hseg with
  | before hcount hout htoken hrecovered =>
      exact .before_moved hr hnew hm hcount hout htoken hrecovered
  | during hcount hin =>
      obtain ⟨j, hj⟩ := hin
      exact .during_moved hr hm hgood hcount hj
  | after hcount hout hpublished =>
      obtain ⟨k, t, exp, hmem, ht, hexp⟩ := hpublished
      exact .after_moved hr hm hgood hcount hout hmem ht hexp

theorem Segment.congr {t₀ : String} {new : List (CallId × Event)} (hseg : Segment t₀ w new)
    (hcalls : w'.calls = w.calls) (hlog : w'.log = w.log)
    (hvalue : w'.session.state.value = w.session.state.value) : Segment t₀ w' new := by
  cases hseg with
  | before hcount hout htoken hrecovered =>
      exact .before hcount (by rw [hcalls]; exact hout) (by rw [hvalue]; exact htoken)
        (by rw [hlog]; exact hrecovered)
  | during hcount hin => exact .during hcount (by rw [hcalls]; exact hin)
  | after hcount hout hpublished =>
      exact .after hcount (by rw [hcalls]; exact hout) (by rw [hvalue]; exact hpublished)

/-- **As long as its tokens last, there is at most one login after a token was published.** -/
theorem segment {t₀ : String} (hr : (sessionMachine env).Reachable w)
    (hl : (sessionMachine env).Leads w w') (hout : ∀ i, (w.calls i).inLogin = false)
    (ht : w.session.state.value.token = some t₀) :
    ∃ new, w'.log = w.log ++ new ∧ (GoodLogins w' new → Segment t₀ w' new) := by
  have hboth : (sessionMachine env).Reachable w' ∧
      ∃ new, w'.log = w.log ++ new ∧ (GoodLogins w' new → Segment t₀ w' new) := by
    refine hl.keeps (I := fun w' => (sessionMachine env).Reachable w' ∧
      ∃ new, w'.log = w.log ++ new ∧ (GoodLogins w' new → Segment t₀ w' new)) ?_ ?_
    · intro u u' a ⟨hru, new, hlog, hseg⟩ hstep
      refine ⟨hru.step hstep, ?_⟩
      cases a with
      | call i input =>
          obtain ⟨s', pc', events, hm, rfl⟩ := step_call hstep
          refine ⟨new ++ events.map fun e => (i, e), ?_, fun hgood => ?_⟩
          · rw [moved_log, hlog, List.append_assoc]
          · refine Segment.moved hru ?_ (hseg hgood.before) hm hgood
            intro x hx
            rw [hlog]
            exact List.mem_append_right _ hx
      | tick now =>
          obtain ⟨hle, rfl⟩ := step_tick hstep
          refine ⟨new, hlog, fun hgood => (hseg ⟨hgood.succeed, hgood.accepted, ?_⟩).congr rfl rfl rfl⟩
          intro i t exp hmem
          have hlong : now + tokenRenewalWindow < exp := hgood.longLived i t exp hmem
          exact Nat.lt_of_le_of_lt (Nat.add_le_add_right hle _) hlong
      | initOrgs profile =>
          obtain rfl := step_initOrgs hstep
          exact ⟨new, hlog, fun hgood =>
            (hseg ⟨hgood.succeed, hgood.accepted, hgood.longLived⟩).congr rfl rfl rfl⟩
    · refine ⟨hr, [], (List.append_nil _).symm, fun _ => ?_⟩
      exact .before rfl hout (Or.inl ht) fun i hmem => absurd hmem List.not_mem_nil
  exact hboth.2

/-! ### In every run -/

/-- What holds of the logins in every reachable state. -/
structure SingleFlight (w : World env) : Prop where
  /-- At most one login is in progress. -/
  alone : ∀ i j, (w.calls i).inLogin = true → (w.calls j).inLogin = true → i = j
  /-- A login begins with the published token absent or stale. -/
  begins : ∀ i input w', w.step (.call i input) = some w' → (w.calls i).inLogin = false →
    (w'.calls i).inLogin = true → w'.session.state.value.token = none ∨
      ∃ exp, w'.session.state.value.exp = some exp ∧ exp ≤ w.clock + tokenRenewalWindow
  /-- While it is in progress, only its own steps touch the authentication state. -/
  frozen : ∀ i a w', (w.calls i).inLogin = true → (∀ input, a ≠ .call i input) →
    w.step a = some w' → w'.session.state.value = w.session.state.value
  /-- Of two consecutive publications, the first token was rejected before the second, or
  was stale when the login of the second began. -/
  replaces : ∀ pre i t exp mid j t' exp' post,
    w.log = pre ++ (i, .published t exp) :: mid ++ (j, .published t' exp') :: post →
      (∀ k t exp, (k, .published t exp) ∉ mid) →
        (∃ k n, (k, .rejected n t) ∈ pre ++ mid) ∨
          ∃ now, (j, .loginBegan now) ∈ mid ∧ exp ≤ now + tokenRenewalWindow
  /-- After a token was published, at most one login begins as long as logins succeed with
  long-lived tokens the server accepts; and one does, if a call has recovered from the
  rejection of the token. -/
  once : ∀ w' new t, (sessionMachine env).Leads w w' → w'.log = w.log ++ new →
    (∀ i, (w.calls i).inLogin = false) → w.session.state.value.token = some t →
      GoodLogins w' new → loginsBegun new ≤ 1 ∧
        ∀ i, (i, .rejected 0 t) ∈ new → (i, .recovered) ∈ new → loginsBegun new = 1

theorem begins_absent_or_stale (hr : (sessionMachine env).Reachable w)
    (hstep : w.step (.call i input) = some w') (hout : (w.calls i).inLogin = false)
    (hin : (w'.calls i).inLogin = true) : w'.session.state.value.token = none ∨
      ∃ exp, w'.session.state.value.exp = some exp ∧ exp ≤ w.clock + tokenRenewalWindow := by
  have hI := authInv (hr.step hstep)
  obtain ⟨s', pc', events, hm, rfl⟩ := step_call hstep
  rw [inLogin_moved_self] at hin
  obtain ⟨-, -, ⟨hsame, hstale⟩ | hnone⟩ := hm.begins hout hin
  · rw [← hsame] at hstale
    rcases stale_eq_true hstale with hnone | hsome
    · refine Or.inl ?_
      by_contra htoken
      obtain ⟨t, ht⟩ := Option.ne_none_iff_exists'.mp htoken
      obtain ⟨r, exp, hexp, -⟩ := hI.paired t ht
      exact absurd (hnone.symm.trans hexp) (by simp)
    · exact Or.inr hsome
  · exact Or.inl hnone

theorem once_of_good {t : String} {new : List (CallId × Event)}
    (hr : (sessionMachine env).Reachable w) (hl : (sessionMachine env).Leads w w')
    (hlog : w'.log = w.log ++ new) (hout : ∀ i, (w.calls i).inLogin = false)
    (ht : w.session.state.value.token = some t) (hgood : GoodLogins w' new) :
    loginsBegun new ≤ 1 ∧
      ∀ i, (i, .rejected 0 t) ∈ new → (i, .recovered) ∈ new → loginsBegun new = 1 := by
  obtain ⟨new', hlog', hseg⟩ := segment hr hl hout ht
  obtain rfl : new' = new := List.append_cancel_left (hlog'.symm.trans hlog)
  cases hseg hgood with
  | before hcount _ _ hrecovered =>
      refine ⟨by omega, fun i hrej hrec => ?_⟩
      have hmem : (i, Event.rejected 0 t) ∈ w'.log := by
        rw [hlog]
        exact List.mem_append_right _ hrej
      exact absurd hmem (hrecovered i hrec)
  | during hcount _ => exact ⟨by omega, fun _ _ _ => hcount⟩
  | after hcount _ _ => exact ⟨by omega, fun _ _ _ => hcount⟩

/-- **Logins are a single flight**, in every history of a session. -/
theorem session_singleFlight (h : (sessionMachine env).Reachable w) : SingleFlight w where
  alone _ _ hi hj := login_unique h hi hj
  begins _ _ _ hstep hout hin := begins_absent_or_stale h hstep hout hin
  frozen _ _ _ hi ha hstep := auth_frozen h hi ha hstep
  replaces pre i t exp mid j t' exp' post hlog hmid := by
    refine (loginInv h).pairs pre i t exp mid j t' exp' post hlog ?_
    rintro ⟨k, e⟩ hx ⟨u, exp, rfl⟩
    exact hmid k u exp hx
  once _ _ _ hl hlog hout ht hgood := once_of_good h hl hlog hout ht hgood

/-- Two calls are rejected on one token, and one of them is logging in. -/
theorem session_singleFlight_rejected : ∃ w : World plainEnv,
    w.calls 0 = .request (.sync 0 "old") ∧ w.calls 1 = .rejected 0 "old" ∧ SingleFlight w := by
  obtain ⟨w, hr, hp⟩ := reachable_of_run plainEnv
    (Run.firstSync 0 "old" ++ Run.go 1 5 ++ Run.answer 0 .unauthorized ++
      Run.answer 1 .unauthorized ++ Run.go 0 3)
    (fun w => w.calls 0 == .request (.sync 0 "old") && w.calls 1 == .rejected 0 "old")
    (by decide)
  have hp' := Bool.and_eq_true_iff.mp hp
  exact ⟨w, beq_iff_eq.mp hp'.1, beq_iff_eq.mp hp'.2, session_singleFlight hr⟩

end Keyring.Bitwarden
