/-
What one call does, whatever the others do.

The events of a call are fixed by its own steps, and an invariant that relates them to
the place the call has reached is proved over the moves alone (`call_invariant`).  It
gives the bounds of the retry loop: two requests, two logins, a second request only after
a rejected first one and a recovery, and no way past the end of the loop.
-/
import Keyring.Lib.History
import Keyring.Proofs.Bitwarden.Session.Locks

namespace Keyring.Bitwarden

variable {env : Env} {i j : CallId} {now : Instant} {s s' : BitwardenSession env}
  {pc pc' : Pc} {input : Input env.Body} {events tr : List Event} {w w' : World env}

/-- The events of one call. -/
def World.trace (w : World env) (i : CallId) : List Event := History.of i w.log

theorem mem_trace {e : Event} : e ∈ w.trace i ↔ (i, e) ∈ w.log := History.mem_of

/-- **What relates a call's place to its events, and is kept by its own moves, holds of
every call in every run.** -/
theorem call_invariant {P : Pc → List Event → Prop} (hstart : P .idle [])
    (hmove : ∀ {i now s s' pc pc' input events tr},
      Move env i now s pc input s' pc' events → P pc tr → P pc' (tr ++ events))
    (h : (sessionMachine env).Reachable w) (i : CallId) : P (w.calls i) (w.trace i) := by
  refine session_invariant (I := fun w => ∀ i, P (w.calls i) (w.trace i)) ?_ ?_ ?_ ?_ h i
  · intro clock i
    exact hstart
  · intro w i input s' pc' events _ hI hm j
    unfold World.trace
    rw [moved_calls, moved_log]
    by_cases hji : j = i
    · subst hji
      rw [Function.update_self, History.of_append_self]
      exact hmove hm (hI j)
    · rw [Function.update_of_ne hji, History.of_append_ne hji]
      exact hI j
  · intro w now _ hI
    exact hI
  · intro w profile _ hI
    exact hI

/-! ### The attempts -/

/-- A recovery belongs to the first attempt. -/
def Caller.Bounded : Caller → Prop
  | .token => True
  | .sync n _ => n = 0

/-- There are two attempts, and no end of the loop. -/
def Pc.Bounded : Pc → Prop
  | .read _ n | .send n _ | .rejected n _ | .invalidate _ n _ => n < 2
  | .request caller | .ready _ caller _ _ | .bootstrap caller _ _ | .publish _ caller _ _ =>
      caller.Bounded
  | .panicked panic => panic ≠ .unreachable
  | _ => True

theorem resume_of_bounded {caller : Caller} (h : caller.Bounded) :
    Pc.resume caller = .read false 0 ∨
      (∃ t, caller = .sync 0 t) ∧ Pc.resume caller = .read false 1 := by
  cases caller with
  | token => exact Or.inl rfl
  | sync n t =>
      obtain rfl : n = 0 := h
      exact Or.inr ⟨⟨t, rfl⟩, rfl⟩

theorem AwaitsState.bounded (h : AwaitsState pc pc') (hb : pc.Bounded) : pc'.Bounded := by
  cases h <;> exact hb

theorem AwaitsGate.bounded (h : AwaitsGate pc pc') (hb : pc.Bounded) : pc'.Bounded := by
  cases h <;> exact hb

theorem Move.bounded (h : Move env i now s pc input s' pc' events) (hb : pc.Bounded) :
    pc'.Bounded := by
  cases h with
  | takeState hpc hfree => exact hpc.bounded hb
  | takeGate hpc hfree => exact hpc.bounded hb
  | overflow hpc hstale => exact fun hc => absurd hc (by simp)
  | fresh hpc hstale => exact Nat.zero_lt_two
  | published =>
      rcases resume_of_bounded hb with hresume | ⟨-, hresume⟩ <;> rw [hresume]
      · exact Nat.zero_lt_two
      · exact Nat.one_lt_two
  | presented htoken => exact hb
  | rejected => exact hb
  | issued hx hexp => exact hb
  | locked hcrypto => exact hb
  | unlocked hcrypto => exact hb
  | bootstrapped hinit => exact hb
  | retry hn htoken =>
      rename_i n t
      have hlt : n < 2 := hb
      show n = 0
      omega
  | replaced hn htoken =>
      rename_i n t t'
      have hlt : n < 2 := hb
      obtain rfl : n = 0 := by omega
      exact Nat.one_lt_two
  | _ => trivial

theorem bounded (h : (sessionMachine env).Reachable w) (i : CallId) : (w.calls i).Bounded :=
  call_invariant (P := fun pc _ => pc.Bounded) trivial (fun hm hb => hm.bounded hb) h i

/-! ### Requests and logins -/

def Event.isPresented : Event → Bool
  | .presented _ _ => true
  | _ => false

def Event.isLoginBegan : Event → Bool
  | .loginBegan _ => true
  | _ => false

/-- Requests made before a login that this caller asked for. -/
def Caller.requests : Caller → Nat
  | .token => 0
  | .sync n _ => n + 1

/-- How many requests a call at this place can have made. -/
def Pc.requests : Pc → Nat
  | .idle | .stale _ | .gate | .restale _ => 0
  | .request caller | .ready _ caller _ _ | .bootstrap caller _ _ | .publish _ caller _ _ =>
      caller.requests
  | .read _ n => n
  | .send n _ | .rejected n _ | .invalidate _ n _ => n + 1
  | .body | .done _ | .cancelled | .panicked _ => 2

/-- How many logins a call at this place can have begun. -/
def Pc.logins : Pc → Nat
  | .idle | .stale _ | .gate | .restale _ => 0
  | .request caller | .ready _ caller _ _ | .bootstrap caller _ _ | .publish _ caller _ _ =>
      caller.requests + 1
  | .read _ n | .send n _ | .rejected n _ | .invalidate _ n _ => n + 1
  | .body | .done _ | .cancelled | .panicked _ => 2

/-- The first attempt whose rejection a call at this place can still be told. -/
def Pc.nextAttempt : Pc → Nat
  | .idle | .stale _ | .gate | .restale _ => 0
  | .request caller | .ready _ caller _ _ | .bootstrap caller _ _ | .publish _ caller _ _ =>
      caller.requests
  | .read _ n | .send n _ => n
  | .rejected n _ | .invalidate _ n _ => n + 1
  | .body | .done _ | .cancelled | .panicked _ => 2

def Caller.handles : Caller → Option (Nat × String)
  | .token => none
  | .sync n t => some (n, t)

/-- The attempt and the rejected token a call at this place is recovering from. -/
def Pc.handles : Pc → Option (Nat × String)
  | .rejected n t | .invalidate _ n t => some (n, t)
  | .request caller | .ready _ caller _ _ | .bootstrap caller _ _ | .publish _ caller _ _ =>
      caller.handles
  | _ => none

/-- Whether a call at this place is making its second attempt. -/
def Pc.onSecond : Pc → Bool
  | .read _ n | .send n _ | .rejected n _ | .invalidate _ n _ => n = 1
  | _ => false

theorem AwaitsState.counts (h : AwaitsState pc pc') :
    pc'.requests = pc.requests ∧ pc'.logins = pc.logins ∧ pc'.nextAttempt = pc.nextAttempt ∧
      pc'.handles = pc.handles ∧ pc'.onSecond = pc.onSecond := by
  cases h <;> exact ⟨rfl, rfl, rfl, rfl, rfl⟩

theorem AwaitsGate.counts (h : AwaitsGate pc pc') :
    pc'.requests = pc.requests ∧ pc'.logins = pc.logins ∧ pc'.nextAttempt = pc.nextAttempt ∧
      pc'.handles = pc.handles ∧ pc'.onSecond = pc.onSecond := by
  cases h <;> exact ⟨rfl, rfl, rfl, rfl, rfl⟩

theorem Caller.Bounded.requests_le {caller : Caller} (h : caller.Bounded) :
    caller.requests ≤ 1 := by
  cases caller with
  | token => exact Nat.zero_le 1
  | sync n t =>
      obtain rfl : n = 0 := h
      exact Nat.le_refl 1

theorem Pc.Bounded.requests_le (h : pc.Bounded) : pc.requests ≤ 2 := by
  cases pc with
  | request caller | ready held caller r exp | bootstrap caller r exp
  | publish held caller r exp => exact Nat.le_succ_of_le (Caller.Bounded.requests_le h)
  | read held n => exact Nat.le_of_lt h
  | send n t | rejected n t | invalidate held n t => exact Nat.succ_le_of_lt h
  | _ => simp [Pc.requests]

theorem Pc.Bounded.logins_le (h : pc.Bounded) : pc.logins ≤ 2 := by
  cases pc with
  | request caller | ready held caller r exp | bootstrap caller r exp
  | publish held caller r exp => exact Nat.succ_le_succ (Caller.Bounded.requests_le h)
  | read held n | send n t | rejected n t | invalidate held n t => exact Nat.succ_le_of_lt h
  | _ => simp [Pc.logins]

theorem Pc.Bounded.nextAttempt_le (h : pc.Bounded) : pc.nextAttempt ≤ 2 := by
  cases pc with
  | request caller | ready held caller r exp | bootstrap caller r exp
  | publish held caller r exp => exact Nat.le_succ_of_le (Caller.Bounded.requests_le h)
  | read held n | send n t => exact Nat.le_of_lt h
  | rejected n t | invalidate held n t => exact Nat.succ_le_of_lt h
  | _ => simp [Pc.nextAttempt]

/-- The next attempt begins with the requests, and its login, counted. -/
theorem Caller.Bounded.resume_counts {caller : Caller} (h : caller.Bounded) :
    (Pc.resume caller).requests = caller.requests ∧
      (Pc.resume caller).logins = caller.requests + 1 ∧
      (Pc.resume caller).nextAttempt = caller.requests := by
  cases caller with
  | token => exact ⟨rfl, rfl, rfl⟩
  | sync n t =>
      obtain rfl : n = 0 := h
      exact ⟨rfl, rfl, rfl⟩

theorem returned_counts (caller : Caller) :
    caller.returned.countP Event.isPresented = 0 ∧
      caller.returned.countP Event.isLoginBegan = 0 := by
  cases caller <;> exact ⟨rfl, rfl⟩

/-- A step sends at most the request it counts. -/
theorem Move.requests_le (h : Move env i now s pc input s' pc' events) (hb : pc.Bounded) :
    pc.requests + events.countP Event.isPresented ≤ pc'.requests := by
  have htwo := hb.requests_le
  cases h with
  | takeState hpc hfree => exact Nat.le_of_eq hpc.counts.1.symm
  | takeGate hpc hfree => exact Nat.le_of_eq hpc.counts.1.symm
  | fresh hpc hstale => cases hpc <;> exact Nat.le_refl 0
  | refused hevents hx => cases hevents <;> exact htwo
  | published =>
      rw [(Caller.Bounded.resume_counts hb).1, List.countP_cons_of_neg (by simp [Event.isPresented]),
        (returned_counts _).1]
      exact Nat.le_refl _
  | replaced hn htoken =>
      rename_i n t t'
      have hlt : n < 2 := hb
      obtain rfl : n = 0 := by omega
      exact Nat.le_refl 1
  | cancel hpc => split <;> exact htwo
  | _ => first | exact Nat.le_refl _ | exact htwo

theorem Move.logins_le (h : Move env i now s pc input s' pc' events) (hb : pc.Bounded) :
    pc.logins + events.countP Event.isLoginBegan ≤ pc'.logins := by
  have htwo := hb.logins_le
  cases h with
  | takeState hpc hfree => exact Nat.le_of_eq hpc.counts.2.1.symm
  | takeGate hpc hfree => exact Nat.le_of_eq hpc.counts.2.1.symm
  | fresh hpc hstale => cases hpc <;> exact Nat.zero_le 1
  | refused hevents hx => cases hevents <;> exact htwo
  | published =>
      rw [(Caller.Bounded.resume_counts hb).2.1,
        List.countP_cons_of_neg (by simp [Event.isLoginBegan]), (returned_counts _).2]
      exact Nat.le_refl _
  | replaced hn htoken =>
      rename_i n t t'
      have hlt : n < 2 := hb
      obtain rfl : n = 0 := by omega
      exact Nat.le_succ 1
  | cancel hpc => split <;> exact htwo
  | _ => first | exact Nat.le_refl _ | exact htwo

/-! ### Rejections and recoveries -/

/-- A first attempt was rejected, and then recovered from. -/
def Recovered (tr : List Event) : Prop :=
  ∃ t pre mid, tr = pre ++ .rejected 0 t :: mid ∧ .recovered ∈ mid

theorem Recovered.append (h : Recovered tr) (new : List Event) : Recovered (tr ++ new) := by
  obtain ⟨t, pre, mid, rfl, hmem⟩ := h
  exact ⟨t, pre, mid ++ new, by simp, List.mem_append_left new hmem⟩

/-- Only the answer to a request is a rejection. -/
theorem Move.rejected_mem {n : Nat} {t : String}
    (h : Move env i now s pc input s' pc' events) (hmem : .rejected n t ∈ events) :
    pc = .send n t ∧ pc' = .rejected n t := by
  cases h with
  | rejected =>
      obtain ⟨rfl, rfl⟩ := by simpa using hmem
      exact ⟨rfl, rfl⟩
  | refused hevents hx => cases hevents <;> exact absurd hmem (by simp)
  | published =>
      rename_i caller r exp
      cases caller <;> exact absurd hmem (by simp [Caller.returned])
  | cancel hpc => split at hmem <;> exact absurd hmem (by simp)
  | _ => exact absurd hmem (by simp)

/-- Only the token read sends a request. -/
theorem Move.presented_mem {n : Nat} {t : String}
    (h : Move env i now s pc input s' pc' events) (hmem : .presented n t ∈ events) :
    pc = .read true n ∧ events = [.presented n t] ∧ s.state.value.token = some t := by
  cases h with
  | presented htoken =>
      obtain ⟨rfl, rfl⟩ := by simpa using hmem
      exact ⟨rfl, rfl, htoken⟩
  | refused hevents hx => cases hevents <;> exact absurd hmem (by simp)
  | published =>
      rename_i caller r exp
      cases caller <;> exact absurd hmem (by simp [Caller.returned])
  | cancel hpc => split at hmem <;> exact absurd hmem (by simp)
  | _ => exact absurd hmem (by simp)

/-- A recovery leads to the second attempt. -/
theorem Move.recovered_mem (h : Move env i now s pc input s' pc' events)
    (hmem : .recovered ∈ events) (hb : pc.Bounded) : 1 ≤ pc'.nextAttempt := by
  cases h with
  | replaced hn htoken =>
      rename_i n t t'
      have hlt : n < 2 := hb
      obtain rfl : n = 0 := by omega
      exact Nat.le_refl 1
  | published =>
      rename_i caller r exp
      cases caller with
      | token => exact absurd hmem (by simp [Caller.returned])
      | sync n t =>
          obtain rfl : n = 0 := hb
          exact Nat.le_refl 1
  | refused hevents hx => cases hevents <;> exact absurd hmem (by simp)
  | cancel hpc => split at hmem <;> exact absurd hmem (by simp)
  | _ => exact absurd hmem (by simp)

/-- The attempt number never goes back. -/
theorem Move.nextAttempt_le (h : Move env i now s pc input s' pc' events) (hb : pc.Bounded) :
    pc.nextAttempt ≤ pc'.nextAttempt := by
  have htwo := hb.nextAttempt_le
  cases h with
  | takeState hpc hfree => exact Nat.le_of_eq hpc.counts.2.2.1.symm
  | takeGate hpc hfree => exact Nat.le_of_eq hpc.counts.2.2.1.symm
  | fresh hpc hstale => cases hpc <;> exact Nat.le_refl 0
  | published => exact Nat.le_of_eq (Caller.Bounded.resume_counts hb).2.2.symm
  | rejected => exact Nat.le_succ _
  | replaced hn htoken =>
      rename_i n t t'
      have hlt : n < 2 := hb
      obtain rfl : n = 0 := by omega
      exact Nat.le_refl 1
  | _ => first | exact Nat.le_refl _ | exact htwo

/-- A recovery begins with the rejection it is about. -/
theorem Move.handles_cases {n : Nat} {t : String}
    (h : Move env i now s pc input s' pc' events) (hb : pc.Bounded)
    (hh : pc'.handles = some (n, t)) :
    pc.handles = some (n, t) ∨ .rejected n t ∈ events := by
  cases h with
  | takeState hpc hfree => exact Or.inl (hpc.counts.2.2.2.1.symm.trans hh)
  | takeGate hpc hfree => exact Or.inl (hpc.counts.2.2.2.1.symm.trans hh)
  | rejected =>
      obtain ⟨rfl, rfl⟩ := by simpa [Pc.handles] using hh
      exact Or.inr (by simp)
  | published =>
      rcases resume_of_bounded hb with hresume | ⟨-, hresume⟩ <;> rw [hresume] at hh
      · exact absurd hh (by simp [Pc.handles])
      · exact absurd hh (by simp [Pc.handles])
  | replaced hn htoken =>
      rename_i m u u'
      have hlt : m < 2 := hb
      obtain rfl : m = 0 := by omega
      exact absurd hh (by simp [Pc.attempt, Pc.handles])
  | issued hx hexp => exact Or.inl hh
  | locked hcrypto => exact Or.inl hh
  | unlocked hcrypto => exact Or.inl hh
  | bootstrapped hinit => exact Or.inl hh
  | retry hn htoken => exact Or.inl hh
  | renew hstale => exact absurd hh (by simp [Pc.handles, Caller.handles])
  | _ => exact absurd hh (by simp [Pc.handles])

/-- A second attempt begins where a recovery ends. -/
theorem Move.second_cases (h : Move env i now s pc input s' pc' events) (hb : pc.Bounded)
    (hs : pc'.onSecond = true) :
    pc.onSecond = true ∨ ∃ t, pc.handles = some (0, t) ∧ .recovered ∈ events := by
  cases h with
  | takeState hpc hfree => exact Or.inl (hpc.counts.2.2.2.2.symm.trans hs)
  | takeGate hpc hfree => exact Or.inl (hpc.counts.2.2.2.2.symm.trans hs)
  | presented htoken => exact Or.inl hs
  | rejected => exact Or.inl hs
  | published =>
      rcases resume_of_bounded hb with hresume | ⟨⟨t, rfl⟩, hresume⟩
      · rw [hresume] at hs
        exact absurd hs (by simp [Pc.onSecond])
      · exact Or.inr ⟨t, rfl, by simp [Caller.returned]⟩
  | replaced hn htoken =>
      rename_i n t t'
      have hlt : n < 2 := hb
      obtain rfl : n = 0 := by omega
      exact Or.inr ⟨t, rfl, by simp⟩
  | _ => exact absurd hs (by simp [Pc.onSecond])

/-- A rejected second attempt is handled until the call gives up or is dropped. -/
theorem Move.handles_last {t : String} (h : Move env i now s pc input s' pc' events)
    (hb : pc.Bounded) (hh : pc.handles = some (1, t)) :
    pc'.handles = some (1, t) ∨ pc' = .cancelled ∨
      pc' = .done (.err (.unauthorized .unauthorized)) := by
  have hlogin : ∀ {caller : Caller}, caller.Bounded → caller.handles ≠ some (1, t) := by
    intro caller hc hsome
    cases caller with
    | token => exact absurd hsome (by simp [Caller.handles])
    | sync n u =>
        obtain rfl : n = 0 := hc
        exact absurd hsome (by simp [Caller.handles])
  cases h with
  | takeState hpc hfree => exact Or.inl (hpc.counts.2.2.2.1.trans hh)
  | takeGate hpc hfree => exact Or.inl (hpc.counts.2.2.2.1.trans hh)
  | givenUp => exact Or.inr (Or.inr rfl)
  | cancel hpc => exact Or.inr (Or.inl rfl)
  | overflow hpc hstale => cases hpc <;> exact absurd hh (by simp [Pc.handles])
  | fresh hpc hstale => cases hpc <;> exact absurd hh (by simp [Pc.handles])
  | retry hn htoken => exact absurd (Prod.mk.inj (Option.some.inj hh)).1 hn
  | replaced hn htoken => exact absurd (Prod.mk.inj (Option.some.inj hh)).1 hn
  | _ => first | exact absurd hh (hlogin hb) | exact absurd hh (by simp [Pc.handles])

/-- Nothing more happens to a call that has ended. -/
theorem Move.not_ended (h : Move env i now s pc input s' pc' events) :
    pc ≠ .cancelled ∧ ∀ outcome, pc ≠ .done outcome := by
  cases h with
  | takeState hpc hfree => cases hpc <;> simp
  | takeGate hpc hfree => cases hpc <;> simp
  | overflow hpc hstale => cases hpc <;> simp
  | fresh hpc hstale => cases hpc <;> simp
  | cancel hpc =>
      constructor
      · rintro rfl
        exact absurd hpc (by simp [Pc.awaits])
      · rintro outcome rfl
        exact absurd hpc (by simp [Pc.awaits])
  | _ => simp

/-- What the place of a call says about its past. -/
structure CallHistory (pc : Pc) (tr : List Event) : Prop where
  bounded : pc.Bounded
  sent : tr.countP Event.isPresented ≤ pc.requests
  logins : tr.countP Event.isLoginBegan ≤ pc.logins
  past : ∀ n t, .rejected n t ∈ tr → n < pc.nextAttempt
  asked : ∀ n t, .presented n t ∈ tr → n ≤ pc.nextAttempt
  once : ∀ n t t', .rejected n t ∈ tr → .rejected n t' ∈ tr → t = t'
  handled : ∀ n t, pc.handles = some (n, t) → .rejected n t ∈ tr
  retried : pc.onSecond = true → Recovered tr
  resumed : .recovered ∈ tr → 1 ≤ pc.nextAttempt
  presented : ∀ pre n t post, tr = pre ++ .presented n t :: post →
    pre.countP Event.isPresented = 0 ∨ Recovered pre
  ended : ∀ t, .rejected 1 t ∈ tr → pc.handles = some (1, t) ∨ pc = .cancelled ∨
    pc = .done (.err (.unauthorized .unauthorized))

theorem CallHistory.start : CallHistory .idle [] where
  bounded := trivial
  sent := Nat.le_refl 0
  logins := Nat.le_refl 0
  past _ _ hmem := absurd hmem List.not_mem_nil
  asked _ _ hmem := absurd hmem List.not_mem_nil
  once _ _ _ hmem := absurd hmem List.not_mem_nil
  handled _ _ hh := absurd hh (by simp [Pc.handles])
  retried hs := absurd hs (by simp [Pc.onSecond])
  resumed hmem := absurd hmem List.not_mem_nil
  presented pre n t post h := absurd h (by simp)
  ended _ hmem := absurd hmem List.not_mem_nil

/-- A rejection is of an attempt that has not been rejected before. -/
theorem CallHistory.fresh {n : Nat} {t t' : String} (hI : CallHistory pc tr)
    (hm : Move env i now s pc input s' pc' events) (hmem : .rejected n t ∈ events) :
    .rejected n t' ∉ tr := by
  obtain ⟨rfl, -⟩ := hm.rejected_mem hmem
  intro hpast
  exact absurd (hI.past n t' hpast) (Nat.lt_irrefl n)

theorem CallHistory.past_moved (hI : CallHistory pc tr)
    (hm : Move env i now s pc input s' pc' events) (n : Nat) (t : String)
    (hmem : .rejected n t ∈ tr ++ events) : n < pc'.nextAttempt := by
  rcases List.mem_append.mp hmem with hold | hnew
  · exact Nat.lt_of_lt_of_le (hI.past n t hold) (hm.nextAttempt_le hI.bounded)
  · obtain ⟨-, rfl⟩ := hm.rejected_mem hnew
    exact Nat.lt_succ_self n

theorem CallHistory.once_moved (hI : CallHistory pc tr)
    (hm : Move env i now s pc input s' pc' events) (n : Nat) (t t' : String)
    (ht : .rejected n t ∈ tr ++ events) (ht' : .rejected n t' ∈ tr ++ events) : t = t' := by
  rcases List.mem_append.mp ht with hold | hnew <;>
    rcases List.mem_append.mp ht' with hold' | hnew'
  · exact hI.once n t t' hold hold'
  · exact absurd hold (hI.fresh hm hnew')
  · exact absurd hold' (hI.fresh hm hnew)
  · obtain ⟨rfl, -⟩ := hm.rejected_mem hnew
    obtain ⟨hpc, -⟩ := hm.rejected_mem hnew'
    exact (Pc.send.inj hpc).2

theorem CallHistory.retried_moved (hI : CallHistory pc tr)
    (hm : Move env i now s pc input s' pc' events) (hs : pc'.onSecond = true) :
    Recovered (tr ++ events) := by
  rcases hm.second_cases hI.bounded hs with hbefore | ⟨t, hh, hrec⟩
  · exact (hI.retried hbefore).append events
  · obtain ⟨pre, mid, rfl⟩ := List.append_of_mem (hI.handled 0 t hh)
    exact ⟨t, pre, mid ++ events, by simp, List.mem_append_right mid hrec⟩

theorem CallHistory.presented_moved (hI : CallHistory pc tr)
    (hm : Move env i now s pc input s' pc' events) (pre : List Event) (n : Nat) (t : String)
    (post : List Event) (h : tr ++ events = pre ++ .presented n t :: post) :
    pre.countP Event.isPresented = 0 ∨ Recovered pre := by
  rcases History.append_split h with ⟨mid, htr, -⟩ | ⟨mid, rfl, hnew⟩
  · exact hI.presented pre n t mid htr
  · have hmem : Event.presented n t ∈ events := by rw [hnew]; simp
    obtain ⟨rfl, hev, -⟩ := hm.presented_mem hmem
    rw [hev] at hnew
    obtain ⟨rfl, -, -⟩ := History.singleton_split hnew
    rw [List.append_nil]
    have hlt : n < 2 := hI.bounded
    by_cases hn : n = 1
    · subst hn
      exact Or.inr (hI.retried rfl)
    · have hsent : tr.countP Event.isPresented ≤ n := hI.sent
      exact Or.inl (by omega)

theorem CallHistory.ended_moved (hI : CallHistory pc tr)
    (hm : Move env i now s pc input s' pc' events) (t : String)
    (hmem : .rejected 1 t ∈ tr ++ events) :
    pc'.handles = some (1, t) ∨ pc' = .cancelled ∨
      pc' = .done (.err (.unauthorized .unauthorized)) := by
  rcases List.mem_append.mp hmem with hold | hnew
  · rcases hI.ended t hold with hh | hc | hd
    · exact hm.handles_last hI.bounded hh
    · exact absurd hc hm.not_ended.1
    · exact absurd hd (hm.not_ended.2 _)
  · obtain ⟨-, rfl⟩ := hm.rejected_mem hnew
    exact Or.inl rfl

theorem CallHistory.moved (hI : CallHistory pc tr)
    (hm : Move env i now s pc input s' pc' events) : CallHistory pc' (tr ++ events) where
  bounded := hm.bounded hI.bounded
  sent := by
    rw [List.countP_append]
    exact Nat.le_trans (Nat.add_le_add_right hI.sent _) (hm.requests_le hI.bounded)
  logins := by
    rw [List.countP_append]
    exact Nat.le_trans (Nat.add_le_add_right hI.logins _) (hm.logins_le hI.bounded)
  past := hI.past_moved hm
  asked := by
    intro n t hmem
    rcases List.mem_append.mp hmem with hold | hnew
    · exact Nat.le_trans (hI.asked n t hold) (hm.nextAttempt_le hI.bounded)
    · obtain ⟨rfl, -, -⟩ := hm.presented_mem hnew
      exact hm.nextAttempt_le hI.bounded
  once := hI.once_moved hm
  handled := by
    intro n t hh
    rcases hm.handles_cases hI.bounded hh with hbefore | hnew
    · exact List.mem_append_left events (hI.handled n t hbefore)
    · exact List.mem_append_right tr hnew
  retried := hI.retried_moved hm
  resumed := by
    intro hmem
    rcases List.mem_append.mp hmem with hold | hnew
    · exact Nat.le_trans (hI.resumed hold) (hm.nextAttempt_le hI.bounded)
    · exact hm.recovered_mem hnew hI.bounded
  presented := hI.presented_moved hm
  ended := hI.ended_moved hm

/-- **The place of a call says how far its events can have got.** -/
theorem callHistory (h : (sessionMachine env).Reachable w) (i : CallId) :
    CallHistory (w.calls i) (w.trace i) :=
  call_invariant CallHistory.start (fun hm hI => hI.moved hm) h i

end Keyring.Bitwarden
