/-
Calls on a session come to an end.

That somebody can always go on is known of the two locks; what is added here is that
nobody goes on for ever.  The loop of `sync` makes two attempts and a login has no loop, so
every step of a call lowers its rank, and what one call does never raises that of another:
a rejected token costs the call that presented it an attempt, however many others have
renewed theirs in the meantime.
-/
import Keyring.Lib.Parties
import Keyring.Proofs.Bitwarden.Session.Heal
import Mathlib.Algebra.Order.Group.Nat

namespace Keyring.Bitwarden

variable {env : Env} {i j : CallId} {now : Instant} {s s' : BitwardenSession env}
  {pc pc' : Pc} {input : Input env.Body} {events : List Event} {w w' : World env}

/-- Only calls under way take steps, once they are begun. -/
theorem Move.live (h : Move env i now s pc input s' pc' events) (hpc : pc ≠ .idle) :
    pc.atRest = false := by
  cases h with
  | start => exact absurd rfl hpc
  | takeState hawaits hfree => cases hawaits <;> rfl
  | takeGate hawaits hfree => cases hawaits <;> rfl
  | overflow hcheck hstale => cases hcheck <;> rfl
  | fresh hcheck hstale => cases hcheck <;> rfl
  | cancel hawaits =>
      cases pc with
      | idle => exact absurd rfl hpc
      | done outcome | cancelled | panicked panic => exact absurd hawaits (by simp [Pc.awaits])
      | _ => rfl
  | _ => rfl

/-- Calls are begun one at a time. -/
theorem session_few (h : (sessionMachine env).Reachable w) :
    Machine.FewUnderWay (fun pc => pc.atRest = true) w.calls := by
  refine session_invariant (I := fun w =>
    Machine.FewUnderWay (fun pc => pc.atRest = true) w.calls) ?_ ?_ ?_ ?_ h
  · intro clock
    exact ⟨∅, fun i _ => rfl⟩
  · intro w i input s' pc' events hr hI hm
    obtain ⟨live, hlive⟩ := hI
    refine ⟨insert i live, fun j hj => ?_⟩
    rw [Finset.mem_insert, not_or] at hj
    rw [moved_calls, Function.update_of_ne hj.1]
    exact hlive j hj.2
  · intro w now hle hI
    exact hI
  · intro w profile hr hI
    exact hI

/-! ### All calls end -/

/-- The runs in which no call is begun.  Time may pass before every step. -/
def settleMachine (env : Env) : Machine (World env) (Instant × CallId × Input env.Body) where
  init _ := True
  step w a w' := w.clock ≤ a.1 ∧ w.calls a.2.1 ≠ .idle ∧
    World.step { w with clock := a.1 } (.call a.2.1 a.2.2) = some w'

/-- Such a run is a run of the session. -/
theorem settle_leads {a : Instant × CallId × Input env.Body}
    (h : (settleMachine env).step w a w') : (sessionMachine env).Leads w w' := by
  obtain ⟨hle, -, hstep⟩ := h
  have htick : (sessionMachine env).step w (.tick a.1) { w with clock := a.1 } := by
    show (if w.clock ≤ a.1 then some { w with clock := a.1 } else none) = _
    rw [if_pos hle]
  exact ((Machine.Leads.refl w).step htick).step hstep

/-- All calls have ended and both locks are free. -/
structure Settled (w : World env) : Prop where
  ended : ∀ i, (w.calls i).atRest = true
  state : w.session.state.holder = none
  gate : w.session.gate.holder = none

/-- **All calls on a session end**, in any order of their steps, whatever the endpoints
answer and whichever calls are dropped. -/
theorem session_settles (h : (sessionMachine env).Reachable w) :
    (settleMachine env).Inevitable Settled w := by
  refine (Machine.inevitable_of_parties (I := (sessionMachine env).Reachable) World.calls
    (fun pc => pc.atRest = true) Pc.rank ?_ ?_ h (session_few h)).mono ?_
  · rintro w hr ⟨i, hi⟩
    obtain ⟨j, hlive, ⟨input, hanswers⟩, hstep⟩ := (locksAgree hr).progress (by simpa using hi)
    obtain ⟨w', hw'⟩ := Option.isSome_iff_exists.mp (hstep input hanswers)
    refine ⟨(w.clock, j, input), w', Nat.le_refl _, ?_, hw'⟩
    intro hidle
    rw [hidle] at hlive
    exact absurd hlive (by simp [Pc.atRest])
  · rintro w ⟨now, i, input⟩ w' hr hstep
    refine ⟨hr.leads (settle_leads hstep), i, ?_⟩
    obtain ⟨-, hidle, hcall⟩ := hstep
    obtain ⟨s', pc', events, hm, rfl⟩ := step_call hcall
    refine ⟨by simpa using hm.live hidle, ?_, fun j hji => ?_⟩
    · rw [moved_calls, Function.update_self]
      exact hm.rank_lt (bounded hr i)
    · rw [moved_calls, Function.update_of_ne hji]
  · rintro w ⟨hr, hrest⟩
    exact ⟨hrest, (locksAgree hr).state.free fun i => (no_guards_of_atRest (hrest i)).1,
      (locksAgree hr).gate.free fun i => (no_guards_of_atRest (hrest i)).2⟩

/-- One call logs in while two others wait for it. -/
theorem session_settles_queued : ∃ w : World plainEnv,
    w.calls 0 = .request .token ∧ w.calls 1 = .gate ∧ w.calls 2 = .gate ∧
      (settleMachine plainEnv).Inevitable Settled w := by
  obtain ⟨w, hw, hp⟩ := reachable_of_run plainEnv (Run.go 0 6 ++ Run.go 1 3 ++ Run.go 2 3)
    (fun w => w.calls 0 == .request .token && w.calls 1 == .gate && w.calls 2 == .gate)
    (by decide)
  simp only [Bool.and_eq_true, beq_iff_eq] at hp
  exact ⟨w, hp.1.1, hp.1.2, hp.2, session_settles hw⟩

end Keyring.Bitwarden
