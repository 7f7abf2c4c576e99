/-
A cache of one value that grows old.

This is the cache one would write if calls came one after another.  A call brings the
age it tolerates and an initializer.  A younger entry answers it; otherwise the
initializer runs, and only its success changes the entry.

`Legal` says of a list of calls that each got the reply the cache would have given it.
-/
import Mathlib.Data.List.Induction

/-- How an initializer ends. -/
inductive Ending (T E : Type*)
  | ok (value : T)
  | err (error : E)
  | dropped

/-- Where a reply comes from: the entry, or the caller's own initializer. -/
inductive Reply (T E : Type*)
  | cached (value : T)
  | ran (ending : Ending T E)

/-- What the caller gets to see. -/
def Reply.result {T E : Type*} : Reply T E → Option (Except E T)
  | .cached value => some (.ok value)
  | .ran (.ok value) => some (.ok value)
  | .ran (.err error) => some (.error error)
  | .ran .dropped => none

namespace TtlCache

/-- A call, from the moment it looks at the entry until it is over. -/
structure Call (T E : Type*) where
  ttl : Nat
  start : Nat
  stop : Nat
  reply : Reply T E

variable {T E : Type*}

/-- The value of an entry that is younger than `ttl`. -/
def young (now ttl : Nat) : Option (T × Nat) → Option T
  | none => none
  | some (value, ts) => if now < ts + ttl then some value else none

/-- What the initializer of a call does, should it be run. -/
def Call.ending (c : Call T E) : Ending T E :=
  match c.reply with
  | .cached _ => .dropped
  | .ran ending => ending

/-- One call on the cache: the entry it leaves and the reply it gets. -/
def serve (entry : Option (T × Nat)) (c : Call T E) : Option (T × Nat) × Reply T E :=
  match young c.start c.ttl entry with
  | some value => (entry, .cached value)
  | none =>
      match c.ending with
      | .ok value => (some (value, c.stop), .ran (.ok value))
      | .err error => (entry, .ran (.err error))
      | .dropped => (entry, .ran .dropped)

/-- The entry after some calls. -/
def after (entry : Option (T × Nat)) (calls : List (Call T E)) : Option (T × Nat) :=
  calls.foldl (fun entry c => (serve entry c).1) entry

/-- Every call gets the reply of the cache. -/
def Legal (entry : Option (T × Nat)) : List (Call T E) → Prop
  | [] => True
  | c :: rest => (serve entry c).2 = c.reply ∧ Legal (serve entry c).1 rest

theorem after_append (entry : Option (T × Nat)) (calls more : List (Call T E)) :
    after entry (calls ++ more) = after (after entry calls) more := List.foldl_append

theorem legal_append (calls more : List (Call T E)) :
    ∀ entry, Legal entry (calls ++ more) ↔ Legal entry calls ∧ Legal (after entry calls) more := by
  induction calls with
  | nil => intro entry; simp [Legal, after]
  | cons c rest ih =>
      intro entry
      show _ ∧ Legal _ (rest ++ more) ↔ (_ ∧ Legal _ rest) ∧ Legal (after _ rest) more
      rw [ih, and_assoc]

/-! ### The reply of one call -/

/-- A young entry is the reply, and stays. -/
theorem serve_of_young {entry : Option (T × Nat)} {c : Call T E} {value : T}
    (h : young c.start c.ttl entry = some value) : serve entry c = (entry, .cached value) := by
  simp only [serve, h]

/-- Without one the reply is what the initializer did. -/
theorem serve_of_old {entry : Option (T × Nat)} {c : Call T E}
    (h : young c.start c.ttl entry = none) :
    serve entry c = (match c.ending with
      | .ok value => some (value, c.stop)
      | _ => entry, .ran c.ending) := by
  simp only [serve, h]
  cases c.ending with
  | ok value => rfl
  | err error => rfl
  | dropped => rfl

/-! ### Where a cached value comes from -/

/-- The call stored a value. -/
def Call.stored (c : Call T E) : Option (T × Nat) :=
  match c.reply with
  | .ran (.ok value) => some (value, c.stop)
  | _ => none

theorem Call.stored_eq_some {c : Call T E} {value : T} {ts : Nat} :
    c.stored = some (value, ts) ↔ c.reply = .ran (.ok value) ∧ c.stop = ts := by
  unfold Call.stored
  split
  · rename_i v hv
    simp [hv]
  · rename_i hnot
    simp only [reduceCtorEq, false_iff, not_and]
    exact fun h => absurd h (hnot value)

/-- Among legal calls, one that stores replaces the entry and one that does not leaves it. -/
theorem serve_fst {entry : Option (T × Nat)} {c : Call T E} (h : (serve entry c).2 = c.reply) :
    (serve entry c).1 = c.stored.or entry := by
  cases hy : young c.start c.ttl entry with
  | some value =>
      rw [serve_of_young hy] at h ⊢
      simp [Call.stored, ← h]
  | none =>
      rw [serve_of_old hy] at h ⊢
      rw [Call.stored, ← h]
      cases c.ending with
      | ok value => rfl
      | err error => rfl
      | dropped => rfl

/-- **The entry of a cache that started empty is what the last storing call stored.** -/
theorem after_eq_some {calls : List (Call T E)} {entry : T × Nat} :
    Legal none calls → after none calls = some entry →
      ∃ pre c post, calls = pre ++ c :: post ∧ c.stored = some entry ∧
        ∀ x ∈ post, x.stored = none := by
  induction calls using List.reverseRecOn with
  | nil => intro _ h; cases h
  | append_singleton calls c ih =>
      intro hlegal h
      obtain ⟨hlegal, hreply, -⟩ := (legal_append calls [c] none).mp hlegal
      rw [after_append] at h
      replace h : (serve (after none calls) c).1 = some entry := h
      rw [serve_fst hreply] at h
      cases hc : c.stored with
      | some stored =>
          rw [hc] at h
          refine ⟨calls, c, [], rfl, ?_, by simp⟩
          rw [hc]
          simpa using h
      | none =>
          rw [hc, Option.none_or] at h
          obtain ⟨pre, c', post, rfl, hstored, hpost⟩ := ih hlegal h
          refine ⟨pre, c', post ++ [c], by simp, hstored, ?_⟩
          intro x hx
          rcases List.mem_append.mp hx with hx | hx
          · exact hpost x hx
          · rw [List.mem_singleton.mp hx]
            exact hc

/-- **A cached value was young**: it is the value of the last call that stored one, and
that was less than the caller's `ttl` ago. -/
theorem cached_young {calls : List (Call T E)} (hlegal : Legal none calls)
    {pre post : List (Call T E)} {c : Call T E} {value : T} (hsplit : calls = pre ++ c :: post)
    (hc : c.reply = .cached value) :
    ∃ before s between, pre = before ++ s :: between ∧ s.reply = .ran (.ok value) ∧
      c.start < s.stop + c.ttl ∧ ∀ x ∈ between, x.stored = none := by
  rw [hsplit, legal_append] at hlegal
  obtain ⟨hpre, hreply, -⟩ := hlegal
  cases hy : young c.start c.ttl (after none pre) with
  | none =>
      rw [serve_of_old hy, hc] at hreply
      cases hreply
  | some value' =>
      rw [serve_of_young hy, hc] at hreply
      obtain rfl : value' = value := by simpa using hreply
      cases hentry : after none pre with
      | none =>
          rw [hentry] at hy
          cases hy
      | some entry =>
          obtain ⟨stored, ts⟩ := entry
          obtain ⟨before, s, between, hpre', hs, hbetween⟩ := after_eq_some hpre hentry
          rw [hentry, young] at hy
          have hage : c.start < ts + c.ttl := by
            by_contra hold
            rw [if_neg hold] at hy
            cases hy
          rw [if_pos hage] at hy
          obtain ⟨hreply, rfl⟩ := Call.stored_eq_some.mp hs
          rw [Option.some.inj hy] at hreply
          exact ⟨before, s, between, hpre', hreply, hage, hbetween⟩

/-! ### Time between calls -/

/-- No call starts before the one in front of it is over. -/
structure Timed (calls : List (Call T E)) : Prop where
  spans : ∀ c ∈ calls, c.start ≤ c.stop
  ordered : calls.Pairwise fun a b => a.stop ≤ b.start

theorem timed_nil : Timed ([] : List (Call T E)) := ⟨by simp, List.Pairwise.nil⟩

theorem Timed.snoc {calls : List (Call T E)} (h : Timed calls) {c : Call T E}
    (hspan : c.start ≤ c.stop) (hpast : ∀ a ∈ calls, a.stop ≤ c.start) :
    Timed (calls ++ [c]) := by
  refine ⟨?_, ?_⟩
  · intro a ha
    rcases List.mem_append.mp ha with ha | ha
    · exact h.spans a ha
    · rw [List.mem_singleton.mp ha]
      exact hspan
  · rw [List.pairwise_append]
    refine ⟨h.ordered, by simp, fun a ha b hb => ?_⟩
    rw [List.mem_singleton.mp hb]
    exact hpast a ha

/-- An entry is not younger than anything all calls are older than. -/
theorem after_le {calls : List (Call T E)} (hlegal : Legal none calls) {value : T} {ts t : Nat}
    (hentry : after none calls = some (value, ts)) (hpast : ∀ c ∈ calls, c.stop ≤ t) :
    ts ≤ t := by
  obtain ⟨pre, c, post, rfl, hstored, -⟩ := after_eq_some hlegal hentry
  obtain ⟨-, rfl⟩ := Call.stored_eq_some.mp hstored
  exact hpast c (by simp)

/-- **The entry is at least as young as anything that was ever stored.** -/
theorem stored_le_after {calls : List (Call T E)} (hlegal : Legal none calls)
    (htimed : Timed calls) {c : Call T E} (hc : c ∈ calls) {value : T} {ts : Nat}
    (hstored : c.stored = some (value, ts)) :
    ∃ entry, after none calls = some entry ∧ ts ≤ entry.2 := by
  induction calls using List.reverseRecOn with
  | nil => cases hc
  | append_singleton calls last ih =>
      obtain ⟨hlegal, hreply, -⟩ := (legal_append calls [last] none).mp hlegal
      have hafter : after none (calls ++ [last]) = last.stored.or (after none calls) := by
        rw [after_append]
        exact serve_fst hreply
      obtain ⟨hordered, -, hlast⟩ := List.pairwise_append.mp htimed.ordered
      have hspans := htimed.spans
      rw [hafter]
      rcases List.mem_append.mp hc with hc | hc
      · obtain ⟨-, rfl⟩ := Call.stored_eq_some.mp hstored
        cases hnew : last.stored with
        | none =>
            rw [Option.none_or]
            exact ih hlegal ⟨fun a ha => hspans a (List.mem_append_left _ ha), hordered⟩ hc
        | some entry =>
            obtain ⟨-, hstop⟩ := Call.stored_eq_some.mp hnew
            refine ⟨entry, rfl, ?_⟩
            have hbefore := hlast c hc last (by simp)
            have hspan := hspans last (by simp)
            omega
      · rw [List.mem_singleton.mp hc] at hstored
        rw [hstored]
        exact ⟨_, rfl, Nat.le_refl _⟩

end TtlCache
