/-
A cell shared by many calls is a cache used by one call after another.

The order of the calls is the order in which the log completes them.  A call that found
the entry fresh has looked at it and is over in one step, so it takes place there.  A call
whose initializer ran takes place over a stretch of the log, from the check that failed to
the end of the initializer, and `Intervals` is the proof that nobody else looks at the
entry in that stretch: the call has the write guard all along.

`Linear` is the simulation.  Its last field is about the call under way, whose check was
made on an entry that is still the same when its initializer ends.
-/
import Keyring.Proofs.Core.Cell.Moves

namespace Keyring.Core

variable {T E : Type*} {i j : CallId} {now : Instant} {cell cell' : CacheCell T}
  {pc pc' : Pc T E} {input : Input T E} {events : List (Event T E)} {w w' : World T E}

/-! ### What each call has done -/

/-- What a call has written down by the time it stands at a place. -/
inductive Trace : Pc T E → List (Event T E) → Prop
  | idle : Trace .idle []
  | read (held : Bool) (ttl : Duration) : Trace (.read held ttl) [.began ttl]
  | write (held : Bool) (ttl : Duration) (t : Instant) :
      Trace (.write held ttl) [.began ttl, .passed t]
  | init (ttl : Duration) (t start : Instant) :
      Trace (.init ttl start) [.began ttl, .passed t, .missed ttl start]
  | fast (ttl : Duration) (now : Instant) (value : T) :
      Trace (.done (.ok value)) [.began ttl, .served ⟨ttl, now, now, .cached value⟩]
  | slow (ttl : Duration) (t now : Instant) (value : T) :
      Trace (.done (.ok value)) [.began ttl, .passed t, .served ⟨ttl, now, now, .cached value⟩]
  | stored (ttl : Duration) (t start stop : Instant) (value : T) :
      Trace (.done (.ok value))
        [.began ttl, .passed t, .missed ttl start, .served ⟨ttl, start, stop, .ran (.ok value)⟩]
  | failed (ttl : Duration) (t start stop : Instant) (error : E) :
      Trace (.done (.error error))
        [.began ttl, .passed t, .missed ttl start, .served ⟨ttl, start, stop, .ran (.err error)⟩]
  | dropped (ttl : Duration) (t start stop : Instant) :
      Trace .cancelled
        [.began ttl, .passed t, .missed ttl start, .served ⟨ttl, start, stop, .ran .dropped⟩]
  | left (ttl : Duration) : Trace .cancelled [.began ttl, .cancelled]
  | leftSlow (ttl : Duration) (t : Instant) :
      Trace .cancelled [.began ttl, .passed t, .cancelled]

/-- A step adds to the trace of its call what belongs there. -/
theorem Trace.moved {tr : List (Event T E)} (h : Trace pc tr)
    (hm : Move i now cell pc input cell' pc' events) : Trace pc' (tr ++ events) := by
  cases hm with
  | call ttl => cases h; exact .read false ttl
  | takeRead hl => cases h; exact .read true _
  | takeWrite hl => cases h; exact .write true _ _
  | hit hpc hfresh =>
      cases hpc with
      | read => cases h; exact .fast _ _ _
      | write => cases h; exact .slow _ _ _ _
  | passed hold => cases h; exact .write false _ _
  | missed hold => cases h; exact .init _ _ _
  | stored => cases h; exact .stored _ _ _ _ _
  | failed => cases h; exact .failed _ _ _ _ _
  | dropped => cases h; exact .dropped _ _ _ _
  | cancel hpc =>
      cases hpc with
      | read held ttl => cases h; exact .left _
      | write held ttl => cases h; exact .leftSlow _ _

theorem cell_trace (h : (cellMachine T E).Reachable w) (i : CallId) :
    Trace (w.calls i) (History.of i w.log) := by
  refine cell_invariant (I := fun w => ∀ i, Trace (w.calls i) (History.of i w.log))
    (fun _ _ => .idle) ?_ (fun _ _ hI => hI) h i
  intro w i input cell' pc' events _ hI hm j
  rw [moved_calls, moved_log]
  by_cases hji : j = i
  · subst hji
    rw [Function.update_self, History.of_append_self]
    exact (hI j).moved hm
  · rw [Function.update_of_ne hji, History.of_append_ne hji]
    exact hI j

/-! ### The calls in the order of the log -/

/-- The calls that are over, in order. -/
def opsOf (log : List (CallId × Event T E)) : List (TtlCache.Call T E) :=
  log.filterMap fun x => x.2.op

theorem opsOf_append (log more : List (CallId × Event T E)) :
    opsOf (log ++ more) = opsOf log ++ opsOf more := List.filterMap_append

theorem opsOf_quiet (h : ∀ e ∈ events, e.op = none) :
    opsOf (events.map fun e => (i, e)) = [] := by
  rw [opsOf, List.filterMap_map, List.filterMap_eq_nil_iff]
  exact h

theorem mem_opsOf {log : List (CallId × Event T E)} {c : TtlCache.Call T E} :
    c ∈ opsOf log ↔ ∃ i, (i, .served c) ∈ log := by
  rw [opsOf, List.mem_filterMap]
  constructor
  · rintro ⟨⟨i, e⟩, hmem, he⟩
    cases e with
    | served c' =>
        obtain rfl : c' = c := by simpa [Event.op] using he
        exact ⟨i, hmem⟩
    | _ => cases he
  · rintro ⟨i, hmem⟩
    exact ⟨_, hmem, rfl⟩

/-- Of an entry that is not from the future, the code's check is the cache's. -/
theorem fresh_eq_young {ttl : Duration} {entry : Option (T × Instant)}
    (h : ∀ value ts, entry = some (value, ts) → ts ≤ now) :
    fresh now ttl entry = TtlCache.young now ttl entry := by
  cases entry with
  | none => rfl
  | some entry =>
      obtain ⟨value, ts⟩ := entry
      have hts := h value ts rfl
      have hiff : elapsed now ts < ttl ↔ now < ts + ttl := Nat.sub_lt_iff_lt_add' hts
      simp only [fresh, TtlCache.young, hiff]

/-- A call gets to its initializer by its second check. -/
theorem Move.into_init (h : Move i now cell pc input cell' pc' events) {ttl : Duration}
    {start : Instant} (hpc' : pc' = .init ttl start) :
    start = now ∧ fresh now ttl cell.value = none ∧ cell'.value = cell.value ∧
      events = [.missed ttl start] := by
  cases h with
  | missed hold =>
      obtain ⟨rfl, rfl⟩ := Pc.init.inj hpc'
      exact ⟨rfl, hold, rfl, rfl⟩
  | _ => cases hpc'

/-- The calls of the log are calls on a cache, and the cell is what they leave. -/
structure Linear (w : World T E) : Prop where
  legal : TtlCache.Legal none (opsOf w.log)
  entry : TtlCache.after none (opsOf w.log) = w.cell.value
  timed : TtlCache.Timed (opsOf w.log)
  past : ∀ c ∈ opsOf w.log, c.stop ≤ w.clock
  pending : ∀ i ttl start, w.calls i = .init ttl start →
    fresh start ttl w.cell.value = none ∧ start ≤ w.clock ∧
      ∀ c ∈ opsOf w.log, c.stop ≤ start

theorem Linear.start (clock : Instant) : Linear (World.start clock : World T E) where
  legal := trivial
  entry := rfl
  timed := TtlCache.timed_nil
  past c hc := absurd hc List.not_mem_nil
  pending i ttl start h := by cases h

theorem Linear.tick (hI : Linear w) (hle : w.clock ≤ now) :
    Linear { w with clock := now } where
  legal := hI.legal
  entry := hI.entry
  timed := hI.timed
  past c hc := Nat.le_trans (hI.past c hc) hle
  pending i ttl start h := by
    obtain ⟨hold, hstart, hops⟩ := hI.pending i ttl start h
    exact ⟨hold, Nat.le_trans hstart hle, hops⟩

/-- A call that comes next has to find what the cache would find. -/
theorem Linear.young (hI : Linear w) {t : Instant} (ht : ∀ c ∈ opsOf w.log, c.stop ≤ t)
    (ttl : Duration) :
    TtlCache.young t ttl (TtlCache.after none (opsOf w.log)) = fresh t ttl w.cell.value := by
  rw [hI.entry]
  refine (fresh_eq_young fun value ts hentry => ?_).symm
  exact TtlCache.after_le hI.legal (hI.entry.trans hentry) ht

/-- Without a completed call the entry is the same, and a call that starts its initializer
has just checked it. -/
theorem Linear.quiet_moved (hI : Linear w)
    (hm : Move i w.clock w.cell (w.calls i) input cell' pc' events)
    (hops : ∀ e ∈ events, e.op = none) (hvalue : cell'.value = w.cell.value) :
    Linear (w.moved i cell' pc' events) := by
  have hsame : opsOf (w.moved i cell' pc' events).log = opsOf w.log := by
    rw [moved_log, opsOf_append, opsOf_quiet hops, List.append_nil]
  refine ⟨?_, ?_, ?_, ?_, ?_⟩
  · rw [hsame]
    exact hI.legal
  · rw [hsame, moved_cell, hvalue]
    exact hI.entry
  · rw [hsame]
    exact hI.timed
  · rw [hsame]
    exact hI.past
  · intro k ttl start hk
    rw [hsame, moved_cell, hvalue, moved_clock]
    rw [moved_calls] at hk
    by_cases hki : k = i
    · subst hki
      rw [Function.update_self] at hk
      obtain ⟨rfl, hold, -, -⟩ := hm.into_init hk
      exact ⟨hold, Nat.le_refl _, hI.past⟩
    · rw [Function.update_of_ne hki] at hk
      exact hI.pending k ttl start hk

/-- A completed call takes its place behind the others. -/
theorem Linear.served_moved (hI : Linear w) {c : TtlCache.Call T E}
    (hreply : (TtlCache.serve (TtlCache.after none (opsOf w.log)) c).2 = c.reply)
    (hvalue : cell'.value = c.stored.or w.cell.value) (hspan : c.start ≤ c.stop)
    (hstop : c.stop = w.clock) (hpast : ∀ a ∈ opsOf w.log, a.stop ≤ c.start)
    (halone : ∀ k, k ≠ i → (w.calls k).inInit = false) (hpc' : pc'.inInit = false) :
    Linear (w.moved i cell' pc' [.served c]) := by
  have hops : opsOf (w.moved i cell' pc' [.served c]).log = opsOf w.log ++ [c] := by
    rw [moved_log, opsOf_append]
    rfl
  refine ⟨?_, ?_, ?_, ?_, ?_⟩
  · rw [hops, TtlCache.legal_append]
    exact ⟨hI.legal, hreply, trivial⟩
  · rw [hops, TtlCache.after_append, moved_cell, hvalue, ← hI.entry]
    exact TtlCache.serve_fst hreply
  · rw [hops]
    exact hI.timed.snoc hspan hpast
  · rw [hops, moved_clock]
    intro a ha
    rcases List.mem_append.mp ha with ha | ha
    · exact hI.past a ha
    · rw [List.mem_singleton.mp ha, hstop]
  · intro k ttl start hk
    rw [moved_calls] at hk
    by_cases hki : k = i
    · subst hki
      rw [Function.update_self] at hk
      rw [hk] at hpc'
      cases hpc'
    · rw [Function.update_of_ne hki] at hk
      have hnone := halone k hki
      rw [hk] at hnone
      cases hnone

/-- Beside a call with a guard no initializer runs. -/
theorem inInit_false_of_guard (h : (cellMachine T E).Reachable w)
    (hi : (w.calls i).guard ≠ none) {k : CallId} (hki : k ≠ i) :
    (w.calls k).inInit = false := by
  by_contra hk
  exact hi (guard_none_of_inInit h (by simpa using hk) hki.symm)

theorem Checks.guard_ne_none {ttl : Duration} (h : Checks ttl pc) : pc.guard ≠ none := by
  cases h with
  | read => simp [Pc.guard]
  | write => simp [Pc.guard]

/-- **The simulation**: every step of a call keeps the log a run of the cache. -/
theorem Linear.moved (hr : (cellMachine T E).Reachable w) (hI : Linear w)
    (hm : Move i w.clock w.cell (w.calls i) input cell' pc' events) :
    Linear (w.moved i cell' pc' events) := by
  rcases hm.op_cases with ⟨hops, hvalue⟩ | ⟨c, rfl, hstop, hcall⟩
  · exact hI.quiet_moved hm hops hvalue
  · have hpc' : pc'.inInit = false := by
      cases hpc : pc' with
      | init ttl start =>
          obtain ⟨-, -, -, hevents⟩ := hm.into_init hpc
          cases hevents
      | _ => rfl
    rcases hcall with ⟨ttl, value, hcheck, hfresh, rfl, hvalue⟩ | ⟨ttl, start, ending, hpc, rfl, hvalue⟩
    · have hyoung := hI.young hI.past ttl
      rw [hfresh] at hyoung
      refine hI.served_moved ?_ ?_ (Nat.le_refl _) rfl hI.past
        (fun k hki => inInit_false_of_guard hr hcheck.guard_ne_none hki) hpc'
      · rw [TtlCache.serve_of_young hyoung]
      · rw [hvalue]
        rfl
    · obtain ⟨hold, hstart, hpast⟩ := hI.pending i ttl start hpc
      have hyoung := hI.young hpast ttl
      rw [hold] at hyoung
      refine hI.served_moved ?_ hvalue hstart rfl hpast
        (fun k hki => inInit_false_of_guard hr (by rw [hpc]; simp [Pc.guard]) hki) hpc'
      rw [TtlCache.serve_of_old hyoung]
      rfl

theorem cell_linear (h : (cellMachine T E).Reachable w) : Linear w :=
  cell_invariant Linear.start (fun hr hI hm => hI.moved hr hm) (fun _ hle hI => hI.tick hle) h

/-! ### The stretch of a call that runs its initializer -/

/-- From the check that failed to the end of the initializer, nobody else looks. -/
structure Intervals (w : World T E) : Prop where
  opened : ∀ i ttl start, w.calls i = .init ttl start →
    ∃ pre mid, w.log = pre ++ (i, .missed ttl start) :: mid ∧ ∀ x ∈ mid, x.2.Quiet
  closed : ∀ pre i c ending post, w.log = pre ++ (i, .served c) :: post →
    c.reply = .ran ending →
      ∃ pre' mid, pre = pre' ++ (i, .missed c.ttl c.start) :: mid ∧ ∀ x ∈ mid, x.2.Quiet

theorem Intervals.moved (hr : (cellMachine T E).Reachable w) (hI : Intervals w)
    (hm : Move i w.clock w.cell (w.calls i) input cell' pc' events) :
    Intervals (w.moved i cell' pc' events) := by
  constructor
  · intro k ttl start hk
    rw [moved_calls] at hk
    rw [moved_log]
    by_cases hki : k = i
    · subst hki
      rw [Function.update_self] at hk
      obtain ⟨-, -, -, rfl⟩ := hm.into_init hk
      exact ⟨w.log, [], rfl, by simp⟩
    · rw [Function.update_of_ne hki] at hk
      obtain ⟨pre, mid, hlog, hmid⟩ := hI.opened k ttl start hk
      have hin : (w.calls k).inInit = true := by rw [hk]; rfl
      obtain ⟨hquiet, -⟩ := hm.outside (guard_none_of_inInit hr hin (Ne.symm hki))
      refine ⟨pre, mid ++ events.map fun e => (i, e), by rw [hlog]; simp, ?_⟩
      intro x hx
      rcases List.mem_append.mp hx with hx | hx
      · exact hmid x hx
      · obtain ⟨e, he, rfl⟩ := List.mem_map.mp hx
        exact hquiet e he
  · intro pre k c ending post hlog hran
    rw [moved_log] at hlog
    rcases History.append_split hlog with ⟨later, hlog, -⟩ | ⟨mid, rfl, hnew⟩
    · exact hI.closed pre k c ending later hlog hran
    · rcases hm.op_cases with ⟨hops, -⟩ | ⟨c', rfl, -, hcall⟩
      · have hmem : (k, Event.served c) ∈ events.map fun e => (i, e) := by rw [hnew]; simp
        obtain ⟨e, he, heq⟩ := List.mem_map.mp hmem
        cases heq
        cases hops _ he
      · obtain ⟨rfl, hhead, -⟩ := History.singleton_split hnew
        cases hhead
        rcases hcall with ⟨ttl, value, -, -, rfl, -⟩ | ⟨ttl, start, ending, hpc, rfl, -⟩
        · cases hran
        · rw [List.append_nil]
          exact hI.opened i ttl start hpc

theorem Intervals.start (clock : Instant) : Intervals (World.start clock : World T E) := by
  constructor
  · intro i ttl start h
    cases h
  · intro pre i c ending post h
    simp [World.start] at h

theorem cell_intervals (h : (cellMachine T E).Reachable w) : Intervals w :=
  cell_invariant Intervals.start (fun hr hI hm => hI.moved hr hm)
    (fun _ _ hI => ⟨hI.opened, hI.closed⟩) h

/-! ### The refinement -/

/-- The calls of a run, in the order of the log, as calls on a cache. -/
structure Refines (w : World T E) : Prop where
  legal : TtlCache.Legal none (opsOf w.log)
  entry : TtlCache.after none (opsOf w.log) = w.cell.value
  timed : TtlCache.Timed (opsOf w.log)
  /-- A call that returned is one of them, with its own `ttl` and what it returned. -/
  completed : ∀ i result, w.calls i = .done result →
    ∃ ttl mid c, History.of i w.log = .began ttl :: mid ++ [.served c] ∧
      (∀ e ∈ mid, e.op = none) ∧ c.ttl = ttl ∧ c.reply.result = some result
  /-- And no others are, except those dropped with their initializer running. -/
  ended : ∀ i c, (i, .served c) ∈ w.log →
    (∃ result, w.calls i = .done result) ∨ w.calls i = .cancelled ∧ c.reply = .ran .dropped
  /-- A call with a cached reply took place in one moment and ran no initializer. -/
  point : ∀ i c value, (i, .served c) ∈ w.log → c.reply = .cached value →
    c.start = c.stop ∧ ∀ ttl start, (i, .missed ttl start) ∉ w.log
  /-- A call that ran one took place from its second check on, undisturbed. -/
  interval : ∀ pre i c ending post, w.log = pre ++ (i, .served c) :: post →
    c.reply = .ran ending →
      ∃ pre' mid, pre = pre' ++ (i, .missed c.ttl c.start) :: mid ∧ ∀ x ∈ mid, x.2.Quiet
  /-- A cached reply was stored less than the caller's `ttl` before. -/
  unexpired : ∀ pre i c value post, w.log = pre ++ (i, .served c) :: post →
    c.reply = .cached value →
      ∃ j s, (j, .served s) ∈ pre ∧ s.reply = .ran (.ok value) ∧ c.start < s.stop + c.ttl

theorem Trace.completed {result : Except E T} {tr : List (Event T E)}
    (h : Trace (.done result) tr) :
    ∃ ttl mid c, tr = .began ttl :: mid ++ [.served c] ∧ (∀ e ∈ mid, e.op = none) ∧
      c.ttl = ttl ∧ c.reply.result = some result := by
  cases h with
  | fast ttl now value => exact ⟨ttl, [], _, rfl, by simp, rfl, rfl⟩
  | slow ttl t now value => exact ⟨ttl, [.passed t], _, rfl, by simp [Event.op], rfl, rfl⟩
  | stored ttl t start stop value =>
      exact ⟨ttl, [.passed t, .missed ttl start], _, rfl, by simp [Event.op], rfl, rfl⟩
  | failed ttl t start stop error =>
      exact ⟨ttl, [.passed t, .missed ttl start], _, rfl, by simp [Event.op], rfl, rfl⟩

theorem Trace.ended {tr : List (Event T E)} (h : Trace pc tr) {c : TtlCache.Call T E}
    (hc : .served c ∈ tr) :
    (∃ result, pc = .done result) ∨ pc = .cancelled ∧ c.reply = .ran .dropped := by
  cases h with
  | fast ttl now value => exact Or.inl ⟨_, rfl⟩
  | slow ttl t now value => exact Or.inl ⟨_, rfl⟩
  | stored ttl t start stop value => exact Or.inl ⟨_, rfl⟩
  | failed ttl t start stop error => exact Or.inl ⟨_, rfl⟩
  | dropped ttl t start stop =>
      obtain rfl : c = ⟨ttl, start, stop, .ran .dropped⟩ := by simpa using hc
      exact Or.inr ⟨rfl, rfl⟩
  | _ => simp at hc

theorem Trace.point {tr : List (Event T E)} (h : Trace pc tr) {c : TtlCache.Call T E} {value : T}
    (hc : .served c ∈ tr) (hreply : c.reply = .cached value) :
    c.start = c.stop ∧ ∀ ttl start, .missed ttl start ∉ tr := by
  cases h with
  | fast ttl now value =>
      obtain rfl : c = ⟨ttl, now, now, .cached value⟩ := by simpa using hc
      exact ⟨rfl, by simp⟩
  | slow ttl t now value =>
      obtain rfl : c = ⟨ttl, now, now, .cached value⟩ := by simpa using hc
      exact ⟨rfl, by simp⟩
  | stored ttl t start stop value =>
      obtain rfl : c = ⟨ttl, start, stop, .ran (.ok value)⟩ := by simpa using hc
      cases hreply
  | failed ttl t start stop error =>
      obtain rfl : c = ⟨ttl, start, stop, .ran (.err error)⟩ := by simpa using hc
      cases hreply
  | dropped ttl t start stop =>
      obtain rfl : c = ⟨ttl, start, stop, .ran .dropped⟩ := by simpa using hc
      cases hreply
  | _ => simp at hc

/-- A cached reply was stored before, by a call that ran its initializer. -/
theorem cached_stored (h : (cellMachine T E).Reachable w) {pre post : List (CallId × Event T E)}
    {c : TtlCache.Call T E} {value : T} (hlog : w.log = pre ++ (i, .served c) :: post)
    (hreply : c.reply = .cached value) :
    ∃ j s, (j, .served s) ∈ pre ∧ s.reply = .ran (.ok value) ∧ c.start < s.stop + c.ttl := by
  have hops : opsOf w.log = opsOf pre ++ c :: opsOf post := by
    rw [hlog, opsOf_append]
    rfl
  obtain ⟨before, s, between, hpre, hstored, hage, -⟩ :=
    TtlCache.cached_young (cell_linear h).legal hops hreply
  obtain ⟨j, hj⟩ := mem_opsOf.mp (show s ∈ opsOf pre by rw [hpre]; simp)
  exact ⟨j, s, hj, hstored, hage⟩

/-- What a call returns was stored, by itself or by another. -/
theorem returned_stored (h : (cellMachine T E).Reachable w) {value : T}
    (hi : w.calls i = .done (.ok value)) :
    ∃ j s, (j, .served s) ∈ w.log ∧ s.reply = .ran (.ok value) := by
  have htrace := cell_trace h i
  rw [hi] at htrace
  obtain ⟨ttl, mid, c, htr, -, -, hresult⟩ := htrace.completed
  have hc : (i, .served c) ∈ w.log := History.mem_of.mp (by rw [htr]; simp)
  rcases hreply : c.reply with v | ending
  · rw [hreply] at hresult
    obtain rfl : v = value := by simpa [Reply.result] using hresult
    obtain ⟨pre, post, hlog⟩ := List.append_of_mem hc
    obtain ⟨j, s, hs, hstored, -⟩ := cached_stored h hlog hreply
    exact ⟨j, s, by rw [hlog]; simp [hs], hstored⟩
  · refine ⟨i, c, hc, ?_⟩
    rw [hreply] at hresult ⊢
    cases ending with
    | ok v =>
        obtain rfl : v = value := by simpa [Reply.result] using hresult
        rfl
    | err error => simp [Reply.result] at hresult
    | dropped => simp [Reply.result] at hresult

/-- So was what the cell holds. -/
theorem entry_stored (h : (cellMachine T E).Reachable w) {value : T} {ts : Instant}
    (hentry : w.cell.value = some (value, ts)) :
    ∃ j s, (j, .served s) ∈ w.log ∧ s.reply = .ran (.ok value) := by
  have hI := cell_linear h
  obtain ⟨pre, c, post, hops, hstored, -⟩ :=
    TtlCache.after_eq_some hI.legal (hI.entry.trans hentry)
  obtain ⟨j, hj⟩ := mem_opsOf.mp (show c ∈ opsOf w.log by rw [hops]; simp)
  exact ⟨j, c, hj, (TtlCache.Call.stored_eq_some.mp hstored).1⟩

/-- **A cell refines the cache that serves one call at a time**, for any number of calls and
in any order of their steps. -/
theorem cell_refines (h : (cellMachine T E).Reachable w) : Refines w where
  legal := (cell_linear h).legal
  entry := (cell_linear h).entry
  timed := (cell_linear h).timed
  completed i result hi := by
    have htrace := cell_trace h i
    rw [hi] at htrace
    exact htrace.completed
  ended i c hc := (cell_trace h i).ended (History.mem_of.mpr hc)
  point i c value hc hreply := by
    obtain ⟨hpoint, hnever⟩ := (cell_trace h i).point (History.mem_of.mpr hc) hreply
    exact ⟨hpoint, fun ttl start hmem => hnever ttl start (History.mem_of.mpr hmem)⟩
  interval := (cell_intervals h).closed
  unexpired pre i c value post hlog hreply := cached_stored h hlog hreply

/-- One call runs its initializer and two wait for it.  The first of them is served by its
value; the second tolerates less, and is dropped while its own initializer runs. -/
def sharedRun : List (Action Nat String) :=
  [.call 0 (.call 60), .call 1 (.call 60), .call 2 (.call 5), .call 0 .go, .call 1 .go,
    .call 2 .go, .call 0 .go, .call 1 .go, .call 2 .go, .call 0 .go, .call 0 .go, .tick 3,
    .call 0 (.finished (.ok 7)), .tick 20, .call 1 .go, .call 1 .go, .call 2 .go, .call 2 .go,
    .call 2 .cancel]

theorem cell_refines_shared : ∃ w : World Nat String,
    w.cell.value = some (7, 3) ∧ (opsOf w.log).length = 3 ∧ Refines w := by
  obtain ⟨w, hw, hp⟩ := reachable_of_run sharedRun
    (fun w => w.cell.value == some (7, 3) && (opsOf w.log).length == 3) (by decide)
  simp only [Bool.and_eq_true, beq_iff_eq] at hp
  exact ⟨w, hp.1, hp.2, cell_refines hw⟩

end Keyring.Core
