/-
One refresh at a time, and only where one is due.

The write guard is held from the second check to the end of the initializer.  That check
is made on what the last holder left, so a caller that has waited starts its initializer
only if everything stored in the meantime is old for it again.  A holder that failed or
was dropped has left the entry as it found it, and the next caller in line tries in its
place.
-/
import Keyring.Proofs.Core.Cell.Linear

namespace Keyring.Core

variable {T E : Type*} {i j : CallId} {cell' : CacheCell T} {pc pc' : Pc T E}
  {input : Input T E} {events : List (Event T E)} {w : World T E}

/-! ### When an initializer starts -/

/-- At most one initializer runs. -/
theorem inInit_unique (h : (cellMachine T E).Reachable w) (hi : (w.calls i).inInit = true)
    (hj : (w.calls j).inInit = true) : i = j := by
  by_contra hne
  have hnone := guard_none_of_inInit h hj hne
  rw [guard_of_inInit hi] at hnone
  cases hnone

/-- Where the code finds nothing fresh, everything ever stored is old. -/
theorem Linear.old (hI : Linear w) {ttl : Duration}
    (hold : fresh w.clock ttl w.cell.value = none) {c : TtlCache.Call T E}
    (hc : c ∈ opsOf w.log) {value : T} {ts : Instant} (hstored : c.stored = some (value, ts)) :
    ts + ttl ≤ w.clock := by
  obtain ⟨⟨value', ts'⟩, hentry, hle⟩ :=
    TtlCache.stored_le_after hI.legal hI.timed hc hstored
  have hyoung := hI.young hI.past ttl
  rw [hold, hentry, TtlCache.young] at hyoung
  by_contra hnew
  rw [if_pos (Nat.lt_of_lt_of_le (Nat.lt_of_not_le hnew) (Nat.add_le_add_right hle ttl))] at hyoung
  cases hyoung

/-- An initializer starts where the second check finds nothing fresh. -/
theorem Move.of_missed {now : Instant} {cell : CacheCell T}
    (h : Move i now cell pc input cell' pc' events) {ttl : Duration} {t : Instant}
    (he : .missed ttl t ∈ events) :
    t = now ∧ fresh now ttl cell.value = none ∧ events = [.missed ttl t] := by
  cases h with
  | missed hold =>
      obtain ⟨rfl, rfl⟩ : ttl = _ ∧ t = now := by simpa using he
      exact ⟨rfl, hold, rfl⟩
  | _ => simp at he

/-- Whatever was stored before an initializer starts is old for its caller. -/
def StartsOld (w : World T E) : Prop :=
  ∀ pre i ttl now post, w.log = pre ++ (i, .missed ttl now) :: post →
    ∀ j c value ts, (j, .served c) ∈ pre → c.stored = some (value, ts) → ts + ttl ≤ now

theorem StartsOld.moved (hr : (cellMachine T E).Reachable w) (hI : StartsOld w)
    (hm : Move i w.clock w.cell (w.calls i) input cell' pc' events) :
    StartsOld (w.moved i cell' pc' events) := by
  intro pre k ttl now post hlog j c value ts hc hstored
  rw [moved_log] at hlog
  rcases History.append_split hlog with ⟨later, hlog, -⟩ | ⟨mid, rfl, hnew⟩
  · exact hI pre k ttl now later hlog j c value ts hc hstored
  · have hmem : (k, Event.missed ttl now) ∈ events.map fun e => (i, e) := by rw [hnew]; simp
    obtain ⟨e, he, heq⟩ := List.mem_map.mp hmem
    cases heq
    obtain ⟨rfl, hold, rfl⟩ := hm.of_missed he
    obtain ⟨rfl, -, -⟩ := History.singleton_split hnew
    rw [List.append_nil] at hc
    exact (cell_linear hr).old hold (mem_opsOf.mpr ⟨j, hc⟩) hstored

theorem cell_startsOld (h : (cellMachine T E).Reachable w) : StartsOld w := by
  refine cell_invariant ?_ (fun hr hI hm => StartsOld.moved hr hI hm) (fun _ _ hI => hI) h
  intro clock pre i ttl now post hlog
  simp [World.start] at hlog

/-! ### Events of one call -/

theorem Trace.missed_at {tr : List (Event T E)} (h : Trace pc tr) {n : Nat} {ttl : Duration}
    {start : Instant} (hn : tr[n]? = some (.missed ttl start)) : n = 2 := by
  cases h <;> rcases n with _ | _ | _ | _ | n <;> simp at hn ⊢

/-- A call starts its initializer once. -/
theorem Trace.missed_once {tr x y : List (Event T E)} (h : Trace pc tr) {ttl : Duration}
    {start : Instant} (htr : tr = x ++ .missed ttl start :: y) (ttl' : Duration)
    (start' : Instant) : .missed ttl' start' ∉ x := by
  intro hmem
  obtain ⟨k, hk⟩ := List.mem_iff_getElem?.mp hmem
  have hlt : k < x.length := (List.getElem?_eq_some_iff.mp hk).1
  have hfirst : k = 2 := h.missed_at (by rw [htr, List.getElem?_append_left hlt, hk])
  have hat : tr[x.length]? = some (.missed ttl start) := by rw [htr]; simp
  have hsecond := h.missed_at hat
  omega

/-- A call brings one `ttl`. -/
theorem Trace.began_of_served {tr : List (Event T E)} (h : Trace pc tr) {c : TtlCache.Call T E}
    (hc : .served c ∈ tr) : .began c.ttl ∈ tr := by
  cases h <;> simp_all

/-! ### What the cell promises -/

/-- A call that found no fresh entry, and waits to look again. -/
def Queued (log : List (CallId × Event T E)) (i : CallId) : Prop :=
  ∃ ttl t, History.of i log = [.began ttl, .passed t]

/-- A call that ran its initializer. -/
def Ran (log : List (CallId × Event T E)) (i : CallId) : Prop :=
  ∃ ttl start, (i, .missed ttl start) ∈ log

/-- The second check of a call that passed the first: with which `ttl`, and when. -/
def Event.rechecks : Event T E → Option (Duration × Instant)
  | .missed ttl now => some (ttl, now)
  | .served c =>
      match c.reply with
      | .cached _ => some (c.ttl, c.start)
      | .ran _ => none
  | _ => none

/-- What it means for a cell to be single-flight. -/
structure SingleFlight (w : World T E) : Prop where
  one : ∀ i j, (w.calls i).inInit = true → (w.calls j).inInit = true → i = j
  old : StartsOld w
  /-- Where all callers have the same `ttl`, stores are that far apart. -/
  apart : ∀ ttl, (∀ i ttl', (i, .began ttl') ∈ w.log → ttl' = ttl) →
    ∀ pre i c mid j c' post, w.log = pre ++ (i, .served c) :: mid ++ (j, .served c') :: post →
      ∀ value ts value' ts', c.stored = some (value, ts) → c'.stored = some (value', ts') →
        ts + ttl ≤ ts'
  /-- Of a group in the queue, the first to run its initializer is the only one, if it
  stores a value and the others look again before that is old for them. -/
  shared : ∀ (group : CallId → Prop) pre a i ttl start b c value ts,
    w.log = pre ++ a ++ (i, .missed ttl start) :: b → (∀ j, group j → Queued pre j) → group i →
      (∀ j, group j → ∀ ttl' now, (j, .missed ttl' now) ∉ a) →
      (i, .served c) ∈ b → c.stored = some (value, ts) →
      (∀ j, group j → j ≠ i → ∀ e ttl' now, (j, e) ∈ b → e.rechecks = some (ttl', now) →
        now < ts + ttl') →
      ∃! j, group j ∧ Ran w.log j

theorem ran_of_stored {c : TtlCache.Call T E} {entry : T × Instant} (h : c.stored = some entry) :
    c.reply = .ran (.ok entry.1) := (TtlCache.Call.stored_eq_some.mp h).1

/-- A store comes a `ttl` after every earlier one. -/
theorem store_apart (h : (cellMachine T E).Reachable w)
    {pre mid post : List (CallId × Event T E)} {c c' : TtlCache.Call T E}
    (hlog : w.log = pre ++ (i, .served c) :: mid ++ (j, .served c') :: post)
    {value value' : T} {ts ts' : Instant} (hc : c.stored = some (value, ts))
    (hc' : c'.stored = some (value', ts')) : ts + c'.ttl ≤ ts' := by
  obtain ⟨pre', mid', hpre, hquiet⟩ :=
    (cell_intervals h).closed _ j c' _ post hlog (ran_of_stored hc')
  have hbefore : (i, Event.served c) ∈ pre' := by
    have hmem : (i, Event.served c) ∈ pre' ++ (j, .missed c'.ttl c'.start) :: mid' := by
      rw [← hpre]
      simp
    rcases List.mem_append.mp hmem with hmem | hmem
    · exact hmem
    · rcases List.mem_cons.mp hmem with heq | hmem
      · cases heq
      · cases (hquiet _ hmem).1
  have hstart := cell_startsOld h pre' j c'.ttl c'.start (mid' ++ (j, .served c') :: post)
    (by rw [hlog, hpre]; simp) i c value ts hbefore hc
  have hspan := (cell_linear h).timed.spans c' (mem_opsOf.mpr ⟨j, by rw [hlog]; simp⟩)
  obtain ⟨-, rfl⟩ := TtlCache.Call.stored_eq_some.mp hc'
  exact Nat.le_trans hstart hspan

/-- No initializer starts between the start of another and its end. -/
theorem missed_after_served (h : (cellMachine T E).Reachable w)
    {pre b₁ b₂ : List (CallId × Event T E)} {ttl ttl' : Duration} {start now : Instant}
    (hlog : w.log = pre ++ (i, .missed ttl start) :: b₁ ++ (j, .missed ttl' now) :: b₂)
    {c : TtlCache.Call T E} {ending : Ending T E} (hc : c.reply = .ran ending)
    (hmem : (i, .served c) ∈ b₁ ++ (j, .missed ttl' now) :: b₂) : (i, .served c) ∈ b₁ := by
  rcases List.mem_append.mp hmem with hmem | hmem
  · exact hmem
  rcases List.mem_cons.mp hmem with heq | hmem
  · cases heq
  · obtain ⟨b₃, b₄, rfl⟩ := List.append_of_mem hmem
    obtain ⟨pre', mid, hsplit, hquiet⟩ := (cell_intervals h).closed
      (pre ++ (i, .missed ttl start) :: b₁ ++ (j, .missed ttl' now) :: b₃) i c ending b₄
      (by rw [hlog]; simp) hc
    rcases History.append_split hsplit with ⟨mid', -, rfl⟩ | ⟨mid', rfl, -⟩
    · -- the other start would be inside the undisturbed stretch
      exact absurd rfl ((hquiet (j, .missed ttl' now) (by simp)).2 ttl' now)
    · -- the caller would have started twice
      have htrace := cell_trace h i
      have hagain : w.log = (pre ++ (i, .missed ttl start) :: b₁ ++ mid') ++
          (i, .missed c.ttl c.start) :: (mid ++ (i, .served c) :: b₄) := by
        have hwhole := congrArg (fun l => l ++ (i, Event.served c) :: b₄) hsplit
        rw [hlog]
        simpa using hwhole
      rw [hagain, History.of_append_cons] at htrace
      refine absurd ?_ (htrace.missed_once rfl ttl start)
      exact History.mem_of.mpr (by simp)

/-- **A cell is single-flight**, for any number of callers and in any order of their steps. -/
theorem cell_singleFlight (h : (cellMachine T E).Reachable w) : SingleFlight w where
  one i j hi hj := inInit_unique h hi hj
  old := cell_startsOld h
  apart ttl hsame pre i c mid j c' post hlog value ts value' ts' hc hc' := by
    have hbegan := (cell_trace h j).began_of_served
      (History.mem_of.mpr (show (j, .served c') ∈ w.log by rw [hlog]; simp))
    rw [← hsame j c'.ttl (History.mem_of.mp hbegan)]
    exact store_apart h hlog hc hc'
  shared group pre a i ttl start b c value ts hlog hqueued hi hfirst hc hstored hwithin := by
    refine ⟨i, ⟨hi, ttl, start, by rw [hlog]; simp⟩, ?_⟩
    rintro j ⟨hj, ttl', now, hran⟩
    by_contra hji
    rw [hlog] at hran
    have hb : (j, Event.missed ttl' now) ∈ b := by
      rcases List.mem_append.mp hran with hran | hran
      · rcases List.mem_append.mp hran with hran | hran
        · obtain ⟨ttl₀, t₀, hhistory⟩ := hqueued j hj
          have hmem := History.mem_of.mpr hran
          rw [hhistory] at hmem
          simp at hmem
        · exact absurd hran (hfirst j hj ttl' now)
      · rcases List.mem_cons.mp hran with heq | hran
        · cases heq
          exact absurd rfl hji
        · exact hran
    have hage := hwithin j hj hji _ ttl' now hb rfl
    obtain ⟨b₁, b₂, rfl⟩ := List.append_of_mem hb
    have hlog' : w.log = (pre ++ a) ++ (i, .missed ttl start) :: b₁ ++
        (j, .missed ttl' now) :: b₂ := by rw [hlog]; simp
    have hbefore := missed_after_served h hlog' (ran_of_stored hstored) hc
    have hold := cell_startsOld h _ j ttl' now b₂ hlog' i c value ts (by simp [hbefore]) hstored
    exact absurd hold (Nat.not_le.mpr hage)

theorem cell_singleFlight_shared : ∃ w : World Nat String,
    (History.of 1 w.log).length = 3 ∧ (History.of 2 w.log).length = 4 ∧ SingleFlight w := by
  obtain ⟨w, hw, hp⟩ := reachable_of_run sharedRun
    (fun w => (History.of 1 w.log).length == 3 && (History.of 2 w.log).length == 4) (by decide)
  simp only [Bool.and_eq_true, beq_iff_eq] at hp
  exact ⟨w, hp.1, hp.2, cell_singleFlight hw⟩

end Keyring.Core
