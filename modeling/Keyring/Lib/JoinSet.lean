/-
A set of spawned tasks, taken out one by one as they end.

Every task has an identity, given out in the order of spawning.  A task runs beside the
program that spawned it: it ends at some point with a result, and stays in the set until
the program joins it.  Tasks may be joined in any order.
-/
import Mathlib.Data.List.Nodup

/-- A task, with what it works on and, once it has ended, its result. -/
structure JoinSet.Entry (α β : Type*) where
  id : Nat
  input : α
  result : Option β

/-- The tasks spawned and not yet joined; an identity is below the number of tasks spawned
so far. -/
structure JoinSet (α β : Type*) where
  tasks : List (JoinSet.Entry α β)
  spawned : Nat
  fresh : ∀ task ∈ tasks, task.id < spawned

namespace JoinSet

variable {α β : Type*}

/-- `JoinSet::new`. -/
def new : JoinSet α β := ⟨[], 0, by simp⟩

def isEmpty (s : JoinSet α β) : Bool := s.tasks.isEmpty

/-- Start a task. -/
def spawn (s : JoinSet α β) (a : α) : JoinSet α β where
  tasks := s.tasks ++ [⟨s.spawned, a, none⟩]
  spawned := s.spawned + 1
  fresh := by
    intro task htask
    rcases List.mem_append.mp htask with hold | hnew
    · exact Nat.lt_succ_of_lt (s.fresh task hold)
    · rw [List.mem_singleton.mp hnew]
      exact Nat.lt_succ_self s.spawned

/-- The result a task has, once the task `id` has ended with `b`. -/
def Entry.finish (id : Nat) (b : β) (task : Entry α β) : Entry α β :=
  if task.id = id ∧ task.result.isNone then { task with result := some b } else task

@[simp] theorem Entry.finish_id (id : Nat) (b : β) (task : Entry α β) :
    (Entry.finish id b task).id = task.id := by
  unfold Entry.finish
  split <;> rfl

/-- The task `id`, if it is still running, ends. -/
def finish (s : JoinSet α β) (id : Nat) (b : β) : JoinSet α β where
  tasks := s.tasks.map (Entry.finish id b)
  spawned := s.spawned
  fresh := by
    intro task htask
    obtain ⟨old, hold, rfl⟩ := List.mem_map.mp htask
    rw [Entry.finish_id]
    exact s.fresh old hold

/-- Take the task `id` out, if it has ended. -/
def joinNext (s : JoinSet α β) (id : Nat) : Option (β × JoinSet α β) :=
  (s.tasks.find? fun task => task.id == id).bind fun task => task.result.map fun b =>
    (b, { tasks := s.tasks.filter fun task => task.id != id
          spawned := s.spawned
          fresh := fun task htask => s.fresh task (List.mem_filter.mp htask).1 })

/-! ### The identities in a set -/

/-- The identities of the tasks that are there. -/
def ids (s : JoinSet α β) : List Nat := s.tasks.map Entry.id

theorem ids_eq_nil {s : JoinSet α β} : s.ids = [] ↔ s.tasks = [] := List.map_eq_nil_iff

@[simp] theorem ids_length (s : JoinSet α β) : s.ids.length = s.tasks.length := List.length_map _

theorem lt_of_mem_ids {s : JoinSet α β} {id : Nat} (h : id ∈ s.ids) : id < s.spawned := by
  obtain ⟨task, htask, rfl⟩ := List.mem_map.mp h
  exact s.fresh task htask

@[simp] theorem ids_spawn (s : JoinSet α β) (a : α) : (s.spawn a).ids = s.ids ++ [s.spawned] :=
  List.map_append

@[simp] theorem spawned_spawn (s : JoinSet α β) (a : α) : (s.spawn a).spawned = s.spawned + 1 :=
  rfl

@[simp] theorem ids_finish (s : JoinSet α β) (id : Nat) (b : β) : (s.finish id b).ids = s.ids := by
  show (s.tasks.map (Entry.finish id b)).map Entry.id = _
  rw [List.map_map]
  apply List.map_congr_left
  intro task _
  exact Entry.finish_id id b task

/-- What a join says: the task was there, and it is there no more. -/
theorem joinNext_eq_some {s s' : JoinSet α β} {id : Nat} {b : β}
    (h : s.joinNext id = some (b, s')) :
    id ∈ s.ids ∧ s'.ids = s.ids.filter (· != id) ∧ s'.spawned = s.spawned := by
  obtain ⟨task, hfind, hrest⟩ := Option.bind_eq_some_iff.mp h
  obtain ⟨result, -, heq⟩ := Option.map_eq_some_iff.mp hrest
  obtain ⟨-, rfl⟩ := Prod.mk.inj heq
  have hmem : task ∈ s.tasks := List.mem_of_find?_eq_some hfind
  have hid : task.id = id := by simpa using List.find?_some hfind
  refine ⟨List.mem_map.mpr ⟨task, hmem, hid⟩, ?_, rfl⟩
  show (s.tasks.filter fun task => task.id != id).map Entry.id = _
  rw [ids, List.filter_map]
  rfl

/-- Joining the only task leaves none. -/
theorem ids_joinNext_of_single {s s' : JoinSet α β} {id : Nat} {b : β} (hone : s.ids.length ≤ 1)
    (h : s.joinNext id = some (b, s')) : s'.ids = [] := by
  obtain ⟨hmem, hids, -⟩ := joinNext_eq_some h
  rw [hids]
  match hs : s.ids with
  | [] => rfl
  | [only] =>
      rw [hs, List.mem_singleton] at hmem
      simp [hmem]
  | _ :: _ :: _ =>
      rw [hs] at hone
      simp at hone

/-! ### What is left to do -/

/-- The task is there and has not ended. -/
def Running (s : JoinSet α β) (id : Nat) : Prop :=
  ∃ task ∈ s.tasks, task.id = id ∧ task.result = none

/-- The ends and the joins that are still to come. -/
def pending (s : JoinSet α β) : Nat :=
  s.tasks.length + s.tasks.countP fun task => task.result.isNone

theorem Entry.finish_of_running {id : Nat} {b : β} {task : Entry α β} (hid : task.id = id)
    (hresult : task.result = none) : Entry.finish id b task = { task with result := some b } :=
  if_pos ⟨hid, by rw [hresult]; rfl⟩

@[simp] theorem Entry.finish_input (id : Nat) (b : β) (task : Entry α β) :
    (Entry.finish id b task).input = task.input := by
  unfold Entry.finish
  split <;> rfl

/-- A task that runs after one has ended ran before. -/
theorem Entry.result_of_finish {id : Nat} {b : β} {task : Entry α β}
    (h : (Entry.finish id b task).result = none) :
    task.result = none ∧ task.id ≠ id := by
  by_cases hresult : task.result = none
  · refine ⟨hresult, fun hid => ?_⟩
    rw [Entry.finish_of_running hid hresult] at h
    cases h
  · have hnot : ¬(task.id = id ∧ task.result.isNone) := by simp [hresult]
    rw [Entry.finish, if_neg hnot] at h
    exact absurd h hresult

/-- No end of a task adds to those that run. -/
theorem countP_finish_le (id : Nat) (b : β) (tasks : List (Entry α β)) :
    (tasks.map (Entry.finish id b)).countP (fun task => task.result.isNone) ≤
      tasks.countP fun task => task.result.isNone := by
  rw [List.countP_map]
  apply List.countP_mono_left
  intro task _ h
  have hnone : (Entry.finish id b task).result = none := Option.isNone_iff_eq_none.mp h
  exact Option.isNone_iff_eq_none.mpr (Entry.result_of_finish hnone).1

theorem countP_finish_lt (id : Nat) (b : β) :
    ∀ {tasks : List (Entry α β)}, (∃ task ∈ tasks, task.id = id ∧ task.result = none) →
      (tasks.map (Entry.finish id b)).countP (fun task => task.result.isNone) <
        tasks.countP fun task => task.result.isNone := by
  intro tasks
  induction tasks with
  | nil =>
      rintro ⟨task, htask, -⟩
      cases htask
  | cons head rest ih =>
      rintro ⟨task, htask, hid, hresult⟩
      rw [List.map_cons, List.countP_cons, List.countP_cons]
      rcases List.mem_cons.mp htask with rfl | hrest
      · rw [Entry.finish_of_running hid hresult, hresult]
        have hle := countP_finish_le id b rest
        simp only [Option.isNone_some, Option.isNone_none, Bool.false_eq_true, if_true, if_false]
        omega
      · have hlt := ih ⟨task, hrest, hid, hresult⟩
        have hhead := countP_finish_le id b [head]
        rw [List.map_singleton, List.countP_singleton, List.countP_singleton] at hhead
        omega

/-- **The end of a task leaves less to do.** -/
theorem pending_finish_lt {s : JoinSet α β} {id : Nat} (h : s.Running id) (b : β) :
    (s.finish id b).pending < s.pending := by
  have hlength : (s.finish id b).tasks.length = s.tasks.length := List.length_map _
  have hcount := countP_finish_lt id b h
  unfold pending
  rw [hlength]
  exact Nat.add_lt_add_left hcount _

/-- What a join leaves is what was there, without the task. -/
theorem tasks_joinNext {s s' : JoinSet α β} {id : Nat} {b : β}
    (h : s.joinNext id = some (b, s')) :
    s'.tasks = s.tasks.filter (fun task => task.id != id) ∧ id ∈ s.ids := by
  obtain ⟨task, hfind, hrest⟩ := Option.bind_eq_some_iff.mp h
  obtain ⟨result, -, heq⟩ := Option.map_eq_some_iff.mp hrest
  obtain ⟨-, rfl⟩ := Prod.mk.inj heq
  exact ⟨rfl, (joinNext_eq_some h).1⟩

/-- A join hands out the result of the task. -/
theorem exists_of_joinNext {s s' : JoinSet α β} {id : Nat} {b : β}
    (h : s.joinNext id = some (b, s')) : ∃ task ∈ s.tasks, task.id = id ∧ task.result = some b := by
  obtain ⟨task, hfind, hrest⟩ := Option.bind_eq_some_iff.mp h
  obtain ⟨result, hresult, heq⟩ := Option.map_eq_some_iff.mp hrest
  obtain ⟨rfl, -⟩ := Prod.mk.inj heq
  exact ⟨task, List.mem_of_find?_eq_some hfind, by simpa using List.find?_some hfind, hresult⟩

/-- What a finished task was before. -/
theorem mem_finish {s : JoinSet α β} {id : Nat} {b : β} {task : Entry α β}
    (h : task ∈ (s.finish id b).tasks) :
    ∃ old ∈ s.tasks, task.id = old.id ∧
      (task = old ∨ old.id = id ∧ old.result = none ∧ task.result = some b) := by
  obtain ⟨old, hold, rfl⟩ := List.mem_map.mp h
  refine ⟨old, hold, Entry.finish_id id b old, ?_⟩
  unfold Entry.finish
  split
  · rename_i hrun
    exact Or.inr ⟨hrun.1, Option.isNone_iff_eq_none.mp hrun.2, rfl⟩
  · exact Or.inl rfl

/-- **A join leaves less to do.** -/
theorem pending_joinNext_lt {s s' : JoinSet α β} {id : Nat} {b : β}
    (h : s.joinNext id = some (b, s')) : s'.pending < s.pending := by
  obtain ⟨htasks, hmem⟩ := tasks_joinNext h
  obtain ⟨task, htask, hid⟩ := List.mem_map.mp hmem
  have hlength : s'.tasks.length < s.tasks.length := by
    rw [htasks]
    exact List.length_filter_lt_length_iff_exists.mpr ⟨task, htask, by simp [hid]⟩
  have hcount : s'.tasks.countP (fun task => task.result.isNone) ≤
      s.tasks.countP fun task => task.result.isNone := by
    rw [htasks]
    exact List.filter_sublist.countP_le
  unfold pending
  omega

/-- As long as there is a task, one can end or be joined. -/
theorem exists_running_or_joinNext {s : JoinSet α β} (h : s.tasks ≠ []) :
    (∃ id, s.Running id) ∨ ∃ id b s', s.joinNext id = some (b, s') := by
  match htasks : s.tasks with
  | [] => exact absurd htasks h
  | task :: rest =>
      have hmem : task ∈ s.tasks := by rw [htasks]; exact List.mem_cons_self ..
      cases hresult : task.result with
      | none => exact Or.inl ⟨task.id, task, hmem, rfl, hresult⟩
      | some b =>
          have hfind : (s.tasks.find? fun t => t.id == task.id) = some task := by
            rw [htasks, List.find?_cons_of_pos (by simp)]
          have hsome : (s.joinNext task.id).isSome := by
            rw [joinNext, hfind, Option.bind_some, hresult]
            rfl
          obtain ⟨⟨b', s'⟩, hjoin⟩ := Option.isSome_iff_exists.mp hsome
          exact Or.inr ⟨task.id, b', s', hjoin⟩

/-! ### What runs -/

theorem Running.lt_spawned {s : JoinSet α β} {id : Nat} (h : s.Running id) : id < s.spawned := by
  obtain ⟨task, hmem, rfl, -⟩ := h
  exact s.fresh task hmem

theorem Running.of_spawn {s : JoinSet α β} {a : α} {id : Nat} (h : (s.spawn a).Running id) :
    s.Running id ∨ id = s.spawned := by
  obtain ⟨task, hmem, rfl, hnone⟩ := h
  rcases List.mem_append.mp hmem with hold | hnew
  · exact Or.inl ⟨task, hold, rfl, hnone⟩
  · rw [List.mem_singleton.mp hnew]
    exact Or.inr rfl

theorem Running.of_joinNext {s s' : JoinSet α β} {id id' : Nat} {b : β}
    (hjoin : s.joinNext id' = some (b, s')) (h : s'.Running id) : s.Running id := by
  obtain ⟨task, hmem, hid, hnone⟩ := h
  rw [(tasks_joinNext hjoin).1] at hmem
  exact ⟨task, (List.mem_filter.mp hmem).1, hid, hnone⟩

theorem Running.of_finish {s : JoinSet α β} {id id' : Nat} {b : β}
    (h : (s.finish id' b).Running id) : s.Running id ∧ id ≠ id' := by
  obtain ⟨task, hmem, rfl, hnone⟩ := h
  obtain ⟨old, hold, rfl⟩ := List.mem_map.mp hmem
  obtain ⟨hresult, hne⟩ := Entry.result_of_finish hnone
  rw [Entry.finish_id]
  exact ⟨⟨old, hold, rfl, hresult⟩, hne⟩

theorem Running.spawn {s : JoinSet α β} {id : Nat} (h : s.Running id) (a : α) :
    (s.spawn a).Running id := by
  obtain ⟨task, hmem, hid⟩ := h
  exact ⟨task, List.mem_append_left _ hmem, hid⟩

theorem running_spawn_self (s : JoinSet α β) (a : α) : (s.spawn a).Running s.spawned :=
  ⟨⟨s.spawned, a, none⟩, List.mem_append_right _ (List.mem_singleton_self _), rfl, rfl⟩

theorem Running.finish {s : JoinSet α β} {id id' : Nat} (h : s.Running id) (hne : id ≠ id')
    (b : β) : (s.finish id' b).Running id := by
  obtain ⟨task, hmem, rfl, hnone⟩ := h
  refine ⟨Entry.finish id' b task, List.mem_map.mpr ⟨task, hmem, rfl⟩, Entry.finish_id .., ?_⟩
  rw [Entry.finish, if_neg fun hend => hne hend.1, hnone]

/-- Where no identity is given out twice, a join takes out no task that runs. -/
theorem Running.joinNext {s s' : JoinSet α β} {id id' : Nat} {b : β} (h : s.Running id)
    (hnodup : s.ids.Nodup) (hjoin : s.joinNext id' = some (b, s')) : s'.Running id := by
  obtain ⟨task, hmem, rfl, hnone⟩ := h
  obtain ⟨other, hother, rfl, hended⟩ := exists_of_joinNext hjoin
  refine ⟨task, ?_, rfl, hnone⟩
  rw [(tasks_joinNext hjoin).1, List.mem_filter]
  refine ⟨hmem, bne_iff_ne.mpr fun hid => ?_⟩
  obtain rfl : task = other := List.inj_on_of_nodup_map hnodup hmem hother hid
  rw [hended] at hnone
  cases hnone

theorem nodup_spawn {s : JoinSet α β} (h : s.ids.Nodup) (a : α) : (s.spawn a).ids.Nodup := by
  rw [ids_spawn, ← List.concat_eq_append]
  exact h.concat fun hmem => Nat.lt_irrefl _ (lt_of_mem_ids hmem)

theorem nodup_joinNext {s s' : JoinSet α β} {id : Nat} {b : β} (h : s.ids.Nodup)
    (hjoin : s.joinNext id = some (b, s')) : s'.ids.Nodup := by
  rw [(joinNext_eq_some hjoin).2.1]
  exact h.filter _

/-! ### Weighing what is left -/

/-- What a task weighs: a running one by its identity, one that has ended until it is
joined. -/
def Entry.weight (f : Nat → Nat) (task : Entry α β) : Nat :=
  match task.result with
  | none => f task.id + 2
  | some _ => 1

def weight (f : Nat → Nat) (s : JoinSet α β) : Nat :=
  s.tasks.foldr (fun task n => task.weight f + n) 0

theorem Entry.weight_pos (f : Nat → Nat) (task : Entry α β) : 0 < task.weight f := by
  unfold Entry.weight
  split <;> exact Nat.succ_pos _

theorem foldr_map_le {γ : Type*} {u v : γ → Nat} {g : γ → γ} :
    ∀ {l : List γ}, (∀ a ∈ l, u (g a) ≤ v a) →
      (l.map g).foldr (fun a n => u a + n) 0 ≤ l.foldr (fun a n => v a + n) 0 := by
  intro l
  induction l with
  | nil => exact fun _ => Nat.le_refl 0
  | cons a rest ih =>
      intro h
      have hrest := ih fun b hb => h b (List.mem_cons_of_mem _ hb)
      exact Nat.add_le_add (h a List.mem_cons_self) hrest

theorem foldr_map_lt {γ : Type*} {u v : γ → Nat} {g : γ → γ} :
    ∀ {l : List γ}, (∀ a ∈ l, u (g a) ≤ v a) → (∃ a ∈ l, u (g a) < v a) →
      (l.map g).foldr (fun a n => u a + n) 0 < l.foldr (fun a n => v a + n) 0 := by
  intro l
  induction l with
  | nil =>
      rintro - ⟨a, hmem, -⟩
      cases hmem
  | cons a rest ih =>
      rintro h ⟨b, hmem, hlt⟩
      have hhead := h a List.mem_cons_self
      have htail : ∀ c ∈ rest, u (g c) ≤ v c := fun c hc => h c (List.mem_cons_of_mem _ hc)
      rcases List.mem_cons.mp hmem with rfl | hmem
      · exact Nat.add_lt_add_of_lt_of_le hlt (foldr_map_le htail)
      · exact Nat.add_lt_add_of_le_of_lt hhead (ih htail ⟨b, hmem, hlt⟩)

theorem foldr_filter_le {γ : Type*} {v : γ → Nat} {p : γ → Bool} (l : List γ) :
    (l.filter p).foldr (fun a n => v a + n) 0 ≤ l.foldr (fun a n => v a + n) 0 := by
  induction l with
  | nil => exact Nat.le_refl 0
  | cons a rest ih =>
      by_cases ha : p a = true
      · rw [List.filter_cons_of_pos ha]
        exact Nat.add_le_add_left ih _
      · rw [List.filter_cons_of_neg ha]
        exact Nat.le_trans ih (Nat.le_add_left _ _)

theorem foldr_filter_lt {γ : Type*} {v : γ → Nat} {p : γ → Bool} (hpos : ∀ a, 0 < v a) :
    ∀ {l : List γ}, (∃ a ∈ l, p a = false) →
      (l.filter p).foldr (fun a n => v a + n) 0 < l.foldr (fun a n => v a + n) 0 := by
  intro l
  induction l with
  | nil =>
      rintro ⟨a, hmem, -⟩
      cases hmem
  | cons a rest ih =>
      rintro ⟨b, hmem, hb⟩
      by_cases ha : p a = true
      · rw [List.filter_cons_of_pos ha]
        have hrest : b ∈ rest := by
          rcases List.mem_cons.mp hmem with rfl | hmem
          · rw [ha] at hb
            cases hb
          · exact hmem
        exact Nat.add_lt_add_left (ih ⟨b, hrest, hb⟩) _
      · rw [List.filter_cons_of_neg ha]
        exact Nat.lt_of_le_of_lt (foldr_filter_le rest) (Nat.lt_add_of_pos_left (hpos a))

theorem Entry.weight_mono {f f' : Nat → Nat} (hle : ∀ i, f' i ≤ f i) (task : Entry α β) :
    task.weight f' ≤ task.weight f := by
  unfold Entry.weight
  cases task.result with
  | none => exact Nat.add_le_add_right (hle task.id) 2
  | some _ => exact Nat.le_refl 1

/-- A running task that has less ahead of it leaves less to do. -/
theorem weight_lt {s : JoinSet α β} {id : Nat} {f f' : Nat → Nat} (h : s.Running id)
    (hle : ∀ i, f' i ≤ f i) (hlt : f' id < f id) : s.weight f' < s.weight f := by
  obtain ⟨task, hmem, rfl, hnone⟩ := h
  have hone : task.weight f' < task.weight f := by
    simp only [Entry.weight, hnone]
    exact Nat.add_lt_add_right hlt 2
  have h := foldr_map_lt (g := fun t => t) (l := s.tasks)
    (fun t _ => Entry.weight_mono hle t) ⟨task, hmem, hone⟩
  rwa [List.map_id'] at h

/-- So does one that ends. -/
theorem weight_finish_lt {s : JoinSet α β} {id : Nat} {b : β} {f f' : Nat → Nat}
    (h : s.Running id) (hle : ∀ i, f' i ≤ f i) : (s.finish id b).weight f' < s.weight f := by
  obtain ⟨task, hmem, hid, hnone⟩ := h
  have hended : ∀ {t : Entry α β}, t.id = id → t.result = none →
      (Entry.finish id b t).weight f' < t.weight f := by
    intro t htid hresult
    rw [Entry.finish_of_running htid hresult]
    simp only [Entry.weight, hresult]
    omega
  refine foldr_map_lt (fun t _ => ?_) ⟨task, hmem, hended hid hnone⟩
  by_cases hrun : t.id = id ∧ t.result = none
  · exact Nat.le_of_lt (hended hrun.1 hrun.2)
  · have hsame : Entry.finish id b t = t := by
      rw [Entry.finish, if_neg (by simpa using hrun)]
    rw [hsame]
    exact Entry.weight_mono hle t

/-- And so does a join. -/
theorem weight_joinNext_lt {s s' : JoinSet α β} {id : Nat} {b : β} {f : Nat → Nat}
    (h : s.joinNext id = some (b, s')) : s'.weight f < s.weight f := by
  obtain ⟨htasks, hmem⟩ := tasks_joinNext h
  obtain ⟨task, htask, hid⟩ := List.mem_map.mp hmem
  rw [weight, htasks]
  exact foldr_filter_lt (Entry.weight_pos f) ⟨task, htask, by simp [hid]⟩

end JoinSet
