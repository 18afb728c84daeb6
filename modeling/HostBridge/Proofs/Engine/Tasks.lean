import HostBridge.Proofs.Engine.Cancelled
import Mathlib.Data.List.GetD
import Mathlib.Data.List.Pairwise

/-!
# The tasks of an engine

What the engine still has to do is spread over its loops. Here it is seen in two ways: slot by slot
(`job?`), without the timers, and gathered over all loops (`collect`). Only a submission adds a task,
and only a task that has run to its end goes away; everything else that happens to a loop keeps both
views.
-/

namespace HostBridge.Engine

variable {π ρ κ α : Type}

/-- The task without its timer. -/
def Task.untimed : Task π ρ κ → Task π ρ κ
  | promote c o response _ reply => promote c o response .fresh reply
  | t => t

namespace State

variable {s s' : State π ρ κ} {l key : Nat} {rest : List Nat} {t : Task π ρ κ}

/-- What a loop has to do under a key, without the timer. -/
def job? (s : State π ρ κ) (l key : Nat) : Option (Task π ρ κ) :=
  ((s.loop l).tasks.get? key).map Task.untimed

/-- What the tasks of a loop with its thread are gathered to. -/
def collectOf (f : Task π ρ κ → Option α) (w : Worker (Task π ρ κ)) : List α :=
  w.loop.tasks.contents.filterMap fun t => f t.untimed

/-- What all tasks are gathered to, loop by loop. -/
def collect (f : Task π ρ κ → Option α) (s : State π ρ κ) : List α :=
  s.workers.flatMap (collectOf f)

/-! ## One loop changes -/

theorem loop_modifyWorker (hl : l < s.workers.length)
    (f : Worker (Task π ρ κ) → Worker (Task π ρ κ)) (k : Nat) :
    (s.modifyWorker l f).loop k = if k = l then (f (s.worker l)).loop else s.loop k := by
  rw [loop, worker_modifyWorker]
  by_cases hk : k = l
  · rw [if_pos ⟨hk, hl⟩, if_pos hk]
  · rw [if_neg fun h => hk h.1, if_neg hk]
    rfl

theorem stage_modifyWorker (hl : l < s.workers.length)
    (f : Worker (Task π ρ κ) → Worker (Task π ρ κ)) (k : Nat) :
    ((s.modifyWorker l f).worker k).stage =
      if k = l then (f (s.worker l)).stage else (s.worker k).stage := by
  rw [worker_modifyWorker]
  by_cases hk : k = l
  · rw [if_pos ⟨hk, hl⟩, if_pos hk]
  · rw [if_neg fun h => hk h.1, if_neg hk]

@[simp]
theorem length_modifyWorker (s : State π ρ κ) (l : Nat)
    (f : Worker (Task π ρ κ) → Worker (Task π ρ κ)) :
    (s.modifyWorker l f).workers.length = s.workers.length := by
  simp [modifyWorker]

/-- A loop that is not there cannot change. -/
theorem modifyWorker_of_le (hl : s.workers.length ≤ l)
    (f : Worker (Task π ρ κ) → Worker (Task π ρ κ)) : s.modifyWorker l f = s := by
  have : s.workers.modify l f = s.workers := by
    refine List.ext_getElem? fun k => ?_
    rw [List.getElem?_modify]
    by_cases hk : l = k
    · subst hk
      simp [hl]
    · simp [hk]
  rw [modifyWorker, this]

/-- The tasks of one loop beside those of the others. -/
theorem collect_split (f : Task π ρ κ → Option α) (hl : l < s.workers.length) :
    ∃ others, (s.collect f).Perm (collectOf f (s.worker l) ++ others) ∧
      ∀ g, ((s.modifyWorker l g).collect f).Perm (collectOf f (g (s.worker l)) ++ others) := by
  refine ⟨(s.workers.take l).flatMap (collectOf f) ++ (s.workers.drop (l + 1)).flatMap (collectOf f),
    ?_, fun g => ?_⟩
  · have hsplit : s.workers = s.workers.take l ++ s.worker l :: s.workers.drop (l + 1) := by
      rw [worker, List.getD_eq_getElem _ _ hl, ← List.drop_eq_getElem_cons hl,
        List.take_append_drop]
    rw [collect]
    nth_rewrite 1 [hsplit]
    rw [List.flatMap_append, List.flatMap_cons]
    exact List.perm_append_comm_assoc _ _ _
  · have hsplit : (s.modifyWorker l g).workers =
        s.workers.take l ++ g (s.worker l) :: s.workers.drop (l + 1) := by
      rw [modifyWorker, List.modify_eq_take_cons_drop hl, worker, List.getD_eq_getElem _ _ hl]
    rw [collect, hsplit, List.flatMap_append, List.flatMap_cons]
    exact List.perm_append_comm_assoc _ _ _

theorem mem_collect {f : Task π ρ κ → Option α} {a : α} :
    a ∈ s.collect f ↔ ∃ l key t, s.job? l key = some t ∧ f t = some a := by
  simp only [collect, List.mem_flatMap, collectOf, List.mem_filterMap, Registry.mem_contents]
  constructor
  · rintro ⟨w, hw, t, ⟨key, ht⟩, hf⟩
    obtain ⟨l, hl⟩ := List.getElem?_of_mem hw
    refine ⟨l, key, t.untimed, ?_, hf⟩
    rw [job?, loop, worker_eq hl, ht]
    rfl
  · rintro ⟨l, key, t, ht, hf⟩
    obtain ⟨u, hu, rfl⟩ := Option.map_eq_some_iff.mp ht
    by_cases hl : l < s.workers.length
    · exact ⟨s.worker l, worker_mem hl, u, ⟨key, hu⟩, hf⟩
    · rw [loop, worker_of_le (Nat.le_of_not_lt hl)] at hu
      simp at hu

theorem lt_of_job? {t : Task π ρ κ} (h : s.job? l key = some t) : l < s.workers.length := by
  by_contra hl
  rw [job?, loop, worker_of_le (Nat.le_of_not_lt hl)] at h
  simp at h

/-- Nothing but timers of tasks has changed. -/
structure SameJobs (s s' : State π ρ κ) : Prop where
  /-- The loops are the same. -/
  length : s'.workers.length = s.workers.length
  /-- Every slot holds the same task, up to its timer. -/
  job? : ∀ l key, s'.job? l key = s.job? l key
  /-- Every loop has the same tasks, up to their timers. -/
  untimed : ∀ l, (s'.loop l).tasks.contents.map Task.untimed =
    (s.loop l).tasks.contents.map Task.untimed

theorem SameJobs.of_tasks (hlength : s'.workers.length = s.workers.length)
    (htasks : ∀ l, (s'.loop l).tasks = (s.loop l).tasks) : SameJobs s s' where
  length := hlength
  job? l key := by rw [State.job?, State.job?, htasks]
  untimed l := by rw [htasks]

/-- The timer of one task has changed. -/
theorem SameJobs.of_modify (hlength : s'.workers.length = s.workers.length)
    {g : Task π ρ κ → Task π ρ κ}
    (htasks : ∀ k, (s'.loop k).tasks =
      if k = l then (s.loop l).tasks.modify key g else (s.loop k).tasks)
    (hg : ∀ t, (s.loop l).tasks.get? key = some t → (g t).untimed = t.untimed) :
    SameJobs s s' where
  length := hlength
  job? k key' := by
    rw [State.job?, State.job?, htasks]
    split
    · next hk =>
      subst hk
      rw [Registry.get?_modify]
      split
      · next hkey =>
        subst hkey
        cases ht : (s.loop k).tasks.get? key' with
        | none => rfl
        | some t => simp [hg t ht]
      · rfl
    · rfl
  untimed k := by
    rw [htasks]
    split
    · next hk =>
      subst hk
      exact Registry.map_contents_modify hg
    · rfl

theorem SameJobs.collect (h : SameJobs s s') (f : Task π ρ κ → Option α) :
    s'.collect f = s.collect f := by
  have hmap : s'.workers.map (collectOf f) = s.workers.map (collectOf f) := by
    refine List.ext_getElem (by simpa using h.length) fun l hl' hl => ?_
    rw [List.length_map] at hl hl'
    have := h.untimed l
    rw [loop, loop, worker, worker, List.getD_eq_getElem _ _ hl, List.getD_eq_getElem _ _ hl'] at this
    rw [List.getElem_map, List.getElem_map, collectOf, collectOf,
      ← Function.comp_def f, ← List.filterMap_map, this, List.filterMap_map]
  rw [State.collect, State.collect, List.flatMap_def, List.flatMap_def, hmap]

/-- No task has come, gone or changed, and no queue has; no thread has come further. -/
structure SameQueues (s s' : State π ρ κ) : Prop where
  /-- The loops are the same. -/
  length : s'.workers.length = s.workers.length
  /-- Every loop has the same tasks. -/
  tasks : ∀ l, (s'.loop l).tasks = (s.loop l).tasks
  /-- Every loop has the same queue. -/
  ready : ∀ l, (s'.loop l).ready = (s.loop l).ready
  /-- No loop is asked to stop. -/
  stopping : ∀ l, (s'.loop l).stopping = (s.loop l).stopping
  /-- Every thread is as far as it was. -/
  stage : ∀ l, (s'.worker l).stage = (s.worker l).stage

theorem SameQueues.sameJobs (h : SameQueues s s') : SameJobs s s' :=
  .of_tasks h.length h.tasks

/-- A loop changes in nothing but its accounts, and a thread in what it keeps in mind. -/
theorem SameQueues.of_modifyWorker {f : Worker (Task π ρ κ) → Worker (Task π ρ κ)}
    (hworkers : s'.workers = (s.modifyWorker l f).workers)
    (htasks : (f (s.worker l)).loop.tasks = (s.loop l).tasks)
    (hready : (f (s.worker l)).loop.ready = (s.loop l).ready)
    (hstopping : (f (s.worker l)).loop.stopping = (s.loop l).stopping)
    (hstage : (f (s.worker l)).stage = (s.worker l).stage) : SameQueues s s' := by
  have hworker : ∀ k, s'.worker k = s.worker k ∨ k = l ∧ s'.worker k = f (s.worker l) := by
    intro k
    have hk : s'.worker k = (s.modifyWorker l f).worker k := by rw [worker, worker, hworkers]
    rw [hk, worker_modifyWorker]
    split
    · next hk => exact Or.inr ⟨hk.1, rfl⟩
    · exact Or.inl rfl
  refine ⟨by simp [hworkers, modifyWorker], fun k => ?_, fun k => ?_, fun k => ?_, fun k => ?_⟩
  all_goals
    rcases hworker k with hk | ⟨rfl, hk⟩
    · simp only [loop, hk]
    · simpa only [loop, hk] using by assumption

/-! ## A task joins a loop -/

/-- The engine after a loop has taken a task over. -/
def spawned (s : State π ρ κ) (l : Nat) (t : Task π ρ κ) : State π ρ κ :=
  s.modifyLoop l fun _ => ((s.loop l).spawn t).2

/-- A loop that was not asked to stop takes any task over. -/
theorem submit_of_not_stopping (h : (s.loop l).stopping = false) (t : Task π ρ κ) :
    s.submit l t = (none, s.spawned l t) := by
  simp [submit, spawned, Loop.spawn_of_not_stopping h]

/-- A loop that was asked to stop refuses a task, which is completed on the spot. -/
theorem submit_of_stopping (h : (s.loop l).stopping = true) (t : Task π ρ κ) :
    s.submit l t = (t.abandoned?, s) := by
  simp [submit, Loop.spawn_of_stopping h]

theorem Sound.spawned (h : s.Sound) (t : Task π ρ κ) : (s.spawned l t).Sound := by
  refine h.modifyWorker ((h.loop l).spawn t) ?_
  cases hstop : (s.loop l).stopping with
  | true =>
    rw [Loop.spawn_of_stopping hstop]
    exact h.engaged l
  | false =>
    rw [Loop.spawn_of_not_stopping hstop]
    refine (h.engaged l).grow rfl rfl fun key u x hu hfinds => ⟨u, ?_, hfinds⟩
    -- The slot that is filled was vacant.
    have hne : key ≠ ((s.loop l).tasks.insert t).1 := by
      rintro rfl
      rw [← State.loop, Registry.get?_fresh (h.loop l).valid] at hu
      cases hu
    rw [Registry.get?_insert (h.loop l).valid, if_neg hne]
    exact hu

section Spawned

variable (hl : l < s.workers.length) (hstop : (s.loop l).stopping = false)
include hl hstop

theorem loop_spawned (t : Task π ρ κ) (k : Nat) :
    (s.spawned l t).loop k = if k = l then { s.loop l with
      tasks := ((s.loop l).tasks.insert t).2
      ready := (s.loop l).ready ++ [((s.loop l).tasks.insert t).1] } else s.loop k := by
  rw [spawned, modifyLoop, loop_modifyWorker hl, Loop.spawn_of_not_stopping hstop]

theorem job?_spawned (h : s.Sound) (t : Task π ρ κ) (k key : Nat) :
    (s.spawned l t).job? k key =
      if k = l ∧ key = ((s.loop l).tasks.insert t).1 then some t.untimed else s.job? k key := by
  rw [job?, loop_spawned hl hstop]
  by_cases hk : k = l
  · subst hk
    rw [if_pos rfl, Registry.get?_insert (h.loop k).valid]
    by_cases hkey : key = ((s.loop k).tasks.insert t).1
    · simp [hkey]
    · simp [hkey, job?]
  · simp [hk, job?]

theorem collect_spawned (h : s.Sound) (f : Task π ρ κ → Option α) (t : Task π ρ κ) :
    ((s.spawned l t).collect f).Perm ((f t.untimed).toList ++ s.collect f) := by
  obtain ⟨others, hold, hnew⟩ := collect_split f hl
  have hloop : collectOf f { s.worker l with loop := ((s.loop l).spawn t).2 } =
      ((s.loop l).tasks.insert t).2.contents.filterMap fun t => f t.untimed := by
    rw [Loop.spawn_of_not_stopping hstop, collectOf]
  have hinsert : (collectOf f { s.worker l with loop := ((s.loop l).spawn t).2 }).Perm
      ((f t.untimed).toList ++ collectOf f (s.worker l)) := by
    rw [hloop]
    refine ((Registry.contents_insert (h.loop l).valid t).filterMap _).trans ?_
    rw [List.filterMap_cons]
    cases f t.untimed <;> rfl
  calc ((s.spawned l t).collect f).Perm _ := hnew _
    List.Perm _ ((f t.untimed).toList ++ collectOf f (s.worker l) ++ others) :=
      hinsert.append_right others
    List.Perm _ ((f t.untimed).toList ++ s.collect f) := by
      rw [List.append_assoc]
      exact hold.symm.append_left _

end Spawned

/-! ## A task leaves a loop -/

section Leaving

variable (hl : l < s.workers.length) (hready : (s.loop l).ready = key :: rest)
include hl

theorem tasks_finished (k : Nat) : ((s.finished l key).loop k).tasks =
    if k = l then ((s.loop l).tasks.remove key).2 else (s.loop k).tasks := by
  rw [finished, loop_modifyWorker hl]
  split
  · simp [Loop.finish, loop]
  · rfl

theorem ready_finished (k : Nat) : ((s.finished l key).loop k).ready =
    if k = l then (s.loop l).ready.tail else (s.loop k).ready := by
  rw [finished, loop_modifyWorker hl]
  split
  · simp [Loop.finish, loop]
  · rfl

theorem stopping_finished (k : Nat) :
    ((s.finished l key).loop k).stopping = (s.loop k).stopping := by
  rw [finished, loop_modifyWorker hl]
  split
  · next hk => simp [Loop.finish, loop, hk]
  · rfl

theorem stage_finished (k : Nat) :
    ((s.finished l key).worker k).stage = (s.worker k).stage := by
  rw [finished, stage_modifyWorker hl]
  split
  · next hk => simp [hk]
  · rfl

theorem job?_finished (k key' : Nat) : (s.finished l key).job? k key' =
    if k = l ∧ key' = key then none else s.job? k key' := by
  rw [job?, tasks_finished hl]
  by_cases hk : k = l
  · subst hk
    rw [if_pos rfl, Registry.get?_remove]
    by_cases hkey : key' = key <;> simp [hkey, job?]
  · simp [hk, job?]

theorem collect_finished (f : Task π ρ κ → Option α) (ht : s.job? l key = some t) :
    (s.collect f).Perm ((f t).toList ++ (s.finished l key).collect f) := by
  obtain ⟨u, hu, rfl⟩ := Option.map_eq_some_iff.mp ht
  obtain ⟨others, hold, hnew⟩ := collect_split f hl
  have hremove : (collectOf f (s.worker l)).Perm ((f u.untimed).toList ++
      collectOf f { (s.worker l).leave with loop := (s.worker l).leave.loop.finish key }) := by
    refine ((Registry.contents_remove hu).filterMap _).trans ?_
    rw [List.filterMap_cons]
    simp only [collectOf, Loop.finish, Worker.leave_tasks]
    cases f u.untimed <;> rfl
  calc (s.collect f).Perm _ := hold
    List.Perm _ _ := hremove.append_right others
    List.Perm _ ((f u.untimed).toList ++ (s.finished l key).collect f) := by
      rw [List.append_assoc]
      exact (hnew fun w => { w.leave with loop := w.leave.loop.finish key }).symm.append_left _

omit hl in
/-- What is gathered once comes from one place. -/
theorem place_unique {f : Task π ρ κ → Option α} {a : α} {k key' : Nat} {u : Task π ρ κ}
    (hnodup : (s.collect f).Nodup) (ht : s.job? l key = some t) (hu : s.job? k key' = some u)
    (hft : f t = some a) (hfu : f u = some a) : l = k ∧ key = key' := by
  by_contra hne
  have hl := lt_of_job? ht
  have hperm := collect_finished hl f ht
  rw [hft] at hperm
  have hkept : (s.finished l key).job? k key' = some u := by
    rw [job?_finished hl, if_neg fun hsame => hne ⟨hsame.1.symm, hsame.2.symm⟩, hu]
  exact (List.nodup_cons.mp (hperm.nodup_iff.mp hnodup)).1 (mem_collect.mpr ⟨k, key', u, hkept, hfu⟩)

omit hl in
theorem Sound.finished (h : s.Sound) (hready : (s.loop l).ready = key :: rest) :
    (s.finished l key).Sound := by
  refine h.modifyWorker ((h.loop l).finish hready ?_ ?_) (.of_found (Worker.leave_found _))
  · simp [Loop.finish, State.loop]
  · have : (s.worker l).loop.ready = key :: rest := hready
    simp [Loop.finish, this]

theorem tasks_slept (t : Task π ρ κ) (k : Nat) : ((s.slept l key t).loop k).tasks =
    if k = l then (s.loop l).tasks.modify key fun _ => t else (s.loop k).tasks := by
  rw [slept, loop_modifyWorker hl]
  split
  · simp [Loop.sleep, loop]
  · rfl

theorem ready_slept (t : Task π ρ κ) (k : Nat) : ((s.slept l key t).loop k).ready =
    if k = l then (s.loop l).ready.tail else (s.loop k).ready := by
  rw [slept, loop_modifyWorker hl]
  split
  · simp [Loop.sleep, loop]
  · rfl

theorem stopping_slept (t : Task π ρ κ) (k : Nat) :
    ((s.slept l key t).loop k).stopping = (s.loop k).stopping := by
  rw [slept, loop_modifyWorker hl]
  split
  · next hk => simp [Loop.sleep, loop, hk]
  · rfl

theorem stage_slept (t : Task π ρ κ) (k : Nat) :
    ((s.slept l key t).worker k).stage = (s.worker k).stage := by
  rw [slept, stage_modifyWorker hl]
  split
  · next hk => simp [hk]
  · rfl

theorem sameJobs_slept {u : Task π ρ κ} (ht : s.job? l key = some u.untimed) :
    SameJobs s (s.slept l key u) := by
  refine SameJobs.of_modify (by simp [slept]) (tasks_slept hl u) fun t' ht' => ?_
  rw [job?, ht'] at ht
  exact (Option.some.inj ht).symm

omit hl in
theorem Sound.slept (h : s.Sound) (hready : (s.loop l).ready = key :: rest) (ht : s.Sleeps t) :
    (s.slept l key t).Sound := by
  refine h.modifyWorker ((h.loop l).sleep hready ?_ ?_ ht) (.of_found (Worker.leave_found _))
  · simp [Loop.sleep, State.loop]
  · have : (s.worker l).loop.ready = key :: rest := hready
    simp [Loop.sleep, this]

end Leaving

end State

/-! ## Books

What is left to do, gathered from the tasks, and what was done make up what was entered. -/

/-- What is left over balances what is entered. -/
theorem balance {α : Type} {left left' done entered done' entered' : List α}
    (h : (left ++ done).Perm entered) (h' : (left' ++ done').Perm (left ++ entered')) :
    (left' ++ (done ++ done')).Perm (entered ++ entered') := by
  calc (left' ++ (done ++ done')).Perm (left' ++ (done' ++ done)) :=
        List.perm_append_comm.append_left _
    List.Perm _ (left' ++ done' ++ done) := by rw [List.append_assoc]
    List.Perm _ (left ++ entered' ++ done) := h'.append_right _
    List.Perm _ (left ++ done ++ entered') := by
      rw [List.append_assoc, List.append_assoc]
      exact List.perm_append_comm.append_left _
    List.Perm _ (entered ++ entered') := h.append_right _

/-- Entries that differ are told apart by what is noted of them. -/
theorem eq_of_nodup_filterMap {α β : Type} {f : α → Option β} {xs : List α} {x y : α} {b : β}
    (h : (xs.filterMap f).Nodup) (hx : x ∈ xs) (hy : y ∈ xs) (hfx : f x = some b)
    (hfy : f y = some b) : x = y := by
  by_contra hne
  have hpairs := List.pairwise_filterMap.mp h
  have : Std.Symm fun x y => ∀ b, f x = some b → ∀ c, f y = some c → b ≠ c :=
    ⟨fun x y hxy b hb c hc e => hxy c hc b hb e.symm⟩
  exact hpairs.forall hx hy hne b hfx b hfy rfl

/-- An entry stands at one place only. -/
theorem split_unique {α β : Type} {f : α → Option β} {xs ys xs' ys' : List α} {x y : α} {b : β}
    (h : ((xs ++ x :: ys).filterMap f).Nodup) (heq : xs ++ x :: ys = xs' ++ y :: ys')
    (hx : f x = some b) (hy : f y = some b) : xs = xs' := by
  -- Between two places there would be an entry twice.
  have hone : ∀ {us vs : List α} {u v : α}, ((us ++ u :: vs).filterMap f).Nodup →
      f u = some b → f v = some b → v ∉ vs := by
    intro us vs u v hnodup hu hv hmem
    rw [List.filterMap_append, List.filterMap_cons_some hu] at hnodup
    have hnot := (List.nodup_cons.mp (List.nodup_append.mp hnodup).2.1).1
    exact hnot (List.mem_filterMap.mpr ⟨v, hmem, hv⟩)
  rcases List.append_eq_append_iff.mp heq with ⟨zs, rfl, hzs⟩ | ⟨zs, rfl, hzs⟩
  · cases zs with
    | nil => exact (List.append_nil _).symm
    | cons z zs =>
      obtain ⟨-, rfl⟩ := List.cons_eq_cons.mp hzs
      exact absurd (by simp) (hone h hx hy)
  · cases zs with
    | nil => exact List.append_nil _
    | cons z zs =>
      obtain ⟨-, rfl⟩ := List.cons_eq_cons.mp hzs
      exact absurd (by simp) (hone (heq ▸ h) hy hx)

end HostBridge.Engine
