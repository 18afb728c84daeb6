import HostBridge.Loop.Worker
import HostBridge.Proofs.Registry

/-!
# The queue of a loop holds what can run

A loop is *sound* if its queue names each ready task once, and if every task that is not in the queue
has a reason to sleep. What counts as a reason is a parameter: the loop itself does not know what
its tasks wait for.

The moves of the thread are seen through three views only: the tasks, the queue of ready keys, and
the request to stop.
-/

namespace HostBridge

namespace Loop

variable {τ : Type} {asleep : τ → Prop} {l : Loop τ}

/-- Ready keys are distinct and belong to tasks; a task that is not ready sleeps. -/
structure Sound (asleep : τ → Prop) (l : Loop τ) : Prop where
  /-- The slots of the tasks are in order. -/
  valid : l.tasks.Valid
  /-- No task is ready twice. -/
  nodup : l.ready.Nodup
  /-- What is ready is a task. -/
  full : ∀ key ∈ l.ready, (l.tasks.get? key).isSome
  /-- What is not ready sleeps. -/
  asleep : ∀ key t, l.tasks.get? key = some t → key ∉ l.ready → asleep t

theorem sound_new : ({} : Loop τ).Sound asleep where
  valid := Registry.valid_empty
  nodup := List.nodup_nil
  full := by simp
  asleep := by simp

/-- The thread may reorder the queue; nothing else about it matters. -/
theorem Sound.reorder {l' : Loop τ} (h : l.Sound asleep) (htasks : l'.tasks = l.tasks)
    (hready : l'.ready.Perm l.ready) : l'.Sound asleep where
  valid := htasks ▸ h.valid
  nodup := hready.nodup_iff.mpr h.nodup
  full key hk := by rw [htasks]; exact h.full key (hready.mem_iff.mp hk)
  asleep key t ht hk := h.asleep key t (htasks ▸ ht) fun hm => hk (hready.mem_iff.mpr hm)

theorem Sound.imp {asleep' : τ → Prop} (h : l.Sound asleep)
    (himp : ∀ key t, l.tasks.get? key = some t → key ∉ l.ready → asleep t → asleep' t) :
    l.Sound asleep' where
  valid := h.valid
  nodup := h.nodup
  full := h.full
  asleep key t ht hk := himp key t ht hk (h.asleep key t ht hk)

/-! ## New tasks -/

theorem spawn_of_not_stopping (h : l.stopping = false) (t : τ) :
    l.spawn t = (true, { l with
      tasks := (l.tasks.insert t).2, ready := l.ready ++ [(l.tasks.insert t).1] }) := by
  simp [spawn, h]

theorem spawn_of_stopping (h : l.stopping = true) (t : τ) : l.spawn t = (false, l) := by
  simp [spawn, h]

theorem Sound.fresh_not_ready (h : l.Sound asleep) (t : τ) : (l.tasks.insert t).1 ∉ l.ready := by
  intro hm
  have := h.full _ hm
  rw [Registry.get?_fresh h.valid] at this
  cases this

theorem Sound.spawn (h : l.Sound asleep) (t : τ) : (l.spawn t).2.Sound asleep := by
  cases hs : l.stopping with
  | true => rw [spawn_of_stopping hs]; exact h
  | false =>
    rw [spawn_of_not_stopping hs]
    refine ⟨Registry.valid_insert h.valid t, ?_, ?_, ?_⟩
    · exact List.nodup_append.mpr ⟨h.nodup, List.nodup_singleton _, by
        intro a ha b hb
        rw [List.mem_singleton.mp hb]
        exact fun e => h.fresh_not_ready t (e ▸ ha)⟩
    · intro key hk
      rw [Registry.get?_insert h.valid]
      split
      · rfl
      · next hne =>
        rcases List.mem_append.mp hk with hk | hk
        · exact h.full key hk
        · exact absurd (List.mem_singleton.mp hk) hne
    · intro key t' ht hk
      rw [Registry.get?_insert h.valid] at ht
      split at ht
      · next he => exact absurd (List.mem_append_right _ (by simp [he])) hk
      · exact h.asleep key t' ht fun hm => hk (List.mem_append_left _ hm)

/-! ## Turns -/

section Turn

variable {key : Nat} {rest : List Nat}

/-- The task in front has run to its end. -/
theorem Sound.finish {l' : Loop τ} (h : l.Sound asleep) (hfront : l.ready = key :: rest)
    (htasks : l'.tasks = (l.tasks.remove key).2) (hready : l'.ready = rest) :
    l'.Sound asleep := by
  obtain ⟨hnot, hrest⟩ := List.nodup_cons.mp (hfront ▸ h.nodup)
  refine ⟨htasks ▸ Registry.valid_remove h.valid key, hready ▸ hrest, ?_, ?_⟩
  · intro k hk
    rw [hready] at hk
    have hne : k ≠ key := fun e => hnot (e ▸ hk)
    rw [htasks, Registry.get?_remove, if_neg hne]
    exact h.full k (by simp [hfront, hk])
  · intro k t ht hk
    rw [htasks, Registry.get?_remove] at ht
    rw [hready] at hk
    split at ht
    · cases ht
    · next hne => exact h.asleep k t ht (by simp [hfront, hne, hk])

/-- The task in front goes to sleep as another one. -/
theorem Sound.sleep {l' : Loop τ} {t : τ} (h : l.Sound asleep) (hfront : l.ready = key :: rest)
    (htasks : l'.tasks = l.tasks.modify key fun _ => t) (hready : l'.ready = rest)
    (ht : asleep t) : l'.Sound asleep := by
  obtain ⟨hnot, hrest⟩ := List.nodup_cons.mp (hfront ▸ h.nodup)
  refine ⟨htasks ▸ Registry.valid_modify h.valid key _, hready ▸ hrest, ?_, ?_⟩
  · intro k hk
    rw [hready] at hk
    have hne : k ≠ key := fun e => hnot (e ▸ hk)
    rw [htasks, Registry.get?_modify, if_neg hne]
    exact h.full k (by simp [hfront, hk])
  · intro k t' ht' hk
    rw [htasks, Registry.get?_modify] at ht'
    rw [hready] at hk
    split at ht'
    · obtain ⟨_, _, rfl⟩ := Option.map_eq_some_iff.mp ht'
      exact ht
    · next hne => exact h.asleep k t' ht' (by simp [hfront, hne, hk])

end Turn

/-! ## Wake-ups -/

theorem wake_tasks (l : Loop τ) (key : Nat) : (l.wake key).tasks = l.tasks := by
  unfold wake
  split <;> rfl

theorem wake_stopping (l : Loop τ) (key : Nat) : (l.wake key).stopping = l.stopping := by
  unfold wake
  split <;> rfl

theorem mem_ready_wake {key k : Nat} : k ∈ (l.wake key).ready ↔ k ∈ l.ready ∨ k = key := by
  unfold wake
  split
  · next hm => exact ⟨Or.inl, fun h => h.elim id fun e => e ▸ hm⟩
  · simp

theorem Sound.wake {key : Nat} (h : l.Sound asleep) (hfull : (l.tasks.get? key).isSome) :
    (l.wake key).Sound asleep := by
  refine ⟨by rw [wake_tasks]; exact h.valid, ?_, ?_, ?_⟩
  · unfold Loop.wake
    split
    · exact h.nodup
    · next hm =>
      exact List.nodup_append.mpr ⟨h.nodup, List.nodup_singleton _, by
        intro a ha b hb
        rw [List.mem_singleton.mp hb]
        exact fun e => hm (e ▸ ha)⟩
  · intro k hk
    rw [wake_tasks]
    rcases mem_ready_wake.mp hk with hk | rfl
    · exact h.full k hk
    · exact hfull
  · intro k t ht hk
    rw [wake_tasks] at ht
    exact h.asleep k t ht fun hm => hk (mem_ready_wake.mpr (Or.inl hm))

theorem foldl_wake_tasks (keys : List Nat) (l : Loop τ) :
    (keys.foldl Loop.wake l).tasks = l.tasks := by
  induction keys generalizing l with
  | nil => rfl
  | cons key keys ih => exact (ih _).trans (wake_tasks l key)

theorem mem_ready_foldl_wake {k : Nat} (keys : List Nat) (l : Loop τ) :
    k ∈ (keys.foldl Loop.wake l).ready ↔ k ∈ l.ready ∨ k ∈ keys := by
  induction keys generalizing l with
  | nil => simp
  | cons key keys ih =>
    rw [List.foldl_cons, ih, mem_ready_wake, List.mem_cons, or_assoc]

theorem Sound.foldl_wake (h : l.Sound asleep) (keys : List Nat)
    (hfull : ∀ key ∈ keys, (l.tasks.get? key).isSome) : (keys.foldl Loop.wake l).Sound asleep := by
  induction keys generalizing l with
  | nil => exact h
  | cons key keys ih =>
    refine ih (h.wake (hfull key (by simp))) fun k hk => ?_
    rw [wake_tasks]
    exact hfull k (by simp [hk])

/-- A task that changes and wakes up. -/
theorem Sound.modify_wake {key : Nat} (h : l.Sound asleep) (f : τ → τ)
    (hfull : (l.tasks.get? key).isSome) :
    ({ l with tasks := l.tasks.modify key f }.wake key).Sound asleep := by
  have hwake := h.wake hfull
  have hready : ({ l with tasks := l.tasks.modify key f }.wake key).ready = (l.wake key).ready := by
    unfold Loop.wake
    split <;> rfl
  refine ⟨by rw [wake_tasks]; exact Registry.valid_modify h.valid key f, hready ▸ hwake.nodup, ?_, ?_⟩
  · intro k hk
    have := hwake.full k (hready ▸ hk)
    rw [wake_tasks] at this ⊢
    rw [Registry.get?_modify]
    split <;> simpa using this
  · intro k t ht hk
    rw [hready] at hk
    have hne : k ≠ key := fun e => hk (mem_ready_wake.mpr (Or.inr e))
    rw [wake_tasks, Registry.get?_modify, if_neg hne] at ht
    exact hwake.asleep k t (by rw [wake_tasks]; exact ht) hk

/-! ## What the thread does to the views -/

@[simp]
theorem restock_tasks (l : Loop τ) : l.restock.tasks = l.tasks := rfl

@[simp]
theorem restock_ready (l : Loop τ) : l.restock.ready = l.ready := rfl

@[simp]
theorem restock_stopping (l : Loop τ) : l.restock.stopping = l.stopping := rfl

@[simp]
theorem beginTurn_tasks (l : Loop τ) : l.beginTurn.tasks = l.tasks := by
  simp only [beginTurn]
  split <;> split <;> rfl

@[simp]
theorem beginTurn_ready (l : Loop τ) : l.beginTurn.ready = l.ready.tail := by
  simp only [beginTurn]
  split <;> split <;> rfl

@[simp]
theorem beginTurn_stopping (l : Loop τ) : l.beginTurn.stopping = l.stopping := by
  simp only [beginTurn]
  split <;> split <;> rfl

@[simp]
theorem renew_tasks (l : Loop τ) : l.renew.tasks = l.tasks := by
  unfold renew
  split <;> rfl

@[simp]
theorem renew_ready (l : Loop τ) : l.renew.ready = l.ready := by
  unfold renew
  split <;> rfl

@[simp]
theorem renew_stopping (l : Loop τ) : l.renew.stopping = l.stopping := by
  unfold renew
  split <;> rfl

theorem handBack_ready_perm (l : Loop τ) : l.handBack.ready.Perm l.ready := by
  have : (l.ready.drop l.taken ++ l.ready.take l.taken).Perm
      (l.ready.take l.taken ++ l.ready.drop l.taken) := List.perm_append_comm
  rwa [List.take_append_drop] at this

end Loop

namespace Worker

variable {τ : Type} {w : Worker τ}

@[simp]
theorem leave_tasks (w : Worker τ) : w.leave.loop.tasks = w.loop.tasks := by
  unfold leave
  split
  · rfl
  · simp
  · rfl

@[simp]
theorem leave_ready (w : Worker τ) : w.leave.loop.ready = w.loop.ready.tail := by
  unfold leave
  split
  · rfl
  · simp
  · rfl

@[simp]
theorem leave_stopping (w : Worker τ) : w.leave.loop.stopping = w.loop.stopping := by
  unfold leave
  split
  · rfl
  · simp
  · rfl

@[simp]
theorem leave_stage (w : Worker τ) : w.leave.stage = w.stage := by
  unfold leave
  split <;> rfl

@[simp]
theorem leave_parked (w : Worker τ) : w.leave.parked = w.parked := by
  unfold leave
  split <;> rfl

/-- A thread that is done with a task is in the middle of none. -/
@[simp]
theorem leave_found (w : Worker τ) : w.leave.found = none := by
  unfold leave
  split
  · rfl
  · assumption
  · assumption

@[simp]
theorem enter_tasks (w : Worker τ) (x : Finding) : (w.enter x).loop.tasks = w.loop.tasks :=
  w.leave_tasks

@[simp]
theorem enter_ready (w : Worker τ) (x : Finding) : (w.enter x).loop.ready = w.loop.ready := rfl

@[simp]
theorem enter_stopping (w : Worker τ) (x : Finding) :
    (w.enter x).loop.stopping = w.loop.stopping :=
  w.leave_stopping

@[simp]
theorem enter_stage (w : Worker τ) (x : Finding) : (w.enter x).stage = w.stage :=
  w.leave_stage

@[simp]
theorem enter_found (w : Worker τ) (x : Finding) : (w.enter x).found = some x := rfl

@[simp]
theorem look_tasks (w : Worker τ) : w.look.loop.tasks = w.loop.tasks := by
  unfold look
  split
  · split
    · rfl
    · simp
  · split <;> rfl
  · rfl

@[simp]
theorem look_stopping (w : Worker τ) : w.look.loop.stopping = w.loop.stopping := by
  unfold look
  split
  · split
    · rfl
    · simp
  · split <;> rfl
  · rfl

@[simp]
theorem look_found (w : Worker τ) : w.look.found = w.found := by
  unfold look
  split
  · split <;> rfl
  · split <;> rfl
  · rfl

theorem look_ready_perm (w : Worker τ) : w.look.loop.ready.Perm w.loop.ready := by
  unfold look
  split
  · split
    · exact Loop.handBack_ready_perm _
    · simp
  · split <;> rfl
  · rfl

/-- The thread that is not asked to stop keeps the order of its queue when it looks at its signals,
and goes on serving. -/
theorem look_of_not_stopping (hstage : w.stage = .serving) (hstop : w.loop.stopping = false) :
    w.look.stage = .serving ∧ w.look.loop.ready = w.loop.ready := by
  simp [look, hstage, hstop]

/-- A thread ends only when it has nothing left to run. -/
theorem look_ended (h : w.look.stage = .ended) :
    w.stage = .ended ∨ w.stage = .draining ∧ w.loop.ready = [] := by
  unfold look at h
  split at h
  · split at h <;> simp_all
  · next hstage =>
    split at h
    · next hempty => exact Or.inr ⟨hstage, List.isEmpty_iff.mp hempty⟩
    · simp_all
  · next hstage => exact Or.inl hstage

/-- A thread stops serving only at the request to stop. -/
theorem look_not_serving (h : w.look.stage ≠ .serving) :
    w.stage ≠ .serving ∨ w.loop.stopping = true := by
  unfold look at h
  split at h
  · split at h
    · next hstop => exact Or.inr hstop
    · next hstage _ => exact absurd hstage h
  · next hstage => simp [hstage]
  · next hstage => simp [hstage]

/-- A thread that runs a task has one to run, and has not ended. -/
theorem ready_of_not_mustLook (h : w.mustLook = false) : w.loop.ready ≠ [] ∧ w.stage ≠ .ended := by
  unfold mustLook at h
  cases hs : w.stage with
  | serving =>
    simp only [hs] at h
    split at h <;> simp_all [Loop.mustLook]
  | draining | ended => simp_all

/-- A thread that is in the middle of a task goes on with it. -/
theorem mustLook_of_found (hfound : w.found.isSome = true) (hready : w.loop.ready ≠ [])
    (hstage : w.stage ≠ .ended) : w.mustLook = false := by
  unfold mustLook
  cases hs : w.stage with
  | serving => simp [hfound, hready]
  | draining => simp [hready]
  | ended => exact absurd hs hstage

/-- A thread looks at its signals between two tasks, or when it has none. -/
theorem not_found_of_mustLook (h : w.mustLook = true) :
    w.found = none ∨ w.loop.ready = [] ∨ w.stage = .ended := by
  unfold mustLook at h
  cases hs : w.stage with
  | serving =>
    simp only [hs] at h
    split at h
    · exact Or.inr (Or.inl (List.isEmpty_iff.mp h))
    · next hfound => exact Or.inl (by simpa using hfound)
  | draining =>
    simp only [hs] at h
    exact Or.inr (Or.inl (List.isEmpty_iff.mp h))
  | ended => exact Or.inr (Or.inr rfl)

end Worker

end HostBridge
