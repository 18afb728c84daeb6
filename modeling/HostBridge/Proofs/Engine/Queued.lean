import HostBridge.Proofs.Engine.Requests

/-!
# Loops are fair to pulls

What is ready on a loop, in the order of its queue and seen through a function that disregards
promotions. A task that joins a loop goes to the end of the queue, and one that runs leaves the
front. Promotions may leave the queue, sleep and come back at its end, but nothing else does; and as
long as a loop is not asked to stop, a look at its signals keeps the order.
-/

namespace HostBridge.Engine.State

variable {π ρ κ α : Type} {s s' : State π ρ κ} {l key : Nat} {rest : List Nat}
  {f : Task π ρ κ → Option α}

/-- What the ready tasks of a loop are gathered to, in the order of the queue. -/
def queued (f : Task π ρ κ → Option α) (s : State π ρ κ) (l : Nat) : List α :=
  (s.loop l).ready.filterMap fun key => (s.job? l key).bind f

/-- The function disregards promotions. -/
def SkipsPromotions (f : Task π ρ κ → Option α) : Prop :=
  ∀ c o response timer reply, f (.promote c o response timer reply) = none

theorem queued_congr (h : s'.workers = s.workers) (f : Task π ρ κ → Option α) (l : Nat) :
    s'.queued f l = s.queued f l := by
  simp only [queued, job?, loop, worker, h]

theorem queued_of_sameQueues (h : SameQueues s s') (f : Task π ρ κ → Option α) (l : Nat) :
    s'.queued f l = s.queued f l := by
  simp only [queued, h.ready, h.sameJobs.job?]

/-- The queue of a loop goes on with the same tasks, and what is added to it is disregarded. -/
theorem queued_append (extra : List Nat)
    (hready : (s'.loop l).ready = (s.loop l).ready ++ extra)
    (hjob : ∀ key ∈ (s.loop l).ready, s'.job? l key = s.job? l key)
    (hextra : ∀ key ∈ extra, (s'.job? l key).bind f = none) : s'.queued f l = s.queued f l := by
  have hnone : extra.filterMap (fun key => (s'.job? l key).bind f) = [] :=
    List.filterMap_eq_nil_iff.mpr hextra
  rw [queued, hready, List.filterMap_append, hnone, List.append_nil]
  exact List.filterMap_congr fun key hk => by rw [hjob key hk]

theorem queued_spawned (hl : l < s.workers.length) (hstop : (s.loop l).stopping = false)
    (h : s.Sound) (f : Task π ρ κ → Option α) (t : Task π ρ κ) (k : Nat) :
    (s.spawned l t).queued f k =
      if k = l then s.queued f l ++ (f t.untimed).toList else s.queued f k := by
  by_cases hk : k = l
  · subst hk
    have hfresh := (h.loop k).fresh_not_ready t
    have hold : (s.loop k).ready.filterMap (fun key => ((s.spawned k t).job? k key).bind f) =
        s.queued f k := by
      refine List.filterMap_congr fun key hkey => ?_
      rw [job?_spawned hl hstop h, if_neg]
      rintro ⟨-, rfl⟩
      exact hfresh hkey
    rw [if_pos rfl, queued, loop_spawned hl hstop, if_pos rfl, List.filterMap_append, hold,
      List.filterMap_cons, job?_spawned hl hstop h, if_pos ⟨rfl, rfl⟩]
    cases hf : f t.untimed <;> simp [hf]
  · simp only [queued, if_neg hk, loop_spawned hl hstop]
    refine List.filterMap_congr fun key _ => ?_
    rw [job?_spawned hl hstop h, if_neg fun e => hk e.1]

/-- The task in front leaves its loop. -/
theorem queued_finished {t : Task π ρ κ} (h : s.Sound) (hready : (s.loop l).ready = key :: rest)
    (ht : s.job? l key = some t) (f : Task π ρ κ → Option α) (k : Nat) :
    s.queued f k = (if k = l then (f t).toList else []) ++ (s.finished l key).queued f k := by
  have hl := lt_of_job? ht
  by_cases hk : k = l
  · subst hk
    have hnot := (List.nodup_cons.mp (hready ▸ (h.loop k).nodup)).1
    have hrest : (s.finished k key).queued f k =
        rest.filterMap fun key => (s.job? k key).bind f := by
      rw [queued, ready_finished hl, if_pos rfl, hready, List.tail_cons]
      refine List.filterMap_congr fun key' hkey => ?_
      rw [job?_finished hl, if_neg]
      rintro ⟨-, rfl⟩
      exact hnot hkey
    rw [if_pos rfl, hrest, queued, hready, List.filterMap_cons, ht]
    cases hf : f t <;> simp [hf]
  · rw [if_neg hk, List.nil_append, queued, queued, ready_finished hl, if_neg hk]
    refine List.filterMap_congr fun key' _ => ?_
    rw [job?_finished hl, if_neg fun e => hk e.1]

section Promotions

variable (hf : SkipsPromotions f)
include hf

/-- A promotion in front goes to sleep. -/
theorem queued_slept {c o : Nat} {response : Response} {timer timer' : Timer} {reply : π}
    (hready : (s.loop l).ready = key :: rest)
    (ht : (s.loop l).tasks.get? key = some (.promote c o response timer reply)) (k : Nat) :
    (s.slept l key (.promote c o response timer' reply)).queued f k = s.queued f k := by
  have hjob : s.job? l key = some (Task.promote c o response timer' reply).untimed := by
    rw [job?, ht]
    rfl
  have hl := lt_of_job? hjob
  have hsame := (sameJobs_slept hl hjob).job?
  simp only [queued, hsame, ready_slept hl]
  split
  · next hk =>
    subst hk
    have hnone : (s.job? k key).bind f = none := by
      rw [hjob]
      exact hf ..
    rw [hready, List.tail_cons, List.filterMap_cons, hnone]
  · rfl

/-- A promotion whose delay is over joins the queue. -/
theorem queued_elapse {c o : Nat} {response : Response} {reply : π}
    (harmed : (s.loop l).tasks.get? key = some (.promote c o response .armed reply)) (k : Nat) :
    (s.elapse l key).queued f k = s.queued f k := by
  have hsame := (sameJobs_elapse harmed).job?
  by_cases hk : k = l
  · subst hk
    have hloop := loop_elapse harmed k
    rw [if_pos rfl] at hloop
    have hnone : ((s.elapse k key).job? k key).bind f = none := by
      rw [hsame, job?, harmed]
      exact hf ..
    by_cases hmem : key ∈ (s.loop k).ready
    · refine queued_append [] ?_ (fun key _ => hsame k key) (by simp)
      rw [hloop, Loop.wake, if_pos hmem, List.append_nil]
    · refine queued_append [key] ?_ (fun key _ => hsame k key) (by simpa using hnone)
      rw [hloop, Loop.wake, if_neg hmem]
  · simp only [queued, hsame, loop_elapse harmed, if_neg hk]

/-- Promotions that are woken join the queue. -/
theorem queued_woken (h : Woken s s') (l : Nat) : s'.queued f l = s.queued f l := by
  have hsame := (SameJobs.of_tasks h.length h.tasks).job?
  obtain ⟨extra, hworker, hextra⟩ := h.worker l
  refine queued_append extra (by rw [loop, hworker]) (fun key _ => hsame l key) ?_
  intro key hkey
  obtain ⟨c, o, response, reply, ht⟩ := hextra key hkey
  rw [hsame, job?, ht]
  exact hf ..

end Promotions

/-- A thread that serves and is not asked to stop keeps the order of its queue. -/
theorem queued_looked (f : Task π ρ κ → Option α) {k : Nat} (hstage : (s.worker k).stage = .serving)
    (hstop : (s.loop k).stopping = false) : (s.looked l).queued f k = s.queued f k := by
  have hready : ((s.looked l).loop k).ready = (s.loop k).ready := by
    rcases worker_looked s l k with h | ⟨-, h⟩
    · rw [loop, h, loop]
    · rw [loop, h]
      exact (Worker.look_of_not_stopping hstage hstop).2
  simp only [queued, hready, (sameJobs_looked s l).job?]

theorem queued_addLoop (f : Task π ρ κ → Option α) (s : State π ρ κ) (l : Nat) :
    s.addLoop.2.queued f l = s.queued f l := by
  have hready : (s.addLoop.2.loop l).ready = (s.loop l).ready := by
    rw [loop, worker_addLoop]
    split
    · next hl => rw [loop, worker_of_le (Nat.le_of_eq hl.symm)]; rfl
    · rfl
  simp only [queued, hready, job?_addLoop]

end HostBridge.Engine.State
