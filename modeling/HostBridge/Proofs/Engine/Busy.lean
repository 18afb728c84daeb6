import HostBridge.Proofs.Engine.Effect
import HostBridge.Proofs.Engine.Progress

/-!
# What a thread is in the middle of

Between two turns of a loop its thread may be in the middle of a task: the task has looked whether it
was cancelled, or has taken its row. `busy?` shows the task and what it has found out. Whatever
happens elsewhere leaves that alone; only turns of the loop itself take the task further.
-/

namespace HostBridge.Engine.State

variable {π ρ κ : Type} {s s' : State π ρ κ} {l key : Nat} {rest : List Nat} {t : Task π ρ κ}
  {x : Finding}

/-- The task that the thread of a loop is in the middle of, and what it has found out. -/
def busy? (s : State π ρ κ) (l : Nat) : Option (Task π ρ κ × Finding) :=
  match (s.worker l).found, (s.loop l).ready.head?.bind (s.job? l) with
  | some x, some t => some (t, x)
  | _, _ => none

theorem busy?_eq_some : s.busy? l = some (t, x) ↔ (s.worker l).found = some x ∧
    ∃ key rest, (s.loop l).ready = key :: rest ∧ s.job? l key = some t := by
  unfold busy?
  constructor
  · intro h
    split at h
    · next hfound hjob =>
      obtain ⟨rfl, rfl⟩ := Prod.mk.inj (Option.some.inj h)
      obtain ⟨key, hhead, hjob⟩ := Option.bind_eq_some_iff.mp hjob
      exact ⟨hfound, key, _, (List.head?_eq_some_iff.mp hhead).choose_spec, hjob⟩
    · cases h
  · rintro ⟨hfound, key, rest, hready, hjob⟩
    rw [hfound, hready, List.head?_cons, Option.bind_some, hjob]

theorem busy?_of_found (hfound : (s.worker l).found = some x) (hready : (s.loop l).ready = key :: rest)
    (hjob : s.job? l key = some t) : s.busy? l = some (t, x) :=
  busy?_eq_some.mpr ⟨hfound, key, rest, hready, hjob⟩

theorem busy?_of_idle (hfound : (s.worker l).found = none) : s.busy? l = none := by
  rw [busy?, hfound]

theorem Sound.isSome_busy? (h : s.Sound) (l : Nat) :
    (s.busy? l).isSome = (s.worker l).found.isSome := by
  cases hfound : (s.worker l).found with
  | none =>
    rw [busy?_of_idle hfound]
    rfl
  | some x =>
    obtain ⟨key, rest, t, hready, ht, -⟩ := h.engaged l x hfound
    rw [busy?_of_found hfound hready (congrArg (Option.map Task.untimed) ht)]
    rfl

/-- What the thread has found out is what such a task looks for. -/
theorem Sound.finds_of_busy? (h : s.Sound) (hbusy : s.busy? l = some (t, x)) : s.Finds t x := by
  obtain ⟨hfound, key, rest, hready, hjob⟩ := busy?_eq_some.mp hbusy
  obtain ⟨u, hu, rfl⟩ := Option.map_eq_some_iff.mp hjob
  have hfinds := h.finds hfound hready hu
  cases u <;> cases x <;> exact hfinds

/-! ## What happens elsewhere -/

theorem busy?_of_worker (hworker : s'.worker l = s.worker l) : s'.busy? l = s.busy? l := by
  unfold busy? job? loop
  rw [hworker]

/-- The queue of a loop may grow and its other tasks may change while a task is under way. -/
theorem Sound.busy?_of_grow (h : s.Sound) (hfound : (s'.worker l).found = (s.worker l).found)
    (hready : (s.loop l).ready <+: (s'.loop l).ready)
    (hjobs : ∀ key t, s.job? l key = some t → s'.job? l key = some t) :
    s'.busy? l = s.busy? l := by
  cases hold : (s.worker l).found with
  | none => rw [busy?_of_idle hold, busy?_of_idle (hfound.trans hold)]
  | some x =>
    obtain ⟨key, rest, t, hfront, ht, -⟩ := h.engaged l x hold
    have hfront' : (s.loop l).ready = key :: rest := hfront
    have hjob : s.job? l key = some t.untimed := congrArg (Option.map Task.untimed) ht
    obtain ⟨extra, hextra⟩ := hready
    rw [hfront', List.cons_append] at hextra
    rw [busy?_of_found hold hfront' hjob,
      busy?_of_found (hfound.trans hold) hextra.symm (hjobs key _ hjob)]

theorem Sound.busy?_woken (h : s.Sound) (hwoken : Woken s s') (l : Nat) :
    s'.busy? l = s.busy? l := by
  obtain ⟨extra, hworker, -⟩ := hwoken.worker l
  refine h.busy?_of_grow (by rw [hworker]) ⟨extra, by simp only [State.loop, hworker]⟩ fun key t ht => ?_
  rw [job?, hwoken.tasks]
  exact ht

theorem Sound.busy?_spawned (h : s.Sound) (hl : l < s.workers.length)
    (hstop : (s.loop l).stopping = false) (t : Task π ρ κ) (k : Nat) :
    (s.spawned l t).busy? k = s.busy? k := by
  refine h.busy?_of_grow ?_ ?_ fun key u hu => ?_
  · rw [worker_spawned hl]
    split
    · next hk => rw [hk]
    · rfl
  · rw [loop_spawned hl hstop]
    split
    · next hk => exact hk ▸ List.prefix_append _ _
    · exact List.prefix_refl _
  · rw [job?_spawned hl hstop h]
    split
    · next hk =>
      -- The slot that is filled was vacant.
      rw [job?, hk.1, hk.2, Registry.get?_fresh (h.loop l).valid] at hu
      cases hu
    · exact hu

/-- A loop takes a task or refuses it. -/
theorem Sound.busy?_submit (h : s.Sound) (hl : l < s.workers.length) (t : Task π ρ κ) (k : Nat) :
    (s.submit l t).2.busy? k = s.busy? k := by
  cases hstop : (s.loop l).stopping with
  | true => rw [submit_of_stopping hstop]
  | false => rw [submit_of_not_stopping hstop, h.busy?_spawned hl hstop]

theorem busy?_addLoop (s : State π ρ κ) (l : Nat) : s.addLoop.2.busy? l = s.busy? l := by
  have hworker := worker_addLoop s l
  by_cases hl : l = s.workers.length
  · rw [busy?_of_idle (by rw [hworker, if_pos hl]; rfl),
      busy?_of_idle (by rw [worker_of_le (Nat.le_of_eq hl.symm)])]
  · exact busy?_of_worker (hworker.trans (if_neg hl))

theorem Sound.busy?_looked (h : s.Sound) (hmust : (s.worker l).mustLook = true) (k : Nat) :
    (s.looked l).busy? k = s.busy? k := by
  rcases worker_looked s l k with hsame | ⟨rfl, hlook⟩
  · exact busy?_of_worker hsame
  · cases hold : (s.worker k).found with
    | none =>
      rw [busy?_of_idle hold, busy?_of_idle]
      rw [hlook, Worker.look_found, hold]
    | some x =>
      exact busy?_of_worker (h.worker_looked_of_found hmust hold)

theorem Sound.busy?_elapse (h : s.Sound) {c o : Nat} {response : Response} {reply : π}
    (harmed : (s.loop l).tasks.get? key = some (.promote c o response .armed reply)) (k : Nat) :
    (s.elapse l key).busy? k = s.busy? k := by
  refine h.busy?_of_grow ?_ ?_ fun key' t ht => ((sameJobs_elapse harmed).job? k key').trans ht
  · rw [State.elapse, modifyLoop, found_modifyWorker (lt_of_armed harmed)]
    split
    · next hk => rw [hk]
    · rfl
  · rw [loop_elapse harmed]
    split
    · next hk =>
      subst hk
      unfold Loop.wake
      split
      · exact List.prefix_refl _
      · exact List.prefix_append _ _
    · exact List.prefix_refl _

theorem Sound.busy?_stop (h : s.Sound) (l k : Nat) : (s.stop l).busy? k = s.busy? k := by
  rcases worker_stop s l k with hworker | hworker
  · exact busy?_of_worker hworker
  · refine h.busy?_of_grow (by rw [hworker]) (by simp only [State.loop, hworker]; exact List.prefix_refl _) ?_
    exact fun key t ht => (job?_stop s l k key).trans ht

/-! ## Turns -/

/-- What happens to one loop leaves the others alone. -/
theorem busy?_modifyWorker (f : Worker (Task π ρ κ) → Worker (Task π ρ κ)) {k : Nat} (hk : k ≠ l) :
    (s.modifyWorker l f).busy? k = s.busy? k := by
  refine busy?_of_worker ?_
  rw [worker_modifyWorker, if_neg fun h => hk h.1]

section Turns

variable (hl : l < s.workers.length)
include hl

theorem busy?_finished (key k : Nat) :
    (s.finished l key).busy? k = if k = l then none else s.busy? k := by
  split
  · next hk => rw [hk, busy?_of_idle (found_finished hl key)]
  · next hk => exact busy?_modifyWorker _ hk

theorem busy?_slept (key : Nat) (t : Task π ρ κ) (k : Nat) :
    (s.slept l key t).busy? k = if k = l then none else s.busy? k := by
  split
  · next hk => rw [hk, busy?_of_idle (found_slept hl key t)]
  · next hk => exact busy?_modifyWorker _ hk

variable (hready : (s.loop l).ready = key :: rest) (hjob : s.job? l key = some t)
include hready hjob

theorem busy?_checked (cancelled : Bool) (k : Nat) : (s.checked l cancelled).busy? k =
    if k = l then some (t, .flag cancelled) else s.busy? k := by
  have hqueues := sameQueues_checked s l cancelled
  split
  · next hk =>
    rw [hk]
    exact busy?_of_found (found_checked hl cancelled) ((hqueues.ready l).trans hready)
      ((hqueues.sameJobs.job? l key).trans hjob)
  · next hk => exact busy?_modifyWorker _ hk

theorem busy?_drawn (i : Nat) (cancelled : Bool) (k : Nat) : (s.drawn l i cancelled).busy? k =
    if k = l then some (t, .row (s.answer i cancelled)) else s.busy? k := by
  have hqueues := sameQueues_drawn s l i cancelled
  split
  · next hk =>
    rw [hk]
    exact busy?_of_found (found_drawn hl i cancelled) ((hqueues.ready l).trans hready)
      ((hqueues.sameJobs.job? l key).trans hjob)
  · next hk =>
    rw [drawn, busy?_modifyWorker (s := s.modifyStream i _) _ hk]
    exact busy?_of_worker rfl

end Turns

/-! ## Rows in hand -/

/-- The row that the thread of a loop has taken from a stream and not given yet. -/
def taken? (s : State π ρ κ) (i l : Nat) : Option Row :=
  match s.busy? l with
  | some (.pull k _, .row row) => if k = i then some row else none
  | _ => none

theorem taken?_congr (h : s'.busy? l = s.busy? l) (i : Nat) : s'.taken? i l = s.taken? i l := by
  rw [taken?, taken?, h]

theorem taken?_of_busy {i k : Nat} {reply : ρ} {row : Row}
    (hbusy : s.busy? l = some (.pull k reply, .row row)) :
    s.taken? i l = if k = i then some row else none := by
  rw [taken?, hbusy]

theorem taken?_of_idle (hbusy : s.busy? l = none) (i : Nat) : s.taken? i l = none := by
  rw [taken?, hbusy]

theorem taken?_of_flag {cancelled : Bool} (hbusy : s.busy? l = some (t, .flag cancelled)) (i : Nat) :
    s.taken? i l = none := by
  rw [taken?, hbusy]
  cases t <;> rfl

section Front

variable (hready : (s.loop l).ready = key :: rest) (hjob : s.job? l key = some t)
  (ht : ∀ i reply, t ≠ .pull i reply)
include hready hjob ht

/-- Only pulls take rows. -/
theorem taken?_of_front (i : Nat) : s.taken? i l = none := by
  unfold taken?
  split
  · next hbusy =>
    obtain ⟨-, key', rest', hready', hjob'⟩ := busy?_eq_some.mp hbusy
    obtain ⟨rfl, -⟩ := List.cons_eq_cons.mp (hready.symm.trans hready')
    exact absurd (Option.some.inj (hjob.symm.trans hjob')) (ht _ _)
  · rfl

theorem taken?_finished (i k : Nat) : (s.finished l key).taken? i k = s.taken? i k := by
  have hbusy := busy?_finished (lt_of_job? hjob) key k
  split at hbusy
  · next hk => rw [hk] at hbusy ⊢; rw [taken?_of_idle hbusy, taken?_of_front hready hjob ht]
  · exact taken?_congr hbusy i

theorem taken?_slept (u : Task π ρ κ) (i k : Nat) : (s.slept l key u).taken? i k = s.taken? i k := by
  have hbusy := busy?_slept (lt_of_job? hjob) key u k
  split at hbusy
  · next hk => rw [hk] at hbusy ⊢; rw [taken?_of_idle hbusy, taken?_of_front hready hjob ht]
  · exact taken?_congr hbusy i

end Front

theorem taken?_checked (hready : (s.loop l).ready = key :: rest) (hjob : s.job? l key = some t)
    (hfound : (s.worker l).found = none) (cancelled : Bool) (i k : Nat) :
    (s.checked l cancelled).taken? i k = s.taken? i k := by
  have hbusy := busy?_checked (lt_of_job? hjob) hready hjob cancelled k
  split at hbusy
  · next hk =>
    rw [hk] at hbusy ⊢
    rw [taken?_of_flag hbusy, taken?_of_idle (busy?_of_idle hfound)]
  · exact taken?_congr hbusy i

end HostBridge.Engine.State
