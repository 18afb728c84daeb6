import HostBridge.Proofs.Engine.Requests

/-!
# A cancelled promotion is reported soon

The promotion of a cancelled operation is ready, whatever its delay was. Unless it has looked before
the cancellation, each turn of its loop either reports it or brings it nearer to its report: a turn
that ends another task shortens the queue, every other turn brings the task in front nearer to its
end, and a thread that has looked at its signals runs something next. `effort` counts the turns that
this can take.
-/

namespace HostBridge

/-- A thread that has something to run and has looked at its signals runs it. -/
theorem Worker.mustLook_look {τ : Type} {w : Worker τ} (hready : w.loop.ready ≠ [])
    (hfound : w.found = none) (hstage : w.stage ≠ .ended) : w.look.mustLook = false := by
  unfold look
  cases hs : w.stage with
  | serving =>
    cases hstop : w.loop.stopping with
    | true =>
      have hperm := (Loop.handBack_ready_perm w.loop).length_eq
      have : w.loop.handBack.ready ≠ [] := by
        intro he
        rw [he] at hperm
        exact hready (List.eq_nil_of_length_eq_zero hperm.symm)
      simpa [mustLook] using this
    | false =>
      have hleft : w.loop.renew.left ≠ 0 := by
        unfold Loop.renew
        split
        · exact Nat.succ_ne_zero _
        · assumption
      simp [mustLook, Loop.mustLook, hready, hleft, hfound]
  | draining => simp [mustLook, hs, hready]
  | ended => exact absurd hs hstage

/-- How many turns a task still takes at most before its last one. -/
def Finding.turnsLeft : Option Finding → Nat
  | none => 2
  | some (.flag _) => 1
  | some (.row _) => 0

namespace Engine.State

variable {π ρ κ : Type} {s s' : State π ρ κ} {l key : Nat}

/-- How many turns of a loop it takes at most to run what is ready on it now. -/
def effort (s : State π ρ κ) (l : Nat) : Nat :=
  4 * (s.loop l).ready.length + Finding.turnsLeft (s.worker l).found +
    if (s.worker l).mustLook then 1 else 0

/-- A turn that shortens the queue is no wasted effort. -/
theorem effort_lt (h : (s'.loop l).ready.length < (s.loop l).ready.length) :
    s'.effort l < s.effort l := by
  have hleft : Finding.turnsLeft (s'.worker l).found ≤ 2 := by
    unfold Finding.turnsLeft
    split <;> omega
  unfold effort
  split <;> omega

theorem effort_congr (h : s'.workers = s.workers) : s'.effort l = s.effort l := by
  have hworker : s'.worker l = s.worker l := by rw [worker, worker, h]
  rw [effort, effort, loop, loop, hworker]

theorem effort_looked (hl : l < s.workers.length) (hready : (s.loop l).ready ≠ [])
    (hfound : (s.worker l).found = none) (hstage : (s.worker l).stage ≠ .ended) (hmust : (s.worker l).mustLook = true) :
    (s.looked l).effort l < s.effort l := by
  have hworker : (s.looked l).worker l = (s.worker l).look := by
    rw [looked, worker_modifyWorker, if_pos ⟨rfl, hl⟩]
  have hlength := (Worker.look_ready_perm (s.worker l)).length_eq
  simp only [effort, loop, hworker, hmust, Worker.mustLook_look hready hfound hstage, if_true,
    Worker.look_found]
  simp [hlength]

/-- A turn that brings the task in front nearer to its end is no wasted effort. -/
theorem effort_lt_of_sameQueues (h : SameQueues s s')
    (hleft : Finding.turnsLeft (s'.worker l).found < Finding.turnsLeft (s.worker l).found)
    (hmust : (s'.worker l).mustLook = false) : s'.effort l < s.effort l := by
  simp only [effort, h.ready, hmust, Bool.false_eq_true, if_false]
  omega

theorem effort_finished {rest : List Nat} (hl : l < s.workers.length)
    (hready : (s.loop l).ready = key :: rest) : (s.finished l key).effort l < s.effort l := by
  refine effort_lt ?_
  rw [ready_finished hl, if_pos rfl, hready]
  simp

theorem effort_slept {rest : List Nat} (hl : l < s.workers.length)
    (hready : (s.loop l).ready = key :: rest) (t : Task π ρ κ) :
    (s.slept l key t).effort l < s.effort l := by
  refine effort_lt ?_
  rw [ready_slept hl, if_pos rfl, hready]
  simp

/-- A request to stop leaves the tasks of every loop and its queue alone. -/
theorem worker_stop (s : State π ρ κ) (k l : Nat) : (s.stop k).worker l = s.worker l ∨
    (s.stop k).worker l = { s.worker l with loop := (s.loop l).stop } := by
  rw [stop, modifyLoop, worker_modifyWorker]
  split
  · next h =>
    rw [h.1]
    exact Or.inr rfl
  · exact Or.inl rfl

theorem effort_stop (s : State π ρ κ) (k l : Nat) : (s.stop k).effort l = s.effort l := by
  rcases worker_stop s k l with h | h <;> rw [effort, effort, loop, h] <;> rfl

theorem job?_stop (s : State π ρ κ) (k l key : Nat) : (s.stop k).job? l key = s.job? l key := by
  rcases worker_stop s k l with h | h <;> rw [job?, job?, loop, h] <;> rfl

/-- The task of a key is in front and has looked, and it was not cancelled then. -/
def Passed (s : State π ρ κ) (l key : Nat) : Prop :=
  (s.loop l).ready.head? = some key ∧ (s.worker l).found = some (.flag false)

theorem not_passed_of_found (h : (s.worker l).found = none) : ¬ s.Passed l key := by
  rintro ⟨-, hfound⟩
  rw [h] at hfound
  cases hfound

theorem passed_stop (s : State π ρ κ) (k l key : Nat) :
    (s.stop k).Passed l key ↔ s.Passed l key := by
  rcases worker_stop s k l with h | h <;> rw [Passed, Passed, loop, h] <;> rfl

/-- A thread that looks at its signals is in the middle of nothing, unless it has ended. -/
theorem Sound.found_of_mustLook (h : s.Sound) (hmust : (s.worker l).mustLook = true)
    (hstage : (s.worker l).stage ≠ .ended) : (s.worker l).found = none := by
  rcases Worker.not_found_of_mustLook hmust with hfound | hready | hended
  · exact hfound
  · cases hx : (s.worker l).found with
    | none => rfl
    | some x =>
      obtain ⟨key, rest, t, hkey, -⟩ := h.engaged l x hx
      rw [hready] at hkey
      cases hkey
  · exact absurd hended hstage

/-- A turn reports the promotion of a cancelled operation, or brings it nearer to its report. -/
theorem Turned.cancelled {completion : Option (Completion π ρ κ)} {c o : Nat}
    {response : Response} {reply : π} (h : Turned s l completion s') (hsound : s.Sound)
    (hstage : (s.worker l).stage ≠ .ended) (hpark : ∀ key, s.job? l key ≠ some .park)
    (htask : s.job? l key = some (.promote c o response .fresh reply))
    (hcancelled : s.isCancelled c o = true) (hpassed : ¬ s.Passed l key) :
    completion = some (.promoted reply none (some .canceled)) ∨
      s'.job? l key = s.job? l key ∧ s'.effort l < s.effort l ∧ ¬ s'.Passed l key := by
  have hl := lt_of_job? htask
  have hfinished : ∀ key', ¬ (s.finished l key').Passed l key := fun key' =>
    not_passed_of_found ((found_modifyWorker hl _ l).trans ((if_pos rfl).trans
      (Worker.leave_found _)))
  cases h with
  | look hmust =>
    have hready : key ∈ (s.loop l).ready := by
      by_contra hnot
      obtain ⟨t, ht, huntimed⟩ := Option.map_eq_some_iff.mp htask
      obtain ⟨c', o', response', reply', rfl, hfree⟩ := (hsound.loop l).asleep key t ht hnot
      cases huntimed
      rw [hcancelled] at hfree
      cases hfree
    have hfound := hsound.found_of_mustLook hmust hstage
    refine Or.inr ⟨(sameJobs_looked s l).job? l key,
      effort_looked hl (List.ne_nil_of_mem hready) hfound hstage hmust, not_passed_of_found ?_⟩
    exact (found_modifyWorker hl _ l).trans ((if_pos rfl).trans ((Worker.look_found _).trans hfound))
  | @sleep key' rest c' o' response' timer reply' hready hfront hfree =>
    have hjob : s.job? l key' = some (Task.promote c' o' response' .armed reply').untimed :=
      congrArg (Option.map Task.untimed) hfront
    refine Or.inr ⟨(sameJobs_slept hl hjob).job? l key, effort_slept hl hready _,
      not_passed_of_found ?_⟩
    exact (found_modifyWorker hl _ l).trans ((if_pos rfl).trans (Worker.leave_found _))
  | @check key' rest t b hready hfront hchecks hfound =>
    have hsame := sameQueues_checked s l b
    have hfound' : ((s.checked l b).worker l).found = some (.flag b) :=
      (found_modifyWorker hl _ l).trans (if_pos rfl)
    refine Or.inr ⟨hsame.sameJobs.job? l key, effort_lt_of_sameQueues hsame ?_ ?_, ?_⟩
    · simp [hfound', hfound, Finding.turnsLeft]
    · refine Worker.mustLook_of_found (by rw [hfound']; rfl) ?_ (hsame.stage l ▸ hstage)
      rw [← loop, hsame.ready, hready]
      simp
    · rintro ⟨hhead, hflag⟩
      rw [hsame.ready, hready] at hhead
      obtain rfl := Option.some.inj hhead
      -- It is this task that looks, and its operation is cancelled.
      have huntimed : t.untimed = .promote c o response .fresh reply := by
        rw [job?, hfront] at htask
        exact Option.some.inj htask
      cases hchecks with
      | promote =>
        cases huntimed
        rw [hfound', hcancelled] at hflag
        cases hflag
      | pull => cases huntimed
  | @draw key' rest i reply' b hready hfront hfound =>
    have hsame := sameQueues_drawn s l i b
    have hfound' : ∃ row, ((s.drawn l i b).worker l).found = some (.row row) :=
      ⟨_, (found_modifyWorker hl _ l).trans (if_pos rfl)⟩
    obtain ⟨row, hfound'⟩ := hfound'
    refine Or.inr ⟨hsame.sameJobs.job? l key, effort_lt_of_sameQueues hsame ?_ ?_, ?_⟩
    · simp [hfound', hfound, Finding.turnsLeft]
    · refine Worker.mustLook_of_found (by rw [hfound']; rfl) ?_ (hsame.stage l ▸ hstage)
      rw [← loop, hsame.ready, hready]
      simp
    · rintro ⟨-, hflag⟩
      rw [hfound'] at hflag
      cases hflag
  | @report key' rest c' o' response' reply' stream error s' hready hfront hsettled =>
    by_cases hkey : key = key'
    · subst hkey
      rw [htask] at hfront
      cases hfront
      cases hsettled with
      | cancelled => exact Or.inl rfl
      | failed hflag | promoted hflag => exact absurd ⟨by rw [hready]; rfl, hflag⟩ hpassed
    · have hworkers := hsettled.workers
      refine Or.inr ⟨?_, effort_congr hworkers ▸ effort_finished hl hready, ?_⟩
      · rw [job?, loop, worker, hworkers]
        exact (job?_finished hl l key).trans (if_neg fun e => hkey e.2)
      · have hnot := hfinished key'
        rw [Passed, loop, worker] at hnot ⊢
        rwa [hworkers]
  | @pull key' rest stream reply' row hready hfront | @close key' rest reply' hready hfront =>
    have hkey : key ≠ key' := by
      rintro rfl
      rw [htask] at hfront
      cases hfront
    exact Or.inr ⟨(job?_finished hl l key).trans (if_neg fun e => hkey e.2),
      effort_finished hl hready, hfinished key'⟩
  | park hready hfront => exact absurd hfront (hpark _)

end Engine.State

end HostBridge
