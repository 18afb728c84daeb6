import HostBridge.Proofs.Engine.Moves

/-!
# Nothing that was handed over is lost or reported twice

The books of a run of an engine. A ticket is handed out once, with one task. The task is still with
its loop, or it was reported, and it was reported once: by the thread of the loop, or on the spot
because the loop refused it. What is reported on the spot says that it was cancelled.
-/

namespace HostBridge.Engine

namespace Observation

/-- The ticket of a task that is handed over. -/
@[simp]
def ticket? : Observation → Option Nat
  | .submitted _ t => t.ticket?
  | _ => none

/-- The ticket of a report. -/
@[simp]
def told? : Observation → Option Nat
  | .completed _ x => some x.ticket
  | _ => none

/-- The ticket of a task that looks whether it was cancelled. -/
@[simp]
def looker? : Observation → Option Nat
  | .checked ticket _ => some ticket
  | _ => none

/-- The report for which a task was handed over, and who made it. -/
def reply? (t : Errand) : Observation → Option (Place × Report)
  | .completed place x => if x.answers t then some (place, x) else none
  | _ => none

theorem reply?_eq_some {t : Errand} {o : Observation} {place : Place} {x : Report} :
    o.reply? t = some (place, x) ↔ o = .completed place x ∧ x.answers t = true := by
  cases o with
  | submitted | cancelled | checked => simp [reply?]
  | completed place' x' =>
    simp only [reply?, Option.ite_none_right_eq_some, Option.some.injEq, Prod.mk.injEq,
      Observation.completed.injEq]
    constructor
    · rintro ⟨hx, rfl, rfl⟩
      exact ⟨⟨rfl, rfl⟩, hx⟩
    · rintro ⟨⟨rfl, rfl⟩, hx⟩
      exact ⟨hx, rfl, rfl⟩

end Observation

namespace Moment

variable {m m' : Moment} {e : Event} {os : List Observation} {l : Nat} {t : Errand}

/-- What was reported for a task, and by whom. -/
def replies (m : Moment) (t : Errand) : List (Place × Report) :=
  m.history.filterMap (Observation.reply? t)

theorem mem_replies {place : Place} {x : Report} :
    (place, x) ∈ m.replies t ↔ .completed place x ∈ m.history ∧ x.answers t = true := by
  simp only [replies, List.mem_filterMap, Observation.reply?_eq_some]
  constructor
  · rintro ⟨o, ho, rfl, hx⟩
    exact ⟨ho, hx⟩
  · rintro ⟨ho, hx⟩
    exact ⟨_, ho, rfl, hx⟩

/-- The books of a run are in order. -/
structure Ledger (m : Moment) : Prop where
  /-- Tickets are handed out in order. -/
  tickets : m.history.filterMap Observation.ticket? = List.range m.issued
  /-- A task is still to be done or was reported. -/
  balance : (m.engine.collect Task.ticket? ++ m.history.filterMap Observation.told?).Perm
    (List.range m.issued)
  /-- A report is about a task, and one made on the spot says that the task was cancelled. -/
  reports : ∀ place x, .completed place x ∈ m.history →
    (∃ l t, .submitted l t ∈ m.history ∧ x.answers t = true) ∧
      (place = .host → x.isCanceled = true)

namespace Ledger

theorem start : ({} : Moment).Ledger :=
  ⟨by simp, by simp [State.collect], by simp⟩

/-- A move that makes entries. -/
theorem extend (h : m.Ledger) (hhistory : m'.history = m.history ++ os)
    (htickets : List.range m.issued ++ os.filterMap Observation.ticket? = List.range m'.issued)
    (hbalance : (m'.engine.collect Task.ticket? ++ os.filterMap Observation.told?).Perm
      (m.engine.collect Task.ticket? ++ os.filterMap Observation.ticket?))
    (hreports : ∀ place x, .completed place x ∈ os →
      (∃ l t, .submitted l t ∈ m'.history ∧ x.answers t = true) ∧
        (place = .host → x.isCanceled = true)) : m'.Ledger := by
  refine ⟨?_, ?_, fun place x hx => ?_⟩
  · rw [hhistory, List.filterMap_append, h.tickets, htickets]
  · rw [hhistory, List.filterMap_append, ← htickets]
    exact Engine.balance h.balance hbalance
  · rw [hhistory] at hx
    rcases List.mem_append.mp hx with hx | hx
    · obtain ⟨⟨l, t, ht, hanswers⟩, hhost⟩ := h.reports place x hx
      exact ⟨⟨l, t, hhistory ▸ List.mem_append_left _ ht, hanswers⟩, hhost⟩
    · exact hreports place x hx

/-- A move that makes no entry. -/
theorem keep (h : m.Ledger) (hhistory : m'.history = m.history ++ os)
    (hissued : m'.issued = m.issued)
    (hneutral : ∀ o ∈ os, o.ticket? = none ∧ o.told? = none)
    (hcollect : m'.engine.collect Task.ticket? = m.engine.collect Task.ticket?) : m'.Ledger := by
  have hticket : os.filterMap Observation.ticket? = [] :=
    List.filterMap_eq_nil_iff.mpr fun o ho => (hneutral o ho).1
  have htold : os.filterMap Observation.told? = [] :=
    List.filterMap_eq_nil_iff.mpr fun o ho => (hneutral o ho).2
  refine h.extend hhistory (by rw [hticket, hissued, List.append_nil]) ?_ fun place x hx => ?_
  · rw [hticket, htold, hcollect]
  · cases (hneutral _ hx).2

/-- Moves keep the books in order. -/
theorem step (h : m.Ledger) (hm : m.Orderly) (hstep : m.Step e m') : m'.Ledger := by
  have hnone : m.history = m.history ++ [] := (List.append_nil _).symm
  have hsame : ∀ {s : State Nat Pull Nat}, m.engine.SameJobs s → (m.having s).Ledger :=
    fun hs => h.keep hnone rfl (by simp) (hs.collect _)
  cases hstep with
  | idle => exact h
  | connector | respond | stream => exact hsame (.of_tasks rfl fun _ => rfl)
  | loop => exact h.keep hnone rfl (by simp) (State.collect_addLoop _ _)
  | cancel hcancels => exact hsame (.of_tasks hcancels.woken.length hcancels.woken.tasks)
  | cancelStream => exact h.keep rfl rfl (by simp) rfl
  | @stop l =>
    by_cases hl : l < m.engine.workers.length
    · exact hsame (State.sameJobs_stop hl)
    · rw [State.stop, State.modifyLoop, State.modifyWorker_of_le (Nat.le_of_not_lt hl)]
      exact h
  | @take _ s l t hasks hstop =>
    have hs := hasks.shifts
    have hcollect := State.collect_spawned (hs.length.symm ▸ hasks.lt)
      ((hs.stopping l).trans hstop) (hasks.sound hm.sound) Task.ticket? t
    rw [hasks.proper.untimed, hasks.ticket, hasks.sameJobs.collect] at hcollect
    have hentry : [Observation.submitted l t].filterMap Observation.ticket? = [m.issued] :=
      List.filterMap_cons_some hasks.ticket
    refine h.extend rfl ?_ ?_ (by simp) <;> rw [hentry]
    · rw [List.range_succ]
    · rw [List.filterMap_cons_none rfl, List.filterMap_nil, List.append_nil]
      exact hcollect.trans List.perm_append_comm
  | @refuse _ s l t x hasks hstop hx =>
    -- The ticket is given and told at once, and the tasks stay as they are.
    obtain ⟨x', hx', hanswers, hcanceled⟩ := t.abandoned?_eq hasks.proper.isSome
    obtain rfl := Option.some.inj (hx.symm.trans hx')
    have hticket : x.ticket = m.issued :=
      Option.some.inj ((Completion.ticket_of_answers hanswers).symm.trans hasks.ticket)
    have hentry : [Observation.submitted l t, .completed .host x].filterMap Observation.ticket? =
        [m.issued] := List.filterMap_cons_some hasks.ticket
    have htold : [Observation.submitted l t, .completed .host x].filterMap Observation.told? =
        [m.issued] := congrArg (fun ticket => [ticket]) hticket
    refine h.extend rfl ?_ ?_ fun place y hy => ?_
    · rw [hentry, List.range_succ]
    · rw [hentry, htold, hasks.sameJobs.collect]
    · simp only [List.mem_cons, reduceCtorEq, Observation.completed.injEq, List.not_mem_nil,
        or_false, false_or] at hy
      obtain ⟨rfl, rfl⟩ := hy
      exact ⟨⟨l, t, by simp, hanswers⟩, fun _ => hcanceled⟩
  | look => exact hsame (State.sameJobs_looked _ _)
  | sleep hfront => exact hsame (sameJobs_of_front? hfront)
  | check => exact h.keep rfl rfl (by simp) ((State.sameQueues_checked _ _ _).sameJobs.collect _)
  | draw => exact hsame (State.sameQueues_drawn _ _ _ _).sameJobs
  | @finish l key t x s hfront hfinishes =>
    -- The ticket passes from the tasks to those that were told.
    have hjob := State.job?_of_front? hfront
    have hanswers : x.answers t.untimed = true := by cases hfinishes <;> simp [Task.untimed]
    have hcollect := State.collect_finished (State.lt_of_front? hfront) Task.ticket? hjob
    have hs : s.collect Task.ticket? = (m.engine.finished l key).collect Task.ticket? := by
      rw [State.collect, State.collect, hfinishes.workers]
    rw [Completion.ticket_of_answers hanswers, ← hs] at hcollect
    refine h.extend rfl (by simp [List.filterMap_cons]) ?_ fun place y hy => ?_
    · simp only [List.filterMap_cons, Observation.told?, Observation.ticket?, List.filterMap_nil,
        List.append_nil]
      exact (List.perm_append_singleton _ _).trans hcollect.symm
    · simp only [List.mem_singleton, Observation.completed.injEq] at hy
      obtain ⟨rfl, rfl⟩ := hy
      exact ⟨⟨l, _, List.mem_append_left _ (hm.handed l key _ hjob), hanswers⟩, by simp⟩
  | elapse harmed => exact hsame (State.sameJobs_elapse harmed)

end Ledger

theorem ledger_run (events : List Event) : (run events).Ledger :=
  Orderly.start.after_induction Ledger.start (fun hm h hstep => h.step hm hstep) events

/-! ## What the books tell -/

/-- The replies to a task are among the reports. -/
theorem replies_sublist (m : Moment) (t : Errand) :
    ((m.replies t).map fun r => r.2.ticket).Sublist (m.history.filterMap Observation.told?) := by
  unfold replies
  induction m.history with
  | nil => exact List.Sublist.slnil
  | cons o history ih =>
    cases o with
    | submitted | cancelled | checked => exact ih
    | completed place x =>
      by_cases hx : x.answers t = true
      · rw [List.filterMap_cons_some (by simp only [Observation.reply?, hx, if_true]; rfl)]
        exact ih.cons_cons _
      · rw [List.filterMap_cons_none (by simp only [Observation.reply?, hx]; rfl)]
        exact ih.cons _

namespace Ledger

/-- A task is handed over once. -/
theorem submitted_unique (h : m.Ledger) {l k : Nat} {t u : Errand}
    (ht : .submitted l t ∈ m.history) (hu : .submitted k u ∈ m.history) {ticket : Nat}
    (htt : t.ticket? = some ticket) (hut : u.ticket? = some ticket) : l = k ∧ t = u := by
  have hnodup : (m.history.filterMap Observation.ticket?).Nodup := h.tickets ▸ List.nodup_range
  have := eq_of_nodup_filterMap hnodup ht hu htt hut
  simpa only [Observation.submitted.injEq] using this

/-- Nobody is told twice. -/
theorem nodup_told (h : m.Ledger) : (m.history.filterMap Observation.told?).Nodup := by
  have hall := h.balance.nodup_iff.mpr List.nodup_range
  exact (List.nodup_append.mp hall).2.1

theorem length_replies (h : m.Ledger) (t : Errand) : (m.replies t).length ≤ 1 := by
  have hnodup : ((m.replies t).map fun r => r.2.ticket).Nodup :=
    (replies_sublist m t).nodup h.nodup_told
  cases hticket : t.ticket? with
  | none =>
    have hnil : m.replies t = [] := by
      refine List.eq_nil_iff_forall_not_mem.mpr fun ⟨place, x⟩ hx => ?_
      have := Completion.ticket_of_answers (mem_replies.mp hx).2
      rw [hticket] at this
      cases this
    simp [hnil]
  | some ticket =>
    have hsame : (m.replies t).map (fun r => r.2.ticket) =
        List.replicate (m.replies t).length ticket := by
      refine List.eq_replicate_iff.mpr ⟨List.length_map _, fun b hb => ?_⟩
      obtain ⟨⟨place, x⟩, hx, rfl⟩ := List.mem_map.mp hb
      have := Completion.ticket_of_answers (mem_replies.mp hx).2
      exact Option.some.inj (this.symm.trans hticket)
    rw [hsame] at hnodup
    exact List.nodup_replicate.mp hnodup

/-- Nobody was told of a task that is still with its loop. -/
theorem not_told (h : m.Ledger) {key ticket : Nat} (ht : m.engine.job? l key = some t)
    (hticket : t.ticket? = some ticket) : ticket ∉ m.history.filterMap Observation.told? := by
  intro htold
  have hleft : ticket ∈ m.engine.collect Task.ticket? :=
    State.mem_collect.mpr ⟨l, key, t, ht, hticket⟩
  have hall := h.balance.nodup_iff.mpr List.nodup_range
  exact (List.nodup_append.mp hall).2.2 _ hleft _ htold rfl

/-- What is still with its loop was not reported. -/
theorem replies_eq_nil (h : m.Ledger) {key : Nat} (ht : m.engine.job? l key = some t) :
    m.replies t = [] := by
  refine List.eq_nil_iff_forall_not_mem.mpr fun ⟨place, x⟩ hx => ?_
  have hticket := Completion.ticket_of_answers (mem_replies.mp hx).2
  exact h.not_told ht hticket
    ((replies_sublist m t).subset (List.mem_map_of_mem (f := fun r => r.2.ticket) hx))

/-- What was handed over was reported, once, or is still with its loop. -/
theorem replied_or_waiting (h : m.Ledger) (hm : m.Orderly) (ht : .submitted l t ∈ m.history) :
    (∃ place x, m.replies t = [(place, x)] ∧ x.answers t = true) ∨
      m.replies t = [] ∧ ∃ key, m.engine.job? l key = some t := by
  obtain ⟨ticket, hticket⟩ := Option.isSome_iff_exists.mp (hm.proper l t ht).isSome
  have hissued : ticket ∈ List.range m.issued :=
    h.tickets ▸ List.mem_filterMap.mpr ⟨_, ht, hticket⟩
  rcases List.mem_append.mp (h.balance.mem_iff.mpr hissued) with hleft | htold
  · right
    obtain ⟨k, key, u, hu, hut⟩ := State.mem_collect.mp hleft
    obtain ⟨rfl, rfl⟩ := h.submitted_unique ht (hm.handed k key u hu) hticket hut
    exact ⟨h.replies_eq_nil hu, key, hu⟩
  · left
    obtain ⟨o, ho, htold⟩ := List.mem_filterMap.mp htold
    cases o with
    | submitted | cancelled | checked => cases htold
    | completed place x =>
      obtain rfl := Option.some.inj htold
      obtain ⟨⟨k, u, hu, hanswers⟩, -⟩ := h.reports place x ho
      obtain ⟨-, rfl⟩ := h.submitted_unique ht hu hticket (Completion.ticket_of_answers hanswers)
      have hx : (place, x) ∈ m.replies t := mem_replies.mpr ⟨ho, hanswers⟩
      obtain ⟨r, hr⟩ := List.length_eq_one_iff.mp
        (Nat.le_antisymm (h.length_replies t) (List.length_pos_of_mem hx))
      rw [hr, List.mem_singleton] at hx
      exact ⟨place, x, by rw [hr, hx], hanswers⟩

end Ledger

/-! ## Tasks in the middle of a step -/

/-- A thread is in the middle of the task with a ticket. -/
def Busy (m : Moment) (ticket : Nat) : Prop :=
  ∃ l key rest t x, (m.engine.worker l).found = some x ∧ (m.engine.loop l).ready = key :: rest ∧
    m.engine.job? l key = some t ∧ t.ticket? = some ticket

/-- A task that has looked whether it was cancelled goes on to its end in its next turns, unless it
has come to it. -/
theorem Busy.step {ticket : Nat} (h : m.Busy ticket) (hm : m.Orderly) (hstep : m.Step e m') :
    m'.Busy ticket ∨ ticket ∈ m'.history.filterMap Observation.told? := by
  obtain ⟨l, key, rest, t, x, hfound, hready, hjob, hticket⟩ := h
  by_cases he : e = .turn l
  · subst he
    cases hstep with
    | idle => exact Or.inl ⟨l, key, rest, t, x, hfound, hready, hjob, hticket⟩
    | cancel hcancels => cases hcancels
    | take hasks | refuse hasks => cases hasks
    | look hmust =>
      have hworker := hm.sound.worker_looked_of_found hmust hfound
      refine Or.inl ⟨l, key, rest, t, x, ?_, ?_, ?_, hticket⟩
      · rw [having, hworker, hfound]
      · rw [having, State.loop, hworker, ← hready, State.loop]
      · rw [having, State.job?, State.loop, hworker, ← hjob, State.job?, State.loop]
    | sleep _ hnone | check _ hnone =>
      rw [hfound] at hnone
      cases hnone
    | @draw _ _ i _ cancelled hfront =>
      have hqueues := State.sameQueues_drawn m.engine l i cancelled
      exact Or.inl ⟨l, key, rest, t, _, State.found_drawn (State.lt_of_front? hfront) _ _,
        (hqueues.ready l).trans hready, (hqueues.sameJobs.job? l key).trans hjob, hticket⟩
    | @finish _ front u r s hfront hfinishes =>
      obtain ⟨-, rest', hqueue, -⟩ := State.front?_eq_some.mp hfront
      obtain ⟨rfl, -⟩ := List.cons_eq_cons.mp (hqueue.symm.trans hready)
      obtain rfl := Option.some.inj ((State.job?_of_front? hfront).symm.trans hjob)
      have hanswers : r.answers u.untimed = true := by cases hfinishes <;> simp [Task.untimed]
      obtain rfl := Option.some.inj ((Completion.ticket_of_answers hanswers).symm.trans hticket)
      exact Or.inr (by simp [List.filterMap_append])
  · obtain ⟨extra, hextra⟩ := hstep.ready he
    exact Or.inl ⟨l, key, rest ++ extra, t, x, (hstep.found he).trans hfound,
      hextra.trans (by rw [hready]; rfl),
      (hstep.job hm hjob).resolve_right fun hturn => he hturn.1, hticket⟩

/-- The task has looked whether it was cancelled, and nobody was told yet. -/
def Outstanding (m : Moment) (t : Errand) : Prop :=
  ∃ ticket cancelled, t.ticket? = some ticket ∧ .checked ticket cancelled ∈ m.history ∧
    ticket ∉ m.history.filterMap Observation.told?

/-- The looks in a run are in order. -/
structure Looks (m : Moment) : Prop where
  /-- No task looks twice. -/
  nodup : (m.history.filterMap Observation.looker?).Nodup
  /-- Whoever has looked is in the middle of it or was told. -/
  busy : ∀ ticket ∈ m.history.filterMap Observation.looker?,
    m.Busy ticket ∨ ticket ∈ m.history.filterMap Observation.told?

namespace Looks

theorem start : ({} : Moment).Looks :=
  ⟨by simp, by simp⟩

/-- Moves keep the looks in order. -/
theorem step (h : m.Looks) (hm : m.Orderly) (hledger : m.Ledger) (hstep : m.Step e m') :
    m'.Looks := by
  have hbusy : ∀ ticket ∈ m.history.filterMap Observation.looker?,
      m'.Busy ticket ∨ ticket ∈ m'.history.filterMap Observation.told? := by
    intro ticket hlooked
    rcases h.busy ticket hlooked with hbusy | htold
    · exact hbusy.step hm hstep
    · exact Or.inr ((hstep.history.filterMap _).subset htold)
  have hkeep : m'.history.filterMap Observation.looker? = m.history.filterMap Observation.looker? →
      m'.Looks := fun hsame => ⟨hsame ▸ h.nodup, hsame ▸ hbusy⟩
  cases hstep with
  | idle | connector | loop | respond | stream | cancel | stop | look | sleep | draw
  | elapse => exact hkeep rfl
  | cancelStream | take | refuse | finish => exact hkeep (by simp)
  | @check l key t ticket cancelled hfront hfound hchecks hticket =>
    -- The thread was not in the middle of this task, so the task has not looked before.
    have hjob := State.job?_of_front? hfront
    have hhanded := hm.handed l key _ hjob
    have hticket' : Task.ticket? t.untimed = some ticket := by rw [Task.ticket?_untimed, hticket]
    have hnew : ticket ∉ m.history.filterMap Observation.looker? := by
      intro hlooked
      rcases h.busy ticket hlooked with ⟨k, key', rest, u, x, hx, -, hu, hut⟩ | htold
      · obtain ⟨rfl, -⟩ := hledger.submitted_unique hhanded (hm.handed k key' u hu) hticket' hut
        rw [hfound] at hx
        cases hx
      · exact hledger.not_told hjob hticket' htold
    have hhistory : (m.history ++ [Observation.checked ticket cancelled]).filterMap Observation.looker? =
        m.history.filterMap Observation.looker? ++ [ticket] := by simp
    refine ⟨?_, fun other hother => ?_⟩
    · rw [hhistory]
      refine List.nodup_append.mpr ⟨h.nodup, List.nodup_singleton _, fun other hother last hlast => ?_⟩
      rw [List.mem_singleton.mp hlast]
      rintro rfl
      exact hnew hother
    · rw [hhistory] at hother
      rcases List.mem_append.mp hother with hother | hother
      · exact hbusy other hother
      · obtain rfl := List.mem_singleton.mp hother
        obtain ⟨-, rest, hready, -⟩ := State.front?_eq_some.mp hfront
        have hqueues := State.sameQueues_checked m.engine l cancelled
        exact Or.inl ⟨l, key, rest, _, _, State.found_checked (State.lt_of_front? hfront) _,
          (hqueues.ready l).trans hready, (hqueues.sameJobs.job? l key).trans hjob, hticket'⟩

/-- What a task saw when it looked is settled. -/
theorem checked_unique (h : m.Looks) {ticket : Nat} {b b' : Bool}
    (hb : .checked ticket b ∈ m.history) (hb' : .checked ticket b' ∈ m.history) : b = b' := by
  have hsame := eq_of_nodup_filterMap h.nodup hb hb' rfl rfl
  simpa using hsame

/-- Of the tasks of a loop at most one is outstanding: the thread is in the middle of it. -/
theorem outstanding_unique (h : m.Looks) (hm : m.Orderly) (hledger : m.Ledger) {t u : Errand}
    (ht : .submitted l t ∈ m.history) (hu : .submitted l u ∈ m.history) (hot : m.Outstanding t)
    (hou : m.Outstanding u) : t = u := by
  have hfront : ∀ {v}, .submitted l v ∈ m.history → m.Outstanding v → ∃ key rest,
      (m.engine.loop l).ready = key :: rest ∧ m.engine.job? l key = some v := by
    rintro v hv ⟨ticket, cancelled, hticket, hchecked, huntold⟩
    rcases h.busy ticket (List.mem_filterMap.mpr ⟨_, hchecked, rfl⟩) with
      ⟨k, key, rest, w, x, -, hready, hw, hwt⟩ | htold
    · obtain ⟨rfl, rfl⟩ := hledger.submitted_unique hv (hm.handed k key w hw) hticket hwt
      exact ⟨key, rest, hready, hw⟩
    · exact absurd htold huntold
  obtain ⟨key, rest, hready, hjob⟩ := hfront ht hot
  obtain ⟨key', rest', hready', hjob'⟩ := hfront hu hou
  obtain ⟨rfl, -⟩ := List.cons_eq_cons.mp (hready.symm.trans hready')
  exact Option.some.inj (hjob.symm.trans hjob')

end Looks

theorem looks_run (events : List Event) : (run events).Looks :=
  (Orderly.start.after_induction (P := fun m => m.Ledger ∧ m.Looks) ⟨.start, .start⟩
    (fun hm h hstep => ⟨h.1.step hm hstep, h.2.step hm h.1 hstep⟩) events).2

end Moment

end HostBridge.Engine
