import HostBridge.Proofs.Engine.Ledger

/-!
# A closing comes after the promotions before it

Whoever closes a cluster cancels the operations of its connector one after the other, and then hands
the loop the task that reports the end. A cancelled operation does not sleep, so its promotion is
ready on its loop by the time that task joins the queue, and stands ahead of it. If the thread serves
its queue in order, all promotions have been reported when the closing is. Those that had not looked
for the last time whether they were cancelled when their operation was, are reported as cancelled. For
a promotion that had looked the closing comes too late, and it is reported as it would have been.

The thread does keep the order, but for one moment: when it looks at its signals and finds the
request to stop, it may hand tasks back. `InOrder` says that it does not rearrange its queue then.
-/

namespace HostBridge.Engine

namespace State

variable {π ρ κ : Type}

/-- A closing does not count as a cancellation on request. -/
theorem cancels_closing (s : State π ρ κ) (c d : Nat) :
    ((s.closing c).connector d).operations.map Operation.cancels =
      (s.connector d).operations.map Operation.cancels := by
  have hall : ∀ (operations : List Nat) (s : State π ρ κ),
      ((s.abandonAll c operations).connector d).operations.map Operation.cancels =
        (s.connector d).operations.map Operation.cancels := by
    intro operations
    induction operations with
    | nil => exact fun _ => rfl
    | cons o operations ih => exact fun s => (ih (s.abandon c o)).trans (cancels_abandon s c o d)
  rw [closing, hall, operations_counted]

end State

namespace Moment

variable {m m' : Moment} {e : Event} {l : Nat}

/-! ## The queue of a loop -/

/-- Whenever the thread of a loop gets a turn, it serves its queue from the front, and what is left
of the queue keeps its order. -/
def InOrder (l : Nat) : Moment → List Event → Prop
  | _, [] => True
  | m, e :: events =>
    (e = .turn l → ((m.perform e).engine.loop l).ready <:+ (m.engine.loop l).ready) ∧
      InOrder l (m.perform e) events

/-! ## What stands ahead of a closing -/

/-- A report for which the task was handed over is in the history. -/
def Told (history : List Observation) (t : Errand) : Prop :=
  ∃ place x, .completed place x ∈ history ∧ x.answers t = true

theorem Told.mono {history history' : List Observation} {t : Errand} (h : Told history t)
    (hsubset : history ⊆ history') : Told history' t := by
  obtain ⟨place, x, hx, hanswers⟩ := h
  exact ⟨place, x, hsubset hx, hanswers⟩

/-- A closing of a loop comes after all early tasks: each of these was reported or stands ahead of
it, and when the closing was reported they all had been. -/
inductive Follows (early : Errand → Prop) (l ticket : Nat) (m : Moment) : Prop
  /-- The closing is in the queue. -/
  | waiting {key : Nat} {ahead behind : List Nat}
      (hready : (m.engine.loop l).ready = ahead ++ key :: behind)
      (hjob : m.engine.job? l key = some (.close ticket))
      (hahead : ∀ t, early t → Told m.history t ∨ ∃ k ∈ ahead, m.engine.job? l k = some t)
  /-- The closing was reported. -/
  | closed {earlier rest : List Observation}
      (hhistory : m.history = earlier ++ .completed .loop (.closed ticket) :: rest)
      (htold : ∀ t, early t → Told earlier t)

section Turn

variable {early : Errand → Prop} {ticket key : Nat} {ahead behind : List Nat}
  (hready : (m.engine.loop l).ready = ahead ++ key :: behind)
  (hjob : m.engine.job? l key = some (.close ticket))
  (hahead : ∀ t, early t → Told m.history t ∨ ∃ k ∈ ahead, m.engine.job? l k = some t)
include hready hjob hahead

/-- The task in front goes to sleep. It is not cancelled, so it is no early task. -/
theorem follows_sleep {front c o : Nat} {response : Response} {timer : Timer} {k : Nat}
    (hcancelled : ∀ c o response ticket, early (.promote c o response .fresh ticket) →
      m.engine.isCancelled c o = true)
    (hfront : m.engine.front? l = some (front, .promote c o response timer k))
    (hsleep : m.engine.mustSleep c o response timer = true) :
    Follows early l ticket
      (m.having (m.engine.slept l front (.promote c o response .armed k))) := by
  have hsame := sameJobs_of_front? hfront
  have hpromote := State.job?_of_front? hfront
  obtain ⟨-, rest, hqueue, -⟩ := State.front?_eq_some.mp hfront
  have hready' : ((m.engine.slept l front (.promote c o response .armed k)).loop l).ready = rest := by
    rw [State.ready_slept (State.lt_of_front? hfront), if_pos rfl, hqueue, List.tail_cons]
  cases ahead with
  | nil =>
    obtain ⟨rfl, -⟩ := List.cons_eq_cons.mp (hqueue.symm.trans hready)
    rw [hpromote] at hjob
    cases hjob
  | cons first ahead =>
    obtain ⟨rfl, hrest⟩ := List.cons_eq_cons.mp (hqueue.symm.trans hready)
    refine .waiting (hready'.trans hrest) ((hsame.job? l key).trans hjob) fun t ht => ?_
    rcases hahead t ht with htold | ⟨k', hk', hjob'⟩
    · exact Or.inl htold
    · rcases List.mem_cons.mp hk' with rfl | hk'
      · rw [hpromote] at hjob'
        obtain rfl := Option.some.inj hjob'
        have hfree : m.engine.isCancelled c o = false := by
          simpa using (Bool.and_eq_true_iff.mp hsleep).1
        rw [hcancelled _ _ _ _ ht] at hfree
        cases hfree
      · exact Or.inr ⟨k', hk', (hsame.job? l k').trans hjob'⟩

/-- The task in front runs to its end. If it is the closing, nothing stood ahead of it any more. -/
theorem follows_finish (hm : m.Orderly) {front : Nat} {u : Errand} {x : Report}
    {s : State Nat Pull Nat}
    (hfront : m.engine.front? l = some (front, u)) (hfinishes : m.engine.Finishes l front u x s) :
    Follows early l ticket ⟨s, m.issued, m.history ++ [.completed .loop x]⟩ := by
  have hstep : m.Step (.turn l) _ := .finish hfront hfinishes
  have hdone := State.job?_of_front? hfront
  obtain ⟨-, rest, hqueue, -⟩ := State.front?_eq_some.mp hfront
  have hready' : (s.loop l).ready = rest := by
    rw [hfinishes.loop, State.ready_finished (State.lt_of_front? hfront), if_pos rfl, hqueue,
      List.tail_cons]
  have hanswers : x.answers u.untimed = true := by cases hfinishes <;> simp [Task.untimed]
  cases ahead with
  | nil =>
    obtain ⟨rfl, -⟩ := List.cons_eq_cons.mp (hqueue.symm.trans hready)
    obtain rfl := Completion.answers_close (Option.some.inj (hdone.symm.trans hjob) ▸ hanswers)
    refine .closed rfl fun t ht => ?_
    rcases hahead t ht with htold | ⟨k, hk, -⟩
    · exact htold
    · cases hk
  | cons first ahead =>
    obtain ⟨rfl, hrest⟩ := List.cons_eq_cons.mp (hqueue.symm.trans hready)
    have hnodup := (hm.sound.loop l).nodup
    rw [hready, List.cons_append] at hnodup
    have hnot := (List.nodup_cons.mp hnodup).1
    have hstays : ∀ {k t}, k ∈ ahead ++ key :: behind → m.engine.job? l k = some t →
        s.job? l k = some t := by
      intro k t hk ht
      rcases hstep.job hm ht with ht | ⟨-, u', -, -, hfront', -, -⟩
      · exact ht
      · obtain ⟨rfl, -⟩ := Prod.mk.inj (Option.some.inj (hfront.symm.trans hfront'))
        exact absurd hk hnot
    refine .waiting (hready'.trans hrest) (hstays (by simp) hjob) fun t ht => ?_
    rcases hahead t ht with htold | ⟨k, hk, ht'⟩
    · exact Or.inl (htold.mono (List.subset_append_left _ _))
    · rcases List.mem_cons.mp hk with rfl | hk
      · obtain rfl := Option.some.inj (hdone.symm.trans ht')
        exact Or.inl ⟨.loop, x, by simp, hanswers⟩
      · exact Or.inr ⟨k, hk, hstays (List.mem_append_left _ hk) ht'⟩

end Turn

/-- A closing goes on to come after all early tasks, as long as the thread keeps the order. -/
theorem Follows.step {early : Errand → Prop} {ticket : Nat} (h : Follows early l ticket m)
    (hm : m.Orderly)
    (hcancelled : ∀ c o response ticket, early (.promote c o response .fresh ticket) →
      m.engine.isCancelled c o = true)
    (hstep : m.Step e m')
    (horder : e = .turn l → (m'.engine.loop l).ready <:+ (m.engine.loop l).ready) :
    Follows early l ticket m' := by
  cases h with
  | closed hhistory htold =>
    obtain ⟨os, hos⟩ := hstep.history
    rw [hhistory, List.append_assoc] at hos
    exact .closed hos.symm htold
  | @waiting key ahead behind hready hjob hahead =>
    have hpast := hstep.history
    have hkeep : m.engine.SameQueues m'.engine → Follows early l ticket m' := by
      intro hqueues
      have hsame := hqueues.sameJobs.job? l
      refine .waiting ((hqueues.ready l).trans hready) ((hsame key).trans hjob) fun t ht => ?_
      rcases hahead t ht with htold | ⟨k, hk, ht'⟩
      · exact Or.inl (htold.mono hpast.subset)
      · exact Or.inr ⟨k, hk, (hsame k).trans ht'⟩
    by_cases he : e = .turn l
    · subst he
      have hsuffix := horder rfl
      cases hstep with
      | idle => exact .waiting hready hjob hahead
      | cancel hcancels => cases hcancels
      | take hasks | refuse hasks => cases hasks
      | check => exact hkeep (State.sameQueues_checked _ _ _)
      | draw => exact hkeep (State.sameQueues_drawn _ _ _ _)
      | look =>
        have hlength : ((m.engine.looked l).loop l).ready.length =
            (m.engine.loop l).ready.length := by
          rcases State.worker_looked m.engine l l with hworker | ⟨-, hworker⟩
          · rw [State.loop, hworker, State.loop]
          · rw [State.loop, hworker]
            exact (Worker.look_ready_perm _).length_eq
        have hsame := (State.sameJobs_looked m.engine l).job? l
        refine .waiting ((hsuffix.eq_of_length hlength).trans hready) ((hsame key).trans hjob)
          fun t ht => ?_
        rcases hahead t ht with htold | ⟨k, hk, ht'⟩
        · exact Or.inl htold
        · exact Or.inr ⟨k, hk, (hsame k).trans ht'⟩
      | sleep hfront _ hsleep => exact follows_sleep hready hjob hahead hcancelled hfront hsleep
      | finish hfront hfinishes => exact follows_finish hready hjob hahead hm hfront hfinishes
    · -- Nothing but a turn of the loop takes anything out of its queue.
      obtain ⟨extra, hextra⟩ := hstep.ready he
      have hstays : ∀ {k t}, m.engine.job? l k = some t → m'.engine.job? l k = some t :=
        fun ht => (hstep.job hm ht).resolve_right fun hturn => he hturn.1
      rw [hready, List.append_assoc, List.cons_append] at hextra
      refine .waiting hextra (hstays hjob) fun t ht => ?_
      rcases hahead t ht with htold | ⟨k, hk, ht'⟩
      · exact Or.inl (htold.mono hstep.history.subset)
      · exact Or.inr ⟨k, hk, hstays ht'⟩

/-- A closing with nobody in between is all its parts in a row. -/
theorem perform_close_eq_after (m : Moment) (c l : Nat) :
    m.perform (.close c l) =
      if l < m.engine.workers.length then
        m.after (.closing c ::
          ((List.range (m.engine.connector c).operations.length).map (.abandon c) ++ [.announce l]))
      else m := by
  have habandons : ∀ (operations : List Nat) (m : Moment),
      m.after (operations.map (.abandon c)) = m.having (m.engine.abandonAll c operations) := by
    intro operations
    induction operations with
    | nil => exact fun _ => rfl
    | cons o operations ih => exact fun m => ih (m.having (m.engine.abandon c o))
  rw [perform]
  split
  · next hl =>
    have hlength : l < (m.engine.closing c).workers.length :=
      (m.engine.woken_closing c).length.symm ▸ hl
    have hclosing : m.after (.closing c ::
        (List.range (m.engine.connector c).operations.length).map (.abandon c)) =
          m.having (m.engine.closing c) := habandons _ (m.having (m.engine.counted c))
    rw [← List.cons_append, after_append, hclosing, State.close_eq]
    exact (if_pos hlength).symm
  · rfl

/-- A loop that was not asked to stop takes the task that reports a closing. -/
theorem perform_announce (hl : l < m.engine.workers.length)
    (hstop : (m.engine.loop l).stopping = false) :
    m.perform (.announce l) = ⟨m.engine.spawned l (.close m.issued), m.issued + 1,
      m.history ++ [.submitted l (.close m.issued)]⟩ := by
  rw [perform, if_pos hl, State.submit_of_not_stopping hstop]
  rfl

/-- A closing joins the queue of its loop behind all promotions of operations that are cancelled. -/
theorem follows_announce {early : Errand → Prop} (hm : m.Orderly) (hledger : m.Ledger)
    (hl : l < m.engine.workers.length) (hstop : (m.engine.loop l).stopping = false)
    (hearly : ∀ t, early t → .submitted l t ∈ m.history ∧ ∃ c o response ticket,
      t = .promote c o response .fresh ticket ∧ m.engine.isCancelled c o = true) :
    Follows early l m.issued (m.perform (.announce l)) := by
  have hstep : m.Step (.announce l) _ := .take (.announce hl) hstop
  have hready : ((m.engine.spawned l (.close m.issued)).loop l).ready =
      (m.engine.loop l).ready ++ [((m.engine.loop l).tasks.insert (.close m.issued)).1] := by
    rw [State.loop_spawned hl hstop, if_pos rfl]
  rw [perform_announce hl hstop]
  refine .waiting hready ?_ ?_
  · rw [State.job?_spawned hl hstop hm.sound, if_pos ⟨rfl, rfl⟩]
    rfl
  · intro t hpromotion
    obtain ⟨ht, c, o, response, ticket, rfl, hcancelled⟩ := hearly t hpromotion
    rcases hledger.replied_or_waiting hm ht with ⟨place, x, hreplies, -⟩ | ⟨-, k, hjob⟩
    · have hx : (place, x) ∈ m.replies _ := hreplies ▸ List.mem_singleton_self _
      obtain ⟨hx, hanswers⟩ := mem_replies.mp hx
      exact Or.inl ⟨place, x, List.mem_append_left _ hx, hanswers⟩
    · refine Or.inr ⟨k, ?_, (hstep.job hm hjob).resolve_right (by simp)⟩
      -- The operation is cancelled, so the promotion cannot be asleep.
      by_contra hnot
      obtain ⟨u, hu, huntimed⟩ := Option.map_eq_some_iff.mp hjob
      obtain ⟨c', o', response', ticket', rfl, hfree⟩ := (hm.sound.loop l).asleep k u hu hnot
      cases huntimed
      rw [hcancelled] at hfree
      cases hfree

theorem Follows.after {early : Errand → Prop} {ticket : Nat} (h : Follows early l ticket m)
    (hm : m.Orderly)
    (hcancelled : ∀ c o response ticket, early (.promote c o response .fresh ticket) →
      m.engine.isCancelled c o = true)
    {events : List Event} (horder : InOrder l m events) :
    Follows early l ticket (m.after events) := by
  induction events generalizing m with
  | nil => exact h
  | cons e events ih =>
    have hstep := hm.step e
    refine ih (h.step hm hcancelled hstep horder.1) (hm.keep hstep) ?_ horder.2
    exact fun c o response ticket hearly =>
      hstep.grows.cancelled c o (hcancelled c o response ticket hearly)

/-- When the closing was reported, all early tasks had been. -/
theorem Follows.told {early : Errand → Prop} {ticket : Nat} (h : Follows early l ticket m)
    (hledger : m.Ledger) {place : Place} {earlier rest : List Observation}
    (hhistory : m.history = earlier ++ .completed place (.closed ticket) :: rest) {t : Errand}
    (ht : early t) : Told earlier t := by
  cases h with
  | waiting hready hjob hahead =>
    have hx : (place, .closed ticket) ∈ m.replies (.close ticket) :=
      mem_replies.mpr ⟨by simp [hhistory], by simp⟩
    rw [hledger.replies_eq_nil hjob] at hx
    cases hx
  | closed hhistory' htold =>
    have hnodup := hledger.nodup_told
    rw [hhistory] at hnodup
    obtain rfl := split_unique hnodup (hhistory.symm.trans hhistory') rfl rfl
    exact htold t ht

/-! ## Promotions that have looked -/

/-- How a promotion is reported that has looked whether it was cancelled: as cancelled if it was, and
otherwise with the error of its response, or with a stream. -/
def Outcome (response : Response) (cancelled : Bool) (stream : Option Nat)
    (error : Option EngineError) : Prop :=
  error = (if cancelled then some .canceled else response.error) ∧ (stream.isSome ↔ error = none)

theorem Outcome.of_settled {s s' : State Nat Pull Nat} {key c : Nat} {response : Response}
    {stream : Option Nat} {error : Option EngineError}
    (h : s.Settled l key c response stream error s') :
    ∃ cancelled, (s.worker l).found = some (.flag cancelled) ∧
      Outcome response cancelled stream error := by
  cases h with
  | cancelled hfound => exact ⟨true, hfound, by simp [Outcome]⟩
  | failed hfound herror => exact ⟨false, hfound, by simp [Outcome, herror]⟩
  | promoted hfound herror => exact ⟨false, hfound, by simp [Outcome, herror]⟩

section Promotion

variable {c o : Nat} {response : Response} {ticket : Nat}

/-- Of a promotion that is reported by the thread of its loop, the history tells what it saw when it
looked, and so how it is reported. -/
theorem Step.reports_as_looked (h : m.Step e m') (hm : m.Orderly) (hledger : m.Ledger)
    (ht : .submitted l (.promote c o response .fresh ticket) ∈ m.history) {place : Place}
    {stream : Option Nat} {error : Option EngineError}
    (hx : .completed place (.promoted ticket stream error) ∈ m'.history) :
    .completed place (.promoted ticket stream error) ∈ m.history ∨
      ∃ cancelled, .checked ticket cancelled ∈ m.history ∧
        Outcome response cancelled stream error := by
  rcases h.completed hx with hx | ⟨s, k, u, hasks, -, hu⟩ | ⟨k, key, u, s, hfront, hfinishes⟩
  · exact Or.inl hx
  · -- A task that is refused now has a new ticket.
    obtain ⟨x, hx, hanswers, -⟩ := u.abandoned?_eq hasks.proper.isSome
    obtain rfl := Option.some.inj (hu.symm.trans hx)
    have hnew := (Completion.ticket_of_answers hanswers).symm.trans hasks.ticket
    have hold : ticket ∈ List.range m.issued :=
      hledger.tickets ▸ List.mem_filterMap.mpr ⟨_, ht, rfl⟩
    obtain rfl := Option.some.inj hnew
    simp at hold
  · right
    have hjob := State.job?_of_front? hfront
    cases hfinishes with
    | promote hsettled =>
      obtain ⟨-, heq⟩ := hledger.submitted_unique ht (hm.handed k key _ hjob) rfl rfl
      cases heq
      obtain ⟨cancelled, hfound, houtcome⟩ := Outcome.of_settled hsettled
      obtain ⟨-, rest, hready, -⟩ := State.front?_eq_some.mp hfront
      obtain ⟨ticket', hticket, hchecked⟩ := hm.looked k key rest _ cancelled hfound hready hjob
      obtain rfl := Option.some.inj hticket
      exact ⟨cancelled, hchecked, houtcome⟩

theorem after_reports_as_looked (hm : m.Orderly) (hledger : m.Ledger)
    (ht : .submitted l (.promote c o response .fresh ticket) ∈ m.history) (events : List Event)
    {place : Place} {stream : Option Nat} {error : Option EngineError}
    (hx : .completed place (.promoted ticket stream error) ∈ (m.after events).history) :
    .completed place (.promoted ticket stream error) ∈ m.history ∨
      ∃ cancelled, .checked ticket cancelled ∈ (m.after events).history ∧
        Outcome response cancelled stream error := by
  induction events generalizing m with
  | nil => exact Or.inl hx
  | cons e events ih =>
    have hstep := hm.step e
    have hm' := hm.keep hstep
    rcases ih hm' (hledger.step hm hstep) (hstep.history.subset ht) hx with hx | hx
    · rcases hstep.reports_as_looked hm hledger ht hx with hx | ⟨cancelled, hchecked, houtcome⟩
      · exact Or.inl hx
      · have hpast := hstep.history.trans (hm'.history_after events)
        exact Or.inr ⟨cancelled, hpast.subset hchecked, houtcome⟩
    · exact Or.inr hx

/-- A promotion whose operation is cancelled sees that if it looks now. -/
theorem Step.looks_cancelled (h : m.Step e m') (hm : m.Orderly) (hledger : m.Ledger)
    (ht : .submitted l (.promote c o response .fresh ticket) ∈ m.history)
    (hcancelled : m.engine.isCancelled c o = true) {cancelled : Bool}
    (hx : .checked ticket cancelled ∈ m'.history) :
    .checked ticket cancelled ∈ m.history ∨ cancelled = true := by
  rcases h.checked hx with hx | ⟨k, key, t, hfront, hticket, hchecks⟩
  · exact Or.inl hx
  · right
    obtain ⟨-, heq⟩ := hledger.submitted_unique ht
      (hm.handed k key _ (State.job?_of_front? hfront)) rfl
      ((Task.ticket?_untimed t).trans hticket)
    cases hchecks with
    | promote =>
      cases heq
      exact hcancelled
    | pull => cases heq

theorem after_looks_cancelled (hm : m.Orderly) (hledger : m.Ledger)
    (ht : .submitted l (.promote c o response .fresh ticket) ∈ m.history)
    (hcancelled : m.engine.isCancelled c o = true) (events : List Event) {cancelled : Bool}
    (hx : .checked ticket cancelled ∈ (m.after events).history) :
    .checked ticket cancelled ∈ m.history ∨ cancelled = true := by
  induction events generalizing m with
  | nil => exact Or.inl hx
  | cons e events ih =>
    have hstep := hm.step e
    rcases ih (hm.keep hstep) (hledger.step hm hstep) (hstep.history.subset ht)
      (hstep.grows.cancelled c o hcancelled) hx with hx | hx
    · exact hstep.looks_cancelled hm hledger ht hcancelled hx
    · exact Or.inr hx

end Promotion

/-- An operation that somebody gives up is cancelled from then on. -/
theorem Orderly.isCancelled_after (h : m.Orderly) {c o : Nat}
    (ho : o < (m.engine.connector c).operations.length) {events : List Event}
    (habandon : .abandon c o ∈ events) : (m.after events).engine.isCancelled c o = true := by
  induction events generalizing m with
  | nil => cases habandon
  | cons e events ih =>
    have hstep := h.step e
    rcases List.mem_cons.mp habandon with rfl | habandon
    · exact (h.keep hstep).after_induction (P := fun m => m.engine.isCancelled c o = true)
        (State.isCancelled_abandon_self ho) (fun _ hc hstep => hstep.grows.cancelled c o hc) events
    · exact ih (h.keep hstep) (Nat.lt_of_lt_of_le ho (hstep.grows.operations c)) habandon

/-- A promotion whose operation somebody gives up is reported as cancelled if it had not looked by
then, and as it would have been anyway if it had. -/
theorem reported_as_looked_of_abandon {events later : List Event} {c o k ticket : Nat}
    {response : Response} {stream : Option Nat} {error : Option EngineError} {seen : Bool}
    (ht : .submitted k (.promote c o response .fresh ticket) ∈ (run events).history)
    (hseen : .checked ticket seen ∈ (run (events ++ .abandon c o :: later)).history)
    (houtcome : Outcome response seen stream error) :
    ((∀ cancelled, .checked ticket cancelled ∉ (run events).history) →
      stream = none ∧ ∃ e, error = some e ∧ e.code = .canceled) ∧
    ∀ cancelled, .checked ticket cancelled ∈ (run events).history →
      Outcome response cancelled stream error := by
  have hm := orderly_run events
  have hstep := hm.step (.abandon c o)
  refine ⟨fun hunseen => ?_, fun cancelled hchecked => ?_⟩
  · have hstruck := State.isCancelled_abandon_self (hm.operations k c o _ _ _ ht)
    rw [run_append] at hseen
    obtain rfl := (after_looks_cancelled (hm.keep hstep) ((ledger_run events).step hm hstep) ht
      hstruck later hseen).resolve_left (hunseen seen)
    obtain ⟨rfl, hstream⟩ := houtcome
    exact ⟨by simpa using hstream, _, rfl, rfl⟩
  · have hlater : .checked ticket cancelled ∈ (run (events ++ .abandon c o :: later)).history := by
      rw [run_append]
      exact (hm.history_after _).subset hchecked
    obtain rfl := (looks_run _).checked_unique hlater hseen
    exact houtcome

/-- Nothing that somebody does who closes a cluster counts as a cancellation on request. -/
theorem cancels_of_closing {c : Nat}
    (he : e = .closing c ∨ (∃ o, e = .abandon c o) ∨ e = .announce l) (d : Nat) :
    (((m.perform e).engine.connector d).operations.map Operation.cancels) =
      (m.engine.connector d).operations.map Operation.cancels := by
  rcases he with rfl | ⟨o, rfl⟩ | rfl
  · exact congrArg (List.map Operation.cancels) (State.operations_counted m.engine c d)
  · exact State.cancels_abandon m.engine c o d
  · simp only [perform, State.submit]
    split
    · split <;> rfl
    · rfl

end Moment

/-! ## Closing a cluster -/

open Moment

/-- A cluster of a connector on a loop is closed while others do something in between. -/
def closeAmid (c l : Nat) (during : List Event) : List Event :=
  .closing c :: (during ++ [.announce l])

/-- Somebody closes a cluster, and gives up all operations that its connector has had until then,
whatever others do meanwhile. None of it counts as a cancellation on request. Promotions of the
connector that had neither been reported when the closing began nor looked for the last time whether
they were cancelled when their operation was given up are reported, if at all, without a stream and as
cancelled. Those that had looked by then are reported as if nobody had closed the cluster; when the
closing begins, there is at most one of them on each loop that has not been reported. If the loop was
not asked to stop before it gets the task that reports the end, and its thread goes on to serve its
queue in order, then by the time the closing is reported every promotion is reported that the
connector had handed to the loop when the closing began. -/
theorem closing_reported_after_promotions (before during later : List Event) (c l : Nat)
    (hl : l < (run before).engine.workers.length)
    (hall : ∀ o < ((run before).engine.connector c).operations.length, .abandon c o ∈ during)
    (hserving : (run (before ++ .closing c :: during)).engine.isStopped l = false)
    (horder : InOrder l (run (before ++ closeAmid c l during)) later) :
    (∀ events e, e = .closing c ∨ (∃ o, e = .abandon c o) ∨ e = .announce l →
      ∀ d, ((run (events ++ [e])).engine.inspect d).operationCancels =
        ((run events).engine.inspect d).operationCancels) ∧
    (∀ k o response ticket place stream error,
      .submitted k (.promote c o response .fresh ticket) ∈ (run before).history →
      .completed place (.promoted ticket stream error) ∈
        (run (before ++ closeAmid c l during ++ later)).history →
      .completed place (.promoted ticket stream error) ∉ (run before).history →
      ∀ earlier rest, during = earlier ++ .abandon c o :: rest →
        ((∀ cancelled, .checked ticket cancelled ∉
            (run (before ++ .closing c :: earlier)).history) →
          stream = none ∧ ∃ e, error = some e ∧ e.code = .canceled) ∧
        ∀ cancelled, .checked ticket cancelled ∈ (run (before ++ .closing c :: earlier)).history →
          Outcome response cancelled stream error) ∧
    (∀ k t u, .submitted k t ∈ (run before).history → .submitted k u ∈ (run before).history →
      (run before).Outstanding t → (run before).Outstanding u → t = u) ∧
    .submitted l (.close (run (before ++ .closing c :: during)).issued) ∈
      (run (before ++ closeAmid c l during ++ later)).history ∧
    ∀ place earlier rest, (run (before ++ closeAmid c l during ++ later)).history =
        earlier ++ .completed place (.closed (run (before ++ .closing c :: during)).issued) :: rest →
      ∀ o response ticket,
        .submitted l (.promote c o response .fresh ticket) ∈ (run before).history →
          ∃ place stream error, .completed place (.promoted ticket stream error) ∈ earlier := by
  have hm := orderly_run before
  have hledger := ledger_run before
  have hm' := orderly_run (before ++ .closing c :: during)
  have hannounce : run (before ++ closeAmid c l during) =
      (run (before ++ .closing c :: during)).perform (.announce l) := by
    rw [closeAmid, ← List.cons_append, ← List.append_assoc, run_append]
    rfl
  have hend : run (before ++ closeAmid c l during ++ later) =
      (run (before ++ closeAmid c l during)).after later := run_append ..
  have hgrows : ∀ {events}, (run before).history ⊆ (run (before ++ events)).history := by
    intro events
    rw [run_append]
    exact (hm.history_after events).subset
  have hl' : l < (run (before ++ .closing c :: during)).engine.workers.length := by
    rw [run_append]
    exact hm.after_induction (P := fun m => l < m.engine.workers.length) hl
      (fun _ hlt hstep => Nat.lt_of_lt_of_le hlt hstep.workers) _
  have hcancelled : ∀ {k o response ticket},
      .submitted k (.promote c o response .fresh ticket) ∈ (run before).history →
        (run (before ++ .closing c :: during)).engine.isCancelled c o = true := by
    intro k o response ticket ht
    have ho := hm.operations k c o _ _ _ ht
    rw [run_append]
    exact hm.isCancelled_after ho (List.mem_cons_of_mem _ (hall o ho))
  refine ⟨fun events e he d => ?_, ?_, fun k t u ht hu => (looks_run before).outstanding_unique hm
    hledger ht hu, ?_, ?_⟩
  · rw [run_append]
    exact cancels_of_closing he d
  · intro k o response ticket place stream error ht hx hnew earlier rest hduring
    have hsplit : before ++ closeAmid c l during ++ later =
        before ++ .closing c :: earlier ++ .abandon c o :: (rest ++ .announce l :: later) := by
      simp [closeAmid, hduring]
    rw [List.append_assoc, run_append] at hx
    obtain ⟨seen, hseen, houtcome⟩ :=
      (after_reports_as_looked hm hledger ht _ hx).resolve_left hnew
    rw [← run_append, ← List.append_assoc, hsplit] at hseen
    exact reported_as_looked_of_abandon (hgrows ht) hseen houtcome
  · rw [hend]
    refine ((orderly_run _).history_after later).subset ?_
    rw [hannounce, perform_announce hl' hserving]
    simp
  · intro place earlier rest hhistory o response ticket ht
    have hfollows : Follows (fun t => .submitted l t ∈ (run before).history ∧
        ∃ o response ticket, t = .promote c o response .fresh ticket) l
        (run (before ++ .closing c :: during)).issued (run (before ++ closeAmid c l during)) := by
      rw [hannounce]
      refine follows_announce hm' (ledger_run _) hl' hserving ?_
      rintro t ⟨ht, o, response, ticket, rfl⟩
      exact ⟨hgrows ht, c, o, response, ticket, rfl, hcancelled ht⟩
    have hafter := hfollows.after (orderly_run _) (by
      rintro c' o' response' ticket' ⟨ht', o'', response'', ticket'', heq⟩
      cases heq
      rw [hannounce]
      exact (hm'.step (.announce l)).grows.cancelled c o' (hcancelled ht')) horder
    rw [← hend] at hafter
    obtain ⟨place', x, hx, hanswers⟩ :=
      hafter.told (ledger_run _) hhistory ⟨ht, o, response, ticket, rfl⟩
    obtain ⟨stream, error, rfl⟩ := Completion.answers_promote hanswers
    exact ⟨place', stream, error, hx⟩

/-- The observation does not report the promotion with a ticket. -/
def Observation.spares (ticket : Nat) : Observation → Bool
  | .completed _ (.promoted t ..) => t != ticket
  | .checked t _ => t != ticket
  | _ => true

/-- Five queries: the first is promoted, the second sleeps, the delay of the third is over and it has
looked whether it was cancelled, the fourth is cancelled, and the fifth has not begun. -/
def busyRun : List Event :=
  [.connector, .loop, .respond 0 {}, .respond 0 { delay := some 5 }, .respond 0 { delay := some 5 },
    .respond 0 { delay := some 5 }, .respond 0 {}, .execute 0 0 { statement := "a" },
    .execute 0 0 { statement := "b" }, .execute 0 0 { statement := "c" },
    .execute 0 0 { statement := "d" }, .turn 0, .turn 0, .turn 0, .turn 0, .turn 0, .elapse 0 2,
    .cancelOperation 0 3, .execute 0 0 { statement := "e" }, .turn 0]

/-- What happens while the cluster is closed: the thread of the loop gets a turn, and the third query,
which has looked, is promoted. -/
def closingTurn : List Event :=
  [.abandon 0 0, .abandon 0 1, .abandon 0 2, .turn 0, .abandon 0 3, .abandon 0 4]

/-- What happens after the cluster was closed: the loop is asked to stop, too, and runs its tasks. -/
def closedTurns : List Event :=
  [.stop 0, .turn 0, .turn 0, .turn 0, .turn 0, .turn 0, .turn 0, .turn 0]

/-- In that run the closing is reported last, after the query that slept was reported as
cancelled. -/
theorem closing_reported_after_promotions_of_busyRun :
    InOrder 0 (run (busyRun ++ closeAmid 0 0 closingTurn)) closedTurns ∧
    ∃ earlier, (run (busyRun ++ closeAmid 0 0 closingTurn ++ closedTurns)).history =
        earlier ++ [.completed .loop (.closed 5)] ∧
      ∃ place stream error, .completed place (.promoted 1 stream error) ∈ earlier ∧
        stream = none ∧ ∃ e, error = some e ∧ e.code = .canceled := by
  have hall : ∀ o < ((run busyRun).engine.connector 0).operations.length,
      Event.abandon 0 o ∈ closingTurn := by
    intro o ho
    have hcount : ((run busyRun).engine.connector 0).operations.length = 5 := by decide +kernel
    obtain rfl | rfl | rfl | rfl | rfl : o = 0 ∨ o = 1 ∨ o = 2 ∨ o = 3 ∨ o = 4 := by omega
    all_goals simp [closingTurn]
  have horder : InOrder 0 (run (busyRun ++ closeAmid 0 0 closingTurn)) closedTurns :=
    ⟨by simp, fun _ => ⟨[], rfl⟩, fun _ => ⟨[3], rfl⟩, fun _ => ⟨[], rfl⟩, fun _ => ⟨[0], rfl⟩,
      fun _ => ⟨[], rfl⟩, fun _ => ⟨[1], rfl⟩, fun _ => ⟨[2], rfl⟩, trivial⟩
  have hlast : (run (busyRun ++ closeAmid 0 0 closingTurn ++ closedTurns)).history =
      (run (busyRun ++ closeAmid 0 0 closingTurn ++ closedTurns)).history.dropLast ++
        [.completed .loop (.closed 5)] := rfl
  refine ⟨horder, _, hlast, ?_⟩
  obtain ⟨-, hreported, -, -, hearlier⟩ := closing_reported_after_promotions busyRun closingTurn
    closedTurns 0 0 (by decide) hall rfl horder
  have hsubmitted : .submitted 0 (.promote 0 1 { delay := some 5 } .fresh 1) ∈
      (run busyRun).history := List.mem_of_getElem? (i := 1) rfl
  have hspared : ∀ x ∈ (run busyRun).history, x.spares 1 = true :=
    List.all_eq_true.mp (by decide +kernel)
  have hunseen : ∀ x ∈ (run (busyRun ++ [.closing 0, .abandon 0 0])).history, x.spares 1 = true :=
    List.all_eq_true.mp (by decide +kernel)
  obtain ⟨place, stream, error, hx⟩ := hearlier _ _ _ hlast _ _ _ hsubmitted
  obtain ⟨hcancelled, -⟩ := hreported 0 1 _ 1 place stream error hsubmitted
    (List.dropLast_subset _ hx) (fun hearly => by simpa [Observation.spares] using hspared _ hearly)
    [.abandon 0 0] _ rfl
  exact ⟨place, stream, error, hx,
    hcancelled fun cancelled hearly => by simpa [Observation.spares] using hunseen _ hearly⟩

/-- A query that has looked whether it was cancelled. -/
def lookedRun : List Event :=
  [.connector, .loop, .respond 0 {}, .execute 0 0 { statement := "a" }, .turn 0]

/-- A query that has not begun. -/
def freshRun : List Event :=
  [.connector, .loop, .respond 0 {}, .execute 0 0 { statement := "a" }]

/-- A promotion that was not reported before its cluster was closed need not fail: the closing may come
between its look and its report, and then it makes a stream. It may even look when the closing has
begun, before its operation is given up. And if the loop is asked to stop while the cluster is being
closed, the closing is reported at once, before the promotions. -/
theorem promotion_outlives_closing :
    (¬ ∀ (before later : List Event) (c l : Nat), l < (run before).engine.workers.length →
      (run before).engine.isStopped l = false →
      InOrder l (run (before ++ [.close c l])) later →
      ∀ o response ticket place stream error,
        .submitted l (.promote c o response .fresh ticket) ∈ (run before).history →
        .completed place (.promoted ticket stream error) ∈
          (run (before ++ .close c l :: later)).history →
        .completed place (.promoted ticket stream error) ∉ (run before).history →
          stream = none ∧ ∃ e, error = some e ∧ e.code = .canceled) ∧
    (¬ ∀ (before during later : List Event) (c l : Nat), l < (run before).engine.workers.length →
      (∀ o < ((run before).engine.connector c).operations.length, .abandon c o ∈ during) →
      (run (before ++ .closing c :: during)).engine.isStopped l = false →
      InOrder l (run (before ++ closeAmid c l during)) later →
      ∀ o response ticket place stream error,
        .submitted l (.promote c o response .fresh ticket) ∈ (run before).history →
        (∀ cancelled, .checked ticket cancelled ∉ (run before).history) →
        .completed place (.promoted ticket stream error) ∈
          (run (before ++ closeAmid c l during ++ later)).history →
        .completed place (.promoted ticket stream error) ∉ (run before).history →
          stream = none ∧ ∃ e, error = some e ∧ e.code = .canceled) ∧
    ¬ ∀ (before during later : List Event) (c l : Nat), l < (run before).engine.workers.length →
      (∀ o < ((run before).engine.connector c).operations.length, .abandon c o ∈ during) →
      (run before).engine.isStopped l = false →
      InOrder l (run (before ++ closeAmid c l during)) later →
      ∀ place earlier rest, (run (before ++ closeAmid c l during ++ later)).history = earlier ++
          .completed place (.closed (run (before ++ .closing c :: during)).issued) :: rest →
        ∀ o response ticket,
          .submitted l (.promote c o response .fresh ticket) ∈ (run before).history →
            ∃ place stream error, .completed place (.promoted ticket stream error) ∈ earlier := by
  have hfresh : (run freshRun).history = [.submitted 0 (.promote 0 0 {} .fresh 0)] := rfl
  have hgivesUp : ∀ {during : List Event}, .abandon 0 0 ∈ during →
      ∀ o < ((run freshRun).engine.connector 0).operations.length, .abandon 0 o ∈ during := by
    intro during hmem o ho
    have hcount : ((run freshRun).engine.connector 0).operations.length = 1 := rfl
    rw [hcount, Nat.lt_one_iff] at ho
    exact ho ▸ hmem
  refine ⟨fun h => ?_, fun h => ?_, fun h => ?_⟩
  · have hnone : (run lookedRun).history =
        [.submitted 0 (.promote 0 0 {} .fresh 0), .checked 0 false] := rfl
    obtain ⟨hstream, -⟩ := h lookedRun [.turn 0] 0 0 (by decide) rfl ⟨fun _ => ⟨[0], rfl⟩, trivial⟩
      0 {} 0 .loop (some 0) none (List.mem_of_getElem? (i := 0) rfl)
      (List.mem_of_getElem? (i := 3) rfl) (by simp [hnone])
    cases hstream
  · obtain ⟨hstream, -⟩ := h freshRun [.turn 0, .abandon 0 0] [.turn 0] 0 0 (by decide)
      (hgivesUp (by simp)) rfl ⟨fun _ => ⟨[0], rfl⟩, trivial⟩
      0 {} 0 .loop (some 0) none (List.mem_of_getElem? (i := 0) rfl) (by simp [hfresh])
      (List.mem_of_getElem? (i := 3) rfl) (by simp [hfresh])
    cases hstream
  · obtain ⟨place, stream, error, hx⟩ := h freshRun [.abandon 0 0, .stop 0] [] 0 0 (by decide)
      (hgivesUp (by simp)) rfl trivial .host
      [.submitted 0 (.promote 0 0 {} .fresh 0), .submitted 0 (.close 1)] [] rfl
      0 {} 0 (List.mem_of_getElem? (i := 0) rfl)
    simp at hx

end HostBridge.Engine
