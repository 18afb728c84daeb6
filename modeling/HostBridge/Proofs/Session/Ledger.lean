import HostBridge.Proofs.Session.Invariant

/-!
# Nothing is lost or done twice

The books of a run. Every accepted query is still a task of a loop or has been reported, and so is
every pull that a loop took: it is still a task or has been answered. A result is accepted once, a
ticket is given once, a stream is reported once, and the operations of a connector are numbered in
the order of acceptance.
-/

namespace HostBridge.Session

open Bridge (Cookie Host)

/-! ## Entries -/

namespace Observation

/-- The ticket that is given to a new callback. -/
@[simp]
def ticket? : Observation → Option Nat
  | .accepted _ _ _ t => some t
  | .refused t => some t
  | .asked _ t _ => some t
  | _ => none

/-- The result of a query that is accepted. -/
@[simp]
def result? : Observation → Option Nat
  | .accepted _ _ r _ => some r
  | _ => none

/-- The operation of a connector for a query that is accepted. -/
@[simp]
def operation? (c : Nat) : Observation → Option Nat
  | .accepted _ (.memory d o) _ _ => if d = c then some o else none
  | _ => none

/-- A query that is accepted, by result and ticket. -/
@[simp]
def query? : Observation → Option (Nat × Nat)
  | .accepted _ _ r t => some (r, t)
  | _ => none

/-- A promotion that is reported, by result and ticket. -/
@[simp]
def report? : Observation → Option (Nat × Nat)
  | .reported r t _ _ _ => some (r, t)
  | _ => none

/-- The stream of a promotion that is reported. -/
@[simp]
def stream? : Observation → Option Nat
  | .reported _ _ stream _ _ => stream
  | _ => none

/-- A pull, by ticket. -/
@[simp]
def pull? : Observation → Option Nat
  | .asked _ t (some _) => some t
  | _ => none

/-- A pull that is answered, by ticket. -/
@[simp]
def answer? : Observation → Option Nat
  | .answered t _ => some t
  | _ => none

/-- Only an observation that gives a ticket enters a query or a pull. -/
theorem no_entry {o : Observation} (h : o.ticket? = none) :
    o.result? = none ∧ (∀ c, o.operation? c = none) ∧ o.query? = none ∧ o.pull? = none := by
  cases o <;> simp_all

theorem no_stream {o : Observation} (h : o.report? = none) : o.stream? = none := by
  cases o <;> simp_all

end Observation

/-- A promotion that is still to be made, by result and ticket. -/
@[simp]
def promotion? : Task → Option (Nat × Nat)
  | .promote _ _ _ _ p => some (p.result, p.cookie.ticket)
  | _ => none

/-- A pull that is still to be answered, by ticket. -/
@[simp]
def pull? : Task → Option Nat
  | .pull _ cookie => some cookie.ticket
  | _ => none

namespace Moment

variable {m m' : Moment} {os : List Observation}

/-- The books of a run are in order. -/
structure Ledger (m : Moment) : Prop where
  /-- A result is accepted once. -/
  results : (m.history.filterMap Observation.result?).Nodup
  /-- A ticket is given once. -/
  tickets : (m.history.filterMap Observation.ticket?).Nodup
  /-- Operations are numbered in the order of acceptance. -/
  operations : ∀ c, m.history.filterMap (Observation.operation? c) =
    List.range (m.state.engine.connector c).operations.length
  /-- A promotion is still to be made or was reported. -/
  promotions : (m.state.engine.collect promotion? ++ m.history.filterMap Observation.report?).Perm
    (m.history.filterMap Observation.query?)
  /-- A pull is still to be answered or was answered. -/
  pulls : (m.state.engine.collect pull? ++ m.history.filterMap Observation.answer?).Perm
    (m.history.filterMap Observation.pull?)
  /-- Streams are numbered in the order of promotion. -/
  streams : m.history.filterMap Observation.stream? = List.range m.state.engine.streams.length

namespace Ledger

theorem start : ({} : Moment).Ledger :=
  ⟨by simp, by simp, by simp [Engine.State.connector], by simp [Engine.State.collect],
    by simp [Engine.State.collect], by simp⟩

/-- New entries are not among the old ones. -/
theorem nodup_fresh {bound : Nat} {old new : List Nat} (h : old.Nodup) (hold : ∀ a ∈ old, a < bound)
    (hnew : new.Nodup) (hfresh : ∀ a ∈ new, bound ≤ a) : (old ++ new).Nodup := by
  refine List.nodup_append.mpr ⟨h, hnew, fun a ha b hb e => ?_⟩
  subst e
  exact absurd (hold a ha) (Nat.not_lt.mpr (hfresh a hb))

/-- A move that makes new entries. -/
theorem extend (h : m.Ledger) (hsane : m.Sane) (hhistory : m'.history = m.history ++ os)
    (hresults : (os.filterMap Observation.result?).Nodup ∧
      ∀ r ∈ os.filterMap Observation.result?, m.state.results.length ≤ r)
    (htickets : (os.filterMap Observation.ticket?).Nodup ∧
      ∀ t ∈ os.filterMap Observation.ticket?, m.state.host.issued ≤ t)
    (hoperations : ∀ c, List.range (m.state.engine.connector c).operations.length ++
      os.filterMap (Observation.operation? c) =
        List.range (m'.state.engine.connector c).operations.length)
    (hpromotions : (m'.state.engine.collect promotion? ++ os.filterMap Observation.report?).Perm
      (m.state.engine.collect promotion? ++ os.filterMap Observation.query?))
    (hpulls : (m'.state.engine.collect pull? ++ os.filterMap Observation.answer?).Perm
      (m.state.engine.collect pull? ++ os.filterMap Observation.pull?))
    (hstreams : List.range m.state.engine.streams.length ++ os.filterMap Observation.stream? =
      List.range m'.state.engine.streams.length) : m'.Ledger := by
  refine ⟨?_, ?_, fun c => ?_, ?_, ?_, ?_⟩ <;> rw [hhistory, List.filterMap_append]
  · refine nodup_fresh h.results (fun r hr => ?_) hresults.1 hresults.2
    obtain ⟨o, ho, hr⟩ := List.mem_filterMap.mp hr
    cases o <;> simp only [Observation.result?, reduceCtorEq] at hr
    obtain rfl := Option.some.inj hr
    exact (hsane.accounted.recorded _ ho).2.1
  · refine nodup_fresh h.tickets (fun t ht => ?_) htickets.1 htickets.2
    obtain ⟨o, ho, ht⟩ := List.mem_filterMap.mp ht
    have hrecorded := hsane.accounted.recorded _ ho
    rw [← hsane.bridged.issued]
    cases o <;> simp only [Observation.ticket?, reduceCtorEq] at ht <;>
      obtain rfl := Option.some.inj ht
    · exact hrecorded.2.2
    · exact hrecorded
    · exact hrecorded.1
  · rw [h.operations, hoperations]
  · rw [List.filterMap_append]
    exact Engine.balance h.promotions hpromotions
  · rw [List.filterMap_append]
    exact Engine.balance h.pulls hpulls
  · rw [h.streams, hstreams]

/-- A move that makes no entries. -/
theorem keep (h : m.Ledger) (hsane : m.Sane) (hhistory : m'.history = m.history ++ os)
    (hneutral : ∀ o ∈ os, o.ticket? = none ∧ o.report? = none ∧ o.answer? = none)
    (hoperations : ∀ c, (m'.state.engine.connector c).operations.length =
      (m.state.engine.connector c).operations.length)
    (hcollect : ∀ {α : Type} (f : Task → Option α), (∀ i, f (.close i) = none) →
      (m'.state.engine.collect f).Perm (m.state.engine.collect f))
    (hstreams : m'.state.engine.streams.length = m.state.engine.streams.length) : m'.Ledger := by
  have hnone : ∀ {α : Type} (f : Observation → Option α),
      (∀ o : Observation, o.ticket? = none → o.report? = none → o.answer? = none → f o = none) →
        os.filterMap f = [] := fun f hf =>
    List.filterMap_eq_nil_iff.mpr fun o ho =>
      hf o (hneutral o ho).1 (hneutral o ho).2.1 (hneutral o ho).2.2
  have hresult := hnone Observation.result? fun o ho _ _ => (Observation.no_entry ho).1
  have hticket := hnone Observation.ticket? fun o ho _ _ => ho
  have hoperation := fun c => hnone (Observation.operation? c) fun o ho _ _ =>
    (Observation.no_entry ho).2.1 c
  have hquery := hnone Observation.query? fun o ho _ _ => (Observation.no_entry ho).2.2.1
  have hpull := hnone Observation.pull? fun o ho _ _ => (Observation.no_entry ho).2.2.2
  have hstream := hnone Observation.stream? fun o _ ho _ => Observation.no_stream ho
  refine h.extend hsane hhistory (by simp [hresult]) (by simp [hticket]) (fun c => ?_) ?_ ?_ ?_
  · rw [hoperation, hoperations, List.append_nil]
  · rw [hnone Observation.report? fun o _ ho _ => ho, hquery, List.append_nil, List.append_nil]
    exact hcollect promotion? fun _ => rfl
  · rw [hnone Observation.answer? fun o _ _ ho => ho, hpull, List.append_nil, List.append_nil]
    exact hcollect pull? fun _ => rfl
  · rw [hstream, hstreams, List.append_nil]

/-- A promotion comes to its end. -/
theorem reported (h : m.Ledger) (hsane : m.Sane) {l key c o : Nat} {response : Engine.Response}
    {p : Promotion} {stream : Option Nat} {error : Option EngineError} {alive : Bool}
    (htask : m.state.engine.job? l key = some (.promote c o response .fresh p))
    (hsettled : m.state.engine.Settled l key c response stream error m'.state.engine)
    (hhistory : m'.history =
      m.history ++ [.reported p.result p.cookie.ticket stream error alive]) : m'.Ledger := by
  have hl := Engine.State.lt_of_job? htask
  have hcollect : ∀ {α : Type} (f : Task → Option α), m'.state.engine.collect f =
      (m.state.engine.finished l key).collect f := fun f => by
    rw [Engine.State.collect, Engine.State.collect, hsettled.workers]
  refine h.extend hsane hhistory (by simp [List.filterMap_cons]) (by simp [List.filterMap_cons])
    (fun d => ?_) ?_ ?_ ?_
  · simp [List.filterMap_cons, hsettled.connector d]
  · rw [hcollect]
    have := Engine.State.collect_finished hl promotion? htask
    simp only [promotion?, Option.toList_some, List.singleton_append] at this
    simp only [List.filterMap_cons, Observation.report?, Observation.query?, List.filterMap_nil,
      List.append_nil]
    exact (List.perm_append_singleton _ _).trans this.symm
  · rw [hcollect]
    have := Engine.State.collect_finished hl pull? htask
    simpa [List.filterMap_cons] using this.symm
  · rw [← hsettled.range_streams]
    cases stream <;> simp

/-- The books stay in order. -/
theorem step (h : m.Ledger) (hsane : m.Sane) (hstep : m.Step m') : m'.Ledger := by
  have horderly := hsane.orderly
  have hsame : ∀ {engine : Engine.State Promotion Cookie Nat} {α : Type} (f : Task → Option α),
      m.state.engine.SameJobs engine → (engine.collect f).Perm (m.state.engine.collect f) :=
    fun f hjobs => by rw [hjobs.collect]
  cases hstep with
  | note | grasp | attach | letGo | tell | drop | reap =>
    exact h.keep hsane (List.append_nil _).symm (by simp) (fun _ => rfl) (fun _ _ => .refl _) rfl
  | connector =>
    refine h.keep hsane (List.append_nil _).symm (by simp) (fun c => ?_) (fun _ _ => .refl _) rfl
    rw [having, Engine.State.connector_addConnector]
  | @respond c response hc =>
    refine h.keep hsane rfl (by simp) (fun d => ?_) (fun _ _ => .refl _) rfl
    rw [Engine.State.connector_respond hc]
    split
    · next hd => rw [hd]
    · rfl
  | create c =>
    refine h.keep hsane (List.append_nil _).symm (by simp) (fun _ => rfl) (fun f _ => ?_) rfl
    rw [having, Engine.State.collect_addLoop]
  | refuse name hides =>
    exact h.extend hsane rfl (by simp [List.filterMap_cons]) (by simp)
      (fun _ => by simp [List.filterMap_cons]) (by simp [List.filterMap_cons])
      (by simp [List.filterMap_cons]) (by simp [List.filterMap_cons])
  | @accept e i c x request name hides response responses hx hrunning hc hresponses =>
    obtain ⟨hi, hstop⟩ := horderly.takes hx hrunning
    have hsound := horderly.sound.accepting (c := c) request responses
    have hcollect : ∀ {α : Type} (f : Task → Option α), _ := fun f =>
      Engine.State.collect_spawned (s := m.state.engine.accepting c request responses) hi hstop hsound
        f (.promote c (m.state.engine.connector c).operations.length response .fresh
          ⟨m.state.results.length, m.nextCookie queryLabel (.promotion name hides)⟩)
    refine h.extend hsane rfl (by simp) (by simp)
      (fun d => ?_) ?_ ?_ (by simp [List.filterMap_cons]; rfl)
    · show _ = List.range ((m.state.engine.accepting c request responses).connector
        d).operations.length
      rw [Engine.State.connector_accepting (Engine.State.lt_connectors_of_responses hresponses)]
      by_cases hd : c = d
      · simp [hd, List.range_succ]
      · have hd' : ¬ d = c := fun e => hd e.symm
        simp [hd, hd']
    · simp only [List.filterMap_cons, Observation.report?, Observation.query?, List.filterMap_nil,
        List.append_nil]
      refine (hcollect promotion?).trans ?_
      simp only [promotion?, Engine.Task.untimed, Option.toList_some, nextCookie]
      rw [Host.register_ticket]
      exact List.perm_append_comm
    · rw [List.filterMap_cons_none rfl, List.filterMap_nil, List.append_nil]
      refine (hcollect pull?).trans ?_
      simp [Engine.Task.untimed, List.filterMap_cons]
      rfl
  | askEarly htarget =>
    exact h.extend hsane rfl (by simp [List.filterMap_cons]) (by simp)
      (fun _ => by simp [List.filterMap_cons]) (by simp [List.filterMap_cons])
      (by simp [List.filterMap_cons]) (by simp [List.filterMap_cons])
  | @ask r i x name e htarget hx hstop =>
    have hl := hsane.accounted.anchored horderly htarget hx
    have hcollect : ∀ {α : Type} (f : Task → Option α), _ := fun f =>
      Engine.State.collect_spawned hl hstop horderly.sound f
        (.pull i (m.nextCookie rowLabel (.row name e)))
    refine h.extend hsane rfl (by simp [List.filterMap_cons]) (by simp)
      (fun d => by simp [List.filterMap_cons]; rfl) ?_ ?_ (by simp [List.filterMap_cons]; rfl)
    · rw [List.filterMap_cons_none rfl, List.filterMap_nil, List.append_nil]
      refine (hcollect promotion?).trans ?_
      simp [Engine.Task.untimed, List.filterMap_cons]
    · simp only [List.filterMap_cons, Observation.answer?, Observation.pull?, List.filterMap_nil,
        List.append_nil]
      refine (hcollect pull?).trans ?_
      simp only [pull?, Engine.Task.untimed, Option.toList_some, nextCookie]
      rw [Host.register_ticket]
      exact List.perm_append_comm
  | askLate htarget hx hstop =>
    exact h.extend hsane rfl (by simp [List.filterMap_cons]) (by simp [List.filterMap_cons])
      (fun _ => by simp [List.filterMap_cons]) (by simp [List.filterMap_cons])
      (by simp [List.filterMap_cons]) (by simp [List.filterMap_cons])
  | @strikeOperation e r c o hcall =>
    have hwoken := Engine.State.woken_cancelOperation m.state.engine c o
    exact h.keep hsane rfl (by simp)
      (fun d => (hwoken.connector d).2) (fun f _ => hsame f (.of_tasks hwoken.length hwoken.tasks))
      (by rw [hwoken.streams])
  | strikeStream hcall =>
    exact h.keep hsane rfl (by simp)
      (fun _ => rfl) (fun _ _ => .refl _)
      (by simp [Engine.State.cancelStream, Engine.State.modifyStream])
  | @close i c x hx hrunning hc =>
    obtain ⟨hi, hstop⟩ := horderly.takes hx hrunning
    have hwoken := Engine.State.woken_closing m.state.engine c
    refine h.keep hsane (List.append_nil _).symm (by simp) (fun d => (hwoken.connector d).2)
      (fun f hf => ?_) (by rw [← hwoken.streams]; rfl)
    refine (Engine.State.collect_spawned (hwoken.length ▸ hi) (hwoken.stopping i ▸ hstop)
      (horderly.sound.closing c) f (.close i)).trans ?_
    simpa [Engine.Task.untimed, hf] using hsame f (.of_tasks hwoken.length hwoken.tasks)
  | @look l _ =>
    exact h.keep hsane (List.append_nil _).symm (by simp) (fun _ => rfl)
      (fun f _ => hsame f (Engine.State.sameJobs_looked _ l)) rfl
  | check =>
    exact h.keep hsane rfl (by simp) (fun _ => rfl)
      (fun f _ => hsame f (Engine.State.sameQueues_checked _ _ _).sameJobs) rfl
  | draw =>
    exact h.keep hsane (List.append_nil _).symm (by simp) (fun _ => rfl)
      (fun f _ => hsame f (Engine.State.sameQueues_drawn _ _ _ _).sameJobs)
      (List.length_modify ..)
  | sleep hready htask hcancelled =>
    have hjob := congrArg (Option.map Engine.Task.untimed) htask
    exact h.keep hsane (List.append_nil _).symm (by simp) (fun _ => rfl)
      (fun f _ => hsame f (Engine.State.sameJobs_slept (Engine.State.lt_of_job? hjob) hjob)) rfl
  | elapse harmed =>
    exact h.keep hsane (List.append_nil _).symm (by simp) (fun _ => rfl)
      (fun f _ => hsame f (Engine.State.sameJobs_elapse harmed)) rfl
  | report hready htask hsettled htarget => exact h.reported hsane htask hsettled rfl
  | reportLost hready htask hsettled htarget => exact h.reported hsane htask hsettled rfl
  | @answer l key i keys cookie row hready htask =>
    have hl := Engine.State.lt_of_job? htask
    refine h.extend hsane rfl (by simp [List.filterMap_cons]) (by simp [List.filterMap_cons])
      (fun _ => by simp [List.filterMap_cons]; rfl) ?_ ?_ (by simp [List.filterMap_cons]; rfl)
    · have := Engine.State.collect_finished hl promotion? htask
      simp only [promotion?, Option.toList_none, List.nil_append] at this
      simp only [List.filterMap_cons, Observation.report?, Observation.query?, List.filterMap_nil,
        List.append_nil]
      exact this.symm
    · have := Engine.State.collect_finished hl pull? htask
      simp only [pull?, Option.toList_some, List.singleton_append] at this
      simp only [List.filterMap_cons, Observation.answer?, Observation.pull?, List.filterMap_nil,
        List.append_nil]
      exact (List.perm_append_singleton _ _).trans this.symm
  | @shut l key i keys x y hready htask hx hshuts =>
    have hi : x.loop < (m.state.engine.finished l key).workers.length := by
      rw [(Engine.State.Shifts.finished htask).length, horderly.loop i x hx, horderly.workers]
      exact (List.getElem?_eq_some_iff.mp hx).1
    refine h.keep hsane (List.append_nil _).symm (by simp) (fun _ => rfl) (fun f hf => ?_) rfl
    have := Engine.State.collect_finished (Engine.State.lt_of_job? htask) f htask
    rw [hf] at this
    rw [having, (Engine.State.sameJobs_stop hi).collect]
    exact this.symm
  | stray hready htask =>
    refine h.keep hsane (List.append_nil _).symm (by simp) (fun _ => rfl) (fun f hf => ?_) rfl
    have := Engine.State.collect_finished (Engine.State.lt_of_job? htask) f htask
    rw [hf] at this
    exact this.symm

/-! ## What the books say -/

section Entries

variable {i j r r' t t' : Nat} {operation operation' : Operation} {stream stream' : Option Nat}
  {error error' : Option EngineError} {alive alive' : Bool}

/-- A result belongs to one query. -/
theorem accepted_unique (h : m.Ledger) (ho : .accepted i operation r t ∈ m.history)
    (ho' : .accepted j operation' r t' ∈ m.history) : i = j ∧ operation = operation' ∧ t = t' := by
  have := Engine.eq_of_nodup_filterMap h.results ho ho' rfl rfl
  simpa using this

/-- An operation belongs to one query. -/
theorem operation_unique (h : m.Ledger) {c o : Nat}
    (ho : .accepted i (.memory c o) r t ∈ m.history)
    (ho' : .accepted j (.memory c o) r' t' ∈ m.history) : r = r' := by
  have hnodup : (m.history.filterMap (Observation.operation? c)).Nodup := by
    rw [h.operations]
    exact List.nodup_range
  have := Engine.eq_of_nodup_filterMap (b := o) hnodup ho ho' (by simp) (by simp)
  simp_all

/-- A ticket is given for one thing. -/
theorem ticket_unique (h : m.Ledger) {o o' : Observation} (ho : o ∈ m.history)
    (ho' : o' ∈ m.history) (ht : o.ticket? = some t) (ht' : o'.ticket? = some t) : o = o' :=
  Engine.eq_of_nodup_filterMap h.tickets ho ho' ht ht'

theorem nodup_queries (h : m.Ledger) : (m.history.filterMap Observation.query?).Nodup := by
  have hresults : (m.history.filterMap Observation.query?).map Prod.fst =
      m.history.filterMap Observation.result? := by
    rw [List.map_filterMap]
    refine List.filterMap_congr fun o _ => ?_
    cases o <;> rfl
  exact List.Nodup.of_map Prod.fst (hresults ▸ h.results)

/-- A promotion is reported once. -/
theorem reported_unique (h : m.Ledger) (hsane : m.Sane)
    (ho : .reported r t stream error alive ∈ m.history)
    (ho' : .reported r t' stream' error' alive' ∈ m.history) :
    t = t' ∧ stream = stream' ∧ error = error' ∧ alive = alive' := by
  obtain ⟨i, operation, haccepted, -⟩ := hsane.accounted.recorded _ ho
  obtain ⟨j, operation', haccepted', -⟩ := hsane.accounted.recorded _ ho'
  obtain ⟨-, -, rfl⟩ := h.accepted_unique haccepted haccepted'
  have hnodup := (List.nodup_append.mp (h.promotions.nodup_iff.mpr h.nodup_queries)).2.1
  have := Engine.eq_of_nodup_filterMap hnodup ho ho' rfl rfl
  simpa using this

/-- A stream is made for one query. -/
theorem stream_unique (h : m.Ledger) {k : Nat}
    (ho : .reported r t (some k) error alive ∈ m.history)
    (ho' : .reported r' t' (some k) error' alive' ∈ m.history) : r = r' := by
  have hnodup : (m.history.filterMap Observation.stream?).Nodup := by
    rw [h.streams]
    exact List.nodup_range
  have := Engine.eq_of_nodup_filterMap (b := k) hnodup ho ho' rfl rfl
  simp_all

/-- A stream is made for a query. -/
theorem exists_reported (h : m.Ledger) {k : Nat} (hk : k < m.state.engine.streams.length) :
    ∃ r t error alive, .reported r t (some k) error alive ∈ m.history := by
  have : k ∈ m.history.filterMap Observation.stream? := by
    rw [h.streams]
    exact List.mem_range.mpr hk
  obtain ⟨o, ho, hstream⟩ := List.mem_filterMap.mp this
  cases o with
  | reported r t stream error alive =>
    obtain rfl : stream = some k := hstream
    exact ⟨r, t, error, alive, ho⟩
  | _ => cases hstream

/-- A query is reported, or its promotion is still a task on the loop of its instance. -/
theorem reported_or_task (h : m.Ledger) (hsane : m.Sane)
    (ho : .accepted i operation r t ∈ m.history) :
    (∃ stream error alive, .reported r t stream error alive ∈ m.history) ∨
      ∃ key c o response p, m.state.engine.job? i key = some (.promote c o response .fresh p) ∧
        operation = .memory c o ∧ p.result = r ∧ p.cookie.ticket = t := by
  have hmem : (r, t) ∈ m.history.filterMap Observation.query? := List.mem_filterMap.mpr ⟨_, ho, rfl⟩
  rcases List.mem_append.mp (h.promotions.mem_iff.mpr hmem) with hmem | hmem
  · obtain ⟨l, key, task, htask, hpromotion⟩ := Engine.State.mem_collect.mp hmem
    have hdue := hsane.orderly.due l key task htask
    obtain ⟨u, hu, rfl⟩ := Option.map_eq_some_iff.mp htask
    cases u with
    | promote c o response timer p =>
      obtain ⟨rfl, rfl⟩ := Prod.mk.inj (Option.some.inj hpromotion)
      obtain ⟨rfl, rfl, -⟩ := h.accepted_unique hdue.1 ho
      exact Or.inr ⟨key, c, o, response, p, htask, rfl, rfl, rfl⟩
    | pull | close | park => cases hpromotion
  · obtain ⟨o, hreported, hreport⟩ := List.mem_filterMap.mp hmem
    cases o with
    | reported r' t' stream error alive =>
      obtain ⟨rfl, rfl⟩ := Prod.mk.inj (Option.some.inj hreport)
      exact Or.inl ⟨stream, error, alive, hreported⟩
    | _ => cases hreport

/-- A promotion that is still a task was not reported. -/
theorem not_reported (h : m.Ledger) (hsane : m.Sane) {l key c o : Nat}
    {response : Engine.Response} {timer : Engine.Timer} {p : Promotion}
    (htask : m.state.engine.job? l key = some (.promote c o response timer p)) :
    .reported p.result t stream error alive ∉ m.history := by
  intro ho
  obtain ⟨i, operation, haccepted, -⟩ := hsane.accounted.recorded _ ho
  obtain ⟨-, -, rfl⟩ := h.accepted_unique haccepted (hsane.orderly.due l key _ htask).1
  have hdisjoint := (List.nodup_append.mp (h.promotions.nodup_iff.mpr h.nodup_queries)).2.2
  exact hdisjoint (p.result, p.cookie.ticket) (Engine.State.mem_collect.mpr ⟨l, key, _, htask, rfl⟩)
    _ (List.mem_filterMap.mpr ⟨_, ho, rfl⟩) rfl

/-- A pull is answered, or it is still a task on the loop of its stream. -/
theorem answered_or_task (h : m.Ledger) (hsane : m.Sane) {k : Nat}
    (ho : .asked r t (some k) ∈ m.history) :
    (∃ row, .answered t row ∈ m.history) ∨
      ∃ key cookie x, m.state.engine.stream? k = some x ∧
        m.state.engine.job? x.loop key = some (.pull k cookie) ∧ cookie.ticket = t := by
  have hmem : t ∈ m.history.filterMap Observation.pull? := List.mem_filterMap.mpr ⟨_, ho, rfl⟩
  rcases List.mem_append.mp (h.pulls.mem_iff.mpr hmem) with hmem | hmem
  · obtain ⟨l, key, task, htask, hpull⟩ := Engine.State.mem_collect.mp hmem
    have hdue := hsane.orderly.due l key task htask
    cases task with
    | pull k' cookie =>
      obtain rfl : cookie.ticket = t := Option.some.inj hpull
      obtain ⟨⟨r', hasked⟩, ⟨x, hx, rfl⟩, -⟩ := hdue
      have := h.ticket_unique hasked ho rfl rfl
      simp only [Observation.asked.injEq, Option.some.injEq, true_and] at this
      obtain ⟨-, rfl⟩ := this
      exact Or.inr ⟨key, cookie, x, hx, htask, rfl⟩
    | promote | close | park => cases hpull
  · obtain ⟨o, hanswered, hanswer⟩ := List.mem_filterMap.mp hmem
    cases o with
    | answered t' row =>
      obtain rfl := Option.some.inj hanswer
      exact Or.inl ⟨row, hanswered⟩
    | _ => cases hanswer

end Entries

end Ledger

/-! ## What a move adds to the history -/

/-- A move may observe this next. -/
def News (m : Moment) : Observation → Prop
  | .pushed c _ => c < m.state.engine.connectors.length
  | .accepted i operation r t =>
    t = m.state.host.issued ∧ r = m.state.results.length ∧
      ∃ (x : Instance) (c : Nat), m.state.instances[i]? = some x ∧ x.connector = .memory c ∧
        operation = .memory c (m.state.engine.connector c).operations.length
  | .refused t => t = m.state.host.issued
  | .asked r t stream =>
    t = m.state.host.issued ∧ stream = (m.state.target? r).bind Target.stream?
  | .cancelled r target => ∃ e, m.call = .cancelling e r target
  | .reported r t stream error _ =>
    ∃ l key keys c o response p engine, (m.state.engine.loop l).ready = key :: keys ∧
      m.state.engine.job? l key = some (.promote c o response .fresh p) ∧ p.result = r ∧
        p.cookie.ticket = t ∧ m.state.engine.Settled l key c response stream error engine
  | .checked t cancelled =>
    ∃ l key task cookie, (m.state.engine.loop l).tasks.get? key = some task ∧
      cookie? task = some cookie ∧ cookie.ticket = t ∧ m.state.engine.Checks task cancelled
  | .answered t row =>
    (∃ l key keys k cookie, (m.state.engine.loop l).ready = key :: keys ∧
      m.state.engine.job? l key = some (.pull k cookie) ∧ cookie.ticket = t ∧
      (m.state.engine.worker l).found = some (.row row)) ∨
    t = m.state.host.issued ∧ row = .failed .clusterClosed

/-- The history grows by nothing, by one thing, or by a pull that a stopped loop answers on the spot,
and all of that is news. -/
def Observes (m m' : Moment) : Prop :=
  ∃ os, m'.history = m.history ++ os ∧ (∀ o ∈ os, m.News o) ∧
    (os.length ≤ 1 ∨ ∃ r t k row, os = [.asked r t (some k), .answered t row])

theorem Observes.nothing (h : m'.history = m.history) : m.Observes m' :=
  ⟨[], by simpa using h, by simp, Or.inl (by simp)⟩

theorem Observes.one {o : Observation} (h : m'.history = m.history ++ [o]) (hnews : m.News o) :
    m.Observes m' :=
  ⟨[o], h, by simpa using hnews, Or.inl (by simp)⟩

theorem Step.news (h : m.Step m') : m.Observes m' := by
  cases h with
  | note | grasp | attach | letGo | connector | create | close | tell | drop | look | sleep | draw
  | elapse | shut | stray | reap => exact .nothing rfl
  | respond hc => exact .one rfl hc
  | refuse => exact .one rfl rfl
  | accept hx _ hc _ => exact .one rfl ⟨rfl, rfl, _, _, hx, hc, rfl⟩
  | askEarly htarget => exact .one rfl ⟨rfl, htarget.symm⟩
  | ask htarget => exact .one rfl ⟨rfl, by rw [htarget]; rfl⟩
  | @askLate r k x name e htarget hx hstop =>
    refine ⟨_, rfl, fun o ho => ?_, Or.inr ⟨_, _, _, _, rfl⟩⟩
    rcases List.mem_cons.mp ho with rfl | ho
    · exact ⟨rfl, by rw [htarget]; rfl⟩
    · obtain rfl := List.mem_singleton.mp ho
      exact Or.inr ⟨rfl, rfl⟩
  | strikeOperation hcall | strikeStream hcall => exact .one rfl ⟨_, hcall⟩
  | report hready htask hsettled _ | reportLost hready htask hsettled _ =>
    exact .one rfl ⟨_, _, _, _, _, _, _, _, hready, htask, rfl, rfl, hsettled⟩
  | check _ htask hchecks _ hcookie =>
    exact .one rfl ⟨_, _, _, _, htask, hcookie, rfl, hchecks⟩
  | answer hready htask hfound =>
    exact .one rfl (Or.inl ⟨_, _, _, _, _, hready, htask, rfl, hfound⟩)

/-- What is observed is old or news. -/
theorem Step.mem_history (h : m.Step m') {o : Observation} (ho : o ∈ m'.history) :
    o ∈ m.history ∨ m.News o := by
  obtain ⟨os, heq, hnews, -⟩ := h.news
  rw [heq] at ho
  exact (List.mem_append.mp ho).imp_right (hnews o)

/-- Two observations in order: both are old, or the later one is news, or both are those of a pull
from a stopped loop. -/
theorem Step.before (h : m.Step m') {a b : Observation} (hab : [a, b].Sublist m'.history) :
    [a, b].Sublist m.history ∨ a ∈ m.history ∧ m.News b ∨ ∃ r t k, a = .asked r t (some k) := by
  obtain ⟨os, heq, hnews, hos⟩ := h.news
  rw [heq] at hab
  obtain ⟨xs, ys, hxy, hxs, hys⟩ := List.sublist_append_iff.mp hab
  match xs, hxy, hxs with
  | [], hxy, _ =>
    obtain rfl : [a, b] = ys := by simpa using hxy
    rcases hos with hlength | ⟨r, t, k, row, rfl⟩
    · exact absurd (Nat.le_trans hys.length_le hlength) (by simp)
    · have := hys.eq_of_length_le (by simp)
      exact Or.inr (Or.inr ⟨r, t, k, (List.cons.inj this).1⟩)
  | [x], hxy, hxs =>
    obtain ⟨rfl, rfl⟩ : a = x ∧ [b] = ys := by simpa using hxy
    exact Or.inr (Or.inl ⟨by simpa using hxs, hnews b (by simpa using hys)⟩)
  | [x, y], hxy, hxs =>
    obtain ⟨rfl, rfl, -⟩ : a = x ∧ b = y ∧ [] = ys := by simpa using hxy
    exact Or.inl hxs
  | x :: y :: z :: xs, hxy, _ => simp at hxy

end Moment

open Moment

theorem ledger_run (events : List Event) : (run events).Ledger :=
  run_induction Ledger.start (fun _ _ hsane hstep h => h.step hsane hstep) events

/-- What holds at the start and is kept by moves between moments whose books are in order holds at
the end of every run. -/
theorem ledger_induction {P : Moment → Prop} (hstart : P {})
    (hstep : ∀ m m', m.Sane → m.Ledger → m.Step m' → P m → P m') (events : List Event) :
    P (run events) := by
  have h : (run events).Ledger ∧ P (run events) := by
    refine run_induction (P := fun m => m.Ledger ∧ P m) ⟨Ledger.start, hstart⟩ ?_ events
    intro m m' hsane hmove h
    exact ⟨h.1.step hsane hmove, hstep m m' hsane h.1 hmove h.2⟩
  exact h.2

end HostBridge.Session
