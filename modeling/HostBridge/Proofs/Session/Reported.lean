import HostBridge.Engine.Bench
import HostBridge.Proofs.Session.Employed

/-!
# What a report leaves in its result

A query result hears from two sides: from the host, which attaches the operation of the query, and
from the loop, which reports the promotion. A report with a stream takes the place of the operation,
whichever of the two comes first. A report without a stream does not touch the result, so that the
operation stays where it is, or gets there afterwards. The query has come to its end then, but a
cancellation still finds the operation, cancels it and is successful, and an executor is marked as
cancelled.
-/

namespace HostBridge.Session

/-- How a query result can go on: the host does not pick it up again, it does not become empty, and
a stream stays. -/
structure QueryResult.GoesOn (q q' : QueryResult) : Prop where
  /-- The host does not pick up what it has let go. -/
  alive : q'.alive = true → q.alive = true
  /-- What refers to something does not become empty. -/
  filled : q'.target = .empty → q.target = .empty
  /-- A stream stays. -/
  stream : ∀ k, q.target = .active k → q'.target = .active k

namespace QueryResult.GoesOn

variable {q q' q'' : QueryResult}

theorem refl (q : QueryResult) : q.GoesOn q :=
  ⟨id, id, fun _ => id⟩

theorem trans (h : q.GoesOn q') (h' : q'.GoesOn q'') : q.GoesOn q'' :=
  ⟨h.alive ∘ h'.alive, h.filled ∘ h'.filled, fun k hk => h'.stream k (h.stream k hk)⟩

theorem setOperation (q : QueryResult) (operation : Operation) :
    q.GoesOn { q with target := q.target.setOperation operation } := by
  obtain ⟨target, alive⟩ := q
  cases target with
  | empty => exact ⟨id, fun _ => rfl, fun _ h => by cases h⟩
  | pending => exact ⟨id, fun h => by simp [Target.setOperation] at h, fun _ h => by cases h⟩
  | active => exact ⟨id, id, fun _ => id⟩

end QueryResult.GoesOn

namespace State

variable {s : State} {r : Nat}

theorem target?_eq_some {target : Target} : s.target? r = some target ↔
    ∃ q : QueryResult, s.results[r]? = some q ∧ q.alive = true ∧ q.target = target := by
  unfold target?
  cases s.results[r]? with
  | none => simp
  | some q => cases h : q.alive <;> simp [h]

/-! ## Cancellations -/

section Cancel

variable {target : Target} (htarget : s.target? r = some target) (hfilled : target ≠ .empty)
include htarget hfilled

theorem grasp_eq_some : s.grasp r = some target := by
  simp [grasp, htarget, hfilled]

theorem cancel_eq : s.cancel r = (true, s.strike target) := by
  rw [cancel, grasp_eq_some htarget hfilled]

/-- An executor that was not cancelled and is not complete cancels what its result refers to. -/
theorem executorAbort_eq {e : Nat} {x : Executor} (hx : s.executors[e]? = some x)
    (hresult : x.result = some r) (habort : x.canAbort = true) :
    s.executorAbort e = (true, s.executorStrike e target) := by
  have hgrasp : s.executorGrasp e = some target := by
    simp [executorGrasp, hx, habort, hresult, grasp_eq_some htarget hfilled]
  rw [executorAbort, hgrasp]

end Cancel

theorem executors_executorStrike {e : Nat} {x : Executor} (hx : s.executors[e]? = some x)
    (target : Target) :
    (s.executorStrike e target).executors[e]? = some { x with state := .cancelled } := by
  rw [executorStrike, modifyExecutor, Moment.strike_executors]
  simp [hx]

end State

namespace Moment

variable {m m' : Moment} {i r t : Nat} {operation : Operation}

/-! ## Results go on -/

/-- One result changes, and goes on. -/
theorem exists_goesOn_modify {results : List QueryResult} {k : Nat}
    {f : QueryResult → QueryResult} (hf : ∀ q, results[k]? = some q → q.GoesOn (f q))
    {q : QueryResult} (hq : results[r]? = some q) :
    ∃ q', (results.modify k f)[r]? = some q' ∧ q.GoesOn q' := by
  rw [List.getElem?_modify, hq]
  by_cases hk : k = r
  · subst hk
    exact ⟨f q, by simp, hf q hq⟩
  · exact ⟨q, by simp [hk], .refl q⟩

theorem exists_goesOn_append {results : List QueryResult} {q : QueryResult}
    (hq : results[r]? = some q) (added : List QueryResult) :
    ∃ q', (results ++ added)[r]? = some q' ∧ q.GoesOn q' :=
  ⟨q, List.getElem?_append_left (List.getElem?_eq_some_iff.mp hq).1 ▸ hq, .refl q⟩

/-- A result with a stream is not reported to. -/
theorem Ledger.ne_active_of_task (h : m.Ledger) (hsane : m.Sane) {l key c o : Nat}
    {response : Engine.Response} {timer : Engine.Timer} {p : Promotion}
    (htask : m.state.engine.job? l key = some (.promote c o response timer p)) {q : QueryResult}
    (hq : m.state.results[p.result]? = some q) (k : Nat) : q.target ≠ .active k := by
  intro htarget
  obtain ⟨t, error, alive, hreported⟩ : m.Known p.result (.active k) :=
    htarget ▸ hsane.accounted.known _ q hq
  exact h.not_reported hsane htask hreported

theorem Step.goesOn (hstep : m.Step m') (hsane : m.Sane) (hledger : m.Ledger) {q : QueryResult}
    (hq : m.state.results[r]? = some q) : ∃ q', m'.state.results[r]? = some q' ∧ q.GoesOn q' := by
  cases hstep with
  | attach hcall => exact exists_goesOn_modify (fun q _ => .setOperation q _) hq
  | letGo k =>
    refine exists_goesOn_modify (fun q _ => ?_) hq
    exact ⟨(nomatch ·), id, fun _ => id⟩
  | refuse | accept => exact exists_goesOn_append hq _
  | @report l key c o keys response p stream error engine target hready htask hsettled htarget =>
    -- The promotion is still a task, so there is no stream yet that it could replace.
    refine exists_goesOn_modify (fun q hq => ?_) hq
    refine ⟨id, fun h => ?_, fun k hk => ?_⟩
    · cases stream with
      | none => exact h
      | some k => cases h
    · exact absurd hk (hledger.ne_active_of_task hsane htask hq k)
  | _ => exact ⟨q, hq, .refl q⟩

theorem Ledger.goesOn (hledger : m.Ledger) (hsane : m.Sane) (event : Event) {q : QueryResult}
    (hq : m.state.results[r]? = some q) :
    ∃ q', (m.perform event).state.results[r]? = some q' ∧ q.GoesOn q' := by
  have h := hsane.steps_induction
    (P := fun m' => m'.Ledger ∧ ∃ q', m'.state.results[r]? = some q' ∧ q.GoesOn q') ?_
    (steps_perform hsane.footing event) ⟨hledger, q, hq, .refl q⟩
  · exact h.2.2
  · rintro m₁ m₂ hsane₁ hstep ⟨hledger₁, q₁, hq₁, hgoes₁⟩
    obtain ⟨q₂, hq₂, hgoes₂⟩ := hstep.goesOn hsane₁ hledger₁ hq₁
    exact ⟨hledger₁.step hsane₁ hstep, q₂, hq₂, hgoes₁.trans hgoes₂⟩

/-! ## Reports with a stream -/

/-- A result that is still held refers to the stream that was reported to it. -/
def Streamed (m : Moment) : Prop :=
  ∀ r t k error alive, .reported r t (some k) error alive ∈ m.history →
    ∀ target, m.state.target? r = some target → target = .active k

/-- A new report puts its stream into its result, if that is still held. -/
theorem Step.streamed (hstep : m.Step m') {k : Nat} {error : Option EngineError} {alive : Bool}
    (hreported : .reported r t (some k) error alive ∈ m'.history) :
    .reported r t (some k) error alive ∈ m.history ∨
      ∀ target, m'.state.target? r = some target → target = .active k := by
  cases hstep with
  | report hready htask hsettled htarget =>
    rcases List.mem_append.mp hreported with hold | hnew
    · exact Or.inl hold
    · obtain ⟨rfl, -, rfl, -⟩ := Observation.reported.inj (List.mem_singleton.mp hnew)
      refine Or.inr fun target' htarget' => ?_
      obtain ⟨q', hq', -, rfl⟩ := State.target?_eq_some.mp htarget'
      obtain ⟨q, -, rfl⟩ := Option.map_eq_some_iff.mp (by simpa using hq')
      rfl
  | reportLost hready htask hsettled htarget =>
    rcases List.mem_append.mp hreported with hold | hnew
    · exact Or.inl hold
    · obtain ⟨rfl, -⟩ := Observation.reported.inj (List.mem_singleton.mp hnew)
      refine Or.inr fun target' htarget' => ?_
      cases htarget.symm.trans htarget'
  | _ => exact Or.inl (by simpa [having] using hreported)

theorem Streamed.step (h : m.Streamed) (hsane : m.Sane) (hledger : m.Ledger)
    (hstep : m.Step m') : m'.Streamed := by
  intro r t k error alive hreported target' htarget'
  rcases hstep.streamed hreported with hold | hnew
  · obtain ⟨i, operation, haccepted, -⟩ := hsane.accounted.recorded _ hold
    obtain ⟨-, hr, -⟩ := hsane.accounted.recorded _ haccepted
    obtain ⟨q', hq', halive', rfl⟩ := State.target?_eq_some.mp htarget'
    obtain ⟨q'', hq'', hgoes⟩ := hstep.goesOn hsane hledger (List.getElem?_eq_getElem hr)
    obtain rfl := Option.some.inj (hq'.symm.trans hq'')
    refine hgoes.stream k (h r t k error alive hold _ ?_)
    exact State.target?_eq_some.mpr ⟨_, List.getElem?_eq_getElem hr, hgoes.alive halive', rfl⟩
  · exact hnew target' htarget'

/-! ## Attached operations -/

/-- A query that was accepted has its operation or a stream in its result, unless the host is still
about to attach the operation. -/
def Attached (m : Moment) : Prop :=
  ∀ i operation r t, .accepted i operation r t ∈ m.history →
    ∀ q : QueryResult, m.state.results[r]? = some q → q.target = .empty →
      ∃ e, m.call = .attaching e r operation

theorem accepted_notMem_observe (s : State) (c : Option Completion) :
    .accepted i operation r t ∉ s.observe c := by
  rcases c with _ | (_ | _ | _) <;> simp [State.observe]

theorem accepted_of_next {k : Nat} {callback : Callback}
    (h : .accepted i operation r t ∈ (m.next k callback).history) :
    .accepted i operation r t ∈ m.history := by
  simpa [next, accepted_notMem_observe] using h

/-- A query that is accepted is about to be attached. -/
theorem attaching_of_submitted {executor : Option Nat} {k : Nat} {callback : Callback}
    {submitted : Except Error (Nat × Operation) × State}
    (h : .accepted i operation r t ∈ (m.submitted executor k callback submitted).history) :
    .accepted i operation r t ∈ m.history ∨
      (m.submitted executor k callback submitted).call = .attaching executor r operation := by
  obtain ⟨_ | ⟨r', operation'⟩, state⟩ := submitted
  · simp only [Moment.submitted] at h
    split at h
    · exact Or.inl h
    · exact Or.inl (by simpa using h)
  · rcases List.mem_append.mp h with hold | hnew
    · exact Or.inl hold
    · obtain ⟨-, rfl, rfl, -⟩ := Observation.accepted.inj (List.mem_singleton.mp hnew)
      exact Or.inr rfl

theorem attaching_of_act {deed : Deed} (h : .accepted i operation r t ∈ (m.act deed).history) :
    .accepted i operation r t ∈ m.history ∨
      ∃ e, (m.act deed).call = .attaching e r operation := by
  cases deed with
  | query k request name => exact (attaching_of_submitted h).imp_right fun hcall => ⟨_, hcall⟩
  | executorQuery e k request name =>
    exact (attaching_of_submitted h).imp_right fun hcall => ⟨_, hcall⟩
  | next k name => exact Or.inl (accepted_of_next h)
  | executorNext e name =>
    simp only [act] at h
    split at h
    · exact Or.inl h
    · exact Or.inl (accepted_of_next h)
  | respond c response =>
    simp only [act] at h
    split at h
    · exact Or.inl (by simpa using h)
    · exact Or.inl h
  | cancel k =>
    simp only [act] at h
    split at h <;> exact Or.inl h
  | executorAbort e =>
    simp only [act] at h
    split at h <;> exact Or.inl h
  | _ => exact Or.inl h

theorem attaching_of_perform {event : Event}
    (h : .accepted i operation r t ∈ (m.perform event).history) :
    .accepted i operation r t ∈ m.history ∨
      ∃ e, (m.perform event).call = .attaching e r operation := by
  cases event with
  | act deed =>
    cases hcall : m.call with
    | idle =>
      simp only [perform, hcall] at h ⊢
      exact attaching_of_act h
    | attaching | cancelling =>
      simp only [perform, hcall] at h
      exact Or.inl h
  | resume =>
    simp only [perform, resume] at h
    split at h
    · exact Or.inl h
    · exact Or.inl h
    · exact Or.inl h
    · exact Or.inl (by simpa using h)
    · exact Or.inl (by simpa using h)
  | turn l =>
    refine Or.inl ?_
    simp only [perform, List.append_assoc, List.mem_append, accepted_notMem_observe, or_false] at h
    refine h.resolve_right fun ho => ?_
    obtain ⟨t', cancelled, he⟩ := State.exists_of_mem_glimpse ho
    cases he
  | elapse l key =>
    simp only [perform] at h
    split at h <;> exact Or.inl h
  | reap | reapers => exact Or.inl h

/-- A call of the host is left in the middle until the host goes on with it. -/
theorem call_perform {event : Event} (hcall : m.call ≠ .idle) (hevent : event ≠ .resume) :
    (m.perform event).call = m.call := by
  cases event with
  | act deed =>
    cases hm : m.call with
    | idle => exact absurd hm hcall
    | attaching | cancelling => simp [perform, hm]
  | resume => exact absurd rfl hevent
  | elapse l key =>
    simp only [perform]
    split <;> rfl
  | turn | reap | reapers => rfl

/-- Once the operation is attached, its result is not empty. -/
theorem target_resume {e : Option Nat} (hcall : m.call = .attaching e r operation)
    {q : QueryResult} (hq : m.resume.state.results[r]? = some q) : q.target ≠ .empty := by
  have hresults : m.resume.state.results =
      m.state.results.modify r fun q => { q with target := q.target.setOperation operation } := by
    cases e with
    | none =>
      simp only [resume, hcall, State.attach, State.note_host]
      rfl
    | some e =>
      simp only [resume, hcall, State.executorAttach, State.attach, State.note_host]
      rfl
  rw [hresults] at hq
  obtain ⟨q', -, rfl⟩ := Option.map_eq_some_iff.mp (by simpa using hq)
  obtain ⟨target, alive⟩ := q'
  cases target <;> simp [Target.setOperation]

theorem Attached.event (h : m.Attached) (hsane : m.Sane) (hledger : m.Ledger) (event : Event) :
    (m.perform event).Attached := by
  intro i operation r t haccepted q' hq' hempty
  rcases attaching_of_perform haccepted with hold | hnew
  · -- An old query with an empty result was about to be attached, and still is.
    obtain ⟨-, hr, -⟩ := hsane.accounted.recorded _ hold
    obtain ⟨q'', hq'', hgoes⟩ := hledger.goesOn hsane event (List.getElem?_eq_getElem hr)
    obtain rfl := Option.some.inj (hq'.symm.trans hq'')
    obtain ⟨e, hcall⟩ := h i operation r t hold _ (List.getElem?_eq_getElem hr)
      (hgoes.filled hempty)
    have hevent : event ≠ .resume := by
      rintro rfl
      exact target_resume hcall hq' hempty
    exact ⟨e, (call_perform (by simp [hcall]) hevent).trans hcall⟩
  · exact hnew

/-- After a report without a stream, a result that is still held refers to the operation of its
query. -/
theorem pending_of_reported (hsane : m.Sane) (hledger : m.Ledger) (hattached : m.Attached)
    {error : Option EngineError} {alive : Bool} {target : Target}
    (hreported : .reported r t none error alive ∈ m.history)
    (haccepted : .accepted i operation r t ∈ m.history)
    (hcall : ∀ e, m.call ≠ .attaching e r operation)
    (htarget : m.state.target? r = some target) : target = .pending operation := by
  have hknown := hsane.accounted.known_of_target htarget
  cases target with
  | empty =>
    obtain ⟨q, hq, -, hempty⟩ := State.target?_eq_some.mp htarget
    obtain ⟨e, he⟩ := hattached i operation r t haccepted q hq hempty
    exact absurd he (hcall e)
  | pending operation' =>
    obtain ⟨i', t', haccepted'⟩ := hknown
    obtain ⟨-, rfl, -⟩ := hledger.accepted_unique haccepted haccepted'
    rfl
  | active k =>
    obtain ⟨t', error', alive', hreported'⟩ := hknown
    obtain ⟨-, hstream, -⟩ := hledger.reported_unique hsane hreported hreported'
    cases hstream

end Moment

open Moment

theorem streamed_run (events : List Event) : (run events).Streamed :=
  ledger_induction (fun r t k error alive h => by cases h)
    (fun _ _ hsane hledger hstep h => h.step hsane hledger hstep) events

theorem attached_run (events : List Event) : (run events).Attached := by
  -- By events and not by moves: a move may accept a query while the host is in the middle of a call.
  suffices h : ∀ (m : Moment), m.Sane → m.Ledger → m.Attached → (events.foldl perform m).Attached
    from h {} Sane.start Ledger.start fun _ _ _ _ h => by cases h
  induction events with
  | nil => exact fun _ _ _ h => h
  | cons event events ih =>
    intro m hsane hledger h
    exact ih _ (hsane.event event).1 (hledger.event hsane event) (h.event hsane hledger event)

/-- A query whose promotion was reported, and whose result is still held. If it was promoted to a
stream, its result refers to that stream and a cancellation leaves the operation of the query alone.
If it was not, then from the moment on at which the operation is attached, before or after the
report, the result refers to the operation: a cancellation is successful and counted by the
operation, and so is one by the executor of the query, which is marked as cancelled unless it was
before or is complete. -/
theorem operation_kept_without_stream (events : List Event) (r t : Nat) (stream : Option Nat)
    (error : Option EngineError) (alive : Bool)
    (hreported : .reported r t stream error alive ∈ (run events).history)
    (hheld : (run events).state.target? r ≠ none) :
    ∃ i c o n, .accepted i (.memory c o) r t ∈ (run events).history ∧
      ((run events).state.engine.inspect c).operationCancels[o]? = some n ∧
      (∀ k, stream = some k → (run events).state.target? r = some (.active k) ∧
        (((run events).state.cancel r).2.engine.inspect c).operationCancels[o]? = some n) ∧
      (stream = none → (∀ e, (run events).call ≠ .attaching e r (.memory c o)) →
        (run events).state.target? r = some (.pending (.memory c o)) ∧
        ((run events).state.cancel r).1 = true ∧
        (((run events).state.cancel r).2.engine.inspect c).operationCancels[o]? = some (n + 1) ∧
        ∀ (e : Nat) (x : Executor), (run events).state.executors[e]? = some x →
          x.result = some r → x.canAbort = true →
          ((run events).state.executorAbort e).1 = true ∧
          ((run events).state.executorAbort e).2.executors[e]? =
            some { x with state := .cancelled } ∧
          (((run events).state.executorAbort e).2.engine.inspect c).operationCancels[o]? =
            some (n + 1)) := by
  have hsane := sane_run events
  have hledger := ledger_run events
  obtain ⟨i, operation, haccepted, -⟩ := hsane.accounted.recorded _ hreported
  obtain ⟨⟨c, o, x, rfl, -, -, ho⟩, -⟩ := hsane.accounted.recorded _ haccepted
  obtain ⟨target, htarget⟩ := Option.ne_none_iff_exists'.mp hheld
  have hcount : ((run events).state.engine.inspect c).operationCancels[o]? =
      some ((run events).state.engine.connector c).operations[o].cancels := by
    simp [Engine.State.inspect, ho]
  refine ⟨i, c, o, _, haccepted, hcount, fun k hk => ?_, fun hnone hcall => ?_⟩
  · subst hk
    obtain rfl := streamed_run events r t k error alive hreported target htarget
    refine ⟨htarget, ?_⟩
    rw [State.cancel_eq htarget (by simp)]
    exact hcount
  · subst hnone
    obtain rfl := pending_of_reported hsane hledger (attached_run events) hreported haccepted hcall
      htarget
    have hfilled : Target.pending (.memory c o) ≠ .empty := by simp
    have hcounted := Engine.State.cancels_cancelOperation hcount
    refine ⟨htarget, ?_, ?_, fun e x hx hresult habort => ?_⟩
    · rw [State.cancel_eq htarget hfilled]
    · rw [State.cancel_eq htarget hfilled]
      exact hcounted
    · rw [State.executorAbort_eq htarget hfilled hx hresult habort]
      exact ⟨rfl, State.executors_executorStrike hx _, hcounted⟩

/-- Two queries that fail. The first is reported before its operation is attached, the second, by an
executor, afterwards. -/
def failedRun : List Event :=
  [.act .connector, .act (.respond 0 { error := some { code := .queryError, message := "bad" } }),
    .act (.respond 0 { error := some { code := .timeout, message := "late" } }),
    .act (.create 0 { connection := "mem" }), .act .executor,
    .act (.query 0 { statement := "a" } "early"), .turn 0, .turn 0, .resume,
    .act (.executorQuery 0 0 { statement := "b" } "late"), .resume, .turn 0, .turn 0]

/-- Both queries of that run can still be cancelled, the second by its executor. -/
theorem operation_kept_in_failedRun :
    ((run failedRun).state.cancel 0).1 = true ∧
      ((run failedRun).state.executorAbort 0).1 = true ∧
      ((run failedRun).state.executorAbort 0).2.executors[0]? = some ⟨some 1, .cancelled⟩ := by
  have hcall : ∀ e r operation, (run failedRun).call ≠ .attaching e r operation :=
    fun _ _ _ h => by cases h
  constructor
  · obtain ⟨i, c, o, n, -, -, -, h⟩ := operation_kept_without_stream failedRun 0 0 none _
      true (List.mem_of_getElem? (i := 4) rfl) (by decide +kernel)
    exact (h rfl fun _ => hcall _ _ _).2.1
  · obtain ⟨i, c, o, n, -, -, -, h⟩ := operation_kept_without_stream failedRun 1 1 none _
      true (List.mem_of_getElem? (i := 7) rfl) (by decide +kernel)
    obtain ⟨-, -, -, habort⟩ := h rfl fun _ => hcall _ _ _
    obtain ⟨htrue, hstate, -⟩ := habort 0 ⟨some 1, .started⟩ rfl rfl rfl
    exact ⟨htrue, hstate⟩

/-- A query that has failed is not beyond cancellation, neither that of its result nor that of its
executor. -/
theorem failure_not_final :
    (¬ ∀ (events : List Event) (r t : Nat) (error : EngineError) (alive : Bool),
      .reported r t none (some error) alive ∈ (run events).history → (run events).call = .idle →
        ((run events).state.cancel r).1 = false) ∧
    ¬ ∀ (events : List Event) (e r t : Nat) (error : EngineError) (alive : Bool),
      .reported r t none (some error) alive ∈ (run events).history → (run events).call = .idle →
        (run events).executor? e = some r → ((run events).state.executorAbort e).1 = false := by
  constructor
  · intro h
    exact absurd (h failedRun 0 0 _ true (List.mem_of_getElem? (i := 4) rfl) rfl)
      (by decide +kernel)
  · intro h
    exact absurd (h failedRun 0 1 1 _ true (List.mem_of_getElem? (i := 7) rfl) rfl rfl)
      (by decide +kernel)

end HostBridge.Session
