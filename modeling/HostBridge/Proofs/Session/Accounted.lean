import HostBridge.Proofs.Session.Orderly

/-!
# The history tells the truth

What the history says still holds: the instance of an accepted query is there, a stream that was
reported runs on the loop of its query, what was struck is cancelled. And everything that a result
or the host thread refers to comes from the history: an operation was accepted for that very result,
a stream was reported to it.
-/

namespace HostBridge.Session.Moment

open Bridge (Cookie Entry Host Message)

variable {m m' : Moment} {r : Nat} {target : Target}

/-- The history says where a result has its target from. -/
def Known (m : Moment) (r : Nat) : Target → Prop
  | .empty => True
  | .pending operation => ∃ i t, .accepted i operation r t ∈ m.history
  | .active i => ∃ t error alive, .reported r t (some i) error alive ∈ m.history

/-- The target is cancelled. -/
def Struck (m : Moment) : Target → Prop
  | .empty | .pending (.manual ..) => False
  | .pending (.memory c o) => m.state.engine.isCancelled c o = true
  | .active i => ∃ x, m.state.engine.stream? i = some x ∧ x.cancelled = true

/-- What an observation says holds. -/
def Recorded (m : Moment) : Observation → Prop
  | .pushed _ _ => True
  | .accepted i operation r t =>
    (∃ c o x, operation = .memory c o ∧ m.state.instances[i]? = some x ∧ x.connector = .memory c ∧
      o < (m.state.engine.connector c).operations.length) ∧
      r < m.state.results.length ∧ t < m.callbacks.length
  | .refused t => t < m.callbacks.length
  | .asked r t stream =>
    t < m.callbacks.length ∧ ∀ i, stream = some i → m.Known r (.active i)
  | .cancelled r target => m.Known r target ∧ m.Struck target
  | .reported r t stream _ _ =>
    ∃ i operation, .accepted i operation r t ∈ m.history ∧
      ∀ k, stream = some k → ∃ x, m.state.engine.stream? k = some x ∧ x.loop = i
  | .checked t _ | .answered t _ => t < m.callbacks.length

theorem Known.mono (h : m.Known r target) (hlater : Later m m') : m'.Known r target := by
  cases target with
  | empty => trivial
  | pending operation =>
    obtain ⟨i, t, ho⟩ := h
    exact ⟨i, t, hlater.history.subset ho⟩
  | active i =>
    obtain ⟨t, error, alive, ho⟩ := h
    exact ⟨t, error, alive, hlater.history.subset ho⟩

theorem Struck.mono (h : m.Struck target) (hlater : Later m m') : m'.Struck target := by
  cases target with
  | empty => exact h
  | pending operation =>
    cases operation with
    | memory c o => exact hlater.engine.cancelled c o h
    | manual c o => exact h
  | active i =>
    obtain ⟨x, hx, hcancelled⟩ := h
    obtain ⟨x', hx', -, hcancelled'⟩ := hlater.engine.streams i x hx
    exact ⟨x', hx', hcancelled' hcancelled⟩

/-- What an observation says goes on to hold. -/
theorem Recorded.mono {o : Observation} (h : m.Recorded o) (hlater : Later m m') :
    m'.Recorded o := by
  have hcallbacks := hlater.callbacks.length_le
  cases o with
  | pushed c response => trivial
  | accepted i operation r t =>
    obtain ⟨⟨c, o, x, rfl, hx, hc, ho⟩, hr, ht⟩ := h
    obtain ⟨x', hx', hc', -⟩ := hlater.instances i x hx
    exact ⟨⟨c, o, x', rfl, hx', hc'.trans hc, Nat.lt_of_lt_of_le ho (hlater.engine.operations c)⟩,
      Nat.lt_of_lt_of_le hr hlater.results, Nat.lt_of_lt_of_le ht hcallbacks⟩
  | refused t => exact Nat.lt_of_lt_of_le h hcallbacks
  | asked r t stream =>
    exact ⟨Nat.lt_of_lt_of_le h.1 hcallbacks, fun i hi => (h.2 i hi).mono hlater⟩
  | cancelled r target => exact ⟨h.1.mono hlater, h.2.mono hlater⟩
  | reported r t stream error alive =>
    obtain ⟨i, operation, ho, hstream⟩ := h
    refine ⟨i, operation, hlater.history.subset ho, fun k hk => ?_⟩
    obtain ⟨x, hx, hl⟩ := hstream k hk
    obtain ⟨x', hx', hl', -⟩ := hlater.engine.streams k x hx
    exact ⟨x', hx', hl'.trans hl⟩
  | checked t _ | answered t _ => exact Nat.lt_of_lt_of_le h hcallbacks

/-- The history holds, and everything that is referred to comes from it. -/
structure Accounted (m : Moment) : Prop where
  /-- What the history says holds. -/
  recorded : ∀ o ∈ m.history, m.Recorded o
  /-- Results have their targets from the history. -/
  known : ∀ (r : Nat) (q : QueryResult), m.state.results[r]? = some q → m.Known r q.target
  /-- An operation that is still to be attached was accepted. -/
  attaching : ∀ e r operation, m.call = .attaching e r operation → m.Known r (.pending operation)
  /-- A cancellation has found something. -/
  cancelling : ∀ e r target, m.call = .cancelling e r target →
    target ≠ .empty ∧ m.Known r target

namespace Accounted

variable {os : List Observation}

/-- A move that adds to the history. -/
theorem extend (h : m.Accounted) (hlater : Later m m') (hhistory : m'.history = m.history ++ os)
    (hos : ∀ o ∈ os, m'.Recorded o)
    (hresults : ∀ (r : Nat) (q : QueryResult), m'.state.results[r]? = some q →
      (∃ q', m.state.results[r]? = some q' ∧ q'.target = q.target) ∨ m'.Known r q.target)
    (hattaching : ∀ e r operation, m'.call = .attaching e r operation →
      m.call = .attaching e r operation ∨ m'.Known r (.pending operation))
    (hcancelling : ∀ e r target, m'.call = .cancelling e r target →
      m.call = .cancelling e r target ∨ target ≠ .empty ∧ m'.Known r target) : m'.Accounted where
  recorded o ho := by
    rw [hhistory] at ho
    rcases List.mem_append.mp ho with ho | ho
    · exact (h.recorded o ho).mono hlater
    · exact hos o ho
  known r q hq := by
    rcases hresults r q hq with ⟨q', hq', htarget⟩ | hknown
    · exact htarget ▸ (h.known r q' hq').mono hlater
    · exact hknown
  attaching e r operation he := by
    rcases hattaching e r operation he with he | hknown
    · exact (h.attaching e r operation he).mono hlater
    · exact hknown
  cancelling e r target he := by
    rcases hcancelling e r target he with he | hknown
    · exact ⟨(h.cancelling e r target he).1, (h.cancelling e r target he).2.mono hlater⟩
    · exact hknown

/-- A move that leaves the host thread alone, or ends its call. -/
theorem keep (h : m.Accounted) (hlater : Later m m') (hhistory : m'.history = m.history ++ os)
    (hos : ∀ o ∈ os, m'.Recorded o)
    (hresults : ∀ (r : Nat) (q : QueryResult), m'.state.results[r]? = some q →
      (∃ q', m.state.results[r]? = some q' ∧ q'.target = q.target) ∨ m'.Known r q.target)
    (hcall : m'.call = m.call ∨ m'.call = .idle) : m'.Accounted := by
  refine h.extend hlater hhistory hos hresults (fun e r operation he => Or.inl ?_)
    fun e r target he => Or.inl ?_
  · rcases hcall with hcall | hcall
    · exact hcall ▸ he
    · rw [hcall] at he
      cases he
  · rcases hcall with hcall | hcall
    · exact hcall ▸ he
    · rw [hcall] at he
      cases he

theorem same_results (hresults : m'.state.results = m.state.results) (r : Nat) (q : QueryResult)
    (hq : m'.state.results[r]? = some q) :
    (∃ q', m.state.results[r]? = some q' ∧ q'.target = q.target) ∨ m'.Known r q.target :=
  Or.inl ⟨q, hresults ▸ hq, rfl⟩

/-- A result that is added has no target yet. -/
theorem added_results {alive : Bool}
    (hresults : m'.state.results = m.state.results ++ [{ alive := alive }]) (r : Nat)
    (q : QueryResult) (hq : m'.state.results[r]? = some q) :
    (∃ q', m.state.results[r]? = some q' ∧ q'.target = q.target) ∨ m'.Known r q.target := by
  rw [hresults, List.getElem?_append] at hq
  split at hq
  · exact Or.inl ⟨q, hq, rfl⟩
  · rw [List.getElem?_singleton] at hq
    split at hq
    · obtain rfl := Option.some.inj hq
      exact Or.inr trivial
    · cases hq

/-- One result changes. -/
theorem modified_results {k : Nat} {f : QueryResult → QueryResult}
    (hresults : m'.state.results = m.state.results.modify k f)
    (hf : ∀ q, m.state.results[k]? = some q → (f q).target = q.target ∨ m'.Known k (f q).target)
    (r : Nat) (q : QueryResult) (hq : m'.state.results[r]? = some q) :
    (∃ q', m.state.results[r]? = some q' ∧ q'.target = q.target) ∨ m'.Known r q.target := by
  rw [hresults, List.getElem?_modify] at hq
  by_cases hk : k = r
  · subst hk
    obtain ⟨q', hq', rfl⟩ := Option.map_eq_some_iff.mp (by simpa using hq)
    rcases hf q' hq' with htarget | hknown
    · exact Or.inl ⟨q', hq', htarget.symm⟩
    · exact Or.inr hknown
  · exact Or.inl ⟨q, by simpa [hk] using hq, rfl⟩

/-- What a result that is still held refers to comes from the history. -/
theorem known_of_target (h : m.Accounted) (htarget : m.state.target? r = some target) :
    m.Known r target := by
  unfold State.target? at htarget
  split at htarget
  · next q hq =>
    split at htarget
    · obtain rfl := Option.some.inj htarget
      exact h.known r q hq
    · cases htarget
  · cases htarget

/-- The stream of a result runs on a loop that is there. -/
theorem anchored (h : m.Accounted) (horderly : m.Orderly) {i : Nat} {x : Engine.Stream}
    (htarget : m.state.target? r = some (.active i)) (hx : m.state.engine.stream? i = some x) :
    x.loop < m.state.engine.workers.length := by
  obtain ⟨t, error, alive, ho⟩ := h.known_of_target htarget
  obtain ⟨j, operation, haccepted, hstream⟩ := h.recorded _ ho
  obtain ⟨x', hx', hl⟩ := hstream i rfl
  obtain rfl := Option.some.inj (hx.symm.trans hx')
  obtain ⟨⟨c, o, y, -, hy, -⟩, -⟩ := h.recorded _ haccepted
  rw [hl, horderly.workers]
  exact (List.getElem?_eq_some_iff.mp hy).1

/-- A promotion that is reported was accepted on the loop that ran it. -/
theorem recorded_reported {l key c o : Nat} {response : Engine.Response} {p : Promotion}
    {stream : Option Nat} {error : Option EngineError} {alive : Bool} (horderly : m.Orderly)
    (hlater : Later m m') (htask : m.state.engine.job? l key = some (.promote c o response .fresh p))
    (hsettled : m.state.engine.Settled l key c response stream error m'.state.engine) :
    m'.Recorded (.reported p.result p.cookie.ticket stream error alive) := by
  obtain ⟨haccepted, -⟩ := horderly.due l key _ htask
  refine ⟨l, .memory c o, hlater.history.subset haccepted, fun k hk => ?_⟩
  subst hk
  obtain ⟨rfl, -, -, hstreams⟩ := hsettled.stream
  exact ⟨.ofRows l response.rows response.metadata, by simp [Engine.State.stream?, hstreams], rfl⟩

/-- The history goes on to tell the truth. -/
theorem step (h : m.Accounted) (horderly : m.Orderly)
    (hissued : m.callbacks.length = m.state.host.issued) (hstep : m.Step m') : m'.Accounted := by
  have hlater := hstep.later
  have hfresh : ∀ callback : Callback,
      m.state.host.issued < (m.callbacks ++ [callback]).length := by
    intro callback
    rw [← hissued]
    simp
  have hnothing : ∀ o ∈ ([] : List Observation), m'.Recorded o := by simp
  cases hstep with
  | note | connector | create | tell | drop | look | sleep | draw | elapse | shut | stray | reap
  | close =>
    exact h.keep hlater (List.append_nil _).symm hnothing (same_results rfl) (Or.inl rfl)
  | @grasp e r target htarget =>
    obtain ⟨htarget', hne⟩ := Option.filter_eq_some_iff.mp htarget
    refine h.extend hlater (List.append_nil _).symm hnothing (same_results rfl) ?_ ?_
    · intro e' r' operation he
      cases he
    · intro e' r' target' he
      cases he
      exact Or.inr ⟨by simpa using hne, (h.known_of_target htarget').mono hlater⟩
  | @attach e r operation hcall =>
    refine h.keep hlater (List.append_nil _).symm hnothing (modified_results rfl fun q hq => ?_)
      (Or.inr rfl)
    have hpending := (h.attaching e r operation hcall).mono hlater
    cases ht : q.target with
    | empty | pending => exact Or.inr (by simpa only [Target.setOperation] using hpending)
    | active i => exact Or.inl (by simp only [Target.setOperation])
  | letGo r =>
    exact h.keep hlater (List.append_nil _).symm hnothing
      (modified_results rfl fun q _ => Or.inl rfl) (Or.inl rfl)
  | respond hc => exact h.keep hlater rfl (by simp [Recorded]) (same_results rfl) (Or.inl rfl)
  | refuse name hides =>
    refine h.keep hlater rfl ?_ (added_results rfl) (Or.inl rfl)
    simpa [Recorded] using hfresh (.promotion name hides)
  | @accept e i c x request name hides response responses hx hrunning hc hresponses =>
    refine h.extend hlater rfl ?_ (added_results rfl) ?_ ?_
    · intro o ho
      obtain rfl := List.mem_singleton.mp ho
      have hconnector := Engine.State.connector_accepting
        (Engine.State.lt_connectors_of_responses hresponses) request responses c
      rw [if_pos rfl] at hconnector
      refine ⟨⟨c, _, x, rfl, hx, hc, ?_⟩, by simp, hfresh _⟩
      show _ < ((m.state.engine.accepting c request responses).connector c).operations.length
      rw [hconnector]
      simp
    · intro e' r' operation he
      cases he
      exact Or.inr ⟨i, m.state.host.issued, by simp⟩
    · intro e' r' target he
      cases he
  | @askEarly r name e htarget =>
    refine h.keep hlater rfl ?_ (same_results rfl) (Or.inl rfl)
    simpa [Recorded] using hfresh (.row name e)
  | @ask r i x name e htarget hx hstop =>
    refine h.keep hlater rfl ?_ (same_results rfl) (Or.inl rfl)
    intro o ho
    obtain rfl := List.mem_singleton.mp ho
    refine ⟨hfresh _, fun k hk => ?_⟩
    obtain rfl := Option.some.inj hk
    exact (h.known_of_target htarget).mono hlater
  | @askLate r i x name e htarget hx hstop =>
    refine h.keep hlater rfl ?_ (same_results rfl) (Or.inl rfl)
    intro o ho
    rcases List.mem_cons.mp ho with rfl | ho
    · refine ⟨hfresh _, fun k hk => ?_⟩
      obtain rfl := Option.some.inj hk
      exact (h.known_of_target htarget).mono hlater
    · obtain rfl := List.mem_singleton.mp ho
      exact hfresh (.row name e)
  | @strikeOperation e r c o hcall =>
    refine h.keep hlater rfl ?_ (same_results rfl) (Or.inr rfl)
    intro o' ho'
    obtain rfl := List.mem_singleton.mp ho'
    obtain ⟨-, hknown⟩ := h.cancelling e r _ hcall
    refine ⟨hknown.mono hlater, ?_⟩
    obtain ⟨i, t, haccepted⟩ := hknown
    obtain ⟨⟨c', o', x, hoperation, -, -, ho⟩, -⟩ := h.recorded _ haccepted
    cases hoperation
    exact Engine.State.isCancelled_cancelOperation ho
  | @strikeStream e r i hcall =>
    refine h.keep hlater rfl ?_ (same_results rfl) (Or.inr rfl)
    intro o' ho'
    obtain rfl := List.mem_singleton.mp ho'
    obtain ⟨-, hknown⟩ := h.cancelling e r _ hcall
    refine ⟨hknown.mono hlater, ?_⟩
    obtain ⟨t, error, alive, hreported⟩ := hknown
    obtain ⟨j, operation, -, hstream⟩ := h.recorded _ hreported
    obtain ⟨x, hx, -⟩ := hstream i rfl
    have hx' : m.state.engine.streams[i]? = some x := hx
    refine ⟨x.cancel, ?_, rfl⟩
    simp [Engine.State.cancelStream, Engine.State.modifyStream, Engine.State.stream?, hx']
  | @report l key c o keys response p stream error engine target hready htask hsettled htarget =>
    refine h.keep hlater rfl ?_ (modified_results rfl fun q hq => ?_) (Or.inl rfl)
    · intro o' ho'
      obtain rfl := List.mem_singleton.mp ho'
      exact recorded_reported horderly hlater htask hsettled
    · cases stream with
      | none => exact Or.inl rfl
      | some k => exact Or.inr ⟨p.cookie.ticket, error, true, by simp⟩
  | reportLost hready htask hsettled htarget =>
    refine h.keep hlater rfl ?_ (same_results rfl) (Or.inl rfl)
    intro o' ho'
    obtain rfl := List.mem_singleton.mp ho'
    exact recorded_reported horderly hlater htask hsettled
  | check hready htask _ _ hcookie =>
    have hjob := congrArg (Option.map Engine.Task.untimed) htask
    refine h.keep hlater rfl ?_ (same_results rfl) (Or.inl rfl)
    intro o ho
    obtain rfl := List.mem_singleton.mp ho
    exact (horderly.due _ _ _ hjob).ticket_lt ((cookie?_untimed _).trans hcookie)
  | answer hready htask =>
    refine h.keep hlater rfl ?_ (same_results rfl) (Or.inl rfl)
    intro o ho
    obtain rfl := List.mem_singleton.mp ho
    exact (horderly.due _ _ _ htask).ticket_lt rfl

end Accounted

end HostBridge.Session.Moment
