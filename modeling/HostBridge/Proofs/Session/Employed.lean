import HostBridge.Proofs.Session.Effect
import HostBridge.Proofs.Session.Ledger

/-!
# Executors and their queries

An executor gets its result once, and asks for rows of no other. It refuses to be cancelled when it
was cancelled before, or when its rows have come to their end. In either case there is nothing left
to cancel: the operation of its query is cancelled, or the promotion was reported. It is complete only
if the engine has answered one of its pulls with the end.
-/

namespace HostBridge.Session

namespace Moment

variable {m m' : Moment} {e r : Nat}

/-- The result of an executor, by number. -/
def executor? (m : Moment) (e : Nat) : Option Nat :=
  m.state.executors[e]?.bind Executor.result

theorem join_map_result (xs : List Executor) (k : Nat) :
    (xs.map Executor.result)[k]?.join = xs[k]?.bind Executor.result := by
  rw [List.getElem?_map]
  cases xs[k]? <;> rfl

theorem map_result_modify (xs : List Executor) (e : Nat) {f : Executor → Executor}
    (hf : ∀ x, (f x).result = x.result) :
    (xs.modify e f).map Executor.result = xs.map Executor.result := by
  refine List.ext_getElem? fun k => ?_
  rw [List.getElem?_map, List.getElem?_map, List.getElem?_modify]
  cases xs[k]? with
  | none => rfl
  | some x => by_cases hk : e = k <;> simp [hk, hf]

/-- The query of a result is cancelled, or its promotion was reported. -/
def Past (m : Moment) (r : Nat) : Prop :=
  ∃ i c o t, .accepted i (.memory c o) r t ∈ m.history ∧
    (m.state.engine.isCancelled c o = true ∨
      ∃ t' stream error alive, .reported r t' stream error alive ∈ m.history)

theorem Past.mono (h : m.Past r) (hlater : Later m m') : m'.Past r := by
  obtain ⟨i, c, o, t, haccepted, hpast⟩ := h
  refine ⟨i, c, o, t, hlater.history.subset haccepted, hpast.imp (hlater.engine.cancelled c o) ?_⟩
  rintro ⟨t', stream, error, alive, hreported⟩
  exact ⟨t', stream, error, alive, hlater.history.subset hreported⟩

theorem Recorded.past {target : Target} (h : m.Recorded (.cancelled r target))
    (hsane : m.Sane) : m.Past r := by
  obtain ⟨hknown, hstruck⟩ := h
  cases target with
  | empty => exact hstruck.elim
  | pending operation =>
    cases operation with
    | manual => exact hstruck.elim
    | memory c o =>
      obtain ⟨i, t, haccepted⟩ := hknown
      exact ⟨i, c, o, t, haccepted, Or.inl hstruck⟩
  | active k =>
    obtain ⟨t, error, alive, hreported⟩ := hknown
    obtain ⟨i, operation, haccepted, -⟩ := hsane.accounted.recorded _ hreported
    obtain ⟨⟨c, o, x, rfl, -⟩, -⟩ := hsane.accounted.recorded _ haccepted
    exact ⟨i, c, o, t, haccepted, Or.inr ⟨t, some k, error, alive, hreported⟩⟩

/-- The query of a result that has given rows is past. -/
theorem Known.past {k : Nat} (h : m.Known r (.active k)) (hsane : m.Sane) : m.Past r := by
  obtain ⟨t, error, alive, hreported⟩ := h
  obtain ⟨i, operation, haccepted, -⟩ := hsane.accounted.recorded _ hreported
  obtain ⟨⟨c, o, x, rfl, -⟩, -⟩ := hsane.accounted.recorded _ haccepted
  exact ⟨i, c, o, t, haccepted, Or.inr ⟨t, some k, error, alive, hreported⟩⟩

/-- The engine has answered a pull from the result of an executor with the end. -/
def Finished (m : Moment) (x : Executor) : Prop :=
  ∃ r t k, x.result = some r ∧ .asked r t (some k) ∈ m.history ∧ .answered t .done ∈ m.history

theorem Finished.mono {x : Executor} (h : m.Finished x) (hlater : Later m m') : m'.Finished x := by
  obtain ⟨r, t, k, hr, hasked, hanswered⟩ := h
  exact ⟨r, t, k, hr, hlater.history.subset hasked, hlater.history.subset hanswered⟩

/-- Executors have their results for good, and refuse a cancellation only when it is past. -/
structure Employed (m : Moment) : Prop where
  /-- An executor whose query is still to be attached has no result. -/
  attaching : ∀ e r operation, m.call = .attaching (some e) r operation → m.executor? e = none
  /-- A cancellation by an executor is that of its result. -/
  cancelling : ∀ e r target, m.call = .cancelling (some e) r target → m.executor? e = some r
  /-- An executor asks its result for rows. -/
  asked : ∀ r t stream name e, .asked r t stream ∈ m.history →
    m.callbacks[t]? = some (.row name (some e)) → m.executor? e = some r
  /-- An executor that refuses a cancellation has nothing to cancel. -/
  spent : ∀ (e : Nat) (x : Executor) (r : Nat), m.state.executors[e]? = some x → x.canAbort = false →
    x.result = some r → m.Past r
  /-- A complete executor was told the end of its rows. -/
  complete : ∀ (e : Nat) (x : Executor), m.state.executors[e]? = some x → x.state = .complete →
    m.Finished x

namespace Employed

theorem start : ({} : Moment).Employed where
  attaching := by simp
  cancelling := by simp
  asked := by simp
  spent := by simp
  complete := by simp

/-- An event that leaves executors their results. -/
theorem keep (h : m.Employed) (hsane : m.Sane) (hlater : Later m m')
    (hresults : ∀ e r, m.executor? e = some r → m'.executor? e = some r)
    (hattaching : ∀ e r operation, m'.call = .attaching (some e) r operation →
      m'.executor? e = none)
    (hcancelling : ∀ e r target, m'.call = .cancelling (some e) r target → m'.executor? e = some r)
    (hasked : ∀ r t stream, .asked r t stream ∈ m'.history → .asked r t stream ∈ m.history ∨
      ∀ name e, m'.callbacks[t]? = some (.row name (some e)) → m'.executor? e = some r)
    (hexecutor : ∀ (e : Nat) (x : Executor), m'.state.executors[e]? = some x →
      m.state.executors[e]? = some x ∨
        (x.canAbort = false → ∀ r, x.result = some r → m'.Past r) ∧
          (x.state = .complete → m'.Finished x)) : m'.Employed where
  attaching := hattaching
  cancelling := hcancelling
  asked r t stream name e ho hcallback := by
    rcases hasked r t stream ho with ho | hnew
    · have ht : t < m.callbacks.length := (hsane.accounted.recorded _ ho).1
      obtain ⟨callback, hold⟩ : ∃ callback, m.callbacks[t]? = some callback :=
        ⟨_, List.getElem?_eq_getElem ht⟩
      rw [hlater.callback hold] at hcallback
      exact hresults e r (h.asked r t stream name e ho (hold.trans hcallback))
    · exact hnew name e hcallback
  spent e x r hx habort hr := by
    rcases hexecutor e x hx with hx | ⟨hpast, -⟩
    · exact (h.spent e x r hx habort hr).mono hlater
    · exact hpast habort r hr
  complete e x hx hcomplete := by
    rcases hexecutor e x hx with hx | ⟨-, hfinished⟩
    · exact (h.complete e x hx hcomplete).mono hlater
    · exact hfinished hcomplete

theorem quiet (h : m.Employed) (hsane : m.Sane) (hlater : Later m m')
    (hexecutors : m'.state.executors = m.state.executors)
    (hcall : m'.call = m.call ∨ ∀ e r, (∀ operation, m'.call ≠ .attaching (some e) r operation) ∧
      ∀ target, m'.call ≠ .cancelling (some e) r target)
    (hasked : ∀ r t stream, .asked r t stream ∈ m'.history → .asked r t stream ∈ m.history) :
    m'.Employed := by
  have hsame : ∀ e, m'.executor? e = m.executor? e := fun e => by
    rw [executor?, executor?, hexecutors]
  refine h.keep hsane hlater (fun e r he => (hsame e).trans he) (fun e r operation he => ?_)
    (fun e r target he => ?_) (fun r t stream ho => Or.inl (hasked r t stream ho))
    fun e x hx => Or.inl (hexecutors ▸ hx)
  · rcases hcall with hcall | hcall
    · exact (hsame e).trans (h.attaching e r operation (hcall ▸ he))
    · exact absurd he ((hcall e r).1 operation)
  · rcases hcall with hcall | hcall
    · exact (hsame e).trans (h.cancelling e r target (hcall ▸ he))
    · exact absurd he ((hcall e r).2 target)

/-! ## Calls -/

/-- A query is handed over. An executor that does it has no result yet. -/
theorem submitted (h : m.Employed) (hsane : m.Sane) {executor : Option Nat} {i : Nat}
    {request : Request} {name : String} {hides : Bool}
    (hlater : Later m (m.submitted executor i (.promotion name hides)
      (m.state.submit i request (.promotion name hides))))
    (hexecutor : ∀ e, executor = some e → m.executor? e = none) :
    (m.submitted executor i (.promotion name hides)
      (m.state.submit i request (.promotion name hides))).Employed := by
  cases hserves : m.serves? i with
  | none =>
    obtain ⟨trace, heq⟩ := submitted_unserved hsane executor request name hides hserves
    rw [heq] at hlater ⊢
    exact h.quiet hsane hlater rfl (Or.inl rfl) fun _ _ _ => id
  | some c =>
    cases hresponses : (m.state.engine.connector c).responses with
    | nil =>
      obtain ⟨host, trace, heq⟩ :=
        submitted_refused hsane executor request name hides hserves hresponses
      rw [heq] at hlater ⊢
      exact h.quiet hsane hlater rfl (Or.inl rfl) fun _ _ _ ho => by simpa using ho
    | cons response responses =>
      obtain ⟨host, trace, cookie, heq⟩ :=
        submitted_accepted hsane executor request name hides hserves hresponses
      rw [heq] at hlater ⊢
      refine h.keep hsane hlater (fun _ _ => id) (fun e r operation he => ?_)
        (fun e r target he => by cases he) (fun r t stream ho => Or.inl (by simpa using ho))
        fun e x hx => Or.inl hx
      obtain ⟨rfl, -⟩ := Call.attaching.inj he
      exact hexecutor e rfl

/-- A result is asked for a row, by an executor only if it is its result. -/
theorem next (h : m.Employed) (hsane : m.Sane) (hidle : m.call = .idle) {name : String}
    {executor : Option Nat} (hlater : Later m (m.next r (.row name executor)))
    (hexecutor : ∀ e, executor = some e → m.executor? e = some r) :
    (m.next r (.row name executor)).Employed := by
  have hnew : ∀ {t : Nat} {name' : String} {e : Nat}, t = m.state.host.issued →
      (m.callbacks ++ [Callback.row name executor])[t]? = some (.row name' (some e)) →
        m.executor? e = some r := by
    rintro t name' e rfl hcallback
    rw [← hsane.bridged.issued, List.getElem?_concat_length] at hcallback
    exact hexecutor e (Callback.row.inj (Option.some.inj hcallback)).2
  cases hstream : (m.state.target? r).bind Target.stream? with
  | none =>
    obtain ⟨host, trace, heq⟩ := next_unstarted hsane name executor hstream
    rw [heq] at hlater ⊢
    refine h.keep hsane hlater (fun _ _ => id) (fun e r operation he => by simp [hidle] at he)
      (fun e r target he => by simp [hidle] at he) (fun r' t stream ho => ?_)
      fun e x hx => Or.inl hx
    rcases List.mem_append.mp ho with ho | ho
    · exact Or.inl ho
    · obtain ⟨rfl, rfl, -⟩ := Observation.asked.inj (List.mem_singleton.mp ho)
      exact Or.inr fun name' e => hnew rfl
  | some k =>
    have htarget : m.state.target? r = some (.active k) := by
      obtain ⟨target, ht, hk⟩ := Option.bind_eq_some_iff.mp hstream
      cases target <;> simp_all [Target.stream?]
    obtain ⟨x, hx⟩ := hsane.footing.stream r k htarget
    obtain ⟨host, trace, cookie, os, hos, heq⟩ := next_started hsane name executor htarget hx
    rw [heq] at hlater ⊢
    refine h.keep hsane hlater (fun _ _ => id) (fun e r operation he => by simp [hidle] at he)
      (fun e r target he => by simp [hidle] at he) (fun r' t stream ho => ?_)
      fun e x hx => Or.inl hx
    rcases List.mem_append.mp ho with ho | ho
    · exact Or.inl ho
    · rcases List.mem_cons.mp ho with ho | ho
      · obtain ⟨rfl, rfl, -⟩ := Observation.asked.inj ho
        exact Or.inr fun name' e => hnew rfl
      · obtain ⟨t', row, heq⟩ := hos _ ho
        cases heq

/-- An executor whose callback is told the end of the rows has asked its result for them. -/
theorem finished_of_told (h : m.Employed) (hledger : m.Ledger) {t : Nat} {name : String}
    (howed : (t, .row none none) ∈ m.owed)
    (hcallback : m.callbacks[t]? = some (.row name (some e))) :
    ∃ r k, m.executor? e = some r ∧ .asked r t (some k) ∈ m.history ∧
      .answered t .done ∈ m.history := by
  obtain ⟨o, ho, howes⟩ := List.mem_filterMap.mp howed
  have hanswered : .answered t .done ∈ m.history := by
    cases o with
    | answered t' row =>
      simp only [Observation.owes?, Option.some.injEq, Prod.mk.injEq, Outcome.row.injEq] at howes
      obtain ⟨rfl, hcontent, herror⟩ := howes
      obtain rfl := Row.marshal_eq_none_none_iff.mp (Prod.ext hcontent herror)
      exact ho
    | reported r' t' stream error alive => cases alive <;> simp [Observation.owes?] at howes
    | asked r' t' stream => cases stream <;> simp [Observation.owes?] at howes
    | _ => simp [Observation.owes?] at howes
  -- the answer has its question, which was one of the executor about a stream of its result
  have hpull : t ∈ m.history.filterMap Observation.pull? :=
    hledger.pulls.mem_iff.mp
      (List.mem_append_right _ (List.mem_filterMap.mpr ⟨_, hanswered, rfl⟩))
  obtain ⟨o', ho', hasks⟩ := List.mem_filterMap.mp hpull
  cases o' with
  | asked r t' stream =>
    cases stream with
    | none => cases hasks
    | some k =>
      obtain rfl : t' = t := Option.some.inj hasks
      exact ⟨r, k, h.asked r t' (some k) name e ho' hcallback, ho', hanswered⟩
  | _ => cases hasks

theorem executor?_modify (xs : List Executor) (e k : Nat) {f : Executor → Executor}
    (hf : ∀ x, (f x).result = x.result) :
    (xs.modify e f)[k]?.bind Executor.result = xs[k]?.bind Executor.result := by
  rw [← join_map_result, ← join_map_result, map_result_modify xs e hf]

theorem dispatch (h : m.Employed) (hsane : m.Sane) (hledger : m.Ledger)
    (hlater : Later m (m.having m.state.dispatch.2)) : (m.having m.state.dispatch.2).Employed := by
  obtain ⟨host, trace, executors, heq, hsame | ⟨t, name, e, howed, hcallback, hexecutors⟩⟩ :=
    dispatch_eq hsane
  · rw [heq] at hlater ⊢
    exact h.quiet hsane hlater hsame (Or.inl rfl) fun _ _ _ => id
  · rw [heq] at hlater ⊢
    have hresult : ∀ k, executors[k]?.bind Executor.result = m.executor? k := by
      intro k
      rw [hexecutors, executor?_modify m.state.executors e k
        (f := fun x => { x with state := .complete }) fun _ => rfl]
      rfl
    refine h.keep hsane hlater (fun k r hk => (hresult k).trans hk)
      (fun k r operation hk => (hresult k).trans (h.attaching k r operation hk))
      (fun k r target hk => (hresult k).trans (h.cancelling k r target hk))
      (fun r t stream ho => Or.inl ho) fun k x hx => ?_
    have hx' : executors[k]? = some x := hx
    by_cases hk : e = k
    · subst hk
      obtain ⟨r, i, hr, hasked, hanswered⟩ := h.finished_of_told hledger howed hcallback
      have hr' : x.result = some r := by
        rw [← hr, ← hresult, hx', Option.bind_some]
      refine Or.inr ⟨fun _ r' hr'' => ?_, fun _ => ⟨r, t, i, hr', hasked, hanswered⟩⟩
      obtain rfl := Option.some.inj (hr'.symm.trans hr'')
      exact (((hsane.accounted.recorded _ hasked).2 i rfl).past hsane).mono hlater
    · rw [hexecutors, List.getElem?_modify] at hx'
      exact Or.inl (by simpa [hk] using hx')

theorem resume (h : m.Employed) (hsane : m.Sane) (hsane' : m.resume.Sane)
    (hlater : Later m m.resume) : m.resume.Employed := by
  cases hcall : m.call with
  | idle =>
    have heq : m.resume = m := by simp [Moment.resume, hcall]
    rw [heq]
    exact h
  | attaching executor r operation =>
    cases executor with
    | none =>
      have heq : m.resume = { m with state := m.state.attach r operation, call := .idle } := by
        simp [Moment.resume, hcall]
      rw [heq] at hlater ⊢
      refine h.quiet hsane hlater ?_ (Or.inr (by simp)) fun _ _ _ => id
      simp only [State.attach, State.note_host]
      rfl
    | some e =>
      have heq : m.resume = { m with
          state := m.state.executorAttach e r operation, call := .idle } := by
        simp [Moment.resume, hcall]
      have hexecutors : m.resume.state.executors =
          m.state.executors.modify e fun _ => ⟨some r, .started⟩ := by
        rw [heq]
        simp only [State.executorAttach, State.attach, State.note_host]
        rfl
      have hother : ∀ k, k ≠ e → m.resume.state.executors[k]? = m.state.executors[k]? := by
        intro k hk
        rw [hexecutors, List.getElem?_modify]
        simp [Ne.symm hk]
      refine h.keep hsane hlater (fun k r' hk => ?_) (fun k r' operation he => by simp [heq] at he)
        (fun k r' target he => by simp [heq] at he)
        (fun r' t stream ho => Or.inl (by simpa [heq] using ho)) fun k x hx => ?_
      · have hne : k ≠ e := by
          rintro rfl
          rw [h.attaching k r operation hcall] at hk
          cases hk
        rw [executor?, hother k hne]
        exact hk
      · by_cases hk : k = e
        · subst hk
          -- an executor that has just started is not complete and does not refuse a cancellation
          rw [hexecutors, List.getElem?_modify] at hx
          obtain ⟨y, -, hy⟩ := Option.map_eq_some_iff.mp hx
          rw [if_pos rfl] at hy
          rw [← hy]
          exact Or.inr ⟨by simp [Executor.canAbort], by simp⟩
        · exact Or.inl (hother k hk ▸ hx)
  | cancelling executor r target =>
    cases executor with
    | none =>
      have heq : m.resume = { m with
          state := m.state.strike target
          call := .idle
          history := m.history ++ [.cancelled r target] } := by
        simp [Moment.resume, hcall]
      rw [heq] at hlater ⊢
      exact h.quiet hsane hlater (strike_executors _ _) (Or.inr (by simp)) fun _ _ _ ho => by
        simpa using ho
    | some e =>
      have heq : m.resume = { m with
          state := m.state.executorStrike e target
          call := .idle
          history := m.history ++ [.cancelled r target] } := by
        simp [Moment.resume, hcall]
      have hexecutors : m.resume.state.executors =
          m.state.executors.modify e fun x => { x with state := .cancelled } := by
        rw [heq, ← strike_executors m.state target]
        rfl
      have hresult : ∀ k, m.resume.executor? k = m.executor? k := by
        intro k
        rw [executor?, hexecutors, executor?_modify m.state.executors e k
          (f := fun x => { x with state := .cancelled }) fun _ => rfl]
        rfl
      refine h.keep hsane hlater (fun k r' hk => (hresult k).trans hk)
        (fun k r' operation he => by simp [heq] at he) (fun k r' target he => by simp [heq] at he)
        (fun r' t stream ho => Or.inl (by simpa [heq] using ho)) fun k x hx => ?_
      by_cases hk : e = k
      · subst hk
        refine Or.inr ⟨fun _ r' hr => ?_, fun hcomplete => ?_⟩
        · have hr' : m.resume.executor? e = some r' := by
            rw [executor?, hx, Option.bind_some, hr]
          rw [hresult, h.cancelling e r target hcall] at hr'
          obtain rfl := Option.some.inj hr'
          have hcancelled : .cancelled r target ∈ m.resume.history := by simp [heq]
          exact (hsane'.accounted.recorded _ hcancelled).past hsane'
        · rw [hexecutors, List.getElem?_modify] at hx
          obtain ⟨y, -, hy⟩ := Option.map_eq_some_iff.mp hx
          rw [if_pos rfl] at hy
          rw [← hy] at hcomplete
          cases hcomplete
      · rw [hexecutors, List.getElem?_modify] at hx
        exact Or.inl (by simpa [hk] using hx)

/-! ## Events -/

theorem turn (h : m.Employed) (hsane : m.Sane) (l : Nat)
    (hlater : Later m (m.perform (.turn l))) : (m.perform (.turn l)).Employed := by
  generalize hturn : m.state.engine.turn l = turned
  obtain ⟨completion, engine⟩ := turned
  cases completion with
  | none =>
    rw [turn_silent hturn] at hlater ⊢
    refine h.quiet hsane hlater rfl (Or.inl rfl) fun r t stream ho => ?_
    refine (List.mem_append.mp ho).resolve_right fun ho => ?_
    obtain ⟨t', cancelled, he⟩ := State.exists_of_mem_glimpse ho
    cases he
  | some completion =>
    cases completion with
    | promoted p stream error =>
      obtain ⟨host, alive, heq⟩ := turn_promoted hsane hturn
      rw [heq] at hlater ⊢
      exact h.quiet hsane hlater rfl (Or.inl rfl) fun _ _ _ ho => by simpa using ho
    | row cookie row =>
      obtain ⟨host, heq⟩ := turn_answered hsane hturn
      rw [heq] at hlater ⊢
      exact h.quiet hsane hlater rfl (Or.inl rfl) fun _ _ _ ho => by simpa using ho
    | closed i =>
      rcases turn_closed hturn with ⟨x, -, -, heq⟩ | ⟨-, heq⟩
      · rw [heq] at hlater ⊢
        exact h.quiet hsane hlater rfl (Or.inl rfl) fun _ _ _ => id
      · rw [heq] at hlater ⊢
        exact h.quiet hsane hlater rfl (Or.inl rfl) fun _ _ _ => id

theorem act (h : m.Employed) (hsane : m.Sane) (hledger : m.Ledger) (hidle : m.call = .idle)
    {deed : Deed} (hlater : Later m (m.act deed)) : (m.act deed).Employed := by
  have hhaving : ∀ {s : State}, Later m (m.having s) → s.executors = m.state.executors →
      (m.having s).Employed := fun hlater hexecutors =>
    h.quiet hsane hlater hexecutors (Or.inl rfl) fun _ _ _ => id
  cases deed with
  | connector => exact hhaving hlater rfl
  | respond c response =>
    simp only [Moment.act] at hlater ⊢
    split at hlater
    · next hc =>
      rw [if_pos hc]
      exact h.quiet hsane hlater rfl (Or.inl rfl) fun _ _ _ ho => by simpa using ho
    · next hc =>
      rw [if_neg hc]
      exact h
  | create c options => exact hhaving hlater (executors_create m.state c options)
  | query i request name => exact h.submitted hsane hlater (by simp)
  | next r name => exact h.next hsane hidle hlater (by simp)
  | cancel r =>
    simp only [Moment.act] at hlater ⊢
    split at hlater
    · exact h
    · exact h.quiet hsane hlater rfl (Or.inr (by simp)) fun _ _ _ => id
  | dropResult r => exact hhaving hlater rfl
  | executor =>
    have hold : ∀ k (x : Executor), m.state.executors[k]? = some x →
        (m.state.executors ++ [({} : Executor)])[k]? = some x := fun k x hx =>
      List.getElem?_append_left (List.getElem?_eq_some_iff.mp hx).1 ▸ hx
    refine h.keep hsane hlater (fun k r hk => ?_)
      (fun k r operation he => by simp [Moment.act, having, hidle] at he)
      (fun k r target he => by simp [Moment.act, having, hidle] at he)
      (fun r t stream ho => Or.inl ho) fun k x hx => ?_
    · obtain ⟨x, hx, hr⟩ := Option.bind_eq_some_iff.mp hk
      exact Option.bind_eq_some_iff.mpr ⟨x, hold k x hx, hr⟩
    · have hx' : (m.state.executors ++ [({} : Executor)])[k]? = some x := hx
      rw [List.getElem?_append] at hx'
      split at hx'
      · exact Or.inl hx'
      · rw [List.getElem?_singleton] at hx'
        split at hx'
        · obtain rfl := Option.some.inj hx'
          exact Or.inr ⟨by simp [Executor.canAbort], by simp⟩
        · cases hx'
  | executorQuery e i request name =>
    simp only [Moment.act, State.executorSubmit] at hlater ⊢
    cases hresult : m.state.executors[e]?.bind Executor.result with
    | some r =>
      simp only [hresult] at hlater ⊢
      have hissued : (m.state.record (.dropped none name)).host.issued = m.state.host.issued := rfl
      simp only [Moment.submitted, hissued, if_true] at hlater ⊢
      exact hhaving hlater rfl
    | none =>
      simp only [hresult] at hlater ⊢
      refine h.submitted hsane hlater fun k hk => ?_
      obtain rfl := Option.some.inj hk
      exact hresult
  | executorNext e name =>
    simp only [Moment.act] at hlater ⊢
    cases hresult : m.state.executors[e]?.bind Executor.result with
    | none =>
      simp only [hresult, State.executorNext] at hlater ⊢
      exact hhaving hlater rfl
    | some r =>
      simp only [hresult] at hlater ⊢
      refine h.next hsane hidle hlater fun k hk => ?_
      obtain rfl := Option.some.inj hk
      exact hresult
  | executorAbort e =>
    simp only [Moment.act] at hlater ⊢
    split at hlater
    · next r target hresult htarget =>
      refine h.keep hsane hlater (fun _ _ => id) (fun k r operation he => by cases he)
        (fun k r' target' he => ?_) (fun r t stream ho => Or.inl ho) fun k x hx => Or.inl hx
      cases he
      exact hresult
    · exact h
  | dropExecutor e =>
    refine hhaving hlater ?_
    unfold State.dropExecutor
    split <;> rfl
  | destroy i => exact hhaving hlater (executors_destroy hsane i)
  | dropConnection i => exact hhaving hlater (executors_dropConnection hsane i)
  | dispatch => exact h.dispatch hsane hledger hlater

theorem event (h : m.Employed) (hsane : m.Sane) (hledger : m.Ledger) (event : Event) :
    (m.perform event).Employed := by
  obtain ⟨hsane', hlater⟩ := hsane.event event
  cases event with
  | act deed =>
    simp only [perform] at hlater ⊢
    split at hlater
    · next hidle => exact h.act hsane hledger hidle hlater
    · exact h
  | resume => exact h.resume hsane hsane' hlater
  | turn l => exact h.turn hsane l hlater
  | elapse l key =>
    simp only [perform] at hlater ⊢
    split at hlater
    · exact h.quiet hsane hlater rfl (Or.inl rfl) fun _ _ _ => id
    · exact h
  | reap i =>
    refine h.quiet hsane hlater ?_ (Or.inl rfl) fun _ _ _ => id
    simp only [perform, having, State.reap]
    split <;> rfl
  | reapers fault => exact h.quiet hsane hlater rfl (Or.inl rfl) fun _ _ _ => id

end Employed

end Moment

open Moment

theorem Moment.Ledger.event {m : Moment} (h : m.Ledger) (hsane : m.Sane) (event : Event) :
    (m.perform event).Ledger :=
  (hsane.steps_induction (fun _ _ hsane hstep h => h.step hsane hstep)
    (steps_perform hsane.footing event) h).2

end HostBridge.Session
