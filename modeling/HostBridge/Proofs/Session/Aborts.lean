import HostBridge.Proofs.Session.Strikes
import HostBridge.Proofs.Session.Summary
import Mathlib.Data.List.Induction

/-!
# An executor is cancelled once

The host may cancel an executor as often as it likes, before and after the promotion of its query, and
rows that were on their way arrive all the same. Only one of these cancellations succeeds. It strikes
the operation of the query or its stream, once, and the executor goes on to be complete if the end of
its rows still arrives, after which it is not cancelled any more.
-/

namespace HostBridge.Session

/-- The states that may come next. -/
def Streaming.followers : Streaming → List Streaming
  | notStarted => [started]
  | started => [cancelled, complete]
  | cancelled => [complete]
  | complete => []

namespace Moment

variable {m m' : Moment} {e r : Nat} {event : Event}

/-! ## Answers -/

/-- The answer that a cancellation of an executor gives the host with this event, if one does. A
cancellation that has found nothing answers at once, the other ones when they strike. -/
def answer? (m : Moment) (e : Nat) : Event → Option Bool
  | .act (.executorAbort k) =>
    match m.call with
    | .idle => if k = e ∧ (m.state.executorAbort e).1 = false then some false else none
    | _ => none
  | .resume =>
    match m.call with
    | .cancelling (some k) _ _ => if k = e then some true else none
    | _ => none
  | _ => none

/-- All answers to cancellations of an executor in a run. -/
def answers (e : Nat) (m : Moment) : List Event → List Bool
  | [] => []
  | event :: events => (m.answer? e event).toList ++ answers e (m.perform event) events

theorem answers_append (e : Nat) (m : Moment) (events events' : List Event) :
    answers e m (events ++ events') =
      answers e m events ++ answers e (events.foldl perform m) events' := by
  induction events generalizing m with
  | nil => rfl
  | cons event events ih => simp [answers, ih]

theorem answers_concat (e : Nat) (events : List Event) (event : Event) :
    answers e {} (events ++ [event]) =
      answers e {} events ++ ((run events).answer? e event).toList := by
  rw [answers_append]
  simp [answers, run]

/-- A cancellation that nothing interrupts gives its answer. -/
theorem answers_executorAbort (hidle : m.call = .idle) (e : Nat) :
    answers e m [.act (.executorAbort e), .resume] = [(m.state.executorAbort e).1] ∧
      ([.act (.executorAbort e), .resume].foldl perform m).state = (m.state.executorAbort e).2 := by
  cases hgrasp : m.state.executorGrasp e with
  | none =>
    simp [answers, answer?, perform, act, resume, hidle, State.executorAbort, hgrasp]
  | some target =>
    obtain ⟨x, hx, hfound⟩ := Option.bind_eq_some_iff.mp hgrasp
    have hresult : ∃ r, m.state.executors[e]?.bind Executor.result = some r := by
      split at hfound
      · obtain ⟨r, hr, -⟩ := Option.bind_eq_some_iff.mp hfound
        exact ⟨r, by rw [hx, Option.bind_some, hr]⟩
      · cases hfound
    obtain ⟨r, hr⟩ := hresult
    simp [answers, answer?, perform, act, resume, hidle, State.executorAbort, hgrasp, hr]

theorem answer?_eq_true : m.answer? e event = some true ↔
    event = .resume ∧ ∃ r target, m.call = .cancelling (some e) r target := by
  constructor
  · intro h
    unfold answer? at h
    split at h
    · split at h
      · split at h <;> cases h
      · cases h
    · split at h
      · next hcall =>
        split at h
        · next hk => exact ⟨rfl, _, _, hk ▸ hcall⟩
        · cases h
      · cases h
    · cases h
  · rintro ⟨rfl, r, target, hcall⟩
    simp [answer?, hcall]

/-! ## What an event does to executors -/

/-- What an event does to the call that the host is in the middle of, to the executors and to the
cancellations. -/
inductive Deals (m : Moment) : Event → Moment → Prop
  /-- Nothing. -/
  | quiet {event : Event} {m' : Moment} (hresume : event = .resume → m.call = .idle)
      (hcall : m'.call = m.call) (hexecutors : m'.state.executors = m.state.executors)
      (hstrikes : m'.strikes = m.strikes) : Deals m event m'
  /-- An executor is made. -/
  | hire {deed : Deed} {m' : Moment} (hidle : m.call = .idle) (hcall : m'.call = .idle)
      (hexecutors : m'.state.executors = m.state.executors ++ [({} : Executor)])
      (hstrikes : m'.strikes = m.strikes) : Deals m (.act deed) m'
  /-- A query is accepted and gets a new result. -/
  | accept {deed : Deed} {m' : Moment} {k : Option Nat} {operation : Operation}
      (hidle : m.call = .idle)
      (hcall : m'.call = .attaching k m.state.results.length operation)
      (hexecutors : m'.state.executors = m.state.executors)
      (hstrikes : m'.strikes = m.strikes) : Deals m (.act deed) m'
  /-- A result learns of its operation. -/
  | attachResult {r : Nat} {operation : Operation} {m' : Moment}
      (hcall : m.call = .attaching none r operation) (hidle : m'.call = .idle)
      (hexecutors : m'.state.executors = m.state.executors)
      (hstrikes : m'.strikes = m.strikes) : Deals m .resume m'
  /-- An executor gets its result, which learns of its operation. -/
  | attach {k r : Nat} {operation : Operation} {m' : Moment}
      (hcall : m.call = .attaching (some k) r operation) (hidle : m'.call = .idle)
      (hexecutors : m'.state.executors = m.state.executors.modify k fun _ => ⟨some r, .started⟩)
      (hstrikes : m'.strikes = m.strikes) : Deals m .resume m'
  /-- A cancellation of a result finds something. -/
  | graspResult {r : Nat} {target : Target} {m' : Moment} (hidle : m.call = .idle)
      (hcall : m'.call = .cancelling none r target)
      (hexecutors : m'.state.executors = m.state.executors)
      (hstrikes : m'.strikes = m.strikes) : Deals m (.act (.cancel r)) m'
  /-- A cancellation of an executor finds something. -/
  | grasp {k r : Nat} {target : Target} {x : Executor} {m' : Moment} (hidle : m.call = .idle)
      (hcall : m'.call = .cancelling (some k) r target) (hx : m.state.executors[k]? = some x)
      (hresult : x.result = some r) (habort : x.canAbort = true)
      (hexecutors : m'.state.executors = m.state.executors)
      (hstrikes : m'.strikes = m.strikes) : Deals m (.act (.executorAbort k)) m'
  /-- A cancellation of a result strikes. -/
  | strikeResult {r : Nat} {target : Target} {m' : Moment}
      (hcall : m.call = .cancelling none r target) (hidle : m'.call = .idle)
      (hexecutors : m'.state.executors = m.state.executors)
      (hstrikes : m'.strikes = m.strikes ++ [(r, target)]) : Deals m .resume m'
  /-- A cancellation of an executor strikes. -/
  | strike {k r : Nat} {target : Target} {m' : Moment}
      (hcall : m.call = .cancelling (some k) r target) (hidle : m'.call = .idle)
      (hexecutors : m'.state.executors =
        m.state.executors.modify k fun x => { x with state := .cancelled })
      (hstrikes : m'.strikes = m.strikes ++ [(r, target)]) : Deals m .resume m'
  /-- An executor is told the end of its rows. -/
  | finish {k r : Nat} {m' : Moment} (hidle : m.call = .idle) (hcall : m'.call = .idle)
      (hresult : m.executor? k = some r)
      (hexecutors : m'.state.executors =
        m.state.executors.modify k fun x => { x with state := .complete })
      (hstrikes : m'.strikes = m.strikes) : Deals m (.act .dispatch) m'

theorem Deals.still {deed : Deed} (hcall : m'.call = m.call)
    (hexecutors : m'.state.executors = m.state.executors) (hstrikes : m'.strikes = m.strikes) :
    m.Deals (.act deed) m' :=
  .quiet (by simp) hcall hexecutors hstrikes

theorem deals_submitted (hsane : m.Sane) (hidle : m.call = .idle) (deed : Deed) (k : Option Nat)
    (i : Nat) (request : Request) (name : String) (hides : Bool) :
    m.Deals (.act deed) (m.submitted k i (.promotion name hides)
      (m.state.submit i request (.promotion name hides))) := by
  cases hserves : m.serves? i with
  | none =>
    obtain ⟨trace, heq⟩ := submitted_unserved hsane k request name hides hserves
    rw [heq]
    exact .still rfl rfl rfl
  | some c =>
    cases hresponses : (m.state.engine.connector c).responses with
    | nil =>
      obtain ⟨host, trace, heq⟩ := submitted_refused hsane k request name hides hserves hresponses
      rw [heq]
      exact .still rfl rfl (by simp [strikes])
    | cons response responses =>
      obtain ⟨host, trace, cookie, heq⟩ :=
        submitted_accepted hsane k request name hides hserves hresponses
      rw [heq]
      exact .accept hidle rfl rfl (by simp [strikes])

theorem strikes_observe (s : State) (c : Option Completion) :
    (s.observe c).filterMap Observation.strike? = [] := by
  rcases c with _ | (_ | _ | _) <;> rfl

theorem strikes_glimpse (s : State) (l : Nat) :
    (s.glimpse l).filterMap Observation.strike? = [] := by
  refine List.filterMap_eq_nil_iff.mpr fun o ho => ?_
  obtain ⟨t, cancelled, rfl⟩ := State.exists_of_mem_glimpse ho
  rfl

theorem deals_next (hsane : m.Sane) (deed : Deed) (r : Nat) (name : String) (k : Option Nat) :
    m.Deals (.act deed) (m.next r (.row name k)) := by
  have hstrikes : (m.next r (.row name k)).strikes = m.strikes := by
    simp [strikes, next, List.filterMap_append, List.filterMap_cons, strikes_observe]
  refine .still rfl ?_ hstrikes
  cases hstream : (m.state.target? r).bind Target.stream? with
  | none =>
    obtain ⟨host, trace, heq⟩ := next_unstarted hsane name k hstream
    rw [heq]
  | some i =>
    have htarget : m.state.target? r = some (.active i) := by
      obtain ⟨target, ht, hi⟩ := Option.bind_eq_some_iff.mp hstream
      cases target <;> simp_all [Target.stream?]
    obtain ⟨x, hx⟩ := hsane.footing.stream r i htarget
    obtain ⟨host, trace, cookie, os, -, heq⟩ := next_started hsane name k htarget hx
    rw [heq]

theorem deals_act (hsane : m.Sane) (hledger : m.Ledger) (hemployed : m.Employed)
    (hidle : m.call = .idle) (deed : Deed) : m.Deals (.act deed) (m.act deed) := by
  cases deed with
  | connector | dropResult => exact .still rfl rfl rfl
  | respond c response =>
    simp only [act]
    split
    · exact .still rfl rfl (by simp [strikes])
    · exact .still rfl rfl rfl
  | create c options => exact .still rfl (executors_create m.state c options) rfl
  | query i request name => exact deals_submitted hsane hidle _ none i request name false
  | next r name => exact deals_next hsane _ r name none
  | cancel r =>
    simp only [act]
    split
    · exact .still rfl rfl rfl
    · exact .graspResult hidle rfl rfl rfl
  | executor => exact .hire hidle hidle rfl rfl
  | executorQuery k i request name =>
    simp only [act, State.executorSubmit]
    split
    · simp only [submitted, State.record, if_true]
      exact .still rfl rfl rfl
    · exact deals_submitted hsane hidle _ (some k) i request name true
  | executorNext k name =>
    simp only [act]
    split
    · next hresult =>
      simp only [State.executorNext, hresult]
      exact .still rfl rfl rfl
    · exact deals_next hsane _ _ name (some k)
  | executorAbort k =>
    simp only [act]
    split
    · next r target hresult hgrasp =>
      obtain ⟨x, hx, hr⟩ := Option.bind_eq_some_iff.mp hresult
      refine .grasp hidle rfl hx hr ?_ rfl rfl
      by_contra habort
      simp [State.executorGrasp, hx, habort] at hgrasp
    · exact .still rfl rfl rfl
  | dropExecutor k =>
    refine .still rfl ?_ rfl
    simp only [act, having, State.dropExecutor]
    split <;> rfl
  | destroy i => exact .still rfl (executors_destroy hsane i) rfl
  | dropConnection i => exact .still rfl (executors_dropConnection hsane i) rfl
  | dispatch =>
    obtain ⟨host, trace, executors, heq, hsame | ⟨t, name, k, howed, hcallback, hexecutors⟩⟩ :=
      dispatch_eq hsane
    · refine .still rfl ?_ rfl
      rw [act, heq]
      exact hsame
    · obtain ⟨r, -, hresult, -⟩ := hemployed.finished_of_told hledger howed hcallback
      refine .finish hidle hidle hresult ?_ rfl
      rw [act, heq]
      exact hexecutors

theorem deals_resume (m : Moment) : m.Deals .resume m.resume := by
  cases hcall : m.call with
  | idle =>
    have heq : m.resume = m := by simp [resume, hcall]
    rw [heq]
    exact .quiet (fun _ => hcall) rfl rfl rfl
  | attaching k r operation =>
    have hattach : (m.state.attach r operation).executors = m.state.executors := by
      simp only [State.attach, State.note_host]
      rfl
    cases k with
    | none =>
      refine .attachResult hcall ?_ ?_ ?_
      all_goals simp [resume, hcall, hattach, strikes]
    | some k =>
      refine .attach hcall ?_ ?_ ?_
      all_goals simp [resume, hcall, State.executorAttach, State.modifyExecutor, hattach, strikes]
  | cancelling k r target =>
    cases k with
    | none =>
      refine .strikeResult hcall ?_ ?_ ?_
      all_goals simp [resume, hcall, strike_executors, strikes]
    | some k =>
      refine .strike hcall ?_ ?_ ?_
      all_goals
        simp [resume, hcall, State.executorStrike, State.modifyExecutor, strike_executors, strikes]

theorem deals_perform (hsane : m.Sane) (hledger : m.Ledger) (hemployed : m.Employed)
    (event : Event) : m.Deals event (m.perform event) := by
  cases event with
  | act deed =>
    cases hcall : m.call with
    | idle =>
      simp only [perform, hcall]
      exact deals_act hsane hledger hemployed hcall deed
    | attaching | cancelling =>
      simp only [perform, hcall]
      exact .still rfl rfl rfl
  | resume => exact deals_resume m
  | turn l =>
    have hstrikes : (m.perform (.turn l)).strikes = m.strikes := by
      simp only [strikes, perform, List.filterMap_append, strikes_glimpse, strikes_observe,
        List.append_nil]
    exact .quiet (by simp) rfl (executors_turn hsane l) hstrikes
  | elapse l key =>
    simp only [perform]
    split <;> exact .quiet (by simp) rfl rfl rfl
  | reap i =>
    refine .quiet (by simp) rfl ?_ rfl
    simp only [perform, having, State.reap]
    split <;> rfl
  | reapers fault => exact .quiet (by simp) rfl rfl rfl

/-! ## Executors go on -/

/-- What an event does to one executor. -/
inductive Fares (m : Moment) (e : Nat) : Executor → Executor → Prop
  /-- Nothing. -/
  | same (x : Executor) : Fares m e x x
  /-- It gets its result. -/
  | attach {x : Executor} {r : Nat} {operation : Operation}
      (hcall : m.call = .attaching (some e) r operation) : Fares m e x ⟨some r, .started⟩
  /-- It is cancelled. -/
  | strike {x : Executor} {r : Nat} {target : Target}
      (hcall : m.call = .cancelling (some e) r target) : Fares m e x { x with state := .cancelled }
  /-- It is told the end of its rows. -/
  | finish {x : Executor} {r : Nat} (hresult : x.result = some r) :
      Fares m e x { x with state := .complete }

theorem executor?_of_executors (h : m'.state.executors = m.state.executors) (e : Nat) :
    m'.executor? e = m.executor? e := by
  rw [executor?, executor?, h]

namespace Deals

theorem fares (h : m.Deals event m') {x : Executor} (hx : m.state.executors[e]? = some x) :
    ∃ x', m'.state.executors[e]? = some x' ∧ m.Fares e x x' := by
  have hmodify : ∀ {k : Nat} {f : Executor → Executor},
      m'.state.executors = m.state.executors.modify k f → (k = e → m.Fares e x (f x)) →
      ∃ x', m'.state.executors[e]? = some x' ∧ m.Fares e x x' := by
    intro k f hexecutors hf
    rw [hexecutors, List.getElem?_modify, hx]
    by_cases hk : k = e
    · exact ⟨f x, by simp [hk], hf hk⟩
    · exact ⟨x, by simp [hk], .same x⟩
  cases h with
  | quiet _ _ hexecutors _ | accept _ _ hexecutors _ | attachResult _ _ hexecutors _
  | graspResult _ _ hexecutors _ | grasp _ _ _ _ _ hexecutors _ | strikeResult _ _ hexecutors _ =>
    exact ⟨x, hexecutors ▸ hx, .same x⟩
  | hire _ _ hexecutors _ =>
    refine ⟨x, ?_, .same x⟩
    rw [hexecutors, List.getElem?_append_left (List.getElem?_eq_some_iff.mp hx).1, hx]
  | attach hcall _ hexecutors _ =>
    exact hmodify hexecutors fun hk => .attach (hk ▸ hcall)
  | strike hcall _ hexecutors _ =>
    exact hmodify hexecutors fun hk => .strike (hk ▸ hcall)
  | finish _ _ hresult hexecutors _ =>
    refine hmodify hexecutors fun hk => ?_
    rw [hk, executor?, hx, Option.bind_some] at hresult
    exact .finish hresult

theorem hires (h : m.Deals event m') (hnone : m.state.executors[e]? = none) {x : Executor}
    (hx : m'.state.executors[e]? = some x) : x = {} := by
  have hmodify : ∀ {k : Nat} {f : Executor → Executor},
      m'.state.executors ≠ m.state.executors.modify k f := by
    intro k f hexecutors
    rw [hexecutors, List.getElem?_modify, hnone] at hx
    cases hx
  cases h with
  | quiet _ _ hexecutors _ | accept _ _ hexecutors _ | attachResult _ _ hexecutors _
  | graspResult _ _ hexecutors _ | grasp _ _ _ _ _ hexecutors _ | strikeResult _ _ hexecutors _ =>
    rw [hexecutors, hnone] at hx
    cases hx
  | hire _ _ hexecutors _ =>
    rw [hexecutors, List.getElem?_append_right (List.getElem?_eq_none_iff.mp hnone),
      List.getElem?_singleton] at hx
    split at hx
    · exact (Option.some.inj hx).symm
    · cases hx
  | attach _ _ hexecutors _ | strike _ _ hexecutors _ | finish _ _ _ hexecutors _ =>
    exact absurd hexecutors hmodify

/-- An executor gets its result when the query is attached. -/
theorem of_executor? (h : m.Deals event m') (hr : m'.executor? e = some r) :
    m.executor? e = some r ∨ ∃ operation, m.call = .attaching (some e) r operation := by
  obtain ⟨x', hx', hresult⟩ := Option.bind_eq_some_iff.mp hr
  cases hx : m.state.executors[e]? with
  | none =>
    rw [h.hires hx hx'] at hresult
    cases hresult
  | some x =>
    obtain ⟨y, hy, hfares⟩ := h.fares hx
    obtain rfl := Option.some.inj (hx'.symm.trans hy)
    cases hfares with
    | same | strike | finish => exact Or.inl (by rw [executor?, hx, Option.bind_some, ← hresult])
    | attach hcall => exact Or.inr ⟨_, Option.some.inj hresult ▸ hcall⟩

end Deals

/-- Executors have results of their own, which nobody had before, and are started with them. -/
structure Assigned (m : Moment) : Prop where
  /-- An executor is started with its result. -/
  started : ∀ (e : Nat) (x : Executor), m.state.executors[e]? = some x →
    (x.result = none ↔ x.state = .notStarted)
  /-- The query of an executor was accepted. -/
  accepted : ∀ e r, m.executor? e = some r →
    ∃ i c o t, .accepted i (.memory c o) r t ∈ m.history
  /-- A result has one executor. -/
  distinct : ∀ e e' r, m.executor? e = some r → m.executor? e' = some r → e = e'
  /-- A result whose operation is still to be attached has no executor, and was not cancelled. -/
  fresh : ∀ k r operation, m.call = .attaching k r operation →
    (∀ e, m.executor? e ≠ some r) ∧ ∀ target, (r, target) ∉ m.strikes
  /-- Only a started executor is cancelled. -/
  striking : ∀ e r target, m.call = .cancelling (some e) r target →
    m.state.executors[e]? = some ⟨some r, .started⟩

namespace Assigned

theorem start : ({} : Moment).Assigned where
  started := by simp
  accepted := by simp [executor?]
  distinct := by simp [executor?]
  fresh := nofun
  striking := nofun

theorem goesOn (h : m.Assigned) (hemployed : m.Employed) {x x' : Executor}
    (hx : m.state.executors[e]? = some x) (hfares : m.Fares e x x') :
    x'.state = x.state ∨ x'.state ∈ x.state.followers := by
  cases hfares with
  | same => exact Or.inl rfl
  | attach hcall =>
    have hnone : x.result = none := by
      rw [← hemployed.attaching e _ _ hcall, executor?, hx, Option.bind_some]
    rw [(h.started e x hx).mp hnone]
    exact Or.inr (by simp [Streaming.followers])
  | strike hcall =>
    obtain rfl := Option.some.inj (hx.symm.trans (h.striking e _ _ hcall))
    exact Or.inr (by simp [Streaming.followers])
  | finish hresult =>
    have hstarted : x.state ≠ .notStarted := fun hstate => by
      rw [(h.started e x hx).mpr hstate] at hresult
      cases hresult
    cases hstate : x.state with
    | notStarted => exact absurd hstate hstarted
    | started | cancelled => exact Or.inr (by simp [Streaming.followers])
    | complete => exact Or.inl rfl

theorem accepted_of_attaching (hsane : m.Sane) {k : Option Nat} {operation : Operation}
    (hcall : m.call = .attaching k r operation) :
    ∃ i c o t, .accepted i (.memory c o) r t ∈ m.history := by
  obtain ⟨i, t, haccepted⟩ := hsane.accounted.attaching k r operation hcall
  obtain ⟨⟨c, o, x, rfl, -⟩, -⟩ := hsane.accounted.recorded _ haccepted
  exact ⟨i, c, o, t, haccepted⟩

theorem numbered_of_struck (hsane : m.Sane) {target : Target} (hstruck : (r, target) ∈ m.strikes) :
    r < m.state.results.length := by
  obtain ⟨i, c, o, t, haccepted, -⟩ :=
    (hsane.accounted.recorded _ (mem_strikes.mp hstruck)).past hsane
  exact (hsane.accounted.recorded _ haccepted).2.1

theorem deal (h : m.Assigned) (hsane : m.Sane) (hlater : Later m m')
    (hdeals : m.Deals event m') : m'.Assigned where
  started e x' hx' := by
    cases hx : m.state.executors[e]? with
    | none =>
      rw [hdeals.hires hx hx']
      simp
    | some x =>
      obtain ⟨y, hy, hfares⟩ := hdeals.fares hx
      obtain rfl := Option.some.inj (hx'.symm.trans hy)
      cases hfares with
      | same => exact h.started e _ hx
      | attach => simp
      | strike hcall =>
        obtain rfl := Option.some.inj (hx.symm.trans (h.striking e _ _ hcall))
        simp
      | finish hresult => simp [hresult]
  accepted e r hr := by
    have hbefore : ∃ i c o t, .accepted i (.memory c o) r t ∈ m.history := by
      rcases hdeals.of_executor? hr with hr | ⟨operation, hcall⟩
      · exact h.accepted e r hr
      · exact accepted_of_attaching hsane hcall
    obtain ⟨i, c, o, t, haccepted⟩ := hbefore
    exact ⟨i, c, o, t, hlater.history.subset haccepted⟩
  distinct e e' r hr hr' := by
    rcases hdeals.of_executor? hr with hr | ⟨operation, hcall⟩ <;>
      rcases hdeals.of_executor? hr' with hr' | ⟨operation', hcall'⟩
    · exact h.distinct e e' r hr hr'
    · exact absurd hr ((h.fresh _ r _ hcall').1 e)
    · exact absurd hr' ((h.fresh _ r _ hcall).1 e')
    · rw [hcall] at hcall'
      exact Option.some.inj (Call.attaching.inj hcall').1
  fresh k r operation hcall' := by
    cases hdeals with
    | quiet _ hcall hexecutors hstrikes =>
      obtain ⟨hnobody, hunstruck⟩ := h.fresh k r operation (hcall ▸ hcall')
      rw [hstrikes]
      exact ⟨fun e => executor?_of_executors hexecutors e ▸ hnobody e, hunstruck⟩
    | accept _ hcall hexecutors hstrikes =>
      rw [hcall] at hcall'
      obtain ⟨-, rfl, -⟩ := Call.attaching.inj hcall'
      rw [hstrikes]
      refine ⟨fun e hr => ?_, fun target hstruck => ?_⟩
      · rw [executor?_of_executors hexecutors] at hr
        obtain ⟨i, c, o, t, haccepted⟩ := h.accepted e _ hr
        exact Nat.lt_irrefl _ (hsane.accounted.recorded _ haccepted).2.1
      · exact Nat.lt_irrefl _ (numbered_of_struck hsane hstruck)
    | hire _ hcall | attachResult _ hcall | attach _ hcall | graspResult _ hcall | grasp _ hcall
    | strikeResult _ hcall | strike _ hcall | finish _ hcall =>
      rw [hcall] at hcall'
      cases hcall'
  striking e r target hcall' := by
    cases hdeals with
    | quiet _ hcall hexecutors _ =>
      rw [hexecutors]
      exact h.striking e r target (hcall ▸ hcall')
    | @grasp k r' target' x m' hidle hcall hx hresult habort hexecutors hstrikes =>
      rw [hcall] at hcall'
      obtain ⟨hk, rfl, -⟩ := Call.cancelling.inj hcall'
      obtain rfl := Option.some.inj hk
      rw [hexecutors, hx]
      -- it has its result, so it was started, and it was not cancelled since
      have hstarted := h.started k x hx
      obtain ⟨result, state⟩ := x
      cases state <;> simp_all [Executor.canAbort]
    | hire _ hcall | accept _ hcall | attachResult _ hcall | attach _ hcall | graspResult _ hcall
    | strikeResult _ hcall | strike _ hcall | finish _ hcall =>
      rw [hcall] at hcall'
      cases hcall'

end Assigned

/-! ## Answers add up -/

/-- The answers to the cancellations of an executor, and the cancellations of its result, after some
events. -/
structure Tally (m : Moment) (e : Nat) (events : List Event) (answers : List Bool) : Prop where
  /-- One cancellation succeeds. -/
  once : answers.count true ≤ 1
  /-- An executor that was cancelled refuses to be cancelled. -/
  spent : true ∈ answers → ∃ x, m.state.executors[e]? = some x ∧ x.canAbort = false
  /-- A cancellation of a result was asked for. -/
  asked : ∀ r target, m.call = .cancelling none r target → .act (.cancel r) ∈ events
  /-- A result that nobody else cancels is struck once for every success. -/
  counted : ∀ r, m.executor? e = some r → .act (.cancel r) ∉ events →
    m.strikes.countP (fun x => x.1 = r) = answers.count true

/-- An executor goes on to refuse cancellations. -/
theorem canAbort_of_goesOn {x x' : Executor}
    (h : x'.state = x.state ∨ x'.state ∈ x.state.followers) (hx : x.canAbort = false) :
    x'.canAbort = false := by
  obtain ⟨result, state⟩ := x
  obtain ⟨result', state'⟩ := x'
  cases state <;> cases state' <;> simp_all [Executor.canAbort, Streaming.followers]

namespace Tally

variable {events : List Event} {answers : List Bool}

theorem start (e : Nat) : ({} : Moment).Tally e [] [] where
  once := by simp
  spent := by simp
  asked := nofun
  counted := by simp [executor?]

/-- No cancellation of the executor strikes. -/
theorem keep (h : m.Tally e events answers) (hassigned : m.Assigned) (hemployed : m.Employed)
    (hdeals : m.Deals event m')
    (hcall : ∀ r target, m.call = .cancelling (some e) r target → event ≠ .resume)
    (hasked : ∀ r target, m'.call = .cancelling none r target →
      .act (.cancel r) ∈ events ++ [event])
    (hcounted : ∀ r, m'.executor? e = some r → .act (.cancel r) ∉ events →
      m'.strikes.countP (fun x => x.1 = r) = answers.count true) :
    m'.Tally e (events ++ [event]) (answers ++ (m.answer? e event).toList) := by
  have hcount : (answers ++ (m.answer? e event).toList).count true = answers.count true := by
    cases hnew : m.answer? e event with
    | none => simp
    | some b =>
      cases b with
      | false => simp
      | true =>
        obtain ⟨hevent, r, target, hcancelling⟩ := answer?_eq_true.mp hnew
        exact absurd hevent (hcall r target hcancelling)
  refine ⟨hcount ▸ h.once, fun htrue => ?_, hasked, fun r hr hfree => ?_⟩
  · rw [← List.count_pos_iff, hcount, List.count_pos_iff] at htrue
    obtain ⟨x, hx, habort⟩ := h.spent htrue
    obtain ⟨x', hx', hfares⟩ := hdeals.fares hx
    exact ⟨x', hx', canAbort_of_goesOn (hassigned.goesOn hemployed hx hfares) habort⟩
  · rw [hcount]
    exact hcounted r hr fun hold => hfree (List.mem_append_left _ hold)

theorem unspent (h : m.Tally e events answers) (hassigned : m.Assigned)
    (hnone : m.executor? e = none) : answers.count true = 0 := by
  refine List.count_eq_zero.mpr fun htrue => ?_
  obtain ⟨x, hx, habort⟩ := h.spent htrue
  have hstate : x.state = .notStarted := by
    rw [← hassigned.started e x hx, ← hnone, executor?, hx, Option.bind_some]
  simp [Executor.canAbort, hstate] at habort

/-- Nothing is struck. If the executor gets its result, the result was not struck before either. -/
theorem unstruck (h : m.Tally e events answers) (hassigned : m.Assigned) (hemployed : m.Employed)
    (hdeals : m.Deals event m') (hstrikes : m'.strikes = m.strikes) :
    ∀ r, m'.executor? e = some r → .act (.cancel r) ∉ events →
      m'.strikes.countP (fun x => x.1 = r) = answers.count true := by
  intro r hr hfree
  rw [hstrikes]
  rcases hdeals.of_executor? hr with hr | ⟨operation, hcall⟩
  · exact h.counted r hr hfree
  · rw [h.unspent hassigned (hemployed.attaching e r operation hcall)]
    refine List.countP_eq_zero.mpr fun x hx hstruck => ?_
    obtain ⟨r', target⟩ := x
    obtain rfl : r' = r := by simpa using hstruck
    exact (hassigned.fresh _ _ _ hcall).2 target hx

/-- Somebody else's result is struck. -/
theorem struckOther (h : m.Tally e events answers) (hdeals : m.Deals event m') {r : Nat}
    {target : Target} (hcall : ∀ r operation, m.call ≠ .attaching (some e) r operation)
    (hstrikes : m'.strikes = m.strikes ++ [(r, target)])
    (hother : m.executor? e = some r → .act (.cancel r) ∈ events) :
    ∀ r, m'.executor? e = some r → .act (.cancel r) ∉ events →
      m'.strikes.countP (fun x => x.1 = r) = answers.count true := by
  intro r' hr hfree
  have hr' := (hdeals.of_executor? hr).resolve_right fun ⟨operation, hattaching⟩ =>
    hcall r' operation hattaching
  have hne : ¬ r = r' := by
    rintro rfl
    exact hfree (hother hr')
  rw [hstrikes, List.countP_append, h.counted r' hr' hfree]
  simp [hne]

/-- A cancellation of the executor strikes, the first that does. -/
theorem succeed (h : m.Tally e events answers) (hassigned : m.Assigned) {r : Nat}
    {target : Target} (hcall : m.call = .cancelling (some e) r target) (hidle : m'.call = .idle)
    (hexecutors : m'.state.executors =
      m.state.executors.modify e fun x => { x with state := .cancelled })
    (hstrikes : m'.strikes = m.strikes ++ [(r, target)]) :
    m'.Tally e (events ++ [.resume]) (answers ++ (m.answer? e .resume).toList) := by
  have hx := hassigned.striking e r target hcall
  have hanswer : m.answer? e .resume = some true := answer?_eq_true.mpr ⟨rfl, r, target, hcall⟩
  have hzero : answers.count true = 0 := by
    refine List.count_eq_zero.mpr fun htrue => ?_
    obtain ⟨y, hy, habort⟩ := h.spent htrue
    obtain rfl := Option.some.inj (hx.symm.trans hy)
    cases habort
  have hx' : m'.state.executors[e]? = some ⟨some r, .cancelled⟩ := by
    rw [hexecutors, List.getElem?_modify, hx]
    simp
  rw [hanswer]
  refine ⟨by simp [hzero], fun _ => ⟨_, hx', rfl⟩, fun r' target' hcall' => ?_,
    fun r' hr hfree => ?_⟩
  · rw [hidle] at hcall'
    cases hcall'
  · obtain rfl : r = r' := by simpa [executor?, hx'] using hr
    have hr' : m.executor? e = some r := by rw [executor?, hx, Option.bind_some]
    have hbefore := h.counted r hr' fun hold => hfree (List.mem_append_left _ hold)
    rw [hstrikes, List.countP_append, hbefore, hzero]
    simp [hzero]

theorem deal (h : m.Tally e events answers) (hassigned : m.Assigned) (hemployed : m.Employed)
    (hdeals : m.Deals event m') :
    m'.Tally e (events ++ [event]) (answers ++ (m.answer? e event).toList) := by
  have hkeep := h.keep hassigned hemployed hdeals
  have hunstruck := h.unstruck hassigned hemployed hdeals
  have hdeals' := hdeals
  -- a call that is not the cancellation of a result was not asked for by anybody
  have hnobody : (∀ r target, m'.call ≠ .cancelling none r target) →
      ∀ r target, m'.call = .cancelling none r target →
        .act (.cancel r) ∈ events ++ [event] := fun hne r target hcall =>
    absurd hcall (hne r target)
  cases hdeals with
  | quiet hresume hcall hexecutors hstrikes =>
    refine hkeep (fun r target hcancelling hevent => ?_) (fun r target hcancelling => ?_)
      (hunstruck hstrikes)
    · rw [hresume hevent] at hcancelling
      cases hcancelling
    · exact List.mem_append_left _ (h.asked r target (hcall ▸ hcancelling))
  | hire _ hcall _ hstrikes | accept _ hcall _ hstrikes | grasp _ hcall _ _ _ _ hstrikes
  | finish _ hcall _ _ hstrikes =>
    exact hkeep (fun _ _ _ => by simp) (hnobody (by simp [hcall])) (hunstruck hstrikes)
  | graspResult _ hcall _ hstrikes =>
    refine hkeep (fun _ _ _ => by simp) (fun r target hcancelling => ?_) (hunstruck hstrikes)
    rw [hcall] at hcancelling
    obtain ⟨-, rfl, -⟩ := Call.cancelling.inj hcancelling
    exact List.mem_append_right _ (List.mem_singleton_self _)
  | attachResult hcall hidle _ hstrikes | attach hcall hidle _ hstrikes =>
    exact hkeep (by simp [hcall]) (hnobody (by simp [hidle])) (hunstruck hstrikes)
  | strikeResult hcall hidle _ hstrikes =>
    exact hkeep (by simp [hcall]) (hnobody (by simp [hidle]))
      (h.struckOther hdeals' (by simp [hcall]) hstrikes fun _ => h.asked _ _ hcall)
  | @strike k r target m' hcall hidle hexecutors hstrikes =>
    by_cases hk : k = e
    · subst hk
      exact h.succeed hassigned hcall hidle hexecutors hstrikes
    · refine hkeep (by simp [hcall, hk]) (hnobody (by simp [hidle]))
        (h.struckOther hdeals' (by simp [hcall]) hstrikes fun hr => ?_)
      have hresult : m.executor? k = some r := by
        rw [executor?, hassigned.striking k r target hcall, Option.bind_some]
      exact absurd (hassigned.distinct k e r hresult hr) hk

end Tally

end Moment

open Moment

theorem run_concat (events : List Event) (event : Event) :
    run (events ++ [event]) = (run events).perform event := by
  simp [run]

theorem deals_run (events : List Event) (event : Event) :
    (run events).Deals event ((run events).perform event) :=
  deals_perform (sane_run events) (ledger_run events) (employed_run events) event

theorem assigned_run (events : List Event) : (run events).Assigned := by
  induction events using List.reverseRecOn with
  | nil => exact Assigned.start
  | append_singleton events event ih =>
    rw [run_concat]
    have hsane := sane_run events
    exact ih.deal hsane (hsane.event event).2 (deals_run events event)

theorem tally_run (events : List Event) (e : Nat) :
    (run events).Tally e events (answers e {} events) := by
  induction events using List.reverseRecOn with
  | nil => exact Tally.start e
  | append_singleton events event ih =>
    rw [run_concat, answers_concat]
    exact ih.deal (assigned_run events) (employed_run events) (deals_run events event)

/-- An executor that is complete stays so, and no cancellation of it succeeds any more. -/
theorem complete_stays (events later : List Event) {e : Nat} {x : Executor}
    (hx : (run events).state.executors[e]? = some x) (hcomplete : x.state = .complete) :
    (∃ x', (run (events ++ later)).state.executors[e]? = some x' ∧ x'.state = .complete) ∧
      true ∉ answers e (run events) later := by
  induction later using List.reverseRecOn with
  | nil => exact ⟨⟨x, by simpa using hx, hcomplete⟩, by simp [answers]⟩
  | append_singleton later event ih =>
    obtain ⟨⟨y, hy, hstate⟩, hrefused⟩ := ih
    have hassigned := assigned_run (events ++ later)
    have hrun : later.foldl perform (run events) = run (events ++ later) := by simp [run]
    rw [← List.append_assoc, run_concat, answers_append, hrun]
    constructor
    · obtain ⟨y', hy', hfares⟩ := (deals_run (events ++ later) event).fares hy
      refine ⟨y', hy', ?_⟩
      rcases hassigned.goesOn (employed_run _) hy hfares with hsame | hnext
      · exact hsame.trans hstate
      · rw [hstate] at hnext
        cases hnext
    · rw [List.mem_append, not_or]
      refine ⟨hrefused, fun htrue => ?_⟩
      have hanswer : (run (events ++ later)).answer? e event = some true := by
        simpa [answers] using htrue
      obtain ⟨-, r, target, hcall⟩ := answer?_eq_true.mp hanswer
      obtain rfl := Option.some.inj (hy.symm.trans (hassigned.striking e r target hcall))
      cases hstate

/-- However often the host cancels an executor, before and after the promotion of its query and the end
of its rows, one of these cancellations succeeds at most, and none without a query. If nobody else
cancels the result of the executor, the operation of the query and its stream, if there is one, have
together counted one cancellation for every one that succeeded. Once the executor is complete none
succeeds any more. Its state starts out as not started; with every event it stays what it is, or
becomes started, or cancelled or complete after that, or complete after it was cancelled. An answer to
a cancellation that nothing interrupts is the one that the executor gives. -/
theorem cancelled_once (events : List Event) (e : Nat) :
    (answers e {} events).count true ≤ 1 ∧
    ((run events).executor? e = none → true ∉ answers e {} events) ∧
    (∀ r, (run events).executor? e = some r → .act (.cancel r) ∉ events →
      ∃ i c o t n, .accepted i (.memory c o) r t ∈ (run events).history ∧
        (run events).state.cancels? (.pending (.memory c o)) = some n ∧
        (∀ t' k error alive, .reported r t' (some k) error alive ∈ (run events).history →
          ∃ l, (run events).state.cancels? (.active k) = some l ∧
            n + l = (answers e {} events).count true) ∧
        ((∀ t' k error alive, .reported r t' (some k) error alive ∉ (run events).history) →
          n = (answers e {} events).count true)) ∧
    (∀ x, (run events).state.executors[e]? = some x →
      (x.state = .complete → ∀ later, true ∉ answers e (run events) later) ∧
      ∀ event, ∃ x', ((run events).perform event).state.executors[e]? = some x' ∧
        (x'.state = x.state ∨ x'.state ∈ x.state.followers)) ∧
    ((run events).state.executors[e]? = none → ∀ event x,
      ((run events).perform event).state.executors[e]? = some x → x.state = .notStarted) ∧
    ((run events).call = .idle →
      answers e (run events) [.act (.executorAbort e), .resume] =
        [((run events).state.executorAbort e).1]) := by
  have hsane := sane_run events
  have hledger := ledger_run events
  have hassigned := assigned_run events
  have htally := tally_run events e
  refine ⟨htally.once, fun hnone => ?_, fun r hr hfree => ?_, fun x hx => ⟨?_, fun event => ?_⟩,
    fun hnone event x hx => ?_, fun hidle => (answers_executorAbort hidle e).1⟩
  · exact List.count_eq_zero.mp (htally.unspent hassigned hnone)
  · obtain ⟨i, c, o, t, haccepted⟩ := hassigned.accepted e r hr
    obtain ⟨⟨c', o', x, heq, -, -, ho⟩, -⟩ := hsane.accounted.recorded _ haccepted
    obtain ⟨rfl, rfl⟩ := Operation.memory.inj heq
    have hcount := htally.counted r hr hfree
    have hoperation : (run events).state.cancels? (.pending (.memory c o)) =
        some ((run events).state.engine.connector c).operations[o].cancels := by
      rw [State.cancels?, List.getElem?_eq_getElem ho, Option.map_some]
    have hn := counted_run events _ _ hoperation
    refine ⟨i, c, o, t, _, haccepted, hoperation, fun t' k error alive hreported => ?_,
      fun hnone => ?_⟩
    · obtain ⟨j, operation, -, hmade⟩ := hsane.accounted.recorded _ hreported
      obtain ⟨y, hy, -⟩ := hmade k rfl
      have hstream : (run events).state.cancels? (.active k) = some y.cancels := by
        rw [State.cancels?, hy, Option.map_some]
      refine ⟨y.cancels, hstream, ?_⟩
      rw [← hcount, hledger.countP_streamed hsane haccepted hreported, hn,
        counted_run events _ _ hstream]
    · rw [← hcount, hledger.countP_unstreamed hsane haccepted hnone, hn]
  · exact fun hcomplete later => (complete_stays events later hx hcomplete).2
  · obtain ⟨x', hx', hfares⟩ := (deals_run events event).fares hx
    exact ⟨x', hx', hassigned.goesOn (employed_run events) hx hfares⟩
  · rw [(deals_run events event).hires hnone hx]

/-- An executor is cancelled before it has a query, after the engine has answered a pull with the end of
the rows, once more after that, and again when the host was told of the end. -/
def lateRun : List Event :=
  [.act .connector, .act (.respond 0 {}), .act (.create 0 { connection := "mem" }), .act .executor,
    .act (.executorAbort 0),
    .act (.executorQuery 0 0 { statement := "a" } "query"), .resume,
    .act (.executorQuery 0 0 { statement := "b" } "again"),
    .turn 0, .turn 0, .act (.executorNext 0 "end"), .turn 0, .turn 0, .turn 0,
    .act (.executorAbort 0), .resume, .act (.executorAbort 0),
    .act .dispatch, .act .dispatch, .act (.executorAbort 0)]

/-- The second cancellation succeeds. It strikes the stream, and the executor is complete in the end. -/
theorem cancelled_once_in_lateRun :
    answers 0 {} lateRun = [false, true, false, false] ∧
    (run lateRun).state.executors = [⟨some 0, .complete⟩] ∧
    (∃ n l, (run lateRun).state.cancels? (.pending (.memory 0 0)) = some n ∧
      (run lateRun).state.cancels? (.active 0) = some l ∧
      n + l = (answers 0 {} lateRun).count true) ∧
    ∀ later, true ∉ answers 0 (run lateRun) later := by
  have hanswers : answers 0 {} lateRun = [false, true, false, false] := by decide +kernel
  have hexecutors : (run lateRun).state.executors = [⟨some 0, .complete⟩] := by decide +kernel
  have hx : (run lateRun).state.executors[0]? = some ⟨some 0, .complete⟩ := by
    rw [hexecutors]
    rfl
  obtain ⟨-, -, hcounts, hstates, -, -⟩ := cancelled_once lateRun 0
  refine ⟨hanswers, hexecutors, ?_, (hstates _ hx).1 rfl⟩
  obtain ⟨i, c, o, t, n, haccepted, hn, hstreamed, -⟩ :=
    hcounts 0 (by rw [executor?, hx]; rfl) (by simp [lateRun])
  obtain ⟨-, hoperation, -⟩ := (ledger_run lateRun).accepted_unique haccepted
    (List.mem_of_getElem? (i := 1) rfl)
  cases hoperation
  obtain ⟨l, hl, hsum⟩ := hstreamed 0 0 none true (List.mem_of_getElem? (i := 3) rfl)
  exact ⟨n, l, hn, hl, hsum⟩

end HostBridge.Session
