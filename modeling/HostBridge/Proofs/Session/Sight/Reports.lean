import HostBridge.Proofs.Session.Sight.Turns

/-!
# Reports in sight

Promotions are reported by turns of loops and by nothing else. What is reported of a query comes
from the chore in front of its loop, once it has looked: whether it saw a cancellation, and else its
response. So for the connection in sight it can be told from the sight.
-/

namespace HostBridge.Session

namespace Moment

variable {m : Moment} {a b : Nat}

theorem reports_append {r : Nat} {event : Event} {os : List Observation}
    (hhistory : (m.perform event).history = m.history ++ os) :
    m.reports r event = os.filterMap ((m.perform event).reportOf? r) := by
  rw [reports, hhistory, List.drop_left]

theorem reports_eq_nil {event : Event} {os : List Observation}
    (hhistory : (m.perform event).history = m.history ++ os) (hos : ∀ o ∈ os, o.report? = none)
    (r : Nat) : m.reports r event = [] := by
  rw [reports_append hhistory]
  refine List.filterMap_eq_nil_iff.mpr fun o ho => ?_
  have hnone := hos o ho
  cases o <;> simp_all [reportOf?]

theorem history_act (m : Moment) (deed : Deed) :
    ∃ os, (m.act deed).history = m.history ++ os ∧ ∀ o ∈ os, o.report? = none := by
  have hsame : ∀ s : State, ∃ os, (m.having s).history = m.history ++ os ∧
      ∀ o ∈ os, o.report? = none := fun s => ⟨[], (List.append_nil _).symm, by simp⟩
  have hnone : ∃ os, m.history = m.history ++ os ∧ ∀ o ∈ os, o.report? = none :=
    ⟨[], (List.append_nil _).symm, by simp⟩
  have hsubmitted : ∀ e i callback submitted, ∃ os,
      (m.submitted e i callback submitted).history = m.history ++ os ∧
        ∀ o ∈ os, o.report? = none := by
    intro e i callback submitted
    obtain ⟨_ | ⟨r, operation⟩, state⟩ := submitted
    · simp only [Moment.submitted]
      split
      · exact hnone
      · exact ⟨_, rfl, by simp⟩
    · exact ⟨_, rfl, by simp⟩
  have hnext : ∀ r name e, ∃ os, (m.next r (.row name e)).history = m.history ++ os ∧
      ∀ o ∈ os, o.report? = none := by
    intro r name e
    refine ⟨_, rfl, fun o ho => ?_⟩
    rcases List.mem_cons.mp ho with rfl | ho
    · rfl
    · cases hstream : (m.state.target? r).bind Target.stream? with
      | none => simp [hstream, State.observe] at ho
      | some k =>
        rcases m.state.engine.pull_fst k (m.state.host.register rowLabel (.row name e)).1 with
          hpull | ⟨row, hpull⟩ <;> simp [hstream, hpull, State.observe] at ho
        rw [ho]
        rfl
  cases deed with
  | connector | create | dropResult | executor | dropExecutor | destroy | dropConnection
  | dispatch => exact hsame _
  | respond c response =>
    simp only [act]
    split
    · exact ⟨_, rfl, by simp⟩
    · exact hnone
  | query i request name => exact hsubmitted _ _ _ _
  | executorQuery e i request name => exact hsubmitted _ _ _ _
  | next r name => exact hnext r name none
  | cancel r =>
    simp only [act]
    split <;> exact hnone
  | executorNext e name =>
    simp only [act]
    split
    · exact hsame _
    · exact hnext _ name (some e)
  | executorAbort e =>
    simp only [act]
    split <;> exact hnone

theorem reports_act (m : Moment) (r : Nat) (deed : Deed) : m.reports r (.act deed) = [] := by
  cases hcall : m.call with
  | idle =>
    obtain ⟨os, hos, hreport⟩ := history_act m deed
    exact reports_eq_nil (by simp only [perform, hcall]; exact hos) hreport r
  | attaching | cancelling =>
    exact reports_eq_nil (by simp only [perform, hcall]; exact (List.append_nil _).symm) (by simp) r

/-- A turn that reports no promotion. -/
theorem reports_turn_eq_nil {l : Nat}
    (hnone : ∀ o ∈ m.state.observe (m.state.engine.turn l).1, o.report? = none) (r : Nat) :
    m.reports r (.turn l) = [] := by
  have hhistory : (m.perform (.turn l)).history =
      m.history ++ (m.state.glimpse l ++ m.state.observe (m.state.engine.turn l).1) :=
    List.append_assoc ..
  refine reports_eq_nil hhistory (fun o ho => ?_) r
  rcases List.mem_append.mp ho with hlook | hobserved
  · obtain ⟨t, cancelled, rfl⟩ := State.exists_of_mem_glimpse hlook
    rfl
  · exact hnone o hobserved

/-- A turn reports a promotion whose task is in front and has looked. -/
theorem reports_settled (h : m.Regular) {key c o : Nat} {response : Engine.Response}
    {timer : Engine.Timer} {p : Promotion} {seen : Bool}
    (hfront : m.state.engine.front? b = some (key, .promote c o response timer p))
    (hfound : (m.state.engine.worker b).found = some (.flag seen)) (r : Nat) :
    m.reports r (.turn b) =
      if p.result = r then [Sight.reported b response seen] else [] := by
  obtain ⟨stream, error, engine, hturn, hsettled⟩ := Engine.State.turn_settle hfront hfound
  obtain ⟨host, alive, heq⟩ := turn_promoted h.sane hturn
  have hhistory : (m.perform (.turn b)).history =
      m.history ++ [.reported p.result p.cookie.ticket stream error alive] := by rw [heq]
  rw [reports_append hhistory, heq, reported_of_settled hsettled hfound]
  by_cases hr : p.result = r <;> simp [reportOf?, hr]

theorem reports_turn (h : m.Regular) (r : Nat) :
    m.reports r (.turn b) = (m.sight a b).report b r := by
  have hsilent : ∀ {completion engine}, m.state.engine.turn b = (completion, engine) →
      (∀ o ∈ m.state.observe completion, o.report? = none) → m.reports r (.turn b) = [] :=
    fun hturn hnone => reports_turn_eq_nil (by rw [hturn]; exact hnone) r
  unfold Sight.report
  cases hmust : (m.state.engine.worker b).mustLook with
  | true =>
    rw [hsilent (Engine.State.turn_of_mustLook hmust) (by simp [State.observe]),
      h.sane.sight_front?, Engine.State.front?, if_pos hmust]
    rfl
  | false =>
    obtain ⟨key, t, hfront⟩ := h.sane.orderly.sound.exists_front? hmust
    have hseen := found_sight (a := a) hfront
    rw [h.sane.sight_front?, hseen, hfront]
    cases t with
    | promote c o response timer p =>
      cases hfound : (m.state.engine.worker b).found with
      | none =>
        cases hsleep : m.state.engine.mustSleep c o response timer with
        | true =>
          rw [hsilent (Engine.State.turn_sleep hfront hfound hsleep) (by simp [State.observe])]
          rfl
        | false =>
          rw [hsilent (Engine.State.turn_check hfront hfound (.promote hsleep))
            (by simp [State.observe])]
          rfl
      | some x =>
        cases x with
        | flag seen => exact reports_settled h hfront hfound r
        | row row =>
          obtain ⟨-, rest, hready, ht⟩ := Engine.State.front?_eq_some.mp hfront
          exact (h.sane.orderly.sound.finds hfound hready ht).elim
    | pull k cookie =>
      refine Eq.trans (reports_turn_eq_nil (fun o ho => ?_) r) (by simp [Chore.ofTask])
      cases hfound : (m.state.engine.worker b).found with
      | none => simp [Engine.State.turn_check hfront hfound .pull, State.observe] at ho
      | some x =>
        cases x with
        | flag seen => simp [Engine.State.turn_draw hfront hfound, State.observe] at ho
        | row row =>
          simp only [Engine.State.turn_pull hfront hfound, State.observe, List.mem_singleton] at ho
          rw [ho]
          rfl
    | close i =>
      rw [hsilent (Engine.State.turn_close hfront) (by simp [State.observe])]
      simp [Chore.ofTask]
    | park => exact (h.sane.orderly.due b key _ (Engine.State.job?_of_front? hfront)).elim

/-- What an event reports of a result that belongs to nobody else is in sight. -/
theorem reports_eq (h : m.Regular) {r : Nat} (howner : ∀ i, m.owns i r = true → i = b)
    (event : Event) : m.reports r event = (m.sight a b).reports b r event := by
  have hnone : ∀ {event}, (m.perform event).history = m.history → m.reports r event = [] :=
    fun heq => reports_eq_nil (heq.trans (List.append_nil _).symm) (by simp) r
  cases event with
  | act deed => exact reports_act m r deed
  | resume =>
    have hhistory : ∃ os, (m.perform .resume).history = m.history ++ os ∧
        ∀ o ∈ os, o.report? = none := by
      simp only [perform, resume]
      split
      · exact ⟨[], (List.append_nil _).symm, by simp⟩
      · exact ⟨[], (List.append_nil _).symm, by simp⟩
      · exact ⟨[], (List.append_nil _).symm, by simp⟩
      · exact ⟨_, rfl, by simp⟩
      · exact ⟨_, rfl, by simp⟩
    obtain ⟨os, hos, hreport⟩ := hhistory
    exact reports_eq_nil hos hreport r
  | turn l =>
    simp only [Sight.reports]
    split
    · next hl =>
      subst hl
      exact reports_turn h r
    · next hl =>
      have hturned := Engine.State.turned_turn h.sane.orderly.sound l
      cases hturn : (m.state.engine.turn l).1 with
      | none => exact reports_turn_eq_nil (by simp [hturn, State.observe]) r
      | some completion =>
        rw [hturn] at hturned
        generalize (m.state.engine.turn l).2 = engine at hturned
        cases hturned with
        | pull | close => exact reports_turn_eq_nil (by simp [hturn, State.observe]) r
        | @report _ _ _ _ _ p _ _ _ _ htask _ =>
          have hdue := (h.sane.orderly.due l _ _ htask).1
          have hne : p.result ≠ r := by
            rintro rfl
            exact hl (howner l (owns_iff.mpr ⟨_, _, hdue⟩))
          have hhistory : (m.perform (.turn l)).history = m.history ++ (m.state.glimpse l ++
              m.state.observe (m.state.engine.turn l).1) := List.append_assoc ..
          rw [reports_append hhistory, glimpse_of_report (Prod.ext hturn rfl), hturn]
          simp [State.observe, reportOf?, hne]
  | elapse l key =>
    refine hnone ?_
    simp only [perform]
    split <;> rfl
  | reap | reapers => exact hnone rfl

end Moment

end HostBridge.Session
