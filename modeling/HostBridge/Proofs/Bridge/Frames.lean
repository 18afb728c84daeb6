import HostBridge.Proofs.Bridge.Machine

/-!
# What lies underneath

A poll or a wait that runs a callback waits for it: until the callback is done, steps concern the
frames above and neither see nor change what lies underneath. The one thing that looks at the whole
stack is the teardown of a host that was let go, and it only asks whether there is anything. So the
steps above a frame are the same whatever that frame is.
-/

namespace HostBridge.Bridge.State

variable {s : State} {base : List Frame}

/-- The state with further frames underneath. -/
def atop (s : State) (base : List Frame) : State :=
  { s with stack := s.stack ++ base }

@[simp]
theorem atop_host (s : State) (base : List Frame) : (s.atop base).host = s.host := rfl

@[simp]
theorem atop_held (s : State) (base : List Frame) : (s.atop base).held = s.held := rfl

@[simp]
theorem atop_cookies (s : State) (base : List Frame) : (s.atop base).cookies = s.cookies := rfl

@[simp]
theorem atop_trace (s : State) (base : List Frame) : (s.atop base).trace = s.trace := rfl

@[simp]
theorem atop_answer (s : State) (base : List Frame) : (s.atop base).answer = s.answer := rfl

@[simp]
theorem atop_stack (s : State) (base : List Frame) : (s.atop base).stack = s.stack ++ base := rfl

/-! ## Actions -/

/-- A callback finds the cookies that it has itself in its own frame. -/
theorem cookie?_atop (hbusy : s.stack ≠ []) (source : Source) (base : List Frame) :
    (s.atop base).cookie? source = s.cookie? source := by
  obtain ⟨frame, rest, hstack⟩ := List.exists_cons_of_ne_nil hbusy
  cases source with
  | table name => rfl
  | owned place | carried place => simp [cookie?, hstack]

theorem without_atop (hbusy : s.stack ≠ []) (source : Source) (base : List Frame) :
    (s.atop base).without source = (s.without source).atop base := by
  obtain ⟨frame, rest, hstack⟩ := List.exists_cons_of_ne_nil hbusy
  cases source with
  | table name => rfl
  | owned place | carried place => simp [without, atop, hstack]

theorem takeCookie_atop (hbusy : s.stack ≠ []) (source : Source) (base : List Frame) :
    (s.atop base).takeCookie source =
      ((s.takeCookie source).1, (s.takeCookie source).2.atop base) := by
  simp only [takeCookie, cookie?_atop hbusy, without_atop hbusy]

theorem without_stack_ne_nil (hbusy : s.stack ≠ []) (source : Source) :
    (s.without source).stack ≠ [] := by
  obtain ⟨cookies, stack, hwithout, hbare⟩ := without_eq s source
  rw [hwithout]
  rintro rfl
  exact hbusy (List.map_eq_nil_iff.mp hbare.symm)

theorem takeCookies_atop (hbusy : s.stack ≠ []) (sources : List Source) (base : List Frame) :
    (s.atop base).takeCookies sources =
      ((s.takeCookies sources).1, (s.takeCookies sources).2.atop base) := by
  induction sources generalizing s with
  | nil => rfl
  | cons source sources ih =>
    have hrest := ih (without_stack_ne_nil hbusy source)
    simp only [takeCookies, takeCookie_atop hbusy]
    simp only [takeCookie, hrest]

theorem register_atop (hbusy : s.stack ≠ []) (name label : String) (script : List Action)
    (owns : List Source) (base : List Frame) :
    (s.atop base).register name label script owns =
      (s.register name label script owns).atop base := by
  simp only [register, takeCookies_atop hbusy, atop_host]
  split <;> rfl

theorem foldl_note_atop (ns : List Log.Notice) (s : State) (base : List Frame) :
    ns.foldl note (s.atop base) = (ns.foldl note s).atop base := by
  induction ns generalizing s with
  | nil => rfl
  | cons n ns ih => exact ih (s.note n)

theorem invoke_atop (s : State) (c : Cookie) (work : Work) (elsewhere : Bool)
    (base : List Frame) :
    (s.atop base).invoke c work elsewhere = (s.invoke c work elsewhere).atop base := by
  rcases hinvoke : s.host.invoke c work with ⟨queued, host⟩
  have hnotes := foldl_note_atop c.refused { s with host } base
  simp only [invoke, atop_host, hinvoke]
  cases queued with
  | true => rfl
  | false =>
    cases elsewhere with
    | true => rfl
    | false => exact congrArg (releaseAll · work.carry) hnotes

theorem teardown_atop (s : State) (base : List Frame) :
    (s.atop base).teardown = s.teardown.atop base := by
  have hfold : ∀ (es : List (Entry Callback)) (t : State),
      es.foldl discard (t.atop base) = (es.foldl discard t).atop base := by
    intro es
    induction es with
    | nil => exact fun t => rfl
    | cons e es ih => exact fun t => ih (t.discard e)
  simp only [teardown, atop_host]
  obtain ⟨_ | ⟨messages, entries⟩, host⟩ := s.host.teardown
  · rfl
  · exact hfold entries (({ s with host }.discardMessages messages).note
      (.hostTornDown messages.length entries.length))

/-- With something underneath, a host that was let go is not torn down yet. -/
theorem teardownIfGone_atop (s : State) (hbase : base ≠ []) :
    (s.atop base).teardownIfGone = s.atop base := by
  simp [teardownIfGone, hbase]

theorem exists_start_atop (hbusy : s.stack ≠ []) (a : Action) :
    ∃ t : State, ∀ base, base ≠ [] → (s.atop base).start a = t.atop base := by
  cases a with
  | register name label script owns =>
    exact ⟨s.start (.register name label script owns), fun base _ =>
      congrArg (reply · .unit) (register_atop hbusy name label script owns base)⟩
  | label source =>
    refine ⟨s.start (.label source), fun base _ => ?_⟩
    simp only [start, cookie?_atop hbusy]
    split <;> rfl
  | invoke source value elsewhere carry =>
    refine ⟨s.start (.invoke source value elsewhere carry), fun base _ => ?_⟩
    have hcarry := takeCookies_atop (without_stack_ne_nil hbusy source) carry base
    simp only [start, takeCookie_atop hbusy]
    simp only [takeCookie, hcarry]
    split
    · rfl
    · exact congrArg (reply · .unit) (invoke_atop _ _ _ elsewhere base)
  | drop source =>
    refine ⟨s.start (.drop source), fun base _ => ?_⟩
    simp only [start, takeCookie_atop hbusy]
    simp only [takeCookie]
    cases s.cookie? source <;> rfl
  | poll =>
    refine ⟨s.start .poll, fun base _ => ?_⟩
    by_cases hheld : s.held = true
    · simp only [start, atop_held, hheld, if_true]
      rfl
    · simp only [start, atop_held, hheld]
      rfl
  | runUntil condition =>
    refine ⟨s.start (.runUntil condition), fun base _ => ?_⟩
    by_cases hheld : s.held = true
    · simp only [start, atop_held, hheld, if_true]
      rfl
    · simp only [start, atop_held, hheld]
      rfl
  | teardown =>
    refine ⟨s.start .teardown, fun base _ => ?_⟩
    by_cases hheld : s.held = true
    · simp only [start, atop_held, hheld, if_true]
      exact congrArg (reply · .unit) (teardown_atop s base)
    · simp only [start, atop_held, hheld]
      rfl
  | dropHost =>
    refine ⟨({ s with held := false } : State).reply (.flag s.held), fun base hbase => ?_⟩
    exact congrArg (reply · (.flag s.held)) (teardownIfGone_atop { s with held := false } hbase)
  | unreadable verb reason => exact ⟨s.start (.unreadable verb reason), fun base _ => rfl⟩

/-! ## Messages -/

/-- A message is dispatched in the same way whatever has taken it from the queue, and whatever lies
underneath. -/
theorem exists_deliver_atop (s : State) (m : Message Work) :
    ∃ (t : State) (ran : Bool), ∀ stack (resume : Bool → Frame) (rest : List Frame),
      ({ s with stack } : State).deliver m resume rest = t.atop (resume ran :: rest) := by
  rcases hdispatch : s.host.dispatch m with ⟨fate, host⟩
  generalize hnotice : fate.notice = notice
  cases fate with
  | late label work | missing label key work =>
    refine ⟨(({ s with host, stack := [] } : State).note notice).releaseAll work.carry, false,
      fun stack resume rest => ?_⟩
    simp only [deliver, hdispatch, hnotice]
    rfl
  | run label entry work =>
    refine ⟨{ (({ s with host } : State).note notice).record
      (.invoked entry.ticket entry.callback.name work.value) with
        stack := [.running entry.callback.name none entry.callback.script entry.callback.owns
          work.carry] }, true, fun stack resume rest => ?_⟩
    simp only [deliver, hdispatch, hnotice]
    rfl
  | released label entry =>
    cases entry with
    | none =>
      refine ⟨({ s with host, stack := [] } : State).note notice, false,
        fun stack resume rest => ?_⟩
      simp only [deliver, hdispatch, hnotice]
      rfl
    | some e =>
      refine ⟨(({ s with host, stack := [] } : State).note notice).discard e, false,
        fun stack resume rest => ?_⟩
      simp only [deliver, hdispatch, hnotice]
      rfl

theorem exists_take_atop (s : State) (m : Message Work) (resume : Bool → Frame)
    (rest : List Frame) : ∃ t : State, ∀ stack base,
      ({ s with stack } : State).deliver m resume (rest ++ base) = t.atop base := by
  obtain ⟨t, ran, ht⟩ := exists_deliver_atop s m
  refine ⟨t.atop (resume ran :: rest), fun stack base => (ht stack resume _).trans ?_⟩
  simp [atop]

/-- A poll or a wait that stops does not tear the host down, as long as something lies underneath. -/
theorem stop_atop (hbase : base ≠ []) (s : State) (rest : List Frame) (o : Occurrence)
    (answer : Answer) :
    (({ s with stack := rest ++ base }.record o).reply answer).teardownIfGone =
      (({ s with stack := rest }.record o).reply answer).atop base :=
  teardownIfGone_atop ((({ s with stack := rest } : State).record o).reply answer) hbase

/-! ## Steps -/

theorem exists_stepPoll_atop (s : State) (count : Nat) (rest : List Frame) :
    ∃ t : State, ∀ base, base ≠ [] → (s.atop base).stepPoll count (rest ++ base) = t.atop base := by
  cases hqueue : s.host.queue with
  | nil =>
    refine ⟨({ s with stack := rest }.record (.polled count)).reply (.count count),
      fun base hbase => ?_⟩
    simp only [stepPoll, Host.receive, atop_host, hqueue]
    exact stop_atop hbase s rest _ _
  | cons m queue =>
    obtain ⟨t, ht⟩ := exists_take_atop { s with host := { s.host with queue } } m
      (fun ran => .polling (if ran then count + 1 else count)) rest
    refine ⟨t, fun base _ => ?_⟩
    simp only [stepPoll, Host.receive, atop_host, hqueue]
    exact ht _ base

theorem exists_stepWait_atop (s : State) (condition : Condition) (checks count : Nat)
    (rest : List Frame) : ∃ t : State, ∀ base, base ≠ [] →
      (s.atop base).stepWait condition checks count (rest ++ base) = t.atop base := by
  by_cases hfirst : condition (checks + 1) s.trace = true
  · refine ⟨({ s with stack := rest }.record (.waited count)).reply
      (.awaited (.ok ()) (checks + 1)), fun base hbase => ?_⟩
    simp only [stepWait, atop_trace, hfirst, if_true]
    exact stop_atop hbase s rest _ _
  by_cases hclosed : s.host.closed = true
  · refine ⟨({ s with stack := rest }.record (.waited count)).reply
      (.awaited (.error .hostClosed) (checks + 1)), fun base hbase => ?_⟩
    simp only [stepWait, atop_trace, atop_host, hfirst, hclosed, if_true]
    exact stop_atop hbase s rest _ _
  cases hqueue : s.host.queue with
  | nil =>
    by_cases hlast : condition (checks + 2) s.trace = true
    · refine ⟨({ s with stack := rest }.record (.waited count)).reply
        (.awaited (.ok ()) (checks + 2)), fun base hbase => ?_⟩
      simp only [stepWait, Host.receive, atop_trace, atop_host, hfirst, hclosed, hqueue, hlast,
        if_true]
      exact stop_atop hbase s rest _ _
    · refine ⟨({ s with stack := rest }.record (.waited count)).reply
        (.awaited (.error (.system .timedOut)) (checks + 2)), fun base hbase => ?_⟩
      simp only [stepWait, Host.receive, atop_trace, atop_host, hfirst, hclosed, hqueue, hlast]
      exact stop_atop hbase s rest _ _
  | cons m queue =>
    obtain ⟨t, ht⟩ := exists_take_atop { s with host := { s.host with queue } } m
      (fun ran => .waiting condition (checks + 1) (if ran then count + 1 else count)) rest
    refine ⟨t, fun base _ => ?_⟩
    simp only [stepWait, Host.receive, atop_trace, atop_host, hqueue]
    rw [if_neg hfirst, if_neg hclosed]
    exact ht _ base

/-- A step of the frames above does the same whatever lies underneath, as long as something does. -/
theorem exists_step_atop (hbusy : s.stack ≠ []) :
    ∃ t : State, ∀ base, base ≠ [] → (s.atop base).step = t.atop base := by
  cases hstack : s.stack with
  | nil => exact absurd hstack hbusy
  | cons frame rest =>
    have hatop : ∀ base, (s.atop base).stack = frame :: (rest ++ base) := by simp [hstack]
    cases frame with
    | running name current script owns carry =>
      cases hanswer : s.answer with
      | some a =>
        cases current with
        | none =>
          refine ⟨{ s with stack := .running name none script owns carry :: rest, answer := none },
            fun base _ => ?_⟩
          simp only [step, hatop, atop_answer, hanswer]
          rfl
        | some verb =>
          refine ⟨({ s with
            stack := .running name (some verb) script owns carry :: rest
            answer := none } : State).record (.stepped name verb a), fun base _ => ?_⟩
          simp only [step, hatop, atop_answer, hanswer]
          rfl
      | none =>
        cases script with
        | nil =>
          refine ⟨({ s with stack := rest }.releaseAll owns).releaseAll carry, fun base _ => ?_⟩
          simp only [step, hatop, atop_answer, hanswer]
          rfl
        | cons a script =>
          obtain ⟨t, ht⟩ := exists_start_atop (s := { s with
            stack := .running name (some a.verb) script owns carry :: rest
            answer := none }) (List.cons_ne_nil _ _) a
          refine ⟨t, fun base hbase => ?_⟩
          simp only [step, hatop, atop_answer, hanswer]
          exact ht base hbase
    | polling count =>
      simp only [step, hatop]
      exact exists_stepPoll_atop s count rest
    | waiting condition checks count =>
      simp only [step, hatop]
      exact exists_stepWait_atop s condition checks count rest

end HostBridge.Bridge.State
