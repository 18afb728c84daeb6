import HostBridge.Proofs.Bridge.Tally

/-!
# Calls are delivered in order

Cookies are invoked by the program, by running callbacks and by other threads. Callbacks begin to run
in the order in which the calls were queued, each at most once, however polls and waits are nested in
each other. A poll that returns on an open host leaves no call behind, and what polls return and
waits run adds up.
-/

namespace HostBridge.Bridge.State

variable {callbacks : List Callback} {s : State}

/-! ## Who asks for a call -/

/-- The registration that an action asks a call for: that of an armed cookie of an open host. -/
def invokes (s : State) : Action → List Nat
  | .invoke source _ _ _ =>
    match s.cookie? source with
    | some c => if c.isArmed && !s.host.closed then [c.ticket] else []
    | none => []
  | _ => []

/-- The registration that the next step asks a call for. -/
def nextInvokes (s : State) : List Nat :=
  match s.stack, s.answer with
  | .running _ _ (a :: _) _ _ :: _, none => s.invokes a
  | _, _ => []

theorem invokes_congr {s s' : State} (h : SameReach s s') (hhost : s'.host = s.host) (a : Action) :
    s'.invokes a = s.invokes a := by
  cases a <;> simp only [invokes, h.cookie?, hhost]

theorem requests_record_of_none {o : Occurrence} (ho : o.requested? = none) (s : State) :
    (s.record o).requests = s.requests := by
  simp [requests, record, ho]

theorem requests_foldl_note (s : State) (ns : List Log.Notice) :
    (ns.foldl note s).requests = s.requests := by
  induction ns generalizing s with
  | nil => rfl
  | cons n ns ih => exact (ih _).trans (requests_record_of_none rfl s)

theorem requests_foldl_discard (es : List (Entry Callback)) (s : State) :
    (es.foldl discard s).requests = s.requests := by
  induction es generalizing s with
  | nil => rfl
  | cons e es ih => exact (ih _).trans (requests_record_of_none rfl s)

theorem requests_teardown (s : State) : s.teardown.requests = s.requests := by
  unfold teardown
  split
  · rfl
  · rw [requests_foldl_discard]
    exact requests_record_of_none rfl _

theorem requests_teardownIfGone (s : State) : s.teardownIfGone.requests = s.requests := by
  unfold teardownIfGone
  split
  · exact requests_teardown s
  · rfl

theorem requests_takeCookies (s : State) (sources : List Source) :
    (s.takeCookies sources).2.requests = s.requests :=
  congrArg Tally.requests (tally_takeCookies s sources)

theorem requests_register (s : State) (name label : String) (script : List Action)
    (owns : List Source) : (s.register name label script owns).requests = s.requests := by
  rw [← requests_takeCookies s owns]
  unfold register
  dsimp only
  split
  · exact (requests_record_of_none rfl _).trans (requests_record_of_none rfl _)
  · exact (requests_record_of_none rfl _).trans (requests_record_of_none rfl _)

theorem requests_deliver (s : State) (m : Message Work) (resume : Bool → Frame)
    (rest : List Frame) : (s.deliver m resume rest).requests = s.requests := by
  have hnote : ∀ (host : Host Callback Work) n,
      ({ s with host }.note n).requests = s.requests := fun host n => requests_record_of_none rfl _
  unfold deliver
  dsimp only
  split
  · exact hnote _ _
  · exact (requests_record_of_none rfl _).trans (hnote _ _)
  · exact hnote _ _
  · split
    · exact hnote _ _
    · exact (requests_record_of_none rfl _).trans (hnote _ _)

theorem requests_invoke (s : State) (c : Cookie) (work : Work) (elsewhere : Bool) :
    (s.invoke c work elsewhere).requests =
      s.requests ++ if c.isArmed && !s.host.closed then [c.ticket] else [] := by
  by_cases hqueues : (c.isArmed && !s.host.closed) = true
  · obtain ⟨harmed, hopen⟩ := Bool.and_eq_true_iff.mp hqueues
    obtain ⟨key, hkey⟩ := Option.isSome_iff_exists.mp harmed
    rw [if_pos hqueues]
    simp only [invoke, Host.invoke_of_key (by simpa using hopen) hkey, if_true]
    simp [requests, record, Occurrence.requested?]
  · have hrefused : s.host.invoke c work = (false, s.host) := by
      cases hkey : c.key with
      | none => simp [Host.invoke, hkey]
      | some key =>
        have hclosed : s.host.closed = true := by simpa [Cookie.isArmed, hkey] using hqueues
        simp [Host.invoke, hkey, hclosed]
    rw [if_neg hqueues, List.append_nil]
    simp only [invoke, hrefused, Bool.false_eq_true, if_false]
    split
    · rfl
    · exact requests_foldl_note s c.refused

/-- An action that invokes an armed cookie of an open host asks for a call, and no other does. -/
theorem requests_start (s : State) (a : Action) :
    (s.start a).requests = s.requests ++ s.invokes a := by
  cases a with
  | register name label script owns =>
    simp only [invokes, List.append_nil]
    exact requests_register s name label script owns
  | label name =>
    simp only [start, invokes, List.append_nil]
    split <;> rfl
  | invoke source value elsewhere carry =>
    have hfirst : (s.takeCookie source).2.requests = s.requests :=
      congrArg Tally.requests (tally_without s source)
    have htaken := (requests_takeCookies (s.takeCookie source).2 carry).trans hfirst
    have hhost : ((s.takeCookie source).2.takeCookies carry).2.host = s.host :=
      (takeCookies_host _ _).trans (without_host s source)
    have hfound : (s.takeCookie source).1 = s.cookie? source := rfl
    simp only [start, invokes, hfound]
    cases s.cookie? source with
    | none =>
      rw [List.append_nil]
      exact htaken
    | some c =>
      refine (requests_invoke _ c _ elsewhere).trans ?_
      rw [htaken, hhost]
  | drop source =>
    have htaken : (s.takeCookie source).2.requests = s.requests :=
      congrArg Tally.requests (tally_without s source)
    simp only [start, invokes, List.append_nil]
    split
    · next t heq =>
      rw [heq] at htaken
      exact htaken
    · next c t heq =>
      rw [heq] at htaken
      exact htaken
  | poll =>
    simp only [start, invokes, List.append_nil]
    split <;> rfl
  | runUntil condition =>
    simp only [start, invokes, List.append_nil]
    split <;> rfl
  | teardown =>
    simp only [start, invokes, List.append_nil]
    split
    · exact requests_teardown s
    · rfl
  | dropHost =>
    simp only [start, invokes, List.append_nil]
    exact requests_teardownIfGone { s with held := false }
  | unreadable verb reason => simp [start, invokes, reply, requests]

/-- Of the steps of the host thread, only that of a running callback asks for a call. -/
theorem requests_step (s : State) : s.step.requests = s.requests ++ s.nextInvokes := by
  have hstop : ∀ (t : State) (o : Occurrence) (answer : Answer), o.requested? = none →
      ((t.record o).reply answer).teardownIfGone.requests = t.requests := by
    intro t o answer ho
    rw [requests_teardownIfGone]
    exact requests_record_of_none ho t
  unfold step
  split
  · next hstack => simp [nextInvokes, hstack]
  · next name current script owns carry rest hstack =>
    split
    · next a hanswer =>
      rw [show s.nextInvokes = [] by simp [nextInvokes, hstack, hanswer], List.append_nil]
      split
      · exact requests_record_of_none rfl _
      · rfl
    · next hanswer =>
      split
      · next a script =>
        have hreach : SameReach s
            { s with stack := .running name (some a.verb) script owns carry :: rest } :=
          ⟨rfl, by simp [hstack, Frame.hands]⟩
        rw [show s.nextInvokes = s.invokes a by simp [nextInvokes, hstack, hanswer], requests_start,
          invokes_congr hreach rfl a]
        rfl
      · simp only [nextInvokes, hstack, hanswer, List.append_nil]
        rfl
  · next count rest hstack =>
    simp only [nextInvokes, hstack, List.append_nil, stepPoll]
    split
    · exact hstop _ _ _ rfl
    · exact requests_deliver _ _ _ _
  · next condition checks count rest hstack =>
    simp only [nextInvokes, hstack, List.append_nil, stepWait]
    split
    · exact hstop _ _ _ rfl
    · split
      · exact hstop _ _ _ rfl
      · split
        · split <;> exact hstop _ _ _ rfl
        · exact requests_deliver _ _ _ _

/-! ## Delivery -/

theorem length_calls (s : State) : s.calls.length = invocations s.trace := by
  rw [calls, List.length_reverse, invocations, List.length_filterMap_eq_countP]
  refine congrArg (List.countP · s.trace) (funext fun o => ?_)
  cases o <;> rfl

/-- The books hold each callback once. -/
theorem Kept.nodup_calls (h : s.Kept) : s.calls.Nodup := by
  rw [List.nodup_iff_count_le_one]
  intro ticket
  have honce := h.balanced.once ticket
  have : s.tally.calls.count ticket ≤ 1 := by
    split at honce <;> omega
  exact this

/-- A poll goes on unless the queue is empty. -/
theorem deliver_stack_ne (s : State) (m : Message Work) (resume : Bool → Frame)
    (rest : List Frame) : (s.deliver m resume rest).stack ≠ rest := by
  have hcons : ∀ frame : Frame, frame :: rest ≠ rest := fun frame h => by
    simpa using congrArg List.length h
  unfold deliver
  dsimp only
  split
  · exact hcons _
  · intro h
    have := congrArg List.length h
    simp at this
    omega
  · exact hcons _
  · split <;> exact hcons _

/-- A poll that returns on an open host has run every call. -/
theorem Kept.poll_returns (h : s.Kept) {count : Nat} {rest : List Frame}
    (hstack : s.stack = .polling count :: rest) (hreturned : s.step.stack = rest)
    (hopen : s.step.host.closed = false) :
    s.step.answer = some (.count count) ∧ s.step.calls = s.step.requests := by
  have hstep : s.step = s.stepPoll count rest := by simp only [step, hstack]
  rw [hstep] at hreturned hopen ⊢
  simp only [stepPoll, Host.receive] at hreturned hopen ⊢
  cases hqueue : s.host.queue with
  | cons m queue =>
    rw [hqueue] at hreturned
    exact absurd hreturned (deliver_stack_ne _ _ _ _)
  | nil =>
    rw [hqueue] at hopen
    dsimp only at hopen ⊢
    set t : State := ({ s with stack := rest }.record (.polled count)).reply (.count count)
    -- had the host been torn down, it would be closed
    have hstay : t.teardownIfGone = t := by
      unfold teardownIfGone at hopen ⊢
      split
      · next hgone =>
        rw [if_pos hgone, teardown_closed] at hopen
        cases hopen
      · rfl
    rw [hstay] at hopen ⊢
    have htally : t.tally = s.tally := tally_return hstack (Or.inl rfl)
    have horder := h.balanced.inOrder hopen
    rw [← htally] at horder
    have hqueued : t.tally.queued = [] := by
      rw [htally]
      simp [tally, hqueue]
    rw [hqueued, List.append_nil] at horder
    exact ⟨rfl, horder.symm⟩

/-- At every moment of every run, the callbacks that began to run are those whose calls were queued
first, in the order of the calls and each once. Calls are queued by the invocations of armed cookies
of an open host and by nothing else, whoever makes them. A poll that returns on a host that is still
open has left none behind. And what polls have returned and waits have run, together with what those
under way have run so far, is the number of callbacks that began to run. -/
theorem calls_delivered_in_order (h : Reachable callbacks s) :
    s.calls <+: s.requests ∧ s.calls.Nodup ∧
    (∀ a, (s.start a).requests = s.requests ++ s.invokes a) ∧
    s.step.requests = s.requests ++ s.nextInvokes ∧
    (∀ count rest, s.stack = .polling count :: rest → s.step.stack = rest →
      s.step.host.closed = false →
        s.step.answer = some (.count count) ∧ s.step.calls = s.step.requests) ∧
    s.returned + s.underway = invocations s.trace ∧
    (s.isIdle = true → s.returned = invocations s.trace) := by
  have hkept := h.kept
  have hcounts : s.returned + s.underway = invocations s.trace :=
    hkept.balanced.counts.trans (length_calls s)
  refine ⟨hkept.balanced.oldest, hkept.nodup_calls, requests_start s, requests_step s, ?_, hcounts,
    fun hidle => ?_⟩
  · intro count rest hstack hreturned hopen
    exact hkept.poll_returns hstack hreturned hopen
  · have hstack : s.stack = [] := by simpa [isIdle] using hidle
    simpa [underway, hstack] using hcounts

/-- A callback registers and invokes another one and polls, while a third one waits in the queue. -/
def nestedRun : List Action :=
  [.register "outer" "outer" [.register "inner" "inner" [] [], .invoke "inner" .null false [], .poll]
      [],
    .register "next" "next" [] [], .invoke "outer" .null false [], .invoke "next" .null true [],
    .poll]

/-- In that run the poll in the middle runs the one that waited before the one that came late, and
returns two of the three. -/
theorem calls_delivered_in_nestedRun :
    (nestedRun.foldl perform {}).calls = [0, 1, 2] ∧
      (nestedRun.foldl perform {}).calls <+: (nestedRun.foldl perform {}).requests ∧
      (nestedRun.foldl perform {}).returned = 3 := by
  obtain ⟨_, h₁⟩ := Reachable.new.perform rfl nestedRun[0]
  obtain ⟨_, h₂⟩ := h₁.perform (by decide) nestedRun[1]
  obtain ⟨_, h₃⟩ := h₂.perform (by decide) nestedRun[2]
  obtain ⟨_, h₄⟩ := h₃.perform (by decide) nestedRun[3]
  obtain ⟨_, h₅⟩ := h₄.perform (by decide) nestedRun[4]
  obtain ⟨horder, -, -, -, -, -, hcounts⟩ := calls_delivered_in_order h₅
  exact ⟨by decide, horder, (hcounts (by decide)).trans (by decide)⟩

end HostBridge.Bridge.State
