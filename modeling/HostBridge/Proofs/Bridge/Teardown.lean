import HostBridge.Proofs.Bridge.Tally
import Mathlib.Logic.Function.Iterate

/-!
# A teardown is final

A host is torn down on request, by a running callback or when the program lets go of it. From then on
it stays empty: callbacks that are registered are dropped at once, cookies are used up without a
message, and no callback runs any more, whatever is still on the stack. `Aftermath` is what can go on
once the host is marked as closed. It is more than a host thread does otherwise: its callbacks are
dropped one by one, whatever is dropped may register, invoke, drop and poll in between, and a message
that another thread was about to send may still arrive.
-/

namespace HostBridge.Bridge

/-- The frame of a running callback. -/
def Frame.isRunning : Frame → Bool
  | running .. => true
  | _ => false

@[simp]
theorem Frame.isRunning_bare (frame : Frame) : frame.bare.isRunning = frame.isRunning := by
  cases frame <;> rfl

namespace State

open Tally (Moves)

variable {callbacks : List Callback} {s t : State} {late : List (Message Work)}

/-! ## The queue of a closed host -/

theorem queue_register_of_closed (hclosed : s.host.closed = true) (name label : String)
    (script : List Action) (owns : List Source) :
    (s.register name label script owns).host.queue = s.host.queue := by
  have hhost := takeCookies_host s owns
  obtain ⟨owned, t, htaken⟩ : ∃ owned t, s.takeCookies owns = (owned, t) := ⟨_, _, rfl⟩
  simp only [htaken] at hhost
  rw [← hhost] at hclosed ⊢
  have hregister : t.host.register label ⟨name, script, owned⟩ =
      (⟨none, label, t.host.issued⟩, { t.host with issued := t.host.issued + 1 }) := by
    simp [Host.register, hclosed]
  simp only [register, htaken, hregister, Cookie.isArmed, Option.isSome_none, Bool.false_eq_true,
    if_false, discard]
  rw [releaseAll_of_closed (by simpa [releaseAll, note, record] using hclosed),
    releaseAll_of_closed (by simpa [note, record] using hclosed)]
  rfl

theorem host_invoke_of_closed (hclosed : s.host.closed = true) (c : Cookie) (work : Work)
    (elsewhere : Bool) : (s.invoke c work elsewhere).host = s.host := by
  have hrefused : s.host.invoke c work = (false, s.host) := by
    unfold Host.invoke
    split
    · rfl
    · simp [hclosed]
  have hnote : (if elsewhere then s else c.refused.foldl note s).host = s.host := by
    split
    · rfl
    · exact foldl_note_host s c.refused
  simp only [invoke, hrefused, Bool.false_eq_true, if_false]
  rw [releaseAll_of_closed (by rw [hnote]; exact hclosed)]
  exact hnote

/-- Actions leave the queue of a closed host alone. -/
theorem queue_start_of_closed (hclosed : s.host.closed = true) (a : Action) :
    (s.start a).host.queue = s.host.queue := by
  cases a with
  | register name label script owns => exact queue_register_of_closed hclosed name label script owns
  | label source =>
    simp only [start]
    split <;> rfl
  | invoke source value elsewhere carry =>
    have hhost : ((s.takeCookie source).2.takeCookies carry).2.host = s.host :=
      (takeCookies_host _ _).trans (without_host s source)
    rw [← hhost] at hclosed ⊢
    simp only [start]
    split
    · rw [releaseAll_of_closed hclosed]
      rfl
    · next c _ => exact congrArg Host.queue (host_invoke_of_closed hclosed c _ elsewhere)
  | drop source =>
    have hhost : (s.takeCookie source).2.host = s.host := without_host s source
    simp only [start]
    split
    · next t heq =>
      rw [heq] at hhost
      exact congrArg Host.queue hhost
    · next c t heq =>
      rw [heq] at hhost
      rw [← hhost] at hclosed ⊢
      rw [releaseAll_of_closed hclosed]
      rfl
  | poll =>
    simp only [start]
    split <;> rfl
  | runUntil condition =>
    simp only [start]
    split <;> rfl
  | teardown =>
    simp only [start, teardown_of_closed hclosed]
    split <;> rfl
  | dropHost =>
    simp only [start]
    rw [teardownIfGone_of_closed]
    · rfl
    · exact hclosed
  | unreadable verb reason => rfl

/-! ## Polls and waits of a closed host -/

/-- A poll of a closed host that finds nothing returns what it has counted. -/
theorem stepPoll_of_closed_nil (hclosed : s.host.closed = true) (hqueue : s.host.queue = [])
    (count : Nat) (rest : List Frame) :
    s.stepPoll count rest = ({ s with stack := rest }.record (.polled count)).reply (.count count) := by
  simp only [stepPoll, Host.receive, hqueue]
  exact teardownIfGone_of_closed
    (s := ({ s with stack := rest }.record (.polled count)).reply (.count count)) hclosed

/-- A poll of a closed host counts none of the messages that it finds. -/
theorem stepPoll_of_closed_cons (hclosed : s.host.closed = true)
    (hempty : s.host.registry.contents = []) {m : Message Work} {queue : List (Message Work)}
    (hqueue : s.host.queue = m :: queue) (count : Nat) (rest : List Frame) :
    ∃ notice, s.stepPoll count rest = { s with
      host := { s.host with queue }
      stack := .polling count :: rest
      trace := .logged notice :: s.trace } := by
  simp only [stepPoll, Host.receive, hqueue]
  exact deliver_of_closed (s := { s with host := { s.host with queue } }) hclosed hempty m
    (fun ran => .polling (if ran then count + 1 else count)) rest

/-- A wait on a closed host ends at once: its condition holds, or the host is closed. -/
theorem stepWait_of_closed (hclosed : s.host.closed = true) (condition : Condition)
    (checks count : Nat) (rest : List Frame) :
    s.stepWait condition checks count rest = ({ s with stack := rest }.record (.waited count)).reply
      (.awaited (if condition (checks + 1) s.trace then .ok () else .error .hostClosed)
        (checks + 1)) := by
  have hstay := fun answer => teardownIfGone_of_closed
    (s := ({ s with stack := rest }.record (.waited count)).reply answer) hclosed
  simp only [stepWait, hclosed, if_true, hstay]
  split <;> rfl

/-- A closed host takes messages from its queue, and none comes. -/
theorem queue_step_of_closed (hclosed : s.host.closed = true)
    (hempty : s.host.registry.contents = []) : s.step.host.queue <:+ s.host.queue := by
  unfold step
  split
  · exact List.suffix_refl _
  · next name current script owns carry rest hstack =>
    split
    · split <;> exact List.suffix_refl _
    · split
      · next a script =>
        exact ⟨[], queue_start_of_closed (s := { s with
          stack := .running name (some a.verb) script owns carry :: rest }) hclosed a⟩
      · have hsame := fun cs => releaseAll_of_closed (s := { s with stack := rest }) hclosed cs
        exact ⟨[], by rw [hsame, hsame]; rfl⟩
  · next count rest _ =>
    cases hqueue : s.host.queue with
    | nil =>
      rw [stepPoll_of_closed_nil hclosed hqueue]
      exact hqueue ▸ List.suffix_refl _
    | cons m queue =>
      obtain ⟨notice, hstep⟩ := stepPoll_of_closed_cons hclosed hempty hqueue count rest
      rw [hstep]
      exact List.suffix_cons m queue
  · next condition checks count rest _ =>
    rw [stepWait_of_closed hclosed]
    exact List.suffix_refl _

/-- A poll of a closed host goes through the queue and returns what it had counted before. -/
theorem poll_of_closed (hclosed : s.host.closed = true) (hempty : s.host.registry.contents = [])
    {count : Nat} {rest : List Frame} (hstack : s.stack = .polling count :: rest) :
    (step^[s.host.queue.length + 1] s).answer = some (.count count) ∧
      (step^[s.host.queue.length + 1] s).stack = rest := by
  have hstep : s.step = s.stepPoll count rest := by simp only [step, hstack]
  rw [Function.iterate_succ_apply, hstep]
  induction hqueue : s.host.queue generalizing s with
  | nil =>
    rw [stepPoll_of_closed_nil hclosed hqueue]
    exact ⟨rfl, rfl⟩
  | cons m queue ih =>
    obtain ⟨notice, hnext⟩ := stepPoll_of_closed_cons hclosed hempty hqueue count rest
    rw [hnext, List.length_cons, Function.iterate_succ_apply]
    exact ih (s := { s with
      host := { s.host with queue }
      stack := .polling count :: rest
      trace := .logged notice :: s.trace }) hclosed hempty rfl rfl rfl

/-! ## How a host comes to be closed -/

/-- The queue of a closed host is empty, and a host that was let go is closed unless a poll or a wait
is under way. Callbacks run within polls and waits only. -/
structure Settled (s : State) : Prop where
  /-- A closed host has no messages. -/
  drained : s.host.closed = true → s.host.queue = []
  /-- A host that was let go is closed once nothing of it is under way. -/
  gone : s.held = false → s.stack = [] → s.host.closed = true
  /-- A callback runs within a poll or a wait. -/
  founded : ∀ frame, s.stack.getLast? = some frame → frame.isRunning = false

theorem foldl_discard_of_closed (es : List (Entry Callback)) (hclosed : s.host.closed = true) :
    (es.foldl discard s).host = s.host ∧ (es.foldl discard s).stack = s.stack := by
  induction es generalizing s with
  | nil => exact ⟨rfl, rfl⟩
  | cons e es ih =>
    have hdiscard : s.discard e = s.record (.dropped e.ticket e.callback.name) :=
      releaseAll_of_closed (s := s.record (.dropped e.ticket e.callback.name)) hclosed _
    rw [List.foldl_cons, hdiscard]
    exact ih (s := s.record (.dropped e.ticket e.callback.name)) hclosed

/-- A teardown of an open host empties it, and whoever is under way stays there. -/
theorem teardown_of_open (hopen : s.host.closed = false) :
    s.teardown.host.queue = [] ∧ s.teardown.stack = s.stack := by
  have hsome : s.host.teardown = (some (s.host.queue, s.host.registry.contents),
      { s.host with closed := true, queue := [], registry := {} }) := by
    simp [Host.teardown, hopen]
  simp only [teardown, hsome, discardMessages]
  rw [releaseAll_of_closed rfl]
  obtain ⟨hhost, hstack⟩ := foldl_discard_of_closed (s := note { s with
    host := { s.host with closed := true, queue := [], registry := {} } }
      (.hostTornDown s.host.queue.length s.host.registry.contents.length))
    s.host.registry.contents rfl
  rw [hhost, hstack]
  exact ⟨rfl, rfl⟩

theorem settled_teardown (hdrained : s.host.closed = true → s.host.queue = [])
    (hfounded : ∀ frame, s.stack.getLast? = some frame → frame.isRunning = false) :
    s.teardown.Settled := by
  cases hclosed : s.host.closed with
  | true =>
    rw [teardown_of_closed hclosed]
    exact ⟨hdrained, fun _ _ => hclosed, hfounded⟩
  | false =>
    obtain ⟨hqueue, hstack⟩ := teardown_of_open hclosed
    exact ⟨fun _ => hqueue, fun _ _ => teardown_closed s, by rw [hstack]; exact hfounded⟩

theorem settled_teardownIfGone (hdrained : s.host.closed = true → s.host.queue = [])
    (hfounded : ∀ frame, s.stack.getLast? = some frame → frame.isRunning = false) :
    s.teardownIfGone.Settled := by
  unfold teardownIfGone
  split
  · exact settled_teardown hdrained hfounded
  · next hstays =>
    refine ⟨hdrained, fun hheld hstack => ?_, hfounded⟩
    simp [hheld, hstack] at hstays

/-- Whatever changes neither the stack, but for cookies, nor the hold on the host. -/
theorem Settled.keep (h : s.Settled) (hclosed : t.host.closed = s.host.closed)
    (hqueue : s.host.closed = true → t.host.queue = s.host.queue) (hheld : t.held = s.held)
    (hstack : t.stack.map Frame.bare = s.stack.map Frame.bare) : t.Settled where
  drained hc := by
    rw [hclosed] at hc
    rw [hqueue hc]
    exact h.drained hc
  gone hgone hnil := by
    rw [hclosed]
    refine h.gone (hheld ▸ hgone) (List.map_eq_nil_iff.mp (hstack.symm.trans ?_))
    rw [hnil, List.map_nil]
  founded frame hframe := by
    have hlast : (s.stack.map Frame.bare).getLast? = some frame.bare := by
      rw [← hstack, List.getLast?_map, hframe, Option.map_some]
    rw [List.getLast?_map] at hlast
    obtain ⟨last, hlast, hbare⟩ := Option.map_eq_some_iff.mp hlast
    rw [← frame.isRunning_bare, ← hbare, last.isRunning_bare]
    exact h.founded last hlast

theorem takeCookies_frame (s : State) (sources : List Source) :
    (s.takeCookies sources).2.held = s.held ∧
      (s.takeCookies sources).2.stack.map Frame.bare = s.stack.map Frame.bare := by
  obtain ⟨cookies, stack, htaken, hbare⟩ := takeCookies_eq s sources
  rw [htaken]
  exact ⟨rfl, hbare⟩

theorem without_frame (s : State) (source : Source) :
    (s.without source).held = s.held ∧
      (s.without source).stack.map Frame.bare = s.stack.map Frame.bare := by
  obtain ⟨cookies, stack, htaken, hbare⟩ := without_eq s source
  rw [htaken]
  exact ⟨rfl, hbare⟩

theorem register_frame (s : State) (name label : String) (script : List Action)
    (owns : List Source) : (s.register name label script owns).held = s.held ∧
      (s.register name label script owns).stack.map Frame.bare = s.stack.map Frame.bare := by
  unfold register
  dsimp only
  split <;> exact takeCookies_frame s owns

theorem foldl_note_frame (s : State) (ns : List Log.Notice) :
    (ns.foldl note s).held = s.held ∧ (ns.foldl note s).stack = s.stack := by
  induction ns generalizing s with
  | nil => exact ⟨rfl, rfl⟩
  | cons n ns ih => exact ih (s.note n)

theorem invoke_frame (s : State) (c : Cookie) (work : Work) (elsewhere : Bool) :
    (s.invoke c work elsewhere).held = s.held ∧ (s.invoke c work elsewhere).stack = s.stack := by
  unfold invoke
  dsimp only
  split
  · exact ⟨rfl, rfl⟩
  · split
    · exact ⟨rfl, rfl⟩
    · exact foldl_note_frame { s with host := (s.host.invoke c work).2 } c.refused

theorem Settled.push (h : s.Settled) {frame : Frame} (hframe : frame.isRunning = false)
    (hheld : s.held = true) : ({ s with stack := frame :: s.stack } : State).Settled where
  drained := h.drained
  gone hgone := by
    rw [hheld] at hgone
    cases hgone
  founded last hlast := by
    cases hstack : s.stack with
    | nil =>
      obtain rfl : frame = last := by simpa [hstack] using hlast
      exact hframe
    | cons x xs =>
      refine h.founded last ?_
      simpa [hstack, List.getLast?_cons_cons] using hlast

theorem Settled.start (h : s.Settled) (a : Action) : (s.start a).Settled := by
  have hqueue := fun hclosed => queue_start_of_closed (s := s) hclosed a
  cases a with
  | register name label script owns =>
    obtain ⟨hheld, hstack⟩ := register_frame s name label script owns
    exact h.keep (register_host_closed s name label script owns) hqueue hheld hstack
  | label source =>
    simp only [State.start]
    split <;> exact h.keep rfl (fun _ => rfl) rfl rfl
  | invoke source value elsewhere carry =>
    have hhost : ((s.takeCookie source).2.takeCookies carry).2.host = s.host :=
      (takeCookies_host _ _).trans (without_host s source)
    have htaken := takeCookies_frame (s.takeCookie source).2 carry
    have hheld := htaken.1.trans (without_frame s source).1
    have hstack := htaken.2.trans (without_frame s source).2
    simp only [State.start] at hqueue ⊢
    split at hqueue
    · refine h.keep ?_ hqueue hheld hstack
      simp [reply, releaseAll, hhost]
    · next c _ =>
      obtain ⟨hheld', hstack'⟩ := invoke_frame ((s.takeCookie source).2.takeCookies carry).2 c
        ⟨value, ((s.takeCookie source).2.takeCookies carry).1⟩ elsewhere
      refine h.keep ?_ hqueue (hheld'.trans hheld) ((congrArg _ hstack').trans hstack)
      simp [reply, invoke_host_closed, hhost]
  | drop source =>
    obtain ⟨hheld, hstack⟩ := without_frame s source
    simp only [State.start] at hqueue ⊢
    split at hqueue
    · next t heq =>
      obtain rfl : s.without source = t := congrArg Prod.snd heq
      exact h.keep (congrArg Host.closed (without_host s source)) hqueue hheld hstack
    · next c t heq =>
      obtain rfl : s.without source = t := congrArg Prod.snd heq
      exact h.keep (by simp [reply, releaseAll]) hqueue hheld hstack
  | poll =>
    simp only [State.start]
    split
    · next hheld => exact h.push rfl hheld
    · exact h.keep rfl (fun _ => rfl) rfl rfl
  | runUntil condition =>
    simp only [State.start]
    split
    · next hheld => exact h.push rfl hheld
    · exact h.keep rfl (fun _ => rfl) rfl rfl
  | teardown =>
    simp only [State.start]
    split
    · exact (settled_teardown h.drained h.founded).keep rfl (fun _ => rfl) rfl rfl
    · exact h.keep rfl (fun _ => rfl) rfl rfl
  | dropHost =>
    exact (settled_teardownIfGone (s := { s with held := false }) h.drained h.founded).keep rfl
      (fun _ => rfl) rfl rfl
  | unreadable verb reason => exact h.keep rfl (fun _ => rfl) rfl rfl

/-- A message is taken from the queue: the frame stays, and a callback may run on top of it. -/
theorem Settled.deliver (h : s.Settled) {m : Message Work} {queue : List (Message Work)}
    (hqueue : s.host.queue = m :: queue) {frame : Frame} {rest : List Frame}
    (hstack : s.stack = frame :: rest) {resume : Bool → Frame}
    (hresume : ∀ ran, (resume ran).isRunning = false) :
    (State.deliver { s with host := { s.host with queue } } m resume rest).Settled := by
  have hlast : ∀ (above : List Frame) ran last,
      (above ++ resume ran :: rest).getLast? = some last → last.isRunning = false := by
    intro above ran last hlast
    rw [List.getLast?_append_cons] at hlast
    cases rest with
    | nil =>
      obtain rfl : resume ran = last := by simpa using hlast
      exact hresume ran
    | cons x xs =>
      refine h.founded last ?_
      rw [hstack, List.getLast?_cons_cons, ← hlast, List.getLast?_cons_cons]
  have hne : ∀ (above : List Frame) ran, above ++ resume ran :: rest ≠ [] := by simp
  -- an open host that takes a message is still open, and its stack is not empty
  have hopen : s.host.closed = false := by
    cases hclosed : s.host.closed with
    | false => rfl
    | true =>
      have hnil := h.drained hclosed
      rw [hqueue] at hnil
      cases hnil
  obtain ⟨above, ran, hafter⟩ : ∃ above ran, (State.deliver { s with host := { s.host with queue } }
      m resume rest).stack = above ++ resume ran :: rest := by
    unfold State.deliver
    dsimp only
    split
    · exact ⟨[], false, rfl⟩
    · exact ⟨[_], true, rfl⟩
    · exact ⟨[], false, rfl⟩
    · split <;> exact ⟨[], false, rfl⟩
  refine ⟨fun hclosed => ?_, fun _ hstack' => ?_, fun last => ?_⟩
  · rw [deliver_closed] at hclosed
    rw [show ({ s with host := { s.host with queue } } : State).host.closed = s.host.closed from rfl,
      hopen] at hclosed
    cases hclosed
  · rw [hafter] at hstack'
    exact absurd hstack' (hne above ran)
  · rw [hafter]
    exact hlast above ran last

/-- What lies under the innermost frame is founded as well. -/
theorem Settled.founded_rest (h : s.Settled) {frame : Frame} {rest : List Frame}
    (hstack : s.stack = frame :: rest) (last : Frame) (hlast : rest.getLast? = some last) :
    last.isRunning = false := by
  refine h.founded last ?_
  cases rest with
  | nil => cases hlast
  | cons x xs => rw [hstack, List.getLast?_cons_cons, hlast]

/-- A poll or a wait lies under a running callback. -/
theorem Settled.rest_ne_nil (h : s.Settled) {frame : Frame} {rest : List Frame}
    (hstack : s.stack = frame :: rest) (hframe : frame.isRunning = true) : rest ≠ [] := by
  rintro rfl
  have hfounded := h.founded frame (by rw [hstack]; rfl)
  rw [hframe] at hfounded
  cases hfounded

/-- A poll or a wait ends. -/
theorem Settled.return (h : s.Settled) {frame : Frame} {rest : List Frame}
    (hstack : s.stack = frame :: rest) (o : Occurrence) (answer : Answer) :
    (({ s with stack := rest }.record o).reply answer).teardownIfGone.Settled :=
  settled_teardownIfGone (s := ({ s with stack := rest }.record o).reply answer) h.drained
    (h.founded_rest hstack)

theorem Settled.stepPoll (h : s.Settled) {count : Nat} {rest : List Frame}
    (hstack : s.stack = .polling count :: rest) : (s.stepPoll count rest).Settled := by
  simp only [State.stepPoll, Host.receive]
  cases hqueue : s.host.queue with
  | nil => exact h.return hstack _ _
  | cons m queue => exact h.deliver hqueue hstack fun _ => rfl

theorem Settled.stepWait (h : s.Settled) {condition : Condition} {checks count : Nat}
    {rest : List Frame} (hstack : s.stack = .waiting condition checks count :: rest) :
    (s.stepWait condition checks count rest).Settled := by
  simp only [State.stepWait, Host.receive]
  split
  · exact h.return hstack _ _
  · split
    · exact h.return hstack _ _
    · cases hqueue : s.host.queue with
      | nil =>
        dsimp only
        split <;> exact h.return hstack _ _
      | cons m queue => exact h.deliver hqueue hstack fun _ => rfl

theorem Settled.step (h : s.Settled) : s.step.Settled := by
  unfold State.step
  split
  · exact h
  · next name current script owns carry rest hstack =>
    have hrest := h.rest_ne_nil hstack rfl
    split
    · split <;> exact h.keep rfl (fun _ => rfl) rfl rfl
    · split
      · next a script =>
        refine Settled.start (s := { s with
          stack := .running name (some a.verb) script owns carry :: rest }) ?_ a
        refine ⟨h.drained, fun _ => nofun, fun last hlast => h.founded_rest hstack last ?_⟩
        rwa [List.getLast?_cons_of_ne_nil hrest] at hlast
      · refine ⟨fun hclosed => ?_, fun _ hnil => absurd hnil hrest, h.founded_rest hstack⟩
        have hclosed' : s.host.closed = true := by simpa [releaseAll] using hclosed
        rw [releaseAll_of_closed (s := { s with stack := rest }) hclosed',
          releaseAll_of_closed (s := { s with stack := rest }) hclosed']
        exact h.drained hclosed'
  · next count rest hstack => exact h.stepPoll hstack
  · next condition checks count rest hstack => exact h.stepWait hstack

theorem Reachable.settled (h : Reachable callbacks s) : s.Settled := by
  induction h with
  | new => exact ⟨fun _ => rfl, (nomatch ·), nofun⟩
  | @act callbacks s a hs _ ih =>
    exact Settled.start (s := { s with answer := none }) (ih.keep rfl (fun _ => rfl) rfl rfl) a
  | @elsewhere callbacks s a hs _ ih => exact (ih.start a).keep rfl (fun _ => rfl) rfl rfl
  | step hs ih => exact ih.step

/-! ## What can go on after a teardown -/

/-- What can follow once a host was closed. Late messages come in, those callbacks that were taken
out of their slots are dropped one after the other, and anybody may do anything in between: the code
that runs when something is dropped, other threads, the program, and whatever is on the stack. -/
inductive Aftermath (s : State) : List (Message Work) → List (Entry Callback) → State → Prop where
  /-- An open host has been marked as closed and emptied; its callbacks are still to be dropped. -/
  | closing (hopen : s.host.closed = false) :
      Aftermath s [] s.host.registry.contents { s with host := s.host.teardown.2 }
  /-- A closed host stays as it is. -/
  | closed (hclosed : s.host.closed = true) : Aftermath s [] [] s
  /-- The log has more to say. -/
  | note {late : List (Message Work)} {left : List (Entry Callback)} {t : State}
      (h : Aftermath s late left t) (n : Log.Notice) : Aftermath s late left (t.note n)
  /-- The next callback is dropped. -/
  | discard {late : List (Message Work)} {e : Entry Callback} {left : List (Entry Callback)}
      {t : State} (h : Aftermath s late (e :: left) t) : Aftermath s late left (t.discard e)
  /-- A thread that had found the host open sends its message only now. -/
  | arrive {late : List (Message Work)} {left : List (Entry Callback)} {t : State}
      (h : Aftermath s late left t) (m : Message Work) : Aftermath s (late ++ [m]) left
        { t with host := { t.host with queue := t.host.queue ++ [m] } }
  /-- The program acts. -/
  | act {late : List (Message Work)} {left : List (Entry Callback)} {t : State}
      (h : Aftermath s late left t) (a : Action) :
      Aftermath s late left ({ t with answer := none }.start a)
  /-- Somebody else acts, in the middle of whatever is under way. -/
  | amid {late : List (Message Work)} {left : List (Entry Callback)} {t : State}
      (h : Aftermath s late left t) (a : Action) :
      Aftermath s late left { t.start a with answer := t.answer }
  /-- The host thread goes on with what it is in the middle of. -/
  | step {late : List (Message Work)} {left : List (Entry Callback)} {t : State}
      (h : Aftermath s late left t) : Aftermath s late left t.step

/-- A teardown that nobody disturbs. -/
theorem aftermath_teardown (s : State) : Aftermath s [] [] s.teardown := by
  cases hclosed : s.host.closed with
  | true =>
    rw [teardown_of_closed hclosed]
    exact .closed hclosed
  | false =>
    have hfold : ∀ (es : List (Entry Callback)) (t : State), Aftermath s [] es t →
        Aftermath s [] [] (es.foldl State.discard t) := by
      intro es
      induction es with
      | nil => exact fun t h => h
      | cons e es ih => exact fun t h => ih _ h.discard
    have hclosing := Aftermath.closing hclosed
    have hsome : s.host.teardown = (some (s.host.queue, s.host.registry.contents),
        { s.host with closed := true, queue := [], registry := {} }) := by
      simp [Host.teardown, hclosed]
    rw [hsome] at hclosing
    simp only [teardown, hsome, discardMessages]
    rw [releaseAll_of_closed rfl]
    exact hfold _ _ (hclosing.note _)

/-- A host that is closed for good: it is empty but for messages that came late, it has run what it
had run before, and every callback ran, was dropped or is about to be dropped. -/
structure Final (s : State) (late : List (Message Work)) (left : List (Entry Callback)) (t : State) :
    Prop where
  /-- The host is closed. -/
  closed : t.host.closed = true
  /-- No callback waits in its slot. -/
  empty : t.host.registry.contents = []
  /-- Nothing is queued but what came late. -/
  queue : t.host.queue <:+ late
  /-- No callback has begun to run since. -/
  calls : t.calls = s.calls
  /-- Every callback that did not run is dropped once. -/
  once : ∀ ticket, t.calls.count ticket + t.drops.count ticket +
    (left.map Entry.ticket).count ticket = if ticket < t.host.issued then 1 else 0

variable {left : List (Entry Callback)} {t' : State}

/-- Whatever is nothing but moves of the books keeps a closed host closed and empty. -/
theorem Final.moves (h : Final s late left t) (hmoves : Moves t.tally t'.tally)
    (hqueue : t'.host.queue <:+ late) : Final s late left t' := by
  obtain ⟨hclosed, hcalls, hkept⟩ := hmoves.closed h.closed
  have hempty : t.tally.kept = [] := by simp [tally, h.empty]
  refine ⟨hclosed, List.map_eq_nil_iff.mp (hkept.trans hempty), hqueue, Eq.trans hcalls h.calls,
    fun ticket => ?_⟩
  have honce := h.once ticket
  have hdrops : t'.drops.count ticket + (if ticket < t.host.issued then 1 else 0) =
      t.drops.count ticket + if ticket < t'.host.issued then 1 else 0 :=
    hmoves.drops h.closed ticket
  rw [show t'.calls = t.calls from hcalls]
  omega

theorem final_closing (hkept : s.Kept) (hopen : s.host.closed = false) :
    Final s [] s.host.registry.contents { s with host := s.host.teardown.2 } := by
  have hsome : s.host.teardown.2 = { s.host with closed := true, queue := [], registry := {} } := by
    simp [Host.teardown, hopen]
  rw [hsome]
  exact ⟨rfl, rfl, List.suffix_refl _, rfl, hkept.balanced.once⟩

theorem final_closed (hkept : s.Kept) (hsettled : s.Settled) (hclosed : s.host.closed = true) :
    Final s [] [] s := by
  refine ⟨hclosed, hkept.empty hclosed, by simp [hsettled.drained hclosed], rfl, fun ticket => ?_⟩
  have honce := hkept.balanced.once ticket
  simp only [tally, hkept.empty hclosed, List.map_nil] at honce
  exact honce

theorem Final.discard {e : Entry Callback} (h : Final s late (e :: left) t) :
    Final s late left (t.discard e) := by
  have hdiscard : t.discard e = t.record (.dropped e.ticket e.callback.name) :=
    releaseAll_of_closed (s := t.record (.dropped e.ticket e.callback.name)) h.closed _
  have htally := tally_discard t e
  have hcalls : (t.discard e).calls = t.calls := congrArg Tally.calls htally
  have hdrops : (t.discard e).drops = e.ticket :: t.drops := congrArg Tally.drops htally
  have hissued : (t.discard e).host.issued = t.host.issued := congrArg Tally.issued htally
  refine ⟨?_, ?_, ?_, hcalls.trans h.calls, fun ticket => ?_⟩
  · rw [hdiscard]
    exact h.closed
  · rw [hdiscard]
    exact h.empty
  · rw [hdiscard]
    exact h.queue
  · have honce := h.once ticket
    rw [hcalls, hdrops, hissued, List.count_cons]
    rw [List.map_cons, List.count_cons] at honce
    omega

theorem Final.start (h : Final s late left t) (a : Action) : Final s late left (t.start a) := by
  refine h.moves (moves_start (fun hopen => ?_) a) ?_
  · rw [h.closed] at hopen
    cases hopen
  · rw [queue_start_of_closed h.closed]
    exact h.queue

/-- A closed host that is empty stays so, whatever follows. -/
theorem Aftermath.final (h : Aftermath s late left t) (hkept : s.Kept) (hsettled : s.Settled) :
    Final s late left t := by
  induction h with
  | closing hopen => exact final_closing hkept hopen
  | closed hclosed => exact final_closed hkept hsettled hclosed
  | note _ n ih =>
    refine ih.moves ?_ ih.queue
    rw [tally_note]
  | discard _ ih => exact ih.discard
  | @arrive late left t _ m ih =>
    obtain ⟨before, hbefore⟩ := ih.queue
    exact ⟨ih.closed, ih.empty, ⟨before, by rw [← hbefore, List.append_assoc]⟩, ih.calls, ih.once⟩
  | @act late left t _ a ih =>
    exact Final.start (t := { t with answer := none })
      ⟨ih.closed, ih.empty, ih.queue, ih.calls, ih.once⟩ a
  | @amid late left t _ a ih =>
    obtain ⟨hclosed, hempty, hqueue, hcalls, honce⟩ := ih.start a
    exact ⟨hclosed, hempty, hqueue, hcalls, honce⟩
  | @step late left t _ ih =>
    have hinv : Inv [] t := inv_of_closed ih.closed
    exact ih.moves (moves_step hinv fun _ => ih.empty)
      ((queue_step_of_closed ih.closed ih.empty).trans ih.queue)

/-- A poll of a closed host passes over what it finds, or returns what it has counted. -/
theorem stack_step_of_closed (hclosed : s.host.closed = true)
    (hempty : s.host.registry.contents = []) {count : Nat} {rest : List Frame}
    (hstack : s.stack = .polling count :: rest) :
    s.step.stack = s.stack ∨ s.step.stack = rest ∧ s.step.answer = some (.count count) := by
  have hstep : s.step = s.stepPoll count rest := by simp only [step, hstack]
  rw [hstep]
  cases hqueue : s.host.queue with
  | nil =>
    rw [stepPoll_of_closed_nil hclosed hqueue]
    exact Or.inr ⟨rfl, rfl⟩
  | cons m queue =>
    obtain ⟨notice, hnext⟩ := stepPoll_of_closed_cons hclosed hempty hqueue count rest
    rw [hnext]
    exact Or.inl hstack.symm

/-- A teardown closes the host, and so does letting go of it once no poll and no wait is under way,
whoever does it. A closed host is empty, and every callback ever registered has begun to run or was
dropped: one of the two, and once. Whatever follows, and also while the callbacks are still being
dropped, no callback begins to run, the slots stay empty, and so does the queue but for messages that
were on their way. A poll runs nothing, and a wait ends at once, with the error that the host is
closed unless its condition holds. -/
theorem teardown_final (h : Reachable callbacks s) :
    (s.held = true → (s.start .teardown).host.closed = true) ∧
    (s.held = false → s.isIdle = true → s.host.closed = true) ∧
    (s.host.closed = true → s.host.registry.contents = [] ∧ s.host.queue = [] ∧
      ∀ ticket < s.host.issued, s.calls.count ticket + s.drops.count ticket = 1) ∧
    Aftermath s [] [] s.teardown ∧
    ∀ late left t, Aftermath s late left t → Final s late left t ∧
      (t.held = true →
        (step^[t.host.queue.length + 1] (t.start .poll)).answer = some (.count 0)) ∧
      (∀ count rest, t.stack = .polling count :: rest →
        t.step.stack = t.stack ∨ t.step.stack = rest ∧ t.step.answer = some (.count count)) ∧
      ∀ condition checks count rest, t.stack = .waiting condition checks count :: rest →
        t.step.stack = rest ∧ t.step.answer = some (.awaited
          (if condition (checks + 1) t.trace then .ok () else .error .hostClosed) (checks + 1)) := by
  have hkept := h.kept
  have hsettled := h.settled
  refine ⟨fun hheld => ?_, fun hgone hidle => ?_, fun hclosed => ?_, aftermath_teardown s, ?_⟩
  · simp only [start, hheld, if_true]
    exact teardown_closed s
  · exact hsettled.gone hgone (by simpa [isIdle] using hidle)
  · have hfinal := final_closed hkept hsettled hclosed
    refine ⟨hfinal.empty, hsettled.drained hclosed, fun ticket hticket => ?_⟩
    simpa [hticket] using hfinal.once ticket
  · intro late left t hafter
    have hfinal := hafter.final hkept hsettled
    refine ⟨hfinal, fun hheld => ?_, fun count rest => ?_, fun condition checks count rest hstack => ?_⟩
    · have hpoll : t.start .poll = { t with stack := .polling 0 :: t.stack } := by
        simp [start, hheld]
      rw [hpoll]
      exact (poll_of_closed (s := { t with stack := .polling 0 :: t.stack }) hfinal.closed
        hfinal.empty rfl).1
    · exact stack_step_of_closed hfinal.closed hfinal.empty
    · have hstep : t.step = t.stepWait condition checks count rest := by simp only [step, hstack]
      rw [hstep, stepWait_of_closed hfinal.closed]
      exact ⟨rfl, rfl⟩

/-- A callback that a poll runs tears the host down, registers another callback and polls, while a
call waits in the queue and a third callback in its slot. -/
def tornRun : List Action :=
  [.register "outer" "outer" [.teardown, .register "inner" "inner" [] [], .poll] [],
    .register "next" "next" [] [], .register "other" "other" [] ["next"],
    .invoke "outer" .null false [], .invoke "other" .null true [], .poll]

/-- In that run only the first callback runs and each of the others is dropped once. A message that
comes late is not run either. -/
theorem teardown_final_of_tornRun :
    (tornRun.foldl perform {}).calls = [0] ∧ (tornRun.foldl perform {}).drops = [3, 2, 1] ∧
      Final (tornRun.foldl perform {}) [.call 0 "next" 1 ⟨.null, []⟩] []
        { tornRun.foldl perform {} with
          host := { (tornRun.foldl perform {}).host with
            queue := (tornRun.foldl perform {}).host.queue ++ [.call 0 "next" 1 ⟨.null, []⟩] } } := by
  obtain ⟨_, h₁⟩ := Reachable.new.perform rfl tornRun[0]
  obtain ⟨_, h₂⟩ := h₁.perform (by decide) tornRun[1]
  obtain ⟨_, h₃⟩ := h₂.perform (by decide) tornRun[2]
  obtain ⟨_, h₄⟩ := h₃.perform (by decide) tornRun[3]
  obtain ⟨_, h₅⟩ := h₄.perform (by decide) tornRun[4]
  obtain ⟨_, h₆⟩ := h₅.perform (by decide) tornRun[5]
  obtain ⟨-, -, -, -, hafter⟩ := teardown_final h₆
  have hclosed : (tornRun.foldl perform {}).host.closed = true := by decide
  exact ⟨by decide, by decide, (hafter _ _ _ ((Aftermath.closed hclosed).arrive _)).1⟩

end State

end HostBridge.Bridge
