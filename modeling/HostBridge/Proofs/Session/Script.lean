import HostBridge.Proofs.Engine.Busy
import HostBridge.Proofs.Session.Ledger
import HostBridge.Proofs.Session.Running

/-!
# Queries are answered from the script

A connector hands its responses out in the order in which they were queued, so the query that it
accepts in some place, over all its connections, gets the response that was queued in that place and
keeps it until its promotion is reported. As long as no connection was shut down, an operation is
cancelled only because somebody cancelled the result of its query. So a promotion ends as its
response says, unless its result was cancelled.
-/

namespace HostBridge.Session

open Bridge (Cookie)

namespace Observation

/-- A response that is queued for a connector. -/
@[simp]
def response? (c : Nat) : Observation → Option Engine.Response
  | .pushed d response => if d = c then some response else none
  | _ => none

/-- The operation and the result of a query that a connector accepts. -/
@[simp]
def place? (c : Nat) : Observation → Option (Nat × Nat)
  | .accepted _ (.memory d o) r _ => if d = c then some (o, r) else none
  | _ => none

/-- The result of a query that a connector accepts. -/
@[simp]
def resultOf? (c : Nat) : Observation → Option Nat
  | .accepted _ (.memory d _) r _ => if d = c then some r else none
  | _ => none

end Observation

namespace Moment

variable {m m' : Moment} {c o : Nat} {response : Engine.Response}

/-- The responses that were queued for a connector, in order. -/
def responses (m : Moment) (c : Nat) : List Engine.Response :=
  m.history.filterMap (Observation.response? c)

/-- The results of the queries that a connector has accepted, in order. -/
def queries (m : Moment) (c : Nat) : List Nat :=
  m.history.filterMap (Observation.resultOf? c)

theorem Later.response_at (h : Later m m') (ho : (m.responses c)[o]? = some response) :
    (m'.responses c)[o]? = some response := by
  obtain ⟨hlt, rfl⟩ := List.getElem?_eq_some_iff.mp ho
  exact List.prefix_iff_getElem?.mp (h.history.filterMap _) o hlt

/-! ## Responses -/

/-- A task that a move may start on a loop. A promotion takes the next response of its connector; the
end of a cluster is reported on the loop of an instance that has begun to shut down. -/
def Starts (m m' : Moment) (l : Nat) : Task → Prop
  | .promote c o response _ _ =>
    o = (m.state.engine.connector c).operations.length ∧
      ∃ responses, (m.state.engine.connector c).responses = response :: responses
  | .close i => i = l ∧ ∃ x : Instance, m'.state.instances[i]? = some x ∧ x.state ≠ .running
  | _ => True

/-- After a move, a task was there before or was started. -/
theorem Step.job (h : m.Step m') (hsane : m.Sane) {l key : Nat} {t : Task}
    (ht : m'.state.engine.job? l key = some t) :
    m.state.engine.job? l key = some t ∨ m.Starts m' l t := by
  have horderly := hsane.orderly
  have hsame : ∀ {engine : Engine.State Promotion Cookie Nat}, m.state.engine.SameJobs engine →
      engine.job? l key = some t → m.state.engine.job? l key = some t ∨ m.Starts m' l t :=
    fun hjobs hjob => Or.inl (hjobs.job? l key ▸ hjob)
  have hspawned : ∀ {engine : Engine.State Promotion Cookie Nat} {k : Nat} {u : Task},
      (engine.spawned k u).job? l key = some t →
      engine.Shifts (engine.spawned k u) [(k, u.untimed)] → m.state.engine.SameJobs engine →
      m.Starts m' k u.untimed → m.state.engine.job? l key = some t ∨ m.Starts m' l t := by
    intro engine k u hjob hshifts hjobs hstarts
    rcases hshifts.jobs l key t hjob with hjob | ⟨hnew, -⟩
    · exact hsame hjobs hjob
    · obtain ⟨rfl, rfl⟩ := Prod.mk.inj (List.mem_singleton.mp hnew)
      exact Or.inr hstarts
  have hfinished : ∀ {k key' : Nat} {u : Task} {engine : Engine.State Promotion Cookie Nat},
      m.state.engine.job? k key' = some u →
      engine.workers = (m.state.engine.finished k key').workers →
      engine.job? l key = some t → m.state.engine.job? l key = some t ∨ m.Starts m' l t := by
    intro k key' u engine htask hworkers hjob
    have hshifts := (Engine.State.Shifts.finished htask).congr hworkers
    rcases hshifts.jobs l key t hjob with hjob | ⟨hnew, -⟩
    · exact Or.inl hjob
    · simp at hnew
  cases h with
  | note | grasp | attach | letGo | connector | respond | refuse | askEarly | askLate | strikeStream
  | tell | drop | reap => exact Or.inl ht
  | create c => exact Or.inl (Engine.State.job?_addLoop _ l key ▸ ht)
  | @accept e i c x request name hides response responses hx hrunning hc hresponses =>
    obtain ⟨hi, hstop⟩ := horderly.takes hx hrunning
    exact hspawned ht (.spawned (horderly.sound.accepting request responses) hi hstop _)
      (.of_tasks rfl fun _ => rfl) ⟨rfl, responses, hresponses⟩
  | @ask r i x name e htarget hx hstop =>
    have hl := hsane.accounted.anchored horderly htarget hx
    exact hspawned ht (.spawned horderly.sound hl hstop _) (.of_tasks rfl fun _ => rfl) trivial
  | @strikeOperation e r c o hcall =>
    have hwoken := Engine.State.woken_cancelOperation m.state.engine c o
    exact hsame (.of_tasks hwoken.length hwoken.tasks) ht
  | @close i c x hx hrunning hc =>
    obtain ⟨hi, hstop⟩ := horderly.takes hx hrunning
    have hwoken := Engine.State.woken_closing m.state.engine c
    have hclosing := (getElem?_modify_const hx { x with state := .closingNetwork } i).trans
      (if_pos rfl)
    exact hspawned ht (.spawned (horderly.sound.closing c) (hwoken.length ▸ hi)
      (hwoken.stopping i ▸ hstop) _) (.of_tasks hwoken.length hwoken.tasks)
      ⟨rfl, _, hclosing, by simp⟩
  | @look k => exact hsame (Engine.State.sameJobs_looked _ k) ht
  | check => exact hsame (Engine.State.sameQueues_checked _ _ _).sameJobs ht
  | draw => exact hsame (Engine.State.sameQueues_drawn _ _ _ _).sameJobs ht
  | @sleep k key' c o keys response timer p hready htask hcancelled =>
    have hjob : m.state.engine.job? k key' =
        some (Engine.Task.promote c o response .armed p).untimed :=
      congrArg (Option.map Engine.Task.untimed) htask
    exact hsame (Engine.State.sameJobs_slept (Engine.State.lt_of_job? hjob) hjob) ht
  | elapse harmed => exact hsame (Engine.State.sameJobs_elapse harmed) ht
  | report _ htask hsettled _ | reportLost _ htask hsettled _ =>
    exact hfinished htask hsettled.workers ht
  | answer _ htask | stray _ htask => exact hfinished htask rfl ht
  | @shut k key' i keys x y hready htask hx =>
    have hi : x.loop < (m.state.engine.finished k key').workers.length := by
      rw [(Engine.State.Shifts.finished htask).length, horderly.loop i x hx, horderly.workers]
      exact (List.getElem?_eq_some_iff.mp hx).1
    exact hfinished htask rfl ((Engine.State.sameJobs_stop hi).job? l key ▸ ht)

/-- The responses that were queued are those that queries have taken, one each, and those that the
connector still has; and a promotion has the response of its place. -/
structure Scripted (m : Moment) : Prop where
  /-- Queries take responses from the front. -/
  script : ∀ c, ∃ used, m.responses c = used ++ (m.state.engine.connector c).responses ∧
    used.length = (m.state.engine.connector c).operations.length
  /-- A promotion that is still to be made has the response of its place. -/
  tasks : ∀ l key c o response timer p,
    m.state.engine.job? l key = some (.promote c o response timer p) →
      (m.responses c)[o]? = some response

namespace Scripted

theorem start : ({} : Moment).Scripted :=
  ⟨fun c => ⟨[], by simp [responses, Engine.State.connector], by simp [Engine.State.connector]⟩,
    by simp [Engine.State.job?, Engine.State.loop, Engine.State.worker]⟩

/-- The next response is that of the next place. -/
theorem next (h : m.Scripted) {rest : List Engine.Response}
    (hresponses : (m.state.engine.connector c).responses = response :: rest) :
    (m.responses c)[(m.state.engine.connector c).operations.length]? = some response := by
  obtain ⟨used, heq, hlength⟩ := h.script c
  rw [heq, hresponses, ← hlength, List.getElem?_append_right (Nat.le_refl _), Nat.sub_self]
  rfl

/-- Every query that was accepted has taken a response. -/
theorem exists_response (h : m.Scripted)
    (ho : o < (m.state.engine.connector c).operations.length) :
    ∃ response, (m.responses c)[o]? = some response := by
  obtain ⟨used, heq, hlength⟩ := h.script c
  refine ⟨_, List.getElem?_eq_getElem ?_⟩
  rw [heq, List.length_append]
  omega

/-- Every move leaves the responses to their places. -/
theorem of_script (h : m.Scripted) (hsane : m.Sane) (hstep : m.Step m')
    (hscript : ∀ c, ∃ used, m'.responses c = used ++ (m'.state.engine.connector c).responses ∧
      used.length = (m'.state.engine.connector c).operations.length) : m'.Scripted := by
  refine ⟨hscript, fun l key c o response timer p ht => hstep.later.response_at ?_⟩
  rcases hstep.job hsane ht with ht | ⟨rfl, rest, hresponses⟩
  · exact h.tasks l key c o response timer p ht
  · exact h.next hresponses

/-- A move that leaves the connectors alone. -/
theorem keep (h : m.Scripted) (hsane : m.Sane) (hstep : m.Step m')
    (hresponses : ∀ c, m'.responses c = m.responses c)
    (hconnector : ∀ c, (m'.state.engine.connector c).responses =
        (m.state.engine.connector c).responses ∧
      (m'.state.engine.connector c).operations.length =
        (m.state.engine.connector c).operations.length) : m'.Scripted := by
  refine h.of_script hsane hstep fun c => ?_
  rw [hresponses, (hconnector c).1, (hconnector c).2]
  exact h.script c

theorem step (h : m.Scripted) (hsane : m.Sane) (hstep : m.Step m') : m'.Scripted := by
  have hsame : ∀ c, (m.state.engine.connector c).responses =
        (m.state.engine.connector c).responses ∧
      (m.state.engine.connector c).operations.length =
        (m.state.engine.connector c).operations.length := fun _ => ⟨rfl, rfl⟩
  have hstep' := hstep
  cases hstep with
  | note | grasp | attach | letGo | create | tell | drop | look | sleep | draw | elapse | shut | stray
  | reap => exact h.keep hsane hstep' (fun _ => rfl) hsame
  | connector =>
    refine h.keep hsane hstep' (fun _ => rfl) fun c => ?_
    rw [having, Engine.State.connector_addConnector]
    exact ⟨rfl, rfl⟩
  | @respond d response hd =>
    refine h.of_script hsane hstep' fun c => ?_
    obtain ⟨used, heq, hlength⟩ := h.script c
    refine ⟨used, ?_, ?_⟩
    · rw [responses, List.filterMap_append, ← responses, heq, Engine.State.connector_respond hd]
      by_cases hc : d = c
      · simp [hc]
      · have hc' : ¬ c = d := fun e => hc e.symm
        simp [hc, hc']
    · rw [hlength, Engine.State.connector_respond hd]
      split
      · next hc => rw [hc]
      · rfl
  | @accept e i d x request name hides response rest hx hrunning hd hresponses =>
    refine h.of_script hsane hstep' fun c => ?_
    obtain ⟨used, heq, hlength⟩ := h.script c
    have hconnector : ∀ t, ((m.state.engine.accepting d request rest).spawned i t).connector c = _ :=
      fun _ => Engine.State.connector_accepting
        (Engine.State.lt_connectors_of_responses hresponses) request rest c
    by_cases hc : c = d
    · subst hc
      refine ⟨used ++ [response], ?_, ?_⟩
      · rw [responses, List.filterMap_append, ← responses, heq, hconnector]
        simp [List.filterMap_cons, hresponses]
      · rw [hconnector]
        simp [hlength]
    · refine ⟨used, ?_, ?_⟩
      · rw [responses, List.filterMap_append, ← responses, heq, hconnector]
        simp [List.filterMap_cons, hc]
      · rw [hconnector]
        simp [hc, hlength]
  | refuse | askEarly | ask | askLate | strikeStream | check | answer =>
    refine h.keep hsane hstep' (fun c => ?_) hsame
    simp [responses, List.filterMap_append, List.filterMap_cons]
  | @strikeOperation e r d o hcall =>
    refine h.keep hsane hstep' (fun c => ?_)
      (Engine.State.woken_cancelOperation m.state.engine d o).connector
    simp [responses, List.filterMap_append, List.filterMap_cons]
  | @close i d x hx hrunning hd =>
    exact h.keep hsane hstep' (fun _ => rfl) (Engine.State.woken_closing m.state.engine d).connector
  | report _ _ hsettled _ | reportLost _ _ hsettled _ =>
    refine h.keep hsane hstep' (fun c => ?_) fun c => ?_
    · simp [responses, List.filterMap_append, List.filterMap_cons]
    · obtain ⟨hresponses, hoperations⟩ := hsettled.connector c
      exact ⟨hresponses, by rw [hoperations]⟩

end Scripted

/-! ## Outcomes -/

/-- While no connection is shut down, only the cancellation of a result sets the flag of an
operation. -/
theorem Step.flag (h : m.Step m') (hrunning : m'.Running)
    (hflag : m'.state.engine.isCancelled c o = true) :
    m.state.engine.isCancelled c o = true ∨
      ∃ r, .cancelled r (.pending (.memory c o)) ∈ m'.history := by
  cases h with
  | note | grasp | attach | letGo | create | refuse | askEarly | ask | askLate | strikeStream | tell
  | drop | look | sleep | check | draw | elapse | answer | shut | stray | reap => exact Or.inl hflag
  | connector => exact Or.inl (Engine.State.isCancelled_addConnector _ c o ▸ hflag)
  | @respond d response hd => exact Or.inl (Engine.State.isCancelled_respond response c o ▸ hflag)
  | @accept e i d x request name hides response rest hx hrunning hd hresponses =>
    exact Or.inl (Engine.State.isCancelled_accepting request rest c o ▸ hflag)
  | @strikeOperation e r d p hcall =>
    by_cases hsame : c = d ∧ o = p
    · obtain ⟨rfl, rfl⟩ := hsame
      exact Or.inr ⟨r, by simp⟩
    · exact Or.inl (Engine.State.isCancelled_cancelOperation_ne hsame ▸ hflag)
  | @close i d x hx hrunning' hd =>
    have := hrunning i { x with state := .closingNetwork }
      (by simp only [having, getElem?_modify_const hx, if_true])
    cases this
  | report _ _ hsettled _ | reportLost _ _ hsettled _ =>
    rw [Engine.State.isCancelled, (hsettled.connector c).2] at hflag
    exact Or.inl hflag

/-- Only the cancellation of a result sets the flag of a stream. -/
theorem Step.streamFlag (h : m.Step m') {k : Nat} {x' : Engine.Stream}
    (hx' : m'.state.engine.stream? k = some x') (hflag : x'.cancelled = true) :
    (∃ x, m.state.engine.stream? k = some x ∧ x.cancelled = true) ∨
      ∃ r, .cancelled r (.active k) ∈ m'.history := by
  cases h with
  | note | grasp | attach | letGo | connector | respond | create | refuse | accept | askEarly | ask
  | askLate | tell | drop | look | sleep | check | elapse | answer | shut | stray | reap =>
    exact Or.inl ⟨x', hx', hflag⟩
  | @strikeOperation e r c o hcall =>
    have hwoken := Engine.State.woken_cancelOperation m.state.engine c o
    exact Or.inl ⟨x', by rw [← hx', Engine.State.stream?, ← hwoken.streams]; rfl, hflag⟩
  | @close i c x hx hrunning hc =>
    have hwoken := Engine.State.woken_closing m.state.engine c
    exact Or.inl ⟨x', by rw [← hx', Engine.State.stream?, ← hwoken.streams]; rfl, hflag⟩
  | @strikeStream e r i hcall =>
    by_cases hk : k = i
    · subst hk
      exact Or.inr ⟨r, by simp⟩
    · rw [Engine.State.stream?_cancelStream, if_neg hk] at hx'
      exact Or.inl ⟨x', hx', hflag⟩
  | report _ _ hsettled _ | reportLost _ _ hsettled _ =>
    rcases hsettled.stream? hx' with hx | ⟨-, -, rfl⟩
    · exact Or.inl ⟨x', hx, hflag⟩
    · cases hflag
  | @draw l key i keys cookie cancelled hready htask =>
    simp only [having, Engine.State.stream?_drawn] at hx'
    split at hx'
    · next hk =>
      obtain ⟨x, hx, rfl⟩ := Option.map_eq_some_iff.mp hx'
      exact Or.inl ⟨x, hk ▸ hx, (x.serve_loop cancelled).2 ▸ hflag⟩
    · exact Or.inl ⟨x', hx', hflag⟩

/-- Cancellations are somebody's, and promotions end as their responses say unless they were
cancelled. -/
structure Deliberate (m : Moment) : Prop where
  /-- An operation is cancelled only with a result. -/
  flags : ∀ c o, m.state.engine.isCancelled c o = true →
    ∃ r, .cancelled r (.pending (.memory c o)) ∈ m.history
  /-- A stream is cancelled only with a result. -/
  streams : ∀ k x, m.state.engine.stream? k = some x → x.cancelled = true →
    ∃ r, .cancelled r (.active k) ∈ m.history
  /-- A promotion ends as its response says, unless its result was cancelled. -/
  reports : ∀ r t stream error alive, .reported r t stream error alive ∈ m.history →
    (∃ target, .cancelled r target ∈ m.history) ∨
      ∃ i c o response, .accepted i (.memory c o) r t ∈ m.history ∧
        (m.responses c)[o]? = some response ∧ error = response.error ∧
          (stream.isSome = true ↔ response.error = none)

namespace Deliberate

theorem start : ({} : Moment).Deliberate :=
  ⟨by simp [Engine.State.isCancelled, Engine.State.connector], by simp [Engine.State.stream?],
    by simp⟩

/-- A cancelled operation belongs to a result that was cancelled. -/
theorem cancelled (h : m.Deliberate) (hsane : m.Sane) (hledger : m.Ledger) {i r t : Nat}
    (haccepted : .accepted i (.memory c o) r t ∈ m.history)
    (hflag : m.state.engine.isCancelled c o = true) : ∃ target, .cancelled r target ∈ m.history := by
  obtain ⟨r', ho⟩ := h.flags c o hflag
  obtain ⟨⟨i', t', haccepted'⟩, -⟩ := hsane.accounted.recorded _ ho
  rw [hledger.operation_unique haccepted haccepted']
  exact ⟨_, ho⟩

/-- A promotion whose result was not cancelled ends as the response in its place says. -/
theorem outcome (h : m.Deliberate) (hledger : m.Ledger) {i r t t' : Nat} {stream : Option Nat}
    {error : Option EngineError} {alive : Bool}
    (haccepted : .accepted i (.memory c o) r t ∈ m.history)
    (hresponse : (m.responses c)[o]? = some response)
    (hkept : ∀ target, .cancelled r target ∉ m.history)
    (hreported : .reported r t' stream error alive ∈ m.history) :
    error = response.error ∧ (stream.isSome = true ↔ response.error = none) := by
  rcases h.reports r t' stream error alive hreported with
    ⟨target, hcancelled⟩ | ⟨i', c', o', response', haccepted', hresponse', houtcome⟩
  · exact absurd hcancelled (hkept target)
  · obtain ⟨-, hoperation, -⟩ := hledger.accepted_unique haccepted haccepted'
    cases hoperation
    obtain rfl := Option.some.inj (hresponse.symm.trans hresponse')
    exact houtcome

/-- The stream of a result that was not cancelled is not cancelled. -/
theorem stream_free (h : m.Deliberate) (hsane : m.Sane) (hledger : m.Ledger) {r t k : Nat}
    {error : Option EngineError} {alive : Bool} {x : Engine.Stream}
    (hkept : ∀ target, .cancelled r target ∉ m.history)
    (hreported : .reported r t (some k) error alive ∈ m.history)
    (hx : m.state.engine.stream? k = some x) : x.cancelled = false := by
  by_contra hflag
  obtain ⟨r', hcancelled⟩ := h.streams k x hx (by simpa using hflag)
  obtain ⟨⟨t', error', alive', hreported'⟩, -⟩ := hsane.accounted.recorded _ hcancelled
  obtain rfl := hledger.stream_unique hreported hreported'
  exact hkept _ hcancelled

theorem step (h : m.Deliberate) (hsane : m.Sane) (hledger : m.Ledger) (hscripted : m.Scripted)
    (hrunning : m'.Running) (hstep : m.Step m') : m'.Deliberate := by
  have hlater := hstep.later
  have hsubset := hlater.history.subset
  refine ⟨fun c o hflag => ?_, fun k x hx hflag => ?_, fun r t stream error alive ho => ?_⟩
  · rcases hstep.flag hrunning hflag with hflag | hnew
    · obtain ⟨r, ho⟩ := h.flags c o hflag
      exact ⟨r, hsubset ho⟩
    · exact hnew
  · rcases hstep.streamFlag hx hflag with ⟨y, hy, hflag⟩ | hnew
    · obtain ⟨r, ho⟩ := h.streams k y hy hflag
      exact ⟨r, hsubset ho⟩
    · exact hnew
  · rcases hstep.mem_history ho with ho | hnews
    · rcases h.reports r t stream error alive ho with
        ⟨target, hcancelled⟩ | ⟨i, c, o, response, haccepted, hresponse, houtcome⟩
      · exact Or.inl ⟨target, hsubset hcancelled⟩
      · exact Or.inr ⟨i, c, o, response, hsubset haccepted, hlater.response_at hresponse, houtcome⟩
    · obtain ⟨l, key, keys, c, o, response, p, engine, hready, htask, rfl, rfl, hsettled⟩ := hnews
      have haccepted := (hsane.orderly.due l key _ htask).1
      have hresponse := hscripted.tasks l key c o response .fresh p htask
      have hresponse' := hlater.response_at hresponse
      cases hsettled with
      | cancelled hfound =>
        have hflag := hsane.orderly.sound.finds_of_busy?
          (Engine.State.busy?_of_found hfound hready htask) rfl
        obtain ⟨target, hcancelled⟩ := h.cancelled hsane hledger haccepted hflag
        exact Or.inl ⟨target, hsubset hcancelled⟩
      | failed _ herror | promoted _ herror =>
        exact Or.inr ⟨l, c, o, response, hsubset haccepted, hresponse', herror.symm, by simp [herror]⟩

end Deliberate

/-! ## Places -/

/-- The query that a connector accepted in some place has the operation of that number. -/
theorem Ledger.accepted_at (h : m.Ledger) {n r : Nat} (hr : (m.queries c)[n]? = some r) :
    ∃ i t, .accepted i (.memory c n) r t ∈ m.history := by
  have hoperations : (m.history.filterMap (Observation.place? c)).map Prod.fst =
      List.range (m.state.engine.connector c).operations.length := by
    rw [← h.operations, List.map_filterMap]
    refine List.filterMap_congr fun o _ => ?_
    cases o with
    | accepted i operation r t => cases operation <;> simp [apply_ite]
    | _ => rfl
  have hresults : (m.history.filterMap (Observation.place? c)).map Prod.snd = m.queries c := by
    rw [queries, List.map_filterMap]
    refine List.filterMap_congr fun o _ => ?_
    cases o with
    | accepted i operation r t => cases operation <;> simp [apply_ite]
    | _ => rfl
  rw [← hresults, List.getElem?_map] at hr
  obtain ⟨⟨o, r'⟩, hplace, rfl⟩ := Option.map_eq_some_iff.mp hr
  obtain rfl : o = n := by
    have hfst := congrArg (fun xs => xs[n]?) hoperations
    simp only [List.getElem?_map, hplace, Option.map_some] at hfst
    exact (List.getElem?_eq_some_iff.mp hfst.symm).2 ▸ List.getElem_range _
  obtain ⟨observation, ho, hentry⟩ := List.mem_filterMap.mp (List.mem_of_getElem? hplace)
  cases observation with
  | accepted i operation r t =>
    cases operation with
    | memory d o' =>
      simp only [Observation.place?] at hentry
      split at hentry
      · next hd =>
        cases hentry
        exact ⟨i, t, hd ▸ ho⟩
      · cases hentry
    | manual => cases hentry
  | _ => cases hentry

end Moment

end HostBridge.Session
