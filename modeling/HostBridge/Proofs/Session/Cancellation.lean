import HostBridge.Proofs.Session.Looks

/-!
# What a cancellation achieves

A cancellation finds what its result refers to and strikes it a moment later; the promotion and the
pulls go on in between. What counts is the moment of the stroke, and for each task the moment at which
it looks. If the promotion has not looked by the time of the stroke, the cancellation has found the
operation of that very query, and the promotion will be reported as cancelled: whatever its delay, its
timer and its scripted outcome, it makes no stream. If the cancellation has found a stream, no pull
that looks later gets a row from it.

A cancellation can come too late. A task that has looked goes on as if nothing had happened. And if the
operation was found, but struck only after the promotion was reported, the stream goes on giving rows.
-/

namespace HostBridge.Session

namespace Moment

variable {m m' : Moment} {r t : Nat} {target : Target}

/-! ## What comes after a cancellation -/

/-- Whoever looks after a cancellation struck sees it: the promotion of the query, and a pull if it was
the stream that was struck. -/
def Heeds (m : Moment) : Prop :=
  ∀ r target t cancelled, [.cancelled r target, .checked t cancelled].Sublist m.history →
    (∃ i operation, .accepted i operation r t ∈ m.history) ∨
      (∃ k stream, target = .active k ∧ .asked r t stream ∈ m.history) → cancelled = true

/-- What was cancelled before a promotion is reported is the operation of the query. -/
theorem Ledger.isCancelled_of_cancelled (h : m.Ledger) (hsane : m.Sane) {l key c o : Nat}
    {response : Engine.Response} {timer : Engine.Timer} {p : Promotion}
    (htask : m.state.engine.job? l key = some (.promote c o response timer p))
    (ho : .cancelled p.result target ∈ m.history) : m.state.engine.isCancelled c o = true := by
  obtain ⟨hknown, hstruck⟩ := hsane.accounted.recorded _ ho
  cases target with
  | empty => exact hstruck.elim
  | pending operation =>
    obtain ⟨i, t, haccepted⟩ := hknown
    obtain ⟨-, rfl, -⟩ := h.accepted_unique haccepted (hsane.orderly.due l key _ htask).1
    exact hstruck
  | active k =>
    obtain ⟨t, error, alive, hreported⟩ := hknown
    exact absurd hreported (h.not_reported hsane htask)

/-- A query that looks is still to be promoted, and sees whether its operation was cancelled. -/
theorem Ledger.promotion_of_check (h : m.Ledger) (hsane : m.Sane) {i : Nat} {operation : Operation}
    (haccepted : .accepted i operation r t ∈ m.history) {b : Bool}
    (hchecked : m.News (.checked t b)) : ∃ l key c o response p,
      m.state.engine.job? l key = some (.promote c o response .fresh p) ∧ p.result = r ∧
        operation = .memory c o ∧ b = m.state.engine.isCancelled c o := by
  obtain ⟨l, key, task, cookie, htask, hcookie, rfl, hchecks⟩ := hchecked
  have hjob : m.state.engine.job? l key = _ := congrArg (Option.map Engine.Task.untimed) htask
  have hdue := hsane.orderly.due l key _ hjob
  cases hchecks with
  | promote =>
    obtain rfl := Option.some.inj hcookie
    have hsame := h.ticket_unique hdue.1 haccepted rfl rfl
    simp only [Observation.accepted.injEq] at hsame
    obtain ⟨-, rfl, rfl, -⟩ := hsame
    exact ⟨l, key, _, _, _, _, hjob, rfl, rfl, rfl⟩
  | pull =>
    obtain rfl := Option.some.inj hcookie
    obtain ⟨⟨r', hasked⟩, -⟩ := hdue
    cases h.ticket_unique hasked haccepted rfl rfl

/-- A promotion that looks after its result was cancelled sees that. -/
theorem Ledger.sees_cancelled_operation (h : m.Ledger) (hsane : m.Sane)
    (hcancelled : .cancelled r target ∈ m.history) {i : Nat} {operation : Operation}
    (haccepted : .accepted i operation r t ∈ m.history) {b : Bool}
    (hchecked : m.News (.checked t b)) : b = true := by
  obtain ⟨l, key, c, o, response, p, hjob, rfl, -, rfl⟩ :=
    h.promotion_of_check hsane haccepted hchecked
  exact h.isCancelled_of_cancelled hsane hjob hcancelled

/-- A pull that looks after the stream of its result was cancelled sees that. -/
theorem Ledger.sees_cancelled_stream (h : m.Ledger) (hsane : m.Sane) {k : Nat}
    (hcancelled : .cancelled r (.active k) ∈ m.history) {stream : Option Nat}
    (hasked : .asked r t stream ∈ m.history) {b : Bool} (hchecked : m.News (.checked t b)) :
    b = true := by
  obtain ⟨l, key, task, cookie, htask, hcookie, rfl, hchecks⟩ := hchecked
  have hjob : m.state.engine.job? l key = _ := congrArg (Option.map Engine.Task.untimed) htask
  have hdue := hsane.orderly.due l key _ hjob
  cases hchecks with
  | promote =>
    obtain rfl := Option.some.inj hcookie
    cases h.ticket_unique hdue.1 hasked rfl rfl
  | @pull i cookie' =>
    obtain rfl := Option.some.inj hcookie
    obtain ⟨⟨r', hasked'⟩, -⟩ := hdue
    have hsame := h.ticket_unique hasked' hasked rfl rfl
    simp only [Observation.asked.injEq, true_and] at hsame
    obtain ⟨rfl, rfl⟩ := hsame
    -- both the pull and the cancellation go to the stream that was reported to the result
    obtain ⟨t', error, alive, hreported⟩ := (hsane.accounted.recorded _ hasked').2 i rfl
    obtain ⟨⟨t'', error', alive', hreported'⟩, x, hx, hflag⟩ :=
      hsane.accounted.recorded _ hcancelled
    obtain ⟨-, hk, -⟩ := h.reported_unique hsane hreported hreported'
    obtain rfl := Option.some.inj hk
    simp [Engine.State.isStreamCancelled, hx, hflag]

/-- Whatever got its ticket before was observed before. -/
theorem Step.mem_history_of_ticket (hstep : m.Step m') (hsane : m.Sane)
    (ht : t < m.callbacks.length) {o : Observation} (ho : o ∈ m'.history)
    (hticket : o.ticket? = some t) : o ∈ m.history := by
  rcases hstep.mem_history ho with ho | hnews
  · exact ho
  · rw [hsane.bridged.issued] at ht
    exfalso
    cases o <;> simp only [Observation.ticket?, reduceCtorEq] at hticket <;>
      obtain rfl := Option.some.inj hticket
    · exact absurd hnews.1 (Nat.ne_of_lt ht)
    · exact absurd hnews (Nat.ne_of_lt ht)
    · exact absurd hnews.1 (Nat.ne_of_lt ht)

theorem Heeds.step (h : m.Heeds) (hsane : m.Sane) (hledger : m.Ledger) (hstep : m.Step m') :
    m'.Heeds := by
  intro r target t b hbefore hof
  have hold : ∀ {o : Observation}, t < m.callbacks.length → o ∈ m'.history → o.ticket? = some t →
      o ∈ m.history := fun ht ho hticket => hstep.mem_history_of_ticket hsane ht ho hticket
  rcases hstep.before hbefore with hbefore | ⟨hcancelled, hnews⟩ | ⟨r', t', k', he⟩
  · have hchecked : .checked t b ∈ m.history := hbefore.subset (by simp)
    have ht : t < m.callbacks.length := hsane.accounted.recorded _ hchecked
    refine h r target t b hbefore (hof.imp ?_ ?_)
    · rintro ⟨i, operation, haccepted⟩
      exact ⟨i, operation, hold ht haccepted rfl⟩
    · rintro ⟨k, stream, rfl, hasked⟩
      exact ⟨k, stream, rfl, hold ht hasked rfl⟩
  · have ht : t < m.callbacks.length := by
      obtain ⟨l, key, task, cookie, htask, hcookie, rfl, -⟩ := hnews
      have hjob : m.state.engine.job? l key = _ := congrArg (Option.map Engine.Task.untimed) htask
      exact (hsane.orderly.due l key _ hjob).ticket_lt ((cookie?_untimed task).trans hcookie)
    rcases hof with ⟨i, operation, haccepted⟩ | ⟨k, stream, rfl, hasked⟩
    · exact hledger.sees_cancelled_operation hsane hcancelled (hold ht haccepted rfl) hnews
    · exact hledger.sees_cancelled_stream hsane hcancelled (hold ht hasked rfl) hnews
  · cases he

/-! ## A cancelled promotion is reported -/

/-- What follows on a completion of the engine does not change the engine, except that the loop of a
closed cluster is asked to stop. -/
theorem engine_complete (s : State) (c : Completion) :
    (s.complete .loop c).engine = s.engine ∨
      ∃ l, (s.complete .loop c).engine = s.engine.stop l := by
  have hinvoke : ∀ (s : State) cookie work, (s.invoke .loop cookie work).engine = s.engine := by
    intro s cookie work
    simp only [State.invoke]
    split <;> rfl
  cases c with
  | promoted p stream error =>
    refine Or.inl ?_
    simp only [State.complete, State.promote]
    split
    · rfl
    · rw [hinvoke]
      split <;> rfl
  | row cookie row => exact Or.inl (hinvoke s cookie (.row row))
  | closed i =>
    simp only [State.complete, State.clusterClosed]
    split
    · exact Or.inl rfl
    · next x hx =>
      split
      · exact Or.inl rfl
      · refine Or.inr ⟨x.loop, ?_⟩
        split <;> rfl

/-- A turn of the session is a turn of the engine, up to requests to stop. -/
theorem engine_turn (m : Moment) (l : Nat) :
    (m.perform (.turn l)).state.engine.effort l = (m.state.engine.turn l).2.effort l ∧
      (∀ key, (m.perform (.turn l)).state.engine.job? l key =
        (m.state.engine.turn l).2.job? l key) ∧
      ∀ key, (m.perform (.turn l)).state.engine.Passed l key ↔
        (m.state.engine.turn l).2.Passed l key := by
  simp only [perform, State.turn]
  generalize m.state.engine.turn l = turned
  obtain ⟨c, engine⟩ := turned
  cases c with
  | none => exact ⟨rfl, fun _ => rfl, fun _ => Iff.rfl⟩
  | some c =>
    rcases engine_complete { m.state with engine } c with he | ⟨k, he⟩
    · simp only [he, implies_true, and_self]
    · simp only [he]
      exact ⟨Engine.State.effort_stop engine k l, Engine.State.job?_stop engine k l,
        Engine.State.passed_stop engine k l⟩

/-- The promotion of a cancelled operation is reported after some turns of its loop, unless it has
looked before the cancellation. -/
theorem Sane.reports_cancelled (hsane : m.Sane) {l key c o : Nat} {response : Engine.Response}
    {p : Promotion} (htask : m.state.engine.job? l key = some (.promote c o response .fresh p))
    (hcancelled : m.state.engine.isCancelled c o = true)
    (hpassed : ¬ m.state.engine.Passed l key) :
    ∃ n alive, .reported p.result p.cookie.ticket none (some .canceled) alive ∈
      ((List.replicate n (Event.turn l)).foldl perform m).history := by
  induction heffort : m.state.engine.effort l using Nat.strongRecOn generalizing m with
  | ind n ih =>
    obtain ⟨hsane', hlater⟩ := hsane.event (.turn l)
    obtain ⟨heffort', hjob', hpassed'⟩ := engine_turn m l
    have hturned := Engine.State.turned_turn hsane.orderly.sound l
    have hstage : (m.state.engine.worker l).stage ≠ .ended := by
      intro hended
      rw [hsane.orderly.ended l hended key] at htask
      cases htask
    rcases hturned.cancelled hsane.orderly.sound hstage (hsane.footing.unparked l) htask
      hcancelled hpassed with hreport | ⟨hjob, hlt, hstill⟩
    · refine ⟨1, (m.state.target? p.result).isSome, ?_⟩
      simp [perform, hreport, State.observe]
    · obtain ⟨k, alive, hk⟩ := ih _ (heffort ▸ heffort' ▸ hlt) hsane'
        ((hjob' key).trans (hjob.trans htask)) (hlater.engine.cancelled c o hcancelled)
        (fun h => hstill ((hpassed' key).mp h)) rfl
      exact ⟨k + 1, alive, hk⟩

/-- A promotion that has looked and was not cancelled then is remembered for that. -/
theorem Looked.checked_of_passed (h : m.Looked) {l key c o : Nat} {response : Engine.Response}
    {p : Promotion} (htask : m.state.engine.job? l key = some (.promote c o response .fresh p))
    (hpassed : m.state.engine.Passed l key) : .checked p.cookie.ticket false ∈ m.history := by
  obtain ⟨hhead, hfound⟩ := hpassed
  obtain ⟨rest, hready⟩ := List.head?_eq_some_iff.mp hhead
  obtain ⟨cookie, cancelled, hcookie, hchecked, hx⟩ :=
    h l _ _ (Engine.State.busy?_of_found hfound hready htask)
  obtain rfl := Option.some.inj hcookie
  obtain rfl : false = cancelled := by simpa using hx
  exact hchecked

/-- The promotion of a query whose result was cancelled was reported, or is reported as cancelled
after some turns of its loop, unless it has looked before. -/
theorem Ledger.comes_to_report (h : m.Ledger) (hsane : m.Sane) (hlooked : m.Looked)
    (ho : .cancelled r target ∈ m.history)
    (hseen : ∀ i operation t cancelled, .accepted i operation r t ∈ m.history →
      .checked t cancelled ∈ m.history → cancelled = true) :
    (∃ t stream error alive, .reported r t stream error alive ∈ m.history) ∨
      ∃ l n t alive, .reported r t none (some .canceled) alive ∈
        ((List.replicate n (Event.turn l)).foldl perform m).history := by
  obtain ⟨hknown, hstruck⟩ := hsane.accounted.recorded _ ho
  cases target with
  | empty => exact hstruck.elim
  | pending operation =>
    obtain ⟨i, t, haccepted⟩ := hknown
    rcases h.reported_or_task hsane haccepted with
      hreported | ⟨key, c, o, response, p, htask, -, rfl, rfl⟩
    · exact Or.inl ⟨t, hreported⟩
    · have hflag := h.isCancelled_of_cancelled hsane htask ho
      have hpassed : ¬ m.state.engine.Passed i key := fun hpassed => by
        cases hseen _ _ _ _ haccepted (hlooked.checked_of_passed htask hpassed)
      obtain ⟨n, alive, hreported⟩ := hsane.reports_cancelled htask hflag hpassed
      exact Or.inr ⟨i, n, _, alive, hreported⟩
  | active k =>
    obtain ⟨t, error, alive, hreported⟩ := hknown
    exact Or.inl ⟨t, _, error, alive, hreported⟩

end Moment

open Moment

theorem heeds_run (events : List Event) : (run events).Heeds := by
  refine ledger_induction ?_ (fun _ _ hsane hledger hstep h => h.step hsane hledger hstep) events
  intro r target t cancelled hbefore
  exact absurd hbefore.length_le (by simp)

theorem run_append (events events' : List Event) :
    run (events ++ events') = events'.foldl perform (run events) :=
  List.foldl_append

section Split

variable {events : List Event} {before after : List Observation} {r : Nat} {target : Target}
  (hsplit : (run events).history = before ++ .cancelled r target :: after)
include hsplit

/-- What looks after the cancellation struck sees it. -/
theorem seen_after {t : Nat} {cancelled : Bool}
    (hchecked : .checked t cancelled ∈ (run events).history)
    (hearly : .checked t cancelled ∉ before)
    (hof : (∃ i operation, .accepted i operation r t ∈ (run events).history) ∨
      ∃ k stream, target = .active k ∧ .asked r t stream ∈ (run events).history) :
    cancelled = true := by
  refine heeds_run events r target t cancelled ?_ hof
  rw [hsplit] at hchecked ⊢
  have hafter : .checked t cancelled ∈ after := by
    simpa using (List.mem_append.mp hchecked).resolve_left hearly
  exact ((List.singleton_sublist.mpr hafter).cons_cons _).trans (List.sublist_append_right _ _)

/-- A promotion that did not look before the cancellation struck is reported as cancelled. -/
theorem reported_as_cancelled
    (hlate : ∀ i operation t cancelled, .accepted i operation r t ∈ (run events).history →
      .checked t cancelled ∉ before)
    {t : Nat} {stream : Option Nat} {error : Option EngineError} {alive : Bool}
    (hreported : .reported r t stream error alive ∈ (run events).history) :
    stream = none ∧ error = some .canceled := by
  obtain ⟨i, operation, haccepted, -⟩ := (sane_run events).accounted.recorded _ hreported
  obtain ⟨cancelled, hchecked, hspent⟩ := (looks_run events).explained _ hreported
  exact hspent (seen_after hsplit hchecked (hlate _ _ _ _ haccepted) (Or.inl ⟨_, _, haccepted⟩))

end Split

/-- What a successful cancellation achieves. If the promotion of the query had neither looked nor been
reported before the stroke, then it is reported as cancelled and without a stream, no stream is made
for the query, and some turns of its loop bring the report about. If the cancellation found the stream
of the result, every pull that did not look before the stroke and is answered after it is told that
the stream was cancelled or has come to its end. -/
theorem cancellation_heeded (events : List Event) (before after : List Observation) (r : Nat)
    (target : Target) (hsplit : (run events).history = before ++ .cancelled r target :: after) :
    ((∀ i operation t cancelled, .accepted i operation r t ∈ (run events).history →
        .checked t cancelled ∉ before) →
      (∀ t stream error alive, .reported r t stream error alive ∈ (run events).history →
        stream = none ∧ ∃ e, error = some e ∧ e.code = .canceled) ∧
      (∀ k < (run events).state.engine.streams.length, ∃ r' t error alive, r' ≠ r ∧
        .reported r' t (some k) error alive ∈ (run events).history) ∧
      ∃ l n t e alive, e.code = .canceled ∧ .reported r t none (some e) alive ∈
        (run (events ++ List.replicate n (.turn l))).history) ∧
    ∀ k, target = .active k → ∀ t row, .answered t row ∈ after →
      (∃ stream, .asked r t stream ∈ (run events).history) →
      (∀ cancelled, .checked t cancelled ∉ before) →
        row = .done ∨ ∃ e, row = .failed e ∧ e.code = .canceled := by
  have hsane := sane_run events
  have hledger := ledger_run events
  have hcancelled : .cancelled r target ∈ (run events).history := by simp [hsplit]
  refine ⟨fun hlate => ?_, ?_⟩
  · have hreported : ∀ t stream error alive,
        .reported r t stream error alive ∈ (run events).history →
          stream = none ∧ error = some .canceled :=
      fun _ _ _ _ ho => reported_as_cancelled hsplit hlate ho
    refine ⟨fun t stream error alive ho => ?_, fun k hk => ?_, ?_⟩
    · obtain ⟨hstream, rfl⟩ := hreported t stream error alive ho
      exact ⟨hstream, .canceled, rfl, rfl⟩
    · obtain ⟨r', t, error, alive, ho⟩ := hledger.exists_reported hk
      refine ⟨r', t, error, alive, ?_, ho⟩
      rintro rfl
      cases (hreported _ _ _ _ ho).1
    · have hseen : ∀ i operation t cancelled, .accepted i operation r t ∈ (run events).history →
          .checked t cancelled ∈ (run events).history → cancelled = true :=
        fun i operation t cancelled haccepted hchecked => seen_after hsplit hchecked
          (hlate i operation t cancelled haccepted) (Or.inl ⟨i, operation, haccepted⟩)
      rcases hledger.comes_to_report hsane (looks_run events).looked hcancelled hseen with
        ⟨t, stream, error, alive, ho⟩ | ⟨l, n, t, alive, ho⟩
      · obtain ⟨rfl, rfl⟩ := hreported t stream error alive ho
        exact ⟨0, 0, t, .canceled, alive, rfl, by rw [run_append]; exact ho⟩
      · exact ⟨l, n, t, .canceled, alive, rfl, by rw [run_append]; exact ho⟩
  · rintro k rfl t row ho ⟨stream, hasked⟩ hlate
    have hanswered : .answered t row ∈ (run events).history := by simp [hsplit, ho]
    rcases (looks_run events).explained _ hanswered with rfl | ⟨cancelled, hchecked, hspent⟩
    · exact Or.inr ⟨.clusterClosed, rfl, rfl⟩
    · exact hspent (seen_after hsplit hchecked (hlate cancelled) (Or.inr ⟨k, stream, rfl, hasked⟩))

/-- The task with the callback of a ticket looked whether it was cancelled. -/
def Observation.isLook (t : Nat) : Observation → Bool
  | .checked ticket _ => ticket == t
  | _ => false

/-- Of two queries with rows, the first has a delay. It is cancelled while it sleeps, and its delay
ends before the cancellation strikes; the second is promoted, pulled from, cancelled and pulled from
once more. -/
def cancelledRun : List Event :=
  [.act .connector, .act (.respond 0 { rows := [.done], delay := some 5 }),
    .act (.respond 0 { rows := [.content "x".toUTF8 none, .content "y".toUTF8 none] }),
    .act (.create 0 { connection := "mem" }),
    .act (.query 0 { statement := "a" } "slow"), .resume,
    .act (.query 0 { statement := "b" } "fast"), .resume,
    .turn 0, .turn 0, .turn 0, .act (.cancel 0), .elapse 0 0, .resume,
    .act (.next 1 "first")] ++ List.replicate 5 (.turn 0) ++
  [.act (.cancel 1), .resume, .act (.next 1 "second")] ++ List.replicate 3 (.turn 0)

/-- In that run the promotion of the first query is reported as cancelled, although its delay is
over, and the last pull gets no row. -/
theorem cancellation_heeded_in_cancelledRun :
    (∃ stream error, .reported 0 0 stream error true ∈ (run cancelledRun).history ∧
      stream = none ∧ ∃ e, error = some e ∧ e.code = .canceled) ∧
    ∃ row, .answered 3 row ∈ (run cancelledRun).history ∧
      (row = .done ∨ ∃ e, row = .failed e ∧ e.code = .canceled) := by
  have hunseen : ∀ {n t : Nat}, ((run cancelledRun).history.take n).any (Observation.isLook t) = false →
      ∀ cancelled, .checked t cancelled ∉ (run cancelledRun).history.take n := by
    intro n t hnone cancelled ho
    simpa [Observation.isLook] using List.any_eq_false.mp hnone _ ho
  constructor
  · have hreported : .reported 0 0 none (some .canceled) true ∈ (run cancelledRun).history :=
      List.mem_of_getElem? (i := 9) rfl
    have haccepted : .accepted 0 (.memory 0 0) 0 0 ∈ (run cancelledRun).history :=
      List.mem_of_getElem? (i := 2) rfl
    obtain ⟨h, -⟩ := cancellation_heeded cancelledRun ((run cancelledRun).history.take 6)
      ((run cancelledRun).history.drop 7) 0 (.pending (.memory 0 0)) rfl
    refine ⟨_, _, hreported, (h ?_).1 _ _ _ _ hreported⟩
    intro i operation t cancelled haccepted'
    obtain ⟨-, -, rfl⟩ := (ledger_run _).accepted_unique haccepted haccepted'
    exact hunseen (by decide +kernel) cancelled
  · have hanswered : .answered 3 (.failed .canceled) ∈ (run cancelledRun).history.drop 13 :=
      List.mem_of_getElem? (i := 2) rfl
    obtain ⟨-, h⟩ := cancellation_heeded cancelledRun ((run cancelledRun).history.take 12)
      ((run cancelledRun).history.drop 13) 1 (.active 0) rfl
    exact ⟨_, List.mem_of_mem_drop hanswered, h 0 rfl 3 _ hanswered
      ⟨some 0, List.mem_of_getElem? (i := 13) rfl⟩ (hunseen (by decide +kernel))⟩

/-- A query is cancelled when its promotion has looked. -/
def overlookedRun : List Event :=
  [.act .connector, .act (.respond 0 {}), .act (.create 0 { connection := "mem" }),
    .act (.query 0 { statement := "a" } "query"), .resume, .turn 0, .act (.cancel 0), .resume, .turn 0]

/-- A cancellation finds the operation of a query, which has its stream by the time of the stroke. -/
def staleRun : List Event :=
  [.act .connector, .act (.respond 0 { rows := [.content "x".toUTF8 none] }),
    .act (.create 0 { connection := "mem" }), .act (.query 0 { statement := "a" } "query"), .resume,
    .turn 0, .act (.cancel 0), .turn 0, .resume, .act (.next 0 "row"), .turn 0, .turn 0, .turn 0]

/-- A cancellation may come too late. Between the look and the report of a promotion it does not keep
the stream from being made; and if it has found the operation of a query that is promoted before the
stroke, later pulls get rows. -/
theorem cancellation_may_come_late :
    (¬ ∀ (events : List Event) (before after : List Observation) (r : Nat) (target : Target),
      (run events).history = before ++ .cancelled r target :: after →
      (∀ t stream error alive, .reported r t stream error alive ∉ before) →
      ∀ t stream error alive, .reported r t stream error alive ∈ after → stream = none) ∧
    ¬ ∀ (events : List Event) (before after : List Observation) (r : Nat) (target : Target),
      (run events).history = before ++ .cancelled r target :: after →
      (∃ t k error, .reported r t (some k) error true ∈ before) →
      ∀ t stream row, .asked r t stream ∈ after → .answered t row ∈ after →
        row = .done ∨ ∃ e, row = .failed e ∧ e.code = .canceled := by
  constructor
  · intro h
    have hnone := h overlookedRun ((run overlookedRun).history.take 3)
      [.reported 0 0 (some 0) none true] 0 (.pending (.memory 0 0)) rfl
    have hbefore : (run overlookedRun).history.take 3 =
        [.pushed 0 {}, .accepted 0 (.memory 0 0) 0 0, .checked 0 false] := rfl
    cases hnone (by simp [hbefore]) 0 (some 0) none true List.mem_cons_self
  · intro h
    rcases h staleRun ((run staleRun).history.take 4) ((run staleRun).history.drop 5) 0
      (.pending (.memory 0 0)) rfl ⟨0, 0, none, List.mem_of_getElem? (i := 3) rfl⟩ 1 (some 0)
      (.content "x".toUTF8 none) (List.mem_of_getElem? (i := 0) rfl)
      (List.mem_of_getElem? (i := 2) rfl) with hdone | ⟨e, hfailed, -⟩
    · cases hdone
    · cases hfailed

end HostBridge.Session
