import HostBridge.Proofs.Session.Cancellation
import HostBridge.Proofs.Session.Sight.Reports

/-!
# Connections that share a connector

What comes of the queries of a connection when another one is destroyed or dropped, in the middle of
a run? Two runs are compared, one with the end of the other connection and one without. If the two
moments after that look the same to the connection, they look the same ever after, as long as nobody
uses the other connection; and what looks the same is reported the same.

Closing a cluster cancels all operations of its connector. So the two moments look the same if the
connection has no open operation on that connector, that is, if each of its queries there has looked
whether it was cancelled, unless it is cancelled or reported already. Otherwise its queries are
cancelled along with those of the connection that ends.
-/

namespace HostBridge.Session

namespace Moment

variable {m m₁ m₂ : Moment} {a b r : Nat}

/-! ## Two runs -/

/-- The host thread begins no call in the middle of another. -/
def heeds : Moment → List Event → Bool
  | _, [] => true
  | m, event :: events => m.takes event && (m.perform event).heeds events

/-- What the engine reports of a result in the course of events. A stream is reported as it is when
it is made. -/
def outcomes (r : Nat) : Moment → List Event → List Reported
  | _, [] => []
  | m, event :: events => m.reports r event ++ outcomes r (m.perform event) events

theorem outcomes_append (r : Nat) (m : Moment) (events events' : List Event) :
    outcomes r m (events ++ events') =
      outcomes r m events ++ outcomes r (events.foldl perform m) events' := by
  induction events generalizing m with
  | nil => rfl
  | cons event events ih =>
    rw [List.cons_append, outcomes, outcomes, ih, List.append_assoc]
    rfl

theorem Regular.later (h : m.Regular) (events : List Event) :
    Later m (events.foldl perform m) :=
  (h.sane.foldl_induction (fun _ _ _ hstep hlater => hlater.trans hstep.later) events
    (Later.refl m)).2

theorem Later.owns {m' : Moment} (h : Later m m') (howns : m.owns b r = true) :
    m'.owns b r = true := by
  obtain ⟨operation, t, haccepted⟩ := owns_iff.mp howns
  exact owns_iff.mpr ⟨operation, t, h.history.subset haccepted⟩

/-- A result belongs to one connection. -/
theorem Ledger.owner_unique (h : m.Ledger) {i : Nat} (hb : m.owns b r = true)
    (hi : m.owns i r = true) : i = b := by
  obtain ⟨operation, t, haccepted⟩ := owns_iff.mp hb
  obtain ⟨operation', t', haccepted'⟩ := owns_iff.mp hi
  exact (h.accepted_unique haccepted' haccepted).1

/-- Whose result it is, is in sight. -/
theorem Sane.owns_eq (h : m.Sane) (a : Nat) :
    m.owns b r = ((m.sight a b).results r).isSome := by
  cases howns : m.owns b r with
  | false => simp [sight, howns]
  | true =>
    have hlt := h.lt_of_owns howns
    simp [sight, howns, hlt]

/-- What the events report of a result that is the connection's own in the end is in sight. -/
theorem Regular.reports_eq (h : m.Regular) (event : Event) {events : List Event}
    (howns : (events.foldl perform (m.perform event)).owns b r = true) :
    m.reports r event = (m.sight a b).reports b r event := by
  refine Moment.reports_eq h (fun i hi => ?_) event
  have hlater : Later m (events.foldl perform (m.perform event)) := h.later (event :: events)
  exact ((h.event event).foldl events).ledger.owner_unique howns (hlater.owns hi)

/-- What happens to the queries of a connection depends on what is in sight of it. -/
theorem outcomes_eq_of_sight (events : List Event) (h₁ : m₁.Regular) (h₂ : m₂.Regular)
    (hsight : m₁.sight a b = m₂.sight a b) (ha : a < m₁.state.instances.length)
    (huses : ∀ e ∈ events, e.uses a = false) (hheeds₁ : m₁.heeds events = true)
    (hheeds₂ : m₂.heeds events = true) :
    (events.foldl perform m₁).owns b r = (events.foldl perform m₂).owns b r ∧
      ((events.foldl perform m₂).owns b r = true →
        outcomes r m₁ events = outcomes r m₂ events) := by
  -- by induction on the events: the two moments look the same all along
  induction events generalizing m₁ m₂ with
  | nil =>
    refine ⟨?_, fun _ => rfl⟩
    rw [List.foldl_nil, List.foldl_nil, h₁.sane.owns_eq a, h₂.sane.owns_eq a, hsight]
  | cons event events ih =>
    simp only [heeds, Bool.and_eq_true] at hheeds₁ hheeds₂
    have hlength : m₁.state.instances.length = m₂.state.instances.length :=
      congrArg Sight.instances hsight
    have huses' : event.uses a = false := huses event (by simp)
    have hsight' : (m₁.perform event).sight a b = (m₂.perform event).sight a b := by
      rw [sight_perform h₁ ha huses' hheeds₁.1, sight_perform h₂ (hlength ▸ ha) huses' hheeds₂.1,
        hsight]
    have ha' : a < (m₁.perform event).state.instances.length := by
      obtain ⟨x, hx, -⟩ := (h₁.sane.event event).2.instances a _ (List.getElem?_eq_getElem ha)
      exact (List.getElem?_eq_some_iff.mp hx).1
    obtain ⟨howns, houtcomes⟩ := ih (h₁.event event) (h₂.event event) hsight' ha'
      (fun e he => huses e (by simp [he])) hheeds₁.2 hheeds₂.2
    refine ⟨howns, fun hb => ?_⟩
    rw [outcomes, outcomes, houtcomes hb, h₁.reports_eq event (a := a) (howns.trans hb),
      h₂.reports_eq event (a := a) hb, hsight]

/-! ## The end of a connection -/

/-- Every query of the connection on a connector is cancelled, was reported, or has looked. -/
def Clear (m : Moment) (b c : Nat) : Prop :=
  ∀ o r t, .accepted b (.memory c o) r t ∈ m.history →
    m.Past r ∨ ∃ seen, .checked t seen ∈ m.history

/-- Nothing of the end of a connection is in sight of another that is clear. -/
theorem sight_end (h : m.Regular) (hidle : m.call = .idle) (hab : a ≠ b)
    (hclear : ∀ c, m.serves? a = some c → m.Clear b c) :
    (m.having (m.state.destroy a).2).sight a b = m.sight a b := by
  cases hserves : m.serves? a with
  | none =>
    obtain ⟨trace, heq⟩ := destroy_unserved h.sane hserves
    rw [heq]
    rfl
  | some c =>
    have hself : (m.sight a b).abandon c (List.range ((m.sight a b).stock c).2) = m.sight a b := by
      refine h.abandon_eq_self fun o _ hopen => ?_
      obtain ⟨-, key, response, p, hjob⟩ := id hopen
      have hdue := (h.sane.orderly.due b key _ hjob).1
      obtain ⟨-, hpast, hlooked⟩ := h.owner_of_open hopen hdue
      rcases hclear c hserves o _ _ hdue with hpast' | ⟨seen, hchecked⟩
      · exact hpast hpast'
      · exact hlooked seen hchecked
    rw [sight_served h hidle hserves, if_neg hab, hself]
    refine Sight.ext rfl rfl rfl (funext fun k => ?_) rfl rfl rfl rfl rfl rfl
    simp only [sight]
    split <;> rfl

/-- The operation of a query is cancelled, and its promotion has not missed that. -/
structure Withdrawn (m : Moment) (c o r t : Nat) : Prop where
  /-- The query was accepted. -/
  accepted : ∃ i, .accepted i (.memory c o) r t ∈ m.history
  /-- The operation is cancelled. -/
  cancelled : m.state.engine.isCancelled c o = true
  /-- If the promotion has looked, it saw a cancellation. -/
  seen : ∀ b, .checked t b ∈ m.history → b = true

theorem Withdrawn.step {m' : Moment} {c o t : Nat} (h : m.Withdrawn c o r t) (hsane : m.Sane)
    (hledger : m.Ledger) (hstep : m.Step m') : m'.Withdrawn c o r t := by
  obtain ⟨i, haccepted⟩ := h.accepted
  have hlater := hstep.later
  refine ⟨⟨i, hlater.history.subset haccepted⟩, hlater.engine.cancelled c o h.cancelled,
    fun b hchecked => ?_⟩
  rcases hstep.mem_history hchecked with hold | hnews
  · exact h.seen b hold
  · obtain ⟨l, key, d, q, response, p, -, -, hoperation, rfl⟩ :=
      hledger.promotion_of_check hsane haccepted hnews
    obtain ⟨rfl, rfl⟩ := Operation.memory.inj hoperation
    exact h.cancelled

theorem Withdrawn.event {c o t : Nat} (h : m.Withdrawn c o r t) (hm : m.Regular) (event : Event) :
    (m.perform event).Withdrawn c o r t :=
  (hm.sane.steps_induction (P := fun m => m.Ledger ∧ m.Withdrawn c o r t)
    (fun _ _ hsane hstep h => ⟨h.1.step hsane hstep, h.2.step hsane h.1 hstep⟩)
    (steps_perform hm.sane.footing event) ⟨hm.ledger, h⟩).2.2

/-- What is reported of a withdrawn query is that it was cancelled. -/
theorem Withdrawn.reported {c o t : Nat} (h : m.Withdrawn c o r t) (hm : m.Regular) {t' : Nat}
    {stream : Option Nat} {error : Option EngineError} {alive : Bool}
    (hreported : .reported r t' stream error alive ∈ m.history) :
    stream = none ∧ error = some .canceled := by
  obtain ⟨i, haccepted⟩ := h.accepted
  obtain ⟨i', operation, haccepted', -⟩ := hm.sane.accounted.recorded _ hreported
  obtain ⟨-, -, rfl⟩ := hm.ledger.accepted_unique haccepted haccepted'
  obtain ⟨cancelled, hchecked, hspent⟩ := hm.looks.explained _ hreported
  exact hspent (h.seen cancelled hchecked)

theorem Withdrawn.outcomes {c o t : Nat} (events : List Event) (h : m.Withdrawn c o r t) (hm : m.Regular) :
    ∀ report ∈ outcomes r m events, report = (none, some .canceled) := by
  induction events generalizing m with
  | nil => simp [Moment.outcomes]
  | cons event events ih =>
    intro report hreport
    rcases List.mem_append.mp hreport with hreport | hreport
    · obtain ⟨x, hx, hreportOf⟩ := List.mem_filterMap.mp hreport
      cases x <;> simp only [reportOf?, reduceCtorEq] at hreportOf
      split at hreportOf
      · next hr =>
        subst hr
        obtain ⟨rfl, rfl⟩ := (h.event hm event).reported (hm.event event) (List.mem_of_mem_drop hx)
        exact (Option.some.inj hreportOf).symm
      · cases hreportOf
    · exact ih (h.event hm event) (hm.event event) report hreport

section End

variable {deed : Deed} (hdeed : deed = .destroy a ∨ deed = .dropConnection a)
include hdeed

/-- However a connection ends, it is asked to shut down. -/
theorem exists_trace_of_end (h : m.Regular) (hidle : m.call = .idle) :
    ∃ trace, m.perform (.act deed) = m.having { (m.state.destroy a).2 with trace } := by
  simp only [perform, hidle]
  rcases hdeed with rfl | rfl
  · exact ⟨(m.state.destroy a).2.trace, rfl⟩
  · obtain ⟨trace, heq⟩ := dropConnection_eq h.sane a
    simp only [act, heq]
    exact ⟨trace, rfl⟩

theorem sight_perform_end (h : m.Regular) (hidle : m.call = .idle) (hab : a ≠ b)
    (hclear : ∀ c, m.serves? a = some c → m.Clear b c) :
    (m.perform (.act deed)).sight a b = m.sight a b := by
  obtain ⟨trace, heq⟩ := exists_trace_of_end hdeed h hidle
  rw [heq]
  exact sight_end h hidle hab hclear

/-- The end of a connection cancels every operation of its connector. -/
theorem isCancelled_perform_end (h : m.Regular) (hidle : m.call = .idle) {c o : Nat}
    (hserves : m.serves? a = some c) (ho : o < (m.state.engine.connector c).operations.length) :
    (m.perform (.act deed)).state.engine.isCancelled c o = true := by
  obtain ⟨trace, heq⟩ := exists_trace_of_end hdeed h hidle
  obtain ⟨x, -, hdestroy⟩ := destroy_served h.sane hserves
  rw [heq, hdestroy]
  exact Engine.State.isCancelled_closing ho

end End

end Moment

open Moment

/-- The end of a connection `a` in the middle of a run, and the queries of another connection `b`,
if nothing is done with `a` any more. As long as every query of `b` on the connector of `a` is
cancelled, was reported, or has looked whether it was cancelled, all queries of `b` come to the same,
now and later, as if `a` had been left alone. A query of `b` on the connector of `a` that has not
looked is cancelled with those of `a`. -/
theorem outcomes_after_end (pre post : List Event) (a b : Nat) (hab : a ≠ b)
    (ha : a < (run pre).state.instances.length) (deed : Deed)
    (hdeed : deed = .destroy a ∨ deed = .dropConnection a)
    (huses : ∀ event ∈ post, event.uses a = false)
    (hwith : (run pre).heeds (.act deed :: post) = true)
    (hwithout : (run pre).heeds post = true) :
    ((∀ c, (run pre).serves? a = some c → (run pre).Clear b c) → ∀ r,
      (run (pre ++ .act deed :: post)).owns b r = (run (pre ++ post)).owns b r ∧
      ((run (pre ++ post)).owns b r = true →
        outcomes r {} (pre ++ .act deed :: post) = outcomes r {} (pre ++ post))) ∧
    ∀ c o r t, (run pre).serves? a = some c →
      .accepted b (.memory c o) r t ∈ (run pre).history →
      .checked t false ∉ (run pre).history →
      ∀ report ∈ outcomes r (run (pre ++ [.act deed])) post, report = (none, some .canceled) := by
  have h : (run pre).Regular := Regular.start.foldl pre
  simp only [heeds, Bool.and_eq_true] at hwith
  have hidle : (run pre).call = .idle := by
    have htakes := hwith.1
    cases hcall : (run pre).call <;> simp_all [takes]
  refine ⟨fun hclear r => ?_, fun c o r t hserves haccepted hunseen => ?_⟩
  · have hsight := sight_perform_end hdeed h hidle hab hclear
    obtain ⟨howns, houtcomes⟩ := outcomes_eq_of_sight (r := r) post h (h.event (.act deed))
      hsight.symm ha huses hwithout hwith.2
    rw [run_append, run_append]
    refine ⟨howns.symm, fun hb => ?_⟩
    rw [outcomes_append, outcomes_append]
    refine congrArg (outcomes r {} pre ++ ·) ?_
    calc outcomes r (run pre) (.act deed :: post)
      _ = outcomes r ((run pre).perform (.act deed)) post := by
        rw [outcomes, reports_act, List.nil_append]
      _ = outcomes r (run pre) post := (houtcomes (howns.symm.trans hb)).symm
  · have hlater := (h.sane.event (.act deed)).2
    obtain ⟨⟨c', o', x, hoperation, -, -, ho⟩, -⟩ := h.sane.accounted.recorded _ haccepted
    cases hoperation
    have hwithdrawn : ((run pre).perform (.act deed)).Withdrawn c o r t := by
      refine ⟨⟨b, hlater.history.subset haccepted⟩,
        isCancelled_perform_end hdeed h hidle hserves ho, fun seen hchecked => ?_⟩
      obtain ⟨trace, heq⟩ := exists_trace_of_end hdeed h hidle
      rw [heq] at hchecked
      cases seen with
      | true => rfl
      | false => exact absurd hchecked hunseen
    rw [run_append]
    exact hwithdrawn.outcomes post (h.event (.act deed))

/-- No query but that of a ticket is accepted in the observation. -/
def Observation.acceptsOnly (t : Nat) : Observation → Bool
  | .accepted _ _ _ ticket => ticket == t
  | _ => true

/-- Two connections of one connector, and a query on the second that is still to be promoted. -/
def sharedRun : List Event :=
  [.act .connector, .act (.respond 0 { rows := [.content "x".toUTF8 none] }),
    .act (.respond 0 { rows := [.content "y".toUTF8 none] }),
    .act (.create 0 { connection := "mem" }), .act (.create 0 { connection := "mem" }),
    .act (.query 1 { statement := "a" } "query"), .resume]

/-- The rest of a promotion that has looked, and a later query with its promotion. -/
def laterQuery : List Event :=
  [.turn 1, .act (.query 1 { statement := "b" } "later"), .resume, .turn 1, .turn 1]

/-- Once the promotion of the first query has looked, the first connection can be destroyed without
any consequence for this query or a later one. Dropped before that, it takes the first query along. -/
theorem outcomes_after_end_in_sharedRun :
    (∀ r < 2, outcomes r {} (sharedRun ++ [.turn 1] ++ .act (.destroy 0) :: laterQuery) =
          outcomes r {} (sharedRun ++ [.turn 1] ++ laterQuery) ∧
        (outcomes r {} (sharedRun ++ [.turn 1] ++ laterQuery)).map
          (fun report => report.1.isSome) = [true]) ∧
    ∃ report ∈ outcomes 0 (run (sharedRun ++ [.act (.dropConnection 0)])) [.turn 1, .turn 1],
      report = (none, some .canceled) := by
  constructor
  · have hclear : ∀ c, (run (sharedRun ++ [.turn 1])).serves? 0 = some c →
        (run (sharedRun ++ [.turn 1])).Clear 1 c := by
      intro c _ o r t haccepted
      have hall : (run (sharedRun ++ [.turn 1])).history.all (Observation.acceptsOnly 0) := by
        decide +kernel
      have ht := List.all_eq_true.mp hall _ haccepted
      obtain rfl : t = 0 := by simpa [Observation.acceptsOnly] using ht
      exact Or.inr ⟨false, List.mem_of_getElem? (i := 3) rfl⟩
    obtain ⟨hsame, -⟩ := outcomes_after_end (sharedRun ++ [.turn 1]) laterQuery 0 1 (by decide)
      (by decide +kernel) (.destroy 0) (Or.inl rfl) (by decide) (by decide +kernel)
      (by decide +kernel)
    have howned : ∀ r < 2, (run (sharedRun ++ [.turn 1] ++ laterQuery)).owns 1 r = true ∧
        (outcomes r {} (sharedRun ++ [.turn 1] ++ laterQuery)).map
          (fun report => report.1.isSome) = [true] := by decide +kernel
    exact fun r hr => ⟨(hsame hclear r).2 (howned r hr).1, (howned r hr).2⟩
  · obtain ⟨-, hcancelled⟩ := outcomes_after_end sharedRun [.turn 1, .turn 1] 0 1 (by decide)
      (by decide +kernel) (.dropConnection 0) (Or.inr rfl) (by decide) (by decide +kernel)
      (by decide +kernel)
    have hreport := List.head_mem (l := outcomes 0 (run (sharedRun ++ [.act (.dropConnection 0)]))
      [.turn 1, .turn 1]) (by decide +kernel)
    have hnobody : (run sharedRun).history.all (fun o => o.looker?.isNone) = true := by
      decide +kernel
    have hunseen : .checked 0 false ∉ (run sharedRun).history := fun hchecked => by
      cases List.all_eq_true.mp hnobody _ hchecked
    exact ⟨_, hreport, hcancelled 0 0 0 0 rfl (List.mem_of_getElem? (i := 2) rfl) hunseen _ hreport⟩

/-- Without more ado the queries of a connection do depend on the end of another one. -/
theorem outcomes_not_isolated : ¬ ∀ (pre post : List Event) (a b c r : Nat) (deed : Deed), a ≠ b →
    (run pre).serves? a = some c → (run pre).serves? b = some c →
    deed = .destroy a ∨ deed = .dropConnection a → (∀ event ∈ post, event.uses a = false) →
    (run pre).heeds (.act deed :: post) = true → (run pre).heeds post = true →
    (run (pre ++ post)).owns b r = true →
      outcomes r {} (pre ++ .act deed :: post) = outcomes r {} (pre ++ post) := by
  intro h
  have hsame := h sharedRun [.turn 1, .turn 1] 0 1 0 0 (.destroy 0) (by decide) rfl rfl (Or.inl rfl)
    (by simp [Event.uses]) (by decide +kernel) (by decide +kernel) (by decide +kernel)
  have herror := congrArg (List.map fun report => report.2.isSome) hsame
  exact absurd herror (by decide +kernel)

end HostBridge.Session
