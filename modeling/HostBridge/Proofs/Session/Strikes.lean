import HostBridge.Proofs.Engine.Closing
import HostBridge.Proofs.Engine.Output
import HostBridge.Proofs.Session.Address

/-!
# Cancellations are counted where they strike

An operation counts the cancellations that struck it, and so does a stream; nothing else is counted,
not even that a shutdown gives an operation up. A cancellation of a result strikes the operation of
its query or the stream that the query was promoted to, and both belong to that result alone. So the
two counts together say how often the result was cancelled.
-/

namespace HostBridge.Session

/-- What a cancellation struck, with the result that was cancelled. -/
@[simp]
def Observation.strike? : Observation → Option (Nat × Target)
  | .cancelled r target => some (r, target)
  | _ => none

namespace Moment

variable {m m' : Moment} {r n : Nat} {target : Target}

/-- The cancellations so far, by result and by what they struck. -/
def strikes (m : Moment) : List (Nat × Target) :=
  m.history.filterMap Observation.strike?

theorem mem_strikes : (r, target) ∈ m.strikes ↔ .cancelled r target ∈ m.history := by
  constructor
  · intro h
    obtain ⟨o, ho, hstrike⟩ := List.mem_filterMap.mp h
    cases o with
    | cancelled r' target' =>
      obtain ⟨rfl, rfl⟩ := Prod.mk.inj (Option.some.inj hstrike)
      exact ho
    | _ => cases hstrike
  · exact fun h => List.mem_filterMap.mpr ⟨_, h, rfl⟩

/-- Everything counts the cancellations that struck it. -/
def Counted (m : Moment) : Prop :=
  ∀ target n, m.state.cancels? target = some n → m.strikes.countP (fun x => x.2 = target) = n

namespace Counted

theorem start : ({} : Moment).Counted := by
  intro target n hn
  cases target with
  | empty => cases hn
  | pending operation => cases operation <;> simp [State.cancels?, Engine.State.connector] at hn
  | active k => simp [State.cancels?, Engine.State.stream?] at hn

/-- A move that strikes nothing and leaves the counts alone. -/
theorem keep (h : m.Counted) (hstrikes : m'.strikes = m.strikes)
    (hcancels : m'.state.cancels? target = some n → m.state.cancels? target = some n)
    (hn : m'.state.cancels? target = some n) :
    m'.strikes.countP (fun x => x.2 = target) = n := by
  rw [hstrikes]
  exact h target n (hcancels hn)

/-- A cancellation strikes what it has found. -/
theorem strike (h : m.Counted) (r : Nat) (struck : Target)
    (hstrikes : m'.strikes = m.strikes ++ [(r, struck)])
    (hstate : m'.state = m.state.strike struck) : m'.Counted := by
  intro target n hn
  rw [hstate, State.cancels?_strike] at hn
  rw [hstrikes, List.countP_append, List.countP_singleton]
  split at hn
  · next htarget =>
    obtain ⟨k, hk, rfl⟩ := Option.map_eq_some_iff.mp hn
    rw [h target k hk, if_pos (by simp [htarget])]
  · next htarget =>
    rw [h target n hn, if_neg (by simpa using Ne.symm htarget)]
    rfl

/-- Something new was not struck. -/
theorem fresh (hsane : m.Sane) (hknown : ∀ r, ¬ m.Known r target) :
    m.strikes.countP (fun x => x.2 = target) = 0 := by
  refine List.countP_eq_zero.mpr fun x hx hstruck => ?_
  obtain ⟨r, target'⟩ := x
  obtain rfl : target' = target := by simpa using hstruck
  exact hknown r (hsane.accounted.recorded _ (mem_strikes.mp hx)).1

/-- A query gets an operation, which nobody knew before. -/
theorem accept (h : m.Counted) (hsane : m.Sane) {c : Nat} {request : Request}
    {response : Engine.Response} {responses : List Engine.Response}
    (hstrikes : m'.strikes = m.strikes) (hmanuals : m'.state.manuals = m.state.manuals)
    (hresponses : (m.state.engine.connector c).responses = response :: responses)
    {i : Nat} {task : Engine.Task Promotion Bridge.Cookie Nat}
    (hengine : m'.state.engine = (m.state.engine.accepting c request responses).spawned i task) :
    m'.Counted := by
  intro target n hn
  cases target with
  | empty => cases hn
  | active k =>
    refine h.keep hstrikes (fun hn => ?_) hn
    rwa [State.cancels?, hengine] at hn
  | pending operation =>
    cases operation with
    | manual d k =>
      refine h.keep hstrikes (fun hn => ?_) hn
      rwa [State.cancels?, hmanuals] at hn
    | memory d k =>
      have hn' : ((m.state.engine.accepting c request responses).connector d).operations[k]?.map
          Engine.Operation.cancels = some n := by
        rwa [State.cancels?, hengine] at hn
      rw [Engine.State.connector_accepting
        (Engine.State.lt_connectors_of_responses hresponses)] at hn'
      split at hn'
      · next hd =>
        subst hd
        rw [List.getElem?_append] at hn'
        split at hn'
        · exact h.keep hstrikes (fun _ => hn') hn
        · next hk =>
          have hzero : n = 0 := by
            rw [List.getElem?_singleton] at hn'
            split at hn'
            · exact (Option.some.inj hn').symm
            · cases hn'
          rw [hzero, hstrikes]
          refine fresh hsane fun r hknown => ?_
          obtain ⟨j, t, haccepted⟩ := hknown
          obtain ⟨⟨c', o', -, heq, -, -, ho⟩, -⟩ := hsane.accounted.recorded _ haccepted
          obtain ⟨rfl, rfl⟩ := Operation.memory.inj heq
          exact hk ho
      · exact h.keep hstrikes (fun _ => hn') hn

/-- A promotion comes to its end, perhaps with a new stream. -/
theorem report (h : m.Counted) (hsane : m.Sane) {l key c : Nat} {response : Engine.Response}
    {stream : Option Nat} {error : Option EngineError}
    (hstrikes : m'.strikes = m.strikes) (hmanuals : m'.state.manuals = m.state.manuals)
    (hsettled : m.state.engine.Settled l key c response stream error m'.state.engine) :
    m'.Counted := by
  intro target n hn
  cases target with
  | empty => cases hn
  | pending operation =>
    refine h.keep hstrikes (fun hn => ?_) hn
    cases operation with
    | memory d k => rwa [State.cancels?, (hsettled.connector d).2] at hn
    | manual d k => rwa [State.cancels?, hmanuals] at hn
  | active k =>
    obtain ⟨x, hx, rfl⟩ := Option.map_eq_some_iff.mp hn
    rcases hsettled.stream? hx with hx | ⟨rfl, -, rfl⟩
    · exact h.keep hstrikes (fun _ => congrArg (Option.map _) hx) hn
    · rw [hstrikes]
      refine fresh hsane fun r hknown => ?_
      obtain ⟨t, error', alive, hreported⟩ := hknown
      obtain ⟨i, operation, -, hmade⟩ := hsane.accounted.recorded _ hreported
      obtain ⟨y, hy, -⟩ := hmade _ rfl
      simp [Engine.State.stream?] at hy

theorem step (h : m.Counted) (hsane : m.Sane) (hstep : m.Step m') : m'.Counted := by
  cases hstep with
  | note | grasp | attach | letGo | create | tell | drop | look | sleep | elapse | shut | stray
  | reap => exact fun target n => h.keep rfl fun hn => by cases target <;> exact hn
  | refuse | askEarly | ask | askLate | check | answer =>
    exact fun target n => h.keep (by simp [strikes]) fun hn => by cases target <;> exact hn
  | connector =>
    refine fun target n => h.keep rfl fun hn => ?_
    cases target with
    | empty | active => exact hn
    | pending operation =>
      cases operation with
      | memory d k =>
        rwa [State.cancels?, having, Engine.State.connector_addConnector] at hn
      | manual => exact hn
  | @respond c response hc =>
    refine fun target n => h.keep (by simp [strikes]) fun hn => ?_
    cases target with
    | empty | active => exact hn
    | pending operation =>
      cases operation with
      | memory d k =>
        rw [State.cancels?, Engine.State.connector_respond hc] at hn
        split at hn
        · next hd => exact hd ▸ hn
        · exact hn
      | manual => exact hn
  | accept hx hrunning hc hresponses =>
    exact h.accept hsane (by simp [strikes]) rfl hresponses rfl
  | @strikeOperation e r c o hcall =>
    exact h.strike r (.pending (.memory c o)) (by simp [strikes]) rfl
  | @strikeStream e r k hcall =>
    exact h.strike r (.active k) (by simp [strikes]) rfl
  | @close i c x hx hrunning hc =>
    refine fun target n => h.keep rfl fun hn => ?_
    cases target with
    | empty => exact hn
    | pending operation =>
      cases operation with
      | memory d k =>
        have hcancels := congrArg (fun xs => xs[k]?)
          (Engine.State.cancels_closing m.state.engine c d)
        simp only [List.getElem?_map] at hcancels
        exact hcancels.symm.trans hn
      | manual => exact hn
    | active k =>
      have hstreams := (Engine.State.woken_closing m.state.engine c).streams
      rw [← hn, State.cancels?, State.cancels?, Engine.State.stream?, ← hstreams]
      rfl
  | report hready htask hsettled htarget | reportLost hready htask hsettled htarget =>
    exact h.report hsane (by simp [strikes]) rfl hsettled
  | @draw l key i keys cookie cancelled hready htask =>
    refine fun target n => h.keep rfl fun hn => ?_
    cases target with
    | empty => exact hn
    | pending operation => cases operation <;> exact hn
    | active k =>
      rw [State.cancels?, having, Engine.State.stream?_drawn] at hn
      split at hn
      · next hk =>
        rw [Option.map_map] at hn
        rw [← hn, hk]
        exact congrArg₂ Option.map (funext fun x => (x.serve_cancels cancelled).symm) rfl
      · exact hn

end Counted

/-! ## The two counts of a result -/

/-- A cancellation of a result struck the operation of its query or the stream of its promotion. -/
theorem Ledger.struck (h : m.Ledger) (hsane : m.Sane) {i c o t : Nat}
    (haccepted : .accepted i (.memory c o) r t ∈ m.history) (hstruck : (r, target) ∈ m.strikes) :
    target = .pending (.memory c o) ∨
      ∃ t' k error alive, target = .active k ∧ .reported r t' (some k) error alive ∈ m.history := by
  obtain ⟨hknown, hcancelled⟩ := hsane.accounted.recorded _ (mem_strikes.mp hstruck)
  cases target with
  | empty => exact hcancelled.elim
  | pending operation =>
    obtain ⟨j, t', haccepted'⟩ := hknown
    obtain ⟨-, rfl, -⟩ := h.accepted_unique haccepted haccepted'
    exact Or.inl rfl
  | active k =>
    obtain ⟨t', error, alive, hreported⟩ := hknown
    exact Or.inr ⟨t', k, error, alive, rfl, hreported⟩

/-- What belongs to one result is struck by cancellations of that result only. -/
theorem Known.owner {r' : Nat} (hknown : m.Known r target) (h : m.Ledger) (hsane : m.Sane)
    (hstruck : (r', target) ∈ m.strikes) : r' = r := by
  obtain ⟨hknown', hcancelled⟩ := hsane.accounted.recorded _ (mem_strikes.mp hstruck)
  cases target with
  | empty => exact hcancelled.elim
  | pending operation =>
    obtain ⟨i, t, haccepted⟩ := hknown
    obtain ⟨j, t', haccepted'⟩ := hknown'
    cases operation with
    | memory c o => exact h.operation_unique haccepted' haccepted
    | manual => exact hcancelled.elim
  | active k =>
    obtain ⟨t, error, alive, hreported⟩ := hknown
    obtain ⟨t', error', alive', hreported'⟩ := hknown'
    exact h.stream_unique hreported' hreported

/-- Without a stream, the cancellations of a result are those that its operation has counted. -/
theorem Ledger.countP_unstreamed (h : m.Ledger) (hsane : m.Sane) {i c o t : Nat}
    (haccepted : .accepted i (.memory c o) r t ∈ m.history)
    (hnone : ∀ t' k error alive, .reported r t' (some k) error alive ∉ m.history) :
    m.strikes.countP (fun x => x.1 = r) =
      m.strikes.countP (fun x => x.2 = .pending (.memory c o)) := by
  have hoperation : m.Known r (.pending (.memory c o)) := ⟨i, t, haccepted⟩
  refine List.countP_congr fun ⟨r', target⟩ hx => ?_
  simp only [decide_eq_true_eq]
  constructor
  · rintro rfl
    rcases h.struck hsane haccepted hx with htarget | ⟨t', k, error, alive, -, hreported⟩
    · exact htarget
    · exact absurd hreported (hnone t' k error alive)
  · rintro rfl
    exact hoperation.owner h hsane hx

/-- With a stream, they are those that its operation and that stream have counted. -/
theorem Ledger.countP_streamed (h : m.Ledger) (hsane : m.Sane) {i c o t t' k : Nat}
    {error : Option EngineError} {alive : Bool}
    (haccepted : .accepted i (.memory c o) r t ∈ m.history)
    (hreported : .reported r t' (some k) error alive ∈ m.history) :
    m.strikes.countP (fun x => x.1 = r) =
      m.strikes.countP (fun x => x.2 = .pending (.memory c o)) +
        m.strikes.countP (fun x => x.2 = .active k) := by
  have hoperation : m.Known r (.pending (.memory c o)) := ⟨i, t, haccepted⟩
  have hstream : m.Known r (.active k) := ⟨t', error, alive, hreported⟩
  rw [List.countP_eq_countP_filter_add m.strikes _ fun x => x.2 = .pending (.memory c o),
    List.countP_filter, List.countP_filter]
  congr 1
  · refine List.countP_congr fun ⟨r', target⟩ hx => ?_
    simp only [Bool.and_eq_true, decide_eq_true_eq]
    refine ⟨fun hboth => hboth.2, ?_⟩
    rintro rfl
    exact ⟨hoperation.owner h hsane hx, rfl⟩
  · refine List.countP_congr fun ⟨r', target⟩ hx => ?_
    simp only [Bool.and_eq_true, Bool.not_eq_true', decide_eq_true_eq, decide_eq_false_iff_not]
    constructor
    · rintro ⟨rfl, hother⟩
      obtain ⟨t'', k', error', alive', rfl, hreported'⟩ :=
        (h.struck hsane haccepted hx).resolve_left hother
      obtain ⟨-, hsame, -⟩ := h.reported_unique hsane hreported hreported'
      rw [Option.some.inj hsame]
    · rintro rfl
      exact ⟨hstream.owner h hsane hx, by simp⟩

end Moment

theorem counted_run (events : List Event) : (run events).Counted :=
  run_induction Moment.Counted.start (fun _ _ hsane hstep h => h.step hsane hstep) events

end HostBridge.Session
