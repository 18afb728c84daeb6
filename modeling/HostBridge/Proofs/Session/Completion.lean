import HostBridge.Proofs.Session.Ledger

/-!
# Every callback is served once, through shutdown

The thread of a loop ends only when the loop has nothing left to do, and a reaper destroys its
instance only after the thread has ended. So at that moment every query of the instance was reported
and every pull was answered, whatever the delays and whatever was cancelled or dropped before. When
the host has handled its messages too, each of these callbacks was told its outcome once, or, for a
result that was dropped before the report, was dropped once without being told anything.

An instance that gets no reaper is destroyed at once, while its thread still has things to do. Then
the same holds as soon as the thread has ended, and not before.
-/

namespace HostBridge.Session

open Bridge (Entry)

namespace Moment

variable {m : Moment} {t : Nat} {outcome : Outcome}

/-- Everything that became of the callback of a ticket, in order. -/
def fate (m : Moment) (t : Nat) : List Outcome :=
  (m.settled.filter fun p => p.1 == t).map Prod.snd

/-- No slot of the host holds the callback of a ticket. -/
def Gone (m : Moment) (t : Nat) : Prop :=
  ∀ key e, m.state.host.registry.get? key = some e → e.ticket ≠ t

namespace Bridged

/-- In slots and among what is settled, each ticket is there once. -/
theorem nodup_tickets (h : m.Bridged) :
    (m.state.host.registry.contents.map Entry.ticket ++ m.settled.map Prod.fst).Nodup :=
  h.served.tickets.nodup_iff.mpr List.nodup_range

theorem nodup_settled (h : m.Bridged) : (m.settled.map Prod.fst).Nodup :=
  (List.nodup_append.mp h.nodup_tickets).2.1

/-- Nothing becomes of a callback twice. -/
theorem length_fate_le (h : m.Bridged) (t : Nat) : (m.fate t).length ≤ 1 := by
  have hcount := List.nodup_iff_count_le_one.mp h.nodup_settled t
  rw [List.count_eq_countP, List.countP_map, List.countP_eq_length_filter] at hcount
  simpa [fate, Function.comp_def] using hcount

/-- What is settled for a callback is all that becomes of it. -/
theorem fate_eq (h : m.Bridged) (ho : (t, outcome) ∈ m.settled) : m.fate t = [outcome] := by
  have hmem : outcome ∈ m.fate t :=
    List.mem_map.mpr ⟨(t, outcome), List.mem_filter.mpr ⟨ho, by simp⟩, rfl⟩
  have hlength := h.length_fate_le t
  match hfate : m.fate t with
  | [] => simp [hfate] at hmem
  | [a] => simp_all
  | a :: b :: rest => simp [hfate] at hlength

/-- A callback that is settled has left its slot. -/
theorem gone (h : m.Bridged) (ho : (t, outcome) ∈ m.settled) : m.Gone t := by
  intro key e he hticket
  have hdisjoint := (List.nodup_append.mp h.nodup_tickets).2.2
  have hcontents : e ∈ m.state.host.registry.contents := Registry.mem_contents.mpr ⟨key, he⟩
  exact hdisjoint t (List.mem_map.mpr ⟨e, hcontents, hticket⟩) t (List.mem_map.mpr ⟨_, ho, rfl⟩) rfl

/-- A host with no message left has done what an observation owes, once. -/
theorem fate_of_owes (h : m.Bridged) (hqueue : m.state.host.queue = []) {o : Observation}
    (ho : o ∈ m.history) (howes : o.owes? = some (t, outcome)) :
    m.fate t = [outcome] ∧ m.Gone t := by
  have hsettled : (t, outcome) ∈ m.settled := by
    rw [h.settled_eq_owed hqueue]
    exact List.mem_filterMap.mpr ⟨o, ho, howes⟩
  exact ⟨h.fate_eq hsettled, h.gone hsettled⟩

end Bridged

/-- The loop of an instance whose thread has ended has nothing left to do. -/
theorem Orderly.spent (h : m.Orderly) {i : Nat} {x : Instance}
    (hx : m.state.instances[i]? = some x) (hended : m.state.threadEnded x.loop = true) (key : Nat) :
    m.state.engine.job? i key = none := by
  refine h.ended i ?_ key
  rw [h.loop i x hx] at hended
  simpa [State.threadEnded] using hended

/-- A reaper destroys its instance after the thread has ended. -/
theorem Orderly.threadEnded_of_reaper (h : m.Orderly) {i : Nat} {x : Instance}
    (hx : m.state.instances[i]? = some x) (hdestroyed : x.state = .destroyed)
    (hreaper : x.reaper ≠ .absent) : m.state.threadEnded x.loop = true := by
  have hended := h.joined i x hx (Or.inl ⟨hdestroyed, hreaper⟩)
  rw [h.loop i x hx]
  simpa [State.threadEnded] using hended

namespace Ledger

variable {i r : Nat} {x : Instance} {operation : Operation}

/-- Every query of an instance whose thread has ended was reported. -/
theorem reported_of_ended (h : m.Ledger) (hsane : m.Sane)
    (hx : m.state.instances[i]? = some x) (hended : m.state.threadEnded x.loop = true)
    (ho : .accepted i operation r t ∈ m.history) :
    ∃ stream error alive, .reported r t stream error alive ∈ m.history := by
  rcases h.reported_or_task hsane ho with hreported | ⟨key, c, o, response, p, htask, -⟩
  · exact hreported
  · rw [hsane.orderly.spent hx hended] at htask
    cases htask

/-- Every pull from a result of an instance whose thread has ended was answered. -/
theorem answered_of_ended (h : m.Ledger) (hsane : m.Sane)
    (hx : m.state.instances[i]? = some x) (hended : m.state.threadEnded x.loop = true) {t' k : Nat}
    (haccepted : .accepted i operation r t' ∈ m.history)
    (ho : .asked r t (some k) ∈ m.history) : ∃ row, .answered t row ∈ m.history := by
  rcases h.answered_or_task hsane ho with hanswered | ⟨key, cookie, y, hy, htask, -⟩
  · exact hanswered
  · -- the stream was reported to this very result, so it runs on the loop of the instance
    obtain ⟨t'', error, alive, hreported⟩ := (hsane.accounted.recorded _ ho).2 k rfl
    obtain ⟨j, operation', haccepted', hstream⟩ := hsane.accounted.recorded _ hreported
    obtain ⟨y', hy', hloop⟩ := hstream k rfl
    obtain rfl := Option.some.inj (hy.symm.trans hy')
    obtain ⟨rfl, -⟩ := h.accepted_unique haccepted haccepted'
    rw [hloop, hsane.orderly.spent hx hended] at htask
    cases htask

end Ledger

end Moment

open Moment

/-- In every run, nothing becomes of a callback twice. If a destroyed instance had a reaper, its
thread has ended. Once an instance is destroyed, its thread has ended and the host has handled its
messages, the callback of each query that the instance accepted was told the outcome if the result was
still held at the report, and was dropped untold otherwise; the callback of each pull from a result
of the instance, and of each pull that came too early, was told an answer; and none of them is in a
slot any more. -/
theorem completed_once_through_shutdown (events : List Event) :
    (∀ t, ((run events).fate t).length ≤ 1) ∧
    ∀ i x, (run events).state.instances[i]? = some x → x.state = .destroyed →
      (x.reaper ≠ .absent → (run events).state.threadEnded x.loop = true) ∧
      ((run events).state.threadEnded x.loop = true → (run events).state.host.queue = [] →
        (∀ operation r t, .accepted i operation r t ∈ (run events).history →
          ∃ stream error alive, .reported r t stream error alive ∈ (run events).history ∧
            (run events).fate t = [if alive then .promoted else .dropped] ∧
            (run events).Gone t) ∧
        ∀ r t stream, .asked r t stream ∈ (run events).history →
          (∃ operation t', .accepted i operation r t' ∈ (run events).history) ∨ stream = none →
            ∃ content error, (run events).fate t = [.row content error] ∧ (run events).Gone t) := by
  have hsane := sane_run events
  have hledger := ledger_run events
  have hbridged := hsane.bridged
  refine ⟨hbridged.length_fate_le, fun i x hx hdestroyed =>
    ⟨hsane.orderly.threadEnded_of_reaper hx hdestroyed, fun hended hqueue => ⟨?_, ?_⟩⟩⟩
  · intro operation r t haccepted
    obtain ⟨stream, error, alive, hreported⟩ :=
      hledger.reported_of_ended hsane hx hended haccepted
    refine ⟨stream, error, alive, hreported, ?_⟩
    cases alive with
    | true => exact hbridged.fate_of_owes hqueue hreported rfl
    | false => exact hbridged.fate_of_owes hqueue hreported rfl
  · intro r t stream hasked hof
    cases stream with
    | none => exact ⟨_, _, hbridged.fate_of_owes hqueue hasked rfl⟩
    | some k =>
      obtain ⟨operation, t', haccepted⟩ := hof.resolve_right (by simp)
      obtain ⟨row, hanswered⟩ :=
        hledger.answered_of_ended hsane hx hended haccepted hasked
      exact ⟨_, _, hbridged.fate_of_owes hqueue hanswered rfl⟩

/-- Two queries are submitted, one with a delay, and the result of the other is dropped; a pull comes
too early; then the connection is shut down, its reaper comes to its end and the host handles what
is left. -/
def shutdownRun : List Event :=
  [.act .connector, .act (.respond 0 { delay := some 5 }), .act (.respond 0 {}),
    .act (.create 0 { connection := "mem" }),
    .act (.query 0 { statement := "a" } "delayed"), .resume,
    .act (.query 0 { statement := "b" } "lost"), .resume,
    .act (.dropResult 1), .act (.next 0 "early"), .turn 0, .turn 0, .turn 0,
    .act (.destroy 0)] ++
  List.replicate 8 (.turn 0) ++ List.replicate 3 (.reap 0) ++ List.replicate 3 (.act .dispatch)

/-- After that run the callback of the first query was told its outcome, that of the second was
dropped, and that of the pull was told that there is no stream. -/
theorem completed_once_after_shutdownRun :
    (run shutdownRun).fate 0 = [.promoted] ∧ (run shutdownRun).fate 1 = [.dropped] ∧
      ∃ content error, (run shutdownRun).fate 2 = [.row content error] ∧
        (run shutdownRun).Gone 2 := by
  have hx : (run shutdownRun).state.instances[0]? =
      some ⟨.memory 0, 0, .destroyed, false, false, true, .marked⟩ := by decide +kernel
  have hqueue : (run shutdownRun).state.host.queue = [] :=
    List.eq_nil_of_length_eq_zero (by decide +kernel)
  have hsane := sane_run shutdownRun
  have hledger := ledger_run shutdownRun
  obtain ⟨-, h⟩ := completed_once_through_shutdown shutdownRun
  obtain ⟨hended, hall⟩ := h 0 _ hx rfl
  obtain ⟨hqueries, hpulls⟩ := hall (hended (by decide)) hqueue
  refine ⟨?_, ?_, hpulls 0 2 none (List.mem_of_getElem? (i := 4) rfl) (Or.inr rfl)⟩
  · obtain ⟨stream, error, alive, hreported, hfate, -⟩ :=
      hqueries (.memory 0 0) 0 0 (List.mem_of_getElem? (i := 2) rfl)
    have htold : .reported 0 0 none (some .canceled) true ∈ (run shutdownRun).history :=
      List.mem_of_getElem? (i := 8) rfl
    obtain ⟨-, -, -, rfl⟩ := hledger.reported_unique hsane hreported htold
    exact hfate
  · obtain ⟨stream, error, alive, hreported, hfate, -⟩ :=
      hqueries (.memory 0 1) 1 1 (List.mem_of_getElem? (i := 3) rfl)
    have hlost : .reported 1 1 (some 0) none false ∈ (run shutdownRun).history :=
      List.mem_of_getElem? (i := 6) rfl
    obtain ⟨-, -, -, rfl⟩ := hledger.reported_unique hsane hreported hlost
    exact hfate

/-- A query is promoted; then the connection is shut down when no reaper can be started, and a row is
asked for before the loop comes to that. -/
def unreapedRun : List Event :=
  [.act .connector, .act (.respond 0 {}), .act (.create 0 { connection := "mem" }),
    .act (.query 0 { statement := "a" } "query"), .resume, .turn 0, .turn 0, .act .dispatch,
    .reapers (some "no more threads"), .act (.destroy 0), .act (.next 0 "late"), .turn 0]

/-- An executor without a query is asked for a row, and a connection is shut down. -/
def earlyRun : List Event :=
  [.act .connector, .act (.create 0 { connection := "mem" }), .act .executor,
    .act (.executorNext 0 "early"), .act (.destroy 0)] ++
  List.replicate 3 (.turn 0) ++ List.replicate 3 (.reap 0)

/-- When an instance is destroyed and the host has no message left, not every callback need have been
served. Without a reaper the thread of the loop may still have a pull to answer; and the callback of
a pull that an executor refuses, because it has no query, is dropped and never told anything. -/
theorem destroyed_need_not_have_served :
    (∃ x, (run unreapedRun).state.instances[0]? = some x ∧ x.state = .destroyed ∧
      (run unreapedRun).state.host.queue = [] ∧
      .asked 0 1 (some 0) ∈ (run unreapedRun).history ∧
      (run unreapedRun).fate 1 = [] ∧ ¬ (run unreapedRun).Gone 1) ∧
    ∃ x, (run earlyRun).state.instances[0]? = some x ∧ x.state = .destroyed ∧
      (run earlyRun).state.host.queue = [] ∧
      .dropped none "early" ∈ (run earlyRun).state.trace ∧
      (run earlyRun).settled = [] := by
  have hempty : ∀ {events : List Event}, (run events).state.host.queue.length = 0 →
      (run events).state.host.queue = [] := List.eq_nil_of_length_eq_zero
  have hslot : (run unreapedRun).state.host.registry.get? 0 = some ⟨1, .row "late" none⟩ := rfl
  have hcalls : (run unreapedRun).fate 1 = [] := by decide +kernel
  refine ⟨⟨⟨.memory 0, 0, .destroyed, false, false, false, .absent⟩, rfl, rfl, hempty (by decide +kernel),
    List.mem_of_getElem? (i := 4) rfl, hcalls, fun hgone => hgone 0 _ hslot rfl⟩,
    ⟨.memory 0, 0, .destroyed, false, false, true, .marked⟩, by decide +kernel, rfl,
    hempty (by decide +kernel), List.mem_of_getElem? (i := 0) rfl, by decide +kernel⟩

end HostBridge.Session
