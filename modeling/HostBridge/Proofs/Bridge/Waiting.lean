import HostBridge.Proofs.Bridge.Draining
import Mathlib.Logic.Function.Iterate

/-!
# A wait and a poll

A wait takes messages from the queue like a poll, but asks its condition before each of them. The
two run in lockstep until the wait stops: `Waits` says where it stops, and that a poll gets to the
same place. Time plays no part in this. A message that is queued is taken however late it is, and
when nothing else queues messages, a wait that finds the queue empty finds it empty until its time
has run out.
-/

namespace HostBridge.Bridge.State

open Function (iterate_succ_apply iterate_add_apply)

variable {callbacks : List Callback} {s u : State} {c : Condition} {rest base : List Frame}

/-- Among the states from `s` on, up to the `n`th, those with so many frames on the stack. -/
def heads (depth : Nat) : Nat → State → List State
  | 0, _ => []
  | n + 1, s => if s.stack.length = depth then s :: heads depth n s.step else heads depth n s.step

theorem heads_add (depth m n : Nat) (s : State) :
    heads depth (m + n) s = heads depth m s ++ heads depth n (step^[m] s) := by
  induction m generalizing s with
  | zero => simp [heads]
  | succ m ih =>
    rw [Nat.add_right_comm, iterate_succ_apply]
    simp only [heads, ih]
    split <;> rfl

theorem heads_eq_nil {depth n : Nat} (h : ∀ m < n, depth < (step^[m] s).stack.length) :
    heads depth n s = [] := by
  induction n generalizing s with
  | zero => rfl
  | succ n ih =>
    have hfirst : s.stack.length ≠ depth := Nat.ne_of_gt (h 0 n.succ_pos)
    rw [heads, if_neg hfirst]
    exact ih fun m hm => h (m + 1) (Nat.succ_lt_succ hm)

/-! ## Callbacks that a wait or a poll runs -/

/-- The callbacks above a frame come to their end, in the same way whatever the frame is. -/
theorem Reachable.exists_pass (hbase : base ≠ []) (h : Reachable callbacks (s.atop base)) :
    ∃ (n : Nat) (t : State), t.stack = [] ∧ (t.atop base).weight ≤ (s.atop base).weight ∧
      (∃ callbacks, Reachable callbacks (t.atop base)) ∧
      ∀ base', base' ≠ [] → State.step^[n] (s.atop base') = t.atop base' ∧
        ∀ m < n, base'.length < (State.step^[m] (s.atop base')).stack.length := by
  induction hweight : (s.atop base).weight using Nat.strong_induction_on generalizing callbacks s with
  | _ weight ih =>
    subst hweight
    by_cases hstack : s.stack = []
    · exact ⟨0, s, hstack, Nat.le_refl _, ⟨callbacks, h⟩, fun base' _ => ⟨rfl, nofun⟩⟩
    · obtain ⟨next, hnext⟩ := exists_step_atop hstack
      have hlt : (next.atop base).weight < (s.atop base).weight := by
        rw [← hnext base hbase]
        exact h.weight_step_lt (by simp [hbase])
      have hreachable := h.step
      rw [hnext base hbase] at hreachable
      obtain ⟨n, t, ht, hle, hreachable', hrun⟩ := ih _ hlt hreachable rfl
      refine ⟨n + 1, t, ht, hle.trans hlt.le, hreachable', fun base' hbase' => ?_⟩
      obtain ⟨hend, hbusy⟩ := hrun base' hbase'
      refine ⟨by rw [iterate_succ_apply, hnext base' hbase', hend], fun m hm => ?_⟩
      cases m with
      | zero => simpa using List.length_pos_iff.mpr hstack
      | succ m =>
        rw [iterate_succ_apply, hnext base' hbase']
        exact hbusy m (Nat.lt_of_succ_lt_succ hm)

/-- A message that is dispatched shows in the log once. -/
theorem dispatched_deliver (s : State) (m : Message Work) (resume : Bool → Frame)
    (rest : List Frame) : dispatched (s.deliver m resume rest).trace = dispatched s.trace + 1 := by
  rcases hdispatch : s.host.dispatch m with ⟨fate, host⟩
  have hnotice : Occurrence.isDispatch (.logged fate.notice) = true := by cases fate <;> rfl
  have hother : ∀ {o : Occurrence}, o.isDispatch = false →
      dispatched (o :: .logged fate.notice :: s.trace) = dispatched s.trace + 1 := by
    intro o ho
    simp [dispatched, ho, hnotice]
  simp only [deliver, hdispatch]
  cases fate with
  | late label work | missing label key work => exact List.countP_cons_of_pos hnotice
  | run label entry work => exact hother (o := .invoked entry.ticket entry.callback.name work.value) rfl
  | released label entry =>
    cases entry with
    | none => exact List.countP_cons_of_pos hnotice
    | some e => exact hother (o := .dropped e.ticket e.callback.name) rfl

/-- A wait that takes a message is back when the callbacks are done that this runs, and so is a poll
in its place. -/
theorem Reachable.exists_round {checks count : Nat} (h : Reachable callbacks s)
    (hstack : s.stack = .waiting c checks count :: rest) (hfalse : ¬ c (checks + 1) s.trace = true)
    (hopen : ¬ s.host.closed = true) (hqueue : s.host.queue ≠ []) :
    ∃ (k ran : Nat) (t : State), t.stack = [] ∧
      (t.atop (.waiting c (checks + 1) ran :: rest)).weight < s.weight ∧
      (∃ callbacks, Reachable callbacks (t.atop (.waiting c (checks + 1) ran :: rest))) ∧
      dispatched s.step.trace = dispatched s.trace + 1 ∧
      (State.step^[k] s.step = t.atop (.waiting c (checks + 1) ran :: rest) ∧
        ∀ m < k, rest.length + 1 < (State.step^[m] s.step).stack.length) ∧
      State.step^[k] ({ s with stack := .polling count :: rest } : State).step =
          t.atop (.polling ran :: rest) ∧
        ∀ m < k, rest.length + 1 <
          (State.step^[m] ({ s with stack := .polling count :: rest } : State).step).stack.length := by
  obtain ⟨m, queue, hm⟩ := List.exists_cons_of_ne_nil hqueue
  obtain ⟨next, ran, hnext⟩ := exists_deliver_atop { s with host := { s.host with queue } } m
  have hwait : s.step = ({ s with host := { s.host with queue } } : State).deliver m
      (fun ran => .waiting c (checks + 1) (if ran then count + 1 else count)) rest := by
    simp only [State.step, hstack, stepWait, Host.receive, hm]
    rw [if_neg hfalse, if_neg hopen]
  have hpoll : ({ s with stack := .polling count :: rest } : State).step =
      ({ s with host := { s.host with queue }, stack := .polling count :: rest } : State).deliver m
        (fun ran => .polling (if ran then count + 1 else count)) rest := by
    simp only [State.step, stepPoll, Host.receive, hm]
  have hdispatched := dispatched_deliver ({ s with host := { s.host with queue } } : State) m
    (fun ran => .waiting c (checks + 1) (if ran then count + 1 else count)) rest
  have hlt := h.weight_step_lt (by simp [hstack])
  have hreachable := h.step
  rw [← hwait] at hdispatched
  rw [hwait, hnext s.stack] at hlt hreachable
  obtain ⟨k, t, ht, hle, hreachable', hrun⟩ := hreachable.exists_pass (List.cons_ne_nil _ _)
  refine ⟨k, _, t, ht, Nat.lt_of_le_of_lt hle hlt, hreachable', hdispatched, ?_, ?_⟩
  · rw [hwait, hnext s.stack]
    exact hrun _ (List.cons_ne_nil _ _)
  · rw [hpoll, hnext _ (fun ran => .polling (if ran then count + 1 else count))]
    exact hrun (.polling (if ran then count + 1 else count) :: rest) (List.cons_ne_nil _ _)

/-! ## The course of a wait -/

theorem busy_add {depth k n : Nat} (hfirst : ∀ m ≤ k, depth < (step^[m] s).stack.length)
    (hthen : ∀ m ≤ n, depth < (step^[m] (step^[k + 1] s)).stack.length) :
    ∀ m ≤ n + (k + 1), depth < (step^[m] s).stack.length := by
  intro m hm
  by_cases hk : m ≤ k
  · exact hfirst m hk
  · obtain ⟨j, rfl⟩ : ∃ j, m = j + (k + 1) := ⟨m - (k + 1), by omega⟩
    rw [iterate_add_apply]
    exact hthen j (by omega)

/-- How a wait goes on that has evaluated its condition `checks` times and run `count` callbacks. It
evaluates the condition in the states `before`, where it takes a message, and in `last`, which it
reaches after `n` steps and where it stops. -/
structure Waits (c : Condition) (rest : List Frame) (checks count : Nat) (s : State) (n : Nat)
    (before : List State) (last : State) : Prop where
  /-- It does not return earlier. -/
  busy : ∀ m ≤ n, rest.length < (step^[m] s).stack.length
  /-- It gets there. -/
  reaches : step^[n] s = last
  /-- These are all the states in which it is at work itself. -/
  heads : heads (rest.length + 1) (n + 1) s = before ++ [last]
  /-- It takes a message because its condition does not hold and the host is open. -/
  goesOn : ∀ i t, before[i]? = some t → c (checks + i + 1) t.trace = false ∧
    t.host.closed = false ∧ dispatched t.step.trace = dispatched t.trace + 1
  /-- It stops because its condition holds, the host is closed, or there is no message. -/
  stops : c (checks + before.length + 1) last.trace = true ∨ last.host.closed = true ∨
    last.host.queue = []
  /-- A poll in its place gets to the same state. -/
  polled : ∃ ran, last.stack = .waiting c (checks + before.length) ran :: rest ∧
    step^[n] { s with stack := .polling count :: rest } =
      { last with stack := .polling ran :: rest } ∧
    ∀ m ≤ n, rest.length < (step^[m] { s with stack := .polling count :: rest }).stack.length

theorem Waits.now {checks count : Nat} (hstack : s.stack = .waiting c checks count :: rest)
    (hstops : c (checks + 1) s.trace = true ∨ s.host.closed = true ∨ s.host.queue = []) :
    Waits c rest checks count s 0 [] s := by
  have hlength : s.stack.length = rest.length + 1 := by rw [hstack]; rfl
  refine ⟨?_, rfl, by simp [State.heads, hlength], nofun, hstops, count, hstack, rfl, ?_⟩
  · rintro m hm
    obtain rfl := Nat.le_zero.mp hm
    exact hlength ▸ Nat.lt_succ_self _
  · rintro m hm
    obtain rfl := Nat.le_zero.mp hm
    exact Nat.lt_succ_self _

theorem Reachable.exists_waits {checks count : Nat} (h : Reachable callbacks s)
    (hstack : s.stack = .waiting c checks count :: rest) :
    ∃ n before last, Waits c rest checks count s n before last := by
  induction hweight : s.weight using Nat.strong_induction_on
    generalizing callbacks s checks count with
  | _ weight ih =>
    subst hweight
    by_cases hstops : c (checks + 1) s.trace = true ∨ s.host.closed = true ∨ s.host.queue = []
    · exact ⟨0, [], s, .now hstack hstops⟩
    · obtain ⟨hfalse, hopen, hqueue⟩ : ¬ c (checks + 1) s.trace = true ∧ ¬ s.host.closed = true ∧
          s.host.queue ≠ [] := by simpa only [not_or] using hstops
      obtain ⟨k, ran, t, ht, hlt, ⟨callbacks, hreachable⟩, hdispatched, ⟨hback, habove⟩, hpoll,
        hpollAbove⟩ := h.exists_round hstack hfalse hopen hqueue
      have hagain : (t.atop (.waiting c (checks + 1) ran :: rest)).stack =
          .waiting c (checks + 1) ran :: rest := by simp [ht]
      obtain ⟨n, before, last, hwaits⟩ := ih _ hlt hreachable hagain rfl
      have hlength : s.stack.length = rest.length + 1 := by rw [hstack]; rfl
      have hlater : ∀ {r : State}, r.stack.length = rest.length + 1 →
          (∀ m < k, rest.length + 1 < (State.step^[m] r.step).stack.length) →
            ∀ m ≤ k, rest.length < (State.step^[m] r).stack.length := by
        intro r hr hrun m hm
        cases m with
        | zero => exact hr ▸ Nat.lt_succ_self _
        | succ m => exact Nat.lt_of_succ_lt (hrun m hm)
      refine ⟨n + (k + 1), s :: before, last, ?_, ?_, ?_, ?_, ?_, ?_⟩
      · refine busy_add (hlater hlength habove) ?_
        rw [iterate_succ_apply, hback]
        exact hwaits.busy
      · rw [iterate_add_apply, iterate_succ_apply, hback]
        exact hwaits.reaches
      · rw [show n + (k + 1) + 1 = k + 1 + (n + 1) by omega, heads_add, iterate_succ_apply, hback,
          hwaits.heads, State.heads, if_pos hlength, heads_eq_nil habove]
        rfl
      · rintro (_ | i) t hi
        · obtain rfl := Option.some.inj hi
          exact ⟨by simpa using hfalse, by simpa using hopen, hdispatched⟩
        · have := hwaits.goesOn i t hi
          rwa [Nat.add_right_comm checks 1 i] at this
      · have := hwaits.stops
        rwa [Nat.add_right_comm checks 1] at this
      · obtain ⟨ran', hlast, hpolled, hbusy⟩ := hwaits.polled
        have hplace : ({ t.atop (.waiting c (checks + 1) ran :: rest) with
            stack := .polling ran :: rest } : State) = t.atop (.polling ran :: rest) := by
          simp [atop, ht]
        rw [hplace] at hpolled hbusy
        refine ⟨ran', by rwa [Nat.add_right_comm checks 1] at hlast, ?_, ?_⟩
        · rw [iterate_add_apply, iterate_succ_apply, hpoll]
          exact hpolled
        · refine busy_add (hlater rfl hpollAbove) ?_
          rw [iterate_succ_apply, hpoll]
          exact hbusy

/-! ## The end of a wait -/

/-- When a host that was let go is torn down, the log tells of it, whatever was in it before. -/
theorem exists_teardownIfGone_eq (s : State) :
    ∃ (t : State) (later : List Occurrence), t.stack = s.stack ∧ dispatched later = 0 ∧
      ∀ trace answer, ({ s with trace, answer } : State).teardownIfGone =
        { t with trace := later ++ trace, answer } := by
  have hfold : ∀ (es : List (Entry Callback)) (s : State), ∃ (t : State) (later : List Occurrence),
      t.stack = s.stack ∧ dispatched later = 0 ∧
        ∀ trace answer, es.foldl discard { s with trace, answer } =
          { t with trace := later ++ trace, answer } := by
    intro es
    induction es with
    | nil => exact fun s => ⟨s, [], rfl, rfl, fun _ _ => rfl⟩
    | cons e es ih =>
      intro s
      obtain ⟨t, later, hstack, hnone, ht⟩ := ih (s.discard e)
      refine ⟨t, later ++ [.dropped e.ticket e.callback.name], hstack, ?_, fun trace answer => ?_⟩
      · simpa [dispatched, Occurrence.isDispatch] using hnone
      · rw [List.append_assoc]
        exact ht (.dropped e.ticket e.callback.name :: trace) answer
  by_cases hgone : (!s.held && s.stack.isEmpty) = true
  · have hteardown : ∀ trace answer, ({ s with trace, answer } : State).teardownIfGone =
        ({ s with trace, answer } : State).teardown := fun trace answer => if_pos hgone
    simp only [hteardown, teardown]
    obtain ⟨_ | ⟨messages, entries⟩, host⟩ := s.host.teardown
    · exact ⟨s, [], rfl, rfl, fun _ _ => rfl⟩
    · obtain ⟨t, later, hstack, hnone, ht⟩ :=
        hfold entries ({ s with host }.discardMessages messages)
      refine ⟨t, later ++ [.logged (.hostTornDown messages.length entries.length)], hstack, ?_,
        fun trace answer => ?_⟩
      · simpa [dispatched, Occurrence.isDispatch] using hnone
      · rw [List.append_assoc]
        exact ht (.logged (.hostTornDown messages.length entries.length) :: trace) answer
  · exact ⟨s, [], rfl, rfl, fun trace answer => if_neg hgone⟩

/-- The wait has found that its condition does not hold, the host is open and nothing is queued: it
stays so until the time has run out. -/
def ranOut (c : Condition) (checks : Nat) (s : State) : Bool :=
  !c (checks + 1) s.trace && !s.host.closed && s.host.queue.isEmpty

/-- The evaluations of a condition in the states `before` and in `last`, and once more there when time
has run out. -/
def evaluations (c : Condition) (before : List State) (last : State) : List Bool :=
  (before ++ [last]).mapIdx (fun i t => c (i + 1) t.trace) ++
    if last.ranOut c before.length then [c (before.length + 2) last.trace] else []

theorem evaluations_eq (c : Condition) (before : List State) (last : State) :
    evaluations c before last = before.mapIdx (fun i t => c (i + 1) t.trace) ++
      c (before.length + 1) last.trace ::
        if last.ranOut c before.length then [c (before.length + 2) last.trace] else [] := by
  simp [evaluations, List.mapIdx_append]

theorem length_evaluations (c : Condition) (before : List State) (last : State) :
    (evaluations c before last).length =
      before.length + if last.ranOut c before.length then 2 else 1 := by
  rw [evaluations_eq, List.length_append, List.length_mapIdx]
  split <;> rfl

theorem Waits.false_before {count n : Nat} {before : List State} {last : State}
    (h : Waits c rest 0 count s n before last) :
    true ∉ before.mapIdx fun i t => c (i + 1) t.trace := by
  intro hmem
  obtain ⟨i, hi, htrue⟩ := List.mem_mapIdx.mp hmem
  have hfalse := (h.goesOn i before[i] (List.getElem?_eq_getElem hi)).1
  rw [Nat.zero_add] at hfalse
  exact Bool.false_ne_true (hfalse.symm.trans htrue)

/-- None but the last evaluation is true. -/
theorem Waits.true_notMem_dropLast {count n : Nat} {before : List State} {last : State}
    (h : Waits c rest 0 count s n before last) : true ∉ (evaluations c before last).dropLast := by
  rw [evaluations_eq]
  split
  · next hout =>
    have hfirst : c (before.length + 1) last.trace = false := by
      simp only [ranOut, Bool.and_eq_true, Bool.not_eq_true'] at hout
      exact hout.1.1
    simpa [hfirst] using h.false_before
  · simpa using h.false_before

theorem Waits.true_mem_iff {count n : Nat} {before : List State} {last : State}
    (h : Waits c rest 0 count s n before last) : true ∈ evaluations c before last ↔
      c (before.length + 1) last.trace = true ∨
        last.ranOut c before.length = true ∧ c (before.length + 2) last.trace = true := by
  rw [evaluations_eq, List.mem_append, or_iff_right h.false_before, List.mem_cons, eq_comm]
  refine or_congr_right ?_
  cases last.ranOut c before.length with
  | true =>
    simp only [if_true, List.mem_singleton, true_and]
    exact eq_comm
  | false => simp

theorem stepWait_of_stops {checks : Nat} (hstops : c (checks + 1) s.trace = true ∨
      s.host.closed = true ∨ s.host.queue = []) (count : Nat) (rest : List Frame) :
    ∃ result, s.stepWait c checks count rest =
        (({ s with stack := rest }.record (.waited count)).reply
          (.awaited result (checks + if s.ranOut c checks then 2 else 1))).teardownIfGone ∧
      (result = .ok () ↔ c (checks + 1) s.trace = true ∨
        s.ranOut c checks = true ∧ c (checks + 2) s.trace = true) ∧
      (result = .error .hostClosed ↔ c (checks + 1) s.trace = false ∧ s.host.closed = true) ∧
      (result = .error (.system .timedOut) ↔
        s.ranOut c checks = true ∧ c (checks + 2) s.trace = false) := by
  cases hfirst : c (checks + 1) s.trace with
  | true => exact ⟨.ok (), by simp [stepWait, ranOut, hfirst]⟩
  | false =>
    cases hclosed : s.host.closed with
    | true => exact ⟨.error .hostClosed, by simp [stepWait, ranOut, hfirst, hclosed]⟩
    | false =>
      have hqueue : s.host.queue = [] := by simpa [hfirst, hclosed] using hstops
      have hout : s.ranOut c checks = true := by simp [ranOut, hfirst, hclosed, hqueue]
      cases hsecond : c (checks + 2) s.trace with
      | true =>
        exact ⟨.ok (), by simp [stepWait, Host.receive, hfirst, hclosed, hqueue, hout, hsecond]⟩
      | false =>
        exact ⟨.error (.system .timedOut),
          by simp [stepWait, Host.receive, hfirst, hclosed, hqueue, hout, hsecond]⟩

/-! ## The main result -/

/-- A wait returns, whatever the host and the callbacks that it runs. It evaluates its condition in
the states `before`, in each of which it goes on to dispatch one message, and in `last`, where it
dispatches none: so once for each message and once more, or twice more when time runs out. It
succeeds if and only if an evaluation is true, which none but the last one is. The answer that the
host is closed comes if and only if the condition does not hold in `last` and the host is closed
there; the answer that time has run out, if and only if the host is open there, nothing is queued,
and both evaluations are false. In that case a poll in its place takes as many steps to the same
state, with the same things happening on the way; only the answers differ. -/
theorem wait_stops (h : Reachable callbacks (u.start (.runUntil c))) (hheld : u.held = true) :
    ∃ n before last result,
      (∀ m ≤ n, u.stack.length < (State.step^[m] (u.start (.runUntil c))).stack.length) ∧
      State.step^[n + 1] (u.start (.runUntil c)) = last.step ∧ last.step.stack = u.stack ∧
      last.step.answer = some (.awaited result (evaluations c before last).length) ∧
      heads (u.stack.length + 1) (n + 1) (u.start (.runUntil c)) = before ++ [last] ∧
      (∀ t ∈ before, t.host.closed = false ∧ dispatched t.step.trace = dispatched t.trace + 1) ∧
      dispatched last.step.trace = dispatched last.trace ∧
      (evaluations c before last).length =
        before.length + (if last.ranOut c before.length then 2 else 1) ∧
      (result = .ok () ↔ true ∈ evaluations c before last) ∧
      true ∉ (evaluations c before last).dropLast ∧
      (result = .error .hostClosed ↔
        c (before.length + 1) last.trace = false ∧ last.host.closed = true) ∧
      (result = .error (.system .timedOut) ↔ last.host.closed = false ∧ last.host.queue = [] ∧
        c (before.length + 1) last.trace = false ∧ c (before.length + 2) last.trace = false) ∧
      (result = .error (.system .timedOut) →
        (∀ m ≤ n, u.stack.length < (State.step^[m] (u.start .poll)).stack.length) ∧
        ∃ later earlier count,
          last.step.trace = later ++ .waited count :: earlier ∧
          State.step^[n + 1] (u.start .poll) =
            { last.step with
              trace := later ++ .polled count :: earlier
              answer := some (.count count) } ∧
          (State.step^[n + 1] (u.start .poll)).calls = last.step.calls) := by
  have hwait : u.start (.runUntil c) = { u with stack := .waiting c 0 0 :: u.stack } := by
    simp [start, hheld]
  have hpoll : u.start .poll = { u with stack := .polling 0 :: u.stack } := by simp [start, hheld]
  rw [hwait] at h ⊢
  rw [hpoll]
  obtain ⟨n, before, last, hwaits⟩ := h.exists_waits rfl
  obtain ⟨ran, hlast, hpolled, hpollBusy⟩ := hwaits.polled
  obtain ⟨result, hstops, hok, hclosed, htimedOut⟩ := stepWait_of_stops hwaits.stops ran u.stack
  obtain ⟨t, later, hstack, hnone, hgone⟩ := exists_teardownIfGone_eq { last with stack := u.stack }
  simp only [Nat.zero_add] at hlast hstops hok hclosed htimedOut
  have hend : last.step = { t with
      trace := later ++ .waited ran :: last.trace
      answer := some (.awaited result (evaluations c before last).length) } := by
    rw [length_evaluations]
    simp only [State.step, hlast]
    exact hstops.trans (hgone (.waited ran :: last.trace) _)
  have hout : last.ranOut c before.length = true ↔ c (before.length + 1) last.trace = false ∧
      last.host.closed = false ∧ last.host.queue = [] := by
    simp [ranOut, and_assoc]
  refine ⟨n, before, last, result, hwaits.busy, ?_, by rw [hend]; exact hstack, by rw [hend],
    hwaits.heads, fun s hs => ?_, ?_, length_evaluations c before last,
    hok.trans hwaits.true_mem_iff.symm, hwaits.true_notMem_dropLast, hclosed, ?_, fun hresult => ?_⟩
  · rw [Function.iterate_succ_apply', hwaits.reaches]
  · obtain ⟨i, hi⟩ := List.getElem?_of_mem hs
    exact (hwaits.goesOn i s hi).2
  · rw [hend]
    simpa [dispatched, Occurrence.isDispatch] using hnone
  · rw [htimedOut, hout]
    constructor
    · rintro ⟨⟨hfirst, hopen, hqueue⟩, hsecond⟩
      exact ⟨hopen, hqueue, hfirst, hsecond⟩
    · rintro ⟨hopen, hqueue, hfirst, hsecond⟩
      exact ⟨⟨hfirst, hopen, hqueue⟩, hsecond⟩
  · refine ⟨hpollBusy, later, last.trace, ran, by rw [hend], ?_⟩
    have hqueue : last.host.queue = [] := (hout.mp (htimedOut.mp hresult).1).2.2
    have hpollEnd : State.step^[n + 1] { u with stack := .polling 0 :: u.stack } = { t with
        trace := later ++ .polled ran :: last.trace
        answer := some (.count ran) } := by
      rw [Function.iterate_succ_apply', hpolled]
      simp only [State.step, stepPoll, Host.receive, hqueue]
      exact hgone (.polled ran :: last.trace) _
    rw [hpollEnd, hend]
    exact ⟨rfl, by simp [calls, List.filterMap_cons, Occurrence.invoked?]⟩

/-- One callback is called and another one is dropped. -/
def waitedRun : List Action :=
  [.register "called" "called" [] [], .register "other" "other" [] [],
    .invoke "called" .null true [], .drop "other"]

/-- Then a wait for two calls takes both messages and runs out of time, after four evaluations; a poll
would have run the same callback. -/
theorem wait_stops_after_waitedRun :
    let u : State := { waitedRun.foldl perform {} with answer := none }
    let wait := State.step^[4] (u.start (.runUntil (.invoked 2)))
    let poll := State.step^[4] (u.start .poll)
    wait.stack = [] ∧ wait.answer = some (.awaited (.error (.system .timedOut)) 4) ∧
      wait.calls = [0] ∧ poll.calls = [0] ∧ wait.host.queue = poll.host.queue := by
  intro u wait poll
  obtain ⟨_, h₁⟩ := Reachable.new.perform rfl waitedRun[0]
  obtain ⟨_, h₂⟩ := h₁.perform (by decide) waitedRun[1]
  obtain ⟨_, h₃⟩ := h₂.perform (by decide) waitedRun[2]
  obtain ⟨_, h₄⟩ := h₃.perform (by decide) waitedRun[3]
  have hwait := h₄.act (.runUntil (.invoked 2)) (by decide)
  obtain ⟨n, before, last, result, hbusy, hreaches, hreturned, hanswer, -, -, -, -, -, -, -, -, hpoll⟩ :=
    wait_stops (u := u) (c := .invoked 2) hwait (by decide)
  obtain rfl : n = 3 := by
    have hshort : n < 4 := by
      by_contra hlong
      exact absurd (hbusy 4 (Nat.le_of_not_lt hlong)) (by decide)
    have hend : (State.step^[n + 1] (u.start (.runUntil (.invoked 2)))).stack.length = 0 := by
      rw [hreaches, hreturned]
      decide
    have hlong : ∀ k < 3, (State.step^[k + 1] (u.start (.runUntil (.invoked 2)))).stack.length ≠ 0 := by
      decide
    by_contra hne
    exact hlong n (by omega) hend
  have hoften : wait.answer = some (.awaited (.error (.system .timedOut)) 4) := rfl
  have hcalled : wait.calls = [0] := by decide
  have hlast : last.step = wait := hreaches.symm
  rw [hlast] at hreturned hanswer hpoll
  have hresult : result = .error (.system .timedOut) :=
    (Answer.awaited.inj (Option.some.inj (hanswer.symm.trans hoften))).1
  obtain ⟨-, later, earlier, count, -, hstate, hcalls⟩ := hpoll hresult
  have hsame : poll.host.queue = wait.host.queue := congrArg (·.host.queue) hstate
  exact ⟨hreturned, hoften, hcalled, hcalls.trans hcalled, hsame.symm⟩

end HostBridge.Bridge.State
