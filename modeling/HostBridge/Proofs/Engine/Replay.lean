import HostBridge.Proofs.Engine.Ledger

/-!
# How long the end of a stream lasts

A stream that was not cancelled answers with the rows of its script, one after the other, and with
the end when there are none left. A stream that was cancelled answers once with an error, and from
then on with the end. So an end that comes after a cancellation lasts. One that comes before does not:
the script may go on after an end in the middle of it, and a cancellation makes the stream answer
with an error once more.

A pull looks whether its stream was cancelled, and takes its row later. A cancellation in between comes
too late for it. So an answer takes its place among the cancellations where its pull has looked, and
with that the stream behaves as if pulls were answered at once.
-/

namespace HostBridge.Engine

/-- What happens to a stream. -/
inductive Stroke where
  /-- It answers a pull. -/
  | answer (row : Row)
  /-- It is cancelled. -/
  | cancel

/-- The stream answers. -/
@[simp]
def Stroke.isAnswer : Stroke → Bool
  | answer _ => true
  | cancel => false

namespace Stream

variable {x y z : Stream} {strokes : List Stroke}

/-- The answer to a pull that looks and takes its row with nothing in between. -/
def next (x : Stream) : Row × Stream :=
  x.serve x.cancelled

theorem next_loop (x : Stream) : x.next.2.loop = x.loop ∧ x.next.2.cancelled = x.cancelled :=
  x.serve_loop x.cancelled

theorem next_of_not_cancelled (hx : x.cancelled = false) :
    x.next.1 = x.rows.headD .done ∧ x.next.2.rows = x.rows.tail := by
  rw [next, hx]
  exact x.serve_false

/-- A cancellation that a pull has not seen makes no difference to its answer. -/
theorem serve_cancel (x : Stream) (cancelled : Bool) :
    x.cancel.serve cancelled = ((x.serve cancelled).1, (x.serve cancelled).2.cancel) := by
  unfold serve
  cases cancelled with
  | true =>
    have hreported : x.cancel.reported = x.reported := rfl
    simp only [if_true, hreported]
    split <;> rfl
  | false =>
    have hrows : x.cancel.rows = x.rows := rfl
    simp only [Bool.false_eq_true, if_false, hrows]
    split
    · rw [publish_eq, publish_eq]; rfl
    · rw [publish_eq, publish_eq]; rfl
    · rfl

/-! ## Answers and cancellations in a row -/

/-- A stream answers and is cancelled, stroke by stroke. -/
inductive Plays : Stream → List Stroke → Stream → Prop
  /-- Nothing happens. -/
  | rest {x : Stream} : Plays x [] x
  /-- It answers a pull. -/
  | answer {x y : Stream} {strokes : List Stroke} (h : Plays x.next.2 strokes y) :
      Plays x (.answer x.next.1 :: strokes) y
  /-- It is cancelled. -/
  | cancel {x y : Stream} {strokes : List Stroke} (h : Plays x.cancel strokes y) :
      Plays x (.cancel :: strokes) y

theorem Plays.append {strokes' : List Stroke} (h : Plays x strokes y) (h' : Plays y strokes' z) :
    Plays x (strokes ++ strokes') z := by
  induction h with
  | rest => exact h'
  | answer _ ih => exact .answer (ih h')
  | cancel _ ih => exact .cancel (ih h')

theorem Plays.split {strokes' : List Stroke} (h : Plays x (strokes ++ strokes') z) :
    ∃ y, Plays x strokes y ∧ Plays y strokes' z := by
  induction strokes generalizing x with
  | nil => exact ⟨x, .rest, h⟩
  | cons stroke strokes ih =>
    cases h with
    | answer h =>
      obtain ⟨y, hy, hz⟩ := ih h
      exact ⟨y, .answer hy, hz⟩
    | cancel h =>
      obtain ⟨y, hy, hz⟩ := ih h
      exact ⟨y, .cancel hy, hz⟩

/-- Cancellations that come while a pull is on its way do not change its answer. -/
theorem Plays.serve (h : Plays x strokes y) (hcancels : ∀ row, .answer row ∉ strokes)
    (cancelled : Bool) : (y.serve cancelled).1 = (x.serve cancelled).1 ∧
      Plays (x.serve cancelled).2 strokes (y.serve cancelled).2 := by
  induction h with
  | rest => exact ⟨rfl, .rest⟩
  | answer => exact absurd List.mem_cons_self (hcancels _)
  | cancel _ ih =>
    obtain ⟨hrow, hplays⟩ := ih fun row hrow => hcancels row (List.mem_cons_of_mem _ hrow)
    rw [serve_cancel] at hrow hplays
    exact ⟨hrow, .cancel hplays⟩

theorem Plays.first {row : Row} (h : Plays x (.answer row :: strokes) y) :
    row = x.next.1 ∧ Plays x.next.2 strokes y := by
  cases h with
  | answer h => exact ⟨rfl, h⟩

/-- A cancellation is not taken back. -/
theorem Plays.cancelled (h : Plays x strokes y) (hx : x.cancelled = true ∨ .cancel ∈ strokes) :
    y.cancelled = true := by
  induction h with
  | rest => simpa using hx
  | @answer x _ _ _ ih =>
    refine ih ?_
    rw [x.next_loop.2]
    simpa using hx
  | cancel _ ih => exact ih (Or.inl rfl)

/-- A stream whose cancellation was reported answers with the end. -/
theorem Plays.done_of_reported (h : Plays x strokes y) (hcancelled : x.cancelled = true)
    (hreported : x.reported = true) {row : Row} (hrow : .answer row ∈ strokes) : row = .done := by
  induction h with
  | rest => cases hrow
  | @answer x _ _ _ ih =>
    have hnext : x.next = (.done, x) := by simp [next, Stream.serve, hcancelled, hreported]
    rw [hnext] at ih hrow
    rcases List.mem_cons.mp hrow with hrow | hrow
    · exact Stroke.answer.inj hrow
    · exact ih hcancelled hreported hrow
  | cancel _ ih => exact ih rfl hreported (by simpa using hrow)

/-- A stream whose cancellation is still to be reported answers with something else than the end,
if it answers at all. -/
theorem Plays.done_of_unreported (h : Plays x strokes y) (hcancelled : x.cancelled = true)
    (hreported : x.reported = false) (hdone : ∀ row, .answer row ∈ strokes → row = .done) (row : Row) :
    .answer row ∉ strokes := by
  induction h with
  | rest => simp
  | @answer x _ _ _ _ =>
    have hnext : x.next.1 = .failed .canceled := by
      simp [next, Stream.serve, hcancelled, hreported]
    have := hdone _ List.mem_cons_self
    rw [hnext] at this
    cases this
  | cancel _ ih =>
    have := ih rfl hreported fun row hrow => hdone row (List.mem_cons_of_mem _ hrow)
    simpa using this

/-- An answer of a stream that was not cancelled reports no cancellation. -/
theorem next_reported (hx : x.cancelled = false) : x.next.2.reported = x.reported := by
  unfold next Stream.serve
  rw [if_neg (by simp [hx])]
  split
  · rw [publish_eq]
  · rw [publish_eq]
  · rfl

/-- A stream that is not cancelled answers with the rows of its script. -/
theorem Plays.script (h : Plays x strokes y) (hx : x.cancelled = false)
    (hanswers : .cancel ∉ strokes) :
    (y.cancelled = false ∧ y.reported = x.reported ∧ y.rows = x.rows.drop strokes.length) ∧
      ((∀ row, .answer row ∈ strokes → row = .done) ↔
        ∀ row ∈ x.rows.take strokes.length, row = .done) := by
  induction h with
  | rest => simp [hx]
  | @answer x y strokes _ ih =>
    obtain ⟨hrow, hrows⟩ := next_of_not_cancelled hx
    obtain ⟨⟨hy, hreported, hrest⟩, hdone⟩ :=
      ih (x.next_loop.2.trans hx) fun hmem => hanswers (List.mem_cons_of_mem _ hmem)
    refine ⟨⟨hy, hreported.trans (next_reported hx), ?_⟩, ?_⟩
    · rw [hrest, hrows, List.drop_tail, List.length_cons]
    · simp only [List.mem_cons, Stroke.answer.injEq, forall_eq_or_imp, hrow, hdone, hrows]
      cases x.rows with
      | nil => simp
      | cons row rows => simp
  | cancel => simp at hanswers

/-! ## How long an end lasts -/

/-- A stream plays up to the first cancellation, if there is one, and on from there. -/
theorem Plays.split_at_cancel (h : Plays x strokes y) :
    .cancel ∉ strokes.takeWhile Stroke.isAnswer ∧
      ∃ z, Plays x (strokes.takeWhile Stroke.isAnswer) z ∧
        (strokes.dropWhile Stroke.isAnswer = [] ∧ y = z ∨
          ∃ rest, strokes.dropWhile Stroke.isAnswer = .cancel :: rest ∧ Plays z.cancel rest y) := by
  constructor
  · intro hmem
    cases List.all_eq_true.mp List.all_takeWhile _ hmem
  · rw [← List.takeWhile_append_dropWhile (p := Stroke.isAnswer) (l := strokes)] at h
    obtain ⟨z, hcalm, hrest⟩ := h.split
    refine ⟨z, hcalm, ?_⟩
    have hfirst := List.head?_dropWhile_not Stroke.isAnswer strokes
    cases hstrokes : strokes.dropWhile Stroke.isAnswer with
    | nil =>
      rw [hstrokes] at hrest
      cases hrest
      exact Or.inl ⟨rfl, rfl⟩
    | cons stroke rest =>
      rw [hstrokes] at hrest hfirst
      cases hrest with
      | answer => simp at hfirst
      | cancel hrest => exact Or.inr ⟨rest, rfl, hrest⟩

/-- A stream that is not cancelled yet gives nothing but ends exactly if the rows of its script that
it gets to are ends, and it answers no pull once it is cancelled. -/
theorem Plays.done_of_not_cancelled (h : Plays x strokes y) (hcancelled : x.cancelled = false)
    (hreported : x.reported = false) :
    (∀ row, .answer row ∈ strokes → row = .done) ↔
      (∀ row ∈ x.rows.take (strokes.takeWhile Stroke.isAnswer).length, row = .done) ∧
        ∀ row, .answer row ∉ strokes.dropWhile Stroke.isAnswer := by
  obtain ⟨hanswers, z, hcalm, hrest⟩ := h.split_at_cancel
  obtain ⟨⟨-, hz, -⟩, hscript⟩ := hcalm.script hcancelled hanswers
  have hparts : (∀ row, .answer row ∈ strokes → row = .done) ↔
      (∀ row, .answer row ∈ strokes.takeWhile Stroke.isAnswer → row = .done) ∧
        ∀ row, .answer row ∈ strokes.dropWhile Stroke.isAnswer → row = .done := by
    conv_lhs => rw [← List.takeWhile_append_dropWhile (p := Stroke.isAnswer) (l := strokes)]
    simp only [List.mem_append, or_imp, forall_and]
  rw [hparts, hscript]
  refine and_congr_right fun _ => ⟨fun hdone => ?_, fun hnone row hrow => absurd hrow (hnone row)⟩
  rcases hrest with ⟨hnil, -⟩ | ⟨rest, hstrokes, hrest⟩
  · simp [hnil]
  · rw [hstrokes] at hdone ⊢
    have hnone := hrest.done_of_unreported rfl (hz.trans hreported) fun row hrow =>
      hdone row (List.mem_cons_of_mem _ hrow)
    simpa using hnone

/-- A stream answers with the end. All its later answers are the end exactly if it was cancelled
before, or if the rows of its script that are left for them are ends and no pull is answered after a
cancellation. -/
theorem Plays.done_iff {front back : List Stroke}
    (h : Plays x (front ++ .answer .done :: back) y) (hcancelled : x.cancelled = false)
    (hreported : x.reported = false) :
    (∀ row, .answer row ∈ back → row = .done) ↔
      .cancel ∈ front ∨
      (∀ row ∈ (x.rows.drop (front.length + 1)).take (back.takeWhile Stroke.isAnswer).length,
        row = .done) ∧
        ∀ row, .answer row ∉ back.dropWhile Stroke.isAnswer := by
  obtain ⟨z, hfront, hback⟩ := h.split
  obtain ⟨hdone, hback⟩ := hback.first
  by_cases hcancel : .cancel ∈ front
  · -- The cancellation was reported before, or this would not be the end.
    have hz := hfront.cancelled (Or.inr hcancel)
    have hreported' : z.reported = true := by
      by_contra hnot
      simp [next, Stream.serve, hz, hnot] at hdone
    have hnext : z.next.2 = z := by simp [next, Stream.serve, hz, hreported']
    rw [hnext] at hback
    exact ⟨fun _ => Or.inl hcancel, fun _ row hrow => hback.done_of_reported hz hreported' hrow⟩
  · obtain ⟨⟨hz, hzr, hrows⟩, -⟩ := hfront.script hcancelled hcancel
    obtain ⟨-, hrest⟩ := next_of_not_cancelled hz
    rw [hback.done_of_not_cancelled (z.next_loop.2.trans hz)
      ((next_reported hz).trans (hzr.trans hreported)), hrest, hrows, List.tail_drop]
    simp only [hcancel, false_or]

end Stream

/-! ## Streams in a run -/

/-- The row with which a loop answers a pull. -/
@[simp]
def Observation.row? (reply : Pull) : Observation → Option Row
  | .completed .loop (.row reply' row) => if reply' = reply then some row else none
  | _ => none

namespace Moment

/-- The pull that the thread of a loop is in the middle of and the row that it has taken, if it has. -/
def inHand? (m : Moment) (l : Nat) : Option (Pull × Row) :=
  match (m.engine.worker l).found, (m.engine.loop l).ready.head?.bind (m.engine.job? l) with
  | some (.row row), some (.pull _ reply) => some (reply, row)
  | _, _ => none

/-- The row that a pull has got from its stream: it was answered with it, or has it in hand. -/
def got? (m : Moment) (l : Nat) (reply : Pull) : Option Row :=
  (m.history.findSome? (Observation.row? reply)).or
    ((m.inHand? l).bind fun taken => if taken.1 = reply then some taken.2 else none)

/-- What an observation tells that a stream has done. A pull that has got its row counts from the
moment at which it looked whether the stream was cancelled. -/
def played? (m : Moment) (l i : Nat) : Observation → Option Stroke
  | .cancelled k => if k = i then some .cancel else none
  | .checked ticket _ => (m.got? l ⟨i, ticket⟩).map .answer
  | _ => none

/-- What an observation tells about a stream, the answers included that the loop gives for it when it
refuses a pull. -/
def stroke? (m : Moment) (l i : Nat) : Observation → Option Stroke
  | .completed .host (.row reply row) => if reply.stream = i then some (.answer row) else none
  | o => m.played? l i o

variable {m m' : Moment} {e : Event} {i l key : Nat} {x y : Stream}

/-! ### Rows in hand -/

theorem inHand?_of_idle (h : (m.engine.worker l).found = none) : m.inHand? l = none := by
  rw [inHand?, h]

theorem inHand?_of_flag {cancelled : Bool}
    (h : (m.engine.worker l).found = some (.flag cancelled)) : m.inHand? l = none := by
  rw [inHand?, h]

theorem inHand?_of_row {k : Nat} {rest : List Nat} {reply : Pull} {row : Row}
    (hready : (m.engine.loop l).ready = key :: rest)
    (hjob : m.engine.job? l key = some (.pull k reply))
    (hfound : (m.engine.worker l).found = some (.row row)) : m.inHand? l = some (reply, row) := by
  rw [inHand?, hfound, hready, List.head?_cons, Option.bind_some, hjob]

theorem inHand?_of_job {t : Errand} {rest : List Nat} (hready : (m.engine.loop l).ready = key :: rest)
    (hjob : m.engine.job? l key = some t) (ht : ∀ i reply, t ≠ .pull i reply) :
    m.inHand? l = none := by
  unfold inHand?
  rw [hready, List.head?_cons, Option.bind_some, hjob]
  split
  · next hpull => exact absurd (Option.some.inj hpull) (ht _ _)
  · rfl

/-- A pull that takes its row has it in hand. -/
theorem inHand?_drawn {k : Nat} {reply : Pull}
    (hfront : m.engine.front? l = some (key, .pull k reply)) (cancelled : Bool) :
    (m.having (m.engine.drawn l k cancelled)).inHand? l =
      some (reply, m.engine.answer k cancelled) := by
  obtain ⟨-, rest, hready, -⟩ := State.front?_eq_some.mp hfront
  have hqueues := State.sameQueues_drawn m.engine l k cancelled
  exact inHand?_of_row ((hqueues.ready l).trans hready)
    ((hqueues.sameJobs.job? l key).trans (State.job?_of_front? hfront))
    (State.found_drawn (State.lt_of_front? hfront) _ _)

/-- What a thread has in hand does not change between its turns. -/
theorem Step.inHand? (h : m.Step e m') (hm : m.Orderly) (he : e ≠ .turn l) :
    m'.inHand? l = m.inHand? l := by
  have hfound := h.found he
  cases hold : (m.engine.worker l).found with
  | none =>
    exact (inHand?_of_idle (hfound.trans hold)).trans (inHand?_of_idle hold).symm
  | some x =>
    obtain ⟨key, rest, t, hready, ht, -⟩ := hm.sound.engaged l x hold
    obtain ⟨extra, hextra⟩ := h.ready he
    have hfront : (m.engine.loop l).ready = key :: rest := hready
    have hjob : m.engine.job? l key = some t.untimed := congrArg (Option.map Task.untimed) ht
    have hjob' := (h.job hm hjob).resolve_right fun hturn => he hturn.1
    simp only [Moment.inHand?, hfound, hextra, hfront, List.cons_append, List.head?_cons,
      Option.bind_some, hjob, hjob']

/-- A row is answered by the thread that has it in hand. -/
theorem Step.rows (h : m.Step e m') : ∃ new, m'.history = m.history ++ new ∧
    ∀ reply row, .completed .loop (.row reply row) ∈ new → ∃ l key i,
      e = .turn l ∧ m.engine.front? l = some (key, .pull i reply) := by
  cases h with
  | idle | connector | loop | respond | stream | cancel | stop | look | sleep | draw
  | elapse => exact ⟨[], (List.append_nil _).symm, by simp⟩
  | cancelStream | take | refuse | check => exact ⟨_, rfl, by simp⟩
  | finish hfront hfinishes =>
    refine ⟨_, rfl, fun reply row hrow => ?_⟩
    simp only [List.mem_singleton, Observation.completed.injEq, true_and] at hrow
    subst hrow
    cases hfinishes with
    | pull => exact ⟨_, _, _, rfl, hfront⟩

/-- A move leaves a pull with the row that it has got, unless it is the one by which it gets it. -/
theorem Step.got? (h : m.Step e m') (hm : m.Orderly) {reply : Pull}
    (hloop : ∀ k, .submitted k (.pull reply.stream reply) ∈ m.history → k = l) :
    m'.got? l reply = m.got? l reply ∨ ∃ key cancelled,
      m.engine.front? l = some (key, .pull reply.stream reply) ∧
      (m.engine.worker l).found = some (.flag cancelled) ∧
      m' = m.having (m.engine.drawn l reply.stream cancelled) := by
  have hproper : ∀ {k key j : Nat} {reply' : Pull},
      m.engine.front? k = some (key, .pull j reply') → reply'.stream = j ∧
        .submitted k (.pull j reply') ∈ m.history := by
    intro k key j reply' hfront
    have hhanded := hm.handed k key _ (State.job?_of_front? hfront)
    exact ⟨hm.proper k _ hhanded, hhanded⟩
  have hkeep : ∀ {n : Moment}, n.history = m.history → n.inHand? l = m.inHand? l →
      n.got? l reply = m.got? l reply := by
    intro n hhistory hhand
    rw [Moment.got?, Moment.got?, hhistory, hhand]
  by_cases he : e = .turn l
  · subst he
    cases h with
    | idle => exact Or.inl rfl
    | cancel hcancels => cases hcancels
    | take hasks | refuse hasks => cases hasks
    | look hmust =>
      refine Or.inl (hkeep rfl ?_)
      cases hold : (m.engine.worker l).found with
      | none =>
        refine (inHand?_of_idle ?_).trans (inHand?_of_idle hold).symm
        rcases State.worker_looked m.engine l l with hworker | ⟨-, hworker⟩ <;>
          rw [having, hworker]
        · exact hold
        · exact (Worker.look_found _).trans hold
      | some x =>
        have hworker := hm.sound.worker_looked_of_found hmust hold
        have hjob : (m.engine.looked l).job? l = m.engine.job? l :=
          funext ((State.sameJobs_looked m.engine l).job? l)
        rw [Moment.inHand?, Moment.inHand?, having, hjob, State.loop, hworker, State.loop]
    | sleep hfront hnone =>
      refine Or.inl (hkeep rfl ((inHand?_of_idle ?_).trans (inHand?_of_idle hnone).symm))
      exact State.found_slept (State.lt_of_front? hfront) _ _
    | @check _ key t ticket cancelled hfront hnone =>
      left
      have hfound' := State.found_checked (State.lt_of_front? hfront) cancelled
      rw [Moment.got?, Moment.got?, inHand?_of_flag hfound', inHand?_of_idle hnone,
        List.findSome?_append]
      simp
    | @draw _ key k reply' cancelled hfront hfound =>
      obtain ⟨rfl, -⟩ := hproper hfront
      by_cases hreply : reply' = reply
      · subst hreply
        exact Or.inr ⟨key, cancelled, hfront, hfound, rfl⟩
      · left
        have hhand := inHand?_drawn hfront cancelled
        rw [Moment.got?, Moment.got?, hhand, inHand?_of_flag hfound, Option.bind_some,
          if_neg hreply, Option.bind_none]
        rfl
    | @finish _ key t r s hfront hfinishes =>
      left
      obtain ⟨-, rest, hready, -⟩ := State.front?_eq_some.mp hfront
      have hjob := State.job?_of_front? hfront
      have hhand : Moment.inHand? ⟨s, m.issued, m.history ++ [.completed .loop r]⟩ l = none := by
        refine inHand?_of_idle ?_
        rw [State.worker, hfinishes.workers]
        exact State.found_finished (State.lt_of_front? hfront) _
      rw [Moment.got?, Moment.got?, hhand, List.findSome?_append, Option.bind_none, Option.or_none]
      cases hfinishes with
      | promote | close =>
        rw [inHand?_of_job hready hjob (by simp [Task.untimed])]
        simp
      | pull hfound =>
        -- What the thread had in hand is in the history now.
        rw [inHand?_of_row hready hjob hfound]
        simp
  · -- Only a turn of the loop of its stream answers a pull.
    obtain ⟨new, hnew, hrows⟩ := h.rows
    have hnone : new.findSome? (Observation.row? reply) = none := by
      refine List.findSome?_eq_none_iff.mpr fun o ho => ?_
      unfold Observation.row?
      split
      · next reply' row =>
        refine if_neg ?_
        rintro rfl
        obtain ⟨k, key, j, hturn, hfront⟩ := hrows _ row ho
        obtain ⟨rfl, hsubmitted⟩ := hproper hfront
        exact he (hloop k hsubmitted ▸ hturn)
      · rfl
    left
    rw [Moment.got?, Moment.got?, hnew, List.findSome?_append, hnone, Option.or_none,
      h.inHand? hm he]

theorem inHand?_eq_some {reply : Pull} {row : Row} (h : m.inHand? l = some (reply, row)) :
    ∃ key k, (m.engine.worker l).found = some (.row row) ∧
      m.engine.job? l key = some (.pull k reply) := by
  unfold inHand? at h
  split at h
  · next hfound hjob =>
    obtain ⟨rfl, rfl⟩ := Prod.mk.inj (Option.some.inj h)
    obtain ⟨key, -, hjob⟩ := Option.bind_eq_some_iff.mp hjob
    exact ⟨key, _, hfound, hjob⟩
  · cases h

/-- What is still with its loop was not answered. -/
theorem Ledger.row?_eq_none (h : m.Ledger) {ticket : Nat} {t : Errand}
    (hjob : m.engine.job? l key = some t) (hticket : t.ticket? = some ticket) (i : Nat) :
    m.history.findSome? (Observation.row? ⟨i, ticket⟩) = none := by
  refine List.findSome?_eq_none_iff.mpr fun o ho => ?_
  unfold Observation.row?
  split
  · refine if_neg ?_
    rintro rfl
    exact h.not_told hjob hticket (List.mem_filterMap.mpr ⟨_, ho, rfl⟩)
  · rfl

/-- A task that has not taken a row has none. -/
theorem got?_eq_none (hm : m.Orderly) (hledger : m.Ledger) {k ticket : Nat} {t : Errand}
    (hjob : m.engine.job? k key = some t) (hticket : t.ticket? = some ticket)
    (hfound : ∀ row, (m.engine.worker k).found ≠ some (.row row)) (l i : Nat) :
    m.got? l ⟨i, ticket⟩ = none := by
  rw [got?, hledger.row?_eq_none hjob hticket, Option.none_or]
  refine Option.bind_eq_none_iff.mpr fun ⟨reply, row⟩ hhand => if_neg ?_
  rintro rfl
  obtain ⟨key', j, hrow, hjob'⟩ := inHand?_eq_some hhand
  obtain ⟨rfl, -⟩ := hledger.submitted_unique (hm.handed k key t hjob)
    (hm.handed l key' _ hjob') hticket rfl
  exact hfound row hrow

/-! ### Strokes -/

/-- The pull in front of a loop takes its row from a stream. -/
def Draws (m : Moment) (l i : Nat) (m' : Moment) : Prop :=
  ∃ key ticket cancelled, m.engine.front? l = some (key, .pull i ⟨i, ticket⟩) ∧
    (m.engine.worker l).found = some (.flag cancelled) ∧
    m' = m.having (m.engine.drawn l i cancelled)

/-- A pull runs on the loop of its stream. -/
theorem Orderly.loop_of_pull (hm : m.Orderly) (hx : m.engine.stream? i = some x) {k : Nat}
    {reply : Pull} (hsubmitted : .submitted k (.pull i reply) ∈ m.history) : k = x.loop := by
  obtain ⟨x', hx', hk⟩ := hm.pulls k i reply hsubmitted
  rw [← hk, Option.some.inj (hx'.symm.trans hx)]

/-- Only a pull that takes its row changes what the history tells about its stream. -/
theorem Step.played? (h : m.Step e m') (hm : m.Orderly) (hx : m.engine.stream? i = some x)
    (hdraws : ¬ m.Draws x.loop i m') : m'.played? x.loop i = m.played? x.loop i := by
  have hgot : ∀ ticket, m'.got? x.loop ⟨i, ticket⟩ = m.got? x.loop ⟨i, ticket⟩ := by
    intro ticket
    refine (h.got? hm fun k => hm.loop_of_pull hx).resolve_right ?_
    rintro ⟨key, cancelled, hdrawn⟩
    exact hdraws ⟨key, ticket, cancelled, hdrawn⟩
  funext o
  cases o <;> simp only [Moment.played?, hgot]

/-- Any other move tells at most of a cancellation. -/
theorem Step.strikes (h : m.Step e m') (hm : m.Orderly) (hledger : m.Ledger)
    (hx : m.engine.stream? i = some x) (hdraws : ¬ m.Draws x.loop i m') :
    ∃ new x', m'.history = m.history ++ new ∧ m'.engine.stream? i = some x' ∧ x'.loop = x.loop ∧
      x.Plays (new.filterMap (m.played? x.loop i)) x' ∧
      ∀ row, .answer row ∉ new.filterMap (m.played? x.loop i) := by
  have hlt : i < m.engine.streams.length := (List.getElem?_eq_some_iff.mp hx).1
  have hquiet : ∀ new, m'.history = m.history ++ new → m'.engine.stream? i = some x →
      new.filterMap (m.played? x.loop i) = [] →
      ∃ new x', m'.history = m.history ++ new ∧ m'.engine.stream? i = some x' ∧ x'.loop = x.loop ∧
        x.Plays (new.filterMap (m.played? x.loop i)) x' ∧
        ∀ row, .answer row ∉ new.filterMap (m.played? x.loop i) := by
    intro new hnew hx' hnone
    exact ⟨new, x, hnew, hx', rfl, hnone ▸ .rest, by simp [hnone]⟩
  have hnone : m.history = m.history ++ [] := (List.append_nil _).symm
  cases h with
  | idle | connector | loop | respond | stop | look | sleep | elapse => exact hquiet [] hnone hx rfl
  | stream => exact hquiet [] hnone ((List.getElem?_append_left hlt).trans hx) rfl
  | cancel hcancels =>
    refine hquiet [] hnone ?_ rfl
    rw [having, State.stream?, hcancels.woken.streams]
    exact hx
  | @cancelStream k =>
    by_cases hk : k = i
    · subst hk
      refine ⟨_, x.cancel, rfl, ?_, rfl, ?_, by simp [Moment.played?]⟩
      · rw [State.stream?_cancelStream, if_pos rfl, hx, Option.map_some]
      · simpa [Moment.played?] using .cancel .rest
    · refine hquiet _ rfl ?_ (by simp [Moment.played?, hk])
      rw [State.stream?_cancelStream, if_neg (Ne.symm hk), hx]
  | take hasks =>
    refine hquiet _ rfl ?_ (by simp [Moment.played?])
    rw [State.stream?]
    exact (congrArg (·[i]?) hasks.streams).trans hx
  | refuse hasks =>
    refine hquiet _ rfl ?_ (by simp [Moment.played?])
    rw [State.stream?, hasks.streams]
    exact hx
  | check hfront hfound _ hticket =>
    have hgot := got?_eq_none hm hledger (State.job?_of_front? hfront)
      ((Task.ticket?_untimed _).trans hticket) (by simp [hfound]) x.loop i
    exact hquiet _ rfl hx (by simp [Moment.played?, hgot])
  | @draw l key k reply cancelled hfront hfound =>
    refine hquiet [] hnone ?_ rfl
    have hhanded := hm.handed l key _ (State.job?_of_front? hfront)
    have hk : i ≠ k := by
      rintro rfl
      obtain rfl : reply.stream = i := hm.proper l _ hhanded
      obtain rfl := hm.loop_of_pull hx hhanded
      exact hdraws ⟨key, reply.ticket, cancelled, hfront, hfound, rfl⟩
    rw [having, State.stream?_drawn, if_neg hk, hx]
  | @finish l key t r s hfront hfinishes =>
    refine hquiet _ rfl ?_ (by simp [Moment.played?])
    cases hfinishes with
    | promote hsettled =>
      cases hsettled with
      | cancelled | failed => exact hx
      | promoted => exact (List.getElem?_append_left hlt).trans hx
    | pull | close => exact hx

/-! ### Streams replay what the history tells -/

/-- Since it was `x` the stream has answered and was cancelled as the observations tell, and so has
become `y`. -/
structure Replays (m : Moment) (i : Nat) (x y : Stream) (os : List Observation) : Prop where
  /-- The stream is `y` now. -/
  stream : m.engine.stream? i = some y
  /-- A stream stays on its loop. -/
  loop : y.loop = x.loop
  /-- The strokes lead from `x` to `y`. -/
  plays : x.Plays (os.filterMap (m.played? x.loop i)) y
  /-- A pull that has looked saw the stream as it was then, and since then it was only cancelled. -/
  looked : ∀ key rest ticket cancelled, (m.engine.worker x.loop).found = some (.flag cancelled) →
    (m.engine.loop x.loop).ready = key :: rest →
    m.engine.job? x.loop key = some (.pull i ⟨i, ticket⟩) →
      ∃ front back z, os = front ++ .checked ticket cancelled :: back ∧
        x.Plays (front.filterMap (m.played? x.loop i)) z ∧ z.cancelled = cancelled ∧
        z.Plays (back.filterMap (m.played? x.loop i)) y ∧
        ∀ row, .answer row ∉ back.filterMap (m.played? x.loop i)

namespace Replays

variable {os past : List Observation}

/-- The pull that has looked takes its row: the one that the stream would have given when it looked. -/
theorem draw (h : m.Replays i x y os) (hledger : m.Ledger) (hlooks : m.Looks)
    (hpast : m.history = past ++ os) (hdraws : m.Draws x.loop i m') :
    m'.history = m.history ∧ ∃ y', m'.Replays i x y' os := by
  obtain ⟨key, ticket, cancelled, hfront, hfound, rfl⟩ := hdraws
  obtain ⟨-, rest, hready, -⟩ := State.front?_eq_some.mp hfront
  have hjob : m.engine.job? x.loop key = some (.pull i ⟨i, ticket⟩) := State.job?_of_front? hfront
  obtain ⟨front, back, z, rfl, hfirst, hz, hback, hcancels⟩ :=
    h.looked key rest ticket cancelled hfound hready hjob
  obtain ⟨hrow, hplays⟩ := hback.serve hcancels cancelled
  have hhand := inHand?_drawn hfront cancelled
  -- No other pull has looked with this ticket.
  have hnodup := hlooks.nodup
  have hlooker : Observation.looker? (.checked ticket cancelled) = some ticket := rfl
  rw [hpast, List.filterMap_append, List.filterMap_append, List.filterMap_cons_some hlooker] at hnodup
  have hlast := (List.nodup_append.mp hnodup).2.1
  have hother : ∀ o, o ∈ front ∨ o ∈ back → (m.having (m.engine.drawn x.loop i cancelled)).played?
      x.loop i o = m.played? x.loop i o := by
    intro o ho
    cases o with
    | submitted | cancelled | completed => rfl
    | checked ticket' b =>
      have hne : ticket ≠ ticket' := by
        rintro rfl
        rcases ho with ho | ho
        · exact (List.nodup_append.mp hlast).2.2 ticket
            (List.mem_filterMap.mpr ⟨_, ho, rfl⟩) ticket List.mem_cons_self rfl
        · exact (List.nodup_cons.mp (List.nodup_append.mp hlast).2.1).1
            (List.mem_filterMap.mpr ⟨_, ho, rfl⟩)
      simp only [played?, got?, hhand, inHand?_of_flag hfound, Option.bind_some, Option.bind_none,
        Pull.mk.injEq, true_and, if_neg hne]
      rfl
  have hstroke : (m.having (m.engine.drawn x.loop i cancelled)).played? x.loop i
      (.checked ticket cancelled) = some (.answer z.next.1) := by
    have hnone := hledger.row?_eq_none hjob rfl i
    have hanswer : m.engine.answer i cancelled = z.next.1 := by
      rw [State.answer, h.stream, Stream.next, hz, ← hrow]
    have hgot : (m.having (m.engine.drawn x.loop i cancelled)).got? x.loop ⟨i, ticket⟩ =
        (m.history.findSome? (Observation.row? ⟨i, ticket⟩)).or (some z.next.1) := by
      rw [got?, hhand, hanswer, Option.bind_some, if_pos rfl]
      rfl
    rw [played?, hgot, hnone, Option.none_or, Option.map_some]
  refine ⟨rfl, (y.serve cancelled).2, ?_, (y.serve_loop cancelled).1.trans h.loop, ?_, ?_⟩
  · rw [having, State.stream?_drawn, if_pos rfl, h.stream, Option.map_some]
  · rw [List.filterMap_append, List.filterMap_cons_some hstroke,
      List.filterMap_congr fun o ho => hother o (Or.inl ho),
      List.filterMap_congr fun o ho => hother o (Or.inr ho)]
    refine hfirst.append (.answer ?_)
    rw [Stream.next, hz]
    exact hplays
  · intro _ _ _ _ hflag
    cases (State.found_drawn (State.lt_of_front? hfront) _ _).symm.trans hflag

/-- Any other move. -/
theorem strike (h : m.Replays i x y os) (hm : m.Orderly) (hledger : m.Ledger) (hstep : m.Step e m')
    (hdraws : ¬ m.Draws x.loop i m') :
    ∃ new y', m'.history = m.history ++ new ∧ m'.Replays i x y' (os ++ new) := by
  rw [← h.loop] at hdraws
  have hsame := hstep.played? hm h.stream hdraws
  obtain ⟨new, y', hnew, hy', hloop, hplays, hcancels⟩ := hstep.strikes hm hledger h.stream hdraws
  rw [h.loop] at hsame hplays hcancels
  refine ⟨new, y', hnew, hy', hloop.trans h.loop, ?_, ?_⟩
  · rw [hsame, List.filterMap_append]
    exact h.plays.append hplays
  · intro key rest ticket cancelled hfound hready hjob
    rw [hsame]
    rcases hstep.flagged hm hfound hready hjob with ⟨hold, ⟨rest', hfront⟩, ht⟩ |
      ⟨u, ticket', -, huntimed, hticket, -, hchecks, rfl⟩
    · obtain ⟨front, back, z, rfl, hfirst, hz, hback, hcalm⟩ :=
        h.looked key rest' ticket cancelled hold hfront ht
      refine ⟨front, back ++ new, z, by simp, hfirst, hz, ?_, ?_⟩
      · rw [List.filterMap_append]
        exact hback.append hplays
      · intro row hrow
        rw [List.filterMap_append] at hrow
        rcases List.mem_append.mp hrow with hrow | hrow
        · exact hcalm row hrow
        · exact hcancels row hrow
    · -- The pull looks now.
      obtain rfl := Option.some.inj (hy'.symm.trans h.stream)
      obtain rfl := List.append_cancel_left hnew
      cases hchecks with
      | promote => cases huntimed
      | pull =>
        obtain ⟨rfl, rfl⟩ : _ = i ∧ _ = Pull.mk i ticket := by simpa [Task.untimed] using huntimed
        obtain rfl := Option.some.inj hticket
        refine ⟨os, [], y', rfl, h.plays, ?_, .rest, by simp⟩
        simp [State.isStreamCancelled, h.stream]

/-- Over any events. -/
theorem after (h : m.Replays i x y os) (hm : m.Orderly) (hledger : m.Ledger) (hlooks : m.Looks)
    (hpast : m.history = past ++ os) (events : List Event) : ∃ new y',
      (m.after events).history = m.history ++ new ∧ (m.after events).Replays i x y' (os ++ new) := by
  induction events generalizing m y os with
  | nil => exact ⟨[], y, (List.append_nil _).symm, (List.append_nil os).symm ▸ h⟩
  | cons e events ih =>
    have hstep := hm.step e
    obtain ⟨new, y', hnew, h'⟩ : ∃ new y', (m.perform e).history = m.history ++ new ∧
        (m.perform e).Replays i x y' (os ++ new) := by
      by_cases hdraws : m.Draws x.loop i (m.perform e)
      · obtain ⟨hsame, y', h'⟩ := h.draw hledger hlooks hpast hdraws
        exact ⟨[], y', hsame.trans (List.append_nil _).symm, (List.append_nil os).symm ▸ h'⟩
      · exact h.strike hm hledger hstep hdraws
    have hpast' : (m.perform e).history = past ++ (os ++ new) := by
      rw [hnew, hpast, List.append_assoc]
    obtain ⟨new', z, hnew', h''⟩ := ih h' (hm.keep hstep) (hledger.step hm hstep)
      (hlooks.step hm hledger hstep) hpast'
    refine ⟨new ++ new', z, ?_, List.append_assoc .. ▸ h''⟩
    rw [← List.append_assoc, ← hnew]
    exact hnew'

end Replays

/-- No pull from the stream has looked yet whether the stream was cancelled. -/
def Unseen (m : Moment) (i : Nat) : Prop :=
  ∀ l ticket cancelled, .submitted l (.pull i ⟨i, ticket⟩) ∈ m.history →
    .checked ticket cancelled ∉ m.history

/-- From a moment on at which no pull had begun, a stream answers and is cancelled as the history
tells. -/
theorem Orderly.plays_after (hm : m.Orderly) (hledger : m.Ledger) (hlooks : m.Looks)
    (hx : m.engine.stream? i = some x) (hunseen : m.Unseen i) (events : List Event) :
    ∃ os y, (m.after events).history = m.history ++ os ∧
      (m.after events).engine.stream? i = some y ∧ y.loop = x.loop ∧
      x.Plays (os.filterMap ((m.after events).played? x.loop i)) y := by
  have hstart : m.Replays i x x [] := by
    refine ⟨hx, rfl, .rest, fun key rest ticket cancelled hfound hready hjob => ?_⟩
    obtain ⟨ticket', hticket, hchecked⟩ := hm.looked _ key rest _ cancelled hfound hready hjob
    obtain rfl := Option.some.inj hticket
    exact absurd hchecked (hunseen _ _ _ (hm.handed _ key _ hjob))
  obtain ⟨os, y, hos, h⟩ := hstart.after hm hledger hlooks (List.append_nil _).symm events
  exact ⟨os, y, hos, h.stream, h.loop, h.plays⟩

/-! ### Refused pulls -/

/-- What is reported on the spot is about a task that its loop refuses. -/
theorem Step.refused (h : m.Step e m') {r : Report} (hr : .completed .host r ∈ m'.history) :
    .completed .host r ∈ m.history ∨ ∃ s l t, m.Asks e s l t ∧
      (m.engine.loop l).stopping = true ∧ t.abandoned? = some r ∧ .submitted l t ∈ m'.history := by
  cases h with
  | idle | connector | loop | respond | stream | cancel | stop | look | sleep | draw
  | elapse => exact Or.inl hr
  | cancelStream | take | check | finish => exact Or.inl (by simpa using hr)
  | refuse hasks hstop habandoned =>
    simp only [List.mem_append, List.mem_cons, List.not_mem_nil, or_false, reduceCtorEq, false_or,
      Observation.completed.injEq, true_and] at hr
    rcases hr with hr | rfl
    · exact Or.inl hr
    · exact Or.inr ⟨_, _, _, hasks, hstop, habandoned, by simp⟩

/-- Only a loop that was asked to stop refuses tasks. -/
theorem stopping_of_refused (events : List Event) {t : Errand} {r : Report}
    (hr : .completed .host r ∈ (run events).history)
    (ht : .submitted l t ∈ (run events).history) (hanswers : r.answers t = true) :
    ((run events).engine.loop l).stopping = true := by
  have hall : (run events).Ledger ∧ ∀ l t r, .completed .host r ∈ (run events).history →
      .submitted l t ∈ (run events).history → r.answers t = true →
        ((run events).engine.loop l).stopping = true := by
    refine Orderly.start.after_induction (P := fun m => m.Ledger ∧ ∀ l t r,
      .completed .host r ∈ m.history → .submitted l t ∈ m.history → r.answers t = true →
        (m.engine.loop l).stopping = true) ⟨.start, by simp⟩ ?_ events
    rintro m e m' hm ⟨hledger, hstop⟩ hstep
    have hledger' := hledger.step hm hstep
    refine ⟨hledger', fun l t r hr ht hanswers => ?_⟩
    have hticket := Completion.ticket_of_answers hanswers
    rcases hstep.refused hr with hr | ⟨s, k, u, hasks, hstopping, hu, hsubmitted⟩
    · obtain ⟨⟨k, u, hu, hanswers'⟩, -⟩ := hledger.reports _ r hr
      obtain ⟨rfl, rfl⟩ := hledger'.submitted_unique ht (hstep.history.subset hu) hticket
        (Completion.ticket_of_answers hanswers')
      exact (hstep.worker hm l).1 (hstop l t r hr hu hanswers)
    · obtain ⟨r', hr', hanswers', -⟩ := u.abandoned?_eq hasks.proper.isSome
      obtain rfl := Option.some.inj (hu.symm.trans hr')
      obtain ⟨rfl, rfl⟩ := hledger'.submitted_unique ht hsubmitted hticket
        (Completion.ticket_of_answers hanswers')
      exact (hstep.worker hm l).1 hstopping
  exact hall.2 l t r hr ht hanswers

/-- As long as the loop of a stream takes tasks, all rows that are reported are its answers. -/
theorem stroke?_eq_played? {events : List Event} (hx : (run events).engine.stream? i = some x)
    (hserving : ((run events).engine.loop x.loop).stopping = false) {o : Observation}
    (ho : o ∈ (run events).history) :
    (run events).stroke? x.loop i o = (run events).played? x.loop i o := by
  unfold stroke?
  split
  · next reply row =>
    refine if_neg ?_
    rintro rfl
    obtain ⟨⟨k, t, ht, hanswers⟩, -⟩ := (ledger_run events).reports _ _ ho
    have hstop := stopping_of_refused events ho ht hanswers
    cases t with
    | pull j reply' =>
      obtain rfl : reply = reply' := by simpa using hanswers
      obtain rfl : reply.stream = j := (orderly_run events).proper k _ ht
      rw [(orderly_run events).loop_of_pull hx ht, hserving] at hstop
      cases hstop
    | promote | close | park => cases hanswers
  · rfl

end Moment

/-- A stream has just been made, of any rows, no pull from it has begun, and some time later its loop
still takes tasks. In between it was asked for rows and cancelled in any order, and once it answered
with the end. All its later answers are the end exactly if it was cancelled before that, or if the rows
of its script that were left for later pulls are ends and no pull was answered after a cancellation.
Before and after are meant as the pulls see it: an answer comes when its pull looks whether the stream
was cancelled. -/
theorem end_lasts_iff (before later : List Event) (i l : Nat) (rows : List Row) (metadata : Metadata)
    (hnew : (run before).engine.stream? i = some (.ofRows l rows metadata))
    (hunseen : (run before).Unseen i)
    (hserving : (run (before ++ later)).engine.isStopped l = false)
    (os : List Observation) (hos : (run (before ++ later)).history = (run before).history ++ os)
    (front back : List Stroke)
    (hstrokes : os.filterMap ((run (before ++ later)).stroke? l i) =
      front ++ .answer .done :: back) :
    (∀ row, .answer row ∈ back → row = .done) ↔
      .cancel ∈ front ∨
      (∀ row ∈ (rows.drop (front.length + 1)).take (back.takeWhile Stroke.isAnswer).length,
        row = .done) ∧
        ∀ row, .answer row ∉ back.dropWhile Stroke.isAnswer := by
  obtain ⟨os', x, hos', hx, hloop, hplays⟩ := (Moment.orderly_run before).plays_after
    (Moment.ledger_run before) (Moment.looks_run before) hnew hunseen later
  rw [← run_append] at hos' hx hplays
  obtain rfl := List.append_cancel_left (hos'.symm.trans hos)
  have hl : x.loop = l := hloop
  have hsame : ∀ o ∈ os', (run (before ++ later)).stroke? l i o =
      (run (before ++ later)).played? l i o := by
    intro o ho
    have hall := Moment.stroke?_eq_played? hx (hl ▸ hserving) (o := o) (hos' ▸ List.mem_append_right _ ho)
    rwa [hl] at hall
  rw [List.filterMap_congr hsame] at hstrokes
  have hplays' : Stream.Plays (.ofRows l rows metadata) (front ++ .answer .done :: back) x :=
    hstrokes ▸ hplays
  exact hplays'.done_iff rfl rfl

/-- A stream of two rows. -/
def twoRows : List Event :=
  [.loop, .stream 0 [.content "x".toUTF8 none, .content "y".toUTF8 none] {}]

/-- The stream is asked for a row and cancelled when the pull has looked, and again when it has given
an end after that. -/
def twiceCancelled : List Event :=
  [.pull 0, .turn 0, .cancelStream 0, .turn 0, .turn 0, .pull 0, .turn 0, .turn 0, .turn 0, .pull 0,
    .turn 0, .turn 0, .turn 0, .cancelStream 0, .pull 0, .turn 0, .turn 0, .turn 0]

/-- In that run the end comes after a cancellation, so it lasts. -/
theorem end_lasts_in_twiceCancelled :
    (run twoRows).Unseen 0 ∧
    (run (twoRows ++ twiceCancelled)).engine.isStopped 0 = false ∧
    (run (twoRows ++ twiceCancelled)).history.filterMap
        ((run (twoRows ++ twiceCancelled)).stroke? 0 0) =
      [.answer (.content "x".toUTF8 none), .cancel, .answer (.failed .canceled)] ++
        .answer .done :: [.cancel, .answer .done] ∧
    ∀ row, .answer row ∈ [Stroke.cancel, .answer .done] → row = .done := by
  have hunseen : (run twoRows).Unseen 0 := fun _ _ _ h => by cases h
  have hhistory : (run (twoRows ++ twiceCancelled)).history =
      [.submitted 0 (.pull 0 ⟨0, 0⟩), .checked 0 false, .cancelled 0,
        .completed .loop (.row ⟨0, 0⟩ (.content "x".toUTF8 none)),
        .submitted 0 (.pull 0 ⟨0, 1⟩), .checked 1 true,
        .completed .loop (.row ⟨0, 1⟩ (.failed .canceled)),
        .submitted 0 (.pull 0 ⟨0, 2⟩), .checked 2 true, .completed .loop (.row ⟨0, 2⟩ .done),
        .cancelled 0, .submitted 0 (.pull 0 ⟨0, 3⟩), .checked 3 true,
        .completed .loop (.row ⟨0, 3⟩ .done)] := rfl
  have hstrokes : (run (twoRows ++ twiceCancelled)).history.filterMap
        ((run (twoRows ++ twiceCancelled)).stroke? 0 0) =
      [.answer (.content "x".toUTF8 none), .cancel, .answer (.failed .canceled)] ++
        .answer .done :: [.cancel, .answer .done] := by
    simp [List.filterMap_cons, List.findSome?_cons, Moment.stroke?, Moment.played?, Moment.got?,
      hhistory]
  have hlasts := end_lasts_iff twoRows twiceCancelled 0 0 _ _ rfl hunseen rfl _ rfl _ _ hstrokes
  exact ⟨hunseen, rfl, hstrokes, hlasts.mpr (Or.inl (by simp))⟩

/-- A stream without rows is cancelled after its end. -/
def cancelledAtEnd : List Event :=
  [.loop, .stream 0 [] {}, .pull 0, .turn 0, .turn 0, .turn 0, .cancelStream 0, .pull 0, .turn 0,
    .turn 0, .turn 0]

/-- A stream has a row after an end. -/
def rowAfterEnd : List Event :=
  [.loop, .stream 0 [.done, .content "x".toUTF8 none] {}, .pull 0, .turn 0, .turn 0, .turn 0,
    .pull 0, .turn 0, .turn 0, .turn 0]

/-- An end that was answered need not last, neither when the stream is cancelled afterwards nor when
nobody cancels it. -/
theorem end_need_not_last :
    ((run cancelledAtEnd).engine.isStopped 0 = false ∧
      (run cancelledAtEnd).history.filterMap ((run cancelledAtEnd).stroke? 0 0) =
        [.answer .done, .cancel, .answer (.failed .canceled)]) ∧
    (run rowAfterEnd).engine.isStopped 0 = false ∧
      (run rowAfterEnd).history.filterMap ((run rowAfterEnd).stroke? 0 0) =
        [.answer .done, .answer (.content "x".toUTF8 none)] :=
  ⟨⟨rfl, rfl⟩, rfl, rfl⟩

end HostBridge.Engine
