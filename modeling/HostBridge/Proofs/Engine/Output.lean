import HostBridge.Proofs.Engine.Replay

/-!
# What a stream gives out

The rows of a stream and its metadata are decided by two things only: the script it was made of, and
which of its answers come before the first cancellation. Up to there it reads out the script, and it
publishes its metadata with the first end it gives. From there on nothing of the script is used any
more.
-/

namespace HostBridge.Engine

/-- The row of an answer. -/
@[simp]
def Stroke.row? : Stroke → Option Row
  | answer row => some row
  | cancel => none

theorem Stroke.mem_of_mem_row? {strokes : List Stroke} {row : Row}
    (h : row ∈ strokes.filterMap row?) : .answer row ∈ strokes := by
  obtain ⟨stroke, hmem, hrow⟩ := List.mem_filterMap.mp h
  cases stroke with
  | answer row' =>
    obtain rfl := Option.some.inj hrow
    exact hmem
  | cancel => cases hrow

namespace Stream

/-! ## Metadata -/

/-- The metadata of a stream is shown if its rows have ended, and held back otherwise. -/
def Shows (x : Stream) (metadata : Metadata) (ended : Prop) : Prop :=
  ended ∧ x.unpublished = none ∧ x.metadata = some metadata ∨
    ¬ ended ∧ x.unpublished = some metadata ∧ x.metadata = none

variable {x : Stream} {metadata : Metadata} {ended : Prop}

theorem Shows.publish (h : x.Shows metadata ended) : x.publish.Shows metadata True := by
  rw [publish_eq]
  refine Or.inl ⟨trivial, rfl, ?_⟩
  rcases h with ⟨-, hunpublished, hshown⟩ | ⟨-, hunpublished, -⟩
  · simp [hunpublished, hshown]
  · simp [hunpublished]

theorem Shows.congr {y : Stream} {ended' : Prop} (h : x.Shows metadata ended)
    (hunpublished : y.unpublished = x.unpublished) (hshown : y.metadata = x.metadata)
    (hended : ended' ↔ ended) : y.Shows metadata ended' := by
  unfold Shows
  rw [hunpublished, hshown, hended]
  exact h

/-- An answer shows the metadata if it is an end and the pull saw no cancellation. -/
theorem Shows.serve (h : x.Shows metadata ended) (cancelled : Bool) :
    (x.serve cancelled).2.Shows metadata
      (ended ∨ cancelled = false ∧ (x.serve cancelled).1 = .done) := by
  cases cancelled with
  | true =>
    simp only [Stream.serve, if_true, Bool.true_eq_false, false_and, or_false]
    split
    · exact h
    · exact h
  | false =>
    simp only [Stream.serve, Bool.false_eq_true, if_false, true_and]
    split
    · exact h.publish.congr rfl rfl (by simp)
    · next rows _ =>
      have hrest : ({ x with rows } : Stream).Shows metadata ended := h
      exact hrest.publish.congr rfl rfl (by simp)
    · next row rows hnot hrows =>
      have hrow : row ≠ .done := fun hdone => hnot hdone
      exact h.congr rfl rfl (by simp [hrow])

variable {y : Stream} {strokes : List Stroke}

/-- As long as nobody cancels the stream, every end shows the metadata. -/
theorem Plays.shows (h : Plays x strokes y) (hx : x.cancelled = false) (hcalm : .cancel ∉ strokes)
    (hshows : x.Shows metadata ended) : y.Shows metadata (ended ∨ .answer .done ∈ strokes) := by
  induction h generalizing ended with
  | rest => exact hshows.congr rfl rfl (by simp)
  | @answer x y strokes _ ih =>
    have hnext := ih (x.next_loop.2.trans hx) (fun hmem => hcalm (List.mem_cons_of_mem _ hmem))
      (hshows.serve x.cancelled)
    refine hnext.congr rfl rfl ?_
    simp only [next, hx, true_and, List.mem_cons, Stroke.answer.injEq, or_assoc, eq_comm]
  | cancel => simp at hcalm

/-! ## Rows -/

/-- As long as nobody cancels the stream, it reads out its script. -/
theorem Plays.answer_of_getElem? (h : Plays x strokes y) (hx : x.cancelled = false)
    (hcalm : .cancel ∉ strokes) {k : Nat} {stroke : Stroke} (hk : strokes[k]? = some stroke) :
    stroke = .answer (x.rows.getD k .done) := by
  induction h generalizing k with
  | rest => simp at hk
  | @answer x y strokes _ ih =>
    obtain ⟨hrow, hrows⟩ := next_of_not_cancelled hx
    cases k with
    | zero =>
      obtain rfl := Option.some.inj hk
      rw [hrow]
      cases x.rows <;> rfl
    | succ k =>
      have hlater := ih (x.next_loop.2.trans hx) (fun hmem => hcalm (List.mem_cons_of_mem _ hmem)) hk
      rw [hlater, hrows]
      cases x.rows <;> rfl
  | cancel => simp at hcalm

/-- A stream that was cancelled reports it once, and after that gives the end. -/
theorem Plays.row_of_cancelled (h : Plays x strokes y) (hx : x.cancelled = true)
    (hreported : x.reported = false) {k : Nat} {row : Row}
    (hk : (strokes.filterMap Stroke.row?)[k]? = some row) :
    row = if k = 0 then .failed .canceled else .done := by
  induction h with
  | rest => simp at hk
  | @answer x y strokes h _ =>
    have hnext : x.next = (.failed .canceled, { x with reported := true }) := by
      simp [next, Stream.serve, hx, hreported]
    simp only [hnext, List.filterMap_cons, Stroke.row?] at h hk
    cases k with
    | zero => exact (Option.some.inj hk).symm
    | succ k =>
      have hmem := Stroke.mem_of_mem_row? (List.mem_of_getElem? (List.getElem?_cons_succ ▸ hk))
      exact h.done_of_reported hx rfl hmem
  | cancel _ ih => exact ih rfl hreported hk

/-- A stream that was cancelled uses nothing of its script any more. -/
theorem Plays.kept_of_cancelled (h : Plays x strokes y) (hx : x.cancelled = true) :
    y.rows = x.rows ∧ y.unpublished = x.unpublished ∧ y.metadata = x.metadata := by
  induction h with
  | rest => exact ⟨rfl, rfl, rfl⟩
  | @answer x y strokes _ ih =>
    have hnext : x.next.2.rows = x.rows ∧ x.next.2.unpublished = x.unpublished ∧
        x.next.2.metadata = x.metadata := by
      unfold next Stream.serve
      rw [if_pos hx]
      split <;> exact ⟨rfl, rfl, rfl⟩
    obtain ⟨hrows, hunpublished, hmetadata⟩ := ih (x.next_loop.2.trans hx)
    exact ⟨hrows.trans hnext.1, hunpublished.trans hnext.2.1, hmetadata.trans hnext.2.2⟩
  | cancel _ ih => exact ih rfl

theorem serve_cancels (x : Stream) (cancelled : Bool) :
    (x.serve cancelled).2.cancels = x.cancels := by
  unfold Stream.serve
  split
  · split <;> rfl
  · split
    · rw [publish_eq]
    · rw [publish_eq]
    · rfl

/-- Every cancellation is counted. -/
theorem Plays.cancels (h : Plays x strokes y) :
    y.cancels = x.cancels + strokes.countP (!·.isAnswer) := by
  induction h with
  | rest => rfl
  | @answer x y strokes _ ih =>
    rw [ih, next, serve_cancels, List.countP_cons_of_neg (by simp)]
  | @cancel x y strokes _ ih =>
    rw [ih, List.countP_cons_of_pos (by simp)]
    simp only [Stream.cancel]
    omega

/-! ## The whole output -/

/-- A stream that was just made, after any answers and cancellations. -/
theorem Plays.output {l : Nat} {rows : List Row} (h : Plays (.ofRows l rows metadata) strokes y) :
    (∀ (k : Nat) (stroke : Stroke), (strokes.takeWhile Stroke.isAnswer)[k]? = some stroke →
      stroke = .answer (rows.getD k .done)) ∧
    (∀ k row, ((strokes.dropWhile Stroke.isAnswer).filterMap Stroke.row?)[k]? = some row →
      row = if k = 0 then .failed .canceled else .done) ∧
    y.rows = rows.drop (strokes.takeWhile Stroke.isAnswer).length ∧
    y.Shows metadata (.answer .done ∈ strokes.takeWhile Stroke.isAnswer) := by
  obtain ⟨hanswers, z, hcalm, hrest⟩ := h.split_at_cancel
  obtain ⟨⟨-, hreported, hrows⟩, -⟩ := hcalm.script rfl hanswers
  have hshows : z.Shows metadata (.answer .done ∈ strokes.takeWhile Stroke.isAnswer) := by
    have hnew : (Stream.ofRows l rows metadata).Shows metadata False := Or.inr ⟨id, rfl, rfl⟩
    exact (hcalm.shows rfl hanswers hnew).congr rfl rfl (by simp)
  refine ⟨fun k stroke hk => hcalm.answer_of_getElem? rfl hanswers hk, ?_⟩
  rcases hrest with ⟨hnil, rfl⟩ | ⟨rest, hstrokes, hrest⟩
  · rw [hnil]
    exact ⟨fun k row hk => by simp at hk, hrows, hshows⟩
  · rw [hstrokes]
    obtain ⟨hkept, hunpublished, hmetadata⟩ := hrest.kept_of_cancelled rfl
    exact ⟨fun k row hk => hrest.row_of_cancelled rfl hreported hk, hkept.trans hrows,
      hshows.congr hunpublished hmetadata Iff.rfl⟩

end Stream

/-- A stream has just been made, of any rows and with any metadata, and no pull from it has begun. In
any later run, whatever else happens in it, the rows that it gives to pulls that look before the first
cancellation are the rows of its script in order, and the end past them. The first one after that is
an error and every other one the end, and no row of the script is used for them. The cancellations are
counted, and the metadata can be seen exactly if a pull that looked before the first of them got the
end. -/
theorem output_follows_script (before later : List Event) (i l : Nat) (rows : List Row)
    (metadata : Metadata)
    (hnew : (run before).engine.stream? i = some (.ofRows l rows metadata))
    (hunseen : (run before).Unseen i) :
    ∃ os x, (run (before ++ later)).history = (run before).history ++ os ∧
      (run (before ++ later)).engine.stream? i = some x ∧
      let strokes := os.filterMap ((run (before ++ later)).played? l i)
      let calm := strokes.takeWhile Stroke.isAnswer
      let rest := strokes.dropWhile Stroke.isAnswer
      (∀ (k : Nat) (stroke : Stroke), calm[k]? = some stroke →
        stroke = .answer (rows.getD k .done)) ∧
      (∀ k row, (rest.filterMap Stroke.row?)[k]? = some row →
        row = if k = 0 then .failed .canceled else .done) ∧
      x.rows = rows.drop calm.length ∧
      x.cancels = strokes.countP (!·.isAnswer) ∧
      (.answer .done ∈ calm → x.metadata = some metadata) ∧
      (.answer .done ∉ calm → x.metadata = none) := by
  rw [run_append]
  obtain ⟨os, x, hos, hx, -, hplays⟩ := (Moment.orderly_run before).plays_after
    (Moment.ledger_run before) (Moment.looks_run before) hnew hunseen later
  have hplays' : Stream.Plays (.ofRows l rows metadata)
      (os.filterMap (((run before).after later).played? l i)) x := hplays
  obtain ⟨hcalm, hrest, hrows, hshows⟩ := hplays'.output
  have hcancels : x.cancels =
      (os.filterMap (((run before).after later).played? l i)).countP (!·.isAnswer) :=
    hplays'.cancels.trans (Nat.zero_add _)
  refine ⟨os, x, hos, hx, hcalm, hrest, hrows, hcancels, fun hended => ?_, fun hended => ?_⟩
  · rcases hshows with ⟨-, -, hshown⟩ | ⟨hnot, -⟩
    · exact hshown
    · exact absurd hended hnot
  · rcases hshows with ⟨hended', -⟩ | ⟨-, -, hhidden⟩
    · exact absurd hended' hended
    · exact hhidden

/-- A stream with an end in the middle of its script. -/
def endWithin : List Event :=
  [.loop, .stream 0 [.content "x".toUTF8 none, .done, .content "y".toUTF8 none] {}]

/-- The stream is pulled from up to the end, and cancelled when the pull that meets the end has looked.
It is pulled from once more and cancelled again. A last pull has taken its row when the loop was asked
to stop, and one more is refused. -/
def cancelledPastEnd : List Event :=
  [.pull 0, .turn 0, .turn 0, .turn 0, .pull 0, .turn 0, .cancelStream 0, .turn 0, .turn 0, .pull 0,
    .turn 0, .turn 0, .turn 0, .cancelStream 0, .pull 0, .stop 0, .turn 0, .turn 0, .pull 0]

/-- In that run the row after the end stays in the script. -/
theorem output_follows_script_in_cancelledPastEnd :
    (run endWithin).engine.stream? 0 = some (.ofRows 0
      [.content "x".toUTF8 none, .done, .content "y".toUTF8 none] {}) ∧
    (run endWithin).Unseen 0 ∧
    (run (endWithin ++ cancelledPastEnd)).history.filterMap
        ((run (endWithin ++ cancelledPastEnd)).played? 0 0) =
      [.answer (.content "x".toUTF8 none), .answer .done, .cancel, .answer (.failed .canceled),
        .cancel, .answer .done] ∧
    ∃ x, (run (endWithin ++ cancelledPastEnd)).engine.stream? 0 = some x ∧
      x.rows = [.content "y".toUTF8 none] ∧ x.cancels = 2 ∧ x.metadata = some {} := by
  have hunseen : (run endWithin).Unseen 0 := fun _ _ _ h => by cases h
  have hhistory : (run (endWithin ++ cancelledPastEnd)).history =
      [.submitted 0 (.pull 0 ⟨0, 0⟩), .checked 0 false,
        .completed .loop (.row ⟨0, 0⟩ (.content "x".toUTF8 none)),
        .submitted 0 (.pull 0 ⟨0, 1⟩), .checked 1 false, .cancelled 0,
        .completed .loop (.row ⟨0, 1⟩ .done),
        .submitted 0 (.pull 0 ⟨0, 2⟩), .checked 2 true,
        .completed .loop (.row ⟨0, 2⟩ (.failed .canceled)), .cancelled 0,
        .submitted 0 (.pull 0 ⟨0, 3⟩), .checked 3 true,
        .submitted 0 (.pull 0 ⟨0, 4⟩),
        .completed .host (.row ⟨0, 4⟩ (.failed .clusterClosed))] := rfl
  have hhand : (run (endWithin ++ cancelledPastEnd)).inHand? 0 = some (⟨0, 3⟩, .done) := rfl
  have hstrokes : (run (endWithin ++ cancelledPastEnd)).history.filterMap
        ((run (endWithin ++ cancelledPastEnd)).played? 0 0) =
      [.answer (.content "x".toUTF8 none), .answer .done, .cancel, .answer (.failed .canceled),
        .cancel, .answer .done] := by
    simp [List.filterMap_cons, List.findSome?_cons, Moment.played?, Moment.got?, hhistory, hhand]
  obtain ⟨os, x, hos, hx, -, -, hrows, hcancels, hshown, -⟩ :=
    output_follows_script endWithin cancelledPastEnd 0 0 _ _ rfl hunseen
  have hos' : (run (endWithin ++ cancelledPastEnd)).history = os := hos.trans (List.nil_append os)
  rw [← hos', hstrokes] at hrows hcancels hshown
  exact ⟨rfl, hunseen, hstrokes, x, hx, hrows, hcancels,
    hshown (List.mem_of_getElem? (i := 1) rfl)⟩

end HostBridge.Engine
