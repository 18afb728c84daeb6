import HostBridge.Proofs.Engine.Busy
import HostBridge.Proofs.Engine.Queued
import HostBridge.Proofs.Session.Script

/-!
# Rows come in order

While no connection is shut down, a loop runs the pulls of a stream in the order in which they were
made, and the host tells their callbacks in that order. So a stream that was not cancelled stands, at
every moment, exactly where its answered pulls have brought it, or one row further if a pull has taken
its row and not given it yet: `Plays` ties the rows that are left, the pulls that wait on the loop and
what the callbacks are owed to one position in the script.
-/

namespace HostBridge

/-! ## What the host sees of a row -/

/-- What the host is to see of a row. -/
inductive Row.Shown : Row → Option String → Option Error → Prop
  /-- The text of which the bytes are the encoding, with the error that came along. -/
  | text (text : String) (error : Option EngineError) :
      Shown (.content text.toByteArray error) (some text) (error.map Error.engine)
  /-- That the bytes are no text. -/
  | garbled {bytes : ByteArray} (error : Option EngineError) (h : ¬ bytes.IsValidUTF8) :
      Shown (.content bytes error) none (some .invalidUtf8)
  /-- The error alone. -/
  | failed (error : EngineError) : Shown (.failed error) none (some (.engine error))
  /-- Nothing. -/
  | done : Shown .done none none

theorem decodeUtf8_toByteArray (text : String) : decodeUtf8 text.toByteArray = .ok text := by
  simp only [decodeUtf8, String.fromUTF8?, dif_pos text.isValidUTF8]
  rfl

theorem decodeUtf8_of_not_valid {bytes : ByteArray} (h : ¬ bytes.IsValidUTF8) :
    decodeUtf8 bytes = .error .invalidUtf8 := by
  simp only [decodeUtf8, String.fromUTF8?, dif_neg h]

theorem Row.marshal_of_shown {row : Row} {content : Option String} {error : Option Error}
    (h : row.Shown content error) : row.marshal = (content, error) := by
  cases h with
  | text text e => simp only [marshal, decodeUtf8_toByteArray]
  | garbled e h => simp only [marshal, decodeUtf8_of_not_valid h]
  | failed e => rfl
  | done => rfl

theorem Row.exists_shown (row : Row) : ∃ content error, row.Shown content error := by
  cases row with
  | content bytes e =>
    by_cases h : bytes.IsValidUTF8
    · exact ⟨_, _, .text ⟨bytes, h⟩ e⟩
    · exact ⟨_, _, .garbled e h⟩
  | done => exact ⟨_, _, .done⟩
  | failed e => exact ⟨_, _, .failed e⟩

/-- The host sees of a row what it is to see. -/
theorem Row.marshal_eq_iff {row : Row} {content : Option String} {error : Option Error} :
    row.marshal = (content, error) ↔ row.Shown content error := by
  refine ⟨fun h => ?_, marshal_of_shown⟩
  obtain ⟨content', error', hshown⟩ := row.exists_shown
  obtain ⟨rfl, rfl⟩ := Prod.mk.inj ((marshal_of_shown hshown).symm.trans h)
  exact hshown

end HostBridge

namespace HostBridge.Session

open Bridge (Cookie Host)

/-! ## Positions in the script -/

/-- A pull from a stream, by ticket. -/
@[simp]
def Observation.pullFrom? (k : Nat) : Observation → Option Nat
  | .asked _ t (some k') => if k' = k then some t else none
  | _ => none

/-- A pull from a stream that is still to be answered, by ticket. -/
@[simp]
def pullFrom? (k : Nat) : Task → Option Nat
  | .pull k' cookie => if k' = k then some cookie.ticket else none
  | _ => none

theorem skips_pullFrom? (k : Nat) : Engine.State.SkipsPromotions (pullFrom? k) :=
  fun _ _ _ _ _ => rfl

/-- What a script of rows tells to callbacks, by ticket, in order. Past its rows there is nothing but
the end. -/
def told (rows : List Row) (tickets : List Nat) : List (Nat × Outcome) :=
  tickets.mapIdx fun n t =>
    (t, .row (rows.getD n .done).marshal.1 (rows.getD n .done).marshal.2)

theorem told_concat (rows : List Row) (tickets : List Nat) (t : Nat) :
    told rows (tickets ++ [t]) = told rows tickets ++
      [(t, .row (rows.getD tickets.length .done).marshal.1
        (rows.getD tickets.length .done).marshal.2)] := by
  simp [told, List.mapIdx_append]

theorem told_prefix (rows : List Row) (tickets more : List Nat) :
    told rows tickets <+: told rows (tickets ++ more) := by
  rw [told, told, List.mapIdx_append]
  exact List.prefix_append _ _

/-- Nothing at all is told for an end only. -/
theorem done_of_told {rows : List Row} {tickets : List Nat} {k t : Nat}
    (h : (told rows tickets)[k]? = some (t, .row none none)) : rows.getD k .done = .done := by
  rw [told, List.getElem?_mapIdx] at h
  obtain ⟨t', -, htold⟩ := Option.map_eq_some_iff.mp h
  obtain ⟨-, houtcome⟩ := Prod.mk.inj htold
  obtain ⟨hcontent, herror⟩ := Outcome.row.inj houtcome
  exact Row.marshal_eq_none_none_iff.mp (Prod.ext hcontent herror)

namespace Moment

variable {m m' : Moment} {k : Nat} {x : Engine.Stream} {rows : List Row} {done : List Nat}

/-- The pulls from a stream, by ticket, in order. -/
def asks (m : Moment) (k : Nat) : List Nat :=
  m.history.filterMap (Observation.pullFrom? k)

/-- What the pulls from a stream are owed, by ticket, in order. -/
def owedTo (m : Moment) (tickets : List Nat) : List (Nat × Outcome) :=
  m.owed.filter fun p => tickets.contains p.1

/-- The rows that are left of a script when some of them were given, and when one more was taken. -/
def Stands (rows : List Row) (given : Nat) (left : List Row) : Option Row → Prop
  | none => left = rows.drop given
  | some row => row = rows.getD given .done ∧ left = rows.drop (given + 1)

/-- A stream has played its script for some pulls: the others wait on its loop, in order. -/
structure Plays (m : Moment) (k : Nat) (x : Engine.Stream) (rows : List Row) (done : List Nat) :
    Prop where
  /-- The rows that are left. -/
  rest : Stands rows done.length x.rows (m.state.engine.taken? k x.loop)
  /-- The pulls that wait. -/
  waiting : m.asks k = done ++ m.state.engine.queued (pullFrom? k) x.loop
  /-- What the pulls are owed. -/
  told : m.owedTo (m.asks k) = told rows done

/-- A stream has its rows from the response in the place of its query. -/
def Sourced (m : Moment) (k : Nat) (rows : List Row) : Prop :=
  ∃ r t error alive i c o response, .reported r t (some k) error alive ∈ m.history ∧
    .accepted i (.memory c o) r t ∈ m.history ∧ (m.responses c)[o]? = some response ∧
      response.rows = rows

theorem Sourced.mono (h : m.Sourced k rows) (hlater : Later m m') : m'.Sourced k rows := by
  obtain ⟨r, t, error, alive, i, c, o, response, hreported, haccepted, hresponse, hrows⟩ := h
  exact ⟨r, t, error, alive, i, c, o, response, hlater.history.subset hreported,
    hlater.history.subset haccepted, hlater.response_at hresponse, hrows⟩

/-- Streams that were not cancelled play their scripts. -/
def Faithful (m : Moment) : Prop :=
  ∀ k x, m.state.engine.stream? k = some x → x.cancelled = false →
    ∃ rows done, m.Sourced k rows ∧ m.Plays k x rows done

/-! ## Tickets -/

theorem mem_asks {t : Nat} : t ∈ m.asks k ↔ ∃ r, .asked r t (some k) ∈ m.history := by
  constructor
  · intro h
    obtain ⟨o, ho, hpull⟩ := List.mem_filterMap.mp h
    cases o with
    | asked r t' stream =>
      cases stream with
      | none => cases hpull
      | some k' =>
        simp only [Observation.pullFrom?] at hpull
        split at hpull
        · next hk =>
          cases hpull
          exact ⟨r, hk ▸ ho⟩
        · cases hpull
    | _ => cases hpull
  · rintro ⟨r, ho⟩
    exact List.mem_filterMap.mpr ⟨_, ho, by simp⟩

theorem Sane.lt_of_mem_asks (h : m.Sane) {t : Nat} (ht : t ∈ m.asks k) :
    t < m.state.host.issued := by
  obtain ⟨r, ho⟩ := mem_asks.mp ht
  rw [← h.bridged.issued]
  exact (h.accounted.recorded _ ho).1

/-- A ticket that is not issued yet is owed nothing. -/
theorem Sane.lt_of_mem_owed (h : m.Sane) {p : Nat × Outcome} (hp : p ∈ m.owed) :
    p.1 < m.state.host.issued := by
  obtain ⟨o, ho, howes⟩ := List.mem_filterMap.mp hp
  have hrecorded := h.accounted.recorded _ ho
  rw [← h.bridged.issued]
  cases o with
  | reported r t stream error alive =>
    obtain ⟨i, operation, haccepted, -⟩ := hrecorded
    have ht := (h.accounted.recorded _ haccepted).2.2
    cases alive <;> cases howes <;> exact ht
  | answered t row => cases howes; exact hrecorded
  | asked r t stream =>
    cases stream with
    | none => cases howes; exact hrecorded.1
    | some k => cases howes
  | refused t => cases howes; exact hrecorded
  | pushed | accepted | cancelled | checked => cases howes

/-! ## Moves that a stream does not notice -/

/-- Others get on: neither the pulls of the stream nor what they are owed changes. -/
theorem Plays.keep (h : m.Plays k x rows done) {os : List Observation}
    (hhistory : m'.history = m.history ++ os) (hos : os.filterMap (Observation.pullFrom? k) = [])
    (hqueued : m'.state.engine.queued (pullFrom? k) x.loop =
      m.state.engine.queued (pullFrom? k) x.loop)
    (htaken : m'.state.engine.taken? k x.loop = m.state.engine.taken? k x.loop)
    (howes : ∀ o ∈ os, ∀ p, o.owes? = some p → p.1 ∉ m.asks k) : m'.Plays k x rows done := by
  have hasks : m'.asks k = m.asks k := by
    rw [asks, hhistory, List.filterMap_append, hos, List.append_nil]
    rfl
  refine ⟨by rw [htaken]; exact h.rest, by rw [hasks, hqueued]; exact h.waiting, ?_⟩
  have hnone : (os.filterMap Observation.owes?).filter (fun p => (m.asks k).contains p.1) = [] := by
    refine List.filter_eq_nil_iff.mpr fun p hp => ?_
    obtain ⟨o, ho, howes'⟩ := List.mem_filterMap.mp hp
    simpa using howes o ho p howes'
  rw [hasks, owedTo, Bridged.owed_append hhistory, List.filter_append, hnone, List.append_nil]
  exact h.told

namespace Faithful

theorem start : ({} : Moment).Faithful := by
  intro k x hx
  simp [Engine.State.stream?] at hx

/-- A move that no stream notices. -/
theorem keep (h : m.Faithful) (hlater : Later m m') {os : List Observation}
    (hhistory : m'.history = m.history ++ os)
    (hstreams : ∀ k x, m'.state.engine.stream? k = some x → x.cancelled = false →
      m.state.engine.stream? k = some x)
    (hos : ∀ k, os.filterMap (Observation.pullFrom? k) = [])
    (hqueued : ∀ k l, m'.state.engine.queued (pullFrom? k) l =
      m.state.engine.queued (pullFrom? k) l)
    (htaken : ∀ k l, m'.state.engine.taken? k l = m.state.engine.taken? k l)
    (howes : ∀ k, ∀ o ∈ os, ∀ p, o.owes? = some p → p.1 ∉ m.asks k) : m'.Faithful := by
  intro k x hx hfree
  obtain ⟨rows, done, hsourced, hplays⟩ := h k x (hstreams k x hx hfree) hfree
  exact ⟨rows, done, hsourced.mono hlater,
    hplays.keep hhistory (hos k) (hqueued k x.loop) (htaken k x.loop) (howes k)⟩

/-- A move that only logs, or concerns results, executors or the host. -/
theorem quiet (h : m.Faithful) (hlater : Later m m') (hhistory : m'.history = m.history)
    (hworkers : m'.state.engine.workers = m.state.engine.workers)
    (hstreams : m'.state.engine.streams = m.state.engine.streams) : m'.Faithful := by
  have hnothing : m'.history = m.history ++ [] := by rw [hhistory, List.append_nil]
  refine h.keep hlater hnothing (fun k x hx _ => ?_) (by simp)
    (fun k l => Engine.State.queued_congr hworkers _ l) (fun k l => ?_) (by simp)
  · rwa [Engine.State.stream?, hstreams] at hx
  · exact Engine.State.taken?_congr
      (Engine.State.busy?_of_worker (by rw [Engine.State.worker, hworkers]; rfl)) k

/-! ## Pulls and answers -/

/-- A pull joins the pulls of its stream, and the queue of its loop, at the end. -/
theorem ask (h : m.Faithful) (hsane : m.Sane) (hlater : Later m m') {r i : Nat}
    {y : Engine.Stream} {cookie : Cookie} (hcookie : cookie.ticket = m.state.host.issued)
    (hy : m.state.engine.stream? i = some y) (hl : y.loop < m.state.engine.workers.length)
    (hstop : (m.state.engine.loop y.loop).stopping = false)
    (hhistory : m'.history = m.history ++ [.asked r m.state.host.issued (some i)])
    (hengine : m'.state.engine = m.state.engine.spawned y.loop (.pull i cookie)) : m'.Faithful := by
  intro k x hx hfree
  have hx' : m.state.engine.stream? k = some x := by
    rw [hengine] at hx
    exact hx
  obtain ⟨rows, done, hsourced, hplays⟩ := h k x hx' hfree
  have hqueued : m'.state.engine.queued (pullFrom? k) x.loop = if x.loop = y.loop then
      m.state.engine.queued (pullFrom? k) y.loop ++ (pullFrom? k (.pull i cookie)).toList
      else m.state.engine.queued (pullFrom? k) x.loop := by
    rw [hengine, Engine.State.queued_spawned hl hstop hsane.orderly.sound]
    rfl
  have htaken : m'.state.engine.taken? k x.loop = m.state.engine.taken? k x.loop := by
    rw [hengine]
    exact Engine.State.taken?_congr (hsane.orderly.sound.busy?_spawned hl hstop _ _) k
  refine ⟨rows, done, hsourced.mono hlater, ?_⟩
  by_cases hi : i = k
  · subst hi
    obtain rfl := Option.some.inj (hy.symm.trans hx')
    rw [if_pos rfl] at hqueued
    have hasks : m'.asks i = m.asks i ++ [m.state.host.issued] := by
      rw [asks, hhistory, List.filterMap_append]
      simp [asks]
    refine ⟨by rw [htaken]; exact hplays.rest, ?_, ?_⟩
    · rw [hasks, hqueued, hplays.waiting]
      simp [hcookie]
    · rw [← hplays.told, owedTo, owedTo, Bridged.owed_append hhistory]
      simp only [List.filterMap_cons, Observation.owes?, List.filterMap_nil, List.append_nil]
      refine List.filter_congr fun p hp => ?_
      have hne : p.1 ≠ m.state.host.issued := Nat.ne_of_lt (hsane.lt_of_mem_owed hp)
      simp [hasks, hne]
  · refine hplays.keep hhistory (by simp [hi]) ?_ htaken (by simp [Observation.owes?])
    rw [hqueued]
    split
    · next hloop => simp [hi, hloop]
    · rfl

/-- The pull in front of a loop takes the next row of its stream. -/
theorem draw (h : m.Faithful) (hsane : m.Sane) (hlater : Later m m') {l key i : Nat}
    {keys : List Nat} {cookie : Cookie} {cancelled : Bool}
    (hready : (m.state.engine.loop l).ready = key :: keys)
    (htask : m.state.engine.job? l key = some (.pull i cookie))
    (hfound : (m.state.engine.worker l).found = some (.flag cancelled))
    (hhistory : m'.history = m.history)
    (hengine : m'.state.engine = m.state.engine.drawn l i cancelled) : m'.Faithful := by
  have hnothing : m'.history = m.history ++ [] := by rw [hhistory, List.append_nil]
  have hbusy := Engine.State.busy?_of_found hfound hready htask
  have hdrawn := Engine.State.busy?_drawn (Engine.State.lt_of_job? htask) hready htask i cancelled
  have hqueued : ∀ k l', m'.state.engine.queued (pullFrom? k) l' =
      m.state.engine.queued (pullFrom? k) l' := fun k l' => by
    rw [hengine]
    exact Engine.State.queued_of_sameQueues (Engine.State.sameQueues_drawn _ l i cancelled) _ l'
  obtain ⟨-, ⟨y, hy, hloop⟩, -⟩ := hsane.orderly.due l key _ htask
  intro k x' hx' hfree
  rw [hengine, Engine.State.stream?_drawn] at hx'
  split at hx'
  · -- the stream that gives the row
    next hk =>
    subst hk
    rw [hy] at hx'
    obtain rfl : (y.serve cancelled).2 = x' := by simpa using hx'
    obtain ⟨hsame, hflag⟩ := y.serve_loop cancelled
    rw [hflag] at hfree
    -- a stream that is not cancelled now was not cancelled when the pull looked
    obtain rfl : cancelled = false := by
      have hfinds := hsane.orderly.sound.finds_of_busy? hbusy
      simpa [Engine.State.Finds, Engine.State.isStreamCancelled, hy, hfree] using hfinds
    obtain ⟨rows, done, hsourced, hplays⟩ := h k y hy hfree
    obtain ⟨hrow, hrest⟩ := y.serve_false
    have hleft : y.rows = rows.drop done.length := by
      have hstands := hplays.rest
      rwa [hloop, Engine.State.taken?_of_flag hbusy] at hstands
    have hdrawn' := hdrawn l
    rw [if_pos rfl] at hdrawn'
    have hasks : m'.asks k = m.asks k := by rw [asks, hhistory]; rfl
    refine ⟨rows, done, hsourced.mono hlater, ?_, ?_, ?_⟩
    · rw [hsame, hloop, hengine, Engine.State.taken?_of_busy hdrawn', if_pos rfl, hrest, hleft,
        List.tail_drop]
      refine ⟨?_, rfl⟩
      simp only [Engine.State.answer, hy, hrow, hleft]
      simp [List.headD_eq_head?_getD, List.head?_drop]
    · rw [hasks, hsame, hqueued]
      exact hplays.waiting
    · rw [hasks, owedTo, owed, hhistory]
      exact hplays.told
  · -- another stream
    next hk =>
    obtain ⟨rows, done, hsourced, hplays⟩ := h k x' hx' hfree
    refine ⟨rows, done, hsourced.mono hlater, hplays.keep hnothing (by simp) (hqueued k _) ?_ (by simp)⟩
    have hdrawn' := hdrawn x'.loop
    rw [hengine]
    split at hdrawn'
    · next hl =>
      rw [hl] at hdrawn' ⊢
      rw [Engine.State.taken?_of_busy hdrawn', if_neg fun e => hk e.symm,
        Engine.State.taken?_of_flag hbusy]
    · exact Engine.State.taken?_congr hdrawn' k

/-- The pull in front of a loop is answered with the row that it has taken. -/
theorem answer (h : m.Faithful) (hsane : m.Sane) (hledger : m.Ledger) (hlater : Later m m')
    {l key i : Nat} {keys : List Nat} {cookie : Cookie} {row : Row}
    (hready : (m.state.engine.loop l).ready = key :: keys)
    (htask : m.state.engine.job? l key = some (.pull i cookie))
    (hfound : (m.state.engine.worker l).found = some (.row row))
    (hhistory : m'.history = m.history ++ [.answered cookie.ticket row])
    (hengine : m'.state.engine = m.state.engine.finished l key) : m'.Faithful := by
  obtain ⟨⟨r, hasked⟩, ⟨y, hy, hloop⟩, -⟩ := hsane.orderly.due l key _ htask
  have hbusy := Engine.State.busy?_of_found hfound hready htask
  have hfinished := Engine.State.busy?_finished (Engine.State.lt_of_job? htask) key
  have hqueued := fun k => Engine.State.queued_finished hsane.orderly.sound hready htask (pullFrom? k)
  intro k x hx hfree
  rw [hengine] at hx
  obtain ⟨rows, done, hsourced, hplays⟩ := h k x hx hfree
  by_cases hi : i = k
  · -- the stream that the row comes from
    subst hi
    obtain rfl := Option.some.inj (hy.symm.trans hx)
    have hasks : m'.asks i = m.asks i := by
      rw [asks, hhistory, List.filterMap_append]
      simp [asks]
    have hmem : cookie.ticket ∈ m.asks i := mem_asks.mpr ⟨r, hasked⟩
    have hstands := hplays.rest
    rw [hloop, Engine.State.taken?_of_busy hbusy, if_pos rfl] at hstands
    obtain ⟨rfl, hleft⟩ := hstands
    have hfinished' := hfinished l
    rw [if_pos rfl] at hfinished'
    have hqueued' := hqueued i l
    rw [if_pos rfl] at hqueued'
    refine ⟨rows, done ++ [cookie.ticket], hsourced.mono hlater, ?_, ?_, ?_⟩
    · rw [hloop, hengine, Engine.State.taken?_of_idle hfinished', List.length_append]
      exact hleft
    · rw [hasks, hplays.waiting, hloop, hqueued', hengine]
      simp
    · rw [told_concat, ← hplays.told, hasks, owedTo, owedTo, Bridged.owed_append hhistory]
      simp [Observation.owes?, hmem]
  · -- another stream
    refine ⟨rows, done, hsourced.mono hlater, hplays.keep hhistory (by simp) ?_ ?_ ?_⟩
    · rw [hqueued k x.loop, hengine]
      split <;> simp [hi]
    · have hfinished' := hfinished x.loop
      rw [hengine]
      split at hfinished'
      · next hl =>
        rw [hl] at hfinished' ⊢
        rw [Engine.State.taken?_of_idle hfinished', Engine.State.taken?_of_busy hbusy, if_neg hi]
      · exact Engine.State.taken?_congr hfinished' k
    · intro o ho p howes hmem
      obtain rfl := List.mem_singleton.mp ho
      cases howes
      obtain ⟨r', hasked'⟩ := mem_asks.mp hmem
      have := hledger.ticket_unique hasked hasked' rfl rfl
      simp only [Observation.asked.injEq, Option.some.injEq, true_and] at this
      exact hi this.2

/-! ## Promotions -/

/-- Nobody has asked a stream that is not there. -/
theorem asks_eq_nil (hsane : m.Sane) (hk : m.state.engine.stream? k = none) :
    m.asks k = [] ∧ ∀ l, m.state.engine.queued (pullFrom? k) l = [] := by
  constructor
  · refine List.eq_nil_iff_forall_not_mem.mpr fun t ht => ?_
    obtain ⟨r, ho⟩ := mem_asks.mp ht
    obtain ⟨t', error, alive, hreported⟩ := (hsane.accounted.recorded _ ho).2 k rfl
    obtain ⟨i, operation, -, hstream⟩ := hsane.accounted.recorded _ hreported
    obtain ⟨x, hx, -⟩ := hstream k rfl
    rw [hk] at hx
    cases hx
  · intro l
    refine List.filterMap_eq_nil_iff.mpr fun key _ => ?_
    cases htask : m.state.engine.job? l key with
    | none => rfl
    | some t =>
      cases t with
      | pull i cookie =>
        obtain ⟨-, ⟨x, hx, -⟩, -⟩ := hsane.orderly.due l key _ htask
        have hi : ¬ i = k := by
          rintro rfl
          rw [hk] at hx
          cases hx
        simp [hi]
      | promote | close | park => rfl

/-- A promotion comes to its end, perhaps with a stream that nobody has pulled from yet. -/
theorem report (h : m.Faithful) (hsane : m.Sane) (hledger : m.Ledger) (hscripted : m.Scripted)
    (hlater : Later m m') {l key c o : Nat} {keys : List Nat} {response : Engine.Response}
    {p : Promotion} {stream : Option Nat} {error : Option EngineError} {alive : Bool}
    (hready : (m.state.engine.loop l).ready = key :: keys)
    (htask : m.state.engine.job? l key = some (.promote c o response .fresh p))
    (hsettled : m.state.engine.Settled l key c response stream error m'.state.engine)
    (hhistory : m'.history =
      m.history ++ [.reported p.result p.cookie.ticket stream error alive]) : m'.Faithful := by
  have haccepted := (hsane.orderly.due l key _ htask).1
  have hqueued : ∀ k l', m'.state.engine.queued (pullFrom? k) l' =
      m.state.engine.queued (pullFrom? k) l' := by
    intro k l'
    have := Engine.State.queued_finished hsane.orderly.sound hready htask (pullFrom? k) l'
    rw [Engine.State.queued_congr hsettled.workers, this]
    simp
  have htaken : ∀ k l', m'.state.engine.taken? k l' = m.state.engine.taken? k l' := by
    intro k l'
    have hfinished := Engine.State.taken?_finished hready htask (by simp) k l'
    rw [← hfinished]
    exact Engine.State.taken?_congr (Engine.State.busy?_of_worker (by
      rw [Engine.State.worker, hsettled.workers]
      rfl)) k
  have howes : ∀ k, ∀ o ∈ [Observation.reported p.result p.cookie.ticket stream error alive], ∀ q,
      o.owes? = some q → q.1 ∉ m.asks k := by
    intro k o ho q howes hmem
    obtain rfl := List.mem_singleton.mp ho
    obtain ⟨r, hasked⟩ := mem_asks.mp hmem
    have hq : q.1 = p.cookie.ticket := by cases alive <;> cases howes <;> rfl
    have := hledger.ticket_unique haccepted hasked rfl (by rw [hq]; rfl)
    cases this
  intro k x hx hfree
  rcases hsettled.stream? hx with hx | ⟨hk, rfl, rfl⟩
  · obtain ⟨rows, done, hsourced, hplays⟩ := h k x hx hfree
    exact ⟨rows, done, hsourced.mono hlater,
      hplays.keep hhistory (by simp) (hqueued k x.loop) (htaken k x.loop) (howes k)⟩
  · obtain ⟨hasks, hnone⟩ := asks_eq_nil hsane (k := k)
      (List.getElem?_eq_none (Nat.le_of_eq hk.symm))
    have hasks' : m'.asks k = [] := by
      rw [asks, hhistory, List.filterMap_append]
      simpa [asks] using hasks
    refine ⟨response.rows, [], ?_, ?_, ?_, ?_⟩
    · refine ⟨p.result, p.cookie.ticket, error, alive, l, c, o, response, by simp [hhistory],
        hlater.history.subset haccepted, hlater.response_at ?_, rfl⟩
      exact hscripted.tasks l key c o response .fresh p htask
    · rw [htaken]
      exact Engine.State.taken?_of_front hready htask (by simp) k ▸ rfl
    · rw [hasks', hqueued, hnone]
      rfl
    · simp [owedTo, hasks', told]

/-! ## Every move -/

theorem step (h : m.Faithful) (hsane : m.Sane) (hledger : m.Ledger) (hscripted : m.Scripted)
    (hrunning : m'.Running) (hstep : m.Step m') : m'.Faithful := by
  have hlater := hstep.later
  have hwas := hlater.running hrunning
  have hserves := hwas.serves hsane.orderly
  -- a ticket that is given now belongs to no pull so far
  have hfresh : ∀ k, m.state.host.issued ∉ m.asks k :=
    fun k ht => absurd (hsane.lt_of_mem_asks ht) (Nat.lt_irrefl _)
  have hsound := hsane.orderly.sound
  cases hstep with
  | note | grasp | attach | letGo | connector | tell | drop | reap =>
    exact h.quiet hlater rfl rfl rfl
  | respond _ =>
    exact h.keep hlater rfl (fun _ _ hx _ => hx) (by simp) (fun _ _ => rfl) (fun _ _ => rfl)
      (by simp [Observation.owes?])
  | create c =>
    exact h.keep hlater (List.append_nil _).symm (fun _ _ hx _ => hx) (by simp)
      (fun k l => Engine.State.queued_addLoop _ _ l)
      (fun k l => Engine.State.taken?_congr (Engine.State.busy?_addLoop _ l) k) (by simp)
  | refuse name hides =>
    exact h.keep hlater rfl (fun _ _ hx _ => hx) (by simp) (fun _ _ => rfl) (fun _ _ => rfl)
      (by simpa [Observation.owes?] using hfresh)
  | @accept e i c x request name hides response rest hx hrunning' hc hresponses =>
    obtain ⟨hi, hstop⟩ := hsane.orderly.takes hx hrunning'
    have hsound := hsane.orderly.sound.accepting (c := c) request rest
    refine h.keep hlater rfl (fun _ _ hx _ => hx) (by simp) (fun k l => ?_)
      (fun k l => Engine.State.taken?_congr (hsound.busy?_spawned hi hstop _ l) k)
      (by simp [Observation.owes?])
    refine (Engine.State.queued_spawned (s := m.state.engine.accepting c request rest) hi hstop
      hsound (pullFrom? k) _ l).trans ?_
    split
    · next hl =>
      rw [hl]
      exact List.append_nil _
    · rfl
  | askEarly htarget =>
    exact h.keep hlater rfl (fun _ _ hx _ => hx) (by simp) (fun _ _ => rfl) (fun _ _ => rfl)
      (by simpa [Observation.owes?] using hfresh)
  | @ask r i y name e htarget hy hstop =>
    exact h.ask hsane hlater (Host.register_ticket _ _ _) hy
      (hsane.accounted.anchored hsane.orderly htarget hy) hstop rfl rfl
  | askLate htarget hy hstop =>
    rw [(hserves _).2] at hstop
    cases hstop
  | @strikeOperation e r c o hcall =>
    have hwoken := Engine.State.woken_cancelOperation m.state.engine c o
    refine h.keep hlater rfl (fun k x hx _ => ?_) (by simp)
      (fun k l => Engine.State.queued_woken (skips_pullFrom? k) hwoken l)
      (fun k l => Engine.State.taken?_congr (hsound.busy?_woken hwoken l) k)
      (by simp [Observation.owes?])
    rwa [Engine.State.stream?, hwoken.streams] at hx
  | @strikeStream e r i hcall =>
    refine h.keep hlater rfl (fun k x hx hfree => ?_) (by simp) (fun _ _ => rfl) (fun _ _ => rfl)
      (by simp [Observation.owes?])
    rw [Engine.State.stream?_cancelStream] at hx
    split at hx
    · obtain ⟨y, -, rfl⟩ := Option.map_eq_some_iff.mp hx
      cases hfree
    · exact hx
  | @close i c x hx hrunning' hc =>
    have := hrunning i { x with state := .closingNetwork }
      (by simp only [having, getElem?_modify_const hx, if_true])
    cases this
  | look hmust =>
    exact h.keep hlater (List.append_nil _).symm (fun _ _ hx _ => hx) (by simp)
      (fun k l' => Engine.State.queued_looked _ (hserves l').1 (hserves l').2)
      (fun k l' => Engine.State.taken?_congr (hsound.busy?_looked hmust l') k) (by simp)
  | @check l key keys t cookie cancelled hready htask hchecks hfound =>
    have hjob : m.state.engine.job? l key = _ := congrArg (Option.map Engine.Task.untimed) htask
    exact h.keep hlater rfl (fun _ _ hx _ => hx) (by simp)
      (fun k l' => Engine.State.queued_of_sameQueues (Engine.State.sameQueues_checked _ _ _) _ l')
      (Engine.State.taken?_checked hready hjob hfound cancelled) (by simp [Observation.owes?])
  | draw hready htask hfound => exact h.draw hsane hlater hready htask hfound rfl rfl
  | sleep hready htask hcancelled =>
    exact h.keep hlater (List.append_nil _).symm (fun _ _ hx _ => hx) (by simp)
      (fun k l => Engine.State.queued_slept (skips_pullFrom? k) hready htask l)
      (Engine.State.taken?_slept hready (congrArg (Option.map Engine.Task.untimed) htask)
        (by simp [Engine.Task.untimed]) _) (by simp)
  | elapse harmed =>
    exact h.keep hlater (List.append_nil _).symm (fun _ _ hx _ => hx) (by simp)
      (fun k l => Engine.State.queued_elapse (skips_pullFrom? k) harmed l)
      (fun k l => Engine.State.taken?_congr (hsound.busy?_elapse harmed l) k) (by simp)
  | report hready htask hsettled htarget =>
    exact h.report hsane hledger hscripted hlater hready htask hsettled rfl
  | reportLost hready htask hsettled htarget =>
    exact h.report hsane hledger hscripted hlater hready htask hsettled rfl
  | answer hready htask hfound =>
    exact h.answer hsane hledger hlater hready htask hfound rfl rfl
  | shut hready htask hx hshuts =>
    have := hwas _ _ hx
    rw [hshuts.closing] at this
    cases this
  | @stray l key i keys hready htask =>
    refine h.keep hlater (List.append_nil _).symm (fun _ _ hx _ => hx) (by simp) (fun k l' => ?_)
      (Engine.State.taken?_finished hready htask (by simp)) (by simp)
    have := Engine.State.queued_finished hsane.orderly.sound hready htask (pullFrom? k) l'
    rw [this]
    simp [having]

end Faithful

/-! ## Results -/

/-- The pulls from a result that had a stream at that time, by ticket, in order. -/
def pulls (m : Moment) (r : Nat) : List Nat :=
  m.history.filterMap fun
    | .asked r' t (some _) => if r' = r then some t else none
    | _ => none

/-- What these pulls were told so far, by ticket, in order. -/
def deliveries (m : Moment) (r : Nat) : List (Nat × Outcome) :=
  m.settled.filter fun p => (m.pulls r).contains p.1

/-- The pulls from a result are those from its stream. -/
theorem Ledger.pulls_eq_asks (h : m.Ledger) (hsane : m.Sane) {r t : Nat}
    {error : Option EngineError} {alive : Bool}
    (hreported : .reported r t (some k) error alive ∈ m.history) : m.pulls r = m.asks k := by
  refine List.filterMap_congr fun o ho => ?_
  cases o with
  | asked r' t' stream =>
    cases stream with
    | none => rfl
    | some k' =>
      obtain ⟨t'', error', alive', hreported'⟩ := (hsane.accounted.recorded _ ho).2 k' rfl
      have hiff : r' = r ↔ k' = k := by
        constructor
        · rintro rfl
          obtain ⟨-, hk, -⟩ := h.reported_unique hsane hreported' hreported
          exact Option.some.inj hk
        · rintro rfl
          exact h.stream_unique hreported' hreported
      simp [hiff]
  | _ => rfl

/-- Without a stream there are no pulls but those that come too early. -/
theorem Sane.pulls_eq_nil (h : m.Sane) {r : Nat}
    (hnone : ∀ k t error alive, .reported r t (some k) error alive ∉ m.history) : m.pulls r = [] := by
  refine List.filterMap_eq_nil_iff.mpr fun o ho => ?_
  cases o with
  | asked r' t' stream =>
    cases stream with
    | none => rfl
    | some k' =>
      obtain ⟨t'', error', alive', hreported'⟩ := (h.accounted.recorded _ ho).2 k' rfl
      have : ¬ r' = r := by
        rintro rfl
        exact hnone _ _ _ _ hreported'
      simp [this]
  | _ => rfl

/-- A pull that comes too early is owed the news that there is no stream, and nothing else. -/
theorem Ledger.owed_early (h : m.Ledger) (hsane : m.Sane) {r t : Nat} {outcome : Outcome}
    (hasked : .asked r t none ∈ m.history) (howed : (t, outcome) ∈ m.owed) :
    outcome = .row none (some .resultNotStarted) := by
  obtain ⟨o, ho, howes⟩ := List.mem_filterMap.mp howed
  -- whatever else owes to a ticket was given another one
  have hother : ∀ {o' : Observation}, o' ∈ m.history → o'.ticket? = some t → o' = .asked r t none :=
    fun ho' ht => h.ticket_unique ho' hasked ht rfl
  cases o with
  | reported r' t' stream error alive =>
    obtain ⟨i, operation, haccepted, -⟩ := hsane.accounted.recorded _ ho
    obtain rfl : t' = t := by cases alive <;> cases howes <;> rfl
    cases hother haccepted rfl
  | answered t' row =>
    cases howes
    have hpull : t ∈ m.history.filterMap Observation.pull? :=
      h.pulls.subset (List.mem_append_right _ (List.mem_filterMap.mpr ⟨_, ho, rfl⟩))
    obtain ⟨o', ho', hpull⟩ := List.mem_filterMap.mp hpull
    cases o' with
    | asked r' t' stream =>
      cases stream with
      | none => cases hpull
      | some k =>
        cases hpull
        cases hother ho' rfl
    | _ => cases hpull
  | asked r' t' stream =>
    cases stream with
    | none =>
      cases howes
      rfl
    | some k => cases howes
  | refused t' =>
    cases howes
    cases hother ho rfl
  | pushed | accepted | cancelled | checked => cases howes

/-- The rows of a stream are those of the response in the place of its query. -/
theorem Sourced.rows_eq (h : m.Sourced k rows) (hledger : m.Ledger) {c n i r t t' : Nat}
    {error : Option EngineError} {alive : Bool} {response : Engine.Response}
    (hreported : .reported r t (some k) error alive ∈ m.history)
    (haccepted : .accepted i (.memory c n) r t' ∈ m.history)
    (hresponse : (m.responses c)[n]? = some response) : rows = response.rows := by
  obtain ⟨r', t'', error', alive', i', c', o, response', hreported', haccepted', hresponse', rfl⟩ := h
  obtain rfl := hledger.stream_unique hreported hreported'
  obtain ⟨-, hoperation, -⟩ := hledger.accepted_unique haccepted haccepted'
  cases hoperation
  rw [Option.some.inj (hresponse.symm.trans hresponse')]

/-- The deliveries to the pulls of a stream that plays its script. -/
theorem Plays.deliveries (h : m.Plays k x rows done) (hsane : m.Sane) {r : Nat}
    (hpulls : m.pulls r = m.asks k) :
    m.deliveries r <+: Session.told rows (m.pulls r) ∧
      (m.state.host.queue = [] → (m.state.engine.loop x.loop).ready = [] →
        m.deliveries r = Session.told rows (m.pulls r)) := by
  have htoldPre : m.deliveries r <+: Session.told rows done := by
    rw [← h.told, owedTo, Moment.deliveries, hpulls, ← hsane.bridged.served.order]
    exact (List.prefix_append _ _).filter _
  refine ⟨htoldPre.trans ?_, fun hqueue hready => ?_⟩
  · rw [hpulls, h.waiting]
    exact told_prefix _ _ _
  · have hdone : m.asks k = done := by
      rw [h.waiting, Engine.State.queued, hready]
      simp
    rw [Moment.deliveries, hsane.bridged.settled_eq_owed hqueue, hpulls]
    exact h.told.trans (by rw [hdone])

/-- The deliveries to the pulls of a result that was not cancelled. -/
theorem Faithful.deliveries (h : m.Faithful) (hsane : m.Sane) (hledger : m.Ledger)
    (hdeliberate : m.Deliberate) {c n i r t : Nat} {response : Engine.Response}
    (haccepted : .accepted i (.memory c n) r t ∈ m.history)
    (hresponse : (m.responses c)[n]? = some response)
    (hkept : ∀ target, .cancelled r target ∉ m.history) :
    m.deliveries r <+: Session.told response.rows (m.pulls r) ∧
      (m.state.host.queue = [] → (m.state.engine.loop i).ready = [] →
        m.deliveries r = Session.told response.rows (m.pulls r)) := by
  by_cases hstream : ∃ k t error alive, .reported r t (some k) error alive ∈ m.history
  · obtain ⟨k, t', error, alive, hreported⟩ := hstream
    obtain ⟨i', operation, haccepted', hloop⟩ := hsane.accounted.recorded _ hreported
    obtain ⟨x, hx, hl⟩ := hloop k rfl
    obtain ⟨rfl, -⟩ := hledger.accepted_unique haccepted haccepted'
    obtain ⟨rows, done, hsourced, hplays⟩ :=
      h k x hx (hdeliberate.stream_free hsane hledger hkept hreported hx)
    obtain rfl := hsourced.rows_eq hledger hreported haccepted hresponse
    rw [← hl]
    exact hplays.deliveries hsane (hledger.pulls_eq_asks hsane hreported)
  · have hpulls := hsane.pulls_eq_nil fun k t' error alive ho => hstream ⟨k, t', error, alive, ho⟩
    have hnone : m.deliveries r = [] := by simp [Moment.deliveries, hpulls]
    rw [hnone, hpulls]
    exact ⟨List.prefix_refl _, fun _ _ => rfl⟩

end Moment

open Moment

theorem scripted_run (events : List Event) : (run events).Scripted :=
  run_induction Scripted.start (fun _ _ hsane hstep h => h.step hsane hstep) events

/-- While no connection is shut down, outcomes and rows are those of the script. -/
theorem faithful_run (events : List Event) (hrunning : (run events).Running) :
    (run events).Deliberate ∧ (run events).Faithful := by
  have h : (run events).Scripted ∧
      ((run events).Running → (run events).Deliberate ∧ (run events).Faithful) := by
    refine ledger_induction (P := fun m => m.Scripted ∧ (m.Running → m.Deliberate ∧ m.Faithful))
      ⟨Scripted.start, fun _ => ⟨Deliberate.start, Faithful.start⟩⟩ ?_ events
    intro m m' hsane hledger hstep h
    refine ⟨h.1.step hsane hstep, fun hrunning => ?_⟩
    obtain ⟨hdeliberate, hfaithful⟩ := h.2 (hstep.later.running hrunning)
    exact ⟨hdeliberate.step hsane hledger h.1 hrunning hstep,
      hfaithful.step hsane hledger h.1 hrunning hstep⟩
  exact h.2 hrunning

/-- While no connection is shut down, every query of a connector is answered from the response that
was queued in its place. If its result is not cancelled, its promotion ends as the response says;
the pulls from its stream are told the rows of the response in order, and then the end again and
again, and none of them is left out once the loop and the host have done their work; a pull that
comes too early is told so and takes no row; and nothing at all is told for an end only. What is
told of a row is what the host is to see of it. -/
theorem rows_delivered_in_order (events : List Event)
    (hcalm : ∀ event ∈ events, event.shuts = false) (c n r : Nat)
    (hr : ((run events).queries c)[n]? = some r)
    (hkept : ∀ target, .cancelled r target ∉ (run events).history) :
    (∃ response i t, ((run events).responses c)[n]? = some response ∧
      .accepted i (.memory c n) r t ∈ (run events).history ∧
      (∀ t stream error alive, .reported r t stream error alive ∈ (run events).history →
        error = response.error ∧ (stream.isSome = true ↔ response.error = none)) ∧
      (run events).deliveries r <+: told response.rows ((run events).pulls r) ∧
      ((run events).state.host.queue = [] → ((run events).state.engine.loop i).ready = [] →
        (run events).deliveries r = told response.rows ((run events).pulls r)) ∧
      ∀ k t, ((run events).deliveries r)[k]? = some (t, .row none none) →
        response.rows.getD k .done = .done) ∧
    (∀ t, .asked r t none ∈ (run events).history →
      (∀ outcome, (t, outcome) ∈ (run events).settled →
        outcome = .row none (some .resultNotStarted)) ∧
      ((run events).state.host.queue = [] →
        (t, .row none (some .resultNotStarted)) ∈ (run events).settled)) ∧
    ∀ row content error, Row.marshal row = (content, error) ↔ row.Shown content error := by
  have hsane := sane_run events
  have hledger := ledger_run events
  have hscripted := scripted_run events
  obtain ⟨hdeliberate, hfaithful⟩ := faithful_run events (running_run hcalm)
  refine ⟨?_, fun t hasked => ⟨fun outcome ho => ?_, fun hqueue => ?_⟩, fun row content error => ?_⟩
  · obtain ⟨i, t, haccepted⟩ := hledger.accepted_at hr
    obtain ⟨⟨c', o, x, hoperation, -, -, ho⟩, -⟩ := hsane.accounted.recorded _ haccepted
    cases hoperation
    obtain ⟨response, hresponse⟩ := hscripted.exists_response ho
    obtain ⟨htoldPre, hall⟩ :=
      hfaithful.deliveries hsane hledger hdeliberate haccepted hresponse hkept
    refine ⟨response, i, t, hresponse, haccepted, fun t' stream error alive hreported => ?_, htoldPre,
      hall, fun k t' hk => ?_⟩
    · exact hdeliberate.outcome hledger haccepted hresponse hkept hreported
    · obtain ⟨more, htold⟩ := htoldPre
      have hk' : (told response.rows ((run events).pulls r))[k]? = some (t', .row none none) := by
        rw [← htold, List.getElem?_append_left (List.getElem?_eq_some_iff.mp hk).1]
        exact hk
      exact done_of_told hk'
  · have howed : (t, outcome) ∈ (run events).owed := by
      rw [← hsane.bridged.served.order]
      exact List.mem_append_left _ ho
    exact hledger.owed_early hsane hasked howed
  · rw [hsane.bridged.settled_eq_owed hqueue]
    exact List.mem_filterMap.mpr ⟨_, hasked, rfl⟩
  · exact Row.marshal_eq_iff

/-- Two connections share a connector. The query on the first is promoted late, so a pull comes too
early; its rows are a text, bytes that are no text, and an end. The query on the second gets the
other response. Both are pulled from beyond their ends. -/
def scriptedRun : List Event :=
  [.act .connector,
    .act (.respond 0
      { rows := [.content "x".toUTF8 none, .content ⟨#[255]⟩ none, .done], delay := some 5 }),
    .act (.respond 0 { rows := [.failed .canceled] }),
    .act (.create 0 { connection := "mem" }), .act (.create 0 { connection := "mem" }),
    .act (.query 0 { statement := "a" } "slow"), .resume,
    .act (.query 1 { statement := "b" } "fast"), .resume,
    .act (.next 0 "early"), .turn 0, .turn 0, .turn 1, .turn 1,
    .act (.next 1 "first"), .act (.next 1 "second"), .elapse 0 0, .turn 0, .turn 0] ++
  List.replicate 4 (.act (.next 0 "row")) ++ List.replicate 6 (.turn 1) ++
  List.replicate 12 (.turn 0) ++ List.replicate 9 (.act .dispatch)

/-- In that run the four late pulls from the first result were told its rows and the end twice, and
the early one that there is no stream. -/
theorem rows_delivered_in_scriptedRun :
    (∃ response, ((run scriptedRun).responses 0)[0]? = some response ∧
      (run scriptedRun).pulls 0 = [5, 6, 7, 8] ∧
      (run scriptedRun).deliveries 0 = told response.rows [5, 6, 7, 8]) ∧
    (2, .row none (some .resultNotStarted)) ∈ (run scriptedRun).settled := by
  have hkept : (run scriptedRun).history.all fun
      | .cancelled .. => false
      | _ => true := by decide +kernel
  have hqueue : (run scriptedRun).state.host.queue = [] :=
    List.eq_nil_of_length_eq_zero (by decide +kernel)
  have hpulls : (run scriptedRun).pulls 0 = [5, 6, 7, 8] := by decide +kernel
  obtain ⟨⟨response, i, t, hresponse, haccepted, -, -, hall, -⟩, hearly, -⟩ :=
    rows_delivered_in_order scriptedRun (by decide) 0 0 0 (by decide +kernel)
      fun target ho => by simpa using List.all_eq_true.mp hkept _ ho
  obtain ⟨rfl, -⟩ := (ledger_run scriptedRun).accepted_unique haccepted
    (List.mem_of_getElem? (i := 2) rfl)
  refine ⟨⟨response, hresponse, hpulls, ?_⟩,
    (hearly 2 (List.mem_of_getElem? (i := 4) rfl)).2 hqueue⟩
  rw [← hpulls]
  exact hall hqueue (by decide +kernel)

end HostBridge.Session
