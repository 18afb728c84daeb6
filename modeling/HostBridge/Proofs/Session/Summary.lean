import HostBridge.Proofs.Engine.Output
import HostBridge.Proofs.Metadata
import HostBridge.Proofs.Session.Cancellation
import HostBridge.Proofs.Session.Employed
import HostBridge.Proofs.Session.Reported
import HostBridge.Proofs.Session.Rows

/-!
# Metadata comes with the end of the rows

A stream publishes the metadata of its response when a pull first meets the end of its rows, unless
that pull saw that the stream was cancelled: then it meets an end as well, but publishes nothing any
more. So whether an executor that is complete has its metadata depends on what came first, the look of
a pull that met the end or the cancellation. The host has no part in this order: the stream decides on
its loop, while the executor becomes complete only when the host is told of an end.

The metadata can be seen as soon as the pull has met the end, which is a moment before the pull is
answered.
-/

namespace HostBridge

namespace Session

open Bridge (Cookie)

namespace Moment

variable {m m' : Moment} {k r t : Nat} {x : Engine.Stream}

/-! ## Ends that count -/

/-- A pull has met the end of its stream: it was answered with the end, or is just about to be. -/
def AtEnd (m : Moment) (t : Nat) : Prop :=
  .answered t .done ∈ m.history ∨ m.UnderWay t (.row .done)

/-- A pull of a result from its stream has met the end, and when it looked nobody had cancelled the
stream yet. -/
def Concluded (m : Moment) (r k : Nat) : Prop :=
  ∃ t before after, .asked r t (some k) ∈ m.history ∧
    m.history = before ++ .checked t false :: after ∧
    (∀ r', .cancelled r' (.active k) ∉ before) ∧ m.AtEnd t

/-- A pull from a stream has met the end without seeing a cancellation. -/
def Ended (m : Moment) (k : Nat) : Prop :=
  ∃ r t, .asked r t (some k) ∈ m.history ∧ .checked t false ∈ m.history ∧ m.AtEnd t

theorem AtEnd.step (h : m.AtEnd t) (hsane : m.Sane) (hstep : m.Step m') : m'.AtEnd t := by
  rcases h with hanswered | ⟨l, u, cookie, hbusy, hcookie, rfl⟩
  · exact Or.inl (hstep.later.history.subset hanswered)
  · cases hstep.proceeds hsane l with
    | rests hsame => exact Or.inr ⟨l, u, cookie, hsame.trans hbusy, hcookie, rfl⟩
    | looks hnone => cases hnone.symm.trans hbusy
    | draws hdraws => cases hdraws.before.symm.trans hbusy
    | reports hold =>
      cases hold.symm.trans hbusy
      exact (hsane.orderly.sound.finds_of_busy? hold).elim
    | answers hold _ hhistory =>
      cases hold.symm.trans hbusy
      obtain rfl := Option.some.inj hcookie
      exact Or.inl (by simp [hhistory])

/-- A pull that has met the end had met it before, or has just taken it. -/
theorem AtEnd.of_step (h : m'.AtEnd t) (hsane : m.Sane) (hstep : m.Step m') :
    m.AtEnd t ∨ ∃ l i cookie cancelled, m.Draws m' l i cookie cancelled ∧ cookie.ticket = t ∧
      m.state.engine.answer i cancelled = .done := by
  rcases h with hanswered | ⟨l, u, cookie, hbusy, hcookie, rfl⟩
  · rcases hstep.mem_history hanswered with
      hanswered | ⟨l, key, keys, i, cookie, hready, hjob, rfl, hfound⟩ | ⟨-, hrow⟩
    · exact Or.inl (Or.inl hanswered)
    · have hbusy := Engine.State.busy?_of_found hfound hready hjob
      exact Or.inl (Or.inr ⟨l, _, cookie, hbusy, rfl, rfl⟩)
    · cases hrow
  · cases hstep.proceeds hsane l with
    | rests hsame => exact Or.inl (Or.inr ⟨l, u, cookie, hsame ▸ hbusy, hcookie, rfl⟩)
    | looks _ hnew => cases hnew.symm.trans hbusy
    | @draws i cookie' cancelled hdraws =>
      obtain ⟨rfl, hrow⟩ := Prod.mk.inj (Option.some.inj (hdraws.after.symm.trans hbusy))
      obtain rfl := Option.some.inj hcookie
      exact Or.inr ⟨l, i, cookie', cancelled, hdraws, rfl, by simpa using hrow⟩
    | reports _ hnone | answers _ hnone => cases hnone.symm.trans hbusy

/-- A pull that has met the end has looked. -/
theorem AtEnd.checked (h : m.AtEnd t) (hlooks : m.Looks) :
    ∃ cancelled, .checked t cancelled ∈ m.history := by
  rcases h with hanswered | ⟨l, u, cookie, hbusy, hcookie, rfl⟩
  · rcases hlooks.explained _ hanswered with hrow | ⟨cancelled, hchecked, -⟩
    · cases hrow
    · exact ⟨cancelled, hchecked⟩
  · obtain ⟨cookie', cancelled, hcookie', hchecked, -⟩ := hlooks.looked l u _ hbusy
    obtain rfl := Option.some.inj (hcookie.symm.trans hcookie')
    exact ⟨cancelled, hchecked⟩

/-- A pull that takes its row was asked of the stream, and has looked. -/
theorem Draws.known {l : Nat} {cookie : Cookie} {cancelled : Bool}
    (h : m.Draws m' l k cookie cancelled) (hsane : m.Sane) (hlooks : m.Looks) :
    (∃ r, .asked r cookie.ticket (some k) ∈ m.history) ∧
      (∃ x, m.state.engine.stream? k = some x ∧ x.loop = l) ∧
      .checked cookie.ticket cancelled ∈ m.history := by
  obtain ⟨-, key, rest, -, hjob⟩ := Engine.State.busy?_eq_some.mp h.before
  obtain ⟨hasked, hx, -⟩ := hsane.orderly.due l key _ hjob
  obtain ⟨cookie', seen, hcookie, hchecked, hflag⟩ := hlooks.looked l _ _ h.before
  obtain rfl := Option.some.inj hcookie
  obtain rfl : cancelled = seen := by simpa using hflag
  exact ⟨hasked, hx, hchecked⟩

/-- At most one pull takes a row from a stream in one move. -/
theorem Draws.flag_unique {l l' : Nat} {cookie cookie' : Cookie} {b b' : Bool}
    (h : m.Draws m' l k cookie b) (h' : m.Draws m' l' k cookie' b') (hsane : m.Sane)
    (hlooks : m.Looks) : b = b' := by
  obtain ⟨-, ⟨x, hx, rfl⟩, -⟩ := h.known hsane hlooks
  obtain ⟨-, ⟨x', hx', rfl⟩, -⟩ := h'.known hsane hlooks
  obtain rfl := Option.some.inj (hx.symm.trans hx')
  have hsame := h.before.symm.trans h'.before
  simp only [Option.some.injEq, Prod.mk.injEq, Finding.flag.injEq] at hsame
  exact hsame.2

/-- A stream has come to its end when it had, or when a pull that saw no cancellation has just taken
the end. -/
theorem ended_iff (hsane : m.Sane) (hledger : m.Ledger) (hlooks : m.Looks) (hlooks' : m'.Looks)
    (hstep : m.Step m') : m'.Ended k ↔ m.Ended k ∨
      ∃ l cookie, m.Draws m' l k cookie false ∧ m.state.engine.answer k false = .done := by
  have hsubset := hstep.later.history.subset
  constructor
  · rintro ⟨r, t, hasked, hchecked, hend⟩
    rcases hend.of_step hsane hstep with hend | ⟨l, i, cookie, cancelled, hdraws, rfl, hdone⟩
    · obtain ⟨cancelled, hold⟩ := hend.checked hlooks
      obtain rfl := hlooks'.checked_unique (hsubset hold) hchecked
      have ht : t < m.callbacks.length := hsane.accounted.recorded _ hold
      exact Or.inl ⟨r, t, hstep.mem_history_of_ticket hsane ht hasked rfl, hold, hend⟩
    · obtain ⟨⟨r', hasked'⟩, -, hold⟩ := hdraws.known hsane hlooks
      obtain rfl := hlooks'.checked_unique (hsubset hold) hchecked
      have ht : cookie.ticket < m.callbacks.length := hsane.accounted.recorded _ hold
      have hsame := hledger.ticket_unique (hstep.mem_history_of_ticket hsane ht hasked rfl) hasked'
        rfl rfl
      simp only [Observation.asked.injEq, Option.some.injEq, true_and] at hsame
      obtain ⟨-, rfl⟩ := hsame
      exact Or.inr ⟨l, cookie, hdraws, hdone⟩
  · rintro (⟨r, t, hasked, hchecked, hend⟩ | ⟨l, cookie, hdraws, hdone⟩)
    · exact ⟨r, t, hsubset hasked, hsubset hchecked, hend.step hsane hstep⟩
    · obtain ⟨⟨r, hasked⟩, -, hchecked⟩ := hdraws.known hsane hlooks
      exact ⟨r, cookie.ticket, hsubset hasked, hsubset hchecked,
        Or.inr ⟨l, _, cookie, hdone ▸ hdraws.after, rfl, rfl⟩⟩

/-- A pull that saw no cancellation looked before the stream was cancelled. -/
theorem Ended.concluded (h : m.Ended k) (hsane : m.Sane) (hledger : m.Ledger) (hheeds : m.Heeds)
    {error : Option EngineError} {alive : Bool}
    (hreported : .reported r t (some k) error alive ∈ m.history) : m.Concluded r k := by
  obtain ⟨r', t', hasked, hchecked, hend⟩ := h
  obtain ⟨t'', error', alive', hreported'⟩ := (hsane.accounted.recorded _ hasked).2 k rfl
  obtain rfl := hledger.stream_unique hreported hreported'
  obtain ⟨before, after, hsplit⟩ := List.append_of_mem hchecked
  refine ⟨t', before, after, hasked, hsplit, fun r' hcancelled => ?_, hend⟩
  have hmem : .cancelled r' (.active k) ∈ m.history := by
    rw [hsplit]
    exact List.mem_append_left _ hcancelled
  obtain ⟨⟨t₂, error₂, alive₂, hreported₂⟩, -⟩ := hsane.accounted.recorded _ hmem
  obtain rfl := hledger.stream_unique hreported hreported₂
  have hbefore : [.cancelled r (.active k), .checked t' false].Sublist m.history := by
    rw [hsplit]
    exact (List.singleton_sublist.mpr hcancelled).append
      (List.singleton_sublist.mpr List.mem_cons_self)
  cases hheeds r (.active k) t' false hbefore (Or.inr ⟨k, some k, rfl, hasked⟩)

/-! ## All streams -/

/-- A stream was made from the response in the place of its query. -/
def Supplied (m : Moment) (k : Nat) (response : Engine.Response) : Prop :=
  ∃ r t error alive i c o, .reported r t (some k) error alive ∈ m.history ∧
    .accepted i (.memory c o) r t ∈ m.history ∧ (m.responses c)[o]? = some response

theorem Supplied.mono {response : Engine.Response} (h : m.Supplied k response)
    (hlater : Later m m') : m'.Supplied k response := by
  obtain ⟨r, t, error, alive, i, c, o, hreported, haccepted, hresponse⟩ := h
  exact ⟨r, t, error, alive, i, c, o, hlater.history.subset hreported,
    hlater.history.subset haccepted, hlater.response_at hresponse⟩

/-- Streams are cancelled with their results only, and show their metadata as they should. -/
structure Summarised (m : Moment) : Prop where
  /-- A stream is cancelled only with a result. -/
  flags : ∀ k x, m.state.engine.stream? k = some x → x.cancelled = true →
    ∃ r, .cancelled r (.active k) ∈ m.history
  /-- A pull sees a cancellation only if there was one. -/
  seen : ∀ r t k, .checked t true ∈ m.history → .asked r t (some k) ∈ m.history →
    ∃ r', .cancelled r' (.active k) ∈ m.history
  /-- A stream shows its metadata once a pull that saw no cancellation has met the end. -/
  shows : ∀ k x, m.state.engine.stream? k = some x → ∃ response, m.Supplied k response ∧
    x.Shows response.metadata (m.Ended k)

namespace Summarised

theorem start : ({} : Moment).Summarised :=
  ⟨by simp [Engine.State.stream?], by simp, by simp [Engine.State.stream?]⟩

theorem seen_step (h : m.Summarised) (hsane : m.Sane) (hledger : m.Ledger) (hstep : m.Step m')
    (hchecked : .checked t true ∈ m'.history) (hasked : .asked r t (some k) ∈ m'.history) :
    ∃ r', .cancelled r' (.active k) ∈ m'.history := by
  have hsubset := hstep.later.history.subset
  rcases hstep.mem_history hchecked with hold | ⟨l, key, task, cookie, htask, hcookie, rfl, hchecks⟩
  · have ht : t < m.callbacks.length := hsane.accounted.recorded _ hold
    obtain ⟨r', ho⟩ := h.seen r t k hold (hstep.mem_history_of_ticket hsane ht hasked rfl)
    exact ⟨r', hsubset ho⟩
  · have hjob : m.state.engine.job? l key = _ := congrArg (Option.map Engine.Task.untimed) htask
    have hdue := hsane.orderly.due l key _ hjob
    have ht := hdue.ticket_lt ((cookie?_untimed task).trans hcookie)
    have hasked' := hstep.mem_history_of_ticket hsane ht hasked rfl
    generalize hflag : true = flag at hchecks
    cases hchecks with
    | promote =>
      obtain rfl := Option.some.inj hcookie
      cases hledger.ticket_unique hdue.1 hasked' rfl rfl
    | @pull i cookie' =>
      obtain rfl := Option.some.inj hcookie
      obtain ⟨⟨r', hpull⟩, ⟨x, hx, -⟩, -⟩ := hdue
      have hsame := hledger.ticket_unique hpull hasked' rfl rfl
      simp only [Observation.asked.injEq, Option.some.injEq, true_and] at hsame
      obtain ⟨-, rfl⟩ := hsame
      simp only [Engine.State.isStreamCancelled, hx, Option.map_some, Option.getD_some] at hflag
      obtain ⟨r', ho⟩ := h.flags i x hx hflag.symm
      exact ⟨r', hsubset ho⟩

/-- A pull takes its row from the stream. -/
theorem draw (h : m.Summarised) (hsane : m.Sane) (hledger : m.Ledger) (hlooks : m.Looks)
    (hlooks' : m'.Looks) (hstep : m.Step m') {l : Nat} {cookie : Cookie} {cancelled : Bool}
    (hdraws : m.Draws m' l k cookie cancelled) (hx : m'.state.engine.stream? k = some x) :
    ∃ response, m'.Supplied k response ∧ x.Shows response.metadata (m'.Ended k) := by
  obtain ⟨-, ⟨y, hy, -⟩, -⟩ := hdraws.known hsane hlooks
  have hengine : m'.state.engine = m.state.engine.drawn l k cancelled := by rw [hdraws.eq]; rfl
  rw [hengine, Engine.State.stream?_drawn, if_pos rfl, hy, Option.map_some] at hx
  obtain rfl := Option.some.inj hx
  have hanswer : ∀ b, m.state.engine.answer k b = (y.serve b).1 := fun b => by
    simp [Engine.State.answer, hy]
  obtain ⟨response, hsupplied, hshows⟩ := h.shows k y hy
  refine ⟨response, hsupplied.mono hstep.later, (hshows.serve cancelled).congr rfl rfl ?_⟩
  rw [ended_iff hsane hledger hlooks hlooks' hstep]
  refine or_congr_right ⟨?_, ?_⟩
  · rintro ⟨l', cookie', hdraws', hdone⟩
    obtain rfl := hdraws.flag_unique hdraws' hsane hlooks
    exact ⟨rfl, hanswer _ ▸ hdone⟩
  · rintro ⟨rfl, hdone⟩
    exact ⟨l, cookie, hdraws, (hanswer _).trans hdone⟩

/-- Without that a stream that was there shows what it has shown. -/
theorem keep (h : m.Summarised) (hlater : Later m m') (hended : m'.Ended k ↔ m.Ended k)
    {x' : Engine.Stream} (hx : m.state.engine.stream? k = some x)
    (hunpublished : x'.unpublished = x.unpublished) (hmetadata : x'.metadata = x.metadata) :
    ∃ response, m'.Supplied k response ∧ x'.Shows response.metadata (m'.Ended k) := by
  obtain ⟨response, hsupplied, hshows⟩ := h.shows k x hx
  exact ⟨response, hsupplied.mono hlater, hshows.congr hunpublished hmetadata hended⟩

/-- A promotion comes to its end, perhaps with a new stream. -/
theorem report (h : m.Summarised) (hsane : m.Sane) (hscripted : m.Scripted) (hlater : Later m m')
    (hended : m'.Ended k ↔ m.Ended k) {l key c o : Nat} {response : Engine.Response} {p : Promotion}
    {stream : Option Nat} {error : Option EngineError} {alive : Bool}
    (htask : m.state.engine.job? l key = some (.promote c o response .fresh p))
    (hsettled : m.state.engine.Settled l key c response stream error m'.state.engine)
    (hhistory : m'.history =
      m.history ++ [.reported p.result p.cookie.ticket stream error alive])
    {x' : Engine.Stream} (hx' : m'.state.engine.stream? k = some x') :
    ∃ response, m'.Supplied k response ∧ x'.Shows response.metadata (m'.Ended k) := by
  rcases hsettled.stream? hx' with hx | ⟨hk, rfl, rfl⟩
  · exact h.keep hlater hended hx rfl rfl
  · have haccepted := (hsane.orderly.due l key _ htask).1
    refine ⟨response, ?_, Or.inr ⟨?_, rfl, rfl⟩⟩
    · refine ⟨p.result, p.cookie.ticket, error, alive, l, c, o, by simp [hhistory],
        hlater.history.subset haccepted, hlater.response_at ?_⟩
      exact hscripted.tasks l key c o response .fresh p htask
    · -- nobody has asked a stream that was not there
      rw [hended]
      rintro ⟨r, t, hasked, -⟩
      have hnone := (Faithful.asks_eq_nil hsane (k := k)
        (List.getElem?_eq_none (Nat.le_of_eq hk.symm))).1
      have hmem : t ∈ m.asks k := mem_asks.mpr ⟨r, hasked⟩
      rw [hnone] at hmem
      cases hmem

/-- Nobody takes a row from the stream. -/
theorem rest (h : m.Summarised) (hsane : m.Sane) (hscripted : m.Scripted) (hstep : m.Step m')
    (hended : m'.Ended k ↔ m.Ended k)
    (hdraws : ∀ l cookie cancelled, ¬ m.Draws m' l k cookie cancelled)
    {x' : Engine.Stream} (hx' : m'.state.engine.stream? k = some x') :
    ∃ response, m'.Supplied k response ∧ x'.Shows response.metadata (m'.Ended k) := by
  have hlater := hstep.later
  cases hstep with
  | note | grasp | attach | letGo | connector | create | tell | drop | look | sleep | check | elapse
  | shut | stray | reap | respond | refuse | accept | askEarly | ask | askLate | answer =>
    exact h.keep hlater hended hx' rfl rfl
  | @strikeOperation e r c o hcall =>
    have hwoken := Engine.State.woken_cancelOperation m.state.engine c o
    have hx : m.state.engine.stream? k = some x' := by
      rw [← hx', Engine.State.stream?, ← hwoken.streams]
      rfl
    exact h.keep hlater hended hx rfl rfl
  | @close i c z hz hrunning hc =>
    have hwoken := Engine.State.woken_closing m.state.engine c
    have hx : m.state.engine.stream? k = some x' := by
      rw [← hx', Engine.State.stream?, ← hwoken.streams]
      rfl
    exact h.keep hlater hended hx rfl rfl
  | @strikeStream e r i hcall =>
    rw [Engine.State.stream?_cancelStream] at hx'
    split at hx'
    · next hk =>
      subst hk
      obtain ⟨y, hy, rfl⟩ := Option.map_eq_some_iff.mp hx'
      exact h.keep hlater hended hy rfl rfl
    · exact h.keep hlater hended hx' rfl rfl
  | @draw l key i keys cookie cancelled hready htask hfound =>
    have hbusy := Engine.State.busy?_drawn (Engine.State.lt_of_job? htask) hready htask i cancelled l
    rw [if_pos rfl] at hbusy
    have hk : k ≠ i := by
      rintro rfl
      exact hdraws l cookie cancelled ⟨Engine.State.busy?_of_found hfound hready htask, hbusy, rfl⟩
    simp only [having, Engine.State.stream?_drawn, if_neg hk] at hx'
    exact h.keep hlater hended hx' rfl rfl
  | report hready htask hsettled htarget =>
    exact h.report hsane hscripted hlater hended htask hsettled rfl hx'
  | reportLost hready htask hsettled htarget =>
    exact h.report hsane hscripted hlater hended htask hsettled rfl hx'

theorem step (h : m.Summarised) (hsane : m.Sane) (hledger : m.Ledger) (hscripted : m.Scripted)
    (hlooks : m.Looks) (hlooks' : m'.Looks) (hstep : m.Step m') : m'.Summarised := by
  refine ⟨fun k x hx hflag => ?_, fun r t k => h.seen_step hsane hledger hstep, fun k x' hx' => ?_⟩
  · rcases hstep.streamFlag hx hflag with ⟨y, hy, hflag⟩ | hnew
    · obtain ⟨r, ho⟩ := h.flags k y hy hflag
      exact ⟨r, hstep.later.history.subset ho⟩
    · exact hnew
  · by_cases hdraws : ∃ l cookie cancelled, m.Draws m' l k cookie cancelled
    · obtain ⟨l, cookie, cancelled, hdraws⟩ := hdraws
      exact h.draw hsane hledger hlooks hlooks' hstep hdraws hx'
    · refine h.rest hsane hscripted hstep ?_ (fun l cookie b hd => hdraws ⟨l, cookie, b, hd⟩) hx'
      rw [ended_iff hsane hledger hlooks hlooks' hstep, or_iff_left]
      rintro ⟨l, cookie, hd, -⟩
      exact hdraws ⟨l, cookie, false, hd⟩

end Summarised

/-! ## Executors -/

/-- The metadata of an executor is what the stream of its result shows, with its durations cut. -/
theorem executorMetadata_eq {e : Nat} (hr : m.executor? e = some r)
    (htarget : m.state.target? r = some (.active k)) (hx : m.state.engine.stream? k = some x) :
    m.state.executorMetadata e = match x.metadata with
      | none => .error (.invalidArgument .metadataUnavailable)
      | some metadata => .ok metadata.cut := by
  have hmetadata : m.state.metadata r = x.metadata.map Metadata.toJson := by
    simp [State.metadata, htarget, Target.stream?, hx]
  have hr' : m.state.executors[e]?.bind Executor.result = some r := hr
  rw [State.executorMetadata, hr', Option.bind_some, hmetadata]
  cases x.metadata with
  | none => rfl
  | some metadata =>
    rw [Option.map_some]
    simp only [Metadata.decode_toJson]
    rfl

/-- An executor has metadata only if the stream of its result shows it. -/
theorem of_executorMetadata_ok {e : Nat} {metadata : Metadata}
    (h : m.state.executorMetadata e = .ok metadata) :
    ∃ r k x, m.executor? e = some r ∧ m.state.target? r = some (.active k) ∧
      m.state.engine.stream? k = some x ∧ x.metadata.isSome = true := by
  unfold State.executorMetadata at h
  split at h
  · cases h
  · next v hv =>
    obtain ⟨r, hr, hmetadata⟩ := Option.bind_eq_some_iff.mp hv
    obtain ⟨k, hk, hshown⟩ := Option.bind_eq_some_iff.mp hmetadata
    obtain ⟨target, htarget, hactive⟩ := Option.bind_eq_some_iff.mp hk
    obtain ⟨w, hw, -⟩ := Option.map_eq_some_iff.mp hshown
    obtain ⟨x, hx, hx'⟩ := Option.bind_eq_some_iff.mp hw
    cases target with
    | empty | pending => cases hactive
    | active k' =>
      obtain rfl := Option.some.inj hactive
      exact ⟨r, k', x, hr, htarget, hx, by rw [hx']; rfl⟩

end Moment

open Moment

theorem summarised_run (events : List Event) : (run events).Summarised := by
  have h : (run events).Scripted ∧ (run events).Looks ∧ (run events).Summarised := by
    refine ledger_induction (P := fun m => m.Scripted ∧ m.Looks ∧ m.Summarised)
      ⟨Scripted.start, Looks.start, Summarised.start⟩ ?_ events
    rintro m m' hsane hledger hstep ⟨hscripted, hlooks, h⟩
    have hlooks' := hlooks.step hsane hledger hstep
    exact ⟨hscripted.step hsane hstep, hlooks', h.step hsane hledger hscripted hlooks hlooks' hstep⟩
  exact h.2.2

theorem employed_run (events : List Event) : (run events).Employed := by
  suffices h : ∀ m : Moment, m.Sane → m.Ledger → m.Employed → (events.foldl perform m).Employed
    from h {} Sane.start Ledger.start Employed.start
  induction events with
  | nil => exact fun _ _ _ h => h
  | cons event events ih =>
    intro m hsane hledger h
    exact ih _ (hsane.event event).1 (hledger.event hsane event) (h.event hsane hledger event)

/-- An executor that is complete, and that the host still holds, has a stream that was made from the
response in the place of its query. If a pull that looked before the stream was cancelled has met the
end, the executor has the metadata of the response, with the durations cut to whole milliseconds;
otherwise the stream was cancelled, and the executor has no metadata. And an executor, complete or not,
has metadata only if such a pull of its result has met the end. -/
theorem metadata_of_complete (events : List Event) {e : Nat} {x : Executor}
    (hx : (run events).state.executors[e]? = some x) :
    (x.state = .complete →
      (∀ r, x.result = some r → ((run events).state.target? r).isSome = true) →
      ∃ r k i c o t response, x.result = some r ∧
        (run events).state.target? r = some (.active k) ∧
        .accepted i (.memory c o) r t ∈ (run events).history ∧
        ((run events).responses c)[o]? = some response ∧
        ((run events).Concluded r k →
          (run events).state.executorMetadata e = .ok response.metadata.cut) ∧
        (¬ (run events).Concluded r k →
          .cancelled r (.active k) ∈ (run events).history ∧
          (run events).state.executorMetadata e =
            .error (.invalidArgument .metadataUnavailable))) ∧
    ∀ metadata, (run events).state.executorMetadata e = .ok metadata →
      ∃ r k, x.result = some r ∧ (run events).state.target? r = some (.active k) ∧
        (run events).Concluded r k := by
  have hsane := sane_run events
  have hledger := ledger_run events
  have hlooks := looks_run events
  have hheeds := heeds_run events
  have hsummarised := summarised_run events
  have hexecutor : ∀ r, x.result = some r → (run events).executor? e = some r := by
    intro r hr
    rw [executor?, hx, Option.bind_some, hr]
  -- a stream shows the metadata of the response that answered the query of its result
  have hstream : ∀ {r k t : Nat} {error : Option EngineError} {alive : Bool},
      .reported r t (some k) error alive ∈ (run events).history →
      ∃ i c o response y, .accepted i (.memory c o) r t ∈ (run events).history ∧
        ((run events).responses c)[o]? = some response ∧
        (run events).state.engine.stream? k = some y ∧
        y.Shows response.metadata ((run events).Ended k) := by
    intro r k t error alive hreported
    obtain ⟨i, operation, haccepted, hmade⟩ := hsane.accounted.recorded _ hreported
    obtain ⟨y, hy, -⟩ := hmade k rfl
    obtain ⟨response, hsupplied, hshows⟩ := hsummarised.shows k y hy
    obtain ⟨r', t', error', alive', i', c, o, hreported', haccepted', hresponse⟩ := hsupplied
    obtain rfl := hledger.stream_unique hreported hreported'
    obtain ⟨rfl, -⟩ := hledger.reported_unique hsane hreported hreported'
    exact ⟨i', c, o, response, y, haccepted', hresponse, hy, hshows⟩
  constructor
  · intro hcomplete hheld
    obtain ⟨r, t, k, hr, hasked, hanswered⟩ := (employed_run events).complete e x hx hcomplete
    obtain ⟨t', error, alive, hreported⟩ := (hsane.accounted.recorded _ hasked).2 k rfl
    obtain ⟨target, htarget⟩ := Option.isSome_iff_exists.mp (hheld r hr)
    obtain rfl := streamed_run events r t' k error alive hreported target htarget
    obtain ⟨i, c, o, response, y, haccepted, hresponse, hy, hshows⟩ := hstream hreported
    have hmetadata := executorMetadata_eq (hexecutor r hr) htarget hy
    refine ⟨r, k, i, c, o, t', response, hr, htarget, haccepted, hresponse, fun hconcluded => ?_,
      fun hnot => ?_⟩
    · obtain ⟨t, before, after, hpull, hsplit, -, hend⟩ := hconcluded
      have hended : (run events).Ended k := ⟨r, t, hpull, by simp [hsplit], hend⟩
      rcases hshows with ⟨-, -, hshown⟩ | ⟨hnot, -⟩
      · rw [hmetadata, hshown]
      · exact absurd hended hnot
    · have hnot' : ¬ (run events).Ended k := fun hended =>
        hnot (hended.concluded hsane hledger hheeds hreported)
      constructor
      · -- the pull that was answered with the end must have seen a cancellation
        rcases hlooks.explained _ hanswered with hrow | ⟨cancelled, hchecked, -⟩
        · cases hrow
        · cases cancelled with
          | false => exact absurd ⟨r, t, hasked, hchecked, Or.inl hanswered⟩ hnot'
          | true =>
            obtain ⟨r', hcancelled⟩ := hsummarised.seen r t k hchecked hasked
            obtain ⟨⟨t'', error', alive', hreported'⟩, -⟩ := hsane.accounted.recorded _ hcancelled
            obtain rfl := hledger.stream_unique hreported hreported'
            exact hcancelled
      · rcases hshows with ⟨hended, -⟩ | ⟨-, -, hshown⟩
        · exact absurd hended hnot'
        · rw [hmetadata, hshown]
  · intro metadata hmetadata
    obtain ⟨r, k, y, hr, htarget, hy, hshown⟩ := of_executorMetadata_ok hmetadata
    have hr' : x.result = some r := by
      rw [← hr, executor?, hx, Option.bind_some]
    obtain ⟨t, error, alive, hreported⟩ := hsane.accounted.known_of_target htarget
    obtain ⟨i, c, o, response, y', -, -, hy', hshows⟩ := hstream hreported
    obtain rfl := Option.some.inj (hy.symm.trans hy')
    rcases hshows with ⟨hended, -⟩ | ⟨-, -, hnone⟩
    · exact ⟨r, k, hr', htarget, hended.concluded hsane hledger hheeds hreported⟩
    · rw [hnone] at hshown
      cases hshown

/-- The result that is asked for a row, and the ticket of the pull. -/
def Observation.asker? : Observation → Option (Nat × Nat)
  | .asked r t _ => some (r, t)
  | _ => none

/-- Two executors are aborted while their streams are active, the first before anybody has pulled from
its stream, the second between the look of a pull and the moment at which this pull meets the end. -/
def raceRun : List Event :=
  [.act .connector,
    .act (.respond 0 { rows := [.content "1".toUTF8 none], metadata := { requestId := "a" } }),
    .act (.respond 0 { metadata :=
      { requestId := "b", metrics := { elapsed := ⟨1, ⟨2345678, by decide⟩⟩, resultCount := 7 } } }),
    .act (.create 0 { connection := "mem" }), .act .executor, .act .executor,
    .act (.executorQuery 0 0 { statement := "a" } "first"), .resume,
    .act (.executorQuery 1 0 { statement := "b" } "second"), .resume,
    .turn 0, .turn 0, .turn 0, .turn 0,
    .act (.executorAbort 0), .resume, .act (.executorNext 0 "error"), .act (.executorNext 0 "end"),
    .act (.executorNext 1 "end")] ++
  List.replicate 7 (.turn 0) ++ [.act (.executorAbort 1), .resume, .turn 0]

/-- After that the last pull is answered, and the host learns of everything. -/
def abortedRun : List Event :=
  raceRun ++ .turn 0 :: List.replicate 5 (.act .dispatch)

/-- In the end both executors of that run are complete. The first has no metadata; the second has that
of its response, with its duration cut to 1002 milliseconds. -/
theorem metadata_of_complete_in_abortedRun :
    (run abortedRun).state.executors = [⟨some 0, .complete⟩, ⟨some 1, .complete⟩] ∧
    (run abortedRun).state.executorMetadata 0 = .error (.invalidArgument .metadataUnavailable) ∧
    (∃ response, ((run abortedRun).responses 0)[1]? = some response ∧
      (run abortedRun).state.executorMetadata 1 = .ok response.metadata.cut) ∧
    ((run abortedRun).state.executorMetadata 1).toOption = some
      { requestId := "b", metrics := { elapsed := ⟨1, 2000000⟩, resultCount := 7 } } := by
  have hexecutors : (run abortedRun).state.executors =
      [⟨some 0, .complete⟩, ⟨some 1, .complete⟩] := by decide +kernel
  have hnone : ((run abortedRun).state.executorMetadata 0).toOption = none := by decide +kernel
  have hsome : ((run abortedRun).state.executorMetadata 1).toOption = some
      { requestId := "b", metrics := { elapsed := ⟨1, 2000000⟩, resultCount := 7 } } := by
    decide +kernel
  have hheld : ∀ r < 2, ((run abortedRun).state.target? r).isSome = true := by decide +kernel
  obtain ⟨hfirst, -⟩ := metadata_of_complete abortedRun (e := 0) (x := ⟨some 0, .complete⟩)
    (by rw [hexecutors]; rfl)
  obtain ⟨hsecond, -⟩ := metadata_of_complete abortedRun (e := 1) (x := ⟨some 1, .complete⟩)
    (by rw [hexecutors]; rfl)
  refine ⟨hexecutors, ?_, ?_, hsome⟩
  · obtain ⟨r, k, i, c, o, t, response, -, -, -, -, hended, hcancelled⟩ :=
      hfirst rfl fun r hr => hheld r (by cases hr; decide)
    by_cases hk : (run abortedRun).Concluded r k
    · rw [hended hk] at hnone
      cases hnone
    · exact (hcancelled hk).2
  · obtain ⟨r, k, i, c, o, t, response, hr, -, haccepted, hresponse, hended, hcancelled⟩ :=
      hsecond rfl fun r hr => hheld r (by cases hr; decide)
    obtain rfl := Option.some.inj hr
    obtain ⟨-, hoperation, -⟩ := (ledger_run abortedRun).accepted_unique haccepted
      (List.mem_of_getElem? (i := 3) rfl)
    cases hoperation
    by_cases hk : (run abortedRun).Concluded 1 k
    · exact ⟨response, hresponse, hended hk⟩
    · rw [(hcancelled hk).2] at hsome
      cases hsome

/-- An executor that is complete need not have metadata. And an executor can have metadata when no
pull of its result has been answered with the end. -/
theorem complete_need_not_have_metadata :
    (¬ ∀ (events : List Event) (e : Nat) (x : Executor),
      (run events).state.executors[e]? = some x → x.state = .complete →
      (∀ r, x.result = some r → ((run events).state.target? r).isSome = true) →
        ∃ metadata, (run events).state.executorMetadata e = .ok metadata) ∧
    ¬ ∀ (events : List Event) (e : Nat) (x : Executor) (metadata : Metadata),
      (run events).state.executors[e]? = some x →
      (run events).state.executorMetadata e = .ok metadata →
        ∃ r t k, x.result = some r ∧ .asked r t (some k) ∈ (run events).history ∧
          .answered t .done ∈ (run events).history := by
  constructor
  · intro h
    have hnone : ((run abortedRun).state.executorMetadata 0).toOption = none := by decide +kernel
    have hheld : ((run abortedRun).state.target? 0).isSome = true := by decide +kernel
    obtain ⟨metadata, hmetadata⟩ := h abortedRun 0 ⟨some 0, .complete⟩ (by decide +kernel) rfl
      fun r hr => Option.some.inj hr ▸ hheld
    rw [hmetadata] at hnone
    cases hnone
  · intro h
    have hshown : ((run raceRun).state.executorMetadata 1).toOption.isSome = true := by
      decide +kernel
    -- the only pull of the second executor has its row in hand
    have hasks : (run raceRun).history.filterMap Observation.asker? = [(0, 2), (0, 3), (1, 4)] := by
      decide +kernel
    have hanswers : (run raceRun).history.filterMap Observation.answer? = [2, 3] := by
      decide +kernel
    cases hmetadata : (run raceRun).state.executorMetadata 1 with
    | error error =>
      rw [hmetadata] at hshown
      cases hshown
    | ok metadata =>
      obtain ⟨r, t, k, hr, hasked, hanswered⟩ :=
        h raceRun 1 ⟨some 1, .cancelled⟩ metadata (by decide +kernel) hmetadata
      obtain rfl := Option.some.inj hr
      have ht : (1, t) ∈ [(0, 2), (0, 3), (1, 4)] :=
        hasks ▸ List.mem_filterMap.mpr ⟨_, hasked, rfl⟩
      have ht' : t ∈ [2, 3] := hanswers ▸ List.mem_filterMap.mpr ⟨_, hanswered, rfl⟩
      obtain rfl : t = 4 := by simpa using ht
      simp at ht'

end Session

end HostBridge
