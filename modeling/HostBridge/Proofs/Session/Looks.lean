import HostBridge.Proofs.Engine.Busy
import HostBridge.Proofs.Session.Ledger

/-!
# What tasks have seen

A promotion and a pull look once whether they were cancelled, and what they saw decides what comes of
them: with a cancellation a promotion makes no stream, and a pull gets no row. The history remembers
each look, so of every task that a thread is in the middle of, and of everything that was reported or
answered, it tells what was seen. Whoever looks after a cancellation struck sees it.
-/

namespace HostBridge.Session

open Bridge (Cookie)

/-- The row says that the stream was cancelled, or that there is nothing more. -/
def Spent (row : Row) : Prop :=
  row = .done ∨ ∃ e, row = .failed e ∧ e.code = .canceled

/-- To a pull that has seen a cancellation a stream gives no content. -/
theorem spent_serve (x : Engine.Stream) : Spent (x.serve true).1 := by
  unfold Engine.Stream.serve
  rw [if_pos rfl]
  split
  · exact Or.inl rfl
  · exact Or.inr ⟨.canceled, rfl, rfl⟩

/-- The ticket of a task that has looked. -/
@[simp]
def Observation.looker? : Observation → Option Nat
  | .checked t _ => some t
  | _ => none

/-- The ticket of a task that has come to its end. -/
@[simp]
def Observation.settled? : Observation → Option Nat
  | .reported _ t _ _ _ => some t
  | .answered t _ => some t
  | _ => none

namespace Moment

variable {m m' : Moment} {l t : Nat} {x : Finding}

/-! ## Tasks under way -/

/-- A pull takes its row from a stream. -/
structure Draws (m m' : Moment) (l i : Nat) (cookie : Cookie) (cancelled : Bool) : Prop where
  /-- The pull has looked. -/
  before : m.state.engine.busy? l = some (.pull i cookie, .flag cancelled)
  /-- It has its row. -/
  after : m'.state.engine.busy? l =
    some (.pull i cookie, .row (m.state.engine.answer i cancelled))
  /-- Nothing else happens. -/
  eq : m' = m.having { m.state with engine := m.state.engine.drawn l i cancelled }

/-- What a move does to the task that the thread of a loop is in the middle of. -/
inductive Proceeds (m m' : Moment) (l : Nat) : Prop
  /-- Nothing. -/
  | rests (h : m'.state.engine.busy? l = m.state.engine.busy? l)
  /-- A task looks whether it was cancelled. -/
  | looks {t : Task} {cookie : Cookie} {cancelled : Bool}
      (hold : m.state.engine.busy? l = none)
      (h : m'.state.engine.busy? l = some (t.untimed, .flag cancelled))
      (hcookie : cookie? t = some cookie)
      (hhistory : m'.history = m.history ++ [.checked cookie.ticket cancelled])
  /-- A pull takes its row. -/
  | draws {i : Nat} {cookie : Cookie} {cancelled : Bool} (h : m.Draws m' l i cookie cancelled)
  /-- A promotion is reported. -/
  | reports {c o : Nat} {response : Engine.Response} {p : Promotion} {x : Finding}
      {stream : Option Nat} {error : Option EngineError} {alive : Bool}
      (hold : m.state.engine.busy? l = some (.promote c o response .fresh p, x))
      (h : m'.state.engine.busy? l = none)
      (hhistory : m'.history = m.history ++ [.reported p.result p.cookie.ticket stream error alive])
  /-- A pull is answered. -/
  | answers {i : Nat} {cookie : Cookie} {row : Row}
      (hold : m.state.engine.busy? l = some (.pull i cookie, .row row))
      (h : m'.state.engine.busy? l = none)
      (hhistory : m'.history = m.history ++ [.answered cookie.ticket row])

/-- A task of which nothing had been found out leaves the front of its loop. -/
theorem Proceeds.of_idle {k : Nat} (hidle : m.state.engine.busy? k = none)
    (h : m'.state.engine.busy? l = if l = k then none else m.state.engine.busy? l) :
    m.Proceeds m' l := by
  refine .rests (h.trans ?_)
  split
  · next hl => rw [hl, hidle]
  · rfl

/-- The closing of a cluster finds out nothing. -/
theorem busy?_of_close {k key i : Nat} {keys : List Nat} (hsound : m.state.engine.Sound)
    (hready : (m.state.engine.loop k).ready = key :: keys)
    (htask : m.state.engine.job? k key = some (.close i)) : m.state.engine.busy? k = none := by
  cases hfound : (m.state.engine.worker k).found with
  | none => exact Engine.State.busy?_of_idle hfound
  | some x =>
    exact (hsound.finds_of_busy? (Engine.State.busy?_of_found hfound hready htask)).elim

theorem Step.proceeds (h : m.Step m') (hsane : m.Sane) (l : Nat) : m.Proceeds m' l := by
  have hsound := hsane.orderly.sound
  cases h with
  | note | grasp | attach | letGo | connector | respond | refuse | askEarly | askLate | strikeStream
  | tell | drop | reap => exact .rests rfl
  | create => exact .rests (Engine.State.busy?_addLoop _ l)
  | @accept e i c x request name hides response responses hx hrunning =>
    obtain ⟨hi, hstop⟩ := hsane.orderly.takes hx hrunning
    exact .rests ((hsound.accepting request responses).busy?_spawned hi hstop _ l)
  | ask htarget hx hstop =>
    have hi := hsane.accounted.anchored hsane.orderly htarget hx
    exact .rests (hsound.busy?_spawned hi hstop _ l)
  | @strikeOperation e r c o =>
    exact .rests (hsound.busy?_woken (Engine.State.woken_cancelOperation _ c o) l)
  | @close i c x hx hrunning =>
    obtain ⟨hi, hstop⟩ := hsane.orderly.takes hx hrunning
    have hwoken := Engine.State.woken_closing m.state.engine c
    exact .rests (((hsound.closing c).busy?_spawned (hwoken.length ▸ hi)
      ((hwoken.stopping i).trans hstop) _ l).trans (hsound.busy?_woken hwoken l))
  | look hmust => exact .rests (hsound.busy?_looked hmust l)
  | @sleep k key c o keys response timer p hready htask hcancelled hfound =>
    have hjob : m.state.engine.job? k key = _ := congrArg (Option.map Engine.Task.untimed) htask
    exact .of_idle (Engine.State.busy?_of_idle hfound)
      (Engine.State.busy?_slept (Engine.State.lt_of_job? hjob) key _ l)
  | @check k key keys t cookie cancelled hready htask hchecks hfound hcookie =>
    have hjob : m.state.engine.job? k key = _ := congrArg (Option.map Engine.Task.untimed) htask
    have hbusy := Engine.State.busy?_checked (Engine.State.lt_of_job? hjob) hready hjob cancelled l
    split at hbusy
    · next hl =>
      subst hl
      exact .looks (Engine.State.busy?_of_idle hfound) hbusy hcookie rfl
    · exact .rests hbusy
  | @draw k key i keys cookie cancelled hready htask hfound =>
    have hbusy := Engine.State.busy?_drawn (Engine.State.lt_of_job? htask) hready htask i cancelled l
    split at hbusy
    · next hl =>
      subst hl
      exact .draws ⟨Engine.State.busy?_of_found hfound hready htask, hbusy, rfl⟩
    · exact .rests hbusy
  | elapse harmed => exact .rests (hsound.busy?_elapse harmed l)
  | @report k key c o keys response p stream error engine target hready htask hsettled
  | @reportLost k key c o keys response p stream error engine hready htask hsettled =>
    have hbusy : engine.busy? l = _ :=
      (Engine.State.busy?_of_worker (s := m.state.engine.finished k key)
        (by rw [Engine.State.worker, hsettled.workers]; rfl)).trans
        (Engine.State.busy?_finished (Engine.State.lt_of_job? htask) key l)
    split at hbusy
    · next hl =>
      subst hl
      cases hsettled with
      | cancelled hfound | failed hfound | promoted hfound =>
        exact .reports (Engine.State.busy?_of_found hfound hready htask) hbusy rfl
    · exact .rests hbusy
  | @answer k key i keys cookie row hready htask hfound =>
    have hbusy := Engine.State.busy?_finished (Engine.State.lt_of_job? htask) key l
    split at hbusy
    · next hl =>
      subst hl
      exact .answers (Engine.State.busy?_of_found hfound hready htask) hbusy rfl
    · exact .rests hbusy
  | @shut k key i keys x y hready htask =>
    have hstopped := (hsound.finished hready).busy?_stop x.loop l
    exact .of_idle (busy?_of_close hsound hready htask)
      (hstopped.trans (Engine.State.busy?_finished (Engine.State.lt_of_job? htask) key l))
  | stray hready htask =>
    exact .of_idle (busy?_of_close hsound hready htask)
      (Engine.State.busy?_finished (Engine.State.lt_of_job? htask) _ l)

/-! ## Looks are remembered -/

/-- What a thread has found out in the middle of a task goes back to a look that is remembered. -/
def Looked (m : Moment) : Prop :=
  ∀ l t x, m.state.engine.busy? l = some (t, x) → ∃ cookie cancelled, cookie? t = some cookie ∧
    .checked cookie.ticket cancelled ∈ m.history ∧
      (x = .flag cancelled ∨ ∃ row, x = .row row ∧ (cancelled = true → Spent row))

theorem Looked.step (h : m.Looked) (hsane : m.Sane) (hstep : m.Step m') : m'.Looked := by
  intro l t x hbusy
  cases hstep.proceeds hsane l with
  | rests hsame =>
    obtain ⟨cookie, cancelled, hcookie, hchecked, hx⟩ := h l t x (hsame ▸ hbusy)
    exact ⟨cookie, cancelled, hcookie, hstep.later.history.subset hchecked, hx⟩
  | @looks u cookie cancelled _ hnew hcookie hhistory =>
    obtain ⟨rfl, rfl⟩ := Prod.mk.inj (Option.some.inj (hnew.symm.trans hbusy))
    exact ⟨cookie, cancelled, (cookie?_untimed u).trans hcookie, by simp [hhistory], Or.inl rfl⟩
  | @draws i cookie cancelled hdraws =>
    obtain ⟨rfl, rfl⟩ := Prod.mk.inj (Option.some.inj (hdraws.after.symm.trans hbusy))
    obtain ⟨cookie', seen, hcookie, hchecked, hx⟩ := h l _ _ hdraws.before
    obtain rfl : cancelled = seen := by simpa using hx
    refine ⟨cookie', cancelled, hcookie, hstep.later.history.subset hchecked, Or.inr ⟨_, rfl, ?_⟩⟩
    rintro rfl
    unfold Engine.State.answer
    split
    · exact spent_serve _
    · exact Or.inl rfl
  | reports _ hnone | answers _ hnone => cases hnone.symm.trans hbusy

/-- What was reported or answered goes back to a look. Only a stopped loop answers without one. -/
def Explained (m : Moment) : Observation → Prop
  | .reported _ t stream error _ => ∃ cancelled, .checked t cancelled ∈ m.history ∧
      (cancelled = true → stream = none ∧ error = some .canceled)
  | .answered t row => row = .failed .clusterClosed ∨
      ∃ cancelled, .checked t cancelled ∈ m.history ∧ (cancelled = true → Spent row)
  | _ => True

theorem Explained.mono {o : Observation} (h : m.Explained o) (hlater : Later m m') :
    m'.Explained o := by
  cases o with
  | reported =>
    obtain ⟨cancelled, hchecked, hspent⟩ := h
    exact ⟨cancelled, hlater.history.subset hchecked, hspent⟩
  | answered =>
    refine h.imp_right ?_
    rintro ⟨cancelled, hchecked, hspent⟩
    exact ⟨cancelled, hlater.history.subset hchecked, hspent⟩
  | _ => trivial

theorem News.explained {o : Observation} (h : m.News o) (hlooked : m.Looked) :
    m.Explained o := by
  cases o with
  | reported r t stream error alive =>
    obtain ⟨l, key, keys, c, o, response, p, engine, hready, hjob, -, rfl, hsettled⟩ := h
    have hlook : ∀ b, (m.state.engine.worker l).found = some (.flag b) →
        .checked p.cookie.ticket b ∈ m.history := by
      intro b hfound
      obtain ⟨cookie, cancelled, hcookie, hchecked, hx⟩ :=
        hlooked l _ _ (Engine.State.busy?_of_found hfound hready hjob)
      obtain rfl := Option.some.inj hcookie
      obtain rfl : b = cancelled := by simpa using hx
      exact hchecked
    cases hsettled with
    | cancelled hfound => exact ⟨true, hlook true hfound, fun _ => ⟨rfl, rfl⟩⟩
    | failed hfound | promoted hfound => exact ⟨false, hlook false hfound, by simp⟩
  | answered t row =>
    refine h.symm.imp And.right ?_
    rintro ⟨l, key, keys, k, cookie, hready, hjob, rfl, hfound⟩
    obtain ⟨cookie', cancelled, hcookie, hchecked, hx⟩ :=
      hlooked l _ _ (Engine.State.busy?_of_found hfound hready hjob)
    obtain rfl := Option.some.inj hcookie
    obtain ⟨row', hrow, hspent⟩ := hx.resolve_left (by simp)
    obtain rfl : row = row' := by simpa using hrow
    exact ⟨cancelled, hchecked, hspent⟩
  | _ => trivial

/-! ## Nobody looks twice -/

/-- The thread of a loop is in the middle of the task of a ticket, and has found that out. -/
def UnderWay (m : Moment) (ticket : Nat) (x : Finding) : Prop :=
  ∃ l t cookie, m.state.engine.busy? l = some (t, x) ∧ cookie? t = some cookie ∧
    cookie.ticket = ticket

/-- A task under way stays so until it has come to its end. -/
theorem UnderWay.step (h : m.UnderWay t x) (hsane : m.Sane) (hstep : m.Step m') :
    (∃ x, m'.UnderWay t x) ∨ t ∈ m'.history.filterMap Observation.settled? := by
  obtain ⟨l, u, cookie, hbusy, hcookie, rfl⟩ := h
  cases hstep.proceeds hsane l with
  | rests hsame => exact Or.inl ⟨x, l, u, cookie, hsame.trans hbusy, hcookie, rfl⟩
  | looks hnone => cases hnone.symm.trans hbusy
  | draws hdraws =>
    obtain ⟨rfl, rfl⟩ := Prod.mk.inj (Option.some.inj (hdraws.before.symm.trans hbusy))
    exact Or.inl ⟨_, l, _, cookie, hdraws.after, hcookie, rfl⟩
  | reports hold _ hhistory | answers hold _ hhistory =>
    obtain ⟨rfl, rfl⟩ := Prod.mk.inj (Option.some.inj (hold.symm.trans hbusy))
    obtain rfl := Option.some.inj hcookie
    exact Or.inr (by simp [hhistory])

theorem pulls_sublist (history : List Observation) :
    (history.filterMap Observation.pull?).Sublist (history.filterMap Observation.ticket?) := by
  induction history with
  | nil => exact List.Sublist.refl _
  | cons o history ih =>
    cases o with
    | asked r t stream =>
      cases stream with
      | none => exact ih.cons t
      | some k => exact ih.cons_cons t
    | accepted i operation r t => exact ih.cons t
    | refused t => exact ih.cons t
    | _ => exact ih

theorem Ledger.nodup_pulls (h : m.Ledger) : (m.history.filterMap Observation.pull?).Nodup :=
  h.tickets.sublist (pulls_sublist m.history)

/-- A ticket belongs to one task. -/
theorem Ledger.place_unique (h : m.Ledger) (hsane : m.Sane) {k key key' : Nat} {u v : Task}
    {cookie cookie' : Cookie} (hu : m.state.engine.job? l key = some u)
    (hv : m.state.engine.job? k key' = some v) (hcookie : cookie? u = some cookie)
    (hcookie' : cookie? v = some cookie') (hsame : cookie.ticket = cookie'.ticket) :
    l = k ∧ key = key' := by
  have hdue := hsane.orderly.due l key u hu
  have hdue' := hsane.orderly.due k key' v hv
  cases u with
  | promote c o response timer p =>
    obtain rfl := Option.some.inj hcookie
    cases v with
    | promote c' o' response' timer' p' =>
      obtain rfl := Option.some.inj hcookie'
      have hentry := h.ticket_unique hdue.1 hdue'.1 rfl (congrArg some hsame.symm)
      simp only [Observation.accepted.injEq] at hentry
      have hnodup := (List.nodup_append.mp (h.promotions.nodup_iff.mpr h.nodup_queries)).1
      exact Engine.State.place_unique hnodup hu hv rfl
        (congrArg some (Prod.ext hentry.2.2.1.symm hsame.symm))
    | pull i' cookie' =>
      obtain rfl := Option.some.inj hcookie'
      obtain ⟨⟨r', hasked⟩, -⟩ := hdue'
      cases h.ticket_unique hdue.1 hasked rfl (congrArg some hsame.symm)
    | close | park => cases hcookie'
  | pull i cookie =>
    obtain rfl := Option.some.inj hcookie
    obtain ⟨⟨r, hasked⟩, -⟩ := hdue
    cases v with
    | promote c' o' response' timer' p' =>
      obtain rfl := Option.some.inj hcookie'
      cases h.ticket_unique hdue'.1 hasked rfl (congrArg some hsame)
    | pull i' cookie' =>
      obtain rfl := Option.some.inj hcookie'
      have hnodup := (List.nodup_append.mp (h.pulls.nodup_iff.mpr h.nodup_pulls)).1
      exact Engine.State.place_unique hnodup hu hv rfl (congrArg some hsame.symm)
    | close | park => cases hcookie'
  | close | park => cases hcookie

/-- A task that is still there has not come to its end. -/
theorem Ledger.not_settled (h : m.Ledger) (hsane : m.Sane) {key : Nat} {u : Task} {cookie : Cookie}
    (hu : m.state.engine.job? l key = some u) (hcookie : cookie? u = some cookie) :
    cookie.ticket ∉ m.history.filterMap Observation.settled? := by
  intro hmem
  obtain ⟨o, ho, hsettled⟩ := List.mem_filterMap.mp hmem
  have hdue := hsane.orderly.due l key u hu
  cases o with
  | reported r t stream error alive =>
    obtain rfl := Option.some.inj hsettled
    obtain ⟨i, operation, haccepted, -⟩ := hsane.accounted.recorded _ ho
    cases u with
    | promote c o response timer p =>
      obtain rfl := Option.some.inj hcookie
      have hsame := h.ticket_unique haccepted hdue.1 rfl rfl
      simp only [Observation.accepted.injEq] at hsame
      obtain ⟨-, -, rfl, -⟩ := hsame
      exact h.not_reported hsane hu ho
    | pull i' cookie =>
      obtain rfl := Option.some.inj hcookie
      obtain ⟨⟨r', hasked⟩, -⟩ := hdue
      cases h.ticket_unique haccepted hasked rfl rfl
    | close | park => cases hcookie
  | answered t row =>
    obtain rfl := Option.some.inj hsettled
    have hanswer : cookie.ticket ∈ m.history.filterMap Observation.answer? :=
      List.mem_filterMap.mpr ⟨_, ho, rfl⟩
    cases u with
    | promote c o response timer p =>
      obtain rfl := Option.some.inj hcookie
      obtain ⟨o', ho', hpull⟩ := List.mem_filterMap.mp
        (h.pulls.mem_iff.mp (List.mem_append_right _ hanswer))
      have hticket : o'.ticket? = some p.cookie.ticket := by
        cases o' with
        | asked r t stream => cases stream <;> first | exact hpull | cases hpull
        | _ => cases hpull
      obtain rfl := h.ticket_unique ho' hdue.1 hticket rfl
      cases hpull
    | pull i cookie =>
      obtain rfl := Option.some.inj hcookie
      have hnodup := h.pulls.nodup_iff.mpr h.nodup_pulls
      exact (List.nodup_append.mp hnodup).2.2 _
        (Engine.State.mem_collect.mpr ⟨l, key, _, hu, rfl⟩) _ hanswer rfl
    | close | park => cases hcookie
  | _ => cases hsettled

/-- The looks of a run are in order. -/
structure Looks (m : Moment) : Prop where
  /-- What a thread has found out goes back to a look. -/
  looked : m.Looked
  /-- What was reported or answered goes back to a look. -/
  explained : ∀ o ∈ m.history, m.Explained o
  /-- No task looks twice. -/
  nodup : (m.history.filterMap Observation.looker?).Nodup
  /-- A task that has looked is under way or has come to its end. -/
  underWay : ∀ t ∈ m.history.filterMap Observation.looker?,
    (∃ x, m.UnderWay t x) ∨ t ∈ m.history.filterMap Observation.settled?

namespace Looks

theorem start : ({} : Moment).Looks where
  looked := fun l t x hbusy => by simp [Engine.State.busy?, Engine.State.worker] at hbusy
  explained := by simp
  nodup := by simp
  underWay := by simp

/-- A task that looks has not looked before: the thread was not in the middle of it. -/
theorem notMem_of_check (h : m.Looks) (hsane : m.Sane) (hledger : m.Ledger) {key : Nat} {u : Task}
    {cookie : Cookie} (hjob : m.state.engine.job? l key = some u)
    (hidle : (m.state.engine.worker l).found = none) (hcookie : cookie? u = some cookie) :
    cookie.ticket ∉ m.history.filterMap Observation.looker? := by
  intro hlooked
  rcases h.underWay _ hlooked with ⟨x, k, v, cookie', hbusy, hcookie', hsame⟩ | hsettled
  · obtain ⟨hfound, key', rest, hready, hjob'⟩ := Engine.State.busy?_eq_some.mp hbusy
    obtain ⟨rfl, -⟩ := hledger.place_unique hsane hjob hjob' hcookie hcookie' hsame.symm
    cases hidle.symm.trans hfound
  · exact hledger.not_settled hsane hjob hcookie hsettled

theorem step (h : m.Looks) (hsane : m.Sane) (hledger : m.Ledger) (hstep : m.Step m') :
    m'.Looks := by
  have hlater := hstep.later
  have hexplained : ∀ o ∈ m'.history, m'.Explained o := fun o ho => by
    rcases hstep.mem_history ho with ho | hnews
    · exact (h.explained o ho).mono hlater
    · exact (hnews.explained h.looked).mono hlater
  have hunder : ∀ t ∈ m.history.filterMap Observation.looker?,
      (∃ x, m'.UnderWay t x) ∨ t ∈ m'.history.filterMap Observation.settled? := fun t ht => by
    rcases h.underWay t ht with ⟨x, hx⟩ | hsettled
    · exact hx.step hsane hstep
    · exact Or.inr ((hlater.history.filterMap _).subset hsettled)
  have hkeep : m'.history.filterMap Observation.looker? = m.history.filterMap Observation.looker? →
      m'.Looks := fun hsame =>
    ⟨h.looked.step hsane hstep, hexplained, hsame ▸ h.nodup, hsame ▸ hunder⟩
  cases hstep with
  | note | grasp | attach | letGo | connector | create | close | tell | drop | look | sleep | draw
  | elapse | shut | stray | reap => exact hkeep rfl
  | respond | refuse | accept | askEarly | ask | askLate | strikeOperation | strikeStream | report
  | reportLost | answer => exact hkeep (by simp)
  | @check k key keys u cookie cancelled hready htask hchecks hfound hcookie =>
    have hjob : m.state.engine.job? k key = _ := congrArg (Option.map Engine.Task.untimed) htask
    have hcookie' := (cookie?_untimed u).trans hcookie
    have hnew := h.notMem_of_check hsane hledger hjob hfound hcookie'
    have hhistory : (m.history ++ [Observation.checked cookie.ticket cancelled]).filterMap
        Observation.looker? = m.history.filterMap Observation.looker? ++ [cookie.ticket] := by simp
    refine ⟨h.looked.step hsane (.check hready htask hchecks hfound hcookie), hexplained, ?_,
      fun t ht => ?_⟩
    · rw [hhistory]
      refine List.nodup_append.mpr ⟨h.nodup, List.nodup_singleton _, fun t ht last hlast => ?_⟩
      rw [List.mem_singleton.mp hlast]
      rintro rfl
      exact hnew ht
    · rw [hhistory] at ht
      rcases List.mem_append.mp ht with ht | ht
      · exact hunder t ht
      · obtain rfl := List.mem_singleton.mp ht
        have hbusy := Engine.State.busy?_checked (Engine.State.lt_of_job? hjob) hready hjob
          cancelled k
        rw [if_pos rfl] at hbusy
        exact Or.inl ⟨_, k, _, cookie, hbusy, hcookie', rfl⟩

/-- What a task saw when it looked is settled. -/
theorem checked_unique (h : m.Looks) {b b' : Bool} (hb : .checked t b ∈ m.history)
    (hb' : .checked t b' ∈ m.history) : b = b' := by
  have := Engine.eq_of_nodup_filterMap h.nodup hb hb' rfl rfl
  simpa using this

end Looks

end Moment

open Moment

theorem looks_run (events : List Event) : (run events).Looks :=
  ledger_induction Looks.start (fun _ _ hsane hledger hstep h => h.step hsane hledger hstep) events

end HostBridge.Session
