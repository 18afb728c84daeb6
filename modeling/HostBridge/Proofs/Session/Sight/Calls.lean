import HostBridge.Proofs.Session.Sight.Outlook

/-!
# Calls in sight

A call of the host does to a sight what the sight itself can tell, unless it is a call on the
connection out of sight. This is clear for calls that concern the connection in sight. The other
ones matter as far as they use up what is shared, the responses and the numbers of operations and
results; their tasks, their streams and their results stay out of sight.

All of this is about a host thread that is not in the middle of another call.
-/

namespace HostBridge.Session

open Bridge (Cookie)

namespace Moment

variable {m m' : Moment} {a b : Nat}

theorem aim_idle (m : Moment) (a b : Nat) (hidle : m.call = .idle) : (m.sight a b).aim = none := by
  simp [sight, hidle, Call.aim?]

theorem aim_eq {v : Sight} (hidle : m.call = .idle) (hv : v.aim = none) :
    (m.sight a b).aim = v.aim :=
  (aim_idle m a b hidle).trans hv.symm

theorem sight_executor? (m : Moment) (a b e : Nat) :
    (m.sight a b).executor? e = m.executor? e :=
  join_map_result m.state.executors e

/-! ## Queries -/

section Accepted

variable {i c t : Nat} {operation : Operation} {request : Request} {response : Engine.Response}
  {responses : List Engine.Response} {task : Task}

theorem stock_accepted (hresponses : (m.state.engine.connector c).responses = response :: responses)
    (hengine : m'.state.engine = (m.state.engine.accepting c request responses).spawned i task)
    (d : Nat) : (m'.sight a b).stock d = if d = c then
      (responses, (m.state.engine.connector c).operations.length + 1)
      else (m.sight a b).stock d := by
  have hconnector := Engine.State.connector_accepting
    (Engine.State.lt_connectors_of_responses hresponses) request responses d
  have hsame : m'.state.engine.connector d =
      (m.state.engine.accepting c request responses).connector d := by rw [hengine]; rfl
  simp only [sight, hsame, hconnector]
  split <;> simp

theorem results_accepted (hsane : m.Sane)
    (hresults : m'.state.results = m.state.results ++ [({} : QueryResult)])
    (hhistory : m'.history = m.history ++ [.accepted i operation m.state.results.length t])
    (r : Nat) : (m'.sight a b).results r =
      if r = m.state.results.length ∧ i = b then some {} else (m.sight a b).results r := by
  have howns : ∀ r, m'.owns b r = (m.owns b r || (i == b && m.state.results.length == r)) := by
    intro r
    simp [owns, hhistory, Observation.accepts]
  by_cases hnew : r = m.state.results.length ∧ i = b
  · obtain ⟨rfl, rfl⟩ := hnew
    simp [sight, howns, hresults, QueryResult.outline]
  · rw [if_neg hnew]
    refine results_congr ?_ fun howner => ?_
    · rw [howns]
      simp only [Bool.or_eq_left_iff_imp, Bool.and_eq_true, beq_iff_eq]
      exact fun hboth => absurd ⟨hboth.2.symm, hboth.1⟩ hnew
    · rw [hresults]
      exact List.getElem?_append_left (hsane.lt_of_owns howner)

end Accepted

/-! ## Calls -/

/-- A new loop has no tasks, and waits for its thread. -/
theorem outlook_create (hsane : m.Sane) (hengine : m'.state.engine = m.state.engine.addLoop.2)
    (hhistory : m'.history = m.history ++ []) :
    m'.outlook b = if b = m.state.instances.length then .held else m.outlook b := by
  have hworker : m'.state.engine.worker b = _ :=
    hengine ▸ Engine.State.worker_addLoop m.state.engine b
  rw [hsane.orderly.workers] at hworker
  split
  · next hb =>
    rw [if_pos hb] at hworker
    have hidle : m'.state.engine.busy? b = none :=
      Engine.State.busy?_of_idle (by rw [hworker]; rfl)
    rw [outlook, hworker, hidle]
    rfl
  · next hb =>
    rw [if_neg hb] at hworker
    refine outlook_append hworker (fun c o => ?_) hhistory (by simp)
    rw [hengine]
    rfl

section Act

variable (h : m.Regular) (hidle : m.call = .idle)
include hidle

theorem sight_connector :
    (m.act .connector).sight a b = (m.sight a b).act b .connector := by
  have houtlook : (m.act .connector).outlook b = m.outlook b :=
    outlook_append rfl (Engine.State.isCancelled_addConnector m.state.engine)
      (List.append_nil _).symm (by simp)
  refine Sight.ext houtlook (funext fun c => ?_) ?_ rfl rfl rfl rfl rfl rfl ?_
  · simp only [sight, act, having, Engine.State.connector_addConnector]
    rfl
  · simp [sight, act, having, Engine.State.addConnector, Sight.act]
  · exact aim_eq hidle (aim_idle m a b hidle)

theorem sight_respond (c : Nat) (response : Engine.Response) :
    (m.act (.respond c response)).sight a b = (m.sight a b).act b (.respond c response) := by
  have hconnectors : (m.sight a b).connectors = m.state.engine.connectors.length := rfl
  simp only [act, Sight.act, hconnectors]
  split
  · next hc =>
    have hnone : ∀ x ∈ [Observation.pushed c response], x.result? = none ∧ x.looker? = none := by simp
    refine Sight.ext (outlook_append rfl (Engine.State.isCancelled_respond response) rfl hnone)
      (funext fun d => ?_) ?_ rfl rfl (funext fun r => ?_) rfl rfl rfl ?_
    · simp only [sight, Engine.State.connector_respond hc]
      split <;> rfl
    · simp [sight, Engine.State.respond, Engine.State.modifyConnector]
    · simp only [sight]
      rw [owns_append rfl (by simp)]
    · exact aim_eq hidle (aim_idle m a b hidle)
  · rfl

/-- The host thread aims at nothing that is in sight. -/
theorem aimAt_eq_self {target : Option (Nat × Nat)}
    (hnone : ∀ c o, target = some (c, o) → ¬ m.Open b c o) :
    (m.sight a b).aimAt target = m.sight a b := by
  refine Sight.ext rfl rfl rfl rfl rfl rfl rfl rfl rfl ?_
  rw [aim_idle m a b hidle]
  cases target with
  | none => rfl
  | some operation =>
    have hclosed : has (Chore.isOpen operation.1 operation.2) (m.sight a b).worker = false :=
      Bool.eq_false_iff.mpr fun hopen => hnone _ _ rfl (has_isOpen.mp hopen)
    simp [Sight.aimAt, hclosed]

/-- A cancellation has found nothing that is in sight. -/
theorem grasp_eq_self {r : Nat}
    (hnone : ∀ c o, m.state.target? r = some (.pending (.memory c o)) → ¬ m.Open b c o) :
    (m.sight a b).grasp r = m.sight a b := by
  unfold Sight.grasp
  split
  · next c o hq =>
    obtain ⟨-, target, htarget, houtline⟩ := target_of_results hq rfl
    have hpending : target = .pending (.memory c o) := by
      cases target <;> simp_all [QueryResult.outline]
    subst hpending
    refine aimAt_eq_self hidle fun c' o' heq => ?_
    cases heq
    exact hnone c o htarget
  · rfl

theorem sight_dropResult (r : Nat) : (m.having (m.state.dropResult r)).sight a b =
    (m.sight a b).modifyResult r fun q => { q with alive := false } := by
  refine Sight.ext rfl rfl rfl rfl rfl (results_modify (fun _ => rfl) rfl fun q => ?_) ?_ rfl rfl
    (aim_eq hidle (aim_idle m a b hidle))
  · obtain ⟨target, alive⟩ := q
    cases target <;> rfl
  · exact List.length_modify ..

/-- A connection stops serving, and its loop is handed the task that reports the end. -/
theorem sight_shut {i : Nat} {x y : Instance} (hx : m.state.instances[i]? = some x)
    (hy : y.serves? = none) (hlt : i < m.state.engine.workers.length)
    (hbusy : (m.state.engine.spawned i (.close i)).busy? b = m.state.engine.busy? b) :
    (m.having { m.state with
      instances := m.state.instances.modify i fun _ => y
      engine := m.state.engine.spawned i (.close i) }).sight a b =
        let v := { m.sight a b with
          serves := fun k => if k = i then none else (m.sight a b).serves k }
        if i = b then v.spawn .close else v := by
  have houtlook : (m.having { m.state with
      instances := m.state.instances.modify i fun _ => y
      engine := m.state.engine.spawned i (.close i) }).outlook b =
        if b = i then ((m.sight a b).spawn .close).worker else m.outlook b :=
    outlook_spawn (t := .close i) (Engine.State.worker_spawned hlt _ b) hbusy fun _ _ => rfl
  have hunserved : ∀ k, ((m.having { m.state with
      instances := m.state.instances.modify i fun _ => y
      engine := m.state.engine.spawned i (.close i) }).sight a b).serves k =
        if k = i then none else (m.sight a b).serves k := by
    intro k
    simp only [sight, serves?, having, getElem?_modify_const hx]
    by_cases hk : k = i
    · simp [hk, hy]
    · simp [hk]
  by_cases hb : i = b
  · rw [if_pos hb.symm] at houtlook
    simp only [if_pos hb]
    exact Sight.ext houtlook rfl rfl (funext hunserved) (List.length_modify ..) rfl rfl rfl rfl
      (aim_eq hidle (aim_idle m a b hidle))
  · rw [if_neg (Ne.symm hb)] at houtlook
    simp only [if_neg hb]
    exact Sight.ext houtlook rfl rfl (funext hunserved) (List.length_modify ..) rfl rfl rfl rfl
      (aim_eq hidle (aim_idle m a b hidle))

include h

theorem sight_create (ha : a < m.state.instances.length) (c : Nat) (options : Options) :
    (m.act (.create c options)).sight a b = (m.sight a b).create b c options := by
  simp only [act, State.create, Sight.create]
  cases hvalid : options.validate with
  | error fault => rfl
  | ok u =>
    simp only [State.connect, hvalid, State.note_host]
    split
    · rfl
    · refine Sight.ext ?_ rfl rfl (funext fun k => ?_) (by simp [sight, having]) rfl rfl rfl rfl
        (aim_eq hidle (aim_idle m a b hidle))
      · exact outlook_create h.sane rfl (List.append_nil _).symm
      · simp only [sight, serves?, having, List.getElem?_append]
        by_cases hk : k < m.state.instances.length
        · simp [hk, Nat.ne_of_lt hk]
        · by_cases hlast : k = m.state.instances.length
          · have hne : m.state.instances.length ≠ a := Nat.ne_of_gt ha
            simp [hlast, Instance.serves?, hne]
          · have hpast : k - m.state.instances.length ≠ 0 := by omega
            simp [hk, hlast, hpast]

theorem sight_accepted {executor : Option Nat} {i c : Nat} {request : Request}
    {response : Engine.Response} {responses : List Engine.Response} {cookie : Cookie} (hi : i ≠ a)
    (hserves : m.serves? i = some c)
    (hresponses : (m.state.engine.connector c).responses = response :: responses)
    (hengine : m'.state.engine = (m.state.engine.accepting c request responses).spawned i
      (.promote c (m.state.engine.connector c).operations.length response .fresh
        ⟨m.state.results.length, cookie⟩))
    (hinstances : m'.state.instances = m.state.instances)
    (hresults : m'.state.results = m.state.results ++ [({} : QueryResult)])
    (hexecutors : m'.state.executors = m.state.executors)
    (hcall : m'.call = .attaching executor m.state.results.length
      (.memory c (m.state.engine.connector c).operations.length))
    (hhistory : m'.history = m.history ++ [.accepted i
      (.memory c (m.state.engine.connector c).operations.length) m.state.results.length
      m.state.host.issued]) :
    m'.sight a b = (m.sight a b).submit b executor i := by
  obtain ⟨x, hx, hrunning, -⟩ := serves?_eq_some.mp hserves
  obtain ⟨hlt, hstop⟩ := h.sane.orderly.takes hx hrunning
  -- the promotion shows as one that is not decided, since the operation is new
  have hfresh : m.decided c (m.state.engine.connector c).operations.length = false := by
    have hlooked : m.looked c (m.state.engine.connector c).operations.length = false := by
      by_contra hlooked
      obtain ⟨i', r, t, seen, haccepted, -⟩ := looked_iff.mp (Bool.not_eq_false _ ▸ hlooked)
      obtain ⟨⟨c', o', x', heq, -, -, ho⟩, -⟩ := h.sane.accounted.recorded _ haccepted
      cases heq
      exact absurd ho (Nat.lt_irrefl _)
    simp [decided, hlooked, Engine.State.isCancelled]
  have houtlook : m'.outlook b = if b = i then ((m.sight a b).spawn (.promote c
      (m.state.engine.connector c).operations.length response .fresh m.state.results.length
        false)).worker else m.outlook b := by
    rw [← hfresh]
    refine outlook_spawn (m := m) (t := .promote c _ response .fresh ⟨_, cookie⟩) ?_ ?_ fun d o => ?_
    · rw [hengine]
      exact Engine.State.worker_spawned (s := m.state.engine.accepting c request responses) hlt _ b
    · rw [hengine]
      exact (h.sane.orderly.sound.accepting request responses).busy?_spawned hlt hstop _ b
    · rw [decided, decided, looked_accepted h.sane hhistory, hengine]
      exact congrArg (· || _) (Engine.State.isCancelled_accepting request responses d o)
  have hstock := stock_accepted (a := a) (b := b) hresponses hengine
  have hresult := results_accepted (a := a) (b := b) h.sane hresults hhistory
  have hserves' : (m.sight a b).serves i = some c := (if_neg hi).trans hserves
  have hstock' : (m.sight a b).stock c = (response :: responses,
      (m.state.engine.connector c).operations.length) := by
    rw [← hresponses]
    rfl
  have hrest : ∀ k, (m'.sight a b).serves k = (m.sight a b).serves k := fun k => by
    simp only [sight, serves?, hinstances]
  have hcount : (m'.sight a b).count = (m.sight a b).count + 1 := by simp [sight, hresults]
  have hattaching : (m'.sight a b).attaching = some (executor, m.state.results.length,
      .memory c (m.state.engine.connector c).operations.length) := by
    simp [sight, hcall, Call.attaching?]
  have haim : (m'.sight a b).aim = (m.sight a b).aim := by
    rw [aim_idle m a b hidle]
    simp [sight, hcall, Call.aim?]
  have hconnectors : (m'.sight a b).connectors = (m.sight a b).connectors := by
    simp [sight, hengine, Engine.State.spawned, Engine.State.accepting, Engine.State.modifyLoop,
      Engine.State.modifyWorker, Engine.State.modifyConnector]
  simp only [Sight.submit, hserves', hstock']
  by_cases hb : i = b
  · rw [if_pos hb.symm] at houtlook
    rw [if_pos hb]
    exact Sight.ext houtlook (funext hstock) hconnectors (funext hrest)
      (congrArg List.length hinstances) (funext hresult) hcount
      (congrArg (List.map Executor.result) hexecutors) hattaching haim
  · rw [if_neg (Ne.symm hb)] at houtlook
    rw [if_neg hb]
    exact Sight.ext houtlook (funext hstock) hconnectors (funext hrest)
      (congrArg List.length hinstances) (funext hresult) hcount
      (congrArg (List.map Executor.result) hexecutors) hattaching haim

theorem sight_submitted (executor : Option Nat) {i : Nat} (hi : i ≠ a) (request : Request)
    (name : String) (hides : Bool) :
    (m.submitted executor i (.promotion name hides)
      (m.state.submit i request (.promotion name hides))).sight a b =
        (m.sight a b).submit b executor i := by
  have hserves : (m.sight a b).serves i = m.serves? i := if_neg hi
  cases hserves' : m.serves? i with
  | none =>
    obtain ⟨trace, heq⟩ := submitted_unserved h.sane executor request name hides hserves'
    rw [heq]
    simp only [Sight.submit, hserves, hserves']
    rfl
  | some c =>
    have hstock : (m.sight a b).stock c = ((m.state.engine.connector c).responses,
      (m.state.engine.connector c).operations.length) := rfl
    cases hresponses : (m.state.engine.connector c).responses with
    | nil =>
      obtain ⟨host, trace, heq⟩ :=
        submitted_refused h.sane executor request name hides hserves' hresponses
      rw [heq]
      simp only [Sight.submit, hserves, hserves', hstock, hresponses]
      have hnone : ∀ x ∈ [Observation.refused m.state.host.issued],
          x.result? = none ∧ x.looker? = none := by simp
      exact Sight.ext (outlook_append rfl (fun _ _ => rfl) rfl hnone) rfl rfl rfl rfl
        (funext fun r => results_congr (owns_append rfl (by simp) b r) fun howns =>
          List.getElem?_append_left (h.sane.lt_of_owns howns)) (by simp [sight]) rfl rfl
        (aim_eq hidle (aim_idle m a b hidle))
    | cons response responses =>
      obtain ⟨host, trace, cookie, heq⟩ :=
        submitted_accepted h.sane executor request name hides hserves' hresponses
      rw [heq]
      exact sight_accepted h hidle hi hserves' hresponses rfl rfl rfl rfl rfl rfl

theorem sight_next (r : Nat) (name : String) (e : Option Nat) :
    (m.next r (.row name e)).sight a b = (m.sight a b).next r := by
  cases hstream : (m.state.target? r).bind Target.stream? with
  | none =>
    obtain ⟨host, trace, heq⟩ := next_unstarted h.sane name e hstream
    have hnext : (m.sight a b).next r = m.sight a b := by
      unfold Sight.next
      split
      · next k hq =>
        obtain ⟨-, target, htarget, houtline⟩ := target_of_results hq rfl
        rw [htarget] at hstream
        cases target <;> simp_all [QueryResult.outline, Target.stream?]
      · rfl
    rw [hnext, heq]
    have hnone : ∀ x ∈ [Observation.asked r m.state.host.issued none],
        x.result? = none ∧ x.looker? = none := by simp
    exact Sight.ext (outlook_append rfl (fun _ _ => rfl) rfl hnone) rfl rfl rfl rfl
      (funext fun r => results_congr (owns_append rfl (by simp) b r) fun _ => rfl) rfl rfl rfl
      (aim_eq hidle (aim_idle m a b hidle))
  | some k =>
    have htarget : m.state.target? r = some (.active k) := by
      obtain ⟨target, ht, hk⟩ := Option.bind_eq_some_iff.mp hstream
      cases target <;> simp_all [Target.stream?]
    obtain ⟨x, hx⟩ := h.sane.footing.stream r k htarget
    obtain ⟨host, trace, cookie, os, hos, heq⟩ := next_started h.sane name e htarget hx
    have hlt : x.loop < m.state.engine.workers.length :=
      h.sane.accounted.anchored h.sane.orderly htarget hx
    have houtlook : (m.next r (.row name e)).outlook b =
        if b = x.loop then ((m.sight a b).spawn .pull).worker else m.outlook b := by
      refine outlook_spawn (m := m) (t := .pull k cookie) ?_ ?_ fun c o => ?_
      · rw [heq]
        exact Engine.State.worker_submit hlt _ b
      · rw [heq]
        exact h.sane.orderly.sound.busy?_submit hlt _ b
      · rw [heq]
        refine decided_append (fun c o => ?_) rfl (fun x hx => ?_) c o
        · simp only [Engine.State.isCancelled, Engine.State.connector,
            Engine.State.connectors_submit]
        · rcases List.mem_cons.mp hx with rfl | hx
          · exact ⟨rfl, rfl⟩
          · obtain ⟨t, row, rfl⟩ := hos x hx
            exact ⟨rfl, rfl⟩
    -- whose result it is decides about the loop of its stream
    have hnext : (m.sight a b).next r =
        if b = x.loop then (m.sight a b).spawn .pull else m.sight a b := by
      split
      · next hb =>
        have hresult := results_target (a := a) ((h.owner_of_stream htarget hx).mpr hb) htarget
        simp [Sight.next, hresult, QueryResult.outline]
      · next hb =>
        have hnone : (m.sight a b).results r = none :=
          if_neg fun howns => hb ((h.owner_of_stream htarget hx).mp howns)
        simp [Sight.next, hnone]
    have hnone : ∀ o ∈ .asked r m.state.host.issued (some k) :: os, o.result? = none := by
      intro o ho
      rcases List.mem_cons.mp ho with rfl | ho
      · rfl
      · obtain ⟨t, row, rfl⟩ := hos o ho
        rfl
    have hsight : (m.next r (.row name e)).sight a b =
        { m.sight a b with worker := (m.next r (.row name e)).outlook b } := by
      rw [heq]
      exact sight_of_outlook (Engine.State.connectors_submit _ _ _) rfl rfl
        (owns_append rfl hnone b) rfl rfl (aim_eq hidle (aim_idle m a b hidle))
    rw [hsight, houtlook, hnext]
    split <;> rfl

theorem sight_grasp {r : Nat} {target : Target} (e : Option Nat)
    (hgrasp : m.state.grasp r = some target) :
    ({ m with call := .cancelling e r target } : Moment).sight a b = (m.sight a b).grasp r := by
  obtain ⟨htarget, -⟩ := Option.filter_eq_some_iff.mp hgrasp
  have hsight : ({ m with call := .cancelling e r target } : Moment).sight a b =
      (m.sight a b).aimAt (Call.cancelling e r target).aim? :=
    Sight.ext rfl rfl rfl rfl rfl rfl rfl rfl (by simp [sight, hidle, Call.attaching?, Sight.aimAt])
      rfl
  rw [hsight]
  by_cases hopen : ∃ c o, target = .pending (.memory c o) ∧ m.Open b c o
  · obtain ⟨c, o, rfl, hopen⟩ := hopen
    obtain ⟨i, t, haccepted⟩ := h.sane.accounted.known_of_target htarget
    have hresult := results_target (a := a) (h.owner_of_open hopen haccepted).1 htarget
    simp [Sight.grasp, hresult, QueryResult.outline, Call.aim?]
  · rw [aimAt_eq_self hidle fun c o haim ho => hopen ⟨c, o, ?_, ho⟩,
      grasp_eq_self hidle fun c o ht ho => hopen ⟨c, o, ?_, ho⟩]
    · exact Option.some.inj (htarget.symm.trans ht)
    · cases target with
      | pending operation => cases operation <;> simp_all [Call.aim?]
      | empty | active => cases haim

theorem sight_cancel (r : Nat) : (m.act (.cancel r)).sight a b = (m.sight a b).grasp r := by
  simp only [act]
  cases hgrasp : m.state.grasp r with
  | none =>
    refine (grasp_eq_self hidle fun c o htarget => ?_).symm
    simp [State.grasp, htarget] at hgrasp
  | some target => exact sight_grasp h hidle none hgrasp

/-- An executor is cancelled. If it refuses, there is nothing in sight to cancel. -/
theorem sight_executorAbort (e : Nat) :
    (m.act (.executorAbort e)).sight a b = (m.sight a b).act b (.executorAbort e) := by
  simp only [act, Sight.act, sight_executor?, executor?]
  cases hresult : m.state.executors[e]?.bind Executor.result with
  | none => rfl
  | some r =>
    obtain ⟨x, hx, hr⟩ := Option.bind_eq_some_iff.mp hresult
    have hgrasps : m.state.executorGrasp e = if x.canAbort then m.state.grasp r else none := by
      simp [State.executorGrasp, hx, hr]
    rw [Option.map_some, Option.getD_some]
    cases habort : x.canAbort with
    | true =>
      rw [hgrasps, habort, if_pos rfl]
      cases hgrasp : m.state.grasp r with
      | none =>
        refine (grasp_eq_self hidle fun c o htarget => ?_).symm
        simp [State.grasp, htarget] at hgrasp
      | some target => exact sight_grasp h hidle (some e) hgrasp
    | false =>
      rw [hgrasps, habort, if_neg (by simp)]
      refine (grasp_eq_self hidle fun c o htarget hopen => ?_).symm
      obtain ⟨i, t, haccepted⟩ := h.sane.accounted.known_of_target htarget
      exact (h.owner_of_open hopen haccepted).2.1 (h.employed.spent e x r hx habort hr)

/-- A connection that serves is asked to shut down: first the operations of its connector are
cancelled, then a task reports the end. -/
theorem sight_served {i c : Nat} (hserves : m.serves? i = some c) :
    (m.having (m.state.destroy i).2).sight a b =
      let v := { (m.sight a b).abandon c (List.range ((m.sight a b).stock c).2) with
        serves := fun k => if k = i then none else (m.sight a b).serves k }
      if i = b then v.spawn .close else v := by
  obtain ⟨x, hx, heq⟩ := destroy_served h.sane hserves
  obtain ⟨x', hx', hrunning, -⟩ := serves?_eq_some.mp hserves
  obtain rfl := Option.some.inj (hx.symm.trans hx')
  have habandons := m.state.engine.abandons_closing c
  have hlt : i < (m.state.engine.closing c).workers.length := by
    rw [habandons.workers]
    exact (h.sane.orderly.takes hx hrunning).1
  -- a moment in between, with the operations cancelled and the instance still in place
  obtain ⟨m₁, hm₁⟩ : ∃ m₁, m₁ = m.having { m.state with engine := m.state.engine.closing c } :=
    ⟨_, rfl⟩
  have hidle₁ : m₁.call = .idle := by rw [hm₁]; exact hidle
  have hclosing : m₁.sight a b = (m.sight a b).abandon c
      (List.range (m.state.engine.connector c).operations.length) := by
    have hsight : m₁.sight a b = { (m.sight a b).abandon c
        (List.range (m.state.engine.connector c).operations.length) with
          aim := (m₁.sight a b).aim } := by
      rw [hm₁]
      exact sight_abandon h.sane habandons
        (h.sane.orderly.sound.busy?_woken (Engine.State.woken_closing _ c) b) (fun _ _ => rfl) rfl rfl
        (fun _ => rfl) rfl rfl
    rw [hsight, aim_idle m₁ a b hidle₁, ← aim_idle m a b hidle]
    rfl
  have hstock : ((m.sight a b).stock c).2 = (m.state.engine.connector c).operations.length := rfl
  have hshut := sight_shut (m := m₁) (a := a) (b := b) (i := i) (x := x)
    (y := { x with state := .closingNetwork }) hidle₁ (by rw [hm₁]; exact hx) rfl
    (by rw [hm₁]; exact hlt) (by
      rw [hm₁]
      have hstop := (h.sane.orderly.takes hx hrunning).2
      exact (h.sane.orderly.sound.closing c).busy?_spawned hlt
        (((Engine.State.woken_closing m.state.engine c).stopping i).trans hstop) _ b)
  rw [hclosing] at hshut
  rw [heq, hstock]
  rw [hm₁] at hshut
  exact hshut

theorem sight_destroy {i : Nat} (hi : i ≠ a) :
    (m.having (m.state.destroy i).2).sight a b = (m.sight a b).close b i := by
  have hserves : (m.sight a b).serves i = m.serves? i := if_neg hi
  cases hserves' : m.serves? i with
  | none =>
    obtain ⟨trace, heq⟩ := destroy_unserved h.sane hserves'
    rw [heq]
    simp only [Sight.close, hserves, hserves']
    rfl
  | some c =>
    rw [sight_served h hidle hserves']
    simp only [Sight.close, hserves, hserves']

theorem sight_dispatch : (m.having m.state.dispatch.2).sight a b = m.sight a b := by
  obtain ⟨host, trace, executors, heq, hexecutors⟩ := dispatch_eq h.sane
  have hresults : executors.map Executor.result = m.state.executors.map Executor.result := by
    rcases hexecutors with hsame | ⟨t, name, e, -, -, hcomplete⟩
    · rw [hsame]
    · rw [hcomplete]
      exact map_result_modify _ e fun _ => rfl
  rw [heq]
  exact Sight.ext rfl rfl rfl rfl rfl rfl rfl hresults rfl (aim_eq hidle (aim_idle m a b hidle))

/-- A call of the host that is not one on the connection out of sight. -/
theorem sight_act (ha : a < m.state.instances.length) {deed : Deed} (huses : deed.uses a = false) :
    (m.act deed).sight a b = (m.sight a b).act b deed := by
  cases deed with
  | connector => exact sight_connector hidle
  | respond c response => exact sight_respond hidle c response
  | create c options => exact sight_create h hidle ha c options
  | query i request name =>
    exact sight_submitted h hidle none (by simpa [Deed.uses] using huses) request name false
  | next r name => exact sight_next h hidle r name none
  | cancel r => exact sight_cancel h hidle r
  | dropResult r => exact sight_dropResult hidle r
  | executor =>
    exact Sight.ext rfl rfl rfl rfl rfl rfl rfl (by simp [sight, act, having, Sight.act]) rfl
      (aim_eq hidle (aim_idle m a b hidle))
  | executorQuery e i request name =>
    simp only [act, Sight.act, sight_executor?, executor?, State.executorSubmit]
    cases hresult : m.state.executors[e]?.bind Executor.result with
    | some r =>
      have hissued : (m.state.record (.dropped none name)).host.issued = m.state.host.issued := rfl
      simp only [submitted, hissued, if_true, Option.isSome_some]
      rfl
    | none =>
      exact sight_submitted h hidle (some e) (by simpa [Deed.uses] using huses) request name true
  | executorNext e name =>
    simp only [act, Sight.act, sight_executor?, executor?]
    cases hresult : m.state.executors[e]?.bind Executor.result with
    | none =>
      simp only [State.executorNext, hresult]
      rfl
    | some r => exact sight_next h hidle r name (some e)
  | executorAbort e => exact sight_executorAbort h hidle e
  | dropExecutor e =>
    simp only [act, Sight.act, sight_executor?, executor?, State.dropExecutor]
    cases hresult : m.state.executors[e]?.bind Executor.result with
    | none => rfl
    | some r => exact sight_dropResult hidle r
  | destroy i => exact sight_destroy h hidle (by simpa [Deed.uses] using huses)
  | dropConnection i =>
    obtain ⟨trace, heq⟩ := dropConnection_eq h.sane i
    have hdestroy := sight_destroy (b := b) h hidle (i := i) (by simpa [Deed.uses] using huses)
    simp only [act, Sight.act, ← hdestroy, heq]
    rfl
  | dispatch => exact sight_dispatch h hidle

end Act

end Moment

end HostBridge.Session
