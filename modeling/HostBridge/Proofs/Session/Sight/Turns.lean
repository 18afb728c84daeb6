import HostBridge.Proofs.Session.Sight.Calls

/-!
# Turns in sight

Everything but the calls of the host: the second half of a call, the turns of the loops, the ends of
delays and the reapers. What the loop of another connection does is out of sight, except that it
could promote a query, and then the result is not one of ours. The loop in sight goes through the
same motions as its tasks do in full, since a sight keeps all that decides about the next task.

Together with the calls this gives `sight_perform`: an event that is not a call on the connection
out of sight does to a sight what the sight itself can tell.
-/

namespace HostBridge.Session

open Bridge (Cookie)

namespace Moment

variable {m m' : Moment} {a b : Nat}

/-! ## The host goes on -/

theorem map_result_attach (xs : List Executor) (e r : Nat) :
    (xs.modify e fun _ => ⟨some r, .started⟩).map Executor.result =
      (xs.map Executor.result).modify e fun _ => some r := by
  refine List.ext_getElem? fun k => ?_
  rw [List.getElem?_map, List.getElem?_modify, List.getElem?_modify, List.getElem?_map]
  cases xs[k]? with
  | none => rfl
  | some x => by_cases hk : e = k <;> simp [hk]

/-- A result learns of the operation of its query, and an executor of its result. -/
theorem sight_attach {e : Option Nat} {r : Nat} {operation : Operation} {trace : List Occurrence}
    {executors : List Executor}
    (hexecutors : executors.map Executor.result = match e with
      | none => m.state.executors.map Executor.result
      | some e => (m.state.executors.map Executor.result).modify e fun _ => some r)
    (hcall : m.call = .attaching e r operation) :
    ({ m with
      state := { m.state with
        trace, executors
        results := m.state.results.modify r fun q =>
          { q with target := q.target.setOperation operation } }
      call := .idle } : Moment).sight a b = (m.sight a b).resume := by
  have hattaching : (m.sight a b).attaching = some (e, r, operation) := by
    simp [sight, hcall, Call.attaching?]
  have haim : (m.sight a b).aim = none := by simp [sight, hcall, Call.aim?]
  simp only [Sight.resume, hattaching]
  refine Sight.ext rfl rfl rfl rfl rfl (results_modify (fun _ => rfl) rfl fun q => ?_)
    (List.length_modify ..) hexecutors rfl haim.symm
  obtain ⟨target, alive⟩ := q
  cases target <;> rfl

theorem sight_strike (h : m.Regular) {e : Option Nat} {r : Nat} {target : Target}
    {executors : List Executor} (hcall : m.call = .cancelling e r target)
    (hexecutors : executors.map Executor.result = m.state.executors.map Executor.result) :
    ({ m with
      state := { m.state.strike target with executors }
      call := .idle
      history := m.history ++ [.cancelled r target] } : Moment).sight a b =
        (m.sight a b).resume := by
  have hattaching : (m.sight a b).attaching = none := by simp [sight, hcall, Call.attaching?]
  have hnone : ∀ x ∈ [Observation.cancelled r target], x.result? = none ∧ x.looker? = none := by simp
  have howns : ∀ m' : Moment, m'.history = m.history ++ [.cancelled r target] →
      ∀ k, m'.owns b k = m.owns b k :=
    fun m' heq => owns_append heq (fun x hx => (hnone x hx).1) b
  -- streams do not decide about promotions, so only an operation can be in sight
  by_cases hmemory : ∃ c o, target = .pending (.memory c o)
  · obtain ⟨c, o, rfl⟩ := hmemory
    have haim : (m.sight a b).aim =
        if has (Chore.isOpen c o) (m.outlook b) then some (c, o) else none := by
      simp only [sight, hcall, Call.aim?, Option.filter]
    have hsight : ({ m with
        state := { m.state.strike (.pending (.memory c o)) with executors }
        call := .idle
        history := m.history ++ [.cancelled r (.pending (.memory c o))] } : Moment).sight a b =
          { (m.sight a b).abandon c [o] with aim := none } :=
      sight_abandon h.sane (m.state.engine.abandons_cancelOperation c o)
        (h.sane.orderly.sound.busy?_woken (Engine.State.woken_cancelOperation _ c o) b)
        (looked_append rfl hnone) rfl rfl (howns _ rfl) hexecutors hattaching.symm
    rw [hsight]
    by_cases hopen : m.Open b c o
    · rw [if_pos (has_isOpen.mpr hopen)] at haim
      simp only [Sight.resume, hattaching, haim]
    · rw [if_neg fun hhas => hopen (has_isOpen.mp hhas)] at haim
      have hself : (m.sight a b).abandon c [o] = m.sight a b :=
        h.abandon_eq_self fun p hp => List.mem_singleton.mp hp ▸ hopen
      have hresume : (m.sight a b).resume = m.sight a b := by
        simp only [Sight.resume, hattaching, haim]
      rw [hself, hresume, ← haim]
  · have haim : (m.sight a b).aim = none := by
      cases target with
      | pending operation => cases operation <;> simp_all [sight, Call.aim?]
      | empty | active => simp [sight, hcall, Call.aim?]
    have hresume : (m.sight a b).resume = m.sight a b := by
      simp only [Sight.resume, hattaching, haim]
    rw [hresume]
    have hsame : ∀ m' : Moment, m'.state.engine.worker b = m.state.engine.worker b →
        (∀ c o, m'.state.engine.isCancelled c o = m.state.engine.isCancelled c o) →
        m'.history = m.history ++ [.cancelled r target] → m'.outlook b = m.outlook b :=
      fun m' hworker hcancelled hhistory => outlook_append hworker hcancelled hhistory hnone
    cases target with
    | pending operation =>
      cases operation with
      | memory c o => exact absurd ⟨c, o, rfl⟩ hmemory
      | manual c o =>
        exact Sight.ext (hsame _ rfl (fun _ _ => rfl) rfl) rfl rfl rfl rfl
          (funext fun k => results_congr (howns _ rfl k) fun _ => rfl) rfl hexecutors
          hattaching.symm haim.symm
    | empty | active =>
      exact Sight.ext (hsame _ rfl (fun _ _ => rfl) rfl) rfl rfl rfl rfl
        (funext fun k => results_congr (howns _ rfl k) fun _ => rfl) rfl hexecutors
        hattaching.symm haim.symm

theorem sight_resume (h : m.Regular) : m.resume.sight a b = (m.sight a b).resume := by
  unfold resume
  split
  · next hcall =>
    simp [Sight.resume, sight, hcall, Call.attaching?, Call.aim?]
  · next r operation hcall =>
    simp only [State.attach, State.note_host, State.modifyResult]
    exact sight_attach rfl hcall
  · next e r operation hcall =>
    simp only [State.executorAttach, State.attach, State.note_host, State.modifyResult,
      State.modifyExecutor]
    exact sight_attach (map_result_attach _ e r) hcall
  · next r target hcall =>
    exact sight_strike h hcall (congrArg (List.map Executor.result) (strike_executors _ _))
  · next e r target hcall =>
    refine sight_strike h hcall ?_
    rw [strike_executors]
    exact map_result_modify _ e fun _ => rfl

/-! ## Turns -/

theorem state_shutting (m : Moment) (x : Instance) : (m.shutting x).state ≠ .running := by
  unfold shutting
  split <;> simp [Instance.detach]

theorem serves?_modify {i : Nat} {f : Instance → Instance}
    (hsame : ∀ x, m.state.instances[i]? = some x → (f x).serves? = x.serves?)
    (hinstances : m'.state.instances = m.state.instances.modify i f) (k : Nat) :
    m'.serves? k = m.serves? k := by
  rw [serves?, serves?, hinstances, List.getElem?_modify]
  cases hx : m.state.instances[k]? with
  | none => rfl
  | some x =>
    by_cases hk : i = k
    · subst hk
      simp [hsame x hx]
    · simp [hk]

/-- What runs next is in sight. -/
theorem Sane.sight_front? (hsane : m.Sane) : (m.sight a b).front? =
    (m.state.engine.front? b).map fun (key, t) => (key, Chore.ofTask m.decided t) := by
  have hmust : (m.sight a b).worker.mustLook = (m.state.engine.worker b).mustLook :=
    hsane.mustLook_outlook b
  have hfront : (m.sight a b).worker.loop.front? = (m.state.engine.loop b).front?.map fun (key, t) =>
      (key, t.map (Chore.ofTask m.decided)) := Loop.front?_map _ _
  simp only [Sight.front?, Engine.State.front?, hmust, hfront]
  split
  · rfl
  · cases (m.state.engine.loop b).front? with
    | none => rfl
    | some front =>
      obtain ⟨key, t⟩ := front
      cases t <;> rfl

/-- What the task in front has found out is in sight. -/
theorem found_sight {key : Nat} {t : Task} (hfront : m.state.engine.front? b = some (key, t)) :
    (m.sight a b).worker.found =
      (m.state.engine.worker b).found.map fun x => Chore.veil (t.untimed, x) := by
  obtain ⟨-, rest, hready, -⟩ := Engine.State.front?_eq_some.mp hfront
  have hjob := Engine.State.job?_of_front? hfront
  simp only [sight, outlook]
  cases hfound : (m.state.engine.worker b).found with
  | none => rw [Engine.State.busy?_of_idle hfound]; rfl
  | some x => rw [Engine.State.busy?_of_found hfound hready hjob]; rfl

/-- As long as a promotion has not looked, only a cancellation can have decided it. -/
theorem Regular.decided_of_idle (h : m.Regular) {key c o : Nat} {response : Engine.Response}
    {timer : Engine.Timer} {p : Promotion}
    (hfront : m.state.engine.front? b = some (key, .promote c o response timer p))
    (hfound : (m.state.engine.worker b).found = none) :
    m.decided c o = m.state.engine.isCancelled c o := by
  obtain ⟨-, rest, -, ht⟩ := Engine.State.front?_eq_some.mp hfront
  have hlooked : m.looked c o = false := by
    by_contra hlooked
    obtain ⟨x, -, hx, -⟩ := h.front_of_looked ht (Bool.not_eq_false _ ▸ hlooked)
    cases hfound.symm.trans hx
  rw [decided, hlooked, Bool.or_false]

/-- A promotion waits or not, in sight as well. -/
theorem waits_eq_mustSleep (c o : Nat) (response : Engine.Response) (timer : Engine.Timer) :
    Chore.waits response timer (m.state.engine.isCancelled c o) =
      m.state.engine.mustSleep c o response timer := by
  unfold Chore.waits Engine.State.mustSleep
  cases timer <;> cases response.delay <;> rfl

/-- What is reported of a promotion is in sight. -/
theorem reported_of_settled {l key c : Nat} {response : Engine.Response} {stream : Option Nat}
    {error : Option EngineError} {engine : Engine.State Promotion Cookie Nat} {seen : Bool}
    (h : m.state.engine.Settled l key c response stream error engine)
    (hfound : (m.state.engine.worker l).found = some (.flag seen)) :
    Sight.reported l response seen = (stream.bind engine.stream?, error) := by
  cases h with
  | cancelled hseen =>
    obtain rfl : seen = true := by simpa using hfound.symm.trans hseen
    rfl
  | failed hseen herror =>
    obtain rfl : seen = false := by simpa using hfound.symm.trans hseen
    simp [Sight.reported, herror]
  | promoted hseen herror =>
    obtain rfl : seen = false := by simpa using hfound.symm.trans hseen
    simp [Sight.reported, herror, Engine.State.promoted, Engine.State.stream?]

theorem outlook_eq {w : Worker Task} {x : Option (Task × Finding)}
    (hworker : m'.state.engine.worker b = w) (hbusy : m'.state.engine.busy? b = x)
    (hdecided : ∀ c o, m'.decided c o = m.decided c o) :
    m'.outlook b = { w.map (Chore.ofTask m.decided) with found := x.map Chore.veil } := by
  rw [outlook, hworker, hbusy, funext fun c => funext (hdecided c)]

/-- The outlook after the thread has left the task in front, and something has become of its loop. -/
theorem outlook_leave (hsane : m.Sane) {f : Loop Task → Loop Task} {g : Loop Chore → Loop Chore}
    (hworker : m'.state.engine.worker b = { (m.state.engine.worker b).leave with
      loop := f (m.state.engine.worker b).leave.loop })
    (hdecided : ∀ c o, m'.decided c o = m.decided c o)
    (hcomm : (f (m.state.engine.worker b).leave.loop).map (Chore.ofTask m.decided) =
      g ((m.state.engine.worker b).leave.loop.map (Chore.ofTask m.decided))) :
    m'.outlook b = { (m.outlook b).leave with loop := g (m.outlook b).leave.loop } := by
  have hleft : (m.state.engine.worker b).leave.found = none := Worker.leave_found _
  have hidle : m'.state.engine.busy? b = none :=
    Engine.State.busy?_of_idle (by rw [hworker]; exact hleft)
  rw [outlook_eq hworker hidle hdecided, hsane.leave_outlook]
  simp only [Worker.map, hcomm, hleft, Option.map_none]

theorem outlook_finish (hsane : m.Sane) {key : Nat} {t : Task}
    (hfront : m.state.engine.front? b = some (key, t))
    (hworkers : m'.state.engine.workers = (m.state.engine.finished b key).workers)
    (hdecided : ∀ c o, m'.decided c o = m.decided c o) :
    m'.outlook b = ((m.sight a b).finish key).worker := by
  refine outlook_leave (f := fun l => l.finish key) (g := fun l => l.finish key) hsane ?_ hdecided
    (Loop.finish_map _ _ key).symm
  have hlt := Engine.State.lt_of_front? hfront
  rw [Engine.State.worker, hworkers]
  exact (Engine.State.worker_modifyWorker ..).trans (if_pos ⟨rfl, hlt⟩)

section Turn

variable (h : m.Regular) (l : Nat)
include h

/-- A turn concerns the loop and one result. -/
theorem Regular.sight_turned : (m.perform (.turn l)).sight a b = { m.sight a b with
    worker := (m.perform (.turn l)).outlook b
    results := ((m.perform (.turn l)).sight a b).results
    aim := ((m.perform (.turn l)).sight a b).aim } := by
  have hturned := Engine.State.turned_turn h.sane.orderly.sound l
  generalize hturn : m.state.engine.turn l = turned at hturned
  obtain ⟨completion, engine⟩ := turned
  have hconnector : ∀ d, (engine.connector d).responses = (m.state.engine.connector d).responses ∧
      (engine.connector d).operations.length = (m.state.engine.connector d).operations.length :=
    fun d => ⟨(hturned.connector d).1, congrArg List.length (hturned.connector d).2⟩
  have hconnectors : engine.connectors.length = m.state.engine.connectors.length :=
    hturned.connectors
  cases completion with
  | none =>
    rw [turn_silent hturn]
    exact sight_keep hconnector hconnectors (fun _ => rfl) rfl rfl rfl rfl
  | some completion =>
    cases completion with
    | promoted p stream error =>
      obtain ⟨host, alive, heq⟩ := turn_promoted h.sane hturn
      rw [heq]
      exact sight_keep hconnector hconnectors (fun _ => rfl) rfl (List.length_modify ..) rfl rfl
    | row cookie row =>
      obtain ⟨host, heq⟩ := turn_answered h.sane hturn
      rw [heq]
      exact sight_keep hconnector hconnectors (fun _ => rfl) rfl rfl rfl rfl
    | closed i =>
      rcases turn_closed hturn with ⟨x, hx, hclosing, heq⟩ | ⟨-, heq⟩
      · rw [heq]
        refine sight_keep hconnector hconnectors (serves?_modify (fun y hy => ?_) rfl)
          (List.length_modify ..) rfl rfl rfl
        obtain rfl := Option.some.inj (hx.symm.trans hy)
        simp [Instance.serves?, hclosing, state_shutting m x]
      · rw [heq]
        exact sight_keep hconnector hconnectors (fun _ => rfl) rfl rfl rfl rfl

/-- What happens on one loop decides about no operation of another. -/
theorem Regular.looked_turn (hl : l ≠ b) {key c o : Nat} {response : Engine.Response}
    {timer : Engine.Timer} {p : Promotion}
    (ht : (m.state.engine.loop b).tasks.get? key = some (.promote c o response timer p)) :
    (m.perform (.turn l)).looked c o = m.looked c o := by
  have hjob : m.state.engine.job? b key = _ := congrArg (Option.map Engine.Task.untimed) ht
  have hdue := (h.sane.orderly.due b key _ hjob).1
  have hhistory : (m.perform (.turn l)).history = m.history ++ m.state.glimpse l ++
      m.state.observe (m.state.engine.turn l).1 := rfl
  rw [Bool.eq_iff_iff, looked_iff, looked_iff, hhistory]
  constructor
  · rintro ⟨i, r, t, seen, haccepted, hchecked⟩
    have hold : .accepted i (.memory c o) r t ∈ m.history := by
      rcases List.mem_append.mp haccepted with hbefore | hobserved
      · rcases List.mem_append.mp hbefore with hold | hglimpse
        · exact hold
        · obtain ⟨_, _, hlook⟩ := State.exists_of_mem_glimpse hglimpse
          cases hlook
      · unfold State.observe at hobserved
        split at hobserved <;> simp at hobserved
    refine ⟨i, r, t, seen, hold, ?_⟩
    rcases List.mem_append.mp hchecked with hbefore | hobserved
    · rcases List.mem_append.mp hbefore with hchecked | hglimpse
      · exact hchecked
      · -- the task that looks has a ticket of its own, and is on another loop
        obtain ⟨⟨t', seen'⟩, hglance, hlook⟩ :=
          Option.bind_eq_some_iff.mp (Option.mem_toList.mp hglimpse)
        obtain ⟨cookie, hcookie, hsame⟩ := Option.map_eq_some_iff.mp hlook
        obtain ⟨key', hjob'⟩ := Engine.State.exists_job?_of_glance? hglance
        obtain rfl := h.ledger.operation_unique hold hdue
        obtain ⟨-, -, rfl⟩ := h.ledger.accepted_unique hold hdue
        have hsame : cookie.ticket = p.cookie.ticket := (Observation.checked.inj hsame).1
        exact absurd (h.ledger.place_unique h.sane hjob' hjob ((cookie?_untimed t').trans hcookie)
          rfl hsame).1 hl
    · unfold State.observe at hobserved
      split at hobserved <;> simp at hobserved
  · rintro ⟨i, r, t, seen, haccepted, hchecked⟩
    exact ⟨i, r, t, seen, by simp [haccepted], by simp [hchecked]⟩

theorem sight_turn_ne (hl : l ≠ b) : (m.perform (.turn l)).sight a b = m.sight a b := by
  have hturned := Engine.State.turned_turn h.sane.orderly.sound l
  have hlooked : ∀ key c o response timer p,
      (m.state.engine.loop b).tasks.get? key = some (.promote c o response timer p) →
      (m.perform (.turn l)).looked c o = m.looked c o :=
    fun _ _ _ _ _ _ ht => h.looked_turn l hl ht
  have houtlook : (m.perform (.turn l)).state.engine.worker b = m.state.engine.worker b →
      (∀ c o, (m.perform (.turn l)).state.engine.isCancelled c o =
        m.state.engine.isCancelled c o) → (m.perform (.turn l)).outlook b = m.outlook b :=
    fun hworker hcancelled => outlook_congr hworker fun key c o response timer p ht => by
      rw [decided, decided, hcancelled, hlooked key c o response timer p ht]
  generalize hturn : m.state.engine.turn l = turned at hturned
  obtain ⟨completion, engine⟩ := turned
  have hworker : engine.worker b = m.state.engine.worker b := hturned.worker_ne (Ne.symm hl)
  suffices hparts : (m.perform (.turn l)).outlook b = m.outlook b ∧
      ((m.perform (.turn l)).sight a b).results = (m.sight a b).results by
    obtain ⟨houtlook, hresults⟩ := hparts
    have haim : ((m.perform (.turn l)).sight a b).aim = (m.sight a b).aim := by
      simp only [sight, houtlook]
      rfl
    rw [h.sight_turned l, houtlook, hresults, haim]
    rfl
  cases completion with
  | none =>
    rw [turn_silent hturn] at houtlook ⊢
    refine ⟨houtlook hworker hturned.isCancelled, funext fun r =>
      results_congr (owns_append rfl (fun x hx => ?_) b r) fun _ => rfl⟩
    obtain ⟨_, _, rfl⟩ := State.exists_of_mem_glimpse hx
    rfl
  | some completion =>
    cases completion with
    | promoted p stream error =>
      obtain ⟨host, alive, heq⟩ := turn_promoted h.sane hturn
      rw [heq] at houtlook ⊢
      refine ⟨houtlook hworker hturned.isCancelled, funext fun r =>
        results_congr (owns_append rfl (by simp) b r) fun howns => ?_⟩
      -- a promotion on another loop is one of a query of its own instance
      have hne : p.result ≠ r := by
        rintro rfl
        obtain ⟨operation, t, haccepted⟩ := owns_iff.mp howns
        cases hturned with
        | report _ htask _ =>
          have hdue := (h.sane.orderly.due l _ _ htask).1
          exact hl (h.ledger.accepted_unique hdue haccepted).1
      simp [hne]
    | row cookie row =>
      obtain ⟨host, heq⟩ := turn_answered h.sane hturn
      rw [heq] at houtlook ⊢
      exact ⟨houtlook hworker hturned.isCancelled,
        funext fun r => results_congr (owns_append rfl (by simp) b r) fun _ => rfl⟩
    | closed i =>
      rcases turn_closed hturn with ⟨x, hx, hclosing, heq⟩ | ⟨-, heq⟩
      · rw [heq] at houtlook ⊢
        refine ⟨houtlook ?_ hturned.isCancelled, rfl⟩
        -- the loop that is asked to stop is the one that reports, and that is not ours
        have hloop : x.loop = l := by
          cases hturned with
          | close _ htask => exact (h.sane.orderly.loop i x hx).trans (h.closers l _ i htask).1
        rw [← hworker]
        exact (Engine.State.worker_modifyWorker ..).trans
          (if_neg fun hb => hl (hloop.symm.trans hb.1.symm))
      · rw [heq] at houtlook ⊢
        exact ⟨houtlook hworker hturned.isCancelled, rfl⟩

end Turn

/-! ## Turns of the loop in sight -/

/-- What a turn does to the tasks and to the results in sight. -/
def Advances (m : Moment) (a b : Nat) : Prop :=
  (m.perform (.turn b)).outlook b = ((m.sight a b).advance b).worker ∧
    ((m.perform (.turn b)).sight a b).results = ((m.sight a b).advance b).results

theorem advances_look (h : m.Regular) (hmust : (m.state.engine.worker b).mustLook = true) :
    m.Advances a b := by
  have hfront' : (m.sight a b).front? = none := by
    rw [h.sane.sight_front?, Engine.State.front?, if_pos hmust]
    rfl
  have hinstances : (m.sight a b).instances = m.state.engine.workers.length :=
    h.sane.orderly.workers.symm
  rw [Advances, perform_quiet (Engine.State.turn_of_mustLook hmust)
    (Engine.State.glance?_of_mustLook hmust)]
  simp only [Sight.advance, hfront', hinstances]
  split
  · next hlt =>
    refine ⟨?_, rfl⟩
    have hworker : (m.state.engine.looked b).worker b = (m.state.engine.worker b).look :=
      (Engine.State.worker_modifyWorker ..).trans (if_pos ⟨rfl, hlt⟩)
    have hbusy := h.sane.orderly.sound.busy?_looked hmust b
    have hlook : (m.outlook b).look = _ := Worker.look_found_eq _ _
    rw [Worker.look_map] at hlook
    exact (outlook_eq hworker hbusy fun _ _ => rfl).trans hlook.symm
  · next hlt =>
    refine ⟨outlook_congr ?_ fun _ _ _ _ _ _ _ => rfl, rfl⟩
    exact (Engine.State.worker_modifyWorker ..).trans (if_neg fun hb => hlt hb.2)

/-- The task in front looks, and stays where it is. What is decided then shows. -/
theorem outlook_enter (hsane : m.Sane) {key : Nat} {t : Task} {x : Finding} {v : Worker Chore}
    (hfront : m.state.engine.front? b = some (key, t))
    (hworker : m'.state.engine.worker b = (m.state.engine.worker b).enter x)
    (hv : v = { (m.state.engine.worker b).map (Chore.ofTask m'.decided) with
      found := (m.state.engine.busy? b).map Chore.veil }) :
    m'.outlook b = v.enter (Chore.veil (t.untimed, x)) := by
  obtain ⟨-, rest, hready, ht⟩ := Engine.State.front?_eq_some.mp hfront
  have hbusy : m'.state.engine.busy? b = some (t.untimed, x) := by
    refine Engine.State.busy?_eq_some.mpr ⟨by rw [hworker]; rfl, key, rest, ?_, ?_⟩
    · rw [Engine.State.loop, hworker]
      exact hready
    · rw [Engine.State.job?, Engine.State.loop, hworker, Worker.enter_tasks]
      exact Engine.State.job?_of_front? hfront
  have hsome : ((m.state.engine.busy? b).map Chore.veil).isSome =
      ((m.state.engine.worker b).map (Chore.ofTask m'.decided)).found.isSome := hsane.isSome_found b
  have henter := Worker.enter_found_eq hsome (Chore.veil (t.untimed, x))
  rw [outlook, hworker, hbusy, hv]
  refine Eq.trans ?_ henter.symm
  rw [Worker.enter_map]
  rfl

section Pull

variable {key k : Nat} {cookie : Cookie} (h : m.Regular)
  (hfront : m.state.engine.front? b = some (key, .pull k cookie))
include h hfront

/-- The look of a pull decides about no operation. -/
theorem Regular.decided_of_pull (hfound : (m.state.engine.worker b).found = none) :
    (m.perform (.turn b)).decided = m.decided := by
  obtain ⟨⟨r, hasked⟩, -⟩ := h.sane.orderly.due b key _ (Engine.State.job?_of_front? hfront)
  rw [perform_check hfront hfound .pull rfl]
  funext c o
  refine congrArg (m.state.engine.isCancelled c o || ·) ?_
  rw [Bool.eq_iff_iff, looked_iff, looked_iff]
  constructor
  · rintro ⟨i, r', t, seen', haccepted, hchecked⟩
    have hold : .accepted i (.memory c o) r' t ∈ m.history := by simpa using haccepted
    rcases List.mem_append.mp hchecked with hchecked | hnew
    · exact ⟨i, r', t, seen', hold, hchecked⟩
    · obtain ⟨rfl, -⟩ := Observation.checked.inj (List.mem_singleton.mp hnew)
      cases h.ledger.ticket_unique hold hasked rfl rfl
  · rintro ⟨i, r', t, seen', haccepted, hchecked⟩
    exact ⟨i, r', t, seen', by simp [haccepted], by simp [hchecked]⟩

theorem advances_pull : m.Advances a b := by
  have hfront' : (m.sight a b).front? = some (key, .pull) := by
    rw [h.sane.sight_front?, hfront]
    rfl
  have hseen := found_sight (a := a) hfront
  obtain ⟨-, rest, hready, ht⟩ := Engine.State.front?_eq_some.mp hfront
  have hlt := Engine.State.lt_of_front? hfront
  cases hfound : (m.state.engine.worker b).found with
  | none =>
    rw [hfound] at hseen
    have heq := perform_check hfront hfound .pull rfl
    simp only [Advances, Sight.advance, hfront', hseen, Option.map_none]
    constructor
    · refine Eq.trans (outlook_enter (x := .flag (m.state.engine.isStreamCancelled k))
        (v := m.outlook b) h.sane hfront ?_ ?_) rfl
      · rw [heq]
        exact (Engine.State.worker_modifyWorker ..).trans (if_pos ⟨rfl, hlt⟩)
      · rw [h.decided_of_pull hfront hfound]
        rfl
    · rw [heq]
      exact funext fun r => results_congr (owns_append rfl (by simp) b r) fun _ => rfl
  | some x =>
    rw [hfound] at hseen
    cases x with
    | flag seen =>
      have hglance : m.state.engine.glance? b = none :=
        Engine.State.glance?_eq_none (Or.inr (by simp [hfound]))
      rw [Advances, perform_quiet (Engine.State.turn_draw hfront hfound) hglance]
      simp only [Sight.advance, hfront', hseen]
      refine ⟨?_, rfl⟩
      have hworker : (m.state.engine.drawn b k seen).worker b = { m.state.engine.worker b with
          found := some (.row (m.state.engine.answer k seen)) } :=
        (Engine.State.worker_modifyWorker ..).trans (if_pos ⟨rfl, hlt⟩)
      have hbusy := Engine.State.busy?_drawn hlt hready (Engine.State.job?_of_front? hfront) k seen b
      rw [if_pos rfl] at hbusy
      exact Eq.trans (outlook_eq hworker hbusy fun _ _ => rfl) rfl
    | row row =>
      obtain ⟨host, heq⟩ := turn_answered h.sane (Engine.State.turn_pull hfront hfound)
      rw [Advances, heq]
      simp only [Sight.advance, hfront', hseen]
      exact ⟨outlook_finish h.sane hfront rfl (decided_append (fun _ _ => rfl) rfl (by simp)),
        funext fun r => results_congr (owns_append rfl (by simp) b r) fun _ => rfl⟩

end Pull

theorem advances_close (h : m.Regular) {key i : Nat}
    (hfront : m.state.engine.front? b = some (key, .close i)) : m.Advances a b := by
  have hfront' : (m.sight a b).front? = some (key, .close) := by
    rw [h.sane.sight_front?, hfront]
    rfl
  have hjob := Engine.State.job?_of_front? hfront
  have hlt := Engine.State.lt_of_job? hjob
  obtain ⟨rfl, x, hx, hrunning⟩ := h.closers b key i hjob
  have hturn := Engine.State.turn_close hfront
  rw [Advances]
  simp only [Sight.advance, hfront']
  rcases turn_closed hturn with ⟨y, hy, -, heq⟩ | ⟨hclosed, heq⟩
  · rw [heq, h.sane.orderly.loop i y hy]
    refine ⟨outlook_leave (f := fun l => (l.finish key).stop) (g := fun l => (l.finish key).stop)
      h.sane ?_ (fun _ _ => rfl) (congrArg Loop.stop (Loop.finish_map _ _ key).symm), rfl⟩
    have hfinished : (m.state.engine.finished i key).worker i =
        { (m.state.engine.worker i).leave with
          loop := (m.state.engine.worker i).leave.loop.finish key } :=
      (Engine.State.worker_modifyWorker ..).trans (if_pos ⟨rfl, hlt⟩)
    have hlt' : i < (m.state.engine.finished i key).workers.length := by
      rw [Engine.State.finished, Engine.State.length_modifyWorker]
      exact hlt
    refine (Engine.State.worker_modifyWorker ..).trans ((if_pos ⟨rfl, hlt'⟩).trans ?_)
    rw [hfinished]
  · -- the loop was asked to stop before
    have hstopping : ((m.sight a i).worker.leave.loop.finish key).stopping = true := by
      refine (Worker.leave_stopping _).trans ((h.sane.orderly.stopping i x hx).mpr ?_)
      have hclosing := hclosed x hx
      cases hstate : x.state <;> simp_all
    rw [heq, Loop.stop_of_stopping hstopping]
    exact ⟨outlook_finish h.sane hfront rfl fun _ _ => rfl, rfl⟩

section Promote

variable {key c o : Nat} {response : Engine.Response} {timer : Engine.Timer} {p : Promotion}
  (h : m.Regular) (hfront : m.state.engine.front? b = some (key, .promote c o response timer p))
include h hfront

theorem Regular.sight_front?_promote : (m.sight a b).front? = some (key, .promote c o response timer p.result
    (m.decided c o)) := by
  rw [h.sane.sight_front?, hfront]
  rfl

/-- The promotion in front decides its operation when it looks. -/
theorem Regular.decided_of_check (hfound : (m.state.engine.worker b).found = none)
    (hsleep : m.state.engine.mustSleep c o response timer = false) (d q : Nat) :
    (m.perform (.turn b)).decided d q = (m.decided d q || (d == c && [o].contains q)) := by
  have hdue := (h.sane.orderly.due b key _ (Engine.State.job?_of_front? hfront)).1
  have hlooked : (m.perform (.turn b)).looked d q =
      (m.looked d q || (d == c && [o].contains q)) := by
    rw [perform_check hfront hfound (.promote hsleep) rfl, Bool.eq_iff_iff, Bool.or_eq_true,
      looked_iff, looked_iff]
    constructor
    · rintro ⟨i, r, t, seen', haccepted, hchecked⟩
      have hold : .accepted i (.memory d q) r t ∈ m.history := by simpa using haccepted
      rcases List.mem_append.mp hchecked with hchecked | hnew
      · exact Or.inl ⟨i, r, t, seen', hold, hchecked⟩
      · obtain ⟨rfl, -⟩ := Observation.checked.inj (List.mem_singleton.mp hnew)
        have hentry := h.ledger.ticket_unique hold hdue rfl rfl
        simp only [Observation.accepted.injEq, Operation.memory.injEq] at hentry
        exact Or.inr (by simp [hentry.2.1.1, hentry.2.1.2])
    · rintro (⟨i, r, t, seen', haccepted, hchecked⟩ | hself)
      · exact ⟨i, r, t, seen', by simp [haccepted], by simp [hchecked]⟩
      · obtain ⟨rfl, rfl⟩ : d = c ∧ q = o := by simpa using hself
        exact ⟨b, _, _, m.state.engine.isCancelled d q, List.mem_append_left _ hdue, by simp⟩
  have hcancelled := (Engine.State.turned_turn h.sane.orderly.sound b).isCancelled d q
  have hengine : (m.perform (.turn b)).state.engine = (m.state.engine.turn b).2 := by
    rw [perform_check hfront hfound (.promote hsleep) rfl,
      Engine.State.turn_check hfront hfound (.promote hsleep)]
  rw [decided, decided, hlooked, hengine, hcancelled, Bool.or_assoc]

theorem advances_promote : m.Advances a b := by
  have hfront' := h.sight_front?_promote (a := a) hfront
  have hseen := found_sight (a := a) hfront
  have hlt := Engine.State.lt_of_front? hfront
  cases hfound : (m.state.engine.worker b).found with
  | none =>
    rw [hfound] at hseen
    rw [h.decided_of_idle hfront hfound] at hfront'
    cases hsleep : m.state.engine.mustSleep c o response timer with
    | true =>
      rw [Advances, perform_quiet (Engine.State.turn_sleep hfront hfound hsleep)
        (Engine.State.glance?_of_mustSleep hfront hfound hsleep)]
      simp only [Sight.advance, hfront', hseen, Option.map_none, waits_eq_mustSleep, hsleep, if_true]
      refine ⟨outlook_leave (f := fun l => l.sleep key (.promote c o response .armed p))
        (g := fun l => l.sleep key (.promote c o response .armed p.result
          (m.state.engine.isCancelled c o))) h.sane ?_ (fun _ _ => rfl) ?_, rfl⟩
      · exact (Engine.State.worker_modifyWorker ..).trans (if_pos ⟨rfl, hlt⟩)
      · rw [← h.decided_of_idle hfront hfound]
        exact (Loop.sleep_map (Chore.ofTask _) _ key (.promote ..)).symm
    | false =>
      have heq := perform_check hfront hfound (.promote hsleep) rfl
      simp only [Advances, Sight.advance, hfront', hseen, Option.map_none, waits_eq_mustSleep, hsleep,
        Bool.false_eq_true, if_false]
      constructor
      · refine Eq.trans (outlook_enter (v := Worker.map (Chore.mark c [o]) (m.outlook b)) h.sane
          hfront ?_ ?_) rfl
        · rw [heq]
          exact (Engine.State.worker_modifyWorker ..).trans (if_pos ⟨rfl, hlt⟩)
        · simp only [outlook, Worker.map, Loop.map_map]
          refine congrArg (Worker.mk · _ _ _) (Loop.map_congr fun key u _ => ?_)
          cases u with
          | promote d q response' timer' p' =>
            simp only [Chore.ofTask, Chore.mark, h.decided_of_check hfront hfound hsleep]
          | pull | close | park => rfl
      · rw [heq]
        exact funext fun r => results_congr (owns_append rfl (by simp) b r) fun _ => rfl
  | some x =>
    rw [hfound] at hseen
    cases x with
    | flag seen =>
      obtain ⟨stream, error, engine, hturn, hsettled⟩ := Engine.State.turn_settle hfront hfound
      obtain ⟨host, alive, heq⟩ := turn_promoted h.sane hturn
      have hcancelled : ∀ c o, engine.isCancelled c o = m.state.engine.isCancelled c o :=
        fun c o => by simp only [Engine.State.isCancelled, (hsettled.connector c).2]
      rw [Advances, heq]
      simp only [Sight.advance, hfront', hseen, Option.map_some, Engine.Task.untimed, Chore.veil,
        reported_of_settled hsettled hfound]
      constructor
      · rw [Sight.promote_keep]
        exact outlook_finish h.sane hfront hsettled.workers
          (decided_append hcancelled rfl (by simp))
      · cases stream with
        | none =>
          refine funext fun r => results_congr (owns_append rfl (by simp) b r) fun _ => ?_
          rw [List.getElem?_modify]
          cases m.state.results[r]? <;> simp [promoting_none]
        | some k =>
          obtain ⟨x, hx⟩ : ∃ x, engine.stream? k = some x := by
            cases hsettled with
            | promoted => exact ⟨_, List.getElem?_concat_length ..⟩
          simp only [Sight.promote, Option.bind_some, hx]
          refine results_modify (owns_append rfl (by simp) b) rfl fun q => ?_
          obtain ⟨target, alive⟩ := q
          cases alive <;> cases target <;> rfl
    | row row =>
      obtain ⟨-, rest, hready, ht⟩ := Engine.State.front?_eq_some.mp hfront
      exact (h.sane.orderly.sound.finds hfound hready ht).elim

end Promote

/-! ## Events -/

/-- An operation that is no aim now is none later. So an aim can be forgotten once it is lost. -/
theorem aim_event (h : m.Regular) {event : Event} (hcall : (m.perform event).call = m.call) :
    ((m.perform event).sight a b).aim = (m.sight a b).aim.filter fun (c, o) =>
      has (Chore.isOpen c o) ((m.perform event).outlook b) := by
  simp only [sight, hcall]
  cases haim : m.call.aim? with
  | none => rfl
  | some operation =>
    obtain ⟨c, o⟩ := operation
    cases hopen : has (Chore.isOpen c o) ((m.perform event).outlook b) with
    | false =>
      cases hbefore : has (Chore.isOpen c o) (m.outlook b) <;>
        simp [Option.filter_some, hopen, hbefore]
    | true =>
      -- the aim was accepted before, so its promotion is not a new one and was open then
      obtain ⟨e, r, hcancelling⟩ := Call.aim?_eq_some.mp haim
      obtain ⟨-, i, t, haccepted⟩ := h.sane.accounted.cancelling e r _ hcancelling
      obtain ⟨⟨c', o', x, heq, -, -, ho⟩, -⟩ := h.sane.accounted.recorded _ haccepted
      cases heq
      have hbefore := has_isOpen.mpr (h.sane.open_of_event event ho (has_isOpen.mp hopen))
      simp [Option.filter_some, hopen, hbefore]

theorem sight_turn (h : m.Regular) : (m.perform (.turn b)).sight a b = (m.sight a b).turn b := by
  have hadvances : m.Advances a b := by
    cases hmust : (m.state.engine.worker b).mustLook with
    | true => exact advances_look h hmust
    | false =>
      obtain ⟨key, t, hfront⟩ := h.sane.orderly.sound.exists_front? hmust
      cases t with
      | promote c o response timer p => exact advances_promote h hfront
      | pull k cookie => exact advances_pull h hfront
      | close i => exact advances_close h hfront
      | park => exact (h.sane.orderly.due b key _ (Engine.State.job?_of_front? hfront)).elim
  obtain ⟨houtlook, hresults⟩ := hadvances
  rw [h.sight_turned b, aim_event h rfl, houtlook, hresults, Sight.turn, Sight.advance_keep]
  rfl

theorem sight_elapse_armed (h : m.Regular) {key c o : Nat} {response : Engine.Response}
    {p : Promotion} (harmed : (m.state.engine.loop b).tasks.get? key =
      some (.promote c o response .armed p)) :
    (m.perform (.elapse b key)).sight a b = (m.sight a b).elapse key := by
  have hperform : m.perform (.elapse b key) =
      m.having { m.state with engine := m.state.engine.elapse b key } := by
    simp only [perform, harmed]
  have harmed' : (m.sight a b).worker.loop.tasks.get? key =
      some (.promote c o response .armed p.result (m.decided c o)) :=
    (get?_outlook m b key).trans (by rw [harmed]; rfl)
  have houtlook : (m.perform (.elapse b key)).outlook b =
      { (m.sight a b).worker with loop := { (m.sight a b).worker.loop with
        tasks := (m.sight a b).worker.loop.tasks.modify key Chore.elapse }.wake key } := by
    rw [hperform]
    refine (outlook_eq ((Engine.State.worker_modifyWorker ..).trans
      (if_pos ⟨rfl, Engine.State.lt_of_armed harmed⟩))
      (h.sane.orderly.sound.busy?_elapse harmed b) fun _ _ => rfl).trans ?_
    refine congrArg (Worker.mk · _ _ _) ((Loop.wake_map _ _ key).symm.trans ?_)
    refine congrArg (Loop.wake · key) (congrArg (Loop.mk · _ _ _ _ _) ?_)
    refine (Registry.modify_map _ _ key fun t ht => ?_).symm
    obtain rfl := Option.some.inj (harmed.symm.trans ht)
    rfl
  have hcall : (m.perform (.elapse b key)).call = m.call := by rw [hperform]; rfl
  have haim := aim_event (a := a) (b := b) h hcall
  have hkeep : (m.perform (.elapse b key)).sight a b = { m.sight a b with
      worker := (m.perform (.elapse b key)).outlook b
      aim := ((m.perform (.elapse b key)).sight a b).aim } := by
    rw [hperform]
    exact sight_keep (fun _ => ⟨rfl, rfl⟩) rfl (fun _ => rfl) rfl rfl rfl rfl
  simp only [Sight.elapse, harmed']
  rw [hkeep, haim, houtlook]
  rfl

theorem sight_elapse (h : m.Regular) (l key : Nat) :
    (m.perform (.elapse l key)).sight a b = (m.sight a b).perform b (.elapse l key) := by
  by_cases harmed : ∃ c o response p, (m.state.engine.loop l).tasks.get? key =
      some (.promote c o response .armed p)
  · obtain ⟨c, o, response, p, harmed⟩ := harmed
    simp only [Sight.perform]
    split
    · next hl =>
      subst hl
      exact sight_elapse_armed h harmed
    · next hl =>
      have houtlook : (m.having { m.state with
          engine := m.state.engine.elapse l key }).outlook b = m.outlook b := by
        refine outlook_congr ?_ fun _ _ _ _ _ _ _ => rfl
        exact (Engine.State.worker_modifyWorker ..).trans (if_neg fun hb => hl hb.1.symm)
      simp only [perform, harmed]
      refine Sight.ext houtlook rfl rfl rfl rfl rfl rfl rfl rfl ?_
      simp only [sight, houtlook]
      rfl
  · have hperform : m.perform (.elapse l key) = m := by
      simp only [perform]
      split
      · next c o response p ht => exact absurd ⟨c, o, response, p, ht⟩ harmed
      · rfl
    rw [hperform]
    simp only [Sight.perform]
    split
    · next hl =>
      subst hl
      unfold Sight.elapse
      split
      · next c o response r cancelled ht =>
        obtain ⟨t, ht', hchore⟩ := Option.map_eq_some_iff.mp ((get?_outlook m l key).symm.trans ht)
        cases t with
        | promote c' o' response' timer p =>
          cases timer with
          | armed => exact absurd ⟨c', o', response', p, ht'⟩ harmed
          | fresh | elapsed => cases hchore
        | pull | close | park => cases hchore
      · rfl
    · rfl

theorem sight_reap (h : m.Regular) (i : Nat) :
    (m.perform (.reap i)).sight a b = m.sight a b := by
  simp only [perform, State.reap]
  cases hx : m.state.instances[i]? with
  | none => rfl
  | some x =>
    refine sight_keep (fun _ => ⟨rfl, rfl⟩) rfl (serves?_modify (fun y hy => ?_) rfl)
      (List.length_modify ..) rfl rfl rfl
    obtain ⟨hconnector, -, hstate | ⟨hreleased, hdestroyed⟩⟩ :=
      Instance.reap_spec y (m.state.threadEnded x.loop)
    · simp only [Instance.serves?, hconnector, hstate]
    · -- a reaper is at work only when the cluster is closed, so the instance did not serve before
      have hpast := h.sane.orderly.reaper i y hy (by simp [hreleased])
      rcases hpast with hjoining | hgone
      · simp [Instance.serves?, hjoining, hdestroyed]
      · simp [Instance.serves?, hgone, hdestroyed]

/-- What an event does to what is in sight is in sight. -/
theorem sight_perform (h : m.Regular) (ha : a < m.state.instances.length) {event : Event}
    (huses : event.uses a = false) (htakes : m.takes event = true) :
    (m.perform event).sight a b = (m.sight a b).perform b event := by
  cases event with
  | act deed =>
    have hidle : m.call = .idle := by
      cases hcall : m.call <;> simp_all [takes]
    have hperform : m.perform (.act deed) = m.act deed := by simp only [perform, hidle]
    rw [hperform]
    exact sight_act h hidle ha huses
  | resume => exact sight_resume h
  | turn l =>
    simp only [Sight.perform]
    split
    · next hl =>
      subst hl
      exact sight_turn h
    · next hl => exact sight_turn_ne h l hl
  | elapse l key => exact sight_elapse h l key
  | reap i => exact sight_reap h i
  | reapers fault => rfl

end Moment

end HostBridge.Session
