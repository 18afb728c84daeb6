import HostBridge.Proofs.Engine.Tasks

/-!
# What a turn of a loop can do

`Turned` lists what can come of a turn: the thread looks at its signals, or the task in front goes to
sleep, or goes on a step, or comes to its end and reports. A promotion is reported as cancelled
exactly if its operation was cancelled when it looked; only otherwise does the scripted response
count.

The other moves of a loop are here too: the end of a delay, and the request to stop.
-/

namespace HostBridge.Engine

/-! ## Answers of a stream -/

namespace Stream

/-- An end touches nothing of a stream but its metadata. -/
theorem publish_eq (x : Stream) :
    x.publish = { x with unpublished := none, metadata := x.unpublished <|> x.metadata } := by
  unfold publish
  split
  · next h => rw [h]; rfl
  · next h =>
    rw [h]
    cases x
    cases h
    rfl

/-- An answer leaves a stream on its loop, and as cancelled as it was. -/
theorem serve_loop (x : Stream) (cancelled : Bool) :
    (x.serve cancelled).2.loop = x.loop ∧ (x.serve cancelled).2.cancelled = x.cancelled := by
  unfold serve
  split
  · split <;> exact ⟨rfl, rfl⟩
  · split
    · rw [publish_eq]; exact ⟨rfl, rfl⟩
    · rw [publish_eq]; exact ⟨rfl, rfl⟩
    · exact ⟨rfl, rfl⟩

/-- To a pull that has not found it cancelled, a stream gives the row in front, and the end when there
is none. -/
theorem serve_false (x : Stream) :
    (x.serve false).1 = x.rows.headD .done ∧ (x.serve false).2.rows = x.rows.tail := by
  unfold serve
  rw [if_neg (by simp)]
  cases hrows : x.rows with
  | nil => exact ⟨rfl, by simp [publish_eq, hrows]⟩
  | cons row rows =>
    cases row with
    | done => exact ⟨rfl, by simp [publish_eq]⟩
    | content bytes e => exact ⟨rfl, rfl⟩
    | failed e => exact ⟨rfl, rfl⟩

end Stream

namespace State

variable {π ρ κ α : Type} {s s' : State π ρ κ} {l key : Nat} {rest : List Nat} {t : Task π ρ κ}

/-! ## A look at the signals -/

/-- The engine after the thread of a loop has looked at its signals. -/
def looked (s : State π ρ κ) (l : Nat) : State π ρ κ :=
  s.modifyWorker l Worker.look

theorem worker_looked (s : State π ρ κ) (l k : Nat) :
    (s.looked l).worker k = s.worker k ∨ k = l ∧ (s.looked l).worker k = (s.worker k).look := by
  rw [looked, worker_modifyWorker]
  split
  · next hk => exact Or.inr ⟨hk.1, by rw [hk.1]⟩
  · exact Or.inl rfl

theorem stopping_looked (s : State π ρ κ) (l k : Nat) :
    ((s.looked l).loop k).stopping = (s.loop k).stopping := by
  rcases worker_looked s l k with h | ⟨-, h⟩
  · rw [loop, h, loop]
  · rw [loop, h, loop, Worker.look_stopping]

theorem tasks_looked (s : State π ρ κ) (l k : Nat) :
    ((s.looked l).loop k).tasks = (s.loop k).tasks := by
  rcases worker_looked s l k with h | ⟨-, h⟩
  · rw [loop, h, loop]
  · rw [loop, h, loop, Worker.look_tasks]

theorem sameJobs_looked (s : State π ρ κ) (l : Nat) : SameJobs s (s.looked l) :=
  SameJobs.of_tasks (by simp [looked]) (tasks_looked s l)

theorem Sound.looked (h : s.Sound) (hmust : (s.worker l).mustLook = true) :
    (s.looked l).Sound := by
  refine h.modifyWorker ((h.loop l).reorder (Worker.look_tasks _) (Worker.look_ready_perm _)) ?_
  rcases Worker.not_found_of_mustLook hmust with hfound | hready | hstage
  · exact .of_found ((Worker.look_found _).trans hfound)
  · intro x hx
    obtain ⟨key, rest, t, hkey, -⟩ := h.engaged l x ((Worker.look_found _).symm.trans hx)
    rw [hready] at hkey
    cases hkey
  · have hlook : (s.worker l).look = s.worker l := by simp [Worker.look, hstage]
    rw [hlook]
    exact h.engaged l

/-! ## Steps of a task -/

theorem sameQueues_checked (s : State π ρ κ) (l : Nat) (cancelled : Bool) :
    SameQueues s (s.checked l cancelled) :=
  .of_modifyWorker rfl (Worker.enter_tasks _ _) rfl (Worker.enter_stopping _ _)
    (Worker.enter_stage _ _)

theorem sameQueues_drawn (s : State π ρ κ) (l i : Nat) (cancelled : Bool) :
    SameQueues s (s.drawn l i cancelled) :=
  .of_modifyWorker rfl rfl rfl rfl rfl

/-- What the thread of a loop has found out, after a change of one loop. -/
theorem found_modifyWorker (hl : l < s.workers.length)
    (f : Worker (Task π ρ κ) → Worker (Task π ρ κ)) (k : Nat) :
    ((s.modifyWorker l f).worker k).found =
      if k = l then (f (s.worker l)).found else (s.worker k).found := by
  rw [worker_modifyWorker]
  by_cases hk : k = l
  · rw [if_pos ⟨hk, hl⟩, if_pos hk]
  · rw [if_neg fun h => hk h.1, if_neg hk]

theorem found_finished (hl : l < s.workers.length) (key : Nat) :
    ((s.finished l key).worker l).found = none :=
  (found_modifyWorker hl _ l).trans ((if_pos rfl).trans (Worker.leave_found _))

theorem found_slept (hl : l < s.workers.length) (key : Nat) (t : Task π ρ κ) :
    ((s.slept l key t).worker l).found = none :=
  (found_modifyWorker hl _ l).trans ((if_pos rfl).trans (Worker.leave_found _))

theorem found_checked (hl : l < s.workers.length) (cancelled : Bool) :
    ((s.checked l cancelled).worker l).found = some (.flag cancelled) :=
  (found_modifyWorker hl _ l).trans (if_pos rfl)

theorem found_drawn (hl : l < s.workers.length) (i : Nat) (cancelled : Bool) :
    ((s.drawn l i cancelled).worker l).found = some (.row (s.answer i cancelled)) :=
  (found_modifyWorker (s := s.modifyStream i _) hl _ l).trans (if_pos rfl)

/-- A thread that is in the middle of a task has nothing else to do. -/
theorem Sound.worker_looked_of_found (h : s.Sound) (hmust : (s.worker l).mustLook = true)
    {x : Finding} (hfound : (s.worker l).found = some x) : (s.looked l).worker l = s.worker l := by
  rcases worker_looked s l l with hsame | ⟨-, hlook⟩
  · exact hsame
  rw [hlook]
  rcases Worker.not_found_of_mustLook hmust with hnone | hready | hstage
  · rw [hnone] at hfound
    cases hfound
  · obtain ⟨key, rest, t, hkey, -⟩ := h.engaged l x hfound
    rw [hready] at hkey
    cases hkey
  · simp [Worker.look, hstage]

/-- A task looks whether it was cancelled, and it was or not. A promotion that still has to sleep does
not look. -/
inductive Checks (s : State π ρ κ) : Task π ρ κ → Bool → Prop
  /-- A promotion looks at its operation. -/
  | promote {c o : Nat} {response : Response} {timer : Timer} {reply : π}
      (hsleep : s.mustSleep c o response timer = false) :
      Checks s (.promote c o response timer reply) (s.isCancelled c o)
  /-- A pull looks at its stream. -/
  | pull {i : Nat} {reply : ρ} : Checks s (.pull i reply) (s.isStreamCancelled i)

theorem Sound.checked {cancelled : Bool} (h : s.Sound) (hready : (s.loop l).ready = key :: rest)
    (htask : (s.loop l).tasks.get? key = some t) (hchecks : s.Checks t cancelled) :
    (s.checked l cancelled).Sound := by
  refine h.modifyWorker ((h.loop l).reorder (Worker.enter_tasks _ _) (List.Perm.refl _)) ?_
  intro x hx
  obtain rfl : Finding.flag cancelled = x := Option.some.inj hx
  refine ⟨key, rest, t, hready, ?_, by cases hchecks <;> exact id⟩
  rw [Worker.enter_tasks]
  exact htask

theorem isStreamCancelled_modifyStream {i : Nat} {f : Stream → Stream}
    (hf : ∀ x, (f x).cancelled = x.cancelled) (k : Nat) :
    (s.modifyStream i f).isStreamCancelled k = s.isStreamCancelled k := by
  simp only [isStreamCancelled, stream?, modifyStream, List.getElem?_modify]
  cases s.streams[k]? with
  | none => simp
  | some x => by_cases hk : i = k <;> simp [hk, hf]

theorem Sound.drawn {i : Nat} {reply : ρ} (h : s.Sound) (hready : (s.loop l).ready = key :: rest)
    (htask : s.job? l key = some (.pull i reply)) (cancelled : Bool) :
    (s.drawn l i cancelled).Sound := by
  have hstream : (s.modifyStream i fun x => (x.serve cancelled).2).Sound :=
    h.congr rfl (fun _ _ => rfl) fun k hk =>
      (isStreamCancelled_modifyStream (fun x => (x.serve_loop cancelled).2) k).trans hk
  obtain ⟨t, ht, huntimed⟩ := Option.map_eq_some_iff.mp htask
  refine hstream.modifyWorker (hstream.loop l) fun x hx => ⟨key, rest, t, hready, ht, ?_⟩
  obtain rfl := Option.some.inj hx
  cases t with
  | pull => trivial
  | promote | close | park => cases huntimed

/-! ## Turns -/

/-- A promotion has come to its end with a stream. -/
def promoted (s : State π ρ κ) (l key c : Nat) (response : Response) : State π ρ κ :=
  { s.finished l key with
    streams := s.streams ++ [.ofRows l response.rows response.metadata]
    connectors := s.connectors.modify c fun x => { x with streams := x.streams ++ [s.streams.length] } }

/-- How a promotion of the connector `c` can end. -/
inductive Settled (s : State π ρ κ) (l key c : Nat) (response : Response) :
    Option Nat → Option EngineError → State π ρ κ → Prop
  /-- It was cancelled when it looked. -/
  | cancelled (h : (s.worker l).found = some (.flag true)) :
      Settled s l key c response none (some .canceled) (s.finished l key)
  /-- It fails with the error of its response. -/
  | failed {e : EngineError} (h : (s.worker l).found = some (.flag false))
      (herror : response.error = some e) :
      Settled s l key c response none (some e) (s.finished l key)
  /-- It makes a stream of the rows of its response. -/
  | promoted (h : (s.worker l).found = some (.flag false)) (herror : response.error = none) :
      Settled s l key c response (some s.streams.length) none (s.promoted l key c response)

/-- What can come of a turn of a loop. -/
inductive Turned (s : State π ρ κ) (l : Nat) : Option (Completion π ρ κ) → State π ρ κ → Prop
  /-- The thread looks at its signals. -/
  | look (hmust : (s.worker l).mustLook = true) : Turned s l none (s.looked l)
  /-- A promotion waits for its delay. -/
  | sleep {key : Nat} {rest : List Nat} {c o : Nat} {response : Response} {timer : Timer} {reply : π}
      (hready : (s.loop l).ready = key :: rest)
      (htask : (s.loop l).tasks.get? key = some (.promote c o response timer reply))
      (hcancelled : s.isCancelled c o = false) :
      Turned s l none (s.slept l key (.promote c o response .armed reply))
  /-- A task looks whether it was cancelled. -/
  | check {key : Nat} {rest : List Nat} {t : Task π ρ κ} {cancelled : Bool}
      (hready : (s.loop l).ready = key :: rest) (htask : (s.loop l).tasks.get? key = some t)
      (hchecks : s.Checks t cancelled) (hfound : (s.worker l).found = none) :
      Turned s l none (s.checked l cancelled)
  /-- A pull takes its row. -/
  | draw {key : Nat} {rest : List Nat} {i : Nat} {reply : ρ} {cancelled : Bool}
      (hready : (s.loop l).ready = key :: rest) (htask : s.job? l key = some (.pull i reply))
      (hfound : (s.worker l).found = some (.flag cancelled)) :
      Turned s l none (s.drawn l i cancelled)
  /-- A promotion comes to its end. -/
  | report {key : Nat} {rest : List Nat} {c o : Nat} {response : Response} {reply : π}
      {stream : Option Nat} {error : Option EngineError} {s' : State π ρ κ}
      (hready : (s.loop l).ready = key :: rest)
      (htask : s.job? l key = some (.promote c o response .fresh reply))
      (hsettled : Settled s l key c response stream error s') :
      Turned s l (some (.promoted reply stream error)) s'
  /-- A pull is answered. -/
  | pull {key : Nat} {rest : List Nat} {i : Nat} {reply : ρ} {row : Row}
      (hready : (s.loop l).ready = key :: rest) (htask : s.job? l key = some (.pull i reply))
      (hfound : (s.worker l).found = some (.row row)) :
      Turned s l (some (.row reply row)) (s.finished l key)
  /-- The end of a cluster is reported. -/
  | close {key : Nat} {rest : List Nat} {reply : κ}
      (hready : (s.loop l).ready = key :: rest) (htask : s.job? l key = some (.close reply)) :
      Turned s l (some (.closed reply)) (s.finished l key)
  /-- The thread is held up. -/
  | park {key : Nat} {rest : List Nat}
      (hready : (s.loop l).ready = key :: rest) (htask : s.job? l key = some .park) :
      Turned s l none (s.parked l key)

/-- However a promotion ends, its task leaves the loop. -/
theorem Settled.workers {c : Nat} {response : Response} {stream : Option Nat}
    {error : Option EngineError} (h : Settled s l key c response stream error s') :
    s'.workers = (s.finished l key).workers := by
  cases h <;> rfl

/-- However a promotion ends, connectors keep their responses and operations. -/
theorem Settled.connector {c : Nat} {response : Response} {stream : Option Nat}
    {error : Option EngineError} (h : Settled s l key c response stream error s') (d : Nat) :
    (s'.connector d).responses = (s.connector d).responses ∧
      (s'.connector d).operations = (s.connector d).operations := by
  cases h with
  | cancelled | failed => exact ⟨rfl, rfl⟩
  | promoted =>
    have hconnector : (s.promoted l key c response).connector d =
        (s.modifyConnector c fun x =>
          { x with streams := x.streams ++ [s.streams.length] }).connector d := rfl
    rw [hconnector, connector_modifyConnector]
    split
    · next hd => rw [hd.1]; exact ⟨rfl, rfl⟩
    · exact ⟨rfl, rfl⟩

/-- A promotion makes its stream on the loop that ran it, of the rows of its response. -/
theorem Settled.stream {c k : Nat} {response : Response} {error : Option EngineError}
    (h : Settled s l key c response (some k) error s') :
    k = s.streams.length ∧ error = none ∧ response.error = none ∧
      s'.streams = s.streams ++ [.ofRows l response.rows response.metadata] := by
  cases h with
  | promoted _ herror => exact ⟨rfl, rfl, herror, rfl⟩

/-- A stream that a promotion makes gets the next number. -/
theorem Settled.range_streams {c : Nat} {response : Response} {stream : Option Nat}
    {error : Option EngineError} (h : Settled s l key c response stream error s') :
    List.range s.streams.length ++ stream.toList = List.range s'.streams.length := by
  cases h with
  | cancelled | failed => exact List.append_nil _
  | promoted => simp [State.promoted, List.range_succ]

/-- The streams after a promotion are the old ones, and perhaps a new one. -/
theorem Settled.stream? {c k : Nat} {response : Response} {stream : Option Nat}
    {error : Option EngineError} {x : Stream} (h : Settled s l key c response stream error s')
    (hx : s'.stream? k = some x) :
    s.stream? k = some x ∨ k = s.streams.length ∧ stream = some k ∧
      x = .ofRows l response.rows response.metadata := by
  cases h with
  | cancelled | failed => exact Or.inl hx
  | promoted =>
    have hx' : (s.streams ++ [.ofRows l response.rows response.metadata])[k]? = some x := hx
    rw [List.getElem?_append] at hx'
    split at hx'
    · exact Or.inl hx'
    · rw [List.getElem?_singleton] at hx'
      split at hx'
      · next hk hzero =>
        have hlength : k = s.streams.length := by omega
        exact Or.inr ⟨hlength, by rw [hlength], (Option.some.inj hx').symm⟩
      · cases hx'

theorem stream?_drawn (s : State π ρ κ) (l i k : Nat) (cancelled : Bool) :
    (s.drawn l i cancelled).stream? k =
      if k = i then (s.stream? i).map fun x => (x.serve cancelled).2 else s.stream? k := by
  simp only [drawn, modifyStream, modifyWorker, State.stream?, List.getElem?_modify]
  by_cases hk : i = k
  · simp [hk]
  · have : ¬ k = i := fun e => hk e.symm
    simp [hk, this]

theorem stream?_cancelStream (s : State π ρ κ) (i k : Nat) : (s.cancelStream i).stream? k =
    if k = i then (s.stream? i).map Stream.cancel else s.stream? k := by
  simp only [cancelStream, modifyStream, State.stream?, List.getElem?_modify]
  by_cases hk : i = k
  · simp [hk]
  · have : ¬ k = i := fun e => hk e.symm
    simp [hk, this]

/-- A promotion that has looked whether it was cancelled comes to its end. -/
theorem runTask_settle {cancelled : Bool} (hfound : (s.worker l).found = some (.flag cancelled))
    (c o : Nat) (response : Response) (timer : Timer) (reply : π) : ∃ stream error s',
      s.runTask l key (.promote c o response timer reply) =
        (some (.promoted reply stream error), s') ∧
      Settled s l key c response stream error s' := by
  simp only [runTask, hfound]
  cases cancelled with
  | true => exact ⟨_, _, _, rfl, .cancelled hfound⟩
  | false =>
    simp only [settle, Bool.false_eq_true, if_false]
    cases herror : response.error with
    | some e => exact ⟨_, _, _, rfl, .failed hfound herror⟩
    | none => exact ⟨_, _, _, rfl, .promoted hfound herror⟩

/-- What the task in front has found out is what such a task looks for. -/
theorem Sound.finds (h : s.Sound) {x : Finding} (hfound : (s.worker l).found = some x)
    (hready : (s.loop l).ready = key :: rest) (htask : (s.loop l).tasks.get? key = some t) :
    s.Finds t x := by
  obtain ⟨key', rest', t', hready', htask', hfinds⟩ := h.engaged l x hfound
  obtain ⟨rfl, rfl⟩ := List.cons_eq_cons.mp (hready.symm.trans hready')
  obtain rfl := Option.some.inj (htask.symm.trans htask')
  exact hfinds

/-- The task in front runs. -/
theorem turned_runTask (h : s.Sound) (hready : (s.loop l).ready = key :: rest)
    (htask : (s.loop l).tasks.get? key = some t) :
    Turned s l (s.runTask l key t).1 (s.runTask l key t).2 := by
  have hjob : s.job? l key = some t.untimed := by rw [job?, htask]; rfl
  cases t with
  | promote c o response timer reply =>
    cases hfound : (s.worker l).found with
    | none =>
      simp only [runTask, hfound]
      split
      · next hsleep =>
        refine .sleep hready htask ?_
        simp only [mustSleep, Bool.and_eq_true, Bool.not_eq_true'] at hsleep
        exact hsleep.1
      · next hsleep => exact .check hready htask (.promote (by simpa using hsleep)) hfound
    | some x =>
      cases x with
      | flag b =>
        obtain ⟨stream, error, s', hrun, hsettled⟩ := runTask_settle hfound c o response timer reply
        rw [hrun]
        exact .report hready hjob hsettled
      | row row => exact (h.finds hfound hready htask).elim
  | pull i reply =>
    cases hfound : (s.worker l).found with
    | none =>
      simp only [runTask, hfound]
      exact .check hready htask .pull hfound
    | some x =>
      cases x with
      | flag b =>
        simp only [runTask, hfound]
        exact .draw hready hjob hfound
      | row row =>
        simp only [runTask, hfound]
        exact .pull hready hjob hfound
  | close reply => exact .close hready hjob
  | park => exact .park hready hjob

theorem turned_turn (h : s.Sound) (l : Nat) : Turned s l (s.turn l).1 (s.turn l).2 := by
  unfold turn
  split
  · next hmust => exact .look hmust
  · next hmust =>
    have hne := (Worker.ready_of_not_mustLook (by simpa using hmust)).1
    obtain ⟨key, rest, hready⟩ := List.exists_cons_of_ne_nil hne
    have hready' : (s.loop l).ready = key :: rest := hready
    obtain ⟨t, ht⟩ := Option.isSome_iff_exists.mp ((h.loop l).full key (by simp [hready']))
    have hfront : (s.loop l).front? = some (key, some t) := by
      simp [Loop.front?, hready', ht]
    simp only [tick, hfront]
    exact turned_runTask h hready' ht

/-! ## The end of a delay -/

section Elapse

variable {c o : Nat} {response : Response} {reply : π}
  (harmed : (s.loop l).tasks.get? key = some (.promote c o response .armed reply))
include harmed

theorem lt_of_armed : l < s.workers.length := by
  have hjob : s.job? l key = some (.promote c o response .fresh reply) := by rw [job?, harmed]; rfl
  exact lt_of_job? hjob

theorem loop_elapse (k : Nat) : (s.elapse l key).loop k =
    if k = l then { s.loop l with tasks := (s.loop l).tasks.modify key Task.elapse }.wake key
    else s.loop k := by
  rw [elapse, modifyLoop, loop_modifyWorker (lt_of_armed harmed)]
  rfl

theorem sameJobs_elapse : SameJobs s (s.elapse l key) := by
  have htasks : ∀ k, ((s.elapse l key).loop k).tasks =
      if k = l then (s.loop l).tasks.modify key Task.elapse else (s.loop k).tasks := by
    intro k
    rw [loop_elapse harmed]
    split
    · rw [Loop.wake_tasks]
    · rfl
  refine SameJobs.of_modify (by simp [elapse, modifyLoop]) htasks fun t ht => ?_
  rw [harmed] at ht
  obtain rfl := Option.some.inj ht
  rfl

theorem stopping_elapse (k : Nat) : ((s.elapse l key).loop k).stopping = (s.loop k).stopping := by
  rw [loop_elapse harmed]
  split
  · next hk => rw [Loop.wake_stopping, hk]
  · rfl

theorem stage_elapse (k : Nat) : ((s.elapse l key).worker k).stage = (s.worker k).stage := by
  rw [elapse, modifyLoop, stage_modifyWorker (lt_of_armed harmed)]
  split
  · next hk => rw [hk]
  · rfl

theorem Sound.elapse (h : s.Sound) : (s.elapse l key).Sound := by
  refine h.modifyWorker ((h.loop l).modify_wake Task.elapse (by simp [harmed])) ?_
  obtain ⟨extra, hextra, -⟩ := exists_foldl_wake [key]
    { s.loop l with tasks := (s.loop l).tasks.modify key Task.elapse }
  rw [List.foldl_cons, List.foldl_nil] at hextra
  refine (h.engaged l).grow rfl (congrArg Loop.ready hextra) fun k t x ht hfinds => ?_
  refine ⟨if k = key then t.elapse else t, ?_, ?_⟩
  · have ht' : (s.loop l).tasks.get? k = some t := ht
    simp only [Loop.wake_tasks, Registry.get?_modify]
    rw [show (s.worker l).loop = s.loop l from rfl, ht']
    split <;> rfl
  · split
    · -- The delay of a task does not matter for what it looks at.
      cases t with
      | promote c o response timer reply => cases timer <;> cases x <;> exact hfinds
      | pull | close | park => exact hfinds
    · exact hfinds

end Elapse

/-! ## The request to stop -/

theorem loop_stop (hl : l < s.workers.length) (k : Nat) :
    (s.stop l).loop k = if k = l then (s.loop l).stop else s.loop k := by
  rw [stop, modifyLoop, loop_modifyWorker hl]
  rfl

theorem stage_stop (s : State π ρ κ) (l k : Nat) :
    ((s.stop l).worker k).stage = (s.worker k).stage := by
  rw [stop, modifyLoop, worker_modifyWorker]
  split
  · next hk => rw [hk.1]
  · rfl

theorem sameJobs_stop (hl : l < s.workers.length) : SameJobs s (s.stop l) := by
  refine SameJobs.of_tasks (by simp [stop, modifyLoop]) fun k => ?_
  rw [loop_stop hl]
  split
  · next hk => rw [hk]; rfl
  · rfl

theorem Sound.stop (h : s.Sound) (l : Nat) : (s.stop l).Sound :=
  h.modifyWorker ((h.loop l).reorder rfl (List.Perm.refl _)) (h.engaged l)

end State

end HostBridge.Engine
