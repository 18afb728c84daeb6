import HostBridge.Proofs.Engine.Turn

/-!
# What requests do to an engine

Requests add responses, operations, loops and connectors, and mark what was cancelled. None of them
takes anything back: `Grows` says that operations and streams stay, that a stream stays on its loop,
and that what was cancelled stays cancelled. Turns keep to that too.
-/

namespace HostBridge.Engine.State

variable {π ρ κ α : Type} {s s' s'' : State π ρ κ} {l key c : Nat}

/-! ## Requests -/

/-- The engine after a query of a connector has taken its response. -/
def accepting (s : State π ρ κ) (c : Nat) (request : Request) (responses : List Response) :
    State π ρ κ :=
  s.modifyConnector c fun x =>
    { x with
      responses
      requests := x.requests ++ [request]
      operations := x.operations ++ [{}] }

theorem lt_connectors_of_responses {response : Response} {responses : List Response}
    (h : (s.connector c).responses = response :: responses) : c < s.connectors.length := by
  by_contra hc
  simp [connector, Nat.le_of_not_lt hc] at h

theorem connector_accepting (hc : c < s.connectors.length) (request : Request)
    (responses : List Response) (d : Nat) :
    (s.accepting c request responses).connector d = if d = c then { s.connector c with
      responses
      requests := (s.connector c).requests ++ [request]
      operations := (s.connector c).operations ++ [{}] } else s.connector d := by
  rw [accepting, connector_modifyConnector]
  by_cases hd : d = c
  · rw [if_pos ⟨hd, hc⟩, if_pos hd]
  · rw [if_neg fun h => hd h.1, if_neg hd]

/-- An operation that is added is not cancelled. -/
theorem cancelled_append (operations : List Operation) (o : Nat) :
    ((operations ++ [({} : Operation)])[o]?.map Operation.cancelled).getD false =
      (operations[o]?.map Operation.cancelled).getD false := by
  rw [List.getElem?_append]
  split
  · rfl
  · next ho =>
    have hnone : operations[o]? = none := List.getElem?_eq_none (Nat.le_of_not_lt ho)
    rw [hnone]
    cases o - operations.length <;> simp

theorem isCancelled_accepting (request : Request) (responses : List Response) (d o : Nat) :
    (s.accepting c request responses).isCancelled d o = s.isCancelled d o :=
  isCancelled_modifyConnector (fun o => cancelled_append _ o) d o

theorem Sound.accepting (h : s.Sound) (request : Request) (responses : List Response) :
    (s.accepting c request responses).Sound :=
  h.congr rfl (isCancelled_accepting request responses) fun _ hi => hi

theorem isCancelled_respond (response : Response) (d o : Nat) :
    (s.respond c response).isCancelled d o = s.isCancelled d o :=
  isCancelled_modifyConnector (fun _ => rfl) d o

theorem connector_respond (hc : c < s.connectors.length) (response : Response) (d : Nat) :
    (s.respond c response).connector d = if d = c then
      { s.connector c with responses := (s.connector c).responses ++ [response] }
    else s.connector d := by
  rw [respond, connector_modifyConnector]
  by_cases hd : d = c
  · rw [if_pos ⟨hd, hc⟩, if_pos hd]
  · rw [if_neg fun h => hd h.1, if_neg hd]

theorem connector_addConnector (s : State π ρ κ) (d : Nat) :
    s.addConnector.2.connector d = s.connector d := by
  simp only [addConnector, connector, List.getD_eq_getElem?_getD, List.getElem?_append]
  split
  · rfl
  · next hd =>
    have hnone : s.connectors[d]? = none := List.getElem?_eq_none (Nat.le_of_not_lt hd)
    rw [hnone]
    cases d - s.connectors.length <;> simp

theorem isCancelled_addConnector (s : State π ρ κ) (d o : Nat) :
    s.addConnector.2.isCancelled d o = s.isCancelled d o := by
  rw [isCancelled, isCancelled, connector_addConnector]

theorem worker_addLoop (s : State π ρ κ) (l : Nat) :
    s.addLoop.2.worker l = if l = s.workers.length then .held else s.worker l := by
  simp only [addLoop, worker, List.getD_eq_getElem?_getD, List.getElem?_append]
  by_cases hl : l < s.workers.length
  · simp [hl, Nat.ne_of_lt hl]
  · by_cases hlast : l = s.workers.length
    · simp [hlast]
    · have hnone : s.workers[l]? = none := List.getElem?_eq_none (Nat.le_of_not_lt hl)
      have : l - s.workers.length ≠ 0 := by omega
      simp [hl, hlast, this]

theorem Sound.addLoop (h : s.Sound) : s.addLoop.2.Sound := by
  intro w hw
  rcases List.mem_append.mp hw with hw | hw
  · exact h w hw
  · rw [List.mem_singleton.mp hw]
    exact ⟨Loop.sound_new.reorder rfl (List.Perm.refl _), .of_found rfl⟩

theorem job?_addLoop (s : State π ρ κ) (l key : Nat) : s.addLoop.2.job? l key = s.job? l key := by
  rw [job?, job?, loop, loop, worker_addLoop]
  split
  · next hl => rw [worker_of_le (Nat.le_of_eq hl.symm)]; rfl
  · rfl

theorem collect_addLoop (f : Task π ρ κ → Option α) (s : State π ρ κ) :
    s.addLoop.2.collect f = s.collect f := by
  simp [collect, addLoop, collectOf, Worker.held, Registry.contents]

/-! ## Nothing is taken back -/

/-- Operations and streams stay, and so do cancellations. -/
structure Grows (s s' : State π ρ κ) : Prop where
  /-- Operations stay. -/
  operations : ∀ c, (s.connector c).operations.length ≤ (s'.connector c).operations.length
  /-- What was cancelled stays cancelled. -/
  cancelled : ∀ c o, s.isCancelled c o = true → s'.isCancelled c o = true
  /-- Streams stay, on their loops, and stay cancelled once they are. -/
  streams : ∀ i x, s.stream? i = some x → ∃ x', s'.stream? i = some x' ∧ x'.loop = x.loop ∧
    (x.cancelled = true → x'.cancelled = true)

namespace Grows

theorem of_connector (hconnector : ∀ c, (s'.connector c).operations = (s.connector c).operations)
    (hstreams : s'.streams = s.streams) : Grows s s' where
  operations c := Nat.le_of_eq (by rw [hconnector])
  cancelled c o h := by
    rw [isCancelled, hconnector]
    exact h
  streams i x h := ⟨x, by rw [stream?, hstreams]; exact h, rfl, id⟩

theorem of_eq (hconnectors : s'.connectors = s.connectors) (hstreams : s'.streams = s.streams) :
    Grows s s' :=
  of_connector (fun c => by rw [connector, connector, hconnectors]) hstreams

theorem refl (s : State π ρ κ) : Grows s s :=
  of_eq rfl rfl

theorem trans (h : Grows s s') (h' : Grows s' s'') : Grows s s'' where
  operations c := Nat.le_trans (h.operations c) (h'.operations c)
  cancelled c o hc := h'.cancelled c o (h.cancelled c o hc)
  streams i x hx := by
    obtain ⟨x', hx', hloop, hcancelled⟩ := h.streams i x hx
    obtain ⟨x'', hx'', hloop', hcancelled'⟩ := h'.streams i x' hx'
    exact ⟨x'', hx'', hloop'.trans hloop, fun hc => hcancelled' (hcancelled hc)⟩

theorem isStreamCancelled (h : Grows s s') {i : Nat} (hi : s.isStreamCancelled i = true) :
    s'.isStreamCancelled i = true := by
  unfold State.isStreamCancelled at hi ⊢
  cases hx : s.stream? i with
  | none => simp [hx] at hi
  | some x =>
    obtain ⟨x', hx', -, hcancelled⟩ := h.streams i x hx
    rw [hx']
    exact hcancelled (by simpa [hx] using hi)

theorem of_woken (h : Woken s s') : Grows s s' where
  operations c := Nat.le_of_eq (h.connector c).2.symm
  cancelled := h.cancelled
  streams i x hx := ⟨x, by rw [stream?, h.streams]; exact hx, rfl, id⟩

/-- A stream changes, but neither its loop nor that it is cancelled. -/
theorem modifyStream {i : Nat} {f : Stream → Stream} (hloop : ∀ x, (f x).loop = x.loop)
    (hcancelled : ∀ x : Stream, x.cancelled = true → (f x).cancelled = true)
    (hconnectors : s'.connectors = s.connectors) (hstreams : s'.streams = s.streams.modify i f) :
    Grows s s' where
  operations c := Nat.le_of_eq (by rw [connector, connector, hconnectors])
  cancelled c o h := by
    rw [isCancelled, connector, hconnectors]
    exact h
  streams k x hx := by
    have hget : s'.stream? k = (s.streams.modify i f)[k]? := by rw [stream?, hstreams]
    rw [List.getElem?_modify] at hget
    rw [stream?] at hx
    by_cases hk : i = k
    · refine ⟨f x, ?_, hloop x, hcancelled x⟩
      simp [hget, hx, hk]
    · refine ⟨x, ?_, rfl, id⟩
      simp [hget, hx, hk]

theorem cancelStream (s : State π ρ κ) (i : Nat) : Grows s (s.cancelStream i) :=
  modifyStream (f := Stream.cancel) (fun _ => rfl) (fun _ _ => rfl) rfl rfl

theorem accepting (request : Request) (responses : List Response) :
    Grows s (s.accepting c request responses) where
  operations d := by
    rw [State.accepting, connector_modifyConnector]
    split
    · next hd => rw [hd.1]; simp
    · exact Nat.le_refl _
  cancelled d o h := by
    rw [isCancelled_accepting]
    exact h
  streams i x hx := ⟨x, hx, rfl, id⟩

theorem respond (response : Response) : Grows s (s.respond c response) := by
  refine of_connector (fun d => ?_) rfl
  rw [State.respond, connector_modifyConnector]
  split
  · next hd => rw [hd.1]
  · rfl

theorem addConnector (s : State π ρ κ) : Grows s s.addConnector.2 :=
  of_connector (fun c => by rw [connector_addConnector]) rfl

end Grows

theorem Grows.drawn (s : State π ρ κ) (l i : Nat) (cancelled : Bool) :
    Grows s (s.drawn l i cancelled) :=
  Grows.modifyStream (fun x => (x.serve_loop cancelled).1)
    (fun x hx => by rw [(x.serve_loop cancelled).2]; exact hx) rfl rfl

theorem Grows.settled {l key c : Nat} {response : Response} {stream : Option Nat}
    {error : Option EngineError} (h : Settled s l key c response stream error s') :
    Grows s s' := by
  have hconnector := fun d => (h.connector d).2
  refine ⟨fun d => Nat.le_of_eq (by rw [hconnector]), fun d o hd => ?_, fun i x hx => ⟨x, ?_, rfl, id⟩⟩
  · rw [isCancelled, hconnector]
    exact hd
  · cases h with
    | cancelled | failed => exact hx
    | promoted =>
      show (s.streams ++ _)[i]? = some x
      exact List.getElem?_append_left (List.getElem?_eq_some_iff.mp hx).1 ▸ hx

/-! ## How the loops change -/

/-- The loops go on with what they have to do: tasks may come to their end, and only those in `new`
are added, on loops that take them. -/
structure Shifts (s s' : State π ρ κ) (new : List (Nat × Task π ρ κ)) : Prop where
  /-- The loops are the same. -/
  length : s'.workers.length = s.workers.length
  /-- No loop is asked to stop. -/
  stopping : ∀ l, (s'.loop l).stopping = (s.loop l).stopping
  /-- No thread gets on. -/
  stage : ∀ l, (s'.worker l).stage = (s.worker l).stage
  /-- A task was there before, or is new. -/
  jobs : ∀ l key t, s'.job? l key = some t →
    s.job? l key = some t ∨ (l, t) ∈ new ∧ (s.loop l).stopping = false

namespace Shifts

variable {new : List (Nat × Task π ρ κ)} {l key : Nat}

theorem of_workers (h : s'.workers = s.workers) : Shifts s s' [] := by
  have hworker : ∀ l, s'.worker l = s.worker l := fun l => by rw [worker, worker, h]
  refine ⟨by rw [h], fun l => ?_, fun l => ?_, fun l key t ht => Or.inl ?_⟩
  · rw [loop, loop, hworker]
  · rw [hworker]
  · rw [job?, loop, hworker] at ht
    exact ht

theorem congr {s'' : State π ρ κ} (h : Shifts s s' new) (hworkers : s''.workers = s'.workers) :
    Shifts s s'' new := by
  have h' := of_workers hworkers
  refine ⟨h'.length.trans h.length, fun l => (h'.stopping l).trans (h.stopping l),
    fun l => (h'.stage l).trans (h.stage l), fun l key t ht => ?_⟩
  rcases h'.jobs l key t ht with ht | ⟨ht, -⟩
  · exact h.jobs l key t ht
  · simp at ht

theorem of_sameQueues (h : SameQueues s s') : Shifts s s' [] where
  length := h.length
  stopping := h.stopping
  stage := h.stage
  jobs l key _ ht := Or.inl (h.sameJobs.job? l key ▸ ht)

theorem of_woken (h : Woken s s') : Shifts s s' [] where
  length := h.length
  stopping := h.stopping
  stage := h.stage
  jobs l key _ ht := Or.inl ((SameJobs.of_tasks h.length h.tasks).job? l key ▸ ht)

theorem slept {t : Task π ρ κ} (ht : s.job? l key = some t.untimed) :
    Shifts s (s.slept l key t) [] where
  length := (sameJobs_slept (lt_of_job? ht) ht).length
  stopping := stopping_slept (lt_of_job? ht) t
  stage := stage_slept (lt_of_job? ht) t
  jobs k key' _ hu := Or.inl ((sameJobs_slept (lt_of_job? ht) ht).job? k key' ▸ hu)

theorem elapse {c o : Nat} {response : Response} {reply : π}
    (harmed : (s.loop l).tasks.get? key = some (.promote c o response .armed reply)) :
    Shifts s (s.elapse l key) [] where
  length := (sameJobs_elapse harmed).length
  stopping := stopping_elapse harmed
  stage := stage_elapse harmed
  jobs k key' _ hu := Or.inl ((sameJobs_elapse harmed).job? k key' ▸ hu)

theorem finished {t : Task π ρ κ} (ht : s.job? l key = some t) : Shifts s (s.finished l key) [] where
  length := by simp [State.finished]
  stopping := stopping_finished (lt_of_job? ht)
  stage := stage_finished (lt_of_job? ht)
  jobs k key' u hu := by
    rw [job?_finished (lt_of_job? ht)] at hu
    split at hu
    · cases hu
    · exact Or.inl hu

theorem spawned (h : s.Sound) (hl : l < s.workers.length) (hstop : (s.loop l).stopping = false)
    (t : Task π ρ κ) : Shifts s (s.spawned l t) [(l, t.untimed)] where
  length := by simp [State.spawned, modifyLoop]
  stopping k := by
    rw [loop_spawned hl hstop]
    split
    · next hk => rw [hk]
    · rfl
  stage k := by
    rw [State.spawned, modifyLoop, stage_modifyWorker hl]
    split
    · next hk => rw [hk]
    · rfl
  jobs k key u hu := by
    rw [job?_spawned hl hstop h] at hu
    split at hu
    · next hk =>
      obtain rfl := Option.some.inj hu
      rw [hk.1]
      exact Or.inr ⟨List.mem_singleton.mpr rfl, hstop⟩
    · exact Or.inl hu

theorem trans {s'' : State π ρ κ} (h : Shifts s s' []) (h' : Shifts s' s'' new) :
    Shifts s s'' new where
  length := h'.length.trans h.length
  stopping l := (h'.stopping l).trans (h.stopping l)
  stage l := (h'.stage l).trans (h.stage l)
  jobs l key t ht := by
    rcases h'.jobs l key t ht with ht | ⟨ht, hstop⟩
    · rcases h.jobs l key t ht with ht | ⟨ht, -⟩
      · exact Or.inl ht
      · simp at ht
    · exact Or.inr ⟨ht, h.stopping l ▸ hstop⟩

end Shifts

end HostBridge.Engine.State
