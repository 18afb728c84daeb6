import HostBridge.Proofs.Bridge.Frames
import HostBridge.Proofs.Bridge.Weight
import Mathlib.Data.Fintype.Order
import Mathlib.Logic.Relation

/-!
# A poll drains the host

Every message of an open host takes a callback out of its slot, so as long as nothing is registered
the slots bound the messages that a poll dispatches, however many of them its callbacks and the
cookies that these let go of add to the queue. `Drains` says what a step does to the slots in that
case, and `Underway` what holds from the call of a poll to its return.
-/

namespace HostBridge.Bridge

/-- The host thread took a message from the queue. -/
def Occurrence.isDispatch : Occurrence → Bool
  | logged (.callbackInvoked _) | logged (.callbackReleased _) | logged (.callbackMissing ..)
  | logged (.lateCallDropped _) => true
  | _ => false

/-- The number of messages that have been dispatched. -/
def dispatched (trace : List Occurrence) : Nat :=
  trace.countP Occurrence.isDispatch

/-- The action neither registers a callback nor tears the host down or lets go of it. -/
def Action.isTame : Action → Bool
  | register .. | teardown | dropHost => false
  | _ => true

/-- What a callback that runs has left to do. -/
def Frame.script : Frame → List Action
  | running _ _ script _ _ => script
  | _ => []

@[simp]
theorem Frame.script_bare (frame : Frame) : frame.bare.script = frame.script := by
  cases frame <;> rfl

/-! ## Ownership among callbacks -/

namespace Host

/-- The callback of one registration waits in its slot and owns an armed cookie of another one. -/
def Owns (h : Host Callback Work) (owner ticket : Nat) : Prop :=
  ∃ e ∈ h.registry.contents, e.ticket = owner ∧
    ∃ c ∈ e.callback.owns, c.isArmed = true ∧ c.ticket = ticket

/-- No callback owns itself, not even through others. -/
def Acyclic (h : Host Callback Work) : Prop :=
  ∀ ticket, ¬ Relation.TransGen h.Owns ticket ticket

theorem Acyclic.mono {h h' : Host Callback Work} (hacyclic : h.Acyclic)
    (hsub : ∀ e ∈ h'.registry.contents, e ∈ h.registry.contents) : h'.Acyclic := by
  have howns : ∀ a b, h'.Owns a b → h.Owns a b := fun _ _ ⟨e, he, hcookie⟩ => ⟨e, hsub e he, hcookie⟩
  exact fun ticket hcycle => hacyclic ticket (Relation.TransGen.mono howns _ _ hcycle)

/-- Callbacks that own the cookies of older ones only make no cycle. -/
theorem acyclic_of_lt {h : Host Callback Work}
    (hlt : ∀ e ∈ h.registry.contents, ∀ c ∈ e.callback.owns, c.ticket < e.ticket) : h.Acyclic := by
  have howns : ∀ a b, h.Owns a b → b < a := by
    rintro _ _ ⟨e, he, rfl, c, hc, -, rfl⟩
    exact hlt e he c hc
  have htrans : ∀ a b, Relation.TransGen h.Owns a b → b < a := by
    intro a b hpath
    induction hpath with
    | single hstep => exact howns _ _ hstep
    | tail _ hstep ih => exact Nat.lt_trans (howns _ _ hstep) ih
  exact fun ticket hcycle => Nat.lt_irrefl _ (htrans _ _ hcycle)

/-- Where ownership has no cycles, callbacks that all have an owner among them are none. -/
theorem Acyclic.contents_eq_nil {h : Host Callback Work} (hacyclic : h.Acyclic)
    (howned : ∀ e ∈ h.registry.contents, ∃ owner ∈ h.registry.contents,
      h.Owns owner.ticket e.ticket) : h.registry.contents = [] := by
  by_contra hne
  obtain ⟨e, he⟩ := List.exists_mem_of_ne_nil _ hne
  let Registered := { ticket : Nat // ticket ∈ h.registry.contents.map Entry.ticket }
  let below : Registered → Registered → Prop := fun a b => Relation.TransGen h.Owns a b
  have : IsTrans Registered below := ⟨fun _ _ _ => Relation.TransGen.trans⟩
  have : Std.Irrefl below := ⟨fun a => hacyclic a⟩
  have : Finite Registered := List.finite_toSet _
  have hwf : WellFounded below := Finite.wellFounded_of_trans_of_irrefl below
  -- a callback without an owner
  obtain ⟨⟨ticket, hticket⟩, -, hmin⟩ :=
    hwf.has_min Set.univ ⟨⟨e.ticket, List.mem_map_of_mem he⟩, Set.mem_univ _⟩
  obtain ⟨top, htop, rfl⟩ := List.mem_map.mp hticket
  obtain ⟨owner, howner, howns⟩ := howned top htop
  exact hmin ⟨owner.ticket, List.mem_map_of_mem howner⟩ (Set.mem_univ _) (.single howns)

end Host

namespace State

variable {callbacks : List Callback} {s t u : State} {n : Nat}

/-- The actions that running and registered callbacks have left to do. -/
def scripts (s : State) : List Action :=
  s.stack.flatMap Frame.script ++ s.host.registry.contents.flatMap fun e => e.callback.script

/-- The action that a running callback takes next. -/
def next? (s : State) : Option Action :=
  match s.stack, s.answer with
  | .running _ _ (a :: _) _ _ :: _, none => some a
  | _, _ => none

theorem mem_scripts_of_next? {a : Action} (h : a ∈ s.next?) : a ∈ s.scripts := by
  unfold next? at h
  split at h
  · next hstack _ =>
    obtain rfl := Option.mem_some_iff.mp h
    simp [scripts, hstack, Frame.script]
  · cases h

/-! ## What a step does to the slots -/

/-- What may become of a state when nothing is registered and the host is not torn down: each
message that is dispatched takes a callback out of its slot, and nothing else does. -/
structure Drains (s t : State) : Prop where
  /-- The host stays open, or closed. -/
  closed : t.host.closed = s.host.closed
  /-- The program keeps the host. -/
  held : t.held = s.held
  /-- One callback leaves its slot with each message. -/
  balance : dispatched t.trace + t.host.pending = dispatched s.trace + s.host.pending
  /-- No callback is new. -/
  contents : ∀ e ∈ t.host.registry.contents, e ∈ s.host.registry.contents
  /-- No cookie gets into the table. -/
  cookies : ∀ c ∈ t.cookies.map Prod.snd, c ∈ s.cookies.map Prod.snd
  /-- Nothing is left to do that was not before. -/
  scripts : ∀ a ∈ t.scripts, a ∈ s.scripts

theorem Drains.refl (s : State) : Drains s s :=
  ⟨rfl, rfl, rfl, fun _ h => h, fun _ h => h, fun _ h => h⟩

theorem Drains.trans {r : State} (h : Drains r s) (h' : Drains s t) : Drains r t where
  closed := h'.closed.trans h.closed
  held := h'.held.trans h.held
  balance := h'.balance.trans h.balance
  contents e he := h.contents e (h'.contents e he)
  cookies c hc := h.cookies c (h'.cookies c hc)
  scripts a ha := h.scripts a (h'.scripts a ha)

theorem drains_record {o : Occurrence} (ho : o.isDispatch = false) (s : State) :
    Drains s (s.record o) := by
  refine ⟨rfl, rfl, ?_, fun _ h => h, fun _ h => h, fun _ h => h⟩
  simp [record, dispatched, ho]

theorem drains_releaseAll (s : State) (cs : List Cookie) : Drains s (s.releaseAll cs) := by
  have hregistry : (s.releaseAll cs).host.registry = s.host.registry :=
    Host.releaseAll_registry s.host cs
  refine ⟨Host.releaseAll_closed s.host cs, rfl, ?_, ?_, fun _ h => h, ?_⟩
  · rw [Host.pending, hregistry]
    rfl
  · rw [hregistry]
    exact fun _ h => h
  · rw [State.scripts, hregistry]
    exact fun _ h => h

theorem drains_discard (s : State) (e : Entry Callback) : Drains s (s.discard e) :=
  (drains_record (o := .dropped e.ticket e.callback.name) rfl s).trans (drains_releaseAll _ _)

/-- Taking a cookie takes it from the table or from a frame, whose script stays. -/
theorem drains_without (s : State) (source : Source) : Drains s (s.without source) := by
  obtain ⟨cookies, stack, hwithout, hbare⟩ := without_eq s source
  have hscript : stack.flatMap Frame.script = s.stack.flatMap Frame.script := by
    simpa [Function.comp_def, List.flatMap_map] using congrArg (List.flatMap Frame.script) hbare
  have htable : ∀ c ∈ (s.without source).cookies.map Prod.snd, c ∈ s.cookies.map Prod.snd := by
    cases source with
    | table name => exact fun _ h => (List.filter_sublist.map _).subset h
    | owned place | carried place => exact fun _ h => h
  rw [hwithout] at htable ⊢
  refine ⟨rfl, rfl, rfl, fun _ h => h, htable, fun a ha => ?_⟩
  simp only [State.scripts, hscript] at ha ⊢
  exact ha

theorem drains_takeCookies (s : State) (sources : List Source) :
    Drains s (s.takeCookies sources).2 := by
  induction sources generalizing s with
  | nil => exact .refl s
  | cons source sources ih => exact (drains_without s source).trans (ih _)

theorem drains_invoke (s : State) (c : Cookie) (work : Work) (elsewhere : Bool) :
    Drains s (s.invoke c work elsewhere) := by
  have hregistry : (s.host.invoke c work).2.registry = s.host.registry := by
    unfold Host.invoke
    split <;> [rfl; (split <;> rfl)]
  have hqueued : Drains s { s with host := (s.host.invoke c work).2 } := by
    refine ⟨Host.invoke_closed s.host c work, rfl, ?_, ?_, fun _ h => h, ?_⟩
    · rw [Host.pending, hregistry]
      rfl
    · rw [hregistry]
      exact fun _ h => h
    · rw [State.scripts, hregistry]
      exact fun _ h => h
  have hrefused : ∀ t : State, Drains t (c.refused.foldl note t) := by
    intro t
    unfold Cookie.refused
    split
    · exact drains_record rfl t
    · exact .refl t
  refine hqueued.trans ?_
  unfold invoke
  dsimp only
  split
  · exact drains_record rfl _
  · split
    · exact drains_releaseAll _ _
    · exact (hrefused _).trans (drains_releaseAll _ _)

theorem drains_start {a : Action} (htame : a.isTame = true) (s : State) : Drains s (s.start a) := by
  have hreply : ∀ (t : State) (answer : Answer), Drains s t → Drains s (t.reply answer) :=
    fun t answer h => ⟨h.closed, h.held, h.balance, h.contents, h.cookies, h.scripts⟩
  have hpush : ∀ frame : Frame, frame.script = [] → Drains s { s with stack := frame :: s.stack } := by
    intro frame hframe
    refine ⟨rfl, rfl, rfl, fun _ h => h, fun _ h => h, ?_⟩
    simp [State.scripts, hframe]
  cases a with
  | register | teardown | dropHost => cases htame
  | label source =>
    simp only [start]
    split <;> exact hreply s _ (.refl s)
  | invoke source value elsewhere carry =>
    have htaken := (drains_without s source).trans (drains_takeCookies _ carry)
    simp only [start]
    split
    · exact hreply _ _ (htaken.trans (drains_releaseAll _ _))
    · exact hreply _ _ (htaken.trans (drains_invoke _ _ _ _))
  | drop source =>
    have htaken : Drains s (s.takeCookie source).2 := drains_without s source
    simp only [start]
    split
    · next t heq =>
      rw [heq] at htaken
      exact hreply _ _ htaken
    · next c t heq =>
      rw [heq] at htaken
      exact hreply _ _ (htaken.trans (drains_releaseAll _ _))
  | poll =>
    simp only [start]
    split
    · exact hpush _ rfl
    · exact hreply s _ (.refl s)
  | runUntil condition =>
    simp only [start]
    split
    · exact hpush _ rfl
    · exact hreply s _ (.refl s)
  | unreadable verb reason => exact hreply s _ (.refl s)

/-- A message of an open host takes a callback out of its slot. -/
theorem drains_deliver (hinv : Inv callbacks s) (hopen : s.host.closed = false) {m : Message Work}
    {queue : List (Message Work)} (hqueue : s.host.queue = m :: queue) {resume : Bool → Frame}
    (hresume : ∀ ran, (resume ran).script = []) {frame : Frame} {rest : List Frame}
    (hstack : s.stack = frame :: rest) :
    Drains s (deliver { s with host := { s.host with queue } } m resume rest) := by
  obtain ⟨e, he, -, -, hdispatch, -⟩ := (hinv hopen).owned.dispatch hopen hqueue
  have hcontents := Registry.contents_remove he
  have hpending : (s.host.registry.remove m.key).2.size + 1 = s.host.registry.size :=
    hcontents.length_eq.symm
  have hsub : ∀ e' ∈ (s.host.registry.remove m.key).2.contents, e' ∈ s.host.registry.contents :=
    fun e' h => hcontents.symm.subset (List.mem_cons_of_mem _ h)
  have hmem : e ∈ s.host.registry.contents := hcontents.symm.subset List.mem_cons_self
  -- the callback is out of its slot, the message in the log, and the frame ready to go on
  have htaken : ∀ (notice : Log.Notice) (ran : Bool) (top : List Frame),
      Occurrence.isDispatch (.logged notice) = true →
      (∀ a ∈ top.flatMap Frame.script, a ∈ e.callback.script) →
        Drains s ({ s with
          host := { s.host with queue, registry := (s.host.registry.remove m.key).2 }
          stack := top ++ resume ran :: rest }.note notice) := by
    intro notice ran top hnotice htop
    refine ⟨rfl, rfl, ?_, hsub, fun _ h => h, fun a ha => ?_⟩
    · simp only [note, record, dispatched, List.countP_cons, hnotice, if_true, Host.pending]
      omega
    · simp only [State.scripts, note, record, List.flatMap_append, List.flatMap_cons, hresume,
        List.nil_append, List.mem_append, hstack] at ha ⊢
      rcases ha with (htop' | hrest) | hkept
      · exact Or.inr (List.mem_flatMap.mpr ⟨e, hmem, htop a htop'⟩)
      · exact Or.inl (Or.inr hrest)
      · obtain ⟨e', he', ha⟩ := List.mem_flatMap.mp hkept
        exact Or.inr (List.mem_flatMap.mpr ⟨e', hsub e' he', ha⟩)
  simp only [deliver, hdispatch]
  cases m with
  | call key label ticket work =>
    have hrun := htaken (.callbackInvoked label) true
      [.running e.callback.name none e.callback.script e.callback.owns work.carry] rfl
      (by simp [Frame.script])
    exact hrun.trans (drains_record (o := .invoked e.ticket e.callback.name work.value) rfl _)
  | release key label ticket =>
    have hdrop := htaken (.callbackReleased label) false [] rfl (by simp)
    exact hdrop.trans (drains_discard _ e)

/-- A step of the host thread, unless it registers a callback or tears the host down. -/
theorem drains_step (hinv : Inv callbacks s) (hopen : s.host.closed = false) (hheld : s.held = true)
    (htame : ∀ a ∈ s.next?, a.isTame = true) : Drains s s.step := by
  have hpop : ∀ {frame : Frame} {rest : List Frame}, s.stack = frame :: rest →
      Drains s { s with stack := rest } := by
    intro frame rest hstack
    refine ⟨rfl, rfl, rfl, fun _ h => h, fun _ h => h, fun a ha => ?_⟩
    simp only [State.scripts, hstack, List.flatMap_cons, List.mem_append] at ha ⊢
    exact ha.imp_left Or.inr
  have hstop : ∀ {frame : Frame} {rest : List Frame} {o : Occurrence} (answer : Answer),
      s.stack = frame :: rest → o.isDispatch = false →
        Drains s (({ s with stack := rest }.record o).reply answer).teardownIfGone := by
    intro frame rest o answer hstack ho
    have hstay : (({ s with stack := rest }.record o).reply answer).teardownIfGone =
        ({ s with stack := rest }.record o).reply answer := by
      simp [teardownIfGone, reply, record, hheld]
    have h := (hpop hstack).trans (drains_record ho _)
    rw [hstay]
    exact ⟨h.closed, h.held, h.balance, h.contents, h.cookies, h.scripts⟩
  have hanswered : Drains s { s with answer := none } :=
    ⟨rfl, rfl, rfl, fun _ h => h, fun _ h => h, fun _ h => h⟩
  unfold step
  split
  · exact .refl s
  · next name current script owns carry rest hstack =>
    split
    · split
      · exact hanswered.trans (drains_record rfl _)
      · exact hanswered
    · next hanswer =>
      split
      · next a script =>
        have hnext : Drains s
            { s with stack := .running name (some a.verb) script owns carry :: rest } := by
          refine ⟨rfl, rfl, rfl, fun _ h => h, fun _ h => h, fun b hb => ?_⟩
          simp only [State.scripts, hstack, List.flatMap_cons, Frame.script, List.mem_append,
            List.mem_cons] at hb ⊢
          exact hb.imp_left (Or.imp_left Or.inr)
        exact hnext.trans (drains_start (htame a (by simp [next?, hstack, hanswer])) _)
      · exact ((hpop hstack).trans (drains_releaseAll _ owns)).trans (drains_releaseAll _ carry)
  · next count rest hstack =>
    simp only [stepPoll, Host.receive]
    cases hqueue : s.host.queue with
    | nil => exact hstop _ hstack rfl
    | cons m queue => exact drains_deliver hinv hopen hqueue (fun _ => rfl) hstack
  · next condition checks count rest hstack =>
    simp only [stepWait, Host.receive]
    split
    · exact hstop _ hstack rfl
    · split
      · exact hstop _ hstack rfl
      · cases hqueue : s.host.queue with
        | nil =>
          dsimp only
          split <;> exact hstop _ hstack rfl
        | cons m queue => exact drains_deliver hinv hopen hqueue (fun _ => rfl) hstack

/-! ## From the call of a poll to its return -/

/-- After a poll was called in `u`, and `n` steps of the host thread, the state is `t`. Other threads
may act in between. It ends when the poll has returned. -/
inductive Polls (u : State) : Nat → State → Prop where
  /-- The poll is called. -/
  | called : Polls u 0 (u.start .poll)
  /-- The host thread goes on. -/
  | step {n : Nat} {t : State} (h : Polls u n t) (busy : u.stack.length < t.stack.length) :
      Polls u (n + 1) t.step
  /-- Another thread invokes or drops a cookie. -/
  | elsewhere {n : Nat} {t : State} (a : Action) (h : Polls u n t)
      (busy : u.stack.length < t.stack.length) (remote : a.isRemote = true) :
      Polls u n { t.start a with answer := t.answer }

/-- What a poll of `u` runs neither registers a callback nor tears the host down. -/
def Quiet (u : State) : Prop :=
  ∀ n t, Polls u n t → u.stack.length < t.stack.length → ∀ a ∈ t.next?, a.isTame = true

/-- What holds while a poll that was called in `u` is under way, and when it returns. -/
structure Underway (u t : State) : Prop where
  /-- The host gets there. -/
  reachable : ∃ callbacks, Reachable callbacks t
  /-- Callbacks left their slots with the messages. -/
  drains : Drains u t
  /-- The poll waits below the callbacks that it runs, or has returned and left nothing queued. -/
  stack : (∃ above count, t.stack = above ++ .polling count :: u.stack) ∨
    t.stack = u.stack ∧ t.host.queue = [] ∧ ∃ count, t.answer = some (.count count)

theorem stack_without_of_tabled {source : Source} (h : source.isTabled = true) (s : State) :
    (s.without source).stack = s.stack := by
  cases source with
  | table name => rfl
  | owned | carried => cases h

theorem stack_takeCookies_of_tabled {sources : List Source}
    (h : sources.all Source.isTabled = true) (s : State) :
    (s.takeCookies sources).2.stack = s.stack := by
  induction sources generalizing s with
  | nil => rfl
  | cons source sources ih =>
    obtain ⟨hfirst, hrest⟩ := Bool.and_eq_true_iff.mp (List.all_cons.symm.trans h)
    exact (ih hrest _).trans (stack_without_of_tabled hfirst s)

theorem stack_start_of_remote {a : Action} (hremote : a.isRemote = true) (s : State) :
    (s.start a).stack = s.stack := by
  cases a with
  | invoke source value elsewhere carry =>
    simp only [Action.isRemote, Bool.and_eq_true] at hremote
    obtain ⟨⟨-, hsource⟩, hcarry⟩ := hremote
    have hstack : ((s.takeCookie source).2.takeCookies carry).2.stack = s.stack :=
      (stack_takeCookies_of_tabled hcarry _).trans (stack_without_of_tabled hsource s)
    simp only [start]
    split
    · exact hstack
    · exact (invoke_frame _ _ _ _).2.trans hstack
  | drop source =>
    have hstack := stack_without_of_tabled hremote s
    simp only [start, takeCookie]
    cases s.cookie? source <;> exact hstack
  | register | label | poll | runUntil | teardown | dropHost | unreadable => cases hremote

theorem Underway.called (h : Reachable callbacks (u.start .poll)) (hheld : u.held = true) :
    Underway u (u.start .poll) := by
  have hpoll : u.start .poll = { u with stack := .polling 0 :: u.stack } := by simp [start, hheld]
  exact ⟨⟨callbacks, h⟩, drains_start rfl u, Or.inl ⟨[], 0, by rw [hpoll]; rfl⟩⟩

theorem Underway.step (h : Underway u t) (hheld : u.held = true) (hopen : u.host.closed = false)
    (hbusy : u.stack.length < t.stack.length) (htame : ∀ a ∈ t.next?, a.isTame = true) :
    Underway u t.step := by
  obtain ⟨⟨callbacks, hreachable⟩, hdrains, hstack⟩ := h
  have hheld' : t.held = true := hdrains.held.trans hheld
  have hopen' : t.host.closed = false := hdrains.closed.trans hopen
  refine ⟨⟨_, hreachable.step⟩, hdrains.trans (drains_step hreachable.inv hopen' hheld' htame), ?_⟩
  rcases hstack with ⟨above, count, hstack⟩ | ⟨hstack, -⟩
  · cases above with
    | nil =>
      have hstep : t.step = t.stepPoll count u.stack := by simp only [State.step, hstack, List.nil_append]
      simp only [hstep, stepPoll, Host.receive]
      cases hqueue : t.host.queue with
      | nil =>
        have hstay : (({ t with stack := u.stack }.record (.polled count)).reply
            (.count count)).teardownIfGone =
              ({ t with stack := u.stack }.record (.polled count)).reply (.count count) := by
          simp [teardownIfGone, reply, record, hheld']
        dsimp only
        rw [hstay]
        exact Or.inr ⟨rfl, hqueue, count, rfl⟩
      | cons m queue =>
        obtain ⟨next, ran, hnext⟩ := exists_deliver_atop { t with host := { t.host with queue } } m
        exact Or.inl ⟨next.stack, _, congrArg State.stack
          (hnext t.stack (fun ran => .polling (if ran then count + 1 else count)) u.stack)⟩
    | cons frame above =>
      -- the callbacks above the poll go on without it
      obtain ⟨next, hnext⟩ := exists_step_atop (s := { t with stack := frame :: above })
        (List.cons_ne_nil _ _)
      have hatop : ({ t with stack := frame :: above } : State).atop (.polling count :: u.stack) = t := by
        simp only [atop]
        rw [← hstack]
      refine Or.inl ⟨next.stack, count, ?_⟩
      rw [← hatop, hnext _ (List.cons_ne_nil _ _)]
      rfl
  · rw [hstack] at hbusy
    exact absurd hbusy (Nat.lt_irrefl _)

theorem Underway.elsewhere (h : Underway u t) (hbusy : u.stack.length < t.stack.length) {a : Action}
    (hremote : a.isRemote = true) : Underway u { t.start a with answer := t.answer } := by
  obtain ⟨⟨callbacks, hreachable⟩, hdrains, hstack⟩ := h
  have htame : a.isTame = true := by cases a <;> first | rfl | cases hremote
  have hstart := hdrains.trans (drains_start htame t)
  refine ⟨⟨_, hreachable.elsewhere a hremote⟩, ⟨hstart.closed, hstart.held, hstart.balance,
    hstart.contents, hstart.cookies, hstart.scripts⟩, ?_⟩
  rcases hstack with ⟨above, count, hstack⟩ | ⟨hstack, -⟩
  · exact Or.inl ⟨above, count, (stack_start_of_remote hremote t).trans hstack⟩
  · rw [hstack] at hbusy
    exact absurd hbusy (Nat.lt_irrefl _)

theorem Polls.underway_of (hpolls : Polls u n t) (h : Reachable callbacks (u.start .poll))
    (hheld : u.held = true) (hopen : u.host.closed = false)
    (htame : ∀ {n t}, Polls u n t → Underway u t → u.stack.length < t.stack.length →
      ∀ a ∈ t.next?, a.isTame = true) : Underway u t := by
  induction hpolls with
  | called => exact .called h hheld
  | step hpolls hbusy ih => exact ih.step hheld hopen hbusy (htame hpolls ih hbusy)
  | elsewhere a _ hbusy hremote ih => exact ih.elsewhere hbusy hremote

theorem Polls.underway (hpolls : Polls u n t) (h : Reachable callbacks (u.start .poll))
    (hheld : u.held = true) (hopen : u.host.closed = false) (hquiet : u.Quiet) : Underway u t :=
  hpolls.underway_of h hheld hopen fun hpolls _ hbusy => hquiet _ _ hpolls hbusy

/-- Where no callback that runs or is registered has anything wild left to do, a poll is quiet. -/
theorem quiet_of_scripts (h : Reachable callbacks (u.start .poll)) (hheld : u.held = true)
    (hopen : u.host.closed = false) (hscripts : ∀ a ∈ u.scripts, a.isTame = true) : u.Quiet := by
  have htame : ∀ {t}, Underway u t → ∀ a ∈ t.next?, a.isTame = true := fun hunderway a ha =>
    hscripts a (hunderway.drains.scripts a (mem_scripts_of_next? ha))
  intro n t hpolls _
  exact htame (hpolls.underway_of h hheld hopen fun _ hunderway _ => htame hunderway)

/-- A poll takes no more steps than the weight of the state that it was called in. -/
theorem Polls.steps_le (hpolls : Polls u n t) (h : Reachable callbacks (u.start .poll))
    (hheld : u.held = true) (hopen : u.host.closed = false) (hquiet : u.Quiet) :
    n + t.weight ≤ (u.start .poll).weight := by
  induction hpolls with
  | called => exact (Nat.zero_add _).le
  | @step n t hpolls hbusy ih =>
    obtain ⟨callbacks, hreachable⟩ := (hpolls.underway h hheld hopen hquiet).reachable
    have hlt := hreachable.weight_step_lt (List.ne_nil_of_length_pos (Nat.zero_lt_of_lt hbusy))
    omega
  | @elsewhere n t a _ _ hremote ih =>
    have hle := weight_elsewhere_le (s := t) hremote
    omega

theorem Underway.busy (h : Underway u t) (hstack : t.stack ≠ u.stack) :
    u.stack.length < t.stack.length := by
  rcases h.stack with ⟨above, count, habove⟩ | ⟨hreturned, -⟩
  · rw [habove, List.length_append, List.length_cons]
    omega
  · exact absurd hreturned hstack

/-- A poll that is under way returns, also when nobody else does anything any more. -/
theorem Polls.exists_return (hpolls : Polls u n t) (h : Reachable callbacks (u.start .poll))
    (hheld : u.held = true) (hopen : u.host.closed = false) (hquiet : u.Quiet) :
    ∃ m, Polls u (n + m) (State.step^[m] t) ∧ (State.step^[m] t).stack = u.stack := by
  induction hweight : t.weight using Nat.strong_induction_on generalizing n t with
  | _ weight ih =>
    subst hweight
    have hunderway := hpolls.underway h hheld hopen hquiet
    by_cases hstack : t.stack = u.stack
    · exact ⟨0, hpolls, hstack⟩
    · have hbusy := hunderway.busy hstack
      obtain ⟨callbacks, hreachable⟩ := hunderway.reachable
      have hlt := hreachable.weight_step_lt (List.ne_nil_of_length_pos (Nat.zero_lt_of_lt hbusy))
      obtain ⟨m, hm, hreturned⟩ := ih _ hlt (hpolls.step hbusy) rfl
      exact ⟨m + 1, by rwa [Nat.add_right_comm, Nat.add_assoc] at hm, hreturned⟩

/-! ## What is left -/

/-- The cookies that neither a registered callback owns nor a queued message carries. -/
def outside (s : State) : List Cookie :=
  s.cookies.map Prod.snd ++ s.stack.flatMap Frame.cookies

/-- Without messages, there is an armed cookie for each callback that waits in its slot. -/
theorem pending_eq_countP (hinv : Inv callbacks s) (hopen : s.host.closed = false)
    (hqueue : s.host.queue = []) : s.host.pending = s.live.countP Cookie.isArmed := by
  have howned : Host.Owned callbacks s.host s.live := (hinv hopen).owned
  have hkeys : s.host.registry.keys.Perm (s.host.names s.live) :=
    (List.perm_ext_iff_of_nodup (List.nodup_range.filter _) howned.nodup_names).mpr fun key =>
      Registry.mem_keys.trans howned.mem_names_iff.symm
  calc s.host.pending = s.host.registry.keys.length := (Registry.length_keys _).symm
    _ = (s.host.names s.live).length := hkeys.length_eq
    _ = (s.live.filterMap Cookie.key).length := by simp [Host.names, hqueue]
    _ = s.live.countP Cookie.isArmed := List.length_filterMap_eq_countP

/-- Where only registered callbacks own armed cookies, and none owns itself, none is left. -/
theorem contents_eq_nil (hinv : Inv callbacks s) (hopen : s.host.closed = false)
    (hqueue : s.host.queue = []) (houtside : ∀ c ∈ s.outside, c.isArmed = false)
    (hacyclic : s.host.Acyclic) : s.host.registry.contents = [] := by
  refine hacyclic.contents_eq_nil fun e he => ?_
  obtain ⟨key, hkey⟩ := Registry.mem_contents.mp he
  have hclaim := (hinv hopen).owned.mem_claims hkey
  simp only [Host.claims, hqueue, List.map_nil, List.append_nil, List.nil_append] at hclaim
  obtain ⟨c, hc, hclaim⟩ := List.mem_filterMap.mp hclaim
  obtain ⟨key', hkey', hpair⟩ := Option.map_eq_some_iff.mp hclaim
  have harmed : c.isArmed = true := by simp [Cookie.isArmed, hkey']
  -- the cookie that claims the callback is neither in the table nor in a frame nor in the queue
  rcases List.mem_append.mp hc with hout | hstored
  · rw [houtside c hout] at harmed
    cases harmed
  · simp only [stored, hqueue, List.flatMap_nil, List.append_nil] at hstored
    obtain ⟨owner, howner, howns⟩ := List.mem_flatMap.mp hstored
    exact ⟨owner, howner, owner, howner, rfl, c, howns, harmed, (Prod.mk.inj hpair).2⟩

theorem Underway.returned (h : Underway u t) (hopen : u.host.closed = false)
    (hreturned : t.stack = u.stack) :
    t.host.queue = [] ∧ (∃ count, t.answer = some (.count count)) ∧
      t.host.pending = t.live.countP Cookie.isArmed ∧
      ((∀ c ∈ u.outside, c.isArmed = false) → u.host.Acyclic → t.host.registry.contents = []) := by
  obtain ⟨callbacks, hreachable⟩ := h.reachable
  have hopen' : t.host.closed = false := h.drains.closed.trans hopen
  obtain ⟨hqueue, hanswer⟩ : t.host.queue = [] ∧ ∃ count, t.answer = some (.count count) := by
    rcases h.stack with ⟨above, count, habove⟩ | ⟨-, hleft⟩
    · rw [hreturned] at habove
      have := congrArg List.length habove
      rw [List.length_append, List.length_cons] at this
      omega
    · exact hleft
  refine ⟨hqueue, hanswer, pending_eq_countP hreachable.inv hopen' hqueue,
    fun houtside hacyclic => contents_eq_nil hreachable.inv hopen' hqueue (fun c hc => ?_)
      (hacyclic.mono h.drains.contents)⟩
  rw [outside, hreturned] at hc
  refine houtside c ?_
  rcases List.mem_append.mp hc with htable | hframes
  · exact List.mem_append_left _ (h.drains.cookies c htable)
  · exact List.mem_append_right _ hframes

/-! ## Dropping everything -/

theorem drive_of_isIdle (hidle : s.isIdle = true) (n : Nat) : drive n s = s := by
  cases n with
  | zero => rfl
  | succ n => exact if_pos hidle

/-- The program drops all its cookies. -/
def dropAll (s : State) : State :=
  { (s.cookies.map Prod.fst).foldl (fun t name => t.perform (.drop (.table name))) s with
    answer := none }

theorem perform_drop (hidle : s.isIdle = true) (name : String) :
    s.perform (.drop (.table name)) =
      ({ s with answer := none } : State).start (.drop (.table name)) := by
  refine drive_of_isIdle ?_ _
  have hstack := stack_start_of_remote (a := .drop (.table name)) rfl { s with answer := none }
  rw [isIdle, hstack]
  exact hidle

/-- What the program has dropped is not in the table any more. -/
theorem foldl_drop (names : List String) (h : Reachable callbacks s) (hidle : s.isIdle = true) :
    let t := names.foldl (fun t name => t.perform (.drop (.table name))) s
    Reachable callbacks t ∧ t.stack = s.stack ∧ Drains s t ∧
      ∀ p ∈ t.cookies, p ∈ s.cookies ∧ p.1 ∉ names := by
  induction names generalizing s with
  | nil => exact ⟨h, rfl, .refl s, fun p hp => ⟨hp, List.not_mem_nil⟩⟩
  | cons name names ih =>
    have hperform := perform_drop hidle name
    have hreachable : Reachable callbacks (s.perform (.drop (.table name))) := by
      rw [hperform]
      exact (List.append_nil callbacks) ▸ h.act (.drop (.table name)) hidle
    have hstack : (s.perform (.drop (.table name))).stack = s.stack := by
      rw [hperform]
      exact stack_start_of_remote (a := .drop (.table name)) rfl _
    have hdrains : Drains s (s.perform (.drop (.table name))) := by
      rw [hperform]
      have hanswered : Drains s { s with answer := none } :=
        ⟨rfl, rfl, rfl, fun _ h => h, fun _ h => h, fun _ h => h⟩
      exact hanswered.trans (drains_start rfl _)
    have hcookies : (s.perform (.drop (.table name))).cookies = s.cookies.erase name := by
      rw [hperform]
      simp only [start, takeCookie, cookie?, without]
      cases s.cookies.find? name <;> rfl
    obtain ⟨hreachable', hstack', hdrains', hcookies'⟩ :=
      ih hreachable (by rw [isIdle, hstack]; exact hidle)
    refine ⟨hreachable', hstack'.trans hstack, hdrains.trans hdrains', fun p hp => ?_⟩
    obtain ⟨hmem, hnames⟩ := hcookies' p hp
    rw [hcookies] at hmem
    obtain ⟨hmem, hname⟩ := List.mem_filter.mp hmem
    exact ⟨hmem, List.not_mem_cons_of_ne_of_not_mem (by simpa using hname) hnames⟩

theorem cookies_dropAll (h : Reachable callbacks s) (hidle : s.isIdle = true) :
    s.dropAll.cookies = [] := by
  refine List.eq_nil_iff_forall_not_mem.mpr fun p hp => ?_
  obtain ⟨hmem, hname⟩ := (foldl_drop _ h hidle).2.2.2 p hp
  exact hname (List.mem_map_of_mem hmem)

theorem drains_dropAll (h : Reachable callbacks s) (hidle : s.isIdle = true) :
    Drains s s.dropAll := by
  have hdrains := (foldl_drop (s.cookies.map Prod.fst) h hidle).2.2.1
  exact ⟨hdrains.closed, hdrains.held, hdrains.balance, hdrains.contents, hdrains.cookies,
    hdrains.scripts⟩

theorem stack_dropAll (h : Reachable callbacks s) (hidle : s.isIdle = true) :
    s.dropAll.stack = [] := by
  have hstack : s.stack = [] := by simpa [isIdle] using hidle
  exact (foldl_drop (s.cookies.map Prod.fst) h hidle).2.1.trans hstack

theorem Reachable.poll_dropAll (h : Reachable callbacks s) (hidle : s.isIdle = true) :
    Reachable callbacks (s.dropAll.start .poll) := by
  have hstack := stack_dropAll h hidle
  have hdropped := (foldl_drop (s.cookies.map Prod.fst) h hidle).1
  exact (List.append_nil callbacks) ▸ hdropped.act .poll (by rw [isIdle]; exact hstack ▸ rfl)

/-- Steps that are taken until the host thread is idle belong to the poll. -/
theorem Polls.drive (hidle : u.isIdle = true) (hpolls : Polls u n t) (k : Nat) :
    ∃ m, Polls u m (State.drive k t) := by
  induction k generalizing n t with
  | zero => exact ⟨n, hpolls⟩
  | succ k ih =>
    unfold State.drive
    split
    · exact ⟨n, hpolls⟩
    · next hbusy =>
      have hstack : u.stack = [] := by simpa [isIdle] using hidle
      have hpos : t.stack ≠ [] := by simpa [isIdle] using hbusy
      exact ih (hpolls.step (by rw [hstack]; exact List.length_pos_iff.mpr hpos))

/-! ## The main result -/

/-- A poll of an open host returns, as long as what it runs registers no callback and does not tear
the host down, whatever other threads do in the meantime. The callbacks that it runs may poll, and
they may invoke or drop the cookies of the program, those that they own and those that came with their
work, or hand them on with further work. Up to any moment the poll has dispatched, polls and waits of
the callbacks that it runs included, as many messages as callbacks have left their slots. When it
returns the queue is empty, and there is an armed cookie for each callback that is left. No callback
is left if no armed cookie was outside the slots and the queue, and no callback owned itself, not even
through others: so a program that drops all its cookies and polls empties the slots. -/
theorem poll_drains (h : Reachable callbacks (u.start .poll)) (hheld : u.held = true)
    (hopen : u.host.closed = false) (hquiet : u.Quiet) :
    (∀ n t, Polls u n t →
      n ≤ (u.start .poll).weight ∧
      (∃ m, Polls u (n + m) (State.step^[m] t) ∧ (State.step^[m] t).stack = u.stack) ∧
      t.host.closed = false ∧
      dispatched t.trace + t.host.pending = dispatched u.trace + u.host.pending ∧
      (t.stack = u.stack →
        t.host.queue = [] ∧ (∃ count, t.answer = some (.count count)) ∧
        t.host.pending = t.live.countP Cookie.isArmed ∧
        ((∀ c ∈ u.outside, c.isArmed = false) → u.host.Acyclic →
          t.host.registry.contents = []))) ∧
    ∀ callbacks s, Reachable callbacks s → s.isIdle = true → s.held = true →
      s.host.closed = false → s.host.Acyclic → s.dropAll.Quiet →
        (s.dropAll.perform .poll).isIdle = true ∧
          (s.dropAll.perform .poll).host.registry.contents = [] := by
  refine ⟨fun n t hpolls => ?_, fun callbacks s hs hidle hheld hopen hacyclic hquiet => ?_⟩
  · have hunderway := hpolls.underway h hheld hopen hquiet
    have hopen' : t.host.closed = false := hunderway.drains.closed.trans hopen
    have hsteps := hpolls.steps_le h hheld hopen hquiet
    exact ⟨Nat.le_of_add_right_le hsteps, hpolls.exists_return h hheld hopen hquiet, hopen',
      hunderway.drains.balance, fun hreturned => hunderway.returned hopen hreturned⟩
  · have hstack := stack_dropAll hs hidle
    have hdrains := drains_dropAll hs hidle
    have hpoll := hs.poll_dropAll hidle
    have hheld' : s.dropAll.held = true := hdrains.held.trans hheld
    have hopen' : s.dropAll.host.closed = false := hdrains.closed.trans hopen
    have hrest : (s.dropAll.perform .poll).isIdle = true := hpoll.isIdle_settle
    obtain ⟨n, hpolls⟩ := Polls.called.drive (u := s.dropAll) (by simp [isIdle, hstack])
      (s.dropAll.start .poll).weight
    have hunderway := hpolls.underway hpoll hheld' hopen' hquiet
    have hreturned : (s.dropAll.perform .poll).stack = s.dropAll.stack := by
      rw [hstack]
      simpa [isIdle] using hrest
    have houtside : s.dropAll.outside = [] := by simp [outside, hstack, cookies_dropAll hs hidle]
    exact ⟨hrest, (hunderway.returned hopen' hreturned).2.2.2 (by simp [houtside])
      (hacyclic.mono hdrains.contents)⟩

/-- A callback is called that owns the cookie of a second one, while its work carries that of a third
one, which owns that of a fourth one. It drops its own cookie, invokes the one that came with its work,
and polls. The cookie of a fifth one stays in the table. -/
def carriedRun : List Action :=
  [.register "second" "second" [] [], .register "fourth" "fourth" [] [],
    .register "third" "third" [] ["fourth"],
    .register "caller" "caller"
      [.drop (.owned 0), .invoke (.carried 0) .null false [], .poll] ["second"],
    .register "fifth" "fifth" [] [], .invoke "caller" .null false ["third"]]

/-- A poll after that run calls the first callback and the third one, dispatches four messages and
leaves one callback; had the program dropped the cookie that it keeps, it would leave none. -/
theorem poll_drains_after_carriedRun :
    (carriedRun.foldl perform {}).host.pending = 5 ∧
      ((carriedRun.foldl perform {}).perform .poll).calls = [3, 2] ∧
      ((carriedRun.foldl perform {}).perform .poll).host.pending = 1 ∧
      dispatched ((carriedRun.foldl perform {}).perform .poll).trace = 4 ∧
      ((carriedRun.foldl perform {}).perform .poll).host.queue = [] ∧
      ((carriedRun.foldl perform {}).dropAll.perform .poll).host.registry.contents = [] := by
  obtain ⟨_, h₁⟩ := Reachable.new.perform rfl carriedRun[0]
  obtain ⟨_, h₂⟩ := h₁.perform (by decide) carriedRun[1]
  obtain ⟨_, h₃⟩ := h₂.perform (by decide) carriedRun[2]
  obtain ⟨_, h₄⟩ := h₃.perform (by decide) carriedRun[3]
  obtain ⟨_, h₅⟩ := h₄.perform (by decide) carriedRun[4]
  obtain ⟨_, h₆⟩ := h₅.perform (by decide) carriedRun[5]
  have hidle : (carriedRun.foldl perform {}).isIdle = true := by decide
  have hpoll := h₆.act .poll hidle
  obtain ⟨hduring, hdropped⟩ := poll_drains hpoll (by decide) (by decide)
    (quiet_of_scripts hpoll (by decide) (by decide) (by decide))
  have hafter : (carriedRun.foldl perform {}).dropAll.Quiet :=
    quiet_of_scripts (h₆.poll_dropAll hidle) (by decide) (by decide) (by decide)
  obtain ⟨n, hpolls⟩ := Polls.called.drive
    (u := { carriedRun.foldl perform {} with answer := none }) hidle
    (({ carriedRun.foldl perform {} with answer := none } : State).start .poll).weight
  obtain ⟨-, -, -, hbalance, hreturned⟩ := hduring n _ hpolls
  have hleft : ((carriedRun.foldl perform {}).perform .poll).host.pending = 1 := by decide
  have hfirst : dispatched (carriedRun.foldl perform {}).trace = 0 := by decide
  have hpending : (carriedRun.foldl perform {}).host.pending = 5 := by decide
  have hrest : ((carriedRun.foldl perform {}).perform .poll).isIdle = true := by decide
  have hstack : ((carriedRun.foldl perform {}).perform .poll).stack =
      (carriedRun.foldl perform {}).stack :=
    (List.isEmpty_iff.mp hrest).trans (List.isEmpty_iff.mp hidle).symm
  refine ⟨hpending, by decide, hleft, ?_, (hreturned hstack).1,
    (hdropped _ _ h₆ hidle (by decide) (by decide) (Host.acyclic_of_lt (by decide)) hafter).2⟩
  have hsum : dispatched ((carriedRun.foldl perform {}).perform .poll).trace +
      ((carriedRun.foldl perform {}).perform .poll).host.pending =
        dispatched (carriedRun.foldl perform {}).trace +
          (carriedRun.foldl perform {}).host.pending := hbalance
  omega

end State

end HostBridge.Bridge
