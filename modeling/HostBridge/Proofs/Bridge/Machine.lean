import HostBridge.Bridge.Machine
import HostBridge.Proofs.Bridge.Ownership
import HostBridge.Proofs.Keyed

/-!
# Ownership on the host thread

A cookie lies in the table of the program, with a callback that owns it, with work that carries it,
or with a callback that is running. Whatever the host thread and the program do, no cookie is lost
and none is doubled: it moves from one of these places to another, or becomes a message. `Holds` is
`Host.Owned` for all of these places together, with a *hand* for cookies that are on their way.
-/

namespace HostBridge.Bridge

open Host (Owned)

/-! ## Where cookies are -/

namespace Frame

/-- The cookies of a frame: those that its callback owns and those that its work carries. -/
def cookies : Frame → List Cookie
  | running _ _ _ owns carry => owns ++ carry
  | _ => []

/-- What a running callback has at hand: the cookies that it owns, and those that its work
carries. -/
def hands : Frame → List Cookie × List Cookie
  | running _ _ _ owns carry => (owns, carry)
  | _ => ([], [])

theorem cookie?_congr {frame frame' : Frame} (h : frame'.hands = frame.hands) (source : Source) :
    frame'.cookie? source = frame.cookie? source := by
  cases frame <;> cases frame' <;> cases source <;> simp_all [hands, cookie?]

theorem hands_congr {frame frame' : Frame} (h : frame'.hands = frame.hands) (source : Source) :
    (frame'.without source).hands = (frame.without source).hands := by
  cases frame <;> cases frame' <;> cases source <;> simp_all [hands, without]

/-- The frame but for its cookies. -/
def bare : Frame → Frame
  | running name current script _ _ => running name current script [] []
  | frame => frame

/-- Giving cookies away changes nothing else. -/
@[simp]
theorem bare_without (frame : Frame) (source : Source) :
    (frame.without source).bare = frame.bare := by
  cases frame <;> cases source <;> rfl

end Frame

theorem perm_getElem?_eraseIdx (cs : List Cookie) (place : Nat) :
    (cs[place]?.toList ++ cs.eraseIdx place).Perm cs := by
  by_cases hplace : place < cs.length
  · rw [List.getElem?_eq_getElem hplace]
    exact List.getElem_cons_eraseIdx_perm hplace
  · rw [List.getElem?_eq_none (Nat.le_of_not_lt hplace),
      List.eraseIdx_of_length_le (Nat.le_of_not_lt hplace)]
    exact .refl _

/-- A frame gives away what it has. -/
theorem Frame.perm_cookies (frame : Frame) (source : Source) :
    ((frame.cookie? source).toList ++ (frame.without source).cookies).Perm frame.cookies := by
  cases frame with
  | polling | waiting => exact .refl _
  | running name current script owns carry =>
    cases source with
    | table => exact .refl _
    | owned place =>
      simp only [Frame.cookie?, Frame.without, Frame.cookies, ← List.append_assoc]
      exact (perm_getElem?_eraseIdx owns place).append_right carry
    | carried place =>
      simp only [Frame.cookie?, Frame.without, Frame.cookies]
      exact (List.perm_append_comm_assoc _ _ _).trans
        ((perm_getElem?_eraseIdx carry place).append_left owns)

/-- The cookies that travel with a message. -/
def Message.carried (m : Message Work) : List Cookie :=
  (m.work?.map Work.carry).getD []

namespace State

/-- The cookies that travel with queued work or are owned by a registered callback. -/
def stored (h : Host Callback Work) : List Cookie :=
  h.registry.contents.flatMap (fun e => e.callback.owns) ++ h.queue.flatMap Message.carried

/-- All cookies that are around, armed or not. -/
def live (s : State) : List Cookie :=
  s.cookies.map Prod.snd ++ s.stack.flatMap Frame.cookies ++ stored s.host

/-- The claims of all cookies that are around, and of those in the hand, are the full slots. -/
structure Holds (callbacks : List Callback) (s : State) (hand : List Cookie) : Prop where
  /-- Nothing is lost or doubled. -/
  owned : Owned callbacks s.host (hand ++ s.live)
  /-- The table holds each name once. -/
  sorted : Keyed.Sorted s.cookies

variable {callbacks : List Callback} {s : State} {hand cs : List Cookie}

/-- Moving cookies between the table, the frames and the hand. -/
theorem Holds.move {s' : State} {hand' : List Cookie} (h : Holds callbacks s hand)
    (hhost : s'.host = s.host) (hsorted : Keyed.Sorted s'.cookies)
    (hp : (hand ++ (s.cookies.map Prod.snd ++ s.stack.flatMap Frame.cookies)).Perm
      (hand' ++ (s'.cookies.map Prod.snd ++ s'.stack.flatMap Frame.cookies))) :
    Holds callbacks s' hand' := by
  refine ⟨?_, hsorted⟩
  rw [hhost]
  refine h.owned.perm ?_
  simp only [live, hhost, ← List.append_assoc] at hp ⊢
  exact hp.append_right _

theorem Holds.perm {hand' : List Cookie} (h : Holds callbacks s hand) (hp : hand.Perm hand') :
    Holds callbacks s hand' :=
  ⟨h.owned.perm (hp.append_right _), h.sorted⟩

/-- Everything but the host, the table and the stack is of no concern. -/
theorem Holds.congr {s' : State} (h : Holds callbacks s hand) (hhost : s'.host = s.host)
    (hcookies : s'.cookies = s.cookies) (hstack : s'.stack = s.stack) :
    Holds callbacks s' hand := by
  refine h.move hhost (hcookies ▸ h.sorted) ?_
  rw [hcookies, hstack]

/-! ## Taking and dropping cookies -/

@[simp]
theorem without_host (s : State) (source : Source) : (s.without source).host = s.host := by
  cases source <;> rfl

theorem takeCookies_host (s : State) (sources : List Source) :
    (s.takeCookies sources).2.host = s.host := by
  induction sources generalizing s with
  | nil => rfl
  | cons source rest ih => exact (ih _).trans (without_host s source)

/-- Taking cookies changes the table and the cookies of the innermost frame, and nothing else. -/
theorem without_eq (s : State) (source : Source) : ∃ cookies stack,
    s.without source = { s with cookies, stack } ∧
      stack.map Frame.bare = s.stack.map Frame.bare := by
  cases source with
  | table name => exact ⟨_, _, rfl, rfl⟩
  | owned place | carried place =>
    refine ⟨_, _, rfl, ?_⟩
    cases s.stack with
    | nil => rfl
    | cons frame rest => simp

theorem takeCookies_eq (s : State) (sources : List Source) : ∃ cookies stack,
    (s.takeCookies sources).2 = { s with cookies, stack } ∧
      stack.map Frame.bare = s.stack.map Frame.bare := by
  induction sources generalizing s with
  | nil => exact ⟨s.cookies, s.stack, rfl, rfl⟩
  | cons source rest ih =>
    obtain ⟨cookies, stack, hfirst, hbare⟩ := without_eq s source
    obtain ⟨cookies', stack', hrest, hbare'⟩ := ih (s.without source)
    rw [hfirst] at hrest hbare'
    refine ⟨cookies', stack', ?_, hbare'.trans hbare⟩
    simp only [takeCookies, takeCookie, hfirst, hrest]

/-- The innermost frame gives away what it has. -/
theorem perm_cookies_head (stack : List Frame) (source : Source) :
    ((stack.head?.bind (·.cookie? source)).toList ++
      (stack.modifyHead (·.without source)).flatMap Frame.cookies).Perm
        (stack.flatMap Frame.cookies) := by
  cases stack with
  | nil => exact .refl _
  | cons frame rest =>
    simp only [List.head?_cons, Option.bind_some, List.modifyHead_cons, List.flatMap_cons,
      ← List.append_assoc]
    exact (frame.perm_cookies source).append_right _

theorem holds_takeCookie (h : Holds callbacks s hand) (source : Source) :
    Holds callbacks (s.takeCookie source).2 ((s.takeCookie source).1.toList ++ hand) := by
  have hhead := perm_cookies_head s.stack source
  cases source with
  | table name =>
    refine h.move rfl (Keyed.sorted_erase h.sorted name) ?_
    have hp := Keyed.perm_find?_erase h.sorted name
    refine List.perm_iff_count.mpr fun c => ?_
    have := hp.count_eq c
    simp only [takeCookie, cookie?, without, List.count_append] at this ⊢
    omega
  | owned place | carried place =>
    refine h.move rfl h.sorted (List.perm_iff_count.mpr fun c => ?_)
    have := hhead.count_eq c
    simp only [takeCookie, cookie?, without, List.count_append] at this ⊢
    omega

theorem holds_takeCookies (h : Holds callbacks s hand) (sources : List Source) :
    Holds callbacks (s.takeCookies sources).2 ((s.takeCookies sources).1 ++ hand) := by
  induction sources generalizing s hand with
  | nil => exact h
  | cons source rest ih =>
    refine (ih (holds_takeCookie h source)).perm ?_
    simp only [takeCookies, List.append_assoc]
    exact List.perm_append_comm_assoc _ _ _

/-- A message about a dropped cookie carries nothing. -/
theorem stored_release (h : Host Callback Work) (c : Cookie) : stored (h.release c) = stored h := by
  unfold Host.release
  split
  · rfl
  · split
    · rfl
    · simp [stored, Message.carried, Message.work?]

theorem stored_releaseAll (h : Host Callback Work) (cs : List Cookie) :
    stored (h.releaseAll cs) = stored h := by
  induction cs generalizing h with
  | nil => rfl
  | cons c cs ih => exact (ih _).trans (stored_release h c)

theorem holds_releaseAll (h : Holds callbacks s (cs ++ hand)) (hopen : s.host.closed = false) :
    Holds callbacks (s.releaseAll cs) hand := by
  refine ⟨?_, h.sorted⟩
  have hlive : (s.releaseAll cs).live = s.live := by
    simp [live, releaseAll, stored_releaseAll]
  rw [hlive]
  exact Owned.releaseAll (by simpa using h.owned) hopen

/-- A callback that is dropped unrun lets go of what it owns. -/
theorem holds_discard {e : Entry Callback} (h : Holds callbacks s (e.callback.owns ++ hand))
    (hopen : s.host.closed = false) : Holds callbacks (s.discard e) hand :=
  holds_releaseAll (h.congr rfl rfl rfl) hopen

@[simp]
theorem discard_host (s : State) (e : Entry Callback) :
    (s.discard e).host = s.host.releaseAll e.callback.owns := rfl

/-- Whatever the teardown drops, the host is closed after it. -/
theorem teardown_closed (s : State) : s.teardown.host.closed = true := by
  have hfold : ∀ (es : List (Entry Callback)) (s : State), s.host.closed = true →
      (es.foldl discard s).host.closed = true := by
    intro es
    induction es with
    | nil => exact fun s hs => hs
    | cons e es ih => exact fun s hs => ih _ (by simpa using hs)
  unfold teardown Host.teardown
  by_cases hc : s.host.closed = true
  · simp [hc]
  · simp only [hc]
    exact hfold _ _ (by simp [note, record, discardMessages, releaseAll])

/-! ## Registration and invocation -/

/-- A new callback brings what it owns with it into the registry. -/
theorem stored_register (h : Host Callback Work) (hv : h.registry.Valid) (hopen : h.closed = false)
    (label : String) (x : Callback) : (stored (h.register label x).2).Perm (x.owns ++ stored h) := by
  have hp := Registry.contents_insert hv (⟨h.issued, x⟩ : Entry Callback)
  simp only [Host.register, hopen, Bool.false_eq_true, if_false, stored, ← List.append_assoc]
  refine List.Perm.append_right _ ?_
  simpa using hp.flatMap_right fun e => e.callback.owns

/-- The callback that an action registers. -/
def registers (s : State) : Action → List Callback
  | .register name _ script owns => [⟨name, script, (s.takeCookies owns).1⟩]
  | _ => []

theorem holds_register (h : Holds callbacks s hand) (hopen : s.host.closed = false)
    (name label : String) (script : List Action) (owns : List Source) :
    Holds (callbacks ++ s.registers (.register name label script owns))
      (s.register name label script owns) hand := by
  have htaken := holds_takeCookies h owns
  have hhost := takeCookies_host s owns
  set owned := (s.takeCookies owns).1
  set t := (s.takeCookies owns).2 with ht
  have hopen' : t.host.closed = false := by rw [hhost]; exact hopen
  set x : Callback := ⟨name, script, owned⟩
  set cookie := (t.host.register label x).1
  set host' := (t.host.register label x).2
  have harmed : cookie.isArmed = true := by
    simp [cookie, Host.register, hopen', Cookie.isArmed]
  have hpl := stored_register t.host htaken.owned.valid hopen' label x
  -- the callback is in its slot, its cookie is still in the hand
  have hslot : Holds (callbacks ++ [x]) { t with host := host' } (cookie :: hand) := by
    refine ⟨(htaken.owned.register hopen' label x).perm ?_, htaken.sorted⟩
    refine List.perm_iff_count.mpr fun c => ?_
    have := hpl.count_eq c
    simp only [List.count_append, x] at this
    simp only [live, List.count_append, List.count_cons, List.cons_append, cookie, host', x]
    omega
  have hreg : s.register name label script owns =
      ({ ({ t with host := host' }.note cookie.registered).record (.registered cookie.ticket) with
        cookies := Keyed.insert name cookie t.cookies } : State).releaseAll
          (t.cookies.find? name).toList := by
    simp only [register]
    rw [← ht]
    simp only [x, owned, cookie, host'] at harmed ⊢
    simp [harmed, note, record]
  rw [hreg]
  refine holds_releaseAll (hslot.move rfl ?_ ?_) (by simpa [note, record, host'] using hopen')
  · exact Keyed.sorted_insert htaken.sorted name cookie
  · have hp₁ := Keyed.perm_find?_erase htaken.sorted name
    have hp₂ := (Keyed.insert_perm htaken.sorted name cookie).map Prod.snd
    refine List.perm_iff_count.mpr fun c => ?_
    have h₁ := hp₁.count_eq c
    have h₂ := hp₂.count_eq c
    simp only [List.map_cons, List.count_cons, List.count_append] at h₁ h₂
    simp only [note, record, List.count_append, List.count_cons, List.cons_append]
    omega

theorem holds_invoke {c : Cookie} {work : Work} (h : Holds callbacks s (c :: work.carry ++ hand))
    (hopen : s.host.closed = false) (elsewhere : Bool) :
    Holds callbacks (s.invoke c work elsewhere) hand := by
  cases hk : c.key with
  | some key =>
    have hinv := Host.invoke_of_key hopen hk work
    have ho : Owned callbacks (s.host.invoke c work).2 (work.carry ++ hand ++ s.live) :=
      h.owned.invoke hopen work
    simp only [invoke, hinv, if_true] at ho ⊢
    refine ⟨ho.perm (List.perm_iff_count.mpr fun d => ?_), h.sorted⟩
    simp [record, live, stored, Message.carried, Message.work?, List.count_append]
    omega
  | none =>
    have hnot : (s.host.invoke c work) = (false, s.host) := by simp [Host.invoke, hk]
    have hrefused : c.refused = [] := by simp [Cookie.refused, Cookie.isArmed, hk]
    simp only [invoke, hnot, hrefused, List.foldl_nil, ite_self, Bool.false_eq_true, if_false]
    exact holds_releaseAll ⟨h.owned.inert hk, h.sorted⟩ hopen

/-! ## Steps -/

/-- What a state has to satisfy: as long as the host is open, nothing is lost or doubled. -/
def Inv (callbacks : List Callback) (s : State) : Prop :=
  s.host.closed = false → Holds callbacks s []

/-- A closed host has nothing to lose. -/
theorem inv_of_closed (h : s.host.closed = true) : Inv callbacks s := by
  intro hopen
  rw [h] at hopen
  cases hopen

theorem Inv.congr {s' : State} (h : Inv callbacks s) (hhost : s'.host = s.host)
    (hcookies : s'.cookies = s.cookies) (hstack : s'.stack.flatMap Frame.cookies =
      s.stack.flatMap Frame.cookies) : Inv callbacks s' := by
  intro hopen
  rw [hhost] at hopen
  refine (h hopen).move hhost (hcookies ▸ (h hopen).sorted) ?_
  rw [hcookies, hstack]

theorem inv_teardown (s : State) : Inv callbacks s.teardown :=
  inv_of_closed (teardown_closed s)

theorem inv_teardownIfGone (h : Inv callbacks s) : Inv callbacks s.teardownIfGone := by
  unfold teardownIfGone
  split
  · exact inv_teardown s
  · exact h

theorem register_host_closed (s : State) (name label : String) (script : List Action)
    (owns : List Source) : (s.register name label script owns).host.closed = s.host.closed := by
  simp only [register, releaseAll, Host.releaseAll_closed]
  split <;> simp [note, record, discard, releaseAll, takeCookies_host]

theorem foldl_note_host (s : State) (ns : List Log.Notice) : (ns.foldl note s).host = s.host := by
  induction ns generalizing s with
  | nil => rfl
  | cons n ns ih => exact ih _

theorem invoke_host_closed (s : State) (c : Cookie) (work : Work) (elsewhere : Bool) :
    (s.invoke c work elsewhere).host.closed = s.host.closed := by
  simp only [invoke]
  split
  · simp [record]
  · simp only [releaseAll, Host.releaseAll_closed]
    split
    · simp
    · simp [foldl_note_host]

/-- An action keeps the claims exact, whoever carries it out. -/
theorem inv_start (h : Inv callbacks s) (a : Action) :
    Inv (callbacks ++ s.registers a) (s.start a) := by
  cases a with
  | register name label script owns =>
    intro hopen
    have hopen' : s.host.closed = false := by
      rw [← register_host_closed s name label script owns]
      exact hopen
    exact (holds_register (h hopen') hopen' name label script owns).congr rfl rfl rfl
  | label name =>
    simp only [registers, List.append_nil, start]
    split <;> exact h.congr rfl rfl rfl
  | invoke source value elsewhere carry =>
    simp only [registers, List.append_nil, start]
    have hhost : ((s.takeCookie source).2.takeCookies carry).2.host = s.host :=
      (takeCookies_host _ _).trans (without_host s source)
    have htaken (hopen : s.host.closed = false) :=
      holds_takeCookies (holds_takeCookie (h hopen) source) carry
    split
    · next hnone =>
      intro hopen
      have hopen' : s.host.closed = false := by
        simpa [reply, releaseAll, hhost] using hopen
      have ht := htaken hopen'
      rw [hnone] at ht
      exact (holds_releaseAll (by simpa using ht) (by rw [hhost]; exact hopen')).congr rfl rfl rfl
    · next c hsome =>
      intro hopen
      have hopen' : s.host.closed = false := by
        simpa [reply, invoke_host_closed, hhost] using hopen
      have ht := htaken hopen'
      rw [hsome] at ht
      refine (holds_invoke (ht.perm ?_) (by rw [hhost]; exact hopen') elsewhere).congr rfl rfl rfl
      simp
  | drop source =>
    simp only [registers, List.append_nil, start]
    have htaken (hopen : s.host.closed = false) := holds_takeCookie (h hopen) source
    have hkeeps : (s.takeCookie source).2.host = s.host := without_host s source
    split
    · next t heq =>
      have hhost : t.host = s.host := by simpa only [heq] using hkeeps
      intro hopen
      have hopen' : s.host.closed = false := by simpa [reply, hhost] using hopen
      have ht := htaken hopen'
      rw [heq] at ht
      exact ht.congr rfl rfl rfl
    · next c t heq =>
      have hhost : t.host = s.host := by simpa only [heq] using hkeeps
      intro hopen
      have hopen' : s.host.closed = false := by
        simpa [reply, releaseAll, hhost] using hopen
      have ht := htaken hopen'
      rw [heq] at ht
      exact (holds_releaseAll (by simpa using ht) (by rw [hhost]; exact hopen')).congr rfl rfl rfl
  | poll =>
    simp only [registers, List.append_nil, start]
    split <;> exact h.congr rfl rfl rfl
  | runUntil condition =>
    simp only [registers, List.append_nil, start]
    split <;> exact h.congr rfl rfl rfl
  | teardown =>
    simp only [registers, List.append_nil, start]
    split
    · exact (inv_teardown s).congr rfl rfl rfl
    · exact h.congr rfl rfl rfl
  | dropHost =>
    simp only [registers, List.append_nil, start]
    have hgone : Inv callbacks { s with held := false } := h.congr rfl rfl rfl
    exact (inv_teardownIfGone hgone).congr rfl rfl rfl
  | unreadable verb reason =>
    simp only [registers, List.append_nil, start]
    exact h.congr rfl rfl rfl

/-- A message leaves the queue of an open host: it finds its callback, whose cookies, like those of
the work, go to the new frame or are dropped. -/
theorem holds_deliver {m : Message Work} {queue : List (Message Work)} (h : Holds callbacks s [])
    (hopen : s.host.closed = false) (hq : s.host.queue = m :: queue) {resume : Bool → Frame}
    (hresume : ∀ b, (resume b).cookies = []) {rest : List Frame}
    (hstack : rest.flatMap Frame.cookies = s.stack.flatMap Frame.cookies) :
    Holds callbacks (deliver { s with host := { s.host with queue } } m resume rest) [] := by
  obtain ⟨e, he, -, -, hd, ho⟩ := h.owned.dispatch hopen hq
  have hp := (Registry.contents_remove he).flatMap_right fun e => e.callback.owns
  set host' : Host Callback Work :=
    { s.host with queue, registry := (s.host.registry.remove m.key).2 }
  -- what was stored with the message and its callback is in the hand
  have hhand : Owned callbacks host' (m.carried ++ e.callback.owns ++
      (s.cookies.map Prod.snd ++ s.stack.flatMap Frame.cookies ++ stored host')) := by
    refine ho.perm (List.perm_iff_count.mpr fun c => ?_)
    have := hp.count_eq c
    simp only [List.flatMap_cons, List.count_append] at this
    simp only [List.nil_append, live, stored, hq, List.flatMap_cons, List.count_append, host']
    omega
  cases m with
  | call key label ticket work =>
    simp only [deliver, hd, Host.fate]
    refine ⟨hhand.perm (List.perm_iff_count.mpr fun c => ?_), h.sorted⟩
    simp only [live, note, record, List.flatMap_cons, hresume, hstack, List.count_append,
      List.nil_append, host']
    simp only [Message.carried, Message.work?, Option.map_some, Option.getD_some, Frame.cookies,
      List.count_append]
    omega
  | release key label ticket =>
    simp only [deliver, hd, Host.fate]
    refine holds_discard ⟨?_, h.sorted⟩ hopen
    simpa [Message.carried, Message.work?, note, record, live, hresume, hstack, host'] using hhand

theorem deliver_closed (s : State) (m : Message Work) (resume : Bool → Frame) (rest : List Frame) :
    (s.deliver m resume rest).host.closed = s.host.closed := by
  have hd : (s.host.dispatch m).2.closed = s.host.closed := by
    cases m with
    | call key label ticket work =>
      simp only [Host.dispatch]
      split
      · rfl
      · split <;> rfl
    | release key label ticket => rfl
  simp only [deliver]
  split
  · simp [releaseAll, note, record, hd]
  · simp [note, record, hd]
  · simp [releaseAll, note, record, hd]
  · split
    · simp [note, record, hd]
    · simp [note, record, hd]

theorem inv_stepPoll {count : Nat} {rest : List Frame} (h : Inv callbacks s)
    (hstack : s.stack = .polling count :: rest) : Inv callbacks (s.stepPoll count rest) := by
  have hrest : rest.flatMap Frame.cookies = s.stack.flatMap Frame.cookies := by
    simp [hstack, Frame.cookies]
  simp only [stepPoll, Host.receive]
  cases hq : s.host.queue with
  | nil => exact inv_teardownIfGone (h.congr rfl rfl hrest)
  | cons m queue =>
    intro hopen
    rw [deliver_closed] at hopen
    exact holds_deliver (h hopen) hopen hq (by intro b; cases b <;> rfl) hrest

theorem inv_stepWait {condition : Condition} {checks count : Nat} {rest : List Frame}
    (h : Inv callbacks s) (hstack : s.stack = .waiting condition checks count :: rest) :
    Inv callbacks (s.stepWait condition checks count rest) := by
  have hrest : rest.flatMap Frame.cookies = s.stack.flatMap Frame.cookies := by
    simp [hstack, Frame.cookies]
  have hstop (result : Except Error Unit) (n : Nat) : Inv callbacks
      (({ s with stack := rest }.record (.waited count)).reply (.awaited result n)).teardownIfGone :=
    inv_teardownIfGone (h.congr rfl rfl hrest)
  simp only [stepWait, Host.receive]
  split
  · exact hstop _ _
  · split
    · exact hstop _ _
    · cases hq : s.host.queue with
      | nil =>
        dsimp only
        split
        · exact hstop _ _
        · exact hstop _ _
      | cons m queue =>
        intro hopen
        rw [deliver_closed] at hopen
        exact holds_deliver (h hopen) hopen hq (by intro b; cases b <;> rfl) hrest

/-- The callbacks that the next step registers. -/
def nextRegisters (s : State) : List Callback :=
  match s.stack, s.answer with
  | .running _ _ (a :: _) _ _ :: _, none => s.registers a
  | _, _ => []

/-- The same cookies are within reach of an action. -/
structure SameReach (s s' : State) : Prop where
  /-- The table is the same. -/
  cookies : s'.cookies = s.cookies
  /-- The innermost frame has the same cookies. -/
  hands : s'.stack.head?.map Frame.hands = s.stack.head?.map Frame.hands

/-- Two stacks whose innermost frames have the same cookies. -/
theorem SameReach.head {s s' : State} (h : SameReach s s') :
    s.stack = [] ∧ s'.stack = [] ∨ ∃ frame rest frame' rest', s.stack = frame :: rest ∧
      s'.stack = frame' :: rest' ∧ frame'.hands = frame.hands := by
  have hhands := h.hands
  cases hs : s.stack with
  | nil =>
    cases hs' : s'.stack with
    | nil => exact Or.inl ⟨rfl, rfl⟩
    | cons => simp [hs, hs'] at hhands
  | cons frame rest =>
    cases hs' : s'.stack with
    | nil => simp [hs, hs'] at hhands
    | cons frame' rest' =>
      exact Or.inr ⟨frame, rest, frame', rest', rfl, rfl, by simpa [hs, hs'] using hhands⟩

theorem SameReach.cookie? {s s' : State} (h : SameReach s s') (source : Source) :
    s'.cookie? source = s.cookie? source := by
  cases source with
  | table name => exact congrArg (Keyed.find? name) h.cookies
  | owned place | carried place =>
    rcases h.head with ⟨hs, hs'⟩ | ⟨frame, rest, frame', rest', hs, hs', hhands⟩
    · simp only [State.cookie?, hs, hs']
    · simp only [State.cookie?, hs, hs', List.head?_cons, Option.bind_some]
      exact Frame.cookie?_congr hhands _

theorem SameReach.without {s s' : State} (h : SameReach s s') (source : Source) :
    SameReach (s.without source) (s'.without source) := by
  cases source with
  | table name => exact ⟨congrArg (Keyed.erase name) h.cookies, h.hands⟩
  | owned place | carried place =>
    refine ⟨h.cookies, ?_⟩
    rcases h.head with ⟨hs, hs'⟩ | ⟨frame, rest, frame', rest', hs, hs', hhands⟩
    · simp only [State.without, hs, hs']
    · simp only [State.without, hs, hs', List.modifyHead_cons, List.head?_cons, Option.map_some,
        Frame.hands_congr hhands]

theorem takeCookies_fst_congr {s s' : State} (h : SameReach s s') (sources : List Source) :
    (s'.takeCookies sources).1 = (s.takeCookies sources).1 := by
  induction sources generalizing s s' with
  | nil => rfl
  | cons source rest ih =>
    have htail : ((s'.without source).takeCookies rest).1 =
        ((s.without source).takeCookies rest).1 := ih (h.without source)
    simp only [takeCookies, takeCookie, htail, h.cookie? source]

theorem registers_congr {s s' : State} (h : SameReach s s') (a : Action) :
    s'.registers a = s.registers a := by
  cases a <;> simp [registers, takeCookies_fst_congr h]

theorem inv_step (h : Inv callbacks s) : Inv (callbacks ++ s.nextRegisters) s.step := by
  unfold step
  split
  · next hstack => simpa [nextRegisters, hstack] using h
  · next name current script owns carry rest hstack =>
    split
    · next a hanswer =>
      have hnone : s.nextRegisters = [] := by simp [nextRegisters, hstack, hanswer]
      rw [hnone, List.append_nil]
      split <;> exact h.congr rfl rfl rfl
    · next hanswer =>
      split
      · next a script =>
        set t : State := { s with stack := .running name (some a.verb) script owns carry :: rest }
        have hnext : Inv callbacks t := h.congr rfl rfl (by simp [t, hstack, Frame.cookies])
        have hregisters : s.nextRegisters = t.registers a := by
          have hreach : SameReach s t := ⟨rfl, by simp [t, hstack, Frame.hands]⟩
          rw [registers_congr hreach a]
          simp [nextRegisters, hstack, hanswer]
        rw [hregisters]
        exact inv_start hnext a
      · have hnone : s.nextRegisters = [] := by simp [nextRegisters, hstack, hanswer]
        rw [hnone, List.append_nil]
        intro hopen
        have hopen' : s.host.closed = false := by simpa [releaseAll] using hopen
        -- the cookies of the frame are in the hand
        have hhand : Holds callbacks { s with stack := rest } (owns ++ (carry ++ [])) := by
          refine (h hopen').move rfl (h hopen').sorted (List.perm_iff_count.mpr fun c => ?_)
          simp only [hstack, List.flatMap_cons, Frame.cookies, List.count_append]
          omega
        exact holds_releaseAll (holds_releaseAll hhand hopen') (by simpa [releaseAll] using hopen')
  · next count rest hstack => simpa [nextRegisters, hstack] using inv_stepPoll h hstack
  · next condition checks count rest hstack =>
    simpa [nextRegisters, hstack] using inv_stepWait h hstack

end State

/-! ## Runs -/

/-- The cookie belongs to the program, and not to a callback that runs. -/
def Source.isTabled : Source → Bool
  | table _ => true
  | _ => false

/-- The action can be carried out by another thread than the host's. -/
def Action.isRemote : Action → Bool
  | .invoke source _ elsewhere carry => elsewhere && source.isTabled && carry.all Source.isTabled
  | .drop source => source.isTabled
  | _ => false

namespace State

/-- The states that a host can get into, with all callbacks registered on the way, in order. -/
inductive Reachable : List Callback → State → Prop where
  /-- A new host. -/
  | new : Reachable [] {}
  /-- The program acts while the host thread is idle. -/
  | act {callbacks : List Callback} {s : State} (a : Action) (h : Reachable callbacks s)
      (idle : s.isIdle = true) :
      Reachable (callbacks ++ s.registers a) ({ s with answer := none }.start a)
  /-- Another thread invokes or drops a cookie, whatever the host thread is in the middle of. -/
  | elsewhere {callbacks : List Callback} {s : State} (a : Action) (h : Reachable callbacks s)
      (remote : a.isRemote = true) : Reachable callbacks { s.start a with answer := s.answer }
  /-- The host thread goes on with what it is in the middle of. -/
  | step {callbacks : List Callback} {s : State} (h : Reachable callbacks s) :
      Reachable (callbacks ++ s.nextRegisters) s.step

theorem inv_new : Inv [] {} :=
  fun _ => ⟨Owned.empty, Keyed.sorted_nil⟩

theorem Reachable.inv {callbacks : List Callback} {s : State} (h : Reachable callbacks s) :
    Inv callbacks s := by
  induction h with
  | new => exact inv_new
  | @act callbacks s a _ _ ih =>
    have hnext : Inv callbacks { s with answer := none } := ih.congr rfl rfl rfl
    have hreach : SameReach s { s with answer := none } := ⟨rfl, rfl⟩
    rw [← registers_congr hreach a]
    exact inv_start hnext a
  | @elsewhere callbacks s a _ remote ih =>
    have hnone : s.registers a = [] := by
      cases a <;> first | rfl | cases remote
    have := inv_start ih a
    rw [hnone, List.append_nil] at this
    exact this.congr rfl rfl rfl
  | step _ ih => exact inv_step ih

/-- Driving the host thread stays among the reachable states. -/
theorem Reachable.drive {callbacks : List Callback} {s : State} (h : Reachable callbacks s)
    (n : Nat) : ∃ more, Reachable (callbacks ++ more) (drive n s) := by
  induction n generalizing callbacks s with
  | zero => exact ⟨[], by simpa [State.drive] using h⟩
  | succ n ih =>
    unfold State.drive
    split
    · exact ⟨[], by simpa using h⟩
    · obtain ⟨more, hmore⟩ := ih h.step
      exact ⟨s.nextRegisters ++ more, by simpa using hmore⟩

/-- So does carrying out an action to its end. -/
theorem Reachable.perform {callbacks : List Callback} {s : State} (h : Reachable callbacks s)
    (idle : s.isIdle = true) (a : Action) :
    ∃ more, Reachable (callbacks ++ more) (s.perform a) := by
  obtain ⟨more, hmore⟩ := (h.act a idle).drive ({ s with answer := none }.start a).weight
  refine ⟨s.registers a ++ more, ?_⟩
  rw [← List.append_assoc]
  exact hmore

end State

end HostBridge.Bridge
