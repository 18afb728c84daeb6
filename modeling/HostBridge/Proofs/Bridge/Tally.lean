import HostBridge.Proofs.Bridge.Machine
import Mathlib.Algebra.GroupWithZero.Nat
import Mathlib.Logic.Relation

/-!
# The books of a host

Of everything that a host thread does, few things concern the callbacks: one is registered or
refused, a call of it is queued, it begins to run, it is dropped, all of them are dropped at once.
`Tally` keeps the books of these things, `Tally.Move` lists them, and every action and every step of
the machine is nothing but such moves. The laws of delivery are then laws of the books:

* as long as the host is open, the calls that were queued are those that ran and those that still
  wait, in this order;
* a callback that was registered or refused has begun to run, was dropped, or waits in its slot:
  one of the three, and once;
* what polls and waits have counted are the callbacks that began to run.
-/

namespace HostBridge.Bridge

/-! ## What the trace says -/

/-- The registration whose call was queued. -/
def Occurrence.requested? : Occurrence → Option Nat
  | requested ticket => some ticket
  | _ => none

/-- The registration whose callback began to run. -/
def Occurrence.invoked? : Occurrence → Option Nat
  | invoked ticket _ _ => some ticket
  | _ => none

/-- The registration whose callback was dropped unrun. -/
def Occurrence.dropped? : Occurrence → Option Nat
  | dropped ticket _ => some ticket
  | _ => none

/-- How many callbacks a poll or a wait that returned has run. -/
def Occurrence.returned : Occurrence → Nat
  | polled count => count
  | waited count => count
  | _ => 0

/-- How many callbacks a poll or a wait that is under way has run. -/
def Frame.ran : Frame → Nat
  | polling count => count
  | waiting _ _ count => count
  | running .. => 0

/-- Cookies count nothing. -/
@[simp]
theorem Frame.ran_bare (frame : Frame) : frame.bare.ran = frame.ran := by
  cases frame <;> rfl

/-- The registration of a call. -/
def Message.called? : Message Work → Option Nat
  | call _ _ ticket _ => some ticket
  | release .. => none

namespace State

/-- The registrations whose calls were queued, the oldest first. -/
def requests (s : State) : List Nat :=
  (s.trace.filterMap Occurrence.requested?).reverse

/-- The registrations whose callbacks began to run, the oldest first. -/
def calls (s : State) : List Nat :=
  (s.trace.filterMap Occurrence.invoked?).reverse

/-- The registrations whose callbacks were dropped unrun, the newest first. -/
def drops (s : State) : List Nat :=
  s.trace.filterMap Occurrence.dropped?

/-- What all polls and waits have returned, the latter by the callbacks that they ran. -/
def returned (s : State) : Nat :=
  (s.trace.map Occurrence.returned).sum

/-- What the polls and waits that are under way have run so far. -/
def underway (s : State) : Nat :=
  (s.stack.map Frame.ran).sum

end State

/-! ## The books -/

/-- What matters of a host and its trace. -/
structure Tally where
  /-- The calls that were queued, the oldest first. -/
  requests : List Nat
  /-- The calls that were run, the oldest first. -/
  calls : List Nat
  /-- The callbacks that were dropped, the newest first. -/
  drops : List Nat
  /-- What polls and waits have counted. -/
  counted : Nat
  /-- The calls that wait in the queue. -/
  queued : List Nat
  /-- The callbacks that wait in their slots. -/
  kept : List Nat
  /-- The number of registrations so far. -/
  issued : Nat
  /-- The host is closed. -/
  closed : Bool

namespace Tally

/-- The things that can happen to callbacks. -/
inductive Move (b : Tally) : Tally → Prop
  /-- A callback is registered. -/
  | register {kept : List Nat} (hopen : b.closed = false) (hkept : kept.Perm (b.issued :: b.kept)) :
      Move b { b with kept, issued := b.issued + 1 }
  /-- A closed host refuses a callback, which is dropped. -/
  | refuse (hclosed : b.closed = true) :
      Move b { b with drops := b.issued :: b.drops, issued := b.issued + 1 }
  /-- What a closed host finds in its queue is of no account. -/
  | late (hclosed : b.closed = true) (queued : List Nat) : Move b { b with queued }
  /-- A call is queued. -/
  | request (hopen : b.closed = false) (ticket : Nat) :
      Move b { b with requests := b.requests ++ [ticket], queued := b.queued ++ [ticket] }
  /-- The oldest call is run, and counted by the poll or the wait that runs it. -/
  | run {ticket : Nat} {queued kept : List Nat} (hopen : b.closed = false)
      (hqueued : b.queued = ticket :: queued) (hkept : b.kept.Perm (ticket :: kept)) :
      Move b { b with calls := b.calls ++ [ticket], counted := b.counted + 1, queued, kept }
  /-- A callback is dropped. -/
  | drop {ticket : Nat} {kept : List Nat} (hopen : b.closed = false)
      (hkept : b.kept.Perm (ticket :: kept)) :
      Move b { b with drops := ticket :: b.drops, kept }
  /-- The host is torn down: everything that waits is dropped. -/
  | close (hopen : b.closed = false) :
      Move b { b with drops := b.kept.reverse ++ b.drops, queued := [], kept := [], closed := true }

/-- Things in a row. -/
abbrev Moves : Tally → Tally → Prop :=
  Relation.ReflTransGen Move

/-- The laws of the books. -/
structure Balanced (b : Tally) : Prop where
  /-- The calls of an open host were run or wait, in this order. -/
  inOrder : b.closed = false → b.requests = b.calls ++ b.queued
  /-- The calls that were run are the oldest. -/
  oldest : b.calls <+: b.requests
  /-- A callback began to run, was dropped or waits: one of the three, and once. -/
  once : ∀ ticket, b.calls.count ticket + b.drops.count ticket + b.kept.count ticket =
    if ticket < b.issued then 1 else 0
  /-- What was counted are the calls that were run. -/
  counts : b.counted = b.calls.length

variable {b b' : Tally}

theorem Balanced.move (h : b.Balanced) (hmove : b.Move b') : b'.Balanced := by
  cases hmove with
  | @register kept hopen hkept =>
    refine ⟨h.inOrder, h.oldest, fun ticket => ?_, h.counts⟩
    have hcount := hkept.count_eq ticket
    have honce := h.once ticket
    simp only [List.count_cons] at hcount
    simp only [hcount]
    by_cases ht : b.issued = ticket
    · subst ht
      simp at honce
      simp
      omega
    · have hlt : ticket < b.issued + 1 ↔ ticket < b.issued := by omega
      simp only [beq_iff_eq, ht, if_false, hlt]
      omega
  | refuse hclosed =>
    refine ⟨fun hopen => ?_, h.oldest, fun ticket => ?_, h.counts⟩
    · rw [hclosed] at hopen
      cases hopen
    · have honce := h.once ticket
      simp only [List.count_cons]
      by_cases ht : b.issued = ticket
      · subst ht
        simp at honce
        simp
        omega
      · have hlt : ticket < b.issued + 1 ↔ ticket < b.issued := by omega
        simp only [beq_iff_eq, ht, if_false, hlt]
        omega
  | late hclosed queued =>
    refine ⟨fun hopen => ?_, h.oldest, h.once, h.counts⟩
    rw [hclosed] at hopen
    cases hopen
  | request hopen ticket =>
    refine ⟨fun _ => ?_, h.oldest.trans (List.prefix_append _ _), h.once, h.counts⟩
    simp only [h.inOrder hopen, List.append_assoc]
  | @run ticket queued kept hopen hqueued hkept =>
    have horder := h.inOrder hopen
    rw [hqueued] at horder
    refine ⟨fun _ => by simp [horder], ⟨queued, by simp [horder]⟩, fun t => ?_, by simp [h.counts]⟩
    have hcount := hkept.count_eq t
    have honce := h.once t
    simp only [List.count_cons] at hcount
    simp only [List.count_append, List.count_cons, List.count_nil]
    omega
  | @drop ticket kept hopen hkept =>
    refine ⟨h.inOrder, h.oldest, fun t => ?_, h.counts⟩
    have hcount := hkept.count_eq t
    have honce := h.once t
    simp only [List.count_cons] at hcount ⊢
    omega
  | close hopen =>
    refine ⟨(nomatch ·), h.oldest, fun t => ?_, h.counts⟩
    have honce := h.once t
    simp only [List.count_append, List.count_reverse, List.count_nil]
    omega

theorem Balanced.moves (h : b.Balanced) (hmoves : b.Moves b') : b'.Balanced := by
  induction hmoves with
  | refl => exact h
  | tail _ hlast ih => exact ih.move hlast

/-- Nothing is registered and nothing runs once the host is closed. -/
theorem Moves.closed (hmoves : b.Moves b') (hclosed : b.closed = true) :
    b'.closed = true ∧ b'.calls = b.calls ∧ b'.kept = b.kept := by
  induction hmoves with
  | refl => exact ⟨hclosed, rfl, rfl⟩
  | tail _ hlast ih =>
    obtain ⟨hclosed', hcalls, hkept⟩ := ih
    cases hlast with
    | refuse _ | late _ _ => exact ⟨hclosed', hcalls, hkept⟩
    | register hopen _ | request hopen _ | run hopen _ _ | drop hopen _ | close hopen =>
      rw [hclosed'] at hopen
      cases hopen

/-- What a closed host drops is what it refuses, each once. -/
theorem Moves.drops (hmoves : b.Moves b') (hclosed : b.closed = true) (ticket : Nat) :
    b'.drops.count ticket + (if ticket < b.issued then 1 else 0) =
      b.drops.count ticket + if ticket < b'.issued then 1 else 0 := by
  induction hmoves with
  | refl => rfl
  | @tail c d hfirst hlast ih =>
    have hclosed' := (Moves.closed hfirst hclosed).1
    cases hlast with
    | late _ _ => exact ih
    | refuse _ =>
      simp only [List.count_cons]
      by_cases ht : c.issued = ticket
      · subst ht
        simp at ih ⊢
        omega
      · have hlt : ticket < c.issued + 1 ↔ ticket < c.issued := by omega
        simp only [beq_iff_eq, ht, if_false, hlt]
        omega
    | register hopen _ | request hopen _ | run hopen _ _ | drop hopen _ | close hopen =>
      rw [hclosed'] at hopen
      cases hopen

/-- The slots of a closed host are empty. -/
theorem Moves.kept (hmoves : b.Moves b') (h : b.closed = true → b.kept = [])
    (hclosed : b'.closed = true) : b'.kept = [] := by
  induction hmoves with
  | refl => exact h hclosed
  | tail _ hlast ih =>
    cases hlast with
    | refuse hclosed' | late hclosed' _ => exact ih hclosed'
    | register hopen _ | request hopen _ | run hopen _ _ | drop hopen _ =>
      simp only [hopen] at hclosed
      cases hclosed
    | close _ => rfl

end Tally

/-! ## The machine keeps its books -/

/-- The occurrence does not concern the books. -/
def Occurrence.isSilent : Occurrence → Bool
  | logged _ | registered _ | stepped .. => true
  | _ => false

namespace State

open Relation (ReflTransGen)
open Tally (Moves)

variable {callbacks : List Callback} {s s' : State}

/-- The books of a state. -/
def tally (s : State) : Tally where
  requests := s.requests
  calls := s.calls
  drops := s.drops
  counted := s.returned + s.underway
  queued := s.host.queue.filterMap Message.called?
  kept := s.host.registry.contents.map Entry.ticket
  issued := s.host.issued
  closed := s.host.closed

/-- What an occurrence adds to the books. -/
theorem tally_record (s : State) (o : Occurrence) :
    (s.record o).tally = { s.tally with
      requests := s.requests ++ o.requested?.toList
      calls := s.calls ++ o.invoked?.toList
      drops := o.dropped?.toList ++ s.drops
      counted := o.returned + (s.returned + s.underway) } := by
  have hcons : ∀ f : Occurrence → Option Nat,
      (o :: s.trace).filterMap f = (f o).toList ++ s.trace.filterMap f := by
    intro f
    cases hf : f o <;> simp [hf]
  have hreverse : ∀ x : Option Nat, x.toList.reverse = x.toList := by
    intro x
    cases x <;> rfl
  simp [tally, record, requests, calls, drops, returned, underway, hcons, hreverse, Nat.add_assoc]

/-! ### What does not concern the books -/

/-- The occurrence does not concern the books. -/
theorem tally_record_silent {o : Occurrence} (h : o.isSilent = true) (s : State) :
    (s.record o).tally = s.tally := by
  rw [tally_record]
  cases o with
  | logged | registered | stepped =>
    simp [tally, Occurrence.requested?, Occurrence.invoked?, Occurrence.dropped?,
      Occurrence.returned]
  | requested | invoked | dropped | polled | waited => cases h

theorem tally_cookies (s : State) (cookies : Keyed Cookie) :
    ({ s with cookies } : State).tally = s.tally := rfl

theorem tally_note (s : State) (n : Log.Notice) : (s.note n).tally = s.tally :=
  tally_record_silent rfl s

theorem tally_foldl_note (s : State) (ns : List Log.Notice) :
    (ns.foldl note s).tally = s.tally := by
  induction ns generalizing s with
  | nil => rfl
  | cons n ns ih => exact (ih _).trans (tally_note s n)

theorem queued_release (h : Host Callback Work) (c : Cookie) :
    (h.release c).queue.filterMap Message.called? = h.queue.filterMap Message.called? := by
  unfold Host.release
  split
  · rfl
  · split
    · rfl
    · simp [Message.called?]

/-- Dropping cookies queues no call. -/
theorem tally_releaseAll (s : State) (cs : List Cookie) : (s.releaseAll cs).tally = s.tally := by
  have hqueued : ∀ h : Host Callback Work, (h.releaseAll cs).queue.filterMap Message.called? =
      h.queue.filterMap Message.called? := by
    induction cs with
    | nil => exact fun h => rfl
    | cons c cs ih => exact fun h => (ih _).trans (queued_release h c)
  have hissued : ∀ h : Host Callback Work, (h.releaseAll cs).issued = h.issued := by
    clear hqueued
    induction cs with
    | nil => exact fun h => rfl
    | cons c cs ih => exact fun h => (ih _).trans (Host.release_issued h c)
  simp only [tally, releaseAll, hqueued, hissued, Host.releaseAll_registry, Host.releaseAll_closed]
  rfl

/-- It does not matter who has which cookie. -/
theorem tally_bare {stack : List Frame} (h : stack.map Frame.bare = s.stack.map Frame.bare)
    (cookies : Keyed Cookie) : ({ s with cookies, stack } : State).tally = s.tally := by
  have hran : stack.map Frame.ran = s.stack.map Frame.ran := by
    simpa [Function.comp_def] using congrArg (List.map Frame.ran) h
  simp [tally, requests, calls, drops, returned, underway, hran]

theorem tally_without (s : State) (source : Source) : (s.without source).tally = s.tally := by
  obtain ⟨cookies, stack, h, hbare⟩ := without_eq s source
  rw [h]
  exact tally_bare hbare cookies

theorem tally_takeCookies (s : State) (sources : List Source) :
    (s.takeCookies sources).2.tally = s.tally := by
  obtain ⟨cookies, stack, h, hbare⟩ := takeCookies_eq s sources
  rw [h]
  exact tally_bare hbare cookies

/-! ### Callbacks and calls -/

theorem tally_discard (s : State) (e : Entry Callback) :
    (s.discard e).tally = { s.tally with drops := e.ticket :: s.drops } := by
  rw [discard, tally_releaseAll, tally_record]
  simp [tally, Occurrence.requested?, Occurrence.invoked?, Occurrence.dropped?, Occurrence.returned]

theorem tally_foldl_discard (es : List (Entry Callback)) (s : State) :
    (es.foldl discard s).tally =
      { s.tally with drops := (es.map Entry.ticket).reverse ++ s.drops } := by
  induction es generalizing s with
  | nil => rfl
  | cons e es ih =>
    have hdrops : (s.discard e).drops = e.ticket :: s.drops :=
      congrArg Tally.drops (tally_discard s e)
    rw [List.foldl_cons, ih, tally_discard, hdrops]
    simp

/-- A teardown drops everything that waits. -/
theorem moves_teardown (s : State) : Moves s.tally s.teardown.tally := by
  unfold teardown
  cases hclosed : s.host.closed with
  | true =>
    have hnone : s.host.teardown = (none, s.host) := by simp [Host.teardown, hclosed]
    simp only [hnone]
    exact .refl
  | false =>
    have hsome : s.host.teardown = (some (s.host.queue, s.host.registry.contents),
        { s.host with closed := true, queue := [], registry := {} }) := by
      simp [Host.teardown, hclosed]
    simp only [hsome, tally_foldl_discard, tally_note, discardMessages, tally_releaseAll]
    exact .single (.close hclosed)

theorem moves_teardownIfGone (s : State) : Moves s.tally s.teardownIfGone.tally := by
  unfold teardownIfGone
  split
  · exact moves_teardown s
  · exact .refl

/-- A registration fills a slot, or it is refused. -/
theorem moves_register (hvalid : s.host.closed = false → s.host.registry.Valid) (name label : String)
    (script : List Action) (owns : List Source) :
    Moves s.tally (s.register name label script owns).tally := by
  have hhost := takeCookies_host s owns
  have htally := tally_takeCookies s owns
  obtain ⟨owned, t, htaken⟩ : ∃ owned t, s.takeCookies owns = (owned, t) := ⟨_, _, rfl⟩
  simp only [htaken] at hhost htally
  rw [← htally]
  cases hclosed : t.host.closed with
  | true =>
    have hregister : t.host.register label ⟨name, script, owned⟩ =
        (⟨none, label, t.host.issued⟩, { t.host with issued := t.host.issued + 1 }) := by
      simp [Host.register, hclosed]
    simp only [register, htaken, hregister, Cookie.isArmed, Option.isSome_none, Bool.false_eq_true,
      if_false, tally_releaseAll, tally_cookies, tally_discard, tally_note]
    exact .single (Tally.Move.refuse hclosed)
  | false =>
    have hregister : t.host.register label ⟨name, script, owned⟩ =
        (⟨some (t.host.registry.insert ⟨t.host.issued, ⟨name, script, owned⟩⟩).1, label,
          t.host.issued⟩, { t.host with
            registry := (t.host.registry.insert ⟨t.host.issued, ⟨name, script, owned⟩⟩).2
            issued := t.host.issued + 1 }) := by
      simp [Host.register, hclosed]
    have hvalid' : t.host.registry.Valid := hhost ▸ hvalid (hhost ▸ hclosed)
    have hkept := (Registry.contents_insert hvalid'
      (⟨t.host.issued, ⟨name, script, owned⟩⟩ : Entry Callback)).map Entry.ticket
    simp only [register, htaken, hregister, Cookie.isArmed, Option.isSome_some, if_true,
      tally_releaseAll, tally_cookies, tally_note,
      tally_record_silent (o := .registered t.host.issued) rfl]
    exact .single (Tally.Move.register hclosed hkept)

/-- An armed cookie of an open host queues a call; otherwise nothing happens. -/
theorem moves_invoke (s : State) (c : Cookie) (work : Work) (elsewhere : Bool) :
    Moves s.tally (s.invoke c work elsewhere).tally := by
  by_cases hqueues : s.host.closed = false ∧ c.isArmed = true
  · obtain ⟨hopen, harmed⟩ := hqueues
    obtain ⟨key, hkey⟩ := Option.isSome_iff_exists.mp harmed
    have hrequest := Tally.Move.request (b := s.tally) hopen c.ticket
    simp only [invoke, Host.invoke_of_key hopen hkey, if_true, tally_record]
    refine .single ?_
    convert hrequest using 1
    simp [tally, requests, calls, drops, returned, underway, Occurrence.requested?,
      Occurrence.invoked?, Occurrence.dropped?, Occurrence.returned, Message.called?]
  · have hrefused : s.host.invoke c work = (false, s.host) := by
      cases hkey : c.key with
      | none => simp [Host.invoke, hkey]
      | some key =>
        have hclosed : s.host.closed = true := by
          by_contra hopen
          exact hqueues ⟨by simpa using hopen, by simp [Cookie.isArmed, hkey]⟩
        simp [Host.invoke, hkey, hclosed]
    simp only [invoke, hrefused, Bool.false_eq_true, if_false, tally_releaseAll]
    split
    · exact .refl
    · rw [tally_foldl_note]

/-- A poll or a wait that begins has counted nothing. -/
theorem tally_push {frame : Frame} (h : frame.ran = 0) (s : State) :
    ({ s with stack := frame :: s.stack } : State).tally = s.tally := by
  simp [tally, underway, h, requests, calls, drops, returned]

/-- An action is nothing but such moves. -/
theorem moves_start (hvalid : s.host.closed = false → s.host.registry.Valid) (a : Action) :
    Moves s.tally (s.start a).tally := by
  have hreply : ∀ (t : State) (answer : Answer), (t.reply answer).tally = t.tally := fun _ _ => rfl
  cases a with
  | register name label script owns => exact moves_register hvalid name label script owns
  | label name =>
    simp only [start]
    split <;> exact .refl
  | invoke source value elsewhere carry =>
    have htaken := tally_takeCookies (s.takeCookie source).2 carry
    have hcookie : (s.takeCookie source).2.tally = s.tally := tally_without s source
    rw [hcookie] at htaken
    simp only [start]
    split
    · rw [hreply, tally_releaseAll, htaken]
    · next c _ =>
      rw [hreply, ← htaken]
      exact moves_invoke _ c _ elsewhere
  | drop source =>
    have hcookie : (s.takeCookie source).2.tally = s.tally := tally_without s source
    simp only [start]
    split
    · next t heq =>
      rw [heq] at hcookie
      rw [hreply, hcookie]
    · next c t heq =>
      rw [heq] at hcookie
      rw [hreply, tally_releaseAll, hcookie]
  | poll =>
    simp only [start]
    split
    · rw [tally_push rfl]
    · exact .refl
  | runUntil condition =>
    simp only [start]
    split
    · rw [tally_push rfl]
    · exact .refl
  | teardown =>
    simp only [start]
    split
    · exact moves_teardown s
    · exact .refl
  | dropHost => exact moves_teardownIfGone { s with held := false }
  | unreadable verb reason => exact .refl

/-! ### Steps -/

/-- A message of an open host that finds its callback runs it or drops it. -/
theorem moves_deliver {m : Message Work} {queue : List (Message Work)} {e : Entry Callback}
    {frame : Frame} {rest : List Frame} {resume : Bool → Frame} (hopen : s.host.closed = false)
    (hqueue : s.host.queue = m :: queue) (he : s.host.registry.get? m.key = some e)
    (hticket : e.ticket = m.ticket) (hstack : s.stack = frame :: rest)
    (hresume : ∀ ran, (resume ran).ran = frame.ran + if ran then 1 else 0) :
    Moves s.tally (deliver { s with host := { s.host with queue } } m resume rest).tally := by
  have hdispatch : ({ s.host with queue } : Host Callback Work).dispatch m = _ :=
    Host.dispatch_eq hopen he
  have hkept := (Registry.contents_remove he).map Entry.ticket
  rw [List.map_cons, hticket] at hkept
  have hunderway : s.tally.counted = s.returned + (frame.ran + (rest.map Frame.ran).sum) := by
    simp [tally, underway, hstack]
  cases m with
  | call key label ticket work =>
    have hqueued : s.tally.queued = ticket :: queue.filterMap Message.called? := by
      simp [tally, hqueue, Message.called?]
    have hrun := Tally.Move.run (b := s.tally) hopen hqueued hkept
    simp only [deliver, hdispatch, Host.fate]
    refine .single ?_
    rw [hunderway] at hrun
    convert hrun using 1
    have hrunning : (Frame.running e.callback.name none e.callback.script e.callback.owns
        work.carry).ran = 0 := rfl
    simp [tally, note, record, requests, calls, drops, returned, underway, Occurrence.requested?,
      Occurrence.invoked?, Occurrence.dropped?, Occurrence.returned, List.filterMap_cons, hresume,
      hrunning, hticket, Message.ticket]
    omega
  | release key label ticket =>
    have hqueued : s.tally.queued = queue.filterMap Message.called? := by
      simp [tally, hqueue, Message.called?, List.filterMap_cons]
    have hdrop := Tally.Move.drop (b := s.tally) hopen hkept
    rw [hunderway, hqueued] at hdrop
    simp only [deliver, hdispatch, Host.fate]
    refine .single ?_
    rw [tally_discard]
    convert hdrop using 1
    simp [tally, note, record, requests, calls, drops, returned, underway, Occurrence.requested?,
      Occurrence.invoked?, Occurrence.dropped?, Occurrence.returned, List.filterMap_cons, hresume,
      hticket]

/-- A poll or a wait that ends returns what it has counted. -/
theorem tally_return {frame : Frame} {rest : List Frame} {o : Occurrence}
    (hstack : s.stack = frame :: rest) (ho : o = .polled frame.ran ∨ o = .waited frame.ran) :
    (({ s with stack := rest } : State).record o).tally = s.tally := by
  rw [tally_record]
  rcases ho with rfl | rfl <;>
    simp [tally, requests, calls, drops, returned, hstack, underway, Occurrence.requested?,
      Occurrence.invoked?, Occurrence.dropped?, Occurrence.returned, Nat.add_left_comm]

theorem moves_return {frame : Frame} {rest : List Frame} {o : Occurrence}
    (hstack : s.stack = frame :: rest) (ho : o = .polled frame.ran ∨ o = .waited frame.ran)
    (answer : Answer) : Moves s.tally
      (({ s with stack := rest }.record o).reply answer).teardownIfGone.tally := by
  have hmoves := moves_teardownIfGone (({ s with stack := rest }.record o).reply answer)
  have hreply : (({ s with stack := rest }.record o).reply answer).tally =
      ({ s with stack := rest }.record o).tally := rfl
  rwa [hreply, tally_return hstack ho] at hmoves

/-! ### A closed host -/

/-- Cookies of a closed host are dropped without a message. -/
theorem releaseAll_of_closed (hclosed : s.host.closed = true) (cs : List Cookie) :
    s.releaseAll cs = s := by
  have hrelease : ∀ c, s.host.release c = s.host := by
    intro c
    unfold Host.release
    split
    · rfl
    · simp [hclosed]
  have hall : s.host.releaseAll cs = s.host := by
    induction cs with
    | nil => rfl
    | cons c cs ih =>
      rw [Host.releaseAll, List.foldl_cons, hrelease]
      exact ih
  rw [releaseAll, hall]

theorem teardown_of_closed (hclosed : s.host.closed = true) : s.teardown = s := by
  have hnone : s.host.teardown = (none, s.host) := by simp [Host.teardown, hclosed]
  simp only [teardown, hnone]

theorem teardownIfGone_of_closed (hclosed : s.host.closed = true) : s.teardownIfGone = s := by
  unfold teardownIfGone
  split
  · exact teardown_of_closed hclosed
  · rfl

/-- A closed host drops a message. -/
theorem deliver_of_closed (hclosed : s.host.closed = true) (hempty : s.host.registry.contents = [])
    (m : Message Work) (resume : Bool → Frame) (rest : List Frame) :
    ∃ notice, s.deliver m resume rest =
      { s with stack := resume false :: rest, trace := .logged notice :: s.trace } := by
  cases m with
  | call key label ticket work =>
    have hdispatch : s.host.dispatch (.call key label ticket work) = (.late label work, s.host) := by
      simp [Host.dispatch, hclosed]
    refine ⟨.lateCallDropped label, ?_⟩
    simp only [deliver, hdispatch]
    exact releaseAll_of_closed (s := { s with
      stack := resume false :: rest, trace := .logged (.lateCallDropped label) :: s.trace })
      hclosed work.carry
  | release key label ticket =>
    have hget : s.host.registry.get? key = none := by
      cases hsome : s.host.registry.get? key with
      | none => rfl
      | some e =>
        have hmem := Registry.mem_contents.mpr ⟨key, hsome⟩
        rw [hempty] at hmem
        cases hmem
    have hdispatch : s.host.dispatch (.release key label ticket) =
        (.released label none, s.host) := by
      simp [Host.dispatch, Registry.remove, hget]
    refine ⟨.callbackReleased label, ?_⟩
    simp only [deliver, hdispatch]
    rfl

/-! ### Steps of a poll and of a wait -/

/-- What a poll or a wait does with the message that it has taken from the queue. -/
theorem moves_take {m : Message Work} {queue : List (Message Work)} {frame : Frame}
    {rest : List Frame} {resume : Bool → Frame} (hinv : Inv callbacks s)
    (hempty : s.host.closed = true → s.host.registry.contents = [])
    (hqueue : s.host.queue = m :: queue) (hstack : s.stack = frame :: rest)
    (hresume : ∀ ran, (resume ran).ran = frame.ran + if ran then 1 else 0) :
    Moves s.tally (deliver { s with host := { s.host with queue } } m resume rest).tally := by
  cases hclosed : s.host.closed with
  | false =>
    obtain ⟨e, he, hticket, -⟩ := (hinv hclosed).owned.dispatch hclosed hqueue
    exact moves_deliver hclosed hqueue he hticket hstack hresume
  | true =>
    obtain ⟨notice, hdeliver⟩ := deliver_of_closed
      (s := { s with host := { s.host with queue } }) hclosed (hempty hclosed) m resume rest
    rw [hdeliver]
    have hlate := Tally.Move.late (b := s.tally) hclosed (queue.filterMap Message.called?)
    refine .single ?_
    convert hlate using 1
    simp [tally, requests, calls, drops, returned, underway, Occurrence.requested?,
      Occurrence.invoked?, Occurrence.dropped?, Occurrence.returned, List.filterMap_cons, hstack,
      hresume]

theorem moves_stepPoll {count : Nat} {rest : List Frame} (hinv : Inv callbacks s)
    (hempty : s.host.closed = true → s.host.registry.contents = [])
    (hstack : s.stack = .polling count :: rest) : Moves s.tally (s.stepPoll count rest).tally := by
  simp only [stepPoll, Host.receive]
  cases hqueue : s.host.queue with
  | nil => exact moves_return hstack (Or.inl rfl) (.count count)
  | cons m queue =>
    refine moves_take hinv hempty hqueue hstack fun ran => ?_
    cases ran <;> rfl

theorem moves_stepWait {condition : Condition} {checks count : Nat} {rest : List Frame}
    (hinv : Inv callbacks s) (hempty : s.host.closed = true → s.host.registry.contents = [])
    (hstack : s.stack = .waiting condition checks count :: rest) :
    Moves s.tally (s.stepWait condition checks count rest).tally := by
  have hstop := fun (result : Except Error Unit) (n : Nat) =>
    moves_return hstack (Or.inr rfl) (.awaited result n)
  simp only [stepWait, Host.receive]
  split
  · exact hstop _ _
  · split
    · exact hstop _ _
    · cases hqueue : s.host.queue with
      | nil =>
        dsimp only
        split <;> exact hstop _ _
      | cons m queue =>
        refine moves_take hinv hempty hqueue hstack fun ran => ?_
        cases ran <;> rfl

/-- A step of the host thread is nothing but such moves. -/
theorem moves_step (hinv : Inv callbacks s)
    (hempty : s.host.closed = true → s.host.registry.contents = []) :
    Moves s.tally s.step.tally := by
  unfold step
  split
  · exact .refl
  · next name current script owns carry rest hstack =>
    split
    · next a _ =>
      split
      · next verb =>
        rw [tally_record_silent rfl]
        exact .refl
      · exact .refl
    · split
      · next a script =>
        set t : State := { s with stack := .running name (some a.verb) script owns carry :: rest }
        have ht : t.tally = s.tally := by
          simp [t, tally, requests, calls, drops, returned, underway, hstack, Frame.ran]
        rw [← ht]
        exact moves_start (s := t) (fun hopen => (hinv hopen).owned.valid) a
      · rw [tally_releaseAll, tally_releaseAll]
        have ht : ({ s with stack := rest } : State).tally = s.tally := by
          simp [tally, requests, calls, drops, returned, underway, hstack, Frame.ran]
        rw [ht]
  · next count rest hstack => exact moves_stepPoll hinv hempty hstack
  · next condition checks count rest hstack => exact moves_stepWait hinv hempty hstack

/-! ### Runs -/

/-- What holds of the books at every moment of a run. -/
structure Kept (s : State) : Prop where
  /-- The books balance. -/
  balanced : s.tally.Balanced
  /-- The slots of a closed host are empty. -/
  empty : s.host.closed = true → s.host.registry.contents = []

theorem Kept.moves (h : s.Kept) (hmoves : Moves s.tally s'.tally) : s'.Kept where
  balanced := h.balanced.moves hmoves
  empty hclosed := by
    have hkept := hmoves.kept (fun hc => by simp [tally, h.empty hc]) hclosed
    exact List.map_eq_nil_iff.mp hkept

theorem Reachable.kept (h : Reachable callbacks s) : s.Kept := by
  induction h with
  | new => exact ⟨⟨fun _ => rfl, List.prefix_refl _, by simp [tally, calls, drops, Registry.contents],
      rfl⟩, by simp⟩
  | @act callbacks s a hs _ ih =>
    exact ih.moves (moves_start (s := { s with answer := none })
      (fun hopen => (hs.inv hopen).owned.valid) a)
  | @elsewhere callbacks s a hs _ ih =>
    exact ih.moves (moves_start (fun hopen => (hs.inv hopen).owned.valid) a)
  | step hs ih => exact ih.moves (moves_step hs.inv ih.empty)

end State

end HostBridge.Bridge
