import HostBridge.Proofs.Bridge.Machine
import HostBridge.Proofs.Session.Invariant

/-!
# A call runs with its own callback

Keys are used again, but never while somebody still names them. On an open host the keys of armed
cookies and of queued messages are distinct, they are the full slots, and each slot holds the
callback of the registration that the key was handed out for. So no message finds its slot empty or
taken by a stranger, and in a session none finds a callback of another kind.
-/

namespace HostBridge

open Bridge (Action Callback Cookie Entry Host Message State Work)

/-- Whatever a host and its program do, and whatever a session does: while the host is open, the
keys that somebody names are the full slots, each named once and filled by the registration it was
handed out for, and a message in front of the queue is dispatched with the callback of its own
registration. In a session that callback is also of the kind that the call expects. -/
theorem slots_owned_while_open :
    (∀ (callbacks : List Callback) (s : State), State.Reachable callbacks s →
      s.host.closed = false →
        (s.host.names s.live).Nodup ∧
        (∀ key, key ∈ s.host.names s.live ↔ (s.host.registry.get? key).isSome = true) ∧
        (∀ c ∈ s.live, ∀ key, c.key = some key → ∃ e, s.host.registry.get? key = some e ∧
          e.ticket = c.ticket ∧ callbacks[c.ticket]? = some e.callback) ∧
        (∀ message ∈ s.host.queue, ∃ e, s.host.registry.get? message.key = some e ∧
          e.ticket = message.ticket ∧ callbacks[message.ticket]? = some e.callback) ∧
        ∀ message rest, s.host.queue = message :: rest → ∃ e,
          callbacks[message.ticket]? = some e.callback ∧
            (({ s.host with queue := rest } : Host Callback Work).dispatch message).1 =
              Host.fate message e) ∧
    ∀ events : List Session.Event,
      (Session.run events).state.host.closed = false ∧
        ∀ label key, .logged (.callbackMissing label key) ∉ (Session.run events).state.trace ∧
          .logged (.callbackMismatched label) ∉ (Session.run events).state.trace := by
  constructor
  · intro callbacks s hreachable hopen
    have howned := (hreachable.inv hopen).owned
    simp only [List.nil_append] at howned
    refine ⟨howned.nodup_names, fun key => howned.mem_names_iff,
      fun c hc key hk => howned.of_cookie hc hk, fun message hm => howned.of_message hm, ?_⟩
    intro message rest hqueue
    obtain ⟨e, -, -, hcallback, hdispatch, -⟩ := howned.dispatch hopen hqueue
    exact ⟨e, hcallback, by rw [hdispatch]⟩
  · intro events
    have hbridged := (Session.sane_run events).bridged
    refine ⟨hbridged.opened, fun label key => ⟨fun hn => ?_, fun hn => ?_⟩⟩
    · exact absurd (hbridged.quiet _ hn) (by simp [Session.isFault])
    · exact absurd (hbridged.quiet _ hn) (by simp [Session.isFault])

/-- A callback is registered and dropped, and its key is handed out again: the call that is queued
then is for the second callback, whose slot has the key of the first one. -/
theorem slots_owned_when_reused :
    ∃ (callbacks : List Callback) (s : State), State.Reachable callbacks s ∧
      s.host.closed = false ∧ s.host.names s.live = [0] ∧
        ∃ e, s.host.registry.get? 0 = some e ∧ e.ticket = 1 ∧ callbacks[1]? = some e.callback := by
  have hfirst := State.Reachable.new.act (.register "a" "first" [] []) rfl
  have hdropped := (hfirst.act (.drop "a") rfl).act .poll rfl
  have hsecond := hdropped.step.step.act (.register "b" "second" [] []) rfl
  have hcalled := hsecond.act (.invoke "b" .null false []) rfl
  refine ⟨_, _, hcalled, rfl, by decide, ?_⟩
  obtain ⟨-, -, -, hmessages, -⟩ := slots_owned_while_open.1 _ _ hcalled rfl
  exact hmessages (.call 0 "second" 1 ⟨.null, []⟩) List.mem_cons_self

end HostBridge
