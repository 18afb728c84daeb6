import HostBridge.Bridge.Host
import HostBridge.Proofs.Registry

/-!
# Who owns a slot

Every full slot of an open host is claimed by exactly one party: an armed cookie that somebody still
has, or a message in the queue. A claim names a slot and a registration, and the slot holds the
callback of that very registration. `Host.Owned` says so for a host and the cookies that are around;
the lemmas say how each operation of the host moves claims from one party to another.
-/

namespace HostBridge.Bridge

variable {γ ω : Type}

/-- The slot that an armed cookie names, and the registration that it stands for. -/
def Cookie.claim? (c : Cookie) : Option (Nat × Nat) :=
  c.key.map fun key => (key, c.ticket)

/-- The slot that a message names, and the registration that it is about. -/
def Message.claim (m : Message ω) : Nat × Nat :=
  (m.key, m.ticket)

namespace Host

/-- All claims on the slots of a host, given the cookies that are around. -/
def claims (h : Host γ ω) (cookies : List Cookie) : List (Nat × Nat) :=
  cookies.filterMap Cookie.claim? ++ h.queue.map Message.claim

/-- The keys of all claims on the slots of a host. -/
def names (h : Host γ ω) (cookies : List Cookie) : List Nat :=
  cookies.filterMap Cookie.key ++ h.queue.map Message.key

/-- The claims are exactly the full slots, each with its registration, and each slot holds the
callback of its registration. `callbacks` are all callbacks registered so far, in order. -/
structure Owned (callbacks : List γ) (h : Host γ ω) (cookies : List Cookie) : Prop where
  /-- The registry knows its empty slots. -/
  valid : h.registry.Valid
  /-- A full slot is claimed once, with the registration it was filled by, and nothing else is
  claimed. -/
  count_claims : ∀ key ticket, (h.claims cookies).count (key, ticket) =
    if (h.registry.get? key).map Entry.ticket = some ticket then 1 else 0
  /-- A slot holds the callback of its registration. -/
  faithful : ∀ key e, h.registry.get? key = some e → callbacks[e.ticket]? = some e.callback
  /-- Registrations are counted. -/
  length_callbacks : callbacks.length = h.issued

/-- An armed cookie of an open host queues a call. -/
theorem invoke_of_key {h : Host γ ω} {c : Cookie} {key : Nat} (hopen : h.closed = false)
    (hk : c.key = some key) (work : ω) :
    h.invoke c work = (true, { h with queue := h.queue ++ [.call key c.label c.ticket work] }) := by
  unfold Host.invoke
  rw [hk]
  simp [hopen]

/-- An armed cookie of an open host queues a release when it is dropped. -/
theorem release_of_key {h : Host γ ω} {c : Cookie} {key : Nat} (hopen : h.closed = false)
    (hk : c.key = some key) :
    h.release c = { h with queue := h.queue ++ [.release key c.label c.ticket] } := by
  unfold Host.release
  rw [hk]
  simp [hopen]

namespace Owned

variable {callbacks : List γ} {h : Host γ ω} {cs ds : List Cookie} {c : Cookie}

/-- A new host owns nothing. -/
theorem empty : Owned [] ({} : Host γ ω) [] where
  valid := Registry.valid_empty
  count_claims := by simp [claims]
  faithful := by simp
  length_callbacks := rfl

/-- Only the number of cookies of each kind matters, not where they are kept. -/
theorem perm (o : Owned callbacks h cs) (hp : cs.Perm ds) : Owned callbacks h ds where
  valid := o.valid
  count_claims key ticket := by
    rw [← o.count_claims, claims, claims]
    exact ((hp.filterMap _).append_right _).symm.count_eq _
  faithful := o.faithful
  length_callbacks := o.length_callbacks

/-! ## What a claim is good for -/

/-- The slot of a claim holds the callback of the claim's registration. -/
theorem of_mem_claims (o : Owned callbacks h cs) {key ticket : Nat}
    (hm : (key, ticket) ∈ h.claims cs) :
    ∃ e, h.registry.get? key = some e ∧ e.ticket = ticket ∧
      callbacks[ticket]? = some e.callback := by
  have hpos := List.count_pos_iff.mpr hm
  rw [o.count_claims] at hpos
  split at hpos
  · next hsome =>
    obtain ⟨e, he, rfl⟩ := Option.map_eq_some_iff.mp hsome
    exact ⟨e, he, rfl, o.faithful key e he⟩
  · simp at hpos

/-- Every full slot is claimed. -/
theorem mem_claims (o : Owned callbacks h cs) {key : Nat} {e : Entry γ}
    (he : h.registry.get? key = some e) : (key, e.ticket) ∈ h.claims cs := by
  rw [← List.count_pos_iff, o.count_claims]
  simp [he]

theorem nodup_claims (o : Owned callbacks h cs) : (h.claims cs).Nodup := by
  rw [List.nodup_iff_count_le_one]
  rintro ⟨key, ticket⟩
  rw [o.count_claims]
  split <;> omega

end Owned

theorem map_fst_claims (h : Host γ ω) (cs : List Cookie) :
    (h.claims cs).map Prod.fst = h.names cs := by
  have hkey : (fun c : Cookie => c.claim?.map Prod.fst) = Cookie.key := by
    funext c
    cases hc : c.key <;> simp [Cookie.claim?, hc]
  simp only [claims, names, List.map_append, List.map_filterMap, List.map_map, hkey]
  rfl

namespace Owned

variable {callbacks : List γ} {h : Host γ ω} {cs ds : List Cookie} {c : Cookie}

/-- No two parties name the same slot. -/
theorem nodup_names (o : Owned callbacks h cs) : (h.names cs).Nodup := by
  rw [← map_fst_claims]
  refine List.Nodup.map_on ?_ o.nodup_claims
  rintro ⟨k₁, t₁⟩ h₁ ⟨k₂, t₂⟩ h₂ (rfl : k₁ = k₂)
  obtain ⟨e₁, he₁, rfl, -⟩ := o.of_mem_claims h₁
  obtain ⟨e₂, he₂, rfl, -⟩ := o.of_mem_claims h₂
  rw [Option.some.inj (he₁.symm.trans he₂)]

/-- The slots that somebody names are the full ones. -/
theorem mem_names_iff (o : Owned callbacks h cs) {key : Nat} :
    key ∈ h.names cs ↔ (h.registry.get? key).isSome := by
  rw [← map_fst_claims, List.mem_map, Option.isSome_iff_exists]
  constructor
  · rintro ⟨⟨k, t⟩, hm, rfl⟩
    obtain ⟨e, he, -⟩ := o.of_mem_claims hm
    exact ⟨e, he⟩
  · rintro ⟨e, he⟩
    exact ⟨_, o.mem_claims he, rfl⟩

theorem of_cookie (o : Owned callbacks h cs) (hc : c ∈ cs) {key : Nat} (hk : c.key = some key) :
    ∃ e, h.registry.get? key = some e ∧ e.ticket = c.ticket ∧
      callbacks[c.ticket]? = some e.callback := by
  refine o.of_mem_claims (List.mem_append_left _ ?_)
  exact List.mem_filterMap.mpr ⟨c, hc, by simp [Cookie.claim?, hk]⟩

theorem of_message (o : Owned callbacks h cs) {m : Message ω} (hm : m ∈ h.queue) :
    ∃ e, h.registry.get? m.key = some e ∧ e.ticket = m.ticket ∧
      callbacks[m.ticket]? = some e.callback :=
  o.of_mem_claims (List.mem_append_right _ (List.mem_map_of_mem hm))

/-! ## How claims move -/

/-- A registration fills a vacant slot, which the new cookie claims. -/
theorem register (o : Owned callbacks h cs) (hopen : h.closed = false) (label : String) (x : γ) :
    Owned (callbacks ++ [x]) (h.register label x).2 ((h.register label x).1 :: cs) := by
  have hfresh := Registry.get?_fresh o.valid (⟨h.issued, x⟩ : Entry γ)
  have hget := Registry.get?_insert o.valid (⟨h.issued, x⟩ : Entry γ)
  simp only [Host.register, hopen, Bool.false_eq_true, if_false]
  refine ⟨Registry.valid_insert o.valid _, ?_, ?_, by simp [o.length_callbacks]⟩
  · intro key ticket
    have hcount := o.count_claims key ticket
    simp only [claims, List.filterMap_cons, Cookie.claim?, Option.map_some, List.cons_append,
      List.count_cons] at hcount ⊢
    rw [hget, hcount]
    by_cases hk : key = (h.registry.insert ⟨h.issued, x⟩).1
    · subst hk
      rw [hfresh]
      by_cases ht : ticket = h.issued
      · simp [ht]
      · have : ¬ h.issued = ticket := fun e => ht e.symm
        simp [this]
    · have : ¬ (h.registry.insert ⟨h.issued, x⟩).1 = key := fun e => hk e.symm
      simp [hk, this]
  · intro key e he
    rw [hget] at he
    split at he
    · obtain rfl : ⟨h.issued, x⟩ = e := Option.some.inj he
      simp [← o.length_callbacks]
    · have hlt := o.faithful key e he
      exact List.getElem?_append_left (List.getElem?_eq_some_iff.mp hlt).1 ▸ hlt

/-- An inert cookie claims nothing. -/
theorem inert (o : Owned callbacks h (c :: cs)) (hk : c.key = none) : Owned callbacks h cs where
  valid := o.valid
  count_claims key ticket := by
    simpa [claims, Cookie.claim?, hk] using o.count_claims key ticket
  faithful := o.faithful
  length_callbacks := o.length_callbacks

/-- A message that is queued in place of a cookie takes over its claim. -/
theorem enqueue (o : Owned callbacks h (c :: cs)) (m : Message ω) (hm : c.claim? = some m.claim) :
    Owned callbacks { h with queue := h.queue ++ [m] } cs where
  valid := o.valid
  count_claims key ticket := by
    rw [← o.count_claims key ticket]
    simp only [claims, List.filterMap_cons, hm, List.map_append, List.map_cons, List.map_nil,
      List.count_append, List.count_cons, List.count_nil, List.cons_append]
    omega
  faithful := o.faithful
  length_callbacks := o.length_callbacks

/-- An invocation hands the claim of the cookie on to the call. -/
theorem invoke (o : Owned callbacks h (c :: cs)) (hopen : h.closed = false) (work : ω) :
    Owned callbacks (h.invoke c work).2 cs := by
  cases hk : c.key with
  | none => simpa [Host.invoke, hk] using o.inert hk
  | some key =>
    have hclaim : c.claim? = some (key, c.ticket) := by simp [Cookie.claim?, hk]
    rw [invoke_of_key hopen hk]
    exact o.enqueue (.call key c.label c.ticket work) hclaim

/-- Dropping a cookie hands its claim on to the release. -/
theorem release (o : Owned callbacks h (c :: cs)) (hopen : h.closed = false) :
    Owned callbacks (h.release c) cs := by
  cases hk : c.key with
  | none => simpa [Host.release, hk] using o.inert hk
  | some key =>
    have hclaim : c.claim? = some (key, c.ticket) := by simp [Cookie.claim?, hk]
    rw [release_of_key hopen hk]
    exact o.enqueue (.release key c.label c.ticket) hclaim

end Owned

@[simp]
theorem release_closed (h : Host γ ω) (c : Cookie) : (h.release c).closed = h.closed := by
  unfold Host.release
  split <;> [rfl; (split <;> rfl)]

@[simp]
theorem release_registry (h : Host γ ω) (c : Cookie) : (h.release c).registry = h.registry := by
  unfold Host.release
  split <;> [rfl; (split <;> rfl)]

@[simp]
theorem release_issued (h : Host γ ω) (c : Cookie) : (h.release c).issued = h.issued := by
  unfold Host.release
  split <;> [rfl; (split <;> rfl)]

@[simp]
theorem register_issued (h : Host γ ω) (label : String) (x : γ) :
    (h.register label x).2.issued = h.issued + 1 := by
  unfold Host.register
  split <;> rfl

@[simp]
theorem register_ticket (h : Host γ ω) (label : String) (x : γ) :
    (h.register label x).1.ticket = h.issued := by
  unfold Host.register
  split <;> rfl

/-- An open host hands out an armed cookie. -/
theorem register_key {h : Host γ ω} (hopen : h.closed = false) (label : String) (x : γ) :
    (h.register label x).1.key.isSome = true := by
  simp [Host.register, hopen]

@[simp]
theorem releaseAll_closed (h : Host γ ω) (cs : List Cookie) :
    (h.releaseAll cs).closed = h.closed := by
  induction cs generalizing h with
  | nil => rfl
  | cons c cs ih => exact (ih _).trans (release_closed h c)

@[simp]
theorem releaseAll_registry (h : Host γ ω) (cs : List Cookie) :
    (h.releaseAll cs).registry = h.registry := by
  induction cs generalizing h with
  | nil => rfl
  | cons c cs ih => exact (ih _).trans (release_registry h c)

@[simp]
theorem invoke_closed (h : Host γ ω) (c : Cookie) (work : ω) :
    (h.invoke c work).2.closed = h.closed := by
  unfold Host.invoke
  split <;> [rfl; (split <;> rfl)]

@[simp]
theorem register_closed (h : Host γ ω) (label : String) (x : γ) :
    (h.register label x).2.closed = h.closed := by
  unfold Host.register
  split <;> rfl

namespace Owned

variable {callbacks : List γ} {h : Host γ ω} {cs ds : List Cookie}

theorem releaseAll (o : Owned callbacks h (ds ++ cs)) (hopen : h.closed = false) :
    Owned callbacks (h.releaseAll ds) cs := by
  induction ds generalizing h with
  | nil => exact o
  | cons d ds ih => exact ih (o.release hopen) (by simpa using hopen)

end Owned

/-- What becomes of a message whose slot holds an entry. -/
def fate (m : Message ω) (e : Entry γ) : Dispatch γ ω :=
  match m with
  | .call _ label _ work => .run label e work
  | .release _ label _ => .released label (some e)

/-- A message whose slot holds an entry takes it out. -/
theorem dispatch_eq {h : Host γ ω} {m : Message ω} {e : Entry γ} (hopen : h.closed = false)
    (he : h.registry.get? m.key = some e) :
    h.dispatch m = (fate m e, { h with registry := (h.registry.remove m.key).2 }) := by
  have hrem : h.registry.remove m.key = (some e, (h.registry.remove m.key).2) := by
    rw [← he, ← Registry.remove_fst]
  cases m with
  | call key label ticket work =>
    simp only [Message.key] at hrem
    simp only [Host.dispatch, hopen, Bool.false_eq_true, if_false, fate, Message.key]
    rw [hrem]
  | release key label ticket =>
    simp only [Message.key] at hrem
    simp only [Host.dispatch, fate, Message.key]
    rw [hrem]

/-- A message in front of the queue of an open host finds the callback of its own registration,
whose slot becomes vacant. -/
theorem Owned.dispatch {callbacks : List γ} {h : Host γ ω} {cs : List Cookie} {m : Message ω}
    {rest : List (Message ω)} (o : Owned callbacks h cs) (hopen : h.closed = false)
    (hq : h.queue = m :: rest) :
    ∃ e, h.registry.get? m.key = some e ∧ e.ticket = m.ticket ∧
      callbacks[m.ticket]? = some e.callback ∧
      { h with queue := rest }.dispatch m =
        (fate m e, { h with queue := rest, registry := (h.registry.remove m.key).2 }) ∧
      Owned callbacks { h with queue := rest, registry := (h.registry.remove m.key).2 } cs := by
  obtain ⟨e, he, ht, hcb⟩ := o.of_message (m := m) (by simp [hq])
  refine ⟨e, he, ht, hcb, ?_, Registry.valid_remove o.valid _, ?_, ?_, o.length_callbacks⟩
  · have hopen' : ({ h with queue := rest } : Host γ ω).closed = false := hopen
    exact dispatch_eq hopen' he
  · intro key ticket
    have hcount := o.count_claims key ticket
    simp only [claims, hq, List.map_cons, List.count_append, List.count_cons] at hcount ⊢
    rw [Registry.get?_remove]
    by_cases hk : key = m.key
    · subst hk
      rw [he] at hcount
      simp only [Message.claim, Option.map_some, ht, Option.some.injEq] at hcount
      by_cases hm : m.ticket = ticket
      · simp only [hm, BEq.rfl, if_true] at hcount
        simp only [Option.map_none, if_true, reduceCtorEq, if_false]
        omega
      · simpa [hm] using hcount
    · have hne : ¬ m.key = key := fun e => hk e.symm
      simpa [hk, Message.claim, hne] using hcount
  · intro key e' he'
    rw [Registry.get?_remove] at he'
    split at he'
    · exact absurd he' (by simp)
    · exact o.faithful key e' he'

end Host

end HostBridge.Bridge
