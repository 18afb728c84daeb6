import HostBridge.Proofs.Bridge.Teardown
import Mathlib.Order.Basic
import Mathlib.Data.Nat.Basic

/-!
# The host thread comes to rest

Scripts, cookies, messages and callbacks weigh as much as the steps that they can cause. Every step
of the host thread uses up some of the weight of its state, and what other threads do adds nothing
to it. So polls and waits come to an end, and the weight of a state is enough for `State.settle` to
see that end.
-/

namespace HostBridge.Bridge

/-! ## Cookies -/

@[simp]
theorem cookieWeight_nil : cookieWeight [] = 0 := rfl

@[simp]
theorem cookieWeight_append (cs ds : List Cookie) :
    cookieWeight (cs ++ ds) = cookieWeight cs + cookieWeight ds := by
  simp [cookieWeight, List.countP_append, Nat.mul_add]

theorem cookieWeight_cons (c : Cookie) (cs : List Cookie) :
    cookieWeight (c :: cs) = cookieWeight [c] + cookieWeight cs :=
  cookieWeight_append [c] cs

theorem cookieWeight_perm {cs ds : List Cookie} (h : cs.Perm ds) :
    cookieWeight cs = cookieWeight ds :=
  congrArg (2 * ·) (h.countP_eq _)

theorem cookieWeight_le_two (c : Cookie) : cookieWeight [c] ≤ 2 := by
  rw [cookieWeight, List.countP_singleton]
  split <;> omega

theorem cookieWeight_of_key {c : Cookie} {key : Nat} (h : c.key = some key) :
    cookieWeight [c] = 2 := by
  simp [cookieWeight, Cookie.isArmed, h]

/-- What is taken out of a table is not heavier than it was there. -/
theorem cookieWeight_erase (t : Keyed Cookie) (name : String) :
    cookieWeight (t.find? name).toList + cookieWeight ((t.erase name).map Prod.snd) ≤
      cookieWeight (t.map Prod.snd) := by
  induction t with
  | nil => exact Nat.le_refl _
  | cons p t ih =>
    obtain ⟨n, c⟩ := p
    have hcons : cookieWeight (((n, c) :: t).map Prod.snd) =
        cookieWeight [c] + cookieWeight (t.map Prod.snd) := cookieWeight_cons c _
    by_cases hn : n = name
    · have hfound : Keyed.find? name ((n, c) :: t) = some c := by simp [Keyed.find?, hn]
      have herase : Keyed.erase name ((n, c) :: t) = Keyed.erase name t := by
        simp [Keyed.erase, hn]
      rw [hcons, hfound, herase, Option.toList_some]
      omega
    · have hfound : Keyed.find? name ((n, c) :: t) = Keyed.find? name t := by
        simp [Keyed.find?, Ne.symm hn]
      have herase : cookieWeight (((n, c) :: Keyed.erase name t).map Prod.snd) =
          cookieWeight [c] + cookieWeight ((Keyed.erase name t).map Prod.snd) :=
        cookieWeight_cons c _
      rw [hcons, hfound, Keyed.erase_cons_ne hn, herase]
      omega

/-- What is put into a table adds no more than its own weight. -/
theorem cookieWeight_insert (t : Keyed Cookie) (name : String) (c : Cookie) :
    cookieWeight ((t.insert name c).map Prod.snd) ≤
      cookieWeight [c] + cookieWeight (t.map Prod.snd) := by
  induction t with
  | nil => exact Nat.le_refl _
  | cons p t ih =>
    obtain ⟨n, d⟩ := p
    have hcons : ∀ (n : String) (d : Cookie) (t : Keyed Cookie),
        cookieWeight (((n, d) :: t).map Prod.snd) =
          cookieWeight [d] + cookieWeight (t.map Prod.snd) := fun _ d _ => cookieWeight_cons d _
    simp only [Keyed.insert]
    split
    · exact (hcons name c _).le
    · split
      · rw [hcons, hcons]
        omega
      · rw [hcons, hcons]
        omega

/-- A cookie that is put into a sorted table takes the place of what it replaces. -/
theorem cookieWeight_replace {t : Keyed Cookie} (h : t.Sorted) (name : String) (c : Cookie) :
    cookieWeight ((t.insert name c).map Prod.snd) + cookieWeight (t.find? name).toList =
      cookieWeight [c] + cookieWeight (t.map Prod.snd) := by
  have hcons : cookieWeight (((name, c) :: t.erase name).map Prod.snd) =
      cookieWeight [c] + cookieWeight ((t.erase name).map Prod.snd) := cookieWeight_cons c _
  rw [cookieWeight_perm ((Keyed.insert_perm h name c).map Prod.snd), hcons,
    cookieWeight_perm (Keyed.perm_find?_erase h name), cookieWeight_append]
  omega

/-- What a frame gives away weighs as much as it did there. -/
theorem Frame.weight_without (frame : Frame) (source : Source) :
    cookieWeight (frame.cookie? source).toList + (frame.without source).weight = frame.weight := by
  have hplace := fun (cs : List Cookie) place => cookieWeight_perm (perm_getElem?_eraseIdx cs place)
  simp only [cookieWeight_append] at hplace
  cases frame with
  | polling | waiting => simp [cookie?, without]
  | running name current script owns carry =>
    cases source with
    | table => simp [cookie?, without]
    | owned place =>
      simp only [cookie?, without, weight, ← hplace owns place]
      omega
    | carried place =>
      simp only [cookie?, without, weight, ← hplace carry place]
      omega

theorem weight_head (stack : List Frame) (source : Source) :
    cookieWeight (stack.head?.bind (·.cookie? source)).toList +
      ((stack.modifyHead (·.without source)).map Frame.weight).sum =
        (stack.map Frame.weight).sum := by
  cases stack with
  | nil => rfl
  | cons frame rest =>
    have := frame.weight_without source
    simp only [List.head?_cons, Option.bind_some, List.modifyHead_cons, List.map_cons, List.sum_cons]
    omega

/-! ## Hosts -/

/-- The steps that the messages and the callbacks of a host can cause. -/
def Host.weight (h : Host Callback Work) : Nat :=
  (h.queue.map Message.weight).sum + (h.registry.contents.map fun e => e.callback.weight).sum

namespace Host

theorem weight_release_le (h : Host Callback Work) (c : Cookie) :
    (h.release c).weight ≤ h.weight + cookieWeight [c] := by
  unfold release
  split
  · omega
  · next key hkey =>
    split
    · omega
    · rw [cookieWeight_of_key hkey]
      simp only [weight, List.map_append, List.sum_append, List.map_cons, List.map_nil,
        List.sum_cons, List.sum_nil, Message.weight]
      omega

theorem weight_releaseAll_le (h : Host Callback Work) (cs : List Cookie) :
    (h.releaseAll cs).weight ≤ h.weight + cookieWeight cs := by
  induction cs generalizing h with
  | nil => exact Nat.le_refl _
  | cons c cs ih =>
    have hfirst := h.weight_release_le c
    have hrest := ih (h.release c)
    rw [cookieWeight_cons]
    exact Nat.le_trans hrest (by omega)

/-- A message that leaves the queue with its callback. -/
theorem weight_remove {h : Host Callback Work} {m : Message Work} {queue : List (Message Work)}
    {e : Entry Callback} (hqueue : h.queue = m :: queue) (he : h.registry.get? m.key = some e) :
    ({ h with queue, registry := (h.registry.remove m.key).2 } : Host Callback Work).weight +
      m.weight + e.callback.weight = h.weight := by
  have hcontents := ((Registry.contents_remove he).map fun e => e.callback.weight).sum_nat
  simp only [List.map_cons, List.sum_cons] at hcontents
  simp only [weight, hqueue, List.map_cons, List.sum_cons, hcontents]
  omega

end Host

namespace State

variable {callbacks : List Callback} {s : State}

/-! ## States -/

/-- The weight of a state without that of an answer. -/
def load (s : State) : Nat :=
  cookieWeight (s.cookies.map Prod.snd) + s.host.weight + (s.stack.map Frame.weight).sum

theorem weight_eq (s : State) : s.weight = s.load + if s.answer.isSome then 1 else 0 := by
  have hfold : ∀ {α : Type} (f : α → Nat) (xs : List α),
      xs.foldr (fun x n => f x + n) 0 = (xs.map f).sum := by
    intro α f xs
    induction xs with
    | nil => rfl
    | cons x xs ih => rw [List.foldr_cons, ih, List.map_cons, List.sum_cons]
  simp only [weight, load, Host.weight, hfold]
  omega

theorem load_le_weight (s : State) : s.load ≤ s.weight := by
  rw [weight_eq]
  omega

theorem weight_le (s : State) : s.weight ≤ s.load + 1 := by
  rw [weight_eq]
  split <;> omega

@[simp]
theorem load_reply (s : State) (a : Answer) : (s.reply a).load = s.load := rfl

theorem load_releaseAll_le (s : State) (cs : List Cookie) :
    (s.releaseAll cs).load ≤ s.load + cookieWeight cs := by
  have := s.host.weight_releaseAll_le cs
  simp only [load, releaseAll]
  omega

theorem load_takeCookie_le (s : State) (source : Source) :
    cookieWeight (s.takeCookie source).1.toList + (s.takeCookie source).2.load ≤ s.load := by
  have hhead := weight_head s.stack source
  cases source with
  | table name =>
    have := cookieWeight_erase s.cookies name
    simp only [load, takeCookie, cookie?, without]
    omega
  | owned place | carried place =>
    simp only [load, takeCookie, cookie?, without]
    omega

theorem load_takeCookies_le (s : State) (sources : List Source) :
    cookieWeight (s.takeCookies sources).1 + (s.takeCookies sources).2.load ≤ s.load := by
  induction sources generalizing s with
  | nil => simp [takeCookies]
  | cons source sources ih =>
    have hfirst := s.load_takeCookie_le source
    have hrest := ih (s.takeCookie source).2
    simp only [takeCookies, cookieWeight_append]
    omega

theorem load_discard_le (s : State) (e : Entry Callback) :
    (s.discard e).load ≤ s.load + cookieWeight e.callback.owns :=
  load_releaseAll_le (s.record (.dropped e.ticket e.callback.name)) e.callback.owns

/-- Whatever a teardown drops causes nothing more. -/
theorem load_teardown_le (s : State) : s.teardown.load ≤ s.load := by
  cases hclosed : s.host.closed with
  | true => exact (congrArg load (teardown_of_closed hclosed)).le
  | false =>
    have hsome : s.host.teardown = (some (s.host.queue, s.host.registry.contents),
        { s.host with closed := true, queue := [], registry := {} }) := by
      simp [Host.teardown, hclosed]
    have hfold : ∀ (es : List (Entry Callback)) (t : State), t.host.closed = true →
        (es.foldl discard t).load = t.load := by
      intro es
      induction es with
      | nil => exact fun t _ => rfl
      | cons e es ih =>
        intro t ht
        have hdiscard : t.discard e = t.record (.dropped e.ticket e.callback.name) :=
          releaseAll_of_closed (s := t.record (.dropped e.ticket e.callback.name)) ht _
        rw [List.foldl_cons, hdiscard]
        exact ih _ ht
    have hempty : ({} : Registry (Entry Callback)).contents = [] := rfl
    simp only [teardown, hsome, discardMessages]
    rw [releaseAll_of_closed rfl, hfold _ _ rfl]
    simp only [load, note, record, Host.weight, hempty, List.map_nil, List.sum_nil]
    omega

theorem load_teardownIfGone_le (s : State) : s.teardownIfGone.load ≤ s.load := by
  unfold teardownIfGone
  split
  · exact s.load_teardown_le
  · exact Nat.le_refl _

/-! ## Actions -/

/-- A callback that is registered weighs as much as its script and what it owns, and its cookie has
a weight of its own. -/
theorem load_register_le (hinv : Inv callbacks s) (name label : String) (script : List Action)
    (owns : List Source) :
    (s.register name label script owns).load ≤ s.load + weights script + 4 := by
  have htaken := s.load_takeCookies_le owns
  have hhost := takeCookies_host s owns
  have hholds := fun hopen => holds_takeCookies (hinv hopen) owns
  obtain ⟨owned, t, heq⟩ : ∃ owned t, s.takeCookies owns = (owned, t) := ⟨_, _, rfl⟩
  simp only [heq] at htaken hhost hholds
  cases hclosed : t.host.closed with
  | true =>
    have hregister : t.host.register label ⟨name, script, owned⟩ =
        (⟨none, label, t.host.issued⟩, { t.host with issued := t.host.issued + 1 }) := by
      simp [Host.register, hclosed]
    have hinsert := cookieWeight_insert t.cookies name ⟨none, label, t.host.issued⟩
    have hinert : cookieWeight [⟨none, label, t.host.issued⟩] = 0 := rfl
    simp only [register, heq, hregister, Cookie.isArmed, Option.isSome_none, Bool.false_eq_true,
      if_false, discard]
    rw [releaseAll_of_closed (by simpa [releaseAll, note, record] using hclosed),
      releaseAll_of_closed (by simpa [note, record] using hclosed)]
    simp only [load, note, record, Host.weight] at htaken ⊢
    omega
  | false =>
    have hregister : t.host.register label ⟨name, script, owned⟩ =
        (⟨some (t.host.registry.insert ⟨t.host.issued, ⟨name, script, owned⟩⟩).1, label,
          t.host.issued⟩, { t.host with
            registry := (t.host.registry.insert ⟨t.host.issued, ⟨name, script, owned⟩⟩).2
            issued := t.host.issued + 1 }) := by
      simp [Host.register, hclosed]
    have hholds' := hholds (hhost ▸ hclosed)
    have hcontents := ((Registry.contents_insert hholds'.owned.valid
      (⟨t.host.issued, ⟨name, script, owned⟩⟩ : Entry Callback)).map
        fun e => e.callback.weight).sum_nat
    have hcallback : (⟨name, script, owned⟩ : Callback).weight =
        2 + weights script + cookieWeight owned := rfl
    simp only [List.map_cons, List.sum_cons, hcallback] at hcontents
    simp only [register, heq, hregister, Cookie.isArmed, Option.isSome_some, if_true]
    refine (load_releaseAll_le _ _).trans ?_
    have hreplace := cookieWeight_replace hholds'.sorted name
      ⟨some (t.host.registry.insert ⟨t.host.issued, ⟨name, script, owned⟩⟩).1, label,
        t.host.issued⟩
    have harmed := cookieWeight_le_two
      ⟨some (t.host.registry.insert ⟨t.host.issued, ⟨name, script, owned⟩⟩).1, label,
        t.host.issued⟩
    simp only [load, note, record, Host.weight, hcontents] at htaken ⊢
    omega

theorem load_invoke_le (s : State) (c : Cookie) (work : Work) (elsewhere : Bool) :
    (s.invoke c work elsewhere).load ≤ s.load + cookieWeight [c] + cookieWeight work.carry := by
  have hnotes : ∀ (ns : List Log.Notice) (t : State), (ns.foldl note t).load = t.load := by
    intro ns
    induction ns with
    | nil => exact fun t => rfl
    | cons n ns ih => exact fun t => ih (t.note n)
  by_cases hqueues : s.host.closed = false ∧ c.isArmed = true
  · obtain ⟨hopen, harmed⟩ := hqueues
    obtain ⟨key, hkey⟩ := Option.isSome_iff_exists.mp harmed
    rw [cookieWeight_of_key hkey]
    simp only [invoke, Host.invoke_of_key hopen hkey, if_true, load, record, Host.weight,
      List.map_append, List.sum_append, List.map_cons, List.map_nil, List.sum_cons, List.sum_nil,
      Message.weight]
    omega
  · have hrefused : s.host.invoke c work = (false, s.host) := by
      cases hkey : c.key with
      | none => simp [Host.invoke, hkey]
      | some key =>
        have hclosed : s.host.closed = true := by
          by_contra hopen
          exact hqueues ⟨by simpa using hopen, by simp [Cookie.isArmed, hkey]⟩
        simp [Host.invoke, hkey, hclosed]
    simp only [invoke, hrefused, Bool.false_eq_true, if_false]
    refine (load_releaseAll_le _ _).trans ?_
    split
    · exact Nat.add_le_add_right (Nat.le_add_right _ _) _
    · exact Nat.add_le_add_right ((hnotes c.refused s).le.trans (Nat.le_add_right _ _)) _

/-- Invoking a cookie only moves weight. -/
theorem load_start_invoke_le (s : State) (source : Source) (value : Json) (elsewhere : Bool)
    (carry : List Source) : (s.start (.invoke source value elsewhere carry)).load ≤ s.load := by
  have hcookie := s.load_takeCookie_le source
  have hcarry := (s.takeCookie source).2.load_takeCookies_le carry
  simp only [start]
  split
  · rw [load_reply]
    refine (load_releaseAll_le _ _).trans ?_
    omega
  · next c hc =>
    rw [hc, Option.toList_some] at hcookie
    rw [load_reply]
    refine (load_invoke_le _ c _ elsewhere).trans ?_
    dsimp only
    omega

theorem load_start_drop_le (s : State) (source : Source) :
    (s.start (.drop source)).load ≤ s.load := by
  have hcookie := s.load_takeCookie_le source
  simp only [start]
  split
  · next t heq =>
    rw [heq] at hcookie
    exact (Nat.le_add_left _ _).trans hcookie
  · next c t heq =>
    rw [heq] at hcookie
    refine (load_releaseAll_le t [c]).trans ?_
    rw [Nat.add_comm]
    exact hcookie

/-- What another thread does adds nothing. -/
theorem weight_elsewhere_le {a : Action} (hremote : a.isRemote = true) :
    ({ s.start a with answer := s.answer } : State).weight ≤ s.weight := by
  have hload : (s.start a).load ≤ s.load := by
    cases a with
    | invoke source value elsewhere carry =>
      exact s.load_start_invoke_le source value elsewhere carry
    | drop source => exact s.load_start_drop_le source
    | register | label | poll | runUntil | teardown | dropHost | unreadable => cases hremote
  rw [weight_eq, weight_eq]
  exact Nat.add_le_add_right hload _

/-- An action of a running callback weighs more than what it causes. -/
theorem weight_start_lt (hinv : Inv callbacks s) (hanswer : s.answer = none) (a : Action) :
    (s.start a).weight < s.weight + a.weight := by
  have hweight : s.weight = s.load := by simp [weight_eq, hanswer]
  -- with an answer at the end, the load may grow by a little less than the weight of the action
  have hreplied : (s.start a).load + 2 ≤ s.load + a.weight →
      (s.start a).weight < s.weight + a.weight := by
    have := (s.start a).weight_le
    omega
  have hkept : (s.start a).load ≤ s.load → 2 ≤ a.weight →
      (s.start a).weight < s.weight + a.weight := fun _ _ => hreplied (by omega)
  have hpushed : ∀ frame : Frame, frame.weight = 2 → s.start a =
      { s with stack := frame :: s.stack } → a.weight = 3 →
        (s.start a).weight < s.weight + a.weight := by
    intro frame hframe hstart ha
    rw [weight_eq, hstart, hanswer, hweight, ha]
    simp only [load, List.map_cons, List.sum_cons, hframe, Option.isSome_none, Bool.false_eq_true,
      if_false]
    omega
  cases a with
  | register name label script owns =>
    have hload := load_register_le hinv name label script owns
    refine hreplied ((Nat.add_le_add_right hload 2).trans ?_)
    rw [Action.weight]
    omega
  | label source =>
    refine hkept ?_ (by simp [Action.weight])
    simp only [start]
    split <;> exact Nat.le_refl _
  | invoke source value elsewhere carry =>
    exact hkept (s.load_start_invoke_le source value elsewhere carry) (by simp [Action.weight])
  | drop source => exact hkept (s.load_start_drop_le source) (by simp [Action.weight])
  | poll =>
    by_cases hheld : s.held = true
    · exact hpushed (.polling 0) rfl (by simp [start, hheld]) rfl
    · exact hkept (by simp [start, hheld, reply, load]) (by simp [Action.weight])
  | runUntil condition =>
    by_cases hheld : s.held = true
    · exact hpushed (.waiting condition 0 0) rfl (by simp [start, hheld]) rfl
    · exact hkept (by simp [start, hheld, reply, load]) (by simp [Action.weight])
  | teardown =>
    refine hkept ?_ (by simp [Action.weight])
    simp only [start]
    split
    · exact s.load_teardown_le
    · exact Nat.le_refl _
  | dropHost => exact hkept ({ s with held := false }.load_teardownIfGone_le) (by simp [Action.weight])
  | unreadable verb reason => exact hkept (Nat.le_refl _) (by simp [Action.weight])

/-! ## Steps -/

/-- A message that is dispatched weighs more than the callback that runs or is dropped. -/
theorem load_deliver_lt (hinv : Inv callbacks s)
    (hempty : s.host.closed = true → s.host.registry.contents = []) {m : Message Work}
    {queue : List (Message Work)} (hqueue : s.host.queue = m :: queue) {resume : Bool → Frame}
    (hresume : ∀ ran, (resume ran).weight = 2) {frame : Frame} (hframe : frame.weight = 2)
    {rest : List Frame} (hstack : s.stack = frame :: rest) :
    (deliver { s with host := { s.host with queue } } m resume rest).load + 1 ≤ s.load := by
  have hsum : (s.stack.map Frame.weight).sum = 2 + (rest.map Frame.weight).sum := by
    simp [hstack, hframe]
  cases hclosed : s.host.closed with
  | true =>
    obtain ⟨notice, hdeliver⟩ := deliver_of_closed
      (s := { s with host := { s.host with queue } }) hclosed (hempty hclosed) m resume rest
    have hm : 2 ≤ m.weight := by cases m <;> simp [Message.weight]
    rw [hdeliver]
    simp only [load, Host.weight, hqueue, hsum, List.map_cons, List.sum_cons, hresume]
    omega
  | false =>
    obtain ⟨e, he, -, -, hdispatch, -⟩ := (hinv hclosed).owned.dispatch hclosed hqueue
    have hremove := Host.weight_remove hqueue he
    generalize ({ s.host with queue, registry := (s.host.registry.remove m.key).2 } :
      Host Callback Work) = host at hdispatch hremove
    simp only [deliver, hdispatch]
    cases m with
    | call key label ticket work =>
      have hrunning : (Frame.running e.callback.name none e.callback.script e.callback.owns
          work.carry).weight = 1 + weights e.callback.script + cookieWeight e.callback.owns +
            cookieWeight work.carry := rfl
      simp only [Host.fate, load, note, record, List.map_cons, List.sum_cons, hresume, hsum,
        hrunning]
      simp only [Message.weight, Callback.weight] at hremove
      omega
    | release key label ticket =>
      simp only [Host.fate]
      refine (Nat.add_le_add_right (load_discard_le _ e) 1).trans ?_
      simp only [load, note, record, List.map_cons, List.sum_cons, hresume, hsum]
      simp only [Message.weight, Callback.weight] at hremove
      omega

theorem weight_deliver_lt (hinv : Inv callbacks s)
    (hempty : s.host.closed = true → s.host.registry.contents = []) {m : Message Work}
    {queue : List (Message Work)} (hqueue : s.host.queue = m :: queue) {frame : Frame}
    {rest : List Frame} (hstack : s.stack = frame :: rest) (hframe : frame.weight = 2)
    {resume : Bool → Frame} (hresume : ∀ ran, (resume ran).weight = 2) :
    (deliver { s with host := { s.host with queue } } m resume rest).weight < s.weight := by
  have hload := load_deliver_lt hinv hempty hqueue hresume hframe hstack
  have hanswer : (deliver { s with host := { s.host with queue } } m resume rest).answer =
      s.answer := by
    simp only [deliver]
    split
    · rfl
    · rfl
    · rfl
    · split <;> rfl
  rw [weight_eq, weight_eq, hanswer]
  omega

/-- A poll or a wait that stops leaves less than its frame, with the answer. -/
theorem weight_stop_lt {frame : Frame} {rest : List Frame} (hstack : s.stack = frame :: rest)
    (hframe : frame.weight = 2) (o : Occurrence) (answer : Answer) :
    (({ s with stack := rest }.record o).reply answer).teardownIfGone.weight < s.weight := by
  have hgone := (({ s with stack := rest }.record o).reply answer).load_teardownIfGone_le
  refine (weight_le _).trans_lt ((Nat.add_le_add_right hgone 1).trans_lt ?_)
  refine lt_of_lt_of_le ?_ s.load_le_weight
  simp only [load, record, reply, hstack, List.map_cons, List.sum_cons, hframe]
  omega

section Running

variable {name : String} {current : Option Verb} {owns carry : List Cookie} {rest : List Frame}

/-- A callback begins its next action. -/
theorem weight_begin_lt (hinv : Inv callbacks s) (hanswer : s.answer = none) {a : Action}
    {script : List Action}
    (hstack : s.stack = .running name current (a :: script) owns carry :: rest) :
    (({ s with stack := .running name (some a.verb) script owns carry :: rest } : State).start
      a).weight < s.weight := by
  set t : State := { s with stack := .running name (some a.verb) script owns carry :: rest }
  have hnext : Inv callbacks t := hinv.congr rfl rfl (by simp [t, hstack, Frame.cookies])
  have hanswer' : t.answer = none := hanswer
  refine lt_of_lt_of_eq (weight_start_lt hnext hanswer a) ?_
  rw [weight_eq t, hanswer', weight_eq s, hanswer]
  simp only [load, t, hstack, List.map_cons, List.sum_cons, Frame.weight, weights]
  omega

/-- A callback is done and drops its cookies. -/
theorem weight_leave_lt (hanswer : s.answer = none)
    (hstack : s.stack = .running name current [] owns carry :: rest) :
    (({ s with stack := rest }.releaseAll owns).releaseAll carry).weight < s.weight := by
  have howns := load_releaseAll_le { s with stack := rest } owns
  have hcarry := load_releaseAll_le ({ s with stack := rest }.releaseAll owns) carry
  have hanswer' : (({ s with stack := rest }.releaseAll owns).releaseAll carry).answer = none :=
    hanswer
  have hload : s.load = ({ s with stack := rest } : State).load +
      (1 + cookieWeight owns + cookieWeight carry) := by
    simp only [load, hstack, List.map_cons, List.sum_cons, Frame.weight, weights]
    omega
  have hweight : s.weight = s.load := by simp [weight_eq, hanswer]
  rw [weight_eq, hanswer', hweight]
  simp only [Option.isSome_none, Bool.false_eq_true, if_false]
  omega

end Running

/-- Every step of the host thread uses up some of the weight. -/
theorem weight_step_lt (hinv : Inv callbacks s)
    (hempty : s.host.closed = true → s.host.registry.contents = []) (hbusy : s.stack ≠ []) :
    s.step.weight < s.weight := by
  unfold step
  split
  · next hstack => exact absurd hstack hbusy
  · next name current script owns carry rest hstack =>
    split
    · next a hanswer =>
      have hload : s.weight = s.load + 1 := by simp [weight_eq, hanswer]
      rw [hload]
      split <;> exact (weight_eq _).trans_lt (Nat.lt_succ_self _)
    · next hanswer =>
      split
      · exact weight_begin_lt hinv hanswer hstack
      · exact weight_leave_lt hanswer hstack
  · next count rest hstack =>
    simp only [stepPoll, Host.receive]
    cases hqueue : s.host.queue with
    | nil => exact weight_stop_lt hstack rfl _ _
    | cons m queue => exact weight_deliver_lt hinv hempty hqueue hstack rfl fun ran => rfl
  · next condition checks count rest hstack =>
    simp only [stepWait, Host.receive]
    split
    · exact weight_stop_lt hstack rfl _ _
    · split
      · exact weight_stop_lt hstack rfl _ _
      · cases hqueue : s.host.queue with
        | nil =>
          dsimp only
          split <;> exact weight_stop_lt hstack rfl _ _
        | cons m queue => exact weight_deliver_lt hinv hempty hqueue hstack rfl fun ran => rfl

theorem Reachable.weight_step_lt (h : Reachable callbacks s) (hbusy : s.stack ≠ []) :
    s.step.weight < s.weight :=
  State.weight_step_lt h.inv h.kept.empty hbusy

/-! ## Rest -/

theorem Reachable.isIdle_drive (h : Reachable callbacks s) {n : Nat} (hn : s.weight ≤ n) :
    (State.drive n s).isIdle = true := by
  induction n generalizing callbacks s with
  | zero =>
    have hzero : (s.stack.map Frame.weight).sum = 0 := by
      have := s.load_le_weight
      unfold load at this
      omega
    have hpos : ∀ frame : Frame, 0 < frame.weight := by
      intro frame
      cases frame <;> simp only [Frame.weight] <;> omega
    cases hstack : s.stack with
    | nil => simp [State.drive, isIdle, hstack]
    | cons frame rest =>
      have := hpos frame
      rw [hstack, List.map_cons, List.sum_cons] at hzero
      omega
  | succ n ih =>
    unfold State.drive
    split
    · assumption
    · next hbusy =>
      have hlt := h.weight_step_lt (by simpa [isIdle] using hbusy)
      exact ih h.step (by omega)

/-- Whatever the host thread is in the middle of comes to an end. -/
theorem Reachable.isIdle_settle (h : Reachable callbacks s) : s.settle.isIdle = true :=
  h.isIdle_drive (Nat.le_refl _)

end State

end HostBridge.Bridge
