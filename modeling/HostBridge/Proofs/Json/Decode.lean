import HostBridge.Json.Decode
import HostBridge.Proofs.Json.Canonical
import Mathlib.Data.List.Nodup
import Mathlib.Data.List.Pairwise
import Mathlib.Data.List.Perm.Basic

/-!
# What decoders take back

Numbers and lists are decoded to what they were written from. A record can be written in two ways:
as a list of its values in declared order, and as an object that has them under the names of the
fields, in any order and with anything else under other names. The two are visited in different
orders, so that a refusal may name another culprit. Everything else is the same: if it does not
matter in which order two fields are visited (`Independent`), all shapes of a record decode to the
same value, or none does (`toOption_decode`). It does not matter if each field has a place of its
own in the draft (`independent_of_places`).
-/

namespace HostBridge.Json

/-! ## Numbers and lists -/

@[simp]
theorem decodeUInt64_int (n : UInt64) : decodeUInt64 (.int n.toNat) = .ok n := by
  have hrange : 0 ≤ (n.toNat : Int) ∧ (n.toNat : Int) < 0x10000000000000000 := by
    have := n.toNat_lt
    omega
  simp only [decodeUInt64, if_pos hrange, Int.toNat_natCast, UInt64.ofNat_toNat]

@[simp]
theorem decodeInt32_int (n : Int32) : decodeInt32 (.int n.toInt) = .ok n := by
  have hrange : -0x80000000 ≤ n.toInt ∧ n.toInt < 0x80000000 := ⟨n.le_toInt, n.toInt_lt⟩
  simp only [decodeInt32, if_pos hrange, Int32.ofInt_toInt]

/-- Items that are read back one by one are read back in a row. -/
theorem decodeItems_map {α : Type} {item : Decoder α} {f : α → Json}
    (h : ∀ a, item (f a) = .ok a) (as : List α) : decodeItems item (as.map f) = .ok as := by
  induction as with
  | nil => rfl
  | cons a as ih =>
    rw [List.map_cons, decodeItems, h, ih]
    rfl

/-! ## Shapes of a record -/

/-- The value is one of the shapes of a record with the given fields: the list of their values, or
an object that has them among its members, each name once. -/
def IsRecord (fields : List (String × Json)) (v : Json) : Prop :=
  v = .arr (fields.map Prod.snd) ∨
    ∃ members, v = .obj members ∧ (members.map Prod.fst).Nodup ∧ fields ⊆ members

theorem toOption_bind {ε α β : Type} (x : Except ε α) (f : α → Except ε β) :
    (x >>= f).toOption = x.toOption.bind fun a => (f a).toOption := by
  cases x <;> rfl

theorem toOption_map {ε α β : Type} (f : α → β) (x : Except ε α) :
    (x.map f).toOption = x.toOption.map f := by
  cases x <;> rfl

theorem exists_of_bind_eq_ok {ε α β : Type} {x : Except ε α} {f : α → Except ε β} {b : β}
    (h : (x >>= f) = .ok b) : ∃ a, x = .ok a ∧ f a = .ok b := by
  cases x with
  | error e => cases h
  | ok a => exact ⟨a, rfl, h⟩

theorem exists_of_map_eq_ok {ε α β : Type} {x : Except ε α} {f : α → β} {b : β}
    (h : x.map f = .ok b) : ∃ a, x = .ok a ∧ f a = b := by
  cases x with
  | error e => cases h
  | ok a => exact ⟨a, rfl, Except.ok.inj h⟩

namespace RecordReader

variable {δ α : Type} {r : RecordReader δ α}

/-- Takes a named value into a draft, if there is a draft and the value is accepted. -/
def take (r : RecordReader δ α) (d : Option δ) (p : String × Json) : Option δ :=
  d.bind fun d => (r.visit p.1 p.2 d).toOption

/-- The fields have different names, a name that is no field changes nothing, and two fields can be
visited in either order. -/
structure Independent (r : RecordReader δ α) : Prop where
  /-- No two fields have the same name. -/
  distinct : r.fields.Nodup
  /-- A name that is no field is ignored. -/
  ignores : ∀ (k : String) (v : Json) (d : δ), k ∉ r.fields → r.visit k v d = .ok d
  /-- Two fields can be visited in either order. -/
  swaps : ∀ (k l : String) (v w : Json) (d : δ), k ≠ l →
    (r.visit k v d >>= r.visit l w).toOption = (r.visit l w d >>= r.visit k v).toOption

/-! ### Places of fields -/

/-- The place of a field: how a value of the field is read, and where in a draft it is put. -/
structure Place (δ : Type) where
  /-- The name of the field. -/
  name : String
  /-- What a value of the field does to a draft. -/
  write : Json → Except DecodeError (δ → δ)

namespace Place

/-- The place of a field whose values are read by a decoder. -/
def ofDecoder {β : Type} (name : String) (read : Decoder β) (put : β → δ → δ) : Place δ :=
  ⟨name, fun v => (read v).map put⟩

/-- The two fields have different names, and what is put at one place leaves the other alone. -/
def Apart (f g : Place δ) : Prop :=
  f.name ≠ g.name ∧
    ∀ v w a b, f.write v = .ok a → g.write w = .ok b → ∀ d, a (b d) = b (a d)

instance : Std.Symm (@Apart δ) where
  symm _ _ h := ⟨h.1.symm, fun v w a b ha hb d => (h.2 w v b a hb ha d).symm⟩

theorem apart_ofDecoder {β γ : Type} {name name' : String} {read : Decoder β} {read' : Decoder γ}
    {put : β → δ → δ} {put' : γ → δ → δ} (hname : name ≠ name')
    (hput : ∀ b c d, put b (put' c d) = put' c (put b d)) :
    (ofDecoder name read put).Apart (ofDecoder name' read' put') := by
  refine ⟨hname, fun v w a b ha hb d => ?_⟩
  obtain ⟨x, -, rfl⟩ := exists_of_map_eq_ok ha
  obtain ⟨y, -, rfl⟩ := exists_of_map_eq_ok hb
  exact hput x y d

end Place

/-- What a named value does to a draft. Under a name that is no field it does nothing. -/
def writeAt (places : List (Place δ)) (k : String) (v : Json) : Except DecodeError (δ → δ) :=
  match places.find? fun f => f.name = k with
  | some f => f.write v
  | none => .ok id

theorem writeAt_comm {places : List (Place δ)} (hapart : places.Pairwise Place.Apart)
    {k l : String} (hkl : k ≠ l) {v w : Json} {a b : δ → δ} (ha : writeAt places k v = .ok a)
    (hb : writeAt places l w = .ok b) (d : δ) : a (b d) = b (a d) := by
  simp only [writeAt] at ha hb
  cases hf : places.find? fun f => f.name = k with
  | none =>
    rw [hf] at ha
    cases ha
    rfl
  | some f =>
    cases hg : places.find? fun f => f.name = l with
    | none =>
      rw [hg] at hb
      cases hb
      rfl
    | some g =>
      have hfk : f.name = k := by simpa using List.find?_some hf
      have hgl : g.name = l := by simpa using List.find?_some hg
      have hfg : f ≠ g := fun h => hkl (hfk.symm.trans (h ▸ hgl))
      rw [hf] at ha
      rw [hg] at hb
      exact (hapart.forall (List.mem_of_find?_eq_some hf) (List.mem_of_find?_eq_some hg) hfg).2
        v w a b ha hb d

/-- A reader whose fields have places of their own can visit them in any order. -/
theorem independent_of_places {places : List (Place δ)} (hnames : r.fields = places.map Place.name)
    (hvisit : ∀ k v d, r.visit k v d = (writeAt places k v).map fun a => a d)
    (hapart : places.Pairwise Place.Apart) : r.Independent where
  distinct := hnames ▸ List.pairwise_map.mpr (hapart.imp And.left)
  ignores k v d hk := by
    have hnone : (places.find? fun f => f.name = k) = none := by
      refine List.find?_eq_none.mpr fun f hf hname => hk ?_
      rw [hnames, ← of_decide_eq_true hname]
      exact List.mem_map_of_mem hf
    rw [hvisit, writeAt, hnone]
    rfl
  swaps k l v w d hkl := by
    simp only [hvisit, toOption_bind]
    cases ha : writeAt places k v with
    | error e => cases writeAt places l w <;> rfl
    | ok a =>
      cases hb : writeAt places l w with
      | error e => rfl
      | ok b => exact congrArg some (writeAt_comm hapart hkl ha hb d).symm

/-! ### Visits -/

theorem toOption_visitAll (r : RecordReader δ α) (members : List (String × Json)) (d : δ) :
    (r.visitAll members d).toOption = members.foldl r.take (some d) := by
  induction members generalizing d with
  | nil => rfl
  | cons p rest ih =>
    obtain ⟨k, v⟩ := p
    rw [visitAll, toOption_bind, List.foldl_cons, take, Option.bind_some]
    cases (r.visit k v d).toOption with
    | some d' => exact ih d'
    | none =>
      have hnone : ∀ members : List (String × Json), members.foldl r.take none = none := by
        intro members
        induction members with
        | nil => rfl
        | cons p rest ih => exact ih
      exact (hnone rest).symm

theorem toOption_decode_obj (r : RecordReader δ α) (members : List (String × Json)) :
    (r.decode (.obj members)).toOption =
      (members.foldl r.take (some r.blank)).bind fun d => (r.finish d).toOption := by
  rw [decode, toOption_bind, toOption_visitAll]

/-- A list is visited before its length is looked at. -/
theorem decode_arr (r : RecordReader δ α) (items : List Json) :
    r.decode (.arr items) = r.visitAll (r.fields.zip items) r.blank >>= fun d =>
      if items.length < r.fields.length then
        .error (.invalidLength items.length (.recordOf r.name r.fields.length))
      else if r.fields.length < items.length then .error (.invalidLength items.length .fewer)
      else r.finish d := by
  refine bind_congr fun d => ?_
  split
  · rfl
  · split <;> rfl

theorem toOption_decode_arr {fields : List (String × Json)}
    (hnames : fields.map Prod.fst = r.fields) :
    (r.decode (.arr (fields.map Prod.snd))).toOption =
      (fields.foldl r.take (some r.blank)).bind fun d => (r.finish d).toOption := by
  have hzip : r.fields.zip (fields.map Prod.snd) = fields := (List.zip_of_prod hnames rfl).symm
  have hlength : (fields.map Prod.snd).length = r.fields.length := by
    rw [← hnames, List.length_map, List.length_map]
  rw [decode_arr, toOption_bind, hzip, toOption_visitAll]
  simp only [hlength, Nat.lt_irrefl, if_false]

namespace Independent

/-- Members under other names do not count. -/
theorem foldl_take_filter (h : r.Independent) (members : List (String × Json)) (d : Option δ) :
    (members.filter fun p => p.1 ∈ r.fields).foldl r.take d = members.foldl r.take d := by
  rw [List.foldl_filter]
  refine List.foldl_ext _ _ d fun d p _ => ?_
  by_cases hp : p.1 ∈ r.fields
  · simp only [hp, decide_true, if_true]
  · have htake : r.take d p = d := by
      simp only [take, h.ignores p.1 p.2 _ hp]
      exact Option.bind_fun_some d
    simp only [hp, decide_false, Bool.false_eq_true, if_false, htake]

/-- The order of members of different names does not count. -/
theorem foldl_take_perm (h : r.Independent) {members members' : List (String × Json)}
    (hperm : members.Perm members') (hnodup : (members.map Prod.fst).Nodup) (d : Option δ) :
    members.foldl r.take d = members'.foldl r.take d := by
  refine hperm.foldl_eq' (fun p hp q hq d => ?_) d
  by_cases hname : p.1 = q.1
  · rw [List.inj_on_of_nodup_map hnodup hp hq hname]
  · cases d with
    | none => rfl
    | some d =>
      have hswap := h.swaps p.1 q.1 p.2 q.2 d hname
      rwa [toOption_bind, toOption_bind] at hswap

/-- The members of an object that are fields of the record. -/
theorem filter_perm {fields members : List (String × Json)} (h : r.Independent)
    (hnames : fields.map Prod.fst = r.fields) (hnodup : (members.map Prod.fst).Nodup)
    (hfields : fields ⊆ members) : (members.filter fun p => p.1 ∈ r.fields).Perm fields := by
  have hdistinct : fields.Nodup := List.Nodup.of_map Prod.fst (hnames ▸ h.distinct)
  refine (List.perm_ext_iff_of_nodup ((List.Nodup.of_map Prod.fst hnodup).filter _) hdistinct).mpr
    fun p => ⟨fun hp => ?_, fun hp => ?_⟩
  · obtain ⟨hp, hfield⟩ := List.mem_filter.mp hp
    obtain ⟨q, hq, hname⟩ := List.mem_map.mp (hnames ▸ of_decide_eq_true hfield)
    rwa [← List.inj_on_of_nodup_map hnodup (hfields hq) hp hname]
  · exact List.mem_filter.mpr
      ⟨hfields hp, decide_eq_true (hnames ▸ List.mem_map_of_mem hp)⟩

/-- Every shape of a record is decoded as if its fields were visited in declared order. -/
theorem toOption_decode (h : r.Independent) {fields : List (String × Json)} {v : Json}
    (hnames : fields.map Prod.fst = r.fields) (hv : IsRecord fields v) :
    (r.decode v).toOption =
      (fields.foldl r.take (some r.blank)).bind fun d => (r.finish d).toOption := by
  rcases hv with rfl | ⟨members, rfl, hnodup, hfields⟩
  · exact toOption_decode_arr hnames
  · have hperm := h.filter_perm hnames hnodup hfields
    have hnodup' : ((members.filter fun p => p.1 ∈ r.fields).map Prod.fst).Nodup :=
      hnodup.sublist (List.filter_sublist.map Prod.fst)
    rw [toOption_decode_obj, ← h.foldl_take_filter, h.foldl_take_perm hperm hnodup']

end Independent

/-- A decoded value was finished from a draft that took values inside the given one. -/
theorem exists_draft_of_decode {v : Json} {a : α} (h : r.decode v = .ok a) :
    ∃ members d, (∀ p ∈ members, p.2 ∈ v.children) ∧ r.visitAll members r.blank = .ok d ∧
      r.finish d = .ok a := by
  cases v with
  | obj members =>
    obtain ⟨d, hvisits, hfinish⟩ := exists_of_bind_eq_ok h
    exact ⟨members, d, fun p hp => List.mem_map_of_mem hp, hvisits, hfinish⟩
  | arr items =>
    rw [decode_arr] at h
    obtain ⟨d, hvisits, hfinish⟩ := exists_of_bind_eq_ok h
    refine ⟨_, d, fun p hp => (List.of_mem_zip hp).2, hvisits, ?_⟩
    split at hfinish
    · cases hfinish
    · split at hfinish
      · cases hfinish
      · exact hfinish
  | null | bool | int | float | str => cases h

/-- What every visit keeps is kept by all of them. -/
theorem of_visitAll {members : List (String × Json)} {d d' : δ} (P : δ → Prop)
    (hvisit : ∀ p ∈ members, ∀ d d', P d → r.visit p.1 p.2 d = .ok d' → P d') (hd : P d)
    (h : r.visitAll members d = .ok d') : P d' := by
  induction members generalizing d with
  | nil =>
    cases h
    exact hd
  | cons p rest ih =>
    obtain ⟨d₁, hfirst, hrest⟩ := exists_of_bind_eq_ok h
    exact ih (fun q hq => hvisit q (List.mem_cons_of_mem p hq))
      (hvisit p List.mem_cons_self d d₁ hd hfirst) hrest

end RecordReader

end HostBridge.Json
