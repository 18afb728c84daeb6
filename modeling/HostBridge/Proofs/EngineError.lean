import HostBridge.EngineError
import HostBridge.Proofs.Json.Decode
import HostBridge.Proofs.Json.Reader

/-!
# Reading and writing engine errors

The writer of engine errors has one form for each error; the reader accepts many. `decode_toJson`
says that the reader takes the writer's form back, `toOption_decode_eq` that it sees no difference
between the shapes of an error and of the fault inside it, and `isCanonical_toJson` together with
`isCanonical_ctx_of_decode` that what is read from a canonical value is written as one.
-/

namespace HostBridge

open Json (DecodeError IsRecord)
open Json.RecordReader (Place writeAt independent_of_places)

theorem ErrorCode.decode_toJson (c : ErrorCode) : decode c.toJson = .ok c := by
  cases c <;> rfl

namespace QueryFault

/-- The named values of a query fault, in declared order. -/
def fields (code serverMessage : Json) : List (String × Json) :=
  [("code", code), ("server_message", serverMessage)]

/-- Where the fields go. -/
def places : List (Place Draft) :=
  [.ofDecoder "code" Json.decodeInt32 fun code d => { d with code := some code },
    .ofDecoder "server_message" Json.decodeText fun serverMessage d =>
      { d with serverMessage := some serverMessage }]

theorem visit_eq (k : String) (v : Json) (d : Draft) :
    reader.visit k v d = (writeAt places k v).map fun a => a d := by
  simp only [reader, writeAt, places, List.find?_cons, Place.ofDecoder, eq_comm (a := k)]
  split_ifs with h₁ h₂
  · simp only [h₁, decide_true]
    cases Json.decodeInt32 v <;> rfl
  · simp only [h₁, h₂, decide_true, decide_false]
    cases Json.decodeText v <;> rfl
  · simp only [h₁, h₂, decide_false]
    rfl

theorem independent_reader : reader.Independent :=
  independent_of_places rfl visit_eq
    (List.pairwise_pair.mpr (Place.apart_ofDecoder (by decide) fun _ _ _ => rfl))

theorem decode_toJson (q : QueryFault) : decode q.toJson = .ok q := by
  simp only [decode, toJson, Json.RecordReader.decode, Json.RecordReader.visitAll, reader, if_true,
    Json.decodeInt32_int]
  rfl

/-- All shapes of a query fault decode to the same. -/
theorem toOption_decode_eq {code serverMessage v w : Json}
    (hv : IsRecord (fields code serverMessage) v) (hw : IsRecord (fields code serverMessage) w) :
    (decode v).toOption = (decode w).toOption :=
  (independent_reader.toOption_decode rfl hv).trans (independent_reader.toOption_decode rfl hw).symm

theorem isCanonical_toJson (q : QueryFault) : q.toJson.IsCanonical :=
  Json.isCanonical_pair (by decide) (.int _) (.str _)

end QueryFault

namespace EngineError

/-- The named values of an engine error, in declared order. -/
def fields (code message ctx fault : Json) : List (String × Json) :=
  [("code", code), ("message", message), ("ctx", ctx), ("query_error_properties", fault)]

/-- Where the fields go. -/
def places : List (Place Draft) :=
  [.ofDecoder "code" ErrorCode.decode fun code d => { d with code := some code },
    .ofDecoder "message" Json.decodeText fun message d => { d with message := some message },
    .ofDecoder "ctx" Except.ok fun ctx d => { d with ctx := some ctx },
    .ofDecoder "query_error_properties" (Json.decodeOption QueryFault.decode) fun fault d =>
      { d with fault }]

theorem visit_eq (k : String) (v : Json) (d : Draft) :
    reader.visit k v d = (writeAt places k v).map fun a => a d := by
  simp only [reader, writeAt, places, List.find?_cons, Place.ofDecoder, eq_comm (a := k)]
  split_ifs with h₁ h₂ h₃ h₄
  · simp only [h₁, decide_true]
    cases ErrorCode.decode v <;> rfl
  · simp only [h₁, h₂, decide_true, decide_false]
    cases Json.decodeText v <;> rfl
  · simp only [h₁, h₂, h₃, decide_true, decide_false]
    rfl
  · simp only [h₁, h₂, h₃, h₄, decide_true, decide_false]
    cases Json.decodeOption QueryFault.decode v <;> rfl
  · simp only [h₁, h₂, h₃, h₄, decide_false]
    rfl

theorem pairwise_places : places.Pairwise Place.Apart := by
  simp only [places, List.pairwise_cons, List.mem_cons, forall_eq_or_imp, List.not_mem_nil,
    false_imp_iff, implies_true, and_true, List.Pairwise.nil]
  refine ⟨⟨?_, ?_, ?_⟩, ⟨?_, ?_⟩, ?_⟩
  all_goals exact Place.apart_ofDecoder (by decide) fun _ _ _ => rfl

theorem independent_reader : reader.Independent :=
  independent_of_places rfl visit_eq pairwise_places

/-! ## Writing and reading back -/

theorem decodeOption_ofOption (fault : Option QueryFault) :
    Json.decodeOption QueryFault.decode (Json.ofOption QueryFault.toJson fault) = .ok fault := by
  cases fault with
  | none => rfl
  | some q =>
    change (QueryFault.decode q.toJson).map some = .ok (some q)
    rw [QueryFault.decode_toJson]
    rfl

/-- What is written of an engine error is read back as the error. -/
theorem decode_toJson (e : EngineError) : decode e.toJson = .ok e := by
  simp only [decode, toJson, Json.RecordReader.decode, Json.RecordReader.visitAll, reader, if_true,
    ErrorCode.decode_toJson, decodeOption_ofOption]
  rfl

/-! ## Shapes -/

/-- Two values that are the same, or two shapes of a query fault with the same values. -/
def SameFault (v w : Json) : Prop :=
  v = w ∨ ∃ code serverMessage, IsRecord (QueryFault.fields code serverMessage) v ∧
    IsRecord (QueryFault.fields code serverMessage) w

theorem toOption_decodeOption_eq {v w : Json} (h : SameFault v w) :
    (Json.decodeOption QueryFault.decode v).toOption =
      (Json.decodeOption QueryFault.decode w).toOption := by
  -- a shape of a record is not null
  have hsome : ∀ {fields : List (String × Json)} {u : Json}, IsRecord fields u →
      (Json.decodeOption QueryFault.decode u).toOption =
        (QueryFault.decode u).toOption.map some := by
    rintro fields u (rfl | ⟨members, rfl, -, -⟩)
    · exact Json.toOption_map _ _
    · exact Json.toOption_map _ _
  rcases h with rfl | ⟨code, serverMessage, hv, hw⟩
  · rfl
  · rw [hsome hv, hsome hw, QueryFault.toOption_decode_eq hv hw]

theorem take_fault (v : Json) (d : Option Draft) :
    reader.take d ("query_error_properties", v) = d.bind fun d =>
      (Json.decodeOption QueryFault.decode v).toOption.map fun fault => { d with fault } := by
  refine Option.bind_congr fun d _ => ?_
  change (Json.decodeOption QueryFault.decode v >>= fun fault =>
    pure { d with fault }).toOption = _
  cases Json.decodeOption QueryFault.decode v <;> rfl

/-- All shapes of an engine error decode to the same, whatever the shape of the fault inside. -/
theorem toOption_decode_eq {code message ctx fault fault' v w : Json}
    (hfault : SameFault fault fault') (hv : IsRecord (fields code message ctx fault) v)
    (hw : IsRecord (fields code message ctx fault') w) :
    (decode v).toOption = (decode w).toOption := by
  have htake : ∀ d, reader.take d ("query_error_properties", fault) =
      reader.take d ("query_error_properties", fault') := fun d => by
    rw [take_fault, take_fault, toOption_decodeOption_eq hfault]
  rw [decode, independent_reader.toOption_decode rfl hv, independent_reader.toOption_decode rfl hw]
  simp only [fields, List.foldl_cons, List.foldl_nil, htake]

/-- A fault that is missing counts as null. -/
theorem decode_null_fault (members : List (String × Json)) :
    decode (.obj (("query_error_properties", .null) :: members)) = decode (.obj members) :=
  rfl

/-! ## Canonical values -/

/-- A visit sets the context to the value that it takes, or leaves it alone. -/
theorem ctx_of_visit {k : String} {v : Json} {d d' : Draft} (h : reader.visit k v d = .ok d') :
    d'.ctx = d.ctx ∨ d'.ctx = some v := by
  simp only [reader] at h
  split_ifs at h
  · obtain ⟨code, -, h⟩ := Json.exists_of_bind_eq_ok h
    cases h
    exact Or.inl rfl
  · obtain ⟨message, -, h⟩ := Json.exists_of_bind_eq_ok h
    cases h
    exact Or.inl rfl
  · cases h
    exact Or.inr rfl
  · obtain ⟨fault, -, h⟩ := Json.exists_of_bind_eq_ok h
    cases h
    exact Or.inl rfl
  · cases h
    exact Or.inl rfl

theorem ctx_of_finish {d : Draft} {e : EngineError} (h : reader.finish d = .ok e) :
    d.ctx = some e.ctx := by
  obtain ⟨code, -, h⟩ := Json.exists_of_bind_eq_ok h
  obtain ⟨message, -, h⟩ := Json.exists_of_bind_eq_ok h
  obtain ⟨ctx, hctx, h⟩ := Json.exists_of_bind_eq_ok h
  cases h
  cases hd : d.ctx with
  | none =>
    rw [hd] at hctx
    cases hctx
  | some x =>
    rw [hd] at hctx
    cases hctx
    rfl

/-- The context read from a canonical value is canonical. -/
theorem isCanonical_ctx_of_decode {v : Json} {e : EngineError} (hv : v.IsCanonical)
    (h : decode v = .ok e) : e.ctx.IsCanonical := by
  obtain ⟨members, d, hchildren, hvisits, hfinish⟩ := Json.RecordReader.exists_draft_of_decode h
  have hctx : ∀ x, d.ctx = some x → x.IsCanonical := by
    refine Json.RecordReader.of_visitAll (fun d => ∀ x, d.ctx = some x → x.IsCanonical)
      (fun p hp d d' hd hvisit x hx => ?_) (by rintro x ⟨⟩) hvisits
    rcases ctx_of_visit hvisit with hkept | hset
    · exact hd x (hkept ▸ hx)
    · obtain rfl : p.2 = x := Option.some.inj (hset.symm.trans hx)
      exact hv.of_mem_children (hchildren p hp)
  exact hctx e.ctx (ctx_of_finish hfinish)

theorem sorted_toJson (e : EngineError) : ∃ members, e.toJson = .obj members ∧
    Keyed.Sorted members := by
  refine ⟨_, rfl, Keyed.sorted_iff_names.mpr ?_⟩
  change ["code", "ctx", "message", "query_error_properties"].Pairwise (· < ·)
  decide

/-- An engine error with a canonical context is written as a canonical value. -/
theorem isCanonical_toJson {e : EngineError} (h : e.ctx.IsCanonical) : e.toJson.IsCanonical := by
  obtain ⟨members, htoJson, hsorted⟩ := e.sorted_toJson
  obtain rfl := Json.obj.inj htoJson
  refine .obj hsorted fun p hp => ?_
  simp only [List.mem_cons, List.not_mem_nil, or_false] at hp
  rcases hp with rfl | rfl | rfl | rfl
  · exact .str _
  · exact h
  · exact .str _
  · cases e.fault with
    | none => exact .null
    | some q => exact q.isCanonical_toJson

/-- An engine error that is read from a text is written as a canonical value. -/
theorem isCanonical_toJson_of_parse {s : String} {v : Json} {e : EngineError}
    (hparse : Json.parse? s = some v) (h : decode v = .ok e) : e.toJson.IsCanonical :=
  isCanonical_toJson (isCanonical_ctx_of_decode (Json.isCanonical_of_parse hparse) h)

/-! ## All in one -/

/-- What is written of an engine error is read back as that error. All shapes of a record with the
same four values are read as the same error, or none is read at all, and the fault inside may have
either shape too; where it is missing it counts as null. Whatever a value that is read looked like,
what is written of the error is an object with sorted members, canonical throughout if the value
was; it is read as the same error, and what is written then is what was written before. -/
theorem read_alike_in_every_shape :
    (∀ e : EngineError, decode e.toJson = .ok e) ∧
    (∀ {code message ctx fault fault' v w : Json}, SameFault fault fault' →
      IsRecord (fields code message ctx fault) v → IsRecord (fields code message ctx fault') w →
      (decode v).toOption = (decode w).toOption) ∧
    (∀ members, decode (.obj (("query_error_properties", .null) :: members)) =
      decode (.obj members)) ∧
    ∀ {v : Json} {e : EngineError}, decode v = .ok e →
      (∃ members, e.toJson = .obj members ∧ Keyed.Sorted members) ∧
      (v.IsCanonical → e.toJson.IsCanonical) ∧
      decode e.toJson = .ok e ∧ (decode e.toJson).map toJson = .ok e.toJson := by
  refine ⟨decode_toJson, toOption_decode_eq, decode_null_fault, fun {v e} h =>
    ⟨e.sorted_toJson, fun hv => isCanonical_toJson (isCanonical_ctx_of_decode hv h),
      e.decode_toJson, ?_⟩⟩
  rw [decode_toJson]
  rfl

/-- A statement that the query service could not parse. -/
def misspelt : EngineError :=
  { code := .queryError
    message := "syntax error"
    ctx := .obj [("attempts", .arr [.int 1, .null]), ("endpoint", .str "mem")]
    fault := some ⟨24000, "near SELEC"⟩ }

/-- The error as an object with a further member. The code is spelt as an object, and the fault is a
list. -/
def misspeltAsObject : Json :=
  .obj [("code", .obj [("query_error", .null)]), ("ctx", misspelt.ctx), ("hint", .bool true),
    ("message", .str "syntax error"),
    ("query_error_properties", .arr [.int 24000, .str "near SELEC"])]

/-- The error as a list. The fault is an object with a further member. -/
def misspeltAsList : Json :=
  .arr [.obj [("query_error", .null)], .str "syntax error", misspelt.ctx,
    .obj [("code", .int 24000), ("server_message", .str "near SELEC"), ("state", .str "42000")]]

/-- The object and the list are read as the same error. The object is canonical, and so is what is
written of the error, which is not the object. -/
theorem read_alike_of_misspelt :
    (decode misspeltAsObject).toOption = (decode misspeltAsList).toOption ∧
    decode misspeltAsObject = .ok misspelt ∧ misspelt.toJson ≠ misspeltAsObject ∧
    misspeltAsObject.IsCanonical ∧ misspelt.toJson.IsCanonical ∧
    decode misspelt.toJson = .ok misspelt := by
  obtain ⟨-, hshapes, -, hwritten⟩ := read_alike_in_every_shape
  have hread : decode misspeltAsObject = .ok misspelt := rfl
  have hcanonical : misspeltAsObject.IsCanonical := Json.canonical_eq_self_iff.mp rfl
  have hfault : SameFault (.arr [.int 24000, .str "near SELEC"])
      (.obj [("code", .int 24000), ("server_message", .str "near SELEC"),
        ("state", .str "42000")]) :=
    Or.inr ⟨.int 24000, .str "near SELEC", Or.inl rfl,
      Or.inr ⟨_, rfl, by decide, by simp [QueryFault.fields]⟩⟩
  obtain ⟨-, hkept, hback, -⟩ := hwritten hread
  refine ⟨hshapes hfault (Or.inr ⟨_, rfl, by decide, ?_⟩) (Or.inl rfl), hread, ?_, hcanonical,
    hkept hcanonical, hback⟩
  · simp [fields]
  · simp [misspelt, misspeltAsObject, toJson]

end EngineError

end HostBridge
