import HostBridge.Metadata
import HostBridge.Proofs.Json.Decode

/-!
# What hosts see of metadata

Metadata reaches a host as a JSON value and is read back from it. Nothing gets lost on the way but
in the durations, of which the whole milliseconds remain, modulo `UInt64.size`. `cut` is what
remains, and `decode_toJson` says that the reader and the writer agree on everything else. What is
left out is so little that the value a host sees stays the same on every further round
(`toJson_cut`), and nothing is left out of durations that are whole milliseconds and not too long
(`cut_eq_self_iff`).
-/

namespace HostBridge

/-! ## Durations -/

namespace Duration

/-- What remains of a duration in whole milliseconds of 64 bits. -/
def cut (d : Duration) : Duration :=
  ofMillis d.millis

/-- The nanoseconds of a duration. -/
def nanoseconds (d : Duration) : Nat :=
  d.secs.toNat * 1000000000 + d.nanos.val

/-- The duration is some number of whole milliseconds that fits 64 bits. -/
def IsMillis (d : Duration) : Prop :=
  ∃ ms < UInt64.size, d.nanoseconds = ms * 1000000

theorem nanoseconds_injective {d d' : Duration} (h : d.nanoseconds = d'.nanoseconds) : d = d' := by
  obtain ⟨secs, nanos⟩ := d
  obtain ⟨secs', nanos'⟩ := d'
  have hnanos := nanos.isLt
  have hnanos' := nanos'.isLt
  simp only [nanoseconds] at h
  have hsecs : secs.toNat = secs'.toNat := by omega
  have hrest : nanos.val = nanos'.val := by omega
  rw [UInt64.toNat_inj.mp hsecs, Fin.ext hrest]

theorem nanoseconds_ofMillis (ms : UInt64) : (ofMillis ms).nanoseconds = ms.toNat * 1000000 := by
  have hsecs : ms.toNat / 1000 < 2 ^ 64 := by
    have := ms.toNat_lt
    omega
  simp only [ofMillis, nanoseconds, UInt64.toNat_ofNat', Nat.mod_eq_of_lt hsecs]
  omega

theorem wholeMillis_eq (d : Duration) : d.wholeMillis = d.nanoseconds / 1000000 := by
  simp only [wholeMillis, nanoseconds]
  omega

/-- The whole milliseconds remain, as many as 64 bits can count. -/
theorem nanoseconds_cut (d : Duration) :
    d.cut.nanoseconds = d.nanoseconds / 1000000 % UInt64.size * 1000000 := by
  rw [cut, nanoseconds_ofMillis, millis, UInt64.toNat_ofNat', wholeMillis_eq]

/-- A duration is cut to its whole milliseconds modulo `UInt64.size`. -/
theorem wholeMillis_cut (d : Duration) : d.cut.wholeMillis = d.wholeMillis % UInt64.size := by
  rw [wholeMillis_eq, nanoseconds_cut, Nat.mul_div_cancel _ (by decide), wholeMillis_eq]

/-- Nothing is lost of a duration exactly if it is whole milliseconds and not too long. -/
theorem cut_eq_self_iff {d : Duration} : d.cut = d ↔ d.IsMillis := by
  constructor
  · intro h
    refine ⟨d.nanoseconds / 1000000 % UInt64.size, Nat.mod_lt _ (by decide), ?_⟩
    rw [← nanoseconds_cut, h]
  · rintro ⟨ms, hms, h⟩
    apply nanoseconds_injective
    rw [nanoseconds_cut, h, Nat.mul_div_cancel _ (by decide), Nat.mod_eq_of_lt hms]

/-- A duration that was cut shows as many milliseconds as before. -/
theorem millis_cut (d : Duration) : d.cut.millis = d.millis := by
  have hwhole : d.cut.wholeMillis = d.millis.toNat := by
    rw [wholeMillis_cut, millis, UInt64.toNat_ofNat']
  rw [millis, hwhole, UInt64.ofNat_toNat]

end Duration

/-! ## Records -/

theorem Warning.decode_toJson (w : Warning) : decode w.toJson = .ok w := by
  simp only [decode, toJson, Json.RecordReader.decode, Json.RecordReader.visitAll, reader, if_true,
    Json.decodeInt32_int]
  rfl

theorem Warning.isCanonical_toJson (w : Warning) : w.toJson.IsCanonical :=
  Json.isCanonical_pair (by decide) (.int _) (.str _)

namespace Metrics

/-- What remains of metrics whose durations are cut. -/
def cut (m : Metrics) : Metrics :=
  { m with elapsed := m.elapsed.cut, execution := m.execution.cut }

theorem decodeMillis_count (d : Duration) : decodeMillis (count d.millis) = .ok d.cut := by
  rw [decodeMillis, count, Json.decodeUInt64_int]
  rfl

theorem decode_toJson (m : Metrics) : decode m.toJson = .ok m.cut := by
  have hcount : ∀ n, Json.decodeUInt64 (count n) = .ok n := Json.decodeUInt64_int
  simp only [decode, toJson, Json.RecordReader.decode, Json.RecordReader.visitAll, reader, if_true,
    decodeMillis_count, hcount]
  rfl

theorem toJson_cut (m : Metrics) : m.cut.toJson = m.toJson := by
  simp only [toJson, cut, Duration.millis_cut]

theorem cut_eq_self_iff {m : Metrics} : m.cut = m ↔ m.elapsed.IsMillis ∧ m.execution.IsMillis := by
  rw [← Duration.cut_eq_self_iff, ← Duration.cut_eq_self_iff]
  exact ⟨fun h => ⟨congrArg elapsed h, congrArg execution h⟩, fun ⟨helapsed, hexecution⟩ => by
    rw [cut, helapsed, hexecution]⟩

/-- The canonical form has the declared fields in the order of their names. -/
theorem canonical_declared (m : Metrics) : m.declared.canonical = m.toJson := by
  rw [declared, Json.canonical, Json.canonicalMembers_eq_map]
  refine congrArg Json.obj (Keyed.ofList_eq_of_perm (Keyed.sorted_iff_names.mpr ?_) ?_)
  · change ["elapsed_time", "execution_time", "processed_objects", "result_count",
      "result_size"].Pairwise (· < ·)
    decide
  · exact ((List.perm_append_singleton _ [_, _]).symm.cons _).cons _

end Metrics

namespace Metadata

/-- What remains of metadata whose durations are cut. -/
def cut (m : Metadata) : Metadata :=
  { m with metrics := m.metrics.cut }

/-- What a host sees of metadata is read back as it was, with its durations cut. -/
theorem decode_toJson (m : Metadata) : decode m.toJson = .ok m.cut := by
  have hwarnings : Json.decodeList Warning.decode (.arr (m.warnings.map Warning.toJson)) =
      .ok m.warnings := Json.decodeItems_map Warning.decode_toJson m.warnings
  simp only [decode, toJson, Json.RecordReader.decode, Json.RecordReader.visitAll, reader, if_true,
    Metrics.decode_toJson, hwarnings]
  rfl

theorem toJson_cut (m : Metadata) : m.cut.toJson = m.toJson := by
  simp only [toJson, cut, Metrics.toJson_cut]

theorem cut_eq_self_iff {m : Metadata} :
    m.cut = m ↔ m.metrics.elapsed.IsMillis ∧ m.metrics.execution.IsMillis := by
  rw [← Metrics.cut_eq_self_iff]
  exact ⟨congrArg metrics, fun h => by rw [cut, h]⟩

/-- What hosts see are the declared fields, sorted by name at every level. -/
theorem canonical_declared (m : Metadata) : m.declared.canonical = m.toJson := by
  have hwarnings : (Json.arr (m.warnings.map Warning.toJson)).canonical =
      .arr (m.warnings.map Warning.toJson) := by
    refine Json.IsCanonical.canonical_eq (.arr fun v hv => ?_)
    obtain ⟨w, -, rfl⟩ := List.mem_map.mp hv
    exact w.isCanonical_toJson
  rw [declared, Json.canonical, Json.canonicalMembers_eq_map]
  simp only [List.map_cons, List.map_nil, hwarnings, Metrics.canonical_declared]
  refine congrArg Json.obj (Keyed.ofList_eq_of_perm (Keyed.sorted_iff_names.mpr ?_) ?_)
  · change ["metrics", "request_id", "warnings"].Pairwise (· < ·)
    decide
  · exact (List.perm_append_singleton _ [_, _]).symm

/-- What a host sees of metadata are its declared fields, sorted by name. It is read back as the
same metadata, but that each of the two durations is cut to its whole milliseconds modulo
`UInt64.size`, which is `2 ^ 64`. So it is read back unchanged exactly if both durations are whole
milliseconds below that bound, and what is written of the metadata read back is always what was
written before. -/
theorem read_back_in_millis (m : Metadata) :
    m.declared.canonical = m.toJson ∧
    (∃ elapsed execution : Duration,
      decode m.toJson = .ok { m with metrics := { m.metrics with elapsed, execution } } ∧
      elapsed.nanoseconds = m.metrics.elapsed.nanoseconds / 1000000 % UInt64.size * 1000000 ∧
      execution.nanoseconds =
        m.metrics.execution.nanoseconds / 1000000 % UInt64.size * 1000000) ∧
    (decode m.toJson = .ok m ↔ m.metrics.elapsed.IsMillis ∧ m.metrics.execution.IsMillis) ∧
    (decode m.toJson).map toJson = .ok m.toJson := by
  refine ⟨m.canonical_declared, ⟨_, _, m.decode_toJson, Duration.nanoseconds_cut _,
    Duration.nanoseconds_cut _⟩, ?_, ?_⟩
  · rw [decode_toJson, Except.ok.injEq, cut_eq_self_iff]
  · rw [decode_toJson, Except.map, toJson_cut]

end Metadata

end HostBridge
