import HostBridge.Json.Reader
import HostBridge.Proofs.Json.Canonical

/-!
# What the reader yields

Whatever a text looks like, the value that is read from it is canonical (`isCanonical_of_parse`):
repeated keys and the order of members do not get past the reader.
-/

namespace HostBridge.Json.Reader

theorem isCanonical_of_ofParts {negative : Bool} {whole : List Char}
    {fraction : Option (List Char)} {exponent : Option Int} {v : Json}
    (h : ofParts? negative whole fraction exponent = some v) : v.IsCanonical := by
  unfold ofParts? at h
  extract_lets n at h
  split at h
  · cases h
    exact .int n
  · obtain ⟨magnitude, -, rfl⟩ := Option.map_eq_some_iff.mp h
    exact .float negative magnitude

theorem isCanonical_of_number {cs rest : List Char} {v : Json}
    (h : number? cs = some (v, rest)) : v.IsCanonical := by
  simp only [number?] at h
  -- the sign, then whether digits follow it
  split at h
  all_goals
    split at h
    · cases h
    · obtain ⟨⟨fraction, _⟩, -, h⟩ := Option.bind_eq_some_iff.mp h
      obtain ⟨⟨exponent, _⟩, -, h⟩ := Option.bind_eq_some_iff.mp h
      obtain ⟨w, hparts, h⟩ := Option.bind_eq_some_iff.mp h
      cases h
      exact isCanonical_of_ofParts hparts

/-- With the given fuel, canonical values are read, also after ones that were. -/
structure YieldsCanonical (fuel : Nat) : Prop where
  /-- A value is canonical. -/
  value : ∀ {cs v rest}, value? fuel cs = some (v, rest) → v.IsCanonical
  /-- Items are canonical if the ones before them are. -/
  items : ∀ {read cs vs rest}, (∀ v ∈ read, v.IsCanonical) →
    items? fuel read cs = some (vs, rest) → ∀ v ∈ vs, v.IsCanonical
  /-- The values of members are canonical if those before them are. -/
  members : ∀ {read cs ms rest}, (∀ p ∈ read, p.2.IsCanonical) →
    members? fuel read cs = some (ms, rest) → ∀ p ∈ ms, p.2.IsCanonical

namespace YieldsCanonical

variable {fuel : Nat}

theorem value_succ (h : YieldsCanonical fuel) {cs rest : List Char} {v : Json}
    (hv : value? (fuel + 1) cs = some (v, rest)) : v.IsCanonical := by
  rw [value?] at hv
  split at hv
  · cases hv
  · -- the first character tells a text, a list, an object, the three words and a number apart
    split_ifs at hv
    · obtain ⟨⟨s, _⟩, -, hv⟩ := Option.map_eq_some_iff.mp hv
      cases hv
      exact .str s
    · split at hv
      · cases hv
        exact .arr (by rintro w ⟨⟩)
      · obtain ⟨⟨vs, _⟩, hvs, hv⟩ := Option.map_eq_some_iff.mp hv
        cases hv
        exact .arr (h.items (by rintro w ⟨⟩) hvs)
    · split at hv
      · cases hv
        exact .obj Keyed.sorted_nil (by rintro p ⟨⟩)
      · obtain ⟨⟨ms, _⟩, hms, hv⟩ := Option.map_eq_some_iff.mp hv
        cases hv
        exact .obj (Keyed.sorted_ofList ms) fun p hp =>
          h.members (by rintro p ⟨⟩) hms p (Keyed.mem_of_mem_ofList hp)
    · obtain ⟨_, -, hv⟩ := Option.map_eq_some_iff.mp hv
      cases hv
      exact .null
    · obtain ⟨_, -, hv⟩ := Option.map_eq_some_iff.mp hv
      cases hv
      exact .bool true
    · obtain ⟨_, -, hv⟩ := Option.map_eq_some_iff.mp hv
      cases hv
      exact .bool false
    · exact isCanonical_of_number hv

theorem items_succ (h : YieldsCanonical fuel) {read vs : List Json} {cs rest : List Char}
    (hread : ∀ v ∈ read, v.IsCanonical) (hvs : items? (fuel + 1) read cs = some (vs, rest)) :
    ∀ v ∈ vs, v.IsCanonical := by
  rw [items?] at hvs
  obtain ⟨⟨w, _⟩, hw, hvs⟩ := Option.bind_eq_some_iff.mp hvs
  have hread' : ∀ v ∈ w :: read, v.IsCanonical :=
    List.forall_mem_cons.mpr ⟨h.value hw, hread⟩
  dsimp only at hvs
  split at hvs
  · exact h.items hread' hvs
  · cases hvs
    exact fun v hv => hread' v (List.mem_reverse.mp hv)
  · cases hvs

theorem members_succ (h : YieldsCanonical fuel) {read ms : List (String × Json)}
    {cs rest : List Char} (hread : ∀ p ∈ read, p.2.IsCanonical)
    (hms : members? (fuel + 1) read cs = some (ms, rest)) : ∀ p ∈ ms, p.2.IsCanonical := by
  rw [members?] at hms
  split at hms
  · obtain ⟨⟨k, _⟩, -, hms⟩ := Option.bind_eq_some_iff.mp hms
    obtain ⟨_, -, hms⟩ := Option.bind_eq_some_iff.mp hms
    obtain ⟨⟨w, _⟩, hw, hms⟩ := Option.bind_eq_some_iff.mp hms
    have hread' : ∀ p ∈ (k, w) :: read, p.2.IsCanonical :=
      List.forall_mem_cons.mpr ⟨h.value hw, hread⟩
    dsimp only at hms
    split at hms
    · exact h.members hread' hms
    · cases hms
      exact fun p hp => hread' p (List.mem_reverse.mp hp)
    · cases hms
  · cases hms

end YieldsCanonical

theorem yieldsCanonical (fuel : Nat) : YieldsCanonical fuel := by
  induction fuel with
  | zero =>
    constructor
    · rintro cs v rest ⟨⟩
    · rintro read cs vs rest - ⟨⟩
    · rintro read cs ms rest - ⟨⟩
  | succ fuel ih => exact ⟨ih.value_succ, ih.items_succ, ih.members_succ⟩

end Reader

/-- What is read from a text is canonical. -/
theorem isCanonical_of_parse {s : String} {v : Json} (h : parse? s = some v) : v.IsCanonical := by
  rw [parse?] at h
  split at h
  · next w rest hw =>
    split at h
    · cases h
      exact (Reader.yieldsCanonical _).value hw
    · cases h
  · cases h

end HostBridge.Json
