import Mathlib.Data.List.Count
import Mathlib.Data.List.Nodup
import OneApi.Proofs.RereadDocument

/-! Records from the members of an object. A record is given by its fields: the key of each, how its
value is read, and what it is when it is missing. An object describes a record when all its keys
have a text, each key of a field stands at most once, and each field is what its member says. -/

namespace OneApi.Json

abbrev Members := List (Option String × Json)

/-- A field of a record. Without a default it must be there. -/
structure RecordField (α : Type) where
  {Value : Type}
  key : String
  missing : Option Value
  read : Json → Option Value
  get : α → Value

variable {α : Type}

/-- The field of a record is what the members of an object say about it. -/
inductive RecordField.Holds (f : RecordField α) (ms : Members) (a : α) : Prop
  | absent : (∀ m ∈ ms, m.1 ≠ some f.key) → f.missing = some (f.get a) → Holds f ms a
  | present {v : Json} : (some f.key, v) ∈ ms → f.read v = some (f.get a) → Holds f ms a

structure Describes (record : List (RecordField α)) (ms : Members) (a : α) : Prop where
  named : ∀ m ∈ ms, m.1.isSome = true
  once : ∀ f ∈ record, (ms.map Prod.fst).count (some f.key) ≤ 1
  holds : ∀ f ∈ record, f.Holds ms a

/-- A value of a type is read by reading the fields of a record. -/
structure ReadsFields (α : Type) [Document α] (record : List (RecordField α)) : Prop where
  ofJson_eq_some_iff (v : Json) (a : α) : Document.ofJson v = some a ↔
    ∃ fs, fields? (record.map RecordField.key) v = some fs ∧
      ∀ f ∈ record, field fs f.key f.missing f.read = some (f.get a)

/-! ## Members with a text for a key -/

def named (m : String × Json) : Option String × Json := (some m.1, m.2)

theorem named?_eq_some_iff {ms : Members} {all : Fields} :
    named? ms = some all ↔ ms = all.map named := by
  constructor
  · intro h
    fun_induction named? ms generalizing all with
    | case1 =>
      cases h
      rfl
    | case2 => cases h
    | case3 k v ms ih =>
      obtain ⟨rest, hrest, rfl⟩ := Option.map_eq_some_iff.mp h
      rw [List.map_cons, ← ih hrest]
      rfl
  · rintro rfl
    exact named?_map all

theorem exists_map_named {ms : Members} (h : ∀ m ∈ ms, m.1.isSome = true) :
    ∃ all : Fields, ms = all.map named := by
  induction ms with
  | nil => exact ⟨[], rfl⟩
  | cons m ms ih =>
    obtain ⟨hm, h⟩ := List.forall_mem_cons.mp h
    obtain ⟨all, rfl⟩ := ih h
    obtain ⟨key, v⟩ := m
    obtain ⟨k, rfl⟩ := Option.isSome_iff_exists.mp hm
    exact ⟨(k, v) :: all, rfl⟩

variable {all : Fields} {key : String} {v : Json}

theorem mem_map_named : (some key, v) ∈ all.map named ↔ (key, v) ∈ all := by
  simp [named]

theorem count_map_named (key : String) (all : Fields) :
    ((all.map named).map Prod.fst).count (some key) = (all.map Prod.fst).count key := by
  have hkeys : (all.map named).map Prod.fst = (all.map Prod.fst).map some := by
    simp [named, Function.comp_def]
  rw [hkeys, List.count_map_of_injective _ _ (Option.some_injective _)]

theorem lookup_eq_some_iff_mem {fs : Fields} (h : (fs.map Prod.fst).Nodup) :
    fs.lookup key = some v ↔ (key, v) ∈ fs := by
  rw [List.lookup_eq_some_iff]
  constructor
  · rintro ⟨before, after, rfl, _⟩
    simp
  · intro hmem
    obtain ⟨before, after, rfl⟩ := List.append_of_mem hmem
    refine ⟨before, after, rfl, fun p hp => ?_⟩
    rw [List.map_append, List.nodup_append] at h
    have hne := h.2.2 p.1 (List.mem_map_of_mem hp) key (by simp)
    simpa using Ne.symm hne

/-! ## Fields -/

variable {record : List (RecordField α)}

/-- The members under the keys of a record. -/
def known (keys : List String) (all : Fields) : Fields := all.filter fun m => keys.contains m.1

theorem nodup_known_iff {keys : List String} :
    ((known keys all).map Prod.fst).Nodup ↔
      ∀ key ∈ keys, ((all.map named).map Prod.fst).count (some key) ≤ 1 := by
  have hfilter : (known keys all).map Prod.fst = (all.map Prod.fst).filter keys.contains := by
    rw [List.filter_map]
    rfl
  rw [hfilter, List.nodup_iff_count_le_one]
  simp only [count_map_named]
  constructor
  · intro h key hkey
    have hcount := h key
    rwa [List.count_filter (List.contains_iff_mem.mpr hkey)] at hcount
  · intro h key
    by_cases hkey : key ∈ keys
    · rw [List.count_filter (List.contains_iff_mem.mpr hkey)]
      exact h key hkey
    · rw [List.count_eq_zero_of_not_mem]
      · exact Nat.zero_le 1
      · intro hmem
        exact hkey (List.contains_iff_mem.mp (List.mem_filter.mp hmem).2)

theorem fields?_object (keys : List String) (all : Fields) :
    fields? keys (.object (all.map named)) =
      if ((known keys all).map Prod.fst).Nodup then some (known keys all) else none := by
  rw [fields?, named?_eq_some_iff.mpr rfl]
  rfl

theorem field_eq_some_iff {keys : List String} {f : RecordField α} {a : α} (hf : f.key ∈ keys)
    (hnodup : ((known keys all).map Prod.fst).Nodup) :
    field (known keys all) f.key f.missing f.read = some (f.get a) ↔ f.Holds (all.map named) a := by
  have hmem (v : Json) : (f.key, v) ∈ known keys all ↔ (some f.key, v) ∈ all.map named := by
    rw [mem_map_named, known, List.mem_filter, and_iff_left (List.contains_iff_mem.mpr hf)]
  unfold field
  cases hlookup : (known keys all).lookup f.key with
  | none =>
    have habsent : ∀ v, (some f.key, v) ∉ all.map named := by
      intro v hv
      rw [← hmem, ← lookup_eq_some_iff_mem hnodup, hlookup] at hv
      cases hv
    constructor
    · refine .absent fun m hm hkey => habsent m.2 ?_
      rwa [← hkey]
    · intro h
      cases h with
      | absent _ h => exact h
      | present hv _ => exact absurd hv (habsent _)
  | some v =>
    have hv := (hmem v).mp ((lookup_eq_some_iff_mem hnodup).mp hlookup)
    constructor
    · exact .present hv
    · intro h
      cases h with
      | absent hno _ => exact absurd rfl (hno _ hv)
      | present hw h =>
        rw [← hmem, ← lookup_eq_some_iff_mem hnodup, hlookup] at hw
        cases hw
        exact h

/-- An object is read as the record that it describes. -/
theorem describes_iff (record : List (RecordField α)) (ms : Members) (a : α) :
    Describes record ms a ↔
      ∃ fs, fields? (record.map RecordField.key) (.object ms) = some fs ∧
        ∀ f ∈ record, field fs f.key f.missing f.read = some (f.get a) := by
  have hkey {f : RecordField α} (hf : f ∈ record) : f.key ∈ record.map RecordField.key :=
    List.mem_map_of_mem hf
  constructor
  · intro h
    obtain ⟨all, rfl⟩ := exists_map_named h.named
    have hnodup := nodup_known_iff.mpr (List.forall_mem_map.mpr h.once)
    refine ⟨known _ all, ?_, fun f hf => (field_eq_some_iff (hkey hf) hnodup).mpr (h.holds f hf)⟩
    rw [fields?_object, if_pos hnodup]
  · rintro ⟨fs, hfs, hfields⟩
    obtain ⟨all, hall, _⟩ : ∃ all, named? ms = some all ∧ _ := Option.bind_eq_some_iff.mp hfs
    obtain rfl := named?_eq_some_iff.mp hall
    rw [fields?_object] at hfs
    split at hfs
    · rename_i hnodup
      cases hfs
      refine ⟨List.forall_mem_map.mpr fun _ _ => rfl, ?_, ?_⟩
      · exact fun f hf => nodup_known_iff.mp hnodup _ (hkey hf)
      · exact fun f hf => (field_eq_some_iff (hkey hf) hnodup).mp (hfields f hf)
    · cases hfs

end OneApi.Json
