import GoShape.Proofs.Acceptance
import GoShape.Proofs.TypeParts

/-! The structs of an inferred type. Fields are collected in a list that would take a key twice; that no
struct has one comes from the objects, whose keys are distinct, and from the tallies, which have each
key once, so that the merged struct needs nothing of the objects. With parts or without, a type has the
kind of its value, and an element type the kind that the elements share. -/
namespace GoShape

/-- Each key has one field, under the name of the key: whoever looks a key up gets the one field of the
key, and whoever goes through the fields meets each key once. -/
structure IsFieldSet (fs : List (Field GoType)) : Prop where
  distinct : (fs.map Field.key).Nodup
  named : ∀ f ∈ fs, f.name = Identifier.format f.key
  found : ∀ key f, Field.lookup? fs key = some f ↔ f ∈ fs ∧ f.key = key
  once : ∀ f ∈ fs, (fs.map Field.key).count f.key = 1

/-- Distinct keys and the right names are enough. -/
theorem isFieldSet_of_nodup {fs : List (Field GoType)} (h : (fs.map Field.key).Nodup)
    (hnames : ∀ f ∈ fs, f.name = Identifier.format f.key) : IsFieldSet fs where
  distinct := h
  named := hnames
  found key f := by
    constructor
    · intro hf
      rw [Field.lookup?] at hf
      exact ⟨List.mem_of_find?_eq_some hf, by simpa using List.find?_some hf⟩
    · rintro ⟨hf, rfl⟩
      exact Field.lookup?_of_mem h hf
  once _ hf := List.count_eq_one_of_mem h (List.mem_map_of_mem hf)

namespace GoType

/-- A field of the merged struct has the type of a field of some element. -/
theorem exists_field_of_mem_merge {elements : List GoType} {f : Field GoType}
    (hf : f ∈ merge elements) : ∃ t ∈ elements, ∃ g ∈ t.fields, g.type = f.type := by
  have hself := Field.lookup?_of_mem (nodup_merge elements) hf
  rw [lookup?_merge] at hself
  obtain ⟨g, hg, hgf⟩ := Option.map_eq_some_iff.mp hself
  obtain ⟨t, ht, hmem⟩ := List.mem_flatMap.mp (List.mem_of_find?_eq_some hg)
  have htype := congrArg Field.type hgf
  exact ⟨t, ht, g, hmem, htype⟩

theorem isFieldSet_merge (elements : List GoType) : IsFieldSet (merge elements) := by
  refine isFieldSet_of_nodup (nodup_merge elements) fun f hf => ?_
  obtain ⟨t, -, rfl⟩ := List.mem_map.mp hf
  rfl

theorem everyStruct_fields {P : List (Field GoType) → Prop} {t : GoType} (h : t.EveryStruct P) :
    ∀ f ∈ t.fields, f.type.EveryStruct P := by
  cases t with
  | struct fs => exact (everyStruct_struct.mp h).2
  | _ => exact nofun

/-- The common type of some types has no structs but theirs and the one that they are merged into. -/
theorem everyStruct_common {elements : List GoType}
    (h : ∀ t ∈ elements, t.EveryStruct IsFieldSet) : (common elements).EveryStruct IsFieldSet := by
  unfold common
  split
  · exact everyStruct_scalar _
  · exact everyStruct_scalar _
  · refine everyStruct_struct.mpr ⟨isFieldSet_merge elements, fun f hf => ?_⟩
    obtain ⟨t, ht, g, hg, htype⟩ := exists_field_of_mem_merge hf
    rw [← htype]
    exact everyStruct_fields (h t ht) g hg
  · cases elements with
    | nil => exact everyStruct_scalar _
    | cons t elements => exact h t (by simp)

end GoType

namespace Json

open GoType

theorem everyStruct_type (v : Json) (hkeys : v.DistinctKeys) : v.type.EveryStruct IsFieldSet := by
  induction v using Json.induction with
  | array items ih =>
    rw [distinctKeys_array] at hkeys
    rw [type_array, everyStruct_slice]
    apply everyStruct_common
    intro t ht
    obtain ⟨v, hv, rfl⟩ := List.mem_map.mp ht
    exact ih v hv (hkeys v hv)
  | object ms ih =>
    rw [distinctKeys_object] at hkeys
    rw [type, memberFields_eq_map, everyStruct_struct, List.forall_mem_map]
    refine ⟨isFieldSet_of_nodup ?_ ?_, fun m hm => ih m hm (hkeys.2 m hm)⟩
    · rw [List.map_map]
      exact hkeys.1
    · rw [List.forall_mem_map]
      exact fun _ _ => rfl
  | _ => exact everyStruct_scalar _

/-- Where the first element stands for the others, all of them are lists. -/
theorem kind_elementType {items : List Json} {k : Kind} (h : commonKind items = some k) :
    (elementType items).kind = k := by
  rw [elementType_eq, h]
  cases k with
  | scalar s => rfl
  | struct => rfl
  | slice =>
    obtain ⟨hne, hkind⟩ := kind_of_commonKind h (by simp)
    obtain ⟨v, items, rfl⟩ := List.exists_cons_of_ne_nil hne
    exact (kind_type v).trans (hkind v (by simp))

/-- In every struct of an inferred type each key has one field, under the name of the key, if no object
has a key twice, and no object that is read has. The slots and their table make this very type. It has
the kind of the value, and the type of the elements of a list has the kind that they share, or is of any
type if there are none. -/
theorem everyStruct_isFieldSet_type :
    (∀ v : Json, v.DistinctKeys →
      Guarded.type v = .ok v.type ∧ v.type.EveryStruct IsFieldSet) ∧
    (∀ text v, parse text = .ok v → v.DistinctKeys) ∧
    (∀ v : Json, v.type.kind = v.kind) ∧
    (elementType []).kind = .scalar .any ∧
    ∀ items, items ≠ [] → commonKind items = some (elementType items).kind := by
  refine ⟨fun v hkeys => ⟨Guarded.type_eq v, everyStruct_type v hkeys⟩,
    fun _ _ => distinctKeys_of_parse, kind_type, rfl, fun items hne => ?_⟩
  obtain ⟨v, items, rfl⟩ := List.exists_cons_of_ne_nil hne
  obtain ⟨k, hk⟩ : ∃ k, commonKind (v :: items) = some k := ⟨_, rfl⟩
  rw [hk, kind_elementType hk]

/-- Two objects are merged inside another one, whose key is met again. -/
theorem everyStruct_isFieldSet_type_sample :
    ∃ items, parse "[\x7b\"b\":[\x7b\"a\":true\x7d,\x7b\"a\":\"x\"\x7d]\x7d,\x7b\"b\":[]\x7d]" =
        .ok (.array items) ∧ (type (.array items)).EveryStruct IsFieldSet ∧
      commonKind items = some (elementType items).kind := by
  obtain ⟨htype, hparse, -, -, helement⟩ := everyStruct_isFieldSet_type
  have hread : parse "[\x7b\"b\":[\x7b\"a\":true\x7d,\x7b\"a\":\"x\"\x7d]\x7d,\x7b\"b\":[]\x7d]" =
    .ok (.array [.object [("b", .array [.object [("a", .bool true)], .object [("a", .string "x")]])],
      .object [("b", .array [])]]) := rfl
  exact ⟨_, hread, (htype _ (hparse _ _ hread)).2, helement _ (by simp)⟩

end Json
end GoShape
