import GoShape.Proofs.Parts
import GoShape.Proofs.Unify
import GoShape.Proofs.Union

/-! The values that a type accepts. A type is found by looking at the first list among lists and at
the first value under a key, so it accepts the whole sample if the others are of the same type; all
the rest is seen to: without a common kind elements are of any type, and a key that is missing
somewhere is optional. -/
namespace GoShape

/-- A type without parts accepts its own kind, a float any number and a string any string. -/
def Scalar.accepts : Scalar → Json → Bool
  | .any, _ => true
  | .float64, .number _ => true
  | .float64, _ => false
  | .string, .string _ => true
  | .string, _ => false
  | s, v => v.kind = .scalar s

namespace GoType

mutual

/-- A list type accepts lists of what its elements accept, and a struct the objects in which every
key has a field that accepts its value and every field that is not optional has its key. -/
def accepts : GoType → Json → Bool
  | .scalar s, v => s.accepts v
  | .slice t, .array items => items.all fun v => accepts t v
  | .struct fs, .object ms =>
    ms.all (fun m => keyAccepts fs m.1 m.2) && fs.all fun f => f.optional || ms.any (·.1 == f.key)
  | _, _ => false

/-- Some field of the key accepts the value. -/
def keyAccepts : List (Field GoType) → String → Json → Bool
  | [], _, _ => false
  | ⟨_, key, type, _⟩ :: fs, k, v => (key == k && accepts type v) || keyAccepts fs k v

end

theorem keyAccepts_iff {fs : List (Field GoType)} {k : String} {v : Json} :
    keyAccepts fs k v ↔ ∃ f ∈ fs, f.key = k ∧ f.type.accepts v := by
  induction fs with
  | nil => simp [keyAccepts]
  | cons f fs ih =>
    obtain ⟨name, key, type, optional⟩ := f
    simp [keyAccepts, ih]

theorem accepts_array_iff {t : GoType} {items : List Json} :
    (slice t).accepts (.array items) ↔ ∀ v ∈ items, t.accepts v := by
  simp [accepts]

theorem accepts_object_iff {fs : List (Field GoType)} {ms : List (String × Json)} :
    (struct fs).accepts (.object ms) ↔
      (∀ m ∈ ms, ∃ f ∈ fs, f.key = m.1 ∧ f.type.accepts m.2) ∧
        ∀ f ∈ fs, f.optional = false → f.key ∈ ms.map Prod.fst := by
  simp only [accepts, Bool.and_eq_true, List.all_eq_true, keyAccepts_iff, Bool.or_eq_true,
    List.any_eq_true, beq_iff_eq, List.mem_map]
  refine and_congr_right fun _ => forall₂_congr fun f _ => ?_
  cases f.optional <;> simp

end GoType

namespace Json

/-! ### Samples that agree with themselves -/

/-- Lists in a list are of one type, and so are the values under one key of objects in a list. -/
structure ListConsistent (items : List Json) : Prop where
  lists : (∀ v ∈ items, v.kind = .slice) → ∀ u ∈ items, ∀ v ∈ items, u.type = v.type
  objects : (∀ v ∈ items, v.kind = .struct) → ∀ ms ms', .object ms ∈ items → .object ms' ∈ items →
    ∀ m ∈ ms, ∀ m' ∈ ms', m.1 = m'.1 → m.2.type = m'.2.type

/-- All the lists inside a value are consistent. -/
def Consistent (v : Json) : Prop := ∀ items, Inside (.array items) v → ListConsistent items

theorem consistent_flat {v : Json} (h : v.IsFlat) : v.Consistent := by
  obtain ⟨s, hs⟩ := h
  intro items hi
  cases hi <;> cases hs

theorem consistent_array {items : List Json} :
    Consistent (.array items) ↔ ListConsistent items ∧ ∀ v ∈ items, v.Consistent := by
  constructor
  · exact fun h => ⟨h items (.refl _), fun v hv items' hi => h items' (.item hv hi)⟩
  · rintro ⟨hitems, h⟩ items' hi
    cases hi with
    | refl => exact hitems
    | item hv hi => exact h _ hv items' hi

theorem consistent_object {ms : List (String × Json)} :
    Consistent (.object ms) ↔ ∀ m ∈ ms, m.2.Consistent := by
  constructor
  · exact fun h m hm items hi => h items (.member hm hi)
  · intro h items hi
    cases hi with
    | member hm hi => exact h _ hm items hi

/-! ### Values without parts -/

theorem accepts_of_isNumber {v : Json} (h : v.kind.isNumber) : Scalar.float64.accepts v := by
  obtain ⟨n, rfl⟩ := isNumber_kind_iff.mp h
  rfl

theorem accepts_of_kind {s : Scalar} {v : Json} (h : v.kind = .scalar s) : s.accepts v := by
  cases s with
  | any => rfl
  | float64 =>
    apply accepts_of_isNumber
    rw [h]
    rfl
  | string =>
    cases v with
    | string s => rfl
    | number n =>
      have hn : (kind (.number n)).isNumber := isNumber_kind_iff.mpr ⟨n, rfl⟩
      rw [h] at hn
      cases hn
    | _ => cases h
  | _ => simpa [Scalar.accepts] using h

/-- The kind on which values agree accepts all of them. -/
theorem accepts_of_commonKind {items : List Json} {s : Scalar}
    (h : commonKind items = some (.scalar s)) : ∀ v ∈ items, s.accepts v := by
  intro v hv
  by_cases ha : s = .any
  · subst ha
    rfl
  · by_cases hf : s = .float64
    · subst hf
      have hw := (Kind.common_eq_float_iff _).mp h
      exact accepts_of_isNumber (hw.numbers _ (List.mem_map_of_mem hv))
    · have hall := (Kind.common_eq_some_iff (by simpa using ha) (by simpa using hf)).mp h
      exact accepts_of_kind (hall.2 _ (List.mem_map_of_mem hv))

/-! ### Objects in a list -/

theorem kind_eq_struct_iff {v : Json} : v.kind = .struct ↔ ∃ ms, v = .object ms := by
  cases v <;> simp [kind]

theorem kind_eq_slice_iff {v : Json} : v.kind = .slice ↔ ∃ items, v = .array items := by
  cases v <;> simp [kind]

theorem DistinctKeys.nodup_keys {v : Json} (h : v.DistinctKeys) : v.keys.Nodup := by
  cases v with
  | object ms => exact (distinctKeys_object.mp h).1
  | _ => exact List.nodup_nil

variable {items : List Json}

/-- A field that is not optional in the merged struct has its key in every object. -/
theorem mem_keys_of_not_optional (hkeys : ∀ v ∈ items, v.keys.Nodup) {f : Field GoType}
    (hf : f ∈ mergedFields items) (hopt : f.optional = false) {ms : List (String × Json)}
    (hms : .object ms ∈ items) : f.key ∈ ms.map Prod.fst := by
  by_contra hnot
  have hlacks := ((isUnion_mergedFields hkeys).optional f hf).mpr ⟨_, hms, hnot⟩
  rw [hopt] at hlacks
  cases hlacks

/-- The merged struct has a field for every key, with the type of some value under that key. -/
theorem exists_field_of_mem (hkeys : ∀ v ∈ items, v.keys.Nodup) {ms : List (String × Json)}
    (hms : .object ms ∈ items) {m : String × Json} (hm : m ∈ ms) :
    ∃ f ∈ mergedFields items, f.key = m.1 ∧
      ∃ ms' m', .object ms' ∈ items ∧ m' ∈ ms' ∧ m'.1 = m.1 ∧ f.type = m'.2.type := by
  have hkey : m.1 ∈ (mergedFields items).map Field.key := by
    rw [keys_mergedFields, List.mem_eraseDups]
    exact List.mem_flatMap.mpr ⟨_, hms, List.mem_map_of_mem hm⟩
  obtain ⟨f, hf, hfm⟩ := List.mem_map.mp hkey
  obtain ⟨before, ms', after, w, hitems, -, hw, htype⟩ := (isUnion_mergedFields hkeys).type f hf
  exact ⟨f, hf, hfm, ms', _, by simp [hitems], hw, hfm, htype⟩

theorem accepts_merged (hkind : ∀ v ∈ items, v.kind = .struct) (hkeys : ∀ v ∈ items, v.DistinctKeys)
    (hc : ListConsistent items) (hitems : ∀ v ∈ items, v.type.accepts v) :
    ∀ v ∈ items, (GoType.struct (mergedFields items)).accepts v := by
  intro v hv
  obtain ⟨ms, rfl⟩ := kind_eq_struct_iff.mp (hkind v hv)
  have hnodup : ∀ v ∈ items, v.keys.Nodup := fun v hv => (hkeys v hv).nodup_keys
  rw [GoType.accepts_object_iff]
  refine ⟨?_, fun f hf hopt => mem_keys_of_not_optional hnodup hf hopt hv⟩
  intro m hm
  obtain ⟨f, hf, hkey, ms', m', hms', hm', hsame, htype⟩ := exists_field_of_mem hnodup hv hm
  refine ⟨f, hf, hkey, ?_⟩
  have hown := hitems _ hv
  rw [type, GoType.accepts_object_iff] at hown
  obtain ⟨g, hg, hgkey, hgaccepts⟩ := hown.1 m hm
  rw [memberFields_eq_map] at hg
  obtain ⟨n, hn, rfl⟩ := List.mem_map.mp hg
  rw [htype, hc.objects hkind ms' ms hms' hv m' hm' n hn (hsame.trans hgkey.symm)]
  exact hgaccepts

/-- The element type of a list accepts all its elements. -/
theorem accepts_elementType (hkeys : ∀ v ∈ items, v.DistinctKeys) (hc : ListConsistent items)
    (hitems : ∀ v ∈ items, v.type.accepts v) : ∀ v ∈ items, (elementType items).accepts v := by
  rw [elementType_eq]
  intro v hv
  cases hk : commonKind items with
  | none => simp [GoType.accepts, Scalar.accepts]
  | some k =>
    cases k with
    | scalar s =>
      simp only [GoType.accepts]
      exact accepts_of_commonKind hk v hv
    | slice =>
      have hkind := (kind_of_commonKind hk (by simp)).2
      cases items with
      | nil => cases hv
      | cons u items =>
        simp only [List.map_cons, List.headD_cons]
        rw [hc.lists hkind u (by simp) v hv]
        exact hitems v hv
    | struct => exact accepts_merged (kind_of_commonKind hk (by simp)).2 hkeys hc hitems v hv

/-- The type of a consistent sample accepts that sample. -/
theorem accepts_type (v : Json) (hkeys : v.DistinctKeys) (hc : v.Consistent) :
    v.type.accepts v := by
  induction v using Json.induction with
  | array items ih =>
    rw [distinctKeys_array] at hkeys
    rw [consistent_array] at hc
    rw [type_array, GoType.accepts_array_iff]
    exact accepts_elementType hkeys hc.1 fun v hv => ih v hv (hkeys v hv) (hc.2 v hv)
  | object ms ih =>
    rw [distinctKeys_object] at hkeys
    rw [consistent_object] at hc
    rw [type, GoType.accepts_object_iff, memberFields_eq_map]
    constructor
    · intro m hm
      exact ⟨_, List.mem_map_of_mem hm, rfl, ih m hm (hkeys.2 m hm) (hc m hm)⟩
    · intro f hf _
      obtain ⟨m, hm, rfl⟩ := List.mem_map.mp hf
      exact List.mem_map_of_mem hm
  | _ =>
    simp only [type, GoType.accepts]
    exact accepts_of_kind rfl

/-- A number is not of any type, and neither is a string. -/
theorem type_eq_any_iff {v : Json} : v.type = .scalar .any ↔ v = .null := by
  cases v with
  | null => simp [type]
  | number n => rcases n.scalar_number with h | h | h <;> simp [type, h]
  | string s =>
    simp only [type, Scalar.ofString, reduceCtorEq, iff_false, GoType.scalar.injEq]
    split_ifs <;> decide
  | _ => simp [type]

theorem elementType_eq_any {items : List Json} (h : elementType items = .scalar .any) :
    items = [] ∨ commonKind items = some (.scalar .any) := by
  rw [elementType_eq] at h
  cases hk : commonKind items with
  | none =>
    cases items with
    | nil => exact .inl rfl
    | cons v items => cases hk
  | some k =>
    rw [hk] at h
    cases k with
    | scalar s =>
      obtain rfl : s = .any := by simpa using h
      exact .inr rfl
    | struct => cases h
    | slice =>
      obtain ⟨hne, hkind⟩ := kind_of_commonKind hk (by simp)
      obtain ⟨v, items, rfl⟩ := List.exists_cons_of_ne_nil hne
      obtain ⟨inner, rfl⟩ := kind_eq_slice_iff.mp (hkind v (by simp))
      simp at h

/-- The type of a sample accepts the sample, if lists in one list are of one type and so are the
values under one key of objects in one list; no object that is read has a key twice. Nothing is of
any type without need: a sample only if it is `null`, and the elements of a list only if there are
none or they agree on nothing. -/
theorem accepts_type_of_consistent :
    (∀ v : Json, v.DistinctKeys → v.Consistent → v.type.accepts v) ∧
    (∀ text v, parse text = .ok v → v.DistinctKeys) ∧
    (∀ v : Json, v.type = .scalar .any → v = .null) ∧
    ∀ items, elementType items = .scalar .any →
      items = [] ∨ commonKind items = some (.scalar .any) :=
  ⟨accepts_type, fun _ _ => distinctKeys_of_parse, fun _ => type_eq_any_iff.mp,
    fun _ => elementType_eq_any⟩

/-- The type of `[{"a":1},{}]` accepts both objects, with the key and without it. -/
theorem accepts_type_of_consistent_sample :
    ∃ v, parse "[\x7b\"a\":1\x7d,\x7b\x7d]" = .ok v ∧ v.type.accepts v := by
  obtain ⟨haccepts, hparse, -⟩ := accepts_type_of_consistent
  have hread : parse "[\x7b\"a\":1\x7d,\x7b\x7d]" =
    .ok (.array [.object [("a", .number ⟨false, [1], [], none⟩)], .object []]) := rfl
  have hnumber : Consistent (.number ⟨false, [1], [], none⟩) :=
    consistent_flat ⟨.int, by decide +kernel⟩
  refine ⟨_, hread, haccepts _ (hparse _ _ hread) (consistent_array.mpr ⟨⟨?_, ?_⟩, ?_⟩)⟩
  · intro h
    exact absurd (h _ List.mem_cons_self) (by simp [kind])
  · intro _ ms ms' hms hms' m hm m' hm' _
    simp only [List.mem_cons, List.not_mem_nil, or_false, object.injEq] at hms hms'
    obtain rfl | rfl := hms
    · obtain rfl | rfl := hms'
      · rw [List.mem_singleton.mp hm, List.mem_singleton.mp hm']
      · cases hm'
    · cases hm
  · simp [consistent_object, hnumber]

end Json
end GoShape
