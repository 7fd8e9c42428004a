import GoShape.Proofs.Union
import GoShape.Proofs.Wrapping

/-! Samples that are repeated. What the elements of a list have in common does not change when all of
them come again: their kind is absorbed by the kind of the list, and each key is counted as many times
more often as there are more elements. So a list of equal elements has the type of one of them for its
element type. -/
namespace GoShape

namespace Kind

/-- The kind of a list absorbs the kinds of its elements. -/
theorem unify_of_mem {ks : List Kind} {m k : Kind} (h : common ks = some m) (hk : k ∈ ks) :
    unify m k = m := by
  by_cases ha : m = .scalar .any
  · rw [ha, unify_any]
  by_cases hf : m = .scalar .float64
  · subst hf
    have hnumber := ((common_eq_float_iff ks).mp h).numbers k hk
    rcases isNumber_iff.mp hnumber with rfl | rfl | rfl <;> rfl
  · rw [((common_eq_some_iff ha hf).mp h).2 k hk, unify_self]

theorem foldl_unify_of_absorbed {m : Kind} {ks : List Kind} (h : ∀ k ∈ ks, unify m k = m) :
    ks.foldl unify m = m := by
  induction ks with
  | nil => rfl
  | cons k ks ih =>
    rw [List.foldl_cons, h k (by simp)]
    exact ih fun l hl => h l (by simp [hl])

/-- A list keeps its kind when elements come that are like those it has. -/
theorem common_append {ks ls : List Kind} (hks : ks ≠ []) (hsub : ls ⊆ ks) :
    common (ks ++ ls) = common ks := by
  obtain ⟨k, ks, rfl⟩ := List.exists_cons_of_ne_nil hks
  have hkind : common (k :: ks) = some (ks.foldl unify k) := by
    rw [common, unifyAll_eq_foldl]
  have habsorbed := foldl_unify_of_absorbed fun l hl => unify_of_mem hkind (hsub hl)
  rw [hkind, List.cons_append, common, unifyAll_eq_foldl, List.foldl_append, habsorbed]

end Kind

section

variable {α : Type} {n : Nat}

theorem exists_flatten_replicate (h : 0 < n) (l : List α) :
    ∃ rest, (List.replicate n l).flatten = l ++ rest ∧ rest ⊆ l := by
  obtain ⟨m, rfl⟩ := Nat.exists_eq_add_one.mpr h
  refine ⟨(List.replicate m l).flatten, by rw [List.replicate_succ, List.flatten_cons], ?_⟩
  intro a ha
  obtain ⟨l', hl', ha⟩ := List.mem_flatten.mp ha
  rwa [List.eq_of_mem_replicate hl'] at ha

theorem map_flatten_replicate {β : Type} (f : α → β) (l : List α) :
    (List.replicate n l).flatten.map f = (List.replicate n (l.map f)).flatten := by
  rw [List.map_flatten, List.map_replicate]

theorem countP_flatten_replicate (p : α → Bool) (l : List α) :
    (List.replicate n l).flatten.countP p = n * l.countP p := by
  rw [List.countP_flatten, List.map_replicate, List.sum_replicate_nat]

theorem eraseDups_flatten_replicate (h : 0 < n) (ks : List String) :
    (List.replicate n ks).flatten.eraseDups = ks.eraseDups := by
  obtain ⟨rest, hrest, hsub⟩ := exists_flatten_replicate h ks
  have hnone : rest.removeAll ks = [] := by
    rw [List.removeAll, List.filter_eq_nil_iff]
    intro k hk
    simpa using hsub hk
  rw [hrest, List.eraseDups_append, hnone, List.eraseDups_nil, List.append_nil]

end

namespace Field

variable {τ : Type}

/-- Fields without a repeated key are determined by the order of their keys and by what each key
leads to. -/
theorem eq_of_lookup? {fs gs : List (Field τ)} (hfs : (fs.map Field.key).Nodup)
    (hgs : (gs.map Field.key).Nodup) (hkeys : fs.map Field.key = gs.map Field.key)
    (hlookup : ∀ k, lookup? fs k = lookup? gs k) : fs = gs := by
  rw [← filterMap_lookup? hfs, hkeys, funext hlookup, filterMap_lookup? hgs]

theorem lookup?_flatten_replicate {n : Nat} (h : 0 < n) (fields : List (Field τ)) (k : String) :
    lookup? (List.replicate n fields).flatten k = lookup? fields k := by
  rw [lookup?, List.find?_flatten, List.findSome?_replicate, if_neg h.ne']
  rfl

end Field

namespace GoType

variable {n : Nat}

theorem flatMap_fields_flatten_replicate (elements : List GoType) :
    (List.replicate n elements).flatten.flatMap fields =
      (List.replicate n (elements.flatMap fields)).flatten := by
  rw [List.flatMap, map_flatten_replicate, List.flatten_flatten, List.map_replicate]
  rfl

/-- Counts and elements grow alike, so no field becomes optional or stops to be. -/
theorem merge_flatten_replicate (h : 0 < n) (elements : List GoType) :
    merge (List.replicate n elements).flatten = merge elements := by
  apply Field.eq_of_lookup? (nodup_merge _) (nodup_merge _)
  · rw [keys_merge, keys_merge, flatMap_fields_flatten_replicate, map_flatten_replicate,
      eraseDups_flatten_replicate h]
  · intro k
    have hlength : (List.replicate n elements).flatten.length = n * elements.length := by simp
    rw [lookup?_merge, lookup?_merge, flatMap_fields_flatten_replicate,
      Field.lookup?_flatten_replicate h, countP_flatten_replicate, hlength]
    simp only [Nat.mul_lt_mul_left h]

theorem commonKind_flatten_replicate (h : 0 < n) (elements : List GoType) :
    commonKind (List.replicate n elements).flatten = commonKind elements := by
  rw [commonKind, commonKind, map_flatten_replicate]
  obtain ⟨rest, hrest, hsub⟩ := exists_flatten_replicate h (elements.map kind)
  rw [hrest]
  by_cases hempty : elements.map kind = []
  · rw [hempty] at hsub ⊢
    rw [List.subset_nil.mp hsub, List.append_nil]
  · exact Kind.common_append hempty hsub

/-- The common type of elements is that of the same elements several times over. -/
theorem common_flatten_replicate (h : 0 < n) (elements : List GoType) :
    common (List.replicate n elements).flatten = common elements := by
  have hhead : (List.replicate n elements).flatten.headD (.scalar .any) =
      elements.headD (.scalar .any) := by
    obtain ⟨rest, hrest, hsub⟩ := exists_flatten_replicate h elements
    rw [hrest]
    cases elements with
    | nil => rw [List.subset_nil.mp hsub, List.append_nil]
    | cons t ts => rfl
  rw [common, common, commonKind_flatten_replicate h, merge_flatten_replicate h, hhead]

end GoType

namespace Json

/-- Elements that are repeated have the element type that they have once. The type of a value, which
like any that is read has no key twice in an object, is the element type of a list in which nothing
but this value stands, once or several times. -/
theorem elementType_repeated {n : Nat} (h : 0 < n) :
    (∀ items, elementType (List.replicate n items).flatten = elementType items) ∧
    ∀ v : Json, v.DistinctKeys →
      elementType [v] = v.type ∧ type (.array (List.replicate n v)) = .slice v.type := by
  have hrepeated : ∀ items, elementType (List.replicate n items).flatten = elementType items := by
    intro items
    rw [elementType, map_flatten_replicate, GoType.common_flatten_replicate h]
    rfl
  refine ⟨hrepeated, fun v hv => ?_⟩
  have hsingle := elementType_singleton hv
  refine ⟨hsingle, ?_⟩
  rw [type_array, ← List.flatten_replicate_singleton, hrepeated, hsingle]

/-- A key that every other element lacks stays optional, and one that all have does not become so. -/
theorem elementType_repeated_sample :
    elementType [.object [("a", .null)], .object [], .object [("a", .null)], .object []] =
      .struct [.ofKey "a" (.scalar .any) true] ∧
    type (.array [.object [("a", .array [])], .object [("a", .array [])]]) =
      .slice (.struct [.ofKey "a" (.slice (.scalar .any)) false]) := by
  obtain ⟨hrepeated, hvalue⟩ := elementType_repeated (show 0 < 2 by decide)
  have hread : parse "\x7b\"a\":[]\x7d" = .ok (.object [("a", .array [])]) := rfl
  refine ⟨?_, (hvalue _ (distinctKeys_of_parse hread)).2.trans rfl⟩
  exact (hrepeated [.object [("a", .null)], .object []]).trans rfl

end Json
end GoShape
