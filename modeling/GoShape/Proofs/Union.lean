import GoShape.Proofs.Guarded.Types

/-! The fields of the objects in a list: each key once, where it first occurs, with the type of its
first value, and optional if an element lacks it. A longer list has the fields of its parts, those of
the first part first, and a key that only one part has is optional. -/
namespace GoShape

/-- The key that is added last is new or was met before. -/
theorem eraseDups_append_singleton (ks : List String) (k : String) :
    (ks ++ [k]).eraseDups = if k ∈ ks then ks.eraseDups else ks.eraseDups ++ [k] := by
  rw [List.eraseDups_append]
  by_cases h : k ∈ ks
  · simp [List.removeAll, h]
  · simp [List.removeAll, h, List.eraseDups_cons]

theorem filter_eraseDups (p : String → Bool) (ks : List String) :
    (ks.filter p).eraseDups = ks.eraseDups.filter p := by
  induction ks using List.reverseRecOn with
  | nil => rfl
  | append_singleton ks k ih =>
    rw [List.filter_append, eraseDups_append_singleton]
    by_cases hp : p k
    · rw [List.filter_cons_of_pos hp, List.filter_nil, eraseDups_append_singleton, ih]
      by_cases hk : k ∈ ks <;> simp [hk, hp]
    · rw [List.filter_cons_of_neg hp, List.filter_nil, List.append_nil, ih]
      by_cases hk : k ∈ ks <;> simp [hk, hp]

namespace Tally

/-- The keys stand in the order in which they were first met. -/
theorem keys_ofFields {τ : Type} (fields : List (Field τ)) :
    (ofFields fields).map Tally.key = (fields.map Field.key).eraseDups := by
  induction fields using List.reverseRecOn with
  | nil => rfl
  | append_singleton fields f ih =>
    rw [ofFields_append_singleton, keys_meet, ih, List.map_append, List.map_singleton,
      eraseDups_append_singleton]
    simp only [List.mem_eraseDups]

end Tally

attribute [ext] Field

namespace Field

variable {τ : Type}

/-- What the keys of some fields lead to among others. -/
theorem filterMap_keys {fields others : List (Field τ)} {g : Field τ → Field τ}
    (h : ∀ f ∈ fields, lookup? others f.key = some (g f)) :
    (fields.map Field.key).filterMap (lookup? others) = fields.map g := by
  have hsome : ∀ f ∈ fields, (lookup? others ∘ Field.key) f = (some ∘ g) f := h
  rw [List.filterMap_map, List.filterMap_congr hsome, List.filterMap_eq_map]

/-- Where no key is repeated, the fields are those that their keys lead to. -/
theorem filterMap_lookup? {fields : List (Field τ)} (h : (fields.map Field.key).Nodup) :
    (fields.map Field.key).filterMap (lookup? fields) = fields := by
  rw [filterMap_keys (g := id) fun f hf => lookup?_of_mem h hf, List.map_id]

theorem lookup?_eq_none_iff {fields : List (Field τ)} {k : String} :
    lookup? fields k = none ↔ k ∉ fields.map Field.key := by
  simp [lookup?]

end Field

/-- Each key of the elements has one field, where the key is first met. -/
theorem GoType.keys_merge (elements : List GoType) :
    (merge elements).map Field.key = ((elements.flatMap fields).map Field.key).eraseDups := by
  rw [← Tally.keys_ofFields, merge, List.map_map]
  rfl

namespace Json

/-- The keys of an object; no other value has any. -/
def keys (v : Json) : List String := (Guarded.members v).map Prod.fst

/-- The value under a key of an object. -/
def member? (v : Json) (key : String) : Option Json :=
  ((Guarded.members v).find? fun m => m.1 == key).map Prod.snd

theorem member?_eq_none_iff {v : Json} {k : String} : v.member? k = none ↔ k ∉ v.keys := by
  simp only [member?, Option.map_eq_none_iff, List.find?_eq_none, keys, List.mem_map, beq_iff_eq,
    not_exists, not_and]

/-- In an object without repeated keys, the value under a key is the only one it has. -/
theorem member?_eq_some_iff {v w : Json} {k : String} (h : v.keys.Nodup) :
    v.member? k = some w ↔ (k, w) ∈ Guarded.members v := by
  rw [member?]
  rw [keys] at h
  generalize Guarded.members v = ms at h
  induction ms with
  | nil => simp
  | cons m ms ih =>
    obtain ⟨key, u⟩ := m
    rw [List.map_cons, List.nodup_cons] at h
    by_cases hk : key = k
    · subst hk
      have hnot : (key, w) ∉ ms := fun hm => h.1 (List.mem_map.mpr ⟨_, hm, rfl⟩)
      simp [hnot, eq_comm]
    · simpa [hk, Ne.symm hk] using ih h.2

variable {items : List Json}

/-! ### The keys, and the field of a key -/

theorem keys_fields_type (v : Json) : v.type.fields.map Field.key = v.keys := by
  rw [Guarded.fields_type, keys, List.map_map]
  rfl

/-- Each key that occurs has one field, where the key first occurs. -/
theorem keys_mergedFields (items : List Json) :
    (mergedFields items).map Field.key = (items.flatMap keys).eraseDups := by
  have hall : ((items.map type).flatMap GoType.fields).map Field.key = items.flatMap keys := by
    simp only [List.flatMap_map, List.map_flatMap, keys_fields_type]
  rw [mergedFields, GoType.keys_merge, hall]

theorem lookup?_fields_type (v : Json) (k : String) :
    Field.lookup? v.type.fields k = (v.member? k).map fun w => .ofKey k w.type false := by
  rw [Guarded.fields_type, Field.lookup?, member?]
  induction Guarded.members v with
  | nil => rfl
  | cons m ms ih =>
    by_cases hk : m.1 = k
    · simp [hk]
    · simpa [hk] using ih

theorem lookup?_flatMap_fields (items : List Json) (k : String) :
    Field.lookup? ((items.map type).flatMap GoType.fields) k =
      (items.findSome? (member? · k)).map fun w => .ofKey k w.type false := by
  rw [Field.lookup?, List.flatMap_map, List.find?_flatMap, List.map_findSome?]
  exact congrArg (List.findSome? · items) (funext fun v => lookup?_fields_type v k)

/-- An object has one field for each of its keys. -/
theorem countP_fields_type {v : Json} (h : v.keys.Nodup) (k : String) :
    v.type.fields.countP (fun f => f.key = k) = if k ∈ v.keys then 1 else 0 := by
  have hcount : v.type.fields.countP (fun f => f.key = k) = v.keys.count k := by
    rw [← keys_fields_type, List.count, List.countP_map]
    congr 1
  rw [hcount]
  split_ifs with hk
  · exact List.count_eq_one_of_mem h hk
  · exact List.count_eq_zero_of_not_mem hk

/-- A key has as many fields as there are objects that have the key. -/
theorem countP_flatMap_fields (hkeys : ∀ v ∈ items, v.keys.Nodup) (k : String) :
    ((items.map type).flatMap GoType.fields).countP (fun f => f.key = k) =
      items.countP fun v => k ∈ v.keys := by
  induction items with
  | nil => rfl
  | cons v items ih =>
    rw [List.map_cons, List.flatMap_cons, List.countP_append, List.countP_cons,
      countP_fields_type (hkeys v (by simp)), ih fun w hw => hkeys w (by simp [hw])]
    simp [Nat.add_comm]

/-- Some element lacks the key. -/
def lacks (items : List Json) (k : String) : Bool := items.any fun v => k ∉ v.keys

theorem lacks_iff {k : String} : lacks items k ↔ ∃ v ∈ items, k ∉ v.keys := by
  simp [lacks]

/-- The count of a key stays below that of the elements exactly if one of them lacks it. -/
theorem countP_lt_length_iff (items : List Json) (k : String) :
    (items.countP fun v => k ∈ v.keys) < items.length ↔ lacks items k := by
  rw [Nat.lt_iff_le_and_ne, and_iff_right List.countP_le_length, ne_eq, List.countP_eq_length, lacks_iff]
  simp

theorem lookup?_mergedFields (hkeys : ∀ v ∈ items, v.keys.Nodup) (k : String) :
    Field.lookup? (mergedFields items) k =
      (items.findSome? (member? · k)).map fun w => .ofKey k w.type (lacks items k) := by
  have hoptional : decide ((items.countP fun v => k ∈ v.keys) < items.length) = lacks items k := by
    rw [Bool.eq_iff_iff, decide_eq_true_eq, countP_lt_length_iff]
  rw [mergedFields, GoType.lookup?_merge, lookup?_flatMap_fields, countP_flatMap_fields hkeys,
    List.length_map, hoptional, Option.map_map]
  rfl

/-! ### What the fields are -/

/-- The first object with a key, and the value there. -/
theorem findSome?_member?_eq_some_iff (hkeys : ∀ v ∈ items, v.keys.Nodup) {k : String} {w : Json} :
    items.findSome? (member? · k) = some w ↔ ∃ before ms after,
      items = before ++ .object ms :: after ∧ (∀ u ∈ before, k ∉ u.keys) ∧ (k, w) ∈ ms := by
  simp only [List.findSome?_eq_some_iff, member?_eq_none_iff]
  constructor
  · rintro ⟨before, v, after, hitems, hv, hbefore⟩
    rw [member?_eq_some_iff (hkeys v (by simp [hitems]))] at hv
    cases v with
    | object ms => exact ⟨before, ms, after, hitems, hbefore, hv⟩
    | _ => cases hv
  · rintro ⟨before, ms, after, hitems, hbefore, hw⟩
    exact ⟨before, .object ms, after, hitems,
      (member?_eq_some_iff (hkeys _ (by simp [hitems]))).mpr hw, hbefore⟩

/-- These are the fields of the objects among the items: a field for each key that occurs, in the
order of the first occurrences, with the exported name of the key and the type of the value it has in
the first object with the key. A field is optional exactly if an item lacks its key. -/
structure IsUnion (items : List Json) (fields : List (Field GoType)) : Prop where
  keys : fields.map Field.key = (items.flatMap keys).eraseDups
  name : ∀ f ∈ fields, f.name = Identifier.format f.key
  type : ∀ f ∈ fields, ∃ before ms after w, items = before ++ .object ms :: after ∧
    (∀ u ∈ before, f.key ∉ u.keys) ∧ (f.key, w) ∈ ms ∧ f.type = w.type
  optional : ∀ f ∈ fields, f.optional ↔ ∃ v ∈ items, f.key ∉ v.keys

theorem isUnion_mergedFields (hkeys : ∀ v ∈ items, v.keys.Nodup) :
    IsUnion items (mergedFields items) := by
  have hfield : ∀ f ∈ mergedFields items, ∃ w, items.findSome? (member? · f.key) = some w ∧
      f = .ofKey f.key w.type (lacks items f.key) := by
    intro f hf
    have hself := Field.lookup?_of_mem (GoType.nodup_merge (items.map Json.type)) hf
    rw [← mergedFields, lookup?_mergedFields hkeys] at hself
    obtain ⟨w, hw, hfw⟩ := Option.map_eq_some_iff.mp hself
    exact ⟨w, hw, hfw.symm⟩
  refine ⟨keys_mergedFields items, fun f hf => ?_, fun f hf => ?_, fun f hf => ?_⟩
  · obtain ⟨w, -, hfw⟩ := hfield f hf
    exact congrArg Field.name hfw
  · obtain ⟨w, hw, hfw⟩ := hfield f hf
    obtain ⟨before, ms, after, hitems, hbefore, hmem⟩ := (findSome?_member?_eq_some_iff hkeys).mp hw
    exact ⟨before, ms, after, w, hitems, hbefore, hmem, congrArg Field.type hfw⟩
  · obtain ⟨w, -, hfw⟩ := hfield f hf
    rw [← lacks_iff, hfw]
    rfl

/-- No other fields are the union. -/
theorem IsUnion.eq (hkeys : ∀ v ∈ items, v.keys.Nodup) {fs gs : List (Field GoType)}
    (hf : IsUnion items fs) (hg : IsUnion items gs) : fs = gs := by
  have hsame : ∀ f ∈ fs, ∀ g ∈ gs, f.key = g.key → f = g := by
    intro f hfs g hgs hkey
    have hname : f.name = g.name := by rw [hf.name f hfs, hg.name g hgs, hkey]
    have htype : f.type = g.type := by
      obtain ⟨before, ms, after, w, hitems, hbefore, hw, hfw⟩ := hf.type f hfs
      obtain ⟨before', ms', after', w', hitems', hbefore', hw', hgw⟩ := hg.type g hgs
      have hfirst := (findSome?_member?_eq_some_iff hkeys).mpr ⟨before, ms, after, hitems, hbefore, hw⟩
      have hfirst' :=
        (findSome?_member?_eq_some_iff hkeys).mpr ⟨before', ms', after', hitems', hbefore', hw'⟩
      rw [hkey, hfirst', Option.some.injEq] at hfirst
      rw [hfw, hgw, hfirst]
    have hoptional : f.optional = g.optional := by
      rw [Bool.eq_iff_iff, hf.optional f hfs, hg.optional g hgs, hkey]
    exact Field.ext hname hkey htype hoptional
  have hkeyed : fs.map Field.key = gs.map Field.key := hf.keys.trans hg.keys.symm
  clear hf hg
  induction fs generalizing gs with
  | nil => exact (List.map_eq_nil_iff.mp hkeyed.symm).symm
  | cons f fs ih =>
    obtain ⟨g, gs, rfl, hk, hks⟩ := List.map_eq_cons_iff.mp hkeyed.symm
    rw [hsame f (by simp) g (by simp) hk.symm,
      ih (fun f hf g hg => hsame f (by simp [hf]) g (by simp [hg])) hks.symm]

/-- The merged fields are what the slots and the table make of the items, and they are the union. -/
theorem mergedFields_eq_iff_isUnion (hkeys : ∀ v ∈ items, v.keys.Nodup) (fields : List (Field GoType)) :
    (mergedFields items = fields ↔ IsUnion items fields) ∧
      (Guarded.mergedFields items = .ok fields ↔ IsUnion items fields) := by
  have hiff : mergedFields items = fields ↔ IsUnion items fields := by
    constructor
    · rintro rfl
      exact isUnion_mergedFields hkeys
    · exact fun h => (isUnion_mergedFields hkeys).eq hkeys h
  refine ⟨hiff, ?_⟩
  rw [Guarded.mergedFields_eq, Except.ok.injEq, hiff]

/-- The key `c` is found behind an element that is no object, and has another type further on. -/
theorem mergedFields_eq_iff_isUnion_sample :
    IsUnion [.object [("a", .null), ("b", .bool true)], .null, .object [("c", .bool true), ("a", .bool true)],
        .object [("a", .null), ("c", .string "x")]]
      [.ofKey "a" (.scalar .any) true, .ofKey "b" (.scalar .bool) true, .ofKey "c" (.scalar .bool) true] :=
  ((mergedFields_eq_iff_isUnion (by decide) _).1).mp rfl

/-! ### Lists one behind the other -/

variable {xs ys : List Json}

theorem lookup?_mergedFields_self {f : Field GoType} (hf : f ∈ mergedFields items) :
    Field.lookup? (mergedFields items) f.key = some f :=
  Field.lookup?_of_mem (GoType.nodup_merge (items.map type)) hf

/-- Whether a field is optional tells whether an element lacks its key. -/
theorem optional_of_lookup? (hkeys : ∀ v ∈ items, v.keys.Nodup) {k : String} {f : Field GoType}
    (hf : Field.lookup? (mergedFields items) k = some f) : f.optional = lacks items k := by
  rw [lookup?_mergedFields hkeys] at hf
  obtain ⟨w, -, rfl⟩ := Option.map_eq_some_iff.mp hf
  rfl

/-- A list that has elements lacks the keys that it has no field for. -/
theorem lacks_of_lookup?_eq_none (hkeys : ∀ v ∈ items, v.keys.Nodup) (h : items ≠ []) {k : String}
    (hk : Field.lookup? (mergedFields items) k = none) : lacks items k := by
  rw [lookup?_mergedFields hkeys, Option.map_eq_none_iff, List.findSome?_eq_none_iff] at hk
  obtain ⟨v, hv⟩ := List.exists_mem_of_ne_nil items h
  exact lacks_iff.mpr ⟨v, hv, member?_eq_none_iff.mp (hk v hv)⟩

/-- The field of a key in the longer list is the first part's, if that has one. -/
theorem lookup?_mergedFields_append (hkeys : ∀ v ∈ xs ++ ys, v.keys.Nodup) (k : String) :
    Field.lookup? (mergedFields (xs ++ ys)) k =
      ((Field.lookup? (mergedFields xs) k).or (Field.lookup? (mergedFields ys) k)).map fun f =>
        { f with optional := lacks xs k || lacks ys k } := by
  have hxs : ∀ v ∈ xs, v.keys.Nodup := fun v hv => hkeys v (by simp [hv])
  have hys : ∀ v ∈ ys, v.keys.Nodup := fun v hv => hkeys v (by simp [hv])
  have hlacks : lacks (xs ++ ys) k = (lacks xs k || lacks ys k) := by simp [lacks]
  rw [lookup?_mergedFields hkeys, lookup?_mergedFields hxs, lookup?_mergedFields hys,
    List.findSome?_append, hlacks]
  cases xs.findSome? (member? · k) <;> cases ys.findSome? (member? · k) <;> rfl

/-- The keys of the first part, and behind them the new ones of the second. -/
theorem keys_mergedFields_append (xs ys : List Json) :
    (mergedFields (xs ++ ys)).map Field.key = (mergedFields xs).map Field.key ++
      ((mergedFields ys).filter fun g => g.key ∉ (mergedFields xs).map Field.key).map Field.key := by
  have hfilter :
      ((mergedFields ys).filter fun g => g.key ∉ (mergedFields xs).map Field.key).map Field.key =
        ((mergedFields ys).map Field.key).filter fun k => k ∉ (mergedFields xs).map Field.key := by
    rw [List.filter_map]
    rfl
  have hremove : (ys.flatMap keys).removeAll (xs.flatMap keys) =
      (ys.flatMap keys).filter fun k => k ∉ (mergedFields xs).map Field.key := by
    refine List.filter_congr fun k _ => ?_
    rw [keys_mergedFields, Bool.eq_iff_iff]
    simp
  rw [hfilter, keys_mergedFields (xs ++ ys), List.flatMap_append, List.eraseDups_append, hremove,
    filter_eraseDups, ← keys_mergedFields, ← keys_mergedFields]

/-- The fields of a longer list, where the elements of the second part tell which fields of the first
are optional. -/
theorem mergedFields_append_eq (hkeys : ∀ v ∈ xs ++ ys, v.keys.Nodup) (hxs : xs ≠ []) :
    mergedFields (xs ++ ys) =
      ((mergedFields xs).map fun f => { f with optional := f.optional || lacks ys f.key }) ++
      ((mergedFields ys).filter fun g => g.key ∉ (mergedFields xs).map Field.key).map fun g =>
        { g with optional := true } := by
  have hx : ∀ v ∈ xs, v.keys.Nodup := fun v hv => hkeys v (by simp [hv])
  have hself := Field.filterMap_lookup? (GoType.nodup_merge ((xs ++ ys).map type))
  rw [← mergedFields, keys_mergedFields_append, List.filterMap_append] at hself
  have hleft : ∀ f ∈ mergedFields xs, Field.lookup? (mergedFields (xs ++ ys)) f.key =
      some { f with optional := f.optional || lacks ys f.key } := by
    intro f hf
    have hfield := lookup?_mergedFields_self hf
    rw [lookup?_mergedFields_append hkeys, hfield, optional_of_lookup? hx hfield]
    rfl
  have hright : ∀ g ∈ (mergedFields ys).filter fun g => g.key ∉ (mergedFields xs).map Field.key,
      Field.lookup? (mergedFields (xs ++ ys)) g.key = some { g with optional := true } := by
    intro g hg
    rw [List.mem_filter, decide_eq_true_eq] at hg
    have hnone := Field.lookup?_eq_none_iff.mpr hg.2
    rw [lookup?_mergedFields_append hkeys, hnone, lookup?_mergedFields_self hg.1,
      lacks_of_lookup?_eq_none hx hxs hnone]
    rfl
  rw [← hself, Field.filterMap_keys hleft, Field.filterMap_keys hright]

/-- The fields of two lists one behind the other are the fields of the first, optional if they are so
in either part or missing in the second, and behind them the other fields of the second, all of them
optional. So what is added moves no field, gives none another name or type, and leaves it optional if
it was, and a field that is new is optional. -/
theorem mergedFields_append (hkeys : ∀ v ∈ xs ++ ys, v.keys.Nodup) (hxs : xs ≠ []) (hys : ys ≠ []) :
    (mergedFields (xs ++ ys) =
      ((mergedFields xs).map fun f => { f with
        optional := match Field.lookup? (mergedFields ys) f.key with
          | some g => f.optional || g.optional
          | none => true }) ++
      ((mergedFields ys).filter fun g => g.key ∉ (mergedFields xs).map Field.key).map fun g =>
        { g with optional := true }) ∧
    (∀ (i : Nat) (f : Field GoType), (mergedFields xs)[i]? = some f →
      ∃ g, (mergedFields (xs ++ ys))[i]? = some g ∧ g.name = f.name ∧ g.key = f.key ∧ g.type = f.type ∧
        (f.optional → g.optional)) ∧
    ∀ g ∈ mergedFields (xs ++ ys), g.key ∉ (mergedFields xs).map Field.key → g.optional := by
  have hy : ∀ v ∈ ys, v.keys.Nodup := fun v hv => hkeys v (by simp [hv])
  have hoptional : ∀ f : Field GoType, (f.optional || lacks ys f.key) =
      match Field.lookup? (mergedFields ys) f.key with
      | some g => f.optional || g.optional
      | none => true := by
    intro f
    cases hf : Field.lookup? (mergedFields ys) f.key with
    | none => rw [lacks_of_lookup?_eq_none hy hys hf, Bool.or_true]
    | some g => simp only [optional_of_lookup? hy hf]
  have happend := mergedFields_append_eq hkeys hxs
  refine ⟨?_, fun i f hf => ?_, fun g hg hnot => ?_⟩
  · simp only [happend, hoptional]
  · have hi : i < (mergedFields xs).length := (List.getElem?_eq_some_iff.mp hf).1
    refine ⟨{ f with optional := f.optional || lacks ys f.key }, ?_, rfl, rfl, rfl, fun ho => ?_⟩
    · rw [happend, List.getElem?_append_left (by rwa [List.length_map]), List.getElem?_map, hf]
      rfl
    · simp only [ho, Bool.true_or]
  · rw [happend, List.mem_append] at hg
    rcases hg with hg | hg
    · obtain ⟨f, hf, rfl⟩ := List.mem_map.mp hg
      exact absurd (List.mem_map_of_mem hf) hnot
    · obtain ⟨f, -, rfl⟩ := List.mem_map.mp hg
      rfl

/-- The key `a` is in all of the elements, `b` only in the first part, and `c` only in the second. -/
theorem mergedFields_append_sample :
    mergedFields ([.object [("a", .null), ("b", .bool true)]] ++
        [.object [("c", .null), ("a", .bool true)]]) =
      [.ofKey "a" (.scalar .any) false, .ofKey "b" (.scalar .bool) true, .ofKey "c" (.scalar .any) true] :=
  (mergedFields_append (by decide) (by simp) (by simp)).1

end Json
end GoShape
