import GoShape.Proofs.Keys
import GoShape.Proofs.Parts
import GoShape.Proofs.Tally
import GoShape.Proofs.Unify

/-! A sample in a list of its own. The list has one element, so its type is a list of the type of that
element: a struct that is merged alone comes out as it went in. On the way there the text is marked
in the same places, and its value is read inside one more bracket. -/
namespace GoShape

/-! ### Merging one struct -/

namespace Tally

variable {τ : Type}

/-- Distinct keys are met once each. -/
theorem ofFields_of_nodup {fields : List (Field τ)} (h : (fields.map Field.key).Nodup) :
    ofFields fields = fields.map fun f => ⟨f.key, f.type, 1⟩ := by
  induction fields using List.reverseRecOn with
  | nil => rfl
  | append_singleton fields f ih =>
    rw [List.map_append, List.nodup_append] at h
    obtain ⟨hfields, -, hdisjoint⟩ := h
    have hf : f.key ∉ (fields.map fun f => (⟨f.key, f.type, 1⟩ : Tally τ)).map Tally.key := by
      rw [List.map_map]
      exact fun hmem => hdisjoint _ hmem _ (by simp) rfl
    rw [ofFields_append_singleton, ih hfields, meet_of_not_mem f.type hf]
    simp

end Tally

namespace Json

/-- The fields of a single object are merged into themselves. -/
theorem merge_singleton {ms : List (String × Json)} (h : (ms.map Prod.fst).Nodup) :
    GoType.merge [.struct (memberFields ms)] = memberFields ms := by
  have hkeys : ((memberFields ms).map Field.key).Nodup := by
    rw [memberFields_eq_map, List.map_map]
    exact h
  rw [GoType.merge, List.flatMap_singleton, GoType.fields, Tally.ofFields_of_nodup hkeys,
    memberFields_eq_map, List.map_map, List.map_map]
  rfl

/-- A list of one element has that element's type for its element type. -/
theorem elementType_singleton {v : Json} (h : v.DistinctKeys) : elementType [v] = v.type := by
  rw [elementType_eq]
  cases v with
  | object ms =>
    have hmerge := merge_singleton (distinctKeys_object.mp h).1
    simp only [mergedFields, List.map_cons, List.map_nil, type, hmerge]
    rfl
  | _ => rfl

namespace Syntax

/-! ### Reading inside one more bracket -/

namespace Tree

/-- More room for brackets changes no value. -/
def Steady (t : Tree) : Prop :=
  ∀ depth v, t.value? depth = some v → ∀ more, t.value? (depth + more) = some v

theorem steady_items {items : List (Spaced Tree)} (h : ∀ x ∈ items, x.inside.Steady) {depth : Nat}
    {vs : List Json} (hvs : itemValues? depth items = some vs) (more : Nat) :
    itemValues? (depth + more) items = some vs := by
  induction items generalizing vs with
  | nil => exact hvs
  | cons x items ih =>
    obtain ⟨before, t, after⟩ := x
    simp only [itemValues?, Option.bind_eq_some_iff, Option.map_eq_some_iff] at hvs ⊢
    obtain ⟨v, hv, rest, hrest, rfl⟩ := hvs
    have ht := h ⟨before, t, after⟩ (by simp) depth v hv more
    exact ⟨v, ht, rest, ih (fun x hx => h x (by simp [hx])) hrest, rfl⟩

theorem steady_members {members : List (Spaced (List Piece) × Spaced Tree)}
    (h : ∀ m ∈ members, m.2.inside.Steady) {depth : Nat} {ms : List (String × Json)}
    (hms : memberValues? depth members = some ms) (more : Nat) :
    memberValues? (depth + more) members = some ms := by
  induction members generalizing ms with
  | nil => exact hms
  | cons m members ih =>
    obtain ⟨key, before, t, after⟩ := m
    simp only [memberValues?, Option.bind_eq_some_iff, Option.map_eq_some_iff] at hms ⊢
    obtain ⟨k, hk, v, hv, rest, hrest, rfl⟩ := hms
    have ht := h (key, ⟨before, t, after⟩) (by simp) depth v hv more
    exact ⟨k, hk, v, ht, rest, ih (fun m hm => h m (by simp [hm])) hrest, rfl⟩

theorem steady (t : Tree) : t.Steady := by
  induction t using Tree.induction with
  | array b items ih =>
    intro depth v hv more
    cases depth with
    | zero => simp [value?] at hv
    | succ depth =>
      rw [Nat.add_right_comm]
      simp only [value?, Option.map_eq_some_iff] at hv ⊢
      obtain ⟨vs, hvs, rfl⟩ := hv
      exact ⟨vs, steady_items ih hvs more, rfl⟩
  | object b members ih =>
    intro depth v hv more
    cases depth with
    | zero => simp [value?] at hv
    | succ depth =>
      rw [Nat.add_right_comm]
      simp only [value?] at hv ⊢
      split_ifs at hv ⊢
      · exact hv
      · simp only [Option.map_eq_some_iff] at hv ⊢
        obtain ⟨ms, hms, rfl⟩ := hv
        exact ⟨ms, steady_members ih hms more, rfl⟩
  | _ =>
    intro depth v hv more
    simpa only [value?] using hv

theorem itemsNesting_markItems {items : List (Spaced Tree)}
    (h : ∀ x ∈ items, x.inside.mark.nesting = x.inside.nesting) :
    itemsNesting (markItems items) = itemsNesting items := by
  induction items with
  | nil => simp only [markItems]
  | cons x items ih =>
    obtain ⟨before, t, after⟩ := x
    have ht := h ⟨before, t, after⟩ (by simp)
    simp only [markItems, itemsNesting, ht, ih fun x hx => h x (by simp [hx])]

theorem membersNesting_markMembers {members : List (Spaced (List Piece) × Spaced Tree)}
    (h : ∀ m ∈ members, m.2.inside.mark.nesting = m.2.inside.nesting) :
    membersNesting (markMembers members) = membersNesting members := by
  induction members with
  | nil => simp only [markMembers]
  | cons m members ih =>
    obtain ⟨key, before, t, after⟩ := m
    have ht := h (key, ⟨before, t, after⟩) (by simp)
    simp only [markMembers, membersNesting, ht, ih fun m hm => h m (by simp [hm])]

/-- Marking changes no bracket. -/
theorem nesting_mark (t : Tree) : t.mark.nesting = t.nesting := by
  induction t using Tree.induction with
  | array b items ih => simp only [mark, nesting, itemsNesting_markItems ih]
  | object b members ih => simp only [mark, nesting, membersNesting_markMembers ih]
  | _ => simp only [mark, nesting]

/-- A value whose brackets leave room for one more is read with that room gone as well. -/
theorem value?_of_nesting_le {t : Tree} {depth : Nat} {v : Json}
    (h : t.value? (depth + 1) = some v) (hnesting : t.nesting ≤ depth) :
    t.value? depth = some v := by
  have hsome : (t.value? (depth + 1)).isSome := by rw [h]; rfl
  have hlegible := ((t.hasValue (depth + 1)).mp hsome).2
  obtain ⟨w, hw⟩ := Option.isSome_iff_exists.mp ((t.hasValue depth).mpr ⟨hnesting, hlegible⟩)
  have hsame := t.steady depth w hw 1
  rw [h, Option.some_inj] at hsame
  rw [hw, hsame]

end Tree

/-- A text in brackets. -/
def bracketed (d : Spaced Tree) : Spaced Tree := ⟨.none, .array .none [d], .none⟩

theorem ofList_documentChars_bracketed (d : Spaced Tree) :
    String.ofList (documentChars (bracketed d)) =
      "[" ++ String.ofList (documentChars d) ++ "]" := by
  rw [← String.toList_inj]
  obtain ⟨before, t, after⟩ := d
  simp [bracketed, documentChars, Blanks.none, Tree.chars, Tree.itemsChars]

theorem value?_bracketed {d : Spaced Tree} {v : Json} {depth : Nat}
    (h : d.inside.mark.value? depth = some v) :
    (bracketed d).inside.mark.value? (depth + 1) = some (.array [v]) := by
  obtain ⟨before, t, after⟩ := d
  simp only [bracketed, Tree.mark, Tree.markItems, Tree.value?, Tree.itemValues?] at h ⊢
  simp [h]

/-- The value of a sample has no key twice. -/
theorem distinctKeys_of_value? {d : Spaced Tree} {v : Json}
    (h : d.inside.value? Document.maxDepth = some v) : v.DistinctKeys := by
  rw [← toOption_parse] at h
  cases hp : parse (String.ofList (documentChars d)) with
  | error e => rw [hp] at h; cases h
  | ok w =>
    rw [hp] at h
    obtain rfl := Option.some.inj h
    exact distinctKeys_of_parse hp

/-- A sample whose brackets leave room for one more has the type of a list in brackets. -/
theorem sampleType_bracketed {d : Spaced Tree} (hnesting : d.inside.nesting ≤ 126) {t : GoType}
    (h : sampleType (String.ofList (documentChars d)) = .ok t) :
    sampleType ("[" ++ String.ofList (documentChars d) ++ "]") = .ok (.slice t) := by
  have hvalue := toOption_sampleType d
  rw [h] at hvalue
  obtain ⟨v, hv, hvt⟩ := Option.map_eq_some_iff.mp hvalue.symm
  have hkeys : v.DistinctKeys :=
    distinctKeys_of_value? (d := { d with inside := d.inside.mark }) hv
  have hroom : d.inside.mark.nesting ≤ 126 := by rwa [Tree.nesting_mark]
  have hwrapped := sampleType_of_value? (value?_bracketed (Tree.value?_of_nesting_le hv hroom))
  rw [ofList_documentChars_bracketed, type_array, elementType_singleton hkeys, hvt] at hwrapped
  exact hwrapped

end Syntax
end Json

/-- The declaration behind a name. -/
theorem declaration_eq_iff {name body : String} {t : GoType} :
    declaration name t = "type " ++ name ++ " " ++ body ↔ t.text 0 = body := by
  simp [declaration, String.append_right_inj]

theorem exists_sampleType_of_go_ne {text : String} {o : Options} (h : (convert text o).go ≠ "") :
    ∃ t, sampleType text = .ok t ∧ (convert text o).go = declaration o.rootName t := by
  unfold convert declare attempt at h ⊢
  cases he : exceeded? text o with
  | some limit => simp [he, Conversion.ofResult] at h
  | none =>
    cases hs : sampleType text with
    | error e => simp [he, hs, Conversion.ofResult] at h
    | ok t => exact ⟨t, rfl, rfl⟩

open Json.Syntax in
/-- A sample in brackets of its own has a declaration if the sample has one and its own brackets leave
room for these: the declaration of the sample, with the mark of a list in front of the type. -/
theorem convert_bracketed (d : Spaced Tree) (typeName : Option String) (body : String)
    (hnesting : d.inside.nesting ≤ 126)
    (h : (convert (String.ofList (documentChars d)) ⟨typeName, none⟩).go =
      "type " ++ Options.rootName ⟨typeName, none⟩ ++ " " ++ body) :
    convert ("[" ++ String.ofList (documentChars d) ++ "]") ⟨typeName, none⟩ =
      ⟨"type " ++ Options.rootName ⟨typeName, none⟩ ++ " []" ++ body, none⟩ := by
  have hne : (convert (String.ofList (documentChars d)) ⟨typeName, none⟩).go ≠ "" := by
    simp [h]
  obtain ⟨t, ht, hgo⟩ := exists_sampleType_of_go_ne hne
  have hbody : t.text 0 = body := declaration_eq_iff.mp (hgo.symm.trans h)
  have hdeclare := declare_of_sampleType (sampleType_bracketed hnesting ht) typeName
  have hmark : " []" ++ body = " " ++ ("[]" ++ body) := by
    rw [← String.append_assoc]
    rfl
  rw [convert, hdeclare, Conversion.ofResult, declaration, GoType.text, hbody]
  simp only [String.append_assoc, hmark]

open Json.Syntax in
/-- An object with a list in it. -/
theorem convert_bracketed_sample :
    ∃ d : Spaced Tree, d.inside.nesting ≤ 126 ∧
      String.ofList (documentChars d) = "\x7b\"a\":[1.0]\x7d" ∧
      convert "[\x7b\"a\":[1.0]\x7d]" ⟨some "doc", none⟩ =
        ⟨"type Doc []struct \x7b\n\tA []float64 `json:\"a\"`\n\x7d", none⟩ := by
  let d : Spaced Tree := ⟨.none, .object .none [(⟨.none, [.plain 'a' (by decide)], .none⟩,
    ⟨.none, .array .none [⟨.none, .number ⟨false, 1, [], [0], none, by decide⟩, .none⟩], .none⟩)],
    .none⟩
  have hnesting : d.inside.nesting ≤ 126 := by decide +kernel
  have htext : String.ofList (documentChars d) = "\x7b\"a\":[1.0]\x7d" := by decide +kernel
  have hgo : (convert (String.ofList (documentChars d)) ⟨some "doc", none⟩).go =
      "type " ++ Options.rootName ⟨some "doc", none⟩ ++ " " ++
        "struct \x7b\n\tA []float64 `json:\"a\"`\n\x7d" := by decide +kernel
  have h := convert_bracketed d (some "doc") _ hnesting hgo
  rw [htext] at h
  exact ⟨d, hnesting, htext, h.trans (by decide +kernel)⟩

end GoShape
