import GoShape.Proofs.Marking

/-! The keys of a sample. Members are set one after the other, so a key is lost exactly if it was met
before, and the keys that count are the marked ones. A text that the grammar derives is refused for
three reasons only, none of which has to do with its keys being different. -/
namespace GoShape.Json

namespace Syntax

/-! ### Trees that have a value -/

namespace Tree

mutual

/-- How deep the brackets are nested. -/
def nesting : Tree → Nat
  | .array _ items => itemsNesting items + 1
  | .object _ members => membersNesting members + 1
  | _ => 0

def itemsNesting : List (Spaced Tree) → Nat
  | [] => 0
  | ⟨_, t, _⟩ :: items => max (nesting t) (itemsNesting items)

def membersNesting : List (Spaced (List Piece) × Spaced Tree) → Nat
  | [] => 0
  | (_, ⟨_, t, _⟩) :: members => max (nesting t) (membersNesting members)

end

mutual

/-- Every string has characters to stand for, and the objects that promise a number hold one. -/
def Legible : Tree → Prop
  | .string ps => (text? ps).isSome
  | .array _ items => ItemsLegible items
  | .object _ members =>
    if firstKey? members = some Document.numeralKey then (heldNumber? members).isSome = true
    else MembersLegible members
  | _ => True

def ItemsLegible : List (Spaced Tree) → Prop
  | [] => True
  | ⟨_, t, _⟩ :: items => Legible t ∧ ItemsLegible items

def MembersLegible : List (Spaced (List Piece) × Spaced Tree) → Prop
  | [] => True
  | (key, ⟨_, t, _⟩) :: members =>
    (text? key.inside).isSome ∧ Legible t ∧ MembersLegible members

end

/-- A tree has a value at a depth. -/
def HasValue (t : Tree) : Prop :=
  ∀ depth, (t.value? depth).isSome ↔ t.nesting ≤ depth ∧ t.Legible

theorem isSome_itemValues? {items : List (Spaced Tree)} (h : ∀ x ∈ items, x.inside.HasValue)
    (depth : Nat) :
    (itemValues? depth items).isSome ↔ itemsNesting items ≤ depth ∧ ItemsLegible items := by
  induction items with
  | nil => simp [itemValues?, itemsNesting, ItemsLegible]
  | cons x items ih =>
    obtain ⟨before, t, after⟩ := x
    have ht := h ⟨before, t, after⟩ (by simp) depth
    have hitems := ih fun x hx => h x (by simp [hx])
    simp only [itemsNesting, ItemsLegible, Nat.max_le]
    rw [and_and_and_comm, ← ht, ← hitems, itemValues?]
    cases t.value? depth <;> simp

theorem isSome_memberValues? {members : List (Spaced (List Piece) × Spaced Tree)}
    (h : ∀ m ∈ members, m.2.inside.HasValue) (depth : Nat) :
    (memberValues? depth members).isSome ↔
      membersNesting members ≤ depth ∧ MembersLegible members := by
  induction members with
  | nil => simp [memberValues?, membersNesting, MembersLegible]
  | cons m members ih =>
    obtain ⟨key, before, t, after⟩ := m
    have ht := h (key, ⟨before, t, after⟩) (by simp) depth
    have hmembers := ih fun m hm => h m (by simp [hm])
    have hparts : membersNesting ((key, ⟨before, t, after⟩) :: members) ≤ depth ∧
        MembersLegible ((key, ⟨before, t, after⟩) :: members) ↔ (text? key.inside).isSome ∧
          (t.nesting ≤ depth ∧ t.Legible) ∧ membersNesting members ≤ depth ∧
            MembersLegible members := by
      simp only [membersNesting, MembersLegible, Nat.max_le]
      constructor
      · rintro ⟨⟨hnest, hnests⟩, hkey, hlegible, hmembers⟩
        exact ⟨hkey, ⟨hnest, hlegible⟩, hnests, hmembers⟩
      · rintro ⟨hkey, ⟨hnest, hlegible⟩, hnests, hmembers⟩
        exact ⟨⟨hnest, hnests⟩, hkey, hlegible, hmembers⟩
    rw [hparts, ← ht, ← hmembers, memberValues?]
    cases text? key.inside <;> cases t.value? depth <;> simp

/-- An object that holds a number holds nothing else. -/
theorem membersNesting_of_heldNumber? {members : List (Spaced (List Piece) × Spaced Tree)}
    (h : (heldNumber? members).isSome) : membersNesting members = 0 := by
  unfold heldNumber? at h
  split at h
  · rename_i t _
    cases t <;> simp_all [Tree.quotedNumber?, membersNesting, nesting]
  · cases h

/-- A tree has a value exactly if it is not nested too deep and all of it can be read. -/
theorem hasValue (t : Tree) : t.HasValue := by
  induction t using Tree.induction with
  | null => simp [HasValue, value?, nesting, Legible]
  | bool b => simp [HasValue, value?, nesting, Legible]
  | number l => simp [HasValue, value?, nesting, Legible]
  | string ps => simp [HasValue, value?, nesting, Legible]
  | array b items ih =>
    intro depth
    cases depth with
    | zero => simp [value?, nesting]
    | succ depth => simp [value?, nesting, Legible, isSome_itemValues? ih]
  | object b members ih =>
    intro depth
    cases depth with
    | zero => simp [value?, nesting]
    | succ depth =>
      simp only [value?, nesting, Legible, Nat.add_le_add_iff_right]
      split_ifs with hspecial
      · rw [Option.isSome_map]
        constructor
        · intro h
          exact ⟨by rw [membersNesting_of_heldNumber? h]; omega, h⟩
        · exact fun h => h.2
      · rw [Option.isSome_map, isSome_memberValues? ih]

end Tree
end Syntax

/-! ### Members -/

theorem setMember_of_not_mem {key : String} {ms : List (String × Json)} (v : Json)
    (h : key ∉ ms.map Prod.fst) : setMember key v ms = ms ++ [(key, v)] := by
  induction ms with
  | nil => rfl
  | cons m ms ih =>
    rw [List.map_cons, List.mem_cons, not_or] at h
    simp [setMember, Ne.symm h.1, ih h.2]

theorem length_setMember (key : String) (v : Json) (ms : List (String × Json)) :
    (setMember key v ms).length = if key ∈ ms.map Prod.fst then ms.length else ms.length + 1 := by
  have h := congrArg List.length (keys_setMember key v ms)
  rw [List.length_map] at h
  rw [h]
  split_ifs <;> simp

namespace Syntax

theorem length_setMembers_le (ms new : List (String × Json)) :
    (setMembers ms new).length ≤ ms.length + new.length := by
  induction new generalizing ms with
  | nil => simp [setMembers]
  | cons m new ih =>
    have hlength := length_setMember m.1 m.2 ms
    have hrest := ih (setMember m.1 m.2 ms)
    simp only [setMembers, List.foldl_cons, List.length_cons] at hrest ⊢
    split_ifs at hlength <;> omega

/-- Distinct keys stay, each with its value, in their order. -/
theorem setMembers_of_nodup {ms new : List (String × Json)}
    (h : ((ms ++ new).map Prod.fst).Nodup) : setMembers ms new = ms ++ new := by
  induction new generalizing ms with
  | nil => simp [setMembers]
  | cons m new ih =>
    have hm : m.1 ∉ ms.map Prod.fst := by
      rw [List.map_append, List.nodup_append] at h
      exact fun hmem => h.2.2 _ hmem _ (by simp) rfl
    have happend : ((ms ++ [m]) ++ new).map Prod.fst = (ms ++ m :: new).map Prod.fst := by simp
    rw [← happend] at h
    rw [setMembers, List.foldl_cons, setMember_of_not_mem m.2 hm, ← setMembers, ih h]
    simp

/-- If no member is lost, the keys are distinct. -/
theorem nodup_of_length_setMembers {ms new : List (String × Json)} (hms : (ms.map Prod.fst).Nodup)
    (h : (setMembers ms new).length = ms.length + new.length) :
    ((ms ++ new).map Prod.fst).Nodup := by
  induction new generalizing ms with
  | nil => simpa using hms
  | cons m new ih =>
    have hle := length_setMembers_le (setMember m.1 m.2 ms) new
    have hlength := length_setMember m.1 m.2 ms
    have hset : setMembers ms (m :: new) = setMembers (setMember m.1 m.2 ms) new := rfl
    rw [hset, List.length_cons] at h
    split_ifs at hlength with hm
    · omega
    · have hrest := ih (nodup_setMember m.1 m.2 ms hms) (by omega)
      rw [setMember_of_not_mem m.2 hm] at hrest
      simpa using hrest

/-- The keys of an object; a key that stands for no characters is none. -/
def keys? (members : List (Spaced (List Piece) × Spaced Tree)) : List (Option String) :=
  members.map fun m => text? m.1.inside

theorem keys?_of_memberValues? {depth : Nat} {members : List (Spaced (List Piece) × Spaced Tree)}
    {ms : List (String × Json)} (h : Tree.memberValues? depth members = some ms) :
    keys? members = (ms.map Prod.fst).map some := by
  induction members generalizing ms with
  | nil =>
    simp only [Tree.memberValues?, Option.some_inj] at h
    subst h
    rfl
  | cons m members ih =>
    obtain ⟨key, before, t, after⟩ := m
    simp only [Tree.memberValues?, Option.bind_eq_some_iff, Option.map_eq_some_iff] at h
    obtain ⟨k, hk, v, -, rest, hrest, rfl⟩ := h
    simp only [keys?, List.map_cons, hk]
    exact congrArg _ (ih hrest)

/-- A string in which no zero is written right behind a point is not marked, if it does not begin
with such a zero itself. -/
theorem markPieces_of_not_infix {behind : Bool} {ps : List Piece}
    (hbehind : behind = true → (piecesChars ps).head? ≠ some '0')
    (h : ¬ ['.', '0'] <:+: piecesChars ps) : markPieces behind ps = ps := by
  induction ps generalizing behind with
  | nil => rfl
  | cons p ps ih =>
    rw [piecesChars_cons] at hbehind h
    have htail : ¬ ['.', '0'] <:+: piecesChars ps := fun hmark =>
      h (hmark.trans (List.suffix_append p.chars _).isInfix)
    have hfresh : false = true → (piecesChars ps).head? ≠ some '0' := fun h => absurd h (by decide)
    cases p with
    | plain c hc =>
      have hzero : ¬ (behind = true ∧ c = '0') := fun hboth =>
        hbehind hboth.1 (congrArg some hboth.2)
      have hnext : decide (c = '.') = true → (piecesChars ps).head? ≠ some '0' := by
        intro hpoint hhead
        obtain ⟨rest, hrest⟩ := List.head?_eq_some_iff.mp hhead
        refine h ⟨[], rest, ?_⟩
        simp [Piece.chars, of_decide_eq_true hpoint, hrest]
      rw [markPieces, if_neg hzero, ih hnext htail]
    | escape c m hm =>
      rw [markPieces, ih hfresh htail]
      simp
    | code a b c d =>
      rw [markPieces, ih hfresh htail]
      simp

/-- Keys in which no zero is written right behind a point are not marked. -/
theorem keys?_markMembers {members : List (Spaced (List Piece) × Spaced Tree)}
    (h : ∀ m ∈ members, ¬ ['.', '0'] <:+: piecesChars m.1.inside) :
    keys? (Tree.markMembers members) = keys? members := by
  induction members with
  | nil => simp [Tree.markMembers, keys?]
  | cons m members ih =>
    obtain ⟨key, before, t, after⟩ := m
    have hkey : markPieces false key.inside = key.inside :=
      markPieces_of_not_infix (fun h => absurd h (by decide))
        (h (key, ⟨before, t, after⟩) (by simp))
    simp only [Tree.markMembers, keys?, List.map_cons, markKey, hkey]
    exact congrArg _ (ih fun m hm => h m (by simp [hm]))

theorem length_markMembers (members : List (Spaced (List Piece) × Spaced Tree)) :
    (Tree.markMembers members).length = members.length := by
  induction members with
  | nil => simp [Tree.markMembers]
  | cons m members ih =>
    obtain ⟨key, before, t, after⟩ := m
    simp [Tree.markMembers, ih]

/-- The value of an object that begins with a key like any other. -/
theorem value?_object (b : Blanks) {members : List (Spaced (List Piece) × Spaced Tree)}
    (h : firstKey? members ≠ some Document.numeralKey) :
    (Tree.object b members).value? Document.maxDepth =
      (Tree.memberValues? 126 members).map fun ms => .object (setMembers [] ms) := by
  simp only [Document.maxDepth, Tree.value?, if_neg h]

/-- A struct comes from an object that begins with a key like any other. -/
theorem memberValues?_of_struct {before b after : Blanks}
    {members : List (Spaced (List Piece) × Spaced Tree)} {fields : List (Field GoType)}
    (h : sampleType (String.ofList (documentChars ⟨before, .object b members, after⟩)) =
      .ok (.struct fields)) :
    firstKey? (Tree.markMembers members) ≠ some Document.numeralKey ∧
      ∃ ms, Tree.memberValues? 126 (Tree.markMembers members) = some ms ∧
        fields = memberFields (setMembers [] ms) := by
  have hs := toOption_sampleType ⟨before, .object b members, after⟩
  rw [h] at hs
  simp only [Tree.mark] at hs
  by_cases hspecial : firstKey? (Tree.markMembers members) = some Document.numeralKey
  · simp only [Document.maxDepth, Tree.value?, hspecial, if_true, Option.map_map] at hs
    obtain ⟨n, -, hn⟩ := Option.map_eq_some_iff.mp hs.symm
    simp [type] at hn
  · rw [value?_object b hspecial, Option.map_map] at hs
    obtain ⟨ms, hms, hfields⟩ := Option.map_eq_some_iff.mp hs.symm
    simp only [Function.comp_apply, type, GoType.struct.injEq] at hfields
    exact ⟨hspecial, ms, hms, hfields.symm⟩

variable {before b after : Blanks} {members : List (Spaced (List Piece) × Spaced Tree)}

/-- If no member is lost, the keys are distinct and the text can be read. -/
theorem nodup_keys?_of_struct {fields : List (Field GoType)}
    (h : sampleType (String.ofList (documentChars ⟨before, .object b members, after⟩)) =
      .ok (.struct fields)) (hlength : fields.length = members.length) :
    (Tree.object b (Tree.markMembers members)).nesting ≤ Document.maxDepth ∧
      (Tree.object b (Tree.markMembers members)).Legible ∧
      firstKey? (Tree.markMembers members) ≠ some Document.numeralKey ∧
      (keys? (Tree.markMembers members)).Nodup := by
  obtain ⟨hfirst, ms, hms, rfl⟩ := memberValues?_of_struct h
  have hvalue := Tree.hasValue (.object b (Tree.markMembers members)) Document.maxDepth
  rw [value?_object b hfirst, hms] at hvalue
  obtain ⟨hnesting, hlegible⟩ := hvalue.mp rfl
  refine ⟨hnesting, hlegible, hfirst, ?_⟩
  have hkeys := keys?_of_memberValues? hms
  have hcount : ms.length = members.length := by
    have hlengths := congrArg List.length hkeys
    simpa [keys?, length_markMembers] using hlengths.symm
  have hnil : (([] : List (String × Json)).map Prod.fst).Nodup := List.nodup_nil
  have hnodup : (([] ++ ms).map Prod.fst).Nodup := by
    apply nodup_of_length_setMembers hnil
    rw [memberFields_eq_map, List.length_map] at hlength
    rw [hlength, hcount, List.length_nil, Nat.zero_add]
  rw [hkeys]
  exact List.Pairwise.map _ (fun _ _ hne h => hne (Option.some.inj h)) hnodup

/-- Distinct keys are all kept, each with the type of its value. -/
theorem struct_of_nodup_keys?
    (hnesting : (Tree.object b (Tree.markMembers members)).nesting ≤ Document.maxDepth)
    (hlegible : (Tree.object b (Tree.markMembers members)).Legible)
    (hfirst : firstKey? (Tree.markMembers members) ≠ some Document.numeralKey)
    (hnodup : (keys? (Tree.markMembers members)).Nodup) :
    ∃ ms, Tree.memberValues? 126 (Tree.markMembers members) = some ms ∧
      sampleType (String.ofList (documentChars ⟨before, .object b members, after⟩)) =
        .ok (.struct (memberFields ms)) := by
  have hsome := (Tree.hasValue _ Document.maxDepth).mpr ⟨hnesting, hlegible⟩
  rw [value?_object b hfirst, Option.isSome_map, Option.isSome_iff_exists] at hsome
  obtain ⟨ms, hms⟩ := hsome
  refine ⟨ms, hms, ?_⟩
  have hdistinct : (([] ++ ms).map Prod.fst).Nodup := by
    rw [keys?_of_memberValues? hms] at hnodup
    exact List.Pairwise.of_map some (fun _ _ hne h => hne (congrArg some h)) hnodup
  have hroot : (Tree.object b members).mark.value? Document.maxDepth = some (.object ms) := by
    rw [Tree.mark, value?_object b hfirst, hms, Option.map_some, setMembers_of_nodup hdistinct,
      List.nil_append]
  have htype := sampleType_of_value? (d := ⟨before, .object b members, after⟩) hroot
  rwa [type] at htype

end Syntax

open Syntax in
/-- A sample that is an object has a struct with one field for each of its members, in their order,
under the marked keys and none of them optional, exactly if the marked keys are distinct, the first
of them is not the key of a number, and the marked text can be read. Keys in which no zero is written
right behind a point are the marked keys themselves. -/
theorem sampleType_object_iff (before b after : Blanks)
    (members : List (Spaced (List Piece) × Spaced Tree)) (typeName : Option String) :
    let text := String.ofList (documentChars ⟨before, .object b members, after⟩)
    let marked := Tree.markMembers members
    ((∃ fields, sampleType text = .ok (.struct fields) ∧
        declare text ⟨typeName, none⟩ =
          .ok (declaration (Options.rootName ⟨typeName, none⟩) (.struct fields)) ∧
        fields.length = members.length ∧ (fields.map fun f => some f.key) = keys? marked ∧
        ∀ f ∈ fields, f.optional = false) ↔
      (Tree.object b marked).nesting ≤ Document.maxDepth ∧ (Tree.object b marked).Legible ∧
        firstKey? marked ≠ some Document.numeralKey ∧ (keys? marked).Nodup) ∧
    ((∀ m ∈ members, ¬ ['.', '0'] <:+: piecesChars m.1.inside) →
      keys? marked = keys? members) := by
  intro text marked
  refine ⟨?_, keys?_markMembers⟩
  constructor
  · rintro ⟨fields, hs, -, hlength, -, -⟩
    exact nodup_keys?_of_struct hs hlength
  · rintro ⟨hnesting, hlegible, hfirst, hnodup⟩
    obtain ⟨ms, hms, hs⟩ := struct_of_nodup_keys? hnesting hlegible hfirst hnodup
    have hkeys := keys?_of_memberValues? hms
    refine ⟨memberFields ms, hs, declare_of_sampleType hs typeName, ?_, ?_, ?_⟩
    · have hlengths := congrArg List.length hkeys
      simpa [memberFields_eq_map, keys?, marked, length_markMembers] using hlengths.symm
    · rw [hkeys, memberFields_eq_map]
      simp [Field.ofKey]
    · intro f hf
      rw [memberFields_eq_map] at hf
      obtain ⟨m, -, rfl⟩ := List.mem_map.mp hf
      rfl

open Syntax in
/-- The keys `v.1` and `b` are not marked, and both are kept. -/
theorem sampleType_object_iff_sample :
    let blank := Blanks.none
    let one : Spaced Tree := ⟨blank, .number ⟨false, 1, [], [], none, fun _ => rfl⟩, blank⟩
    let version : List Piece := [.plain 'v' (by decide), .plain '.' (by decide), .plain '1' (by decide)]
    let members := [(⟨blank, version, blank⟩, one), (⟨blank, [.plain 'b' (by decide)], blank⟩, one)]
    (∀ m ∈ members, ¬ ['.', '0'] <:+: piecesChars m.1.inside) ∧
      String.ofList (documentChars ⟨blank, .object blank members, blank⟩) =
        "\x7b\"v.1\":1,\"b\":1\x7d" ∧
      ∃ fields, sampleType "\x7b\"v.1\":1,\"b\":1\x7d" = .ok (.struct fields) ∧
        (fields.map fun f => some f.key) = [some "v.1", some "b"] := by
  intro blank one version members
  have hplain : ∀ m ∈ members, ¬ ['.', '0'] <:+: piecesChars m.1.inside := by decide
  obtain ⟨hiff, hkeys⟩ := sampleType_object_iff blank blank blank members none
  have hsame : keys? (Tree.markMembers members) = [some "v.1", some "b"] := (hkeys hplain).trans rfl
  have htext : String.ofList (documentChars ⟨blank, .object blank members, blank⟩) =
      "\x7b\"v.1\":1,\"b\":1\x7d" := rfl
  have hfirst : firstKey? (Tree.markMembers members) ≠ some Document.numeralKey := by decide
  have hlegible : (Tree.object blank (Tree.markMembers members)).Legible := by
    rw [Tree.Legible, if_neg hfirst]
    exact ⟨rfl, trivial, rfl, trivial, trivial⟩
  obtain ⟨fields, hs, -, -, hfields, -⟩ :=
    hiff.mpr ⟨by decide, hlegible, hfirst, hsame ▸ by decide⟩
  exact ⟨hplain, htext, fields, htext ▸ hs, hfields.trans hsame⟩

/-- The keys `a.0` and `a.1` are different, and alike once they are marked. -/
theorem sampleType_one_field :
    parse "\x7b\"a.0\":1,\"a.1\":2\x7d" = .ok (.object
      [("a.0", .number ⟨false, [1], [], none⟩), ("a.1", .number ⟨false, [2], [], none⟩)]) ∧
    (sampleType "\x7b\"a.0\":1,\"a.1\":2\x7d").toOption.map (fun t => t.fields.map Field.key) =
      some ["a.1"] :=
  ⟨rfl, by decide +kernel⟩

end GoShape.Json
