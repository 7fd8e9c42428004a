import GoShape.Proofs.Exported
import GoShape.Proofs.FieldTag

/-! The text of a type determines the type. What comes next in a text says how it goes on: of the names
of types only `int` begins others, no name of a field has a space, a quote ends each tag, and the
lines of a struct stand one tab deeper than the brace that closes it. So two types with the same text,
each with something behind it, are the same type with the same thing behind it. -/
namespace GoShape

/-- A field that has the name of its key, and a key that can be read back from its tag. -/
structure Field.Readable {τ : Type} (f : Field τ) : Prop where
  name_eq : f.name = Identifier.format f.key
  quote : '"' ∉ f.key.toList
  comma : ',' ∉ f.key.toList

/-- All the fields inside a type are readable. -/
inductive GoType.Readable : GoType → Prop
  | scalar (s : Scalar) : Readable (.scalar s)
  | slice {t : GoType} : Readable t → Readable (.slice t)
  | struct {fs : List (Field GoType)} :
    (∀ f ∈ fs, f.Readable) → (∀ f ∈ fs, Readable f.type) → Readable (.struct fs)

theorem Field.readable_ofKey {key : String} (type : GoType) (optional : Bool)
    (hquote : '"' ∉ key.toList) (hcomma : ',' ∉ key.toList) :
    (Field.ofKey key type optional).Readable :=
  ⟨rfl, hquote, hcomma⟩

/-- A character that is in neither of two texts splits what they begin. -/
theorem append_cons_inj {c : Char} {l l' r r' : List Char} (h : c ∉ l) (h' : c ∉ l')
    (he : l ++ c :: r = l' ++ c :: r') : l = l' ∧ r = r' := by
  have hl := congrArg (List.takeWhile (· != c)) he
  rw [FieldTag.takeWhile_append h, FieldTag.takeWhile_append h'] at hl
  obtain rfl : l = l' := by simpa using hl
  exact ⟨rfl, (List.cons_eq_cons.mp (List.append_cancel_left he)).2⟩

theorem space_not_mem_format (key : String) : ' ' ∉ (Identifier.format key).toList := by
  by_cases h : Identifier.formatChars key.toList = []
  · rw [Identifier.format_eq_failed_iff.mpr (Identifier.formatChars_eq_nil_iff.mp h)]
    decide
  · rw [Identifier.toList_format h]
    intro hspace
    exact absurd (Identifier.isAlphanumeric_of_mem_formatChars hspace) (by decide)

/-- What stands behind a type does not make `int64` or `interface` of `int`. -/
def EndsType (rest : List Char) : Prop := rest.head? ≠ some '6' ∧ rest.head? ≠ some 'e'

theorem endsType_nil : EndsType [] := by
  simp [EndsType]

theorem endsType_space (rest : List Char) : EndsType (' ' :: rest) := by
  simp [EndsType]

theorem Scalar.text_append_inj {s s' : Scalar} {r r' : List Char} (h : EndsType r)
    (h' : EndsType r') (he : s.text.toList ++ r = s'.text.toList ++ r') : s = s' ∧ r = r' := by
  cases s <;> cases s' <;> simp [Scalar.text] at he ⊢
  all_goals
    first
    | exact he
    | subst he
      simp [EndsType] at h h'

namespace GoType

variable {d : Nat} {r r' : List Char}

theorem toList_text_slice (d : Nat) (t : GoType) :
    ((slice t).text d).toList = '[' :: ']' :: (t.text d).toList := by
  simp [text]

theorem toList_text_struct (d : Nat) (fs : List (Field GoType)) :
    ((struct fs).text d).toList = "struct \x7b\n".toList ++
      ((fieldLines (d + 1) fs).toList ++ (List.replicate d '\t' ++ ['\x7d'])) := by
  simp [text, indent]

theorem toList_fieldLines_cons (d : Nat) (f : Field GoType) (fs : List (Field GoType)) :
    (fieldLines d (f :: fs)).toList = List.replicate d '\t' ++ (f.name.toList ++ ' ' ::
      ((f.type.text d).toList ++ ' ' :: ((fieldTag f.key f.optional).toList ++ '\n' ::
        (fieldLines d fs).toList))) := by
  simp [fieldLines, indent]

/-- The text of the type determines it and what stands behind the text. -/
def Determined (t : GoType) : Prop :=
  ∀ ⦃u : GoType⦄ ⦃d : Nat⦄ ⦃r r' : List Char⦄, u.Readable → EndsType r → EndsType r' →
    (t.text d).toList ++ r = (u.text d).toList ++ r' → t = u ∧ r = r'

/-- A line without its tabs, up to the end of the tag. -/
theorem line_append_inj {f g : Field GoType} (hf : f.Readable) (hg : g.Readable)
    (ht : f.type.Determined) (hu : g.type.Readable)
    (he : f.name.toList ++ ' ' :: ((f.type.text d).toList ++ ' ' ::
        ((fieldTag f.key f.optional).toList ++ r)) =
      g.name.toList ++ ' ' :: ((g.type.text d).toList ++ ' ' ::
        ((fieldTag g.key g.optional).toList ++ r'))) : f = g ∧ r = r' := by
  have hname : ∀ {f : Field GoType}, f.Readable → ' ' ∉ f.name.toList := by
    intro f hf
    rw [hf.name_eq]
    exact space_not_mem_format f.key
  obtain ⟨-, htype⟩ := append_cons_inj (hname hf) (hname hg) he
  obtain ⟨hsame, htag⟩ :=
    ht hu (endsType_space _) (endsType_space _) htype
  have htag := (List.cons_eq_cons.mp htag).2
  have hread := congrArg FieldTag.read? htag
  rw [FieldTag.read?_fieldTag_append hf.quote hf.comma,
    FieldTag.read?_fieldTag_append hg.quote hg.comma] at hread
  obtain ⟨name, key, type, optional⟩ := f
  obtain ⟨name', key', type', optional'⟩ := g
  obtain ⟨rfl, rfl⟩ := Prod.mk.inj (Option.some.inj hread)
  obtain rfl : name = name' := hf.name_eq.trans hg.name_eq.symm
  obtain rfl : type = type' := hsame
  exact ⟨rfl, List.append_cancel_left htag⟩

/-- The lines of a struct end where the brace stands one tab less deep. -/
theorem fieldLines_append_inj {fs gs : List (Field GoType)} (hfs : ∀ f ∈ fs, f.Readable)
    (hgs : ∀ g ∈ gs, g.Readable) (hts : ∀ f ∈ fs, f.type.Determined)
    (hus : ∀ g ∈ gs, g.type.Readable)
    (he : (fieldLines (d + 1) fs).toList ++ (List.replicate d '\t' ++ '\x7d' :: r) =
      (fieldLines (d + 1) gs).toList ++ (List.replicate d '\t' ++ '\x7d' :: r')) :
    fs = gs ∧ r = r' := by
  -- a line begins with one more tab than the closing brace
  have hline : ∀ (f : Field GoType) fs (r r' : List Char),
      List.replicate d '\t' ++ '\x7d' :: r ≠
        (fieldLines (d + 1) (f :: fs)).toList ++ r' := by
    intro f fs r r' h
    rw [toList_fieldLines_cons, List.replicate_succ', List.append_assoc, List.append_assoc] at h
    have hbrace := List.append_cancel_left h
    simp at hbrace
  induction fs generalizing gs with
  | nil =>
    cases gs with
    | nil =>
      have hrest := List.append_cancel_left (List.append_cancel_left he)
      exact ⟨rfl, (List.cons_eq_cons.mp hrest).2⟩
    | cons g gs => exact absurd he (hline g gs _ _)
  | cons f fs ih =>
    cases gs with
    | nil => exact absurd he.symm (hline f fs _ _)
    | cons g gs =>
      simp only [List.forall_mem_cons] at hfs hgs hts hus
      simp only [toList_fieldLines_cons, List.append_assoc, List.cons_append] at he
      obtain ⟨rfl, hrest⟩ :=
        line_append_inj hfs.1 hgs.1 hts.1 hus.1 (List.append_cancel_left he)
      obtain ⟨rfl, hr⟩ := ih hfs.2 hgs.2 hts.2 hus.2 (List.cons_eq_cons.mp hrest).2
      exact ⟨rfl, hr⟩

theorem determined_of_readable {t : GoType} (ht : t.Readable) : t.Determined := by
  induction ht with
  | scalar s =>
    intro u d r r' hu hr hr' he
    cases u with
    | scalar s' =>
      obtain ⟨rfl, hrest⟩ := Scalar.text_append_inj hr hr' he
      exact ⟨rfl, hrest⟩
    | slice u =>
      rw [toList_text_slice] at he
      cases s <;> simp [text, Scalar.text] at he
    | struct gs =>
      rw [toList_text_struct] at he
      cases s <;> simp [text, Scalar.text] at he
  | @slice t _ ih =>
    intro u d r r' hu hr hr' he
    cases hu with
    | scalar s =>
      rw [toList_text_slice] at he
      cases s <;> simp [text, Scalar.text] at he
    | slice hu =>
      simp only [toList_text_slice, List.cons_append, List.cons.injEq, true_and] at he
      obtain ⟨rfl, hrest⟩ := ih hu hr hr' he
      exact ⟨rfl, hrest⟩
    | struct =>
      rw [toList_text_slice, toList_text_struct] at he
      simp at he
  | @struct fs hfs _ ih =>
    intro u d r r' hu hr hr' he
    cases hu with
    | scalar s =>
      rw [toList_text_struct] at he
      cases s <;> simp [text, Scalar.text] at he
    | slice hu =>
      rw [toList_text_slice, toList_text_struct] at he
      simp at he
    | struct hgs hus =>
      simp only [toList_text_struct, List.append_assoc, List.append_cancel_left_eq] at he
      obtain ⟨rfl, hrest⟩ := fieldLines_append_inj hfs hgs ih hus he
      exact ⟨rfl, hrest⟩

theorem eq_of_text_eq {t u : GoType} (ht : t.Readable) (hu : u.Readable)
    (he : t.text d = u.text d) : t = u := by
  have hlist : (t.text d).toList ++ [] = (u.text d).toList ++ [] := by rw [he]
  exact (determined_of_readable ht hu endsType_nil endsType_nil hlist).1

end GoType

/-- Two types with the same text at the same depth are the same type, and two declarations with the
same text are of the same type under the same name; names have no space, and the fields are named
for keys without quotes and commas. -/
theorem text_and_declaration_inj :
    (∀ (d : Nat) (t u : GoType), t.Readable → u.Readable → t.text d = u.text d → t = u) ∧
    ∀ (name name' : String) (t u : GoType), ' ' ∉ name.toList → ' ' ∉ name'.toList →
      t.Readable → u.Readable → declaration name t = declaration name' u → name = name' ∧ t = u := by
  refine ⟨fun d t u ht hu he => GoType.eq_of_text_eq ht hu he, ?_⟩
  intro name name' t u hname hname' ht hu he
  have hlist := congrArg String.toList he
  simp only [declaration, String.toList_append, List.append_assoc] at hlist
  obtain ⟨hsame, htext⟩ := append_cons_inj hname hname' (List.append_cancel_left hlist)
  exact ⟨String.toList_inj.mp hsame, GoType.eq_of_text_eq ht hu (String.toList_inj.mp htext)⟩

/-- Structs with the fields `"a b" int` and `"a b" int64` have different texts, at any depth and in
declarations. -/
theorem text_and_declaration_inj_sample :
    (GoType.struct [.ofKey "a b" (.scalar .int) true]).text 3 ≠
      (GoType.struct [.ofKey "a b" (.scalar .int64) true]).text 3 ∧
    declaration "T" (.struct [.ofKey "a b" (.scalar .int) true]) ≠
      declaration "T" (.struct [.ofKey "a b" (.scalar .int64) true]) := by
  have hreadable : ∀ s, (GoType.struct [.ofKey "a b" (.scalar s) true]).Readable := by
    intro s
    refine .struct ?_ ?_ <;> simp only [List.mem_singleton, forall_eq]
    · exact Field.readable_ofKey _ _ (by decide) (by decide)
    · exact .scalar s
  have hne : GoType.struct [.ofKey "a b" (.scalar .int) true] ≠
      .struct [.ofKey "a b" (.scalar .int64) true] := by
    simp [Field.ofKey]
  obtain ⟨htext, hdeclaration⟩ := text_and_declaration_inj
  constructor
  · exact fun h => hne (htext 3 _ _ (hreadable .int) (hreadable .int64) h)
  · intro h
    exact hne (hdeclaration "T" "T" _ _ (by decide) (by decide) (hreadable .int)
      (hreadable .int64) h).2

end GoShape
