import GoShape.Type

/-! What stands inside a type: its elements, the types of its fields, and theirs. A property of structs
holds throughout a type if it holds of the struct itself and throughout each of its parts. -/
namespace GoShape.GoType

/-- Induction over types, with the fields of a struct taken together. -/
theorem induction {P : GoType → Prop} (scalar : ∀ s, P (.scalar s))
    (slice : ∀ t, P t → P (.slice t))
    (struct : ∀ fs, (∀ f ∈ fs, P f.type) → P (.struct fs)) : ∀ t, P t
  | .scalar s => scalar s
  | .slice t => slice t (GoType.induction scalar slice struct t)
  | .struct fs => struct fs fun f _ => GoType.induction scalar slice struct f.type
termination_by t => t
decreasing_by
  · simp only [GoType.slice.sizeOf_spec]
    omega
  · have hf := List.sizeOf_lt_of_mem ‹f ∈ fs›
    obtain ⟨name, key, type, optional⟩ := f
    simp only [Field.mk.sizeOf_spec, GoType.struct.sizeOf_spec] at hf ⊢
    omega

/-- A type is a part of another one, at any depth, or the type itself. -/
inductive Inside : GoType → GoType → Prop
  | refl (t : GoType) : Inside t t
  | element {t u : GoType} : Inside t u → Inside t (.slice u)
  | field {t : GoType} {f : Field GoType} {fs : List (Field GoType)} :
    f ∈ fs → Inside t f.type → Inside t (.struct fs)

/-- The fields of every struct inside a type have a property. -/
def EveryStruct (P : List (Field GoType) → Prop) (t : GoType) : Prop :=
  ∀ fs, Inside (.struct fs) t → P fs

variable {P : List (Field GoType) → Prop}

theorem everyStruct_scalar (s : Scalar) : EveryStruct P (.scalar s) := by
  intro fs h
  cases h

theorem everyStruct_slice {t : GoType} : EveryStruct P (.slice t) ↔ EveryStruct P t := by
  constructor
  · exact fun h fs hfs => h fs (.element hfs)
  · intro h fs hfs
    cases hfs with
    | element hfs => exact h fs hfs

theorem everyStruct_struct {fs : List (Field GoType)} :
    EveryStruct P (.struct fs) ↔ P fs ∧ ∀ f ∈ fs, EveryStruct P f.type := by
  constructor
  · exact fun h => ⟨h fs (.refl _), fun f hf gs hgs => h gs (.field hf hgs)⟩
  · rintro ⟨hfs, h⟩ gs hgs
    cases hgs with
    | refl => exact hfs
    | field hf hgs => exact h _ hf gs hgs

end GoShape.GoType
