import GoShape.Json.Basic
import GoShape.Json.Estimate
import GoShape.Timestamp
import GoShape.Type

/-! The type of a sample. A list has the common type of its elements: structs are merged into one,
lists take the type of the first, and values that do not agree are of any type. -/
namespace GoShape

/-- Integers that fit in 32 bits, the two outermost of them excepted, are told apart from the larger
ones. -/
def Scalar.ofInteger (i : Int) : Scalar :=
  if -2147483648 < i ∧ i < 2147483647 then .int else .int64

/-- The kind of a number. A written integer of 64 bits is what it says; any other number counts as
the value nearest to it, and is a float if that is too large for the format or has a fraction. -/
def Json.Number.scalar (n : Json.Number) : Scalar :=
  match n.word? with
  | some i => .ofInteger i
  | none =>
    match n.nearestInteger? with
    | some i => .ofInteger i
    | none => .float64

/-- The kind of a string. -/
def Scalar.ofString (s : String) : Scalar :=
  if Timestamp.occurs s.toList then .timestamp else .string

/-- The kind of a value, without a look at its parts. -/
def Json.kind : Json → Kind
  | .null => .scalar .any
  | .bool _ => .scalar .bool
  | .number n => .scalar n.scalar
  | .string s => .scalar (.ofString s)
  | .array _ => .slice
  | .object _ => .struct

/-- A key that some elements of a list have: its type where it was first met, and in how many
elements it was met. -/
structure Tally (τ : Type) where
  key : String
  type : τ
  count : Nat

namespace Tally

/-- Meet a key with a type. -/
def meet {τ : Type} (key : String) (type : τ) : List (Tally τ) → List (Tally τ)
  | [] => [⟨key, type, 1⟩]
  | t :: ts =>
    if t.key = key then { t with count := t.count + 1 } :: ts else t :: meet key type ts

/-- Meet all the fields of the elements of a list, one after the other. -/
def ofFields {τ : Type} (fields : List (Field τ)) : List (Tally τ) :=
  fields.foldl (fun ts f => meet f.key f.type ts) []

/-- The field of a key that was met among `total` elements: it is optional if one of them lacks
it. -/
def field {τ : Type} (total : Nat) (t : Tally τ) : Field τ :=
  .ofKey t.key t.type (t.count < total)

end Tally

namespace GoType

/-- The fields of all the structs among the elements of a list; other elements have no key. -/
def merge (elements : List GoType) : List (Field GoType) :=
  (Tally.ofFields (elements.flatMap fields)).map (Tally.field elements.length)

/-- The kind that the elements of a list share. -/
def commonKind (elements : List GoType) : Option Kind := Kind.common (elements.map kind)

/-- The common type of the elements of a list. -/
def common (elements : List GoType) : GoType :=
  match commonKind elements with
  | none => .scalar .any
  | some (.scalar s) => .scalar s
  | some .struct => .struct (merge elements)
  | some .slice => elements.headD (.scalar .any)

end GoType

namespace Json

mutual

/-- The type of a value. -/
def type : Json → GoType
  | .null => .scalar .any
  | .bool _ => .scalar .bool
  | .number n => .scalar n.scalar
  | .string s => .scalar (.ofString s)
  | .array items => .slice (.common (types items))
  | .object members => .struct (memberFields members)

def types : List Json → List GoType
  | [] => []
  | v :: vs => type v :: types vs

/-- The fields of one object; none of them is optional. -/
def memberFields : List (String × Json) → List (Field GoType)
  | [] => []
  | (key, v) :: ms => .ofKey key (type v) false :: memberFields ms

end

theorem types_eq_map (vs : List Json) : types vs = vs.map type := by
  induction vs with
  | nil => rfl
  | cons v vs ih => simp [types, ih]

theorem memberFields_eq_map (ms : List (String × Json)) :
    memberFields ms = ms.map fun m => .ofKey m.1 (type m.2) false := by
  induction ms with
  | nil => rfl
  | cons m ms ih => simp [memberFields, ih]

/-- Looking at the parts of a value does not change its kind. -/
theorem kind_type (v : Json) : v.type.kind = v.kind := by
  cases v <;> rfl

/-- The kind that the elements of a list share. -/
def commonKind (items : List Json) : Option Kind := Kind.common (items.map kind)

theorem commonKind_types (items : List Json) :
    GoType.commonKind (items.map type) = commonKind items := by
  have h : GoType.kind ∘ type = kind := funext kind_type
  simp [GoType.commonKind, commonKind, h]

/-- The type of the elements of a list. -/
def elementType (items : List Json) : GoType := .common (items.map type)

@[simp] theorem type_array (items : List Json) : type (.array items) = .slice (elementType items) := by
  simp [type, elementType, types_eq_map]

/-- The fields of all the objects in a list. -/
def mergedFields (items : List Json) : List (Field GoType) := GoType.merge (items.map type)

end Json
end GoShape
