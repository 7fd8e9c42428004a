import GoShape.Kind
import GoShape.Identifier

/-! The types of a declaration. A struct has its fields in the order in which their keys were first
met. -/
namespace GoShape

/-- A field of a struct: its name, the key it stands for, and whether the key may be missing. -/
structure Field (τ : Type) where
  name : String
  key : String
  type : τ
  optional : Bool
  deriving Repr

/-- The field of a key, under the exported name of the key. -/
def Field.ofKey {τ : Type} (key : String) (type : τ) (optional : Bool) : Field τ :=
  ⟨Identifier.format key, key, type, optional⟩

/-- The first field of a key. -/
def Field.lookup? {τ : Type} (fields : List (Field τ)) (key : String) : Option (Field τ) :=
  fields.find? fun f => f.key == key

/-- A type of the declared language. -/
inductive GoType
  | scalar (s : Scalar)
  | slice (element : GoType)
  | struct (fields : List (Field GoType))

namespace GoType

def kind : GoType → Kind
  | .scalar s => .scalar s
  | .slice _ => .slice
  | .struct _ => .struct

/-- The fields of a struct; no other type has any. -/
def fields : GoType → List (Field GoType)
  | .struct fields => fields
  | _ => []

/-- The number of fields of the struct that a type is, or is a list of. -/
def topLevelFields : GoType → Nat
  | .scalar _ => 0
  | .slice element => element.topLevelFields
  | .struct fields => fields.length

end GoType
end GoShape
