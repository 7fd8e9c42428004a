import GoShape.Type

/-! Declarations as text. Structs stand where they are used, one field to a line, and each line is
indented by the structs around it. -/
namespace GoShape

def Scalar.text : Scalar → String
  | .any => "interface\x7b\x7d"
  | .bool => "bool"
  | .string => "string"
  | .timestamp => "time.Time"
  | .int => "int"
  | .int64 => "int64"
  | .float64 => "float64"

/-- One tab for each struct around a line. -/
def indent (depth : Nat) : String := String.ofList (List.replicate depth '\t')

/-- The note behind a field that ties it to its key. -/
def fieldTag (key : String) (optional : Bool) : String :=
  "`json:\"" ++ key ++ (if optional then ",omitempty" else "") ++ "\"`"

namespace GoType

mutual

/-- A type inside `depth` structs. -/
def text (depth : Nat) : GoType → String
  | .scalar s => s.text
  | .slice element => "[]" ++ text depth element
  | .struct fields => "struct \x7b\n" ++ fieldLines (depth + 1) fields ++ indent depth ++ "\x7d"

/-- A line for each field. -/
def fieldLines (depth : Nat) : List (Field GoType) → String
  | [] => ""
  | ⟨name, key, type, optional⟩ :: fs =>
    indent depth ++ name ++ " " ++ text depth type ++ " " ++ fieldTag key optional ++ "\n" ++
      fieldLines depth fs

end

end GoType

/-- The declaration of a named type. -/
def declaration (name : String) (type : GoType) : String := "type " ++ name ++ " " ++ type.text 0

example : declaration "T" (.slice (.struct [.ofKey "id" (.scalar .int) true])) =
    "type T []struct \x7b\n\tID int `json:\"id,omitempty\"`\n\x7d" := by decide +kernel

end GoShape
