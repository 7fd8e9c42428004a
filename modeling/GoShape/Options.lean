import GoShape.Identifier

/-! What a caller chooses: the name of the declared type, and the size from which a sample is
refused. -/
namespace GoShape

/-- The choices of a caller; each may be left open. -/
structure Options where
  typeName : Option String
  maxInputBytes : Option Nat
  deriving DecidableEq, Repr

namespace Options

/-- Nothing is chosen. -/
def unset : Options := ⟨none, none⟩

def withTypeName (o : Options) (name : String) : Options := { o with typeName := some name }

def withMaxInputBytes (o : Options) (limit : Nat) : Options := { o with maxInputBytes := some limit }

/-- The name of a type that was given none, or an empty one. -/
def defaultTypeName : String := "AutoGenerated"

/-- The name in the declaration. -/
def rootName (o : Options) : String :=
  match o.typeName with
  | none => defaultTypeName
  | some name => if name.isEmpty then defaultTypeName else Identifier.format name

end Options
end GoShape
