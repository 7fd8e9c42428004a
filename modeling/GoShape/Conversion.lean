import GoShape.Json.Document
import GoShape.Fractional
import GoShape.Inference
import GoShape.Declaration
import GoShape.Options

/-! From the text of a sample to a declaration. Only the size and the syntax of the text can be at
fault; behind them nothing fails. -/
namespace GoShape

/-- The reasons for which there is no declaration. -/
inductive ConvertError
  | malformed (error : Json.ReadError)
  | tooLarge (length limit : Nat)

def ConvertError.message : ConvertError → String
  | .malformed error => error.message
  | .tooLarge length limit =>
    "input is " ++ toString length ++ " bytes, limit is " ++ toString limit ++ " bytes"

/-- What there is to report about a conversion. -/
inductive Event
  | overLimit (length limit : Nat)
  | malformed (error : Json.ReadError)
  | inferred (typeName : String) (kind : Kind) (topLevelFields : Nat)

/-- The name of a kind in reports. -/
def Kind.label : Kind → String
  | .scalar .any => "Any"
  | .scalar .bool => "Bool"
  | .scalar .string => "Str"
  | .scalar .timestamp => "Timestamp"
  | .scalar .int => "Int"
  | .scalar .int64 => "Int64"
  | .scalar .float64 => "Real"
  | .slice => "Slice"
  | .struct => "Struct"

def Event.message : Event → String
  | .overLimit _ _ => "input over size limit"
  | .malformed _ => "input is not valid JSON"
  | .inferred _ _ _ => "inferred root type"

/-- The type of a sample; numbers written with a point count as fractions. -/
def sampleType (text : String) : Except Json.ReadError GoType :=
  (Json.parse (forceFractional text)).map Json.type

/-- The limit that a text exceeds. -/
def exceeded? (text : String) (options : Options) : Option Nat :=
  options.maxInputBytes.filter (· < text.utf8ByteSize)

/-- The declaration for a sample or the reason why there is none, and the one event of either. -/
def attempt (text : String) (options : Options) : Except ConvertError String × Event :=
  match exceeded? text options with
  | some limit => (.error (.tooLarge text.utf8ByteSize limit), .overLimit text.utf8ByteSize limit)
  | none =>
    match sampleType text with
    | .error e => (.error (.malformed e), .malformed e)
    | .ok t =>
      (.ok (declaration options.rootName t), .inferred options.rootName t.kind t.topLevelFields)

theorem attempt_of_exceeded {text : String} {o : Options} {limit : Nat}
    (h : exceeded? text o = some limit) : attempt text o =
      (.error (.tooLarge text.utf8ByteSize limit), .overLimit text.utf8ByteSize limit) := by
  rw [attempt, h]

theorem attempt_of_malformed {text : String} {o : Options} {e : Json.ReadError}
    (h : exceeded? text o = none) (he : Json.parse (forceFractional text) = .error e) :
    attempt text o = (.error (.malformed e), .malformed e) := by
  rw [attempt, h, sampleType, he]
  rfl

theorem attempt_of_parse {text : String} {o : Options} {v : Json}
    (h : exceeded? text o = none) (hv : Json.parse (forceFractional text) = .ok v) :
    attempt text o = (.ok (declaration o.rootName v.type),
      .inferred o.rootName v.type.kind v.type.topLevelFields) := by
  rw [attempt, h, sampleType, hv]
  rfl

/-- The declaration for a sample. -/
def declare (text : String) (options : Options) : Except ConvertError String :=
  (attempt text options).1

/-- The outcome of a conversion as data: without a declaration there is a message. -/
structure Conversion where
  go : String
  error : Option String
  deriving DecidableEq, Repr

namespace Conversion

def isOk (c : Conversion) : Bool := c.error.isNone

def ofResult : Except ConvertError String → Conversion
  | .ok go => ⟨go, none⟩
  | .error e => ⟨"", some e.message⟩

/-- The outcome as a JSON object. -/
def toJson (c : Conversion) : Json :=
  .object (("go", .string c.go) :: (c.error.map fun e => ("error", .string e)).toList)

end Conversion

/-- The outcome of the conversion of a sample. -/
def convert (text : String) (options : Options) : Conversion := .ofResult (declare text options)

end GoShape
