import GoShape.Json.Basic
import GoShape.Json.Estimate
import GoShape.Text.Literal

/-! What can be wrong with a JSON text, and where. -/
namespace GoShape.Json

/-- A place in a text: the line from one, and the bytes of that line before the place. -/
structure Position where
  line : Nat
  column : Nat
  deriving DecidableEq, Repr

namespace Position

def start : Position := ⟨1, 0⟩

/-- The place `bytes` bytes into the character `c` that stands here. -/
def within (p : Position) (c : Char) (bytes : Nat) : Position :=
  if c = '\n' ∧ bytes ≠ 0 then ⟨p.line + 1, 0⟩ else ⟨p.line, p.column + bytes⟩

/-- The place behind the character `c` that stands here. -/
def past (p : Position) (c : Char) : Position := p.within c c.utf8Size

def text (p : Position) : String :=
  "line " ++ toString p.line ++ " column " ++ toString p.column

end Position

/-- The reasons for which a text is refused. -/
inductive Cause
  | unfinishedValue
  | unfinishedList
  | unfinishedObject
  | unfinishedText
  | expectedValue
  | expectedWord
  | expectedColon
  | expectedListEnd
  | expectedObjectEnd
  | keyNotText
  | trailingComma
  | trailingCharacters
  | tooDeep
  | invalidNumber
  | numberOutOfRange
  | invalidEscape
  | controlCharacter
  | loneSurrogate
  | unfinishedSurrogate
  /-- A value of the wrong type, with a description of what was wanted. -/
  | wrongType (found : Json) (wanted : String)
  /-- A number that counts as a fraction, where an integer was wanted. -/
  | fraction (negative : Bool) (magnitude : Binary64) (wanted : String)
  /-- An integer that is out of bounds. -/
  | outOfBounds (found : Int) (wanted : String)
  | repeatedField (name : String)

def describedInteger (i : Int) : String := "integer `" ++ toString i ++ "`"

def describedFraction (negative : Bool) (magnitude : Binary64) : String :=
  "floating point `" ++ (if negative then "-" else "") ++ magnitude.text ++ "`"

/-- A value as messages show it. A number is shown only if it is an integer of 64 bits. -/
def described : Json → String
  | .null => "null"
  | .bool b => "boolean `" ++ (if b then "true" else "false") ++ "`"
  | .number n => (n.signedWord?.map describedInteger).getD "number"
  | .string s => "string " ++ Text.literal s
  | .array _ => "sequence"
  | .object _ => "map"

def Cause.message : Cause → String
  | .unfinishedValue => "EOF while parsing a value"
  | .unfinishedList => "EOF while parsing a list"
  | .unfinishedObject => "EOF while parsing an object"
  | .unfinishedText => "EOF while parsing a string"
  | .expectedValue => "expected value"
  | .expectedWord => "expected ident"
  | .expectedColon => "expected `:`"
  | .expectedListEnd => "expected `,` or `]`"
  | .expectedObjectEnd => "expected `,` or `\x7d`"
  | .keyNotText => "key must be a string"
  | .trailingComma => "trailing comma"
  | .trailingCharacters => "trailing characters"
  | .tooDeep => "recursion limit exceeded"
  | .invalidNumber => "invalid number"
  | .numberOutOfRange => "number out of range"
  | .invalidEscape => "invalid escape"
  | .controlCharacter => "control character (\\u0000-\\u001F) found while parsing a string"
  | .loneSurrogate => "lone leading surrogate in hex escape"
  | .unfinishedSurrogate => "unexpected end of hex escape"
  | .wrongType found wanted => "invalid type: " ++ found.described ++ ", expected " ++ wanted
  | .fraction negative magnitude wanted =>
    "invalid type: " ++ describedFraction negative magnitude ++ ", expected " ++ wanted
  | .outOfBounds found wanted =>
    "invalid value: " ++ describedInteger found ++ ", expected " ++ wanted
  | .repeatedField name => "duplicate field `" ++ name ++ "`"

/-- A refused text: why, and where. -/
structure ReadError where
  cause : Cause
  position : Position

def ReadError.message (e : ReadError) : String :=
  e.cause.message ++ " at " ++ e.position.text

/-- A fault met at a character: `bytes` bytes into it, or somewhere in a text of its own. -/
inductive Fault
  | here (cause : Cause) (bytes : Nat)
  | inside (error : ReadError)

/-- The fault met at the character `c` at `p`. -/
def Fault.locate (p : Position) (c : Char) : Fault → ReadError
  | .here cause bytes => ⟨cause, p.within c bytes⟩
  | .inside error => error

/-- The fault met at the end of a text. -/
def Fault.locateEnd (p : Position) : Fault → ReadError
  | .here cause _ => ⟨cause, p⟩
  | .inside error => error

/-- The space between tokens. -/
def isBlank (c : Char) : Bool := c == ' ' || c == '\n' || c == '\t' || c == '\r'

end GoShape.Json
