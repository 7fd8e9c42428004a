import GoShape.Command.Size
import GoShape.Options

/-! The arguments of the program. -/
namespace GoShape.Command

/-- The options that take a value. -/
inductive Parameter
  | input
  | output
  | name
  | maxBytes
  deriving DecidableEq, Repr

/-- What a run is asked to do. -/
structure Invocation where
  input : Option String
  output : Option String
  typeName : Option String
  maxBytes : Option Nat
  json : Bool
  deriving DecidableEq, Repr

/-- The reasons for which arguments are refused. -/
inductive UsageError
  | unexpected (argument : String)
  | missingValue (option : String)
  | repeated (option : String)
  | unexpectedValue (option value : String)
  | invalidSize (option value : String)
  deriving DecidableEq, Repr

/-- A run, or one of the requests that leave the rest of the arguments unread. -/
inductive Request
  | run (s : Invocation)
  | version
  | help
  | refuse (e : UsageError)
  deriving DecidableEq, Repr

namespace Parameter

def ofLong? : String → Option Parameter
  | "input" => some .input
  | "output" => some .output
  | "name" => some .name
  | "max-bytes" => some .maxBytes
  | _ => none

def ofShort? : Char → Option Parameter
  | 'i' => some .input
  | 'o' => some .output
  | 'n' => some .name
  | _ => none

/-- The option with its value, as messages show it. -/
def text : Parameter → String
  | .input => "--input <INPUT>"
  | .output => "--output <OUTPUT>"
  | .name => "--name <TYPE_NAME>"
  | .maxBytes => "--max-bytes <MAX_BYTES>"

end Parameter

namespace Invocation

/-- No arguments. -/
def empty : Invocation := ⟨none, none, none, none, false⟩

def options (s : Invocation) : Options := ⟨s.typeName, s.maxBytes⟩

def has (s : Invocation) : Parameter → Bool
  | .input => s.input.isSome
  | .output => s.output.isSome
  | .name => s.typeName.isSome
  | .maxBytes => s.maxBytes.isSome

/-- Give an option its value; it may be given once. -/
def set (s : Invocation) (o : Parameter) (value : String) : Except UsageError Invocation :=
  if s.has o then .error (.repeated o.text)
  else match o with
    | .input => .ok { s with input := some value }
    | .output => .ok { s with output := some value }
    | .name => .ok { s with typeName := some value }
    | .maxBytes =>
      match size? value with
      | some n => .ok { s with maxBytes := some n }
      | none => .error (.invalidSize o.text value)

end Invocation

/-- What one argument is, apart from the argument behind it. -/
inductive Argument
  | option (o : Parameter) (value : Option String)
  | json
  | version
  | help
  | endOfOptions
  | refused (e : UsageError)
  deriving DecidableEq, Repr

namespace Argument

/-- An argument behind two dashes: a name, and perhaps a value behind an equals sign. -/
def ofLong (body : List Char) : Argument :=
  let name := String.ofList (body.takeWhile (· != '='))
  let value := if body.contains '=' then some (String.ofList (body.dropWhile (· != '=') |>.drop 1))
    else none
  let flag (a : Argument) : Argument :=
    match value with
    | none => a
    | some v => .refused (.unexpectedValue ("--" ++ name) v)
  match Parameter.ofLong? name with
  | some o => .option o value
  | none =>
    match name with
    | "json" => flag .json
    | "version" => flag .version
    | "help" => flag .help
    | _ => .refused (.unexpected ("--" ++ name))

/-- An argument behind one dash: a letter, and perhaps a value, for which an equals sign may
stand in front. -/
def ofShort (c : Char) (body : List Char) : Argument :=
  match Parameter.ofShort? c with
  | some o =>
    match body with
    | [] => .option o none
    | '=' :: value => .option o (some (String.ofList value))
    | value => .option o (some (String.ofList value))
  | none =>
    match c with
    | 'V' => .version
    | 'h' => .help
    | _ => .refused (.unexpected (String.ofList ['-', c]))

def ofText (s : String) : Argument :=
  match s.toList with
  | ['-', '-'] => .endOfOptions
  | '-' :: '-' :: body => ofLong body
  | '-' :: c :: body => ofShort c body
  | _ => .refused (.unexpected s)

end Argument

/-- An argument that can be the value of the option before it: a single dash, or anything without a
dash in front. -/
def isValue (s : String) : Bool :=
  match s.toList with
  | '-' :: _ :: _ => false
  | _ => true

/-- Read the arguments from the left; what is asked for or wrong first decides. -/
def Request.read (s : Invocation) : List String → Request
  | [] => .run s
  | a :: rest =>
    match Argument.ofText a with
    | .refused e => .refuse e
    | .version => .version
    | .help => .help
    | .json => if s.json then .refuse (.repeated "--json") else read { s with json := true } rest
    | .endOfOptions =>
      match rest with
      | [] => .run s
      | b :: _ => .refuse (.unexpected b)
    | .option o (some value) =>
      match s.set o value with
      | .ok s => read s rest
      | .error e => .refuse e
    | .option o none =>
      match rest with
      | [] => .refuse (.missingValue o.text)
      | value :: rest =>
        if isValue value then
          match s.set o value with
          | .ok s => read s rest
          | .error e => .refuse e
        else .refuse (.missingValue o.text)

def Request.ofArguments (args : List String) : Request := read .empty args

def UsageError.message : UsageError → String
  | .unexpected argument => "unexpected argument '" ++ argument ++ "' found"
  | .missingValue option => "a value is required for '" ++ option ++ "' but none was supplied"
  | .repeated option => "the argument '" ++ option ++ "' cannot be used multiple times"
  | .unexpectedValue option value =>
    "unexpected value '" ++ value ++ "' for '" ++ option ++ "' found; no more were expected"
  | .invalidSize option value =>
    "invalid value '" ++ value ++ "' for '" ++ option ++ "': invalid digit found in string"

def UsageError.text (e : UsageError) : String :=
  "error: " ++ e.message ++
    "\n\nUsage: json2go [OPTIONS]\n\nFor more information, try '--help'.\n"

def versionText : String := "json2go 0.1.0\n"

def helpText : String :=
  "Generate a Go struct declaration from example JSON\n\n" ++
  "Usage: json2go [OPTIONS]\n\n" ++
  "Options:\n" ++
  "  -i, --input <INPUT>          Input JSON file (reads from stdin if omitted)\n" ++
  "  -o, --output <OUTPUT>        Output file (writes to stdout if omitted)\n" ++
  "  -n, --name <TYPE_NAME>       Name of the top-level Go type\n" ++
  "      --max-bytes <MAX_BYTES>  Reject inputs larger than this many bytes\n" ++
  "      --json                   Print the result as a JSON object with `go` and `error` fields\n" ++
  "  -h, --help                   Print help\n" ++
  "  -V, --version                Print version\n"

end GoShape.Command
