import GoShape.Conversion
import GoShape.Command.Size
import GoShape.Text.Literal

/-! The log of a run: entries, how they are written, and which of them are wanted. -/
namespace GoShape.Command

/-- How much an entry matters. -/
inductive Level
  | error
  | warn
  | info
  | debug
  | trace
  deriving DecidableEq, Repr

namespace Level

def name : Level → String
  | .error => "ERROR"
  | .warn => "WARN"
  | .info => "INFO"
  | .debug => "DEBUG"
  | .trace => "TRACE"

/-- A greater rank matters less. -/
def rank : Level → Nat
  | .error => 1
  | .warn => 2
  | .info => 3
  | .debug => 4
  | .trace => 5

end Level

/-- An entry of the log: where it comes from, what it says, and the values it shows. -/
structure Entry where
  level : Level
  target : String
  message : String
  fields : List (String × String)
  deriving DecidableEq, Repr

namespace Entry

/-- An entry on one line; the level stands at the right of five columns. -/
def text (time : String) (e : Entry) : String :=
  let name := e.level.name
  let pad := String.ofList (List.replicate (5 - name.length) ' ')
  time ++ " " ++ pad ++ name ++ " " ++ e.target ++ ": " ++ e.message ++
    String.join (e.fields.map fun (key, value) => " " ++ key ++ "=" ++ value)

/-- The entry of the program itself. -/
def ofProgram (level : Level) (message : String) (fields : List (String × String)) : Entry :=
  ⟨level, "json2go", message, fields⟩

/-- The entry for the event of a conversion. -/
def ofEvent (e : Event) : Entry where
  level := .debug
  target := "json2go_core::convert"
  message := e.message
  fields :=
    match e with
    | .overLimit length limit => [("len", toString length), ("limit", toString limit)]
    | .malformed error => [("error", error.message)]
    | .inferred name kind count =>
      [("type_name", name), ("kind", kind.label), ("top_level_fields", toString count)]

end Entry

/-- A wish for the entries whose target begins with `target`, up to a rank. -/
structure Directive where
  target : String
  rank : Nat
  deriving DecidableEq, Repr

/-- A rank by its number or by the name of its level, in any case; `off` is rank zero. -/
def rank? (s : String) : Option Nat :=
  match (size? s).filter (· ≤ 5) with
  | some n => some n
  | none =>
    match String.ofList (s.toList.map capital) with
    | "OFF" => some 0
    | "ERROR" => some 1
    | "WARN" => some 2
    | "INFO" => some 3
    | "DEBUG" => some 4
    | "TRACE" => some 5
    | _ => none

namespace Directive

/-- A character with which a directive may begin. -/
def mayBegin (c : Char) : Bool :=
  isAlphanumeric c || c == '-' || c == ':' || c == '_' || 0x80 ≤ c.toNat

/-- A level for every target, a target, or a target with its level behind an equals sign. -/
def ofText? (s : String) : Option Directive :=
  let cs := s.toList
  if !(cs.head?.map mayBegin).getD false || cs.contains '[' then none
  else
    let level := String.ofList (cs.dropWhile (· != '=') |>.drop 1)
    let target := String.ofList (cs.takeWhile (· != '='))
    if cs.contains '=' then
      if level.isEmpty then some ⟨target, 5⟩ else (rank? level).map (⟨target, ·⟩)
    else match rank? s with
      | some r => some ⟨"", r⟩
      | none => some ⟨s, 5⟩

end Directive

/-- Which entries are wanted. -/
abbrev Filter := List Directive

namespace Filter

/-- Warnings and errors. -/
def standard : Filter := [⟨"", 2⟩]

/-- Directives between commas; without any, only errors are wanted. A text that cannot be
understood counts for nothing. -/
def ofText (s : String) : Filter :=
  match ((s.splitOn ",").filter (!·.isEmpty)).mapM Directive.ofText? with
  | none => standard
  | some [] => [⟨"", 1⟩]
  | some ds => ds

/-- What the variable for it asks for, if it is set. -/
def ofVariable (value : Option String) : Filter := (value.map ofText).getD standard

/-- The rank up to which a target is wanted, by the longest directive for it and the last of
those. -/
def rank (f : Filter) (target : String) : Nat :=
  ((f.filter fun d => d.target.isPrefixOf target).foldl
    (fun best d => if best.target.length ≤ d.target.length then d else best) ⟨"", 0⟩).rank

def wants (f : Filter) (e : Entry) : Bool := e.level.rank ≤ f.rank e.target

end Filter
end GoShape.Command
