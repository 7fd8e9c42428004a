import GoShape.Json.Reading

/-! Reading a string, one character at a time, from behind its opening quote. -/
namespace GoShape.Json

/-- What the next character of a string means. -/
inductive Quoted.Phase
  | plain
  | escape
  /-- In a `\u` escape, behind the leading surrogate `lead` if there is one. -/
  | code (lead : Option Nat) (window : HexWindow)
  /-- A leading surrogate needs a second escape: its backslash, then its `u`. -/
  | secondEscape (lead : Nat)
  | secondMark (lead : Nat)
  deriving DecidableEq, Repr

/-- A string that is being read; its characters stand last one first. -/
structure Quoted where
  phase : Quoted.Phase
  chars : List Char
  deriving DecidableEq, Repr

namespace Quoted

def start : Quoted := ⟨.plain, []⟩

/-- The string ends here. -/
def value (q : Quoted) : String := String.ofList q.chars.reverse

def push (q : Quoted) (c : Char) : Quoted := ⟨.plain, c :: q.chars⟩

/-- The character a letter stands for behind a backslash. -/
def escaped? (c : Char) : Option Char :=
  match c with
  | '"' => some '"'
  | '\\' => some '\\'
  | '/' => some '/'
  | 'b' => some '\x08'
  | 'f' => some '\x0c'
  | 'n' => some '\n'
  | 'r' => some '\r'
  | 't' => some '\t'
  | _ => none

def isLeading (code : Nat) : Bool := 0xD800 ≤ code && code ≤ 0xDBFF

def isTrailing (code : Nat) : Bool := 0xDC00 ≤ code && code ≤ 0xDFFF

/-- The character of a surrogate pair. -/
def pair (lead trail : Nat) : Char :=
  Char.ofNat (0x10000 + (lead - 0xD800) * 0x400 + (trail - 0xDC00))

/-- The four digits of an escape are read, behind the leading surrogate `lead` if there is one. -/
def accept (q : Quoted) (lead : Option Nat) (code : Nat) : Reading Quoted String :=
  match lead with
  | some l =>
    if isTrailing code then .more (q.push (pair l code)) else .fault (.here .loneSurrogate 1)
  | none =>
    if isTrailing code then .fault (.here .loneSurrogate 1)
    else if isLeading code then .more { q with phase := .secondEscape code }
    else .more (q.push (Char.ofNat code))

def step (q : Quoted) (c : Char) : Reading Quoted String :=
  match q.phase with
  | .plain =>
    if c = '"' then .last q.value
    else if c = '\\' then .more { q with phase := .escape }
    else if c.toNat < 0x20 then .fault (.here .controlCharacter 1)
    else .more (q.push c)
  | .escape =>
    if c = 'u' then .more { q with phase := .code none .start }
    else match escaped? c with
      | some e => .more (q.push e)
      | none => .fault (.here .invalidEscape 1)
  | .code lead w =>
    match w.step c with
    | .more w' => .more { q with phase := .code lead w' }
    | .last n | .before n => q.accept lead n
    | .fault e => .fault e
  | .secondEscape lead =>
    if c = '\\' then .more { q with phase := .secondMark lead }
    else .fault (.here .unfinishedSurrogate 1)
  | .secondMark lead =>
    if c = 'u' then .more { q with phase := .code (some lead) .start }
    else .fault (.here .unfinishedSurrogate 1)

end Quoted
end GoShape.Json
