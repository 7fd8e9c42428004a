import GoShape.Json.Numeral

/-! Passing over a value that is not wanted. It is checked less than one that is read: brackets may
be nested without a limit, and surrogates in strings need not come in pairs. -/
namespace GoShape.Json

/-- A list or an object that is open. -/
inductive Bracket
  | list
  | object
  deriving DecidableEq, Repr

namespace Skip

/-- What the next character of a string means. -/
inductive TextPhase
  | plain
  | escape
  | code (window : HexWindow)
  deriving DecidableEq, Repr

/-- What the next character of a value belongs to. -/
inductive Mode
  | value
  /-- Right behind an opening bracket. -/
  | opened
  | afterValue
  | key
  | colon
  | word (next : Char) (rest : List Char)
  | number (n : Numeral)
  | text (isKey : Bool) (phase : TextPhase)
  deriving DecidableEq, Repr

end Skip

/-- A value that is being passed over, and the brackets that are open around the place that has been
reached, innermost first. -/
structure Skip where
  stack : List Bracket
  mode : Skip.Mode
  deriving DecidableEq, Repr

namespace Skip

def start : Skip := ⟨[], .value⟩

def closing : Bracket → Char
  | .list => ']'
  | .object => '}'

/-- The fault of a text that ends inside a bracket. -/
def unfinished : Bracket → Cause
  | .list => .unfinishedList
  | .object => .unfinishedObject

/-- The fault of a text that goes on behind a value inside a bracket. -/
def expectedEnd : Bracket → Cause
  | .list => .expectedListEnd
  | .object => .expectedObjectEnd

/-- A value ends with this character. -/
def close : List Bracket → Reading Skip Unit
  | [] => .last ()
  | stack => .more ⟨stack, .afterValue⟩

/-- Begin a value with its first character. -/
def begin (stack : List Bracket) (c : Char) : Reading Skip Unit :=
  match c with
  | 'n' => .more ⟨stack, .word 'u' ['l', 'l']⟩
  | 't' => .more ⟨stack, .word 'r' ['u', 'e']⟩
  | 'f' => .more ⟨stack, .word 'a' ['l', 's', 'e']⟩
  | '"' => .more ⟨stack, .text false .plain⟩
  | '[' => .more ⟨.list :: stack, .opened⟩
  | '{' => .more ⟨.object :: stack, .opened⟩
  | _ =>
    match Numeral.begin? c with
    | some n => .more ⟨stack, .number n⟩
    | none => .fault (.here .expectedValue 1)

/-- Begin a key with its opening quote. -/
def beginKey (stack : List Bracket) (c : Char) : Reading Skip Unit :=
  if c = '"' then .more ⟨stack, .text true .plain⟩ else .fault (.here .keyNotText 1)

/-- The character `c` right behind an opening bracket. -/
def stepOpened (c : Char) : List Bracket → Reading Skip Unit
  | [] => .before ()
  | b :: rest =>
    if c = closing b then close rest
    else match b with
      | .list => begin (b :: rest) c
      | .object => beginKey (b :: rest) c

/-- The character `c` behind a value. -/
def stepAfter (c : Char) : List Bracket → Reading Skip Unit
  | [] => .before ()
  | b :: rest =>
    if c = closing b then close rest
    else if c = ',' then .more ⟨b :: rest, match b with | .list => .value | .object => .key⟩
    else .fault (.here (expectedEnd b) 1)

/-- The character `c` between two tokens. -/
def stepBetween (s : Skip) (c : Char) (next : Reading Skip Unit) : Reading Skip Unit :=
  if isBlank c then .more s else next

/-- The character `c` in a string. -/
def stepText (stack : List Bracket) (isKey : Bool) (phase : TextPhase) (c : Char) :
    Reading Skip Unit :=
  match phase with
  | .plain =>
    if c = '"' then (if isKey then .more ⟨stack, .colon⟩ else close stack)
    else if c = '\\' then .more ⟨stack, .text isKey .escape⟩
    else if c.toNat < 0x20 then .fault (.here .controlCharacter 0)
    else .more ⟨stack, .text isKey .plain⟩
  | .escape =>
    if c = 'u' then .more ⟨stack, .text isKey (.code .start)⟩
    else if ['"', '\\', '/', 'b', 'f', 'n', 'r', 't'].contains c then
      .more ⟨stack, .text isKey .plain⟩
    else .fault (.here .invalidEscape 1)
  | .code w =>
    match w.step c with
    | .more w' => .more ⟨stack, .text isKey (.code w')⟩
    | .last _ | .before _ => .more ⟨stack, .text isKey .plain⟩
    | .fault e => .fault e

def step (s : Skip) (c : Char) : Reading Skip Unit :=
  match s.mode with
  | .value => stepBetween s c (begin s.stack c)
  | .opened => stepBetween s c (stepOpened c s.stack)
  | .afterValue => stepBetween s c (stepAfter c s.stack)
  | .key => stepBetween s c (beginKey s.stack c)
  | .colon =>
    stepBetween s c
      (if c = ':' then .more ⟨s.stack, .value⟩ else .fault (.here .expectedColon 1))
  | .word next rest =>
    if c = next then
      match rest with
      | [] => close s.stack
      | w :: ws => .more ⟨s.stack, .word w ws⟩
    else .fault (.here .expectedWord 1)
  | .number n =>
    match n.step c with
    | .more n' => .more ⟨s.stack, .number n'⟩
    | .last _ => close s.stack
    | .before _ =>
      if s.stack.isEmpty then .before ()
      else stepBetween ⟨s.stack, .afterValue⟩ c (stepAfter c s.stack)
    | .fault e => .fault e
  | .text isKey phase => stepText s.stack isKey phase c

/-- The text ends behind a value. -/
def finishAfter : List Bracket → Except Cause Unit
  | [] => .ok ()
  | b :: _ => .error (unfinished b)

/-- The text ends here. -/
def finish (s : Skip) : Except Cause Unit :=
  match s.mode with
  | .value | .word .. => .error .unfinishedValue
  | .opened | .afterValue => finishAfter s.stack
  | .key | .colon => .error .unfinishedObject
  | .number n => if n.complete then finishAfter s.stack else .error .invalidNumber
  | .text .. => .error .unfinishedText

end Skip
end GoShape.Json
