import GoShape.Json.Atom

/-! Reading a whole text as one value. A machine takes the text one character at a time; around the
place it is at, it keeps a stack of the lists and objects that are still open. -/
namespace GoShape.Json

/-- What a value is wanted for. -/
inductive Frame
  /-- The next item of a list; the items before it stand last one first. -/
  | list (items : List Json)
  /-- The member `key` of an object. -/
  | object (members : List (String × Json)) (key : String)
  /-- The text of a number that is written as an object. -/
  | numeral

namespace Document

/-- A place between two tokens, named for what may stand there. -/
inductive Place
  | value
  | listStart
  | afterItem (items : List Json)
  | nextItem (items : List Json)
  | objectStart
  | colon (members : List (String × Json)) (key : String)
  | afterMember (members : List (String × Json))
  | nextMember (members : List (String × Json))
  | numeralColon
  | numeralEnd (n : Number)
  | done (v : Json)

/-- A place between two tokens and what is open around it, innermost first. -/
structure Gap where
  stack : List Frame
  place : Place

/-- The machine is between two tokens, in a value without parts, or in a key. -/
inductive State
  | gap (g : Gap)
  | atom (stack : List Frame) (a : Atom)
  | key (stack : List Frame) (members : List (String × Json)) (q : Quoted)

def start : State := .gap ⟨[], .value⟩

/-- An object whose first key is this one is a number. -/
def numeralKey : String := "$serde_json::private::Number"

/-- So many brackets may be open at once. -/
def maxDepth : Nat := 127

/-- A number that is written as an object has its text under the one key. -/
def numeralOf (bytes : Nat) (stack : List Frame) : Json → Except Fault Gap
  | .string s =>
    match Numeral.ofText s with
    | .ok n => .ok ⟨stack, .numeralEnd n⟩
    | .error e => .error (.inside e)
  | v => .error (.here (.wrongType v "string containing a number") bytes)

/-- A value has ended, `bytes` bytes into the current character. -/
def deliver (bytes : Nat) (stack : List Frame) (v : Json) : Except Fault Gap :=
  match stack with
  | [] => .ok ⟨[], .done v⟩
  | .list items :: rest => .ok ⟨rest, .afterItem (v :: items)⟩
  | .object members key :: rest => .ok ⟨rest, .afterMember (setMember key v members)⟩
  | .numeral :: rest => numeralOf bytes rest v

/-- A closing bracket ends a value. -/
def close (stack : List Frame) (v : Json) : Except Fault State := (deliver 1 stack v).map .gap

/-- Enter a list or an object, unless too many are open. -/
def enter (stack : List Frame) (place : Place) : Except Fault State :=
  if stack.length < maxDepth then .ok (.gap ⟨stack, place⟩) else .error (.here .tooDeep 1)

/-- Begin a value with its first character. -/
def begin (stack : List Frame) (c : Char) : Except Fault State :=
  match Atom.begin? c with
  | some a => .ok (.atom stack a)
  | none =>
    match c, stack with
    | '[', .numeral :: rest => (numeralOf 0 rest (.array [])).map .gap
    | '{', .numeral :: rest => (numeralOf 0 rest (.object [])).map .gap
    | '[', _ => enter stack .listStart
    | '{', _ => enter stack .objectStart
    | _, _ => .error (.here .expectedValue 1)

/-- The place behind a key. -/
def afterKey (members : List (String × Json)) (key : String) : Place :=
  if members.isEmpty && key == numeralKey then .numeralColon else .colon members key

/-- A character that is not blank, between two tokens. -/
def stepPlace (stack : List Frame) (c : Char) : Place → Except Fault State
  | .value => begin stack c
  | .listStart =>
    if c = ']' then close stack (.array []) else begin (.list [] :: stack) c
  | .afterItem items =>
    if c = ',' then .ok (.gap ⟨stack, .nextItem items⟩)
    else if c = ']' then close stack (.array items.reverse)
    else .error (.here .expectedListEnd 1)
  | .nextItem items =>
    if c = ']' then .error (.here .trailingComma 1) else begin (.list items :: stack) c
  | .objectStart =>
    if c = '"' then .ok (.key stack [] .start)
    else if c = '}' then close stack (.object [])
    else .error (.here .keyNotText 1)
  | .colon members key =>
    if c = ':' then .ok (.gap ⟨.object members key :: stack, .value⟩)
    else .error (.here .expectedColon 1)
  | .afterMember members =>
    if c = ',' then .ok (.gap ⟨stack, .nextMember members⟩)
    else if c = '}' then close stack (.object members)
    else .error (.here .expectedObjectEnd 1)
  | .nextMember members =>
    if c = '"' then .ok (.key stack members .start)
    else if c = '}' then .error (.here .trailingComma 1)
    else .error (.here .keyNotText 1)
  | .numeralColon =>
    if c = ':' then .ok (.gap ⟨.numeral :: stack, .value⟩)
    else .error (.here .expectedColon 1)
  | .numeralEnd n =>
    if c = '}' then close stack (.number n)
    else if c = ',' then .error (.here .trailingComma 1)
    else .error (.here .trailingCharacters 1)
  | .done _ => .error (.here .trailingCharacters 1)

/-- Blanks between tokens change nothing. -/
def stepGap (g : Gap) (c : Char) : Except Fault State :=
  if isBlank c then .ok (.gap g) else stepPlace g.stack c g.place

def step (s : State) (c : Char) : Except Fault State :=
  match s with
  | .gap g => stepGap g c
  | .atom stack a =>
    match a.step c with
    | .more a' => .ok (.atom stack a')
    | .last v => close stack v
    | .before v => (deliver 0 stack v).bind (stepGap · c)
    | .fault e => .error e
  | .key stack members q =>
    match q.step c with
    | .more q' => .ok (.key stack members q')
    | .last k | .before k => .ok (.gap ⟨stack, afterKey members k⟩)
    | .fault e => .error e

/-- The text ends between two tokens. -/
def finishPlace : Place → Except Cause Json
  | .done v => .ok v
  | .value | .nextItem _ | .nextMember _ => .error .unfinishedValue
  | .listStart | .afterItem _ => .error .unfinishedList
  | .objectStart | .colon _ _ | .afterMember _ | .numeralColon | .numeralEnd _ =>
    .error .unfinishedObject

/-- The text ends here. -/
def finish : State → Except Fault Json
  | .gap g => (finishPlace g.place).mapError (.here · 0)
  | .atom stack a =>
    match a.finish with
    | .ok v => (deliver 0 stack v).bind fun g => (finishPlace g.place).mapError (.here · 0)
    | .error cause => .error (.here cause 0)
  | .key .. => .error (.here .unfinishedText 0)

/-- Take the rest of a text, which begins at `p`. -/
def run (s : State) (p : Position) : List Char → Except ReadError Json
  | [] => (finish s).mapError (·.locateEnd p)
  | c :: cs =>
    match step s c with
    | .ok s' => run s' (p.past c) cs
    | .error e => .error (e.locate p c)

end Document

/-- The value a text holds, or the first thing that is wrong with the text. -/
def parse (text : String) : Except ReadError Json :=
  Document.run Document.start .start text.toList

end GoShape.Json
