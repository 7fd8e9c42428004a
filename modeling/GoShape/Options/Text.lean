import GoShape.Json.Atom
import GoShape.Json.Skip
import GoShape.Options

/-! Options written as JSON: an object with a member for each setting, in which unknown members are
passed over, or a list of the settings in their order. A setting that is missing or null is left
open. -/
namespace GoShape.Options.Text
open Json

inductive Setting
  | typeName
  | maxInputBytes
  deriving DecidableEq, Repr

def Setting.key : Setting → String
  | .typeName => "type_name"
  | .maxInputBytes => "max_input_bytes"

def Setting.ofKey? (key : String) : Option Setting :=
  if key == Setting.typeName.key then some .typeName
  else if key == Setting.maxInputBytes.key then some .maxInputBytes
  else none

/-- The settings that have been met, open or not. -/
structure Draft where
  typeName : Option (Option String)
  maxInputBytes : Option (Option Nat)
  deriving DecidableEq, Repr

namespace Draft

def has (d : Draft) : Setting → Bool
  | .typeName => d.typeName.isSome
  | .maxInputBytes => d.maxInputBytes.isSome

def options (d : Draft) : Options := ⟨d.typeName.join, d.maxInputBytes.join⟩

end Draft

/-- What a size must be. -/
def sizeWanted : String := "usize"

/-- A size is an integer of 64 bits. Any other number counts as a fraction, and so does the negative
zero. -/
def size (n : Number) : Except Cause Nat :=
  match n.signedWord? with
  | some i => if 0 ≤ i then .ok i.toNat else .error (.outOfBounds i sizeWanted)
  | none =>
    match n.estimate? with
    | some magnitude => .error (.fraction n.negative magnitude sizeWanted)
    | none => .error .numberOutOfRange

/-- Give a setting its value. -/
def assign (d : Draft) (setting : Setting) (v : Json) : Except Cause Draft :=
  match setting, v with
  | .typeName, .null => .ok { d with typeName := some none }
  | .typeName, .string name => .ok { d with typeName := some (some name) }
  | .typeName, v => .error (.wrongType v "a string")
  | .maxInputBytes, .null => .ok { d with maxInputBytes := some none }
  | .maxInputBytes, .number n => (size n).map fun k => { d with maxInputBytes := some (some k) }
  | .maxInputBytes, v => .error (.wrongType v sizeWanted)

/-- Where the value of a setting stands. -/
inductive Slot
  | member
  | item
  deriving DecidableEq, Repr

/-- A place between two tokens, named for what may stand there. -/
inductive Place
  | root
  | objectStart
  | colon (setting : Setting)
  | unknownColon
  /-- Behind a key that has been met before. -/
  | repeated (setting : Setting)
  | value (setting : Setting)
  | afterMember
  | nextMember
  | listStart
  | afterItem
  | nextItem
  /-- Behind the last item there may be, and behind a comma there. -/
  | listFull
  | listOver
  | done
  deriving DecidableEq, Repr

inductive State
  | gap (draft : Draft) (place : Place)
  /-- In a value that is not at all of the right form. -/
  | wrongRoot (a : Atom)
  | key (draft : Draft) (q : Quoted)
  | atom (draft : Draft) (slot : Slot) (setting : Setting) (a : Atom)
  | skip (draft : Draft) (s : Skip)

def start : State := .gap ⟨none, none⟩ .root

def fault {α : Type} (cause : Cause) (bytes : Nat) : Except Fault α := .error (.here cause bytes)

/-- A root that is neither an object nor a list. -/
def wrongRoot (v : Json) : Cause := .wrongType v "struct ConvertOptions"

/-- The place behind the value of a setting. -/
def afterValue : Slot → Setting → Place
  | .member, _ => .afterMember
  | .item, .typeName => .afterItem
  | .item, .maxInputBytes => .listFull

/-- The place behind a key. -/
def afterKey (draft : Draft) (key : String) : Place :=
  match Setting.ofKey? key with
  | none => .unknownColon
  | some setting => if draft.has setting then .repeated setting else .colon setting

/-- Begin the value of a setting with its first character; a list or an object is none. -/
def begin (draft : Draft) (slot : Slot) (setting : Setting) (c : Char) :
    Except Fault State :=
  match Atom.begin? c with
  | some a => .ok (.atom draft slot setting a)
  | none =>
    match c with
    | '[' => refuse (.array [])
    | '{' => refuse (.object [])
    | _ => fault .expectedValue 1
where
  refuse (v : Json) : Except Fault State :=
    match assign draft setting v with
    | .ok draft => .ok (.gap draft (afterValue slot setting))
    | .error cause => fault cause 0

/-- A character that is not blank, between two tokens. -/
def stepPlace (draft : Draft) (c : Char) : Place → Except Fault State
  | .root =>
    match Atom.begin? c, c with
    | some a, _ => .ok (.wrongRoot a)
    | none, '[' => .ok (.gap draft .listStart)
    | none, '{' => .ok (.gap draft .objectStart)
    | none, _ => fault .expectedValue 1
  | .objectStart =>
    if c = '"' then .ok (.key draft .start)
    else if c = '}' then .ok (.gap draft .done)
    else fault .keyNotText 1
  | .colon setting =>
    if c = ':' then .ok (.gap draft (.value setting)) else fault .expectedColon 1
  | .unknownColon => if c = ':' then .ok (.skip draft .start) else fault .expectedColon 1
  | .repeated setting => fault (.repeatedField setting.key) (if c = '}' then 1 else 0)
  | .value setting => begin draft .member setting c
  | .afterMember =>
    if c = ',' then .ok (.gap draft .nextMember)
    else if c = '}' then .ok (.gap draft .done)
    else fault .expectedObjectEnd 1
  | .nextMember =>
    if c = '"' then .ok (.key draft .start)
    else if c = '}' then fault .trailingComma 1
    else fault .keyNotText 1
  | .listStart =>
    if c = ']' then .ok (.gap draft .done) else begin draft .item .typeName c
  | .afterItem =>
    if c = ',' then .ok (.gap draft .nextItem)
    else if c = ']' then .ok (.gap draft .done)
    else fault .expectedListEnd 1
  | .nextItem =>
    if c = ']' then fault .trailingComma 1 else begin draft .item .maxInputBytes c
  | .listFull =>
    if c = ',' then .ok (.gap draft .listOver)
    else if c = ']' then .ok (.gap draft .done)
    else fault .trailingCharacters 1
  | .listOver => fault (if c = ']' then .trailingComma else .trailingCharacters) 1
  | .done => fault .trailingCharacters 1

def stepGap (draft : Draft) (c : Char) (place : Place) : Except Fault State :=
  if isBlank c then .ok (.gap draft place) else stepPlace draft c place

/-- A positive exponent of more than 31 bits makes a size too large at once, unless it is zero. -/
def exponentTooLarge (setting : Setting) : Atom → Bool
  | .number n =>
    setting = .maxInputBytes && !n.shrinks && Nat.pow 2 31 ≤ Digit.value n.exponent.reverse &&
      n.value.coefficient != 0
  | _ => false

def step (s : State) (c : Char) : Except Fault State :=
  match s with
  | .gap draft place => stepGap draft c place
  | .wrongRoot a =>
    match a.step c with
    | .more a' => .ok (.wrongRoot a')
    | .last v => fault (wrongRoot v) 1
    | .before v => fault (wrongRoot v) 0
    | .fault e => .error e
  | .key draft q =>
    match q.step c with
    | .more q' => .ok (.key draft q')
    | .last k | .before k => .ok (.gap draft (afterKey draft k))
    | .fault e => .error e
  | .atom draft slot setting a =>
    match a.step c with
    | .more a' =>
      if exponentTooLarge setting a' then fault .numberOutOfRange 1
      else .ok (.atom draft slot setting a')
    | .last v =>
      match assign draft setting v with
      | .ok draft => .ok (.gap draft (afterValue slot setting))
      | .error cause => fault cause 1
    | .before v =>
      match assign draft setting v with
      | .ok draft => stepGap draft c (afterValue slot setting)
      | .error cause => fault cause 0
    | .fault e => .error e
  | .skip draft k =>
    match k.step c with
    | .more k' => .ok (.skip draft k')
    | .last _ => .ok (.gap draft .afterMember)
    | .before _ => stepGap draft c .afterMember
    | .fault e => .error e

/-- The text ends between two tokens. -/
def finishPlace (draft : Draft) : Place → Except Cause Options
  | .done => .ok draft.options
  | .root | .value _ | .nextMember | .nextItem => .error .unfinishedValue
  | .objectStart | .colon _ | .unknownColon | .afterMember => .error .unfinishedObject
  | .listStart | .afterItem | .listFull => .error .unfinishedList
  | .listOver => .error .trailingCharacters
  | .repeated setting => .error (.repeatedField setting.key)

/-- The text ends here. -/
def finish : State → Except Cause Options
  | .gap draft place => finishPlace draft place
  | .wrongRoot a => a.finish.bind fun v => .error (wrongRoot v)
  | .key .. => .error .unfinishedText
  | .atom draft slot setting a =>
    a.finish.bind fun v => (assign draft setting v).bind fun draft =>
      finishPlace draft (afterValue slot setting)
  | .skip draft k => k.finish.bind fun _ => finishPlace draft .afterMember

/-- Take the rest of a text, which begins at `p`. -/
def run (s : State) (p : Position) : List Char → Except ReadError Options
  | [] => (finish s).mapError (⟨·, p⟩)
  | c :: cs =>
    match step s c with
    | .ok s' => run s' (p.past c) cs
    | .error e => .error (e.locate p c)

end Text

/-- The options that a text holds, or the first thing that is wrong with the text. -/
def parse (text : String) : Except Json.ReadError Options :=
  Text.run Text.start .start text.toList

end GoShape.Options
