import GoShape.Json.Document

/-! JSON texts taken apart, as the grammar of the format has them: every number with its digits, every
string with its escapes, and the blanks wherever they may stand. A tree has the text it was taken
from, and at most one value: strings may hold half of a surrogate pair, brackets may be nested too
deep, and an object may promise a number it does not hold. -/
namespace GoShape.Json.Syntax

/-- The space at a place between two tokens. -/
structure Blanks where
  chars : List Char
  blank : ∀ c ∈ chars, isBlank c

def Blanks.none : Blanks := ⟨[], by simp⟩

/-- A power of ten behind a number. -/
structure Power where
  capital : Bool
  sign : Option Bool
  digits : List Digit
  digits_ne_nil : digits ≠ []

/-- A number. Without fraction digits it has no point, and a leading zero stands alone. -/
structure Literal where
  negative : Bool
  first : Digit
  more : List Digit
  fraction : List Digit
  power : Option Power
  zero_alone : first = 0 → more = []

/-- A hexadecimal digit in either case. -/
def Hex : Type := { c : Char // (hexDigit? c).isSome }

def Hex.value (h : Hex) : Nat := (hexDigit? h.val).get h.property

/-- What a string is made of: plain characters, escapes by a letter, and escapes by a code. -/
inductive Piece
  | plain (c : Char) (plain : c ≠ '"' ∧ c ≠ '\\' ∧ 0x20 ≤ c.toNat)
  | escape (c meaning : Char) (escaped : Quoted.escaped? c = some meaning)
  | code (a b c d : Hex)

/-- Something with the blanks around it. -/
structure Spaced (α : Type) where
  before : Blanks
  inside : α
  after : Blanks

/-- A value as it is written. The blanks of a bracket stand in front of its first item or member, if
it has any. -/
inductive Tree
  | null
  | bool (b : Bool)
  | number (l : Literal)
  | string (pieces : List Piece)
  | array (blanks : Blanks) (items : List (Spaced Tree))
  | object (blanks : Blanks) (members : List (Spaced (List Piece) × Spaced Tree))

/-- Induction over trees, with the items and members of a bracket taken together. -/
theorem Tree.induction {P : Tree → Prop} (null : P .null) (bool : ∀ b, P (.bool b))
    (number : ∀ l, P (.number l)) (string : ∀ ps, P (.string ps))
    (array : ∀ blanks items, (∀ x ∈ items, P x.inside) → P (.array blanks items))
    (object : ∀ blanks members, (∀ m ∈ members, P m.2.inside) → P (.object blanks members)) :
    ∀ t, P t
  | .null => null
  | .bool b => bool b
  | .number l => number l
  | .string ps => string ps
  | .array blanks items =>
    array blanks items fun x _ => Tree.induction null bool number string array object x.inside
  | .object blanks members =>
    object blanks members fun m _ => Tree.induction null bool number string array object m.2.inside
termination_by t => t
decreasing_by
  · have hx := List.sizeOf_lt_of_mem ‹x ∈ items›
    obtain ⟨before, t, after⟩ := x
    simp only [Spaced.mk.sizeOf_spec, Tree.array.sizeOf_spec] at hx ⊢
    omega
  · have hm := List.sizeOf_lt_of_mem ‹m ∈ members›
    obtain ⟨key, before, t, after⟩ := m
    simp only [Prod.mk.sizeOf_spec, Spaced.mk.sizeOf_spec, Tree.object.sizeOf_spec] at hm ⊢
    omega

/-! ### The text -/

def Power.chars (p : Power) : List Char :=
  (if p.capital then 'E' else 'e') ::
    (p.sign.elim [] fun negative => [if negative then '-' else '+']) ++ p.digits.map Digit.toChar

/-- The digits behind a point, if there are any, with the point. -/
def fractionChars (ds : List Digit) : List Char :=
  if ds.isEmpty then [] else '.' :: ds.map Digit.toChar

/-- What stands behind the first digit of a number. -/
def Literal.tailChars (l : Literal) : List Char :=
  l.more.map Digit.toChar ++ fractionChars l.fraction ++ l.power.elim [] Power.chars

def Literal.chars (l : Literal) : List Char :=
  (if l.negative then ['-'] else []) ++ l.first.toChar :: l.tailChars

def Piece.chars : Piece → List Char
  | .plain c _ => [c]
  | .escape c _ _ => ['\\', c]
  | .code a b c d => ['\\', 'u', a.val, b.val, c.val, d.val]

/-- A string behind its opening quote. -/
def piecesChars (ps : List Piece) : List Char := ps.flatMap Piece.chars ++ ['"']

theorem piecesChars_cons (p : Piece) (ps : List Piece) :
    piecesChars (p :: ps) = p.chars ++ piecesChars ps := by
  simp [piecesChars]

namespace Tree

mutual

def chars : Tree → List Char
  | .null => ['n', 'u', 'l', 'l']
  | .bool true => ['t', 'r', 'u', 'e']
  | .bool false => ['f', 'a', 'l', 's', 'e']
  | .number l => l.chars
  | .string ps => '"' :: piecesChars ps
  | .array blanks items => '[' :: (blanks.chars ++ itemsChars [] items ++ [']'])
  | .object blanks members => '{' :: (blanks.chars ++ membersChars [] members ++ ['}'])

/-- Items with commas between them; `lead` stands in front of the first. -/
def itemsChars (lead : List Char) : List (Spaced Tree) → List Char
  | [] => []
  | ⟨before, t, after⟩ :: items =>
    lead ++ before.chars ++ chars t ++ after.chars ++ itemsChars [','] items

def membersChars (lead : List Char) : List (Spaced (List Piece) × Spaced Tree) → List Char
  | [] => []
  | (key, ⟨before, t, after⟩) :: members =>
    lead ++ key.before.chars ++ '"' :: piecesChars key.inside ++ key.after.chars ++ ':' ::
      before.chars ++ chars t ++ after.chars ++ membersChars [','] members

end

end Tree

/-- A whole text. -/
def documentChars (d : Spaced Tree) : List Char :=
  d.before.chars ++ d.inside.chars ++ d.after.chars

/-! ### The value -/

def Power.exponent (p : Power) : Exponent := ⟨p.sign = some true, p.digits⟩

def Literal.number (l : Literal) : Number :=
  ⟨l.negative, l.first :: l.more, l.fraction, l.power.map Power.exponent⟩

def codeOf (a b c d : Hex) : Nat := 16 * (16 * (16 * a.value + b.value) + c.value) + d.value

/-- The characters of a string. The two halves of a surrogate pair stand next to each other. -/
def decode? : List Piece → Option (List Char)
  | [] => some []
  | .plain c _ :: ps => (decode? ps).map (c :: ·)
  | .escape _ c _ :: ps => (decode? ps).map (c :: ·)
  | .code a b c d :: ps =>
    if Quoted.isTrailing (codeOf a b c d) then none
    else if Quoted.isLeading (codeOf a b c d) then
      match ps with
      | .code a' b' c' d' :: ps =>
        if Quoted.isTrailing (codeOf a' b' c' d') then
          (decode? ps).map (Quoted.pair (codeOf a b c d) (codeOf a' b' c' d') :: ·)
        else none
      | _ => none
    else (decode? ps).map (Char.ofNat (codeOf a b c d) :: ·)

def text? (ps : List Piece) : Option String := (decode? ps).map String.ofList

/-- The first key of an object. -/
def firstKey? : List (Spaced (List Piece) × Spaced Tree) → Option String
  | [] => none
  | m :: _ => text? m.1.inside

/-- The number that a string holds. -/
def Tree.quotedNumber? : Tree → Option Number
  | .string ps => (text? ps).bind fun s => (Numeral.ofText s).toOption
  | _ => none

/-- The number that an object holds under its one key. -/
def heldNumber? : List (Spaced (List Piece) × Spaced Tree) → Option Number
  | [(_, ⟨_, t, _⟩)] => t.quotedNumber?
  | _ => none

/-- Members set one after the other. -/
def setMembers (ms new : List (String × Json)) : List (String × Json) :=
  new.foldl (fun ms m => setMember m.1 m.2 ms) ms

namespace Tree

mutual

/-- The value of a text whose brackets are nested at most `depth` deep. -/
def value? (depth : Nat) : Tree → Option Json
  | .null => some .null
  | .bool b => some (.bool b)
  | .number l => some (.number l.number)
  | .string ps => (text? ps).map .string
  | .array _ items =>
    match depth with
    | 0 => none
    | depth + 1 => (itemValues? depth items).map .array
  | .object _ members =>
    match depth with
    | 0 => none
    | depth + 1 =>
      if firstKey? members = some Document.numeralKey then (heldNumber? members).map .number
      else (memberValues? depth members).map fun ms => .object (setMembers [] ms)

def itemValues? (depth : Nat) : List (Spaced Tree) → Option (List Json)
  | [] => some []
  | ⟨_, t, _⟩ :: items =>
    (value? depth t).bind fun v => (itemValues? depth items).map (v :: ·)

def memberValues? (depth : Nat) :
    List (Spaced (List Piece) × Spaced Tree) → Option (List (String × Json))
  | [] => some []
  | (key, ⟨_, t, _⟩) :: members =>
    (text? key.inside).bind fun k => (value? depth t).bind fun v =>
      (memberValues? depth members).map ((k, v) :: ·)

end

end Tree
end GoShape.Json.Syntax
