import GoShape.Json.Reading

/-! Reading a number, one character at a time. -/
namespace GoShape.Json

/-- How much of a number has been read. -/
inductive Numeral.Phase
  | sign
  | zero
  | whole
  | point
  | fraction
  | mark
  | markSign
  | exponent
  deriving DecidableEq, Repr

/-- A number that is being read; the digits stand last one first. -/
structure Numeral where
  phase : Numeral.Phase
  negative : Bool
  whole : List Digit
  fraction : List Digit
  shrinks : Bool
  exponent : List Digit
  deriving DecidableEq, Repr

namespace Numeral

/-- Nothing but the sign has been read. -/
def signed (negative : Bool) : Numeral := ⟨.sign, negative, [], [], false, []⟩

/-- A first digit. A number that starts with zero has no other whole digit. -/
def first (n : Numeral) (d : Digit) : Numeral :=
  { n with phase := if d = 0 then .zero else .whole, whole := [d] }

/-- Begin a number with its first character, if it can begin one. -/
def begin? (c : Char) : Option Numeral :=
  if c = '-' then some (signed true) else (Digit.ofChar? c).map (signed false).first

/-- The number that has been read, wherever it may end. -/
def value (n : Numeral) : Number where
  negative := n.negative
  whole := n.whole.reverse
  fraction := n.fraction.reverse
  exponent := if n.exponent.isEmpty then none else some ⟨n.shrinks, n.exponent.reverse⟩

/-- A number may end here. -/
def complete (n : Numeral) : Bool :=
  n.phase = .zero || n.phase = .whole || n.phase = .fraction || n.phase = .exponent

/-- The end of the whole digits. -/
def afterWhole (n : Numeral) (c : Char) : Reading Numeral Number :=
  if c = '.' then .more { n with phase := .point }
  else if c = 'e' ∨ c = 'E' then .more { n with phase := .mark }
  else .before n.value

/-- The end of the fraction digits. -/
def afterFraction (n : Numeral) (c : Char) : Reading Numeral Number :=
  if c = 'e' ∨ c = 'E' then .more { n with phase := .mark } else .before n.value

def step (n : Numeral) (c : Char) : Reading Numeral Number :=
  match n.phase, Digit.ofChar? c with
  | .sign, some d => .more (n.first d)
  | .zero, some _ => .fault (.here .invalidNumber 1)
  | .whole, some d => .more { n with whole := d :: n.whole }
  | .point, some d => .more { n with phase := .fraction, fraction := [d] }
  | .fraction, some d => .more { n with fraction := d :: n.fraction }
  | .mark, some d | .markSign, some d => .more { n with phase := .exponent, exponent := [d] }
  | .exponent, some d => .more { n with exponent := d :: n.exponent }
  | .zero, none | .whole, none => n.afterWhole c
  | .fraction, none => n.afterFraction c
  | .exponent, none => .before n.value
  | .mark, none =>
    if c = '+' ∨ c = '-' then .more { n with phase := .markSign, shrinks := c = '-' }
    else .fault (.here .invalidNumber 1)
  | .sign, none | .point, none | .markSign, none => .fault (.here .invalidNumber 1)

/-- The text ends here. -/
def finish (n : Numeral) : Except Cause Number :=
  if n.complete then .ok n.value else .error .unfinishedValue

/-- A wrong character is taken in before it is refused in these places. -/
def takesWrong (n : Numeral) : Bool :=
  n.phase = .sign || n.phase = .mark || n.phase = .markSign

/-- Where a text is refused that has `c` and then `rest` behind a number. If the first byte of `c`
was taken in, it is the byte behind that one, if there is any. -/
def stopAt (taken : Bool) (p : Position) (c : Char) (rest : List Char) : Position :=
  if !taken then p.within c 1
  else if 1 < c.utf8Size then p.within c 2
  else match rest with
    | [] => p.past c
    | next :: _ => (p.past c).within next 1

/-- Read on to the end of a text that holds nothing but a number. -/
def readOn (n : Numeral) (p : Position) : List Char → Except ReadError Number
  | [] => n.finish.mapError (⟨·, p⟩)
  | c :: cs =>
    match n.step c with
    | .more n' => readOn n' (p.past c) cs
    | .last _ | .before _ => .error ⟨.invalidNumber, p.within c 1⟩
    | .fault _ => .error ⟨.invalidNumber, stopAt n.takesWrong p c cs⟩

/-- A text that is exactly one number. -/
def ofText (s : String) : Except ReadError Number :=
  match s.toList with
  | [] => .error ⟨.unfinishedValue, .start⟩
  | c :: cs =>
    match begin? c with
    | some n => n.readOn (Position.start.past c) cs
    | none => .error ⟨.invalidNumber, Position.start.within c 1⟩

end Numeral
end GoShape.Json
