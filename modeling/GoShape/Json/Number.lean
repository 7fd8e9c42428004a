import GoShape.Digit

/-! Numbers as they are written. Nothing is rounded here: a number keeps its sign, its digits
and its exponent, so that `1.50` and `1.5` stay apart until a value is asked for. -/
namespace GoShape.Json

/-- The power of ten at the end of a number. -/
structure Exponent where
  negative : Bool
  digits : List Digit
  deriving DecidableEq, Repr

namespace Exponent

def value (e : Exponent) : Int :=
  if e.negative then -(Digit.value e.digits : Int) else Digit.value e.digits

/-- The mark is a small letter and the sign is always written. -/
def text (e : Exponent) : String :=
  (if e.negative then "e-" else "e+") ++ Digit.text e.digits

end Exponent

/-- The parts of a written number; without fraction digits there is no point. -/
structure Number where
  negative : Bool
  whole : List Digit
  fraction : List Digit
  exponent : Option Exponent
  deriving DecidableEq, Repr

namespace Number

def text (n : Number) : String :=
  (if n.negative then "-" else "") ++ Digit.text n.whole ++
    (if n.fraction.isEmpty then "" else "." ++ Digit.text n.fraction) ++
    (n.exponent.map Exponent.text).getD ""

/-- The number is `coefficient * 10 ^ scale` with its sign. -/
def coefficient (n : Number) : Nat := Digit.value (n.whole ++ n.fraction)

def scale (n : Number) : Int := (n.exponent.map Exponent.value).getD 0 - n.fraction.length

/-- The integer of a number written with neither point nor exponent. -/
def integer? (n : Number) : Option Int :=
  if n.fraction.isEmpty && n.exponent.isNone then
    some (if n.negative then -(n.coefficient : Int) else n.coefficient)
  else none

/-- The integers of 64 bits, with or without sign. -/
def fitsWord (i : Int) : Bool := -(Nat.pow 2 63 : Int) ≤ i && i < (Nat.pow 2 64 : Int)

/-- The integer of 64 bits that is written here. -/
def word? (n : Number) : Option Int := n.integer?.filter fitsWord

/-- The integer of 64 bits that is written here, where the negative zero counts as a fraction. -/
def signedWord? (n : Number) : Option Int := n.word?.filter fun i => !(n.negative && i == 0)

example : (⟨true, [1, 0], [5], some ⟨false, [0, 7]⟩⟩ : Number).text = "-10.5e+07" := by decide

end Number
end GoShape.Json
