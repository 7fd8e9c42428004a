/-! The non-negative numbers of the 64-bit binary floating-point format, and exact rounding of
fractions and decimals to the nearest of them. A number too large for the format is `none`. -/
namespace GoShape

/-- The number `mantissa * 2 ^ exponent`. -/
structure Binary64 where
  mantissa : Nat
  exponent : Int
  deriving DecidableEq, Repr

namespace Binary64

def zero : Binary64 := ⟨0, -1074⟩

/-- A quotient rounded to the nearest integer; a half goes to the even neighbour. -/
def roundDiv (a b : Nat) : Nat :=
  if 2 * (a % b) < b ∨ (2 * (a % b) = b ∧ a / b % 2 = 0) then a / b else a / b + 1

/-- The exponent of the greatest power of two that is at most `num / den`. -/
def floorLog2 (num den : Nat) : Int :=
  let l : Int := num.log2 - den.log2
  if den * Nat.pow 2 l.toNat ≤ num * Nat.pow 2 (-l).toNat then l else l - 1

/-- The spacing of the format's numbers around `num / den`, as an exponent of two. -/
def spacing (num den : Nat) : Int := max (floorLog2 num den - 52) (-1074)

/-- The number of the format nearest to `num / den`. -/
def nearest? (num den : Nat) : Option Binary64 :=
  if num = 0 then some zero
  else
    let e := spacing num den
    let m := roundDiv (num * Nat.pow 2 (-e).toNat) (den * Nat.pow 2 e.toNat)
    if e < 971 ∨ (e = 971 ∧ m < Nat.pow 2 53) then some ⟨m, e⟩ else none

/-- The number of the format nearest to `c * 10 ^ e`. A decimal below `10 ^ -324` rounds to zero
and one from `10 ^ 309` on is too large, so the powers of ten stay within reach of `c`. -/
def ofDecimal? (c : Nat) (e : Int) : Option Binary64 :=
  if c = 0 ∨ e ≤ -(c.log2 + 325) then some zero
  else if 309 ≤ e then none
  else nearest? (c * Nat.pow 10 e.toNat) (Nat.pow 10 (-e).toNat)

/-- The value as a fraction. -/
def numerator (x : Binary64) : Nat := x.mantissa * Nat.pow 2 x.exponent.toNat

def denominator (x : Binary64) : Nat := Nat.pow 2 (-x.exponent).toNat

/-- The value, if it is an integer. -/
def integer? (x : Binary64) : Option Nat :=
  if x.numerator % x.denominator = 0 then some (x.numerator / x.denominator) else none

def mul? (x y : Binary64) : Option Binary64 :=
  nearest? (x.numerator * y.numerator) (x.denominator * y.denominator)

/-- Division by a positive number. -/
def div? (x y : Binary64) : Option Binary64 :=
  nearest? (x.numerator * y.denominator) (x.denominator * y.numerator)

example : (ofDecimal? 19999999999999999999 (-19)).bind integer? = some 2 := by decide +kernel

example : ofDecimal? 1 (-400) = some zero ∧ ofDecimal? 1 400 = none := by decide +kernel

example : ofDecimal? 17976931348623157 292 = some ⟨2 ^ 53 - 1, 971⟩ := by decide +kernel

end Binary64
end GoShape
