import GoShape.Binary64

/-! The shortest decimal text that reads back as a given number. -/
namespace GoShape.Binary64

/-- How many decimal digits a number has. -/
def decimalLength (n : Nat) : Nat := (Nat.toDigits 10 n).length

/-- The exponent of the greatest power of ten that is at most `num / den`. -/
def floorLog10 (num den : Nat) : Int :=
  let l : Int := decimalLength num - decimalLength den
  if den * Nat.pow 10 l.toNat ≤ num * Nat.pow 10 (-l).toNat then l else l - 1

/-- The one or two decimals `c * 10 ^ e` next to `x`, the nearer one first and of two equally
near ones the even one. -/
def neighbours (x : Binary64) (e : Int) : List Nat :=
  let a := x.numerator * Nat.pow 10 (-e).toNat
  let b := x.denominator * Nat.pow 10 e.toNat
  let c := roundDiv a b
  if a % b = 0 then [c] else [c, if c = a / b then c + 1 else c - 1]

/-- The shortest decimal `c * 10 ^ e` that reads back as `x`, tried with `digits`, `digits + 1`, …
significant digits. -/
def shortestFrom (x : Binary64) (top : Int) (digits : Nat) : Nat → Nat × Int
  | 0 => ((neighbours x (top + 1 - digits)).headD 0, top + 1 - digits)
  | more + 1 =>
    let e := top + 1 - digits
    match (neighbours x e).find? fun c => ofDecimal? c e == ofDecimalSelf x with
    | some c => (c, e)
    | none => shortestFrom x top (digits + 1) more
where
  /-- `x` in the form in which rounding gives it. -/
  ofDecimalSelf (x : Binary64) : Option Binary64 := nearest? x.numerator x.denominator

/-- Seventeen digits are always enough. -/
def shortest (x : Binary64) : Nat × Int :=
  shortestFrom x (floorLog10 x.numerator x.denominator) 1 16

/-- Digits with the point after the first of them and the exponent behind, unless the number lies
between `10 ^ -5` and `10 ^ 16`; then the digits stand around a point in their place. -/
def text (x : Binary64) : String :=
  if x.mantissa = 0 then "0.0"
  else
    let (c, e) := shortest x
    let digits := ((Nat.toDigits 10 c).reverse.dropWhile (· == '0')).reverse
    let top : Int := decimalLength c + e - 1
    if top < -5 ∨ 15 < top then
      let tail := digits.drop 1
      String.ofList (digits.take 1 ++ (if tail.isEmpty then [] else '.' :: tail)) ++
        "e" ++ (if top < 0 then "-" else "+") ++ toString top.natAbs
    else if top < 0 then
      "0." ++ String.ofList (List.replicate (top.natAbs - 1) '0' ++ digits)
    else
      let whole := digits.take (top.toNat + 1)
      let tail := digits.drop (top.toNat + 1)
      String.ofList (whole ++ List.replicate (top.toNat + 1 - whole.length) '0' ++
        '.' :: (if tail.isEmpty then ['0'] else tail))

end GoShape.Binary64
