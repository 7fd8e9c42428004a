import GoShape.Json.Number
import GoShape.Binary64.Shortest

/-! The values of written numbers in binary: the nearest one, and the one that messages show. -/
namespace GoShape.Json.Number

/-- The magnitude of the number, rounded once. -/
def nearest? (n : Number) : Option Binary64 := Binary64.ofDecimal? n.coefficient n.scale

/-- The value nearest to a number, if it is an integer. -/
def nearestInteger? (n : Number) : Option Int :=
  (n.nearest?.bind Binary64.integer?).map fun m => if n.negative then -m else m

/-- Read digits after those of `n` for as long as the result fits in 64 bits, and count the
digits that are left. -/
def fillWord (n : Nat) : List Digit → Nat × Nat
  | [] => (n, 0)
  | d :: ds => if 10 * n + d.val < Nat.pow 2 64 then fillWord (10 * n + d.val) ds else (n, ds.length + 1)

/-- The leading digits of the number as a 64-bit integer, with the power of ten that goes with it.
Whole digits that do not fit raise the power and fraction digits that do not fit are dropped. -/
def leadingWord (n : Number) : Nat × Int :=
  let (w, excess) := fillWord 0 n.whole
  let (c, dropped) := fillWord w n.fraction
  (c, (n.exponent.map Exponent.value).getD 0 + excess - (n.fraction.length - dropped : Nat))

/-- Multiply by a power of ten of at most 308, dividing by `10 ^ 308` as long as that is needed. -/
def scaleByTen? (x : Binary64) (e : Int) : Option Binary64 :=
  if x.mantissa = 0 then some x
  else if 309 ≤ e then none
  else if 0 ≤ e then (Binary64.ofDecimal? 1 e).bind x.mul?
  else if -309 < e then (Binary64.ofDecimal? 1 (-e)).bind x.div?
  else ((Binary64.ofDecimal? 1 308).bind x.div?).bind (scaleByTen? · (e + 308))
termination_by (-e).toNat
decreasing_by omega

/-- The magnitude of the number, by one multiplication or division of its leading word. The last
digit may differ from the nearest value's. -/
def estimate? (n : Number) : Option Binary64 :=
  let (c, e) := n.leadingWord
  (Binary64.nearest? c 1).bind (scaleByTen? · e)

end GoShape.Json.Number
