import GoShape.Digit

/-! Sizes given as text. -/
namespace GoShape.Command

/-- The number that a sequence of characters writes, if all of them are digits and there is one. -/
def digits? (cs : List Char) : Option Nat :=
  if cs.isEmpty then none else (cs.mapM Digit.ofChar?).map Digit.value

/-- An integer of 64 bits without sign: digits, and a plus in front if one likes. -/
def size? (s : String) : Option Nat :=
  (match s.toList with
    | '+' :: cs => digits? cs
    | cs => digits? cs).filter (· < Nat.pow 2 64)

example : size? "007" = some 7 ∧ size? "+5" = some 5 ∧ size? "" = none ∧ size? "-1" = none := by
  decide

end GoShape.Command
