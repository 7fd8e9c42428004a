/-! Decimal digits and the numbers that sequences of them write. -/
namespace GoShape

/-- One of the ten decimal digits. -/
abbrev Digit := Fin 10

namespace Digit

/-- The digit a character writes; only the ASCII digits count. -/
def ofChar? (c : Char) : Option Digit :=
  if h : 48 ≤ c.toNat ∧ c.toNat < 58 then some ⟨c.toNat - 48, by omega⟩ else none

def toChar (d : Digit) : Char := Char.ofNat (48 + d.val)

theorem ofChar?_toChar (d : Digit) : ofChar? d.toChar = some d := by
  revert d; decide

theorem toChar_of_ofChar? {c : Char} {d : Digit} (h : ofChar? c = some d) : d.toChar = c := by
  unfold ofChar? at h
  split at h
  · rename_i hc
    obtain rfl := Option.some.inj h
    have : 48 + (c.toNat - 48) = c.toNat := by omega
    simp [toChar, this]
  · cases h

/-- The number a sequence of digits writes, the most significant digit first. -/
def value (ds : List Digit) : Nat := ds.foldl (fun n d => 10 * n + d.val) 0

@[simp] theorem value_nil : value [] = 0 := rfl

theorem value_append_singleton (ds : List Digit) (d : Digit) :
    value (ds ++ [d]) = 10 * value ds + d.val := by
  simp [value]

def text (ds : List Digit) : String := String.ofList (ds.map toChar)

end Digit
end GoShape
