import GoShape.Json.Fault

/-! What one character does to a token that is being read, and the smallest such token: four
hexadecimal digits. -/
namespace GoShape.Json

/-- The token goes on, ends with this character, has ended before it, or is at fault. -/
inductive Reading (σ α : Type)
  | more (state : σ)
  | last (value : α)
  | before (value : α)
  | fault (fault : Fault)

namespace Reading

/-- Embed the states and the values of one reader into another's. -/
def map {σ τ α β : Type} (f : σ → τ) (g : α → β) : Reading σ α → Reading τ β
  | .more s => .more (f s)
  | .last a => .last (g a)
  | .before a => .before (g a)
  | .fault e => .fault e

end Reading

/-- The value of a hexadecimal digit in either case. -/
def hexDigit? (c : Char) : Option Nat :=
  if '0' ≤ c ∧ c ≤ '9' then some (c.toNat - 48)
  else if 'a' ≤ c ∧ c ≤ 'f' then some (c.toNat - 87)
  else if 'A' ≤ c ∧ c ≤ 'F' then some (c.toNat - 55)
  else none

/-- Four bytes that should be hexadecimal digits: how many are read, and their number so far
unless one of them is something else. All four are taken before a wrong one counts. -/
structure HexWindow where
  bytes : Nat
  code : Option Nat
  deriving DecidableEq, Repr

namespace HexWindow

def start : HexWindow := ⟨0, some 0⟩

def step (w : HexWindow) (c : Char) : Reading HexWindow Nat :=
  let bytes := w.bytes + c.utf8Size
  let code := w.code.bind fun n => (hexDigit? c).map fun d => 16 * n + d
  if bytes < 4 then .more ⟨bytes, code⟩
  else match code with
    | some n => .last n
    | none => .fault (.here .invalidEscape (4 - w.bytes))

end HexWindow
end GoShape.Json
