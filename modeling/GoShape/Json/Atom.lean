import GoShape.Json.Numeral
import GoShape.Json.Quoted

/-! Reading the values that hold no other value: words, numbers and strings. -/
namespace GoShape.Json

/-- A value without parts that is being read. -/
inductive Atom
  /-- The letters of a word that are still to come. -/
  | word (next : Char) (rest : List Char) (value : Json)
  | number (n : Numeral)
  | text (q : Quoted)

namespace Atom

/-- Begin with the first character of a value, if no bracket and nothing foreign. -/
def begin? (c : Char) : Option Atom :=
  match c with
  | 'n' => some (.word 'u' ['l', 'l'] .null)
  | 't' => some (.word 'r' ['u', 'e'] (.bool true))
  | 'f' => some (.word 'a' ['l', 's', 'e'] (.bool false))
  | '"' => some (.text .start)
  | _ => (Numeral.begin? c).map .number

def step : Atom → Char → Reading Atom Json
  | .word next rest v, c =>
    if c = next then
      match rest with
      | [] => .last v
      | w :: ws => .more (.word w ws v)
    else .fault (.here .expectedWord 1)
  | .number n, c => (n.step c).map .number .number
  | .text q, c => (q.step c).map .text .string

/-- The text ends here. -/
def finish : Atom → Except Cause Json
  | .word .. => .error .unfinishedValue
  | .number n => n.finish.map .number
  | .text _ => .error .unfinishedText

end Atom
end GoShape.Json
