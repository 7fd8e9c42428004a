import GoShape.Digit

/-! Dates with a time and an offset, found anywhere in a text. -/
namespace GoShape.Timestamp

/-- One place of a fixed pattern. -/
inductive Mark
  | digit
  | exactly (c : Char)
  deriving DecidableEq, Repr

def Mark.accepts (m : Mark) (c : Char) : Bool :=
  match m with
  | .digit => (Digit.ofChar? c).isSome
  | .exactly d => c == d

/-- What a text has behind a pattern, if the text begins with it. -/
def after? : List Mark → List Char → Option (List Char)
  | [], cs => some cs
  | _ :: _, [] => none
  | m :: ms, c :: cs => if m.accepts c then after? ms cs else none

/-- Year, month and day, a `T`, and the time to the second. -/
def dateTime : List Mark :=
  [.digit, .digit, .digit, .digit, .exactly '-', .digit, .digit, .exactly '-', .digit, .digit,
   .exactly 'T', .digit, .digit, .exactly ':', .digit, .digit, .exactly ':', .digit, .digit]

/-- The hours and minutes of an offset. -/
def clock : List Mark := [.digit, .digit, .exactly ':', .digit, .digit]

/-- A `Z`, or hours and minutes behind a sign. -/
def beginsWithOffset : List Char → Bool
  | [] => false
  | c :: cs => c == 'Z' || ((c == '+' || c == '-') && (after? clock cs).isSome)

/-- What stands behind the fraction of a second; a point needs a digit. -/
def afterFraction? : List Char → Option (List Char)
  | '.' :: d :: cs =>
    if (Digit.ofChar? d).isSome then some (cs.dropWhile fun c => (Digit.ofChar? c).isSome) else none
  | ['.'] => none
  | cs => some cs

/-- The text begins with a date, a time and an offset. -/
def begins (cs : List Char) : Bool :=
  match (after? dateTime cs).bind afterFraction? with
  | some rest => beginsWithOffset rest
  | none => false

/-- A date, a time and an offset stand somewhere in the text. -/
def occurs : List Char → Bool
  | [] => false
  | c :: cs => begins (c :: cs) || occurs cs

example : occurs "on 2024-01-15T10:30:00.25+01:00!".toList = true := by decide
example : occurs "2024-01-15T10:30:00".toList = false := by decide
example : occurs "2024-01-15T10:30:00.Z".toList = false := by decide

end GoShape.Timestamp
