/-! The time of a log entry, from the microseconds since the beginning of 1970. -/
namespace GoShape.Command.Clock

/-- Year, month and day of a day counted from the beginning of 1970. Years begin in March here, so
that the leap day is the last one. -/
def civil (days : Nat) : Nat × Nat × Nat :=
  let shifted := days + 719468
  let era := shifted / 146097
  let dayOfEra := shifted % 146097
  let yearOfEra := (dayOfEra - dayOfEra / 1460 + dayOfEra / 36524 - dayOfEra / 146096) / 365
  let dayOfYear := dayOfEra - (365 * yearOfEra + yearOfEra / 4 - yearOfEra / 100)
  let march := (5 * dayOfYear + 2) / 153
  let month := if march < 10 then march + 3 else march - 9
  (yearOfEra + 400 * era + (if month ≤ 2 then 1 else 0), month, dayOfYear - (153 * march + 2) / 5 + 1)

/-- A number with zeros in front, up to a width. -/
def padded (width n : Nat) : String :=
  let digits := Nat.toDigits 10 n
  String.ofList (List.replicate (width - digits.length) '0' ++ digits)

def text (micros : Nat) : String :=
  let seconds := micros / 1000000
  let (y, m, d) := civil (seconds / 86400)
  padded 4 y ++ "-" ++ padded 2 m ++ "-" ++ padded 2 d ++ "T" ++
    padded 2 (seconds / 3600 % 24) ++ ":" ++ padded 2 (seconds / 60 % 60) ++ ":" ++
    padded 2 (seconds % 60) ++ "." ++ padded 6 (micros % 1000000) ++ "Z"

example : civil 19782 = (2024, 2, 29) ∧ civil 0 = (1970, 1, 1) := by decide

end GoShape.Command.Clock
