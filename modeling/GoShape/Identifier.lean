import GoShape.Digit
import GoShape.Initialism

/-! Exported names for keys. Words begin with a capital, initialisms are capitals throughout, and
only ASCII letters and digits are kept. -/
namespace GoShape.Identifier

/-- The name of a key without a letter or a digit. -/
def failed : String := "NAMING_FAILED"

/-- The word for a digit at the beginning of a name. -/
def digitWord : Digit → String
  | 0 => "Zero_"
  | 1 => "One_"
  | 2 => "Two_"
  | 3 => "Three_"
  | 4 => "Four_"
  | 5 => "Five_"
  | 6 => "Six_"
  | 7 => "Seven_"
  | 8 => "Eight_"
  | 9 => "Nine_"

/-- No name begins with a digit: a number is introduced as such, and otherwise the first digit is
written as a word. -/
def spellDigits : List Char → List Char
  | [] => []
  | c :: cs =>
    match Digit.ofChar? c with
    | none => c :: cs
    | some d =>
      if cs.all fun c => (Digit.ofChar? c).isSome then 'N' :: 'u' :: 'm' :: c :: cs
      else (digitWord d).toList ++ cs

/-- What becomes of a small letter: it begins a word, belongs to a word that is an initialism, or
stands inside a word that is none. -/
inductive Casing
  | wordStart
  | initialism
  | inWord
  deriving DecidableEq, Repr

/-- The small letters at the beginning of a text. -/
def smallRun (cs : List Char) : List Char := cs.takeWhile isSmall

/-- Capitalize the runs of small letters that do not follow a letter: the first letter, or the whole
run if it is an initialism. -/
def capitalizeWords : Casing → List Char → List Char
  | _, [] => []
  | casing, c :: cs =>
    if isSmall c then
      match casing with
      | .wordStart =>
        let casing := if isInitialism (c :: smallRun cs) then .initialism else .inWord
        capital c :: capitalizeWords casing cs
      | .initialism => capital c :: capitalizeWords .initialism cs
      | .inWord => c :: capitalizeWords .inWord cs
    else c :: capitalizeWords (if isCapital c then .inWord else .wordStart) cs

/-- Capitalize the runs of small letters that spell an initialism together with the capital before
them. `inRun` says that the text begins inside such a run. -/
def capitalizeRuns (inRun : Bool) : List Char → List Char
  | [] => []
  | c :: cs =>
    if isSmall c then (if inRun then capital c else c) :: capitalizeRuns inRun cs
    else c :: capitalizeRuns (isCapital c && isInitialism (c :: smallRun cs)) cs

/-- The name of a key before the empty name is replaced. -/
def formatChars (raw : List Char) : List Char :=
  (capitalizeRuns false (capitalizeWords .wordStart (spellDigits raw))).filter isAlphanumeric

/-- The exported name of a key. -/
def format (raw : String) : String :=
  let name := formatChars raw.toList
  if name.isEmpty then failed else String.ofList name

example : format "user_id" = "UserID" := by decide +kernel
example : format "3d_model" = "ThreeDModel" := by decide +kernel
example : format "123" = "Num123" := by decide +kernel

end GoShape.Identifier
