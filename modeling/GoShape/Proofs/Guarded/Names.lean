import GoShape.Options
import GoShape.Proofs.Guarded.Steps
import GoShape.Proofs.Words

/-! Names with guarded steps. The passes over a key go from run to run, cut the text by bytes and look
the word of a digit up in a list. All their steps have a result, and it is the name that the passes
from character to character give. -/
namespace GoShape.Guarded
open Identifier

/-! ### The passes -/

def isDigit (c : Char) : Bool := (Digit.ofChar? c).isSome

/-- The words for the digits, in their order. -/
def digitWords : List String := List.ofFn digitWord

/-- The word for the digit that a character writes. -/
def wordOf (c : Char) : Except Panic String := do
  let i ← difference c.toNat '0'.toNat
  let word ← nth digitWords i
  return word

def spellDigits : List Char → Except Panic (List Char)
  | [] => .ok []
  | c :: cs =>
    if (c :: cs).all isDigit then .ok ('N' :: 'u' :: 'm' :: c :: cs)
    else if isDigit c then do
      let word ← wordOf c
      return word.toList ++ cs
    else .ok (c :: cs)

/-- The place in bytes at which the small letters at the beginning of a text end. -/
def runEnd (cs : List Char) : Nat := (findByte? (fun c => !isSmall c) cs).getD (byteLength cs)

/-- A run of small letters that begins with `c`. -/
def capitalizeRun (c : Char) (run : List Char) : Except Panic (List Char) :=
  if isInitialism run then .ok (run.map capital)
  else do
    let rest ← cut 1 run
    return capital c :: rest.behind

theorem runEnd_eq (cs : List Char) : runEnd cs = byteLength (smallRun cs) := getD_findByte? isSmall cs

theorem runEnd_pos {c : Char} (hc : isSmall c) (cs : List Char) : 0 < runEnd (c :: cs) := by
  have hpos := c.utf8Size_pos
  rw [runEnd_eq, smallRun, List.takeWhile_cons_of_pos hc, byteLength_cons]
  omega

/-- Capitalize the runs of small letters that do not follow a letter. -/
def capitalizeWords (behindLetter : Bool) : List Char → Except Panic (List Char)
  | [] => .ok []
  | c :: cs =>
    if isSmall c ∧ !behindLetter then do
      let p ← cut (runEnd (c :: cs)) (c :: cs)
      let word ← capitalizeRun c p.before
      let rest ← capitalizeWords true p.behind
      return word ++ rest
    else do
      let p ← cut c.utf8Size (c :: cs)
      let rest ← capitalizeWords (isSmall c || isCapital c) p.behind
      return c :: rest
termination_by cs => cs.length
decreasing_by
  · have hc : isSmall c ∧ !behindLetter := ‹_›
    exact p.length_behind_lt (runEnd_pos hc.1 cs)
  · exact p.length_behind_lt c.utf8Size_pos

/-- Capitalize the runs of small letters that spell an initialism with the capital before them. -/
def capitalizeRuns : List Char → Except Panic (List Char)
  | [] => .ok []
  | c :: cs => do
    let p ← cut c.utf8Size (c :: cs)
    if isCapital c && 0 < runEnd p.behind then do
      let q ← cut (1 + runEnd p.behind) (c :: cs)
      let rest ← capitalizeRuns q.behind
      return (if isInitialism q.before then q.before.map capital else q.before) ++ rest
    else do
      let rest ← capitalizeRuns p.behind
      return c :: rest
termination_by cs => cs.length
decreasing_by
  · exact q.length_behind_lt (Nat.add_pos_left Nat.one_pos _)
  · exact p.length_behind_lt c.utf8Size_pos

/-- The exported name of a key. -/
def format (raw : String) : Except Panic String := do
  let spelled ← spellDigits raw.toList
  let words ← capitalizeWords false spelled
  let runs ← capitalizeRuns words
  let name := runs.filter isAlphanumeric
  return if name.isEmpty then failed else String.ofList name

/-- The name in the declaration. -/
def rootName (o : Options) : Except Panic String :=
  match o.typeName with
  | none => .ok Options.defaultTypeName
  | some name => if name.isEmpty then .ok Options.defaultTypeName else format name

/-! ### Digits -/

/-- The place of a digit's word is the value of the digit. -/
theorem wordOf_toChar (d : Digit) : wordOf d.toChar = .ok (digitWord d) := by
  revert d
  decide

theorem spellDigits_eq (raw : List Char) : spellDigits raw = .ok (Identifier.spellDigits raw) := by
  cases raw with
  | nil => rfl
  | cons c cs =>
    cases hd : Digit.ofChar? c with
    | none => simp [spellDigits, Identifier.spellDigits, isDigit, hd]
    | some d =>
      have hword : wordOf c = .ok (digitWord d) := by
        rw [← Digit.toChar_of_ofChar? hd]
        exact wordOf_toChar d
      have hfirst : isDigit c = true := by simp [isDigit, hd]
      have hdigits : (c :: cs).all isDigit = cs.all isDigit := by simp [hfirst]
      have hall : (cs.all fun c => (Digit.ofChar? c).isSome) = cs.all isDigit := rfl
      simp only [spellDigits, Identifier.spellDigits, hdigits, hall, hfirst, hword, hd, if_true]
      split <;> rfl

/-! ### Runs -/

theorem cut_runEnd (cs : List Char) :
    cut (runEnd cs) cs =
      .ok ⟨smallRun cs, cs.dropWhile isSmall, smallRun_append cs, (runEnd_eq cs).symm⟩ :=
  cut_append _ _

theorem cut_cons (c : Char) (cs : List Char) :
    cut c.utf8Size (c :: cs) = .ok ⟨[c], cs, rfl, byteLength_singleton c⟩ :=
  cut_append _ _

/-- Letters have one byte. -/
theorem utf8Size_of_letter {c : Char} (h : isSmall c ∨ isCapital c) : c.utf8Size = 1 := by
  rw [isSmall_iff, isCapital_iff] at h
  have hle : c.toNat ≤ 127 := by omega
  exact Char.utf8Size_eq_one_iff.mpr (UInt32.le_iff_toNat_le.mpr hle)

/-- A run of small letters can be cut behind its first. -/
theorem capitalizeRun_eq {c : Char} (hc : isSmall c) (run : List Char) :
    capitalizeRun c (c :: run) = .ok (caseWord c run) := by
  have hcut : cut 1 (c :: run) = .ok ⟨[c], run, rfl, by simp [utf8Size_of_letter (.inl hc)]⟩ :=
    cut_append _ _
  rw [capitalizeRun, hcut, caseWord]
  split <;> rfl

/-- The casing behind a character. -/
def casing (behindLetter : Bool) : Casing := if behindLetter then .inWord else .wordStart

/-- By induction on the cuts: behind each run the passes are at the same character. -/
theorem capitalizeWords_eq (behindLetter : Bool) (cs : List Char) :
    capitalizeWords behindLetter cs = .ok (Identifier.capitalizeWords (casing behindLetter) cs) := by
  induction behindLetter, cs using capitalizeWords.induct with
  | case1 behindLetter => rw [capitalizeWords]; rfl
  | case2 behindLetter c cs hc ih =>
    obtain ⟨hc, hstart⟩ := hc
    obtain rfl : behindLetter = false := by simpa using hstart
    have hrun : smallRun (c :: cs) = c :: smallRun cs := List.takeWhile_cons_of_pos hc
    have hcut := cut_runEnd (c :: cs)
    have ih := ih ⟨_, _, smallRun_append (c :: cs), (runEnd_eq (c :: cs)).symm⟩
    rw [capitalizeWords, if_pos ⟨hc, hstart⟩, hcut]
    simp only [ok_bind, pure_eq_ok, hrun, capitalizeRun_eq hc, ih]
    rw [List.dropWhile_cons_of_pos hc]
    rw [casing, if_pos rfl, capitalizeWords_of_endsRun (endsRun_dropWhile cs)]
    exact congrArg Except.ok (capitalizeWords_small hc cs).symm
  | case3 behindLetter c cs hc ih =>
    have ih := ih ⟨[c], cs, rfl, byteLength_singleton c⟩
    rw [capitalizeWords, if_neg hc, cut_cons]
    simp only [ok_bind, pure_eq_ok, ih]
    cases hsmall : isSmall c with
    | true =>
      have : behindLetter = true := by simpa [hsmall] using hc
      simp [this, hsmall, casing, Identifier.capitalizeWords]
    | false => simp [hsmall, casing, Identifier.capitalizeWords]

/-! ### Runs behind a capital -/

/-- Any other character stays as it is. -/
theorem capitalizeRuns_cons {c : Char} {cs : List Char} (h : ¬(isCapital c && 0 < runEnd cs)) :
    Identifier.capitalizeRuns false (c :: cs) = c :: Identifier.capitalizeRuns false cs := by
  cases hsmall : isSmall c with
  | true => simp [Identifier.capitalizeRuns, hsmall]
  | false =>
    cases hc : isCapital c with
    | false => simp [Identifier.capitalizeRuns, hsmall, hc]
    | true =>
      have hends : EndsRun cs := by
        cases cs with
        | nil => simp [EndsRun]
        | cons d cs =>
          rw [endsRun_cons, Bool.eq_false_iff]
          exact fun hd => h (by simp [hc, runEnd_pos hd cs])
      simp only [Identifier.capitalizeRuns, hsmall, Bool.false_eq_true, if_false,
        capitalizeRuns_of_endsRun hends]

theorem capitalizeRuns_eq (cs : List Char) :
    capitalizeRuns cs = .ok (Identifier.capitalizeRuns false cs) := by
  induction cs using capitalizeRuns.induct with
  | case1 => rw [capitalizeRuns]; rfl
  | case2 c cs ihrun ih =>
    have ih := ih ⟨[c], cs, rfl, byteLength_singleton c⟩
    rw [capitalizeRuns, cut_cons]
    simp only [ok_bind]
    split
    · rename_i hrun
      obtain ⟨hc, -⟩ : isCapital c = true ∧ 0 < runEnd cs := by simpa using hrun
      have hbytes : byteLength (c :: smallRun cs) = 1 + runEnd cs := by
        rw [byteLength_cons, utf8Size_of_letter (.inr hc), runEnd_eq]
      have hwhole : (c :: smallRun cs) ++ cs.dropWhile isSmall = c :: cs :=
        congrArg (c :: ·) (smallRun_append cs)
      have ihrun := ihrun ⟨[c], cs, rfl, byteLength_singleton c⟩ ⟨_, _, hwhole, hbytes⟩
      rw [cut_append hwhole hbytes]
      simp only [ok_bind, pure_eq_ok, ihrun]
      rw [← caseWord_capital hc]
      exact congrArg Except.ok (capitalizeRuns_capital hc cs).symm
    · rename_i hrun
      simp only [ok_bind, pure_eq_ok, ih]
      exact congrArg Except.ok (capitalizeRuns_cons hrun).symm

/-- No step in the passes over a key fails. -/
theorem format_eq (raw : String) : format raw = .ok (Identifier.format raw) := by
  simp only [format, spellDigits_eq, capitalizeWords_eq, capitalizeRuns_eq, ok_bind, pure_eq_ok]
  rfl

theorem rootName_eq (o : Options) : rootName o = .ok o.rootName := by
  cases h : o.typeName with
  | none => simp [rootName, Options.rootName, h]
  | some name =>
    cases hempty : name.isEmpty <;> simp [rootName, Options.rootName, h, hempty, format_eq]

end GoShape.Guarded
