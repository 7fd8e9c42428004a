import GoShape.Proofs.Exported
import Mathlib.Data.List.TakeWhile

/-! The two passes over a key, word by word. A word is a letter with the small letters behind it. One
that begins with a small letter is settled by the first pass, and one that begins with a capital by the
second, so both come to one rule for all words, and no other character is changed. -/
namespace GoShape

/-- An ASCII letter. -/
def isLetter (c : Char) : Bool := isSmall c || isCapital c

theorem isLetter_eq_false_iff {c : Char} :
    isLetter c = false ↔ isSmall c = false ∧ isCapital c = false := by
  simp [isLetter]

/-- Only a letter has a capital. -/
theorem isCapital_capital_iff_isLetter {c : Char} : isCapital (capital c) ↔ isLetter c := by
  by_cases hs : isSmall c
  · simp [isLetter, hs, isCapital_capital hs]
  · rw [capital_of_not_small (by simpa using hs)]
    simp [isLetter, hs]

/-- A capital has no further capital. -/
theorem capital_capital (c : Char) : capital (capital c) = capital c := by
  by_cases h : isSmall c
  · exact capital_of_not_small (isSmall_of_isCapital (isCapital_capital h))
  · have hself : capital c = c := capital_of_not_small (by simpa using h)
    rw [hself, hself]

theorem isInitialism_capital_cons (c : Char) (run : List Char) :
    isInitialism (capital c :: run) = isInitialism (c :: run) := by
  rw [isInitialism, List.map_cons, capital_capital, ← List.map_cons, isInitialism]

namespace Identifier

/-! ### Runs of small letters -/

/-- No run of small letters goes on with this text. -/
def EndsRun (cs : List Char) : Prop := ∀ c ∈ cs.head?, isSmall c = false

theorem endsRun_cons {c : Char} {cs : List Char} : EndsRun (c :: cs) ↔ isSmall c = false := by
  simp [EndsRun]

theorem endsRun_dropWhile (cs : List Char) : EndsRun (cs.dropWhile isSmall) := by
  intro c hc
  obtain ⟨rest, hrest⟩ := List.head?_eq_some_iff.mp hc
  have hhead := List.head_dropWhile_not isSmall (l := cs) (by simp [hrest])
  simpa [hrest] using hhead

theorem forall_smallRun (cs : List Char) : ∀ c ∈ smallRun cs, isSmall c :=
  fun _ h => List.mem_takeWhile_imp h

theorem smallRun_append (cs : List Char) : smallRun cs ++ cs.dropWhile isSmall = cs :=
  List.takeWhile_append_dropWhile

theorem EndsRun.smallRun_eq_nil {cs : List Char} (h : EndsRun cs) :
    smallRun cs = [] ∧ cs.dropWhile isSmall = cs := by
  cases cs with
  | nil => exact ⟨rfl, rfl⟩
  | cons c cs => simp [smallRun, endsRun_cons.mp h]

/-- A run of small letters and what comes behind it, where it cannot go on. -/
theorem smallRun_of_endsRun {run cs : List Char} (hrun : ∀ c ∈ run, isSmall c) (h : EndsRun cs) :
    smallRun (run ++ cs) = run ∧ (run ++ cs).dropWhile isSmall = cs := by
  obtain ⟨hnone, hrest⟩ := h.smallRun_eq_nil
  rw [smallRun] at hnone ⊢
  rw [List.takeWhile_append_of_pos hrun, List.dropWhile_append_of_pos hrun, hnone, hrest,
    List.append_nil]
  exact ⟨rfl, rfl⟩

/-! ### The first pass -/

/-- Behind the beginning of a word its small letters become capitals if it is an initialism, and stay
as they are if it is none. -/
theorem capitalizeWords_append {casing : Casing} (hcasing : casing ≠ .wordStart) {run : List Char}
    (hrun : ∀ c ∈ run, isSmall c) (ys : List Char) :
    capitalizeWords casing (run ++ ys) =
      (if casing = .initialism then run.map capital else run) ++ capitalizeWords casing ys := by
  induction run with
  | nil => cases casing <;> rfl
  | cons c run ih =>
    have ih := ih fun d hd => hrun d (by simp [hd])
    have hc := hrun c (by simp)
    cases casing with
    | wordStart => exact absurd rfl hcasing
    | initialism => simpa [capitalizeWords, hc] using ih
    | inWord => simpa [capitalizeWords, hc] using ih

/-- Behind a run of small letters it does not matter what the run was. -/
theorem capitalizeWords_of_endsRun {cs : List Char} (h : EndsRun cs) (casing : Casing) :
    capitalizeWords casing cs = capitalizeWords .wordStart cs := by
  cases cs with
  | nil => rfl
  | cons c cs => simp [capitalizeWords, endsRun_cons.mp h]

/-- A word in a name: capitals throughout if it is an initialism, and otherwise a capital in front. -/
def caseWord (c : Char) (run : List Char) : List Char :=
  if isInitialism (c :: run) then (c :: run).map capital else capital c :: run

theorem isCapital_of_mem_map_capital {c : Char} (hc : isLetter c) {run : List Char}
    (hrun : ∀ d ∈ run, isSmall d) : ∀ d ∈ (c :: run).map capital, isCapital d := by
  intro d hd
  obtain ⟨e, he, rfl⟩ := List.mem_map.mp hd
  rcases List.mem_cons.mp he with rfl | he
  · exact isCapital_capital_iff_isLetter.mpr hc
  · exact isCapital_capital (hrun e he)

/-- A run that begins a word is capitalized as a whole. -/
theorem capitalizeWords_small {c : Char} (hc : isSmall c) (cs : List Char) :
    capitalizeWords .wordStart (c :: cs) =
      caseWord c (smallRun cs) ++ capitalizeWords .wordStart (cs.dropWhile isSmall) := by
  have happend (casing : Casing) (hcasing : casing ≠ .wordStart) :=
    capitalizeWords_append hcasing (forall_smallRun cs) (cs.dropWhile isSmall)
  simp only [smallRun_append, capitalizeWords_of_endsRun (endsRun_dropWhile cs)] at happend
  simp only [capitalizeWords, hc, if_true, caseWord]
  split
  · rw [happend .initialism (by decide)]
    rfl
  · rw [happend .inWord (by decide)]
    rfl

/-- A run behind a capital stays as it is. -/
theorem capitalizeWords_capital {c : Char} (hc : isCapital c) (cs : List Char) :
    capitalizeWords .wordStart (c :: cs) =
      c :: smallRun cs ++ capitalizeWords .wordStart (cs.dropWhile isSmall) := by
  have happend := capitalizeWords_append (show Casing.inWord ≠ .wordStart by decide) (forall_smallRun cs)
    (cs.dropWhile isSmall)
  rw [smallRun_append, capitalizeWords_of_endsRun (endsRun_dropWhile cs)] at happend
  simp only [capitalizeWords, isSmall_of_isCapital hc, hc, if_true, happend]
  rfl

theorem endsRun_capitalizeWords {cs : List Char} (h : EndsRun cs) :
    EndsRun (capitalizeWords .wordStart cs) := by
  cases cs with
  | nil => exact h
  | cons c cs => simp [capitalizeWords, endsRun_cons.mp h, endsRun_cons]

/-! ### The second pass -/

theorem capitalizeRuns_append (inRun : Bool) {run : List Char} (hrun : ∀ c ∈ run, isSmall c)
    (ys : List Char) :
    capitalizeRuns inRun (run ++ ys) =
      (if inRun then run.map capital else run) ++ capitalizeRuns inRun ys := by
  induction run with
  | nil => cases inRun <;> rfl
  | cons c run ih =>
    have ih := ih fun d hd => hrun d (by simp [hd])
    cases inRun <;> simp_all [capitalizeRuns]

theorem capitalizeRuns_of_endsRun {cs : List Char} (h : EndsRun cs) (inRun : Bool) :
    capitalizeRuns inRun cs = capitalizeRuns false cs := by
  cases cs with
  | nil => rfl
  | cons c cs => simp [capitalizeRuns, endsRun_cons.mp h]

/-- A capital is the beginning of its word already. -/
theorem caseWord_capital {c : Char} (hc : isCapital c) (run : List Char) :
    caseWord c run = if isInitialism (c :: run) then (c :: run).map capital else c :: run := by
  rw [caseWord, capital_of_not_small (isSmall_of_isCapital hc)]

/-- A capital and the run behind it are capitalized as a whole. -/
theorem capitalizeRuns_capital {c : Char} (hc : isCapital c) (cs : List Char) :
    capitalizeRuns false (c :: cs) =
      caseWord c (smallRun cs) ++ capitalizeRuns false (cs.dropWhile isSmall) := by
  have happend := capitalizeRuns_append (isInitialism (c :: smallRun cs))
    (forall_smallRun cs) (cs.dropWhile isSmall)
  have hsmall := isSmall_of_isCapital hc
  rw [smallRun_append, capitalizeRuns_of_endsRun (endsRun_dropWhile cs)] at happend
  simp only [capitalizeRuns, hsmall, hc, Bool.true_and, happend, caseWord]
  cases isInitialism (c :: smallRun cs) <;> simp [capital_of_not_small hsmall]

theorem endsRun_capitals_append {word : List Char} (hword : ∀ c ∈ word, isCapital c) {cs : List Char}
    (h : EndsRun cs) : EndsRun (word ++ cs) := by
  cases word with
  | nil => exact h
  | cons c word => exact endsRun_cons.mpr (isSmall_of_isCapital (hword c (by simp)))

/-- Capitals are left alone, each of them a word without a run. -/
theorem capitalizeRuns_capitals {word : List Char} (hword : ∀ c ∈ word, isCapital c)
    {cs : List Char} (h : EndsRun cs) :
    capitalizeRuns false (word ++ cs) = word ++ capitalizeRuns false cs := by
  induction word with
  | nil => rfl
  | cons c word ih =>
    have hword' : ∀ d ∈ word, isCapital d := fun d hd => hword d (by simp [hd])
    have hc := hword c (by simp)
    obtain ⟨hrun, hrest⟩ := (endsRun_capitals_append hword' h).smallRun_eq_nil
    rw [List.cons_append, capitalizeRuns_capital hc, hrun, hrest, ih hword', caseWord_capital hc]
    simp [capital_of_not_small (isSmall_of_isCapital hc)]

/-- The second pass takes a word for what the first one has made of it. -/
theorem capitalizeRuns_caseWord {c : Char} (hc : isSmall c) {run : List Char}
    (hrun : ∀ d ∈ run, isSmall d) {cs : List Char} (h : EndsRun cs) :
    capitalizeRuns false (caseWord c run ++ cs) = caseWord c run ++ capitalizeRuns false cs := by
  have hcapital := isCapital_capital hc
  obtain ⟨hsmallRun, hrest⟩ := smallRun_of_endsRun hrun h
  by_cases hinit : isInitialism (c :: run)
  · have hword := isCapital_of_mem_map_capital (show isLetter c by simp [isLetter, hc]) hrun
    rw [caseWord, if_pos hinit, capitalizeRuns_capitals hword h]
  · have hsame : caseWord (capital c) run = capital c :: run := by
      rw [caseWord, isInitialism_capital_cons, if_neg hinit, capital_capital]
    rw [caseWord, if_neg hinit, List.cons_append, capitalizeRuns_capital hcapital, hsmallRun, hrest,
      hsame]

/-! ### Both passes -/

/-- A text as the passes leave it. -/
def cased (cs : List Char) : List Char := capitalizeRuns false (capitalizeWords .wordStart cs)

theorem formatChars_eq (raw : List Char) :
    formatChars raw = (cased (spellDigits raw)).filter isAlphanumeric := rfl

theorem cased_cons_of_not_letter {c : Char} (hc : isLetter c = false) (cs : List Char) :
    cased (c :: cs) = c :: cased cs := by
  obtain ⟨hsmall, hcapital⟩ := isLetter_eq_false_iff.mp hc
  simp [cased, capitalizeWords, capitalizeRuns, hsmall, hcapital]

theorem cased_cons_of_letter {c : Char} (hc : isLetter c) (cs : List Char) :
    cased (c :: cs) = caseWord c (smallRun cs) ++ cased (cs.dropWhile isSmall) := by
  have hends := endsRun_capitalizeWords (endsRun_dropWhile cs)
  have hrun := forall_smallRun cs
  rw [cased, cased]
  by_cases hsmall : isSmall c
  · rw [capitalizeWords_small hsmall, capitalizeRuns_caseWord hsmall hrun hends]
  · have hcapital : isCapital c := by simpa [isLetter, hsmall] using hc
    obtain ⟨hsmallRun, hrest⟩ := smallRun_of_endsRun hrun hends
    rw [capitalizeWords_capital hcapital, List.cons_append, capitalizeRuns_capital hcapital,
      hsmallRun, hrest]

/-- Induction over the words of a text. -/
theorem wordInduction {P : List Char → Prop} (nil : P [])
    (other : ∀ c cs, isLetter c = false → P cs → P (c :: cs))
    (word : ∀ c cs, isLetter c → P (cs.dropWhile isSmall) → P (c :: cs)) : ∀ cs, P cs
  | [] => nil
  | c :: cs =>
    if hc : isLetter c then word c cs hc (wordInduction nil other word (cs.dropWhile isSmall))
    else other c cs (by simpa using hc) (wordInduction nil other word cs)
termination_by cs => cs.length
decreasing_by
  · exact Nat.lt_succ_of_le (List.length_dropWhile_le isSmall cs)
  · exact Nat.lt_succ_self cs.length

end Identifier
end GoShape
