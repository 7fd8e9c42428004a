import GoShape.Proofs.Words

/-! Names of names. A name consists of words, each with a capital in front, and of digits. What is
dropped between two words leaves a capital or a digit behind the first of them, so in the name no run of
small letters is longer than it was in its word, and the words are read from the name as they stand: one
that still has small letters was found to be no initialism. -/
namespace GoShape

theorem isSmall_capital (c : Char) : isSmall (capital c) = false := by
  by_cases h : isSmall c
  · exact isSmall_of_isCapital (isCapital_capital h)
  · rw [capital_of_not_small (by simpa using h)]
    simpa using h

theorem isLetter_of_isCapital {c : Char} (h : isCapital c) : isLetter c := by
  simp [isLetter, h]

/-- A letter or a digit is a letter if it is no digit. -/
theorem isLetter_iff_not_digit {c : Char} (h : isAlphanumeric c) :
    isLetter c ↔ ¬ (Digit.ofChar? c).isSome := by
  rw [← isCapital_capital_iff_isLetter, isCapital_capital_iff h]

namespace Identifier

/-! ### Words that were cased before -/

theorem caseWord_capital_cons (c : Char) (run : List Char) :
    caseWord (capital c) run = caseWord c run := by
  simp only [caseWord, isInitialism_capital_cons, List.map_cons, capital_capital]

/-- A capital that no run follows is a word of its own. -/
theorem cased_cons_of_capital {c : Char} (hc : isCapital c) {cs : List Char} (h : EndsRun cs) :
    cased (c :: cs) = c :: cased cs := by
  obtain ⟨hrun, hrest⟩ := h.smallRun_eq_nil
  rw [cased_cons_of_letter (isLetter_of_isCapital hc), hrun, hrest, caseWord_capital hc]
  simp [capital_of_not_small (isSmall_of_isCapital hc)]

theorem cased_capitals_append {word : List Char} (hword : ∀ c ∈ word, isCapital c) {cs : List Char}
    (h : EndsRun cs) : cased (word ++ cs) = word ++ cased cs := by
  induction word with
  | nil => rfl
  | cons c word ih =>
    have hrest : ∀ d ∈ word, isCapital d := fun d hd => hword d (by simp [hd])
    rw [List.cons_append, cased_cons_of_capital (hword c (by simp)) (endsRun_capitals_append hrest h),
      ih hrest]
    rfl

/-- A word is left as it was cased, if nothing goes on with its run. -/
theorem cased_caseWord_append {c : Char} (hc : isLetter c) {run : List Char}
    (hrun : ∀ d ∈ run, isSmall d) {cs : List Char} (h : EndsRun cs) :
    cased (caseWord c run ++ cs) = caseWord c run ++ cased cs := by
  have hcapital := isCapital_capital_iff_isLetter.mpr hc
  by_cases hinit : isInitialism (c :: run)
  · have hword := isCapital_of_mem_map_capital hc hrun
    rw [caseWord, if_pos hinit, cased_capitals_append hword h]
  · obtain ⟨hsmallRun, hrest⟩ := smallRun_of_endsRun hrun h
    have hcased : caseWord c run = capital c :: run := if_neg hinit
    rw [hcased, List.cons_append, cased_cons_of_letter (isLetter_of_isCapital hcapital), hsmallRun,
      hrest, caseWord_capital_cons, hcased]

/-! ### Names as keys -/

/-- The letters and digits of a text, as the passes leave them. -/
def kept (cs : List Char) : List Char := (cased cs).filter isAlphanumeric

/-- A name begins with a capital or a digit. -/
theorem endsRun_kept (cs : List Char) : EndsRun (kept cs) := by
  have hhead : (kept cs).head? = (cs.find? isAlphanumeric).map capital := by
    rw [kept, List.head?_filter, cased, find?_capitalizeRuns, find?_capitalizeWords]
  intro c hc
  rw [hhead] at hc
  obtain ⟨d, -, rfl⟩ := Option.map_eq_some_iff.mp hc
  exact isSmall_capital d

/-- A word is kept as a whole. -/
theorem filter_caseWord {c : Char} (hc : isLetter c) {run : List Char} (hrun : ∀ d ∈ run, isSmall d) :
    (caseWord c run).filter isAlphanumeric = caseWord c run := by
  have hall : ∀ d ∈ c :: run, isAlphanumeric d := by
    intro d hd
    rcases List.mem_cons.mp hd with rfl | hd
    · rw [isLetter, Bool.or_eq_true] at hc
      exact isAlphanumeric_iff.mpr (hc.imp_right .inl)
    · exact isAlphanumeric_iff.mpr (.inl (hrun d hd))
  rw [List.filter_eq_self]
  intro d hd
  rw [caseWord] at hd
  split at hd
  · obtain ⟨e, he, rfl⟩ := List.mem_map.mp hd
    rw [isAlphanumeric_capital, hall e he]
  · rcases List.mem_cons.mp hd with rfl | hd
    · rw [isAlphanumeric_capital, hall c (by simp)]
    · exact hall d (by simp [hd])

/-- By induction over the words of a text: none of them goes on in what is kept behind it. -/
theorem cased_kept (cs : List Char) : cased (kept cs) = kept cs := by
  induction cs using wordInduction with
  | nil => rfl
  | other c cs hc ih =>
    rw [kept, cased_cons_of_not_letter hc, List.filter_cons]
    split
    · rw [cased_cons_of_not_letter hc, ← kept, ih]
    · exact ih
  | word c cs hc ih =>
    have hrun := forall_smallRun cs
    rw [kept, cased_cons_of_letter hc, List.filter_append, filter_caseWord hc hrun, ← kept,
      cased_caseWord_append hc hrun (endsRun_kept _), ih]

theorem formatChars_formatChars {raw : List Char} (h : beginsWithDigit (formatChars raw) = false) :
    formatChars (formatChars raw) = formatChars raw := by
  have hname : formatChars raw = kept (spellDigits raw) := formatChars_eq raw
  rw [formatChars_eq (formatChars raw), spellDigits_of_not_begins h, hname, cased_kept, kept,
    List.filter_filter]
  simp only [Bool.and_self]

/-- A digit in front of a name is written as a word when the name is named. -/
theorem formatChars_ne_of_begins {raw : List Char} (h : beginsWithDigit raw) : formatChars raw ≠ raw := by
  intro hsame
  obtain ⟨u, hu, hcapital⟩ := exists_head?_formatChars h
  rw [hsame] at hu
  rw [beginsWithDigit, hu, Option.bind_some, isSome_ofChar?_iff] at h
  rw [isCapital_iff] at hcapital
  omega

/-- A name is its own name exactly if it begins with a letter and does not stand for a key without
letters and digits. -/
theorem format_format_iff (raw : String) :
    format (format raw) = format raw ↔
      format raw ≠ failed ∧ (format raw).toList.head?.any isLetter := by
  by_cases hfailed : format raw = failed
  · have hother : format failed ≠ failed := by decide +kernel
    simp [hfailed, hother]
  have hne : formatChars raw.toList ≠ [] := fun hnil =>
    hfailed (format_eq_failed_iff.mpr (formatChars_eq_nil_iff.mp hnil))
  have hname := toList_format hne
  obtain ⟨u, us, hu⟩ := List.exists_cons_of_ne_nil hne
  have hmem : u ∈ formatChars raw.toList := by simp [hu]
  have hkept := isAlphanumeric_of_mem_formatChars hmem
  have hagain : formatChars (format raw).toList ≠ [] := by
    rw [hname, ne_eq, formatChars_eq_nil_iff, hu, List.find?_cons_of_pos hkept]
    exact Option.some_ne_none u
  have hhead : (formatChars raw.toList).head? = some u := by rw [hu, List.head?_cons]
  rw [← String.toList_inj, toList_format hagain, hname, hhead, Option.any_some,
    isLetter_iff_not_digit hkept, and_iff_right hfailed]
  have hbegins : beginsWithDigit (formatChars raw.toList) = (Digit.ofChar? u).isSome := by
    rw [beginsWithDigit, hhead, Option.bind_some]
  by_cases hdigit : (Digit.ofChar? u).isSome
  · exact iff_of_false (formatChars_ne_of_begins (hbegins.trans hdigit)) (not_not_intro hdigit)
  · refine iff_of_true (formatChars_formatChars ?_) hdigit
    rw [hbegins]
    simpa using hdigit

example : format "_3d" = "3D" ∧ format "3D" = "ThreeD" := by decide +kernel

end Identifier
end GoShape
