import GoShape.Proofs.Words

/-! Keys of several words. A character that is neither a letter nor a digit ends a word and is dropped,
so what stands on either side of it is named as if it stood alone. -/
namespace GoShape.Identifier

/-- A key that holds something to make a name of. -/
def isNameable (key : String) : Bool := key.toList.any isAlphanumeric

theorem isLetter_of_not_alphanumeric {c : Char} (hc : isAlphanumeric c = false) :
    isLetter c = false := by
  obtain ⟨hsmall, hcapital, -⟩ := isAlphanumeric_eq_false_iff.mp hc
  exact isLetter_eq_false_iff.mpr ⟨hsmall, hcapital⟩

/-! ### A separator in a text -/

theorem beginsWithDigit_append_cons {a : List Char} {c : Char} (ha : beginsWithDigit a = false)
    (hc : isAlphanumeric c = false) (b : List Char) : beginsWithDigit (a ++ c :: b) = false := by
  cases a with
  | cons d a => exact ha
  | nil => simp [beginsWithDigit, (isAlphanumeric_eq_false_iff.mp hc).2.2]

/-- No run goes on across a separator. -/
theorem smallRun_append_cons {c : Char} (hc : isSmall c = false) (a b : List Char) :
    smallRun (a ++ c :: b) = smallRun a ∧
      (a ++ c :: b).dropWhile isSmall = a.dropWhile isSmall ++ c :: b := by
  have hends : EndsRun (a.dropWhile isSmall ++ c :: b) := by
    have ha := endsRun_dropWhile a
    cases h : a.dropWhile isSmall with
    | nil => exact endsRun_cons.mpr hc
    | cons d rest =>
      rw [h] at ha
      exact endsRun_cons.mpr (endsRun_cons.mp ha)
  have hrun := smallRun_of_endsRun (forall_smallRun a) hends
  rwa [← List.append_assoc, smallRun_append] at hrun

/-- By induction over the words in front of the separator: none of them sees what is behind it. -/
theorem cased_append_cons {c : Char} (hc : isLetter c = false) (a b : List Char) :
    cased (a ++ c :: b) = cased a ++ c :: cased b := by
  induction a using wordInduction with
  | nil => exact cased_cons_of_not_letter hc b
  | other d a hd ih =>
    rw [List.cons_append, cased_cons_of_not_letter hd, cased_cons_of_not_letter hd, ih]
    rfl
  | word d a hd ih =>
    obtain ⟨hrun, hrest⟩ := smallRun_append_cons (isLetter_eq_false_iff.mp hc).1 a b
    rw [List.cons_append, cased_cons_of_letter hd, cased_cons_of_letter hd, hrun, hrest, ih,
      List.append_assoc]

theorem formatChars_append_cons {a b : List Char} {c : Char} (ha : beginsWithDigit a = false)
    (hb : beginsWithDigit b = false) (hc : isAlphanumeric c = false) :
    formatChars (a ++ c :: b) = formatChars a ++ formatChars b := by
  rw [formatChars_eq, formatChars_eq, formatChars_eq, spellDigits_of_not_begins ha,
    spellDigits_of_not_begins hb, spellDigits_of_not_begins (beginsWithDigit_append_cons ha hc b),
    cased_append_cons (isLetter_of_not_alphanumeric hc), List.filter_append,
    List.filter_cons_of_neg (by simp [hc])]

/-! ### Words with separators between them -/

theorem isNameable_iff {key : String} : isNameable key ↔ formatChars key.toList ≠ [] := by
  rw [ne_eq, formatChars_eq_nil_iff, isNameable]
  simp

/-- The names of the words that have one, one behind the other. -/
def joinedNames (words : List String) : String := String.join ((words.filter isNameable).map format)

theorem toList_joinedNames (words : List String) :
    (joinedNames words).toList = words.flatMap fun w => formatChars w.toList := by
  rw [joinedNames, String.toList_join]
  induction words with
  | nil => rfl
  | cons w words ih =>
    rw [List.flatMap_cons, ← ih]
    by_cases hw : isNameable w
    · rw [List.filter_cons_of_pos hw, List.map_cons, List.flatMap_cons,
        toList_format (isNameable_iff.mp hw)]
    · have hnone : formatChars w.toList = [] := by
        by_contra hne
        exact hw (isNameable_iff.mpr hne)
      rw [List.filter_cons_of_neg hw, hnone, List.nil_append]

/-- A key has the name that its words have together. -/
theorem formatChars_intercalate {c : Char} (hc : isAlphanumeric c = false) {words : List String}
    (hwords : ∀ w ∈ words, beginsWithDigit w.toList = false) :
    formatChars ((String.singleton c).intercalate words).toList = (joinedNames words).toList := by
  rw [toList_joinedNames]
  suffices beginsWithDigit ((String.singleton c).intercalate words).toList = false ∧
      formatChars ((String.singleton c).intercalate words).toList =
        words.flatMap fun w => formatChars w.toList from this.2
  induction words with
  | nil => exact ⟨by simp [beginsWithDigit], by simp [formatChars_eq_nil_iff]⟩
  | cons w words ih =>
    have hw := hwords w (by simp)
    cases words with
    | nil => simpa using hw
    | cons v words =>
      obtain ⟨hbegins, hname⟩ := ih fun u hu => hwords u (by simp [hu])
      have hsplit : ((String.singleton c).intercalate (w :: v :: words)).toList =
          w.toList ++ c :: ((String.singleton c).intercalate (v :: words)).toList := by
        rw [String.intercalate_cons_cons]
        simp only [String.toList_append, String.toList_singleton, List.append_assoc,
          List.singleton_append]
      rw [hsplit, formatChars_append_cons hw hbegins hc, hname]
      exact ⟨beginsWithDigit_append_cons hw hc _, rfl⟩

theorem format_intercalate {c : Char} (hc : isAlphanumeric c = false) {words : List String}
    (hwords : ∀ w ∈ words, beginsWithDigit w.toList = false) :
    format ((String.singleton c).intercalate words) =
      if words.any isNameable then joinedNames words else failed := by
  have hname := formatChars_intercalate hc hwords
  by_cases hany : words.any isNameable
  · have hne : formatChars ((String.singleton c).intercalate words).toList ≠ [] := by
      obtain ⟨w, hw, hnameable⟩ := List.any_eq_true.mp hany
      rw [hname, toList_joinedNames, ne_eq, List.flatMap_eq_nil_iff]
      exact fun h => isNameable_iff.mp hnameable (h w hw)
    rw [if_pos hany, ← String.toList_inj, toList_format hne, hname]
  · have hnone : joinedNames words = "" := by
      rw [joinedNames, List.filter_eq_nil_iff.mpr (by simpa using hany)]
      rfl
    rw [if_neg hany, format, hname, hnone]
    rfl

/-- Two words with a separator between them are named one behind the other; a word without a letter or
a digit gives nothing to the name, and where both are so there is none. It is the same for any number
of words, and for any separator. -/
theorem format_separated {c : Char} (hc : isAlphanumeric c = false) :
    (∀ a b : String, beginsWithDigit a.toList = false → beginsWithDigit b.toList = false →
      format (a ++ String.singleton c ++ b) =
        if isNameable a then if isNameable b then format a ++ format b else format a
        else if isNameable b then format b else failed) ∧
    ∀ words : List String, (∀ w ∈ words, beginsWithDigit w.toList = false) →
      format ((String.singleton c).intercalate words) =
        (if words.any isNameable then joinedNames words else failed) ∧
      ∀ d, isAlphanumeric d = false →
        format ((String.singleton d).intercalate words) =
          format ((String.singleton c).intercalate words) := by
  refine ⟨fun a b ha hb => ?_, fun words hwords => ⟨format_intercalate hc hwords, fun d hd => ?_⟩⟩
  · have hwords : ∀ w ∈ [a, b], beginsWithDigit w.toList = false := by simp [ha, hb]
    have h := format_intercalate hc hwords
    rw [String.intercalate_cons_cons, String.intercalate_singleton] at h
    rw [h]
    by_cases hna : isNameable a <;> by_cases hnb : isNameable b <;>
      simp [joinedNames, hna, hnb, String.join_cons]
  · rw [format_intercalate hc hwords, format_intercalate hd hwords]

/-- A word that is a sign gives nothing to a name, and a hyphen is as good as an underscore. -/
theorem format_separated_sample :
    format "url_é" = "URL" ∧ format "user_id" = "UserID" ∧ format "user-id" = format "user_id" := by
  obtain ⟨htwo, hmany⟩ := format_separated (show isAlphanumeric '_' = false by decide)
  have hsign := htwo "url" "é" (by decide) (by decide)
  obtain ⟨hname, hother⟩ := hmany ["user", "id"] (by decide)
  exact ⟨hsign.trans (by decide +kernel), hname.trans (by decide +kernel), hother '-' (by decide)⟩

end GoShape.Identifier
