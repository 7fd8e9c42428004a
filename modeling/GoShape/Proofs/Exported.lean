import GoShape.Options
import GoShape.Type

/-! Formatted names as exported names. No pass over a key moves a character, and the first letter or
digit of a key becomes the first character of its name: a small letter there is made a capital, and a
digit is written as a word if the whole key begins with it. A digit that stands behind other
characters is kept, so the name then begins with it. -/
namespace GoShape

theorem isSmall_iff {c : Char} : isSmall c ↔ 97 ≤ c.toNat ∧ c.toNat ≤ 122 := by
  simp only [isSmall, Bool.and_eq_true, decide_eq_true_eq, Char.le_def, UInt32.le_iff_toNat_le]
  exact Iff.rfl

theorem isCapital_iff {c : Char} : isCapital c ↔ 65 ≤ c.toNat ∧ c.toNat ≤ 90 := by
  simp only [isCapital, Bool.and_eq_true, decide_eq_true_eq, Char.le_def, UInt32.le_iff_toNat_le]
  exact Iff.rfl

theorem isSome_ofChar?_iff {c : Char} :
    (Digit.ofChar? c).isSome ↔ 48 ≤ c.toNat ∧ c.toNat ≤ 57 := by
  unfold Digit.ofChar?
  split
  · exact iff_of_true rfl (by omega)
  · exact iff_of_false nofun (by omega)

/-- The characters that are kept: letters and digits. -/
theorem isAlphanumeric_iff {c : Char} :
    isAlphanumeric c ↔ isSmall c ∨ isCapital c ∨ (Digit.ofChar? c).isSome := by
  have hdigit : '0' ≤ c ∧ c ≤ '9' ↔ 48 ≤ c.toNat ∧ c.toNat ≤ 57 := by
    simp only [Char.le_def, UInt32.le_iff_toNat_le]
    exact Iff.rfl
  simp [isAlphanumeric, isSome_ofChar?_iff, hdigit, or_assoc]

/-- The characters that are dropped. -/
theorem isAlphanumeric_eq_false_iff {c : Char} :
    isAlphanumeric c = false ↔ isSmall c = false ∧ isCapital c = false ∧ Digit.ofChar? c = none := by
  rw [Bool.eq_false_iff, ne_eq, isAlphanumeric_iff, not_or, not_or]
  simp

theorem isSmall_of_isCapital {c : Char} (h : isCapital c) : isSmall c = false := by
  rw [isCapital_iff] at h
  rw [Bool.eq_false_iff, ne_eq, isSmall_iff]
  omega

theorem isCapital_capital {c : Char} (h : isSmall c) : isCapital (capital c) := by
  have hall : ∀ n : Fin 123, 97 ≤ n.val → isCapital (Char.ofNat (n.val - 32)) := by decide
  obtain ⟨hlow, hhigh⟩ := isSmall_iff.mp h
  rw [capital, if_pos h]
  exact hall ⟨c.toNat, by omega⟩ hlow

/-- A letter or a digit stays one. -/
theorem isAlphanumeric_capital (c : Char) : isAlphanumeric (capital c) = isAlphanumeric c := by
  by_cases h : isSmall c
  · rw [Bool.eq_iff_iff, isAlphanumeric_iff, isAlphanumeric_iff]
    simp [h, isCapital_capital h]
  · rw [capital_of_not_small (by simpa using h)]

/-- A letter has a capital, and a digit has none. -/
theorem isCapital_capital_iff {c : Char} (h : isAlphanumeric c) :
    isCapital (capital c) ↔ ¬ (Digit.ofChar? c).isSome := by
  by_cases hs : isSmall c
  · have hdigit : ¬ (Digit.ofChar? c).isSome := by
      rw [isSmall_iff] at hs
      rw [isSome_ofChar?_iff]
      omega
    exact iff_of_true (isCapital_capital hs) hdigit
  · rw [capital_of_not_small (by simpa using hs)]
    rw [isAlphanumeric_iff, isCapital_iff, isSome_ofChar?_iff] at h
    rw [isCapital_iff, isSome_ofChar?_iff]
    have hother := h.resolve_left hs
    omega

namespace Identifier

/-- A capital, and behind it letters and digits only. -/
def IsExported (name : String) : Prop :=
  ∃ c cs, name.toList = c :: cs ∧ isCapital c ∧ ∀ d ∈ cs, isAlphanumeric d

/-- The name of a key without a letter or a digit, or an exported name. -/
def IsName (name : String) : Prop := name = failed ∨ IsExported name

/-- The first letter or digit of a key is a digit, and the key does not begin with it. -/
def HidesDigit (key : String) : Prop :=
  ∃ d, key.toList.find? isAlphanumeric = some d ∧ (Digit.ofChar? d).isSome ∧
    key.toList.head? ≠ some d

/-- The text begins with a digit. -/
def beginsWithDigit (cs : List Char) : Bool := (cs.head?.bind Digit.ofChar?).isSome

theorem spellDigits_of_not_begins {cs : List Char} (h : beginsWithDigit cs = false) :
    spellDigits cs = cs := by
  cases cs with
  | nil => rfl
  | cons c cs =>
    have hc : Digit.ofChar? c = none := by simpa [beginsWithDigit] using h
    rw [spellDigits, hc]

/-! ### The first character of a name -/

theorem find?_capitalizeWords (cs : List Char) :
    (capitalizeWords .wordStart cs).find? isAlphanumeric =
      (cs.find? isAlphanumeric).map capital := by
  induction cs with
  | nil => rfl
  | cons c cs ih =>
    by_cases ha : isAlphanumeric c
    · by_cases hs : isSmall c
      · simp [capitalizeWords, hs, ha, isAlphanumeric_capital]
      · simp [capitalizeWords, hs, ha, capital_of_not_small]
    · have hnone := isAlphanumeric_eq_false_iff.mp (by simpa using ha)
      simp [capitalizeWords, hnone, ha, ih]

theorem find?_capitalizeRuns (cs : List Char) :
    (capitalizeRuns false cs).find? isAlphanumeric = cs.find? isAlphanumeric := by
  induction cs with
  | nil => rfl
  | cons c cs ih =>
    by_cases ha : isAlphanumeric c
    · simp only [capitalizeRuns]
      split <;> simp [ha]
    · have hnone := isAlphanumeric_eq_false_iff.mp (by simpa using ha)
      simp [capitalizeRuns, hnone, ha, ih]

theorem head?_formatChars (raw : List Char) :
    (formatChars raw).head? = ((spellDigits raw).find? isAlphanumeric).map capital := by
  rw [formatChars, List.head?_filter, find?_capitalizeRuns, find?_capitalizeWords]

/-- A key that begins with no digit is not introduced by a word. -/
theorem head?_formatChars_of_not_begins {raw : List Char} (h : beginsWithDigit raw = false) :
    (formatChars raw).head? = (raw.find? isAlphanumeric).map capital := by
  rw [head?_formatChars, spellDigits_of_not_begins h]

theorem isCapital_head?_digitWord (d : Digit) : (digitWord d).toList.head?.any isCapital := by
  revert d
  decide

/-- A key that begins with a digit is introduced by a word. -/
theorem exists_head?_formatChars {raw : List Char} (h : beginsWithDigit raw) :
    ∃ u, (formatChars raw).head? = some u ∧ isCapital u := by
  obtain ⟨d, hd⟩ := Option.isSome_iff_exists.mp h
  obtain ⟨c, hc, hcd⟩ := Option.bind_eq_some_iff.mp hd
  obtain ⟨cs, rfl⟩ := List.head?_eq_some_iff.mp hc
  have hspelled : ∃ u us, spellDigits (c :: cs) = u :: us ∧ isCapital u := by
    simp only [spellDigits, hcd]
    split
    · exact ⟨'N', _, rfl, by decide⟩
    · obtain ⟨u, hu, hcapital⟩ := (Option.any_eq_true _ _).mp (isCapital_head?_digitWord d)
      obtain ⟨us, hus⟩ := List.head?_eq_some_iff.mp hu
      exact ⟨u, us ++ cs, by rw [hus, List.cons_append], hcapital⟩
  obtain ⟨u, us, hu, hcapital⟩ := hspelled
  have ha : isAlphanumeric u := isAlphanumeric_iff.mpr (.inr (.inl hcapital))
  refine ⟨u, ?_, hcapital⟩
  rw [head?_formatChars, hu, List.find?_cons_of_pos ha, Option.map_some,
    capital_of_not_small (isSmall_of_isCapital hcapital)]

/-- A digit at the beginning of a key is its first letter or digit. -/
theorem find?_eq_head? {raw : List Char} (h : beginsWithDigit raw) :
    raw.find? isAlphanumeric = raw.head? := by
  cases raw with
  | nil => rfl
  | cons c cs => exact List.find?_cons_of_pos (isAlphanumeric_iff.mpr (.inr (.inr h)))

/-! ### Names -/

theorem isAlphanumeric_of_mem_formatChars {raw : List Char} {c : Char} (h : c ∈ formatChars raw) :
    isAlphanumeric c :=
  (List.mem_filter.mp h).2

theorem formatChars_eq_nil_iff {raw : List Char} :
    formatChars raw = [] ↔ raw.find? isAlphanumeric = none := by
  by_cases hdigit : beginsWithDigit raw
  · obtain ⟨u, hu, -⟩ := exists_head?_formatChars hdigit
    have hname : formatChars raw ≠ [] := by
      intro hnil
      rw [hnil] at hu
      cases hu
    have hraw : raw.find? isAlphanumeric ≠ none := by
      intro hnone
      rw [beginsWithDigit, ← find?_eq_head? hdigit, hnone] at hdigit
      cases hdigit
    exact iff_of_false hname hraw
  · rw [← List.head?_eq_none_iff, head?_formatChars_of_not_begins (by simpa using hdigit),
      Option.map_eq_none_iff]

theorem toList_format {raw : String} (h : formatChars raw.toList ≠ []) :
    (format raw).toList = formatChars raw.toList := by
  rw [format]
  simp [h]

/-- The name of a key without letters and digits has an underscore, and no other name has. -/
theorem format_eq_failed_iff {raw : String} :
    format raw = failed ↔ raw.toList.find? isAlphanumeric = none := by
  rw [← formatChars_eq_nil_iff]
  constructor
  · intro h
    by_cases hne : formatChars raw.toList = []
    · exact hne
    · have hmem : '_' ∈ formatChars raw.toList := by
        rw [← toList_format hne, h]
        decide
      exact absurd (isAlphanumeric_of_mem_formatChars hmem) (by decide)
  · intro h
    simp [format, h]

theorem isExported_format_iff {raw : String} {u : Char}
    (h : (formatChars raw.toList).head? = some u) : IsExported (format raw) ↔ isCapital u := by
  obtain ⟨us, hus⟩ := List.head?_eq_some_iff.mp h
  have hname : (format raw).toList = u :: us := by
    rw [toList_format (by simp [hus]), hus]
  constructor
  · rintro ⟨c, cs, hc, hcapital, -⟩
    obtain ⟨rfl, -⟩ := List.cons_eq_cons.mp (hname.symm.trans hc)
    exact hcapital
  · intro hcapital
    refine ⟨u, us, hname, hcapital, fun d hd => ?_⟩
    have hmem : d ∈ formatChars raw.toList := by simp [hus, hd]
    exact isAlphanumeric_of_mem_formatChars hmem

/-- A formatted name is an exported one, unless it begins with a digit that does not stand first in
the key. -/
theorem isName_format {raw : String} : IsName (format raw) ↔ ¬ HidesDigit raw := by
  rw [IsName, format_eq_failed_iff]
  by_cases hdigit : beginsWithDigit raw.toList
  · obtain ⟨u, hu, hcapital⟩ := exists_head?_formatChars hdigit
    refine iff_of_true (.inr ((isExported_format_iff hu).mpr hcapital)) ?_
    rintro ⟨d, hfind, -, hhead⟩
    exact hhead ((find?_eq_head? hdigit).symm.trans hfind)
  · cases hfind : raw.toList.find? isAlphanumeric with
    | none =>
      refine iff_of_true (.inl rfl) ?_
      rintro ⟨d, hd, -⟩
      cases hfind.symm.trans hd
    | some e =>
      have hu : (formatChars raw.toList).head? = some (capital e) := by
        rw [head?_formatChars_of_not_begins (by simpa using hdigit), hfind, Option.map_some]
      have ha : isAlphanumeric e := List.find?_some hfind
      rw [isExported_format_iff hu, isCapital_capital_iff ha]
      constructor
      · rintro (hnone | hnot) ⟨d, hd, hdd, -⟩
        · cases hnone
        · obtain rfl := Option.some.inj (hfind.symm.trans hd)
          exact hnot hdd
      · intro hhides
        refine .inr fun hed => hhides ⟨e, hfind, hed, fun hhead => hdigit ?_⟩
        rw [beginsWithDigit, hhead]
        exact hed

/-- A declared type has the default name, or the name that is given with no digit hidden in it. -/
theorem isName_rootName (o : Options) :
    IsName o.rootName ↔ ∀ name ∈ o.typeName, ¬ HidesDigit name := by
  obtain ⟨typeName, limit⟩ := o
  have hrest : "utoGenerated".toList.all isAlphanumeric = true := by decide
  have hdefault : IsName Options.defaultTypeName :=
    .inr ⟨'A', "utoGenerated".toList, rfl, by decide, List.all_eq_true.mp hrest⟩
  cases typeName with
  | none => simpa [Options.rootName] using hdefault
  | some name =>
    by_cases hempty : name = ""
    · subst hempty
      have hno : ¬ HidesDigit "" := by
        rintro ⟨d, hd, -⟩
        cases hd
      simpa [Options.rootName, hno] using hdefault
    · simp [Options.rootName, hempty, isName_format]

end Identifier

open Identifier in
/-- The name of a key is an exported name, or the name for keys without a letter or a digit, exactly
if the first letter or digit of the key is no digit behind other characters. So are the names of
fields and of declared types. Otherwise, too, a name holds nothing but letters and digits. -/
theorem isName_format_iff (raw : String) (type : GoType) (optional : Bool) (o : Options) :
    (IsName (format raw) ↔ ¬ HidesDigit raw) ∧
    (format raw = failed ↔ ∀ c ∈ raw.toList, isAlphanumeric c = false) ∧
    (format raw = failed ∨ format raw ≠ "" ∧ ∀ c ∈ (format raw).toList, isAlphanumeric c) ∧
    (IsName (Field.ofKey raw type optional).name ↔ ¬ HidesDigit raw) ∧
    (IsName o.rootName ↔ ∀ name ∈ o.typeName, ¬ HidesDigit name) := by
  refine ⟨isName_format, ?_, ?_, isName_format, ?_⟩
  · simp [format_eq_failed_iff]
  · by_cases h : format raw = failed
    · exact .inl h
    have hne : formatChars raw.toList ≠ [] := fun hnil =>
      h (format_eq_failed_iff.mpr (formatChars_eq_nil_iff.mp hnil))
    have hname := toList_format hne
    refine .inr ⟨?_, fun c hc => ?_⟩
    · intro hempty
      rw [hempty] at hname
      exact hne hname.symm
    · rw [hname] at hc
      exact isAlphanumeric_of_mem_formatChars hc
  · exact isName_rootName o

/-- A digit behind an underscore comes first in the name. -/
example : Identifier.format "_3d" = "3D" := by decide +kernel

end GoShape
