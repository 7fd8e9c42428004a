import GoShape.Proofs.Fractions
import GoShape.Proofs.Nearest

/-! The kind of a number as a property of its value. There are three ways to it: a written integer of 64
bits is looked at as such, with or without a sign, and any other number as the nearest one of the binary
format. All three end where the value itself leads, rounded once, so how a number is written does not
matter. -/
namespace GoShape

open Binary64

/-- The kind of a number of the format, or of an infinite one. -/
def Scalar.ofRounded : Option ℚ → Scalar
  | none => .float64
  | some r =>
    if r.isInt then if -2147483648 < r ∧ r < 2147483647 then .int else .int64 else .float64

namespace Scalar

theorem ofRounded_intCast (i : ℤ) : ofRounded (some (i : ℚ)) = ofInteger i := by
  have hrange : (-2147483648 < (i : ℚ) ∧ (i : ℚ) < 2147483647) ↔ -2147483648 < i ∧ i < 2147483647 := by
    constructor <;> rintro ⟨hlo, hhi⟩ <;> exact ⟨by exact_mod_cast hlo, by exact_mod_cast hhi⟩
  simp only [ofRounded, ofInteger, hrange, Rat.isInt, Rat.den_intCast, beq_self_eq_true, if_true]

theorem ofRounded_of_ne {r : ℚ} (h : ∀ i : ℤ, r ≠ i) : ofRounded (some r) = .float64 := by
  have hden : ¬ r.isInt := by
    intro hint
    exact h r.num (Rat.den_eq_one_iff r |>.mp (by simpa [Rat.isInt] using hint)).symm
  simp [ofRounded, hden]

/-- Rounding does not change the kind of an integer. -/
theorem ofRounded_of_int {i : ℤ} {r : ℚ} (h : IsNearest i r) : ofRounded (some r) = ofInteger i := by
  obtain ⟨j, rfl⟩ := h.exists_int
  have hlo := h.lt_iff_of_int (b := -2147483648) (by norm_num)
  have hhi := h.gt_iff_of_int (b := 2147483647) (by norm_num)
  rw [Int.cast_lt] at hlo hhi
  simp only [ofRounded_intCast, ofInteger, hlo, hhi]

theorem ofRounded_of_word {i : ℤ} {r : Option ℚ} (h : RoundsTo i r) (hi : |i| ≤ 2 ^ 64) :
    ofRounded r = ofInteger i := by
  cases h with
  | finite _ nearest => exact ofRounded_of_int nearest
  | infinite large =>
    have hword : |(i : ℚ)| ≤ 2 ^ 64 := by exact_mod_cast hi
    exact absurd (large.trans hword) word_lt_tooLarge.not_ge

/-- The kind of a number of the format, taken from its bits and its sign. -/
def ofDouble (negative : Bool) (x : Binary64) : Scalar :=
  match x.integer? with
  | some m => .ofInteger (if negative then -m else m)
  | none => .float64

theorem ofDouble_eq (negative : Bool) (x : Binary64) :
    ofDouble negative x = ofRounded (some (if negative then -x.toRat else x.toRat)) := by
  unfold ofDouble
  cases hx : x.integer? with
  | some m =>
    have hm := (integer?_eq_some_iff x m).mp hx
    have hcast : (if negative then -x.toRat else x.toRat) = ((if negative then -m else m : ℤ) : ℚ) := by
      rw [hm]
      cases negative <;> simp
    rw [hcast, ofRounded_intCast]
  | none =>
    have hne := (integer?_eq_none_iff x).mp hx
    refine (ofRounded_of_ne fun i hi => hne i.natAbs ?_).symm
    have hnonneg : 0 ≤ x.toRat := mul_nonneg (Nat.cast_nonneg _) (two_zpow_pos _).le
    have habs : x.toRat = |(i : ℚ)| := by
      rw [← hi]
      cases negative <;> simp [abs_of_nonneg hnonneg]
    rw [habs, Nat.cast_natAbs, Int.cast_abs]

end Scalar

namespace Json

namespace Number

/-- The number as a fraction. -/
def value (n : Number) : ℚ := if n.negative then -n.magnitude else n.magnitude

/-! ### The three ways -/

/-- The integer of 64 bits with a sign that is written here. -/
def signed? (n : Number) : Option Int :=
  n.integer?.filter fun i => -(Nat.pow 2 63 : Int) ≤ i && i < (Nat.pow 2 63 : Int)

/-- An integer of 64 bits without a sign is written here. -/
def isUnsigned (n : Number) : Bool := !n.negative && n.integer?.any (· < (Nat.pow 2 64 : Int))

/-- A written integer, rounded to the format. -/
def kindOfWord (i : Int) : Scalar :=
  match Binary64.nearest? i.natAbs 1 with
  | some x => .ofDouble (i < 0) x
  | none => .float64

/-- Any number, rounded to the format. -/
def kindOfNearest (n : Number) : Scalar :=
  match n.nearest? with
  | some x => .ofDouble n.negative x
  | none => .float64

/-- The first way that is open decides. -/
def kindByWay (n : Number) : Scalar :=
  match n.signed? with
  | some i => kindOfWord i
  | none => if n.isUnsigned then .int64 else n.kindOfNearest

/-! ### Where they lead -/

theorem roundsTo_value (n : Number) :
    RoundsTo n.value (n.nearest?.map fun x => if n.negative then -x.toRat else x.toRat) := by
  have h := roundsTo_ofRat? n.magnitude_nonneg
  rw [nearest?_eq_ofRat?, value]
  split_ifs
  · have hneg := h.neg
    rwa [Option.map_map] at hneg
  · exact h

theorem value_of_integer? {n : Number} {i : ℤ} (h : n.integer? = some i) : n.value = i := by
  unfold integer? at h
  split_ifs at h with hplain hneg
  all_goals
    obtain rfl := Option.some.inj h
    obtain ⟨hfraction, hexponent⟩ : n.fraction = [] ∧ n.exponent = none := by simpa using hplain
    have hmagnitude : n.magnitude = n.coefficient := by simp [magnitude, scale, hfraction, hexponent]
    simp [value, hneg, hmagnitude]

theorem kindOfNearest_eq {n : Number} {r : Option ℚ} (h : RoundsTo n.value r) :
    n.kindOfNearest = .ofRounded r := by
  obtain rfl := h.unique n.roundsTo_value
  unfold kindOfNearest
  cases n.nearest? with
  | none => rfl
  | some x => exact Scalar.ofDouble_eq _ x

theorem roundsTo_int (i : ℤ) : RoundsTo i
    ((Binary64.nearest? i.natAbs 1).map fun x => if i < 0 then -x.toRat else x.toRat) := by
  have hcast : ((i.natAbs : ℕ) : ℚ) = |(i : ℚ)| := by rw [Nat.cast_natAbs, Int.cast_abs]
  rw [nearest?_eq _ one_pos, Nat.cast_one, div_one, hcast]
  split_ifs with hneg
  · have hi : (i : ℚ) ≤ 0 := by exact_mod_cast hneg.le
    have h := (roundsTo_ofRat? (neg_nonneg.mpr hi)).neg
    rw [Option.map_map, neg_neg] at h
    rwa [abs_of_nonpos hi]
  · have hi : (0 : ℚ) ≤ i := by exact_mod_cast not_lt.mp hneg
    rw [abs_of_nonneg hi]
    exact roundsTo_ofRat? hi

theorem kindOfWord_eq {i : ℤ} {r : Option ℚ} (h : RoundsTo i r) : kindOfWord i = .ofRounded r := by
  obtain rfl := h.unique (roundsTo_int i)
  unfold kindOfWord
  cases Binary64.nearest? i.natAbs 1 with
  | none => rfl
  | some x => simp only [Scalar.ofDouble_eq, Option.map_some, decide_eq_true_eq]

section

variable {n : Number} {r : Option ℚ}

theorem signed?_eq_some_iff {i : ℤ} :
    n.signed? = some i ↔ n.integer? = some i ∧ -2 ^ 63 ≤ i ∧ i < 2 ^ 63 := by
  simp [signed?, Option.filter_eq_some_iff]

theorem isUnsigned_iff :
    n.isUnsigned ↔ n.negative = false ∧ ∃ i, n.integer? = some i ∧ i < 2 ^ 64 := by
  simp [isUnsigned, Option.any_eq_true]

theorem kindOfWord_of_signed {i : ℤ} (h : RoundsTo n.value r) (hi : n.signed? = some i) :
    kindOfWord i = .ofRounded r := by
  rw [value_of_integer? (signed?_eq_some_iff.mp hi).1] at h
  exact kindOfWord_eq h

/-- An integer that needs all of its 64 bits is far from the small ones. -/
theorem ofRounded_of_unsigned (h : RoundsTo n.value r) (hsigned : n.signed? = none)
    (hunsigned : n.isUnsigned) : Scalar.ofRounded r = .int64 := by
  obtain ⟨hpositive, i, hi, hlt⟩ := isUnsigned_iff.mp hunsigned
  have hnonneg : 0 ≤ i := by
    have hmagnitude := n.magnitude_nonneg
    have hvalue := value_of_integer? hi
    rw [value, hpositive, if_neg Bool.false_ne_true] at hvalue
    rw [hvalue] at hmagnitude
    exact_mod_cast hmagnitude
  have hlarge : 2 ^ 63 ≤ i := by
    by_contra hsmall
    rw [signed?_eq_some_iff.mpr ⟨hi, by omega, by omega⟩] at hsigned
    nomatch hsigned
  rw [value_of_integer? hi] at h
  rw [Scalar.ofRounded_of_word h (by rw [abs_of_nonneg hnonneg]; omega), Scalar.ofInteger,
    if_neg (by omega)]

theorem kindByWay_eq (h : RoundsTo n.value r) : n.kindByWay = .ofRounded r := by
  unfold kindByWay
  cases hsigned : n.signed? with
  | some i => exact kindOfWord_of_signed h hsigned
  | none =>
    simp only
    split_ifs with hunsigned
    · exact (ofRounded_of_unsigned h hsigned hunsigned).symm
    · exact kindOfNearest_eq h

theorem scalar_eq (h : RoundsTo n.value r) : n.scalar = .ofRounded r := by
  unfold scalar
  cases hword : n.word? with
  | some i =>
    obtain ⟨hi, hfits⟩ := Option.filter_eq_some_iff.mp hword
    obtain ⟨hlo, hhi⟩ : -2 ^ 63 ≤ i ∧ i < 2 ^ 64 := by simpa [fitsWord] using hfits
    rw [value_of_integer? hi] at h
    exact (Scalar.ofRounded_of_word h (by rw [abs_le]; omega)).symm
  | none =>
    rw [← kindOfNearest_eq h]
    unfold kindOfNearest nearestInteger? Scalar.ofDouble
    cases n.nearest? with
    | none => rfl
    | some x => cases hx : x.integer? <;> simp [hx]

end

end Number

theorem parse_literal (l : Syntax.Literal) :
    parse (String.ofList l.chars) = .ok (.number l.number) := by
  have h := toOption_parse ⟨.none, .number l, .none⟩
  rw [show Syntax.documentChars ⟨.none, .number l, .none⟩ = l.chars by
    simp [Syntax.documentChars, Syntax.Tree.chars, Syntax.Blanks.none]] at h
  simp only [Syntax.Tree.value?] at h
  cases hparse : parse (String.ofList l.chars) with
  | error e => simp [hparse, Except.toOption] at h
  | ok v => simpa [hparse, Except.toOption] using h

/-- The kind of a written number is that of its value, rounded once, on every way that is open to it.
Numbers of one value are of one kind. -/
theorem kind_literal (l : Syntax.Literal) :
    parse (String.ofList l.chars) = .ok (.number l.number) ∧
    ∃ r, (∀ r', RoundsTo l.number.value r' ↔ r' = r) ∧
      kind (.number l.number) = .scalar (.ofRounded r) ∧
      l.number.kindByWay = .ofRounded r ∧
      (∀ i, l.number.signed? = some i → Number.kindOfWord i = .ofRounded r) ∧
      (l.number.signed? = none → l.number.isUnsigned → Scalar.ofRounded r = .int64) ∧
      l.number.kindOfNearest = .ofRounded r ∧
      ∀ l' : Syntax.Literal, l'.number.value = l.number.value →
        kind (.number l'.number) = kind (.number l.number) := by
  have h := l.number.roundsTo_value
  refine ⟨parse_literal l, _, fun r' => ⟨fun h' => h'.unique h, fun e => e ▸ h⟩, ?_,
    Number.kindByWay_eq h, fun i => Number.kindOfWord_of_signed h, Number.ofRounded_of_unsigned h,
    Number.kindOfNearest_eq h, fun l' hvalue => ?_⟩
  · rw [kind, Number.scalar_eq h]
  · have h' : RoundsTo l'.number.value _ := hvalue ▸ h
    rw [kind, kind, Number.scalar_eq h, Number.scalar_eq h']

/-- `1e3` and `1000.0` are of the kind of `1000`, which is a word with a sign, the negative zero is of the
kind of zero, and `9223372036854775808` needs all bits of a word. -/
theorem kind_literal_samples :
    kind (.number ⟨false, [1], [], some ⟨false, [3]⟩⟩) = .scalar (Number.kindOfWord 1000) ∧
    kind (.number ⟨false, [1, 0, 0, 0], [0], none⟩) = .scalar (Number.kindOfWord 1000) ∧
    kind (.number ⟨true, [0], [], none⟩) = kind (.number ⟨false, [0], [], none⟩) ∧
    kind (.number ⟨false, [9, 2, 2, 3, 3, 7, 2, 0, 3, 6, 8, 5, 4, 7, 7, 5, 8, 0, 8], [], none⟩) =
      .scalar .int64 := by
  obtain ⟨-, r, -, hkind, -, hword, -, -, hsame⟩ := kind_literal ⟨false, 1, [0, 0, 0], [], none, nofun⟩
  obtain ⟨-, _, -, -, -, -, -, -, hzero⟩ := kind_literal ⟨false, 0, [], [], none, fun _ => rfl⟩
  obtain ⟨-, _, -, hlarge, -, -, hunsigned, -, -⟩ := kind_literal
    ⟨false, 9, [2, 2, 3, 3, 7, 2, 0, 3, 6, 8, 5, 4, 7, 7, 5, 8, 0, 8], [], none, nofun⟩
  have hthousand := hkind.trans (congrArg Kind.scalar (hword 1000 (by decide +kernel)).symm)
  refine ⟨?_, ?_, ?_, ?_⟩
  · exact (hsame ⟨false, 1, [], [], some ⟨false, none, [3], nofun⟩, nofun⟩ (by decide +kernel)).trans
      hthousand
  · exact (hsame ⟨false, 1, [0, 0, 0], [0], none, nofun⟩ (by decide +kernel)).trans hthousand
  · exact hzero ⟨true, 0, [], [], none, fun _ => rfl⟩ (by decide +kernel)
  · exact hlarge.trans (congrArg Kind.scalar (hunsigned (by decide +kernel) (by decide +kernel)))

end Json
end GoShape
