import GoShape.Proofs.Marking
import GoShape.Proofs.Rounding
import GoShape.Proofs.Unify

/-! Numbers that are written with a point. Such a number always has a declaration, and marking makes
sure that its fraction is not zero. It is a float if the fraction is still there behind the rounding:
an exponent may take the point away again, and an integer may be nearer than the format can tell. -/
namespace GoShape

namespace Digit

theorem value_append (ds es : List Digit) :
    value (ds ++ es) = value ds * 10 ^ es.length + value es := by
  induction es using List.reverseRecOn with
  | nil => simp
  | append_singleton es e ih =>
    rw [← List.append_assoc, value_append_singleton, ih, value_append_singleton, List.length_append,
      List.length_singleton, pow_succ]
    ring

theorem value_lt (ds : List Digit) : value ds < 10 ^ ds.length := by
  induction ds using List.reverseRecOn with
  | nil => simp
  | append_singleton ds d ih =>
    rw [value_append_singleton, List.length_append, List.length_singleton, pow_succ]
    omega

theorem value_cons_pos {d : Digit} (hd : d ≠ 0) (ds : List Digit) : 0 < value (d :: ds) := by
  have hval : 0 < d.val := Nat.pos_of_ne_zero fun e => hd (Fin.ext e)
  rw [← List.singleton_append, value_append]
  have hone : value [d] = d.val := by simp [value]
  rw [hone]
  positivity

end Digit

namespace Json

open Binary64

/-- The number without its sign. -/
def Number.magnitude (n : Number) : ℚ := n.coefficient * 10 ^ n.scale

namespace Number

theorem magnitude_nonneg (n : Number) : 0 ≤ n.magnitude := by
  unfold magnitude
  positivity

theorem nearest?_eq_ofRat? (n : Number) : n.nearest? = ofRat? n.magnitude :=
  ofDecimal?_eq n.coefficient n.scale

theorem nearestInteger?_eq_none_iff (n : Number) :
    n.nearestInteger? = none ↔ tooLarge ≤ n.magnitude ∨ ApartFromIntegers n.magnitude := by
  rw [← bind_integer?_eq_none_iff n.magnitude_nonneg, nearestInteger?, Option.map_eq_none_iff,
    nearest?_eq_ofRat?]
  cases (ofRat? n.magnitude).bind Binary64.integer? <;> simp

theorem word?_of_fraction {n : Number} (h : n.fraction ≠ []) : n.word? = none := by
  simp [word?, integer?, h]

theorem scalar_eq_float_iff {n : Number} (h : n.fraction ≠ []) :
    n.scalar = .float64 ↔ tooLarge ≤ n.magnitude ∨ ApartFromIntegers n.magnitude := by
  rw [← nearestInteger?_eq_none_iff, scalar, word?_of_fraction h]
  cases n.nearestInteger? with
  | none => simp
  | some i =>
    simp only [Scalar.ofInteger, reduceCtorEq, iff_false]
    split_ifs <;> decide

end Number

namespace Syntax

theorem point_mem_chars (l : Literal) : '.' ∈ l.chars ↔ l.fraction ≠ [] := by
  have hdigits : ∀ ds : List Digit, '.' ∉ ds.map Digit.toChar := by
    intro ds h
    obtain ⟨d, -, hd⟩ := List.mem_map.mp h
    exact digit_ne_point d hd
  have hpower : '.' ∉ l.power.elim [] Power.chars := by
    cases l.power with
    | none => simp
    | some p =>
      obtain ⟨capital, sign, ds, -⟩ := p
      simp only [Option.elim_some, Power.chars, List.cons_append, List.mem_cons, List.mem_append,
        hdigits ds, or_false, not_or]
      refine ⟨by cases capital <;> simp, ?_⟩
      rcases sign with _ | _ | _ <;> decide
  have hsign : '.' ∉ (if l.negative then ['-'] else []) := by cases l.negative <;> decide
  simp only [Literal.chars, Literal.tailChars, List.mem_append, List.mem_cons, hsign, hdigits,
    hpower, (digit_ne_point l.first).symm, false_or, or_false]
  cases l.fraction <;> simp [fractionChars]

theorem markDigits_ne_nil {ds : List Digit} (h : ds ≠ []) : markDigits ds ≠ [] := by
  cases ds with
  | nil => exact absurd rfl h
  | cons d ds => simp [markDigits]

/-- Behind marking the fraction of a number is not zero. -/
theorem value_markDigits_pos {ds : List Digit} (h : ds ≠ []) : 0 < Digit.value (markDigits ds) := by
  obtain ⟨d, ds, rfl⟩ := List.exists_cons_of_ne_nil h
  have hne : ∀ d : Digit, markDigit d ≠ 0 := by decide
  exact Digit.value_cons_pos (hne d) ds

theorem length_markDigits (ds : List Digit) : (markDigits ds).length = ds.length := by
  cases ds <;> rfl

/-- Without an exponent, fifteen digits are few enough for the fraction to last. -/
theorem scalar_mark_of_short {l : Literal} (h : l.fraction ≠ []) (hpower : l.power = none)
    (hshort : l.more.length + l.fraction.length < 15) : l.mark.number.scalar = .float64 := by
  obtain ⟨negative, first, more, fraction, power, hzero⟩ := l
  simp only at h hpower hshort
  subst hpower
  have hvalue := value_markDigits_pos h
  have hlt := Digit.value_lt (markDigits fraction)
  have hcoefficient := Digit.value_lt ((first :: more) ++ markDigits fraction)
  have hfew : 10 ^ fraction.length ≤ 10 ^ 15 := Nat.pow_le_pow_right (by norm_num) (by omega)
  have hall : 10 ^ (more.length + 1 + fraction.length) ≤ 10 ^ 15 :=
    Nat.pow_le_pow_right (by norm_num) (by omega)
  rw [length_markDigits] at hlt
  rw [List.length_append, List.length_cons, length_markDigits] at hcoefficient
  have hdvd : ¬ 10 ^ fraction.length ∣ Digit.value ((first :: more) ++ markDigits fraction) := by
    rw [Digit.value_append, length_markDigits, Nat.dvd_add_right (Nat.dvd_mul_left _ _)]
    exact Nat.not_dvd_of_pos_of_lt hvalue hlt
  have hapart := apartFromIntegers_div (hcoefficient.trans_le (hall.trans (by norm_num)))
    (hfew.trans (by norm_num)) hdvd
  apply (Number.scalar_eq_float_iff (markDigits_ne_nil h)).mpr
  right
  simpa [Number.magnitude, Number.coefficient, Number.scale, Literal.number, Literal.mark,
    length_markDigits, div_eq_mul_inv] using hapart

end Syntax

theorem sampleType_literal (l : Syntax.Literal) :
    sampleType (String.ofList l.chars) = .ok (.scalar l.mark.number.scalar) := by
  let none : Syntax.Blanks := ⟨[], by simp⟩
  have hvalue : (Syntax.Tree.number l).mark.value? Document.maxDepth =
      some (.number l.mark.number) := by
    simp only [Syntax.Tree.mark, Syntax.Tree.value?]
  have hchars : Syntax.documentChars ⟨none, .number l, none⟩ = l.chars := by
    simp [Syntax.documentChars, Syntax.Tree.chars, none]
  have hs := sampleType_of_value? (d := ⟨none, .number l, none⟩) hvalue
  rwa [hchars] at hs

/-- A number written with a point has a declaration, whatever its digits and its exponent. It is a
float exactly if its marked form is too large for the format or farther from every integer than half
the spacing of the format, as it is if there are at most fifteen digits and no exponent. -/
theorem convert_literal (l : Syntax.Literal) (h : '.' ∈ l.chars) (typeName : Option String) :
    ∃ s, sampleType (String.ofList l.chars) = .ok (.scalar s) ∧
      convert (String.ofList l.chars) ⟨typeName, none⟩ =
        ⟨declaration (Options.rootName ⟨typeName, none⟩) (.scalar s), none⟩ ∧
      (s = .int ∨ s = .int64 ∨ s = .float64) ∧
      (s = .float64 ↔
        tooLarge ≤ l.mark.number.magnitude ∨ ApartFromIntegers l.mark.number.magnitude) ∧
      (l.power = none → l.more.length + l.fraction.length < 15 → s = .float64) := by
  have hs := sampleType_literal l
  have hfraction := (Syntax.point_mem_chars l).mp h
  refine ⟨l.mark.number.scalar, hs, ?_, Number.scalar_number _,
    Number.scalar_eq_float_iff (Syntax.markDigits_ne_nil hfraction),
    Syntax.scalar_mark_of_short hfraction⟩
  rw [convert, declare_of_sampleType hs, Conversion.ofResult]

/-- The one digit behind the point of `2.0` is marked, and the number is a float. -/
theorem convert_literal_sample :
    (convert "2.0" ⟨none, none⟩).go = "type AutoGenerated float64" := by
  obtain ⟨s, -, hconvert, -, -, hshort⟩ :=
    convert_literal ⟨false, 2, [], [0], none, nofun⟩ (by decide) none
  obtain rfl := hshort rfl (by decide)
  exact congrArg Conversion.go hconvert

/-- The exponent of `1.5e1` takes its point away. -/
example : (convert "1.5e1" ⟨none, none⟩).go = "type AutoGenerated int" := by decide +kernel

end Json
end GoShape
