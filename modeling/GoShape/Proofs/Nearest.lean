import GoShape.Proofs.Rounding
import Mathlib.Algebra.Order.Ring.Int

/-! The nearest number of the binary format, by comparison with all the others. There is one for each
number that is not too large, it is the one that rounding finds, and it is never on the other side of a
third number of the format. An integer is rounded to an integer, on the same side of every small one. -/
namespace GoShape.Binary64

/-- A finite number of the format, with its sign: the mantissa has 53 bits. -/
def IsDouble (x : ℚ) : Prop :=
  ∃ m e : ℤ, |m| < 2 ^ 53 ∧ -1074 ≤ e ∧ e ≤ 971 ∧ x = m * 2 ^ e

/-- A finite number of the format whose mantissa is even. The mantissa is as great as it can be. -/
def HasEvenMantissa (x : ℚ) : Prop :=
  ∃ m e : ℤ, |m| < 2 ^ 53 ∧ -1074 ≤ e ∧ e ≤ 971 ∧ (2 ^ 52 ≤ |m| ∨ e = -1074) ∧ Even m ∧ x = m * 2 ^ e

/-- No number of the format is nearer, and of two that are equally near it is the even one. -/
structure IsNearest (v x : ℚ) : Prop where
  double : IsDouble x
  nearest : ∀ y, IsDouble y → |v - x| ≤ |v - y|
  even : ∀ y, IsDouble y → y ≠ x → |v - y| = |v - x| → HasEvenMantissa x

variable {v x y : ℚ}

/-! ### Numbers of the format -/

theorem IsDouble.neg (h : IsDouble x) : IsDouble (-x) := by
  obtain ⟨m, e, hm, he, he', rfl⟩ := h
  exact ⟨-m, e, by rwa [abs_neg], he, he', by push_cast; ring⟩

theorem HasEvenMantissa.neg (h : HasEvenMantissa x) : HasEvenMantissa (-x) := by
  obtain ⟨m, e, hm, he, he', hnormal, heven, rfl⟩ := h
  exact ⟨-m, e, by rwa [abs_neg], he, he', by rwa [abs_neg], heven.neg, by push_cast; ring⟩

theorem HasEvenMantissa.isDouble (h : HasEvenMantissa x) : IsDouble x := by
  obtain ⟨m, e, hm, he, he', -, -, hx⟩ := h
  exact ⟨m, e, hm, he, he', hx⟩

/-- The format has the integers of 53 bits, and the next one. -/
theorem isDouble_intCast {i : ℤ} (h : |i| ≤ 2 ^ 53) : IsDouble i := by
  rcases lt_or_eq_of_le h with h | h
  · exact ⟨i, 0, h, by norm_num, by norm_num, by simp⟩
  · rcases (abs_eq (by norm_num)).mp h with rfl | rfl
    · exact ⟨2 ^ 52, 1, by norm_num, by norm_num, by norm_num, by norm_num⟩
    · exact ⟨-2 ^ 52, 1, by norm_num, by norm_num, by norm_num, by norm_num⟩

theorem isDouble_zero : IsDouble 0 := mod_cast isDouble_intCast (i := 0) (by norm_num)

/-- A number with a greater exponent is a multiple of the unit of a smaller one. -/
theorem mul_zpow_eq (n : ℤ) {e f : ℤ} (h : e ≤ f) :
    (n : ℚ) * 2 ^ f = (n * 2 ^ (f - e).toNat : ℤ) * 2 ^ e := by
  push_cast
  rw [mul_assoc, ← zpow_natCast, Int.toNat_of_nonneg (by omega), ← two_zpow_add, sub_add_cancel]

/-- With 53 bits a number stays below the normal ones of every greater exponent. -/
theorem mul_zpow_lt {n e f : ℤ} (hn : |n| < 2 ^ 53) (h : e < f) : (n : ℚ) * 2 ^ e < 2 ^ 52 * 2 ^ f := by
  have hnq : (n : ℚ) < 2 ^ 53 := by exact_mod_cast (le_abs_self n).trans_lt hn
  have hstep : (2 : ℚ) ^ (e + 1) ≤ 2 ^ f := zpow_le_zpow_right₀ (by norm_num) (by omega)
  calc (n : ℚ) * 2 ^ e < 2 ^ 53 * 2 ^ e := mul_lt_mul_of_pos_right hnq (two_zpow_pos e)
    _ = 2 ^ 52 * 2 ^ (e + 1) := by rw [two_zpow_add]; ring
    _ ≤ 2 ^ 52 * 2 ^ f := mul_le_mul_of_nonneg_left hstep (by norm_num)

theorem exists_isDouble_between_of_nonneg (hx : HasEvenMantissa x) (hy : HasEvenMantissa y) (h0 : 0 ≤ x)
    (h : x < y) : ∃ z, IsDouble z ∧ x < z ∧ z < y := by
  obtain ⟨m, e, hm, he, he', hnormal, hmeven, rfl⟩ := hx
  obtain ⟨n, f, hn, hf, hf', -, hneven, rfl⟩ := hy
  have hunit := two_zpow_pos e
  have hm0 : 0 ≤ m := by
    have := nonneg_of_mul_nonneg_left h0 hunit
    exact_mod_cast this
  rw [abs_of_nonneg hm0] at hm hnormal
  have hef : e ≤ f := by
    by_contra hlt
    have hlarge : (2 : ℚ) ^ 52 ≤ m := by exact_mod_cast hnormal.resolve_right (by omega)
    have hbelow := mul_zpow_lt hn (not_le.mp hlt)
    exact absurd h (hbelow.trans_le (mul_le_mul_of_nonneg_right hlarge hunit.le)).asymm
  rw [mul_zpow_eq n hef] at h ⊢
  have hlt : m < n * 2 ^ (f - e).toNat := by
    have := lt_of_mul_lt_mul_right h hunit.le
    exact_mod_cast this
  -- both are even multiples of the unit, so the next multiple lies between them
  obtain ⟨a, ha⟩ := hmeven
  obtain ⟨b, hb⟩ := hneven.mul_right (2 ^ (f - e).toNat)
  refine ⟨(m + 1 : ℤ) * 2 ^ e, ⟨m + 1, e, ?_, he, he', rfl⟩, ?_, ?_⟩
  · rw [abs_of_nonneg (by omega)]
    omega
  · exact mul_lt_mul_of_pos_right (by exact_mod_cast lt_add_one m) hunit
  · refine mul_lt_mul_of_pos_right ?_ hunit
    exact_mod_cast (by omega : m + 1 < n * 2 ^ (f - e).toNat)

/-- Two even numbers of the format are not neighbours. -/
theorem exists_isDouble_between (hx : HasEvenMantissa x) (hy : HasEvenMantissa y) (h : x < y) :
    ∃ z, IsDouble z ∧ x < z ∧ z < y := by
  rcases le_or_gt 0 x with h0 | h0
  · exact exists_isDouble_between_of_nonneg hx hy h0 h
  · rcases le_or_gt y 0 with h1 | h1
    · obtain ⟨z, hz, hyz, hzx⟩ :=
        exists_isDouble_between_of_nonneg hy.neg hx.neg (by linarith) (by linarith)
      exact ⟨-z, hz.neg, by linarith, by linarith⟩
    · exact ⟨0, isDouble_zero, h0, h1⟩

/-! ### The nearest number -/

namespace IsNearest

theorem neg (h : IsNearest v x) : IsNearest (-v) (-x) := by
  have hflip (y : ℚ) : |-v - y| = |v - -y| := by rw [← abs_neg]; congr 1; ring
  refine ⟨h.double.neg, fun y hy => ?_, fun y hy hne htie => ?_⟩
  · rw [hflip, hflip, neg_neg]
    exact h.nearest _ hy.neg
  · rw [hflip, hflip, neg_neg] at htie
    exact (h.even _ hy.neg (fun e => hne (by rw [← e, neg_neg])) htie).neg

theorem le (hx : IsNearest v x) (hy : IsNearest v y) : x ≤ y := by
  by_contra hle
  have hlt : y < x := lt_of_not_ge hle
  have hsame : |v - x| = |v - y| := le_antisymm (hx.nearest _ hy.double) (hy.nearest _ hx.double)
  obtain ⟨z, hz, hyz, hzx⟩ := exists_isDouble_between
    (hy.even x hx.double hlt.ne' hsame) (hx.even y hy.double hlt.ne hsame.symm) hlt
  -- both are equally far from `v`, which is then in the middle, and `z` is nearer
  have hmiddle : v = (x + y) / 2 := by
    rcases abs_eq_abs.mp hsame with h | h <;> linarith
  have hnear : |v - z| < |v - x| := by
    rw [abs_of_nonpos (by linarith : v - x ≤ 0), abs_lt]
    constructor <;> linarith
  exact absurd (hx.nearest z hz) hnear.not_ge

/-- There is at most one nearest number. -/
theorem unique (hx : IsNearest v x) (hy : IsNearest v y) : x = y := le_antisymm (hx.le hy) (hy.le hx)

/-- Rounding does not pass by a number of the format. -/
theorem le_of_le (h : IsNearest v x) (hy : IsDouble y) (hv : v ≤ y) : x ≤ y := by
  by_contra hlt
  have hnear := h.nearest y hy
  rw [abs_of_nonpos (by linarith), abs_of_nonpos (by linarith)] at hnear
  linarith

theorem ge_of_ge (h : IsNearest v x) (hy : IsDouble y) (hv : y ≤ v) : y ≤ x := by
  have := h.neg.le_of_le hy.neg (by linarith)
  linarith

theorem eq_of_isDouble (h : IsNearest v x) (hv : IsDouble v) : x = v :=
  le_antisymm (h.le_of_le hv le_rfl) (h.ge_of_ge hv le_rfl)

/-- An integer is rounded to an integer. -/
theorem exists_int {i : ℤ} (h : IsNearest i x) : ∃ j : ℤ, x = j := by
  rcases le_or_gt |i| (2 ^ 53) with hi | hi
  · exact ⟨i, h.eq_of_isDouble (isDouble_intCast hi)⟩
  · have hlarge : (2 : ℚ) ^ 53 ≤ |x| := by
      have hdouble : IsDouble (2 ^ 53) := by
        have hint := isDouble_intCast (i := (2 : ℤ) ^ 53) (by norm_num)
        push_cast at hint
        exact hint
      have hiq : (2 : ℚ) ^ 53 < |(i : ℚ)| := by exact_mod_cast hi
      rcases lt_abs.mp hiq with hpos | hneg
      · exact (h.ge_of_ge hdouble hpos.le).trans (le_abs_self x)
      · exact (h.neg.ge_of_ge hdouble hneg.le).trans (neg_le_abs x)
    obtain ⟨m, e, hm, -, -, rfl⟩ := h.double
    have he : 0 ≤ e := by
      by_contra hneg
      have hone : (2 : ℚ) ^ e ≤ 1 := zpow_le_one_of_nonpos₀ (by norm_num) (by omega)
      have hmq : |(m : ℚ)| < 2 ^ 53 := by exact_mod_cast hm
      rw [abs_mul, abs_of_pos (two_zpow_pos e)] at hlarge
      have := mul_le_of_le_one_right (abs_nonneg (m : ℚ)) hone
      linarith
    exact ⟨m * 2 ^ e.toNat, by push_cast; rw [← zpow_natCast, Int.toNat_of_nonneg he]⟩

/-- Rounding an integer does not move it over an integer of 53 bits. -/
theorem lt_iff_of_int {i b : ℤ} (h : IsNearest i x) (hb : |b| < 2 ^ 53) : (b : ℚ) < x ↔ b < i := by
  constructor
  · intro hlt
    by_contra hle
    have hx := h.le_of_le (isDouble_intCast hb.le) (by exact_mod_cast not_lt.mp hle)
    exact absurd hlt hx.not_gt
  · intro hlt
    have hnext : IsDouble ((b + 1 : ℤ) : ℚ) := isDouble_intCast (by rw [abs_le]; rw [abs_lt] at hb; omega)
    have hx := h.ge_of_ge hnext (by exact_mod_cast hlt)
    push_cast at hx
    linarith

theorem gt_iff_of_int {i b : ℤ} (h : IsNearest i x) (hb : |b| < 2 ^ 53) : x < (b : ℚ) ↔ i < b := by
  have hneg : IsNearest ((-i : ℤ) : ℚ) (-x) := by
    push_cast
    exact h.neg
  have hiff := hneg.lt_iff_of_int (b := -b) (by rwa [abs_neg])
  push_cast at hiff
  rw [neg_lt_neg_iff, neg_lt_neg_iff] at hiff
  exact hiff

end IsNearest

/-! ### Rounding -/

/-- No number is near to two integers. -/
theorem one_le_abs_add_abs_of_ne (t : ℚ) {j k : ℤ} (h : k ≠ j) : (1 : ℚ) ≤ |t - k| + |t - j| := by
  have hone : (1 : ℚ) ≤ |(k : ℚ) - j| := by exact_mod_cast Int.one_le_abs (sub_ne_zero.mpr h)
  have htri := abs_sub_le (k : ℚ) t j
  rw [abs_sub_comm (k : ℚ) t] at htri
  exact hone.trans htri

/-- No integer is nearer than the rounded one. -/
theorem abs_sub_roundEven_le_abs_sub {t : ℚ} (ht : 0 ≤ t) (k : ℤ) : |t - roundEven t| ≤ |t - k| := by
  rcases eq_or_ne k (roundEven t : ℤ) with rfl | hk
  · simp
  · have hhalf := abs_sub_roundEven_le ht
    have hone := one_le_abs_add_abs_of_ne t hk
    push_cast at hone
    linarith

/-- If another integer is as near, the rounded one is even. -/
theorem even_roundEven_of_tie {t : ℚ} (ht : 0 ≤ t) {k : ℤ} (hk : k ≠ roundEven t)
    (h : |t - k| = |t - roundEven t|) : Even (roundEven t : ℤ) := by
  have hhalf := abs_sub_roundEven_le ht
  have hone := one_le_abs_add_abs_of_ne t hk
  push_cast at hone
  have htie : |t - roundEven t| = 1 / 2 := by linarith
  have hlo := Nat.floor_le ht
  have hhi := Nat.lt_floor_add_one t
  unfold roundEven at htie ⊢
  split_ifs at htie ⊢ with hdown
  · rw [abs_of_nonneg (by linarith)] at htie
    have heven : ⌊t⌋₊ % 2 = 0 := (hdown.resolve_left htie.not_lt).2
    exact_mod_cast Nat.even_iff.mpr heven
  · push_cast at htie
    rw [abs_of_nonpos (by linarith)] at htie
    have hodd : ¬ ⌊t⌋₊ % 2 = 0 := fun he => hdown (Or.inr ⟨by linarith, he⟩)
    exact_mod_cast (Nat.even_add_one.mpr (mt Nat.even_iff.mp hodd))

section

variable {r : ℚ}

/-- Unless the spacing is the least one, a number is at least as great as 52 bits of it. -/
theorem le_of_grid_ne (hr : 0 < r) (h : grid r ≠ -1074) : 2 ^ 52 * (2 : ℚ) ^ grid r ≤ r := by
  have hgrid : grid r = Int.log 2 r - 52 := by
    unfold grid at h ⊢
    omega
  have hlog := Int.zpow_log_le_self (b := 2) (by norm_num) hr
  have hpow : (2 : ℚ) ^ 52 * 2 ^ grid r = 2 ^ Int.log 2 r := by
    rw [hgrid, ← zpow_natCast, ← two_zpow_add]
    congr 1
    push_cast
    ring
  rw [hpow]
  exact_mod_cast hlog

/-- A number has at most 53 bits of the spacing. -/
theorem lt_of_grid (r : ℚ) : r < 2 ^ 53 * (2 : ℚ) ^ grid r := by
  have hlog : r < (2 : ℚ) ^ (Int.log 2 r + 1) := by
    have := Int.lt_zpow_succ_log_self (b := 2) (by norm_num) r
    exact_mod_cast this
  refine hlog.trans_le ?_
  rw [← zpow_natCast (2 : ℚ) 53, ← two_zpow_add]
  apply zpow_le_zpow_right₀ (by norm_num)
  unfold grid
  push_cast
  omega

/-- A number of the format is a multiple of the spacing around `r`, or smaller than `r`. -/
theorem IsDouble.on_grid (hy : IsDouble y) :
    (∃ k : ℤ, y = k * 2 ^ grid r) ∨ grid r ≠ -1074 ∧ y < 2 ^ 52 * 2 ^ grid r := by
  obtain ⟨n, f, hn, hf, -, rfl⟩ := hy
  rcases le_or_gt (grid r) f with hle | hlt
  · exact .inl ⟨_, mul_zpow_eq n hle⟩
  · exact .inr ⟨by omega, mul_zpow_lt hn hlt⟩

/-- The mantissa of a rounded number is one of 53 bits or the next integer, and it is normal. -/
theorem roundEven_bounds (hr : 0 < r) : roundEven (r / 2 ^ grid r) ≤ 2 ^ 53 ∧
    (2 ^ 52 ≤ roundEven (r / 2 ^ grid r) ∨ grid r = -1074) := by
  have hunit := two_zpow_pos (grid r)
  obtain ⟨hlo, hhi⟩ := abs_le.mp (abs_sub_roundEven_le (div_nonneg hr.le hunit.le))
  constructor
  · have hlt : r / 2 ^ grid r < 2 ^ 53 := (div_lt_iff₀ hunit).mpr (lt_of_grid r)
    have hq : (roundEven (r / 2 ^ grid r) : ℚ) < 2 ^ 53 + 1 := by linarith
    have : roundEven (r / 2 ^ grid r) < 2 ^ 53 + 1 := by exact_mod_cast hq
    omega
  · by_cases h : grid r = -1074
    · exact .inr h
    · have hge : 2 ^ 52 ≤ r / 2 ^ grid r := (le_div_iff₀ hunit).mpr (le_of_grid_ne hr h)
      have hq : (2 : ℚ) ^ 52 < roundEven (r / 2 ^ grid r) + 1 := by linarith
      have : 2 ^ 52 < roundEven (r / 2 ^ grid r) + 1 := by exact_mod_cast hq
      exact .inl (by omega)

/-- Where rounding stays in the format, the rounded mantissa stands for a number of it. A mantissa
that reaches the next power of two is halved. -/
theorem isDouble_rounded (hr : 0 < r)
    (h : grid r < 971 ∨ (grid r = 971 ∧ roundEven (r / 2 ^ grid r) < 2 ^ 53)) :
    IsDouble (roundEven (r / 2 ^ grid r) * 2 ^ grid r) ∧
      (Even (roundEven (r / 2 ^ grid r) : ℤ) →
        HasEvenMantissa (roundEven (r / 2 ^ grid r) * 2 ^ grid r)) := by
  obtain ⟨hle, hnormal⟩ := roundEven_bounds hr
  have hlow : -1074 ≤ grid r := le_max_right _ _
  generalize roundEven (r / 2 ^ grid r) = m at *
  rcases lt_or_eq_of_le hle with hlt | heq
  · have habs : |(m : ℤ)| < 2 ^ 53 := by
      rw [Nat.abs_cast]
      exact_mod_cast hlt
    refine ⟨⟨m, grid r, habs, hlow, by omega, by push_cast; rfl⟩, fun heven => ?_⟩
    refine ⟨m, grid r, habs, hlow, by omega, ?_, heven, by push_cast; rfl⟩
    rw [Nat.abs_cast]
    exact hnormal.imp_left fun h => by exact_mod_cast h
  · have hhalved : (m : ℚ) * 2 ^ grid r = ((2 ^ 52 : ℤ) : ℚ) * 2 ^ (grid r + 1) := by
      rw [heq, two_zpow_add]
      push_cast
      ring
    have heven : HasEvenMantissa (m * 2 ^ grid r) :=
      ⟨2 ^ 52, grid r + 1, by norm_num, by omega, by omega, .inl (by norm_num), ⟨2 ^ 51, by norm_num⟩,
        hhalved⟩
    exact ⟨heven.isDouble, fun _ => heven⟩

/-- No number on the grid is nearer than the rounded one. -/
theorem abs_sub_rounded_le (hr : 0 ≤ r) (k : ℤ) :
    |r - roundEven (r / 2 ^ grid r) * 2 ^ grid r| ≤ |r - k * 2 ^ grid r| := by
  have hunit := two_zpow_pos (grid r)
  rw [abs_sub_mul_zpow, abs_sub_mul_zpow]
  exact mul_le_mul_of_nonneg_right (abs_sub_roundEven_le_abs_sub (div_nonneg hr hunit.le) k) hunit.le

/-- What is not on the grid lies below a number of the grid that `r` has reached. -/
theorem abs_sub_rounded_lt (hr : 0 < r) (hgrid : grid r ≠ -1074) (hy : y < 2 ^ 52 * 2 ^ grid r) :
    |r - roundEven (r / 2 ^ grid r) * 2 ^ grid r| < |r - y| := by
  have hreached := le_of_grid_ne hr hgrid
  have hnear := abs_sub_rounded_le hr.le (2 ^ 52)
  push_cast at hnear
  refine hnear.trans_lt ?_
  rw [abs_of_nonneg (by linarith), abs_of_nonneg (by linarith)]
  linarith

/-- Rounding finds the nearest number. -/
theorem isNearest_toRat {x : Binary64} (hr : 0 ≤ r) (h : ofRat? r = some x) : IsNearest r x.toRat := by
  rcases eq_or_lt_of_le hr with rfl | hpos
  · obtain rfl : zero = x := by simpa [ofRat?] using h
    have hzero : zero.toRat = 0 := by simp [toRat, zero]
    rw [hzero]
    refine ⟨isDouble_zero, fun y _ => by simp, fun y _ hne htie => ?_⟩
    exact absurd (by simpa using htie) hne
  · unfold ofRat? at h
    rw [if_neg hpos.ne'] at h
    split_ifs at h with hrange
    obtain rfl := Option.some.inj h
    rw [toRat]
    obtain ⟨hdouble, heven⟩ := isDouble_rounded hpos hrange
    refine ⟨hdouble, fun y hy => ?_, fun y hy hne htie => ?_⟩
    · rcases hy.on_grid (r := r) with ⟨k, rfl⟩ | ⟨hgrid, hlt⟩
      · exact abs_sub_rounded_le hr k
      · exact (abs_sub_rounded_lt hpos hgrid hlt).le
    · rcases hy.on_grid (r := r) with ⟨k, rfl⟩ | ⟨hgrid, hlt⟩
      · have hunit := two_zpow_pos (grid r)
        have hk : k ≠ roundEven (r / 2 ^ grid r) := by
          rintro rfl
          exact hne (by push_cast; rfl)
        rw [abs_sub_mul_zpow, abs_sub_mul_zpow] at htie
        exact heven (even_roundEven_of_tie (div_nonneg hr hunit.le) hk
          (mul_right_cancel₀ hunit.ne' htie))
      · exact absurd htie (abs_sub_rounded_lt hpos hgrid hlt).ne'

end

/-! ### Rounding with a sign -/

/-- What a number is rounded to, where nothing stands for the infinite ones. -/
inductive RoundsTo (v : ℚ) : Option ℚ → Prop
  | finite {r : ℚ} (small : |v| < tooLarge) (nearest : IsNearest v r) : RoundsTo v (some r)
  | infinite (large : tooLarge ≤ |v|) : RoundsTo v none

namespace RoundsTo

variable {r r' : Option ℚ}

theorem neg (h : RoundsTo v r) : RoundsTo (-v) (r.map (- ·)) := by
  cases h with
  | finite small nearest => exact .finite (by rwa [abs_neg]) nearest.neg
  | infinite large => exact .infinite (by rwa [abs_neg])

theorem unique (h : RoundsTo v r) (h' : RoundsTo v r') : r = r' := by
  cases h with
  | finite small nearest =>
    cases h' with
    | finite _ nearest' => rw [nearest.unique nearest']
    | infinite large => exact absurd small large.not_gt
  | infinite large =>
    cases h' with
    | finite small _ => exact absurd small large.not_gt
    | infinite _ => rfl

end RoundsTo

/-- Integers of 64 bits are not too large. -/
theorem word_lt_tooLarge : (2 : ℚ) ^ 64 < tooLarge := by
  have hword : (2 : ℚ) ^ 64 ≤ 2 ^ (971 : ℤ) := by
    rw [← zpow_natCast]
    exact zpow_le_zpow_right₀ (by norm_num) (by norm_num)
  rw [tooLarge_eq]
  exact hword.trans_lt (lt_mul_of_one_lt_left (two_zpow_pos 971) (by norm_num))

theorem roundsTo_ofRat? (hv : 0 ≤ v) : RoundsTo v ((ofRat? v).map toRat) := by
  cases h : ofRat? v with
  | none => exact .infinite (by rw [abs_of_nonneg hv]; exact (ofRat?_eq_none_iff hv).mp h)
  | some x =>
    refine .finite ?_ (isNearest_toRat hv h)
    have hsmall : ¬ tooLarge ≤ v := by
      rw [← ofRat?_eq_none_iff hv, h]
      nofun
    rw [abs_of_nonneg hv]
    exact not_le.mp hsmall

end GoShape.Binary64
