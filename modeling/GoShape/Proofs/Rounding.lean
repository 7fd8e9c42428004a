import GoShape.Binary64
import Mathlib.Data.Int.Log
import Mathlib.Data.Rat.Floor
import Mathlib.Algebra.Order.Floor.Semifield
import Mathlib.Algebra.Order.Field.Power
import Mathlib.Tactic.FieldSimp
import Mathlib.Tactic.Linarith
import Mathlib.Tactic.NormNum
import Mathlib.Tactic.Positivity
import Mathlib.Tactic.Ring

/-! Rounding to the binary format as arithmetic of rational numbers. The integers that stand for
mantissa and exponent are those of the rational definition, also where a decimal is cut short because
it is far too small or far too large. Among the consequences is a test for the numbers that round to
an integer: an integer lies within half the spacing of the format. -/
namespace GoShape.Binary64

/-- A non-negative number rounded to the nearest integer; a half goes to the even neighbour. -/
def roundEven (r : ℚ) : ℕ :=
  if r - ⌊r⌋₊ < 1 / 2 ∨ (r - ⌊r⌋₊ = 1 / 2 ∧ ⌊r⌋₊ % 2 = 0) then ⌊r⌋₊ else ⌊r⌋₊ + 1

/-- The spacing of the format around a positive number, as an exponent of two. -/
def grid (r : ℚ) : ℤ := max (Int.log 2 r - 52) (-1074)

/-- The number of the format nearest to a non-negative one. -/
def ofRat? (r : ℚ) : Option Binary64 :=
  if r = 0 then some zero
  else if grid r < 971 ∨ (grid r = 971 ∧ roundEven (r / 2 ^ grid r) < 2 ^ 53) then
    some ⟨roundEven (r / 2 ^ grid r), grid r⟩
  else none

def toRat (x : Binary64) : ℚ := x.mantissa * 2 ^ x.exponent

/-- From here on a number is too large for the format. -/
def tooLarge : ℚ := 2 ^ (1024 : ℤ) - 2 ^ (970 : ℤ)

theorem two_zpow_pos (e : ℤ) : (0 : ℚ) < 2 ^ e := zpow_pos (by norm_num) e

theorem two_zpow_add (e f : ℤ) : (2 : ℚ) ^ (e + f) = 2 ^ e * 2 ^ f := zpow_add₀ (by norm_num) e f

theorem tooLarge_eq : tooLarge = (2 ^ 53 - 1 / 2) * 2 ^ (971 : ℤ) := by
  have htop : (2 : ℚ) ^ (1024 : ℤ) = 2 ^ 54 * 2 ^ (970 : ℤ) := two_zpow_add 54 970
  have hnext : (2 : ℚ) ^ (971 : ℤ) = 2 * 2 ^ (970 : ℤ) := two_zpow_add 1 970
  rw [tooLarge, htop, hnext]
  generalize (2 : ℚ) ^ (970 : ℤ) = unit
  ring

/-! ### Rounding to an integer -/

theorem roundDiv_eq (a : ℕ) {b : ℕ} (hb : 0 < b) : roundDiv a b = roundEven (a / b) := by
  have hbq : (0 : ℚ) < b := by exact_mod_cast hb
  have hfloor : ⌊(a / b : ℚ)⌋₊ = a / b := Nat.floor_div_eq_div a b
  have hfract : (a / b : ℚ) - (a / b : ℕ) = (a % b : ℕ) / b := by
    rw [eq_div_iff hbq.ne', sub_mul, div_mul_cancel₀ _ hbq.ne']
    have h := Nat.div_add_mod a b
    have hq : ((b * (a / b) + a % b : ℕ) : ℚ) = a := by rw [h]
    push_cast at hq
    linarith
  have hlt : ((a % b : ℕ) : ℚ) / b < 1 / 2 ↔ 2 * (a % b) < b := by
    rw [div_lt_div_iff₀ hbq (by norm_num), one_mul, mul_comm]
    exact_mod_cast Iff.rfl
  have heq : ((a % b : ℕ) : ℚ) / b = 1 / 2 ↔ 2 * (a % b) = b := by
    rw [div_eq_div_iff hbq.ne' (by norm_num), one_mul, mul_comm]
    exact_mod_cast Iff.rfl
  unfold roundDiv roundEven
  rw [hfloor, hfract]
  simp only [hlt, heq]

theorem abs_sub_roundEven_le {r : ℚ} (hr : 0 ≤ r) : |r - roundEven r| ≤ 1 / 2 := by
  have hlo := Nat.floor_le hr
  have hhi := Nat.lt_floor_add_one r
  unfold roundEven
  split_ifs with h
  · rw [abs_of_nonneg (by linarith)]
    rcases h with h | h <;> linarith
  · push_cast
    rw [abs_of_nonpos (by linarith)]
    by_contra hc
    exact h (Or.inl (by linarith))

/-- An even integer draws the halves on both of its sides. -/
theorem roundEven_of_even {r : ℚ} (hr : 0 ≤ r) {n : ℕ} (hn : n % 2 = 0) (h : |r - n| ≤ 1 / 2) :
    roundEven r = n := by
  obtain ⟨h₁, h₂⟩ := abs_le.mp h
  by_cases hge : (n : ℚ) ≤ r
  · have hf : ⌊r⌋₊ = n := (Nat.floor_eq_iff hr).mpr ⟨hge, by linarith⟩
    unfold roundEven
    rw [hf, if_pos]
    rcases lt_or_eq_of_le h₂ with h | h
    · exact Or.inl h
    · exact Or.inr ⟨h, hn⟩
  · have hlt : r < n := not_le.mp hge
    have hpos : 1 ≤ n := by
      by_contra hc
      have : n = 0 := by omega
      subst this
      push_cast at hlt
      linarith
    have hf : ⌊r⌋₊ = n - 1 := by
      apply (Nat.floor_eq_iff hr).mpr
      push_cast [hpos]
      constructor <;> linarith
    unfold roundEven
    rw [hf, if_neg]
    · omega
    · push_cast [hpos]
      rintro (h | ⟨-, h⟩)
      · linarith
      · omega

/-! ### The binary logarithm -/

theorem two_pow_log2_le {n : ℕ} (hn : 0 < n) : (2 : ℚ) ^ (n.log2 : ℤ) ≤ n := by
  rw [zpow_natCast]
  exact_mod_cast Nat.log2_self_le hn.ne'

theorem lt_two_pow_log2 (n : ℕ) : (n : ℚ) < 2 ^ ((n.log2 : ℤ) + 1) := by
  have h : n < 2 ^ (n.log2 + 1) := Nat.lt_log2_self
  have hq : (n : ℚ) < 2 ^ (n.log2 + 1) := by exact_mod_cast h
  exact_mod_cast hq

/-- A power with an integer exponent is a quotient of powers with natural ones. -/
theorem zpow_eq_div {b : ℕ} (hb : 0 < b) (e : ℤ) :
    (b : ℚ) ^ e = (b ^ e.toNat : ℕ) / (b ^ (-e).toNat : ℕ) := by
  have hbq : (b : ℚ) ≠ 0 := by exact_mod_cast hb.ne'
  push_cast
  rw [← zpow_natCast, ← zpow_natCast, ← zpow_sub₀ hbq]
  congr 1
  omega

theorem two_zpow_eq (e : ℤ) : (2 : ℚ) ^ e = (2 ^ e.toNat : ℕ) / (2 ^ (-e).toNat : ℕ) :=
  mod_cast zpow_eq_div (b := 2) (by norm_num) e

theorem floorLog2_eq {num den : ℕ} (hn : 0 < num) (hd : 0 < den) :
    floorLog2 num den = Int.log 2 (num / den : ℚ) := by
  have hnq : (0 : ℚ) < num := by exact_mod_cast hn
  have hdq : (0 : ℚ) < den := by exact_mod_cast hd
  have hr : (0 : ℚ) < num / den := div_pos hnq hdq
  set l : ℤ := num.log2 - den.log2 with hl
  -- the difference of the logarithms is the logarithm of the quotient or one more
  have hup : (num / den : ℚ) < 2 ^ (l + 1) := by
    rw [div_lt_iff₀ hdq]
    calc (num : ℚ) < 2 ^ ((num.log2 : ℤ) + 1) := lt_two_pow_log2 num
      _ = 2 ^ (l + 1) * 2 ^ (den.log2 : ℤ) := by rw [← zpow_add₀ (by norm_num)]; congr 1; omega
      _ ≤ 2 ^ (l + 1) * den := mul_le_mul_of_nonneg_left (two_pow_log2_le hd) (two_zpow_pos _).le
  have hlo : (2 : ℚ) ^ (l - 1) ≤ num / den := by
    rw [le_div_iff₀ hdq]
    calc (2 : ℚ) ^ (l - 1) * den ≤ 2 ^ (l - 1) * 2 ^ ((den.log2 : ℤ) + 1) :=
          mul_le_mul_of_nonneg_left (lt_two_pow_log2 den).le (two_zpow_pos _).le
      _ = 2 ^ (num.log2 : ℤ) := by rw [← zpow_add₀ (by norm_num)]; congr 1; omega
      _ ≤ num := two_pow_log2_le hn
  have htest : den * 2 ^ l.toNat ≤ num * 2 ^ (-l).toNat ↔ (2 : ℚ) ^ l ≤ num / den := by
    have hp : (0 : ℚ) < (2 ^ (-l).toNat : ℕ) := by exact_mod_cast Nat.two_pow_pos _
    rw [two_zpow_eq, div_le_div_iff₀ hp hdq, mul_comm _ (den : ℚ)]
    exact_mod_cast Iff.rfl
  have hle : Int.log 2 (num / den : ℚ) ≤ l := by
    have h := (Int.lt_zpow_iff_log_lt (b := 2) (by norm_num) hr).mp (by exact_mod_cast hup)
    omega
  have hge : l - 1 ≤ Int.log 2 (num / den : ℚ) :=
    (Int.zpow_le_iff_le_log (b := 2) (by norm_num) hr).mp (by exact_mod_cast hlo)
  unfold floorLog2
  simp only [Nat.pow_eq, ← hl, htest]
  split_ifs with h
  · have := (Int.zpow_le_iff_le_log (b := 2) (by norm_num) hr).mp (by exact_mod_cast h)
    omega
  · have := (Int.lt_zpow_iff_log_lt (b := 2) (by norm_num) hr).mp (by exact_mod_cast not_le.mp h)
    omega

/-! ### Rounding to the format -/

theorem spacing_eq {num den : ℕ} (hn : 0 < num) (hd : 0 < den) :
    spacing num den = grid (num / den) := by
  rw [spacing, floorLog2_eq hn hd, grid]

theorem nearest?_eq (num : ℕ) {den : ℕ} (hd : 0 < den) : nearest? num den = ofRat? (num / den) := by
  rcases Nat.eq_zero_or_pos num with rfl | hn
  · simp [nearest?, ofRat?]
  · have hdq : (den : ℚ) ≠ 0 := by exact_mod_cast hd.ne'
    have hr : (num / den : ℚ) ≠ 0 := div_ne_zero (by exact_mod_cast hn.ne') hdq
    have hm (e : ℤ) : roundDiv (num * 2 ^ (-e).toNat) (den * 2 ^ e.toNat) =
        roundEven (num / den / 2 ^ e) := by
      rw [roundDiv_eq _ (by positivity), two_zpow_eq]
      congr 1
      push_cast
      field_simp
    simp only [nearest?, ofRat?, Nat.pow_eq, hn.ne', hr, if_false, spacing_eq hn hd, hm]

/-- A number up to half the least spacing counts as zero. -/
theorem ofRat?_of_le {r : ℚ} (hr : 0 ≤ r) (h : r ≤ 2 ^ (-1075 : ℤ)) : ofRat? r = some zero := by
  rcases eq_or_lt_of_le hr with rfl | hpos
  · simp [ofRat?]
  · have hlog : Int.log 2 r ≤ -1075 := by
      have hlt : r < 2 ^ (-1074 : ℤ) :=
        lt_of_le_of_lt h (zpow_lt_zpow_right₀ (by norm_num) (by norm_num))
      have := (Int.lt_zpow_iff_log_lt (b := 2) (by norm_num) hpos).mp (by exact_mod_cast hlt)
      omega
    have hgrid : grid r = -1074 := by unfold grid; omega
    have hm : roundEven (r / 2 ^ (-1074 : ℤ)) = 0 := by
      have hle : r / 2 ^ (-1074 : ℤ) ≤ 1 / 2 := by
        rw [div_le_iff₀ (two_zpow_pos _)]
        calc r ≤ 2 ^ (-1075 : ℤ) := h
          _ = 1 / 2 * 2 ^ (-1074 : ℤ) := by
            rw [show (-1074 : ℤ) = -1075 + 1 by norm_num, two_zpow_add]; ring
      have hge : 0 ≤ r / 2 ^ (-1074 : ℤ) := div_nonneg hr (two_zpow_pos _).le
      apply roundEven_of_even hge rfl
      rwa [Nat.cast_zero, sub_zero, abs_of_nonneg hge]
    unfold ofRat?
    rw [if_neg hpos.ne', hgrid, hm, if_pos (Or.inl (by norm_num))]
    rfl

/-- The mantissa leaves its bounds at half a step below the next power of two. -/
theorem roundEven_lt_iff {r : ℚ} (hr : 0 ≤ r) (hlt : r < 2 ^ 53) :
    roundEven r < 2 ^ 53 ↔ r < 2 ^ 53 - 1 / 2 := by
  constructor
  · intro h
    by_contra hc
    have he : roundEven r = 2 ^ 53 := by
      apply roundEven_of_even hr (by norm_num)
      rw [abs_le]
      push_cast
      constructor <;> linarith
    omega
  · intro h
    have habs := abs_le.mp (abs_sub_roundEven_le hr)
    have hq : (roundEven r : ℚ) < 2 ^ 53 := by linarith
    exact_mod_cast hq

theorem ofRat?_eq_none_iff {r : ℚ} (hr : 0 ≤ r) : ofRat? r = none ↔ tooLarge ≤ r := by
  have hpow : (2 : ℚ) ^ (1024 : ℤ) = 2 ^ 53 * 2 ^ (971 : ℤ) := two_zpow_add 53 971
  rcases eq_or_lt_of_le hr with rfl | hpos
  · have h : 0 < tooLarge := by
      rw [tooLarge_eq]
      exact mul_pos (by norm_num) (two_zpow_pos _)
    simp [ofRat?, h]
  have hlog (e : ℤ) : e ≤ Int.log 2 r ↔ (2 : ℚ) ^ e ≤ r :=
    mod_cast (Int.zpow_le_iff_le_log (b := 2) (x := e) (by norm_num) hpos).symm
  unfold ofRat?
  rw [if_neg hpos.ne']
  rcases lt_trichotomy (Int.log 2 r) 1023 with h | h | h
  · have hgrid : grid r < 971 := by unfold grid; omega
    have hlt : r < 2 ^ (1023 : ℤ) := by
      rw [← not_le, ← hlog]
      omega
    have hle : (2 : ℚ) ^ (1023 : ℤ) ≤ tooLarge := by
      rw [tooLarge_eq, show (1023 : ℤ) = 52 + 971 by norm_num, two_zpow_add]
      exact mul_le_mul_of_nonneg_right (by norm_num) (two_zpow_pos _).le
    rw [if_pos (Or.inl hgrid)]
    simp only [reduceCtorEq, false_iff]
    exact not_le.mpr (hlt.trans_le hle)
  · have hgrid : grid r = 971 := by unfold grid; omega
    have hlt : r < 2 ^ (1024 : ℤ) := by
      rw [← not_le, ← hlog]
      omega
    have hscaled : r / 2 ^ (971 : ℤ) < 2 ^ 53 := by
      rwa [div_lt_iff₀ (two_zpow_pos _), ← hpow]
    have hge : 0 ≤ r / 2 ^ (971 : ℤ) := div_nonneg hr (two_zpow_pos _).le
    have hm := roundEven_lt_iff hge hscaled
    rw [div_lt_iff₀ (two_zpow_pos _), ← tooLarge_eq] at hm
    simp only [hgrid, lt_irrefl, true_and, false_or]
    rw [← not_lt, ← hm]
    split_ifs with h <;> simp only [h, not_true_eq_false, not_false_eq_true]
  · have hgrid : 971 < grid r := by unfold grid; omega
    have hge : (2 : ℚ) ^ (1024 : ℤ) ≤ r := by
      rw [← hlog]
      omega
    rw [if_neg (by omega)]
    simp only [true_iff]
    exact (sub_le_self _ (two_zpow_pos _).le).trans hge

theorem tooLarge_le_ten_zpow : tooLarge ≤ 10 ^ (309 : ℤ) := by
  have h : 2 ^ 1024 ≤ 10 ^ 309 := by decide +kernel
  have hq : (2 : ℚ) ^ (1024 : ℤ) ≤ 10 ^ (309 : ℤ) := by exact_mod_cast h
  exact (sub_le_self _ (two_zpow_pos _).le).trans hq

theorem two_mul_ten_zpow_le : 2 * (10 : ℚ) ^ (-325 : ℤ) ≤ 2 ^ (-1075 : ℤ) := by
  have h : 2 * 2 ^ 1075 ≤ 10 ^ 325 := by decide +kernel
  have hq : (2 : ℚ) * 2 ^ (1075 : ℤ) ≤ 10 ^ (325 : ℤ) := by exact_mod_cast h
  rw [zpow_neg, zpow_neg, ← div_eq_mul_inv, div_le_iff₀ (zpow_pos (by norm_num) _),
    inv_mul_eq_div, le_div_iff₀ (two_zpow_pos _)]
  exact hq

/-- A decimal that is cut short is rounded all the same. -/
theorem ofDecimal?_eq (c : ℕ) (e : ℤ) : ofDecimal? c e = ofRat? (c * 10 ^ e) := by
  rcases Nat.eq_zero_or_pos c with rfl | hc
  · simp [ofDecimal?, ofRat?]
  have hcq : (1 : ℚ) ≤ c := by exact_mod_cast hc
  have hr : (0 : ℚ) ≤ c * 10 ^ e := by positivity
  unfold ofDecimal?
  split_ifs with hsmall hlarge
  · have he : e ≤ -(c.log2 + 325) := hsmall.resolve_left hc.ne'
    refine (ofRat?_of_le hr ?_).symm
    have htwo : (2 : ℚ) ^ (c.log2 : ℤ) ≤ 10 ^ (c.log2 : ℤ) := by
      rw [zpow_natCast, zpow_natCast]
      exact pow_le_pow_left₀ (by norm_num) (by norm_num) _
    calc (c : ℚ) * 10 ^ e ≤ 2 ^ ((c.log2 : ℤ) + 1) * 10 ^ (-((c.log2 : ℤ) + 325)) :=
          mul_le_mul (lt_two_pow_log2 c).le (zpow_le_zpow_right₀ (by norm_num) he)
            (by positivity) (by positivity)
      _ = 2 * (2 ^ (c.log2 : ℤ) * 10 ^ (-((c.log2 : ℤ) + 325))) := by
          rw [zpow_add₀ (by norm_num)]; ring
      _ ≤ 2 * (10 ^ (c.log2 : ℤ) * 10 ^ (-((c.log2 : ℤ) + 325))) := by gcongr
      _ = 2 * 10 ^ (-325 : ℤ) := by rw [← zpow_add₀ (by norm_num)]; congr 2; omega
      _ ≤ 2 ^ (-1075 : ℤ) := two_mul_ten_zpow_le
  · refine ((ofRat?_eq_none_iff hr).mpr ?_).symm
    calc tooLarge ≤ 1 * 10 ^ (309 : ℤ) := by rw [one_mul]; exact tooLarge_le_ten_zpow
      _ ≤ c * 10 ^ e := mul_le_mul hcq (zpow_le_zpow_right₀ (by norm_num) hlarge)
            (by positivity) (by positivity)
  · have hten : (10 : ℚ) ^ e = (10 ^ e.toNat : ℕ) / (10 ^ (-e).toNat : ℕ) :=
      mod_cast zpow_eq_div (b := 10) (by norm_num) e
    simp only [Nat.pow_eq]
    rw [nearest?_eq _ (by positivity), hten]
    congr 1
    push_cast
    ring

/-! ### Integers -/

/-- The integers are farther away than half the spacing of the format. -/
def ApartFromIntegers (r : ℚ) : Prop := ∀ n : ℕ, 2 ^ grid r / 2 < |r - n|

theorem toRat_eq (x : Binary64) : x.toRat = x.numerator / x.denominator := by
  rw [toRat, two_zpow_eq, numerator, denominator, Nat.pow_eq, Nat.pow_eq]
  push_cast
  ring

theorem integer?_eq_some_iff (x : Binary64) (n : ℕ) : x.integer? = some n ↔ x.toRat = n := by
  have hd : 0 < x.denominator := Nat.two_pow_pos _
  have hdq : (x.denominator : ℚ) ≠ 0 := by exact_mod_cast hd.ne'
  have hcast : x.toRat = n ↔ x.numerator = n * x.denominator := by
    rw [toRat_eq, div_eq_iff hdq]
    exact_mod_cast Iff.rfl
  rw [hcast, integer?]
  split_ifs with h
  · have hdvd := Nat.div_mul_cancel (Nat.dvd_of_mod_eq_zero h)
    rw [Option.some.injEq]
    constructor
    · rintro rfl
      exact hdvd.symm
    · intro hn
      rw [hn, Nat.mul_div_cancel _ hd]
  · simp only [false_iff]
    intro hn
    rw [hn, Nat.mul_mod_left] at h
    exact h rfl

theorem integer?_eq_none_iff (x : Binary64) : x.integer? = none ↔ ∀ n : ℕ, x.toRat ≠ n := by
  simp only [Option.eq_none_iff_forall_ne_some, ne_eq, integer?_eq_some_iff]

/-- A distance in units of a power of two. -/
theorem abs_sub_mul_zpow (r q : ℚ) (e : ℤ) : |r - q * 2 ^ e| = |r / 2 ^ e - q| * 2 ^ e := by
  have hu := two_zpow_pos e
  have hscale : r - q * 2 ^ e = (r / 2 ^ e - q) * 2 ^ e := by rw [sub_mul, div_mul_cancel₀ _ hu.ne']
  rw [hscale, abs_mul, abs_of_pos hu]

/-- A rounded number is at most half the spacing off. -/
theorem abs_sub_mul_le {r : ℚ} (hr : 0 ≤ r) (e : ℤ) :
    |r - roundEven (r / 2 ^ e) * 2 ^ e| ≤ 2 ^ e / 2 := by
  have hu := two_zpow_pos e
  have hround := abs_sub_roundEven_le (div_nonneg hr hu.le)
  rw [abs_sub_mul_zpow]
  calc _ ≤ 1 / 2 * (2 : ℚ) ^ e := mul_le_mul_of_nonneg_right hround hu.le
    _ = 2 ^ e / 2 := by ring

/-- Below the integers' own spacing, an integer that is near enough is what a number rounds to. -/
theorem roundEven_mul_of_near {r : ℚ} (hr : 0 ≤ r) {e : ℤ} (he : e < 0) {n : ℕ}
    (h : |r - n| ≤ 2 ^ e / 2) : (roundEven (r / 2 ^ e) : ℚ) * 2 ^ e = n := by
  have hu := two_zpow_pos e
  obtain ⟨k, hk⟩ : ∃ k : ℕ, e = -((k : ℤ) + 1) := ⟨(-e - 1).toNat, by omega⟩
  have hone : (2 : ℚ) ^ (k + 1) * 2 ^ e = 1 := by
    rw [hk, ← zpow_natCast, ← zpow_add₀ (by norm_num)]
    push_cast
    simp
  -- in units of the spacing the integer is even
  have heven : roundEven (r / 2 ^ e) = n * 2 ^ (k + 1) := by
    apply roundEven_of_even (div_nonneg hr hu.le)
    · rw [pow_succ, ← mul_assoc]
      exact Nat.mul_mod_left _ _
    · have hscale : r / 2 ^ e - (n * 2 ^ (k + 1) : ℕ) = (r - n) / 2 ^ e := by
        push_cast
        rw [eq_div_iff hu.ne', sub_mul, div_mul_cancel₀ _ hu.ne', mul_assoc, hone, mul_one]
      rw [hscale, abs_div, abs_of_pos hu, div_le_iff₀ hu]
      calc |r - n| ≤ 2 ^ e / 2 := h
        _ = 1 / 2 * 2 ^ e := by ring
  rw [heven]
  push_cast
  rw [mul_assoc, hone, mul_one]

/-- The numbers that do not round to an integer: those out of range, and those that have no integer
within half the spacing. -/
theorem bind_integer?_eq_none_iff {r : ℚ} (hr : 0 ≤ r) :
    (ofRat? r).bind integer? = none ↔ tooLarge ≤ r ∨ ApartFromIntegers r := by
  cases hx : ofRat? r with
  | none => simp [(ofRat?_eq_none_iff hr).mp hx]
  | some x =>
    have hlarge : ¬ tooLarge ≤ r := by
      rw [← ofRat?_eq_none_iff hr, hx]
      simp
    rw [Option.bind_some, integer?_eq_none_iff, or_iff_right hlarge]
    rcases eq_or_lt_of_le hr with rfl | hpos
    · have hz : x = zero := by simpa [ofRat?] using hx.symm
      subst hz
      constructor
      · intro h
        exact absurd (by simp [toRat, zero]) (h 0)
      · intro h
        have := h 0
        have := two_zpow_pos (grid 0)
        norm_num at *
        linarith
    · have hxe : x = ⟨roundEven (r / 2 ^ grid r), grid r⟩ := by
        unfold ofRat? at hx
        rw [if_neg hpos.ne'] at hx
        split_ifs at hx
        exact (Option.some.inj hx).symm
      subst hxe
      have hnear := abs_sub_mul_le hr (grid r)
      constructor
      · intro h n
        by_contra hn
        rcases lt_or_ge (grid r) 0 with he | he
        · exact h n (roundEven_mul_of_near hr he (not_lt.mp hn))
        · refine h (roundEven (r / 2 ^ grid r) * 2 ^ (grid r).toNat) ?_
          rw [toRat]
          push_cast
          rw [← zpow_natCast, Int.toNat_of_nonneg he]
      · intro h n hn
        rw [toRat] at hn
        rw [hn] at hnear
        exact not_lt.mpr hnear (h n)

/-- A decimal fraction of no more digits than the format can tell apart. -/
theorem apartFromIntegers_div {c k : ℕ} (hc : c < 2 ^ 53) (hk : 10 ^ k ≤ 2 ^ 53)
    (h : ¬ 10 ^ k ∣ c) : ApartFromIntegers (c / 10 ^ k) := by
  have hten : (0 : ℚ) < 10 ^ k := by positivity
  have hpos : 0 < (c : ℚ) / 10 ^ k := by
    have hne : c ≠ 0 := fun e => h (e ▸ dvd_zero _)
    positivity
  have hspacing : (2 : ℚ) ^ grid (c / 10 ^ k) / 2 < 1 / 10 ^ k := by
    unfold grid
    rcases le_total (Int.log 2 ((c : ℚ) / 10 ^ k) - 52) (-1074) with hle | hle
    · rw [max_eq_right hle, lt_div_iff₀ hten]
      have hkq : (10 : ℚ) ^ k ≤ 2 ^ (53 : ℤ) := by exact_mod_cast hk
      calc (2 : ℚ) ^ (-1074 : ℤ) / 2 * 10 ^ k ≤ 2 ^ (-1074 : ℤ) / 2 * 2 ^ (53 : ℤ) := by gcongr
        _ = 2 ^ (-1021 : ℤ) / 2 := by
          rw [div_mul_eq_mul_div, ← two_zpow_add]
          norm_num
        _ < 1 := by
          have hone : (2 : ℚ) ^ (-1021 : ℤ) ≤ 1 := zpow_le_one_of_nonpos₀ (by norm_num) (by norm_num)
          linarith
    · have hlog := Int.zpow_log_le_self (b := 2) (by norm_num) hpos
      have hcq : (c : ℚ) < 2 ^ 53 := by exact_mod_cast hc
      rw [max_eq_left hle, zpow_sub₀ (by norm_num), lt_div_iff₀ hten]
      rw [le_div_iff₀ hten] at hlog
      push_cast at hlog
      calc (2 : ℚ) ^ Int.log 2 ((c : ℚ) / 10 ^ k) / 2 ^ (52 : ℤ) / 2 * 10 ^ k
          = 2 ^ Int.log 2 ((c : ℚ) / 10 ^ k) * 10 ^ k / 2 ^ 53 := by norm_num; ring
        _ ≤ c / 2 ^ 53 := by gcongr
        _ < 1 := by rw [div_lt_one (by norm_num)]; exact hcq
  intro n
  refine lt_of_lt_of_le hspacing ?_
  have hne : (c : ℤ) - n * 10 ^ k ≠ 0 := by
    intro e
    exact h ⟨n, by zify; linarith⟩
  have hone : (1 : ℚ) ≤ |(c : ℚ) - n * 10 ^ k| := by exact_mod_cast Int.one_le_abs hne
  have hsub : (c : ℚ) / 10 ^ k - n = (c - n * 10 ^ k) / 10 ^ k := by
    rw [sub_div, mul_div_cancel_right₀ _ hten.ne']
  rw [hsub, abs_div, abs_of_pos hten]
  gcongr

end GoShape.Binary64
