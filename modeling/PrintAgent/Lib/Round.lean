import Mathlib.Algebra.Order.Round
import Mathlib.Data.Int.Log
import Mathlib.Data.Rat.Floor
import Mathlib.Algebra.Ring.Int.Parity

/-!
# Rounding

* `roundEven`   to the nearest integer, ties to the even one;
* `double`      to the nearest binary floating-point number of 53 bits, ties to the even one, without the
                bound on the exponent above.
-/

/-- Python's `round` -/
def roundEven (q : ℚ) : ℤ :=
  if Int.fract q < 1 / 2 then ⌊q⌋
  else if 1 / 2 < Int.fract q then ⌊q⌋ + 1
  else if ⌊q⌋ % 2 = 0 then ⌊q⌋ else ⌊q⌋ + 1

/-- the result of an operation of floats whose exact result is `q` -/
def double (q : ℚ) : ℚ :=
  let exponent := max (Int.log 2 |q| - 52) (-1074)
  roundEven (q / 2 ^ exponent) * 2 ^ exponent

theorem roundEven_intCast (n : ℤ) : roundEven n = n := by
  simp [roundEven]

theorem double_zero : double 0 = 0 := by
  have hzero : roundEven ((0 : ℤ) : ℚ) = 0 := roundEven_intCast 0
  rw [Int.cast_zero] at hzero
  simp [double, hzero]

/-- it is not above the number if it rounds down, or to the even one below -/
theorem roundEven_le {q : ℚ} :
    (roundEven q : ℚ) ≤ q ↔ Int.fract q < 1 / 2 ∨ Int.fract q = 1 / 2 ∧ ⌊q⌋ % 2 = 0 := by
  have hup : ¬ ((⌊q⌋ + 1 : ℤ) : ℚ) ≤ q := by
    rw [← Int.le_floor]
    omega
  unfold roundEven
  split
  · rename_i hlt
    exact iff_of_true (Int.floor_le q) (.inl hlt)
  · rename_i hge
    split
    · rename_i hgt
      refine iff_of_false hup fun h => ?_
      rcases h with h | ⟨h, _⟩
      · exact hge h
      · exact absurd hgt (by rw [h]; exact lt_irrefl _)
    · rename_i hle
      have heq : Int.fract q = 1 / 2 := le_antisymm (not_lt.mp hle) (not_lt.mp hge)
      split
      · rename_i heven
        exact iff_of_true (Int.floor_le q) (.inr ⟨heq, heven⟩)
      · rename_i hodd
        refine iff_of_false hup fun h => ?_
        rcases h with h | ⟨_, h⟩
        · exact hge h
        · exact hodd h

theorem roundEven_le_of_le {q : ℚ} {n : ℤ} (h : q ≤ n) : roundEven q ≤ n := by
  have hfloor : ⌊q⌋ ≤ n := Int.floor_le_iff.mpr (lt_of_le_of_lt h (lt_add_one _))
  rcases hfloor.eq_or_lt with heq | hlt
  · have hq : q = n := le_antisymm h (heq ▸ Int.floor_le q)
    rw [hq, roundEven_intCast]
  · unfold roundEven
    split_ifs <;> omega

theorem le_roundEven_of_le {q : ℚ} {n : ℤ} (h : (n : ℚ) ≤ q) : n ≤ roundEven q := by
  have hfloor : n ≤ ⌊q⌋ := Int.le_floor.mpr h
  unfold roundEven
  split_ifs <;> omega

theorem abs_roundEven_sub_le (q : ℚ) : |roundEven q - q| ≤ 1 / 2 := by
  have hfract : Int.fract q = q - ⌊q⌋ := rfl
  have hlow := Int.fract_nonneg q
  unfold roundEven
  rw [abs_le]
  split_ifs with hbelow habove heven
  · constructor <;> linarith
  · have hone := Int.fract_lt_one q
    push_cast
    constructor <;> linarith
  · constructor <;> linarith
  · push_cast
    constructor <;> linarith

theorem abs_roundEven_le {q : ℚ} {n : ℤ} (h : |q| ≤ n) : |roundEven q| ≤ n := by
  obtain ⟨hlow, hhigh⟩ := abs_le.mp h
  have hneg : ((-n : ℤ) : ℚ) ≤ q := by
    rw [Int.cast_neg]
    exact hlow
  exact abs_le.mpr ⟨le_roundEven_of_le hneg, roundEven_le_of_le hhigh⟩

def lastExponent (q : ℚ) : ℤ := max (Int.log 2 |q| - 52) (-1074)

theorem double_eq (q : ℚ) : double q = roundEven (q / 2 ^ lastExponent q) * 2 ^ lastExponent q := rfl

theorem double_nonneg {q : ℚ} (h : 0 ≤ q) : 0 ≤ double q := by
  have hexp : (0 : ℚ) < 2 ^ lastExponent q := zpow_pos two_pos _
  have hdiv : ((0 : ℤ) : ℚ) ≤ q / 2 ^ lastExponent q := by
    rw [Int.cast_zero]
    exact div_nonneg h hexp.le
  rw [double_eq]
  exact mul_nonneg (Int.cast_nonneg (le_roundEven_of_le hdiv)) hexp.le

theorem abs_double (q : ℚ) :
    |double q| = (|roundEven (q / 2 ^ lastExponent q)| : ℤ) * 2 ^ lastExponent q := by
  have hexp : (0 : ℚ) < 2 ^ lastExponent q := zpow_pos two_pos _
  rw [double_eq, abs_mul, abs_of_pos hexp, Int.cast_abs]

/-- **A rounded number is off by a half of its last bit at most.** -/
theorem abs_double_sub_le (q : ℚ) : |double q - q| ≤ |q| / 2 ^ 53 + 2 ^ (-1075 : ℤ) := by
  rcases eq_or_ne q 0 with rfl | hq
  · rw [double_zero, sub_zero, abs_zero, zero_div, zero_add]
    exact zpow_nonneg two_pos.le _
  have hexp : (0 : ℚ) < 2 ^ lastExponent q := zpow_pos two_pos _
  have hscaled : double q - q = (roundEven (q / 2 ^ lastExponent q) - q / 2 ^ lastExponent q) * 2 ^ lastExponent q := by
    rw [double_eq, sub_mul, div_mul_cancel₀ q hexp.ne']
  have hhalf : |double q - q| ≤ 1 / 2 * 2 ^ lastExponent q := by
    rw [hscaled, abs_mul, abs_of_pos hexp]
    exact mul_le_mul_of_nonneg_right (abs_roundEven_sub_le _) hexp.le
  refine hhalf.trans ?_
  have hsmall : (0 : ℚ) < 2 ^ (-1075 : ℤ) := zpow_pos two_pos _
  rcases max_choice (Int.log 2 |q| - 52) (-1074) with hlast | hlast
  · have hlow : (2 : ℚ) ^ Int.log 2 |q| ≤ |q| := by
      exact_mod_cast Int.zpow_log_le_self (b := 2) (by decide) (abs_pos.mpr hq)
    have hsplit : 1 / 2 * (2 : ℚ) ^ lastExponent q = 2 ^ Int.log 2 |q| / 2 ^ 53 := by
      rw [lastExponent, hlast, zpow_sub₀ two_ne_zero]
      norm_num
      ring
    rw [hsplit]
    have hdiv : (2 : ℚ) ^ Int.log 2 |q| / 2 ^ 53 ≤ |q| / 2 ^ 53 := div_le_div_of_nonneg_right hlow (by norm_num)
    linarith
  · have hsplit : 1 / 2 * (2 : ℚ) ^ lastExponent q = 2 ^ (-1075 : ℤ) := by
      rw [lastExponent, hlast]
      have hone : (2 : ℚ) ^ (-1074 : ℤ) = 2 ^ (1 : ℤ) * 2 ^ (-1075 : ℤ) := (zpow_add₀ two_ne_zero 1 (-1075))
      rw [hone]
      ring
    rw [hsplit]
    have hpart : 0 ≤ |q| / 2 ^ 53 := by positivity
    linarith

theorem abs_double_mul_sub_le {q k : ℚ} (hq : 0 ≤ q) (hk : 0 ≤ k) :
    |double q * k - q * k| ≤ q * k / 2 ^ 53 + 2 ^ (-1075 : ℤ) * k := by
  have hoff := abs_double_sub_le q
  rw [abs_of_nonneg hq] at hoff
  rw [← sub_mul, abs_mul, abs_of_nonneg hk]
  calc |double q - q| * k ≤ (q / 2 ^ 53 + 2 ^ (-1075 : ℤ)) * k := mul_le_mul_of_nonneg_right hoff hk
    _ = q * k / 2 ^ 53 + 2 ^ (-1075 : ℤ) * k := by rw [add_mul, div_mul_eq_mul_div]

theorem double_near {q : ℚ} (h : 1 / 100 ≤ q) : q / 2 ≤ double q ∧ double q ≤ 2 * q := by
  have hoff := abs_le.mp (abs_double_sub_le q)
  have hsmall : (2 : ℚ) ^ (-1075 : ℤ) ≤ 2 ^ (-10 : ℤ) := zpow_le_zpow_right₀ one_le_two (by decide)
  rw [abs_of_nonneg (by linarith)] at hoff
  norm_num at hoff hsmall
  constructor <;> linarith

/-- the greatest number of 53 bits below `2 ^ 1024` -/
def greatestDouble : ℚ := ((2 ^ 53 - 1 : ℤ) : ℚ) * 2 ^ (971 : ℤ)

theorem greatestDouble_lt : greatestDouble < 2 ^ (1024 : ℤ) := by
  have hsplit : (2 : ℚ) ^ (1024 : ℤ) = 2 ^ (53 : ℤ) * 2 ^ (971 : ℤ) := (zpow_add₀ two_ne_zero 53 971)
  rw [greatestDouble, hsplit]
  refine mul_lt_mul_of_pos_right ?_ (zpow_pos two_pos _)
  norm_num

theorem mul_zpow_eq {e f : ℤ} (h : f ≤ e) (n : ℤ) :
    (n : ℚ) * 2 ^ e = ((n * 2 ^ (e - f).toNat : ℤ) : ℚ) * 2 ^ f := by
  have hsplit : (2 : ℚ) ^ e = 2 ^ (e - f).toNat * 2 ^ f := by
    rw [← zpow_natCast, Int.toNat_of_nonneg (by omega), ← zpow_add₀ two_ne_zero, Int.sub_add_cancel]
  rw [hsplit, Int.cast_mul, Int.cast_pow, Int.cast_ofNat, mul_assoc]

theorem abs_double_le_greatest {q : ℚ} (h : |q| ≤ greatestDouble) : |double q| ≤ greatestDouble := by
  have hexp : (0 : ℚ) < 2 ^ lastExponent q := zpow_pos two_pos _
  have hlast : lastExponent q ≤ 971 := by
    have hlog : Int.log 2 |q| < 1024 := by
      rcases eq_or_ne q 0 with rfl | hq
      · rw [abs_zero, Int.log_zero_right]
        decide
      · have hlow : (2 : ℚ) ^ Int.log 2 |q| ≤ |q| := by
          exact_mod_cast Int.zpow_log_le_self (b := 2) (by decide) (abs_pos.mpr hq)
        exact (zpow_lt_zpow_iff_right₀ one_lt_two).mp ((hlow.trans h).trans_lt greatestDouble_lt)
    unfold lastExponent
    omega
  rw [greatestDouble, mul_zpow_eq hlast, abs_double]
  refine mul_le_mul_of_nonneg_right (Int.cast_le.mpr (abs_roundEven_le ?_)) hexp.le
  rw [abs_div, abs_of_pos hexp, div_le_iff₀ hexp, ← mul_zpow_eq hlast]
  exact h

/-- there is no number of 53 bits in between -/
theorem abs_double_le_of_lt {q : ℚ} (h : |double q| < 2 ^ (1024 : ℤ)) : |double q| ≤ greatestDouble := by
  rw [abs_double] at h ⊢
  rcases le_or_gt 971 (lastExponent q) with hlast | hlast
  · rw [mul_zpow_eq hlast] at h ⊢
    have hsplit : (2 : ℚ) ^ (1024 : ℤ) = ((2 ^ 53 : ℤ) : ℚ) * 2 ^ (971 : ℤ) := by
      rw [Int.cast_pow, ← zpow_natCast, Int.cast_ofNat, ← zpow_add₀ two_ne_zero]
      rfl
    rw [hsplit] at h
    have hlt := Int.cast_lt.mp (lt_of_mul_lt_mul_right h (zpow_nonneg two_pos.le _))
    exact mul_le_mul_of_nonneg_right (Int.cast_le.mpr (by omega)) (zpow_nonneg two_pos.le _)
  · have hexp : (0 : ℚ) < 2 ^ lastExponent q := zpow_pos two_pos _
    have hround : |roundEven (q / 2 ^ lastExponent q)| ≤ 2 ^ 53 := by
      refine abs_roundEven_le ?_
      have hlog : |q| < 2 ^ (Int.log 2 |q| + 1) := by
        exact_mod_cast Int.lt_zpow_succ_log_self (b := 2) (by decide) |q|
      have hle : (2 : ℚ) ^ (Int.log 2 |q| + 1) ≤ 2 ^ (53 + lastExponent q) := by
        refine zpow_le_zpow_right₀ one_le_two ?_
        unfold lastExponent
        omega
      rw [zpow_add₀ two_ne_zero 53] at hle
      rw [abs_div, abs_of_pos hexp, div_le_iff₀ hexp, Int.cast_pow, Int.cast_ofNat]
      exact hlog.le.trans hle
    calc ((|roundEven (q / 2 ^ lastExponent q)| : ℤ) : ℚ) * 2 ^ lastExponent q
        ≤ ((2 ^ 53 : ℤ) : ℚ) * 2 ^ lastExponent q :=
          mul_le_mul_of_nonneg_right (Int.cast_le.mpr hround) hexp.le
      _ ≤ ((2 ^ 53 : ℤ) : ℚ) * 2 ^ (970 : ℤ) :=
          mul_le_mul_of_nonneg_left (zpow_le_zpow_right₀ one_le_two (by omega)) (by norm_num)
      _ = ((2 ^ 52 : ℤ) : ℚ) * 2 ^ (971 : ℤ) := by
          have hsplit : (2 : ℚ) ^ (971 : ℤ) = 2 ^ (1 : ℤ) * 2 ^ (970 : ℤ) := zpow_add₀ two_ne_zero 1 970
          rw [hsplit, ← mul_assoc]
          norm_num
      _ ≤ greatestDouble := mul_le_mul_of_nonneg_right (by norm_num) (zpow_nonneg two_pos.le _)
