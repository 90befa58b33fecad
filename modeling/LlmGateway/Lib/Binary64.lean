import LlmGateway.Lib.Decimal

/-! Binary floating point by value: results round to 53 significant bits, a tie to the even one, and
overflow beyond the largest exponent. A result too small to be normal is not told apart. -/
namespace LlmGateway.Lib.Binary64
open Lib.Decimal

/-- The exponent of the last significant bit. -/
def exponent (q : ℚ) : ℤ := Int.log 2 |q| - 52

def nearest (q : ℚ) : ℚ := roundHalfEven (q / 2 ^ exponent q) * 2 ^ exponent q

/-- Nothing from here on is finite. -/
def limit : ℚ := 2 ^ 1024

/-- An integer as a double, where it is not too large for one. -/
def ofInt (n : ℤ) : Option ℚ := if |nearest n| < limit then some (nearest n) else none

/-- A product; `none` is an infinity. -/
def mul (x y : ℚ) : Option ℚ := if |nearest (x * y)| < limit then some (nearest (x * y)) else none

/-- Of 53 significant bits at most. -/
def Representable (q : ℚ) : Prop := ∃ n e : ℤ, q = n * 2 ^ e ∧ n.natAbs ≤ 2 ^ 53

variable {q : ℚ}

theorem Representable.mul_zpow (h : Representable q) (k : ℤ) : Representable (q * 2 ^ k) := by
  obtain ⟨n, e, rfl, fits⟩ := h
  exact ⟨n, e + k, by rw [mul_assoc, ← zpow_add₀ (by norm_num)], fits⟩

private theorem scale_pos (e : ℤ) : (0 : ℚ) < 2 ^ e := zpow_pos (by norm_num) e

/-- The significand has 53 bits. -/
private theorem significand_bounds (hq : q ≠ 0) :
    2 ^ 52 ≤ |q / 2 ^ exponent q| ∧ |q / 2 ^ exponent q| < 2 ^ 53 := by
  have low : (2 : ℚ) ^ Int.log 2 |q| ≤ |q| := by exact_mod_cast Int.zpow_log_le_self (by norm_num) (abs_pos.mpr hq)
  have high : |q| < (2 : ℚ) ^ (Int.log 2 |q| + 1) := by
    exact_mod_cast Int.lt_zpow_succ_log_self (by norm_num) |q|
  have bits (k : ℕ) : (2 : ℚ) ^ k * 2 ^ exponent q = 2 ^ (k + exponent q) := by
    rw [zpow_add₀ (by norm_num), zpow_natCast]
  have scale := scale_pos (exponent q)
  rw [abs_div, abs_of_pos scale, le_div_iff₀ scale, div_lt_iff₀ scale, bits, bits, exponent]
  constructor
  · rwa [show ((52 : ℕ) : ℤ) + (Int.log 2 |q| - 52) = Int.log 2 |q| by push_cast; ring]
  · rwa [show ((53 : ℕ) : ℤ) + (Int.log 2 |q| - 52) = Int.log 2 |q| + 1 by push_cast; ring]

@[simp] theorem nearest_zero : nearest 0 = 0 := by
  have zero := roundHalfEven_intCast 0
  rw [Int.cast_zero] at zero
  rw [nearest, zero_div, zero, Int.cast_zero, zero_mul]

/-- Rounding gives a double. -/
theorem nearest_bits (q : ℚ) : ∃ n : ℤ, nearest q = n * 2 ^ exponent q ∧ n.natAbs ≤ 2 ^ 53 := by
  refine ⟨roundHalfEven (q / 2 ^ exponent q), rfl, ?_⟩
  have bound : |q / 2 ^ exponent q| ≤ 2 ^ 53 := by
    by_cases hq : q = 0
    · rw [hq, zero_div, abs_zero]
      positivity
    · exact (significand_bounds hq).2.le
  obtain ⟨low, high⟩ := abs_le.mp bound
  have high := roundHalfEven_mono (y := ((2 ^ 53 : ℤ) : ℚ)) (by exact_mod_cast high)
  have low := roundHalfEven_mono (x := ((-2 ^ 53 : ℤ) : ℚ)) (by exact_mod_cast low)
  rw [roundHalfEven_intCast] at high low
  omega

theorem nearest_representable (q : ℚ) : Representable (nearest q) := by
  obtain ⟨n, heq, fits⟩ := nearest_bits q
  exact ⟨n, _, heq, fits⟩

/-- Below its own exponent a number is not rounded. -/
private theorem nearest_of_exponent_le {n k : ℤ} (h : exponent (n * 2 ^ k) ≤ k) :
    nearest (n * 2 ^ k) = n * 2 ^ k := by
  obtain ⟨d, hd⟩ := Int.le.dest h
  have whole : (n * 2 ^ k : ℚ) / 2 ^ exponent (n * 2 ^ k) = (n * 2 ^ d : ℤ) := by
    rw [div_eq_iff (scale_pos _).ne']
    push_cast
    rw [mul_assoc, ← zpow_natCast, ← zpow_add₀ (by norm_num), add_comm, hd]
  rw [nearest, whole, roundHalfEven_intCast, ← whole, div_mul_cancel₀ _ (scale_pos _).ne']

private theorem exponent_le {n k : ℤ} (ne : n ≠ 0) (h : n.natAbs < 2 ^ 53) : exponent (n * 2 ^ k) ≤ k := by
  have size : |(n * 2 ^ k : ℚ)| < 2 ^ (53 + k) := by
    rw [abs_mul, abs_of_pos (scale_pos k), zpow_add₀ (by norm_num)]
    refine mul_lt_mul_of_pos_right ?_ (scale_pos k)
    rw [← Int.cast_abs, Int.abs_eq_natAbs]
    exact_mod_cast h
  have pos : 0 < |(n * 2 ^ k : ℚ)| := abs_pos.mpr (mul_ne_zero (Int.cast_ne_zero.mpr ne) (scale_pos k).ne')
  have log : Int.log 2 |(n * 2 ^ k : ℚ)| < 53 + k :=
    (Int.lt_zpow_iff_log_lt (by norm_num) pos).mp (by exact_mod_cast size)
  rw [exponent]
  omega

/-- A double is its own nearest. -/
theorem nearest_eq_self (h : Representable q) : nearest q = q := by
  obtain ⟨n, k, rfl, fits⟩ := h
  by_cases ne : n = 0
  · rw [ne, Int.cast_zero, zero_mul, nearest_zero]
  · rcases fits.lt_or_eq with small | power
    · exact nearest_of_exponent_le (exponent_le ne small)
    · -- a power of two, whose significand could have one bit
      obtain ⟨u, hu, rfl⟩ : ∃ u : ℤ, u.natAbs = 1 ∧ n = u * 2 ^ 53 := by
        rcases Int.natAbs_eq n with h | h
        · exact ⟨1, rfl, by omega⟩
        · exact ⟨-1, rfl, by omega⟩
      have shift : (((u * 2 ^ 53 : ℤ) : ℚ) * 2 ^ k) = u * 2 ^ (53 + k) := by
        rw [zpow_add₀ (by norm_num)]
        push_cast
        ring
      rw [shift]
      exact nearest_of_exponent_le (exponent_le (by omega) (by omega))

/-- The relative error of rounding. -/
theorem abs_nearest_sub_le (q : ℚ) : |nearest q - q| ≤ |q| / 2 ^ 53 := by
  by_cases hq : q = 0
  · rw [hq, nearest_zero, sub_self, abs_zero, zero_div]
  · have scale := scale_pos (exponent q)
    have parts : nearest q - q = -(q / 2 ^ exponent q - roundHalfEven (q / 2 ^ exponent q)) * 2 ^ exponent q := by
      rw [nearest, neg_sub, sub_mul, div_mul_cancel₀ _ scale.ne']
    have half := abs_sub_roundHalfEven (q / 2 ^ exponent q)
    have low := (significand_bounds hq).1
    rw [abs_div, abs_of_pos scale, le_div_iff₀ scale] at low
    rw [parts, abs_mul, abs_neg, abs_of_pos scale]
    calc _ ≤ 1 / 2 * (2 : ℚ) ^ exponent q := mul_le_mul_of_nonneg_right half scale.le
      _ = 2 ^ 52 * 2 ^ exponent q / 2 ^ 53 := by ring
      _ ≤ _ := div_le_div_of_nonneg_right low (by positivity)

end LlmGateway.Lib.Binary64
