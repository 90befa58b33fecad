import LlmGateway.Lib.Binary64

/-! Python's `timedelta`: whole microseconds, to and from seconds in floating point. -/
namespace LlmGateway.Lib
open Lib.Decimal

/-- Less than a thousand million days, either way. -/
structure Timedelta where
  microseconds : Int
  inRange : -(999999999 * 86400 * 10 ^ 6) ≤ microseconds ∧ microseconds < 10 ^ 9 * 86400 * 10 ^ 6
  deriving DecidableEq

namespace Timedelta

/-- `none` is the `OverflowError` for more days than that. -/
def ofMicroseconds (n : Int) : Option Timedelta :=
  if h : -(999999999 * 86400 * 10 ^ 6) ≤ n ∧ n < 10 ^ 9 * 86400 * 10 ^ 6 then some ⟨n, h⟩ else none

def totalSeconds (d : Timedelta) : ℚ := Binary64.nearest (d.microseconds / 10 ^ 6)

/-- `timedelta(seconds=...)` of a number that is not negative. The microseconds in its fraction are
computed in floating point. -/
def ofSeconds (seconds : ℚ) : Option Timedelta :=
  let whole := ⌊seconds⌋
  ofMicroseconds (whole * 10 ^ 6 + roundHalfEven (Binary64.nearest (10 ^ 6 * (seconds - whole))))

theorem ofMicroseconds_eq_some {n : Int} {d : Timedelta} (h : ofMicroseconds n = some d) : d.microseconds = n := by
  rw [ofMicroseconds] at h
  split_ifs at h
  cases h
  rfl

/-- The microseconds in the fraction of a double that is a multiple of `2 ^ -39` are a double. -/
private theorem fraction_representable {k e : ℤ} (coarse : -39 ≤ e) :
    Binary64.Representable (10 ^ 6 * ((k * 2 ^ e : ℚ) - ⌊(k * 2 ^ e : ℚ)⌋)) := by
  rcases le_or_gt 0 e with whole | fine
  · obtain ⟨d, rfl⟩ := Int.eq_ofNat_of_zero_le whole
    have floor : ⌊(k * 2 ^ (d : ℤ) : ℚ)⌋ = k * 2 ^ d := by
      rw [zpow_natCast]
      exact_mod_cast Int.floor_intCast (k * 2 ^ d)
    refine ⟨0, 0, ?_, by decide⟩
    rw [floor]
    push_cast
    rw [zpow_natCast]
    ring
  · obtain ⟨d, hd⟩ := Int.eq_ofNat_of_zero_le (show 0 ≤ -e by omega)
    obtain rfl : e = -(d : ℤ) := by omega
    set w := ⌊(k * 2 ^ (-(d : ℤ)) : ℚ)⌋ with hw
    have scale : (0 : ℚ) < 2 ^ (-(d : ℤ)) := zpow_pos (by norm_num) _
    have cancel : (2 : ℚ) ^ d * 2 ^ (-(d : ℤ)) = 1 := by
      rw [← zpow_natCast, ← zpow_add₀ (by norm_num), add_neg_cancel, zpow_zero]
    have parts : (k * 2 ^ (-(d : ℤ)) : ℚ) - w = (k - w * 2 ^ d : ℤ) * 2 ^ (-(d : ℤ)) := by
      push_cast
      rw [sub_mul, mul_assoc (w : ℚ), cancel, mul_one]
    -- the fraction is less than one, so it has at most 39 bits
    have low : 0 ≤ k - w * 2 ^ d := by
      have := sub_nonneg.mpr (Int.floor_le (k * 2 ^ (-(d : ℤ)) : ℚ))
      rw [← hw, parts] at this
      exact_mod_cast nonneg_of_mul_nonneg_left this scale
    have high : k - w * 2 ^ d < 2 ^ 39 := by
      have below := sub_lt_iff_lt_add'.mpr (Int.lt_floor_add_one (k * 2 ^ (-(d : ℤ)) : ℚ))
      rw [← hw, parts, ← cancel] at below
      have below : k - w * 2 ^ d < 2 ^ d := by exact_mod_cast lt_of_mul_lt_mul_right below scale.le
      exact below.trans_le (pow_le_pow_right₀ (by norm_num) (by omega))
    refine ⟨15625 * (k - w * 2 ^ d), 6 + -(d : ℤ), ?_, by omega⟩
    rw [parts, zpow_add₀ (by norm_num)]
    push_cast
    ring

section Doubled
variable {m : ℤ} (hm : 0 ≤ m) (n : ℕ)
include hm

/-- The error of the seconds, in microseconds. -/
theorem abs_doubled_sub_le :
    |10 ^ 6 * (Binary64.nearest (m / 10 ^ 6) * 2 ^ n) - (m * 2 ^ n : ℚ)| ≤ (m * 2 ^ n : ℚ) / 2 ^ 53 := by
  have rounding := Binary64.abs_nearest_sub_le (m / 10 ^ 6)
  have seconds : (0 : ℚ) ≤ m / 10 ^ 6 := div_nonneg (by exact_mod_cast hm) (by norm_num)
  rw [abs_of_nonneg seconds] at rounding
  have scaled : 10 ^ 6 * (Binary64.nearest (m / 10 ^ 6) * 2 ^ n) - m * 2 ^ n =
      (Binary64.nearest (m / 10 ^ 6) - m / 10 ^ 6) * (10 ^ 6 * 2 ^ n) := by
    ring
  have weight : (0 : ℚ) < 10 ^ 6 * 2 ^ n := by positivity
  rw [scaled, abs_mul, abs_of_pos weight]
  calc _ ≤ (m : ℚ) / 10 ^ 6 / 2 ^ 53 * (10 ^ 6 * 2 ^ n) := mul_le_mul_of_nonneg_right rounding weight.le
    _ = _ := by ring

/-- Seconds that are no multiple of `2 ^ -39` are few, and their error far below a microsecond. -/
private theorem doubled_fine {e k : ℤ} (heq : Binary64.nearest (m / 10 ^ 6) * 2 ^ n = k * 2 ^ e)
    (bits : k.natAbs ≤ 2 ^ 53) (fine : e < -39) : (m * 2 ^ n : ℚ) / 2 ^ 53 < 1 / 4 := by
  have few : |10 ^ 6 * (Binary64.nearest (m / 10 ^ 6) * 2 ^ n)| ≤ 10 ^ 6 * 2 ^ 13 := by
    have scale : (2 : ℚ) ^ e ≤ 2 ^ (-40 : ℤ) := zpow_le_zpow_right₀ (by norm_num) (by omega)
    have significand : |(k : ℚ)| ≤ 2 ^ 53 := by
      rw [← Int.cast_abs, Int.abs_eq_natAbs]
      exact_mod_cast bits
    rw [heq, abs_mul, abs_mul, abs_of_pos (zpow_pos (by norm_num) e : (0 : ℚ) < 2 ^ e), abs_of_pos (by norm_num)]
    refine mul_le_mul_of_nonneg_left ?_ (by norm_num)
    calc _ ≤ (2 : ℚ) ^ 53 * 2 ^ (-40 : ℤ) := mul_le_mul significand scale (zpow_pos (by norm_num) e).le (by norm_num)
      _ = 2 ^ 13 := by norm_num
  have error := abs_le.mp (abs_doubled_sub_le hm n)
  have size := (abs_le.mp few).2
  linarith [error.1]

/-- The two roundings of a doubled number of microseconds come to one. -/
theorem ofSeconds_doubled : ofSeconds (Binary64.nearest (m / 10 ^ 6) * 2 ^ n) =
    ofMicroseconds (roundHalfEven (10 ^ 6 * (Binary64.nearest (m / 10 ^ 6) * 2 ^ n))) := by
  obtain ⟨k, heq, bits⟩ := Binary64.nearest_bits (m / 10 ^ 6)
  have value : Binary64.nearest (m / 10 ^ 6) * 2 ^ n = k * 2 ^ (Binary64.exponent (m / 10 ^ 6) + n) := by
    rw [heq, zpow_add₀ (by norm_num), zpow_natCast, mul_assoc]
  rw [ofSeconds]
  congr 1
  set p := Binary64.nearest (m / 10 ^ 6) * 2 ^ n with hp
  have even : Even (⌊p⌋ * 10 ^ 6) := ⟨⌊p⌋ * 500000, by ring⟩
  rw [← roundHalfEven_add_even _ even]
  rcases le_or_gt (-39) (Binary64.exponent (m / 10 ^ 6) + n) with coarse | fine
  · have exact := fraction_representable (k := k) coarse
    rw [← value] at exact
    rw [Binary64.nearest_eq_self exact]
    congr 1
    push_cast
    ring
  · -- both round to the microseconds doubled
    have small := doubled_fine hm n value bits fine
    have error := (abs_doubled_sub_le hm n).trans_lt small
    have fraction := Binary64.abs_nearest_sub_le (10 ^ 6 * (p - ⌊p⌋))
    have low := Int.floor_le p
    have high := Int.lt_floor_add_one p
    rw [abs_of_nonneg (mul_nonneg (by norm_num) (sub_nonneg.mpr low))] at fraction
    have tiny : 10 ^ 6 * (p - ⌊p⌋) / 2 ^ 53 < 1 / 4 := by
      rw [div_lt_iff₀ (by positivity)]
      linarith
    have whole : ((m * 2 ^ n : ℤ) : ℚ) = m * 2 ^ n := by push_cast; rfl
    rw [← hp, abs_lt] at error
    rw [abs_le] at fraction
    have twice : roundHalfEven ((⌊p⌋ * 10 ^ 6 : ℤ) + Binary64.nearest (10 ^ 6 * (p - ⌊p⌋))) = m * 2 ^ n := by
      refine roundHalfEven_eq_iff.mpr (.inl ?_)
      rw [whole, abs_lt]
      push_cast
      constructor <;> linarith
    have once : roundHalfEven (10 ^ 6 * p) = m * 2 ^ n := by
      refine roundHalfEven_eq_iff.mpr (.inl ?_)
      rw [whole, abs_lt]
      constructor <;> linarith
    rw [twice, once]

end Doubled

end Timedelta
end LlmGateway.Lib
