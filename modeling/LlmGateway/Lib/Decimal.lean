import Mathlib.Data.Int.Log
import Mathlib.Data.Rat.Floor
import Mathlib.Tactic.FieldSimp
import Mathlib.Tactic.Linarith
import Mathlib.Tactic.Positivity

/-! Finite decimal arithmetic by value: operations round to a context's precision, and the
signals a context traps are errors. A result too small to be normal differs from the rational
below it only beyond the smallest exponent, so it is not told apart. -/
namespace LlmGateway.Lib.Decimal

structure Context where
  prec : Nat
  emax : Nat

inductive Signal where
  | invalidOperation
  | overflow
  deriving DecidableEq, Repr

/-- The nearest integer; a tie goes to the even one. -/
def roundHalfEven (q : ℚ) : ℤ :=
  let f := ⌊q⌋
  if q - f < 1 / 2 then f
  else if 1 / 2 < q - f then f + 1
  else if f % 2 = 0 then f else f + 1

@[simp] theorem roundHalfEven_intCast (n : ℤ) : roundHalfEven n = n := by
  simp [roundHalfEven]

theorem floor_le_roundHalfEven (q : ℚ) : ⌊q⌋ ≤ roundHalfEven q := by
  simp only [roundHalfEven]
  split_ifs <;> omega

theorem roundHalfEven_le_floor (q : ℚ) : roundHalfEven q ≤ ⌊q⌋ + 1 := by
  simp only [roundHalfEven]
  split_ifs <;> omega

theorem roundHalfEven_mono {x y : ℚ} (h : x ≤ y) : roundHalfEven x ≤ roundHalfEven y := by
  rcases (Int.floor_le_floor h).lt_or_eq with less | same
  · have below := roundHalfEven_le_floor x
    have above := floor_le_roundHalfEven y
    omega
  · -- Between the same two integers, the larger fraction is not rounded down further.
    have fraction : x - ⌊x⌋ ≤ y - ⌊y⌋ := by
      rw [same]
      exact sub_le_sub_right h _
    simp only [roundHalfEven, same] at fraction ⊢
    split_ifs <;> first | omega | (exfalso; linarith)

/-- What rounds to `n`: what is closer to it than a half, and a tie if it is even. -/
theorem roundHalfEven_eq_iff {q : ℚ} {n : ℤ} :
    roundHalfEven q = n ↔ |q - n| < 1 / 2 ∨ |q - n| = 1 / 2 ∧ Even n := by
  have low := Int.floor_le q
  have high := Int.lt_floor_add_one q
  have nearby : ∀ m : ℤ, |q - m| ≤ 1 / 2 → m = ⌊q⌋ ∨ m = ⌊q⌋ + 1 := by
    intro m hm
    rw [abs_le] at hm
    have above : (m : ℚ) < (⌊q⌋ + 2 : ℤ) := by
      push_cast
      linarith
    have below : ((⌊q⌋ - 1 : ℤ) : ℚ) < m := by
      push_cast
      linarith
    have above := Int.cast_lt.mp above
    have below := Int.cast_lt.mp below
    omega
  constructor
  · rintro rfl
    simp only [roundHalfEven]
    split_ifs with h₁ h₂ even
    · exact .inl (abs_lt.mpr ⟨by linarith, h₁⟩)
    · refine .inl (abs_lt.mpr ⟨?_, ?_⟩) <;> push_cast <;> linarith
    · have half : q - ⌊q⌋ = 1 / 2 := le_antisymm (not_lt.mp h₂) (not_lt.mp h₁)
      refine .inr ⟨?_, Int.even_iff.mpr even⟩
      rw [half]
      norm_num
    · have half : q - ⌊q⌋ = 1 / 2 := le_antisymm (not_lt.mp h₂) (not_lt.mp h₁)
      refine .inr ⟨?_, Int.even_iff.mpr (by omega)⟩
      rw [Int.cast_add, Int.cast_one, ← sub_sub, half]
      norm_num
  · intro h
    have close : |q - n| ≤ 1 / 2 := h.elim le_of_lt fun h => h.1.le
    rcases nearby n close with rfl | rfl
    · rcases h with h | ⟨h, even⟩
      · rw [roundHalfEven, if_pos (abs_lt.mp h).2]
      · rw [abs_of_nonneg (by linarith)] at h
        rw [roundHalfEven, if_neg (by linarith), if_neg (by linarith), if_pos (Int.even_iff.mp even)]
    · rw [Int.cast_add, Int.cast_one] at h
      rcases h with h | ⟨h, even⟩
      · have beyond : 1 / 2 < q - ⌊q⌋ := by
          have := (abs_lt.mp h).1
          linarith
        rw [roundHalfEven, if_neg (by linarith), if_pos beyond]
      · have half : q - ⌊q⌋ = 1 / 2 := by
          rw [abs_of_neg (by linarith)] at h
          linarith
        have odd : ¬ ⌊q⌋ % 2 = 0 := by
          have := Int.even_iff.mp even
          omega
        rw [roundHalfEven, if_neg (by linarith), if_neg (by linarith), if_neg odd]

theorem abs_sub_roundHalfEven (q : ℚ) : |q - roundHalfEven q| ≤ 1 / 2 :=
  (roundHalfEven_eq_iff.mp rfl).elim le_of_lt fun h => h.1.le

/-- An even number added before rounding is added to the result. -/
theorem roundHalfEven_add_even (q : ℚ) {k : ℤ} (even : Even k) : roundHalfEven (k + q) = k + roundHalfEven q := by
  have shift : (k + q : ℚ) - ((k + roundHalfEven q : ℤ) : ℚ) = q - roundHalfEven q := by
    push_cast
    ring
  rw [roundHalfEven_eq_iff, shift]
  rcases roundHalfEven_eq_iff.mp (rfl : roundHalfEven q = _) with h | ⟨h, tie⟩
  · exact .inl h
  · exact .inr ⟨h, even.add tie⟩

namespace Context
variable (c : Context)

/-- Round to `prec` significant digits; trap an exponent beyond `emax`. -/
def fix (q : ℚ) : Except Signal ℚ :=
  if q = 0 then .ok 0
  else
    let e : ℤ := Int.log 10 |q| - (c.prec - 1)
    let r : ℚ := roundHalfEven (q / 10 ^ e) * 10 ^ e
    if (c.emax : ℤ) < Int.log 10 |r| then .error .overflow else .ok r

def add (x y : ℚ) : Except Signal ℚ := c.fix (x + y)

def mul (x y : ℚ) : Except Signal ℚ := c.fix (x * y)

/-- Division by a number that is not zero. -/
def div (x y : ℚ) : Except Signal ℚ := c.fix (x / y)

variable {c} in
/-- A number whose coefficient fits the precision is not rounded. -/
theorem fix_exact (hc : c.prec ≤ c.emax + 1) {n : ℤ} (fits : n.natAbs < 10 ^ c.prec) (places : Nat) :
    c.fix (n / 10 ^ places) = .ok (n / 10 ^ places) := by
  by_cases hn : n = 0
  · simp [fix, hn]
  have hq : (n : ℚ) / 10 ^ places ≠ 0 := div_ne_zero (Int.cast_ne_zero.mpr hn) (by positivity)
  have small : |(n : ℚ) / 10 ^ places| < 10 ^ ((c.prec : ℤ) - places) := by
    rw [abs_div, abs_of_pos (by positivity : (0 : ℚ) < 10 ^ places), zpow_sub₀ (by norm_num),
      zpow_natCast, zpow_natCast]
    refine div_lt_div_of_pos_right ?_ (by positivity)
    rw [← Int.cast_abs, Int.abs_eq_natAbs]
    exact_mod_cast fits
  have digits : Int.log 10 |(n : ℚ) / 10 ^ places| < (c.prec : ℤ) - places :=
    (Int.lt_zpow_iff_log_lt (by norm_num) (abs_pos.mpr hq)).mp (by exact_mod_cast small)
  -- The exponent is no larger than the number's own, so the coefficient is an integer.
  obtain ⟨k, hk⟩ : ∃ k : ℕ, Int.log 10 |(n : ℚ) / 10 ^ places| - (c.prec - 1) = -((places : ℤ) + k) :=
    ⟨(-(Int.log 10 |(n : ℚ) / 10 ^ places| - (c.prec - 1)) - places).toNat, by omega⟩
  have exponent : (10 : ℚ) ^ (-((places : ℤ) + k)) = (10 ^ places * 10 ^ k)⁻¹ := by
    rw [zpow_neg, zpow_add₀ (by norm_num), zpow_natCast, zpow_natCast]
  have coefficient : (n : ℚ) / 10 ^ places / (10 ^ places * 10 ^ k)⁻¹ = (n * 10 ^ k : ℤ) := by
    rw [div_inv_eq_mul]
    push_cast
    field_simp
  have value : ((n * 10 ^ k : ℤ) : ℚ) * (10 ^ places * 10 ^ k)⁻¹ = n / 10 ^ places := by
    push_cast
    field_simp
  simp only [fix, hq, if_false, hk, exponent, coefficient, roundHalfEven_intCast, value]
  rw [if_neg (by omega)]

/-- `x` in units of `10 ^ -places`; a coefficient of more than `prec` digits is invalid. -/
def quantize (places : Nat) (x : ℚ) : Except Signal ℤ :=
  let n := roundHalfEven (x * 10 ^ places)
  if 10 ^ c.prec ≤ n.natAbs then .error .invalidOperation else .ok n

end Context

/-- Python's default context. -/
def pythonContext : Context := ⟨28, 999999⟩

end LlmGateway.Lib.Decimal
