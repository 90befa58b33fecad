import LlmGateway.Health.Breaker
import LlmGateway.Lib.Timedelta

/-! `RetryPolicy` and `classify`: which results are retried, and after what delay. -/
namespace LlmGateway.Reflection
open Lib Lib.Decimal Execution

inductive RetryVerdict where
  | succeeded
  | retry
  | terminalFailure
  deriving DecidableEq, Repr

structure RetryPolicy where
  maxAttempts : Nat
  baseBackoff : Timedelta
  maxAttempts_pos : 1 ≤ maxAttempts
  baseBackoff_nonneg : 0 ≤ baseBackoff.microseconds

/-- `RetryPolicy.backoff_before`, from the second attempt on. `none` is an `OverflowError`: the
multiplier is no float, the seconds are infinite, or the delay is out of range. -/
def RetryPolicy.backoffBefore (policy : RetryPolicy) (nextAttempt : Nat) : Option Timedelta :=
  (Binary64.ofInt (2 ^ (nextAttempt - 2))).bind fun multiplier =>
    (Binary64.mul policy.baseBackoff.totalSeconds multiplier).bind Timedelta.ofSeconds

def classify (result : InferenceExecutionResult) : RetryVerdict :=
  if result.outcome = .cacheHit then .succeeded
  else if result.outcome = .executed ∧ result.response.ok = true then .succeeded
  else if result.outcome ≠ .executed then .terminalFailure
  else if result.response.errorCategory.any Health.transient then .retry
  else .terminalFailure

/-- Only a failed call is retried. -/
theorem failed_of_retry {result : InferenceExecutionResult} (h : classify result = .retry) :
    result.outcome = .executed ∧ result.response.ok = false := by
  unfold classify at h
  split_ifs at h with _ succeeded executed
  · exact ⟨not_not.mp executed, Bool.eq_false_of_not_eq_true fun ok => succeeded ⟨not_not.mp executed, ok⟩⟩

namespace RetryPolicy
variable (policy : RetryPolicy)

/-- The base doubled for each attempt after the second, in microseconds. -/
def doubled (nextAttempt : Nat) : Int := policy.baseBackoff.microseconds * 2 ^ (nextAttempt - 2)

/-- How far off the base is, as a float of seconds, after it is doubled: in microseconds. -/
def drift (nextAttempt : Nat) : ℚ :=
  |10 ^ 6 * Binary64.nearest (policy.baseBackoff.microseconds / 10 ^ 6) - policy.baseBackoff.microseconds| *
    2 ^ (nextAttempt - 2)

/-- The doubled base is within a `timedelta`, its multiplier is a float, and the drift is less than
half a microsecond; just a half is made good by an even number. -/
def Exact (nextAttempt : Nat) : Prop :=
  nextAttempt < 1026 ∧ policy.doubled nextAttempt < 10 ^ 9 * 86400 * 10 ^ 6 ∧
    (policy.drift nextAttempt < 1 / 2 ∨ policy.drift nextAttempt = 1 / 2 ∧ Even (policy.doubled nextAttempt))

variable {policy}

private theorem ofInt_two_pow (n : ℕ) : Binary64.ofInt (2 ^ n) = if n < 1024 then some (2 ^ n) else none := by
  have power : Binary64.nearest (2 ^ n) = 2 ^ n :=
    Binary64.nearest_eq_self ⟨1, n, by rw [zpow_natCast, Int.cast_one, one_mul], by decide⟩
  have cast : Binary64.nearest ((2 ^ n : ℤ) : ℚ) = 2 ^ n := by
    push_cast
    exact power
  rw [Binary64.ofInt, cast, abs_of_pos (by positivity), Binary64.limit]
  exact if_congr (pow_lt_pow_iff_right₀ (by norm_num)) rfl rfl

/-- Doubled seconds are a double. -/
private theorem nearest_doubled (q : ℚ) (n : ℕ) :
    Binary64.nearest (Binary64.nearest q * 2 ^ n) = Binary64.nearest q * 2 ^ n := by
  have double := (Binary64.nearest_representable q).mul_zpow n
  rw [zpow_natCast] at double
  exact Binary64.nearest_eq_self double

theorem backoffBefore_eq (nextAttempt : Nat) :
    policy.backoffBefore nextAttempt =
      if nextAttempt - 2 < 1024 ∧ |policy.baseBackoff.totalSeconds * 2 ^ (nextAttempt - 2)| < Binary64.limit then
        Timedelta.ofMicroseconds (roundHalfEven
          (10 ^ 6 * (policy.baseBackoff.totalSeconds * 2 ^ (nextAttempt - 2))))
      else none := by
  rw [backoffBefore, ofInt_two_pow]
  by_cases small : nextAttempt - 2 < 1024
  · rw [if_pos small, Option.bind_some, Binary64.mul, Timedelta.totalSeconds, nearest_doubled]
    by_cases finite : |Binary64.nearest (policy.baseBackoff.microseconds / 10 ^ 6) * 2 ^ (nextAttempt - 2)| < Binary64.limit
    · rw [if_pos finite, if_pos ⟨small, finite⟩, Option.bind_some,
        Timedelta.ofSeconds_doubled policy.baseBackoff_nonneg]
    · rw [if_neg finite, if_neg fun h => finite h.2, Option.bind_none]
  · rw [if_neg small, if_neg fun h => small h.1, Option.bind_none]

/-- The seconds as microseconds, against the doubled base. -/
private theorem drift_eq (nextAttempt : Nat) :
    |10 ^ 6 * (policy.baseBackoff.totalSeconds * 2 ^ (nextAttempt - 2)) - (policy.doubled nextAttempt : ℤ)| =
      policy.drift nextAttempt := by
  have weight : (0 : ℚ) < 2 ^ (nextAttempt - 2) := by positivity
  have scaled : 10 ^ 6 * (policy.baseBackoff.totalSeconds * 2 ^ (nextAttempt - 2)) - (policy.doubled nextAttempt : ℤ) =
      (10 ^ 6 * policy.baseBackoff.totalSeconds - policy.baseBackoff.microseconds) * 2 ^ (nextAttempt - 2) := by
    rw [doubled]
    push_cast
    ring
  rw [scaled, abs_mul, abs_of_pos weight, drift, Timedelta.totalSeconds]

/-- The delay before an attempt is the doubled base exactly when float arithmetic keeps it. -/
theorem backoffBefore_iff (nextAttempt : Nat) :
    (∃ delay, policy.backoffBefore nextAttempt = some delay ∧ delay.microseconds = policy.doubled nextAttempt) ↔
      policy.Exact nextAttempt := by
  have rounds : roundHalfEven (10 ^ 6 * (policy.baseBackoff.totalSeconds * 2 ^ (nextAttempt - 2))) =
      policy.doubled nextAttempt ↔ policy.drift nextAttempt < 1 / 2 ∨
        policy.drift nextAttempt = 1 / 2 ∧ Even (policy.doubled nextAttempt) := by
    rw [roundHalfEven_eq_iff, drift_eq]
  constructor
  · rintro ⟨delay, h, value⟩
    rw [backoffBefore_eq] at h
    split_ifs at h with small
    have rounded := Timedelta.ofMicroseconds_eq_some h
    refine ⟨by omega, value ▸ delay.inRange.2, rounds.mp (rounded.symm.trans value)⟩
  · rintro ⟨small, fits, close⟩
    have rounded := rounds.mpr close
    have within : policy.drift nextAttempt ≤ 1 / 2 := close.elim le_of_lt fun tie => tie.1.le
    have nonneg : 0 ≤ policy.doubled nextAttempt := mul_nonneg policy.baseBackoff_nonneg (by positivity)
    have finite : |policy.baseBackoff.totalSeconds * 2 ^ (nextAttempt - 2)| < Binary64.limit := by
      rw [← drift_eq, abs_le] at within
      have low : (0 : ℚ) ≤ policy.doubled nextAttempt := by exact_mod_cast nonneg
      have high : (policy.doubled nextAttempt : ℚ) < 10 ^ 9 * 86400 * 10 ^ 6 := by exact_mod_cast fits
      have size : (10 : ℚ) ^ 20 < Binary64.limit :=
        (by norm_num : (10 : ℚ) ^ 20 < 2 ^ 70).trans_le (pow_le_pow_right₀ (by norm_num) (by norm_num))
      rw [abs_lt]
      constructor <;> linarith [within.1, within.2]
    have range : -(999999999 * 86400 * 10 ^ 6) ≤ policy.doubled nextAttempt ∧
        policy.doubled nextAttempt < 10 ^ 9 * 86400 * 10 ^ 6 := ⟨by omega, fits⟩
    refine ⟨⟨policy.doubled nextAttempt, range⟩, ?_, rfl⟩
    rw [backoffBefore_eq, if_pos ⟨by omega, finite⟩, rounded, Timedelta.ofMicroseconds, dif_pos range]

/-- A delay of less than `2 ^ 52` microseconds, which is over a century, is kept. -/
theorem exact_of_lt {nextAttempt : Nat} (small : nextAttempt < 1026) (short : policy.doubled nextAttempt < 2 ^ 52) :
    policy.Exact nextAttempt := by
  refine ⟨small, short.trans (by norm_num), .inl ?_⟩
  have error := Timedelta.abs_doubled_sub_le policy.baseBackoff_nonneg (nextAttempt - 2)
  have value : ((policy.doubled nextAttempt : ℤ) : ℚ) =
      policy.baseBackoff.microseconds * 2 ^ (nextAttempt - 2) := by
    rw [doubled]
    push_cast
    rfl
  have below : ((policy.doubled nextAttempt : ℤ) : ℚ) < 2 ^ 52 := by exact_mod_cast short
  rw [← drift_eq, Timedelta.totalSeconds, value]
  rw [value] at below
  calc _ ≤ _ := error
    _ < (2 : ℚ) ^ 52 / 2 ^ 53 := div_lt_div_of_pos_right below (by positivity)
    _ = 1 / 2 := by norm_num

end RetryPolicy
end LlmGateway.Reflection
