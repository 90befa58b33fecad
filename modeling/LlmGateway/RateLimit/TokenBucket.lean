import LlmGateway.Ledger.Port
import LlmGateway.Lib.Machine
import Mathlib.Data.Rat.Floor
import Mathlib.Tactic.Linarith

/-! `InMemoryTokenBucketRateLimiter`: one token bucket per organization. Rates, tokens and times in
seconds are exact rationals. -/
namespace LlmGateway.RateLimit
open Ledger Lib

structure RateLimitPolicy where
  requestsPerSecond : ℚ
  burst : Nat
  rate_pos : 0 < requestsPerSecond
  burst_pos : 1 ≤ burst

/-- A denial says when to retry, and only a denial does. -/
structure RateLimitDecision where
  allowed : Bool
  limit : Nat
  remaining : Int
  resetSeconds : Int
  retryAfterSeconds : Option Int
  guided : retryAfterSeconds.isSome = !allowed
  deriving DecidableEq

structure Bucket where
  tokens : ℚ
  updatedAt : ℚ
  deriving DecidableEq

/-- `int(x)`: towards zero. -/
def int (x : ℚ) : Int := if 0 ≤ x then ⌊x⌋ else ⌈x⌉

section
variable (policy : RateLimitPolicy)

def refill (bucket : Bucket) (now : ℚ) : Bucket :=
  let elapsed := max 0 (now - bucket.updatedAt)
  { tokens := min policy.burst (bucket.tokens + elapsed * policy.requestsPerSecond)
    updatedAt := now }

def secondsToNextToken (bucket : Bucket) : Int :=
  let deficit := 1 - bucket.tokens
  max 1 ⌈deficit / policy.requestsPerSecond⌉

def secondsToFull (bucket : Bucket) : Int :=
  let deficit := policy.burst - bucket.tokens
  if deficit ≤ 0 then 0 else max 1 ⌈deficit / policy.requestsPerSecond⌉

/-- The bucket an acquisition finds: full when the organization is new. -/
def found (now : ℚ) : Option Bucket → Bucket
  | none => ⟨policy.burst, now⟩
  | some bucket => refill policy bucket now

/-- What `acquire` does with the bucket it found. -/
def take (bucket : Bucket) : Bucket × RateLimitDecision :=
  if 1 ≤ bucket.tokens then
    let bucket := { bucket with tokens := bucket.tokens - 1 }
    (bucket, ⟨true, policy.burst, int bucket.tokens, secondsToFull policy bucket, none, rfl⟩)
  else
    (bucket, ⟨false, policy.burst, 0, secondsToFull policy bucket,
      some (secondsToNextToken policy bucket), rfl⟩)

/-- One organization's bucket. It is asked at a time, and its answer keeps that time. -/
def bucketMachine : Machine (Option Bucket) ℚ (ℚ × RateLimitDecision) where
  step entry now :=
    let (bucket, decision) := take policy (found policy now entry)
    (some bucket, now, decision)

/-- `InMemoryTokenBucketRateLimiter.acquire`, over the dictionary of buckets. -/
def tokenBucketRateLimiter : Machine (OrgId → Option Bucket) (OrgId × ℚ)
    (OrgId × ℚ × RateLimitDecision) :=
  (bucketMachine policy).keyed

end

/-- How many of the answers allow a request at a time in the window. -/
def allowedWithin (s t : ℚ) (answers : List (ℚ × RateLimitDecision)) : Nat :=
  answers.countP fun a => s ≤ a.1 ∧ a.1 ≤ t ∧ a.2.allowed = true

/-- What the limiter guarantees of one organization after any calls. -/
structure LimiterSpec (policy : RateLimitPolicy) (calls : List (OrgId × ℚ)) (org : OrgId) : Prop where
  bounded : ∀ s t, s ≤ t →
    (allowedWithin s t (Machine.ofKey org
      ((tokenBucketRateLimiter policy).run (fun _ => none) calls).2) : ℚ) ≤
        policy.burst + policy.requestsPerSecond * (t - s)
  level : ∀ bucket, ((tokenBucketRateLimiter policy).run (fun _ => none) calls).1 org = some bucket →
    0 ≤ bucket.tokens ∧ bucket.tokens ≤ policy.burst
  isolated : ∀ calls', Machine.ofKey org calls' = Machine.ofKey org calls →
    Machine.ofKey org ((tokenBucketRateLimiter policy).run (fun _ => none) calls').2 =
      Machine.ofKey org ((tokenBucketRateLimiter policy).run (fun _ => none) calls).2

variable {policy : RateLimitPolicy} {now s t : ℚ}

/-- The level is within the bucket. -/
def Level (policy : RateLimitPolicy) (bucket : Bucket) : Prop :=
  0 ≤ bucket.tokens ∧ bucket.tokens ≤ policy.burst

theorem found_level {entry : Option Bucket} (h : ∀ bucket ∈ entry, Level policy bucket) :
    Level policy (found policy now entry) := by
  have full : (0 : ℚ) ≤ policy.burst := Nat.cast_nonneg _
  cases entry with
  | none => exact ⟨full, le_rfl⟩
  | some bucket =>
    have accrued : 0 ≤ max 0 (now - bucket.updatedAt) * policy.requestsPerSecond :=
      mul_nonneg (le_max_left _ _) policy.rate_pos.le
    refine ⟨le_min full ?_, min_le_left _ _⟩
    exact add_nonneg (h bucket rfl).1 accrued

theorem take_level {bucket : Bucket} (h : Level policy bucket) : Level policy (take policy bucket).1 := by
  unfold take
  split_ifs with hone
  · exact ⟨sub_nonneg.mpr hone, (sub_le_self _ zero_le_one).trans h.2⟩
  · exact h

theorem take_updatedAt (bucket : Bucket) : (take policy bucket).1.updatedAt = bucket.updatedAt := by
  unfold take
  split_ifs <;> rfl

/-- A token is spent exactly when the request is allowed. -/
theorem take_tokens (bucket : Bucket) : (take policy bucket).1.tokens =
    bucket.tokens - if (take policy bucket).2.allowed = true then 1 else 0 := by
  rcases le_or_gt 1 bucket.tokens with hone | hone
  · simp [take, hone]
  · simp [take, not_le.mpr hone]

theorem run_level {entry : Option Bucket} (h : ∀ bucket ∈ entry, Level policy bucket)
    (times : List ℚ) : ∀ bucket ∈ ((bucketMachine policy).run entry times).1, Level policy bucket := by
  refine Machine.run_rule (P := fun entry => ∀ bucket ∈ entry, Level policy bucket) _ ?_ h times
  intro entry now h bucket hb
  cases hb
  exact take_level (found_level h)

/-- What accrues between two looks is what the rate gives. -/
private theorem refill_tokens {bucket : Bucket} (h : bucket.updatedAt ≤ now) :
    (refill policy bucket now).tokens ≤
      bucket.tokens + policy.requestsPerSecond * (now - bucket.updatedAt) := by
  refine (min_le_right _ _).trans ?_
  rw [max_eq_right (sub_nonneg.mpr h), mul_comm]

theorem allowedWithin_cons (a : ℚ × RateLimitDecision) (answers : List (ℚ × RateLimitDecision)) :
    allowedWithin s t (a :: answers) = allowedWithin s t answers +
      if s ≤ a.1 ∧ a.1 ≤ t ∧ a.2.allowed = true then 1 else 0 := by
  simp [allowedWithin, List.countP_cons]

/-- Nothing is allowed within a window that is over. -/
private theorem allowedWithin_late (entry : Option Bucket) {times : List ℚ}
    (late : ∀ now ∈ times, t < now) :
    allowedWithin s t ((bucketMachine policy).run entry times).2 = 0 := by
  induction times generalizing entry with
  | nil => rfl
  | cons now times ih =>
    have outside : ¬ now ≤ t := not_le.mpr (late now List.mem_cons_self)
    rw [Machine.run_cons, allowedWithin_cons, ih _ fun n hn => late n (List.mem_cons_of_mem _ hn)]
    simp [bucketMachine, outside]

/-- A request answered within the window uses up what it is allowed of the tokens found. -/
private theorem allowedWithin_answered {bucket : Bucket} {times : List ℚ} {bound : ℚ}
    (rest : (allowedWithin s t
        ((bucketMachine policy).run (some (take policy bucket).1) times).2 : ℚ) ≤
      (take policy bucket).1.tokens + bound) :
    (allowedWithin s t ((now, (take policy bucket).2) ::
        ((bucketMachine policy).run (some (take policy bucket).1) times).2) : ℚ) ≤
      bucket.tokens + bound := by
  rw [allowedWithin_cons, Nat.cast_add]
  rw [take_tokens] at rest
  have spent : ((if s ≤ now ∧ now ≤ t ∧ (take policy bucket).2.allowed = true then 1 else 0 : Nat) : ℚ)
      ≤ if (take policy bucket).2.allowed = true then 1 else 0 := by
    by_cases ha : (take policy bucket).2.allowed = true
    · rw [if_pos ha, Nat.cast_le_one]
      split_ifs <;> decide
    · simp [ha]
  linarith

private theorem answered (entry : Option Bucket) (now : ℚ) (times : List ℚ) :
    ((bucketMachine policy).run entry (now :: times)).2 =
      (now, (take policy (found policy now entry)).2) ::
        ((bucketMachine policy).run (some (take policy (found policy now entry)).1) times).2 :=
  rfl

private theorem window_nonneg (h : s ≤ t) : 0 ≤ policy.requestsPerSecond * (t - s) :=
  mul_nonneg policy.rate_pos.le (sub_nonneg.mpr h)

/-- From a look within the window on, no more is allowed than the tokens there are and those that
accrue until its end. -/
private theorem allowedWithin_from {bucket : Bucket} {times : List ℚ}
    (hl : Level policy bucket) (ht : bucket.updatedAt ≤ t)
    (clock : (bucket.updatedAt :: times).Pairwise (· ≤ ·)) :
    (allowedWithin s t ((bucketMachine policy).run (some bucket) times).2 : ℚ) ≤
      bucket.tokens + policy.requestsPerSecond * (t - bucket.updatedAt) := by
  induction times generalizing bucket with
  | nil => exact add_nonneg hl.1 (window_nonneg ht)
  | cons now times ih =>
    obtain ⟨hle, clock⟩ := List.pairwise_cons.mp clock
    rcases lt_or_ge t now with late | inside
    · rw [allowedWithin_late]
      · exact add_nonneg hl.1 (window_nonneg ht)
      · intro n hn
        rcases List.mem_cons.mp hn with rfl | hn
        · exact late
        · exact late.trans_le ((List.pairwise_cons.mp clock).1 n hn)
    · have level : Level policy (found policy now (some bucket)) :=
        found_level fun _ h => Option.some.inj h ▸ hl
      have accrued : (refill policy bucket now).tokens ≤ _ :=
        refill_tokens (hle now List.mem_cons_self)
      have rest := ih (take_level level) (by rwa [take_updatedAt]) (by rwa [take_updatedAt])
      rw [take_updatedAt] at rest
      rw [answered]
      refine (allowedWithin_answered rest).trans ?_
      calc (refill policy bucket now).tokens + policy.requestsPerSecond * (t - now)
          ≤ bucket.tokens + policy.requestsPerSecond * (now - bucket.updatedAt) +
              policy.requestsPerSecond * (t - now) := add_le_add_left accrued _
        _ = bucket.tokens + policy.requestsPerSecond * (t - bucket.updatedAt) := by ring

/-- The window bound for one organization's calls. -/
theorem allowedWithin_le {entry : Option Bucket} {times : List ℚ}
    (hl : ∀ bucket ∈ entry, Level policy bucket) (hst : s ≤ t)
    (clock : times.Pairwise (· ≤ ·)) :
    (allowedWithin s t ((bucketMachine policy).run entry times).2 : ℚ) ≤
      policy.burst + policy.requestsPerSecond * (t - s) := by
  have full : (0 : ℚ) ≤ policy.burst := Nat.cast_nonneg _
  induction times generalizing entry with
  | nil => exact add_nonneg full (window_nonneg hst)
  | cons now times ih =>
    obtain ⟨hle, later⟩ := List.pairwise_cons.mp clock
    have level : Level policy (found policy now entry) := found_level hl
    have updated : (take policy (found policy now entry)).1.updatedAt = now := by
      rw [take_updatedAt]
      cases entry <;> rfl
    rcases lt_or_ge now s with early | hs
    · have outside : ¬ s ≤ now := not_le.mpr early
      rw [answered, allowedWithin_cons, if_neg fun h => outside h.1, Nat.add_zero]
      exact ih (fun _ h => Option.some.inj h ▸ take_level level) later
    · rcases lt_or_ge t now with late | ht
      · rw [allowedWithin_late]
        · exact add_nonneg full (window_nonneg hst)
        · intro n hn
          rcases List.mem_cons.mp hn with rfl | hn
          · exact late
          · exact late.trans_le (hle n hn)
      · have rest : (allowedWithin s t ((bucketMachine policy).run
            (some (take policy (found policy now entry)).1) times).2 : ℚ) ≤ _ :=
          allowedWithin_from (take_level level) (by rwa [updated]) (by rwa [updated])
        rw [updated] at rest
        rw [answered]
        refine (allowedWithin_answered rest).trans (add_le_add level.2 ?_)
        exact mul_le_mul_of_nonneg_left (sub_le_sub_left hs t) policy.rate_pos.le

/-- The limiter meets its specification for every organization, whatever the calls, as long as the
clock does not go back. -/
theorem limiter_meets_spec (policy : RateLimitPolicy) (calls : List (OrgId × ℚ)) (org : OrgId)
    (clock : (calls.map Prod.snd).Pairwise (· ≤ ·)) : LimiterSpec policy calls org where
  bounded s t hst := by
    rw [tokenBucketRateLimiter, ((bucketMachine policy).keyed_run org _ calls).2]
    refine allowedWithin_le (fun _ h => by cases h) hst (clock.sublist ?_)
    exact (List.filter_sublist).map _
  level bucket hb := by
    rw [tokenBucketRateLimiter, ((bucketMachine policy).keyed_run org _ calls).1] at hb
    exact run_level (fun _ h => by cases h) _ bucket hb
  isolated calls' same := by
    rw [tokenBucketRateLimiter, ((bucketMachine policy).keyed_run org _ calls').2, same,
      ((bucketMachine policy).keyed_run org _ calls).2]

/-- Two organizations on buckets of two tokens, a token every two seconds. -/
theorem limiter_meets_spec_two_organizations :
    LimiterSpec ⟨1 / 2, 2, by norm_num, by decide⟩ [(1, 0), (2, 0), (1, 0), (1, 1), (1, 5 / 2)] 1 :=
  limiter_meets_spec _ _ _ (by norm_num)

end LlmGateway.RateLimit
