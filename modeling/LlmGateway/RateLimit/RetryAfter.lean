import LlmGateway.RateLimit.TokenBucket
import Mathlib.Tactic.FieldSimp

/-! A denial's `retry_after_seconds` under an arbitrary number of further denials. What they leave
unchanged is the moment the next token is due. -/
namespace LlmGateway.RateLimit
open Ledger Lib

/-- When the bucket will hold a token, if nothing is taken. -/
def due (policy : RateLimitPolicy) (bucket : Bucket) : ℚ :=
  bucket.updatedAt + (1 - bucket.tokens) / policy.requestsPerSecond

variable {policy : RateLimitPolicy} {bucket : Bucket} {now : ℚ}

/-- The guidance is the time until then in whole seconds, but never zero. -/
private theorem secondsToNextToken_eq (policy : RateLimitPolicy) (bucket : Bucket) :
    secondsToNextToken policy bucket = max 1 ⌈due policy bucket - bucket.updatedAt⌉ := by
  rw [secondsToNextToken, due, add_sub_cancel_left]

private theorem le_updatedAt_add_seconds (policy : RateLimitPolicy) (bucket : Bucket) :
    due policy bucket ≤ bucket.updatedAt + secondsToNextToken policy bucket := by
  have reached : due policy bucket - bucket.updatedAt ≤ secondsToNextToken policy bucket := by
    rw [secondsToNextToken_eq]
    exact (Int.le_ceil _).trans (Int.cast_le.mpr (le_max_right _ _))
  linarith

/-- While a token is still due, obeying the guidance overshoots by less than a second. -/
private theorem updatedAt_add_seconds_lt (h : bucket.updatedAt < due policy bucket) :
    bucket.updatedAt + secondsToNextToken policy bucket < due policy bucket + 1 := by
  have ceiled : (⌈due policy bucket - bucket.updatedAt⌉ : ℚ) < due policy bucket - bucket.updatedAt + 1 :=
    Int.ceil_lt_add_one _
  rw [secondsToNextToken_eq, Int.cast_max, Int.cast_one]
  rcases max_choice (1 : ℚ) ⌈due policy bucket - bucket.updatedAt⌉ with hmax | hmax
  · rw [hmax]
    linarith
  · rw [hmax]
    linarith

private theorem one_le_burst (policy : RateLimitPolicy) : (1 : ℚ) ≤ policy.burst :=
  Nat.one_le_cast.mpr policy.burst_pos

/-- A token is found exactly from the moment it is due. -/
private theorem one_le_refill_iff (h : bucket.updatedAt ≤ now) :
    1 ≤ (refill policy bucket now).tokens ↔ due policy bucket ≤ now := by
  have accrued : max 0 (now - bucket.updatedAt) = now - bucket.updatedAt :=
    max_eq_right (sub_nonneg.mpr h)
  have waited : due policy bucket ≤ now ↔
      1 - bucket.tokens ≤ (now - bucket.updatedAt) * policy.requestsPerSecond := by
    rw [← div_le_iff₀ policy.rate_pos, due]
    constructor <;> intro h <;> linarith
  rw [waited, refill, le_min_iff, accrued]
  constructor
  · rintro ⟨_, h⟩
    linarith
  · intro h
    exact ⟨one_le_burst policy, by linarith⟩

/-- A look that finds no token leaves the next one due when it was. -/
private theorem due_refill (h : bucket.updatedAt ≤ now) (short : (refill policy bucket now).tokens < 1) :
    due policy (refill policy bucket now) = due policy bucket := by
  have accrued : max 0 (now - bucket.updatedAt) = now - bucket.updatedAt :=
    max_eq_right (sub_nonneg.mpr h)
  have uncapped : (refill policy bucket now).tokens =
      bucket.tokens + (now - bucket.updatedAt) * policy.requestsPerSecond := by
    rw [refill, accrued] at short ⊢
    rcases min_lt_iff.mp short with full | rest
    · exact absurd full (not_lt.mpr (one_le_burst policy))
    · exact min_eq_right (rest.le.trans (one_le_burst policy))
  have rate : policy.requestsPerSecond ≠ 0 := policy.rate_pos.ne'
  rw [due, uncapped, due, show (refill policy bucket now).updatedAt = now from rfl]
  field_simp
  ring

/-- A denied acquisition: no token was found, and the bucket is as it was found. -/
private theorem take_denied (h : (take policy bucket).2.allowed = false) :
    bucket.tokens < 1 ∧ (take policy bucket).1 = bucket ∧
      (take policy bucket).2.retryAfterSeconds = some (secondsToNextToken policy bucket) := by
  unfold take at h ⊢
  split_ifs at h ⊢ with hone
  exact ⟨not_le.mp hone, rfl, rfl⟩

private theorem take_allowed_iff (policy : RateLimitPolicy) (bucket : Bucket) :
    (take policy bucket).2.allowed = true ↔ 1 ≤ bucket.tokens := by
  unfold take
  split_ifs with hone <;> simp [hone]

private theorem denied_of_guided {decision : RateLimitDecision} {r : Int}
    (h : decision.retryAfterSeconds = some r) : decision.allowed = false := by
  have guided := decision.guided
  rw [h] at guided
  exact (Bool.not_eq_true' _).mp guided.symm

/-- Any number of further denials leave the next token due when it was. -/
private theorem run_denied {times : List ℚ} (clock : (bucket.updatedAt :: times).Pairwise (· ≤ ·))
    (denied : ∀ a ∈ ((bucketMachine policy).run (some bucket) times).2, a.2.allowed = false) :
    ∃ left, ((bucketMachine policy).run (some bucket) times).1 = some left ∧
      due policy left = due policy bucket ∧ ∀ u, (∀ v ∈ bucket.updatedAt :: times, v ≤ u) →
        left.updatedAt ≤ u := by
  induction times generalizing bucket with
  | nil => exact ⟨bucket, rfl, rfl, fun u h => h _ List.mem_cons_self⟩
  | cons now times ih =>
    obtain ⟨later, clock⟩ := List.pairwise_cons.mp clock
    have hle : bucket.updatedAt ≤ now := later now List.mem_cons_self
    rw [Machine.run_cons] at denied
    have refused : (take policy (refill policy bucket now)).2.allowed = false := denied _ List.mem_cons_self
    obtain ⟨short, kept, _⟩ := take_denied refused
    have after : ((bucketMachine policy).step (some bucket) now).1 =
        some (refill policy bucket now) := congrArg some kept
    rw [after] at denied
    rw [Machine.run_cons, after]
    have clock : ((refill policy bucket now).updatedAt :: times).Pairwise (· ≤ ·) := clock
    obtain ⟨left, hleft, hdue, hbound⟩ := ih clock fun a ha => denied a (List.mem_cons_of_mem _ ha)
    refine ⟨left, hleft, hdue.trans (due_refill hle short), fun u h => hbound u fun v hv => ?_⟩
    exact h v (List.mem_cons_of_mem _ hv)

/-- Whoever obeys a denial is let through, however often it was denied meanwhile, and a denial
meanwhile asks for less than a second more. -/
theorem retry_after_honest (policy : RateLimitPolicy) (before between : List (OrgId × ℚ)) (org : OrgId)
    (t u : ℚ) (r : Int)
    (clock : ((before ++ (org, t) :: between ++ [(org, u)]).map Prod.snd).Pairwise (· ≤ ·)) :
    let limiter := tokenBucketRateLimiter policy
    let denial := limiter.step (limiter.run (fun _ => none) before).1 (org, t)
    let meanwhile := limiter.run denial.1 between
    let answer := (limiter.step meanwhile.1 (org, u)).2.2.2
    denial.2.2.2.retryAfterSeconds = some r →
    (∀ a ∈ Machine.ofKey org meanwhile.2, a.2.allowed = false) →
    (t + r ≤ u → answer.allowed = true) ∧
      ∀ r', answer.retryAfterSeconds = some r' → u + r' < t + r + 1 := by
  intro limiter denial meanwhile answer hr denied
  let bucket := found policy t ((limiter.run (fun _ => none) before).1 org)
  have hbucket : (take policy bucket).2 = denial.2.2.2 := rfl
  obtain ⟨_, kept, guided⟩ := take_denied (denied_of_guided (hbucket ▸ hr))
  have at_t : bucket.updatedAt = t := by
    show (found policy t _).updatedAt = t
    cases (limiter.run (fun _ => none) before).1 org <;> rfl
  obtain rfl : secondsToNextToken policy bucket = r :=
    Option.some.inj (guided.symm.trans (hbucket ▸ hr))
  have own : denial.1 org = some bucket := (Function.update_self ..).trans (congrArg some kept)
  obtain ⟨state, answers⟩ := (bucketMachine policy).keyed_run org denial.1 between
  rw [own] at state answers
  have order : (t :: (between.map Prod.snd ++ [u])).Pairwise (· ≤ ·) := by
    rw [List.map_append, List.map_append, List.map_cons, List.append_assoc] at clock
    exact (List.pairwise_append.mp clock).2.1
  have times : (Machine.ofKey org between).Sublist (between.map Prod.snd) :=
    (List.filter_sublist).map _
  have sorted : (bucket.updatedAt :: Machine.ofKey org between).Pairwise (· ≤ ·) := by
    rw [at_t]
    exact order.sublist ((times.trans (List.sublist_append_left _ _)).cons_cons t)
  obtain ⟨left, hleft, hdue, hbound⟩ := run_denied sorted fun a ha => denied a (answers ▸ ha)
  rw [hleft] at state
  have hle : left.updatedAt ≤ u := by
    refine hbound u fun v hv => ?_
    rw [at_t] at hv
    have last := (List.pairwise_append.mp
      (show ((t :: between.map Prod.snd) ++ [u]).Pairwise (· ≤ ·) from order)).2.2
    rcases List.mem_cons.mp hv with rfl | hv
    · exact last v List.mem_cons_self u (List.mem_singleton.mpr rfl)
    · exact last v (List.mem_cons_of_mem _ (times.subset hv)) u (List.mem_singleton.mpr rfl)
  have hanswer : answer = (take policy (refill policy left u)).2 := by
    show (take policy (found policy u (meanwhile.1 org))).2 = _
    rw [show meanwhile.1 org = some left from state]
    rfl
  have reached := le_updatedAt_add_seconds policy bucket
  rw [at_t, ← hdue] at reached
  constructor
  · intro obeyed
    rw [hanswer, take_allowed_iff, one_le_refill_iff hle]
    exact reached.trans obeyed
  · intro r' hr'
    rw [hanswer] at hr'
    obtain ⟨short, _, hguided⟩ := take_denied (denied_of_guided hr')
    obtain rfl : secondsToNextToken policy (refill policy left u) = r' :=
      Option.some.inj (hguided.symm.trans hr')
    have early : u < due policy left := not_le.mp (mt (one_le_refill_iff hle).mpr (not_le.mpr short))
    have due_later : (refill policy left u).updatedAt < due policy (refill policy left u) := by
      rw [due_refill hle short]
      exact early
    have overshoot := updatedAt_add_seconds_lt due_later
    rw [due_refill hle short] at overshoot
    exact overshoot.trans_le (by linarith)

/-- A token every two seconds: denied at 0 for two seconds, denied again at 1, let through at 2. -/
theorem retry_after_honest_half_rate :
    let policy : RateLimitPolicy := ⟨1 / 2, 1, by norm_num, by decide⟩
    let limiter := tokenBucketRateLimiter policy
    let denial := limiter.step (limiter.run (fun _ => none) [(1, 0)]).1 (1, 0)
    (limiter.step (limiter.run denial.1 [(2, 0), (1, 1)]).1 (1, 2)).2.2.2.allowed = true :=
  (retry_after_honest ⟨1 / 2, 1, by norm_num, by decide⟩ [(1, 0)] [(2, 0), (1, 1)] 1 0 2 2
    (by norm_num) (by decide +kernel) (by decide +kernel)).1 (by norm_num)

end LlmGateway.RateLimit
