import LlmGateway.RateLimit.TokenBucket
import LlmGateway.Ledger.Uuid

/-! `RedisTokenBucketRateLimiter`: the buckets kept in Redis by one script, and expiring there. -/
namespace LlmGateway.RateLimit
open Ledger Lib

/-- The hash under a key, and when its `EXPIRE` lets it go. -/
structure StoredBucket where
  tokens : ℚ
  updatedAt : ℚ
  expiresAt : ℚ
  deriving DecidableEq

abbrev RedisStore := String → Option StoredBucket

/-- `{allowed, remaining, reset_seconds, retry_after_seconds}`. -/
structure ScriptReply where
  allowed : Int
  remaining : Int
  resetSeconds : Int
  retryAfterSeconds : Int
  deriving DecidableEq

/-- `TIME`: the seconds, and the microseconds of the current one. -/
def redisTime (now : ℚ) : ℚ × ℚ := (⌊now⌋, (now - ⌊now⌋) * 1000000)

/-- The first half of `_ACQUIRE_SCRIPT`: the tokens there are now. -/
def scriptRefill (burst rate now : ℚ) (stored : Option StoredBucket) : ℚ :=
  let (tokens, updatedAt) := match stored with
    | none => (burst, now)
    | some s => (s.tokens, s.updatedAt)
  let elapsed := now - updatedAt
  let elapsed := if elapsed < 0 then 0 else elapsed
  min burst (tokens + elapsed * rate)

/-- The second half: what is written and replied. -/
def scriptTake (burst rate now tokens : ℚ) : StoredBucket × ScriptReply :=
  let (allowed, tokens) : Int × ℚ := if 1 ≤ tokens then (1, tokens - 1) else (0, tokens)
  let ttl := ⌈(burst - tokens) / rate⌉
  let ttl := if ttl < 1 then 1 else ttl
  let retryAfter := if allowed = 0 then
      let retryAfter := ⌈(1 - tokens) / rate⌉
      if retryAfter < 1 then 1 else retryAfter
    else 0
  (⟨tokens, now, now + ttl⟩, ⟨allowed, ⌊tokens⌋, ttl, retryAfter⟩)

/-- `_ACQUIRE_SCRIPT` on the hash of its key. -/
def acquireScript (burst rate clock : ℚ) (stored : Option StoredBucket) :
    StoredBucket × ScriptReply :=
  let now := (redisTime clock).1 + (redisTime clock).2 / 1000000
  scriptTake burst rate now (scriptRefill burst rate now stored)

/-- What `acquire` makes of the script's reply. -/
def RateLimitDecision.ofReply (policy : RateLimitPolicy) (reply : ScriptReply) : RateLimitDecision where
  allowed := reply.allowed ≠ 0
  limit := policy.burst
  remaining := reply.remaining
  resetSeconds := reply.resetSeconds
  retryAfterSeconds := if reply.allowed ≠ 0 then none else some (max 1 reply.retryAfterSeconds)
  guided := by split_ifs with h <;> simp [h]

/-- What happens at the store: a call, or a key going away. -/
inductive RedisEvent where
  | acquire (organizationId : OrgId) (now : ℚ)
  | vanish (key : String) (now : ℚ)

namespace RedisEvent

def now : RedisEvent → ℚ
  | .acquire _ now | .vanish _ now => now

def call : RedisEvent → Option (OrgId × ℚ)
  | .acquire org now => some (org, now)
  | .vanish .. => none

/-- A key goes away no earlier than its last `EXPIRE` allows. -/
def Enabled (store : RedisStore) : RedisEvent → Prop
  | .acquire .. => True
  | .vanish key now => ∀ stored ∈ store key, stored.expiresAt ≤ now

end RedisEvent

section
variable (policy : RateLimitPolicy) (keyPrefix : String)

def redisKey (organizationId : OrgId) : String := keyPrefix ++ ":rl:" ++ organizationId.str

/-- `RedisTokenBucketRateLimiter.acquire`, and the store losing keys in between. -/
def redisRateLimiter : Machine RedisStore RedisEvent (Option (OrgId × ℚ × RateLimitDecision)) where
  step store
    | .acquire org now =>
      let key := redisKey keyPrefix org
      let (stored, reply) := acquireScript policy.burst policy.requestsPerSecond now (store key)
      (Function.update store key (some stored), some (org, now, .ofReply policy reply))
    | .vanish key _ => (Function.update store key none, none)

/-- Every key that goes away along the events is let go. -/
def Lawful : RedisStore → List RedisEvent → Prop
  | _, [] => True
  | store, e :: events => e.Enabled store ∧ Lawful ((redisRateLimiter policy keyPrefix).step store e).1 events

end

/-- Organizations have keys of their own. -/
theorem redisKey_injective (keyPrefix : String) : Function.Injective (redisKey keyPrefix) := by
  intro a b h
  have same := congrArg String.toList h
  simp only [redisKey, String.toList_append, List.append_cancel_left_eq] at same
  exact OrgId.str_injective (String.toList_inj.mp same)

section Script
variable {policy : RateLimitPolicy} {clock : ℚ}

private theorem redisTime_eq (clock : ℚ) :
    (redisTime clock).1 + (redisTime clock).2 / 1000000 = clock := by
  simp only [redisTime]
  ring

private theorem at_least_one (n : Int) : (if n < 1 then 1 else n) = max 1 n := by
  split_ifs <;> omega

private theorem elapsed_eq (x : ℚ) : (if x < 0 then 0 else x) = max 0 x := by
  rcases lt_or_ge x 0 with h | h
  · rw [if_pos h, max_eq_left h.le]
  · rw [if_neg (not_lt.mpr h), max_eq_right h]

private theorem scriptRefill_none (now : ℚ) :
    scriptRefill policy.burst policy.requestsPerSecond now none = policy.burst := by
  simp [scriptRefill]

private theorem scriptRefill_some (now : ℚ) (s : StoredBucket) :
    scriptRefill policy.burst policy.requestsPerSecond now (some s) =
      (refill policy ⟨s.tokens, s.updatedAt⟩ now).tokens := by
  rw [scriptRefill, elapsed_eq]
  rfl

/-- After a request the bucket is not full. -/
private theorem secondsToFull_take {bucket : Bucket} (hl : Level policy bucket) :
    secondsToFull policy (take policy bucket).1 =
      max 1 ⌈(policy.burst - (take policy bucket).1.tokens) / policy.requestsPerSecond⌉ := by
  have one : (1 : ℚ) ≤ policy.burst := Nat.one_le_cast.mpr policy.burst_pos
  have deficit : ¬ (policy.burst : ℚ) - (take policy bucket).1.tokens ≤ 0 := by
    rw [take]
    split_ifs with h
    · have := hl.2
      simp only [not_le]
      linarith
    · simp only [not_le] at h ⊢
      linarith
  exact if_neg deficit

/-- The script takes as the bucket in memory does. -/
private theorem scriptTake_eq {bucket : Bucket} (hl : Level policy bucket) :
    (scriptTake policy.burst policy.requestsPerSecond bucket.updatedAt bucket.tokens).1 =
        ⟨(take policy bucket).1.tokens, bucket.updatedAt,
          bucket.updatedAt + secondsToFull policy (take policy bucket).1⟩ ∧
      RateLimitDecision.ofReply policy (scriptTake policy.burst policy.requestsPerSecond bucket.updatedAt bucket.tokens).2 =
        (take policy bucket).2 := by
  have full := secondsToFull_take hl
  rcases le_or_gt 1 bucket.tokens with h | h
  · have left : 0 ≤ bucket.tokens - 1 := sub_nonneg.mpr h
    simp only [take, h, if_true] at full
    simp [scriptTake, take, h, full, RateLimitDecision.ofReply, int, left, at_least_one]
  · have empty : ⌊bucket.tokens⌋ = 0 := Int.floor_eq_zero_iff.mpr ⟨hl.1, h⟩
    simp only [take, not_le.mpr h, if_false] at full
    simp [scriptTake, take, not_le.mpr h, full, RateLimitDecision.ofReply, empty, at_least_one,
      secondsToNextToken]

end Script

/-- The stored bucket is the one in memory, and full by the time it may go; one that is gone was
full by then. -/
inductive Same (policy : RateLimitPolicy) (t : ℚ) : Option StoredBucket → Option Bucket → Prop where
  | unseen : Same policy t none none
  | kept {bucket : Bucket} {expiresAt : ℚ} (hl : Level policy bucket)
      (full : policy.burst ≤
        bucket.tokens + (expiresAt - bucket.updatedAt) * policy.requestsPerSecond) :
      Same policy t (some ⟨bucket.tokens, bucket.updatedAt, expiresAt⟩) (some bucket)
  | gone {bucket : Bucket} (hl : Level policy bucket)
      (full : policy.burst ≤ bucket.tokens + (t - bucket.updatedAt) * policy.requestsPerSecond) :
      Same policy t none (some bucket)

namespace Same
variable {policy : RateLimitPolicy} {t now : ℚ} {stored : Option StoredBucket}
  {entry : Option Bucket}

/-- What accrues by a time accrues by a later one. -/
private theorem accrued {tokens u : ℚ} (h : t ≤ now)
    (full : policy.burst ≤ tokens + (t - u) * policy.requestsPerSecond) :
    (policy.burst : ℚ) ≤ tokens + (now - u) * policy.requestsPerSecond := by
  refine full.trans (add_le_add_right ?_ _)
  exact mul_le_mul_of_nonneg_right (sub_le_sub_right h u) policy.rate_pos.le

theorem level (h : Same policy t stored entry) : ∀ bucket ∈ entry, Level policy bucket := by
  cases h with
  | unseen => intro _ h; cases h
  | kept hl => rintro _ ⟨⟩; exact hl
  | gone hl => rintro _ ⟨⟩; exact hl

theorem mono (h : Same policy t stored entry) (ht : t ≤ now) : Same policy now stored entry := by
  cases h with
  | unseen => exact .unseen
  | kept hl full => exact .kept hl full
  | gone hl full => exact .gone hl (accrued ht full)

/-- A key that is let go leaves a bucket that is full. -/
theorem vanish (h : Same policy t stored entry) (due : ∀ s ∈ stored, s.expiresAt ≤ now)
    (ht : t ≤ now) : Same policy now none entry := by
  cases h with
  | unseen => exact .unseen
  | kept hl full => exact .gone hl (accrued (due _ rfl) full)
  | gone hl full => exact .gone hl (accrued ht full)

/-- Both find the same tokens, also once the key is gone. -/
theorem refilled (h : Same policy t stored entry) (ht : t ≤ now) :
    scriptRefill policy.burst policy.requestsPerSecond now stored =
      (found policy now entry).tokens := by
  cases h with
  | unseen => exact scriptRefill_none now
  | kept => exact scriptRefill_some now _
  | @gone bucket hl full =>
    have overflows : (policy.burst : ℚ) ≤
        bucket.tokens + max 0 (now - bucket.updatedAt) * policy.requestsPerSecond := by
      refine (accrued ht full).trans (add_le_add_right ?_ _)
      exact mul_le_mul_of_nonneg_right (le_max_right _ _) policy.rate_pos.le
    rw [scriptRefill_none]
    exact (min_eq_left overflows).symm

theorem found_updatedAt : (found policy now entry).updatedAt = now := by
  cases entry <;> rfl

/-- A bucket is full again when its key may go. -/
private theorem full_at_expiry {bucket : Bucket} (hl : Level policy bucket) :
    (policy.burst : ℚ) ≤ (take policy bucket).1.tokens +
      (bucket.updatedAt + secondsToFull policy (take policy bucket).1 -
        (take policy bucket).1.updatedAt) * policy.requestsPerSecond := by
  have ceil : (policy.burst - (take policy bucket).1.tokens) / policy.requestsPerSecond ≤
      secondsToFull policy (take policy bucket).1 := by
    rw [secondsToFull_take hl]
    exact (Int.le_ceil _).trans (Int.cast_le.mpr (le_max_right _ _))
  rw [div_le_iff₀ policy.rate_pos] at ceil
  rw [take_updatedAt, add_sub_cancel_left]
  linarith

/-- A call keeps the two alike and is answered alike. -/
theorem acquire (h : Same policy t stored entry) (ht : t ≤ now) :
    Same policy now
        (some (acquireScript policy.burst policy.requestsPerSecond now stored).1)
        (some (take policy (found policy now entry)).1) ∧
      RateLimitDecision.ofReply policy
          (acquireScript policy.burst policy.requestsPerSecond now stored).2 =
        (take policy (found policy now entry)).2 := by
  have hl : Level policy (found policy now entry) := found_level h.level
  obtain ⟨written, replied⟩ := scriptTake_eq hl
  rw [found_updatedAt] at written replied
  rw [acquireScript, redisTime_eq, h.refilled ht, written, replied]
  have kept := Same.kept (t := now) (take_level hl) (full_at_expiry hl)
  rw [take_updatedAt, found_updatedAt] at kept
  exact ⟨kept, rfl⟩

end Same

section
variable {policy : RateLimitPolicy} {keyPrefix : String} {t : ℚ} {store : RedisStore}
  {entries : OrgId → Option Bucket}

/-- The store and the dictionary agree on every organization. -/
def Agrees (policy : RateLimitPolicy) (keyPrefix : String) (t : ℚ) (store : RedisStore)
    (entries : OrgId → Option Bucket) : Prop :=
  ∀ org, Same policy t (store (redisKey keyPrefix org)) (entries org)

theorem Agrees.acquire (h : Agrees policy keyPrefix t store entries) {org : OrgId} {now : ℚ}
    (ht : t ≤ now) :
    Agrees policy keyPrefix now
        ((redisRateLimiter policy keyPrefix).step store (.acquire org now)).1
        ((tokenBucketRateLimiter policy).step entries (org, now)).1 ∧
      ((redisRateLimiter policy keyPrefix).step store (.acquire org now)).2 =
        some ((tokenBucketRateLimiter policy).step entries (org, now)).2 := by
  obtain ⟨same, answer⟩ := (h org).acquire ht
  constructor
  · intro other
    by_cases ho : other = org
    · subst ho
      simpa only [redisRateLimiter, tokenBucketRateLimiter, Machine.keyed, bucketMachine,
        Function.update_self] using same
    · have hk : redisKey keyPrefix other ≠ redisKey keyPrefix org :=
        fun hk => ho (redisKey_injective keyPrefix hk)
      simpa only [redisRateLimiter, tokenBucketRateLimiter, Machine.keyed, bucketMachine,
        Function.update_of_ne hk, Function.update_of_ne ho] using (h other).mono ht
  · simp only [redisRateLimiter, tokenBucketRateLimiter, Machine.keyed, bucketMachine, answer]

theorem Agrees.vanish (h : Agrees policy keyPrefix t store entries) {key : String} {now : ℚ}
    (due : (RedisEvent.vanish key now).Enabled store) (ht : t ≤ now) :
    Agrees policy keyPrefix now
      ((redisRateLimiter policy keyPrefix).step store (.vanish key now)).1 entries := by
  intro org
  by_cases hk : redisKey keyPrefix org = key
  · subst hk
    simpa only [redisRateLimiter, Function.update_self] using (h org).vanish due ht
  · simpa only [redisRateLimiter, Function.update_of_ne hk] using (h org).mono ht

/-- From a store and a dictionary that agree, every call is answered alike. -/
private theorem Agrees.answers {events : List RedisEvent}
    (h : Agrees policy keyPrefix t store entries) (lawful : Lawful policy keyPrefix store events)
    (clock : (t :: events.map RedisEvent.now).Pairwise (· ≤ ·)) :
    ((redisRateLimiter policy keyPrefix).run store events).2.filterMap id =
      ((tokenBucketRateLimiter policy).run entries (events.filterMap RedisEvent.call)).2 := by
  induction events generalizing t store entries with
  | nil => rfl
  | cons e events ih =>
    obtain ⟨due, lawful⟩ := lawful
    obtain ⟨hle, clock⟩ := List.pairwise_cons.mp clock
    cases e with
    | acquire org now =>
      have ht : t ≤ now := hle now List.mem_cons_self
      obtain ⟨next, answer⟩ : Agrees policy keyPrefix now _ _ ∧ _ = some _ := h.acquire ht
      rw [Machine.run_cons, answer]
      exact congrArg (List.cons _) (ih next lawful clock)
    | vanish key now =>
      have ht : t ≤ now := hle now List.mem_cons_self
      rw [Machine.run_cons]
      exact ih (h.vanish due ht) lawful clock

end

/-- Whatever the calls and whichever keys expire between them, the script and the bucket in memory
decide alike. -/
theorem redis_decides_as_in_memory (policy : RateLimitPolicy) (keyPrefix : String)
    (events : List RedisEvent) (clock : (events.map RedisEvent.now).Pairwise (· ≤ ·))
    (lawful : Lawful policy keyPrefix (fun _ => none) events) :
    ((redisRateLimiter policy keyPrefix).run (fun _ => none) events).2.filterMap id =
      ((tokenBucketRateLimiter policy).run (fun _ => none) (events.filterMap RedisEvent.call)).2 := by
  cases events with
  | nil => rfl
  | cons e events =>
    refine Agrees.answers (t := e.now) (fun _ => .unseen) lawful ?_
    refine List.pairwise_cons.mpr ⟨fun n hn => ?_, clock⟩
    rcases List.mem_cons.mp hn with rfl | hn
    · exact le_rfl
    · exact (List.pairwise_cons.mp clock).1 n hn

/-- One token, one a second. -/
def single : RateLimitPolicy := ⟨1, 1, one_pos, le_rfl⟩

/-- A bucket of one token is emptied, its key goes when it may, and the organization returns. -/
theorem redis_decides_as_in_memory_after_expiry :
    ((redisRateLimiter single "gateway").run (fun _ => none)
        [.acquire 1 0, .vanish (redisKey "gateway" 1) 1, .acquire 1 1]).2.filterMap id =
      ((tokenBucketRateLimiter single).run (fun _ => none) [(1, 0), (1, 1)]).2 := by
  refine redis_decides_as_in_memory single "gateway"
    [.acquire 1 0, .vanish (redisKey "gateway" 1) 1, .acquire 1 1] (by norm_num [RedisEvent.now])
    ⟨trivial, ?_, trivial, trivial⟩
  intro stored hs
  simp only [redisRateLimiter, Function.update_self, Option.mem_def, Option.some.injEq] at hs
  subst hs
  norm_num [acquireScript, redisTime, scriptRefill, scriptTake, single]

end LlmGateway.RateLimit
