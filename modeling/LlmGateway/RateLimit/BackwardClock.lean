import LlmGateway.RateLimit.Redis
import Mathlib.Tactic.FieldSimp

/-! Buckets under a clock that may go back. The look moves `updatedAt` back with the clock, so what
accrued before accrues again. -/
namespace LlmGateway.RateLimit
open Ledger Lib

/-- How many of the answers allow. -/
def allowedCount (answers : List (OrgId × ℚ × RateLimitDecision)) : Nat :=
  answers.countP fun a => a.2.2.allowed

/-- The latest reading, from one on. -/
def latest (first : ℚ) : List ℚ → ℚ
  | [] => first
  | now :: times => max first (latest now times)

/-- What the clock went forward, over all its forward steps. -/
def climbed (last : ℚ) : List ℚ → ℚ
  | [] => 0
  | now :: times => max 0 (now - last) + climbed now times

/-- Once it has gone back, the clock does not go forward again. -/
def NeverForwardAgain : List ℚ → Prop
  | last :: now :: times => (now < last → (now :: times).Pairwise (· ≥ ·)) ∧ NeverForwardAgain (now :: times)
  | _ => True

namespace RedisEvent

/-- A key goes when the clock reads no more than at what happens next: between two calls the clock is not
ahead of the second. -/
def Steady : List RedisEvent → Prop
  | .vanish _ now :: e :: events => now ≤ e.now ∧ Steady (e :: events)
  | _ :: events => Steady events
  | [] => True

end RedisEvent

section
variable (policy : RateLimitPolicy) (first : ℚ) (rest : List ℚ)

/-- No more is allowed than the burst and what accrues until the latest reading. -/
def NothingMinted (answers : List (OrgId × ℚ × RateLimitDecision)) : Prop :=
  (allowedCount answers : ℚ) ≤ policy.burst + policy.requestsPerSecond * (latest first rest - first)

/-- One organization calling at the readings, in one process. -/
def NothingMintedInProcess : Prop :=
  ∀ org, NothingMinted policy first rest
    ((tokenBucketRateLimiter policy).run (fun _ => none) ((first :: rest).map (org, ·))).2

/-- One organization calling at the readings, at Redis, with keys expiring in between where `steady` allows. -/
def NothingMintedByScript (steady : List RedisEvent → Prop) : Prop :=
  ∀ keyPrefix org events, Lawful policy keyPrefix (fun _ => none) events →
    steady events → events.filterMap RedisEvent.call = (first :: rest).map (org, ·) →
    NothingMinted policy first rest
      (((redisRateLimiter policy keyPrefix).run (fun _ => none) events).2.filterMap id)

end

section Clock
variable {first last : ℚ} {times : List ℚ}

theorem first_le_latest (first : ℚ) (times : List ℚ) : first ≤ latest first times := by
  cases times with
  | nil => exact le_rfl
  | cons now times => exact le_max_left _ _

theorem climbed_nonneg (last : ℚ) (times : List ℚ) : 0 ≤ climbed last times := by
  induction times generalizing last with
  | nil => exact le_rfl
  | cons now times ih => exact add_nonneg (le_max_left _ _) (ih now)

/-- The clock only goes back if it never goes forward. -/
private theorem falls_of_climbed_zero (h : climbed last times = 0) :
    (last :: times).Pairwise (· ≥ ·) := by
  rw [← List.isChain_iff_pairwise]
  induction times generalizing last with
  | nil => exact .singleton _
  | cons now times ih =>
    have later := climbed_nonneg now times
    have here := le_max_left 0 (now - last)
    have back := le_max_right 0 (now - last)
    rw [climbed] at h
    refine .cons_cons ?_ (ih (by linarith))
    change now ≤ last
    linarith

private theorem climbed_zero_of_falls (h : (last :: times).Pairwise (· ≥ ·)) :
    climbed last times = 0 ∧ latest last times = last := by
  induction times generalizing last with
  | nil => exact ⟨rfl, rfl⟩
  | cons now times ih =>
    obtain ⟨below, falls⟩ := List.pairwise_cons.mp h
    have back : now ≤ last := below now List.mem_cons_self
    obtain ⟨flat, top⟩ := ih falls
    rw [climbed, latest, flat, top, max_eq_left (sub_nonpos.mpr back), max_eq_left back]
    exact ⟨add_zero 0, rfl⟩

private theorem neverForwardAgain_of_falls (h : times.Pairwise (· ≥ ·)) : NeverForwardAgain times := by
  induction times with
  | nil => trivial
  | cons last times ih =>
    obtain ⟨-, falls⟩ := List.pairwise_cons.mp h
    cases times with
    | nil => trivial
    | cons now times => exact ⟨fun _ => falls, ih falls⟩

/-- The clock has gone forward at least as far as it got. -/
private theorem latest_le_climbed (first : ℚ) (times : List ℚ) :
    latest first times - first ≤ climbed first times := by
  induction times generalizing first with
  | nil => exact (sub_self _).le
  | cons now times ih =>
    have later := climbed_nonneg now times
    have here := le_max_left 0 (now - first)
    have forward := le_max_right 0 (now - first)
    have rest := ih now
    rw [climbed, latest]
    rcases max_cases first (latest now times) with ⟨top, -⟩ | ⟨top, -⟩ <;> rw [top] <;> linarith

/-- It has gone forward exactly as far as it got when it never goes forward after going back. -/
theorem climbed_eq_iff (first : ℚ) (times : List ℚ) :
    climbed first times = latest first times - first ↔ NeverForwardAgain (first :: times) := by
  induction times generalizing first with
  | nil => simp [climbed, latest, NeverForwardAgain]
  | cons now times ih =>
    have least := latest_le_climbed now times
    have above := first_le_latest now times
    rw [climbed, latest, NeverForwardAgain]
    rcases lt_or_ge now first with back | forward
    · rw [max_eq_left (sub_nonpos.mpr back.le), zero_add]
      constructor
      · intro h
        -- having gone back, the clock cannot have passed the first reading again
        have under : latest now times ≤ first := by
          by_contra passed
          rw [max_eq_right (not_le.mp passed).le] at h
          linarith
        rw [max_eq_left under, sub_self] at h
        have falls := falls_of_climbed_zero h
        exact ⟨fun _ => falls, neverForwardAgain_of_falls falls⟩
      · rintro ⟨falls, -⟩
        obtain ⟨flat, top⟩ := climbed_zero_of_falls (falls back)
        rw [flat, top, max_eq_left back.le, sub_self]
    · rw [max_eq_right (sub_nonneg.mpr forward), max_eq_right (forward.trans above), ← ih now]
      constructor
      · intro h
        exact ⟨fun back => absurd forward (not_le.mpr back), by linarith⟩
      · rintro ⟨-, h⟩
        linarith

end Clock

section Bucket
variable {policy : RateLimitPolicy}

private theorem refill_tokens_any (bucket : Bucket) (now : ℚ) :
    (refill policy bucket now).tokens ≤
      bucket.tokens + policy.requestsPerSecond * max 0 (now - bucket.updatedAt) := by
  rw [mul_comm]
  exact min_le_right _ _

/-- How many calls at the readings a bucket allows. -/
private def allows (policy : RateLimitPolicy) (entry : Option Bucket) (times : List ℚ) : Nat :=
  ((bucketMachine policy).run entry times).2.countP fun a => a.2.allowed

private theorem allows_cons (entry : Option Bucket) (now : ℚ) (times : List ℚ) :
    allows policy entry (now :: times) = allows policy (some (take policy (found policy now entry)).1) times +
      if (take policy (found policy now entry)).2.allowed = true then 1 else 0 :=
  List.countP_cons

private theorem allows_cons_of_one {entry : Option Bucket} {now : ℚ}
    (one : 1 ≤ (found policy now entry).tokens) (times : List ℚ) :
    allows policy entry (now :: times) =
      allows policy (some ⟨(found policy now entry).tokens - 1, now⟩) times + 1 := by
  have allowed : (take policy (found policy now entry)).2.allowed = true := by
    rw [take, if_pos one]
  have taken : (take policy (found policy now entry)).1 = ⟨(found policy now entry).tokens - 1, now⟩ := by
    rw [take, if_pos one, Same.found_updatedAt]
  rw [allows_cons, taken, if_pos allowed]

/-- From a bucket on, no more is allowed than its tokens and what the clock climbs. -/
private theorem allows_le_climbed {bucket : Bucket} (hl : Level policy bucket) (times : List ℚ) :
    (allows policy (some bucket) times : ℚ) ≤
      bucket.tokens + policy.requestsPerSecond * climbed bucket.updatedAt times := by
  induction times generalizing bucket with
  | nil =>
    rw [climbed, mul_zero, add_zero]
    exact hl.1
  | cons now times ih =>
    have level : Level policy (found policy now (some bucket)) :=
      found_level fun _ h => Option.some.inj h ▸ hl
    have rest := ih (take_level level)
    have accrued : (found policy now (some bucket)).tokens ≤ _ := refill_tokens_any bucket now
    rw [take_updatedAt, Same.found_updatedAt, take_tokens] at rest
    rw [allows_cons, climbed, mul_add]
    push_cast
    linarith

private theorem allows_le_burst_climbed (policy : RateLimitPolicy) (first : ℚ) (rest : List ℚ) :
    (allows policy none (first :: rest) : ℚ) ≤
      policy.burst + policy.requestsPerSecond * climbed first rest := by
  have full : Level policy ⟨policy.burst, first⟩ := ⟨Nat.cast_nonneg _, le_rfl⟩
  -- a new organization's bucket is what a full one is refilled to at the same reading
  have fresh : found policy first none = found policy first (some ⟨policy.burst, first⟩) := by
    simp [found, refill]
  have whole := allows_le_climbed full (first :: rest)
  rw [climbed, sub_self, max_self, zero_add, allows_cons, ← fresh, ← allows_cons] at whole
  exact whole

/-- With tokens for every call but one, and one more accruing, every call is allowed. -/
private theorem allows_all {bucket : Bucket} {times : List ℚ}
    (enough : times.length ≤ bucket.tokens + policy.requestsPerSecond * climbed bucket.updatedAt times)
    (room : bucket.tokens + policy.requestsPerSecond * climbed bucket.updatedAt times ≤ policy.burst)
    (whole : times.length ≤ bucket.tokens + 1) :
    allows policy (some bucket) times = times.length := by
  induction times generalizing bucket with
  | nil => rfl
  | cons now times ih =>
    have later : 0 ≤ policy.requestsPerSecond * climbed now times :=
      mul_nonneg policy.rate_pos.le (climbed_nonneg now times)
    have here : 0 ≤ policy.requestsPerSecond * max 0 (now - bucket.updatedAt) :=
      mul_nonneg policy.rate_pos.le (le_max_left _ _)
    rw [climbed, mul_add] at enough room
    rw [List.length_cons, Nat.cast_add_one] at enough whole
    have refilled : (found policy now (some bucket)).tokens =
        bucket.tokens + policy.requestsPerSecond * max 0 (now - bucket.updatedAt) := by
      rw [mul_comm]
      exact min_eq_right (by rw [mul_comm]; linarith)
    have one : 1 ≤ (found policy now (some bucket)).tokens := by
      rw [refilled]
      cases times with
      | nil =>
        rw [climbed, mul_zero, add_zero, List.length_nil, Nat.cast_zero, zero_add] at enough
        exact enough
      | cons u us =>
        rw [List.length_cons, Nat.cast_add_one] at whole
        have counted : (0 : ℚ) ≤ us.length := Nat.cast_nonneg _
        linarith
    rw [allows_cons_of_one one, List.length_cons, ih]
    · simp only
      linarith
    · simp only
      linarith
    · simp only
      linarith

/-- A clock that climbed more than it got has some policy mint a token. -/
private theorem minted_of_climbed_more {first : ℚ} {rest : List ℚ}
    (more : latest first rest - first < climbed first rest) :
    ∃ policy : RateLimitPolicy, policy.burst + policy.requestsPerSecond * (latest first rest - first) <
      allows policy none (first :: rest) := by
  have climbs : 0 < climbed first rest :=
    (sub_nonneg.mpr (first_le_latest first rest)).trans_lt more
  have called : 1 ≤ rest.length := by
    cases rest with
    | nil => exact absurd climbs (lt_irrefl _)
    | cons _ _ => exact Nat.le_add_left 1 _
  -- a bucket for every call but the last, and the one token that accrues over all the climbing
  let policy : RateLimitPolicy := ⟨1 / climbed first rest, rest.length, one_div_pos.mpr climbs, called⟩
  have accrues : policy.requestsPerSecond * climbed first rest = 1 := one_div_mul_cancel climbs.ne'
  have one : 1 ≤ (found policy first none).tokens := Nat.one_le_cast.mpr called
  have all : allows policy (some ⟨(rest.length : ℚ) - 1, first⟩) rest = rest.length := by
    apply allows_all
    · simp only [accrues, sub_add_cancel, le_refl]
    · simp only [accrues, sub_add_cancel]
      exact le_refl _
    · simp only [sub_add_cancel, le_refl]
  have short : policy.requestsPerSecond * (latest first rest - first) < 1 :=
    (mul_lt_mul_of_pos_left more policy.rate_pos).trans_eq accrues
  refine ⟨policy, ?_⟩
  rw [allows_cons_of_one one]
  change (rest.length : ℚ) + _ < (allows policy (some ⟨(rest.length : ℚ) - 1, first⟩) rest + 1 : Nat)
  rw [all]
  push_cast
  linarith

end Bucket

section Store
variable {policy : RateLimitPolicy} {keyPrefix : String} {org : OrgId}

/-- A stored bucket is the one in memory whatever the clock reads next. -/
private theorem Same.whenever {t u : ℚ} {s : StoredBucket} {entry : Option Bucket}
    (h : Same policy t (some s) entry) : Same policy u (some s) entry := by
  cases h with
  | kept hl full => exact .kept hl full

/-- The reading the next event has, whatever it is when there is none. -/
private def nextNow (events : List RedisEvent) : ℚ := (events.head?.map RedisEvent.now).getD 0

/-- The script decides one organization's calls as the bucket in memory does, on any clock. -/
private theorem script_answers {events : List RedisEvent} {store : RedisStore}
    (entries : OrgId → Option Bucket) {times : List ℚ}
    (same : Same policy (nextNow events) (store (redisKey keyPrefix org)) (entries org))
    (lawful : Lawful policy keyPrefix store events) (steady : RedisEvent.Steady events)
    (calls : events.filterMap RedisEvent.call = times.map (org, ·)) :
    ((redisRateLimiter policy keyPrefix).run store events).2.filterMap id =
      ((tokenBucketRateLimiter policy).run entries (times.map (org, ·))).2 := by
  induction events generalizing store entries times with
  | nil =>
    rw [← calls]
    rfl
  | cons e events ih =>
    obtain ⟨due, lawful⟩ := lawful
    cases e with
    | acquire org' now =>
      cases times with
      | nil => cases calls
      | cons t times =>
        obtain ⟨head, later⟩ := List.cons.inj calls
        obtain ⟨rfl, rfl⟩ := Prod.mk.inj head
        change Same policy now (store (redisKey keyPrefix org')) (entries org') at same
        obtain ⟨next, answer⟩ := same.acquire le_rfl
        have kept : Same policy (nextNow events)
            (((redisRateLimiter policy keyPrefix).step store (.acquire org' now)).1 (redisKey keyPrefix org'))
            (((tokenBucketRateLimiter policy).step entries (org', now)).1 org') := by
          simpa only [redisRateLimiter, tokenBucketRateLimiter, Machine.keyed, bucketMachine,
            Function.update_self] using next.whenever
        have rest := ih _ kept lawful steady later
        rw [List.map_cons, Machine.run_cons, Machine.run_cons, ← rest]
        refine congrArg (· :: _) ?_
        exact congrArg (fun decision => (org', now, decision)) answer
    | vanish key now =>
      cases events with
      | nil =>
        rw [← calls]
        rfl
      | cons e events =>
        obtain ⟨read, steady⟩ := steady
        change Same policy now (store (redisKey keyPrefix org)) (entries org) at same
        have rest : Same policy e.now
            (((redisRateLimiter policy keyPrefix).step store (.vanish key now)).1 (redisKey keyPrefix org))
            (entries org) := by
          by_cases hk : redisKey keyPrefix org = key
          · subst hk
            simpa only [redisRateLimiter, Function.update_self] using (same.vanish due le_rfl).mono read
          · simpa only [redisRateLimiter, Function.update_of_ne hk] using same.mono read
        exact ih entries rest lawful steady calls

private theorem allowedCount_map (org : OrgId) (answers : List (ℚ × RateLimitDecision)) :
    allowedCount (answers.map (org, ·)) = answers.countP fun a => a.2.allowed := by
  rw [allowedCount, List.countP_map]
  rfl

private theorem lawful_calls (store : RedisStore) (times : List ℚ) :
    Lawful policy keyPrefix store (times.map (RedisEvent.acquire org)) := by
  induction times generalizing store with
  | nil => trivial
  | cons now times ih => exact ⟨trivial, ih _⟩

private theorem steady_calls (times : List ℚ) :
    RedisEvent.Steady (times.map (RedisEvent.acquire org)) := by
  induction times with
  | nil => trivial
  | cons now times ih => exact ih

private theorem calls_eq (org : OrgId) (times : List ℚ) :
    (times.map (RedisEvent.acquire org)).filterMap RedisEvent.call = times.map (org, ·) := by
  rw [List.filterMap_map, ← List.filterMap_eq_map]
  rfl

private theorem nothingMinted_inProcess_iff {first : ℚ} {rest : List ℚ} :
    NothingMintedInProcess policy first rest ↔ (allows policy none (first :: rest) : ℚ) ≤
      policy.burst + policy.requestsPerSecond * (latest first rest - first) := by
  have counted : ∀ org, allowedCount ((tokenBucketRateLimiter policy).run (fun _ => none)
      ((first :: rest).map (org, ·))).2 = allows policy none (first :: rest) := by
    intro org
    rw [tokenBucketRateLimiter, Machine.keyed_run_single, allowedCount_map]
    rfl
  constructor
  · intro h
    have one := h 0
    rwa [NothingMinted, counted] at one
  · intro h org
    rwa [NothingMinted, counted]

private theorem nothingMinted_script_iff {first : ℚ} {rest : List ℚ} :
    NothingMintedByScript policy first rest RedisEvent.Steady ↔ NothingMintedInProcess policy first rest := by
  constructor
  · intro h org
    have one := h "" org ((first :: rest).map (RedisEvent.acquire org)) (lawful_calls _ _)
      (steady_calls _) (calls_eq org _)
    rwa [script_answers (fun _ => none) .unseen (lawful_calls _ _) (steady_calls _)
      (calls_eq org _)] at one
  · intro h keyPrefix org events lawful steady calls
    rw [script_answers (fun _ => none) .unseen lawful steady calls]
    exact h org

variable (policy keyPrefix) in
/-- No more is allowed than was called. -/
private theorem allowedCount_le (store : RedisStore) (events : List RedisEvent) :
    allowedCount (((redisRateLimiter policy keyPrefix).run store events).2.filterMap id) ≤
      (events.filterMap RedisEvent.call).length := by
  have answered : (((redisRateLimiter policy keyPrefix).run store events).2.filterMap id).length =
      (events.filterMap RedisEvent.call).length := by
    induction events generalizing store with
    | nil => rfl
    | cons e events ih =>
      cases e with
      | vanish key now => exact ih ((redisRateLimiter policy keyPrefix).step store (.vanish key now)).1
      | acquire org now =>
        exact congrArg (· + 1) (ih ((redisRateLimiter policy keyPrefix).step store (.acquire org now)).1)
  exact answered ▸ List.countP_le_length

variable (policy keyPrefix) in
/-- A missing key allows the call. -/
private theorem acquire_missing (org : OrgId) (store : RedisStore) (now : ℚ)
    (missing : store (redisKey keyPrefix org) = none) :
    ∃ stored decision, (redisRateLimiter policy keyPrefix).step store (.acquire org now) =
      (Function.update store (redisKey keyPrefix org) (some stored), some (org, now, decision)) ∧
        decision.allowed = true := by
  obtain ⟨-, answer⟩ := (Same.unseen : Same policy now none none).acquire le_rfl
  refine ⟨(acquireScript policy.burst policy.requestsPerSecond now none).1,
    .ofReply policy (acquireScript policy.burst policy.requestsPerSecond now none).2,
    by simp only [redisRateLimiter, missing], ?_⟩
  rw [answer, take, found, if_pos (Nat.one_le_cast.mpr policy.burst_pos)]

/-- Where the clock may run ahead and back between two calls, the second finds its key gone. -/
private theorem two_allowed (policy : RateLimitPolicy) (first second : ℚ) (times : List ℚ) :
    ∃ events, Lawful policy "" (fun _ => none) events ∧
      events.filterMap RedisEvent.call = (first :: second :: times).map ((0 : OrgId), ·) ∧
      2 ≤ allowedCount (((redisRateLimiter policy "").run (fun _ => none) events).2.filterMap id) := by
  let key := redisKey "" 0
  obtain ⟨stored, decision, called, allowed⟩ :=
    acquire_missing policy "" 0 (fun _ => none) first rfl
  have vanished (store : RedisStore) : (redisRateLimiter policy "").step store (.vanish key stored.expiresAt) =
      (Function.update store key none, none) := rfl
  obtain ⟨stored', decision', called', allowed'⟩ := acquire_missing policy "" 0
    (Function.update (Function.update (fun _ => none) key (some stored)) key none) second (Function.update_self ..)
  refine ⟨.acquire 0 first :: .vanish key stored.expiresAt :: .acquire 0 second ::
    times.map (RedisEvent.acquire 0), ⟨trivial, ?_, trivial, lawful_calls _ times⟩, ?_, ?_⟩
  · rw [called]
    intro found there
    obtain rfl : stored = found := by simpa [key] using there
    exact le_rfl
  · simp only [List.map_cons, ← calls_eq 0 times]
    rfl
  · rw [Machine.run_cons, called, Machine.run_cons, vanished, Machine.run_cons, called']
    simp [allowedCount, allowed, allowed']

/-- With a clock that runs ahead of the second call and back, a policy of one token allows two. -/
private theorem minted_of_ahead (first second : ℚ) (times : List ℚ) :
    ∃ policy, ¬ NothingMintedByScript policy first (second :: times) fun _ => True := by
  let span := latest first (second :: times) - first + 1
  have wide : 0 < span := by
    have := first_le_latest first (second :: times)
    linarith
  let policy : RateLimitPolicy := ⟨1 / span, 1, one_div_pos.mpr wide, le_rfl⟩
  refine ⟨policy, fun bound => ?_⟩
  obtain ⟨events, lawful, calls, two⟩ := two_allowed policy first second times
  have least := bound "" 0 events lawful trivial calls
  have short : policy.requestsPerSecond * (latest first (second :: times) - first) < 1 := by
    change 1 / span * (latest first (second :: times) - first) < 1
    rw [one_div_mul_eq_div, div_lt_one wide]
    exact lt_add_one _
  have two' : (2 : ℚ) ≤ _ := Nat.cast_le.mpr two
  rw [NothingMinted] at least
  have one : (policy.burst : ℚ) = 1 := Nat.cast_one
  linarith

end Store

/-- Over given readings no policy has a token minted, in one process or at Redis, exactly when the
clock never goes forward again after it went back; at Redis it may not run ahead of a call either:
where it may between the calls, one call is all that is safe. -/
theorem nothing_minted_iff (first : ℚ) (rest : List ℚ) :
    ((∀ policy, NothingMintedInProcess policy first rest) ↔ NeverForwardAgain (first :: rest)) ∧
      ((∀ policy, NothingMintedByScript policy first rest RedisEvent.Steady) ↔ NeverForwardAgain (first :: rest)) ∧
      ((∀ policy, NothingMintedByScript policy first rest fun _ => True) ↔ rest = []) := by
  have inProcess : (∀ policy, NothingMintedInProcess policy first rest) ↔
      NeverForwardAgain (first :: rest) := by
    rw [← climbed_eq_iff]
    constructor
    · intro h
      refine le_antisymm (not_lt.mp fun more => ?_) (latest_le_climbed first rest)
      obtain ⟨policy, minted⟩ := minted_of_climbed_more more
      exact absurd (nothingMinted_inProcess_iff.mp (h policy)) (not_le.mpr minted)
    · intro h policy
      rw [nothingMinted_inProcess_iff, ← h]
      exact allows_le_burst_climbed policy first rest
  refine ⟨inProcess, ?_, ?_⟩
  · rw [← inProcess]
    exact forall_congr' fun policy => nothingMinted_script_iff
  · constructor
    · intro h
      cases rest with
      | nil => rfl
      | cons second times =>
        obtain ⟨policy, minted⟩ := minted_of_ahead first second times
        exact absurd (h policy) minted
    · rintro rfl policy keyPrefix org events - - calls
      have one := allowedCount_le policy keyPrefix (fun _ => none) events
      rw [calls] at one
      have room : (1 : ℚ) ≤ policy.burst := Nat.one_le_cast.mpr policy.burst_pos
      rw [NothingMinted, latest, sub_self, mul_zero, add_zero]
      exact (Nat.cast_le.mpr one).trans (by simpa using room)

/-- One token, one a second, and a clock that goes back and forth once: three requests are allowed
where at most two may be. -/
theorem back_and_forth_mints :
    ¬ NothingMintedInProcess single 0 [1, 0, 1] ∧ ¬ NothingMintedByScript single 0 [1, 0, 1] RedisEvent.Steady := by
  have three : allows single none [0, 1, 0, 1] = 3 := by decide +kernel
  have minted : ¬ NothingMintedInProcess single 0 [1, 0, 1] := by
    rw [nothingMinted_inProcess_iff, three]
    norm_num [latest, single]
  exact ⟨minted, fun h => minted (nothingMinted_script_iff.mp h)⟩

end LlmGateway.RateLimit
