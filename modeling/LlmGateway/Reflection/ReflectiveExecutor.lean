import LlmGateway.Execution.Identity
import LlmGateway.Reflection.RetryPolicy
import LlmGateway.Streaming.Parity

/-! `ReflectiveExecutor.execute`: a routed request, attempted until it is done or out of attempts. -/
namespace LlmGateway.Reflection
open Lib Ledger Execution Streaming

structure AttemptRecord where
  attempt : Nat
  correlationId : CorrelationId
  outcome : ExecutionOutcome
  verdict : RetryVerdict
  error : Option String
  errorCategory : Option ProviderErrorCategory
  deriving DecidableEq, Repr

structure ReflectionResult where
  final : InferenceExecutionResult
  attempts : List AttemptRecord
  execution : RoutingExecution
  attempts_ne : attempts ≠ []

/-- What is seen of a run from outside, in order. A delay is in microseconds. -/
inductive Event where
  | slept (delay : Int)
  | attempted (record : AttemptRecord)
  deriving DecidableEq, Repr

/-- What may escape the loop: the `OverflowError` of a backoff, or what the coordinator raises. -/
inductive Raised (ε : Type) where
  | overflow
  | coordinator (error : ε)

structure Run (ω ε : Type) where
  world : ω
  trace : List Event
  ending : Except (Raised ε) ReflectionResult

def Run.after {ω ε : Type} (trace : List Event) (run : Run ω ε) : Run ω ε := { run with trace := trace ++ run.trace }

/-- `replace(request, correlation_id=...)`. -/
def attemptRequest (request : InferenceRequest) (attempt : Nat) : InferenceRequest :=
  { request with correlationId := attemptCorrelationId request.correlationId attempt }

def recordOf (request : InferenceRequest) (attempt : Nat) (result : InferenceExecutionResult) : AttemptRecord where
  attempt := attempt
  correlationId := (attemptRequest request attempt).correlationId
  outcome := result.outcome
  verdict := classify result
  error := result.response.error
  errorCategory := result.response.errorCategory

section
-- `InferenceCoordinator.execute`, on whatever world it works in.
variable {ω ε : Type} (coordinate : RoutingExecution → InferenceRequest → ω → ω × Except ε InferenceExecutionResult)
  (policy : RetryPolicy) (execution : RoutingExecution) (request : InferenceRequest)

/-- The backoff before an attempt: none before the first. -/
def pause (attempt : Nat) : Option (List Event) :=
  if 1 < attempt then (policy.backoffBefore attempt).map fun delay => [.slept delay.microseconds] else some []

/-- The loop from an attempt on, with `remaining` attempts after it and the records of those before. -/
def attemptFrom (remaining attempt : Nat) (attempts : List AttemptRecord) (w : ω) : Run ω ε :=
  match pause policy attempt with
  | none => ⟨w, [], .error .overflow⟩
  | some slept =>
    match coordinate execution (attemptRequest request attempt) w with
    | (w, .error e) => ⟨w, slept, .error (.coordinator e)⟩
    | (w, .ok result) =>
      let record := recordOf request attempt result
      let trace := slept ++ [.attempted record]
      let stop : Run ω ε := ⟨w, trace, .ok ⟨result, attempts ++ [record], execution, List.concat_ne_nil _ _⟩⟩
      if record.verdict ≠ .retry then stop
      else
        match remaining with
        | 0 => stop
        | remaining + 1 => (attemptFrom remaining (attempt + 1) (attempts ++ [record]) w).after trace

/-- `ReflectiveExecutor.execute`. -/
def execute (w : ω) : Run ω ε := attemptFrom coordinate policy execution request (policy.maxAttempts - 1) 1 [] w

/-! ### What the loop is for -/

/-- The world after `n` attempts. -/
def worldAfter (w : ω) : Nat → ω
  | 0 => w
  | n + 1 => (coordinate execution (attemptRequest request (n + 1)) (worldAfter w n)).1

/-- The first attempt whose result is not retried, or the last one permitted. -/
def attemptCount (results : Nat → InferenceExecutionResult) : Nat :=
  Nat.find (p := fun n => 1 ≤ n ∧ (policy.maxAttempts ≤ n ∨ classify (results n) ≠ .retry))
    ⟨policy.maxAttempts, policy.maxAttempts_pos, .inl le_rfl⟩

/-- The coordinator returns these results. -/
def Returns (w : ω) (results : Nat → InferenceExecutionResult) : Prop :=
  ∀ n < attemptCount policy results,
    (coordinate execution (attemptRequest request (n + 1)) (worldAfter coordinate execution request w n)).2 =
      .ok (results (n + 1))

variable (w : ω) (results : Nat → InferenceExecutionResult)

/-- The delay before an attempt: the base doubled for each attempt after the second. -/
def awaited (attempt : Nat) : List Event := if 1 < attempt then [.slept (policy.doubled attempt)] else []

/-- One turn of the loop as seen from outside. -/
def turn (attempt : Nat) : List Event :=
  awaited policy attempt ++ [.attempted (recordOf request attempt (results attempt))]

/-- The attempts from one to the last, with the records before them: nothing else is done, and the
last result is handed on as it is. -/
structure Reflected (first : Nat) (before : List AttemptRecord) (run : Run ω ε) : Prop where
  world : run.world = worldAfter coordinate execution request w (attemptCount policy results)
  trace : run.trace =
    (List.range' first (attemptCount policy results + 1 - first)).flatMap (turn policy request results)
  result : ∃ r, run.ending = .ok r ∧ r.final = results (attemptCount policy results) ∧ r.execution = execution ∧
    r.attempts = before ++ (List.range' first (attemptCount policy results + 1 - first)).map
      fun attempt => recordOf request attempt (results attempt)

end

section
variable {ω ε : Type} {coordinate : RoutingExecution → InferenceRequest → ω → ω × Except ε InferenceExecutionResult}
  {policy : RetryPolicy} {execution : RoutingExecution} {request : InferenceRequest}
  {results : Nat → InferenceExecutionResult} {w : ω}

private theorem attemptCount_spec : 1 ≤ attemptCount policy results ∧
    (policy.maxAttempts ≤ attemptCount policy results ∨ classify (results (attemptCount policy results)) ≠ .retry) :=
  Nat.find_spec (p := fun n => 1 ≤ n ∧ (policy.maxAttempts ≤ n ∨ classify (results n) ≠ .retry)) _

theorem attemptCount_pos : 1 ≤ attemptCount policy results := attemptCount_spec.1

theorem attemptCount_le : attemptCount policy results ≤ policy.maxAttempts :=
  Nat.find_min' _ ⟨policy.maxAttempts_pos, .inl le_rfl⟩

/-- An attempt before the last is retried. -/
theorem classify_of_lt {attempt : Nat} (pos : 1 ≤ attempt) (h : attempt < attemptCount policy results) :
    classify (results attempt) = .retry := by
  by_contra final
  exact Nat.find_min _ h ⟨pos, .inr final⟩

variable (policy results) in
/-- The last is not, or there are no more. -/
theorem attemptCount_stops :
    policy.maxAttempts = attemptCount policy results ∨ classify (results (attemptCount policy results)) ≠ .retry :=
  attemptCount_spec.2.imp_left fun h => le_antisymm h attemptCount_le

private theorem pause_length {attempt : Nat} {slept : List Event} (h : pause policy attempt = some slept) :
    slept.length = (awaited policy attempt).length := by
  unfold pause at h
  unfold awaited
  split_ifs at h ⊢
  · obtain ⟨delay, -, rfl⟩ := Option.map_eq_some_iff.mp h
    rfl
  · cases h
    rfl

private theorem pause_eq_iff (attempt : Nat) :
    pause policy attempt = some (awaited policy attempt) ↔ (2 ≤ attempt → policy.Exact attempt) := by
  unfold pause awaited
  by_cases later : 1 < attempt
  · rw [if_pos later, if_pos later, imp_iff_right (show 2 ≤ attempt from later), ← RetryPolicy.backoffBefore_iff,
      Option.map_eq_some_iff]
    refine exists_congr fun delay => and_congr_right fun _ => ?_
    simp
  · rw [if_neg later, if_neg later]
    exact iff_of_true rfl fun h => absurd h later

private theorem awaited_append (attempt : Nat) :
    awaited policy attempt ++ [.attempted (recordOf request attempt (results attempt))] =
      turn policy request results attempt := rfl

/-- What the last attempt leaves. -/
private def lastRun (execution : RoutingExecution) (request : InferenceRequest) (results : Nat → InferenceExecutionResult)
    (attempt : Nat) (slept : List Event) (before : List AttemptRecord) (w : ω) : Run ω ε :=
  ⟨w, slept ++ [.attempted (recordOf request attempt (results attempt))],
    .ok ⟨results attempt, before ++ [recordOf request attempt (results attempt)], execution, List.concat_ne_nil _ _⟩⟩

private theorem reflected_last {n : Nat} (last : attemptCount policy results = n) {before : List AttemptRecord}
    {slept : List Event} :
    Reflected coordinate policy execution request w results n before
        (lastRun execution request results n slept before (worldAfter coordinate execution request w n) : Run ω ε) ↔
      slept = awaited policy n := by
  have one : attemptCount policy results + 1 - n = 1 := by omega
  constructor
  · intro h
    have trace := h.trace
    rw [one, List.range'_one, List.flatMap_singleton] at trace
    exact List.append_cancel_right trace
  · rintro rfl
    refine ⟨by rw [last]; rfl, ?_, _, rfl, by rw [last], rfl, ?_⟩
    · rw [one, List.range'_one, List.flatMap_singleton]
      rfl
    · rw [one, List.range'_one]
      rfl

/-- An attempt before the last, and the run after it. -/
private theorem reflected_after {n : Nat} (more : n < attemptCount policy results) {before : List AttemptRecord}
    {slept : List Event} (length : slept.length = (awaited policy n).length) {run : Run ω ε} :
    Reflected coordinate policy execution request w results n before
        (run.after (slept ++ [.attempted (recordOf request n (results n))])) ↔
      slept = awaited policy n ∧ Reflected coordinate policy execution request w results (n + 1)
        (before ++ [recordOf request n (results n)]) run := by
  have rest : attemptCount policy results + 1 - n = attemptCount policy results + 1 - (n + 1) + 1 := by omega
  have records (before : List AttemptRecord) (l : List Nat) :
      before ++ (n :: l).map (fun attempt => recordOf request attempt (results attempt)) =
        before ++ [recordOf request n (results n)] ++ l.map fun attempt => recordOf request attempt (results attempt) := by
    rw [List.map_cons, List.append_assoc, List.singleton_append]
  constructor
  · rintro ⟨world, trace, r, ending, final, same, attempts⟩
    rw [rest, List.range'_succ, List.flatMap_cons, ← awaited_append] at trace
    rw [rest, List.range'_succ, records] at attempts
    obtain ⟨first, later⟩ := List.append_inj trace (by rw [List.length_append, List.length_append, length])
    exact ⟨List.append_cancel_right first, world, later, r, ending, final, same, attempts⟩
  · rintro ⟨rfl, world, trace, r, ending, final, same, attempts⟩
    refine ⟨world, ?_, r, ending, final, same, ?_⟩
    · rw [rest, List.range'_succ, List.flatMap_cons, ← awaited_append, ← trace]
      rfl
    · rw [rest, List.range'_succ, records]
      exact attempts

/-- Every delay from an attempt on is exact. -/
private theorem exact_succ {n : Nat} (h : n ≤ attemptCount policy results) :
    (∀ attempt, n ≤ attempt → attempt ≤ attemptCount policy results → 2 ≤ attempt → policy.Exact attempt) ↔
      (2 ≤ n → policy.Exact n) ∧
        ∀ attempt, n + 1 ≤ attempt → attempt ≤ attemptCount policy results → 2 ≤ attempt → policy.Exact attempt := by
  constructor
  · intro exact
    exact ⟨exact n le_rfl h, fun attempt low => exact attempt (Nat.le_of_succ_le low)⟩
  · rintro ⟨first, rest⟩ attempt low high
    rcases low.eq_or_lt with rfl | low
    · exact first
    · exact rest attempt low high

/-- One turn of the loop, where the coordinator returns. -/
private theorem attemptFrom_eq (returned : Returns coordinate policy execution request w results) {n : Nat}
    (high : n < attemptCount policy results) {slept : List Event} (paused : pause policy (n + 1) = some slept)
    (remaining : Nat) (before : List AttemptRecord) :
    attemptFrom coordinate policy execution request remaining (n + 1) before
        (worldAfter coordinate execution request w n) =
      if classify (results (n + 1)) ≠ .retry then
        lastRun execution request results (n + 1) slept before (worldAfter coordinate execution request w (n + 1))
      else
        match remaining with
        | 0 => lastRun execution request results (n + 1) slept before
            (worldAfter coordinate execution request w (n + 1))
        | remaining + 1 => (attemptFrom coordinate policy execution request remaining (n + 1 + 1)
            (before ++ [recordOf request (n + 1) (results (n + 1))])
            (worldAfter coordinate execution request w (n + 1))).after
              (slept ++ [.attempted (recordOf request (n + 1) (results (n + 1)))]) := by
  have answer : coordinate execution (attemptRequest request (n + 1)) (worldAfter coordinate execution request w n) =
      (worldAfter coordinate execution request w (n + 1), .ok (results (n + 1))) :=
    Prod.ext rfl (returned n high)
  cases remaining with
  | zero =>
    rw [attemptFrom, paused]
    dsimp only
    rw [answer]
    rfl
  | succ remaining =>
    rw [attemptFrom, paused]
    dsimp only
    rw [answer]
    rfl

private theorem awaited_iff {attempt : Nat} {slept : List Event} (paused : pause policy attempt = some slept) :
    slept = awaited policy attempt ↔ (2 ≤ attempt → policy.Exact attempt) := by
  rw [← pause_eq_iff, paused, Option.some_inj]

/-- A backoff that overflows ends the loop without a result. -/
private theorem overflowed {n : Nat} (paused : pause policy (n + 1) = none) (remaining : Nat)
    (before : List AttemptRecord) {rest : Prop} {v : ω} :
    Reflected coordinate policy execution request w results (n + 1) before
        (attemptFrom coordinate policy execution request remaining (n + 1) before v) ↔
      (2 ≤ n + 1 → policy.Exact (n + 1)) ∧ rest := by
  refine iff_of_false ?_ ?_
  · rintro ⟨-, -, r, ending, -⟩
    cases remaining with
    | zero | succ =>
      rw [attemptFrom, paused] at ending
      cases ending
  · rintro ⟨first, -⟩
    have := (pause_eq_iff (n + 1)).mpr first
    rw [paused] at this
    cases this

private theorem reflected_stop {n : Nat} {slept : List Event} (paused : pause policy n = some slept)
    (last : attemptCount policy results = n) {before : List AttemptRecord} :
    Reflected coordinate policy execution request w results n before
        (lastRun execution request results n slept before (worldAfter coordinate execution request w n) : Run ω ε) ↔
      (2 ≤ n → policy.Exact n) ∧ ∀ attempt, n + 1 ≤ attempt → attempt ≤ attemptCount policy results → 2 ≤ attempt →
        policy.Exact attempt := by
  rw [reflected_last last, awaited_iff paused]
  exact (and_iff_left fun attempt low high => by omega).symm

/-- The loop from an attempt on. -/
private theorem attemptFrom_reflected (returned : Returns coordinate policy execution request w results)
    {remaining n : Nat} (left : n + 1 + remaining = policy.maxAttempts) (high : n + 1 ≤ attemptCount policy results)
    (before : List AttemptRecord) :
    Reflected coordinate policy execution request w results (n + 1) before
        (attemptFrom coordinate policy execution request remaining (n + 1) before
          (worldAfter coordinate execution request w n)) ↔
      ∀ attempt, n + 1 ≤ attempt → attempt ≤ attemptCount policy results → 2 ≤ attempt → policy.Exact attempt := by
  induction remaining generalizing n before with
  | zero =>
    have last : attemptCount policy results = n + 1 := le_antisymm (attemptCount_le.trans_eq left.symm) high
    rw [exact_succ high]
    cases paused : pause policy (n + 1) with
    | none => exact overflowed paused 0 before
    | some slept =>
      rw [attemptFrom_eq returned high paused, ite_self]
      exact reflected_stop paused last
  | succ remaining ih =>
    rw [exact_succ high]
    cases paused : pause policy (n + 1) with
    | none => exact overflowed paused (remaining + 1) before
    | some slept =>
      rw [attemptFrom_eq returned high paused]
      by_cases retried : classify (results (n + 1)) = .retry
      · have more : n + 1 < attemptCount policy results := by
          refine lt_of_le_of_ne high fun last => ?_
          rcases attemptCount_stops policy results with all | final
          · omega
          · exact final (last ▸ retried)
        rw [if_neg (not_not_intro retried)]
        dsimp only
        rw [reflected_after more (pause_length paused), awaited_iff paused, ih (by omega) more]
      · have last : attemptCount policy results = n + 1 := by
          refine le_antisymm (not_lt.mp fun more => ?_) high
          exact retried (classify_of_lt (Nat.succ_pos n) more)
        rw [if_pos retried]
        exact reflected_stop paused last

/-- The loop does what it is for exactly when every delay it comes to is kept by float arithmetic. -/
theorem execute_reflected_iff (returned : Returns coordinate policy execution request w results) :
    Reflected coordinate policy execution request w results 1 [] (execute coordinate policy execution request w) ↔
      ∀ attempt, 2 ≤ attempt → attempt ≤ attemptCount policy results → policy.Exact attempt := by
  have all : 0 + 1 + (policy.maxAttempts - 1) = policy.maxAttempts := by
    have := policy.maxAttempts_pos
    omega
  refine (attemptFrom_reflected (n := 0) returned all attemptCount_pos []).trans ?_
  constructor
  · intro exact attempt low high
    exact exact attempt (by omega) high low
  · intro exact attempt _ high low
    exact exact attempt low high

end
end LlmGateway.Reflection
