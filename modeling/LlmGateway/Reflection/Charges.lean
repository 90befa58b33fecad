import LlmGateway.Execution.HoldsElsewhere
import LlmGateway.Reflection.ReflectiveExecutor

/-! The loop over the ledger: which of its attempts is charged, and what they leave held. -/
namespace LlmGateway.Reflection
open Lib Lib.ReadCommitted Ledger Accounting Execution Streaming
open Ledger.Sql hiding reserve settle release

/-- What one attempt meets: the ledger calls of others since the attempt before, the cache's answer,
its own ports, what the provider returns, and how the cache takes that. -/
structure Encounter where
  others : List (Timestamp × Call)
  cached : Option CachedResponse
  ports : Ports
  response : ProviderResponse
  put : PutOutcome

/-- The ledger, and what the attempts still to come will meet. -/
structure Ambient (pg : Postgres) where
  ledger : World pg
  ahead : Nat → Encounter

variable {pg : Postgres}

def serveAll (T : Tables (schema pg)) (calls : List (Timestamp × Call)) : Tables (schema pg) :=
  calls.foldl (fun T c => ((Sql.ledger pg).serve T c.1 c.2).1) T

/-- `InferenceCoordinator.execute`. No other call is in flight under this id, so `coalesce` runs the
operation. -/
def coordinate (py : PythonStr) (execution : RoutingExecution) (request : InferenceRequest) (a : Ambient pg) :
    Ambient pg × Except OperationError InferenceExecutionResult :=
  let met := a.ahead 0
  let w := { a.ledger with tables := serveAll a.ledger.tables met.others }
  let (w, result) :=
    match execution.selected with
    | none =>
      (w, .ok { outcome := .notRouted, response := { ok := false, error := some execution.notRouted } })
    | some provider =>
      match met.cached with
      | some entry =>
        (w, .ok
          { outcome := .cacheHit
            response := { ok := true, content := entry.content, provider := entry.provider } })
      | none =>
        executeAndSettle py met.ports
          ⟨execution.organizationId, request.correlationId, provider, request.payloadChars⟩ met.response met.put w
  (⟨w, fun n => a.ahead (n + 1)⟩, result)

section
variable (execution : RoutingExecution) (request : InferenceRequest)

/-- The rows of an attempt. -/
def attemptKey (attempt : Nat) : ReservationKey :=
  (execution.organizationId, (attemptRequest request attempt).correlationId)

/-- The ledger knows none of the attempts' ids, and nobody else reserves under one. -/
structure Fresh (count : Nat) (a : Ambient pg) : Prop where
  unknown : ∀ attempt, 1 ≤ attempt → attempt ≤ count →
    a.ledger.tables.rows .budgetReservation (attemptKey execution request attempt) = none ∧
      a.ledger.tables.rows .costLedger (attemptKey execution request attempt) = none
  unshared : ∀ n, ∀ c ∈ (a.ahead n).others, ∀ attempt, 1 ≤ attempt → attempt ≤ count →
    ¬ Reserves (attemptKey execution request attempt) c.2

/-- A cost is recorded for the attempt, or its reservation is committed. -/
def Charged (σ : LedgerRows pg) (attempt : Nat) : Prop :=
  σ .costLedger (attemptKey execution request attempt) ≠ none ∨
    statusOf σ (attemptKey execution request attempt) = some .committed

/-- Of so many attempts only the last may be charged, and none before it still holds anything. -/
def OnlyLastCharged (count : Nat) (σ : LedgerRows pg) : Prop :=
  ∀ attempt, 1 ≤ attempt → attempt < count →
    ¬ Charged execution request σ attempt ∧ ¬ Live σ (attemptKey execution request attempt)

/-- After `made` attempts: the ids of those to come are fresh, and what those made held is released. -/
structure Kept (count made : Nat) (a : Ambient pg) : Prop where
  fresh : ∀ attempt, made < attempt → attempt ≤ count →
    a.ledger.tables.rows .budgetReservation (attemptKey execution request attempt) = none ∧
      a.ledger.tables.rows .costLedger (attemptKey execution request attempt) = none
  ended : ∀ attempt, 1 ≤ attempt → attempt ≤ made → attempt < count →
    statusOf a.ledger.tables.rows (attemptKey execution request attempt) = some .released ∧
      a.ledger.tables.rows .costLedger (attemptKey execution request attempt) = none
  unshared : ∀ n, ∀ c ∈ (a.ahead n).others, ∀ attempt, 1 ≤ attempt → attempt ≤ count →
    ¬ Reserves (attemptKey execution request attempt) c.2

end

variable {py : PythonStr} {execution : RoutingExecution} {request : InferenceRequest} {a : Ambient pg}
  {count made : Nat}

theorem attemptKey_inj {m n : Nat} (h : attemptKey execution request m = attemptKey execution request n) : m = n := by
  have read := congrArg attemptOf (Prod.mk.inj h).2
  rw [attemptRequest, attemptRequest, attemptOf_attemptCorrelationId, attemptOf_attemptCorrelationId] at read
  cases read
  rfl

theorem serveAll_sameAt {k : ReservationKey} {T : Tables (schema pg)} {calls : List (Timestamp × Call)}
    (closed : Closed T.rows k) (others : ∀ c ∈ calls, ¬ Reserves k c.2) :
    SameAt k T.rows (serveAll T calls).rows := by
  induction calls generalizing T with
  | nil => exact .refl _
  | cons c calls ih =>
    have first : SameAt k T.rows ((Sql.ledger pg).serve T c.1 c.2).1.rows :=
      serve_sameAt closed (others c List.mem_cons_self)
    exact first.trans (ih (closed.of_same first) fun c' hc => others c' (List.mem_cons_of_mem _ hc))

/-- What a call leaves of an id it is not made under. -/
theorem coordinate_sameAt {k : ReservationKey} (closed : Closed a.ledger.tables.rows k)
    (others : ∀ c ∈ (a.ahead 0).others, ¬ Reserves k c.2)
    (ne : (execution.organizationId, request.correlationId) ≠ k) :
    SameAt k a.ledger.tables.rows (coordinate py execution request a).1.ledger.tables.rows := by
  have before := serveAll_sameAt closed others
  unfold coordinate
  dsimp only
  split
  · exact before
  · split
    · exact before
    · exact before.trans (executeAndSettle_sameAt _ _ (closed.of_same before) ne)

/-- A retried call under a fresh id leaves its hold released and no cost. -/
theorem coordinate_retried {result : InferenceExecutionResult}
    (fresh : a.ledger.tables.rows .budgetReservation (execution.organizationId, request.correlationId) = none)
    (uncharged : a.ledger.tables.rows .costLedger (execution.organizationId, request.correlationId) = none)
    (others : ∀ c ∈ (a.ahead 0).others, ¬ Reserves (execution.organizationId, request.correlationId) c.2)
    (h : (coordinate py execution request a).2 = .ok result) (retried : classify result = .retry) :
    statusOf (coordinate py execution request a).1.ledger.tables.rows
        (execution.organizationId, request.correlationId) = some .released ∧
      (coordinate py execution request a).1.ledger.tables.rows .costLedger
        (execution.organizationId, request.correlationId) = none := by
  obtain ⟨executed, failed⟩ := failed_of_retry retried
  have before := serveAll_sameAt (k := (execution.organizationId, request.correlationId))
    (fun r hr => by rw [fresh] at hr; cases hr) others
  unfold coordinate at h ⊢
  dsimp only at h ⊢
  split at h
  · cases h
    cases executed
  · split at h
    · cases h
      cases executed
    · obtain ⟨released, cost⟩ := failed_released (before.1.trans fresh) h executed failed
      exact ⟨released, cost.trans (before.2.trans uncharged)⟩

private theorem Kept.closed (kept : Kept execution request count made a) {attempt : Nat} (pos : 1 ≤ attempt)
    (high : attempt ≤ count) (other : attempt ≤ made → attempt < count) :
    Closed a.ledger.tables.rows (attemptKey execution request attempt) := by
  intro r hr
  rcases Nat.lt_or_ge made attempt with later | done
  · rw [(kept.fresh attempt later high).1] at hr
    cases hr
  · have released := (kept.ended attempt pos done (other done)).1
    rw [statusOf, hr, Option.map_some, Option.some_inj] at released
    exact released

/-- One more attempt, retried unless it is the last. -/
private theorem Kept.step (kept : Kept execution request count made a) (more : made < count)
    {result : InferenceExecutionResult}
    (h : (coordinate py execution (attemptRequest request (made + 1)) a).2 = .ok result)
    (retried : made + 1 < count → classify result = .retry) :
    Kept execution request count (made + 1) (coordinate py execution (attemptRequest request (made + 1)) a).1 := by
  have elsewhere : ∀ attempt, 1 ≤ attempt → attempt ≤ count → attempt ≠ made + 1 →
      SameAt (attemptKey execution request attempt) a.ledger.tables.rows
        (coordinate py execution (attemptRequest request (made + 1)) a).1.ledger.tables.rows := by
    intro attempt pos high other
    refine coordinate_sameAt (kept.closed pos high fun done => by omega)
      (fun c hc => kept.unshared 0 c hc attempt pos high) fun same => ?_
    have key : attemptKey execution request (made + 1) = attemptKey execution request attempt := same
    exact other (attemptKey_inj key).symm
  refine ⟨?_, ?_, fun n => kept.unshared (n + 1)⟩
  · intro attempt later high
    obtain ⟨row, cost⟩ := elsewhere attempt (by omega) high (by omega)
    obtain ⟨unknown, uncharged⟩ := kept.fresh attempt (by omega) high
    exact ⟨row.trans unknown, cost.trans uncharged⟩
  · intro attempt pos done notLast
    by_cases own : attempt = made + 1
    · subst own
      obtain ⟨unknown, uncharged⟩ := kept.fresh (made + 1) (Nat.lt_succ_self _) more
      exact coordinate_retried unknown uncharged (fun c hc => kept.unshared 0 c hc (made + 1) pos more) h
        (retried notLast)
    · obtain ⟨row, cost⟩ := elsewhere attempt pos notLast.le own
      obtain ⟨released, uncharged⟩ := kept.ended attempt pos (by omega) notLast
      exact ⟨by rw [statusOf, row]; exact released, cost.trans uncharged⟩

/-- However the attempts go, all but the last are released and uncharged. -/
theorem kept_after {policy : RetryPolicy} {results : Nat → InferenceExecutionResult}
    (fresh : Fresh execution request (attemptCount policy results) a)
    (returned : Returns (coordinate py) policy execution request a results) {n : Nat}
    (made : n ≤ attemptCount policy results) :
    Kept execution request (attemptCount policy results) n (worldAfter (coordinate py) execution request a n) := by
  induction n with
  | zero =>
    refine ⟨fun attempt pos high => fresh.unknown attempt pos high, ?_, fresh.unshared⟩
    intro attempt pos none_made
    omega
  | succ n ih =>
    exact (ih (Nat.le_of_succ_le made)).step made (returned n made) fun more => classify_of_lt (Nat.succ_pos n) more

theorem onlyLastCharged_of_kept {σ : Ambient pg} (kept : Kept execution request count count σ) :
    OnlyLastCharged execution request count σ.ledger.tables.rows := by
  intro attempt pos notLast
  obtain ⟨released, uncharged⟩ := kept.ended attempt pos notLast.le notLast
  refine ⟨?_, fun live => ?_⟩
  · rintro (recorded | committed)
    · exact recorded uncharged
    · cases released.symm.trans committed
  · cases released.symm.trans (Sql.live_iff_statusOf.mp live)

/-- The loop specification holds of a run exactly when every delay it comes to is kept by float
arithmetic: of any coordinator, and with the charges of the one over the ledger. -/
theorem reflection_loop_iff (policy : RetryPolicy) (execution : RoutingExecution) (request : InferenceRequest)
    (results : Nat → InferenceExecutionResult) :
    (∀ {ω ε : Type} (coordinator : RoutingExecution → InferenceRequest → ω → ω × Except ε InferenceExecutionResult)
      (w : ω), Returns coordinator policy execution request w results →
      (Reflected coordinator policy execution request w results 1 [] (execute coordinator policy execution request w) ↔
        ∀ attempt, 2 ≤ attempt → attempt ≤ attemptCount policy results → policy.Exact attempt)) ∧
    ∀ {pg : Postgres} (py : PythonStr) (a : Ambient pg), Returns (coordinate py) policy execution request a results →
      ((Reflected (coordinate py) policy execution request a results 1 []
          (execute (coordinate py) policy execution request a) ∧
        (Fresh execution request (attemptCount policy results) a →
          OnlyLastCharged execution request (attemptCount policy results)
            (execute (coordinate py) policy execution request a).world.ledger.tables.rows)) ↔
        ∀ attempt, 2 ≤ attempt → attempt ≤ attemptCount policy results → policy.Exact attempt) := by
  refine ⟨fun coordinator w returned => execute_reflected_iff returned, fun py a returned => ?_⟩
  rw [← execute_reflected_iff returned]
  refine and_iff_left_of_imp fun reflected fresh => ?_
  rw [reflected.world]
  exact onlyLastCharged_of_kept (kept_after fresh returned le_rfl)

private def timedOutCall : ProviderResponse :=
  { ok := false, error := some "provider call timed out", provider := "openai", errorCategory := some .timeout }

/-- A provider that times out so many times, over a ledger with a budget. -/
private def flaky (timeouts : Nat) : Ambient Sql.contended where
  ledger := { tables := Sql.configured Sql.contended 1 ⟨10 ^ 9, "USD", 0, 0⟩ }
  ahead n := ⟨[], none, priced (.price ⟨1 / 1000, 2 / 1000, "USD"⟩),
    if n < timeouts then timedOutCall else shortResponse, .stored⟩

private def selected : RoutingExecution := ⟨1, .selected, some ⟨"openai", "gpt-4o"⟩⟩

private def chat : InferenceRequest := ⟨"req", "payload", 40⟩

private def answers (timeouts attempt : Nat) : InferenceExecutionResult :=
  if attempt ≤ timeouts then { outcome := .executed, response := timedOutCall }
  else
    { outcome := .executed
      response := shortResponse
      cost := some ⟨"openai", "gpt-4o", 9, 4, ⟨900, "USD"⟩, ⟨800, "USD"⟩, ⟨1700, "USD"⟩⟩ }

/-- Three attempts, from a base in microseconds. -/
private def three (base : Int) (nonneg : 0 ≤ base) (range : base < 10 ^ 9 * 86400 * 10 ^ 6) : RetryPolicy :=
  ⟨3, ⟨base, by omega, range⟩, by decide, nonneg⟩

private def defaultPolicy : RetryPolicy := three 100000 (by decide) (by decide)

private def longestDays : RetryPolicy := three (999999999 * 86400 * 10 ^ 6) (by decide) (by decide)

/-- The default policy, and a call that times out once: one delay, one charge. -/
theorem reflection_loop_iff_default :
    attemptCount defaultPolicy (answers 1) = 2 ∧
      Reflected (coordinate asciiStr) defaultPolicy selected chat (flaky 1) (answers 1) 1 []
        (execute (coordinate asciiStr) defaultPolicy selected chat (flaky 1)) ∧
      OnlyLastCharged selected chat (attemptCount defaultPolicy (answers 1))
        (execute (coordinate asciiStr) defaultPolicy selected chat (flaky 1)).world.ledger.tables.rows := by
  have count : attemptCount defaultPolicy (answers 1) = 2 := by decide +kernel
  have returned : Returns (coordinate asciiStr) defaultPolicy selected chat (flaky 1) (answers 1) := by
    unfold Returns
    decide +kernel
  have exact : ∀ attempt, 2 ≤ attempt → attempt ≤ attemptCount defaultPolicy (answers 1) →
      defaultPolicy.Exact attempt := by
    intro attempt low high
    obtain rfl : attempt = 2 := le_antisymm (high.trans_eq count) low
    exact RetryPolicy.exact_of_lt (by decide) (by decide)
  have fresh : Fresh selected chat (attemptCount defaultPolicy (answers 1)) (flaky 1) :=
    ⟨fun _ _ _ => ⟨rfl, rfl⟩, fun _ _ hc => by cases hc⟩
  obtain ⟨reflected, charged⟩ :=
    ((reflection_loop_iff defaultPolicy selected chat (answers 1)).2 asciiStr (flaky 1) returned).mpr exact
  exact ⟨count, reflected, charged fresh⟩

/-- The longest whole number of days, doubled before the third attempt. -/
theorem reflection_loop_overflows :
    Returns (coordinate asciiStr) longestDays selected chat (flaky 3) (answers 3) ∧
      ¬ Reflected (coordinate asciiStr) longestDays selected chat (flaky 3) (answers 3) 1 []
        (execute (coordinate asciiStr) longestDays selected chat (flaky 3)) := by
  have count : attemptCount longestDays (answers 3) = 3 := by decide +kernel
  have returned : Returns (coordinate asciiStr) longestDays selected chat (flaky 3) (answers 3) := by
    unfold Returns
    decide +kernel
  refine ⟨returned, fun reflected => ?_⟩
  have exact := (execute_reflected_iff returned).mp reflected 3 (by decide) count.ge
  exact absurd exact.2.1 (by decide)

end LlmGateway.Reflection
