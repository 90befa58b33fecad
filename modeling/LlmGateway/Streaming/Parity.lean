import LlmGateway.Execution.ResponseCache
import LlmGateway.Routing.Agents
import LlmGateway.Streaming.Drained

/-! One call served both ways: `InferenceCoordinator.execute`, and `StreamingCoordinator.open` with
its session drained. -/
namespace LlmGateway.Streaming
open Lib.ReadCommitted Lib.AsyncGenerator Ledger Accounting Execution Routing
open Ledger.Sql hiding reserve settle release

/-- `RoutingOutcome`'s values. -/
def outcomeValue : RoutingOutcome → String
  | .selected => "selected"
  | .noCandidate => "no_candidate"
  | .blockedByPolicy => "blocked_by_policy"
  | .budgetExceeded => "budget_exceeded"
  | .allUnhealthy => "all_unhealthy"

/-- What both coordinators read of a `RoutingExecution`. -/
structure RoutingExecution where
  organizationId : OrgId
  outcome : RoutingOutcome
  provider : Option ProviderDescriptor

/-- The provider, where `routed` holds. -/
def RoutingExecution.selected (execution : RoutingExecution) : Option ProviderDescriptor :=
  if execution.outcome = .selected then execution.provider else none

def RoutingExecution.notRouted (execution : RoutingExecution) : String :=
  "not_routed: " ++ outcomeValue execution.outcome

structure InferenceRequest where
  correlationId : CorrelationId
  payload : String
  payloadChars : Nat

/-- A cache that holds text entries only. -/
structure TextCache (κ : Type) extends InMemoryResponseCache κ where
  text : ∀ k entry, store k = some entry → ∃ s, entry.response.content = some (.text s)

/-- One call: the deployment, its clock readings, the price of the model, the routing it got and
what the provider does. -/
structure Scenario (κ : Type) where
  python : PythonStr
  sha256 : String → κ
  ttl : Timestamp
  lookupAt : Timestamp
  cutoff : Timestamp
  reclaimAt : Timestamp
  reserveAt : Timestamp
  settleAt : Timestamp
  releaseAt : Timestamp
  putAt : Timestamp
  price : Option ModelPrice
  execution : RoutingExecution
  request : InferenceRequest
  behaviour : ProviderBehaviour

/-- What a call leaves behind, and whether its caller was told of success. -/
structure Effects (κ : Type) where
  status : Option ReservationStatus
  totals : Option (Int × Int)
  observed : List ProviderCallResult
  cache : OrgId × κ → Option CacheEntry
  success : Bool

namespace Scenario
variable {pg : Postgres} {κ : Type} (sc : Scenario κ)

def org : OrgId := sc.execution.organizationId

def key : ReservationKey := (sc.org, sc.request.correlationId)

def routed (provider : ProviderDescriptor) : RoutedRequest :=
  ⟨sc.org, sc.request.correlationId, provider, sc.request.payloadChars⟩

def cacheKey (provider : ProviderDescriptor) : κ :=
  computeCacheKey sc.sha256 sc.org provider sc.request.payload

def lookup : PriceLookup :=
  match sc.price with
  | some p => .price p
  | none => .unpriced

/-- The ports with ledger and cache available, and the cache's answer to the lookup. -/
def ports (cached : Option CachedResponse) : StreamPorts where
  cutoff := sc.cutoff
  reclaimAt := sc.reclaimAt
  reserveAt := sc.reserveAt
  settleAt := sc.settleAt
  releaseAt := sc.releaseAt
  reclaimOut := false
  reserveOut := false
  settleOut := false
  releaseOut := false
  priceBefore := sc.lookup
  priceAfter := sc.lookup
  cached := cached
  put := .stored

variable (cache : TextCache κ) (T : Tables (schema pg))

def cached (provider : ProviderDescriptor) : Option CachedResponse :=
  cache.get sc.lookupAt sc.org (sc.cacheKey provider)

/-- `InferenceCoordinator.execute`. No other call is in flight, so `coalesce` runs the operation. -/
def execute : World pg × Except OperationError InferenceExecutionResult :=
  match sc.execution.selected with
  | none =>
    ({ tables := T }, .ok
      { outcome := .notRouted
        response := { ok := false, error := some sc.execution.notRouted } })
  | some provider =>
    match sc.cached cache provider with
    | some entry =>
      ({ tables := T }, .ok
        { outcome := .cacheHit
          response := { ok := true, content := entry.content, provider := entry.provider } })
    | none =>
      executeAndSettle sc.python (sc.ports none).toPorts (sc.routed provider)
        (sc.behaviour.response provider) .stored { tables := T }

/-- `StreamingCoordinator.open`. -/
def openSession : StreamWorld pg × Except OperationError StreamSession :=
  let w := StreamWorld.start T sc.behaviour.events
  match sc.execution.selected with
  | none => (w, .ok { outcome := .notRouted, error := some sc.execution.notRouted })
  | some provider =>
    openStream sc.python (sc.ports (sc.cached cache provider)) (sc.routed provider) w

/-- A unary call succeeded: it returned an ok response. -/
def responded : Except OperationError InferenceExecutionResult → Bool
  | .ok result => result.response.ok
  | .error _ => false

/-- The session opened and drained, within `n` pulls. -/
def stream (n : Nat) : Option (World pg × Bool) :=
  match sc.execution.selected with
  | none => some ((sc.openSession cache T).1.ledger, false)
  | some provider =>
    match sc.openSession cache T with
    | (w, .error _) => some (w.ledger, false)
    | (w, .ok session) =>
      match session.events with
      | none => some (w.ledger, false)
      | some events =>
        ((deliver sc.python (sc.ports (sc.cached cache provider)) (sc.routed provider)).drain n
          events w).map fun drained => (drained.1.ledger, succeeded drained.2.1 drained.2.2)

section Effects
variable [DecidableEq κ]

/-- The cache after the writes of the call. -/
def stored (puts : List CachedResponse) : InMemoryResponseCache κ :=
  match sc.execution.selected with
  | none => cache.toInMemoryResponseCache
  | some provider =>
    puts.foldl (fun c response => c.put sc.ttl sc.putAt sc.org (sc.cacheKey provider) response)
      cache.toInMemoryResponseCache

def effects (w : World pg) (success : Bool) : Effects κ where
  status := statusOf w.tables.rows sc.key
  totals := (w.tables.rows .orgBudget sc.org).map fun b => (b.reserved, b.spent)
  observed := w.observed
  cache := (sc.stored cache w.puts).store
  success := success

/-- The effects of the unary call. -/
def unary : Effects κ := sc.effects cache (sc.execute cache T).1 (responded (sc.execute cache T).2)

/-- The effects of the drained session. -/
def Streams (effects : Effects κ) : Prop :=
  ∃ n drained, sc.stream cache T n = some drained ∧ effects = sc.effects cache drained.1 drained.2

end Effects

/-- What the sweep and the reserve of the call leave in the ledger, and the reserve's answer. -/
def held (estimatedCost : Money) : Tables (schema pg) × Answer :=
  (ledger pg).serve
    ((ledger pg).serve T sc.reclaimAt (.reconcileExpired sc.org sc.cutoff)).1 sc.reserveAt
    (.reserve sc.org sc.request.correlationId estimatedCost)

/-- The provider is called: the request is routed, misses the cache, has a price and an estimate,
and the ledger permits it. -/
def Called (provider : ProviderDescriptor) (p : ModelPrice) (estimatedCost : Money) : Prop :=
  sc.execution.selected = some provider ∧ sc.cached cache provider = none ∧ sc.price = some p ∧
    (∃ i o, computeCost sc.python (estimateUsage sc.request.payloadChars) p =
      .ok (i, o, estimatedCost)) ∧
    ∃ r : ReservationResult, (sc.held T estimatedCost).2 = .ok (.reservation r) ∧ r.permitted = true

/-- Usage that a cost can be computed from. -/
def Accountable (usage : ProviderUsage) : Prop :=
  0 ≤ usage.promptTokens ∧ 0 ≤ usage.completionTokens

/-- A live hold that could be released and cannot be settled: its cost cannot be computed, is in
another currency than the hold, or does not fit the ledger's columns. -/
def Strands (provider : ProviderDescriptor) (p : ModelPrice) (usage : ProviderUsage) : Prop :=
  ∃ row, T.rows .budgetReservation sc.key = some row ∧ row.status = .reserved ∧
    releaseFits T.rows sc.releaseAt sc.key row = true ∧
    ∀ i o t, computeCost sc.python usage p = .ok (i, o, t) →
      t.currency ≠ row.currency ∨ settlementFits T.rows sc.settleAt sc.key row ⟨provider.name,
        provider.model, usage.promptTokens, usage.completionTokens, i, o, t⟩ = false

/-- The provider is called, completes with usage that can be accounted for, and its hold is
stranded when the settlement comes. -/
def Stranded : Prop :=
  ∃ provider p estimatedCost, sc.Called cache T provider p estimatedCost ∧
    ∃ chunks usage, sc.behaviour = .completes chunks (some usage) ∧ Accountable usage ∧
      sc.Strands (sc.held T estimatedCost).1 provider p usage

/-- The world a drained session leaves, and whether it was a success. -/
def streamed : World pg × Bool :=
  match sc.execution.selected with
  | none => ({ tables := T }, false)
  | some provider =>
    match sc.cached cache provider with
    | some _ => ({ tables := T }, true)
    | none =>
      match reserve sc.python (sc.ports none).toPorts (sc.routed provider) { tables := T } with
      | (l, .error _) => (l, false)
      | (l, .ok reservation) =>
        if reservation.permitted then
          finish sc.python (sc.ports none) (sc.routed provider) sc.behaviour l
        else (l, false)

variable {sc cache T}

theorem stream_unique {m n : Nat} {r r' : World pg × Bool} (h : sc.stream cache T m = some r)
    (h' : sc.stream cache T n = some r') : r = r' := by
  unfold stream at h h'
  cases hsel : sc.execution.selected with
  | none =>
    rw [hsel] at h h'
    exact Option.some.inj (h.symm.trans h')
  | some provider =>
    rw [hsel] at h h'
    dsimp only at h h'
    rcases ho : sc.openSession cache T with ⟨w, e | session⟩
    · rw [ho] at h h'
      exact Option.some.inj (h.symm.trans h')
    · rw [ho] at h h'
      dsimp only at h h'
      cases he : session.events with
      | none =>
        rw [he] at h h'
        exact Option.some.inj (h.symm.trans h')
      | some events =>
        rw [he] at h h'
        obtain ⟨d, hd, rfl⟩ := Option.map_eq_some_iff.mp h
        obtain ⟨d', hd', rfl⟩ := Option.map_eq_some_iff.mp h'
        rw [drain_unique hd hd']

/-- A hit is always text. -/
private theorem cached_text {provider : ProviderDescriptor} {entry : CachedResponse}
    (h : sc.cached cache provider = some entry) : ∃ text, entry.content = some (.text text) := by
  unfold cached InMemoryResponseCache.get at h
  split at h
  · cases h
  · rename_i stored hs
    split at h
    · cases h
    · cases h
      exact cache.text _ _ hs

private theorem stream_hit {provider : ProviderDescriptor} {entry : CachedResponse}
    (hsel : sc.execution.selected = some provider) (hc : sc.cached cache provider = some entry) :
    sc.stream cache T 2 = some ({ tables := T }, true) := by
  obtain ⟨text, ht⟩ := cached_text hc
  have hopen : sc.openSession cache T = (StreamWorld.start T sc.behaviour.events,
      .ok { outcome := .cacheHit, events := some (.unstarted (.replay text)) }) := by
    have hr : replayable (sc.ports (some entry)) = some text := by
      obtain ⟨provider', model, content⟩ := entry
      obtain rfl : content = some (.text text) := ht
      rfl
    simp only [openSession, hsel, hc, openStream, hr]
  simp only [stream, hsel, hopen]
  rfl

variable (sc cache T) in
theorem stream_eq_streamed : ∃ n, sc.stream cache T n = some (sc.streamed cache T) := by
  cases hsel : sc.execution.selected with
  | none => exact ⟨0, by simp only [stream, streamed, openSession, hsel]; rfl⟩
  | some provider =>
    cases hc : sc.cached cache provider with
    | some entry => exact ⟨2, by rw [stream_hit hsel hc]; simp only [streamed, hsel, hc]⟩
    | none =>
      have hr : replayable (sc.ports none) = none := rfl
      simp only [stream, streamed, openSession, hsel, hc, openStream, hr, StreamWorld.start]
      rcases reserve sc.python (sc.ports none).toPorts (sc.routed provider) { tables := T } with
        ⟨l, e | reservation⟩
      · refine ⟨0, ?_⟩
        cases e with
        | cost e => cases hd : e.accountingDefect <;> simp [hd]
        | ledger e => rfl
        | cachePut => rfl
      · cases ho : reservation.outcome with
        | unavailable => exact ⟨0, by simp [ho, ReservationResult.permitted]⟩
        | exceeded => exact ⟨0, by simp [ho, ReservationResult.permitted]⟩
        | reserved =>
          have hp : reservation.permitted = true := by simp [ho, ReservationResult.permitted]
          rcases openProvider_finishes sc.python (sc.routed provider)
            (w := ⟨l, ⟨sc.behaviour.events, false⟩, .unstarted ()⟩)
            (show (sc.ports none).put = .stored from rfl) sc.behaviour ⟨rfl, by simp⟩ with ⟨hn, hl, hf⟩ | ⟨events, he, n, d, hd, hl, hf⟩
          · refine ⟨0, ?_⟩
            simp only [ho, hn, hl, hp, if_true]
            exact congrArg some (Prod.ext rfl hf.symm)
          · refine ⟨n, ?_⟩
            simp only [ho, he, hd, Option.map_some, hl, hf, hp, if_true]

/-- A refused settlement leaves the rows as they were. -/
private theorem settle_error_rows {w : World pg} {provider : ProviderDescriptor}
    {usage : Option ProviderUsage} {l : World pg} {e : OperationError}
    (h : settle sc.python (sc.ports none).toPorts (sc.routed provider) usage w = (l, .error e)) :
    l.tables.rows = w.tables.rows := by
  unfold settle at h
  split at h
  · cases h
    rfl
  · rename_i detail _
    obtain ⟨rfl, he⟩ := Prod.mk.inj h
    cases ha : ((ledger pg).serve w.tables sc.settleAt
      (.settle sc.org sc.request.correlationId detail)).2 with
    | error e => exact serve_settle_error ha
    | ok reply =>
      have hok : raised detail ((ledger pg).serve w.tables sc.settleAt
        (.settle sc.org sc.request.correlationId detail)).2 = .error e := he
      rw [ha] at hok
      cases hok

/-- What the unary call does after the provider's response. -/
def concluded (sc : Scenario κ) (provider : ProviderDescriptor) (l : World pg) : World pg × Bool :=
  let response := sc.behaviour.response provider
  let result := conclude sc.python (sc.ports none).toPorts (sc.routed provider) response .stored
    (l.observe ⟨response.ok, response.errorCategory⟩)
  (result.1, responded result.2)

private theorem account_accountable {usage : ProviderUsage} {provider : ProviderDescriptor}
    {p : ModelPrice} (hp : sc.price = some p) (h : Accountable usage) :
    account sc.python (some usage) provider sc.lookup =
      (computeCost sc.python usage p).map fun costs => ⟨provider.name, provider.model,
        usage.promptTokens, usage.completionTokens, costs.1, costs.2.1, costs.2.2⟩ := by
  have hn : ¬ (usage.promptTokens < 0 ∨ usage.completionTokens < 0) := by
    have := h.1
    have := h.2
    omega
  simp only [account, lookup, hp, if_neg hn]
  cases computeCost sc.python usage p <;> rfl

private theorem account_unaccountable {usage : ProviderUsage} {provider : ProviderDescriptor}
    (h : ¬ Accountable usage) :
    account sc.python (some usage) provider sc.lookup = .error .malformedUsage := by
  have hn : usage.promptTokens < 0 ∨ usage.completionTokens < 0 := by
    unfold Accountable at h
    omega
  simp only [account, if_pos hn]

/-- What a settlement of accountable usage raises is no accounting defect. -/
private theorem settle_error_not_defect {usage : ProviderUsage} {provider : ProviderDescriptor}
    {p : ModelPrice} (hp : sc.price = some p) (h : Accountable usage) {w l : World pg} {e : CostError}
    (hs : settle sc.python (sc.ports none).toPorts (sc.routed provider) (some usage) w =
      (l, .error (.cost e))) : e.accountingDefect = false := by
  unfold settle at hs
  rw [show (sc.ports none).priceAfter = sc.lookup from rfl, account_accountable hp h] at hs
  cases hc : computeCost sc.python usage p with
  | error e' =>
    rw [hc] at hs
    cases hs
    exact computeCost_not_defect hc
  | ok costs =>
    rw [hc] at hs
    have he := congrArg Prod.snd hs
    dsimp only [Except.map] at he
    unfold raised at he
    split at he <;> cases he

/-- Both paths do the same after the provider, unless a settlement of accountable usage fails: then
only the stream releases. -/
private theorem concluded_cases (provider : ProviderDescriptor) {p : ModelPrice}
    (hp : sc.price = some p) (l : World pg) :
    (sc.concluded provider l = finish sc.python (sc.ports none) (sc.routed provider) sc.behaviour l ∧
      ∀ chunks usage, sc.behaviour = .completes chunks (some usage) → Accountable usage →
        ∃ record, (settle sc.python (sc.ports none).toPorts (sc.routed provider) (some usage)
          (l.observe ⟨true, none⟩)).2 = .ok record) ∨
    ∃ chunks usage l' e, sc.behaviour = .completes chunks (some usage) ∧ Accountable usage ∧
      settle sc.python (sc.ports none).toPorts (sc.routed provider) (some usage)
        (l.observe ⟨true, none⟩) = (l', .error e) ∧
      sc.concluded provider l = (l', false) ∧
      finish sc.python (sc.ports none) (sc.routed provider) sc.behaviour l =
        ((release (sc.ports none).toPorts (sc.routed provider) l').1, false) := by
  have unanswered {r : Except OperationError Unit} {result : InferenceExecutionResult}
      (hr : result.response.ok = false) : responded (r.map fun _ => result) = false := by
    cases r with
    | error e => rfl
    | ok _ => exact hr
  cases hb : sc.behaviour with
  | fails chunks failure =>
    refine .inl ⟨?_, fun _ _ he => by cases he⟩
    simp only [concluded, hb, ProviderBehaviour.response, conclude, finish, Bool.not_false, if_true]
    rw [unanswered rfl]
  | completes chunks usage =>
    cases usage with
    | none =>
      refine .inl ⟨?_, fun _ _ he => by cases he⟩
      simp only [concluded, hb, ProviderBehaviour.response, conclude, finish, settle, account,
        CostError.accountingDefect, Bool.not_true, Bool.false_eq_true, if_false, if_true]
      rw [unanswered rfl]
    | some usage =>
      by_cases ha : Accountable usage
      · rcases hs : settle sc.python (sc.ports none).toPorts (sc.routed provider) (some usage)
          (l.observe ⟨true, none⟩) with ⟨l', e | record⟩
        · refine .inr ⟨chunks, usage, l', e, rfl, ha, hs, ?_, by simp only [finish, hs]⟩
          simp only [concluded, hb, ProviderBehaviour.response, conclude, hs, Bool.not_true,
            Bool.false_eq_true, if_false]
          cases e with
          | cost e =>
            simp only [settle_error_not_defect hp ha hs, Bool.false_eq_true, if_false]
            rfl
          | ledger e => rfl
          | cachePut => rfl
        · refine .inl ⟨?_, ?_⟩
          · simp only [concluded, hb, ProviderBehaviour.response, conclude, finish, hs, Bool.not_true,
              Bool.false_eq_true, if_false]
            rfl
          · rintro _ _ ⟨⟩ _
            exact ⟨record, by rw [hs]⟩
      · refine .inl ⟨?_, ?_⟩
        · simp only [concluded, hb, ProviderBehaviour.response, conclude, finish, settle,
            account_unaccountable ha, show (sc.ports none).priceAfter = sc.lookup from rfl,
            CostError.accountingDefect, Bool.not_true, Bool.false_eq_true, if_false, if_true]
          rw [unanswered rfl]
        · rintro _ _ ⟨⟩ ha'
          exact absurd ha' ha

/-- A live hold is settled exactly when its cost can be had, is in its currency and fits. -/
private theorem settle_ok_iff {usage : ProviderUsage} (provider : ProviderDescriptor)
    {p : ModelPrice} (hp : sc.price = some p) (h : Accountable usage) {w : World pg}
    {row : BudgetReservation} (hr : w.tables.rows .budgetReservation sc.key = some row)
    (hl : row.status = .reserved) :
    (∃ record, (settle sc.python (sc.ports none).toPorts (sc.routed provider) (some usage) w).2 =
      .ok record) ↔
    ∃ i o t, computeCost sc.python usage p = .ok (i, o, t) ∧ t.currency = row.currency ∧
      settlementFits w.tables.rows sc.settleAt sc.key row ⟨provider.name, provider.model,
        usage.promptTokens, usage.completionTokens, i, o, t⟩ = true := by
  unfold settle
  rw [show (sc.ports none).priceAfter = sc.lookup from rfl, account_accountable hp h]
  cases hc : computeCost sc.python usage p with
  | error e => simp [Except.map]
  | ok costs =>
    obtain ⟨i, o, t⟩ := costs
    have answered (d : SettlementDetail) (answer : Answer) :
        (∃ record, raised d answer = .ok record) ↔ ∃ reply, answer = .ok reply := by
      cases answer <;> simp [raised]
    refine (answered _ _).trans ((serve_settle_ok_iff sc.settleAt hr hl _).trans ?_)
    constructor
    · rintro ⟨hcur, hfits⟩
      exact ⟨i, o, t, rfl, hcur, hfits⟩
    · rintro ⟨_, _, _, ⟨⟩, hcur, hfits⟩
      exact ⟨hcur, hfits⟩

/-- The reserve of the call, over what its sweep and its reserve leave in the ledger. -/
private theorem reserve_held (provider : ProviderDescriptor) {p : ModelPrice} {i o estimatedCost}
    (hp : sc.price = some p)
    (he : computeCost sc.python (estimateUsage sc.request.payloadChars) p = .ok (i, o, estimatedCost)) :
    (reserve sc.python (sc.ports none).toPorts (sc.routed provider) { tables := T }).1.tables =
        (sc.held T estimatedCost).1 ∧
      (reserve sc.python (sc.ports none).toPorts (sc.routed provider) { tables := T }).2 =
        reservationOf (sc.routed provider) estimatedCost (sc.held T estimatedCost).2 := by
  have hb : (sc.ports none).priceBefore = .price p := by simp [ports, lookup, hp]
  unfold reserve
  rw [hb]
  simp only [show (sc.routed provider).payloadChars = sc.request.payloadChars from rfl, he]
  exact ⟨rfl, rfl⟩

/-- A permitted reservation has a price, an estimate and a row of the ledger behind it. -/
private theorem called_of_permitted {provider : ProviderDescriptor} {l : World pg}
    {reservation : ReservationResult} (hsel : sc.execution.selected = some provider)
    (hc : sc.cached cache provider = none)
    (hr : reserve sc.python (sc.ports none).toPorts (sc.routed provider) { tables := T } =
      (l, .ok reservation)) (hperm : reservation.permitted = true) :
    ∃ p estimatedCost, sc.Called cache T provider p estimatedCost ∧
      l.tables = (sc.held T estimatedCost).1 := by
  cases hp : sc.price with
  | none => simp [reserve, ports, lookup, hp] at hr
  | some p =>
    cases he : computeCost sc.python (estimateUsage sc.request.payloadChars) p with
    | error e =>
      simp [reserve, ports, lookup, hp, show (sc.routed provider).payloadChars =
        sc.request.payloadChars from rfl, he] at hr
    | ok costs =>
      obtain ⟨i, o, estimatedCost⟩ := costs
      obtain ⟨ht, ha⟩ := reserve_held (T := T) provider hp he
      rw [hr] at ht ha
      refine ⟨p, estimatedCost, ⟨hsel, hc, hp, ⟨i, o, he⟩, ?_⟩, ht⟩
      replace ha : reservationOf (sc.routed provider) estimatedCost (sc.held T estimatedCost).2 =
        .ok reservation := ha.symm
      unfold reservationOf at ha
      split at ha
      next r answer =>
        cases ha
        exact ⟨_, answer, hperm⟩
      next =>
        cases ha
        simp [ReservationResult.permitted] at hperm
      next => cases ha
      next => cases ha

private theorem permitted_of_called {provider : ProviderDescriptor} {p : ModelPrice}
    {estimatedCost : Money} (h : sc.Called cache T provider p estimatedCost) :
    ∃ reservation, reservation.permitted = true ∧
      (reserve sc.python (sc.ports none).toPorts (sc.routed provider) { tables := T }).2 =
        .ok reservation := by
  obtain ⟨_, _, hp, ⟨i, o, he⟩, r, answer, hperm⟩ := h
  refine ⟨r, hperm, (reserve_held _ hp he).2.trans ?_⟩
  rw [answer]
  rfl

private theorem stranded_iff {provider : ProviderDescriptor} {p : ModelPrice} {estimatedCost : Money}
    (h : sc.Called cache T provider p estimatedCost) :
    sc.Stranded cache T ↔ ∃ chunks usage, sc.behaviour = .completes chunks (some usage) ∧
      Accountable usage ∧ sc.Strands (sc.held T estimatedCost).1 provider p usage := by
  refine ⟨?_, fun hs => ⟨provider, p, estimatedCost, h, hs⟩⟩
  rintro ⟨provider', p', estimatedCost', ⟨hsel, _, hp, ⟨i, o, he⟩, _⟩, hs⟩
  obtain ⟨hsel₀, _, hp₀, ⟨i₀, o₀, he₀⟩, _⟩ := h
  cases hsel.symm.trans hsel₀
  cases hp.symm.trans hp₀
  cases he.symm.trans he₀
  exact hs

section Compare
variable [DecidableEq κ]

private theorem effects_congr {w w' : World pg} {success : Bool}
    (hr : w.tables.rows = w'.tables.rows) (ho : w.observed = w'.observed) (hp : w.puts = w'.puts) :
    sc.effects cache w success = sc.effects cache w' success := by
  simp only [effects, hr, ho, hp]

private theorem compare_iff (provider : ProviderDescriptor) {p : ModelPrice}
    (hp : sc.price = some p) (l : World pg) :
    sc.effects cache
        (finish sc.python (sc.ports none) (sc.routed provider) sc.behaviour l).1
        (finish sc.python (sc.ports none) (sc.routed provider) sc.behaviour l).2 =
      sc.effects cache (sc.concluded provider l).1 (sc.concluded provider l).2 ↔
    ¬ ∃ chunks usage, sc.behaviour = .completes chunks (some usage) ∧ Accountable usage ∧
      sc.Strands l.tables provider p usage := by
  have settles {usage : ProviderUsage} (ha : Accountable usage) {row : BudgetReservation}
      (hr : l.tables.rows .budgetReservation sc.key = some row) (hl : row.status = .reserved) :=
    settle_ok_iff provider (w := l.observe ⟨true, none⟩) hp ha hr hl
  rcases concluded_cases provider hp l with
    ⟨same, settled⟩ | ⟨chunks, usage, l', e, hb, ha, hs, hu, hf⟩
  · rw [same]
    refine iff_of_true rfl ?_
    rintro ⟨chunks, usage, hb, ha, row, hr, hl, _, refused⟩
    obtain ⟨i, o, t, hc, hcur, hfits⟩ := (settles ha hr hl).mp (settled chunks usage hb ha)
    rcases refused i o t hc with h | h
    · exact h hcur
    · cases h.symm.trans hfits
  · have hsame : l'.tables.rows = (l.observe ⟨true, none⟩).tables.rows := settle_error_rows hs
    change l'.tables.rows = l.tables.rows at hsame
    rw [hu, hf]
    by_cases hl : ∃ row, l.tables.rows .budgetReservation sc.key = some row ∧
        row.status = .reserved ∧ releaseFits l.tables.rows sc.releaseAt sc.key row = true
    · obtain ⟨row, hr, hlive, hfits⟩ := hl
      refine iff_of_false (fun he => ?_)
        (not_not_intro ⟨chunks, usage, hb, ha, row, hr, hlive, hfits, fun i o t hc => ?_⟩)
      · have hst : statusOf (release (sc.ports none).toPorts (sc.routed provider) l').1.tables.rows
            sc.key = statusOf l'.tables.rows sc.key := congrArg Effects.status he
        rw [← hsame] at hr hfits
        cases ((serve_release_fits sc.releaseAt hr hlive hfits).symm.trans hst).trans
          (live_iff_statusOf.mp ⟨row, hr, hlive⟩)
      · by_contra hn
        push Not at hn
        obtain ⟨record, hok⟩ := (settles ha hr hlive).mpr ⟨i, o, t, hc, hn.1,
          (Bool.not_eq_false _).mp hn.2⟩
        rw [hs] at hok
        cases hok
    · refine iff_of_true (effects_congr (serve_release_keeps fun row hr hlive => ?_) rfl rfl) ?_
      · by_contra hfits
        rw [hsame] at hr hfits
        exact hl ⟨row, hr, hlive, (Bool.not_eq_false _).mp hfits⟩
      · rintro ⟨_, _, _, _, row, hr, hlive, hfits, _⟩
        exact hl ⟨row, hr, hlive, hfits⟩

end Compare

/-- A call priced in USD under an id that holds an estimate in EUR. -/
def repriced : Scenario String where
  python := asciiStr
  sha256 := id
  ttl := 3600
  lookupAt := 10
  cutoff := 0
  reclaimAt := 10
  reserveAt := 10
  settleAt := 12
  releaseAt := 12
  putAt := 12
  price := some ⟨1 / 100, 3 / 100, "USD"⟩
  execution := ⟨1, .selected, some ⟨"openai", "gpt-4o"⟩⟩
  request := ⟨"x", "payload", 40⟩
  behaviour := .completes ["an", "swer"] (some ⟨9, 4⟩)

def noEntries : TextCache String where
  store _ := none
  text _ _ h := by cases h

def heldInEuros : Tables (schema contended) :=
  ((ledger contended).serve noRows 5 (.reserve 1 "x" ⟨40000, "EUR"⟩)).1

end Scenario
end LlmGateway.Streaming
