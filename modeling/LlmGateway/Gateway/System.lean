import LlmGateway.Execution.Operation
import LlmGateway.Streaming.Coordinator

/-! One organization's requests in one process: callers of `InferenceCoordinator.execute` and of
`StreamingCoordinator.open`, the operations they start or join, the response cache, and the ledger
whose transactions all of them share. A step is what runs between two awaits, or one statement of
a ledger transaction. -/
namespace LlmGateway.Gateway
open Lib.ReadCommitted Ledger Accounting Execution
open Ledger.Sql hiding reserve settle release

/-- What a request asks for: the routed provider and model, whose names are PostgreSQL text, and
the payload by its canonical JSON. -/
structure Asked where
  provider : ProviderDescriptor
  payload : String
  nulFree : '\x00' ∉ provider.name.toList ∧ '\x00' ∉ provider.model.toList
  deriving DecidableEq

structure InferenceRequest where
  correlationId : CorrelationId
  asked : Asked
  payloadChars : Nat
  deriving DecidableEq

/-- How an operation ends: with a completion that was settled, with any other result, or by
raising. -/
inductive Ending where
  | delivered (response : ProviderResponse) (price : PriceLookup) (detail : SettlementDetail)
  | refused (result : InferenceExecutionResult)
  | raised (e : OperationError)
  deriving DecidableEq

/-- What the operation is waiting for. -/
inductive Phase where
  | scheduled
  | reclaiming
  | reserving (estimatedCost : Money)
  | calling (buffered : List String)
  | settling (response : ProviderResponse) (price : PriceLookup) (detail : SettlementDetail)
  | releasing (ending : Ending)
  | storing (response : ProviderResponse) (price : PriceLookup) (detail : SettlementDetail)
  | ended (ending : Ending)
  deriving DecidableEq

/-- An operation: `_execute_and_settle`, or `open` and `_deliver` of a drained stream. -/
structure Operation where
  request : InferenceRequest
  streamed : Bool
  phase : Phase
  deriving DecidableEq

abbrev OpId := Nat

/-- The ledger calls an operation makes, each at most once. -/
inductive LedgerUse where
  | reclaim
  | reserve
  | settle
  | release
  deriving DecidableEq, Repr

/-- The transaction an operation makes one of them in. -/
def txn (o : Nat) : LedgerUse → Nat
  | .reclaim => 4 * o
  | .reserve => 4 * o + 1
  | .settle => 4 * o + 2
  | .release => 4 * o + 3

/-- What the world answers an operation with. -/
inductive Event where
  | start (cutoff : Timestamp)
  | reclaimed (price : PriceLookup)
  | reserved
  | chunk (content : String)
  | respond (response : ProviderResponse) (price : PriceLookup)
  | settled
  | released
  | stored (available : Bool)
  deriving DecidableEq

/-- What an operation does on an event: where it goes on waiting, the ledger call it makes, the
provider's response it has received and the cache entry it writes. -/
structure Move where
  phase : Phase
  call : Option (LedgerUse × Call) := none
  produced : Option ProviderResponse := none
  stores : Option CachedResponse := none

/-- The organization, the `str` predicates and the digest of the deployment. -/
structure Setting (κ : Type) where
  org : OrgId
  python : PythonStr
  sha256 : String → κ

section Operation
variable {κ : Type} (env : Setting κ) (op : Operation)

def Operation.routed : RoutedRequest :=
  ⟨env.org, op.request.correlationId, op.request.asked.provider, op.request.payloadChars⟩

def Operation.releaseTo (ending : Ending) : Move where
  phase := .releasing ending
  call := some (.release, .release env.org op.request.correlationId)

/-- After the sweep: the price lookup, the estimate and the reserve. -/
def Operation.estimate (price : PriceLookup) : Move :=
  match price with
  | .unavailable => { phase := .ended (.raised (.cost .priceTableUnavailable)) }
  | .unpriced => { phase := .ended (.refused notAccountable) }
  | .price p =>
    match computeCost env.python (estimateUsage op.request.payloadChars) p with
    | .error e =>
      { phase := .ended (if e.accountingDefect then .refused notAccountable
          else .raised (.cost e)) }
    | .ok (_, _, estimatedCost) =>
      { phase := .reserving estimatedCost
        call := some (.reserve, .reserve env.org op.request.correlationId estimatedCost) }

/-- What becomes of the answer to the reserve. -/
def Operation.afterReserve (estimatedCost : Money) (answer : Answer) : Move :=
  match reservationOf (op.routed env) estimatedCost answer with
  | .error e => { phase := .ended (.raised e) }
  | .ok reservation =>
    { phase := if reservation.permitted then .calling [] else .ended (.refused (denied reservation)) }

/-- The response as `_complete` builds it from a stream's chunks. -/
def Operation.completed (buffered : List String) (response : ProviderResponse) : ProviderResponse :=
  if op.streamed ∧ response.ok then
    { response with
      content := some (.text (String.join buffered)), provider := op.request.asked.provider.name }
  else response

/-- What the caller of a completion that cannot be accounted for gets. -/
def Operation.unaccounted (response : ProviderResponse) : InferenceExecutionResult :=
  let failed (failure : Streaming.StreamFailed) : InferenceExecutionResult :=
    { outcome := .executed, response := { ok := false, error := some failure.error } }
  if !op.streamed then notAccountable
  else if response.usage = none then failed Streaming.noUsage
  else failed Streaming.unaccountable

/-- After the provider: settle what can be accounted for, release the rest. A stream that raises
gives its hold back on the way out. -/
def Operation.accountFor (response : ProviderResponse) (price : PriceLookup) : Move :=
  if !response.ok then op.releaseTo env (.refused { outcome := .executed, response := response })
  else
    match account env.python response.usage op.request.asked.provider price with
    | .ok detail =>
      { phase := .settling response price detail
        call := some (.settle, .settle env.org op.request.correlationId detail) }
    | .error e =>
      if e.accountingDefect then op.releaseTo env (.refused (op.unaccounted response))
      else if op.streamed then op.releaseTo env (.raised (.cost e))
      else { phase := .ended (.raised (.cost e)) }

/-- What becomes of the answer to the settlement. -/
def Operation.afterSettle (response : ProviderResponse) (price : PriceLookup)
    (detail : SettlementDetail) (answer : Answer) : Move :=
  match answer with
  | .ok _ => { phase := .storing response price detail }
  | .error e =>
    if !op.streamed then { phase := .ended (.raised (.ledger e)) }
    else if Streaming.settlementHandled (.ledger e) then
      op.releaseTo env (.refused (op.unaccounted response))
    else op.releaseTo env (.raised (.ledger e))

/-- A release that raises fails a unary operation; a stream swallows it. -/
def Operation.afterRelease (ending : Ending) (answer : Answer) : Move :=
  match answer with
  | .ok _ => { phase := .ended ending }
  | .error e => { phase := .ended (if op.streamed then ending else .raised (.ledger e)) }

/-- One step of an operation; `none` when the event does not concern its phase. `answers` are the
ledger's answers to its calls so far. -/
def Operation.move (answers : LedgerUse → Option Answer) (event : Event) : Option Move :=
  match op.phase, event with
  | .scheduled, .start cutoff =>
    some { phase := .reclaiming, call := some (.reclaim, .reconcileExpired env.org cutoff) }
  | .reclaiming, .reclaimed price => (answers .reclaim).map fun _ => op.estimate env price
  | .reserving estimatedCost, .reserved => (answers .reserve).map (op.afterReserve env estimatedCost)
  | .calling buffered, .chunk content =>
    if op.streamed then some { phase := .calling (buffered ++ [content]) } else none
  | .calling buffered, .respond response price =>
    some { op.accountFor env (op.completed buffered response) price with
      produced := some (op.completed buffered response) }
  | .settling response price detail, .settled =>
    (answers .settle).map (op.afterSettle env response price detail)
  | .releasing ending, .released => (answers .release).map (op.afterRelease ending)
  | .storing response price detail, .stored available =>
    some { phase := .ended (.delivered response price detail)
           stores := if available then
               some ⟨response.provider, op.request.asked.provider.model, response.content⟩
             else none }
  | _, _ => none

end Operation

/-- A cache entry, with the request it was stored for. -/
structure Entry where
  response : CachedResponse
  asked : Asked
  deriving DecidableEq

/-- Where a caller's result came from. -/
inductive Source where
  | cache (entry : Entry)
  | operation (o : OpId)
  deriving DecidableEq

inductive Waiting where
  | looking
  | awaiting (o : OpId)
  | returned (source : Source)
  deriving DecidableEq

structure Caller where
  request : InferenceRequest
  streamed : Bool
  waiting : Waiting
  deriving DecidableEq

abbrev CallId := Nat

abbrev LedgerState (pg : Postgres) := System (schema pg) LockKey Call Answer

/-- `produced` lists what providers returned, with what they had been asked. -/
structure State (pg : Postgres) (κ : Type) where
  ledger : LedgerState pg
  cache : κ → Option Entry
  inFlight : CorrelationId → Option OpId
  operations : List Operation
  callers : List Caller
  produced : List (Asked × ProviderResponse)

inductive Action (pg : Postgres) where
  | arrive (request : InferenceRequest) (streamed : Bool)
  | lookup (c : CallId) (available : Bool)
  | operate (o : OpId) (event : Event)
  | forget (o : OpId)
  | collect (c : CallId)
  | ledger (action : Lib.ReadCommitted.Action (schema pg) Call)
  | elsewhere (asked : Asked) (response : Option CachedResponse)

section Step
variable {pg : Postgres} {κ : Type} [DecidableEq κ] (env : Setting κ)

/-- `compute_cache_key`. -/
def computeCacheKey (asked : Asked) : κ :=
  env.sha256 (env.org.str ++ "\x00" ++ asked.provider.name ++ "\x00" ++ asked.provider.model ++
    "\x00" ++ asked.payload)

namespace State
variable (s : State pg κ)

/-- The ledger's answers to an operation's calls. -/
def answers (o : OpId) (use : LedgerUse) : Option Answer :=
  match s.ledger.sessions (txn o use) with
  | .finished _ answer => some answer
  | _ => none

/-- What a hit is: any entry for a unary request, a text entry for a stream. -/
def hit (caller : Caller) (available : Bool) : Option Entry :=
  if available then (s.cache (computeCacheKey env caller.request.asked)).filter fun entry =>
    !caller.streamed || (entry.response.content matches some (.text _))
  else none

def setWaiting (c : CallId) (waiting : Waiting) : State pg κ :=
  { s with callers := s.callers.modify c fun caller => { caller with waiting := waiting } }

/-- A new operation under way, and its caller awaiting it. -/
def launch (c : CallId) (caller : Caller) : State pg κ :=
  { s.setWaiting c (.awaiting s.operations.length) with
    operations := s.operations ++ [⟨caller.request, caller.streamed, .scheduled⟩] }

/-- `RequestDeduplicator.coalesce`: join the operation in flight under the id, or start one. -/
def coalesce (c : CallId) (caller : Caller) : State pg κ :=
  match s.inFlight caller.request.correlationId with
  | some o => s.setWaiting c (.awaiting o)
  | none =>
    { s.launch c caller with
      inFlight := Function.update s.inFlight caller.request.correlationId
        (some s.operations.length) }

/-- `InferenceCoordinator.execute` and `StreamingCoordinator.open`, when the cache has answered. -/
def afterLookup (c : CallId) (caller : Caller) (available : Bool) : State pg κ :=
  match s.hit env caller available with
  | some entry => s.setWaiting c (.returned (.cache entry))
  | none => if caller.streamed then s.launch c caller else s.coalesce c caller

/-- What an operation's move does to the rest. -/
def apply (o : OpId) (op : Operation) (move : Move) : Option (State pg κ) :=
  (match move.call with
    | none => some s.ledger
    | some (use, call) => s.ledger.step (Sql.ledger pg) (.begin (txn o use) call)).map fun ledger =>
  { s with
    ledger := ledger
    operations := s.operations.set o { op with phase := move.phase }
    produced := s.produced ++ (move.produced.map (op.request.asked, ·)).toList
    cache := match move.stores with
      | none => s.cache
      | some response => Function.update s.cache (computeCacheKey env op.request.asked)
          (some ⟨response, op.request.asked⟩) }

/-- One step; `none` when the action is not enabled. -/
def step : Action pg → Option (State pg κ)
  | .arrive request streamed =>
    some { s with callers := s.callers ++ [⟨request, streamed, .looking⟩] }
  | .lookup c available =>
    match s.callers[c]? with
    | some caller =>
      if caller.waiting = .looking then some (s.afterLookup env c caller available) else none
    | none => none
  | .operate o event =>
    match s.operations[o]? with
    | some op => (op.move env (s.answers o) event).bind (s.apply env o op)
    | none => none
  | .forget o =>
    match s.operations[o]? with
    | some ⟨request, _, .ended _⟩ =>
      if s.inFlight request.correlationId = some o then
        some { s with inFlight := Function.update s.inFlight request.correlationId none }
      else some s
    | _ => none
  | .collect c =>
    match s.callers[c]? with
    | some ⟨_, _, .awaiting o⟩ =>
      match s.operations[o]? with
      | some ⟨_, _, .ended _⟩ => some (s.setWaiting c (.returned (.operation o)))
      | _ => none
    | _ => none
  | .ledger (.begin _ _) => none
  | .ledger action => (s.ledger.step (Sql.ledger pg) action).map fun ledger => { s with ledger := ledger }
  | .elsewhere asked response =>
    some { s with cache := Function.update s.cache (computeCacheKey env asked)
                             (response.map (⟨·, asked⟩)) }

def run : State pg κ → List (Action pg) → Option (State pg κ)
  | s, [] => some s
  | s, a :: rest => (s.step env a).bind fun s' => run s' rest

/-- Every step of the run meets `C`, a condition on the state before it. -/
def Along (C : State pg κ → Action pg → Prop) : State pg κ → List (Action pg) → Prop
  | _, [] => True
  | s, a :: rest => C s a ∧ ∀ s', s.step env a = some s' → Along C s' rest

instance decidableAlong (C : State pg κ → Action pg → Prop) [∀ s a, Decidable (C s a)] :
    (s : State pg κ) → (as : List (Action pg)) → Decidable (s.Along env C as)
  | _, [] => .isTrue trivial
  | s, a :: rest =>
    have : Decidable (∀ s', s.step env a = some s' → s'.Along env C rest) :=
      match s.step env a with
      | none => .isTrue fun _ h => nomatch h
      | some s₁ =>
        have := decidableAlong C s₁ rest
        decidable_of_iff (s₁.Along env C rest) (by simp)
    inferInstanceAs (Decidable (C s a ∧ ∀ s', s.step env a = some s' → s'.Along env C rest))

end State

/-- `n` statements of one of an operation's transactions. -/
def statements (o : OpId) (use : LedgerUse) (n : Nat) : List (Action pg) :=
  (System.statements (txn o use) n).map .ledger

/-- No request yet, over given tables and a given cache. -/
def State.initial (T : Tables (schema pg)) (now : Timestamp) (cache : κ → Option Entry) :
    State pg κ :=
  ⟨.start T now, cache, fun _ => none, [], [], []⟩

end Step
end LlmGateway.Gateway
