import LlmGateway.Accounting.Cost
import LlmGateway.Ledger.SqlSerial

/-! `InferenceCoordinator._execute_and_settle` over `ReservationService`: one routed call, from
its reservation to its settlement, with every way its ports may answer. -/
namespace LlmGateway.Execution
open Lib.ReadCommitted Ledger Ledger.Sql Accounting

inductive ProviderErrorCategory where
  | timeout
  | rateLimited
  | serverError
  | invalidRequest
  | authentication
  deriving DecidableEq, Repr

/-- What a provider returns: text, or another value by its encoding. -/
inductive Content where
  | text (s : String)
  | json (encoded : String)
  deriving DecidableEq, Repr

structure ProviderResponse where
  ok : Bool
  content : Option Content := none
  error : Option String := none
  provider : String := ""
  usage : Option ProviderUsage := none
  errorCategory : Option ProviderErrorCategory := none
  deriving DecidableEq, Repr

/-- What the circuit breaker is told of a call. -/
structure ProviderCallResult where
  ok : Bool
  errorCategory : Option ProviderErrorCategory
  deriving DecidableEq, Repr

structure CachedResponse where
  provider : String
  model : String
  content : Option Content
  deriving DecidableEq, Repr

inductive ExecutionOutcome where
  | cacheHit
  | executed
  | notRouted
  | budgetDenied
  | budgetUnavailable
  | notAccountable
  deriving DecidableEq, Repr

structure InferenceExecutionResult where
  outcome : ExecutionOutcome
  response : ProviderResponse
  cost : Option SettlementDetail := none
  deriving DecidableEq, Repr

/-- What may escape the operation. -/
inductive OperationError where
  | cost (e : CostError)
  | ledger (e : LedgerError)
  | cachePut
  deriving DecidableEq, Repr

/-- The routed request: whose it is, its ledger identity, and what its estimate is made from. -/
structure RoutedRequest where
  organizationId : OrgId
  correlationId : CorrelationId
  provider : ProviderDescriptor
  payloadChars : Nat

/-- What the ports under `ReservationService` do for one operation: the sweep's cutoff, the clock
reading of each ledger call and whether the ledger is out when it is made, and both price
lookups. -/
structure Ports where
  cutoff : Timestamp
  reclaimAt : Timestamp
  reserveAt : Timestamp
  settleAt : Timestamp
  releaseAt : Timestamp
  reclaimOut : Bool
  reserveOut : Bool
  settleOut : Bool
  releaseOut : Bool
  priceBefore : PriceLookup
  priceAfter : PriceLookup

/-- How the cache takes a `put`. `_safe_put` swallows only the second. -/
inductive PutOutcome where
  | stored
  | unavailable
  | raises
  deriving DecidableEq, Repr

/-- The ledger's tables, and what the operation did so far: its ledger calls with their answers,
its reports to the circuit breaker, the cache entries it wrote. -/
structure World (pg : Postgres) where
  tables : Tables (schema pg)
  calls : List (Call × Answer) := []
  observed : List ProviderCallResult := []
  puts : List CachedResponse := []

variable {pg : Postgres}

/-- One ledger call. While the ledger is out it changes nothing. -/
def World.call (w : World pg) (now : Timestamp) (out : Bool) (c : Call) : World pg × Answer :=
  let (tables, answer) := if out then (w.tables, .error .ledgerUnavailable)
    else (ledger pg).serve w.tables now c
  ({ w with tables := tables, calls := w.calls ++ [(c, answer)] }, answer)

def World.observe (w : World pg) (result : ProviderCallResult) : World pg :=
  { w with observed := w.observed ++ [result] }

/-- `_safe_put`. -/
def World.safePut (w : World pg) (put : PutOutcome) (response : CachedResponse) :
    World pg × Except OperationError Unit :=
  match put with
  | .stored => ({ w with puts := w.puts ++ [response] }, .ok ())
  | .unavailable => (w, .ok ())
  | .raises => (w, .error .cachePut)

section
variable (py : PythonStr) (ports : Ports) (request : RoutedRequest)

/-- `ReservationReconciler.reclaim`: an outage is swallowed. -/
def reclaim (w : World pg) : World pg :=
  (w.call ports.reclaimAt ports.reclaimOut
    (.reconcileExpired request.organizationId ports.cutoff)).1

/-- The answer `ReservationService.reserve` makes of the ledger's. -/
def reservationOf (estimatedCost : Money) : Answer → Except OperationError ReservationResult
  | .ok (.reservation r) => .ok r
  | .error .ledgerUnavailable =>
    .ok ⟨.unavailable, request.organizationId, request.correlationId, estimatedCost, none⟩
  | .error e => .error (.ledger e)
  | .ok _ => .error (.ledger .unknownReservation)

/-- `ReservationService.reserve`. -/
def reserve (w : World pg) : World pg × Except OperationError ReservationResult :=
  let w := reclaim ports request w
  match ports.priceBefore with
  | .unavailable => (w, .error (.cost .priceTableUnavailable))
  | .unpriced => (w, .error (.cost .unknownPrice))
  | .price p =>
    match computeCost py (estimateUsage request.payloadChars) p with
    | .error e => (w, .error (.cost e))
    | .ok (_, _, estimatedCost) =>
      let (w, answer) := w.call ports.reserveAt ports.reserveOut
        (.reserve request.organizationId request.correlationId estimatedCost)
      (w, reservationOf request estimatedCost answer)

def raised {β : Type} (b : β) : Answer → Except OperationError β
  | .ok _ => .ok b
  | .error e => .error (.ledger e)

/-- `ReservationService.settle`. -/
def settle (usage : Option ProviderUsage) (w : World pg) :
    World pg × Except OperationError SettlementDetail :=
  match account py usage request.provider ports.priceAfter with
  | .error e => (w, .error (.cost e))
  | .ok detail =>
    let (w, answer) := w.call ports.settleAt ports.settleOut
      (.settle request.organizationId request.correlationId detail)
    (w, raised detail answer)

/-- `ReservationService.release`. -/
def release (w : World pg) : World pg × Except OperationError Unit :=
  let (w, answer) := w.call ports.releaseAt ports.releaseOut
    (.release request.organizationId request.correlationId)
  (w, raised () answer)

/-- A result without a provider call behind it. -/
def refused (outcome : ExecutionOutcome) (error : String) : InferenceExecutionResult :=
  { outcome := outcome, response := { ok := false, error := some error } }

def notAccountable : InferenceExecutionResult := refused .notAccountable "not_accountable"

def denied (r : ReservationResult) : InferenceExecutionResult :=
  match r.outcome with
  | .unavailable => refused .budgetUnavailable "budget_unavailable"
  | .exceeded => refused .budgetDenied "budget_exceeded"
  | .reserved => refused .budgetDenied "budget_reserved"

variable (response : ProviderResponse) (put : PutOutcome)

/-- After the provider's response: settle an ok one and cache it, release otherwise. -/
def conclude (w : World pg) :
    World pg × Except OperationError (InferenceExecutionResult) :=
  if !response.ok then
    let (w, released) := release ports request w
    (w, released.map fun _ => { outcome := .executed, response := response })
  else
    match settle py ports request response.usage w with
    | (w, .error (.cost e)) =>
      if e.accountingDefect then
        let (w, released) := release ports request w
        (w, released.map fun _ => notAccountable)
      else (w, .error (.cost e))
    | (w, .error e) => (w, .error e)
    | (w, .ok record) =>
      let (w, stored) := w.safePut put ⟨response.provider, request.provider.model, response.content⟩
      (w, stored.map fun _ => { outcome := .executed, response := response, cost := some record })

/-- `InferenceCoordinator._execute_and_settle`. -/
def executeAndSettle (w : World pg) :
    World pg × Except OperationError (InferenceExecutionResult) :=
  match reserve py ports request w with
  | (w, .error (.cost e)) =>
    if e.accountingDefect then (w, .ok notAccountable) else (w, .error (.cost e))
  | (w, .error e) => (w, .error e)
  | (w, .ok reservation) =>
    if !reservation.permitted then (w, .ok (denied reservation))
    else conclude py ports request response put (w.observe ⟨response.ok, response.errorCategory⟩)

end
end LlmGateway.Execution
