import LlmGateway.Execution.ResponseCache
import LlmGateway.Gateway.System

/-! Mixed traffic in one process: unary and streamed requests of any number of organizations over
one `InMemoryResponseCache` and one ledger, any of them cut short at any of its awaits. -/
namespace LlmGateway.Gateway
open Lib.ReadCommitted Ledger Accounting Execution
open Ledger.Sql hiding reserve settle release

/-- The process: its `str` predicates, its digest and the lifetime of its cache entries. -/
structure Deployment (κ : Type) where
  python : PythonStr
  sha256 : String → κ
  ttl : Timestamp

variable {κ : Type}

def Deployment.setting (d : Deployment κ) (org : OrgId) : Setting κ := ⟨org, d.python, d.sha256⟩

/-- The key of what an organization asks for. -/
def Deployment.key (d : Deployment κ) (org : OrgId) (asked : Asked) : κ :=
  Execution.computeCacheKey d.sha256 org asked.provider asked.payload

/-- What a provider's client hands over: the response to a unary call, the next event of a stream,
or that the stream has no more. -/
inductive ProviderOutput where
  | response (response : ProviderResponse)
  | event (event : Streaming.ProviderStreamEvent)
  | exhausted
  deriving DecidableEq

/-- What it means to the operation that waits for it. -/
def ProviderOutput.toEvent (price : PriceLookup) (streamed : Bool) (output : ProviderOutput) :
    Option Event :=
  let failed (failure : Streaming.StreamFailed) : Event :=
    .respond { ok := false, error := some failure.error,
               errorCategory := failure.errorCategory } price
  match streamed, output with
  | false, .response unary => some (.respond unary price)
  | true, .event (.chunk content) => some (.chunk content)
  | true, .event (.completed usage) => some (.respond { ok := true, usage := usage } price)
  | true, .event (.failed failure) => some (failed failure)
  | true, .exhausted => some (failed Streaming.malformedStream)
  | _, _ => none

/-- The event comes from a provider. -/
def Event.provided : Event → Bool
  | .chunk _ | .respond .. => true
  | _ => false

/-- An operation of one of the organizations, with everything its provider has sent it. It is
abandoned when its consumer left, its task was cancelled, or a client raised what nothing
handles. -/
structure TenantOperation where
  organizationId : OrgId
  operation : Operation
  outputs : List ProviderOutput := []
  abandoned : Bool := false
  deriving DecidableEq

/-- Nothing more will come of the operation. -/
def TenantOperation.over (t : TenantOperation) : Bool :=
  t.abandoned || t.operation.phase matches .ended _

/-- How far a caller is: a replayed entry comes with the operation that wrote it. -/
inductive Served where
  | looking
  | awaiting (o : OpId)
  | replayed (response : CachedResponse) (writer : OpId)
  | returned (o : OpId)
  deriving DecidableEq

structure TenantCaller where
  organizationId : OrgId
  request : InferenceRequest
  streamed : Bool
  served : Served
  deriving DecidableEq

/-- `writers` keeps, for every entry of the cache, the operation that wrote it. -/
structure Traffic (pg : Postgres) (κ : Type) where
  ledger : LedgerState pg
  cache : InMemoryResponseCache κ
  writers : OrgId × κ → OpId
  inFlight : OrgId × CorrelationId → Option OpId
  operations : List TenantOperation
  callers : List TenantCaller

inductive TrafficAction (pg : Postgres) where
  | arrive (organizationId : OrgId) (request : InferenceRequest) (streamed : Bool)
  | lookup (c : CallId) (available : Bool) (now : Timestamp)
  | operate (o : OpId) (event : Event) (now : Timestamp)
  | provide (o : OpId) (output : ProviderOutput) (price : PriceLookup)
  | abandon (o : OpId) (releases : Bool)
  | forget (o : OpId)
  | collect (c : CallId)
  | ledger (action : Lib.ReadCommitted.Action (schema pg) Call)

namespace Traffic
variable {pg : Postgres}

/-- The transactions of an operation's own ledger calls. -/
def ownTxn (o : OpId) (use : LedgerUse) : Nat := txn (2 * o) use

/-- The transaction of the release an abandoned stream makes on its way out. -/
def exitTxn (o : OpId) : Nat := txn (2 * o + 1) .release

/-- No request yet, over given tables and an empty cache. -/
def initial (T : Tables (schema pg)) (now : Timestamp) : Traffic pg κ where
  ledger := .start T now
  cache := ⟨fun _ => none⟩
  writers := fun _ => 0
  inFlight := fun _ => none
  operations := []
  callers := []

variable (s : Traffic pg κ)

/-- The ledger's answers to an operation's calls. -/
def answers (o : OpId) (use : LedgerUse) : Option Answer :=
  match s.ledger.sessions (ownTxn o use) with
  | .finished _ answer => some answer
  | _ => none

def setServed (c : CallId) (served : Served) : Traffic pg κ :=
  { s with callers := s.callers.modify c fun caller => { caller with served := served } }

/-- A new operation under way, and its caller awaiting it. -/
def launch (c : CallId) (caller : TenantCaller) : Traffic pg κ :=
  { s.setServed c (.awaiting s.operations.length) with
    operations := s.operations ++
      [⟨caller.organizationId, ⟨caller.request, caller.streamed, .scheduled⟩, [], false⟩] }

/-- `RequestDeduplicator.coalesce`. -/
def coalesce (c : CallId) (caller : TenantCaller) : Traffic pg κ :=
  let id := (caller.organizationId, caller.request.correlationId)
  match s.inFlight id with
  | some o => s.setServed c (.awaiting o)
  | none =>
    { s.launch c caller with
      inFlight := Function.update s.inFlight id (some s.operations.length) }

variable (d : Deployment κ)

/-- `_safe_get` and `_replayable`: a stream replays nothing but text. -/
def hit (caller : TenantCaller) (available : Bool) (now : Timestamp) : Option CachedResponse :=
  if available then
    (s.cache.get now caller.organizationId
      (d.key caller.organizationId caller.request.asked)).filter fun response =>
        !caller.streamed || (response.content matches some (.text _))
  else none

/-- `InferenceCoordinator.execute` and `StreamingCoordinator.open`, when the cache has answered. -/
def afterLookup (c : CallId) (caller : TenantCaller) (available : Bool) (now : Timestamp) :
    Traffic pg κ :=
  match s.hit d caller available now with
  | some response =>
    s.setServed c (.replayed response
      (s.writers (caller.organizationId, d.key caller.organizationId caller.request.asked)))
  | none => if caller.streamed then s.launch c caller else s.coalesce c caller

variable [DecidableEq κ]

/-- The cache takes what an operation stores. -/
def put (o : OpId) (t : TenantOperation) (now : Timestamp) (response : CachedResponse) :
    Traffic pg κ :=
  let key := d.key t.organizationId t.operation.request.asked
  { s with
    cache := s.cache.put d.ttl now t.organizationId key response
    writers := Function.update s.writers (t.organizationId, key) o }

/-- What an operation's move does to the rest, when its provider has sent `outputs`. -/
def apply (o : OpId) (t : TenantOperation) (outputs : List ProviderOutput) (now : Timestamp)
    (move : Move) : Option (Traffic pg κ) :=
  (match move.call with
    | none => some s.ledger
    | some (use, call) => s.ledger.step (Sql.ledger pg) (.begin (ownTxn o use) call)).map
  fun ledger =>
  let moved := { s with
    ledger := ledger
    operations := s.operations.set o { t with
      operation := { t.operation with phase := move.phase }
      outputs := t.outputs ++ outputs } }
  match move.stores with
  | none => moved
  | some response => moved.put d o t now response

/-- An operation that is still under way goes on with an event. -/
def advance (o : OpId) (t : TenantOperation) (event : Event) (outputs : List ProviderOutput)
    (now : Timestamp) : Option (Traffic pg κ) :=
  if t.over then none
  else (t.operation.move (d.setting t.organizationId) (s.answers o) event).bind
    (s.apply d o t outputs now)

/-- The operation goes no further. A stream whose generator has started gives its hold back on the
way out. -/
def abandon (o : OpId) (t : TenantOperation) (releases : Bool) : Option (Traffic pg κ) :=
  if t.over ∨ (releases ∧ !t.operation.streamed) then none
  else
    (if releases then s.ledger.step (Sql.ledger pg) (.begin (exitTxn o)
        (.release t.organizationId t.operation.request.correlationId))
      else some s.ledger).map fun ledger =>
    { s with
      ledger := ledger
      operations := s.operations.set o { t with abandoned := true } }

/-- One step; `none` when the action is not enabled. -/
def step : TrafficAction pg → Option (Traffic pg κ)
  | .arrive organizationId request streamed =>
    some { s with callers := s.callers ++ [⟨organizationId, request, streamed, .looking⟩] }
  | .lookup c available now =>
    match s.callers[c]? with
    | some caller =>
      if caller.served = .looking then some (s.afterLookup d c caller available now) else none
    | none => none
  | .operate o event now =>
    match s.operations[o]? with
    | some t => if event.provided then none else s.advance d o t event [] now
    | none => none
  | .provide o output price =>
    match s.operations[o]? with
    | some t => (output.toEvent price t.operation.streamed).bind fun event =>
        s.advance d o t event [output] s.ledger.now
    | none => none
  | .abandon o releases =>
    match s.operations[o]? with
    | some t => s.abandon o t releases
    | none => none
  | .forget o =>
    match s.operations[o]? with
    | some t =>
      let id := (t.organizationId, t.operation.request.correlationId)
      if t.over then
        some (if s.inFlight id = some o then
          { s with inFlight := Function.update s.inFlight id none } else s)
      else none
    | none => none
  | .collect c =>
    match s.callers[c]? with
    | some ⟨_, _, _, .awaiting o⟩ =>
      match s.operations[o]? with
      | some t => if t.over then some (s.setServed c (.returned o)) else none
      | none => none
    | _ => none
  | .ledger (.begin _ _) => none
  | .ledger action =>
    (s.ledger.step (Sql.ledger pg) action).map fun ledger => { s with ledger := ledger }

def run : Traffic pg κ → List (TrafficAction pg) → Option (Traffic pg κ)
  | s, [] => some s
  | s, a :: rest => (s.step d a).bind fun s' => run s' rest

/-- `n` statements of one of an operation's transactions. -/
def statements (o : OpId) (use : LedgerUse) (n : Nat) : List (TrafficAction pg) :=
  (System.statements (ownTxn o use) n).map .ledger

end Traffic
end LlmGateway.Gateway
