import LlmGateway.Lib.AsyncGenerator
import LlmGateway.Execution.Operation

/-! `StreamingCoordinator` over `StreamingProviderExecutor`, and the HTTP layer's `_frame` over the
session it opens: three generators, one inside the other. -/
namespace LlmGateway.Streaming
open Lib.ReadCommitted Lib.AsyncGenerator Ledger Accounting Execution
open Ledger.Sql hiding reserve settle release

structure StreamFailed where
  error : String
  errorCategory : Option ProviderErrorCategory := none
  deriving DecidableEq, Repr

inductive ProviderStreamEvent where
  | chunk (content : String)
  | completed (usage : Option ProviderUsage)
  | failed (failure : StreamFailed)
  deriving DecidableEq, Repr

/-- What the application hands to the delivery layer. -/
inductive InferenceStreamEvent where
  | chunk (content : String)
  | failed (failure : StreamFailed)
  deriving DecidableEq, Repr

def malformedStream : StreamFailed := ⟨"provider ended the stream without a terminal event", none⟩

def noUsage : StreamFailed := ⟨"provider ended the stream without reporting usage", none⟩

def unaccountable : StreamFailed := ⟨"the completed stream could not be accounted for", none⟩

/-- The provider client's stream: what it has still to send, and whether it was closed. Running out
closes it too. -/
structure Upstream where
  remaining : List ProviderStreamEvent
  closed : Bool

def Upstream.anext (u : Upstream) : Upstream × Option ProviderStreamEvent :=
  match u.closed, u.remaining with
  | false, event :: rest => ({ u with remaining := rest }, some event)
  | _, _ => ({ u with closed := true }, none)

def Upstream.aclose (u : Upstream) : Upstream := { u with closed := true }

def relay (u : Upstream) : Upstream × Stop Unit ProviderStreamEvent OperationError :=
  match u.anext with
  | (u, some event) => (u, .yielded event ())
  | (u, none) => (u.aclose, .returned)

/-- `StreamingProviderExecutor.stream`. -/
def providerStream : Function Upstream Unit Unit ProviderStreamEvent OperationError where
  enter _ := relay
  resume _ := relay
  close _ := Upstream.aclose

/-- The operation's world, with the executor's generator and the provider's stream under it. -/
structure StreamWorld (pg : Postgres) where
  ledger : World pg
  upstream : Upstream
  stream : Generator Unit Unit

/-- What the streaming path adds to its ports: the cache's answer to `get` (nothing while it is
unavailable) and how it takes a `put`. -/
structure StreamPorts extends Ports where
  cached : Option CachedResponse
  put : PutOutcome

/-- What `_deliver` and `_replay` are called with. -/
inductive Source where
  | replay (content : String)
  | deliver (first : ProviderStreamEvent)
  deriving DecidableEq, Repr

/-- The `yield` a session's generator is suspended at: of a replayed entry, of a chunk with the
text so far, or of a terminal event. -/
inductive Suspension where
  | replayed
  | chunk (buffered : List String)
  | terminal
  deriving DecidableEq, Repr

abbrev Events := Generator Source Suspension

structure StreamSession where
  outcome : ExecutionOutcome
  events : Option Events := none
  error : Option String := none
  errorCategory : Option ProviderErrorCategory := none
  deriving DecidableEq

variable {pg : Postgres}

namespace StreamWorld

/-- `anext(stream, None)`. -/
def next (w : StreamWorld pg) : StreamWorld pg × Option ProviderStreamEvent :=
  let (upstream, stream, pulled) := providerStream.anext w.stream w.upstream
  ({ w with upstream := upstream, stream := stream },
    match pulled with
    | .item event => some event
    | _ => none)

/-- `aclose_stream`. -/
def closeStream (w : StreamWorld pg) : StreamWorld pg :=
  { w with upstream := providerStream.aclose w.stream w.upstream, stream := .finished }

def observe (w : StreamWorld pg) (ok : Bool) (category : Option ProviderErrorCategory) :
    StreamWorld pg :=
  { w with ledger := w.ledger.observe ⟨ok, category⟩ }

end StreamWorld

section
variable (py : PythonStr) (ports : StreamPorts) (request : RoutedRequest)

/-- `StreamingCoordinator._release`. A release raises nothing but the two errors it swallows. -/
def releaseHold (w : StreamWorld pg) : StreamWorld pg :=
  { w with ledger := (release ports.toPorts request w.ledger).1 }

/-- The exceptions `_complete` handles. -/
def settlementHandled : OperationError → Bool
  | .cost e => e.accountingDefect
  | .ledger .unknownReservation | .ledger .ledgerUnavailable => true
  | .ledger .unsupportedCurrency | .cachePut => false

/-- `StreamingCoordinator._complete`. -/
def complete (usage : Option ProviderUsage) (content : String) (w : StreamWorld pg) :
    StreamWorld pg × Except OperationError (Option StreamFailed) :=
  let w := w.observe true none
  match usage with
  | none => (releaseHold ports request w, .ok (some noUsage))
  | some usage =>
    match settle py ports.toPorts request (some usage) w.ledger with
    | (ledger, .error e) =>
      if settlementHandled e then
        (releaseHold ports request { w with ledger := ledger }, .ok (some unaccountable))
      else ({ w with ledger := ledger }, .error e)
    | (ledger, .ok _) =>
      let (ledger, stored) := ledger.safePut ports.put
        ⟨request.provider.name, request.provider.model, some (.text content)⟩
      ({ w with ledger := ledger }, stored.map fun _ => none)

/-- One turn of `_deliver`'s loop, up to the next `yield` or through the `finally` clause. -/
def relayEvent (buffered : List String) (event : Option ProviderStreamEvent) (w : StreamWorld pg) :
    StreamWorld pg × Stop Suspension InferenceStreamEvent OperationError :=
  match event with
  | some (.chunk content) => (w, .yielded (.chunk content) (.chunk (buffered ++ [content])))
  | some (.failed failure) =>
    (releaseHold ports request (w.observe false failure.errorCategory),
      .yielded (.failed failure) .terminal)
  | some (.completed usage) =>
    match complete py ports request usage (String.join buffered) w with
    | (w, .ok none) => (w.closeStream, .returned)
    | (w, .ok (some failure)) => (w, .yielded (.failed failure) .terminal)
    | (w, .error e) => ((releaseHold ports request w).closeStream, .raised e)
  | none =>
    (releaseHold ports request (w.observe false none), .yielded (.failed malformedStream) .terminal)

/-- `StreamingCoordinator._deliver`, and `_replay` for a cache hit. -/
def deliver :
    Function (StreamWorld pg) Source Suspension InferenceStreamEvent OperationError where
  enter source w :=
    match source with
    | .replay content => (w, .yielded (.chunk content) .replayed)
    | .deliver first => relayEvent py ports request [] (some first) w
  resume suspension w :=
    match suspension with
    | .replayed => (w, .returned)
    | .chunk buffered =>
      let (w, event) := w.next
      relayEvent py ports request buffered event w
    | .terminal => (w.closeStream, .returned)
  close suspension w :=
    match suspension with
    | .replayed => w
    | .chunk _ => (releaseHold ports request w).closeStream
    | .terminal => w.closeStream

/-- `_replayable`: only a text entry can be framed as a chunk. -/
def replayable : Option String :=
  match ports.cached with
  | some { content := some (.text content), .. } => some content
  | _ => none

/-- Failed before the first chunk: still an ordinary refusal. -/
def refuseStream (failure : StreamFailed) (w : StreamWorld pg) : StreamWorld pg × StreamSession :=
  (releaseHold ports request (w.closeStream.observe false failure.errorCategory),
    { outcome := .executed, error := some failure.error, errorCategory := failure.errorCategory })

/-- The part of `open` that follows a permitted reservation. -/
def openProvider (w : StreamWorld pg) : StreamWorld pg × StreamSession :=
  match w.next with
  | (w, none) => refuseStream ports request malformedStream w
  | (w, some (.failed failure)) => refuseStream ports request failure w
  | (w, some first) => (w, { outcome := .executed, events := some (.unstarted (.deliver first)) })

/-- `StreamingCoordinator.open` on a routed request. -/
def openStream (w : StreamWorld pg) : StreamWorld pg × Except OperationError StreamSession :=
  match replayable ports with
  | some content => (w, .ok { outcome := .cacheHit, events := some (.unstarted (.replay content)) })
  | none =>
    match reserve py ports.toPorts request w.ledger with
    | (ledger, .error e) =>
      ({ w with ledger := ledger },
        match e with
        | .cost e => if e.accountingDefect then
            .ok { outcome := .notAccountable, error := some "not_accountable" }
          else .error (.cost e)
        | e => .error e)
    | (ledger, .ok reservation) =>
      let w := { w with ledger := ledger }
      match reservation.outcome with
      | .unavailable =>
        (w, .ok { outcome := .budgetUnavailable, error := some "budget_unavailable" })
      | .exceeded => (w, .ok { outcome := .budgetDenied, error := some "budget_exceeded" })
      | .reserved =>
        let (w, session) := openProvider ports request w
        (w, .ok session)

end

/-- A frame of the response body, before it is rendered. -/
inductive Frame where
  | delta (content : String)
  | error (requestId : String)
  | done
  deriving DecidableEq, Repr

/-- Where `_frame` is suspended, with the generator it reads from. -/
inductive Framing where
  | delta (events : Events)
  | ending (events : Events)

section
variable (py : PythonStr) (ports : StreamPorts) (request : RoutedRequest) (requestId : String)

/-- One turn of `_frame`'s loop. -/
def frameNext (events : Events) (w : StreamWorld pg) :
    StreamWorld pg × Stop Framing Frame OperationError :=
  match (deliver py ports request).anext events w with
  | (w, events, .item (.chunk content)) => (w, .yielded (.delta content) (.delta events))
  | (w, events, .item (.failed _)) => (w, .yielded (.error requestId) (.ending events))
  | (w, events, .stop) => (w, .yielded .done (.ending events))
  | (w, events, .error e) => ((deliver py ports request).aclose events w, .raised e)

/-- `_frame`. -/
def frame : Function (StreamWorld pg) Events Framing Frame OperationError where
  enter := frameNext py ports request requestId
  resume framing w :=
    match framing with
    | .delta events => frameNext py ports request requestId events w
    | .ending events => ((deliver py ports request).aclose events w, .returned)
  close framing w :=
    match framing with
    | .delta events | .ending events => (deliver py ports request).aclose events w

end
end LlmGateway.Streaming
