import LlmGateway.Ledger.Port
import LlmGateway.Lib.Dict
import LlmGateway.Lib.Json
import LlmGateway.Lib.Machine

/-! `JwksCache`: the identity provider's keys, fetched over the network and kept for a time. A call is
suspended at the fetch only, so everything before and after it is one step. -/
namespace LlmGateway.Auth
open Ledger Lib

abbrev CallId := Nat

/-- What `JwksTransport.fetch` comes to. -/
inductive FetchOutcome (F : Type) where
  | timeout
  | raised
  | document (value : Json F)

/-- A call at its fetch: `kid` is absent in a bare `refresh`. -/
structure PendingFetch where
  kid : Option String
  now : Timestamp
  deriving DecidableEq, Repr

structure CacheState (F : Type) where
  keys : Dict String (Json.Members F) := Dict.empty
  fetchedAt : Option Timestamp := none
  lastAttemptAt : Option Timestamp := none
  pending : CallId → Option PendingFetch := fun _ => none

/-- Readings of the clock come with the step that takes them. -/
inductive CacheInput (F : Type) where
  | getKey (c : CallId) (kid : String) (freshAt gateAt startAt : Timestamp)
  | refresh (c : CallId) (startAt : Timestamp)
  | fetched (c : CallId) (outcome : FetchOutcome F)

inductive CacheAnswer (F : Type) where
  | returned (kid : String) (key : Json.Members F)
  | refreshed
  | fetching (startAt : Timestamp)
  /-- `JwksFetchError`. -/
  | fetchError (message : String)
  /-- No such call. -/
  | ignored

structure JwksCache where
  ttl : Timestamp := 600000000
  minRefreshInterval : Timestamp := 30000000

section
variable {F : Type}

/-- A key entry that can be looked up. -/
def keyEntry : Json F → Option (String × Json.Members F)
  | .obj members =>
    match members.lookup "kid" with
    | some (.str kid) => some (kid, members)
    | _ => none
  | _ => none

def insertKey (parsed : Dict String (Json.Members F)) (key : Json F) : Dict String (Json.Members F) :=
  match keyEntry key with
  | some (kid, members) => parsed.set kid members
  | none => parsed

/-- `document.get("keys")`, of a dictionary. -/
def documentKeys : Json F → Option (Json F)
  | .obj members => members.lookup "keys"
  | _ => none

def parseDocument (document : Json F) : Except String (Dict String (Json.Members F)) :=
  match documentKeys document with
  | some (.arr (key :: keys)) =>
    let parsed := (key :: keys).foldl insertKey Dict.empty
    if parsed.keys = ∅ then .error "JWKS contained no usable keys (missing 'kid')" else .ok parsed
  | _ => .error "JWKS document is malformed or empty"

namespace JwksCache
variable (cache : JwksCache)

def isFresh (s : CacheState F) (now : Timestamp) : Bool :=
  match s.fetchedAt with
  | none => false
  | some fetchedAt => now - fetchedAt < cache.ttl

def mayAttemptRefresh (s : CacheState F) (now : Timestamp) : Bool :=
  match s.lastAttemptAt, s.fetchedAt with
  | none, _ => true
  -- never fetched successfully
  | _, none => true
  | some last, some _ => cache.minRefreshInterval ≤ now - last

/-- `refresh` up to its fetch. -/
def startFetch (s : CacheState F) (c : CallId) (kid : Option String) (now : Timestamp) :
    CacheState F × CacheAnswer F :=
  ({ s with lastAttemptAt := some now, pending := Function.update s.pending c (some ⟨kid, now⟩) }, .fetching now)

/-- `get_key` up to its answer or its fetch. -/
def getKey (s : CacheState F) (c : CallId) (kid : String) (freshAt gateAt startAt : Timestamp) :
    CacheState F × CacheAnswer F :=
  let found := if cache.isFresh s freshAt then s.keys.get kid else none
  match found with
  | some key => (s, .returned kid key)
  | none =>
    if cache.mayAttemptRefresh s gateAt then startFetch s c (some kid) startAt
    else (s, .fetchError ("unknown signing key '" ++ kid ++ "' (refresh rate-limited)"))

/-- `refresh` after its fetch. -/
def installed (s : CacheState F) (now : Timestamp) : FetchOutcome F → Except String (CacheState F)
  | .timeout => .error "JWKS fetch timed out"
  | .raised => .error "JWKS could not be fetched"
  | .document document =>
    match parseDocument document with
    | .error message => .error message
    | .ok parsed => .ok { s with keys := parsed, fetchedAt := some now }

/-- The fetch of `call` is over: `refresh` returns, and `get_key` looks its key up. -/
def afterFetch (s : CacheState F) (call : PendingFetch) (outcome : FetchOutcome F) :
    CacheState F × CacheAnswer F :=
  match installed s call.now outcome with
  | .error message => (s, .fetchError message)
  | .ok s =>
    match call.kid with
    | none => (s, .refreshed)
    | some kid =>
      match s.keys.get kid with
      | none => (s, .fetchError ("unknown signing key '" ++ kid ++ "' after JWKS refresh"))
      | some key => (s, .returned kid key)

def machine : Machine (CacheState F) (CacheInput F) (CacheAnswer F) where
  step s
    | .getKey c kid freshAt gateAt startAt =>
      if s.pending c = none then cache.getKey s c kid freshAt gateAt startAt else (s, .ignored)
    | .refresh c startAt => if s.pending c = none then startFetch s c none startAt else (s, .ignored)
    | .fetched c outcome =>
      match s.pending c with
      | none => (s, .ignored)
      | some call => afterFetch { s with pending := Function.update s.pending c none } call outcome

/-- The state a history leads to. -/
def after (inputs : List (CacheInput F)) : CacheState F := (cache.machine.run {} inputs).1

theorem after_concat (past : List (CacheInput F)) (input : CacheInput F) :
    cache.after (past ++ [input]) = (cache.machine.step (cache.after past) input).1 := by
  rw [after, Machine.run_concat, after]

end JwksCache
end

end LlmGateway.Auth
