import Mathlib.Algebra.BigOperators.Group.Finset.Basic
import LlmGateway.Lib.Dict
import LlmGateway.Ledger.Port

/-! `InMemoryBudgetLedger`: the single-process implementation of the ledger port. -/
namespace LlmGateway.Ledger.InMemory
open Lib

structure Reservation where
  estimatedCost : Money
  status : ReservationStatus
  createdAt : Timestamp
  deriving DecidableEq, Repr

structure OrgLedger where
  limit : Option Money := none
  reserved : Int := 0
  spent : Int := 0
  reservations : Dict CorrelationId Reservation := .empty

/-- `unavailable` is the construction-time toggle that simulates an outage. -/
structure InMemoryBudgetLedger where
  orgs : OrgId → OrgLedger
  unavailable : Bool

/-- `__init__`; an organization never mentioned has the ledger `_ledger_for` would create. -/
def create (limits : OrgId → Option Money) (unavailable : Bool) : InMemoryBudgetLedger :=
  ⟨fun org => { limit := limits org }, unavailable⟩

namespace OrgLedger
variable (ledger : OrgLedger) (now : Timestamp)

/-- A hold of `estimatedCost`, taken now. -/
def hold (cid : CorrelationId) (estimatedCost : Money) : OrgLedger :=
  { ledger with reservations := ledger.reservations.set cid ⟨estimatedCost, .reserved, now⟩ }

def reservedResult (org : OrgId) (cid : CorrelationId) (estimatedCost : Money) : Answer :=
  .ok (.reservation ⟨.reserved, org, cid, estimatedCost, none⟩)

def reserveFresh (org : OrgId) (cid : CorrelationId) (estimatedCost : Money) : OrgLedger × Answer :=
  match ledger.limit with
  | none => (ledger.hold now cid estimatedCost, reservedResult org cid estimatedCost)
  | some limit =>
    let remainingAmount := limit.amount - ledger.spent - ledger.reserved
    if estimatedCost.amount > remainingAmount then
      (ledger, .ok (.reservation
        ⟨.exceeded, org, cid, estimatedCost, some ⟨remainingAmount, limit.currency⟩⟩))
    else
      ({ ledger.hold now cid estimatedCost with reserved := ledger.reserved + estimatedCost.amount },
        reservedResult org cid estimatedCost)

def reserve (org : OrgId) (cid : CorrelationId) (estimatedCost : Money) : OrgLedger × Answer :=
  match ledger.reservations.get cid with
  | none => ledger.reserveFresh now org cid estimatedCost
  | some existing =>
    if existing.status = .released ∨ existing.status = .expired then
      ledger.reserveFresh now org cid estimatedCost
    else (ledger, reservedResult org cid existing.estimatedCost)

/-- A released reservation takes the same branch as an expired one. -/
def settle (cid : CorrelationId) (detail : SettlementDetail) : OrgLedger × Answer :=
  match ledger.reservations.get cid with
  | none => (ledger, .error .unknownReservation)
  | some reservation =>
    if reservation.status = .committed then (ledger, .ok .done)
    else
      ({ ledger with
          reserved := if reservation.status = .reserved then
            ledger.reserved - reservation.estimatedCost.amount else ledger.reserved
          spent := ledger.spent + detail.totalCost.amount
          reservations := ledger.reservations.set cid { reservation with status := .committed } },
        .ok .done)

def release (cid : CorrelationId) : OrgLedger × Answer :=
  match ledger.reservations.get cid with
  | none => (ledger, .error .unknownReservation)
  | some reservation =>
    if reservation.status.holdAlreadyReturned then (ledger, .ok .done)
    else
      ({ ledger with
          reserved := ledger.reserved - reservation.estimatedCost.amount
          reservations := ledger.reservations.set cid { reservation with status := .released } },
        .ok .done)

def isStale (olderThan : Timestamp) (reservation : Reservation) : Bool :=
  reservation.status = .reserved ∧ reservation.createdAt < olderThan

def reconcileExpired (olderThan : Timestamp) : OrgLedger × Answer :=
  let stale := ledger.reservations.select (isStale olderThan)
  ({ ledger with
      reserved := ledger.reserved -
        ∑ cid ∈ stale, (ledger.reservations.get cid).elim 0 (·.estimatedCost.amount)
      reservations := ledger.reservations.modify stale fun r => { r with status := .expired } },
    .ok (.reclaimed stale.card))

def perform (org : OrgId) : Call → OrgLedger × Answer
  | .reserve _ cid estimatedCost => ledger.reserve now org cid estimatedCost
  | .settle _ cid detail => ledger.settle cid detail
  | .release _ cid => ledger.release cid
  | .reconcileExpired _ olderThan => ledger.reconcileExpired olderThan

end OrgLedger

/-- One call on the ledger of the organization it names. -/
def InMemoryBudgetLedger.perform (m : InMemoryBudgetLedger) (now : Timestamp) (call : Call) :
    InMemoryBudgetLedger × Answer :=
  if m.unavailable then (m, .error .ledgerUnavailable)
  else
    let (ledger, answer) := (m.orgs call.organizationId).perform now call.organizationId call
    ({ m with orgs := Function.update m.orgs call.organizationId ledger }, answer)

end LlmGateway.Ledger.InMemory
