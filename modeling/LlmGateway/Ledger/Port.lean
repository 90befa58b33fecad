import Mathlib.Data.BitVec
import Mathlib.Data.List.Basic

/-! The budget ledger port: money, reservations, settlements and their outcomes. -/
namespace LlmGateway.Ledger

/-- An organization's uuid. -/
abbrev OrgId := BitVec 128

/-- `str(uuid)`: thirty-two hexadecimal digits in groups of 8, 4, 4, 4 and 12. -/
def OrgId.str (org : OrgId) : String :=
  let digits := (List.range 32).map fun i => Nat.digitChar (org.toNat / 16 ^ (31 - i) % 16)
  String.ofList (digits.take 8 ++ '-' :: (digits.drop 8).take 4 ++ '-' :: (digits.drop 12).take 4 ++
    '-' :: (digits.drop 16).take 4 ++ '-' :: digits.drop 20)

abbrev CorrelationId := String

/-- A point in time, in microseconds. -/
abbrev Timestamp := Int

/-- An amount of one currency in units of 1e-8, the exponent every cost is quantized to
and every ledger column stores. -/
structure Money where
  amount : Int
  currency : String
  deriving DecidableEq, Repr

inductive ReservationOutcome where
  | reserved
  | exceeded
  | unavailable
  deriving DecidableEq, Repr

structure ReservationResult where
  outcome : ReservationOutcome
  organizationId : OrgId
  correlationId : CorrelationId
  estimatedCost : Money
  remaining : Option Money := none
  deriving DecidableEq, Repr

def ReservationResult.permitted (r : ReservationResult) : Bool := r.outcome = .reserved

structure SettlementDetail where
  provider : String
  model : String
  promptTokens : Int
  completionTokens : Int
  inputCost : Money
  outputCost : Money
  totalCost : Money
  deriving DecidableEq, Repr

/-- What a ledger operation may raise. -/
inductive LedgerError where
  | ledgerUnavailable
  | unsupportedCurrency
  | unknownReservation
  deriving DecidableEq, Repr

inductive ReservationStatus where
  | reserved
  | committed
  | released
  | expired
  deriving DecidableEq, Repr

/-- `_HOLD_ALREADY_RETURNED`: statuses whose hold has left the budget. -/
def ReservationStatus.holdAlreadyReturned : ReservationStatus → Bool
  | .committed | .released | .expired => true
  | .reserved => false

/-- The four operations of `BudgetLedgerPort`. -/
inductive Call where
  | reserve (organizationId : OrgId) (correlationId : CorrelationId) (estimatedCost : Money)
  | settle (organizationId : OrgId) (correlationId : CorrelationId) (detail : SettlementDetail)
  | release (organizationId : OrgId) (correlationId : CorrelationId)
  | reconcileExpired (organizationId : OrgId) (olderThan : Timestamp)
  deriving DecidableEq, Repr

def Call.organizationId : Call → OrgId
  | .reserve org _ _ | .settle org _ _ | .release org _ | .reconcileExpired org _ => org

/-- What an operation returns. -/
inductive Reply where
  | reservation (result : ReservationResult)
  | done
  | reclaimed (count : Nat)
  deriving DecidableEq, Repr

abbrev Answer := Except LedgerError Reply

end LlmGateway.Ledger
