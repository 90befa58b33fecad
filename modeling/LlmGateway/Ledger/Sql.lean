import LlmGateway.Lib.ReadCommitted
import LlmGateway.Ledger.Port

/-! `SqlBudgetLedger`: the three ledger tables and the four transactions over them. -/
namespace LlmGateway.Ledger.Sql
open Lib.ReadCommitted

/-- What the transactions use of the server beyond rows: its text hash and the
organizations its foreign keys accept. -/
structure Postgres where
  hashtext : String → BitVec 32
  organization : OrgId → Bool

inductive Table where
  | orgBudget
  | budgetReservation
  | costLedger
  deriving DecidableEq

structure OrgBudget where
  amountLimit : Int
  currency : String
  reserved : Int
  spent : Int
  deriving DecidableEq, Repr

structure BudgetReservation where
  estimatedCost : Int
  actualCost : Option Int
  currency : String
  status : ReservationStatus
  createdAt : Timestamp
  settledAt : Option Timestamp
  deriving DecidableEq, Repr

structure CostLedger where
  provider : String
  model : String
  promptTokens : Int
  completionTokens : Int
  inputCost : Int
  outputCost : Int
  totalCost : Int
  currency : String
  createdAt : Timestamp
  deriving DecidableEq, Repr

/-- The range of a `numeric(18,8)` column in units of 1e-8. -/
def numeric (x : Int) : Bool := -10 ^ 18 < x ∧ x < 10 ^ 18

/-- The range of an `integer` column. -/
def integer (x : Int) : Bool := -2 ^ 31 ≤ x ∧ x < 2 ^ 31

def OrgBudget.check (b : OrgBudget) : Bool :=
  numeric b.amountLimit && numeric b.reserved && numeric b.spent &&
    decide (0 ≤ b.amountLimit ∧ 0 ≤ b.reserved ∧ 0 ≤ b.spent)

def BudgetReservation.check (r : BudgetReservation) : Bool :=
  numeric r.estimatedCost && r.actualCost.all numeric &&
    decide (0 ≤ r.estimatedCost) && r.actualCost.all (0 ≤ ·)

def CostLedger.check (c : CostLedger) : Bool :=
  integer c.promptTokens && integer c.completionTokens &&
    numeric c.inputCost && numeric c.outputCost && numeric c.totalCost &&
    decide (0 ≤ c.promptTokens ∧ 0 ≤ c.completionTokens) &&
    decide (0 ≤ c.inputCost ∧ 0 ≤ c.outputCost ∧ 0 ≤ c.totalCost)

/-- Migration 0006. A reservation and a cost row are identified by their unique
`(organization_id, correlation_id)`; rows are never deleted and these columns never change. -/
@[reducible] def schema (pg : Postgres) : Schema where
  Table := Table
  Key
    | .orgBudget => OrgId
    | .budgetReservation => OrgId × CorrelationId
    | .costLedger => OrgId × CorrelationId
  Row
    | .orgBudget => OrgBudget
    | .budgetReservation => BudgetReservation
    | .costLedger => CostLedger
  valid
    | .orgBudget, b => b.check
    | .budgetReservation, r => r.check
    | .costLedger, c => c.check
  references
    | .orgBudget, org => pg.organization org
    | .budgetReservation, k => pg.organization k.1
    | .costLedger, k => pg.organization k.1
  decKey
    | .orgBudget => inferInstanceAs (DecidableEq OrgId)
    | .budgetReservation => inferInstanceAs (DecidableEq (OrgId × CorrelationId))
    | .costLedger => inferInstanceAs (DecidableEq (OrgId × CorrelationId))

/-- The two keys of `pg_advisory_xact_lock(int, int)`. -/
abbrev LockKey := BitVec 32 × BitVec 32

def lockKey (pg : Postgres) (org : OrgId) (cid : CorrelationId) : LockKey :=
  (pg.hashtext org.str, pg.hashtext cid)

abbrev LedgerTxn (pg : Postgres) := Txn (schema pg) LockKey Answer

variable (pg : Postgres)

def reservedReply (org : OrgId) (cid : CorrelationId) (estimatedCost : Money) : Answer :=
  .ok (.reservation ⟨.reserved, org, cid, estimatedCost, none⟩)

def exceededReply (org : OrgId) (cid : CorrelationId) (estimatedCost remaining : Money) : Answer :=
  .ok (.reservation ⟨.exceeded, org, cid, estimatedCost, some remaining⟩)

def freshReservation (estimatedCost : Money) (now : Timestamp) : BudgetReservation :=
  ⟨estimatedCost.amount, none, estimatedCost.currency, .reserved, now, none⟩

/-- The columns `_hold` rewrites on an existing row; `created_at` is not among them. -/
def reactivate (estimatedCost : Money) (r : BudgetReservation) : BudgetReservation :=
  { r with
    status := .reserved
    estimatedCost := estimatedCost.amount
    currency := estimatedCost.currency
    actualCost := none
    settledAt := none }

/-- `_hold`, then the caller's commit. -/
def hold (existing : Option BudgetReservation) (org : OrgId) (cid : CorrelationId)
    (estimatedCost : Money) (now : Timestamp) : LedgerTxn pg :=
  match existing with
  | none => .exec (.insert .budgetReservation (org, cid) (freshReservation estimatedCost now))
      fun _ => .commit (reservedReply org cid estimatedCost)
  | some _ => .exec (.update .budgetReservation (org, cid) (fun _ => true) (reactivate estimatedCost))
      fun _ => .commit (reservedReply org cid estimatedCost)

def covers (cost : Int) (b : OrgBudget) : Bool := b.amountLimit - b.spent - b.reserved ≥ cost

def addHold (estimatedCost : Money) (b : OrgBudget) : OrgBudget :=
  { b with reserved := b.reserved + estimatedCost.amount }

/-- The conditional UPDATE and what follows it. -/
def reserveGate (existing : Option BudgetReservation) (org : OrgId) (cid : CorrelationId)
    (estimatedCost : Money) (now : Timestamp) (budget : OrgBudget) : LedgerTxn pg :=
  .exec (.update .orgBudget org (covers estimatedCost.amount) (addHold estimatedCost))
    fun updated => match updated with
      | none => .rollback (exceededReply org cid estimatedCost
          ⟨budget.amountLimit - budget.spent - budget.reserved, budget.currency⟩)
      | some _ => hold pg existing org cid estimatedCost now

def reserveBudget (existing : Option BudgetReservation) (org : OrgId) (cid : CorrelationId)
    (estimatedCost : Money) (now : Timestamp) : LedgerTxn pg :=
  .exec (.select .orgBudget org) fun budgetRow => match budgetRow with
    | none => hold pg existing org cid estimatedCost now
    | some b =>
      if estimatedCost.currency ≠ b.currency then .rollback (.error .unsupportedCurrency)
      else reserveGate pg existing org cid estimatedCost now b

/-- The read of the reservation row, taken under the advisory lock but without a row lock. -/
def reserveRead (org : OrgId) (cid : CorrelationId) (estimatedCost : Money) (now : Timestamp) :
    LedgerTxn pg :=
  .exec (.select .budgetReservation (org, cid)) fun existing => match existing with
    | none => reserveBudget pg none org cid estimatedCost now
    | some r =>
      if r.status = .released ∨ r.status = .expired then
        reserveBudget pg (some r) org cid estimatedCost now
      else .commit (reservedReply org cid ⟨r.estimatedCost, r.currency⟩)

def reserve (org : OrgId) (cid : CorrelationId) (estimatedCost : Money) (now : Timestamp) :
    LedgerTxn pg :=
  .exec (.advisoryXactLock (lockKey pg org cid)) fun _ => reserveRead pg org cid estimatedCost now

def costRow (detail : SettlementDetail) (now : Timestamp) : CostLedger :=
  ⟨detail.provider, detail.model, detail.promptTokens, detail.completionTokens,
    detail.inputCost.amount, detail.outputCost.amount, detail.totalCost.amount,
    detail.totalCost.currency, now⟩

/-- Spend is booked; the hold is returned only if it is still live. -/
def settleBudget (row : BudgetReservation) (detail : SettlementDetail) (b : OrgBudget) : OrgBudget :=
  if row.status = .reserved then
    { b with spent := b.spent + detail.totalCost.amount, reserved := b.reserved - row.estimatedCost }
  else { b with spent := b.spent + detail.totalCost.amount }

def markCommitted (detail : SettlementDetail) (now : Timestamp) (r : BudgetReservation) :
    BudgetReservation :=
  { r with status := .committed, actualCost := some detail.totalCost.amount, settledAt := some now }

def settleRecord (org : OrgId) (cid : CorrelationId) (detail : SettlementDetail) (now : Timestamp) :
    LedgerTxn pg :=
  .exec (.insertOnConflictDoNothing .costLedger (org, cid) (costRow detail now))
    fun _ => .commit (.ok .done)

def settleMark (org : OrgId) (cid : CorrelationId) (detail : SettlementDetail) (now : Timestamp) :
    LedgerTxn pg :=
  .exec (.update .budgetReservation (org, cid) (fun _ => true) (markCommitted detail now))
    fun _ => settleRecord pg org cid detail now

def settleBook (row : BudgetReservation) (org : OrgId) (cid : CorrelationId)
    (detail : SettlementDetail) (now : Timestamp) : LedgerTxn pg :=
  .exec (.update .orgBudget org (fun _ => true) (settleBudget row detail))
    fun _ => settleMark pg org cid detail now

def settle (org : OrgId) (cid : CorrelationId) (detail : SettlementDetail) (now : Timestamp) :
    LedgerTxn pg :=
  .exec (.selectForUpdate .budgetReservation (org, cid)) fun found => match found with
    | none => .rollback (.error .unknownReservation)
    | some row =>
      if row.status = .committed then .commit (.ok .done)
      else if row.status = .released then .rollback (.error .unknownReservation)
      else if detail.totalCost.currency ≠ row.currency then .rollback (.error .unsupportedCurrency)
      else settleBook pg row org cid detail now

def giveBack (amount : Int) (b : OrgBudget) : OrgBudget := { b with reserved := b.reserved - amount }

def markReleased (now : Timestamp) (r : BudgetReservation) : BudgetReservation :=
  { r with status := .released, settledAt := some now }

def releaseMark (org : OrgId) (cid : CorrelationId) (now : Timestamp) : LedgerTxn pg :=
  .exec (.update .budgetReservation (org, cid) (fun _ => true) (markReleased now))
    fun _ => .commit (.ok .done)

def releaseReturn (row : BudgetReservation) (org : OrgId) (cid : CorrelationId) (now : Timestamp) :
    LedgerTxn pg :=
  .exec (.update .orgBudget org (fun _ => true) (giveBack row.estimatedCost))
    fun _ => releaseMark pg org cid now

def release (org : OrgId) (cid : CorrelationId) (now : Timestamp) : LedgerTxn pg :=
  .exec (.selectForUpdate .budgetReservation (org, cid)) fun found => match found with
    | none => .rollback (.error .unknownReservation)
    | some row =>
      if row.status.holdAlreadyReturned then .commit (.ok .done)
      else releaseReturn pg row org cid now

/-- The WHERE clause of the sweep. -/
def stale (org : OrgId) (olderThan : Timestamp) (k : OrgId × CorrelationId)
    (r : BudgetReservation) : Bool :=
  k.1 = org ∧ r.status = .reserved ∧ r.createdAt < olderThan

def markExpired (now : Timestamp) (r : BudgetReservation) : BudgetReservation :=
  { r with status := .expired, settledAt := some now }

def reconcileReturn (reclaimed : Multiset BudgetReservation) (org : OrgId) : LedgerTxn pg :=
  .exec (.update .orgBudget org (fun _ => true) (giveBack (reclaimed.map (·.estimatedCost)).sum))
    fun _ => .commit (.ok (.reclaimed reclaimed.card))

def reconcileExpired (org : OrgId) (olderThan : Timestamp) (now : Timestamp) : LedgerTxn pg :=
  .exec (.updateSkipLocked .budgetReservation (stale org olderThan) (markExpired now))
    fun (reclaimed : Multiset BudgetReservation) =>
      if reclaimed.card = 0 then .commit (.ok (.reclaimed 0)) else reconcileReturn pg reclaimed org

/-- The ledger as a service: any database error becomes `LedgerUnavailableError`. -/
def ledger : Service (schema pg) LockKey Call Answer where
  program
    | .reserve org cid estimatedCost, now => reserve pg org cid estimatedCost now
    | .settle org cid detail, now => settle pg org cid detail now
    | .release org cid, now => release pg org cid now
    | .reconcileExpired org olderThan, now => reconcileExpired pg org olderThan now
  unavailable := .error .ledgerUnavailable

/-- One configured budget, and nothing held or booked yet. -/
def configured (org : OrgId) (b : OrgBudget) : Tables (schema pg) where
  rows
    | .orgBudget, o => if o = org then some b else none
    | .budgetReservation, _ => none
    | .costLedger, _ => none
  keys
    | .orgBudget => ({org} : Finset OrgId)
    | .budgetReservation => (∅ : Finset (OrgId × CorrelationId))
    | .costLedger => (∅ : Finset (OrgId × CorrelationId))
  mem_keys tb k h := by
    cases tb with
    | orgBudget =>
      by_contra hn
      simp only [Finset.mem_singleton] at hn
      simp [hn] at h
    | budgetReservation => simp at h
    | costLedger => simp at h

/-- A server on which all advisory locks collide. -/
def contended : Postgres := ⟨fun _ => 0, fun _ => true⟩

end LlmGateway.Ledger.Sql
