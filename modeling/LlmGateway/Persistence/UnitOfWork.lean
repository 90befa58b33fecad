import LlmGateway.Ledger.Uuid
import LlmGateway.Lib.RowSecurity

/-! Units of work over pooled connections to a server whose tables carry the tenant policy. A row is a row of
any table under the policy. A statement is any function of the rows the policy shows it; the server may refuse
one for reasons of its own, a constraint or a deadlock. -/
namespace LlmGateway.Persistence
open Ledger Lib.RowSecurity

abbrev UnitId := Nat

abbrev ConnId := Nat

/-- What the server reads as a uuid. -/
structure UuidInput where
  read : String → Option OrgId
  read_str : ∀ org : OrgId, read org.str = some org
  read_empty : read "" = none

inductive Raised where
  /-- `invalid input syntax for type uuid` -/
  | invalidTextRepresentation (text : String)
  /-- `new row violates row-level security policy` -/
  | policyViolation
  /-- `current transaction is aborted` -/
  | inFailedTransaction
  | refused
  deriving DecidableEq, Repr

/-- `app.current_org` on one connection: the value of the session, `NULL` until a transaction first sets it,
and the value local to the open transaction. -/
structure Setting where
  session : Option String
  transaction : Option String
  deriving DecidableEq, Repr

/-- `current_setting('app.current_org', true)` -/
def Setting.current (setting : Setting) : Option String := setting.transaction.or setting.session

/-- `set_config('app.current_org', value, true)`. The session knows the name from then on, with an empty value. -/
def Setting.setConfig (setting : Setting) (value : String) : Setting :=
  ⟨some (setting.session.getD ""), some value⟩

def Setting.endTransaction (setting : Setting) : Setting := { setting with transaction := none }

/-- The tenant policy as the first migration has it, and as the fifth leaves it. -/
inductive TenantPolicy where
  | initial
  | nullif
  deriving DecidableEq, Repr

/-- `current_setting('app.current_org', true)::uuid`, from migration 0005 on with `NULLIF(.., '')` inside. -/
def TenantPolicy.currentOrg (input : UuidInput) (policy : TenantPolicy) (value : Option String) :
    Except Raised (Option OrgId) :=
  match value with
  | none => .ok none
  | some text =>
    if policy = .nullif ∧ text = "" then .ok none
    else
      match input.read text with
      | some org => .ok (some org)
      | none => .error (.invalidTextRepresentation text)

/-- A query under the policy, or the one function that reads past it: `gateway_api_key_tenant`. -/
inductive Statement (R α : Type) where
  | query (q : Query R α)
  | securityDefiner (f : Multiset R → α)

structure Transaction (R : Type) where
  conn : ConnId
  pending : List (Delta R)
  failed : Bool

structure AsyncUnitOfWork (R α : Type) where
  entered : Bool
  transaction : Option (Transaction R)
  /-- What the statements have answered. -/
  answers : List (Except Raised α)

/-- The server, and the units of work with the tenant each is made for. -/
structure Wiring (R : Type) where
  input : UuidInput
  policy : TenantPolicy
  organizationId : R → OrgId
  rlsEnabled : Bool
  tenantId : UnitId → Option OrgId

structure State (R α : Type) where
  committed : Multiset R
  settings : ConnId → Setting
  /-- The unit whose session has checked the connection out. -/
  holder : ConnId → Option UnitId
  units : UnitId → AsyncUnitOfWork R α

inductive Action (R α : Type) where
  | aenter (u : UnitId) (c : ConnId)
  | execute (u : UnitId) (c : ConnId) (statement : Statement R α) (refused : Bool)
  | commit (u : UnitId)
  | rollback (u : UnitId)
  | aexit (u : UnitId) (raised : Bool)
  /-- The pool replaces an idle connection by a new one. -/
  | recycle (c : ConnId)

section
variable {R α : Type} [DecidableEq R]

def Transaction.visible (t : Transaction R) (committed : Multiset R) : Multiset R :=
  t.pending.foldl Delta.apply committed

/-- One statement of an open transaction. After an error the server answers nothing until it ends. -/
def Transaction.execute (w : Wiring R) (t : Transaction R) (setting : Setting) (committed : Multiset R)
    (statement : Statement R α) (refused : Bool) : Except Raised α × Transaction R :=
  if t.failed then (.error .inFailedTransaction, t)
  else if refused then (.error .refused, { t with failed := true })
  else
    match statement with
    | .securityDefiner f => (.ok (f (t.visible committed)), t)
    | .query q =>
      match w.policy.currentOrg w.input setting.current with
      | .error e => (.error e, { t with failed := true })
      | .ok current =>
        match q.under w.organizationId current (t.visible committed) with
        | none => (.error .policyViolation, { t with failed := true })
        | some (answer, d) => (.ok answer, { t with pending := t.pending ++ [d] })

namespace State

def setUnit (s : State R α) (u : UnitId) (unit : AsyncUnitOfWork R α) : State R α :=
  { s with units := Function.update s.units u unit }

/-- The session's first statement since its last transaction checks a connection out. -/
def begin (s : State R α) (u : UnitId) (c : ConnId) : Option (State R α) :=
  match (s.units u).transaction with
  | some _ => some s
  | none =>
    if s.holder c = none then
      some { s with
        holder := Function.update s.holder c (some u)
        units := Function.update s.units u { s.units u with transaction := some ⟨c, [], false⟩ } }
    else none

/-- `bind_tenant`: one statement on the session's transaction. -/
def bindTenant (s : State R α) (u : UnitId) (org : OrgId) : State R α :=
  match (s.units u).transaction with
  | some t => { s with settings := Function.update s.settings t.conn ((s.settings t.conn).setConfig org.str) }
  | none => s

def execute (w : Wiring R) (s : State R α) (u : UnitId) (statement : Statement R α) (refused : Bool) : State R α :=
  match (s.units u).transaction with
  | some t =>
    let (answer, t) := t.execute w (s.settings t.conn) s.committed statement refused
    s.setUnit u { s.units u with transaction := some t, answers := (s.units u).answers ++ [answer] }
  | none => s

/-- The transaction ends and its connection goes back to the pool. A commit of a failed one is a rollback. -/
def endTransaction (s : State R α) (u : UnitId) (keep : Bool) : State R α :=
  match (s.units u).transaction with
  | some t =>
    { committed := if keep ∧ t.failed = false then t.visible s.committed else s.committed
      settings := Function.update s.settings t.conn (s.settings t.conn).endTransaction
      holder := Function.update s.holder t.conn none
      units := Function.update s.units u { s.units u with transaction := none } }
  | none => s

/-- `session.close()` -/
def close (s : State R α) (u : UnitId) : State R α :=
  let s := s.endTransaction u false
  s.setUnit u { s.units u with entered := false }

/-- One step; `none` when the action is not enabled. The one caller of the bootstrap function is a unit made
for no tenant. -/
def step (w : Wiring R) (s : State R α) : Action R α → Option (State R α)
  | .aenter u c =>
    if (s.units u).entered then none
    else
      let s := s.setUnit u { s.units u with entered := true }
      match w.rlsEnabled, w.tenantId u with
      | true, some org => (s.begin u c).map (·.bindTenant u org)
      | _, _ => some s
  | .execute u c statement refused =>
    if (s.units u).entered then
      match statement, w.tenantId u with
      | .securityDefiner _, some _ => none
      | _, _ => (s.begin u c).map (·.execute w u statement refused)
    else none
  | .commit u => if (s.units u).entered then some (s.endTransaction u true) else none
  | .rollback u => if (s.units u).entered then some (s.endTransaction u false) else none
  | .aexit u raised =>
    if (s.units u).entered then some ((if raised then s.endTransaction u false else s).close u) else none
  | .recycle c =>
    if s.holder c = none then some { s with settings := Function.update s.settings c ⟨none, none⟩ } else none

def run (w : Wiring R) (s : State R α) : List (Action R α) → Option (State R α)
  | [] => some s
  | a :: rest => (s.step w a).bind fun s' => run w s' rest

/-- New connections, and no unit of work entered. -/
def start (db : Multiset R) : State R α :=
  ⟨db, fun _ => ⟨none, none⟩, fun _ => none, fun _ => ⟨false, none, []⟩⟩

end State
end
end LlmGateway.Persistence
