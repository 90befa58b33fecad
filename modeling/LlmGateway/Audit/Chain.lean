import LlmGateway.Ledger.Port
import LlmGateway.Lib.Text

/-! The audit hash chain: the row an event leaves, and the digest over its predecessor's. -/
namespace LlmGateway.Audit
open Ledger Lib

abbrev Uuid := OrgId

/-- A `datetime` in UTC. -/
structure DateTime where
  year : Nat
  month : Nat
  day : Nat
  hour : Nat
  minute : Nat
  second : Nat
  microsecond : Nat
  date : 1 ≤ year ∧ year ≤ 9999 ∧ 1 ≤ month ∧ month ≤ 12 ∧ 1 ≤ day ∧ day ≤ 31
  time : hour ≤ 23 ∧ minute ≤ 59 ∧ second ≤ 59 ∧ microsecond ≤ 999999
  deriving DecidableEq

/-- A number padded with zeros. -/
def pad (width n : Nat) : String := String.ofList (fixedDigits 10 width n)

/-- The microseconds are shown when there are any. -/
def DateTime.isoformat (t : DateTime) : String :=
  pad 4 t.year ++ "-" ++ pad 2 t.month ++ "-" ++ pad 2 t.day ++ "T" ++ pad 2 t.hour ++ ":" ++
    pad 2 t.minute ++ ":" ++ pad 2 t.second ++
    (if t.microsecond = 0 then "" else "." ++ pad 6 t.microsecond) ++ "+00:00"

inductive PrincipalType where
  | user
  | serviceAccount
  | apiKey
  deriving DecidableEq, Repr

def PrincipalType.value : PrincipalType → String
  | .user => "user"
  | .serviceAccount => "service_account"
  | .apiKey => "api_key"

/-- The four members of `audit_result`. -/
inductive AuditResult where
  | allow
  | deny
  | success
  | failure
  deriving DecidableEq, Repr

def AuditResult.value : AuditResult → String
  | .allow => "allow"
  | .deny => "deny"
  | .success => "success"
  | .failure => "failure"

structure AuthAuditEvent where
  action : String
  result : String
  organizationId : Option OrgId := none
  principalType : Option String := none
  subjectId : Option Uuid := none
  detail : Option String := none
  deriving DecidableEq, Repr

/-- The bytes of a digest; there are always some. -/
structure Digest where
  bytes : List UInt8
  nonempty : bytes ≠ []
  deriving DecidableEq

/-- `bytes.hex()`. -/
def hex (bytes : List UInt8) : String := String.ofList (bytes.flatMap fun b => fixedDigits 16 2 b.toNat)

/-- `_SEP`, the unit separator. -/
def sep : String := "\x1f"

/-- `_actor_type`. -/
def actorType (raw : Option String) : Option PrincipalType :=
  [PrincipalType.user, .serviceAccount, .apiKey].find? fun p => raw = some p.value

/-- `_SUCCESS` or `_FAILURE`. -/
def auditResult (decision : String) : AuditResult := if decision = "success" then .success else .failure

section
variable (sha256 : String → Digest)

def chainEntryHash (prevHash : Option (List UInt8)) (organizationId : OrgId) (actorType : Option String)
    (actorId : Option Uuid) (action result : String) (detail : Option String) (createdAt : DateTime) : Digest :=
  sha256 (sep.intercalate [(prevHash.map hex).getD "", organizationId.str, actorType.getD "",
    (actorId.map OrgId.str).getD "", action, result, detail.getD "", createdAt.isoformat])

/-- The `detail` column: the decision, and the event's detail when it has one. -/
structure AuditDetail where
  decision : String
  detail : Option String
  deriving DecidableEq, Repr

/-- The columns of an `audit_event` row but for its id and its digest. -/
structure Contents where
  organizationId : OrgId
  actorType : Option PrincipalType
  actorId : Option Uuid
  action : String
  result : AuditResult
  detail : AuditDetail
  prevHash : Option Digest
  createdAt : DateTime
  deriving DecidableEq

structure AuditEvent extends Contents where
  entryHash : Digest
  deriving DecidableEq

/-- The digest of what a row holds. -/
def Contents.chainEntryHash (c : Contents) : Digest :=
  Audit.chainEntryHash sha256 (c.prevHash.map (·.bytes)) c.organizationId (c.actorType.map (·.value)) c.actorId c.action
    c.result.value c.detail.detail c.createdAt

/-- The row `SqlAuthAuditSink.record` inserts. -/
def entry (event : AuthAuditEvent) (organizationId : OrgId) (prevHash : Option Digest)
    (createdAt : DateTime) : AuditEvent :=
  let result := auditResult event.result
  { organizationId
    actorType := actorType event.principalType
    actorId := event.subjectId
    action := event.action
    result
    detail := ⟨event.result, event.detail⟩
    prevHash
    createdAt
    entryHash := chainEntryHash sha256 (prevHash.map (·.bytes)) organizationId
      ((actorType event.principalType).map (·.value)) event.subjectId event.action result.value event.detail createdAt }

theorem entry_hash (event : AuthAuditEvent) (organizationId : OrgId) (prevHash : Option Digest)
    (createdAt : DateTime) : (entry sha256 event organizationId prevHash createdAt).entryHash =
      (entry sha256 event organizationId prevHash createdAt).chainEntryHash sha256 :=
  rfl

end
end LlmGateway.Audit
