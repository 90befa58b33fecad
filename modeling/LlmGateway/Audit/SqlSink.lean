import Mathlib
import LlmGateway.Lib.ProofOutline
import LlmGateway.Ledger.SqlEffects
import LlmGateway.Audit.Chain

/-! `SqlAuthAuditSink.record`: its transaction, and what it knows between its statements. -/
namespace LlmGateway.Audit
open Lib.ReadCommitted Ledger
open Ledger.Sql (Postgres only nothing)

inductive Table where
  | auditEvent
  | auditChainHead
  deriving DecidableEq

structure AuditChainHead where
  entryHash : Digest
  updatedAt : DateTime
  deriving DecidableEq

abbrev EventKey := Uuid × DateTime

/-- Migrations 0001 and 0007: the primary key of `audit_event` is `(id, created_at)`, and a chain head
references its organization. -/
@[reducible] def schema (pg : Postgres) : Schema where
  Table := Table
  Key
    | .auditEvent => EventKey
    | .auditChainHead => OrgId
  Row
    | .auditEvent => AuditEvent
    | .auditChainHead => AuditChainHead
  valid _ _ := true
  references
    | .auditEvent, _ => true
    | .auditChainHead, org => pg.organization org
  decKey
    | .auditEvent => inferInstanceAs (DecidableEq EventKey)
    | .auditChainHead => inferInstanceAs (DecidableEq OrgId)

/-- The key of `pg_advisory_xact_lock(bigint)`. -/
abbrev LockKey := BitVec 32

def lockKey (pg : Postgres) (org : OrgId) : LockKey := pg.hashtext org.str

/-- A call of `record`, with the id it draws and the time it reads. -/
structure RecordCall where
  event : AuthAuditEvent
  id : Uuid
  createdAt : DateTime
  deriving DecidableEq

def RecordCall.key (call : RecordCall) : EventKey := (call.id, call.createdAt)

inductive RecordAnswer where
  | done
  | auditSinkUnavailable
  deriving DecidableEq, Repr

section
variable (pg : Postgres) (sha256 : String → Digest)

abbrev AuditTxn (pg : Postgres) := Txn (schema pg) LockKey RecordAnswer

def updateHead (org : OrgId) (head : AuditChainHead) (next : AuditTxn pg) : AuditTxn pg :=
  .exec (.update .auditChainHead org (fun _ => true) fun _ => head) fun _ => next

/-- `INSERT .. ON CONFLICT (organization_id) DO UPDATE`, as the insertion and the update it makes:
others may come in between. -/
def upsertHead (org : OrgId) (head : AuditChainHead) (next : AuditTxn pg) : AuditTxn pg :=
  .exec (.insertOnConflictDoNothing .auditChainHead org head) fun _ => updateHead pg org head next

def recordEntry (call : RecordCall) (org : OrgId) (prevHash : Option Digest) : AuditTxn pg :=
  let row := entry sha256 call.event org prevHash call.createdAt
  .exec (.insert .auditEvent call.key row) fun _ =>
    upsertHead pg org ⟨row.entryHash, call.createdAt⟩ (.commit .done)

def recordRead (call : RecordCall) (org : OrgId) : AuditTxn pg :=
  .exec (.select .auditChainHead org) fun (head : Option AuditChainHead) =>
    recordEntry pg sha256 call org (head.map (·.entryHash))

/-- An event without a tenant opens no transaction. -/
def record (call : RecordCall) : AuditTxn pg :=
  match call.event.organizationId with
  | none => .commit .done
  | some org => .exec (.advisoryXactLock (lockKey pg org)) fun _ => recordRead pg sha256 call org

/-- Any database error becomes `AuditSinkUnavailableError`. -/
def sink : Service (schema pg) LockKey RecordCall RecordAnswer where
  program call _ := record pg sha256 call
  unavailable := .auditSinkUnavailable

end
section Outline
variable {pg : Postgres} {sha256 : String → Digest}

abbrev AuditRows (pg : Postgres) := Rows (schema pg)

/-- The versions a recording transaction holds. -/
def holding (events : EventKey → Option (Option AuditEvent)) (heads : OrgId → Option (Option AuditChainHead)) :
    Own (schema pg)
  | .auditEvent => events
  | .auditChainHead => heads

/-- The digest at the head of an organization's chain. -/
def headHash (σ : AuditRows pg) (org : OrgId) : Option Digest :=
  ((σ .auditChainHead org : Option AuditChainHead)).map (·.entryHash)

/-- What a recording transaction appends. -/
def appended (sha256 : String → Digest) (call : RecordCall) (org : OrgId) (prevHash : Option Digest) : AuditEvent :=
  entry sha256 call.event org prevHash call.createdAt

def newHead (sha256 : String → Digest) (call : RecordCall) (org : OrgId) (prevHash : Option Digest) :
    AuditChainHead :=
  ⟨(appended sha256 call org prevHash).entryHash, call.createdAt⟩

/-- The annotation of each program point. Under its organization's lock the head it read stays. -/
inductive At (sha256 : String → Digest) (σ : AuditRows pg) :
    Own (schema pg) → Set LockKey → RecordCall → Int → AuditTxn pg → Prop where
  | tenantless {call now} : call.event.organizationId = none →
      At sha256 σ (holding nothing nothing) ∅ call now (.commit .done)
  | start {call org now} : call.event.organizationId = some org →
      At sha256 σ (holding nothing nothing) ∅ call now
        (.exec (.advisoryXactLock (lockKey pg org)) fun _ => recordRead pg sha256 call org)
  | recordRead {call org now} : call.event.organizationId = some org →
      At sha256 σ (holding nothing nothing) {lockKey pg org} call now (recordRead pg sha256 call org)
  | recordEntry {call org now prev} : call.event.organizationId = some org → headHash σ org = prev →
      At sha256 σ (holding nothing nothing) {lockKey pg org} call now (recordEntry pg sha256 call org prev)
  | upsertHead {call org now prev} : call.event.organizationId = some org → headHash σ org = prev →
      σ .auditEvent call.key = none →
      At sha256 σ (holding (only call.key (appended sha256 call org prev)) nothing) {lockKey pg org} call now
        (upsertHead pg org (newHead sha256 call org prev) (.commit .done))
  | updateHead {call org now prev heads} : call.event.organizationId = some org → headHash σ org = prev →
      σ .auditEvent call.key = none →
      (heads = only org (newHead sha256 call org prev) ∨ heads = nothing ∧ σ .auditChainHead org ≠ none) →
      At sha256 σ (holding (only call.key (appended sha256 call org prev)) heads) {lockKey pg org} call now
        (updateHead pg org (newHead sha256 call org prev) (.commit .done))
  | done {call org now prev} : call.event.organizationId = some org → headHash σ org = prev →
      σ .auditEvent call.key = none →
      At sha256 σ (holding (only call.key (appended sha256 call org prev)) (only org (newHead sha256 call org prev)))
        {lockKey pg org} call now (.commit .done)

/-- What a commit does to the rows: nothing, or it appends a row to the organization's chain. -/
inductive Effect (sha256 : String → Digest) (call : RecordCall) (σ : AuditRows pg) : AuditRows pg → Prop where
  | tenantless : call.event.organizationId = none → Effect sha256 call σ σ
  | recorded {org σ'} : call.event.organizationId = some org → σ .auditEvent call.key = none →
      σ' .auditEvent = Function.update (σ .auditEvent) call.key (some (appended sha256 call org (headHash σ org))) →
      σ' .auditChainHead = Function.update (σ .auditChainHead) org
        (some (newHead sha256 call org (headHash σ org))) →
      Effect sha256 call σ σ'

/-- Only an event with an organization changes the rows. -/
theorem Effect.organization {call : RecordCall} {σ σ' : AuditRows pg} (h : Effect sha256 call σ σ') (changed : σ' ≠ σ) :
    call.event.organizationId ≠ none := by
  cases h with
  | tenantless => exact absurd rfl changed
  | recorded ho =>
    rw [ho]
    exact Option.some_ne_none _

theorem At.commit_cases {σ : AuditRows pg} {own lk call now a} (h : At sha256 σ own lk call now (.commit a)) :
    a = .done ∧ ((call.event.organizationId = none ∧ own = holding nothing nothing) ∨
      ∃ org, call.event.organizationId = some org ∧ lk = {lockKey pg org} ∧ σ .auditEvent call.key = none ∧
        own = holding (only call.key (appended sha256 call org (headHash σ org)))
          (only org (newHead sha256 call org (headHash σ org)))) := by
  generalize hp : (Txn.commit a : AuditTxn pg) = p at h
  cases h with
  | tenantless hn =>
    cases hp
    exact ⟨rfl, .inl ⟨hn, rfl⟩⟩
  | done ho hh he =>
    cases hp
    subst hh
    exact ⟨rfl, .inr ⟨_, ho, rfl, he, rfl⟩⟩
  | _ => cases hp

section Stable
variable {σ : AuditRows pg} {own own' : Own (schema pg)} {lk lk' : Set LockKey}

private theorem install_event (own : Own (schema pg)) (k : EventKey) (h : own .auditEvent k = none) :
    own.install σ .auditEvent k = σ .auditEvent k := by
  simp [Own.install, h]

private theorem install_head (own : Own (schema pg)) (org : OrgId) (h : own .auditChainHead org = none) :
    own.install σ .auditChainHead org = σ .auditChainHead org := by
  simp [Own.install, h]

/-- A committing transaction writes a head under its organization's lock alone. -/
private theorem At.head_locked {call now a} (h : At sha256 σ own' lk' call now (.commit a)) {org : OrgId}
    (hl : lockKey pg org ∉ lk') : own' .auditChainHead org = none := by
  obtain ⟨-, ⟨-, rfl⟩ | ⟨org', -, rfl, -, rfl⟩⟩ := h.commit_cases
  · rfl
  · refine if_neg ?_
    rintro rfl
    exact hl rfl

/-- No commit by another transaction invalidates an annotation. -/
theorem At.stable {call call' now now' p a} (h : At sha256 σ own lk call now p)
    (h' : At sha256 σ own' lk' call' now' (.commit a)) (hd : ∀ tb k, own tb k ≠ none → own' tb k = none)
    (hl : ∀ x ∈ lk, x ∉ lk') : At sha256 (own'.install σ) own lk call now p := by
  have head_kept (org : OrgId) (ho : lockKey pg org ∈ lk) :
      own'.install σ .auditChainHead org = σ .auditChainHead org :=
    install_head own' org (h'.head_locked (hl _ ho))
  have hash_kept (org : OrgId) (ho : lockKey pg org ∈ lk) : headHash (own'.install σ) org = headHash σ org := by
    rw [headHash, head_kept org ho]
    rfl
  have event_kept (k : EventKey) (hk : own .auditEvent k ≠ none) (he : σ .auditEvent k = none) :
      own'.install σ .auditEvent k = none := by
    rw [install_event own' k (hd .auditEvent k hk), he]
  have written {call : RecordCall} {row : AuditEvent} {heads : OrgId → Option (Option AuditChainHead)} :
      (holding (only call.key row) heads : Own (schema pg)) .auditEvent call.key ≠ none := by
    simp [holding, only]
  cases h with
  | tenantless hn => exact .tenantless hn
  | start ho => exact .start ho
  | recordRead ho => exact .recordRead ho
  | recordEntry ho hh => exact .recordEntry ho ((hash_kept _ rfl).trans hh)
  | upsertHead ho hh he => exact .upsertHead ho ((hash_kept _ rfl).trans hh) (event_kept _ written he)
  | updateHead ho hh he hw =>
    refine .updateHead ho ((hash_kept _ rfl).trans hh) (event_kept _ written he) (hw.imp_right fun hw => ⟨hw.1, ?_⟩)
    rw [head_kept _ rfl]
    exact hw.2
  | done ho hh he => exact .done ho ((hash_kept _ rfl).trans hh) (event_kept _ written he)

end Stable

theorem At.begins (σ : AuditRows pg) (call : RecordCall) (now : Int) :
    At sha256 σ Own.empty ∅ call now (record pg sha256 call) := by
  have empty : (Own.empty : Own (schema pg)) = holding nothing nothing := by
    funext tb k
    cases tb <;> rfl
  rw [empty, record]
  cases ho : call.event.organizationId with
  | none => exact .tenantless ho
  | some org => exact .start ho

private theorem put_event (heads : OrgId → Option (Option AuditChainHead)) (k : EventKey) (row : AuditEvent) :
    (holding nothing heads : Own (schema pg)).put .auditEvent {k} (fun _ => some row) =
      holding (only k row) heads := by
  funext tb k'
  cases tb with
  | auditEvent => simp [holding, only, nothing]
  | auditChainHead => exact @Own.put_of_ne (schema pg) _ .auditEvent .auditChainHead _ _ (fun same => by cases same) k'

private theorem put_head {events : EventKey → Option (Option AuditEvent)}
    {heads : OrgId → Option (Option AuditChainHead)} {org : OrgId} {head : AuditChainHead}
    (h : heads = only org head ∨ heads = nothing) :
    (holding events heads : Own (schema pg)).put .auditChainHead {org} (fun _ => some head) =
      holding events (only org head) := by
  funext tb k'
  cases tb with
  | auditEvent => exact @Own.put_of_ne (schema pg) _ .auditChainHead .auditEvent _ _ (fun same => by cases same) k'
  | auditChainHead =>
    rcases h with rfl | rfl
    · by_cases hk : k' = org <;> simp [holding, only, hk]
    · simp [holding, only, nothing]

/-- Each statement leads from its annotation to the next. -/
theorem At.execs {db db' : Db (schema pg) LockKey} {t seen call now} {s : Stmt (schema pg) LockKey}
    {next : s.Result → AuditTxn pg} {r : s.Result}
    (h : At sha256 db.committed (db.own t) (db.locks t) call now (.exec s next))
    (he : db.exec t seen s = .ok db' r) :
    At sha256 db.committed (db'.own t) (db'.locks t) call now (next r) := by
  generalize hown : db.own t = own at h
  generalize hlk : db.locks t = lk at h
  generalize hp : (Txn.exec s next : AuditTxn pg) = p at h
  cases h with
  | tenantless => cases hp
  | done => cases hp
  | start ho =>
    cases hp
    obtain ⟨own', lk'⟩ := Db.exec_lock he
    rw [own', lk', hown, hlk, insert_empty_eq]
    exact .recordRead ho
  | recordRead ho =>
    cases hp
    obtain ⟨rfl, rfl⟩ := Db.exec_select he
    rw [hown, hlk]
    exact .recordEntry ho rfl
  | recordEntry ho hh =>
    cases hp
    obtain ⟨lk', fresh, -, own'⟩ := Db.exec_insert he
    rw [hown] at fresh own'
    rw [own', lk', hlk, put_event]
    exact .upsertHead ho hh fresh
  | @upsertHead call org now prev ho hh hk =>
    cases hp
    obtain ⟨lk', -, ⟨there, rfl⟩ | ⟨absent, -, own'⟩⟩ := Db.exec_insertOnConflictDoNothing he
    · rw [hown] at there ⊢
      rw [hlk]
      exact .updateHead ho hh hk (.inr ⟨rfl, there⟩)
    · rw [hown] at own'
      rw [own', lk', hlk, put_head (.inr rfl)]
      exact .updateHead ho hh hk (.inl rfl)
  | @updateHead call org now prev heads ho hh hk hw =>
    cases hp
    obtain ⟨lk', ⟨-, -, missed⟩ | ⟨row, -, -, -, -, own'⟩⟩ := Db.exec_update he
    · -- a head is there: its own insertion's or the one it met
      exfalso
      have visible : ∃ head, (db.own t).install db.committed .auditChainHead org = some head := by
        rw [hown]
        rcases hw with rfl | ⟨rfl, there⟩
        · exact ⟨newHead sha256 call org prev, by simp [Own.install, holding, only]⟩
        · exact Option.ne_none_iff_exists'.mp there
      obtain ⟨head, visible⟩ := visible
      exact Bool.noConfusion (missed head visible)
    · rw [hown] at own'
      rw [own', lk', hlk, put_head (hw.imp_right And.left)]
      exact .done ho hh hk

theorem At.commits {σ : AuditRows pg} {own lk call now a} (h : At sha256 σ own lk call now (.commit a)) :
    Effect sha256 call σ (own.install σ) := by
  obtain ⟨-, ⟨hn, rfl⟩ | ⟨org, ho, -, he, rfl⟩⟩ := h.commit_cases
  · have same : (holding nothing nothing : Own (schema pg)).install σ = σ := by
      funext tb k
      cases tb <;> rfl
    rw [same]
    exact .tenantless hn
  · refine .recorded ho he ?_ ?_
    · funext k
      by_cases hk : k = call.key <;> simp [Own.install, holding, only, hk]
    · funext o
      by_cases hk : o = org <;> simp [Own.install, holding, only, hk]

/-- The outline of the sink. -/
def outline (pg : Postgres) (sha256 : String → Digest) : Outline (sink pg sha256) where
  At := At sha256
  Effect call _ _ := Effect sha256 call
  begins := At.begins
  execs := At.execs
  commits := At.commits
  stable := At.stable

end Outline
end LlmGateway.Audit
