import LlmGateway.Audit.SqlSink
import LlmGateway.Audit.TamperEvidence

/-! The audit log is one chain per organization, in every interleaving of recording transactions. -/
namespace LlmGateway.Audit
open Lib.ReadCommitted Ledger
open Ledger.Sql (Postgres contended)

section Chain
variable {sha256 : String → Digest}

/-- Each row points to the one before it, and its digest is that of what it holds. -/
def Linked (sha256 : String → Digest) : Option Digest → List AuditEvent → Prop
  | _, [] => True
  | prevHash, row :: rest =>
    row.prevHash = prevHash ∧ row.entryHash = row.chainEntryHash sha256 ∧ Linked sha256 (some row.entryHash) rest

/-- The digest of the last row. -/
def tip (chain : List AuditEvent) : Option Digest := chain.getLast?.map (·.entryHash)

theorem tip_append (chain : List AuditEvent) (row : AuditEvent) : tip (chain ++ [row]) = some row.entryHash := by
  rw [tip, List.getLast?_concat, Option.map_some]

private theorem tip_cons (row : AuditEvent) (chain : List AuditEvent) :
    tip (row :: chain) = (tip chain).or (some row.entryHash) := by
  rw [tip, tip, List.getLast?_cons]
  cases chain.getLast? <;> rfl

theorem linked_append (prevHash : Option Digest) (chain : List AuditEvent) (row : AuditEvent) :
    Linked sha256 prevHash (chain ++ [row]) ↔ Linked sha256 prevHash chain ∧
      row.prevHash = (tip chain).or prevHash ∧ row.entryHash = row.chainEntryHash sha256 := by
  induction chain generalizing prevHash with
  | nil => simp [Linked, tip]
  | cons first chain ih =>
    rw [List.cons_append, Linked, Linked, ih, tip_cons, Option.or_assoc, Option.some_or]
    simp only [and_assoc]

/-- An organization's rows, in the order of the log. -/
def chainOf {pg : Postgres} (σ : AuditRows pg) (org : OrgId) (log : List EventKey) : List AuditEvent :=
  (log.filterMap fun k => (σ .auditEvent k : Option AuditEvent)).filter (·.organizationId = org)

end Chain

section
variable {pg : Postgres} {sha256 : String → Digest}

abbrev AuditSystem (pg : Postgres) := System (schema pg) LockKey RecordCall RecordAnswer

def noRows : Tables (schema pg) where
  rows _ _ := none
  keys
    | .auditEvent => (∅ : Finset EventKey)
    | .auditChainHead => (∅ : Finset OrgId)
  mem_keys _ _ h := absurd rfl h

/-- The keys of the events recorded, in commit order. -/
def commitLog (s : AuditSystem pg) (a : Action (schema pg) RecordCall) (log : List EventKey) : List EventKey :=
  match a with
  | .exec t _ =>
    match s.sessions t with
    | .running call _ (.commit _) => if call.event.organizationId.isSome then log ++ [call.key] else log
    | _ => log
  | _ => log

/-- The rows are those of the log, in one chain for each organization, and its head is there. -/
structure Chained (sha256 : String → Digest) (σ : AuditRows pg) (log : List EventKey) : Prop where
  nodup : log.Nodup
  present : ∀ k, k ∈ log ↔ σ .auditEvent k ≠ none
  linked : ∀ org, Linked sha256 none (chainOf σ org log)
  head : ∀ org, headHash σ org = tip (chainOf σ org log)

theorem chained_noRows : Chained sha256 (noRows : Tables (schema pg)).rows [] where
  nodup := List.nodup_nil
  present _ := by simp [noRows]
  linked _ := trivial
  head _ := rfl

/-- A recorded event goes to the end of its organization's chain, and to no other. -/
private theorem chainOf_recorded {σ σ' : AuditRows pg} {k : EventKey} {row : AuditEvent} {log : List EventKey}
    (absent : k ∉ log) (events : σ' .auditEvent = Function.update (σ .auditEvent) k (some row)) (org : OrgId) :
    chainOf σ' org (log ++ [k]) =
      chainOf σ org log ++ if row.organizationId = org then [row] else [] := by
  have before : log.filterMap (fun k => (σ' .auditEvent k : Option AuditEvent)) =
      log.filterMap fun k => (σ .auditEvent k : Option AuditEvent) := by
    apply List.filterMap_congr
    intro k' hk'
    have other : k' ≠ k := fun h => absent (h ▸ hk')
    rw [events, Function.update_of_ne other]
  have this : (σ' .auditEvent k : Option AuditEvent) = some row := by rw [events, Function.update_self]
  rw [chainOf, List.filterMap_append, before, List.filter_append]
  congr 1
  rw [List.filterMap_cons, this, List.filterMap_nil, List.filter_cons, List.filter_nil]
  simp only [decide_eq_true_eq]

theorem Chained.commits {σ σ' : AuditRows pg} {call : RecordCall} {log : List EventKey}
    (h : Chained sha256 σ log) (effect : Effect sha256 call σ σ') :
    Chained sha256 σ' (if call.event.organizationId.isSome then log ++ [call.key] else log) := by
  cases effect with
  | tenantless hn =>
    rw [hn]
    exact h
  | @recorded org _ ho fresh events heads =>
    have absent : call.key ∉ log := fun hk => (h.present call.key).mp hk fresh
    have chains (org' : OrgId) : chainOf σ' org' (log ++ [call.key]) =
        chainOf σ org' log ++ if org = org' then [appended sha256 call org (headHash σ org)] else [] :=
      chainOf_recorded absent events org'
    rw [ho, Option.isSome_some, if_pos rfl]
    constructor
    · refine List.nodup_append.mpr ⟨h.nodup, List.nodup_singleton _, ?_⟩
      rintro k hk _ hk' rfl
      rw [List.mem_singleton] at hk'
      exact absent (hk' ▸ hk)
    · intro k
      rw [List.mem_append, List.mem_singleton, h.present k, events]
      by_cases hk : k = call.key
      · subst hk
        simp
      · simp [hk]
    · intro org'
      rw [chains org']
      split_ifs with same
      · subst same
        rw [linked_append, Option.or_none, ← h.head]
        exact ⟨h.linked org, rfl, entry_hash ..⟩
      · rw [List.append_nil]
        exact h.linked org'
    · intro org'
      rw [chains org', headHash, heads]
      split_ifs with same
      · subst same
        rw [tip_append, Function.update_self]
        rfl
      · rw [List.append_nil, Function.update_of_ne (Ne.symm same)]
        exact h.head org'

private theorem commit_step {s s' : AuditSystem pg} {a log} (commits : (outline pg sha256).Commits s s' a)
    (h : Chained sha256 s.db.committed log) : Chained sha256 s'.db.committed (commitLog s a log) := by
  cases commits with
  | silent quiet same =>
    have unlogged : commitLog s a log = log := by
      unfold commitLog
      split
      · split
        · rename_i running
          exact absurd running (quiet _ _ _ _ _ rfl)
        · rfl
      · rfl
    rw [unlogged, same]
    exact h
  | commit running _ effect =>
    simp only [commitLog, running]
    exact h.commits effect

/-- In every interleaving of recording transactions, each organization's rows are one chain in commit
order and its head is the digest of the last. The rows change only when a record of an event with an
organization commits, and answers that it is done. -/
theorem one_chain_per_organization (now : Int) (schedule : List (Action (schema pg) RecordCall)) (s : AuditSystem pg)
    (hs : (System.start noRows now).run (sink pg sha256) schedule = some s) :
    Chained sha256 s.db.committed (System.history (sink pg sha256) commitLog (.start noRows now) schedule []) ∧
    ∀ a s', s.step (sink pg sha256) a = some s' → s'.db.committed ≠ s.db.committed →
      ∃ t seen call begun, a = .exec t seen ∧ s.sessions t = .running call begun (.commit .done) ∧
        s'.sessions t = .finished call .done ∧ call.event.organizationId ≠ none := by
  have chained := (outline pg sha256).run_rule (fun _ _ => True) commitLog (fun s log => Chained sha256 s.db.committed log)
    (fun _ commits h => commit_step commits h) ((outline pg sha256).start_holds noRows now) chained_noRows
    (Outline.along_true _ _) hs
  refine ⟨chained.2, ?_⟩
  intro a s' step changed
  obtain ⟨-, commits⟩ := (outline pg sha256).step_holds chained.1 step
  cases commits with
  | silent _ same => exact absurd same changed
  | @commit t seen call begun answer running result effect =>
    have holds := chained.1 t
    simp only [running] at holds
    obtain ⟨rfl, -⟩ := holds.commit_cases
    refine ⟨t, seen, call, begun, rfl, running, ?_, ?_⟩
    · rw [result]
      exact Function.update_self ..
    · exact effect.organization changed

end

/-- A rejection before any organization is known. -/
def anonymousEvent : AuthAuditEvent := { action := "request.rejected", result := "invalid_token" }

/-- Two records of one organization, and one of an event without. -/
def interleaved : List (Action (schema contended) RecordCall) :=
  .begin 0 ⟨expiredEvent, 7, noon⟩ :: .begin 1 ⟨revokedEvent, 8, noon⟩ :: .begin 2 ⟨anonymousEvent, 9, noon⟩ ::
    System.statements 0 2 ++ System.statements 2 1 ++ System.statements 0 4 ++ System.statements 1 6

theorem one_chain_per_organization_interleaved :
    ∃ s, (System.start noRows 0).run (sink contended codePoints) interleaved = some s ∧
      Chained codePoints s.db.committed
        (System.history (sink contended codePoints) commitLog (.start noRows 0) interleaved []) := by
  have runs : Option.isSome ((System.start noRows 0).run (sink contended codePoints) interleaved) = true := by
    decide +kernel
  obtain ⟨s, hs⟩ := Option.isSome_iff_exists.mp runs
  exact ⟨s, hs, (one_chain_per_organization 0 interleaved s hs).1⟩

end LlmGateway.Audit
