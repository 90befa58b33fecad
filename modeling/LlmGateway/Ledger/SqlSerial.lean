import LlmGateway.Lib.Serial
import LlmGateway.Ledger.SqlEffects

/-! The four ledger transactions served one at a time: the rows each leaves and its answer. -/
namespace LlmGateway.Ledger.Sql
open Lib.ReadCommitted
variable {pg : Postgres}

/-- Nothing configured, held or booked. -/
def noRows : Tables (schema pg) where
  rows _ _ := none
  keys
    | .orgBudget => (∅ : Finset OrgId)
    | .budgetReservation => (∅ : Finset (OrgId × CorrelationId))
    | .costLedger => (∅ : Finset (OrgId × CorrelationId))
  mem_keys _ _ h := absurd rfl h

section Alone
variable (T : Tables (schema pg)) (now : Timestamp)

def unavailableReply : LedgerRows pg × Answer := (T.rows, .error .ledgerUnavailable)

/-- The hold and its commit. -/
def holdAlone (org : OrgId) (cid : CorrelationId) (e : Money) : LedgerRows pg × Answer :=
  let row := heldRow T.rows (org, cid) e now
  if (schema pg).check .budgetReservation (org, cid) row then
    ((holding (booked T.rows org (addHold e)) (only (org, cid) row) nothing).install T.rows,
      reservedReply org cid e)
  else unavailableReply T

def budgetAlone (org : OrgId) (cid : CorrelationId) (e : Money) : LedgerRows pg × Answer :=
  match T.rows .orgBudget org with
  | none => holdAlone T now org cid e
  | some b =>
    if e.currency ≠ b.currency then (T.rows, .error .unsupportedCurrency)
    else if covers e.amount b = false then
      (T.rows, exceededReply org cid e ⟨b.amountLimit - b.spent - b.reserved, b.currency⟩)
    else if (schema pg).check .orgBudget org (addHold e b) then holdAlone T now org cid e
    else unavailableReply T

def reserveAlone (org : OrgId) (cid : CorrelationId) (e : Money) : LedgerRows pg × Answer :=
  match T.rows .budgetReservation (org, cid) with
  | none => budgetAlone T now org cid e
  | some r =>
    if r.status = .released ∨ r.status = .expired then budgetAlone T now org cid e
    else (T.rows, reservedReply org cid ⟨r.estimatedCost, r.currency⟩)

def settleAlone (org : OrgId) (cid : CorrelationId) (d : SettlementDetail) :
    LedgerRows pg × Answer :=
  match T.rows .budgetReservation (org, cid) with
  | none => (T.rows, .error .unknownReservation)
  | some row =>
    if row.status = .committed then (T.rows, .ok .done)
    else if row.status = .released then (T.rows, .error .unknownReservation)
    else if d.totalCost.currency ≠ row.currency then (T.rows, .error .unsupportedCurrency)
    else if (T.rows .orgBudget org).all (fun b =>
          (schema pg).check .orgBudget org (settleBudget row d b)) &&
        (schema pg).check .budgetReservation (org, cid) (markCommitted d now row) &&
        recordable T.rows (org, cid) (costRow d now) then
      ((holding (booked T.rows org (settleBudget row d))
        (only (org, cid) (markCommitted d now row))
        (recorded T.rows (org, cid) (costRow d now))).install T.rows, .ok .done)
    else unavailableReply T

def releaseAlone (org : OrgId) (cid : CorrelationId) : LedgerRows pg × Answer :=
  match T.rows .budgetReservation (org, cid) with
  | none => (T.rows, .error .unknownReservation)
  | some row =>
    if row.status.holdAlreadyReturned then (T.rows, .ok .done)
    else if (T.rows .orgBudget org).all (fun b =>
          (schema pg).check .orgBudget org (giveBack row.estimatedCost b)) &&
        (schema pg).check .budgetReservation (org, cid) (markReleased now row) then
      ((holding (booked T.rows org (giveBack row.estimatedCost))
        (only (org, cid) (markReleased now row)) nothing).install T.rows, .ok .done)
    else unavailableReply T

/-- The rows a sweep reclaims when nothing else is running. -/
def staleKeys (org : OrgId) (olderThan : Timestamp) : Finset ReservationKey :=
  (T.keys .budgetReservation).filter fun k =>
    (T.rows .budgetReservation k).any (stale org olderThan k)

def reconcileAlone (org : OrgId) (olderThan : Timestamp) : LedgerRows pg × Answer :=
  let ks := staleKeys T org olderThan
  if ∀ k ∈ ks, (T.rows .budgetReservation k).all fun r =>
      (schema pg).check .budgetReservation k (markExpired now r) then
    if ks.card = 0 then (T.rows, .ok (.reclaimed 0))
    else if (T.rows .orgBudget org).all (fun b =>
        (schema pg).check .orgBudget org (giveBack (reclaimedTotal T.rows ks) b)) then
      ((holding (booked T.rows org (giveBack (reclaimedTotal T.rows ks))) (swept T.rows ks now)
        nothing).install T.rows, .ok (.reclaimed ks.card))
    else unavailableReply T
  else unavailableReply T

/-- The ledger served one call at a time. -/
def alone : Call → LedgerRows pg × Answer
  | .reserve org cid e => reserveAlone T now org cid e
  | .settle org cid d => settleAlone T now org cid d
  | .release org cid => releaseAlone T now org cid
  | .reconcileExpired org olderThan => reconcileAlone T now org olderThan

/-- What a finished transaction leaves and answers. -/
def leaves (result : Db (schema pg) LockKey × Answer) : LedgerRows pg × Answer :=
  (result.1.tables.rows, result.2)

private theorem alone_hold {existing : Option BudgetReservation} {org : OrgId}
    {cid : CorrelationId} {e : Money} {db : Db (schema pg) LockKey}
    (hx : existing = T.rows .budgetReservation (org, cid))
    (h : db.Alone 0 T.rows (holding (booked T.rows org (addHold e)) nothing nothing)) :
    leaves ((hold pg existing org cid e now).alone (.error .ledgerUnavailable) 0 db) =
      holdAlone T now org cid e := by
  cases existing with
  | none =>
    have hh : heldRow T.rows (org, cid) e now = freshReservation e now := by simp [heldRow, ← hx]
    simp only [hold, holdAlone, hh]
    rw [alone_insert h (by simp [nothing, hx])]
    split_ifs with hk
    · have h' := h.hold .budgetReservation {(org, cid)} fun _ => some (freshReservation e now)
      rw [put_only nothing_ne] at h'
      simp only [Txn.alone, leaves, h'.commit_rows]
    · simp only [leaves, h.rollback_rows, unavailableReply]
  | some r =>
    have hh : heldRow T.rows (org, cid) e now = reactivate e r := by simp [heldRow, ← hx]
    have hr : (holding (booked T.rows org (addHold e)) nothing nothing : Own (schema pg)).install
        T.rows .budgetReservation (org, cid) = some r := by simp [nothing, ← hx]
    simp only [hold, holdAlone, hh]
    rw [alone_update h, hr]
    simp only [Bool.true_eq_false, if_false]
    split_ifs with hk
    · have h' := h.hold .budgetReservation {(org, cid)} fun _ => some (reactivate e r)
      rw [put_only nothing_ne] at h'
      simp only [Txn.alone, leaves, h'.commit_rows]
    · simp only [leaves, h.rollback_rows, unavailableReply]

private theorem alone_reserveBudget {existing : Option BudgetReservation} {org : OrgId}
    {cid : CorrelationId} {e : Money} {db : Db (schema pg) LockKey}
    (hx : existing = T.rows .budgetReservation (org, cid))
    (h : db.Alone 0 T.rows (holding nothing nothing nothing)) :
    leaves ((reserveBudget pg existing org cid e now).alone (.error .ledgerUnavailable) 0 db) =
      budgetAlone T now org cid e := by
  have hb : (holding nothing nothing nothing : Own (schema pg)).install T.rows .orgBudget org =
      T.rows .orgBudget org := rfl
  unfold reserveBudget budgetAlone
  rw [alone_select h, hb]
  cases hrow : T.rows .orgBudget org with
  | none =>
    rw [← booked_none (f := addHold e) hrow] at h
    exact alone_hold T now hx h
  | some b =>
    simp only
    split_ifs with hcur hcov hck
    · simp only [Txn.alone, leaves, h.rollback_rows]
    · unfold reserveGate
      rw [alone_update h, hb, hrow]
      simp only [hcov, if_true, Txn.alone, leaves, h.rollback_rows]
    · unfold reserveGate
      rw [alone_update h, hb, hrow]
      simp only [hcov, hck, if_true]
      have h' := h.hold .orgBudget {org} fun _ => some (addHold e b)
      rw [put_booked hrow] at h'
      exact alone_hold T now hx h'
    · unfold reserveGate
      rw [alone_update h, hb, hrow]
      simp only [hcov, hck, Bool.true_eq_false, Bool.false_eq_true, if_false, leaves,
        h.rollback_rows, unavailableReply]

theorem serve_reserve (org : OrgId) (cid : CorrelationId) (e : Money) :
    leaves ((reserve pg org cid e now).alone (.error .ledgerUnavailable) 0 (.quiescent T)) =
      reserveAlone T now org cid e := by
  have h := (Db.Alone.quiescent (L := LockKey) (t := 0) T).lock (lockKey pg org cid)
  rw [empty_eq_holding] at h
  unfold reserve reserveAlone
  rw [alone_lock rfl]
  unfold reserveRead
  rw [alone_select h]
  have hr : (holding nothing nothing nothing : Own (schema pg)).install T.rows .budgetReservation
      (org, cid) = T.rows .budgetReservation (org, cid) := rfl
  rw [hr]
  cases hrow : T.rows .budgetReservation (org, cid) with
  | none => exact alone_reserveBudget T now hrow.symm h
  | some r =>
    simp only
    split_ifs with hs
    · exact alone_reserveBudget T now hrow.symm h
    · simp only [Txn.alone, leaves, h.commit_rows, install_holding_nothing]

/-- An UPDATE of the budget that every organization's row takes, where there is one. -/
private theorem alone_book (org : OrgId) (f : OrgBudget → OrgBudget) (next : LedgerTxn pg)
    {db : Db (schema pg) LockKey} {r : ReservationKey → Option (Option BudgetReservation)}
    (h : db.Alone 0 T.rows (holding nothing r nothing)) :
    ∃ db' : Db (schema pg) LockKey,
      db'.Alone 0 T.rows (holding (booked T.rows org f) r nothing) ∧
      leaves ((.exec (.update .orgBudget org (fun _ => true) f) fun _ => next : LedgerTxn pg).alone
        (.error .ledgerUnavailable) 0 db) =
        if (T.rows .orgBudget org).all fun b => (schema pg).check .orgBudget org (f b) then
          leaves (next.alone (.error .ledgerUnavailable) 0 db')
        else unavailableReply T := by
  have hb : (holding nothing r nothing : Own (schema pg)).install T.rows .orgBudget org =
      T.rows .orgBudget org := rfl
  rw [alone_update h, hb]
  cases hrow : T.rows .orgBudget org with
  | none =>
    refine ⟨db, by rwa [booked_none hrow], ?_⟩
    simp
  | some b =>
    have h' := h.hold .orgBudget {org} fun _ => some (f b)
    rw [put_booked hrow] at h'
    refine ⟨_, h', ?_⟩
    simp only [Bool.true_eq_false, if_false, Option.all_some]
    split_ifs
    · rfl
    · simp only [leaves, h.rollback_rows, unavailableReply]

/-- An UPDATE of the reservation row the transaction has locked. -/
private theorem alone_mark (f : BudgetReservation → BudgetReservation) (next : LedgerTxn pg)
    {key : ReservationKey} {row : BudgetReservation} {db : Db (schema pg) LockKey}
    {b : OrgId → Option (Option OrgBudget)}
    (h : db.Alone 0 T.rows (holding b (only key row) nothing)) :
    ∃ db' : Db (schema pg) LockKey,
      db'.Alone 0 T.rows (holding b (only key (f row)) nothing) ∧
      leaves ((.exec (.update .budgetReservation key (fun _ => true) f) fun _ => next :
        LedgerTxn pg).alone (.error .ledgerUnavailable) 0 db) =
        if (schema pg).check .budgetReservation key (f row) then
          leaves (next.alone (.error .ledgerUnavailable) 0 db')
        else unavailableReply T := by
  have hr : (holding b (only key row) nothing : Own (schema pg)).install T.rows .budgetReservation
      key = some row := by simp [only]
  have h' := h.hold .budgetReservation {key} fun _ => some (f row)
  rw [put_only only_ne] at h'
  refine ⟨_, h', ?_⟩
  rw [alone_update h, hr]
  simp only [Bool.true_eq_false, if_false]
  split_ifs
  · rfl
  · simp only [leaves, h.rollback_rows, unavailableReply]

theorem serve_release (org : OrgId) (cid : CorrelationId) :
    leaves ((release pg org cid now).alone (.error .ledgerUnavailable) 0 (.quiescent T)) =
      releaseAlone T now org cid := by
  have h := Db.Alone.quiescent (L := LockKey) (t := 0) T
  rw [empty_eq_holding] at h
  have hr : (holding nothing nothing nothing : Own (schema pg)).install T.rows .budgetReservation
      (org, cid) = T.rows .budgetReservation (org, cid) := rfl
  unfold release releaseAlone
  rw [alone_selectForUpdate h, hr]
  cases hrow : T.rows .budgetReservation (org, cid) with
  | none => simp only [Txn.alone, leaves, h.rollback_rows]
  | some row =>
    have hl := h.hold .budgetReservation {(org, cid)} fun _ => some row
    rw [put_only nothing_ne] at hl
    simp only
    by_cases hs : row.status.holdAlreadyReturned = true
    · rw [if_pos hs, if_pos hs]
      simp only [Txn.alone, leaves, hl.commit_rows, install_locked hrow]
    · obtain ⟨db₁, h₁, e₁⟩ := alone_book T org (giveBack row.estimatedCost)
        (releaseMark pg org cid now) hl
      obtain ⟨db₂, h₂, e₂⟩ := alone_mark T (markReleased now) (.commit (.ok .done)) h₁
      rw [if_neg hs, if_neg hs, releaseReturn, e₁, releaseMark, e₂]
      simp only [Bool.and_eq_true, ite_and, Txn.alone, leaves, h₂.commit_rows]

private theorem alone_record {org : OrgId} {cid : CorrelationId} {d : SettlementDetail}
    {db : Db (schema pg) LockKey} {b : OrgId → Option (Option OrgBudget)}
    {r : ReservationKey → Option (Option BudgetReservation)}
    (h : db.Alone 0 T.rows (holding b r nothing)) :
    leaves ((settleRecord pg org cid d now).alone (.error .ledgerUnavailable) 0 db) =
      if recordable T.rows (org, cid) (costRow d now) then
        ((holding b r (recorded T.rows (org, cid) (costRow d now))).install T.rows, .ok .done)
      else unavailableReply T := by
  have hc : (holding b r nothing : Own (schema pg)).install T.rows .costLedger (org, cid) =
      T.rows .costLedger (org, cid) := rfl
  unfold settleRecord
  rw [alone_insertOnConflictDoNothing h, hc]
  cases hrow : T.rows .costLedger (org, cid) with
  | some c =>
    have hrec : recorded T.rows (org, cid) (costRow d now) = nothing :=
      recorded_conflict (by simp [hrow])
    simp only [recordable, hrow, Option.isSome_some, Bool.true_or, Bool.and_true]
    split_ifs
    · simp only [Txn.alone, leaves, h.commit_rows, hrec]
    · simp only [leaves, h.rollback_rows, unavailableReply]
  | none =>
    have h' := h.hold .costLedger {(org, cid)} fun _ => some (costRow d now)
    rw [put_recorded hrow] at h'
    have fits : recordable T.rows (org, cid) (costRow d now) =
        (schema pg).check .costLedger (org, cid) (costRow d now) := by
      simp only [recordable, hrow, Option.isSome_none, Bool.false_or, Bool.and_comm, Schema.check]
    rw [fits]
    dsimp only
    split_ifs
    · simp only [Txn.alone, leaves, h'.commit_rows]
    · simp only [leaves, h.rollback_rows, unavailableReply]

theorem serve_settle (org : OrgId) (cid : CorrelationId) (d : SettlementDetail) :
    leaves ((settle pg org cid d now).alone (.error .ledgerUnavailable) 0 (.quiescent T)) =
      settleAlone T now org cid d := by
  have h := Db.Alone.quiescent (L := LockKey) (t := 0) T
  rw [empty_eq_holding] at h
  have hr : (holding nothing nothing nothing : Own (schema pg)).install T.rows .budgetReservation
      (org, cid) = T.rows .budgetReservation (org, cid) := rfl
  unfold settle settleAlone
  rw [alone_selectForUpdate h, hr]
  cases hrow : T.rows .budgetReservation (org, cid) with
  | none => simp only [Txn.alone, leaves, h.rollback_rows]
  | some row =>
    have hl := h.hold .budgetReservation {(org, cid)} fun _ => some row
    rw [put_only nothing_ne] at hl
    simp only
    by_cases hcommitted : row.status = .committed
    · rw [if_pos hcommitted, if_pos hcommitted]
      simp only [Txn.alone, leaves, hl.commit_rows, install_locked hrow]
    rw [if_neg hcommitted, if_neg hcommitted]
    by_cases hreleased : row.status = .released
    · rw [if_pos hreleased, if_pos hreleased]
      simp only [Txn.alone, leaves, hl.rollback_rows]
    rw [if_neg hreleased, if_neg hreleased]
    by_cases hcur : d.totalCost.currency ≠ row.currency
    · rw [if_pos hcur, if_pos hcur]
      simp only [Txn.alone, leaves, hl.rollback_rows]
    rw [if_neg hcur, if_neg hcur]
    obtain ⟨db₁, h₁, e₁⟩ := alone_book T org (settleBudget row d) (settleMark pg org cid d now) hl
    obtain ⟨db₂, h₂, e₂⟩ := alone_mark T (markCommitted d now) (settleRecord pg org cid d now) h₁
    rw [settleBook, e₁, settleMark, e₂, alone_record T now h₂]
    simp only [Bool.and_eq_true, and_assoc, ite_and]

theorem staleKeys_spec (org : OrgId) (olderThan : Timestamp) :
    ∀ k ∈ staleKeys T org olderThan, ∃ row, T.rows .budgetReservation k = some row ∧
      stale org olderThan k row = true := by
  intro k hk
  obtain ⟨row, hrow, hs⟩ := (Option.any_eq_true ..).mp (Finset.mem_filter.mp hk).2
  exact ⟨row, hrow, hs⟩

theorem serve_reconcileExpired (org : OrgId) (olderThan : Timestamp) :
    leaves ((reconcileExpired pg org olderThan now).alone (.error .ledgerUnavailable) 0
      (.quiescent T)) = reconcileAlone T now org olderThan := by
  have h := Db.Alone.quiescent (L := LockKey) (t := 0) T
  rw [empty_eq_holding] at h
  unfold reconcileExpired reconcileAlone
  rw [alone_updateSkipLocked h]
  have hks : (((Db.quiescent T : Db (schema pg) LockKey).keys .budgetReservation).filter fun k =>
      ((holding nothing nothing nothing : Own (schema pg)).install T.rows .budgetReservation k).any
        (stale org olderThan k)) = staleKeys T org olderThan := rfl
  have hinst : (holding nothing nothing nothing : Own (schema pg)).install T.rows
      .budgetReservation = T.rows .budgetReservation := rfl
  rw [hks, hinst]
  obtain ⟨hcard, hsum⟩ := @reclaimed_rows pg T.rows org olderThan now _ (staleKeys_spec T org olderThan)
  have hs := h.hold .budgetReservation (staleKeys T org olderThan)
    fun k => (T.rows .budgetReservation k).map (markExpired now)
  rw [put_swept] at hs
  dsimp only
  by_cases hck : ∀ k ∈ staleKeys T org olderThan, (T.rows .budgetReservation k).all (fun r =>
      (schema pg).check .budgetReservation k (markExpired now r)) = true
  · rw [if_pos hck, if_pos hck, hcard]
    by_cases hz : (staleKeys T org olderThan).card = 0
    · rw [if_pos hz, if_pos hz]
      rw [Finset.card_eq_zero.mp hz] at hs ⊢
      have hw : swept T.rows ∅ now = nothing := by funext k; simp [swept, nothing]
      rw [hw] at hs
      simp only [Txn.alone, leaves, hs.commit_rows, install_holding_nothing]
    · rw [if_neg hz, if_neg hz]
      obtain ⟨db₁, h₁, e₁⟩ := alone_book T org
        (giveBack (reclaimedTotal T.rows (staleKeys T org olderThan)))
        (.commit (.ok (.reclaimed (staleKeys T org olderThan).card))) hs
      rw [reconcileReturn, hcard, hsum, e₁]
      simp only [Txn.alone, leaves, h₁.commit_rows]
  · rw [if_neg hck, if_neg hck]
    simp only [leaves, h.rollback_rows, unavailableReply]

/-- Serving a call alone leaves the rows, and gives the answer, of `alone`. -/
theorem serve_eq_alone (call : Call) :
    ((ledger pg).serve T now call).1.rows = (alone T now call).1 ∧
      ((ledger pg).serve T now call).2 = (alone T now call).2 := by
  apply Prod.mk.inj
  cases call with
  | reserve org cid e => exact serve_reserve T now org cid e
  | settle org cid d => exact serve_settle T now org cid d
  | release org cid => exact serve_release T now org cid
  | reconcileExpired org olderThan => exact serve_reconcileExpired T now org olderThan

variable {T now}

/-- Every row the call writes meets the constraints of its table, where `fits` stands for those of the budgets; so
does the cost row it proposes, apart from its reference, where there is one. -/
def StorableBy (fits : OrgId → OrgBudget → Bool) (T : Tables (schema pg)) (now : Timestamp) : Call → Prop
  | .reserve org cid e =>
    (∀ r, T.rows .budgetReservation (org, cid) = some r →
      r.status = .released ∨ r.status = .expired) →
    (∀ b, T.rows .orgBudget org = some b → covers e.amount b = true) →
    (∀ b, T.rows .orgBudget org = some b → fits org (addHold e b) = true) ∧
      (schema pg).check .budgetReservation (org, cid) (heldRow T.rows (org, cid) e now) = true
  | .settle org cid d => ∀ r, T.rows .budgetReservation (org, cid) = some r →
    r.status = .reserved ∨ r.status = .expired →
    (∀ b, T.rows .orgBudget org = some b → fits org (settleBudget r d b) = true) ∧
      (schema pg).check .budgetReservation (org, cid) (markCommitted d now r) = true ∧
      recordable T.rows (org, cid) (costRow d now) = true
  | .release org cid => ∀ r, T.rows .budgetReservation (org, cid) = some r →
    r.status = .reserved →
    (∀ b, T.rows .orgBudget org = some b → fits org (giveBack r.estimatedCost b) = true) ∧
      (schema pg).check .budgetReservation (org, cid) (markReleased now r) = true
  | .reconcileExpired org olderThan =>
    let ks := staleKeys T org olderThan
    (∀ k ∈ ks, ∀ r, T.rows .budgetReservation k = some r →
      (schema pg).check .budgetReservation k (markExpired now r) = true) ∧
      (ks.card ≠ 0 → ∀ b, T.rows .orgBudget org = some b →
        fits org (giveBack (reclaimedTotal T.rows ks) b) = true)

/-- Every row the call writes meets the constraints of its table. -/
abbrev Storable (T : Tables (schema pg)) (now : Timestamp) (call : Call) : Prop :=
  StorableBy ((schema pg).check .orgBudget) T now call

private theorem holdAlone_available {org : OrgId} {cid : CorrelationId} {e : Money}
    (fits : (schema pg).check .budgetReservation (org, cid) (heldRow T.rows (org, cid) e now) = true) :
    (holdAlone T now org cid e).2 ≠ .error .ledgerUnavailable := by
  simp [holdAlone, fits, reservedReply]

private theorem budgetAlone_available {org : OrgId} {cid : CorrelationId} {e : Money}
    (fits : (∀ b, T.rows .orgBudget org = some b → covers e.amount b = true) →
      (∀ b, T.rows .orgBudget org = some b → (schema pg).check .orgBudget org (addHold e b) = true) ∧
        (schema pg).check .budgetReservation (org, cid) (heldRow T.rows (org, cid) e now) = true) :
    (budgetAlone T now org cid e).2 ≠ .error .ledgerUnavailable := by
  unfold budgetAlone
  cases hb : T.rows .orgBudget org with
  | none => exact holdAlone_available (fits fun b h => by rw [hb] at h; cases h).2
  | some b =>
    dsimp only
    split_ifs with currency covered check
    · simp
    · simp [exceededReply]
    · refine holdAlone_available (fits fun b' h => ?_).2
      rw [hb] at h
      cases h
      exact eq_true_of_ne_false covered
    · refine absurd ((fits fun b' h => ?_).1 b hb) check
      rw [hb] at h
      cases h
      exact eq_true_of_ne_false covered

variable (now) in
/-- A settlement in another currency than its row's writes nothing. -/
theorem serve_settle_currency {org : OrgId} {cid : CorrelationId} {d : SettlementDetail} {row : BudgetReservation}
    (hr : T.rows .budgetReservation (org, cid) = some row) (hd : d.totalCost.currency ≠ row.currency) :
    ((ledger pg).serve T now (.settle org cid d)).1.rows = T.rows ∧
      ((ledger pg).serve T now (.settle org cid d)).2 ≠ .error .ledgerUnavailable := by
  obtain ⟨rows, answer⟩ := serve_eq_alone T now (.settle org cid d)
  rw [rows, answer]
  simp only [alone, settleAlone, hr]
  split_ifs <;> simp

/-- A call whose rows meet their constraints is not refused by the database. -/
theorem Storable.available {call : Call} (h : Storable T now call) :
    ((ledger pg).serve T now call).2 ≠ .error .ledgerUnavailable := by
  rw [(serve_eq_alone T now call).2]
  cases call with
  | reserve org cid e =>
    simp only [alone, reserveAlone]
    cases hr : T.rows .budgetReservation (org, cid) with
    | none => exact budgetAlone_available (h fun r there => by rw [hr] at there; cases there)
    | some r =>
      dsimp only
      split_ifs with returned
      · refine budgetAlone_available (h fun r' there => ?_)
        rw [hr] at there
        cases there
        exact returned
      · simp [reservedReply]
  | settle org cid d =>
    simp only [alone, settleAlone]
    cases hr : T.rows .budgetReservation (org, cid) with
    | none => simp
    | some r =>
      dsimp only
      split_ifs with committed released currency check
      · simp
      · simp
      · simp
      · simp
      · have open_ : r.status = .reserved ∨ r.status = .expired := by
          cases hs : r.status <;> simp_all
        obtain ⟨book, mark, record⟩ := h r hr open_
        refine absurd ?_ check
        rw [Bool.and_eq_true, Bool.and_eq_true, Option.all_eq_true]
        exact ⟨⟨book, mark⟩, record⟩
  | release org cid =>
    simp only [alone, releaseAlone]
    cases hr : T.rows .budgetReservation (org, cid) with
    | none => simp
    | some r =>
      dsimp only
      split_ifs with returned check
      · simp
      · simp
      · have live : r.status = .reserved := by
          cases hs : r.status <;> simp_all [ReservationStatus.holdAlreadyReturned]
        obtain ⟨book, mark⟩ := h r hr live
        refine absurd ?_ check
        rw [Bool.and_eq_true, Option.all_eq_true]
        exact ⟨book, mark⟩
  | reconcileExpired org olderThan =>
    obtain ⟨marks, book⟩ := h
    simp only [alone, reconcileAlone]
    split_ifs with check empty booked
    · simp
    · simp
    · exact absurd ((Option.all_eq_true ..).mpr (book empty)) booked
    · exact absurd (fun k hk => (Option.all_eq_true ..).mpr (marks k hk)) check

end Alone
end LlmGateway.Ledger.Sql
