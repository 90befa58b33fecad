import LlmGateway.Ledger.SqlSerial

/-! One hold under the calls that can end it, each served alone. -/
namespace LlmGateway.Ledger.Sql
open Lib.ReadCommitted
variable {pg : Postgres} {T : Tables (schema pg)} {now : Timestamp} {org : OrgId}
  {cid : CorrelationId}

/-- A reserve that makes a row live has written its own hold there. -/
theorem held_of_reserve {e : Money} (h₀ : ¬ Live T.rows (org, cid))
    (h₁ : Live ((ledger pg).serve T now (.reserve org cid e)).1.rows (org, cid)) :
    ((ledger pg).serve T now (.reserve org cid e)).2 = reservedReply org cid e ∧
      ∃ r, ((ledger pg).serve T now (.reserve org cid e)).1.rows .budgetReservation (org, cid) =
        some r ∧ r.status = .reserved ∧ r.currency = e.currency := by
  obtain ⟨hrows, hans⟩ := serve_eq_alone T now (.reserve org cid e)
  rw [hrows] at h₁ ⊢
  rw [hans]
  have held (h : Live (holdAlone T now org cid e).1 (org, cid)) :
      (holdAlone T now org cid e).2 = reservedReply org cid e ∧
        ∃ r, (holdAlone T now org cid e).1 .budgetReservation (org, cid) = some r ∧
          r.status = .reserved ∧ r.currency = e.currency := by
    unfold holdAlone at h ⊢
    dsimp only at h ⊢
    split_ifs at h ⊢
    · refine ⟨rfl, heldRow T.rows (org, cid) e now, by simp [only], ?_⟩
      unfold heldRow
      cases T.rows .budgetReservation (org, cid) <;> exact ⟨rfl, rfl⟩
    · exact absurd h h₀
  have fresh (h : Live (budgetAlone T now org cid e).1 (org, cid)) :
      (budgetAlone T now org cid e).2 = reservedReply org cid e ∧
        ∃ r, (budgetAlone T now org cid e).1 .budgetReservation (org, cid) = some r ∧
          r.status = .reserved ∧ r.currency = e.currency := by
    unfold budgetAlone at h ⊢
    split at h
    · exact held h
    · split_ifs at h ⊢
      · exact absurd h h₀
      · exact absurd h h₀
      · exact held h
      · exact absurd h h₀
  simp only [alone, reserveAlone] at h₁ ⊢
  split at h₁
  · exact fresh h₁
  · split_ifs at h₁ ⊢
    · exact fresh h₁
    · exact absurd h₁ h₀

/-- Where there is no row, a reserve either writes its own hold or permits nothing. -/
theorem serve_reserve_fresh (h : T.rows .budgetReservation (org, cid) = none) (e : Money) :
    (((ledger pg).serve T now (.reserve org cid e)).2 = reservedReply org cid e ∧
      Live ((ledger pg).serve T now (.reserve org cid e)).1.rows (org, cid)) ∨
    (((ledger pg).serve T now (.reserve org cid e)).1.rows = T.rows ∧
      ∀ result, ((ledger pg).serve T now (.reserve org cid e)).2 = .ok (.reservation result) →
        result.permitted = false) := by
  obtain ⟨hrows, hans⟩ := serve_eq_alone T now (.reserve org cid e)
  rw [hrows, hans]
  have held : ((holdAlone T now org cid e).2 = reservedReply org cid e ∧
        Live (holdAlone T now org cid e).1 (org, cid)) ∨
      ((holdAlone T now org cid e).1 = T.rows ∧
        ∀ result, (holdAlone T now org cid e).2 = .ok (.reservation result) →
          result.permitted = false) := by
    unfold holdAlone
    dsimp only
    split_ifs
    · exact .inl ⟨rfl, freshReservation e now, by simp [only, heldRow, h], rfl⟩
    · exact .inr ⟨rfl, fun _ hr => by cases hr⟩
  simp only [alone, reserveAlone, h, budgetAlone]
  split
  · exact held
  · split_ifs
    · exact .inr ⟨rfl, fun _ hr => by cases hr⟩
    · refine .inr ⟨rfl, fun _ hr => ?_⟩
      cases hr
      rfl
    · exact held
    · exact .inr ⟨rfl, fun _ hr => by cases hr⟩

/-- A sweep writes no row where there is none. -/
theorem serve_reconcileExpired_fresh (h : T.rows .budgetReservation (org, cid) = none)
    (o : OrgId) (olderThan : Timestamp) :
    ((ledger pg).serve T now (.reconcileExpired o olderThan)).1.rows .budgetReservation
      (org, cid) = none := by
  rw [(serve_eq_alone T now (.reconcileExpired o olderThan)).1]
  simp only [alone, reconcileAlone]
  split_ifs
  · exact h
  · refine (swept_install (staleKeys T o olderThan) now (org, cid)).trans ?_
    rw [h, Option.map_none, ite_self]
  · exact h
  · exact h

/-- The calls that can end a hold. -/
def endsHold : Call → Bool
  | .settle .. | .release .. => true
  | .reserve .. | .reconcileExpired .. => false

/-- They depend on the rows only. -/
theorem serve_congr_rows {T' : Tables (schema pg)} (h : T'.rows = T.rows) (now : Timestamp)
    (call : Call) (hc : endsHold call = true) :
    ((ledger pg).serve T' now call).1.rows = ((ledger pg).serve T now call).1.rows ∧
      ((ledger pg).serve T' now call).2 = ((ledger pg).serve T now call).2 := by
  obtain ⟨hrows, hans⟩ := serve_eq_alone T now call
  obtain ⟨hrows', hans'⟩ := serve_eq_alone T' now call
  have same : alone T' now call = alone T now call := by
    cases call with
    | settle org cid d => simp only [alone, settleAlone, unavailableReply, h]
    | release org cid => simp only [alone, releaseAlone, unavailableReply, h]
    | reserve => cases hc
    | reconcileExpired => cases hc
  rw [hrows, hans, hrows', hans', same]
  exact ⟨rfl, rfl⟩

/-- The status of a reservation's row. -/
def statusOf (σ : LedgerRows pg) (k : ReservationKey) : Option ReservationStatus :=
  (σ .budgetReservation k).map (·.status)

theorem live_iff_statusOf {σ : LedgerRows pg} {k : ReservationKey} :
    Live σ k ↔ statusOf σ k = some .reserved := by
  simp [Live, statusOf]

/-- The rows a release of the hold `row` writes meet their constraints. -/
def releaseFits (σ : LedgerRows pg) (now : Timestamp) (k : ReservationKey)
    (row : BudgetReservation) : Bool :=
  (σ .orgBudget k.1).all (fun b =>
      (schema pg).check .orgBudget k.1 (giveBack row.estimatedCost b)) &&
    (schema pg).check .budgetReservation k (markReleased now row)

/-- The rows a settlement of the hold `row` writes meet their constraints. -/
def settlementFits (σ : LedgerRows pg) (now : Timestamp) (k : ReservationKey)
    (row : BudgetReservation) (d : SettlementDetail) : Bool :=
  (σ .orgBudget k.1).all (fun b => (schema pg).check .orgBudget k.1 (settleBudget row d b)) &&
    (schema pg).check .budgetReservation k (markCommitted d now row) &&
    recordable σ k (costRow d now)

/-- A release changes nothing unless it ends a live hold. -/
theorem serve_release_keeps
    (h : ∀ row, T.rows .budgetReservation (org, cid) = some row → row.status = .reserved →
      releaseFits T.rows now (org, cid) row = false) :
    ((ledger pg).serve T now (.release org cid)).1.rows = T.rows := by
  rw [(serve_eq_alone T now (.release org cid)).1]
  simp only [alone, releaseAlone]
  split
  · rfl
  · rename_i row hr
    split_ifs with hs hf
    · rfl
    · have hl : row.status = .reserved := by
        cases hst : row.status <;> simp_all [ReservationStatus.holdAlreadyReturned]
      exact absurd (h row hr hl) (by rw [show releaseFits T.rows now (org, cid) row = true from hf]; simp)
    · rfl

/-- A refused settlement changes nothing. -/
theorem serve_settle_error {d : SettlementDetail} {e : LedgerError}
    (h : ((ledger pg).serve T now (.settle org cid d)).2 = .error e) :
    ((ledger pg).serve T now (.settle org cid d)).1.rows = T.rows := by
  obtain ⟨hrows, hans⟩ := serve_eq_alone T now (.settle org cid d)
  rw [hans] at h
  rw [hrows]
  simp only [alone, settleAlone] at h ⊢
  split at h
  · rfl
  · split_ifs at h ⊢ <;> rfl

variable (now) {r : BudgetReservation} (hr : T.rows .budgetReservation (org, cid) = some r)
include hr

/-- A hold that has left the budget is released to no effect. -/
theorem serve_release_returned (hs : r.status.holdAlreadyReturned = true) :
    ((ledger pg).serve T now (.release org cid)).2 = .ok .done ∧
      ((ledger pg).serve T now (.release org cid)).1.rows = T.rows := by
  obtain ⟨hrows, hans⟩ := serve_eq_alone T now (.release org cid)
  rw [hrows, hans]
  simp only [alone, releaseAlone, hr, hs, if_true, and_self]

variable (hs : r.status = .reserved)
include hs

/-- A release ends a live hold, or the ledger is unavailable. -/
theorem serve_release_live :
    (((ledger pg).serve T now (.release org cid)).2 = .ok .done ∧
        statusOf ((ledger pg).serve T now (.release org cid)).1.rows (org, cid) =
          some .released) ∨
      (((ledger pg).serve T now (.release org cid)).2 = .error .ledgerUnavailable ∧
        ((ledger pg).serve T now (.release org cid)).1.rows = T.rows) := by
  obtain ⟨hrows, hans⟩ := serve_eq_alone T now (.release org cid)
  rw [hrows, hans]
  simp only [alone, releaseAlone, hr, hs, ReservationStatus.holdAlreadyReturned,
    Bool.false_eq_true, if_false]
  split
  · exact .inl ⟨rfl, by simp [statusOf, only, markReleased]⟩
  · exact .inr ⟨rfl, rfl⟩

/-- A settlement commits a live hold, or is refused and leaves it: for its currency, or because
the ledger is unavailable. -/
theorem serve_settle_live (d : SettlementDetail) :
    (((ledger pg).serve T now (.settle org cid d)).2 = .ok .done ∧
        d.totalCost.currency = r.currency ∧
        statusOf ((ledger pg).serve T now (.settle org cid d)).1.rows (org, cid) =
          some .committed) ∨
      (∃ e, ((ledger pg).serve T now (.settle org cid d)).2 = .error e ∧
        (e = .ledgerUnavailable ∨ e = .unsupportedCurrency ∧ d.totalCost.currency ≠ r.currency) ∧
        ((ledger pg).serve T now (.settle org cid d)).1.rows = T.rows) := by
  obtain ⟨hrows, hans⟩ := serve_eq_alone T now (.settle org cid d)
  rw [hrows, hans]
  simp only [alone, settleAlone, hr, hs, reduceCtorEq, if_false]
  by_cases hd : d.totalCost.currency = r.currency
  · rw [if_neg (not_not_intro hd)]
    split
    · exact .inl ⟨rfl, hd, by simp [statusOf, only, markCommitted]⟩
    · exact .inr ⟨_, rfl, .inl rfl, rfl⟩
  · rw [if_pos hd]
    exact .inr ⟨_, rfl, .inr ⟨rfl, hd⟩, rfl⟩

theorem serve_release_fits (hf : releaseFits T.rows now (org, cid) r = true) :
    statusOf ((ledger pg).serve T now (.release org cid)).1.rows (org, cid) = some .released := by
  rw [(serve_eq_alone T now (.release org cid)).1]
  simp only [alone, releaseAlone, hr, hs, ReservationStatus.holdAlreadyReturned,
    Bool.false_eq_true, if_false]
  simp only [releaseFits] at hf
  rw [if_pos hf]
  simp [statusOf, only, markReleased]

/-- A live hold is settled exactly in its own currency, where the rows fit. -/
theorem serve_settle_ok_iff (d : SettlementDetail) :
    (∃ reply, ((ledger pg).serve T now (.settle org cid d)).2 = .ok reply) ↔
      d.totalCost.currency = r.currency ∧ settlementFits T.rows now (org, cid) r d = true := by
  rw [(serve_eq_alone T now (.settle org cid d)).2]
  simp only [alone, settleAlone, hr, hs, reduceCtorEq, if_false]
  by_cases hd : d.totalCost.currency = r.currency
  · rw [if_neg (not_not_intro hd)]
    simp only [settlementFits]
    split
    next hf => exact iff_of_true ⟨_, rfl⟩ ⟨hd, hf⟩
    next hf =>
      refine iff_of_false ?_ fun h => hf h.2
      rintro ⟨_, h⟩
      cases h
  · rw [if_pos hd]
    refine iff_of_false ?_ fun h => hd h.1
    rintro ⟨_, h⟩
    cases h

end LlmGateway.Ledger.Sql
