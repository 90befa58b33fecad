import LlmGateway.Lib.TableSum
import LlmGateway.Ledger.SqlRefinement

/-! How a committed effect bears on one organization's budget, holds and cost rows. -/
namespace LlmGateway.Ledger.Sql
open Lib.ReadCommitted
variable {pg : Postgres}

/-- A commit either leaves the organization alone, or it is one of its own new hold,
settlement, release and sweep. -/
inductive Posting (org : OrgId) (σ σ' : LedgerRows pg) : Call → Timestamp → Prop where
  | untouched {call now}
      (hq : ∀ cid d row, call = .settle org cid d → σ .budgetReservation (org, cid) = some row →
        row.status = .committed)
      (hb : σ' .orgBudget org = σ .orgBudget org)
      (hr : ∀ cid, σ' .budgetReservation (org, cid) = σ .budgetReservation (org, cid))
      (hc : ∀ cid, σ' .costLedger (org, cid) = σ .costLedger (org, cid)) : Posting org σ σ' call now
  | held {cid e now row} (hu : Unheld σ (org, cid)) (hrow : row = heldRow σ (org, cid) e now)
      (hl : row.status = .reserved ∧ row.estimatedCost = e.amount) (hn : 0 ≤ e.amount)
      (hg : ∀ b, σ .orgBudget org = some b → covers e.amount b = true)
      (hb : σ' .orgBudget org = (σ .orgBudget org).map (addHold e))
      (hr : ∀ k, σ' .budgetReservation k =
        if k = (org, cid) then some row else σ .budgetReservation k)
      (hc : σ' .costLedger = σ .costLedger) : Posting org σ σ' (.reserve org cid e) now
  | settled {cid d now row} (h : σ .budgetReservation (org, cid) = some row)
      (hs : row.status = .reserved ∨ row.status = .expired) (hn : 0 ≤ d.totalCost.amount)
      (hb : σ' .orgBudget org = (σ .orgBudget org).map (settleBudget row d))
      (hr : ∀ k, σ' .budgetReservation k =
        if k = (org, cid) then some (markCommitted d now row) else σ .budgetReservation k)
      (hc : ∀ k, σ' .costLedger k =
        if k = (org, cid) ∧ σ .costLedger k = none then some (costRow d now) else σ .costLedger k) :
      Posting org σ σ' (.settle org cid d) now
  | released {cid now row} (h : σ .budgetReservation (org, cid) = some row)
      (hs : row.status = .reserved)
      (hb : σ' .orgBudget org = (σ .orgBudget org).map (giveBack row.estimatedCost))
      (hr : ∀ k, σ' .budgetReservation k =
        if k = (org, cid) then some (markReleased now row) else σ .budgetReservation k)
      (hc : σ' .costLedger = σ .costLedger) : Posting org σ σ' (.release org cid) now
  | reclaimed {olderThan now ks}
      (h : ∀ k ∈ ks, ∃ row, σ .budgetReservation k = some row ∧ stale org olderThan k row = true)
      (hb : σ' .orgBudget org = (σ .orgBudget org).map (giveBack (reclaimedTotal σ ks)))
      (hr : ∀ k, σ' .budgetReservation k =
        if k ∈ ks then (σ .budgetReservation k).map (markExpired now) else σ .budgetReservation k)
      (hc : σ' .costLedger = σ .costLedger) : Posting org σ σ' (.reconcileExpired org olderThan) now

/-- The reservation a session is for that is about to commit a reserve. -/
def committingReserve : Session (schema pg) LockKey Call Answer → Option ReservationKey
  | .running (.reserve org cid _) _ (.commit _) => some (org, cid)
  | _ => none

variable {σ σ' : LedgerRows pg} {org : OrgId}

theorem heldRow_live (k : ReservationKey) (e : Money) (now : Timestamp) :
    (heldRow σ k e now).status = .reserved ∧ (heldRow σ k e now).estimatedCost = e.amount := by
  unfold heldRow
  cases σ .budgetReservation k <;> exact ⟨rfl, rfl⟩

theorem BudgetReservation.check_nonneg {r : BudgetReservation} (h : r.check = true) :
    0 ≤ r.estimatedCost := by
  simp only [BudgetReservation.check, Bool.and_eq_true, decide_eq_true_eq] at h
  exact h.1.2

theorem markCommitted_check {d : SettlementDetail} {now : Timestamp} {r : BudgetReservation}
    (h : (markCommitted d now r).check = true) : 0 ≤ d.totalCost.amount := by
  simp only [BudgetReservation.check, markCommitted, Bool.and_eq_true, decide_eq_true_eq,
    Option.all_some] at h
  exact h.2

/-- An effect leaves the rows of every other organization alone. -/
theorem Effect.frame {call now a} (h : Effect call now a σ σ') (ho : call.organizationId ≠ org) :
    σ' .orgBudget org = σ .orgBudget org ∧
      (∀ cid, σ' .budgetReservation (org, cid) = σ .budgetReservation (org, cid)) ∧
      ∀ cid, σ' .costLedger (org, cid) = σ .costLedger (org, cid) := by
  have ho' := Ne.symm ho
  cases h with
  | replayed => exact ⟨rfl, fun _ => rfl, fun _ => rfl⟩
  | alreadySettled => exact ⟨rfl, fun _ => rfl, fun _ => rfl⟩
  | alreadyReturned => exact ⟨rfl, fun _ => rfl, fun _ => rfl⟩
  | nothingStale => exact ⟨rfl, fun _ => rfl, fun _ => rfl⟩
  | held => simp_all [booked, only, nothing, Call.organizationId]
  | settled => simp_all [booked, only, recorded, Call.organizationId]
  | released => simp_all [booked, only, nothing, Call.organizationId]
  | @reclaimed _ org' olderThan now ks hk =>
    have hks (cid : CorrelationId) : (org, cid) ∉ ks := fun hm => by
      obtain ⟨row, _, hs⟩ := hk _ hm
      simp only [stale, decide_eq_true_eq] at hs
      exact ho hs.1.symm
    simp_all [booked, swept, nothing, Call.organizationId]

theorem Effect.posting {call now a} (h : Effect call now a σ σ') (org : OrgId) :
    Posting org σ σ' call now := by
  by_cases ho : call.organizationId = org
  · subst ho
    cases h with
    | replayed => exact .untouched (fun _ _ _ h => by cases h) rfl (fun _ => rfl) (fun _ => rfl)
    | @held _ org cid e now hu hk hg =>
      have hl := @heldRow_live pg σ (org, cid) e now
      exact .held hu rfl hl (hl.2 ▸ BudgetReservation.check_nonneg hk) hg (booked_install _ _)
        (only_install _ · _) rfl
    | alreadySettled h hs =>
      refine .untouched (fun cid d row he hr => ?_) rfl (fun _ => rfl) (fun _ => rfl)
      cases he
      obtain rfl := Option.some.inj (h.symm.trans hr)
      exact hs
    | settled h hs hk _ =>
      exact .settled h hs (markCommitted_check hk) (booked_install _ _) (only_install _ · _) (recorded_install _ · _)
    | alreadyReturned => exact .untouched (fun _ _ _ h => by cases h) rfl (fun _ => rfl) (fun _ => rfl)
    | released h hs => exact .released h hs (booked_install _ _) (only_install _ · _) rfl
    | reclaimed hk => exact .reclaimed hk (booked_install _ _) (swept_install _ _ ·) rfl
    | nothingStale => exact .untouched (fun _ _ _ h => by cases h) rfl (fun _ => rfl) (fun _ => rfl)
  · obtain ⟨hb, hr, hc⟩ := h.frame ho
    refine .untouched (fun cid d row he _ => ?_) hb hr hc
    subst he
    exact absurd rfl ho

/-- Only a settlement commits a row, and only its own. -/
theorem Posting.committed_of {call : Call} {now : Timestamp} (h : Posting org σ σ' call now)
    {cid : CorrelationId} {r : BudgetReservation}
    (hr : σ' .budgetReservation (org, cid) = some r) (hs : r.status = .committed) :
    (∃ r₀, σ .budgetReservation (org, cid) = some r₀ ∧ r₀.status = .committed) ∨
      ∃ d, call = .settle org cid d := by
  cases h with
  | untouched _ _ hrows => exact .inl ⟨r, hrows cid ▸ hr, hs⟩
  | held _ _ hl _ _ _ hrows =>
    rw [hrows] at hr
    split_ifs at hr with heq
    · cases hr
      rw [hl.1] at hs
      cases hs
    · exact .inl ⟨r, hr, hs⟩
  | settled _ _ _ _ hrows =>
    rw [hrows] at hr
    split_ifs at hr with heq
    · cases heq
      exact .inr ⟨_, rfl⟩
    · exact .inl ⟨r, hr, hs⟩
  | released _ _ _ hrows =>
    rw [hrows] at hr
    split_ifs at hr with heq
    · cases hr
      cases hs
    · exact .inl ⟨r, hr, hs⟩
  | reclaimed _ _ hrows =>
    rw [hrows] at hr
    split_ifs at hr with heq
    · obtain ⟨_, _, rfl⟩ := Option.map_eq_some_iff.mp hr
      cases hs
    · exact .inl ⟨r, hr, hs⟩

/-- Nothing but a settlement changes what is spent. -/
theorem Posting.spent_of {call : Call} {now : Timestamp} (h : Posting org σ σ' call now)
    (hc : ∀ cid d, call ≠ .settle org cid d) {b : OrgBudget}
    (hb : σ .orgBudget org = some b) : ∃ b', σ' .orgBudget org = some b' ∧ b'.spent = b.spent := by
  cases h with
  | untouched _ h => exact ⟨b, h.trans hb, rfl⟩
  | held _ _ _ _ _ h => exact ⟨addHold _ b, by rw [h, hb]; rfl, rfl⟩
  | settled => exact absurd rfl (hc _ _)
  | released _ _ h => exact ⟨giveBack _ b, by rw [h, hb]; rfl, rfl⟩
  | reclaimed _ h => exact ⟨giveBack _ b, by rw [h, hb]; rfl, rfl⟩

/-- A settlement of a row that is not settled yet spends its total. -/
theorem Effect.settle_of_unsettled {cid : CorrelationId} {d : SettlementDetail} {now : Timestamp}
    {a : Answer} (h : Effect (.settle org cid d) now a σ σ')
    (hu : ∀ r, σ .budgetReservation (org, cid) = some r → r.status ≠ .committed) :
    a = .ok .done ∧ (∀ k, k ≠ (org, cid) → σ' .budgetReservation k = σ .budgetReservation k) ∧
      ∀ b, σ .orgBudget org = some b → ∃ b', σ' .orgBudget org = some b' ∧
        b'.spent = b.spent + d.totalCost.amount := by
  cases h with
  | alreadySettled hr hs => exact absurd hs (hu _ hr)
  | @settled _ _ _ _ _ row hr hs =>
    refine ⟨rfl, fun k hk => ?_, fun b hb => ⟨settleBudget row d b, ?_, ?_⟩⟩
    · exact (only_install _ k _).trans (if_neg hk)
    · exact (booked_install _ _).trans (by rw [hb]; rfl)
    · unfold settleBudget
      split <;> rfl

end LlmGateway.Ledger.Sql
