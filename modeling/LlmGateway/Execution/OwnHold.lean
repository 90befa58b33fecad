import LlmGateway.Execution.Operation
import LlmGateway.Ledger.SqlHold

/-! What becomes of the hold an operation takes: it is settled or released unless the call
escapes through an error that is not an accounting defect. -/
namespace LlmGateway.Execution
open Lib.ReadCommitted Ledger Ledger.Sql Accounting

variable {pg : Postgres}

/-- The row the operation holds under. -/
def RoutedRequest.key (request : RoutedRequest) : ReservationKey :=
  (request.organizationId, request.correlationId)

/-- A settle or a release of the operation was answered by an outage. -/
def LedgerFailed (calls : List (Call × Answer)) : Prop :=
  ∃ c ∈ calls, endsHold c.1 = true ∧ c.2 = .error .ledgerUnavailable

instance (calls : List (Call × Answer)) : Decidable (LedgerFailed calls) :=
  inferInstanceAs (Decidable (∃ c ∈ calls, endsHold c.1 = true ∧ c.2 = .error .ledgerUnavailable))

section
variable (py : PythonStr) (ports : Ports) (request : RoutedRequest)

/-- The operation's own reserve created the hold: its row was not live before. -/
def NewlyHeld (w : World pg) : Prop :=
  ¬ Live (reclaim ports request w).tables.rows request.key ∧
    Live (reserve py ports request w).1.tables.rows request.key

instance (w : World pg) : Decidable (NewlyHeld py ports request w) :=
  inferInstanceAs (Decidable (¬ Live _ _ ∧ Live _ _))

/-- Settling fails in a way the coordinator has no handler for: usage that can be accounted for,
and then no price table, a cost that cannot be computed, or one in another currency than the
hold's. -/
def Uncaught (response : ProviderResponse) : Prop :=
  response.ok = true ∧ ∃ usage, response.usage = some usage ∧
    0 ≤ usage.promptTokens ∧ 0 ≤ usage.completionTokens ∧
    (ports.priceAfter = .unavailable ∨
      ∃ after, ports.priceAfter = .price after ∧
        ((∃ e, computeCost py usage after = .error e) ∨
          ∃ before, ports.priceBefore = .price before ∧ after.currency ≠ before.currency))

end

variable {py : PythonStr} {ports : Ports} {request : RoutedRequest} {w : World pg}
  {response : ProviderResponse} {put : PutOutcome}

/-- What a reserve that creates its hold leaves: a permitted reservation, over a live row in the
currency of the price it was estimated with. -/
theorem reserve_of_newlyHeld (h : NewlyHeld py ports request w) :
    ∃ before r reservation, ports.priceBefore = .price before ∧
      (reserve py ports request w).2 = .ok reservation ∧ reservation.permitted = true ∧
      (reserve py ports request w).1.tables.rows .budgetReservation request.key = some r ∧
      r.status = .reserved ∧ r.currency = before.currency := by
  obtain ⟨h₀, h₁⟩ := h
  unfold reserve at h₁ ⊢
  dsimp only at h₁ ⊢
  split at h₁
  next => exact absurd h₁ h₀
  next => exact absurd h₁ h₀
  next before hp =>
    split at h₁
    next => exact absurd h₁ h₀
    next i o e hc =>
      cases hout : ports.reserveOut with
      | true =>
        simp only [World.call, hout, if_true] at h₁
        exact absurd h₁ h₀
      | false =>
        simp only [World.call, hout, Bool.false_eq_true, if_false] at h₁ ⊢
        obtain ⟨hans, r, hr, hs, hcur⟩ := held_of_reserve h₀ h₁
        rw [hans]
        exact ⟨before, r, _, hp, rfl, rfl, hr, hs, hcur.trans (computeCost_currency hc)⟩

section Live
variable {r : BudgetReservation}
  (hr : w.tables.rows .budgetReservation request.key = some r) (hs : r.status = .reserved)
include hr hs

private theorem release_ends (h : ¬ LedgerFailed (release ports request w).1.calls) :
    ¬ Live (release ports request w).1.tables.rows request.key := by
  have failed (he : (release ports request w).1.calls.getLast? =
      some (.release request.organizationId request.correlationId, .error .ledgerUnavailable)) :
      False :=
    h ⟨_, List.mem_of_getLast? he, rfl, rfl⟩
  cases hout : ports.releaseOut with
  | true => exact (failed (by simp [release, World.call, hout])).elim
  | false =>
    rcases serve_release_live ports.releaseAt hr hs with ⟨_, hended⟩ | ⟨he, _⟩
    · rw [live_iff_statusOf]
      simp [release, World.call, hout, RoutedRequest.key, hended]
    · exact (failed (by simp [release, World.call, hout, he])).elim

/-- With a detail in the hold's currency the settlement ends the hold; in another it does not. -/
private theorem settle_ends_iff {usage : Option ProviderUsage} {detail : SettlementDetail}
    (ha : account py usage request.provider ports.priceAfter = .ok detail)
    (h : ¬ LedgerFailed (settle py ports request usage w).1.calls) :
    ¬ Live (settle py ports request usage w).1.tables.rows request.key ↔
      detail.totalCost.currency = r.currency := by
  have failed (he : (settle py ports request usage w).1.calls.getLast? =
      some (.settle request.organizationId request.correlationId detail,
        .error .ledgerUnavailable)) : False :=
    h ⟨_, List.mem_of_getLast? he, rfl, rfl⟩
  cases hout : ports.settleOut with
  | true => exact (failed (by simp [settle, ha, World.call, hout])).elim
  | false =>
    have after : (settle py ports request usage w).1.tables =
        ((ledger pg).serve w.tables ports.settleAt
          (.settle request.organizationId request.correlationId detail)).1 := by
      simp [settle, ha, World.call, hout]
    rw [after, live_iff_statusOf]
    rcases serve_settle_live ports.settleAt hr hs detail with
      ⟨_, hd, hended⟩ | ⟨e, he, rfl | ⟨rfl, hd⟩, hrows⟩
    · exact iff_of_true (by simp [RoutedRequest.key, hended]) hd
    · exact (failed (by simp [settle, ha, World.call, hout, he])).elim
    · refine iff_of_false (not_not_intro ?_) hd
      rw [hrows, ← live_iff_statusOf]
      exact ⟨r, hr, hs⟩

end Live

/-- In terms of what accounting for the call comes to. -/
private theorem uncaught_iff (request : RoutedRequest) {before : ModelPrice} (hok : response.ok = true)
    (hp : ports.priceBefore = .price before) :
    Uncaught py ports response ↔
      match account py response.usage request.provider ports.priceAfter with
      | .error e => e.accountingDefect = false
      | .ok detail => detail.totalCost.currency ≠ before.currency := by
  unfold Uncaught account
  simp only [hok, hp, true_and]
  cases hu : response.usage with
  | none => simp [CostError.accountingDefect]
  | some usage =>
    by_cases hneg : usage.promptTokens < 0 ∨ usage.completionTokens < 0
    · simp only [if_pos hneg, CostError.accountingDefect, Bool.true_eq_false, iff_false]
      rintro ⟨_, ⟨rfl⟩, h₁, h₂, _⟩
      omega
    · have hnn : 0 ≤ usage.promptTokens ∧ 0 ≤ usage.completionTokens := by omega
      simp only [if_neg hneg]
      cases hl : ports.priceAfter with
      | unavailable => simp [CostError.accountingDefect, hnn]
      | unpriced => simp [CostError.accountingDefect]
      | price after =>
        cases hc : computeCost py usage after with
        | error e =>
          have he : e.accountingDefect = false := computeCost_not_defect hc
          simp [hc, he, hnn]
        | ok costs =>
          obtain ⟨i, o, t⟩ := costs
          simp [hc, hnn, computeCost_currency hc]

private theorem safePut_ledger (w : World pg) (put : PutOutcome) (entry : CachedResponse) :
    (w.safePut put entry).1.tables = w.tables ∧ (w.safePut put entry).1.calls = w.calls := by
  cases put <;> exact ⟨rfl, rfl⟩

/-- A call that can be accounted for concludes with its settlement. -/
private theorem conclude_settled (put : PutOutcome) (request : RoutedRequest) (w : World pg)
    {detail : SettlementDetail} (hok : response.ok = true)
    (ha : account py response.usage request.provider ports.priceAfter = .ok detail) :
    (conclude py ports request response put w).1.tables =
        (settle py ports request response.usage w).1.tables ∧
      (conclude py ports request response put w).1.calls =
        (settle py ports request response.usage w).1.calls := by
  simp only [conclude, hok, settle, ha, Bool.not_true, Bool.false_eq_true, if_false]
  rcases (w.call ports.settleAt ports.settleOut
    (.settle request.organizationId request.correlationId detail)).2 with e | reply
  · exact ⟨rfl, rfl⟩
  · exact safePut_ledger _ _ _

/-- The hold outlives the operation exactly when its settlement fails uncaught. -/
private theorem conclude_ends_iff {r : BudgetReservation} {before : ModelPrice}
    (hr : w.tables.rows .budgetReservation request.key = some r) (hs : r.status = .reserved)
    (hp : ports.priceBefore = .price before) (hcur : r.currency = before.currency)
    (h : ¬ LedgerFailed (conclude py ports request response put w).1.calls) :
    ¬ Live (conclude py ports request response put w).1.tables.rows request.key ↔ ¬ Uncaught py ports response := by
  have live : Live w.tables.rows request.key := ⟨r, hr, hs⟩
  cases hok : response.ok with
  | false =>
    simp only [conclude, hok, Bool.not_false, if_true] at h ⊢
    exact iff_of_true (release_ends hr hs h) fun hu => by simp [Uncaught, hok] at hu
  | true =>
    rw [uncaught_iff request hok hp]
    cases ha : account py response.usage request.provider ports.priceAfter with
    | error e =>
      have hset : settle py ports request response.usage w = (w, .error (.cost e)) := by
        simp only [settle, ha]
      cases hd : e.accountingDefect with
      | true =>
        simp only [conclude, hok, hset, hd, Bool.not_true, Bool.false_eq_true, if_false,
          if_true] at h ⊢
        exact iff_of_true (release_ends hr hs h) Bool.true_eq_false_eq_False
      | false =>
        simp only [conclude, hok, hset, hd, Bool.not_true, Bool.false_eq_true, if_false]
        simpa using live
    | ok detail =>
      obtain ⟨htables, hcalls⟩ := conclude_settled put request w hok ha
      rw [hcalls] at h
      rw [htables]
      rw [settle_ends_iff hr hs ha h, hcur]
      simp

/-- A priced model, whose second price lookup comes to `priceAfter`; every ledger call answers. -/
def priced (priceAfter : PriceLookup) : Ports where
  cutoff := 0
  reclaimAt := 10
  reserveAt := 11
  settleAt := 12
  releaseAt := 13
  reclaimOut := false
  reserveOut := false
  settleOut := false
  releaseOut := false
  priceBefore := .price ⟨1 / 1000, 2 / 1000, "USD"⟩
  priceAfter := priceAfter

def shortRequest : RoutedRequest := ⟨1, "req#1", ⟨"openai", "gpt-4o"⟩, 40⟩

def shortResponse : ProviderResponse :=
  { ok := true, content := some (.text "answer"), provider := "openai", usage := some ⟨9, 4⟩ }

end LlmGateway.Execution
