import LlmGateway.Ledger.Mirror

/-! One call on both ledgers: they answer alike, and stay mirrors, exactly under its condition. -/
namespace LlmGateway.Ledger.Sql
open Lib.ReadCommitted InMemory
variable {pg : Postgres}

private theorem only_row {o : Option BudgetReservation} {r : BudgetReservation}
    {P : BudgetReservation → Prop} (h : o = some r) (hP : P r) : ∀ r₀, o = some r₀ → P r₀ := by
  intro r₀ hr₀
  obtain rfl := Option.some.inj (h.symm.trans hr₀)
  exact hP

section Step
variable {cur : String} {T : Tables (schema pg)} {m : InMemoryBudgetLedger} {now : Timestamp}

theorem perform_eq (h : Mirrors cur T.rows m) (call : Call) :
    m.perform now call =
      let (l, answer) := (m.orgs call.organizationId).perform now call.organizationId call
      ({ m with orgs := Function.update m.orgs call.organizationId l }, answer) := by
  simp [InMemoryBudgetLedger.perform, h.available]

private theorem heldRow_currency (σ : LedgerRows pg) (k : ReservationKey) (e : Money) :
    (heldRow σ k e now).currency = e.currency := by
  unfold heldRow
  cases σ .budgetReservation k <;> rfl

private theorem heldRow_seen (σ : LedgerRows pg) (k : ReservationKey) (e : Money) :
    (heldRow σ k e now).status = .reserved ∧
      e = ⟨(heldRow σ k e now).estimatedCost, (heldRow σ k e now).currency⟩ := by
  unfold heldRow
  cases σ .budgetReservation k <;> exact ⟨rfl, rfl⟩

/-- A hold the gate lets through is answered alike exactly when its rows can be stored. -/
private theorem hold_step (h : Mirrors cur T.rows m) {org : OrgId} {cid : CorrelationId} {e : Money}
    (he : e.currency = cur) (l : OrgLedger) (hl : l.limit = (m.orgs org).limit)
    (ht : ∀ b, T.rows .orgBudget org = some b →
      l.reserved = (addHold e b).reserved ∧ l.spent = (addHold e b).spent)
    (hh : l.reservations = (m.orgs org).reservations.set cid ⟨e, .reserved, now⟩) :
    ((schema pg).check .budgetReservation (org, cid) (heldRow T.rows (org, cid) e now) = true ∧
      (holdAlone T now org cid e).2 = reservedReply org cid e ∧
      Mirrors cur (holdAlone T now org cid e).1 { m with orgs := Function.update m.orgs org l }) ∨
    ((schema pg).check .budgetReservation (org, cid) (heldRow T.rows (org, cid) e now) ≠ true ∧
      (holdAlone T now org cid e).2 = .error .ledgerUnavailable) := by
  obtain ⟨hs, hm⟩ := @heldRow_seen pg now T.rows (org, cid) e
  by_cases hk : (schema pg).check .budgetReservation (org, cid) (heldRow T.rows (org, cid) e now) = true
  · refine .inl ⟨hk, ?_⟩
    simp only [holdAlone, if_pos hk, true_and]
    exact h.write (addHold e) l (fun _ => ⟨rfl, rfl⟩) hl ht hh hs.symm hm
      ((heldRow_currency ..).trans he)
  · exact .inr ⟨hk, by simp only [holdAlone, if_neg hk, unavailableReply]⟩

/-- The rows a reserve would write once the gate lets it through. -/
private def HoldFits (T : Tables (schema pg)) (now : Timestamp) (org : OrgId) (cid : CorrelationId)
    (e : Money) : Prop :=
  (∀ b, T.rows .orgBudget org = some b → covers e.amount b = true) →
    (∀ b, T.rows .orgBudget org = some b → (schema pg).check .orgBudget org (addHold e b) = true) ∧
      (schema pg).check .budgetReservation (org, cid) (heldRow T.rows (org, cid) e now) = true

private theorem fresh_step (h : Mirrors cur T.rows m) {org : OrgId} {cid : CorrelationId}
    {e : Money} (he : e.currency = cur) :
    let sql := budgetAlone T now org cid e
    let mem := (m.orgs org).reserveFresh now org cid e
    (HoldFits T now org cid e ∧ sql.2 = mem.2 ∧
      Mirrors cur sql.1 { m with orgs := Function.update m.orgs org mem.1 }) ∨
    (¬ HoldFits T now org cid e ∧ sql.2 ≠ mem.2) := by
  cases hb : T.rows .orgBudget org with
  | none =>
    have hlim : (m.orgs org).limit = none := by rw [h.limit, hb]; rfl
    simp only [budgetAlone, hb, OrgLedger.reserveFresh, hlim]
    rcases @hold_step pg cur T m now h org cid e he ((m.orgs org).hold now cid e) rfl
      (by simp [hb]) rfl with ⟨hk, ha, hm⟩ | ⟨hk, ha⟩
    · exact .inl ⟨fun _ => ⟨by simp [hb], hk⟩, ha, hm⟩
    · refine .inr ⟨fun hf => hk (hf (by simp [hb])).2, ?_⟩
      rw [ha]
      simp [OrgLedger.reservedResult]
  | some b =>
    obtain ⟨hres, hsp, hc⟩ := h.totals org b hb
    have hlim : (m.orgs org).limit = some ⟨b.amountLimit, b.currency⟩ := by rw [h.limit, hb]; rfl
    simp only [budgetAlone, hb, OrgLedger.reserveFresh, hlim, hres, hsp]
    rw [if_neg (by simp [he, hc])]
    by_cases hcov : covers e.amount b = true
    · have hgt : ¬ e.amount > b.amountLimit - b.spent - b.reserved := by
        simpa [covers] using hcov
      rw [if_neg (by simp [hcov]), if_neg hgt]
      by_cases hck : (schema pg).check .orgBudget org (addHold e b) = true
      · rw [if_pos hck]
        rcases @hold_step pg cur T m now h org cid e he
          { (m.orgs org).hold now cid e with reserved := b.reserved + e.amount } rfl
          (fun b' hb' => by
            obtain rfl := Option.some.inj (hb.symm.trans hb')
            exact ⟨rfl, hsp⟩) rfl with ⟨hk, ha, hm⟩ | ⟨hk, ha⟩
        · refine .inl ⟨fun _ => ⟨fun b' hb' => ?_, hk⟩, ha, hm⟩
          obtain rfl := Option.some.inj (hb.symm.trans hb')
          exact hck
        · refine .inr ⟨fun hf => hk (hf fun b' hb' => ?_).2, ?_⟩
          · obtain rfl := Option.some.inj (hb.symm.trans hb')
            exact hcov
          · rw [ha]
            simp [OrgLedger.reservedResult]
      · rw [if_neg hck]
        refine .inr ⟨fun hf => hck ((hf fun b' hb' => ?_).1 b hb), by
          simp [unavailableReply, OrgLedger.reservedResult]⟩
        obtain rfl := Option.some.inj (hb.symm.trans hb')
        exact hcov
    · have hgt : e.amount > b.amountLimit - b.spent - b.reserved := by
        simpa [covers] using hcov
      rw [if_pos (by simpa using hcov), if_pos hgt]
      exact .inl ⟨fun hf => absurd (hf b hb) hcov, rfl, h.unchanged⟩

theorem reserve_step (h : Mirrors cur T.rows m) {org : OrgId} {cid : CorrelationId}
    {e : Money} (he : e.currency = cur) :
    let sql := alone T now (.reserve org cid e)
    let mem := m.perform now (.reserve org cid e)
    (Storable T now (.reserve org cid e) ∧ sql.2 = mem.2 ∧ Mirrors cur sql.1 mem.1) ∨
    (¬ Storable T now (.reserve org cid e) ∧ sql.2 ≠ mem.2) := by
  rw [perform_eq h]
  simp only [alone, OrgLedger.perform, Call.organizationId]
  cases hr : T.rows .budgetReservation (org, cid) with
  | none =>
    have hg := h.get_none hr
    have hst : Storable T now (.reserve org cid e) ↔ HoldFits T now org cid e := by
      simp [StorableBy, HoldFits, hr]
    simp only [reserveAlone, hr, OrgLedger.reserve, hg, hst]
    exact fresh_step h he
  | some r =>
    obtain ⟨r', hg, hs, hest⟩ := h.get_some hr
    by_cases hd : r.status = .released ∨ r.status = .expired
    · have hst : Storable T now (.reserve org cid e) ↔ HoldFits T now org cid e := by
        simp only [StorableBy, HoldFits, hr]
        refine ⟨fun hf => hf fun r₀ hr₀ => ?_, fun hf _ => hf⟩
        obtain rfl := Option.some.inj hr₀
        exact hd
      simp only [reserveAlone, hr, OrgLedger.reserve, hg, hs, if_pos hd, hst]
      exact fresh_step h he
    · left
      simp only [reserveAlone, hr, OrgLedger.reserve, hg, hs, if_neg hd, hest]
      exact ⟨fun hf => absurd (hf r hr) hd, rfl, h.unchanged⟩

theorem settle_step (h : Mirrors cur T.rows m) {org : OrgId} {cid : CorrelationId}
    {d : SettlementDetail} (hd : d.totalCost.currency = cur) :
    let sql := alone T now (.settle org cid d)
    let mem := m.perform now (.settle org cid d)
    ((Storable T now (.settle org cid d) ∧ Unreleased T (.settle org cid d)) ∧
      sql.2 = mem.2 ∧ Mirrors cur sql.1 mem.1) ∨
    (¬ (Storable T now (.settle org cid d) ∧ Unreleased T (.settle org cid d)) ∧
      sql.2 ≠ mem.2) := by
  rw [perform_eq h]
  simp only [alone, OrgLedger.perform, Call.organizationId]
  cases hr : T.rows .budgetReservation (org, cid) with
  | none =>
    simp only [settleAlone, hr, OrgLedger.settle, h.get_none hr]
    exact .inl ⟨⟨by simp [StorableBy, hr], by simp [Unreleased, hr]⟩, trivial, h.unchanged⟩
  | some r =>
    obtain ⟨r', hg, hs, hest⟩ := h.get_some hr
    simp only [settleAlone, hr, OrgLedger.settle, hg, hs]
    by_cases hcom : r.status = .committed
    · rw [if_pos hcom, if_pos hcom]
      exact .inl ⟨⟨only_row hr (by simp [hcom]), only_row hr (by simp [hcom])⟩, rfl, h.unchanged⟩
    rw [if_neg hcom, if_neg hcom]
    by_cases hrel : r.status = .released
    · rw [if_pos hrel]
      exact .inr ⟨fun hu => hu.2 r hr hrel, by simp⟩
    rw [if_neg hrel, if_neg (by simp [hd, h.currency _ r hr])]
    have hlive : r.status = .reserved ∨ r.status = .expired := by
      cases hst : r.status <;> simp_all
    have hu : Unreleased T (.settle org cid d) := only_row hr hrel
    have hst : Storable T now (.settle org cid d) ↔
        ((T.rows .orgBudget org).all (fun b =>
            (schema pg).check .orgBudget org (settleBudget r d b)) &&
          (schema pg).check .budgetReservation (org, cid) (markCommitted d now r) &&
          recordable T.rows (org, cid) (costRow d now)) = true := by
      rw [Bool.and_eq_true, Bool.and_eq_true, Option.all_eq_true, and_assoc]
      exact ⟨fun hk => hk r hr hlive, fun fits => only_row hr fun _ => fits⟩
    by_cases hk : Storable T now (.settle org cid d)
    · rw [if_pos (hst.mp hk)]
      refine .inl ⟨⟨hk, hu⟩, rfl, ?_⟩
      refine h.write (settleBudget r d) _ (fun b => ?_) rfl (fun b hb => ?_) rfl rfl hest
        (h.currency _ r hr)
      · unfold settleBudget
        split_ifs <;> exact ⟨rfl, rfl⟩
      · obtain ⟨hres, hsp, _⟩ := h.totals org b hb
        unfold settleBudget
        split_ifs <;> simp [hres, hsp, hest]
    · rw [if_neg fun hc => hk (hst.mpr hc)]
      exact .inr ⟨fun hu => hk hu.1, by simp [unavailableReply]⟩

theorem release_step (h : Mirrors cur T.rows m) {org : OrgId} {cid : CorrelationId} :
    let sql := alone T now (.release org cid)
    let mem := m.perform now (.release org cid)
    (Storable T now (.release org cid) ∧ sql.2 = mem.2 ∧ Mirrors cur sql.1 mem.1) ∨
    (¬ Storable T now (.release org cid) ∧ sql.2 ≠ mem.2) := by
  rw [perform_eq h]
  simp only [alone, OrgLedger.perform, Call.organizationId]
  cases hr : T.rows .budgetReservation (org, cid) with
  | none =>
    simp only [releaseAlone, hr, OrgLedger.release, h.get_none hr]
    exact .inl ⟨by simp [StorableBy, hr], trivial, h.unchanged⟩
  | some r =>
    obtain ⟨r', hg, hs, hest⟩ := h.get_some hr
    simp only [releaseAlone, hr, OrgLedger.release, hg, hs]
    by_cases hret : r.status.holdAlreadyReturned = true
    · rw [if_pos hret, if_pos hret]
      refine .inl ⟨only_row hr fun hres => ?_, rfl, h.unchanged⟩
      simp [hres, ReservationStatus.holdAlreadyReturned] at hret
    rw [if_neg hret, if_neg hret]
    have hlive : r.status = .reserved := by
      cases hst : r.status <;> simp_all [ReservationStatus.holdAlreadyReturned]
    have hst : Storable T now (.release org cid) ↔
        ((T.rows .orgBudget org).all (fun b =>
            (schema pg).check .orgBudget org (giveBack r.estimatedCost b)) &&
          (schema pg).check .budgetReservation (org, cid) (markReleased now r)) = true := by
      rw [Bool.and_eq_true, Option.all_eq_true]
      exact ⟨fun hk => hk r hr hlive, fun hk => only_row hr fun _ => hk⟩
    by_cases hk : Storable T now (.release org cid)
    · rw [if_pos (hst.mp hk)]
      refine .inl ⟨hk, rfl, h.write (giveBack r.estimatedCost) _ (fun _ => ⟨rfl, rfl⟩) rfl
        (fun b hb => ?_) rfl rfl hest (h.currency _ r hr)⟩
      obtain ⟨hres, hsp, _⟩ := h.totals org b hb
      simp [giveBack, hres, hsp, hest]
    · rw [if_neg fun hc => hk (hst.mpr hc)]
      exact .inr ⟨hk, by simp [unavailableReply]⟩

end Step
end LlmGateway.Ledger.Sql
