import LlmGateway.Ledger.MirrorSteps

/-! A sweep on both ledgers: SQL goes by the date a row was inserted, the in-memory ledger by
the date its hold was last taken. -/
namespace LlmGateway.Ledger.Sql
open Lib.ReadCommitted InMemory
variable {pg : Postgres} {cur : String} {T : Tables (schema pg)} {m : InMemoryBudgetLedger}
  {now : Timestamp}

private theorem mem_staleKeys {org o : OrgId} {olderThan : Timestamp} {cid : CorrelationId} :
    (o, cid) ∈ staleKeys T org olderThan ↔ o = org ∧ ∃ r,
      T.rows .budgetReservation (org, cid) = some r ∧ r.status = .reserved ∧
        r.createdAt < olderThan := by
  simp only [staleKeys, Finset.mem_filter, Option.any_eq_true, stale, decide_eq_true_eq]
  constructor
  · rintro ⟨_, r, hr, rfl, hs, ht⟩
    exact ⟨rfl, r, hr, hs, ht⟩
  · rintro ⟨rfl, r, hr, hs, ht⟩
    exact ⟨T.mem_keys .budgetReservation (o, cid) (by rw [hr]; simp), r, hr, rfl, hs, ht⟩

private theorem mem_stale_select {org : OrgId} {olderThan : Timestamp} {cid : CorrelationId} :
    cid ∈ (m.orgs org).reservations.select (OrgLedger.isStale olderThan) ↔ ∃ r',
      (m.orgs org).reservations.get cid = some r' ∧ r'.status = .reserved ∧
        r'.createdAt < olderThan := by
  simp only [Lib.Dict.mem_select, OrgLedger.isStale, decide_eq_true_eq]

private def keyOf (org : OrgId) : CorrelationId ↪ ReservationKey :=
  ⟨fun cid => (org, cid), fun _ _ h => (Prod.mk.inj h).2⟩

/-- Both sweeps meet the same reservations. -/
private theorem staleKeys_eq (h : Mirrors cur T.rows m) {org : OrgId} {olderThan : Timestamp}
    (ha : SameAge T m (.reconcileExpired org olderThan)) :
    staleKeys T org olderThan =
      ((m.orgs org).reservations.select (OrgLedger.isStale olderThan)).map (keyOf org) := by
  ext ⟨o, cid⟩
  rw [mem_staleKeys, Finset.mem_map]
  constructor
  · rintro ⟨rfl, r, hr, hs, ht⟩
    obtain ⟨r', hg, hs', _⟩ := h.get_some hr
    exact ⟨cid, mem_stale_select.mpr ⟨r', hg, hs'.trans hs, (ha cid r r' hr hs hg).mp ht⟩, rfl⟩
  · rintro ⟨cid', hm, he⟩
    obtain ⟨rfl, rfl⟩ := Prod.mk.inj he
    obtain ⟨r', hg, hs', ht⟩ := mem_stale_select.mp hm
    cases hr : T.rows .budgetReservation (org, cid') with
    | none => rw [h.get_none hr] at hg; cases hg
    | some r =>
      obtain ⟨r'', hg', hs, _⟩ := h.get_some hr
      obtain rfl := Option.some.inj (hg.symm.trans hg')
      exact ⟨rfl, r, rfl, hs ▸ hs', (ha cid' r r' hr (hs ▸ hs') hg).mpr ht⟩

private theorem reclaimedTotal_eq (h : Mirrors cur T.rows m) (org : OrgId)
    (cids : Finset CorrelationId) :
    reclaimedTotal T.rows (cids.map (keyOf org)) =
      ∑ cid ∈ cids, ((m.orgs org).reservations.get cid).elim 0 (·.estimatedCost.amount) := by
  rw [reclaimedTotal, Finset.sum_map]
  apply Finset.sum_congr rfl
  intro cid _
  change (T.rows .budgetReservation (org, cid)).elim 0 _ = _
  cases hr : T.rows .budgetReservation (org, cid) with
  | none => rw [h.get_none hr]; rfl
  | some r =>
    obtain ⟨r', hg, _, hest⟩ := h.get_some hr
    simp [hg, hest]

private theorem swept_mirrors (h : Mirrors cur T.rows m) (org : OrgId)
    (cids : Finset CorrelationId) (l : OrgLedger) (hl : l.limit = (m.orgs org).limit)
    (hsp : l.spent = (m.orgs org).spent)
    (hres : l.reserved = (m.orgs org).reserved -
      ∑ cid ∈ cids, ((m.orgs org).reservations.get cid).elim 0 (·.estimatedCost.amount))
    (hh : l.reservations = (m.orgs org).reservations.modify cids fun r => { r with status := .expired }) :
    Mirrors cur ((holding (booked T.rows org
        (giveBack (reclaimedTotal T.rows (cids.map (keyOf org)))))
      (swept T.rows (cids.map (keyOf org)) now) nothing).install T.rows)
      { m with orgs := Function.update m.orgs org l } := by
  have hmem (cid : CorrelationId) : (org, cid) ∈ cids.map (keyOf org) ↔ cid ∈ cids :=
    Finset.mem_map' (keyOf org)
  refine h.replace (giveBack (reclaimedTotal T.rows (cids.map (keyOf org)))) l
    (booked_install _ _) (fun _ => ⟨rfl, rfl⟩) (fun o ho => by simp [booked, ho])
    (fun o ho cid => ?_) hl (fun b hb => ?_) (fun cid => ?_) (fun cid r hr => ?_)
  · have hn : (o, cid) ∉ cids.map (keyOf org) := fun hm => by
      obtain ⟨_, _, he⟩ := Finset.mem_map.mp hm
      exact ho (Prod.mk.inj he).1.symm
    rw [install_budgetReservation, swept_install, if_neg hn]
  · obtain ⟨hr₀, hs₀, _⟩ := h.totals org b hb
    rw [hres, hsp, reclaimedTotal_eq h, hr₀, hs₀]
    exact ⟨rfl, rfl⟩
  · rw [install_budgetReservation, swept_install, hh, Lib.Dict.get_modify]
    simp only [hmem]
    split_ifs with hc
    · cases hr : T.rows .budgetReservation (org, cid) with
      | none => rw [h.get_none hr]; rfl
      | some r =>
        obtain ⟨r', hg, _, hest⟩ := h.get_some hr
        simp [hg, hest, markExpired]
    · exact h.holds org cid
  · rw [install_budgetReservation, swept_install] at hr
    split at hr
    · obtain ⟨r₀, hr₀, rfl⟩ := Option.map_eq_some_iff.mp hr
      exact h.currency _ r₀ hr₀
    · exact h.currency _ r hr

private theorem storable_sweep {org : OrgId} {olderThan : Timestamp} :
    Storable T now (.reconcileExpired org olderThan) ↔
      (∀ k ∈ staleKeys T org olderThan, (T.rows .budgetReservation k).all (fun r =>
        (schema pg).check .budgetReservation k (markExpired now r)) = true) ∧
      ((staleKeys T org olderThan).card ≠ 0 → (T.rows .orgBudget org).all (fun b =>
        (schema pg).check .orgBudget org
          (giveBack (reclaimedTotal T.rows (staleKeys T org olderThan)) b)) = true) := by
  simp only [StorableBy, Option.all_eq_true]

/-- A sweep that can be stored counts the rows it reclaims; any other is unavailable. -/
private theorem sweep_answer {org : OrgId} {olderThan : Timestamp} :
    (Storable T now (.reconcileExpired org olderThan) ∧
      (reconcileAlone T now org olderThan).2 =
        .ok (.reclaimed (staleKeys T org olderThan).card)) ∨
    (¬ Storable T now (.reconcileExpired org olderThan) ∧
      (reconcileAlone T now org olderThan).2 = .error .ledgerUnavailable) := by
  rw [storable_sweep]
  simp only [reconcileAlone]
  by_cases hrows : ∀ k ∈ staleKeys T org olderThan, (T.rows .budgetReservation k).all (fun r =>
      (schema pg).check .budgetReservation k (markExpired now r)) = true
  · rw [if_pos hrows]
    by_cases hz : (staleKeys T org olderThan).card = 0
    · rw [if_pos hz, hz]
      exact .inl ⟨⟨hrows, fun h => absurd rfl h⟩, rfl⟩
    · rw [if_neg hz]
      split_ifs with hb
      · exact .inl ⟨⟨hrows, fun _ => hb⟩, rfl⟩
      · exact .inr ⟨fun h => hb (h.2 hz), rfl⟩
  · rw [if_neg hrows]
    exact .inr ⟨fun h => hrows h.1, rfl⟩

private theorem sweep_nothing {σ : LedgerRows pg} {org : OrgId} :
    (holding (booked σ org (giveBack (reclaimedTotal σ ∅))) (swept σ ∅ now) nothing).install σ = σ := by
  funext tb k
  cases tb with
  | orgBudget =>
    by_cases hk : k = org
    · subst hk
      have hid : giveBack (reclaimedTotal σ ∅) = id := by
        funext b
        simp [giveBack, reclaimedTotal]
      rw [install_orgBudget, booked_install, hid, Option.map_id, id]
    · simp [booked, hk]
  | budgetReservation => simp [swept]
  | costLedger => rfl

theorem reconcile_step (h : Mirrors cur T.rows m) {org : OrgId} {olderThan : Timestamp}
    (hs : Storable T now (.reconcileExpired org olderThan))
    (ha : SameAge T m (.reconcileExpired org olderThan)) :
    let sql := alone T now (.reconcileExpired org olderThan)
    let mem := m.perform now (.reconcileExpired org olderThan)
    sql.2 = mem.2 ∧ Mirrors cur sql.1 mem.1 := by
  rw [perform_eq h]
  simp only [alone, OrgLedger.perform, Call.organizationId]
  have hks := staleKeys_eq h ha
  have hm := @swept_mirrors pg cur T m now h org _ ((m.orgs org).reconcileExpired olderThan).1
    rfl rfl rfl rfl
  rw [← hks] at hm
  obtain ⟨hrows, hbudget⟩ := storable_sweep.mp hs
  constructor
  · rcases @sweep_answer pg T now org olderThan with ⟨_, hans⟩ | ⟨hn, _⟩
    · rw [hans, hks, Finset.card_map]
      rfl
    · exact absurd hs hn
  · simp only [reconcileAlone]
    rw [if_pos hrows]
    by_cases hz : (staleKeys T org olderThan).card = 0
    · rw [if_pos hz]
      rw [Finset.card_eq_zero.mp hz, sweep_nothing] at hm
      exact hm
    · rw [if_neg hz, if_pos (hbudget hz)]
      exact hm

/-- Where SQL dates every live hold no later than the in-memory ledger does, its sweep takes at
least as much, so equal counts mean equal ages. -/
theorem sameAge_of_answer (h : Mirrors cur T.rows m) {org : OrgId} {olderThan : Timestamp}
    (hd : ∀ cid r r', T.rows .budgetReservation (org, cid) = some r →
      (m.orgs org).reservations.get cid = some r' → r.createdAt ≤ r'.createdAt)
    (he : (alone T now (.reconcileExpired org olderThan)).2 =
      (m.perform now (.reconcileExpired org olderThan)).2) :
    Storable T now (.reconcileExpired org olderThan) ∧
      SameAge T m (.reconcileExpired org olderThan) := by
  rw [perform_eq h] at he
  simp only [alone, OrgLedger.perform, Call.organizationId] at he
  rcases @sweep_answer pg T now org olderThan with ⟨hs, hans⟩ | ⟨_, hans⟩
  · refine ⟨hs, ?_⟩
    rw [hans] at he
    replace he : (staleKeys T org olderThan).card =
        ((m.orgs org).reservations.select (OrgLedger.isStale olderThan)).card := by
      simpa [OrgLedger.reconcileExpired] using he
    have hsub : ((m.orgs org).reservations.select (OrgLedger.isStale olderThan)).map (keyOf org) ⊆
        staleKeys T org olderThan := by
      intro k hk
      obtain ⟨cid, hm, rfl⟩ := Finset.mem_map.mp hk
      obtain ⟨r', hg, hs', ht⟩ := mem_stale_select.mp hm
      cases hr : T.rows .budgetReservation (org, cid) with
      | none => rw [h.get_none hr] at hg; cases hg
      | some r =>
        obtain ⟨r'', hg', hst, _⟩ := h.get_some hr
        obtain rfl := Option.some.inj (hg.symm.trans hg')
        exact mem_staleKeys.mpr ⟨rfl, r, hr, hst ▸ hs', lt_of_le_of_lt (hd cid r r' hr hg) ht⟩
    have heq := Finset.eq_of_subset_of_card_le hsub (by rw [he, Finset.card_map])
    intro cid r r' hr hst hg
    refine ⟨fun ht => ?_, lt_of_le_of_lt (hd cid r r' hr hg)⟩
    have hm : (org, cid) ∈ staleKeys T org olderThan := mem_staleKeys.mpr ⟨rfl, r, hr, hst, ht⟩
    rw [← heq] at hm
    obtain ⟨r'', hg', _, ht'⟩ := mem_stale_select.mp ((Finset.mem_map' (keyOf org)).mp hm)
    obtain rfl := Option.some.inj (hg.symm.trans hg')
    exact ht'
  · rw [hans] at he
    cases he

end LlmGateway.Ledger.Sql
