import LlmGateway.Ledger.SqlSerial
import LlmGateway.Ledger.Conservation

/-! Configuring an organization's budget while holds are out: what its `reserved` then counts. -/
namespace LlmGateway.Ledger.Sql
open Lib.ReadCommitted
variable {pg : Postgres}

/-- A ledger call served to its end, or an operator's insertion of the budget row. -/
inductive BudgetEvent where
  | call (now : Timestamp) (call : Call)
  | configure (amountLimit : Int) (currency : String)
  deriving DecidableEq

/-- The tables, and the holds that were added to `reserved` and not yet returned. -/
structure Budgeted (pg : Postgres) where
  tables : Tables (schema pg)
  added : Finset CorrelationId := ∅

namespace Budgeted
variable (org : OrgId)

/-- A reserve may add a hold where there is a budget and no live hold before it. -/
def newHold (s : Budgeted pg) : Call → Finset CorrelationId
  | .reserve o cid _ =>
    if o = org ∧ s.tables.rows .orgBudget org ≠ none ∧ ¬ Live s.tables.rows (org, cid) then {cid}
    else ∅
  | .settle .. | .release .. | .reconcileExpired .. => ∅

/-- A hold stays added while it is live. -/
def countHolds (s : Budgeted pg) (T' : Tables (schema pg)) (call : Call) : Finset CorrelationId :=
  (s.added ∪ newHold org s call).filter fun cid => Live T'.rows (org, cid)

def newBudget (amountLimit : Int) (currency : String) : OrgBudget := ⟨amountLimit, currency, 0, 0⟩

def step (s : Budgeted pg) : BudgetEvent → Budgeted pg
  | .call now call =>
    let T' := ((ledger pg).serve s.tables now call).1
    ⟨T', s.countHolds org T' call⟩
  | .configure amountLimit currency =>
    if s.tables.rows .orgBudget org = none ∧
        (schema pg).check .orgBudget org (newBudget amountLimit currency) = true then
      { s with tables := s.tables.put .orgBudget org (newBudget amountLimit currency) }
    else s

def after (T : Tables (schema pg)) (events : List BudgetEvent) : Budgeted pg :=
  events.foldl (step org) ⟨T, ∅⟩

/-- The constraints of a budget row, `CHECK (reserved >= 0)` aside. -/
def otherChecks (pg : Postgres) (org : OrgId) (b : OrgBudget) : Bool :=
  pg.organization org && (numeric b.amountLimit && numeric b.reserved && numeric b.spent &&
    decide (0 ≤ b.amountLimit ∧ 0 ≤ b.spent))

/-- `CHECK (reserved >= 0)` does not make the call fail: it is served where it violates nothing else. -/
def Accepts (s : Budgeted pg) (now : Timestamp) (call : Call) : Prop :=
  call.organizationId = org → StorableBy (otherChecks pg) s.tables now call →
    ((ledger pg).serve s.tables now call).2 ≠ .error .ledgerUnavailable

/-- What an added hold stands for. -/
def estimate (T : Tables (schema pg)) (cid : CorrelationId) : Int :=
  (T.rows .budgetReservation (org, cid)).elim 0 (·.estimatedCost)

/-- `reserved` is the sum of the holds added to it and not yet returned. -/
def Balanced (s : Budgeted pg) : Prop :=
  ∀ b ∈ s.tables.rows .orgBudget org, b.reserved = ∑ cid ∈ s.added, estimate org s.tables cid

/-- The holds a call would return. -/
def Returns (cid : CorrelationId) (row : BudgetReservation) : Call → Prop
  | .reserve .. => False
  | .settle o cid' d => o = org ∧ cid' = cid ∧ row.status = .reserved ∧
      d.totalCost.currency = row.currency
  | .release o cid' => o = org ∧ cid' = cid ∧ row.status = .reserved
  | .reconcileExpired o olderThan => o = org ∧ stale org olderThan (org, cid) row = true

/-- Every hold the call returns was added to `reserved`, or is of nothing. -/
def ReturnsAdded (s : Budgeted pg) : BudgetEvent → Prop
  | .configure .. => True
  | .call _ call => s.tables.rows .orgBudget org ≠ none → ∀ cid row,
      s.tables.rows .budgetReservation (org, cid) = some row → Returns org cid row call →
      cid ∈ s.added ∨ row.estimatedCost = 0

/-- Every event of the history returns added holds only. -/
def Along : Budgeted pg → List BudgetEvent → Prop
  | _, [] => True
  | s, e :: events => s.ReturnsAdded org e ∧ Along (s.step org e) events

end Budgeted

section Alone
variable {T : Tables (schema pg)} {now : Timestamp} {org : OrgId} {cid : CorrelationId}

private theorem holdAlone_effect {e : Money} (hu : Unheld T.rows (org, cid))
    (hg : ∀ b, T.rows .orgBudget org = some b → covers e.amount b = true) :
    (holdAlone T now org cid e).1 = T.rows ∨
      Effect (.reserve org cid e) now (holdAlone T now org cid e).2 T.rows
        (holdAlone T now org cid e).1 := by
  simp only [holdAlone]
  split_ifs with hk
  · exact .inr (.held hu (Bool.and_eq_true_iff.mp hk).2 hg)
  · exact .inl rfl

private theorem budgetAlone_effect {e : Money} (hu : Unheld T.rows (org, cid)) :
    (budgetAlone T now org cid e).1 = T.rows ∨
      Effect (.reserve org cid e) now (budgetAlone T now org cid e).2 T.rows
        (budgetAlone T now org cid e).1 := by
  unfold budgetAlone
  cases hb : T.rows .orgBudget org with
  | none => exact holdAlone_effect hu fun b h => by rw [hb] at h; cases h
  | some b =>
    dsimp only
    split_ifs with hcur hcov hck
    · exact .inl rfl
    · exact .inl rfl
    · refine holdAlone_effect hu fun b' h => ?_
      rw [hb] at h
      cases h
      exact Bool.not_eq_false _ ▸ hcov
    · exact .inl rfl

private theorem reserveAlone_effect {e : Money} :
    (reserveAlone T now org cid e).1 = T.rows ∨
      Effect (.reserve org cid e) now (reserveAlone T now org cid e).2 T.rows
        (reserveAlone T now org cid e).1 := by
  unfold reserveAlone
  cases hr : T.rows .budgetReservation (org, cid) with
  | none => exact budgetAlone_effect fun r h => by rw [hr] at h; cases h
  | some r =>
    dsimp only
    split_ifs with hs
    · refine budgetAlone_effect fun r' h => ?_
      rw [hr] at h
      cases h
      rcases hs with hs | hs
      · rw [hs]
        decide
      · rw [hs]
        decide
    · exact .inl rfl

private theorem settleAlone_effect {d : SettlementDetail} :
    (settleAlone T now org cid d).1 = T.rows ∨
      Effect (.settle org cid d) now (settleAlone T now org cid d).2 T.rows
        (settleAlone T now org cid d).1 := by
  unfold settleAlone
  cases hr : T.rows .budgetReservation (org, cid) with
  | none => exact .inl rfl
  | some row =>
    dsimp only
    split_ifs with hcommitted hreleased hcur hck
    · exact .inl rfl
    · exact .inl rfl
    · exact .inl rfl
    · simp only [Bool.and_eq_true] at hck
      obtain ⟨⟨_, hrow⟩, hcost⟩ := hck
      refine .inr (.settled hr ?_ (Schema.valid_of_check hrow) fun _ => (Bool.and_eq_true_iff.mp hcost).1)
      cases hs : row.status with
      | reserved => exact .inl rfl
      | expired => exact .inr rfl
      | committed => exact absurd hs hcommitted
      | released => exact absurd hs hreleased
    · exact .inl rfl

private theorem releaseAlone_effect :
    (releaseAlone T now org cid).1 = T.rows ∨
      Effect (.release org cid) now (releaseAlone T now org cid).2 T.rows
        (releaseAlone T now org cid).1 := by
  unfold releaseAlone
  cases hr : T.rows .budgetReservation (org, cid) with
  | none => exact .inl rfl
  | some row =>
    dsimp only
    split_ifs with hs hck
    · exact .inl rfl
    · refine .inr (.released hr ?_)
      cases hst : row.status with
      | reserved => rfl
      | expired => rw [hst] at hs; exact absurd rfl hs
      | committed => rw [hst] at hs; exact absurd rfl hs
      | released => rw [hst] at hs; exact absurd rfl hs
    · exact .inl rfl

private theorem reconcileAlone_effect {olderThan : Timestamp} :
    (reconcileAlone T now org olderThan).1 = T.rows ∨
      Effect (.reconcileExpired org olderThan) now (reconcileAlone T now org olderThan).2 T.rows
        (reconcileAlone T now org olderThan).1 := by
  simp only [reconcileAlone]
  split_ifs with hck hz hb
  · exact .inl rfl
  · exact .inr (.reclaimed (staleKeys_spec T org olderThan))
  · exact .inl rfl
  · exact .inl rfl

/-- A call served alone changes nothing or has its effect. -/
theorem serve_effect (T : Tables (schema pg)) (now : Timestamp) (call : Call) :
    ((ledger pg).serve T now call).1.rows = T.rows ∨
      Effect call now ((ledger pg).serve T now call).2 T.rows
        ((ledger pg).serve T now call).1.rows := by
  obtain ⟨hrows, hans⟩ := serve_eq_alone T now call
  rw [hrows, hans]
  cases call with
  | reserve org cid e => exact reserveAlone_effect
  | settle org cid d => exact settleAlone_effect
  | release org cid => exact releaseAlone_effect
  | reconcileExpired org olderThan => exact reconcileAlone_effect

end Alone

namespace Budgeted
variable {org : OrgId} {s : Budgeted pg} {T' : Tables (schema pg)} {ks : Finset ReservationKey}

/-- The holds added are live and make up `reserved`; without a budget there are none. -/
structure Counted (org : OrgId) (s : Budgeted pg) : Prop where
  live : ∀ cid ∈ s.added, ∃ row, s.tables.rows .budgetReservation (org, cid) = some row ∧
    row.status = .reserved ∧ 0 ≤ row.estimatedCost
  balanced : Balanced org s
  unconfigured : s.tables.rows .orgBudget org = none → s.added = ∅

/-- Each of the organization's keys `ks` was added, or stands for nothing. -/
def Added (org : OrgId) (s : Budgeted pg) (ks : Finset ReservationKey) : Prop :=
  ∀ k ∈ ks, k.1 = org ∧ (k.2 ∈ s.added ∨ estimate org s.tables k.2 = 0)

private theorem estimate_of_row {cid : CorrelationId} {row : BudgetReservation}
    (hrow : s.tables.rows .budgetReservation (org, cid) = some row) (hz : row.estimatedCost = 0) :
    estimate org s.tables cid = 0 := by
  rw [estimate, hrow]
  exact hz

/-- What the keys stand for is what the added ones do. -/
private theorem reclaimedTotal_added (hk : Added org s ks) :
    reclaimedTotal s.tables.rows ks =
      ∑ cid ∈ s.added.filter fun cid => (org, cid) ∈ ks, estimate org s.tables cid := by
  have inj : Set.InjOn (fun cid : CorrelationId => (org, cid))
      (↑(s.added.filter fun cid => (org, cid) ∈ ks) : Set CorrelationId) :=
    fun a _ b _ h => (Prod.mk.inj h).2
  have image := Finset.sum_image (f := fun k : ReservationKey =>
    (s.tables.rows .budgetReservation k).elim 0 (·.estimatedCost)) inj
  rw [reclaimedTotal]
  refine Eq.trans (Eq.symm (Finset.sum_subset ?_ ?_)) image
  · intro k hmem
    obtain ⟨cid, hcid, rfl⟩ := Finset.mem_image.mp hmem
    exact (Finset.mem_filter.mp hcid).2
  · rintro ⟨o, cid⟩ hmem hnot
    obtain ⟨ho, hadded⟩ := hk _ hmem
    cases ho
    rcases hadded with hadded | hzero
    · exact absurd (Finset.mem_image.mpr ⟨cid, Finset.mem_filter.mpr ⟨hadded, hmem⟩, rfl⟩) hnot
    · exact hzero

theorem Counted.estimate_nonneg (h : Counted org s) {cid : CorrelationId} (hc : cid ∈ s.added) :
    0 ≤ estimate org s.tables cid := by
  obtain ⟨row, hrow, _, hn⟩ := h.live cid hc
  rw [estimate, hrow]
  exact hn

/-- Added holds can be returned. -/
theorem Counted.covers_return (h : Counted org s) (hk : Added org s ks) {b : OrgBudget}
    (hb : b ∈ s.tables.rows .orgBudget org) :
    0 ≤ b.reserved - reclaimedTotal s.tables.rows ks := by
  rw [h.balanced b hb, reclaimedTotal_added hk, sub_nonneg]
  exact Finset.sum_le_sum_of_subset_of_nonneg (Finset.filter_subset _ _)
    fun cid hc _ => h.estimate_nonneg hc

/-- Returning the holds at `ks`, all of them added or of nothing, keeps the count. -/
theorem Counted.returned (h : Counted org s) (ks : Finset ReservationKey) (hk : Added org s ks)
    (kept : ∀ cid, (org, cid) ∉ ks → Live s.tables.rows (org, cid) →
      T'.rows .budgetReservation (org, cid) = s.tables.rows .budgetReservation (org, cid))
    (ended : ∀ cid, (org, cid) ∈ ks → ¬ Live T'.rows (org, cid))
    (hb : ∀ b' ∈ T'.rows .orgBudget org, ∃ b ∈ s.tables.rows .orgBudget org,
      b'.reserved = b.reserved - reclaimedTotal s.tables.rows ks)
    (hn : T'.rows .orgBudget org = none → s.tables.rows .orgBudget org = none) :
    Counted org ⟨T', s.added.filter fun cid => Live T'.rows (org, cid)⟩ := by
  have same : ∀ cid ∈ s.added, (Live T'.rows (org, cid) ↔ (org, cid) ∉ ks) := by
    intro cid hc
    obtain ⟨row, hrow, hs, _⟩ := h.live cid hc
    refine ⟨fun hl hmem => ended cid hmem hl, fun hmem => ?_⟩
    exact ⟨row, (kept cid hmem ⟨row, hrow, hs⟩).trans hrow, hs⟩
  have unchanged : ∀ cid ∈ s.added, Live T'.rows (org, cid) →
      T'.rows .budgetReservation (org, cid) = s.tables.rows .budgetReservation (org, cid) := by
    intro cid hc hl
    obtain ⟨row, hrow, hs, _⟩ := h.live cid hc
    exact kept cid ((same cid hc).mp hl) ⟨row, hrow, hs⟩
  refine ⟨fun cid hc => ?_, fun b' hb' => ?_, fun hnone => ?_⟩
  · obtain ⟨hadded, hl⟩ := Finset.mem_filter.mp hc
    rw [unchanged cid hadded hl]
    exact h.live cid hadded
  · obtain ⟨b, hb₀, hr⟩ := hb b' hb'
    rw [hr, h.balanced b hb₀, reclaimedTotal_added hk,
      ← Finset.sum_filter_add_sum_filter_not s.added (fun cid => (org, cid) ∈ ks),
      add_sub_cancel_left, Finset.filter_congr fun cid hc => same cid hc]
    refine Finset.sum_congr rfl fun cid hc => ?_
    obtain ⟨hadded, hmem⟩ := Finset.mem_filter.mp hc
    rw [estimate, estimate, unchanged cid hadded ((same cid hadded).mpr hmem)]
  · rw [h.unconfigured (hn hnone), Finset.filter_empty]

/-- A call that makes no new hold of the organization's leaves only holds added before. -/
private theorem countHolds_eq {call : Call} (hq : ∀ cid e, call = .reserve org cid e →
      ¬ Live s.tables.rows (org, cid) → ¬ Live T'.rows (org, cid)) :
    s.countHolds org T' call = s.added.filter fun cid => Live T'.rows (org, cid) := by
  rw [countHolds]
  cases call with
  | reserve o cid e =>
    rw [newHold]
    split_ifs with hf
    · obtain ⟨rfl, _, hl⟩ := hf
      rw [Finset.filter_union, Finset.filter_singleton, if_neg (hq cid e rfl hl),
        Finset.union_empty]
    · rw [Finset.union_empty]
  | settle => rw [newHold, Finset.union_empty]
  | release => rw [newHold, Finset.union_empty]
  | reconcileExpired => rw [newHold, Finset.union_empty]

/-- Nothing of the organization's has changed. -/
private theorem Counted.unchanged (h : Counted org s) {call : Call}
    (hb : T'.rows .orgBudget org = s.tables.rows .orgBudget org)
    (hr : ∀ cid, T'.rows .budgetReservation (org, cid) =
      s.tables.rows .budgetReservation (org, cid)) :
    Counted org ⟨T', s.countHolds org T' call⟩ := by
  have live : ∀ cid, Live T'.rows (org, cid) ↔ Live s.tables.rows (org, cid) := by
    intro cid
    rw [Live, Live, hr cid]
  rw [countHolds_eq fun cid _ _ hl hl' => hl ((live cid).mp hl')]
  refine h.returned ∅ (fun k hk => (by cases hk)) (fun cid _ _ => hr cid)
    (fun cid hk => (by cases hk)) (fun b' hb' => ⟨b', hb ▸ hb', ?_⟩) fun hn => hb ▸ hn
  rw [reclaimedTotal, Finset.sum_empty, sub_zero]

/-- A new hold is added where there is a budget to add it to. -/
private theorem Counted.held (h : Counted org s) {cid : CorrelationId} {e : Money}
    {row : BudgetReservation} (hu : Unheld s.tables.rows (org, cid))
    (hl : row.status = .reserved ∧ row.estimatedCost = e.amount) (hn : 0 ≤ e.amount)
    (hb : T'.rows .orgBudget org = (s.tables.rows .orgBudget org).map (addHold e))
    (hr : ∀ k, T'.rows .budgetReservation k =
      if k = (org, cid) then some row else s.tables.rows .budgetReservation k) :
    Counted org ⟨T', s.countHolds org T' (.reserve org cid e)⟩ := by
  have dead : ¬ Live s.tables.rows (org, cid) := fun ⟨r, hr, hs⟩ => hu r hr hs
  have fresh : cid ∉ s.added := fun hc => by
    obtain ⟨r, hrow, hs, _⟩ := h.live cid hc
    exact hu r hrow hs
  have here : T'.rows .budgetReservation (org, cid) = some row := by rw [hr, if_pos rfl]
  have other : ∀ cid' ∈ s.added, T'.rows .budgetReservation (org, cid') =
      s.tables.rows .budgetReservation (org, cid') := by
    intro cid' hc
    rw [hr, if_neg]
    rintro ⟨⟩
    exact fresh hc
  cases hbudget : s.tables.rows .orgBudget org with
  | none =>
    have empty := h.unconfigured hbudget
    have none : s.countHolds org T' (.reserve org cid e) = ∅ := by
      simp [countHolds, newHold, empty, hbudget]
    rw [none]
    refine ⟨fun _ hc => (by cases hc), fun b' hb' => ?_, fun _ => rfl⟩
    rw [hb, hbudget] at hb'
    cases hb'
  | some b =>
    have added : s.countHolds org T' (.reserve org cid e) = insert cid s.added := by
      have fresh' : s.tables.rows .orgBudget org ≠ none := by simp [hbudget]
      rw [countHolds, newHold]
      simp only [ne_eq, fresh', not_false_eq_true, dead, and_self, if_true]
      rw [Finset.union_comm, ← Finset.insert_eq, Finset.filter_eq_self]
      intro cid' hc
      rcases Finset.mem_insert.mp hc with rfl | hc
      · exact ⟨row, here, hl.1⟩
      · obtain ⟨r, hrow, hs, _⟩ := h.live cid' hc
        exact ⟨r, (other cid' hc).trans hrow, hs⟩
    rw [added]
    refine ⟨fun cid' hc => ?_, fun b' hb' => ?_, fun hnone => ?_⟩
    · rcases Finset.mem_insert.mp hc with rfl | hc
      · exact ⟨row, here, hl.1, hl.2 ▸ hn⟩
      · show ∃ row, T'.rows .budgetReservation (org, cid') = some row ∧ _
        rw [other cid' hc]
        exact h.live cid' hc
    · rw [hb, hbudget] at hb'
      cases hb'
      have sum : ∑ cid' ∈ s.added, estimate org T' cid' =
          ∑ cid' ∈ s.added, estimate org s.tables cid' :=
        Finset.sum_congr rfl fun cid' hc => by rw [estimate, estimate, other cid' hc]
      rw [Finset.sum_insert fresh, sum, ← h.balanced b hbudget, estimate, here, Option.elim_some,
        hl.2, add_comm]
      rfl
    · rw [hb, hbudget] at hnone
      cases hnone

/-- Ending one live hold that was added, or is of nothing. -/
private theorem Counted.ended (h : Counted org s) {cid : CorrelationId} {row row' : BudgetReservation}
    {call : Call} (hrow : s.tables.rows .budgetReservation (org, cid) = some row)
    (hc : cid ∈ s.added ∨ row.estimatedCost = 0) (hd : row'.status ≠ .reserved)
    (hq : ∀ cid e, call ≠ .reserve org cid e) {f : OrgBudget → OrgBudget}
    (hf : ∀ b, (f b).reserved = b.reserved - row.estimatedCost)
    (hb : T'.rows .orgBudget org = (s.tables.rows .orgBudget org).map f)
    (hr : ∀ k, T'.rows .budgetReservation k =
      if k = (org, cid) then some row' else s.tables.rows .budgetReservation k) :
    Counted org ⟨T', s.countHolds org T' call⟩ := by
  have total : reclaimedTotal s.tables.rows {(org, cid)} = row.estimatedCost := by
    rw [reclaimedTotal, Finset.sum_singleton, hrow, Option.elim_some]
  rw [countHolds_eq fun cid e he => absurd he (hq cid e)]
  refine h.returned {(org, cid)} ?_ ?_ ?_ ?_ ?_
  · intro k hk
    cases Finset.mem_singleton.mp hk
    exact ⟨rfl, hc.imp id (estimate_of_row hrow)⟩
  · intro cid' hk _
    rw [hr, if_neg fun he => hk (Finset.mem_singleton.mpr he)]
  · rintro cid' hk ⟨r, hr', hs⟩
    rw [hr, if_pos (Finset.mem_singleton.mp hk)] at hr'
    cases hr'
    exact hd hs
  · intro b' hb'
    rw [hb] at hb'
    obtain ⟨b, hb₀, rfl⟩ := Option.map_eq_some_iff.mp hb'
    exact ⟨b, hb₀, by rw [hf, total]⟩
  · intro hn
    rw [hb] at hn
    exact Option.map_eq_none_iff.mp hn

/-- Writing a row that is not live to another that is not. -/
private theorem Counted.late (h : Counted org s) {cid : CorrelationId} {row row' : BudgetReservation}
    {call : Call} (hrow : s.tables.rows .budgetReservation (org, cid) = some row)
    (hs : row.status ≠ .reserved) (hq : ∀ cid e, call ≠ .reserve org cid e) {f : OrgBudget → OrgBudget}
    (hf : ∀ b, (f b).reserved = b.reserved)
    (hb : T'.rows .orgBudget org = (s.tables.rows .orgBudget org).map f)
    (hr : ∀ k, T'.rows .budgetReservation k =
      if k = (org, cid) then some row' else s.tables.rows .budgetReservation k) :
    Counted org ⟨T', s.countHolds org T' call⟩ := by
  rw [countHolds_eq fun cid e he => absurd he (hq cid e)]
  refine h.returned ∅ (fun k hk => (by cases hk)) ?_ (fun cid hk => (by cases hk)) ?_ ?_
  · rintro cid' _ ⟨r, hr', hs'⟩
    rw [hr, if_neg]
    rintro ⟨⟩
    rw [hrow] at hr'
    cases hr'
    exact hs hs'
  · intro b' hb'
    rw [hb] at hb'
    obtain ⟨b, hb₀, rfl⟩ := Option.map_eq_some_iff.mp hb'
    exact ⟨b, hb₀, by rw [hf, reclaimedTotal, Finset.sum_empty, sub_zero]⟩
  · intro hn
    rw [hb] at hn
    exact Option.map_eq_none_iff.mp hn

/-- Without a budget nothing is added. -/
private theorem Counted.unbudgeted (h : Counted org s) {call : Call}
    (hb : s.tables.rows .orgBudget org = none) (hb' : T'.rows .orgBudget org = none) :
    Counted org ⟨T', s.countHolds org T' call⟩ := by
  have none : s.countHolds org T' call = ∅ := by
    rw [countHolds, h.unconfigured hb]
    cases call with
    | reserve o cid e => simp [newHold, hb]
    | settle => rfl
    | release => rfl
    | reconcileExpired => rfl
  rw [none]
  refine ⟨fun _ hc => (by cases hc), fun b hb => ?_, fun _ => rfl⟩
  change b ∈ T'.rows .orgBudget org at hb
  rw [hb'] at hb
  cases hb

/-- A sweep of holds that were all added, or are of nothing. -/
private theorem Counted.swept (h : Counted org s) {olderThan now : Timestamp}
    (hk : ∀ k ∈ ks, ∃ row, s.tables.rows .budgetReservation k = some row ∧
      stale org olderThan k row = true ∧ (k.2 ∈ s.added ∨ row.estimatedCost = 0))
    (hb : T'.rows .orgBudget org =
      (s.tables.rows .orgBudget org).map (giveBack (reclaimedTotal s.tables.rows ks)))
    (hr : ∀ k, T'.rows .budgetReservation k =
      if k ∈ ks then (s.tables.rows .budgetReservation k).map (markExpired now)
      else s.tables.rows .budgetReservation k) :
    Counted org ⟨T', s.countHolds org T' (.reconcileExpired org olderThan)⟩ := by
  rw [countHolds_eq fun _ _ he => by cases he]
  refine h.returned ks ?_ ?_ ?_ ?_ ?_
  · rintro ⟨o, cid⟩ hmem
    obtain ⟨row, hrow, hs, hc⟩ := hk _ hmem
    simp only [stale, decide_eq_true_eq] at hs
    obtain ⟨rfl, _⟩ := hs
    exact ⟨rfl, hc.imp id (estimate_of_row hrow)⟩
  · intro cid hmem _
    rw [hr, if_neg hmem]
  · rintro cid hmem ⟨r, hr', hs⟩
    rw [hr, if_pos hmem] at hr'
    obtain ⟨r₀, _, rfl⟩ := Option.map_eq_some_iff.mp hr'
    cases hs
  · intro b' hb'
    rw [hb] at hb'
    obtain ⟨b, hb₀, rfl⟩ := Option.map_eq_some_iff.mp hb'
    exact ⟨b, hb₀, rfl⟩
  · intro hn
    rw [hb] at hn
    exact Option.map_eq_none_iff.mp hn

theorem Counted.call {now : Timestamp} {call : Call} (h : Counted org s)
    (hr : s.ReturnsAdded org (.call now call)) : Counted org (s.step org (.call now call)) := by
  rw [step]
  rcases serve_effect s.tables now call with same | effect
  · exact h.unchanged (by rw [same]) fun cid => by rw [same]
  have posting := effect.posting org
  cases hbudget : s.tables.rows .orgBudget org with
  | none =>
    refine h.unbudgeted hbudget ?_
    cases posting with
    | untouched _ hb => rw [hb, hbudget]
    | held _ _ _ _ _ hb => rw [hb, hbudget]; rfl
    | settled _ _ _ hb => rw [hb, hbudget]; rfl
    | released _ _ hb => rw [hb, hbudget]; rfl
    | reclaimed _ hb => rw [hb, hbudget]; rfl
  | some b =>
    have returned := hr (by simp [hbudget])
    cases posting with
    | untouched _ hb hrows => exact h.unchanged hb hrows
    | held hu _ hl hn _ hb hrows => exact h.held hu hl hn hb hrows
    | @settled cid d now row hrow hs _ hb hrows =>
      rcases hs with hs | hs
      · have hcur : d.totalCost.currency = row.currency := by
          by_contra hne
          have stays := congrFun (congrFun (serve_settle_currency now hrow hne).1
            .budgetReservation) (org, cid)
          rw [hrows, if_pos rfl, hrow] at stays
          rw [← Option.some.inj stays] at hs
          cases hs
        refine h.ended hrow (returned cid row hrow ⟨rfl, rfl, hs, hcur⟩) (by simp [markCommitted])
          (fun _ _ he => by cases he) (fun b => ?_) hb hrows
        rw [settleBudget, if_pos hs]
      · exact h.late hrow (by simp [hs]) (fun _ _ he => by cases he)
          (fun b => by simp [settleBudget, hs]) hb hrows
    | @released cid now row hrow hs hb hrows =>
      exact h.ended hrow (returned cid row hrow ⟨rfl, rfl, hs⟩) (by simp [markReleased])
        (fun _ _ he => by cases he) (fun _ => rfl) hb hrows
    | @reclaimed olderThan now ks hk hb hrows =>
      refine h.swept (fun k hmem => ?_) hb hrows
      obtain ⟨row, hrow, hs⟩ := hk k hmem
      obtain ⟨o, cid⟩ := k
      have ho : o = org := (of_decide_eq_true hs).1
      subst ho
      exact ⟨row, hrow, hs, returned cid row hrow ⟨rfl, hs⟩⟩

theorem Counted.configure (h : Counted org s) (amountLimit : Int) (currency : String) :
    Counted org (s.step org (.configure amountLimit currency)) := by
  rw [step]
  split_ifs with hc
  · have empty := h.unconfigured hc.1
    refine ⟨fun cid hmem => ?_, fun b hb => ?_, fun _ => empty⟩
    · change cid ∈ s.added at hmem
      rw [empty] at hmem
      cases hmem
    · cases (Tables.put_self ..).symm.trans hb
      rw [empty, Finset.sum_empty]
      rfl
  · exact h

theorem Counted.step {e : BudgetEvent} (h : Counted org s) (hr : s.ReturnsAdded org e) :
    Counted org (s.step org e) := by
  cases e with
  | call now call => exact h.call hr
  | configure amountLimit currency => exact h.configure amountLimit currency

/-- A hold that was added, or is of nothing, can be returned. -/
private theorem Counted.covers_one (h : Counted org s) {b : OrgBudget}
    (hb : b ∈ s.tables.rows .orgBudget org) {cid : CorrelationId} {row : BudgetReservation}
    (hrow : s.tables.rows .budgetReservation (org, cid) = some row)
    (hc : cid ∈ s.added ∨ row.estimatedCost = 0) : 0 ≤ b.reserved - row.estimatedCost := by
  have added : Added org s {(org, cid)} := by
    intro k hk
    cases Finset.mem_singleton.mp hk
    exact ⟨rfl, hc.imp id (estimate_of_row hrow)⟩
  have covered := h.covers_return added hb
  rwa [reclaimedTotal, Finset.sum_singleton, hrow, Option.elim_some] at covered

private theorem heldRow_nonneg {T : Tables (schema pg)} {k : ReservationKey} {e : Money} {now : Timestamp}
    (h : (schema pg).check .budgetReservation k (heldRow T.rows k e now) = true) : 0 ≤ e.amount := by
  have nonneg := BudgetReservation.check_nonneg (Schema.valid_of_check h)
  rwa [(heldRow_live k e now).2] at nonneg

theorem check_of_otherChecks {b : OrgBudget} (other : otherChecks pg org b = true) (nonneg : 0 ≤ b.reserved) :
    (schema pg).check .orgBudget org b = true := by
  simp only [otherChecks, Bool.and_eq_true, decide_eq_true_eq] at other
  obtain ⟨there, ranges, limit, spent⟩ := other
  simp only [Schema.check, OrgBudget.check, Bool.and_eq_true, decide_eq_true_eq]
  exact ⟨there, ranges, limit, nonneg, spent⟩

/-- A call that returns added holds only meets the constraint. -/
theorem Counted.accepts {now : Timestamp} {call : Call} (h : Counted org s)
    (hr : s.ReturnsAdded org (.call now call)) : s.Accepts org now call := by
  intro ho fits
  by_cases foreign : ∃ cid d row, call = .settle org cid d ∧
      s.tables.rows .budgetReservation (org, cid) = some row ∧ d.totalCost.currency ≠ row.currency
  · obtain ⟨cid, d, row, rfl, hrow, currency⟩ := foreign
    exact (serve_settle_currency now hrow currency).2
  refine Storable.available ?_
  have returned {b : OrgBudget} (hb : b ∈ s.tables.rows .orgBudget org) := hr (by rw [hb]; simp)
  have nonneg {b : OrgBudget} (hb : b ∈ s.tables.rows .orgBudget org) : 0 ≤ b.reserved := by
    rw [h.balanced b hb]
    exact Finset.sum_nonneg fun cid hc => h.estimate_nonneg hc
  cases call with
  | reserve o cid e =>
    change o = org at ho
    subst ho
    intro unheld covered
    obtain ⟨book, mark⟩ := fits unheld covered
    refine ⟨fun b hb => check_of_otherChecks (book b hb) (add_nonneg (nonneg hb) ?_), mark⟩
    exact heldRow_nonneg mark
  | settle o cid d =>
    change o = org at ho
    subst ho
    intro row hrow open_
    have same : d.totalCost.currency = row.currency := by
      by_contra currency
      exact foreign ⟨cid, d, row, rfl, hrow, currency⟩
    obtain ⟨book, mark, record⟩ := fits row hrow open_
    refine ⟨fun b hb => check_of_otherChecks (book b hb) ?_, mark, record⟩
    rw [settleBudget]
    split_ifs with hs
    · exact h.covers_one hb hrow (returned hb cid row hrow ⟨rfl, rfl, hs, same⟩)
    · change 0 ≤ b.reserved
      exact nonneg hb
  | release o cid =>
    change o = org at ho
    subst ho
    intro row hrow hs
    obtain ⟨book, mark⟩ := fits row hrow hs
    exact ⟨fun b hb => check_of_otherChecks (book b hb)
      (h.covers_one hb hrow (returned hb cid row hrow ⟨rfl, rfl, hs⟩)), mark⟩
  | reconcileExpired o olderThan =>
    change o = org at ho
    subst ho
    obtain ⟨marks, book⟩ := fits
    refine ⟨marks, fun some_ b hb => check_of_otherChecks (book some_ b hb) (h.covers_return (fun k hk => ?_) hb)⟩
    obtain ⟨row, hrow, hs⟩ := staleKeys_spec s.tables o olderThan k hk
    obtain ⟨o', cid⟩ := k
    have ho : o' = o := (of_decide_eq_true hs).1
    subst ho
    exact ⟨rfl, (returned hb cid row hrow ⟨rfl, hs⟩).imp id (estimate_of_row hrow)⟩

/-- Every state of such a history counts its holds, and its next event returns added ones only. -/
private theorem Counted.along {events made : List BudgetEvent} (h : Counted org s)
    (hr : Along org s events) (hm : made <+: events) :
    Counted org (made.foldl (Budgeted.step org) s) ∧ ∀ e, made ++ [e] <+: events →
      (made.foldl (Budgeted.step org) s).ReturnsAdded org e := by
  induction made generalizing s events with
  | nil =>
    refine ⟨h, fun e he => ?_⟩
    cases events with
    | nil => cases List.prefix_nil.mp he
    | cons e' events =>
      cases (List.cons_prefix_cons.mp he).1
      exact hr.1
  | cons e made ih =>
    cases events with
    | nil => cases List.prefix_nil.mp hm
    | cons e' events =>
      obtain ⟨rfl, hrest⟩ := List.cons_prefix_cons.mp hm
      obtain ⟨counted, next⟩ := ih (h.step hr.1) hr.2 hrest
      exact ⟨counted, fun e' he => next e' (List.cons_prefix_cons.mp he).2⟩

end Budgeted

/-- As long as every hold returned under a budget was added to it, or is of nothing, the budget's
`reserved` is the sum of the holds added and not yet returned, and no call fails for its constraint. -/
theorem configured_budget_balanced (org : OrgId) (T : Tables (schema pg))
    (hT : T.rows .orgBudget org = none) (events : List BudgetEvent)
    (hr : Budgeted.Along org ⟨T, ∅⟩ events) :
    ∀ made, made <+: events → (Budgeted.after org T made).Balanced org ∧
      ∀ now call, made ++ [.call now call] <+: events →
        (Budgeted.after org T made).Accepts org now call := by
  have start : Budgeted.Counted org ⟨T, ∅⟩ := by
    refine ⟨fun cid hc => (by cases hc), fun b hb => ?_, fun _ => rfl⟩
    cases hT.symm.trans hb
  intro made hmade
  obtain ⟨counted, next⟩ := start.along hr hmade
  exact ⟨counted.balanced, fun now call hcall => counted.accepts (next _ hcall)⟩

/-- A hold from before the budget stays out while one taken under it is released. -/
def releasedLater : List BudgetEvent :=
  [.call 0 (.reserve 1 "before" ⟨5, "USD"⟩), .configure 100 "USD",
    .call 1 (.reserve 1 "after" ⟨7, "USD"⟩), .call 2 (.release 1 "after")]

theorem configured_budget_balanced_released :
    (Budgeted.after 1 (noRows : Tables (schema contended)) releasedLater).Balanced 1 ∧
      (Budgeted.after 1 (noRows : Tables (schema contended)) (releasedLater.take 3)).Accepts 1 2
        (.release 1 "after") := by
  have balanced := configured_budget_balanced 1 (noRows : Tables (schema contended)) rfl releasedLater
    ⟨fun _ _ _ _ h => h.elim, trivial, fun _ _ _ _ h => h.elim, (by
      rintro _ cid row _ ⟨_, rfl, _⟩
      exact .inl (by decide +kernel)), trivial⟩
  exact ⟨(balanced _ List.prefix_rfl).1,
    (balanced _ (List.take_prefix 3 releasedLater)).2 2 _ List.prefix_rfl⟩

/-- A hold taken without a budget. -/
def heldEarly : List BudgetEvent := [.call 0 (.reserve 1 "before" ⟨5, "USD"⟩), .configure 100 "USD"]

/-- It is released under one: `reserved` would fall below zero, and the call fails for that alone. -/
theorem early_hold_breaks_budget : ¬ ∀ (T : Tables (schema contended)) events,
    T.rows .orgBudget 1 = none → ∀ made now call, made ++ [.call now call] <+: events →
      (Budgeted.after 1 T made).Accepts 1 now call := by
  intro claim
  have available := claim noRows (heldEarly ++ [.call 1 (.release 1 "before")]) rfl heldEarly 1 (.release 1 "before")
    List.prefix_rfl rfl ?_
  · revert available
    decide +kernel
  · intro row hrow _
    obtain rfl : row = freshReservation ⟨5, "USD"⟩ 0 := by
      have there : (Budgeted.after 1 (noRows : Tables (schema contended)) heldEarly).tables.rows .budgetReservation
          (1, "before") = some (freshReservation ⟨5, "USD"⟩ 0) := by decide +kernel
      exact Option.some.inj (hrow.symm.trans there)
    refine ⟨fun b hb => ?_, by decide⟩
    obtain rfl : b = ⟨100, "USD", 0, 0⟩ := by
      have there : (Budgeted.after 1 (noRows : Tables (schema contended)) heldEarly).tables.rows .orgBudget 1 =
          some ⟨100, "USD", 0, 0⟩ := by decide +kernel
      exact Option.some.inj (hb.symm.trans there)
    decide

end LlmGateway.Ledger.Sql
