import LlmGateway.Ledger.InMemory
import LlmGateway.Ledger.SqlSerial

/-! What the in-memory ledger mirrors of the tables, and the conditions under which one call
keeps it a mirror. -/
namespace LlmGateway.Ledger.Sql
open Lib.ReadCommitted InMemory
variable {pg : Postgres}

/-- The reservation a settlement names has not been released. -/
def Unreleased (T : Tables (schema pg)) : Call → Prop
  | .settle org cid _ => ∀ r, T.rows .budgetReservation (org, cid) = some r → r.status ≠ .released
  | _ => True

/-- A sweep's cutoff does not fall between the two dates of a live hold: the row's insertion,
which SQL keeps, and its last re-activation, which the in-memory ledger keeps. -/
def SameAge (T : Tables (schema pg)) (m : InMemoryBudgetLedger) : Call → Prop
  | .reconcileExpired org olderThan => ∀ cid r r',
    T.rows .budgetReservation (org, cid) = some r → r.status = .reserved →
    (m.orgs org).reservations.get cid = some r' →
    (r.createdAt < olderThan ↔ r'.createdAt < olderThan)
  | _ => True

/-- All amounts of the call are in the currency `cur`. -/
def InCurrency (cur : String) : Call → Prop
  | .reserve _ _ e => e.currency = cur
  | .settle _ _ d => d.totalCost.currency = cur
  | _ => True

/-- The in-memory state shows what the tables show, dates apart. -/
structure Mirrors (cur : String) (σ : LedgerRows pg) (m : InMemoryBudgetLedger) : Prop where
  available : m.unavailable = false
  limit : ∀ org, (m.orgs org).limit =
    (σ .orgBudget org).map fun b => ⟨b.amountLimit, b.currency⟩
  totals : ∀ org b, σ .orgBudget org = some b →
    (m.orgs org).reserved = b.reserved ∧ (m.orgs org).spent = b.spent ∧ b.currency = cur
  holds : ∀ org cid, ((m.orgs org).reservations.get cid).map (fun r => (r.status, r.estimatedCost)) =
    (σ .budgetReservation (org, cid)).map fun r => (r.status, ⟨r.estimatedCost, r.currency⟩)
  currency : ∀ k r, σ .budgetReservation k = some r → r.currency = cur

namespace Mirrors
variable {cur : String} {σ σ' : LedgerRows pg} {m : InMemoryBudgetLedger} {org : OrgId}

theorem get_none (h : Mirrors cur σ m) {cid : CorrelationId}
    (hr : σ .budgetReservation (org, cid) = none) : (m.orgs org).reservations.get cid = none := by
  have := h.holds org cid
  rwa [hr, Option.map_none, Option.map_eq_none_iff] at this

theorem get_some (h : Mirrors cur σ m) {cid : CorrelationId} {r : BudgetReservation}
    (hr : σ .budgetReservation (org, cid) = some r) :
    ∃ r', (m.orgs org).reservations.get cid = some r' ∧ r'.status = r.status ∧
      r'.estimatedCost = ⟨r.estimatedCost, r.currency⟩ := by
  have := h.holds org cid
  rw [hr, Option.map_some] at this
  obtain ⟨r', hr', he⟩ := Option.map_eq_some_iff.mp this
  obtain ⟨hs, hc⟩ := Prod.mk.inj he
  exact ⟨r', hr', hs, hc⟩

/-- Replacing one organization's ledger, and its rows to match. -/
theorem replace (h : Mirrors cur σ m) (f : OrgBudget → OrgBudget) (l : OrgLedger)
    (hb : σ' .orgBudget org = (σ .orgBudget org).map f)
    (hf : ∀ b, (f b).amountLimit = b.amountLimit ∧ (f b).currency = b.currency)
    (hob : ∀ o, o ≠ org → σ' .orgBudget o = σ .orgBudget o)
    (hor : ∀ o, o ≠ org → ∀ cid, σ' .budgetReservation (o, cid) = σ .budgetReservation (o, cid))
    (hl : l.limit = (m.orgs org).limit)
    (ht : ∀ b, σ .orgBudget org = some b → l.reserved = (f b).reserved ∧ l.spent = (f b).spent)
    (hh : ∀ cid, (l.reservations.get cid).map (fun r => (r.status, r.estimatedCost)) =
      (σ' .budgetReservation (org, cid)).map fun r => (r.status, ⟨r.estimatedCost, r.currency⟩))
    (hc : ∀ cid r, σ' .budgetReservation (org, cid) = some r → r.currency = cur) :
    Mirrors cur σ' { m with orgs := Function.update m.orgs org l } := by
  refine ⟨h.available, fun o => ?_, fun o b hob' => ?_, fun o cid => ?_, fun ⟨o, cid⟩ r hr => ?_⟩
  · by_cases ho : o = org
    · subst ho
      simp only [Function.update_self, hl, h.limit, hb, Option.map_map]
      congr 1
      funext b
      simp [(hf b).1, (hf b).2]
    · simp only [Function.update_of_ne ho, hob o ho, h.limit]
  · by_cases ho : o = org
    · subst ho
      rw [hb] at hob'
      obtain ⟨b₀, hb₀, rfl⟩ := Option.map_eq_some_iff.mp hob'
      simp only [Function.update_self]
      exact ⟨(ht b₀ hb₀).1, (ht b₀ hb₀).2, (hf b₀).2.trans (h.totals o b₀ hb₀).2.2⟩
    · simp only [Function.update_of_ne ho]
      exact h.totals o b ((hob o ho).symm.trans hob')
  · by_cases ho : o = org
    · subst ho
      simp only [Function.update_self, hh]
    · simp only [Function.update_of_ne ho, hor o ho, h.holds]
  · by_cases ho : o = org
    · subst ho
      exact hc cid r hr
    · exact h.currency (o, cid) r ((hor o ho cid).symm.trans hr)

/-- Rewriting one reservation, and the budget to match. -/
theorem write (h : Mirrors cur σ m) (f : OrgBudget → OrgBudget) (l : OrgLedger)
    {cid : CorrelationId} {row : BudgetReservation} {res : Reservation}
    {c : ReservationKey → Option (Option CostLedger)}
    (hf : ∀ b, (f b).amountLimit = b.amountLimit ∧ (f b).currency = b.currency)
    (hl : l.limit = (m.orgs org).limit)
    (ht : ∀ b, σ .orgBudget org = some b → l.reserved = (f b).reserved ∧ l.spent = (f b).spent)
    (hh : l.reservations = (m.orgs org).reservations.set cid res)
    (hs : res.status = row.status) (he : res.estimatedCost = ⟨row.estimatedCost, row.currency⟩)
    (hc : row.currency = cur) :
    Mirrors cur ((holding (booked σ org f) (only (org, cid) row) c).install σ)
      { m with orgs := Function.update m.orgs org l } := by
  refine h.replace f l (booked_install _ _) hf (fun o ho => by simp [booked, ho])
    (fun o ho cid' => by simp [only, ho]) hl ht (fun cid' => ?_) (fun cid' r hr => ?_)
  · rw [install_budgetReservation, only_install, hh, Lib.Dict.get_set]
    by_cases hk : cid' = cid
    · simp [hk, hs, he]
    · simp only [Prod.mk.injEq, hk, and_false, if_false]
      exact h.holds org cid'
  · rw [install_budgetReservation, only_install] at hr
    split at hr
    · cases hr
      exact hc
    · exact h.currency _ r hr

/-- A call that changes neither side. -/
theorem unchanged (h : Mirrors cur σ m) :
    Mirrors cur σ { m with orgs := Function.update m.orgs org (m.orgs org) } := by
  rw [Function.update_eq_self]
  exact h

end Mirrors

end LlmGateway.Ledger.Sql
