import LlmGateway.Lib.LockFrames
import LlmGateway.Ledger.Sql

/-! What a committed ledger transaction does to the three tables: the atomic ledger
that the statement-level transactions are shown to implement. -/
namespace LlmGateway.Ledger.Sql
open Lib.ReadCommitted
variable (pg : Postgres)

abbrev LedgerRows := Rows (schema pg)
abbrev ReservationKey := OrgId × CorrelationId

variable {pg}

/-- The versions a ledger transaction holds, table by table. -/
def holding (budgets : OrgId → Option (Option OrgBudget))
    (reservations : ReservationKey → Option (Option BudgetReservation))
    (costs : ReservationKey → Option (Option CostLedger)) : Own (schema pg)
  | .orgBudget => budgets
  | .budgetReservation => reservations
  | .costLedger => costs

def nothing {K V : Type} : K → Option (Option V) := fun _ => none

def only {K V : Type} [DecidableEq K] (k : K) (v : V) : K → Option (Option V) :=
  fun k' => if k' = k then some (some v) else none

/-- The budget row rewritten by `f`, where the organization has one. -/
def booked (σ : LedgerRows pg) (org : OrgId) (f : OrgBudget → OrgBudget) :
    OrgId → Option (Option OrgBudget) :=
  fun o => if o = org then (σ .orgBudget org).map fun b => some (f b) else none

/-- The cost row, inserted where none exists. -/
def recorded (σ : LedgerRows pg) (k : ReservationKey) (row : CostLedger) :
    ReservationKey → Option (Option CostLedger) :=
  fun k' => if k' = k then (if σ .costLedger k = none then some (some row) else none) else none

/-- A cost row is accepted: it meets its own constraints, and its foreign key where it is inserted. -/
def recordable (σ : LedgerRows pg) (k : ReservationKey) (row : CostLedger) : Bool :=
  row.check && ((σ .costLedger k).isSome || pg.organization k.1)

def swept (σ : LedgerRows pg) (ks : Finset ReservationKey) (now : Timestamp) :
    ReservationKey → Option (Option BudgetReservation) :=
  fun k => if k ∈ ks then some ((σ .budgetReservation k).map (markExpired now)) else none

/-- The row `_hold` leaves behind. -/
def heldRow (σ : LedgerRows pg) (k : ReservationKey) (estimatedCost : Money) (now : Timestamp) :
    BudgetReservation :=
  match σ .budgetReservation k with
  | none => freshReservation estimatedCost now
  | some r => reactivate estimatedCost r

def reclaimedTotal (σ : LedgerRows pg) (ks : Finset ReservationKey) : Int :=
  ∑ k ∈ ks, (σ .budgetReservation k).elim 0 (·.estimatedCost)

/-- No live hold sits at `k`. -/
def Unheld (σ : LedgerRows pg) (k : ReservationKey) : Prop :=
  ∀ r, σ .budgetReservation k = some r → r.status ≠ .reserved

/-- A hold sits at `k`. -/
def Live (σ : LedgerRows pg) (k : ReservationKey) : Prop :=
  ∃ r ∈ σ .budgetReservation k, r.status = .reserved

instance (σ : LedgerRows pg) (k : ReservationKey) : Decidable (Live σ k) :=
  inferInstanceAs (Decidable (∃ r ∈ σ .budgetReservation k, r.status = .reserved))

/-- The effect of a commit, by call, transaction time and answer. A new hold may overwrite a row in any
status but `reserved`: the row was read without a lock. -/
inductive Effect : Call → Timestamp → Answer → LedgerRows pg → LedgerRows pg → Prop where
  | replayed {σ org cid estimatedCost now original} :
      Effect (.reserve org cid estimatedCost) now (reservedReply org cid original) σ σ
  | held {σ org cid estimatedCost now} : Unheld σ (org, cid) →
      (heldRow σ (org, cid) estimatedCost now).check = true →
      (∀ b, σ .orgBudget org = some b → covers estimatedCost.amount b = true) →
      Effect (.reserve org cid estimatedCost) now (reservedReply org cid estimatedCost) σ
        ((holding (booked σ org (addHold estimatedCost))
          (only (org, cid) (heldRow σ (org, cid) estimatedCost now)) nothing).install σ)
  | alreadySettled {σ org cid detail now row} : σ .budgetReservation (org, cid) = some row →
      row.status = .committed →
      Effect (.settle org cid detail) now (.ok .done) σ σ
  | settled {σ org cid detail now row} : σ .budgetReservation (org, cid) = some row →
      (row.status = .reserved ∨ row.status = .expired) →
      (markCommitted detail now row).check = true →
      (σ .costLedger (org, cid) = none → (costRow detail now).check = true) →
      Effect (.settle org cid detail) now (.ok .done) σ
        ((holding (booked σ org (settleBudget row detail))
          (only (org, cid) (markCommitted detail now row))
          (recorded σ (org, cid) (costRow detail now))).install σ)
  | alreadyReturned {σ org cid now row} : σ .budgetReservation (org, cid) = some row →
      row.status.holdAlreadyReturned = true →
      Effect (.release org cid) now (.ok .done) σ σ
  | released {σ org cid now row} : σ .budgetReservation (org, cid) = some row →
      row.status = .reserved →
      Effect (.release org cid) now (.ok .done) σ
        ((holding (booked σ org (giveBack row.estimatedCost))
          (only (org, cid) (markReleased now row)) nothing).install σ)
  | reclaimed {σ org olderThan now ks} :
      (∀ k ∈ ks, ∃ row, σ .budgetReservation k = some row ∧ stale org olderThan k row = true) →
      Effect (.reconcileExpired org olderThan) now (.ok (.reclaimed ks.card)) σ
        ((holding (booked σ org (giveBack (reclaimedTotal σ ks))) (swept σ ks now) nothing).install σ)
  | nothingStale {σ org olderThan now} :
      Effect (.reconcileExpired org olderThan) now (.ok (.reclaimed 0)) σ σ

section Holding
variable {b : OrgId → Option (Option OrgBudget)}
  {r : ReservationKey → Option (Option BudgetReservation)}
  {c : ReservationKey → Option (Option CostLedger)} {σ : LedgerRows pg}

theorem empty_eq_holding : (Own.empty : Own (schema pg)) = holding nothing nothing nothing := by
  funext tb k
  cases tb <;> rfl

@[simp] theorem install_orgBudget (o : OrgId) :
    (holding b r c).install σ .orgBudget o = (b o).getD (σ .orgBudget o) := rfl

@[simp] theorem install_budgetReservation (k : ReservationKey) :
    (holding b r c).install σ .budgetReservation k = (r k).getD (σ .budgetReservation k) := rfl

@[simp] theorem install_costLedger (k : ReservationKey) :
    (holding b r c).install σ .costLedger k = (c k).getD (σ .costLedger k) := rfl

theorem install_holding_nothing :
    (holding nothing nothing nothing : Own (schema pg)).install σ = σ := by
  funext tb k
  cases tb <;> rfl

theorem install_locked {key : ReservationKey} {row : BudgetReservation}
    (h : σ .budgetReservation key = some row) :
    (holding nothing (only key row) nothing : Own (schema pg)).install σ = σ := by
  funext tb k
  cases tb with
  | orgBudget => rfl
  | costLedger => rfl
  | budgetReservation =>
    by_cases hk : k = key
    · subst hk; simp [only, h]
    · simp [only, hk]

theorem booked_install (org : OrgId) (f : OrgBudget → OrgBudget) :
    (booked σ org f org).getD (σ .orgBudget org) = (σ .orgBudget org).map f := by
  cases h : σ .orgBudget org <;> simp [booked, h]

theorem only_install (k k' : ReservationKey) (row : BudgetReservation) :
    (only k row k').getD (σ .budgetReservation k') =
      if k' = k then some row else σ .budgetReservation k' := by
  by_cases h : k' = k <;> simp [only, h]

theorem recorded_install (k k' : ReservationKey) (row : CostLedger) :
    (recorded σ k row k').getD (σ .costLedger k') =
      if k' = k ∧ σ .costLedger k' = none then some row else σ .costLedger k' := by
  by_cases h : k' = k
  · subst h
    by_cases hn : σ .costLedger k' = none <;> simp [recorded, hn]
  · simp [recorded, h]

theorem swept_install (ks : Finset ReservationKey) (now : Timestamp) (k : ReservationKey) :
    (swept σ ks now k).getD (σ .budgetReservation k) =
      if k ∈ ks then (σ .budgetReservation k).map (markExpired now) else σ .budgetReservation k := by
  by_cases h : k ∈ ks <;> simp [swept, h]

end Holding

section Put
variable {b : OrgId → Option (Option OrgBudget)}
  {r : ReservationKey → Option (Option BudgetReservation)}
  {c : ReservationKey → Option (Option CostLedger)} {σ : LedgerRows pg}

theorem booked_none {org : OrgId} {f : OrgBudget → OrgBudget}
    (h : σ .orgBudget org = none) : booked σ org f = nothing := by
  funext o
  simp [booked, nothing, h]

theorem put_booked {org : OrgId} {f : OrgBudget → OrgBudget} {row : OrgBudget}
    (h : σ .orgBudget org = some row) :
    (holding nothing r c : Own (schema pg)).put .orgBudget {org} (fun _ => some (f row)) =
      holding (booked σ org f) r c := by
  funext tb k
  cases tb with
  | orgBudget =>
    by_cases hk : k = org
    · subst hk; simp [holding, booked, h]
    · simp [holding, booked, nothing, hk]
  | budgetReservation => simp [holding]
  | costLedger => simp [holding]

theorem put_only {key : ReservationKey} {row : BudgetReservation}
    (hr : ∀ k, k ≠ key → r k = none) :
    (holding b r c : Own (schema pg)).put .budgetReservation {key} (fun _ => some row) =
      holding b (only key row) c := by
  funext tb k
  cases tb with
  | orgBudget => simp [holding]
  | budgetReservation =>
    by_cases hk : k = key
    · simp [holding, only, hk]
    · simpa [holding, only, hk] using hr k hk
  | costLedger => simp [holding]

theorem put_recorded {key : ReservationKey} {row : CostLedger}
    (h : σ .costLedger key = none) :
    (holding b r nothing : Own (schema pg)).put .costLedger {key} (fun _ => some row) =
      holding b r (recorded σ key row) := by
  funext tb k
  cases tb with
  | orgBudget => simp [holding]
  | budgetReservation => simp [holding]
  | costLedger =>
    by_cases hk : k = key
    · simp [holding, recorded, hk, h]
    · simp [holding, recorded, nothing, hk]

theorem recorded_conflict {key : ReservationKey} {row : CostLedger}
    (h : σ .costLedger key ≠ none) : recorded σ key row = nothing := by
  funext k
  simp [recorded, nothing, h]

theorem put_swept {ks : Finset ReservationKey} {now : Timestamp} :
    (holding nothing nothing nothing : Own (schema pg)).put .budgetReservation ks
      (fun k => (σ .budgetReservation k).map (markExpired now)) =
        holding nothing (swept σ ks now) nothing := by
  funext tb k
  cases tb with
  | orgBudget => simp [holding]
  | budgetReservation => by_cases hk : k ∈ ks <;> simp [holding, swept, nothing, hk]
  | costLedger => simp [holding]

end Put

theorem only_ne {key : ReservationKey} {row : BudgetReservation} (k : ReservationKey)
    (h : k ≠ key) : only key row k = none := by
  simp [only, h]

theorem nothing_ne {key : ReservationKey} (k : ReservationKey) (_ : k ≠ key) :
    (nothing k : Option (Option BudgetReservation)) = none := rfl

private theorem filterMap_eq_map {K V : Type} (m : Multiset K) (f : K → Option V) (g : K → V)
    (h : ∀ k ∈ m, f k = some (g k)) : m.filterMap f = m.map g := by
  induction m using Multiset.induction_on with
  | empty => rfl
  | cons k m ih =>
    rw [Multiset.filterMap_cons_some f k m (h k (Multiset.mem_cons_self k m)), Multiset.map_cons,
      ih fun k' hk => h k' (Multiset.mem_cons_of_mem hk)]

/-- The sweep reclaims as many rows as keys, and gives back what they held. -/
theorem reclaimed_rows {σ : LedgerRows pg} {org : OrgId} {olderThan now : Timestamp}
    {ks : Finset ReservationKey}
    (h : ∀ k ∈ ks, ∃ row, σ .budgetReservation k = some row ∧ stale org olderThan k row = true) :
    let rows := ks.val.filterMap fun k => (σ .budgetReservation k).map (markExpired now)
    rows.card = ks.card ∧ (rows.map (·.estimatedCost)).sum = reclaimedTotal σ ks := by
  intro rows
  let row (k : ReservationKey) : BudgetReservation :=
    (σ .budgetReservation k).getD (freshReservation ⟨0, ""⟩ 0)
  have he : rows = ks.val.map fun k => markExpired now (row k) := by
    apply filterMap_eq_map
    intro k hk
    obtain ⟨r, hr, _⟩ := h k hk
    simp [row, hr]
  constructor
  · rw [he, Multiset.card_map]; rfl
  · rw [he, Multiset.map_map]
    apply Finset.sum_congr rfl
    intro k hk
    obtain ⟨r, hr, _⟩ := h k hk
    simp [row, hr, markExpired]

end LlmGateway.Ledger.Sql
