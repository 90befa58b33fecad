import Mathlib.Algebra.Order.BigOperators.Group.Finset
import LlmGateway.Ledger.Posting

/-! The budget gate: spend and holds stay within the limit, up to what settlements
cost beyond the holds they return. -/
namespace LlmGateway.Ledger.Sql
open Lib.ReadCommitted
variable {pg : Postgres} {org : OrgId}

abbrev LedgerSystem (pg : Postgres) := System (schema pg) LockKey Call Answer

/-- What settling `row` adds beyond the hold it returns. -/
def overrun (d : SettlementDetail) (row : BudgetReservation) : Int :=
  match row.status with
  | .reserved => max 0 (d.totalCost.amount - row.estimatedCost)
  | .expired => d.totalCost.amount
  | .committed | .released => 0

/-- The overrun of a call of `org` that commits on the rows `σ`. -/
def callOverrun (org : OrgId) (σ : LedgerRows pg) : Call → Int
  | .settle o cid d => if o = org then (σ .budgetReservation (o, cid)).elim 0 (Sql.overrun d) else 0
  | _ => 0

/-- The overrun that a step commits, if it commits a settlement of `org`. -/
def committedOverrun (org : OrgId) (s : LedgerSystem pg) : Action (schema pg) Call → Int
  | .exec t _ =>
    match s.sessions t with
    | .running call _ (.commit _) => callOverrun org s.db.committed call
    | _ => 0
  | _ => 0

/-- The total overrun of the settlements of `org` that a run commits. -/
def totalOverrun (org : OrgId) (s : LedgerSystem pg) (schedule : List (Action (schema pg) Call)) :
    Int :=
  s.history (ledger pg) (fun s a E => E + committedOverrun org s a) schedule 0

/-- Spend and holds are within `limit + E`, and no row holds a negative amount. -/
structure Within (org : OrgId) (limit : Int) (σ : LedgerRows pg) (E : Int) : Prop where
  budget : ∃ b, σ .orgBudget org = some b ∧ b.amountLimit = limit ∧ b.spent + b.reserved ≤ limit + E
  overrun : 0 ≤ E
  holds : ∀ cid r, σ .budgetReservation (org, cid) = some r → 0 ≤ r.estimatedCost

section Step
variable {σ σ' : LedgerRows pg} {limit E : Int}

private theorem holds_of_write (row : BudgetReservation) {cid : CorrelationId}
    (h : ∀ cid r, σ .budgetReservation (org, cid) = some r → 0 ≤ r.estimatedCost)
    (hn : 0 ≤ row.estimatedCost)
    (hr : ∀ k, σ' .budgetReservation k =
      if k = (org, cid) then some row else σ .budgetReservation k) :
    ∀ cid r, σ' .budgetReservation (org, cid) = some r → 0 ≤ r.estimatedCost := by
  intro cid' r hr'
  rw [hr] at hr'
  split at hr'
  · cases hr'; exact hn
  · exact h cid' r hr'

private theorem reclaimedTotal_nonneg {ks : Finset ReservationKey} {olderThan : Timestamp}
    (h : ∀ cid r, σ .budgetReservation (org, cid) = some r → 0 ≤ r.estimatedCost)
    (hk : ∀ k ∈ ks, ∃ row, σ .budgetReservation k = some row ∧ stale org olderThan k row = true) :
    0 ≤ reclaimedTotal σ ks := by
  apply Finset.sum_nonneg
  rintro ⟨o, cid⟩ hm
  obtain ⟨row, hr, hs⟩ := hk _ hm
  simp only [stale, decide_eq_true_eq] at hs
  obtain ⟨rfl, _⟩ := hs
  rw [hr]
  exact h cid row hr

private theorem overrun_of_settled {call : Call}
    (h : ∀ cid d row, call = .settle org cid d → σ .budgetReservation (org, cid) = some row →
      row.status = .committed) : callOverrun org σ call = 0 := by
  unfold callOverrun
  split
  · rename_i o cid d
    split_ifs with ho
    · subst ho
      cases hr : σ .budgetReservation (o, cid) with
      | none => rfl
      | some row => simp [Sql.overrun, h cid d row rfl hr]
    · rfl
  · rfl

/-- A new hold fits under the limit by the gate, and a settlement adds at most its overrun. -/
theorem Within.step {call now} (h : Within org limit σ E) (hp : Posting org σ σ' call now) :
    Within org limit σ' (E + callOverrun org σ call) := by
  obtain ⟨⟨b, hb, hl, hle⟩, hE, hn⟩ := h
  cases hp with
  | untouched hq hb' hr _ =>
    rw [overrun_of_settled hq, add_zero]
    exact ⟨⟨b, hb'.trans hb, hl, hle⟩, hE, fun cid r h => hn cid r ((hr cid).symm.trans h)⟩
  | @held cid e now row hu _ hlive he hg hb' hr _ =>
    have hcov := hg b hb
    simp only [covers, decide_eq_true_eq] at hcov
    refine ⟨⟨addHold e b, by rw [hb', hb]; rfl, hl, ?_⟩, by simpa [callOverrun] using hE,
      holds_of_write row hn (by rw [hlive.2]; exact he) hr⟩
    simp only [addHold, callOverrun]
    omega
  | @settled cid d now row h hs htot hb' hr _ =>
    have hx : callOverrun org σ (.settle org cid d) = Sql.overrun d row := by
      simp [callOverrun, h]
    rw [hx]
    have hpos : 0 ≤ Sql.overrun d row := by
      rcases hs with hs | hs <;> simp only [Sql.overrun, hs] <;> omega
    refine ⟨⟨settleBudget row d b, by rw [hb', hb]; rfl, ?_, ?_⟩, by omega,
      holds_of_write (markCommitted d now row) hn (hn cid row h) hr⟩
    · simp only [settleBudget]
      split_ifs <;> exact hl
    · rcases hs with hs | hs <;> simp only [settleBudget, Sql.overrun, hs] <;> simp <;> omega
  | @released cid now row h hs hb' hr _ =>
    have hrow := hn cid row h
    refine ⟨⟨giveBack row.estimatedCost b, by rw [hb', hb]; rfl, hl, ?_⟩,
      by simpa [callOverrun] using hE, holds_of_write (markReleased now row) hn hrow hr⟩
    simp only [giveBack, callOverrun]
    omega
  | @reclaimed olderThan now ks hk hb' hr _ =>
    have htot := reclaimedTotal_nonneg hn hk
    refine ⟨⟨giveBack (reclaimedTotal σ ks) b, by rw [hb', hb]; rfl, hl, ?_⟩,
      by simpa [callOverrun] using hE, fun cid r h => ?_⟩
    · simp only [giveBack, callOverrun]
      omega
    · rw [hr] at h
      split at h
      · obtain ⟨r0, h0, rfl⟩ := Option.map_eq_some_iff.mp h
        exact hn cid r0 h0
      · exact hn cid r h

end Step

/-- The run: each step that commits adds its overrun to the bound. -/
private theorem within_run {limit : Int} {s s' : LedgerSystem pg}
    {schedule : List (Action (schema pg) Call)} (hh : (outline pg).Holds s)
    (h : Within org limit s.db.committed 0) (hr : s.run (ledger pg) schedule = some s') :
    Within org limit s'.db.committed (totalOverrun org s schedule) := by
  refine ((outline pg).run_rule (fun _ _ => True) (fun s a E => E + committedOverrun org s a)
    (fun s E => Within org limit s.db.committed E) ?_ hh h (Outline.along_true s schedule) hr).2
  intro s s' a E _ hc hw
  cases hc with
  | @silent a hn hc =>
    have hz : committedOverrun org s a = 0 := by
      unfold committedOverrun
      split
      · split
        · rename_i hrun
          exact absurd hrun (hn _ _ _ _ _ rfl)
        · rfl
      · rfl
    rw [hz, add_zero, hc]
    exact hw
  | commit hrun _ he =>
    have hstep := hw.step (Effect.posting he org)
    simpa only [committedOverrun, hrun] using hstep

/-- Nothing overruns in a run that starts no settlement of the organization. -/
private theorem totalOverrun_eq_zero {s : LedgerSystem pg}
    {schedule : List (Action (schema pg) Call)}
    (hs : ∀ t cid d now p, s.sessions t ≠ .running (.settle org cid d) now p)
    (hb : ∀ t cid d, .begin t (.settle org cid d) ∉ schedule) :
    totalOverrun org s schedule = 0 := by
  unfold totalOverrun
  induction schedule generalizing s with
  | nil => rfl
  | cons a as ih =>
    have hz : committedOverrun org s a = 0 := by
      unfold committedOverrun
      split
      · split
        · rename_i call _ _ hrun
          unfold callOverrun
          split
          · split_ifs with ho
            · subst ho
              exact absurd hrun (hs _ _ _ _ _)
            · rfl
          · rfl
        · rfl
      · rfl
    rw [System.history, hz, add_zero]
    cases h : s.step (ledger pg) a with
    | none => rfl
    | some s' =>
      refine ih (fun t cid d now p hrun => ?_) fun t cid d hm => hb t cid d (List.mem_cons_of_mem a hm)
      rcases System.running_of_step h hrun with ⟨p', hp⟩ | rfl
      · exact hs t cid d now p' hp
      · exact hb t cid d List.mem_cons_self

/-- In every committed state of every interleaving, spend and holds exceed the limit by no more
than the committed settlements overran; without settlements they never exceed it. -/
theorem spent_add_reserved_le_limit (T : Tables (schema pg)) (now : Timestamp) (b₀ : OrgBudget)
    (hb : T.rows .orgBudget org = some b₀) (h0 : b₀.spent + b₀.reserved ≤ b₀.amountLimit)
    (hr : ∀ cid r, T.rows .budgetReservation (org, cid) = some r → 0 ≤ r.estimatedCost)
    (schedule : List (Action (schema pg) Call)) (s : LedgerSystem pg)
    (hs : (System.start T now).run (ledger pg) schedule = some s) :
    ∃ b, s.db.committed .orgBudget org = some b ∧ b.amountLimit = b₀.amountLimit ∧
      b.spent + b.reserved ≤ b.amountLimit + totalOverrun org (.start T now) schedule ∧
      ((∀ t cid d, .begin t (.settle org cid d) ∉ schedule) →
        b.spent + b.reserved ≤ b.amountLimit) := by
  have init : Within org b₀.amountLimit T.rows 0 := ⟨⟨b₀, hb, rfl, by omega⟩, le_rfl, hr⟩
  obtain ⟨⟨b, hb', hl, hle⟩, _, _⟩ := within_run ((outline pg).start_holds T now) init hs
  refine ⟨b, hb', hl, hl ▸ hle, fun hn => ?_⟩
  have hz := totalOverrun_eq_zero (s := System.start T now) (by simp [System.start]) hn
  rw [hz] at hle
  omega

/-- A settlement that costs four times its estimate. -/
def underestimated : List (Action (schema contended) Call) :=
  .begin 0 (.reserve 1 "a" ⟨30, "USD"⟩) :: System.statements 0 6 ++
    .begin 1 (.settle 1 "a" ⟨"p", "m", 1, 1, ⟨20, "USD"⟩, ⟨100, "USD"⟩, ⟨120, "USD"⟩⟩) ::
    System.statements 1 5

theorem spent_add_reserved_le_limit_underestimated :
    ∃ s, (System.start (configured contended 1 ⟨100, "USD", 0, 0⟩) 0).run (ledger contended)
        underestimated = some s ∧
      ∃ b, s.db.committed .orgBudget 1 = some b ∧ b.amountLimit = 100 ∧
        b.spent + b.reserved ≤ b.amountLimit +
          totalOverrun 1 (.start (configured contended 1 ⟨100, "USD", 0, 0⟩) 0) underestimated := by
  have runs : Option.isSome ((System.start (configured contended 1 ⟨100, "USD", 0, 0⟩) 0).run
      (ledger contended) underestimated) = true := by decide +kernel
  obtain ⟨s, hs⟩ := Option.isSome_iff_exists.mp runs
  obtain ⟨b, hb, hl, hle, _⟩ := @spent_add_reserved_le_limit contended 1 _ _ ⟨100, "USD", 0, 0⟩ rfl
    (by decide) (fun cid r h => by simp [configured] at h) _ _ hs
  exact ⟨s, hs, b, hb, hl, hle⟩

end LlmGateway.Ledger.Sql
