import LlmGateway.Execution.HoldSteps
import LlmGateway.Ledger.Configuring

/-! What an operation leaves of the rows under another id: a row that is not there, or whose hold was
released, stays as it is unless that id is reserved. -/
namespace LlmGateway.Execution
open Lib.ReadCommitted Ledger Ledger.Sql Accounting

variable {pg : Postgres}

/-- No row, or one whose hold was released. -/
def Closed (σ : LedgerRows pg) (k : ReservationKey) : Prop :=
  ∀ r, σ .budgetReservation k = some r → r.status = .released

/-- The same reservation and the same cost row. -/
def SameAt (k : ReservationKey) (σ σ' : LedgerRows pg) : Prop :=
  σ' .budgetReservation k = σ .budgetReservation k ∧ σ' .costLedger k = σ .costLedger k

/-- Reserves this id. -/
def Reserves (k : ReservationKey) : Call → Prop
  | .reserve org cid _ => (org, cid) = k
  | .settle .. | .release .. | .reconcileExpired .. => False

section Rows
variable {k : ReservationKey} {σ σ' σ'' : LedgerRows pg}

theorem SameAt.refl (σ : LedgerRows pg) : SameAt k σ σ := ⟨rfl, rfl⟩

theorem SameAt.trans (h : SameAt k σ σ') (h' : SameAt k σ' σ'') : SameAt k σ σ'' :=
  ⟨h'.1.trans h.1, h'.2.trans h.2⟩

theorem Closed.of_same (closed : Closed σ k) (h : SameAt k σ σ') : Closed σ' k :=
  fun r hr => closed r (h.1.symm.trans hr)

private theorem only_elsewhere {key : ReservationKey} (ne : k ≠ key) (row : BudgetReservation) :
    (only key row k).getD (σ .budgetReservation k) = σ .budgetReservation k := by
  rw [only_install, if_neg ne]

/-- What a call does at an id that it does not reserve, and whose hold is no longer out. -/
theorem sameAt_of_effect {call : Call} {now : Timestamp} {answer : Answer} (h : Effect call now answer σ σ')
    (closed : Closed σ k) (hc : ¬ Reserves k call) : SameAt k σ σ' := by
  cases h with
  | replayed | alreadySettled | alreadyReturned | nothingStale => exact .refl _
  | held _ _ _ =>
    refine ⟨?_, rfl⟩
    rw [install_budgetReservation]
    exact only_elsewhere (Ne.symm hc) _
  | @settled _ org cid detail now row hr hs _ _ =>
    have ne : k ≠ (org, cid) := by
      rintro rfl
      have released := closed row hr
      rw [released] at hs
      rcases hs with hs | hs <;> cases hs
    refine ⟨?_, ?_⟩
    · rw [install_budgetReservation]
      exact only_elsewhere ne _
    · rw [install_costLedger, recorded_install, if_neg fun h => ne h.1]
  | @released _ org cid now row hr hs =>
    have ne : k ≠ (org, cid) := by
      rintro rfl
      cases (closed row hr).symm.trans hs
    refine ⟨?_, rfl⟩
    rw [install_budgetReservation]
    exact only_elsewhere ne _
  | @reclaimed _ org olderThan now ks hk =>
    have out : k ∉ ks := by
      intro hmem
      obtain ⟨row, hr, hst⟩ := hk k hmem
      simp only [stale, decide_eq_true_eq] at hst
      cases (closed row hr).symm.trans hst.2.1
    refine ⟨?_, rfl⟩
    rw [install_budgetReservation, swept_install, if_neg out]

/-- A call that settles nothing records no cost. -/
theorem costLedger_of_effect {call : Call} {now : Timestamp} {answer : Answer} (h : Effect call now answer σ σ')
    (hc : ∀ org cid detail, call ≠ .settle org cid detail) : σ' .costLedger k = σ .costLedger k := by
  cases h with
  | settled => exact absurd rfl (hc _ _ _)
  | _ => rfl

end Rows

theorem serve_sameAt {T : Tables (schema pg)} {now : Timestamp} {call : Call} {k : ReservationKey}
    (closed : Closed T.rows k) (hc : ¬ Reserves k call) :
    SameAt k T.rows ((ledger pg).serve T now call).1.rows := by
  rcases serve_effect T now call with same | effect
  · rw [same]
    exact .refl _
  · exact sameAt_of_effect effect closed hc

section Operation
variable {k : ReservationKey} {py : PythonStr} {ports : Ports} {request : RoutedRequest} {w : World pg}

theorem World.call_sameAt {now : Timestamp} {out : Bool} {c : Call} (closed : Closed w.tables.rows k)
    (hc : ¬ Reserves k c) : SameAt k w.tables.rows (w.call now out c).1.tables.rows := by
  cases out with
  | true => exact .refl _
  | false => exact serve_sameAt closed hc

theorem World.call_costLedger {now : Timestamp} {out : Bool} {c : Call}
    (hc : ∀ org cid detail, c ≠ .settle org cid detail) :
    (w.call now out c).1.tables.rows .costLedger k = w.tables.rows .costLedger k := by
  cases out with
  | true => rfl
  | false =>
    rcases serve_effect w.tables now c with same | effect
    · exact congrFun (congrFun same .costLedger) k
    · exact costLedger_of_effect effect hc

theorem reserve_sameAt (closed : Closed w.tables.rows k) (ne : request.key ≠ k) :
    SameAt k w.tables.rows (reserve py ports request w).1.tables.rows := by
  have swept : SameAt k w.tables.rows (reclaim ports request w).tables.rows := World.call_sameAt closed id
  rcases reserve_world with same | ⟨_, called⟩
  · rw [same]
    exact swept
  · rw [called]
    exact swept.trans (World.call_sameAt (closed.of_same swept) ne)

theorem settle_sameAt (closed : Closed w.tables.rows k) (usage : Option ProviderUsage) :
    SameAt k w.tables.rows (settle py ports request usage w).1.tables.rows := by
  rcases settle_world with same | ⟨_, called⟩
  · rw [same]
    exact .refl _
  · rw [called]
    exact World.call_sameAt closed id

theorem release_sameAt (closed : Closed w.tables.rows k) :
    SameAt k w.tables.rows (release ports request w).1.tables.rows := World.call_sameAt closed id

theorem conclude_sameAt (response : ProviderResponse) (put : PutOutcome) (closed : Closed w.tables.rows k) :
    SameAt k w.tables.rows (conclude py ports request response put w).1.tables.rows := by
  unfold conclude
  split
  · exact release_sameAt closed
  · have settled : SameAt k w.tables.rows (settle py ports request response.usage w).1.tables.rows :=
      settle_sameAt closed response.usage
    rcases hset : settle py ports request response.usage w with ⟨w₁, e | record⟩
    · rw [hset] at settled
      cases e with
      | cost e =>
        dsimp only
        split
        · exact settled.trans (release_sameAt (closed.of_same settled))
        · exact settled
      | ledger e => exact settled
      | cachePut => exact settled
    · rw [hset] at settled
      dsimp only
      rw [safePut_keeps.1]
      exact settled

/-- Whatever an operation comes to, another id is as it was. -/
theorem executeAndSettle_sameAt (response : ProviderResponse) (put : PutOutcome) (closed : Closed w.tables.rows k)
    (ne : request.key ≠ k) :
    SameAt k w.tables.rows (executeAndSettle py ports request response put w).1.tables.rows := by
  have reserved : SameAt k w.tables.rows (reserve py ports request w).1.tables.rows := reserve_sameAt closed ne
  unfold executeAndSettle
  rcases hres : reserve py ports request w with ⟨w₁, e | reservation⟩
  · rw [hres] at reserved
    cases e with
    | cost e =>
      dsimp only
      split <;> exact reserved
    | ledger e => exact reserved
    | cachePut => exact reserved
  · rw [hres] at reserved
    dsimp only
    split
    · exact reserved
    · exact reserved.trans (conclude_sameAt (w := w₁.observe _) response put (closed.of_same reserved))

/-- No step but a settlement records a cost. -/
private theorem reserve_costLedger :
    (reserve py ports request w).1.tables.rows .costLedger k = w.tables.rows .costLedger k := by
  have swept : (reclaim ports request w).tables.rows .costLedger k = w.tables.rows .costLedger k :=
    World.call_costLedger fun _ _ _ h => by cases h
  rcases reserve_world with same | ⟨_, called⟩
  · rw [same]
    exact swept
  · rw [called]
    exact (World.call_costLedger fun _ _ _ h => by cases h).trans swept

private theorem release_costLedger :
    (release ports request w).1.tables.rows .costLedger k = w.tables.rows .costLedger k :=
  World.call_costLedger fun _ _ _ h => by cases h

private theorem map_eq_ok {ε α β : Type} {x : Except ε α} {f : α → β} {b : β} (h : x.map f = .ok b) :
    ∃ a, x = .ok a ∧ f a = b := by
  cases x with
  | error e => cases h
  | ok a => exact ⟨a, rfl, Except.ok.inj h⟩

private theorem conclude_failed {response : ProviderResponse} {put : PutOutcome} {result : InferenceExecutionResult}
    (h : (conclude py ports request response put w).2 = .ok result) (executed : result.outcome = .executed)
    (failed : result.response.ok = false) :
    (conclude py ports request response put w).1 = (release ports request w).1 ∧
      (release ports request w).2 = .ok () := by
  unfold conclude at h ⊢
  by_cases hok : (!response.ok) = true
  · rw [if_pos hok] at h ⊢
    obtain ⟨_, released, _⟩ := map_eq_ok h
    exact ⟨rfl, released⟩
  · rw [if_neg hok] at h
    rcases hset : settle py ports request response.usage w with ⟨w₁, e | record⟩
    · rw [hset] at h
      cases e with
      | cost e =>
        dsimp only at h
        split at h
        · obtain ⟨_, -, rfl⟩ := map_eq_ok h
          cases executed
        · cases h
      | ledger e => cases h
      | cachePut => cases h
    · rw [hset] at h
      dsimp only at h
      obtain ⟨_, -, rfl⟩ := map_eq_ok h
      rw [failed] at hok
      exact absurd rfl hok

/-- A call that was made under a fresh id and failed: its hold is released, and nothing is charged. -/
theorem failed_released {response : ProviderResponse} {put : PutOutcome} {result : InferenceExecutionResult}
    (fresh : w.tables.rows .budgetReservation request.key = none)
    (h : (executeAndSettle py ports request response put w).2 = .ok result) (executed : result.outcome = .executed)
    (failed : result.response.ok = false) :
    statusOf (executeAndSettle py ports request response put w).1.tables.rows request.key = some .released ∧
      (executeAndSettle py ports request response put w).1.tables.rows .costLedger k =
        w.tables.rows .costLedger k := by
  have cost : (reserve py ports request w).1.tables.rows .costLedger k = w.tables.rows .costLedger k :=
    reserve_costLedger
  unfold executeAndSettle at h ⊢
  rcases hres : reserve py ports request w with ⟨w₁, e | reservation⟩
  · rw [hres] at h
    cases e with
    | cost e =>
      dsimp only at h
      split at h
      · cases h
        cases executed
      · cases h
    | ledger e => cases h
    | cachePut => cases h
  · rw [hres] at h cost
    dsimp only at h ⊢
    by_cases permitted : reservation.permitted = true
    · rw [if_neg (by simp [permitted])] at h ⊢
      obtain ⟨same, released⟩ := conclude_failed h executed failed
      have held := newlyHeld_of_fresh fresh (congrArg Prod.snd hres) permitted
      obtain ⟨_, r, _, _, _, _, hr, hs, _⟩ := reserve_of_newlyHeld held
      rw [hres] at hr
      rw [same]
      exact ⟨release_released (w := w₁.observe _) hr hs released, release_costLedger.trans cost⟩
    · rw [if_pos (by simpa using permitted)] at h
      cases h
      rcases reservation with ⟨_ | _ | _, _⟩ <;> cases executed

end Operation
end LlmGateway.Execution
