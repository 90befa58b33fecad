import LlmGateway.Execution.OwnHold

/-! What each step of an operation does to its hold, what it reports and what it caches. A hold
under a fresh id is the operation's own. -/
namespace LlmGateway.Execution
open Lib.ReadCommitted Ledger Ledger.Sql Accounting

variable {pg : Postgres} {py : PythonStr} {ports : Ports} {request : RoutedRequest}
  {w w' : World pg}

section Reports

/-- A reserve is its sweep and at most one reserve call. -/
theorem reserve_world :
    (reserve py ports request w).1 = reclaim ports request w ∨
      ∃ estimatedCost, (reserve py ports request w).1 =
        ((reclaim ports request w).call ports.reserveAt ports.reserveOut
          (.reserve request.organizationId request.correlationId estimatedCost)).1 := by
  unfold reserve
  dsimp only
  split
  · exact .inl rfl
  · exact .inl rfl
  · split
    · exact .inl rfl
    · exact .inr ⟨_, rfl⟩

/-- A settlement is at most one settle call. -/
theorem settle_world {usage : Option ProviderUsage} :
    (settle py ports request usage w).1 = w ∨
      ∃ detail, (settle py ports request usage w).1 =
        (w.call ports.settleAt ports.settleOut
          (.settle request.organizationId request.correlationId detail)).1 := by
  unfold settle
  split
  · exact .inl rfl
  · exact .inr ⟨_, rfl⟩

theorem reserve_reports :
    (reserve py ports request w).1.observed = w.observed ∧
      (reserve py ports request w).1.puts = w.puts := by
  rcases reserve_world with swept | ⟨_, called⟩
  · rw [swept]
    exact ⟨rfl, rfl⟩
  · rw [called]
    exact ⟨rfl, rfl⟩

theorem settle_reports {usage : Option ProviderUsage} :
    (settle py ports request usage w).1.observed = w.observed ∧
      (settle py ports request usage w).1.puts = w.puts := by
  rcases settle_world with same | ⟨_, called⟩
  · rw [same]
    exact ⟨rfl, rfl⟩
  · rw [called]
    exact ⟨rfl, rfl⟩

theorem safePut_puts {put : PutOutcome} {entry : CachedResponse} (h : w.puts = w'.puts) :
    (w.safePut put entry).1.puts = (w'.safePut put entry).1.puts := by
  cases put <;> simp only [World.safePut, h]

theorem safePut_keeps {put : PutOutcome} {entry : CachedResponse} :
    (w.safePut put entry).1.tables = w.tables ∧ (w.safePut put entry).1.observed = w.observed := by
  cases put <;> exact ⟨rfl, rfl⟩

end Reports

section Answers
variable (h : w.tables.rows = w'.tables.rows)
include h

/-- A call that can end a hold is answered by the rows alone. -/
private theorem call_congr {now : Timestamp} {out : Bool} {c : Call} (hc : endsHold c = true) :
    (w.call now out c).2 = (w'.call now out c).2 := by
  cases out with
  | true => rfl
  | false => exact (serve_congr_rows h now c hc).2

theorem settle_congr (usage : Option ProviderUsage) :
    (settle py ports request usage w).2 = (settle py ports request usage w').2 := by
  unfold settle
  split
  · rfl
  · rename_i detail _
    exact congrArg (raised detail) (call_congr h rfl)

theorem release_congr : (release ports request w).2 = (release ports request w').2 :=
  congrArg (raised ()) (call_congr h rfl)

end Answers

/-- A settlement that raises has left the rows alone. -/
theorem settle_raised {usage : Option ProviderUsage} {e : OperationError}
    (h : (settle py ports request usage w).2 = .error e) :
    (settle py ports request usage w).1.tables.rows = w.tables.rows := by
  unfold settle at h ⊢
  split at h
  · rfl
  · rename_i detail _
    dsimp only [World.call] at h ⊢
    cases hout : ports.settleOut with
    | true => rfl
    | false =>
      simp only [hout, Bool.false_eq_true, if_false] at h ⊢
      cases hans : ((ledger pg).serve w.tables ports.settleAt
        (.settle request.organizationId request.correlationId detail)).2 with
      | ok reply => rw [hans] at h; cases h
      | error e => exact serve_settle_error hans

section Live
variable {r : BudgetReservation} (hr : w.tables.rows .budgetReservation request.key = some r)
include hr

/-- A hold that has left the budget is released to no effect. -/
theorem release_again (hs : r.status.holdAlreadyReturned = true) :
    (release ports request w).1.tables.rows = w.tables.rows := by
  unfold release
  dsimp only [World.call]
  cases ports.releaseOut with
  | true => rfl
  | false => exact (serve_release_returned ports.releaseAt hr hs).2

variable (hs : r.status = .reserved)
include hs

theorem release_released (h : (release ports request w).2 = .ok ()) :
    statusOf (release ports request w).1.tables.rows request.key = some .released := by
  unfold release at h ⊢
  dsimp only [World.call] at h ⊢
  cases hout : ports.releaseOut with
  | true => rw [hout] at h; cases h
  | false =>
    rw [hout] at h
    rcases serve_release_live ports.releaseAt hr hs with ⟨_, released⟩ | ⟨he, _⟩
    · exact released
    · rw [if_neg Bool.false_ne_true, he] at h
      cases h

theorem settle_committed {usage : Option ProviderUsage} {detail : SettlementDetail}
    (h : (settle py ports request usage w).2 = .ok detail) :
    statusOf (settle py ports request usage w).1.tables.rows request.key = some .committed := by
  unfold settle at h ⊢
  split at h
  · cases h
  · rename_i detail _
    dsimp only [World.call] at h ⊢
    cases hout : ports.settleOut with
    | true => rw [hout] at h; cases h
    | false =>
      rw [hout] at h
      rcases serve_settle_live ports.settleAt hr hs detail with ⟨_, _, committed⟩ | ⟨e, he, _⟩
      · exact committed
      · rw [if_neg Bool.false_ne_true, he] at h
        cases h

end Live

section Fresh
variable (fresh : w.tables.rows .budgetReservation request.key = none)
include fresh

theorem reclaim_fresh :
    (reclaim ports request w).tables.rows .budgetReservation request.key = none := by
  unfold reclaim
  dsimp only [World.call]
  cases ports.reclaimOut with
  | true => exact fresh
  | false => exact serve_reconcileExpired_fresh fresh _ _

/-- A permitted reservation under a fresh id holds on its own row. -/
theorem newlyHeld_of_fresh {reservation : ReservationResult}
    (h : (reserve py ports request w).2 = .ok reservation) (permitted : reservation.permitted = true) :
    NewlyHeld py ports request w := by
  have none_left : (reclaim ports request w).tables.rows .budgetReservation request.key = none :=
    reclaim_fresh fresh
  constructor
  · rintro ⟨r, hr, _⟩
    rw [none_left] at hr
    cases hr
  · unfold reserve at h ⊢
    dsimp only at h ⊢
    split at h
    · cases h
    · cases h
    · split at h
      · cases h
      · rename_i i o estimatedCost _
        dsimp only [World.call] at h ⊢
        cases hout : ports.reserveOut with
        | true =>
          rw [hout] at h
          cases h
          cases permitted
        | false =>
          rw [hout, if_neg Bool.false_ne_true] at h
          rcases serve_reserve_fresh none_left estimatedCost with ⟨_, live⟩ | ⟨_, refused⟩
          · exact live
          · unfold reservationOf at h
            split at h
            next result hres =>
              cases h
              rw [refused _ hres] at permitted
              cases permitted
            next =>
              cases h
              cases permitted
            next => cases h
            next => cases h

end Fresh
end LlmGateway.Execution
