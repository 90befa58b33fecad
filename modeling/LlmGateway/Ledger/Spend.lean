import LlmGateway.Ledger.Posting

/-! Spend, cost rows and committed reservations agree as long as no new hold is written
over a reservation that was settled after it was read. -/
namespace LlmGateway.Ledger.Sql
open Lib.ReadCommitted
variable {pg : Postgres} {org : OrgId}

/-- What a cost row contributes to its organization's `spent`. -/
def bookedCost (org : OrgId) (k : ReservationKey) (c : CostLedger) : Int :=
  if k.1 = org then c.totalCost else 0

def Settled (σ : LedgerRows pg) (k : ReservationKey) : Prop :=
  ∃ r, σ .budgetReservation k = some r ∧ r.status = .committed

/-- `spent` is the sum of the cost rows, and exactly the committed reservations have one. -/
def SpendAgrees (org : OrgId) (T : Tables (schema pg)) : Prop :=
  ∃ b, T.rows .orgBudget org = some b ∧ b.spent = T.sum .costLedger (bookedCost org) ∧
    ∀ cid, T.rows .costLedger (org, cid) ≠ none ↔ Settled T.rows (org, cid)

/-- A reserve that is about to commit a hold does not write it over a settled reservation. -/
def NoSettledOverwrite (org : OrgId) (s : System (schema pg) LockKey Call Answer) :
    Action (schema pg) Call → Prop
  | .exec t _ => ∀ k ∈ committingReserve (s.sessions t), k.1 = org →
      s.db.own t .budgetReservation k ≠ none →
        ∀ r ∈ s.db.committed .budgetReservation k, r.status ≠ .committed
  | _ => True

instance (s : System (schema pg) LockKey Call Answer) :
    (a : Action (schema pg) Call) → Decidable (NoSettledOverwrite org s a)
  | .exec t _ => inferInstanceAs (Decidable (∀ k ∈ committingReserve (s.sessions t), k.1 = org →
      s.db.own t .budgetReservation k ≠ none →
        ∀ r ∈ s.db.committed .budgetReservation k, r.status ≠ .committed))
  | .begin .. | .abort _ | .tick _ => .isTrue trivial

section Step
variable {T T' : Tables (schema pg)}

private theorem cost_sum_frame (h : ∀ cid, T'.rows .costLedger (org, cid) =
      T.rows .costLedger (org, cid)) :
    T'.sum .costLedger (bookedCost org) = T.sum .costLedger (bookedCost org) := by
  apply Tables.sum_eq_of_agree
  rintro ⟨o, cid⟩
  by_cases ho : o = org
  · rw [ho, h cid]
  · cases T'.rows .costLedger (o, cid) <;> cases T.rows .costLedger (o, cid) <;>
      simp [bookedCost, ho]

/-- Rewriting reservations without settling any, or unsettling one, books nothing. -/
private theorem agrees_of_unsettled (f : OrgBudget → OrgBudget) (h : SpendAgrees org T)
    (hf : ∀ b, (f b).spent = b.spent) (hb : T'.rows .orgBudget org = (T.rows .orgBudget org).map f)
    (hc : T'.rows .costLedger = T.rows .costLedger)
    (hr : ∀ cid, Settled T'.rows (org, cid) ↔ Settled T.rows (org, cid)) : SpendAgrees org T' := by
  obtain ⟨b, hb₀, hs, hi⟩ := h
  refine ⟨f b, by rw [hb, hb₀]; rfl, ?_, fun cid => ?_⟩
  · rw [hf, hs, cost_sum_frame fun cid => by rw [hc]]
  · rw [hc, hr]
    exact hi cid

private theorem settled_of_write {row : BudgetReservation} {key : ReservationKey}
    (h : ¬ Settled T.rows key) (hs : row.status ≠ .committed)
    (hr : ∀ k, T'.rows .budgetReservation k =
      if k = key then some row else T.rows .budgetReservation k) (k : ReservationKey) :
    Settled T'.rows k ↔ Settled T.rows k := by
  by_cases hk : k = key
  · subst hk
    refine iff_of_false ?_ h
    rintro ⟨r, hr', hr''⟩
    rw [hr, if_pos rfl] at hr'
    cases hr'
    exact hs hr''
  · simp only [Settled, hr, if_neg hk]

private theorem not_settled {k : ReservationKey} {row : BudgetReservation}
    (h : T.rows .budgetReservation k = some row) (hs : row.status ≠ .committed) :
    ¬ Settled T.rows k := by
  rintro ⟨r, hr, hr'⟩
  obtain rfl := Option.some.inj (h.symm.trans hr)
  exact hs hr'

/-- The step: provided a reserve does not overwrite a settled row, each settlement books its
cost once and leaves its record. -/
theorem SpendAgrees.step {call now} (h : SpendAgrees org T) (hp : Posting org T.rows T'.rows call now)
    (ho : ∀ cid e, call = .reserve org cid e → Settled T.rows (org, cid) →
      T'.rows .budgetReservation (org, cid) = T.rows .budgetReservation (org, cid)) :
    SpendAgrees org T' := by
  cases hp with
  | untouched _ hb hr hc =>
    obtain ⟨b, hb₀, hs, hi⟩ := h
    refine ⟨b, hb.trans hb₀, hs.trans (cost_sum_frame hc).symm, fun cid => ?_⟩
    simp only [Settled, hr, hc]
    exact hi cid
  | @held cid e now row hu _ hl _ _ hb hr hc =>
    refine agrees_of_unsettled (addHold e) h (fun _ => rfl) hb hc fun cid' =>
      settled_of_write ?_ (by simp [hl.1]) hr _
    rintro ⟨r, hr', hs⟩
    have hkept := ho cid e rfl ⟨r, hr', hs⟩
    rw [hr, if_pos rfl, hr'] at hkept
    cases hkept
    simp [hl.1] at hs
  | @settled cid d now row hrow hs _ hb hr hc =>
    obtain ⟨b, hb₀, hsum, hi⟩ := h
    have hnone : T.rows .costLedger (org, cid) = none := by
      by_contra hn
      exact not_settled hrow (by rcases hs with hs | hs <;> simp [hs]) ((hi cid).mp hn)
    have hm := @Tables.sum_sub_of_agree_one (schema pg) Int _ T T' .costLedger (bookedCost org)
      (org, cid) fun k hk => by rw [hc, if_neg fun h => hk h.1]
    simp only [hc, hnone, and_self, if_true, Option.elim_some, Option.elim_none] at hm
    refine ⟨settleBudget row d b, by rw [hb, hb₀]; rfl, ?_, fun cid' => ?_⟩
    · have hspent : (settleBudget row d b).spent = b.spent + d.totalCost.amount := by
        unfold settleBudget; split_ifs <;> rfl
      have hbooked : bookedCost org (org, cid) (costRow d now) = d.totalCost.amount := by
        simp [bookedCost, costRow]
      omega
    · by_cases hk : cid' = cid
      · subst hk
        simp [Settled, hc, hr, hnone, markCommitted]
      · simp only [Settled, hr, hc, Prod.mk.injEq, true_and, hk, false_and, if_false]
        exact hi cid'
  | @released cid now row hrow hs hb hr hc =>
    exact agrees_of_unsettled (giveBack row.estimatedCost) h (fun _ => rfl) hb hc fun cid' =>
      settled_of_write (not_settled hrow (by simp [hs])) (by simp [markReleased]) hr _
  | @reclaimed olderThan now ks hk hb hr hc =>
    refine agrees_of_unsettled (giveBack (reclaimedTotal T.rows ks)) h (fun _ => rfl) hb hc
      fun cid' => ?_
    by_cases hm : (org, cid') ∈ ks
    · obtain ⟨row, hrow, hst⟩ := hk _ hm
      simp only [stale, decide_eq_true_eq] at hst
      refine iff_of_false ?_ (not_settled hrow (by simp [hst.2.1]))
      rintro ⟨r, hr', hs⟩
      rw [hr, if_pos hm, hrow] at hr'
      cases hr'
      simp [markExpired] at hs
    · simp only [Settled, hr, if_neg hm]

end Step

/-- A reserve keeps a settled row: either it holds no version of it, or it breaks the condition. -/
private theorem settled_kept {s : System (schema pg) LockKey Call Answer} {t seen cid e now answer}
    (hc : NoSettledOverwrite org s (.exec t seen))
    (hr : s.sessions t = .running (.reserve org cid e) now (.commit answer))
    (hs : Settled s.db.committed (org, cid)) :
    (s.db.commit t).committed .budgetReservation (org, cid) =
      s.db.committed .budgetReservation (org, cid) := by
  obtain ⟨r, hrow, hst⟩ := hs
  cases ho : s.db.own t .budgetReservation (org, cid) with
  | none => simp [Db.commit, Db.visible, Own.install, ho]
  | some v =>
    simp only [NoSettledOverwrite, hr] at hc
    exact absurd hst (hc _ rfl rfl (by simp [ho]) r hrow)

/-- In every run in which no reserve commits its hold over a settled reservation, every
committed state has its spend, cost rows and committed reservations in agreement. -/
theorem spend_agrees_of_no_settled_overwrite (T : Tables (schema pg)) (now : Timestamp)
    (b₀ : OrgBudget) (hb : T.rows .orgBudget org = some b₀) (h0 : b₀.spent = 0)
    (hr : ∀ cid, T.rows .budgetReservation (org, cid) = none)
    (hc : ∀ cid, T.rows .costLedger (org, cid) = none)
    (schedule : List (Action (schema pg) Call)) (s : System (schema pg) LockKey Call Answer)
    (hw : (System.start T now).Along (ledger pg) (NoSettledOverwrite org) schedule)
    (hs : (System.start T now).run (ledger pg) schedule = some s) :
    SpendAgrees org s.db.tables := by
  have init : SpendAgrees org T := by
    refine ⟨b₀, hb, ?_, fun cid => by simp [Settled, hc, hr]⟩
    rw [h0]
    symm
    apply Finset.sum_eq_zero
    rintro ⟨o, cid⟩ _
    by_cases ho : o = org
    · subst ho
      simp [hc]
    · cases T.rows .costLedger (o, cid) <;> simp [bookedCost, ho]
  refine ((outline pg).run_rule (NoSettledOverwrite org) (fun _ _ => id)
    (fun s (_ : Unit) => SpendAgrees org s.db.tables) ?_ ((outline pg).start_holds T now) (m := ())
    init hw hs).2
  intro s s' a m hcond hcommit hp
  cases hcommit with
  | silent _ hrows =>
    obtain ⟨b, hb, hsum, hi⟩ := hp
    refine ⟨b, by rw [← hb]; exact congrFun (congrFun hrows _) _,
      hsum.trans (Tables.sum_congr_rows hrows _ _).symm, fun cid => ?_⟩
    have := hi cid
    simp only [Db.tables, Settled, hrows] at this ⊢
    exact this
  | @commit t seen call now answer hrun hs' he =>
    subst hs'
    refine hp.step (Effect.posting he org) fun cid e hcall hset => ?_
    subst hcall
    exact settled_kept hcond hrun hset

def fourUsd : SettlementDetail := ⟨"p", "m", 1, 1, ⟨2, "USD"⟩, ⟨2, "USD"⟩, ⟨4, "USD"⟩⟩

/-- A hold expires; a reserve of the same id reads the expired row, a late settlement commits,
and then the reserve re-activates the row. -/
def lateSettlement : List (Action (schema contended) Call) :=
  .begin 0 (.reserve 1 "x" ⟨10, "USD"⟩) :: System.statements 0 6 ++
    .tick 10 :: .begin 1 (.reconcileExpired 1 5) :: System.statements 1 3 ++
    .begin 2 (.reserve 1 "x" ⟨10, "USD"⟩) :: System.statements 2 2 ++
    .begin 3 (.settle 1 "x" fourUsd) :: System.statements 3 5 ++ System.statements 2 4

/-- The re-activated row is settled once more: spend is booked twice, with one record. -/
theorem spend_disagrees_after_late_settlement :
    ¬ ∀ s, (System.start (configured contended 1 ⟨100, "USD", 0, 0⟩) 0).run (ledger contended)
        (lateSettlement ++ .begin 4 (.settle 1 "x" fourUsd) :: System.statements 4 5) = some s →
      SpendAgrees 1 s.db.tables := by
  intro h
  have facts : ((System.start (configured contended 1 ⟨100, "USD", 0, 0⟩) 0).run (ledger contended)
      (lateSettlement ++ .begin 4 (.settle 1 "x" fourUsd) :: System.statements 4 5)).map
        (fun s => ((s.db.committed .orgBudget 1).map (·.spent),
          s.db.tables.sum .costLedger (bookedCost 1))) = some (some 8, 4) := by decide +kernel
  obtain ⟨s, hs, hf⟩ := Option.map_eq_some_iff.mp facts
  obtain ⟨b, hb, hsum, _⟩ := h s hs
  obtain ⟨hspent, hbooked⟩ := Prod.mk.inj hf
  rw [hbooked] at hsum
  rw [show s.db.committed .orgBudget 1 = some b from hb, Option.map_some, hsum] at hspent
  cases hspent

/-- The same calls one after the other meet the condition. -/
def lateSettlementInOrder : List (Action (schema contended) Call) :=
  .begin 0 (.reserve 1 "x" ⟨10, "USD"⟩) :: System.statements 0 6 ++
    .tick 10 :: .begin 1 (.reconcileExpired 1 5) :: System.statements 1 3 ++
    .begin 2 (.settle 1 "x" fourUsd) :: System.statements 2 5 ++
    .begin 3 (.reserve 1 "x" ⟨10, "USD"⟩) :: System.statements 3 3

theorem spend_agrees_of_no_settled_overwrite_in_order :
    ∃ s, (System.start (configured contended 1 ⟨100, "USD", 0, 0⟩) 0).run (ledger contended)
        lateSettlementInOrder = some s ∧ SpendAgrees 1 s.db.tables := by
  have runs : Option.isSome ((System.start (configured contended 1 ⟨100, "USD", 0, 0⟩) 0).run
      (ledger contended) lateSettlementInOrder) = true := by decide +kernel
  have meets : (System.start (configured contended 1 ⟨100, "USD", 0, 0⟩) 0).Along
      (ledger contended) (NoSettledOverwrite 1) lateSettlementInOrder := by decide +kernel
  obtain ⟨s, hs⟩ := Option.isSome_iff_exists.mp runs
  exact ⟨s, hs, spend_agrees_of_no_settled_overwrite _ _ _ rfl rfl (fun _ => rfl) (fun _ => rfl)
    _ _ meets hs⟩

end LlmGateway.Ledger.Sql
