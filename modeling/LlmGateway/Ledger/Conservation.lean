import Mathlib.Algebra.Order.BigOperators.Group.Finset
import LlmGateway.Ledger.Posting

/-! The budget's `reserved` column is the sum of the live holds, under every interleaving. -/
namespace LlmGateway.Ledger.Sql
open Lib.ReadCommitted
variable {pg : Postgres} {σ σ' : LedgerRows pg} {org : OrgId}

/-- What a reservation row contributes to its organization's `reserved`. -/
def liveHold (org : OrgId) (k : ReservationKey) (r : BudgetReservation) : Int :=
  if k.1 = org ∧ r.status = .reserved then r.estimatedCost else 0

/-- The organization's `reserved` is the sum of its live holds, each of them non-negative. -/
def Conserved (org : OrgId) (T : Tables (schema pg)) : Prop :=
  ∃ b, T.rows .orgBudget org = some b ∧ b.reserved = T.sum .budgetReservation (liveHold org) ∧
    ∀ cid r, T.rows .budgetReservation (org, cid) = some r → 0 ≤ r.estimatedCost

section Step
variable {T T' : Tables (schema pg)}

private theorem sum_frame (h : ∀ cid, T'.rows .budgetReservation (org, cid) =
      T.rows .budgetReservation (org, cid)) :
    T'.sum .budgetReservation (liveHold org) = T.sum .budgetReservation (liveHold org) := by
  apply Tables.sum_eq_of_agree
  rintro ⟨o, cid⟩
  by_cases ho : o = org
  · rw [ho, h cid]
  · cases T'.rows .budgetReservation (o, cid) <;> cases T.rows .budgetReservation (o, cid) <;>
      simp [liveHold, ho]

/-- Rewriting one reservation row of the organization, and its budget to match. -/
private theorem conserved_of_one (b' : OrgBudget) (r' : BudgetReservation) {b : OrgBudget}
    {cid : CorrelationId}
    (hs : b.reserved = T.sum .budgetReservation (liveHold org))
    (hn : ∀ cid r, T.rows .budgetReservation (org, cid) = some r → 0 ≤ r.estimatedCost)
    (hb' : T'.rows .orgBudget org = some b')
    (hr' : T'.rows .budgetReservation (org, cid) = some r')
    (ho : ∀ k, k ≠ (org, cid) → T'.rows .budgetReservation k = T.rows .budgetReservation k)
    (hn' : 0 ≤ r'.estimatedCost)
    (hd : b'.reserved - b.reserved = liveHold org (org, cid) r' -
      (T.rows .budgetReservation (org, cid)).elim 0 (liveHold org (org, cid))) :
    Conserved org T' := by
  have hm := @Tables.sum_sub_of_agree_one (schema pg) Int _ T T' .budgetReservation
    (liveHold org) (org, cid) fun k hk => by rw [ho k hk]
  rw [hr', Option.elim_some] at hm
  refine ⟨b', hb', by omega, fun cid' r h => ?_⟩
  by_cases hc : cid' = cid
  · subst hc
    obtain rfl : r' = r := Option.some.inj (hr'.symm.trans h)
    exact hn'
  · exact hn cid' r ((ho (org, cid') (by simp [hc])).symm.trans h)

/-- The step: every commit moves `reserved` by what the rows it writes hold. -/
theorem Conserved.step {call now} (h : Conserved org T) (hp : Posting org T.rows T'.rows call now) :
    Conserved org T' := by
  obtain ⟨b, hb, hs, hn⟩ := h
  cases hp with
  | untouched _ hb' hr _ =>
    exact ⟨b, hb'.trans hb, hs.trans (sum_frame hr).symm,
      fun cid r h => hn cid r ((hr cid).symm.trans h)⟩
  | @held cid e now row hu _ hl he _ hb' hr _ =>
    refine conserved_of_one (addHold e b) row hs hn (by rw [hb', hb]; rfl) (by rw [hr, if_pos rfl])
      (fun k hk => by rw [hr, if_neg hk]) (by rw [hl.2]; exact he) ?_
    have old : (T.rows .budgetReservation (org, cid)).elim 0 (liveHold org (org, cid)) = 0 := by
      cases h : T.rows .budgetReservation (org, cid) with
      | none => rfl
      | some r => simp [liveHold, hu r h]
    simp [old, liveHold, hl, addHold]
  | @settled cid d now row h hs' _ hb' hr _ =>
    refine conserved_of_one (settleBudget row d b) (markCommitted d now row) hs hn (by rw [hb', hb]; rfl)
      (by rw [hr, if_pos rfl]) (fun k hk => by rw [hr, if_neg hk]) (hn cid row h) ?_
    rcases hs' with hs' | hs' <;> simp [h, liveHold, hs', settleBudget, markCommitted]
  | @released cid now row h hs' hb' hr _ =>
    refine conserved_of_one (giveBack row.estimatedCost b) (markReleased now row) hs hn (by rw [hb', hb]; rfl)
      (by rw [hr, if_pos rfl]) (fun k hk => by rw [hr, if_neg hk]) (hn cid row h) ?_
    simp [h, liveHold, hs', giveBack, markReleased]
  | @reclaimed olderThan now ks hk hb' hr _ =>
    refine ⟨giveBack (reclaimedTotal T.rows ks) b, by rw [hb', hb]; rfl, ?_, fun cid r h => ?_⟩
    · have hm := @Tables.sum_sub_of_agree (schema pg) Int _ T T' .budgetReservation
        (liveHold org) ks fun k hm => by rw [hr, if_neg hm]
      have hsum : ∑ k ∈ ks, ((T'.rows .budgetReservation k).elim 0 (liveHold org k) -
          (T.rows .budgetReservation k).elim 0 (liveHold org k)) = -reclaimedTotal T.rows ks := by
        rw [reclaimedTotal, ← Finset.sum_neg_distrib]
        apply Finset.sum_congr rfl
        intro k hm
        obtain ⟨row, h, hst⟩ := hk k hm
        simp only [stale, decide_eq_true_eq] at hst
        simp [hr, hm, h, liveHold, hst, markExpired]
      rw [hsum] at hm
      simp only [giveBack]
      omega
    · rw [hr] at h
      split at h
      · obtain ⟨r0, h0, rfl⟩ := Option.map_eq_some_iff.mp h
        exact hn cid r0 h0
      · exact hn cid r h

end Step

theorem Conserved.nonneg {T : Tables (schema pg)} (h : Conserved org T) :
    0 ≤ T.sum .budgetReservation (liveHold org) := by
  obtain ⟨_, _, _, hn⟩ := h
  apply Finset.sum_nonneg
  rintro ⟨o, cid⟩ _
  cases h : T.rows .budgetReservation (o, cid) with
  | none => rfl
  | some r =>
    by_cases ho : o = org
    · subst ho
      simp only [Option.elim_some, liveHold]
      split_ifs
      · exact hn cid r h
      · rfl
    · simp [liveHold, ho]

/-- In every committed state of every interleaving, an organization's `reserved` is the sum of
the estimates its live holds carry, and it is not negative. -/
theorem reserved_eq_sum_of_holds (T : Tables (schema pg)) (now : Timestamp) (b₀ : OrgBudget)
    (hb : T.rows .orgBudget org = some b₀) (h0 : b₀.reserved = 0)
    (hr : ∀ cid, T.rows .budgetReservation (org, cid) = none)
    (schedule : List (Action (schema pg) Call)) (s : System (schema pg) LockKey Call Answer)
    (hs : (System.start T now).run (ledger pg) schedule = some s) :
    ∃ b, s.db.committed .orgBudget org = some b ∧
      b.reserved = s.db.tables.sum .budgetReservation (liveHold org) ∧ 0 ≤ b.reserved := by
  have init : Conserved org T := by
    refine ⟨b₀, hb, ?_, fun cid r h => by simp [hr] at h⟩
    rw [h0]
    symm
    apply Finset.sum_eq_zero
    rintro ⟨o, cid⟩ _
    by_cases ho : o = org
    · subst ho
      simp [hr]
    · cases T.rows .budgetReservation (o, cid) <;> simp [liveHold, ho]
  have hfinal := (outline pg).run_invariant (Conserved org)
    (fun T T' h hT => by
      obtain ⟨b, hb, hs, hn⟩ := hT
      exact ⟨b, by rw [h, hb], hs.trans (Tables.sum_congr_rows h _ _).symm, by rwa [h]⟩)
    (fun _ _ _ T T' he hT => hT.step (Effect.posting he org))
    ((outline pg).start_holds T now) init hs
  have hnn := hfinal.nonneg
  obtain ⟨b, hb, hsum, _⟩ := hfinal
  exact ⟨b, hb, hsum, hsum ▸ hnn⟩

/-- Two holds and a settlement of the first, interleaved. -/
def racing : List (Action (schema contended) Call) :=
  .begin 0 (.reserve 1 "a" ⟨30, "USD"⟩) :: System.statements 0 6 ++
    .begin 1 (.reserve 1 "b" ⟨20, "USD"⟩) :: System.statements 1 4 ++
    .begin 2 (.settle 1 "a" ⟨"p", "m", 1, 1, ⟨2, "USD"⟩, ⟨3, "USD"⟩, ⟨5, "USD"⟩⟩) ::
    System.statements 1 2 ++ System.statements 2 5

theorem reserved_eq_sum_of_holds_racing :
    ∃ s, (System.start (configured contended 1 ⟨100, "USD", 0, 0⟩) 0).run (ledger contended) racing =
        some s ∧
      ∃ b, s.db.committed .orgBudget 1 = some b ∧
        b.reserved = s.db.tables.sum .budgetReservation (liveHold 1) ∧ 0 ≤ b.reserved := by
  have runs : Option.isSome ((System.start (configured contended 1 ⟨100, "USD", 0, 0⟩) 0).run
      (ledger contended) racing) = true := by decide +kernel
  obtain ⟨s, hs⟩ := Option.isSome_iff_exists.mp runs
  exact ⟨s, hs, reserved_eq_sum_of_holds _ _ _ rfl rfl (fun _ => rfl) _ _ hs⟩

end LlmGateway.Ledger.Sql
