import LlmGateway.Ledger.Posting

/-! The age of the holds a sweep reclaims. The sweep tests `created_at`; history variables record when
each live hold was really taken, and when its row was last re-activated. -/
namespace LlmGateway.Ledger.Sql
open Lib.ReadCommitted
variable {pg : Postgres} {org : OrgId}

/-- When each hold was last taken, in transaction time: a reserve takes one when its commit
makes a row live that was absent, released or expired. -/
def heldSince (s : System (schema pg) LockKey Call Answer) (a : Action (schema pg) Call)
    (since : ReservationKey → Option Timestamp) : ReservationKey → Option Timestamp :=
  match a with
  | .exec t _ =>
    match s.sessions t with
    | .running (.reserve org cid _) now (.commit _) =>
      if ¬ Live s.db.committed (org, cid) ∧ Live (s.db.visible t) (org, cid) then
        Function.update since (org, cid) (some now)
      else since
    | _ => since
  | _ => since

/-- When each hold's row was last re-activated: its commit makes a row live that was there. -/
def reactivatedAt (s : System (schema pg) LockKey Call Answer) (a : Action (schema pg) Call)
    (last : ReservationKey → Option Timestamp) : ReservationKey → Option Timestamp :=
  match a with
  | .exec t _ =>
    match s.sessions t with
    | .running (.reserve org cid _) now (.commit _) =>
      if (¬ Live s.db.committed (org, cid) ∧ Live (s.db.visible t) (org, cid)) ∧
          s.db.committed .budgetReservation (org, cid) ≠ none then
        Function.update last (org, cid) (some now)
      else last
    | _ => last
  | _ => last

/-- A reserve that is about to commit a hold inserts it: it does not re-activate a row. -/
def NoReactivation (org : OrgId) (s : System (schema pg) LockKey Call Answer) :
    Action (schema pg) Call → Prop
  | .exec t _ => ∀ k ∈ committingReserve (s.sessions t), k.1 = org →
      ¬ Live s.db.committed k → Live (s.db.visible t) k → s.db.committed .budgetReservation k = none
  | _ => True

instance (s : System (schema pg) LockKey Call Answer) :
    (a : Action (schema pg) Call) → Decidable (NoReactivation org s a)
  | .exec t _ => inferInstanceAs (Decidable (∀ k ∈ committingReserve (s.sessions t), k.1 = org →
      ¬ Live s.db.committed k → Live (s.db.visible t) k →
        s.db.committed .budgetReservation k = none))
  | .begin .. | .abort _ | .tick _ => .isTrue trivial

/-- The cutoff of a sweep of `org` that is about to commit does not fall between the insertion of a live
hold's row and the last re-activation of that hold. -/
def CutoffsOutside (org : OrgId) (s : System (schema pg) LockKey Call Answer)
    (last : ReservationKey → Option Timestamp) : Prop :=
  ∀ t olderThan now answer, s.sessions t = .running (.reconcileExpired org olderThan) now (.commit answer) →
    ∀ cid r τ, s.db.committed .budgetReservation (org, cid) = some r → r.status = .reserved →
      last (org, cid) = some τ → ¬ (r.createdAt < olderThan ∧ olderThan ≤ τ)

/-- Every hold that a sweep of `org` is about to reclaim was taken before the sweep's cutoff. -/
def ReclaimsOnlyOld (org : OrgId) (s : System (schema pg) LockKey Call Answer)
    (since : ReservationKey → Option Timestamp) : Prop :=
  ∀ t olderThan now answer cid r,
    s.sessions t = .running (.reconcileExpired org olderThan) now (.commit answer) →
    Live s.db.committed (org, cid) → s.db.visible t .budgetReservation (org, cid) = some r →
    r.status = .expired → ∃ τ, since (org, cid) = some τ ∧ τ < olderThan

/-- A live row's hold was taken when the row was last re-activated, and else at its `created_at`. -/
structure Dated (org : OrgId) (σ : LedgerRows pg) (since last : ReservationKey → Option Timestamp) : Prop where
  absent : ∀ cid, σ .budgetReservation (org, cid) = none → last (org, cid) = none
  live : ∀ cid r, σ .budgetReservation (org, cid) = some r → r.status = .reserved →
    since (org, cid) = some ((last (org, cid)).getD r.createdAt)

section Step
variable {σ σ' : LedgerRows pg} {since last : ReservationKey → Option Timestamp}

private theorem dated_of_same (h : Dated org σ since last)
    (hr : ∀ cid, σ' .budgetReservation (org, cid) = σ .budgetReservation (org, cid)) : Dated org σ' since last where
  absent cid hn := h.absent cid ((hr cid).symm.trans hn)
  live cid r hr' := h.live cid r ((hr cid).symm.trans hr')

private theorem dated_of_write {row : BudgetReservation} {cid : CorrelationId}
    (h : Dated org σ since last) (hs : row.status ≠ .reserved)
    (hr : ∀ k, σ' .budgetReservation k =
      if k = (org, cid) then some row else σ .budgetReservation k) : Dated org σ' since last where
  absent cid' hn := by
    rw [hr] at hn
    split at hn
    · cases hn
    · exact h.absent cid' hn
  live cid' r hr' hs' := by
    rw [hr] at hr'
    split at hr'
    · cases hr'
      exact absurd hs' hs
    · exact h.live cid' r hr' hs'

/-- Commits other than holds make no row live. -/
private theorem dated_of_posting {call now} (h : Dated org σ since last)
    (hp : Posting org σ σ' call now) (hc : ∀ cid e, call ≠ .reserve org cid e) :
    Dated org σ' since last := by
  cases hp with
  | untouched _ _ hr _ => exact dated_of_same h hr
  | held => exact absurd rfl (hc _ _)
  | settled _ _ _ _ hr _ => exact dated_of_write h (by simp [markCommitted]) hr
  | released _ _ _ hr _ => exact dated_of_write h (by simp [markReleased]) hr
  | reclaimed hk _ hr _ =>
    refine ⟨fun cid hn => ?_, fun cid r hr' hs => ?_⟩
    · rw [hr] at hn
      split at hn
      · exact h.absent cid (Option.map_eq_none_iff.mp hn)
      · exact h.absent cid hn
    · rw [hr] at hr'
      split at hr'
      · obtain ⟨r₀, _, rfl⟩ := Option.map_eq_some_iff.mp hr'
        simp [markExpired] at hs
      · exact h.live cid r hr' hs

/-- A hold is dated by its own transaction, which inserts its row or re-activates it. -/
private theorem dated_of_reserve {cid : CorrelationId} {e : Money} {now : Timestamp}
    (h : Dated org σ since last) (hp : Posting org σ σ' (.reserve org cid e) now) :
    Dated org σ'
      (if ¬ Live σ (org, cid) ∧ Live σ' (org, cid) then Function.update since (org, cid) (some now) else since)
      (if (¬ Live σ (org, cid) ∧ Live σ' (org, cid)) ∧ σ .budgetReservation (org, cid) ≠ none then
        Function.update last (org, cid) (some now)
      else last) := by
  cases hp with
  | untouched _ _ hr _ =>
    have hlive : Live σ' (org, cid) ↔ Live σ (org, cid) := by simp only [Live, hr]
    rw [if_neg fun hl => hl.1 (hlive.mp hl.2), if_neg fun hl => hl.1.1 (hlive.mp hl.1.2)]
    exact dated_of_same h hr
  | @held _ _ _ row hu hrow hl _ _ _ hr _ =>
    have dead : ¬ Live σ (org, cid) := fun ⟨r, hr, hs⟩ => hu r hr hs
    have live : Live σ' (org, cid) := ⟨row, by rw [hr, if_pos rfl]; rfl, hl.1⟩
    have other {m : ReservationKey → Option Timestamp} {cid' : CorrelationId} (hk : (org, cid') ≠ (org, cid)) :
        (if (¬ Live σ (org, cid) ∧ Live σ' (org, cid)) ∧ σ .budgetReservation (org, cid) ≠ none then
          Function.update m (org, cid) (some now) else m) (org, cid') = m (org, cid') := by
      split_ifs
      · exact Function.update_of_ne hk _ _
      · rfl
    rw [if_pos ⟨dead, live⟩]
    refine ⟨fun cid' hn => ?_, fun cid' r hr' hs => ?_⟩
    · rw [hr] at hn
      split at hn
      · cases hn
      · next hk => rw [other hk, h.absent cid' hn]
    · rw [hr] at hr'
      split at hr'
      · next hk =>
        cases hr'
        obtain rfl : cid' = cid := (Prod.mk.inj hk).2
        rw [Function.update_self, hrow]
        cases hold : σ .budgetReservation (org, cid') with
        | none => simp [heldRow, hold, freshReservation, h.absent cid' hold]
        | some old => simp [dead, live]
      · next hk =>
        rw [Function.update_of_ne hk, other hk]
        exact h.live cid' r hr' hs

end Step

section Run
variable {s s' : System (schema pg) LockKey Call Answer}
  {since last : ReservationKey → Option Timestamp}

private theorem dated_step {a : Action (schema pg) Call}
    (hcommit : (outline pg).Commits s s' a) (h : Dated org s.db.committed since last) :
    Dated org s'.db.committed (heldSince s a since) (reactivatedAt s a last) := by
  cases hcommit with
  | @silent a hn hrows =>
    have hsame : heldSince s a since = since ∧ reactivatedAt s a last = last := by
      unfold heldSince reactivatedAt
      split
      · split
        · next hrun => exact absurd hrun (hn _ _ _ _ _ rfl)
        · exact ⟨rfl, rfl⟩
      · exact ⟨rfl, rfl⟩
    rw [hsame.1, hsame.2, hrows]
    exact h
  | @commit t seen call now answer hrun hs' he =>
    have hp := Effect.posting he org
    subst hs'
    by_cases hcall : ∃ cid e, call = .reserve org cid e
    · obtain ⟨cid, e, rfl⟩ := hcall
      simp only [heldSince, reactivatedAt, hrun]
      exact dated_of_reserve h hp
    · have hdated := dated_of_posting h hp fun cid e hce => hcall ⟨cid, e, hce⟩
      have others (cid : CorrelationId) : heldSince s (.exec t seen) since (org, cid) = since (org, cid) ∧
          reactivatedAt s (.exec t seen) last (org, cid) = last (org, cid) := by
        simp only [heldSince, reactivatedAt, hrun]
        cases call with
        | reserve o cid' e =>
          have ho : (org, cid) ≠ (o, cid') := fun heq => hcall ⟨cid', e, by rw [(Prod.mk.inj heq).1]⟩
          dsimp only
          constructor <;> split_ifs <;> first | rfl | exact Function.update_of_ne ho _ _
        | _ => exact ⟨rfl, rfl⟩
      refine ⟨fun cid hn => ?_, fun cid r hr hs => ?_⟩
      · rw [(others cid).2]
        exact hdated.absent cid hn
      · rw [(others cid).1, (others cid).2]
        exact hdated.live cid r hr hs

/-- Where no reserve re-activates a row there is no re-activation to record. -/
private theorem reactivatedAt_none {a : Action (schema pg) Call} (hc : NoReactivation org s a)
    (h : ∀ cid, last (org, cid) = none) (cid : CorrelationId) : reactivatedAt s a last (org, cid) = none := by
  by_cases reserves : ∃ t seen o cid' e now answer, a = .exec t seen ∧
      s.sessions t = .running (.reserve o cid' e) now (.commit answer)
  · obtain ⟨t, seen, o, cid', e, now, answer, rfl, hrun⟩ := reserves
    simp only [NoReactivation, hrun] at hc
    simp only [reactivatedAt, hrun]
    split_ifs with taken
    · have ho : (org, cid) ≠ (o, cid') := fun same =>
        taken.2 (hc _ rfl (Prod.mk.inj same).1.symm taken.1.1 taken.1.2)
      rw [Function.update_of_ne ho, h]
    · exact h cid
  · have same : reactivatedAt s a last = last := by
      unfold reactivatedAt
      split
      · split
        · next hrun => exact absurd ⟨_, _, _, _, _, _, _, rfl, hrun⟩ reserves
        · rfl
      · rfl
    rw [same, h]

private theorem reclaims_of_dated (hh : (outline pg).Holds s)
    (h : Dated org s.db.committed since last) (outside : CutoffsOutside org s last) : ReclaimsOnlyOld org s since := by
  rintro t olderThan now answer cid r hrun ⟨r₀, hr₀, hs₀⟩ hr hs
  have hat := hh t
  simp only [hrun] at hat
  have he : Effect _ _ _ s.db.committed (s.db.visible t) := (outline pg).commits hat
  refine ⟨_, h.live cid r₀ hr₀ hs₀, ?_⟩
  have old : r₀.createdAt < olderThan := by
    have hp := Effect.posting he org
    generalize s.db.visible t = σ' at hr hp
    cases hp with
    | untouched _ _ hrows _ =>
      rw [hrows, hr₀] at hr
      cases hr
      simp [hs₀] at hs
    | reclaimed hk _ hrows _ =>
      rw [hrows] at hr
      split at hr
      · next hm =>
        obtain ⟨row, hrow, hst⟩ := hk _ hm
        obtain rfl := Option.some.inj (hr₀.symm.trans hrow)
        simp only [stale, decide_eq_true_eq] at hst
        exact hst.2.2
      · rw [hr₀] at hr
        cases hr
        simp [hs₀] at hs
  cases again : last (org, cid) with
  | none => exact old
  | some τ => exact not_le.mp fun young => outside t olderThan now answer hrun cid r₀ τ hr₀ hs₀ again ⟨old, young⟩

end Run

/-- In every run, a sweep whose cutoff falls outside the time from a hold's insertion to its last re-activation
reclaims only holds that were taken before its cutoff; and where no reserve re-activates a reservation of the
organization, no cutoff falls inside. -/
theorem reclaims_only_old_of_no_reactivation (T : Tables (schema pg)) (now : Timestamp)
    (hr : ∀ cid, T.rows .budgetReservation (org, cid) = none)
    (schedule : List (Action (schema pg) Call)) (s : System (schema pg) LockKey Call Answer)
    (hs : (System.start T now).run (ledger pg) schedule = some s) :
    (CutoffsOutside org s ((System.start T now).history (ledger pg) reactivatedAt schedule fun _ => none) →
      ReclaimsOnlyOld org s ((System.start T now).history (ledger pg) heldSince schedule fun _ => none)) ∧
    ((System.start T now).Along (ledger pg) (NoReactivation org) schedule →
      CutoffsOutside org s ((System.start T now).history (ledger pg) reactivatedAt schedule fun _ => none)) := by
  constructor
  · have start : Dated org T.rows (fun _ => none) fun _ => none := ⟨fun _ _ => rfl, fun cid r h => by simp [hr] at h⟩
    obtain ⟨hh, hd⟩ := (outline pg).run_rule (fun _ _ => True) (fun s a m => (heldSince s a m.1, reactivatedAt s a m.2))
      (fun s m => Dated org s.db.committed m.1 m.2) (fun _ hcommit h => dated_step hcommit h)
      ((outline pg).start_holds T now) (m := (fun _ => none, fun _ => none)) start (Outline.along_true _ _) hs
    rw [System.history_prod] at hd
    exact reclaims_of_dated hh hd
  · intro hw
    have never := ((outline pg).run_rule (NoReactivation org) reactivatedAt (fun _ last => ∀ cid, last (org, cid) = none)
      (fun hc _ h => reactivatedAt_none hc h) ((outline pg).start_holds T now) (m := fun _ => none) (fun _ => rfl) hw hs).2
    intro t olderThan now answer _ cid r τ _ _ again
    cases (never cid).symm.trans again

/-- A hold is released and, much later, taken again under the same id; a sweep whose cutoff lies
in between is about to commit. -/
def reheld : List (Action (schema contended) Call) :=
  .begin 0 (.reserve 1 "x" ⟨10, "USD"⟩) :: System.statements 0 6 ++
    .begin 1 (.release 1 "x") :: System.statements 1 4 ++
    .tick 100 :: .begin 2 (.reserve 1 "x" ⟨10, "USD"⟩) :: System.statements 2 6 ++
    .tick 110 :: .begin 3 (.reconcileExpired 1 50) :: System.statements 3 2

/-- The sweep a session is about to commit. -/
def committingSweep : Session (schema pg) LockKey Call Answer → Option (OrgId × Timestamp)
  | .running (.reconcileExpired org olderThan) _ (.commit _) => some (org, olderThan)
  | _ => none

private theorem running_of_committingSweep {session : Session (schema pg) LockKey Call Answer}
    {olderThan : Timestamp} (h : committingSweep session = some (org, olderThan)) :
    ∃ now answer, session = .running (.reconcileExpired org olderThan) now (.commit answer) := by
  unfold committingSweep at h
  split at h
  next now answer =>
    cases h
    exact ⟨now, answer, rfl⟩
  next => cases h

theorem reheld_hold_is_reclaimed_young :
    ¬ ∀ s, (System.start (configured contended 1 ⟨100, "USD", 0, 0⟩) 0).run (ledger contended)
        reheld = some s →
      ReclaimsOnlyOld 1 s ((System.start (configured contended 1 ⟨100, "USD", 0, 0⟩) 0).history
        (ledger contended) heldSince reheld fun _ => none) := by
  intro h
  have since : (System.start (configured contended 1 ⟨100, "USD", 0, 0⟩) 0).history
      (ledger contended) heldSince reheld (fun _ => none) (1, "x") = some 100 := by decide +kernel
  have facts : ((System.start (configured contended 1 ⟨100, "USD", 0, 0⟩) 0).run (ledger contended)
      reheld).any (fun s =>
        decide (committingSweep (s.sessions 3) = some (1, 50)) &&
        decide (Live s.db.committed (1, "x")) &&
        (s.db.visible 3 .budgetReservation (1, "x")).any (·.status = .expired)) = true := by
    decide +kernel
  obtain ⟨s, hs, hf⟩ := (Option.any_eq_true ..).mp facts
  simp only [Bool.and_eq_true, decide_eq_true_eq] at hf
  obtain ⟨⟨hrun, hlive⟩, hexp⟩ := hf
  obtain ⟨r, hr, hst⟩ := (Option.any_eq_true ..).mp hexp
  obtain ⟨now, answer, hcommit⟩ := running_of_committingSweep hrun
  obtain ⟨τ, hτ, hlt⟩ := h s hs _ _ _ _ _ _ hcommit hlive hr (by simpa using hst)
  rw [since] at hτ
  cases hτ
  exact absurd hlt (by decide)

/-- A hold taken before the cutoff, never re-activated. -/
def heldOnce : List (Action (schema contended) Call) :=
  .begin 0 (.reserve 1 "x" ⟨10, "USD"⟩) :: System.statements 0 6 ++
    .tick 110 :: .begin 1 (.reconcileExpired 1 50) :: System.statements 1 2

theorem reclaims_only_old_of_no_reactivation_held_once :
    ∃ s, (System.start (configured contended 1 ⟨100, "USD", 0, 0⟩) 0).run (ledger contended)
        heldOnce = some s ∧
      ReclaimsOnlyOld 1 s ((System.start (configured contended 1 ⟨100, "USD", 0, 0⟩) 0).history
        (ledger contended) heldSince heldOnce fun _ => none) := by
  have runs : Option.isSome ((System.start (configured contended 1 ⟨100, "USD", 0, 0⟩) 0).run
      (ledger contended) heldOnce) = true := by decide +kernel
  have meets : (System.start (configured contended 1 ⟨100, "USD", 0, 0⟩) 0).Along
      (ledger contended) (NoReactivation 1) heldOnce := by decide +kernel
  obtain ⟨s, hs⟩ := Option.isSome_iff_exists.mp runs
  obtain ⟨outside, never⟩ := reclaims_only_old_of_no_reactivation _ _ (fun _ => rfl) _ _ hs
  exact ⟨s, hs, outside (never meets)⟩

end LlmGateway.Ledger.Sql
