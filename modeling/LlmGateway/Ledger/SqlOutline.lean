import LlmGateway.Lib.ProofOutline
import LlmGateway.Ledger.SqlEffects

/-! A proof outline for the four ledger transactions: what each knows between two
statements, whatever the others do in between. -/
namespace LlmGateway.Ledger.Sql
open Lib.ReadCommitted
variable {pg : Postgres}

/-- A settlement is rolled back with an error. -/
def Refusal (call : Call) (a : Answer) : Prop :=
  ∀ org cid d, call = .settle org cid d → ∃ e, a = .error e

/-- The annotation of each program point. Only `reserve` holds an advisory lock, and only
its unlocked read needs one: no other transaction writes a live hold at its key. -/
inductive At (σ : LedgerRows pg) : Own (schema pg) → Set LockKey → Call → Timestamp →
    LedgerTxn pg → Prop where
  | rolledBack {own lk call now a} : Refusal call a → At σ own lk call now (.rollback a)
  | reserve {org cid e now} :
      At σ (holding nothing nothing nothing) ∅ (.reserve org cid e) now (reserve pg org cid e now)
  | reserveRead {org cid e now} :
      At σ (holding nothing nothing nothing) {lockKey pg org cid} (.reserve org cid e) now
        (reserveRead pg org cid e now)
  | replayed {org cid e now original lk} :
      At σ (holding nothing nothing nothing) lk (.reserve org cid e) now
        (.commit (reservedReply org cid original))
  | reserveBudget {org cid e now existing} : Unheld σ (org, cid) →
      (existing ≠ none → σ .budgetReservation (org, cid) ≠ none) →
      At σ (holding nothing nothing nothing) {lockKey pg org cid} (.reserve org cid e) now
        (reserveBudget pg existing org cid e now)
  | reserveGate {org cid e now existing b} : Unheld σ (org, cid) →
      (existing ≠ none → σ .budgetReservation (org, cid) ≠ none) → σ .orgBudget org ≠ none →
      At σ (holding nothing nothing nothing) {lockKey pg org cid} (.reserve org cid e) now
        (reserveGate pg existing org cid e now b)
  | hold {org cid e now existing} : Unheld σ (org, cid) →
      (existing ≠ none → σ .budgetReservation (org, cid) ≠ none) →
      (∀ b, σ .orgBudget org = some b → covers e.amount b = true) →
      At σ (holding (booked σ org (addHold e)) nothing nothing) {lockKey pg org cid}
        (.reserve org cid e) now (hold pg existing org cid e now)
  | held {org cid e now} : Unheld σ (org, cid) →
      (heldRow σ (org, cid) e now).check = true →
      (∀ b, σ .orgBudget org = some b → covers e.amount b = true) →
      At σ (holding (booked σ org (addHold e)) (only (org, cid) (heldRow σ (org, cid) e now)) nothing)
        {lockKey pg org cid} (.reserve org cid e) now (.commit (reservedReply org cid e))
  | settle {org cid d now} :
      At σ (holding nothing nothing nothing) ∅ (.settle org cid d) now (settle pg org cid d now)
  | alreadySettled {org cid d now row} : σ .budgetReservation (org, cid) = some row →
      row.status = .committed →
      At σ (holding nothing (only (org, cid) row) nothing) ∅ (.settle org cid d) now (.commit (.ok .done))
  | settleBook {org cid d now row} : σ .budgetReservation (org, cid) = some row →
      (row.status = .reserved ∨ row.status = .expired) →
      At σ (holding nothing (only (org, cid) row) nothing) ∅ (.settle org cid d) now
        (settleBook pg row org cid d now)
  | settleMark {org cid d now row} : σ .budgetReservation (org, cid) = some row →
      (row.status = .reserved ∨ row.status = .expired) →
      At σ (holding (booked σ org (settleBudget row d)) (only (org, cid) row) nothing) ∅
        (.settle org cid d) now (settleMark pg org cid d now)
  | settleRecord {org cid d now row} : σ .budgetReservation (org, cid) = some row →
      (row.status = .reserved ∨ row.status = .expired) → (markCommitted d now row).check = true →
      At σ (holding (booked σ org (settleBudget row d)) (only (org, cid) (markCommitted d now row))
        nothing) ∅ (.settle org cid d) now (settleRecord pg org cid d now)
  | settled {org cid d now row} : σ .budgetReservation (org, cid) = some row →
      (row.status = .reserved ∨ row.status = .expired) → (markCommitted d now row).check = true →
      (σ .costLedger (org, cid) = none → (costRow d now).check = true) →
      At σ (holding (booked σ org (settleBudget row d)) (only (org, cid) (markCommitted d now row))
        (recorded σ (org, cid) (costRow d now))) ∅ (.settle org cid d) now (.commit (.ok .done))
  | release {org cid now} :
      At σ (holding nothing nothing nothing) ∅ (.release org cid) now (release pg org cid now)
  | alreadyReturned {org cid now row} : σ .budgetReservation (org, cid) = some row →
      row.status.holdAlreadyReturned = true →
      At σ (holding nothing (only (org, cid) row) nothing) ∅ (.release org cid) now (.commit (.ok .done))
  | releaseReturn {org cid now row} : σ .budgetReservation (org, cid) = some row →
      row.status = .reserved →
      At σ (holding nothing (only (org, cid) row) nothing) ∅ (.release org cid) now
        (releaseReturn pg row org cid now)
  | releaseMark {org cid now row} : σ .budgetReservation (org, cid) = some row →
      row.status = .reserved →
      At σ (holding (booked σ org (giveBack row.estimatedCost)) (only (org, cid) row) nothing) ∅
        (.release org cid) now (releaseMark pg org cid now)
  | released {org cid now row} : σ .budgetReservation (org, cid) = some row →
      row.status = .reserved →
      At σ (holding (booked σ org (giveBack row.estimatedCost)) (only (org, cid) (markReleased now row))
        nothing) ∅ (.release org cid) now (.commit (.ok .done))
  | reconcileExpired {org olderThan now} :
      At σ (holding nothing nothing nothing) ∅ (.reconcileExpired org olderThan) now
        (reconcileExpired pg org olderThan now)
  | nothingStale {org olderThan now} :
      At σ (holding nothing (swept σ ∅ now) nothing) ∅ (.reconcileExpired org olderThan) now
        (.commit (.ok (.reclaimed 0)))
  | reconcileReturn {org olderThan now ks reclaimed} :
      (∀ k ∈ ks, ∃ row, σ .budgetReservation k = some row ∧ stale org olderThan k row = true) →
      reclaimed.card = ks.card → (reclaimed.map (·.estimatedCost)).sum = reclaimedTotal σ ks →
      At σ (holding nothing (swept σ ks now) nothing) ∅ (.reconcileExpired org olderThan) now
        (reconcileReturn pg reclaimed org)
  | reclaimed {org olderThan now ks} :
      (∀ k ∈ ks, ∃ row, σ .budgetReservation k = some row ∧ stale org olderThan k row = true) →
      At σ (holding (booked σ org (giveBack (reclaimedTotal σ ks))) (swept σ ks now) nothing) ∅
        (.reconcileExpired org olderThan) now (.commit (.ok (.reclaimed ks.card)))

/-- What a committing transaction may install, as far as the others are concerned. -/
structure Foreign (σ : LedgerRows pg) (own : Own (schema pg)) (lk : Set LockKey) : Prop where
  budget : ∀ o v, own .orgBudget o = some v → ∃ b, v = some b ∧ σ .orgBudget o ≠ none
  reservation : ∀ k v, own .budgetReservation k = some v → ∃ r, v = some r ∧
    (σ .budgetReservation k = some r ∨ r.status ≠ .reserved ∨ lockKey pg k.1 k.2 ∈ lk)
  cost : ∀ k v, own .costLedger k = some v → σ .costLedger k = none

private theorem booked_some {σ : LedgerRows pg} {org o : OrgId} {f : OrgBudget → OrgBudget}
    {v : Option OrgBudget} (h : booked σ org f o = some v) :
    ∃ b, v = some b ∧ σ .orgBudget o ≠ none := by
  unfold booked at h
  split at h
  · rename_i he
    subst he
    obtain ⟨b, hb, rfl⟩ := Option.map_eq_some_iff.mp h
    exact ⟨f b, rfl, by simp [hb]⟩
  · cases h

private theorem only_some {K V : Type} [DecidableEq K] {k k' : K} {v : V} {w : Option V}
    (h : only k v k' = some w) : k' = k ∧ w = some v := by
  unfold only at h
  split at h
  · rename_i he
    exact ⟨he, (Option.some.inj h).symm⟩
  · cases h

theorem At.foreign {σ : LedgerRows pg} {own lk call now a} (h : At σ own lk call now (.commit a)) :
    Foreign σ own lk := by
  have none_budget (o : OrgId) (v : Option OrgBudget) (hv : nothing o = some v) :
      ∃ b, v = some b ∧ σ .orgBudget o ≠ none := by cases hv
  have none_cost (k : ReservationKey) (v : Option CostLedger) (hv : nothing k = some v) :
      σ .costLedger k = none := by cases hv
  generalize hp : (Txn.commit a : LedgerTxn pg) = p at h
  cases h with
  | replayed => exact ⟨none_budget, (fun _ _ hv => by cases hv), none_cost⟩
  | held hu hc hb =>
    refine ⟨fun _ _ hv => booked_some hv, fun k v hv => ?_, none_cost⟩
    obtain ⟨rfl, rfl⟩ := only_some hv
    exact ⟨_, rfl, .inr (.inr rfl)⟩
  | alreadySettled hr hs =>
    refine ⟨none_budget, fun k v hv => ?_, none_cost⟩
    obtain ⟨rfl, rfl⟩ := only_some hv
    exact ⟨_, rfl, .inl hr⟩
  | settled hr hs hk hc =>
    refine ⟨fun _ _ hv => booked_some hv, fun k v hv => ?_, fun k v hv => ?_⟩
    · obtain ⟨rfl, rfl⟩ := only_some hv
      exact ⟨_, rfl, .inr (.inl (by simp [markCommitted]))⟩
    · change recorded σ _ _ k = some v at hv
      unfold recorded at hv
      split at hv
      · rename_i he
        split at hv
        · rename_i hn; rw [he]; exact hn
        · cases hv
      · cases hv
  | alreadyReturned hr hs =>
    refine ⟨none_budget, fun k v hv => ?_, none_cost⟩
    obtain ⟨rfl, rfl⟩ := only_some hv
    exact ⟨_, rfl, .inl hr⟩
  | released hr hs =>
    refine ⟨fun _ _ hv => booked_some hv, fun k v hv => ?_, none_cost⟩
    obtain ⟨rfl, rfl⟩ := only_some hv
    exact ⟨_, rfl, .inr (.inl (by simp [markReleased]))⟩
  | nothingStale => exact ⟨none_budget, fun k v hv => by simp [holding, swept] at hv, none_cost⟩
  | reclaimed hk =>
    refine ⟨fun _ _ hv => booked_some hv, fun k v hv => ?_, none_cost⟩
    change swept σ _ _ k = some v at hv
    unfold swept at hv
    split at hv
    · rename_i hm
      obtain ⟨row, hr, _⟩ := hk k hm
      rw [hr] at hv
      exact ⟨_, (Option.some.inj hv).symm, .inr (.inl (by simp [markExpired]))⟩
    · cases hv
  | @hold _ _ _ _ existing => cases existing <;> cases hp
  | _ => cases hp

section Stable
variable {σ : LedgerRows pg} {own own' : Own (schema pg)} {lk lk' : Set LockKey}

private theorem install_of_none (own : Own (schema pg)) (tb : Table) (k : (schema pg).Key tb)
    (h : own tb k = none) : own.install σ tb k = σ tb k := by
  simp [Own.install, h]

private theorem unheld_install (hf : Foreign σ own' lk') {k : ReservationKey} (h : Unheld σ k)
    (hk : lockKey pg k.1 k.2 ∉ lk') : Unheld (own'.install σ) k := by
  intro r hr
  cases ho : own' .budgetReservation k with
  | none => exact h r ((install_of_none own' .budgetReservation k ho).symm.trans hr)
  | some v =>
    obtain ⟨r', rfl, hr'⟩ := hf.reservation k v ho
    have he : r' = r := by simpa [Own.install, ho] using hr
    subst he
    rcases hr' with hs | hs | hs
    · exact h r' hs
    · exact hs
    · exact absurd hs hk

private theorem reservation_install_ne_none (hf : Foreign σ own' lk') {k : ReservationKey}
    (h : σ .budgetReservation k ≠ none) : own'.install σ .budgetReservation k ≠ none := by
  cases ho : own' .budgetReservation k with
  | none => rwa [install_of_none own' .budgetReservation k ho]
  | some v =>
    obtain ⟨r, rfl, _⟩ := hf.reservation k v ho
    simp [Own.install, ho]

private theorem budget_install_ne_none (hf : Foreign σ own' lk') {org : OrgId}
    (h : σ .orgBudget org ≠ none) : own'.install σ .orgBudget org ≠ none := by
  cases ho : own' .orgBudget org with
  | none => rwa [install_of_none own' .orgBudget org ho]
  | some v =>
    obtain ⟨b, rfl, _⟩ := hf.budget org v ho
    simp [Own.install, ho]

private theorem budget_install (hf : Foreign σ own' lk') {org : OrgId} {f : OrgBudget → OrgBudget}
    (hd : booked σ org f org ≠ none → own' .orgBudget org = none) :
    own'.install σ .orgBudget org = σ .orgBudget org := by
  apply install_of_none own' .orgBudget
  cases ho : own' .orgBudget org with
  | none => rfl
  | some v =>
    obtain ⟨b, _, hb⟩ := hf.budget org v ho
    have : booked σ org f org ≠ none := by simpa [booked] using hb
    simp [hd this] at ho

private theorem cost_install (hf : Foreign σ own' lk') {k : ReservationKey} {row : CostLedger}
    (hd : recorded σ k row k ≠ none → own' .costLedger k = none) :
    own'.install σ .costLedger k = σ .costLedger k := by
  apply install_of_none own' .costLedger
  cases ho : own' .costLedger k with
  | none => rfl
  | some v =>
    have hn := hf.cost k v ho
    have : recorded σ k row k ≠ none := by simp [recorded, hn]
    simp [hd this] at ho

/-- No commit by another transaction invalidates an annotation. -/
theorem At.stable {call now p} (h : At σ own lk call now p) (hf : Foreign σ own' lk')
    (hd : ∀ tb k, own tb k ≠ none → own' tb k = none) (hl : ∀ x ∈ lk, x ∉ lk') :
    At (own'.install σ) own lk call now p := by
  have row_kept (k : ReservationKey) (hk : own .budgetReservation k ≠ none) :
      own'.install σ .budgetReservation k = σ .budgetReservation k :=
    install_of_none own' .budgetReservation k (hd .budgetReservation k hk)
  have booked_kept (org : OrgId) (f : OrgBudget → OrgBudget)
      (ho : own .orgBudget = booked σ org f) :
      own'.install σ .orgBudget org = σ .orgBudget org ∧
        booked (own'.install σ) org f = booked σ org f := by
    have he := budget_install hf (fun hb => hd .orgBudget org (ho ▸ hb))
    exact ⟨he, by funext o; simp only [booked, he]⟩
  cases h with
  | rolledBack hf => exact .rolledBack hf
  | reserve => exact .reserve
  | reserveRead => exact .reserveRead
  | replayed => exact .replayed
  | reserveBudget hu hx =>
    exact .reserveBudget (unheld_install hf hu (hl _ rfl))
      fun h => reservation_install_ne_none hf (hx h)
  | reserveGate hu hx hb =>
    exact .reserveGate (unheld_install hf hu (hl _ rfl))
      (fun h => reservation_install_ne_none hf (hx h)) (budget_install_ne_none hf hb)
  | hold hu hx hc =>
    obtain ⟨he, hb⟩ := booked_kept _ _ rfl
    rw [← hb]
    exact .hold (unheld_install hf hu (hl _ rfl)) (fun h => reservation_install_ne_none hf (hx h))
      (by rwa [he])
  | @held org cid e now hu hk hc =>
    obtain ⟨he, hb⟩ := booked_kept _ _ rfl
    have hr := row_kept (org, cid) (by simp [holding, only])
    have hh : heldRow (own'.install σ) (org, cid) e now = heldRow σ (org, cid) e now := by
      unfold heldRow; rw [hr]
    rw [← hb, ← hh]
    exact .held (unheld_install hf hu (hl _ rfl)) (by rwa [hh]) (by rwa [he])
  | settle => exact .settle
  | @alreadySettled org cid d _ row hr hs =>
    exact .alreadySettled ((row_kept (org, cid) (by simp [holding, only])).trans hr) hs
  | @settleBook org cid d now row hr hs =>
    exact .settleBook ((row_kept (org, cid) (by simp [holding, only])).trans hr) hs
  | @settleMark org cid d now row hr hs =>
    obtain ⟨_, hb⟩ := booked_kept _ _ rfl
    rw [← hb]
    exact .settleMark ((row_kept (org, cid) (by simp [holding, only])).trans hr) hs
  | @settleRecord org cid d now row hr hs hk =>
    obtain ⟨_, hb⟩ := booked_kept _ _ rfl
    rw [← hb]
    exact .settleRecord ((row_kept (org, cid) (by simp [holding, only])).trans hr) hs hk
  | @settled org cid d now row hr hs hk hc =>
    obtain ⟨_, hb⟩ := booked_kept _ _ rfl
    have hcost := cost_install hf (hd .costLedger (org, cid))
    have hrec : recorded (own'.install σ) (org, cid) (costRow d now) =
        recorded σ (org, cid) (costRow d now) := by
      funext k; simp only [recorded, hcost]
    rw [← hb, ← hrec]
    exact .settled ((row_kept (org, cid) (by simp [holding, only])).trans hr) hs hk (by rwa [hcost])
  | release => exact .release
  | @alreadyReturned org cid _ row hr hs =>
    exact .alreadyReturned ((row_kept (org, cid) (by simp [holding, only])).trans hr) hs
  | @releaseReturn org cid now row hr hs =>
    exact .releaseReturn ((row_kept (org, cid) (by simp [holding, only])).trans hr) hs
  | @releaseMark org cid now row hr hs =>
    obtain ⟨_, hb⟩ := booked_kept _ _ rfl
    rw [← hb]
    exact .releaseMark ((row_kept (org, cid) (by simp [holding, only])).trans hr) hs
  | @released org cid now row hr hs =>
    obtain ⟨_, hb⟩ := booked_kept _ _ rfl
    rw [← hb]
    exact .released ((row_kept (org, cid) (by simp [holding, only])).trans hr) hs
  | reconcileExpired => exact .reconcileExpired
  | @nothingStale org olderThan now =>
    have hw : swept σ ∅ now = swept (own'.install σ) ∅ now := by funext k; simp [swept]
    rw [hw]
    exact .nothingStale
  | @reconcileReturn org olderThan now ks reclaimed hk hn ht =>
    have kept (k : ReservationKey) (hm : k ∈ ks) :
        own'.install σ .budgetReservation k = σ .budgetReservation k :=
      row_kept k (by simp [holding, swept, hm])
    have hw : swept σ ks now = swept (own'.install σ) ks now := by
      funext k
      by_cases hm : k ∈ ks <;> simp only [swept, hm, if_true, if_false, kept k]
    rw [hw]
    refine .reconcileReturn (fun k hm => ?_) hn (ht.trans ?_)
    · rw [kept k hm]; exact hk k hm
    · exact Finset.sum_congr rfl fun k hm => by rw [kept k hm]
  | @reclaimed org olderThan now ks hk =>
    have kept (k : ReservationKey) (hm : k ∈ ks) :
        own'.install σ .budgetReservation k = σ .budgetReservation k :=
      row_kept k (by simp [holding, swept, hm])
    have hw : swept σ ks now = swept (own'.install σ) ks now := by
      funext k
      by_cases hm : k ∈ ks <;> simp only [swept, hm, if_true, if_false, kept k]
    have ht : reclaimedTotal (own'.install σ) ks = reclaimedTotal σ ks :=
      Finset.sum_congr rfl fun k hm => by rw [kept k hm]
    obtain ⟨_, hb⟩ := booked_kept _ _ rfl
    rw [hw, ← hb, ← ht]
    refine .reclaimed fun k hm => ?_
    rw [kept k hm]; exact hk k hm

end Stable

end LlmGateway.Ledger.Sql
