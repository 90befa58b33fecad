import LlmGateway.Ledger.SqlOutline

/-! The statement-level transactions implement the atomic ledger: every statement keeps
the outline and every commit is a declared effect, under any interleaving. -/
namespace LlmGateway.Ledger.Sql
open Lib.ReadCommitted
variable {pg : Postgres}

/-- An UPDATE without a further condition misses only an organization that has no budget. -/
private theorem budget_absent {σ : LedgerRows pg} {org : OrgId} {o : Option OrgBudget}
    (h : ∀ b, o = some b → (fun _ : OrgBudget => true) b = false) (ho : o = σ .orgBudget org) :
    σ .orgBudget org = none := by
  rw [← ho]
  exact Option.eq_none_iff_forall_ne_some.mpr fun b hb => by simpa using h b hb

/-- Each statement leads from its annotation to the next. -/
theorem At.execs {db db' : Db (schema pg) LockKey} {t seen call now} {s : Stmt (schema pg) LockKey}
    {next} {r : s.Result} (h : At db.committed (db.own t) (db.locks t) call now (.exec s next))
    (he : db.exec t seen s = .ok db' r) :
    At db.committed (db'.own t) (db'.locks t) call now (next r) := by
  generalize hown : db.own t = own at h
  generalize hlk : db.locks t = lk at h
  generalize hp : (Txn.exec s next : LedgerTxn pg) = p at h
  cases h with
  | rolledBack => cases hp
  | replayed => cases hp
  | held => cases hp
  | alreadySettled => cases hp
  | settled => cases hp
  | alreadyReturned => cases hp
  | released => cases hp
  | nothingStale => cases hp
  | reclaimed => cases hp
  | reserve =>
    cases hp
    obtain ⟨ho, hl⟩ := Db.exec_lock he
    rw [ho, hl, hown, hlk]
    simpa using At.reserveRead
  | reserveRead =>
    cases hp
    obtain ⟨rfl, hr⟩ := Db.exec_select he
    rw [hown] at hr ⊢
    rw [hlk]
    replace hr : r = db'.committed .budgetReservation _ := hr
    cases r with
    | none => exact .reserveBudget (fun r' h' => by simp [← hr] at h') (fun h' => absurd rfl h')
    | some row =>
      dsimp only
      split_ifs with hs
      · refine .reserveBudget (fun r' h' => ?_) (fun _ => by simp [← hr])
        obtain rfl : row = r' := Option.some.inj (hr.trans h')
        rcases hs with hs | hs <;> simp [hs]
      · exact .replayed
  | @reserveBudget org cid e now existing hu hx =>
    cases hp
    obtain ⟨rfl, hr⟩ := Db.exec_select he
    rw [hown] at hr ⊢
    rw [hlk]
    replace hr : r = db'.committed .orgBudget org := hr
    cases r with
    | none =>
      have := @At.hold pg db'.committed org cid e now existing hu hx (fun b hb => by simp [← hr] at hb)
      rwa [booked_none hr.symm] at this
    | some b =>
      dsimp only
      split_ifs with hc
      · exact .rolledBack fun _ _ _ h => by cases h
      · exact .reserveGate hu hx (by simp [← hr])
  | @reserveGate org cid e now existing b hu hx hb =>
    cases hp
    obtain ⟨hl, ⟨rfl, rfl, hn⟩ | ⟨row, hv, hc, hk, rfl, ho⟩⟩ := Db.exec_update he
    · exact .rolledBack fun _ _ _ h => by cases h
    · rw [hown] at hv ho
      replace hv : db.committed .orgBudget org = some row := hv
      rw [ho, hl, hlk, put_booked (f := addHold e) hv]
      refine .hold hu hx fun b' hb' => ?_
      obtain rfl : row = b' := Option.some.inj (hv.symm.trans hb')
      exact hc
  | @hold org cid e now existing hu hx hc =>
    cases existing with
    | none =>
      cases hp
      obtain ⟨hl, hv, hk, ho⟩ := Db.exec_insert he
      rw [hown] at hv ho
      replace hv : db.committed .budgetReservation (org, cid) = none := hv
      have hh : freshReservation e now = heldRow db.committed (org, cid) e now := by
        simp [heldRow, hv]
      rw [ho, hl, hlk, put_only nothing_ne, hh]
      refine .held hu ?_ hc
      rw [← hh]
      exact (Bool.and_eq_true_iff.mp hk).2
    | some old =>
      cases hp
      obtain ⟨hl, ⟨rfl, rfl, hn⟩ | ⟨row, hv, _, hk, rfl, ho⟩⟩ := Db.exec_update he
      · obtain ⟨row, hrow⟩ := Option.ne_none_iff_exists'.mp (hx (by simp))
        rw [hown] at hn
        exact absurd (hn row hrow) (by simp)
      · rw [hown] at hv ho
        replace hv : db.committed .budgetReservation (org, cid) = some row := hv
        have hh : reactivate e row = heldRow db.committed (org, cid) e now := by
          simp [heldRow, hv]
        rw [ho, hl, hlk, put_only nothing_ne, hh]
        refine .held hu ?_ hc
        rw [← hh]
        exact (Bool.and_eq_true_iff.mp hk).2
  | @settle org cid d now =>
    cases hp
    obtain ⟨hr, hl, ⟨rfl, rfl⟩ | ⟨row, rfl, ho⟩⟩ := Db.exec_selectForUpdate he
    · exact .rolledBack fun _ _ _ _ => ⟨_, rfl⟩
    · rw [hown] at hr ho
      replace hr : db.committed .budgetReservation (org, cid) = some row := hr.symm
      rw [ho, hl, hlk, put_only nothing_ne]
      dsimp only
      split_ifs with h1 h2 h3
      · exact .alreadySettled hr h1
      · exact .rolledBack fun _ _ _ _ => ⟨_, rfl⟩
      · exact .rolledBack fun _ _ _ _ => ⟨_, rfl⟩
      · refine .settleBook hr ?_
        cases hs : row.status <;> simp_all
  | @settleBook org cid d now row hr hs =>
    cases hp
    obtain ⟨hl, ⟨rfl, rfl, hn⟩ | ⟨b, hv, _, _, rfl, ho⟩⟩ := Db.exec_update he
    · rw [hown] at hn
      have hz : db'.committed .orgBudget org = none := budget_absent hn rfl
      rw [hown, hlk]
      have := @At.settleMark pg db'.committed org cid d now row hr hs
      rwa [booked_none hz] at this
    · rw [hown] at hv ho
      rw [ho, hl, hlk, put_booked (f := settleBudget row d) hv]
      exact .settleMark hr hs
  | @settleMark org cid d now row hr hs =>
    cases hp
    obtain ⟨hl, ⟨rfl, rfl, hn⟩ | ⟨row', hv, _, hk, rfl, ho⟩⟩ := Db.exec_update he
    · rw [hown] at hn
      exact absurd (hn row (by simp [only])) (by simp)
    · rw [hown] at hv ho
      obtain rfl : row = row' := by simpa [only] using hv
      rw [ho, hl, hlk, put_only only_ne]
      exact .settleRecord hr hs (Bool.and_eq_true_iff.mp hk).2
  | @settleRecord org cid d now row hr hs hm =>
    cases hp
    obtain ⟨hl, _, ⟨hv, rfl⟩ | ⟨hv, hk, ho⟩⟩ := Db.exec_insertOnConflictDoNothing he
    · rw [hown] at hv
      replace hv : db'.committed .costLedger (org, cid) ≠ none := hv
      rw [hown, hlk]
      have := @At.settled pg db'.committed org cid d now row hr hs hm (fun h' => absurd h' hv)
      rwa [recorded_conflict hv] at this
    · rw [hown] at hv ho
      rw [ho, hl, hlk, put_recorded hv]
      exact .settled hr hs hm fun _ => (Bool.and_eq_true_iff.mp hk).2
  | @release org cid now =>
    cases hp
    obtain ⟨hr, hl, ⟨rfl, rfl⟩ | ⟨row, rfl, ho⟩⟩ := Db.exec_selectForUpdate he
    · exact .rolledBack fun _ _ _ h => by cases h
    · rw [hown] at hr ho
      replace hr : db.committed .budgetReservation (org, cid) = some row := hr.symm
      rw [ho, hl, hlk, put_only nothing_ne]
      dsimp only
      split_ifs with h1
      · exact .alreadyReturned hr h1
      · refine .releaseReturn hr ?_
        cases hs : row.status <;> simp_all [ReservationStatus.holdAlreadyReturned]
  | @releaseReturn org cid now row hr hs =>
    cases hp
    obtain ⟨hl, ⟨rfl, rfl, hn⟩ | ⟨b, hv, _, _, rfl, ho⟩⟩ := Db.exec_update he
    · rw [hown] at hn
      have hz : db'.committed .orgBudget org = none := budget_absent hn rfl
      rw [hown, hlk]
      have := @At.releaseMark pg db'.committed org cid now row hr hs
      rwa [booked_none hz] at this
    · rw [hown] at hv ho
      rw [ho, hl, hlk, put_booked (f := giveBack row.estimatedCost) hv]
      exact .releaseMark hr hs
  | @releaseMark org cid now row hr hs =>
    cases hp
    obtain ⟨hl, ⟨rfl, rfl, hn⟩ | ⟨row', hv, _, _, rfl, ho⟩⟩ := Db.exec_update he
    · rw [hown] at hn
      exact absurd (hn row (by simp [only])) (by simp)
    · rw [hown] at hv ho
      obtain rfl : row = row' := by simpa [only] using hv
      rw [ho, hl, hlk, put_only only_ne]
      exact .released hr hs
  | @reconcileExpired org olderThan now =>
    cases hp
    obtain ⟨hl, ks, hk, hr, ho⟩ := Db.exec_updateSkipLocked he
    rw [hown] at hk hr ho
    replace hk : ∀ k ∈ ks, ∃ row, db.committed .budgetReservation k = some row ∧
        stale org olderThan k row = true := fun k hm => by
      obtain ⟨row, hrow, hs, _⟩ := hk k hm
      exact ⟨row, hrow, hs⟩
    obtain ⟨hcard, hsum⟩ := @reclaimed_rows pg db.committed org olderThan now ks hk
    replace hr : r = ks.val.filterMap fun k =>
      (db.committed .budgetReservation k).map (markExpired now) := hr
    rw [← hr] at hcard hsum
    replace ho : db'.own t = holding nothing (swept db.committed ks now) nothing :=
      ho.trans put_swept
    rw [ho, hl, hlk]
    dsimp only
    split_ifs with hz
    · have hempty : ks = ∅ := Finset.card_eq_zero.mp (hcard ▸ hz)
      rw [hempty]
      exact .nothingStale
    · exact .reconcileReturn hk hcard hsum
  | @reconcileReturn org olderThan now ks reclaimed hk hn ht =>
    cases hp
    obtain ⟨hl, ⟨rfl, rfl, hz⟩ | ⟨b, hv, _, _, rfl, ho⟩⟩ := Db.exec_update he
    · rw [hown] at hz
      have hz : db'.committed .orgBudget org = none := budget_absent hz rfl
      have := @At.reclaimed pg db'.committed org olderThan now ks hk
      rw [booked_none hz] at this
      rw [hown, hlk]
      simpa only [hn] using this
    · rw [hown] at hv ho
      replace hv : db.committed .orgBudget org = some b := hv
      rw [ho, hl, hlk, put_booked hv, ht]
      simpa only [hn] using At.reclaimed hk

theorem At.begins (σ : LedgerRows pg) (call : Call) (now : Timestamp) :
    At σ Own.empty ∅ call now ((ledger pg).program call now) := by
  rw [empty_eq_holding]
  cases call with
  | reserve => exact .reserve
  | settle => exact .settle
  | release => exact .release
  | reconcileExpired => exact .reconcileExpired

section Commits
variable {σ : LedgerRows pg}

theorem At.commits {own : Own (schema pg)} {lk call now a} (h : At σ own lk call now (.commit a)) :
    Effect call now a σ (own.install σ) := by
  generalize hp : (Txn.commit a : LedgerTxn pg) = p at h
  cases h with
  | replayed => cases hp; rw [install_holding_nothing]; exact .replayed
  | held hu hk hc => cases hp; exact .held hu hk hc
  | alreadySettled hr hs => cases hp; rw [install_locked hr]; exact .alreadySettled hr hs
  | settled hr hs hk hc => cases hp; exact .settled hr hs hk hc
  | alreadyReturned hr hs => cases hp; rw [install_locked hr]; exact .alreadyReturned hr hs
  | released hr hs => cases hp; exact .released hr hs
  | @nothingStale _ _ now =>
    cases hp
    have hw : swept σ ∅ now = nothing := by funext k; simp [swept, nothing]
    rw [hw, install_holding_nothing]
    exact .nothingStale
  | reclaimed hk => cases hp; exact .reclaimed hk
  | @hold _ _ _ _ existing => cases existing <;> cases hp
  | _ => cases hp

theorem At.refusal {own : Own (schema pg)} {lk call now a}
    (h : At σ own lk call now (.rollback a)) : Refusal call a := by
  generalize hp : (Txn.rollback a : LedgerTxn pg) = p at h
  cases h with
  | rolledBack refusal =>
    cases hp
    exact refusal
  | @hold _ _ _ _ existing => cases existing <;> cases hp
  | _ => cases hp

end Commits

/-- The outline of the ledger: any interleaving of its transactions is a sequence of
atomic effects. -/
def outline (pg : Postgres) : Outline (ledger pg) where
  At := At
  Effect := Effect
  begins := At.begins
  execs := At.execs
  commits := At.commits
  stable h h' hd hl := h.stable h'.foreign hd hl

end LlmGateway.Ledger.Sql
