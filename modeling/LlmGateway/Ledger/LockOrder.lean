import LlmGateway.Lib.Waiting
import LlmGateway.Ledger.Limit

/-! The order in which the ledger's transactions take their locks. A settlement, a release and
a sweep take the reservation row before the budget row; a reserve that re-activates a
reservation takes the two rows the other way round. -/
namespace LlmGateway.Ledger.Sql
open Lib.ReadCommitted
variable {pg : Postgres}

/-- The call and the next statement of a transaction that has one left. -/
def pending : Session (schema pg) LockKey Call Answer → Option (Call × Stmt (schema pg) LockKey)
  | .running call _ (.exec stmt _) => some (call, stmt)
  | .running _ _ (.commit _) => none
  | .running _ _ (.rollback _) => none
  | .idle => none
  | .finished _ _ => none

def reserves (k : ReservationKey) : Call → Bool
  | .reserve org cid _ => (org, cid) = k
  | .settle _ _ _ => false
  | .release _ _ => false
  | .reconcileExpired _ _ => false

def settles (k : ReservationKey) : Call → Bool
  | .settle org cid _ => (org, cid) = k
  | .reserve _ _ _ => false
  | .release _ _ => false
  | .reconcileExpired _ _ => false

/-- A reserve of `k` is past its gate, with its `_hold` still to come. -/
def Reactivating (s : LedgerSystem pg) (k : ReservationKey) : Prop :=
  ∃ h ∈ s.db.held .orgBudget k.1, ∃ p ∈ pending (s.sessions h.1), reserves k p.1 = true

/-- A settlement of `k` holds the row of an expired reservation and not yet the budget row. -/
def SettlingLate (s : LedgerSystem pg) (k : ReservationKey) : Prop :=
  (∃ r ∈ s.db.committed .budgetReservation k, r.status = .expired) ∧
    ∃ h ∈ s.db.held .budgetReservation k, s.db.own h.1 .orgBudget k.1 = none ∧
      ∃ p ∈ pending (s.sessions h.1), settles k p.1 = true

/-- The reservation for which the next statement of `t` passes the budget gate. -/
def passesGate (s : LedgerSystem pg) (t : TxnId) : Option ReservationKey :=
  match pending (s.sessions t) with
  | some (.reserve org cid e, .update .orgBudget _ _ _) =>
    if (s.db.committed .orgBudget org).any
        (fun b => covers e.amount b && (schema pg).check .orgBudget org (addHold e b)) then
      some (org, cid)
    else none
  | _ => none

/-- The expired reservation that the next statement of `t` locks in order to book its cost. -/
def locksExpired (s : LedgerSystem pg) (t : TxnId) : Option ReservationKey :=
  match pending (s.sessions t) with
  | some (.settle org cid d, .selectForUpdate _ _) =>
    if (s.db.committed .budgetReservation (org, cid)).any
        (fun r => r.status = .expired ∧ r.currency = d.totalCost.currency) then some (org, cid)
    else none
  | _ => none

/-- No reserve passes its gate while a late settlement of its reservation waits to book, and no
late settlement locks its row between the gate and the `_hold` of a reserve. -/
def KeepsOrder (s : LedgerSystem pg) : Action (schema pg) Call → Prop
  | .exec t _ => (∀ k ∈ passesGate s t, ¬ SettlingLate s k) ∧
      ∀ k ∈ locksExpired s t, ¬ Reactivating s k
  | .begin _ _ => True
  | .abort _ => True
  | .tick _ => True

instance (s : LedgerSystem pg) (k : ReservationKey) : Decidable (Reactivating s k) :=
  inferInstanceAs (Decidable (∃ h ∈ s.db.held .orgBudget k.1, ∃ p ∈ pending (s.sessions h.1),
    reserves k p.1 = true))

instance (s : LedgerSystem pg) (k : ReservationKey) : Decidable (SettlingLate s k) :=
  inferInstanceAs (Decidable ((∃ r ∈ s.db.committed .budgetReservation k, r.status = .expired) ∧
    ∃ h ∈ s.db.held .budgetReservation k, s.db.own h.1 .orgBudget k.1 = none ∧
      ∃ p ∈ pending (s.sessions h.1), settles k p.1 = true))

instance (s : LedgerSystem pg) : (a : Action (schema pg) Call) → Decidable (KeepsOrder s a)
  | .exec t _ => inferInstanceAs (Decidable ((∀ k ∈ passesGate s t, ¬ SettlingLate s k) ∧
      ∀ k ∈ locksExpired s t, ¬ Reactivating s k))
  | .begin _ _ => .isTrue trivial
  | .abort _ => .isTrue trivial
  | .tick _ => .isTrue trivial

section Waiting
variable {s : LedgerSystem pg} {t u : TxnId}

private theorem reserves_eq_true {k : ReservationKey} {call : Call} (h : reserves k call = true) :
    ∃ e, call = .reserve k.1 k.2 e := by
  cases call with
  | reserve org cid e =>
    obtain rfl : (org, cid) = k := by simpa [reserves] using h
    exact ⟨e, rfl⟩
  | settle => cases h
  | release => cases h
  | reconcileExpired => cases h

private theorem settles_eq_true {k : ReservationKey} {call : Call} (h : settles k call = true) :
    ∃ d, call = .settle k.1 k.2 d := by
  cases call with
  | settle org cid d =>
    obtain rfl : (org, cid) = k := by simpa [settles] using h
    exact ⟨d, rfl⟩
  | reserve => cases h
  | release => cases h
  | reconcileExpired => cases h

private theorem pending_eq_some {session : Session (schema pg) LockKey Call Answer} {p}
    (h : pending session = some p) :
    ∃ now next, session = .running p.1 now (.exec p.2 next) := by
  unfold pending at h
  split at h
  · cases h
    exact ⟨_, _, rfl⟩
  · cases h
  · cases h
  · cases h
  · cases h

theorem reactivating_iff {k : ReservationKey} : Reactivating s k ↔ ∃ t e now stmt next,
    s.sessions t = .running (.reserve k.1 k.2 e) now (.exec stmt next) ∧
      s.db.own t .orgBudget k.1 ≠ none := by
  constructor
  · rintro ⟨h, hh, ⟨call, stmt⟩, hp, hc⟩
    obtain ⟨now, next, hs⟩ := pending_eq_some hp
    obtain ⟨e, rfl⟩ := reserves_eq_true hc
    exact ⟨h.1, e, now, stmt, next, hs, Db.own_of_held (by rw [hh]; rfl)⟩
  · rintro ⟨t, e, now, stmt, next, hs, ho⟩
    obtain ⟨h, hh, rfl⟩ := Option.map_eq_some_iff.mp (Db.held_of_own ho)
    exact ⟨h, hh, _, by rw [hs]; rfl, by simp [reserves]⟩

theorem settlingLate_iff {k : ReservationKey} : SettlingLate s k ↔ ∃ t d now stmt next row,
    s.sessions t = .running (.settle k.1 k.2 d) now (.exec stmt next) ∧
      s.db.committed .budgetReservation k = some row ∧ row.status = .expired ∧
      s.db.own t .budgetReservation k ≠ none ∧ s.db.own t .orgBudget k.1 = none := by
  constructor
  · rintro ⟨⟨row, hr, he⟩, h, hh, hb, ⟨call, stmt⟩, hp, hc⟩
    obtain ⟨now, next, hs⟩ := pending_eq_some hp
    obtain ⟨d, rfl⟩ := settles_eq_true hc
    exact ⟨h.1, d, now, stmt, next, row, hs, hr, he, Db.own_of_held (by rw [hh]; rfl), hb⟩
  · rintro ⟨t, d, now, stmt, next, row, hs, hr, he, ho, hb⟩
    obtain ⟨h, hh, rfl⟩ := Option.map_eq_some_iff.mp (Db.held_of_own ho)
    exact ⟨⟨row, hr, he⟩, h, hh, hb, _, by rw [hs]; rfl, by simp [settles]⟩

/-- How far a transaction is from its last lock. -/
def stage (session : Session (schema pg) LockKey Call Answer) : Nat :=
  match pending session with
  | some (_, .advisoryXactLock _) => 2
  | some (_, .selectForUpdate _ _) => 2
  | some (_, .update .orgBudget _ _ _) => 1
  | _ => 0

/-- What a transaction at a stage holds, and what it waits for. -/
inductive WaitingAt (s : LedgerSystem pg) (t u : TxnId) : Nat → Prop where
  | lock {x} : s.db.own t = Own.empty → s.db.locks t = ∅ → x ∈ s.db.locks u → WaitingAt s t u 2
  | row {k} : s.db.own t = Own.empty → s.db.locks t = ∅ →
      s.db.own u .budgetReservation k ≠ none → WaitingAt s t u 2
  | gate {org} : s.db.own t = Own.empty → s.db.own u .orgBudget org ≠ none → WaitingAt s t u 1
  | book {org} : (∀ o, s.db.own t .orgBudget o = none) → s.db.locks t = ∅ →
      (∀ k, s.db.own t .budgetReservation k ≠ none →
        k.1 = org ∧ (Live s.db.committed k ∨ SettlingLate s k)) →
      s.db.committed .orgBudget org ≠ none → s.db.own u .orgBudget org ≠ none → WaitingAt s t u 1
  | reactivate {k} : (∀ k, s.db.own t .budgetReservation k = none) → Unheld s.db.committed k →
      (s.db.committed .orgBudget k.1 ≠ none → Reactivating s k) →
      s.db.own u .budgetReservation k ≠ none → WaitingAt s t u 0

private theorem eq_of_only {k k' : ReservationKey} {row : BudgetReservation}
    (h : only k row k' ≠ none) : k' = k := by
  by_contra hn
  exact h (only_ne k' hn)

private theorem mem_of_swept {σ : LedgerRows pg} {ks : Finset ReservationKey} {now : Timestamp}
    {k : ReservationKey} (h : swept σ ks now k ≠ none) : k ∈ ks := by
  by_contra hn
  simp [swept, hn] at h

/-- A transaction with a statement left has no cost row and only rows that are committed. -/
theorem At.exec_owns {σ : LedgerRows pg} {own : Own (schema pg)} {lk call now stmt next}
    (h : At σ own lk call now (.exec stmt next)) :
    (∀ k, own .costLedger k = none) ∧
      ∀ k, own .budgetReservation k ≠ none → σ .budgetReservation k ≠ none := by
  have none_held (k : ReservationKey)
      (hk : (nothing k : Option (Option BudgetReservation)) ≠ none) :
      σ .budgetReservation k ≠ none := absurd rfl hk
  have one_held {key : ReservationKey} {row row' : BudgetReservation}
      (hr : σ .budgetReservation key = some row) (k : ReservationKey)
      (hk : only key row' k ≠ none) : σ .budgetReservation k ≠ none := by
    rw [eq_of_only hk, hr]
    simp
  generalize hp : (Txn.exec stmt next : LedgerTxn pg) = p at h
  cases h with
  | reserve => exact ⟨fun _ => rfl, none_held⟩
  | reserveRead => exact ⟨fun _ => rfl, none_held⟩
  | reserveBudget => exact ⟨fun _ => rfl, none_held⟩
  | reserveGate => exact ⟨fun _ => rfl, none_held⟩
  | hold => exact ⟨fun _ => rfl, none_held⟩
  | settle => exact ⟨fun _ => rfl, none_held⟩
  | settleBook hr _ => exact ⟨fun _ => rfl, one_held hr⟩
  | settleMark hr _ => exact ⟨fun _ => rfl, one_held hr⟩
  | settleRecord hr _ _ => exact ⟨fun _ => rfl, one_held hr⟩
  | release => exact ⟨fun _ => rfl, none_held⟩
  | releaseReturn hr _ => exact ⟨fun _ => rfl, one_held hr⟩
  | releaseMark hr _ => exact ⟨fun _ => rfl, one_held hr⟩
  | reconcileExpired => exact ⟨fun _ => rfl, none_held⟩
  | reconcileReturn hk _ _ =>
    refine ⟨fun _ => rfl, fun k hs => ?_⟩
    obtain ⟨row, hr, _⟩ := hk k (mem_of_swept hs)
    simp [hr]
  | _ => cases hp

/-- Every wait for a transaction that has a statement left itself. -/
theorem waitingAt_of_waitsFor (h : (outline pg).Holds s) (hw : s.waitsFor t = some u)
    {v : TxnId} (hu : s.waitsFor u = some v) : WaitingAt s t u (stage (s.sessions t)) := by
  obtain ⟨call, now, stmt, next, hs, hne, hb⟩ := System.waitsFor_eq_some hw
  obtain ⟨call', now', stmt', next', hs', _, _⟩ := System.waitsFor_eq_some hu
  have hat : At s.db.committed (s.db.own t) (s.db.locks t) call now (.exec stmt next) := by
    have := h t
    rwa [hs] at this
  have hat' : At s.db.committed (s.db.own u) (s.db.locks u) call' now' (.exec stmt' next') := by
    have := h u
    rwa [hs'] at this
  obtain ⟨noCost, committedRow⟩ := hat'.exec_owns
  generalize hown : s.db.own t = own at hat
  generalize hlk : s.db.locks t = lk at hat
  generalize hp : (Txn.exec stmt next : LedgerTxn pg) = p at hat
  have staged (call : Call) (now : Timestamp) (stmt : Stmt (schema pg) LockKey)
      (next : stmt.Result → LedgerTxn pg) {n : Nat}
      (hs : s.sessions t = .running call now (.exec stmt next))
      (hn : stage (.running call now (.exec stmt next)) = n) (hwt : WaitingAt s t u n) :
      WaitingAt s t u (stage (s.sessions t)) := by
    rw [hs, hn]
    exact hwt
  -- a row that is marked is held already
  have marked {k : ReservationKey} {row : BudgetReservation} {b} (ho : s.db.own u .budgetReservation k ≠ none)
      (hown : s.db.own t = holding b (only k row) nothing) : False := by
    refine absurd (s.db.own_disjoint hne _ _ ?_) ho
    rw [hown]
    simp [holding, only]
  cases hat with
  | reserve =>
    cases hp
    cases hb with
    | lock hx => exact staged _ _ _ _ hs rfl (.lock (hown.trans empty_eq_holding.symm) hlk hx)
  | reserveRead => cases hp; cases hb
  | reserveBudget => cases hp; cases hb
  | reserveGate =>
    cases hp
    cases hb with
    | update _ ho => exact staged _ _ _ _ hs rfl (.gate (hown.trans empty_eq_holding.symm) ho)
  | @hold org cid e now existing hheld hx _ =>
    cases existing with
    | none =>
      cases hp
      cases hb with
      | insert hv ho =>
        refine absurd ?_ (committedRow _ ho)
        rw [Db.visible, hown] at hv
        exact hv
    | some row =>
      cases hp
      cases hb with
      | update _ ho =>
        refine staged _ _ _ _ hs rfl (.reactivate (fun k => ?_) hheld (fun hbud => ?_) ho)
        · rw [hown]; rfl
        · refine reactivating_iff.mpr ⟨t, e, now, _, _, hs, ?_⟩
          rw [hown]
          simpa [holding, booked] using hbud
  | settle =>
    cases hp
    cases hb with
    | selectForUpdate ho =>
      exact staged _ _ _ _ hs rfl (.row (hown.trans empty_eq_holding.symm) hlk ho)
  | @settleBook org cid d now row hr hst =>
    cases hp
    cases hb with
    | update hv ho =>
      rw [Db.visible, hown] at hv
      refine staged _ _ _ _ hs rfl (.book (fun o => by rw [hown]; rfl) hlk (fun k hk => ?_) hv ho)
      rw [hown] at hk
      obtain rfl := eq_of_only hk
      refine ⟨rfl, hst.imp (fun he => ⟨row, hr, he⟩) fun he => ?_⟩
      exact settlingLate_iff.mpr ⟨t, d, now, _, _, row, hs, hr, he, by rw [hown]; exact hk,
        by rw [hown]; rfl⟩
  | settleMark =>
    cases hp
    cases hb with
    | update _ ho => exact (marked ho hown).elim
  | settleRecord =>
    cases hp
    cases hb with
    | insertOnConflictDoNothing _ ho => exact absurd (noCost _) ho
  | release =>
    cases hp
    cases hb with
    | selectForUpdate ho =>
      exact staged _ _ _ _ hs rfl (.row (hown.trans empty_eq_holding.symm) hlk ho)
  | @releaseReturn org cid now row hr hst =>
    cases hp
    cases hb with
    | update hv ho =>
      rw [Db.visible, hown] at hv
      refine staged _ _ _ _ hs rfl (.book (fun o => by rw [hown]; rfl) hlk (fun k hk => ?_) hv ho)
      rw [hown] at hk
      obtain rfl := eq_of_only hk
      exact ⟨rfl, .inl ⟨row, hr, hst⟩⟩
  | releaseMark =>
    cases hp
    cases hb with
    | update _ ho => exact (marked ho hown).elim
  | reconcileExpired => cases hp; cases hb
  | @reconcileReturn org olderThan now ks reclaimed hks =>
    cases hp
    cases hb with
    | update hv ho =>
      rw [Db.visible, hown] at hv
      refine staged _ _ _ _ hs rfl (.book (fun o => by rw [hown]; rfl) hlk (fun k hk => ?_) hv ho)
      rw [hown] at hk
      obtain ⟨row, hr, hst⟩ := hks k (mem_of_swept hk)
      simp only [stale, decide_eq_true_eq] at hst
      exact ⟨hst.1, .inl ⟨row, hr, hst.2.1⟩⟩
  | _ => cases hp

/-- A transaction holds no budget row before it waits for the re-activation, and no reservation
row unless it waits to book. -/
theorem WaitingAt.holds_not {n : Nat} (h : WaitingAt s t u n) :
    (0 < n → ∀ o, s.db.own t .orgBudget o = none) ∧
      (n ≠ 1 → ∀ k, s.db.own t .budgetReservation k = none) := by
  cases h with
  | lock he _ _ =>
    rw [he]
    exact ⟨fun _ _ => rfl, fun _ _ => rfl⟩
  | row he _ _ =>
    rw [he]
    exact ⟨fun _ _ => rfl, fun _ _ => rfl⟩
  | gate he _ =>
    rw [he]
    exact ⟨fun _ _ => rfl, fun _ _ => rfl⟩
  | book hn _ _ _ _ => exact ⟨fun _ => hn, fun ne => absurd rfl ne⟩
  | reactivate hn _ _ _ => exact ⟨fun pos => absurd rfl pos.ne', fun _ => hn⟩

/-- Where no reservation is both re-activated and settled late, the waiting goes from the
advisory locks and the FOR UPDATE reads to the budget rows, and from there to the re-activation. -/
theorem not_deadlocked_of_uncrossed (h : (outline pg).Holds s)
    (hx : ∀ k, Reactivating s k → ¬ SettlingLate s k) : ¬ s.Deadlocked := by
  apply System.not_deadlocked_of_rank fun t => stage (s.sessions t)
  intro t u v w ht hu hv
  have first := waitingAt_of_waitsFor h ht hu
  have second := waitingAt_of_waitsFor h hu hv
  generalize stage (s.sessions t) = m at first
  generalize stage (s.sessions u) = n at second
  obtain ⟨noBudget, noRow⟩ := second.holds_not
  cases first with
  | lock _ _ hl =>
    cases second with
    | lock _ he _ => simp [he] at hl
    | row _ he _ => simp [he] at hl
    | gate => decide
    | book _ he _ _ _ => simp [he] at hl
    | reactivate => decide
  | row _ _ ho =>
    have : n = 1 := not_not.mp fun hn => ho (noRow hn _)
    omega
  | gate _ ho => exact Nat.lt_one_iff.mpr (Nat.eq_zero_of_not_pos fun hn => ho (noBudget hn _))
  | book _ _ _ _ ho => exact Nat.lt_one_iff.mpr (Nat.eq_zero_of_not_pos fun hn => ho (noBudget hn _))
  | @reactivate k _ hunheld hre ho =>
    obtain rfl : n = 1 := not_not.mp fun hn => ho (noRow hn _)
    cases second with
    | gate he _ => exact absurd (by rw [he]; rfl) ho
    | book _ _ hrows hb _ =>
      obtain ⟨rfl, ⟨r, hr, hl⟩ | late⟩ := hrows k ho
      · exact absurd hl (hunheld r hr)
      · exact absurd late (hx k (hre hb))

end Waiting

section Step
variable {s s' : LedgerSystem pg} {a : Action (schema pg) Call} {k : ReservationKey}

/-- Only its gate gives a reserve the budget row. -/
private theorem gate_of_takes {db db' : Db (schema pg) LockKey} {t seen org cid e now}
    {stmt : Stmt (schema pg) LockKey} {next} {r : stmt.Result}
    (h : At db.committed (db.own t) (db.locks t) (.reserve org cid e) now (.exec stmt next))
    (he : db.exec t seen stmt = .ok db' r) (hn : db.own t .orgBudget org = none)
    (hy : db'.own t .orgBudget org ≠ none) :
    (∃ o pred set, stmt = .update .orgBudget o pred set) ∧
      (db.committed .orgBudget org).any
        (fun b => covers e.amount b && (schema pg).check .orgBudget org (addHold e b)) = true := by
  have unmoved (ho : db'.own t .orgBudget org = db.own t .orgBudget org) : False :=
    hy (ho.trans hn)
  generalize hown : db.own t = own at h
  generalize hlk : db.locks t = lk at h
  generalize hcall : Call.reserve org cid e = call at h
  generalize hp : (Txn.exec stmt next : LedgerTxn pg) = p at h
  cases h with
  | reserve =>
    cases hp
    exact (unmoved (by rw [(Db.exec_lock he).1])).elim
  | reserveRead =>
    cases hp
    exact (unmoved (by rw [(Db.exec_select he).1])).elim
  | reserveBudget =>
    cases hp
    exact (unmoved (by rw [(Db.exec_select he).1])).elim
  | reserveGate =>
    cases hcall
    cases hp
    obtain ⟨_, ⟨_, hd, _⟩ | ⟨row, hv, hc, hk, _⟩⟩ := Db.exec_update he
    · exact (unmoved (by rw [hd])).elim
    · rw [hown] at hv
      replace hv : db.committed .orgBudget org = some row := hv
      refine ⟨⟨_, _, _, rfl⟩, ?_⟩
      rw [hv]
      exact Bool.and_eq_true_iff.mpr ⟨hc, hk⟩
  | @hold _ _ _ _ existing =>
    cases hcall
    cases existing with
    | none =>
      cases hp
      obtain ⟨_, _, _, ho⟩ := Db.exec_insert he
      exact (unmoved (by rw [ho, Own.put_of_ne _ _ _ (by simp)])).elim
    | some row =>
      cases hp
      obtain ⟨_, ⟨_, hd, _⟩ | ⟨row, _, _, _, _, ho⟩⟩ := Db.exec_update he
      · exact (unmoved (by rw [hd])).elim
      · exact (unmoved (by rw [ho, Own.put_of_ne _ _ _ (by simp)])).elim
  | rolledBack => cases hp
  | replayed => cases hp
  | held => cases hp
  | _ => cases hcall

/-- Only its FOR UPDATE read gives a settlement the reservation row, and it goes on with an
expired row only in the row's currency. -/
private theorem locks_of_takes {db db' : Db (schema pg) LockKey} {t seen org cid d now}
    {stmt stmt' : Stmt (schema pg) LockKey} {next next'} {r : stmt.Result} {row : BudgetReservation}
    (h : At db.committed (db.own t) (db.locks t) (.settle org cid d) now (.exec stmt next))
    (he : db.exec t seen stmt = .ok db' r) (hn : db.own t .budgetReservation (org, cid) = none)
    (hrow : db.committed .budgetReservation (org, cid) = some row) (hst : row.status = .expired)
    (hnext : next r = .exec stmt' next') :
    (∃ tb k, stmt = .selectForUpdate tb k) ∧ row.currency = d.totalCost.currency := by
  generalize hown : db.own t = own at h
  generalize hlk : db.locks t = lk at h
  generalize hcall : Call.settle org cid d = call at h
  generalize hp : (Txn.exec stmt next : LedgerTxn pg) = p at h
  cases h with
  | settle =>
    cases hcall
    cases hp
    refine ⟨⟨_, _, rfl⟩, ?_⟩
    obtain ⟨hr, _⟩ := Db.exec_selectForUpdate he
    rw [hown] at hr
    replace hr : r = some row := hr.trans hrow
    subst hr
    by_contra hc
    simp [hst, Ne.symm hc] at hnext
  | settleBook =>
    cases hcall
    simp [hown, holding, only] at hn
  | settleMark =>
    cases hcall
    simp [hown, holding, only] at hn
  | settleRecord =>
    cases hcall
    simp [hown, holding, only] at hn
  | rolledBack => cases hp
  | alreadySettled => cases hp
  | settled => cases hp
  | _ => cases hcall

theorem reactivating_before (h : (outline pg).Holds s) (hs : s.step (ledger pg) a = some s')
    (hr : Reactivating s' k) :
    Reactivating s k ∨ ∃ t seen, a = .exec t seen ∧ passesGate s t = some k := by
  obtain ⟨t, e, now, stmt, next, hrun, ho⟩ := reactivating_iff.mp hr
  have ht := h t
  rcases System.exec_before hs hrun with
    ⟨hrun, hown⟩ | ⟨hidle, hown⟩ | ⟨seen, stmt₀, next₀, r, rfl, hrun₀, he, _⟩
  · exact .inl (reactivating_iff.mpr ⟨t, e, now, stmt, next, hrun, by rwa [← hown]⟩)
  · simp only [hidle] at ht
    rw [hown, ht.1] at ho
    exact absurd rfl ho
  · by_cases hb : s.db.own t .orgBudget k.1 = none
    · simp only [hrun₀] at ht
      obtain ⟨⟨o, pred, set, rfl⟩, hc⟩ := gate_of_takes ht he hb ho
      refine .inr ⟨t, seen, rfl, ?_⟩
      unfold passesGate
      rw [hrun₀]
      exact if_pos hc
    · exact .inl (reactivating_iff.mpr ⟨t, e, now, stmt₀, next₀, hrun₀, hb⟩)

theorem settlingLate_before (h : (outline pg).Holds s) (hs : s.step (ledger pg) a = some s')
    (hl : SettlingLate s' k) :
    SettlingLate s k ∨ ∃ t seen, a = .exec t seen ∧ locksExpired s t = some k := by
  obtain ⟨t, d, now, stmt, next, row, hrun, hrow, hst, ho, hb⟩ := settlingLate_iff.mp hl
  have ht := h t
  rw [System.committed_kept hs ho] at hrow
  rcases System.exec_before hs hrun with
    ⟨hrun, hown⟩ | ⟨hidle, hown⟩ | ⟨seen, stmt₀, next₀, r, rfl, hrun₀, he, hnext⟩
  · rw [hown] at ho hb
    exact .inl (settlingLate_iff.mpr ⟨t, d, now, stmt, next, row, hrun, hrow, hst, ho, hb⟩)
  · simp only [hidle] at ht
    rw [hown, ht.1] at ho
    exact absurd rfl ho
  · simp only [hrun₀] at ht
    by_cases hn : s.db.own t .budgetReservation k = none
    · obtain ⟨⟨tb, k', rfl⟩, hc⟩ := locks_of_takes ht he hn hrow hst hnext
      exact .inr ⟨t, seen, rfl, by simp [locksExpired, pending, hrun₀, hrow, hst, hc]⟩
    · refine .inl (settlingLate_iff.mpr ⟨t, d, now, stmt₀, next₀, row, hrun₀, hrow, hst, hn, ?_⟩)
      by_contra hb'
      exact Db.own_kept he hb' hb

/-- The step: no reservation is re-activated and settled late at once. -/
theorem uncrossed_step (h : (outline pg).Holds s) (hs : s.step (ledger pg) a = some s')
    (hc : KeepsOrder s a) (hx : ∀ k, Reactivating s k → ¬ SettlingLate s k) :
    ∀ k, Reactivating s' k → ¬ SettlingLate s' k := by
  intro k hr hl
  rcases reactivating_before h hs hr with hr | ⟨t, seen, rfl, hg⟩
  · rcases settlingLate_before h hs hl with hl | ⟨t, seen, rfl, hg⟩
    · exact hx k hr hl
    · exact hc.2 k hg hr
  · rcases settlingLate_before h hs hl with hl | ⟨u, seen', ha, hg'⟩
    · exact hc.1 k hg hl
    · obtain ⟨rfl, _⟩ := Action.exec.inj ha
      unfold passesGate at hg
      split at hg
      · rename_i hp
        simp [locksExpired, hp] at hg'
      · cases hg

end Step

/-- In every run in which no reserve passes its gate while a late settlement of its reservation
waits to book, and none is overtaken by one before its `_hold`, the waiting has no cycle. -/
theorem lock_order_acyclic_of_keeps_order (T : Tables (schema pg)) (now : Timestamp)
    (schedule : List (Action (schema pg) Call)) (s : LedgerSystem pg)
    (hc : (System.start T now).Along (ledger pg) KeepsOrder schedule)
    (hs : (System.start T now).run (ledger pg) schedule = some s) : ¬ s.Deadlocked := by
  obtain ⟨holds, uncrossed⟩ := (outline pg).along_rule KeepsOrder
    (fun s => ∀ k, Reactivating s k → ¬ SettlingLate s k)
    (fun h hc hs hx => uncrossed_step h hs hc hx) ((outline pg).start_holds T now)
    (fun k hr => by
      obtain ⟨h, hh, _⟩ := hr
      cases hh) hc hs
  exact not_deadlocked_of_uncrossed holds uncrossed

/-- A reserve and a late settlement of one expired reservation: each holds the row the other
needs next. -/
def crossedOrders : List (Action (schema contended) Call) :=
  .begin 0 (.reserve 1 "x" ⟨10, "USD"⟩) :: System.statements 0 6 ++
    .tick 10 :: .begin 1 (.reconcileExpired 1 5) :: System.statements 1 3 ++
    .begin 2 (.reserve 1 "x" ⟨10, "USD"⟩) :: System.statements 2 3 ++
    .begin 3 (.settle 1 "x" ⟨"p", "m", 1, 1, ⟨2, "USD"⟩, ⟨2, "USD"⟩, ⟨4, "USD"⟩⟩) ::
    System.statements 3 1 ++ System.statements 2 1

/-- The reserve waits for the settlement and the settlement for the reserve. -/
theorem crossed_orders_deadlock :
    ¬ ∀ s, (System.start (configured contended 1 ⟨100, "USD", 0, 0⟩) 0).run (ledger contended)
      crossedOrders = some s → ¬ s.Deadlocked := by
  intro h
  have facts : ((System.start (configured contended 1 ⟨100, "USD", 0, 0⟩) 0).run (ledger contended)
      crossedOrders).map (fun s => (s.waitsFor 2, s.waitsFor 3)) = some (some 3, some 2) := by
    decide +kernel
  obtain ⟨s, hs, hw⟩ := Option.map_eq_some_iff.mp facts
  obtain ⟨h2, h3⟩ := Prod.mk.inj hw
  exact h s hs ⟨2, Relation.TransGen.tail (.single h2) h3⟩

/-- The same calls with the late settlement committed before the gate. -/
def settledFirst : List (Action (schema contended) Call) :=
  .begin 0 (.reserve 1 "x" ⟨10, "USD"⟩) :: System.statements 0 6 ++
    .tick 10 :: .begin 1 (.reconcileExpired 1 5) :: System.statements 1 3 ++
    .begin 2 (.reserve 1 "x" ⟨10, "USD"⟩) :: System.statements 2 3 ++
    .begin 3 (.settle 1 "x" ⟨"p", "m", 1, 1, ⟨2, "USD"⟩, ⟨2, "USD"⟩, ⟨4, "USD"⟩⟩) ::
    System.statements 3 4 ++ .begin 4 (.release 1 "x") :: System.statements 3 1 ++
    System.statements 2 1

theorem lock_order_acyclic_settled_first :
    ∃ s, (System.start (configured contended 1 ⟨100, "USD", 0, 0⟩) 0).run (ledger contended)
      settledFirst = some s ∧ ¬ s.Deadlocked := by
  have runs : Option.isSome ((System.start (configured contended 1 ⟨100, "USD", 0, 0⟩) 0).run
      (ledger contended) settledFirst) = true := by decide +kernel
  have meets : (System.start (configured contended 1 ⟨100, "USD", 0, 0⟩) 0).Along
      (ledger contended) KeepsOrder settledFirst := by decide +kernel
  obtain ⟨s, hs⟩ := Option.isSome_iff_exists.mp runs
  exact ⟨s, hs, lock_order_acyclic_of_keeps_order _ _ _ s meets hs⟩

end LlmGateway.Ledger.Sql
