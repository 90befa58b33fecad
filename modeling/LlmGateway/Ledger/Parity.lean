import LlmGateway.Ledger.MirrorSweep

/-! The two ledgers side by side: `InMemoryBudgetLedger` answers a whole sequential history as
`SqlBudgetLedger` does exactly when each call meets its condition. -/
namespace LlmGateway.Ledger.Sql
open Lib.ReadCommitted InMemory
variable {pg : Postgres}

/-- A history: each call with the clock reading it is served at. -/
abbrev CallHistory := List (Timestamp × Call)

/-- Same result for every call, and the same totals of every budgeted organization after it. -/
def Parity (T : Tables (schema pg)) (m : InMemoryBudgetLedger) : CallHistory → Prop
  | [] => True
  | (now, call) :: rest =>
    let sql := (ledger pg).serve T now call
    let mem := m.perform now call
    sql.2 = mem.2 ∧
      (∀ org b, sql.1.rows .orgBudget org = some b →
        (mem.1.orgs org).reserved = b.reserved ∧ (mem.1.orgs org).spent = b.spent) ∧
      Parity sql.1 mem.1 rest

/-- Every call of the history meets the three conditions in the states it finds. -/
def Comparable (T : Tables (schema pg)) (m : InMemoryBudgetLedger) : CallHistory → Prop
  | [] => True
  | (now, call) :: rest =>
    (Storable T now call ∧ Unreleased T call ∧ SameAge T m call) ∧
      Comparable ((ledger pg).serve T now call).1 (m.perform now call).1 rest

section Step
variable {cur : String} {T : Tables (schema pg)} {m : InMemoryBudgetLedger} {now : Timestamp}
  {call : Call}

/-- The step: under its condition a call is answered alike and leaves mirrors. -/
theorem Mirrors.step (h : Mirrors cur T.rows m) (hc : InCurrency cur call)
    (hs : Storable T now call) (hu : Unreleased T call) (ha : SameAge T m call) :
    ((ledger pg).serve T now call).2 = (m.perform now call).2 ∧
      Mirrors cur ((ledger pg).serve T now call).1.rows (m.perform now call).1 := by
  obtain ⟨hrows, hans⟩ := serve_eq_alone T now call
  rw [hrows, hans]
  cases call with
  | reserve org cid e =>
    rcases reserve_step h hc with ⟨_, hok⟩ | ⟨hn, _⟩
    · exact hok
    · exact absurd hs hn
  | settle org cid d =>
    rcases settle_step h hc with ⟨_, hok⟩ | ⟨hn, _⟩
    · exact hok
    · exact absurd ⟨hs, hu⟩ hn
  | release org cid =>
    rcases release_step h with ⟨_, hok⟩ | ⟨hn, _⟩
    · exact hok
    · exact absurd hs hn
  | reconcileExpired org olderThan => exact reconcile_step h hs ha

/-- SQL dates each reservation no later than the in-memory ledger, and neither after `clock`. -/
def DatedBy (clock : Timestamp) (σ : LedgerRows pg) (m : InMemoryBudgetLedger) : Prop :=
  ∀ org cid r, σ .budgetReservation (org, cid) = some r → r.createdAt ≤ clock ∧
    ∀ r', (m.orgs org).reservations.get cid = some r' → r.createdAt ≤ r'.createdAt

/-- The step, backwards: a call that is answered alike met its condition. -/
theorem Mirrors.condition_of_answer {clock : Timestamp} (h : Mirrors cur T.rows m)
    (hc : InCurrency cur call) (hd : DatedBy clock T.rows m)
    (he : ((ledger pg).serve T now call).2 = (m.perform now call).2) :
    Storable T now call ∧ Unreleased T call ∧ SameAge T m call := by
  rw [(serve_eq_alone T now call).2] at he
  cases call with
  | reserve org cid e =>
    rcases reserve_step h hc with ⟨hs, _⟩ | ⟨_, hn⟩
    · exact ⟨hs, trivial, trivial⟩
    · exact absurd he hn
  | settle org cid d =>
    rcases settle_step h hc with ⟨hs, _⟩ | ⟨_, hn⟩
    · exact ⟨hs.1, hs.2, trivial⟩
    · exact absurd he hn
  | release org cid =>
    rcases release_step h with ⟨hs, _⟩ | ⟨_, hn⟩
    · exact ⟨hs, trivial, trivial⟩
    · exact absurd he hn
  | reconcileExpired org olderThan =>
    obtain ⟨hs, ha⟩ := sameAge_of_answer h (fun cid r r' hr hg => (hd org cid r hr).2 r' hg) he
    exact ⟨hs, trivial, ha⟩

/-- A row keeps the date it had, or it was absent and is dated now. -/
private def KeepsDate (T : Tables (schema pg)) (now : Timestamp) (k : ReservationKey)
    (r : BudgetReservation) : Prop :=
  (∃ r₀, T.rows .budgetReservation k = some r₀ ∧ r₀.createdAt = r.createdAt) ∨
    T.rows .budgetReservation k = none ∧ r.createdAt = now

private theorem keepsDate_write {row r : BudgetReservation}
    {b : OrgId → Option (Option OrgBudget)} {c : ReservationKey → Option (Option CostLedger)}
    {key k : ReservationKey} (hrow : KeepsDate T now key row)
    (h : (holding b (only key row) c : Own (schema pg)).install T.rows .budgetReservation k = some r) :
    KeepsDate T now k r := by
  rw [install_budgetReservation, only_install] at h
  split at h
  · rename_i hk
    cases h
    rw [hk]
    exact hrow
  · exact .inl ⟨r, h, rfl⟩

private theorem keepsDate_held (k : ReservationKey) (e : Money) :
    KeepsDate T now k (heldRow T.rows k e now) := by
  unfold KeepsDate heldRow
  cases hr : T.rows .budgetReservation k with
  | none => exact .inr ⟨rfl, rfl⟩
  | some r => exact .inl ⟨r, rfl, rfl⟩

/-- SQL dates a row when it is inserted and never again. -/
private theorem sql_dates {k : ReservationKey} {r : BudgetReservation}
    (h : (alone T now call).1 .budgetReservation k = some r) : KeepsDate T now k r := by
  have same (h : T.rows .budgetReservation k = some r) : KeepsDate T now k r := .inl ⟨r, h, rfl⟩
  cases call with
  | reserve org cid e =>
    have held (h : (holdAlone T now org cid e).1 .budgetReservation k = some r) :
        KeepsDate T now k r := by
      unfold holdAlone at h
      dsimp only at h
      split at h
      · exact keepsDate_write (keepsDate_held _ e) h
      · exact same h
    have fresh (h : (budgetAlone T now org cid e).1 .budgetReservation k = some r) :
        KeepsDate T now k r := by
      unfold budgetAlone at h
      split at h
      · exact held h
      · split_ifs at h
        · exact same h
        · exact same h
        · exact held h
        · exact same h
    simp only [alone, reserveAlone] at h
    split at h
    · exact fresh h
    · split_ifs at h
      · exact fresh h
      · exact same h
  | settle org cid d =>
    simp only [alone, settleAlone] at h
    split at h
    · exact same h
    · rename_i row hrow
      split_ifs at h
      · exact same h
      · exact same h
      · exact same h
      · refine keepsDate_write ?_ h
        exact .inl ⟨row, hrow, rfl⟩
      · exact same h
  | release org cid =>
    simp only [alone, releaseAlone] at h
    split at h
    · exact same h
    · rename_i row hrow
      split_ifs at h
      · exact same h
      · refine keepsDate_write ?_ h
        exact .inl ⟨row, hrow, rfl⟩
      · exact same h
  | reconcileExpired org olderThan =>
    simp only [alone, reconcileAlone] at h
    split_ifs at h
    · exact same h
    · dsimp only at h
      rw [install_budgetReservation, swept_install] at h
      split at h
      · obtain ⟨r₀, hr₀, rfl⟩ := Option.map_eq_some_iff.mp h
        exact .inl ⟨r₀, hr₀, rfl⟩
      · exact same h
    · exact same h
    · exact same h

/-- A reservation of one organization's ledger keeps the date it had, or is dated now. -/
private theorem ledger_dates {l : OrgLedger} {org : OrgId} {cid : CorrelationId} {r : Reservation}
    (h : (l.perform now org call).1.reservations.get cid = some r) :
    (∃ r₀, l.reservations.get cid = some r₀ ∧ r₀.createdAt = r.createdAt) ∨ r.createdAt = now := by
  have same (h : l.reservations.get cid = some r) :
      (∃ r₀, l.reservations.get cid = some r₀ ∧ r₀.createdAt = r.createdAt) ∨ r.createdAt = now :=
    .inl ⟨r, h, rfl⟩
  have write {cid' : CorrelationId} {res : Reservation}
      (hres : (∃ r₀, l.reservations.get cid' = some r₀ ∧ r₀.createdAt = res.createdAt) ∨
        res.createdAt = now) (h : (l.reservations.set cid' res).get cid = some r) :
      (∃ r₀, l.reservations.get cid = some r₀ ∧ r₀.createdAt = r.createdAt) ∨ r.createdAt = now := by
    rw [Lib.Dict.get_set] at h
    split at h
    · rename_i hk
      cases h
      rwa [hk]
    · exact same h
  cases call with
  | reserve _ cid' e =>
    have fresh (h : (l.reserveFresh now org cid' e).1.reservations.get cid = some r) :
        (∃ r₀, l.reservations.get cid = some r₀ ∧ r₀.createdAt = r.createdAt) ∨
          r.createdAt = now := by
      unfold OrgLedger.reserveFresh at h
      split at h
      · exact write (.inr rfl) h
      · dsimp only at h
        split_ifs at h
        · exact same h
        · exact write (.inr rfl) h
    simp only [OrgLedger.perform, OrgLedger.reserve] at h
    split at h
    · exact fresh h
    · split_ifs at h
      · exact fresh h
      · exact same h
  | settle _ cid' d =>
    simp only [OrgLedger.perform, OrgLedger.settle] at h
    split at h
    · exact same h
    · rename_i res hres
      split at h
      · exact same h
      · refine write ?_ h
        exact .inl ⟨res, hres, rfl⟩
  | release _ cid' =>
    simp only [OrgLedger.perform, OrgLedger.release] at h
    split at h
    · exact same h
    · rename_i res hres
      split_ifs at h
      · exact same h
      · refine write ?_ h
        exact .inl ⟨res, hres, rfl⟩
  | reconcileExpired _ olderThan =>
    simp only [OrgLedger.perform, OrgLedger.reconcileExpired, Lib.Dict.get_modify] at h
    split at h
    · obtain ⟨r₀, hr₀, rfl⟩ := Option.map_eq_some_iff.mp h
      exact .inl ⟨r₀, hr₀, rfl⟩
    · exact same h

/-- The in-memory ledger dates a reservation whenever its hold is taken. -/
private theorem mem_dates {org : OrgId} {cid : CorrelationId} {r : Reservation}
    (h : ((m.perform now call).1.orgs org).reservations.get cid = some r) :
    (∃ r₀, (m.orgs org).reservations.get cid = some r₀ ∧ r₀.createdAt = r.createdAt) ∨
      r.createdAt = now := by
  unfold InMemoryBudgetLedger.perform at h
  split at h
  · exact .inl ⟨r, h, rfl⟩
  · by_cases ho : org = call.organizationId
    · subst ho
      simp only [Function.update_self] at h
      exact ledger_dates h
    · simp only [Function.update_of_ne ho] at h
      exact .inl ⟨r, h, rfl⟩

private theorem DatedBy.step {clock : Timestamp} (hm : Mirrors cur T.rows m)
    (h : DatedBy clock T.rows m) (hn : clock ≤ now) :
    DatedBy now ((ledger pg).serve T now call).1.rows (m.perform now call).1 := by
  intro org cid r hr
  rw [(serve_eq_alone T now call).1] at hr
  rcases sql_dates hr with ⟨r₀, hr₀, hdate⟩ | ⟨hnone, hdate⟩
  · obtain ⟨hle, hmem⟩ := h org cid r₀ hr₀
    rw [← hdate]
    refine ⟨hle.trans hn, fun r' hg => ?_⟩
    rcases mem_dates hg with ⟨r₀', hg₀, hdate'⟩ | hdate'
    · rw [← hdate']
      exact hmem r₀' hg₀
    · rw [hdate']
      exact hle.trans hn
  · rw [hdate]
    refine ⟨le_rfl, fun r' hg => ?_⟩
    rcases mem_dates hg with ⟨r₀', hg₀, _⟩ | hdate'
    · rw [hm.get_none hnone] at hg₀
      cases hg₀
    · rw [hdate']

end Step

/-- The run, forwards: comparable histories are answered alike. -/
theorem parity_of_comparable {cur : String} {history : CallHistory} {T : Tables (schema pg)}
    {m : InMemoryBudgetLedger} (h : Mirrors cur T.rows m)
    (hc : ∀ p ∈ history, InCurrency cur p.2) (hok : Comparable T m history) :
    Parity T m history := by
  induction history generalizing T m with
  | nil => trivial
  | cons p rest ih =>
    obtain ⟨now, call⟩ := p
    obtain ⟨⟨hs, hu, ha⟩, hrest⟩ := hok
    obtain ⟨hans, hm⟩ := h.step (hc _ List.mem_cons_self) hs hu ha
    refine ⟨hans, fun org b hb => ?_, ih hm (fun p hp => hc p (List.mem_cons_of_mem _ hp)) hrest⟩
    obtain ⟨hres, hsp, _⟩ := hm.totals org b hb
    exact ⟨hres, hsp⟩

/-- The run, backwards, on a clock that does not go back. -/
theorem comparable_of_parity {cur : String} {history : CallHistory} {T : Tables (schema pg)}
    {m : InMemoryBudgetLedger} {clock : Timestamp} (h : Mirrors cur T.rows m)
    (hd : DatedBy clock T.rows m) (hc : ∀ p ∈ history, InCurrency cur p.2)
    (hsort : (clock :: history.map Prod.fst).Pairwise (· ≤ ·)) (hp : Parity T m history) :
    Comparable T m history := by
  induction history generalizing T m clock with
  | nil => trivial
  | cons p rest ih =>
    obtain ⟨now, call⟩ := p
    obtain ⟨hans, _, hrest⟩ := hp
    have hcur := hc _ List.mem_cons_self
    obtain ⟨hs, hu, ha⟩ := h.condition_of_answer hcur hd hans
    obtain ⟨_, hm⟩ := h.step hcur hs hu ha
    rw [List.map_cons, List.pairwise_cons] at hsort
    exact ⟨⟨hs, hu, ha⟩, ih hm (hd.step h (hsort.1 now List.mem_cons_self))
      (fun p hp => hc p (List.mem_cons_of_mem _ hp)) hsort.2 hrest⟩

/-- The in-memory ledger constructed with the limits the tables configure. -/
def inMemoryTwin (T : Tables (schema pg)) : InMemoryBudgetLedger :=
  create (fun org => (T.rows .orgBudget org).map fun b => ⟨b.amountLimit, b.currency⟩) false

/-- From the same configured budgets, in one currency: a history whose every call meets its
condition is answered alike, and on a clock that does not go back no other history is. -/
theorem parity_iff_comparable (T : Tables (schema pg)) (cur : String)
    (hb : ∀ org b, T.rows .orgBudget org = some b →
      b.reserved = 0 ∧ b.spent = 0 ∧ b.currency = cur)
    (hr : ∀ k, T.rows .budgetReservation k = none) (history : CallHistory)
    (hc : ∀ p ∈ history, InCurrency cur p.2) :
    (Comparable T (inMemoryTwin T) history → Parity T (inMemoryTwin T) history) ∧
      ((history.map Prod.fst).Pairwise (· ≤ ·) →
        (Parity T (inMemoryTwin T) history ↔ Comparable T (inMemoryTwin T) history)) := by
  have mirrors : Mirrors cur T.rows (inMemoryTwin T) := by
    refine ⟨rfl, fun _ => rfl, fun org b h => ?_, fun org cid => by rw [hr]; rfl,
      fun k r h => by rw [hr] at h; cases h⟩
    obtain ⟨hres, hsp, hcur⟩ := hb org b h
    exact ⟨hres.symm, hsp.symm, hcur⟩
  refine ⟨parity_of_comparable mirrors hc, fun hsort => ⟨fun hp => ?_, parity_of_comparable mirrors hc⟩⟩
  cases history with
  | nil => trivial
  | cons p rest =>
    have dated : DatedBy p.1 T.rows (inMemoryTwin T) := fun org cid r h => by
      rw [hr] at h; cases h
    refine comparable_of_parity mirrors dated hc (List.pairwise_cons.mpr ⟨?_, hsort⟩) hp
    intro t ht
    rcases List.mem_cons.mp ht with rfl | ht
    · exact le_rfl
    · exact (List.pairwise_cons.mp hsort).1 t ht

/-- A hold, and a second one that no longer fits the budget. -/
theorem parity_iff_comparable_hold_then_exceeded :
    Parity (configured contended 1 ⟨100, "USD", 0, 0⟩)
      (inMemoryTwin (configured contended 1 ⟨100, "USD", 0, 0⟩))
      [(0, .reserve 1 "x" ⟨10, "USD"⟩), (1, .reserve 1 "y" ⟨95, "USD"⟩)] := by
  have budget (org : OrgId) (b : OrgBudget)
      (h : (configured contended 1 ⟨100, "USD", 0, 0⟩).rows .orgBudget org = some b) :
      org = 1 ∧ b = ⟨100, "USD", 0, 0⟩ := by
    simp only [configured] at h
    split at h
    · rename_i ho
      exact ⟨ho, (Option.some.inj h).symm⟩
    · cases h
  refine (parity_iff_comparable _ "USD" (fun org b h => ?_) (fun _ => rfl) _ ?_).1
    ⟨⟨fun _ _ => ⟨fun b hb => ?_, by decide +kernel⟩, trivial, trivial⟩,
      ⟨fun _ hcov => absurd (hcov ⟨100, "USD", 10, 0⟩ (by decide +kernel)) (by decide),
        trivial, trivial⟩, trivial⟩
  · obtain ⟨_, rfl⟩ := budget org b h
    exact ⟨rfl, rfl, rfl⟩
  · intro p hp
    simp only [List.mem_cons, List.not_mem_nil, or_false] at hp
    rcases hp with rfl | rfl <;> rfl
  · obtain ⟨_, rfl⟩ := budget 1 b hb
    decide +kernel

/-- A released reservation is settled: SQL refuses, the in-memory ledger books the spend. -/
theorem parity_fails_on_settle_after_release :
    ¬ Parity (configured contended 1 ⟨100, "USD", 0, 0⟩)
      (inMemoryTwin (configured contended 1 ⟨100, "USD", 0, 0⟩))
      [(0, .reserve 1 "x" ⟨10, "USD"⟩), (1, .release 1 "x"),
        (2, .settle 1 "x" ⟨"p", "m", 1, 1, ⟨2, "USD"⟩, ⟨2, "USD"⟩, ⟨4, "USD"⟩⟩)] := by
  intro h
  exact absurd h.2.2.2.2.1 (by decide +kernel)

end LlmGateway.Ledger.Sql
