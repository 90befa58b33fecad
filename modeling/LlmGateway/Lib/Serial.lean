import LlmGateway.Lib.LockFrames

/-! Transactions run one at a time, each on a database where no other is open. -/
namespace LlmGateway.Lib.ReadCommitted
variable {S : Schema} {L α ι : Type}

/-- Run a transaction to its end. A statement that fails ends it, rolled back, with the
answer `unavailable`; so would one that waits, which never happens alone. -/
def Txn.alone [DecidableEq L] (unavailable : α) (t : TxnId) (db : Db S L) :
    Txn S L α → Db S L × α
  | .commit a => (db.commit t, a)
  | .rollback a => (db.rollback t, a)
  | .exec s next =>
    match db.exec t (fun _ _ => true) s with
    | .ok db' r => (next r).alone unavailable t db'
    | .failed => (db.rollback t, unavailable)
    | .blocked => (db.rollback t, unavailable)

/-- One call, served alone at the given clock reading. -/
def Service.serve [DecidableEq L] (sv : Service S L ι α) (T : Tables S) (now : Int) (call : ι) :
    Tables S × α :=
  let (db, a) := (sv.program call now).alone sv.unavailable 0 (Db.quiescent T)
  (db.tables, a)

/-- Transaction `t` is the only one open: it sees `own` over `σ` and never waits. -/
structure Db.Alone (db : Db S L) (t : TxnId) (σ : Rows S) (own : Own S) : Prop where
  committed : db.committed = σ
  own : db.own t = own
  solo : ∀ tb k, db.lockedByOther t tb k = false

namespace Db.Alone
variable {db : Db S L} {t : TxnId} {σ : Rows S} {own : Own S}

theorem quiescent (T : Tables S) : (Db.quiescent T : Db S L).Alone t T.rows Own.empty :=
  ⟨rfl, rfl, fun _ _ => rfl⟩

theorem lock [DecidableEq L] (h : db.Alone t σ own) (x : L) : (db.lock t x).Alone t σ own :=
  ⟨h.committed, h.own, h.solo⟩

theorem hold (h : db.Alone t σ own) (tb : S.Table) (ks : Finset (S.Key tb))
    (v : S.Key tb → Option (S.Row tb)) : (db.hold t tb ks v).Alone t σ (own.put tb ks v) := by
  refine ⟨h.committed, by rw [own_hold_self, h.own], fun tb' k => ?_⟩
  by_cases ht : tb' = tb
  · subst ht
    by_cases hk : k ∈ ks
    · simp [lockedByOther, Db.hold, hk]
    · simpa [lockedByOther, Db.hold, hk] using h.solo tb' k
  · simpa [lockedByOther, Db.hold, ht] using h.solo tb' k

theorem visible (h : db.Alone t σ own) : db.visible t = own.install σ := by
  rw [Db.visible, h.own, h.committed]

theorem commit_rows (h : db.Alone t σ own) : (db.commit t).tables.rows = own.install σ := h.visible

theorem rollback_rows (h : db.Alone t σ own) : (db.rollback t).tables.rows = σ := h.committed

end Db.Alone

section Statements
variable [DecidableEq L] {u : α} {t : TxnId} {db : Db S L} {σ : Rows S} {own : Own S}
  (h : db.Alone t σ own)
include h

theorem alone_select {tb : S.Table} {k : S.Key tb} {next : Option (S.Row tb) → Txn S L α} :
    (Txn.exec (.select tb k) next).alone u t db = (next (own.install σ tb k)).alone u t db := by
  rw [← h.visible]
  rfl

theorem alone_selectForUpdate {tb : S.Table} {k : S.Key tb}
    {next : Option (S.Row tb) → Txn S L α} :
    (Txn.exec (.selectForUpdate tb k) next).alone u t db =
      match own.install σ tb k with
      | none => (next none).alone u t db
      | some r => (next (some r)).alone u t (db.hold t tb {k} fun _ => some r) := by
  rw [← h.visible]
  cases hv : db.visible t tb k <;> simp [Txn.alone, Db.exec, hv, h.solo]

theorem alone_update {tb : S.Table} {k : S.Key tb} {pred : S.Row tb → Bool}
    {set : S.Row tb → S.Row tb} {next : Option (S.Row tb) → Txn S L α} :
    (Txn.exec (.update tb k pred set) next).alone u t db =
      match own.install σ tb k with
      | none => (next none).alone u t db
      | some r =>
        if pred r = false then (next none).alone u t db
        else if S.check tb k (set r) then
          (next (some (set r))).alone u t (db.hold t tb {k} fun _ => some (set r))
        else (db.rollback t, u) := by
  rw [← h.visible]
  cases hv : db.visible t tb k with
  | none => simp [Txn.alone, Db.exec, hv]
  | some r =>
    cases hp : pred r <;> cases hc : S.check tb k (set r) <;>
      simp [Txn.alone, Db.exec, hv, h.solo, hp, hc]

theorem alone_insert {tb : S.Table} {k : S.Key tb} {row : S.Row tb} {next : Unit → Txn S L α}
    (hv : own.install σ tb k = none) :
    (Txn.exec (.insert tb k row) next).alone u t db =
      if S.check tb k row then (next ()).alone u t (db.hold t tb {k} fun _ => some row)
      else (db.rollback t, u) := by
  rw [← h.visible] at hv
  cases hc : S.check tb k row with
  | true => simp [Txn.alone, Db.exec, hv, h.solo, hc, Schema.valid_of_check hc]
  | false => cases hw : S.valid tb row <;> simp [Txn.alone, Db.exec, hv, h.solo, hc, hw]

theorem alone_insertOnConflictDoNothing {tb : S.Table} {k : S.Key tb} {row : S.Row tb}
    {next : Unit → Txn S L α} :
    (Txn.exec (.insertOnConflictDoNothing tb k row) next).alone u t db =
      match own.install σ tb k with
      | some _ => if S.valid tb row then (next ()).alone u t db else (db.rollback t, u)
      | none =>
        if S.check tb k row then (next ()).alone u t (db.hold t tb {k} fun _ => some row)
        else (db.rollback t, u) := by
  rw [← h.visible]
  cases hv : db.visible t tb k with
  | none =>
    cases hc : S.check tb k row with
    | true => simp [Txn.alone, Db.exec, hv, h.solo, hc, Schema.valid_of_check hc]
    | false => cases hw : S.valid tb row <;> simp [Txn.alone, Db.exec, hv, h.solo, hc, hw]
  | some r => cases hw : S.valid tb row <;> simp [Txn.alone, Db.exec, hv, hw]

/-- A sweep meets every row: none is locked by another. -/
theorem alone_updateSkipLocked {tb : S.Table} {pred : S.Key tb → S.Row tb → Bool}
    {set : S.Row tb → S.Row tb} {next : Multiset (S.Row tb) → Txn S L α} :
    (Txn.exec (.updateSkipLocked tb pred set) next).alone u t db =
      let ks := (db.keys tb).filter fun k => (own.install σ tb k).any (pred k)
      if ∀ k ∈ ks, (own.install σ tb k).all fun r => S.check tb k (set r) then
        (next (ks.val.filterMap fun k => (own.install σ tb k).map set)).alone u t
          (db.hold t tb ks fun k => (own.install σ tb k).map set)
      else (db.rollback t, u) := by
  rw [← h.visible]
  have hks : db.unlocked t tb (fun _ => true) pred =
      (db.keys tb).filter fun k => (db.visible t tb k).any (pred k) := by
    simp [Db.unlocked, h.solo]
  simp only [Txn.alone, Db.exec, hks]
  split_ifs <;> rfl

end Statements

theorem alone_lock [DecidableEq L] {u : α} {t : TxnId} {db : Db S L} {x : L}
    {next : Unit → Txn S L α} (h : db.advisory x = none) :
    (Txn.exec (.advisoryXactLock x) next).alone u t db = (next ()).alone u t (db.lock t x) := by
  simp [Txn.alone, Db.exec, h]

/-- No transaction but `t` holds a row or a lock. -/
def Db.Solo (db : Db S L) (t : TxnId) : Prop := ∀ u, u ≠ t → db.own u = Own.empty ∧ db.locks u = ∅

theorem Db.Solo.exec_ne_blocked [DecidableEq L] {db : Db S L} {t : TxnId} (h : db.Solo t)
    (seen : (tb : S.Table) → S.Key tb → Bool) (s : Stmt S L) : db.exec t seen s ≠ .blocked := by
  have rows (tb : S.Table) (k : S.Key tb) : db.lockedByOther t tb k = false := by
    unfold lockedByOther
    split
    · rename_i u v hh
      by_contra hu
      have hown := congrFun (congrFun (h u (by simpa using hu)).1 tb) k
      simp [Db.own, Own.empty, hh] at hown
    · rfl
  cases s with
  | advisoryXactLock x =>
    have free : db.advisory x = none ∨ db.advisory x = some t := by
      cases hx : db.advisory x with
      | none => exact .inl rfl
      | some u =>
        by_cases hu : u = t
        · exact .inr (by rw [hu])
        · have hlk : x ∈ db.locks u := hx
          rw [(h u hu).2] at hlk
          exact absurd hlk (Set.notMem_empty x)
    simp [exec, free]
  | select tb k => simp [exec]
  | selectForUpdate tb k => cases hv : db.visible t tb k <;> simp [exec, hv, rows]
  | update tb k pred set =>
    cases hv : db.visible t tb k <;> simp only [exec, hv, rows, Bool.false_eq_true, if_false]
    · simp
    · split_ifs <;> simp
  | insert tb k row =>
    cases hv : db.visible t tb k <;> simp only [exec, hv, rows, Bool.false_eq_true, if_false]
    · split_ifs <;> simp
    · split_ifs <;> simp
  | insertOnConflictDoNothing tb k row =>
    cases hv : db.visible t tb k <;> simp only [exec, hv, rows, Bool.false_eq_true, if_false]
    · split_ifs <;> simp
    · split_ifs <;> simp
  | updateSkipLocked tb pred set =>
    simp only [exec]
    split_ifs <;> simp

/-- Scheduling nothing but the statements of `t` runs its transaction alone. -/
theorem alone_run [DecidableEq L] (sv : Service S L ι α) {call : ι} {now : Int} {t : TxnId}
    (p : Txn S L α) (s : System S L ι α) (hs : s.sessions t = .running call now p)
    (h : s.db.Solo t) :
    ∃ n s', s.run sv (System.statements t n) = some s' ∧
      s'.db = (p.alone sv.unavailable t s.db).1 ∧
      s'.sessions t = .finished call (p.alone sv.unavailable t s.db).2 := by
  induction p generalizing s with
  | commit a =>
    refine ⟨1, s.set t (s.db.commit t) (.finished call a), ?_, rfl, by simp [System.set, Txn.alone]⟩
    simp [System.statements, System.run, System.step, hs]
  | rollback a =>
    refine ⟨1, s.set t (s.db.rollback t) (.finished call a), ?_, rfl,
      by simp [System.set, Txn.alone]⟩
    simp [System.statements, System.run, System.step, hs]
  | exec stmt next ih =>
    cases he : s.db.exec t (fun _ _ => true) stmt with
    | blocked => exact absurd he (h.exec_ne_blocked _ _)
    | failed =>
      refine ⟨1, s.set t (s.db.rollback t) (.finished call sv.unavailable), ?_,
        by simp [System.set, Txn.alone, he], by simp [System.set, Txn.alone, he]⟩
      simp [System.statements, System.run, System.step, hs, he]
    | ok db r =>
      have solo : db.Solo t := fun u hu => by
        obtain ⟨ho, hl⟩ := (Db.exec_frame he).2 u hu
        rw [ho, hl]
        exact h u hu
      obtain ⟨n, s', hr, hdb, hsess⟩ :=
        ih r (s.set t db (.running call now (next r))) (by simp [System.set]) solo
      refine ⟨n + 1, s', ?_, ?_, ?_⟩
      · simp only [System.statements, List.replicate_succ, System.run, System.step, hs, he,
          Option.bind_some]
        exact hr
      · simpa [Txn.alone, he, System.set] using hdb
      · simpa [Txn.alone, he, System.set] using hsess

/-- Serving a call alone is the run of the interleaving system that schedules only it. -/
theorem serve_is_run [DecidableEq L] (sv : Service S L ι α) (T : Tables S) (now : Int) (call : ι) :
    ∃ n s, (System.start T now).run sv (.begin 0 call :: System.statements 0 n) = some s ∧
      s.db.tables = (sv.serve T now call).1 ∧
      s.sessions 0 = .finished call (sv.serve T now call).2 := by
  obtain ⟨n, s, hr, hdb, hs⟩ := @alone_run S L α ι _ sv call now 0 (sv.program call now)
    ((System.start T now).set 0 (.quiescent T) (.running call now (sv.program call now)))
    (by simp [System.set]) fun u _ => ⟨rfl, by ext; simp [Db.locks, System.set, Db.quiescent]⟩
  refine ⟨n, s, ?_, by rw [hdb]; rfl, hs⟩
  simp only [System.run, System.step, System.start, Option.bind_some]
  exact hr

end LlmGateway.Lib.ReadCommitted
