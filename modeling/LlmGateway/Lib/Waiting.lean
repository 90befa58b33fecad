import LlmGateway.Lib.ProofOutline
import Mathlib.Logic.Relation

/-! Which transaction waits for which, and when the waiting cannot close a cycle. -/
namespace LlmGateway.Lib.ReadCommitted
variable {S : Schema} {L α ι : Type}

namespace Db

/-- Who holds the lock a statement takes. A plain read takes none, and a SKIP LOCKED scan
waits for none. -/
def holder (db : Db S L) : Stmt S L → Option TxnId
  | .advisoryXactLock x => db.advisory x
  | .select _ _ => none
  | .selectForUpdate tb k => (db.held tb k).map Prod.fst
  | .update tb k _ _ => (db.held tb k).map Prod.fst
  | .insert tb k _ => (db.held tb k).map Prod.fst
  | .insertOnConflictDoNothing tb k _ => (db.held tb k).map Prod.fst
  | .updateSkipLocked _ _ _ => none

/-- Why a statement of `t` waits for `u`. -/
inductive Waits (db : Db S L) (t u : TxnId) : Stmt S L → Prop where
  | lock {x} : x ∈ db.locks u → Waits db t u (.advisoryXactLock x)
  | selectForUpdate {tb k} : db.own u tb k ≠ none → Waits db t u (.selectForUpdate tb k)
  | update {tb k pred set} : db.visible t tb k ≠ none → db.own u tb k ≠ none →
      Waits db t u (.update tb k pred set)
  | insert {tb k row} : db.visible t tb k = none → db.own u tb k ≠ none →
      Waits db t u (.insert tb k row)
  | insertOnConflictDoNothing {tb k row} : db.visible t tb k = none → db.own u tb k ≠ none →
      Waits db t u (.insertOnConflictDoNothing tb k row)

variable {db : Db S L} {t u : TxnId}

theorem own_of_held {tb : S.Table} {k : S.Key tb} (h : (db.held tb k).map Prod.fst = some u) :
    db.own u tb k ≠ none := by
  obtain ⟨⟨w, v⟩, hw, rfl⟩ := Option.map_eq_some_iff.mp h
  simp [own, hw]

theorem held_of_own {tb : S.Table} {k : S.Key tb} (h : db.own u tb k ≠ none) :
    (db.held tb k).map Prod.fst = some u := by
  unfold own at h
  cases hh : db.held tb k with
  | none => simp [hh] at h
  | some wv =>
    obtain ⟨w, v⟩ := wv
    have hw : w = u := by
      by_contra hn
      simp [hh, hn] at h
    simp [hw]

theorem exec_blocked [DecidableEq L] {seen : (tb : S.Table) → S.Key tb → Bool} {s : Stmt S L}
    (h : db.exec t seen s = .blocked) (hu : db.holder s = some u) : u ≠ t ∧ db.Waits t u s := by
  have other {tb : S.Table} {k : S.Key tb} (hl : db.lockedByOther t tb k = true)
      (hh : (db.held tb k).map Prod.fst = some u) : u ≠ t := by
    obtain ⟨⟨w, v⟩, hw, rfl⟩ := Option.map_eq_some_iff.mp hh
    simpa [lockedByOther, hw] using hl
  cases s with
  | advisoryXactLock x =>
    replace hu : db.advisory x = some u := hu
    simp only [exec, hu] at h
    split at h
    · cases h
    · rename_i hn
      exact ⟨fun he => hn (.inr (by rw [he])), .lock hu⟩
  | select tb k => cases h
  | selectForUpdate tb k =>
    simp only [exec] at h
    split at h
    · cases h
    · split at h
      · rename_i hl
        exact ⟨other hl hu, .selectForUpdate (own_of_held hu)⟩
      · cases h
  | update tb k pred set =>
    simp only [exec] at h
    split at h
    · cases h
    · rename_i hv
      split at h
      · cases h
      · split at h
        · rename_i hl
          exact ⟨other hl hu, .update (by simp [hv]) (own_of_held hu)⟩
        · split at h <;> cases h
  | insert tb k row =>
    simp only [exec] at h
    split at h
    · split at h
      · cases h
      · rename_i hv
        split at h
        · rename_i hl
          exact ⟨other hl hu, .insert hv (own_of_held hu)⟩
        · split at h <;> cases h
    · cases h
  | insertOnConflictDoNothing tb k row =>
    simp only [exec] at h
    split at h
    · split at h
      · cases h
      · rename_i hv
        split at h
        · rename_i hl
          exact ⟨other hl hu, .insertOnConflictDoNothing hv (own_of_held hu)⟩
        · split at h <;> cases h
    · cases h
  | updateSkipLocked tb pred set => cases hu

private theorem put_ne_none {own : Own S} {tb tb' : S.Table} {ks : Finset (S.Key tb')}
    {v : S.Key tb' → Option (S.Row tb')} {k : S.Key tb} (h : own tb k ≠ none) :
    own.put tb' ks v tb k ≠ none := by
  by_cases ht : tb = tb'
  · subst ht
    by_cases hk : k ∈ ks <;> simp [hk, h]
  · simpa [ht] using h

/-- A statement gives up no version. -/
theorem own_kept [DecidableEq L] {db' : Db S L} {seen : (tb : S.Table) → S.Key tb → Bool}
    {s : Stmt S L} {r : s.Result} (h : db.exec t seen s = .ok db' r) {tb : S.Table} {k : S.Key tb}
    (ho : db.own t tb k ≠ none) : db'.own t tb k ≠ none := by
  cases s with
  | advisoryXactLock x => rwa [(exec_lock h).1]
  | select tb' k' => rwa [(exec_select h).1]
  | selectForUpdate tb' k' =>
    obtain ⟨_, _, ⟨_, rfl⟩ | ⟨row, _, he⟩⟩ := exec_selectForUpdate h
    · exact ho
    · rw [he]
      exact put_ne_none ho
  | update tb' k' pred set =>
    obtain ⟨_, ⟨_, rfl, _⟩ | ⟨row, _, _, _, _, he⟩⟩ := exec_update h
    · exact ho
    · rw [he]
      exact put_ne_none ho
  | insert tb' k' row =>
    obtain ⟨_, _, _, he⟩ := exec_insert h
    rw [he]
    exact put_ne_none ho
  | insertOnConflictDoNothing tb' k' row =>
    obtain ⟨_, _, ⟨_, rfl⟩ | ⟨_, _, he⟩⟩ := exec_insertOnConflictDoNothing h
    · exact ho
    · rw [he]
      exact put_ne_none ho
  | updateSkipLocked tb' pred set =>
    obtain ⟨_, ks, _, _, he⟩ := exec_updateSkipLocked h
    rw [he]
    exact put_ne_none ho

end Db

namespace System
variable [DecidableEq L]

/-- The transaction whose lock keeps the next statement of `t` waiting. Only a SKIP LOCKED
scan reads its snapshot, and that never waits. -/
def waitsFor (s : System S L ι α) (t : TxnId) : Option TxnId :=
  match s.sessions t with
  | .idle => none
  | .finished _ _ => none
  | .running _ _ (.commit _) => none
  | .running _ _ (.rollback _) => none
  | .running _ _ (.exec stmt _) =>
    match s.db.exec t (fun _ _ => true) stmt with
    | .blocked => s.db.holder stmt
    | .failed => none
    | .ok _ _ => none

/-- A cycle of transactions, each waiting for a lock the next one holds. -/
def Deadlocked (s : System S L ι α) : Prop :=
  ∃ t, Relation.TransGen (fun t u => s.waitsFor t = some u) t t

variable {s : System S L ι α} {t u : TxnId}

theorem waitsFor_eq_some (h : s.waitsFor t = some u) :
    ∃ call now stmt next, s.sessions t = .running call now (.exec stmt next) ∧ u ≠ t ∧
      s.db.Waits t u stmt := by
  unfold waitsFor at h
  split at h
  · cases h
  · cases h
  · cases h
  · cases h
  · rename_i call now stmt next hs
    split at h
    · rename_i he
      exact ⟨call, now, stmt, next, hs, Db.exec_blocked he h⟩
    · cases h
    · cases h

section Step
variable {sv : Service S L ι α} {s' : System S L ι α} {a : Action S ι} {call : ι} {now : Int}
  {stmt : Stmt S L} {next : stmt.Result → Txn S L α}

/-- Where a transaction with a statement left was before a step: in the same place, not begun,
or at the statement that the step ran. -/
theorem exec_before (hs : s.step sv a = some s')
    (hr : s'.sessions t = .running call now (.exec stmt next)) :
    (s.sessions t = .running call now (.exec stmt next) ∧ s'.db.own t = s.db.own t) ∨
      (s.sessions t = .idle ∧ s'.db.own t = s.db.own t) ∨
      ∃ seen stmt₀ next₀ r, a = .exec t seen ∧
        s.sessions t = .running call now (.exec stmt₀ next₀) ∧
        s.db.exec t seen stmt₀ = .ok s'.db r ∧ next₀ r = .exec stmt next := by
  have others {u : TxnId} (db : Db S L) (session : Session S L ι α)
      (hu : t ≠ u → db.own t = s.db.own t) (hs' : s' = s.set u db session)
      (hn : ∀ call now p, session ≠ .running call now p) :
      s.sessions t = .running call now (.exec stmt next) ∧ s'.db.own t = s.db.own t := by
    subst hs'
    by_cases ht : t = u
    · subst ht
      rw [set_self] at hr
      exact absurd hr (hn _ _ _)
    · rw [set_of_ne _ ht] at hr
      exact ⟨hr, hu ht⟩
  have rolled {u : TxnId} (ht : t ≠ u) : (s.db.rollback u).own t = s.db.own t := by
    rw [Db.own_rollback, if_neg ht]
  cases step_cases hs with
  | @begin u _ hi =>
    by_cases ht : t = u
    · subst ht
      exact .inr (.inl ⟨hi, rfl⟩)
    · rw [set_of_ne _ ht] at hr
      exact .inl ⟨hr, rfl⟩
  | commit _ =>
    exact .inl (others _ _ (fun ht => by rw [Db.own_commit, if_neg ht]) rfl fun _ _ _ => by simp)
  | rollback _ => exact .inl (others _ _ rolled rfl fun _ _ _ => by simp)
  | fail _ _ => exact .inl (others _ _ rolled rfl fun _ _ _ => by simp)
  | abort _ => exact .inl (others _ _ rolled rfl fun _ _ _ => by simp)
  | @exec u seen _ _ stmt₀ next₀ db r hr₀ he =>
    by_cases ht : t = u
    · subst ht
      rw [set_self] at hr
      injection hr with hcall hnow hnext
      subst hcall hnow
      exact .inr (.inr ⟨seen, stmt₀, next₀, r, rfl, hr₀, he, hnext⟩)
    · rw [set_of_ne _ ht] at hr
      exact .inl ⟨hr, ((Db.exec_frame he).2 t ht).1⟩
  | tick _ => exact .inl ⟨hr, rfl⟩

/-- A row that a transaction still holds after a step was not changed by it. -/
theorem committed_kept (hs : s.step sv a = some s') {tb : S.Table} {k : S.Key tb}
    (ho : s'.db.own t tb k ≠ none) : s'.db.committed tb k = s.db.committed tb k := by
  cases step_cases hs with
  | begin => rfl
  | @commit u _ _ _ _ _ =>
    change (s.db.commit u).own t tb k ≠ none at ho
    rw [Db.own_commit] at ho
    split_ifs at ho with ht
    · exact absurd rfl ho
    · have hu := s.db.own_disjoint (Ne.symm ht) tb k ho
      change (s.db.own u).install s.db.committed tb k = s.db.committed tb k
      simp [Own.install, hu]
  | rollback => rfl
  | fail => rfl
  | exec _ he => exact congrFun (congrFun (Db.exec_frame he).1 tb) k
  | abort => rfl
  | tick => rfl

end Step

/-- Where the rank falls at every wait followed by two more, the waiting ends. -/
theorem not_deadlocked_of_rank (rank : TxnId → Nat)
    (h : ∀ t u v w, s.waitsFor t = some u → s.waitsFor u = some v → s.waitsFor v = some w →
      rank u < rank t) : ¬ s.Deadlocked := by
  have falls {t u : TxnId} (hp : Relation.TransGen (fun t u => s.waitsFor t = some u) t u) :
      ∀ v w, s.waitsFor u = some v → s.waitsFor v = some w → rank u < rank t := by
    induction hp with
    | single ht => exact fun v w hv hw => h _ _ v w ht hv hw
    | @tail u u' _ hu ih =>
      intro v w hv hw
      have first := ih u' v hu hv
      have second := h u u' v w hu hv hw
      omega
  rintro ⟨t, ht⟩
  obtain ⟨v, hv, hpath⟩ := Relation.TransGen.head'_iff.mp ht
  have hw : ∃ w, s.waitsFor v = some w := by
    rcases Relation.ReflTransGen.cases_head hpath with rfl | ⟨w, hw, _⟩
    · exact ⟨v, hv⟩
    · exact ⟨w, hw⟩
  obtain ⟨w, hw⟩ := hw
  exact absurd (falls ht v w hv hw) (lt_irrefl _)

end System
end LlmGateway.Lib.ReadCommitted
