import LlmGateway.Lib.ReadCommitted

/-! Which versions and advisory locks a transaction owns, and what each operation of
the server leaves alone. -/
namespace LlmGateway.Lib.ReadCommitted
variable {S : Schema} {L α ι : Type}

namespace Own

def empty : Own S := fun _ _ => none

def put (own : Own S) (tb : S.Table) (ks : Finset (S.Key tb))
    (v : S.Key tb → Option (S.Row tb)) : Own S :=
  Function.update own tb fun k => if k ∈ ks then some (v k) else own tb k

@[simp] theorem put_self (own : Own S) (tb : S.Table) (ks : Finset (S.Key tb))
    (v : S.Key tb → Option (S.Row tb)) (k : S.Key tb) :
    own.put tb ks v tb k = if k ∈ ks then some (v k) else own tb k := by
  simp [put]

@[simp] theorem put_of_ne (own : Own S) {tb tb' : S.Table} (ks : Finset (S.Key tb))
    (v : S.Key tb → Option (S.Row tb)) (h : tb' ≠ tb) (k : S.Key tb') :
    own.put tb ks v tb' k = own tb' k := by
  simp [put, Function.update_of_ne h]

end Own

namespace Db

theorem lockedByOther_eq_false (db : Db S L) (t : TxnId) (tb : S.Table) (k : S.Key tb) :
    db.lockedByOther t tb k = false ↔ ∀ u, u ≠ t → db.own u tb k = none := by
  unfold lockedByOther own
  cases h : db.held tb k with
  | none => simp
  | some uv =>
    obtain ⟨u, v⟩ := uv
    constructor
    · intro hu w hw
      have : u = t := by simpa using hu
      simp [this, Ne.symm hw]
    · intro hu
      by_contra hn
      have hne : u ≠ t := by simpa using hn
      simpa using hu u hne

theorem own_disjoint (db : Db S L) {t u : TxnId} (h : u ≠ t) (tb : S.Table) (k : S.Key tb)
    (ht : db.own t tb k ≠ none) : db.own u tb k = none := by
  unfold own at ht ⊢
  cases hh : db.held tb k with
  | none => rfl
  | some wv =>
    obtain ⟨w, v⟩ := wv
    by_cases hw : w = t
    · simp [hw, Ne.symm h]
    · simp [hh, hw] at ht

theorem own_hold_self (db : Db S L) (t : TxnId) (tb : S.Table) (ks : Finset (S.Key tb))
    (v : S.Key tb → Option (S.Row tb)) :
    (db.hold t tb ks v).own t = Own.put (db.own t) tb ks v := by
  funext tb' k
  by_cases ht : tb' = tb
  · subst ht
    by_cases hk : k ∈ ks <;> simp [own, hold, hk]
  · simp [own, hold, ht]

theorem own_hold_other (db : Db S L) {t u : TxnId} (hu : u ≠ t) (tb : S.Table)
    (ks : Finset (S.Key tb)) (v : S.Key tb → Option (S.Row tb))
    (hfree : ∀ k ∈ ks, db.lockedByOther t tb k = false) :
    (db.hold t tb ks v).own u = db.own u := by
  funext tb' k
  by_cases ht : tb' = tb
  · subst ht
    by_cases hk : k ∈ ks
    · rw [(lockedByOther_eq_false db t tb' k).mp (hfree k hk) u hu]
      simp [own, hold, hk, Ne.symm hu]
    · simp [own, hold, hk]
  · simp [own, hold, Function.update_of_ne ht]

private theorem released_own (db : Db S L) (t u : TxnId) (tb : S.Table) (k : S.Key tb) :
    (match (if db.lockedByOther t tb k then db.held tb k else none) with
      | some (w, v) => if w = u then some v else none
      | none => none) = if u = t then none else db.own u tb k := by
  unfold lockedByOther own
  cases hh : db.held tb k with
  | none => simp
  | some wv =>
    obtain ⟨w, v⟩ := wv
    by_cases hw : w = t
    · subst hw
      by_cases hu : u = w
      · simp [hu]
      · simp [hu, Ne.symm hu]
    · by_cases hu : u = t
      · subst hu; simp [hw]
      · simp [hw, hu]

theorem own_commit (db : Db S L) (t u : TxnId) :
    (db.commit t).own u = if u = t then Own.empty else db.own u := by
  funext tb k
  refine (released_own db t u tb k).trans ?_
  split_ifs <;> rfl

theorem own_rollback (db : Db S L) (t u : TxnId) :
    (db.rollback t).own u = if u = t then Own.empty else db.own u := by
  funext tb k
  refine (released_own db t u tb k).trans ?_
  split_ifs <;> rfl

/-- The advisory locks `t` holds. -/
def locks (db : Db S L) (t : TxnId) : Set L := {x | db.advisory x = some t}

theorem locks_disjoint (db : Db S L) {t u : TxnId} (h : u ≠ t) {x : L} (hx : x ∈ db.locks t) :
    x ∉ db.locks u := by
  intro hu
  have hx' : db.advisory x = some t := hx
  have hu' : db.advisory x = some u := hu
  exact h (Option.some.inj (hu'.symm.trans hx'))

theorem locks_lock_self [DecidableEq L] (db : Db S L) (t : TxnId) (x : L) :
    (db.lock t x).locks t = insert x (db.locks t) := by
  ext y
  by_cases hy : y = x
  · simp [locks, lock, hy]
  · simp [locks, lock, hy]

theorem locks_lock_other [DecidableEq L] (db : Db S L) {t u : TxnId} (hu : u ≠ t) (x : L)
    (hx : db.advisory x = none ∨ db.advisory x = some t) :
    (db.lock t x).locks u = db.locks u := by
  ext y
  by_cases hy : y = x
  · subst hy
    rcases hx with hx | hx <;> simp [locks, lock, hx, Ne.symm hu]
  · simp [locks, lock, Function.update_of_ne hy]

theorem locks_commit (db : Db S L) (t u : TxnId) :
    (db.commit t).locks u = if u = t then ∅ else db.locks u := by
  ext x
  by_cases hu : u = t
  · subst hu
    simp [locks, commit]
  · by_cases hx : db.advisory x = some t
    · simp [locks, commit, hx, hu, Ne.symm hu]
    · simp [locks, commit, hx, hu]

theorem locks_rollback (db : Db S L) (t u : TxnId) :
    (db.rollback t).locks u = if u = t then ∅ else db.locks u := locks_commit db t u

/-- What every successful statement leaves alone. -/
theorem exec_frame [DecidableEq L] {db db' : Db S L} {t : TxnId}
    {seen : (tb : S.Table) → S.Key tb → Bool} {s : Stmt S L} {r : s.Result}
    (h : db.exec t seen s = .ok db' r) :
    db'.committed = db.committed ∧ ∀ u, u ≠ t → db'.own u = db.own u ∧ db'.locks u = db.locks u := by
  have hold_frame {tb : S.Table} {ks : Finset (S.Key tb)} {v : S.Key tb → Option (S.Row tb)}
      (hf : ∀ k ∈ ks, db.lockedByOther t tb k = false) (he : db' = db.hold t tb ks v) :
      db'.committed = db.committed ∧
        ∀ u, u ≠ t → db'.own u = db.own u ∧ db'.locks u = db.locks u := by
    subst he
    exact ⟨rfl, fun u hu => ⟨own_hold_other db hu tb ks v hf, rfl⟩⟩
  have one {tb : S.Table} {k : S.Key tb} (hf : ¬ db.lockedByOther t tb k = true) :
      ∀ k' ∈ ({k} : Finset (S.Key tb)), db.lockedByOther t tb k' = false := by
    intro k' hk
    rw [Finset.mem_singleton.mp hk]
    simpa using hf
  cases s with
  | advisoryXactLock x =>
    simp only [exec] at h
    split at h
    · rename_i hx
      cases h
      exact ⟨rfl, fun u hu => ⟨rfl, locks_lock_other db hu x hx⟩⟩
    · cases h
  | select tb k =>
    cases h
    exact ⟨rfl, fun _ _ => ⟨rfl, rfl⟩⟩
  | selectForUpdate tb k =>
    simp only [exec] at h
    split at h
    · cases h; exact ⟨rfl, fun _ _ => ⟨rfl, rfl⟩⟩
    · split at h
      · cases h
      · rename_i hf
        cases h
        exact hold_frame (one hf) rfl
  | update tb k pred set =>
    simp only [exec] at h
    split at h
    · cases h; exact ⟨rfl, fun _ _ => ⟨rfl, rfl⟩⟩
    · split at h
      · cases h; exact ⟨rfl, fun _ _ => ⟨rfl, rfl⟩⟩
      · split at h
        · cases h
        · rename_i hf
          split at h
          · cases h; exact hold_frame (one hf) rfl
          · cases h
  | insert tb k row =>
    simp only [exec] at h
    split at h
    · split at h
      · cases h
      · split at h
        · cases h
        · rename_i hf
          split at h
          · cases h; exact hold_frame (one hf) rfl
          · cases h
    · cases h
  | insertOnConflictDoNothing tb k row =>
    simp only [exec] at h
    split at h
    · split at h
      · cases h; exact ⟨rfl, fun _ _ => ⟨rfl, rfl⟩⟩
      · split at h
        · cases h
        · rename_i hf
          split at h
          · cases h; exact hold_frame (one hf) rfl
          · cases h
    · cases h
  | updateSkipLocked tb pred set =>
    simp only [exec] at h
    split at h
    · cases h
      refine hold_frame (fun k hk => ?_) rfl
      have := (Finset.mem_filter.mp hk).2
      simp only [Bool.and_eq_true, Bool.not_eq_true'] at this
      exact this.1.2
    · cases h

end Db

@[simp] theorem System.set_self (s : System S L ι α) (t : TxnId) (db : Db S L)
    (session : Session S L ι α) : (s.set t db session).sessions t = session :=
  Function.update_self ..

theorem System.set_of_ne (s : System S L ι α) {t u : TxnId} (h : t ≠ u) (db : Db S L)
    (session : Session S L ι α) : (s.set u db session).sessions t = s.sessions t :=
  Function.update_of_ne h ..

/-- Everything a step can do. -/
inductive System.Does [DecidableEq L] (sv : Service S L ι α) (s : System S L ι α) :
    Action S ι → System S L ι α → Prop where
  | begin {t call} (hi : s.sessions t = .idle) :
      Does sv s (.begin t call) (s.set t s.db (.running call s.now (sv.program call s.now)))
  | commit {t seen call now a} (hr : s.sessions t = .running call now (.commit a)) :
      Does sv s (.exec t seen) (s.set t (s.db.commit t) (.finished call a))
  | rollback {t seen call now a} (hr : s.sessions t = .running call now (.rollback a)) :
      Does sv s (.exec t seen) (s.set t (s.db.rollback t) (.finished call a))
  | fail {t seen call now stmt next} (hr : s.sessions t = .running call now (.exec stmt next))
      (he : s.db.exec t seen stmt = .failed) :
      Does sv s (.exec t seen) (s.set t (s.db.rollback t) (.finished call sv.unavailable))
  | exec {t seen call now stmt next db r}
      (hr : s.sessions t = .running call now (.exec stmt next))
      (he : s.db.exec t seen stmt = .ok db r) :
      Does sv s (.exec t seen) (s.set t db (.running call now (next r)))
  | abort {t call now p} (hr : s.sessions t = .running call now p) :
      Does sv s (.abort t) (s.set t (s.db.rollback t) (.finished call sv.unavailable))
  | tick {now} (hn : s.now ≤ now) : Does sv s (.tick now) { s with now := now }

section Step
variable [DecidableEq L] {sv : Service S L ι α} {s s' : System S L ι α} {a : Action S ι}

theorem System.step_cases (h : s.step sv a = some s') : System.Does sv s a s' := by
  cases a with
  | begin t call =>
    simp only [System.step] at h
    split at h
    next hi =>
      cases h
      exact .begin hi
    next => cases h
  | exec t seen =>
    simp only [System.step] at h
    split at h
    next hr =>
      cases h
      exact .commit hr
    next hr =>
      cases h
      exact .rollback hr
    next hr =>
      split at h
      next => cases h
      next he =>
        cases h
        exact .fail hr he
      next he =>
        cases h
        exact .exec hr he
    next => cases h
  | abort t =>
    simp only [System.step] at h
    split at h
    next hr =>
      cases h
      exact .abort hr
    next => cases h
  | tick now =>
    simp only [System.step] at h
    split_ifs at h with hn
    cases h
    exact .tick hn

theorem System.begin_eq_some {t : TxnId} {call : ι} (h : s.step sv (.begin t call) = some s') :
    s' = s.set t s.db (.running call s.now (sv.program call s.now)) := by
  cases System.step_cases h
  rfl

/-- What a step that begins nothing does to a session: a running one may go on, or finish with
its commit's answer, its rollback's or the service's own. -/
theorem System.session_of_step (h : s.step sv a = some s') (hb : ∀ t call, a ≠ .begin t call)
    (t : TxnId) :
    s'.sessions t = s.sessions t ∨ ∃ call now p, s.sessions t = .running call now p ∧
      ((∃ p', s'.sessions t = .running call now p') ∨
        (∃ seen answer, a = .exec t seen ∧ p = .commit answer ∧
          s'.sessions t = .finished call answer) ∨
        (∃ answer, p = .rollback answer ∧ s'.sessions t = .finished call answer) ∨
        s'.sessions t = .finished call sv.unavailable) := by
  cases System.step_cases h with
  | begin => exact absurd rfl (hb _ _)
  | @commit u _ _ _ _ hr =>
    by_cases hu : t = u
    · subst hu
      exact .inr ⟨_, _, _, hr, .inr (.inl ⟨_, _, rfl, rfl, s.set_self ..⟩)⟩
    · exact .inl (s.set_of_ne hu ..)
  | @rollback u _ _ _ _ hr =>
    by_cases hu : t = u
    · subst hu
      exact .inr ⟨_, _, _, hr, .inr (.inr (.inl ⟨_, rfl, s.set_self ..⟩))⟩
    · exact .inl (s.set_of_ne hu ..)
  | @fail u _ _ _ _ _ hr _ =>
    by_cases hu : t = u
    · subst hu
      exact .inr ⟨_, _, _, hr, .inr (.inr (.inr (s.set_self ..)))⟩
    · exact .inl (s.set_of_ne hu ..)
  | @exec u _ _ _ _ _ _ _ hr _ =>
    by_cases hu : t = u
    · subst hu
      exact .inr ⟨_, _, _, hr, .inl ⟨_, s.set_self ..⟩⟩
    · exact .inl (s.set_of_ne hu ..)
  | @abort u _ _ _ hr =>
    by_cases hu : t = u
    · subst hu
      exact .inr ⟨_, _, _, hr, .inr (.inr (.inr (s.set_self ..)))⟩
    · exact .inl (s.set_of_ne hu ..)
  | tick => exact .inl rfl

/-- A transaction that runs was begun in the step or ran before it. -/
theorem System.running_of_step {t : TxnId} {call : ι} {now : Int} {p : Txn S L α}
    (h : s.step sv a = some s') (hr : s'.sessions t = .running call now p) :
    (∃ p', s.sessions t = .running call now p') ∨ a = .begin t call := by
  by_cases hb : ∃ u call', a = .begin u call'
  · obtain ⟨u, call', rfl⟩ := hb
    rw [System.begin_eq_some h] at hr
    by_cases hu : t = u
    · subst hu
      rw [System.set_self] at hr
      cases hr
      exact .inr rfl
    · exact .inl ⟨p, (s.set_of_ne hu ..).symm.trans hr⟩
  · have ended {answer : α} {call' : ι} (he : s'.sessions t = .finished call' answer) : False := by
      cases he.symm.trans hr
    rcases System.session_of_step h (fun u call' he => hb ⟨u, call', he⟩) t with
      same | ⟨_, _, p', before, ⟨_, on⟩ | ⟨_, _, _, _, fin⟩ | ⟨_, _, fin⟩ | fin⟩
    · exact .inl ⟨p, same.symm.trans hr⟩
    · cases on.symm.trans hr
      exact .inl ⟨p', before⟩
    · exact (ended fin).elim
    · exact (ended fin).elim
    · exact (ended fin).elim

/-- A transaction that has finished stays so. -/
theorem System.finished_of_step {t : TxnId} {call : ι} {answer : α} (h : s.step sv a = some s')
    (hf : s.sessions t = .finished call answer) : s'.sessions t = .finished call answer := by
  by_cases hb : ∃ u call', a = .begin u call'
  · obtain ⟨u, call', rfl⟩ := hb
    cases System.step_cases h with
    | begin hi =>
      have hne : t ≠ u := fun hu => by
        rw [hu, hi] at hf
        cases hf
      rw [System.set_of_ne _ hne, hf]
  · rcases System.session_of_step h (fun u call' he => hb ⟨u, call', he⟩) t with
      same | ⟨_, _, _, hr, _⟩
    · rw [same, hf]
    · cases hr.symm.trans hf

end Step

end LlmGateway.Lib.ReadCommitted
