import LlmGateway.Lib.LockFrames

/-! Interference-free proof outlines for READ COMMITTED transactions.
An outline annotates every program point of a transaction with what it knows of the
committed rows, of the versions it holds and of its advisory locks. -/
namespace LlmGateway.Lib.ReadCommitted
variable {S : Schema} {L α ι : Type}

namespace Db
variable [DecidableEq L] {db db' : Db S L} {t : TxnId} {seen : (tb : S.Table) → S.Key tb → Bool}

theorem exec_lock {x : L} {r : Unit} (h : db.exec t seen (.advisoryXactLock x) = .ok db' r) :
    db'.own t = db.own t ∧ db'.locks t = insert x (db.locks t) := by
  simp only [exec] at h
  split at h
  · cases h; exact ⟨rfl, locks_lock_self db t x⟩
  · cases h

theorem exec_select {tb : S.Table} {k : S.Key tb} {r : Option (S.Row tb)}
    (h : db.exec t seen (.select tb k) = .ok db' r) :
    db' = db ∧ r = (db.own t).install db.committed tb k := by
  cases h; exact ⟨rfl, rfl⟩

theorem exec_selectForUpdate {tb : S.Table} {k : S.Key tb} {r : Option (S.Row tb)}
    (h : db.exec t seen (.selectForUpdate tb k) = .ok db' r) :
    r = (db.own t).install db.committed tb k ∧ db'.locks t = db.locks t ∧
      (r = none ∧ db' = db ∨ ∃ row, r = some row ∧
        db'.own t = (db.own t).put tb {k} fun _ => some row) := by
  simp only [exec] at h
  split at h
  · rename_i hv
    cases h
    exact ⟨hv.symm, rfl, .inl ⟨rfl, rfl⟩⟩
  · rename_i row hv
    split at h
    · cases h
    · cases h
      exact ⟨hv.symm, rfl, .inr ⟨row, rfl, own_hold_self ..⟩⟩

/-- An UPDATE by key either matches no row or locks and rewrites the one it matches. -/
theorem exec_update {tb : S.Table} {k : S.Key tb} {pred : S.Row tb → Bool}
    {set : S.Row tb → S.Row tb} {r : Option (S.Row tb)}
    (h : db.exec t seen (.update tb k pred set) = .ok db' r) :
    db'.locks t = db.locks t ∧
      ((r = none ∧ db' = db ∧ ∀ row, (db.own t).install db.committed tb k = some row → pred row = false) ∨
        ∃ row, (db.own t).install db.committed tb k = some row ∧ pred row = true ∧
          S.check tb k (set row) = true ∧ r = some (set row) ∧
          db'.own t = (db.own t).put tb {k} fun _ => some (set row)) := by
  simp only [exec] at h
  split at h
  · rename_i hv
    cases h
    exact ⟨rfl, .inl ⟨rfl, rfl, fun row hr => by simp [visible, hr] at hv⟩⟩
  · rename_i row hv
    split at h
    · rename_i hp
      cases h
      refine ⟨rfl, .inl ⟨rfl, rfl, fun row' hr => ?_⟩⟩
      have he : row' = row := Option.some.inj (hr.symm.trans hv)
      simpa [he] using hp
    · rename_i hp
      split at h
      · cases h
      · split at h
        · rename_i hc
          cases h
          exact ⟨rfl, .inr ⟨row, hv, by simpa using hp, hc, rfl, own_hold_self ..⟩⟩
        · cases h

theorem exec_insert {tb : S.Table} {k : S.Key tb} {row : S.Row tb} {r : Unit}
    (h : db.exec t seen (.insert tb k row) = .ok db' r) :
    db'.locks t = db.locks t ∧ (db.own t).install db.committed tb k = none ∧
      S.check tb k row = true ∧ db'.own t = (db.own t).put tb {k} fun _ => some row := by
  simp only [exec] at h
  split at h
  · split at h
    · cases h
    · rename_i hv
      split at h
      · cases h
      · split at h
        · rename_i hc
          cases h
          exact ⟨rfl, hv, hc, own_hold_self ..⟩
        · cases h
  · cases h

theorem exec_insertOnConflictDoNothing {tb : S.Table} {k : S.Key tb} {row : S.Row tb} {r : Unit}
    (h : db.exec t seen (.insertOnConflictDoNothing tb k row) = .ok db' r) :
    db'.locks t = db.locks t ∧ S.valid tb row = true ∧
      (((db.own t).install db.committed tb k ≠ none ∧ db' = db) ∨
        ((db.own t).install db.committed tb k = none ∧ S.check tb k row = true ∧
          db'.own t = (db.own t).put tb {k} fun _ => some row)) := by
  simp only [exec] at h
  split at h
  · rename_i valid
    split at h
    · rename_i row' hv
      cases h
      refine ⟨rfl, valid, .inl ⟨?_, rfl⟩⟩
      rw [show (db.own t).install db.committed tb k = some row' from hv]
      simp
    · rename_i hv
      split at h
      · cases h
      · split at h
        · rename_i hc
          cases h
          exact ⟨rfl, valid, .inr ⟨hv, hc, own_hold_self ..⟩⟩
        · cases h
  · cases h

/-- A SKIP LOCKED update rewrites some set of rows that meet its predicate. -/
theorem exec_updateSkipLocked {tb : S.Table} {pred : S.Key tb → S.Row tb → Bool}
    {set : S.Row tb → S.Row tb} {r : Multiset (S.Row tb)}
    (h : db.exec t seen (.updateSkipLocked tb pred set) = .ok db' r) :
    db'.locks t = db.locks t ∧ ∃ ks : Finset (S.Key tb),
      (∀ k ∈ ks, ∃ row, (db.own t).install db.committed tb k = some row ∧ pred k row = true ∧
        S.check tb k (set row) = true) ∧
      r = ks.val.filterMap (fun k => ((db.own t).install db.committed tb k).map set) ∧
      db'.own t = (db.own t).put tb ks fun k => ((db.own t).install db.committed tb k).map set := by
  simp only [exec] at h
  split at h
  · rename_i hc
    cases h
    refine ⟨rfl, db.unlocked t tb (seen tb) pred, fun k hk => ?_, rfl, own_hold_self ..⟩
    have hm := (Finset.mem_filter.mp hk).2
    simp only [Bool.and_eq_true] at hm
    obtain ⟨row, hr, hp⟩ := (Option.any_eq_true ..).mp hm.2
    have := hc k hk
    rw [hr] at this
    exact ⟨row, hr, hp, by simpa using this⟩
  · cases h

end Db

/-- An annotation of every program point of a service's transactions. `At` may mention only
the committed rows, the versions the transaction holds and its advisory locks; `Effect`
is what a commit does to the committed rows. `stable` is freedom from interference. -/
structure Outline [DecidableEq L] (sv : Service S L ι α) where
  At : Rows S → Own S → Set L → ι → Int → Txn S L α → Prop
  Effect : ι → Int → α → Rows S → Rows S → Prop
  begins : ∀ σ call now, At σ Own.empty ∅ call now (sv.program call now)
  execs : ∀ {db db' : Db S L} {t seen call now s next} {r : Stmt.Result s},
    At db.committed (db.own t) (db.locks t) call now (.exec s next) →
    db.exec t seen s = .ok db' r → At db.committed (db'.own t) (db'.locks t) call now (next r)
  commits : ∀ {σ own lk call now a}, At σ own lk call now (.commit a) →
    Effect call now a σ (own.install σ)
  stable : ∀ {σ own own' lk lk' call call' now now' p a}, At σ own lk call now p →
    At σ own' lk' call' now' (.commit a) → (∀ tb k, own tb k ≠ none → own' tb k = none) →
    (∀ x ∈ lk, x ∉ lk') → At (own'.install σ) own lk call now p

namespace Outline
variable [DecidableEq L] {sv : Service S L ι α}

/-- Running transactions satisfy their annotation; the others hold nothing. -/
def Holds (o : Outline sv) (s : System S L ι α) : Prop :=
  ∀ t, match s.sessions t with
    | .running call now p => o.At s.db.committed (s.db.own t) (s.db.locks t) call now p
    | _ => s.db.own t = Own.empty ∧ s.db.locks t = ∅

/-- A step changes the committed rows only when a transaction commits, by its effect. -/
inductive Commits (o : Outline sv) (s s' : System S L ι α) : Action S ι → Prop where
  | silent {a} : (∀ t seen call now answer, a = .exec t seen →
        s.sessions t ≠ .running call now (.commit answer)) →
      s'.db.committed = s.db.committed → Commits o s s' a
  | commit {t seen call now answer} : s.sessions t = .running call now (.commit answer) →
      s' = s.set t (s.db.commit t) (.finished call answer) →
      o.Effect call now answer s.db.committed s'.db.committed → Commits o s s' (.exec t seen)

theorem start_holds (o : Outline sv) (T : Tables S) (now : Int) : o.Holds (.start T now) :=
  fun _ => ⟨rfl, by ext; simp [Db.locks, System.start, Db.quiescent]⟩

/-- A step of one transaction that leaves the committed rows and the others' locks alone. -/
private theorem holds_set (o : Outline sv) {s : System S L ι α} (h : o.Holds s) (t : TxnId)
    (db : Db S L) (session : Session S L ι α) (hc : db.committed = s.db.committed)
    (hf : ∀ u, u ≠ t → db.own u = s.db.own u ∧ db.locks u = s.db.locks u)
    (ht : match session with
      | .running call now p => o.At db.committed (db.own t) (db.locks t) call now p
      | _ => db.own t = Own.empty ∧ db.locks t = ∅) :
    o.Holds (s.set t db session) := by
  intro u
  by_cases hu : u = t
  · subst hu
    simpa [System.set] using ht
  · have := h u
    simp only [System.set, Function.update_of_ne hu, (hf u hu).1, (hf u hu).2, hc]
    exact this

private theorem holds_rollback (o : Outline sv) {s : System S L ι α} (h : o.Holds s) (t : TxnId)
    (call : ι) (a : α) : o.Holds (s.set t (s.db.rollback t) (.finished call a)) := by
  refine holds_set o h t _ _ rfl (fun u hu => ?_) ?_
  · simp [Db.own_rollback, Db.locks_rollback, hu]
  · simp [Db.own_rollback, Db.locks_rollback]

private theorem holds_commit (o : Outline sv) {s : System S L ι α} (h : o.Holds s) (t : TxnId)
    (call : ι) (now : Int) (a : α) (hs : s.sessions t = .running call now (.commit a)) :
    o.Holds (s.set t (s.db.commit t) (.finished call a)) := by
  have ht := h t
  simp only [hs] at ht
  intro u
  by_cases hu : u = t
  · subst hu
    simp [System.set, Db.own_commit, Db.locks_commit]
  · have hu' := h u
    simp only [System.set, Function.update_of_ne hu, Db.own_commit, Db.locks_commit, hu, if_false]
    split at hu'
    · exact o.stable hu' ht (fun tb k hk => s.db.own_disjoint (Ne.symm hu) tb k hk)
        (fun x hx => s.db.locks_disjoint (Ne.symm hu) hx)
    · exact hu'

/-- The step rule: the outline survives, and what the step commits is a declared effect. -/
theorem step_holds (o : Outline sv) {s s' : System S L ι α} {a : Action S ι} (h : o.Holds s)
    (hs : s.step sv a = some s') : o.Holds s' ∧ o.Commits s s' a := by
  cases System.step_cases hs with
  | @begin t call hi =>
    have ht := h t
    simp only [hi] at ht
    refine ⟨holds_set o h t _ _ rfl (fun _ _ => ⟨rfl, rfl⟩) ?_, .silent (by simp) rfl⟩
    simp only [ht.1, ht.2]
    exact o.begins _ _ _
  | @commit t _ call now answer hr =>
    refine ⟨holds_commit o h t call now answer hr, .commit hr rfl ?_⟩
    have ht := h t
    simp only [hr] at ht
    exact o.commits ht
  | rollback hr =>
    exact ⟨holds_rollback o h _ _ _, .silent (by rintro _ _ _ _ _ ⟨⟩; simp [hr]) rfl⟩
  | fail hr _ =>
    exact ⟨holds_rollback o h _ _ _, .silent (by rintro _ _ _ _ _ ⟨⟩; simp [hr]) rfl⟩
  | @exec t _ _ _ _ _ _ _ hr he =>
    obtain ⟨hc, hf⟩ := Db.exec_frame he
    refine ⟨holds_set o h t _ _ hc hf ?_, .silent (by rintro _ _ _ _ _ ⟨⟩; simp [hr]) hc⟩
    have ht := h t
    simp only [hr] at ht
    simpa only [hc] using o.execs ht he
  | abort => exact ⟨holds_rollback o h _ _ _, .silent (by simp) rfl⟩
  | tick => exact ⟨h, .silent (by simp) rfl⟩

/-- The run rule for a property of the state alone. -/
theorem along_rule (o : Outline sv) (C : System S L ι α → Action S ι → Prop)
    (P : System S L ι α → Prop)
    (step : ∀ {s s' a}, o.Holds s → C s a → s.step sv a = some s' → P s → P s')
    {s s' : System S L ι α} {as : List (Action S ι)} (h : o.Holds s) (hp : P s)
    (hc : s.Along sv C as) (hr : s.run sv as = some s') : o.Holds s' ∧ P s' := by
  induction as generalizing s with
  | nil =>
    cases hr
    exact ⟨h, hp⟩
  | cons a as ih =>
    obtain ⟨s₁, h₁, hr⟩ := Option.bind_eq_some_iff.mp hr
    exact ih (o.step_holds h h₁).1 (step h hc.1 h₁ hp) (hc.2 s₁ h₁) hr

/-- The run rule, for a property of the state and of a history variable, which every step
that meets `C` keeps. -/
theorem run_rule {M : Type} (o : Outline sv) (C : System S L ι α → Action S ι → Prop)
    (f : System S L ι α → Action S ι → M → M) (P : System S L ι α → M → Prop)
    (step : ∀ {s s' a m}, C s a → o.Commits s s' a → P s m → P s' (f s a m))
    {s s' : System S L ι α} {as : List (Action S ι)} {m : M} (h : o.Holds s) (hp : P s m)
    (hc : s.Along sv C as) (hr : s.run sv as = some s') :
    o.Holds s' ∧ P s' (s.history sv f as m) := by
  induction as generalizing s m with
  | nil =>
    cases hr
    exact ⟨h, hp⟩
  | cons a as ih =>
    obtain ⟨s₁, h₁, hr⟩ := Option.bind_eq_some_iff.mp hr
    obtain ⟨hh, hcommit⟩ := o.step_holds h h₁
    have := ih hh (step hc.1 hcommit hp) (hc.2 s₁ h₁) hr
    simpa only [System.history, h₁, Option.elim_some] using this

theorem along_true (s : System S L ι α) (as : List (Action S ι)) :
    s.Along sv (fun _ _ => True) as := by
  induction as generalizing s with
  | nil => trivial
  | cons a as ih => exact ⟨trivial, fun s' _ => ih s'⟩

/-- What holds at the start, depends on the rows alone and is kept by every declared effect
holds of the committed tables after any interleaving. -/
theorem run_invariant (o : Outline sv) (I : Tables S → Prop)
    (hrows : ∀ T T', T'.rows = T.rows → I T → I T')
    (hI : ∀ call now a T T', o.Effect call now a T.rows T'.rows → I T → I T') {s s' : System S L ι α}
    {as : List (Action S ι)} (h : o.Holds s) (hs : I s.db.tables) (hr : s.run sv as = some s') :
    I s'.db.tables := by
  refine (o.run_rule (fun _ _ => True) (fun _ _ => id) (fun s (_ : Unit) => I s.db.tables) ?_ h
    (m := ()) hs (along_true s as) hr).2
  intro s s' a m _ hc hp
  cases hc with
  | silent _ hc => exact hrows s.db.tables s'.db.tables hc hp
  | commit _ _ he => exact hI _ _ _ s.db.tables s'.db.tables he hp

end Outline
end LlmGateway.Lib.ReadCommitted
