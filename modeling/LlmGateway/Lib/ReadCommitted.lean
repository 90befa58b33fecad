import Mathlib.Algebra.BigOperators.Group.Finset.Basic
import Mathlib.Data.Finset.Basic
import Mathlib.Logic.Function.Basic

/-! Row-locking transactions at READ COMMITTED, executed one statement at a time.
Tables, keys, rows and advisory lock keys are arbitrary types. -/
namespace LlmGateway.Lib.ReadCommitted

abbrev TxnId := Nat

/-- Tables with typed keys and rows. `valid` is what a row must meet by itself, its CHECK clauses and column
ranges; `references` what its foreign keys must. -/
structure Schema where
  Table : Type
  Key : Table → Type
  Row : Table → Type
  valid : (tb : Table) → Row tb → Bool
  references : (tb : Table) → Key tb → Bool
  [decTable : DecidableEq Table]
  [decKey : (tb : Table) → DecidableEq (Key tb)]

attribute [instance] Schema.decTable Schema.decKey

/-- Every constraint a written row must meet. -/
def Schema.check (S : Schema) (tb : S.Table) (k : S.Key tb) (row : S.Row tb) : Bool :=
  S.references tb k && S.valid tb row

theorem Schema.valid_of_check {S : Schema} {tb : S.Table} {k : S.Key tb} {row : S.Row tb}
    (h : S.check tb k row = true) : S.valid tb row = true :=
  (Bool.and_eq_true_iff.mp h).2

/-- What a reader without pending writes sees. -/
abbrev Rows (S : Schema) := (tb : S.Table) → S.Key tb → Option (S.Row tb)

/-- The versions one transaction holds, locked or written. -/
abbrev Own (S : Schema) := (tb : S.Table) → S.Key tb → Option (Option (S.Row tb))

/-- The committed rows after the holder of `own` commits. -/
def Own.install {S : Schema} (own : Own S) (σ : Rows S) : Rows S :=
  fun tb k => (own tb k).getD (σ tb k)

/-- A finite database state: every row present is listed in `keys`. -/
structure Tables (S : Schema) where
  rows : Rows S
  keys : (tb : S.Table) → Finset (S.Key tb)
  mem_keys : ∀ tb k, rows tb k ≠ none → k ∈ keys tb

/-- The sum of a column expression over the rows of one table. -/
def Tables.sum {S : Schema} {M : Type} [AddCommMonoid M] (T : Tables S) (tb : S.Table)
    (f : S.Key tb → S.Row tb → M) : M :=
  ∑ k ∈ T.keys tb, (T.rows tb k).elim 0 (f k)

/-- The committed rows, the row locks with the version each holder will install,
and the transaction-scoped advisory locks. -/
structure Db (S : Schema) (L : Type) where
  committed : Rows S
  held : (tb : S.Table) → S.Key tb → Option (TxnId × Option (S.Row tb))
  advisory : L → Option TxnId
  keys : (tb : S.Table) → Finset (S.Key tb)
  mem_keys : ∀ tb k, committed tb k ≠ none ∨ held tb k ≠ none → k ∈ keys tb

variable {S : Schema} {L α ι : Type}

namespace Db

def tables (db : Db S L) : Tables S :=
  ⟨db.committed, db.keys, fun tb k h => db.mem_keys tb k (.inl h)⟩

/-- No transaction is open on these tables. -/
def quiescent (T : Tables S) : Db S L where
  committed := T.rows
  held _ _ := none
  advisory _ := none
  keys := T.keys
  mem_keys tb k h := T.mem_keys tb k (by simpa using h)

/-- The versions transaction `t` has locked or written. -/
def own (db : Db S L) (t : TxnId) : Own S := fun tb k =>
  match db.held tb k with
  | some (u, v) => if u = t then some v else none
  | none => none

/-- Own writes over the latest committed version. -/
def visible (db : Db S L) (t : TxnId) : Rows S := (db.own t).install db.committed

def lockedByOther (db : Db S L) (t : TxnId) (tb : S.Table) (k : S.Key tb) : Bool :=
  match db.held tb k with
  | some (u, _) => u ≠ t
  | none => false

/-- Lock the rows `ks` for `t`, recording the version it will install at each. -/
def hold (db : Db S L) (t : TxnId) (tb : S.Table) (ks : Finset (S.Key tb))
    (v : S.Key tb → Option (S.Row tb)) : Db S L where
  committed := db.committed
  held := Function.update db.held tb fun k => if k ∈ ks then some (t, v k) else db.held tb k
  advisory := db.advisory
  keys := Function.update db.keys tb (db.keys tb ∪ ks)
  mem_keys tb' k h := by
    by_cases ht : tb' = tb
    · subst ht
      by_cases hk : k ∈ ks
      · simp [hk]
      · simp only [Function.update_self, hk, if_false] at h
        simp [db.mem_keys tb' k h]
    · simp only [Function.update_of_ne ht] at h ⊢
      exact db.mem_keys tb' k h

/-- Take an advisory lock for `t`. -/
def lock (db : Db S L) [DecidableEq L] (t : TxnId) (x : L) : Db S L :=
  { db with advisory := Function.update db.advisory x (some t) }

/-- Install every version `t` holds and release its locks. -/
def commit (db : Db S L) (t : TxnId) : Db S L where
  committed tb k := db.visible t tb k
  held tb k := if db.lockedByOther t tb k then db.held tb k else none
  advisory x := if db.advisory x = some t then none else db.advisory x
  keys := db.keys
  mem_keys tb k h := by
    apply db.mem_keys tb k
    by_contra hn
    push Not at hn
    obtain ⟨hc, hh⟩ := hn
    simp [visible, own, Own.install, lockedByOther, hc, hh] at h

/-- Forget every version `t` holds and release its locks. -/
def rollback (db : Db S L) (t : TxnId) : Db S L where
  committed := db.committed
  held tb k := if db.lockedByOther t tb k then db.held tb k else none
  advisory x := if db.advisory x = some t then none else db.advisory x
  keys := db.keys
  mem_keys tb k h := by
    apply db.mem_keys tb k
    by_contra hn
    push Not at hn
    obtain ⟨hc, hh⟩ := hn
    simp [lockedByOther, hc, hh] at h

end Db

/-- The statement forms a transaction may issue. Row access is by unique key;
`updateSkipLocked` is an UPDATE over the rows a SELECT .. FOR UPDATE SKIP LOCKED locks. -/
inductive Stmt (S : Schema) (L : Type) where
  | advisoryXactLock (x : L)
  | select (tb : S.Table) (k : S.Key tb)
  | selectForUpdate (tb : S.Table) (k : S.Key tb)
  | update (tb : S.Table) (k : S.Key tb) (pred : S.Row tb → Bool) (set : S.Row tb → S.Row tb)
  | insert (tb : S.Table) (k : S.Key tb) (row : S.Row tb)
  | insertOnConflictDoNothing (tb : S.Table) (k : S.Key tb) (row : S.Row tb)
  | updateSkipLocked (tb : S.Table) (pred : S.Key tb → S.Row tb → Bool)
      (set : S.Row tb → S.Row tb)

/-- The rows a statement returns. -/
@[reducible] def Stmt.Result : Stmt S L → Type
  | .advisoryXactLock _ => Unit
  | .select tb _ => Option (S.Row tb)
  | .selectForUpdate tb _ => Option (S.Row tb)
  | .update tb _ _ _ => Option (S.Row tb)
  | .insert _ _ _ => Unit
  | .insertOnConflictDoNothing _ _ _ => Unit
  | .updateSkipLocked tb _ _ => Multiset (S.Row tb)

/-- A transaction: statements, each continuing on its result, ended by commit or rollback. -/
inductive Txn (S : Schema) (L α : Type) where
  | commit (a : α)
  | rollback (a : α)
  | exec (s : Stmt S L) (next : s.Result → Txn S L α)

/-- A statement waits for a lock, violates a constraint, or succeeds. -/
inductive Outcome (S : Schema) (L R : Type) where
  | blocked
  | failed
  | ok (db : Db S L) (result : R)

/-- The rows a SKIP LOCKED scan locks: those its snapshot showed, that no other transaction
has locked and that meet the predicate in the version locked. -/
def Db.unlocked (db : Db S L) (t : TxnId) (tb : S.Table) (seen : S.Key tb → Bool)
    (pred : S.Key tb → S.Row tb → Bool) : Finset (S.Key tb) :=
  (db.keys tb).filter fun k =>
    seen k && !db.lockedByOther t tb k && ((db.visible t tb k).any (pred k))

/-- One statement of transaction `t`. A row another transaction has locked is read in its
latest committed version, and a statement that would write it waits. -/
def Db.exec [DecidableEq L] (db : Db S L) (t : TxnId) (seen : (tb : S.Table) → S.Key tb → Bool) :
    (s : Stmt S L) → Outcome S L s.Result
  | .advisoryXactLock x =>
    if db.advisory x = none ∨ db.advisory x = some t then .ok (db.lock t x) () else .blocked
  | .select tb k => .ok db (db.visible t tb k)
  | .selectForUpdate tb k =>
    match db.visible t tb k with
    | none => .ok db none
    | some r =>
      if db.lockedByOther t tb k then .blocked
      else .ok (db.hold t tb {k} fun _ => some r) (some r)
  | .update tb k pred set =>
    match db.visible t tb k with
    | none => .ok db none
    | some r =>
      if !pred r then .ok db none
      else if db.lockedByOther t tb k then .blocked
      else if S.check tb k (set r) then
        .ok (db.hold t tb {k} fun _ => some (set r)) (some (set r))
      else .failed
  -- a row that violates its own constraints is refused before its key is looked up
  | .insert tb k row =>
    if S.valid tb row then
      match db.visible t tb k with
      | some _ => .failed
      | none =>
        if db.lockedByOther t tb k then .blocked
        else if S.check tb k row then .ok (db.hold t tb {k} fun _ => some row) ()
        else .failed
    else .failed
  | .insertOnConflictDoNothing tb k row =>
    if S.valid tb row then
      match db.visible t tb k with
      | some _ => .ok db ()
      | none =>
        if db.lockedByOther t tb k then .blocked
        else if S.check tb k row then .ok (db.hold t tb {k} fun _ => some row) ()
        else .failed
    else .failed
  | .updateSkipLocked tb pred set =>
    let ks := db.unlocked t tb (seen tb) pred
    if ∀ k ∈ ks, (db.visible t tb k).all fun r => S.check tb k (set r) then
      .ok (db.hold t tb ks fun k => (db.visible t tb k).map set)
        (ks.val.filterMap fun k => (db.visible t tb k).map set)
    else .failed

/-- What a client runs: a program for each call, started at the server's clock, and the
answer it gives when the database fails it. -/
structure Service (S : Schema) (L ι α : Type) where
  program : ι → Int → Txn S L α
  unavailable : α

/-- A running transaction keeps the clock reading it began at. -/
inductive Session (S : Schema) (L ι α : Type) where
  | idle
  | running (call : ι) (now : Int) (rest : Txn S L α)
  | finished (call : ι) (answer : α)

structure System (S : Schema) (L ι α : Type) where
  db : Db S L
  now : Int
  sessions : TxnId → Session S L ι α

/-- `seen` says which rows the statement's snapshot showed; only SKIP LOCKED scans use it. -/
inductive Action (S : Schema) (ι : Type) where
  | begin (t : TxnId) (call : ι)
  | exec (t : TxnId) (seen : (tb : S.Table) → S.Key tb → Bool)
  | abort (t : TxnId)
  | tick (now : Int)

namespace System

def set (s : System S L ι α) (t : TxnId) (db : Db S L) (session : Session S L ι α) :
    System S L ι α :=
  { s with db := db, sessions := Function.update s.sessions t session }

/-- One scheduler step; `none` when the action is not enabled. -/
def step [DecidableEq L] (sv : Service S L ι α) (s : System S L ι α) :
    Action S ι → Option (System S L ι α)
  | .begin t call =>
    match s.sessions t with
    | .idle => some (s.set t s.db (.running call s.now (sv.program call s.now)))
    | _ => none
  | .exec t seen =>
    match s.sessions t with
    | .running call _ (.commit a) => some (s.set t (s.db.commit t) (.finished call a))
    | .running call _ (.rollback a) => some (s.set t (s.db.rollback t) (.finished call a))
    | .running call now (.exec stmt next) =>
      match s.db.exec t seen stmt with
      | .blocked => none
      | .failed => some (s.set t (s.db.rollback t) (.finished call sv.unavailable))
      | .ok db r => some (s.set t db (.running call now (next r)))
    | _ => none
  | .abort t =>
    match s.sessions t with
    | .running call _ _ => some (s.set t (s.db.rollback t) (.finished call sv.unavailable))
    | _ => none
  | .tick now => if s.now ≤ now then some { s with now := now } else none

def run [DecidableEq L] (sv : Service S L ι α) (s : System S L ι α) :
    List (Action S ι) → Option (System S L ι α)
  | [] => some s
  | a :: rest => (s.step sv a).bind fun s' => run sv s' rest

/-- Every step of the run meets `C`, a condition on the state before it. -/
def Along [DecidableEq L] (sv : Service S L ι α) (C : System S L ι α → Action S ι → Prop)
    (s : System S L ι α) : List (Action S ι) → Prop
  | [] => True
  | a :: rest => C s a ∧ ∀ s', s.step sv a = some s' → Along sv C s' rest

instance decidableAlong [DecidableEq L] (sv : Service S L ι α)
    (C : System S L ι α → Action S ι → Prop) [∀ s a, Decidable (C s a)] :
    (s : System S L ι α) → (as : List (Action S ι)) → Decidable (s.Along sv C as)
  | _, [] => .isTrue trivial
  | s, a :: rest =>
    have : Decidable (∀ s', s.step sv a = some s' → s'.Along sv C rest) :=
      match s.step sv a with
      | none => .isTrue fun _ h => nomatch h
      | some s₁ =>
        have := decidableAlong sv C s₁ rest
        decidable_of_iff (s₁.Along sv C rest) (by simp)
    inferInstanceAs (Decidable (C s a ∧ ∀ s', s.step sv a = some s' → s'.Along sv C rest))

/-- A history variable: `f` updates it at each step, from the state before the step. -/
def history [DecidableEq L] {M : Type} (sv : Service S L ι α)
    (f : System S L ι α → Action S ι → M → M) (s : System S L ι α) : List (Action S ι) → M → M
  | [], m => m
  | a :: rest, m => (s.step sv a).elim (f s a m) fun s' => history sv f s' rest (f s a m)

/-- Two history variables side by side. -/
theorem history_prod [DecidableEq L] {M N : Type} (sv : Service S L ι α)
    (f : System S L ι α → Action S ι → M → M) (g : System S L ι α → Action S ι → N → N) (s : System S L ι α)
    (as : List (Action S ι)) (m : M) (n : N) :
    s.history sv (fun s a p => (f s a p.1, g s a p.2)) as (m, n) = (s.history sv f as m, s.history sv g as n) := by
  induction as generalizing s m n with
  | nil => rfl
  | cons a as ih =>
    simp only [history]
    cases s.step sv a with
    | none => rfl
    | some s' => exact ih s' (f s a m) (g s a n)

/-- `n` statements of transaction `t`, each on a snapshot that showed every row. -/
def statements (t : TxnId) (n : Nat) : List (Action S ι) :=
  List.replicate n (.exec t fun _ _ => true)

/-- Tables with no transaction open. -/
def start (T : Tables S) (now : Int) : System S L ι α :=
  ⟨.quiescent T, now, fun _ => .idle⟩

end System
end LlmGateway.Lib.ReadCommitted
