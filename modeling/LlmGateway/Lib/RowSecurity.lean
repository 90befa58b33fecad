import Mathlib.Algebra.Order.Group.Multiset

/-! Rows that have owners, and statements under a policy on the owner: what they may read, what they may
write, and that one owner's rows are all that another's statements leave alone. -/
namespace LlmGateway.Lib.RowSecurity

/-- What a statement takes out of the tables and what it puts in. An updated row is in both. -/
structure Delta (R : Type) where
  removed : Multiset R
  added : Multiset R

/-- A statement: from the rows it is shown, its answer and its changes. -/
abbrev Query (R α : Type) := Multiset R → α × Delta R

variable {R T α : Type} [DecidableEq T] (owner : R → T)

/-- The rows of the current owner; no rows when there is none. -/
def slice (current : Option T) (rows : Multiset R) : Multiset R :=
  rows.filter fun r => current = some (owner r)

/-- Only rows of the current owner change. -/
def Delta.Within (current : Option T) (d : Delta R) : Prop :=
  (∀ r ∈ d.removed, current = some (owner r)) ∧ ∀ r ∈ d.added, current = some (owner r)

section
variable {owner} {current : Option T} {rows : Multiset R}

@[simp] theorem slice_slice : slice owner current (slice owner current rows) = slice owner current rows := by
  simp [slice, Multiset.filter_filter]

@[simp] theorem slice_none : slice owner none rows = 0 := by
  simp [slice]

theorem mem_slice {r : R} : r ∈ slice owner current rows ↔ r ∈ rows ∧ current = some (owner r) :=
  Multiset.mem_filter

omit [DecidableEq T] in
/-- A change to no owner's rows is no change. -/
theorem Delta.Within.of_none {d : Delta R} (h : d.Within owner none) : d.Within owner current := by
  constructor
  · intro r hr
    cases h.1 r hr
  · intro r hr
    cases h.2 r hr

private theorem filter_of_none {p : R → Prop} [DecidablePred p] {s : Multiset R} (h : ∀ r ∈ s, ¬ p r) : s.filter p = 0 :=
  Multiset.filter_eq_nil.mpr h

end

variable [DecidableEq R]

def Delta.apply (rows : Multiset R) (d : Delta R) : Multiset R := rows - d.removed + d.added

/-- The statement under the policy: it is shown the current owner's rows, it changes none but these, and it
fails when a row it writes has another owner. -/
def Query.under (q : Query R α) (current : Option T) (rows : Multiset R) : Option (α × Delta R) :=
  let shown := slice owner current rows
  let (answer, d) := q shown
  if ∀ r ∈ d.added, current = some (owner r) then some (answer, ⟨d.removed ∩ shown, d.added⟩) else none

variable {owner} {current : Option T} {rows : Multiset R}

variable (rows) in
/-- The rows of other owners make no difference to a statement. -/
theorem Query.under_slice (q : Query R α) :
    q.under owner current (slice owner current rows) = q.under owner current rows := by
  rw [Query.under, slice_slice, Query.under]

theorem Query.under_within {q : Query R α} {answer : α} {d : Delta R}
    (h : q.under owner current rows = some (answer, d)) : d.Within owner current := by
  unfold Query.under at h
  dsimp only at h
  split at h
  · rename_i checked
    obtain ⟨rfl, rfl⟩ := Prod.mk.inj (Option.some.inj h)
    refine ⟨fun r hr => ?_, checked⟩
    exact (mem_slice.mp (Multiset.mem_of_le Multiset.inter_le_right hr)).2
  · cases h

/-- What changes within one owner's rows leaves every other owner's as they were. -/
theorem slice_apply_of_ne {d : Delta R} {other : Option T} (h : d.Within owner other) (hne : other ≠ current) :
    slice owner current (d.apply rows) = slice owner current rows := by
  have foreign : ∀ r, other = some (owner r) → ¬ current = some (owner r) :=
    fun r ho hc => hne (ho.trans hc.symm)
  unfold slice Delta.apply
  rw [Multiset.filter_add, Multiset.filter_sub, filter_of_none fun r hr => foreign r (h.1 r hr),
    filter_of_none fun r hr => foreign r (h.2 r hr), Multiset.sub_zero, Multiset.add_zero]

/-- An owner's own changes are made to its own rows. -/
theorem slice_apply_self {d : Delta R} (h : d.Within owner current) :
    slice owner current (d.apply rows) = d.apply (slice owner current rows) := by
  unfold slice Delta.apply
  rw [Multiset.filter_add, Multiset.filter_sub, Multiset.filter_eq_self.mpr h.1, Multiset.filter_eq_self.mpr h.2]

section Deltas
variable {ds : List (Delta R)}

theorem slice_foldl_of_ne {other : Option T} (h : ∀ d ∈ ds, d.Within owner other) (hne : other ≠ current) :
    slice owner current (ds.foldl Delta.apply rows) = slice owner current rows := by
  induction ds generalizing rows with
  | nil => rfl
  | cons d ds ih =>
    rw [List.foldl_cons, ih fun d' hd' => h d' (List.mem_cons_of_mem _ hd'),
      slice_apply_of_ne (h d List.mem_cons_self) hne]

theorem slice_foldl_self (h : ∀ d ∈ ds, d.Within owner current) :
    slice owner current (ds.foldl Delta.apply rows) = ds.foldl Delta.apply (slice owner current rows) := by
  induction ds generalizing rows with
  | nil => rfl
  | cons d ds ih =>
    rw [List.foldl_cons, ih fun d' hd' => h d' (List.mem_cons_of_mem _ hd'),
      slice_apply_self (h d List.mem_cons_self), List.foldl_cons]

end Deltas

/-- Without an owner a statement is shown nothing and changes nothing. -/
theorem Query.under_none (q : Query R α) :
    q.under owner none rows = if (q 0).2.added = 0 then some ((q 0).1, ⟨0, 0⟩) else none := by
  have nobody : (∀ r ∈ (q 0).2.added, (none : Option T) = some (owner r)) ↔ (q 0).2.added = 0 := by
    simp [Multiset.eq_zero_iff_forall_notMem]
  unfold Query.under
  rw [slice_none]
  dsimp only
  by_cases h : (q 0).2.added = 0
  · rw [if_pos (nobody.mpr h), if_pos h, h, Multiset.inter_zero]
  · rw [if_neg (mt nobody.mp h), if_neg h]

end LlmGateway.Lib.RowSecurity
