import LlmGateway.Lib.ReadCommitted
import Mathlib.Algebra.BigOperators.Group.Finset.Piecewise

/-! Sums over a table, and how they move when rows are rewritten. -/
namespace LlmGateway.Lib.ReadCommitted.Tables
variable {S : Schema} {M : Type}

/-- Any finite set that lists the rows present gives the same sum. -/
theorem sum_eq_of_subset [AddCommMonoid M] (T : Tables S) (tb : S.Table)
    (f : S.Key tb → S.Row tb → M) (ks : Finset (S.Key tb))
    (h : ∀ k, T.rows tb k ≠ none → k ∈ ks) :
    T.sum tb f = ∑ k ∈ ks, (T.rows tb k).elim 0 (f k) := by
  have absent (k : S.Key tb) (hk : T.rows tb k = none) : (T.rows tb k).elim 0 (f k) = 0 := by
    simp [hk]
  have left : T.sum tb f = ∑ k ∈ T.keys tb ∪ ks, (T.rows tb k).elim 0 (f k) := by
    apply Finset.sum_subset Finset.subset_union_left
    intro k _ hk
    exact absent k (by_contra fun hn => hk (T.mem_keys tb k hn))
  rw [left]
  symm
  apply Finset.sum_subset Finset.subset_union_right
  intro k _ hk
  exact absent k (by_contra fun hn => hk (h k hn))

theorem sum_congr_rows [AddCommMonoid M] {T T' : Tables S} (h : T'.rows = T.rows) (tb : S.Table)
    (f : S.Key tb → S.Row tb → M) : T'.sum tb f = T.sum tb f := by
  rw [T'.sum_eq_of_subset tb f (T.keys tb) (fun k hk => T.mem_keys tb k (h ▸ hk)), h]
  rfl

/-- Rewriting the rows `ks` moves the sum by the change at those rows. Rows outside `ks`
may change too, as long as they contribute the same. -/
theorem sum_sub_of_agree [AddCommGroup M] (T T' : Tables S) {tb : S.Table}
    (f : S.Key tb → S.Row tb → M) (ks : Finset (S.Key tb))
    (h : ∀ k, k ∉ ks → (T'.rows tb k).elim 0 (f k) = (T.rows tb k).elim 0 (f k)) :
    T'.sum tb f - T.sum tb f =
      ∑ k ∈ ks, ((T'.rows tb k).elim 0 (f k) - (T.rows tb k).elim 0 (f k)) := by
  let all := T.keys tb ∪ T'.keys tb ∪ ks
  have hT : T.sum tb f = ∑ k ∈ all, (T.rows tb k).elim 0 (f k) :=
    T.sum_eq_of_subset tb f all fun k hk => by simp [all, T.mem_keys tb k hk]
  have hT' : T'.sum tb f = ∑ k ∈ all, (T'.rows tb k).elim 0 (f k) :=
    T'.sum_eq_of_subset tb f all fun k hk => by simp [all, T'.mem_keys tb k hk]
  rw [hT, hT', ← Finset.sum_sub_distrib]
  symm
  apply Finset.sum_subset Finset.subset_union_right
  intro k _ hk
  simp [h k hk]

theorem sum_sub_of_agree_one [AddCommGroup M] (T T' : Tables S) {tb : S.Table}
    (f : S.Key tb → S.Row tb → M) (k : S.Key tb)
    (h : ∀ k', k' ≠ k → (T'.rows tb k').elim 0 (f k') = (T.rows tb k').elim 0 (f k')) :
    T'.sum tb f - T.sum tb f = (T'.rows tb k).elim 0 (f k) - (T.rows tb k).elim 0 (f k) := by
  rw [sum_sub_of_agree T T' f {k} (fun k' hk => h k' (by simpa using hk))]
  simp

/-- Where no row contributes anything new, the sum stands still. -/
theorem sum_eq_of_agree [AddCommGroup M] (T T' : Tables S) {tb : S.Table}
    (f : S.Key tb → S.Row tb → M)
    (h : ∀ k, (T'.rows tb k).elim 0 (f k) = (T.rows tb k).elim 0 (f k)) :
    T'.sum tb f = T.sum tb f := by
  have := sum_sub_of_agree T T' f ∅ fun k _ => h k
  rwa [Finset.sum_empty, sub_eq_zero] at this

/-- One row written. -/
def put (T : Tables S) (tb : S.Table) (k : S.Key tb) (row : S.Row tb) : Tables S where
  rows := Function.update T.rows tb (Function.update (T.rows tb) k (some row))
  keys := Function.update T.keys tb (insert k (T.keys tb))
  mem_keys tb' k' h := by
    by_cases ht : tb' = tb
    · subst ht
      rw [Function.update_self] at h ⊢
      by_cases hk : k' = k
      · exact hk ▸ Finset.mem_insert_self _ _
      · rw [Function.update_of_ne hk] at h
        exact Finset.mem_insert_of_mem (T.mem_keys tb' k' h)
    · rw [Function.update_of_ne ht] at h ⊢
      exact T.mem_keys tb' k' h

theorem put_self (T : Tables S) (tb : S.Table) (k : S.Key tb) (row : S.Row tb) :
    (T.put tb k row).rows tb k = some row := by
  simp only [put, Function.update_self]

end LlmGateway.Lib.ReadCommitted.Tables
