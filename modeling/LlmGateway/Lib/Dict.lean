import Mathlib.Data.Finset.Basic

/-! Finite maps by lookup, with a finite set that lists the keys present. -/
namespace LlmGateway.Lib

structure Dict (K V : Type) where
  get : K → Option V
  keys : Finset K
  mem_keys : ∀ k, get k ≠ none → k ∈ keys

namespace Dict
variable {K V : Type}

def empty : Dict K V := ⟨fun _ => none, ∅, fun _ h => absurd rfl h⟩

/-- The keys whose value meets `p`. -/
def select (d : Dict K V) (p : V → Bool) : Finset K := d.keys.filter fun k => (d.get k).any p

theorem mem_select {d : Dict K V} {p : V → Bool} {k : K} :
    k ∈ d.select p ↔ ∃ v, d.get k = some v ∧ p v = true := by
  simp only [select, Finset.mem_filter, Option.any_eq_true]
  exact ⟨fun h => h.2, fun ⟨v, hv, hp⟩ => ⟨d.mem_keys k (by simp [hv]), v, hv, hp⟩⟩

variable [DecidableEq K]

def set (d : Dict K V) (k : K) (v : V) : Dict K V where
  get := Function.update d.get k (some v)
  keys := insert k d.keys
  mem_keys k' h := by
    by_cases hk : k' = k
    · simp [hk]
    · rw [Function.update_of_ne hk] at h
      exact Finset.mem_insert_of_mem (d.mem_keys k' h)

/-- Rewrite the values at `ks`. -/
def modify (d : Dict K V) (ks : Finset K) (f : V → V) : Dict K V where
  get k := if k ∈ ks then (d.get k).map f else d.get k
  keys := d.keys
  mem_keys k h := by
    apply d.mem_keys k
    intro hn
    simp [hn] at h

@[simp] theorem get_set (d : Dict K V) (k k' : K) (v : V) :
    (d.set k v).get k' = if k' = k then some v else d.get k' := by
  by_cases h : k' = k
  · simp [set, h]
  · simp [set, h]

@[simp] theorem get_modify (d : Dict K V) (ks : Finset K) (f : V → V) (k : K) :
    (d.modify ks f).get k = if k ∈ ks then (d.get k).map f else d.get k := rfl

def ofList (entries : List (K × V)) : Dict K V := entries.foldl (fun d entry => d.set entry.1 entry.2) empty

/-- A key has the value of its last entry. -/
theorem get_ofList (entries : List (K × V)) (k : K) : (ofList entries).get k = entries.reverse.lookup k := by
  induction entries using List.reverseRecOn with
  | nil => rfl
  | append_singleton entries entry ih =>
    obtain ⟨k', v⟩ := entry
    rw [ofList, List.foldl_append, ← ofList, List.reverse_append, List.reverse_singleton, List.singleton_append,
      List.lookup_cons]
    by_cases h : k = k'
    · simp [h]
    · simp [h, ih, beq_eq_false_iff_ne.mpr h]

theorem keys_ofList_eq_empty {entries : List (K × V)} : (ofList entries).keys = ∅ ↔ entries = [] := by
  rcases List.eq_nil_or_concat entries with rfl | ⟨front, entry, rfl⟩
  · exact iff_of_true rfl rfl
  · refine iff_of_false ?_ (by simp)
    rw [ofList, List.concat_eq_append, List.foldl_append]
    exact Finset.insert_ne_empty _ _

end Dict
end LlmGateway.Lib
