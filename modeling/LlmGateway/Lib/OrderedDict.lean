import Mathlib.Data.List.Nodup

/-! Python's `dict`: a key keeps the place it was first put at, whatever is put there later. -/
namespace LlmGateway.Lib

structure OrderedDict (K V : Type) where
  entries : List (K × V)
  nodup : (entries.map Prod.fst).Nodup

namespace OrderedDict
variable {K V : Type}

def empty : OrderedDict K V := ⟨[], List.nodup_nil⟩

def values (d : OrderedDict K V) : List V := d.entries.map Prod.snd

variable [DecidableEq K]

def get (d : OrderedDict K V) (k : K) : Option V := d.entries.lookup k

/-- Put `v` in the place of `k`, or else at the end. -/
def put (k : K) (v : V) : List (K × V) → List (K × V)
  | [] => [(k, v)]
  | entry :: rest => if entry.1 = k then (k, v) :: rest else entry :: put k v rest

variable {k k' : K} {v v' : V} {entries : List (K × V)}

theorem mem_keys_put : k' ∈ (put k v entries).map Prod.fst ↔ k' = k ∨ k' ∈ entries.map Prod.fst := by
  induction entries with
  | nil => simp [put]
  | cons entry rest ih =>
    by_cases h : entry.1 = k
    · rw [put, if_pos h]
      simp [h]
    · rw [put, if_neg h, List.map_cons, List.mem_cons, ih, List.map_cons, List.mem_cons]
      tauto

theorem nodup_put (h : (entries.map Prod.fst).Nodup) : ((put k v entries).map Prod.fst).Nodup := by
  induction entries with
  | nil => simp [put]
  | cons entry rest ih =>
    obtain ⟨new, nodup⟩ := List.nodup_cons.mp h
    by_cases heq : entry.1 = k
    · rw [put, if_pos heq]
      exact List.nodup_cons.mpr ⟨heq ▸ new, nodup⟩
    · rw [put, if_neg heq]
      refine List.nodup_cons.mpr ⟨fun hm => ?_, ih nodup⟩
      rcases mem_keys_put.mp hm with same | old
      · exact heq same
      · exact new old

theorem lookup_put : (put k v entries).lookup k' = if k' = k then some v else entries.lookup k' := by
  induction entries with
  | nil => by_cases h : k' = k <;> grind [put]
  | cons entry rest ih => by_cases h : entry.1 = k <;> grind [put]

def set (d : OrderedDict K V) (k : K) (v : V) : OrderedDict K V := ⟨put k v d.entries, nodup_put d.nodup⟩

@[simp] theorem get_set (d : OrderedDict K V) (k k' : K) (v : V) :
    (d.set k v).get k' = if k' = k then some v else d.get k' := lookup_put

theorem mem_entries {d : OrderedDict K V} : (k, v) ∈ d.entries ↔ d.get k = some v := by
  obtain ⟨entries, nodup⟩ := d
  rw [get]
  induction entries with
  | nil => simp
  | cons entry rest ih =>
    obtain ⟨new, nodup⟩ := List.nodup_cons.mp nodup
    have ih := ih nodup
    obtain ⟨k', v'⟩ := entry
    by_cases h : k = k'
    · subst h
      have absent : (k, v) ∉ rest := fun hm => new (List.mem_map.mpr ⟨_, hm, rfl⟩)
      simp [absent, eq_comm]
    · simp [h, List.lookup_cons, beq_eq_false_iff_ne.mpr h] at ih ⊢
      exact ih

theorem mem_values {d : OrderedDict K V} : v ∈ d.values ↔ ∃ k, d.get k = some v := by
  simp only [values, List.mem_map, Prod.exists, exists_eq_right, mem_entries]

end OrderedDict
end LlmGateway.Lib
