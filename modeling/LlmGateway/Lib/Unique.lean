import Mathlib.Data.List.Basic
import Mathlib.Data.List.Nodup

/-! The row a unique key selects. -/
namespace LlmGateway.Lib.Unique

variable {α κ : Type} {p : α → Bool} {rows : List α} {a b : α}

/-- A row that alone meets the condition is the first that does. -/
theorem find?_eq_some_iff (alone : ∀ a ∈ rows, ∀ b ∈ rows, p a → p b → a = b) :
    rows.find? p = some a ↔ a ∈ rows ∧ p a := by
  constructor
  · intro found
    exact ⟨List.mem_of_find?_eq_some found, List.find?_some found⟩
  · rintro ⟨ha, pa⟩
    cases found : rows.find? p with
    | none => exact absurd pa (List.find?_eq_none.mp found a ha)
    | some b => rw [alone b (List.mem_of_find?_eq_some found) a ha (List.find?_some found) pa]

variable {key : α → κ}

theorem key_inj (nodup : (rows.map key).Nodup) (ha : a ∈ rows) (hb : b ∈ rows) (h : key a = key b) : a = b :=
  List.inj_on_of_nodup_map nodup ha hb h

theorem notMem_keys (fresh : ∀ b ∈ rows, key b ≠ key a) : key a ∉ rows.map key := by
  rintro taken
  obtain ⟨b, hb, same⟩ := List.mem_map.mp taken
  exact fresh b hb same

theorem nodup_cons (nodup : (rows.map key).Nodup) (fresh : ∀ b ∈ rows, key b ≠ key a) :
    ((a :: rows).map key).Nodup :=
  List.nodup_cons.mpr ⟨notMem_keys fresh, nodup⟩

theorem nodup_concat (nodup : (rows.map key).Nodup) (fresh : ∀ b ∈ rows, key b ≠ key a) :
    ((rows ++ [a]).map key).Nodup := by
  rw [List.map_append, List.map_singleton, ← List.concat_eq_append]
  exact nodup.concat (notMem_keys fresh)

/-- Rewriting rows without their keys keeps the keys. -/
theorem map_key_map {f : α → α} (keeps : ∀ a, key (f a) = key a) (rows : List α) : (rows.map f).map key = rows.map key := by
  rw [List.map_map]
  exact List.map_congr_left fun a _ => keeps a

end LlmGateway.Lib.Unique
