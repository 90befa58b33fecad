import Mathlib.Data.List.Sort
import Mathlib.Data.List.Nodup

/-! Rows in an order: which comes first, and which is the first of its key. -/
namespace LlmGateway.Lib.OrderBy

section
variable {α : Type} (r : α → α → Prop) [DecidableRel r]

/-- The rows in their order. -/
def orderBy (rows : List α) : List α := rows.insertionSort r

/-- The first of the rows in their order. -/
def first (rows : List α) : Option α := (orderBy r rows).head?

variable {r} {rows : List α} {a : α}

theorem mem_orderBy : a ∈ orderBy r rows ↔ a ∈ rows := List.mem_insertionSort r

theorem first_eq_none_iff : first r rows = none ↔ rows = [] := by
  rw [first, List.head?_eq_none_iff, orderBy, ← List.length_eq_zero_iff, List.length_insertionSort,
    List.length_eq_zero_iff]

variable [Std.Total r] [IsTrans α r]

theorem orderBy_pairwise (rows : List α) : (orderBy r rows).Pairwise r := List.pairwise_insertionSort r rows

/-- Where no two rows with a property are level, the first that has it is the one before all others that do. -/
theorem find?_orderBy_iff {p : α → Bool} (apart : ∀ a ∈ rows, ∀ b ∈ rows, p a → p b → r a b → r b a → a = b) :
    (orderBy r rows).find? p = some a ↔ a ∈ rows ∧ p a ∧ ∀ b ∈ rows, p b → r a b := by
  have refl (a : α) : r a a := (Std.Total.total (r := r) a a).elim id id
  have least {b : α} (h : (orderBy r rows).find? p = some b) : b ∈ rows ∧ p b ∧ ∀ c ∈ rows, p c → r b c := by
    obtain ⟨pb, before, after, split, none_⟩ := List.find?_eq_some_iff_append.mp h
    have ordered := orderBy_pairwise (r := r) rows
    rw [split] at ordered
    have mem (c : α) : c ∈ rows ↔ c ∈ before ∨ c = b ∨ c ∈ after := by
      rw [← mem_orderBy (r := r), split, List.mem_append, List.mem_cons]
    refine ⟨(mem b).mpr (.inr (.inl rfl)), pb, fun c hc pc => ?_⟩
    rcases (mem c).mp hc with hc | rfl | hc
    · exact absurd pc (by simpa using none_ c hc)
    · exact refl c
    · exact (List.pairwise_cons.mp (List.pairwise_append.mp ordered).2.1).1 c hc
  refine ⟨least, fun ⟨here, pa, ahead⟩ => ?_⟩
  cases h : (orderBy r rows).find? p with
  | none => exact absurd pa (List.find?_eq_none.mp h a (mem_orderBy.mpr here))
  | some b =>
    obtain ⟨there, pb, before⟩ := least h
    rw [apart b there a here pb pa (before a here pa) (ahead b there pb)]

/-- Where no two rows are level, the first is the one before all others. -/
theorem first_eq_some_iff (apart : ∀ a ∈ rows, ∀ b ∈ rows, r a b → r b a → a = b) :
    first r rows = some a ↔ a ∈ rows ∧ ∀ b ∈ rows, r a b := by
  have whole : first r rows = (orderBy r rows).find? fun _ => true := by
    rw [first]
    cases orderBy r rows <;> rfl
  rw [whole, find?_orderBy_iff fun a ha b hb _ _ => apart a ha b hb]
  simp

end

section
variable {α κ : Type} [DecidableEq κ] (key : α → κ)

/-- A row joins those of other keys. -/
def join (seen : List α) (row : α) : List α := if ∃ other ∈ seen, key other = key row then seen else seen ++ [row]

/-- The rows that are the first of their key, in the order they come in. -/
def firstPerKey (rows : List α) : List α := rows.foldl (join key) []

variable {key} {rows seen : List α} {row a : α}

theorem join_nodup (distinct : (seen.map key).Nodup) (row : α) : ((join key seen row).map key).Nodup := by
  unfold join
  split
  · exact distinct
  · next new =>
    rw [List.map_append, List.map_singleton, ← List.concat_eq_append]
    refine distinct.concat fun taken => new ?_
    obtain ⟨other, there, same⟩ := List.mem_map.mp taken
    exact ⟨other, there, same⟩

theorem foldl_join_nodup (distinct : (seen.map key).Nodup) (rows : List α) : ((rows.foldl (join key) seen).map key).Nodup := by
  induction rows generalizing seen with
  | nil => exact distinct
  | cons row rows ih => exact ih (join_nodup distinct row)

theorem firstPerKey_nodup (rows : List α) : ((firstPerKey key rows).map key).Nodup :=
  foldl_join_nodup (show (([] : List α).map key).Nodup from List.nodup_nil) rows

variable (seen) in
/-- A row of another key neither joins nor keeps from joining. -/
theorem join_of_ne (other : key row ≠ key a) :
    (a ∈ join key seen row ↔ a ∈ seen) ∧ ((∃ b ∈ join key seen row, key b = key a) ↔ ∃ b ∈ seen, key b = key a) := by
  have apart : a ≠ row := by
    rintro rfl
    exact other rfl
  unfold join
  split
  · exact ⟨.rfl, .rfl⟩
  · simp [apart, other, or_and_right, exists_or]

variable (seen) in
theorem join_of_eq (same : key row = key a) :
    (a ∈ join key seen row ↔ a ∈ seen ∨ ((¬ ∃ b ∈ seen, key b = key a) ∧ row = a)) ∧
      ∃ b ∈ join key seen row, key b = key a := by
  unfold join
  rw [same]
  split
  · next taken => exact ⟨⟨.inl, fun h => h.elim id fun h => absurd taken h.1⟩, taken⟩
  · next new =>
    refine ⟨?_, row, List.mem_append_right _ List.mem_cons_self, same⟩
    rw [List.mem_append, List.mem_singleton, and_iff_right new, eq_comm (a := a)]

theorem mem_foldl_join (rows : List α) : a ∈ rows.foldl (join key) seen ↔
    a ∈ seen ∨ ((¬ ∃ b ∈ seen, key b = key a) ∧ rows.find? (fun b => key b = key a) = some a) := by
  induction rows generalizing seen with
  | nil => simp
  | cons row rows ih =>
    rw [List.foldl_cons, ih, List.find?_cons]
    by_cases same : key row = key a
    · obtain ⟨joins, taken⟩ := join_of_eq seen same
      rw [joins]
      simp only [taken, not_true_eq_false, false_and, or_false, same, decide_true, Option.some.injEq]
    · obtain ⟨joins, taken⟩ := join_of_ne seen same
      rw [joins, taken]
      simp only [same, decide_false]

theorem mem_firstPerKey : a ∈ firstPerKey key rows ↔ rows.find? (fun b => key b = key a) = some a := by
  rw [firstPerKey, mem_foldl_join]
  simp

variable (key) in
/-- Every key has its first row. -/
theorem exists_firstPerKey (here : a ∈ rows) : ∃ b ∈ firstPerKey key rows, key b = key a := by
  cases found : rows.find? (fun b => key b = key a) with
  | none => exact absurd (decide_eq_true rfl) (List.find?_eq_none.mp found a here)
  | some b =>
    have same : key b = key a := by simpa using List.find?_some found
    exact ⟨b, mem_firstPerKey.mpr (by rwa [same]), same⟩

theorem foldl_join_sublist (rows : List α) : (rows.foldl (join key) seen).Sublist (seen ++ rows) := by
  induction rows generalizing seen with
  | nil => rw [List.append_nil, List.foldl_nil]
  | cons row rows ih =>
    rw [List.foldl_cons, ← List.singleton_append, ← List.append_assoc]
    refine ih.trans (List.Sublist.append_right ?_ rows)
    unfold join
    split
    · exact List.sublist_append_left seen [row]
    · exact List.Sublist.refl _

theorem firstPerKey_sublist (rows : List α) : (firstPerKey key rows).Sublist rows := foldl_join_sublist rows

/-- In an order, the first of a key is the one before all others of its key. -/
theorem mem_firstPerKey_orderBy {r : α → α → Prop} [DecidableRel r] [Std.Total r] [IsTrans α r]
    (apart : ∀ a ∈ rows, ∀ b ∈ rows, key a = key b → r a b → r b a → a = b) :
    a ∈ firstPerKey key (orderBy r rows) ↔ a ∈ rows ∧ ∀ b ∈ rows, key b = key a → r a b := by
  rw [mem_firstPerKey, find?_orderBy_iff fun b hb c hc pb pc =>
    apart b hb c hc ((of_decide_eq_true pb).trans (of_decide_eq_true pc).symm)]
  simp

end
end LlmGateway.Lib.OrderBy
