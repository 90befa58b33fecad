import Mathlib.Data.List.Infix

/-! Texts that run up to the first occurrence of a closing one. -/
namespace LlmGateway.Lib.Delimited
variable {α : Type} {close body input rest : List α}

/-- Nowhere within `body ++ close` does `close` begin before it does at the end. -/
def EndsAt (close body : List α) : Prop := ∀ i < body.length, ¬ close <+: (body ++ close).drop i

theorem EndsAt.nil (close : List α) : EndsAt close [] := fun _ h => absurd h (Nat.not_lt_zero _)

theorem endsAt_cons {a : α} : EndsAt close (a :: body) ↔ ¬ close <+: a :: body ++ close ∧ EndsAt close body := by
  constructor
  · intro h
    exact ⟨h 0 (Nat.succ_pos _), fun i hi => h (i + 1) (Nat.succ_lt_succ hi)⟩
  · rintro ⟨first, later⟩ i hi
    cases i with
    | zero => exact first
    | succ i => exact later i (Nat.lt_of_succ_lt_succ hi)

/-- What follows a text that long or longer does not matter. -/
theorem prefix_append_iff {text : List α} (long : close.length ≤ text.length) :
    close <+: text ++ rest ↔ close <+: text :=
  ⟨fun h => List.prefix_of_prefix_length_le h (List.prefix_append ..) long, fun h => h.trans (List.prefix_append ..)⟩

/-- The closing text does not begin at the head of an unfinished body. -/
theorem EndsAt.not_prefix {a : α} (h : EndsAt close (a :: body)) (rest : List α) :
    ¬ close <+: a :: body ++ close ++ rest := by
  rw [prefix_append_iff]
  · exact (endsAt_cons.mp h).1
  · rw [List.length_append]
    omega

theorem EndsAt.not_infix (nonempty : close ≠ []) (h : EndsAt close body) : ¬ close <:+: body := by
  induction body with
  | nil => simpa using nonempty
  | cons a body ih =>
    rw [endsAt_cons] at h
    rw [List.infix_cons_iff, not_or]
    exact ⟨fun first => h.1 (first.trans (List.prefix_append ..)), ih h.2⟩

theorem endsAt_of_not_mem {a : α} (h : a ∉ body) : EndsAt [a] body := by
  induction body with
  | nil => exact .nil [a]
  | cons b body ih =>
    rw [List.mem_cons, not_or] at h
    refine endsAt_cons.mpr ⟨fun first => h.1 ?_, ih h.2⟩
    exact (List.cons_prefix_cons.mp first).1

variable [DecidableEq α]

instance : Decidable (EndsAt close body) := inferInstanceAs (Decidable (∀ i < body.length, _))

/-- What is before the first occurrence of `close`, and what is after it. -/
def cut (close : List α) : List α → Option (List α × List α)
  | [] => none
  | a :: input =>
    if close.isPrefixOf (a :: input) then some ([], (a :: input).drop close.length)
    else (cut close input).map fun (body, rest) => (a :: body, rest)

theorem cut_eq_some (h : cut close input = some (body, rest)) :
    input = body ++ close ++ rest ∧ EndsAt close body := by
  induction input generalizing body with
  | nil => cases h
  | cons a input ih =>
    rw [cut] at h
    split at h
    next here =>
      cases h
      refine ⟨?_, .nil close⟩
      rw [List.nil_append]
      exact (List.prefix_append_drop (List.isPrefixOf_iff_prefix.mp here))
    next elsewhere =>
      obtain ⟨⟨body', rest'⟩, found, heq⟩ := Option.map_eq_some_iff.mp h
      cases heq
      obtain ⟨rfl, ends⟩ := ih found
      refine ⟨rfl, endsAt_cons.mpr ⟨fun here => elsewhere ?_, ends⟩⟩
      rw [List.isPrefixOf_iff_prefix]
      exact here.trans (List.prefix_append ..)

section
variable (nonempty : close ≠ [])
include nonempty

theorem cut_append (h : EndsAt close body) (rest : List α) : cut close (body ++ close ++ rest) = some (body, rest) := by
  induction body with
  | nil =>
    obtain ⟨c, close, rfl⟩ := List.exists_cons_of_ne_nil nonempty
    rw [List.nil_append, List.cons_append, cut, if_pos]
    · rw [← List.cons_append, List.drop_left]
    · rw [← List.cons_append, List.isPrefixOf_iff_prefix]
      exact List.prefix_append ..
  | cons a body ih =>
    have later := ih (endsAt_cons.mp h).2
    rw [List.cons_append, List.cons_append, cut, if_neg, later]
    · rfl
    · rw [List.isPrefixOf_iff_prefix]
      exact h.not_prefix rest

theorem cut_eq_none : cut close input = none ↔ ¬ close <:+: input := by
  induction input with
  | nil => simp [cut, nonempty]
  | cons a input ih =>
    rw [cut, List.infix_cons_iff]
    split
    next here => simp [List.isPrefixOf_iff_prefix.mp here]
    next elsewhere =>
      rw [List.isPrefixOf_iff_prefix] at elsewhere
      rw [Option.map_eq_none_iff, ih]
      simp [elsewhere]

end

/-- A text either closes, at one place, or it does not hold the closing text. -/
theorem ends_or_not (nonempty : close ≠ []) (input : List α) :
    (∃ body rest, input = body ++ close ++ rest ∧ EndsAt close body) ∨ ¬ close <:+: input := by
  cases h : cut close input with
  | none => exact .inr ((cut_eq_none nonempty).mp h)
  | some found => exact .inl ⟨found.1, found.2, cut_eq_some h⟩

end LlmGateway.Lib.Delimited
