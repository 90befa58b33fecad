import Mathlib.Data.Nat.Digits.Lemmas
import Mathlib.Data.List.Basic
import Mathlib.Tactic.Ring

/-! Texts made of pieces: numbers in a fixed number of digits, pieces of one length, and pieces set
off by a separator. -/
namespace LlmGateway.Lib

/-- The last `w` digits of `n` in base `b`, the highest first. -/
def fixedDigits (b w n : Nat) : List Char :=
  (List.range w).map fun i => Nat.digitChar (n / b ^ (w - 1 - i) % b)

@[simp] theorem fixedDigits_length (b w n : Nat) : (fixedDigits b w n).length = w := by
  rw [fixedDigits, List.length_map, List.length_range]

private theorem digitChar_injOn : ∀ d < 16, ∀ e < 16, Nat.digitChar d = Nat.digitChar e → d = e := by
  decide

/-- What no digit is, no number in digits contains. -/
theorem notMem_fixedDigits {b : Nat} (pos : 0 < b) {c : Char} (h : ∀ d < b, Nat.digitChar d ≠ c) (w n : Nat) :
    c ∉ fixedDigits b w n := by
  intro hc
  obtain ⟨i, -, hi⟩ := List.mem_map.mp hc
  exact h _ (Nat.mod_lt _ pos) hi

private theorem mod_pow_eq {b n m w : Nat} (h : ∀ j < w, n / b ^ j % b = m / b ^ j % b) :
    n % b ^ w = m % b ^ w := by
  induction w with
  | zero => rw [pow_zero, Nat.mod_one, Nat.mod_one]
  | succ w ih =>
    rw [Nat.mod_pow_succ, Nat.mod_pow_succ, ih fun j hj => h j (hj.trans (Nat.lt_succ_self w)),
      h w (Nat.lt_succ_self w)]

/-- Numbers of `w` digits are told apart by them. -/
theorem fixedDigits_inj {b w n m : Nat} (pos : 0 < b) (base : b ≤ 16) (hn : n < b ^ w) (hm : m < b ^ w)
    (h : fixedDigits b w n = fixedDigits b w m) : n = m := by
  have digit : ∀ j < w, n / b ^ j % b = m / b ^ j % b := by
    intro j hj
    have hi := List.map_inj_left.mp h (w - 1 - j) (List.mem_range.mpr (by omega))
    rw [show w - 1 - (w - 1 - j) = j by omega] at hi
    have low : ∀ x, x % b < 16 := fun x => (Nat.mod_lt x pos).trans_le base
    exact digitChar_injOn _ (low _) _ (low _) hi
  have same := mod_pow_eq digit
  rwa [Nat.mod_eq_of_lt hn, Nat.mod_eq_of_lt hm] at same

theorem fixedDigits_succ (b w n : Nat) :
    fixedDigits b (w + 1) n = Nat.digitChar (n / b ^ w % b) :: fixedDigits b w n := by
  rw [fixedDigits, List.range_succ_eq_map, List.map_cons, List.map_map, fixedDigits]
  congr 1
  refine List.map_congr_left fun i _ => ?_
  rw [Function.comp_apply, show w + 1 - 1 - i.succ = w - 1 - i by omega]

/-- Reading the digits gives the number back. -/
theorem foldl_fixedDigits {b : Nat} (pos : 0 < b) {value : Char → Nat}
    (h : ∀ d < b, value (Nat.digitChar d) = d) (w n acc : Nat) :
    (fixedDigits b w n).foldl (fun acc c => b * acc + value c) acc = acc * b ^ w + n % b ^ w := by
  induction w generalizing acc with
  | zero => simp [fixedDigits, Nat.mod_one]
  | succ w ih =>
    rw [fixedDigits_succ, List.foldl_cons, h _ (Nat.mod_lt _ pos), ih, Nat.mod_pow_succ]
    ring

/-- Pieces of one length are told apart in their concatenation. -/
theorem flatMap_injective {α β : Type} {f : α → List β} {w : Nat} (pos : 0 < w)
    (length : ∀ a, (f a).length = w) (inj : Function.Injective f) :
    Function.Injective fun l : List α => l.flatMap f := by
  intro l
  induction l with
  | nil =>
    intro l' h
    cases l' with
    | nil => rfl
    | cons a l' =>
      have empty := congrArg List.length h
      simp only [List.flatMap_nil, List.flatMap_cons, List.length_append, length, List.length_nil] at empty
      omega
  | cons a l ih =>
    intro l' h
    cases l' with
    | nil =>
      have empty := congrArg List.length h
      simp only [List.flatMap_nil, List.flatMap_cons, List.length_append, length, List.length_nil] at empty
      omega
    | cons a' l' =>
      simp only [List.flatMap_cons] at h
      obtain ⟨head, tail⟩ := List.append_inj h ((length a).trans (length a').symm)
      rw [inj head, ih tail]

/-- What stands before the first separator and what after it are told apart. -/
theorem append_separator_inj {α : Type} {sep : α} {a a' r r' : List α} (h : sep ∉ a) (h' : sep ∉ a')
    (e : a ++ sep :: r = a' ++ sep :: r') : a = a' ∧ r = r' := by
  induction a generalizing a' with
  | nil =>
    cases a' with
    | nil => exact ⟨rfl, List.tail_eq_of_cons_eq e⟩
    | cons x xs => exact absurd (List.head_eq_of_cons_eq e) (fun hx => h' (hx ▸ List.mem_cons_self))
  | cons x xs ih =>
    cases a' with
    | nil => exact absurd (List.head_eq_of_cons_eq e) (fun hx => h (hx ▸ List.mem_cons_self))
    | cons y ys =>
      obtain ⟨hxy, ht⟩ := List.cons_eq_cons.mp e
      obtain ⟨hs, hr⟩ := ih (fun hm => h (List.mem_cons_of_mem _ hm))
        (fun hm => h' (List.mem_cons_of_mem _ hm)) ht
      exact ⟨by rw [hxy, hs], hr⟩

/-- The same, of the last separator. -/
theorem append_separator_inj_last {α : Type} {sep : α} {a a' r r' : List α} (h : sep ∉ r) (h' : sep ∉ r')
    (e : a ++ sep :: r = a' ++ sep :: r') : a = a' ∧ r = r' := by
  have backwards := congrArg List.reverse e
  simp only [List.reverse_append, List.reverse_cons, List.append_assoc, List.singleton_append] at backwards
  obtain ⟨hr, ha⟩ := append_separator_inj (fun hm => h (List.mem_reverse.mp hm))
    (fun hm => h' (List.mem_reverse.mp hm)) backwards
  exact ⟨List.reverse_injective ha, List.reverse_injective hr⟩

end LlmGateway.Lib
