import Mathlib.Logic.Function.Basic
import Mathlib.Data.List.Basic

/-! Machines that answer every input, and one machine kept per key: what a key is answered
depends on its own inputs alone. -/
namespace LlmGateway.Lib

structure Machine (σ ι ω : Type) where
  step : σ → ι → σ × ω

namespace Machine
variable {σ τ ι ω K : Type} (m : Machine σ ι ω)

/-- The last state and the answers. -/
def run (s : σ) : List ι → σ × List ω
  | [] => (s, [])
  | i :: is =>
    let (t, o) := m.step s i
    let (u, os) := run t is
    (u, o :: os)

@[simp] theorem run_cons (s : σ) (i : ι) (is : List ι) :
    m.run s (i :: is) = ((m.run (m.step s i).1 is).1, (m.step s i).2 :: (m.run (m.step s i).1 is).2) :=
  rfl

theorem run_concat (s : σ) (is : List ι) (i : ι) :
    m.run s (is ++ [i]) = ((m.step (m.run s is).1 i).1, (m.run s is).2 ++ [(m.step (m.run s is).1 i).2]) := by
  induction is generalizing s with
  | nil => rfl
  | cons j is ih => rw [List.cons_append, run_cons, run_cons, ih, List.cons_append]

/-- What one step keeps, a run keeps. -/
theorem run_rule {P : σ → Prop} (step : ∀ s i, P s → P (m.step s i).1) {s : σ} (h : P s)
    (is : List ι) : P (m.run s is).1 := by
  induction is generalizing s with
  | nil => exact h
  | cons i is ih => exact ih (step s i h)

/-- One state per key; an input is for one key and so is its answer. -/
def keyed [DecidableEq K] : Machine (K → σ) (K × ι) (K × ω) where
  step s i :=
    let (t, o) := m.step (s i.1) i.2
    (Function.update s i.1 t, (i.1, o))

/-- What a list of keyed values has for `k`. -/
def ofKey [DecidableEq K] (k : K) {α : Type} (l : List (K × α)) : List α :=
  (l.filter fun p => p.1 = k).map Prod.snd

section Keyed
variable [DecidableEq K] {α : Type} (k : K)

@[simp] theorem ofKey_cons_self (a : α) (l : List (K × α)) : ofKey k ((k, a) :: l) = a :: ofKey k l := by
  simp [ofKey]

theorem ofKey_cons_of_ne {p : K × α} (h : p.1 ≠ k) (l : List (K × α)) : ofKey k (p :: l) = ofKey k l := by
  simp [ofKey, h]

/-- A key's state and answers are those of its own inputs. -/
theorem keyed_run (s : K → σ) (is : List (K × ι)) :
    (m.keyed.run s is).1 k = (m.run (s k) (ofKey k is)).1 ∧
      ofKey k (m.keyed.run s is).2 = (m.run (s k) (ofKey k is)).2 := by
  induction is generalizing s with
  | nil => exact ⟨rfl, rfl⟩
  | cons i is ih =>
    obtain ⟨k', i⟩ := i
    by_cases h : k' = k
    · subst h
      have own : (m.keyed.step s (k', i)).1 k' = (m.step (s k') i).1 := Function.update_self ..
      rw [ofKey_cons_self, run_cons, run_cons]
      obtain ⟨hs, ho⟩ := ih (m.keyed.step s (k', i)).1
      rw [own] at hs ho
      exact ⟨hs, (ofKey_cons_self ..).trans (congrArg _ ho)⟩
    · have other : (m.keyed.step s (k', i)).1 k = s k := Function.update_of_ne (Ne.symm h) ..
      rw [ofKey_cons_of_ne k h, run_cons]
      obtain ⟨hs, ho⟩ := ih (m.keyed.step s (k', i)).1
      rw [other] at hs ho
      exact ⟨hs, (ofKey_cons_of_ne k h _).trans ho⟩

/-- Inputs for one key are answered by its own machine. -/
theorem keyed_run_single (s : K → σ) (is : List ι) :
    (m.keyed.run s (is.map (k, ·))).2 = (m.run (s k) is).2.map (k, ·) := by
  induction is generalizing s with
  | nil => rfl
  | cons i is ih =>
    have own : (m.keyed.step s (k, i)).1 k = (m.step (s k) i).1 := Function.update_self ..
    rw [List.map_cons, run_cons, run_cons, ih, own]
    rfl

end Keyed
end Machine
end LlmGateway.Lib
