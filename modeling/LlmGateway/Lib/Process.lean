import Mathlib.Logic.Function.Basic

/-! Computations that go on in steps over a world: between two steps it may be changed by others. -/
namespace LlmGateway.Lib

/-- It has ended, or has an effect on the world it meets and goes on from there. -/
inductive Process (W α : Type) where
  | done (result : α)
  | step (effect : W → W) (next : W → Process W α)

namespace Process
variable {W α : Type}

/-- What it comes to with nothing in between. -/
def alone : Process W α → W → W × α
  | .done result, w => (w, result)
  | .step effect next, w => (next w).alone (effect w)

/-- What it may come to, whatever worlds its steps meet. -/
inductive Yields : Process W α → α → Prop where
  | done (result : α) : Yields (.done result) result
  | step {effect : W → W} {next : W → Process W α} {result : α} (w : W) :
    Yields (next w) result → Yields (.step effect next) result

/-- An operation on the world, and what follows on its result. -/
def perform {β : Type} (operation : W → W × β) (next : β → Process W α) : Process W α :=
  .step (fun w => (operation w).1) fun w => next (operation w).2

@[simp] theorem alone_perform {β : Type} (operation : W → W × β) (next : β → Process W α) (w : W) :
    (perform operation next).alone w = (next (operation w).2).alone (operation w).1 := rfl

end Process
end LlmGateway.Lib
