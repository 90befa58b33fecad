import Mathlib.Data.List.Basic

/-! JSON values. Numbers with a fraction or an exponent are values of `F`. -/
namespace LlmGateway.Lib

inductive Json (F : Type) where
  | null
  | bool (b : Bool)
  | int (n : Int)
  | float (x : F)
  | str (s : String)
  | arr (items : List (Json F))
  | obj (members : List (String × Json F))

namespace Json
variable {F : Type}

abbrev Members (F : Type) := List (String × Json F)

/-- What holds of a value when it holds of what it contains. -/
theorem induct {P : Json F → Prop} (null : P .null) (bool : ∀ b, P (.bool b)) (int : ∀ n, P (.int n))
    (float : ∀ x, P (.float x)) (str : ∀ s, P (.str s))
    (arr : ∀ items, (∀ item ∈ items, P item) → P (.arr items))
    (obj : ∀ members, (∀ member ∈ members, P member.2) → P (.obj members)) (v : Json F) : P v := by
  refine @Json.rec F P (fun items => ∀ item ∈ items, P item) (fun members => ∀ member ∈ members, P member.2)
    (fun member => P member.2) null bool int float str arr obj ?_ ?_ ?_ ?_ ?_ v
  · exact fun _ h => absurd h List.not_mem_nil
  · exact fun _ _ first rest item h => (List.mem_cons.mp h).elim (· ▸ first) (rest item)
  · exact fun _ h => absurd h List.not_mem_nil
  · exact fun _ _ first rest member h => (List.mem_cons.mp h).elim (· ▸ first) (rest member)
  · exact fun _ _ h => h

end Json
end LlmGateway.Lib
