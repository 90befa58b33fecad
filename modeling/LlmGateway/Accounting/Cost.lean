import LlmGateway.Lib.Decimal
import LlmGateway.Ledger.Port

/-! Usage times price: `compute_cost` and `CostAccountant`. -/
namespace LlmGateway.Accounting
open Lib Ledger

/-- The `str` predicates `Money` tests a currency with. -/
structure PythonStr where
  isupper : String → Bool
  isalpha : String → Bool

/-- `str.isupper` and `str.isalpha` on ASCII text. -/
def asciiStr : PythonStr where
  isupper s := s.toList.any Char.isUpper && !s.toList.any Char.isLower
  isalpha s := !s.toList.isEmpty && s.toList.all Char.isAlpha

structure ProviderUsage where
  promptTokens : Int
  completionTokens : Int
  deriving DecidableEq, Repr

/-- Prices are finite decimals, by value. -/
structure ModelPrice where
  inputPricePer1k : ℚ
  outputPricePer1k : ℚ
  currency : String
  deriving DecidableEq

/-- What turning a call into money may raise. -/
inductive CostError where
  | missingUsage
  | malformedUsage
  | unknownPrice
  | priceTableUnavailable
  | invalidCurrency
  | decimal (signal : Decimal.Signal)
  deriving DecidableEq, Repr

/-- `ACCOUNTING_DEFECTS`. -/
def CostError.accountingDefect : CostError → Bool
  | .missingUsage | .malformedUsage | .unknownPrice => true
  | _ => false

/-- What `price_for` may do. -/
inductive PriceLookup where
  | price (p : ModelPrice)
  | unpriced
  | unavailable
  deriving DecidableEq

section
variable (py : PythonStr)

def validCurrency (currency : String) : Bool :=
  currency.length = 3 && py.isupper currency && py.isalpha currency

def signal {α : Type} (x : Except Decimal.Signal α) : Except CostError α :=
  x.mapError .decimal

/-- `Money(amount, currency).quantize()`, in units of 1e-8. -/
def quantized (amount : ℚ) (currency : String) : Except CostError Money := do
  if !validCurrency py currency then throw .invalidCurrency
  let units ← signal (Decimal.pythonContext.quantize 8 amount)
  return ⟨units, currency⟩

def tokenCost (tokens : Int) (pricePer1k : ℚ) (currency : String) : Except CostError Money := do
  let thousands ← signal (Decimal.pythonContext.div tokens 1000)
  let amount ← signal (Decimal.pythonContext.mul thousands pricePer1k)
  quantized py amount currency

/-- `compute_cost`: the input, output and total cost. -/
def computeCost (usage : ProviderUsage) (price : ModelPrice) :
    Except CostError (Money × Money × Money) := do
  let inputCost ← tokenCost py usage.promptTokens price.inputPricePer1k price.currency
  let outputCost ← tokenCost py usage.completionTokens price.outputPricePer1k price.currency
  let sum ← signal (Decimal.pythonContext.add (inputCost.amount / 10 ^ 8) (outputCost.amount / 10 ^ 8))
  let totalCost ← quantized py sum price.currency
  return (inputCost, outputCost, totalCost)

/-- The provider and model a cost is booked under. -/
structure ProviderDescriptor where
  name : String
  model : String
  deriving DecidableEq, Repr

/-- `CostAccountant.account`, as the detail `settle` hands to the ledger. -/
def account (usage : Option ProviderUsage) (provider : ProviderDescriptor) (lookup : PriceLookup) :
    Except CostError SettlementDetail :=
  match usage with
  | none => .error .missingUsage
  | some usage =>
    if usage.promptTokens < 0 ∨ usage.completionTokens < 0 then .error .malformedUsage
    else
      match lookup with
      | .unavailable => .error .priceTableUnavailable
      | .unpriced => .error .unknownPrice
      | .price p => do
        let (inputCost, outputCost, totalCost) ← computeCost py usage p
        return ⟨provider.name, provider.model, usage.promptTokens, usage.completionTokens,
          inputCost, outputCost, totalCost⟩

end

/-- `estimate_usage`, by the length of the payload's text. -/
def estimateUsage (payloadChars : Nat) : ProviderUsage :=
  let promptTokens : Nat := max 1 (payloadChars / 4)
  ⟨promptTokens, promptTokens⟩

variable {py : PythonStr}

/-- A computation that succeeds succeeded at its first step. -/
private theorem ok_of_bind {ε β γ : Type} {first : Except ε β} {rest : β → Except ε γ} {c : γ} :
    (first >>= rest) = .ok c → ∃ b, first = .ok b ∧ rest b = .ok c := by
  rcases first with e | b
  · exact fun h => nomatch h
  · exact fun h => ⟨b, rfl, h⟩

private theorem quantized_currency {amount : ℚ} {currency : String} {m : Money}
    (h : quantized py amount currency = .ok m) : m.currency = currency := by
  unfold quantized at h
  split at h
  · cases h
  · obtain ⟨units, _, hm⟩ := ok_of_bind h
    cases hm
    rfl

/-- The total is in the price's currency. -/
theorem computeCost_currency {usage : ProviderUsage} {price : ModelPrice} {i o t : Money}
    (h : computeCost py usage price = .ok (i, o, t)) : t.currency = price.currency := by
  obtain ⟨_, _, h⟩ := ok_of_bind h
  obtain ⟨_, _, h⟩ := ok_of_bind h
  obtain ⟨_, _, h⟩ := ok_of_bind h
  obtain ⟨total, ht, h⟩ := ok_of_bind h
  cases h
  exact quantized_currency ht

private theorem error_of_bind {ε β γ : Type} {first : Except ε β} {rest : β → Except ε γ} {e : ε} :
    (first >>= rest) = .error e → first = .error e ∨ ∃ b, rest b = .error e := by
  rcases first with e' | b
  · exact fun h => .inl (by cases h; rfl)
  · exact fun h => .inr ⟨b, h⟩

private theorem signal_not_defect {β : Type} {x : Except Lib.Decimal.Signal β} {e : CostError}
    (h : signal x = .error e) : e.accountingDefect = false := by
  cases x <;> cases h
  rfl

private theorem quantized_not_defect {amount : ℚ} {currency : String} {e : CostError}
    (h : quantized py amount currency = .error e) : e.accountingDefect = false := by
  unfold quantized at h
  split at h
  · cases h
    rfl
  · rcases error_of_bind h with h | ⟨_, h⟩
    · exact signal_not_defect h
    · cases h

private theorem tokenCost_not_defect {tokens : Int} {pricePer1k : ℚ} {currency : String}
    {e : CostError} (h : tokenCost py tokens pricePer1k currency = .error e) :
    e.accountingDefect = false := by
  rcases error_of_bind h with h | ⟨_, h⟩
  · exact signal_not_defect h
  rcases error_of_bind h with h | ⟨_, h⟩
  · exact signal_not_defect h
  · exact quantized_not_defect h

/-- Whatever `compute_cost` raises is not one of the three errors callers catch. -/
theorem computeCost_not_defect {usage : ProviderUsage} {price : ModelPrice} {e : CostError}
    (h : computeCost py usage price = .error e) : e.accountingDefect = false := by
  rcases error_of_bind h with h | ⟨_, h⟩
  · exact tokenCost_not_defect h
  rcases error_of_bind h with h | ⟨_, h⟩
  · exact tokenCost_not_defect h
  rcases error_of_bind h with h | ⟨_, h⟩
  · exact signal_not_defect h
  rcases error_of_bind h with h | ⟨_, h⟩
  · exact quantized_not_defect h
  · cases h

/-- Whatever is accounted for was reported, with counts that are not negative. -/
theorem account_usage {usage : Option ProviderUsage} {provider : ProviderDescriptor}
    {lookup : PriceLookup} {detail : SettlementDetail}
    (h : account py usage provider lookup = .ok detail) :
    ∃ u, usage = some u ∧ 0 ≤ u.promptTokens ∧ 0 ≤ u.completionTokens := by
  unfold account at h
  cases usage with
  | none => cases h
  | some u =>
    dsimp only at h
    split_ifs at h with hn
    exact ⟨u, rfl, by omega, by omega⟩

end LlmGateway.Accounting
