import LlmGateway.Accounting.Cost
import Mathlib.Tactic.Linarith
import Mathlib.Tactic.NormNum
import Mathlib.Tactic.Positivity

/-! `compute_cost` over the whole range of the ledger's columns: nothing is rounded before the
amounts are quantized, nothing raises, and a cost never falls when a count or a price rises. -/
namespace LlmGateway.Accounting
open Lib Ledger Lib.Decimal

/-- A count the `integer` columns of `cost_ledger` take. -/
def IntegerColumn (tokens : Int) : Prop := 0 ≤ tokens ∧ tokens < 2 ^ 31

/-- A price that is not negative and has eighteen digits, eight of them decimals. -/
def Numeric (price : ℚ) : Prop := ∃ units : Nat, units < 10 ^ 18 ∧ price = units / 10 ^ 8

/-- A call the ledger's columns have room for. -/
structure Billable (usage : ProviderUsage) (price : ModelPrice) : Prop where
  prompt : IntegerColumn usage.promptTokens
  completion : IntegerColumn usage.completionTokens
  input : Numeric price.inputPricePer1k
  output : Numeric price.outputPricePer1k

/-- The price of `tokens`, exactly. -/
def exactCost (tokens : Int) (pricePer1k : ℚ) : ℚ := tokens * pricePer1k / 1000

/-- It, rounded once, in units of 1e-8. -/
def roundedCost (tokens : Int) (pricePer1k : ℚ) : Int :=
  roundHalfEven (exactCost tokens pricePer1k * 10 ^ 8)

/-- The arithmetic before the amount is quantized loses nothing. -/
structure Unrounded (tokens : Int) (pricePer1k : ℚ) : Prop where
  div : pythonContext.div tokens 1000 = .ok (tokens / 1000)
  mul : pythonContext.mul (tokens / 1000) pricePer1k = .ok (exactCost tokens pricePer1k)

/-- What `compute_cost` computes: two amounts rounded once and their sum. It raises for a currency
that `Money` refuses, and for nothing else. -/
structure ExactCost (py : PythonStr) (usage : ProviderUsage) (price : ModelPrice) : Prop where
  input : Unrounded usage.promptTokens price.inputPricePer1k
  output : Unrounded usage.completionTokens price.outputPricePer1k
  cost : computeCost py usage price =
    let input := roundedCost usage.promptTokens price.inputPricePer1k
    let output := roundedCost usage.completionTokens price.outputPricePer1k
    if validCurrency py price.currency then
      .ok (⟨input, price.currency⟩, ⟨output, price.currency⟩, ⟨input + output, price.currency⟩)
    else .error .invalidCurrency

/-- No count and no price is smaller in the second. -/
structure Covers (usage usage' : ProviderUsage) (price price' : ModelPrice) : Prop where
  prompt : usage.promptTokens ≤ usage'.promptTokens
  completion : usage.completionTokens ≤ usage'.completionTokens
  inputPrice : price.inputPricePer1k ≤ price'.inputPricePer1k
  outputPrice : price.outputPricePer1k ≤ price'.outputPricePer1k

variable {py : PythonStr} {tokens : Int} {pricePer1k : ℚ}

section Column
variable (ht : IntegerColumn tokens) (hp : Numeric pricePer1k)
include ht hp

private theorem unrounded : Unrounded tokens pricePer1k := by
  obtain ⟨units, hunits, rfl⟩ := hp
  obtain ⟨h₀, h₁⟩ := ht
  constructor
  · have exact_count := Context.fix_exact (c := pythonContext) (by decide) (n := tokens)
      (by simp only [pythonContext]; omega) 3
    norm_num at exact_count
    exact exact_count
  · have fits : (tokens * units).natAbs < 10 ^ pythonContext.prec := by
      rw [Int.natAbs_mul, Int.natAbs_natCast]
      calc tokens.natAbs * units ≤ 2 ^ 31 * 10 ^ 18 := Nat.mul_le_mul (by omega) hunits.le
        _ < 10 ^ pythonContext.prec := by decide
    have exact_product := Context.fix_exact (c := pythonContext) (by decide) fits 11
    have product : (tokens : ℚ) / 1000 * (units / 10 ^ 8) = (tokens * units : ℤ) / 10 ^ 11 := by
      push_cast
      ring
    have exact_cost : exactCost tokens (units / 10 ^ 8) = (tokens * units : ℤ) / 10 ^ 11 := by
      rw [exactCost]
      push_cast
      ring
    rw [Context.mul, product, exact_cost]
    exact exact_product

/-- A cost is not negative and has room to be added to another. -/
private theorem roundedCost_bounds :
    0 ≤ roundedCost tokens pricePer1k ∧ roundedCost tokens pricePer1k ≤ 2 ^ 31 * 10 ^ 15 := by
  obtain ⟨units, hunits, rfl⟩ := hp
  obtain ⟨h₀, h₁⟩ := ht
  have count : (tokens : ℚ) ≤ 2 ^ 31 := by exact_mod_cast h₁.le
  have count₀ : (0 : ℚ) ≤ tokens := by exact_mod_cast h₀
  have price : (units : ℚ) ≤ 10 ^ 18 := by exact_mod_cast hunits.le
  have scaled : exactCost tokens (units / 10 ^ 8) * 10 ^ 8 = tokens * units / 1000 := by
    rw [exactCost]
    ring
  rw [roundedCost, scaled]
  constructor
  · rw [← roundHalfEven_intCast 0]
    apply roundHalfEven_mono
    positivity
  · rw [← roundHalfEven_intCast (2 ^ 31 * 10 ^ 15)]
    apply roundHalfEven_mono
    have most : (tokens : ℚ) * units ≤ 2 ^ 31 * 10 ^ 18 :=
      mul_le_mul count price (Nat.cast_nonneg _) (by norm_num)
    push_cast
    linarith

private theorem tokenCost_exact (currency : String) : tokenCost py tokens pricePer1k currency =
    if validCurrency py currency then .ok ⟨roundedCost tokens pricePer1k, currency⟩
    else .error .invalidCurrency := by
  have arithmetic := unrounded ht hp
  obtain ⟨h₀, h₁⟩ := roundedCost_bounds ht hp
  have fits : ¬ 10 ^ pythonContext.prec ≤ (roundedCost tokens pricePer1k).natAbs := by
    simp only [pythonContext]
    omega
  have units : pythonContext.quantize 8 (exactCost tokens pricePer1k) =
      .ok (roundedCost tokens pricePer1k) := if_neg fits
  rw [tokenCost, arithmetic.div]
  show (signal (pythonContext.mul (tokens / 1000) pricePer1k) >>= fun amount =>
    quantized py amount currency) = _
  rw [arithmetic.mul]
  show quantized py (exactCost tokens pricePer1k) currency = _
  rw [quantized, units]
  cases validCurrency py currency <;> rfl

end Column

/-- Adding two amounts and quantizing the sum changes neither. -/
private theorem sum_exact {x y : Int} (hx : 0 ≤ x ∧ x ≤ 2 ^ 31 * 10 ^ 15)
    (hy : 0 ≤ y ∧ y ≤ 2 ^ 31 * 10 ^ 15) :
    pythonContext.add (x / 10 ^ 8) (y / 10 ^ 8) = .ok ((x + y : ℤ) / 10 ^ 8) ∧
      pythonContext.quantize 8 ((x + y : ℤ) / 10 ^ 8) = .ok (x + y) := by
  have fits : (x + y).natAbs < 10 ^ pythonContext.prec := by
    simp only [pythonContext]
    omega
  constructor
  · rw [Context.add, show (x : ℚ) / 10 ^ 8 + y / 10 ^ 8 = (x + y : ℤ) / 10 ^ 8 by push_cast; ring]
    exact Context.fix_exact (by decide) fits 8
  · have units : ((x + y : ℤ) : ℚ) / 10 ^ 8 * 10 ^ 8 = (x + y : ℤ) := by
      rw [div_mul_cancel₀]
      norm_num
    rw [Context.quantize, units, roundHalfEven_intCast]
    exact if_neg (not_le.mpr fits)

private theorem exactCost_of_billable {usage : ProviderUsage} {price : ModelPrice}
    (h : Billable usage price) : ExactCost py usage price := by
  refine ⟨unrounded h.prompt h.input, unrounded h.completion h.output, ?_⟩
  obtain ⟨add, units⟩ := sum_exact (roundedCost_bounds h.prompt h.input)
    (roundedCost_bounds h.completion h.output)
  rw [computeCost, tokenCost_exact h.prompt h.input, tokenCost_exact h.completion h.output]
  cases valid : validCurrency py price.currency with
  | false => rfl
  | true =>
    show (signal (pythonContext.add _ _) >>= fun sum => quantized py sum price.currency >>= _) = _
    rw [add]
    show (quantized py _ price.currency >>= _) = _
    rw [quantized, units, valid]
    rfl

private theorem roundedCost_mono {tokens' : Int} {pricePer1k' : ℚ} (ht : IntegerColumn tokens)
    (hp : Numeric pricePer1k) (tokens_le : tokens ≤ tokens') (price_le : pricePer1k ≤ pricePer1k') :
    roundedCost tokens pricePer1k ≤ roundedCost tokens' pricePer1k' := by
  obtain ⟨units, _, rfl⟩ := hp
  have count : (0 : ℚ) ≤ tokens' := by exact_mod_cast ht.1.trans tokens_le
  have price : (0 : ℚ) ≤ units / 10 ^ 8 := by positivity
  have cost : (tokens : ℚ) * (units / 10 ^ 8) ≤ tokens' * pricePer1k' :=
    mul_le_mul (by exact_mod_cast tokens_le) price_le price count
  apply roundHalfEven_mono
  rw [exactCost, exactCost]
  linarith

/-- Over the ledger's columns the costs are exact up to the one rounding, and an estimate that
covers the usage, at prices that cover its prices, costs no less. -/
theorem cost_exact (py : PythonStr) (usage usage' : ProviderUsage) (price price' : ModelPrice)
    (billable : Billable usage price) (billable' : Billable usage' price') :
    ExactCost py usage price ∧
      (Covers usage usage' price price' → ∀ i o t i' o' t',
        computeCost py usage price = .ok (i, o, t) →
        computeCost py usage' price' = .ok (i', o', t') → t.amount ≤ t'.amount) := by
  have total {usage : ProviderUsage} {price : ModelPrice} (h : Billable usage price) {i o t : Money}
      (hcost : computeCost py usage price = .ok (i, o, t)) :
      t.amount = roundedCost usage.promptTokens price.inputPricePer1k +
        roundedCost usage.completionTokens price.outputPricePer1k := by
    rw [(exactCost_of_billable h).cost] at hcost
    dsimp only at hcost
    split_ifs at hcost
    cases hcost
    rfl
  refine ⟨exactCost_of_billable billable, fun covers i o t i' o' t' hcost hcost' => ?_⟩
  rw [total billable hcost, total billable' hcost']
  exact add_le_add (roundedCost_mono billable.prompt billable.input covers.prompt covers.inputPrice)
    (roundedCost_mono billable.completion billable.output covers.completion covers.outputPrice)

/-- The most tokens at the highest prices: twenty-eight digits, and still exact. -/
theorem cost_exact_at_the_limit :
    let usage : ProviderUsage := ⟨2 ^ 31 - 1, 2 ^ 31 - 1⟩
    let price : ModelPrice := ⟨(10 ^ 18 - 1) / 10 ^ 8, (10 ^ 18 - 1) / 10 ^ 8, "USD"⟩
    ExactCost asciiStr usage price := by
  have column : IntegerColumn (2 ^ 31 - 1) := by constructor <;> norm_num
  have numeric : Numeric ((10 ^ 18 - 1) / 10 ^ 8) := ⟨10 ^ 18 - 1, by norm_num, by norm_num⟩
  have billable : Billable ⟨2 ^ 31 - 1, 2 ^ 31 - 1⟩
      ⟨(10 ^ 18 - 1) / 10 ^ 8, (10 ^ 18 - 1) / 10 ^ 8, "USD"⟩ := ⟨column, column, numeric, numeric⟩
  exact (cost_exact asciiStr _ _ _ _ billable billable).1

end LlmGateway.Accounting
