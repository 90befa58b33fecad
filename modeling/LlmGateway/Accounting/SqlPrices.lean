import LlmGateway.Accounting.Cost
import LlmGateway.Lib.OrderBy
import LlmGateway.Persistence.CatalogTables

/-! `SqlPriceTable`: the price of a model that is in force at an instant. -/
namespace LlmGateway.Accounting
open Ledger Auth Persistence Lib.OrderBy

/-- `effective_from <= now AND (effective_to IS NULL OR effective_to > now)`. -/
def inForce (now : Timestamp) (row : PriceRow) : Prop :=
  row.effectiveFrom ≤ now ∧ ∀ till ∈ row.effectiveTo, now < till

instance (now : Timestamp) (row : PriceRow) : Decidable (inForce now row) :=
  inferInstanceAs (Decidable (_ ∧ _))

/-- `ORDER BY effective_from DESC`. -/
def newerFirst (a b : PriceRow) : Prop := b.effectiveFrom ≤ a.effectiveFrom

instance : DecidableRel newerFirst := fun _ _ => inferInstanceAs (Decidable (_ ≤ _))

/-- What the query selects, before its order. -/
def priceRows (σ : CatalogTables) (provider model : String) (org : OrgId) (now : Timestamp) : List PriceRow :=
  let τ := σ.shown org
  (τ.priceTable.filter fun price => price.organizationId = org ∧ inForce now price).flatMap fun price =>
    (τ.model.filter fun m => m.id = price.modelId ∧ m.name = model).flatMap fun m =>
      (τ.provider.filter fun p => p.id = m.providerId ∧ p.name = provider).map fun _ => price

def quoted (row : PriceRow) : ModelPrice where
  inputPricePer1k := row.inputPricePer1k
  outputPricePer1k := row.outputPricePer1k
  currency := row.currency

/-- `SqlPriceTable.price_for`, from what the database answers. -/
def SqlPriceTable.priceFor (read : Except String CatalogTables) (now : Timestamp) (provider model : String)
    (org : OrgId) : PriceLookup :=
  match read with
  | .error _ => .unavailable
  | .ok σ =>
    match first newerFirst (priceRows σ provider model org now) with
    | none => .unpriced
    | some row => .price (quoted row)

/-! ### What is in force -/

/-- The id a tenant's provider has a model of the name under. -/
def Named (σ : CatalogTables) (org : OrgId) (provider model : String) (id : Uuid) : Prop :=
  ∃ m ∈ σ.model, m.organizationId = org ∧ m.id = id ∧ m.name = model ∧
    ∃ p ∈ σ.provider, p.organizationId = org ∧ p.id = m.providerId ∧ p.name = provider

/-- A price a tenant has listed for a model. -/
def Listed (σ : CatalogTables) (org : OrgId) (provider model : String) (row : PriceRow) : Prop :=
  row ∈ σ.priceTable ∧ row.organizationId = org ∧ Named σ org provider model row.modelId

/-- Of the prices in force at an instant, the one that came into force last. -/
structure Current (σ : CatalogTables) (org : OrgId) (provider model : String) (now : Timestamp)
    (row : PriceRow) : Prop where
  listed : Listed σ org provider model row
  inForce : inForce now row
  latest : ∀ other, Listed σ org provider model other → Accounting.inForce now other →
    other.effectiveFrom ≤ row.effectiveFrom

section
variable {σ τ : CatalogTables} {org : OrgId} {provider model : String} {now : Timestamp} {row other : PriceRow} {id id' : Uuid}

/-- A name is one model's. -/
theorem Named.unique (h : Named σ org provider model id) (h' : Named σ org provider model id') : id = id' := by
  obtain ⟨m, hm, tenant, rfl, name, p, hp, pTenant, pId, pName⟩ := h
  obtain ⟨n, hn, tenant', rfl, name', q, hq, qTenant, qId, qName⟩ := h'
  obtain rfl : p = q := σ.provider_of_name hp hq (pTenant.trans qTenant.symm) (pName.trans qName.symm)
  obtain rfl : m = n := σ.model_of_name hm hn (pId.symm.trans qId) (name.trans name'.symm)
  rfl

theorem mem_priceRows : row ∈ priceRows σ provider model org now ↔
    Listed σ org provider model row ∧ inForce now row := by
  simp only [priceRows, List.mem_flatMap, List.mem_map, List.mem_filter, CatalogTables.mem_shown_priceTable,
    CatalogTables.mem_shown_model, CatalogTables.mem_shown_provider, decide_eq_true_eq]
  constructor
  · rintro ⟨price, ⟨⟨hr, tenant⟩, -, current⟩, m, ⟨⟨hm, mTenant⟩, mId, mName⟩, p, ⟨⟨hp, pTenant⟩, pId, pName⟩, rfl⟩
    exact ⟨⟨hr, tenant, m, hm, mTenant, mId, mName, p, hp, pTenant, pId, pName⟩, current⟩
  · rintro ⟨⟨hr, tenant, m, hm, mTenant, mId, mName, p, hp, pTenant, pId, pName⟩, current⟩
    exact ⟨row, ⟨⟨hr, tenant⟩, tenant, current⟩, m, ⟨⟨hm, mTenant⟩, mId, mName⟩, p, ⟨⟨hp, pTenant⟩, pId, pName⟩, rfl⟩

instance : Std.Total newerFirst where
  total a b := le_total b.effectiveFrom a.effectiveFrom

instance : IsTrans PriceRow newerFirst where
  trans _ _ _ ab bc := le_trans bc ab

theorem priceRows_apart : ∀ a ∈ priceRows σ provider model org now, ∀ b ∈ priceRows σ provider model org now,
    newerFirst a b → newerFirst b a → a = b := by
  intro a ha b hb ab ba
  obtain ⟨⟨ha, -, named⟩, -⟩ := mem_priceRows.mp ha
  obtain ⟨⟨hb, -, named'⟩, -⟩ := mem_priceRows.mp hb
  exact σ.price_of_start ha hb (named.unique named') (le_antisymm ba ab)

theorem first_priceRows : first newerFirst (priceRows σ provider model org now) = some row ↔
    Current σ org provider model now row := by
  rw [first_eq_some_iff priceRows_apart, mem_priceRows]
  constructor
  · rintro ⟨⟨listed, current⟩, latest⟩
    exact ⟨listed, current, fun other hl hc => latest other (mem_priceRows.mpr ⟨hl, hc⟩)⟩
  · rintro ⟨listed, current, latest⟩
    exact ⟨⟨listed, current⟩, fun other h => (mem_priceRows.mp h).elim (latest other)⟩

/-- The price for a model is the one in force at the instant that came into force last. -/
theorem priceFor_eq_price {p : ModelPrice} : SqlPriceTable.priceFor (.ok σ) now provider model org = .price p ↔
    ∃ row, Current σ org provider model now row ∧ quoted row = p := by
  simp only [SqlPriceTable.priceFor, ← first_priceRows]
  cases first newerFirst (priceRows σ provider model org now) <;> simp

theorem priceFor_eq_unpriced : SqlPriceTable.priceFor (.ok σ) now provider model org = .unpriced ↔
    ∀ row, Listed σ org provider model row → ¬ inForce now row := by
  have whole : SqlPriceTable.priceFor (.ok σ) now provider model org = .unpriced ↔
      first newerFirst (priceRows σ provider model org now) = none := by
    simp only [SqlPriceTable.priceFor]
    cases first newerFirst (priceRows σ provider model org now) <;> simp
  rw [whole, first_eq_none_iff, List.eq_nil_iff_forall_not_mem]
  exact forall_congr' fun row => (not_congr mem_priceRows).trans not_and

/-! ### What is known by an instant -/

/-- A price as it is known at an instant: not yet when it starts later, and as open when it ends later. -/
def knownAt (now : Timestamp) (row : PriceRow) : Option PriceRow :=
  if row.effectiveFrom ≤ now then some { row with effectiveTo := row.effectiveTo.filter (· ≤ now) } else none

/-- The prices of a model as they are known at an instant. -/
def Known (now : Timestamp) (org : OrgId) (provider model : String) (σ : CatalogTables) (known : PriceRow) : Prop :=
  ∃ row, Listed σ org provider model row ∧ knownAt now row = some known

/-- Two states of the tables that are one to whom knows what is known at an instant. -/
def SameUntil (now : Timestamp) (org : OrgId) (provider model : String) (σ τ : CatalogTables) : Prop :=
  ∀ known, Known now org provider model σ known ↔ Known now org provider model τ known

theorem knownAt_bind {past : Timestamp} (h : past ≤ now) (row : PriceRow) :
    (knownAt now row).bind (knownAt past) = knownAt past row := by
  unfold knownAt
  by_cases started : row.effectiveFrom ≤ now
  · rw [if_pos started, Option.bind_some]
    have opened : (row.effectiveTo.filter (· ≤ now)).filter (· ≤ past) = row.effectiveTo.filter (· ≤ past) := by
      rw [Option.filter_filter]
      refine congrArg (Option.filter · _) (funext fun till => ?_)
      by_cases ended : till ≤ past
      · simp [ended, ended.trans h]
      · simp [ended]
    rw [opened]
  · rw [if_neg started, Option.bind_none, if_neg fun early => started (early.trans h)]

/-- What is known of a price is where it starts and what it asks. -/
theorem knownAt_keeps {known : PriceRow} (h : knownAt now row = some known) :
    known.effectiveFrom = row.effectiveFrom ∧ quoted known = quoted row := by
  unfold knownAt at h
  split at h
  · cases h
    exact ⟨rfl, rfl⟩
  · cases h

/-- A price is in force when it is known and not known to end. -/
theorem inForce_iff_known : inForce now row ↔ ∃ known, knownAt now row = some known ∧ known.effectiveTo = none := by
  unfold knownAt inForce
  by_cases started : row.effectiveFrom ≤ now
  · simp [started, Option.filter_eq_none_iff]
  · simp [started]

/-- The current price, by what is known. -/
theorem current_iff_known {p : ModelPrice} : (∃ row, Current σ org provider model now row ∧ quoted row = p) ↔
    ∃ known, Known now org provider model σ known ∧ known.effectiveTo = none ∧ quoted known = p ∧
      ∀ other, Known now org provider model σ other → other.effectiveTo = none →
        other.effectiveFrom ≤ known.effectiveFrom := by
  constructor
  · rintro ⟨row, current, rfl⟩
    obtain ⟨known, h, opened⟩ := inForce_iff_known.mp current.inForce
    obtain ⟨start, quote⟩ := knownAt_keeps h
    refine ⟨known, ⟨row, current.listed, h⟩, opened, quote, ?_⟩
    rintro other ⟨row', listed, h'⟩ opened'
    rw [start, (knownAt_keeps h').1]
    exact current.latest row' listed (inForce_iff_known.mpr ⟨other, h', opened'⟩)
  · rintro ⟨known, ⟨row, listed, h⟩, opened, rfl, latest⟩
    obtain ⟨start, quote⟩ := knownAt_keeps h
    refine ⟨row, ⟨listed, inForce_iff_known.mpr ⟨known, h, opened⟩, fun other also inForce => ?_⟩, quote.symm⟩
    obtain ⟨known', h', opened'⟩ := inForce_iff_known.mp inForce
    rw [← start, ← (knownAt_keeps h').1]
    exact latest known' ⟨other, also, h'⟩ opened'

/-- What is the same until an instant is the same until any before. -/
theorem SameUntil.past {past : Timestamp} (same : SameUntil now org provider model σ τ) (h : past ≤ now) :
    SameUntil past org provider model σ τ := by
  have earlier (υ : CatalogTables) (known : PriceRow) : Known past org provider model υ known ↔
      ∃ recent, Known now org provider model υ recent ∧ knownAt past recent = some known := by
    constructor
    · rintro ⟨row, listed, was⟩
      rw [← knownAt_bind h, Option.bind_eq_some_iff] at was
      obtain ⟨recent, is, was⟩ := was
      exact ⟨recent, ⟨row, listed, is⟩, was⟩
    · rintro ⟨recent, ⟨row, listed, is⟩, was⟩
      refine ⟨row, listed, ?_⟩
      rw [← knownAt_bind h, is, Option.bind_some, was]
  intro known
  rw [earlier, earlier]
  exact exists_congr fun recent => and_congr_left fun _ => same recent

theorem priceFor_readable : SqlPriceTable.priceFor (.ok σ) now provider model org ≠ .unavailable := by
  simp only [SqlPriceTable.priceFor]
  cases first newerFirst (priceRows σ provider model org now) <;> simp

theorem SameUntil.priceFor (same : SameUntil now org provider model σ τ) :
    SqlPriceTable.priceFor (.ok τ) now provider model org = SqlPriceTable.priceFor (.ok σ) now provider model org := by
  have known : Known now org provider model τ = Known now org provider model σ :=
    funext fun known => propext (same known).symm
  have price (p : ModelPrice) : SqlPriceTable.priceFor (.ok τ) now provider model org = .price p ↔
      SqlPriceTable.priceFor (.ok σ) now provider model org = .price p := by
    rw [priceFor_eq_price, priceFor_eq_price, current_iff_known, current_iff_known, known]
  cases later : SqlPriceTable.priceFor (.ok τ) now provider model org with
  | price p => exact ((price p).mp later).symm
  | unavailable => exact absurd later priceFor_readable
  | unpriced =>
    cases before : SqlPriceTable.priceFor (.ok σ) now provider model org with
    | price p =>
      rw [(price p).mpr before] at later
      cases later
    | unavailable => exact absurd before priceFor_readable
    | unpriced => rfl

/-- Whatever becomes of the tables after an instant, a price asked for that instant or one before is what
it was: the price listed for the tenant's model that is in force and came into force last, and no price
when none is in force. -/
theorem price_reproducible (σ τ : CatalogTables) (org : OrgId) (provider model : String) (now past : Timestamp)
    (same : SameUntil now org provider model σ τ) (h : past ≤ now) :
    SqlPriceTable.priceFor (.ok τ) past provider model org = SqlPriceTable.priceFor (.ok σ) past provider model org ∧
    (∀ p, SqlPriceTable.priceFor (.ok σ) past provider model org = .price p ↔
      ∃ row, Current σ org provider model past row ∧ quoted row = p) ∧
    (SqlPriceTable.priceFor (.ok σ) past provider model org = .unpriced ↔
      ∀ row, Listed σ org provider model row → ¬ inForce past row) :=
  ⟨(same.past h).priceFor, fun _ => priceFor_eq_price, priceFor_eq_unpriced⟩

end

/-- One model, with a price since the instant zero. -/
def onePrice : CatalogTables where
  provider := [⟨10, 1, "openai", none, true⟩]
  model := [⟨20, 1, 10, "gpt", true⟩]
  priceTable := [⟨1, 20, "USD", 1, 2, 0, none⟩]
  provider_id := List.nodup_singleton _
  provider_org_name := List.nodup_singleton _
  model_id := List.nodup_singleton _
  model_provider_name := List.nodup_singleton _
  price_model_effective := List.nodup_singleton _

/-- The price is raised at the instant 100, and the model disabled. -/
def raisedPrice : CatalogTables :=
  { onePrice with
    model := [⟨20, 1, 10, "gpt", false⟩]
    priceTable := [⟨1, 20, "USD", 5, 6, 100, none⟩, ⟨1, 20, "USD", 1, 2, 0, some 100⟩]
    model_id := List.nodup_singleton _
    model_provider_name := List.nodup_singleton _
    price_model_effective := by decide }

private theorem known_onePrice (known : PriceRow) : Known 50 1 "openai" "gpt" onePrice known ↔
    known = ⟨1, 20, "USD", 1, 2, 0, none⟩ := by
  simp [Known, Listed, Named, onePrice, knownAt, eq_comm]

private theorem known_raised (known : PriceRow) : Known 50 1 "openai" "gpt" raisedPrice known ↔
    known = ⟨1, 20, "USD", 1, 2, 0, none⟩ := by
  constructor
  · rintro ⟨row, ⟨there, -, -⟩, known⟩
    rcases List.mem_cons.mp there with rfl | there
    · simp [knownAt] at known
    · obtain rfl := List.mem_singleton.mp there
      exact (Option.some.inj known).symm
  · rintro rfl
    exact ⟨⟨1, 20, "USD", 1, 2, 0, some 100⟩, ⟨by decide, rfl, ⟨20, 1, 10, "gpt", false⟩, by decide, rfl, rfl, rfl,
      ⟨10, 1, "openai", none, true⟩, by decide, rfl, rfl, rfl⟩, by decide⟩

theorem price_reproducible_raised :
    SqlPriceTable.priceFor (.ok raisedPrice) 40 "openai" "gpt" 1 = SqlPriceTable.priceFor (.ok onePrice) 40 "openai" "gpt" 1 ∧
      SqlPriceTable.priceFor (.ok raisedPrice) 40 "openai" "gpt" 1 = .price ⟨1, 2, "USD"⟩ ∧
      SqlPriceTable.priceFor (.ok raisedPrice) 100 "openai" "gpt" 1 = .price ⟨5, 6, "USD"⟩ :=
  ⟨(price_reproducible onePrice raisedPrice 1 "openai" "gpt" 50 40
    (fun known => (known_onePrice known).trans (known_raised known).symm) (by decide)).1, by decide, by decide⟩

end LlmGateway.Accounting
